import A2Wave.Lib.JsText
import A2Wave.Lib.Separated

/-! The lines of a text, and what of them is not white space. -/

namespace A2Wave.JsText

/-- `split('\n')`. -/
def splitLines (s : Text) : List Text := s.splitOn '\n'

def joinLines (lines : List Text) : Text := ['\n'].intercalate lines

def texts (lines : List Text) : List Text := (lines.map trim).filter (· ≠ [])

def lineTexts (s : Text) : List Text := texts (splitLines s)

section Lines

variable {s t : Text} {lines : List Text}

theorem newline_not_mem_splitLines {line : Text} (h : line ∈ splitLines s) : '\n' ∉ line :=
  Separated.not_mem_of_mem_splitOn h

theorem joinLines_splitLines : joinLines (splitLines s) = s := List.intercalate_splitOn '\n'

theorem splitLines_joinLines (hne : lines ≠ []) (h : ∀ line ∈ lines, '\n' ∉ line) :
    splitLines (joinLines lines) = lines := List.splitOn_intercalate '\n' h hne

theorem texts_append (as bs : List Text) : texts (as ++ bs) = texts as ++ texts bs := by
  rw [texts, List.map_append, List.filter_append]
  rfl

theorem texts_flatten (groups : List (List Text)) : texts groups.flatten = groups.flatMap texts := by
  induction groups with
  | nil => rfl
  | cons group groups ih => rw [List.flatten_cons, texts_append, ih, List.flatMap_cons]

theorem texts_eq_self (h : ∀ line ∈ lines, trim line = line ∧ line ≠ []) : texts lines = lines := by
  induction lines with
  | nil => rfl
  | cons line lines ih =>
    obtain ⟨htrim, hne⟩ := h line List.mem_cons_self
    have hrest := ih fun l hl => h l (List.mem_cons_of_mem _ hl)
    rw [texts] at hrest
    rw [texts, List.map_cons, htrim, List.filter_cons_of_pos (by simpa using hne), hrest]

theorem texts_ne_nil {line : Text} (hmem : line ∈ lines) (h : trim line ≠ []) : texts lines ≠ [] := by
  refine List.ne_nil_of_mem (a := trim line) ?_
  exact List.mem_filter.mpr ⟨List.mem_map_of_mem hmem, by simpa using h⟩

theorem splitLines_newline : splitLines (s ++ '\n' :: t) = splitLines s ++ splitLines t :=
  List.splitOn_append_cons_self s t

theorem splitLines_line (h : '\n' ∉ s) : splitLines s = [s] := List.splitOn_eq_singleton h

theorem newline_line_isInfix {line : Text} (h : line ∈ lines) : '\n' :: line <:+: '\n' :: joinLines lines := by
  induction lines with
  | nil => exact nomatch h
  | cons first lines ih =>
    cases lines with
    | nil =>
      obtain rfl := List.mem_singleton.mp h
      simp only [joinLines, List.intercalate_singleton]
      exact List.infix_rfl
    | cons next lines =>
      have hjoin : joinLines (first :: next :: lines) =
          first ++ '\n' :: joinLines (next :: lines) := by
        rw [joinLines, List.intercalate_cons_of_ne_nil (List.cons_ne_nil _ _), List.append_assoc]
        rfl
      rw [hjoin]
      obtain rfl | h := List.mem_cons.mp h
      · exact (List.prefix_append ('\n' :: line) _).isInfix
      · exact (ih h).trans (List.suffix_append ('\n' :: first) _).isInfix

theorem lineTexts_nil : lineTexts [] = [] := rfl

theorem lineTexts_newline : lineTexts (s ++ '\n' :: t) = lineTexts s ++ lineTexts t := by
  rw [lineTexts, splitLines_newline, texts_append]
  rfl

theorem lineTexts_line (h : '\n' ∉ s) : lineTexts s = texts [s] := by
  rw [lineTexts, splitLines_line h]

theorem lineTexts_joinLines (h : ∀ line ∈ lines, '\n' ∉ line) : lineTexts (joinLines lines) = texts lines := by
  cases lines with
  | nil => rfl
  | cons line lines => rw [lineTexts, splitLines_joinLines (List.cons_ne_nil _ _) h]

theorem texts_congr_head {line line' : Text} (h : trim line = trim line') :
    texts (line :: lines) = texts (line' :: lines) := by
  rw [texts, List.map_cons, h]
  rfl

theorem lineTexts_cons {c : Char} (hc : isSpace c = true) : lineTexts (c :: s) = lineTexts s := by
  by_cases hnewline : c = '\n'
  · subst hnewline
    exact lineTexts_newline (s := [])
  · rw [lineTexts, lineTexts, splitLines, splitLines, List.splitOn_cons_eq_if_modifyHead,
      if_neg (by simpa using hnewline)]
    cases hsplit : s.splitOn '\n' with
    | nil => exact absurd hsplit (List.splitOn_ne_nil _ _)
    | cons line lines => exact texts_congr_head (trim_cons hc)

theorem lineTexts_concat_line {c : Char} (hc : isSpace c = true) (h : '\n' ∉ s) :
    lineTexts (s ++ [c]) = lineTexts s := by
  by_cases hnewline : c = '\n'
  · subst hnewline
    rw [lineTexts_newline, lineTexts_nil, List.append_nil]
  · have hline : '\n' ∉ s ++ [c] := by
      rw [List.mem_append, List.mem_singleton, not_or]
      exact ⟨h, Ne.symm hnewline⟩
    rw [lineTexts_line hline, lineTexts_line h]
    exact texts_congr_head (trim_concat hc)

theorem lineTexts_concat {c : Char} (hc : isSpace c = true) (s : Text) : lineTexts (s ++ [c]) = lineTexts s := by
  induction hlen : s.length using Nat.strongRecOn generalizing s with
  | _ n ih =>
    by_cases hmem : '\n' ∈ s
    · obtain ⟨a, b, rfl⟩ := List.append_of_mem hmem
      have hshorter : b.length < n := by
        rw [← hlen, List.length_append, List.length_cons]
        omega
      rw [List.append_assoc, List.cons_append, lineTexts_newline, lineTexts_newline, ih b.length hshorter b rfl]
    · exact lineTexts_concat_line hc hmem

theorem lineTexts_trimStart (s : Text) : lineTexts (trimStart s) = lineTexts s := by
  induction s with
  | nil => rfl
  | cons c s ih =>
    cases hc : isSpace c with
    | true =>
      rw [trimStart, List.dropWhile_cons_of_pos hc, lineTexts_cons hc]
      exact ih
    | false => rw [trimStart, List.dropWhile_cons_of_neg (by simp [hc])]

theorem lineTexts_trimEnd (s : Text) : lineTexts (trimEnd s) = lineTexts s := by
  induction s using List.reverseRecOn with
  | nil => rfl
  | append_singleton s c ih =>
    cases hc : isSpace c with
    | true => rw [trimEnd_concat hc, lineTexts_concat hc, ih]
    | false => rw [trimEnd, List.rdropWhile_concat_neg isSpace _ _ (by simp [hc])]

theorem lineTexts_trim (s : Text) : lineTexts (trim s) = lineTexts s := by
  rw [trim, lineTexts_trimEnd, lineTexts_trimStart]

theorem lineTexts_paragraphs (parts : List Text) :
    lineTexts (['\n', '\n'].intercalate parts) = parts.flatMap lineTexts := by
  induction parts with
  | nil => rfl
  | cons part parts ih =>
    cases parts with
    | nil => rw [List.intercalate_singleton, List.flatMap_cons, List.flatMap_nil, List.append_nil]
    | cons next parts =>
      rw [List.intercalate_cons_of_ne_nil (List.cons_ne_nil _ _), List.append_assoc,
        List.cons_append, List.singleton_append, lineTexts_newline,
        lineTexts_cons (by decide), ih]
      rfl

end Lines

end A2Wave.JsText
