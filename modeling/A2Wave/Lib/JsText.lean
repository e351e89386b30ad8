import Mathlib.Data.List.DropRight
import A2Wave.Lib.JsonText

/-! String functions of JavaScript, over lists of characters. -/

namespace A2Wave.JsText

abbrev Text := List Char

scoped instance : LawfulBEq Text := inferInstance

def isSpace (c : Char) : Bool :=
  let n := c.toNat
  (9 ≤ n && n ≤ 13) || n = 0x20 || n = 0xa0 || n = 0x1680 || (0x2000 ≤ n && n ≤ 0x200a) ||
    n = 0x2028 || n = 0x2029 || n = 0x202f || n = 0x205f || n = 0x3000 || n = 0xfeff

/-- `length`, in UTF-16 code units. -/
def length16 (s : Text) : Nat := (s.flatMap JsonText.utf16).length

def trimStart (s : Text) : Text := s.dropWhile isSpace

def trimEnd (s : Text) : Text := s.rdropWhile isSpace

def trim (s : Text) : Text := trimEnd (trimStart s)

/-- What `.` does not match. -/
def isLineTerminator (c : Char) : Bool :=
  c == '\n' || c == '\r' || c.toNat == 0x2028 || c.toNat == 0x2029

/-- Every run of white space becomes one blank; `inRun` tells that one has begun. -/
def collapseFrom : Bool → Text → Text
  | _, [] => []
  | inRun, c :: s =>
    if isSpace c then (if inRun then collapseFrom true s else ' ' :: collapseFrom true s)
    else c :: collapseFrom false s

/-- `replace(/\s+/g, ' ')`. -/
def collapse (s : Text) : Text := collapseFrom false s

section Trim

variable {s : Text}

theorem trimStart_eq_self (h : ∀ c ∈ s.head?, isSpace c = false) : trimStart s = s := by
  cases s with
  | nil => rfl
  | cons c s =>
    have hc : isSpace c = false := h c rfl
    rw [trimStart, List.dropWhile_cons, hc]
    rfl

theorem head?_trimStart : ∀ c ∈ (trimStart s).head?, isSpace c = false := by
  intro c hc
  have h := List.head?_dropWhile_not isSpace s
  rw [trimStart] at hc
  rw [Option.mem_def.mp hc] at h
  exact h

theorem trimEnd_prefix : trimEnd s <+: s := List.rdropWhile_prefix isSpace s

theorem head?_trimEnd {c : Char} (h : c ∈ (trimEnd s).head?) : c ∈ s.head? := by
  obtain ⟨rest, hs⟩ := trimEnd_prefix (s := s)
  rw [← hs, List.head?_append, Option.mem_def.mp h]
  rfl

theorem trimEnd_trimEnd : trimEnd (trimEnd s) = trimEnd s := List.rdropWhile_idempotent isSpace s

theorem trim_trim : trim (trim s) = trim s := by
  have hstart : trimStart (trim s) = trim s :=
    trimStart_eq_self fun c hc => head?_trimStart c (head?_trimEnd hc)
  rw [trim, hstart, trim, trimEnd_trimEnd]

theorem trim_eq_self (hstart : ∀ c ∈ s.head?, isSpace c = false)
    (hend : ∀ c ∈ s.getLast?, isSpace c = false) : trim s = s := by
  rw [trim, trimStart_eq_self hstart, trimEnd, List.rdropWhile_eq_self_iff]
  intro hs
  rw [hend _ (List.getLast?_eq_some_getLast hs)]
  exact Bool.false_ne_true

theorem head?_trim : ∀ c ∈ (trim s).head?, isSpace c = false :=
  fun c hc => head?_trimStart c (head?_trimEnd hc)

theorem getLast?_trim : ∀ c ∈ (trim s).getLast?, isSpace c = false := by
  intro c hc
  cases hne : trim s with
  | nil => rw [hne] at hc; cases hc
  | cons d t =>
    have hs : trim s ≠ [] := by rw [hne]; exact List.cons_ne_nil _ _
    have hlast := List.rdropWhile_last_not isSpace (trimStart s) hs
    rw [List.getLast?_eq_some_getLast hs] at hc
    obtain rfl := Option.some_inj.mp hc
    exact Bool.eq_false_iff.mpr hlast

theorem trimEnd_concat {c : Char} (hc : isSpace c = true) : trimEnd (s ++ [c]) = trimEnd s :=
  List.rdropWhile_concat_pos isSpace _ _ hc

theorem trim_cons {c : Char} (hc : isSpace c = true) : trim (c :: s) = trim s := by
  rw [trim, trim, trimStart, List.dropWhile_cons_of_pos hc]
  rfl

theorem trim_concat {c : Char} (hc : isSpace c = true) : trim (s ++ [c]) = trim s := by
  induction s with
  | nil => simp [trim, trimStart, trimEnd, hc]
  | cons d s ih =>
    cases hd : isSpace d with
    | true => rw [List.cons_append, trim_cons hd, trim_cons hd, ih]
    | false =>
      have hstart : ∀ t, trimStart (d :: t) = d :: t := fun t =>
        trimStart_eq_self fun e he => by obtain rfl := Option.some_inj.mp he; exact hd
      rw [trim, trim, List.cons_append, hstart, hstart, ← List.cons_append, trimEnd_concat hc]

theorem length_trim_le : (trim s).length ≤ s.length :=
  Nat.le_trans trimEnd_prefix.length_le (List.dropWhile_suffix isSpace).length_le

theorem isPrefix_trim {p : Text} (h : p <+: s) (hne : p ≠ [])
    (hstart : ∀ c ∈ p.head?, isSpace c = false) (hend : ∀ c ∈ p.getLast?, isSpace c = false) :
    p <+: trim s := by
  obtain ⟨t, rfl⟩ := h
  have hhead : (p ++ t).head? = p.head? := by
    cases p with
    | nil => exact absurd rfl hne
    | cons c p => rfl
  rw [trim, trimStart_eq_self (by rw [hhead]; exact hstart)]
  induction t using List.reverseRecOn with
  | nil =>
    have hp : trimEnd p = p := by
      rw [trimEnd, List.rdropWhile_eq_self_iff]
      intro hp
      rw [hend _ (List.getLast?_eq_some_getLast hp)]
      exact Bool.false_ne_true
    simp only [List.append_nil, hp]
    exact List.prefix_rfl
  | append_singleton t c ih =>
    rw [← List.append_assoc, trimEnd]
    cases hc : isSpace c with
    | true =>
      rw [List.rdropWhile_concat_pos isSpace _ _ hc]
      refine ih ?_
      cases p with
      | nil => exact absurd rfl hne
      | cons d p => rfl
    | false =>
      rw [List.rdropWhile_concat_neg isSpace _ _ (by simp [hc]), List.append_assoc]
      exact List.prefix_append _ _

end Trim

section Collapse

theorem collapseFrom_collapseFrom (inRun : Bool) (s : Text) :
    collapseFrom inRun (collapseFrom inRun s) = collapseFrom inRun s := by
  induction s generalizing inRun with
  | nil => rfl
  | cons c s ih =>
    cases hc : isSpace c with
    | false => simp [collapseFrom, hc, ih]
    | true =>
      cases inRun with
      | true => simp only [collapseFrom, hc, if_true, ih]
      | false =>
        have hblank : isSpace ' ' = true := by decide
        simp [collapseFrom, hc, hblank, ih]

theorem collapseFrom_append {c : Char} (hc : isSpace c = false) (inRun : Bool) (s : Text) :
    collapseFrom inRun (s ++ [c]) = collapseFrom inRun s ++ [c] := by
  induction s generalizing inRun with
  | nil => simp [collapseFrom, hc]
  | cons d s ih =>
    rw [List.cons_append, collapseFrom, collapseFrom]
    split
    · split
      · exact ih true
      · rw [ih true]; rfl
    · rw [ih false]; rfl

theorem collapse_collapse (s : Text) : collapse (collapse s) = collapse s :=
  collapseFrom_collapseFrom false s

theorem collapse_eq_nil {s : Text} : collapse s = [] ↔ s = [] := by
  cases s with
  | nil => simp [collapse, collapseFrom]
  | cons c s => cases hc : isSpace c <;> simp [collapse, collapseFrom, hc]

theorem trim_collapse_trim (s : Text) : trim (collapse (trim s)) = collapse (trim s) := by
  apply trim_eq_self
  · intro c hc
    cases ht : trim s with
    | nil => rw [ht] at hc; cases hc
    | cons d t =>
      have hd : isSpace d = false := head?_trim d (by rw [ht]; rfl)
      rw [ht, collapse, collapseFrom, hd, if_neg Bool.false_ne_true] at hc
      obtain rfl := Option.some_inj.mp hc
      exact hd
  · intro c hc
    obtain ht | ⟨t, d, ht⟩ := List.eq_nil_or_concat (trim s)
    · rw [ht] at hc; cases hc
    · rw [List.concat_eq_append] at ht
      have hd : isSpace d = false := getLast?_trim d (by rw [ht, List.getLast?_concat]; rfl)
      rw [ht, collapse, collapseFrom_append hd, List.getLast?_concat] at hc
      obtain rfl := Option.some_inj.mp hc
      exact hd

/-- `trim().replace(/\s+/g, ' ')`. -/
def normalizeSpace (s : Text) : Text := collapse (trim s)

theorem normalizeSpace_idem (s : Text) : normalizeSpace (normalizeSpace s) = normalizeSpace s := by
  rw [normalizeSpace, normalizeSpace, trim_collapse_trim, collapse_collapse]

theorem trim_normalizeSpace (s : Text) : trim (normalizeSpace s) = normalizeSpace s :=
  trim_collapse_trim s

end Collapse

end A2Wave.JsText
