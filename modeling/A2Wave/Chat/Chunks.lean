import Mathlib.Data.PNat.Basic
import A2Wave.Lib.Utf16Text

/-! How the replies of the Slack, Discord and Telegram channels are cut into messages. -/

namespace A2Wave.Chunks

open Utf16 (Text isHigh isLow isBlank newline)

def isSpace (u : UInt16) : Bool := JsText.isSpace (Char.ofNat u.toNat)

def splitsPair (before after : Text) : Bool := before.getLast?.any isHigh && after.head?.any isLow

/-- The chunks lie in `rest`, behind `before`, in their order and with white space around them only. -/
inductive Lays (limit : ℕ) : Text → Text → List Text → Prop
  | done {before rest : Text} (hrest : isBlank rest = true) : Lays limit before rest []
  | chunk {before gap c rest : Text} {chunks : List Text} (hgap : isBlank gap = true)
      (hblank : isBlank c = false) (hlimit : c.length ≤ limit)
      (hbegin : splitsPair (before ++ gap) (c ++ rest) = false)
      (hend : splitsPair (before ++ gap ++ c) rest = false)
      (hlater : Lays limit (before ++ gap ++ c) rest chunks) :
      Lays limit before (gap ++ c ++ rest) (c :: chunks)

section Blank

variable {a b c g s x y : Text}

theorem not_surrogate {u : UInt16} (h : isSpace u = true) : isHigh u = false ∧ isLow u = false := by
  have hbounds : u.toNat < 0xd800 ∨ 0xe000 ≤ u.toNat := by
    by_contra hnot
    have hvalid : ¬u.toNat.isValidChar := by rw [Nat.isValidChar]; omega
    rw [isSpace, Char.ofNat, dif_neg hvalid] at h
    cases h
  simp only [isHigh, isLow, UInt16.le_iff_toNat_le, UInt16.lt_iff_toNat_lt, UInt16.reduceToNat, Bool.and_eq_false_iff,
    decide_eq_false_iff_not]
  omega

theorem isSpace_of_mem (hs : isBlank s = true) {u : UInt16} (hu : u ∈ s) : isSpace u = true :=
  List.all_eq_true.mp hs u hu

theorem isBlank_append : isBlank (a ++ b) = (isBlank a && isBlank b) := List.all_append

theorem ne_nil_of_not_isBlank (hs : isBlank s = false) : s ≠ [] := by
  rintro rfl
  cases hs

theorem splitsPair_append (hx : x ≠ []) (hy : y ≠ []) : splitsPair (a ++ x) (y ++ b) = splitsPair x y := by
  rw [splitsPair, splitsPair, List.getLast?_append_of_ne_nil _ hx, List.head?_append_of_ne_nil _ hy]

theorem splitsPair_blank_left (hg : isBlank g = true) (hne : g ≠ []) : splitsPair (x ++ g) y = false := by
  have hlast := (not_surrogate (isSpace_of_mem hg (List.getLast_mem hne))).1
  rw [splitsPair, List.getLast?_append_of_ne_nil _ hne, List.getLast?_eq_some_getLast hne, Option.any_some, hlast,
    Bool.false_and]

theorem splitsPair_blank_right (hg : isBlank g = true) (hne : g ≠ []) : splitsPair x (g ++ y) = false := by
  have hhead := (not_surrogate (isSpace_of_mem hg (List.head_mem hne))).2
  rw [splitsPair, List.head?_append_of_ne_nil _ hne, List.head?_eq_some_head hne, Option.any_some, hhead,
    Bool.and_false]

theorem splitsPair_past (hg : isBlank g = true) (h : splitsPair x (g ++ y) = false) :
    splitsPair (x ++ g) y = false := by
  by_cases hne : g = []
  · subst hne
    rwa [List.append_nil]
  · exact splitsPair_blank_left hg hne

def solid (s : Text) : Text := s.filter fun u => !isSpace u

theorem solid_append : solid (a ++ b) = solid a ++ solid b := List.filter_append ..

theorem solid_eq_nil : solid s = [] ↔ isBlank s = true := by
  rw [solid, List.filter_eq_nil_iff, isBlank, List.all_eq_true]
  exact forall₂_congr fun u _ => by rw [Bool.not_eq_true', Bool.not_eq_false]; rfl

/-- Where a text ends in a solid unit, the solid units before that place tell the place. -/
theorem eq_of_solid {a' b' : Text} (hab : a ++ b = a' ++ b') (hsolid : solid a = solid a')
    (h : a.getLast?.any isHigh = true) (h' : a'.getLast?.any isHigh = true) : a = a' := by
  have extend : ∀ {p m : Text}, (p ++ m).getLast?.any isHigh = true → solid p = solid (p ++ m) → m = [] := by
    intro p m hlast heq
    have hm : isBlank m = true := by
      rw [solid_append] at heq
      exact solid_eq_nil.mp (List.append_right_eq_self.mp heq.symm)
    by_contra hne
    have hfalse := (not_surrogate (isSpace_of_mem hm (List.getLast_mem hne))).1
    rw [List.getLast?_append_of_ne_nil _ hne, List.getLast?_eq_some_getLast hne, Option.any_some, hfalse] at hlast
    cases hlast
  obtain ⟨m, rfl, -⟩ | ⟨m, rfl, -⟩ := List.append_eq_append_iff.mp hab
  · rw [extend h' hsolid, List.append_nil]
  · rw [extend h hsolid.symm, List.append_nil]

end Blank

/-- A chunker: a text that does not fit is cut, and both parts may lose white space at their ends. -/
structure Cutter where
  fits : ℕ
  cutAt : Text → ℕ
  tidy : Text → Text
  cutAt_pos : ∀ s, 0 < cutAt s
  cutAt_le : ∀ s, cutAt s ≤ fits
  tidy_spec : ∀ s, ∃ a b, isBlank a = true ∧ isBlank b = true ∧ s = a ++ tidy s ++ b

namespace Cutter

variable (k : Cutter)

theorem length_tidy_le (s : Text) : (k.tidy s).length ≤ s.length := by
  obtain ⟨a, b, -, -, hs⟩ := k.tidy_spec s
  have hlength := congrArg List.length hs
  simp only [List.length_append] at hlength
  omega

theorem length_later {s : Text} (hlt : k.fits < s.length) : (k.tidy (s.drop (k.cutAt s))).length < s.length := by
  have hle := k.length_tidy_le (s.drop (k.cutAt s))
  have hpos := k.cutAt_pos s
  rw [List.length_drop] at hle
  omega

/-- The loop of `chunkSlackText`, and the chunk that is pushed behind it. -/
def chunks (rest : Text) : List Text :=
  if k.fits < rest.length then
    k.tidy (rest.take (k.cutAt rest)) :: chunks (k.tidy (rest.drop (k.cutAt rest)))
  else if rest = [] then [] else [rest]
termination_by rest.length
decreasing_by exact k.length_later ‹_›

/-- No piece of the text is white space alone, and no cut falls into a surrogate pair. -/
inductive Clean : Text → Prop
  | nil : Clean []
  | last {rest : Text} (hfits : rest.length ≤ k.fits) (hblank : isBlank rest = false) : Clean rest
  | cut {rest : Text} (hlt : k.fits < rest.length) (hblank : isBlank (rest.take (k.cutAt rest)) = false)
      (hpair : splitsPair (rest.take (k.cutAt rest)) (rest.drop (k.cutAt rest)) = false)
      (hlater : Clean (k.tidy (rest.drop (k.cutAt rest)))) : Clean rest

theorem isBlank_tidy (s : Text) : isBlank (k.tidy s) = isBlank s := by
  obtain ⟨a, b, ha, hb, hs⟩ := k.tidy_spec s
  have hblank := congrArg isBlank hs
  rw [isBlank_append, isBlank_append, ha, hb, Bool.true_and, Bool.and_true] at hblank
  exact hblank.symm

theorem solid_tidy (s : Text) : solid (k.tidy s) = solid s := by
  obtain ⟨a, b, ha, hb, hs⟩ := k.tidy_spec s
  have hsolid := congrArg solid hs
  rw [solid_append, solid_append, solid_eq_nil.mpr ha, solid_eq_nil.mpr hb, List.nil_append, List.append_nil] at hsolid
  exact hsolid.symm

variable {k} {rest : Text}

theorem drop_ne_nil (hlt : k.fits < rest.length) : rest.drop (k.cutAt rest) ≠ [] := by
  have hle := k.cutAt_le rest
  refine fun hnil => ?_
  have hlength := List.drop_eq_nil_iff.mp hnil
  omega

theorem lays (h : k.Clean rest) {before a b : Text} (ha : isBlank a = true) (hb : isBlank b = true)
    (hpair : splitsPair before (a ++ (rest ++ b)) = false) :
    Lays k.fits before (a ++ (rest ++ b)) (k.chunks rest) := by
  induction h generalizing before a b with
  | nil =>
    have hfits : ¬k.fits < ([] : Text).length := Nat.not_lt_zero _
    rw [chunks, if_neg hfits, if_pos rfl]
    exact .done (by rw [isBlank_append, ha, List.nil_append, hb]; rfl)
  | @last rest hfits hblank =>
    have hne := ne_nil_of_not_isBlank hblank
    rw [chunks, if_neg (Nat.not_lt.mpr hfits), if_neg hne, ← List.append_assoc]
    refine .chunk ha hblank hfits (splitsPair_past ha hpair) ?_ (.done hb)
    by_cases hnil : b = []
    · rw [hnil, splitsPair, List.head?_nil, Option.any_none, Bool.and_false]
    · simpa using @splitsPair_blank_right b (before ++ a ++ rest) [] hb hnil
  | @cut rest hlt hblank hcut _ ih =>
    obtain ⟨a₁, b₁, ha₁, hb₁, htake⟩ := k.tidy_spec (rest.take (k.cutAt rest))
    obtain ⟨a₂, b₂, ha₂, hb₂, hdrop⟩ := k.tidy_spec (rest.drop (k.cutAt rest))
    have hdropne := drop_ne_nil hlt
    have hc := (k.isBlank_tidy _).trans hblank
    have hcne := ne_nil_of_not_isBlank hc
    have hlength := (k.length_tidy_le (rest.take (k.cutAt rest))).trans (List.length_take_le ..)
    rw [chunks, if_pos hlt]
    have hparts : rest = rest.take (k.cutAt rest) ++ rest.drop (k.cutAt rest) := (List.take_append_drop ..).symm
    generalize k.tidy (rest.take (k.cutAt rest)) = c at *
    generalize k.tidy (rest.drop (k.cutAt rest)) = later at *
    generalize rest.take (k.cutAt rest) = front at *
    generalize rest.drop (k.cutAt rest) = back at *
    have hgap : isBlank (a ++ a₁) = true := by rw [isBlank_append, ha, ha₁]; rfl
    have hwhole : a ++ (rest ++ b) = (a ++ a₁) ++ c ++ (b₁ ++ (back ++ b)) := by
      rw [hparts, htake]
      simp only [List.append_assoc]
    have hend : splitsPair (before ++ (a ++ a₁) ++ c) (b₁ ++ (back ++ b)) = false := by
      by_cases hnil : b₁ = []
      · rw [hnil, List.append_nil] at htake
        rw [hnil, List.nil_append, splitsPair_append hcne hdropne]
        rw [htake, ← List.append_nil back, splitsPair_append hcne hdropne] at hcut
        exact hcut
      · exact splitsPair_blank_right hb₁ hnil
    rw [hwhole]
    refine .chunk hgap hc (hlength.trans (k.cutAt_le rest)) (splitsPair_past hgap ?_) hend ?_
    · rw [hwhole, List.append_assoc] at hpair
      exact hpair
    · have hback : b₁ ++ (back ++ b) = (b₁ ++ a₂) ++ (later ++ (b₂ ++ b)) := by
        rw [hdrop]
        simp only [List.append_assoc]
      rw [hback] at hend ⊢
      exact ih (by rw [isBlank_append, hb₁, ha₂]; rfl) (by rw [isBlank_append, hb₂, hb]; rfl) hend

/-- The layout may lag behind the cutter by white space only, which the solid units measure. -/
theorem clean {before raw x b : Text} (h : Lays k.fits before raw (k.chunks rest))
    (hwhole : before ++ raw = x ++ (rest ++ b)) (hsolid : solid before = solid x) : k.Clean rest := by
  fun_induction k.chunks rest generalizing before raw x b with
  | case1 rest hlt ih =>
    obtain ⟨a₁, b₁, ha₁, hb₁, htake⟩ := k.tidy_spec (rest.take (k.cutAt rest))
    obtain ⟨a₂, b₂, ha₂, hb₂, hdrop⟩ := k.tidy_spec (rest.drop (k.cutAt rest))
    have hdropne := drop_ne_nil hlt
    cases h with
    | @chunk _ gap _ raw _ hgap hc _ _ hend hlater =>
      have hcne := ne_nil_of_not_isBlank hc
      have hfront : solid (before ++ gap ++ k.tidy (rest.take (k.cutAt rest))) =
          solid (x ++ rest.take (k.cutAt rest)) := by
        rw [solid_append, solid_append, solid_append, hsolid, solid_eq_nil.mpr hgap, List.append_nil, solid_tidy]
      have hplaces : before ++ gap ++ k.tidy (rest.take (k.cutAt rest)) ++ raw =
          x ++ rest.take (k.cutAt rest) ++ (rest.drop (k.cutAt rest) ++ b) := by
        rw [List.append_assoc x, ← List.append_assoc (rest.take _), List.take_append_drop, ← hwhole]
        simp only [List.append_assoc]
      have hlaterplaces : before ++ gap ++ k.tidy (rest.take (k.cutAt rest)) ++ raw =
          x ++ rest.take (k.cutAt rest) ++ a₂ ++ (k.tidy (rest.drop (k.cutAt rest)) ++ (b₂ ++ b)) := by
        have hback := congrArg (fun back => x ++ rest.take (k.cutAt rest) ++ (back ++ b)) hdrop
        exact hplaces.trans (hback.trans (by simp only [List.append_assoc]))
      refine .cut hlt ((k.isBlank_tidy _).symm.trans hc) (Bool.eq_false_iff.mpr fun hcut => ?_)
        (ih hlater hlaterplaces ?_)
      · have hb₁nil : b₁ = [] := by
          by_contra hne
          rw [htake, splitsPair_blank_left hb₁ hne] at hcut
          cases hcut
        have hhigh : (rest.take (k.cutAt rest)).getLast?.any isHigh = true := (Bool.and_eq_true_iff.mp hcut).1
        have htakene : rest.take (k.cutAt rest) ≠ [] := fun hnil => by rw [hnil] at hhigh; cases hhigh
        have heq := eq_of_solid hplaces hfront
          (by
            rw [htake, hb₁nil, List.append_nil, List.getLast?_append_of_ne_nil _ hcne] at hhigh
            rwa [List.getLast?_append_of_ne_nil _ hcne])
          (by rwa [List.getLast?_append_of_ne_nil _ htakene])
        rw [heq] at hplaces hend
        rw [List.append_cancel_left hplaces, splitsPair_append htakene hdropne, hcut] at hend
        cases hend
      · rw [hfront, solid_append (a := x ++ _), solid_eq_nil.mpr ha₂, List.append_nil]
  | case2 => exact .nil
  | case3 rest hle hne =>
    cases h with
    | chunk _ hblank hlimit _ _ _ => exact .last hlimit hblank

end Cutter

def lastIndexOf (s needle : Text) (position : ℕ) : ℤ :=
  match (List.range (position + 1)).reverse.find? fun i => needle.isPrefixOf (s.drop i) with
  | some i => i
  | none => -1

theorem lastIndexOf_le (s needle : Text) (position : ℕ) : lastIndexOf s needle position ≤ position := by
  rw [lastIndexOf]
  split
  · next i hi =>
    have hmem := List.mem_reverse.mp (List.mem_of_find?_eq_some hi)
    exact Int.ofNat_le.mpr (Nat.lt_succ_iff.mp (List.mem_range.mp hmem))
  · omega

def slackMarkdownBlockLimit : ℕ := 12000

def slackMarkdownChunkLimit : ℕ := 11500

def splitAt (remaining : Text) : ℕ :=
  let half : ℤ := slackMarkdownChunkLimit / 2
  let paragraph := lastIndexOf remaining [newline, newline] slackMarkdownChunkLimit
  let line := if paragraph < half then lastIndexOf remaining [newline] slackMarkdownChunkLimit else paragraph
  (if line < half then (slackMarkdownChunkLimit : ℤ) else line).toNat

theorem splitAt_bounds (s : Text) : 0 < splitAt s ∧ splitAt s ≤ slackMarkdownBlockLimit := by
  have hparagraph := lastIndexOf_le s [newline, newline] slackMarkdownChunkLimit
  have hline := lastIndexOf_le s [newline] slackMarkdownChunkLimit
  simp only [splitAt, slackMarkdownChunkLimit, slackMarkdownBlockLimit] at hparagraph hline ⊢
  split_ifs <;> omega

theorem trim_spec (s : Text) : ∃ a b, isBlank a = true ∧ isBlank b = true ∧ s = a ++ Utf16.trim s ++ b := by
  refine ⟨s.takeWhile isSpace, (s.dropWhile isSpace).rtakeWhile isSpace, ?_, ?_, ?_⟩
  · exact List.all_takeWhile
  · exact List.all_eq_true.mpr fun u hu => @List.mem_rtakeWhile_imp _ isSpace _ u hu
  · rw [List.append_assoc]
    calc
      s = s.takeWhile isSpace ++ s.dropWhile isSpace := List.takeWhile_append_dropWhile.symm
      _ = _ := congrArg _ List.rdropWhile_append_rtakeWhile.symm

def slack : Cutter where
  fits := slackMarkdownBlockLimit
  cutAt := splitAt
  tidy := Utf16.trim
  cutAt_pos s := (splitAt_bounds s).1
  cutAt_le s := (splitAt_bounds s).2
  tidy_spec := trim_spec

def chunkSlackText (text : Text) : List Text :=
  if text.length ≤ slackMarkdownBlockLimit then [text] else slack.chunks text

def slicesFrom (limit : ℕ+) (text : Text) (offset : ℕ) : List Text :=
  if offset < text.length then (text.drop offset).take limit :: slicesFrom limit text (offset + limit) else []
termination_by text.length - offset
decreasing_by
  have hpos := limit.pos
  omega

def chunkByOffset (limit : ℕ+) (text : Text) : List Text :=
  if text.length ≤ limit then [text] else slicesFrom limit text 0

def chunkDiscordText : Text → List Text := chunkByOffset 1900

def telegramTextLimit : ℕ+ := 4000

def chunkTelegramText : Text → List Text := chunkByOffset telegramTextLimit

def byOffset (limit : ℕ+) : Cutter where
  fits := limit
  cutAt _ := limit
  tidy := id
  cutAt_pos _ := limit.pos
  cutAt_le _ := le_rfl
  tidy_spec s := ⟨[], [], rfl, rfl, (List.append_nil s).symm⟩

theorem slicesFrom_eq (limit : ℕ+) (text : Text) (offset : ℕ) :
    slicesFrom limit text offset = (byOffset limit).chunks (text.drop offset) := by
  fun_induction slicesFrom limit text offset with
  | case1 offset hlt ih =>
    rw [Cutter.chunks, ih, ← List.drop_drop]
    split
    · rfl
    · next hfits =>
      have hle : (text.drop offset).length ≤ limit := Nat.not_lt.mp hfits
      rw [if_neg fun hnil => Nat.not_le.mpr hlt (List.drop_eq_nil_iff.mp hnil), List.take_of_length_le hle,
        List.drop_of_length_le hle, Cutter.chunks]
      rfl
  | case2 offset hle =>
    rw [List.drop_of_length_le (Nat.not_lt.mp hle), Cutter.chunks]
    rfl

inductive Channel
  | slack
  | discord
  | telegram

def Channel.cutter : Channel → Cutter
  | .slack => Chunks.slack
  | .discord => byOffset 1900
  | .telegram => byOffset telegramTextLimit

def Channel.chunkText : Channel → Text → List Text
  | .slack => chunkSlackText
  | .discord => chunkDiscordText
  | .telegram => chunkTelegramText

theorem Channel.chunkText_eq (channel : Channel) {text : Text} (h : isBlank text = false) :
    channel.chunkText text = channel.cutter.chunks text := by
  have hne := ne_nil_of_not_isBlank h
  have byOffset_eq : ∀ limit, chunkByOffset limit text = (byOffset limit).chunks text := fun limit => by
    rw [chunkByOffset]
    split
    · next hle => rw [Cutter.chunks, if_neg (show ¬(byOffset limit).fits < _ from Nat.not_lt.mpr hle), if_neg hne]
    · exact slicesFrom_eq limit text 0
  cases channel with
  | slack =>
    rw [chunkText, chunkSlackText]
    split
    · next hle => rw [cutter, Cutter.chunks, if_neg (show ¬Chunks.slack.fits < _ from Nat.not_lt.mpr hle), if_neg hne]
    · rfl
  | discord | telegram => exact byOffset_eq _

theorem Cutter.keeps (k : Cutter) (rest : Text) :
    (∀ c ∈ k.chunks rest, c.length ≤ k.fits) ∧ solid (k.chunks rest).flatten = solid rest := by
  fun_induction k.chunks rest with
  | case1 rest _ ih =>
    have hfirst := (k.length_tidy_le (rest.take _)).trans ((List.length_take_le ..).trans (k.cutAt_le rest))
    refine ⟨List.forall_mem_cons.mpr ⟨hfirst, ih.1⟩, ?_⟩
    rw [List.flatten_cons, solid_append, ih.2, solid_tidy, solid_tidy, ← solid_append, List.take_append_drop]
  | case2 => simp
  | case3 rest hle => simpa using hle

theorem Channel.chunkText_cases (channel : Channel) (text : Text) :
    text.length ≤ channel.cutter.fits ∧ channel.chunkText text = [text] ∨
      channel.chunkText text = channel.cutter.chunks text := by
  cases channel
  all_goals
    simp only [chunkText, chunkSlackText, chunkDiscordText, chunkTelegramText, chunkByOffset, slicesFrom_eq]
    split
    · exact .inl ⟨‹_›, rfl⟩
    · exact .inr rfl

/-- Every message fits and only white space is lost, also where a cut splits a surrogate pair. -/
theorem chunkText_keeps (channel : Channel) (text : Text) :
    (∀ c ∈ channel.chunkText text, c.length ≤ channel.cutter.fits) ∧
      solid (channel.chunkText text).flatten = solid text := by
  obtain ⟨hle, h⟩ | h := channel.chunkText_cases text <;> rw [h]
  · simpa using hle
  · exact channel.cutter.keeps text

/-- `<` before `!` or `@` gets a zero-width space behind it. -/
def neutralizeSlackMentions : Text → Text
  | [] => []
  | u :: s =>
    if u = 0x3c ∧ (s.head? = some 0x21 ∨ s.head? = some 0x40) then u :: 0x200b :: neutralizeSlackMentions s
    else u :: neutralizeSlackMentions s

theorem head?_neutralizeSlackMentions (s : Text) : (neutralizeSlackMentions s).head? = s.head? := by
  cases s with
  | nil => rfl
  | cons u s => rw [neutralizeSlackMentions]; split <;> rfl

theorem not_mention_neutralized {v : UInt16} (hv : v = 0x21 ∨ v = 0x40) (s : Text) :
    ¬[0x3c, v] <:+: neutralizeSlackMentions s := by
  induction s with
  | nil => simp [neutralizeSlackMentions]
  | cons u s ih =>
    rw [neutralizeSlackMentions]
    split
    · rw [List.infix_cons_iff, List.infix_cons_iff]
      rintro (hhead | hhead | hinfix)
      · obtain rfl | rfl := hv <;> simp [List.cons_prefix_cons] at hhead
      · simp [List.cons_prefix_cons] at hhead
      · exact ih hinfix
    · next hplain =>
      rw [List.infix_cons_iff]
      rintro (hhead | hinfix)
      · obtain ⟨rfl, rest, hrest⟩ := List.cons_prefix_cons.mp hhead
        refine hplain ⟨rfl, ?_⟩
        rw [← head?_neutralizeSlackMentions s, ← hrest]
        obtain rfl | rfl := hv
        · exact .inl rfl
        · exact .inr rfl
      · exact ih hinfix

theorem Cutter.infix_of_mem_chunks {k : Cutter} {c text : Text} (h : c ∈ k.chunks text) : c <:+: text := by
  have htidy : ∀ s, k.tidy s <:+: s := fun s => by
    obtain ⟨a, b, -, -, hs⟩ := k.tidy_spec s
    exact ⟨a, b, hs.symm⟩
  fun_induction k.chunks text with
  | case1 rest _ ih =>
    obtain rfl | h := List.mem_cons.mp h
    · exact (htidy _).trans (List.take_prefix ..).isInfix
    · exact ((ih h).trans (htidy _)).trans (List.drop_suffix ..).isInfix
  | case2 => cases h
  | case3 => exact List.mem_singleton.mp h ▸ List.infix_rfl

/-- No Markdown block that `postMarkdown` sends mentions anyone. -/
theorem slack_blocks_mention_nobody (markdown : Text) :
    ¬∃ chunk ∈ chunkSlackText (neutralizeSlackMentions markdown),
      [0x3c, 0x21] <:+: chunk ∨ [0x3c, 0x40] <:+: chunk := by
  rintro ⟨chunk, hchunk, hmention⟩
  have hinfix : chunk <:+: neutralizeSlackMentions markdown := by
    rw [chunkSlackText] at hchunk
    split at hchunk
    · exact List.mem_singleton.mp hchunk ▸ List.infix_rfl
    · exact Cutter.infix_of_mem_chunks hchunk
  obtain hmention | hmention := hmention
  · exact not_mention_neutralized (.inl rfl) markdown (hmention.trans hinfix)
  · exact not_mention_neutralized (.inr rfl) markdown (hmention.trans hinfix)

end A2Wave.Chunks
