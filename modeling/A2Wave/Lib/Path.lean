import Mathlib.Data.List.Infix
import A2Wave.Lib.Separated

/-! Directories as lists of segments.  Two directories overlap when one of them is the other or
lies below it; a path text is resolved segment by segment. -/

universe u

namespace A2Wave.Path

section Overlap

variable {α : Type u} {p q : List α}

def Overlaps (p q : List α) : Prop := p <+: q ∨ q <+: p

instance [DecidableEq α] (p q : List α) : Decidable (Overlaps p q) :=
  inferInstanceAs (Decidable (_ ∨ _))

theorem overlaps_comm : Overlaps p q ↔ Overlaps q p := Or.comm

theorem overlaps_sibling {root : List α} {x y : α} (h : p <+: root ++ [x]) (hne : p ≠ root ++ [x]) :
    Overlaps p (root ++ [y]) := by
  rcases List.prefix_concat_iff.mp h with heq | hroot
  · exact absurd heq hne
  · exact .inl (hroot.trans (List.prefix_append root [y]))

theorem not_overlaps_child {root : List α} (h : ¬Overlaps p root) (y : List α) : ¬Overlaps p (root ++ y) := by
  rintro (hp | hroot)
  · exact h (List.prefix_or_prefix_of_prefix hp (List.prefix_append root y))
  · exact h (.inr ((List.prefix_append root y).trans hroot))

end Overlap

section Resolve

def Plain (segment : List Char) : Prop :=
  segment ≠ [] ∧ segment ≠ ['.'] ∧ segment ≠ ['.', '.'] ∧ '/' ∉ segment

instance (segment : List Char) : Decidable (Plain segment) :=
  inferInstanceAs (Decidable (_ ∧ _))

def push (kept : List (List Char)) (segment : List Char) : List (List Char) :=
  if segment = [] ∨ segment = ['.'] then kept
  else if segment = ['.', '.'] then kept.tail
  else segment :: kept

def pushAll (kept : List (List Char)) (path : List Char) : List (List Char) :=
  (path.splitOn '/').foldl push kept

theorem push_plain {segment : List Char} (h : Plain segment) (kept : List (List Char)) :
    push kept segment = segment :: kept := by
  obtain ⟨hnil, hdot, hdots, -⟩ := h
  simp [push, hnil, hdot, hdots]

theorem foldl_push_plain {segments : List (List Char)} (h : ∀ s ∈ segments, Plain s)
    (kept : List (List Char)) : segments.foldl push kept = segments.reverse ++ kept := by
  induction segments generalizing kept with
  | nil => rfl
  | cons s segments ih =>
    rw [List.foldl_cons, push_plain (h s List.mem_cons_self),
      ih fun t ht => h t (List.mem_cons_of_mem _ ht), List.reverse_cons, List.append_assoc]
    rfl

theorem plain_push {kept : List (List Char)} {segment : List Char} (hkept : ∀ s ∈ kept, Plain s)
    (hslash : '/' ∉ segment) : ∀ s ∈ push kept segment, Plain s := by
  unfold push
  split
  · exact hkept
  rename_i hdot
  split
  · exact fun s hs => hkept s (List.mem_of_mem_tail hs)
  rename_i hdots
  intro s hs
  rcases List.mem_cons.mp hs with rfl | hs
  · exact ⟨fun h => hdot (.inl h), fun h => hdot (.inr h), hdots, hslash⟩
  · exact hkept s hs

theorem plain_foldl_push {segments kept : List (List Char)} (hkept : ∀ s ∈ kept, Plain s)
    (hslash : ∀ s ∈ segments, '/' ∉ s) : ∀ s ∈ segments.foldl push kept, Plain s := by
  induction segments generalizing kept with
  | nil => exact hkept
  | cons t segments ih =>
    rw [List.foldl_cons]
    exact ih (plain_push hkept (hslash t List.mem_cons_self))
      fun s hs => hslash s (List.mem_cons_of_mem _ hs)

theorem plain_pushAll {kept : List (List Char)} (hkept : ∀ s ∈ kept, Plain s) (path : List Char) :
    ∀ s ∈ pushAll kept path, Plain s :=
  plain_foldl_push hkept fun _ => Separated.not_mem_of_mem_splitOn

theorem pushAll_append (kept : List (List Char)) (front rest : List Char) :
    pushAll kept (front ++ '/' :: rest) = pushAll (pushAll kept front) rest := by
  rw [pushAll, List.splitOn_append_cons_self, List.foldl_append]
  rfl

theorem pushAll_dotless {path : List Char} (h : ¬['.', '.'] <:+: path) (kept : List (List Char)) :
    pushAll kept path = ((path.splitOn '/').filter fun s => s ≠ [] ∧ s ≠ ['.']).reverse ++ kept := by
  have hdots : ['.', '.'] ∉ path.splitOn '/' := by
    intro hmem
    have hblock := @Separated.infix_intercalate _ '/' _ _ hmem
    rw [List.intercalate_splitOn] at hblock
    exact h hblock
  rw [pushAll]
  generalize path.splitOn '/' = segments at hdots
  induction segments generalizing kept with
  | nil => rfl
  | cons s segments ih =>
    obtain ⟨hne, hdots⟩ := List.ne_and_not_mem_of_not_mem_cons hdots
    rw [List.foldl_cons, ih _ hdots, push, List.filter_cons]
    by_cases hs : s = [] ∨ s = ['.']
    · rw [if_pos hs, if_neg]
      simpa [or_iff_not_imp_left] using hs
    · rw [if_neg hs, if_neg (Ne.symm hne), if_pos (by simpa [not_or] using hs), List.reverse_cons, List.append_assoc]
      rfl

theorem pushAll_child (kept : List (List Char)) (path : List Char) {name : List Char}
    (h : Plain name) : pushAll kept (path ++ '/' :: name) = name :: pushAll kept path := by
  have hname : name.splitOn '/' = [name] := List.splitOn_eq_singleton h.2.2.2
  rw [pushAll, List.splitOn_append_cons_self, hname, List.foldl_append, List.foldl_cons, List.foldl_nil, push_plain h]
  rfl

theorem pushAll_intercalate {segments : List (List Char)} (h : ∀ s ∈ segments, Plain s) :
    pushAll [] ('/' :: ['/'].intercalate segments) = segments.reverse := by
  have hroot : ('/' :: ['/'].intercalate segments).splitOn '/' = [] :: (['/'].intercalate segments).splitOn '/' :=
    List.splitOn_append_cons_self [] (['/'].intercalate segments)
  rw [pushAll, hroot]
  cases segments with
  | nil => rfl
  | cons s segments =>
    rw [List.splitOn_intercalate '/' (fun t ht => (h t ht).2.2.2) (List.cons_ne_nil _ _), List.foldl_cons,
      foldl_push_plain h]
    simp [push]

end Resolve

end A2Wave.Path
