import Mathlib.Data.List.Nodup

/-! When a stable sort makes the same list of two arrangements of the same elements. -/

universe u

namespace A2Wave.StableSort

variable {α : Type u} {le : α → α → Bool} {xs ys : List α} {a b : α}

theorem sublist_or (ha : a ∈ xs) (hb : b ∈ xs) (hne : a ≠ b) : [a, b].Sublist xs ∨ [b, a].Sublist xs := by
  induction xs with
  | nil => cases ha
  | cons c xs ih =>
    rcases List.mem_cons.mp ha with rfl | ha'
    · exact .inl ((List.singleton_sublist.mpr ((List.mem_cons.mp hb).resolve_left hne.symm)).cons_cons a)
    · rcases List.mem_cons.mp hb with rfl | hb'
      · exact .inr ((List.singleton_sublist.mpr ha').cons_cons b)
      · exact (ih ha' hb').imp (·.cons c) (·.cons c)

theorem not_sublist_swap (h : xs.Nodup) (hab : [a, b].Sublist xs) : ¬ [b, a].Sublist xs := by
  induction xs with
  | nil => cases hab
  | cons c xs ih =>
    obtain ⟨hc, hxs⟩ := List.nodup_cons.mp h
    intro hba
    cases hab with
    | cons _ hab =>
      cases hba with
      | cons _ hba => exact ih hxs hab hba
      | cons_cons _ _ => exact hc (hab.subset (by simp))
    | cons_cons _ hb =>
      cases hba with
      | cons _ hba => exact hc (hba.subset (by simp))
      | cons_cons _ _ => exact hc (hb.subset (by simp))

variable (trans : ∀ a b c, le a b → le b c → le a c) (total : ∀ a b, le a b || le b a)
include trans total

theorem tied_sublist_mergeSort (h : xs.Nodup) (hab : le a b) (hba : le b a) :
    [a, b].Sublist (xs.mergeSort le) ↔ [a, b].Sublist xs := by
  refine ⟨fun hsort => ?_, List.pair_sublist_mergeSort trans total hab⟩
  have hnodup := (List.mergeSort_perm xs le).nodup_iff.mpr h
  have hne : a ≠ b := by
    rintro rfl
    exact not_sublist_swap hnodup hsort hsort
  have ha : a ∈ xs := List.mem_mergeSort.mp (hsort.subset (by simp))
  have hb : b ∈ xs := List.mem_mergeSort.mp (hsort.subset (by simp))
  refine (sublist_or ha hb hne).resolve_right fun hswap => ?_
  exact not_sublist_swap hnodup hsort (List.pair_sublist_mergeSort trans total hba hswap)

theorem mergeSort_eq_iff (h : xs.Nodup) (hperm : xs.Perm ys) : xs.mergeSort le = ys.mergeSort le ↔
    ∀ a b, le a b → le b a → ([a, b].Sublist xs ↔ [a, b].Sublist ys) := by
  have hys : ys.Nodup := hperm.nodup_iff.mp h
  constructor
  · intro heq a b hab hba
    rw [← tied_sublist_mergeSort trans total h hab hba, heq, tied_sublist_mergeSort trans total hys hab hba]
  · intro htied
    have hsorted {zs : List α} (hzs : zs.Nodup)
        (hsame : ∀ a b, le a b → le b a → ([a, b].Sublist xs ↔ [a, b].Sublist zs)) :
        (zs.mergeSort le).Pairwise fun a b => le a b ∧ (le b a → [a, b].Sublist xs) := by
      refine List.pairwise_iff_forall_sublist.mpr fun {a b} hab => ?_
      have hle : le a b := (List.pairwise_mergeSort trans total zs).forall_sublist hab
      exact ⟨hle, fun hba => (hsame a b hle hba).mpr ((tied_sublist_mergeSort trans total hzs hle hba).mp hab)⟩
    refine List.Perm.eq_of_pairwise (fun a b _ _ hab hba => ?_) (hsorted h fun _ _ _ _ => Iff.rfl) (hsorted hys htied)
      (((List.mergeSort_perm xs le).trans hperm).trans (List.mergeSort_perm ys le).symm)
    exact absurd (hba.2 hab.1) (not_sublist_swap h (hab.2 hba.1))

end A2Wave.StableSort
