import Mathlib.Data.List.Basic

/-! Of the elements with one key only the first is kept. -/

universe u v

namespace A2Wave.KeepFirst

variable {α : Type u} {κ : Type v} [DecidableEq κ]

def keepFirst (key? : α → Option κ) : List κ → List α → List α
  | _, [] => []
  | seen, x :: xs =>
    match key? x with
    | none => x :: keepFirst key? seen xs
    | some k => if k ∈ seen then keepFirst key? seen xs else x :: keepFirst key? (k :: seen) xs

variable {key? : α → Option κ} {seen : List κ} {x : α} {xs ys : List α} {k : κ}

theorem keepFirst_sublist (seen : List κ) (xs : List α) : (keepFirst key? seen xs).Sublist xs := by
  induction xs generalizing seen with
  | nil => exact .slnil
  | cons x xs ih =>
    rw [keepFirst]
    split
    · exact (ih seen).cons_cons x
    · split
      · exact (ih seen).cons x
      · exact (ih _).cons_cons x

theorem keepFirst_ne_nil (hne : xs ≠ []) : keepFirst key? [] xs ≠ [] := by
  cases xs with
  | nil => exact absurd rfl hne
  | cons x xs =>
    rw [keepFirst]
    split
    · exact List.cons_ne_nil _ _
    · rw [if_neg List.not_mem_nil]
      exact List.cons_ne_nil _ _

theorem keys_keepFirst (seen : List κ) (xs : List α) : ((keepFirst key? seen xs).filterMap key?).Nodup ∧
      ∀ k ∈ (keepFirst key? seen xs).filterMap key?, k ∉ seen := by
  induction xs generalizing seen with
  | nil => exact ⟨.nil, fun k hk => nomatch hk⟩
  | cons x xs ih =>
    rw [keepFirst]
    split
    next hnone =>
      rw [List.filterMap_cons_none hnone]
      exact ih seen
    next k hk =>
      split
      next => exact ih seen
      next hnew =>
        obtain ⟨hnodup, hseen⟩ := ih (k :: seen)
        rw [List.filterMap_cons_some hk]
        refine ⟨List.nodup_cons.mpr ⟨fun hmem => hseen k hmem List.mem_cons_self, hnodup⟩, ?_⟩
        intro j hj
        obtain rfl | hj := List.mem_cons.mp hj
        · exact hnew
        · exact fun hmem => hseen j hj (List.mem_cons_of_mem _ hmem)

theorem mem_keys_keepFirst (hx : x ∈ xs) (hk : key? x = some k) :
    k ∈ seen ∨ k ∈ (keepFirst key? seen xs).filterMap key? := by
  induction xs generalizing seen with
  | nil => exact nomatch hx
  | cons y ys ih =>
    rw [keepFirst]
    obtain rfl | hx := List.mem_cons.mp hx
    · rw [hk]
      by_cases hseen : k ∈ seen
      · exact .inl hseen
      · refine .inr ?_
        simp only [if_neg hseen]
        rw [List.filterMap_cons_some hk]
        exact List.mem_cons_self
    · split
      next hnone =>
        rw [List.filterMap_cons_none hnone]
        exact ih hx
      next j hj =>
        split
        next => exact ih hx
        next =>
          rw [List.filterMap_cons_some hj]
          obtain hmem | hmem := @ih (j :: seen) hx
          · obtain rfl | hmem := List.mem_cons.mp hmem
            · exact .inr List.mem_cons_self
            · exact .inl hmem
          · exact .inr (List.mem_cons_of_mem _ hmem)

theorem mem_keepFirst_of_none (hx : x ∈ xs) (hnone : key? x = none) : x ∈ keepFirst key? seen xs := by
  induction xs generalizing seen with
  | nil => exact nomatch hx
  | cons y ys ih =>
    rw [keepFirst]
    obtain rfl | hx := List.mem_cons.mp hx
    · rw [hnone]
      exact List.mem_cons_self
    · split
      · exact List.mem_cons_of_mem _ (ih hx)
      · split
        · exact ih hx
        · exact List.mem_cons_of_mem _ (ih hx)

theorem keepFirst_eq_self (hnodup : (xs.filterMap key?).Nodup)
    (hseen : ∀ k ∈ xs.filterMap key?, k ∉ seen) : keepFirst key? seen xs = xs := by
  induction xs generalizing seen with
  | nil => rfl
  | cons x xs ih =>
    rw [keepFirst]
    cases hk : key? x with
    | none =>
      rw [List.filterMap_cons_none hk] at hnodup hseen
      simp only [ih hnodup hseen]
    | some k =>
      rw [List.filterMap_cons_some hk] at hnodup hseen
      rw [List.nodup_cons] at hnodup
      simp only [if_neg (hseen k List.mem_cons_self)]
      rw [ih hnodup.2]
      intro j hj hmem
      obtain rfl | hmem := List.mem_cons.mp hmem
      · exact hnodup.1 hj
      · exact hseen j (List.mem_cons_of_mem _ hj) hmem

theorem keepFirst_eq_nil (h : ∀ x ∈ xs, ∃ k ∈ seen, key? x = some k) : keepFirst key? seen xs = [] := by
  induction xs with
  | nil => rfl
  | cons x xs ih =>
    obtain ⟨k, hmem, hk⟩ := h x List.mem_cons_self
    rw [keepFirst, hk]
    simp only [if_pos hmem]
    exact ih fun y hy => h y (List.mem_cons_of_mem _ hy)

end A2Wave.KeepFirst
