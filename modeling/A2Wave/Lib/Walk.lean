import Mathlib.Data.List.Basic

/-! Walks over a row of stages that spend up to `m` turns at each and never go back.  A visit is a stage and a
turn; the newest comes first. -/

namespace A2Wave

inductive Walk (m : Nat) : List (Nat × Nat) → Prop
  | nil : Walk m []
  | start : 1 ≤ m → Walk m [(0, 1)]
  | again {i a : Nat} {vs : List (Nat × Nat)} : a + 1 ≤ m → Walk m ((i, a) :: vs) → Walk m ((i, a + 1) :: (i, a) :: vs)
  | next {i a : Nat} {vs : List (Nat × Nat)} : 1 ≤ m → Walk m ((i, a) :: vs) → Walk m ((i + 1, 1) :: (i, a) :: vs)

namespace Walk

variable {m i a : Nat} {vs : List (Nat × Nat)}

theorem tail {v : Nat × Nat} (h : Walk m (v :: vs)) : Walk m vs := by
  cases h with
  | start _ => exact .nil
  | again _ h => exact h
  | next _ h => exact h

theorem turn_le {v : Nat × Nat} (h : Walk m vs) (hv : v ∈ vs) : v.2 ≤ m := by
  induction h with
  | nil => cases hv
  | start hm =>
    rw [List.mem_singleton.mp hv]
    exact hm
  | again hle _ ih =>
    obtain rfl | hv := List.mem_cons.mp hv
    · exact hle
    · exact ih hv
  | next hm _ ih =>
    obtain rfl | hv := List.mem_cons.mp hv
    · exact hm
    · exact ih hv

theorem stage_le {v : Nat × Nat} (h : Walk m ((i, a) :: vs)) (hv : v ∈ (i, a) :: vs) : v.1 ≤ i := by
  induction vs generalizing i a with
  | nil =>
    obtain rfl := List.mem_singleton.mp hv
    exact Nat.le_refl _
  | cons u vs ih =>
    obtain rfl | htail := List.mem_cons.mp hv
    · exact Nat.le_refl i
    · cases h with
      | again _ h => exact ih h htail
      | next _ h => exact Nat.le_succ_of_le (ih h htail)

theorem pairwise (h : Walk m vs) : vs.Pairwise fun later earlier => earlier.1 ≤ later.1 := by
  induction vs with
  | nil => exact .nil
  | cons v vs ih => exact .cons (fun u hu => h.stage_le (List.mem_cons_of_mem v hu)) (ih h.tail)

theorem length_le (h : Walk m ((i, a) :: vs)) : ((i, a) :: vs).length ≤ i * m + a := by
  induction vs generalizing i a with
  | nil =>
    cases h with
    | start _ => exact Nat.le_add_left 1 _
  | cons v vs ih =>
    cases h with
    | again _ h => exact Nat.succ_le_succ (ih h)
    | next _ h =>
      have hlength := ih h
      have hturn := h.turn_le List.mem_cons_self
      rw [List.length_cons, Nat.succ_mul]
      exact Nat.succ_le_succ (Nat.le_trans hlength (Nat.add_le_add_left hturn _))

theorem length_le_mul {n : Nat} (h : Walk m vs) (hn : ∀ v ∈ vs, v.1 < n) : vs.length ≤ m * n := by
  cases vs with
  | nil => exact Nat.zero_le _
  | cons v vs =>
    calc (v :: vs).length ≤ v.1 * m + v.2 := h.length_le
      _ ≤ v.1 * m + m := Nat.add_le_add_left (h.turn_le List.mem_cons_self) _
      _ = (v.1 + 1) * m := (Nat.succ_mul v.1 m).symm
      _ ≤ n * m := Nat.mul_le_mul_right m (hn v List.mem_cons_self)
      _ = m * n := Nat.mul_comm n m

theorem countP_ahead {j : Nat} (h : Walk m ((i, a) :: vs)) (hj : i < j) :
    ((i, a) :: vs).countP (fun v => v.1 = j) = 0 := by
  rw [List.countP_eq_zero]
  intro v hv heq
  have hle := h.stage_le hv
  rw [decide_eq_true_eq] at heq
  omega

theorem countP_head (h : Walk m ((i, a) :: vs)) : ((i, a) :: vs).countP (fun v => v.1 = i) = a := by
  induction vs generalizing i a with
  | nil =>
    cases h with
    | start _ => rfl
  | cons v vs ih =>
    cases h with
    | again _ h => rw [List.countP_cons_of_pos (by simp), ih h]
    | next _ h => rw [List.countP_cons_of_pos (by simp), h.countP_ahead (Nat.lt_succ_self _)]

theorem countP_le (h : Walk m vs) (j : Nat) : vs.countP (fun v => v.1 = j) ≤ m := by
  induction vs with
  | nil => exact Nat.zero_le _
  | cons v vs ih =>
    by_cases hj : v.1 = j
    · rw [← hj, h.countP_head]
      exact h.turn_le List.mem_cons_self
    · rw [List.countP_cons_of_neg (by simpa using hj)]
      exact ih h.tail

end Walk

end A2Wave
