import Mathlib.Data.List.Basic

/-! A buffer that keeps the last `k` of the elements pushed into it, by overwriting the
oldest one in place. -/

universe u

namespace A2Wave

structure Ring (α : Type u) where
  cells : List α := []
  count : Nat := 0

namespace Ring

variable {α : Type u} {k : Nat}

def push (k : Nat) (r : Ring α) (x : α) : Ring α where
  cells := if r.cells.length < k then r.cells ++ [x] else r.cells.set (r.count % k) x
  count := r.count + 1

def toList (k : Nat) (r : Ring α) : List α :=
  if r.cells.length < k then r.cells
  else r.cells.drop (r.count % k) ++ r.cells.take (r.count % k)

structure Holds (k : Nat) (r : Ring α) (xs : List α) : Prop where
  count_eq : r.count = xs.length
  length_eq : r.cells.length = min xs.length k
  toList_eq : r.toList k = xs.drop (xs.length - k)

theorem holds_empty (k : Nat) : Holds k ({} : Ring α) [] where
  count_eq := rfl
  length_eq := by simp
  toList_eq := by simp [toList]

theorem toList_push_of_lt {r : Ring α} {x : α} (hcount : r.count = r.cells.length)
    (h : r.cells.length < k) : (r.push k x).toList k = r.cells ++ [x] := by
  have hcells : (r.push k x).cells = r.cells ++ [x] := if_pos h
  unfold toList
  rw [hcells, List.length_append, List.length_singleton]
  split
  · rfl
  · have hk : k = r.cells.length + 1 := by omega
    have hmod : (r.push k x).count % k = 0 := by
      show (r.count + 1) % k = 0
      rw [hcount, hk, Nat.mod_self]
    rw [hmod]
    simp

theorem toList_push_of_full {r : Ring α} {x : α} (hk : 0 < k) (h : r.cells.length = k) :
    (r.push k x).toList k = (r.toList k).tail ++ [x] := by
  have hm : r.count % k < r.cells.length := by
    rw [h]
    exact Nat.mod_lt _ hk
  have hcells : (r.push k x).cells = r.cells.set (r.count % k) x := if_neg (by omega)
  have hfull : ¬(r.push k x).cells.length < k := by
    rw [hcells, List.length_set]
    omega
  have htake : (r.cells.set (r.count % k) x).take (r.count % k + 1) = r.cells.take (r.count % k) ++ [x] := by
    rw [List.take_add_one, List.take_set_of_le (Nat.le_refl _), List.getElem?_set_self hm]
    rfl
  have hdrop : (r.cells.set (r.count % k) x).drop (r.count % k + 1) =
      r.cells.drop (r.count % k + 1) := List.drop_set_of_lt (Nat.lt_succ_self _)
  have hold : (r.toList k).tail ++ [x] = r.cells.drop (r.count % k + 1) ++ (r.cells.take (r.count % k) ++ [x]) := by
    rw [toList, if_neg (by omega), List.tail_append_of_ne_nil, List.tail_drop, List.append_assoc]
    rw [Ne, List.drop_eq_nil_iff]
    omega
  rw [toList, if_neg hfull, hcells, hold]
  show (r.cells.set _ x).drop ((r.count + 1) % k) ++ (r.cells.set _ x).take ((r.count + 1) % k) = _
  have hnext : (r.count + 1) % k = (r.count % k + 1) % k := (Nat.mod_add_mod r.count k 1).symm
  by_cases hwrap : r.count % k + 1 = k
  · -- the newest element is in the last cell, so the oldest is in the first one
    have hlast : r.cells.drop (r.count % k + 1) = [] := by
      rw [List.drop_eq_nil_iff]
      omega
    have hall : (r.cells.set (r.count % k) x).take (r.count % k + 1) = r.cells.set (r.count % k) x := by
      apply List.take_of_length_le
      rw [List.length_set]
      omega
    rw [hlast, List.nil_append, ← htake, hall, hnext, hwrap, Nat.mod_self]
    simp
  · have hmod : (r.count + 1) % k = r.count % k + 1 := by
      rw [hnext]
      apply Nat.mod_eq_of_lt
      omega
    rw [hmod, hdrop, htake]

theorem Holds.push {r : Ring α} {xs : List α} (hk : 0 < k) (h : Holds k r xs) (x : α) :
    Holds k (r.push k x) (xs ++ [x]) := by
  obtain ⟨hcount, hlen, hlist⟩ := h
  by_cases hlt : r.cells.length < k
  · have hle : xs.length < k := by omega
    have hxs : r.cells = xs := by
      have hview : r.toList k = r.cells := if_pos hlt
      rw [hview, Nat.sub_eq_zero_of_le (by omega), List.drop_zero] at hlist
      exact hlist
    refine ⟨by simp [Ring.push, hcount], ?_, ?_⟩
    · have hcells : (r.push k x).cells = r.cells ++ [x] := if_pos hlt
      rw [hcells, hxs, List.length_append, List.length_singleton]
      omega
    · rw [toList_push_of_lt (by rw [hcount, hxs]) hlt, hxs, List.length_append,
        List.length_singleton, Nat.sub_eq_zero_of_le (by omega), List.drop_zero]
  · have hfull : r.cells.length = k := by omega
    refine ⟨by simp [Ring.push, hcount], ?_, ?_⟩
    · have hcells : (r.push k x).cells = r.cells.set (r.count % k) x := if_neg hlt
      rw [hcells, List.length_set, List.length_append, List.length_singleton]
      omega
    · have hne : xs.drop (xs.length - k) ≠ [] := by
        rw [Ne, List.drop_eq_nil_iff]
        omega
      have hsucc : xs.length + 1 - k = xs.length - k + 1 := by omega
      rw [toList_push_of_full hk hfull, hlist, List.length_append, List.length_singleton, hsucc,
        List.tail_drop, List.drop_append_of_le_length (by omega)]

theorem holds_foldl {xs : List α} {r : Ring α} (hk : 0 < k) (h : Holds k r xs) (ys : List α) :
    Holds k (ys.foldl (Ring.push k) r) (xs ++ ys) := by
  induction ys generalizing xs r with
  | nil => simpa using h
  | cons y ys ih =>
    have hnext := ih (h.push hk y)
    simpa using hnext

end Ring

end A2Wave
