import Mathlib.Data.List.Basic

/-! A list that is gone through until an element fails. -/

universe u

namespace A2Wave.Traverse

variable {α β ε : Type u} {f : α → Except ε β} {xs : List α} {ys : List β}

theorem mapM_ok_iff : xs.mapM f = .ok ys ↔ xs.map f = ys.map Except.ok := by
  induction xs generalizing ys with
  | nil =>
    rw [List.mapM_nil, List.map_nil, List.nil_eq, List.map_eq_nil_iff]
    exact ⟨fun h => (Except.ok.inj h).symm, fun h => congrArg Except.ok h.symm⟩
  | cons x xs ih =>
    rw [List.mapM_cons, List.map_cons]
    constructor
    · intro h
      cases hx : f x with
      | error e =>
        rw [hx] at h
        cases h
      | ok y =>
        cases hxs : xs.mapM f with
        | error e =>
          rw [hx, hxs] at h
          cases h
        | ok zs =>
          rw [hx, hxs] at h
          obtain rfl := Except.ok.inj h
          rw [List.map_cons, ih.mp hxs]
    · intro h
      cases ys with
      | nil => cases h
      | cons y ys =>
        obtain ⟨hx, hxs⟩ := List.cons.inj h
        rw [hx, ih.mpr hxs]
        rfl

theorem mem_of_mapM_ok (h : xs.mapM f = .ok ys) {y : β} : y ∈ ys ↔ ∃ x ∈ xs, f x = .ok y := by
  have hmap := mapM_ok_iff.mp h
  have hmem : y ∈ ys ↔ Except.ok y ∈ ys.map (Except.ok (ε := ε)) :=
    (List.mem_map_of_injective fun _ _ => Except.ok.inj).symm
  rw [hmem, ← hmap, List.mem_map]

theorem mapM_ok_of_forall (h : ∀ x ∈ xs, ∃ y, f x = .ok y) : ∃ ys, xs.mapM f = .ok ys := by
  induction xs with
  | nil => exact ⟨[], rfl⟩
  | cons x xs ih =>
    obtain ⟨y, hy⟩ := h x List.mem_cons_self
    obtain ⟨ys, hys⟩ := ih fun z hz => h z (List.mem_cons_of_mem x hz)
    refine ⟨y :: ys, ?_⟩
    rw [List.mapM_cons, hy, hys]
    rfl

theorem mapM_error_iff : (∃ e, xs.mapM f = .error e) ↔ ∃ x ∈ xs, ∃ e, f x = .error e := by
  constructor
  · intro ⟨e, he⟩
    by_contra hnone
    have hok : ∀ x ∈ xs, ∃ y, f x = .ok y := by
      intro x hx
      cases hfx : f x with
      | ok y => exact ⟨y, rfl⟩
      | error e => exact absurd ⟨x, hx, e, hfx⟩ hnone
    obtain ⟨ys, hys⟩ := mapM_ok_of_forall hok
    rw [he] at hys
    cases hys
  · intro ⟨x, hx, e, he⟩
    cases hxs : xs.mapM f with
    | error e' => exact ⟨e', rfl⟩
    | ok ys =>
      have hmem : f x ∈ ys.map Except.ok := mapM_ok_iff.mp hxs ▸ List.mem_map_of_mem hx
      obtain ⟨y, -, hy⟩ := List.mem_map.mp hmem
      rw [he] at hy
      cases hy

end A2Wave.Traverse
