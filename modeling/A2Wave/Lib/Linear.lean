import Mathlib.Data.List.Perm.Basic

/-! Threads that each take effect at one moment.  The state is what their operations lead to, one
after the other, in the order of these moments. -/

universe u v w

namespace A2Wave.Linear

variable {τ : Type u} {ω : Type v} {α : Type w}

/-- `a` is what the operations of the threads in effect lead to, in some order. -/
def Linearised (op : τ → ω) (inEffect : τ → Bool) (apply : ω → α → α) (start : α) (threads : List τ) (a : α) :
    Prop :=
  ∃ order : List ω, order.Perm ((threads.filter inEffect).map op) ∧ order.foldl (fun a o => apply o a) start = a

variable {op : τ → ω} {inEffect : τ → Bool} {apply : ω → α → α} {start a : α} {threads : List τ} {i : Nat}
  {t t' : τ}

theorem linearised_nil : Linearised op inEffect apply start [] start := ⟨[], .refl _, rfl⟩

theorem map_filter_set (hi : threads[i]? = some t) (hop : op t' = op t) (heffect : inEffect t' = inEffect t) :
    ((threads.set i t').filter inEffect).map op = (threads.filter inEffect).map op := by
  induction threads generalizing i with
  | nil => cases hi
  | cons x threads ih =>
    cases i with
    | zero =>
      obtain rfl : x = t := Option.some.inj hi
      rw [List.set_cons_zero, List.filter_cons, List.filter_cons, heffect]
      split
      · rw [List.map_cons, List.map_cons, hop]
      · rfl
    | succ i =>
      rw [List.set_cons_succ, List.filter_cons, List.filter_cons]
      split
      · rw [List.map_cons, List.map_cons, ih hi]
      · exact ih hi

theorem filter_set_perm (hi : threads[i]? = some t) (hbefore : inEffect t = false) (hafter : inEffect t' = true) :
    ((threads.set i t').filter inEffect).Perm (t' :: threads.filter inEffect) := by
  induction threads generalizing i with
  | nil => cases hi
  | cons x threads ih =>
    cases i with
    | zero =>
      obtain rfl : x = t := Option.some.inj hi
      rw [List.set_cons_zero, List.filter_cons_of_pos hafter, List.filter_cons_of_neg (by rw [hbefore]; exact nofun)]
    | succ i =>
      rw [List.set_cons_succ, List.filter_cons, List.filter_cons]
      split
      · exact ((ih hi).cons x).trans (.swap t' x _)
      · exact ih hi

theorem Linearised.spawn (h : Linearised op inEffect apply start threads a) (ht : inEffect t = false) :
    Linearised op inEffect apply start (threads ++ [t]) a := by
  obtain ⟨order, hperm, hstate⟩ := h
  refine ⟨order, ?_, hstate⟩
  rw [List.filter_append, List.filter_cons_of_neg (by rw [ht]; exact nofun), List.filter_nil, List.append_nil]
  exact hperm

theorem Linearised.keep (h : Linearised op inEffect apply start threads a) (hi : threads[i]? = some t)
    (hop : op t' = op t) (heffect : inEffect t' = inEffect t) :
    Linearised op inEffect apply start (threads.set i t') a := by
  obtain ⟨order, hperm, hstate⟩ := h
  refine ⟨order, ?_, hstate⟩
  rw [map_filter_set hi hop heffect]
  exact hperm

theorem Linearised.commit (h : Linearised op inEffect apply start threads a) (hi : threads[i]? = some t)
    (hbefore : inEffect t = false) (hafter : inEffect t' = true) :
    Linearised op inEffect apply start (threads.set i t') (apply (op t') a) := by
  obtain ⟨order, hperm, rfl⟩ := h
  refine ⟨order ++ [op t'], ?_, by rw [List.foldl_append]; rfl⟩
  have hset := (filter_set_perm hi hbefore hafter).map op
  exact ((List.perm_append_singleton (op t') order).trans (hperm.cons (op t'))).trans hset.symm

theorem Linearised.all (h : Linearised op inEffect apply start threads a) (hall : ∀ t ∈ threads, inEffect t = true) :
    ∃ order : List ω, order.Perm (threads.map op) ∧ order.foldl (fun a o => apply o a) start = a := by
  obtain ⟨order, hperm, hstate⟩ := h
  rw [List.filter_eq_self.mpr hall] at hperm
  exact ⟨order, hperm, hstate⟩

end A2Wave.Linear
