import Mathlib.Data.List.Basic

/-! Runs of a labelled transition system whose step is a partial function: an
event is either disabled in a state or leads to exactly one next state.  All the
nondeterminism of an interleaving is in the list of events. -/

universe u v

namespace A2Wave.Transition

variable {σ : Type u} {ε : Type v}

/-- Perform the events in order; the result is `none` as soon as one is disabled. -/
def run (step : σ → ε → Option σ) : σ → List ε → Option σ
  | s, [] => some s
  | s, e :: es => (step s e).bind fun t => run step t es

theorem run_append (step : σ → ε → Option σ) (s : σ) (es es' : List ε) :
    run step s (es ++ es') = (run step s es).bind fun t => run step t es' := by
  induction es generalizing s with
  | nil => rfl
  | cons e es ih =>
    simp only [List.cons_append, run, Option.bind_assoc]
    congr 1
    funext t
    exact ih t

/-- A run from `s` to `t` in which each event meets `ok` in the state it is performed in. -/
inductive Runs (step : σ → ε → Option σ) (ok : σ → ε → Prop) : σ → List ε → σ → Prop
  | nil {s} : Runs step ok s [] s
  | cons {s e t es u} : ok s e → step s e = some t → Runs step ok t es u → Runs step ok s (e :: es) u

def free : σ → ε → Prop := fun _ _ => True

variable {step : σ → ε → Option σ} {ok ok' : σ → ε → Prop}

@[simp] theorem free_iff (s : σ) (e : ε) : free s e ↔ True := Iff.rfl

variable {es : List ε} {s t : σ}

theorem runs_free_iff : Runs step free s es t ↔ run step s es = some t := by
  induction es generalizing s with
  | nil =>
    constructor
    · intro h; cases h; rfl
    · intro h
      have hst : s = t := by simpa [run] using h
      subst hst
      exact .nil
  | cons e es ih =>
    constructor
    · intro h
      cases h with
      | cons _ hs ht => simp [run, hs, ih.mp ht]
    · intro h
      obtain ⟨u, hu, ht⟩ := Option.bind_eq_some_iff.mp h
      exact .cons trivial hu (ih.mpr ht)

theorem Runs.mono (himp : ∀ s e, ok s e → ok' s e)
    (h : Runs step ok s es t) : Runs step ok' s es t := by
  induction h with
  | nil => exact .nil
  | cons hok hs _ ih => exact .cons (himp _ _ hok) hs ih

theorem Runs.toRun (h : Runs step ok s es t) : run step s es = some t :=
  runs_free_iff.mp (h.mono fun _ _ _ => trivial)

theorem Runs.of_forall {p : ε → Prop} (h : run step s es = some t)
    (hes : ∀ e ∈ es, p e) : Runs step (fun _ e => p e) s es t := by
  induction es generalizing s with
  | nil =>
    obtain rfl := Option.some.inj h
    exact .nil
  | cons e es ih =>
    obtain ⟨u, hu, ht⟩ := Option.bind_eq_some_iff.mp h
    exact .cons (hes e List.mem_cons_self) hu (ih ht fun e' he' => hes e' (List.mem_cons_of_mem e he'))

def guarded (step : σ → ε → Option σ) (ok : σ → ε → Prop) [∀ s e, Decidable (ok s e)]
    (s : σ) (e : ε) : Option σ :=
  if ok s e then step s e else none

theorem Runs.of_guarded [∀ s e, Decidable (ok s e)]
    (h : run (guarded step ok) s es = some t) : Runs step ok s es t := by
  induction es generalizing s with
  | nil =>
    have hst : s = t := by simpa [run] using h
    subst hst
    exact .nil
  | cons e es ih =>
    obtain ⟨u, hu, ht⟩ := Option.bind_eq_some_iff.mp h
    simp only [guarded] at hu
    split at hu
    · rename_i hok
      exact .cons hok hu (ih ht)
    · cases hu

theorem exists_of_run_any {s : σ} {es : List ε} {p : σ → Prop} [DecidablePred p]
    (h : (run step s es).any (fun t => p t) = true) : ∃ t, run step s es = some t ∧ p t := by
  cases ht : run step s es with
  | none => simp [ht] at h
  | some t =>
    rw [ht] at h
    exact ⟨t, rfl, by simpa using h⟩

theorem Runs.invariant {I : σ → Prop}
    (hstep : ∀ s e t, ok s e → I s → step s e = some t → I t)
    (h : Runs step ok s es t) (h0 : I s) : I t := by
  induction h with
  | nil => exact h0
  | cons hok hs _ ih => exact ih (hstep _ _ _ hok h0 hs)

/-- A run meets `ok` throughout, or there is a first event that does not. -/
theorem runs_or_violates (ok : σ → ε → Prop) {s t : σ} {es : List ε} (h : run step s es = some t) :
    Runs step ok s es t ∨ ∃ es₁ e es₂ u, es = es₁ ++ e :: es₂ ∧ run step s es₁ = some u ∧ ¬ok u e := by
  induction es generalizing s with
  | nil =>
    obtain rfl := Option.some.inj h
    exact .inl .nil
  | cons e es ih =>
    obtain ⟨u, hu, hrest⟩ := Option.bind_eq_some_iff.mp h
    by_cases hok : ok s e
    · obtain hruns | ⟨es₁, e', es₂, v, rfl, hv, hbad⟩ := ih hrest
      · exact .inl (.cons hok hu hruns)
      · exact .inr ⟨e :: es₁, e', es₂, v, rfl, by rw [run, hu, Option.bind_some, hv], hbad⟩
    · exact .inr ⟨[], e, es, s, rfl, rfl, hok⟩

end A2Wave.Transition
