import Mathlib
import A2Wave.Lib.Session

/-! Async functions whose calls have their outcomes given: such a function performs effects in turn, and in
the end it resolves or rejects. -/

namespace A2Wave

abbrev Promise (ε φ α : Type) := ExceptT φ (StateM (List ε)) α

namespace Promise

variable {ε φ α β : Type}

def settle (p : Promise ε φ α) (s : List ε) : Except φ α × List ε := StateT.run (ExceptT.run p) s

def call (outcome : Except φ α) : Promise ε φ α := ExceptT.mk (pure outcome)

def perform (e : ε) : Promise ε φ Unit := ExceptT.lift (modify fun s => s ++ [e])

def Resolves (p : Promise ε φ α) (s : List ε) : Prop := ∃ a, (settle p s).1 = .ok a

variable {p : Promise ε φ α} {f : α → Promise ε φ β} {q : Promise ε φ β} {h : φ → Promise ε φ α} {s s' : List ε}
  {a : α} {e : φ}

@[simp] theorem settle_pure : settle (pure a : Promise ε φ α) s = (.ok a, s) := rfl

@[simp] theorem settle_call (outcome : Except φ α) : settle (call outcome : Promise ε φ α) s = (outcome, s) := rfl

@[simp] theorem settle_perform (effect : ε) : settle (perform effect : Promise ε φ Unit) s = (.ok (), s ++ [effect]) :=
  rfl

theorem settle_bind : settle (p >>= f) s =
    match settle p s with
    | (.ok a, s') => settle (f a) s'
    | (.error e, s') => (.error e, s') := by
  have hrun : settle p s = Session.run p s := rfl
  show Session.run (p >>= f) s = _
  rw [Session.run_bind, hrun]
  cases Session.run p s with
  | mk r s' =>
    cases r with
    | ok a => rfl
    | error e => rfl

theorem settle_tryCatch : settle (tryCatch p h) s =
    match settle p s with
    | (.ok a, s') => (.ok a, s')
    | (.error e, s') => settle (h e) s' := by
  cases hp : settle p s with
  | mk r s' =>
    cases r with
    | ok a | error e =>
      simp only [settle, ExceptT.run_tryCatch, StateT.run_bind] at hp ⊢
      rw [hp]
      rfl

theorem settle_tryFinally : settle (tryFinally p q) s =
    match settle p s with
    | (r, s') =>
      match settle q s' with
      | (.ok _, s'') => (r, s'')
      | (.error e, s'') => (.error e, s'') := by
  have hfinally : settle (tryFinally p q) s = settle (Prod.fst <$> tryFinally' p fun _ => q) s := rfl
  rw [hfinally]
  cases hp : settle p s with
  | mk r s' =>
    cases hq : settle q s' with
    | mk r' s'' =>
      simp only [settle, StateT.run, ExceptT.run] at hp hq
      cases r <;> cases r' <;>
        simp only [settle, StateT.run, ExceptT.run, tryFinally', Functor.map, ExceptT.map, ExceptT.mk, bind,
          StateT.bind, hp, hq, pure, StateT.pure]

theorem resolves_pure : Resolves (pure a : Promise ε φ α) s := ⟨a, rfl⟩

theorem resolves_bind : Resolves (p >>= f) s ↔ ∃ a, (settle p s).1 = .ok a ∧ Resolves (f a) (settle p s).2 := by
  unfold Resolves
  rw [settle_bind]
  cases settle p s with
  | mk r s' => cases r <;> simp

@[simp] theorem resolves_call {outcome : Except φ α} : Resolves (call outcome : Promise ε φ α) s ↔ ∃ a, outcome = .ok a :=
  Iff.rfl

@[simp] theorem resolves_call_bind {outcome : Except φ α} :
    Resolves (call outcome >>= f) s ↔ ∃ a, outcome = .ok a ∧ Resolves (f a) s :=
  resolves_bind

@[simp] theorem resolves_perform (effect : ε) : Resolves (perform effect : Promise ε φ Unit) s := ⟨(), rfl⟩

@[simp] theorem resolves_perform_bind {effect : ε} {f : Unit → Promise ε φ β} :
    Resolves (perform effect >>= f) s ↔ Resolves (f ()) (s ++ [effect]) := by
  rw [resolves_bind]
  constructor
  · rintro ⟨⟨⟩, -, hf⟩
    exact hf
  · exact fun hf => ⟨(), rfl, hf⟩

theorem resolves_bind_left (hf : ∀ a s, Resolves (f a) s) : Resolves (p >>= f) s ↔ Resolves p s := by
  rw [resolves_bind]
  constructor
  · rintro ⟨a, ha, -⟩
    exact ⟨a, ha⟩
  · rintro ⟨a, ha⟩
    exact ⟨a, ha, hf a _⟩

theorem resolves_bind_right {P : Prop} (hp : ∀ s, Resolves p s) (hf : ∀ a s, Resolves (f a) s ↔ P) :
    Resolves (p >>= f) s ↔ P := by
  obtain ⟨a, ha⟩ := hp s
  rw [resolves_bind]
  constructor
  · rintro ⟨b, -, hb⟩
    exact (hf b _).mp hb
  · intro hP
    exact ⟨a, ha, (hf a _).mpr hP⟩

theorem not_resolves_iff : ¬ Resolves p s ↔ ∃ e, (settle p s).1 = .error e := by
  unfold Resolves
  cases (settle p s).1 <;> simp

theorem resolves_tryCatch : Resolves (tryCatch p h) s ↔
    Resolves p s ∨ ∃ e, (settle p s).1 = .error e ∧ Resolves (h e) (settle p s).2 := by
  unfold Resolves
  rw [settle_tryCatch]
  cases settle p s with
  | mk r s' => cases r <;> simp

theorem resolves_of_contained (hh : ∀ e s, Resolves (h e) s) : Resolves (tryCatch p h) s := by
  rw [resolves_tryCatch]
  by_cases hp : Resolves p s
  · exact .inl hp
  · obtain ⟨e, he⟩ := not_resolves_iff.mp hp
    exact .inr ⟨e, he, hh e _⟩

theorem resolves_tryFinally : Resolves (tryFinally p q) s ↔ Resolves p s ∧ Resolves q (settle p s).2 := by
  unfold Resolves
  rw [settle_tryFinally]
  cases settle p s with
  | mk r s' =>
    dsimp only
    cases settle q s' with
    | mk r' s'' => cases r' <;> simp

end Promise

end A2Wave
