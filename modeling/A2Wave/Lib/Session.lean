import Mathlib.Logic.Basic

/-! Computations that keep their state when they throw, and rules for what they leave behind. -/

namespace A2Wave

abbrev Session (σ ε α : Type) := ExceptT ε (StateM σ) α

namespace Session

variable {σ τ ε α β : Type}

def run (p : Session σ ε α) (s : σ) : Except ε α × σ := StateT.run (ExceptT.run p) s

def step (f : σ → Except ε α × σ) : Session σ ε α := ExceptT.mk f

def attempt (x : Except ε α) : Session σ ε α := step fun s => (x, s)

def focus (get : σ → τ) (set : τ → σ → σ) (p : Session τ ε α) : Session σ ε α :=
  step fun s => ((run p (get s)).1, set (run p (get s)).2 s)

/-- A value is returned in a state that `Q` describes, and a throw leaves one that `R` describes. -/
def Leaves (p : Session σ ε α) (s : σ) (Q : α → σ → Prop) (R : σ → Prop) : Prop :=
  match run p s with
  | (.ok a, s') => Q a s'
  | (.error _, s') => R s'

variable {p : Session σ ε α} {f : α → Session σ ε β} {s s' : σ} {Q Q' : α → σ → Prop} {R R' : σ → Prop} {a : α} {e : ε}

theorem run_bind : run (p >>= f) s =
    match run p s with
    | (.ok a, s') => run (f a) s'
    | (.error e, s') => (.error e, s') := by
  cases hp : run p s with
  | mk r s' =>
    cases r with
    | ok a | error e =>
      simp only [run, ExceptT.run_bind, StateT.run_bind] at hp ⊢
      rw [hp]
      rfl

theorem Leaves.of_ok (h : Leaves p s Q R) (hrun : run p s = (.ok a, s')) : Q a s' := by
  rw [Leaves, hrun] at h
  exact h

theorem Leaves.of_error (h : Leaves p s Q R) (hrun : run p s = (.error e, s')) : R s' := by
  rw [Leaves, hrun] at h
  exact h

theorem Leaves.mono (h : Leaves p s Q R) (hQ : ∀ a s', Q a s' → Q' a s') (hR : ∀ s', R s' → R' s') :
    Leaves p s Q' R' := by
  unfold Leaves at h ⊢
  split at h
  · exact hQ _ _ h
  · exact hR _ h

theorem leaves_pure (h : Q a s) : Leaves (pure a : Session σ ε α) s Q R := h

theorem leaves_step {f : σ → Except ε α × σ} (hok : ∀ a s', f s = (.ok a, s') → Q a s')
    (herror : ∀ e s', f s = (.error e, s') → R s') : Leaves (step f) s Q R := by
  cases hf : f s with
  | mk r s' =>
    have hrun : run (step f) s = (r, s') := hf
    rw [Leaves, hrun]
    cases r with
    | ok a => exact hok a s' hf
    | error e => exact herror e s' hf

theorem leaves_attempt {x : Except ε α} (hok : ∀ a, x = .ok a → Q a s) (herror : R s) : Leaves (attempt x) s Q R := by
  cases x with
  | ok a => exact hok a rfl
  | error e => exact herror

theorem Leaves.bind {Q' : β → σ → Prop} (h : Leaves p s Q R) (hf : ∀ a s', Q a s' → Leaves (f a) s' Q' R) :
    Leaves (p >>= f) s Q' R := by
  cases hrun : run p s with
  | mk r s' =>
    cases r with
    | ok a =>
      have hnext := hf a s' (h.of_ok hrun)
      rw [Leaves, run_bind, hrun]
      exact hnext
    | error e =>
      have hthrown := h.of_error hrun
      rw [Leaves, run_bind, hrun]
      exact hthrown

theorem leaves_focus {get : σ → τ} {set : τ → σ → σ} {q : Session τ ε α} {Q' : α → τ → Prop} {R' : τ → Prop}
    (h : Leaves q (get s) Q' R') (hQ : ∀ a t, Q' a t → Q a (set t s)) (hR : ∀ t, R' t → R (set t s)) :
    Leaves (focus get set q) s Q R := by
  apply leaves_step
  · intro a s' heq
    obtain ⟨hok, rfl⟩ := Prod.mk.inj heq
    exact hQ a _ (h.of_ok (Prod.ext hok rfl))
  · intro e s' heq
    obtain ⟨herror, rfl⟩ := Prod.mk.inj heq
    exact hR _ (h.of_error (Prod.ext herror rfl))

section Loops

variable {γ : Type} {xs : List γ}

theorem leaves_forM {body : γ → Session σ ε Unit} {I : List γ → σ → Prop} (hinit : I [] s)
    (hbody : ∀ front x rest, xs = front ++ x :: rest → ∀ s, I front s →
      Leaves (body x) s (fun _ => I (front ++ [x])) R) :
    Leaves (xs.forM body) s (fun _ => I xs) R := by
  suffices h : ∀ rest front s, xs = front ++ rest → I front s → Leaves (rest.forM body) s (fun _ => I xs) R from
    h xs [] s rfl hinit
  intro rest
  induction rest with
  | nil =>
    intro front s hxs hI
    rw [List.append_nil] at hxs
    exact leaves_pure (hxs ▸ hI)
  | cons x rest ih =>
    intro front s hxs hI
    apply (hbody front x rest hxs s hI).bind
    intro _ s' hI'
    exact ih (front ++ [x]) s' (by rw [hxs, List.append_assoc, List.singleton_append]) hI'

theorem leaves_foldlM {body : α → γ → Session σ ε α} {I : List γ → α → σ → Prop} (hinit : I [] a s)
    (hbody : ∀ front x rest, xs = front ++ x :: rest → ∀ a s, I front a s → Leaves (body a x) s (I (front ++ [x])) R) :
    Leaves (xs.foldlM body a) s (I xs) R := by
  suffices h : ∀ rest front a s, xs = front ++ rest → I front a s → Leaves (rest.foldlM body a) s (I xs) R from
    h xs [] a s rfl hinit
  intro rest
  induction rest with
  | nil =>
    intro front a s hxs hI
    rw [List.append_nil] at hxs
    exact leaves_pure (hxs ▸ hI)
  | cons x rest ih =>
    intro front a s hxs hI
    rw [List.foldlM_cons]
    apply (hbody front x rest hxs a s hI).bind
    intro a' s' hI'
    exact ih (front ++ [x]) a' s' (by rw [hxs, List.append_assoc, List.singleton_append]) hI'

end Loops

end Session

end A2Wave
