import Mathlib.Tactic.ByContra

/-! Steps that may fail. -/

namespace A2Wave

theorem bind_ok {ε α β : Type} {x : Except ε α} {f : α → Except ε β} {b : β}
    (h : x.bind f = .ok b) : ∃ a, x = .ok a ∧ f a = .ok b := by
  cases x with
  | error e => cases h
  | ok a => exact ⟨a, rfl, h⟩

/-- `if (!p) throw e`. -/
def ensure {ε : Type} (p : Prop) [Decidable p] (e : ε) : Except ε Unit :=
  if p then .ok () else .error e

variable {ε : Type} {p : Prop} [Decidable p] {e : ε}

theorem ensure_of (h : p) : ensure p e = .ok () := if_pos h

theorem of_ensure {u : Unit} (h : ensure p e = .ok u) : p := by
  by_contra hp
  rw [ensure, if_neg hp] at h
  cases h

def Settles {α : Type} (expected : ε → Prop) (x : Except ε α) (P : α → Prop) : Prop :=
  match x with
  | .error e => expected e
  | .ok a => P a

theorem Settles.bind {α β : Type} {expected : ε → Prop} {x : Except ε α} {f : α → Except ε β} {P : α → Prop}
    {Q : β → Prop} (h : Settles expected x P) (hf : ∀ a, P a → Settles expected (f a) Q) :
    Settles expected (x.bind f) Q := by
  cases x with
  | error e => exact h
  | ok a => exact hf a h

theorem Settles.mono {α : Type} {expected : ε → Prop} {x : Except ε α} {P Q : α → Prop} (h : Settles expected x P)
    (hPQ : ∀ a, P a → Q a) : Settles expected x Q := by
  cases x with
  | error e => exact h
  | ok a => exact hPQ a h

end A2Wave
