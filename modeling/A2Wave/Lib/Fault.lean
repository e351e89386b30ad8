/-! Transactions that may throw.  The caller of a transaction that throws cannot tell whether it was
rolled back, or committed with its answer lost. -/

universe u v w

namespace A2Wave

inductive Fault
  | rolledBack
  | applied
  deriving DecidableEq

variable {σ : Type u} {ε : Type v} {α : Type w}

/-- The result of the transaction, `none` when it throws, and the store afterwards. -/
def withFault (fault : Option Fault) (s : σ) : Except ε (α × σ) → Option α × σ
  | .error _ => (none, s)
  | .ok (a, s') =>
    match fault with
    | none => (some a, s')
    | some .rolledBack => (none, s)
    | some .applied => (none, s')

variable {fault : Option Fault} {s s' : σ} {tx : Except ε (α × σ)} {a : α}

theorem withFault_ok (h : (withFault fault s tx).1 = some a) : fault = none ∧ ∃ s', tx = .ok (a, s') := by
  cases tx with
  | error e => cases h
  | ok result =>
    obtain ⟨b, s'⟩ := result
    cases fault with
    | none =>
      obtain rfl := Option.some.inj h
      exact ⟨rfl, s', rfl⟩
    | some fault => cases fault <;> cases h

theorem withFault_throws (h : (withFault fault s tx).1 = none) : fault ≠ none ∨ ∃ e, tx = .error e := by
  cases tx with
  | error e => exact .inr ⟨e, rfl⟩
  | ok result =>
    cases fault with
    | none => cases h
    | some fault => exact .inl (by simp)

end A2Wave
