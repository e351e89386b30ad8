import Mathlib.Data.Nat.Basic

/-! A loop that tries something a bounded number of times: it ends with the first attempt that succeeds, with
the first error that admits no other attempt, or with the error of the last one. -/

universe u v

namespace A2Wave.Retry

variable {σ : Type u} {ε : Type v}

inductive Outcome (ε : Type v)
  | succeeded
  | stopped (error : ε)
  | exhausted (error : ε)

structure Policy (σ : Type u) (ε : Type v) where
  attempt : Nat → σ → Except ε Unit × σ
  terminal : ε → Bool
  pause : Nat → σ → σ

/-- The attempts from number `k` on, with those left after it. -/
def Policy.run (p : Policy σ ε) (k left : Nat) (s : σ) : Outcome ε × σ :=
  match p.attempt k s with
  | (.ok (), t) => (.succeeded, t)
  | (.error e, t) =>
    if p.terminal e then (.stopped e, t)
    else
      match left with
      | 0 => (.exhausted e, t)
      | left + 1 => p.run (k + 1) left (p.pause k t)

theorem Policy.run_rule {p : Policy σ ε} {I : Nat → σ → Prop} {Post : Outcome ε → σ → Prop} {k left : Nat} {s : σ}
    (hok : ∀ n s t, n ≤ left → I n s → p.attempt (k + n) s = (.ok (), t) → Post .succeeded t)
    (hstop : ∀ n s e t, n ≤ left → I n s → p.attempt (k + n) s = (.error e, t) → p.terminal e = true →
      Post (.stopped e) t)
    (hexhaust : ∀ s e t, I left s → p.attempt (k + left) s = (.error e, t) → p.terminal e = false →
      Post (.exhausted e) t)
    (hretry : ∀ n s e t, n < left → I n s → p.attempt (k + n) s = (.error e, t) → p.terminal e = false →
      I (n + 1) (p.pause (k + n) t))
    (hstart : I 0 s) : Post (p.run k left s).1 (p.run k left s).2 := by
  induction left generalizing k s I with
  | zero =>
    unfold run
    split
    · rename_i t hs
      exact hok 0 s t (Nat.le_refl _) hstart hs
    · rename_i e t hs
      split
      · rename_i hterminal
        exact hstop 0 s e t (Nat.le_refl _) hstart hs hterminal
      · rename_i hterminal
        exact hexhaust s e t hstart hs (by simpa using hterminal)
  | succ left ih =>
    unfold run
    split
    · rename_i t hs
      exact hok 0 s t (Nat.zero_le _) hstart hs
    · rename_i e t hs
      split
      · rename_i hterminal
        exact hstop 0 s e t (Nat.zero_le _) hstart hs hterminal
      · rename_i hterminal
        have hterminal' : p.terminal e = false := by simpa using hterminal
        have hnumber : ∀ n, k + 1 + n = k + (n + 1) := fun n => by omega
        -- the attempts that are left begin with one failure more
        refine @ih (fun n => I (n + 1)) (k + 1) (p.pause k t) ?_ ?_ ?_ ?_ ?_
        · intro n s t hn hI hs
          exact hok (n + 1) s t (by omega) hI (hnumber n ▸ hs)
        · intro n s e t hn hI hs
          exact hstop (n + 1) s e t (by omega) hI (hnumber n ▸ hs)
        · intro s e t hI hs
          exact hexhaust s e t hI (hnumber left ▸ hs)
        · intro n s e t hn hI hs
          rw [hnumber n] at hs ⊢
          exact hretry (n + 1) s e t (by omega) hI hs
        · exact hretry 0 s e t (Nat.succ_pos _) hstart hs hterminal'

end A2Wave.Retry
