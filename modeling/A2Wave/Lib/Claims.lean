import Mathlib.Logic.Function.Basic
import Mathlib.Data.Option.Basic

/-! Exclusive claims.  Every claimant claims at most one thing, and a second map names the holder of
each thing.  The two maps are inverse to each other, so no thing has two claimants. -/

universe u v

namespace A2Wave

section Claims

variable {α : Type u} {β : Type v} [DecidableEq α] [DecidableEq β]

def release (holders : β → Option α) (b : β) (a : α) : β → Option α :=
  if holders b = some a then Function.update holders b none else holders

def Holds (claims : α → Option β) (holders : β → Option α) : Prop :=
  ∀ a b, holders b = some a ↔ claims a = some b

variable {claims : α → Option β} {holders : β → Option α} {a a' : α} {b b' : β}

omit [DecidableEq α] [DecidableEq β] in
theorem Holds.exclusive (h : Holds claims holders) (ha : claims a = some b) (ha' : claims a' = some b) : a = a' := by
  have hold := (h a b).mpr ha
  rw [(h a' b).mpr ha'] at hold
  exact (Option.some.inj hold).symm

theorem release_self (holders : β → Option α) (b : β) (a : α) : release holders b a b ≠ some a := by
  rw [release]
  split
  · simp
  · assumption

theorem release_other (holders : β → Option α) (a : α) (hb : b' ≠ b) : release holders b a b' = holders b' := by
  rw [release]
  split
  · rw [Function.update_of_ne hb]
  · rfl

theorem release_some (h : release holders b a b' = some a') : holders b' = some a' := by
  rw [release] at h
  split at h
  · by_cases hb : b' = b
    · subst hb
      simp at h
    · rwa [Function.update_of_ne hb] at h
  · exact h

theorem release_kept (h : holders b' = some a') (hkept : a' = a → b' ≠ b) : release holders b a b' = some a' := by
  rw [release]
  split
  · rename_i hb
    rw [Function.update_of_ne, h]
    rintro rfl
    rw [h] at hb
    exact hkept (Option.some.inj hb) rfl
  · exact h

theorem Holds.release_of_ne (h : Holds claims holders) (ha : claims a ≠ some b) : release holders b a = holders := by
  rw [release, if_neg]
  exact fun hold => ha ((h a b).mp hold)

theorem Holds.release (h : Holds claims holders) (ha : claims a = some b) :
    Holds (Function.update claims a none) (release holders b a) := by
  intro c d
  by_cases hd : d = b
  · subst hd
    have hold : holders d = some a := (h a d).mpr ha
    rw [A2Wave.release, if_pos hold, Function.update_self]
    by_cases hc : c = a
    · simp [hc]
    · rw [Function.update_of_ne hc]
      refine ⟨fun hnone => (nomatch hnone), fun hclaim => ?_⟩
      exact absurd (h.exclusive hclaim ha) hc
  · rw [release_other holders a hd]
    by_cases hc : c = a
    · subst hc
      rw [Function.update_self, h c d, ha]
      simp [Ne.symm hd]
    · rw [Function.update_of_ne hc, h c d]

theorem Holds.reserve (h : Holds claims holders) (ha : claims a = none)
    (hfree : ∀ a', holders b = some a' → a' = a) :
    Holds (Function.update claims a (some b)) (Function.update holders b (some a)) := by
  intro c d
  by_cases hd : d = b
  · subst hd
    rw [Function.update_self]
    by_cases hc : c = a
    · simp [hc]
    · rw [Function.update_of_ne hc]
      refine ⟨fun heq => absurd (Option.some.inj heq).symm hc, fun hclaim => ?_⟩
      exact absurd (hfree c ((h c d).mpr hclaim)) hc
  · rw [Function.update_of_ne hd]
    by_cases hc : c = a
    · subst hc
      rw [Function.update_self, h c d, ha]
      simp [Ne.symm hd]
    · rw [Function.update_of_ne hc, h c d]

end Claims

end A2Wave
