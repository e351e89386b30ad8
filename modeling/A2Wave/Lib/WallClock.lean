import Mathlib.Order.Bounds.Basic
import Mathlib.Tactic.Linarith

/-! Wall clocks. A time zone is the offset its clocks show at every instant; a clock change is an
instant whose offset differs from the one before. Changes are of at most an hour, and no two fall
within the same two days. -/

namespace A2Wave.WallClock

structure TimeZone where
  offset : Int → Int
  hour : ∀ t, offset t ≤ offset (t - 1) + 3600 ∧ offset (t - 1) ≤ offset t + 3600
  apart : ∀ t u, t < u → offset t ≠ offset (t - 1) → offset u ≠ offset (u - 1) → t + 172800 ≤ u

namespace TimeZone

variable (z : TimeZone)

def wall (t : Int) : Int := t + z.offset t

def day (t : Int) : Int := z.wall t / 86400

/-- `b` is the first instant of local day `d`. -/
def Begins (d b : Int) : Prop := IsLeast {t | z.day t = d} b

/-- The clock change at `t` repeats the midnight of day `d`, or jumps over it from an earlier
reading. A change that leaps forward from midnight itself does neither. -/
def Crosses (t d : Int) : Prop :=
  z.wall t ≤ d * 86400 ∧ d * 86400 ≤ z.wall (t - 1) ∨ z.wall (t - 1) + 1 < d * 86400 ∧ d * 86400 < z.wall t

theorem offset_eq_of_steady {a : Int} (b : Int) (hab : a ≤ b)
    (h : ∀ u, a < u → u ≤ b → z.offset u = z.offset (u - 1)) : z.offset b = z.offset a := by
  induction b, hab using Int.leInduction with
  | base => rfl
  | succ b hab ih =>
    have hstep : z.offset (b + 1) = z.offset b := by
      simpa using h (b + 1) (by omega) le_rfl
    rw [hstep]
    exact ih fun u hu hub => h u hu (by omega)

structure Window (a c o n : Int) : Prop where
  forward : n ≤ o + 3600
  backward : o ≤ n + 3600
  offset : ∀ t, a ≤ t → t ≤ a + 172800 → t < c ∧ z.offset t = o ∨ c ≤ t ∧ z.offset t = n

theorem exists_window (a : Int) : ∃ c o n, z.Window a c o n := by
  by_cases hc : ∃ c, a < c ∧ c ≤ a + 172800 ∧ z.offset c ≠ z.offset (c - 1)
  · obtain ⟨c, hac, hca, hne⟩ := hc
    refine ⟨c, z.offset (c - 1), z.offset c, (z.hour c).1, (z.hour c).2, ?_⟩
    intro t hat hta
    rcases lt_or_ge t c with htc | htc
    · refine .inl ⟨htc, (z.offset_eq_of_steady (c - 1) (by omega) ?_).symm⟩
      intro u htu huc
      by_contra hu
      have := z.apart u c (by omega) hu hne
      omega
    · refine .inr ⟨htc, z.offset_eq_of_steady t htc ?_⟩
      intro u hcu hut
      by_contra hu
      have := z.apart c u hcu hne hu
      omega
  · refine ⟨a, z.offset a, z.offset a, by omega, by omega, ?_⟩
    intro t hat hta
    refine .inr ⟨hat, z.offset_eq_of_steady t hat ?_⟩
    intro u hau hut
    by_contra hu
    exact hc ⟨u, hau, by omega, hu⟩

variable {z}

theorem Window.offset_before {a c o n t : Int} (w : z.Window a c o n) (hat : a ≤ t)
    (hta : t ≤ a + 172800) (htc : t < c) : z.offset t = o := by
  rcases w.offset t hat hta with h | h
  · exact h.2
  · omega

theorem Window.offset_after {a c o n t : Int} (w : z.Window a c o n) (hat : a ≤ t)
    (hta : t ≤ a + 172800) (hct : c ≤ t) : z.offset t = n := by
  rcases w.offset t hat hta with h | h
  · omega
  · exact h.2

theorem Window.eq_of_crosses {a c o n t d : Int} (w : z.Window a c o n) (hat : a < t)
    (hta : t ≤ a + 172800) (h : z.Crosses t d) : t = c := by
  by_contra hne
  have hsteady : z.offset t = z.offset (t - 1) := by
    rcases lt_or_gt_of_ne hne with hlt | hgt
    · rw [w.offset_before hat.le hta hlt, w.offset_before (by omega) (by omega) (by omega)]
    · rw [w.offset_after hat.le hta hgt.le, w.offset_after (by omega) (by omega) (by omega)]
  simp only [Crosses, wall, hsteady] at h
  omega

theorem wall_lt (z : TimeZone) {t s : Int} (h : t + 3600 < s) : z.wall t < z.wall s := by
  induction hk : (s - t).toNat using Nat.strong_induction_on generalizing t with
  | _ k ih =>
    obtain ⟨c, o, n, w⟩ := z.exists_window t
    have hf := w.forward
    have hb := w.backward
    have ht := w.offset t le_rfl (by omega)
    rcases le_or_gt s (t + 172800) with hnear | hfar
    · have hs := w.offset s (by omega) hnear
      simp only [wall]
      omega
    · have hm := w.offset (t + 86400) (by omega) (by omega)
      have hlt : z.wall t < z.wall (t + 86400) := by
        simp only [wall]
        omega
      exact hlt.trans (ih (s - (t + 86400)).toNat (by omega) (by omega) rfl)

theorem Begins.day_eq {d b : Int} (h : z.Begins d b) : z.day b = d := h.1

theorem Begins.le {d b t : Int} (h : z.Begins d b) (ht : z.day t = d) : b ≤ t := h.2 ht

theorem Begins.wall_lt {d b t : Int} (h : z.Begins d b) (ht : t < b) : z.wall t < d * 86400 := by
  have hb := h.day_eq
  by_contra hge
  have hne : z.day t ≠ d := fun hd => absurd (h.le hd) (by omega)
  -- The clock was past the day, so two hours earlier it was in it.
  have hlast : ¬ t + 3600 < b := fun hlt => by
    have := z.wall_lt hlt
    simp only [day] at hb hne
    omega
  obtain ⟨c, o, n, w⟩ := z.exists_window (t - 7200)
  have hf := w.forward
  have hw := w.backward
  have h₁ := w.offset t (by omega) (by omega)
  have h₂ := w.offset b (by omega) (by omega)
  have h₃ := w.offset (t - 7200) (by omega) (by omega)
  have hd : z.day (t - 7200) = d := by
    simp only [day, wall] at *
    omega
  have := h.le hd
  omega

theorem begins_of_before {d b : Int} (hb : z.day b = d)
    (h : ∀ t, b - 7200 ≤ t → t < b → z.wall t < d * 86400) : z.Begins d b := by
  refine ⟨hb, fun t (ht : z.day t = d) => ?_⟩
  by_contra hlt
  rcases le_or_gt (b - 7200) t with hnear | hfar
  · have := h t hnear (by omega)
    simp only [day] at ht
    omega
  · have hw := z.wall_lt (show t + 3600 < b - 1 by omega)
    have := h (b - 1) (by omega) (by omega)
    simp only [day] at ht
    omega

end TimeZone

end A2Wave.WallClock
