import Mathlib
import A2Wave.Lib.WallClock

/-! The local-day buckets of a run time series. -/

namespace A2Wave.TimeBuckets

open WallClock (TimeZone)

section Buckets

def digitValue (c : Char) : Int := c.toNat - '0'.toNat

/-- `GMT([+-])(\d{2}):(\d{2})` at the head of the text. -/
def offsetAtHead : List Char → Option Int
  | 'G' :: 'M' :: 'T' :: sign :: h₁ :: h₂ :: ':' :: m₁ :: m₂ :: _ =>
    if (sign = '+' ∨ sign = '-') ∧ h₁.isDigit ∧ h₂.isDigit ∧ m₁.isDigit ∧ m₂.isDigit then
      some ((if sign = '-' then -1 else 1) *
        ((10 * digitValue h₁ + digitValue h₂) * 3600 + (10 * digitValue m₁ + digitValue m₂) * 60))
    else none
  | _ => none

def matchOffset : List Char → Option Int
  | [] => none
  | c :: cs => (offsetAtHead (c :: cs)).or (matchOffset cs)

-- The zone's name as `Intl.DateTimeFormat` renders it at an instant, empty when the parts have
-- none; `none` where the formatter throws.
variable (longOffset : String → Int → Option (List Char))

def zoneOffsetSecondsAt (timeZone : String) (atSeconds : Int) : Option Int := do
  let name ← longOffset timeZone atSeconds
  if name = "GMT".toList then return 0
  matchOffset name

def localDayStartSeconds (seconds : Int) (timeZone : String) : Option Int := do
  let guessOffset ← zoneOffsetSecondsAt longOffset timeZone seconds
  let naiveStart := (seconds + guessOffset) / 86400 * 86400 - guessOffset
  let trueOffset ← zoneOffsetSecondsAt longOffset timeZone naiveStart
  if trueOffset = guessOffset then return naiveStart
  return (seconds + trueOffset) / 86400 * 86400 - trueOffset

def maxBuckets : Nat := 400

/-- The loop of `localDaySequence` with room for so many more boundaries. -/
def pushDays (timeZone : String) (last : Int) : Nat → Int → List Int
  | 0, _ => []
  | room + 1, cursor =>
    if cursor ≤ last then
      cursor :: match localDayStartSeconds longOffset (cursor + 86400 + 7200) timeZone with
        | none => []
        | some next => if next ≤ cursor then [] else pushDays timeZone last room next
    else []

def localDaySequence (fromSeconds toSeconds : Int) (timeZone : String) : Option (List Int) := do
  let cursor ← localDayStartSeconds longOffset fromSeconds timeZone
  let last ← localDayStartSeconds longOffset toSeconds timeZone
  -- A boundary is pushed while there are at most `maxBuckets`, so one more than that fits.
  return pushDays longOffset timeZone last (maxBuckets + 1) cursor

/-- The loop of `bucketForBoundaries`. -/
def searchBucket (seconds : Int) (boundaries : List Int) (lo hi : Int) (found : Option Int) : Option Int :=
  if lo ≤ hi then
    match boundaries[((lo + hi) / 2).toNat]? with
    | some boundary =>
      if boundary ≤ seconds then
        searchBucket seconds boundaries ((lo + hi) / 2 + 1) hi (some boundary)
      else searchBucket seconds boundaries lo ((lo + hi) / 2 - 1) found
    | none => searchBucket seconds boundaries lo ((lo + hi) / 2 - 1) found
  else found
termination_by (hi + 1 - lo).toNat
decreasing_by all_goals omega

def bucketForBoundaries (seconds : Int) (boundaries : List Int) : Option Int :=
  searchBucket seconds boundaries 0 (boundaries.length - 1) none

end Buckets

section Search

/-- The loop's invariant: the boundaries below `lo` are at or before the instant and the last of
them is found, and those above `hi` are after it. -/
structure Searching (s : Int) (l : List Int) (lo hi : Int) (found : Option Int) : Prop where
  low : 0 ≤ lo
  met : lo ≤ hi + 1
  high : hi < l.length
  before : ∀ (i : Nat) b, l[i]? = some b → i < lo → b ≤ s
  after : ∀ (i : Nat) b, l[i]? = some b → hi < i → s < b
  found_eq : found = if lo = 0 then none else l[(lo - 1).toNat]?

theorem le_of_getElem? {l : List Int} (hl : l.Pairwise (· ≤ ·)) {i j : Nat} {b b' : Int}
    (hb : l[i]? = some b) (hb' : l[j]? = some b') (hij : i ≤ j) : b ≤ b' := by
  obtain ⟨hil, rfl⟩ := List.getElem?_eq_some_iff.mp hb
  obtain ⟨hjl, rfl⟩ := List.getElem?_eq_some_iff.mp hb'
  rcases Nat.lt_or_eq_of_le hij with hlt | rfl
  · exact List.pairwise_iff_getElem.mp hl i j hil hjl hlt
  · exact le_rfl

theorem searchBucket_spec {s : Int} {l : List Int} (hl : l.Pairwise (· ≤ ·)) (lo hi : Int)
    (found : Option Int) (h : Searching s l lo hi found) :
    ∃ k, Searching s l k (k - 1) (searchBucket s l lo hi found) := by
  fun_induction searchBucket s l lo hi found with
  | case1 lo hi found hlh boundary hget hle ih =>
    have hlow := h.low
    have hhigh := h.high
    refine ih ⟨by omega, by omega, h.high, fun i b hb hil => ?_, h.after, ?_⟩
    · exact (le_of_getElem? hl hb hget (by omega)).trans hle
    · rw [if_neg (by omega), add_sub_cancel_right, hget]
  | case2 lo hi found hlh boundary hget hgt ih =>
    have hlow := h.low
    have hhigh := h.high
    refine ih ⟨h.low, by omega, by omega, h.before, fun i b hb hil => ?_, h.found_eq⟩
    exact (not_le.mp hgt).trans_le (le_of_getElem? hl hget hb (by omega))
  | case3 lo hi found hlh hget ih =>
    have hlow := h.low
    have hhigh := h.high
    rw [List.getElem?_eq_none_iff] at hget
    omega
  | case4 lo hi found hlh =>
    have hmet := h.met
    obtain rfl : hi = lo - 1 := by omega
    exact ⟨lo, h⟩

theorem bucketForBoundaries_eq_some_iff {s b : Int} {l : List Int} (hl : l.Pairwise (· ≤ ·)) :
    bucketForBoundaries s l = some b ↔ IsGreatest {x | x ∈ l ∧ x ≤ s} b := by
  have hinit : Searching s l 0 (l.length - 1) none :=
    ⟨le_rfl, by omega, by omega, fun i b _ hi => by omega,
      fun i b hb hi => by
        obtain ⟨hil, -⟩ := List.getElem?_eq_some_iff.mp hb
        omega,
      rfl⟩
  obtain ⟨k, hk⟩ := searchBucket_spec hl _ _ _ hinit
  have hfound : bucketForBoundaries s l = if k = 0 then none else l[(k - 1).toNat]? := hk.found_eq
  have hlow := hk.low
  have hhigh := hk.high
  have hgreatest : ∀ x, bucketForBoundaries s l = some x → IsGreatest {x | x ∈ l ∧ x ≤ s} x := by
    intro x hx
    rw [hfound] at hx
    split at hx
    · cases hx
    · have hle := hk.before _ _ hx (by omega)
      refine ⟨⟨List.mem_of_getElem? hx, hle⟩, fun y ⟨hy, hys⟩ => ?_⟩
      obtain ⟨i, hi⟩ := List.mem_iff_getElem?.mp hy
      have hik : ¬ k - 1 < i := fun h => absurd (hk.after i y hi h) (by omega)
      exact le_of_getElem? hl hi hx (by omega)
  refine ⟨hgreatest b, fun hb => ?_⟩
  have hk0 : k ≠ 0 := fun h0 => by
    obtain ⟨i, hi⟩ := List.mem_iff_getElem?.mp hb.1.1
    have := hk.after i b hi (by omega)
    exact absurd hb.1.2 (by omega)
  obtain ⟨x, hx⟩ : ∃ x, bucketForBoundaries s l = some x := by
    rw [hfound, if_neg hk0]
    exact ⟨_, List.getElem?_eq_getElem (by omega)⟩
  rw [hx, (hgreatest x hx).unique hb]

end Search

section DayStart

variable {z : TimeZone} {d c s : Int}

/-- `localDayStartSeconds` in a zone whose offsets are readable. -/
def dayStart (z : TimeZone) (s : Int) : Int :=
  if z.offset (z.day s * 86400 - z.offset s) = z.offset s then z.day s * 86400 - z.offset s
  else (s + z.offset (z.day s * 86400 - z.offset s)) / 86400 * 86400 -
    z.offset (z.day s * 86400 - z.offset s)

theorem dayStart_le (z : TimeZone) (s : Int) : dayStart z s ≤ s := by
  unfold dayStart TimeZone.day TimeZone.wall
  split <;> omega

theorem lt_dayStart (z : TimeZone) (s : Int) : s < dayStart z s + 86400 := by
  unfold dayStart TimeZone.day TimeZone.wall
  split <;> omega

theorem exists_naiveStart (z : TimeZone) (s : Int) : ∃ u, u = z.day s * 86400 - z.offset s ∧
    (z.offset u = z.offset s ∧ dayStart z s = u ∨ z.offset u ≠ z.offset s ∧
        dayStart z s = (s + z.offset u) / 86400 * 86400 - z.offset u) := by
  refine ⟨_, rfl, ?_⟩
  unfold dayStart
  split
  · exact .inl ⟨by assumption, rfl⟩
  · exact .inr ⟨by assumption, rfl⟩

theorem lt_dayStart_step (hc : z.Begins d c) (hs : z.day s = d) : s < dayStart z (c + 86400 + 7200) := by
  have hday := hc.day_eq
  have hprev := hc.wall_lt (show c - 1 < c by omega)
  obtain ⟨t, o, n, w⟩ := z.exists_window (c - 7200)
  have hf := w.forward
  have hb := w.backward
  have h₁ := w.offset (c - 1) (by omega) (by omega)
  have h₂ := w.offset c (by omega) (by omega)
  have hfar : ¬ c + 129600 + 3600 < s := fun h => by
    have := z.wall_lt h
    have h₁ := w.offset (c + 129600) (by omega) (by omega)
    simp only [TimeZone.day, TimeZone.wall] at *
    omega
  have hcs := hc.le hs
  have h₃ := w.offset s (by omega) (by omega)
  have h₄ := w.offset (c + 86400 + 7200) (by omega) (by omega)
  obtain ⟨u, hu, hstart⟩ := exists_naiveStart z (c + 86400 + 7200)
  simp only [TimeZone.day, TimeZone.wall] at *
  have h₅ := w.offset u (by omega) (by omega)
  omega

theorem le_dayStart (hc : z.Begins d c) (hclear : ¬ z.Crosses c d) (hs : z.day s = d) : c ≤ dayStart z s := by
  have hday := hc.day_eq
  have hprev := hc.wall_lt (show c - 1 < c by omega)
  have hcs := hc.le hs
  have hle := lt_dayStart z s
  by_contra hlt
  obtain ⟨t, o, n, w⟩ := z.exists_window (c - 7200)
  have hf := w.forward
  have hb := w.backward
  have h₁ := w.offset (c - 1) (by omega) (by omega)
  have h₂ := w.offset c (by omega) (by omega)
  have h₃ := w.offset s (by omega) (by omega)
  obtain ⟨u, hu, hstart⟩ := exists_naiveStart z s
  simp only [TimeZone.Crosses, TimeZone.day, TimeZone.wall] at *
  have h₅ := w.offset u (by omega) (by omega)
  omega

theorem begins_dayStart (hshort : z.day (s - 86400) ≠ z.day s)
    (hclear : ∀ t ≤ s, ¬ z.Crosses t (z.day s)) : z.Begins (z.day s) (dayStart z s) := by
  obtain ⟨t, o, n, w⟩ := z.exists_window (s - 129600)
  have hf := w.forward
  have hb := w.backward
  have h₁ := w.offset s (by omega) (by omega)
  have h₂ := w.offset (s - 86400) (by omega) (by omega)
  obtain ⟨u, hu, hstart⟩ := exists_naiveStart z s
  have hle := dayStart_le z s
  have hlt := lt_dayStart z s
  have hc₁ := hclear t
  generalize hd : z.day s = d at *
  simp only [TimeZone.Crosses, TimeZone.day, TimeZone.wall] at hd hshort hc₁
  have h₃ := w.offset u (by omega) (by omega)
  generalize hv : dayStart z s = b at *
  have h₄ := w.offset b (by omega) (by omega)
  have hturn : s - 129600 < t → t ≤ s → z.offset (t - 1) = o ∧ z.offset t = n := fun hl hr =>
    ⟨w.offset_before (by omega) (by omega) (by omega), w.offset_after hl.le (by omega) le_rfl⟩
  apply TimeZone.begins_of_before
  · simp only [TimeZone.day, TimeZone.wall]
    omega
  · intro x hx hxb
    have h₅ := w.offset x (by omega) (by omega)
    simp only [TimeZone.wall]
    omega

theorem not_crosses_of_begins_dayStart (h : z.Begins (z.day s) (dayStart z s)) {x : Int}
    (hxs : x ≤ s) : ¬ z.Crosses x (z.day s) := by
  intro hx
  obtain ⟨t, o, n, w⟩ := z.exists_window (s - 129600)
  have hf := w.forward
  have hb := w.backward
  have h₁ := w.offset s (by omega) (by omega)
  have h₂ := w.offset (s - 100000) (by omega) (by omega)
  have hlow : ¬ x + 3600 < s - 100000 := fun h => by
    have hwc := z.wall_lt h
    have hwc' := z.wall_lt (show x - 1 + 3600 < s - 100000 by omega)
    simp only [TimeZone.Crosses, TimeZone.day, TimeZone.wall] at *
    omega
  obtain rfl := w.eq_of_crosses (by omega) (by omega) hx
  have hxo := w.offset_before (show s - 129600 ≤ x - 1 by omega) (by omega) (by omega)
  have hxn := w.offset_after (show s - 129600 ≤ x by omega) (by omega) le_rfl
  have hsn := w.offset_after (show s - 129600 ≤ s by omega) (by omega) hxs
  obtain ⟨u, hu, hstart⟩ := exists_naiveStart z s
  have hbx := @TimeZone.Begins.wall_lt z _ _ x h
  have hbm := @TimeZone.Begins.wall_lt z _ _ (z.day s * 86400 - o) h
  have hbd := h.day_eq
  have hle := dayStart_le z s
  have hlt := lt_dayStart z s
  have hstartOffset := w.offset (dayStart z s) (by omega) (by omega)
  generalize hd : z.day s = d at *
  simp only [TimeZone.Crosses, TimeZone.day, TimeZone.wall, hsn, hxo, hxn] at hd hx hbx hbm hbd hu
  have huOffset := w.offset u (by omega) (by omega)
  have hmOffset := w.offset (d * 86400 - o) (by omega) (by omega)
  rcases hx with ⟨hback, hback'⟩ | ⟨hforward, hforward'⟩
  · -- Midnight comes twice, and the second time is taken for the start.
    omega
  · -- Midnight is jumped over, and the start is another midnight or where it would have been.
    omega

theorem begins_dayStart_iff : z.Begins (z.day s) (dayStart z s) ↔
    z.day (s - 86400) ≠ z.day s ∧ ∀ t ≤ s, ¬ z.Crosses t (z.day s) := by
  constructor
  · intro h
    refine ⟨fun hsame => ?_, fun t ht => not_crosses_of_begins_dayStart h ht⟩
    have hle := h.le hsame
    have hlt := lt_dayStart z s
    omega
  · exact fun h => begins_dayStart h.1 h.2

theorem day_step (hc : z.Begins d c) : z.day (c + 86400 + 7200) = d + 1 ∧ z.day (c + 86400 + 7200 - 86400) = d := by
  have hday := hc.day_eq
  have hprev := hc.wall_lt (show c - 1 < c by omega)
  obtain ⟨t, o, n, w⟩ := z.exists_window (c - 7200)
  have hf := w.forward
  have hb := w.backward
  have h₁ := w.offset (c - 1) (by omega) (by omega)
  have h₂ := w.offset c (by omega) (by omega)
  have h₃ := w.offset (c + 86400 + 7200) (by omega) (by omega)
  have h₄ := w.offset (c + 86400 + 7200 - 86400) (by omega) (by omega)
  simp only [TimeZone.day, TimeZone.wall] at *
  omega

theorem begins_step (hc : z.Begins d c) (hclear : ∀ t, ¬ z.Crosses t (d + 1)) :
    z.Begins (d + 1) (dayStart z (c + 86400 + 7200)) := by
  obtain ⟨hnext, hsame⟩ := day_step hc
  rw [← hnext] at hclear ⊢
  refine begins_dayStart ?_ fun t _ => hclear t
  rw [hnext, hsame]
  omega

theorem not_crosses_of_begins_step (hc : z.Begins d c)
    (h : z.Begins (d + 1) (dayStart z (c + 86400 + 7200))) (x : Int) : ¬ z.Crosses x (d + 1) := by
  obtain ⟨hnext, -⟩ := day_step hc
  rcases le_or_gt x (c + 86400 + 7200) with hle | hgt
  · rw [← hnext] at h ⊢
    exact not_crosses_of_begins_dayStart h hle
  · -- Two hours into the day its midnight is out of the reach of a clock change.
    have hday := hc.day_eq
    intro hx
    obtain ⟨t, o, n, w⟩ := z.exists_window (c - 7200)
    have hf := w.forward
    have hb := w.backward
    have h₁ := w.offset c (by omega) (by omega)
    have h₂ := w.offset (c + 89999) (by omega) (by omega)
    have h₃ := w.offset (c + 90000) (by omega) (by omega)
    have hwx := z.wall_lt (show c + 90000 + 3600 < x by omega)
    have hwx' := z.wall_lt (show c + 89999 + 3600 < x - 1 by omega)
    simp only [TimeZone.Crosses, TimeZone.day, TimeZone.wall] at hday hwx hwx' hx
    omega

end DayStart

section Sequence

variable {longOffset : String → Int → Option (List Char)} {timeZone : String} {z : TimeZone}

def nextDay (z : TimeZone) (cursor : Int) : Int := dayStart z (cursor + 86400 + 7200)

theorem lt_nextDay (z : TimeZone) (cursor : Int) : cursor < nextDay z cursor := by
  have := lt_dayStart z (cursor + 86400 + 7200)
  unfold nextDay
  omega

theorem iterate_nextDay_strictMono (z : TimeZone) (c : Int) : StrictMono fun i => (nextDay z)^[i] c := by
  apply strictMono_nat_of_lt_succ
  intro i
  rw [Function.iterate_succ_apply']
  exact lt_nextDay z _

theorem localDayStartSeconds_eq
    (hz : ∀ t, zoneOffsetSecondsAt longOffset timeZone t = some (z.offset t)) (s : Int) :
    localDayStartSeconds longOffset s timeZone = some (dayStart z s) := by
  simp only [localDayStartSeconds, hz, Option.bind_eq_bind, Option.bind_some, dayStart, TimeZone.day, TimeZone.wall]
  exact (apply_ite some _ _ _).symm

theorem pushDays_eq_iterate
    (hz : ∀ t, zoneOffsetSecondsAt longOffset timeZone t = some (z.offset t)) (last : Int)
    (room : Nat) (c : Int) :
    ∃ k ≤ room, pushDays longOffset timeZone last room c = List.iterate (nextDay z) c k ∧
      (∀ i < k, (nextDay z)^[i] c ≤ last) ∧ (k < room → last < (nextDay z)^[k] c) := by
  induction room generalizing c with
  | zero => exact ⟨0, le_rfl, rfl, by simp, by simp⟩
  | succ room ih =>
    rw [pushDays, localDayStartSeconds_eq hz]
    split
    next hc =>
      obtain ⟨k, hk, hpush, hin, hout⟩ := ih (nextDay z c)
      refine ⟨k + 1, by omega, ?_, ?_, fun hroom => hout (by omega)⟩
      · have hnext : ¬ dayStart z (c + 86400 + 7200) ≤ c := (lt_nextDay z c).not_ge
        simp only [if_neg hnext, List.iterate]
        exact congrArg _ hpush
      · rintro (_ | i) hi
        · exact hc
        · exact hin i (by omega)
    next hc => exact ⟨0, by omega, rfl, by simp, fun _ => not_le.mp hc⟩

/-- The days are calendar days: each begins at its element, one follows the other, and every
instant of the range is in the bucket of its own. -/
structure CalendarDays (z : TimeZone) (fromSeconds toSeconds : Int) (days : List Int) : Prop where
  ascending : days.Pairwise (· < ·)
  begins : ∀ b ∈ days, z.Begins (z.day b) b
  consecutive : days.IsChain fun b b' => z.day b' = z.day b + 1
  bucketed : ∀ s, fromSeconds ≤ s → s ≤ toSeconds → ∃ b, bucketForBoundaries s days = some b ∧ z.day b = z.day s

structure ClearRange (z : TimeZone) (fromSeconds toSeconds : Int) : Prop where
  room : z.day toSeconds ≤ z.day fromSeconds + maxBuckets
  onward : ∀ t, fromSeconds < t → t ≤ toSeconds → z.day (t - 1) ≤ z.day t
  early : z.day (fromSeconds - 86400) ≠ z.day fromSeconds
  firstMidnight : ∀ t ≤ fromSeconds, ¬ z.Crosses t (z.day fromSeconds)
  laterMidnights : ∀ d, z.day fromSeconds < d → d ≤ z.day toSeconds → ∀ t, ¬ z.Crosses t d

theorem ascending_iterate (z : TimeZone) (c : Int) (k : Nat) : (List.iterate (nextDay z) c k).Pairwise (· < ·) := by
  rw [List.pairwise_iff_getElem]
  intro i j hi hj hij
  rw [List.getElem_iterate, List.getElem_iterate]
  exact iterate_nextDay_strictMono z c hij

theorem bucket_iterate_iff {s b c : Int} {k : Nat} : bucketForBoundaries s (List.iterate (nextDay z) c k) = some b ↔
      ∃ i < k, b = (nextDay z)^[i] c ∧ b ≤ s ∧ ∀ j < k, (nextDay z)^[j] c ≤ s → j ≤ i := by
  have hmono := iterate_nextDay_strictMono z c
  rw [bucketForBoundaries_eq_some_iff ((ascending_iterate z c k).imp le_of_lt)]
  constructor
  · rintro ⟨⟨hmem, hbs⟩, hmax⟩
    obtain ⟨i, hik, rfl⟩ := List.mem_iterate.mp hmem
    refine ⟨i, hik, rfl, hbs, fun j hjk hjs => ?_⟩
    exact hmono.le_iff_le.mp (hmax ⟨List.mem_iterate.mpr ⟨j, hjk, rfl⟩, hjs⟩)
  · rintro ⟨i, hik, rfl, hbs, hmax⟩
    refine ⟨⟨List.mem_iterate.mpr ⟨i, hik, rfl⟩, hbs⟩, ?_⟩
    rintro x ⟨hx, hxs⟩
    obtain ⟨j, hjk, rfl⟩ := List.mem_iterate.mp hx
    exact hmono.monotone (hmax j hjk hxs)

variable {fromSeconds toSeconds : Int}

theorem begins_iterate (h : ClearRange z fromSeconds toSeconds)
    (i : Nat) (hi : z.day fromSeconds + i ≤ z.day toSeconds) :
    z.Begins (z.day fromSeconds + i) ((nextDay z)^[i] (dayStart z fromSeconds)) := by
  induction i with
  | zero => simpa using begins_dayStart h.early h.firstMidnight
  | succ i ih =>
    rw [Function.iterate_succ_apply']
    push_cast at hi ⊢
    rw [← add_assoc]
    exact begins_step (ih (by omega)) (h.laterMidnights _ (by omega) (by omega))

theorem day_mono (h : ClearRange z fromSeconds toSeconds) {s t : Int}
    (hs : fromSeconds ≤ s) (hst : s ≤ t) (ht : t ≤ toSeconds) : z.day s ≤ z.day t := by
  induction t, hst using Int.leInduction with
  | base => exact le_rfl
  | succ t hst ih =>
    have hstep := h.onward (t + 1) (by omega) ht
    rw [add_sub_cancel_right] at hstep
    exact (ih (by omega)).trans hstep

theorem not_crosses_iterate (h : ClearRange z fromSeconds toSeconds)
    (i : Nat) (hi : z.day fromSeconds + i ≤ z.day toSeconds) :
    ¬ z.Crosses ((nextDay z)^[i] (dayStart z fromSeconds)) (z.day fromSeconds + i) := by
  cases i with
  | zero => simpa using h.firstMidnight _ (dayStart_le z fromSeconds)
  | succ i => exact h.laterMidnights _ (by omega) hi _

theorem calendarDays_of_clearRange (hle : fromSeconds ≤ toSeconds)
    (h : ClearRange z fromSeconds toSeconds) {k : Nat} (hk : k ≤ maxBuckets + 1)
    (hin : ∀ i < k, (nextDay z)^[i] (dayStart z fromSeconds) ≤ dayStart z toSeconds)
    (hout : k < maxBuckets + 1 → dayStart z toSeconds < (nextDay z)^[k] (dayStart z fromSeconds)) :
    CalendarDays z fromSeconds toSeconds
      (List.iterate (nextDay z) (dayStart z fromSeconds) k) := by
  have hmono := iterate_nextDay_strictMono z (dayStart z fromSeconds)
  have hspan := day_mono h le_rfl hle le_rfl
  have hroom := h.room
  -- The sequence has one element for each day of the range.
  obtain ⟨N, hN⟩ : ∃ N : Nat, z.day toSeconds = z.day fromSeconds + N :=
    ⟨(z.day toSeconds - z.day fromSeconds).toNat, by omega⟩
  have hlast := le_dayStart (begins_iterate h N (by omega)) (not_crosses_iterate h N (by omega)) hN
  have hpast := lt_dayStart_step (begins_iterate h N (by omega)) hN
  have hkN : k = N + 1 := by
    rcases Nat.lt_trichotomy k (N + 1) with hlt | heq | hgt
    · have hkN : (nextDay z)^[k] (dayStart z fromSeconds) ≤ (nextDay z)^[N] (dayStart z fromSeconds) :=
        hmono.monotone (by omega)
      have := hout (by omega)
      omega
    · exact heq
    · have hnext := (hin (N + 1) hgt).trans (dayStart_le z toSeconds)
      rw [Function.iterate_succ_apply'] at hnext
      exact absurd (hpast.trans_le hnext) (lt_irrefl _)
  subst hkN
  refine ⟨ascending_iterate z _ _, ?_, ?_, ?_⟩
  · intro b hb
    obtain ⟨i, hi, rfl⟩ := List.mem_iterate.mp hb
    have hbegins := begins_iterate h i (by omega)
    rwa [hbegins.day_eq]
  · rw [List.isChain_iff_getElem]
    intro i hi
    rw [List.length_iterate] at hi
    rw [List.getElem_iterate, List.getElem_iterate, (begins_iterate h i (by omega)).day_eq,
      (begins_iterate h (i + 1) (by omega)).day_eq]
    omega
  · intro s hs hst
    have hlow := day_mono h le_rfl hs hst
    have hhigh := day_mono h hs hst le_rfl
    obtain ⟨i, hi⟩ : ∃ i : Nat, z.day s = z.day fromSeconds + i :=
      ⟨(z.day s - z.day fromSeconds).toNat, by omega⟩
    have hbegins := begins_iterate h i (by omega)
    refine ⟨_, bucket_iterate_iff.mpr ⟨i, by omega, rfl, hbegins.le hi, fun j hj hjs => ?_⟩, ?_⟩
    · by_contra hij
      have hnext := lt_dayStart_step hbegins hi
      have hij : (nextDay z)^[i + 1] (dayStart z fromSeconds) ≤ (nextDay z)^[j] (dayStart z fromSeconds) :=
        hmono.monotone (by omega)
      rw [Function.iterate_succ_apply'] at hij
      exact absurd ((hnext.trans_le hij).trans_le hjs) (lt_irrefl _)
    · rw [hbegins.day_eq, hi]

theorem clearRange_of_calendarDays (hle : fromSeconds ≤ toSeconds)
    {k : Nat} (hk : k ≤ maxBuckets + 1)
    (h : CalendarDays z fromSeconds toSeconds
      (List.iterate (nextDay z) (dayStart z fromSeconds) k)) :
    ClearRange z fromSeconds toSeconds := by
  have hmono := iterate_nextDay_strictMono z (dayStart z fromSeconds)
  obtain ⟨d, hd⟩ : ∃ d, z.day (dayStart z fromSeconds) = d := ⟨_, rfl⟩
  have hday : ∀ i < k, z.day ((nextDay z)^[i] (dayStart z fromSeconds)) = d + i := by
    intro i hi
    induction i with
    | zero => simpa using hd
    | succ i ih =>
      have hstep := List.isChain_iff_getElem.mp h.consecutive i (by simpa using hi)
      rw [List.getElem_iterate, List.getElem_iterate, ih (by omega)] at hstep
      rw [hstep]
      omega
  have hbegins : ∀ i < k, z.Begins (d + i) ((nextDay z)^[i] (dayStart z fromSeconds)) := by
    intro i hi
    rw [← hday i hi]
    exact h.begins _ (List.mem_iterate.mpr ⟨i, hi, rfl⟩)
  have hclear : ∀ i, i + 1 < k → ∀ t, ¬ z.Crosses t (d + (i + 1 : Nat)) := by
    intro i hi
    have hnext := hbegins (i + 1) hi
    rw [Function.iterate_succ_apply'] at hnext
    push_cast at hnext ⊢
    rw [← add_assoc] at hnext ⊢
    exact not_crosses_of_begins_step (hbegins i (by omega)) hnext
  -- The instant's bucket, as the number of its day in the sequence.
  have hbucket : ∀ s, fromSeconds ≤ s → s ≤ toSeconds → ∃ i < k,
      (nextDay z)^[i] (dayStart z fromSeconds) ≤ s ∧ z.day s = d + i ∧
        ∀ j < k, (nextDay z)^[j] (dayStart z fromSeconds) ≤ s → j ≤ i := by
    intro s hs hst
    obtain ⟨b, hb, hbs⟩ := h.bucketed s hs hst
    obtain ⟨i, hi, rfl, hle, hmax⟩ := bucket_iterate_iff.mp hb
    exact ⟨i, hi, hle, by rw [← hbs, hday i hi], hmax⟩
  -- The range's first instant is in the first of the buckets, as its day start would otherwise be
  -- a later one.
  have hfirst : z.day fromSeconds = d := by
    obtain ⟨i, hi, -, hs, -⟩ := hbucket fromSeconds le_rfl hle
    cases i with
    | zero => simpa using hs
    | succ i =>
      have hlater := le_dayStart (hbegins (i + 1) hi) (hclear i hi _) hs
      have hearlier : dayStart z fromSeconds < (nextDay z)^[i + 1] (dayStart z fromSeconds) :=
        hmono (Nat.succ_pos i)
      omega
  obtain ⟨N, hN, -, hto, -⟩ := hbucket toSeconds hle le_rfl
  have hstart : z.Begins (z.day fromSeconds) (dayStart z fromSeconds) := by
    simpa [hfirst] using hbegins 0 (by omega)
  obtain ⟨hearly, hmidnight⟩ := begins_dayStart_iff.mp hstart
  refine ⟨?_, ?_, hearly, hmidnight, ?_⟩
  · omega
  · intro t ht htt
    obtain ⟨i, hi, his, hid, -⟩ := hbucket (t - 1) (by omega) (by omega)
    obtain ⟨j, hj, -, hjd, hmax⟩ := hbucket t (by omega) htt
    have := hmax i hi (by omega)
    omega
  · intro e he hed
    obtain ⟨i, rfl⟩ : ∃ i : Nat, e = d + (i + 1 : Nat) := ⟨(e - d - 1).toNat, by omega⟩
    exact hclear i (by omega)

/-- The days of a range are calendar days exactly when the range keeps clear. -/
theorem localDaySequence_calendarDays_iff
    (hz : ∀ t, zoneOffsetSecondsAt longOffset timeZone t = some (z.offset t))
    {fromSeconds toSeconds : Int} (hle : fromSeconds ≤ toSeconds) :
    (∃ days, localDaySequence longOffset fromSeconds toSeconds timeZone = some days ∧
      CalendarDays z fromSeconds toSeconds days) ↔ ClearRange z fromSeconds toSeconds := by
  obtain ⟨k, hk, hpush, hin, hout⟩ := pushDays_eq_iterate hz (dayStart z toSeconds)
    (maxBuckets + 1) (dayStart z fromSeconds)
  have hdays : localDaySequence longOffset fromSeconds toSeconds timeZone =
      some (List.iterate (nextDay z) (dayStart z fromSeconds) k) := by
    simp only [localDaySequence, localDayStartSeconds_eq hz, Option.bind_eq_bind, Option.bind_some, ← hpush]
    rfl
  constructor
  · rintro ⟨days, heq, hcal⟩
    rw [hdays, Option.some.injEq] at heq
    subst heq
    exact clearRange_of_calendarDays hle hk hcal
  · intro h
    exact ⟨_, hdays, calendarDays_of_clearRange hle h hk hin hout⟩

def fallBack (turn summer : Int) : TimeZone where
  offset t := if t < turn then summer else summer - 3600
  hour t := by
    split <;> split <;> omega
  apart t u h ht hu := by
    split at ht <;> split at ht <;> split at hu <;> split at hu <;> omega

def californiaName (_ : String) (t : Int) : Option (List Char) :=
  some (if t < 1793523600 then "GMT-07:00".toList else "GMT-08:00".toList)

theorem californiaName_reads (t : Int) : zoneOffsetSecondsAt californiaName "America/Los_Angeles" t =
      some ((fallBack 1793523600 (-25200)).offset t) := by
  simp only [zoneOffsetSecondsAt, californiaName, fallBack]
  split <;> decide +kernel

theorem california_calendarDays : ∃ days, localDaySequence californiaName 1793430000 1793692799 "America/Los_Angeles" =
      some days ∧ CalendarDays (fallBack 1793523600 (-25200)) 1793430000 1793692799 days := by
  refine (localDaySequence_calendarDays_iff californiaName_reads (by decide)).mpr ?_
  constructor
  · decide +kernel
  · intro t _ _
    simp only [TimeZone.day, TimeZone.wall, fallBack]
    split <;> split <;> omega
  · decide +kernel
  · intro t ht
    simp only [TimeZone.Crosses, TimeZone.day, TimeZone.wall, fallBack] at *
    split <;> split <;> omega
  · intro d hlow hhigh t
    simp only [TimeZone.Crosses, TimeZone.day, TimeZone.wall, fallBack] at *
    split <;> split <;> omega

def azoresName (_ : String) (t : Int) : Option (List Char) :=
  some (if t < 1792890000 then "GMT".toList else "GMT-01:00".toList)

theorem azores_not_calendarDays : (∀ t, zoneOffsetSecondsAt azoresName "Atlantic/Azores" t =
      some ((fallBack 1792890000 0).offset t)) ∧
    (1792800000 : Int) ≤ 1792976399 ∧
    ¬ ∃ days, localDaySequence azoresName 1792800000 1792976399 "Atlantic/Azores" = some days ∧
      CalendarDays (fallBack 1792890000 0) 1792800000 1792976399 days := by
  refine ⟨fun t => ?_, by decide, ?_⟩
  · simp only [zoneOffsetSecondsAt, azoresName, fallBack]
    split <;> decide +kernel
  · rintro ⟨days, hdays, h⟩
    have hval : localDaySequence azoresName 1792800000 1792976399 "Atlantic/Azores" =
        some [1792800000, 1792890000] := by decide +kernel
    rw [hval, Option.some.injEq] at hdays
    subst hdays
    have hbegins := h.begins 1792890000 (by simp)
    have hearlier : (1792890000 : Int) ≤ 1792886400 := hbegins.le (by decide +kernel)
    omega

end Sequence

end A2Wave.TimeBuckets
