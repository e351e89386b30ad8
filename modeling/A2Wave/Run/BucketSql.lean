import Mathlib.Data.List.Sort
import A2Wave.Lib.SqlExpr
import A2Wave.Run.TimeBuckets

/-! The fixed-width buckets of a run time series, and the SQL forms of both kinds of bucket. -/

namespace A2Wave.TimeBuckets

open SqlExpr

section FixedWidth

inductive BucketUnit
  | hour
  | day
  deriving DecidableEq

def BucketUnit.seconds : BucketUnit → Int
  | .hour => 3600
  | .day => 86400

def bucketStartSeconds (seconds : Int) (unit : BucketUnit) (offsetSeconds : Int) : Int :=
  (seconds + offsetSeconds) / unit.seconds * unit.seconds - offsetSeconds

def bucketCount (fromSeconds toSeconds : Int) (unit : BucketUnit) (offsetSeconds : Int) : Int :=
  (bucketStartSeconds toSeconds unit offsetSeconds - bucketStartSeconds fromSeconds unit offsetSeconds) /
    unit.seconds + 1

theorem BucketUnit.seconds_pos (unit : BucketUnit) : 0 < unit.seconds := by
  cases unit <;> decide

/-- The loop of `bucketSequence`. -/
def pushBuckets (unit : BucketUnit) (last s : Int) : List Int :=
  if s ≤ last then s :: pushBuckets unit last (s + unit.seconds) else []
termination_by (last + 1 - s).toNat
decreasing_by
  have := unit.seconds_pos
  omega

def bucketSequence (fromSeconds toSeconds : Int) (unit : BucketUnit) (offsetSeconds : Int) : List Int :=
  pushBuckets unit (bucketStartSeconds toSeconds unit offsetSeconds)
    (bucketStartSeconds fromSeconds unit offsetSeconds)

end FixedWidth

section Sql

/-- `epochSeconds(col)`. -/
def epochSeconds (isPostgres : Bool) : Expr :=
  if isPostgres then .extractEpoch .column else .castInteger .column

def literalInt (n : Int) : Expr := .number (.integer n)

def bound (asReal : Bool) (n : Int) : Expr := .number (.whole asReal n)

def ladder (isPostgres : Bool) : List Int → Expr
  | [] => .null
  | b :: bs => .whenGe (epochSeconds isPostgres) (literalInt b) (literalInt b) (ladder isPostgres bs)

def boundaryBucketSql (isPostgres : Bool) (boundaries : List Int) : Expr :=
  if boundaries.isEmpty then .null
  else ladder isPostgres (boundaries.mergeSort fun a b => b ≤ a)

def bucketStartSql (isPostgres boundAsReal : Bool) (unit : BucketUnit) (offsetSeconds : Int) : Expr :=
  if isPostgres then
    .sub (.mul (.floor (.div (.add (epochSeconds isPostgres) (literalInt offsetSeconds))
      (literalInt unit.seconds))) (literalInt unit.seconds)) (literalInt offsetSeconds)
  else
    .sub (.mul (.castInteger (.div (.add (epochSeconds isPostgres) (bound boundAsReal offsetSeconds))
      (bound boundAsReal unit.seconds))) (bound boundAsReal unit.seconds)) (bound boundAsReal offsetSeconds)

def rawBucketExpression (unit : BucketUnit) (offsetSeconds : Int) : Expr :=
  .sub (.mul (.castInteger (.div (.add (.castInteger .column) (literalInt offsetSeconds))
    (literalInt unit.seconds))) (literalInt unit.seconds)) (literalInt offsetSeconds)

end Sql

section FixedWidthLaws

variable {unit : BucketUnit} {offsetSeconds s last x fromSeconds toSeconds : Int}

theorem mem_pushBuckets (h : ∃ k : Nat, x = s + k * unit.seconds) (hx : x ≤ last) : x ∈ pushBuckets unit last s := by
  obtain ⟨k, rfl⟩ := h
  have hpos := unit.seconds_pos
  induction k generalizing s with
  | zero =>
    rw [Nat.cast_zero, zero_mul, add_zero] at hx ⊢
    rw [pushBuckets, if_pos hx]
    exact List.mem_cons_self
  | succ k ih =>
    have hstep : s + (k + 1 : Nat) * unit.seconds = s + unit.seconds + k * unit.seconds := by
      push_cast
      ring
    have hk : 0 ≤ (k : Int) * unit.seconds := mul_nonneg (Int.natCast_nonneg k) hpos.le
    rw [hstep] at hx ⊢
    rw [pushBuckets, if_pos (by omega)]
    exact List.mem_cons_of_mem _ (ih hx)

theorem length_pushBuckets (k : Nat) : (pushBuckets unit (s + k * unit.seconds) s).length = k + 1 := by
  have hpos := unit.seconds_pos
  induction k generalizing s with
  | zero =>
    have hend : ¬ s + unit.seconds ≤ s := by omega
    simp only [Nat.cast_zero, zero_mul, add_zero]
    rw [pushBuckets, if_pos le_rfl, pushBuckets, if_neg hend]
    rfl
  | succ k ih =>
    have hk : 0 ≤ (k : Int) * unit.seconds := mul_nonneg (Int.natCast_nonneg k) hpos.le
    have hstep : s + (k + 1 : Nat) * unit.seconds = s + unit.seconds + k * unit.seconds := by
      push_cast
      ring
    rw [hstep, pushBuckets, if_pos (by omega), List.length_cons, ih]

theorem exists_widths (h : fromSeconds ≤ s) : ∃ k : Nat, bucketStartSeconds s unit offsetSeconds =
      bucketStartSeconds fromSeconds unit offsetSeconds + k * unit.seconds := by
  have hle : (fromSeconds + offsetSeconds) / unit.seconds ≤ (s + offsetSeconds) / unit.seconds :=
    Int.ediv_le_ediv unit.seconds_pos (by omega)
  obtain ⟨k, hk⟩ := Int.le.dest hle
  refine ⟨k, ?_⟩
  rw [bucketStartSeconds, bucketStartSeconds, ← hk]
  ring

theorem mem_bucketSequence (hf : fromSeconds ≤ s) (ht : s ≤ toSeconds) :
    bucketStartSeconds s unit offsetSeconds ∈ bucketSequence fromSeconds toSeconds unit offsetSeconds := by
  obtain ⟨k, hk⟩ := exists_widths ht
  refine mem_pushBuckets (exists_widths hf) ?_
  rw [hk]
  exact le_add_of_nonneg_right (mul_nonneg (Int.natCast_nonneg k) unit.seconds_pos.le)

theorem bucketCount_eq (h : fromSeconds ≤ toSeconds) : bucketCount fromSeconds toSeconds unit offsetSeconds =
      (bucketSequence fromSeconds toSeconds unit offsetSeconds).length := by
  obtain ⟨k, hk⟩ : ∃ k : Nat, bucketStartSeconds toSeconds unit offsetSeconds =
      bucketStartSeconds fromSeconds unit offsetSeconds + k * unit.seconds := exists_widths h
  rw [bucketCount, bucketSequence, hk, length_pushBuckets, add_sub_cancel_left,
    Int.mul_ediv_cancel _ unit.seconds_pos.ne']
  rfl

end FixedWidthLaws

section SqlLaws

variable {isPostgres asReal boundAsReal : Bool} {unit : BucketUnit} {offsetSeconds s : Int}

theorem eval_epochSeconds (isPostgres asReal : Bool) (s : Int) :
    ∃ v, (epochSeconds isPostgres).eval (.whole asReal s) = some v ∧ v.value = s := by
  cases isPostgres with
  | true => exact ⟨_, rfl, Number.value_whole asReal s⟩
  | false => exact ⟨_, rfl, by simp⟩

theorem eval_ladder (l : List Int) :
    (ladder isPostgres l).eval (.whole asReal s) = (l.find? (· ≤ s)).map Number.integer := by
  obtain ⟨v, hv, hvs⟩ := eval_epochSeconds isPostgres asReal s
  induction l with
  | nil => rfl
  | cons b bs ih =>
    have hcond : ((Number.integer b).value ≤ v.value) ↔ b ≤ s := by
      rw [hvs]
      exact Int.cast_le
    by_cases hb : b ≤ s
    · rw [List.find?_cons_of_pos (by simpa using hb)]
      simp only [ladder, literalInt, Expr.eval, hv, if_pos (hcond.mpr hb), Option.map_some]
    · rw [List.find?_cons_of_neg (by simpa using hb), ← ih]
      simp only [ladder, literalInt, Expr.eval, hv, if_neg fun h => hb (hcond.mp h)]

theorem find?_eq_some_iff {l : List Int} (hl : l.Pairwise (· ≥ ·)) {b : Int} :
    l.find? (· ≤ s) = some b ↔ IsGreatest {x | x ∈ l ∧ x ≤ s} b := by
  have hgreatest : ∀ b, l.find? (· ≤ s) = some b → IsGreatest {x | x ∈ l ∧ x ≤ s} b := by
    induction l with
    | nil => exact fun _ h => nomatch h
    | cons a l ih =>
      intro b hb
      obtain ⟨ha, hl⟩ := List.pairwise_cons.mp hl
      by_cases has : a ≤ s
      · rw [List.find?_cons_of_pos (by simpa using has)] at hb
        cases hb
        refine ⟨⟨List.mem_cons_self, has⟩, fun x ⟨hx, _⟩ => ?_⟩
        rcases List.mem_cons.mp hx with rfl | hx
        · exact le_rfl
        · exact ha x hx
      · rw [List.find?_cons_of_neg (by simpa using has)] at hb
        obtain ⟨⟨hbl, hbs⟩, hmax⟩ := ih hl b hb
        refine ⟨⟨List.mem_cons_of_mem _ hbl, hbs⟩, fun x ⟨hx, hxs⟩ => ?_⟩
        rcases List.mem_cons.mp hx with rfl | hx
        · exact absurd hxs has
        · exact hmax ⟨hx, hxs⟩
  refine ⟨hgreatest b, fun hb => ?_⟩
  obtain ⟨x, hx⟩ : ∃ x, l.find? (· ≤ s) = some x := by
    rw [← Option.isSome_iff_exists, List.find?_isSome]
    exact ⟨b, hb.1.1, by simpa using hb.1.2⟩
  rw [hx, (hgreatest x hx).unique hb]

theorem eval_boundaryBucketSql {boundaries : List Int} (h : boundaries.Pairwise (· ≤ ·)) :
    (boundaryBucketSql isPostgres boundaries).eval (.whole asReal s) =
      (bucketForBoundaries s boundaries).map Number.integer := by
  have hsorted : (boundaries.mergeSort fun a b => b ≤ a).Pairwise (· ≥ ·) := by
    have hsort := @List.pairwise_mergeSort Int (fun a b => b ≤ a) ?_ ?_ boundaries
    · exact hsort.imp fun h => of_decide_eq_true h
    · intro a b c hab hbc
      simp only [decide_eq_true_eq] at *
      omega
    · intro a b
      simp only [Bool.or_eq_true, decide_eq_true_eq]
      omega
  have hfind : (boundaries.mergeSort fun a b => b ≤ a).find? (· ≤ s) = bucketForBoundaries s boundaries := by
    ext b
    rw [find?_eq_some_iff hsorted, bucketForBoundaries_eq_some_iff h]
    simp only [List.mem_mergeSort]
  rw [boundaryBucketSql, ← hfind]
  split
  next hnil =>
    rw [List.isEmpty_iff.mp hnil, List.mergeSort_nil]
    rfl
  next => exact eval_ladder _

theorem value_bucketStartSql (h : 0 ≤ s + offsetSeconds) :
    ((bucketStartSql isPostgres boundAsReal unit offsetSeconds).eval (.whole asReal s)).map
      Number.value = some (bucketStartSeconds s unit offsetSeconds : ℚ) := by
  have hpos := unit.seconds_pos
  cases isPostgres with
  | true =>
    have hfloor := Number.floor_div ((Number.real s).add (.integer offsetSeconds))
      (.integer unit.seconds) h hpos (by simp) rfl
    simp [bucketStartSql, epochSeconds, literalInt, Expr.eval, bucketStartSeconds, hfloor]
  | false =>
    have htruncate := Number.truncate_div
      ((Number.whole asReal s).castInteger.add (.whole boundAsReal offsetSeconds))
      (.whole boundAsReal unit.seconds) h hpos (by simp) (by simp)
    simp [bucketStartSql, epochSeconds, bound, Expr.eval, bucketStartSeconds, htruncate]

theorem value_rawBucketExpression (h : 0 ≤ s + offsetSeconds) :
    ((rawBucketExpression unit offsetSeconds).eval (.whole asReal s)).map Number.value =
      some (bucketStartSeconds s unit offsetSeconds : ℚ) :=
  @value_bucketStartSql false asReal false unit offsetSeconds s h

end SqlLaws

/-- The three forms of the partition agree: the search and the ladder over explicit boundaries, and
the arithmetic, the SQL expressions and the enumerated sequence of a fixed width. -/
theorem bucketing_agrees (isPostgres columnAsReal boundAsReal : Bool) :
    (∀ (boundaries : List Int) (s : Int), boundaries.Pairwise (· ≤ ·) →
      (∀ b, bucketForBoundaries s boundaries = some b ↔ IsGreatest {x | x ∈ boundaries ∧ x ≤ s} b) ∧
      (boundaryBucketSql isPostgres boundaries).eval (.whole columnAsReal s) =
        (bucketForBoundaries s boundaries).map .integer) ∧
    ∀ (unit : BucketUnit) (offsetSeconds s : Int), 0 ≤ s + offsetSeconds →
      ((bucketStartSql isPostgres boundAsReal unit offsetSeconds).eval
        (.whole columnAsReal s)).map Number.value = some (bucketStartSeconds s unit offsetSeconds : ℚ) ∧
      ((rawBucketExpression unit offsetSeconds).eval (.whole columnAsReal s)).map Number.value =
        some (bucketStartSeconds s unit offsetSeconds : ℚ) ∧
      ∀ fromSeconds toSeconds, fromSeconds ≤ s → s ≤ toSeconds → bucketStartSeconds s unit offsetSeconds ∈
          bucketSequence fromSeconds toSeconds unit offsetSeconds ∧
        bucketCount fromSeconds toSeconds unit offsetSeconds =
          (bucketSequence fromSeconds toSeconds unit offsetSeconds).length := by
  constructor
  · intro boundaries s h
    exact ⟨fun _ => bucketForBoundaries_eq_some_iff h, eval_boundaryBucketSql h⟩
  · intro unit offsetSeconds s h
    refine ⟨value_bucketStartSql h, value_rawBucketExpression h, ?_⟩
    intro fromSeconds toSeconds hf ht
    exact ⟨mem_bucketSequence hf ht, bucketCount_eq (hf.trans ht)⟩

theorem bucketing_agrees_samples : (boundaryBucketSql false [0, 82800, 169200]).eval (.whole true 82800) =
      (bucketForBoundaries 82800 [0, 82800, 169200]).map .integer ∧
    ((bucketStartSql false true .hour (-18000)).eval (.whole true 93784)).map Number.value =
      some (bucketStartSeconds 93784 .hour (-18000) : ℚ) ∧
    bucketCount 0 93784 .day (-18000) = (bucketSequence 0 93784 .day (-18000)).length :=
  ⟨((bucketing_agrees false true true).1 [0, 82800, 169200] 82800 (by decide)).2,
    ((bucketing_agrees false true true).2 .hour (-18000) 93784 (by decide)).1,
    (((bucketing_agrees false true true).2 .day (-18000) 93784 (by decide)).2.2 0 93784
      (by decide) (by decide)).2⟩

end A2Wave.TimeBuckets
