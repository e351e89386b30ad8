import Mathlib.Algebra.Order.Floor.Ring
import Mathlib.Data.Rat.Floor
import Mathlib.Tactic.Linarith

/-! Arithmetic of SQL expressions. A quotient of reals is exact. -/

namespace A2Wave.SqlExpr

inductive Number
  | integer (n : Int)
  | real (q : ℚ)
  deriving DecidableEq

namespace Number

def value : Number → ℚ
  | integer n => n
  | real q => q

@[simp] theorem value_integer (n : Int) : (integer n).value = n := rfl

@[simp] theorem value_real (q : ℚ) : (real q).value = q := rfl

def whole (asReal : Bool) (n : Int) : Number := if asReal then real n else integer n

@[simp] theorem value_whole (asReal : Bool) (n : Int) : (whole asReal n).value = n := by
  cases asReal <;> rfl

def add : Number → Number → Number
  | integer m, integer n => integer (m + n)
  | a, b => real (a.value + b.value)

def sub : Number → Number → Number
  | integer m, integer n => integer (m - n)
  | a, b => real (a.value - b.value)

def mul : Number → Number → Number
  | integer m, integer n => integer (m * n)
  | a, b => real (a.value * b.value)

def div : Number → Number → Number
  | integer m, integer n => integer (m.tdiv n)
  | a, b => real (a.value / b.value)

def truncate (q : ℚ) : Int := if 0 ≤ q then ⌊q⌋ else ⌈q⌉

def castInteger (a : Number) : Number := integer (truncate a.value)

def floor (a : Number) : Number := real ⌊a.value⌋

variable (a b : Number)

@[simp] theorem value_add : (a.add b).value = a.value + b.value := by
  cases a <;> cases b <;> simp [add, value]

@[simp] theorem value_sub : (a.sub b).value = a.value - b.value := by
  cases a <;> cases b <;> simp [sub, value]

@[simp] theorem value_mul : (a.mul b).value = a.value * b.value := by
  cases a <;> cases b <;> simp [mul, value]

@[simp] theorem value_floor : a.floor.value = ⌊a.value⌋ := rfl

@[simp] theorem value_castInteger : a.castInteger.value = truncate a.value := rfl

@[simp] theorem truncate_intCast (n : Int) : truncate n = n := by
  unfold truncate
  split <;> simp

theorem floor_div_intCast (m : Int) {n : Int} (hn : 0 < n) : ⌊(m / n : ℚ)⌋ = m / n := by
  lift n to ℕ using hn.le
  exact Rat.floor_intCast_div_natCast m n

theorem floor_div {m n : Int} (hm : 0 ≤ m) (hn : 0 < n) (ha : a.value = m) (hb : b.value = n) :
    ⌊(a.div b).value⌋ = m / n := by
  have hreal : ⌊a.value / b.value⌋ = m / n := by
    rw [ha, hb, floor_div_intCast m hn]
  cases a with
  | real q => exact hreal
  | integer p =>
    cases b with
    | real r => exact hreal
    | integer r =>
      obtain rfl : p = m := Int.cast_injective ha
      obtain rfl : r = n := Int.cast_injective hb
      exact (Int.floor_intCast _).trans (Int.tdiv_eq_ediv_of_nonneg hm)

theorem truncate_div {m n : Int} (hm : 0 ≤ m) (hn : 0 < n) (ha : a.value = m) (hb : b.value = n) :
    truncate (a.div b).value = m / n := by
  have hfloor := floor_div a b hm hn ha hb
  have hq : 0 ≤ (a.div b).value := by
    rw [← Int.floor_nonneg, hfloor]
    exact Int.ediv_nonneg hm hn.le
  rw [truncate, if_pos hq, hfloor]

end Number

inductive Expr
  | column
  | number (n : Number)
  | add (a b : Expr)
  | sub (a b : Expr)
  | mul (a b : Expr)
  | div (a b : Expr)
  | castInteger (a : Expr)
  | floor (a : Expr)
  | extractEpoch (a : Expr)
  | null
  | whenGe (a b yes no : Expr)

/-- The value of an expression in a row; `none` is NULL. -/
def Expr.eval (row : Number) : Expr → Option Number
  | column => some row
  | number n => some n
  | add a b => return (← a.eval row).add (← b.eval row)
  | sub a b => return (← a.eval row).sub (← b.eval row)
  | mul a b => return (← a.eval row).mul (← b.eval row)
  | div a b => return (← a.eval row).div (← b.eval row)
  | castInteger a => return (← a.eval row).castInteger
  | floor a => return (← a.eval row).floor
  | extractEpoch a => return .real (← a.eval row).value
  | null => none
  | whenGe a b yes no =>
    match a.eval row, b.eval row with
    | some x, some y => if y.value ≤ x.value then yes.eval row else no.eval row
    | _, _ => no.eval row

end A2Wave.SqlExpr
