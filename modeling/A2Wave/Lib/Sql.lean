import Mathlib.Data.List.Dedup

/-! Conditions of SQL.  A column that may be NULL is an `Option`, and so is the value of a
condition: `none` is the third truth value, which a `WHERE` clause treats as false. -/

universe u

namespace A2Wave.Sql

abbrev Truth := Option Bool

variable {α : Type u} [DecidableEq α]

def eq : Option α → Option α → Truth
  | some a, some b => some (decide (a = b))
  | _, _ => none

def or : Truth → Truth → Truth
  | some true, _ => some true
  | _, some true => some true
  | some false, some false => some false
  | _, _ => none

def and : Truth → Truth → Truth
  | some false, _ => some false
  | _, some false => some false
  | some true, some true => some true
  | _, _ => none

def isNotNull {β : Type u} (x : Option β) : Truth := some x.isSome

/-- `x IN (…)`: a disjunction of equations, so it is NULL when the list has a NULL and no
element equal to `x`. -/
def inList (x : Option α) : List (Option α) → Truth
  | [] => some false
  | y :: ys => or (eq x y) (inList x ys)

def union (xs ys : List (Option α)) : List (Option α) := (xs ++ ys).dedup

/-- A `WHERE` clause keeps the rows whose condition is true. -/
def holds (t : Truth) : Bool := t == some true

omit [DecidableEq α] in
@[simp] theorem holds_isNotNull (x : Option α) : holds (isNotNull x) = true ↔ x ≠ none := by
  cases x <;> simp [isNotNull, holds]

@[simp] theorem holds_eq (x y : Option α) : holds (eq x y) = true ↔ ∃ a, x = some a ∧ y = some a := by
  cases x with
  | none => simp [eq, holds]
  | some a =>
    cases y with
    | none => simp [eq, holds]
    | some b => simp [eq, holds, eq_comm]

@[simp] theorem holds_or (s t : Truth) : holds (or s t) = true ↔ holds s = true ∨ holds t = true := by
  rcases s with _ | _ | _ <;> rcases t with _ | _ | _ <;> simp [or, holds]

@[simp] theorem holds_and (s t : Truth) : holds (and s t) = true ↔ holds s = true ∧ holds t = true := by
  rcases s with _ | _ | _ <;> rcases t with _ | _ | _ <;> simp [and, holds]

@[simp] theorem holds_inList (x : Option α) (ys : List (Option α)) :
    holds (inList x ys) = true ↔ ∃ a, x = some a ∧ some a ∈ ys := by
  induction ys with
  | nil => simp [inList, holds]
  | cons y ys ih =>
    rw [inList, holds_or, holds_eq, ih]
    constructor
    · rintro (⟨a, hx, hy⟩ | ⟨a, hx, hy⟩)
      · exact ⟨a, hx, by simp [hy]⟩
      · exact ⟨a, hx, by simp [hy]⟩
    · rintro ⟨a, hx, hy⟩
      rcases List.mem_cons.mp hy with hy | hy
      · exact .inl ⟨a, hx, hy.symm⟩
      · exact .inr ⟨a, hx, hy⟩

@[simp] theorem mem_union (x : Option α) (xs ys : List (Option α)) : x ∈ union xs ys ↔ x ∈ xs ∨ x ∈ ys := by
  simp [union]

end A2Wave.Sql
