import Mathlib.Data.List.Basic
import Mathlib.Data.Rat.Defs

/-! JSON values as a JavaScript program holds them.  Objects keep the order of their
fields, because two objects that differ only in order have different text. -/

namespace A2Wave

mutual

inductive Json
  | null
  | bool (b : Bool)
  | num (q : ℚ)
  | str (s : String)
  | arr (xs : Elems)
  | obj (fs : Fields)
  deriving DecidableEq

inductive Elems
  | nil
  | cons (x : Json) (xs : Elems)
  deriving DecidableEq

inductive Fields
  | nil
  | cons (k : String) (v : Json) (fs : Fields)
  deriving DecidableEq

end

/-- JavaScript's truth value of a value that may be `undefined`. -/
def truthy : Option Json → Bool
  | none => false
  | some .null => false
  | some (.bool b) => b
  | some (.num q) => q ≠ 0
  | some (.str s) => s ≠ ""
  | some (.arr _) => true
  | some (.obj _) => true

namespace Elems

def ofList : List Json → Elems
  | [] => nil
  | x :: xs => cons x (ofList xs)

def toList : Elems → List Json
  | nil => []
  | cons x xs => x :: toList xs

def length : Elems → Nat
  | nil => 0
  | cons _ xs => xs.length + 1

end Elems

namespace Fields

def ofList : List (String × Json) → Fields
  | [] => nil
  | (k, v) :: fs => cons k v (ofList fs)

/-- Read a property; `none` is `undefined`. -/
def get? (fs : Fields) (k : String) : Option Json :=
  match fs with
  | nil => none
  | cons l v fs => if l = k then some v else get? fs k

def set (fs : Fields) (k : String) (v : Json) : Fields :=
  match fs with
  | nil => cons k v nil
  | cons l w fs => if l = k then cons l v fs else cons l w (set fs k v)

def erase (fs : Fields) (k : String) : Fields :=
  match fs with
  | nil => nil
  | cons l w fs => if l = k then erase fs k else cons l w (erase fs k)

/-- Assign a value, or delete the key when the value is `undefined`. -/
def write (fs : Fields) (k : String) : Option Json → Fields
  | none => fs.erase k
  | some v => fs.set k v

def writes (fs : Fields) (ws : List (String × Option Json)) : Fields :=
  ws.foldl (fun fs w => fs.write w.1 w.2) fs

/-- The rest pattern `{ k₁, …, kₙ, ...rest }`. -/
def without (fs : Fields) (ks : List String) : Fields :=
  ks.foldl erase fs

variable (fs : Fields) (k l : String) (v : Json)

@[simp] theorem get?_nil : nil.get? k = none := rfl

theorem get?_set : (fs.set k v).get? l = if k = l then some v else fs.get? l := by
  fun_induction set fs k v with
  | case1 => simp [get?]
  | case2 w fs => simp only [get?]; split <;> rfl
  | case3 l' w fs hne ih =>
    simp only [get?, ih]
    split
    · rename_i h; subst h; simp [Ne.symm hne]
    · rfl

theorem get?_erase : (fs.erase k).get? l = if k = l then none else fs.get? l := by
  fun_induction erase fs k with
  | case1 => simp
  | case2 w fs ih =>
    rw [ih]
    simp only [get?]
    split <;> rfl
  | case3 l' w fs hne ih =>
    simp only [get?, ih]
    split
    · rename_i h; subst h; simp [Ne.symm hne]
    · rfl

@[simp] theorem get?_write (o : Option Json) : (fs.write k o).get? l = if k = l then o else fs.get? l := by
  cases o with
  | none => exact get?_erase fs k l
  | some v => exact get?_set fs k l v

theorem get?_writes (ws : List (String × Option Json)) : (fs.writes ws).get? l =
      ((ws.reverse.find? (·.1 = l)).map (·.2)).getD (fs.get? l) := by
  induction ws generalizing fs with
  | nil => rfl
  | cons w ws ih =>
    simp only [writes, List.foldl_cons] at ih ⊢
    rw [ih, List.reverse_cons, List.find?_append]
    cases ws.reverse.find? (·.1 = l) with
    | some w' => simp
    | none => by_cases h : w.1 = l <;> simp [h]

theorem writes_append (ws ws' : List (String × Option Json)) : fs.writes (ws ++ ws') = (fs.writes ws).writes ws' := by
  simp [writes]

theorem get?_without (ks : List String) : (fs.without ks).get? l = if l ∈ ks then none else fs.get? l := by
  induction ks generalizing fs with
  | nil => rfl
  | cons k ks ih =>
    simp only [without, List.foldl_cons] at ih ⊢
    rw [ih, get?_erase]
    by_cases h : l ∈ ks
    · simp [h]
    · by_cases h' : k = l
      · simp [h']
      · simp [h, h', Ne.symm h']

end Fields

namespace Json

def get? : Json → String → Option Json
  | .obj fs, k => fs.get? k
  | _, _ => none

def asStr? : Json → Option String
  | .str s => some s
  | _ => none

def asNum? : Json → Option ℚ
  | .num q => some q
  | _ => none

end Json

end A2Wave
