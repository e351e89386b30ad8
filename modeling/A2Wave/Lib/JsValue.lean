import Mathlib
import A2Wave.Lib.Utf16Text

/-! What a JavaScript program does with a value that it read from a JSON text, and where that
throws.  `none` is `undefined`.  The property names that are read here by name are none that
strings, numbers or arrays have. -/

namespace A2Wave.JsValue

open Utf16 (Text Value ascii)

section Values

structure Numbers (N : Type) extends Utf16.NumberFormat N where
  zero : N
  one : N
  add : N → N → N
  sub : N → N → N
  max : N → N → N
  isZero : N → Bool
  same : N → N → Bool
  exceeds : N → Nat → Bool
  /-- `Number(text)`; `none` is the value that is not a number. -/
  ofText : Text → Option N

abbrev Val (N : Type) := Option (Value N)

inductive JsError
  | typeError
  | outOfFuel
  deriving DecidableEq

variable {N : Type}

def elements : Utf16.Elems N → List (Value N)
  | .nil => []
  | .cons v xs => v :: elements xs

def names : Utf16.Fields N → List Text
  | .nil => []
  | .cons k _ fs => k :: names fs

def literal (s : String) : Val N := some (.str (ascii s))

def emptyObject : Val N := some (.obj .nil)

/-- `v == null`. -/
def nullish : Val N → Bool
  | none => true
  | some .null => true
  | _ => false

/-- `v?.k`. -/
def getProp (v : Val N) (k : String) : Val N :=
  match v with
  | some (.obj fs) => fs.get? (ascii k)
  | _ => none

def prop (v : Val N) (k : String) : Except JsError (Val N) :=
  if nullish v then .error .typeError else .ok (getProp v k)

/-- `typeof v === 'string'`. -/
def text? : Val N → Option Text
  | some (.str s) => some s
  | _ => none

/-- `typeof v === 'string' && v`. -/
def nonEmptyText? (v : Val N) : Option Text := (text? v).filter (· ≠ [])

/-- `typeof v === 'number'`. -/
def number? : Val N → Option N
  | some (.num n) => some n
  | _ => none

/-- `v === s`. -/
def isText (v : Val N) (s : String) : Bool := text? v == some (ascii s)

def isTrue : Val N → Bool
  | some (.bool b) => b
  | _ => false

/-- `v && typeof v === 'object'`. -/
def isObject : Val N → Bool
  | some (.arr _) => true
  | some (.obj _) => true
  | _ => false

/-- `v && typeof v === 'object' && !Array.isArray(v)`. -/
def asObject : Val N → Option (Utf16.Fields N)
  | some (.obj fs) => some fs
  | _ => none

/-- `Array.isArray(v)`. -/
def asArray : Val N → Option (List (Value N))
  | some (.arr xs) => some (elements xs)
  | _ => none

/-- `k in v`. -/
def hasProp (v : Val N) (k : String) : Except JsError Bool :=
  if isObject v then .ok (getProp v k).isSome else .error .typeError

/-- `v ?? w`. -/
def orElse (v w : Val N) : Val N := if nullish v then w else v

/-- `v.trim()`. -/
def callTrim : Val N → Except JsError Text
  | some (.str s) => .ok (Utf16.trim s)
  | _ => .error .typeError

variable (js : Numbers N)

def isTruthy : Val N → Bool
  | none => false
  | some .null => false
  | some (.bool b) => b
  | some (.num n) => !js.isZero n
  | some (.str s) => s ≠ []
  | some (.arr _) => true
  | some (.obj _) => true

/-- `v || w`. -/
def orFalsy (v w : Val N) : Val N := if isTruthy js v then v else w

variable {js} {v w : Val N}

theorem prop_eq (h : nullish v = false) (k : String) : prop v k = .ok (getProp v k) := by
  rw [prop, h]
  rfl

@[simp] theorem isOk_prop (k : String) : (prop v k).isOk = !nullish v := by
  rw [prop]
  cases nullish v <;> rfl

theorem nullish_of_isTruthy (h : isTruthy js v = true) : nullish v = false := by
  rcases v with _ | (_ | _ | _ | _ | _ | _) <;> first | rfl | cases h

theorem nullish_of_isObject (h : isObject v = true) : nullish v = false := by
  rcases v with _ | (_ | _ | _ | _ | _ | _) <;> first | rfl | cases h

theorem nullish_orFalsy (h : nullish w = false) : nullish (orFalsy js v w) = false := by
  rw [orFalsy]
  split
  · rename_i hv
    exact nullish_of_isTruthy hv
  · exact h

theorem nullish_orElse (h : nullish w = false) : nullish (orElse v w) = false := by
  rw [orElse]
  split
  · exact h
  · rename_i hv
    exact Bool.eq_false_of_not_eq_true hv

theorem isText_eq_false {a b : String} (h : isText v a = true) (hne : ascii a ≠ ascii b) : isText v b = false := by
  have ha : text? v = some (ascii a) := eq_of_beq h
  rw [isText, ha]
  exact beq_false_of_ne fun heq => hne (Option.some.inj heq)

@[simp] theorem isOk_hasProp (k : String) : (hasProp v k).isOk = isObject v := by
  rw [hasProp]
  cases isObject v <;> rfl

@[simp] theorem isOk_callTrim : (callTrim v).isOk = (text? v).isSome := by
  rcases v with _ | (_ | _ | _ | _ | _ | _) <;> rfl

end Values

section Text

variable {N : Type}

mutual

/-- A value that `String` accepts: no member of it, however deep in arrays, is an object with
an own `toString`, for that is never a function. -/
def printable : Value N → Bool
  | .arr xs => printableElems xs
  | .obj fs => (fs.get? (ascii "toString")).isNone
  | _ => true

def printableElems : Utf16.Elems N → Bool
  | .nil => true
  | .cons v xs => printable v && printableElems xs

end

variable (js : Numbers N)

mutual

/-- `String(v)`. -/
def toText : Value N → Except JsError Text
  | .null => .ok Utf16.nullText
  | .bool true => .ok Utf16.trueText
  | .bool false => .ok Utf16.falseText
  | .num n => .ok (js.print n)
  | .str s => .ok s
  | .arr xs => do
    let texts ← elemTexts xs
    return [Utf16.comma].intercalate texts
  | .obj fs =>
    if (fs.get? (ascii "toString")).isSome then .error .typeError
    else .ok (ascii "[object Object]")

/-- The texts that `join` puts together, where `null` has none. -/
def elemTexts : Utf16.Elems N → Except JsError (List Text)
  | .nil => .ok []
  | .cons .null xs => do
    let texts ← elemTexts xs
    return [] :: texts
  | .cons v xs => do
    let text ← toText v
    let texts ← elemTexts xs
    return text :: texts

end

theorem isOk_bind_return {α β : Type} (x : Except JsError α) (f : α → β) :
    (x >>= fun a => pure (f a)).isOk = x.isOk := by
  cases x <;> rfl

theorem isOk_bind_and {α β γ : Type} (x : Except JsError α) (y : Except JsError β)
    (f : α → β → γ) :
    (x >>= fun a => y >>= fun b => pure (f a b)).isOk = (x.isOk && y.isOk) := by
  cases x <;> cases y <;> rfl

theorem isOk_map {α β : Type} (x : Except JsError α) (f : α → β) : (x.map f).isOk = x.isOk := by
  cases x <;> rfl

variable {js}

mutual

theorem isOk_toText (v : Value N) : (toText js v).isOk = printable v := by
  cases v with
  | null => rfl
  | bool b => cases b <;> rfl
  | num n => rfl
  | str s => rfl
  | arr xs =>
    rw [toText, isOk_bind_return, isOk_elemTexts xs, printable]
  | obj fs =>
    rw [toText, printable]
    cases fs.get? (ascii "toString") <;> rfl

theorem isOk_elemTexts (xs : Utf16.Elems N) : (elemTexts js xs).isOk = printableElems xs := by
  cases xs with
  | nil => rfl
  | cons v xs =>
    have ih := isOk_elemTexts xs
    have hv := isOk_toText v
    cases v with
    | null =>
      rw [elemTexts, isOk_bind_return, ih, printableElems, printable, Bool.true_and]
      all_goals nofun
    | bool b | num n | str s | arr ys | obj fs =>
      rw [elemTexts, isOk_bind_and, ih, hv, printableElems]
      nofun

end

end Text

section Index

variable {N : Type}

def indexText (i : Nat) : Text :=
  if i = 0 then [0x30] else (Nat.digits 10 i).reverse.map fun d => .ofNat (0x30 + d)

def arrayIndex? (k : Text) : Option Nat :=
  let n := k.foldl (fun n u => 10 * n + (u.toNat - 0x30)) 0
  if indexText n = k ∧ n < 4294967295 then some n else none

/-- `Object.keys`: the array indices in ascending order, then the other keys as they were
written. -/
def keys : Val N → List Text
  | some (.obj fs) =>
    (((names fs).filterMap arrayIndex?).insertionSort (· ≤ ·)).map indexText ++
      (names fs).filter fun k => (arrayIndex? k).isNone
  | some (.arr xs) => (List.range (elements xs).length).map indexText
  | _ => []

/-- `v[k]` for a key `k` of `Object.keys(v)`. -/
def entry : Val N → Text → Val N
  | some (.obj fs), k => fs.get? k
  | some (.arr xs), k => (arrayIndex? k).bind fun i => (elements xs)[i]?
  | _, _ => none

/-- `v[i]` for a number `i`. -/
def getIndex : Val N → Nat → Val N
  | some (.obj fs), i => fs.get? (indexText i)
  | some (.arr xs), i => (elements xs)[i]?
  | some (.str s), i => s[i]?.map fun u => .str [u]
  | _, _ => none

variable (js : Numbers N)

/-- `v.length === 0`. -/
def lengthIsZero : Val N → Bool
  | some (.obj fs) => (number? (fs.get? (ascii "length"))).any js.isZero
  | some (.arr xs) => (elements xs).isEmpty
  | some (.str s) => s.isEmpty
  | _ => false

/-- `i < v`. -/
def exceedsValue (i : Nat) : Val N → Except JsError Bool
  | none => .ok false
  | some .null => .ok false
  | some (.bool b) => .ok (b && i == 0)
  | some (.num n) => .ok (js.exceeds n i)
  | some v => do
    let text ← toText js v
    return (js.ofText text).any (js.exceeds · i)

/-- `i < v.length`. -/
def lengthExceeds (i : Nat) : Val N → Except JsError Bool
  | some (.obj fs) => exceedsValue js i (fs.get? (ascii "length"))
  | some (.arr xs) => .ok (i < (elements xs).length)
  | some (.str s) => .ok (i < s.length)
  | _ => .ok false

def lengthReadable : Val N → Bool
  | some (.obj fs) => (fs.get? (ascii "length")).all printable
  | _ => true

variable {js}

theorem isOk_lengthExceeds (i : Nat) (v : Val N) : (lengthExceeds js i v).isOk = lengthReadable v := by
  rcases v with _ | (_ | _ | _ | _ | _ | fs)
  · rfl
  · rfl
  · rfl
  · rfl
  · rfl
  · rfl
  · rw [lengthExceeds, lengthReadable]
    cases fs.get? (ascii "length") with
    | none => rfl
    | some v =>
      rw [Option.all_some]
      cases v with
      | null => rfl
      | bool b => rfl
      | num n => rfl
      | str s => rfl
      | arr xs | obj fs =>
        rw [exceedsValue, isOk_bind_return, isOk_toText]
        all_goals nofun

theorem digit_toNat {d : Nat} (h : d < 10) : (UInt16.ofNat (0x30 + d)).toNat - 0x30 = d := by
  rw [UInt16.toNat_ofNat']
  omega

theorem indexText_eq (i : Nat) : indexText i = ((if i = 0 then [0] else Nat.digits 10 i).reverse.map
      fun d => UInt16.ofNat (0x30 + d)) := by
  rw [indexText]
  split <;> rfl

theorem digits_lt {i d : Nat} (hd : d ∈ (if i = 0 then [0] else Nat.digits 10 i)) : d < 10 := by
  split at hd
  · rw [List.mem_singleton.mp hd]
    omega
  · exact Nat.digits_lt_base (by omega) hd

theorem ofDigits_indexText (i : Nat) : Nat.ofDigits 10 ((indexText i).reverse.map fun u => u.toNat - 0x30) = i := by
  have hmap : ((indexText i).reverse.map fun u => u.toNat - 0x30) = (if i = 0 then [0] else Nat.digits 10 i) := by
    rw [indexText_eq, ← List.map_reverse, List.reverse_reverse, List.map_map]
    calc
      _ = List.map id _ := List.map_congr_left fun d hd => digit_toNat (digits_lt hd)
      _ = _ := List.map_id _
  rw [hmap]
  split
  · rename_i h
    rw [h]
    rfl
  · exact Nat.ofDigits_digits 10 i

theorem indexText_injective : Function.Injective indexText := by
  intro i j hij
  rw [← ofDigits_indexText i, hij, ofDigits_indexText]

theorem mem_names {fs : Utf16.Fields N} {k : Text} (h : fs.get? k ≠ none) : k ∈ names fs := by
  fun_induction Utf16.Fields.get? k fs with
  | case1 => exact absurd rfl h
  | case2 v fs => exact List.mem_cons_self
  | case3 l v fs hne ih => exact List.mem_cons_of_mem _ (ih h)

theorem exists_index_none (fs : Utf16.Fields N) : ∃ i ≤ (names fs).length, fs.get? (indexText i) = none := by
  by_contra hall
  push Not at hall
  have hsub : (List.range ((names fs).length + 1)).map indexText ⊆ names fs := by
    intro k hk
    obtain ⟨i, hi, rfl⟩ := List.mem_map.mp hk
    exact mem_names (hall i (Nat.lt_succ_iff.mp (List.mem_range.mp hi)))
  have hnodup : ((List.range ((names fs).length + 1)).map indexText).Nodup :=
    List.nodup_range.map indexText_injective
  have hlen := (hnodup.subperm hsub).length_le
  rw [List.length_map, List.length_range] at hlen
  omega

def size : Val N → Nat
  | some (.obj fs) => (names fs).length
  | some (.arr xs) => (elements xs).length
  | some (.str s) => s.length
  | _ => 0

theorem exists_loop_end (v : Val N) :
    ∃ i ≤ size v, lengthExceeds js i v ≠ .ok true ∨ nullish (getIndex v i) = true := by
  rcases v with _ | (_ | _ | _ | s | xs | fs)
  · exact ⟨0, Nat.le_refl 0, .inl nofun⟩
  · exact ⟨0, Nat.le_refl 0, .inl nofun⟩
  · exact ⟨0, Nat.le_refl 0, .inl nofun⟩
  · exact ⟨0, Nat.le_refl 0, .inl nofun⟩
  · exact ⟨s.length, Nat.le_refl _, .inl (by simp [lengthExceeds])⟩
  · exact ⟨(elements xs).length, Nat.le_refl _, .inl (by simp [lengthExceeds])⟩
  · obtain ⟨i, hi, hnone⟩ := exists_index_none fs
    exact ⟨i, hi, .inr (by rw [getIndex, hnone]; rfl)⟩

end Index

section Whole

theorem isNumberUnit_digit {d : Nat} (h : d < 10) : Utf16.isNumberUnit (UInt16.ofNat (0x30 + d)) = true := by
  have hall : ∀ d : Fin 10, Utf16.isNumberUnit (UInt16.ofNat (0x30 + d)) = true := by decide
  exact hall ⟨d, h⟩

theorem isNumberUnit_indexText (i : Nat) : ∀ u ∈ indexText i, Utf16.isNumberUnit u = true := by
  intro u hu
  rw [indexText_eq, List.mem_map] at hu
  obtain ⟨d, hd, rfl⟩ := hu
  exact isNumberUnit_digit (digits_lt (List.mem_reverse.mp hd))

theorem indexText_ne_nil (i : Nat) : indexText i ≠ [] := by
  rw [indexText]
  split
  · exact List.cons_ne_nil _ _
  · rename_i h
    rw [Ne, List.map_eq_nil_iff, List.reverse_eq_nil_iff, Nat.digits_eq_nil_iff_eq_zero]
    exact h

def wholeNumber? (t : Text) : Option Nat :=
  let n := Nat.ofDigits 10 (t.reverse.map fun u => u.toNat - 0x30)
  if indexText n = t then some n else none

theorem wholeNumber?_indexText (i : Nat) : wholeNumber? (indexText i) = some i := by
  rw [wholeNumber?, ofDigits_indexText]
  exact if_pos rfl

def wholeNumbers : Numbers Nat where
  print := indexText
  read := wholeNumber?
  print_units := isNumberUnit_indexText
  print_ne_nil := indexText_ne_nil
  read_print := wholeNumber?_indexText
  zero := 0
  one := 1
  add := (· + ·)
  sub := (· - ·)
  max := Nat.max
  isZero := (· == 0)
  same := (· == ·)
  exceeds n i := decide (i < n)
  ofText := wholeNumber?

end Whole

end A2Wave.JsValue
