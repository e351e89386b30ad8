import Mathlib
import A2Wave.Lib.JsonText

/-! PostgreSQL's `jsonb`: an object keeps its keys by length and then by bytes, and its text has a blank after
every colon and comma. -/

namespace A2Wave.JsonText

def jsonbKeyLe (k l : String) : Bool :=
  k.utf8ByteSize < l.utf8ByteSize ||
    (k.utf8ByteSize = l.utf8ByteSize && decide (k.toList.map Char.toNat ≤ l.toList.map Char.toNat))

/-- `xs.join(', ')` and the closing bracket. -/
def joinSpaced (close : Char) : List Text → Text
  | [] => [close]
  | x :: xs => joinClose close (x :: xs.map fun y => ' ' :: y)

def jsonbFieldText (p : String × Text) : Text := quote p.1 ++ ':' :: ' ' :: p.2

mutual

/-- `cast(value as text)` of a `jsonb` value. -/
def jsonbText (numeric : ℚ → String) : Json → Text
  | .null => "null".toList
  | .bool true => "true".toList
  | .bool false => "false".toList
  | .num q => (numeric q).toList
  | .str s => quote s
  | .arr xs => '[' :: joinSpaced ']' (jsonbElemTexts numeric xs)
  | .obj fs => openBrace :: joinSpaced closeBrace (jsonbFieldTexts numeric fs)

def jsonbElemTexts (numeric : ℚ → String) : Elems → List Text
  | .nil => []
  | .cons x xs => jsonbText numeric x :: jsonbElemTexts numeric xs

def jsonbFieldTexts (numeric : ℚ → String) : Fields → List Text
  | .nil => []
  | .cons k v fs => jsonbFieldText (k, jsonbText numeric v) :: jsonbFieldTexts numeric fs

end

def insertKey (k : String) (v : Json) : Fields → Fields
  | .nil => .cons k v .nil
  | .cons l w fs => if jsonbKeyLe k l then .cons k v (.cons l w fs) else .cons l w (insertKey k v fs)

mutual

def jsonb : Json → Json
  | .arr xs => .arr (jsonbElems xs)
  | .obj fs => .obj (jsonbFields fs)
  | v => v

def jsonbElems : Elems → Elems
  | .nil => .nil
  | .cons x xs => .cons (jsonb x) (jsonbElems xs)

def jsonbFields : Fields → Fields
  | .nil => .nil
  | .cons k v fs => insertKey k (jsonb v) (jsonbFields fs)

end

def nulFree (s : String) : Bool := !s.toList.contains (Char.ofNat 0)

mutual

/-- The input of a `jsonb` value fails on an escaped zero character. -/
def jsonbAccepts : Json → Bool
  | .str s => nulFree s
  | .arr xs => jsonbAcceptsElems xs
  | .obj fs => jsonbAcceptsFields fs
  | _ => true

def jsonbAcceptsElems : Elems → Bool
  | .nil => true
  | .cons x xs => jsonbAccepts x && jsonbAcceptsElems xs

def jsonbAcceptsFields : Fields → Bool
  | .nil => true
  | .cons k v fs => nulFree k && jsonbAccepts v && jsonbAcceptsFields fs

end

section Normal

variable (k l : String) (v : Json) (fs : Fields)

theorem jsonbKeyLe_refl : jsonbKeyLe k k = true := by
  simp [jsonbKeyLe]

theorem get?_insertKey : (insertKey k v fs).get? l = if k = l then some v else fs.get? l := by
  fun_induction insertKey k v fs with
  | case1 => simp [Fields.get?]
  | case2 l' w fs hle => simp only [Fields.get?]
  | case3 l' w fs hle ih =>
    simp only [Fields.get?, ih]
    split
    · rename_i heq
      subst heq
      rw [if_neg]
      rintro rfl
      exact hle (jsonbKeyLe_refl k)
    · rfl

theorem get?_jsonbFields : (jsonbFields fs).get? l = (fs.get? l).map jsonb := by
  fun_induction Fields.get? fs l with
  | case1 => rfl
  | case2 v fs => simp [jsonbFields, get?_insertKey]
  | case3 k v fs hne ih => simp [jsonbFields, get?_insertKey, hne, ih]

end Normal

section Text

variable {number numeric : ℚ → String}

theorem stringify_no_blank (hnumber : ∀ q, (number q).toList.head? ≠ some ' ') (v : Json) {c : Char} (hc : c ≠ ' ')
    (x : Text) : (stringify number v ++ c :: x).head? ≠ some ' ' := by
  cases v with
  | num q =>
    cases htext : (number q).toList with
    | nil => simpa [stringify, htext] using hc
    | cons d ds =>
      have hd := hnumber q
      rw [htext] at hd
      simpa [stringify, htext] using hd
  | null => simp [stringify]
  | bool b => cases b <;> simp [stringify]
  | str s => simp [stringify, quote, dquote]
  | arr xs => simp [stringify, arrayText]
  | obj fs => simp [stringify, openBrace]

theorem joinClose_cons (close : Char) (x : Text) (xs : List Text) :
    ∃ c rest, (c = ',' ∨ c = close) ∧ joinClose close (x :: xs) = x ++ c :: rest := by
  cases xs with
  | nil => exact ⟨close, [], .inr rfl, rfl⟩
  | cons y ys => exact ⟨',', joinClose close (y :: ys), .inl rfl, rfl⟩

theorem jsonbText_eq_stringify_iff (hnumber : ∀ q, (number q).toList.head? ≠ some ' ') (fs gs : Fields) :
    jsonbText numeric (.obj fs) = stringify number (.obj gs) ↔ fs = .nil ∧ gs = .nil := by
  constructor
  · intro heq
    have hbody := (List.cons.inj heq).2
    cases fs with
    | nil =>
      cases gs with
      | nil => exact ⟨rfl, rfl⟩
      | cons k v gs =>
        obtain ⟨c, rest, -, htext⟩ := joinClose_cons closeBrace (fieldText (k, stringify number v)) (fieldStrings number gs)
        rw [jsonbFieldTexts, joinSpaced, fieldStrings, htext, fieldText, quote] at hbody
        have hhead := (List.cons.inj hbody).1
        exact absurd hhead (by decide)
    | cons k v fs =>
      rw [jsonbFieldTexts, joinSpaced] at hbody
      obtain ⟨c, rest, -, htext⟩ := joinClose_cons closeBrace (jsonbFieldText (k, jsonbText numeric v))
        ((jsonbFieldTexts numeric fs).map fun y => ' ' :: y)
      rw [htext, jsonbFieldText, quote] at hbody
      cases gs with
      | nil =>
        have hhead := (List.cons.inj hbody).1
        exact absurd hhead (by decide)
      | cons l w gs =>
        obtain ⟨d, rest', hd, htext'⟩ := joinClose_cons closeBrace (fieldText (l, stringify number w))
          (fieldStrings number gs)
        rw [fieldStrings, htext', fieldText, quote] at hbody
        have hkeys : k.toList.flatMap escape ++ dquote :: (':' :: ' ' :: (jsonbText numeric v ++ c :: rest)) =
            l.toList.flatMap escape ++ dquote :: (':' :: (stringify number w ++ d :: rest')) := by
          simpa using (List.cons.inj hbody).2
        obtain ⟨-, hvalue⟩ := flatMap_escape_inj hkeys
        have hblank := congrArg List.head? (List.cons.inj hvalue).2
        refine absurd hblank.symm (stringify_no_blank hnumber w ?_ _)
        rcases hd with rfl | rfl <;> decide
  · rintro ⟨rfl, rfl⟩
    rfl

end Text

end A2Wave.JsonText
