import Mathlib
import A2Wave.Lib.Json

/-! JSON text in which the keys of every object are sorted.  Text is a list of characters.
`Delimited` is the form in which injectivity of such text is proved: a text that can go on
as the other one can is the other one. -/

namespace A2Wave.JsonText

abbrev Text := List Char

def dquote : Char := Char.ofNat 0x22
def backslash : Char := Char.ofNat 0x5c
def openBrace : Char := Char.ofNat 0x7b
def closeBrace : Char := Char.ofNat 0x7d

def hexDigit (n : Nat) : Char := if n < 10 then Char.ofNat (0x30 + n) else Char.ofNat (0x57 + n)

def hexValue (c : Char) : Nat := if c.toNat < 0x3a then c.toNat - 0x30 else c.toNat - 0x57

/-- One character inside the quotes of `JSON.stringify`. -/
def escape (c : Char) : Text :=
  if c = dquote then [backslash, dquote]
  else if c = backslash then [backslash, backslash]
  else if c.toNat = 0x08 then [backslash, 'b']
  else if c.toNat = 0x0c then [backslash, 'f']
  else if c.toNat = 0x0a then [backslash, 'n']
  else if c.toNat = 0x0d then [backslash, 'r']
  else if c.toNat = 0x09 then [backslash, 't']
  else if c.toNat < 0x20 then
    [backslash, 'u', '0', '0', hexDigit (c.toNat / 16), hexDigit (c.toNat % 16)]
  else [c]

def quote (s : String) : Text := dquote :: (s.toList.flatMap escape ++ [dquote])

/-- The order of `Array.prototype.sort` on strings: by UTF-16 code units. -/
def utf16 (c : Char) : List Nat :=
  if c.toNat < 0x10000 then [c.toNat]
  else [0xd800 + (c.toNat - 0x10000) / 0x400, 0xdc00 + (c.toNat - 0x10000) % 0x400]

def keyLe (k l : String) : Bool := decide (k.toList.flatMap utf16 ≤ l.toList.flatMap utf16)

def insertField (p : String × Text) : List (String × Text) → List (String × Text)
  | [] => [p]
  | q :: qs => if keyLe p.1 q.1 then p :: q :: qs else q :: insertField p qs

def sortFields : List (String × Text) → List (String × Text)
  | [] => []
  | p :: ps => insertField p (sortFields ps)

/-- `xs.join(',')` and the closing bracket. -/
def joinClose (close : Char) : List Text → Text
  | [] => [close]
  | [x] => x ++ [close]
  | x :: y :: xs => x ++ ',' :: joinClose close (y :: xs)

def fieldText (p : String × Text) : Text := quote p.1 ++ ':' :: p.2

def objectText (fs : List (String × Text)) : Text :=
  openBrace :: joinClose closeBrace ((sortFields fs).map fieldText)

def arrayText (xs : List Text) : Text := '[' :: joinClose ']' xs

mutual

def stableStringify (number : ℚ → String) : Json → Text
  | .null => "null".toList
  | .bool true => "true".toList
  | .bool false => "false".toList
  | .num q => (number q).toList
  | .str s => quote s
  | .arr xs => arrayText (elemTexts number xs)
  | .obj fs => objectText (fieldTexts number fs)

def elemTexts (number : ℚ → String) : Elems → List Text
  | .nil => []
  | .cons x xs => stableStringify number x :: elemTexts number xs

def fieldTexts (number : ℚ → String) : Fields → List (String × Text)
  | .nil => []
  | .cons k v fs => (k, stableStringify number v) :: fieldTexts number fs

end

mutual

/-- `JSON.stringify` without indentation: the fields stay in their order. -/
def stringify (number : ℚ → String) : Json → Text
  | .null => "null".toList
  | .bool true => "true".toList
  | .bool false => "false".toList
  | .num q => (number q).toList
  | .str s => quote s
  | .arr xs => arrayText (elemStrings number xs)
  | .obj fs => openBrace :: joinClose closeBrace (fieldStrings number fs)

def elemStrings (number : ℚ → String) : Elems → List Text
  | .nil => []
  | .cons x xs => stringify number x :: elemStrings number xs

def fieldStrings (number : ℚ → String) : Fields → List Text
  | .nil => []
  | .cons k v fs => fieldText (k, stringify number v) :: fieldStrings number fs

end

theorem elemTexts_ofList (number : ℚ → String) (xs : List Json) :
    elemTexts number (.ofList xs) = xs.map (stableStringify number) := by
  induction xs with
  | nil => rfl
  | cons x xs ih => simp [Elems.ofList, elemTexts, ih]

theorem fieldTexts_ofList (number : ℚ → String) (fs : List (String × Json)) :
    fieldTexts number (.ofList fs) = fs.map fun p => (p.1, stableStringify number p.2) := by
  induction fs with
  | nil => rfl
  | cons p fs ih => simp [Fields.ofList, fieldTexts, ih]

section Escape

def unescape : Text → Option (Char × Text)
  | [] => none
  | c :: cs =>
    if c = dquote then none
    else if c = backslash then
      match cs with
      | [] => none
      | 'b' :: rest => some (Char.ofNat 0x08, rest)
      | 'f' :: rest => some (Char.ofNat 0x0c, rest)
      | 'n' :: rest => some (Char.ofNat 0x0a, rest)
      | 'r' :: rest => some (Char.ofNat 0x0d, rest)
      | 't' :: rest => some (Char.ofNat 0x09, rest)
      | 'u' :: _ :: _ :: h :: l :: rest => some (Char.ofNat (16 * hexValue h + hexValue l), rest)
      | d :: rest => some (d, rest)
    else some (c, cs)

theorem eq_ofNat_of_toNat {c : Char} {n : Nat} (h : c.toNat = n) : c = Char.ofNat n := by
  rw [← h, Char.ofNat_toNat]

theorem unescape_escape (c : Char) (x : Text) : unescape (escape c ++ x) = some (c, x) := by
  unfold escape
  split_ifs with hq hb h8 hc ha hd h9 hctl
  · subst hq; rfl
  · subst hb; rfl
  · rw [eq_ofNat_of_toNat h8]; rfl
  · rw [eq_ofNat_of_toNat hc]; rfl
  · rw [eq_ofNat_of_toNat ha]; rfl
  · rw [eq_ofNat_of_toNat hd]; rfl
  · rw [eq_ofNat_of_toNat h9]; rfl
  · obtain ⟨n, hn⟩ : ∃ n, c.toNat = n := ⟨_, rfl⟩
    rw [hn] at hctl ⊢
    rw [eq_ofNat_of_toNat hn]
    interval_cases n <;> rfl
  · simp [unescape, hq, hb]

theorem flatMap_escape_inj {s t : List Char} {x y : Text}
    (h : s.flatMap escape ++ dquote :: x = t.flatMap escape ++ dquote :: y) : s = t ∧ x = y := by
  have hstop : ∀ z, unescape (dquote :: z) = none := fun z => by simp [unescape]
  induction s generalizing t with
  | nil =>
    cases t with
    | nil => simpa using h
    | cons d t =>
      have hd := congrArg unescape h
      rw [List.flatMap_nil, List.nil_append, hstop, List.flatMap_cons, List.append_assoc, unescape_escape] at hd
      cases hd
  | cons c s ih =>
    cases t with
    | nil =>
      have hc := congrArg unescape h
      rw [List.flatMap_nil, List.nil_append, hstop, List.flatMap_cons, List.append_assoc, unescape_escape] at hc
      cases hc
    | cons d t =>
      have hcd := congrArg unescape h
      rw [List.flatMap_cons, List.flatMap_cons, List.append_assoc, List.append_assoc,
        unescape_escape, unescape_escape, Option.some.injEq, Prod.mk.injEq] at hcd
      obtain ⟨rfl, htail⟩ := hcd
      obtain ⟨rfl, rfl⟩ := ih htail
      exact ⟨rfl, rfl⟩

end Escape

def Delimited (v w : Text) : Prop := ∀ x y, v ++ x = w ++ y → v = w

namespace Delimited

theorem rfl (v : Text) : Delimited v v := fun _ _ _ => Eq.refl v

theorem append {v w v' w' : Text} (h : Delimited v w) (h' : Delimited v' w') : Delimited (v ++ v') (w ++ w') := by
  intro x y hxy
  rw [List.append_assoc, List.append_assoc] at hxy
  have hvw := h _ _ hxy
  subst hvw
  rw [h' _ _ (List.append_cancel_left hxy)]

theorem cons {v w : Text} (c : Char) (h : Delimited v w) : Delimited (c :: v) (c :: w) :=
  append (rfl [c]) h

theorem quote (s t : String) : Delimited (quote s) (quote t) := by
  intro x y hxy
  have hbody : s.toList.flatMap escape ++ dquote :: x = t.toList.flatMap escape ++ dquote :: y := by
    simpa [JsonText.quote] using hxy
  rw [JsonText.quote, JsonText.quote, (flatMap_escape_inj hbody).1]

theorem joinClose (close : Char) {xs ys : List Text} (h : List.Forall₂ Delimited xs ys) :
    Delimited (joinClose close xs) (joinClose close ys) := by
  induction h with
  | nil => exact rfl _
  | @cons x y xs ys hxy hrest ih =>
    cases hrest with
    | nil => exact hxy.append (rfl _)
    | cons hxy' hrest' => exact hxy.append (ih.cons ',')

end Delimited

theorem quote_inj {s t : String} (h : quote s = quote t) : s = t := by
  have hbody : s.toList.flatMap escape ++ dquote :: [] = t.toList.flatMap escape ++ dquote :: [] := by
    simpa [quote] using h
  exact String.toList_inj.mp (flatMap_escape_inj hbody).1

variable {xs ys : List Text}

theorem joinClose_inj (close : Char) (h : List.Forall₂ Delimited xs ys)
    (heq : joinClose close xs = joinClose close ys) : xs = ys := by
  induction h with
  | nil => rfl
  | @cons x y xs ys hxy hrest ih =>
    cases hrest with
    | nil =>
      have hhead : x = y := hxy [close] [close] heq
      rw [hhead]
    | cons hxy' hrest' =>
      have hhead : x = y := hxy _ _ heq
      subst hhead
      rw [ih (List.cons.inj (List.append_cancel_left heq)).2]

def FieldPair (p q : String × Text) : Prop := p.1 = q.1 ∧ Delimited p.2 q.2

variable {p q : String × Text}

theorem FieldPair.fieldText (h : FieldPair p q) : Delimited (fieldText p) (fieldText q) := by
  rw [JsonText.fieldText, JsonText.fieldText, h.1]
  exact (Delimited.rfl _).append (h.2.cons ':')

variable {ps qs : List (String × Text)}

theorem forall₂_insertField
    (h : FieldPair p q) (hs : List.Forall₂ FieldPair ps qs) :
    List.Forall₂ FieldPair (insertField p ps) (insertField q qs) := by
  induction hs with
  | nil => exact .cons h .nil
  | @cons p' q' ps qs h' hs ih =>
    simp only [insertField, h.1, h'.1]
    split
    · exact .cons h (.cons h' hs)
    · exact .cons h' ih

theorem insertField_inj
    (h : FieldPair p q) (hs : List.Forall₂ FieldPair ps qs)
    (heq : insertField p ps = insertField q qs) : p = q ∧ ps = qs := by
  induction hs with
  | nil => exact ⟨(List.cons.inj heq).1, rfl⟩
  | @cons p' q' ps qs h' hs ih =>
    simp only [insertField, h.1, h'.1] at heq
    split at heq
    · exact List.cons.inj heq
    · obtain ⟨hhead, htail⟩ := List.cons.inj heq
      obtain ⟨hpq, hrest⟩ := ih htail
      exact ⟨hpq, by rw [hhead, hrest]⟩

theorem forall₂_sortFields (hs : List.Forall₂ FieldPair ps qs) :
    List.Forall₂ FieldPair (sortFields ps) (sortFields qs) := by
  induction hs with
  | nil => exact .nil
  | cons h _ ih => exact forall₂_insertField h ih

theorem sortFields_inj (hs : List.Forall₂ FieldPair ps qs)
    (heq : sortFields ps = sortFields qs) : ps = qs := by
  induction hs with
  | nil => rfl
  | cons h hs ih =>
    obtain ⟨hpq, hrest⟩ := insertField_inj h (forall₂_sortFields hs) heq
    rw [hpq, ih hrest]

theorem forall₂_fieldText (hs : List.Forall₂ FieldPair ps qs) :
    List.Forall₂ Delimited (ps.map fieldText) (qs.map fieldText) := by
  induction hs with
  | nil => exact .nil
  | cons h _ ih => exact .cons h.fieldText ih

theorem map_fieldText_inj (hs : List.Forall₂ FieldPair ps qs)
    (heq : ps.map fieldText = qs.map fieldText) : ps = qs := by
  induction hs with
  | nil => rfl
  | @cons p q ps qs h _ ih =>
    obtain ⟨hhead, htail⟩ := List.cons.inj heq
    have hvalue : p.2 = q.2 := by
      simp only [fieldText, h.1] at hhead
      exact (List.cons.inj (List.append_cancel_left hhead)).2
    rw [Prod.ext h.1 hvalue, ih htail]

theorem Delimited.objectText (hs : List.Forall₂ FieldPair ps qs) : Delimited (objectText ps) (objectText qs) :=
  (Delimited.joinClose _ (forall₂_fieldText (forall₂_sortFields hs))).cons _

theorem objectText_inj (hs : List.Forall₂ FieldPair ps qs)
    (heq : objectText ps = objectText qs) : ps = qs := by
  have hsorted := forall₂_sortFields hs
  have htexts := joinClose_inj _ (forall₂_fieldText hsorted) (List.cons.inj heq).2
  exact sortFields_inj hs (map_fieldText_inj hsorted htexts)

theorem Delimited.arrayText (h : List.Forall₂ Delimited xs ys) : Delimited (arrayText xs) (arrayText ys) :=
  (Delimited.joinClose _ h).cons _

theorem arrayText_inj (h : List.Forall₂ Delimited xs ys)
    (heq : arrayText xs = arrayText ys) : xs = ys :=
  joinClose_inj _ h (List.cons.inj heq).2

end A2Wave.JsonText
