import Mathlib.Data.List.Basic
import Mathlib.Tactic.SplitIfs

/-! JSON over strings of UTF-16 code units, in which a surrogate may stand alone. -/

namespace A2Wave.Utf16

abbrev Text := List UInt16

def isHigh (u : UInt16) : Bool := decide (0xd800 ≤ u) && decide (u < 0xdc00)

def isLow (u : UInt16) : Bool := decide (0xdc00 ≤ u) && decide (u < 0xe000)

/-- A surrogate that is no half of a pair, between the units `prev` and `next`. -/
def unpaired (prev : Option UInt16) (u : UInt16) (next : Option UInt16) : Bool :=
  (isHigh u && !next.any isLow) || (isLow u && !prev.any isHigh)

theorem not_isLow_of_isHigh {u : UInt16} (h : isHigh u = true) : isLow u = false := by
  simp only [isHigh, Bool.and_eq_true, decide_eq_true_eq] at h
  have hlt : u.toNat < 0xdc00 := UInt16.lt_iff_toNat_lt.mp h.2
  have hle : ¬(0xdc00 : UInt16) ≤ u := fun hu => Nat.not_le.mpr hlt (UInt16.le_iff_toNat_le.mp hu)
  simp [isLow, hle]

section Scan

variable (bad : Option UInt16 → UInt16 → Option UInt16 → Bool)

/-- The units of a text of which `bad` does not hold, read between their two neighbours. -/
def removeFrom (prev : Option UInt16) : Text → Text
  | [] => []
  | u :: s => if bad prev u s.head? then removeFrom (some u) s else u :: removeFrom (some u) s

def NoneFrom (prev : Option UInt16) : Text → Prop
  | [] => True
  | u :: s => bad prev u s.head? = false ∧ NoneFrom (some u) s

instance decidableNoneFrom : ∀ (prev : Option UInt16) (s : Text), Decidable (NoneFrom bad prev s)
  | _, [] => isTrue trivial
  | prev, u :: s => @instDecidableAnd (bad prev u s.head? = false) (NoneFrom bad (some u) s)
      inferInstance (decidableNoneFrom (some u) s)

variable {bad} {prev : Option UInt16}

theorem removeFrom_eq_self {s : Text} (h : NoneFrom bad prev s) : removeFrom bad prev s = s := by
  induction s generalizing prev with
  | nil => rfl
  | cons u s ih =>
    rw [removeFrom, h.1, if_neg Bool.false_ne_true, ih h.2]

end Scan

section Json

mutual

inductive Value (N : Type)
  | null
  | bool (b : Bool)
  | num (n : N)
  | str (s : Text)
  | arr (xs : Elems N)
  | obj (fs : Fields N)

inductive Elems (N : Type)
  | nil
  | cons (v : Value N) (xs : Elems N)

inductive Fields (N : Type)
  | nil
  | cons (k : Text) (v : Value N) (fs : Fields N)

end

variable {N : Type}

def Fields.get? (k : Text) : Fields N → Option (Value N)
  | .nil => none
  | .cons l v fs => if l = k then some v else fs.get? k

def Fields.erase (k : Text) : Fields N → Fields N
  | .nil => .nil
  | .cons l v fs => if l = k then fs.erase k else .cons l v (fs.erase k)

mutual

def Value.Distinct : Value N → Prop
  | .null => True
  | .bool _ => True
  | .num _ => True
  | .str _ => True
  | .arr xs => xs.Distinct
  | .obj fs => fs.Distinct

def Elems.Distinct : Elems N → Prop
  | .nil => True
  | .cons v xs => v.Distinct ∧ xs.Distinct

def Fields.Distinct : Fields N → Prop
  | .nil => True
  | .cons k v fs => fs.get? k = none ∧ v.Distinct ∧ fs.Distinct

end

end Json

section Stringify

def quoteMark : UInt16 := 0x22
def backslash : UInt16 := 0x5c
def comma : UInt16 := 0x2c
def colon : UInt16 := 0x3a
def openBracket : UInt16 := 0x5b
def closeBracket : UInt16 := 0x5d
def openBrace : UInt16 := 0x7b
def closeBrace : UInt16 := 0x7d

def nullText : Text := [0x6e, 0x75, 0x6c, 0x6c]
def trueText : Text := [0x74, 0x72, 0x75, 0x65]
def falseText : Text := [0x66, 0x61, 0x6c, 0x73, 0x65]

def hexUnit (d : Nat) : UInt16 := if d < 10 then .ofNat (0x30 + d) else .ofNat (0x57 + d)

/-- The escape `\u` with four hexadecimal digits. -/
def unicodeEscape (u : UInt16) : Text :=
  [backslash, 0x75, hexUnit (u.toNat / 4096), hexUnit (u.toNat / 256 % 16),
    hexUnit (u.toNat / 16 % 16), hexUnit (u.toNat % 16)]

/-- One unit inside the quotes, `lone` when it is an unpaired surrogate. -/
def quoteUnit (lone : Bool) (u : UInt16) : Text :=
  if u = quoteMark then [backslash, quoteMark]
  else if u = backslash then [backslash, backslash]
  else if u = 0x08 then [backslash, 0x62]
  else if u = 0x09 then [backslash, 0x74]
  else if u = 0x0a then [backslash, 0x6e]
  else if u = 0x0c then [backslash, 0x66]
  else if u = 0x0d then [backslash, 0x72]
  else if u < 0x20 || lone then unicodeEscape u
  else [u]

def quoteFrom (prev : Option UInt16) : Text → Text
  | [] => [quoteMark]
  | u :: s => quoteUnit (unpaired prev u s.head?) u ++ quoteFrom (some u) s

def quote (s : Text) : Text := quoteMark :: quoteFrom none s

def isDigit (u : UInt16) : Bool := decide (0x30 ≤ u) && decide (u ≤ 0x39)

def isNumberUnit (u : UInt16) : Bool :=
  isDigit u || u == 0x2b || u == 0x2d || u == 0x2e || u == 0x45 || u == 0x65

structure NumberFormat (N : Type) where
  print : N → Text
  read : Text → Option N
  print_units (n : N) : ∀ u ∈ print n, isNumberUnit u = true
  print_ne_nil (n : N) : print n ≠ []
  read_print (n : N) : read (print n) = some n

variable {N : Type} (fmt : NumberFormat N)

mutual

/-- `JSON.stringify` without indentation. -/
def stringify : Value N → Text
  | .null => nullText
  | .bool true => trueText
  | .bool false => falseText
  | .num n => fmt.print n
  | .str s => quote s
  | .arr .nil => [openBracket, closeBracket]
  | .arr (.cons v xs) => openBracket :: (stringify v ++ stringifyElems xs)
  | .obj .nil => [openBrace, closeBrace]
  | .obj (.cons k v fs) => openBrace :: (quote k ++ colon :: (stringify v ++ stringifyFields fs))

def stringifyElems : Elems N → Text
  | .nil => [closeBracket]
  | .cons v xs => comma :: (stringify v ++ stringifyElems xs)

def stringifyFields : Fields N → Text
  | .nil => [closeBrace]
  | .cons k v fs => comma :: (quote k ++ colon :: (stringify v ++ stringifyFields fs))

end

end Stringify

section Parse

def isSpace (u : UInt16) : Bool := u == 0x20 || u == 0x09 || u == 0x0a || u == 0x0d

def skipSpace (s : Text) : Text := s.dropWhile isSpace

def hexValue (u : UInt16) : Option Nat :=
  if 0x30 ≤ u ∧ u ≤ 0x39 then some (u.toNat - 0x30)
  else if 0x41 ≤ u ∧ u ≤ 0x46 then some (u.toNat - 0x37)
  else if 0x61 ≤ u ∧ u ≤ 0x66 then some (u.toNat - 0x57)
  else none

def parseHex : Text → Option (UInt16 × Text)
  | a :: b :: c :: d :: s => do
    let a ← hexValue a
    let b ← hexValue b
    let c ← hexValue c
    let d ← hexValue d
    return (.ofNat (4096 * a + 256 * b + 16 * c + d), s)
  | _ => none

def parseEscape : Text → Option (UInt16 × Text)
  | [] => none
  | e :: s =>
    if e = quoteMark ∨ e = backslash ∨ e = 0x2f then some (e, s)
    else if e = 0x62 then some (0x08, s)
    else if e = 0x74 then some (0x09, s)
    else if e = 0x6e then some (0x0a, s)
    else if e = 0x66 then some (0x0c, s)
    else if e = 0x72 then some (0x0d, s)
    else if e = 0x75 then parseHex s
    else none

def parseUnit : Text → Option (UInt16 × Text)
  | [] => none
  | u :: s =>
    if u = quoteMark then none
    else if u = backslash then parseEscape s
    else if u < 0x20 then none
    else some (u, s)

def parseChars : Nat → Text → Option (Text × Text)
  | 0, _ => none
  | fuel + 1, s =>
    if s.head? = some quoteMark then some ([], s.tail)
    else do
      let (u, s) ← parseUnit s
      let (t, s) ← parseChars fuel s
      return (u :: t, s)

def parseString : Text → Option (Text × Text)
  | [] => none
  | u :: s => if u = quoteMark then parseChars (s.length + 1) s else none

variable {N : Type} (fmt : NumberFormat N)

def parseNumber (s : Text) : Option (Value N × Text) := do
  let n ← fmt.read (s.takeWhile isNumberUnit)
  return (.num n, s.dropWhile isNumberUnit)

def consField (k : Text) (v : Value N) (fs : Fields N) : Fields N :=
  match fs.get? k with
  | none => .cons k v fs
  | some w => .cons k w (fs.erase k)

def parseKey (s : Text) : Option (Text × Text) := do
  let (k, s) ← parseString (skipSpace s)
  match skipSpace s with
  | [] => none
  | c :: s => if c = colon then some (k, s) else none

mutual

def parseValue : Nat → Text → Option (Value N × Text)
  | 0, _ => none
  | fuel + 1, s =>
    match skipSpace s with
    | [] => none
    | u :: s =>
      if u = quoteMark then do
        let (t, s) ← parseString (u :: s)
        return (.str t, s)
      else if u = openBracket then
        if (skipSpace s).head? = some closeBracket then some (.arr .nil, (skipSpace s).tail)
        else do
          let (xs, s) ← parseElems fuel s
          return (.arr xs, s)
      else if u = openBrace then
        if (skipSpace s).head? = some closeBrace then some (.obj .nil, (skipSpace s).tail)
        else do
          let (fs, s) ← parseFields fuel s
          return (.obj fs, s)
      else if nullText.isPrefixOf (u :: s) then some (.null, (u :: s).drop nullText.length)
      else if trueText.isPrefixOf (u :: s) then some (.bool true, (u :: s).drop trueText.length)
      else if falseText.isPrefixOf (u :: s) then some (.bool false, (u :: s).drop falseText.length)
      else parseNumber fmt (u :: s)

def parseElems : Nat → Text → Option (Elems N × Text)
  | 0, _ => none
  | fuel + 1, s => do
    let (v, s) ← parseValue fuel s
    match skipSpace s with
    | [] => none
    | u :: s =>
      if u = closeBracket then some (.cons v .nil, s)
      else if u = comma then do
        let (xs, s) ← parseElems fuel s
        return (.cons v xs, s)
      else none

def parseFields : Nat → Text → Option (Fields N × Text)
  | 0, _ => none
  | fuel + 1, s => do
    let (k, s) ← parseKey s
    let (v, s) ← parseValue fuel s
    match skipSpace s with
    | [] => none
    | u :: s =>
      if u = closeBrace then some (.cons k v .nil, s)
      else if u = comma then do
        let (fs, s) ← parseFields fuel s
        return (consField k v fs, s)
      else none

end

def parse (s : Text) : Option (Value N) := do
  let (v, rest) ← parseValue fmt (s.length + 1) s
  if skipSpace rest = [] then return v else none

end Parse

section Strings

variable {u : UInt16} {lone : Bool} {r : Text}

theorem hexValue_hexUnit {d : Nat} (h : d < 16) : hexValue (hexUnit d) = some d := by
  have hall : ∀ e : Fin 16, hexValue (hexUnit e) = some (e : Nat) := by decide
  exact hall ⟨d, h⟩

theorem parseEscape_unicode : parseEscape ((unicodeEscape u).tail ++ r) = some (u, r) := by
  have hu : u.toNat < 65536 := UInt16.toNat_lt u
  have h3 := hexValue_hexUnit (show u.toNat / 4096 < 16 by omega)
  have h2 := hexValue_hexUnit (show u.toNat / 256 % 16 < 16 by omega)
  have h1 := hexValue_hexUnit (show u.toNat / 16 % 16 < 16 by omega)
  have h0 := hexValue_hexUnit (show u.toNat % 16 < 16 by omega)
  have hsum : 4096 * (u.toNat / 4096) + 256 * (u.toNat / 256 % 16) + 16 * (u.toNat / 16 % 16)
      + u.toNat % 16 = u.toNat := by omega
  simp only [unicodeEscape, List.tail_cons, List.cons_append, List.nil_append]
  rw [parseEscape, if_neg (by decide), if_neg (by decide), if_neg (by decide), if_neg (by decide),
    if_neg (by decide), if_neg (by decide), if_pos rfl]
  simp only [parseHex, h0, h1, h2, h3, Option.bind_eq_bind, Option.bind_some, hsum, UInt16.ofNat_toNat]
  rfl

theorem parseUnit_quoteUnit : parseUnit (quoteUnit lone u ++ r) = some (u, r) := by
  unfold quoteUnit
  split_ifs with hq hb h8 h9 ha hc hd hlone
  · subst hq; rfl
  · subst hb; rfl
  · subst h8; rfl
  · subst h9; rfl
  · subst ha; rfl
  · subst hc; rfl
  · subst hd; rfl
  · exact parseEscape_unicode
  · have hctl : ¬u < 0x20 := fun h => hlone (by simp [h])
    simp [parseUnit, hq, hb, hctl]

theorem head?_quoteUnit : (quoteUnit lone u ++ r).head? ≠ some quoteMark := by
  unfold quoteUnit
  split_ifs with hq hb h8 h9 ha hc hd hlone
  all_goals simp [unicodeEscape, backslash, quoteMark]
  exact hq

theorem parseChars_quoteFrom {prev : Option UInt16} {s : Text} {fuel : Nat}
    (h : s.length < fuel) : parseChars fuel (quoteFrom prev s ++ r) = some (s, r) := by
  induction s generalizing prev fuel with
  | nil =>
    cases fuel with
    | zero => exact absurd h (Nat.not_lt_zero _)
    | succ fuel => rfl
  | cons u s ih =>
    cases fuel with
    | zero => exact absurd h (Nat.not_lt_zero _)
    | succ fuel =>
      have hs : parseChars fuel (quoteFrom (some u) s ++ r) = some (s, r) :=
        ih (Nat.lt_of_succ_lt_succ h)
      rw [quoteFrom, List.append_assoc, parseChars, if_neg head?_quoteUnit, parseUnit_quoteUnit]
      simp [hs]

theorem length_quoteFrom (prev : Option UInt16) (s : Text) : s.length < (quoteFrom prev s).length := by
  induction s generalizing prev with
  | nil => exact Nat.one_pos
  | cons u s ih =>
    have hs := ih (some u)
    have hu : 0 < (quoteUnit (unpaired prev u s.head?) u).length := by
      unfold quoteUnit
      split_ifs
      all_goals exact Nat.succ_pos _
    rw [quoteFrom, List.length_append, List.length_cons]
    omega

theorem parseString_quote {s : Text} : parseString (quote s ++ r) = some (s, r) := by
  have hlen := length_quoteFrom none s
  rw [quote, List.cons_append, parseString, if_pos rfl]
  apply parseChars_quoteFrom
  rw [List.length_append]
  omega

end Strings

section RoundTrip

variable {N : Type} (fmt : NumberFormat N) {r : Text}

/-- A number that `r` follows ends before `r`. -/
def Ends (r : Text) : Prop := ∀ u ∈ r.head?, isNumberUnit u = false

theorem skipSpace_cons {u : UInt16} (h : isSpace u = false) (s : Text) : skipSpace (u :: s) = u :: s := by
  rw [skipSpace, List.dropWhile_cons_of_neg (by simp [h])]

theorem isSpace_of_isNumberUnit {u : UInt16} (h : isNumberUnit u = true) : isSpace u = false := by
  by_contra hs
  simp only [isSpace, Bool.not_eq_false, Bool.or_eq_true, beq_iff_eq] at hs
  obtain ((rfl | rfl) | rfl) | rfl := hs
  all_goals exact absurd h (by decide)

theorem parseNumber_print (n : N) (h : Ends r) : parseNumber fmt (fmt.print n ++ r) = some (.num n, r) := by
  have hr : r.takeWhile isNumberUnit = [] ∧ r.dropWhile isNumberUnit = r := by
    cases r with
    | nil => exact ⟨rfl, rfl⟩
    | cons u s =>
      have hu : isNumberUnit u = false := h u rfl
      simp [hu]
  have htake : (fmt.print n ++ r).takeWhile isNumberUnit = fmt.print n := by
    rw [List.takeWhile_append_of_pos (fmt.print_units n), hr.1, List.append_nil]
  have hdrop : (fmt.print n ++ r).dropWhile isNumberUnit = r := by
    rw [List.dropWhile_append_of_pos (fmt.print_units n), hr.2]
  rw [parseNumber, htake, hdrop, fmt.read_print]
  rfl

theorem parseValue_print (n : N) (h : Ends r) (fuel : Nat) :
    parseValue fmt (fuel + 1) (fmt.print n ++ r) = some (.num n, r) := by
  have hn := parseNumber_print fmt n h
  cases hp : fmt.print n with
  | nil => exact absurd hp (fmt.print_ne_nil n)
  | cons u t =>
    have hu : isNumberUnit u = true := fmt.print_units n u (by rw [hp]; exact .head _)
    have hne : ∀ c, isNumberUnit c = false → u ≠ c := by
      rintro c hc rfl
      exact absurd hu (by simp [hc])
    have hlit : ∀ c w, isNumberUnit c = false → (c :: w).isPrefixOf (u :: (t ++ r)) = false := by
      intro c w hc
      simp [List.isPrefixOf, (hne c hc).symm]
    rw [hp, List.cons_append] at hn
    rw [List.cons_append, parseValue, skipSpace_cons (isSpace_of_isNumberUnit hu)]
    simp only [hne _ (show isNumberUnit quoteMark = false by decide), if_false,
      hne _ (show isNumberUnit openBracket = false by decide),
      hne _ (show isNumberUnit openBrace = false by decide),
      nullText, trueText, falseText, hlit _ _ (show isNumberUnit 0x6e = false by decide),
      hlit _ _ (show isNumberUnit 0x74 = false by decide),
      hlit _ _ (show isNumberUnit 0x66 = false by decide), Bool.false_eq_true, hn]

theorem parseKey_quote (k : Text) : parseKey (quote k ++ colon :: r) = some (k, r) := by
  have hspace : skipSpace (quote k ++ colon :: r) = quote k ++ colon :: r :=
    skipSpace_cons (by decide) _
  simp [parseKey, hspace, parseString_quote, skipSpace_cons (show isSpace colon = false by decide)]

theorem ends_cons {c : UInt16} (h : isNumberUnit c = false) (s : Text) : Ends (c :: s) := by
  rintro u hu
  cases hu
  exact h

theorem ends_stringifyElems (xs : Elems N) : Ends (stringifyElems fmt xs ++ r) := by
  cases xs with
  | nil | cons v xs => exact ends_cons (by decide) _

theorem ends_stringifyFields (fs : Fields N) : Ends (stringifyFields fmt fs ++ r) := by
  cases fs with
  | nil | cons k v fs => exact ends_cons (by decide) _

/-- `v` is read back from its text, whatever follows. -/
def Reads (fmt : NumberFormat N) (v : Value N) : Prop :=
  ∀ fuel r, (stringify fmt v).length < fuel → Ends r → parseValue fmt fuel (stringify fmt v ++ r) = some (v, r)

theorem stringify_first (v : Value N) : ∃ u s, stringify fmt v = u :: s ∧ isSpace u = false ∧ u ≠ closeBracket := by
  cases v with
  | null | str s => exact ⟨_, _, rfl, by decide, by decide⟩
  | bool b => cases b <;> exact ⟨_, _, rfl, by decide, by decide⟩
  | num n =>
    cases hp : fmt.print n with
    | nil => exact absurd hp (fmt.print_ne_nil n)
    | cons u t =>
      have hu : isNumberUnit u = true := fmt.print_units n u (by rw [hp]; exact .head _)
      refine ⟨u, t, hp, isSpace_of_isNumberUnit hu, ?_⟩
      rintro rfl
      exact absurd hu (by decide)
  | arr xs => cases xs <;> exact ⟨_, _, rfl, by decide, by decide⟩
  | obj fs => cases fs <;> exact ⟨_, _, rfl, by decide, by decide⟩

theorem parseValue_quote (s : Text) (fuel : Nat) : parseValue fmt (fuel + 1) (quote s ++ r) = some (.str s, r) := by
  have hs := parseString_quote (s := s) (r := r)
  rw [quote, List.cons_append] at hs ⊢
  rw [parseValue, skipSpace_cons (by decide)]
  simp [hs]

theorem parseValue_arr {s : Text} {xs : Elems N} {fuel : Nat}
    (hs : (skipSpace s).head? ≠ some closeBracket)
    (h : parseElems fmt fuel s = some (xs, r)) :
    parseValue fmt (fuel + 1) (openBracket :: s) = some (.arr xs, r) := by
  rw [parseValue, skipSpace_cons (by decide)]
  dsimp only
  rw [if_neg (by decide), if_pos rfl, if_neg hs, h]
  rfl

theorem parseValue_obj {s : Text} {fs : Fields N} {fuel : Nat}
    (hs : (skipSpace s).head? ≠ some closeBrace)
    (h : parseFields fmt fuel s = some (fs, r)) :
    parseValue fmt (fuel + 1) (openBrace :: s) = some (.obj fs, r) := by
  rw [parseValue, skipSpace_cons (by decide)]
  dsimp only
  rw [if_neg (by decide), if_neg (by decide), if_pos rfl, if_neg hs, h]
  rfl

mutual

theorem reads (v : Value N) (hd : v.Distinct) : Reads fmt v := by
  intro fuel r hf hr
  cases fuel with
  | zero => exact absurd hf (Nat.not_lt_zero _)
  | succ fuel =>
    cases v with
    | null => rfl
    | bool b => cases b <;> rfl
    | num n => exact parseValue_print fmt n hr fuel
    | str s => exact parseValue_quote fmt s fuel
    | arr xs =>
      cases xs with
      | nil => rfl
      | cons v xs =>
        obtain ⟨u, t, hu, hspace, hclose⟩ := stringify_first fmt v
        rw [stringify] at hf ⊢
        rw [List.cons_append]
        apply parseValue_arr fmt
        · rw [hu, List.cons_append, List.cons_append, skipSpace_cons hspace]
          exact fun h => hclose (Option.some_inj.mp h)
        · exact readsElems xs v (reads v hd.1) hd.2 r (Nat.lt_of_succ_lt_succ hf)
    | obj fs =>
      cases fs with
      | nil => rfl
      | cons k v fs =>
        rw [stringify] at hf ⊢
        rw [List.cons_append]
        apply parseValue_obj fmt
        · rw [quote, List.cons_append, List.cons_append, skipSpace_cons (by decide)]
          exact fun h => absurd (Option.some_inj.mp h) (by decide)
        · exact readsFields fs k v (reads v hd.2.1) hd.1 hd.2.2 r (Nat.lt_of_succ_lt_succ hf)

theorem readsElems (xs : Elems N) (v : Value N) (hv : Reads fmt v) (hd : xs.Distinct)
    {fuel : Nat} (r : Text) (hf : (stringify fmt v ++ stringifyElems fmt xs).length < fuel) :
    parseElems fmt fuel (stringify fmt v ++ stringifyElems fmt xs ++ r) = some (.cons v xs, r) := by
  cases fuel with
  | zero => exact absurd hf (Nat.not_lt_zero _)
  | succ fuel =>
    obtain ⟨u, t, hu, -, -⟩ := stringify_first fmt v
    cases xs with
    | nil =>
      rw [stringifyElems, List.length_append, List.length_singleton] at hf
      have hv' := hv fuel _ (by omega) (ends_stringifyElems fmt (r := r) .nil)
      rw [stringifyElems] at hv'
      rw [stringifyElems, List.append_assoc, parseElems, hv']
      rfl
    | cons w ws =>
      have hpos : 0 < (stringify fmt v).length := by rw [hu]; exact Nat.succ_pos _
      rw [stringifyElems, List.length_append, List.length_cons] at hf
      have hw := readsElems ws w (reads w hd.1) hd.2 r (show _ < fuel by omega)
      have hv' := hv fuel _ (by omega) (ends_stringifyElems fmt (r := r) (.cons w ws))
      rw [stringifyElems] at hv'
      rw [stringifyElems, List.append_assoc, parseElems, hv']
      simp only [List.cons_append, Option.bind_eq_bind, Option.bind_some,
        skipSpace_cons (show isSpace comma = false by decide), hw]
      rfl

theorem readsFields (fs : Fields N) (k : Text) (v : Value N) (hv : Reads fmt v)
    (hk : fs.get? k = none) (hd : fs.Distinct) {fuel : Nat} (r : Text)
    (hf : (quote k ++ colon :: (stringify fmt v ++ stringifyFields fmt fs)).length < fuel) :
    parseFields fmt fuel (quote k ++ colon :: (stringify fmt v ++ stringifyFields fmt fs) ++ r) =
      some (.cons k v fs, r) := by
  cases fuel with
  | zero => exact absurd hf (Nat.not_lt_zero _)
  | succ fuel =>
    rw [List.length_append, List.length_cons, List.length_append] at hf
    rw [List.append_assoc, List.cons_append, List.append_assoc, parseFields, parseKey_quote]
    cases fs with
    | nil =>
      have hv' := hv fuel _ (by omega) (ends_stringifyFields fmt (r := r) .nil)
      rw [stringifyFields] at hv' ⊢
      simp only [Option.bind_eq_bind, Option.bind_some, hv']
      rfl
    | cons l w gs =>
      rw [stringifyFields, List.length_cons] at hf
      have hw := readsFields gs l w (reads w hd.2.1) hd.1 hd.2.2 r (show _ < fuel by omega)
      have hv' := hv fuel _ (by omega) (ends_stringifyFields fmt (r := r) (.cons l w gs))
      rw [stringifyFields, List.cons_append] at hv' ⊢
      simp only [Option.bind_eq_bind, Option.bind_some, hv', skipSpace_cons (show isSpace comma = false by decide), hw]
      simp [consField, hk, show comma ≠ closeBrace by decide]

end

theorem parse_stringify (v : Value N) (hd : v.Distinct) : parse fmt (stringify fmt v) = some v := by
  have h := reads fmt v hd ((stringify fmt v).length + 1) [] (Nat.lt_succ_self _)
    (fun u hu => nomatch hu)
  rw [List.append_nil] at h
  rw [parse, h]
  rfl

end RoundTrip

end A2Wave.Utf16
