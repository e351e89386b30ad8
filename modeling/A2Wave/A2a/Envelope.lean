import A2Wave.Lib.Utf16Json

/-! What is written for a task: the values of an envelope without the units that a `jsonb` cast
refuses. -/

namespace A2Wave.TaskEnvelope

open Utf16

variable {N : Type}

section Text

/-- `PG_UNREPRESENTABLE`, at one unit: U+0000 or half of a pair. -/
def unrepresentable (prev : Option UInt16) (u : UInt16) (next : Option UInt16) : Bool :=
  u == 0 || unpaired prev u next

/-- `value.replace(PG_UNREPRESENTABLE, '')`. -/
def strip (s : Text) : Text := removeFrom unrepresentable none s

/-- A text that `jsonb` can hold. -/
def Clean (s : Text) : Prop := NoneFrom unrepresentable none s

instance (s : Text) : Decidable (Clean s) := decidableNoneFrom unrepresentable none s

variable {prev kept : Option UInt16} {u : UInt16} {s : Text}

variable {next : Option UInt16}

theorem unrepresentable_eq_false : unrepresentable prev u next = false ↔
      u ≠ 0 ∧ (isHigh u = true → next.any isLow = true) ∧ (isLow u = true → prev.any isHigh = true) := by
  simp only [unrepresentable, unpaired, Bool.or_eq_false_iff, Bool.and_eq_false_iff,
    beq_eq_false_iff_ne, Bool.not_eq_false']
  constructor
  · rintro ⟨h0, hh, hl⟩
    exact ⟨h0, fun h => hh.resolve_left (by simp [h]), fun h => hl.resolve_left (by simp [h])⟩
  · rintro ⟨h0, hh, hl⟩
    refine ⟨h0, ?_, ?_⟩
    · cases hu : isHigh u with
      | false => exact .inl rfl
      | true => exact .inr (hh hu)
    · cases hu : isLow u with
      | false => exact .inl rfl
      | true => exact .inr (hl hu)

theorem keeps_high (hu : isHigh u = true) (h : next.any isLow = true) : unrepresentable prev u next = false := by
  rw [unrepresentable_eq_false]
  refine ⟨?_, fun _ => h, ?_⟩
  · rintro rfl
    exact absurd hu (by decide)
  · intro hlow
    rw [not_isLow_of_isHigh hu] at hlow
    exact absurd hlow Bool.false_ne_true

theorem keeps_low (hu : isLow u = true) (h : prev.any isHigh = true) : unrepresentable prev u next = false := by
  rw [unrepresentable_eq_false]
  refine ⟨?_, ?_, fun _ => h⟩
  · rintro rfl
    exact absurd hu (by decide)
  · intro hhigh
    rw [not_isLow_of_isHigh hhigh] at hu
    exact absurd hu Bool.false_ne_true

def Agree (prev kept : Option UInt16) (s : Text) : Prop :=
  kept.any isHigh = true ↔ prev.any isHigh = true ∧ s.head?.any isLow = true

theorem Agree.removed (h : Agree prev kept (u :: s)) (hu : unrepresentable prev u s.head? = true) :
    Agree (some u) kept s := by
  constructor
  · intro hkept
    obtain ⟨hprev, hlow⟩ := h.mp hkept
    rw [keeps_low hlow hprev] at hu
    exact absurd hu Bool.false_ne_true
  · rintro ⟨hhigh, hnext⟩
    rw [keeps_high hhigh hnext] at hu
    exact absurd hu Bool.false_ne_true

theorem Agree.keep (hu : unrepresentable prev u s.head? = false) : Agree (some u) (some u) s := by
  rw [unrepresentable_eq_false] at hu
  exact ⟨fun h => ⟨h, hu.2.1 h⟩, fun h => h.1⟩

theorem head?_removeFrom (hp : prev.any isHigh = true) (hs : s.head?.any isLow = true) :
    (removeFrom unrepresentable prev s).head?.any isLow = true := by
  cases s with
  | nil => exact hs
  | cons u s =>
    have hlow : isLow u = true := hs
    rw [removeFrom, keeps_low hlow hp, if_neg Bool.false_ne_true]
    exact hlow

theorem noneFrom_removeFrom (h : Agree prev kept s) :
    NoneFrom unrepresentable kept (removeFrom unrepresentable prev s) := by
  induction s generalizing prev kept with
  | nil => trivial
  | cons u s ih =>
    rw [removeFrom]
    split
    next hu => exact ih (h.removed hu)
    next hu =>
      rw [Bool.not_eq_true] at hu
      refine ⟨?_, ih (.keep hu)⟩
      rw [unrepresentable_eq_false] at hu ⊢
      obtain ⟨h0, hhigh, hlow⟩ := hu
      exact ⟨h0, fun hu => head?_removeFrom hu (hhigh hu), fun hu => h.mpr ⟨hlow hu, hu⟩⟩

theorem clean_strip (s : Text) : Clean (strip s) :=
  noneFrom_removeFrom (by simp [Agree])

theorem strip_eq_self (h : Clean s) : strip s = s := removeFrom_eq_self h

end Text

section Values

mutual

/-- The value that is written: the replacer takes a string apart and leaves every other value, and
is never given a key. -/
def replaced : Value N → Value N
  | .null => .null
  | .bool b => .bool b
  | .num n => .num n
  | .str s => .str (strip s)
  | .arr xs => .arr (replacedElems xs)
  | .obj fs => .obj (replacedFields fs)

def replacedElems : Utf16.Elems N → Utf16.Elems N
  | .nil => .nil
  | .cons v xs => .cons (replaced v) (replacedElems xs)

def replacedFields : Utf16.Fields N → Utf16.Fields N
  | .nil => .nil
  | .cons k v fs => .cons k (replaced v) (replacedFields fs)

end

def encodeEnvelope (fmt : NumberFormat N) (envelope : Value N) : Text :=
  stringify fmt (replaced envelope)

mutual

def keys : Value N → List Text
  | .null => []
  | .bool _ => []
  | .num _ => []
  | .str _ => []
  | .arr xs => keysElems xs
  | .obj fs => keysFields fs

def keysElems : Utf16.Elems N → List Text
  | .nil => []
  | .cons v xs => keys v ++ keysElems xs

def keysFields : Utf16.Fields N → List Text
  | .nil => []
  | .cons k v fs => k :: (keys v ++ keysFields fs)

end

mutual

def strings : Value N → List Text
  | .null => []
  | .bool _ => []
  | .num _ => []
  | .str s => [s]
  | .arr xs => stringsElems xs
  | .obj fs => stringsFields fs

def stringsElems : Utf16.Elems N → List Text
  | .nil => []
  | .cons v xs => strings v ++ stringsElems xs

def stringsFields : Utf16.Fields N → List Text
  | .nil => []
  | .cons _ v fs => strings v ++ stringsFields fs

end

/-- No string of the value has a unit that `jsonb` refuses. -/
def Storable (v : Value N) : Prop := ∀ s ∈ keys v ++ strings v, Clean s

def KeysStorable (v : Value N) : Prop := ∀ k ∈ keys v, Clean k

mutual

theorem keys_replaced (v : Value N) : keys (replaced v) = keys v := by
  cases v with
  | null => rfl
  | bool b => rfl
  | num n => rfl
  | str s => rfl
  | arr xs => exact keysElems_replaced xs
  | obj fs => exact keysFields_replaced fs

theorem keysElems_replaced (xs : Utf16.Elems N) : keysElems (replacedElems xs) = keysElems xs := by
  cases xs with
  | nil => rfl
  | cons v xs => rw [replacedElems, keysElems, keysElems, keys_replaced v, keysElems_replaced xs]

theorem keysFields_replaced (fs : Utf16.Fields N) : keysFields (replacedFields fs) = keysFields fs := by
  cases fs with
  | nil => rfl
  | cons k v fs =>
    rw [replacedFields, keysFields, keysFields, keys_replaced v, keysFields_replaced fs]

end

mutual

theorem strings_replaced (v : Value N) : strings (replaced v) = (strings v).map strip := by
  cases v with
  | null => rfl
  | bool b => rfl
  | num n => rfl
  | str s => rfl
  | arr xs => exact stringsElems_replaced xs
  | obj fs => exact stringsFields_replaced fs

theorem stringsElems_replaced (xs : Utf16.Elems N) :
    stringsElems (replacedElems xs) = (stringsElems xs).map strip := by
  cases xs with
  | nil => rfl
  | cons v xs =>
    rw [replacedElems, stringsElems, stringsElems, List.map_append, strings_replaced v, stringsElems_replaced xs]

theorem stringsFields_replaced (fs : Utf16.Fields N) :
    stringsFields (replacedFields fs) = (stringsFields fs).map strip := by
  cases fs with
  | nil => rfl
  | cons k v fs =>
    rw [replacedFields, stringsFields, stringsFields, List.map_append, strings_replaced v, stringsFields_replaced fs]

end

mutual

theorem replaced_eq_self (v : Value N) (h : ∀ s ∈ strings v, Clean s) : replaced v = v := by
  cases v with
  | null => rfl
  | bool b => rfl
  | num n => rfl
  | str s => rw [replaced, strip_eq_self (h s (.head _))]
  | arr xs => rw [replaced, replacedElems_eq_self xs h]
  | obj fs => rw [replaced, replacedFields_eq_self fs h]

theorem replacedElems_eq_self (xs : Utf16.Elems N) (h : ∀ s ∈ stringsElems xs, Clean s) :
    replacedElems xs = xs := by
  cases xs with
  | nil => rfl
  | cons v xs =>
    rw [stringsElems, List.forall_mem_append] at h
    rw [replacedElems, replaced_eq_self v h.1, replacedElems_eq_self xs h.2]

theorem replacedFields_eq_self (fs : Utf16.Fields N) (h : ∀ s ∈ stringsFields fs, Clean s) :
    replacedFields fs = fs := by
  cases fs with
  | nil => rfl
  | cons k v fs =>
    rw [stringsFields, List.forall_mem_append] at h
    rw [replacedFields, replaced_eq_self v h.1, replacedFields_eq_self fs h.2]

end

theorem get?_replacedFields {k : Text} {fs : Utf16.Fields N} (h : fs.get? k = none) :
    (replacedFields fs).get? k = none := by
  cases fs with
  | nil => rfl
  | cons l v fs =>
    rw [Utf16.Fields.get?] at h
    rw [replacedFields, Utf16.Fields.get?]
    split at h
    next => exact absurd h (Option.some_ne_none v)
    next hl =>
      rw [if_neg hl]
      exact get?_replacedFields h

mutual

theorem distinct_replaced (v : Value N) (h : v.Distinct) : (replaced v).Distinct := by
  cases v with
  | null => trivial
  | bool b => trivial
  | num n => trivial
  | str s => trivial
  | arr xs => exact distinct_replacedElems xs h
  | obj fs => exact distinct_replacedFields fs h

theorem distinct_replacedElems (xs : Utf16.Elems N) (h : xs.Distinct) : (replacedElems xs).Distinct := by
  cases xs with
  | nil => trivial
  | cons v xs => exact ⟨distinct_replaced v h.1, distinct_replacedElems xs h.2⟩

theorem distinct_replacedFields (fs : Utf16.Fields N) (h : fs.Distinct) : (replacedFields fs).Distinct := by
  cases fs with
  | nil => trivial
  | cons k v fs =>
    exact ⟨get?_replacedFields h.1, distinct_replaced v h.2.1, distinct_replacedFields fs h.2.2⟩

end

theorem strings_replaced_clean (v : Value N) : ∀ s ∈ strings (replaced v), Clean s := by
  rw [strings_replaced]
  intro s hs
  obtain ⟨t, -, rfl⟩ := List.mem_map.mp hs
  exact clean_strip t

theorem replaced_replaced (v : Value N) : replaced (replaced v) = replaced v :=
  replaced_eq_self _ (strings_replaced_clean v)

theorem storable_replaced (v : Value N) : Storable (replaced v) ↔ KeysStorable v := by
  rw [Storable, List.forall_mem_append, keys_replaced]
  exact and_iff_left (strings_replaced_clean v)

end Values

section Encode

variable (fmt : NumberFormat N)

theorem parse_encodeEnvelope {v : Value N} (hv : v.Distinct) : parse fmt (encodeEnvelope fmt v) = some (replaced v) :=
  parse_stringify fmt (replaced v) (distinct_replaced v hv)

theorem encodeEnvelope_of_storable {v : Value N} (h : Storable v) : encodeEnvelope fmt v = stringify fmt v := by
  rw [encodeEnvelope, replaced_eq_self v fun s hs => h s (List.mem_append_right _ hs)]

/-- Encoded envelopes are storable exactly when the keys are: the replacer sees no key. -/
theorem encodeEnvelope_storable_iff (v : Value N) (hv : v.Distinct) :
    (∃ w, parse fmt (encodeEnvelope fmt v) = some w ∧ Storable w ∧
      (Storable v → encodeEnvelope fmt v = stringify fmt v ∧ w = v) ∧
      encodeEnvelope fmt w = encodeEnvelope fmt v) ↔ KeysStorable v := by
  rw [parse_encodeEnvelope fmt hv]
  constructor
  · rintro ⟨w, hw, hstorable, -, -⟩
    obtain rfl := Option.some_inj.mp hw
    exact (storable_replaced v).mp hstorable
  · intro hkeys
    refine ⟨replaced v, rfl, (storable_replaced v).mpr hkeys, fun h => ⟨?_, ?_⟩, ?_⟩
    · exact encodeEnvelope_of_storable fmt h
    · exact replaced_eq_self v fun s hs => h s (List.mem_append_right _ hs)
    · rw [encodeEnvelope, encodeEnvelope, replaced_replaced]

def zeroFormat : NumberFormat Unit where
  print _ := [0x30]
  read s := if s = [0x30] then some () else none
  print_units _ := List.forall_mem_singleton.mpr (by decide)
  print_ne_nil _ := by decide
  read_print _ := rfl

def strayHalf : Value Unit := .obj (.cons [0x61]
  (.arr (.cons (.num ()) (.cons (.str [0x68, 0xd83d, 0x69]) .nil))) .nil)

theorem encodeEnvelope_storable_iff_strayHalf :
    ∃ w, parse zeroFormat (encodeEnvelope zeroFormat strayHalf) = some w ∧ Storable w ∧ (Storable strayHalf →
        encodeEnvelope zeroFormat strayHalf = stringify zeroFormat strayHalf ∧ w = strayHalf) ∧
      encodeEnvelope zeroFormat w = encodeEnvelope zeroFormat strayHalf :=
  (encodeEnvelope_storable_iff zeroFormat strayHalf ⟨rfl, ⟨trivial, trivial, trivial⟩, trivial⟩).mpr
    (by unfold KeysStorable; decide)

def zeroKey : Value Unit := .obj (.cons [0x6d] (.obj (.cons [0x00] (.num ()) .nil)) .nil)

theorem encodeEnvelope_keeps_zeroKey : zeroKey.Distinct ∧
    parse zeroFormat (encodeEnvelope zeroFormat zeroKey) = some zeroKey ∧ ¬Storable zeroKey :=
  ⟨⟨rfl, ⟨rfl, trivial, trivial⟩, trivial⟩, rfl, by unfold Storable; decide⟩

end Encode

end A2Wave.TaskEnvelope
