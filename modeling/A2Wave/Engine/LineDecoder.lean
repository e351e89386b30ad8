import A2Wave.Lib.Utf16Text
import A2Wave.Skill.Storage

/-! Lines of the output of a process, decoded chunk by chunk. -/

namespace A2Wave.LineDecoder

open Utf16 (Text newline isBlank)

section Decode

structure StringDecoder (σ : Type) where
  start : σ
  write : σ → List UInt8 → σ × Text
  finish : σ → Text
  decode : List UInt8 → Text

variable {σ : Type}

def StringDecoder.texts (decoder : StringDecoder σ) : σ → List (List UInt8) → List Text
  | s, [] => [decoder.finish s]
  | s, chunk :: chunks => (decoder.write s chunk).2 :: decoder.texts (decoder.write s chunk).1 chunks

def StringDecoder.ChunkInvariant (decoder : StringDecoder σ) : Prop :=
  ∀ chunks, (decoder.texts decoder.start chunks).flatten = decoder.decode chunks.flatten

end Decode

section Lines

inductive Event
  | line (text : Text)
  | oversized (discardedChars : Nat)
  deriving DecidableEq

structure State where
  remainder : Text
  discardingOversizedLine : Bool
  discardedChars : Nat

def initial : State := ⟨[], false, 0⟩

def reportDiscard (s : State) : State × List Event :=
  if s.discardedChars = 0 then (s, [])
  else ({ s with discardedChars := 0 }, [.oversized s.discardedChars])

/-- `Math.max(0, options.maxLineChars ?? Number.POSITIVE_INFINITY)`. -/
def maxLineChars (limit : Option Int) : Option Nat := limit.map Int.toNat

def exceeds (maxChars : Option Nat) (n : Nat) : Bool := maxChars.any (· < n)

variable (maxChars : Option Nat)

def consumeFragment (s : State) (fragment : Text) (completeLine : Bool) : State × List Event :=
  if s.discardingOversizedLine then
    let s := { s with discardedChars := s.discardedChars + fragment.length }
    if completeLine then reportDiscard { s with discardingOversizedLine := false } else (s, [])
  else if exceeds maxChars (s.remainder.length + fragment.length) then
    let s := { s with discardedChars := s.discardedChars + (s.remainder.length + fragment.length),
                      remainder := [], discardingOversizedLine := !completeLine }
    if completeLine then reportDiscard s else (s, [])
  else if completeLine then ({ s with remainder := [] }, [.line (s.remainder ++ fragment)])
  else ({ s with remainder := s.remainder ++ fragment }, [])

def consumeFragments : State → List Text → State × List Event
  | s, [] => (s, [])
  | s, [fragment] => consumeFragment maxChars s fragment false
  | s, fragment :: next :: fragments =>
    let (s, events) := consumeFragment maxChars s fragment true
    let (s, later) := consumeFragments s (next :: fragments)
    (s, events ++ later)

def consume (s : State) (text : Text) : State × List Event :=
  consumeFragments maxChars s (text.splitOn newline)

def flush (s : State) : List Event :=
  (if s.discardingOversizedLine = false ∧ isBlank s.remainder = false then [.line s.remainder]
    else []) ++ (reportDiscard s).2

def consumeAll : State → List Text → State × List Event
  | s, [] => (s, [])
  | s, text :: texts =>
    let (s, events) := consume maxChars s text
    let (s, later) := consumeAll s texts
    (s, events ++ later)

variable {σ : Type}

def decodeLines (decoder : StringDecoder σ) (limit : Option Int) (chunks : List (List UInt8)) : List Event :=
  let (s, events) := consumeAll (maxLineChars limit) initial
    (decoder.texts decoder.start chunks)
  events ++ flush s

end Lines

section OneShot

def terminated (text : Text) : List Text := (text.splitOn newline).dropLast

def unterminated (text : Text) : Text := (text.splitOn newline).getLast (List.splitOn_ne_nil _ _)

def within (limit : Option Int) (line : Text) : Bool :=
  !exceeds (maxLineChars limit) line.length

def linesOf (events : List Event) : List Text :=
  events.filterMap fun
    | .line text => some text
    | .oversized _ => none

def discarded (events : List Event) : Nat :=
  (events.map fun
    | .line _ => 0
    | .oversized n => n).sum

def expectedLines (limit : Option Int) (text : Text) : List Text :=
  (terminated text).filter (within limit) ++ [unterminated text].filter fun rest => within limit rest && !isBlank rest

def droppedChars (limit : Option Int) (text : Text) : Nat :=
  (((terminated text ++ [unterminated text]).filter fun line => !within limit line).map
    List.length).sum

end OneShot

section Chunks

variable {maxChars : Option Nat}

def stateOf (maxChars : Option Nat) (partial_ : Text) : State :=
  if exceeds maxChars partial_.length then ⟨[], true, partial_.length⟩ else ⟨partial_, false, 0⟩

def lineEvent (maxChars : Option Nat) (line : Text) : Event :=
  if exceeds maxChars line.length then .oversized line.length else .line line

theorem stateOf_nil (maxChars : Option Nat) : stateOf maxChars [] = initial := by
  have hwithin : exceeds maxChars 0 = false := by
    cases maxChars with
    | none => rfl
    | some n => exact decide_eq_false (Nat.not_lt_zero n)
  rw [stateOf, List.length_nil, hwithin]
  rfl

theorem exceeds_mono {m n : Nat} (h : exceeds maxChars m = true) (hle : m ≤ n) : exceeds maxChars n = true := by
  cases maxChars with
  | none => cases h
  | some limit => exact decide_eq_true (Nat.lt_of_lt_of_le (of_decide_eq_true h) hle)

theorem ne_zero_of_exceeds {n : Nat} (h : exceeds maxChars n = true) : n ≠ 0 := by
  cases maxChars with
  | none => cases h
  | some limit => exact Nat.ne_zero_of_lt (of_decide_eq_true h)

theorem consumeFragment_partial (p f : Text) :
    consumeFragment maxChars (stateOf maxChars p) f false = (stateOf maxChars (p ++ f), []) := by
  cases hp : exceeds maxChars p.length with
  | true =>
    have hpf : exceeds maxChars (p ++ f).length = true :=
      exceeds_mono hp (by rw [List.length_append]; exact Nat.le_add_right _ _)
    rw [stateOf, stateOf, hp, hpf, List.length_append]
    rfl
  | false =>
    rw [stateOf, hp, stateOf, List.length_append]
    cases hpf : exceeds maxChars (p.length + f.length) with
    | true | false => simp [consumeFragment, hpf]

theorem consumeFragment_complete (p f : Text) : consumeFragment maxChars (stateOf maxChars p) f true =
      (initial, [lineEvent maxChars (p ++ f)]) := by
  cases hp : exceeds maxChars p.length with
  | true =>
    have hpf : exceeds maxChars (p ++ f).length = true :=
      exceeds_mono hp (by rw [List.length_append]; exact Nat.le_add_right _ _)
    have hne : p.length + f.length ≠ 0 := by
      rw [← List.length_append]
      exact ne_zero_of_exceeds hpf
    rw [stateOf, hp, lineEvent, hpf, List.length_append]
    simp only [consumeFragment, reportDiscard, if_pos, if_neg hne]
    rfl
  | false =>
    rw [stateOf, hp, lineEvent, List.length_append]
    cases hpf : exceeds maxChars (p.length + f.length) with
    | true =>
      have hne := ne_zero_of_exceeds hpf
      simp only [consumeFragment, reportDiscard, Bool.false_eq_true, if_false, if_true, hpf, Nat.zero_add, if_neg hne]
      rfl
    | false => simp [consumeFragment, hpf, initial]

theorem consumeFragments_eq {p f r : Text} {fragments lines : List Text}
    (h : (p ++ f) :: fragments = lines ++ [r]) :
    consumeFragments maxChars (stateOf maxChars p) (f :: fragments) =
      (stateOf maxChars r, lines.map (lineEvent maxChars)) := by
  induction fragments generalizing p f lines with
  | nil =>
    cases lines with
    | nil =>
      obtain rfl := (List.cons.inj h).1
      exact consumeFragment_partial p f
    | cons line lines =>
      have hlength := congrArg List.length h
      simp at hlength
  | cons next fragments ih =>
    cases lines with
    | nil => cases (List.cons.inj h).2
    | cons line lines =>
      obtain ⟨hline, hrest⟩ := List.cons.inj h
      have hlater := @ih [] next lines hrest
      rw [stateOf_nil] at hlater
      rw [consumeFragments, consumeFragment_complete]
      simp only [hlater, hline, List.map_cons, List.singleton_append]

theorem splitOn_eq (text : Text) : text.splitOn newline = terminated text ++ [unterminated text] :=
  (List.dropLast_append_getLast _).symm

theorem consume_append (a b : Text) : ∃ lines, consume maxChars (stateOf maxChars (unterminated a)) b =
      (stateOf maxChars (unterminated (a ++ b)), lines.map (lineEvent maxChars)) ∧
    terminated (a ++ b) = terminated a ++ lines := by
  cases hb : b.splitOn newline with
  | nil => exact absurd hb (List.splitOn_ne_nil _ _)
  | cons q post =>
    obtain ⟨lines, r, hlines⟩ : ∃ lines r, (unterminated a ++ q) :: post = lines ++ [r] :=
      ⟨_, _, (List.dropLast_append_getLast (List.cons_ne_nil _ _)).symm⟩
    have happend := Separated.splitOn_append (splitOn_eq a) hb
    rw [hlines, splitOn_eq, ← List.append_assoc] at happend
    obtain ⟨hterminated, hrest⟩ := List.append_inj' happend rfl
    refine ⟨lines, ?_, hterminated⟩
    rw [consume, hb, consumeFragments_eq hlines, (List.cons.inj hrest).1]

theorem consumeAll_eq (texts : List Text) (a : Text) : ∃ lines,
    consumeAll maxChars (stateOf maxChars (unterminated a)) texts =
      (stateOf maxChars (unterminated (a ++ texts.flatten)), lines.map (lineEvent maxChars)) ∧
    terminated (a ++ texts.flatten) = terminated a ++ lines := by
  induction texts generalizing a with
  | nil =>
    rw [List.flatten_nil, List.append_nil]
    exact ⟨[], rfl, (List.append_nil _).symm⟩
  | cons b texts ih =>
    obtain ⟨first, hfirst, hterminated⟩ := @consume_append maxChars a b
    obtain ⟨later, hlater, hrest⟩ := ih (a ++ b)
    rw [List.append_assoc] at hlater hrest
    refine ⟨first ++ later, ?_, ?_⟩
    · rw [consumeAll, hfirst]
      simp only [hlater, List.map_append, List.flatten_cons]
    · rw [List.flatten_cons, hrest, hterminated, List.append_assoc]

theorem flush_stateOf (p : Text) : flush (stateOf maxChars p) =
    if exceeds maxChars p.length = true then [.oversized p.length]
    else if isBlank p = true then [] else [.line p] := by
  cases hp : exceeds maxChars p.length with
  | true =>
    have hne := ne_zero_of_exceeds hp
    rw [stateOf, hp]
    simp only [flush, reportDiscard, if_pos, if_neg hne]
    rfl
  | false =>
    rw [stateOf, hp]
    cases hblank : isBlank p with
    | true | false => simp [flush, reportDiscard, hblank]

theorem events_eq (texts : List Text) :
    let run := consumeAll maxChars initial texts
    run.2 ++ flush run.1 = (terminated texts.flatten).map (lineEvent maxChars) ++
      flush (stateOf maxChars (unterminated texts.flatten)) := by
  obtain ⟨lines, hrun, hterminated⟩ := @consumeAll_eq maxChars texts []
  have hstart : stateOf maxChars (unterminated []) = initial := stateOf_nil maxChars
  rw [hstart, List.nil_append] at hrun
  rw [List.nil_append] at hterminated
  simp only [hrun, hterminated]
  rfl

end Chunks

section Result

variable {limit : Option Int} {line : Text}

theorem linesOf_map (lines : List Text) :
    linesOf (lines.map (lineEvent (maxLineChars limit))) = lines.filter (within limit) := by
  induction lines with
  | nil => rfl
  | cons line lines ih =>
    rw [List.map_cons, List.filter_cons, lineEvent, within]
    cases exceeds (maxLineChars limit) line.length with
    | true => exact ih
    | false => exact congrArg (line :: ·) ih

theorem discarded_map (lines : List Text) : discarded (lines.map (lineEvent (maxLineChars limit))) =
      ((lines.filter fun line => !within limit line).map List.length).sum := by
  induction lines with
  | nil => rfl
  | cons line lines ih =>
    rw [List.map_cons, List.filter_cons, lineEvent, within]
    cases exceeds (maxLineChars limit) line.length with
    | true => exact congrArg (line.length + ·) ih
    | false => exact (Nat.zero_add _).trans ih

theorem linesOf_flush (p : Text) : linesOf (flush (stateOf (maxLineChars limit) p)) =
    [p].filter fun rest => within limit rest && !isBlank rest := by
  rw [flush_stateOf, List.filter_singleton, within]
  cases exceeds (maxLineChars limit) p.length with
  | true => rfl
  | false =>
    cases isBlank p with
    | true => rfl
    | false => rfl

theorem discarded_flush (p : Text) : discarded (flush (stateOf (maxLineChars limit) p)) =
    (([p].filter fun line => !within limit line).map List.length).sum := by
  rw [flush_stateOf, List.filter_singleton, within]
  cases exceeds (maxLineChars limit) p.length with
  | true => rfl
  | false =>
    cases isBlank p with
    | true => rfl
    | false => rfl

/-- However the bytes are cut, the lines are those of the decoded text. -/
theorem decodeLines_chunks {σ : Type} (decoder : StringDecoder σ) (hdecoder : decoder.ChunkInvariant)
    (limit : Option Int) (chunks : List (List UInt8)) :
    linesOf (decodeLines decoder limit chunks) = expectedLines limit (decoder.decode chunks.flatten) ∧
      discarded (decodeLines decoder limit chunks) = droppedChars limit (decoder.decode chunks.flatten) := by
  have hevents := @events_eq (maxLineChars limit) (decoder.texts decoder.start chunks)
  rw [hdecoder chunks] at hevents
  have hrun : decodeLines decoder limit chunks = _ := hevents
  rw [hrun]
  constructor
  · rw [linesOf, List.filterMap_append, ← linesOf, ← linesOf, linesOf_map, linesOf_flush]
    rfl
  · rw [discarded, List.map_append, List.sum_append, ← discarded, ← discarded, discarded_map,
      discarded_flush, droppedChars, List.filter_append, List.map_append, List.sum_append]

end Result

section Utf8

open SkillStorage (Utf8)

def feedAll : Utf8 → List UInt8 → List Char × Utf8
  | s, [] => ([], s)
  | s, b :: bs =>
    let (text, s) := s.feed b.toNat
    let (later, s) := feedAll s bs
    (text ++ later, s)

def utf8Decoder : StringDecoder Utf8 where
  start := {}
  write s chunk := ((feedAll s chunk).2, Utf16.ofChars (feedAll s chunk).1)
  finish s := Utf16.ofChars (s.decode [])
  decode bytes := Utf16.ofChars (Utf8.decode {} bytes)

theorem decode_append (s : Utf8) (bs cs : List UInt8) :
    s.decode (bs ++ cs) = (feedAll s bs).1 ++ (feedAll s bs).2.decode cs := by
  induction bs generalizing s with
  | nil => rfl
  | cons b bs ih => rw [List.cons_append, Utf8.decode, ih, feedAll, List.append_assoc]

theorem utf8Decoder_chunkInvariant : utf8Decoder.ChunkInvariant := by
  have htexts : ∀ chunks s, (utf8Decoder.texts s chunks).flatten = Utf16.ofChars (s.decode chunks.flatten) := by
    intro chunks
    induction chunks with
    | nil => exact fun s => List.append_nil _
    | cons chunk chunks ih =>
      intro s
      rw [StringDecoder.texts, List.flatten_cons, ih, List.flatten_cons, decode_append,
        Utf16.ofChars, Utf16.ofChars, List.flatMap_append]
      rfl
  exact fun chunks => htexts chunks {}

/-- `ab`, `é` cut in two, and `cdef` over the limit. -/
def cutBytes : List (List UInt8) :=
  [[0x61, 0x62, 0x0a, 0xc3], [0xa9, 0x0a, 0x63, 0x64], [0x65, 0x66], [0x0a, 0x67]]

theorem decodeLines_cutBytes : decodeLines utf8Decoder (some 3) cutBytes =
        [.line [0x61, 0x62], .line [0xe9], .oversized 4, .line [0x67]] ∧
      linesOf (decodeLines utf8Decoder (some 3) cutBytes) =
        expectedLines (some 3) (utf8Decoder.decode cutBytes.flatten) :=
  ⟨by decide +kernel, (decodeLines_chunks utf8Decoder utf8Decoder_chunkInvariant (some 3) cutBytes).1⟩

end Utf8

end A2Wave.LineDecoder
