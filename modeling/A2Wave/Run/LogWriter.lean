import Mathlib.Algebra.BigOperators.Group.List.Basic
import A2Wave.Lib.JsonText

/-! `createRunLogFileWriter` of `lib/run-log-file.ts` over a stream whose writes may be slow or fail.  `number` is
how the runtime prints a number. -/

namespace A2Wave.LogWriter

open JsonText

inductive Chunk
  | entry (line : Text)
  | entriesDropped (dropped ts : Nat)
  | sizeCapped (dropped ts : Nat)
  deriving DecidableEq

structure Config where
  maxBytes : Nat
  maxBufferedLines : Nat
  /-- Whether a call of `stream.write`, by its number, asks to wait for a drain. -/
  full : Nat → Bool

structure Writer where
  bytesWritten : Nat
  chunks : List Chunk := []
  pendingLines : List Text := []
  failed : Bool := false
  capped : Bool := false
  closed : Bool := false
  backpressured : Bool := false
  droppedWhileBackpressured : Nat := 0
  closeResolve : Bool := false
  ended : Bool := false
  destroyed : Bool := false
  appended : List Text := []
  late : Nat := 0

structure Clock where
  entriesDropped : Nat
  sizeCapped : Nat

inductive Event
  | write (entry : Json) (throws : Bool) (now : Clock)
  | drain (now : Clock)
  | error
  | close (now : Clock)
  | timeout

section Model

variable (number : ℚ → String) (cfg : Config)

def Chunk.text : Chunk → Text
  | .entry line => line
  | .entriesDropped dropped ts =>
    stringify number (.obj (.ofList [("type", .str "system"), ("subtype", .str "log_file_entries_dropped"),
      ("dropped", .num dropped), ("ts", .num ts)])) ++ ['\n']
  | .sizeCapped dropped ts =>
    stringify number (.obj (.ofList ([("type", .str "system"), ("subtype", .str "log_file_size_capped"),
      ("ts", .num ts)] ++ if 0 < dropped then [("dropped", .num dropped)] else []))) ++ ['\n']

/-- `Buffer.byteLength(line, 'utf8')`. -/
@[irreducible] def Chunk.byteLength (c : Chunk) : Nat := (String.ofList (c.text number)).utf8ByteSize

def createRunLogFileWriter (size : Nat) : Writer := { bytesWritten := size }

def finishCloseIfReady (w : Writer) : Writer :=
  if !w.closeResolve || w.backpressured || !w.pendingLines.isEmpty then w
  else { w with closeResolve := false, ended := true }

def writeDirect (w : Writer) (c : Chunk) : Writer :=
  { w with
    bytesWritten := w.bytesWritten + c.byteLength number
    chunks := w.chunks ++ [c]
    backpressured := cfg.full w.chunks.length }

def capWithMarker (w : Writer) (now : Clock) : Writer :=
  if w.capped then w
  else
    let marker := .sizeCapped w.droppedWhileBackpressured now.sizeCapped
    writeDirect number cfg { w with capped := true, pendingLines := [], droppedWhileBackpressured := 0 } marker

def writeCounted (w : Writer) (c : Chunk) (now : Clock) : Writer :=
  if cfg.maxBytes < w.bytesWritten + c.byteLength number then capWithMarker number cfg w now
  else writeDirect number cfg w c

/-- The loop of `flushPending`, over the lines that are left. -/
def flushLines (now : Clock) : List Text → Writer → Writer
  | [], w => { w with pendingLines := [] }
  | next :: rest, w =>
    if w.failed || w.capped || w.backpressured then { w with pendingLines := next :: rest }
    else
      let w' := writeCounted number cfg { w with pendingLines := rest } (.entry next) now
      -- the cap has emptied the buffer
      if w'.capped then w' else flushLines now rest w'

def reportDropped (w : Writer) (now : Clock) : Writer :=
  if 0 < w.droppedWhileBackpressured && !w.failed && !w.capped && !w.backpressured then
    let w' := writeCounted number cfg w (.entriesDropped w.droppedWhileBackpressured now.entriesDropped) now
    if w'.capped then w' else { w' with droppedWhileBackpressured := 0 }
  else w

def flushPending (w : Writer) (now : Clock) : Writer :=
  if w.failed || w.backpressured then w
  else finishCloseIfReady (reportDropped number cfg (flushLines number cfg now w.pendingLines w) now)

def enqueueOrDrop (w : Writer) (line : Text) : Writer :=
  if w.pendingLines.length < cfg.maxBufferedLines then { w with pendingLines := w.pendingLines ++ [line] }
  else { w with droppedWhileBackpressured := w.droppedWhileBackpressured + 1 }

def write (w : Writer) (entry : Json) (throws : Bool) (now : Clock) : Writer :=
  if w.failed || w.capped || w.closed then w
  else if throws then w
  else
    let line := stringify number entry ++ ['\n']
    if w.backpressured then enqueueOrDrop cfg w line else writeCounted number cfg w (.entry line) now

def close (w : Writer) (now : Clock) : Writer :=
  if w.closed then w
  else
    let w' := flushPending number cfg { w with closed := true, closeResolve := true } now
    if w'.failed then { w' with closeResolve := false } else finishCloseIfReady w'

/-- The entry as it is given to `write`, whatever becomes of it. -/
def record (w : Writer) (entry : Json) (throws : Bool) : Writer :=
  if throws then w
  else
    { w with
      appended := w.appended ++ [stringify number entry ++ ['\n']]
      late := w.late + if w.failed || w.capped || w.closed then 1 else 0 }

def step (w : Writer) : Event → Writer
  | .write entry throws now => write number cfg (record number w entry throws) entry throws now
  -- a destroyed stream emits no drain
  | .drain now => if w.destroyed then w else flushPending number cfg { w with backpressured := false } now
  | .error => { w with failed := true, closeResolve := false }
  | .close now => close number cfg w now
  | .timeout => if w.closeResolve then { w with closeResolve := false, destroyed := true } else w

def run (size : Nat) (es : List Event) : Writer := es.foldl (step number cfg) (createRunLogFileWriter size)

end Model

def Chunk.line? : Chunk → Option Text
  | .entry line => some line
  | _ => none

def Chunk.reported : Chunk → Nat
  | .entry _ => 0
  | .entriesDropped dropped _ => dropped
  | .sizeCapped dropped _ => dropped

def Chunk.isSizeCapped : Chunk → Bool
  | .sizeCapped _ _ => true
  | _ => false

def lines (chunks : List Chunk) : List Text := chunks.filterMap Chunk.line?

def reported (chunks : List Chunk) : Nat := (chunks.map Chunk.reported).sum

def bytes (number : ℚ → String) (chunks : List Chunk) : Nat := (chunks.map (Chunk.byteLength number)).sum

def capMarkers (chunks : List Chunk) : List Chunk := chunks.filter Chunk.isSizeCapped

structure OnDisk (number : ℚ → String) (chunks : List Chunk) where
  whole : Nat
  torn : Nat
  torn_le : torn ≤ bytes number ((chunks.drop whole).take 1)

def OnDisk.lines {number : ℚ → String} {chunks : List Chunk} (d : OnDisk number chunks) : List Text :=
  LogWriter.lines (chunks.take d.whole)

def OnDisk.bytes {number : ℚ → String} {chunks : List Chunk} (d : OnDisk number chunks) : Nat :=
  LogWriter.bytes number (chunks.take d.whole) + d.torn

section Laws

variable {number : ℚ → String} {cfg : Config} {size : Nat} {todo : List Text} {w : Writer} {now : Clock}

@[simp] theorem lines_append (xs ys : List Chunk) : lines (xs ++ ys) = lines xs ++ lines ys := List.filterMap_append

@[simp] theorem reported_append (xs ys : List Chunk) : reported (xs ++ ys) = reported xs + reported ys := by
  simp [reported]

@[simp] theorem bytes_append (xs ys : List Chunk) : bytes number (xs ++ ys) = bytes number xs + bytes number ys := by
  simp [bytes]

@[simp] theorem capMarkers_append (xs ys : List Chunk) : capMarkers (xs ++ ys) = capMarkers xs ++ capMarkers ys :=
  List.filter_append xs ys

@[simp] theorem bytes_nil : bytes number [] = 0 := rfl

@[simp] theorem bytes_singleton (c : Chunk) : bytes number [c] = c.byteLength number := by simp [bytes]

@[simp] theorem lines_entry (line : Text) : lines [.entry line] = [line] := rfl

@[simp] theorem lines_entriesDropped (n ts : Nat) : lines [.entriesDropped n ts] = [] := rfl

@[simp] theorem lines_sizeCapped (n ts : Nat) : lines [.sizeCapped n ts] = [] := rfl

@[simp] theorem reported_entry (line : Text) : reported [.entry line] = 0 := rfl

@[simp] theorem reported_entriesDropped (n ts : Nat) : reported [.entriesDropped n ts] = n := by
  simp [reported, Chunk.reported]

@[simp] theorem reported_sizeCapped (n ts : Nat) : reported [.sizeCapped n ts] = n := by
  simp [reported, Chunk.reported]

@[simp] theorem capMarkers_entry (line : Text) : capMarkers [.entry line] = [] := rfl

@[simp] theorem capMarkers_entriesDropped (n ts : Nat) : capMarkers [.entriesDropped n ts] = [] := rfl

@[simp] theorem capMarkers_sizeCapped (n ts : Nat) : capMarkers [.sizeCapped n ts] = [.sizeCapped n ts] := rfl

/-- The books of the writer while the lines `todo` are on their way from the buffer to the stream. -/
structure Accounts (number : ℚ → String) (cfg : Config) (size : Nat) (todo : List Text) (w : Writer) : Prop where
  order : (lines w.chunks ++ todo ++ w.pendingLines).Sublist w.appended
  written : w.bytesWritten = size + bytes number w.chunks
  bound : w.bytesWritten ≤ max cfg.maxBytes size + bytes number (capMarkers w.chunks)
  marker : (capMarkers w.chunks).length ≤ 1
  uncapped : w.capped = false → capMarkers w.chunks = []
  emptied : w.capped = true → w.pendingLines = [] ∧ w.droppedWhileBackpressured = 0
  exact : w.capped = false → (lines w.chunks).length + reported w.chunks + todo.length + w.pendingLines.length +
    w.droppedWhileBackpressured + w.late = w.appended.length
  atMost : (lines w.chunks).length + reported w.chunks + todo.length + w.pendingLines.length +
    w.droppedWhileBackpressured + w.late ≤ w.appended.length

theorem Accounts.writeEntry {line : Text} (h : Accounts number cfg size [line] w) (hcapped : w.capped = false)
    (hfits : w.bytesWritten + (Chunk.entry line).byteLength number ≤ cfg.maxBytes) :
    Accounts number cfg size [] (writeDirect number cfg w (.entry line)) where
  order := by simpa [writeDirect] using h.order
  written := by
    have hwritten := h.written
    simp only [writeDirect, bytes_append, bytes_singleton]
    omega
  bound := by
    simp only [writeDirect, capMarkers_append, capMarkers_entry, List.append_nil]
    omega
  marker := by simpa [writeDirect] using h.marker
  uncapped := by simpa [writeDirect] using h.uncapped
  emptied := by simp [writeDirect, hcapped]
  exact := by
    intro _
    have hexact := h.exact hcapped
    simp only [writeDirect, lines_append, lines_entry, reported_append, reported_entry, List.length_append,
      List.length_singleton, List.length_nil] at hexact ⊢
    omega
  atMost := by
    have hatMost := h.atMost
    simp only [writeDirect, lines_append, lines_entry, reported_append, reported_entry, List.length_append,
      List.length_singleton, List.length_nil] at hatMost ⊢
    omega

theorem Accounts.cap (h : Accounts number cfg size todo w) (hcapped : w.capped = false) :
    Accounts number cfg size [] (capWithMarker number cfg w now) := by
  have hmarkers := h.uncapped hcapped
  have hwritten := h.written
  have hbound := h.bound
  have hatMost := h.atMost
  simp only [capWithMarker, hcapped, writeDirect]
  constructor
  · have horder : (lines w.chunks).Sublist (lines w.chunks ++ todo ++ w.pendingLines) := by
      rw [List.append_assoc]
      exact List.sublist_append_left _ _
    simpa using horder.trans h.order
  · simp only [Bool.false_eq_true, if_false, bytes_append, bytes_singleton]
    omega
  · simp only [Bool.false_eq_true, if_false, capMarkers_append, capMarkers_sizeCapped, hmarkers, List.nil_append,
      bytes_singleton, bytes_nil] at hbound ⊢
    omega
  · simp [hmarkers]
  · simp
  · simp
  · simp
  · simp only [Bool.false_eq_true, if_false, lines_append, lines_sizeCapped, reported_append, reported_sizeCapped,
      List.append_nil, List.length_nil]
    omega

theorem Accounts.writeCountedEntry {line : Text} (h : Accounts number cfg size [line] w) (hcapped : w.capped = false) :
    Accounts number cfg size [] (writeCounted number cfg w (.entry line) now) := by
  unfold writeCounted
  split
  · exact h.cap hcapped
  · exact h.writeEntry hcapped (by omega)

theorem Accounts.shift {line : Text} {rest : List Text} (h : Accounts number cfg size [] w)
    (hpending : w.pendingLines = line :: rest) (hcapped : w.capped = false) :
    Accounts number cfg size [line] { w with pendingLines := rest } where
  order := by simpa [hpending] using h.order
  written := h.written
  bound := h.bound
  marker := h.marker
  uncapped := h.uncapped
  emptied := by simp [hcapped]
  exact := by
    intro _
    have hexact := h.exact hcapped
    simp only [hpending, List.length_cons, List.length_nil] at hexact ⊢
    omega
  atMost := by
    have hatMost := h.atMost
    simp only [hpending, List.length_cons, List.length_nil] at hatMost ⊢
    omega

theorem writeCounted_cases (c : Chunk) : (writeCounted number cfg w c now = w ∧ w.capped = true) ∨
    writeCounted number cfg w c now =
      writeDirect number cfg { w with capped := true, pendingLines := [], droppedWhileBackpressured := 0 }
        (.sizeCapped w.droppedWhileBackpressured now.sizeCapped) ∨
    writeCounted number cfg w c now = writeDirect number cfg w c := by
  unfold writeCounted
  split
  · unfold capWithMarker
    split
    · rename_i hcapped
      exact .inl ⟨rfl, hcapped⟩
    · exact .inr (.inl rfl)
  · exact .inr (.inr rfl)

theorem pendingLines_writeCounted (c : Chunk) : (writeCounted number cfg w c now).pendingLines = w.pendingLines ∨
      (writeCounted number cfg w c now).capped = true := by
  obtain ⟨h, -⟩ | h | h := @writeCounted_cases number cfg w now c
  · exact .inl (congrArg _ h)
  · rw [h]
    exact .inr rfl
  · rw [h]
    exact .inl rfl

theorem frame_writeCounted (c : Chunk) :
    (writeCounted number cfg w c now).failed = w.failed ∧ (writeCounted number cfg w c now).closed = w.closed ∧
      (writeCounted number cfg w c now).ended = w.ended ∧
      (writeCounted number cfg w c now).closeResolve = w.closeResolve := by
  obtain ⟨h, -⟩ | h | h := @writeCounted_cases number cfg w now c
  all_goals
    rw [h]
    exact ⟨rfl, rfl, rfl, rfl⟩

theorem Accounts.flushLines {pending : List Text} (h : Accounts number cfg size [] w)
    (hpending : w.pendingLines = pending) :
    Accounts number cfg size [] (LogWriter.flushLines number cfg now pending w) ∧
      ((LogWriter.flushLines number cfg now pending w).pendingLines = [] ∨
        (LogWriter.flushLines number cfg now pending w).failed = true ∨
        (LogWriter.flushLines number cfg now pending w).backpressured = true) := by
  induction pending generalizing w with
  | nil =>
    have hw : LogWriter.flushLines number cfg now [] w = w := by
      rw [LogWriter.flushLines, ← hpending]
    rw [hw]
    exact ⟨h, .inl hpending⟩
  | cons next rest ih =>
    unfold LogWriter.flushLines
    split
    · rename_i hstop
      have hw : { w with pendingLines := next :: rest } = w := by rw [← hpending]
      rw [hw]
      refine ⟨h, ?_⟩
      simp only [Bool.or_eq_true] at hstop
      obtain (hfailed | hcapped) | hfull := hstop
      · exact .inr (.inl hfailed)
      · exact .inl (h.emptied hcapped).1
      · exact .inr (.inr hfull)
    · rename_i hgo
      simp only [Bool.or_eq_true, not_or, Bool.not_eq_true] at hgo
      obtain ⟨⟨-, hcapped⟩, -⟩ := hgo
      have hstep := @Accounts.writeCountedEntry number cfg size _ now next (h.shift hpending hcapped) hcapped
      dsimp only
      split
      · rename_i hcap
        exact ⟨hstep, .inl (hstep.emptied hcap).1⟩
      · rename_i hcap
        refine ih hstep ?_
        obtain hkept | hcap' := @pendingLines_writeCounted number cfg { w with pendingLines := rest } now (.entry next)
        · exact hkept
        · exact absurd hcap' hcap

theorem Accounts.reportDropped (h : Accounts number cfg size [] w) :
    Accounts number cfg size [] (LogWriter.reportDropped number cfg w now) := by
  unfold LogWriter.reportDropped
  split
  · rename_i hgo
    have hcapped : w.capped = false := by
      simp only [Bool.and_eq_true, Bool.not_eq_true'] at hgo
      exact hgo.1.2
    unfold writeCounted
    split
    · have hcap := @Accounts.cap number cfg size [] w now h hcapped
      have hset : (capWithMarker number cfg w now).capped = true := by simp [capWithMarker, hcapped, writeDirect]
      simp only [hset, if_true]
      exact hcap
    · rename_i hfits
      have hwritten := h.written
      simp only [writeDirect, hcapped, Bool.false_eq_true, if_false]
      constructor
      · simpa using h.order
      · simp only [bytes_append, bytes_singleton]
        omega
      · simp only [capMarkers_append, capMarkers_entriesDropped, List.append_nil]
        omega
      · simpa using h.marker
      · simpa using h.uncapped hcapped
      · simp
      · intro _
        have hexact := h.exact hcapped
        simp only [lines_append, lines_entriesDropped, reported_append, reported_entriesDropped, List.append_nil]
        omega
      · have hatMost := h.atMost
        simp only [lines_append, lines_entriesDropped, reported_append, reported_entriesDropped, List.append_nil]
        omega
  · exact h

def Writer.Empty (w : Writer) : Prop := w.pendingLines = [] ∧ w.droppedWhileBackpressured = 0

structure Rests (w : Writer) : Prop where
  idle : w.backpressured = false → w.failed = false → w.Empty
  ended : w.ended = true → w.Empty ∧ w.closed = true
  closing : w.closeResolve = true → w.closed = true

theorem empty_writeCounted (c : Chunk) (h : w.Empty) : (writeCounted number cfg w c now).Empty := by
  obtain ⟨hw, -⟩ | hw | hw := @writeCounted_cases number cfg w now c
  · rw [hw]
    exact h
  · rw [hw]
    exact ⟨rfl, rfl⟩
  · rw [hw]
    exact h

theorem frame_flushLines (pending : List Text) :
    (flushLines number cfg now pending w).failed = w.failed ∧ (flushLines number cfg now pending w).closed = w.closed ∧
      (flushLines number cfg now pending w).ended = w.ended ∧
      (flushLines number cfg now pending w).closeResolve = w.closeResolve := by
  induction pending generalizing w with
  | nil => exact ⟨rfl, rfl, rfl, rfl⟩
  | cons next rest ih =>
    unfold flushLines
    split
    · exact ⟨rfl, rfl, rfl, rfl⟩
    · have hframe := @frame_writeCounted number cfg { w with pendingLines := rest } now (.entry next)
      dsimp only
      split
      · exact hframe
      · have hrest := @ih (writeCounted number cfg { w with pendingLines := rest } (.entry next) now)
        rw [hframe.1, hframe.2.1, hframe.2.2.1, hframe.2.2.2] at hrest
        exact hrest

theorem frame_reportDropped : (reportDropped number cfg w now).failed = w.failed ∧
    (reportDropped number cfg w now).closed = w.closed ∧ (reportDropped number cfg w now).ended = w.ended ∧
      (reportDropped number cfg w now).closeResolve = w.closeResolve := by
  unfold reportDropped
  split
  · have hframe := @frame_writeCounted number cfg w now
      (.entriesDropped w.droppedWhileBackpressured now.entriesDropped)
    dsimp only
    split <;> exact hframe
  · exact ⟨rfl, rfl, rfl, rfl⟩

theorem idle_flush (h : Accounts number cfg size [] w) (hfailed : w.failed = false)
    (hidle : (reportDropped number cfg (flushLines number cfg now w.pendingLines w) now).backpressured = false) :
    (reportDropped number cfg (flushLines number cfg now w.pendingLines w) now).Empty := by
  obtain ⟨hflushed, hstop⟩ := @Accounts.flushLines number cfg size w now _ h rfl
  have hkept := (@frame_flushLines number cfg w now w.pendingLines).1
  have hreport := @Accounts.reportDropped number cfg size _ now hflushed
  generalize flushLines number cfg now w.pendingLines w = v at hflushed hstop hkept hreport hidle
  rw [hfailed] at hkept
  rw [hkept] at hstop
  unfold reportDropped at hreport hidle ⊢
  split
  · rename_i hgo
    have hfull : v.backpressured = false := by
      simp only [Bool.and_eq_true, Bool.not_eq_true'] at hgo
      exact hgo.2
    have hpending : v.pendingLines = [] := by simpa [hfull] using hstop
    rw [if_pos hgo] at hreport
    dsimp only at hreport ⊢
    split
    · rename_i hcap
      rw [if_pos hcap] at hreport
      exact hreport.emptied hcap
    · rename_i hcap
      obtain hsame | hcap' := @pendingLines_writeCounted number cfg v now
        (.entriesDropped v.droppedWhileBackpressured now.entriesDropped)
      · exact ⟨hsame.trans hpending, rfl⟩
      · exact absurd hcap' hcap
  · rename_i hgo
    rw [if_neg hgo] at hidle
    have hpending : v.pendingLines = [] := by simpa [hidle] using hstop
    refine ⟨hpending, ?_⟩
    cases hcapped : v.capped with
    | true => exact (hflushed.emptied hcapped).2
    | false =>
      simp only [hkept, hcapped, hidle, Bool.not_false, Bool.and_true, decide_eq_true_eq] at hgo
      omega

theorem empty_flush (h : w.Empty) : reportDropped number cfg (flushLines number cfg now w.pendingLines w) now = w := by
  have hw : flushLines number cfg now w.pendingLines w = w := by
    rw [h.1, flushLines, ← h.1]
  rw [hw, reportDropped, h.2]
  rfl

theorem Accounts.finishCloseIfReady (h : Accounts number cfg size [] w) :
    Accounts number cfg size [] (LogWriter.finishCloseIfReady w) := by
  unfold LogWriter.finishCloseIfReady
  split
  · exact h
  · exact ⟨h.order, h.written, h.bound, h.marker, h.uncapped, h.emptied, h.exact, h.atMost⟩

theorem Rests.finishCloseIfReady (h : Rests w) (hfailed : w.failed = false) :
    Rests (LogWriter.finishCloseIfReady w) := by
  unfold LogWriter.finishCloseIfReady
  split
  · exact h
  · rename_i hready
    simp only [Bool.or_eq_true, Bool.not_eq_true', not_or, Bool.not_eq_false, Bool.not_eq_true] at hready
    have hempty := h.idle hready.1.2 hfailed
    exact ⟨fun _ _ => hempty, fun _ => ⟨hempty, h.closing hready.1.1⟩, nofun⟩

theorem Accounts.flushPending (h : Accounts number cfg size [] w) :
    Accounts number cfg size [] (LogWriter.flushPending number cfg w now) := by
  unfold LogWriter.flushPending
  split
  · exact h
  · exact (h.flushLines rfl).1.reportDropped.finishCloseIfReady

theorem rests_flushPending (h : Accounts number cfg size [] w) (hended : w.ended = true → w.Empty ∧ w.closed = true)
    (hclosing : w.closeResolve = true → w.closed = true) : Rests (flushPending number cfg w now) := by
  unfold flushPending
  split
  · rename_i hstop
    refine ⟨?_, hended, hclosing⟩
    intro hfull hfailed
    simp [hfull, hfailed] at hstop
  · rename_i hgo
    have hfailed : w.failed = false := by
      simp only [Bool.or_eq_true, not_or, Bool.not_eq_true] at hgo
      exact hgo.1
    have hreport := @frame_reportDropped number cfg (flushLines number cfg now w.pendingLines w) now
    have hflush := @frame_flushLines number cfg w now w.pendingLines
    refine Rests.finishCloseIfReady ⟨fun hfull _ => idle_flush h hfailed hfull, ?_, ?_⟩ ?_
    · intro he
      rw [hreport.2.2.1, hflush.2.2.1] at he
      rw [empty_flush (hended he).1]
      exact hended he
    · intro hc
      rw [hreport.2.2.2, hflush.2.2.2] at hc
      rw [hreport.2.1, hflush.2.1]
      exact hclosing hc
    · rw [hreport.1, hflush.1]
      exact hfailed

theorem Accounts.recordLate (h : Accounts number cfg size [] w) (line : Text) :
    Accounts number cfg size [] { w with appended := w.appended ++ [line], late := w.late + 1 } where
  order := h.order.trans (List.sublist_append_left _ _)
  written := h.written
  bound := h.bound
  marker := h.marker
  uncapped := h.uncapped
  emptied := h.emptied
  exact := by
    intro hcapped
    have hexact := h.exact hcapped
    simp only [List.length_append, List.length_singleton]
    omega
  atMost := by
    have hatMost := h.atMost
    simp only [List.length_append, List.length_singleton]
    omega

theorem Accounts.recordEntry (h : Accounts number cfg size [] w) (hempty : w.pendingLines = []) (line : Text) :
    Accounts number cfg size [line] { w with appended := w.appended ++ [line], late := w.late + 0 } where
  order := by
    have horder := h.order
    rw [hempty, List.append_nil, List.append_nil] at horder
    rw [hempty, List.append_nil]
    exact horder.append (List.Sublist.refl _)
  written := h.written
  bound := h.bound
  marker := h.marker
  uncapped := h.uncapped
  emptied := h.emptied
  exact := by
    intro hcapped
    have hexact := h.exact hcapped
    simp only [List.length_append, List.length_singleton, List.length_nil] at hexact ⊢
    omega
  atMost := by
    have hatMost := h.atMost
    simp only [List.length_append, List.length_singleton, List.length_nil] at hatMost ⊢
    omega

theorem Accounts.recordEnqueue (h : Accounts number cfg size [] w) (hcapped : w.capped = false) (line : Text) :
    Accounts number cfg size []
      (enqueueOrDrop cfg { w with appended := w.appended ++ [line], late := w.late + 0 } line) := by
  have hexact := h.exact hcapped
  unfold enqueueOrDrop
  split
  · refine ⟨?_, h.written, h.bound, h.marker, h.uncapped, ?_, ?_, ?_⟩
    · rw [← List.append_assoc]
      exact h.order.append (List.Sublist.refl _)
    · simp [hcapped]
    · intro _
      simp only [List.length_append, List.length_singleton]
      omega
    · simp only [List.length_append, List.length_singleton]
      omega
  · refine ⟨h.order.trans (List.sublist_append_left _ _), h.written, h.bound, h.marker, h.uncapped, ?_, ?_, ?_⟩
    · simp [hcapped]
    · intro _
      simp only [List.length_append, List.length_singleton]
      omega
    · simp only [List.length_append, List.length_singleton]
      omega

theorem accounts_write (h : Accounts number cfg size [] w) (hrests : Rests w) (entry : Json) (throws : Bool) :
    Accounts number cfg size [] (write number cfg (record number w entry throws) entry throws now) ∧
      Rests (write number cfg (record number w entry throws) entry throws now) := by
  cases throws with
  | true =>
    have hwrite : write number cfg (record number w entry true) entry true now = w := by
      simp [write, record]
    rw [hwrite]
    exact ⟨h, hrests⟩
  | false =>
    by_cases hgone : (w.failed || w.capped || w.closed) = true
    · have hwrite : write number cfg (record number w entry false) entry false now =
          { w with appended := w.appended ++ [stringify number entry ++ ['\n']], late := w.late + 1 } := by
        simp only [write, record, Bool.false_eq_true, if_false, hgone, if_true]
      rw [hwrite]
      exact ⟨h.recordLate _, hrests.idle, hrests.ended, hrests.closing⟩
    · have hgo := hgone
      simp only [Bool.or_eq_true, not_or, Bool.not_eq_true] at hgo
      obtain ⟨⟨hfailed, hcapped⟩, hclosed⟩ := hgo
      have hended : w.ended = false := by
        cases he : w.ended with
        | false => rfl
        | true =>
          rw [(hrests.ended he).2] at hclosed
          cases hclosed
      have hclosing : w.closeResolve = false := by
        cases hc : w.closeResolve with
        | false => rfl
        | true =>
          rw [hrests.closing hc] at hclosed
          cases hclosed
      simp only [write, record, Bool.false_eq_true, if_false, hgone]
      split
      · rename_i hfull
        refine ⟨h.recordEnqueue hcapped _, ?_⟩
        unfold enqueueOrDrop
        split <;> refine ⟨?_, ?_, ?_⟩ <;> simp [hfull, hended, hclosing]
      · rename_i hfull
        have hempty := hrests.idle (by simpa using hfull) hfailed
        refine ⟨(h.recordEntry hempty.1 _).writeCountedEntry hcapped, ?_⟩
        have hframe := @frame_writeCounted number cfg
          { w with appended := w.appended ++ [stringify number entry ++ ['\n']], late := w.late + 0 } now
          (.entry (stringify number entry ++ ['\n']))
        refine ⟨fun _ _ => empty_writeCounted _ hempty, ?_, ?_⟩
        · rw [hframe.2.2.1, hended]
          exact nofun
        · rw [hframe.2.2.2, hclosing]
          exact nofun

theorem accounts_step (h : Accounts number cfg size [] w) (hrests : Rests w) (e : Event) :
    Accounts number cfg size [] (step number cfg w e) ∧ Rests (step number cfg w e) := by
  cases e with
  | write entry throws now => exact accounts_write h hrests entry throws
  | drain now =>
    unfold step
    dsimp only
    split
    · exact ⟨h, hrests⟩
    · have hdrained : Accounts number cfg size [] { w with backpressured := false } :=
        ⟨h.order, h.written, h.bound, h.marker, h.uncapped, h.emptied, h.exact, h.atMost⟩
      exact ⟨hdrained.flushPending, rests_flushPending hdrained hrests.ended hrests.closing⟩
  | error =>
    refine ⟨⟨h.order, h.written, h.bound, h.marker, h.uncapped, h.emptied, h.exact, h.atMost⟩, ?_⟩
    refine ⟨fun _ hfailed => ?_, hrests.ended, nofun⟩
    cases hfailed
  | close now =>
    unfold step close
    dsimp only
    split
    · exact ⟨h, hrests⟩
    · rename_i hopen
      have hended : w.ended ≠ true := fun he => hopen (hrests.ended he).2
      have hclosing : Accounts number cfg size [] { w with closed := true, closeResolve := true } :=
        ⟨h.order, h.written, h.bound, h.marker, h.uncapped, h.emptied, h.exact, h.atMost⟩
      have haccounts := @Accounts.flushPending number cfg size _ now hclosing
      have hrest : Rests (flushPending number cfg { w with closed := true, closeResolve := true } now) :=
        rests_flushPending hclosing (fun he => absurd he hended) fun _ => rfl
      split
      · exact ⟨⟨haccounts.order, haccounts.written, haccounts.bound, haccounts.marker, haccounts.uncapped,
          haccounts.emptied, haccounts.exact, haccounts.atMost⟩, hrest.idle, hrest.ended, nofun⟩
      · rename_i hfailed
        exact ⟨haccounts.finishCloseIfReady, hrest.finishCloseIfReady (by simpa using hfailed)⟩
  | timeout =>
    unfold step
    dsimp only
    split
    · exact ⟨⟨h.order, h.written, h.bound, h.marker, h.uncapped, h.emptied, h.exact, h.atMost⟩,
        hrests.idle, hrests.ended, nofun⟩
    · exact ⟨h, hrests⟩

theorem accounts_run (es : List Event) :
    Accounts number cfg size [] (run number cfg size es) ∧ Rests (run number cfg size es) := by
  unfold run
  have hstart : Accounts number cfg size [] (createRunLogFileWriter size) ∧ Rests (createRunLogFileWriter size) :=
    ⟨⟨List.Sublist.refl _, rfl, Nat.le_max_right _ _, Nat.zero_le _, fun _ => rfl, nofun, fun _ => rfl, Nat.le_refl _⟩,
      fun _ _ => ⟨rfl, rfl⟩, nofun, nofun⟩
  generalize createRunLogFileWriter size = w at hstart
  induction es generalizing w with
  | nil => exact hstart
  | cons e es ih => exact ih _ (accounts_step hstart.1 hstart.2 e)

theorem OnDisk.lines_sublist {chunks : List Chunk} (d : OnDisk number chunks) :
    d.lines.Sublist (LogWriter.lines chunks) := (List.take_sublist _ _).filterMap _

theorem OnDisk.bytes_le {chunks : List Chunk} (d : OnDisk number chunks) : d.bytes ≤ LogWriter.bytes number chunks := by
  have htorn := d.torn_le
  have hsplit : LogWriter.bytes number chunks =
      LogWriter.bytes number (chunks.take d.whole) + LogWriter.bytes number (chunks.drop d.whole) := by
    rw [← bytes_append, List.take_append_drop]
  have hnext : LogWriter.bytes number ((chunks.drop d.whole).take 1) ≤
      LogWriter.bytes number (chunks.drop d.whole) := by
    conv_rhs => rw [← List.take_append_drop 1 (chunks.drop d.whole), bytes_append]
    exact Nat.le_add_right _ _
  unfold OnDisk.bytes
  omega

end Laws

/-- Whatever part of the writes has reached the file: it holds appended entries in their order, and exceeds the
cap, or the size it was opened with, by one truncation marker at most.  Until the cap every entry is written,
reported, buffered, counted or late, and an ended stream leaves none buffered or counted. -/
theorem writer_accounts (number : ℚ → String) (cfg : Config) (size : Nat) (es : List Event) :
    let w := run number cfg size es
    (∀ d : OnDisk number w.chunks, d.lines.Sublist w.appended ∧
      size + d.bytes ≤ max cfg.maxBytes size + bytes number (capMarkers w.chunks)) ∧
    (capMarkers w.chunks).length ≤ 1 ∧
    (w.capped = false → (lines w.chunks).length + reported w.chunks + w.pendingLines.length +
      w.droppedWhileBackpressured + w.late = w.appended.length) ∧
    (w.ended = true → w.pendingLines = [] ∧ w.droppedWhileBackpressured = 0) ∧
    (lines w.chunks).length + reported w.chunks ≤ w.appended.length := by
  obtain ⟨h, hrests⟩ := @accounts_run number cfg size es
  dsimp only
  generalize run number cfg size es = w at h hrests
  have hatMost := h.atMost
  refine ⟨?_, h.marker, ?_, fun he => (hrests.ended he).1, by omega⟩
  · intro d
    have hwritten : (lines w.chunks).Sublist (lines w.chunks ++ [] ++ w.pendingLines) := by
      rw [List.append_assoc]
      exact List.sublist_append_left _ _
    refine ⟨(d.lines_sublist.trans hwritten).trans h.order, ?_⟩
    have hbound := h.bound
    have hbytes := d.bytes_le
    rw [h.written] at hbound
    omega
  · intro hcapped
    have hexact := h.exact hcapped
    simpa using hexact

theorem writer_cap_unreported :
    let now : Clock := ⟨0, 0⟩
    let entry := Event.write (.str "x") false now
    let w := run (fun _ => "0") ⟨6, 10, fun k => k = 0⟩ 0 [entry, entry, entry, .drain now, .close now]
    let reopened := run (fun _ => "0") ⟨6, 10, fun _ => false⟩ 66 [entry, .close now]
    (w.ended = true ∧ w.appended.length = 3 ∧ (lines w.chunks).length = 1 ∧ reported w.chunks = 0) ∧
      (reopened.ended = true ∧ 6 + bytes (fun _ => "0") (capMarkers reopened.chunks) < reopened.bytesWritten) := by
  decide +kernel

end A2Wave.LogWriter
