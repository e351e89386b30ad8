import Mathlib.Logic.Function.Basic
import A2Wave.Lib.Transition

/-! `engine/cli-process-runner.ts`: the runs of agent CLIs that one runner owns, under every order
of the events of their children, of their timers, of requests to stop them and of the attempts
to kill their process trees. -/

namespace A2Wave.CliProcess

open Transition

inductive CliProcessExitReason
  | completed
  | timeout
  | cancelled
  | spawnError
  deriving DecidableEq, Repr

inductive TerminationReason
  | timeout
  | cancelled
  deriving DecidableEq, Repr

def TerminationReason.exit : TerminationReason → CliProcessExitReason
  | timeout => .timeout
  | cancelled => .cancelled

inductive Origin
  | refusal
  | close
  | error
  deriving DecidableEq, Repr

structure CliProcessRunResult where
  reason : CliProcessExitReason
  exitCode : Option Int := none
  signal : Option String := none
  stderr : String := ""
  durationMs : Nat := 0
  error : Option String := none
  origin : Origin
  deriving DecidableEq

structure Settlement where
  result : CliProcessRunResult
  decodeFailed : Bool
  requested : Option TerminationReason
  groupGone : Bool
  attemptFinished : Bool
  forceKillSent : Bool
  deriving DecidableEq

structure ActiveProcess where
  taskId : String
  startedAt : Nat := 0
  hasPid : Bool := true
  terminationReason : Option TerminationReason := none
  timeout : Bool := true
  forceKillTimer : Bool := false
  forceKillSent : Bool := false
  abortListener : Bool := false
  pendingCloseResult : Option CliProcessRunResult := none
  terminationAttempt : Option Nat := none
  decodeError : Option String := none
  finalized : Bool := false
  attempts : Nat := 0
  outstanding : List Nat := []
  /-- The child has emitted its `close` and its `error`. -/
  closed : Bool := false
  errored : Bool := false
  requests : List TerminationReason := []
  groupGone : Bool := false
  attemptFinished : Bool := false
  resolutions : List Settlement := []
  deriving DecidableEq

structure Moment where
  now : Nat := 0
  stderr : String := ""

/-- The outcome of a signal: `child.kill` may emit an `error` before it returns. -/
structure Kill where
  moment : Moment := {}
  error : Option String := none

namespace ActiveProcess

section Model

variable (win32 : Bool)

def settlement (a : ActiveProcess) (result : CliProcessRunResult) : Settlement :=
  ⟨result, a.decodeError.isSome, a.requests.head?, a.groupGone, a.attemptFinished, a.forceKillSent⟩

def finalize (a : ActiveProcess) (result : CliProcessRunResult) : ActiveProcess :=
  if a.finalized then a
  else
    { a with
      finalized := true
      timeout := false
      forceKillTimer := false
      abortListener := false
      resolutions := a.resolutions ++ [a.settlement result] }

def exitReason (a : ActiveProcess) (otherwise : CliProcessExitReason) : CliProcessExitReason :=
  if a.decodeError.isSome then .spawnError
  else (a.terminationReason.map TerminationReason.exit).getD otherwise

def errorResult (a : ActiveProcess) (m : Moment) (error : String) : CliProcessRunResult where
  reason := a.exitReason .spawnError
  stderr := m.stderr
  durationMs := m.now - a.startedAt
  error := a.decodeError.or (some error)
  origin := .error

def closeResult (a : ActiveProcess) (m : Moment) (exitCode : Option Int) (signal : Option String) :
    CliProcessRunResult where
  reason := a.exitReason .completed
  exitCode := if a.decodeError.isSome then none else exitCode
  signal := if a.decodeError.isSome then none else signal
  stderr := m.stderr
  durationMs := m.now - a.startedAt
  error := a.decodeError
  origin := .close

/-- The handler of the child's `error`. -/
def onError (a : ActiveProcess) (m : Moment) (error : String) : ActiveProcess :=
  let b := { a with errored := true }
  let result := b.errorResult m error
  if b.terminationReason.isSome && b.terminationAttempt.isSome
  then { b with pendingCloseResult := some result } else b.finalize result

/-- `isCliProcessGroupAlive`, with the answer of the probe. -/
def isProcessGroupAlive (a : ActiveProcess) (alive : Bool) : Bool := !win32 && a.hasPid && alive

/-- The handler of the child's `close`. -/
def onClose (a : ActiveProcess) (m : Moment) (exitCode : Option Int) (signal : Option String) (alive : Bool) :
    ActiveProcess :=
  let gone := !win32 && !a.isProcessGroupAlive win32 alive
  let b := { a with closed := true, groupGone := a.groupGone || gone }
  let result := b.closeResult m exitCode signal
  if b.terminationReason.isSome &&
      (b.terminationAttempt.isSome || (!b.forceKillSent && a.isProcessGroupAlive win32 alive))
  then { b with pendingCloseResult := some result } else b.finalize result

/-- `signalCliProcessTree` up to its return; the listener for `error` runs once. -/
def signalProcessTree (a : ActiveProcess) (k : Kill) : ActiveProcess :=
  match k.error with
  | none => a
  | some error => if a.errored then a else a.onError k.moment error

def startTerminationAttempt (a : ActiveProcess) (k : Kill) : ActiveProcess :=
  let b := a.signalProcessTree k
  if win32 then
    { b with
      terminationAttempt := some b.attempts
      attempts := b.attempts + 1
      outstanding := b.attempts :: b.outstanding }
  else b

def request (a : ActiveProcess) (reason : TerminationReason) : ActiveProcess :=
  { a with
    terminationReason := a.terminationReason.or (some reason)
    requests := a.requests ++ [reason] }

def terminate (a : ActiveProcess) (reason : TerminationReason) (k : Kill) : ActiveProcess :=
  let b := a.request reason
  if b.forceKillTimer || b.forceKillSent then b
  else { b.startTerminationAttempt win32 k with forceKillTimer := true }

def forceKillFires (a : ActiveProcess) : ActiveProcess :=
  { a with forceKillTimer := false, forceKillSent := true }

def forceKill (a : ActiveProcess) (k : Kill) : ActiveProcess :=
  let b := a.forceKillFires.startTerminationAttempt win32 k
  match b.pendingCloseResult with
  | none => b
  | some result => if b.terminationAttempt.isNone then b.finalize result else b

def attemptDone (a : ActiveProcess) (attempt : Nat) : ActiveProcess :=
  let b := { a with outstanding := a.outstanding.erase attempt, attemptFinished := true }
  if b.terminationAttempt ≠ some attempt then b
  else
    let c := { b with terminationAttempt := none }
    match c.pendingCloseResult with
    | none => c
    | some result => c.finalize result

end Model

end ActiveProcess

/-- The calls of `run` that have spawned a child, and the map of the task ids. -/
structure World where
  runs : List ActiveProcess := []
  activeProcesses : String → Option Nat := fun _ => none

structure CliProcessRunOptions where
  taskId : String
  hasAbortSignal : Bool := false
  aborted : Bool := false
  abortedWhileSpawning : Bool := false
  spawnError : Option String := none
  hasPid : Bool := true

inductive Event
  | run (options : CliProcessRunOptions) (m : Moment)
  /-- Also the first part of `cancelAndWait`, which `shutdown` calls for every task. -/
  | cancel (taskId : String) (k : Kill)
  | timeout (i : Nat) (k : Kill)
  | abort (i : Nat) (k : Kill)
  | forceKill (i : Nat) (k : Kill)
  | attemptDone (i attempt : Nat)
  | decodeFails (i : Nat) (error : String) (k : Kill)
  | close (i : Nat) (m : Moment) (exitCode : Option Int) (signal : Option String) (alive : Bool)
  | error (i : Nat) (m : Moment) (error : String)

namespace World

section Model

variable (win32 : Bool)

def put (w : World) (i : Nat) (a : ActiveProcess) : World where
  runs := w.runs.set i a
  activeProcesses := if a.finalized && w.activeProcesses a.taskId = some i
    then Function.update w.activeProcesses a.taskId none else w.activeProcesses

def terminate (w : World) (taskId : String) (reason : TerminationReason) (k : Kill) : World :=
  match w.activeProcesses taskId with
  | none => w
  | some i =>
    match w.runs[i]? with
    | none => w
    | some a => w.put i (a.terminate win32 reason k)

/-- The result of a call of `run` that spawns nothing. -/
def refuse (w : World) (options : CliProcessRunOptions) : Option CliProcessRunResult :=
  let taskId := options.taskId
  if (w.activeProcesses options.taskId).isSome then
    some { reason := .spawnError, error := some s!"Task \"{taskId}\" is already running", origin := .refusal }
  else if options.aborted then some { reason := .cancelled, origin := .refusal }
  else options.spawnError.map fun error =>
    { reason := .spawnError, error := some error, origin := .refusal }

def spawned (options : CliProcessRunOptions) (m : Moment) : ActiveProcess :=
  { taskId := options.taskId, startedAt := m.now, hasPid := options.hasPid
    abortListener := options.hasAbortSignal && !options.abortedWhileSpawning }

def add (w : World) (a : ActiveProcess) : World where
  runs := w.runs ++ [a]
  activeProcesses := Function.update w.activeProcesses a.taskId (some w.runs.length)

def step (w : World) : Event → Option World
  | .run options m =>
    match w.refuse options with
    | some _ => some w
    | none =>
      let w' := w.add (spawned options m)
      some (if options.abortedWhileSpawning then w'.terminate win32 options.taskId .cancelled {} else w')
  | .cancel taskId k => some (w.terminate win32 taskId .cancelled k)
  | .timeout i k => w.runs[i]?.bind fun a =>
      if a.timeout then some ((w.put i { a with timeout := false }).terminate win32 a.taskId .timeout k) else none
  | .abort i k => w.runs[i]?.bind fun a =>
      if a.abortListener
      then some ((w.put i { a with abortListener := false }).terminate win32 a.taskId .cancelled k) else none
  | .forceKill i k => w.runs[i]?.bind fun a =>
      if a.forceKillTimer then some (w.put i (a.forceKill win32 k)) else none
  | .attemptDone i attempt => w.runs[i]?.bind fun a =>
      if attempt ∈ a.outstanding then some (w.put i (a.attemptDone attempt)) else none
  | .decodeFails i error k => w.runs[i]?.bind fun a =>
      -- no output comes after `close`
      if a.closed then none
      else if a.decodeError.isSome then some w
      else some ((w.put i { a with decodeError := some error }).terminate win32 a.taskId .cancelled k)
  | .close i m exitCode signal alive => w.runs[i]?.bind fun a =>
      if a.closed then none else some (w.put i (a.onClose win32 m exitCode signal alive))
  | .error i m error => w.runs[i]?.bind fun a =>
      if a.errored then none else some (w.put i (a.onError m error))

end Model

end World

structure Settlement.Right (s : Settlement) : Prop where
  decoding : s.decodeFailed = true → s.result.reason = .spawnError
  reason : s.decodeFailed = false → ∀ x ∈ s.requested, s.result.reason = x.exit
  tree : s.result.origin = .close → s.requested.isSome →
    s.groupGone = true ∨ s.attemptFinished = true ∨ s.forceKillSent = true

namespace ActiveProcess

structure Sound (win32 : Bool) (a : ActiveProcess) : Prop where
  count : a.resolutions.length = if a.finalized then 1 else 0
  right : ∀ s ∈ a.resolutions, s.Right
  first : a.requests.head? = a.terminationReason
  attempt : ∀ n ∈ a.terminationAttempt, n ∈ a.outstanding
  posix : win32 = false → a.terminationAttempt = none

structure Held (a : ActiveProcess) : Prop where
  closed : a.closed = true → a.pendingCloseResult.isSome
  requested : a.pendingCloseResult.isSome → a.terminationReason.isSome
  awaited : a.pendingCloseResult.isSome → a.terminationAttempt.isSome ∨ a.closed = true
  verdict : ∀ r ∈ a.pendingCloseResult, r.reason = .spawnError ∧ a.decodeError.isSome ∨
      a.terminationReason.map TerminationReason.exit = some r.reason
  decoded : a.closed = true → ∀ r ∈ a.pendingCloseResult, a.decodeError.isSome → r.reason = .spawnError

structure Escalated (win32 : Bool) (a : ActiveProcess) : Prop where
  timer : a.forceKillTimer = true ∨ a.forceKillSent = true → a.terminationReason.isSome
  armed : a.terminationReason.isSome → a.forceKillTimer = true ∨ a.forceKillSent = true
  tried : win32 = true → a.terminationReason.isSome → a.terminationAttempt.isSome ∨ a.attemptFinished = true
  sent : a.pendingCloseResult.isSome → a.forceKillSent = true → a.terminationAttempt.isSome

structure Inv (win32 : Bool) (a : ActiveProcess) : Prop where
  sound : a.Sound win32
  held : a.finalized = false → a.Held
  escalated : a.finalized = false → a.Escalated win32

structure Keeps (a b : ActiveProcess) : Prop where
  taskId : b.taskId = a.taskId
  finalized : a.finalized = true → b.finalized = true

structure Frame (a b : ActiveProcess) : Prop extends Keeps a b where
  terminationReason : b.terminationReason = a.terminationReason
  forceKillSent : b.forceKillSent = a.forceKillSent

section Steps

variable {win32 : Bool} {a : ActiveProcess}

variable {otherwise : CliProcessExitReason}

theorem exitReason_decoded (h : a.decodeError.isSome) : a.exitReason otherwise = .spawnError := by
  simp [exitReason, h]

theorem exitReason_requested {x : TerminationReason}
    (hdec : a.decodeError.isSome = false) (hx : a.terminationReason = some x) :
    a.exitReason otherwise = x.exit := by
  simp [exitReason, hdec, hx]

theorem exitReason_verdict (h : a.terminationReason.isSome) :
    a.exitReason otherwise = .spawnError ∧ a.decodeError.isSome ∨
      a.terminationReason.map TerminationReason.exit = some (a.exitReason otherwise) := by
  obtain ⟨x, hx⟩ := Option.isSome_iff_exists.mp h
  by_cases hdec : a.decodeError.isSome = true
  · exact .inl ⟨exitReason_decoded hdec, hdec⟩
  · rw [exitReason_requested (by simpa using hdec) hx, hx]
    exact .inr rfl

variable {result : CliProcessRunResult}

theorem finalize_eq (hlive : a.finalized = false) : a.finalize result =
      { a with finalized := true, timeout := false, forceKillTimer := false, abortListener := false,
               resolutions := a.resolutions ++ [a.settlement result] } := by
  simp [finalize, hlive, settlement]

theorem Sound.finalize (h : a.Sound win32)
    (hright : a.finalized = false → (a.settlement result).Right) : (a.finalize result).Sound win32 := by
  cases hfin : a.finalized with
  | true =>
    have heq : a.finalize result = a := by simp [ActiveProcess.finalize, hfin]
    rw [heq]
    exact h
  | false =>
    rw [finalize_eq hfin]
    have hcount := h.count
    rw [hfin] at hcount
    refine ⟨by simpa using hcount, ?_, h.first, h.attempt, h.posix⟩
    intro s hs
    obtain hold | hnew := List.mem_append.mp hs
    · exact h.right s hold
    · rw [List.mem_singleton.mp hnew]
      exact hright hfin

@[simp] theorem finalize_finalized (result : CliProcessRunResult) : (a.finalize result).finalized = true := by
  unfold finalize
  split
  · assumption
  · rfl

theorem finalize_frame (a : ActiveProcess) (result : CliProcessRunResult) : Frame a (a.finalize result) := by
  unfold finalize
  split
  · exact ⟨⟨rfl, id⟩, rfl, rfl⟩
  · exact ⟨⟨rfl, fun _ => rfl⟩, rfl, rfl⟩

theorem Sound.inv_finalize (h : a.Sound win32)
    (hright : a.finalized = false → (a.settlement result).Right) : (a.finalize result).Inv win32 := by
  have hdone : (a.finalize result).finalized ≠ false := by simp
  exact ⟨h.finalize hright, fun hlive => absurd hlive hdone, fun hlive => absurd hlive hdone⟩

theorem Sound.requested_eq (h : a.Sound win32) (result : CliProcessRunResult) :
    (a.settlement result).requested = a.terminationReason := h.first

theorem settlement_right
    (h : a.Sound win32) (hreason : result.reason = a.exitReason otherwise)
    (htree : result.origin = .close → a.terminationReason.isSome →
      a.groupGone = true ∨ a.attemptFinished = true ∨ a.forceKillSent = true) :
    (a.settlement result).Right where
  decoding := fun hdec => hreason.trans (exitReason_decoded hdec)
  reason := by
    intro hdec x hx
    rw [h.requested_eq] at hx
    exact hreason.trans (exitReason_requested hdec hx)
  tree := by
    intro horigin hreq
    rw [h.requested_eq] at hreq
    exact htree horigin hreq

theorem settlement_right_pending (h : a.Sound win32)
    (hverdict : result.reason = .spawnError ∧ a.decodeError.isSome ∨
      a.terminationReason.map TerminationReason.exit = some result.reason)
    (hdecoded : a.decodeError.isSome → result.reason = .spawnError)
    (htree : a.attemptFinished = true ∨ a.forceKillSent = true) : (a.settlement result).Right where
  decoding := hdecoded
  reason := by
    intro hdec x hx
    rw [h.requested_eq, Option.mem_def] at hx
    obtain ⟨-, hsome⟩ | hmap := hverdict
    · exact absurd hsome (by rw [show a.decodeError.isSome = false from hdec]; decide)
    · rw [hx] at hmap
      exact (Option.some.inj hmap).symm
  tree := fun _ _ => .inr htree

theorem onError_frame (a : ActiveProcess) (m : Moment) (error : String) : Frame a (a.onError m error) := by
  simp only [onError]
  split
  · exact ⟨⟨rfl, id⟩, rfl, rfl⟩
  · have hfin := finalize_frame { a with errored := true }
      ({ a with errored := true }.errorResult m error)
    exact ⟨⟨hfin.taskId, hfin.finalized⟩, hfin.terminationReason, hfin.forceKillSent⟩

theorem onError_sound (h : a.Sound win32) (m : Moment) (error : String) : (a.onError m error).Sound win32 := by
  have hb : { a with errored := true }.Sound win32 := ⟨h.count, h.right, h.first, h.attempt, h.posix⟩
  simp only [onError]
  split
  · exact ⟨h.count, h.right, h.first, h.attempt, h.posix⟩
  · exact hb.finalize fun _ => settlement_right hb rfl (fun horigin => by cases horigin)

theorem onError_live {m : Moment} {error : String} (hlive : (a.onError m error).finalized = false) :
    a.onError m error =
        { a with errored := true, pendingCloseResult := some ({ a with errored := true }.errorResult m error) } ∧
      a.terminationReason.isSome ∧ a.terminationAttempt.isSome := by
  simp only [onError] at hlive ⊢
  split at hlive
  · rename_i hheld
    rw [if_pos hheld]
    exact ⟨rfl, by simpa using hheld⟩
  · simp at hlive

theorem onError_held {m : Moment} {error : String} (hlive : (a.onError m error).finalized = false) :
    (a.onError m error).Held := by
  obtain ⟨heq, hreason, hattempt⟩ := onError_live hlive
  rw [heq]
  refine ⟨fun _ => rfl, fun _ => hreason, fun _ => .inl hattempt, ?_, ?_⟩
  · rintro r ⟨⟩
    exact exitReason_verdict hreason
  · rintro - r ⟨⟩ hdec
    exact exitReason_decoded hdec

theorem onError_inv (h : a.Inv win32) (m : Moment) (error : String) : (a.onError m error).Inv win32 := by
  refine ⟨onError_sound h.sound m error, onError_held, ?_⟩
  intro hlive
  obtain ⟨heq, -, hattempt⟩ := onError_live hlive
  rw [heq] at hlive ⊢
  have hesc := h.escalated hlive
  exact ⟨hesc.timer, hesc.armed, hesc.tried, fun _ _ => hattempt⟩

theorem signalProcessTree_cases (a : ActiveProcess) (k : Kill) :
    a.signalProcessTree k = a ∨ ∃ error, a.signalProcessTree k = a.onError k.moment error := by
  unfold signalProcessTree
  split
  · exact .inl rfl
  · rename_i error _
    split
    · exact .inl rfl
    · exact .inr ⟨error, rfl⟩

theorem signalProcessTree_frame (a : ActiveProcess) (k : Kill) : Frame a (a.signalProcessTree k) := by
  obtain heq | ⟨error, heq⟩ := signalProcessTree_cases a k
  · rw [heq]
    exact ⟨⟨rfl, id⟩, rfl, rfl⟩
  · rw [heq]
    exact onError_frame a k.moment error

theorem startTerminationAttempt_frame (win32 : Bool) (a : ActiveProcess) (k : Kill) : Frame a (a.startTerminationAttempt win32 k) := by
  have hframe := signalProcessTree_frame a k
  unfold startTerminationAttempt
  split
  · exact ⟨⟨hframe.taskId, hframe.finalized⟩, hframe.terminationReason, hframe.forceKillSent⟩
  · exact hframe

theorem startTerminationAttempt_sound (h : a.Sound win32) (k : Kill) :
    (a.startTerminationAttempt win32 k).Sound win32 := by
  have hsignal : (a.signalProcessTree k).Sound win32 := by
    obtain heq | ⟨error, heq⟩ := signalProcessTree_cases a k
    · rwa [heq]
    · rw [heq]
      exact onError_sound h k.moment error
  unfold startTerminationAttempt
  split
  · rename_i hwin
    refine ⟨hsignal.count, hsignal.right, hsignal.first, ?_, fun hposix => absurd hposix (by simp [hwin])⟩
    rintro n ⟨⟩
    exact List.mem_cons_self
  · exact hsignal

theorem startTerminationAttempt_held (win32 : Bool) (h : a.finalized = false → a.Held) (k : Kill)
    (hlive : (a.startTerminationAttempt win32 k).finalized = false) :
    (a.startTerminationAttempt win32 k).Held := by
  have hsignal : (a.signalProcessTree k).finalized = false → (a.signalProcessTree k).Held := by
    obtain heq | ⟨error, heq⟩ := signalProcessTree_cases a k
    · rwa [heq]
    · rw [heq]
      exact onError_held
  unfold startTerminationAttempt at hlive ⊢
  split at hlive
  · rename_i hwin
    have hheld := hsignal hlive
    rw [if_pos hwin]
    exact ⟨hheld.closed, hheld.requested, fun _ => .inl rfl, hheld.verdict, hheld.decoded⟩
  · rename_i hwin
    rw [if_neg hwin]
    exact hsignal hlive

theorem startTerminationAttempt_win32 (win32 : Bool) (a : ActiveProcess) (k : Kill) (hwin : win32 = true) :
    (a.startTerminationAttempt win32 k).terminationAttempt.isSome := by
  simp [startTerminationAttempt, hwin]

theorem terminate_keeps (reason : TerminationReason) (k : Kill) : Keeps a (a.terminate win32 reason k) := by
  simp only [terminate]
  split
  · exact ⟨rfl, id⟩
  · have hframe := startTerminationAttempt_frame win32 (a.request reason) k
    exact ⟨hframe.taskId, hframe.finalized⟩

theorem request_sound (h : a.Sound win32) (reason : TerminationReason) : (a.request reason).Sound win32 := by
  refine ⟨h.count, h.right, ?_, h.attempt, h.posix⟩
  simp only [request, List.head?_append, h.first, List.head?_cons]

theorem request_held (h : a.Held) (reason : TerminationReason) : (a.request reason).Held := by
  refine ⟨h.closed, fun _ => by simp [request], h.awaited, ?_, h.decoded⟩
  intro r hr
  obtain ⟨x, hx⟩ := Option.isSome_iff_exists.mp (h.requested (Option.isSome_iff_exists.mpr ⟨r, hr⟩))
  simpa [request, hx] using h.verdict r hr

theorem terminate_inv (h : a.Inv win32) (reason : TerminationReason) (k : Kill) :
    (a.terminate win32 reason k).Inv win32 := by
  have hsound := request_sound h.sound reason
  have hheld : (a.request reason).finalized = false → (a.request reason).Held :=
    fun hlive => request_held (h.held hlive) reason
  simp only [terminate]
  split
  · -- the escalation is under way already, so a reason was given before
    rename_i hunder
    refine ⟨hsound, hheld, ?_⟩
    intro hlive
    have hesc := h.escalated hlive
    have hunder' : a.forceKillTimer = true ∨ a.forceKillSent = true := by simpa [request] using hunder
    exact ⟨fun _ => by simp [request], fun _ => hunder', fun hwin _ => hesc.tried hwin (hesc.timer hunder'), hesc.sent⟩
  · rename_i hfirst
    have hframe := startTerminationAttempt_frame win32 (a.request reason) k
    have hsound' := startTerminationAttempt_sound hsound k
    refine ⟨⟨hsound'.count, hsound'.right, hsound'.first, hsound'.attempt, hsound'.posix⟩, ?_, ?_⟩
    · intro hlive
      have hheld' := startTerminationAttempt_held win32 hheld k hlive
      exact ⟨hheld'.closed, hheld'.requested, hheld'.awaited, hheld'.verdict, hheld'.decoded⟩
    · intro hlive
      have hsent : a.forceKillSent = false := by
        simp only [request, Bool.or_eq_true, not_or, Bool.not_eq_true] at hfirst
        exact hfirst.2
      refine ⟨?_, fun _ => .inl rfl, fun hwin _ => .inl (startTerminationAttempt_win32 win32 _ k hwin), ?_⟩
      · intro _
        exact hframe.terminationReason ▸ (by simp [request])
      · intro _ hafter
        have hafter' := hframe.forceKillSent.symm.trans hafter
        exact absurd (hsent.symm.trans hafter') (by decide)

theorem forceKill_keeps (k : Kill) : Keeps a (a.forceKill win32 k) := by
  have hframe := startTerminationAttempt_frame win32 a.forceKillFires k
  simp only [forceKill]
  split
  · exact ⟨hframe.taskId, hframe.finalized⟩
  · rename_i result _
    split
    · have hfin := finalize_frame (a.forceKillFires.startTerminationAttempt win32 k) result
      exact ⟨hfin.taskId.trans hframe.taskId, fun h => hfin.finalized (hframe.finalized h)⟩
    · exact ⟨hframe.taskId, hframe.finalized⟩

theorem forceKill_inv (h : a.Inv win32) (htimer : a.forceKillTimer = true) (k : Kill) :
    (a.forceKill win32 k).Inv win32 := by
  have hsound₀ : a.forceKillFires.Sound win32 :=
    ⟨h.sound.count, h.sound.right, h.sound.first, h.sound.attempt, h.sound.posix⟩
  have hheld₀ : a.forceKillFires.finalized = false → a.forceKillFires.Held := by
    intro hlive
    have hheld := h.held hlive
    exact ⟨hheld.closed, hheld.requested, hheld.awaited, hheld.verdict, hheld.decoded⟩
  have hframe := startTerminationAttempt_frame win32 a.forceKillFires k
  have hsound := startTerminationAttempt_sound hsound₀ k
  have hheld := startTerminationAttempt_held win32 hheld₀ k
  have hwin32 := startTerminationAttempt_win32 win32 a.forceKillFires k
  simp only [forceKill]
  generalize a.forceKillFires.startTerminationAttempt win32 k = b at *
  have hesc : b.finalized = false → (b.pendingCloseResult.isSome → b.terminationAttempt.isSome) →
      b.Escalated win32 := by
    intro hlive hsent
    have hlive₀ : a.finalized = false := by
      cases hfin : a.finalized with
      | false => rfl
      | true => exact absurd ((hframe.finalized hfin).symm.trans hlive) (by decide)
    have hreason : b.terminationReason.isSome :=
      hframe.terminationReason ▸ (h.escalated hlive₀).timer (.inl htimer)
    exact ⟨fun _ => hreason, fun _ => .inr hframe.forceKillSent, fun hwin _ => .inl (hwin32 hwin),
      fun hpend _ => hsent hpend⟩
  split
  · rename_i hpend
    exact ⟨hsound, hheld, fun hlive => hesc hlive (by simp [hpend])⟩
  · rename_i result hpend
    split
    · rename_i hnone
      refine hsound.inv_finalize fun hlive => ?_
      have hheld' := hheld hlive
      have hclosed : b.closed = true := by
        obtain hattempt | hclosed := hheld'.awaited (by simp [hpend])
        · exact absurd hattempt (by simpa using hnone)
        · exact hclosed
      exact settlement_right_pending hsound (hheld'.verdict result hpend)
        (hheld'.decoded hclosed result hpend) (.inr hframe.forceKillSent)
    · rename_i hattempt
      exact ⟨hsound, hheld, fun hlive => hesc hlive fun _ => by simpa [Option.isSome_iff_ne_none] using hattempt⟩

theorem attemptDone_keeps (a : ActiveProcess) (attempt : Nat) : Keeps a (a.attemptDone attempt) := by
  simp only [attemptDone]
  split
  · exact ⟨rfl, id⟩
  · split
    · exact ⟨rfl, id⟩
    · rename_i result _
      exact ⟨(finalize_frame _ result).taskId, fun _ => finalize_finalized result⟩

def DecodedFirst (a : ActiveProcess) (attempt : Nat) : Prop :=
  a.finalized = false → a.terminationAttempt = some attempt →
    ∀ r ∈ a.pendingCloseResult, a.decodeError.isSome → r.reason = .spawnError

theorem attemptDone_inv (h : a.Inv win32) {attempt : Nat} (hdecoded : a.DecodedFirst attempt) :
    (a.attemptDone attempt).Inv win32 := by
  simp only [attemptDone]
  split
  · rename_i hother
    refine ⟨⟨h.sound.count, h.sound.right, h.sound.first, ?_, h.sound.posix⟩, ?_, ?_⟩
    · intro n hn
      have hne : n ≠ attempt := fun heq => hother (heq ▸ hn)
      exact (List.mem_erase_of_ne hne).mpr (h.sound.attempt n hn)
    · intro hlive
      have hheld := h.held hlive
      exact ⟨hheld.closed, hheld.requested, hheld.awaited, hheld.verdict, hheld.decoded⟩
    · intro hlive
      have hesc := h.escalated hlive
      exact ⟨hesc.timer, hesc.armed, fun _ _ => .inr rfl, hesc.sent⟩
  · rename_i hthis
    have hattempt : a.terminationAttempt = some attempt := by simpa using hthis
    have hsound : { a with
        outstanding := a.outstanding.erase attempt
        attemptFinished := true
        terminationAttempt := none }.Sound win32 :=
      ⟨h.sound.count, h.sound.right, h.sound.first, fun _ hn => (by cases hn), fun _ => rfl⟩
    split
    · rename_i hpend
      refine ⟨hsound, ?_, ?_⟩
      · intro hlive
        have hheld := h.held hlive
        exact ⟨hheld.closed, hheld.requested, fun hsome => by simp [hpend] at hsome, hheld.verdict, hheld.decoded⟩
      · intro hlive
        have hesc := h.escalated hlive
        exact ⟨hesc.timer, hesc.armed, fun _ _ => .inr rfl, fun hsome => by simp [hpend] at hsome⟩
    · rename_i result hpend
      refine hsound.inv_finalize fun hlive => ?_
      exact settlement_right_pending hsound ((h.held hlive).verdict result hpend)
        (hdecoded hlive hattempt result hpend) (.inl rfl)

theorem onClose_keeps (a : ActiveProcess) (m : Moment) (exitCode : Option Int) (signal : Option String)
    (alive : Bool) : Keeps a (a.onClose win32 m exitCode signal alive) := by
  simp only [onClose]
  split
  · exact ⟨rfl, id⟩
  · exact ⟨(finalize_frame _ _).taskId, fun _ => finalize_finalized _⟩

theorem onClose_inv (h : a.Inv win32) (m : Moment) (exitCode : Option Int) (signal : Option String)
    (alive : Bool) : (a.onClose win32 m exitCode signal alive).Inv win32 := by
  simp only [onClose]
  split
  · rename_i hheld
    simp only [Bool.and_eq_true, Bool.or_eq_true, Bool.not_eq_true'] at hheld
    obtain ⟨hreason, hwait⟩ := hheld
    refine ⟨⟨h.sound.count, h.sound.right, h.sound.first, h.sound.attempt, h.sound.posix⟩, ?_, ?_⟩
    · intro _
      refine ⟨fun _ => rfl, fun _ => hreason, fun _ => .inr rfl, ?_, ?_⟩
      · rintro r ⟨⟩
        exact exitReason_verdict hreason
      · rintro - r ⟨⟩ hdec
        exact exitReason_decoded hdec
    · intro hlive
      have hesc := h.escalated hlive
      refine ⟨hesc.timer, hesc.armed, hesc.tried, ?_⟩
      intro _ hsent
      obtain hattempt | ⟨hunsent, -⟩ := hwait
      · exact hattempt
      · exact absurd (hunsent.symm.trans hsent) (by decide)
  · rename_i hnow
    simp only [Bool.and_eq_true, Bool.or_eq_true, Bool.not_eq_true', not_and_or, not_or] at hnow
    have hsound : { a with
        closed := true
        groupGone := a.groupGone || (!win32 && !a.isProcessGroupAlive win32 alive) }.Sound win32 :=
      ⟨h.sound.count, h.sound.right, h.sound.first, h.sound.attempt, h.sound.posix⟩
    refine hsound.inv_finalize fun hlive => settlement_right hsound rfl fun _ hreason => ?_
    obtain hnone | ⟨hattempt, hrest⟩ := hnow
    · exact absurd hreason hnone
    · obtain hsent | hdead := hrest
      · exact .inr (.inr (by simpa using hsent))
      · cases hwin : win32 with
        | false =>
          rw [hwin] at hdead
          have hgone : ActiveProcess.isProcessGroupAlive false a alive = false := by simpa using hdead
          exact .inl (by simp [hgone])
        | true =>
          obtain hsome | hdone := (h.escalated hlive).tried hwin hreason
          · exact absurd hsome hattempt
          · exact .inr (.inl hdone)

theorem Inv.settled (h : a.Inv win32) (hclosed : a.closed = true) (htimer : a.forceKillTimer = false)
    (hdone : a.outstanding = []) : a.finalized = true := by
  cases hlive : a.finalized with
  | true => rfl
  | false =>
    have hheld := h.held hlive
    have hesc := h.escalated hlive
    have hpend := hheld.closed hclosed
    have hsent : a.forceKillSent = true := by
      obtain harmed | hsent := hesc.armed (hheld.requested hpend)
      · exact absurd (htimer.symm.trans harmed) (by decide)
      · exact hsent
    obtain ⟨n, hn⟩ := Option.isSome_iff_exists.mp (hesc.sent hpend hsent)
    have hmem := h.sound.attempt n hn
    rw [hdone] at hmem
    cases hmem

theorem attemptDone_of_not_decodedFirst {attempt : Nat} (hstale : ¬a.DecodedFirst attempt) :
    ∃ s ∈ (a.attemptDone attempt).resolutions, s.decodeFailed = true ∧ s.result.reason ≠ .spawnError := by
  simp only [DecodedFirst, not_forall] at hstale
  obtain ⟨hlive, hattempt, r, hr, hdec, hreason⟩ := hstale
  have hpend : a.pendingCloseResult = some r := hr
  refine ⟨{ a with
    outstanding := a.outstanding.erase attempt
    attemptFinished := true
    terminationAttempt := none }.settlement r, ?_, hdec, hreason⟩
  simp [attemptDone, hattempt, hpend, finalize, hlive]

theorem Inv.disarmed (h : a.Inv win32) (timeout abortListener : Bool) :
    { a with timeout := timeout, abortListener := abortListener }.Inv win32 := by
  refine ⟨⟨h.sound.count, h.sound.right, h.sound.first, h.sound.attempt, h.sound.posix⟩, ?_, ?_⟩
  · intro hlive
    have hheld := h.held hlive
    exact ⟨hheld.closed, hheld.requested, hheld.awaited, hheld.verdict, hheld.decoded⟩
  · intro hlive
    have hesc := h.escalated hlive
    exact ⟨hesc.timer, hesc.armed, hesc.tried, hesc.sent⟩

theorem Inv.decodeFails (h : a.Inv win32) (hopen : a.closed = false) (error : String) :
    { a with decodeError := some error }.Inv win32 := by
  refine ⟨⟨h.sound.count, h.sound.right, h.sound.first, h.sound.attempt, h.sound.posix⟩, ?_, ?_⟩
  · intro hlive
    have hheld := h.held hlive
    refine ⟨hheld.closed, hheld.requested, hheld.awaited, ?_, ?_⟩
    · intro r hr
      obtain ⟨hreason, -⟩ | hmap := hheld.verdict r hr
      · exact .inl ⟨hreason, rfl⟩
      · exact .inr hmap
    · intro hclosed
      exact absurd (hopen.symm.trans hclosed) (by decide)
  · intro hlive
    have hesc := h.escalated hlive
    exact ⟨hesc.timer, hesc.armed, hesc.tried, hesc.sent⟩

theorem spawned_inv (options : CliProcessRunOptions) (m : Moment) : (World.spawned options m).Inv win32 where
  sound := ⟨rfl, fun _ h => (by cases h), rfl, fun _ h => (by cases h), fun _ => rfl⟩
  held := fun _ => ⟨nofun, nofun, nofun, nofun, nofun⟩
  escalated := fun _ => ⟨by simp [World.spawned], nofun, fun _ => nofun, nofun⟩

end Steps

end ActiveProcess

namespace World

structure Inv (win32 : Bool) (w : World) : Prop where
  runs : ∀ a ∈ w.runs, a.Inv win32
  activeProcesses : ∀ taskId i, w.activeProcesses taskId = some i ↔
    ∃ a, w.runs[i]? = some a ∧ a.taskId = taskId ∧ a.finalized = false

section Steps

variable {win32 : Bool} {w w' : World} {i : Nat} {a b : ActiveProcess}

theorem inv_empty : ({} : World).Inv win32 where
  runs := fun _ ha => by cases ha
  activeProcesses := by
    intro taskId i
    constructor
    · intro h
      cases h
    · rintro ⟨a, ha, -⟩
      cases ha

theorem Inv.mapped_iff (h : w.Inv win32) (hi : w.runs[i]? = some a) (taskId : String) :
    w.activeProcesses taskId = some i ↔ a.taskId = taskId ∧ a.finalized = false := by
  rw [h.activeProcesses, hi]
  simp

theorem put_mapped_self (h : w.Inv win32) (hi : w.runs[i]? = some a) (hkeeps : a.Keeps b) (taskId : String) :
    (w.put i b).activeProcesses taskId = some i ↔ b.taskId = taskId ∧ b.finalized = false := by
  have hentry := h.mapped_iff hi
  rw [← hkeeps.taskId] at hentry
  cases hfin : b.finalized with
  | true =>
    have hnone : (w.put i b).activeProcesses taskId ≠ some i := by
      intro hmap
      simp only [put, hfin, Bool.true_and, decide_eq_true_eq] at hmap
      split at hmap
      · by_cases htask : taskId = b.taskId
        · simp [htask] at hmap
        · rw [Function.update_of_ne htask] at hmap
          exact htask ((hentry taskId).mp hmap).1.symm
      · rename_i hother
        have hmapped := (hentry taskId).mp hmap
        exact hother (hmapped.1 ▸ hmap)
    simpa using hnone
  | false =>
    have hlive : a.finalized = false := by
      cases hfin' : a.finalized with
      | false => rfl
      | true => exact absurd ((hkeeps.finalized hfin').symm.trans hfin) (by decide)
    have hsame : (w.put i b).activeProcesses = w.activeProcesses := by simp [put, hfin]
    rw [hsame, hentry]
    simp [hlive]

theorem put_mapped_other {j : Nat} (hj : j ≠ i) (b : ActiveProcess) (taskId : String) :
    (w.put i b).activeProcesses taskId = some j ↔ w.activeProcesses taskId = some j := by
  simp only [put]
  split
  · rename_i hdone
    simp only [Bool.and_eq_true, decide_eq_true_eq] at hdone
    by_cases htask : taskId = b.taskId
    · rw [htask, Function.update_self, hdone.2]
      simpa using fun heq => hj heq.symm
    · rw [Function.update_of_ne htask]
  · rfl

theorem put_inv (h : w.Inv win32) (hi : w.runs[i]? = some a) (hkeeps : a.Keeps b) (hb : b.Inv win32) :
    (w.put i b).Inv win32 := by
  refine ⟨?_, ?_⟩
  · intro c hc
    obtain hold | rfl := List.mem_or_eq_of_mem_set hc
    · exact h.runs c hold
    · exact hb
  · intro taskId j
    by_cases hj : j = i
    · subst hj
      have hself : (w.put j b).runs[j]? = some b := by
        have hlt := (List.getElem?_eq_some_iff.mp hi).1
        simp [put, hlt]
      rw [put_mapped_self h hi hkeeps, hself]
      simp
    · have hother : (w.put i b).runs[j]? = w.runs[j]? := by simp [put, Ne.symm hj]
      rw [put_mapped_other hj, hother, h.activeProcesses]

theorem terminate_inv (h : w.Inv win32) (taskId : String) (reason : TerminationReason) (k : Kill) :
    (w.terminate win32 taskId reason k).Inv win32 := by
  unfold terminate
  split
  · exact h
  · split
    · exact h
    · rename_i a ha
      exact put_inv h ha (a.terminate_keeps reason k)
        (ActiveProcess.terminate_inv (h.runs a (List.mem_of_getElem? ha)) reason k)

theorem add_inv (h : w.Inv win32) (ha : a.Inv win32) (hlive : a.finalized = false)
    (hfree : w.activeProcesses a.taskId = none) : (w.add a).Inv win32 := by
  refine ⟨?_, ?_⟩
  · intro c hc
    obtain hold | hnew := List.mem_append.mp hc
    · exact h.runs c hold
    · rw [List.mem_singleton.mp hnew]
      exact ha
  · intro taskId j
    by_cases hj : j = w.runs.length
    · subst hj
      have hnone : w.activeProcesses taskId ≠ some w.runs.length := by
        intro hmap
        obtain ⟨a', ha', -⟩ := (h.activeProcesses taskId _).mp hmap
        simp at ha'
      by_cases htask : taskId = a.taskId
      · subst htask
        simp [add, hlive]
      · simp [add, htask, hnone, Ne.symm htask]
    · have hother : (w.add a).runs[j]? = w.runs[j]? := by
        obtain hlt | hgt := Nat.lt_or_gt_of_ne hj
        · exact List.getElem?_append_left hlt
        · have hle : (w.add a).runs.length ≤ j := by
            simp only [add, List.length_append, List.length_singleton]
            omega
          rw [List.getElem?_eq_none hle, List.getElem?_eq_none (Nat.le_of_lt hgt)]
      rw [hother, ← h.activeProcesses]
      by_cases htask : taskId = a.taskId
      · subst htask
        simp only [add, Function.update_self, hfree]
        simpa using fun heq => hj heq.symm
      · simp only [add, Function.update_of_ne htask]

def DecodedFirst (w : World) : Event → Prop
  | .attemptDone i attempt => ∀ a ∈ w.runs[i]?, a.DecodedFirst attempt
  | _ => True

theorem step_inv {e : Event} (hok : w.DecodedFirst e) (h : w.Inv win32) (hs : step win32 w e = some w') :
    w'.Inv win32 := by
  have hrun : ∀ {i : Nat} {a : ActiveProcess}, w.runs[i]? = some a → a.Inv win32 := fun hi => h.runs _ (List.mem_of_getElem? hi)
  cases e with
  | run options m =>
    simp only [step] at hs
    split at hs
    · cases hs
      exact h
    · rename_i hspawn
      have hfree : w.activeProcesses options.taskId = none := by
        simp only [refuse] at hspawn
        split at hspawn
        · cases hspawn
        · rename_i hfree
          simpa using hfree
      have hadd : (w.add (spawned options m)).Inv win32 :=
        add_inv h (ActiveProcess.spawned_inv options m) rfl hfree
      cases hs
      split
      · exact terminate_inv hadd _ _ _
      · exact hadd
  | cancel taskId k =>
    cases hs
    exact terminate_inv h taskId .cancelled k
  | timeout i k =>
    obtain ⟨a, hi, hs⟩ := Option.bind_eq_some_iff.mp hs
    split at hs
    · have hkeeps : a.Keeps { a with timeout := false } := ⟨rfl, id⟩
      cases hs
      exact terminate_inv (put_inv h hi hkeeps ((hrun hi).disarmed false a.abortListener)) _ _ _
    · cases hs
  | abort i k =>
    obtain ⟨a, hi, hs⟩ := Option.bind_eq_some_iff.mp hs
    split at hs
    · have hkeeps : a.Keeps { a with abortListener := false } := ⟨rfl, id⟩
      cases hs
      exact terminate_inv (put_inv h hi hkeeps ((hrun hi).disarmed a.timeout false)) _ _ _
    · cases hs
  | forceKill i k =>
    obtain ⟨a, hi, hs⟩ := Option.bind_eq_some_iff.mp hs
    split at hs
    · rename_i htimer
      cases hs
      exact put_inv h hi (ActiveProcess.forceKill_keeps k) (ActiveProcess.forceKill_inv (hrun hi) htimer k)
    · cases hs
  | attemptDone i attempt =>
    obtain ⟨a, hi, hs⟩ := Option.bind_eq_some_iff.mp hs
    split at hs
    · cases hs
      exact put_inv h hi (a.attemptDone_keeps attempt) (ActiveProcess.attemptDone_inv (hrun hi) (hok a hi))
    · cases hs
  | decodeFails i error k =>
    obtain ⟨a, hi, hs⟩ := Option.bind_eq_some_iff.mp hs
    split at hs
    · cases hs
    · rename_i hopen
      split at hs
      · cases hs
        exact h
      · have hkeeps : a.Keeps { a with decodeError := some error } := ⟨rfl, id⟩
        have hfails := (hrun hi).decodeFails (by simpa using hopen) error
        cases hs
        exact terminate_inv (put_inv h hi hkeeps hfails) _ _ _
  | close i m exitCode signal alive =>
    obtain ⟨a, hi, hs⟩ := Option.bind_eq_some_iff.mp hs
    split at hs
    · cases hs
    · cases hs
      exact put_inv h hi (a.onClose_keeps m exitCode signal alive)
        (ActiveProcess.onClose_inv (hrun hi) m exitCode signal alive)
  | error i m error =>
    obtain ⟨a, hi, hs⟩ := Option.bind_eq_some_iff.mp hs
    split at hs
    · cases hs
    · cases hs
      exact put_inv h hi (a.onError_frame m error).toKeeps (ActiveProcess.onError_inv (hrun hi) m error)

theorem decodedFirst_posix (h : w.Inv false) (e : Event) : w.DecodedFirst e := by
  cases e with
  | attemptDone i attempt =>
    intro a ha _ hattempt
    have hnone := (h.runs a (List.mem_of_getElem? ha)).sound.posix rfl
    rw [hnone] at hattempt
    cases hattempt
  | _ => trivial

theorem runs_decodedFirst_posix {es : List Event} (hinv : w.Inv false) (h : Runs (step false) free w es w') :
    Runs (step false) DecodedFirst w es w' := by
  induction h with
  | nil => exact .nil
  | @cons _ e _ _ _ _ hs _ ih =>
    have hdecoded := decodedFirst_posix hinv e
    exact .cons hdecoded hs (ih (step_inv hdecoded hinv hs))

theorem cli_process_settles_once (win32 : Bool) {es : List Event}
    (h : Runs (step win32) DecodedFirst {} es w) (hi : w.runs[i]? = some a) :
    a.resolutions.length ≤ 1 ∧ (w.activeProcesses a.taskId = some i ↔ a.resolutions = []) ∧
      (∀ s ∈ a.resolutions, s.Right) ∧
      (a.closed = true → a.forceKillTimer = false → a.outstanding = [] → a.resolutions ≠ []) := by
  have hinv : w.Inv win32 := h.invariant (fun _ _ _ hok hI hs => step_inv hok hI hs) inv_empty
  have hrun : a.Inv win32 := hinv.runs a (List.mem_of_getElem? hi)
  have hcount := hrun.sound.count
  have hempty : a.finalized = false ↔ a.resolutions = [] := by
    rw [← List.length_eq_zero_iff, hcount]
    cases a.finalized <;> simp
  refine ⟨?_, ?_, hrun.sound.right, ?_⟩
  · rw [hcount]
    split <;> decide
  · rw [hinv.mapped_iff hi]
    simpa using hempty
  · intro hclosed htimer hdone hnone
    have hfin := hrun.settled hclosed htimer hdone
    exact absurd (hfin.symm.trans (hempty.mpr hnone)) (by decide)

end Steps

end World

instance (a : ActiveProcess) (attempt : Nat) : Decidable (a.DecodedFirst attempt) :=
  inferInstanceAs (Decidable (a.finalized = false → a.terminationAttempt = some attempt →
    ∀ r ∈ a.pendingCloseResult, a.decodeError.isSome → r.reason = .spawnError))

instance (w : World) (e : Event) : Decidable (w.DecodedFirst e) :=
  match e with
  | .attemptDone i attempt => inferInstanceAs (Decidable (∀ a ∈ w.runs[i]?, a.DecodedFirst attempt))
  | .run _ _ | .cancel _ _ | .timeout _ _ | .abort _ _ | .forceKill _ _ | .decodeFails _ _ _ | .close _ _ _ _ _
  | .error _ _ _ => .isTrue trivial

section Runs

def decodedFirst : List Event :=
  [.run { taskId := "task_1" } {}, .decodeFails 0 "RangeError" {}, .error 0 {} "kill EPERM", .attemptDone 0 0]

theorem cli_process_settles_once_decodedFirst :
    ∃ w a, run (World.step true) {} decodedFirst = some w ∧ w.runs[0]? = some a ∧ a.resolutions.length ≤ 1 ∧
      (w.activeProcesses a.taskId = some 0 ↔ a.resolutions = []) ∧
      (∀ s ∈ a.resolutions, s.Right) ∧
      (a.closed = true → a.forceKillTimer = false → a.outstanding = [] → a.resolutions ≠ []) := by
  have hruns : Runs (World.step true) World.DecodedFirst {} decodedFirst _ := .of_guarded rfl
  exact ⟨_, _, rfl, rfl, World.cli_process_settles_once true hruns rfl⟩

theorem cli_process_hides_a_decoding_failure : ∃ w, run (World.step true) {}
        [.run { taskId := "task_1" } {}, .cancel "task_1" {}, .forceKill 0 {}, .error 0 {} "kill EPERM",
          .attemptDone 0 0, .decodeFails 0 "RangeError" {}, .attemptDone 0 1] = some w ∧
      ∃ a ∈ w.runs[0]?, ∃ s ∈ a.resolutions, s.decodeFailed = true ∧ s.result.reason = .cancelled :=
  exists_of_run_any (by decide +kernel)

end Runs

end A2Wave.CliProcess
