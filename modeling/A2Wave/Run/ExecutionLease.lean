import Mathlib
import A2Wave.Lib.Fault
import A2Wave.Queue.Capacity

/-! The execution lease at the end of a run: `finishRunSuccess` and `finishRunError` of `lib/run-lifecycle.ts`,
with every failure of their writes. -/

namespace A2Wave.FinishRun

open Capacity

structure Weather where
  transition : Option Fault := none
  beforeRecovery : Db → Db := id
  recovery : Option Fault := none
  beforeReread : Db → Db := id
  getRunStatusFails : Bool := false
  cancelLateStepFails : Bool := false
  cleanupFails : Bool := false

inductive TerminalTransitionOutcome
  | owned
  | lost
  | recovered
  deriving DecidableEq

structure FinishRunParams where
  runId : String
  stepId : String
  trace : ExecutionTrace := {}

inductive Finisher
  | success (result : ExecuteWorkerResult)
  | error (errorMsg : String)

structure Finished where
  returned : Bool
  leases : List ExecutionLease
  db : Db

section Definitions

variable (host : Host) (w : Weather) (db : Db) (params : FinishRunParams)

def attemptTerminalTransition (s : Settlement) (recoveryError : String) : TerminalTransitionOutcome × Db :=
  match withFault w.transition db (terminalTransition host db params.runId params.stepId s) with
  | (some true, db) => (.owned, db)
  | (some false, db) => (.lost, db)
  | (none, db) =>
    let db := w.beforeRecovery db
    match withFault w.recovery db (.ok (runLevelRecovery host db params.runId params.stepId recoveryError) : Tx Bool) with
    | (some true, db) => (.recovered, db)
    | (_, db) => (.lost, db)

def getRunStatus (runId : String) : Option RunStatus := (db.runs.find? runId).map Run.status

def cleanupFinishedExecution : Finished where
  returned := !w.cleanupFails
  leases := if w.cleanupFails then host.executionLeases else completeExecutionLease host.executionLeases params.runId
  db := db

def afterLoss : Finished :=
  if w.getRunStatusFails then ⟨false, host.executionLeases, db⟩
  else
    match getRunStatus db params.runId with
    | some .cancelled =>
      let f := cleanupFinishedExecution host w (if w.cancelLateStepFails then db else cancelLateStep db params.stepId) params
      { f with returned := f.returned && !w.cancelLateStepFails }
    | none => ⟨true, completeExecutionLease host.executionLeases params.runId, db⟩
    | some .running => cleanupFinishedExecution host w db params
    | some _ => ⟨true, host.executionLeases, db⟩

def settle (s : Settlement) (recoveryError : String) : Finished :=
  match attemptTerminalTransition host w db params s recoveryError with
  | (.lost, db) => afterLoss host w (w.beforeReread db) params
  | (_, db) => cleanupFinishedExecution host w db params

def finishRunSuccess (result : ExecuteWorkerResult) : Finished :=
  settle host w db params (successSettlement result params.trace) (lostOwnership params.stepId)

def finishRunError (errorMsg : String) : Finished :=
  settle host w db params (failureSettlement errorMsg params.trace) errorMsg

def finish : Finisher → Finished
  | .success result => finishRunSuccess host w db params result
  | .error errorMsg => finishRunError host w db params errorMsg

def Finisher.settlement (trace : ExecutionTrace) : Finisher → Settlement
  | .success result => successSettlement result trace
  | .error errorMsg => failureSettlement errorMsg trace

def Finisher.recoveryError (stepId : String) : Finisher → String
  | .success _ => lostOwnership stepId
  | .error errorMsg => errorMsg

def sweepStaleLeases (leases : List ExecutionLease) : List ExecutionLease :=
  leases.filter fun lease => (getRunStatus db lease.runId).isSome

def holdsLease (leases : List ExecutionLease) (runId : String) : Prop := ∃ lease ∈ leases, lease.runId = runId

def stepRunning (stepId : String) : Prop := (db.runSteps.find? stepId).map RunStep.status = some .running

def Owns : Prop :=
  w.transition = none ∧ getRunStatus db params.runId = some .running ∧ stepRunning db params.stepId

def leftBy (s : Settlement) : Db :=
  (withFault w.transition db (terminalTransition host db params.runId params.stepId s)).2

def Recovers (s : Settlement) : Prop :=
  (w.transition ≠ none ∨ getRunStatus db params.runId = some .running ∧ ¬ stepRunning db params.stepId) ∧
    w.recovery = none ∧ getRunStatus (w.beforeRecovery (leftBy host w db params s)) params.runId = some .running

def reread (s : Settlement) (recoveryError : String) : Option RunStatus :=
  getRunStatus (w.beforeReread (attemptTerminalTransition host w db params s recoveryError).2) params.runId

end Definitions

section Spec

variable {host : Host} {w : Weather} {db db' : Db} {params : FinishRunParams} {s : Settlement} {recoveryError : String}
  {won : Bool}

theorem getRunStatus_ne (h : ∀ r, db.runs.find? params.runId = some r → r.status ≠ .running) :
    getRunStatus db params.runId ≠ some .running := by
  intro hstatus
  obtain ⟨r, hr, hrunning⟩ := Option.map_eq_some_iff.mp hstatus
  exact h r hr hrunning

theorem terminalTransition_ok (h : terminalTransition host db params.runId params.stepId s = .ok (won, db')) :
    won = true ∧ getRunStatus db params.runId = some .running ∧ stepRunning db params.stepId ∨
      won = false ∧ getRunStatus db params.runId ≠ some .running := by
  obtain ⟨rfl, -, hnot⟩ | ⟨rfl, db₁, hcas, hstep⟩ := terminalTransition_cases h
  · exact .inr ⟨rfl, getRunStatus_ne hnot⟩
  · refine .inl ⟨rfl, ?_, ?_⟩
    · obtain ⟨r, hr, hrunning, -⟩ := Db.casRun_some hcas
      rw [getRunStatus, hr, Option.map_some]
      simpa using hrunning
    · obtain ⟨-, -, -, rfl⟩ := Db.casRun_some hcas
      simp only [Db.casStep, Option.map_eq_some_iff] at hstep
      obtain ⟨t, ht, -⟩ := hstep
      obtain ⟨step, hfind, hrunning, -⟩ := Table.cas_some ht
      have hfind : db.runSteps.find? params.stepId = some step := hfind
      rw [stepRunning, hfind, Option.map_some]
      simpa using hrunning

theorem terminalTransition_error {e : DbError}
    (h : terminalTransition host db params.runId params.stepId s = .error e) :
    getRunStatus db params.runId = some .running ∧ ¬ stepRunning db params.stepId := by
  unfold terminalTransition at h
  split at h
  · cases h
  · rename_i db₁ hcas
    split at h
    · rename_i hstep
      obtain ⟨r, hr, hrunning, rfl⟩ := Db.casRun_some hcas
      refine ⟨?_, ?_⟩
      · rw [getRunStatus, hr, Option.map_some]
        simpa using hrunning
      · intro hstepRunning
        obtain ⟨step, hfind, hstatus⟩ := Option.map_eq_some_iff.mp hstepRunning
        simp only [Db.casStep, Option.map_eq_none_iff] at hstep
        have hnot := Table.cas_eq_none_iff.mp hstep step hfind
        simp [hstatus] at hnot
    · cases h

theorem runLevelRecovery_fst : (runLevelRecovery host db params.runId params.stepId recoveryError).1 = true ↔
    getRunStatus db params.runId = some .running := by
  cases hresult : runLevelRecovery host db params.runId params.stepId recoveryError with
  | mk won db' =>
    obtain ⟨rfl, -, hnot⟩ | ⟨rfl, db₁, hcas, -⟩ := runLevelRecovery_cases hresult
    · exact ⟨fun hfalse => absurd hfalse (by simp), fun hstatus => absurd hstatus (getRunStatus_ne hnot)⟩
    · refine ⟨fun _ => ?_, fun _ => rfl⟩
      obtain ⟨r, hr, hrunning, -⟩ := Db.casRun_some hcas
      rw [getRunStatus, hr, Option.map_some]
      simpa using hrunning

theorem attempt_of_throws (h : (withFault w.transition db
      (terminalTransition host db params.runId params.stepId s)).1 = none) :
    (attemptTerminalTransition host w db params s recoveryError).1 = .lost ↔
      ¬ (w.recovery = none ∧ getRunStatus (w.beforeRecovery (leftBy host w db params s)) params.runId = some .running) := by
  obtain ⟨left, hleft⟩ : ∃ left, withFault w.transition db
      (terminalTransition host db params.runId params.stepId s) = (none, left) := ⟨_, Prod.ext h rfl⟩
  have hleftBy : leftBy host w db params s = left := by
    rw [leftBy, hleft]
  rw [hleftBy, attemptTerminalTransition, hleft]
  dsimp only
  have hrecovery : (runLevelRecovery host (w.beforeRecovery left) params.runId params.stepId recoveryError).1 = true ↔
        getRunStatus (w.beforeRecovery left) params.runId = some .running := runLevelRecovery_fst
  cases hfault : w.recovery with
  | none =>
    rw [← hrecovery]
    cases hresult : (runLevelRecovery host (w.beforeRecovery left) params.runId params.stepId recoveryError) with
    | mk won db' => cases won <;> simp [withFault]
  | some fault =>
    cases fault <;> simp [withFault]

theorem attempt_lost_iff : (attemptTerminalTransition host w db params s recoveryError).1 = .lost ↔
    ¬ (Owns w db params ∨ Recovers host w db params s) := by
  cases htx : (withFault w.transition db (terminalTransition host db params.runId params.stepId s)).1 with
  | none =>
    have hthrows : w.transition ≠ none ∨
        getRunStatus db params.runId = some .running ∧ ¬ stepRunning db params.stepId := by
      obtain hfault | ⟨e, herror⟩ := withFault_throws htx
      · exact .inl hfault
      · exact .inr (terminalTransition_error herror)
    have howns : ¬ Owns w db params := by
      rintro ⟨hnone, -, hstep⟩
      obtain hfault | ⟨-, hnot⟩ := hthrows
      · exact hfault hnone
      · exact hnot hstep
    rw [attempt_of_throws htx]
    simp [howns, Recovers, hthrows]
  | some won =>
    obtain ⟨hfault, db', htransition⟩ := withFault_ok htx
    have hattempt : (attemptTerminalTransition host w db params s recoveryError).1 = if won then .owned else .lost := by
      rw [attemptTerminalTransition, htransition, hfault]
      cases won <;> rfl
    rw [hattempt]
    obtain ⟨rfl, hrunning, hstep⟩ | ⟨rfl, hnot⟩ := terminalTransition_ok htransition
    · simp [Owns, hfault, hrunning, hstep]
    · simp [Owns, Recovers, hfault, hnot]

theorem not_holdsLease_complete {leases : List ExecutionLease} {runId : String} :
    ¬ holdsLease (completeExecutionLease leases runId) runId := by
  rintro ⟨lease, hmem, heq⟩
  simp [completeExecutionLease, heq] at hmem

theorem cleanup_completes (h : (cleanupFinishedExecution host w db params).returned = true) :
    ¬ holdsLease (cleanupFinishedExecution host w db params).leases params.runId := by
  have hcleanup : w.cleanupFails = false := by simpa [cleanupFinishedExecution] using h
  simp only [cleanupFinishedExecution, hcleanup]
  exact not_holdsLease_complete

theorem afterLoss_completes_iff (h : (afterLoss host w db params).returned = true)
    (hheld : holdsLease host.executionLeases params.runId) :
    ¬ holdsLease (afterLoss host w db params).leases params.runId ↔
      getRunStatus db params.runId ∈ [none, some .cancelled, some .running] := by
  unfold afterLoss at h ⊢
  split at h
  · cases h
  · rename_i hreread
    rw [if_neg hreread]
    split at h <;> rename_i hstatus <;> simp only [hstatus]
    · have hcleanup := (Bool.and_eq_true_iff.mp h).1
      simp [cleanup_completes hcleanup]
    · simp [not_holdsLease_complete]
    · simp [cleanup_completes h]
    · rename_i status hcancelled hrunning
      simp only [hheld, not_true_eq_false, List.mem_cons, Option.some.injEq, reduceCtorEq, List.not_mem_nil, or_false,
        false_or, false_iff, not_or]
      exact ⟨hcancelled, hrunning⟩

theorem settle_completes_iff (h : (settle host w db params s recoveryError).returned = true)
    (hheld : holdsLease host.executionLeases params.runId) :
    ¬ holdsLease (settle host w db params s recoveryError).leases params.runId ↔
      Owns w db params ∨ Recovers host w db params s ∨
        reread host w db params s recoveryError ∈ [none, some .cancelled, some .running] := by
  have hlost : (attemptTerminalTransition host w db params s recoveryError).1 = .lost ↔ _ := attempt_lost_iff
  unfold settle reread at *
  cases hattempt : attemptTerminalTransition host w db params s recoveryError with
  | mk outcome db' =>
    rw [hattempt] at h hlost
    have hwon (houtcome : outcome ≠ .lost) : Owns w db params ∨ Recovers host w db params s := by
      by_contra hnot
      exact houtcome (hlost.mpr hnot)
    rw [← or_assoc]
    cases outcome with
    | lost =>
      have hnot := hlost.mp rfl
      simp only [hnot, false_or]
      exact afterLoss_completes_iff h hheld
    | owned | recovered =>
      simp only [hwon (by simp), true_or, iff_true]
      exact cleanup_completes h

end Spec

/-- A finisher that returns has completed the lease exactly when it settled the row itself, or found it
gone, cancelled or running afterwards. -/
theorem finisher_completes_lease_iff (host : Host) (w : Weather) (db : Db) (params : FinishRunParams) (call : Finisher)
    (h : (finish host w db params call).returned = true) (hheld : holdsLease host.executionLeases params.runId) :
    ¬ holdsLease (finish host w db params call).leases params.runId ↔
      Owns w db params ∨ Recovers host w db params (call.settlement params.trace) ∨
        reread host w db params (call.settlement params.trace) (call.recoveryError params.stepId) ∈
          [none, some .cancelled, some .running] := by
  cases call with
  | success result | error errorMsg => exact settle_completes_iff h hheld

def runningDb : Db where
  runs := .single { id := "run_1", status := .running }
  runSteps := ⟨[{ id := "step_1", runId := "run_1", order := 0, status := .running }], by decide⟩

def leasingHost : Host where
  processInstanceId := "host-1"
  executionLeases := [⟨"run_1", some "agent_1"⟩]

def finishedParams : FinishRunParams where
  runId := "run_1"
  stepId := "step_1"

theorem finisher_completes_lease_iff_rolledBack :
    (finish leasingHost { transition := some .rolledBack } runningDb finishedParams (.error "timeout")).returned = true ∧
      ¬ holdsLease (finish leasingHost { transition := some .rolledBack } runningDb finishedParams
        (.error "timeout")).leases "run_1" := by
  have hreturned : (finish leasingHost { transition := some .rolledBack } runningDb finishedParams
      (.error "timeout")).returned = true := by decide +kernel
  refine ⟨hreturned, ?_⟩
  apply (finisher_completes_lease_iff leasingHost _ runningDb finishedParams _ hreturned ⟨_, List.mem_singleton_self _, rfl⟩).mpr
  exact .inr (.inl ⟨.inl (by simp), rfl, by decide +kernel⟩)

theorem finisher_leaks_lease : (finish leasingHost { transition := some .applied } runningDb finishedParams
        (.success { success := true, output := "ok" })).returned = true ∧
      holdsLease (sweepStaleLeases
        (finish leasingHost { transition := some .applied } runningDb finishedParams
          (.success { success := true, output := "ok" })).db
        (finish leasingHost { transition := some .applied } runningDb finishedParams
          (.success { success := true, output := "ok" })).leases) "run_1" :=
  ⟨by decide +kernel, ⟨"run_1", some "agent_1"⟩, by decide +kernel, rfl⟩

end A2Wave.FinishRun
