import A2Wave.Queue.TaskQueueDb

/-! The writes that settle a run: `lib/run-lifecycle.ts`, `lib/run-cancellation.ts`,
`lib/reap-run-claim.ts` and the preparation failures of `lib/execute-chat-run.ts`.  Each
definition is one transaction. -/

namespace A2Wave

structure ExecuteWorkerResult where
  success : Bool
  output : String := ""
  chatId : Option String := none
  error : Option String := none
  deriving DecidableEq

structure Settlement where
  status : RunStatus
  result : Fields
  stepStatus : StepStatus
  stepOutput : Fields
  durationMs : Nat
  deriving DecidableEq

def optStr : Option String → List (String × Json) → String → List (String × Json)
  | some s, fs, k => fs ++ [(k, .str s)]
  | none, fs, _ => fs

/-- `logs` (already sanitized) and `retries`, stored only when there are any. -/
structure ExecutionTrace where
  logs : List Json := []
  retries : List Json := []
  durationMs : Nat := 0
  deriving DecidableEq

def ExecutionTrace.fields (t : ExecutionTrace) : List (String × Json) :=
  let entry (k : String) (xs : List Json) := if xs = [] then [] else [(k, Json.arr (.ofList xs))]
  entry "logs" t.logs ++ entry "retries" t.retries

def successSettlement (result : ExecuteWorkerResult) (trace : ExecutionTrace) : Settlement where
  status := if result.success then .completed else .failed
  result :=
    if result.success then
      .ofList (optStr result.chatId [("output", .str result.output)] "chatId" ++
        [("durationMs", .num trace.durationMs)])
    else errorResult (.str (result.error.getD "Execution failed"))
  stepStatus := if result.success then .completed else .failed
  stepOutput :=
    -- an empty error text is falsy and is not stored
    let error := if result.success then none else result.error.filter (· ≠ "")
    .ofList (optStr error (optStr result.chatId [("result", .str result.output)] "chatId") "error" ++ trace.fields)
  durationMs := trace.durationMs

def failureSettlement (errorMsg : String) (trace : ExecutionTrace) : Settlement where
  status := .failed
  result := errorResult (.str errorMsg)
  stepStatus := .failed
  stepOutput := .ofList (("error", .str errorMsg) :: trace.fields)
  durationMs := trace.durationMs

def lostOwnership (stepId : String) : String := s!"Run step \"{stepId}\" lost terminal-state ownership"

def settleRow (host : Host) (status : RunStatus) (result : Fields) (r : Run) : Run :=
  { r with status := status, result := some result, updatedAt := host.now }

def settleStep (s : Settlement) (step : RunStep) : RunStep :=
  { step with status := s.stepStatus, output := some s.stepOutput, durationMs := some s.durationMs }

/-- The main transaction of `finishRunSuccess` and `finishRunFailure`. -/
def terminalTransition (host : Host) (db : Db) (runId stepId : String) (s : Settlement) : Tx Bool :=
  match db.casRun runId (·.status = .running) (settleRow host s.status s.result) (fun _ => rfl) with
  | none => .ok (false, db)
  | some db' =>
    match db'.casStep stepId (·.status = .running) (settleStep s) (fun _ => rfl) with
    | none => .error (.error (lostOwnership stepId))
    | some db'' => .ok (true, db'')

/-- The run-level recovery of `attemptTerminalTransition`. -/
def runLevelRecovery (host : Host) (db : Db) (runId stepId recoveryError : String) : Bool × Db :=
  match db.casRun runId (·.status = .running)
    (settleRow host .failed (errorResult (.str recoveryError))) (fun _ => rfl) with
  | none => (false, db)
  | some db' =>
    (true, db'.updateSteps (fun s => s.id = stepId && s.status = .running)
      (fun s => { s with status := .failed, output := some (errorResult (.str recoveryError)) })
      (fun _ => rfl))

def cancelLateStep (db : Db) (stepId : String) : Db :=
  db.updateSteps (fun s => s.id = stepId && s.status = .running)
    (fun s => { s with status := .cancelled }) (fun _ => rfl)

inductive CancellableRunStatus
  | running
  | queued
  deriving DecidableEq, Repr

def CancellableRunStatus.status : CancellableRunStatus → RunStatus
  | running => .running
  | queued => .queued

def cancelRow (host : Host) (r : Run) : Run :=
  { r with status := .cancelled, queuedAt := none, updatedAt := host.now }

def claimRunCancellation (host : Host) (db : Db) (runId : String)
    (expectedStatus : CancellableRunStatus) : Bool × Db :=
  match db.casRun runId (·.status = expectedStatus.status) (cancelRow host) (fun _ => rfl) with
  | none => (false, db)
  | some db' =>
    if expectedStatus = .queued then
      (true, (releaseReservedScmWorkloadInMutation db' (runWorkload runId)).2)
    else (true, db')

structure ReapRunClaimScope where
  statuses : List RunStatus
  allowUnownedRows : Bool
  deriving DecidableEq

def orphanReapScope : ReapRunClaimScope := ⟨[.running], false⟩

def scmReapScope : ReapRunClaimScope := ⟨[.running, .pending, .queued], true⟩

def ReapRunClaimScope.admits (scope : ReapRunClaimScope) (expectedOwnerInstanceId : String)
    (r : Run) : Bool :=
  scope.statuses.contains r.status && ((scope.allowUnownedRows && r.ownerInstanceId.isNone) ||
      r.ownerInstanceId = some expectedOwnerInstanceId)

def claimReapableRun (host : Host) (db : Db) (runId expectedOwnerInstanceId : String)
    (scope : ReapRunClaimScope) : Bool × Db :=
  let reason := FailureReason.instanceStoppedDuringExec.toJson
  match db.casRun runId (scope.admits expectedOwnerInstanceId)
    (settleRow host .failed (errorResult reason)) (fun _ => rfl) with
  | none => (false, db)
  | some db' => (true, db'.failRunningSteps runId reason)

def failBeforeLifecycleTransition (host : Host) (db : Db) (runId error : String) : Bool × Db :=
  match db.casRun runId (·.status = .running)
    (settleRow host .failed (errorResult (.str error))) (fun _ => rfl) with
  | none => (false, db)
  | some db' => (true, db')

/-- The transition of `cancelStaleGitTriggerRun`. -/
def cancelStaleTransition (host : Host) (db : Db) (runId reason : String) : Bool × Db :=
  match db.casRun runId (·.status = .running)
    (settleRow host .cancelled (errorResult (.str reason))) (fun _ => rfl) with
  | none => (false, db)
  | some db' => (true, db')

section Spec

variable {host : Host} {db db' : Db} {runId stepId : String} {b : Bool}

theorem status_ne_of_casRun_none {status : RunStatus} {f : Run → Run} {hf : ∀ r, (f r).id = r.id}
    (h : db.casRun runId (·.status = status) f hf = none) :
    ∀ r, db.runs.find? runId = some r → r.status ≠ status := by
  intro r hr
  simpa using Db.casRun_eq_none_iff.mp h r hr

theorem terminalTransition_cases {s : Settlement}
    (h : terminalTransition host db runId stepId s = .ok (b, db')) :
    (b = false ∧ db' = db ∧ ∀ r, db.runs.find? runId = some r → r.status ≠ .running) ∨
    (b = true ∧ ∃ db₁, db.casRun runId (·.status = .running)
        (settleRow host s.status s.result) (fun _ => rfl) = some db₁ ∧
      db₁.casStep stepId (·.status = .running) (settleStep s) (fun _ => rfl) = some db') := by
  unfold terminalTransition at h
  split at h
  · rename_i hnone
    cases h
    exact .inl ⟨rfl, rfl, status_ne_of_casRun_none hnone⟩
  · rename_i db₁ hcas
    split at h
    · cases h
    · rename_i db₂ hstep
      cases h
      exact .inr ⟨rfl, db₁, hcas, hstep⟩

theorem terminalTransition_stale {s : Settlement}
    (hstep : ∀ st, db.runSteps.find? stepId = some st → st.status ≠ .running)
    (h : terminalTransition host db runId stepId s = .ok (b, db')) : b = false ∧ db' = db := by
  obtain ⟨hb, hdb, -⟩ | ⟨-, db₁, hcas, hcs⟩ := terminalTransition_cases h
  · exact ⟨hb, hdb⟩
  · obtain ⟨-, -, -, rfl⟩ := Db.casRun_some hcas
    simp only [Db.casStep, Option.map_eq_some_iff] at hcs
    obtain ⟨t, ht, -⟩ := hcs
    obtain ⟨st, hst, hrun, -⟩ := Table.cas_some ht
    exact absurd (by simpa using hrun) (hstep st hst)

theorem runLevelRecovery_cases {e : String} (h : runLevelRecovery host db runId stepId e = (b, db')) :
    (b = false ∧ db' = db ∧ ∀ r, db.runs.find? runId = some r → r.status ≠ .running) ∨
    (b = true ∧ ∃ db₁, db.casRun runId (·.status = .running)
        (settleRow host .failed (errorResult (.str e))) (fun _ => rfl) = some db₁ ∧
      db' = db₁.updateSteps (fun s => s.id = stepId && s.status = .running)
        (fun s => { s with status := .failed, output := some (errorResult (.str e)) })
        (fun _ => rfl)) := by
  unfold runLevelRecovery at h
  split at h
  · rename_i hnone
    cases h
    exact .inl ⟨rfl, rfl, status_ne_of_casRun_none hnone⟩
  · rename_i db₁ hcas
    cases h
    exact .inr ⟨rfl, db₁, hcas, rfl⟩

theorem claimRunCancellation_cases {expected : CancellableRunStatus}
    (h : claimRunCancellation host db runId expected = (b, db')) :
    (b = false ∧ db' = db ∧ ∀ r, db.runs.find? runId = some r → r.status ≠ expected.status) ∨
    (b = true ∧ ∃ db₁, db.casRun runId (·.status = expected.status) (cancelRow host)
        (fun _ => rfl) = some db₁ ∧ db'.runs = db₁.runs ∧ db'.runSteps = db₁.runSteps) := by
  unfold claimRunCancellation at h
  split at h
  · rename_i hnone
    cases h
    exact .inl ⟨rfl, rfl, status_ne_of_casRun_none hnone⟩
  · rename_i db₁ hcas
    split at h <;> cases h
    · exact .inr ⟨rfl, db₁, hcas, rfl, rfl⟩
    · exact .inr ⟨rfl, _, hcas, rfl, rfl⟩

theorem claimReapableRun_cases {owner : String} {scope : ReapRunClaimScope}
    (h : claimReapableRun host db runId owner scope = (b, db')) :
    (b = false ∧ db' = db ∧ ∀ r, db.runs.find? runId = some r → scope.admits owner r = false) ∨
    (b = true ∧ ∃ db₁, db.casRun runId (scope.admits owner)
        (settleRow host .failed (errorResult FailureReason.instanceStoppedDuringExec.toJson))
        (fun _ => rfl) = some db₁ ∧
      db' = db₁.failRunningSteps runId FailureReason.instanceStoppedDuringExec.toJson) := by
  unfold claimReapableRun at h
  dsimp only at h
  split at h
  · rename_i hnone
    cases h
    exact .inl ⟨rfl, rfl, Db.casRun_eq_none_iff.mp hnone⟩
  · rename_i db₁ hcas
    cases h
    exact .inr ⟨rfl, db₁, hcas, rfl⟩

theorem casRunning_cases {f : Run → Run} {hf : ∀ r, (f r).id = r.id}
    (h : (match db.casRun runId (·.status = .running) f hf with
      | none => (false, db)
      | some db' => (true, db')) = (b, db')) :
    (b = false ∧ db' = db ∧ ∀ r, db.runs.find? runId = some r → r.status ≠ .running) ∨
    (b = true ∧ db.casRun runId (·.status = .running) f hf = some db') := by
  split at h
  · rename_i hnone
    cases h
    exact .inl ⟨rfl, rfl, status_ne_of_casRun_none hnone⟩
  · rename_i db₁ hcas
    cases h
    exact .inr ⟨rfl, hcas⟩

end Spec

end A2Wave
