import A2Wave.Lib.Json
import A2Wave.Lib.Outcome
import A2Wave.Lib.Table

/-! The rows of `db/schema.sqlite.ts` that the run queue, its recovery and the SCM
workload leases read and write.  Timestamps are milliseconds. -/

namespace A2Wave

inductive Dialect
  | sqlite
  | postgres
  deriving DecidableEq, Repr

inductive RunStatus
  | pending
  | queued
  | running
  | completed
  | failed
  | cancelled
  deriving DecidableEq, Repr

inductive StepStatus
  | pending
  | running
  | completed
  | failed
  | cancelled
  deriving DecidableEq, Repr

inductive TriggerSource
  | debug
  | api
  | feishu
  | slack
  | discord
  | telegram
  | qqOfficial
  | a2a
  | schedule
  | oauth
  | chatApp
  | glab
  | gh
  deriving DecidableEq, Repr

inductive CleanupPolicy
  | ephemeral
  | persistent
  | ttl
  deriving DecidableEq, Repr

structure WorktreeConfig where
  name : String
  branch : Option String := none
  cleanup : CleanupPolicy
  deriving DecidableEq

structure Run where
  id : String
  status : RunStatus
  result : Option Fields := none
  executionMetadata : Option Fields := none
  triggerSource : Option TriggerSource := none
  triggerSessionId : Option String := none
  workDir : Option String := none
  ownerInstanceId : Option String := none
  worktreeConfig : Option WorktreeConfig := none
  initiatorAgentId : Option String := none
  queuedAt : Option Nat := none
  createdAt : Nat := 0
  updatedAt : Nat := 0
  deriving DecidableEq

structure RunStep where
  id : String
  runId : String
  agentId : Option String := none
  order : Nat
  input : Option Fields := none
  output : Option Fields := none
  status : StepStatus
  durationMs : Option Nat := none
  waitMs : Option Nat := none
  deriving DecidableEq

inductive WorkspaceType
  | temp
  | scm
  deriving DecidableEq, Repr

structure Agent where
  id : String
  workspaceType : WorkspaceType
  scmSourceId : Option String := none
  maxConcurrency : Nat
  deriving DecidableEq

inductive ScmSourceType
  | p4
  | git
  deriving DecidableEq, Repr

inductive SyncStatus
  | idle
  | syncing
  | error
  deriving DecidableEq, Repr

inductive CodegraphStatus
  | idle
  | indexing
  | error
  deriving DecidableEq, Repr

structure ScmSource where
  id : String
  type : ScmSourceType
  localPath : String
  syncStatus : SyncStatus := .idle
  workspacesPath : Option String := none
  deletionRequestedAt : Option Nat := none
  initialSyncCompletedAt : Option Nat := none
  lastSyncAt : Option Nat := none
  lastSyncError : Option String := none
  codegraphEnabled : Bool := false
  codegraphStatus : CodegraphStatus := .idle
  codegraphLastIndexedAt : Option Nat := none
  codegraphLastError : Option String := none
  updatedAt : Nat := 0
  deriving DecidableEq

inductive ScmWorkloadType
  | run
  | evaluation
  deriving DecidableEq, Repr

/-- `ScmWorkloadIdentity`; the unique index of the lease table is on exactly this pair. -/
structure ScmWorkloadIdentity where
  type : ScmWorkloadType
  workloadId : String
  deriving DecidableEq

inductive LeasePhase
  | reserved
  | active
  deriving DecidableEq, Repr

structure ScmWorkloadLease where
  workload : ScmWorkloadIdentity
  agentId : String
  scmSourceId : String
  phase : LeasePhase
  ownerInstanceId : Option String := none
  updatedAt : Nat := 0
  deriving DecidableEq

structure RemovalTarget where
  scmSourceId : String
  workspaceName : String
  deriving DecidableEq

structure ScmWorkspaceRemoval where
  target : RemovalTarget
  ownerInstanceId : Option String
  attemptToken : String
  attemptStartedAt : Nat := 0
  deriving DecidableEq

instance : Keyed Run String := ⟨Run.id⟩
instance : Keyed RunStep String := ⟨RunStep.id⟩
instance : Keyed Agent String := ⟨Agent.id⟩
instance : Keyed ScmSource String := ⟨ScmSource.id⟩
instance : Keyed ScmWorkloadLease ScmWorkloadIdentity := ⟨ScmWorkloadLease.workload⟩
instance : Keyed ScmWorkspaceRemoval RemovalTarget := ⟨ScmWorkspaceRemoval.target⟩

@[simp] theorem key_run (r : Run) : Keyed.key r = r.id := rfl
@[simp] theorem key_runStep (s : RunStep) : Keyed.key s = s.id := rfl
@[simp] theorem key_lease (l : ScmWorkloadLease) : Keyed.key l = l.workload := rfl
@[simp] theorem key_removal (r : ScmWorkspaceRemoval) : Keyed.key r = r.target := rfl

structure Db where
  runs : Table Run := .empty
  runSteps : Table RunStep := .empty
  agents : Table Agent := .empty
  scmSources : Table ScmSource := .empty
  scmWorkloadLeases : Table ScmWorkloadLease := .empty
  scmWorkspaceRemovals : Table ScmWorkspaceRemoval := .empty

structure ExecutionLease where
  runId : String
  agentId : Option String
  deriving DecidableEq

structure Host where
  processInstanceId : String
  executionLeases : List ExecutionLease := []
  hasLostHeartbeatOwnership : Bool := false
  /-- `filesystemCollisionKey`: the canonical path on this file system. -/
  filesystemCollisionKey : String → String := id
  now : Nat := 0

inductive DbError
  | scmWorkloadAdmission (message : String)
  | scmWorkloadLeaseConflict (message : String)
  | runQueueFull
  | error (message : String)
  deriving DecidableEq

abbrev Tx (α : Type) := Except DbError (α × Db)

structure FailureReason where
  code : String
  message : String
  retryable : Bool
  deriving DecidableEq

namespace FailureReason

def serverRestartDuringExec : FailureReason :=
  ⟨"SERVER_RESTART_DURING_EXEC", "Interrupted by a server restart; safe to retry", true⟩

def pendingOrphanOnStartup : FailureReason :=
  ⟨"PENDING_ORPHAN_ON_STARTUP", "Interrupted before entering the execution queue; can be triggered again", true⟩

def feishuQueuedResetForReplay : FailureReason :=
  ⟨"FEISHU_QUEUED_RESET_FOR_REPLAY",
    "Queued Feishu task was rebuilt by message replay after a restart; the original record is marked failed",
    true⟩

def danglingRunOnStartup : FailureReason :=
  ⟨"DANGLING_RUN_ON_STARTUP", "The associated Agent no longer exists; archived during startup recovery", false⟩

def instanceStoppedDuringExec : FailureReason :=
  ⟨"INSTANCE_STOPPED_DURING_EXEC", "Interrupted: the owning server instance stopped; safe to retry", true⟩

def toJson (r : FailureReason) : Json :=
  .obj (.ofList [("code", .str r.code), ("message", .str r.message), ("retryable", .bool r.retryable)])

end FailureReason

def errorResult (e : Json) : Fields := .ofList [("error", e)]

namespace Db

variable (db : Db)

/-- Conditional update of one run: `UPDATE runs … WHERE id = k AND p RETURNING id`. -/
def casRun (k : String) (p : Run → Bool) (f : Run → Run) (hf : ∀ r, (f r).id = r.id) : Option Db :=
  (db.runs.cas k p f hf).map fun t => { db with runs := t }

def updateSteps (p : RunStep → Bool) (f : RunStep → RunStep) (hf : ∀ s, (f s).id = s.id) : Db :=
  { db with runSteps := db.runSteps.updateWhere p f hf }

def casStep (k : String) (p : RunStep → Bool) (f : RunStep → RunStep)
    (hf : ∀ s, (f s).id = s.id) : Option Db :=
  (db.runSteps.cas k p f hf).map fun t => { db with runSteps := t }

variable {db} {db' : Db} {k : String} {p : Run → Bool} {f : Run → Run} {hf : ∀ r, (f r).id = r.id}

@[simp] theorem runs_updateSteps (p : RunStep → Bool) (f : RunStep → RunStep)
    (hf : ∀ s, (f s).id = s.id) : (db.updateSteps p f hf).runs = db.runs := rfl

theorem casRun_eq_none_iff : db.casRun k p f hf = none ↔ ∀ r, db.runs.find? k = some r → p r = false := by
  simp only [casRun, Option.map_eq_none_iff]
  exact Table.cas_eq_none_iff

theorem casRun_some (h : db.casRun k p f hf = some db') : ∃ r, db.runs.find? k = some r ∧ p r = true ∧ db' = { db with
        runs := db.runs.updateWhere (fun r => decide (r.id = k) && p r) f hf } := by
  simp only [casRun, Option.map_eq_some_iff] at h
  obtain ⟨t, ht, rfl⟩ := h
  obtain ⟨r, hr, hp, -, -⟩ := Table.cas_some ht
  refine ⟨r, hr, hp, ?_⟩
  rw [Table.cas_isSome_of hr hp] at ht
  cases ht
  rfl

theorem casRun_find? (h : db.casRun k p f hf = some db') :
    ∃ r, db.runs.find? k = some r ∧ p r = true ∧ db'.runs.find? k = some (f r) ∧
      ∀ k', k' ≠ k → db'.runs.find? k' = db.runs.find? k' := by
  simp only [casRun, Option.map_eq_some_iff] at h
  obtain ⟨t, ht, rfl⟩ := h
  exact Table.cas_some ht

theorem casStep_runs {q : RunStep → Bool} {g : RunStep → RunStep} {hg : ∀ s, (g s).id = s.id}
    (h : db.casStep k q g hg = some db') : db'.runs = db.runs := by
  simp only [casStep, Option.map_eq_some_iff] at h
  obtain ⟨t, -, rfl⟩ := h
  rfl

end Db

end A2Wave
