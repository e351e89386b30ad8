import A2Wave.Db.Schema

/-! `lib/scm-workload-lifecycle.ts`: durable leases that bind a run or an evaluation to
the SCM source of its agent.  Every function here runs inside one mutation transaction. -/

namespace A2Wave

def ScmWorkloadType.text : ScmWorkloadType → String
  | .run => "run"
  | .evaluation => "evaluation"

def scmWorkloadLeaseId (w : ScmWorkloadIdentity) : String :=
  w.type.text ++ ":" ++ w.workloadId

def ScmWorkloadLease.leaseId (l : ScmWorkloadLease) : String := scmWorkloadLeaseId l.workload

def loadLease (db : Db) (w : ScmWorkloadIdentity) : Option ScmWorkloadLease :=
  db.scmWorkloadLeases.find? w

def runWorkload (runId : String) : ScmWorkloadIdentity := ⟨.run, runId⟩

inductive ScmWorkloadAdmission
  | temp
  | scm (scmSourceId : String) (leaseId : String) (alreadyReserved : Bool)
  deriving DecidableEq

namespace ScmWorkloadAdmission

def scmSourceId : ScmWorkloadAdmission → Option String
  | temp => none
  | scm s _ _ => some s

def hasLease : ScmWorkloadAdmission → Bool
  | temp => false
  | scm _ _ _ => true

end ScmWorkloadAdmission

def heartbeatLost : DbError :=
  .scmWorkloadAdmission "This instance lost its liveness heartbeat lease and cannot own SCM workloads"

def assertMatchingReservation (lease : ScmWorkloadLease) (agentId scmSourceId : String) : Except DbError Unit :=
  if lease.agentId ≠ agentId ∨ lease.scmSourceId ≠ scmSourceId then
    let leaseId := lease.leaseId
    .error (.scmWorkloadLeaseConflict
      s!"SCM workload \"{leaseId}\" is already reserved for a different Agent or source")
  else .ok ()

def reserveLease (host : Host) (db : Db) (w : ScmWorkloadIdentity) (agentId scmSourceId : String) :
    Except DbError (Bool × Db) :=
  match loadLease db w with
  | some lease => (assertMatchingReservation lease agentId scmSourceId).bind fun _ => .ok (true, db)
  | none =>
    match db.scmWorkloadLeases.insert ⟨w, agentId, scmSourceId, .reserved, none, host.now⟩ with
    | some t => .ok (false, { db with scmWorkloadLeases := t })
    | none => .error (.error "UNIQUE constraint failed: scm_workload_leases")

def withScmWorkloadAdmission {α : Type} (host : Host) (db : Db) (w : ScmWorkloadIdentity)
    (agentId : String) (writeWorkloadState : Db → ScmWorkloadAdmission → Tx α) : Tx α :=
  if host.hasLostHeartbeatOwnership then .error heartbeatLost
  else
    match db.agents.find? agentId with
    | none => .error (.scmWorkloadAdmission s!"Agent \"{agentId}\" not found")
    | some agent =>
      if agent.workspaceType ≠ .scm then
        match loadLease db w with
        | some existing =>
          let leaseId := existing.leaseId
          .error (.scmWorkloadLeaseConflict
            s!"SCM workload \"{leaseId}\" remains reserved after the Agent binding changed")
        | none => writeWorkloadState db .temp
      else
        -- an empty id is falsy, like a missing one
        match agent.scmSourceId.filter (· ≠ "") with
        | none => .error (.scmWorkloadAdmission
            s!"Agent \"{agentId}\" has an SCM workspace without a source binding")
        | some scmSourceId =>
          (reserveLease host db w agentId scmSourceId).bind fun r =>
            writeWorkloadState r.2 (.scm scmSourceId (scmWorkloadLeaseId w) r.1)

def findScmSourceSyncClaim (db : Db) (scmSourceId : String) : Option (String × ScmSourceType) :=
  match db.scmSources.find? scmSourceId with
  | some source => if source.syncStatus = .syncing then some (source.localPath, source.type) else none
  | none => none

def evaluationOccupiesSharedCheckout (sourceType : ScmSourceType) : Bool := sourceType ≠ .git

def filesystemPathsOverlap (host : Host) (a b : String) : Bool :=
  let keyA := (host.filesystemCollisionKey a).toList
  let keyB := (host.filesystemCollisionKey b).toList
  let overlaps (parent candidate : List Char) : Bool :=
    let below := if parent.getLast? = some '/' then parent else parent ++ ['/']
    candidate = parent || below.isPrefixOf candidate
  overlaps keyA keyB || overlaps keyB keyA

def runOccupiesSharedCheckout (host : Host) (workDir : Option String) (sharedLocalPath : String) :
    Bool :=
  match workDir.filter (· ≠ "") with
  | none => true
  | some d => filesystemPathsOverlap host d sharedLocalPath

def workloadOccupiesSharedCheckout (host : Host) (db : Db) (w : ScmWorkloadIdentity)
    (claim : String × ScmSourceType) : Bool :=
  match w.type with
  | .evaluation => evaluationOccupiesSharedCheckout claim.2
  | .run => runOccupiesSharedCheckout host ((db.runs.find? w.workloadId).bind (·.workDir)) claim.1

def blockedBySync (host : Host) (db : Db) (lease : ScmWorkloadLease) (w : ScmWorkloadIdentity) :
    Bool :=
  lease.scmSourceId ≠ "" &&
    (findScmSourceSyncClaim db lease.scmSourceId).any (workloadOccupiesSharedCheckout host db w)

def Db.activateLease (db : Db) (w : ScmWorkloadIdentity) (ownerInstanceId : String) (now : Nat) :
    Db :=
  let leases := db.scmWorkloadLeases.updateWhere (·.workload = w)
    (fun l => { l with
      phase := .active, ownerInstanceId := some ownerInstanceId, updatedAt := now }) (fun _ => rfl)
  { db with scmWorkloadLeases := leases }

def activateScmWorkloadInMutation (host : Host) (db : Db) (w : ScmWorkloadIdentity)
    (ownerInstanceId : String) : Tx Bool :=
  if host.hasLostHeartbeatOwnership then .error heartbeatLost
  else
    match loadLease db w with
    | none => .ok (false, db)
    | some lease =>
      let leaseId := lease.leaseId
      if lease.phase = .active then
        if lease.ownerInstanceId ≠ some ownerInstanceId then
          .error (.scmWorkloadLeaseConflict
            s!"SCM workload \"{leaseId}\" is active on another process instance")
        else .ok (true, db)
      else if blockedBySync host db lease w then
        let source := lease.scmSourceId
        .error (.scmWorkloadLeaseConflict
          s!"SCM source \"{source}\" is syncing; workload \"{leaseId}\" cannot take its shared checkout")
      else
        .ok (true, db.activateLease w ownerInstanceId host.now)

def Db.deleteLeases (db : Db) (p : ScmWorkloadLease → Bool) : Db :=
  { db with scmWorkloadLeases := db.scmWorkloadLeases.deleteWhere p }

def releaseReservedScmWorkloadInMutation (db : Db) (w : ScmWorkloadIdentity) : Bool × Db :=
  ((loadLease db w).any (·.phase = .reserved), db.deleteLeases fun l => l.workload = w && l.phase = .reserved)

def releaseRecoveredScmWorkload (db : Db) (w : ScmWorkloadIdentity) : Bool × Db :=
  ((loadLease db w).isSome, db.deleteLeases fun l => l.workload = w)

def releaseScmWorkload (db : Db) (w : ScmWorkloadIdentity) (ownerInstanceId : String) : Tx Bool :=
  match loadLease db w with
  | none => .ok (false, db)
  | some lease =>
    if lease.phase = .active ∧ lease.ownerInstanceId ≠ some ownerInstanceId then
      let leaseId := lease.leaseId
      .error (.scmWorkloadLeaseConflict
        s!"SCM workload \"{leaseId}\" is owned by another process instance")
    else .ok (true, db.deleteLeases fun l => l.workload = w)

section Frame

variable {host : Host} {db db' : Db} {w : ScmWorkloadIdentity} {b : Bool} {owner : String}

@[simp] theorem runs_deleteLeases (p : ScmWorkloadLease → Bool) : (db.deleteLeases p).runs = db.runs := rfl

theorem activate_cases (h : activateScmWorkloadInMutation host db w owner = .ok (b, db')) :
    host.hasLostHeartbeatOwnership = false ∧
    ((loadLease db w = none ∧ b = false ∧ db' = db) ∨ (∃ lease, loadLease db w = some lease ∧ b = true ∧
       ((lease.phase = .active ∧ lease.ownerInstanceId = some owner ∧ db' = db) ∨
        (lease.phase ≠ .active ∧ blockedBySync host db lease w = false ∧
          db' = db.activateLease w owner host.now)))) := by
  unfold activateScmWorkloadInMutation at h
  split at h
  · cases h
  rename_i hb
  refine ⟨by simpa using hb, ?_⟩
  split at h
  · rename_i hl
    cases h
    exact .inl ⟨hl, rfl, rfl⟩
  rename_i lease hl
  refine .inr ⟨lease, hl, ?_⟩
  dsimp only at h
  split at h
  · rename_i hphase
    split at h
    · cases h
    · rename_i howner
      cases h
      exact ⟨rfl, .inl ⟨hphase, by simpa using howner, rfl⟩⟩
  · rename_i hphase
    split at h
    · cases h
    · rename_i hsync
      cases h
      exact ⟨rfl, .inr ⟨hphase, by simpa using hsync, rfl⟩⟩

/-- `db'` is `db`, up to the activation of the lease of `w`. -/
def OnlyActivates (w : ScmWorkloadIdentity) (db db' : Db) : Prop :=
  db' = db ∨ ∃ owner now, db' = db.activateLease w owner now

theorem activate_onlyActivates
    (h : activateScmWorkloadInMutation host db w owner = .ok (b, db')) : OnlyActivates w db db' := by
  obtain ⟨-, ⟨-, -, rfl⟩ | ⟨lease, -, -, ⟨-, -, rfl⟩ | ⟨-, -, rfl⟩⟩⟩ := activate_cases h
  · exact .inl rfl
  · exact .inl rfl
  · exact .inr ⟨_, _, rfl⟩

theorem OnlyActivates.runs (h : OnlyActivates w db db') : db'.runs = db.runs := by
  obtain rfl | ⟨_, _, rfl⟩ := h <;> rfl

theorem OnlyActivates.runSteps (h : OnlyActivates w db db') : db'.runSteps = db.runSteps := by
  obtain rfl | ⟨_, _, rfl⟩ := h <;> rfl

/-- `db'` is `db`, up to an activation of the lease of `w` by the host. -/
def MayActivate (host : Host) (w : ScmWorkloadIdentity) (db db' : Db) : Prop :=
  db' = db ∨ ∃ b, activateScmWorkloadInMutation host db w host.processInstanceId = .ok (b, db')

theorem MayActivate.only (h : MayActivate host w db db') : OnlyActivates w db db' := by
  obtain rfl | ⟨b, hact⟩ := h
  · exact .inl rfl
  · exact activate_onlyActivates hact

/-- `db'` differs from `db` at most in new reservations, none of them active. -/
structure OnlyReserves (db db' : Db) : Prop where
  runs : db'.runs = db.runs
  runSteps : db'.runSteps = db.runSteps
  agents : db'.agents = db.agents
  scmSources : db'.scmSources = db.scmSources
  scmWorkspaceRemovals : db'.scmWorkspaceRemovals = db.scmWorkspaceRemovals
  leases : ∃ extra, db'.scmWorkloadLeases.rows = db.scmWorkloadLeases.rows ++ extra ∧ ∀ l ∈ extra, l.phase = .reserved

theorem OnlyReserves.refl (db : Db) : OnlyReserves db db :=
  ⟨rfl, rfl, rfl, rfl, rfl, [], by simp, by simp⟩

theorem reserveLease_onlyReserves {a s : String} (h : reserveLease host db w a s = .ok (b, db')) :
    OnlyReserves db db' := by
  unfold reserveLease at h
  split at h
  · obtain ⟨-, -, hk⟩ := bind_ok h
    cases hk
    exact .refl db
  · split at h
    · rename_i t ht
      cases h
      exact ⟨rfl, rfl, rfl, rfl, rfl, _, Table.rows_insert ht, by simp⟩
    · cases h

theorem admission_cases {α : Type} {agentId : String} {k : Db → ScmWorkloadAdmission → Tx α} {x : α}
    (h : withScmWorkloadAdmission host db w agentId k = .ok (x, db')) :
    ∃ db₁ adm, OnlyReserves db db₁ ∧ k db₁ adm = .ok (x, db') := by
  unfold withScmWorkloadAdmission at h
  split at h
  · cases h
  split at h
  · cases h
  split at h
  · split at h
    · cases h
    · exact ⟨db, .temp, .refl db, h⟩
  · split at h
    · cases h
    · obtain ⟨⟨already, db₁⟩, hr, hk⟩ := bind_ok h
      exact ⟨db₁, _, reserveLease_onlyReserves hr, hk⟩

theorem activate_ne_runQueueFull : activateScmWorkloadInMutation host db w owner ≠ .error .runQueueFull := by
  unfold activateScmWorkloadInMutation heartbeatLost
  repeat (first | split | simp)

theorem reserveLease_ne_runQueueFull {a s : String} : reserveLease host db w a s ≠ .error .runQueueFull := by
  unfold reserveLease assertMatchingReservation
  repeat (first | split | simp [Except.bind])

theorem admission_runQueueFull {α : Type} {agentId : String} {k : Db → ScmWorkloadAdmission → Tx α}
    (h : withScmWorkloadAdmission host db w agentId k = .error .runQueueFull) :
    ∃ db₁ adm, OnlyReserves db db₁ ∧ k db₁ adm = .error .runQueueFull := by
  unfold withScmWorkloadAdmission at h
  split at h
  · cases h
  split at h
  · cases h
  split at h
  · split at h
    · cases h
    · exact ⟨db, .temp, .refl db, h⟩
  · split at h
    · cases h
    · rename_i scmSourceId _
      cases hr : reserveLease host db w agentId scmSourceId with
      | error e =>
        rw [hr] at h
        cases h
        exact absurd hr reserveLease_ne_runQueueFull
      | ok r =>
        rw [hr] at h
        exact ⟨r.2, _, reserveLease_onlyReserves hr, h⟩

end Frame

end A2Wave
