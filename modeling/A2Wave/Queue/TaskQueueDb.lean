import Mathlib.Data.List.Dedup
import Mathlib.Data.List.MinMax
import Mathlib.Data.List.Perm.Subperm
import A2Wave.Scm.Workload

/-! `engine/task-queue-db.ts`: the queue's transactions.  A function takes the committed
database and returns the database it commits; a throw commits nothing. -/

namespace A2Wave

def maxQueueLength : Nat := 50

/-- The white space that JavaScript's `trim` removes. -/
def isTrimmed (c : Char) : Bool :=
  let n := c.toNat
  (9 ≤ n && n ≤ 13) || n = 0x20 || n = 0xa0 || n = 0x1680 || (0x2000 ≤ n && n ≤ 0x200a) ||
    n = 0x2028 || n = 0x2029 || n = 0x202f || n = 0x205f || n = 0x3000 || n = 0xfeff

/-- `s.trim().length > 0`. -/
def hasText (s : String) : Bool := s.toList.any fun c => !isTrimmed c

def feishuReceiveIdTypes : List String := ["open_id", "user_id", "union_id", "email", "chat_id"]

def hasSendableNativeChatContext : Option Json → Bool
  | some (.obj context) =>
    match context.get? "receive_id_type", context.get? "receive_id" with
    | some (.str t), some (.str i) => feishuReceiveIdTypes.contains t && hasText i
    | _, _ => false
  | _ => false

def hasRecoverableA2AReferencedContext : Option Json → Bool
  | some (.obj context) =>
    match context.get? "channel", context.get? "referenced_message" with
    | some (.obj channel), some (.obj message) =>
      match message.get? "text" with
      | some (.str t) => channel.get? "channel_type" = some (.str "a2a") && hasText t
      | _ => false
    | _, _ => false
  | _ => false

/-- `value == null`: the property is missing or `null`. -/
def isNullish : Option Json → Bool
  | none => true
  | some .null => true
  | some _ => false

def metaGet? (m : Option Fields) (k : String) : Option Json := m.bind (·.get? k)

section Occupancy

def runningIds (db : Db) (agentId : String) : List String :=
  (db.runs.select fun r => r.initiatorAgentId = some agentId && r.status = .running).map Run.id

def localLeaseIds (host : Host) (agentId : String) : List String :=
  (host.executionLeases.filter (·.agentId = some agentId)).map ExecutionLease.runId

def durableLeaseIds (db : Db) (agentId : String) : List String :=
  (db.scmWorkloadLeases.select fun l => l.agentId = agentId && l.workload.type = .run &&
    l.phase = .active && (db.runs.find? l.workload.workloadId).isSome).map (·.workload.workloadId)

def countOccupiedRunSlots (host : Host) (db : Db) (agentId : String) : Nat :=
  (runningIds db agentId ++ localLeaseIds host agentId ++ durableLeaseIds db agentId).dedup.length

end Occupancy

def countRunsByStatus (db : Db) (agentId : String) (status : RunStatus) : Nat :=
  db.runs.rows.countP fun r => r.initiatorAgentId = some agentId && r.status = status

def getAgentMaxConcurrency (db : Db) (agentId : String) : Option Nat :=
  (db.agents.find? agentId).map Agent.maxConcurrency

def statusRow (host : Host) (status : RunStatus) (r : Run) : Run :=
  { r with
    status := status
    queuedAt := match status with
      | .queued => some host.now
      | .running => none
      | _ => r.queuedAt
    updatedAt := host.now }

theorem statusRow_id (host : Host) (status : RunStatus) (r : Run) : (statusRow host status r).id = r.id := rfl

def updateRunStatus (host : Host) (db : Db) (runId : String) (status : RunStatus) : Db :=
  let runs := db.runs.updateWhere (·.id = runId) (statusRow host status) (statusRow_id host status)
  { db with runs := runs }

def latestStep (db : Db) (runId : String) : Option RunStep :=
  (db.runSteps.select (·.runId = runId)).argmax RunStep.order

def restoredNativeChatContext (db : Db) (r : Run) : Option Json :=
  let metadata := r.executionMetadata
  let awaitsEventReplay := r.triggerSessionId.isSome && isNullish (metaGet? metadata "retryAttempt")
  let shouldRestoreFeishuContext := r.triggerSource = some .feishu && !awaitsEventReplay &&
    !hasSendableNativeChatContext (metaGet? metadata "nativeChatContext")
  let shouldRestoreA2AContext := r.triggerSource = some .a2a &&
    !hasRecoverableA2AReferencedContext (metaGet? metadata "nativeChatContext")
  if shouldRestoreFeishuContext || shouldRestoreA2AContext then
    let stepContext := ((latestStep db r.id).bind (·.input)).bind (·.get? "context")
    let canRestoreStepContext :=
      if shouldRestoreFeishuContext then hasSendableNativeChatContext stepContext
      else hasRecoverableA2AReferencedContext stepContext
    if canRestoreStepContext then stepContext else none
  else none

def requeuedMetadata (db : Db) (r : Run) (code : String) : Fields :=
  let base := r.executionMetadata.getD .nil
  let restored := match restoredNativeChatContext db r with
    | some c => base.set "nativeChatContext" c
    | none => base
  restored.set "resumePending" (.str code)

def Db.failRunningSteps (db : Db) (runId : String) (error : Json) : Db :=
  db.updateSteps (fun s => s.runId = runId && s.status = .running)
    (fun s => { s with status := .failed, output := some (errorResult error) }) (fun _ => rfl)

def requeueRow (host : Host) (db : Db) (interruptionCode : Option String) (r : Run) : Run :=
  { r with
    status := .queued
    queuedAt := some host.now
    executionMetadata := match interruptionCode with
      | some code => some (requeuedMetadata db r code)
      | none => r.executionMetadata
    result := none
    ownerInstanceId := none
    updatedAt := host.now }

def requeueForResume (host : Host) (db : Db) (runId : String) (interruptionCode : Option String)
    (expectedOwnerInstanceId : Option String) : Bool × Db :=
  match db.casRun runId
    (fun r => r.status = .running && expectedOwnerInstanceId.all fun o => decide (r.ownerInstanceId = some o))
    (requeueRow host db interruptionCode) (fun _ => rfl) with
  | none => (false, db)
  | some db' =>
    (true, db'.failRunningSteps runId FailureReason.serverRestartDuringExec.toJson)

inductive SlotResult
  | acquired
  | queued
  | queueFull
  deriving DecidableEq, Repr

structure AdmitResult where
  slot : SlotResult
  hasScmLease : Bool
  scmLeaseActivated : Bool := false
  deriving DecidableEq

def findPendingWorkspaceRemoval (db : Db) (sourceId name : String) : Option ScmWorkspaceRemoval :=
  db.scmWorkspaceRemovals.find? ⟨sourceId, name⟩

def Run.worktreeName (r : Run) : Option String :=
  (r.worktreeConfig.map WorktreeConfig.name).filter (· ≠ "")

def removalInProgress (db : Db) (runId : String) (adm : ScmWorkloadAdmission) : Option String :=
  match adm.scmSourceId, (db.runs.find? runId).bind Run.worktreeName with
  | some source, some name => (findPendingWorkspaceRemoval db source name).map fun _ => name
  | _, _ => none

def admitRow (host : Host) (acquired : Bool) (r : Run) : Run :=
  { r with
    status := if acquired then .running else .queued
    ownerInstanceId := if acquired then some host.processInstanceId else none
    queuedAt := if acquired then none else some host.now
    updatedAt := host.now }

def admitRunState (host : Host) (agentId runId : String) (maxConcurrency : Nat) (db : Db)
    (adm : ScmWorkloadAdmission) : Tx AdmitResult :=
  match removalInProgress db runId adm with
  | some name => .error (.error s!"Worktree '{name}' is currently being removed; retry shortly")
  | none =>
    let acquired := countOccupiedRunSlots host db agentId < maxConcurrency
    if !acquired && maxQueueLength ≤ countRunsByStatus db agentId .queued then .error .runQueueFull
    else
      match db.casRun runId (fun _ => true) (admitRow host acquired) (fun _ => rfl) with
      | none => .error (.error s!"Run \"{runId}\" disappeared before queue admission")
      | some db' =>
        if acquired && adm.hasLease then
          match activateScmWorkloadInMutation host db' (runWorkload runId) host.processInstanceId with
          | .error e => .error e
          | .ok (false, _) =>
            .error (.error s!"Cannot admit SCM run \"{runId}\" without its reserved durable lease")
          | .ok (true, db'') => .ok (⟨.acquired, true, true⟩, db'')
        else .ok (⟨if acquired then .acquired else .queued, adm.hasLease, false⟩, db')

def admitRun (host : Host) (db : Db) (agentId runId : String) (maxConcurrency : Nat) : Tx AdmitResult :=
  match withScmWorkloadAdmission host db (runWorkload runId) agentId
    (admitRunState host agentId runId maxConcurrency) with
  | .error .runQueueFull => .ok (⟨.queueFull, false, false⟩, db)
  | r => r

def promoteRow (host : Host) (r : Run) : Run :=
  { r with
    status := .running
    ownerInstanceId := some host.processInstanceId
    updatedAt := host.now }

def promoteQueuedRun (host : Host) (db : Db) (agentId runId : String) (maxConcurrency : Nat) : Tx Bool :=
  if maxConcurrency ≤ countOccupiedRunSlots host db agentId then .ok (false, db)
  else
    match db.casRun runId (·.status = .queued) (promoteRow host) (fun _ => rfl) with
    | none => .ok (false, db)
    | some db' =>
      match activateScmWorkloadInMutation host db' (runWorkload runId) host.processInstanceId with
      | .error e => .error e
      | .ok (activated, db'') =>
        if !activated && ((db''.agents.find? agentId).map Agent.workspaceType) ≠ some .temp then
          .error (.error s!"Cannot promote SCM run \"{runId}\" without its reserved durable lease")
        else .ok (true, db'')

def reasonRow (host : Host) (reason : FailureReason) (r : Run) : Run :=
  { r with result := some (errorResult reason.toJson), updatedAt := host.now }

theorem reasonRow_id (host : Host) (reason : FailureReason) (r : Run) : (reasonRow host reason r).id = r.id := rfl

def failRunWithStructuredReason (host : Host) (db : Db) (runId : String) (reason : FailureReason) :
    Db :=
  let runs := db.runs.updateWhere (·.id = runId) (reasonRow host reason) (reasonRow_id host reason)
  { db.failRunningSteps runId reason.toJson with runs := runs }

def getOldestQueuedRun (db : Db) (agentId : String) : Option String :=
  if agentId = "" then none
  else
    ((db.runs.select fun r => r.initiatorAgentId = some agentId && r.status = .queued).argmin
      Run.createdAt).map Run.id

section Spec

variable {host : Host} {db db' : Db} {agentId runId : String} {m : Nat}

theorem length_runningIds (db : Db) (agentId : String) :
    (runningIds db agentId).length = countRunsByStatus db agentId .running := by
  simp [runningIds, Table.select, countRunsByStatus, List.countP_eq_length_filter]

theorem runningIds_nodup (db : Db) (agentId : String) : (runningIds db agentId).Nodup :=
  (List.Sublist.map Run.id List.filter_sublist).nodup db.runs.nodup

theorem running_le_occupied (host : Host) (db : Db) (agentId : String) :
    countRunsByStatus db agentId .running ≤ countOccupiedRunSlots host db agentId := by
  rw [← length_runningIds]
  apply List.Subperm.length_le
  apply List.subperm_of_subset (runningIds_nodup db agentId)
  intro id hid
  simp [hid]

theorem countOccupied_onlyReserves (h : OnlyReserves db db') :
    countOccupiedRunSlots host db' agentId = countOccupiedRunSlots host db agentId := by
  obtain ⟨extra, hrows, hextra⟩ := h.leases
  have hids : durableLeaseIds db' agentId = durableLeaseIds db agentId := by
    simp only [durableLeaseIds, Table.select, hrows, h.runs, List.filter_append, List.map_append]
    have hnone : extra.filter (fun l => decide (l.agentId = agentId) &&
        decide (l.workload.type = .run) && decide (l.phase = .active) &&
        (db.runs.find? l.workload.workloadId).isSome) = [] := by
      rw [List.filter_eq_nil_iff]
      intro l hl
      simp [hextra l hl]
    rw [hnone, List.map_nil, List.append_nil]
  simp only [countOccupiedRunSlots, hids, runningIds, h.runs]

theorem countRuns_onlyReserves (h : OnlyReserves db db') (status : RunStatus) :
    countRunsByStatus db' agentId status = countRunsByStatus db agentId status := by
  simp only [countRunsByStatus, h.runs]

theorem Db.casRun_countP_le {k : String} {p : Run → Bool} {f : Run → Run}
    {hf : ∀ r, (f r).id = r.id} {q : Run → Bool} (h : db.casRun k p f hf = some db')
    (hq : ∀ r, p r = true → q (f r) = true → q r = true) :
    db'.runs.rows.countP q ≤ db.runs.rows.countP q := by
  obtain ⟨-, -, -, rfl⟩ := casRun_some h
  refine Table.countP_updateWhere_le hf ?_
  intro r _ hp
  exact hq r (Bool.and_eq_true_iff.mp hp).2

theorem Db.casRun_countP_le_succ {k : String} {p : Run → Bool} {f : Run → Run}
    {hf : ∀ r, (f r).id = r.id} (q : Run → Bool) (h : db.casRun k p f hf = some db') :
    db'.runs.rows.countP q ≤ db.runs.rows.countP q + 1 := by
  obtain ⟨-, -, -, rfl⟩ := casRun_some h
  refine Table.countP_updateWhere_le_succ hf (k := k) ?_
  intro r _ hp
  simpa using (Bool.and_eq_true_iff.mp hp).1

theorem admitRunState_cases {adm : ScmWorkloadAdmission} {res : AdmitResult}
    (h : admitRunState host agentId runId m db adm = .ok (res, db')) :
    ∃ db₁, (res.slot = if countOccupiedRunSlots host db agentId < m then .acquired else .queued) ∧
      db.casRun runId (fun _ => true)
        (admitRow host (countOccupiedRunSlots host db agentId < m)) (fun _ => rfl) = some db₁ ∧
      MayActivate host (runWorkload runId) db₁ db' := by
  unfold admitRunState at h
  split at h
  · cases h
  dsimp only at h
  split at h
  · cases h
  split at h
  · cases h
  rename_i db₁ hcas
  split at h
  · rename_i hacq
    split at h
    · cases h
    · cases h
    · rename_i db₂ hact
      cases h
      have hlt : countOccupiedRunSlots host db agentId < m := by
        simpa using (Bool.and_eq_true_iff.mp hacq).1
      exact ⟨db₁, by simp [hlt], hcas, .inr ⟨_, hact⟩⟩
  · cases h
    exact ⟨_, by simp, hcas, .inl rfl⟩

theorem admitRunState_queueFull {adm : ScmWorkloadAdmission}
    (h : admitRunState host agentId runId m db adm = .error .runQueueFull) :
    m ≤ countOccupiedRunSlots host db agentId ∧ maxQueueLength ≤ countRunsByStatus db agentId .queued := by
  unfold admitRunState at h
  split at h
  · cases h
  dsimp only at h
  split at h
  · rename_i hfull
    simpa using hfull
  split at h
  · cases h
  split at h
  · split at h
    · rename_i e hact
      cases h
      exact absurd hact activate_ne_runQueueFull
    · cases h
    · cases h
  · cases h

theorem admitRun_cases {res : AdmitResult} (h : admitRun host db agentId runId m = .ok (res, db')) :
    (res.slot = .queueFull ∧ m ≤ countOccupiedRunSlots host db agentId ∧
      maxQueueLength ≤ countRunsByStatus db agentId .queued ∧ db' = db) ∨
    (∃ db₁ db₂, OnlyReserves db db₁ ∧
      (res.slot = if countOccupiedRunSlots host db agentId < m then .acquired else .queued) ∧
      db₁.casRun runId (fun _ => true)
        (admitRow host (countOccupiedRunSlots host db agentId < m)) (fun _ => rfl) = some db₂ ∧
      MayActivate host (runWorkload runId) db₂ db') := by
  unfold admitRun at h
  split at h
  · rename_i hfull
    cases h
    obtain ⟨db₁, adm, hres, hk⟩ := admission_runQueueFull hfull
    obtain ⟨hocc, hqueued⟩ := admitRunState_queueFull hk
    rw [countOccupied_onlyReserves hres] at hocc
    rw [countRuns_onlyReserves hres] at hqueued
    exact .inl ⟨rfl, hocc, hqueued, rfl⟩
  · obtain ⟨db₁, adm, hres, hk⟩ := admission_cases h
    rw [← countOccupied_onlyReserves hres]
    obtain ⟨db₂, hslot, hcas, hact⟩ := admitRunState_cases hk
    exact .inr ⟨db₁, db₂, hres, hslot, hcas, hact⟩

theorem promoteQueuedRun_cases {b : Bool}
    (h : promoteQueuedRun host db agentId runId m = .ok (b, db')) :
    (b = false ∧ db' = db) ∨
    (b = true ∧ countOccupiedRunSlots host db agentId < m ∧
      ∃ db₁, db.casRun runId (·.status = .queued) (promoteRow host) (fun _ => rfl) = some db₁ ∧
        MayActivate host (runWorkload runId) db₁ db') := by
  unfold promoteQueuedRun at h
  split at h
  · cases h
    exact .inl ⟨rfl, rfl⟩
  rename_i hlt
  split at h
  · cases h
    exact .inl ⟨rfl, rfl⟩
  rename_i db₁ hcas
  split at h
  · cases h
  rename_i activated db₂ hact
  split at h
  · cases h
  cases h
  exact .inr ⟨rfl, by omega, db₁, hcas, .inr ⟨_, hact⟩⟩

theorem runSteps_casRun {k : String} {p : Run → Bool} {f : Run → Run} {hf : ∀ r, (f r).id = r.id}
    (h : db.casRun k p f hf = some db') : db'.runSteps = db.runSteps := by
  obtain ⟨-, -, -, rfl⟩ := Db.casRun_some h
  rfl

theorem promoteQueuedRun_runSteps {b : Bool}
    (h : promoteQueuedRun host db agentId runId m = .ok (b, db')) :
    db'.runSteps = db.runSteps := by
  obtain ⟨-, rfl⟩ | ⟨-, -, db₁, hcas, hact⟩ := promoteQueuedRun_cases h
  · rfl
  · rw [hact.only.runSteps, runSteps_casRun hcas]

theorem admitRun_runSteps {res : AdmitResult}
    (h : admitRun host db agentId runId m = .ok (res, db')) : db'.runSteps = db.runSteps := by
  obtain ⟨-, -, -, rfl⟩ | ⟨db₁, db₂, hres, -, hcas, hact⟩ := admitRun_cases h
  · rfl
  · rw [hact.only.runSteps, runSteps_casRun hcas, hres.runSteps]

theorem requeueForResume_cases {code owner : Option String} {b : Bool}
    (h : requeueForResume host db runId code owner = (b, db')) :
    (b = false ∧ db' = db) ∨
    (b = true ∧ ∃ db₁, db.casRun runId
        (fun r => r.status = .running && owner.all fun o => decide (r.ownerInstanceId = some o))
        (requeueRow host db code) (fun _ => rfl) = some db₁ ∧
      db' = db₁.failRunningSteps runId FailureReason.serverRestartDuringExec.toJson) := by
  unfold requeueForResume at h
  split at h
  · cases h
    exact .inl ⟨rfl, rfl⟩
  · rename_i db₁ hcas
    cases h
    exact .inr ⟨rfl, db₁, hcas, rfl⟩

end Spec

end A2Wave
