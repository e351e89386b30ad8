import A2Wave.Queue.Capacity
import A2Wave.Run.Resume

/-! `recoverOnStartup` of `engine/task-queue.ts`, with the hooks that `index.ts` installs.
Recovery is one sequence of database accesses of the new process; what it starts through the
queue executes later. -/

namespace A2Wave.Recovery

structure RecoveryStats where
  pendingOrphaned : Nat := 0
  runningAborted : Nat := 0
  runningResumed : Nat := 0
  queuedPromoted : Nat := 0
  feishuQueuedReset : Nat := 0
  deriving DecidableEq, Repr

structure State where
  db : Db
  process : Capacity.Process
  stats : RecoveryStats := {}

def getRunsByStatus (db : Db) (agentId : String) (status : RunStatus) : List Run :=
  db.runs.select fun r => r.initiatorAgentId = some agentId && r.status = status

def getOrphanedPendingRuns (db : Db) (agentId : String) (cutoff : Nat) : List Run :=
  db.runs.select fun r =>
    r.initiatorAgentId = some agentId && r.status = .pending && r.createdAt < cutoff

def agentDeleted (db : Db) (r : Run) : Bool :=
  r.initiatorAgentId.any fun a => (db.agents.find? a).isNone

def getDanglingPendingRuns (db : Db) (cutoff : Nat) : List Run :=
  db.runs.select fun r => r.status = .pending && r.createdAt < cutoff && agentDeleted db r

def getDanglingQueuedRuns (db : Db) : List Run :=
  db.runs.select fun r => r.status = .queued && agentDeleted db r

def releaseRecovered (d : Dialect) (db : Db) (runId : String) : Db :=
  match d with
  | .postgres => db
  | .sqlite => (releaseRecoveredScmWorkload db (runWorkload runId)).2

def failRun (d : Dialect) (reason : FailureReason) (s : State) (run : Run) : State :=
  { s with db := releaseRecovered d (applyFailure s.process.host s.db run.id reason) run.id }

def requeueRun (d : Dialect) (s : State) (run : Run) : State :=
  let code := FailureReason.serverRestartDuringExec.code
  let marked := mergeExecutionMetadata d s.db run.id (.markRunForResume code)
  let requeued := (requeueForResume s.process.host marked run.id (some code) none).2
  { s with db := releaseRecovered d requeued run.id }

def recoverRunning (d : Dialect) (s : State) (run : Run) : State :=
  let aborted : State :=
    { failRun d .serverRestartDuringExec s run with
      stats := { s.stats with runningAborted := s.stats.runningAborted + 1 } }
  if run.triggerSource = some .feishu && awaitsFeishuEventReplay run then aborted
  else if canRequeueInterruptedRun s.db run.id FailureReason.serverRestartDuringExec.code then
    { requeueRun d s run with
      stats := { s.stats with runningResumed := s.stats.runningResumed + 1 } }
  else aborted

def failOrphan (d : Dialect) (reason : FailureReason) (s : State) (run : Run) : State :=
  { failRun d reason s run with
    stats := { s.stats with pendingOrphaned := s.stats.pendingOrphaned + 1 } }

def isRestartSafeFeishuRerun (run : Run) : Bool :=
  !awaitsFeishuEventReplay run && hasSendableNativeChatContext (metaGet? run.executionMetadata "nativeChatContext")

def resetQueued (d : Dialect) (s : State) (run : Run) : State :=
  if run.triggerSource = some .feishu && !isRestartSafeFeishuRerun run then
    { failRun d .feishuQueuedResetForReplay s run with
      stats := { s.stats with feishuQueuedReset := s.stats.feishuQueuedReset + 1 } }
  else s

def recoverInFlight (d : Dialect) (cutoff : Nat) (s : State) (agentId : String) : State :=
  let s₁ := (getRunsByStatus s.db agentId .running).foldl (recoverRunning d) s
  let s₂ := (getOrphanedPendingRuns s₁.db agentId cutoff).foldl
    (failOrphan d .pendingOrphanOnStartup) s₁
  (getRunsByStatus s₂.db agentId .queued).foldl (resetQueued d) s₂

/-- The loop of `scheduleNext`, with as many actions as the fuel allows. -/
def schedule (agentId : String) : Nat → Capacity.Process → Db → Capacity.SchedulePhase →
    Db × Capacity.Process × Capacity.SchedulePhase
  | 0, p, db, phase => (db, p, phase)
  | n + 1, p, db, phase =>
    match Capacity.actSchedule p db agentId phase with
    | none => (db, p, phase)
    | some (db', p', phase') => schedule agentId n p' db' phase'

def actionsLeft (max : Nat) : Capacity.SchedulePhase → Nat
  | .start => 4 * (maxQueueLength + max + 1) + 2
  | .count max iterations _ => 4 * (maxQueueLength + max - iterations) + 1
  | .oldest max iterations _ => 4 * (maxQueueLength + max - iterations) + 4
  | .promote max iterations _ _ => 4 * (maxQueueLength + max - iterations) + 3
  | .execute max iterations _ _ => 4 * (maxQueueLength + max - iterations) + 2
  | .returned _ => 0

def promotedCount : Capacity.SchedulePhase → Nat
  | .returned promoted => promoted
  | _ => 0

def scheduleNext (s : State) (agentId : String) : State :=
  let max := (getAgentMaxConcurrency s.db agentId).getD 0
  let result := schedule agentId (actionsLeft max .start) s.process s.db .start
  let queuedPromoted := s.stats.queuedPromoted + promotedCount result.2.2
  ⟨result.1, result.2.1, { s.stats with queuedPromoted := queuedPromoted }⟩

def recoverAgent (d : Dialect) (cutoff : Nat) (s : State) (agentId : String) : State :=
  match d with
  | .postgres => scheduleNext s agentId
  | .sqlite => scheduleNext (recoverInFlight d cutoff s agentId) agentId

def recoverOnStartup (d : Dialect) (pendingOrphanTimeoutMs : Nat) (process : Capacity.Process)
    (db : Db) : State :=
  let cutoff := process.host.now - pendingOrphanTimeoutMs
  let s₁ := (db.agents.rows.map Agent.id).foldl (recoverAgent d cutoff) ⟨db, process, {}⟩
  let s₂ := (getDanglingPendingRuns s₁.db cutoff).foldl (failOrphan d .danglingRunOnStartup) s₁
  (getDanglingQueuedRuns s₂.db).foldl (failOrphan d .danglingRunOnStartup) s₂

section Schedule

variable {agentId : String} {p p' : Capacity.Process} {db db' : Db}
  {phase phase' : Capacity.SchedulePhase} {max : Nat}

theorem actSchedule_none (h : Capacity.actSchedule p db agentId phase = none) :
    ∃ promoted, phase = .returned promoted := by
  cases phase with
  | returned promoted => exact ⟨promoted, rfl⟩
  | start | count max iterations promoted =>
    simp only [Capacity.actSchedule] at h
    split at h
    · cases h
    split at h <;> cases h
  | oldest max iterations promoted | promote max iterations promoted next =>
    simp only [Capacity.actSchedule] at h
    split at h <;> cases h
  | execute max iterations promoted next => cases h

theorem actionsLeft_lt (hmax : phase = .start → (getAgentMaxConcurrency db agentId).getD 0 = max)
    (h : Capacity.actSchedule p db agentId phase = some (db', p', phase')) :
    actionsLeft max phase' < actionsLeft max phase ∧ phase' ≠ .start := by
  refine ⟨?_, ?_⟩
  · cases Capacity.actSchedule_step h with
    | ends hphase =>
      cases phase with
      | returned promoted => exact absurd rfl (hphase promoted)
      | start | count | oldest | promote | execute => simp [actionsLeft]
    | starts hm =>
      have hm' := hmax rfl
      rw [hm, Option.getD_some] at hm'
      subst hm'
      simp only [actionsLeft]
      omega
    | counts hle =>
      simp only [actionsLeft]
      omega
    | finds _ | skips _ | promotes _ | executes => simp [actionsLeft]
  · cases Capacity.actSchedule_step h <;> simp

theorem schedule_returns {n : Nat}
    (hmax : phase = .start → (getAgentMaxConcurrency db agentId).getD 0 = max)
    (hn : actionsLeft max phase ≤ n) :
    ∃ promoted, (schedule agentId n p db phase).2.2 = .returned promoted := by
  induction n generalizing p db phase with
  | zero =>
    cases phase with
    | returned promoted => exact ⟨promoted, rfl⟩
    | _ => simp [actionsLeft] at hn
  | succ n ih =>
    simp only [schedule]
    cases h : Capacity.actSchedule p db agentId phase with
    | none => exact actSchedule_none h
    | some next =>
      obtain ⟨db', p', phase'⟩ := next
      obtain ⟨hlt, hne⟩ := actionsLeft_lt hmax h
      exact ih (fun hstart => absurd hstart hne) (by omega)

theorem scheduleNext_returns (s : State) : ∃ promoted, (schedule agentId
      (actionsLeft ((getAgentMaxConcurrency s.db agentId).getD 0) .start) s.process s.db
      .start).2.2 = .returned promoted :=
  schedule_returns (fun _ => rfl) (Nat.le_refl _)

end Schedule

def status (r : String) (db : Db) : Option RunStatus := (db.runs.find? r).map Run.status

def place (r : String) (db : Db) : Option (Option String × Option String) :=
  (db.runs.find? r).map fun run => (run.initiatorAgentId, run.workDir)

def lease (r : String) (db : Db) : Option ScmWorkloadLease := loadLease db (runWorkload r)

structure Framed (db db' : Db) : Prop where
  agents : db'.agents = db.agents
  scmSources : db'.scmSources = db.scmSources
  place : ∀ r, place r db' = place r db

structure WritesRun (k : String) (db db' : Db) : Prop extends Framed db db' where
  other : ∀ r, r ≠ k → status r db' = status r db ∧ lease r db' = lease r db

section Writes

variable {k : String} {db db' db'' : Db} {host : Host}

theorem Framed.refl (db : Db) : Framed db db := ⟨rfl, rfl, fun _ => rfl⟩

theorem Framed.trans (h : Framed db db') (h' : Framed db' db'') : Framed db db'' :=
  ⟨h'.agents.trans h.agents, h'.scmSources.trans h.scmSources,
    fun r => (h'.place r).trans (h.place r)⟩

theorem WritesRun.refl (k : String) (db : Db) : WritesRun k db db :=
  ⟨.refl db, fun _ _ => ⟨rfl, rfl⟩⟩

theorem WritesRun.trans (h : WritesRun k db db') (h' : WritesRun k db' db'') : WritesRun k db db'' := by
  refine ⟨h.toFramed.trans h'.toFramed, fun r hr => ?_⟩
  obtain ⟨hs, hl⟩ := h.other r hr
  obtain ⟨hs', hl'⟩ := h'.other r hr
  exact ⟨hs'.trans hs, hl'.trans hl⟩

theorem writesRun_update {p : Run → Bool} {f : Run → Run} {hf : ∀ r, (f r).id = r.id}
    (hp : ∀ r, p r = true → r.id = k)
    (hplace : ∀ r, (f r).initiatorAgentId = r.initiatorAgentId ∧ (f r).workDir = r.workDir) :
    WritesRun k db { db with runs := db.runs.updateWhere p f hf } := by
  refine ⟨⟨rfl, rfl, fun r => ?_⟩, fun r hr => ⟨?_, rfl⟩⟩
  · simp only [place, Table.find?_updateWhere, Option.map_map]
    congr 1
    funext run
    simp only [Function.comp]
    split
    · rw [(hplace run).1, (hplace run).2]
    · rfl
  · simp only [status, Table.find?_updateWhere, Option.map_map]
    cases h : db.runs.find? r with
    | none => rfl
    | some run =>
      have hid : run.id = r := Table.find?_some_key h
      have hfalse : p run = false := by
        cases hpr : p run with
        | false => rfl
        | true => exact absurd (hid.symm.trans (hp run hpr)) hr
      simp [hfalse]

theorem writesRun_casRun {p : Run → Bool} {f : Run → Run} {hf : ∀ r, (f r).id = r.id}
    (h : db.casRun k p f hf = some db')
    (hplace : ∀ r, (f r).initiatorAgentId = r.initiatorAgentId ∧ (f r).workDir = r.workDir) :
    WritesRun k db db' := by
  obtain ⟨-, -, -, rfl⟩ := Db.casRun_some h
  refine writesRun_update (fun r hr => ?_) hplace
  simpa using (Bool.and_eq_true_iff.mp hr).1

theorem writesRun_steps {p : RunStep → Bool} {f : RunStep → RunStep} {hf : ∀ s, (f s).id = s.id} :
    WritesRun k db (db.updateSteps p f hf) :=
  ⟨⟨rfl, rfl, fun _ => rfl⟩, fun _ _ => ⟨rfl, rfl⟩⟩

theorem lease_deleteLeases {p : ScmWorkloadLease → Bool} {r : String}
    (hp : ∀ l, p l = true → l.workload ≠ runWorkload r) :
    lease r (db.deleteLeases p) = lease r db := by
  simp only [lease, loadLease, Db.deleteLeases, Table.find?_deleteWhere]
  cases h : db.scmWorkloadLeases.find? (runWorkload r) with
  | none => rfl
  | some l =>
    have hid : l.workload = runWorkload r := Table.find?_some_key h
    cases hpl : p l with
    | false => simp [hpl]
    | true => exact absurd hid (hp l hpl)

theorem runWorkload_ne {r : String} (h : r ≠ k) : runWorkload k ≠ runWorkload r := by
  intro heq
  cases heq
  exact h rfl

theorem writesRun_releaseRecovered (d : Dialect) : WritesRun k db (releaseRecovered d db k) := by
  cases d with
  | postgres => exact .refl k db
  | sqlite =>
    refine ⟨⟨rfl, rfl, fun _ => rfl⟩, fun r hr => ⟨rfl, ?_⟩⟩
    refine lease_deleteLeases fun l hl => ?_
    rw [of_decide_eq_true hl]
    exact runWorkload_ne hr

theorem lease_releaseRecovered : lease k (releaseRecovered .sqlite db k) = none := by
  simp only [releaseRecovered, releaseRecoveredScmWorkload, lease, loadLease, Db.deleteLeases,
    Table.find?_deleteWhere, Option.filter_eq_none_iff]
  intro l hl
  have hid : l.workload = runWorkload k := Table.find?_some_key hl
  simp [hid]

theorem status_releaseRecovered (d : Dialect) (r : String) : status r (releaseRecovered d db k) = status r db := by
  cases d <;> rfl

theorem writesRun_applyFailure (reason : FailureReason) : WritesRun k db (applyFailure host db k reason) := by
  have hsteps : WritesRun k db (db.failRunningSteps k reason.toJson) := writesRun_steps
  have hreason : WritesRun k (db.failRunningSteps k reason.toJson)
      (failRunWithStructuredReason host db k reason) :=
    writesRun_update (fun r hr => by simpa using hr) (fun _ => ⟨rfl, rfl⟩)
  have hstatus : WritesRun k (failRunWithStructuredReason host db k reason)
      (applyFailure host db k reason) :=
    writesRun_update (fun r hr => by simpa using hr) (fun _ => ⟨rfl, rfl⟩)
  exact (hsteps.trans hreason).trans hstatus

theorem status_applyFailure (reason : FailureReason) :
    status k (applyFailure host db k reason) = (db.runs.find? k).map fun _ => .failed := by
  simp only [status, applyFailure, updateRunStatus, failRunWithStructuredReason,
    Table.find?_updateWhere, Option.map_map]
  cases h : db.runs.find? k with
  | none => rfl
  | some run =>
    have hid : run.id = k := Table.find?_some_key h
    simp [hid, reasonRow, statusRow]

theorem writesRun_merge (d : Dialect) (call : MergeCall) : WritesRun k db (mergeExecutionMetadata d db k call) := by
  unfold mergeExecutionMetadata
  split
  · exact .refl k db
  · rename_i run _
    cases h : mergeWrite d db k run.executionMetadata call with
    | none => exact .refl k db
    | some db' => exact writesRun_casRun h (fun _ => ⟨rfl, rfl⟩)

theorem writesRun_requeueForResume {code owner : Option String} :
    WritesRun k db (requeueForResume host db k code owner).2 := by
  cases h : requeueForResume host db k code owner with
  | mk b db' =>
    obtain ⟨-, rfl⟩ | ⟨-, db₁, hcas, rfl⟩ := requeueForResume_cases h
    · exact .refl k _
    · exact (writesRun_casRun hcas fun _ => ⟨rfl, rfl⟩).trans writesRun_steps

theorem writesRun_activates (h : OnlyActivates (runWorkload k) db db') : WritesRun k db db' := by
  obtain rfl | ⟨_, _, rfl⟩ := h
  · exact .refl k _
  · refine ⟨⟨rfl, rfl, fun _ => rfl⟩, fun r hr => ⟨rfl, ?_⟩⟩
    simp only [lease, loadLease, Db.activateLease, Table.find?_updateWhere]
    cases hl : db.scmWorkloadLeases.find? (runWorkload r) with
    | none => rfl
    | some l' =>
      have hid : l'.workload = runWorkload r := Table.find?_some_key hl
      simp [hid, (runWorkload_ne hr).symm]

theorem promoteQueuedRun_writes {agentId : String} {m : Nat} {b : Bool}
    (h : promoteQueuedRun host db agentId k m = .ok (b, db')) :
    WritesRun k db db' ∧ (db' = db ∨ status k db' = some .running) := by
  obtain ⟨-, rfl⟩ | ⟨-, -, db₁, hcas, hact⟩ := promoteQueuedRun_cases h
  · exact ⟨.refl k _, .inl rfl⟩
  · refine ⟨(writesRun_casRun hcas fun _ => ⟨rfl, rfl⟩).trans (writesRun_activates hact.only), .inr ?_⟩
    obtain ⟨run, -, -, hnew, -⟩ := Db.casRun_find? hcas
    simp [status, hact.only.runs, hnew, promoteRow]

end Writes

structure Keeps (r : String) (db db' : Db) : Prop extends Framed db db' where
  queued : status r db' = some .queued → status r db = some .queued ∧ lease r db' = lease r db

structure Same (r : String) (db db' : Db) : Prop extends Framed db db' where
  status : status r db' = status r db
  lease : lease r db' = lease r db

/-- A run that is queued afterwards was queued before, under the same lease, or it was running
and has no lease. -/
structure Recovers (r : String) (db db' : Db) : Prop extends Framed db db' where
  queued : status r db' = some .queued → (status r db = some .queued ∧ lease r db' = lease r db) ∨
    (status r db = some .running ∧ lease r db' = none)

section Relations

variable {r : String} {db db' db'' : Db}

theorem Same.refl (r : String) (db : Db) : Same r db db := ⟨.refl db, rfl, rfl⟩

theorem Same.trans (h : Same r db db') (h' : Same r db' db'') : Same r db db'' :=
  ⟨h.toFramed.trans h'.toFramed, h'.status.trans h.status, h'.lease.trans h.lease⟩

theorem Same.keeps (h : Same r db db') : Keeps r db db' :=
  ⟨h.toFramed, fun hq => ⟨h.status.symm.trans hq, h.lease⟩⟩

theorem WritesRun.same {k : String} (h : WritesRun k db db') (hr : r ≠ k) : Same r db db' :=
  ⟨h.toFramed, (h.other r hr).1, (h.other r hr).2⟩

theorem WritesRun.keeps {k : String} (h : WritesRun k db db')
    (hk : status k db' ≠ some .queued) : Keeps r db db' := by
  by_cases hr : r = k
  · subst hr
    exact ⟨h.toFramed, fun hq => absurd hq hk⟩
  · exact (h.same hr).keeps

theorem Keeps.refl (r : String) (db : Db) : Keeps r db db := (Same.refl r db).keeps

theorem Keeps.trans (h : Keeps r db db') (h' : Keeps r db' db'') : Keeps r db db'' := by
  refine ⟨h.toFramed.trans h'.toFramed, fun hq => ?_⟩
  obtain ⟨hq', hl'⟩ := h'.queued hq
  obtain ⟨hq₀, hl⟩ := h.queued hq'
  exact ⟨hq₀, hl'.trans hl⟩

theorem Keeps.recovers (h : Keeps r db db') : Recovers r db db' :=
  ⟨h.toFramed, fun hq => .inl (h.queued hq)⟩

theorem Recovers.keeps (h : Recovers r db db') (h' : Keeps r db' db'') : Recovers r db db'' := by
  refine ⟨h.toFramed.trans h'.toFramed, fun hq => ?_⟩
  obtain ⟨hq', hl'⟩ := h'.queued hq
  rw [hl']
  exact h.queued hq'

theorem Same.recovers (h : Same r db db') (h' : Recovers r db' db'') : Recovers r db db'' := by
  refine ⟨h.toFramed.trans h'.toFramed, fun hq => ?_⟩
  rw [← h.status, ← h.lease]
  exact h'.queued hq

end Relations

section Folds

variable {r : String} {d : Dialect} {s : State} {agentId : String}

theorem foldl_keeps {f : State → Run → State} {l : List Run}
    (hf : ∀ s run, run ∈ l → Keeps r s.db (f s run).db) : Keeps r s.db (l.foldl f s).db :=
  List.foldlRecOn l f (motive := fun s' => Keeps r s.db s'.db) (.refl r s.db)
    fun _ h run hrun => h.trans (hf _ run hrun)

theorem foldl_same {f : State → Run → State} {l : List Run}
    (hf : ∀ s run, run ∈ l → Same r s.db (f s run).db) : Same r s.db (l.foldl f s).db :=
  List.foldlRecOn l f (motive := fun s' => Same r s.db s'.db) (.refl r s.db)
    fun _ h run hrun => h.trans (hf _ run hrun)

theorem failRun_writes (reason : FailureReason) (run : Run) : WritesRun run.id s.db (failRun d reason s run).db :=
  (writesRun_applyFailure reason).trans (writesRun_releaseRecovered d)

theorem failRun_status (reason : FailureReason) (run : Run) :
    status run.id (failRun d reason s run).db ≠ some .queued := by
  simp only [failRun, status_releaseRecovered, status_applyFailure]
  cases s.db.runs.find? run.id <;> simp

theorem failRun_keeps (reason : FailureReason) (run : Run) : Keeps r s.db (failRun d reason s run).db :=
  (failRun_writes reason run).keeps (failRun_status reason run)

theorem requeueRun_writes (run : Run) : WritesRun run.id s.db (requeueRun d s run).db :=
  ((writesRun_merge d _).trans writesRun_requeueForResume).trans (writesRun_releaseRecovered d)

theorem recoverRunning_cases (run : Run) :
    (recoverRunning d s run).db = (failRun d .serverRestartDuringExec s run).db ∨
    (recoverRunning d s run).db = (requeueRun d s run).db := by
  unfold recoverRunning
  dsimp only
  split
  · exact .inl rfl
  split
  · exact .inr rfl
  · exact .inl rfl

theorem recoverRunning_writes (run : Run) : WritesRun run.id s.db (recoverRunning d s run).db := by
  rcases recoverRunning_cases (d := d) (s := s) run with h | h <;> rw [h]
  · exact failRun_writes _ run
  · exact requeueRun_writes run

theorem recoverRunning_recovers {run : Run} (hrun : status run.id s.db = some .running) :
    Recovers run.id s.db (recoverRunning .sqlite s run).db := by
  rcases recoverRunning_cases (d := .sqlite) (s := s) run with h | h <;> rw [h]
  · exact (failRun_keeps _ run).recovers
  · exact ⟨(requeueRun_writes run).toFramed, fun _ => .inr ⟨hrun, lease_releaseRecovered⟩⟩

theorem foldl_recoverRunning {l : List Run} (hnodup : (l.map Run.id).Nodup)
    (hl : ∀ run ∈ l, status run.id s.db = some .running) :
    Recovers r s.db (l.foldl (recoverRunning .sqlite) s).db := by
  induction l generalizing s with
  | nil => exact (Keeps.refl r s.db).recovers
  | cons run l ih =>
    rw [List.map_cons, List.nodup_cons] at hnodup
    rw [List.foldl_cons]
    have hother : ∀ run' ∈ l, run'.id ≠ run.id :=
      fun run' hmem heq => hnodup.1 (heq ▸ List.mem_map_of_mem hmem)
    have hwrites : WritesRun run.id s.db (recoverRunning .sqlite s run).db :=
      recoverRunning_writes run
    by_cases hr : r = run.id
    · subst hr
      refine (recoverRunning_recovers (hl run (by simp))).keeps (Same.keeps ?_)
      exact foldl_same fun s' run' hmem => (recoverRunning_writes run').same (hother run' hmem).symm
    · refine (hwrites.same hr).recovers (ih hnodup.2 fun run' hmem => ?_)
      rw [(hwrites.other run'.id (hother run' hmem)).1]
      exact hl run' (by simp [hmem])

theorem failOrphan_keeps (reason : FailureReason) (run : Run) : Keeps r s.db (failOrphan d reason s run).db := by
  have h : Keeps r s.db (failRun d reason s run).db := failRun_keeps reason run
  exact h

theorem resetQueued_cases (run : Run) : (resetQueued d s run).db = (failRun d .feishuQueuedResetForReplay s run).db ∨
    (resetQueued d s run).db = s.db := by
  unfold resetQueued
  split
  · exact .inl rfl
  · exact .inr rfl

theorem resetQueued_keeps (run : Run) : Keeps r s.db (resetQueued d s run).db := by
  rcases resetQueued_cases (d := d) (s := s) run with h | h <;> rw [h]
  · exact failRun_keeps _ run
  · exact .refl r _

theorem resetQueued_writes (run : Run) : WritesRun run.id s.db (resetQueued d s run).db := by
  rcases resetQueued_cases (d := d) (s := s) run with h | h <;> rw [h]
  · exact failRun_writes _ run
  · exact .refl _ _

theorem select_nodup (t : Table Run) (p : Run → Bool) : ((t.select p).map Run.id).Nodup :=
  (List.filter_sublist.map Run.id).nodup t.nodup

theorem status_of_mem {db : Db} {p : Run → Bool} {run : Run} (h : run ∈ db.runs.select p) :
    status run.id db = some run.status := by
  have hfind : db.runs.find? run.id = some run :=
    Table.find?_eq_some_iff.mpr ⟨List.mem_of_mem_filter h, rfl⟩
  simp [status, hfind]

theorem recoverInFlight_recovers {cutoff : Nat} : Recovers r s.db (recoverInFlight .sqlite cutoff s agentId).db := by
  unfold recoverInFlight
  dsimp only
  refine ((foldl_recoverRunning (select_nodup _ _) fun run hrun => ?_).keeps
    (foldl_keeps fun _ run _ => failOrphan_keeps _ run)).keeps
    (foldl_keeps fun _ run _ => resetQueued_keeps run)
  rw [status_of_mem hrun]
  have hp := List.of_mem_filter hrun
  simp only [Bool.and_eq_true, decide_eq_true_eq] at hp
  rw [hp.2]

theorem ne_of_initiator {db : Db} {p : Run → Bool} {run : Run} {w : Option String}
    {a : Option String} (hr : place r db = some (a, w)) (hrun : run ∈ db.runs.select p)
    (hne : run.initiatorAgentId ≠ a) : r ≠ run.id := by
  rintro rfl
  have hfind : db.runs.find? run.id = some run :=
    Table.find?_eq_some_iff.mpr ⟨List.mem_of_mem_filter hrun, rfl⟩
  simp only [place, hfind, Option.map_some, Option.some.injEq, Prod.mk.injEq] at hr
  exact hne hr.1

theorem recoverInFlight_same (cutoff : Nat) {a w : Option String} (hr : place r s.db = some (a, w))
    (hne : a ≠ some agentId) : Same r s.db (recoverInFlight d cutoff s agentId).db := by
  unfold recoverInFlight
  dsimp only
  have hmine : ∀ {db : Db} {p : Run → Bool} {run : Run}, place r db = some (a, w) →
      (∀ r, p r = true → r.initiatorAgentId = some agentId) → run ∈ db.runs.select p → r ≠ run.id := by
    intro db p run hplace hp hrun
    exact ne_of_initiator hplace hrun fun heq => hne (heq.symm.trans (hp run (List.of_mem_filter hrun)))
  have h₁ : Same r s.db ((getRunsByStatus s.db agentId .running).foldl (recoverRunning d) s).db := by
    refine foldl_same fun _ run hrun => (recoverRunning_writes run).same (hmine hr ?_ hrun)
    intro r h
    simpa using (Bool.and_eq_true_iff.mp h).1
  generalize (getRunsByStatus s.db agentId .running).foldl (recoverRunning d) s = s₁ at h₁
  have hr₁ : place r s₁.db = some (a, w) := (h₁.place r).trans hr
  have h₂ : Same r s₁.db ((getOrphanedPendingRuns s₁.db agentId cutoff).foldl
      (failOrphan d .pendingOrphanOnStartup) s₁).db := by
    refine foldl_same fun _ run hrun => (failRun_writes _ run).same (hmine hr₁ ?_ hrun)
    intro r h
    simpa using (Bool.and_eq_true_iff.mp (Bool.and_eq_true_iff.mp h).1).1
  generalize (getOrphanedPendingRuns s₁.db agentId cutoff).foldl
    (failOrphan d .pendingOrphanOnStartup) s₁ = s₂ at h₂
  have hr₂ : place r s₂.db = some (a, w) := (h₂.place r).trans hr₁
  refine (h₁.trans h₂).trans (foldl_same fun _ run hrun => ?_)
  refine (resetQueued_writes run).same (hmine hr₂ ?_ hrun)
  intro r h
  simpa using (Bool.and_eq_true_iff.mp h).1

end Folds

section Promotion

variable {r : String} {d : Dialect} {s : State} {agentId : String} {db db' : Db}
  {p p' : Capacity.Process} {phase phase' : Capacity.SchedulePhase}

theorem promoteQueuedRun_keeps {host : Host} {next : String} {m : Nat} {b : Bool}
    (h : promoteQueuedRun host db agentId next m = .ok (b, db')) : Keeps r db db' := by
  obtain ⟨hwrites, rfl | hrunning⟩ := promoteQueuedRun_writes h
  · exact .refl r _
  · exact hwrites.keeps (by simp [hrunning])

theorem actSchedule_keeps (h : Capacity.actSchedule p db agentId phase = some (db', p', phase')) : Keeps r db db' := by
  cases Capacity.actSchedule_step h with
  | skips hp | promotes hp => exact promoteQueuedRun_keeps hp
  | ends | starts | counts | finds | executes => exact .refl r _

theorem schedule_keeps (n : Nat) : Keeps r db (schedule agentId n p db phase).1 := by
  induction n generalizing p db phase with
  | zero => exact .refl r db
  | succ n ih =>
    simp only [schedule]
    cases h : Capacity.actSchedule p db agentId phase with
    | none => exact .refl r db
    | some next =>
      obtain ⟨db', p', phase'⟩ := next
      exact (actSchedule_keeps h).trans ih

def Avoids (r : String) : Capacity.SchedulePhase → Prop
  | .promote _ _ _ next => r ≠ next
  | _ => True

theorem getOldestQueuedRun_place {next : String} (h : getOldestQueuedRun db agentId = some next) :
    ∃ w, place next db = some (some agentId, w) := by
  unfold getOldestQueuedRun at h
  split at h
  · cases h
  obtain ⟨run, hrun, rfl⟩ := Option.map_eq_some_iff.mp h
  have hmem := List.argmin_mem hrun
  have hfind : db.runs.find? run.id = some run :=
    Table.find?_eq_some_iff.mpr ⟨List.mem_of_mem_filter hmem, rfl⟩
  have hp := List.of_mem_filter hmem
  simp only [Bool.and_eq_true, decide_eq_true_eq] at hp
  exact ⟨run.workDir, by simp [place, hfind, hp.1]⟩

variable {a w : Option String}

theorem actSchedule_same (hr : place r db = some (a, w))
    (hne : a ≠ some agentId) (hphase : Avoids r phase)
    (h : Capacity.actSchedule p db agentId phase = some (db', p', phase')) :
    Same r db db' ∧ Avoids r phase' := by
  cases Capacity.actSchedule_step h with
  | finds hnext =>
    refine ⟨.refl r _, ?_⟩
    rintro rfl
    obtain ⟨w', hplace⟩ := getOldestQueuedRun_place hnext
    rw [hr, Option.some.injEq, Prod.mk.injEq] at hplace
    exact hne hplace.1
  | skips hp | promotes hp => exact ⟨(promoteQueuedRun_writes hp).1.same hphase, trivial⟩
  | ends | starts | counts | executes => exact ⟨.refl r _, trivial⟩

theorem schedule_same (n : Nat) (hr : place r db = some (a, w))
    (hne : a ≠ some agentId) (hphase : Avoids r phase) :
    Same r db (schedule agentId n p db phase).1 := by
  induction n generalizing p db phase with
  | zero => exact .refl r db
  | succ n ih =>
    simp only [schedule]
    cases h : Capacity.actSchedule p db agentId phase with
    | none => exact .refl r db
    | some next =>
      obtain ⟨db', p', phase'⟩ := next
      obtain ⟨hsame, hphase'⟩ := actSchedule_same hr hne hphase h
      exact hsame.trans (ih ((hsame.place r).trans hr) hphase')

theorem scheduleNext_keeps : Keeps r s.db (scheduleNext s agentId).db := by
  unfold scheduleNext
  exact schedule_keeps _

theorem scheduleNext_same (hr : place r s.db = some (a, w))
    (hne : a ≠ some agentId) : Same r s.db (scheduleNext s agentId).db := by
  unfold scheduleNext
  exact schedule_same _ hr hne trivial

variable {cutoff : Nat}

theorem recoverAgent_recovers : Recovers r s.db (recoverAgent d cutoff s agentId).db := by
  cases d with
  | postgres => exact scheduleNext_keeps.recovers
  | sqlite => exact recoverInFlight_recovers.keeps scheduleNext_keeps

theorem recoverAgent_same (hr : place r s.db = some (a, w))
    (hne : a ≠ some agentId) : Same r s.db (recoverAgent d cutoff s agentId).db := by
  cases d with
  | postgres => exact scheduleNext_same hr hne
  | sqlite =>
    have hsame := recoverInFlight_same (d := .sqlite) cutoff hr hne
    exact hsame.trans (scheduleNext_same ((hsame.place r).trans hr) hne)

theorem foldl_recoverAgent_same {l : List String}
    (hr : place r s.db = some (a, w)) (hne : ∀ b ∈ l, a ≠ some b) :
    Same r s.db (l.foldl (recoverAgent d cutoff) s).db := by
  induction l generalizing s with
  | nil => exact .refl r _
  | cons b l ih =>
    rw [List.foldl_cons]
    have hsame : Same r s.db (recoverAgent d cutoff s b).db :=
      recoverAgent_same hr (hne b (by simp))
    exact hsame.trans (ih ((hsame.place r).trans hr) fun c hc => hne c (by simp [hc]))

theorem foldl_recoverAgent {l : List String} (hnodup : l.Nodup) :
    Recovers r s.db (l.foldl (recoverAgent d cutoff) s).db := by
  induction l generalizing s with
  | nil => exact (Keeps.refl r _).recovers
  | cons b l ih =>
    rw [List.nodup_cons] at hnodup
    rw [List.foldl_cons]
    have hhead : Recovers r s.db (recoverAgent d cutoff s b).db := recoverAgent_recovers
    cases hplace : place r s.db with
    | none =>
      -- there is no such run, before and after
      refine ⟨hhead.toFramed.trans (ih hnodup.2).toFramed, fun hq => ?_⟩
      have hnone := ((hhead.toFramed.trans (ih (s := recoverAgent d cutoff s b) hnodup.2).toFramed).place
        r).trans hplace
      simp only [place, Option.map_eq_none_iff] at hnone
      simp [status, hnone] at hq
    | some q =>
      obtain ⟨a, w⟩ := q
      by_cases hb : a = some b
      · refine hhead.keeps (Same.keeps (foldl_recoverAgent_same ((hhead.place r).trans hplace) ?_))
        rintro c hc rfl
        cases hb
        exact hnodup.1 hc
      · exact (recoverAgent_same hplace hb).recovers (ih hnodup.2)

theorem recoverOnStartup_recovers {timeout : Nat} {process : Capacity.Process} :
    Recovers r db (recoverOnStartup d timeout process db).db := by
  unfold recoverOnStartup
  dsimp only
  exact ((foldl_recoverAgent (s := ⟨db, process, {}⟩) db.agents.nodup).keeps
    (foldl_keeps fun _ run _ => failOrphan_keeps _ run)).keeps
    (foldl_keeps fun _ run _ => failOrphan_keeps _ run)

end Promotion

def Promotable (host : Host) (db : Db) (agentId r : String) (l : Option ScmWorkloadLease) : Prop :=
  host.hasLostHeartbeatOwnership = false ∧
    match l with
    | none => (db.agents.find? agentId).map Agent.workspaceType = some .temp
    | some l =>
      if l.phase = .active then l.ownerInstanceId = some host.processInstanceId
      else blockedBySync host db l (runWorkload r) = false

def leaseAfterCrash (db : Db) (r : String) : Option ScmWorkloadLease :=
  if status r db = some .running then none else lease r db

section Settle

variable {host : Host} {db db' : Db} {agentId r : String} {l : Option ScmWorkloadLease}

theorem blockedBySync_framed (h : Framed db db') (l : ScmWorkloadLease) :
    blockedBySync host db' l (runWorkload r) = blockedBySync host db l (runWorkload r) := by
  have hplace := congrArg (fun q => q.bind Prod.snd) (h.place r)
  simp only [place, Option.bind_map] at hplace
  have hworkDir : (db'.runs.find? r).bind (·.workDir) = (db.runs.find? r).bind (·.workDir) := hplace
  have hocc : workloadOccupiesSharedCheckout host db' (runWorkload r) =
      workloadOccupiesSharedCheckout host db (runWorkload r) := by
    funext claim
    simp only [workloadOccupiesSharedCheckout, runWorkload, hworkDir]
  simp only [blockedBySync, findScmSourceSyncClaim, h.scmSources, hocc]

theorem Promotable.framed_iff (h : Framed db db') :
    Promotable host db' agentId r l ↔ Promotable host db agentId r l := by
  cases l with
  | none => simp only [Promotable, h.agents]
  | some l => simp only [Promotable, blockedBySync_framed h]

theorem promoteQueuedRun_iff {m : Nat} (hq : status r db = some .queued)
    (hfree : countOccupiedRunSlots host db agentId < m) :
    (∃ db', promoteQueuedRun host db agentId r m = .ok (true, db')) ↔ Promotable host db agentId r (lease r db) := by
  obtain ⟨run, hrun, hstatus⟩ := Option.map_eq_some_iff.mp hq
  obtain ⟨db₁, hcas⟩ : ∃ db₁, db.casRun r (·.status = .queued) (promoteRow host) (fun _ => rfl) = some db₁ := by
    cases h : db.casRun r (·.status = .queued) (promoteRow host) (fun _ => rfl) with
    | none =>
      have hnone := Db.casRun_eq_none_iff.mp h run hrun
      simp [hstatus] at hnone
    | some db₁ => exact ⟨db₁, rfl⟩
  have hwrites : WritesRun r db db₁ := writesRun_casRun hcas fun _ => ⟨rfl, rfl⟩
  have hlease : loadLease db₁ (runWorkload r) = lease r db := by
    obtain ⟨-, -, -, rfl⟩ := Db.casRun_some hcas
    rfl
  rw [← Promotable.framed_iff hwrites.toFramed]
  simp only [promoteQueuedRun, if_neg (Nat.not_le.mpr hfree), hcas, activateScmWorkloadInMutation, hlease]
  cases hl : lease r db with
  | none =>
    simp only [Promotable]
    by_cases hlost : host.hasLostHeartbeatOwnership <;>
      by_cases ht : (db₁.agents.find? agentId).map Agent.workspaceType = some .temp <;>
        simp [hlost, ht]
  | some l =>
    simp only [Promotable]
    by_cases hlost : host.hasLostHeartbeatOwnership
    · simp [hlost]
    by_cases hphase : l.phase = .active
    · by_cases howner : l.ownerInstanceId = some host.processInstanceId <;>
        simp [hlost, hphase, howner]
    · by_cases hsync : blockedBySync host db₁ l (runWorkload r) <;>
        simp [hlost, hphase, hsync]

end Settle

/-- A run that startup recovery leaves queued, of an agent with a free slot, is promoted
exactly when it can take the lease that the crash left it with; a run that was running has
none, so its agent must not use SCM. -/
theorem recovered_run_promoted_iff (d : Dialect) (timeout : Nat) (process : Capacity.Process)
    (db : Db) (host : Host) (r agentId : String) (m : Nat)
    (hq : status r (recoverOnStartup d timeout process db).db = some .queued)
    (hfree : countOccupiedRunSlots host (recoverOnStartup d timeout process db).db agentId < m) :
    (∃ db', promoteQueuedRun host (recoverOnStartup d timeout process db).db agentId r m = .ok (true, db')) ↔
      Promotable host db agentId r (leaseAfterCrash db r) := by
  have hrec : Recovers r db (recoverOnStartup d timeout process db).db := recoverOnStartup_recovers
  rw [promoteQueuedRun_iff hq hfree, Promotable.framed_iff hrec.toFramed]
  obtain ⟨hstatus, hlease⟩ | ⟨hstatus, hlease⟩ := hrec.queued hq
  · rw [hlease, leaseAfterCrash, hstatus]
    simp
  · rw [hlease, leaseAfterCrash, hstatus]
    simp

def created (workspaceType : WorkspaceType) (scmSourceId : Option String) : Db where
  runs := ⟨[{ id := "run_1", status := .pending, initiatorAgentId := some "agent_1"
              triggerSource := some .schedule }], by simp⟩
  agents := ⟨[{ id := "agent_1", workspaceType := workspaceType, scmSourceId := scmSourceId
                maxConcurrency := 1 }], by simp⟩
  scmSources := ⟨[{ id := "src_1", type := .git, localPath := "/srv/checkout" }], by simp⟩

def crashed : Host := { processInstanceId := "host-1" }

def restarted : Host := { processInstanceId := "host-2" }

def afterCrash (db : Db) : Db := committed db (admitRun crashed db "agent_1" "run_1" 1)

def busy : Capacity.Process :=
  { host := { restarted with executionLeases := [⟨"run_0", some "agent_1"⟩] } }

theorem recovered_run_promoted_iff_temp : status "run_1" (afterCrash (created .temp none)) = some .running ∧
    status "run_1" (recoverOnStartup .sqlite 30000 busy (afterCrash (created .temp none))).db = some .queued ∧
    ∃ db', promoteQueuedRun restarted
      (recoverOnStartup .sqlite 30000 busy (afterCrash (created .temp none))).db "agent_1" "run_1" 1 =
        .ok (true, db') := by
  refine ⟨by decide +kernel, by decide +kernel, ?_⟩
  refine (recovered_run_promoted_iff .sqlite 30000 busy (afterCrash (created .temp none)) restarted
    "run_1" "agent_1" 1 (by decide +kernel) (by decide +kernel)).mpr ?_
  have hlease : leaseAfterCrash (afterCrash (created .temp none)) "run_1" = none := by decide +kernel
  rw [hlease]
  exact ⟨rfl, by decide +kernel⟩

theorem recovered_scm_run_not_promotable : status "run_1" (afterCrash (created .scm (some "src_1"))) = some .running ∧
    (lease "run_1" (afterCrash (created .scm (some "src_1")))).map (·.phase) = some .active ∧
    ∀ db, db = (recoverOnStartup .sqlite 30000 { host := restarted }
        (afterCrash (created .scm (some "src_1")))).db →
      status "run_1" db = some .queued ∧ (db.agents.find? "agent_1").isSome ∧
      countOccupiedRunSlots restarted db "agent_1" < 1 ∧
      (promoteQueuedRun restarted db "agent_1" "run_1" 1).isOk = false := by
  refine ⟨by decide +kernel, by decide +kernel, ?_⟩
  rintro db rfl
  decide +kernel

end A2Wave.Recovery
