import A2Wave.Scm.Checkout

/-! What the transactions of the queue do to the two things that syncs and runs arbitrate on: the
recorded directory of a run, and its active lease. -/

namespace A2Wave.Checkout

def workDirOf (db : Db) (runId : String) : Option String :=
  (db.runs.find? runId).bind (·.workDir)

def activeOn (db : Db) (runId scmSourceId : String) : Bool :=
  (loadLease db (runWorkload runId)).any fun l => l.scmSourceId = scmSourceId && l.phase = .active

def admissible (host : Host) (db : Db) (runId scmSourceId : String) : Prop :=
  ∀ row, db.scmSources.find? scmSourceId = some row → row.syncStatus = .syncing →
    runOccupiesSharedCheckout host (workDirOf db runId) row.localPath = false

structure Arbitrated (host : Host) (db db' : Db) : Prop where
  sources : db'.scmSources = db.scmSources
  workDirs : ∀ runId, workDirOf db' runId = workDirOf db runId
  activations : ∀ runId scmSourceId, scmSourceId ≠ "" → activeOn db' runId scmSourceId = true →
    activeOn db runId scmSourceId = true ∨ admissible host db runId scmSourceId

section Queue

variable {host : Host} {db db' db'' : Db} {runId scmSourceId : String}

theorem activeOn_iff : activeOn db runId scmSourceId = true ↔
    ∃ l ∈ db.scmWorkloadLeases.rows, l.workload = runWorkload runId ∧
      l.scmSourceId = scmSourceId ∧ l.phase = .active := by
  unfold activeOn
  constructor
  · intro h
    cases hl : loadLease db (runWorkload runId) with
    | none => simp [hl] at h
    | some l =>
      obtain ⟨hmem, hkey⟩ := Table.find?_eq_some_iff.mp hl
      exact ⟨l, hmem, hkey, by simpa [hl] using h⟩
  · rintro ⟨l, hmem, hw, hs, hp⟩
    have hl : loadLease db (runWorkload runId) = some l := Table.find?_eq_some_iff.mpr ⟨hmem, hw⟩
    simp [hl, hs, hp]

theorem Arbitrated.refl (db : Db) : Arbitrated host db db :=
  ⟨rfl, fun _ => rfl, fun _ _ _ h => .inl h⟩

theorem Arbitrated.trans (h : Arbitrated host db db') (h' : Arbitrated host db' db'') : Arbitrated host db db'' where
  sources := h'.sources.trans h.sources
  workDirs runId := (h'.workDirs runId).trans (h.workDirs runId)
  activations runId scmSourceId hne hactive := by
    rcases h'.activations runId scmSourceId hne hactive with hactive | hadm
    · exact h.activations runId scmSourceId hne hactive
    · right
      unfold admissible at hadm ⊢
      rwa [h.sources, h.workDirs] at hadm

theorem Arbitrated.of_leases (hsources : db'.scmSources = db.scmSources)
    (hdirs : ∀ runId, workDirOf db' runId = workDirOf db runId)
    (hleases : ∀ l ∈ db'.scmWorkloadLeases.rows, l.phase = .active →
      l ∈ db.scmWorkloadLeases.rows) : Arbitrated host db db' where
  sources := hsources
  workDirs := hdirs
  activations runId scmSourceId _ hactive := by
    left
    rw [activeOn_iff] at hactive ⊢
    obtain ⟨l, hmem, hw, hs, hp⟩ := hactive
    exact ⟨l, hleases l hmem hp, hw, hs, hp⟩

theorem arbitrated_onlyReserves (h : OnlyReserves db db') : Arbitrated host db db' := by
  refine .of_leases h.scmSources (fun runId => by rw [workDirOf, workDirOf, h.runs]) ?_
  intro l hl hp
  obtain ⟨extra, hrows, hextra⟩ := h.leases
  rw [hrows] at hl
  rcases List.mem_append.mp hl with hl | hl
  · exact hl
  · rw [hextra l hl] at hp
    cases hp

theorem workDirOf_casRun {k : String} {p : Run → Bool} {f : Run → Run} {hf : ∀ r, (f r).id = r.id}
    (h : db.casRun k p f hf = some db') (hdir : ∀ r, (f r).workDir = r.workDir) (runId : String) :
    workDirOf db' runId = workDirOf db runId := by
  obtain ⟨r, hr, -, hr', hother⟩ := Db.casRun_find? h
  unfold workDirOf
  by_cases hk : runId = k
  · rw [hk, hr, hr', Option.bind_some, Option.bind_some, hdir]
  · rw [hother runId hk]

theorem arbitrated_casRun {k : String} {p : Run → Bool} {f : Run → Run}
    {hf : ∀ r, (f r).id = r.id} (h : db.casRun k p f hf = some db')
    (hdir : ∀ r, (f r).workDir = r.workDir) : Arbitrated host db db' := by
  have hdirs := workDirOf_casRun h hdir
  obtain ⟨-, -, -, rfl⟩ := Db.casRun_some h
  exact .of_leases rfl hdirs fun _ hl _ => hl

theorem activeOn_activateLease {w : ScmWorkloadIdentity} {owner : String} {now : Nat}
    (hactive : activeOn (db.activateLease w owner now) runId scmSourceId = true) :
    ∃ l, loadLease db (runWorkload runId) = some l ∧ l.scmSourceId = scmSourceId ∧
      (runWorkload runId ≠ w → activeOn db runId scmSourceId = true) := by
  simp only [activeOn, loadLease, Db.activateLease, Table.find?_updateWhere] at hactive
  cases hl : db.scmWorkloadLeases.find? (runWorkload runId) with
  | none => simp [hl] at hactive
  | some l =>
    have hkey : l.workload = runWorkload runId := Table.find?_some_key hl
    refine ⟨l, hl, ?_, fun hne => ?_⟩
    · rw [hl] at hactive
      simp only [Option.map_some, Option.any_some, Bool.and_eq_true, decide_eq_true_eq] at hactive
      have hs := hactive.1
      split at hs <;> exact hs
    · simpa [activeOn, loadLease, hl, hkey, hne] using hactive

theorem arbitrated_mayActivate (h : MayActivate host (runWorkload runId) db db') : Arbitrated host db db' := by
  obtain rfl | ⟨b, hact⟩ := h
  · exact .refl _
  obtain ⟨-, ⟨-, -, rfl⟩ | ⟨lease, hlease, -, ⟨-, -, rfl⟩ | ⟨-, hsync, rfl⟩⟩⟩ := activate_cases hact
  · exact .refl _
  · exact .refl _
  refine ⟨rfl, fun _ => rfl, fun id sourceId hne hactive => ?_⟩
  obtain ⟨l, hl, hsource, hother⟩ := activeOn_activateLease hactive
  by_cases hid : runWorkload id = runWorkload runId
  · -- the lease that was just activated had passed the check against the claim
    right
    intro row hrow hstatus
    rw [hid, hlease] at hl
    cases hl
    rw [← hid] at hsync
    simpa [blockedBySync, hsource, hne, findScmSourceSyncClaim, hrow, hstatus,
      workloadOccupiesSharedCheckout, runWorkload, workDirOf] using hsync
  · exact .inl (hother hid)

theorem arbitrated_admitRun {agentId : String} {m : Nat} {res : AdmitResult}
    (h : admitRun host db agentId runId m = .ok (res, db')) : Arbitrated host db db' := by
  obtain ⟨-, -, -, rfl⟩ | ⟨db₁, db₂, hres, -, hcas, hact⟩ := admitRun_cases h
  · exact .refl _
  · exact ((arbitrated_onlyReserves hres).trans (arbitrated_casRun hcas fun _ => rfl)).trans
      (arbitrated_mayActivate hact)

theorem arbitrated_promoteQueuedRun {agentId : String} {m : Nat} {b : Bool}
    (h : promoteQueuedRun host db agentId runId m = .ok (b, db')) : Arbitrated host db db' := by
  obtain ⟨-, rfl⟩ | ⟨-, -, db₁, hcas, hact⟩ := promoteQueuedRun_cases h
  · exact .refl _
  · exact (arbitrated_casRun hcas fun _ => rfl).trans (arbitrated_mayActivate hact)

theorem arbitrated_executeRun {agentId : String} {m : Nat} {step : RunStep} {u : Unit}
    (h : Capacity.executeRun host db agentId runId m step = .ok (u, db')) :
    Arbitrated host db db' := by
  obtain ⟨db₁, db₂, steps, hres, -, hcas, -, rfl⟩ := Capacity.executeRun_cases h
  have hrun : Arbitrated host db₁ db₂ := arbitrated_casRun hcas fun _ => rfl
  -- the step that is inserted is in another table
  exact (arbitrated_onlyReserves hres).trans ⟨hrun.sources, hrun.workDirs, hrun.activations⟩

theorem arbitrated_steps (db : Db) (steps : Table RunStep) : Arbitrated host db { db with runSteps := steps } :=
  ⟨rfl, fun _ => rfl, fun _ _ _ h => .inl h⟩

theorem arbitrated_deleteLeases (db : Db) (p : ScmWorkloadLease → Bool) : Arbitrated host db (db.deleteLeases p) :=
  .of_leases rfl (fun _ => rfl) fun _ hl _ => List.mem_of_mem_filter hl

theorem arbitrated_casRun_getD {k : String} {p : Run → Bool} {f : Run → Run}
    {hf : ∀ r, (f r).id = r.id} (hdir : ∀ r, (f r).workDir = r.workDir) :
    Arbitrated host db ((db.casRun k p f hf).getD db) := by
  cases h : db.casRun k p f hf with
  | none => exact .refl db
  | some db' => exact arbitrated_casRun h hdir

theorem arbitrated_updateRuns {p : Run → Bool} {f : Run → Run} {hf : ∀ r, (f r).id = r.id}
    (hdir : ∀ r, (f r).workDir = r.workDir) :
    Arbitrated host db { db with runs := db.runs.updateWhere p f hf } := by
  refine .of_leases rfl (fun id => ?_) fun _ hl _ => hl
  simp only [workDirOf, Table.find?_updateWhere]
  cases db.runs.find? id with
  | none => rfl
  | some r =>
    simp only [Option.map_some, Option.bind_some]
    split
    · exact hdir r
    · rfl

theorem arbitrated_createRun {r : Run} (h : r.workDir = none) : Arbitrated host db (db.createRun r) := by
  unfold Db.createRun
  split
  · rename_i runs hins
    refine .of_leases rfl (fun id => ?_) fun _ hl _ => hl
    simp only [workDirOf, Table.find?_insert hins]
    split
    · rename_i hid
      have hfresh : db.runs.find? id = none := hid ▸ Table.find?_key_of_insert hins
      rw [hfresh, Option.bind_some, h, Option.bind_none]
    · rfl
  · exact .refl db

theorem arbitrated_terminalTransition {k stepId : String} {s : Settlement} :
    Arbitrated host db (committed db (terminalTransition host db k stepId s)) := by
  cases h : terminalTransition host db k stepId s with
  | error e => exact .refl db
  | ok r =>
    obtain ⟨b, db'⟩ := r
    obtain ⟨-, rfl, -⟩ | ⟨-, db₁, hcas, hstep⟩ := terminalTransition_cases h
    · exact .refl _
    · simp only [Db.casStep, Option.map_eq_some_iff] at hstep
      obtain ⟨steps, -, rfl⟩ := hstep
      exact (arbitrated_casRun hcas fun _ => rfl).trans (arbitrated_steps db₁ steps)

theorem arbitrated_prepareExecution {snapshot : Run} {step : RunStep} :
    Arbitrated host db (committed db (prepareExecution host db snapshot step)) := by
  unfold prepareExecution
  dsimp only
  split
  · exact .refl db
  · rename_i db₁ hcas
    have hrun : Arbitrated host db db₁ := by
      refine arbitrated_casRun hcas fun r => ?_
      simp only [rewriteMetadata]
      split <;> rfl
    split
    · exact .refl db
    · rename_i steps _
      exact hrun.trans (arbitrated_steps db₁ steps)

theorem arbitrated_commit (op : Op) (hop : concurrent op = true) : Arbitrated host db (op.commit host db) := by
  cases op with
  | createRun r => exact arbitrated_createRun (by simpa [concurrent] using hop)
  | prepareExecution snapshot step => exact arbitrated_prepareExecution
  | mergeMetadata d runId read call => exact arbitrated_casRun_getD fun _ => rfl
  | finishRunSuccess runId stepId result trace => exact arbitrated_terminalTransition
  | finishRunError runId stepId errorMsg trace => exact arbitrated_terminalTransition
  | runLevelRecovery runId stepId error =>
    simp only [Op.commit, A2Wave.runLevelRecovery]
    split
    · exact .refl db
    · rename_i db₁ hcas
      exact (arbitrated_casRun hcas fun _ => rfl).trans (arbitrated_steps db₁ _)
  | cancelLateStep stepId => exact arbitrated_steps db _
  | claimRunCancellation runId expected =>
    simp only [Op.commit, A2Wave.claimRunCancellation]
    split
    · exact .refl db
    · rename_i db₁ hcas
      have hrun : Arbitrated host db db₁ := arbitrated_casRun hcas fun _ => rfl
      split
      · exact hrun.trans (arbitrated_deleteLeases db₁ _)
      · exact hrun
  | cancelStale runId reason =>
    simp only [Op.commit, cancelStaleTransition]
    split
    · exact .refl db
    · rename_i db₁ hcas
      exact arbitrated_casRun hcas fun _ => rfl
  | failBeforeLifecycle runId error =>
    simp only [Op.commit, failBeforeLifecycleTransition]
    split
    · exact .refl db
    · rename_i db₁ hcas
      exact arbitrated_casRun hcas fun _ => rfl
  | claimReapableRun runId owner scope =>
    simp only [Op.commit, A2Wave.claimReapableRun]
    split
    · exact .refl db
    · rename_i db₁ hcas
      exact (arbitrated_casRun hcas fun _ => rfl).trans (arbitrated_steps db₁ _)
  | requeueForResume runId code owner =>
    simp only [Op.commit, A2Wave.requeueForResume]
    split
    · exact .refl db
    · rename_i db₁ hcas
      exact (arbitrated_casRun hcas fun _ => rfl).trans (arbitrated_steps db₁ _)
  | applyFailure runId reason =>
    have hreason : Arbitrated host (db.failRunningSteps runId reason.toJson)
        (failRunWithStructuredReason host db runId reason) :=
      arbitrated_updateRuns (fun r => show (reasonRow host reason r).workDir = r.workDir from rfl)
    have hstatus : Arbitrated host (failRunWithStructuredReason host db runId reason)
        ((Op.applyFailure runId reason).commit host db) :=
      arbitrated_updateRuns (fun r => show (statusRow host .failed r).workDir = r.workDir from rfl)
    exact ((arbitrated_steps db _).trans hreason).trans hstatus
  | releaseReserved w | releaseRecovered w => exact arbitrated_deleteLeases db _
  | releaseOwned w =>
    simp only [Op.commit, releaseScmWorkload]
    split
    · exact .refl db
    · split
      · exact .refl db
      · exact arbitrated_deleteLeases db _
  | bindAgent agentId workspaceType scmSourceId =>
    exact ⟨rfl, fun _ => rfl, fun _ _ _ h => .inl h⟩
  | setWorkDir runId workDir => cases hop
  | setSyncStatus sourceId status => cases hop
  | deleteRun runId => cases hop

theorem workDirOf_setWorkDir (db : Db) (runId : String) (workDir : Option String) (id : String) :
    workDirOf (db.setWorkDir runId workDir) id = workDirOf db id ∨
      (id = runId ∧ workDirOf (db.setWorkDir runId workDir) id = workDir) := by
  by_cases hid : id = runId
  · obtain ⟨-, heq⟩ | ⟨r, -, hcas⟩ := setWorkDir_cases db runId workDir
    · left
      rw [heq]
    · right
      obtain ⟨r', -, -, hr', -⟩ := Db.casRun_find? hcas
      refine ⟨hid, ?_⟩
      rw [workDirOf, hid, hr']
      rfl
  · left
    rw [workDirOf, Occupancy.find?_setWorkDir_ne hid, workDirOf]

theorem arbitrated_actTask {p p' : Capacity.Process} {task task' : Capacity.Task}
    (hop : ∀ op, task = .commit op → concurrent op = true)
    (h : Capacity.actTask p db task = some (db', p', task')) : Arbitrated p.host db db' := by
  cases Capacity.actTask_step h with
  | admits hadm => exact arbitrated_admitRun hadm
  | activates hact => exact arbitrated_mayActivate (.inr ⟨true, hact⟩)
  | acquires | idles => exact .refl _
  | schedules hstep =>
    cases hstep with
    | skips hp | promotes hp => exact arbitrated_promoteQueuedRun hp
    | ends | starts | counts | finds | executes => exact .refl _
  | executes hexec => exact arbitrated_executeRun hexec
  | commits op => exact arbitrated_commit op (hop op rfl)

end Queue

end A2Wave.Checkout
