import A2Wave.Queue.Capacity
import A2Wave.Scm.Removal

/-! When a run occupies a worktree, and what the queue and the operations leave of it. -/

namespace A2Wave.Occupancy

section Definitions

variable (defaultWorkspacesPath : String → String)

/-- The paths of the source, as a `GitScmSource` of its row has them. -/
def sourcePaths (db : Db) (sourceId : String) : Option ScmPaths :=
  (db.scmSources.find? sourceId).map (ScmSource.paths defaultWorkspacesPath)

def occupies (db : Db) (runId : String) (target : RemovalTarget) : Bool :=
  (db.runs.find? runId).any fun r =>
    r.workDir.isSome && r.workDir = worktreePath defaultWorkspacesPath db target &&
      (r.inFlight || leasedOn db runId target.scmSourceId)

end Definitions

def admitted (db : Db) (runId scmSourceId : String) : Bool :=
  (db.runs.find? runId).any fun r => r.inFlight || leasedOn db runId scmSourceId

/-- What the queue does to what a run occupies: the row keeps its directory and stays in flight,
and a lease stays on its source. -/
structure Admits (db db' : Db) : Prop where
  scmSources : db'.scmSources = db.scmSources
  scmWorkspaceRemovals : db'.scmWorkspaceRemovals = db.scmWorkspaceRemovals
  runs : ∀ id r, db.runs.find? id = some r → ∃ r', db'.runs.find? id = some r' ∧
    r'.workDir = r.workDir ∧ (r.inFlight = true → r'.inFlight = true)
  leases : ∀ id sourceId, leasedOn db id sourceId = true → leasedOn db' id sourceId = true

section Queue

variable {db db' db'' : Db} {host : Host} {runId : String}

theorem Admits.refl (db : Db) : Admits db db :=
  ⟨rfl, rfl, fun _ r hr => ⟨r, hr, rfl, id⟩, fun _ _ => id⟩

theorem Admits.trans (h : Admits db db') (h' : Admits db' db'') : Admits db db'' where
  scmSources := h'.scmSources.trans h.scmSources
  scmWorkspaceRemovals := h'.scmWorkspaceRemovals.trans h.scmWorkspaceRemovals
  runs id r hr := by
    obtain ⟨r', hr', hdir, hflight⟩ := h.runs id r hr
    obtain ⟨r'', hr'', hdir', hflight'⟩ := h'.runs id r' hr'
    exact ⟨r'', hr'', hdir'.trans hdir, fun hr => hflight' (hflight hr)⟩
  leases id sourceId hl := h'.leases id sourceId (h.leases id sourceId hl)

theorem admits_onlyReserves (h : OnlyReserves db db') : Admits db db' where
  scmSources := h.scmSources
  scmWorkspaceRemovals := h.scmWorkspaceRemovals
  runs id r hr := ⟨r, by rw [h.runs]; exact hr, rfl, fun hf => hf⟩
  leases id sourceId hl := by
    obtain ⟨extra, hrows, -⟩ := h.leases
    obtain ⟨l, hmem, hw, hs⟩ := lease_of_leasedOn hl
    have hfind : loadLease db' (runWorkload id) = some l := by
      refine Table.find?_eq_some_iff.mpr ⟨?_, hw⟩
      rw [hrows]
      exact List.mem_append_left _ hmem
    simp [leasedOn, hfind, hs]

theorem admits_casRun {p : Run → Bool} {f : Run → Run} {hf : ∀ r, (f r).id = r.id}
    (h : db.casRun runId p f hf = some db') (hdir : ∀ r, (f r).workDir = r.workDir)
    (hflight : ∀ r, (f r).inFlight = true) : Admits db db' := by
  obtain ⟨r₀, hr₀, -, hr₀', hother⟩ := Db.casRun_find? h
  obtain ⟨-, -, -, rfl⟩ := Db.casRun_some h
  refine ⟨rfl, rfl, fun id r hr => ?_, fun _ _ hl => hl⟩
  by_cases hid : id = runId
  · subst hid
    cases hr₀.symm.trans hr
    exact ⟨f r₀, hr₀', hdir r₀, fun _ => hflight r₀⟩
  · exact ⟨r, (hother id hid).trans hr, rfl, fun hf => hf⟩

theorem leasedOn_activateLease {w : ScmWorkloadIdentity} {owner : String} {now : Nat}
    (id sourceId : String) :
    leasedOn (db.activateLease w owner now) id sourceId = leasedOn db id sourceId := by
  simp only [leasedOn, loadLease, Db.activateLease, Table.find?_updateWhere]
  cases db.scmWorkloadLeases.find? (runWorkload id) with
  | none => rfl
  | some l =>
    simp only [Option.map_some, Option.any_some]
    split <;> rfl

theorem admits_activates {w : ScmWorkloadIdentity} (h : OnlyActivates w db db') : Admits db db' := by
  obtain rfl | ⟨owner, now, rfl⟩ := h
  · exact .refl _
  · refine ⟨rfl, rfl, fun _ r hr => ⟨r, hr, rfl, id⟩, fun id sourceId hl => ?_⟩
    rw [leasedOn_activateLease]
    exact hl

theorem inFlight_admitRow (acquired : Bool) (r : Run) : (admitRow host acquired r).inFlight = true := by
  cases acquired <;> rfl

theorem admits_admitRun {agentId : String} {m : Nat} {res : AdmitResult}
    (h : admitRun host db agentId runId m = .ok (res, db')) : Admits db db' := by
  obtain ⟨-, -, -, rfl⟩ | ⟨db₁, db₂, hres, -, hcas, hact⟩ := admitRun_cases h
  · exact .refl _
  · exact ((admits_onlyReserves hres).trans
      (admits_casRun hcas (fun _ => rfl) (inFlight_admitRow _))).trans (admits_activates hact.only)

theorem admits_promoteQueuedRun {agentId : String} {m : Nat} {b : Bool}
    (h : promoteQueuedRun host db agentId runId m = .ok (b, db')) : Admits db db' := by
  obtain ⟨-, rfl⟩ | ⟨-, -, db₁, hcas, hact⟩ := promoteQueuedRun_cases h
  · exact .refl _
  · exact (admits_casRun hcas (fun _ => rfl) (fun _ => rfl)).trans (admits_activates hact.only)

theorem admits_executeRun {agentId : String} {m : Nat} {step : RunStep} {u : Unit}
    (h : Capacity.executeRun host db agentId runId m step = .ok (u, db')) : Admits db db' := by
  obtain ⟨db₁, db₂, steps, hres, -, hcas, -, rfl⟩ := Capacity.executeRun_cases h
  have hadm : Admits db₁ db₂ := admits_casRun hcas (fun _ => rfl) (fun _ => rfl)
  -- the step that is inserted is in another table
  exact (admits_onlyReserves hres).trans
    ⟨hadm.scmSources, hadm.scmWorkspaceRemovals, hadm.runs, hadm.leases⟩

theorem admits_actTask {p p' : Capacity.Process} {task task' : Capacity.Task}
    (hcommit : ∀ op, task ≠ .commit op)
    (h : Capacity.actTask p db task = some (db', p', task')) : Admits db db' := by
  cases Capacity.actTask_step h with
  | admits hadm => exact admits_admitRun hadm
  | activates hact => exact admits_activates (activate_onlyActivates hact)
  | acquires | idles => exact .refl _
  | schedules hstep =>
    cases hstep with
    | skips hp | promotes hp => exact admits_promoteQueuedRun hp
    | ends | starts | counts | finds | executes => exact .refl _
  | executes hexec => exact admits_executeRun hexec
  | commits op => exact absurd rfl (hcommit op)

end Queue

structure Untouched (db db' : Db) : Prop where
  scmSources : db'.scmSources = db.scmSources
  scmWorkspaceRemovals : db'.scmWorkspaceRemovals = db.scmWorkspaceRemovals

section Untouched

variable {db db' db'' : Db} {host : Host} {k : String}

theorem Untouched.refl (db : Db) : Untouched db db := ⟨rfl, rfl⟩

theorem Untouched.trans (h : Untouched db db') (h' : Untouched db' db'') : Untouched db db'' :=
  ⟨h'.scmSources.trans h.scmSources, h'.scmWorkspaceRemovals.trans h.scmWorkspaceRemovals⟩

theorem Admits.untouched (h : Admits db db') : Untouched db db' :=
  ⟨h.scmSources, h.scmWorkspaceRemovals⟩

theorem untouched_casRun {p : Run → Bool} {f : Run → Run} {hf : ∀ r, (f r).id = r.id}
    (h : db.casRun k p f hf = some db') : Untouched db db' := by
  obtain ⟨-, -, -, rfl⟩ := Db.casRun_some h
  exact ⟨rfl, rfl⟩

theorem untouched_casRun_getD {p : Run → Bool} {f : Run → Run} {hf : ∀ r, (f r).id = r.id} :
    Untouched db ((db.casRun k p f hf).getD db) := by
  cases h : db.casRun k p f hf with
  | none => exact .refl db
  | some db' => exact untouched_casRun h

theorem untouched_casStep {p : RunStep → Bool} {f : RunStep → RunStep} {hf : ∀ s, (f s).id = s.id}
    (h : db.casStep k p f hf = some db') : Untouched db db' := by
  simp only [Db.casStep, Option.map_eq_some_iff] at h
  obtain ⟨t, -, rfl⟩ := h
  exact ⟨rfl, rfl⟩

theorem untouched_terminalTransition {runId stepId : String} {s : Settlement} :
    Untouched db (committed db (terminalTransition host db runId stepId s)) := by
  cases h : terminalTransition host db runId stepId s with
  | error e => exact .refl db
  | ok r =>
    obtain ⟨b, db'⟩ := r
    obtain ⟨-, rfl, -⟩ | ⟨-, db₁, hcas, hstep⟩ := terminalTransition_cases h
    · exact .refl _
    · exact (untouched_casRun hcas).trans (untouched_casStep hstep)

theorem untouched_prepareExecution {snapshot : Run} {step : RunStep} :
    Untouched db (committed db (prepareExecution host db snapshot step)) := by
  unfold prepareExecution
  dsimp only
  split
  · exact .refl db
  · rename_i db₁ hcas
    split
    · exact .refl db
    · obtain ⟨hs, hr⟩ := untouched_casRun hcas
      exact ⟨hs, hr⟩

theorem untouched_commit (op : Op) (hsync : ∀ sourceId status, op ≠ .setSyncStatus sourceId status) :
    Untouched db (op.commit host db) := by
  cases op with
  | createRun r =>
    simp only [Op.commit, Db.createRun]
    split <;> exact ⟨rfl, rfl⟩
  | prepareExecution snapshot step => exact untouched_prepareExecution
  | mergeMetadata d runId read call | setWorkDir runId workDir => exact untouched_casRun_getD
  | finishRunSuccess runId stepId result trace => exact untouched_terminalTransition
  | finishRunError runId stepId errorMsg trace => exact untouched_terminalTransition
  | runLevelRecovery runId stepId error =>
    simp only [Op.commit, A2Wave.runLevelRecovery]
    split
    · exact .refl db
    · rename_i db₁ hcas
      exact (untouched_casRun hcas).trans ⟨rfl, rfl⟩
  | claimRunCancellation runId expected =>
    simp only [Op.commit, A2Wave.claimRunCancellation]
    split
    · exact .refl db
    · rename_i db₁ hcas
      have h := untouched_casRun hcas
      split
      · exact h.trans ⟨rfl, rfl⟩
      · exact h
  | cancelStale runId reason =>
    simp only [Op.commit, cancelStaleTransition]
    split
    · exact .refl db
    · rename_i db₁ hcas
      exact untouched_casRun hcas
  | failBeforeLifecycle runId error =>
    simp only [Op.commit, failBeforeLifecycleTransition]
    split
    · exact .refl db
    · rename_i db₁ hcas
      exact untouched_casRun hcas
  | claimReapableRun runId owner scope =>
    simp only [Op.commit, A2Wave.claimReapableRun]
    split
    · exact .refl db
    · rename_i db₁ hcas
      exact (untouched_casRun hcas).trans ⟨rfl, rfl⟩
  | requeueForResume runId code owner =>
    simp only [Op.commit, A2Wave.requeueForResume]
    split
    · exact .refl db
    · rename_i db₁ hcas
      exact (untouched_casRun hcas).trans ⟨rfl, rfl⟩
  | releaseOwned w =>
    simp only [Op.commit, releaseScmWorkload]
    repeat (first | exact ⟨rfl, rfl⟩ | split)
  | setSyncStatus sourceId status => exact absurd rfl (hsync sourceId status)
  | deleteRun | cancelLateStep | applyFailure | releaseReserved | releaseRecovered | bindAgent =>
    exact ⟨rfl, rfl⟩

end Untouched

section Paths

variable {defaultWorkspacesPath : String → String} {db db' : Db}

theorem worktreePath_eq (db : Db) (target : RemovalTarget) : worktreePath defaultWorkspacesPath db target =
      (sourcePaths defaultWorkspacesPath db target.scmSourceId).map fun scm =>
        joinPath scm.wsRoot target.workspaceName := by
  simp [worktreePath, sourcePaths, Function.comp_def]

def SameScm (db db' : Db) : Prop :=
  db'.scmWorkspaceRemovals = db.scmWorkspaceRemovals ∧ ∀ defaultWorkspacesPath sourceId,
    sourcePaths defaultWorkspacesPath db' sourceId = sourcePaths defaultWorkspacesPath db sourceId

theorem Untouched.sameScm (h : Untouched db db') : SameScm db db' :=
  ⟨h.scmWorkspaceRemovals, fun _ _ => by simp only [sourcePaths, h.scmSources]⟩

theorem sameScm_setSyncStatus (sourceId : String) (status : SyncStatus) :
    SameScm db (db.setSyncStatus sourceId status) := by
  refine ⟨rfl, fun _ id => ?_⟩
  simp only [sourcePaths, Db.setSyncStatus, Table.find?_updateWhere, Option.map_map]
  congr 1
  funext s
  simp only [Function.comp]
  split <;> rfl

theorem sameScm_actTask {p p' : Capacity.Process} {task task' : Capacity.Task}
    (h : Capacity.actTask p db task = some (db', p', task')) :
    SameScm db db' := by
  by_cases hcommit : ∀ op, task ≠ .commit op
  · exact (admits_actTask hcommit h).untouched.sameScm
  obtain ⟨op, rfl⟩ : ∃ op, task = .commit op := by simpa using hcommit
  cases h
  by_cases hsync : ∀ sourceId status, op ≠ .setSyncStatus sourceId status
  · exact (untouched_commit op hsync).sameScm
  · obtain ⟨sourceId, status, rfl⟩ : ∃ sourceId status, op = .setSyncStatus sourceId status := by
      simpa using hsync
    exact sameScm_setSyncStatus sourceId status

end Paths

section Occupancy

variable {defaultWorkspacesPath : String → String} {db db' : Db} {runId : String}
  {target : RemovalTarget}

theorem sameScm_setWorkDir (db : Db) (runId : String) (workDir : Option String) :
    SameScm db (db.setWorkDir runId workDir) :=
  (untouched_casRun_getD (k := runId)).sameScm

theorem SameScm.worktreePath (h : SameScm db db') (defaultWorkspacesPath : String → String)
    (target : RemovalTarget) :
    worktreePath defaultWorkspacesPath db' target = worktreePath defaultWorkspacesPath db target := by
  rw [worktreePath_eq, worktreePath_eq, h.2]

theorem occupies_congr (hpaths : worktreePath defaultWorkspacesPath db' target =
      worktreePath defaultWorkspacesPath db target)
    (hrun : db'.runs.find? runId = db.runs.find? runId)
    (hleases : db'.scmWorkloadLeases = db.scmWorkloadLeases) :
    occupies defaultWorkspacesPath db' runId target = occupies defaultWorkspacesPath db runId target := by
  simp only [occupies, hpaths, hrun, leasedOn, loadLease, hleases]

theorem occupies_admits (h : Admits db db')
    (hocc : occupies defaultWorkspacesPath db runId target = true) :
    occupies defaultWorkspacesPath db' runId target = true := by
  unfold occupies at hocc ⊢
  cases hfind : db.runs.find? runId with
  | none => simp [hfind] at hocc
  | some r =>
    obtain ⟨r', hr', hdir, hflight⟩ := h.runs runId r hfind
    have hpaths := h.untouched.sameScm.worktreePath defaultWorkspacesPath target
    simp only [hfind, hr', Option.any_some, hdir, hpaths, Bool.and_eq_true, Bool.or_eq_true] at hocc ⊢
    exact ⟨hocc.1, hocc.2.imp hflight (h.leases runId target.scmSourceId)⟩

theorem leases_setWorkDir (runId : String) (workDir : Option String) :
    (db.setWorkDir runId workDir).scmWorkloadLeases = db.scmWorkloadLeases := by
  obtain ⟨-, h⟩ | ⟨run, -, h⟩ := setWorkDir_cases db runId workDir
  · rw [h]
  · obtain ⟨-, -, -, h'⟩ := Db.casRun_some h
    rw [h']

theorem find?_setWorkDir_ne {id : String} (hne : id ≠ runId) (workDir : Option String) :
    (db.setWorkDir runId workDir).runs.find? id = db.runs.find? id := by
  obtain ⟨-, h⟩ | ⟨run, -, h⟩ := setWorkDir_cases db runId workDir
  · rw [h]
  · obtain ⟨-, -, -, -, hother⟩ := Db.casRun_find? h
    exact hother id hne

theorem occupies_setWorkDir {wsPath : String}
    (hpath : worktreePath defaultWorkspacesPath db target = some wsPath)
    (hadm : admitted db runId target.scmSourceId = true) :
    occupies defaultWorkspacesPath (db.setWorkDir runId (some wsPath)) runId target = true := by
  unfold admitted at hadm
  obtain ⟨hnone, -⟩ | ⟨run, hrun, hcas⟩ := setWorkDir_cases db runId (some wsPath)
  · simp [hnone] at hadm
  · obtain ⟨run', hrun', -, hfind, -⟩ := Db.casRun_find? hcas
    have hpath' := ((sameScm_setWorkDir db runId (some wsPath)).worktreePath _ target).trans hpath
    have hleased : leasedOn (db.setWorkDir runId (some wsPath)) runId target.scmSourceId =
        leasedOn db runId target.scmSourceId := by
      simp only [leasedOn, loadLease, leases_setWorkDir]
    rw [hrun', Option.any_some] at hadm
    have hflight : (workDirRow (some wsPath) run').inFlight = run'.inFlight := rfl
    have hdir : (workDirRow (some wsPath) run').workDir = some wsPath := rfl
    simp only [occupies, hfind, hpath', hleased, Option.any_some, hflight, hdir]
    simpa using hadm

theorem excludes_of_occupies {host : Host} {r : GuardedRemoval}
    (hscm : sourcePaths defaultWorkspacesPath db r.target.scmSourceId = some r.scm)
    (hcheck : checkRemoval defaultWorkspacesPath host db r = .ok ())
    (hocc : occupies defaultWorkspacesPath db runId r.target = true) :
    r.excludes runId = true := by
  unfold occupies at hocc
  cases hfind : db.runs.find? runId with
  | none => simp [hfind] at hocc
  | some run =>
    obtain ⟨hmem, rfl⟩ := Table.find?_eq_some_iff.mp hfind
    simp only [hfind, Option.any_some, Bool.and_eq_true, decide_eq_true_eq, Bool.or_eq_true,
      worktreePath_eq, hscm, Option.map_some] at hocc
    exact checkRemoval_ok hcheck hmem hocc.1.2 hocc.2

end Occupancy

end A2Wave.Occupancy
