import A2Wave.Run.Lifecycle
import A2Wave.Run.Metadata

/-! The transactions that any process may commit on the run tables, as one type of
operations.  An operation that throws, or whose condition matches no row, commits nothing. -/

namespace A2Wave

inductive Op
  | createRun (r : Run)
  | deleteRun (runId : String)
  | prepareExecution (snapshot : Run) (step : RunStep)
  | mergeMetadata (d : Dialect) (runId : String) (read : Option Fields) (call : MergeCall)
  | setWorkDir (runId : String) (workDir : Option String)
  | finishRunSuccess (runId stepId : String) (result : ExecuteWorkerResult) (trace : ExecutionTrace)
  | finishRunError (runId stepId errorMsg : String) (trace : ExecutionTrace)
  | runLevelRecovery (runId stepId error : String)
  | cancelLateStep (stepId : String)
  | claimRunCancellation (runId : String) (expected : CancellableRunStatus)
  | cancelStale (runId reason : String)
  | failBeforeLifecycle (runId error : String)
  | claimReapableRun (runId owner : String) (scope : ReapRunClaimScope)
  | requeueForResume (runId : String) (code owner : Option String)
  | applyFailure (runId : String) (reason : FailureReason)
  | releaseReserved (w : ScmWorkloadIdentity)
  | releaseRecovered (w : ScmWorkloadIdentity)
  | releaseOwned (w : ScmWorkloadIdentity)
  | setSyncStatus (sourceId : String) (status : SyncStatus)
  | bindAgent (agentId : String) (workspaceType : WorkspaceType) (scmSourceId : Option String)

def committed {α : Type} (db : Db) : Tx α → Db
  | .ok (_, db') => db'
  | .error _ => db

def workDirRow (workDir : Option String) (r : Run) : Run := { r with workDir := workDir }

theorem workDirRow_id (workDir : Option String) (r : Run) : (workDirRow workDir r).id = r.id := rfl

def Db.setWorkDir (db : Db) (runId : String) (workDir : Option String) : Db :=
  (db.casRun runId (fun _ => true) (workDirRow workDir) (workDirRow_id workDir)).getD db

def bindingRow (workspaceType : WorkspaceType) (scmSourceId : Option String) (a : Agent) : Agent :=
  { a with workspaceType := workspaceType, scmSourceId := scmSourceId }

def Db.setSyncStatus (db : Db) (sourceId : String) (status : SyncStatus) : Db :=
  let sources := db.scmSources.updateWhere (·.id = sourceId)
    (fun s => { s with syncStatus := status }) (fun _ => rfl)
  { db with scmSources := sources }

def Db.bindAgent (db : Db) (agentId : String) (workspaceType : WorkspaceType)
    (scmSourceId : Option String) : Db :=
  let agents := db.agents.updateWhere (·.id = agentId) (bindingRow workspaceType scmSourceId)
    (fun _ => rfl)
  { db with agents := agents }

/-- A new run is inserted with a status other than `running`, which is the default. -/
def Db.createRun (db : Db) (r : Run) : Db :=
  match db.runs.insert { r with status := .pending } with
  | some runs => { db with runs := runs }
  | none => db

def Db.deleteRun (db : Db) (runId : String) : Db :=
  let runs := db.runs.deleteWhere (·.id = runId)
  let steps := db.runSteps.deleteWhere (·.runId = runId)
  { db with runs := runs, runSteps := steps }

def Op.commit (host : Host) (db : Db) : Op → Db
  | createRun r => db.createRun r
  | deleteRun runId => db.deleteRun runId
  | prepareExecution snapshot step => committed db (A2Wave.prepareExecution host db snapshot step)
  | mergeMetadata d runId read call => (mergeWrite d db runId read call).getD db
  | setWorkDir runId workDir => db.setWorkDir runId workDir
  | finishRunSuccess runId stepId result trace =>
    committed db (terminalTransition host db runId stepId (successSettlement result trace))
  | finishRunError runId stepId errorMsg trace =>
    committed db (terminalTransition host db runId stepId (failureSettlement errorMsg trace))
  | runLevelRecovery runId stepId error => (A2Wave.runLevelRecovery host db runId stepId error).2
  | cancelLateStep stepId => A2Wave.cancelLateStep db stepId
  | claimRunCancellation runId expected => (A2Wave.claimRunCancellation host db runId expected).2
  | cancelStale runId reason => (cancelStaleTransition host db runId reason).2
  | failBeforeLifecycle runId error => (failBeforeLifecycleTransition host db runId error).2
  | claimReapableRun runId owner scope => (A2Wave.claimReapableRun host db runId owner scope).2
  | requeueForResume runId code owner => (A2Wave.requeueForResume host db runId code owner).2
  | applyFailure runId reason =>
    updateRunStatus host (failRunWithStructuredReason host db runId reason) runId .failed
  | releaseReserved w => (releaseReservedScmWorkloadInMutation db w).2
  | releaseRecovered w => (releaseRecoveredScmWorkload db w).2
  | releaseOwned w => committed db (releaseScmWorkload db w host.processInstanceId)
  | setSyncStatus sourceId status => db.setSyncStatus sourceId status
  | bindAgent agentId workspaceType scmSourceId => db.bindAgent agentId workspaceType scmSourceId

def Calm (f : Run → Run) : Prop :=
  ∀ r, (f r).initiatorAgentId = r.initiatorAgentId ∧ ((f r).status = .running → r.status = .running)

/-- What operations do to the run table: they write rows calmly, insert rows that are not
running, and delete rows. -/
inductive RunsChange : Table Run → Table Run → Prop
  | same {t} : RunsChange t t
  | update {t : Table Run} {p f} (hf : ∀ r, Keyed.key (f r) = Keyed.key r) :
      Calm f → RunsChange t (t.updateWhere p f hf)
  | insert {t t' : Table Run} {r} : r.status ≠ .running → t.insert r = some t' → RunsChange t t'
  | delete {t : Table Run} {p} : RunsChange t (t.deleteWhere p)
  | trans {t t' t''} : RunsChange t t' → RunsChange t' t'' → RunsChange t t''

section Runs

variable {db db' : Db} {host : Host}

variable {f : Run → Run}

theorem RunsChange.of_casRun {k : String} {p : Run → Bool}
    {hf : ∀ r, (f r).id = r.id} (h : db.casRun k p f hf = some db') (hc : Calm f) :
    RunsChange db.runs db'.runs := by
  obtain ⟨-, -, -, rfl⟩ := Db.casRun_some h
  exact .update hf hc

theorem calm_settleRow {status : RunStatus} {result : Fields} (h : status ≠ .running) :
    Calm (settleRow host status result) := fun _ => ⟨rfl, fun hs => absurd hs h⟩

theorem calm_const {status : RunStatus} (hst : ∀ r, (f r).status = status)
    (hne : status ≠ .running) (hi : ∀ r, (f r).initiatorAgentId = r.initiatorAgentId) : Calm f :=
  fun r => ⟨hi r, fun hs => absurd ((hst r).symm.trans hs) hne⟩

theorem calm_of_status (hst : ∀ r, (f r).status = r.status)
    (hi : ∀ r, (f r).initiatorAgentId = r.initiatorAgentId) : Calm f :=
  fun r => ⟨hi r, fun hs => (hst r).symm.trans hs⟩

theorem runsChange_terminalTransition {runId stepId : String} {s : Settlement}
    (hs : s.status ≠ .running) :
    RunsChange db.runs (committed db (terminalTransition host db runId stepId s)).runs := by
  cases h : terminalTransition host db runId stepId s with
  | error e => exact .same
  | ok r =>
    obtain ⟨b, db'⟩ := r
    obtain ⟨-, hdb, -⟩ | ⟨-, db₁, hcas, hstep⟩ := terminalTransition_cases h
    · simp only [committed, hdb]
      exact .same
    · simp only [committed, Db.casStep_runs hstep]
      exact .of_casRun hcas (calm_settleRow hs)

theorem runsChange_runLevelRecovery {runId stepId error : String} :
    RunsChange db.runs (runLevelRecovery host db runId stepId error).2.runs := by
  unfold runLevelRecovery
  split
  · exact .same
  · rename_i db₁ hcas
    have hchange : RunsChange db.runs db₁.runs := .of_casRun hcas (calm_settleRow (by decide))
    exact hchange

theorem runsChange_claimRunCancellation {runId : String} {expected : CancellableRunStatus} :
    RunsChange db.runs (claimRunCancellation host db runId expected).2.runs := by
  unfold claimRunCancellation
  split
  · exact .same
  · rename_i db₁ hcas
    have hchange : RunsChange db.runs db₁.runs :=
      .of_casRun hcas (calm_const (fun _ => rfl) (by decide) (fun _ => rfl))
    split
    · exact hchange
    · exact hchange

theorem runsChange_claimReapableRun {runId owner : String} {scope : ReapRunClaimScope} :
    RunsChange db.runs (claimReapableRun host db runId owner scope).2.runs := by
  unfold claimReapableRun
  dsimp only
  split
  · exact .same
  · rename_i db₁ hcas
    have hchange : RunsChange db.runs db₁.runs := .of_casRun hcas (calm_settleRow (by decide))
    exact hchange

theorem runsChange_requeueForResume {runId : String} {code owner : Option String} :
    RunsChange db.runs (requeueForResume host db runId code owner).2.runs := by
  unfold requeueForResume
  split
  · exact .same
  · rename_i db₁ hcas
    have hchange : RunsChange db.runs db₁.runs :=
      .of_casRun hcas (calm_const (fun _ => rfl) (by decide) (fun _ => rfl))
    exact hchange

theorem runsChange_prepareExecution {snapshot : Run} {step : RunStep} :
    RunsChange db.runs (committed db (prepareExecution host db snapshot step)).runs := by
  unfold prepareExecution
  dsimp only
  split
  · exact .same
  · rename_i db₁ hcas
    split
    · exact .same
    · have hchange : RunsChange db.runs db₁.runs := by
        refine .of_casRun hcas (calm_of_status ?_ ?_) <;> intro r <;>
          simp only [rewriteMetadata] <;> split <;> rfl
      exact hchange

theorem runsChange_getD {k : String} {p : Run → Bool}
    {hf : ∀ r, (f r).id = r.id} (hc : Calm f) :
    RunsChange db.runs ((db.casRun k p f hf).getD db).runs := by
  cases h : db.casRun k p f hf with
  | none => exact .same
  | some db' => exact .of_casRun h hc

theorem runsChange_createRun {r : Run} : RunsChange db.runs (db.createRun r).runs := by
  unfold Db.createRun
  split
  · rename_i t ht
    exact .insert (by simp) ht
  · exact .same

theorem status_successSettlement (result : ExecuteWorkerResult) (trace : ExecutionTrace) :
    (successSettlement result trace).status ≠ .running := by
  simp only [successSettlement]
  split <;> decide

theorem Op.runsChange (op : Op) : RunsChange db.runs (op.commit host db).runs := by
  cases op with
  | createRun r => exact runsChange_createRun
  | deleteRun runId => exact .delete
  | prepareExecution snapshot step => exact runsChange_prepareExecution
  | mergeMetadata d runId read call | setWorkDir runId workDir =>
    exact runsChange_getD (calm_of_status (fun _ => rfl) (fun _ => rfl))
  | finishRunSuccess runId stepId result trace =>
    exact runsChange_terminalTransition (status_successSettlement result trace)
  | finishRunError runId stepId errorMsg trace =>
    exact runsChange_terminalTransition (by simp [failureSettlement])
  | runLevelRecovery runId stepId error => exact runsChange_runLevelRecovery
  | cancelLateStep stepId | releaseReserved w | releaseRecovered w | setSyncStatus sourceId status => exact .same
  | claimRunCancellation runId expected => exact runsChange_claimRunCancellation
  | cancelStale runId reason =>
    simp only [commit, cancelStaleTransition]
    split
    · exact .same
    · rename_i db₁ hcas
      exact .of_casRun hcas (calm_settleRow (by decide))
  | failBeforeLifecycle runId error =>
    simp only [commit, failBeforeLifecycleTransition]
    split
    · exact .same
    · rename_i db₁ hcas
      exact .of_casRun hcas (calm_settleRow (by decide))
  | claimReapableRun runId owner scope => exact runsChange_claimReapableRun
  | requeueForResume runId code owner => exact runsChange_requeueForResume
  | applyFailure runId reason =>
    exact .trans (.update (reasonRow_id host reason) (calm_of_status (fun _ => rfl) (fun _ => rfl)))
      (.update (statusRow_id host .failed) (calm_const (fun _ => rfl) (by decide) (fun _ => rfl)))
  | releaseOwned w =>
    simp only [commit, releaseScmWorkload]
    repeat (first | exact .same | split)
  | bindAgent agentId workspaceType scmSourceId => exact .same

end Runs

/-- What operations do to the step table: they update running steps, insert steps other than
`k`, and delete steps. -/
inductive StepsChange (k : String) : Table RunStep → Table RunStep → Prop
  | same {t} : StepsChange k t t
  | update {t : Table RunStep} {p f} (hf : ∀ s, Keyed.key (f s) = Keyed.key s) :
      (∀ s, p s = true → s.status = .running) → StepsChange k t (t.updateWhere p f hf)
  | insert {t t' : Table RunStep} {s} : s.id ≠ k → t.insert s = some t' → StepsChange k t t'
  | delete {t : Table RunStep} {p} : StepsChange k t (t.deleteWhere p)

def Op.newStep : Op → Option String
  | prepareExecution _ step => some step.id
  | _ => none

def StepSettled (k : String) (t : Table RunStep) : Prop :=
  ∀ s, t.find? k = some s → s.status ≠ .running

theorem StepsChange.settled {k : String} {t t' : Table RunStep} (h : StepsChange k t t')
    (hs : StepSettled k t) : StepSettled k t' := by
  cases h with
  | same => exact hs
  | update hf hp =>
    intro s hfind
    rw [Table.find?_updateWhere, Option.map_eq_some_iff] at hfind
    obtain ⟨s₀, hs₀, rfl⟩ := hfind
    split
    · rename_i hps
      exact absurd (hp s₀ hps) (hs s₀ hs₀)
    · exact hs s₀ hs₀
  | insert hne ht =>
    intro s hfind
    rw [Table.find?_insert ht, key_runStep, if_neg hne] at hfind
    exact hs s hfind
  | delete =>
    intro s hfind
    rw [Table.find?_deleteWhere, Option.filter_eq_some_iff] at hfind
    exact hs s hfind.1

section Steps

variable {db db' : Db} {host : Host} {k : String}

theorem stepsChange_updateSteps {p : RunStep → Bool} {f : RunStep → RunStep}
    {hf : ∀ s, (f s).id = s.id} (hp : ∀ s, p s = true → s.status = .running) :
    StepsChange k db.runSteps (db.updateSteps p f hf).runSteps := .update hf hp

theorem stepsChange_casStep {i : String} {p : RunStep → Bool} {f : RunStep → RunStep}
    {hf : ∀ s, (f s).id = s.id} (h : db.casStep i p f hf = some db')
    (hp : ∀ s, p s = true → s.status = .running) : StepsChange k db.runSteps db'.runSteps := by
  simp only [Db.casStep, Option.map_eq_some_iff] at h
  obtain ⟨t, ht, rfl⟩ := h
  obtain ⟨s, hs, hps, -⟩ := Table.cas_some ht
  rw [Table.cas_isSome_of hs hps] at ht
  cases ht
  exact .update hf fun s hs => hp s (Bool.and_eq_true_iff.mp hs).2

theorem runSteps_getD {i : String} {p : Run → Bool} {f : Run → Run}
    {hf : ∀ r, (f r).id = r.id} : ((db.casRun i p f hf).getD db).runSteps = db.runSteps := by
  cases h : db.casRun i p f hf with
  | none => rfl
  | some db' => exact runSteps_casRun h

theorem stepsChange_terminalTransition {runId stepId : String} {s : Settlement} :
    StepsChange k db.runSteps (committed db (terminalTransition host db runId stepId s)).runSteps := by
  cases h : terminalTransition host db runId stepId s with
  | error e => exact .same
  | ok r =>
    obtain ⟨b, db'⟩ := r
    obtain ⟨-, hdb, -⟩ | ⟨-, db₁, hcas, hstep⟩ := terminalTransition_cases h
    · simp only [committed, hdb]
      exact .same
    · rw [← runSteps_casRun hcas]
      exact stepsChange_casStep hstep (by simp)

theorem runningStep {runId : String} (s : RunStep)
    (h : (decide (s.runId = runId) && decide (s.status = .running)) = true) :
    s.status = .running := by
  simpa using (Bool.and_eq_true_iff.mp h).2

theorem stepsChange_failRunningSteps {runId : String} {error : Json} :
    StepsChange k db.runSteps (db.failRunningSteps runId error).runSteps :=
  stepsChange_updateSteps runningStep

theorem Op.stepsChange (op : Op) (hnew : op.newStep ≠ some k) :
    StepsChange k db.runSteps (op.commit host db).runSteps := by
  cases op with
  | createRun r =>
    simp only [commit, Db.createRun]
    split <;> exact .same
  | deleteRun runId => exact .delete
  | prepareExecution snapshot step =>
    have hne : step.id ≠ k := fun h => hnew (by rw [← h]; rfl)
    simp only [commit]
    cases h : A2Wave.prepareExecution host db snapshot step with
    | error e => exact .same
    | ok r =>
      obtain ⟨b, db'⟩ := r
      obtain ⟨-, rfl⟩ | ⟨-, -, steps, st, -, -, -, -, hid, hins, hsteps⟩ := prepareExecution_cases h
      · exact .same
      · simp only [committed, hsteps]
        exact .insert (by rw [hid]; exact hne) hins
  | mergeMetadata d runId read call =>
    simp only [commit, mergeWrite, runSteps_getD]
    exact .same
  | setWorkDir runId workDir =>
    simp only [commit, Db.setWorkDir, runSteps_getD]
    exact .same
  | finishRunSuccess runId stepId result trace => exact stepsChange_terminalTransition
  | finishRunError runId stepId errorMsg trace => exact stepsChange_terminalTransition
  | runLevelRecovery runId stepId error =>
    simp only [commit, A2Wave.runLevelRecovery]
    split
    · exact .same
    · rename_i db₁ hcas
      rw [← runSteps_casRun hcas]
      refine stepsChange_updateSteps fun s hs => ?_
      simpa using (Bool.and_eq_true_iff.mp hs).2
  | cancelLateStep stepId =>
    refine stepsChange_updateSteps fun s hs => ?_
    simpa using (Bool.and_eq_true_iff.mp hs).2
  | claimRunCancellation runId expected =>
    simp only [commit]
    cases h : A2Wave.claimRunCancellation host db runId expected with
    | mk b db' =>
      obtain ⟨-, rfl, -⟩ | ⟨-, db₁, hcas, -, hsteps⟩ := claimRunCancellation_cases h
      · exact .same
      · rw [hsteps, runSteps_casRun hcas]
        exact .same
  | cancelStale runId reason =>
    simp only [commit, cancelStaleTransition]
    split
    · exact .same
    · rename_i db₁ hcas
      rw [runSteps_casRun hcas]
      exact .same
  | failBeforeLifecycle runId error =>
    simp only [commit, failBeforeLifecycleTransition]
    split
    · exact .same
    · rename_i db₁ hcas
      rw [runSteps_casRun hcas]
      exact .same
  | claimReapableRun runId owner scope =>
    simp only [commit, A2Wave.claimReapableRun]
    split
    · exact .same
    · rename_i db₁ hcas
      rw [← runSteps_casRun hcas]
      exact stepsChange_failRunningSteps
  | requeueForResume runId code owner =>
    simp only [commit, A2Wave.requeueForResume]
    split
    · exact .same
    · rename_i db₁ hcas
      rw [← runSteps_casRun hcas]
      exact stepsChange_failRunningSteps
  | applyFailure runId reason =>
    have hsteps : StepsChange k db.runSteps (db.failRunningSteps runId reason.toJson).runSteps :=
      stepsChange_failRunningSteps
    exact hsteps
  | releaseReserved w | releaseRecovered w | setSyncStatus sourceId status => exact .same
  | releaseOwned w =>
    simp only [commit, releaseScmWorkload]
    repeat (first | exact .same | split)
  | bindAgent agentId workspaceType scmSourceId => exact .same

end Steps

end A2Wave
