import A2Wave.Queue.Capacity

/-! Who owns a running row.  The queue stamps `owner_instance_id` when a run becomes `running`, and
the reaper of orphaned runs looks at stamped rows only. -/

namespace A2Wave

def parseRunStatus : String → Option RunStatus
  | "pending" => some .pending
  | "queued" => some .queued
  | "running" => some .running
  | "completed" => some .completed
  | "failed" => some .failed
  | "cancelled" => some .cancelled
  | _ => none

def transitionRow (host : Host) (status : RunStatus) (r : Run) : Run :=
  { r with
    status := status
    ownerInstanceId := if status = .running then some host.processInstanceId else r.ownerInstanceId
    updatedAt := host.now }

def tryTransitionRunStatus (host : Host) (db : Db) (runId before after : String) : Bool × Db :=
  match parseRunStatus before, parseRunStatus after with
  | some fromStatus, some toStatus =>
    match db.casRun runId (·.status = fromStatus) (transitionRow host toStatus) (fun _ => rfl) with
    | none => (false, db)
    | some db' => (true, db')
  | _, _ => (false, db)

namespace Ownership

open Transition

inductive Task
  | queue (task : Capacity.Task)
  | updateRunStatus (runId status : String)
  | tryTransitionRunStatus (runId before after : String)
  | finished

structure Thread where
  process : Nat
  task : Task

def act (w : Capacity.World) (t : Thread) (c : Capacity.Moment) : Option (Capacity.World × Thread) :=
  match t.task with
  | .queue task => (Capacity.act w ⟨t.process, task⟩ c).map fun (w', t') =>
    (w', ⟨t'.process, .queue t'.task⟩)
  | .updateRunStatus runId status => w.processes[t.process]?.map fun p =>
    let db := match parseRunStatus status with
      | none => w.db
      | some runStatus => A2Wave.updateRunStatus (p.at c).host w.db runId runStatus
    ({ w with db := db }, { t with task := .finished })
  | .tryTransitionRunStatus runId before after => w.processes[t.process]?.map fun p =>
    let db := (A2Wave.tryTransitionRunStatus (p.at c).host w.db runId before after).2
    ({ w with db := db }, { t with task := .finished })
  | .finished => none

def starts (db : Db) : Task → Bool
  | .queue task => Capacity.starts db task
  | .updateRunStatus _ _ | .tryTransitionRunStatus _ _ _ => true
  | .finished => false

def system : Pool.Program Capacity.World Thread Capacity.Moment where
  start w _ t := starts w.db t.task
  act := act

abbrev State := Pool Capacity.World Thread

def Owned (db : Db) : Prop := ∀ r ∈ db.runs.rows, r.status = .running → r.ownerInstanceId.isSome

def stamped (db : Db) (runId : String) : Bool :=
  (db.runs.find? runId).all (·.ownerInstanceId.isSome)

/-- The two writers that leave the owner alone only take rows to `running` that have one. -/
def takesStamped (s : State) : Pool.Event Thread Capacity.Moment → Bool
  | .spawn _ => true
  | .act i _ =>
    match s.threads[i]? with
    | some ⟨_, .queue (.executeRun _ runId _ _)⟩ => stamped s.shared.db runId
    | some ⟨_, .updateRunStatus runId status⟩ =>
      parseRunStatus status ≠ some .running || stamped s.shared.db runId
    | _ => true

def Keeps (r r' : Run) : Prop :=
  r'.status = .running → r'.ownerInstanceId.isSome ∨ (r.status = .running ∧ r'.ownerInstanceId = r.ownerInstanceId)

section Rows

variable {host : Host} {db db' : Db} {k : String} {p : Run → Bool} {f : Run → Run}
  {hf : ∀ r, (f r).id = r.id}

theorem owned_runs (h : Owned db) (hruns : db'.runs = db.runs) : Owned db' := by
  unfold Owned
  rwa [hruns]

theorem owned_updateRuns (h : Owned db) (hkeep : ∀ r ∈ db.runs.rows, p r = true → Keeps r (f r)) :
    Owned { db with runs := db.runs.updateWhere p f hf } := by
  intro r hr hrunning
  obtain ⟨r₀, hr₀, rfl⟩ := List.mem_map.mp hr
  by_cases hp : p r₀ = true
  · rw [if_pos hp] at hrunning ⊢
    rcases hkeep r₀ hr₀ hp hrunning with howner | ⟨hbefore, hsame⟩
    · exact howner
    · rw [hsame]
      exact h r₀ hr₀ hbefore
  · rw [if_neg hp] at hrunning ⊢
    exact h r₀ hr₀ hrunning

theorem owned_casRun (h : Owned db) (hcas : db.casRun k p f hf = some db')
    (hkeep : ∀ r, db.runs.find? k = some r → p r = true → Keeps r (f r)) : Owned db' := by
  obtain ⟨-, -, -, rfl⟩ := Db.casRun_some hcas
  refine owned_updateRuns h (fun r hr hp => ?_)
  simp only [Bool.and_eq_true, decide_eq_true_eq] at hp
  exact hkeep r (Table.find?_eq_some_iff.mpr ⟨hr, hp.1⟩) hp.2

theorem owned_casRun_getD (h : Owned db) (hkeep : ∀ r, Keeps r (f r)) : Owned ((db.casRun k p f hf).getD db) := by
  cases hcas : db.casRun k p f hf with
  | none => exact h
  | some db' => exact owned_casRun h hcas fun r _ _ => hkeep r

theorem keeps_of_ne {r r' : Run} (hne : r'.status ≠ .running) : Keeps r r' :=
  fun hrunning => absurd hrunning hne

theorem keeps_of_same {r r' : Run} (hstatus : r'.status = r.status)
    (howner : r'.ownerInstanceId = r.ownerInstanceId) : Keeps r r' :=
  fun hrunning => .inr ⟨hstatus.symm.trans hrunning, howner⟩

theorem owned_settle {status : RunStatus} {result : Fields} (h : Owned db) (hne : status ≠ .running)
    (hcas : db.casRun k p (settleRow host status result) (fun _ => rfl) = some db') : Owned db' :=
  owned_casRun h hcas fun _ _ _ => keeps_of_ne hne

theorem owned_terminalTransition {stepId : String} {s : Settlement} (h : Owned db)
    (hs : s.status ≠ .running) : Owned (committed db (terminalTransition host db k stepId s)) := by
  cases hterm : terminalTransition host db k stepId s with
  | error e => exact h
  | ok r =>
    obtain ⟨b, db'⟩ := r
    obtain ⟨-, rfl, -⟩ | ⟨-, db₁, hcas, hstep⟩ := terminalTransition_cases hterm
    · exact h
    · exact owned_runs (owned_settle h hs hcas) (Db.casStep_runs hstep)

theorem owned_prepareExecution {snapshot : Run} {step : RunStep} (h : Owned db) :
    Owned (committed db (prepareExecution host db snapshot step)) := by
  unfold prepareExecution
  dsimp only
  split
  · exact h
  · rename_i db₁ hcas
    have hrun : Owned db₁ := by
      refine owned_casRun h hcas fun r _ _ => ?_
      simp only [rewriteMetadata]
      split <;> exact keeps_of_same rfl rfl
    split
    · exact h
    · exact hrun

theorem owned_createRun {r : Run} (h : Owned db) : Owned (db.createRun r) := by
  unfold Db.createRun
  split
  · rename_i runs hins
    intro r' hr' hrunning
    simp only [Table.rows_insert hins, List.mem_append, List.mem_singleton] at hr'
    rcases hr' with hr' | rfl
    · exact h r' hr' hrunning
    · cases hrunning
  · exact h

theorem owned_commit (op : Op) (h : Owned db) : Owned (op.commit host db) := by
  cases op with
  | createRun r => exact owned_createRun h
  | deleteRun runId => exact fun r hr => h r (List.mem_of_mem_filter hr)
  | prepareExecution snapshot step => exact owned_prepareExecution h
  | mergeMetadata d runId read call => exact owned_casRun_getD h fun _ => keeps_of_same rfl rfl
  | setWorkDir runId workDir => exact owned_casRun_getD h fun _ => keeps_of_same rfl rfl
  | finishRunSuccess runId stepId result trace =>
    exact owned_terminalTransition h (status_successSettlement result trace)
  | finishRunError runId stepId errorMsg trace =>
    exact owned_terminalTransition h (by simp [failureSettlement])
  | runLevelRecovery runId stepId error =>
    simp only [Op.commit, A2Wave.runLevelRecovery]
    split
    · exact h
    · rename_i db₁ hcas
      exact owned_runs (owned_settle h (by decide) hcas) rfl
  | cancelLateStep stepId | releaseReserved w | releaseRecovered w => exact owned_runs h rfl
  | claimRunCancellation runId expected =>
    simp only [Op.commit, A2Wave.claimRunCancellation]
    split
    · exact h
    · rename_i db₁ hcas
      have hrun : Owned db₁ := owned_casRun h hcas fun _ _ _ => keeps_of_ne (by simp [cancelRow])
      split
      · exact owned_runs hrun rfl
      · exact hrun
  | cancelStale runId reason =>
    simp only [Op.commit, cancelStaleTransition]
    split
    · exact h
    · rename_i db₁ hcas
      exact owned_settle h (by decide) hcas
  | failBeforeLifecycle runId error =>
    simp only [Op.commit, failBeforeLifecycleTransition]
    split
    · exact h
    · rename_i db₁ hcas
      exact owned_settle h (by decide) hcas
  | claimReapableRun runId owner scope =>
    simp only [Op.commit, A2Wave.claimReapableRun]
    split
    · exact h
    · rename_i db₁ hcas
      exact owned_runs (owned_settle h (by decide) hcas) rfl
  | requeueForResume runId code owner =>
    simp only [Op.commit, A2Wave.requeueForResume]
    split
    · exact h
    · rename_i db₁ hcas
      have hrun : Owned db₁ := owned_casRun h hcas fun _ _ _ => keeps_of_ne (by simp [requeueRow])
      exact owned_runs hrun rfl
  | applyFailure runId reason =>
    have hreason : Owned (failRunWithStructuredReason host db runId reason) :=
      owned_updateRuns (owned_runs h rfl : Owned (db.failRunningSteps runId reason.toJson))
        fun r _ _ => show Keeps r (reasonRow host reason r) from keeps_of_same rfl rfl
    exact owned_updateRuns hreason
      fun r _ _ => show Keeps r (statusRow host .failed r) from keeps_of_ne (by simp [statusRow])
  | releaseOwned w =>
    simp only [Op.commit, releaseScmWorkload]
    split
    · exact h
    · split
      · exact h
      · exact owned_runs h rfl
  | setSyncStatus sourceId status => exact owned_runs h rfl
  | bindAgent agentId workspaceType scmSourceId => exact owned_runs h rfl

end Rows

section Step

variable {host : Host} {db db' : Db} {agentId runId : String} {m : Nat}

theorem owned_admitRun {res : AdmitResult} (h : Owned db)
    (hadm : admitRun host db agentId runId m = .ok (res, db')) : Owned db' := by
  obtain ⟨-, -, -, rfl⟩ | ⟨db₁, db₂, hres, -, hcas, hact⟩ := admitRun_cases hadm
  · exact h
  · refine owned_runs (owned_casRun (owned_runs h hres.runs) hcas fun r _ _ hrunning => .inl ?_)
      hact.only.runs
    -- the row is stamped in the same update that acquires the slot
    simp only [admitRow] at hrunning ⊢
    split at hrunning
    · rename_i hacquired
      simp [hacquired]
    · cases hrunning

theorem owned_promoteQueuedRun {b : Bool} (h : Owned db)
    (hp : promoteQueuedRun host db agentId runId m = .ok (b, db')) : Owned db' := by
  obtain ⟨-, rfl⟩ | ⟨-, -, db₁, hcas, hact⟩ := promoteQueuedRun_cases hp
  · exact h
  · exact owned_runs (owned_casRun h hcas fun _ _ _ _ => .inl rfl) hact.only.runs

theorem owned_tryTransitionRunStatus {before after : String} (h : Owned db) :
    Owned (tryTransitionRunStatus host db runId before after).2 := by
  unfold tryTransitionRunStatus
  split
  · rename_i fromStatus toStatus _ _
    split
    · exact h
    · rename_i db₁ hcas
      refine owned_casRun h hcas fun r _ _ hrunning => .inl ?_
      have hto : toStatus = .running := hrunning
      simp [transitionRow, hto]
  · exact h

theorem owned_executeRun {step : RunStep} (h : Owned db) (hstamped : stamped db runId = true)
    (hexec : Capacity.executeRun host db agentId runId m step = .ok ((), db')) : Owned db' := by
  obtain ⟨db₁, db₂, steps, hres, -, hcas, -, rfl⟩ := Capacity.executeRun_cases hexec
  have hrun : Owned db₂ := by
    refine owned_casRun (owned_runs h hres.runs) hcas fun r hr _ _ => .inl ?_
    rw [hres.runs] at hr
    simpa [stamped, hr, Capacity.executeRow] using hstamped
  exact owned_runs hrun rfl

theorem owned_updateRunStatus {status : RunStatus} (h : Owned db)
    (hstamped : status = .running → stamped db runId = true) :
    Owned (updateRunStatus host db runId status) := by
  refine owned_updateRuns h fun r hr hid hrunning => .inl ?_
  have hfind : db.runs.find? runId = some r :=
    Table.find?_eq_some_iff.mpr ⟨hr, of_decide_eq_true hid⟩
  have howner := hstamped hrunning
  simpa [stamped, hfind, statusRow] using howner

theorem owned_taskStep {p : Capacity.Process} {task task' : Capacity.Task} (h : Owned db)
    (hstep : Capacity.TaskStep p db task db' task')
    (hstamped : ∀ agentId runId max step, task = .executeRun agentId runId max step →
      stamped db runId = true) : Owned db' := by
  cases hstep with
  | admits hadm => exact owned_admitRun h hadm
  | activates hact =>
    have hmay : MayActivate p.host (runWorkload _) db db' := .inr ⟨true, hact⟩
    exact owned_runs h hmay.only.runs
  | acquires => exact h
  | schedules hschedule =>
    cases hschedule with
    | skips hp | promotes hp => exact owned_promoteQueuedRun h hp
    | ends => exact h
    | starts => exact h
    | counts => exact h
    | finds => exact h
    | executes => exact h
  | executes hexec => exact owned_executeRun h (hstamped _ _ _ _ rfl) hexec
  | commits op => exact owned_commit op h
  | idles => exact h

theorem owned_step {s s' : State} {e : Pool.Event Thread Capacity.Moment}
    (hok : takesStamped s e = true) (h : Owned s.shared.db)
    (hs : Pool.step system s e = some s') : Owned s'.shared.db := by
  obtain ⟨t, rfl, -, rfl⟩ | ⟨i, c, t, w, t', rfl, hi, hact, rfl⟩ := Pool.step_cases hs
  · exact h
  obtain ⟨process, task⟩ := t
  cases task with
  | queue task =>
    obtain ⟨⟨w', t₁⟩, hqueue, heq⟩ := Option.map_eq_some_iff.mp hact
    cases heq
    obtain ⟨p, p', -, htask, -, -, -⟩ := Capacity.act_cases hqueue
    refine owned_taskStep h (Capacity.actTask_step htask) ?_
    rintro agentId runId max step rfl
    simpa [takesStamped, hi] using hok
  | updateRunStatus runId status =>
    obtain ⟨p, -, heq⟩ := Option.map_eq_some_iff.mp hact
    cases heq
    dsimp only
    split
    · exact h
    · rename_i runStatus hparse
      refine owned_updateRunStatus h ?_
      rintro rfl
      simpa [takesStamped, hi, hparse] using hok
  | tryTransitionRunStatus runId before after =>
    obtain ⟨p, -, heq⟩ := Option.map_eq_some_iff.mp hact
    cases heq
    exact owned_tryTransitionRunStatus h
  | finished => cases hact

end Step

/-- As long as `POST /runs/:id/execute` and `updateRunStatus` take only rows to `running` that have
an owner already, every running row has one. -/
theorem running_owned (world : Capacity.World) (events : List (Pool.Event Thread Capacity.Moment))
    (s : State) (hinit : Owned world.db)
    (h : Runs (Pool.step system) (fun s e => takesStamped s e = true) ⟨world, []⟩ events s) :
    ∀ r ∈ s.shared.db.runs.rows, r.status = .running → r.ownerInstanceId.isSome := by
  have howned : Owned s.shared.db :=
    h.invariant (I := fun s : State => Owned s.shared.db)
      (fun s e s' hok hI hs => owned_step hok hI hs) hinit
  exact howned

def twoPending : Capacity.World where
  db := {
    runs := ⟨[{ id := "run_1", status := .pending, initiatorAgentId := some "agent_1" },
      { id := "run_2", status := .pending, initiatorAgentId := some "agent_1"
        ownerInstanceId := some "host-1" }], by decide⟩
    agents := ⟨[{ id := "agent_1", workspaceType := .temp, maxConcurrency := 2 }], by simp⟩ }
  processes := [{ host := { processInstanceId := "host-1" } }]

theorem owned_twoPending : Owned twoPending.db := by
  intro r hr hrunning
  rcases List.mem_cons.mp hr with rfl | hr
  · cases hrunning
  · rw [List.mem_singleton.mp hr] at hrunning
    cases hrunning

def executes (runId stepId : String) : Thread :=
  ⟨0, .queue (.executeRun "agent_1" runId 2
    { id := stepId, runId := runId, order := 1, status := .running })⟩

def moment : Capacity.Moment := ⟨1000, false⟩

theorem running_owned_twoPending : ∃ s, Runs (Pool.step system) (fun s e => takesStamped s e = true) ⟨twoPending, []⟩
      [.spawn (executes "run_2" "step_2"), .act 0 moment,
        .spawn ⟨0, .queue (.tryAcquireSlot "agent_1" "run_1" 2 .admitRun)⟩, .act 1 moment] s ∧
    (s.shared.db.runs.rows.map Run.status) = [.running, .running] ∧
    ∀ r ∈ s.shared.db.runs.rows, r.status = .running → r.ownerInstanceId.isSome := by
  refine ⟨_, .of_guarded rfl, by decide +kernel, ?_⟩
  exact running_owned twoPending [.spawn (executes "run_2" "step_2"), .act 0 moment,
    .spawn ⟨0, .queue (.tryAcquireSlot "agent_1" "run_1" 2 .admitRun)⟩, .act 1 moment] _
    owned_twoPending (.of_guarded rfl)

theorem executed_unowned : Owned twoPending.db ∧ ∃ s, run (Pool.step system) ⟨twoPending, []⟩
      [.spawn (executes "run_1" "step_1"), .act 0 moment] = some s ∧
    (s.shared.db.runs.find? "run_1").any
      (fun r => r.status = .running && r.ownerInstanceId.isNone) = true :=
  ⟨owned_twoPending, exists_of_run_any (by decide +kernel)⟩

end Ownership

end A2Wave
