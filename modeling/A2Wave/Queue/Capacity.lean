import A2Wave.Run.Operations

/-! `engine/task-queue.ts` over several processes: every database access of `tryAcquireSlot`
and of the loop of `scheduleNext` is one action, and the transactions of all other paths may
commit between any two of them. -/

namespace A2Wave.Capacity

open Transition

/-- `reserveExecutionLease`: one entry per run, which keeps the agent it already has. -/
def reserveExecutionLease (leases : List ExecutionLease) (runId agentId : String) : List ExecutionLease :=
  if leases.any (·.runId = runId) then
    leases.map fun l =>
      if l.runId = runId then { l with agentId := l.agentId.or (some agentId) } else l
  else leases ++ [⟨runId, some agentId⟩]

def completeExecutionLease (leases : List ExecutionLease) (runId : String) : List ExecutionLease :=
  leases.filter (·.runId ≠ runId)

structure Process where
  host : Host
  promotionsPaused : Bool := false

structure World where
  db : Db
  processes : List Process

inductive AcquirePhase
  | admitRun
  | reserve (admission : AdmitResult)
  | activate
  | returned (slot : SlotResult)
  | threw (e : DbError)

inductive SchedulePhase
  | start
  | count (maxConcurrency iterations promoted : Nat)
  | oldest (maxConcurrency iterations promoted : Nat)
  | promote (maxConcurrency iterations promoted : Nat) (next : String)
  | execute (maxConcurrency iterations promoted : Nat) (next : String)
  | returned (promoted : Nat)

inductive Task
  | tryAcquireSlot (agentId runId : String) (maxConcurrency : Nat) (phase : AcquirePhase)
  | scheduleNext (agentId : String) (phase : SchedulePhase)
  | executeRun (agentId runId : String) (maxConcurrency : Nat) (step : RunStep)
  | commit (op : Op)
  | pausePromotions
  | completeExecutionLease (runId : String)
  | finished

structure Thread where
  process : Nat
  task : Task

def executeRow (host : Host) (r : Run) : Run :=
  { r with status := .running, updatedAt := host.now, queuedAt := none }

def executeStep (agentId runId : String) (step : RunStep) : RunStep :=
  { step with runId := runId, agentId := some agentId, order := 1, status := .running }

/-- The admission of `POST /runs/:id/execute`, which counts the way the queue does. -/
def executeRunState (host : Host) (agentId runId : String) (maxConcurrency : Nat) (step : RunStep)
    (db : Db) (_ : ScmWorkloadAdmission) : Tx Unit :=
  if maxConcurrency ≤ countOccupiedRunSlots host db agentId then .error (.error "Queue is full")
  else
    match db.casRun runId (fun r => r.status = .pending || r.status = .queued) (executeRow host)
      (fun _ => rfl) with
    | none => .error (.error "Run cannot be re-executed")
    | some db' =>
      match db'.runSteps.insert (executeStep agentId runId step) with
      | none => .error (.error "UNIQUE constraint failed: run_steps.id")
      | some steps => .ok ((), { db' with runSteps := steps })

def executeRun (host : Host) (db : Db) (agentId runId : String) (maxConcurrency : Nat)
    (step : RunStep) : Tx Unit :=
  withScmWorkloadAdmission host db (runWorkload runId) agentId
    (executeRunState host agentId runId maxConcurrency step)

def actAcquire (p : Process) (db : Db) (agentId runId : String) (maxConcurrency : Nat) :
    AcquirePhase → Option (Db × Process × AcquirePhase)
  | .admitRun =>
    if p.promotionsPaused then some (db, p, .returned .queueFull)
    else
      match admitRun p.host db agentId runId maxConcurrency with
      | .error e => some (db, p, .threw e)
      | .ok (admission, db') =>
        if admission.slot = .acquired then some (db', p, .reserve admission)
        else some (db', p, .returned admission.slot)
  | .reserve admission =>
    let leases := reserveExecutionLease p.host.executionLeases runId agentId
    let p' := { p with host := { p.host with executionLeases := leases } }
    if admission.hasScmLease && !admission.scmLeaseActivated then some (db, p', .activate)
    else some (db, p', .returned .acquired)
  | .activate =>
    if (loadLease db (runWorkload runId)).isNone then some (db, p, .returned .acquired)
    else
      match activateScmWorkloadInMutation p.host db (runWorkload runId) p.host.processInstanceId with
      | .ok (true, db') => some (db', p, .returned .acquired)
      | .ok (false, _) =>
        some (db, released, .threw (.scmWorkloadLeaseConflict "no durable reservation"))
      | .error e => some (db, released, .threw e)
  | .returned _ => none
  | .threw _ => none
where
  released : Process :=
    { p with host := { p.host with
      executionLeases := completeExecutionLease p.host.executionLeases runId } }

def actSchedule (p : Process) (db : Db) (agentId : String) : SchedulePhase → Option (Db × Process × SchedulePhase)
  | .start =>
    if p.promotionsPaused then some (db, p, .returned 0)
    else
      match getAgentMaxConcurrency db agentId with
      | none => some (db, p, .returned 0)
      | some max => some (db, p, .count max 0 0)
  | .count max iterations promoted =>
    if maxQueueLength + max < iterations + 1 then some (db, p, .returned promoted)
    else if max ≤ countOccupiedRunSlots p.host db agentId then some (db, p, .returned promoted)
    else some (db, p, .oldest max (iterations + 1) promoted)
  | .oldest max iterations promoted =>
    match getOldestQueuedRun db agentId with
    | none => some (db, p, .returned promoted)
    | some next => some (db, p, .promote max iterations promoted next)
  | .promote max iterations promoted next =>
    match promoteQueuedRun p.host db agentId next max with
    -- `scheduleNext` swallows every error
    | .error _ => some (db, p, .returned 0)
    | .ok (false, db') => some (db', p, .count max iterations promoted)
    | .ok (true, db') => some (db', p, .execute max iterations promoted next)
  | .execute max iterations promoted next =>
    let leases := reserveExecutionLease p.host.executionLeases next agentId
    some (db, { p with host := { p.host with executionLeases := leases } }, .count max iterations (promoted + 1))
  | .returned _ => none

structure Moment where
  now : Nat
  hasLostHeartbeatOwnership : Bool

def Process.at (p : Process) (c : Moment) : Process :=
  { p with host := { p.host with
    now := c.now, hasLostHeartbeatOwnership := c.hasLostHeartbeatOwnership } }

def actTask (p : Process) (db : Db) : Task → Option (Db × Process × Task)
  | .tryAcquireSlot agentId runId max phase =>
    (actAcquire p db agentId runId max phase).map fun (db', p', phase') =>
      (db', p', .tryAcquireSlot agentId runId max phase')
  | .scheduleNext agentId phase =>
    (actSchedule p db agentId phase).map fun (db', p', phase') =>
      (db', p', .scheduleNext agentId phase')
  | .executeRun agentId runId max step =>
    some (committed db (executeRun p.host db agentId runId max step), p, .finished)
  | .commit op => some (op.commit p.host db, p, .finished)
  | .pausePromotions => some (db, { p with promotionsPaused := true }, .finished)
  | .completeExecutionLease runId =>
    let leases := Capacity.completeExecutionLease p.host.executionLeases runId
    some (db, { p with host := { p.host with executionLeases := leases } }, .finished)
  | .finished => none

def act (w : World) (t : Thread) (c : Moment) : Option (World × Thread) :=
  w.processes[t.process]?.bind fun p =>
    (actTask (p.at c) w.db t.task).map fun (db, p', task) =>
      (⟨db, w.processes.set t.process p'⟩, { t with task := task })

/-- Calls start at their beginning, and a caller passes the `maxConcurrency` it read from the
agent. -/
def starts (db : Db) : Task → Bool
  | .tryAcquireSlot agentId _ max .admitRun => getAgentMaxConcurrency db agentId = some max
  | .tryAcquireSlot _ _ _ _ => false
  | .scheduleNext _ .start => true
  | .scheduleNext _ _ => false
  | .executeRun agentId _ max _ => getAgentMaxConcurrency db agentId = some max
  | .finished => false
  | _ => true

def queue : Pool.Program World Thread Moment where
  start w _ t := starts w.db t.task
  act := act

abbrev State := Pool World Thread

inductive ScheduleStep (p : Process) (agentId : String) (db : Db) : SchedulePhase → Db → SchedulePhase → Prop
  | ends {phase promoted} : (∀ n, phase ≠ .returned n) → ScheduleStep p agentId db phase db
      (.returned promoted)
  | starts {max} : getAgentMaxConcurrency db agentId = some max → ScheduleStep p agentId db .start db (.count max 0 0)
  | counts {max iterations promoted} : iterations + 1 ≤ maxQueueLength + max →
      ScheduleStep p agentId db (.count max iterations promoted) db
        (.oldest max (iterations + 1) promoted)
  | finds {max iterations promoted next} : getOldestQueuedRun db agentId = some next →
      ScheduleStep p agentId db (.oldest max iterations promoted) db
        (.promote max iterations promoted next)
  | skips {max iterations promoted next db'} : promoteQueuedRun p.host db agentId next max = .ok (false, db') →
      ScheduleStep p agentId db (.promote max iterations promoted next) db'
        (.count max iterations promoted)
  | promotes {max iterations promoted next db'} : promoteQueuedRun p.host db agentId next max = .ok (true, db') →
      ScheduleStep p agentId db (.promote max iterations promoted next) db'
        (.execute max iterations promoted next)
  | executes {max iterations promoted next} : ScheduleStep p agentId db (.execute max iterations promoted next) db
        (.count max iterations (promoted + 1))

inductive TaskStep (p : Process) (db : Db) : Task → Db → Task → Prop
  | admits {agentId runId max res db' phase'} : admitRun p.host db agentId runId max = .ok (res, db') →
      TaskStep p db (.tryAcquireSlot agentId runId max .admitRun) db'
        (.tryAcquireSlot agentId runId max phase')
  | activates {agentId runId max db' phase'} :
      activateScmWorkloadInMutation p.host db (runWorkload runId) p.host.processInstanceId = .ok (true, db') →
      TaskStep p db (.tryAcquireSlot agentId runId max .activate) db'
        (.tryAcquireSlot agentId runId max phase')
  | acquires {agentId runId max phase phase'} : TaskStep p db (.tryAcquireSlot agentId runId max phase) db
        (.tryAcquireSlot agentId runId max phase')
  | schedules {agentId phase db' phase'} : ScheduleStep p agentId db phase db' phase' →
      TaskStep p db (.scheduleNext agentId phase) db' (.scheduleNext agentId phase')
  | executes {agentId runId max step db'} : executeRun p.host db agentId runId max step = .ok ((), db') →
      TaskStep p db (.executeRun agentId runId max step) db' .finished
  | commits (op : Op) : TaskStep p db (.commit op) (op.commit p.host db) .finished
  | idles {task} : (∀ op, task ≠ .commit op) → TaskStep p db task db .finished

section Inversion

variable {p p' : Process} {db db' : Db}

theorem actSchedule_step {agentId : String} {phase phase' : SchedulePhase}
    (h : actSchedule p db agentId phase = some (db', p', phase')) :
    ScheduleStep p agentId db phase db' phase' := by
  cases phase with
  | start =>
    simp only [actSchedule] at h
    split at h
    · cases h
      exact .ends (by simp)
    split at h
    · cases h
      exact .ends (by simp)
    · rename_i hmax
      cases h
      exact .starts hmax
  | count max iterations promoted =>
    simp only [actSchedule] at h
    split at h
    · cases h
      exact .ends (by simp)
    rename_i hle
    split at h
    · cases h
      exact .ends (by simp)
    · cases h
      exact .counts (Nat.le_of_not_lt hle)
  | oldest max iterations promoted =>
    simp only [actSchedule] at h
    split at h
    · cases h
      exact .ends (by simp)
    · rename_i hnext
      cases h
      exact .finds hnext
  | promote max iterations promoted next =>
    simp only [actSchedule] at h
    split at h
    · cases h
      exact .ends (by simp)
    · rename_i hp
      cases h
      exact .skips hp
    · rename_i hp
      cases h
      exact .promotes hp
  | execute max iterations promoted next =>
    cases h
    exact .executes
  | returned promoted => cases h

theorem actAcquire_step {agentId runId : String} {max : Nat} {phase phase' : AcquirePhase}
    (h : actAcquire p db agentId runId max phase = some (db', p', phase')) :
    TaskStep p db (.tryAcquireSlot agentId runId max phase) db'
      (.tryAcquireSlot agentId runId max phase') := by
  cases phase with
  | admitRun =>
    simp only [actAcquire] at h
    split at h
    · cases h
      exact .acquires
    split at h
    · cases h
      exact .acquires
    · rename_i hadm
      split at h <;> cases h <;> exact .admits hadm
  | reserve admission =>
    simp only [actAcquire] at h
    split at h <;> cases h <;> exact .acquires
  | activate =>
    simp only [actAcquire] at h
    split at h
    · cases h
      exact .acquires
    split at h
    · rename_i hact
      cases h
      exact .activates hact
    · cases h
      exact .acquires
    · cases h
      exact .acquires
  | returned slot => cases h
  | threw e => cases h

theorem actTask_step {task task' : Task} (h : actTask p db task = some (db', p', task')) :
    TaskStep p db task db' task' := by
  cases task with
  | tryAcquireSlot agentId runId max phase =>
    obtain ⟨⟨db₁, p₁, phase'⟩, hact, heq⟩ := Option.map_eq_some_iff.mp h
    cases heq
    exact actAcquire_step hact
  | scheduleNext agentId phase =>
    obtain ⟨⟨db₁, p₁, phase'⟩, hact, heq⟩ := Option.map_eq_some_iff.mp h
    cases heq
    exact .schedules (actSchedule_step hact)
  | executeRun agentId runId max step =>
    cases h
    cases hexec : executeRun p.host db agentId runId max step with
    | error e => exact .idles (by simp)
    | ok r => exact .executes hexec
  | commit op =>
    cases h
    exact .commits op
  | pausePromotions | completeExecutionLease runId =>
    cases h
    exact .idles (by simp)
  | finished => cases h

def Process.SameHost (p p' : Process) : Prop :=
  p'.host = { p.host with executionLeases := p'.host.executionLeases }

theorem actAcquire_sameHost {agentId runId : String} {max : Nat} {phase phase' : AcquirePhase}
    (h : actAcquire p db agentId runId max phase = some (db', p', phase')) : p.SameHost p' := by
  cases phase with
  | admitRun =>
    simp only [actAcquire] at h
    split at h
    · cases h
      rfl
    split at h
    · cases h
      rfl
    · split at h <;> cases h <;> rfl
  | reserve admission =>
    simp only [actAcquire] at h
    split at h <;> cases h <;> rfl
  | activate =>
    simp only [actAcquire] at h
    split at h
    · cases h
      rfl
    split at h <;> cases h <;> rfl
  | returned slot => cases h
  | threw e => cases h

theorem actSchedule_sameHost {agentId : String} {phase phase' : SchedulePhase}
    (h : actSchedule p db agentId phase = some (db', p', phase')) : p.SameHost p' := by
  cases phase with
  | start | count max iterations promoted =>
    simp only [actSchedule] at h
    split at h
    · cases h
      rfl
    split at h <;> cases h <;> rfl
  | oldest max iterations promoted | promote max iterations promoted next =>
    simp only [actSchedule] at h
    split at h <;> cases h <;> rfl
  | execute max iterations promoted next =>
    cases h
    rfl
  | returned promoted => cases h

theorem actTask_sameHost {task task' : Task} (h : actTask p db task = some (db', p', task')) : p.SameHost p' := by
  cases task with
  | tryAcquireSlot agentId runId max phase =>
    obtain ⟨⟨db₁, p₁, phase'⟩, hact, heq⟩ := Option.map_eq_some_iff.mp h
    cases heq
    exact actAcquire_sameHost hact
  | scheduleNext agentId phase =>
    obtain ⟨⟨db₁, p₁, phase'⟩, hact, heq⟩ := Option.map_eq_some_iff.mp h
    cases heq
    exact actSchedule_sameHost hact
  | executeRun agentId runId max step | commit op | pausePromotions | completeExecutionLease runId =>
    cases h
    rfl
  | finished => cases h

theorem act_cases {w w' : World} {t t' : Thread} {c : Moment} (h : act w t c = some (w', t')) :
    ∃ p p', w.processes[t.process]? = some p ∧
      actTask (p.at c) w.db t.task = some (w'.db, p', t'.task) ∧ t'.process = t.process ∧
      w'.processes = w.processes.set t.process p' ∧ (p.at c).SameHost p' := by
  obtain ⟨p, hp, hmap⟩ := Option.bind_eq_some_iff.mp h
  obtain ⟨⟨db₁, p₁, task'⟩, hact, heq⟩ := Option.map_eq_some_iff.mp hmap
  cases heq
  exact ⟨p, p₁, hp, hact, rfl, rfl, actTask_sameHost hact⟩

end Inversion

def Task.starting : Task → Option (String × String)
  | .tryAcquireSlot agentId runId _ .admitRun => some (agentId, runId)
  | .scheduleNext agentId (.promote _ _ _ next) => some (agentId, next)
  | .executeRun agentId runId _ _ => some (agentId, runId)
  | _ => none

/-- The agent's `maxConcurrency` is `m` throughout, and a run executes only through the agent
that initiated it. -/
def Assumed (a : String) (m : Nat) (s : State) (e : Pool.Event Thread Moment) : Prop :=
  (∀ max, getAgentMaxConcurrency s.shared.db a = some max → max = m) ∧
    match e with
    | .spawn _ => True
    | .act i _ => ∀ t agentId runId, s.threads[i]? = some t → t.task.starting = some (agentId, runId) →
        ∀ r, s.shared.db.runs.find? runId = some r → r.initiatorAgentId = some agentId

def running (a : String) (db : Db) : Nat := countRunsByStatus db a .running

section Count

variable {a : String} {m : Nat} {db db' : Db} {host : Host}

theorem running_runsChange {t t' : Table Run} (h : RunsChange t t') :
    (t'.rows.countP fun r => r.initiatorAgentId = some a && r.status = .running) ≤
      t.rows.countP fun r => r.initiatorAgentId = some a && r.status = .running := by
  induction h with
  | same => exact Nat.le_refl _
  | update hf hc =>
    refine Table.countP_updateWhere_le hf ?_
    intro r _ _ hq
    simp only [Bool.and_eq_true, decide_eq_true_eq] at hq ⊢
    rw [(hc r).1] at hq
    exact ⟨hq.1, (hc r).2 hq.2⟩
  | insert hr ht =>
    rw [Table.rows_insert ht, List.countP_append]
    simp [hr]
  | delete => exact Table.countP_deleteWhere_le _ _ _
  | trans _ _ ih ih' => exact Nat.le_trans ih' ih

theorem running_commit (op : Op) : running a (op.commit host db) ≤ running a db :=
  running_runsChange op.runsChange

variable {agentId runId : String} {max : Nat}

theorem running_start {db₁ db₂ : Db} {p : Run → Bool}
    {f : Run → Run} {hf : ∀ r, (f r).id = r.id} (hres : OnlyReserves db db₁)
    (hcas : db₁.casRun runId p f hf = some db₂) (hruns : db'.runs = db₂.runs)
    (hf' : ∀ r, (f r).initiatorAgentId = r.initiatorAgentId)
    (hinit : ∀ r, db.runs.find? runId = some r → r.initiatorAgentId = some agentId)
    (hmax : agentId = a → max = m)
    (hlt : countOccupiedRunSlots host db agentId < max) (hle : running a db ≤ m) :
    running a db' ≤ m := by
  have hrunning : running a db₁ = running a db := countRuns_onlyReserves hres .running
  have hdb' : running a db' = running a db₂ := by simp only [running, countRunsByStatus, hruns]
  by_cases ha : agentId = a
  · subst ha
    have hocc := running_le_occupied host db agentId
    have hsucc := Db.casRun_countP_le_succ
      (fun r => r.initiatorAgentId = some agentId && r.status = .running) hcas
    have hm := hmax rfl
    simp only [running, countRunsByStatus] at *
    omega
  · -- the only row written belongs to another agent
    have hle' : running a db₂ ≤ running a db₁ := by
      obtain ⟨r, hr, -, rfl⟩ := Db.casRun_some hcas
      refine Table.countP_updateWhere_le hf ?_
      intro r' hr' hp hq
      have hid : r'.id = runId := by simpa using (Bool.and_eq_true_iff.mp hp).1
      have hfind : db.runs.find? runId = some r' := by
        rw [← hres.runs]
        exact Table.find?_eq_some_iff.mpr ⟨hr', hid⟩
      simp only [Bool.and_eq_true, decide_eq_true_eq, hf', hinit r' hfind, Option.some.injEq] at hq
      exact absurd hq.1 ha
    omega

theorem running_admitRun {res : AdmitResult}
    (h : admitRun host db agentId runId max = .ok (res, db'))
    (hinit : ∀ r, db.runs.find? runId = some r → r.initiatorAgentId = some agentId)
    (hmax : agentId = a → max = m) (hle : running a db ≤ m) : running a db' ≤ m := by
  obtain ⟨-, -, -, rfl⟩ | ⟨db₁, db₂, hres, -, hcas, hact⟩ := admitRun_cases h
  · exact hle
  by_cases hlt : countOccupiedRunSlots host db agentId < max
  · exact running_start hres hcas hact.only.runs (fun _ => rfl) hinit hmax hlt hle
  · -- the run is queued, which raises no count
    have hle' : running a db₂ ≤ running a db₁ := by
      refine Db.casRun_countP_le hcas ?_
      intro r _ hq
      simp [admitRow, hlt] at hq
    have hrunning : running a db₁ = running a db := countRuns_onlyReserves hres .running
    have hdb' : running a db' = running a db₂ := by simp only [running, countRunsByStatus, hact.only.runs]
    omega

theorem running_promoteQueuedRun {b : Bool}
    (h : promoteQueuedRun host db agentId runId max = .ok (b, db'))
    (hinit : ∀ r, db.runs.find? runId = some r → r.initiatorAgentId = some agentId)
    (hmax : agentId = a → max = m) (hle : running a db ≤ m) : running a db' ≤ m := by
  obtain ⟨-, rfl⟩ | ⟨-, hlt, db₁, hcas, hact⟩ := promoteQueuedRun_cases h
  · exact hle
  · exact running_start (.refl db) hcas hact.only.runs (fun _ => rfl) hinit hmax hlt hle

theorem executeRun_cases {step : RunStep} {u : Unit}
    (h : executeRun host db agentId runId max step = .ok (u, db')) :
    ∃ db₁ db₂ steps, OnlyReserves db db₁ ∧ countOccupiedRunSlots host db agentId < max ∧
      db₁.casRun runId (fun r => r.status = .pending || r.status = .queued) (executeRow host)
        (fun _ => rfl) = some db₂ ∧
      db₂.runSteps.insert (executeStep agentId runId step) = some steps ∧
      db' = { db₂ with runSteps := steps } := by
  obtain ⟨db₁, adm, hres, hk⟩ := admission_cases h
  unfold executeRunState at hk
  split at hk
  · cases hk
  rename_i hlt
  split at hk
  · cases hk
  rename_i db₂ hcas
  split at hk
  · cases hk
  rename_i steps hins
  cases hk
  rw [countOccupied_onlyReserves hres] at hlt
  exact ⟨db₁, db₂, steps, hres, Nat.lt_of_not_le hlt, hcas, hins, rfl⟩

theorem running_executeRun {step : RunStep} {u : Unit}
    (h : executeRun host db agentId runId max step = .ok (u, db'))
    (hinit : ∀ r, db.runs.find? runId = some r → r.initiatorAgentId = some agentId)
    (hmax : agentId = a → max = m) (hle : running a db ≤ m) : running a db' ≤ m := by
  obtain ⟨db₁, db₂, steps, hres, hlt, hcas, -, rfl⟩ := executeRun_cases h
  exact running_start hres hcas rfl (fun _ => rfl) hinit hmax hlt hle

end Count

section Step

variable {a : String} {m : Nat}

def Bounded (a : String) (m : Nat) : Task → Prop
  | .tryAcquireSlot agentId _ max _ => agentId = a → max = m
  | .scheduleNext agentId (.count max _ _) => agentId = a → max = m
  | .scheduleNext agentId (.oldest max _ _) => agentId = a → max = m
  | .scheduleNext agentId (.promote max _ _ _) => agentId = a → max = m
  | .scheduleNext agentId (.execute max _ _ _) => agentId = a → max = m
  | .executeRun agentId _ max _ => agentId = a → max = m
  | _ => True

theorem actTask_bounded {p p' : Process} {db db' : Db} {task task' : Task}
    (hL : Bounded a m task) (hfixed : ∀ max, getAgentMaxConcurrency db a = some max → max = m)
    (hle : running a db ≤ m)
    (hinit : ∀ agentId runId, task.starting = some (agentId, runId) →
      ∀ r, db.runs.find? runId = some r → r.initiatorAgentId = some agentId)
    (h : actTask p db task = some (db', p', task')) :
    running a db' ≤ m ∧ Bounded a m task' := by
  cases actTask_step h with
  | admits hadm => exact ⟨running_admitRun hadm (hinit _ _ rfl) hL hle, hL⟩
  | activates hact =>
    refine ⟨?_, hL⟩
    simp only [running, countRunsByStatus, (activate_onlyActivates hact).runs] at hle ⊢
    exact hle
  | acquires => exact ⟨hle, hL⟩
  | schedules hstep =>
    cases hstep with
    | ends _ => exact ⟨hle, trivial⟩
    | starts hmax =>
      refine ⟨hle, ?_⟩
      rintro rfl
      exact hfixed _ hmax
    | counts _ | finds _ | executes => exact ⟨hle, hL⟩
    | skips hp | promotes hp => exact ⟨running_promoteQueuedRun hp (hinit _ _ rfl) hL hle, hL⟩
  | executes hexec => exact ⟨running_executeRun hexec (hinit _ _ rfl) hL hle, trivial⟩
  | commits op => exact ⟨Nat.le_trans (running_commit op) hle, trivial⟩
  | idles => exact ⟨hle, trivial⟩

theorem holds_step {s s' : State} {e : Pool.Event Thread Moment} (hok : Assumed a m s e)
    (h : Pool.Holds (fun w => running a w.db ≤ m) (fun _ t => Bounded a m t.task) s)
    (hs : Pool.step queue s e = some s') :
    Pool.Holds (fun w => running a w.db ≤ m) (fun _ t => Bounded a m t.task) s' := by
  refine Pool.Holds.step ?_ ?_ h hs
  · intro t _ hstart
    have hread : ∀ agentId max, getAgentMaxConcurrency s.shared.db agentId = some max → agentId = a → max = m := by
      rintro agentId max hmax rfl
      exact hok.1 max hmax
    simp only [queue] at hstart
    revert hstart
    cases t.task with
    | tryAcquireSlot agentId runId max phase =>
      cases phase with
      | admitRun =>
        intro hstart
        exact hread agentId max (by simpa [starts] using hstart)
      | _ => simp [starts]
    | scheduleNext agentId phase => cases phase <;> simp [starts, Bounded]
    | executeRun agentId runId max step =>
      intro hstart
      exact hread agentId max (by simpa [starts] using hstart)
    | commit op | pausePromotions | completeExecutionLease runId | finished => simp [Bounded]
  · rintro i c t w' t' rfl hi hle hL ha
    obtain ⟨p, hp, h'⟩ := Option.bind_eq_some_iff.mp ha
    obtain ⟨⟨db', p', task'⟩, hact, heq⟩ := Option.map_eq_some_iff.mp h'
    cases heq
    obtain ⟨hle', hL'⟩ := actTask_bounded hL hok.1 hle
      (fun agentId runId hst => hok.2 t agentId runId hi hst) hact
    exact ⟨hle', hL', fun _ _ hu => hu⟩

end Step

/-- The agent never has more than `m` running rows, in every interleaving of any length; and
admission and promotion decide on the same count. -/
theorem running_le_maxConcurrency {a : String} {m : Nat} :
    (∀ (w : World) (es : List (Pool.Event Thread Moment)) (s : State), running a w.db ≤ m →
      Runs (Pool.step queue) (Assumed a m) ⟨w, []⟩ es s → running a s.shared.db ≤ m) ∧
    (∀ host db runId res db', admitRun host db a runId m = .ok (res, db') →
      (res.slot = .acquired ↔ countOccupiedRunSlots host db a < m)) ∧
    (∀ host db runId db', promoteQueuedRun host db a runId m = .ok (true, db') → countOccupiedRunSlots host db a < m) ∧
    (∀ host db runId, m ≤ countOccupiedRunSlots host db a → promoteQueuedRun host db a runId m = .ok (false, db)) := by
  refine ⟨?_, ?_, ?_, ?_⟩
  · intro w es s hw h
    exact (h.invariant (fun s e s' hok hI hs => holds_step hok hI hs) ⟨hw, by simp⟩).1
  · intro host db runId res db' h
    obtain ⟨hslot, hocc, -, -⟩ | ⟨-, -, -, hslot, -, -⟩ := admitRun_cases h
    · simp [hslot, hocc]
    · rw [hslot]
      split <;> simp_all
  · intro host db runId db' h
    obtain ⟨hb, -⟩ | ⟨-, hlt, -⟩ := promoteQueuedRun_cases h
    · cases hb
    · exact hlt
  · intro host db runId h
    rw [promoteQueuedRun, if_pos h]

def twoRuns : World where
  db := {
    runs := ⟨[{ id := "run_1", status := .pending, initiatorAgentId := some "agent_1" },
      { id := "run_2", status := .pending, initiatorAgentId := some "agent_1" }], by simp⟩
    agents := ⟨[{ id := "agent_1", workspaceType := .temp, maxConcurrency := 1 }], by simp⟩ }
  processes := [{ host := { processInstanceId := "host-1" } }]

theorem running_le_maxConcurrency_two_runs : ∃ s : State, Runs (Pool.step queue) (Assumed "agent_1" 1) ⟨twoRuns, []⟩
        [.spawn ⟨0, .tryAcquireSlot "agent_1" "run_1" 1 .admitRun⟩,
          .spawn ⟨0, .tryAcquireSlot "agent_1" "run_2" 1 .admitRun⟩,
          .act 0 ⟨1, false⟩, .act 1 ⟨2, false⟩] s ∧
      s.shared.db.runs.rows.map Run.status = [.running, .queued] ∧
      running "agent_1" s.shared.db ≤ 1 := by
  have h : ∃ s : State, s.shared.db.runs.rows.map Run.status = [.running, .queued] ∧
      Runs (Pool.step queue) (Assumed "agent_1" 1) ⟨twoRuns, []⟩
        [.spawn ⟨0, .tryAcquireSlot "agent_1" "run_1" 1 .admitRun⟩,
          .spawn ⟨0, .tryAcquireSlot "agent_1" "run_2" 1 .admitRun⟩,
          .act 0 ⟨1, false⟩, .act 1 ⟨2, false⟩] s := by
    refine ⟨_, ?_, .cons ⟨?_, trivial⟩ rfl (.cons ⟨?_, trivial⟩ rfl (.cons ⟨?_, ?_⟩ rfl
      (.cons ⟨?_, ?_⟩ rfl .nil)))⟩
    · rfl
    · rintro max h; cases h; rfl
    · rintro max h; cases h; rfl
    · rintro max h; cases h; rfl
    · rintro t agentId runId ht hst r hr; cases ht; cases hst; cases hr; rfl
    · rintro max h; cases h; rfl
    · rintro t agentId runId ht hst r hr; cases ht; cases hst; cases hr; rfl
  obtain ⟨s, hstatus, hs⟩ := h
  exact ⟨s, hs, hstatus, running_le_maxConcurrency.1 twoRuns _ s (by decide) hs⟩

end A2Wave.Capacity
