import Mathlib.Data.List.Sort
import A2Wave.Lib.Pool
import A2Wave.Lib.Table

/-! `engine/evaluation-queue.ts`, `engine/evaluation-queue-db.ts` and the writers of
`evaluation_tasks` in `routes/evaluation.ts` and the reaper, over several processes.  Every
database statement outside a transaction is one action. -/

namespace A2Wave.Evaluation

inductive TaskStatus
  | pending
  | queued
  | running
  | completed
  | failed
  | cancelled
  deriving DecidableEq, Repr

def TaskStatus.terminal : TaskStatus → Bool
  | .completed | .failed | .cancelled => true
  | .pending | .queued | .running => false

structure EvaluationTask where
  id : String
  agentId : String
  status : TaskStatus
  cancelRequestedAt : Option Nat := none
  error : Option String := none
  startedAt : Option Nat := none
  finishedAt : Option Nat := none
  createdAt : Nat := 0
  updatedAt : Nat := 0
  deriving DecidableEq

instance : Keyed EvaluationTask String := ⟨EvaluationTask.id⟩

@[simp] theorem key_evaluationTask (t : EvaluationTask) : Keyed.key t = t.id := rfl

abbrev Tasks := Table EvaluationTask

def EVALUATION_MAX_QUEUE_LENGTH : Nat := 50

def EVALUATION_MAX_CONCURRENCY : Nat := 1

section Db

variable (tasks : Tasks)

def countTasksByStatus (agentId : String) (status : TaskStatus) : Nat :=
  tasks.rows.countP fun t => t.agentId = agentId && t.status = status

def setStatus (status : TaskStatus) (now : Nat) (t : EvaluationTask) : EvaluationTask :=
  { t with status := status, updatedAt := now }

def updateTaskStatus (taskId : String) (status : TaskStatus) (now : Nat) : Tasks :=
  tasks.updateWhere (fun t => t.id = taskId) (setStatus status now) (fun _ => rfl)

def tryTransitionTaskStatus (taskId : String) (source target : TaskStatus) (now : Nat) : Bool × Tasks :=
  match tasks.cas taskId (fun t => t.status = source) (setStatus target now) (fun _ => rfl) with
  | some changed => (true, changed)
  | none => (false, tasks)

def settleTask (status : TaskStatus) (error : Option String) (now : Nat) (t : EvaluationTask) :
    EvaluationTask :=
  { t with status := status, error := error.or t.error, finishedAt := some now, updatedAt := now }

def failTask (taskId reason : String) (now : Nat) : Tasks :=
  tasks.updateWhere (fun t => t.id = taskId) (settleTask .failed (some reason) now) (fun _ => rfl)

def queuedTasks (agentId : String) : List EvaluationTask :=
  (tasks.select fun t => t.agentId = agentId && t.status = .queued).insertionSort
    fun s t => s.createdAt ≤ t.createdAt

def claimTask (now : Nat) (tasks : Tasks) (task : EvaluationTask) : Tasks :=
  tasks.updateWhere (fun t => t.id = task.id && t.status = .queued) (setStatus .running now) (fun _ => rfl)

def claimQueuedTasks (agentId : String) (now : Nat) : Tasks :=
  let available := EVALUATION_MAX_CONCURRENCY - countTasksByStatus tasks agentId .running
  if available = 0 then tasks
  else ((queuedTasks tasks agentId).take available).foldl (claimTask now) tasks

/-- The transaction of `POST …/evaluation-tasks`; `none` when the queue is full. -/
def createTask (taskId agentId : String) (now : Nat) : Option Tasks :=
  let status := if countTasksByStatus tasks agentId .running = 0 then .running else .queued
  if status = .queued ∧ EVALUATION_MAX_QUEUE_LENGTH ≤ countTasksByStatus tasks agentId .queued then none
  else
    tasks.insert { id := taskId, agentId := agentId, status := status, createdAt := now, updatedAt := now }

def cancelRow (now : Nat) (t : EvaluationTask) : EvaluationTask :=
  let t := { t with cancelRequestedAt := some now, updatedAt := now }
  if t.status = .queued ∨ t.status = .pending then { t with status := .cancelled, finishedAt := some now }
  else t

def cancelTask (agentId taskId : String) (now : Nat) : Tasks :=
  match tasks.find? taskId with
  | none => tasks
  | some current =>
    if current.agentId = agentId ∧ current.status.terminal = false then
      tasks.updateWhere (fun t => t.id = taskId) (cancelRow now) (by intro t; unfold cancelRow; dsimp only; split <;> rfl)
    else tasks

def deleteTask (agentId taskId : String) : Tasks :=
  match tasks.find? taskId with
  | none => tasks
  | some current =>
    if current.agentId = agentId ∧ current.status ≠ .running then
      tasks.deleteWhere fun t => t.id = taskId
    else tasks

/-- `claimEvaluationForReap` of the dead-instance reaper. -/
def reapTask (taskId : String) (now : Nat) : Tasks :=
  tasks.updateWhere (fun t => t.id = taskId && !t.status.terminal)
    (settleTask .failed (some "Interrupted: the owning server instance stopped") now) (fun _ => rfl)

def startTask (taskId : String) (now : Nat) : Tasks :=
  tasks.updateWhere (fun t => t.id = taskId)
    (fun t => { t with status := .running, startedAt := some now, updatedAt := now }) (fun _ => rfl)

def finishTask (taskId : String) (cancelled : Bool) (now : Nat) : Tasks :=
  tasks.updateWhere (fun t => t.id = taskId)
    (settleTask (if cancelled then .cancelled else .completed) none now) (fun _ => rfl)

def isCancelRequested (taskId : String) : Bool :=
  (tasks.find? taskId).any fun t => t.cancelRequestedAt.isSome

end Db

inductive SlotResult
  | acquired
  | queued
  | queueFull
  deriving DecidableEq, Repr

inductive AcquirePhase
  | start
  | countRunning
  | transition
  | countQueued
  | park
  | returned (result : SlotResult)
  deriving DecidableEq

inductive ExecutePhase
  | checkCancel
  | cancel
  | markRunning
  | replay
  | finish (cancelled : Bool)
  | fail (message : String)
  | returned
  deriving DecidableEq

inductive Call
  | insertPending (taskId agentId : String)
  | create (taskId agentId : String)
  | tryAcquireEvaluationSlot (agentId taskId : String) (phase : AcquirePhase)
  | claimQueuedTasks (agentId : String)
  | cancel (agentId taskId : String)
  | failTask (taskId reason : String)
  | reap (taskId : String)
  | delete (agentId taskId : String)
  | executeTask (taskId : String) (phase : ExecutePhase)
  | pausePromotions
  | finished
  deriving DecidableEq

structure Thread where
  process : Nat
  call : Call
  deriving DecidableEq

structure World where
  tasks : Tasks := .empty
  /-- The ids `createId` has handed out; it does not repeat itself. -/
  created : List String := []
  /-- The `eval-slot:` locks that are held, each in one process. -/
  locks : List (Nat × String) := []
  paused : List Nat := []

structure Choice where
  now : Nat
  throws : Option String := none
  deriving DecidableEq

def World.withTasks (w : World) (tasks : Tasks) : World := { w with tasks := tasks }

def World.insert (w : World) (taskId : String) (tasks : Option Tasks) : Option World :=
  if taskId ∈ w.created then none
  else
    match tasks with
    | some tasks => some { w with tasks := tasks, created := taskId :: w.created }
    | none => some { w with created := taskId :: w.created }

def World.unlock (w : World) (process : Nat) (agentId : String) : World :=
  { w with locks := w.locks.erase (process, agentId) }

def actAcquire (w : World) (process : Nat) (agentId taskId : String) (c : Choice) :
    AcquirePhase → Option (World × AcquirePhase)
  | .start =>
    if process ∈ w.paused then some (w, .returned .queueFull)
    else if (process, agentId) ∈ w.locks then none
    else some ({ w with locks := (process, agentId) :: w.locks }, .countRunning)
  | .countRunning =>
    if countTasksByStatus w.tasks agentId .running < EVALUATION_MAX_CONCURRENCY then some (w, .transition)
    else some (w, .countQueued)
  | .transition =>
    match tryTransitionTaskStatus w.tasks taskId .pending .running c.now with
    | (true, tasks) => some ((w.withTasks tasks).unlock process agentId, .returned .acquired)
    | (false, _) => some (w, .countQueued)
  | .countQueued =>
    if EVALUATION_MAX_QUEUE_LENGTH ≤ countTasksByStatus w.tasks agentId .queued then
      some (w.unlock process agentId, .returned .queueFull)
    else some (w, .park)
  | .park =>
    some ((w.withTasks (updateTaskStatus w.tasks taskId .queued c.now)).unlock process agentId, .returned .queued)
  | .returned _ => none

def actExecute (w : World) (taskId : String) (c : Choice) : ExecutePhase → Option (World × ExecutePhase)
  | .cancel => some (w.withTasks (finishTask w.tasks taskId true c.now), .returned)
  | .finish cancelled => some (w.withTasks (finishTask w.tasks taskId cancelled c.now), .returned)
  | .fail message => some (w.withTasks (failTask w.tasks taskId message c.now), .returned)
  | .returned => none
  | .checkCancel =>
    match c.throws with
    | some message => some (w, .fail message)
    | none =>
      if (w.tasks.find? taskId).isNone then some (w, .returned)
      else if isCancelRequested w.tasks taskId then some (w, .cancel)
      else some (w, .markRunning)
  | .markRunning =>
    match c.throws with
    | some message => some (w, .fail message)
    | none => some (w.withTasks (startTask w.tasks taskId c.now), .replay)
  | .replay =>
    match c.throws with
    | some message => some (w, .fail message)
    | none =>
      if (w.tasks.find? taskId).isNone then some (w, .returned)
      else some (w, .finish (isCancelRequested w.tasks taskId))

def act (w : World) (t : Thread) (c : Choice) : Option (World × Thread) :=
  match t.call with
  | .insertPending taskId agentId =>
    let row : EvaluationTask :=
      { id := taskId, agentId := agentId, status := .pending, createdAt := c.now, updatedAt := c.now }
    (w.insert taskId (w.tasks.insert row)).map fun w => (w, { t with call := .finished })
  | .create taskId agentId =>
    (w.insert taskId (createTask w.tasks taskId agentId c.now)).map fun w =>
      (w, { t with call := .finished })
  | .tryAcquireEvaluationSlot agentId taskId phase =>
    (actAcquire w t.process agentId taskId c phase).map fun (w, phase) =>
      (w, { t with call := .tryAcquireEvaluationSlot agentId taskId phase })
  | .claimQueuedTasks agentId =>
    if t.process ∈ w.paused then some (w, { t with call := .finished })
    else
      some (w.withTasks (Evaluation.claimQueuedTasks w.tasks agentId c.now), { t with call := .finished })
  | .cancel agentId taskId =>
    some (w.withTasks (cancelTask w.tasks agentId taskId c.now), { t with call := .finished })
  | .failTask taskId reason =>
    some (w.withTasks (Evaluation.failTask w.tasks taskId reason c.now), { t with call := .finished })
  | .reap taskId => some (w.withTasks (reapTask w.tasks taskId c.now), { t with call := .finished })
  | .delete agentId taskId =>
    some (w.withTasks (deleteTask w.tasks agentId taskId), { t with call := .finished })
  | .executeTask taskId phase =>
    (actExecute w taskId c phase).map fun (w, phase) => (w, { t with call := .executeTask taskId phase })
  | .pausePromotions => some ({ w with paused := t.process :: w.paused }, { t with call := .finished })
  | .finished => none

def Call.fresh : Call → Bool
  | .tryAcquireEvaluationSlot _ _ phase => phase = .start
  | .executeTask _ phase => phase = .checkCancel
  | .finished => false
  | _ => true

def program : Pool.Program World Thread Choice where
  start := fun _ _ t => t.call.fresh
  act := act

section Effect

/-- What a statement may do to the table: only the ids `new` may appear, a settled task stays
settled, and a task that starts to run is then the only one of its agent that runs. -/
structure Effect (new : List String) (t t' : Tasks) : Prop where
  appears : ∀ id r', t'.find? id = some r' → (∃ r, t.find? id = some r) ∨ id ∈ new
  agentId : ∀ id r r', t.find? id = some r → t'.find? id = some r' → r'.agentId = r.agentId
  settled : ∀ id r r', t.find? id = some r → t'.find? id = some r' → r.status.terminal = true →
    r'.status.terminal = true
  running : ∀ id r', t'.find? id = some r' → r'.status = .running → (∃ r, t.find? id = some r ∧ r.status = .running) ∨
      ∀ id₂ r₂, t'.find? id₂ = some r₂ → r₂.status = .running → r₂.agentId = r'.agentId → id₂ = id

def AtMostOneRunning (t : Tasks) : Prop :=
  ∀ id₁ r₁ id₂ r₂, t.find? id₁ = some r₁ → t.find? id₂ = some r₂ → r₁.status = .running →
    r₂.status = .running → r₁.agentId = r₂.agentId → id₁ = id₂

variable {t t' : Tasks} {p : EvaluationTask → Bool} {f : EvaluationTask → EvaluationTask}
  {hf : ∀ r, Keyed.key (f r) = Keyed.key r} {taskId agentId : String} {now : Nat} {new : List String}

theorem Effect.atMostOneRunning (h : Effect new t t') (hone : AtMostOneRunning t) : AtMostOneRunning t' := by
  intro id₁ r₁ id₂ r₂ h₁ h₂ hr₁ hr₂ hagent
  rcases h.running id₁ r₁ h₁ hr₁ with ⟨s₁, hs₁, hrun₁⟩ | honly
  · rcases h.running id₂ r₂ h₂ hr₂ with ⟨s₂, hs₂, hrun₂⟩ | honly
    · apply hone id₁ s₁ id₂ s₂ hs₁ hs₂ hrun₁ hrun₂
      rw [← h.agentId id₁ s₁ r₁ hs₁ h₁, ← h.agentId id₂ s₂ r₂ hs₂ h₂, hagent]
    · exact honly id₁ r₁ h₁ hr₁ hagent
  · exact (honly id₂ r₂ h₂ hr₂ hagent.symm).symm

theorem Effect.refl (t : Tasks) : Effect [] t t where
  appears := fun _ r' h => .inl ⟨r', h⟩
  agentId := fun _ r r' h h' => by rw [h] at h'; cases h'; rfl
  settled := fun _ r r' h h' hr => by rw [h] at h'; cases h'; exact hr
  running := fun _ r' h hr => .inl ⟨r', h, hr⟩

theorem find?_updateWhere_some {id : String} {r' : EvaluationTask}
    (h : (t.updateWhere p f hf).find? id = some r') :
    ∃ r, t.find? id = some r ∧ ((p r = true ∧ r' = f r) ∨ (p r = false ∧ r' = r)) := by
  rw [Table.find?_updateWhere] at h
  obtain ⟨r, hr, hr'⟩ := Option.map_eq_some_iff.mp h
  refine ⟨r, hr, ?_⟩
  by_cases hp : p r = true
  · rw [if_pos hp] at hr'
    exact .inl ⟨hp, hr'.symm⟩
  · rw [if_neg hp] at hr'
    exact .inr ⟨by simpa using hp, hr'.symm⟩

theorem Effect.updateWhere (hagent : ∀ r, (f r).agentId = r.agentId)
    (hsettled : ∀ id r, t.find? id = some r → p r = true → r.status.terminal = true → (f r).status.terminal = true)
    (hrunning : ∀ id r', (t.updateWhere p f hf).find? id = some r' → r'.status = .running →
      (∃ r, t.find? id = some r ∧ r.status = .running) ∨
        ∀ id₂ r₂, (t.updateWhere p f hf).find? id₂ = some r₂ → r₂.status = .running →
          r₂.agentId = r'.agentId → id₂ = id) :
    Effect [] t (t.updateWhere p f hf) where
  appears := by
    intro id r' h'
    obtain ⟨r, hr, -⟩ := find?_updateWhere_some h'
    exact .inl ⟨r, hr⟩
  agentId := by
    intro id r r' h h'
    obtain ⟨s, hs, ⟨-, rfl⟩ | ⟨-, rfl⟩⟩ := find?_updateWhere_some h'
    · rw [h] at hs
      cases hs
      exact hagent r
    · rw [h] at hs
      cases hs
      rfl
  settled := by
    intro id r r' h h' hr
    obtain ⟨s, hs, ⟨hp, rfl⟩ | ⟨-, rfl⟩⟩ := find?_updateWhere_some h'
    · rw [h] at hs
      cases hs
      exact hsettled id r h hp hr
    · rw [h] at hs
      cases hs
      exact hr
  running := hrunning

theorem Effect.update (hagent : ∀ r, (f r).agentId = r.agentId)
    (hsettled : ∀ id r, t.find? id = some r → p r = true → r.status.terminal = true → (f r).status.terminal = true)
    (hrunning : ∀ r, (f r).status = .running → r.status = .running) :
    Effect [] t (t.updateWhere p f hf) := by
  refine .updateWhere hagent hsettled ?_
  intro id r' h' hr'
  obtain ⟨r, hr, ⟨-, rfl⟩ | ⟨-, rfl⟩⟩ := find?_updateWhere_some h'
  · exact .inl ⟨r, hr, hrunning r hr'⟩
  · exact .inl ⟨_, hr, hr'⟩

theorem Effect.promote (taskId : String) (hkey : ∀ r, p r = true → r.id = taskId)
    (hagent : ∀ r, (f r).agentId = r.agentId)
    (hopen : ∀ r, t.find? taskId = some r → p r = true → r.status.terminal = false)
    (hfree : ∀ r, t.find? taskId = some r → p r = true → ∀ id r₂, t.find? id = some r₂ →
      r₂.status = .running → r₂.agentId = r.agentId → id = taskId) :
    Effect [] t (t.updateWhere p f hf) := by
  refine .updateWhere hagent ?_ ?_
  · intro id r h hp hr
    have hid : id = taskId := (Table.find?_some_key h).symm.trans (hkey r hp)
    subst hid
    rw [hopen r h hp] at hr
    cases hr
  · intro id r' h' hr'
    obtain ⟨r, hr, ⟨hp, rfl⟩ | ⟨-, rfl⟩⟩ := find?_updateWhere_some h'
    · have hid : id = taskId := (Table.find?_some_key hr).symm.trans (hkey r hp)
      subst hid
      right
      intro id₂ r₂' h₂ hr₂ hag
      obtain ⟨r₂, hr₂', ⟨hp₂, rfl⟩ | ⟨-, rfl⟩⟩ := find?_updateWhere_some h₂
      · exact (Table.find?_some_key hr₂').symm.trans (hkey r₂ hp₂)
      · exact hfree r hr hp id₂ _ hr₂' hr₂ (hag.trans (hagent r))
    · exact .inl ⟨_, hr, hr'⟩

theorem Effect.delete (p : EvaluationTask → Bool) : Effect [] t (t.deleteWhere p) := by
  have hsub : ∀ id r', (t.deleteWhere p).find? id = some r' → t.find? id = some r' := by
    intro id r' h
    rw [Table.find?_deleteWhere, Option.filter_eq_some_iff] at h
    exact h.1
  constructor
  · intro id r' h'
    exact .inl ⟨r', hsub id r' h'⟩
  · intro id r r' h h'
    rw [hsub id r' h'] at h
    cases h
    rfl
  · intro id r r' h h' hr
    rw [hsub id r' h'] at h
    cases h
    exact hr
  · intro id r' h' hr'
    exact .inl ⟨r', hsub id r' h', hr'⟩

theorem Effect.insert {row : EvaluationTask} (h : t.insert row = some t')
    (hfree : row.status = .running → ∀ id r, t.find? id = some r → r.status = .running →
      r.agentId ≠ row.agentId) : Effect [row.id] t t' := by
  have hfind := Table.find?_insert h
  have hkeep : ∀ {id r r'}, t.find? id = some r → t'.find? id = some r' → r = r' := by
    intro id r r' hr hr'
    rw [Table.find?_insert_of_some h hr] at hr'
    exact Option.some.inj hr'
  constructor
  · intro id r' hr'
    rw [hfind] at hr'
    split at hr'
    · rename_i hkey
      exact .inr (List.mem_singleton.mpr hkey.symm)
    · exact .inl ⟨r', hr'⟩
  · intro id r r' hr hr'
    rw [hkeep hr hr']
  · intro id r r' hr hr' hterm
    rwa [← hkeep hr hr']
  · intro id r' hr' hrun
    rw [hfind] at hr'
    split at hr'
    · rename_i hkey
      cases hr'
      right
      intro id₂ r₂ h₂ hr₂ hag
      rw [hfind] at h₂
      split at h₂
      · rename_i hkey₂
        exact hkey₂.symm.trans hkey
      · exact absurd hag (hfree hrun id₂ r₂ h₂ hr₂)
    · exact .inl ⟨r', hr', hrun⟩

theorem countTasksByStatus_eq_zero {status : TaskStatus}
    (h : countTasksByStatus t agentId status = 0) :
    ∀ id r, t.find? id = some r → r.status = status → r.agentId ≠ agentId := by
  intro id r hr hstatus hagent
  rw [countTasksByStatus, List.countP_eq_zero] at h
  exact h r (Table.find?_mem hr) (by simp [hstatus, hagent])

theorem effect_claimTask {task : EvaluationTask}
    (hfree : ∀ id r, t.find? id = some r → r.status = .running → r.agentId ≠ agentId)
    (hagent : ∀ r, t.find? task.id = some r → r.agentId = agentId) :
    Effect [] t (claimTask now t task) := by
  apply Effect.promote task.id
  · intro r hp
    simp only [Bool.and_eq_true, decide_eq_true_eq] at hp
    exact hp.1
  · intro r
    rfl
  · intro r _ hp
    simp only [Bool.and_eq_true, decide_eq_true_eq] at hp
    rw [hp.2]
    rfl
  · intro r hr _ id r₂ hr₂ hrun hag
    exact absurd (hag.trans (hagent r hr)) (hfree id r₂ hr₂ hrun)

theorem effect_claimQueuedTasks : Effect [] t (claimQueuedTasks t agentId now) := by
  unfold claimQueuedTasks
  dsimp only
  split
  · exact .refl t
  · rename_i havail
    -- one slot, and it is free: the claim takes at most the oldest task
    have hzero : countTasksByStatus t agentId .running = 0 := by
      simp only [EVALUATION_MAX_CONCURRENCY] at havail
      omega
    have hone : EVALUATION_MAX_CONCURRENCY - countTasksByStatus t agentId .running = 1 := by
      rw [hzero]
      rfl
    rw [hone]
    cases hq : queuedTasks t agentId with
    | nil => exact .refl t
    | cons task rest =>
      have hmem : task ∈ queuedTasks t agentId := by
        rw [hq]
        exact List.mem_cons_self
      rw [queuedTasks, List.mem_insertionSort] at hmem
      obtain ⟨hrow, hqueued⟩ := List.mem_filter.mp hmem
      simp only [Bool.and_eq_true, decide_eq_true_eq] at hqueued
      have hfind : t.find? task.id = some task := Table.find?_eq_some_iff.mpr ⟨hrow, rfl⟩
      apply effect_claimTask (countTasksByStatus_eq_zero hzero)
      intro r hr
      rw [hfind] at hr
      cases hr
      exact hqueued.1

theorem effect_createTask (h : createTask t taskId agentId now = some t') : Effect [taskId] t t' := by
  unfold createTask at h
  by_cases hzero : countTasksByStatus t agentId .running = 0
  · simp only [hzero, if_true, reduceCtorEq, false_and, if_false] at h
    exact Effect.insert h fun _ => countTasksByStatus_eq_zero hzero
  · simp only [hzero, if_false, true_and] at h
    split at h
    · cases h
    · apply Effect.insert h
      intro hrun
      cases hrun

theorem effect_settle {status : TaskStatus} {error : Option String} (p : EvaluationTask → Bool)
    (hstatus : status.terminal = true) :
    Effect [] t (t.updateWhere p (settleTask status error now) (fun _ => rfl)) := by
  apply Effect.update
  · intro r
    rfl
  · intro _ _ _ _ _
    exact hstatus
  · intro r hr
    have hcases : status = .running := hr
    rw [hcases] at hstatus
    cases hstatus

theorem effect_cancelTask : Effect [] t (cancelTask t agentId taskId now) := by
  unfold cancelTask
  split
  · exact .refl t
  · rename_i current hcurrent
    split
    · rename_i hopen
      apply Effect.update
      · intro r
        unfold cancelRow
        dsimp only
        split <;> rfl
      · intro id r hr hp hterm
        have hid : r.id = taskId := by simpa using hp
        have hkey : r.id = id := Table.find?_some_key hr
        rw [← hkey, hid, hcurrent] at hr
        cases hr
        rw [hopen.2] at hterm
        cases hterm
      · intro r hr
        unfold cancelRow at hr
        dsimp only at hr
        split at hr
        · cases hr
        · exact hr
    · exact .refl t

theorem effect_deleteTask : Effect [] t (deleteTask t agentId taskId) := by
  unfold deleteTask
  split
  · exact .refl t
  · split
    · exact .delete _
    · exact .refl t

end Effect

section Run

open Transition

def slotFree (tasks : Tasks) (taskId : String) : Bool :=
  (tasks.find? taskId).all fun row =>
    tasks.rows.all fun other =>
      !(other.status = .running && other.agentId = row.agentId) || other.id = taskId

def notSettled (tasks : Tasks) (taskId : String) : Bool :=
  (tasks.find? taskId).all fun row => !row.status.terminal

/-- The condition on the three writes that check nothing themselves: the queue's fallback
finds a task that is not settled, a slot is taken only when it is free, and the executor
starts a task that is neither settled nor beside another one. -/
def callOk (tasks : Tasks) : Call → Bool
  | .tryAcquireEvaluationSlot _ taskId .transition =>
    slotFree tasks taskId || (tasks.find? taskId).all fun row => row.status ≠ .pending
  | .tryAcquireEvaluationSlot _ taskId .park => notSettled tasks taskId
  | .executeTask taskId .markRunning => notSettled tasks taskId && slotFree tasks taskId
  | _ => true

def Ok (p : Pool World Thread) : Pool.Event Thread Choice → Prop
  | .spawn _ => True
  | .act i _ => ∀ t ∈ p.threads[i]?, callOk p.shared.tasks t.call = true

instance (p : Pool World Thread) (e : Pool.Event Thread Choice) : Decidable (Ok p e) :=
  match e with
  | .spawn _ => .isTrue trivial
  | .act i _ => inferInstanceAs (Decidable (∀ t ∈ p.threads[i]?, callOk p.shared.tasks t.call = true))

variable {w w' : World} {c : Choice} {taskId agentId : String} {process : Nat}

theorem slotFree_iff {tasks : Tasks} : slotFree tasks taskId = true ↔
    ∀ row, tasks.find? taskId = some row → ∀ id other, tasks.find? id = some other →
      other.status = .running → other.agentId = row.agentId → id = taskId := by
  unfold slotFree
  cases hrow : tasks.find? taskId with
  | none => simp
  | some row =>
    simp only [Option.all_some, List.all_eq_true, Option.some.injEq, forall_eq']
    constructor
    · intro h id other hother hrun hag
      have hid := h other (Table.find?_mem hother)
      simp only [hrun, hag, decide_true, Bool.and_self, Bool.not_true, Bool.false_or,
        decide_eq_true_eq] at hid
      exact (Table.find?_some_key hother).symm.trans hid
    · intro h other hother
      by_cases hrun : other.status = .running ∧ other.agentId = row.agentId
      · have hid := h other.id other (Table.find?_eq_some_iff.mpr ⟨hother, rfl⟩) hrun.1 hrun.2
        simp [hid]
      · rcases not_and_or.mp hrun with hno | hno <;> simp [hno]

theorem notSettled_iff {tasks : Tasks} : notSettled tasks taskId = true ↔
    ∀ row, tasks.find? taskId = some row → row.status.terminal = false := by
  unfold notSettled
  cases tasks.find? taskId <;> simp

theorem effect_transition {tasks : Tasks} {now : Nat}
    (hok : callOk w.tasks (.tryAcquireEvaluationSlot agentId taskId .transition) = true)
    (h : tryTransitionTaskStatus w.tasks taskId .pending .running now = (true, tasks)) :
    Effect [] w.tasks tasks := by
  unfold tryTransitionTaskStatus at h
  split at h
  · rename_i changed hcas
    cases h
    obtain ⟨row, hrow, hpending, -, -⟩ := Table.cas_some hcas
    rw [Table.cas_eq_updateWhere hcas]
    have hstatus : row.status = .pending := by simpa using hpending
    have hfree : slotFree w.tasks taskId = true := by
      simpa [callOk, hrow, hstatus] using hok
    apply Effect.promote taskId
    · intro r hp
      simp only [key_evaluationTask, Bool.and_eq_true, decide_eq_true_eq] at hp
      exact hp.1
    · intro r
      rfl
    · intro r hr _
      rw [hrow] at hr
      cases hr
      rw [hstatus]
      rfl
    · intro r hr _
      exact slotFree_iff.mp hfree r hr
  · cases h

theorem effect_park (hok : callOk w.tasks (.tryAcquireEvaluationSlot agentId taskId .park) = true)
    (now : Nat) : Effect [] w.tasks (updateTaskStatus w.tasks taskId .queued now) := by
  apply Effect.update
  · intro r
    rfl
  · intro id r hr hp hterm
    have hid : r.id = taskId := by simpa using hp
    have hkey : r.id = id := Table.find?_some_key hr
    rw [← hkey, hid] at hr
    rw [notSettled_iff.mp hok r hr] at hterm
    cases hterm
  · intro r hr
    cases hr

theorem effect_startTask (hok : callOk w.tasks (.executeTask taskId .markRunning) = true) (now : Nat) :
    Effect [] w.tasks (startTask w.tasks taskId now) := by
  simp only [callOk, Bool.and_eq_true] at hok
  apply Effect.promote taskId
  · intro r hp
    simpa using hp
  · intro r
    rfl
  · intro r hr _
    exact notSettled_iff.mp hok.1 r hr
  · intro r hr _
    exact slotFree_iff.mp hok.2 r hr

theorem effect_actAcquire {phase phase' : AcquirePhase}
    (hok : callOk w.tasks (.tryAcquireEvaluationSlot agentId taskId phase) = true)
    (h : actAcquire w process agentId taskId c phase = some (w', phase')) :
    Effect [] w.tasks w'.tasks ∧ w'.created = w.created := by
  cases phase with
  | start =>
    simp only [actAcquire] at h
    split at h
    · cases h
      exact ⟨.refl _, rfl⟩
    · split at h
      · cases h
      · cases h
        exact ⟨.refl _, rfl⟩
  | countRunning | countQueued =>
    simp only [actAcquire] at h
    split at h <;> cases h <;> exact ⟨.refl _, rfl⟩
  | transition =>
    simp only [actAcquire] at h
    split at h
    · rename_i tasks htransition
      cases h
      exact ⟨effect_transition hok htransition, rfl⟩
    · cases h
      exact ⟨.refl _, rfl⟩
  | park =>
    simp only [actAcquire] at h
    cases h
    exact ⟨effect_park hok c.now, rfl⟩
  | returned result => cases h

theorem effect_actExecute {phase phase' : ExecutePhase}
    (hok : callOk w.tasks (.executeTask taskId phase) = true)
    (h : actExecute w taskId c phase = some (w', phase')) :
    Effect [] w.tasks w'.tasks ∧ w'.created = w.created := by
  cases phase with
  | cancel | fail message =>
    cases h
    exact ⟨effect_settle _ rfl, rfl⟩
  | finish cancelled =>
    cases h
    refine ⟨effect_settle _ ?_, rfl⟩
    cases cancelled <;> rfl
  | returned => cases h
  | checkCancel =>
    simp only [actExecute] at h
    split at h
    · cases h
      exact ⟨.refl _, rfl⟩
    · split at h
      · cases h
        exact ⟨.refl _, rfl⟩
      · split at h <;> cases h <;> exact ⟨.refl _, rfl⟩
  | markRunning =>
    simp only [actExecute] at h
    split at h
    · cases h
      exact ⟨.refl _, rfl⟩
    · cases h
      exact ⟨effect_startTask hok c.now, rfl⟩
  | replay =>
    simp only [actExecute] at h
    split at h
    · cases h
      exact ⟨.refl _, rfl⟩
    · split at h <;> cases h <;> exact ⟨.refl _, rfl⟩

structure Grows (new : List String) (w w' : World) : Prop where
  effect : Effect new w.tasks w'.tasks
  created : w'.created = new ++ w.created
  fresh : ∀ id ∈ new, id ∉ w.created

theorem Grows.of_effect (h : Effect [] w.tasks w'.tasks ∧ w'.created = w.created) : Grows [] w w' :=
  ⟨h.1, h.2, by simp⟩

theorem grows_insert {tasks : Option Tasks} (heffect : ∀ t, tasks = some t → Effect [taskId] w.tasks t)
    (h : w.insert taskId tasks = some w') : Grows [taskId] w w' := by
  unfold World.insert at h
  split at h
  · cases h
  · rename_i hfresh
    have hnew : ∀ id ∈ [taskId], id ∉ w.created := by
      intro id hid
      rw [List.mem_singleton.mp hid]
      exact hfresh
    cases tasks with
    | none =>
      cases h
      have hsame := Effect.refl w.tasks
      exact ⟨⟨fun id r' hr' => .inl ⟨r', hr'⟩, hsame.agentId, hsame.settled, hsame.running⟩, rfl, hnew⟩
    | some t =>
      cases h
      exact ⟨heffect t rfl, rfl, hnew⟩

theorem grows_act {t t' : Thread} (hok : callOk w.tasks t.call = true)
    (h : act w t c = some (w', t')) : ∃ new, Grows new w w' := by
  obtain ⟨process, call⟩ := t
  cases call with
  | insertPending taskId agentId =>
    obtain ⟨w₁, hw, hpair⟩ := Option.map_eq_some_iff.mp h
    cases hpair
    refine ⟨_, grows_insert ?_ hw⟩
    intro tasks htasks
    exact Effect.insert htasks fun hrun => by cases hrun
  | create taskId agentId =>
    obtain ⟨w₁, hw, hpair⟩ := Option.map_eq_some_iff.mp h
    cases hpair
    exact ⟨_, grows_insert (fun tasks htasks => effect_createTask htasks) hw⟩
  | tryAcquireEvaluationSlot agentId taskId phase =>
    obtain ⟨⟨w₁, phase'⟩, hw, hpair⟩ := Option.map_eq_some_iff.mp h
    cases hpair
    exact ⟨[], .of_effect (effect_actAcquire hok hw)⟩
  | claimQueuedTasks agentId =>
    simp only [act] at h
    split at h
    · cases h
      exact ⟨[], .of_effect ⟨.refl _, rfl⟩⟩
    · cases h
      exact ⟨[], .of_effect ⟨effect_claimQueuedTasks, rfl⟩⟩
  | cancel agentId taskId =>
    cases h
    exact ⟨[], .of_effect ⟨effect_cancelTask, rfl⟩⟩
  | failTask taskId reason | reap taskId =>
    cases h
    exact ⟨[], .of_effect ⟨effect_settle _ rfl, rfl⟩⟩
  | delete agentId taskId =>
    cases h
    exact ⟨[], .of_effect ⟨effect_deleteTask, rfl⟩⟩
  | executeTask taskId phase =>
    obtain ⟨⟨w₁, phase'⟩, hw, hpair⟩ := Option.map_eq_some_iff.mp h
    cases hpair
    exact ⟨[], .of_effect (effect_actExecute hok hw)⟩
  | pausePromotions =>
    cases h
    exact ⟨[], .of_effect ⟨.refl _, rfl⟩⟩
  | finished => cases h

theorem grows_step {p q : Pool World Thread} {e : Pool.Event Thread Choice} (hok : Ok p e)
    (h : Pool.step program p e = some q) : ∃ new, Grows new p.shared q.shared := by
  obtain ⟨t, -, -, rfl⟩ | ⟨i, c, t, s', t', rfl, hi, hact, rfl⟩ := Pool.step_cases h
  · exact ⟨[], .of_effect ⟨.refl _, rfl⟩⟩
  · exact grows_act (hok t hi) hact

def Recorded (w : World) : Prop := ∀ id row, w.tasks.find? id = some row → id ∈ w.created

def Settled (w : World) (taskId : String) : Prop :=
  taskId ∈ w.created ∧ ∀ row, w.tasks.find? taskId = some row → row.status.terminal = true

variable {new : List String}

theorem Grows.recorded (h : Grows new w w') (hrec : Recorded w) : Recorded w' := by
  intro id row hrow
  rw [h.created, List.mem_append]
  rcases h.effect.appears id row hrow with ⟨r, hr⟩ | hnew
  · exact .inr (hrec id r hr)
  · exact .inl hnew

theorem Grows.settled (h : Grows new w w') (hs : Settled w taskId) : Settled w' taskId := by
  refine ⟨by rw [h.created]; exact List.mem_append_right _ hs.1, ?_⟩
  intro row hrow
  rcases h.effect.appears taskId row hrow with ⟨r, hr⟩ | hnew
  · exact h.effect.settled taskId r row hr hrow (hs.2 r hr)
  · exact absurd hs.1 (h.fresh taskId hnew)

def initial : Pool World Thread := ⟨{}, []⟩

theorem reachable_inv {es : List (Pool.Event Thread Choice)} {p : Pool World Thread}
    (h : Runs (Pool.step program) Ok initial es p) :
    AtMostOneRunning p.shared.tasks ∧ Recorded p.shared := by
  refine h.invariant (I := fun p => AtMostOneRunning p.shared.tasks ∧ Recorded p.shared) ?_ ?_
  · intro p e q hok hinv hstep
    obtain ⟨new, hgrows⟩ := grows_step hok hstep
    exact ⟨hgrows.effect.atMostOneRunning hinv.1, hgrows.recorded hinv.2⟩
  · constructor
    · intro id₁ r₁ id₂ r₂ h₁
      cases h₁
    · intro id row hrow
      cases hrow

/-- In every run whose unconditional writes meet `Ok`, at most one task of an agent runs, and
a task that was settled never waits or runs again. -/
theorem evaluation_tasks_settle_once (es es' : List (Pool.Event Thread Choice))
    {p q : Pool World Thread} (hp : Runs (Pool.step program) Ok initial es p)
    (hq : Runs (Pool.step program) Ok p es' q) :
    AtMostOneRunning q.shared.tasks ∧
      ∀ taskId row, p.shared.tasks.find? taskId = some row → row.status.terminal = true →
        ∀ row', q.shared.tasks.find? taskId = some row' → row'.status.terminal = true := by
  obtain ⟨hone, hrec⟩ := reachable_inv hp
  have hinv := hq.invariant (I := fun q => AtMostOneRunning q.shared.tasks ∧
      ∀ taskId, Settled p.shared taskId → Settled q.shared taskId) ?_ ⟨hone, fun _ h => h⟩
  · refine ⟨hinv.1, ?_⟩
    intro taskId row hrow hterm
    have hsettled : Settled p.shared taskId := by
      refine ⟨hrec taskId row hrow, ?_⟩
      intro row' hrow'
      rw [hrow] at hrow'
      cases hrow'
      exact hterm
    exact (hinv.2 taskId hsettled).2
  · intro s e t hok hI hstep
    obtain ⟨new, hgrows⟩ := grows_step hok hstep
    exact ⟨hgrows.effect.atMostOneRunning hI.1, fun id hid => hgrows.settled (hI.2 id hid)⟩

def actAt (i now : Nat) : Pool.Event Thread Choice := .act i ⟨now, none⟩

theorem evaluation_tasks_settle_once_two_tasks : ∃ p q : Pool World Thread,
      (p.shared.tasks.find? "evt_1").map EvaluationTask.status = some .completed ∧
      (q.shared.tasks.find? "evt_2").map EvaluationTask.status = some .running ∧
      AtMostOneRunning q.shared.tasks ∧
      ∀ taskId row, p.shared.tasks.find? taskId = some row → row.status.terminal = true →
        ∀ row', q.shared.tasks.find? taskId = some row' → row'.status.terminal = true := by
  refine ⟨_, _, ?_, ?_, evaluation_tasks_settle_once
    [.spawn ⟨0, .create "evt_1" "agt"⟩, actAt 0 1, .spawn ⟨0, .executeTask "evt_1" .checkCancel⟩,
      actAt 1 2, actAt 1 3, actAt 1 4, actAt 1 5]
    [.spawn ⟨1, .insertPending "evt_2" "agt"⟩, actAt 2 6,
      .spawn ⟨1, .tryAcquireEvaluationSlot "agt" "evt_2" .start⟩, actAt 3 7, actAt 3 8, actAt 3 9]
    (.of_guarded rfl) (.of_guarded rfl)⟩
  · decide +kernel
  · decide +kernel

theorem evaluation_cancelled_task_is_queued_again : (∃ p, run (Pool.step program) initial
        [.spawn ⟨0, .insertPending "evt_1" "agt"⟩, actAt 0 1,
          .spawn ⟨0, .tryAcquireEvaluationSlot "agt" "evt_1" .start⟩, actAt 1 2, actAt 1 3,
          .spawn ⟨0, .cancel "agt" "evt_1"⟩, actAt 2 4] = some p ∧
      (p.shared.tasks.find? "evt_1").map EvaluationTask.status = some .cancelled ∧
      ∃ q, run (Pool.step program) p [actAt 1 5, actAt 1 6, actAt 1 7] = some q ∧
        (q.shared.tasks.find? "evt_1").map EvaluationTask.status = some .queued) ∧
    (∃ q, run (Pool.step program) initial
        [.spawn ⟨0, .insertPending "evt_1" "agt"⟩, actAt 0 1,
          .spawn ⟨0, .tryAcquireEvaluationSlot "agt" "evt_1" .start⟩, actAt 1 2, actAt 1 3,
          .spawn ⟨0, .create "evt_2" "agt"⟩, actAt 2 4, actAt 1 5] = some q ∧
      ¬AtMostOneRunning q.shared.tasks) := by
  refine ⟨⟨_, rfl, by decide +kernel, _, rfl, by decide +kernel⟩, _, rfl, ?_⟩
  intro h
  have hsame := h "evt_1" _ "evt_2" _ rfl rfl rfl rfl rfl
  revert hsame
  decide

end Run

end A2Wave.Evaluation
