import Mathlib
import A2Wave.Queue.Capacity

/-! What `scheduleNext` dispatches: the calls of the queue with the promotions they perform and the
runs they pass to `onExecute`.  An await of the call may also reject, and the call then ends. -/

namespace A2Wave.Dispatch

open Transition Capacity

structure Thread where
  process : Nat
  task : Capacity.Task
  promotions : List String := []
  /-- The runs that the call has passed to `onExecute`. -/
  executions : List String := []

structure Choice where
  moment : Moment
  dbFails : Bool := false

/-- The rows that a transaction has taken from `queued` to `running`. -/
def transitions (db db' : Db) : List String :=
  ((db.runs.select (·.status = .queued)).map Run.id).filter fun id =>
    (db'.runs.find? id).any (·.status = .running)

def performed (task : Capacity.Task) (db db' : Db) : List String :=
  match task with
  | .scheduleNext _ _ => transitions db db'
  | _ => []

/-- The run that the call is about to pass to `onExecute`. -/
def pending : SchedulePhase → List String
  | .execute _ _ _ next => [next]
  | .start | .count _ _ _ | .oldest _ _ _ | .promote _ _ _ _ | .returned _ => []

def invoked : Capacity.Task → List String
  | .scheduleNext _ phase => pending phase
  | _ => []

/-- Where the call goes when its await rejects: `scheduleNext` swallows the error. -/
def rejected : Capacity.Task → Option Capacity.Task
  | .scheduleNext agentId .start | .scheduleNext agentId (.count _ _ _)
  | .scheduleNext agentId (.oldest _ _ _) | .scheduleNext agentId (.promote _ _ _ _) =>
    some (.scheduleNext agentId (.returned 0))
  | _ => none

def act (w : World) (t : Thread) (c : Choice) : Option (World × Thread) :=
  match if c.dbFails then rejected t.task else none with
  | some task => some (w, { t with task := task })
  | none => (Capacity.act w ⟨t.process, t.task⟩ c.moment).map fun (w', t') =>
    (w', { t with
      task := t'.task
      promotions := t.promotions ++ performed t.task w.db w'.db
      executions := t.executions ++ invoked t.task })

def dispatch : Pool.Program World Thread Choice where
  start w _ t := starts w.db t.task && t.promotions = [] && t.executions = []
  act := act

abbrev State := Pool World Thread

section Promotion

variable {p : Process} {agentId : String} {db db' : Db} {phase phase' : SchedulePhase}

theorem transitions_self (db : Db) : transitions db db = [] := by
  simp only [transitions, List.filter_eq_nil_iff, List.mem_map, Table.select, List.mem_filter,
    decide_eq_true_eq]
  rintro id ⟨r, ⟨hmem, hqueued⟩, rfl⟩
  have hr : db.runs.find? r.id = some r := Table.find?_eq_some_iff.mpr ⟨hmem, rfl⟩
  simp [hr, hqueued]

theorem transitions_promoteQueuedRun {host : Host} {runId : String} {m : Nat}
    (h : promoteQueuedRun host db agentId runId m = .ok (true, db')) :
    transitions db db' = [runId] := by
  obtain ⟨hno, -⟩ | ⟨-, -, db₁, hcas, hact⟩ := promoteQueuedRun_cases h
  · cases hno
  obtain ⟨r, hr, hqueued, hr', hother⟩ := Db.casRun_find? hcas
  have hruns : db'.runs = db₁.runs := hact.only.runs
  obtain ⟨hmem, hkey⟩ := Table.find?_eq_some_iff.mp hr
  have hnodup : ((db.runs.select (·.status = .queued)).map Run.id).Nodup :=
    db.runs.nodup.sublist (List.filter_sublist.map _)
  have hid : runId ∈ (db.runs.select (·.status = .queued)).map Run.id :=
    List.mem_map.mpr ⟨r, List.mem_filter.mpr ⟨hmem, hqueued⟩, hkey⟩
  have hfilter : transitions db db' = ((db.runs.select (·.status = .queued)).map Run.id).filter (· = runId) := by
    apply List.filter_congr
    intro id hid
    obtain ⟨q, hq, rfl⟩ := List.mem_map.mp hid
    obtain ⟨hqmem, hqueued'⟩ := List.mem_filter.mp hq
    by_cases hne : q.id = runId
    · simp [hne, hruns, hr', promoteRow]
    · have hfind : db.runs.find? q.id = some q := Table.find?_eq_some_iff.mpr ⟨hqmem, rfl⟩
      have hstatus : q.status = .queued := by simpa using hqueued'
      rw [hruns, hother q.id hne, hfind]
      simp [hne, hstatus]
  rw [hfilter, List.filter_eq, List.count_eq_one_of_mem hnodup hid, List.replicate_one]

theorem transitions_scheduleStep (h : ScheduleStep p agentId db phase db' phase') :
    transitions db db' = pending phase' := by
  cases h with
  | ends | starts | counts | finds | executes => exact transitions_self db
  | skips hp =>
    obtain ⟨-, rfl⟩ | ⟨hno, -⟩ := promoteQueuedRun_cases hp
    · exact transitions_self db'
    · cases hno
  | promotes hp => exact transitions_promoteQueuedRun hp

end Promotion

section Run

variable {w w' : World} {t t' : Thread} {c : Choice}

theorem performed_self (task : Capacity.Task) (db : Db) : performed task db db = [] := by
  unfold performed
  split
  · exact transitions_self db
  · rfl

theorem performed_taskStep {p : Process} {db db' : Db} {task task' : Capacity.Task}
    (h : TaskStep p db task db' task') : performed task db db' = invoked task' := by
  cases h with
  | admits => rfl
  | activates => rfl
  | acquires => rfl
  | schedules hstep => exact transitions_scheduleStep hstep
  | executes => rfl
  | commits => rfl
  | idles => exact performed_self task db

theorem rejected_some {task task' : Capacity.Task} (h : rejected task = some task') :
    invoked task = [] ∧ invoked task' = [] := by
  cases task with
  | scheduleNext agentId phase => cases phase <;> cases h <;> exact ⟨rfl, rfl⟩
  | _ => cases h

/-- One action of a call: it dispatches what it has promoted before, and promotes what it will
dispatch next. -/
structure Acts (w : World) (t : Thread) (w' : World) (t' : Thread) : Prop where
  process : t'.process = t.process
  processes : w'.processes.length = w.processes.length
  alive : invoked t'.task ≠ [] → t.process < w.processes.length
  executions : t'.executions = t.executions ++ invoked t.task
  promotions : t'.promotions = t.promotions ++ invoked t'.task

theorem act_acts (h : act w t c = some (w', t')) : Acts w t w' t' := by
  unfold act at h
  split at h
  · rename_i task hrejected
    cases h
    split at hrejected
    · obtain ⟨hbefore, hafter⟩ := rejected_some hrejected
      exact ⟨rfl, rfl, by simp [hafter], by simp [hbefore], by simp [hafter]⟩
    · cases hrejected
  · obtain ⟨⟨w₁, t₁⟩, hact, heq⟩ := Option.map_eq_some_iff.mp h
    cases heq
    obtain ⟨p, p', hp, htask, -, hprocs, -⟩ := Capacity.act_cases hact
    refine ⟨rfl, by simp [hprocs], fun _ => (List.getElem?_eq_some_iff.mp hp).1, rfl, ?_⟩
    exact congrArg (t.promotions ++ ·) (performed_taskStep (Capacity.actTask_step htask))

structure Matched (w : World) (t : Thread) : Prop where
  alive : invoked t.task ≠ [] → t.process < w.processes.length
  matched : t.promotions = t.executions ++ invoked t.task

theorem matched_act (h : Matched w t) (hact : act w t c = some (w', t')) : Matched w' t' := by
  have hacts := act_acts hact
  refine ⟨fun hpending => ?_, ?_⟩
  · rw [hacts.process, hacts.processes]
    exact hacts.alive hpending
  · rw [hacts.promotions, hacts.executions, h.matched]

theorem invoked_start {db : Db} {task : Capacity.Task} (h : starts db task = true) : invoked task = [] := by
  cases task with
  | scheduleNext agentId phase => cases phase <;> first | rfl | cases h
  | _ => rfl

theorem matched_step {s s' : State} {e : Pool.Event Thread Choice}
    (h : Pool.Holds (fun _ => True) Matched s) (hs : Pool.step dispatch s e = some s') :
    Pool.Holds (fun _ => True) Matched s' := by
  refine Pool.Holds.step ?_ ?_ h hs
  · intro t _ hstart
    simp only [dispatch, Bool.and_eq_true, decide_eq_true_eq] at hstart
    obtain ⟨⟨hstart, hpromotions⟩, hexecutions⟩ := hstart
    have hinvoked := invoked_start hstart
    exact ⟨by simp [hinvoked], by simp [hinvoked, hpromotions, hexecutions]⟩
  · intro i c t w' t' _ _ _ hmatched hact
    refine ⟨trivial, matched_act hmatched hact, fun u _ hu => ?_⟩
    exact ⟨fun hpending => by rw [(act_acts hact).processes]; exact hu.alive hpending, hu.matched⟩

theorem act_execute {agentId next : String} {max iterations promoted : Nat}
    (hprocess : t.process < w.processes.length)
    (htask : t.task = .scheduleNext agentId (.execute max iterations promoted next)) (c : Choice) :
    ∃ w' t', act w t c = some (w', t') ∧ t'.task = .scheduleNext agentId (.count max iterations (promoted + 1)) ∧
      t'.executions = t.executions ++ [next] ∧ t'.promotions = t.promotions := by
  have hsome : ∃ w' t', act w t c = some (w', t') ∧
      t'.task = .scheduleNext agentId (.count max iterations (promoted + 1)) := by
    simp [act, htask, rejected, Capacity.act, hprocess, actTask, actSchedule]
  obtain ⟨w', t', hact, htask'⟩ := hsome
  have hacts := act_acts hact
  refine ⟨w', t', hact, htask', ?_, ?_⟩
  · rw [hacts.executions, htask]
    rfl
  · rw [hacts.promotions, htask']
    exact List.append_nil _

theorem act_lost {agentId next : String} {max iterations promoted : Nat}
    (htask : t.task = .scheduleNext agentId (.promote max iterations promoted next))
    (hlost : ∀ r, w.db.runs.find? next = some r → r.status ≠ .queued)
    (h : act w t c = some (w', t')) : invoked t'.task = [] := by
  unfold act at h
  split at h
  · rename_i task hrejected
    cases h
    split at hrejected
    · exact (rejected_some hrejected).2
    · cases hrejected
  · obtain ⟨⟨w₁, t₁⟩, hact, heq⟩ := Option.map_eq_some_iff.mp h
    cases heq
    obtain ⟨p, p', -, htask', -, -, -⟩ := Capacity.act_cases hact
    have hstep := Capacity.actTask_step htask'
    dsimp only at hstep ⊢
    rw [htask] at hstep
    generalize t₁.task = task' at hstep ⊢
    generalize w'.db = db' at hstep
    cases hstep with
    | schedules hschedule =>
      cases hschedule with
      | ends => rfl
      | skips => rfl
      | promotes hp =>
        obtain ⟨hno, -⟩ | ⟨-, -, db₁, hcas, -⟩ := promoteQueuedRun_cases hp
        · cases hno
        · obtain ⟨r, hr, hqueued, -, -⟩ := Db.casRun_find? hcas
          exact absurd (of_decide_eq_true hqueued) (hlost r hr)
    | idles => rfl

end Run

/-- Each promotion executes once: the queued rows that a call of `scheduleNext` has made running are
those it has passed to `onExecute`, in order, and at most the one it passes next, which its next
action does whatever the others do.  A run that is no longer queued when the call claims it is not
passed on. -/
theorem promotion_executes_once (world : World) (events : List (Pool.Event Thread Choice)) (s : State)
    (h : run (Pool.step dispatch) ⟨world, []⟩ events = some s) (i : Nat) (t : Thread)
    (hi : s.threads[i]? = some t) (agentId : String) (phase : SchedulePhase)
    (htask : t.task = .scheduleNext agentId phase) :
    t.promotions = t.executions ++ pending phase ∧
    (∀ next ∈ pending phase, ∀ c, ∃ s' t', Pool.step dispatch s (.act i c) = some s' ∧
      s'.threads[i]? = some t' ∧ t'.executions = t.executions ++ [next] ∧
      t'.promotions = t'.executions) ∧
    ∀ max iterations promoted next, phase = .promote max iterations promoted next →
      (∀ r, s.shared.db.runs.find? next = some r → r.status ≠ .queued) →
      ∀ c s', Pool.step dispatch s (.act i c) = some s' → ∃ t', s'.threads[i]? = some t' ∧
        t'.executions = t.executions ∧ t'.promotions = t'.executions := by
  have hholds : Pool.Holds (fun _ => True) Matched s := by
    refine (runs_free_iff.mpr h).invariant (I := Pool.Holds (fun _ => True) Matched)
      (fun s e s' _ hI hs => matched_step hI hs) ?_
    exact ⟨trivial, by simp⟩
  obtain ⟨halive, hmatched⟩ := hholds.2 t (List.mem_of_getElem? hi)
  have hlt := (List.getElem?_eq_some_iff.mp hi).1
  rw [htask] at halive hmatched
  refine ⟨hmatched, ?_, ?_⟩
  · intro next hnext c
    cases phase with
    | execute max iterations promoted next' =>
      cases List.mem_singleton.mp hnext
      have hprocess := halive (by simp [invoked, pending])
      obtain ⟨w', t', hact, -, hexec, hprom⟩ := act_execute hprocess htask c
      refine ⟨⟨w', s.threads.set i t'⟩, t', ?_, by simp [hlt], hexec, ?_⟩
      · simp [Pool.step, hi, dispatch, hact]
      · rw [hprom, hexec, hmatched]
        rfl
    | start | count | oldest | promote | returned => cases hnext
  · rintro max iterations promoted next rfl hlost c s' hs
    obtain ⟨u, hu, hmap⟩ := Option.bind_eq_some_iff.mp hs
    obtain ⟨⟨w', t'⟩, hact, rfl⟩ := Option.map_eq_some_iff.mp hmap
    rw [hi] at hu
    cases hu
    have hacts := act_acts hact
    have hexec : t'.executions = t.executions := by
      rw [hacts.executions, htask]
      exact List.append_nil _
    refine ⟨t', by simp [hlt], hexec, ?_⟩
    rw [hacts.promotions, act_lost htask hlost hact, hexec, hmatched]
    simp [invoked, pending]

def oneQueued : World where
  db := {
    runs := ⟨[{ id := "run_1", status := .queued, initiatorAgentId := some "agent_1" }], by simp⟩
    agents := .single { id := "agent_1", workspaceType := .temp, maxConcurrency := 1 } }
  processes := [{ host := { processInstanceId := "host-1" } },
    { host := { processInstanceId := "host-2" } }]

def tick (i : Nat) : Pool.Event Thread Choice := .act i ⟨⟨1000, false⟩, false⟩

def samePeek : List (Pool.Event Thread Choice) :=
  [.spawn ⟨0, .scheduleNext "agent_1" .start, [], []⟩, tick 0, tick 0, tick 0,
    .spawn ⟨1, .scheduleNext "agent_1" .start, [], []⟩, tick 1, tick 1, tick 1, tick 1]

theorem promotion_executes_once_samePeek : ∃ s t,
    run (Pool.step dispatch) ⟨oneQueued, []⟩ samePeek = some s ∧ s.threads[0]? = some t ∧
    t.executions = [] ∧
    ∀ c s', Pool.step dispatch s (.act 0 c) = some s' → ∃ t', s'.threads[0]? = some t' ∧
      t'.executions = t.executions ∧ t'.promotions = t'.executions := by
  refine ⟨_, _, rfl, rfl, rfl, ?_⟩
  refine (promotion_executes_once oneQueued samePeek _ rfl 0 _ rfl "agent_1" _ rfl).2.2 1 1 0 "run_1"
    rfl ?_
  rintro r hr
  cases hr
  decide

end A2Wave.Dispatch
