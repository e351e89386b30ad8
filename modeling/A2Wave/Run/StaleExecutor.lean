import Mathlib
import A2Wave.Queue.Capacity
import A2Wave.Run.FirstTerminal

/-! An execution whose run was requeued under it.  Its finishers are still in flight, at any
point of their code, while the queue of every process goes on with the run. -/

namespace A2Wave.StaleExecutor

open Transition

inductive Thread
  | queue (t : Capacity.Thread)
  | stale (t : FirstTerminal.Thread)

structure Choice where
  moment : Capacity.Moment
  dbFails : Bool

def Choice.host (c : Choice) (old : Host) : Host := { old with now := c.moment.now }

/-- A finisher of the old execution.  A main transaction that the database fails is caught like
one that threw; a failing recovery is logged and counts as lost. -/
def actStale (runId : String) (old : Host) (db : Db) (t : FirstTerminal.Thread) (c : Choice) :
    Option (Db × FirstTerminal.Thread) :=
  match c.dbFails, t.phase with
  | true, .start => some (db, { t with phase := .recover })
  | true, .recover => some (db, { t with phase := .lost })
  | _, _ => FirstTerminal.act runId db t (c.host old)

def act (runId : String) (old : Host) (w : Capacity.World) (t : Thread) (c : Choice) :
    Option (Capacity.World × Thread) :=
  match t with
  | .queue t => (Capacity.act w t c.moment).map fun (w', t') => (w', .queue t')
  | .stale t =>
    (actStale runId old w.db t c).map fun (db, t') => ({ w with db := db }, .stale t')

def newStep : Capacity.Task → Option String
  | .executeRun _ _ _ step => some step.id
  | .commit op => op.newStep
  | _ => none

/-- A finisher of the old execution is about its step `stepId`; an execution of the queue
generates an id of its own for the step it appends. -/
def belongs (stepId : String) : Thread → Bool
  | .queue t => newStep t.task ≠ some stepId
  | .stale t => t.call.finisher.map Prod.fst = some stepId

def starts (stepId : String) (db : Db) (t : Thread) : Bool :=
  belongs stepId t &&
    match t with
    | .queue t => Capacity.starts db t.task
    | .stale t => FirstTerminal.starts t

def system (runId stepId : String) (old : Host) : Pool.Program Capacity.World Thread Choice where
  start w _ t := starts stepId w.db t
  act := act runId old

abbrev State := Pool Capacity.World Thread

def row (runId : String) (s : State) : Option Run := s.shared.db.runs.find? runId

/-- The next action of thread `i` is the recovery write of a finisher, and the run is running. -/
def RecoversRunning (runId : String) (s : State) (i : Nat) (c : Choice) : Prop :=
  (∃ t, s.threads[i]? = some (.stale t) ∧ t.phase = .recover) ∧ c.dbFails = false ∧
    (row runId s).map Run.status = some .running

section Settled

variable {runId stepId : String} {host old : Host} {db db' : Db}

theorem settled_requeueForResume {code owner : Option String}
    (hstep : ∀ st, db.runSteps.find? stepId = some st → st.runId = runId)
    (h : requeueForResume host db runId code owner = (true, db')) :
    StepSettled stepId db'.runSteps := by
  obtain ⟨hb, -⟩ | ⟨-, db₁, hcas, rfl⟩ := requeueForResume_cases h
  · cases hb
  intro st hst
  simp only [Db.failRunningSteps, Db.updateSteps, runSteps_casRun hcas, Table.find?_updateWhere,
    Option.map_eq_some_iff] at hst
  obtain ⟨st₀, hst₀, rfl⟩ := hst
  split
  · simp
  · rename_i hp
    simpa [hstep st₀ hst₀] using hp

theorem settled_executeRun {agentId : String} {max : Nat} {step : RunStep} {u : Unit}
    (hne : step.id ≠ stepId) (hs : StepSettled stepId db.runSteps)
    (h : Capacity.executeRun host db agentId runId max step = .ok (u, db')) :
    StepSettled stepId db'.runSteps := by
  obtain ⟨db₁, db₂, steps, hres, -, hcas, hins, rfl⟩ := Capacity.executeRun_cases h
  have hchange : StepsChange stepId db₂.runSteps steps :=
    .insert (s := Capacity.executeStep agentId runId step) hne hins
  rw [runSteps_casRun hcas, hres.runSteps] at hchange
  exact hchange.settled hs

theorem settled_actTask {p p' : Capacity.Process} {task task' : Capacity.Task}
    (hnew : newStep task ≠ some stepId) (hs : StepSettled stepId db.runSteps)
    (h : Capacity.actTask p db task = some (db', p', task')) :
    StepSettled stepId db'.runSteps ∧ newStep task' ≠ some stepId := by
  cases Capacity.actTask_step h with
  | admits hadm =>
    rw [admitRun_runSteps hadm]
    exact ⟨hs, hnew⟩
  | activates hact =>
    rw [(activate_onlyActivates hact).runSteps]
    exact ⟨hs, hnew⟩
  | acquires => exact ⟨hs, hnew⟩
  | schedules hstep =>
    refine ⟨?_, hnew⟩
    cases hstep with
    | skips hp | promotes hp =>
      rw [promoteQueuedRun_runSteps hp]
      exact hs
    | ends | starts | counts | finds | executes => exact hs
  | executes hexec =>
    refine ⟨settled_executeRun ?_ hs hexec, by simp [newStep]⟩
    exact fun heq => hnew (congrArg some heq)
  | commits op => exact ⟨(op.stepsChange hnew).settled hs, by simp [newStep]⟩
  | idles => exact ⟨hs, by simp [newStep]⟩

end Settled

section Stale

variable {runId stepId : String} {host old : Host} {db db' : Db} {t t' : FirstTerminal.Thread}

/-- What a finisher does to the run row when its step is settled: nothing, unless it recovers a
running run. -/
structure StaleStep (runId stepId : String) (c : Choice) (db db' : Db)
    (t t' : FirstTerminal.Thread) : Prop where
  call : t'.call = t.call
  settled : StepSettled stepId db'.runSteps
  row : db'.runs.find? runId = db.runs.find? runId ↔ ¬ (t.phase = .recover ∧ c.dbFails = false ∧
      (db.runs.find? runId).map Run.status = some .running)

theorem StaleStep.unchanged {c : Choice} (hcall : t'.call = t.call)
    (hs : StepSettled stepId db.runSteps) (hphase : t.phase ≠ .recover ∨ c.dbFails = true) :
    StaleStep runId stepId c db db t t' := by
  refine ⟨hcall, hs, ?_⟩
  rcases hphase with h | h <;> simp [h]

theorem finish_unchanged {s : Settlement} (hs : StepSettled stepId db.runSteps)
    (h : FirstTerminal.attempt.finish runId host db t stepId s = (db', t')) :
    db' = db ∧ t'.call = t.call := by
  simp only [FirstTerminal.attempt.finish] at h
  split at h
  · rename_i db₁ ht
    obtain ⟨hb, -⟩ := terminalTransition_stale hs ht
    cases hb
  · rename_i db₁ ht
    cases h
    exact ⟨(terminalTransition_stale hs ht).2, rfl⟩
  · cases h
    exact ⟨rfl, rfl⟩

theorem attempt_unchanged (hfin : t.call.finisher.map Prod.fst = some stepId)
    (hs : StepSettled stepId db.runSteps)
    (h : FirstTerminal.attempt runId host db t = (db', t')) : db' = db ∧ t'.call = t.call := by
  unfold FirstTerminal.attempt at h
  split at h
  case h_4 hcall =>
    simp only [hcall, FirstTerminal.Call.finisher, Option.map_some, Option.some.injEq] at hfin
    subst hfin
    exact finish_unchanged hs h
  case h_5 hcall =>
    simp only [hcall, FirstTerminal.Call.finisher, Option.map_some, Option.some.injEq] at hfin
    subst hfin
    exact finish_unchanged hs h
  all_goals
    rename_i hcall
    simp [hcall, FirstTerminal.Call.finisher] at hfin

theorem afterLoss_call (status : Option RunStatus) : (FirstTerminal.afterLoss status t).call = t.call := by
  unfold FirstTerminal.afterLoss
  split
  · split <;> rfl
  · dsimp only
    split <;> rfl

theorem recover_row {c : Choice} (hphase : t.phase = .recover) (hdb : c.dbFails = false)
    {b : Bool} {e : String} (hs : StepSettled stepId db.runSteps) (hcall : t'.call = t.call)
    (h : runLevelRecovery host db runId stepId e = (b, db')) :
    StaleStep runId stepId c db db' t t' := by
  obtain ⟨-, rfl, hrow⟩ | ⟨-, db₁, hcas, rfl⟩ := runLevelRecovery_cases h
  · refine ⟨hcall, hs, ?_⟩
    simpa [hphase, hdb] using hrow
  · obtain ⟨r, hr, hrun, hnew, -⟩ := Db.casRun_find? hcas
    have hsteps : StepsChange stepId db₁.runSteps (db₁.updateSteps
        (fun s => s.id = stepId && s.status = .running)
        (fun s => { s with status := .failed, output := some (errorResult (.str e)) })
        (fun _ => rfl)).runSteps := by
      refine stepsChange_updateSteps fun s hs => ?_
      simpa using (Bool.and_eq_true_iff.mp hs).2
    rw [runSteps_casRun hcas] at hsteps
    refine ⟨hcall, hsteps.settled hs, ?_⟩
    have hstatus : r.status = .running := by simpa using hrun
    simp only [Db.runs_updateSteps, hnew, hr, Option.some.injEq, hphase, hdb, Option.map_some,
      hstatus, and_self, not_true_eq_false, iff_false]
    intro heq
    rw [← heq] at hstatus
    cases hstatus

theorem act_stale {c : Choice} (hdb : t.phase = .recover → c.dbFails = false)
    (hfin : t.call.finisher.map Prod.fst = some stepId) (hs : StepSettled stepId db.runSteps)
    (h : FirstTerminal.act runId db t host = some (db', t')) :
    StaleStep runId stepId c db db' t t' := by
  unfold FirstTerminal.act at h
  split at h
  case h_1 hphase =>
    obtain ⟨rfl, hcall⟩ := attempt_unchanged hfin hs (Option.some.inj h)
    exact .unchanged hcall hs (.inl (by simp [hphase]))
  case h_2 hphase =>
    obtain ⟨⟨k, s, e⟩, hf, h'⟩ := Option.map_eq_some_iff.mp h
    obtain rfl : k = stepId := by simpa [hf] using hfin
    dsimp only at h'
    split at h'
    · rename_i db₁ hrec
      cases h'
      exact recover_row hphase (hdb hphase) hs rfl hrec
    · rename_i db₁ hrec
      cases h'
      exact recover_row hphase (hdb hphase) hs rfl hrec
  case h_3 hphase =>
    cases h
    exact .unchanged (afterLoss_call _) hs (.inl (by simp [hphase]))
  case h_4 hphase =>
    obtain ⟨⟨k, s, e⟩, hf, h'⟩ := Option.map_eq_some_iff.mp h
    cases h'
    have hsteps : StepsChange stepId db.runSteps ((Op.cancelLateStep k).commit host db).runSteps :=
      Op.stepsChange (.cancelLateStep k) (by simp [Op.newStep])
    exact ⟨rfl, hsteps.settled hs, by simp [cancelLateStep, hphase]⟩
  case h_5 hphase => cases h

theorem actStale_step {c : Choice} (hfin : t.call.finisher.map Prod.fst = some stepId)
    (hs : StepSettled stepId db.runSteps) (h : actStale runId old db t c = some (db', t')) :
    StaleStep runId stepId c db db' t t' := by
  unfold actStale at h
  split at h
  · rename_i hdb hphase
    cases h
    exact .unchanged rfl hs (.inr hdb)
  · rename_i hdb hphase
    cases h
    exact .unchanged rfl hs (.inr hdb)
  · rename_i hne
    refine act_stale ?_ hfin hs h
    intro hphase
    cases hdb : c.dbFails with
    | false => rfl
    | true => exact absurd hphase (hne hdb)

end Stale

section Run

variable {runId stepId : String} {old : Host} {s s' : State}

abbrev Inv (stepId : String) : State → Prop :=
  Pool.Holds (fun w => StepSettled stepId w.db.runSteps) (fun _ t => belongs stepId t = true)

theorem inv_step {e : Pool.Event Thread Choice} (h : Inv stepId s)
    (hs : Pool.step (system runId stepId old) s e = some s') : Inv stepId s' := by
  refine Pool.Holds.step ?_ ?_ h hs
  · intro t _ hstart
    exact (Bool.and_eq_true_iff.mp hstart).1
  · rintro i c t w' t' rfl hi hsettled hL ha
    cases t with
    | queue t =>
      obtain ⟨⟨w₁, t₁⟩, hact, heq⟩ := Option.map_eq_some_iff.mp ha
      cases heq
      obtain ⟨p, hp, h'⟩ := Option.bind_eq_some_iff.mp hact
      obtain ⟨⟨db', p', task'⟩, htask, heq⟩ := Option.map_eq_some_iff.mp h'
      cases heq
      have hnew : newStep t.task ≠ some stepId := by simpa [belongs] using hL
      obtain ⟨hs', hnew'⟩ := settled_actTask hnew hsettled htask
      exact ⟨hs', by simpa [belongs] using hnew', fun _ _ hu => hu⟩
    | stale t =>
      obtain ⟨⟨db', t₁⟩, hact, heq⟩ := Option.map_eq_some_iff.mp ha
      cases heq
      have hfin : t.call.finisher.map Prod.fst = some stepId := by simpa [belongs] using hL
      have hstale := actStale_step hfin hsettled hact
      exact ⟨hstale.settled, by simpa [belongs, hstale.call] using hfin, fun _ _ hu => hu⟩

theorem row_step {i : Nat} {c : Choice} {t : FirstTerminal.Thread} (h : Inv stepId s)
    (ht : s.threads[i]? = some (.stale t))
    (hs : Pool.step (system runId stepId old) s (.act i c) = some s') :
    row runId s' = row runId s ↔ ¬ RecoversRunning runId s i c := by
  obtain ⟨_, he, -⟩ | ⟨i', c', t', w', t₁, he, hi, ha, rfl⟩ := Pool.step_cases hs
  · cases he
  cases he
  obtain rfl : Thread.stale t = t' := Option.some.inj (ht.symm.trans hi)
  obtain ⟨⟨db', t₂⟩, hact, heq⟩ := Option.map_eq_some_iff.mp ha
  cases heq
  have hfin : t.call.finisher.map Prod.fst = some stepId := by
    simpa [belongs] using h.2 _ (List.mem_of_getElem? hi)
  simpa [row, RecoversRunning, hi] using (actStale_step hfin h.1 hact).row

end Run

/-- After a requeue, and whatever else the processes do, the finishers of the old execution
leave the run row as it is, except that a recovery write fails the run that is running then. -/
theorem stale_leaves_row_iff {runId stepId : String} {host old : Host} {db db' : Db}
    {code owner : Option String}
    (hstep : ∀ st, db.runSteps.find? stepId = some st → st.runId = runId)
    (hreq : requeueForResume host db runId code owner = (true, db'))
    {processes : List Capacity.Process} {threads : List Thread}
    (hthreads : ∀ t ∈ threads, belongs stepId t = true)
    {pre : List (Pool.Event Thread Choice)} {i : Nat} {c : Choice} {a b : State}
    (ha : run (Pool.step (system runId stepId old)) ⟨⟨db', processes⟩, threads⟩ pre = some a)
    {t : FirstTerminal.Thread} (ht : a.threads[i]? = some (.stale t))
    (hb : Pool.step (system runId stepId old) a (.act i c) = some b) :
    row runId b = row runId a ↔ ¬ RecoversRunning runId a i c := by
  have hinit : Inv stepId ⟨⟨db', processes⟩, threads⟩ :=
    ⟨settled_requeueForResume hstep hreq, hthreads⟩
  have hinv : Inv stepId a :=
    (runs_free_iff.mpr ha).invariant (fun _ _ _ _ hI hs => inv_step hI hs) hinit
  exact row_step hinv ht hb

def interrupted : Db where
  runs := ⟨[{ id := "run_1", status := .running, initiatorAgentId := some "agent_1"
              ownerInstanceId := some "host-a" }], by simp⟩
  runSteps := ⟨[{ id := "step_1", runId := "run_1", order := 1, status := .running }], by simp⟩
  agents := .single { id := "agent_1", workspaceType := .temp, maxConcurrency := 1 }

def hostA : Host := { processInstanceId := "host-a" }

def hostB : Host := { processInstanceId := "host-b" }

def requeued : Db :=
  (requeueForResume hostB interrupted "run_1" (some "INSTANCE_STOPPED_DURING_EXEC")
    (some "host-a")).2

/-- The success that the old execution is about to store, the queue of `host-b`, and the
preparation of the new execution there. -/
def contenders : List Thread :=
  [.stale { call := .finishRunSuccess "step_1" none { success := true, output := "late" } {} },
    .queue ⟨0, .scheduleNext "agent_1" .start⟩,
    .queue ⟨0, .commit (.prepareExecution { id := "run_1", status := .running }
      { id := "step_2", runId := "run_1", order := 1, status := .running })⟩]

def afterRequeue : State := ⟨⟨requeued, [{ host := hostB }]⟩, contenders⟩

def at10 : Choice := ⟨⟨10, false⟩, false⟩

def reowned : List (Pool.Event Thread Choice) :=
  [.act 1 at10, .act 1 at10, .act 1 at10, .act 1 at10, .act 2 at10]

theorem stale_leaves_row_iff_main_transaction :
    ∃ a b : State, run (Pool.step (system "run_1" "step_1" hostA)) afterRequeue reowned = some a ∧
      Pool.step (system "run_1" "step_1" hostA) a (.act 0 at10) = some b ∧
      (row "run_1" a).map (fun r => (r.status, r.ownerInstanceId)) = some (.running, some "host-b") ∧
      row "run_1" b = row "run_1" a := by
  have h : ∃ (a b : State) (t : FirstTerminal.Thread),
      run (Pool.step (system "run_1" "step_1" hostA)) afterRequeue reowned = some a ∧
      a.threads[0]? = some (.stale t) ∧ t.phase = .start ∧
      Pool.step (system "run_1" "step_1" hostA) a (.act 0 at10) = some b ∧
      (row "run_1" a).map (fun r => (r.status, r.ownerInstanceId)) = some (.running, some "host-b") := by
    exact ⟨_, _, _, rfl, rfl, rfl, rfl, by decide⟩
  obtain ⟨a, b, t, ha, ht, hphase, hb, hrow⟩ := h
  refine ⟨a, b, ha, hb, hrow, ?_⟩
  have hreq : requeueForResume hostB interrupted "run_1" (some "INSTANCE_STOPPED_DURING_EXEC")
      (some "host-a") = (true, requeued) := rfl
  have hiff := stale_leaves_row_iff (by decide) hreq (by decide) ha ht hb
  refine hiff.mpr ?_
  rintro ⟨⟨t', ht', hphase'⟩, -⟩
  obtain rfl : t = t' := by simpa [ht] using ht'
  rw [hphase] at hphase'
  cases hphase'

theorem stale_recovery_fails_reowned_run : ∃ a b : State,
      run (Pool.step (system "run_1" "step_1" hostA)) afterRequeue (reowned ++ [.act 0 at10]) = some a ∧
      Pool.step (system "run_1" "step_1" hostA) a (.act 0 at10) = some b ∧
      (row "run_1" a).map (fun r => (r.status, r.ownerInstanceId, r.result)) = some (.running, some "host-b", none) ∧
      (row "run_1" b).map (fun r => (r.status, r.ownerInstanceId, r.result)) =
        some (.failed, some "host-b", some (errorResult (.str (lostOwnership "step_1")))) ∧
      (b.shared.db.runSteps.find? "step_2").map RunStep.status = some .running := by
  exact ⟨_, _, rfl, rfl, by decide, by decide, by decide⟩

end A2Wave.StaleExecutor
