import Mathlib
import A2Wave.Scm.Arbitration
import A2Wave.Scm.Reconciler

/-! Removals of an agent's own worktree against the runs that get it by default.  Both the guarded
removal and the reconciler decide on the recorded directories and the leases; a run without a name
of its own is admitted beside a reservation, and records its directory without looking for one. -/

namespace A2Wave.Reconciler

open Transition Occupancy Checkout

def Task.pastCheck : Task → Option RemovalTarget
  | removal r (.removing _) => some r.target
  | reconcile (.locate candidate _ _) | reconcile (.removing candidate _ _) => some candidate.target
  | _ => none

section Definitions

variable (defaultWorkspacesPath : String → String)

/-- A leased run gets its agent's worktree only while no removal of it is past its check and the
run's row has it as its directory, and the row is not rewritten while the run has the worktree. -/
def resolvesApart (s : State) : Pool.Event Thread Choice → Bool
  | .spawn _ => true
  | .act i _ => s.threads[i]?.all fun t => match t.task with
    | .resolveDefault call (.recorded dir) =>
      !leasedOn s.shared.world.db call.runId call.scmSourceId ||
        (workDirOf s.shared.world.db call.runId = some dir &&
          s.threads.all fun u => u.task.pastCheck ≠ some call.target)
    | .resolveDefault call (.record wsPath _) => s.shared.handed.all fun d =>
      d.runId ≠ call.runId ||
        worktreePath defaultWorkspacesPath s.shared.world.db d.target = some wsPath
    | _ => true

/-- A task that `starts` has let in, at any of its later steps. -/
def Lawful (db : Db) : Task → Prop
  | .queue task => ∀ op, task = .commit op → concurrent op = true
  | .removal r _ => sourcePaths defaultWorkspacesPath db r.target.scmSourceId = some r.scm ∧
    (r.ownedWorkload = none ∨ isPerAgentWorkspaceName r.target.workspaceName = false)
  | .resolveDefault call _ => isPerAgentWorkspaceName call.target.workspaceName = true
  | _ => True

structure Occupied (db : Db) (d : Handed) : Prop where
  leased : leasedOn db d.runId d.target.scmSourceId = true
  perAgent : isPerAgentWorkspaceName d.target.workspaceName = true
  recorded : ∃ dir, worktreePath defaultWorkspacesPath db d.target = some dir ∧ workDirOf db d.runId = some dir

def AllOccupied (s : Shared) : Prop :=
  ∀ d ∈ s.handed, Occupied defaultWorkspacesPath s.world.db d

def Apart (s : Shared) (t : Thread) : Prop :=
  Lawful defaultWorkspacesPath s.world.db t.task ∧
    ∀ target, t.task.pastCheck = some target → ∀ d ∈ s.handed, d.target ≠ target

end Definitions

section Check

variable {defaultWorkspacesPath : String → String} {db : Db} {d : Handed}

theorem Occupied.run (h : Occupied defaultWorkspacesPath db d) :
    ∃ run ∈ db.runs.rows, run.id = d.runId ∧ run.workDir.isSome = true ∧
      run.workDir = worktreePath defaultWorkspacesPath db d.target := by
  obtain ⟨dir, hpath, hdir⟩ := h.recorded
  obtain ⟨run, hrun, hwork⟩ := Option.bind_eq_some_iff.mp hdir
  obtain ⟨hmem, hid⟩ := Table.find?_eq_some_iff.mp hrun
  exact ⟨run, hmem, hid, by rw [hwork]; rfl, by rw [hwork, hpath]⟩

theorem Occupied.occupies (h : Occupied defaultWorkspacesPath db d) :
    occupies defaultWorkspacesPath db d.runId d.target = true := by
  obtain ⟨dir, hpath, hdir⟩ := h.recorded
  obtain ⟨run, hrun, hwork⟩ := Option.bind_eq_some_iff.mp hdir
  simp [Occupancy.occupies, hrun, hwork, hpath, h.leased]

theorem checkRemoval_apart {host : Host} {r : GuardedRemoval}
    (hscm : sourcePaths defaultWorkspacesPath db r.target.scmSourceId = some r.scm)
    (hown : r.ownedWorkload = none ∨ isPerAgentWorkspaceName r.target.workspaceName = false)
    (hcheck : checkRemoval defaultWorkspacesPath host db r = .ok ())
    (hd : Occupied defaultWorkspacesPath db d) : d.target ≠ r.target := by
  intro htarget
  have hexcludes : r.excludes d.runId = true :=
    excludes_of_occupies hscm hcheck (by rw [← htarget]; exact hd.occupies)
  rcases hown with hnone | hname
  · simp [GuardedRemoval.excludes, hnone] at hexcludes
  · have hperAgent := hd.perAgent
    rw [htarget, hname] at hperAgent
    cases hperAgent

theorem findBlocker_apart {target : RemovalTarget}
    (h : findBlocker defaultWorkspacesPath db target = none)
    (hd : Occupied defaultWorkspacesPath db d) : d.target ≠ target := by
  intro htarget
  subst htarget
  unfold findBlocker at h
  split at h
  · cases h
  rename_i source hsource
  split at h
  · cases h
  obtain ⟨run, hrun, hid, -, hdir⟩ := hd.run
  have hpath : run.workDir = some (joinPath (source.paths defaultWorkspacesPath).wsRoot d.target.workspaceName) := by
    rw [hdir, worktreePath, hsource, Option.map_some]
  -- no workload is excluded, so nobody may occupy the worktree
  have hexcluded := findWorkspaceRemovalBlocker_none h hrun hpath
    (.inr (by rw [hid]; exact hd.leased))
  cases hexcluded

theorem actRemoval_removing {host : Host} {c : Exclusion.Choice} {db' : Db} {r : GuardedRemoval}
    {phase : Exclusion.RemovalPhase} {attempt : Nat}
    (h : Exclusion.actRemoval defaultWorkspacesPath host c db r phase = some (db', .removing attempt)) :
    checkRemoval defaultWorkspacesPath host db r = .ok () := by
  have hafter : ∀ n blocked, .removing attempt ≠ Exclusion.afterFailure r n blocked := by
    intro n blocked heq
    rcases Exclusion.afterFailure_cases r n blocked with hf | hf | hf <;>
      rw [hf] at heq <;> cases heq
  cases Exclusion.actRemoval_step h with
  | checks hcheck => exact hcheck
  | checkFails heq | removalFails heq => exact absurd heq (hafter _ _)
  | retries hphase => rcases hphase with hphase | hphase <;> cases hphase

end Check

section Frame

variable {defaultWorkspacesPath : String → String} {s : Shared} {t : Thread} {c : Choice}
  {world : Capacity.World} {task' : Task}

structure Keeps (defaultWorkspacesPath : String → String) (db db' : Db) : Prop where
  paths : ∀ sourceId, sourcePaths defaultWorkspacesPath db' sourceId = sourcePaths defaultWorkspacesPath db sourceId
  workDirs : ∀ runId, workDirOf db' runId = workDirOf db runId

theorem keeps_refl (db : Db) : Keeps defaultWorkspacesPath db db := ⟨fun _ => rfl, fun _ => rfl⟩

theorem keeps_removals (db : Db) (removals : Table ScmWorkspaceRemoval) :
    Keeps defaultWorkspacesPath db { db with scmWorkspaceRemovals := removals } :=
  ⟨fun _ => rfl, fun _ => rfl⟩

variable {db db' : Db}

theorem keeps_actRemoval {host : Host} {choice : Exclusion.Choice}
    {r : GuardedRemoval} {phase phase' : Exclusion.RemovalPhase}
    (h : Exclusion.actRemoval defaultWorkspacesPath host choice db r phase = some (db', phase')) :
    Keeps defaultWorkspacesPath db db' := by
  obtain ⟨-, hres⟩ | ⟨rfl, -⟩ | ⟨-, rfl | rfl⟩ := Exclusion.actRemoval_cases h
  · obtain ⟨-, removals, -, rfl⟩ := reserveRemoval_ok hres
    exact keeps_removals db removals
  · exact keeps_refl _
  · exact keeps_removals db _
  · exact keeps_removals db _

theorem keeps_adopt {host : Host} {heartbeats : Table InstanceHeartbeat}
    {target : RemovalTarget} {expected next : String} {b : Bool}
    (h : adopt host heartbeats db target expected next = (b, db')) :
    Keeps defaultWorkspacesPath db db' := by
  unfold adopt at h
  split at h
  · cases h
    exact keeps_refl _
  split at h
  · cases h
    exact keeps_refl _
  split at h
  · cases h
    exact keeps_refl _
  · cases h
    exact keeps_removals db _

theorem keeps_reconcile {host : Host} {heartbeats : Table InstanceHeartbeat}
    {phase phase' : Phase}
    (h : reconcileAbandonedWorkspaceRemovals defaultWorkspacesPath host heartbeats c db phase =
      some (db', phase')) : Keeps defaultWorkspacesPath db db' := by
  cases reconcile_step h with
  | adopts hadopt => exact keeps_adopt hadopt
  | releases => exact keeps_removals db _
  | handsOff hdb =>
    rcases hdb with rfl | rfl
    · exact keeps_refl _
    · exact keeps_removals db _
  | _ => exact keeps_refl _

theorem keeps_queue {task : Capacity.Task} {t₁ : Capacity.Thread} {moment : Capacity.Moment}
    {n : Nat} {w : Capacity.World} (hop : ∀ op, task = .commit op → concurrent op = true)
    (h : Capacity.act w ⟨n, task⟩ moment = some (world, t₁)) :
    Keeps defaultWorkspacesPath w.db world.db := by
  obtain ⟨p, p', -, hact, -, -, -⟩ := Capacity.act_cases h
  exact ⟨(sameScm_actTask hact).2 _, (arbitrated_actTask hop hact).workDirs⟩

theorem actTask_ne_commit {p p' : Capacity.Process} {task task₁ : Capacity.Task}
    (h : Capacity.actTask p db task = some (db', p', task₁)) (op : Op) : task₁ ≠ .commit op := by
  cases Capacity.actTask_step h <;> simp

theorem actTask_keeps (hlawful : Lawful defaultWorkspacesPath s.world.db t.task)
    (h : actTask defaultWorkspacesPath s t c = some (world, task')) :
    Keeps defaultWorkspacesPath s.world.db world.db ∨
    ∃ call wsPath attempt, t.task = .resolveDefault call (.record wsPath attempt) ∧
      world.db = s.world.db.setWorkDir call.runId (some wsPath) := by
  cases actTask_step h with
  | removal _ _ _ hact => exact .inl (keeps_actRemoval hact)
  | reconcile _ _ hact => exact .inl (keeps_reconcile hact)
  | queue htask hact =>
    rw [htask] at hlawful
    exact .inl (keeps_queue hlawful hact)
  | resolveDefault htask hact =>
    obtain rfl | ⟨wsPath, attempt, rfl, -, rfl⟩ := actDefault_cases hact
    · exact .inl (keeps_refl _)
    · exact .inr ⟨_, wsPath, attempt, htask, rfl⟩
  | releaseSource => exact .inl (keeps_removals _ _)

theorem actTask_paths (hlawful : Lawful defaultWorkspacesPath s.world.db t.task)
    (h : actTask defaultWorkspacesPath s t c = some (world, task')) (sourceId : String) :
    sourcePaths defaultWorkspacesPath world.db sourceId = sourcePaths defaultWorkspacesPath s.world.db sourceId := by
  obtain hkeeps | ⟨call, wsPath, attempt, -, hdb⟩ := actTask_keeps hlawful h
  · exact hkeeps.paths sourceId
  · rw [hdb]
    exact (sameScm_setWorkDir _ _ _).2 _ sourceId

theorem Lawful.congr {task : Task}
    (hpaths : ∀ sourceId, sourcePaths defaultWorkspacesPath db' sourceId =
      sourcePaths defaultWorkspacesPath db sourceId)
    (h : Lawful defaultWorkspacesPath db task) : Lawful defaultWorkspacesPath db' task := by
  cases task with
  | removal r phase => exact ⟨(hpaths _).trans h.1, h.2⟩
  | _ => exact h

theorem actTask_lawful (hlawful : Lawful defaultWorkspacesPath s.world.db t.task)
    (h : actTask defaultWorkspacesPath s t c = some (world, task')) :
    Lawful defaultWorkspacesPath world.db task' := by
  refine Lawful.congr (actTask_paths hlawful h) ?_
  cases actTask_step h with
  | removal htask _ hr' =>
    rw [htask] at hlawful
    rw [hr']
    split <;> exact hlawful
  | reconcile => trivial
  | queue _ hact =>
    obtain ⟨p, p', -, hstep, -, -, -⟩ := Capacity.act_cases hact
    exact fun op hop => absurd hop (actTask_ne_commit hstep op)
  | resolveDefault htask =>
    rw [htask] at hlawful
    exact hlawful
  | releaseSource => trivial

theorem actTask_pastCheck {target : RemovalTarget}
    (hlawful : Lawful defaultWorkspacesPath s.world.db t.task)
    (h : actTask defaultWorkspacesPath s t c = some (world, task'))
    (hpast : task'.pastCheck = some target) :
    t.task.pastCheck = some target ∨ ∀ d, Occupied defaultWorkspacesPath s.world.db d → d.target ≠ target := by
  cases actTask_step h with
  | @removal r r' phase p db phase' htask hp hr' hact =>
    rw [htask] at hlawful
    cases phase' with
    | removing attempt =>
      cases hpast
      right
      intro d hd
      have hcheck := actRemoval_removing hact
      have hsame : r'.target = r.target ∧ r'.scm = r.scm ∧ r'.ownedWorkload = r.ownedWorkload := by
        rw [hr']
        split <;> exact ⟨rfl, rfl, rfl⟩
      refine checkRemoval_apart ?_ ?_ hcheck hd
      · rw [hsame.1, hsame.2.1]
        exact hlawful.1
      · rw [hsame.1, hsame.2.2]
        exact hlawful.2
    | _ => cases hpast
  | reconcile htask _ hact =>
    rw [htask]
    cases reconcile_step hact with
    | unblocked hnone =>
      cases hpast
      exact .inr fun d hd => findBlocker_apart hnone hd
    | locates => exact .inl hpast
    | _ => cases hpast
  | queue | resolveDefault | releaseSource => cases hpast

end Frame

section Steps

variable {defaultWorkspacesPath : String → String} {s s' : State} {e : Pool.Event Thread Choice}

variable {sh : Shared}

theorem starts_lawful {task : Task}
    (h : starts defaultWorkspacesPath sh task = true) :
    Lawful defaultWorkspacesPath sh.world.db task := by
  cases task with
  | removal r phase =>
    simp only [starts, Bool.and_eq_true, decide_eq_true_eq, Bool.or_eq_true, Bool.not_eq_true',
      Option.isNone_iff_eq_none] at h
    exact ⟨h.1.2, h.2⟩
  | queue task =>
    intro op hop
    subst hop
    exact h
  | resolveDefault call phase =>
    simp only [starts, Bool.and_eq_true] at h
    exact h.2
  | _ => trivial

theorem starts_pastCheck {task : Task}
    (h : starts defaultWorkspacesPath sh task = true) : task.pastCheck = none := by
  cases task with
  | removal r phase =>
    rw [(starts_phase h).1 r phase rfl]
    rfl
  | reconcile phase =>
    rw [(starts_phase h).2 phase rfl]
    rfl
  | _ => rfl

variable {c : Choice} {world : Capacity.World}

theorem mem_handed {t t' : Thread} {d : Handed}
    (h : d ∈ (sh.commit defaultWorkspacesPath c t world t').handed) :
    leasedOn world.db d.runId d.target.scmSourceId = true ∧
      (d ∈ sh.handed ∨ ∃ call dir, t.task = .resolveDefault call (.recorded dir) ∧
        worktreePath defaultWorkspacesPath world.db call.target = some dir ∧
        d = ⟨call.runId, call.target⟩) := by
  obtain ⟨hmem, hleased⟩ := List.mem_filter.mp h
  refine ⟨hleased, ?_⟩
  rcases List.mem_append.mp hmem with hnew | hold
  · right
    unfold newlyHanded at hnew
    split at hnew
    · rename_i call dir htask
      split at hnew
      · rename_i hpath
        exact ⟨call, dir, htask, hpath, List.mem_singleton.mp hnew⟩
      · cases hnew
    · cases hnew
  · exact .inl hold

variable {call : DefaultCall}

theorem resolvesApart_recorded {i : Nat} {t : Thread} {dir : String}
    (hok : resolvesApart defaultWorkspacesPath s (.act i c) = true) (hi : s.threads[i]? = some t)
    (htask : t.task = .resolveDefault call (.recorded dir))
    (hleased : leasedOn s.shared.world.db call.runId call.scmSourceId = true) :
    workDirOf s.shared.world.db call.runId = some dir ∧ ∀ u ∈ s.threads, u.task.pastCheck ≠ some call.target := by
  simp only [resolvesApart, hi, Option.all_some, htask, hleased, Bool.not_true, Bool.false_or,
    Bool.and_eq_true, decide_eq_true_eq, List.all_eq_true] at hok
  exact hok

theorem resolvesApart_record {i : Nat} {t : Thread}
    {wsPath : String} {attempt : Nat} {d : Handed}
    (hok : resolvesApart defaultWorkspacesPath s (.act i c) = true) (hi : s.threads[i]? = some t)
    (htask : t.task = .resolveDefault call (.record wsPath attempt)) (hd : d ∈ s.shared.handed)
    (hrun : d.runId = call.runId) :
    worktreePath defaultWorkspacesPath s.shared.world.db d.target = some wsPath := by
  simp only [resolvesApart, hi, Option.all_some, htask, List.all_eq_true] at hok
  simpa [hrun] using hok d hd

theorem actTask_recorded {t : Thread} {dir : String}
    {task' : Task} (htask : t.task = .resolveDefault call (.recorded dir))
    (h : actTask defaultWorkspacesPath sh t c = some (world, task')) :
    world.db = sh.world.db ∧ task'.pastCheck = none := by
  cases actTask_step h with
  | resolveDefault hkind hact =>
    rw [htask] at hkind
    cases hkind
    cases hact
    exact ⟨rfl, rfl⟩
  | queue hkind | removal hkind | reconcile hkind | releaseSource hkind =>
    rw [htask] at hkind
    cases hkind

theorem Occupied.step {i : Nat} {t : Thread} {task' : Task}
    {d : Handed} (hok : resolvesApart defaultWorkspacesPath s (.act i c) = true)
    (hi : s.threads[i]? = some t)
    (hlawful : Lawful defaultWorkspacesPath s.shared.world.db t.task)
    (hact : actTask defaultWorkspacesPath s.shared t c = some (world, task'))
    (hd : d ∈ s.shared.handed) (h : Occupied defaultWorkspacesPath s.shared.world.db d)
    (hleased : leasedOn world.db d.runId d.target.scmSourceId = true) :
    Occupied defaultWorkspacesPath world.db d := by
  refine ⟨hleased, h.perAgent, ?_⟩
  obtain ⟨dir, hpath, hdir⟩ := h.recorded
  have hpath' : worktreePath defaultWorkspacesPath world.db d.target =
      worktreePath defaultWorkspacesPath s.shared.world.db d.target := by
    rw [worktreePath_eq, worktreePath_eq, actTask_paths hlawful hact]
  rw [hpath']
  obtain hkeeps | ⟨call, wsPath, attempt, htask, hdb⟩ := actTask_keeps hlawful hact
  · exact ⟨dir, hpath, by rw [hkeeps.workDirs, hdir]⟩
  · rw [hdb]
    rcases workDirOf_setWorkDir s.shared.world.db call.runId (some wsPath) d.runId with
      hsame | ⟨hrun, hdir'⟩
    · exact ⟨dir, hpath, hsame.trans hdir⟩
    · exact ⟨wsPath, resolvesApart_record hok hi htask hd hrun, hdir'⟩

theorem holds_act {i : Nat} {t t' : Thread}
    (hok : resolvesApart defaultWorkspacesPath s (.act i c) = true) (hi : s.threads[i]? = some t)
    (hG : AllOccupied defaultWorkspacesPath s.shared) (hL : Apart defaultWorkspacesPath s.shared t)
    (hact : act defaultWorkspacesPath s.shared t c = some (sh, t')) :
    AllOccupied defaultWorkspacesPath sh ∧ Apart defaultWorkspacesPath sh t' ∧
      ∀ u ∈ s.threads, Apart defaultWorkspacesPath s.shared u → Apart defaultWorkspacesPath sh u := by
  obtain ⟨heartbeats, -, rfl, rfl⟩ | ⟨-, rfl, rfl⟩ | ⟨world, htask, -, rfl, -⟩ := act_cases hact
  · exact ⟨hG, ⟨trivial, fun _ hpast => (by cases hpast)⟩, fun u _ hu => hu⟩
  · exact ⟨hG, ⟨trivial, fun _ hpast => (by cases hpast)⟩, fun u _ hu => hu⟩
  have hlawful := hL.1
  -- a removal that is past its check is not one of a worktree that is returned now
  have hold : ∀ target, (∃ u ∈ s.threads, u.task.pastCheck = some target) →
      ∀ d ∈ (s.shared.commit defaultWorkspacesPath c t world t').handed, d.target = target → d ∈ s.shared.handed := by
    rintro target ⟨u, hu, hpast⟩ d hd htarget
    obtain ⟨hleased, hmem | ⟨call, dir, hrecorded, -, rfl⟩⟩ := mem_handed hd
    · exact hmem
    · rw [(actTask_recorded hrecorded htask).1] at hleased
      obtain ⟨-, hclear⟩ := resolvesApart_recorded hok hi hrecorded hleased
      subst htarget
      exact absurd hpast (hclear u hu)
  refine ⟨fun d hd => ?_, ⟨actTask_lawful hlawful htask, fun target hpast d hd htarget => ?_⟩,
    fun u hu hapart => ⟨hapart.1.congr (actTask_paths hlawful htask), ?_⟩⟩
  · obtain ⟨hleased, hmem | ⟨call, dir, hrecorded, hpath, rfl⟩⟩ := mem_handed hd
    · exact (hG d hmem).step hok hi hlawful htask hmem hleased
    · rw [hrecorded] at hlawful
      refine ⟨hleased, hlawful, dir, hpath, ?_⟩
      have hdb := (actTask_recorded hrecorded htask).1
      change workDirOf world.db call.runId = some dir
      rw [hdb] at hleased ⊢
      exact (resolvesApart_recorded hok hi hrecorded hleased).1
  · rcases actTask_pastCheck hlawful htask hpast with hbefore | hchecked
    · have hmem := hold target ⟨t, List.mem_of_getElem? hi, hbefore⟩ d hd htarget
      exact hL.2 target hbefore d hmem htarget
    · obtain ⟨-, hmem | ⟨call, dir, hrecorded, -, -⟩⟩ := mem_handed hd
      · exact hchecked d (hG d hmem) htarget
      · -- the call that returns a worktree is not a removal
        rw [(actTask_recorded hrecorded htask).2] at hpast
        cases hpast
  · intro target hpast d hd htarget
    exact hapart.2 target hpast d (hold target ⟨u, hu, hpast⟩ d hd htarget) htarget

theorem pastCheck_of_removing {task : Task} {target : RemovalTarget} {token : String}
    (h : task.removing = some (target, token)) : task.pastCheck = some target := by
  cases task with
  | removal r phase | reconcile phase =>
    cases phase <;> cases h
    rfl
  | _ => cases h

end Steps

/-- As long as a leased run gets its agent's worktree only while no removal of it is past its check,
and keeps it as its recorded directory, no removal executes on a worktree that a leased run has. -/
theorem removal_spares_leased_worktree (defaultWorkspacesPath : String → String)
    (world : Capacity.World) (heartbeats : Table InstanceHeartbeat) (issued : List String)
    (fenced : List Nat) (events : List (Pool.Event Thread Choice)) (s : State)
    (h : Runs (Pool.step (system defaultWorkspacesPath))
      (fun s e => resolvesApart defaultWorkspacesPath s e = true)
      ⟨{ world := world, heartbeats := heartbeats, issued := issued, fenced := fenced }, []⟩
      events s) :
    ∀ t ∈ s.threads, ∀ target token, t.task.removing = some (target, token) →
      ∀ d ∈ s.shared.handed, d.target ≠ target := by
  have hinv : Pool.Holds (AllOccupied defaultWorkspacesPath) (Apart defaultWorkspacesPath) s := by
    refine h.invariant (fun s e s' hok hI hs => ?_) ⟨by simp [AllOccupied], by simp⟩
    refine Pool.Holds.step (fun t _ hstart => ?_) (fun i c t sh t' he hi hG hL hact => ?_) hI hs
    · simp only [system, Bool.and_eq_true] at hstart
      refine ⟨starts_lawful hstart.1, fun target hpast => ?_⟩
      rw [starts_pastCheck hstart.1] at hpast
      cases hpast
    · subst he
      exact holds_act hok hi hG hL hact
  intro t ht target token hremoving
  exact (hinv.2 t ht).2 target (pastCheck_of_removing hremoving)

def ownAgent : String := "agent_V1StGXR8_Z5jdHi6"

def agentWorktree : RemovalTarget := ⟨"src_1", perAgentWorkspaceName ownAgent⟩

def beside (target : RemovalTarget) : Capacity.World where
  db := {
    runs := ⟨[{ id := "run_1", status := .pending, initiatorAgentId := some ownAgent }], by simp⟩
    agents := ⟨[{ id := ownAgent, workspaceType := .scm, scmSourceId := some "src_1", maxConcurrency := 1 }], by simp⟩
    scmSources := .single { id := "src_1", type := .git, localPath := "/srv/checkout" }
    scmWorkspaceRemovals := ⟨[{ target := target, ownerInstanceId := none, attemptToken := "token-0" }], by simp⟩ }
  processes := [{ host := { processInstanceId := "host-1" } },
    { host := { processInstanceId := "host-2" } }]

def now : Choice := { now := 1000, token := "token-1" }

def decides (party : Nat) : List (Pool.Event Thread Choice) :=
  [.spawn ⟨0, party, .reconcile .list⟩, .act party now, .act party now, .act party now, .act party now, .act party now]

def getsWorktree (party : Nat) : List (Pool.Event Thread Choice) :=
  [.spawn ⟨1, party, .queue (.tryAcquireSlot ownAgent "run_1" 1 .admitRun)⟩, .act party now,
    .spawn ⟨1, party + 1, .resolveDefault ⟨"run_1", ownAgent, "src_1"⟩ .start⟩] ++
  List.replicate 7 (.act (party + 1) now)

theorem removal_spares_leased_worktree_other : ∃ s, Runs (Pool.step (system fun _ => "/srv/worktrees"))
      (fun s e => resolvesApart (fun _ => "/srv/worktrees") s e = true)
      ⟨{ world := beside ⟨"src_1", "feature"⟩ }, []⟩
      (getsWorktree 0 ++ decides 2 ++ [.act 2 now]) s ∧
    s.shared.handed = [⟨"run_1", agentWorktree⟩] ∧
    (s.threads.filterMap (·.task.removing)) = [(⟨"src_1", "feature"⟩, "token-1")] ∧
    ∀ t ∈ s.threads, ∀ target token, t.task.removing = some (target, token) →
      ∀ d ∈ s.shared.handed, d.target ≠ target := by
  refine ⟨_, .of_guarded rfl, by decide +kernel, by decide +kernel, ?_⟩
  exact removal_spares_leased_worktree (fun _ => "/srv/worktrees") (beside ⟨"src_1", "feature"⟩)
    .empty [] [] (getsWorktree 0 ++ decides 2 ++ [.act 2 now]) _ (.of_guarded rfl)

theorem removal_beside_leased_run : ∃ s,
    run (Pool.step (system fun _ => "/srv/worktrees")) ⟨{ world := beside agentWorktree }, []⟩
      (decides 0 ++ getsWorktree 1 ++ [.act 0 now]) = some s ∧
    s.shared.handed = [⟨"run_1", agentWorktree⟩] ∧
    leasedOn s.shared.world.db "run_1" "src_1" = true ∧
    (s.threads.filterMap (·.task.removing)) = [(agentWorktree, "token-1")] :=
  exists_of_run_any (by decide +kernel)

end A2Wave.Reconciler
