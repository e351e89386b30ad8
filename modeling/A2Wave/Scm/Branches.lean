import Mathlib
import A2Wave.Scm.GitWorkspace
import A2Wave.Scm.Reconciler

/-! The removals of worktrees and the branches they delete: the guarded removals of the delete route
and of ephemeral cleanups, `triggerTtlCleanup`, the reconciler, `removePerAgentWorkspace` and the
rebuilds of `createGitWorkspace`, on any number of replicas over one disk. -/

namespace A2Wave.Branches

open Transition

structure Choice extends Reconciler.Choice, GitChoice where
  hasLostHeartbeatOwnership : Bool := false
  heartbeats : Table InstanceHeartbeat := .empty
  dirty : Bool := false

def Choice.moment (c : Choice) : Capacity.Moment := ⟨c.now, c.hasLostHeartbeatOwnership⟩

structure Guarded where
  r : GuardedRemoval
  keepBranches : Bool := false
  phase : Exclusion.RemovalPhase := .start
  remove : RemovePhase := .check
  removed : Bool := false

structure Sweep where
  activePaths : List String
  now : Nat
  rest : List Workspace
  lru : Bool := false
  survivors : List Workspace := []
  removed : List String := []

structure SweepCall where
  sourceId : String
  scm : ScmPaths

inductive SweepPhase
  | snapshot
  | list (activePaths : List String)
  | scan (sweep : Sweep)
  | removing (g : Guarded) (ws : Workspace) (sweep : Sweep)
  | returned (removed : List String)
  | threw

structure AgentDeletion where
  agentId : String
  scmSourceId : String

def AgentDeletion.target (call : AgentDeletion) : RemovalTarget :=
  ⟨call.scmSourceId, perAgentWorkspaceName call.agentId⟩

inductive AgentDeletionPhase
  | source
  | probe (wsPath : String)
  | demote
  | remove (phase : RemovePhase)
  | finished

inductive Task
  | queue (task : Capacity.Task)
  | guarded (g : Guarded)
  | reconcile (phase : Reconciler.Phase) (remove : RemovePhase)
  | sweep (call : SweepCall) (phase : SweepPhase)
  | deleteAgent (call : AgentDeletion) (phase : AgentDeletionPhase)
  | create (call : CreateCall) (phase : CreatePhase)

structure Thread where
  process : Nat
  task : Task

structure Shared where
  world : Capacity.World
  disk : Disk

def ttlIdleDays : Nat := 7

def ttlLruCap : Nat := 20

def listGitWorkspaces (disk : Disk) (sourceId : String) : List Workspace :=
  let activity (ws : Workspace) : Nat := (ws.state.map (·.lastActivityAt)).getD 0
  (disk.workspaces.select fun ws => ws.target.scmSourceId = sourceId).insertionSort
    fun a b => activity b ≤ activity a

def Sweep.survives (sweep : Sweep) (ws : Workspace) : Sweep :=
  if sweep.lru then sweep else { sweep with survivors := sweep.survivors ++ [ws] }

section Program

variable (defaultWorkspacesPath : String → String)

/-- One await of `removeSourceWorkspaceGuardedCore`; `removeGitWorkspace` has its own. -/
def actGuarded (host : Host) (c : Choice) (db : Db) (disk : Disk) (g : Guarded) : Option (Db × Disk × Guarded) :=
  let act (r : GuardedRemoval) (succeeds : Bool) :=
    Exclusion.actRemoval defaultWorkspacesPath host ⟨c.moment, succeeds, c.dbFails⟩ db r g.phase
  match g.phase, g.remove with
  | .removing _, .done ok => (act g.r ok).map fun (db', phase') =>
    (db', disk, { g with phase := phase', remove := .check, removed := ok })
  | .removing _, remove => (removeGitWorkspaceUnlocked c.toGitChoice g.r.target g.keepBranches disk
      remove).map fun (disk', remove') => (db, disk', { g with remove := remove' })
  | .start, _ =>
    let r := { g.r with attemptToken := c.token }
    (act r true).map fun (db', phase') => (db', disk, { g with r := r, phase := phase' })
  | _, _ => (act g.r true).map fun (db', phase') => (db', disk, { g with phase := phase' })

/-- One await of a reconciling pass, whose `scm.removeWorkspace(workspaceName)` has no options. -/
def actReconcile (host : Host) (c : Choice) (db : Db) (disk : Disk) (phase : Reconciler.Phase)
    (remove : RemovePhase) : Option (Db × Disk × Reconciler.Phase × RemovePhase) :=
  let act (succeeds : Bool) := Reconciler.reconcileAbandonedWorkspaceRemovals defaultWorkspacesPath
    host c.heartbeats { c.toChoice with succeeds := succeeds } db phase
  match phase, remove with
  | .removing _ _ _, .done ok => (act ok).map fun (db', phase') => (db', disk, phase', .check)
  | .removing candidate _ _, remove => (removeGitWorkspaceUnlocked c.toGitChoice candidate.target
      false disk remove).map fun (disk', remove') => (db, disk', phase, remove')
  | _, _ => (act c.succeeds).map fun (db', phase') => (db', disk, phase', .check)

/-- One await of `triggerTtlCleanup` and `cleanupStaleWorkspaces`. -/
def actSweep (host : Host) (c : Choice) (db : Db) (disk : Disk) (call : SweepCall) :
    SweepPhase → Option (Db × Disk × SweepPhase)
  | .snapshot =>
    if c.dbFails then some (db, disk, .threw)
    else
      let workDirs := (db.runs.select Run.inFlight).filterMap (·.workDir)
      some (db, disk, .list (workDirs.filter (· ≠ "")))
  | .list activePaths =>
    let ttl := (listGitWorkspaces disk call.sourceId).filter fun ws =>
      ws.state.any (·.cleanup = .ttl)
    some (db, disk, if c.ok then .scan { activePaths := activePaths, now := c.now, rest := ttl }
      else .threw)
  | .scan sweep => match sweep.rest with
    | [] =>
      if !sweep.lru && ttlLruCap < sweep.survivors.length then
        let activity (ws : Workspace) : Nat := (ws.state.map (·.lastActivityAt)).getD 0
        let sorted := sweep.survivors.insertionSort fun a b => activity b ≤ activity a
        some (db, disk, .scan { sweep with lru := true, rest := sorted.drop ttlLruCap })
      else some (db, disk, .returned sweep.removed)
    | ws :: rest =>
      let sweep' := { sweep with rest := rest }
      let path := joinPath call.scm.wsRoot ws.target.workspaceName
      let idle := sweep.lru || ws.state.any fun state =>
        state.lastActivityAt + ttlIdleDays * 24 * 60 * 60 * 1000 < sweep.now
      if path ∈ sweep.activePaths || c.dirty || !idle then
        some (db, disk, .scan (sweep'.survives ws))
      else
        let r : GuardedRemoval :=
          { target := ⟨call.sourceId, ws.target.workspaceName⟩, scm := call.scm, attemptToken := "" }
        some (db, disk, .removing { r := r } ws sweep')
  | .removing g ws sweep =>
    if g.phase = .finished then
      some (db, disk, .scan (if g.removed then
        { sweep with removed := sweep.removed ++ [ws.target.workspaceName] } else sweep.survives ws))
    else (actGuarded defaultWorkspacesPath host c db disk g).map fun (db', disk', g') =>
      (db', disk', .removing g' ws sweep)
  | .returned _ => none
  | .threw => none

/-- One await of `removePerAgentWorkspace`. -/
def actDeleteAgent (c : Choice) (db : Db) (disk : Disk) (call : AgentDeletion) :
    AgentDeletionPhase → Option (Disk × AgentDeletionPhase)
  | .source =>
    match (db.scmSources.find? call.scmSourceId).filter (·.type = .git) with
    | none => some (disk, .finished)
    | some source =>
      if c.ok && !c.dbFails && disk.exists? call.target then
        some (disk, .probe (joinPath (source.paths defaultWorkspacesPath).wsRoot
          call.target.workspaceName))
      else some (disk, .finished)
  | .probe wsPath =>
    if c.dbFails then some (disk, .finished)
    else
      let occupied := db.runs.rows.any fun r => r.workDir = some wsPath && r.inFlight
      some (disk, if occupied then .demote else .remove .check)
  | .demote =>
    some (if c.ok then disk.writeWorkspaceState call.target .ttl c.now else disk, .finished)
  | .remove (.done _) => some (disk, .finished)
  | .remove phase => (removeGitWorkspaceUnlocked c.toGitChoice call.target true disk phase).map
      fun (disk', phase') => (disk', .remove phase')
  | .finished => none

def actTask (host : Host) (c : Choice) (db : Db) (disk : Disk) : Task → Option (Db × Disk × Task)
  | .queue _ => none
  | .guarded g => (actGuarded defaultWorkspacesPath host c db disk g).map fun (db', disk', g') =>
    (db', disk', .guarded g')
  | .reconcile phase remove => (actReconcile defaultWorkspacesPath host c db disk phase remove).map
      fun (db', disk', phase', remove') => (db', disk', .reconcile phase' remove')
  | .sweep call phase => (actSweep defaultWorkspacesPath host c db disk call phase).map
      fun (db', disk', phase') => (db', disk', .sweep call phase')
  | .deleteAgent call phase => (actDeleteAgent defaultWorkspacesPath c db disk call phase).map
      fun (disk', phase') => (db, disk', .deleteAgent call phase')
  | .create call phase => (actCreate c.toGitChoice c.now call disk phase).map
      fun (disk', phase') => (db, disk', .create call phase')

def act (s : Shared) (t : Thread) (c : Choice) : Option (Shared × Thread) :=
  match t.task with
  | .queue task => (Capacity.act s.world ⟨t.process, task⟩ c.moment).map fun (world, t') =>
    ({ s with world := world }, { t with task := .queue t'.task })
  | task => s.world.processes[t.process]?.bind fun p =>
    (actTask defaultWorkspacesPath (p.at c.moment).host c s.world.db s.disk task).map
      fun (db', disk', task') =>
        (⟨{ s.world with db := db' }, disk'⟩, { t with task := task' })

end Program

def deleteRouteKeepsBranches (db : Db) (target : RemovalTarget) : Bool :=
  (db.agents.rows.any fun a => a.scmSourceId = some target.scmSourceId &&
    perAgentWorkspaceName a.id = target.workspaceName) ||
    isPerAgentWorkspaceName target.workspaceName

/-- Calls start at their beginning.  Ephemeral cleanups and explicit worktrees leave the names of the
shape of an agent's own alone. -/
def starts (s : Shared) : Task → Bool
  | .queue task => Capacity.starts s.world.db task
  | .guarded g => g.phase = .start && g.remove = .check &&
    match g.r.ownedWorkload with
    | none => g.keepBranches = deleteRouteKeepsBranches s.world.db g.r.target
    | some _ => !g.keepBranches && !isPerAgentWorkspaceName g.r.target.workspaceName
  | .reconcile .list .check | .sweep _ .snapshot | .deleteAgent _ .source => true
  | .reconcile _ _ | .sweep _ _ | .deleteAgent _ _ => false
  | .create call phase => phase = .check &&
    if call.followSource then call.branch.isNone && call.cleanup = .persistent
    else call.advance && !isPerAgentWorkspaceName call.target.workspaceName

def system (defaultWorkspacesPath : String → String) : Pool.Program Shared Thread Choice where
  start s _ t := starts s t.task
  act := act defaultWorkspacesPath

abbrev State := Pool Shared Thread

def Task.unkept : Task → Option (RemovalTarget × RemovePhase)
  | .reconcile (.removing candidate _ _) remove => some (candidate.target, remove)
  | .sweep _ (.removing g _ _) => some (g.r.target, g.remove)
  | _ => none

/-- A TTL cleanup or a reconciling pass that removes a worktree of the shape of an agent's own finds
the HEADs of its checkouts detached. -/
def findsDetached (s : State) : Pool.Event Thread Choice → Bool
  | .spawn _ => true
  | .act i _ => s.threads[i]?.all fun t => match t.task.unkept with
    | some (target, .read (directory :: _)) =>
      !isPerAgentWorkspaceName target.workspaceName ||
        (s.shared.disk.checkout? target directory).all (·.branch.isNone)
    | _ => true

def Guarded.Spares (g : Guarded) : Prop := g.remove.Spares g.r.target g.keepBranches

def Task.Spares : Task → Prop
  | .guarded g => g.Spares ∧ (g.keepBranches = true ∨ isPerAgentWorkspaceName g.r.target.workspaceName = false)
  | .reconcile (.removing candidate _ _) remove => remove.Spares candidate.target false
  | .reconcile _ remove => remove = .check
  | .sweep _ (.removing g _ _) => g.Spares
  | .deleteAgent call (.remove phase) => phase.Spares call.target true
  | .create call phase => phase.Spares call
  | _ => True

section Steps

open Disk

variable {defaultWorkspacesPath : String → String} {host : Host} {c : Choice} {db db' : Db}
  {disk disk' : Disk}

def ReadSpares (disk : Disk) (target : RemovalTarget) (keepBranches : Bool) (phase : RemovePhase) :
    Prop :=
  ∀ directory rest checkout branch, phase = .read (directory :: rest) →
    disk.checkout? target directory = some checkout → checkout.branch = some branch →
    keepBranches = true ∨ isPerAgentWorkspaceName target.workspaceName = false

theorem actGuarded_spares {g g' : Guarded}
    (h : actGuarded defaultWorkspacesPath host c db disk g = some (db', disk', g'))
    (hspares : g.Spares) (hread : ReadSpares disk g.r.target g.keepBranches g.remove) :
    Accounted DeletedBranch.ordinary disk disk' ∧ g'.Spares ∧ g'.r.target = g.r.target ∧
      g'.keepBranches = g.keepBranches := by
  unfold actGuarded at h
  dsimp only at h
  split at h
  · obtain ⟨⟨db₁, phase'⟩, -, heq⟩ := Option.map_eq_some_iff.mp h
    cases heq
    exact ⟨.refl _, trivial, rfl, rfl⟩
  · obtain ⟨⟨disk₁, remove'⟩, hremove, heq⟩ := Option.map_eq_some_iff.mp h
    cases heq
    obtain ⟨haccounted, hnew⟩ := removeGitWorkspaceUnlocked_spares hremove hspares hread
    exact ⟨haccounted, hnew, rfl, rfl⟩
  · obtain ⟨⟨db₁, phase'⟩, -, heq⟩ := Option.map_eq_some_iff.mp h
    cases heq
    exact ⟨.refl _, hspares, rfl, rfl⟩
  · obtain ⟨⟨db₁, phase'⟩, -, heq⟩ := Option.map_eq_some_iff.mp h
    cases heq
    exact ⟨.refl _, hspares, rfl, rfl⟩

theorem actReconcile_spares {phase phase' : Reconciler.Phase} {remove remove' : RemovePhase}
    (h : actReconcile defaultWorkspacesPath host c db disk phase remove = some (db', disk', phase', remove'))
    (hspares : (Task.reconcile phase remove).Spares)
    (hread : ∀ target, (Task.reconcile phase remove).unkept = some (target, remove) →
      ReadSpares disk target false remove) :
    Accounted DeletedBranch.ordinary disk disk' ∧ (Task.reconcile phase' remove').Spares := by
  have hcheck : ∀ phase, (Task.reconcile phase .check).Spares := by
    intro phase
    cases phase <;> first | rfl | trivial
  unfold actReconcile at h
  dsimp only at h
  split at h
  · obtain ⟨⟨db₁, phase₁⟩, -, heq⟩ := Option.map_eq_some_iff.mp h
    cases heq
    exact ⟨.refl _, hcheck _⟩
  · obtain ⟨⟨disk₁, remove₁⟩, hremove, heq⟩ := Option.map_eq_some_iff.mp h
    cases heq
    exact removeGitWorkspaceUnlocked_spares hremove hspares (hread _ rfl)
  · obtain ⟨⟨db₁, phase₁⟩, -, heq⟩ := Option.map_eq_some_iff.mp h
    cases heq
    exact ⟨.refl _, hcheck _⟩

theorem actSweep_spares {call : SweepCall} {phase phase' : SweepPhase}
    (h : actSweep defaultWorkspacesPath host c db disk call phase = some (db', disk', phase'))
    (hspares : (Task.sweep call phase).Spares)
    (hread : ∀ target remove, (Task.sweep call phase).unkept = some (target, remove) →
      ∀ keepBranches, ReadSpares disk target keepBranches remove) :
    Accounted DeletedBranch.ordinary disk disk' ∧ (Task.sweep call phase').Spares := by
  cases phase with
  | snapshot =>
    simp only [actSweep] at h
    split at h <;> cases h <;> exact ⟨.refl _, trivial⟩
  | list activePaths =>
    cases h
    refine ⟨.refl _, ?_⟩
    split <;> trivial
  | scan sweep =>
    simp only [actSweep] at h
    split at h
    · split at h <;> cases h <;> exact ⟨.refl _, trivial⟩
    · split at h <;> cases h <;> exact ⟨.refl _, trivial⟩
  | removing g ws sweep =>
    simp only [actSweep] at h
    split at h
    · cases h
      exact ⟨.refl _, trivial⟩
    · obtain ⟨⟨db₁, disk₁, g'⟩, hguarded, heq⟩ := Option.map_eq_some_iff.mp h
      cases heq
      obtain ⟨haccounted, hnew, -, -⟩ := actGuarded_spares hguarded hspares (hread _ _ rfl _)
      exact ⟨haccounted, hnew⟩
  | returned removed => cases h
  | threw => cases h

theorem actDeleteAgent_spares {call : AgentDeletion} {phase phase' : AgentDeletionPhase}
    (h : actDeleteAgent defaultWorkspacesPath c db disk call phase = some (disk', phase'))
    (hspares : (Task.deleteAgent call phase).Spares) :
    Accounted DeletedBranch.ordinary disk disk' ∧ (Task.deleteAgent call phase').Spares := by
  cases phase with
  | source =>
    simp only [actDeleteAgent] at h
    split at h
    · cases h
      exact ⟨.refl _, trivial⟩
    · split at h <;> cases h <;> exact ⟨.refl _, trivial⟩
  | probe wsPath =>
    simp only [actDeleteAgent] at h
    split at h
    · cases h
      exact ⟨.refl _, trivial⟩
    · cases h
      refine ⟨.refl _, ?_⟩
      split <;> trivial
  | demote =>
    cases h
    refine ⟨?_, trivial⟩
    split
    · exact accounted_workspaces disk _
    · exact .refl _
  | remove remove =>
    by_cases hdone : ∃ ok, remove = .done ok
    · obtain ⟨ok, rfl⟩ := hdone
      cases h
      exact ⟨.refl _, trivial⟩
    · have hmap : (removeGitWorkspaceUnlocked c.toGitChoice call.target true disk remove).map
          (fun (disk', phase') => (disk', AgentDeletionPhase.remove phase')) =
          some (disk', phase') := by
        cases remove <;> first | exact h | exact absurd ⟨_, rfl⟩ hdone
      obtain ⟨⟨disk₁, remove'⟩, hremove, heq⟩ := Option.map_eq_some_iff.mp hmap
      cases heq
      exact removeGitWorkspaceUnlocked_spares hremove hspares (fun _ _ _ _ _ _ _ => .inl rfl)
  | finished => cases h

theorem actTask_spares {task task' : Task}
    (h : actTask defaultWorkspacesPath host c db disk task = some (db', disk', task'))
    (hspares : task.Spares)
    (hread : ∀ target remove, task.unkept = some (target, remove) →
      ∀ keepBranches, ReadSpares disk target keepBranches remove) :
    Accounted DeletedBranch.ordinary disk disk' ∧ task'.Spares := by
  cases task with
  | queue task => cases h
  | guarded g =>
    obtain ⟨⟨db₁, disk₁, g'⟩, hguarded, heq⟩ := Option.map_eq_some_iff.mp h
    cases heq
    obtain ⟨haccounted, hnew, htarget, hkeep⟩ :=
      actGuarded_spares hguarded hspares.1 (fun _ _ _ _ _ _ _ => hspares.2)
    refine ⟨haccounted, hnew, ?_⟩
    rw [htarget, hkeep]
    exact hspares.2
  | reconcile phase remove =>
    obtain ⟨⟨db₁, disk₁, phase', remove'⟩, hreconcile, heq⟩ := Option.map_eq_some_iff.mp h
    cases heq
    exact actReconcile_spares hreconcile hspares fun target hunkept => hread target remove hunkept _
  | sweep call phase =>
    obtain ⟨⟨db₁, disk₁, phase'⟩, hsweep, heq⟩ := Option.map_eq_some_iff.mp h
    cases heq
    exact actSweep_spares hsweep hspares hread
  | deleteAgent call phase =>
    obtain ⟨⟨disk₁, phase'⟩, hdelete, heq⟩ := Option.map_eq_some_iff.mp h
    cases heq
    exact actDeleteAgent_spares hdelete hspares
  | create call phase =>
    obtain ⟨⟨disk₁, phase'⟩, hcreate, heq⟩ := Option.map_eq_some_iff.mp h
    cases heq
    exact actCreate_spares hcreate hspares

end Steps

section Run

open Disk

variable {defaultWorkspacesPath : String → String} {s s' : State} {e : Pool.Event Thread Choice}

theorem readSpares_of_findsDetached {i : Nat} {c : Choice} {t : Thread}
    (hok : findsDetached s (.act i c) = true) (hi : s.threads[i]? = some t) {target : RemovalTarget}
    {remove : RemovePhase} (hunkept : t.task.unkept = some (target, remove)) (keepBranches : Bool) :
    ReadSpares s.shared.disk target keepBranches remove := by
  intro directory rest checkout branch hphase hcheckout hbranch
  subst hphase
  simp only [findsDetached, hi, Option.all_some, hunkept, hcheckout, hbranch, Option.isNone_some,
    Bool.or_false, Bool.not_eq_true'] at hok
  exact .inr hok

theorem starts_spares {sh : Shared} {task : Task} (h : starts sh task = true) : task.Spares := by
  cases task with
  | guarded g =>
    simp only [starts, Bool.and_eq_true, decide_eq_true_eq] at h
    obtain ⟨⟨-, hremove⟩, hflag⟩ := h
    refine ⟨?_, ?_⟩
    · rw [Guarded.Spares, hremove]
      trivial
    · cases hown : g.r.ownedWorkload with
      | none =>
        simp only [hown, decide_eq_true_eq] at hflag
        rw [hflag, deleteRouteKeepsBranches]
        cases isPerAgentWorkspaceName g.r.target.workspaceName <;> simp
      | some w =>
        simp only [hown, Bool.and_eq_true, Bool.not_eq_true'] at hflag
        exact .inr hflag.2
  | reconcile phase remove => cases phase <;> cases remove <;> first | rfl | cases h
  | sweep call phase | deleteAgent call phase => cases phase <;> trivial
  | create call phase =>
    simp only [starts, Bool.and_eq_true, decide_eq_true_eq] at h
    rw [h.1]
    trivial
  | queue task => trivial

theorem act_spares {i : Nat} {c : Choice} {t t' : Thread} {sh : Shared}
    (hok : findsDetached s (.act i c) = true) (hi : s.threads[i]? = some t)
    (hspares : t.task.Spares)
    (hact : act defaultWorkspacesPath s.shared t c = some (sh, t')) :
    Accounted DeletedBranch.ordinary s.shared.disk sh.disk ∧ t'.task.Spares := by
  unfold act at hact
  split at hact
  · obtain ⟨⟨world, t₁⟩, -, heq⟩ := Option.map_eq_some_iff.mp hact
    cases heq
    exact ⟨.refl _, trivial⟩
  · obtain ⟨p, -, hmap⟩ := Option.bind_eq_some_iff.mp hact
    obtain ⟨⟨db', disk', task'⟩, htask, heq⟩ := Option.map_eq_some_iff.mp hmap
    cases heq
    exact actTask_spares htask hspares fun target remove hunkept keepBranches =>
      readSpares_of_findsDetached hok hi hunkept keepBranches

end Run

/-- As long as TTL cleanups and reconciling passes find the HEADs of the agents' own worktrees they
remove detached, no removal of such a worktree deletes a branch; and a branch is gone only if it was
deleted along with another worktree. -/
theorem own_branches_survive (defaultWorkspacesPath : String → String) (world : Capacity.World)
    (disk : Disk) (events : List (Pool.Event Thread Choice)) (s : State)
    (h : Runs (Pool.step (system defaultWorkspacesPath)) (fun s e => findsDetached s e = true)
      ⟨⟨world, { disk with deleted := [] }⟩, []⟩ events s) :
    (∀ x ∈ s.shared.disk.deleted, isPerAgentWorkspaceName x.target.workspaceName = false) ∧
    ∀ scmSourceId directory, ∀ b ∈ disk.branches scmSourceId directory,
      b ∈ s.shared.disk.branches scmSourceId directory ∨ ∃ x ∈ s.shared.disk.deleted,
        x.target.scmSourceId = scmSourceId ∧ x.directory = directory ∧ x.branch = b := by
  have hinv : Pool.Holds
      (fun sh => Disk.Accounted DeletedBranch.ordinary { disk with deleted := [] } sh.disk)
      (fun _ t => t.task.Spares) s := by
    refine h.invariant (fun s e s' hok hI hs => ?_) ⟨.refl _, by simp⟩
    refine Pool.Holds.step (fun t _ hstart => starts_spares hstart) ?_ hI hs
    intro i c t sh t' he hi hG hL hact
    subst he
    obtain ⟨haccounted, hnew⟩ := act_spares hok hi hL hact
    exact ⟨hG.trans haccounted, hnew, fun _ _ hu => hu⟩
  refine ⟨fun x hx => ?_, hinv.1.branches⟩
  rcases hinv.1.gained x hx with hnil | hordinary
  · cases hnil
  · exact hordinary

def ownName : String := "agent-V1StGXR8_Z5jdHi6"

def own : RemovalTarget := ⟨"src_1", ownName⟩

def paths : ScmPaths := ⟨"/srv/checkout", "/srv/worktrees"⟩

def inWorktree : Capacity.World where
  db := {
    runs := ⟨[{ id := "run_1", status := .running, workDir := some ("/srv/worktrees/" ++ ownName)
                ownerInstanceId := some "host-1" }], by simp⟩
    scmSources := .single { id := "src_1", type := .git, localPath := "/srv/checkout" }
    scmWorkloadLeases := ⟨[{ workload := runWorkload "run_1", agentId := "agent_V1StGXR8_Z5jdHi6"
                             scmSourceId := "src_1"
                             phase := .active
                             ownerInstanceId := some "host-1" }], by simp⟩ }
  processes := [{ host := { processInstanceId := "host-1" } }]

def twoWorktrees : Disk where
  workspaces := ⟨[{ target := own, checkouts := [⟨"", some ownName⟩], state := some ⟨.persistent, 0⟩ },
      { target := ⟨"src_1", "feature"⟩, checkouts := [⟨"", some "feature"⟩], state := some ⟨.ttl, 0⟩ }], by decide⟩
  repositories := ⟨[{ scmSourceId := "src_1", directory := "", branches := ["main", ownName, "feature"]
                      head := some "main" }], by simp⟩

def now : Choice := { now := 1000, token := "token-1" }

def weekLater (token : String) : Choice := { now := 700000000, token := token }

def gitFails : Choice := { now := 1000, ok := false }

def runEnds (thread : Nat) : List (Pool.Event Thread Choice) :=
  [.spawn ⟨0, .queue (.commit (.failBeforeLifecycle "run_1" "failed"))⟩, .act thread now,
    .spawn ⟨0, .queue (.commit (.releaseOwned (runWorkload "run_1")))⟩, .act (thread + 1) now]

def deleteRoute : Thread :=
  ⟨0, .guarded { r := { target := own, scm := paths, attemptToken := "" }, keepBranches := true }⟩

def routeAndSweep : List (Pool.Event Thread Choice) :=
  runEnds 0 ++ [.spawn deleteRoute] ++ List.replicate 10 (.act 2 now) ++
    [.spawn ⟨0, .sweep ⟨"src_1", paths⟩ .snapshot⟩] ++ List.replicate 16 (.act 3 (weekLater "token-2"))

theorem own_branches_survive_routeAndSweep : ∃ s,
    Runs (Pool.step (system fun _ => "/srv/worktrees")) (fun s e => findsDetached s e = true)
      ⟨⟨inWorktree, { twoWorktrees with deleted := [] }⟩, []⟩ routeAndSweep s ∧
    s.shared.disk.workspaces.rows = [] ∧
    s.shared.disk.deleted = [⟨⟨"src_1", "feature"⟩, "", "feature"⟩] ∧
    ∀ x ∈ s.shared.disk.deleted, isPerAgentWorkspaceName x.target.workspaceName = false := by
  refine ⟨_, .of_guarded rfl, by decide +kernel, by decide +kernel, ?_⟩
  exact (own_branches_survive (fun _ => "/srv/worktrees") inWorktree twoWorktrees routeAndSweep _
    (.of_guarded rfl)).1

def demotedAndSwept : List (Pool.Event Thread Choice) :=
  [.spawn ⟨0, .deleteAgent ⟨"agent_V1StGXR8_Z5jdHi6", "src_1"⟩ .source⟩] ++
    List.replicate 3 (.act 0 now) ++ runEnds 1 ++
    [.spawn ⟨0, .sweep ⟨"src_1", paths⟩ .snapshot⟩] ++
    List.replicate 14 (.act 3 (weekLater "token-1")) ++
    List.replicate 14 (.act 3 (weekLater "token-2"))

def handedOffAndReconciled : List (Pool.Event Thread Choice) :=
  runEnds 0 ++ [.spawn deleteRoute] ++ List.replicate 5 (.act 2 now) ++
    [.act 2 gitFails, .act 2 now, .act 2 now, .spawn ⟨0, .reconcile .list .check⟩] ++
    List.replicate 10 (.act 3 (weekLater "token-2"))

theorem own_branch_deleted : (∃ s, run (Pool.step (system fun _ => "/srv/worktrees")) ⟨⟨inWorktree, twoWorktrees⟩, []⟩
        demotedAndSwept = some s ∧ ⟨own, "", ownName⟩ ∈ s.shared.disk.deleted ∧
      s.shared.disk.branches "src_1" "" = ["main"]) ∧
    ∃ s, run (Pool.step (system fun _ => "/srv/worktrees")) ⟨⟨inWorktree, twoWorktrees⟩, []⟩
        handedOffAndReconciled = some s ∧ s.shared.disk.deleted = [⟨own, "", ownName⟩] ∧
      s.shared.disk.branches "src_1" "" = ["main", "feature"] :=
  ⟨exists_of_run_any (by decide +kernel), exists_of_run_any (by decide +kernel)⟩

end A2Wave.Branches
