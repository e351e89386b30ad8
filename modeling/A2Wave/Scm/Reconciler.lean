import Mathlib
import A2Wave.Instance.Heartbeat
import A2Wave.Scm.Checkout

/-! `lib/scm-workspace-removal-reconciler.ts`: removals that nobody finishes are adopted and finished
by a periodic pass.  The pass, one await at a time, among guarded removals, the queue and the
resolutions of runs that name no worktree, on any number of replicas. -/

namespace A2Wave

def releaseReservation (db : Db) (target : RemovalTarget) (attemptToken : String) : Db :=
  { db with scmWorkspaceRemovals := db.scmWorkspaceRemovals.deleteWhere fun row =>
      row.target = target && row.attemptToken = attemptToken }

def handOffReservation (db : Db) (target : RemovalTarget) (attemptToken : String) : Db :=
  let removals := db.scmWorkspaceRemovals.updateWhere
    (fun row => row.target = target && row.attemptToken = attemptToken)
    (fun row => { row with ownerInstanceId := none }) (fun _ => key_removal _)
  { db with scmWorkspaceRemovals := removals }

/-- `releaseSourceWorkspaceRemovals`, of a source that is being deleted. -/
def releaseSourceWorkspaceRemovals (db : Db) (sourceId : String) : Db :=
  { db with scmWorkspaceRemovals := db.scmWorkspaceRemovals.deleteWhere fun row =>
      row.target.scmSourceId = sourceId }

namespace Reconciler

open Transition

def listAbandonedCandidates (db : Db) : List ScmWorkspaceRemoval := db.scmWorkspaceRemovals.rows

def adoptRow (host : Host) (nextToken : String) (row : ScmWorkspaceRemoval) : ScmWorkspaceRemoval :=
  { row with
    ownerInstanceId := some host.processInstanceId
    attemptToken := nextToken
    attemptStartedAt := host.now }

def namedOwner (row : ScmWorkspaceRemoval) : Option String := row.ownerInstanceId.filter (· ≠ "")

def adopt (host : Host) (heartbeats : Table InstanceHeartbeat) (db : Db) (target : RemovalTarget)
    (expectedToken nextToken : String) : Bool × Db :=
  match (db.scmWorkspaceRemovals.find? target).filter (·.attemptToken = expectedToken) with
  | none => (false, db)
  | some row =>
    if (namedOwner row).any fun owner =>
        !isInstanceOwnerDead heartbeats owner row.attemptStartedAt host.now then (false, db)
    else
      match db.scmWorkspaceRemovals.cas target (·.attemptToken = expectedToken)
        (adoptRow host nextToken) (fun _ => rfl) with
      | none => (false, db)
      | some removals => (true, { db with scmWorkspaceRemovals := removals })

def findBlocker (defaultWorkspacesPath : String → String) (db : Db) (target : RemovalTarget) : Option String :=
  match db.scmSources.find? target.scmSourceId with
  | none => some "SCM source is no longer available"
  | some source =>
    if source.type ≠ .git then some "SCM source no longer supports workspaces"
    else findWorkspaceRemovalBlocker defaultWorkspacesPath db target.scmSourceId
      (source.paths defaultWorkspacesPath) target.workspaceName none

inductive ReconciledRemovalOutcome
  | removed
  | obsolete
  | retry
  deriving DecidableEq

structure Pass where
  rest : List ScmWorkspaceRemoval
  canJudgePeers : Bool
  liveness : Table InstanceHeartbeat
  now : Nat
  reconciled : List (RemovalTarget × ReconciledRemovalOutcome) := []

def Pass.push (pass : Pass) (row : ScmWorkspaceRemoval) (outcome : ReconciledRemovalOutcome) : Pass :=
  { pass with reconciled := pass.reconciled ++ [(row.target, outcome)] }

def Pass.adoptable (pass : Pass) (candidate : ScmWorkspaceRemoval) : Bool :=
  match namedOwner candidate with
  | none => true
  | some owner => pass.canJudgePeers && isInstanceOwnerDead pass.liveness owner candidate.attemptStartedAt pass.now

inductive Phase
  | list
  | load (candidates : List ScmWorkspaceRemoval)
  | scan (pass : Pass)
  | adopt (candidate : ScmWorkspaceRemoval) (nextToken : String) (pass : Pass)
  | blocker (candidate : ScmWorkspaceRemoval) (token : String) (pass : Pass)
  /-- `removeWorkspace`: read the source and build its `GitScmSource`. -/
  | locate (candidate : ScmWorkspaceRemoval) (token : String) (pass : Pass)
  | removing (candidate : ScmWorkspaceRemoval) (token : String) (pass : Pass)
  | release (candidate : ScmWorkspaceRemoval) (token : String) (outcome : ReconciledRemovalOutcome)
      (pass : Pass)
  | handOff (candidate : ScmWorkspaceRemoval) (token : String) (pass : Pass)
  | returned (reconciled : List (RemovalTarget × ReconciledRemovalOutcome))
  | threw

structure Choice where
  now : Nat
  succeeds : Bool := true
  dbFails : Bool := false
  pastGrace : Bool := true
  token : String := ""

/-- `reconcileAbandonedWorkspaceRemovals`.  A failing access after the adoption hands the row back,
in `finally`. -/
def reconcileAbandonedWorkspaceRemovals (defaultWorkspacesPath : String → String) (host : Host)
    (heartbeats : Table InstanceHeartbeat) (c : Choice) (db : Db) : Phase → Option (Db × Phase)
  | .list =>
    if c.dbFails then some (db, .threw)
    else match listAbandonedCandidates db with
      | [] => some (db, .returned [])
      | candidates =>
        if !host.hasLostHeartbeatOwnership && c.pastGrace then some (db, .load candidates)
        else some (db, .scan ⟨candidates, false, .empty, host.now, []⟩)
  | .load candidates =>
    some (db, if c.dbFails then .threw else .scan ⟨candidates, true, heartbeats, host.now, []⟩)
  | .scan pass => match pass.rest with
    | [] => some (db, .returned pass.reconciled)
    | candidate :: rest =>
      let pass' := { pass with rest := rest }
      some (db, if pass.adoptable candidate then .adopt candidate c.token pass' else .scan pass')
  | .adopt candidate nextToken pass =>
    if c.dbFails then some (db, .scan pass)
    else match adopt host heartbeats db candidate.target candidate.attemptToken nextToken with
      | (true, db') => some (db', .blocker candidate nextToken pass)
      | (false, db') => some (db', .scan pass)
  | .blocker candidate token pass =>
    if c.dbFails || !c.succeeds then some (db, .handOff candidate token pass)
    else match findBlocker defaultWorkspacesPath db candidate.target with
      | some _ => some (db, .release candidate token .obsolete pass)
      | none => some (db, .locate candidate token pass)
  | .locate candidate token pass =>
    if c.dbFails || !c.succeeds then some (db, .handOff candidate token (pass.push candidate .retry))
    else if (db.scmSources.find? candidate.target.scmSourceId).any (·.type = .git) then
      some (db, .removing candidate token pass)
    else some (db, .release candidate token .removed pass)
  | .removing candidate token pass =>
    some (db, if c.succeeds then .release candidate token .removed pass
      else .handOff candidate token (pass.push candidate .retry))
  | .release candidate token outcome pass =>
    if c.dbFails then some (db, .handOff candidate token pass)
    else some (releaseReservation db candidate.target token, .scan (pass.push candidate outcome))
  | .handOff candidate token pass =>
    some (if c.dbFails then db else handOffReservation db candidate.target token, .scan pass)
  | .returned _ => none
  | .threw => none

structure Handed where
  runId : String
  target : RemovalTarget
  deriving DecidableEq

/-- A file system removal that was started, by which call, under which token, and whether its
process had lost its heartbeat ownership. -/
structure Start where
  party : Nat
  target : RemovalTarget
  attemptToken : String
  fenced : Bool
  deriving DecidableEq

structure Shared where
  world : Capacity.World
  heartbeats : Table InstanceHeartbeat := .empty
  issued : List String := []
  fenced : List Nat := []
  handed : List Handed := []
  started : List Start := []

inductive Task
  | queue (task : Capacity.Task)
  | removal (r : GuardedRemoval) (phase : Exclusion.RemovalPhase)
  | reconcile (phase : Phase)
  | resolveDefault (call : DefaultCall) (phase : DefaultPhase)
  | setHeartbeats (heartbeats : Table InstanceHeartbeat)
  | loseOwnership
  | releaseSource (sourceId : String)
  | finished

structure Thread where
  process : Nat
  party : Nat
  task : Task

/-- The next action of the task calls `randomUUID`. -/
def Task.issues : Task → Bool
  | removal _ .start => true
  | reconcile (.scan pass) => pass.rest.head?.any pass.adoptable
  | _ => false

def Task.removing : Task → Option (RemovalTarget × String)
  | removal r (.removing _) => some (r.target, r.attemptToken)
  | reconcile (.removing candidate token _) => some (candidate.target, token)
  | _ => none

section Program

variable (defaultWorkspacesPath : String → String)

def newlyHanded (db : Db) : Task → List Handed
  | .resolveDefault call (.recorded dir) =>
    if worktreePath defaultWorkspacesPath db call.target = some dir then
      [⟨call.runId, call.target⟩]
    else []
  | _ => []

/-- The state after an action that has led to the thread `t'`: the hand-outs end with the lease, and
a removal that is reached is started. -/
def Shared.commit (s : Shared) (c : Choice) (t : Thread) (world : Capacity.World) (t' : Thread) : Shared where
  world := world
  heartbeats := s.heartbeats
  issued := if t.task.issues then c.token :: s.issued else s.issued
  fenced := s.fenced
  handed := (newlyHanded defaultWorkspacesPath world.db t.task ++ s.handed).filter fun h =>
    leasedOn world.db h.runId h.target.scmSourceId
  started := match t'.task.removing with
    | some (target, token) => ⟨t.party, target, token, t.process ∈ s.fenced⟩ :: s.started
    | none => s.started

def momentAt (s : Shared) (t : Thread) (c : Choice) : Capacity.Moment :=
  ⟨c.now, t.process ∈ s.fenced⟩

def actTask (s : Shared) (t : Thread) (c : Choice) : Option (Capacity.World × Task) :=
  match t.task with
  | .queue task => (Capacity.act s.world ⟨t.process, task⟩ (momentAt s t c)).map fun (world, t') =>
    (world, .queue t'.task)
  | .removal r phase => s.world.processes[t.process]?.bind fun p =>
    let r' := if phase = .start then { r with attemptToken := c.token } else r
    let choice := ⟨momentAt s t c, c.succeeds, c.dbFails⟩
    (Exclusion.actRemoval defaultWorkspacesPath (p.at (momentAt s t c)).host choice s.world.db r'
      phase).map fun (db, phase') => ({ s.world with db := db }, .removal r' phase')
  | .reconcile phase => s.world.processes[t.process]?.bind fun p =>
    (reconcileAbandonedWorkspaceRemovals defaultWorkspacesPath (p.at (momentAt s t c)).host
      s.heartbeats c s.world.db phase).map fun (db, phase') =>
        ({ s.world with db := db }, .reconcile phase')
  | .resolveDefault call phase =>
    (actDefault defaultWorkspacesPath c.succeeds c.dbFails s.world.db call phase).map
      fun (db, phase') => ({ s.world with db := db }, .resolveDefault call phase')
  | .releaseSource sourceId =>
    some ({ s.world with db := releaseSourceWorkspaceRemovals s.world.db sourceId }, .finished)
  | .setHeartbeats _ | .loseOwnership | .finished => none

def act (s : Shared) (t : Thread) (c : Choice) : Option (Shared × Thread) :=
  match t.task with
  | .setHeartbeats heartbeats =>
    some ({ s with heartbeats := heartbeats }, { t with task := .finished })
  | .loseOwnership => some ({ s with fenced := t.process :: s.fenced }, { t with task := .finished })
  | _ =>
    if t.task.issues && c.token ∈ s.issued then none
    else (actTask defaultWorkspacesPath s t c).map fun (world, task) =>
      (s.commit defaultWorkspacesPath c t world { t with task := task }, { t with task := task })

/-- Calls start at their beginning.  A cleanup on behalf of a workload leaves worktrees of the shape
of an agent's own alone, and the ids of agents have that shape. -/
def starts (s : Shared) : Task → Bool
  | .queue (.commit op) => Checkout.concurrent op
  | .queue task => Capacity.starts s.world.db task
  | .removal r phase => phase = .start &&
    Occupancy.sourcePaths defaultWorkspacesPath s.world.db r.target.scmSourceId = some r.scm &&
    (r.ownedWorkload.isNone || !isPerAgentWorkspaceName r.target.workspaceName)
  | .reconcile .list => true
  | .reconcile _ => false
  | .resolveDefault call phase =>
    phase = .start && isPerAgentWorkspaceName (perAgentWorkspaceName call.agentId)
  | .setHeartbeats _ | .loseOwnership | .releaseSource _ => true
  | .finished => false

def system : Pool.Program Shared Thread Choice where
  start s threads t := starts defaultWorkspacesPath s t.task && t.party = threads.length
  act := act defaultWorkspacesPath

end Program

abbrev State := Pool Shared Thread

def Phase.attempt : Phase → Option (ScmWorkspaceRemoval × String × Pass)
  | blocker candidate token pass | locate candidate token pass | removing candidate token pass
  | release candidate token _ pass => some (candidate, token, pass)
  | _ => none

section PassStep

variable (defaultWorkspacesPath : String → String) (host : Host)
  (heartbeats : Table InstanceHeartbeat) (c : Choice) (db : Db)

inductive PassStep : Phase → Db → Phase → Prop
  | listFails : PassStep .list db .threw
  | idles : PassStep .list db (.returned [])
  | judges : host.hasLostHeartbeatOwnership = false → PassStep .list db (.load (listAbandonedCandidates db))
  | lists : host.hasLostHeartbeatOwnership = true ∨ c.pastGrace = false →
      PassStep .list db (.scan ⟨listAbandonedCandidates db, false, .empty, host.now, []⟩)
  | loadFails {candidates} : PassStep (.load candidates) db .threw
  | loads {candidates} : PassStep (.load candidates) db (.scan ⟨candidates, true, heartbeats, host.now, []⟩)
  | ends {pass} : PassStep (.scan pass) db (.returned pass.reconciled)
  | selects {pass candidate rest} : pass.rest = candidate :: rest → pass.adoptable candidate = true →
      PassStep (.scan pass) db (.adopt candidate c.token { pass with rest := rest })
  | skips {pass candidate rest} : pass.rest = candidate :: rest → pass.adoptable candidate = false →
      PassStep (.scan pass) db (.scan { pass with rest := rest })
  | adopts {candidate token pass db'} :
      adopt host heartbeats db candidate.target candidate.attemptToken token = (true, db') →
      PassStep (.adopt candidate token pass) db' (.blocker candidate token pass)
  | loses {candidate token pass} : PassStep (.adopt candidate token pass) db (.scan pass)
  | unblocked {candidate token pass} : findBlocker defaultWorkspacesPath db candidate.target = none →
      PassStep (.blocker candidate token pass) db (.locate candidate token pass)
  | obsolete {candidate token pass} :
      PassStep (.blocker candidate token pass) db (.release candidate token .obsolete pass)
  | locates {candidate token pass} : PassStep (.locate candidate token pass) db (.removing candidate token pass)
  | gone {candidate token pass} : PassStep (.locate candidate token pass) db (.release candidate token .removed pass)
  | removes {candidate token pass} :
      PassStep (.removing candidate token pass) db (.release candidate token .removed pass)
  | givesUp {phase candidate token pass pass'} : phase.attempt = some (candidate, token, pass) →
      pass' = pass ∨ pass' = pass.push candidate .retry →
      PassStep phase db (.handOff candidate token pass')
  | releases {candidate token outcome pass} : PassStep (.release candidate token outcome pass)
      (releaseReservation db candidate.target token) (.scan (pass.push candidate outcome))
  | handsOff {candidate token pass db'} : db' = db ∨ db' = handOffReservation db candidate.target token →
      PassStep (.handOff candidate token pass) db' (.scan pass)

end PassStep

section TaskStep

variable (defaultWorkspacesPath : String → String) (s : Shared) (t : Thread) (c : Choice)

inductive TaskStep : Capacity.World → Task → Prop
  | queue {task world t₁} : t.task = .queue task →
      Capacity.act s.world ⟨t.process, task⟩ (momentAt s t c) = some (world, t₁) →
      TaskStep world (.queue t₁.task)
  | removal {r r' phase p db phase'} : t.task = .removal r phase → s.world.processes[t.process]? = some p →
      r' = (if phase = .start then { r with attemptToken := c.token } else r) →
      Exclusion.actRemoval defaultWorkspacesPath (p.at (momentAt s t c)).host
        ⟨momentAt s t c, c.succeeds, c.dbFails⟩ s.world.db r' phase = some (db, phase') →
      TaskStep { s.world with db := db } (.removal r' phase')
  | reconcile {phase p db phase'} : t.task = .reconcile phase → s.world.processes[t.process]? = some p →
      reconcileAbandonedWorkspaceRemovals defaultWorkspacesPath (p.at (momentAt s t c)).host
        s.heartbeats c s.world.db phase = some (db, phase') →
      TaskStep { s.world with db := db } (.reconcile phase')
  | resolveDefault {call phase db phase'} : t.task = .resolveDefault call phase →
      actDefault defaultWorkspacesPath c.succeeds c.dbFails s.world.db call phase = some (db, phase') →
      TaskStep { s.world with db := db } (.resolveDefault call phase')
  | releaseSource {sourceId} : t.task = .releaseSource sourceId →
      TaskStep { s.world with db := releaseSourceWorkspaceRemovals s.world.db sourceId } .finished

end TaskStep

section Inversion

variable {defaultWorkspacesPath : String → String} {s s' : Shared} {t t' : Thread} {c : Choice}

theorem act_cases (h : act defaultWorkspacesPath s t c = some (s', t')) :
    (∃ heartbeats, t.task = .setHeartbeats heartbeats ∧ t' = { t with task := .finished } ∧
      s' = { s with heartbeats := heartbeats }) ∨
    (t.task = .loseOwnership ∧ t' = { t with task := .finished } ∧ s' = { s with fenced := t.process :: s.fenced }) ∨
    (∃ world, actTask defaultWorkspacesPath s t c = some (world, t'.task) ∧
      t' = { t with task := t'.task } ∧ s' = s.commit defaultWorkspacesPath c t world t' ∧
      (t.task.issues = true → c.token ∉ s.issued)) := by
  unfold act at h
  split at h
  · rename_i heartbeats htask
    cases h
    exact .inl ⟨heartbeats, htask, rfl, rfl⟩
  · rename_i htask
    cases h
    exact .inr (.inl ⟨htask, rfl, rfl⟩)
  · split at h
    · cases h
    · rename_i hfresh
      obtain ⟨⟨world, task⟩, hact, heq⟩ := Option.map_eq_some_iff.mp h
      cases heq
      refine .inr (.inr ⟨world, hact, rfl, rfl, fun hissues => ?_⟩)
      simpa [hissues] using hfresh

theorem adopt_lost {host : Host} {heartbeats : Table InstanceHeartbeat} {db db' : Db}
    {target : RemovalTarget} {expected next : String}
    (h : adopt host heartbeats db target expected next = (false, db')) : db' = db := by
  unfold adopt at h
  split at h
  · cases h
    rfl
  split at h
  · cases h
    rfl
  split at h
  · cases h
    rfl
  · cases h

theorem reconcile_step {host : Host} {heartbeats : Table InstanceHeartbeat} {db db' : Db}
    {phase phase' : Phase}
    (h : reconcileAbandonedWorkspaceRemovals defaultWorkspacesPath host heartbeats c db phase = some (db', phase')) :
    PassStep defaultWorkspacesPath host heartbeats c db phase db' phase' := by
  cases phase with
  | list =>
    simp only [reconcileAbandonedWorkspaceRemovals] at h
    split at h
    · cases h
      exact .listFails
    split at h
    · cases h
      exact .idles
    split at h
    · rename_i hjudges
      cases h
      simp only [Bool.and_eq_true, Bool.not_eq_true'] at hjudges
      exact .judges hjudges.1
    · rename_i hskips
      cases h
      refine .lists ?_
      cases hlost : host.hasLostHeartbeatOwnership with
      | true => exact .inl rfl
      | false => exact .inr (by simpa [hlost] using hskips)
  | load candidates =>
    cases h
    split
    · exact .loadFails
    · exact .loads
  | scan pass =>
    simp only [reconcileAbandonedWorkspaceRemovals] at h
    split at h
    · cases h
      exact .ends
    · rename_i candidate rest hrest
      cases h
      split
      · rename_i hadoptable
        exact .selects hrest hadoptable
      · rename_i hskipped
        exact .skips hrest (by simpa using hskipped)
  | adopt candidate nextToken pass =>
    simp only [reconcileAbandonedWorkspaceRemovals] at h
    split at h
    · cases h
      exact .loses
    split at h
    · rename_i hadopt
      cases h
      exact .adopts hadopt
    · rename_i hadopt
      cases h
      rw [adopt_lost hadopt]
      exact .loses
  | blocker candidate token pass =>
    simp only [reconcileAbandonedWorkspaceRemovals] at h
    split at h
    · cases h
      exact .givesUp rfl (.inl rfl)
    split at h
    · cases h
      exact .obsolete
    · rename_i hnone
      cases h
      exact .unblocked hnone
  | locate candidate token pass =>
    simp only [reconcileAbandonedWorkspaceRemovals] at h
    split at h
    · cases h
      exact .givesUp rfl (.inr rfl)
    split at h
    · cases h
      exact .locates
    · cases h
      exact .gone
  | removing candidate token pass =>
    cases h
    split
    · exact .removes
    · exact .givesUp rfl (.inr rfl)
  | release candidate token outcome pass =>
    simp only [reconcileAbandonedWorkspaceRemovals] at h
    split at h
    · cases h
      exact .givesUp rfl (.inl rfl)
    · cases h
      exact .releases
  | handOff candidate token pass =>
    cases h
    refine .handsOff ?_
    split
    · exact .inl rfl
    · exact .inr rfl
  | returned reconciled => cases h
  | threw => cases h

theorem actTask_step {world : Capacity.World} {task' : Task}
    (h : actTask defaultWorkspacesPath s t c = some (world, task')) :
    TaskStep defaultWorkspacesPath s t c world task' := by
  cases htask : t.task with
  | queue task =>
    simp only [actTask, htask] at h
    obtain ⟨⟨world, t₁⟩, hact, heq⟩ := Option.map_eq_some_iff.mp h
    cases heq
    exact .queue htask hact
  | removal r phase =>
    simp only [actTask, htask] at h
    obtain ⟨p, hp, hmap⟩ := Option.bind_eq_some_iff.mp h
    obtain ⟨⟨db, phase'⟩, hact, heq⟩ := Option.map_eq_some_iff.mp hmap
    cases heq
    exact .removal htask hp rfl hact
  | reconcile phase =>
    simp only [actTask, htask] at h
    obtain ⟨p, hp, hmap⟩ := Option.bind_eq_some_iff.mp h
    obtain ⟨⟨db, phase'⟩, hact, heq⟩ := Option.map_eq_some_iff.mp hmap
    cases heq
    exact .reconcile htask hp hact
  | resolveDefault call phase =>
    simp only [actTask, htask] at h
    obtain ⟨⟨db, phase'⟩, hact, heq⟩ := Option.map_eq_some_iff.mp h
    cases heq
    exact .resolveDefault htask hact
  | releaseSource sourceId =>
    simp only [actTask, htask] at h
    cases h
    exact .releaseSource htask
  | setHeartbeats heartbeats | loseOwnership | finished => simp [actTask, htask] at h

theorem starts_phase {task : Task} (h : starts defaultWorkspacesPath s task = true) :
    (∀ r phase, task = .removal r phase → phase = .start) ∧ ∀ phase, task = .reconcile phase → phase = .list := by
  constructor
  · rintro r phase rfl
    simp only [starts, Bool.and_eq_true, decide_eq_true_eq] at h
    exact h.1.1
  · rintro phase rfl
    cases phase <;> first | rfl | cases h

end Inversion

end Reconciler

end A2Wave
