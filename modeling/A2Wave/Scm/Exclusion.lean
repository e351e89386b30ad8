import Mathlib
import A2Wave.Scm.Occupancy

/-! Guarded removals against the explicit worktrees of runs: `removeSourceWorkspaceGuardedCore`
and `resolveWorkDir` as threads, one await at a time, among the threads of the queue. -/

namespace A2Wave.Exclusion

open Transition Occupancy

/-- A run has claimed a worktree: `resolveWorkDir` wrote its `workDir` while it was leased. -/
structure Claim where
  runId : String
  target : RemovalTarget
  deriving DecidableEq

structure Shared where
  world : Capacity.World
  claims : List Claim := []

def maxAttempts : Nat := 6

inductive RemovalPhase
  | start
  | reserve
  | recheck (attempt : Nat)
  | removing (attempt : Nat)
  | release
  | handOff
  | finished
  deriving DecidableEq

def RemovalPhase.reserved : RemovalPhase → Bool
  | recheck _ | removing _ | release | handOff => true
  | start | reserve | finished => false

inductive ResolvePhase
  | start
  | source
  | claim (wsPath : String)
  | create (wsPath : String)
  | rollback
  | returned (wsPath : String)
  | threw (message : String)
  deriving DecidableEq

inductive Task
  | queue (task : Capacity.Task)
  | removal (r : GuardedRemoval) (phase : RemovalPhase)
  | resolve (call : ResolveCall) (phase : ResolvePhase)

structure Thread where
  process : Nat
  task : Task

structure Choice where
  moment : Capacity.Moment
  succeeds : Bool := true
  dbFails : Bool := false

/-- A failed attempt.  The owner of a workload retries within its budget; everybody hands off
what may be half removed, and releases what was blocked. -/
def afterFailure (r : GuardedRemoval) (attempt : Nat) (blocked : Bool) : RemovalPhase :=
  match r.ownedWorkload with
  | some _ => if attempt < maxAttempts then .recheck (attempt + 1) else .handOff
  | none => if blocked then .release else .handOff

section Program

variable (defaultWorkspacesPath : String → String)

def actRemoval (host : Host) (c : Choice) (db : Db) (r : GuardedRemoval) : RemovalPhase → Option (Db × RemovalPhase)
  | .start => some (db, if host.hasLostHeartbeatOwnership then .finished else .reserve)
  | .reserve =>
    if c.dbFails then some (db, .finished)
    else match reserveRemoval defaultWorkspacesPath host db r with
      | .error _ => some (db, .finished)
      | .ok db' => some (db', .recheck 1)
  | .recheck attempt =>
    if c.dbFails then some (db, afterFailure r attempt false)
    else match checkRemoval defaultWorkspacesPath host db r with
      | .error _ => some (db, afterFailure r attempt true)
      | .ok _ => some (db, .removing attempt)
  | .removing attempt =>
    some (db, if c.succeeds then .release else afterFailure r attempt false)
  | .release =>
    if c.dbFails then some (db, .release)
    else some (releaseWorkspaceRemovalReservation db r, .finished)
  | .handOff =>
    if c.dbFails then some (db, .handOff) else some (handOffWorkspaceRemoval db r, .finished)
  | .finished => none

def actResolve (c : Choice) (db : Db) (call : ResolveCall) : ResolvePhase → Option (Db × ResolvePhase)
  | .start =>
    let bound := (db.agents.find? call.agentId).any fun a =>
      a.workspaceType = .scm && a.scmSourceId = some call.scmSourceId
    let name := call.name
    if !bound then some (db, .threw "Agent SCM binding changed before workload admission")
    else if !isWorktreeName name then some (db, .threw s!"Invalid worktree name: {name}")
    else some (db, .source)
  | .source =>
    let sourceId := call.scmSourceId
    match db.scmSources.find? sourceId with
    | none => some (db, .threw s!"SCM source '{sourceId}' not found")
    | some s =>
      if s.type = .git then
        some (db, .claim (joinPath (s.paths defaultWorkspacesPath).wsRoot call.name))
      else some (db, .threw "SCM type 'p4' does not support workspaces")
  | .claim wsPath =>
    if c.dbFails then some (db, .threw "transaction failed")
    else match claimWorktree db call wsPath with
      | .error message => some (db, .threw message)
      | .ok db' => some (db', .create wsPath)
  | .create wsPath => some (db, if c.succeeds then .returned wsPath else .rollback)
  | .rollback =>
    some (if c.dbFails then db else db.setWorkDir call.runId none, .threw "createWorkspace failed")
  | .returned _ => none
  | .threw _ => none

def inForce (db : Db) (c : Claim) : Bool :=
  leasedOn db c.runId c.target.scmSourceId && occupies defaultWorkspacesPath db c.runId c.target

def Shared.commit (s : Shared) (world : Capacity.World) (claims : List Claim) : Shared :=
  ⟨world, (claims ++ s.claims).filter (inForce defaultWorkspacesPath world.db)⟩

def newClaims (call : ResolveCall) : ResolvePhase → ResolvePhase → List Claim
  | .claim _, .create _ => [⟨call.runId, call.target⟩]
  | _, _ => []

def act (s : Shared) (t : Thread) (c : Choice) : Option (Shared × Thread) :=
  match t.task with
  | .queue task =>
    (Capacity.act s.world ⟨t.process, task⟩ c.moment).map fun (world, t') =>
      (s.commit defaultWorkspacesPath world [], ⟨t'.process, .queue t'.task⟩)
  | .removal r phase => s.world.processes[t.process]?.bind fun p =>
    (actRemoval defaultWorkspacesPath (p.at c.moment).host c s.world.db r phase).map
      fun (db, phase') => (s.commit defaultWorkspacesPath { s.world with db := db } [],
        { t with task := .removal r phase' })
  | .resolve call phase =>
    (actResolve defaultWorkspacesPath c s.world.db call phase).map fun (db, phase') =>
      (s.commit defaultWorkspacesPath { s.world with db := db } (newClaims call phase phase'),
        { t with task := .resolve call phase' })

def Task.token : Task → Option String
  | removal r _ => some r.attemptToken
  | queue _ | resolve _ _ => none

/-- Calls start at their beginning; a remover has built its `GitScmSource`, and its token is
new. -/
def starts (s : Shared) (threads : List Thread) (t : Thread) : Bool :=
  match t.task with
  | .queue task => Capacity.starts s.world.db task
  | .removal r phase => phase = .start &&
    sourcePaths defaultWorkspacesPath s.world.db r.target.scmSourceId = some r.scm &&
    threads.all fun u => u.task.token ≠ some r.attemptToken
  | .resolve _ phase => phase = .start

def system : Pool.Program Shared Thread Choice where
  start := starts defaultWorkspacesPath
  act := act defaultWorkspacesPath

end Program

abbrev State := Pool Shared Thread

section RemovalStep

variable (defaultWorkspacesPath : String → String) (host : Host) (db : Db) (r : GuardedRemoval)

inductive RemovalStep : RemovalPhase → Db → RemovalPhase → Prop
  | refuses : host.hasLostHeartbeatOwnership = true → RemovalStep .start db .finished
  | begins : host.hasLostHeartbeatOwnership = false → RemovalStep .start db .reserve
  | aborts : RemovalStep .reserve db .finished
  | reserves {db'} : reserveRemoval defaultWorkspacesPath host db r = .ok db' → RemovalStep .reserve db' (.recheck 1)
  | checks {attempt} : checkRemoval defaultWorkspacesPath host db r = .ok () →
      RemovalStep (.recheck attempt) db (.removing attempt)
  | checkFails {attempt blocked phase'} : phase' = afterFailure r attempt blocked →
      RemovalStep (.recheck attempt) db phase'
  | removes {attempt} : RemovalStep (.removing attempt) db .release
  | removalFails {attempt phase'} : phase' = afterFailure r attempt false → RemovalStep (.removing attempt) db phase'
  | releases : RemovalStep .release (releaseWorkspaceRemovalReservation db r) .finished
  | handsOff : RemovalStep .handOff (handOffWorkspaceRemoval db r) .finished
  | retries {phase} : phase = .release ∨ phase = .handOff → RemovalStep phase db phase

end RemovalStep

section Reservation

variable {defaultWorkspacesPath : String → String} {s s' : Shared} {t t' : Thread} {c : Choice}

def Holds (db : Db) (r : GuardedRemoval) : Prop :=
  ∃ row, db.scmWorkspaceRemovals.find? r.target = some row ∧ row.attemptToken = r.attemptToken

/-- The worktree of a removal is where its source has it; while its reservation is committed, it
is the only one of the target and no run but the excluded owner has a claim. -/
def Reserved (defaultWorkspacesPath : String → String) (s : Shared) : Task → Prop
  | .removal r phase =>
    sourcePaths defaultWorkspacesPath s.world.db r.target.scmSourceId = some r.scm ∧
      (phase.reserved = true → Holds s.world.db r ∧ ∀ c ∈ s.claims, c.target = r.target → r.excludes c.runId = true)
  | .queue _ | .resolve _ _ => True

def Claimed (defaultWorkspacesPath : String → String) (s : Shared) : Prop :=
  ∀ c ∈ s.claims, inForce defaultWorkspacesPath s.world.db c = true

theorem claimed_commit (s : Shared) (world : Capacity.World) (claims : List Claim) :
    Claimed defaultWorkspacesPath (s.commit defaultWorkspacesPath world claims) :=
  fun _ hc => (List.mem_filter.mp hc).2

theorem mem_commit {world : Capacity.World} {claims : List Claim} {d : Claim}
    (h : d ∈ (s.commit defaultWorkspacesPath world claims).claims) : d ∈ claims ∨ d ∈ s.claims :=
  List.mem_append.mp (List.mem_filter.mp h).1

theorem Reserved.mono {task : Task} (h : Reserved defaultWorkspacesPath s task)
    (hpaths : ∀ sourceId, sourcePaths defaultWorkspacesPath s'.world.db sourceId =
      sourcePaths defaultWorkspacesPath s.world.db sourceId)
    (hkeep : ∀ r phase, task = .removal r phase → Holds s.world.db r →
      Holds s'.world.db r ∧ ∀ d ∈ s'.claims, d.target = r.target → d ∈ s.claims) :
    Reserved defaultWorkspacesPath s' task := by
  cases task with
  | removal r phase =>
    obtain ⟨hscm, hres⟩ := h
    refine ⟨(hpaths _).trans hscm, fun hp => ?_⟩
    obtain ⟨hholds, hclaims⟩ := hres hp
    obtain ⟨hholds', hsub⟩ := hkeep r phase rfl hholds
    exact ⟨hholds', fun d hd htarget => hclaims d (hsub d hd htarget) htarget⟩
  | queue task => trivial
  | resolve call phase => trivial

variable {db db' : Db} {r : GuardedRemoval}

theorem Holds.congr
    (h : db'.scmWorkspaceRemovals = db.scmWorkspaceRemovals) (hr : Holds db r) : Holds db' r := by
  rw [Holds, h]
  exact hr

theorem afterFailure_cases (r : GuardedRemoval) (attempt : Nat) (blocked : Bool) :
    afterFailure r attempt blocked = .recheck (attempt + 1) ∨
      afterFailure r attempt blocked = .handOff ∨ afterFailure r attempt blocked = .release := by
  unfold afterFailure
  split
  · split
    · exact .inl rfl
    · exact .inr (.inl rfl)
  · cases blocked
    · exact .inr (.inl rfl)
    · exact .inr (.inr rfl)

variable {phase phase' : RemovalPhase} {host : Host}

theorem actRemoval_step
    (h : actRemoval defaultWorkspacesPath host c db r phase = some (db', phase')) :
    RemovalStep defaultWorkspacesPath host db r phase db' phase' := by
  cases phase with
  | start =>
    cases h
    split
    · rename_i hlost
      exact .refuses hlost
    · rename_i howned
      exact .begins (by simpa using howned)
  | reserve =>
    simp only [actRemoval] at h
    split at h
    · cases h
      exact .aborts
    split at h
    · cases h
      exact .aborts
    · rename_i hres
      cases h
      exact .reserves hres
  | recheck attempt =>
    simp only [actRemoval] at h
    split at h
    · cases h
      exact .checkFails rfl
    split at h
    · cases h
      exact .checkFails rfl
    · rename_i hcheck
      cases h
      exact .checks hcheck
  | removing attempt =>
    cases h
    split
    · exact .removes
    · exact .removalFails rfl
  | release =>
    simp only [actRemoval] at h
    split at h
    · cases h
      exact .retries (.inl rfl)
    · cases h
      exact .releases
  | handOff =>
    simp only [actRemoval] at h
    split at h
    · cases h
      exact .retries (.inr rfl)
    · cases h
      exact .handsOff
  | finished => cases h

theorem actRemoval_cases
    (h : actRemoval defaultWorkspacesPath host c db r phase = some (db', phase')) :
    (phase = .reserve ∧ reserveRemoval defaultWorkspacesPath host db r = .ok db') ∨
    (db' = db ∧ (phase'.reserved = true → phase.reserved = true)) ∨
    (phase'.reserved = false ∧
      (db' = releaseWorkspaceRemovalReservation db r ∨ db' = handOffWorkspaceRemoval db r)) := by
  cases actRemoval_step h with
  | reserves hres => exact .inl ⟨rfl, hres⟩
  | releases => exact .inr (.inr ⟨rfl, .inl rfl⟩)
  | handsOff => exact .inr (.inr ⟨rfl, .inr rfl⟩)
  | refuses | begins | aborts => exact .inr (.inl ⟨rfl, fun hres => (by cases hres)⟩)
  | checks | checkFails | removes | removalFails => exact .inr (.inl ⟨rfl, fun _ => rfl⟩)
  | retries => exact .inr (.inl ⟨rfl, fun hres => hres⟩)

theorem sourcePaths_actRemoval
    (h : actRemoval defaultWorkspacesPath host c db r phase = some (db', phase'))
    (sourceId : String) : sourcePaths defaultWorkspacesPath db' sourceId =
      sourcePaths defaultWorkspacesPath db sourceId := by
  obtain ⟨-, hres⟩ | ⟨rfl, -⟩ | ⟨-, rfl | rfl⟩ := actRemoval_cases h
  · obtain ⟨-, removals, -, rfl⟩ := reserveRemoval_ok hres
    rfl
  · rfl
  · rfl
  · rfl

theorem holds_actRemoval {r r' : GuardedRemoval}
    (hne : r.attemptToken ≠ r'.attemptToken)
    (h : actRemoval defaultWorkspacesPath host c db r phase = some (db', phase'))
    (hholds : Holds db r') : Holds db' r' := by
  obtain ⟨row, hrow, htoken⟩ := hholds
  obtain ⟨-, hres⟩ | ⟨rfl, -⟩ | ⟨-, rfl | rfl⟩ := actRemoval_cases h
  · obtain ⟨-, removals, hins, rfl⟩ := reserveRemoval_ok hres
    exact ⟨row, Table.find?_insert_of_some hins hrow, htoken⟩
  · exact ⟨row, hrow, htoken⟩
  · refine ⟨row, ?_, htoken⟩
    have hother : r.owns row = false := by
      simp [GuardedRemoval.owns, htoken, Ne.symm hne]
    simp [releaseWorkspaceRemovalReservation, hrow, hother]
  · have hother : r.owns row = false := by
      simp [GuardedRemoval.owns, htoken, Ne.symm hne]
    exact ⟨row, by simp [handOffWorkspaceRemoval, hrow, hother], htoken⟩

theorem actResolve_cases {call : ResolveCall} {phase phase' : ResolvePhase}
    (h : actResolve defaultWorkspacesPath c db call phase = some (db', phase')) :
    (∃ wsPath, phase = .claim wsPath ∧ phase' = .create wsPath ∧
      findPendingWorkspaceRemoval db call.scmSourceId call.name = none ∧
      db' = db.setWorkDir call.runId (some wsPath)) ∨
    (newClaims call phase phase' = [] ∧ (∀ wsPath, phase' ≠ .create wsPath) ∧
      (db' = db ∨ db' = db.setWorkDir call.runId none) ∧
      ∀ wsPath, phase' = .claim wsPath →
        worktreePath defaultWorkspacesPath db call.target = some wsPath ∧ db' = db) := by
  cases phase with
  | start =>
    simp only [actResolve] at h
    repeat (first | (cases h; exact .inr ⟨rfl, by simp, .inl rfl, by simp⟩) | split at h)
  | source =>
    simp only [actResolve] at h
    split at h
    · cases h
      exact .inr ⟨rfl, by simp, .inl rfl, by simp⟩
    · rename_i source hsource
      split at h
      · cases h
        refine .inr ⟨rfl, by simp, .inl rfl, ?_⟩
        rintro wsPath hphase
        cases hphase
        exact ⟨by simp [worktreePath, ResolveCall.target, hsource], rfl⟩
      · cases h
        exact .inr ⟨rfl, by simp, .inl rfl, by simp⟩
  | claim wsPath =>
    simp only [actResolve] at h
    split at h
    · cases h
      exact .inr ⟨rfl, by simp, .inl rfl, by simp⟩
    · split at h
      · cases h
        exact .inr ⟨rfl, by simp, .inl rfl, by simp⟩
      · rename_i db₁ hclaim
        cases h
        obtain ⟨hnone, rfl⟩ := claimWorktree_ok hclaim
        exact .inl ⟨wsPath, rfl, rfl, hnone, rfl⟩
  | create wsPath =>
    cases h
    refine .inr ⟨?_, ?_, .inl rfl, ?_⟩ <;> split <;> simp [newClaims]
  | rollback =>
    cases h
    refine .inr ⟨rfl, by simp, ?_, by simp⟩
    split
    · exact .inl rfl
    · exact .inr rfl
  | returned wsPath => cases h
  | threw message => cases h

theorem sameScm_actResolve {call : ResolveCall} {phase phase' : ResolvePhase}
    (h : actResolve defaultWorkspacesPath c db call phase = some (db', phase')) :
    SameScm db db' := by
  obtain ⟨wsPath, -, -, -, rfl⟩ | ⟨-, -, rfl | rfl, -⟩ := actResolve_cases h
  · exact sameScm_setWorkDir _ _ _
  · exact ⟨rfl, fun _ _ => rfl⟩
  · exact sameScm_setWorkDir _ _ _

end Reservation

section Step

variable {defaultWorkspacesPath : String → String} {s s' : Shared} {t t' u : Thread} {c : Choice}

theorem act_cases (h : act defaultWorkspacesPath s t c = some (s', t')) :
    (∃ task task' p p' db', t.task = .queue task ∧ t'.task = .queue task' ∧ s.world.processes[t.process]? = some p ∧
      Capacity.actTask (p.at c.moment) s.world.db task = some (db', p', task') ∧
      s' = s.commit defaultWorkspacesPath ⟨db', s.world.processes.set t.process p'⟩ []) ∨
    (∃ r phase phase' host db', t.task = .removal r phase ∧ t'.task = .removal r phase' ∧
      actRemoval defaultWorkspacesPath host c s.world.db r phase = some (db', phase') ∧
      s' = s.commit defaultWorkspacesPath { s.world with db := db' } []) ∨
    (∃ call phase phase' db', t.task = .resolve call phase ∧ t'.task = .resolve call phase' ∧
      actResolve defaultWorkspacesPath c s.world.db call phase = some (db', phase') ∧
      s' = s.commit defaultWorkspacesPath { s.world with db := db' }
        (newClaims call phase phase')) := by
  unfold act at h
  split at h
  · rename_i task htask
    obtain ⟨⟨world, t₁⟩, hact, heq⟩ := Option.map_eq_some_iff.mp h
    cases heq
    obtain ⟨p, hp, hact'⟩ := Option.bind_eq_some_iff.mp hact
    obtain ⟨⟨db', p', task'⟩, htask', heq'⟩ := Option.map_eq_some_iff.mp hact'
    cases heq'
    exact .inl ⟨task, task', p, p', db', htask, rfl, hp, htask', rfl⟩
  · rename_i r phase htask
    obtain ⟨p, -, hact⟩ := Option.bind_eq_some_iff.mp h
    obtain ⟨⟨db', phase'⟩, hact', heq⟩ := Option.map_eq_some_iff.mp hact
    cases heq
    exact .inr (.inl ⟨r, phase, phase', _, db', htask, rfl, hact', rfl⟩)
  · rename_i call phase htask
    obtain ⟨⟨db', phase'⟩, hact, heq⟩ := Option.map_eq_some_iff.mp h
    cases heq
    exact .inr (.inr ⟨call, phase, phase', db', htask, rfl, hact, rfl⟩)

theorem token_act (h : act defaultWorkspacesPath s t c = some (s', t')) : t'.task.token = t.task.token := by
  obtain ⟨_, _, _, _, _, ht, ht', -⟩ | ⟨_, _, _, _, _, ht, ht', -⟩ | ⟨_, _, _, _, ht, ht', -⟩ :=
    act_cases h <;> rw [ht, ht'] <;> rfl

theorem claimed_act (h : act defaultWorkspacesPath s t c = some (s', t')) : Claimed defaultWorkspacesPath s' := by
  obtain ⟨_, _, _, _, _, -, -, -, -, rfl⟩ | ⟨_, _, _, _, _, -, -, -, rfl⟩ |
    ⟨_, _, _, _, -, -, -, rfl⟩ := act_cases h <;> exact claimed_commit _ _ _

theorem sourcePaths_act (h : act defaultWorkspacesPath s t c = some (s', t')) (sourceId : String) :
    sourcePaths defaultWorkspacesPath s'.world.db sourceId =
      sourcePaths defaultWorkspacesPath s.world.db sourceId := by
  obtain ⟨_, _, _, _, _, -, -, -, hact, rfl⟩ | ⟨_, _, _, _, _, -, -, hact, rfl⟩ |
    ⟨_, _, _, _, -, -, hact, rfl⟩ := act_cases h
  · exact (sameScm_actTask hact).2 _ sourceId
  · exact sourcePaths_actRemoval hact sourceId
  · exact (sameScm_actResolve hact).2 _ sourceId

theorem holds_act {r : GuardedRemoval}
    (hne : ∀ token, t.task.token = some token → token ≠ r.attemptToken)
    (h : act defaultWorkspacesPath s t c = some (s', t')) (hholds : Holds s.world.db r) :
    Holds s'.world.db r ∧ ∀ d ∈ s'.claims, d.target = r.target → d ∈ s.claims := by
  obtain ⟨_, _, _, _, _, -, -, -, hact, rfl⟩ | ⟨r₀, _, _, _, _, ht, -, hact, rfl⟩ |
    ⟨call, phase, phase', _, -, -, hact, rfl⟩ := act_cases h
  · exact ⟨hholds.congr (sameScm_actTask hact).1,
      fun d hd _ => (mem_commit hd).resolve_left (by simp)⟩
  · have hne' : r₀.attemptToken ≠ r.attemptToken := hne _ (by rw [ht]; rfl)
    exact ⟨holds_actRemoval hne' hact hholds,
      fun d hd _ => (mem_commit hd).resolve_left (by simp)⟩
  · refine ⟨hholds.congr (sameScm_actResolve hact).1, fun d hd htarget => ?_⟩
    refine (mem_commit hd).resolve_left fun hnew => ?_
    obtain ⟨wsPath, rfl, rfl, hnone, -⟩ | ⟨hnil, -⟩ := actResolve_cases hact
    · -- the claim read that the target has no reservation
      obtain ⟨row, hrow, -⟩ := hholds
      have hd' : d = ⟨call.runId, call.target⟩ := by simpa [newClaims] using hnew
      have htarget' : r.target = ⟨call.scmSourceId, call.name⟩ := by rw [← htarget, hd']; rfl
      rw [findPendingWorkspaceRemoval, ← htarget', hrow] at hnone
      cases hnone
    · rw [hnil] at hnew
      cases hnew

theorem reserved_act (hclaimed : Claimed defaultWorkspacesPath s)
    (hres : Reserved defaultWorkspacesPath s t.task)
    (h : act defaultWorkspacesPath s t c = some (s', t')) :
    Reserved defaultWorkspacesPath s' t'.task := by
  have hpaths := sourcePaths_act h
  obtain ⟨_, _, _, _, _, -, ht', -⟩ | ⟨r, phase, phase', host, db', ht, ht', hact, rfl⟩ |
    ⟨_, _, _, _, -, ht', -⟩ := act_cases h
  · rw [ht']
    trivial
  · rw [ht] at hres
    rw [ht']
    obtain ⟨hscm, hold⟩ := hres
    refine ⟨(hpaths _).trans hscm, fun hphase' => ?_⟩
    obtain ⟨-, hok⟩ | ⟨rfl, hphase⟩ | ⟨hphase, -⟩ := actRemoval_cases hact
    · -- the reservation is new: whoever has a claim was not excluded by the blockers
      obtain ⟨hcheck, removals, hins, rfl⟩ := reserveRemoval_ok hok
      refine ⟨?_, fun d hd htarget => ?_⟩
      · exact ⟨_, (Table.find?_insert hins r.target).trans (if_pos rfl), rfl⟩
      · have hforce := hclaimed d ((mem_commit hd).resolve_left (by simp))
        rw [inForce, Bool.and_eq_true, htarget] at hforce
        exact excludes_of_occupies hscm hcheck hforce.2
    · obtain ⟨hholds, hclaims⟩ := hold (hphase hphase')
      exact ⟨hholds, fun d hd htarget =>
        hclaims d ((mem_commit hd).resolve_left (by simp)) htarget⟩
    · rw [hphase] at hphase'
      cases hphase'
  · rw [ht']
    trivial

def Distinct (threads : List Thread) : Prop :=
  ∀ (i j : Nat) (t u : Thread), i ≠ j → threads[i]? = some t → threads[j]? = some u →
    ∀ token, t.task.token = some token → u.task.token ≠ some token

theorem distinct_append {threads : List Thread} (h : Distinct threads)
    (hnew : ∀ u ∈ threads, ∀ token, t.task.token = some token → u.task.token ≠ some token) :
    Distinct (threads ++ [t]) := by
  have hat : ∀ i u, (threads ++ [t])[i]? = some u → threads[i]? = some u ∨ (i = threads.length ∧ u = t) := by
    intro i u hi
    rw [List.getElem?_append] at hi
    split at hi
    · exact .inl hi
    · rename_i hlt
      rw [List.getElem?_singleton] at hi
      split at hi
      · cases hi
        exact .inr ⟨by omega, rfl⟩
      · cases hi
  intro i j t₁ t₂ hij hi hj token ht₁ ht₂
  rcases hat i t₁ hi with hi₁ | ⟨hi₁, rfl⟩ <;> rcases hat j t₂ hj with hj₁ | ⟨hj₁, rfl⟩
  · exact h i j t₁ t₂ hij hi₁ hj₁ token ht₁ ht₂
  · exact hnew t₁ (List.mem_of_getElem? hi₁) token ht₂ ht₁
  · exact hnew t₂ (List.mem_of_getElem? hj₁) token ht₁ ht₂
  · exact hij (hi₁.trans hj₁.symm)

theorem distinct_set {threads : List Thread} {i : Nat} (h : Distinct threads)
    (hi : threads[i]? = some t) (htoken : t'.task.token = t.task.token) :
    Distinct (threads.set i t') := by
  have hat : ∀ (k : Nat) (u : Thread), (threads.set i t')[k]? = some u →
      ∃ u₀ : Thread, threads[k]? = some u₀ ∧ u.task.token = u₀.task.token := by
    intro k u hk
    rw [List.getElem?_set] at hk
    split at hk
    · rename_i hik
      split at hk
      · cases hk
        exact ⟨t, hik ▸ hi, htoken⟩
      · cases hk
    · exact ⟨u, hk, rfl⟩
  intro j k t₁ t₂ hjk hj hk token ht₁ ht₂
  obtain ⟨u₁, hu₁, htoken₁⟩ := hat j t₁ hj
  obtain ⟨u₂, hu₂, htoken₂⟩ := hat k t₂ hk
  exact h j k u₁ u₂ hjk hu₁ hu₂ token (htoken₁ ▸ ht₁) (htoken₂ ▸ ht₂)

def Guarded (defaultWorkspacesPath : String → String) (s : State) : Prop :=
  Distinct s.threads ∧ Pool.Holds (Claimed defaultWorkspacesPath)
    (fun shared t => Reserved defaultWorkspacesPath shared t.task) s

theorem guarded_step {s s' : State} {e : Pool.Event Thread Choice}
    (h : Guarded defaultWorkspacesPath s)
    (hs : Pool.step (system defaultWorkspacesPath) s e = some s') :
    Guarded defaultWorkspacesPath s' := by
  obtain ⟨hdistinct, hholds⟩ := h
  refine ⟨?_, Pool.Holds.stepAt ?_ ?_ hholds hs⟩
  · obtain ⟨t, -, hstart, rfl⟩ | ⟨i, c, t, shared, t', -, hi, hact, rfl⟩ := Pool.step_cases hs
    · refine distinct_append hdistinct fun u hu token htoken => ?_
      simp only [system, starts] at hstart
      split at hstart
      · rename_i htask
        simp [htask, Task.token] at htoken
      · rename_i r phase htask
        simp only [htask, Task.token, Option.some.injEq] at htoken
        simp only [Bool.and_eq_true, List.all_eq_true, decide_eq_true_eq] at hstart
        rw [← htoken]
        exact hstart.2 u hu
      · rename_i htask
        simp [htask, Task.token] at htoken
    · exact distinct_set hdistinct hi (token_act hact)
  · intro t _ hstart
    simp only [system, starts] at hstart
    split at hstart
    · rename_i htask
      simp [htask, Reserved]
    · rename_i r phase htask
      simp only [Bool.and_eq_true, decide_eq_true_eq] at hstart
      rw [htask]
      refine ⟨hstart.1.2, fun hphase => ?_⟩
      rw [hstart.1.1] at hphase
      cases hphase
    · rename_i htask
      simp [htask, Reserved]
  · rintro i c t shared t' - hi hclaimed hres hact
    refine ⟨claimed_act hact, reserved_act hclaimed hres hact, fun j u hj hu hres' => ?_⟩
    refine hres'.mono (sourcePaths_act hact) fun r phase htask hr => ?_
    refine holds_act (fun token htoken htoken' => ?_) hact hr
    exact hdistinct i j t u (Ne.symm hj) hi hu token htoken (by rw [htask, htoken']; rfl)

end Step

section Occupancy

variable {defaultWorkspacesPath : String → String} {db db' : Db} {runId : String}
  {target : RemovalTarget}

theorem pending_actRemoval {host : Host} {c : Choice} {r : GuardedRemoval} {sourceId name : String}
    {phase phase' : RemovalPhase}
    (hscm : sourcePaths defaultWorkspacesPath db r.target.scmSourceId = some r.scm)
    (hocc : occupies defaultWorkspacesPath db runId ⟨sourceId, name⟩ = true)
    (hne : phase = .reserve → r.excludes runId = false)
    (hnone : findPendingWorkspaceRemoval db sourceId name = none)
    (h : actRemoval defaultWorkspacesPath host c db r phase = some (db', phase')) :
    findPendingWorkspaceRemoval db' sourceId name = none := by
  unfold findPendingWorkspaceRemoval at hnone ⊢
  obtain ⟨hphase, hres⟩ | ⟨rfl, -⟩ | ⟨-, rfl | rfl⟩ := actRemoval_cases h
  · obtain ⟨hcheck, removals, hins, rfl⟩ := reserveRemoval_ok hres
    refine (Table.find?_insert hins _).trans ?_
    split
    · -- the reservation would have been refused
      rename_i htarget
      have htarget' : r.target = ⟨sourceId, name⟩ := htarget
      rw [← htarget'] at hocc
      have := excludes_of_occupies hscm hcheck hocc
      rw [hne hphase] at this
      cases this
    · exact hnone
  · exact hnone
  · simp [releaseWorkspaceRemovalReservation, hnone]
  · simp [handOffWorkspaceRemoval, hnone]

theorem occupies_actRemoval {host : Host} {c : Choice} {r : GuardedRemoval}
    {phase phase' : RemovalPhase}
    (h : actRemoval defaultWorkspacesPath host c db r phase = some (db', phase')) :
    occupies defaultWorkspacesPath db' runId target = occupies defaultWorkspacesPath db runId target := by
  obtain ⟨-, hres⟩ | ⟨rfl, -⟩ | ⟨-, rfl | rfl⟩ := actRemoval_cases h
  · obtain ⟨-, removals, -, rfl⟩ := reserveRemoval_ok hres
    rfl
  · rfl
  · rfl
  · rfl

theorem occupies_actResolve {c : Choice} {call : ResolveCall} {phase phase' : ResolvePhase}
    (hne : call.runId ≠ runId)
    (h : actResolve defaultWorkspacesPath c db call phase = some (db', phase')) :
    occupies defaultWorkspacesPath db' runId target = occupies defaultWorkspacesPath db runId target := by
  have hpaths := (sameScm_actResolve h).worktreePath defaultWorkspacesPath target
  obtain ⟨wsPath, -, -, -, rfl⟩ | ⟨-, -, rfl | rfl, -⟩ := actResolve_cases h
  · exact occupies_congr hpaths (find?_setWorkDir_ne (Ne.symm hne) _) (leases_setWorkDir _ _)
  · rfl
  · exact occupies_congr hpaths (find?_setWorkDir_ne (Ne.symm hne) _) (leases_setWorkDir _ _)

end Occupancy

section Resolution

variable {defaultWorkspacesPath : String → String}

def Resolving (defaultWorkspacesPath : String → String) (s : Shared) : Task → Prop
  | .resolve call (.claim wsPath) =>
    worktreePath defaultWorkspacesPath s.world.db call.target = some wsPath
  | .resolve call (.create _) =>
    occupies defaultWorkspacesPath s.world.db call.runId call.target = true ∧
      findPendingWorkspaceRemoval s.world.db call.scmSourceId call.name = none
  | _ => True

def claimsAdmitted (db : Db) : Task → Bool
  | .resolve call (.claim _) => admitted db call.runId call.scmSourceId
  | _ => true

/-- While the worktree of a run is created, nothing ends the run or takes its directory away, the
run is not resolved a second time, and its own cleanup does not start. -/
def spares (defaultWorkspacesPath : String → String) (s : Shared) (c : Choice) (t : Thread) : Task → Bool
  | .resolve call (.create _) =>
    match t.task with
    | .queue (.commit op) => (s.world.processes[t.process]?).all fun p =>
      occupies defaultWorkspacesPath (op.commit (p.at c.moment).host s.world.db) call.runId
        call.target
    | .removal r .reserve => !r.excludes call.runId
    | .resolve call' _ => call'.runId ≠ call.runId
    | _ => true
  | _ => true

/-- What the callers of `resolveWorkDir` see to. -/
def Undisturbed (defaultWorkspacesPath : String → String) (s : State) : Pool.Event Thread Choice → Prop
  | .spawn _ => True
  | .act i c => ∀ t ∈ s.threads[i]?, claimsAdmitted s.shared.world.db t.task = true ∧
    ∀ u ∈ s.threads.eraseIdx i, spares defaultWorkspacesPath s.shared c t u.task = true

instance (s : State) (e : Pool.Event Thread Choice) : Decidable (Undisturbed defaultWorkspacesPath s e) :=
  match e with
  | .spawn _ => inferInstanceAs (Decidable True)
  | .act i _ => inferInstanceAs (Decidable (∀ t ∈ s.threads[i]?, _ ∧ ∀ u ∈ _, _))

theorem resolving_act {s s' : Shared} {t t' : Thread} {c : Choice}
    (hadm : claimsAdmitted s.world.db t.task = true)
    (hres : Resolving defaultWorkspacesPath s t.task)
    (h : act defaultWorkspacesPath s t c = some (s', t')) :
    Resolving defaultWorkspacesPath s' t'.task := by
  obtain ⟨_, _, _, _, _, -, ht', -⟩ | ⟨_, _, _, _, _, -, ht', -⟩ |
    ⟨call, phase, phase', db', ht, ht', hact, rfl⟩ := act_cases h
  · rw [ht']
    trivial
  · rw [ht']
    trivial
  · rw [ht']
    obtain ⟨wsPath, rfl, rfl, hnone, rfl⟩ | ⟨-, hcreate, -, hclaim⟩ := actResolve_cases hact
    · rw [ht] at hres hadm
      refine ⟨occupies_setWorkDir hres hadm, ?_⟩
      have hsame := sameScm_setWorkDir s.world.db call.runId (some wsPath)
      simp only [findPendingWorkspaceRemoval, Shared.commit, hsame.1]
      exact hnone
    · cases phase' with
      | claim wsPath =>
        obtain ⟨hpath, rfl⟩ := hclaim wsPath rfl
        exact hpath
      | create wsPath => exact absurd rfl (hcreate wsPath)
      | start | source | rollback | returned | threw => trivial

theorem resolving_other {s s' : Shared} {t t' : Thread} {c : Choice} {task : Task}
    (hspares : spares defaultWorkspacesPath s c t task = true)
    (hreserved : Reserved defaultWorkspacesPath s t.task)
    (hres : Resolving defaultWorkspacesPath s task)
    (h : act defaultWorkspacesPath s t c = some (s', t')) :
    Resolving defaultWorkspacesPath s' task := by
  have hpaths := sourcePaths_act h
  revert hres
  cases task with
  | queue | removal => exact fun _ => trivial
  | resolve call phase =>
    cases phase with
    | claim wsPath =>
      intro hres
      simp only [Resolving, worktreePath_eq, hpaths] at hres ⊢
      exact hres
    | create wsPath =>
      rintro ⟨hocc, hnone⟩
      simp only [spares] at hspares
      obtain ⟨task, _, p, _, db', ht, -, hp, hact, rfl⟩ | ⟨r, phase, _, host, _, ht, -, hact, rfl⟩ |
        ⟨call', _, _, _, ht, -, hact, rfl⟩ := act_cases h
      · refine ⟨?_, ?_⟩
        · by_cases hcommit : ∀ op, task ≠ .commit op
          · exact occupies_admits (admits_actTask hcommit hact) hocc
          · obtain ⟨op, rfl⟩ : ∃ op, task = .commit op := by simpa using hcommit
            cases hact
            simp only [ht, hp, Option.all_some] at hspares
            exact hspares
        · have hsame := sameScm_actTask hact
          simp only [findPendingWorkspaceRemoval, Shared.commit, hsame.1]
          exact hnone
      · rw [ht] at hreserved
        refine ⟨(occupies_actRemoval hact).trans hocc, ?_⟩
        refine pending_actRemoval hreserved.1 hocc ?_ hnone hact
        rintro rfl
        simpa [ht] using hspares
      · have hne : call'.runId ≠ call.runId := by simpa [ht] using hspares
        refine ⟨(occupies_actResolve hne hact).trans hocc, ?_⟩
        simp only [findPendingWorkspaceRemoval, Shared.commit, (sameScm_actResolve hact).1]
        exact hnone
    | start | source | rollback | returned | threw => exact fun _ => trivial

theorem resolving_step {s s' : State} {e : Pool.Event Thread Choice}
    (hok : Undisturbed defaultWorkspacesPath s e) (hg : Guarded defaultWorkspacesPath s)
    (h : Pool.Holds (fun _ => True)
      (fun shared t => Resolving defaultWorkspacesPath shared t.task) s)
    (hs : Pool.step (system defaultWorkspacesPath) s e = some s') :
    Pool.Holds (fun _ => True)
      (fun shared t => Resolving defaultWorkspacesPath shared t.task) s' := by
  refine Pool.Holds.stepAt ?_ ?_ h hs
  · intro t _ hstart
    simp only [system, starts] at hstart
    split at hstart
    · rename_i htask
      simp [htask, Resolving]
    · rename_i htask
      simp [htask, Resolving]
    · rename_i call phase htask
      have hphase : phase = .start := by simpa using hstart
      simp [htask, hphase, Resolving]
  · rintro i c t shared t' rfl hi - hres hact
    obtain ⟨hadm, hspares⟩ := hok t hi
    refine ⟨trivial, resolving_act hadm hres hact, fun j u hji hj hres' => ?_⟩
    have hu : u ∈ s.threads.eraseIdx i := List.mem_eraseIdx_iff_getElem?.mpr ⟨j, hji, hj⟩
    exact resolving_other (hspares u hu) (hg.2.2 t (List.mem_of_getElem? hi)) hres' hact

end Resolution

/-- In every interleaving the file system removal of a worktree executes only while no run but
the excluded owner has a claim on it, and no worktree is claimed between its reservation and its
release.  Where the resolutions are undisturbed, no worktree is reserved either from its claim to
the return of its path. -/
theorem removal_excludes_claims {defaultWorkspacesPath : String → String} {w : Capacity.World}
    {claims : List Claim} (hclaims : ∀ c ∈ claims, inForce defaultWorkspacesPath w.db c = true) :
    (∀ es s, run (Pool.step (system defaultWorkspacesPath)) ⟨⟨w, claims⟩, []⟩ es = some s →
      (∀ t ∈ s.threads, ∀ r attempt, t.task = .removal r (.removing attempt) →
        ∀ c ∈ s.shared.claims, c.target = r.target → r.excludes c.runId = true) ∧
      (∀ i c s' t t' call wsPath, Pool.step (system defaultWorkspacesPath) s (.act i c) = some s' →
        s.threads[i]? = some t → t.task = .resolve call (.claim wsPath) →
        s'.threads[i]? = some t' → t'.task = .resolve call (.create wsPath) →
        findPendingWorkspaceRemoval s.shared.world.db call.scmSourceId call.name = none)) ∧
    (∀ es s, Runs (Pool.step (system defaultWorkspacesPath)) (Undisturbed defaultWorkspacesPath)
        ⟨⟨w, claims⟩, []⟩ es s →
      ∀ t ∈ s.threads, ∀ call wsPath, t.task = .resolve call (.create wsPath) →
        findPendingWorkspaceRemoval s.shared.world.db call.scmSourceId call.name = none) := by
  have hinit : Guarded defaultWorkspacesPath ⟨⟨w, claims⟩, []⟩ := by
    refine ⟨fun i j t u _ hi => ?_, hclaims, by simp⟩
    simp at hi
  refine ⟨?_, ?_⟩
  · intro es s hrun
    obtain ⟨-, -, hres⟩ := (runs_free_iff.mpr hrun).invariant
      (fun _ _ _ _ hg hs => guarded_step hg hs) hinit
    refine ⟨?_, ?_⟩
    · intro t ht r attempt htask
      have hres' := hres t ht
      simp only [htask] at hres'
      exact (hres'.2 rfl).2
    · intro i c s' t t' call wsPath hstep hi htask hi' htask'
      obtain ⟨_, hev, -⟩ | ⟨_, _, t₀, shared, t₁, hev, hi₀, hact, rfl⟩ := Pool.step_cases hstep
      · cases hev
      cases hev
      cases hi.symm.trans hi₀
      have ht₁ : t₁ = t' := by
        rw [List.getElem?_set_self (List.getElem?_eq_some_iff.mp hi).1] at hi'
        exact Option.some.inj hi'
      subst ht₁
      obtain ⟨_, _, _, _, _, ht, -⟩ | ⟨_, _, _, _, _, ht, -⟩ |
        ⟨call', phase, phase', _, ht, ht', hact', -⟩ := act_cases hact
      · rw [htask] at ht
        cases ht
      · rw [htask] at ht
        cases ht
      · rw [htask] at ht
        rw [htask'] at ht'
        cases ht
        cases ht'
        obtain ⟨_, -, -, hnone, -⟩ | ⟨-, hcreate, -⟩ := actResolve_cases hact'
        · exact hnone
        · exact absurd rfl (hcreate wsPath)
  · intro es s hruns t ht call wsPath htask
    obtain ⟨-, -, hres⟩ := hruns.invariant
      (I := fun s => Guarded defaultWorkspacesPath s ∧ Pool.Holds (fun _ => True)
        (fun shared t => Resolving defaultWorkspacesPath shared t.task) s)
      (fun s e s' hok hI hs => ⟨guarded_step hI.1 hs, resolving_step hok hI.1 hI.2 hs⟩)
      ⟨hinit, trivial, by simp⟩
    have hres' := hres t ht
    simp only [htask] at hres'
    exact hres'.2

def oneWorktree : Capacity.World where
  db := {
    runs := ⟨[{ id := "run_1", status := .pending, initiatorAgentId := some "agent_1"
                worktreeConfig := some { name := "feature", cleanup := .ephemeral } }], by simp⟩
    agents := .single { id := "agent_1", workspaceType := .scm, scmSourceId := some "src_1", maxConcurrency := 1 }
    scmSources := .single { id := "src_1", type := .git, localPath := "/srv/checkout" } }
  processes := [{ host := { processInstanceId := "host-1" } }]

def manualRemoval : GuardedRemoval where
  target := ⟨"src_1", "feature"⟩
  scm := ⟨"/srv/checkout", "/srv/worktrees"⟩
  attemptToken := "token-1"

def ownedCleanup : GuardedRemoval :=
  { manualRemoval with
    ownedWorkload := some ⟨runWorkload "run_1", "host-1"⟩, attemptToken := "token-2" }

def tick (i now : Nat) : Pool.Event Thread Choice := .act i ⟨⟨now, false⟩, true, false⟩

def claimed : List (Pool.Event Thread Choice) :=
  [.spawn ⟨0, .queue (.tryAcquireSlot "agent_1" "run_1" 1 .admitRun)⟩, tick 0 1,
    .spawn ⟨0, .resolve ⟨"run_1", "agent_1", "src_1", "feature"⟩ .start⟩, tick 1 2, tick 1 3,
    tick 1 4, .spawn ⟨0, .removal manualRemoval .start⟩, tick 2 5, tick 2 6]

def cleaned : List (Pool.Event Thread Choice) :=
  claimed ++ [tick 1 7, .spawn ⟨0, .removal ownedCleanup .start⟩, tick 3 8, tick 3 9, tick 3 10]

theorem removal_excludes_claims_feature : (∃ s : State, Runs (Pool.step (system fun _ => "/srv/worktrees"))
        (Undisturbed fun _ => "/srv/worktrees") ⟨⟨oneWorktree, []⟩, []⟩ claimed s ∧
      s.threads[1]? = some ⟨0, .resolve ⟨"run_1", "agent_1", "src_1", "feature"⟩
        (.create "/srv/worktrees/feature")⟩ ∧
      findPendingWorkspaceRemoval s.shared.world.db "src_1" "feature" = none) ∧
    (∃ s : State, run (Pool.step (system fun _ => "/srv/worktrees"))
        ⟨⟨oneWorktree, []⟩, []⟩ cleaned = some s ∧
      s.shared.claims = [⟨"run_1", ⟨"src_1", "feature"⟩⟩] ∧
      s.threads[3]? = some ⟨0, .removal ownedCleanup (.removing 1)⟩ ∧
      ownedCleanup.excludes "run_1" = true) := by
  have hinit : ∀ c ∈ ([] : List Claim), inForce (fun _ => "/srv/worktrees") oneWorktree.db c = true :=
    by simp
  have hspec := removal_excludes_claims hinit
  refine ⟨?_, ?_⟩
  · have h : ∃ s : State, Runs (Pool.step (system fun _ => "/srv/worktrees"))
        (Undisturbed fun _ => "/srv/worktrees") ⟨⟨oneWorktree, []⟩, []⟩ claimed s ∧
        s.threads[1]? = some ⟨0, .resolve ⟨"run_1", "agent_1", "src_1", "feature"⟩
          (.create "/srv/worktrees/feature")⟩ := ⟨_, .of_guarded rfl, rfl⟩
    obtain ⟨s, hs, ht⟩ := h
    exact ⟨s, hs, ht, hspec.2 claimed s hs _ (List.mem_of_getElem? ht) _ _ rfl⟩
  · have h : ∃ s : State, run (Pool.step (system fun _ => "/srv/worktrees"))
        ⟨⟨oneWorktree, []⟩, []⟩ cleaned = some s ∧
        s.threads[3]? = some ⟨0, .removal ownedCleanup (.removing 1)⟩ ∧
        s.shared.claims = [⟨"run_1", ⟨"src_1", "feature"⟩⟩] := by
      refine ⟨_, rfl, rfl, ?_⟩
      decide +kernel
    obtain ⟨s, hs, ht, hclaims⟩ := h
    refine ⟨s, hs, hclaims, ht, ?_⟩
    exact (hspec.1 cleaned s hs).1 _ (List.mem_of_getElem? ht) ownedCleanup 1 rfl
      ⟨"run_1", ⟨"src_1", "feature"⟩⟩ (by rw [hclaims]; simp) rfl

end A2Wave.Exclusion
