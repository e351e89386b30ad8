import A2Wave.Evaluation.Queue
import A2Wave.Instance.Heartbeat
import A2Wave.Scm.Workload

/-! The durable SCM lease as a state machine: every transaction of
`lib/scm-workload-lifecycle.ts` and `lib/scm-lease-sweeper.ts` that reads or writes a lease,
by any number of instances in any order. -/

namespace A2Wave.LeaseMachine

open Transition Evaluation

structure World where
  db : Db := {}
  evaluationTasks : Tasks := .empty
  heartbeats : Table InstanceHeartbeat := .empty

structure Sweeper where
  host : Host
  registeredEvaluations : List String := []
  canJudgePeers : Bool
  attemptToken : ScmWorkloadIdentity → String := fun w => scmWorkloadLeaseId w

def isWorkloadLocallyActive (s : Sweeper) (w : ScmWorkloadIdentity) : Bool :=
  match w.type with
  | .run => s.host.executionLeases.any fun l => l.runId = w.workloadId
  | .evaluation => s.registeredEvaluations.contains w.workloadId

def TERMINAL_STATUSES : List RunStatus := [.completed, .failed, .cancelled]

def isWorkloadTerminal (world : World) (w : ScmWorkloadIdentity) : Bool :=
  match w.type with
  | .run => (world.db.runs.find? w.workloadId).all fun r => TERMINAL_STATUSES.contains r.status
  | .evaluation => (world.evaluationTasks.find? w.workloadId).all fun t => t.status.terminal

def isLeaseOwnerDead (lease : ScmWorkloadLease) (liveness : Table InstanceHeartbeat) (now : Nat) : Bool :=
  match lease.ownerInstanceId.filter (· ≠ "") with
  | none => true
  | some owner => isInstanceOwnerDead liveness owner lease.updatedAt now

def ephemeralWorktreeName (world : World) (w : ScmWorkloadIdentity) : Option String :=
  match w.type with
  | .evaluation => some ("eval-" ++ w.workloadId)
  | .run =>
    ((world.db.runs.find? w.workloadId).bind Run.worktreeConfig).bind fun config =>
      if config.cleanup = .ephemeral then some config.name else none

def reserveEphemeralWorktreeRemoval (s : Sweeper) (w : ScmWorkloadIdentity)
    (scmSourceId workspaceName : String) (db : Db) : Db :=
  match db.scmWorkspaceRemovals.insert
      ⟨⟨scmSourceId, workspaceName⟩, none, s.attemptToken w, s.host.now⟩ with
  | some removals => { db with scmWorkspaceRemovals := removals }
  | none => db

def ownerKeepsLease (s : Sweeper) (liveness : Table InstanceHeartbeat) (lease : ScmWorkloadLease) : Bool :=
  lease.phase = .active && lease.ownerInstanceId ≠ some s.host.processInstanceId &&
    (!s.canJudgePeers || !isLeaseOwnerDead lease liveness s.host.now)

def sweepLease (s : Sweeper) (liveness : Table InstanceHeartbeat) (world : World)
    (lease : ScmWorkloadLease) : World :=
  if ownerKeepsLease s liveness lease then world
  else if isWorkloadLocallyActive s lease.workload then world
  else if !isWorkloadTerminal world lease.workload then world
  else
    let db :=
      if lease.ownerInstanceId ≠ some s.host.processInstanceId then
        match (ephemeralWorktreeName world lease.workload).filter (· ≠ "") with
        | some name => reserveEphemeralWorktreeRemoval s lease.workload lease.scmSourceId name world.db
        | none => world.db
      else world.db
    { world with db := db.deleteLeases fun l => l.workload = lease.workload }

def sweepOrphanedScmWorkloadLeases (s : Sweeper) (world : World) : World :=
  let liveness := if s.canJudgePeers then world.heartbeats else .empty
  world.db.scmWorkloadLeases.rows.foldl (sweepLease s liveness) world

structure Write where
  run : World → World
  keeps : ∀ world, (run world).db.scmWorkloadLeases = world.db.scmWorkloadLeases

inductive Transaction
  | write (f : Write)
  | admitRun (host : Host) (w : ScmWorkloadIdentity) (agentId : String) (f : Write)
      (activates : Option String)
  | activate (f : Write) (host : Host) (w : ScmWorkloadIdentity) (ownerInstanceId : String)
  | releaseReserved (f : Write) (w : ScmWorkloadIdentity)
  | releaseRecovered (w : ScmWorkloadIdentity)
  | release (w : ScmWorkloadIdentity) (ownerInstanceId : String)
  | sweep (s : Sweeper)

def activateIn (host : Host) (w : ScmWorkloadIdentity) (owner : Option String) (world : World) :
    Except DbError World :=
  match owner with
  | none => .ok world
  | some owner =>
    (activateScmWorkloadInMutation host world.db w owner).map fun r => { world with db := r.2 }

def commit (world : World) : Transaction → Except DbError World
  | .write f => .ok (f.run world)
  | .admitRun host w agentId f activates =>
    (withScmWorkloadAdmission host world.db w agentId fun db admission => .ok (admission, db)).bind
      fun r => activateIn host w activates (f.run { world with db := r.2 })
  | .activate f host w owner => activateIn host w (some owner) (f.run world)
  | .releaseReserved f w =>
    let world := f.run world
    .ok { world with db := (releaseReservedScmWorkloadInMutation world.db w).2 }
  | .releaseRecovered w => .ok { world with db := (releaseRecoveredScmWorkload world.db w).2 }
  | .release w owner => (releaseScmWorkload world.db w owner).map fun r => { world with db := r.2 }
  | .sweep s => .ok (sweepOrphanedScmWorkloadLeases s world)

def step (world : World) (tx : Transaction) : Option World :=
  match commit world tx with
  | .ok world' => some world'
  | .error _ => some world

section Spec

variable {world world' : World} {w : ScmWorkloadIdentity} {lease : ScmWorkloadLease} {tx : Transaction}

inductive Deletes (world : World) (lease : ScmWorkloadLease) : Transaction → Prop
  | recovered : Deletes world lease (.releaseRecovered lease.workload)
  | owner {owner : String} : lease.ownerInstanceId = some owner → Deletes world lease (.release lease.workload owner)
  | swept {s : Sweeper} : (lease.ownerInstanceId = some s.host.processInstanceId ∨
        s.canJudgePeers = true ∧ isLeaseOwnerDead lease world.heartbeats s.host.now = true) →
      isWorkloadLocallyActive s lease.workload = false →
      isWorkloadTerminal world lease.workload = true → Deletes world lease (.sweep s)

theorem loadLease_workload (h : loadLease world.db w = some lease) : lease.workload = w :=
  Table.find?_some_key h

variable {v : ScmWorkloadIdentity}

theorem loadLease_activateLease_of_ne {db : Db} (hne : v ≠ w) (owner : String)
    (now : Nat) : loadLease (db.activateLease v owner now) w = loadLease db w := by
  simp only [loadLease, Db.activateLease, Table.find?_updateWhere]
  cases h : db.scmWorkloadLeases.find? w with
  | none => rfl
  | some l =>
    have hkey : l.workload = w := Table.find?_some_key h
    simp [hkey, Ne.symm hne]

theorem activate_keeps {host : Host} {db db' : Db} {owner : String} {b : Bool}
    (h : activateScmWorkloadInMutation host db v owner = .ok (b, db'))
    (hlease : loadLease db w = some lease) (hactive : lease.phase = .active) :
    loadLease db' w = some lease := by
  obtain ⟨-, ⟨-, -, rfl⟩ | ⟨l, hl, -, ⟨-, -, rfl⟩ | ⟨hphase, -, rfl⟩⟩⟩ := activate_cases h
  · exact hlease
  · exact hlease
  · by_cases hv : v = w
    · subst hv
      rw [hlease] at hl
      cases hl
      exact absurd hactive hphase
    · rw [loadLease_activateLease_of_ne hv]
      exact hlease

theorem activateIn_keeps {host : Host} {owner : Option String}
    (h : activateIn host v owner world = .ok world') (hlease : loadLease world.db w = some lease)
    (hactive : lease.phase = .active) : loadLease world'.db w = some lease := by
  cases owner with
  | none =>
    cases h
    exact hlease
  | some owner =>
    simp only [activateIn] at h
    cases hact : activateScmWorkloadInMutation host world.db v owner with
    | error e =>
      rw [hact] at h
      cases h
    | ok r =>
      rw [hact] at h
      cases h
      exact activate_keeps hact hlease hactive

theorem OnlyReserves.keeps {db db' : Db} (h : OnlyReserves db db') (hlease : loadLease db w = some lease) :
    loadLease db' w = some lease := by
  obtain ⟨extra, hrows, -⟩ := h.leases
  obtain ⟨hmem, hkey⟩ := Table.find?_eq_some_iff.mp hlease
  apply Table.find?_eq_some_iff.mpr
  rw [hrows]
  exact ⟨List.mem_append_left _ hmem, hkey⟩

theorem Write.keepsLease (f : Write) (hlease : loadLease world.db w = some lease) :
    loadLease (f.run world).db w = some lease := by
  rw [loadLease, f.keeps]
  exact hlease

theorem loadLease_deleteLeases {db : Db} (p : ScmWorkloadLease → Bool)
    (hlease : loadLease db w = some lease) :
    loadLease (db.deleteLeases p) w = if p lease then none else some lease := by
  have hdel : loadLease (db.deleteLeases p) w = (loadLease db w).filter fun l => !p l :=
    Table.find?_deleteWhere db.scmWorkloadLeases p w
  rw [hdel, hlease, Option.filter_some]
  cases p lease <;> rfl

section Sweep

variable {s : Sweeper} {liveness : Table InstanceHeartbeat}

structure SameWorkloads (world world' : World) : Prop where
  runs : world'.db.runs = world.db.runs
  evaluationTasks : world'.evaluationTasks = world.evaluationTasks

theorem SameWorkloads.isWorkloadTerminal (h : SameWorkloads world world') (v : ScmWorkloadIdentity) :
    isWorkloadTerminal world' v = LeaseMachine.isWorkloadTerminal world v := by
  simp only [LeaseMachine.isWorkloadTerminal, h.runs, h.evaluationTasks]

theorem reserveEphemeralWorktreeRemoval_frame (v : ScmWorkloadIdentity) (source name : String) (db : Db) :
    (reserveEphemeralWorktreeRemoval s v source name db).scmWorkloadLeases = db.scmWorkloadLeases ∧
      (reserveEphemeralWorktreeRemoval s v source name db).runs = db.runs := by
  unfold reserveEphemeralWorktreeRemoval
  split <;> exact ⟨rfl, rfl⟩

theorem sweepLease_cases (s : Sweeper) (liveness : Table InstanceHeartbeat) (world : World)
    (l : ScmWorkloadLease) :
    sweepLease s liveness world l = world ∨
      (ownerKeepsLease s liveness l = false ∧ isWorkloadLocallyActive s l.workload = false ∧
        isWorkloadTerminal world l.workload = true ∧
        SameWorkloads world (sweepLease s liveness world l) ∧
        (sweepLease s liveness world l).db.scmWorkloadLeases =
          world.db.scmWorkloadLeases.deleteWhere fun l' => l'.workload = l.workload) := by
  unfold sweepLease
  split
  · exact .inl rfl
  rename_i howner
  split
  · exact .inl rfl
  rename_i hlocal
  split
  · exact .inl rfl
  rename_i hterm
  refine .inr ⟨by simpa using howner, by simpa using hlocal, by simpa using hterm, ⟨?_, rfl⟩, ?_⟩
  · dsimp only [runs_deleteLeases]
    split
    · split
      · exact (reserveEphemeralWorktreeRemoval_frame _ _ _ _).2
      · rfl
    · rfl
  · dsimp only [Db.deleteLeases]
    split
    · split
      · rw [(reserveEphemeralWorktreeRemoval_frame _ _ _ _).1]
      · rfl
    · rfl

theorem sweepLease_none (l : ScmWorkloadLease) (h : loadLease world.db w = none) :
    loadLease (sweepLease s liveness world l).db w = none := by
  rcases sweepLease_cases s liveness world l with hsame | ⟨-, -, -, -, hdel⟩
  · rw [hsame]
    exact h
  · have hnone : world.db.scmWorkloadLeases.find? w = none := h
    rw [loadLease, hdel, Table.find?_deleteWhere, hnone]
    rfl

theorem foldl_sweepLease_none (rows : List ScmWorkloadLease) (h : loadLease world.db w = none) :
    loadLease (rows.foldl (sweepLease s liveness) world).db w = none := by
  induction rows generalizing world with
  | nil => exact h
  | cons l rows ih => exact ih (sweepLease_none l h)

theorem foldl_sweepLease {world₀ : World} (rows : List ScmWorkloadLease)
    (hrows : ∀ l ∈ rows, l.workload = lease.workload → l = lease)
    (hsame : SameWorkloads world₀ world) (hlease : loadLease world.db lease.workload = some lease) :
    loadLease (rows.foldl (sweepLease s liveness) world).db lease.workload = some lease ∨
      (loadLease (rows.foldl (sweepLease s liveness) world).db lease.workload = none ∧
        ownerKeepsLease s liveness lease = false ∧ isWorkloadLocallyActive s lease.workload = false ∧
        isWorkloadTerminal world₀ lease.workload = true) := by
  induction rows generalizing world with
  | nil => exact .inl hlease
  | cons l rows ih =>
    have hrest : ∀ l' ∈ rows, l'.workload = lease.workload → l' = lease :=
      fun l' hl' => hrows l' (List.mem_cons_of_mem _ hl')
    rw [List.foldl_cons]
    rcases sweepLease_cases s liveness world l with hnone | ⟨howner, hlocal, hterm, hframe, hdel⟩
    · rw [hnone]
      exact ih hrest hsame hlease
    · have hnext : SameWorkloads world₀ (sweepLease s liveness world l) :=
        ⟨hframe.runs.trans hsame.runs, hframe.evaluationTasks.trans hsame.evaluationTasks⟩
      have hload : loadLease (sweepLease s liveness world l).db lease.workload =
          if lease.workload = l.workload then none else some lease := by
        have hfind : world.db.scmWorkloadLeases.find? lease.workload = some lease := hlease
        rw [loadLease, hdel, Table.find?_deleteWhere, hfind, Option.filter_some]
        by_cases heq : lease.workload = l.workload <;> simp [heq]
      by_cases heq : l.workload = lease.workload
      · rw [if_pos heq.symm] at hload
        have hl := hrows l List.mem_cons_self heq
        subst hl
        refine .inr ⟨foldl_sweepLease_none rows hload, howner, hlocal, ?_⟩
        rw [← hsame.isWorkloadTerminal]
        exact hterm
      · rw [if_neg (Ne.symm heq)] at hload
        exact ih hrest hnext hload

theorem ownerKeepsLease_eq_false (hactive : lease.phase = .active)
    (h : ownerKeepsLease s liveness lease = false) :
    lease.ownerInstanceId = some s.host.processInstanceId ∨
      s.canJudgePeers = true ∧ isLeaseOwnerDead lease liveness s.host.now = true := by
  simpa only [ownerKeepsLease, hactive, decide_true, Bool.true_and, Bool.and_eq_false_iff, decide_eq_false_iff_not,
    not_not, Bool.or_eq_false_iff, Bool.not_eq_false', ne_eq] using h

theorem sweep_active (s : Sweeper) (hlease : loadLease world.db lease.workload = some lease)
    (hactive : lease.phase = .active) :
    loadLease (sweepOrphanedScmWorkloadLeases s world).db lease.workload = some lease ∨
      (loadLease (sweepOrphanedScmWorkloadLeases s world).db lease.workload = none ∧
        Deletes world lease (.sweep s)) := by
  have hrows : ∀ l ∈ world.db.scmWorkloadLeases.rows, l.workload = lease.workload → l = lease := by
    intro l hl hkey
    have hfind : loadLease world.db lease.workload = some l := Table.find?_eq_some_iff.mpr ⟨hl, hkey⟩
    rw [hlease] at hfind
    cases hfind
    rfl
  rcases foldl_sweepLease _ hrows ⟨rfl, rfl⟩ hlease with hkept | ⟨hnone, howner, hlocal, hterm⟩
  · exact .inl hkept
  · refine .inr ⟨hnone, .swept ?_ hlocal hterm⟩
    rcases ownerKeepsLease_eq_false hactive howner with hown | ⟨hjudge, hdead⟩
    · exact .inl hown
    · rw [if_pos hjudge] at hdead
      exact .inr ⟨hjudge, hdead⟩

end Sweep

theorem release_active {db db' : Db} {owner : String} {b : Bool}
    (h : releaseScmWorkload db v owner = .ok (b, db')) (hlease : loadLease db w = some lease)
    (hactive : lease.phase = .active) :
    loadLease db' w = some lease ∨ (loadLease db' w = none ∧ v = w ∧ lease.ownerInstanceId = some owner) := by
  unfold releaseScmWorkload at h
  split at h
  · cases h
    exact .inl hlease
  rename_i l hl
  split at h
  · cases h
  rename_i howner
  cases h
  have hkey : lease.workload = w := Table.find?_some_key hlease
  rw [loadLease_deleteLeases _ hlease, hkey]
  by_cases hv : v = w
  · subst hv
    rw [hlease] at hl
    cases hl
    refine .inr ⟨by simp, rfl, ?_⟩
    by_contra hne
    exact howner ⟨hactive, hne⟩
  · exact .inl (by simp [Ne.symm hv])

theorem admit_active {host : Host} {agentId : String} {f : Write}
    {activates : Option String} (h : commit world (.admitRun host v agentId f activates) = .ok world')
    (hlease : loadLease world.db w = some lease) (hactive : lease.phase = .active) :
    loadLease world'.db w = some lease := by
  obtain ⟨⟨admission, db⟩, hadmit, hact⟩ := bind_ok h
  obtain ⟨db₁, adm, hres, hk⟩ := admission_cases hadmit
  cases hk
  apply activateIn_keeps hact _ hactive
  apply f.keepsLease
  exact OnlyReserves.keeps hres hlease

theorem commit_active (h : commit world tx = .ok world') (hlease : loadLease world.db w = some lease)
    (hactive : lease.phase = .active) :
    loadLease world'.db w = some lease ∨ (loadLease world'.db w = none ∧ Deletes world lease tx) := by
  have hkey : lease.workload = w := loadLease_workload hlease
  cases tx with
  | write f =>
    cases h
    exact .inl (f.keepsLease hlease)
  | admitRun host v agentId f activates => exact .inl (admit_active h hlease hactive)
  | activate f host v owner =>
    have hact : activateIn host v (some owner) (f.run world) = .ok world' := h
    exact .inl (activateIn_keeps hact (f.keepsLease hlease) hactive)
  | releaseReserved f v =>
    cases h
    have hf := f.keepsLease hlease
    simp only [releaseReservedScmWorkloadInMutation, loadLease_deleteLeases _ hf]
    simp [hactive]
  | releaseRecovered v =>
    cases h
    simp only [releaseRecoveredScmWorkload, loadLease_deleteLeases _ hlease, hkey]
    by_cases hv : w = v
    · subst hv
      rw [← hkey]
      exact .inr ⟨by simp, .recovered⟩
    · exact .inl (by simp [hv])
  | release v owner =>
    simp only [commit] at h
    cases hrel : releaseScmWorkload world.db v owner with
    | error e =>
      rw [hrel] at h
      cases h
    | ok r =>
      rw [hrel] at h
      cases h
      rcases release_active hrel hlease hactive with hkept | ⟨hnone, rfl, howner⟩
      · exact .inl hkept
      · rw [← hkey]
        rw [← hkey] at hnone
        exact .inr ⟨hnone, .owner howner⟩
  | sweep s =>
    cases h
    subst hkey
    exact sweep_active s hlease hactive

theorem step_active (h : step world tx = some world') (hlease : loadLease world.db w = some lease)
    (hactive : lease.phase = .active) :
    loadLease world'.db w = some lease ∨ (loadLease world'.db w = none ∧ Deletes world lease tx) := by
  unfold step at h
  split at h
  · rename_i world₁ hcommit
    cases h
    exact commit_active hcommit hlease hactive
  · cases h
    exact .inl hlease

end Spec

def LeaseExistsAfter (w : ScmWorkloadIdentity) (world : World) (tx : Transaction) : Prop :=
  ∀ world' ∈ step world tx, (loadLease world'.db w).isSome = true

instance (w : ScmWorkloadIdentity) (world : World) (tx : Transaction) : Decidable (LeaseExistsAfter w world tx) :=
  inferInstanceAs (Decidable (∀ world' ∈ step world tx, (loadLease world'.db w).isSome = true))

theorem runs_active {w : ScmWorkloadIdentity} {lease : ScmWorkloadLease} {world world' : World}
    {txs : List Transaction} (h : Runs step (LeaseExistsAfter w) world txs world')
    (hlease : loadLease world.db w = some lease) (hactive : lease.phase = .active) :
    loadLease world'.db w = some lease := by
  refine h.invariant (I := fun world => loadLease world.db w = some lease) ?_ hlease
  intro world tx next hexists hl hstep
  rcases step_active hstep hl hactive with hkept | ⟨hnone, -⟩
  · exact hkept
  · have hsome := hexists next hstep
    rw [hnone] at hsome
    cases hsome

theorem active_scm_lease_is_protected {w : ScmWorkloadIdentity} {lease : ScmWorkloadLease} {world : World}
    (hlease : loadLease world.db w = some lease) (hactive : lease.phase = .active) :
    (∀ txs world', Runs step (LeaseExistsAfter w) world txs world' →
      ∃ lease', loadLease world'.db w = some lease' ∧ lease'.phase = .active ∧
        lease'.ownerInstanceId = lease.ownerInstanceId) ∧
    (∀ f v world', step world (.releaseReserved f v) = some world' → loadLease world'.db w = some lease) ∧
    (∀ v owner world', step world (.release v owner) = some world' →
      lease.ownerInstanceId ≠ some owner → loadLease world'.db w = some lease) ∧
    (∀ s world', step world (.sweep s) = some world' → loadLease world'.db w ≠ some lease →
      (lease.ownerInstanceId = some s.host.processInstanceId ∨
        s.canJudgePeers = true ∧ isLeaseOwnerDead lease world.heartbeats s.host.now = true) ∧
      isWorkloadLocallyActive s w = false) := by
  refine ⟨?_, ?_, ?_, ?_⟩
  · intro txs world' hrun
    exact ⟨lease, runs_active hrun hlease hactive, hactive, rfl⟩
  · intro f v world' hstep
    rcases step_active hstep hlease hactive with hkept | ⟨-, hdel⟩
    · exact hkept
    · cases hdel
  · intro v owner world' hstep hne
    rcases step_active hstep hlease hactive with hkept | ⟨-, hdel⟩
    · exact hkept
    · cases hdel with
      | owner howner => exact absurd howner hne
  · intro s world' hstep hgone
    rcases step_active hstep hlease hactive with hkept | ⟨-, hdel⟩
    · exact absurd hkept hgone
    · cases hdel with
      | swept howner hlocal hterm =>
        rw [loadLease_workload hlease] at hlocal
        exact ⟨howner, hlocal⟩

def ownedLease : ScmWorkloadLease := ⟨runWorkload "run_1", "agt", "src", .active, some "host-1", 0⟩

def owned : World :=
  { db := {
      runs := ⟨[{ id := "run_1", status := .completed }], by decide⟩
      scmWorkloadLeases := ⟨[ownedLease], by decide⟩ }
    heartbeats := ⟨[⟨"host-1", 0, 600000⟩], by decide⟩ }

def sweepBy (instanceId : String) : Sweeper :=
  { host := { processInstanceId := instanceId, now := 600000 }, canJudgePeers := true }

theorem active_scm_lease_is_protected_from_a_peer : ∃ world', Runs step (LeaseExistsAfter (runWorkload "run_1")) owned
        [.release (runWorkload "run_1") "host-2", .releaseReserved ⟨id, fun _ => rfl⟩ (runWorkload "run_1"),
          .sweep (sweepBy "host-2")] world' ∧
      ∃ lease', loadLease world'.db (runWorkload "run_1") = some lease' ∧ lease'.phase = .active ∧
        lease'.ownerInstanceId = some "host-1" :=
  have hrun := Runs.of_guarded rfl
  have hlease : loadLease owned.db (runWorkload "run_1") = some ownedLease := rfl
  ⟨_, hrun, (active_scm_lease_is_protected hlease rfl).1 _ _ hrun⟩

theorem sweep_deletes_a_lease_of_a_live_owner :
    ¬ ∀ (world : World) (s : Sweeper) (w : ScmWorkloadIdentity) (lease : ScmWorkloadLease),
      loadLease world.db w = some lease → lease.phase = .active →
      loadLease (sweepOrphanedScmWorkloadLeases s world).db w = none →
      isLeaseOwnerDead lease world.heartbeats s.host.now = true ∧ isWorkloadLocallyActive s w = false := by
  intro h
  have hdead := (h owned (sweepBy "host-1") (runWorkload "run_1") ownedLease rfl rfl (by decide +kernel)).1
  revert hdead
  decide

end A2Wave.LeaseMachine
