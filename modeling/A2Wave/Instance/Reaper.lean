import A2Wave.Instance.Heartbeat
import A2Wave.Queue.Capacity
import A2Wave.Run.Resume

/-! The two reapers of dead instances, `lib/orphaned-run-reaper.ts` and
`failScmWorkloadsOfDeadInstances` of `lib/scm-lease-sweeper.ts`, on any number of replicas.
Every await of a pass is a point where the queue, the executions, the heartbeats and the
other passes may act. -/

namespace A2Wave.Reaper

open Transition

structure Verdict (ownerInstanceId : String) where
  liveness : Table InstanceHeartbeat
  markWrittenAt : Nat
  now : Nat
  dead : isInstanceOwnerDead liveness ownerInstanceId markWrittenAt now = true

def judge (liveness : Table InstanceHeartbeat) (ownerInstanceId : String)
    (markWrittenAt now : Nat) : Option (Verdict ownerInstanceId) :=
  if h : isInstanceOwnerDead liveness ownerInstanceId markWrittenAt now = true then
    some ⟨liveness, markWrittenAt, now, h⟩
  else none

structure OrphanedRunCandidate where
  id : String
  agentId : String
  ownerInstanceId : String
  startedAt : Nat

/-- `listOrphanedRunCandidates`; rows without an agent or with an empty owner are skipped. -/
def listOrphanedRunCandidates (db : Db) : List OrphanedRunCandidate :=
  (db.runs.select fun r => orphanReapScope.statuses.contains r.status && r.ownerInstanceId.isSome).filterMap
    fun r => match r.initiatorAgentId, r.ownerInstanceId with
      | some agentId, some owner =>
        if agentId = "" ∨ owner = "" then none else some ⟨r.id, agentId, owner, r.updatedAt⟩
      | _, _ => none

structure ReapedOrphanedRun where
  runId : String
  agentId : String
  resumed : Bool
  deriving DecidableEq

structure OrphanPass where
  rest : List OrphanedRunCandidate
  liveness : Table InstanceHeartbeat
  reaped : List ReapedOrphanedRun := []

inductive OrphanPhase
  | start
  | list
  | load (candidates : List OrphanedRunCandidate)
  | scan (pass : OrphanPass)
  | reread (c : OrphanedRunCandidate) (pass : OrphanPass)
  | resume (c : OrphanedRunCandidate) (v : Verdict c.ownerInstanceId) (pass : OrphanPass)
  | requeue (c : OrphanedRunCandidate) (v : Verdict c.ownerInstanceId) (pass : OrphanPass)
  | claim (c : OrphanedRunCandidate) (v : Verdict c.ownerInstanceId) (pass : OrphanPass)
  | settle (c : OrphanedRunCandidate) (pass : OrphanPass)
  | returned (reaped : List ReapedOrphanedRun)
  | threw

/-- The moment of an action, whether this process may judge its peers, and whether the
database fails the access. -/
structure Choice where
  moment : Capacity.Moment
  canJudgePeers : Bool := true
  dbFails : Bool := false

def isRunLocallyActive (host : Host) (runId : String) : Bool :=
  host.executionLeases.any (·.runId = runId)

def OrphanPass.push (pass : OrphanPass) (c : OrphanedRunCandidate) (resumed : Bool) : OrphanPass :=
  { pass with reaped := pass.reaped ++ [⟨c.id, c.agentId, resumed⟩] }

/-- `reapOrphanedRuns`, one await at a time.  A failing access inside the loop is logged: the
resume then falls through to the claim, and the claim to the next candidate. -/
def reapOrphanedRuns (host : Host) (heartbeats : Table InstanceHeartbeat) (c : Choice) (db : Db) :
    OrphanPhase → Option (Db × OrphanPhase)
  | .start => some (db, if c.canJudgePeers then .list else .returned [])
  | .list => if c.dbFails then some (db, .threw) else match listOrphanedRunCandidates db with
    | [] => some (db, .returned [])
    | candidates => some (db, .load candidates)
  | .load candidates => some (db, if c.dbFails then .threw else .scan ⟨candidates, heartbeats, []⟩)
  | .scan pass => match pass.rest with
    | [] => some (db, .returned pass.reaped)
    | candidate :: rest =>
      let pass' := { pass with rest := rest }
      if isRunLocallyActive host candidate.id then some (db, .scan pass')
      else match judge pass.liveness candidate.ownerInstanceId candidate.startedAt host.now with
        | none => some (db, .scan pass')
        | some _ => some (db, .reread candidate pass')
  | .reread candidate pass =>
    if c.dbFails then some (db, .scan pass)
    else match judge heartbeats candidate.ownerInstanceId candidate.startedAt host.now with
      | none => some (db, .scan pass)
      | some v => some (db, .resume candidate v pass)
  | .resume candidate v pass =>
    let code := FailureReason.instanceStoppedDuringExec.code
    if !c.dbFails && canRequeueInterruptedRun db candidate.id code then
      some (db, .requeue candidate v pass)
    else some (db, .claim candidate v pass)
  | .requeue candidate v pass =>
    let code := FailureReason.instanceStoppedDuringExec.code
    if c.dbFails then some (db, .claim candidate v pass)
    else match requeueForResume host db candidate.id (some code) (some candidate.ownerInstanceId) with
      | (true, db') => some (db', .scan (pass.push candidate true))
      | (false, db') => some (db', .claim candidate v pass)
  | .claim candidate _ pass =>
    if c.dbFails then some (db, .scan pass)
    else match claimReapableRun host db candidate.id candidate.ownerInstanceId orphanReapScope with
      | (true, db') => some (db', .settle candidate pass)
      | (false, db') => some (db', .scan pass)
  | .settle candidate pass =>
    some (db, .scan (if c.dbFails then pass else pass.push candidate false))
  | .returned _ => none
  | .threw => none

structure LeaseMark where
  workload : ScmWorkloadIdentity
  agentId : String
  ownerInstanceId : String
  updatedAt : Nat

def activePeerLeases (db : Db) : List LeaseMark :=
  (db.scmWorkloadLeases.select (·.phase = .active)).filterMap fun l =>
    (l.ownerInstanceId.filter (· ≠ "")).map fun owner =>
      ⟨l.workload, l.agentId, owner, l.updatedAt⟩

def isTerminal : RunStatus → Bool
  | .completed | .failed | .cancelled => true
  | _ => false

def isRunTerminal (db : Db) (runId : String) : Bool :=
  match db.runs.find? runId with
  | none => true
  | some r => isTerminal r.status

structure ScmPass where
  rest : List LeaseMark
  liveness : Table InstanceHeartbeat
  now : Nat
  reaped : List (ScmWorkloadIdentity × String) := []

inductive ScmPhase
  | start
  | list
  | load (leases : List LeaseMark)
  | scan (pass : ScmPass)
  | terminal (l : LeaseMark) (pass : ScmPass)
  | reread (l : LeaseMark) (pass : ScmPass)
  | claim (l : LeaseMark) (v : Verdict l.ownerInstanceId) (pass : ScmPass)
  | settle (l : LeaseMark) (pass : ScmPass)
  | returned (reaped : List (ScmWorkloadIdentity × String))
  | threw

/-- `failScmWorkloadsOfDeadInstances`, one await at a time.  The lease of an evaluation leads
to writes of the evaluation tables only, so here the scan passes over it. -/
def failScmWorkloadsOfDeadInstances (host : Host) (heartbeats : Table InstanceHeartbeat)
    (c : Choice) (db : Db) : ScmPhase → Option (Db × ScmPhase)
  | .start => some (db, if c.canJudgePeers then .list else .returned [])
  | .list => if c.dbFails then some (db, .threw) else match activePeerLeases db with
    | [] => some (db, .returned [])
    | leases => some (db, .load leases)
  | .load leases => some (db, if c.dbFails then .threw else .scan ⟨leases, heartbeats, host.now, []⟩)
  | .scan pass => match pass.rest with
    | [] => some (db, .returned pass.reaped)
    | l :: rest =>
      let pass' := { pass with rest := rest }
      if l.workload.type = .evaluation || isRunLocallyActive host l.workload.workloadId then
        some (db, .scan pass')
      else match judge pass.liveness l.ownerInstanceId l.updatedAt pass.now with
        | none => some (db, .scan pass')
        | some _ => some (db, .terminal l pass')
  | .terminal l pass =>
    if c.dbFails then some (db, .threw)
    else if isRunTerminal db l.workload.workloadId then some (db, .scan pass)
    else some (db, .reread l pass)
  | .reread l pass =>
    if c.dbFails then some (db, .threw)
    else match judge heartbeats l.ownerInstanceId l.updatedAt host.now with
      | none => some (db, .scan pass)
      | some v => some (db, .claim l v pass)
  | .claim l _ pass =>
    if c.dbFails then some (db, .threw)
    else match claimReapableRun host db l.workload.workloadId l.ownerInstanceId scmReapScope with
      | (true, db') => some (db', .settle l pass)
      | (false, db') => some (db', .scan pass)
  | .settle l pass =>
    some (db, if c.dbFails then .threw
      else .scan { pass with reaped := pass.reaped ++ [(l.workload, l.agentId)] })
  | .returned _ => none
  | .threw => none

inductive Task
  | queue (task : Capacity.Task)
  | reapOrphanedRuns (phase : OrphanPhase)
  | failScmWorkloads (phase : ScmPhase)
  | beat (row : InstanceHeartbeat)
  | deleteHeartbeats (dead : InstanceHeartbeat → Bool)
  | finished

structure Thread where
  process : Nat
  task : Task

/-- The processes over the database, with the heartbeats that are stored now and the ones that
were stored before. -/
structure Shared where
  world : Capacity.World
  heartbeats : Table InstanceHeartbeat
  past : List (Table InstanceHeartbeat) := []

def Shared.setHeartbeats (s : Shared) (t : Table InstanceHeartbeat) : Shared :=
  { s with heartbeats := t, past := s.past ++ [s.heartbeats] }

def Shared.setDb (s : Shared) (db : Db) : Shared := { s with world := { s.world with db := db } }

def act (s : Shared) (t : Thread) (c : Choice) : Option (Shared × Thread) :=
  match t.task with
  | .queue task =>
    (Capacity.act s.world ⟨t.process, task⟩ c.moment).map fun (world, t') =>
      ({ s with world := world }, ⟨t'.process, .queue t'.task⟩)
  | .reapOrphanedRuns phase => s.world.processes[t.process]?.bind fun p =>
    (reapOrphanedRuns (p.at c.moment).host s.heartbeats c s.world.db phase).map fun (db, phase') =>
      (s.setDb db, { t with task := .reapOrphanedRuns phase' })
  | .failScmWorkloads phase => s.world.processes[t.process]?.bind fun p =>
    (failScmWorkloadsOfDeadInstances (p.at c.moment).host s.heartbeats c s.world.db phase).map
      fun (db, phase') => (s.setDb db, { t with task := .failScmWorkloads phase' })
  | .beat row => some (s.setHeartbeats (s.heartbeats.upsert row), { t with task := .finished })
  | .deleteHeartbeats dead =>
    some (s.setHeartbeats (s.heartbeats.deleteWhere dead), { t with task := .finished })
  | .finished => none

def starts (db : Db) : Task → Bool
  | .queue task => Capacity.starts db task
  | .reapOrphanedRuns .start => true
  | .reapOrphanedRuns _ => false
  | .failScmWorkloads .start => true
  | .failScmWorkloads _ => false
  | .finished => false
  | _ => true

def replicas : Pool.Program Shared Thread Choice where
  start s _ t := starts s.world.db t.task
  act := act

abbrev State := Pool Shared Thread

def row (runId : String) (s : State) : Option Run := s.shared.world.db.runs.find? runId

structure Judgement where
  runId : String
  ownerInstanceId : String
  liveness : Table InstanceHeartbeat
  markWrittenAt : Nat
  now : Nat

def Verdict.about {owner : String} (v : Verdict owner) (runId : String) : Judgement :=
  ⟨runId, owner, v.liveness, v.markWrittenAt, v.now⟩

def judgement : Task → Option Judgement
  | .reapOrphanedRuns (.resume c v _) => some (v.about c.id)
  | .reapOrphanedRuns (.requeue c v _) => some (v.about c.id)
  | .reapOrphanedRuns (.claim c v _) => some (v.about c.id)
  | .failScmWorkloads (.claim l v _) => some (v.about l.workload.workloadId)
  | _ => none

def Judgement.Sound (s : Shared) (j : Judgement) : Prop :=
  isInstanceOwnerDead j.liveness j.ownerInstanceId j.markWrittenAt j.now = true ∧
    (j.liveness = s.heartbeats ∨ j.liveness ∈ s.past)

def Task.Admits (owner : String) (r : Run) : Task → Prop
  | .reapOrphanedRuns _ => r.status = .running ∧ r.ownerInstanceId = some owner
  | .failScmWorkloads _ => (r.status = .running ∨ r.status = .pending ∨ r.status = .queued) ∧
      (r.ownerInstanceId = none ∨ r.ownerInstanceId = some owner)
  | _ => False

def Task.Stores (r : Run) : Task → Prop
  | .reapOrphanedRuns _ => r.status = .failed ∨ r.status = .queued ∧ r.ownerInstanceId = none
  | .failScmWorkloads _ => r.status = .failed
  | _ => False

section Write

variable {host : Host} {heartbeats : Table InstanceHeartbeat} {c : Choice} {db db' : Db}

structure Settles (task : Task) (j : Judgement) (db db' : Db) : Prop where
  judged : judgement task = some j
  row : ∃ r r', db.runs.find? j.runId = some r ∧ task.Admits j.ownerInstanceId r ∧
    db'.runs.find? j.runId = some r' ∧ task.Stores r'
  other : ∀ k, k ≠ j.runId → db'.runs.find? k = db.runs.find? k

theorem settles_requeue {cand : OrphanedRunCandidate} {v : Verdict cand.ownerInstanceId}
    {pass : OrphanPass} {code : Option String}
    (h : requeueForResume host db cand.id code (some cand.ownerInstanceId) = (true, db')) :
    Settles (.reapOrphanedRuns (.requeue cand v pass)) (v.about cand.id) db db' := by
  obtain ⟨hb, -⟩ | ⟨-, db₁, hcas, rfl⟩ := requeueForResume_cases h
  · cases hb
  obtain ⟨r, hr, hp, hnew, hother⟩ := Db.casRun_find? hcas
  simp only [Bool.and_eq_true, decide_eq_true_eq, Option.all_some] at hp
  exact ⟨rfl, ⟨r, _, hr, hp, hnew, .inr ⟨rfl, rfl⟩⟩, hother⟩

theorem settles_claim {task : Task} {j : Judgement} {scope : ReapRunClaimScope}
    (hjudged : judgement task = some j)
    (hadmits : ∀ r, scope.admits j.ownerInstanceId r = true → task.Admits j.ownerInstanceId r)
    (hstores : ∀ r : Run, r.status = .failed → task.Stores r)
    (h : claimReapableRun host db j.runId j.ownerInstanceId scope = (true, db')) :
    Settles task j db db' := by
  obtain ⟨hb, -⟩ | ⟨-, db₁, hcas, rfl⟩ := claimReapableRun_cases h
  · cases hb
  obtain ⟨r, hr, hp, hnew, hother⟩ := Db.casRun_find? hcas
  exact ⟨hjudged, ⟨r, _, hr, hadmits r hp, hnew, hstores _ rfl⟩, hother⟩

theorem admits_orphan {owner : String} {r : Run} (h : orphanReapScope.admits owner r = true) :
    r.status = .running ∧ r.ownerInstanceId = some owner := by
  simpa [ReapRunClaimScope.admits, orphanReapScope] using h

theorem admits_scm {owner : String} {r : Run} (h : scmReapScope.admits owner r = true) :
    (r.status = .running ∨ r.status = .pending ∨ r.status = .queued) ∧
      (r.ownerInstanceId = none ∨ r.ownerInstanceId = some owner) := by
  simpa [ReapRunClaimScope.admits, scmReapScope] using h

theorem reapOrphanedRuns_cases {phase phase' : OrphanPhase}
    (h : reapOrphanedRuns host heartbeats c db phase = some (db', phase')) :
    db' = db ∨ ∃ j, Settles (.reapOrphanedRuns phase) j db db' := by
  cases phase with
  | start | load candidates | settle cand pass => cases h; exact .inl rfl
  | list | reread cand pass =>
    simp only [reapOrphanedRuns] at h
    split at h
    · cases h; exact .inl rfl
    split at h <;> cases h <;> exact .inl rfl
  | scan pass =>
    simp only [reapOrphanedRuns] at h
    split at h
    · cases h; exact .inl rfl
    split at h
    · cases h; exact .inl rfl
    split at h <;> cases h <;> exact .inl rfl
  | resume cand v pass =>
    simp only [reapOrphanedRuns] at h
    split at h <;> cases h <;> exact .inl rfl
  | requeue cand v pass =>
    simp only [reapOrphanedRuns] at h
    split at h
    · cases h; exact .inl rfl
    split at h
    · rename_i db₁ hreq
      cases h
      exact .inr ⟨_, settles_requeue hreq⟩
    · rename_i db₁ hreq
      cases h
      obtain ⟨-, rfl⟩ | ⟨hb, -⟩ := requeueForResume_cases hreq
      · exact .inl rfl
      · cases hb
  | claim cand v pass =>
    simp only [reapOrphanedRuns] at h
    split at h
    · cases h; exact .inl rfl
    split at h
    · rename_i db₁ hclaim
      cases h
      exact .inr ⟨v.about cand.id, settles_claim rfl (fun _ => admits_orphan) (fun _ => .inl) hclaim⟩
    · rename_i db₁ hclaim
      cases h
      obtain ⟨-, rfl, -⟩ | ⟨hb, -⟩ := claimReapableRun_cases hclaim
      · exact .inl rfl
      · cases hb
  | returned reaped => cases h
  | threw => cases h

theorem failScmWorkloads_cases {phase phase' : ScmPhase}
    (h : failScmWorkloadsOfDeadInstances host heartbeats c db phase = some (db', phase')) :
    db' = db ∨ ∃ j, Settles (.failScmWorkloads phase) j db db' := by
  cases phase with
  | start | load leases | settle l pass => cases h; exact .inl rfl
  | list | terminal l pass | reread l pass =>
    simp only [failScmWorkloadsOfDeadInstances] at h
    split at h
    · cases h; exact .inl rfl
    split at h <;> cases h <;> exact .inl rfl
  | scan pass =>
    simp only [failScmWorkloadsOfDeadInstances] at h
    split at h
    · cases h; exact .inl rfl
    split at h
    · cases h; exact .inl rfl
    split at h <;> cases h <;> exact .inl rfl
  | claim l v pass =>
    simp only [failScmWorkloadsOfDeadInstances] at h
    split at h
    · cases h; exact .inl rfl
    split at h
    · rename_i db₁ hclaim
      cases h
      exact .inr ⟨v.about l.workload.workloadId, settles_claim rfl (fun _ => admits_scm) (fun _ => id) hclaim⟩
    · rename_i db₁ hclaim
      cases h
      obtain ⟨-, rfl, -⟩ | ⟨hb, -⟩ := claimReapableRun_cases hclaim
      · exact .inl rfl
      · cases hb
  | returned reaped => cases h
  | threw => cases h

end Write

section Judge

variable {host : Host} {heartbeats : Table InstanceHeartbeat} {c : Choice} {db db' : Db}
  {j : Judgement}

theorem judge_liveness {owner : String} {mark now : Nat} {v : Verdict owner}
    (h : judge heartbeats owner mark now = some v) : v.liveness = heartbeats := by
  unfold judge at h
  split at h
  · cases h
    rfl
  · cases h

theorem orphan_judgement {phase phase' : OrphanPhase}
    (h : reapOrphanedRuns host heartbeats c db phase = some (db', phase'))
    (hj : judgement (.reapOrphanedRuns phase') = some j) :
    judgement (.reapOrphanedRuns phase) = some j ∨ j.liveness = heartbeats := by
  cases phase with
  | start | load candidates =>
    cases h
    split at hj <;> cases hj
  | list | claim cand v pass =>
    simp only [reapOrphanedRuns] at h
    split at h
    · cases h; cases hj
    split at h <;> cases h <;> cases hj
  | scan pass =>
    simp only [reapOrphanedRuns] at h
    split at h
    · cases h; cases hj
    split at h
    · cases h; cases hj
    split at h <;> cases h <;> cases hj
  | reread cand pass =>
    simp only [reapOrphanedRuns] at h
    split at h
    · cases h; cases hj
    split at h
    · cases h; cases hj
    · rename_i v hv
      cases h
      cases hj
      exact .inr (judge_liveness hv)
  | resume cand v pass =>
    simp only [reapOrphanedRuns] at h
    split at h <;> cases h <;> exact .inl hj
  | requeue cand v pass =>
    simp only [reapOrphanedRuns] at h
    split at h
    · cases h; exact .inl hj
    split at h
    · cases h; cases hj
    · cases h; exact .inl hj
  | settle cand pass => cases h; cases hj
  | returned reaped => cases h
  | threw => cases h

theorem scm_judgement {phase phase' : ScmPhase}
    (h : failScmWorkloadsOfDeadInstances host heartbeats c db phase = some (db', phase'))
    (hj : judgement (.failScmWorkloads phase') = some j) :
    judgement (.failScmWorkloads phase) = some j ∨ j.liveness = heartbeats := by
  cases phase with
  | start | load leases | settle l pass =>
    cases h
    split at hj <;> cases hj
  | list | terminal l pass | claim l v pass =>
    simp only [failScmWorkloadsOfDeadInstances] at h
    split at h
    · cases h; cases hj
    split at h <;> cases h <;> cases hj
  | scan pass =>
    simp only [failScmWorkloadsOfDeadInstances] at h
    split at h
    · cases h; cases hj
    split at h
    · cases h; cases hj
    split at h <;> cases h <;> cases hj
  | reread l pass =>
    simp only [failScmWorkloadsOfDeadInstances] at h
    split at h
    · cases h; cases hj
    split at h
    · cases h; cases hj
    · rename_i v hv
      cases h
      cases hj
      exact .inr (judge_liveness hv)
  | returned reaped => cases h
  | threw => cases h

theorem judgement_dead {task : Task} (h : judgement task = some j) :
    isInstanceOwnerDead j.liveness j.ownerInstanceId j.markWrittenAt j.now = true := by
  unfold judgement at h
  split at h <;> cases h
  · exact Verdict.dead _
  · exact Verdict.dead _
  · exact Verdict.dead _
  · exact Verdict.dead _

end Judge

section Run

variable {s s' : State}

abbrev Inv : State → Prop :=
  Pool.Holds (fun _ => True) fun s t => ∀ j, judgement t.task = some j →
    j.liveness = s.heartbeats ∨ j.liveness ∈ s.past

theorem inv_step {e : Pool.Event Thread Choice} (h : Inv s) (hs : Pool.step replicas s e = some s') : Inv s' := by
  refine Pool.Holds.step ?_ ?_ h hs
  · rintro t - hstart j hj
    simp only [replicas] at hstart
    revert hstart hj
    cases t.task with
    | reapOrphanedRuns phase | failScmWorkloads phase => cases phase <;> simp [starts, judgement]
    | _ => simp [judgement]
  · rintro i c ⟨process, task⟩ w' t' rfl - - hL ha
    have hpast : ∀ (t : Table InstanceHeartbeat) (u : Thread), (∀ j, judgement u.task = some j →
          j.liveness = s.shared.heartbeats ∨ j.liveness ∈ s.shared.past) →
        ∀ j, judgement u.task = some j → j.liveness = (s.shared.setHeartbeats t).heartbeats ∨
          j.liveness ∈ (s.shared.setHeartbeats t).past := by
      intro t u hu j hj
      rcases hu j hj with heq | hmem
      · exact .inr (by simp [Shared.setHeartbeats, heq])
      · exact .inr (by simp [Shared.setHeartbeats, hmem])
    cases task with
    | queue task =>
      obtain ⟨⟨w₁, t₁⟩, -, heq⟩ := Option.map_eq_some_iff.mp ha
      cases heq
      exact ⟨trivial, by simp [judgement], fun _ _ hu => hu⟩
    | reapOrphanedRuns phase =>
      obtain ⟨p, -, h'⟩ := Option.bind_eq_some_iff.mp ha
      obtain ⟨⟨db', phase'⟩, hact, heq⟩ := Option.map_eq_some_iff.mp h'
      cases heq
      refine ⟨trivial, fun j hj => ?_, fun _ _ hu => hu⟩
      rcases orphan_judgement hact hj with hold | hnew
      · exact hL j hold
      · exact .inl hnew
    | failScmWorkloads phase =>
      obtain ⟨p, -, h'⟩ := Option.bind_eq_some_iff.mp ha
      obtain ⟨⟨db', phase'⟩, hact, heq⟩ := Option.map_eq_some_iff.mp h'
      cases heq
      refine ⟨trivial, fun j hj => ?_, fun _ _ hu => hu⟩
      rcases scm_judgement hact hj with hold | hnew
      · exact hL j hold
      · exact .inl hnew
    | beat r | deleteHeartbeats dead =>
      cases ha
      exact ⟨trivial, by simp [judgement], fun u _ hu => hpast _ u hu⟩
    | finished => cases ha

def Task.isReaper : Task → Bool
  | .reapOrphanedRuns _ => true
  | .failScmWorkloads _ => true
  | _ => false

theorem reaper_step {i : Nat} {c : Choice} {t : Thread} (ht : s.threads[i]? = some t)
    (hreaper : t.task.isReaper = true) (hs : Pool.step replicas s (.act i c) = some s') :
    s'.shared.world.db = s.shared.world.db ∨ ∃ j, Settles t.task j s.shared.world.db s'.shared.world.db := by
  obtain ⟨_, he, -⟩ | ⟨i', c', t', w', t₁, he, hi, ha, rfl⟩ := Pool.step_cases hs
  · cases he
  cases he
  obtain rfl : t = t' := Option.some.inj (ht.symm.trans hi)
  obtain ⟨process, task⟩ := t
  cases task with
  | reapOrphanedRuns phase =>
    obtain ⟨p, -, h'⟩ := Option.bind_eq_some_iff.mp ha
    obtain ⟨⟨db', phase'⟩, hact, heq⟩ := Option.map_eq_some_iff.mp h'
    cases heq
    exact reapOrphanedRuns_cases hact
  | failScmWorkloads phase =>
    obtain ⟨p, -, h'⟩ := Option.bind_eq_some_iff.mp ha
    obtain ⟨⟨db', phase'⟩, hact, heq⟩ := Option.map_eq_some_iff.mp h'
    cases heq
    exact failScmWorkloads_cases hact
  | _ => cases hreaper

theorem Task.Admits.owner {owner : String} {r : Run} {task : Task} (h : task.Admits owner r) :
    r.ownerInstanceId = none ∨ r.ownerInstanceId = some owner := by
  cases task with
  | reapOrphanedRuns phase => exact .inr h.2
  | failScmWorkloads phase => exact h.2
  | _ => cases h

end Run

/-- In every interleaving, a reaper changes a run only at a write that carries a verdict on the
run's owner, read from heartbeats that were stored, and only while the row passes the fence of
that reaper: for the orphan reaper, running and still owned by the instance judged dead; for
the reaper of SCM leases, not settled and owned by that instance or by nobody.  A run that
another instance owns is left as it is. -/
theorem reaper_fenced {w : Capacity.World} {heartbeats : Table InstanceHeartbeat}
    {es : List (Pool.Event Thread Choice)} {a b : State} {i : Nat} {c : Choice} {t : Thread}
    (ha : run (Pool.step replicas) ⟨⟨w, heartbeats, []⟩, []⟩ es = some a)
    (ht : a.threads[i]? = some t) (hreaper : t.task.isReaper = true)
    (hb : Pool.step replicas a (.act i c) = some b) (runId : String) :
    (row runId b ≠ row runId a → ∃ j r r', judgement t.task = some j ∧ j.runId = runId ∧
      j.Sound a.shared ∧ row runId a = some r ∧ t.task.Admits j.ownerInstanceId r ∧
      row runId b = some r' ∧ t.task.Stores r') ∧
    (∀ j r o, judgement t.task = some j → row runId a = some r → r.ownerInstanceId = some o →
      o ≠ j.ownerInstanceId → row runId b = row runId a) := by
  have hinv : Inv a := (runs_free_iff.mpr ha).invariant (fun _ _ _ _ hI hs => inv_step hI hs)
    ⟨trivial, by simp⟩
  have hwrite : row runId b ≠ row runId a → ∃ j r r', judgement t.task = some j ∧
      j.runId = runId ∧ j.Sound a.shared ∧ row runId a = some r ∧
      t.task.Admits j.ownerInstanceId r ∧ row runId b = some r' ∧ t.task.Stores r' := by
    intro hne
    obtain hdb | ⟨j, hsettles⟩ := reaper_step ht hreaper hb
    · exact absurd (by rw [row, row, hdb]) hne
    · have hid : j.runId = runId := by
        by_contra hid
        exact hne (hsettles.other runId (Ne.symm hid))
      subst hid
      obtain ⟨r, r', hr, hadmits, hr', hstores⟩ := hsettles.row
      have hstored := hinv.2 t (List.mem_of_getElem? ht) j hsettles.judged
      exact ⟨j, r, r', hsettles.judged, rfl, ⟨judgement_dead hsettles.judged, hstored⟩, hr, hadmits, hr', hstores⟩
  refine ⟨hwrite, fun j r o hj hr ho hne => ?_⟩
  by_contra hchanged
  obtain ⟨j', r₁, r', hj', -, -, hr₁, hadmits, -⟩ := hwrite hchanged
  obtain rfl : j = j' := Option.some.inj (hj.symm.trans hj')
  obtain rfl : r = r₁ := Option.some.inj (hr.symm.trans hr₁)
  rcases hadmits.owner with hnone | hsome
  · rw [ho] at hnone
    cases hnone
  · rw [ho] at hsome
    exact hne (Option.some.inj hsome)

/-- A scheduled run that `host-a` was executing under an SCM lease when it died, and two
replicas that see it. -/
def abandoned : Capacity.World where
  db := {
    runs := ⟨[{ id := "run_1", status := .running, initiatorAgentId := some "agent_1"
                triggerSource := some .schedule, ownerInstanceId := some "host-a" }], by simp⟩
    agents := ⟨[{ id := "agent_1", workspaceType := .scm, scmSourceId := some "src_1", maxConcurrency := 1 }], by simp⟩
    scmWorkloadLeases := ⟨[⟨runWorkload "run_1", "agent_1", "src_1", .active, some "host-a", 0⟩],
      by simp⟩ }
  processes := [{ host := { processInstanceId := "host-b" } },
    { host := { processInstanceId := "host-c" } }]

def later : Choice := { moment := ⟨1000000, false⟩ }

def refused : Choice := { moment := ⟨1000000, false⟩, dbFails := true }

def orphanClaim : List (Pool.Event Thread Choice) :=
  [.spawn ⟨0, .reapOrphanedRuns .start⟩, .act 0 later, .act 0 later, .act 0 later, .act 0 later,
    .act 0 later, .act 0 refused]

theorem reaper_fenced_orphan_claim : ∃ (a b : State) (j : Judgement),
      run (Pool.step replicas) ⟨⟨abandoned, .empty, []⟩, []⟩ orphanClaim = some a ∧
      Pool.step replicas a (.act 0 later) = some b ∧ j.ownerInstanceId = "host-a" ∧
      j.Sound a.shared ∧ (row "run_1" b).map Run.status = some .failed := by
  have h : ∃ (a b : State) (t : Thread), run (Pool.step replicas) ⟨⟨abandoned, .empty, []⟩, []⟩ orphanClaim = some a ∧
      a.threads[0]? = some t ∧ t.task.isReaper = true ∧
      (judgement t.task).map (·.ownerInstanceId) = some "host-a" ∧
      Pool.step replicas a (.act 0 later) = some b ∧
      (row "run_1" a).map Run.status = some .running ∧
      (row "run_1" b).map Run.status = some .failed :=
    ⟨_, _, _, rfl, rfl, rfl, rfl, rfl, rfl, rfl⟩
  obtain ⟨a, b, t, ha, ht, hreaper, howner, hb, hbefore, hafter⟩ := h
  have hchanged : row "run_1" b ≠ row "run_1" a := by
    intro heq
    rw [heq, hbefore] at hafter
    cases hafter
  obtain ⟨j, r, r', hj, -, hsound, -⟩ := (reaper_fenced ha ht hreaper hb "run_1").1 hchanged
  rw [hj] at howner
  exact ⟨a, b, j, ha, hb, Option.some.inj howner, hsound, hafter⟩

/-- The sweeper of `host-b` is about to claim; then `host-c` requeues the run. -/
def requeuedMeanwhile : List (Pool.Event Thread Choice) :=
  [.spawn ⟨0, .failScmWorkloads .start⟩, .spawn ⟨1, .reapOrphanedRuns .start⟩] ++
    List.replicate 6 (.act 0 later) ++ List.replicate 7 (.act 1 later)

theorem queued_run_failed_by_sweeper : ∃ a b : State,
      run (Pool.step replicas) ⟨⟨abandoned, .empty, []⟩, []⟩ requeuedMeanwhile = some a ∧
      Pool.step replicas a (.act 0 later) = some b ∧
      (a.threads[0]?).map (fun t => t.task.isReaper) = some true ∧
      (row "run_1" a).map (fun r => (r.status, r.ownerInstanceId)) = some (.queued, none) ∧
      (row "run_1" b).map Run.status = some .failed := by
  have h : ∃ a : State, run (Pool.step replicas) ⟨⟨abandoned, .empty, []⟩, []⟩ requeuedMeanwhile = some a ∧
      (a.threads[0]?).map (fun t => t.task.isReaper) = some true ∧
      (row "run_1" a).map (fun r => (r.status, r.ownerInstanceId)) = some (.queued, none) ∧
      ((Pool.step replicas a (.act 0 later)).bind (row "run_1")).map Run.status = some .failed :=
    exists_of_run_any (by decide +kernel)
  obtain ⟨a, ha, hreaper, hqueued, hfailed⟩ := h
  cases hb : Pool.step replicas a (.act 0 later) with
  | none => simp [hb] at hfailed
  | some b => exact ⟨a, b, ha, hb, hreaper, hqueued, by simpa [hb] using hfailed⟩

end A2Wave.Reaper
