import A2Wave.Lib.Transition
import A2Wave.Db.Schema

/-! `lib/instance-heartbeat.ts`: a process renews its row, fences itself when renewals stop,
and judges its peers by their rows.  Instants are milliseconds of one clock that all
processes share. -/

namespace A2Wave

def instanceDeadAfterMs : Nat := 5 * 60000

def instanceSelfFenceAfterMs : Nat := instanceDeadAfterMs - 60000

def recoveryGraceAfterBootMs : Nat := instanceDeadAfterMs

def pruneAfterMs : Nat := 24 * 60 * 60000

structure InstanceHeartbeat where
  id : String
  startedAt : Nat
  heartbeatAt : Nat
  deriving DecidableEq

instance : Keyed InstanceHeartbeat String := ⟨InstanceHeartbeat.id⟩

@[simp] theorem key_heartbeat (h : InstanceHeartbeat) : Keyed.key h = h.id := rfl

def storedInstant : Dialect → Nat → Nat
  | .sqlite, t => t / 1000 * 1000
  | .postgres, t => t

theorem lt_storedInstant (d : Dialect) (t : Nat) : t < storedInstant d t + 1000 := by
  cases d <;> simp only [storedInstant] <;> omega

structure Instance where
  id : String
  bootTime : Nat
  dialect : Dialect

def Instance.beatRow (me : Instance) (heartbeatAt : Nat) : InstanceHeartbeat :=
  ⟨me.id, storedInstant me.dialect me.bootTime, storedInstant me.dialect heartbeatAt⟩

def isInstanceOwnerDead (liveness : Table InstanceHeartbeat) (ownerInstanceId : String)
    (markWrittenAt now : Nat) : Bool :=
  match liveness.find? ownerInstanceId with
  | none => true
  | some owner =>
    if instanceDeadAfterMs < now - owner.heartbeatAt then true
    else markWrittenAt < owner.startedAt

/-- A renewal that was started; `written` once its upsert is in the database. -/
structure Attempt where
  startedAt : Nat
  written : Bool
  deriving DecidableEq

structure RenewalState where
  inFlight : Option Attempt := none
  lostOwnership : Bool := false
  lastSuccessAt : Nat
  deriving DecidableEq

def fenceIfExpired (now : Nat) (r : RenewalState) : Bool × RenewalState :=
  if r.lostOwnership then (true, r)
  else if now - r.lastSuccessAt ≤ instanceSelfFenceAfterMs then (false, r)
  else (true, { r with lostOwnership := true })

def hasLostHeartbeatOwnership (now : Nat) (r : RenewalState) : Bool := (fenceIfExpired now r).1

def canJudgePeerLiveness (me : Instance) (now : Nat) (r : RenewalState) : Bool :=
  !hasLostHeartbeatOwnership now r && recoveryGraceAfterBootMs ≤ now - me.bootTime

namespace Heartbeat

open Transition

structure State where
  now : Nat
  heartbeats : Table InstanceHeartbeat
  renewal : RenewalState

inductive Event
  | pass (ms : Nat)
  | beat
  | land
  | returned
  | failed
  | observe
  | deleteOwn
  | peerBeat (row : InstanceHeartbeat)
  | peerPrune (peer : String)

def beat (s : State) : State :=
  match fenceIfExpired s.now s.renewal with
  | (true, r) => { s with renewal := r }
  | (false, r) =>
    if r.inFlight.isSome then { s with renewal := r }
    else { s with renewal := { r with inFlight := some ⟨s.now, false⟩ } }

def land (me : Instance) (s : State) : Option State :=
  match s.renewal.inFlight with
  | some ⟨startedAt, false⟩ =>
    some { s with
      heartbeats := s.heartbeats.upsert (me.beatRow startedAt)
      renewal := { s.renewal with inFlight := some ⟨startedAt, true⟩ } }
  | _ => none

def returned (s : State) : Option State :=
  match s.renewal.inFlight with
  | some ⟨startedAt, true⟩ =>
    match fenceIfExpired s.now s.renewal with
    | (true, r) => some { s with renewal := { r with inFlight := none } }
    | (false, r) =>
      some { s with renewal := { r with inFlight := none, lastSuccessAt := startedAt } }
  | _ => none

def step (me : Instance) (s : State) : Event → Option State
  | .pass ms => some { s with now := s.now + ms }
  | .beat => some (beat s)
  | .land => land me s
  | .returned => returned s
  | .failed =>
    s.renewal.inFlight.map fun _ => { s with renewal := { s.renewal with inFlight := none } }
  | .observe => some { s with renewal := (fenceIfExpired s.now s.renewal).2 }
  | .deleteOwn => some { s with heartbeats := s.heartbeats.deleteWhere (·.id = me.id) }
  | .peerBeat row =>
    if row.id = me.id then none else some { s with heartbeats := s.heartbeats.upsert row }
  | .peerPrune peer =>
    let cutoff := s.now - pruneAfterMs
    some { s with
      heartbeats := s.heartbeats.deleteWhere fun row => row.heartbeatAt < cutoff && row.id ≠ peer }

/-- The boot beat is stored and `startInstanceHeartbeat` has been called. -/
def booted (me : Instance) (heartbeats : Table InstanceHeartbeat) (bootBeatAt startedAt : Nat) : State where
  now := startedAt
  heartbeats := heartbeats.upsert (me.beatRow bootBeatAt)
  renewal := { lastSuccessAt := startedAt }

def lost (s : State) : Bool := hasLostHeartbeatOwnership s.now s.renewal

section Fence

variable {now : Nat} {r : RenewalState}

theorem fenceIfExpired_cases (now : Nat) (r : RenewalState) :
    (fenceIfExpired now r = (true, { r with lostOwnership := true })) ∨
    (fenceIfExpired now r = (false, r) ∧ r.lostOwnership = false ∧
      now - r.lastSuccessAt ≤ instanceSelfFenceAfterMs) := by
  unfold fenceIfExpired
  by_cases hlost : r.lostOwnership
  · left
    cases r
    simp_all
  by_cases hle : now - r.lastSuccessAt ≤ instanceSelfFenceAfterMs
  · right
    simp_all
  · left
    simp [hlost, hle]

theorem hasLost_iff : hasLostHeartbeatOwnership now r = true ↔
    r.lostOwnership = true ∨ instanceSelfFenceAfterMs < now - r.lastSuccessAt := by
  unfold hasLostHeartbeatOwnership fenceIfExpired
  by_cases hlost : r.lostOwnership
  · simp [hlost]
  by_cases hle : now - r.lastSuccessAt ≤ instanceSelfFenceAfterMs
  · simp [hlost, hle]
  · simp [hlost, hle, Nat.lt_of_not_le hle]

end Fence

/-- The instants that a renewal and the stored row rest on.  A peer waits longer after the
row than the instance waits after its last success, by more than the row can lag behind. -/
structure Inv (me : Instance) (s : State) : Prop where
  success : s.renewal.lastSuccessAt ≤ s.now
  attempt : ∀ a, s.renewal.inFlight = some a → a.startedAt ≤ s.now ∧ s.renewal.lastSuccessAt ≤ a.startedAt
  row : ∀ row, s.heartbeats.find? me.id = some row → s.renewal.lastSuccessAt < row.heartbeatAt + 60000
  written : ∀ a row, s.renewal.inFlight = some a → a.written = true →
    s.heartbeats.find? me.id = some row → a.startedAt < row.heartbeatAt + 1000

section Step

variable {me : Instance} {s s' : State}

theorem Inv.fence (h : Inv me s) : Inv me { s with
    renewal := { s.renewal with lostOwnership := true } } :=
  ⟨h.success, h.attempt, h.row, h.written⟩

theorem Inv.settle (h : Inv me s) : Inv me { s with
    renewal := { s.renewal with inFlight := none } } :=
  ⟨h.success, by simp, h.row, by simp⟩

theorem Inv.heartbeats (h : Inv me s) {t : Table InstanceHeartbeat}
    (ht : ∀ row, t.find? me.id = some row → s.heartbeats.find? me.id = some row) :
    Inv me { s with heartbeats := t } :=
  ⟨h.success, h.attempt, fun row hrow => h.row row (ht row hrow),
    fun a row ha hw hrow => h.written a row ha hw (ht row hrow)⟩

theorem Inv.beat (h : Inv me s) : Inv me (beat s) := by
  unfold Heartbeat.beat
  obtain hf | ⟨hf, -, -⟩ := fenceIfExpired_cases s.now s.renewal
  · rw [hf]
    exact h.fence
  · rw [hf]
    dsimp only
    split
    · exact h
    · refine ⟨h.success, ?_, h.row, ?_⟩
      · rintro a ha
        cases ha
        exact ⟨Nat.le_refl _, h.success⟩
      · rintro a row ha hw
        cases ha
        cases hw

theorem Inv.land (h : Inv me s) (hs : land me s = some s') : Inv me s' := by
  unfold Heartbeat.land at hs
  split at hs
  · rename_i startedAt hin
    cases hs
    obtain ⟨hstarted, hle⟩ := h.attempt _ hin
    have hstored := lt_storedInstant me.dialect startedAt
    have hrow : ∀ row, (s.heartbeats.upsert (me.beatRow startedAt)).find? me.id = some row →
        row.heartbeatAt = storedInstant me.dialect startedAt := by
      intro row hfind
      have hkey : Keyed.key (me.beatRow startedAt) = me.id := rfl
      rw [Table.find?_upsert, if_pos hkey] at hfind
      cases hfind
      rfl
    refine ⟨h.success, ?_, ?_, ?_⟩
    · rintro a ha
      cases ha
      exact ⟨hstarted, hle⟩
    · intro row hfind
      rw [hrow row hfind]
      dsimp only at hle ⊢
      omega
    · rintro a row ha - hfind
      cases ha
      rw [hrow row hfind]
      exact hstored
  · cases hs

theorem Inv.returned (h : Inv me s) (hs : returned s = some s') : Inv me s' := by
  unfold Heartbeat.returned at hs
  split at hs
  · rename_i startedAt hin
    obtain hf | ⟨hf, -, -⟩ := fenceIfExpired_cases s.now s.renewal
    · rw [hf] at hs
      cases hs
      exact h.fence.settle
    · rw [hf] at hs
      cases hs
      refine ⟨(h.attempt _ hin).1, by simp, ?_, by simp⟩
      intro row hfind
      have hwritten := h.written _ row hin rfl hfind
      dsimp only at hwritten ⊢
      omega
  · cases hs

theorem Inv.step {e : Event} (h : Inv me s) (hs : step me s e = some s') : Inv me s' := by
  cases e with
  | pass ms =>
    cases hs
    refine ⟨Nat.le_trans h.success (Nat.le_add_right _ _), fun a ha => ?_, h.row, h.written⟩
    exact ⟨Nat.le_trans (h.attempt a ha).1 (Nat.le_add_right _ _), (h.attempt a ha).2⟩
  | beat =>
    cases hs
    exact h.beat
  | land => exact h.land hs
  | returned => exact h.returned hs
  | failed =>
    obtain ⟨a, -, rfl⟩ := Option.map_eq_some_iff.mp hs
    exact h.settle
  | observe =>
    cases hs
    obtain hf | ⟨hf, -, -⟩ := fenceIfExpired_cases s.now s.renewal <;> rw [hf]
    · exact h.fence
    · exact h
  | deleteOwn | peerPrune peer =>
    cases hs
    refine h.heartbeats fun row hrow => ?_
    rw [Table.find?_deleteWhere, Option.filter_eq_some_iff] at hrow
    exact hrow.1
  | peerBeat row =>
    simp only [Heartbeat.step] at hs
    split at hs
    · cases hs
    · rename_i hne
      cases hs
      refine h.heartbeats fun row' hrow => ?_
      rwa [Table.find?_upsert, key_heartbeat, if_neg hne] at hrow

theorem lost_step {e : Event} (hs : step me s e = some s') (hlost : lost s = true) : lost s' = true := by
  rw [lost, hasLost_iff] at hlost
  have hfence : fenceIfExpired s.now s.renewal = (true, { s.renewal with lostOwnership := true }) := by
    obtain hf | ⟨-, hfalse, hle⟩ := fenceIfExpired_cases s.now s.renewal
    · exact hf
    · rw [hfalse] at hlost
      rcases hlost with hlost | hlost
      · cases hlost
      · omega
  rw [lost, hasLost_iff]
  cases e with
  | pass ms =>
    cases hs
    dsimp only
    rcases hlost with hlost | hlost
    · exact .inl hlost
    · right
      omega
  | beat =>
    cases hs
    simp [beat, hfence]
  | land =>
    simp only [Heartbeat.step, land] at hs
    split at hs
    · cases hs
      exact hlost
    · cases hs
  | returned =>
    simp only [Heartbeat.step, returned] at hs
    split at hs
    · rw [hfence] at hs
      cases hs
      exact .inl rfl
    · cases hs
  | failed =>
    obtain ⟨a, -, rfl⟩ := Option.map_eq_some_iff.mp hs
    exact hlost
  | observe =>
    cases hs
    simp [hfence]
  | deleteOwn | peerPrune peer =>
    cases hs
    exact hlost
  | peerBeat row =>
    simp only [Heartbeat.step] at hs
    split at hs
    · cases hs
    · cases hs
      exact hlost

theorem inv_booted {heartbeats : Table InstanceHeartbeat} {bootBeatAt startedAt : Nat}
    (hstart : startedAt ≤ bootBeatAt + 59000) :
    Inv me (booted me heartbeats bootBeatAt startedAt) := by
  refine ⟨Nat.le_refl _, by simp [booted], fun row hrow => ?_, by simp [booted]⟩
  simp only [booted, Table.find?_upsert, key_heartbeat, Instance.beatRow, if_true, Option.some.injEq] at hrow
  subst hrow
  have hstored := lt_storedInstant me.dialect bootBeatAt
  simp only [booted]
  omega

theorem Inv.lost_of_stale (h : Inv me s) {row : InstanceHeartbeat}
    (hrow : s.heartbeats.find? me.id = some row)
    (hstale : instanceDeadAfterMs < s.now - row.heartbeatAt) : lost s = true := by
  have hlag := h.row row hrow
  have hdead : instanceDeadAfterMs = 300000 := rfl
  have hself : instanceSelfFenceAfterMs = 240000 := rfl
  have hexpired : instanceSelfFenceAfterMs < s.now - s.renewal.lastSuccessAt := by omega
  rw [lost, hasLost_iff]
  exact .inr hexpired

end Step

/-- In every schedule of renewals, an instance that a peer judges dead by its stored row, for a
mark that is not older than the boot that row records, has lost its ownership already; and
ownership that is lost is never owned again. -/
theorem lost_before_judged_dead {me : Instance} {heartbeats : Table InstanceHeartbeat}
    {bootBeatAt startedAt : Nat} (hstart : startedAt ≤ bootBeatAt + 59000) {es : List Event}
    {s : State} (h : run (step me) (booted me heartbeats bootBeatAt startedAt) es = some s) :
    (∀ row markWrittenAt, s.heartbeats.find? me.id = some row → row.startedAt ≤ markWrittenAt →
      isInstanceOwnerDead s.heartbeats me.id markWrittenAt s.now = true → lost s = true) ∧
    (∀ fs s', run (step me) s fs = some s' → lost s = true → lost s' = true) := by
  have hinv : Inv me s :=
    (runs_free_iff.mpr h).invariant (fun _ _ _ _ hI hs => hI.step hs) (inv_booted hstart)
  refine ⟨fun row markWrittenAt hrow hmark hdead => ?_, fun fs s' hrun hlost => ?_⟩
  · simp only [isInstanceOwnerDead, hrow] at hdead
    split at hdead
    · rename_i hstale
      exact hinv.lost_of_stale hrow hstale
    · exact absurd (of_decide_eq_true hdead) (Nat.not_lt.mpr hmark)
  · exact (runs_free_iff.mpr hrun).invariant (I := fun s => lost s = true)
      (fun _ _ _ _ hI hs => lost_step hs hI) hlost

def host1 : Instance := ⟨"host-1", 1000000, .sqlite⟩

theorem lost_before_judged_dead_silent : ∃ s, run (step host1) (booted host1 .empty 1000500 1001000)
        [.beat, .failed, .pass 300000, .beat] = some s ∧
      isInstanceOwnerDead s.heartbeats "host-1" 1002000 s.now = true ∧ lost s = true := by
  have h : ∃ s, run (step host1) (booted host1 .empty 1000500 1001000)
        [.beat, .failed, .pass 300000, .beat] = some s ∧
      s.heartbeats.find? "host-1" = some ⟨"host-1", 1000000, 1000000⟩ ∧
      isInstanceOwnerDead s.heartbeats "host-1" 1002000 s.now = true :=
    ⟨_, rfl, by decide, by decide⟩
  obtain ⟨s, hrun, hrow, hdead⟩ := h
  have hlost := (lost_before_judged_dead (by omega) hrun).1 _ 1002000 hrow (by simp) hdead
  exact ⟨s, hrun, hdead, hlost⟩

theorem judged_dead_while_owned : ∃ s, run (step host1) (booted host1 .empty 1000500 1001000)
        [.beat, .land, .pass 100, .returned] = some s ∧
      (s.heartbeats.find? "host-1").isSome ∧
      isInstanceOwnerDead s.heartbeats "host-1" 900000 s.now = true ∧ lost s = false :=
  ⟨_, rfl, by decide, by decide, by decide⟩

end Heartbeat

end A2Wave
