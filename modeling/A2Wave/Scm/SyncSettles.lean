import A2Wave.Scm.CheckoutLock
import A2Wave.Scm.SyncClaim

/-! One call of `syncScmSource` with all its options, among everything that others do between its awaits: the entry
of `busyCheckouts` and the `syncing` status that it answers for. -/

namespace A2Wave.SyncSettles

open Transition Checkout

structure SyncOptions where
  statusAlreadyAcquired : Bool := false
  checkoutAlreadyAcquired : Bool := false

/-- `lock` and `claim`: the entry of the set, and the status of the row, are on the account of the call. -/
structure State where
  db : Db
  busy : BusyCheckouts
  phase : SyncPhase
  lock : Bool
  claim : Bool
  admissionFailed : Bool := false
  stranded : Bool := false

inductive Event
  | others (db : Db) (busy : BusyCheckouts) (lock claim : Bool)
  | act (host : Host) (c : SyncChoice)

def endsClaim : SyncPhase → Bool
  | .refused _ | .resetStatus | .settle => true
  | .claim | .lock | .unclaim | .admission | .admitted _ | .stillExists | .syncing _ | .synced _ _ | .handOff
  | .indexing _ | .indexed _ _ | .finalizeIndex _ _ | .release | .caught | .returned => false

def isAdmission : SyncPhase → Bool
  | .admission => true
  | .claim | .lock | .unclaim | .admitted _ | .stillExists | .refused _ | .syncing _ | .synced _ _ | .resetStatus
  | .handOff | .indexing _ | .indexed _ _ | .finalizeIndex _ _ | .settle | .release | .caught | .returned => false

section Call

variable (scmReclaimRoots : List String) (sourceId : String) (options : SyncOptions)

def SyncOptions.body : SyncCall := ⟨sourceId, options.statusAlreadyAcquired⟩

def runSyncScmSource (host : Host) (db : Db) (busy : BusyCheckouts) : State :=
  let (busy', phase) := enterSync host busy ⟨sourceId, options.checkoutAlreadyAcquired⟩
  { db := db, busy := busy', phase := phase
    lock := sourceId ∈ busy' && (options.checkoutAlreadyAcquired || phase.holdsLock)
    claim := options.statusAlreadyAcquired && claimed db sourceId }

def step (s : State) : Event → Option State
  | .others db busy lock claim =>
    some { s with
      db := db
      busy := busy
      lock := s.lock && lock && sourceId ∈ busy
      claim := s.claim && claim && claimed db sourceId }
  | .act host c =>
    (actSync scmReclaimRoots host c s.db s.busy (options.body sourceId) s.phase).map fun (db, busy, phase) =>
      { db := db, busy := busy, phase := phase, lock := s.lock && sourceId ∈ busy
        claim := (s.claim || phase.claims (options.body sourceId)) && claimed db sourceId
        admissionFailed := s.admissionFailed || c.dbFails && isAdmission s.phase
        stranded := s.stranded || c.dbFails && endsClaim s.phase }

structure Settles (s : State) : Prop where
  lock : s.lock = false
  claim : s.admissionFailed = false → s.stranded = false → s.claim = false

def entered : SyncPhase → Bool
  | .claim | .lock | .unclaim => false
  | .admission | .admitted _ | .stillExists | .refused _ | .syncing _ | .synced _ _ | .resetStatus | .handOff
  | .indexing _ | .indexed _ _ | .finalizeIndex _ _ | .settle | .release | .caught | .returned => true

structure Inv (s : State) : Prop where
  entered : entered s.phase = true
  lock : s.lock = true → s.phase.holdsLock = true
  claim : s.claim = true → s.phase.claims (options.body sourceId) = true ∨ s.admissionFailed = true ∨ s.stranded = true

end Call

section Act

variable {scmReclaimRoots : List String} {host : Host} {c : SyncChoice} {db db' : Db} {busy busy' : BusyCheckouts}
  {call : SyncCall} {phase phase' : SyncPhase} {sourceId : String} {f : ScmSource → ScmSource}
  {hf : ∀ s, (f s).id = s.id}

theorem not_claimed_updateSource (hends : ∀ s, (f s).syncStatus ≠ .syncing) :
    ¬claimed (db.updateSource sourceId f hf) sourceId = true := by
  simp only [claimed, find?_updateSource]
  cases hfind : db.scmSources.find? sourceId with
  | none => exact fun h => by cases h
  | some s =>
    have hid : s.id = sourceId := Table.find?_some_key hfind
    simp [hid, hends s]

theorem not_mem_releaseCheckout : sourceId ∉ releaseCheckout busy sourceId := by
  intro hmem
  exact of_decide_eq_true (List.mem_filter.mp hmem).2 rfl

theorem actSync_keepsLock (h : actSync scmReclaimRoots host c db busy call phase = some (db', busy', phase'))
    (hentered : entered phase = true) :
    entered phase' = true ∧ (phase.holdsLock = true → call.sourceId ∈ busy' → phase'.holdsLock = true) := by
  cases phase with
  | claim | lock | unclaim => cases hentered
  | admission =>
    simp only [actSync] at h
    split at h <;> cases h <;> exact ⟨rfl, fun _ _ => rfl⟩
  | admitted acquisition =>
    cases acquisition with
    | acquired source =>
      cases h
      exact ⟨rfl, fun _ _ => rfl⟩
    | refused message | deferred occupant | notAcquired =>
      cases h
      exact ⟨rfl, fun _ hmem => absurd hmem not_mem_releaseCheckout⟩
  | stillExists =>
    cases h
    split <;> exact ⟨rfl, fun hlock => by cases hlock⟩
  | refused message =>
    simp only [actSync] at h
    split at h <;> cases h <;> exact ⟨rfl, fun hlock => by cases hlock⟩
  | syncing source | resetStatus | indexing source | indexed source error | finalizeIndex status message | settle =>
    cases h
    exact ⟨rfl, fun _ _ => rfl⟩
  | synced source result =>
    simp only [actSync] at h
    split at h
    · cases h
      exact ⟨rfl, fun _ _ => rfl⟩
    · cases h
      split <;> exact ⟨rfl, fun _ _ => rfl⟩
  | handOff =>
    simp only [actSync] at h
    split at h
    · cases h
      exact ⟨rfl, fun _ _ => rfl⟩
    split at h
    · cases h
      exact ⟨rfl, fun _ _ => rfl⟩
    split at h
    · cases h
      exact ⟨rfl, fun _ _ => rfl⟩
    · cases h
      split <;> exact ⟨rfl, fun _ _ => rfl⟩
  | release =>
    cases h
    exact ⟨rfl, fun _ hmem => absurd hmem not_mem_releaseCheckout⟩
  | caught =>
    cases h
    exact ⟨rfl, fun hlock => by cases hlock⟩
  | returned => cases h

theorem actSync_drops (h : actSync scmReclaimRoots host c db busy call phase = some (db', busy', phase'))
    (hentered : entered phase = true) (hclaims : phase.claims call = true) (hdrops : phase'.claims call = false)
    (hclaimed : claimed db' call.sourceId = true) :
    c.dbFails = true ∧ (isAdmission phase = true ∨ endsClaim phase = true) := by
  cases phase with
  | claim | lock | unclaim => cases hentered
  | admission =>
    simp only [actSync] at h
    split at h
    · rename_i hfails
      exact ⟨hfails, .inl rfl⟩
    · cases h
      have hacquired : call.alreadyAcquired = true := hclaims
      rw [admitSync, if_pos hacquired] at hdrops hclaimed
      split at hdrops
      · cases hdrops
      · rename_i row hrow
        rw [hrow] at hclaimed
        dsimp only at hclaimed
        cases hgate : gateSync scmReclaimRoots host db call.sourceId row with
        | mk acquisition db₁ =>
          rw [hgate] at hdrops hclaimed
          obtain ⟨message, rfl, -⟩ | ⟨occupant, rfl, rfl⟩ | ⟨rfl, -, -⟩ := gateSync_cases hgate
          · cases hdrops
          · exact absurd hclaimed (not_claimed_updateSource (by intro _ heq; cases heq))
          · cases hdrops
  | admitted acquisition =>
    cases acquisition with
    | acquired source | refused message =>
      cases h
      cases hdrops
    | deferred occupant | notAcquired => cases hclaims
  | stillExists | release | caught | returned => cases hclaims
  | refused message =>
    simp only [actSync] at h
    split at h
    · rename_i hfails
      exact ⟨hfails, .inr rfl⟩
    · cases h
      exact absurd hclaimed (not_claimed_updateSource (by intro _ heq; cases heq))
  | syncing source | indexing source | indexed source error | finalizeIndex status message =>
    cases h
    cases hdrops
  | synced source result =>
    simp only [actSync] at h
    split at h
    · cases h
      cases hdrops
    · cases h
      split at hdrops
      · cases hdrops
      · rename_i hends
        refine absurd hclaimed (not_claimed_updateSource ?_)
        intro s heq
        simp only [finishSyncRow, if_neg hends] at heq
        cases result <;> cases heq
  | resetStatus =>
    cases h
    by_cases hfails : c.dbFails = true
    · exact ⟨hfails, .inr rfl⟩
    · rw [if_neg hfails] at hclaimed
      exact absurd hclaimed (not_claimed_updateSource (by intro _ heq; cases heq))
  | handOff =>
    simp only [actSync] at h
    split at h
    · cases h
      cases hdrops
    split at h
    · cases h
      cases hdrops
    split at h
    · cases h
      cases hdrops
    · cases h
      split at hdrops <;> cases hdrops
  | settle =>
    cases h
    by_cases hfails : c.dbFails = true
    · exact ⟨hfails, .inr rfl⟩
    · rw [if_neg hfails] at hclaimed
      refine absurd hclaimed (not_claimed_updateSource ?_)
      intro s
      split
      · exact fun heq => by cases heq
      · assumption

end Act

section Runs

variable {scmReclaimRoots : List String} {sourceId : String} {options : SyncOptions} {s s' : State} {host : Host}
  {db : Db} {busy : BusyCheckouts}

theorem Inv.act {c : SyncChoice} (h : Inv sourceId options s)
    (hstep : step scmReclaimRoots sourceId options s (.act host c) = some s') : Inv sourceId options s' := by
  obtain ⟨⟨db', busy', phase'⟩, hact, rfl⟩ := Option.map_eq_some_iff.mp hstep
  obtain ⟨hentered, hkeeps⟩ := actSync_keepsLock hact h.entered
  refine ⟨hentered, ?_, ?_⟩
  · intro hlock
    rw [Bool.and_eq_true, decide_eq_true_eq] at hlock
    exact hkeeps (h.lock hlock.1) hlock.2
  · intro hclaim
    rw [Bool.and_eq_true, Bool.or_eq_true] at hclaim
    obtain ⟨hclaim, hclaimed⟩ := hclaim
    cases hclaims' : phase'.claims (options.body sourceId) with
    | true => exact .inl rfl
    | false =>
      rw [hclaims'] at hclaim
      obtain hclaims | hfailed | hstranded := h.claim (hclaim.resolve_right Bool.false_ne_true)
      · obtain ⟨hfails, hadmission | hends⟩ := actSync_drops hact h.entered hclaims hclaims' hclaimed
        · exact .inr (.inl (by rw [hfails, hadmission, Bool.and_self, Bool.or_true]))
        · exact .inr (.inr (by rw [hfails, hends, Bool.and_self, Bool.or_true]))
      · exact .inr (.inl (by rw [hfailed, Bool.true_or]))
      · exact .inr (.inr (by rw [hstranded, Bool.true_or]))

theorem step_inv {e : Event} (h : Inv sourceId options s)
    (hstep : step scmReclaimRoots sourceId options s e = some s') : Inv sourceId options s' := by
  cases e with
  | others db busy lock claim =>
    obtain rfl := Option.some.inj hstep
    refine ⟨h.entered, fun hlock => ?_, fun hclaim => ?_⟩
    · rw [Bool.and_eq_true, Bool.and_eq_true] at hlock
      exact h.lock hlock.1.1
    · rw [Bool.and_eq_true, Bool.and_eq_true] at hclaim
      exact h.claim hclaim.1.1
  | act host c => exact h.act hstep

theorem inv_runSyncScmSource (hlive : host.hasLostHeartbeatOwnership = false)
    (hheld : (runSyncScmSource sourceId options host db busy).lock = true) :
    Inv sourceId options (runSyncScmSource sourceId options host db busy) := by
  have hphase : (runSyncScmSource sourceId options host db busy).phase = .admission := by
    simp only [runSyncScmSource, enterSync, hlive] at hheld ⊢
    cases hhanded : options.checkoutAlreadyAcquired with
    | true => rfl
    | false =>
      rw [hhanded] at hheld
      by_cases hbusy : sourceId ∈ busy
      · simp [hbusy, SyncPhase.holdsLock] at hheld
      · simp [hbusy]
  refine ⟨?_, fun _ => ?_, fun hclaim => .inl ?_⟩
  · rw [hphase]
    rfl
  · rw [hphase]
    rfl
  · rw [hphase]
    exact (Bool.and_eq_true _ _ ▸ hclaim : _ ∧ _).1

/-- A call that has or is handed the lock leaves neither the lock nor the claim behind exactly when its process has
not been fenced. -/
theorem sync_settles_iff (hheld : (runSyncScmSource sourceId options host db busy).lock = true) :
    (∀ es s, run (step scmReclaimRoots sourceId options) (runSyncScmSource sourceId options host db busy) es = some s →
      s.phase = .returned → Settles s) ↔ host.hasLostHeartbeatOwnership = false := by
  constructor
  · intro hsettles
    cases hlost : host.hasLostHeartbeatOwnership with
    | false => rfl
    | true =>
      -- the early return keeps what the caller has handed over
      have hphase : (runSyncScmSource sourceId options host db busy).phase = .returned := by
        simp [runSyncScmSource, enterSync, hlost]
      have hlock := (hsettles [] _ rfl hphase).lock
      rw [hheld] at hlock
      cases hlock
  · intro hlive es s hrun hreturned
    have hinv := (runs_free_iff.mpr hrun).invariant (I := Inv sourceId options)
      (fun _ _ _ _ h hstep => step_inv h hstep) (inv_runSyncScmSource hlive hheld)
    refine ⟨?_, ?_⟩
    · rw [← Bool.not_eq_true]
      intro hlock
      have hholds := hinv.lock hlock
      rw [hreturned] at hholds
      cases hholds
    · intro hadmission hstranded
      rw [← Bool.not_eq_true]
      intro hclaim
      obtain hclaims | hfailed | hfailed := hinv.claim hclaim
      · rw [hreturned] at hclaims
        cases hclaims
      · rw [hadmission] at hfailed
        cases hfailed
      · rw [hstranded] at hfailed
        cases hfailed

end Runs

section Examples

def exampleDb : Db :=
  { scmSources := ⟨[{ id := "s", type := .git, localPath := "/s", syncStatus := .syncing }], by decide⟩ }

def exampleHost : Host := { processInstanceId := "p" }

def handedOver : SyncOptions := { statusAlreadyAcquired := true, checkoutAlreadyAcquired := true }

theorem sync_settles_iff_handedOver :
    (∀ es s, run (step [] "s" handedOver) (runSyncScmSource "s" handedOver exampleHost exampleDb ["s"]) es = some s →
      s.phase = .returned → Settles s) ↔ exampleHost.hasLostHeartbeatOwnership = false :=
  sync_settles_iff (by decide)

theorem fenced_sync_strands_lock : ¬∀ (scmReclaimRoots : List String) (sourceId : String) (options : SyncOptions)
    (host : Host) (db : Db) (busy : BusyCheckouts), (runSyncScmSource sourceId options host db busy).lock = true →
      ∀ es s, run (step scmReclaimRoots sourceId options) (runSyncScmSource sourceId options host db busy) es = some s →
        s.phase = .returned → Settles s := by
  intro h
  have hsettles := h [] "s" handedOver { exampleHost with hasLostHeartbeatOwnership := true } exampleDb ["s"]
    (by decide) [] _ rfl rfl
  exact absurd hsettles.lock (by decide)

end Examples

end A2Wave.SyncSettles
