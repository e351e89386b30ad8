import A2Wave.Scm.Arbitration

/-! The `syncing` status as a claim on a source: what one await of a sync does to it, and what the
admission of a sync has read of the runs. -/

namespace A2Wave

/-- The call answers for the `syncing` status of its source. -/
def SyncPhase.claims (call : SyncCall) : SyncPhase → Bool
  | lock | admission => call.alreadyAcquired
  | admitted (.acquired _) | admitted (.refused _) | unclaim | refused _ | syncing _ | synced _ _
  | resetStatus | handOff | indexing _ | indexed _ _ | finalizeIndex _ _ | settle => true
  | admitted (.deferred _) | admitted .notAcquired | claim | stillExists | release | caught
  | returned => false

theorem SyncPhase.claims_of_executes {call : SyncCall} {phase : SyncPhase}
    (h : phase.executes.isSome = true) : phase.claims call = true := by
  cases phase with
  | admitted acquisition => cases acquisition <;> first | rfl | cases h
  | syncing source => rfl
  | _ => cases h

namespace Checkout

def claimed (db : Db) (scmSourceId : String) : Bool :=
  (db.scmSources.find? scmSourceId).any (·.syncStatus = .syncing)

def localPathOf (db : Db) (scmSourceId : String) : Option String :=
  (db.scmSources.find? scmSourceId).map (·.localPath)

def unoccupied (host : Host) (db : Db) (scmSourceId : String) : Prop :=
  ∀ runId localPath, activeOn db runId scmSourceId = true → localPathOf db scmSourceId = some localPath →
    runOccupiesSharedCheckout host (workDirOf db runId) localPath = false

structure SyncStep (host : Host) (db : Db) (call : SyncCall) (phase : SyncPhase) (db' : Db)
    (phase' : SyncPhase) : Prop where
  runs : db'.runs = db.runs
  leases : db'.scmWorkloadLeases = db.scmWorkloadLeases
  localPaths : ∀ y, localPathOf db' y = localPathOf db y
  others : ∀ y, y ≠ call.sourceId → claimed db' y = claimed db y
  takes : phase'.claims call = true → phase.claims call = true ∨ claimed db call.sourceId = false
  keeps : phase'.claims call = true → (phase.claims call = true → claimed db call.sourceId = true) →
    claimed db' call.sourceId = true
  frees : claimed db call.sourceId = true → phase.claims call = false → claimed db' call.sourceId = true
  admits : phase'.executes.isSome = true → phase.executes.isSome = true ∨ unoccupied host db call.sourceId

section Source

variable {host : Host} {db db' : Db} {sourceId : String} {f : ScmSource → ScmSource}
  {hf : ∀ s, (f s).id = s.id} {call : SyncCall} {phase phase' : SyncPhase}

theorem find?_updateSource (y : String) : (db.updateSource sourceId f hf).scmSources.find? y =
    (db.scmSources.find? y).map fun s => if s.id = sourceId then f s else s := by
  simp [Db.updateSource, Table.find?_updateWhere]

theorem localPathOf_updateSource (hpath : ∀ s, (f s).localPath = s.localPath) (y : String) :
    localPathOf (db.updateSource sourceId f hf) y = localPathOf db y := by
  simp only [localPathOf, find?_updateSource]
  cases db.scmSources.find? y with
  | none => rfl
  | some s =>
    simp only [Option.map_some]
    split
    · rw [hpath]
    · rfl

theorem claimed_updateSource_ne {y : String} (hy : y ≠ sourceId) :
    claimed (db.updateSource sourceId f hf) y = claimed db y := by
  simp only [claimed, find?_updateSource]
  cases hfind : db.scmSources.find? y with
  | none => rfl
  | some s =>
    have hid : s.id = y := Table.find?_some_key hfind
    simp [hid, hy]

theorem claimed_updateSource (hclaimed : claimed db sourceId = true)
    (hkeep : ∀ s, s.syncStatus = .syncing → (f s).syncStatus = .syncing) :
    claimed (db.updateSource sourceId f hf) sourceId = true := by
  simp only [claimed, find?_updateSource] at hclaimed ⊢
  cases hfind : db.scmSources.find? sourceId with
  | none => simp [hfind] at hclaimed
  | some s =>
    have hid : s.id = sourceId := Table.find?_some_key hfind
    have hs : s.syncStatus = .syncing := by simpa [hfind] using hclaimed
    simp [hid, hkeep s hs]

theorem SyncStep.idle
    (hclaims : phase'.claims call = true → phase.claims call = true)
    (hexec : phase'.executes.isSome = true → phase.executes.isSome = true) :
    SyncStep host db call phase db phase' where
  runs := rfl
  leases := rfl
  localPaths _ := rfl
  others _ _ := rfl
  takes h := .inl (hclaims h)
  keeps h hflag := hflag (hclaims h)
  frees h _ := h
  admits h := .inl (hexec h)

theorem SyncStep.leaves (hclaims : phase'.claims call = false) (hexec : phase'.executes = none) :
    SyncStep host db call phase db phase' := by
  apply SyncStep.idle
  · rw [hclaims]
    intro h
    cases h
  · rw [hexec]
    intro h
    cases h

theorem SyncStep.carries (hclaims : phase.claims call = true) (hexec : phase'.executes = none) :
    SyncStep host db call phase db phase' := by
  apply SyncStep.idle
  · intro _
    exact hclaims
  · rw [hexec]
    intro h
    cases h

theorem SyncStep.write (hpath : ∀ s, (f s).localPath = s.localPath)
    (hclaims : phase.claims call = true) (hexec : phase'.executes = none)
    (hkeep : phase'.claims call = true → ∀ s, s.syncStatus = .syncing → (f s).syncStatus = .syncing) :
    SyncStep host db call phase (db.updateSource call.sourceId f hf) phase' where
  runs := rfl
  leases := rfl
  localPaths := localPathOf_updateSource hpath
  others y hy := claimed_updateSource_ne hy
  takes _ := .inl hclaims
  keeps h hflag := claimed_updateSource (hflag hclaims) (hkeep h)
  frees _ h := by simp [hclaims] at h
  admits h := by simp [hexec] at h

theorem SyncStep.ends (hpath : ∀ s, (f s).localPath = s.localPath) (hclaims : phase.claims call = true)
    (hend : phase'.claims call = false) (hexec : phase'.executes = none) :
    SyncStep host db call phase (db.updateSource call.sourceId f hf) phase' := by
  apply SyncStep.write hpath hclaims hexec
  rw [hend]
  intro h
  cases h

end Source

section Admission

variable {scmReclaimRoots : List String} {host : Host} {db db' : Db} {call : SyncCall}
  {phase phase' : SyncPhase} {row : ScmSource} {acquisition : SyncAcquisition}

structure Acquires (db db' : Db) (sourceId : String) : Prop where
  runs : db'.runs = db.runs
  leases : db'.scmWorkloadLeases = db.scmWorkloadLeases
  localPaths : ∀ y, localPathOf db' y = localPathOf db y
  others : ∀ y, y ≠ sourceId → claimed db' y = claimed db y
  free : claimed db sourceId = false
  taken : claimed db' sourceId = true

variable {sourceId : String}

theorem acquireSyncStatus_some
    (h : acquireSyncStatus host db sourceId = some (row, db')) :
    Acquires db db' sourceId ∧ db'.scmSources.find? sourceId = some row := by
  obtain ⟨sources, hcas, hmap⟩ := Option.bind_eq_some_iff.mp h
  obtain ⟨row', hrow, heq⟩ := Option.map_eq_some_iff.mp hmap
  cases heq
  obtain ⟨r, hr, hp, hr', hother⟩ := Table.cas_some hcas
  refine ⟨⟨rfl, rfl, fun y => ?_, fun y hy => ?_, ?_, ?_⟩, hrow⟩
  · unfold localPathOf
    by_cases hy : y = sourceId
    · rw [hy, hr, hr']
      rfl
    · rw [hother y hy]
  · unfold claimed
    rw [hother y hy]
  · have hstatus : r.syncStatus ≠ .syncing := by
      simp only [Bool.and_eq_true, decide_eq_true_eq] at hp
      exact hp.1.1
    simp [claimed, hr, hstatus]
  · simp [claimed, hr']

theorem unoccupied_of_find {sourceType : ScmSourceType} {sourceId localPath : String}
    (hpath : localPathOf db sourceId = some localPath)
    (h : findSharedCheckoutScmWorkload host db sourceId localPath sourceType = none) :
    unoccupied host db sourceId := by
  intro runId localPath' hactive hpath'
  rw [hpath] at hpath'
  cases hpath'
  obtain ⟨l, hmem, hw, hs, hp⟩ := activeOn_iff.mp hactive
  simp only [findSharedCheckoutScmWorkload, Option.map_eq_none_iff, Option.or_eq_none_iff,
    List.find?_eq_none, Table.select, List.mem_filter] at h
  have hno := h.2 l ⟨hmem, by simp [hs, hp]⟩
  simpa [hw, runWorkload, workDirOf] using hno

theorem gateSync_cases
    (h : gateSync scmReclaimRoots host db sourceId row = (acquisition, db')) :
    (∃ message, acquisition = .refused message ∧ db' = db) ∨
    (∃ occupant, acquisition = .deferred occupant ∧ db' = deferSync host db sourceId) ∨
    (acquisition = .acquired row ∧ db' = db ∧
      findSharedCheckoutScmWorkload host db sourceId row.localPath row.type = none) := by
  unfold gateSync at h
  split at h
  · cases h
    exact .inl ⟨_, rfl, rfl⟩
  split at h
  · cases h
    exact .inl ⟨_, rfl, rfl⟩
  split at h
  · cases h
    exact .inr (.inl ⟨_, rfl, rfl⟩)
  · rename_i hnone
    cases h
    exact .inr (.inr ⟨rfl, rfl, hnone⟩)

theorem unoccupied_acquires (h : Acquires db db' sourceId)
    (hun : unoccupied host db' sourceId) : unoccupied host db sourceId := by
  intro runId localPath hactive hpath
  have hdir : workDirOf db' runId = workDirOf db runId := by rw [workDirOf, h.runs, workDirOf]
  rw [← hdir]
  apply hun runId localPath
  · rwa [activeOn, loadLease, h.leases]
  · rwa [h.localPaths]

theorem syncStep_gate (hacquired : call.alreadyAcquired = true)
    (hrow : db.scmSources.find? call.sourceId = some row)
    (h : gateSync scmReclaimRoots host db call.sourceId row = (acquisition, db')) :
    SyncStep host db call .admission db' (.admitted acquisition) := by
  obtain ⟨message, rfl, rfl⟩ | ⟨occupant, rfl, rfl⟩ | ⟨rfl, rfl, hnone⟩ := gateSync_cases h
  · exact .carries hacquired rfl
  · exact .ends (fun _ => rfl) hacquired rfl rfl
  · have hidle : SyncStep host db' call .admission db' (.admitted (.refused "")) :=
      .carries hacquired rfl
    refine { hidle with admits := fun _ => .inr (unoccupied_of_find ?_ hnone) }
    rw [localPathOf, hrow, Option.map_some]

theorem syncStep_acquire {db₁ : Db}
    (hacq : acquireSyncStatus host db call.sourceId = some (row, db₁))
    (h : gateSync scmReclaimRoots host db₁ call.sourceId row = (acquisition, db')) :
    SyncStep host db call .admission db' (.admitted acquisition) := by
  obtain ⟨hacq, hrow⟩ := acquireSyncStatus_some hacq
  have hrefused : SyncStep host db call .admission db₁ (.admitted (.refused "")) :=
    { runs := hacq.runs, leases := hacq.leases, localPaths := hacq.localPaths, others := hacq.others
      takes := fun _ => .inr hacq.free
      keeps := fun _ _ => hacq.taken
      frees := fun _ _ => hacq.taken
      admits := fun he => by cases he }
  obtain ⟨message, rfl, rfl⟩ | ⟨occupant, rfl, rfl⟩ | ⟨rfl, rfl, hnone⟩ := gateSync_cases h
  · exact { hrefused with admits := fun he => by cases he }
  · refine ⟨hacq.runs, hacq.leases, fun y => ?_, fun y hy => ?_, fun he => (by cases he),
      fun he => (by cases he), fun hc => ?_, fun he => (by cases he)⟩
    · have hpath : localPathOf (deferSync host db₁ call.sourceId) y = localPathOf db₁ y :=
        localPathOf_updateSource (fun s => by rfl) y
      exact hpath.trans (hacq.localPaths y)
    · exact (claimed_updateSource_ne hy).trans (hacq.others y hy)
    · rw [hacq.free] at hc
      cases hc
  · refine { hrefused with
      admits := fun _ => .inr (unoccupied_acquires hacq (unoccupied_of_find ?_ hnone)) }
    rw [localPathOf, hrow, Option.map_some]

theorem syncStep_admission (h : admitSync scmReclaimRoots host db call = (acquisition, db')) :
    SyncStep host db call .admission db' (.admitted acquisition) := by
  unfold admitSync at h
  split at h
  · rename_i hacquired
    split at h
    · cases h
      exact .carries hacquired rfl
    · rename_i row hrow
      exact syncStep_gate hacquired hrow h
  · split at h
    · cases h
      exact .leaves rfl rfl
    · rename_i row db₁ hacq
      exact syncStep_acquire hacq h

theorem actSync_claim {c : SyncChoice} {busy busy' : BusyCheckouts}
    (h : actSync scmReclaimRoots host c db busy call phase = some (db', busy', phase')) :
    SyncStep host db call phase db' phase' := by
  cases phase with
  | claim =>
    simp only [actSync] at h
    split at h
    · cases h
      exact .leaves rfl rfl
    split at h
    · cases h
      exact .leaves rfl rfl
    · rename_i row db₁ hacq
      cases h
      obtain ⟨hacq, -⟩ := acquireSyncStatus_some hacq
      exact ⟨hacq.runs, hacq.leases, hacq.localPaths, hacq.others, fun _ => .inr hacq.free,
        fun _ _ => hacq.taken, fun _ _ => hacq.taken, fun he => by cases he⟩
  | lock =>
    simp only [actSync, enterSync] at h
    split at h
    · rename_i hacquired
      split at h
      · cases h
        exact .carries hacquired rfl
      · split at h
        · cases h
          exact .leaves rfl rfl
        · cases h
          exact .idle id (fun he => by cases he)
    · split at h
      · cases h
        exact .leaves rfl rfl
      · split at h
        · cases h
          exact .leaves rfl rfl
        · cases h
          exact .idle id (fun he => by cases he)
  | unclaim =>
    simp only [actSync] at h
    cases h
    split
    · exact .leaves rfl rfl
    · exact .ends (fun _ => rfl) rfl rfl rfl
  | admission =>
    simp only [actSync] at h
    split at h
    · cases h
      exact .leaves rfl rfl
    · cases h
      exact syncStep_admission rfl
  | admitted acquisition =>
    cases acquisition with
    | acquired source =>
      cases h
      exact .idle (fun _ => rfl) (fun _ => rfl)
    | deferred occupant | notAcquired =>
      cases h
      exact .leaves rfl rfl
    | refused message =>
      cases h
      exact .carries rfl rfl
  | stillExists =>
    cases h
    refine .idle (fun he => ?_) (fun he => ?_)
    · split at he <;> cases he
    · split at he <;> cases he
  | refused message =>
    simp only [actSync] at h
    split at h
    · cases h
      exact .leaves rfl rfl
    · cases h
      exact .ends (fun _ => rfl) rfl rfl rfl
  | syncing source | indexing source =>
    cases h
    exact .carries rfl rfl
  | synced source result =>
    simp only [actSync] at h
    split at h
    · cases h
      exact .carries rfl rfl
    · cases h
      refine .write (fun _ => rfl) rfl ?_ ?_
      · split <;> rfl
      · -- the claim is kept for the CodeGraph job that follows
        intro hclaims s _
        split at hclaims
        · rename_i hindexes
          simp [finishSyncRow, hindexes]
        · cases hclaims
  | resetStatus =>
    cases h
    split
    · exact .leaves rfl rfl
    · exact .ends (fun _ => rfl) rfl rfl rfl
  | handOff =>
    simp only [actSync] at h
    split at h
    · cases h
      exact .carries rfl rfl
    split at h
    · cases h
      exact .carries rfl rfl
    split at h
    · cases h
      exact .carries rfl rfl
    · cases h
      refine .idle (fun _ => rfl) (fun he => ?_)
      split at he <;> cases he
  | indexed source error | finalizeIndex status message =>
    cases h
    split
    · exact .carries rfl rfl
    · exact .write (fun _ => rfl) rfl rfl (fun _ _ hs => hs)
  | settle =>
    cases h
    split
    · exact .leaves rfl rfl
    · refine .ends (fun s => ?_) rfl rfl rfl
      split <;> rfl
  | release | caught =>
    cases h
    exact .leaves rfl rfl
  | returned => cases h

end Admission

end Checkout

end A2Wave
