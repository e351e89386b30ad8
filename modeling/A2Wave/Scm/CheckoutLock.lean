import Mathlib
import A2Wave.Scm.Checkout

/-! The checkout lock under every interleaving of the calls that take it. -/

namespace A2Wave.Checkout

open Transition

def Shared.busy (s : Shared) (k : Nat × String) : Prop := k.2 ∈ s.busyCheckouts k.1

def Thread.holds (t : Thread) (k : Nat × String) : Bool :=
  match t.task with
  | .sync call phase => t.process = k.1 && call.sourceId = k.2 && phase.holdsLock
  | .queue _ | .resolve _ _ | .resolveDefault _ _ => false

/-- No call reaches the outer `catch` after its release while another call holds the lock. -/
def catchesAlone (s : State) : Pool.Event Thread Choice → Bool
  | .spawn _ => true
  | .act i _ =>
    match s.threads[i]? with
    | some ⟨process, .sync call .caught⟩ => s.threads.all fun u => !u.holds (process, call.sourceId)
    | _ => true

inductive LockStep (busy : BusyCheckouts) (sourceId : String) : SyncPhase → BusyCheckouts → SyncPhase → Prop
  | takes {phase phase'} : sourceId ∉ busy → LockStep busy sourceId phase (sourceId :: busy) phase'
  | keeps {phase phase'} : (phase'.holdsLock = true → phase.holdsLock = true) →
      LockStep busy sourceId phase busy phase'
  | releases {phase phase'} : phase.holdsLock = true → phase'.holdsLock = false →
      LockStep busy sourceId phase (releaseCheckout busy sourceId) phase'
  | releasesAgain {phase'} : phase'.holdsLock = false →
      LockStep busy sourceId .caught (releaseCheckout busy sourceId) phase'

section Lock

variable {scmReclaimRoots : List String} {host : Host} {c : SyncChoice} {db db' : Db}
  {busy busy' : BusyCheckouts} {call : SyncCall} {phase phase' : SyncPhase}

theorem actSync_lock
    (h : actSync scmReclaimRoots host c db busy call phase = some (db', busy', phase')) :
    LockStep busy call.sourceId phase busy' phase' := by
  cases phase with
  | claim =>
    simp only [actSync] at h
    split at h
    · cases h
      exact .keeps (by simp [SyncPhase.holdsLock])
    · split at h <;> cases h <;> exact .keeps (by simp [SyncPhase.holdsLock])
  | lock =>
    simp only [actSync, enterSync] at h
    split at h
    · split at h
      · cases h
        exact .keeps (by simp [SyncPhase.holdsLock])
      · rename_i hfree
        split at h <;> cases h <;> exact .takes hfree
    · split at h
      · cases h
        exact .keeps (by simp [SyncPhase.holdsLock])
      · split at h
        · cases h
          exact .keeps (by simp [SyncPhase.holdsLock])
        · rename_i hfree
          cases h
          exact .takes hfree
  | unclaim =>
    cases h
    exact .keeps (by simp [SyncPhase.holdsLock])
  | admission | synced source result =>
    simp only [actSync] at h
    split at h <;> cases h <;> exact .keeps (fun _ => rfl)
  | admitted acquisition =>
    cases acquisition with
    | acquired source =>
      cases h
      exact .keeps (fun _ => rfl)
    | deferred occupant | refused message | notAcquired =>
      cases h
      exact .releases rfl rfl
  | stillExists =>
    cases h
    refine .keeps ?_
    split <;> simp [SyncPhase.holdsLock]
  | refused message =>
    simp only [actSync] at h
    split at h <;> cases h <;> exact .keeps (by simp [SyncPhase.holdsLock])
  | syncing source | resetStatus | indexing source | indexed source error | finalizeIndex status message | settle =>
    cases h
    exact .keeps (fun _ => rfl)
  | handOff =>
    simp only [actSync] at h
    split at h
    · cases h
      exact .keeps (fun _ => rfl)
    split at h
    · cases h
      exact .keeps (fun _ => rfl)
    split at h <;> cases h <;> exact .keeps (fun _ => rfl)
  | release =>
    cases h
    exact .releases rfl rfl
  | caught =>
    cases h
    exact .releasesAgain rfl
  | returned => cases h

end Lock

section Step

variable {defaultWorkspacesPath : String → String} {scmReclaimRoots : List String} {s s' : Shared}
  {t t' : Thread} {c : Choice}

theorem act_lock (h : act defaultWorkspacesPath scmReclaimRoots s t c = some (s', t')) :
    (∃ call phase busy phase', t = ⟨t.process, .sync call phase⟩ ∧ t' = ⟨t.process, .sync call phase'⟩ ∧
      LockStep (s.busyCheckouts t.process) call.sourceId phase busy phase' ∧
      s'.busyCheckouts = Function.update s.busyCheckouts t.process busy) ∨
    ((∀ k, t.holds k = false) ∧ (∀ k, t'.holds k = false) ∧ s'.busyCheckouts = s.busyCheckouts) := by
  obtain ⟨process, task⟩ := t
  cases task with
  | sync call phase =>
    obtain ⟨p, -, hact⟩ := Option.bind_eq_some_iff.mp h
    obtain ⟨⟨db, busy, phase'⟩, hsync, heq⟩ := Option.map_eq_some_iff.mp hact
    cases heq
    exact .inl ⟨call, phase, busy, phase', rfl, rfl, actSync_lock hsync, rfl⟩
  | queue task =>
    obtain ⟨⟨world, t₁⟩, -, heq⟩ := Option.map_eq_some_iff.mp h
    cases heq
    exact .inr ⟨fun _ => rfl, fun _ => rfl, rfl⟩
  | resolve call phase | resolveDefault call phase =>
    obtain ⟨⟨db, phase'⟩, -, heq⟩ := Option.map_eq_some_iff.mp h
    cases heq
    exact .inr ⟨fun _ => rfl, fun _ => rfl, rfl⟩

variable {k : Nat × String}

theorem holds_sync {process : Nat} {call : SyncCall} {phase : SyncPhase} :
    Thread.holds ⟨process, .sync call phase⟩ k = true ↔ (process, call.sourceId) = k ∧ phase.holdsLock = true := by
  obtain ⟨n, x⟩ := k
  simp [Thread.holds]

theorem busy_update {process : Nat} {busy : BusyCheckouts}
    (h : s'.busyCheckouts = Function.update s.busyCheckouts process busy) :
    s'.busy k ↔ if k.1 = process then k.2 ∈ busy else s.busy k := by
  unfold Shared.busy
  rw [h]
  by_cases hk : k.1 = process
  · simp [hk]
  · simp [hk, Function.update_of_ne]

theorem act_takes (h : act defaultWorkspacesPath scmReclaimRoots s t c = some (s', t'))
    (hk : t'.holds k = true) :
    (t.holds k = true ∧ (s.busy k → s'.busy k)) ∨ (¬s.busy k ∧ s'.busy k) := by
  obtain ⟨call, phase, busy, phase', ht, rfl, hstep, hbusy⟩ | ⟨-, hnot, -⟩ := act_lock h
  · obtain ⟨rfl, hholds⟩ := holds_sync.mp hk
    rw [ht]
    cases hstep with
    | takes hfree =>
      refine .inr ⟨hfree, ?_⟩
      rw [busy_update hbusy]
      simp
    | keeps hkeep =>
      refine .inl ⟨holds_sync.mpr ⟨rfl, hkeep hholds⟩, ?_⟩
      rw [busy_update hbusy]
      simp [Shared.busy]
    | releases _ hno | releasesAgain hno => simp [hno] at hholds
  · simp [hnot] at hk

theorem act_frees (h : act defaultWorkspacesPath scmReclaimRoots s t c = some (s', t'))
    (hbusy : s.busy k) (hfree : ¬s'.busy k) :
    t.holds k = true ∨ ∃ call, t = ⟨k.1, .sync call .caught⟩ ∧ call.sourceId = k.2 := by
  obtain ⟨call, phase, busy, phase', ht, rfl, hstep, hupdate⟩ | ⟨-, -, hsame⟩ := act_lock h
  · rw [busy_update hupdate] at hfree
    split at hfree
    · rename_i hprocess
      have hmem : k.2 ∈ s.busyCheckouts t.process := hprocess ▸ hbusy
      cases hstep with
      | takes _ => exact absurd (List.mem_cons_of_mem _ hmem) hfree
      | keeps _ => exact absurd hmem hfree
      | releases hholds _ =>
        have hsource : k.2 = call.sourceId := by simpa [releaseCheckout, hmem] using hfree
        left
        rw [ht]
        exact holds_sync.mpr ⟨by rw [← hprocess, ← hsource], hholds⟩
      | releasesAgain _ =>
        have hsource : k.2 = call.sourceId := by simpa [releaseCheckout, hmem] using hfree
        exact .inr ⟨call, by rw [ht, hprocess], hsource.symm⟩
    · exact absurd hbusy hfree
  · refine absurd ?_ hfree
    unfold Shared.busy
    rw [hsame]
    exact hbusy

end Step

def freesAnother (s s' : State) (i : Nat) : Prop :=
  ∃ (j : Nat) (u : Thread) (k : Nat × String), j ≠ i ∧ s.threads[j]? = some u ∧ u.holds k = true ∧
    s.shared.busy k ∧ ¬s'.shared.busy k

abbrev LockInv : State → Prop := Pool.Exclusive Shared.busy fun t k => t.holds k = true

section Run

variable {defaultWorkspacesPath : String → String} {scmReclaimRoots : List String} {s s' : State}
  {i : Nat} {c : Choice}

theorem freesAnother_iff (h : LockInv s)
    (hs : Pool.step (system defaultWorkspacesPath scmReclaimRoots) s (.act i c) = some s') :
    freesAnother s s' i ↔ catchesAlone s (.act i c) = false := by
  obtain ⟨t, hi, hmap⟩ := Option.bind_eq_some_iff.mp hs
  obtain ⟨⟨sh, t'⟩, hact, rfl⟩ := Option.map_eq_some_iff.mp hmap
  constructor
  · rintro ⟨j, u, k, hj, hu, hk, hbusy, hfree⟩
    rcases act_frees hact hbusy hfree with ht | ⟨call, rfl, hsource⟩
    · exact absurd hk (h.apart i j t u (Ne.symm hj) hi hu k ht)
    · simp only [catchesAlone, hi, List.all_eq_false]
      refine ⟨u, List.mem_of_getElem? hu, ?_⟩
      rw [hsource]
      simp [hk]
  · intro hnot
    simp only [catchesAlone, hi] at hnot
    split at hnot
    · rename_i process call heq
      obtain ⟨u, hu, hk⟩ := List.all_eq_false.mp hnot
      have hk' : u.holds (process, call.sourceId) = true := by simpa using hk
      obtain ⟨j, hj⟩ := List.mem_iff_getElem?.mp hu
      cases heq
      refine ⟨j, u, (process, call.sourceId), ?_, hj, hk', h.flagged u hu _ hk', ?_⟩
      · rintro rfl
        rw [hi] at hj
        cases hj
        simp [Thread.holds, SyncPhase.holdsLock] at hk'
      · obtain ⟨p, -, hp⟩ := Option.bind_eq_some_iff.mp hact
        cases hp
        simp [Shared.busy, releaseCheckout]
    · cases hnot

theorem lockInv_step {e : Pool.Event Thread Choice} (hok : catchesAlone s e = true) (h : LockInv s)
    (hs : Pool.step (system defaultWorkspacesPath scmReclaimRoots) s e = some s') : LockInv s' := by
  obtain ⟨t, rfl, hstart, rfl⟩ | ⟨i, c, t, sh, t', rfl, hi, hact, rfl⟩ := Pool.step_cases hs
  · refine h.spawn ?_
    intro k hk
    obtain ⟨process, task⟩ := t
    cases task with
    | sync call phase =>
      have hphase := (holds_sync.mp hk).2
      cases phase <;> simp_all [system, starts, SyncPhase.holdsLock]
    | queue task | resolve call phase | resolveDefault call phase => cases hk
  · have hfrees : ¬freesAnother s ⟨sh, s.threads.set i t'⟩ i := by
      rw [freesAnother_iff h hs, hok]
      simp
    refine h.act hi ?_ ?_ ?_
    · intro k hk
      rcases act_takes hact hk with ⟨ht, -⟩ | ⟨hfree, -⟩
      · exact .inl ht
      · exact .inr hfree
    · intro k hk
      rcases act_takes hact hk with ⟨ht, hkeep⟩ | ⟨-, htaken⟩
      · exact hkeep (h.flagged t (List.mem_of_getElem? hi) k ht)
      · exact htaken
    · intro j u k hj hu hk
      by_contra hfree
      exact hfrees ⟨j, u, k, hj, hu, hk, h.flagged u (List.mem_of_getElem? hu) k hk, hfree⟩

end Run

/-- As long as no call that has released its lock fails into the outer `catch` while another call
holds it, at most one call at a time is between the acquisition of a lock and the end of its work;
and a step frees the lock of another call only by such a `catch`. -/
theorem checkout_lock_exclusive (defaultWorkspacesPath : String → String)
    (scmReclaimRoots : List String) (world : Capacity.World)
    (events : List (Pool.Event Thread Choice)) (s : State)
    (h : Runs (Pool.step (system defaultWorkspacesPath scmReclaimRoots))
      (fun s e => catchesAlone s e = true) ⟨{ world := world }, []⟩ events s) :
    (∀ (i j : Nat) (t u : Thread) (k : Nat × String), i ≠ j → s.threads[i]? = some t →
      s.threads[j]? = some u → t.holds k = true → u.holds k = false) ∧
    ∀ (i : Nat) (c : Choice) (s' : State),
      Pool.step (system defaultWorkspacesPath scmReclaimRoots) s (.act i c) = some s' →
        (¬freesAnother s s' i ↔ catchesAlone s (.act i c) = true) := by
  have hinv : LockInv s := by
    refine h.invariant (I := LockInv) (fun s e s' hok hI hs => lockInv_step hok hI hs) ?_
    exact ⟨by simp, by simp⟩
  constructor
  · intro i j t u k hij hi hj hk
    simpa using hinv.apart i j t u hij hi hj k hk
  · intro i c s' hs
    rw [freesAnother_iff hinv hs]
    simp

def replicas : Capacity.World where
  db := { scmSources := .single { id := "src_1", type := .git, localPath := "/srv/checkout" } }
  processes := [{ host := { processInstanceId := "host-1" } },
    { host := { processInstanceId := "host-2" } }]

def autoSync (process : Nat) : Thread := ⟨process, .sync ⟨"src_1", false⟩ .lock⟩

def now : Choice := { moment := ⟨1000, false⟩ }

def failing : Choice := { moment := ⟨1000, false⟩, dbFails := true }

/-- A sync of the second process holds the claim while the first process declines one; then the
first process starts another sync. -/
def declinedSync : List (Pool.Event Thread Choice) :=
  [.spawn (autoSync 1), .act 0 now, .act 0 now, .act 0 now,
    .spawn (autoSync 0), .act 1 now, .act 1 now, .act 1 now, .act 0 now, .act 0 now, .act 0 now]

def nextSync : List (Pool.Event Thread Choice) :=
  [.spawn (autoSync 0), .act 2 now, .act 2 now, .act 2 now]

theorem checkout_lock_exclusive_declined : ∃ s, Runs (Pool.step (system id [])) (fun s e => catchesAlone s e = true)
      ⟨{ world := replicas }, []⟩ (declinedSync ++ [.act 1 failing, .act 1 now] ++ nextSync) s ∧
    (s.threads[2]?.any fun t => t.holds (0, "src_1")) = true ∧
    ∀ (i j : Nat) (t u : Thread) (k : Nat × String), i ≠ j → s.threads[i]? = some t →
      s.threads[j]? = some u → t.holds k = true → u.holds k = false := by
  refine ⟨_, .of_guarded rfl, by decide +kernel, ?_⟩
  exact (checkout_lock_exclusive id [] replicas
    (declinedSync ++ [.act 1 failing, .act 1 now] ++ nextSync) _ (.of_guarded rfl)).1

theorem double_release_frees_another : ∃ s,
    run (Pool.step (system id [])) ⟨{ world := replicas }, []⟩ (declinedSync ++ nextSync ++
      [.act 1 failing, .act 1 now, .spawn (autoSync 0), .act 3 now]) = some s ∧
    (s.threads[2]?.any fun t => t.holds (0, "src_1")) = true ∧
    (s.threads[3]?.any fun t => t.holds (0, "src_1")) = true :=
  exists_of_run_any (by decide +kernel)

end A2Wave.Checkout
