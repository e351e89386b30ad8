import A2Wave.Lib.Retry
import A2Wave.Run.Launcher
import A2Wave.Scm.Removal

/-! `lib/workspace-cleanup-retry.ts` over the removal of an owned workspace in `lib/scm-workspace-removal.ts`: the
retries of both modules, the reservation between them and its hand-off.  What each access of the database meets
is given, so that any of them may fail and anyone else may write before it. -/

namespace A2Wave.CleanupHandOff

open Launcher (Failure findHandoffSignal DEFAULT_MAX_ATTEMPTS)

def DEFAULT_RETRY_DELAY_MS : Nat := 1000

def DEFAULT_MAX_RETRY_DELAY_MS : Nat := 30000

structure WorkspaceCleanupRetryOptions where
  retryDelayMs : Option Nat := none
  maxRetryDelayMs : Option Nat := none
  maxAttempts : Option Int := none
  context : String

/-- The input of `removeOwnedSourceWorkspaceGuarded`, with the token of the attempt. -/
structure OwnedRemoval where
  target : RemovalTarget
  scm : ScmPaths
  workload : OwnedScmWorkload
  attemptToken : String
  deriving DecidableEq

def OwnedRemoval.guarded (r : OwnedRemoval) : GuardedRemoval := ⟨r.target, r.scm, some r.workload, r.attemptToken⟩

def OwnedRemoval.reservationId (r : OwnedRemoval) : String := r.target.scmSourceId ++ ":" ++ r.target.workspaceName

structure Access where
  others : Db → Db := id
  throws : Option String := none

structure RemoveWorkspace where
  beforeRemove : Access := {}
  remove : Except String Unit

structure Cleanup where
  host : Host
  prepare : Except String (Option OwnedRemoval)
  reserve : Access := {}
  removeWorkspace : Nat → RemoveWorkspace
  handOff : Access := {}
  release : Access := {}

structure HandOff where
  removal : OwnedRemoval
  reserved : Db
  found : Db
  threw : Bool

structure World where
  db : Db
  /-- The tokens that `pendingReservationReleases` and `pendingReservationHandoffs` hold. -/
  pendingReservationReleases : RemovalTarget → Option String := fun _ => none
  pendingReservationHandoffs : RemovalTarget → Option String := fun _ => none
  waits : List Nat := []
  cleanups : List (Except Failure Unit) := []
  removals : List (Except Failure Unit) := []
  handOff : Option HandOff := none

section Retry

def WorkspaceCleanupRetryOptions.budget (o : WorkspaceCleanupRetryOptions) : Nat :=
  (max 1 (o.maxAttempts.getD DEFAULT_MAX_ATTEMPTS)).toNat

def WorkspaceCleanupRetryOptions.delayMs (o : WorkspaceCleanupRetryOptions) : Nat → Nat
  | 0 => o.retryDelayMs.getD DEFAULT_RETRY_DELAY_MS
  | 1 => o.retryDelayMs.getD DEFAULT_RETRY_DELAY_MS
  | k + 2 =>
    let retryDelayMs := o.retryDelayMs.getD DEFAULT_RETRY_DELAY_MS
    let maxRetryDelayMs := max retryDelayMs (o.maxRetryDelayMs.getD DEFAULT_MAX_RETRY_DELAY_MS)
    min (o.delayMs (k + 1) * 2) maxRetryDelayMs

def isHandedOff : Failure → Bool
  | .workspaceRemovalHandedOff _ => true
  | _ => false

def WorkspaceCleanupRetryOptions.policy (o : WorkspaceCleanupRetryOptions)
    (cleanup : Nat → World → Except Failure Unit × World) : Retry.Policy World Failure where
  attempt := cleanup
  terminal := isHandedOff
  pause k w := { w with waits := w.waits ++ [o.delayMs k] }

def retryWorkspaceCleanup (o : WorkspaceCleanupRetryOptions)
    (cleanup : Nat → World → Except Failure Unit × World) (w : World) : Except Failure Unit × World :=
  match (o.policy cleanup).run 1 (o.budget - 1) w with
  | (.succeeded, w) => (.ok (), w)
  | (.stopped error, w) => (.error error, w)
  | (.exhausted error, w) => (.error (.workspaceCleanupExhausted o.context error), w)

end Retry

section Guarded

-- `defaultWorkspacesPath`, as in the decision about a removal
variable (defaultWorkspacesPath : String → String)

def Access.commit (a : Access) (w : World) (tx : Db → Except String Db) : Except String Unit × World :=
  let db := a.others w.db
  match a.throws with
  | some e => (.error e, { w with db := db })
  | none =>
    match tx db with
    | .error e => (.error e, { w with db := db })
    | .ok db' => (.ok (), { w with db := db' })

/-- `scm.removeWorkspace`, with the re-check right before it. -/
def removeWorkspace (c : Cleanup) (r : OwnedRemoval) (i : Nat) (w : World) : Except Failure Unit × World :=
  let call := c.removeWorkspace i
  let (recheck, w) := call.beforeRemove.commit w fun db =>
    (checkRemoval defaultWorkspacesPath c.host db r.guarded).map fun _ => db
  let result : Except Failure Unit :=
    match recheck with
    | .error e => .error (.error e)
    | .ok () => call.remove.mapError .error
  (result, { w with removals := w.removals ++ [result] })

def disownOrQueueRetry (c : Cleanup) (r : OwnedRemoval) (reserved : Db) (w : World) : World :=
  let (written, w') := c.handOff.commit w fun db => .ok (handOffWorkspaceRemoval db r.guarded)
  let found := c.handOff.others w.db
  match written with
  | .ok () => { w' with handOff := some ⟨r, reserved, found, false⟩ }
  | .error _ =>
    { w' with
      pendingReservationHandoffs := Function.update w'.pendingReservationHandoffs r.target (some r.attemptToken)
      handOff := some ⟨r, reserved, found, true⟩ }

def releaseReservation (c : Cleanup) (r : OwnedRemoval) (w : World) : World :=
  match c.release.commit w fun db => .ok (releaseWorkspaceRemovalReservation db r.guarded) with
  | (.ok (), w') => w'
  | (.error _, w') =>
    { w' with
      pendingReservationReleases := Function.update w'.pendingReservationReleases r.target (some r.attemptToken) }

def removeOwnedSourceWorkspaceGuarded (c : Cleanup) (r : OwnedRemoval) (w : World) : Except Failure Unit × World :=
  if c.host.hasLostHeartbeatOwnership then
    (.error (.error "This instance lost its liveness lease and is no longer removing workspaces"), w)
  else
    match c.reserve.commit w fun db => reserveRemoval defaultWorkspacesPath c.host db r.guarded with
    | (.error e, w) => (.error (.error e), w)
    | (.ok (), w) =>
      let reserved := w.db
      match retryWorkspaceCleanup { context := r.reservationId } (removeWorkspace defaultWorkspacesPath c r) w with
      | (.error (.workspaceCleanupExhausted _ _), w) =>
        (.error (.workspaceRemovalHandedOff r.reservationId), disownOrQueueRetry c r reserved w)
      | (result, w) => (result, releaseReservation c r w)

/-- One call of the cleanup, such as `cleanupWorktreeIfEphemeral`. -/
def cleanupOnce (c : Cleanup) (w : World) : Except Failure Unit × World :=
  let (result, w) : Except Failure Unit × World :=
    match c.prepare with
    | .error e => (.error (.error e), w)
    | .ok none => (.ok (), w)
    | .ok (some r) => removeOwnedSourceWorkspaceGuarded defaultWorkspacesPath c r w
  (result, { w with cleanups := w.cleanups ++ [result] })

def cleanupWorkspaceOrHandOff (o : WorkspaceCleanupRetryOptions) (cleanup : Nat → Cleanup) (w : World) :
    Except Failure Unit × World :=
  match retryWorkspaceCleanup o (fun k => cleanupOnce defaultWorkspacesPath (cleanup k)) w with
  | (.ok (), w) => (.ok (), w)
  | (.error error, w) =>
    match findHandoffSignal error with
    | some _ => (.ok (), w)
    | none => (.error error, w)

end Guarded

def HasReservation (r : OwnedRemoval) (db : Db) : Prop :=
  ∃ row ∈ db.scmWorkspaceRemovals.rows, r.guarded.owns row = true

def Access.Keeps (r : OwnedRemoval) (a : Access) : Prop := ∀ db, HasReservation r db → HasReservation r (a.others db)

def Cleanup.KeepsReservation (c : Cleanup) : Prop :=
  ∀ r, c.prepare = .ok (some r) → (∀ i, (c.removeWorkspace i).beforeRemove.Keeps r) ∧ c.handOff.Keeps r

/-- The inline attempts ran out behind a committed reservation, and the write of the hand-off only took its owner
away, or is queued. -/
structure HandOff.Settled (h : HandOff) (w : World) : Prop where
  committed : HasReservation h.removal h.reserved
  tried : w.removals.length = DEFAULT_MAX_ATTEMPTS
  failed : .ok () ∉ w.removals
  written : h.threw = false → w.db = handOffWorkspaceRemoval h.found h.removal.guarded
  queued : h.threw = true →
    w.db = h.found ∧ w.pendingReservationHandoffs h.removal.target = some h.removal.attemptToken

section Laws

variable {defaultWorkspacesPath : String → String} {c : Cleanup} {r : OwnedRemoval} {w w' : World}

theorem commit_cases {a : Access} {tx : Db → Except String Db} {result : Except String Unit}
    (h : a.commit w tx = (result, w')) :
    (∃ e, result = .error e ∧ w' = { w with db := a.others w.db }) ∨
      ∃ db, result = .ok () ∧ tx (a.others w.db) = .ok db ∧ w' = { w with db := db } := by
  unfold Access.commit at h
  dsimp only at h
  split at h
  · cases h
    exact .inl ⟨_, rfl, rfl⟩
  · split at h
    · cases h
      exact .inl ⟨_, rfl, rfl⟩
    · rename_i db htx
      cases h
      exact .inr ⟨db, rfl, htx, rfl⟩

variable {result : Except Failure Unit}

theorem removeWorkspace_cases {i : Nat}
    (h : removeWorkspace defaultWorkspacesPath c r i w = (result, w')) :
    (result = .ok () ∨ ∃ e, result = .error (.error e)) ∧
      w' = { w with db := (c.removeWorkspace i).beforeRemove.others w.db, removals := w.removals ++ [result] } := by
  unfold removeWorkspace at h
  dsimp only at h
  cases hcommit : (c.removeWorkspace i).beforeRemove.commit w fun db =>
    (checkRemoval defaultWorkspacesPath c.host db r.guarded).map fun _ => db with
  | mk recheck w₁ =>
    rw [hcommit] at h
    cases h
    obtain ⟨e, rfl, rfl⟩ | ⟨db, rfl, hcheck, rfl⟩ := commit_cases hcommit
    · exact ⟨.inr ⟨e, rfl⟩, rfl⟩
    · have hdb : db = (c.removeWorkspace i).beforeRemove.others w.db := by
        cases hok : checkRemoval defaultWorkspacesPath c.host
          ((c.removeWorkspace i).beforeRemove.others w.db) r.guarded with
        | error e =>
          rw [hok] at hcheck
          cases hcheck
        | ok u =>
          rw [hok] at hcheck
          cases hcheck
          rfl
      subst hdb
      refine ⟨?_, rfl⟩
      dsimp only
      cases (c.removeWorkspace i).remove with
      | error e => exact .inr ⟨e, rfl⟩
      | ok u => exact .inl rfl

structure Inline (r : OwnedRemoval) (start : World) (kept : Prop) (n : Nat) (w : World) : Prop where
  tried : w.removals.length = n
  failed : .ok () ∉ w.removals
  cleanups : w.cleanups = start.cleanups
  handOff : w.handOff = none
  reservation : kept → HasReservation r w.db

theorem Inline.attempt {start : World} {kept : Prop} {n i : Nat} {e : Failure} (hI : Inline r start kept n w)
    (hkept : kept → (c.removeWorkspace i).beforeRemove.Keeps r)
    (h : removeWorkspace defaultWorkspacesPath c r i w = (.error e, w')) : Inline r start kept (n + 1) w' := by
  obtain ⟨-, rfl⟩ := removeWorkspace_cases h
  refine ⟨?_, ?_, hI.cleanups, hI.handOff, ?_⟩
  · rw [List.length_append, hI.tried]
    rfl
  · simpa using hI.failed
  · intro hk
    exact hkept hk _ (hI.reservation hk)

theorem retry_removeWorkspace {context : String} {kept : Prop}
    (hkept : kept → ∀ i, (c.removeWorkspace i).beforeRemove.Keeps r) (hI : Inline r w kept 0 w)
    (h : retryWorkspaceCleanup { context := context } (removeWorkspace defaultWorkspacesPath c r) w = (result, w')) :
    (result = .ok () ∧ w'.removals.length ≤ DEFAULT_MAX_ATTEMPTS ∧ w'.cleanups = w.cleanups ∧ w'.handOff = none) ∨
    (∃ cause, result = .error (.workspaceCleanupExhausted context cause)) ∧
      Inline r w kept DEFAULT_MAX_ATTEMPTS w' := by
  have hrule := @Retry.Policy.run_rule World Failure
    (WorkspaceCleanupRetryOptions.policy { context := context } (removeWorkspace defaultWorkspacesPath c r))
    (Inline r w kept)
    (fun o v => match o with
      | .succeeded => v.removals.length ≤ DEFAULT_MAX_ATTEMPTS ∧ v.cleanups = w.cleanups ∧ v.handOff = none
      | .stopped _ => False
      | .exhausted _ => Inline r w kept DEFAULT_MAX_ATTEMPTS v)
    1 (DEFAULT_MAX_ATTEMPTS - 1) w ?_ ?_ ?_ ?_ hI
  · unfold retryWorkspaceCleanup at h
    have hbudget : WorkspaceCleanupRetryOptions.budget { context := context } = DEFAULT_MAX_ATTEMPTS := rfl
    rw [hbudget] at h
    split at h
    · rename_i v hv
      cases h
      rw [hv] at hrule
      exact .inl ⟨rfl, hrule⟩
    · rename_i e v hv
      rw [hv] at hrule
      exact hrule.elim
    · rename_i e v hv
      cases h
      rw [hv] at hrule
      exact .inr ⟨⟨e, rfl⟩, hrule⟩
  · intro n v t hn hv ht
    obtain ⟨-, rfl⟩ := removeWorkspace_cases ht
    refine ⟨?_, hv.cleanups, hv.handOff⟩
    rw [List.length_append, hv.tried]
    exact Nat.succ_le_of_lt (Nat.lt_of_le_of_lt hn (by decide))
  · intro n v e t _ _ ht hterminal
    obtain ⟨hcases, -⟩ := removeWorkspace_cases ht
    obtain hcases | ⟨m, hm⟩ := hcases
    · cases hcases
    · cases hm
      cases hterminal
  · intro v e t hv ht _
    exact hv.attempt (fun hk => hkept hk _) ht
  · intro n v e t _ hv ht _
    have hnext := hv.attempt (fun hk => hkept hk _) ht
    exact ⟨hnext.tried, hnext.failed, hnext.cleanups, hnext.handOff, hnext.reservation⟩

theorem hasReservation_handOff {db : Db} (h : HasReservation r db) :
    HasReservation r (handOffWorkspaceRemoval db r.guarded) := by
  obtain ⟨row, hrow, howns⟩ := h
  refine ⟨{ row with ownerInstanceId := none }, ?_, by simpa [GuardedRemoval.owns] using howns⟩
  refine List.mem_map.mpr ⟨row, hrow, ?_⟩
  rw [if_pos howns]

theorem hasReservation_reserve {host : Host} {db db' : Db}
    (h : reserveRemoval defaultWorkspacesPath host db r.guarded = .ok db') : HasReservation r db' := by
  obtain ⟨-, removals, hins, rfl⟩ := reserveRemoval_ok h
  unfold Table.insert at hins
  split at hins
  · cases hins
  · cases hins
    exact ⟨_, List.mem_append_right _ List.mem_cons_self, by simp [GuardedRemoval.owns, OwnedRemoval.guarded]⟩

theorem disownOrQueueRetry_settled {start : World} {kept : Prop} {reserved : Db}
    (hcommitted : HasReservation r reserved) (hkept : kept → c.handOff.Keeps r)
    (hI : Inline r start kept DEFAULT_MAX_ATTEMPTS w) :
    ∃ h, (disownOrQueueRetry c r reserved w).handOff = some h ∧
      (disownOrQueueRetry c r reserved w).cleanups = start.cleanups ∧
      h.Settled (disownOrQueueRetry c r reserved w) ∧
      (kept → HasReservation h.removal (disownOrQueueRetry c r reserved w).db) := by
  unfold disownOrQueueRetry
  cases hcommit : c.handOff.commit w fun db => .ok (handOffWorkspaceRemoval db r.guarded) with
  | mk written w₁ =>
    have hfound : kept → HasReservation r (c.handOff.others w.db) := fun hk => hkept hk _ (hI.reservation hk)
    obtain ⟨e, rfl, rfl⟩ | ⟨db, rfl, hdb, rfl⟩ := commit_cases hcommit
    · refine ⟨_, rfl, hI.cleanups, ⟨hcommitted, hI.tried, hI.failed, nofun, ?_⟩, hfound⟩
      exact fun _ => ⟨rfl, Function.update_self _ _ _⟩
    · cases hdb
      refine ⟨_, rfl, hI.cleanups, ⟨hcommitted, hI.tried, hI.failed, fun _ => rfl, nofun⟩, ?_⟩
      exact fun hk => hasReservation_handOff (hfound hk)

theorem releaseReservation_frame : (releaseReservation c r w).removals = w.removals ∧
    (releaseReservation c r w).cleanups = w.cleanups ∧ (releaseReservation c r w).handOff = w.handOff := by
  unfold releaseReservation
  split
  · rename_i hcommit
    obtain ⟨e, he, -⟩ | ⟨db, -, -, rfl⟩ := commit_cases hcommit
    · cases he
    · exact ⟨rfl, rfl, rfl⟩
  · rename_i hcommit
    obtain ⟨e, -, rfl⟩ | ⟨db, hdb, -⟩ := commit_cases hcommit
    · exact ⟨rfl, rfl, rfl⟩
    · cases hdb

inductive CleanupStep (c : Cleanup) (w : World) : Except Failure Unit → World → Prop
  | succeeds {v : World} : v.cleanups = w.cleanups → v.handOff = none → v.removals.length ≤ DEFAULT_MAX_ATTEMPTS →
      CleanupStep c w (.ok ()) v
  | handsOff {v : World} {h : HandOff} {reservationId : String} : v.cleanups = w.cleanups → v.handOff = some h → h.Settled v →
      (c.KeepsReservation → HasReservation h.removal v.db) →
      CleanupStep c w (.error (.workspaceRemovalHandedOff reservationId)) v
  | fails {v : World} {e : String} : v.cleanups = w.cleanups → v.handOff = none → v.removals = [] →
      CleanupStep c w (.error (.error e)) v

theorem removeOwned_step (hprepare : c.prepare = .ok (some r))
    (hremovals : w.removals = []) (hhandOff : w.handOff = none)
    (h : removeOwnedSourceWorkspaceGuarded defaultWorkspacesPath c r w = (result, w')) :
    CleanupStep c w result w' := by
  unfold removeOwnedSourceWorkspaceGuarded at h
  split at h
  · cases h
    exact .fails rfl hhandOff hremovals
  split at h
  · rename_i e w₁ hcommit
    cases h
    obtain ⟨-, -, rfl⟩ | ⟨db, hdb, -⟩ := commit_cases hcommit
    · exact .fails rfl hhandOff hremovals
    · cases hdb
  rename_i w₁ hcommit
  obtain ⟨e, he, -⟩ | ⟨db, -, hreserve, rfl⟩ := commit_cases hcommit
  · cases he
  have hcommitted := hasReservation_reserve hreserve
  have hstart : Inline r { w with db := db } c.KeepsReservation 0 { w with db := db } :=
    ⟨by rw [hremovals]; rfl, by simp [hremovals], rfl, hhandOff, fun _ => hcommitted⟩
  dsimp only at h
  split at h
  · rename_i context cause w₂ hretry
    cases h
    obtain ⟨hok, -⟩ | ⟨-, hI⟩ := retry_removeWorkspace (fun hk => (hk r hprepare).1) hstart hretry
    · cases hok
    · obtain ⟨handOff, hsome, hcleanups, hsettled, hkept⟩ :=
        disownOrQueueRetry_settled hcommitted (fun hk => (hk r hprepare).2) hI
      exact .handsOff hcleanups hsome hsettled hkept
  · rename_i result' w₂ hnot hretry
    cases h
    obtain ⟨rfl, hlength, hcleanups, hnone⟩ | ⟨⟨cause, rfl⟩, -⟩ :=
      retry_removeWorkspace (fun hk => (hk r hprepare).1) hstart hretry
    · obtain ⟨hremovals', hcleanups', hhandOff'⟩ := @releaseReservation_frame c r w₂
      exact .succeeds (hcleanups'.trans hcleanups) (hhandOff'.trans hnone) (by rw [hremovals']; exact hlength)
    · exact absurd rfl (hnot _ _)

theorem cleanupOnce_step (hremovals : w.removals = []) (hhandOff : w.handOff = none)
    (h : cleanupOnce defaultWorkspacesPath c w = (result, w')) :
    ∃ v, CleanupStep c w result v ∧ w' = { v with cleanups := v.cleanups ++ [result] } := by
  unfold cleanupOnce at h
  cases hprepare : c.prepare with
  | error e =>
    rw [hprepare] at h
    cases h
    exact ⟨w, .fails rfl hhandOff hremovals, rfl⟩
  | ok target =>
    rw [hprepare] at h
    cases target with
    | none =>
      cases h
      exact ⟨w, .succeeds rfl hhandOff (by rw [hremovals]; exact Nat.zero_le _), rfl⟩
    | some r =>
      cases h
      exact ⟨_, removeOwned_step hprepare hremovals hhandOff rfl, rfl⟩

structure Pending (n : Nat) (w : World) : Prop where
  called : w.cleanups.length = n
  failed : ∀ result ∈ w.cleanups, ∃ e, result = .error (.error e)
  removals : w.removals = []
  handOff : w.handOff = none

theorem Pending.not_ok {n : Nat} (h : Pending n w) : .ok () ∉ w.cleanups := by
  intro hok
  obtain ⟨e, he⟩ := h.failed _ hok
  cases he

inductive Ends (kept : Prop) (budget : Nat) : Retry.Outcome Failure → World → Prop
  | succeeds {v : World} : .ok () ∈ v.cleanups → v.handOff = none → v.cleanups.length ≤ budget →
      v.removals.length ≤ DEFAULT_MAX_ATTEMPTS → Ends kept budget .succeeded v
  | handsOff {v : World} {h : HandOff} {reservationId : String} : .ok () ∉ v.cleanups → v.handOff = some h → v.cleanups.length ≤ budget →
      h.Settled v → (kept → HasReservation h.removal v.db) →
      Ends kept budget (.stopped (.workspaceRemovalHandedOff reservationId)) v
  | fails {v : World} {e : String} : .ok () ∉ v.cleanups → v.handOff = none → v.cleanups.length ≤ budget → v.removals = [] →
      Ends kept budget (.exhausted (.error e)) v

theorem budget_pos (o : WorkspaceCleanupRetryOptions) : 1 ≤ o.budget := by
  unfold WorkspaceCleanupRetryOptions.budget
  omega

theorem run_ends {o : WorkspaceCleanupRetryOptions} {cleanup : Nat → Cleanup} (hw : Pending 0 w) :
    Ends (∀ k, (cleanup k).KeepsReservation) o.budget
      ((o.policy fun k => cleanupOnce defaultWorkspacesPath (cleanup k)).run 1 (o.budget - 1) w).1
      ((o.policy fun k => cleanupOnce defaultWorkspacesPath (cleanup k)).run 1 (o.budget - 1) w).2 := by
  have hbudget := budget_pos o
  refine @Retry.Policy.run_rule World Failure _ Pending
    (Ends (∀ k, (cleanup k).KeepsReservation) o.budget) 1 (o.budget - 1) w ?_ ?_ ?_ ?_ hw
  · intro n v t hn hv ht
    obtain ⟨u, hstep, rfl⟩ := cleanupOnce_step hv.removals hv.handOff ht
    cases hstep with
    | succeeds hcleanups hnone hlength =>
      refine .succeeds (by simp) hnone ?_ hlength
      rw [List.length_append, hcleanups, hv.called, List.length_singleton]
      omega
  · intro n v e t hn hv ht hterminal
    obtain ⟨u, hstep, rfl⟩ := cleanupOnce_step hv.removals hv.handOff ht
    cases hstep with
    | handsOff hcleanups hsome hsettled hkept =>
      refine .handsOff ?_ hsome ?_ ⟨hsettled.committed, hsettled.tried, hsettled.failed, hsettled.written,
        hsettled.queued⟩ fun hk => hkept (hk _)
      · simpa [hcleanups] using hv.not_ok
      · rw [List.length_append, hcleanups, hv.called, List.length_singleton]
        omega
    | fails => cases hterminal
  · intro v e t hv ht hterminal
    obtain ⟨u, hstep, rfl⟩ := cleanupOnce_step hv.removals hv.handOff ht
    cases hstep with
    | handsOff => cases hterminal
    | fails hcleanups hnone hnil =>
      refine .fails ?_ hnone ?_ hnil
      · simpa [hcleanups] using hv.not_ok
      · rw [List.length_append, hcleanups, hv.called, List.length_singleton]
        omega
  · intro n v e t hn hv ht hterminal
    obtain ⟨u, hstep, rfl⟩ := cleanupOnce_step hv.removals hv.handOff ht
    cases hstep with
    | handsOff => cases hterminal
    | @fails u' e hcleanups hnone hnil =>
      refine ⟨?_, ?_, hnil, hnone⟩
      · simp [WorkspaceCleanupRetryOptions.policy, hcleanups, hv.called]
      · intro result hresult
        rcases List.mem_append.mp hresult with hresult | hresult
        · rw [hcleanups] at hresult
          exact hv.failed result hresult
        · rw [List.mem_singleton.mp hresult]
          exact ⟨e, rfl⟩

end Laws

/-- The boundary resolves just when a call of the cleanup returned or the removal was handed off behind its
reservation, which stays unless somebody else takes it away. -/
theorem cleanup_resolves_iff (defaultWorkspacesPath : String → String) (o : WorkspaceCleanupRetryOptions)
    (cleanup : Nat → Cleanup) (db : Db) :
    let done := cleanupWorkspaceOrHandOff defaultWorkspacesPath o cleanup { db := db }
    (done.1 = .ok () ↔ .ok () ∈ done.2.cleanups ∨ done.2.handOff.isSome) ∧
    (done.1 = .ok () ∨ ∃ cause, done.1 = .error (.workspaceCleanupExhausted o.context cause)) ∧
    done.2.cleanups.length ≤ o.budget ∧ done.2.removals.length ≤ DEFAULT_MAX_ATTEMPTS ∧
    ∀ h ∈ done.2.handOff, h.Settled done.2 ∧
      ((∀ k, (cleanup k).KeepsReservation) → HasReservation h.removal done.2.db) := by
  have hends := @run_ends defaultWorkspacesPath { db := db } o cleanup ⟨rfl, by simp, rfl, rfl⟩
  unfold cleanupWorkspaceOrHandOff retryWorkspaceCleanup
  generalize (o.policy fun k => cleanupOnce defaultWorkspacesPath (cleanup k)).run 1 (o.budget - 1)
    { db := db } = final at hends
  obtain ⟨outcome, w⟩ := final
  dsimp only at hends ⊢
  cases hends with
  | succeeds hok hnone hcleanups hremovals =>
    dsimp only
    rw [hnone]
    exact ⟨iff_of_true rfl (.inl hok), .inl rfl, hcleanups, hremovals, by simp⟩
  | @handsOff _ h _ hok hsome hcleanups hsettled hkept =>
    dsimp only [findHandoffSignal]
    rw [hsome]
    refine ⟨iff_of_true rfl (.inr rfl), .inl rfl, hcleanups, hsettled.tried.le, ?_⟩
    intro h' hh'
    obtain rfl : h = h' := by simpa using hh'
    exact ⟨hsettled, hkept⟩
  | fails hok hnone hcleanups hremovals =>
    dsimp only [findHandoffSignal]
    rw [hnone, hremovals]
    refine ⟨iff_of_false nofun ?_, .inr ⟨_, rfl⟩, hcleanups, Nat.zero_le _, by simp⟩
    rintro (hok' | hsome)
    · exact hok hok'
    · cases hsome

def leased : Db where
  scmSources := ⟨[{ id := "scm_1", type := .git, localPath := "/src", workspacesPath := some "/ws" }], by simp⟩
  scmWorkloadLeases := ⟨[{ workload := runWorkload "run_1", agentId := "agent_1", scmSourceId := "scm_1"
                           phase := .active, ownerInstanceId := some "host-1" }], by simp⟩

def busy (handOff : Access) : Cleanup where
  host := { processInstanceId := "host-1" }
  prepare := .ok (some ⟨⟨"scm_1", "wt"⟩, ⟨"/src", "/ws"⟩, ⟨runWorkload "run_1", "host-1"⟩, "token-1"⟩)
  removeWorkspace _ := { remove := .error "EBUSY" }
  handOff := handOff

theorem cleanup_resolves_without_handOff :
    let gone := cleanupWorkspaceOrHandOff id { context := "" }
      (fun _ => busy { others := fun db => { db with scmWorkspaceRemovals := .empty } }) { db := leased }
    let threw := cleanupWorkspaceOrHandOff id { context := "" }
      (fun _ => busy { throws := some "SQLITE_BUSY" }) { db := leased }
    let none := cleanupWorkspaceOrHandOff id { context := "", maxAttempts := some 0 }
      (fun _ => busy {}) { db := leased }
    (gone.1 = .ok () ∧ gone.2.cleanups = [.error (.workspaceRemovalHandedOff "scm_1:wt")] ∧
      gone.2.db.scmWorkspaceRemovals.rows = []) ∧
    (threw.1 = .ok () ∧ threw.2.cleanups = [.error (.workspaceRemovalHandedOff "scm_1:wt")] ∧
      threw.2.db.scmWorkspaceRemovals.rows.map ScmWorkspaceRemoval.ownerInstanceId = [some "host-1"]) ∧
    none.2.cleanups.length = 1 :=
  by decide +kernel

end A2Wave.CleanupHandOff
