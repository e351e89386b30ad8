import Mathlib
import A2Wave.Run.Conversation

/-! `lib/run-retry-in-place.ts`: the retry of a failed run on its own row, as the route of `routes/runs.ts` makes
it.  The claim, each access of the admission and the restore are separate writes, and any other transaction may
commit between two of them. -/

namespace A2Wave.RetryInPlace

open Transition Capacity Conversation

structure Request where
  process : Nat
  agentId : String
  maxConcurrency : Nat
  options : RetryMetadataOptions

structure Restoration where
  originalRun : Run
  before : Option Run
  left : Option Run
  found : Option Run
  now : Nat
  restored : Option Run

structure World where
  db : Db
  processes : List Process
  failures : Nat := 0
  /-- How many calls of `claimRunForRetry` have succeeded. -/
  claims : Nat := 0
  restorations : List Restoration := []

inductive Phase
  | select
  | settling (originalRun : Run)
  | claimRunForRetry (originalRun : Run)
  | tryAcquireSlot (originalRun : Run) (before left : Option Run) (phase : AcquirePhase)
  | restoreFailedRun (originalRun : Run) (before left : Option Run) (status : Nat)
  | rerun
  | answered (status : Nat)

inductive Thread
  | retry (req : Request) (phase : Phase)
  | other (change : Db → Db)
  | finished

structure Choice extends Moment where
  releaseSettling : Bool := false

section Model

variable (runId : String)

def hasFailed (db : Db) : Bool := (db.runs.find? runId).any (·.status = .failed)

def World.write (w : World) (db : Db) : World :=
  { w with
    db := db
    failures := w.failures + if !hasFailed runId w.db && hasFailed runId db then 1 else 0 }

def claimRow (now : Nat) (metadata : Fields) (r : Run) : Run :=
  { retryRow metadata r with updatedAt := now }

def claimRunForRetry (now : Nat) (db : Db) (metadata : Fields) : Option Db :=
  db.casRun runId (·.status = .failed) (claimRow now metadata) fun _ => rfl

def restoreRow (now : Nat) (previous r : Run) : Run :=
  { Conversation.restoreRow previous r with updatedAt := now }

theorem restoreRow_id (now : Nat) (previous r : Run) : (restoreRow now previous r).id = r.id := rfl

def restoreFailedRun (now : Nat) (db : Db) (previous : Run) : Db :=
  { db with runs := db.runs.updateWhere (·.id = runId) (restoreRow now previous) (restoreRow_id now previous) }

def isRunExecutionSettling (p : Process) (c : Choice) : Bool :=
  p.host.executionLeases.any (·.runId = runId) || c.releaseSettling

def leftBy (left before after : Option Run) : Option Run := if before = left then after else left

def actRetry (w : World) (req : Request) (p : Process) (c : Choice) : Phase → Option (World × Phase)
  | .select =>
    some (w, match w.db.runs.find? runId with
      | none => .answered 404
      | some row => if row.status = .failed then .settling row else .rerun)
  | .settling originalRun =>
    some (w, if isRunExecutionSettling runId p c then .answered 409 else .claimRunForRetry originalRun)
  | .claimRunForRetry originalRun =>
    match claimRunForRetry runId p.host.now w.db
        (buildRetryMetadata originalRun.executionMetadata req.options) with
    | none => some (w, .answered 409)
    | some db =>
      some ({ w.write runId db with claims := w.claims + 1 },
        .tryAcquireSlot originalRun (w.db.runs.find? runId) (db.runs.find? runId) .admitRun)
  | .tryAcquireSlot originalRun before left (.returned slot) =>
    some (w, match slot with
      | .queueFull => .restoreFailedRun originalRun before left 429
      | .queued => .answered 202
      | .acquired => .answered 201)
  | .tryAcquireSlot originalRun before left (.threw _) =>
    some (w, .restoreFailedRun originalRun before left 500)
  | .tryAcquireSlot originalRun before left phase =>
    (actAcquire p w.db req.agentId runId req.maxConcurrency phase).map fun (db, p', phase') =>
      ({ w.write runId db with processes := w.processes.set req.process p' },
        .tryAcquireSlot originalRun before (leftBy left (w.db.runs.find? runId) (db.runs.find? runId)) phase')
  | .restoreFailedRun originalRun before left status =>
    let db := restoreFailedRun runId p.host.now w.db originalRun
    let found := w.db.runs.find? runId
    let restoration := ⟨originalRun, before, left, found, p.host.now, db.runs.find? runId⟩
    some ({ w.write runId db with restorations := w.restorations ++ [restoration] }, .answered status)
  | .rerun => none
  | .answered _ => none

def act (w : World) (t : Thread) (c : Choice) : Option (World × Thread) :=
  match t with
  | .retry req phase =>
    w.processes[req.process]?.bind fun p =>
      (actRetry runId w req (p.at c.toMoment) c phase).map fun (w', phase') => (w', .retry req phase')
  | .other change => some (w.write runId (change w.db), .finished)
  | .finished => none

def starts : Thread → Bool
  | .retry _ .select => true
  | .other _ => true
  | _ => false

def program : Pool.Program World Thread Choice where
  start _ _ t := starts t
  act := act runId

def World.Initial (w : World) : Prop :=
  w.failures = (if hasFailed runId w.db then 1 else 0) ∧ w.claims = 0 ∧ w.restorations = []

end Model

abbrev State := Pool World Thread

def failureOf (r : Run) : RunStatus × Option Fields × Option Fields := (r.status, r.result, r.executionMetadata)

def Restoration.Exact (e : Restoration) : Prop :=
  if e.found = e.left then e.restored.map failureOf = e.before.map failureOf else e.restored = e.found

def AlreadyRestored (now : Nat) (previous r : Run) : Prop :=
  r.status = .failed ∧ r.result = previous.result ∧ r.workDir = previous.workDir ∧
    r.ownerInstanceId = previous.ownerInstanceId ∧ r.queuedAt = previous.queuedAt ∧
    r.executionMetadata = previous.executionMetadata ∧ r.updatedAt = now

/-- Nobody moved the row on since the claim, and the claim took the row that the route had read;
or there is nothing left to overwrite. -/
def Restoration.Undisturbed (e : Restoration) : Prop :=
  if e.found = e.left then
    ∀ r ∈ e.before, e.originalRun.result = r.result ∧ e.originalRun.executionMetadata = r.executionMetadata
  else ∀ r ∈ e.found, AlreadyRestored e.now e.originalRun r

instance (e : Restoration) : Decidable e.Exact := by
  unfold Restoration.Exact
  infer_instance

section Laws

variable {runId : String}

def FailedRow (row : Option Run) : Prop := ∃ r, row = some r ∧ r.status = .failed

def World.Bounded (runId : String) (w : World) : Prop :=
  w.claims + (if hasFailed runId w.db then 1 else 0) ≤ w.failures

structure Restoration.Recorded (e : Restoration) : Prop where
  originalRun : e.originalRun.status = .failed
  before : FailedRow e.before
  left : e.left.isSome
  restored : e.restored = e.found.map (restoreRow e.now e.originalRun)

def Phase.Carried : Phase → Prop
  | .settling originalRun => originalRun.status = .failed
  | .claimRunForRetry originalRun => originalRun.status = .failed
  | .tryAcquireSlot originalRun before left _ =>
    originalRun.status = .failed ∧ FailedRow before ∧ left.isSome
  | .restoreFailedRun originalRun before left _ =>
    originalRun.status = .failed ∧ FailedRow before ∧ left.isSome
  | _ => True

def Thread.Carried : Thread → Prop
  | .retry _ phase => phase.Carried
  | _ => True

theorem hasFailed_eq_true_iff {db : Db} : hasFailed runId db = true ↔ FailedRow (db.runs.find? runId) := by
  cases h : db.runs.find? runId with
  | none | some r => simp [hasFailed, FailedRow, h]

theorem World.Bounded.write {w : World} (h : w.Bounded runId) (db : Db) : (w.write runId db).Bounded runId := by
  simp only [World.Bounded, World.write] at h ⊢
  by_cases hbefore : hasFailed runId w.db = true <;> by_cases hafter : hasFailed runId db = true
  all_goals
    simp only [hbefore, hafter, Bool.not_true, Bool.not_false, Bool.and_true, Bool.and_false, if_true] at h ⊢
    omega

theorem restoreRow_eq_self_iff {now : Nat} {previous r : Run} :
    restoreRow now previous r = r ↔ AlreadyRestored now previous r := by
  cases r
  simp only [restoreRow, Conversation.restoreRow, AlreadyRestored, Run.mk.injEq]
  constructor
  · rintro ⟨-, rfl, rfl, rfl, -, -, rfl, rfl, -, -, rfl, -, rfl⟩
    exact ⟨rfl, rfl, rfl, rfl, rfl, rfl, rfl⟩
  · rintro ⟨rfl, rfl, rfl, rfl, rfl, rfl, rfl⟩
    simp

theorem Restoration.Recorded.exact_iff {e : Restoration} (h : e.Recorded) : e.Exact ↔ e.Undisturbed := by
  obtain ⟨r, hr, hfailed⟩ := h.before
  unfold Restoration.Exact Restoration.Undisturbed
  split
  · rename_i hfound
    obtain ⟨l, hl⟩ := Option.isSome_iff_exists.mp h.left
    rw [h.restored, hfound, hl, hr]
    simp [failureOf, restoreRow, Conversation.restoreRow, hfailed]
  · rw [h.restored]
    cases e.found with
    | none => simp
    | some r => simp [restoreRow_eq_self_iff]

theorem find?_claimRunForRetry {now : Nat} {db db' : Db} {metadata : Fields}
    (h : claimRunForRetry runId now db metadata = some db') :
    ∃ r, db.runs.find? runId = some r ∧ r.status = .failed ∧
      db'.runs.find? runId = some (claimRow now metadata r) := by
  obtain ⟨r, hr, hfailed, hr', -⟩ := Db.casRun_find? h
  exact ⟨r, hr, by simpa using hfailed, hr'⟩

theorem find?_restoreFailedRun (now : Nat) (db : Db) (previous : Run) :
    (restoreFailedRun runId now db previous).runs.find? runId =
      (db.runs.find? runId).map (restoreRow now previous) := by
  simp only [restoreFailedRun, Table.find?_updateWhere]
  cases h : db.runs.find? runId with
  | none => rfl
  | some r =>
    have hid := Table.find?_some_key h
    rw [key_run] at hid
    simp [hid]

theorem find?_actAcquire {p p' : Process} {db db' : Db} {agentId : String} {max : Nat}
    {phase phase' : AcquirePhase} (h : actAcquire p db agentId runId max phase = some (db', p', phase')) :
    db'.runs.find? runId = db.runs.find? runId ∨ (db'.runs.find? runId).isSome := by
  cases actAcquire_step h with
  | admits hadm =>
    obtain ⟨-, -, -, rfl⟩ | ⟨db₁, db₂, -, -, hcas, hact⟩ := admitRun_cases hadm
    · exact .inl rfl
    · obtain ⟨r, -, -, hr, -⟩ := Db.casRun_find? hcas
      rw [hact.only.runs, hr]
      exact .inr rfl
  | activates hact => exact .inl (by rw [(activate_onlyActivates hact).runs])
  | acquires => exact .inl rfl

theorem isSome_leftBy {left before after : Option Run} (h : left.isSome)
    (hafter : after = before ∨ after.isSome) : (leftBy left before after).isSome := by
  unfold leftBy
  split
  · rename_i heq
    obtain rfl | hsome := hafter
    · rw [heq]
      exact h
    · exact hsome
  · exact h

structure World.Valid (runId : String) (w : World) : Prop where
  bounded : w.Bounded runId
  recorded : ∀ e ∈ w.restorations, e.Recorded

theorem World.Valid.write {w : World} (h : w.Valid runId) (db : Db) : (w.write runId db).Valid runId :=
  ⟨h.bounded.write db, h.recorded⟩

theorem World.Valid.claim {w : World} {now : Nat} {metadata : Fields} {db : Db} (h : w.Valid runId)
    (hclaim : claimRunForRetry runId now w.db metadata = some db) :
    World.Valid runId { w.write runId db with claims := w.claims + 1 } := by
  obtain ⟨r, hr, hfailed, hr'⟩ := find?_claimRunForRetry hclaim
  have hbefore : hasFailed runId w.db = true := hasFailed_eq_true_iff.mpr ⟨r, hr, hfailed⟩
  have hafter : hasFailed runId db = false := by simp [hasFailed, hr', claimRow, retryRow]
  have hbounded := h.bounded
  simp only [World.Bounded, hbefore, if_true] at hbounded
  refine ⟨?_, h.recorded⟩
  simp only [World.Bounded, World.write, hbefore, hafter]
  simpa using hbounded

theorem valid_actRetry {w w' : World} {req : Request} {p : Process} {c : Choice} {phase phase' : Phase}
    (hw : w.Valid runId) (hphase : phase.Carried) (h : actRetry runId w req p c phase = some (w', phase')) :
    w'.Valid runId ∧ phase'.Carried := by
  cases phase with
  | select =>
    cases h
    refine ⟨hw, ?_⟩
    split
    · trivial
    · split
      · rename_i hfailed
        exact hfailed
      · trivial
  | settling originalRun =>
    cases h
    refine ⟨hw, ?_⟩
    split
    · trivial
    · exact hphase
  | claimRunForRetry originalRun =>
    simp only [actRetry] at h
    split at h
    · cases h
      exact ⟨hw, trivial⟩
    · rename_i db hclaim
      cases h
      obtain ⟨r, hr, hfailed, hr'⟩ := find?_claimRunForRetry hclaim
      exact ⟨hw.claim hclaim, hphase, ⟨r, hr, hfailed⟩, by rw [hr']; rfl⟩
  | tryAcquireSlot originalRun before left phase =>
    cases phase with
    | returned slot =>
      cases h
      refine ⟨hw, ?_⟩
      cases slot with
      | queueFull => exact hphase
      | queued => trivial
      | acquired => trivial
    | threw e =>
      cases h
      exact ⟨hw, hphase⟩
    | _ =>
      obtain ⟨⟨db, p', acquired⟩, hact, heq⟩ := Option.map_eq_some_iff.mp h
      cases heq
      obtain ⟨horiginal, hbefore, hleft⟩ := hphase
      exact ⟨⟨(hw.write db).bounded, hw.recorded⟩, horiginal, hbefore, isSome_leftBy hleft (find?_actAcquire hact)⟩
  | restoreFailedRun originalRun before left status =>
    cases h
    obtain ⟨horiginal, hbefore, hleft⟩ := hphase
    refine ⟨⟨(hw.write _).bounded, ?_⟩, trivial⟩
    intro e he
    rcases List.mem_append.mp he with he | he
    · exact hw.recorded e he
    · rw [List.mem_singleton.mp he]
      exact ⟨horiginal, hbefore, hleft, find?_restoreFailedRun _ _ _⟩
  | rerun => cases h
  | answered status => cases h

theorem valid_step {s s' : State} {e : Pool.Event Thread Choice}
    (h : Pool.Holds (World.Valid runId) (fun _ => Thread.Carried) s)
    (hs : Pool.step (program runId) s e = some s') :
    Pool.Holds (World.Valid runId) (fun _ => Thread.Carried) s' := by
  refine Pool.Holds.step ?_ ?_ h hs
  · intro t _ hstart
    cases t with
    | retry req phase =>
      cases phase with
      | select => trivial
      | _ => cases hstart
    | other change => trivial
    | finished => trivial
  · intro i c t w' t' _ _ hG hL hact
    suffices hnew : w'.Valid runId ∧ t'.Carried from ⟨hnew.1, hnew.2, fun _ _ hu => hu⟩
    cases t with
    | retry req phase =>
      obtain ⟨p, -, hp⟩ := Option.bind_eq_some_iff.mp hact
      obtain ⟨⟨w₁, phase'⟩, hret, heq⟩ := Option.map_eq_some_iff.mp hp
      cases heq
      exact valid_actRetry hG hL hret
    | other change =>
      cases hact
      exact ⟨hG.write _, trivial⟩
    | finished => cases hact

theorem World.Initial.valid {w : World} (h : w.Initial runId) : w.Valid runId := by
  obtain ⟨hfailures, hclaims, hrestorations⟩ := h
  refine ⟨?_, ?_⟩
  · rw [World.Bounded, hfailures, hclaims, Nat.zero_add]
  · rw [hrestorations]
    simp

theorem valid_run {w : World} {s : State} {es : List (Pool.Event Thread Choice)} (hw : w.Initial runId)
    (h : Runs (Pool.step (program runId)) free ⟨w, []⟩ es s) : s.shared.Valid runId := by
  have hstart : Pool.Holds (World.Valid runId) (fun _ => Thread.Carried) ⟨w, []⟩ := ⟨hw.valid, by simp⟩
  exact (h.invariant (fun _ _ _ _ hI hs => valid_step hI hs) hstart).1

end Laws

/-- However the requests and all other transactions interleave, a failure of the row is claimed at
most once, and a restore is exact just when nobody came between. -/
theorem restore_exact_iff {runId : String} {w : World} {s : State} {es : List (Pool.Event Thread Choice)}
    (hw : w.Initial runId) (h : Runs (Pool.step (program runId)) free ⟨w, []⟩ es s) :
    s.shared.claims ≤ s.shared.failures ∧ ∀ e ∈ s.shared.restorations, e.Exact ↔ e.Undisturbed := by
  have hvalid := valid_run hw h
  constructor
  · have hbounded := hvalid.bounded
    unfold World.Bounded at hbounded
    omega
  · intro e he
    exact (hvalid.recorded e he).exact_iff

def drainingInstance : World where
  db := {
    runs := ⟨[{ id := "run_1", status := .failed, initiatorAgentId := some "agent_1"
                result := some (errorResult (.str "provider outage")) }], by simp⟩
    agents := .single { id := "agent_1", workspaceType := .temp, maxConcurrency := 1 } }
  processes := [{ host := { processInstanceId := "host-1" }, promotionsPaused := true },
    { host := { processInstanceId := "host-2" } }]
  failures := 1

def retryRequest : Pool.Event Thread Choice := .spawn (.retry ⟨0, "agent_1", 1, { userId := some "user_1" }⟩ .select)

def actAt (i now : Nat) : Pool.Event Thread Choice := .act i { now := now, hasLostHeartbeatOwnership := false }

def refusedRetry : List (Pool.Event Thread Choice) :=
  [retryRequest, actAt 0 1, actAt 0 2, actAt 0 3, actAt 0 4, actAt 0 5, actAt 0 6]

theorem restore_exact_refused : ∃ s, Runs (Pool.step (program "run_1")) free ⟨drainingInstance, []⟩ refusedRetry s ∧
      s.shared.claims ≤ s.shared.failures ∧ s.shared.restorations.length = 1 ∧
      ∀ e ∈ s.shared.restorations, e.Exact ↔ e.Undisturbed := by
  obtain ⟨s, hrun, hlength⟩ : ∃ s, run (Pool.step (program "run_1")) ⟨drainingInstance, []⟩ refusedRetry = some s ∧
        s.shared.restorations.length = 1 := exists_of_run_any (by decide)
  have hs := runs_free_iff.mpr hrun
  have hexact := restore_exact_iff (by exact ⟨rfl, rfl, rfl⟩) hs
  exact ⟨s, hs, hexact.1, hlength, hexact.2⟩

/-- `POST /runs/:id/execute` of the other instance, which starts the claimed run. -/
def executeElsewhere (db : Db) : Db :=
  committed db (Capacity.executeRun { processInstanceId := "host-2", now := 4 } db "agent_1" "run_1" 1
    { id := "step_1", runId := "run_1", order := 1, status := .running })

def overtakenRetry : List (Pool.Event Thread Choice) :=
  [retryRequest, .spawn (.other executeElsewhere), actAt 0 1, actAt 0 2, actAt 0 3, actAt 1 4, actAt 0 5,
    actAt 0 6, actAt 0 7]

theorem restore_overwrites : ∃ s, Runs (Pool.step (program "run_1")) free ⟨drainingInstance, []⟩ overtakenRetry s ∧
      ∃ e ∈ s.shared.restorations, ¬ e.Exact ∧ e.found.map Run.status = some .running ∧
        e.restored.map Run.status = some .failed := by
  obtain ⟨s, hrun, hs⟩ : ∃ s, run (Pool.step (program "run_1")) ⟨drainingInstance, []⟩ overtakenRetry = some s ∧
      ∃ e ∈ s.shared.restorations, ¬ e.Exact ∧ e.found.map Run.status = some .running ∧
        e.restored.map Run.status = some .failed := exists_of_run_any (by decide)
  exact ⟨s, runs_free_iff.mpr hrun, hs⟩

end A2Wave.RetryInPlace
