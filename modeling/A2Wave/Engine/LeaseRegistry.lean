import Mathlib.Data.List.Basic
import A2Wave.Lib.Claims
import A2Wave.Lib.Transition

/-! `engine/execution-lease-registry.ts`: the execution leases of a process, and the durable releases that
outlive them.  An entry is its place in the list of all entries ever made, which is what a handle keeps. -/

namespace A2Wave.LeaseRegistry

open Transition

structure ExecutionLeaseEntry where
  runId : String
  taskIds : List String := []
  agentId : Option String := none
  aborted : Bool := false
  finished : Bool := false
  deriving DecidableEq

structure DurableRelease where
  runId : String
  agentId : Option String
  completed : Bool := false
  deriving DecidableEq

structure Registry where
  entries : List ExecutionLeaseEntry := []
  leasesByRunId : String → Option Nat := fun _ => none
  leasesByTaskId : String → Option Nat := fun _ => none
  /-- Every release that was started; `pendingDurableReleases` are those that have not completed. -/
  durableReleases : List DurableRelease := []
  settlingRunIds : String → Bool := fun _ => false
  durableReleaseErrors : Nat := 0

def Registry.setEntry (r : Registry) (i : Nat) (entry : ExecutionLeaseEntry) : Registry :=
  { r with entries := r.entries.set i entry }

def Registry.setTask (r : Registry) (taskId : String) (i : Nat) : Registry :=
  { r with leasesByTaskId := Function.update r.leasesByTaskId taskId (some i) }

def createExecutionLease (r : Registry) (runId : String) (agentId : Option String) : Registry × Nat :=
  ({ r with
      entries := r.entries ++ [{ runId, agentId }]
      leasesByRunId := Function.update r.leasesByRunId runId (some r.entries.length) },
    r.entries.length)

def getOrCreateExecutionLease (r : Registry) (runId : String) (agentId : Option String) : Registry × Nat :=
  match r.leasesByRunId runId with
  | some i =>
    match r.entries[i]? with
    | some existing => (r.setEntry i { existing with agentId := existing.agentId <|> agentId }, i)
    | none => (r, i)
  | none => createExecutionLease r runId agentId

def reserveExecutionLease (r : Registry) (runId : String) (agentId : Option String) : Registry × Nat :=
  getOrCreateExecutionLease r runId agentId

def bindExecutionLeaseTask (r : Registry) (runId taskId : String) (agentId : Option String) :
    Registry × Except String Nat :=
  let (r, i) := getOrCreateExecutionLease r runId agentId
  if (r.leasesByTaskId taskId).any (· ≠ i) then
    (r, .error ("Execution lease already exists for task \"" ++ taskId ++ "\""))
  else
    match r.entries[i]? with
    | some entry => ((r.setEntry i { entry with taskIds := entry.taskIds.insert taskId }).setTask taskId i, .ok i)
    | none => (r, .ok i)

def cancelExecutionLease (r : Registry) (runId : String) : Registry :=
  match r.leasesByRunId runId with
  | none => r
  | some i =>
    match r.entries[i]? with
    | some entry => r.setEntry i { entry with aborted := true }
    | none => r

def isRunExecutionSettling (r : Registry) (runId : String) : Bool :=
  (r.leasesByRunId runId).isSome || r.settlingRunIds runId

/-- `hasHandler`: the process has a durable release handler. -/
def finishExecutionLeaseEntry (hasHandler : Bool) (r : Registry) (i : Nat) : Registry :=
  match r.entries[i]? with
  | none => r
  | some entry =>
    if entry.finished then r
    else
      let finished :=
        { r.setEntry i { entry with finished := true } with
          leasesByRunId := release r.leasesByRunId entry.runId i
          leasesByTaskId := entry.taskIds.foldl (fun leases taskId => release leases taskId i) r.leasesByTaskId }
      if hasHandler then
        { finished with
          durableReleases := r.durableReleases ++ [{ runId := entry.runId, agentId := entry.agentId }]
          settlingRunIds := Function.update r.settlingRunIds entry.runId true }
      else finished

def completeExecutionLease (hasHandler : Bool) (r : Registry) (runId : String) : Registry :=
  match r.leasesByRunId runId with
  | some i => finishExecutionLeaseEntry hasHandler r i
  | none => r

inductive Event
  | reserve (runId : String) (agentId : Option String)
  | bind (runId taskId : String) (agentId : Option String)
  | cancel (runId : String)
  | complete (runId : String)
  | finish (i : Nat)
  | released (k : Nat) (failed : Bool)

def step (hasHandler : Bool) (r : Registry) : Event → Option Registry
  | .reserve runId agentId => some (reserveExecutionLease r runId agentId).1
  | .bind runId taskId agentId => some (bindExecutionLeaseTask r runId taskId agentId).1
  | .cancel runId => some (cancelExecutionLease r runId)
  | .complete runId => some (completeExecutionLease hasHandler r runId)
  | .finish i => if i < r.entries.length then some (finishExecutionLeaseEntry hasHandler r i) else none
  | .released k failed =>
    r.durableReleases[k]?.bind fun pending =>
      if pending.completed then none
      else some { r with
        durableReleases := r.durableReleases.set k { pending with completed := true }
        settlingRunIds := Function.update r.settlingRunIds pending.runId false
        durableReleaseErrors := if failed then r.durableReleaseErrors + 1 else r.durableReleaseErrors }

def HasLease (r : Registry) (runId : String) : Prop :=
  ∃ entry ∈ r.entries, entry.runId = runId ∧ entry.finished = false

def InFlight (r : Registry) (runId : String) : Prop :=
  ∃ pending ∈ r.durableReleases, pending.runId = runId ∧ pending.completed = false

def Registry.claims (r : Registry) (i : Nat) : Option String :=
  (r.entries[i]?.filter fun entry => !entry.finished).map (·.runId)

structure Inv (r : Registry) : Prop where
  runs : Holds r.claims r.leasesByRunId
  tasks : ∀ taskId i, r.leasesByTaskId taskId = some i ↔
    ∃ entry, r.entries[i]? = some entry ∧ entry.finished = false ∧ taskId ∈ entry.taskIds
  marked : ∀ runId, r.settlingRunIds runId = true → InFlight r runId

section Invariant

variable {hasHandler : Bool} {r r' : Registry} {e : Event} {i j : Nat} {runId taskId : String}
  {entry entry' : ExecutionLeaseEntry}

theorem claims_eq_some : r.claims i = some runId ↔
    ∃ entry, r.entries[i]? = some entry ∧ entry.finished = false ∧ entry.runId = runId := by
  simp only [Registry.claims, Option.map_eq_some_iff, Option.filter_eq_some_iff, Bool.not_eq_true']
  constructor
  · rintro ⟨entry, ⟨hget, hopen⟩, hrun⟩
    exact ⟨entry, hget, hopen, hrun⟩
  · rintro ⟨entry, hget, hopen, hrun⟩
    exact ⟨entry, ⟨hget, hopen⟩, hrun⟩

theorem Inv.stored (h : Inv r) (hrun : r.leasesByRunId runId = some i) :
    ∃ entry, r.entries[i]? = some entry ∧ entry.finished = false ∧ entry.runId = runId :=
  claims_eq_some.mp ((h.runs i runId).mp hrun)

theorem Inv.hasLease_iff (h : Inv r) : HasLease r runId ↔ (r.leasesByRunId runId).isSome = true := by
  constructor
  · rintro ⟨entry, hmem, hrun, hopen⟩
    obtain ⟨i, hi⟩ := List.mem_iff_getElem?.mp hmem
    rw [(h.runs i runId).mpr (claims_eq_some.mpr ⟨entry, hi, hopen, hrun⟩)]
    rfl
  · intro hsome
    obtain ⟨i, hi⟩ := Option.isSome_iff_exists.mp hsome
    obtain ⟨entry, hget, hopen, hrun⟩ := h.stored hi
    exact ⟨entry, List.mem_of_getElem? hget, hrun, hopen⟩

theorem getElem?_setEntry (entry' : ExecutionLeaseEntry) (hi : r.entries[i]? = some entry) (j : Nat) :
    (r.setEntry i entry').entries[j]? = if j = i then some entry' else r.entries[j]? := by
  rw [Registry.setEntry, List.getElem?_set]
  split
  · rename_i hij
    rw [if_pos (List.getElem?_eq_some_iff.mp hi).1, if_pos hij.symm]
  · rename_i hij
    rw [if_neg (Ne.symm hij)]

theorem Inv.setEntry (h : Inv r) (hi : r.entries[i]? = some entry) (hrun : entry'.runId = entry.runId)
    (hfinished : entry'.finished = entry.finished) (htasks : entry'.taskIds = entry.taskIds) :
    Inv (r.setEntry i entry') := by
  constructor
  · have hclaims : (r.setEntry i entry').claims = r.claims := by
      funext k
      unfold Registry.claims
      rw [getElem?_setEntry _ hi]
      split
      · rename_i hk
        subst hk
        rw [hi]
        simp [Option.filter_some, hrun, hfinished]
      · rfl
    rw [hclaims]
    exact h.runs
  · intro taskId k
    rw [getElem?_setEntry _ hi]
    split
    · rename_i hk
      subst hk
      refine (h.tasks taskId k).trans ?_
      simp [hi, hfinished, htasks]
    · exact h.tasks taskId k
  · exact h.marked

theorem Inv.create (h : Inv r) (hnone : r.leasesByRunId runId = none) (agentId : Option String) :
    Inv (createExecutionLease r runId agentId).1 := by
  have hlast : r.entries[r.entries.length]? = none := List.getElem?_eq_none (Nat.le_refl _)
  have hget : ∀ k, (r.entries ++ [({ runId, agentId } : ExecutionLeaseEntry)])[k]? =
      if k = r.entries.length then some { runId, agentId } else r.entries[k]? := by
    intro k
    split
    · rename_i hk
      rw [hk, List.getElem?_concat_length]
    · rename_i hk
      rw [List.getElem?_append]
      split
      · rfl
      · rename_i hlt
        rw [List.getElem?_eq_none (by simp; omega), List.getElem?_eq_none (by omega)]
  constructor
  · have hclaims : (createExecutionLease r runId agentId).1.claims =
        Function.update r.claims r.entries.length (some runId) := by
      funext k
      simp only [Registry.claims, createExecutionLease, hget, Function.update_apply]
      split <;> rfl
    rw [hclaims]
    apply h.runs.reserve
    · rw [Registry.claims, hlast]
      rfl
    · intro a ha
      rw [hnone] at ha
      cases ha
  · intro taskId k
    simp only [createExecutionLease, hget]
    refine (h.tasks taskId k).trans ?_
    split
    · rename_i hk
      subst hk
      simp
    · rfl
  · exact h.marked

theorem Inv.getOrCreate (h : Inv r) (runId : String) (agentId : Option String) :
    Inv (getOrCreateExecutionLease r runId agentId).1 := by
  unfold getOrCreateExecutionLease
  split
  · split
    · rename_i existing hget
      exact h.setEntry hget rfl rfl rfl
    · exact h
  · rename_i hnone
    exact h.create hnone agentId

theorem Inv.got (h : Inv r) (runId : String) (agentId : Option String) :
    (getOrCreateExecutionLease r runId agentId).1.leasesByRunId runId =
      some (getOrCreateExecutionLease r runId agentId).2 := by
  unfold getOrCreateExecutionLease
  split
  · rename_i i hi
    obtain ⟨entry, hget, -, -⟩ := h.stored hi
    rw [hget]
    exact hi
  · simp [createExecutionLease]

theorem Inv.setTask (h : Inv r) (hi : r.entries[i]? = some entry) (hopen : entry.finished = false)
    (hfree : ∀ k, r.leasesByTaskId taskId = some k → k = i) :
    Inv ((r.setEntry i { entry with taskIds := entry.taskIds.insert taskId }).setTask taskId i) := by
  have hset := getElem?_setEntry { entry with taskIds := entry.taskIds.insert taskId } hi
  constructor
  · have hclaims : (r.setEntry i { entry with taskIds := entry.taskIds.insert taskId }).claims = r.claims := by
      funext k
      unfold Registry.claims
      rw [hset]
      split
      · rename_i hk
        subst hk
        rw [hi]
        simp [Option.filter_some]
      · rfl
    have hruns := h.runs
    rw [← hclaims] at hruns
    exact hruns
  · intro other k
    simp only [Registry.setTask, hset]
    by_cases hother : other = taskId
    · subst hother
      rw [Function.update_self]
      constructor
      · intro hk
        obtain rfl := Option.some.inj hk
        simp [hopen]
      · rintro ⟨owner, howner, hunfinished, hlists⟩
        split at howner
        · rename_i hk
          rw [hk]
        · -- another lease that listed the task would own it
          rw [hfree k ((h.tasks other k).mpr ⟨owner, howner, hunfinished, hlists⟩)]
    · rw [Function.update_of_ne hother]
      refine (h.tasks other k).trans ?_
      split
      · rename_i hk
        subst hk
        simp [hi, List.mem_insert_iff, hother]
      · rfl
  · exact h.marked

theorem Inv.bind (h : Inv r) (runId taskId : String) (agentId : Option String) :
    Inv (bindExecutionLeaseTask r runId taskId agentId).1 := by
  have hgot := h.getOrCreate runId agentId
  obtain ⟨entry, hget, hopen, -⟩ := hgot.stored (h.got runId agentId)
  unfold bindExecutionLeaseTask
  generalize hpair : getOrCreateExecutionLease r runId agentId = pair at hgot hget
  obtain ⟨r₁, i⟩ := pair
  dsimp only at hgot hget ⊢
  split
  · exact hgot
  · rename_i hfree
    rw [hget]
    dsimp only
    refine hgot.setTask hget hopen ?_
    intro k hk
    rw [hk] at hfree
    simpa using hfree

theorem release_foldl_iff {tasks : List String} {leases : String → Option Nat} :
    tasks.foldl (fun leases taskId => release leases taskId i) leases taskId = some j ↔
      leases taskId = some j ∧ ¬(j = i ∧ taskId ∈ tasks) := by
  induction tasks generalizing leases with
  | nil => simp
  | cons task tasks ih =>
    rw [List.foldl_cons, ih]
    by_cases htask : taskId = task
    · subst htask
      constructor
      · rintro ⟨hsome, -⟩
        refine ⟨release_some hsome, ?_⟩
        rintro ⟨rfl, -⟩
        exact release_self leases taskId j hsome
      · rintro ⟨hsome, hnot⟩
        refine ⟨release_kept hsome fun heq => absurd ⟨heq, List.mem_cons_self⟩ hnot, ?_⟩
        rintro ⟨rfl, -⟩
        exact hnot ⟨rfl, List.mem_cons_self⟩
    · rw [release_other leases i htask]
      simp [htask]

theorem Inv.finishOpen (h : Inv r) (hi : r.entries[i]? = some entry) (hopen : entry.finished = false) :
    Holds (r.setEntry i { entry with finished := true }).claims (release r.leasesByRunId entry.runId i) ∧
    ∀ taskId k, entry.taskIds.foldl (fun leases taskId => release leases taskId i) r.leasesByTaskId taskId = some k ↔
      ∃ other, (r.setEntry i { entry with finished := true }).entries[k]? = some other ∧
        other.finished = false ∧ taskId ∈ other.taskIds := by
  have hset := getElem?_setEntry { entry with finished := true } hi
  constructor
  · have hclaims : (r.setEntry i { entry with finished := true }).claims = Function.update r.claims i none := by
      funext k
      simp only [Registry.claims, hset, Function.update_apply]
      split <;> rfl
    rw [hclaims]
    exact h.runs.release (claims_eq_some.mpr ⟨entry, hi, hopen, rfl⟩)
  · intro taskId k
    rw [release_foldl_iff, h.tasks, hset]
    by_cases hk : k = i
    · subst hk
      simp [hi, hopen]
    · simp [hk]

theorem Inv.finish (h : Inv r) (i : Nat) : Inv (finishExecutionLeaseEntry hasHandler r i) := by
  unfold finishExecutionLeaseEntry
  split
  · exact h
  · rename_i entry hi
    split
    · exact h
    · rename_i hopen
      obtain ⟨hruns, htasks⟩ := h.finishOpen hi (Bool.eq_false_iff.mpr hopen)
      dsimp only
      split
      · refine ⟨hruns, htasks, ?_⟩
        intro runId hmarked
        by_cases hrun : runId = entry.runId
        · exact ⟨_, List.mem_append_right _ List.mem_cons_self, hrun.symm, rfl⟩
        · dsimp only at hmarked
          rw [Function.update_of_ne hrun] at hmarked
          obtain ⟨pending, hmem, hpending⟩ := h.marked runId hmarked
          exact ⟨pending, List.mem_append_left _ hmem, hpending⟩
      · exact ⟨hruns, htasks, h.marked⟩

theorem Inv.finish_stale (h : Inv r) (hi : r.entries[i]? = some entry) (hstale : r.leasesByRunId entry.runId ≠ some i) :
    finishExecutionLeaseEntry hasHandler r i = r := by
  have hfinished : entry.finished = true := by
    by_contra hopen
    exact hstale ((h.runs i _).mpr (claims_eq_some.mpr ⟨entry, hi, Bool.eq_false_iff.mpr hopen, rfl⟩))
  simp only [finishExecutionLeaseEntry, hi, hfinished, if_true]

theorem finish_entries_ne (hne : j ≠ i) : (finishExecutionLeaseEntry hasHandler r i).entries[j]? = r.entries[j]? := by
  unfold finishExecutionLeaseEntry
  split
  · rfl
  · split
    · rfl
    · dsimp only
      split <;> exact List.getElem?_set_ne (Ne.symm hne)

theorem finish_run_kept (hne : j ≠ i) (hrun : r.leasesByRunId runId = some j) :
    (finishExecutionLeaseEntry hasHandler r i).leasesByRunId runId = some j := by
  unfold finishExecutionLeaseEntry
  split
  · exact hrun
  · split
    · exact hrun
    · dsimp only
      split <;> exact release_kept hrun fun heq => absurd heq hne

theorem finish_task_kept (hne : j ≠ i) (htask : r.leasesByTaskId taskId = some j) :
    (finishExecutionLeaseEntry hasHandler r i).leasesByTaskId taskId = some j := by
  unfold finishExecutionLeaseEntry
  split
  · exact htask
  · split
    · exact htask
    · dsimp only
      split <;> exact release_foldl_iff.mpr ⟨htask, fun hboth => hne hboth.1⟩

theorem Inv.complete (h : Inv r) (runId : String) : Inv (completeExecutionLease hasHandler r runId) := by
  unfold completeExecutionLease
  split
  · exact h.finish _
  · exact h

theorem Inv.cancel (h : Inv r) (runId : String) : Inv (cancelExecutionLease r runId) := by
  unfold cancelExecutionLease
  split
  · exact h
  · split
    · rename_i entry hi
      exact h.setEntry hi rfl rfl rfl
    · exact h

theorem Inv.released {k : Nat} {failed : Bool} (h : Inv r)
    (hs : step hasHandler r (.released k failed) = some r') : Inv r' := by
  obtain ⟨pending, hk, hrest⟩ := Option.bind_eq_some_iff.mp hs
  split at hrest
  · cases hrest
  · cases hrest
    refine ⟨h.runs, h.tasks, ?_⟩
    intro runId hmarked
    dsimp only at hmarked
    rw [Function.update_apply] at hmarked
    split at hmarked
    · cases hmarked
    · rename_i hrun
      obtain ⟨other, hmem, hother, hopen⟩ := h.marked runId hmarked
      refine ⟨other, ?_, hother, hopen⟩
      obtain ⟨j, hj⟩ := List.mem_iff_getElem?.mp hmem
      apply List.mem_of_getElem? (i := j)
      rw [List.getElem?_set_ne, hj]
      rintro rfl
      rw [hk] at hj
      cases hj
      exact hrun hother.symm

theorem Inv.step (h : Inv r) (hs : step hasHandler r e = some r') : Inv r' := by
  cases e with
  | reserve runId agentId =>
    cases hs
    exact h.getOrCreate runId agentId
  | bind runId taskId agentId =>
    cases hs
    exact h.bind runId taskId agentId
  | cancel runId =>
    cases hs
    exact h.cancel runId
  | complete runId =>
    cases hs
    exact h.complete runId
  | finish i =>
    simp only [LeaseRegistry.step] at hs
    split at hs
    · cases hs
      exact h.finish i
    · cases hs
  | released k failed => exact h.released hs

theorem Inv.initial : Inv {} := by
  refine ⟨?_, ?_, nofun⟩
  · intro i runId
    simp [Registry.claims]
  · intro taskId i
    simp

theorem inv_of_runs {ok : Registry → Event → Prop} {es : List Event} (h : Runs (step hasHandler) ok {} es r) :
    Inv r := h.invariant (fun _ _ _ _ hinv hs => hinv.step hs) Inv.initial

/-- What the tasks and the outdated handles of a lease can rely on, in every state that is reached. -/
theorem leases_are_represented {es : List Event} (hrun : run (step hasHandler) {} es = some r) :
    (∀ taskId i, r.leasesByTaskId taskId = some i → ∃ entry, r.entries[i]? = some entry ∧ entry.finished = false ∧
        r.leasesByRunId entry.runId = some i ∧ taskId ∈ entry.taskIds) ∧
    (∀ i old, r.entries[i]? = some old → r.leasesByRunId old.runId ≠ some i →
      finishExecutionLeaseEntry hasHandler r i = r) ∧
    ∀ i k newer, r.entries[k]? = some newer → k ≠ i →
      (finishExecutionLeaseEntry hasHandler r i).entries[k]? = some newer ∧
      (r.leasesByRunId newer.runId = some k →
        (finishExecutionLeaseEntry hasHandler r i).leasesByRunId newer.runId = some k) ∧
      ∀ taskId, r.leasesByTaskId taskId = some k →
        (finishExecutionLeaseEntry hasHandler r i).leasesByTaskId taskId = some k := by
  have hinv := inv_of_runs (runs_free_iff.mpr hrun)
  refine ⟨?_, fun i old hold hstale => hinv.finish_stale hold hstale, fun i k newer hnewer hne => ?_⟩
  · intro taskId i htask
    obtain ⟨entry, hget, hopen, hlists⟩ := (hinv.tasks taskId i).mp htask
    exact ⟨entry, hget, hopen, (hinv.runs i _).mpr (claims_eq_some.mpr ⟨entry, hget, hopen, rfl⟩), hlists⟩
  · refine ⟨?_, finish_run_kept hne, fun taskId => finish_task_kept hne⟩
    rw [finish_entries_ne hne]
    exact hnewer

theorem leases_are_represented_reused :
    ∃ r, run (step true) {} [.bind "run" "task" none, .complete "run", .bind "run" "task" none, .finish 0] = some r ∧
      r.leasesByTaskId "task" = some 1 ∧ r.leasesByRunId "run" = some 1 ∧
      finishExecutionLeaseEntry true r 0 = r := by
  obtain ⟨r, hrun, htask, hi⟩ : ∃ r, run (step true) {} [.bind "run" "task" none, .complete "run",
      .bind "run" "task" none, .finish 0] = some r ∧ r.leasesByTaskId "task" = some 1 ∧
      r.leasesByRunId "run" = some 1 ∧ r.entries[0]?.map (·.runId) = some "run" := by
    exact exists_of_run_any (by decide +kernel)
  obtain ⟨hi, hget⟩ := hi
  obtain ⟨old, hold, hname⟩ := Option.map_eq_some_iff.mp hget
  refine ⟨r, hrun, htask, hi, (leases_are_represented hrun).2.1 0 old hold ?_⟩
  rw [hname, hi]
  decide

end Invariant

section Settling

variable {hasHandler : Bool} {r r' : Registry} {e : Event} {i : Nat}

def Exact (r : Registry) : Prop :=
  ∀ runId, isRunExecutionSettling r runId = true ↔ HasLease r runId ∨ InFlight r runId

def coversOthers (r : Registry) : Event → Prop
  | .released k _ => ∀ pending, r.durableReleases[k]? = some pending → HasLease r pending.runId ∨
        ∀ other ∈ r.durableReleases.eraseIdx k, other.runId = pending.runId → other.completed = true
  | _ => True

structure Covered (hasHandler : Bool) (r : Registry) : Prop where
  settling : ∀ runId, InFlight r runId → isRunExecutionSettling r runId = true
  none : hasHandler = false → r.durableReleases = []

structure Keeps (r r' : Registry) : Prop where
  leases : ∀ runId, (r.leasesByRunId runId).isSome = true → (r'.leasesByRunId runId).isSome = true
  releases : r'.durableReleases = r.durableReleases
  marks : r'.settlingRunIds = r.settlingRunIds

theorem Inv.exact_iff (h : Inv r) : Exact r ↔ ∀ runId, InFlight r runId → isRunExecutionSettling r runId = true := by
  constructor
  · intro hexact runId hflight
    exact (hexact runId).mpr (.inr hflight)
  · intro hcovered runId
    constructor
    · intro hsettling
      rcases Bool.or_eq_true_iff.mp hsettling with hlease | hmark
      · exact .inl (h.hasLease_iff.mpr hlease)
      · exact .inr (h.marked runId hmark)
    · rintro (hlease | hflight)
      · exact Bool.or_eq_true_iff.mpr (.inl (h.hasLease_iff.mp hlease))
      · exact hcovered runId hflight

theorem Covered.keeps (h : Covered hasHandler r) (hkeeps : Keeps r r') : Covered hasHandler r' := by
  constructor
  · intro runId hflight
    rw [InFlight, hkeeps.releases] at hflight
    rcases Bool.or_eq_true_iff.mp (h.settling runId hflight) with hlease | hmark
    · exact Bool.or_eq_true_iff.mpr (.inl (hkeeps.leases runId hlease))
    · rw [← hkeeps.marks] at hmark
      exact Bool.or_eq_true_iff.mpr (.inr hmark)
  · intro hhandler
    rw [hkeeps.releases]
    exact h.none hhandler

theorem getOrCreate_keeps (r : Registry) (runId : String) (agentId : Option String) :
    Keeps r (getOrCreateExecutionLease r runId agentId).1 := by
  unfold getOrCreateExecutionLease
  split
  · split <;> exact ⟨fun _ h => h, rfl, rfl⟩
  · refine ⟨?_, rfl, rfl⟩
    intro other hother
    simp only [createExecutionLease, Function.update_apply]
    split
    · rfl
    · exact hother

theorem bind_keeps (r : Registry) (runId taskId : String) (agentId : Option String) :
    Keeps r (bindExecutionLeaseTask r runId taskId agentId).1 := by
  have hkeeps := getOrCreate_keeps r runId agentId
  unfold bindExecutionLeaseTask
  dsimp only
  split
  · exact hkeeps
  · split
    · exact ⟨hkeeps.leases, hkeeps.releases, hkeeps.marks⟩
    · exact hkeeps

theorem cancel_keeps (r : Registry) (runId : String) : Keeps r (cancelExecutionLease r runId) := by
  unfold cancelExecutionLease
  split
  · exact ⟨fun _ h => h, rfl, rfl⟩
  · split <;> exact ⟨fun _ h => h, rfl, rfl⟩

theorem Covered.finish (h : Covered hasHandler r) (i : Nat) :
    Covered hasHandler (finishExecutionLeaseEntry hasHandler r i) := by
  cases hentry : r.entries[i]? with
  | none => simpa only [finishExecutionLeaseEntry, hentry] using h
  | some entry =>
    by_cases hfinished : entry.finished = true
    · simpa only [finishExecutionLeaseEntry, hentry, hfinished, if_true] using h
    · simp only [finishExecutionLeaseEntry, hentry, if_neg hfinished]
      cases hasHandler with
      | false =>
        refine ⟨?_, h.none⟩
        rintro runId ⟨pending, hmem, -⟩
        change pending ∈ r.durableReleases at hmem
        rw [h.none rfl] at hmem
        exact absurd hmem List.not_mem_nil
      | true =>
        refine ⟨?_, fun hhandler => by cases hhandler⟩
        rintro runId ⟨pending, hmem, hrun, hopen⟩
        apply Bool.or_eq_true_iff.mpr
        by_cases hsame : runId = entry.runId
        · right
          rw [hsame]
          exact Function.update_self ..
        · have hold : pending ∈ r.durableReleases := by
            rcases List.mem_append.mp hmem with hold | hnew
            · exact hold
            · rw [List.mem_singleton.mp hnew] at hrun
              exact absurd hrun.symm hsame
          rcases Bool.or_eq_true_iff.mp (h.settling runId ⟨pending, hold, hrun, hopen⟩) with hlease | hmark
          · left
            exact (congrArg Option.isSome (release_other _ _ hsame)).trans hlease
          · right
            exact (Function.update_of_ne hsame ..).trans hmark

theorem Covered.complete (h : Covered hasHandler r) (runId : String) :
    Covered hasHandler (completeExecutionLease hasHandler r runId) := by
  unfold completeExecutionLease
  split
  · exact h.finish _
  · exact h

theorem inFlight_completed {k : Nat} {pending : DurableRelease} {runId : String} {marks : String → Bool}
    {errors : Nat} :
    InFlight { r with
      durableReleases := r.durableReleases.set k { pending with completed := true }
      settlingRunIds := marks
      durableReleaseErrors := errors } runId ↔
    ∃ other ∈ r.durableReleases.eraseIdx k, other.runId = runId ∧ other.completed = false := by
  constructor
  · rintro ⟨other, hmem, hrun, hopen⟩
    obtain ⟨j, hj⟩ := List.mem_iff_getElem?.mp hmem
    dsimp only at hj
    rw [List.getElem?_set] at hj
    split at hj
    · split at hj
      · cases hj
        cases hopen
      · cases hj
    · rename_i hne
      exact ⟨other, List.mem_eraseIdx_iff_getElem?.mpr ⟨j, Ne.symm hne, hj⟩, hrun, hopen⟩
  · rintro ⟨other, hmem, hrun, hopen⟩
    obtain ⟨j, hne, hj⟩ := List.mem_eraseIdx_iff_getElem?.mp hmem
    refine ⟨other, List.mem_iff_getElem?.mpr ⟨j, ?_⟩, hrun, hopen⟩
    dsimp only
    rw [List.getElem?_set_ne (Ne.symm hne), hj]

theorem Covered.released {k : Nat} {failed : Bool} (h : Covered hasHandler r) (hinv : Inv r)
    (hs : step hasHandler r (.released k failed) = some r') :
    (∀ runId, InFlight r' runId → isRunExecutionSettling r' runId = true) ↔ coversOthers r (.released k failed) := by
  obtain ⟨pending, hk, hrest⟩ := Option.bind_eq_some_iff.mp hs
  split at hrest
  · cases hrest
  · cases hrest
    constructor
    · intro hcovered pending' hk'
      obtain rfl := Option.some.inj (hk'.symm.trans hk)
      by_cases hother : ∃ other ∈ r.durableReleases.eraseIdx k, other.runId = pending'.runId ∧ other.completed = false
      · left
        rcases Bool.or_eq_true_iff.mp (hcovered _ (inFlight_completed.mpr hother)) with hlease | hmark
        · exact hinv.hasLease_iff.mpr hlease
        · dsimp only at hmark
          rw [Function.update_self] at hmark
          cases hmark
      · right
        intro other hmem hrun
        by_contra hopen
        exact hother ⟨other, hmem, hrun, Bool.eq_false_iff.mpr hopen⟩
    · intro hcond runId hflight
      obtain ⟨other, hmem, hrun, hopen⟩ := inFlight_completed.mp hflight
      apply Bool.or_eq_true_iff.mpr
      by_cases hsame : runId = pending.runId
      · left
        rcases hcond pending hk with hlease | hothers
        · rw [hsame]
          exact hinv.hasLease_iff.mp hlease
        · have hdone := hothers other hmem (hrun.trans hsame)
          rw [hopen] at hdone
          cases hdone
      · have hold : InFlight r runId := ⟨other, List.mem_of_mem_eraseIdx hmem, hrun, hopen⟩
        rcases Bool.or_eq_true_iff.mp (h.settling runId hold) with hlease | hmark
        · exact .inl hlease
        · exact .inr ((Function.update_of_ne hsame ..).trans hmark)

theorem Covered.step (h : Covered hasHandler r) (hs : step hasHandler r e = some r')
    (hother : ∀ k failed, e ≠ .released k failed) : Covered hasHandler r' := by
  cases e with
  | reserve runId agentId =>
    cases hs
    exact h.keeps (getOrCreate_keeps ..)
  | bind runId taskId agentId =>
    cases hs
    exact h.keeps (bind_keeps ..)
  | cancel runId =>
    cases hs
    exact h.keeps (cancel_keeps ..)
  | complete runId =>
    cases hs
    exact h.complete runId
  | finish i =>
    simp only [LeaseRegistry.step] at hs
    split at hs
    · cases hs
      exact h.finish i
    · cases hs
  | released k failed => exact absurd rfl (hother k failed)

theorem Covered.step_none (h : Covered hasHandler r) (hs : LeaseRegistry.step hasHandler r e = some r')
    (hhandler : hasHandler = false) : r'.durableReleases = [] := by
  by_cases hreleased : ∃ k failed, e = .released k failed
  · obtain ⟨k, failed, rfl⟩ := hreleased
    obtain ⟨pending, hk, -⟩ := Option.bind_eq_some_iff.mp hs
    rw [h.none hhandler] at hk
    cases hk
  · exact (h.step hs fun k failed heq => hreleased ⟨k, failed, heq⟩).none hhandler

theorem Covered.step_iff (h : Covered hasHandler r) (hinv : Inv r)
    (hs : LeaseRegistry.step hasHandler r e = some r') :
    (∀ runId, InFlight r' runId → isRunExecutionSettling r' runId = true) ↔ coversOthers r e := by
  by_cases hreleased : ∃ k failed, e = .released k failed
  · obtain ⟨k, failed, rfl⟩ := hreleased
    exact h.released hinv hs
  · refine iff_of_true (h.step hs fun k failed heq => hreleased ⟨k, failed, heq⟩).settling ?_
    cases e with
    | released k failed => exact absurd ⟨k, failed, rfl⟩ hreleased
    | _ => trivial

theorem Covered.initial : Covered hasHandler {} := by
  refine ⟨?_, fun _ => rfl⟩
  rintro runId ⟨pending, hmem, -⟩
  exact absurd hmem List.not_mem_nil

/-- Settling is exact in every state of a run whose completing releases cover the others, and the first
that does not makes it inexact. -/
theorem settling_exact {es : List Event} (h : Runs (step hasHandler) coversOthers {} es r) :
    Exact r ∧ ∀ e r', step hasHandler r e = some r' → (Exact r' ↔ coversOthers r e) := by
  have hinv := inv_of_runs h
  have hcovered : Inv r ∧ Covered hasHandler r := by
    refine h.invariant (I := fun r => Inv r ∧ Covered hasHandler r) ?_ ⟨Inv.initial, Covered.initial⟩
    rintro s e t hok ⟨hinv, hcovered⟩ hs
    exact ⟨hinv.step hs, (hcovered.step_iff hinv hs).mpr hok, hcovered.step_none hs⟩
  refine ⟨hinv.exact_iff.mpr hcovered.2.settling, ?_⟩
  intro e r' hs
  rw [(hinv.step hs).exact_iff, hcovered.2.step_iff hinv hs]

theorem settling_exact_overlap :
    ∃ r, Runs (step true) coversOthers {} [.reserve "run" none, .complete "run", .reserve "run" none,
      .complete "run", .reserve "run" none, .released 0 false, .complete "run"] r ∧ Exact r := by
  have hcovers : ∀ r : Registry, r.entries[2]? = some { runId := "run" } →
      r.durableReleases[0]? = some { runId := "run", agentId := none } → coversOthers r (.released 0 false) := by
    intro r hlease hrelease pending hpending
    obtain rfl := Option.some.inj (hrelease.symm.trans hpending)
    exact .inl ⟨_, List.mem_of_getElem? hlease, rfl, rfl⟩
  have hruns : Runs (step true) coversOthers {} [.reserve "run" none, .complete "run", .reserve "run" none,
      .complete "run", .reserve "run" none, .released 0 false, .complete "run"] _ :=
    .cons trivial rfl (.cons trivial rfl (.cons trivial rfl (.cons trivial rfl (.cons trivial rfl
      (.cons (hcovers _ rfl rfl) rfl (.cons trivial rfl .nil))))))
  exact ⟨_, hruns, (settling_exact hruns).1⟩

theorem overlapping_release_unmarks :
    ∃ r, run (step true) {} [.reserve "run" none, .complete "run", .reserve "run" none, .complete "run",
      .released 0 false] = some r ∧ isRunExecutionSettling r "run" = false ∧ InFlight r "run" := by
  refine ⟨_, rfl, rfl, ⟨{ runId := "run", agentId := none }, ?_, rfl, rfl⟩⟩
  exact List.mem_cons_of_mem _ List.mem_cons_self

end Settling

end A2Wave.LeaseRegistry
