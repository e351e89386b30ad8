import A2Wave.Scm.Removal
import Mathlib.Algebra.Order.Ring.Rat
import Mathlib.Data.List.Sort

/-! `cleanupStaleWorkspaces` of `lib/git-workspace.ts`: one pass over the `ttl` workspaces for those that are idle,
and one over the survivors for those beyond the cap.  Times are in milliseconds, with fractions. -/

namespace A2Wave.StaleWorkspaces

def ttlIdleDays : ℚ := 7

def ttlLruCap : Int := 20

inductive Pass
  | idle
  | excess
  deriving DecidableEq

structure Checkout where
  present : Bool := true
  /-- What `git status --porcelain` has to list, apart from the state file. -/
  changes : String := ""
  answers : Pass → Bool := fun _ => true

structure StateFile where
  cleanup : Option String
  mtimeMs : ℚ

structure Entry where
  name : String
  stateFile : Option StateFile := none
  checkouts : List Checkout := [{}]
  removes : Pass → Bool := fun _ => true

structure WorkspaceInfo where
  name : String
  path : String
  cleanup : Option String
  lastActivityAt : Option ℚ
  checkouts : List Checkout
  removes : Pass → Bool

structure CleanupOptions where
  activePaths : List String
  idleDays : Option ℚ := none
  lruCap : Option Int := none
  now : ℚ

/-- `lastActivityAt ?? 0`. -/
def WorkspaceInfo.activity (ws : WorkspaceInfo) : ℚ := ws.lastActivityAt.getD 0

def sortByActivity (workspaces : List WorkspaceInfo) : List WorkspaceInfo :=
  workspaces.insertionSort fun a b => b.activity ≤ a.activity

def listGitWorkspaces (wsRoot : String) (entries : List Entry) : List WorkspaceInfo :=
  sortByActivity (entries.map fun entry =>
    { name := entry.name, path := joinPath wsRoot entry.name, cleanup := entry.stateFile.bind (·.cleanup)
      lastActivityAt := entry.stateFile.map (·.mtimeMs)
      checkouts := entry.checkouts
      removes := entry.removes })

def isWorkspaceDirty (pass : Pass) (ws : WorkspaceInfo) : Bool :=
  ws.checkouts.any fun checkout => checkout.present && checkout.answers pass && hasText checkout.changes

namespace CleanupOptions

def idleThreshold (opts : CleanupOptions) : ℚ := opts.now - opts.idleDays.getD ttlIdleDays * 24 * 60 * 60 * 1000

def cap (opts : CleanupOptions) : Int := opts.lruCap.getD ttlLruCap

def isIdle (opts : CleanupOptions) (ws : WorkspaceInfo) : Bool :=
  ws.lastActivityAt.any fun lastActivityAt => lastActivityAt < opts.idleThreshold

def spares (opts : CleanupOptions) (pass : Pass) (ws : WorkspaceInfo) : Bool :=
  ws.path ∈ opts.activePaths || isWorkspaceDirty pass ws

end CleanupOptions

def sweepIdle (opts : CleanupOptions) : List WorkspaceInfo → List WorkspaceInfo × List WorkspaceInfo
  | [] => ([], [])
  | ws :: rest =>
    let (removed, survivors) := sweepIdle opts rest
    if !opts.spares .idle ws && opts.isIdle ws && ws.removes .idle then (ws :: removed, survivors)
    else (removed, ws :: survivors)

/-- `Array.prototype.slice`, where a negative start counts from the end. -/
def sliceStart (length : Nat) (start : Int) : Nat := if start < 0 then (length + start).toNat else start.toNat

structure Cleanup where
  idle : List WorkspaceInfo
  kept : List WorkspaceInfo
  excess : List WorkspaceInfo

def Cleanup.removed (cleanup : Cleanup) : List String :=
  cleanup.idle.map (·.name) ++ cleanup.excess.map (·.name)

def cleanupStaleWorkspaces (wsRoot : String) (opts : CleanupOptions) (entries : List Entry) : Cleanup :=
  let ttlWorkspaces := (listGitWorkspaces wsRoot entries).filter (·.cleanup = some "ttl")
  let (idle, survivors) := sweepIdle opts ttlWorkspaces
  if opts.cap < survivors.length then
    let sorted := sortByActivity survivors
    let start := sliceStart survivors.length opts.cap
    { idle := idle, kept := sorted.take start
      excess := (sorted.drop start).filter fun ws => !opts.spares .excess ws && ws.removes .excess }
  else { idle := idle, kept := survivors, excess := [] }

structure Removable (opts : CleanupOptions) (pass : Pass) (ws : WorkspaceInfo) : Prop where
  ttl : ws.cleanup = some "ttl"
  inactive : ws.path ∉ opts.activePaths
  clean : ∀ checkout ∈ ws.checkouts, checkout.present = true → checkout.answers pass = true →
    hasText checkout.changes = false

section Passes

variable {opts : CleanupOptions} {pass : Pass} {ws other : WorkspaceInfo} {workspaces : List WorkspaceInfo}

theorem Removable.of_not_spares (httl : ws.cleanup = some "ttl") (h : opts.spares pass ws = false) :
    Removable opts pass ws := by
  rw [CleanupOptions.spares, Bool.or_eq_false_iff, decide_eq_false_iff_not] at h
  obtain ⟨hinactive, hclean⟩ := h
  refine ⟨httl, hinactive, fun checkout hcheckout hpresent hanswers => ?_⟩
  have hnone := List.any_eq_false.mp hclean checkout hcheckout
  rw [hpresent, hanswers, Bool.true_and, Bool.true_and] at hnone
  exact Bool.eq_false_iff.mpr hnone

theorem mem_sweepIdle (h : ws ∈ (sweepIdle opts workspaces).1) : ws ∈ workspaces ∧ opts.spares .idle ws = false := by
  induction workspaces with
  | nil => cases h
  | cons head rest ih =>
    rw [sweepIdle] at h
    dsimp only at h
    split at h
    · rename_i hguard
      simp only [Bool.and_eq_true, Bool.not_eq_true'] at hguard
      rcases List.mem_cons.mp h with rfl | hrest
      · exact ⟨List.mem_cons_self .., hguard.1.1⟩
      · obtain ⟨hmem, hspares⟩ := ih hrest
        exact ⟨List.mem_cons_of_mem _ hmem, hspares⟩
    · obtain ⟨hmem, hspares⟩ := ih h
      exact ⟨List.mem_cons_of_mem _ hmem, hspares⟩

theorem survivors_subset : (sweepIdle opts workspaces).2 ⊆ workspaces := by
  intro ws h
  induction workspaces with
  | nil => cases h
  | cons head rest ih =>
    rw [sweepIdle] at h
    dsimp only at h
    split at h
    · exact List.mem_cons_of_mem _ (ih h)
    · rcases List.mem_cons.mp h with rfl | hrest
      · exact List.mem_cons_self ..
      · exact List.mem_cons_of_mem _ (ih hrest)

theorem activity_le_of_sorted {start : Nat} (hdrop : ws ∈ (sortByActivity workspaces).drop start)
    (htake : other ∈ (sortByActivity workspaces).take start) : ws.activity ≤ other.activity := by
  have : Std.Total fun a b : WorkspaceInfo => b.activity ≤ a.activity := ⟨fun a b => le_total b.activity a.activity⟩
  have : IsTrans WorkspaceInfo fun a b => b.activity ≤ a.activity := ⟨fun _ _ _ hab hbc => le_trans hbc hab⟩
  have hsorted := List.pairwise_insertionSort (fun a b : WorkspaceInfo => b.activity ≤ a.activity) workspaces
  rw [← List.take_append_drop start (workspaces.insertionSort _)] at hsorted
  exact (List.pairwise_append.mp hsorted).2.2 other htake ws hdrop

end Passes

section Cleanup

variable {wsRoot : String} {opts : CleanupOptions} {entries : List Entry} {ws other : WorkspaceInfo}

theorem ttlWorkspaces_listed (h : ws ∈ (listGitWorkspaces wsRoot entries).filter (·.cleanup = some "ttl")) :
    ws ∈ listGitWorkspaces wsRoot entries ∧ ws.cleanup = some "ttl" := by
  obtain ⟨hlisted, httl⟩ := List.mem_filter.mp h
  exact ⟨hlisted, of_decide_eq_true httl⟩

theorem idle_removable (h : ws ∈ (cleanupStaleWorkspaces wsRoot opts entries).idle) :
    ws ∈ listGitWorkspaces wsRoot entries ∧ Removable opts .idle ws := by
  have hidle : ws ∈ (sweepIdle opts ((listGitWorkspaces wsRoot entries).filter (·.cleanup = some "ttl"))).1 := by
    unfold cleanupStaleWorkspaces at h
    dsimp only at h
    split at h
    · exact h
    · exact h
  obtain ⟨hmem, hspares⟩ := mem_sweepIdle hidle
  obtain ⟨hlisted, httl⟩ := ttlWorkspaces_listed hmem
  exact ⟨hlisted, .of_not_spares httl hspares⟩

theorem excess_removable (h : ws ∈ (cleanupStaleWorkspaces wsRoot opts entries).excess) :
    ws ∈ listGitWorkspaces wsRoot entries ∧ Removable opts .excess ws := by
  unfold cleanupStaleWorkspaces at h
  dsimp only at h
  split at h
  · obtain ⟨hdrop, hguard⟩ := List.mem_filter.mp h
    simp only [Bool.and_eq_true, Bool.not_eq_true'] at hguard
    have hsurvivor := (List.mem_insertionSort _).mp (List.mem_of_mem_drop hdrop)
    obtain ⟨hlisted, httl⟩ := ttlWorkspaces_listed (survivors_subset hsurvivor)
    exact ⟨hlisted, .of_not_spares httl hguard.1⟩
  · cases h

theorem excess_le_kept (h : ws ∈ (cleanupStaleWorkspaces wsRoot opts entries).excess)
    (hother : other ∈ (cleanupStaleWorkspaces wsRoot opts entries).kept) : ws.activity ≤ other.activity := by
  unfold cleanupStaleWorkspaces at h hother
  dsimp only at h hother
  split at h
  · rename_i hcap
    rw [if_pos hcap] at hother
    exact activity_le_of_sorted (List.mem_filter.mp h).1 hother
  · cases h

end Cleanup

/-- What either pass removes is `Removable` in it, and the second takes the least recent. -/
theorem cleanupStaleWorkspaces_removable (wsRoot : String) (opts : CleanupOptions) (entries : List Entry) :
    (∀ name ∈ (cleanupStaleWorkspaces wsRoot opts entries).removed,
      ∃ pass, ∃ ws ∈ listGitWorkspaces wsRoot entries, ws.name = name ∧ Removable opts pass ws) ∧
    ∀ ws ∈ (cleanupStaleWorkspaces wsRoot opts entries).excess,
      ∀ other ∈ (cleanupStaleWorkspaces wsRoot opts entries).kept, ws.activity ≤ other.activity := by
  constructor
  · intro name hname
    rcases List.mem_append.mp hname with hidle | hexcess
    · obtain ⟨ws, hws, rfl⟩ := List.mem_map.mp hidle
      obtain ⟨hlisted, hremovable⟩ := idle_removable hws
      exact ⟨.idle, ws, hlisted, rfl, hremovable⟩
    · obtain ⟨ws, hws, rfl⟩ := List.mem_map.mp hexcess
      obtain ⟨hlisted, hremovable⟩ := excess_removable hws
      exact ⟨.excess, ws, hlisted, rfl, hremovable⟩
  · exact fun ws hws other hother => excess_le_kept hws hother

def unreadable : Entry where
  name := "w1"
  stateFile := some { cleanup := some "ttl", mtimeMs := 0 }
  checkouts := [{ changes := " M src/main.ts", answers := fun _ => false }]

theorem cleanupStaleWorkspaces_discards_changes : ¬ ∀ (opts : CleanupOptions) (entries : List Entry),
    ∀ name ∈ (cleanupStaleWorkspaces "/srv/workspaces" opts entries).removed,
      ∃ ws ∈ listGitWorkspaces "/srv/workspaces" entries, ws.name = name ∧
        ∀ checkout ∈ ws.checkouts, hasText checkout.changes = false := by
  intro h
  have hremoved := h { activePaths := [], now := 1000000000 } [unreadable]
  revert hremoved
  decide +kernel

end A2Wave.StaleWorkspaces
