import A2Wave.Scm.PerAgent

/-! `lib/git-workspace.ts`: the worktrees below the roots of the sources, and the local branches of
the repositories they belong to.  A worktree of several repositories has one checkout of each; a
single repository is the one in the directory `""`. -/

namespace A2Wave

structure GitCheckout where
  directory : String
  branch : Option String
  deriving DecidableEq

structure WorkspaceState where
  cleanup : CleanupPolicy
  lastActivityAt : Nat
  deriving DecidableEq

structure Workspace where
  target : RemovalTarget
  checkouts : List GitCheckout := []
  state : Option WorkspaceState := none
  deriving DecidableEq

structure Repository where
  scmSourceId : String
  directory : String
  branches : List String
  head : Option String := none
  deriving DecidableEq

structure DeletedBranch where
  target : RemovalTarget
  directory : String
  branch : String
  deriving DecidableEq

instance : Keyed Workspace RemovalTarget := ⟨Workspace.target⟩
instance : Keyed Repository (String × String) := ⟨fun r => (r.scmSourceId, r.directory)⟩

@[simp] theorem key_repository (r : Repository) : Keyed.key r = (r.scmSourceId, r.directory) := rfl

structure Disk where
  workspaces : Table Workspace := .empty
  repositories : Table Repository := .empty
  deleted : List DeletedBranch := []

namespace Disk

def exists? (disk : Disk) (target : RemovalTarget) : Bool := (disk.workspaces.find? target).isSome

def checkout? (disk : Disk) (target : RemovalTarget) (directory : String) : Option GitCheckout :=
  (disk.workspaces.find? target).bind fun ws => ws.checkouts.find? (·.directory = directory)

def updateWorkspace (disk : Disk) (target : RemovalTarget)
    (checkouts : List GitCheckout → List GitCheckout)
    (state : Option WorkspaceState → Option WorkspaceState) : Disk :=
  let workspaces := disk.workspaces.updateWhere (fun ws => ws.target = target)
    (fun ws => { ws with checkouts := checkouts ws.checkouts, state := state ws.state })
    (fun _ => rfl)
  { disk with workspaces := workspaces }

def removeWorkspace (disk : Disk) (target : RemovalTarget) : Disk :=
  { disk with workspaces := disk.workspaces.deleteWhere fun ws => ws.target = target }

def mkdir (disk : Disk) (target : RemovalTarget) : Disk :=
  { disk with workspaces := (disk.workspaces.insert { target := target }).getD disk.workspaces }

/-- The branch is checked out, in a worktree or in the main checkout: Git refuses to delete it, and
to check it out again. -/
def inUse (disk : Disk) (scmSourceId directory branch : String) : Bool :=
  (disk.repositories.find? (scmSourceId, directory)).any (·.head = some branch) ||
  disk.workspaces.rows.any fun ws => ws.target.scmSourceId = scmSourceId &&
    ws.checkouts.any fun checkout => checkout.directory = directory && checkout.branch = some branch

def branches (disk : Disk) (scmSourceId directory : String) : List String :=
  ((disk.repositories.find? (scmSourceId, directory)).map (·.branches)).getD []

def updateBranches (disk : Disk) (scmSourceId directory : String) (f : List String → List String) :
    Disk :=
  let repositories := disk.repositories.updateWhere
    (fun r => r.scmSourceId = scmSourceId && r.directory = directory)
    (fun r => { r with branches := f r.branches }) (fun _ => rfl)
  { disk with repositories := repositories }

/-- `git worktree remove --force`.  A single repository is the directory of the worktree. -/
def worktreeRemove (disk : Disk) (target : RemovalTarget) (directory : String) : Disk :=
  if directory = "" then disk.removeWorkspace target
  else disk.updateWorkspace target (·.filter (·.directory ≠ directory)) id

/-- `git branch -D`, which fails for a branch in use. -/
def deleteLocalBranch (disk : Disk) (target : RemovalTarget) (directory branch : String) : Disk :=
  if disk.inUse target.scmSourceId directory branch then disk
  else { disk.updateBranches target.scmSourceId directory (·.filter (· ≠ branch)) with
    deleted := ⟨target, directory, branch⟩ :: disk.deleted }

def switchBranch (disk : Disk) (target : RemovalTarget) (directory branch : String) : Disk :=
  if disk.inUse target.scmSourceId directory branch then disk
  else (disk.updateBranches target.scmSourceId directory fun branches =>
      if branch ∈ branches then branches else branch :: branches).updateWorkspace target
    (·.map fun checkout =>
      if checkout.directory = directory then { checkout with branch := some branch } else checkout) id

/-- `git worktree add`, of a branch or detached. -/
def worktreeAdd (disk : Disk) (target : RemovalTarget) (directory : String)
    (branch : Option String) : Disk :=
  let added := (disk.mkdir target).updateWorkspace target (· ++ [⟨directory, none⟩]) id
  match branch with
  | none => added
  | some branch => added.switchBranch target directory branch

def writeWorkspaceState (disk : Disk) (target : RemovalTarget) (cleanup : CleanupPolicy)
    (now : Nat) : Disk :=
  disk.updateWorkspace target id fun _ => some ⟨cleanup, now⟩

end Disk

structure GitChoice where
  ok : Bool := true
  directories : List String := [""]
  switched : List String := []

inductive RemovePhase
  | check
  | read (rest : List String)
  | remove (directory : String) (branch : Option String) (rest : List String)
  | deleteBranch (directory branch : String) (rest : List String)
  | finish
  | done (ok : Bool)
  deriving DecidableEq

/-- `removeGitWorkspaceUnlocked`, one command at a time. -/
def removeGitWorkspaceUnlocked (c : GitChoice) (target : RemovalTarget) (keepBranches : Bool)
    (disk : Disk) : RemovePhase → Option (Disk × RemovePhase)
  | .check =>
    if !isWorktreeName target.workspaceName then some (disk, .done false)
    else if !disk.exists? target then some (disk, .done true)
    else
      -- the one repository must be registered; of several, those that are there
      let registered := c.directories ≠ [""] || (disk.checkout? target "").isSome
      some (disk, if c.ok && registered then .read c.directories else .done false)
  | .read [] => some (disk, .finish)
  | .read (directory :: rest) => match disk.checkout? target directory with
    | none => some (disk, .read rest)
    | some checkout =>
      -- a HEAD that cannot be read counts as detached
      some (disk, .remove directory (if c.ok then checkout.branch else none) rest)
  | .remove directory branch rest =>
    if c.ok && (disk.checkout? target directory).isSome then
      some (disk.worktreeRemove target directory, match branch with
        | some branch => if keepBranches then .read rest else .deleteBranch directory branch rest
        | none => .read rest)
    else some (disk, .done false)
  | .deleteBranch directory branch rest =>
    some (if c.ok then disk.deleteLocalBranch target directory branch else disk, .read rest)
  | .finish =>
    if c.ok then some (disk.removeWorkspace target, .done true) else some (disk, .done false)
  | .done _ => none

/-- A call of `createGitWorkspace`, with the cleanup mode that its caller writes afterwards. -/
structure CreateCall where
  target : RemovalTarget
  branch : Option String := none
  followSource : Bool
  advance : Bool := true
  cleanup : CleanupPolicy
  deriving DecidableEq

def CreateCall.keepBranches (call : CreateCall) : Bool :=
  call.followSource || isPerAgentWorkspaceName call.target.workspaceName

def CreateCall.wanted (call : CreateCall) : Option String :=
  if call.followSource && call.branch.isNone then some call.target.workspaceName else call.branch

inductive CreatePhase
  | check
  | rebuild (phase : RemovePhase)
  | reuse
  | add (rest : List String) (failed : Bool)
  | rollback (phase : RemovePhase)
  | state (created : Bool)
  | returned
  | threw
  deriving DecidableEq

/-- The checkouts of a worktree that is reused.  A followed source adopts those that are detached;
an explicit branch is checked out in all of them, or some of them where a rollback failed. -/
def reuseCheckouts (call : CreateCall) (c : GitChoice) (disk : Disk) : Disk :=
  match call.wanted with
  | none => disk
  | some branch =>
    c.switched.foldl (fun disk directory =>
      let detached := (disk.checkout? call.target directory).any (·.branch.isNone)
      if (call.branch.isSome || (call.advance && detached)) then
        disk.switchBranch call.target directory branch
      else disk) disk

/-- `createGitWorkspaceUnlocked`, and the state file that its callers write. -/
def actCreate (c : GitChoice) (now : Nat) (call : CreateCall) (disk : Disk) : CreatePhase → Option (Disk × CreatePhase)
  | .check =>
    if !disk.exists? call.target then
      -- several repositories get their parent directory first
      some (if c.directories = [""] then disk else disk.mkdir call.target, .add c.directories false)
    else
      let incomplete := c.directories ≠ [""] &&
        c.directories.any fun directory => (disk.checkout? call.target directory).isNone
      if !incomplete then some (disk, .reuse)
      else if call.advance then some (disk, .rebuild .check)
      else some (disk, .state false)
  | .rebuild (.done true) =>
    some (if c.directories = [""] then disk else disk.mkdir call.target, .add c.directories false)
  | .rebuild (.done false) => some (disk, .threw)
  | .rebuild phase => (removeGitWorkspaceUnlocked c call.target call.keepBranches disk phase).map
      fun (disk', phase') => (disk', .rebuild phase')
  | .reuse =>
    some (reuseCheckouts call c disk, if c.ok || call.branch.isNone then .state false else .threw)
  | .add [] failed => some (disk, if failed then .rollback .check else .state true)
  | .add (directory :: rest) failed =>
    let locked := call.wanted.any (disk.inUse call.target.scmSourceId directory)
    if c.ok && !locked then
      some (disk.worktreeAdd call.target directory call.wanted, .add rest failed)
    else if directory = "" then some (disk, .threw)
    else some (disk, if locked then .rollback .check else .add rest true)
  | .rollback (.done true) => some (disk, .threw)
  | .rollback (.done false) =>
    -- a directory that nothing was added to is removed after all
    let empty := (disk.workspaces.find? call.target).any (·.checkouts.isEmpty)
    some (if c.ok && empty then disk.removeWorkspace call.target else disk, .threw)
  | .rollback phase => (removeGitWorkspaceUnlocked c call.target call.keepBranches disk phase).map
      fun (disk', phase') => (disk', .rollback phase')
  | .state created =>
    let persistent := (disk.workspaces.find? call.target).any fun ws =>
      ws.state.any (·.cleanup = .persistent)
    let skipped := call.followSource && !created && persistent
    some (if c.ok && !skipped then disk.writeWorkspaceState call.target call.cleanup now else disk, .returned)
  | .returned => none
  | .threw => none

namespace Disk

/-- A branch disappears only into the history, and what the history gains meets `p`. -/
structure Accounted (p : DeletedBranch → Prop) (disk disk' : Disk) : Prop where
  deleted : ∀ x ∈ disk.deleted, x ∈ disk'.deleted
  gained : ∀ x ∈ disk'.deleted, x ∈ disk.deleted ∨ p x
  branches : ∀ scmSourceId directory, ∀ b ∈ disk.branches scmSourceId directory,
    b ∈ disk'.branches scmSourceId directory ∨ ∃ x ∈ disk'.deleted,
      x.target.scmSourceId = scmSourceId ∧ x.directory = directory ∧ x.branch = b

section Accounted

variable {p : DeletedBranch → Prop} {disk disk' disk'' : Disk}

theorem Accounted.refl (disk : Disk) : Accounted p disk disk :=
  ⟨fun _ hx => hx, fun _ hx => .inl hx, fun _ _ _ hb => .inl hb⟩

theorem Accounted.trans (h : Accounted p disk disk') (h' : Accounted p disk' disk'') : Accounted p disk disk'' where
  deleted x hx := h'.deleted x (h.deleted x hx)
  gained x hx := by
    rcases h'.gained x hx with hx | hp
    · exact h.gained x hx
    · exact .inr hp
  branches scmSourceId directory b hb := by
    rcases h.branches scmSourceId directory b hb with hb | ⟨x, hx, hwhich⟩
    · exact h'.branches scmSourceId directory b hb
    · exact .inr ⟨x, h'.deleted x hx, hwhich⟩

theorem accounted_workspaces (disk : Disk) (workspaces : Table Workspace) :
    Accounted p disk { disk with workspaces := workspaces } :=
  ⟨fun _ hx => hx, fun _ hx => .inl hx, fun _ _ _ hb => .inl hb⟩

theorem mem_updateBranches {f : List String → List String} {scmSourceId directory s d b : String}
    (hb : b ∈ disk.branches s d)
    (hf : s = scmSourceId → d = directory → ∀ l, b ∈ l → b ∈ f l) :
    b ∈ (disk.updateBranches scmSourceId directory f).branches s d := by
  simp only [branches, updateBranches, Table.find?_updateWhere] at hb ⊢
  cases hfind : disk.repositories.find? (s, d) with
  | none => simp [hfind] at hb
  | some r =>
    have hkey : (r.scmSourceId, r.directory) = (s, d) := Table.find?_some_key hfind
    simp only [hfind, Option.map_some, Option.getD_some] at hb ⊢
    split
    · rename_i hwhich
      simp only [Bool.and_eq_true, decide_eq_true_eq] at hwhich
      cases hkey
      exact hf hwhich.1 hwhich.2 _ hb
    · exact hb

theorem accounted_switchBranch (target : RemovalTarget) (directory branch : String) :
    Accounted p disk (disk.switchBranch target directory branch) := by
  unfold switchBranch
  split
  · exact .refl disk
  · have hcreated : Accounted p disk (disk.updateBranches target.scmSourceId directory
        fun branches => if branch ∈ branches then branches else branch :: branches) := by
      refine ⟨fun _ hx => hx, fun _ hx => .inl hx, fun s d b hb => .inl ?_⟩
      refine mem_updateBranches hb fun _ _ l hl => ?_
      split
      · exact hl
      · exact List.mem_cons_of_mem _ hl
    exact hcreated.trans (accounted_workspaces _ _)

theorem accounted_deleteLocalBranch {target : RemovalTarget} {directory branch : String}
    (hp : p ⟨target, directory, branch⟩) :
    Accounted p disk (disk.deleteLocalBranch target directory branch) := by
  unfold deleteLocalBranch
  split
  · exact .refl disk
  · refine ⟨fun x hx => List.mem_cons_of_mem _ hx, fun x hx => ?_, fun s d b hb => ?_⟩
    · rcases List.mem_cons.mp hx with rfl | hx
      · exact .inr hp
      · exact .inl hx
    · by_cases hwhich : s = target.scmSourceId ∧ d = directory ∧ b = branch
      · obtain ⟨rfl, rfl, rfl⟩ := hwhich
        exact .inr ⟨_, List.mem_cons_self, rfl, rfl, rfl⟩
      · refine .inl (mem_updateBranches hb fun hs hd l hl => ?_)
        have hne : b ≠ branch := fun hbranch => hwhich ⟨hs, hd, hbranch⟩
        simpa [hne] using hl

theorem accounted_worktreeRemove (target : RemovalTarget) (directory : String) :
    Accounted p disk (disk.worktreeRemove target directory) := by
  unfold worktreeRemove
  split <;> exact accounted_workspaces _ _

theorem accounted_worktreeAdd (target : RemovalTarget) (directory : String)
    (branch : Option String) : Accounted p disk (disk.worktreeAdd target directory branch) := by
  have hadded : Accounted p disk
      ((disk.mkdir target).updateWorkspace target (· ++ [⟨directory, none⟩]) id) :=
    accounted_workspaces disk _
  cases branch with
  | none => exact hadded
  | some branch => exact hadded.trans (accounted_switchBranch target directory branch)

end Accounted

end Disk

def DeletedBranch.ordinary (x : DeletedBranch) : Prop :=
  isPerAgentWorkspaceName x.target.workspaceName = false

def RemovePhase.Spares (target : RemovalTarget) (keepBranches : Bool) : RemovePhase → Prop
  | .remove _ (some _) _ =>
    keepBranches = true ∨ isPerAgentWorkspaceName target.workspaceName = false
  | .deleteBranch _ _ _ => isPerAgentWorkspaceName target.workspaceName = false
  | _ => True

section Spares

open Disk

variable {c : GitChoice} {disk disk' : Disk}

theorem removeGitWorkspaceUnlocked_spares {target : RemovalTarget} {keepBranches : Bool}
    {phase phase' : RemovePhase}
    (h : removeGitWorkspaceUnlocked c target keepBranches disk phase = some (disk', phase'))
    (hspares : phase.Spares target keepBranches)
    (hread : ∀ directory rest checkout branch, phase = .read (directory :: rest) →
      disk.checkout? target directory = some checkout → checkout.branch = some branch →
      keepBranches = true ∨ isPerAgentWorkspaceName target.workspaceName = false) :
    Accounted DeletedBranch.ordinary disk disk' ∧ phase'.Spares target keepBranches := by
  cases phase with
  | check =>
    simp only [removeGitWorkspaceUnlocked] at h
    split at h
    · cases h
      exact ⟨.refl _, trivial⟩
    split at h
    · cases h
      exact ⟨.refl _, trivial⟩
    · cases h
      refine ⟨.refl _, ?_⟩
      split <;> trivial
  | read directories =>
    cases directories with
    | nil =>
      cases h
      exact ⟨.refl _, trivial⟩
    | cons directory rest =>
      simp only [removeGitWorkspaceUnlocked] at h
      split at h
      · cases h
        exact ⟨.refl _, trivial⟩
      · rename_i checkout hcheckout
        cases h
        refine ⟨.refl _, ?_⟩
        cases hbranch : (if c.ok then checkout.branch else none) with
        | none => trivial
        | some branch =>
          split at hbranch
          · exact hread directory rest checkout branch rfl hcheckout hbranch
          · cases hbranch
  | remove directory branch rest =>
    simp only [removeGitWorkspaceUnlocked] at h
    split at h
    · cases h
      refine ⟨accounted_worktreeRemove target directory, ?_⟩
      cases branch with
      | none => trivial
      | some branch =>
        cases hkeep : keepBranches with
        | true => trivial
        | false =>
          rw [hkeep] at hspares
          rcases hspares with hkept | hordinary
          · cases hkept
          · exact hordinary
    · cases h
      exact ⟨.refl _, trivial⟩
  | deleteBranch directory branch rest =>
    cases h
    refine ⟨?_, trivial⟩
    split
    · exact accounted_deleteLocalBranch hspares
    · exact .refl _
  | finish =>
    simp only [removeGitWorkspaceUnlocked] at h
    split at h
    · cases h
      exact ⟨accounted_workspaces disk _, trivial⟩
    · cases h
      exact ⟨.refl _, trivial⟩
  | done ok => cases h

theorem accounted_reuseCheckouts {p : DeletedBranch → Prop} (call : CreateCall) (c : GitChoice)
    (disk : Disk) : Accounted p disk (reuseCheckouts call c disk) := by
  unfold reuseCheckouts
  split
  · exact .refl disk
  · generalize c.switched = directories
    induction directories generalizing disk with
    | nil => exact .refl disk
    | cons directory rest ih =>
      refine Accounted.trans ?_ (ih _)
      dsimp only
      split
      · exact accounted_switchBranch _ _ _
      · exact .refl disk

theorem CreateCall.keeps (call : CreateCall) :
    call.keepBranches = true ∨ isPerAgentWorkspaceName call.target.workspaceName = false := by
  unfold CreateCall.keepBranches
  cases isPerAgentWorkspaceName call.target.workspaceName <;> simp

def CreatePhase.Spares (call : CreateCall) : CreatePhase → Prop
  | .rebuild phase | .rollback phase => phase.Spares call.target call.keepBranches
  | _ => True

theorem remove_of_create {now : Nat} {call : CreateCall} {remove : RemovePhase}
    {wrap : RemovePhase → CreatePhase} {phase' : CreatePhase}
    (hwrap : wrap = .rebuild ∨ wrap = .rollback) (hdone : ∀ ok, remove ≠ .done ok)
    (h : actCreate c now call disk (wrap remove) = some (disk', phase')) :
    ∃ remove', removeGitWorkspaceUnlocked c call.target call.keepBranches disk remove =
      some (disk', remove') ∧ phase' = wrap remove' := by
  have hmap : (removeGitWorkspaceUnlocked c call.target call.keepBranches disk remove).map
      (fun (disk', remove') => (disk', wrap remove')) = some (disk', phase') := by
    rcases hwrap with rfl | rfl <;> cases remove <;> first | exact h | exact absurd rfl (hdone _)
  obtain ⟨⟨disk₁, remove'⟩, hremove, heq⟩ := Option.map_eq_some_iff.mp hmap
  cases heq
  exact ⟨remove', hremove, rfl⟩

theorem actCreate_spares {now : Nat} {call : CreateCall} {phase phase' : CreatePhase}
    (h : actCreate c now call disk phase = some (disk', phase')) (hspares : phase.Spares call) :
    Accounted DeletedBranch.ordinary disk disk' ∧ phase'.Spares call := by
  -- a rebuild and a rollback are removals that keep the branches of agents
  have hremoval : ∀ (wrap : RemovePhase → CreatePhase) (remove : RemovePhase),
      wrap = .rebuild ∨ wrap = .rollback → (∀ ok, remove ≠ .done ok) → phase = wrap remove →
      Accounted DeletedBranch.ordinary disk disk' ∧ phase'.Spares call := by
    intro wrap remove hwrap hdone hphase
    subst hphase
    obtain ⟨remove', hremove, rfl⟩ := remove_of_create hwrap hdone h
    have hold : remove.Spares call.target call.keepBranches := by
      rcases hwrap with rfl | rfl <;> exact hspares
    obtain ⟨haccounted, hnew⟩ := removeGitWorkspaceUnlocked_spares hremove hold
      (fun _ _ _ _ _ _ _ => call.keeps)
    refine ⟨haccounted, ?_⟩
    rcases hwrap with rfl | rfl <;> exact hnew
  cases phase with
  | check =>
    simp only [actCreate] at h
    split at h
    · cases h
      refine ⟨?_, trivial⟩
      split
      · exact .refl _
      · exact accounted_workspaces disk _
    split at h
    · cases h
      exact ⟨.refl _, trivial⟩
    split at h
    · cases h
      exact ⟨.refl _, trivial⟩
    · cases h
      exact ⟨.refl _, trivial⟩
  | rebuild remove =>
    cases remove with
    | done ok =>
      cases ok with
      | true =>
        cases h
        refine ⟨?_, trivial⟩
        split
        · exact .refl _
        · exact accounted_workspaces disk _
      | false =>
        cases h
        exact ⟨.refl _, trivial⟩
    | _ => exact hremoval .rebuild _ (.inl rfl) (by simp) rfl
  | reuse =>
    cases h
    refine ⟨accounted_reuseCheckouts call c disk, ?_⟩
    split <;> trivial
  | add rest failed =>
    cases rest with
    | nil =>
      cases h
      refine ⟨.refl _, ?_⟩
      split <;> trivial
    | cons directory rest =>
      simp only [actCreate] at h
      split at h
      · cases h
        exact ⟨accounted_worktreeAdd _ _ _, trivial⟩
      split at h
      · cases h
        exact ⟨.refl _, trivial⟩
      · cases h
        refine ⟨.refl _, ?_⟩
        split <;> trivial
  | rollback remove =>
    cases remove with
    | done ok =>
      cases ok with
      | true =>
        cases h
        exact ⟨.refl _, trivial⟩
      | false =>
        cases h
        refine ⟨?_, trivial⟩
        split
        · exact accounted_workspaces disk _
        · exact .refl _
    | _ => exact hremoval .rollback _ (.inr rfl) (by simp) rfl
  | state created =>
    cases h
    refine ⟨?_, trivial⟩
    split
    · exact accounted_workspaces disk _
    · exact .refl _
  | returned => cases h
  | threw => cases h

end Spares

end A2Wave
