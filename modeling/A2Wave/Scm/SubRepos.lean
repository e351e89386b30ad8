import A2Wave.Lib.Refs
import A2Wave.Scm.PerAgent

/-! `lib/git-workspace.ts`: the sub-repositories of a workspace, each with a checkout of the workspace, and the
branches they are to be on.  What every command answers is given with the sub-repository; any of them may fail. -/

namespace A2Wave.Workspaces

open Refs

structure GitError where
  message : String := ""
  code : Nat := 128
  lockedBy : Option String := none
  deriving DecidableEq

structure Reply where
  fails : Bool := false
  applied : Bool := false
  error : GitError := {}

structure ResolutionReplies (Commit : Type) where
  revParse : Bool := true
  tracking : Bool := true
  lsRemote : Except GitError Unit := .error { code := 2 }
  fetch : Except GitError Commit := .error {}

structure WorktreeEntry where
  path : String
  branch : Option String
  deriving DecidableEq

structure SwitchReplies (Commit : Type) where
  current : Bool := true
  status : Except GitError String := .ok ""
  worktreeList : Except GitError (List WorktreeEntry) := .ok []
  symbolicRef : Bool := true
  revParse : Bool := true
  resolution : ResolutionReplies Commit := {}
  base : ResolutionReplies Commit := {}
  checkout : Reply := {}
  rollback : Reply := {}

structure FollowReplies where
  symbolicRef : Bool := true
  sourceHead : Except GitError Unit := .ok ()
  wsHead : Except GitError Unit := .ok ()
  status : Except GitError Unit := .ok ()
  mergeBase : Bool := true
  branchExists : Bool := true
  branchTip : Except GitError Unit := .ok ()
  move : Reply := {}

structure RemoveReplies where
  registered : Except GitError Unit := .ok ()
  symbolicRef : Bool := true
  remove : Reply := {}
  branchDelete : Reply := {}

structure AddReplies (Commit : Type) where
  branchExists : Bool := true
  resolution : ResolutionReplies Commit := {}
  base : ResolutionReplies Commit := {}
  worktreeAdd : Reply := {}

structure Replies (Commit : Type) where
  switch : SwitchReplies Commit := {}
  follow : FollowReplies := {}
  rebuild : RemoveReplies := {}
  add : AddReplies Commit := {}
  rollback : RemoveReplies := {}

structure SubRepo (Commit : Type) where
  directory : String
  branch : Option String := none
  git : Repo Commit
  leftover : Bool := false
  replies : Replies Commit := {}

inductive BranchResolution
  | local
  | remote
  | new
  deriving DecidableEq

variable {Commit : Type}

def Reply.run (reply : Reply) (command : Repo Commit → Option (Repo Commit)) (g : Repo Commit) :
    Except GitError Unit × Repo Commit :=
  match command g with
  | none => (.error reply.error, g)
  | some g' =>
    if reply.fails then (.error reply.error, if reply.applied then g' else g) else (.ok (), g')

/-- `git symbolic-ref --short -q HEAD`, which a detached HEAD makes fail as well. -/
def symbolicRef (answers : Bool) (g : Repo Commit) : Option String := if answers then g.onBranch else none

def remoteRef (branch : String) : String := "origin/" ++ branch

def resolveBranchForCheckout (replies : ResolutionReplies Commit) (branch : String) (g : Repo Commit) :
    Except GitError BranchResolution × Repo Commit :=
  if replies.revParse && (g.rev branch).isSome then (.ok .local, g)
  else if replies.tracking && (g.names (remoteRef branch)).isSome then (.ok .remote, g)
  else match replies.lsRemote with
    -- only exit code 2 says that the remote has no such branch
    | .error e => (if e.code = 2 then .ok .new else .error e, g)
    | .ok _ => match replies.fetch with
      | .error e => (.error e, g)
      | .ok commit => (.ok .remote, g.setName (remoteRef branch) commit)

def resolveBaseRef (replies : ResolutionReplies Commit) (baseBranch : String) (g : Repo Commit) :
    Except GitError String × Repo Commit :=
  match resolveBranchForCheckout replies baseBranch g with
  | (.error e, g') => (.error e, g')
  | (.ok .remote, g') => (.ok (remoteRef baseBranch), g')
  | (.ok .local, g') => (.ok baseBranch, g')
  | (.ok .new, g') =>
    (.error { message := "Configured base branch '" ++ baseBranch ++
      "' not found locally or on origin — refusing to create new branch from arbitrary HEAD" }, g')

def findBranchLockHolder (entries : List WorktreeEntry) (branch selfPath : String) : Option String :=
  (entries.find? fun e => e.branch = some branch && e.path ≠ "" && e.path ≠ selfPath).map (·.path)

namespace SubRepo

def setGit (r : SubRepo Commit) (g : Repo Commit) : SubRepo Commit := { r with git := g }

@[simp] theorem setGit_git (r : SubRepo Commit) (g : Repo Commit) : (r.setGit g).git = g := rfl

def cleared (r : SubRepo Commit) (g : Repo Commit) : SubRepo Commit := { r with git := g, leftover := false }

/-- `repo.branch || 'main'`. -/
def baseBranch (r : SubRepo Commit) : String := (r.branch.filter (· ≠ "")).getD "main"

end SubRepo

theorem onBranch_of_symbolicRef {answers : Bool} {g : Repo Commit} {branch : String}
    (h : symbolicRef answers g = some branch) : g.onBranch = some branch := by
  unfold symbolicRef at h
  split at h
  · exact h
  · cases h

theorem resolveBranchForCheckout_frame (replies : ResolutionReplies Commit) (branch : String)
    (g : Repo Commit) :
    (resolveBranchForCheckout replies branch g).2.branches = g.branches ∧
      (resolveBranchForCheckout replies branch g).2.worktree = g.worktree := by
  unfold resolveBranchForCheckout
  split
  · exact ⟨rfl, rfl⟩
  · split
    · exact ⟨rfl, rfl⟩
    · split
      · exact ⟨rfl, rfl⟩
      · split
        · exact ⟨rfl, rfl⟩
        · exact ⟨rfl, rfl⟩

theorem resolveBaseRef_frame (replies : ResolutionReplies Commit) (baseBranch : String) (g : Repo Commit) :
    (resolveBaseRef replies baseBranch g).2.branches = g.branches ∧
      (resolveBaseRef replies baseBranch g).2.worktree = g.worktree := by
  have hframe := resolveBranchForCheckout_frame replies baseBranch g
  unfold resolveBaseRef
  split <;> rename_i heq <;> rw [heq] at hframe <;> exact hframe

theorem missing_of_resolve {replies : ResolutionReplies Commit} {branch : String} {g g' : Repo Commit}
    {resolution : BranchResolution} (h : resolveBranchForCheckout replies branch g = (.ok resolution, g'))
    (hne : resolution ≠ .local) : replies.revParse = false ∨ g.branches branch = none := by
  unfold resolveBranchForCheckout at h
  split at h
  · injection h with hres
    injection hres with hres
    exact absurd hres.symm hne
  · rename_i hno
    cases hrev : replies.revParse with
    | false => exact .inl rfl
    | true =>
      right
      cases hb : g.branches branch with
      | none => rfl
      | some tip => simp [hrev, Repo.rev, hb] at hno

theorem Reply.run_ok {reply : Reply} {command : Repo Commit → Option (Repo Commit)}
    {g g' : Repo Commit} (h : reply.run command g = (.ok (), g')) : command g = some g' := by
  unfold Reply.run at h
  split at h
  · cases h
  · rename_i g'' heq
    split at h
    · cases h
    · injection h with _ h
      rw [heq, h]

theorem Reply.run_keeps {P : Repo Commit → Prop} {command : Repo Commit → Option (Repo Commit)}
    {g : Repo Commit} (reply : Reply) (h : P g) (hdone : ∀ g', command g = some g' → P g') :
    P (reply.run command g).2 := by
  unfold Reply.run
  split
  · exact h
  · rename_i g' heq
    split
    · split
      · exact hdone g' heq
      · exact h
    · exact hdone g' heq

end A2Wave.Workspaces
