import A2Wave.Scm.BranchSwitch
import A2Wave.Scm.FollowSource

/-! `createGitWorkspace` and `removeGitWorkspace` of `lib/git-workspace.ts`, below the lock of the workspace: a
creation that fails removes what it has added, and an incomplete workspace is removed before it is created again. -/

namespace A2Wave.Workspaces

open Refs

variable {Commit : Type}

/-- One repository, in the directory of the workspace itself, or the ones of `config.repos`. -/
inductive Checkouts (Commit : Type)
  | single (repo : SubRepo Commit)
  | multi (repos : List (SubRepo Commit))

namespace Checkouts

def repos : Checkouts Commit → List (SubRepo Commit)
  | .single r => [r]
  | .multi repos => repos

def setRepos (repos : List (SubRepo Commit)) : Checkouts Commit → Checkouts Commit
  | .single r => .single (repos.headD r)
  | .multi _ => .multi repos

end Checkouts

structure WorkspaceDir (Commit : Type) where
  present : Bool
  checkouts : Checkouts Commit

def WorkspaceDir.repos (ws : WorkspaceDir Commit) : List (SubRepo Commit) := ws.checkouts.repos

def WorkspaceDir.setRepos (ws : WorkspaceDir Commit) (repos : List (SubRepo Commit)) : WorkspaceDir Commit :=
  { ws with checkouts := ws.checkouts.setRepos repos }

structure RemoveDirReplies where
  contained : Except GitError Unit := .ok ()
  unexpectedEntries : List String := []
  rm : Except GitError Unit := .ok ()

structure CreateReplies where
  mkdirRoot : Except GitError Unit := .ok ()
  mkdir : Except GitError Unit := .ok ()
  rebuild : RemoveDirReplies := {}
  rollback : RemoveDirReplies := {}
  rmdir : Bool := false

structure CreateOptions where
  name : String
  branch : Option String := none
  followSource : Bool := false
  advance : Bool := true

namespace CreateOptions

def requested (o : CreateOptions) : Option String := o.branch.filter (· ≠ "")

def followsSource (o : CreateOptions) : Bool := o.followSource && o.requested.isNone

def keepBranches (o : CreateOptions) : Bool := o.followSource || isPerAgentWorkspaceName o.name

end CreateOptions

inductive CreateError
  | locked (branch lockedBy : String)
  | switch (e : SwitchError)
  | failed (message : String)
  deriving DecidableEq

/-- `rethrowIfBranchLocked`, which an empty branch passes over. -/
def CreateOptions.locked (o : CreateOptions) (e : GitError) : Option CreateError :=
  match (o.branch.or (if o.followSource then some o.name else none)).filter (· ≠ ""), e.lockedBy with
  | some branch, some lockedBy => some (.locked branch lockedBy)
  | _, _ => none

namespace SubRepo

def isThere (r : SubRepo Commit) : Bool := r.git.worktree.isSome || r.leftover

/-! ### Removal -/

def assertRegistered (wsPath : String) (replies : RemoveReplies) (r : SubRepo Commit) : Except GitError Unit :=
  match replies.registered with
  | .error e => .error e
  | .ok _ =>
    if r.git.worktree.isSome then .ok ()
    else .error { message := "Workspace '" ++ r.wsRepoPath wsPath ++ "' is not a registered Git worktree" }

def deleteLocalBranch (replies : RemoveReplies) (branch : String) (r : SubRepo Commit) : SubRepo Commit :=
  r.setGit (replies.branchDelete.run (Repo.branchDelete branch) r.git).2

def removeWorktree (wsPath : String) (keepBranches : Bool) (replies : RemoveReplies) (r : SubRepo Commit) :
    Except GitError Unit × SubRepo Commit :=
  let branch := symbolicRef replies.symbolicRef r.git
  match replies.remove.run Repo.worktreeRemove r.git with
  | (.error _, g) =>
    (.error { message := "Failed to remove registered Git worktree '" ++ r.wsRepoPath wsPath ++ "'" }, r.setGit g)
  | (.ok _, g) =>
    (.ok (), match branch with
      | some branch => if keepBranches then r.cleared g else (r.cleared g).deleteLocalBranch replies branch
      | none => r.cleared g)

/-! ### Creation -/

def buildWorktreeAddArgs (branch : Option String) (r : SubRepo Commit) :
    Except GitError (Target Commit) × Repo Commit :=
  match branch with
  | none => (.ok .detach, r.git)
  | some branch => match resolveBranchForCheckout r.replies.add.resolution branch r.git with
    | (.error e, g) => (.error e, g)
    | (.ok .local, g) => (.ok (.name branch), g)
    | (.ok .remote, g) => (.ok (.create branch (remoteRef branch)), g)
    | (.ok .new, g) => match resolveBaseRef r.replies.add.base r.baseBranch g with
      | (.error e, g') => (.error e, g')
      | (.ok start, g') => (.ok (.create branch start), g')

def buildFollowSourceAddArgs (name : String) (r : SubRepo Commit) : Except GitError (Target Commit) × Repo Commit :=
  if r.replies.add.branchExists && (r.git.branches name).isSome then (.ok (.name name), r.git)
  else match resolveBaseRef r.replies.add.base r.baseBranch r.git with
    | (.error e, g) => (.error e, g)
    | (.ok start, g) => (.ok (.create name start), g)

def addArgs (o : CreateOptions) (r : SubRepo Commit) : Except GitError (Target Commit) × Repo Commit :=
  if o.followsSource then r.buildFollowSourceAddArgs o.name else r.buildWorktreeAddArgs o.requested

def addWorktree (o : CreateOptions) (r : SubRepo Commit) : Except GitError Unit × SubRepo Commit :=
  match r.addArgs o with
  | (.error e, g) => (.error e, r.setGit g)
  | (.ok target, g) =>
    let (result, g') := r.replies.add.worktreeAdd.run (Repo.worktreeAdd target) g
    (result, r.setGit g')

end SubRepo

def assertAllRegistered (wsPath : String) (replies : Replies Commit → RemoveReplies) :
    List (SubRepo Commit) → Except GitError Unit
  | [] => .ok ()
  | r :: rest =>
    if !r.isThere then assertAllRegistered wsPath replies rest
    else match r.assertRegistered wsPath (replies r.replies) with
      | .error e => .error e
      | .ok _ => assertAllRegistered wsPath replies rest

def removeAll (wsPath : String) (keepBranches : Bool) (replies : Replies Commit → RemoveReplies) :
    List (SubRepo Commit) → Except GitError Unit × List (SubRepo Commit)
  | [] => (.ok (), [])
  | r :: rest =>
    if !r.isThere then
      let (result, rest') := removeAll wsPath keepBranches replies rest
      (result, r :: rest')
    else match r.removeWorktree wsPath keepBranches (replies r.replies) with
      | (.error e, r') => (.error e, r' :: rest)
      | (.ok _, r') =>
        let (result, rest') := removeAll wsPath keepBranches replies rest
        (result, r' :: rest')

def removeGitWorkspaceUnlocked (wsRoot name : String) (keepBranches : Bool) (dir : RemoveDirReplies)
    (replies : Replies Commit → RemoveReplies) (ws : WorkspaceDir Commit) :
    Except GitError Unit × WorkspaceDir Commit :=
  let wsPath := joinPath wsRoot name
  if !isWorktreeName name then (.error { message := "Invalid workspace name: " ++ name }, ws)
  else if !ws.present then (.ok (), ws)
  else match ws.checkouts with
    | .multi repos => match dir.contained with
      | .error e => (.error e, ws)
      | .ok _ =>
        if !dir.unexpectedEntries.isEmpty then
          (.error { message := "Workspace '" ++ wsPath ++ "' contains unexpected entries and cannot be safely removed: "
            ++ ", ".intercalate dir.unexpectedEntries }, ws)
        else match assertAllRegistered wsPath replies repos with
          | .error e => (.error e, ws)
          | .ok _ => match removeAll wsPath keepBranches replies repos with
            | (.error e, repos') => (.error e, { ws with checkouts := .multi repos' })
            | (.ok _, repos') => match dir.rm with
              | .error e => (.error e, { ws with checkouts := .multi repos' })
              | .ok _ => (.ok (), { present := false, checkouts := .multi repos' })
    | .single r => match r.assertRegistered wsPath (replies r.replies) with
      | .error e => (.error e, ws)
      | .ok _ => match r.removeWorktree wsPath keepBranches (replies r.replies) with
        | (.error e, r') => (.error e, { ws with checkouts := .single r' })
        -- the worktree was the directory of the workspace
        | (.ok _, r') => (.ok (), { present := false, checkouts := .single r' })

def addAll (o : CreateOptions) : List (SubRepo Commit) → Option CreateError × List String × List (SubRepo Commit)
  | [] => (none, [], [])
  | r :: rest => match r.addWorktree o with
    | (.ok _, r') =>
      let (locked, errors, rest') := addAll o rest
      (locked, errors, r' :: rest')
    | (.error e, r') => match o.locked e with
      | some locked => (some locked, [], r' :: rest)
      | none =>
        let (locked, errors, rest') := addAll o rest
        (locked, (r.directory ++ ": " ++ e.message) :: errors, r' :: rest')

def rollBackCreate (wsRoot : String) (o : CreateOptions) (replies : CreateReplies) (ws : WorkspaceDir Commit) :
    WorkspaceDir Commit :=
  match removeGitWorkspaceUnlocked wsRoot o.name o.keepBranches replies.rollback (·.rollback) ws with
  | (.ok _, ws') => ws'
  | (.error _, ws') => if replies.rmdir then { ws' with present := false } else ws'

def createFresh (wsRoot : String) (o : CreateOptions) (replies : CreateReplies) (ws : WorkspaceDir Commit) :
    Except CreateError Bool × WorkspaceDir Commit :=
  match replies.mkdirRoot with
  | .error e => (.error (.failed e.message), ws)
  | .ok _ => match ws.checkouts with
    | .multi repos => match replies.mkdir with
      | .error e => (.error (.failed e.message), ws)
      | .ok _ =>
        let (locked, errors, repos') := addAll o repos
        let ws' := { present := true, checkouts := .multi repos' }
        if locked.isSome || !errors.isEmpty then
          (.error (locked.getD (.failed ("Failed to create workspace for repos: " ++ "; ".intercalate errors))),
            rollBackCreate wsRoot o replies ws')
        else (.ok true, ws')
    | .single r => match r.addWorktree o with
      | (.error e, r') =>
        (.error ((o.locked e).getD (.failed ("Failed to create workspace: " ++ e.message))),
          { present := r'.isThere, checkouts := .single r' })
      | (.ok _, r') => (.ok true, { present := true, checkouts := .single r' })

namespace WorkspaceDir

def incomplete (ws : WorkspaceDir Commit) : Bool :=
  match ws.checkouts with
  | .multi repos => repos.any fun r => !r.isThere
  | .single _ => false

def reused (ws : WorkspaceDir Commit) : Bool := ws.present && !ws.incomplete

end WorkspaceDir

def createGitWorkspaceUnlocked [DecidableEq Commit] (history : History Commit) (wsRoot : String) (o : CreateOptions)
    (replies : CreateReplies) (ws : WorkspaceDir Commit) : Except CreateError Bool × WorkspaceDir Commit :=
  if !ws.present then createFresh wsRoot o replies ws
  else if ws.incomplete then
    -- a run of the same agent is executing in the workspace
    if !o.advance then (.ok false, ws)
    else match removeGitWorkspaceUnlocked wsRoot o.name o.keepBranches replies.rebuild (·.rebuild) ws with
      | (.error e, ws') => (.error (.failed e.message), ws')
      | (.ok _, ws') => createFresh wsRoot o replies ws'
  else if o.followsSource then
    (.ok false, if o.advance then ws.setRepos (followSourceHeadOnReuse history o.name ws.repos) else ws)
  else match switchBranchOnReuse (joinPath wsRoot o.name) o.branch ws.repos with
    | (.error e, repos') => (.error (.switch e), ws.setRepos repos')
    | (.ok _, repos') => (.ok false, ws.setRepos repos')

/-! ### What a creation takes from the branches -/

def Spends (o : CreateOptions) (g : Repo Commit) (branch : String) : Prop :=
  o.keepBranches = false ∧ (o.requested = some branch ∨ g.onBranch = some branch)

structure Kept (o : CreateOptions) (g g' : Repo Commit) : Prop where
  branches : ∀ branch tip, g.branches branch = some tip → g'.branches branch = some tip ∨ Spends o g branch
  head : o.keepBranches = false → ∀ branch, g'.onBranch = some branch → Spends o g branch ∨ g.branches branch = none

namespace Kept

variable {o : CreateOptions} {g g' g'' : Repo Commit} {branch : String} {target : Target Commit}

theorem refl : Kept o g g where
  branches _ _ hbranch := .inl hbranch
  head hkeep _ hon := .inl ⟨hkeep, .inr hon⟩

theorem frame (h : Kept o g g') (hbranches : g''.branches = g'.branches) (hworktree : g''.worktree = g'.worktree) :
    Kept o g g'' where
  branches branch tip hbranch := by
    rw [hbranches]
    exact h.branches branch tip hbranch
  head hkeep branch hon := by
    rw [Repo.onBranch_of_worktree hworktree] at hon
    exact h.head hkeep branch hon

theorem worktreeRemove (h : Kept o g g') : Kept o g (g'.setWorktree none) where
  branches := h.branches
  head _ _ hon := by cases hon

theorem branchDelete (h : Kept o g g') (hspends : Spends o g branch ∨ g.branches branch = none) :
    Kept o g (g'.setBranch branch none) where
  branches name tip hname := by
    by_cases hne : name = branch
    · subst hne
      rcases hspends with hspends | hmissing
      · exact .inr hspends
      · rw [hname] at hmissing
        cases hmissing
    · rw [Repo.setBranch_of_ne hne]
      exact h.branches name tip hname
  head := h.head

theorem worktreeAdd (h : Kept o g g') (hadd : g'.worktreeAdd target = some g'')
    (hresets : ∀ name, target.resets name = false)
    (hbranch : o.keepBranches = false → ∀ name, target.branch = some name → o.requested = some name) :
    Kept o g g'' := by
  obtain ⟨head, g₁, hout, rfl⟩ := Repo.worktreeAdd_some hadd
  obtain ⟨hhead, -, hbranches⟩ := Repo.checkedOut_spec hout
  constructor
  · intro name tip hname
    rcases h.branches name tip hname with hkept | hspends
    · rcases hbranches name tip hkept with hkept' | hreset
      · exact .inl hkept'
      · rw [hresets] at hreset
        cases hreset
    · exact .inr hspends
  · intro hkeep name hon
    have hname := Repo.head_of_onBranch hon
    injection hname with hname
    exact .inl ⟨hkeep, .inl (hbranch hkeep name (hhead name hname))⟩

end Kept

section SubRepos

variable {o : CreateOptions} {g : Repo Commit} {r : SubRepo Commit}

theorem removeWorktree_kept (wsPath : String) (replies : RemoveReplies) (h : Kept o g r.git) :
    Kept o g (r.removeWorktree wsPath o.keepBranches replies).2.git := by
  have hrun : Kept o g (replies.remove.run Repo.worktreeRemove r.git).2 := by
    refine replies.remove.run_keeps h fun g' hremoved => ?_
    rw [Repo.worktreeRemove_some hremoved]
    exact h.worktreeRemove
  unfold SubRepo.removeWorktree
  dsimp only
  split
  · rename_i heq
    rw [heq] at hrun
    exact hrun
  · rename_i g' heq
    rw [heq] at hrun
    split
    · rename_i branch hbranch
      split
      · exact hrun
      · rename_i hkeep
        -- the branch was read from the HEAD of the worktree
        have hspends := h.head (Bool.eq_false_iff.mpr hkeep) branch (onBranch_of_symbolicRef hbranch)
        refine replies.branchDelete.run_keeps hrun fun g'' hdeleted => ?_
        rw [Repo.branchDelete_some hdeleted]
        exact hrun.branchDelete hspends
    · exact hrun

theorem addArgs_spec {result : Except GitError (Target Commit)} {g' : Repo Commit}
    (h : r.addArgs o = (result, g')) : g'.branches = r.git.branches ∧ g'.worktree = r.git.worktree ∧
      ∀ target, result = .ok target → (∀ name, target.resets name = false) ∧
        (o.keepBranches = false → ∀ name, target.branch = some name → o.requested = some name) := by
  unfold SubRepo.addArgs at h
  split at h
  · rename_i hfollows
    have hkeep : o.keepBranches = true := by
      rw [CreateOptions.followsSource, Bool.and_eq_true] at hfollows
      rw [CreateOptions.keepBranches, hfollows.1, Bool.true_or]
    have hframe := resolveBaseRef_frame r.replies.add.base r.baseBranch r.git
    unfold SubRepo.buildFollowSourceAddArgs at h
    split at h
    · cases h
      refine ⟨rfl, rfl, fun target htarget => ?_⟩
      cases htarget
      exact ⟨fun _ => rfl, fun hno => by simp [hkeep] at hno⟩
    · split at h
      · rename_i heq
        cases h
        rw [heq] at hframe
        exact ⟨hframe.1, hframe.2, fun target htarget => (nomatch htarget)⟩
      · rename_i heq
        cases h
        rw [heq] at hframe
        refine ⟨hframe.1, hframe.2, fun target htarget => ?_⟩
        cases htarget
        exact ⟨fun _ => rfl, fun hno => by simp [hkeep] at hno⟩
  · unfold SubRepo.buildWorktreeAddArgs at h
    split at h
    · cases h
      refine ⟨rfl, rfl, fun target htarget => ?_⟩
      cases htarget
      exact ⟨fun _ => rfl, fun _ name hname => by cases hname⟩
    · rename_i branch hrequested
      have hframe := resolveBranchForCheckout_frame r.replies.add.resolution branch r.git
      split at h <;> rename_i heq <;> rw [heq] at hframe
      · cases h
        exact ⟨hframe.1, hframe.2, fun target htarget => (nomatch htarget)⟩
      · cases h
        refine ⟨hframe.1, hframe.2, fun target htarget => ?_⟩
        cases htarget
        exact ⟨fun _ => rfl, fun _ name hname => hrequested.trans hname⟩
      · cases h
        refine ⟨hframe.1, hframe.2, fun target htarget => ?_⟩
        cases htarget
        exact ⟨fun _ => rfl, fun _ name hname => hrequested.trans hname⟩
      · rename_i g₁
        have hbase := resolveBaseRef_frame r.replies.add.base r.baseBranch g₁
        split at h <;> rename_i heq' <;> rw [heq'] at hbase
        · cases h
          exact ⟨hbase.1.trans hframe.1, hbase.2.trans hframe.2, fun target htarget => (nomatch htarget)⟩
        · cases h
          refine ⟨hbase.1.trans hframe.1, hbase.2.trans hframe.2, fun target htarget => ?_⟩
          cases htarget
          exact ⟨fun _ => rfl, fun _ name hname => hrequested.trans hname⟩

theorem addWorktree_kept (h : Kept o g r.git) : Kept o g (r.addWorktree o).2.git := by
  unfold SubRepo.addWorktree
  split
  · rename_i heq
    obtain ⟨hbranches, hworktree, -⟩ := addArgs_spec heq
    exact h.frame hbranches hworktree
  · rename_i target g' heq
    obtain ⟨hbranches, hworktree, htarget⟩ := addArgs_spec heq
    obtain ⟨hresets, hbranch⟩ := htarget target rfl
    have hresolved := h.frame hbranches hworktree
    dsimp only
    rw [SubRepo.setGit_git]
    refine r.replies.add.worktreeAdd.run_keeps hresolved fun g'' hadded => ?_
    exact hresolved.worktreeAdd hadded hresets hbranch

end SubRepos

/-- `Kept`, for each sub-repository. -/
def AllKept (o : CreateOptions) : List (SubRepo Commit) → List (SubRepo Commit) → Prop :=
  List.Forall₂ fun before after => Kept o before.git after.git

section Workspaces

variable (wsRoot : String) {o : CreateOptions} {before repos : List (SubRepo Commit)} {ws : WorkspaceDir Commit}

theorem removeAll_kept (wsPath : String) (replies : Replies Commit → RemoveReplies) (h : AllKept o before repos) :
    AllKept o before (removeAll wsPath o.keepBranches replies repos).2 := by
  induction h with
  | nil => exact .nil
  | @cons r₀ r before rest hr hrest ih =>
    have hremoved := removeWorktree_kept wsPath (replies r.replies) hr
    unfold removeAll
    split
    · exact .cons hr ih
    · split
      · rename_i heq
        rw [heq] at hremoved
        exact .cons hremoved hrest
      · rename_i heq
        rw [heq] at hremoved
        exact .cons hremoved ih

theorem addAll_kept (h : AllKept o before repos) : AllKept o before (addAll o repos).2.2 := by
  induction h with
  | nil => exact .nil
  | @cons r₀ r before rest hr hrest ih =>
    have hadded := addWorktree_kept hr
    unfold addAll
    split
    · rename_i heq
      rw [heq] at hadded
      exact .cons hadded ih
    · rename_i heq
      rw [heq] at hadded
      split
      · exact .cons hadded hrest
      · exact .cons hadded ih

theorem removeGitWorkspaceUnlocked_kept (name : String) (dir : RemoveDirReplies)
    (replies : Replies Commit → RemoveReplies) (h : AllKept o before ws.repos) :
    AllKept o before (removeGitWorkspaceUnlocked wsRoot name o.keepBranches dir replies ws).2.repos := by
  unfold removeGitWorkspaceUnlocked
  dsimp only
  split
  · exact h
  · split
    · exact h
    · cases hcheckouts : ws.checkouts with
      | multi repos =>
        rw [WorkspaceDir.repos, hcheckouts] at h
        have hremoved : AllKept o before (removeAll (joinPath wsRoot name) o.keepBranches replies repos).2 :=
          removeAll_kept _ replies h
        have hsame : AllKept o before ws.repos := by
          rw [WorkspaceDir.repos, hcheckouts]
          exact h
        dsimp only
        split
        · exact hsame
        · split
          · exact hsame
          · split
            · exact hsame
            · split
              · rename_i heq
                rw [heq] at hremoved
                exact hremoved
              · rename_i heq
                rw [heq] at hremoved
                split
                · exact hremoved
                · exact hremoved
      | single r =>
        have hsame := h
        rw [WorkspaceDir.repos, hcheckouts] at h
        obtain ⟨r₀, before', hr, hnil, rfl⟩ := List.forall₂_cons_right_iff.mp h
        cases hnil
        have hremoved := removeWorktree_kept (joinPath wsRoot name) (replies r.replies) hr
        dsimp only
        split
        · exact hsame
        · split
          · rename_i heq
            rw [heq] at hremoved
            exact .cons hremoved .nil
          · rename_i heq
            rw [heq] at hremoved
            exact .cons hremoved .nil

theorem rollBackCreate_kept (replies : CreateReplies) (h : AllKept o before ws.repos) :
    AllKept o before (rollBackCreate wsRoot o replies ws).repos := by
  have hremoved : AllKept o before
      (removeGitWorkspaceUnlocked wsRoot o.name o.keepBranches replies.rollback (·.rollback) ws).2.repos :=
    removeGitWorkspaceUnlocked_kept wsRoot o.name replies.rollback (·.rollback) h
  unfold rollBackCreate
  split
  · rename_i heq
    rw [heq] at hremoved
    exact hremoved
  · rename_i heq
    rw [heq] at hremoved
    split
    · exact hremoved
    · exact hremoved

theorem createFresh_kept (replies : CreateReplies) (h : AllKept o before ws.repos) :
    AllKept o before (createFresh wsRoot o replies ws).2.repos := by
  unfold createFresh
  split
  · exact h
  · cases hcheckouts : ws.checkouts with
    | multi repos =>
      have hsame := h
      rw [WorkspaceDir.repos, hcheckouts] at h
      have hadded := addAll_kept h
      dsimp only
      split
      · exact hsame
      · split
        · exact rollBackCreate_kept wsRoot replies hadded
        · exact hadded
    | single r =>
      rw [WorkspaceDir.repos, hcheckouts] at h
      obtain ⟨r₀, before', hr, hnil, rfl⟩ := List.forall₂_cons_right_iff.mp h
      cases hnil
      have hadded := addWorktree_kept hr
      dsimp only
      split
      · rename_i heq
        rw [heq] at hadded
        exact .cons hadded .nil
      · rename_i heq
        rw [heq] at hadded
        exact .cons hadded .nil

end Workspaces

theorem setRepos_repos {R : SubRepo Commit → SubRepo Commit → Prop} {ws : WorkspaceDir Commit}
    {repos : List (SubRepo Commit)} (h : List.Forall₂ R ws.repos repos) : (ws.setRepos repos).repos = repos := by
  unfold WorkspaceDir.setRepos WorkspaceDir.repos at *
  cases hcheckouts : ws.checkouts with
  | multi _ => rfl
  | single r =>
    rw [hcheckouts] at h
    obtain ⟨r', rest, -, hnil, rfl⟩ := List.forall₂_cons_left_iff.mp h
    cases hnil
    rfl

/-- The branches of a sub-repository that a creation may take: what its removals delete; and of a workspace that is
reused, the requested branch if Git failed to find it. -/
def MayTake (o : CreateOptions) (ws : WorkspaceDir Commit) (r : SubRepo Commit) (branch : String) : Prop :=
  (ws.reused = false ∧ Spends o r.git branch) ∨
    (ws.reused = true ∧ o.requested = some branch ∧ r.replies.switch.resolution.revParse = false)

/-- When a creation throws, every branch that was there is at its old commit, but for those it may take. -/
theorem createGitWorkspaceUnlocked_throws [DecidableEq Commit] (history : History Commit) (wsRoot : String)
    (o : CreateOptions) (replies : CreateReplies) (ws ws' : WorkspaceDir Commit) (e : CreateError)
    (h : createGitWorkspaceUnlocked history wsRoot o replies ws = (.error e, ws')) :
    List.Forall₂ (fun before after : SubRepo Commit =>
        ∀ branch tip, before.git.branches branch = some tip →
          after.git.branches branch = some tip ∨ MayTake o ws before branch)
      ws.repos ws'.repos := by
  have hrefl : AllKept o ws.repos ws.repos := List.forall₂_same.mpr fun _ _ => .refl
  -- a workspace that is not reused is only added to and removed from
  have hspends (hreused : ws.reused = false) (hkept : AllKept o ws.repos ws'.repos) :
      List.Forall₂ (fun before after : SubRepo Commit =>
        ∀ branch tip, before.git.branches branch = some tip →
          after.git.branches branch = some tip ∨ MayTake o ws before branch) ws.repos ws'.repos := by
    refine hkept.imp fun before after hbefore branch tip hbranch => ?_
    rcases hbefore.branches branch tip hbranch with hsame | hspent
    · exact .inl hsame
    · exact .inr (.inl ⟨hreused, hspent⟩)
  unfold createGitWorkspaceUnlocked at h
  split at h
  · rename_i habsent
    have hreused : ws.reused = false := by
      simp only [Bool.not_eq_true'] at habsent
      rw [WorkspaceDir.reused, habsent, Bool.false_and]
    have hcreated := createFresh_kept wsRoot replies hrefl
    rw [h] at hcreated
    exact hspends hreused hcreated
  · split at h
    · rename_i hincomplete
      have hreused : ws.reused = false := by
        rw [WorkspaceDir.reused, hincomplete, Bool.not_true, Bool.and_false]
      split at h
      · cases h
      · have hremoved := removeGitWorkspaceUnlocked_kept wsRoot o.name replies.rebuild (·.rebuild) hrefl
        split at h <;> rename_i heq <;> rw [heq] at hremoved
        · cases h
          exact hspends hreused hremoved
        · have hcreated := createFresh_kept wsRoot replies hremoved
          rw [h] at hcreated
          exact hspends hreused hcreated
    · rename_i hpresent hcomplete
      have hreused : ws.reused = true := by
        rw [WorkspaceDir.reused, Bool.eq_false_iff.mpr hcomplete]
        simpa using hpresent
      split at h
      · cases h
      · cases hbranch : o.branch with
        | none =>
          rw [hbranch] at h
          cases h
        | some branch =>
          have hkept := switchBranchOnReuse_kept (joinPath wsRoot o.name) branch ws.repos
          rw [hbranch] at h
          split at h <;> rename_i heq <;> rw [heq] at hkept
          · injection h with _ h
            rw [← h, setRepos_repos hkept]
            have hrequested : o.requested = some branch := by
              by_contra hno
              rw [CreateOptions.requested, hbranch] at hno
              rw [switchBranchOnReuse] at heq
              cases hfilter : (some branch).filter (· ≠ "") with
              | none =>
                rw [hfilter] at heq
                cases heq
              | some branch' =>
                rw [hfilter] at hno
                obtain ⟨hsome, -⟩ := Option.filter_eq_some_iff.mp hfilter
                exact hno hsome.symm
            refine hkept.imp fun before after hbefore name tip hname => ?_
            rcases hbefore name tip hname with hsame | ⟨rfl, hread⟩
            · exact .inl hsame
            · exact .inr (.inr ⟨hreused, hrequested, hread⟩)
          · cases h

/-- A workspace of two repositories that is to be created on `feature-b`, a branch of the first; there is no room
for the worktree of the second. -/
def noRoom : WorkspaceDir Nat where
  present := false
  checkouts := .multi [
    { directory := "api"
      git := { branches := fun name => if name = "feature-b" then some 7 else none, source := .branch "main" } },
    { directory := "web"
      git := { branches := fun name => if name = "main" then some 1 else none, source := .branch "main" }
      replies := { add := { worktreeAdd := { fails := true, error := { message := "No space left on device" } } } } }]

def onFeatureB : CreateOptions := { name := "w1", branch := some "feature-b" }

theorem createGitWorkspaceUnlocked_noRoom : ∃ e ws',
    createGitWorkspaceUnlocked linear "/srv/workspaces" onFeatureB {} noRoom = (.error e, ws') ∧
    List.Forall₂ (fun before after : SubRepo Nat =>
        ∀ branch tip, before.git.branches branch = some tip →
          after.git.branches branch = some tip ∨ MayTake onFeatureB noRoom before branch)
      noRoom.repos ws'.repos :=
  ⟨_, _, rfl, createGitWorkspaceUnlocked_throws linear "/srv/workspaces" onFeatureB {} noRoom _ _ rfl⟩

theorem createGitWorkspaceUnlocked_deletes_branch : ¬ ∀ (o : CreateOptions) (ws ws' : WorkspaceDir Nat)
    (e : CreateError),
    createGitWorkspaceUnlocked linear "/srv/workspaces" o {} ws = (.error e, ws') →
    List.Forall₂ (fun before after : SubRepo Nat =>
        ∀ branch tip, before.git.branches branch = some tip → after.git.branches branch = some tip)
      ws.repos ws'.repos := by
  intro h
  cases h onFeatureB noRoom _ _ rfl with
  | cons hapi _ => exact absurd (hapi "feature-b" 7 rfl) (by decide)

end A2Wave.Workspaces
