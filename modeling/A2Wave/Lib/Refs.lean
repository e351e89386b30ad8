import Mathlib.Logic.Function.Basic
import Mathlib.Logic.Relation

/-! The refs of a Git repository with a main checkout and one worktree: what the commands do to them, and the
commits that can be reached from them. -/

namespace A2Wave.Refs

inductive Head (Commit : Type)
  | branch (name : String)
  | detached (commit : Commit)
  deriving DecidableEq

structure Worktree (Commit : Type) where
  head : Head Commit
  modified : Bool := false
  deriving DecidableEq

structure Repo (Commit : Type) where
  branches : String → Option Commit := fun _ => none
  names : String → Option Commit := fun _ => none
  source : Head Commit
  held : String → Bool := fun _ => false
  worktree : Option (Worktree Commit) := none

inductive Target (Commit : Type)
  | detach
  | name (name : String)
  | create (branch start : String)
  | createAt (branch : String) (start : Commit)
  | reset (branch start : String)
  deriving DecidableEq

namespace Target

variable {Commit : Type}

def branch : Target Commit → Option String
  | .detach => none
  | .name wanted => some wanted
  | .create made _ => some made
  | .createAt made _ => some made
  | .reset made _ => some made

def resets (branch : String) : Target Commit → Bool
  | .reset made _ => made = branch
  | _ => false

end Target

namespace Repo

variable {Commit : Type}

def tip (g : Repo Commit) : Head Commit → Option Commit
  | .branch name => g.branches name
  | .detached commit => some commit

def rev (g : Repo Commit) (name : String) : Option Commit := (g.branches name).or (g.names name)

def head (g : Repo Commit) : Option (Head Commit) := g.worktree.map (·.head)

def onBranch (g : Repo Commit) : Option String :=
  match g.head with
  | some (.branch name) => some name
  | _ => none

variable {g g' : Repo Commit}

theorem head_of_worktree (h : g'.worktree = g.worktree) : g'.head = g.head := by
  rw [head, head, h]

theorem head_of_onBranch {g : Repo Commit} {name : String} (h : g.onBranch = some name) :
    g.head = some (.branch name) := by
  unfold onBranch at h
  split at h
  · rename_i hhead
    injection h with h
    rw [hhead, h]
  · cases h

theorem onBranch_of_worktree (h : g'.worktree = g.worktree) : g'.onBranch = g.onBranch := by
  rw [onBranch, onBranch, head_of_worktree h]

def holdsElsewhere (g : Repo Commit) (name : String) : Bool :=
  g.held name || match g.source with
    | .branch main => main == name
    | .detached _ => false

def setBranch (g : Repo Commit) (name : String) (commit : Option Commit) : Repo Commit :=
  { g with branches := Function.update g.branches name commit }

@[simp] theorem setBranch_self (g : Repo Commit) (name : String) (commit : Option Commit) :
    (g.setBranch name commit).branches name = commit := Function.update_self ..

theorem setBranch_of_ne {g : Repo Commit} {name name' : String} {commit : Option Commit} (h : name' ≠ name) :
    (g.setBranch name commit).branches name' = g.branches name' := Function.update_of_ne h ..

def setWorktree (g : Repo Commit) (worktree : Option (Worktree Commit)) : Repo Commit :=
  { g with worktree := worktree }

def setName (g : Repo Commit) (name : String) (commit : Commit) : Repo Commit :=
  { g with names := Function.update g.names name (some commit) }

def checkedOut (g : Repo Commit) : Target Commit → Option (Head Commit × Repo Commit)
  | .detach => (g.tip g.source).map fun commit => (.detached commit, g)
  | .name name =>
    if (g.branches name).isSome then if g.holdsElsewhere name then none else some (.branch name, g)
    else (g.names name).map fun commit => (.detached commit, g)
  | .create branch start =>
    if (g.branches branch).isSome then none
    else (g.rev start).map fun commit => (.branch branch, g.setBranch branch (some commit))
  | .createAt branch start =>
    if (g.branches branch).isSome then none else some (.branch branch, g.setBranch branch (some start))
  | .reset branch start =>
    if g.holdsElsewhere branch then none
    else (g.rev start).map fun commit => (.branch branch, g.setBranch branch (some commit))

def worktreeAdd (target : Target Commit) (g : Repo Commit) : Option (Repo Commit) :=
  if g.worktree.isSome then none
  else (g.checkedOut target).map fun (head, g') => g'.setWorktree (some { head := head })

variable {target : Target Commit}

theorem worktreeAdd_some (h : g.worktreeAdd target = some g') :
    ∃ head g'', g.checkedOut target = some (head, g'') ∧ g' = g''.setWorktree (some { head := head }) := by
  unfold worktreeAdd at h
  split at h
  · cases h
  · rw [Option.map_eq_some_iff] at h
    obtain ⟨⟨head, g''⟩, hout, h⟩ := h
    exact ⟨head, g'', hout, h.symm⟩

def checkout (target : Target Commit) (g : Repo Commit) : Option (Repo Commit) :=
  g.worktree.bind fun w =>
    (g.checkedOut target).map fun (head, g') => g'.setWorktree (some { w with head := head })

theorem checkedOut_spec {head : Head Commit}
    (h : g.checkedOut target = some (head, g')) :
    (∀ branch, head = .branch branch → target.branch = some branch) ∧ g'.source = g.source ∧
      ∀ branch tip, g.branches branch = some tip → g'.branches branch = some tip ∨ target.resets branch = true := by
  have hset {made : String} {commit : Commit} (hmissing : ¬ (g.branches made).isSome = true)
      (branch : String) (tip : Commit) (hbranch : g.branches branch = some tip) :
      (g.setBranch made (some commit)).branches branch = some tip := by
    have hne : branch ≠ made := by
      rintro rfl
      rw [hbranch] at hmissing
      exact hmissing rfl
    rw [setBranch_of_ne hne, hbranch]
  cases target with
  | detach =>
    rw [checkedOut, Option.map_eq_some_iff] at h
    obtain ⟨commit, -, h⟩ := h
    cases h
    exact ⟨fun branch h => (nomatch h), rfl, fun branch tip hbranch => .inl hbranch⟩
  | name wanted =>
    unfold checkedOut at h
    dsimp only at h
    split at h
    · split at h
      · cases h
      · cases h
        exact ⟨fun branch h => congrArg some (Head.branch.inj h), rfl, fun branch tip hbranch => .inl hbranch⟩
    · rw [Option.map_eq_some_iff] at h
      obtain ⟨commit, -, h⟩ := h
      cases h
      exact ⟨fun branch h => (nomatch h), rfl, fun branch tip hbranch => .inl hbranch⟩
  | create made start =>
    unfold checkedOut at h
    dsimp only at h
    split at h
    · cases h
    · rename_i hmissing
      rw [Option.map_eq_some_iff] at h
      obtain ⟨commit, -, h⟩ := h
      cases h
      exact ⟨fun branch h => congrArg some (Head.branch.inj h), rfl,
        fun branch tip hbranch => .inl (hset hmissing branch tip hbranch)⟩
  | createAt made start =>
    unfold checkedOut at h
    dsimp only at h
    split at h
    · cases h
    · rename_i hmissing
      cases h
      exact ⟨fun branch h => congrArg some (Head.branch.inj h), rfl,
        fun branch tip hbranch => .inl (hset hmissing branch tip hbranch)⟩
  | reset made start =>
    unfold checkedOut at h
    dsimp only at h
    split at h
    · cases h
    · rw [Option.map_eq_some_iff] at h
      obtain ⟨commit, -, h⟩ := h
      cases h
      refine ⟨fun branch h => congrArg some (Head.branch.inj h), rfl, fun branch tip hbranch => ?_⟩
      by_cases hmade : branch = made
      · exact .inr (decide_eq_true hmade.symm)
      · left
        rw [setBranch_of_ne hmade, hbranch]

theorem checkout_some (h : g.checkout target = some g') :
    ∃ w, g.worktree = some w ∧ ∃ head g'', g.checkedOut target = some (head, g'') ∧
      g' = g''.setWorktree (some { w with head := head }) := by
  rw [checkout, Option.bind_eq_some_iff] at h
  obtain ⟨w, hw, h⟩ := h
  rw [Option.map_eq_some_iff] at h
  obtain ⟨⟨head, g''⟩, hout, h⟩ := h
  exact ⟨w, hw, head, g'', hout, h.symm⟩

/-- `git checkout` of the ref that HEAD was at. -/
def restore (head : Head Commit) (g : Repo Commit) : Option (Repo Commit) :=
  g.worktree.map fun w => g.setWorktree (some { w with head := head })

/-- `git worktree remove --force`. -/
def worktreeRemove (g : Repo Commit) : Option (Repo Commit) :=
  if g.worktree.isSome then some (g.setWorktree none) else none

/-- `git branch -D`, which refuses a branch that is checked out. -/
def branchDelete (name : String) (g : Repo Commit) : Option (Repo Commit) :=
  if g.holdsElsewhere name || g.onBranch = some name then none
  else if (g.branches name).isSome then some (g.setBranch name none) else none

theorem branchDelete_some {name : String} (h : g.branchDelete name = some g') : g' = g.setBranch name none := by
  unfold branchDelete at h
  split at h
  · cases h
  · split at h
    · injection h with h
      exact h.symm
    · cases h

theorem worktreeRemove_some (h : g.worktreeRemove = some g') : g' = g.setWorktree none := by
  unfold worktreeRemove at h
  split at h
  · injection h with h
    exact h.symm
  · cases h

def resetHard (commit : Commit) (g : Repo Commit) : Option (Repo Commit) :=
  g.worktree.map fun w =>
    match w.head with
    | .branch name => (g.setBranch name (some commit)).setWorktree (some { w with modified := false })
    | .detached _ => g.setWorktree (some { head := .detached commit })

end Repo

/-- The commits of a repository, with what `git merge-base --is-ancestor` says of them. -/
structure History (Commit : Type) where
  parents : Commit → List Commit
  isAncestor : Commit → Commit → Bool
  isAncestor_iff : ∀ ref target,
    isAncestor ref target = true ↔ Relation.ReflTransGen (fun child parent => parent ∈ parents child) target ref

namespace History

variable {Commit : Type} (history : History Commit)

def Reaches (tip commit : Commit) : Prop :=
  Relation.ReflTransGen (fun child parent => parent ∈ history.parents child) tip commit

def OnBranch (g : Repo Commit) (commit : Commit) : Prop :=
  ∃ name tip, g.branches name = some tip ∧ history.Reaches tip commit

def FromHead (g : Repo Commit) (head : Option (Head Commit)) (commit : Commit) : Prop :=
  ∃ tip, head.bind g.tip = some tip ∧ history.Reaches tip commit

def Anchored (g : Repo Commit) (commit : Commit) : Prop :=
  history.OnBranch g commit ∨ history.FromHead g (some g.source) commit

def Advances (g g' : Repo Commit) : Prop :=
  g'.source = g.source ∧
    ∀ name tip, g.branches name = some tip → ∃ tip', g'.branches name = some tip' ∧ history.Reaches tip' tip

variable {history} {g g' : Repo Commit} {name : String} {tip commit start : Commit}

theorem Advances.refl : history.Advances g g := ⟨rfl, fun _ tip hbranch => ⟨tip, hbranch, .refl⟩⟩

theorem Advances.anchored (h : history.Advances g g') (hc : history.Anchored g commit) :
    history.Anchored g' commit := by
  obtain ⟨hsource, hbranches⟩ := h
  rcases hc with ⟨name, tip, hbranch, hreach⟩ | ⟨tip, htip, hreach⟩
  · obtain ⟨tip', hbranch', hadvance⟩ := hbranches name tip hbranch
    exact .inl ⟨name, tip', hbranch', hadvance.trans hreach⟩
  · cases hg : g.source with
    | branch main =>
      rw [hg] at htip
      obtain ⟨tip', hbranch', hadvance⟩ := hbranches main tip htip
      exact .inl ⟨main, tip', hbranch', hadvance.trans hreach⟩
    | detached c =>
      rw [hg] at htip
      refine .inr ⟨tip, ?_, hreach⟩
      rw [hsource, hg]
      exact htip

theorem Advances.of_checkedOut {target : Target Commit} {head : Head Commit}
    (h : g.checkedOut target = some (head, g')) (hresets : ∀ branch, target.resets branch = false) :
    history.Advances g g' := by
  obtain ⟨-, hsource, hbranches⟩ := Repo.checkedOut_spec h
  refine ⟨hsource, fun branch tip hbranch => ⟨tip, ?_, .refl⟩⟩
  rcases hbranches branch tip hbranch with hkept | hreset
  · exact hkept
  · rw [hresets] at hreset
    cases hreset

theorem Advances.move (h : g.branches name = some tip) (hreach : history.Reaches start tip) :
    history.Advances g (g.setBranch name (some start)) := by
  refine ⟨rfl, fun name' tip' hbranch => ?_⟩
  by_cases hname : name' = name
  · subst hname
    rw [h] at hbranch
    injection hbranch with hbranch
    rw [← hbranch]
    exact ⟨start, Repo.setBranch_self .., hreach⟩
  · refine ⟨tip', ?_, .refl⟩
    rw [Repo.setBranch_of_ne hname, hbranch]

end History

end A2Wave.Refs
