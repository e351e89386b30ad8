import A2Wave.Scm.SubRepos
import Mathlib.Data.List.Forall2

/-! `followSourceHeadOnReuse` of `lib/git-workspace.ts`: what is to happen to each sub-repository is decided before
any of them moves.  A worktree counts as modified if `git status -uno` lists a path that is not the platform's. -/

namespace A2Wave.Workspaces

open Refs

variable {Commit : Type}

inductive FollowSourcePlan (Commit : Type)
  | skip
  | pin (reason : String)
  | advance (target : Commit)
  | adopt (target : Commit) (branchExists : Bool)

def FollowSourcePlan.isPin : FollowSourcePlan Commit → Bool
  | .pin _ => true
  | _ => false

def probe {α : Type} (reply : Except GitError Unit) (answer : Option α) : Except GitError α :=
  match reply, answer with
  | .error e, _ => .error e
  | .ok _, none => .error {}
  | .ok _, some a => .ok a

namespace SubRepo

variable [DecidableEq Commit] (history : History Commit) (name : String)

def adoptPlan (target : Commit) (r : SubRepo Commit) : FollowSourcePlan Commit :=
  if r.replies.follow.branchExists && (r.git.branches name).isSome then
    match probe r.replies.follow.branchTip (r.git.branches name) with
    | .error e => .pin e.message
    | .ok _ => .adopt target true
  else .adopt target false

def planFrom (onBranch : Bool) (target wsHead : Commit) (r : SubRepo Commit) : FollowSourcePlan Commit :=
  if wsHead = target ∧ onBranch = true then .skip
  else match probe r.replies.follow.status (r.git.worktree.map (·.modified)) with
    | .error e => .pin e.message
    | .ok true => .pin "tracked modifications"
    | .ok false =>
      -- a failing probe counts as no ancestor
      if wsHead ≠ target ∧ (r.replies.follow.mergeBase && history.isAncestor wsHead target) = false then
        .pin "unmerged local commits"
      else if onBranch then .advance target
      else r.adoptPlan name target

def followPlan (r : SubRepo Commit) : FollowSourcePlan Commit :=
  let onBranch := symbolicRef r.replies.follow.symbolicRef r.git
  if onBranch.isSome ∧ onBranch ≠ some name then .skip
  else match probe r.replies.follow.sourceHead (r.git.tip r.git.source) with
    | .error e => .pin e.message
    | .ok target => match probe r.replies.follow.wsHead (r.git.head.bind r.git.tip) with
      | .error e => .pin e.message
      | .ok wsHead => r.planFrom history name onBranch.isSome target wsHead

def carryOut (r : SubRepo Commit) : FollowSourcePlan Commit → SubRepo Commit
  | .advance target => r.setGit (r.replies.follow.move.run (Repo.resetHard target) r.git).2
  | .adopt target branchExists =>
    let target := if branchExists then .name name else .createAt name target
    r.setGit (r.replies.follow.move.run (Repo.checkout target) r.git).2
  | _ => r

end SubRepo

def followSourceHeadOnReuse [DecidableEq Commit] (history : History Commit) (name : String)
    (repos : List (SubRepo Commit)) : List (SubRepo Commit) :=
  if repos.any fun r => (r.followPlan history name).isPin then repos
  else repos.map fun r => r.carryOut name (r.followPlan history name)

/-! ### What the plans rest on -/

theorem probe_ok {α : Type} {reply : Except GitError Unit} {answer : Option α} {a : α}
    (h : probe reply answer = .ok a) : answer = some a := by
  unfold probe at h
  split at h
  · cases h
  · cases h
  · injection h with h
    rw [h]

def FollowSourcePlan.Justified (history : History Commit) (name : String) (g : Repo Commit) :
    FollowSourcePlan Commit → Prop
  | .skip => ∃ branch, g.onBranch = some branch
  | .pin _ => True
  | .advance target => ∃ w tip, g.worktree = some w ∧ w.head = .branch name ∧ w.modified = false ∧
      g.branches name = some tip ∧ history.Reaches target tip
  | .adopt target _ => ∃ w tip, g.worktree = some w ∧ w.modified = false ∧ g.tip w.head = some tip ∧
      g.tip g.source = some target ∧ history.Reaches target tip

theorem worktree_of_head {g : Repo Commit} {tip : Commit} (h : g.head.bind g.tip = some tip) :
    ∃ w, g.worktree = some w ∧ g.tip w.head = some tip := by
  rw [Option.bind_eq_some_iff] at h
  obtain ⟨head, hhead, htip⟩ := h
  rw [Repo.head, Option.map_eq_some_iff] at hhead
  obtain ⟨w, hw, rfl⟩ := hhead
  exact ⟨w, hw, htip⟩

section Plans

variable {history : History Commit} {name : String} {r : SubRepo Commit}

variable {plan : FollowSourcePlan Commit}

theorem headAnchored_of_justified {g : Repo Commit} {commit : Commit}
    (h : plan.Justified history name g) (hpin : plan.isPin = false) (hc : history.FromHead g g.head commit) :
    history.Anchored g commit := by
  obtain ⟨tip, htip, hreach⟩ := hc
  have hbranch {branch : String} (hhead : g.head = some (.branch branch)) : history.Anchored g commit := by
    rw [hhead] at htip
    exact .inl ⟨branch, tip, htip, hreach⟩
  cases plan with
  | skip =>
    obtain ⟨branch, hon⟩ := h
    exact hbranch (Repo.head_of_onBranch hon)
  | pin reason => cases hpin
  | advance target =>
    obtain ⟨w, _, hw, hhead, -⟩ := h
    have hon : g.head = some (.branch name) := by rw [Repo.head, hw, Option.map_some, hhead]
    exact hbranch hon
  | adopt target branchExists =>
    obtain ⟨w, tip', hw, -, htip', hsource, hfrom⟩ := h
    rw [Repo.head, hw, Option.map_some, Option.bind_some, htip'] at htip
    injection htip with htip
    subst htip
    exact .inr ⟨target, hsource, hfrom.trans hreach⟩

theorem carryOut_advances (h : plan.Justified history name r.git) :
    history.Advances r.git (r.carryOut name plan).git := by
  cases plan with
  | skip | pin reason => exact .refl
  | advance target =>
    obtain ⟨w, tip, hw, hhead, -, hbranch, hreach⟩ := h
    refine Reply.run_keeps (P := history.Advances r.git) r.replies.follow.move .refl fun g hrun => ?_
    rw [Repo.resetHard, hw, Option.map_some, hhead] at hrun
    injection hrun with hrun
    rw [← hrun]
    exact .move hbranch hreach
  | adopt target branchExists =>
    refine Reply.run_keeps (P := history.Advances r.git) r.replies.follow.move .refl fun g hrun => ?_
    obtain ⟨w, -, head, g', hout, heq⟩ := Repo.checkout_some hrun
    have hadvances : history.Advances r.git g' := by
      refine .of_checkedOut hout fun branch => ?_
      cases branchExists <;> rfl
    rw [heq]
    exact hadvances

theorem carryOut_modified {w : Worktree Commit}
    (h : plan.Justified history name r.git) (hw : r.git.worktree = some w) (hmodified : w.modified = true) :
    r.carryOut name plan = r := by
  cases plan with
  | skip => rfl
  | pin reason => rfl
  | advance target =>
    obtain ⟨w', _, hw', -, hclean, -⟩ := h
    rw [hw] at hw'
    injection hw' with hw'
    rw [← hw', hmodified] at hclean
    cases hclean
  | adopt target branchExists =>
    obtain ⟨w', _, hw', hclean, -⟩ := h
    rw [hw] at hw'
    injection hw' with hw'
    rw [← hw', hmodified] at hclean
    cases hclean

variable [DecidableEq Commit]

theorem planFrom_justified {onBranch : Bool} {target wsHead : Commit}
    (htarget : r.git.tip r.git.source = some target) (hhead : r.git.head.bind r.git.tip = some wsHead)
    (hon : onBranch = true → r.git.head = some (.branch name)) :
    (r.planFrom history name onBranch target wsHead).Justified history name r.git := by
  obtain ⟨w, hw, hwtip⟩ := worktree_of_head hhead
  have hwhead : r.git.head = some w.head := by
    rw [Repo.head, hw]
    rfl
  unfold SubRepo.planFrom
  split
  · rename_i hskip
    refine ⟨name, ?_⟩
    rw [Repo.onBranch, hon hskip.2]
  · split
    · trivial
    · trivial
    · rename_i hstatus
      have hmodified : w.modified = false := by
        have hanswer := probe_ok hstatus
        rw [hw] at hanswer
        injection hanswer
      split
      · trivial
      · rename_i hguard
        -- the HEAD is the commit of the source, or an ancestor of it
        have hreach : history.Reaches target wsHead := by
          by_cases heq : wsHead = target
          · rw [heq]
            exact .refl
          · simp only [ne_eq, heq, not_false_eq_true, true_and, Bool.not_eq_false, Bool.and_eq_true] at hguard
            exact (history.isAncestor_iff wsHead target).mp hguard.2
        split
        · rename_i hbranch
          have hname := hon hbranch
          rw [hwhead] at hname
          injection hname with hname
          rw [hname] at hwtip
          exact ⟨w, wsHead, hw, hname, hmodified, hwtip, hreach⟩
        · unfold SubRepo.adoptPlan
          split
          · split
            · trivial
            · exact ⟨w, wsHead, hw, hmodified, hwtip, htarget, hreach⟩
          · exact ⟨w, wsHead, hw, hmodified, hwtip, htarget, hreach⟩

theorem followPlan_justified (history : History Commit) (name : String) (r : SubRepo Commit) :
    (r.followPlan history name).Justified history name r.git := by
  unfold SubRepo.followPlan
  dsimp only
  split
  · rename_i hother
    obtain ⟨branch, hbranch⟩ := Option.isSome_iff_exists.mp hother.1
    exact ⟨branch, onBranch_of_symbolicRef hbranch⟩
  · rename_i hown
    split
    · trivial
    · rename_i htarget
      split
      · trivial
      · rename_i hwsHead
        refine planFrom_justified (probe_ok htarget) (probe_ok hwsHead) fun hon => ?_
        obtain ⟨branch, hbranch⟩ := Option.isSome_iff_exists.mp hon
        have hname : branch = name := by
          by_contra hne
          refine hown ⟨hon, ?_⟩
          rw [hbranch]
          exact fun h => hne (Option.some.inj h)
        subst hname
        exact Repo.head_of_onBranch (onBranch_of_symbolicRef hbranch)

end Plans

def PinnedAt (history : History Commit) [DecidableEq Commit] (name : String) (before after : SubRepo Commit)
    (commit : Commit) : Prop :=
  (before.followPlan history name).isPin = true ∧ after = before ∧
    ∃ tip, before.git.head = some (.detached tip) ∧ history.Reaches tip commit

theorem anchored_or_pinned [DecidableEq Commit] (history : History Commit) (name : String) (r : SubRepo Commit)
    {commit : Commit} (h : history.OnBranch r.git commit ∨ history.FromHead r.git r.git.head commit) :
    history.Anchored r.git commit ∨ PinnedAt history name r r commit := by
  rcases h with hbranch | hhead
  · exact .inl (.inl hbranch)
  · cases hpin : (r.followPlan history name).isPin with
    | false => exact .inl (headAnchored_of_justified (followPlan_justified history name r) hpin hhead)
    | true =>
      obtain ⟨tip, htip, hreach⟩ := hhead
      rw [Option.bind_eq_some_iff] at htip
      obtain ⟨head, hhead, htip⟩ := htip
      cases head with
      | branch branch => exact .inl (.inl ⟨branch, tip, htip, hreach⟩)
      | detached c =>
        injection htip with htip
        subst htip
        exact .inr ⟨hpin, rfl, c, hhead, hreach⟩

theorem followSourceHeadOnReuse_loses_nothing [DecidableEq Commit] (history : History Commit) (name : String)
    (repos : List (SubRepo Commit)) :
    List.Forall₂ (fun before after : SubRepo Commit =>
        (∀ commit, history.OnBranch before.git commit ∨ history.FromHead before.git before.git.head commit →
          history.Anchored after.git commit ∨ PinnedAt history name before after commit) ∧
        (∀ w, before.git.worktree = some w → w.modified = true → after = before))
      repos (followSourceHeadOnReuse history name repos) ∧
    ((∃ r ∈ repos, (r.followPlan history name).isPin = true) →
      followSourceHeadOnReuse history name repos = repos) := by
  cases hany : repos.any fun r => (r.followPlan history name).isPin with
  | true =>
    have hsame : followSourceHeadOnReuse history name repos = repos := by
      rw [followSourceHeadOnReuse, hany, if_pos rfl]
    refine ⟨?_, fun _ => hsame⟩
    rw [hsame, List.forall₂_same]
    exact fun r _ => ⟨fun commit => anchored_or_pinned history name r, fun _ _ _ => rfl⟩
  | false =>
    have hnone : ∀ r ∈ repos, (r.followPlan history name).isPin = false := by simpa using hany
    have hmoved : followSourceHeadOnReuse history name repos =
        repos.map fun r => r.carryOut name (r.followPlan history name) := by
      rw [followSourceHeadOnReuse, hany]
      rfl
    constructor
    · rw [hmoved, List.forall₂_map_right_iff, List.forall₂_same]
      intro r hr
      have hjustified := followPlan_justified history name r
      refine ⟨fun commit hcommit => .inl ?_, fun w hw => carryOut_modified hjustified hw⟩
      refine (carryOut_advances hjustified).anchored ?_
      rcases anchored_or_pinned history name r hcommit with hanchored | hpinned
      · exact hanchored
      · rw [PinnedAt, hnone r hr] at hpinned
        cases hpinned.1
    · rintro ⟨r, hr, hpin⟩
      rw [hnone r hr] at hpin
      cases hpin

def linear : History Nat where
  parents commit := match commit with
    | 0 => []
    | n + 1 => [n]
  isAncestor ref target := decide (ref ≤ target)
  isAncestor_iff ref target := by
    rw [decide_eq_true_iff]
    constructor
    · intro h
      induction target with
      | zero =>
        rw [Nat.le_zero.mp h]
      | succ n ih =>
        rcases Nat.lt_or_eq_of_le h with hlt | heq
        · exact .head (List.mem_singleton.mpr rfl) (ih (Nat.le_of_lt_succ hlt))
        · rw [heq]
    · intro h
      induction h with
      | refl => exact Nat.le_refl _
      | @tail child parent _ hedge ih =>
        cases child with
        | zero => cases hedge
        | succ n =>
          rw [List.mem_singleton.mp hedge]
          exact Nat.le_trans (Nat.le_succ n) ih

def ahead : SubRepo Nat where
  directory := ""
  git := {
    branches := fun name => if name = "main" then some 1 else none
    source := .branch "main"
    worktree := some { head := .detached 2 } }

theorem followSourceHeadOnReuse_pinned_detached : ¬ ∀ repos : List (SubRepo Nat),
    List.Forall₂ (fun before after : SubRepo Nat => ∀ commit,
      linear.OnBranch before.git commit ∨ linear.FromHead before.git before.git.head commit →
        linear.Anchored after.git commit) repos (followSourceHeadOnReuse linear "w1" repos) := by
  intro h
  have hforall := h [ahead]
  rw [show followSourceHeadOnReuse linear "w1" [ahead] = [ahead] from rfl, List.forall₂_same] at hforall
  have hmain : ∀ name tip, ahead.git.branches name = some tip → tip = 1 := by
    intro name tip hbranch
    dsimp only [ahead] at hbranch
    split at hbranch
    · injection hbranch with hbranch
      exact hbranch.symm
    · cases hbranch
  have hunreached : ¬ linear.Reaches 1 2 := fun hreach =>
    absurd ((linear.isAncestor_iff 2 1).mpr hreach) (by decide)
  rcases hforall ahead (List.mem_singleton.mpr rfl) 2 (.inr ⟨2, rfl, .refl⟩) with
    ⟨name, tip, hbranch, hreach⟩ | ⟨tip, htip, hreach⟩
  · rw [hmain name tip hbranch] at hreach
    exact hunreached hreach
  · rw [hmain "main" tip htip] at hreach
    exact hunreached hreach

end A2Wave.Workspaces
