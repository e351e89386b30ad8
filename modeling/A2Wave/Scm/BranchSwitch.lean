import A2Wave.Scm.SubRepos
import Mathlib.Data.List.Forall2

/-! `switchBranchOnReuse` of `lib/git-workspace.ts`: all sub-repositories of a workspace are checked first, then
switched in turn; where a checkout fails, those before it go back to the refs recorded for them. -/

namespace A2Wave.Workspaces

open Refs

variable {Commit : Type}

inductive SwitchError
  | dirty (wsPath : String) (directory : Option String)
  | locked (branch lockedBy : String)
  | git (e : GitError)
  deriving DecidableEq

def SwitchError.message : SwitchError → String
  | .dirty wsPath (some directory) => "Workspace '" ++ wsPath ++ "' sub-repo '" ++ directory ++
    "' has uncommitted changes; cannot switch branch"
  | .dirty wsPath none => "Workspace '" ++ wsPath ++ "' has uncommitted changes; cannot switch branch"
  | .locked branch lockedBy => "Branch '" ++ branch ++ "' is already checked out in worktree '" ++ lockedBy ++ "'"
  | .git e => e.message

/-- `rethrowIfBranchLocked`, or else the error itself. -/
def SwitchError.ofGit (branch : String) (e : GitError) : SwitchError :=
  match e.lockedBy with
  | some lockedBy => .locked branch lockedBy
  | none => .git e

/-- A sub-repository that the switch has passed, with what `switched` holds of it. -/
structure Visited (Commit : Type) where
  repo : SubRepo Commit
  original : Option (Head Commit)

inductive Stop (Commit : Type)
  | unresolved (e : GitError) (git : Repo Commit)
  | refused (e : GitError) (git : Repo Commit)

def isOn (branch : String) : Option (Head Commit) → Bool
  | some (.branch name) => name == branch
  | _ => false

namespace SubRepo

def wsRepoPath (wsPath : String) (r : SubRepo Commit) : String :=
  if r.directory = "" then normalizePath wsPath else joinPath wsPath r.directory

def preValidate (wsPath branch : String) (r : SubRepo Commit) : Except SwitchError Unit :=
  let replies := r.replies.switch
  if symbolicRef replies.current r.git = some branch then .ok ()
  else match replies.status with
    | .error e => .error (.git e)
    | .ok dirty =>
      if hasText dirty then .error (.dirty wsPath (if r.directory = "" then none else some r.directory))
      else match replies.worktreeList with
        | .error e => .error (.git e)
        | .ok entries => match findBranchLockHolder entries branch (r.wsRepoPath wsPath) with
          | some lockedBy => .error (.locked branch lockedBy)
          | none => .ok ()

def original (r : SubRepo Commit) : Option (Head Commit) :=
  match symbolicRef r.replies.switch.symbolicRef r.git with
  | some name => some (.branch name)
  | none => if r.replies.switch.revParse then (r.git.head.bind r.git.tip).map .detached else none

def switchBase (r : SubRepo Commit) : String :=
  if r.directory = "" then r.baseBranch else r.branch.getD "main"

def checkoutTarget (branch : String) (r : SubRepo Commit) : Except GitError (Target Commit) × Repo Commit :=
  match resolveBranchForCheckout r.replies.switch.resolution branch r.git with
  | (.error e, g) => (.error e, g)
  | (.ok .local, g) => (.ok (.name branch), g)
  | (.ok .remote, g) => (.ok (.reset branch (remoteRef branch)), g)
  | (.ok .new, g) => match resolveBaseRef r.replies.switch.base r.switchBase g with
    | (.error e, g') => (.error e, g')
    | (.ok start, g') => (.ok (.create branch start), g')

def visit (branch : String) (r : SubRepo Commit) : Except (Stop Commit) (Visited Commit) :=
  if isOn branch r.original then .ok ⟨r, none⟩
  else match r.checkoutTarget branch with
    | (.error e, g) => .error (.unresolved e g)
    | (.ok target, g) => match r.replies.switch.checkout.run (Repo.checkout target) g with
      | (.ok _, g') => .ok ⟨r.setGit g', r.original⟩
      | (.error e, g') => .error (.refused e g')

end SubRepo

def Visited.rollBack (v : Visited Commit) : SubRepo Commit :=
  match v.original with
  | none => v.repo
  | some original => v.repo.setGit (v.repo.replies.switch.rollback.run (Repo.restore original) v.repo.git).2

def switchAll (branch : String) : List (Visited Commit) → List (SubRepo Commit) →
    Except SwitchError Unit × List (SubRepo Commit)
  | visited, [] => (.ok (), visited.map (·.repo))
  | visited, r :: rest => match r.visit branch with
    | .ok v => switchAll branch (visited ++ [v]) rest
    | .error (.unresolved e g) => (.error (.git e), visited.map (·.repo) ++ r.setGit g :: rest)
    | .error (.refused e g) => (.error (.ofGit branch e), visited.map (·.rollBack) ++ r.setGit g :: rest)

def preValidateAll (wsPath branch : String) : List (SubRepo Commit) → Except SwitchError Unit
  | [] => .ok ()
  | r :: rest => match r.preValidate wsPath branch with
    | .error e => .error e
    | .ok _ => preValidateAll wsPath branch rest

def switchBranchOnReuse (wsPath : String) (branch : Option String) (repos : List (SubRepo Commit)) :
    Except SwitchError Unit × List (SubRepo Commit) :=
  match branch.filter (· ≠ "") with
  | none => (.ok (), repos)
  | some branch => match preValidateAll wsPath branch repos with
    | .error e => (.error e, repos)
    | .ok _ => switchAll branch [] repos

/-! ### What a failure leaves -/

namespace SubRepo

variable (branch : String) (r : SubRepo Commit)

def Continues : Prop := ∃ v, r.visit branch = .ok v

def Unresolved : Prop := ∃ e g, r.visit branch = .error (.unresolved e g)

def Refused : Prop := ∃ e g, r.visit branch = .error (.refused e g)

def KeepsHead : Prop := ∀ e g, r.visit branch = .error (.refused e g) → g.head = r.git.head

def Stays : Prop := ∀ v, r.visit branch = .ok v → v.repo.git.head = r.git.head

def Recovers : Prop := r.original = r.git.head ∨ r.original = none ∧ r.Stays branch

end SubRepo

def Atomic (branch : String) (repos : List (SubRepo Commit)) : Prop :=
  ∀ before r after, repos = before ++ r :: after → (∀ k ∈ before, k.Continues branch) →
    (r.Unresolved branch → ∀ k ∈ before, k.Stays branch) ∧
    (r.Refused branch → r.KeepsHead branch ∧ ∀ k ∈ before, k.Recovers branch)

def heads (repos : List (SubRepo Commit)) : List (Option (Head Commit)) := repos.map (·.git.head)

variable {branch : String} {r : SubRepo Commit} {v : Visited Commit} {g : Repo Commit} {e : GitError}

theorem original_branch (h : r.original = some (.branch branch)) : r.git.head = some (.branch branch) := by
  unfold SubRepo.original at h
  split at h
  · rename_i name hname
    injection h with h
    injection h with h
    rw [h] at hname
    exact Repo.head_of_onBranch (onBranch_of_symbolicRef hname)
  · split at h
    · cases hcommit : r.git.head.bind r.git.tip with
      | none | some commit => simp [hcommit] at h
    · cases h

theorem original_of_isOn (h : isOn branch r.original = true) : r.original = some (.branch branch) := by
  unfold isOn at h
  split at h
  · rename_i name hname
    rw [hname, of_decide_eq_true h]
  · cases h

theorem checkoutTarget_worktree (branch : String) (r : SubRepo Commit) :
    (r.checkoutTarget branch).2.worktree = r.git.worktree := by
  have hframe := (resolveBranchForCheckout_frame r.replies.switch.resolution branch r.git).2
  unfold SubRepo.checkoutTarget
  split
  · rename_i heq
    rw [heq] at hframe
    exact hframe
  · rename_i heq
    rw [heq] at hframe
    exact hframe
  · rename_i heq
    rw [heq] at hframe
    exact hframe
  · rename_i g heq
    rw [heq] at hframe
    have hbase := (resolveBaseRef_frame r.replies.switch.base r.switchBase g).2
    split
    · rename_i hb
      rw [hb] at hbase
      exact hbase.trans hframe
    · rename_i hb
      rw [hb] at hbase
      exact hbase.trans hframe

theorem visit_ok (h : r.visit branch = .ok v) : (v = ⟨r, none⟩ ∧ r.original = some (.branch branch)) ∨
      (v.original = r.original ∧ v.repo.replies = r.replies ∧
        r.git.worktree.isSome = true ∧ v.repo.git.worktree.isSome = true) := by
  have hworktree := checkoutTarget_worktree branch r
  unfold SubRepo.visit at h
  split at h
  · rename_i hon
    injection h with h
    exact .inl ⟨h.symm, original_of_isOn hon⟩
  · split at h
    · cases h
    · rename_i heq
      rw [heq] at hworktree
      split at h
      · rename_i g' hrun
        injection h with h
        subst h
        have hcheckout := Reply.run_ok hrun
        unfold Repo.checkout at hcheckout
        simp only [Option.bind_eq_some_iff, Option.map_eq_some_iff] at hcheckout
        obtain ⟨w, hw, ⟨head, g''⟩, -, rfl⟩ := hcheckout
        refine .inr ⟨rfl, rfl, ?_, rfl⟩
        rw [← hworktree, hw]
        rfl
      · cases h

theorem visit_unresolved (h : r.visit branch = .error (.unresolved e g)) : g.head = r.git.head := by
  have hworktree := checkoutTarget_worktree branch r
  unfold SubRepo.visit at h
  split at h
  · cases h
  · split at h
    · rename_i heq
      injection h with h
      injection h with _ h
      subst h
      rw [heq] at hworktree
      exact Repo.head_of_worktree hworktree
    · split at h <;> cases h

theorem rollBack_head_iff (hv : r.visit branch = .ok v) (hroll : r.replies.switch.rollback.fails = false) :
    v.rollBack.git.head = r.git.head ↔ r.Recovers branch := by
  have hstays : r.Stays branch ↔ v.repo.git.head = r.git.head := by
    constructor
    · exact fun h => h v hv
    · intro h v' hv'
      rw [hv] at hv'
      injection hv' with hv'
      rw [← hv', h]
  rcases visit_ok hv with ⟨rfl, horiginal⟩ | ⟨horiginal, hreplies, hchecked, hworktree⟩
  · have hhead := original_branch horiginal
    constructor
    · exact fun _ => .inl (horiginal.trans hhead.symm)
    · exact fun _ => rfl
  · unfold SubRepo.Recovers Visited.rollBack
    rw [horiginal, hstays]
    cases ho : r.original with
    | none =>
      constructor
      · exact fun h => .inr ⟨rfl, h⟩
      · rintro (h | ⟨-, h⟩)
        · rw [eq_comm, Repo.head, Option.map_eq_none_iff] at h
          rw [h] at hchecked
          cases hchecked
        · exact h
    | some original =>
      obtain ⟨w, hw⟩ := Option.isSome_iff_exists.mp hworktree
      have hrestored : (v.repo.replies.switch.rollback.run (Repo.restore original) v.repo.git).2.head =
          some original := by
        rw [hreplies]
        simp [Reply.run, Repo.restore, hw, hroll, Repo.head, Repo.setWorktree]
      simp only [SubRepo.setGit_git, hrestored, reduceCtorEq, false_and, or_false]

theorem switchAll_append (visited : List (Visited Commit)) {before : List (SubRepo Commit)}
    (rest : List (SubRepo Commit)) (h : ∀ k ∈ before, k.Continues branch) : ∃ passed : SubRepo Commit → Visited Commit,
    (∀ k ∈ before, k.visit branch = .ok (passed k)) ∧
    switchAll branch visited (before ++ rest) = switchAll branch (visited ++ before.map passed) rest := by
  let passed (k : SubRepo Commit) : Visited Commit :=
    match k.visit branch with
    | .ok v => v
    | .error _ => ⟨k, none⟩
  have hpassed : ∀ k ∈ before, k.visit branch = .ok (passed k) := by
    intro k hk
    obtain ⟨v, hv⟩ := h k hk
    simp only [passed, hv]
  refine ⟨passed, hpassed, ?_⟩
  clear h
  induction before generalizing visited with
  | nil => simp
  | cons k before ih =>
    have hk := hpassed k (List.mem_cons_self ..)
    rw [List.cons_append, switchAll, hk]
    dsimp only
    rw [ih _ fun k' hk' => hpassed k' (List.mem_cons_of_mem _ hk'), List.map_cons, List.append_assoc]
    rfl

theorem continues_or_stops (branch : String) (repos : List (SubRepo Commit)) : (∀ k ∈ repos, k.Continues branch) ∨
      ∃ before r after, repos = before ++ r :: after ∧ (∀ k ∈ before, k.Continues branch) ∧
        (r.Unresolved branch ∨ r.Refused branch) := by
  induction repos with
  | nil => exact .inl (List.forall_mem_nil _)
  | cons r rest ih =>
    cases hr : r.visit branch with
    | error stop =>
      refine .inr ⟨[], r, rest, rfl, List.forall_mem_nil _, ?_⟩
      cases stop with
      | unresolved e g => exact .inl ⟨e, g, hr⟩
      | refused e g => exact .inr ⟨e, g, hr⟩
    | ok v =>
      have hcontinues : r.Continues branch := ⟨v, hr⟩
      rcases ih with hall | ⟨before, r', after, heq, hbefore, hstops⟩
      · exact .inl (List.forall_mem_cons.mpr ⟨hcontinues, hall⟩)
      · refine .inr ⟨r :: before, r', after, ?_, List.forall_mem_cons.mpr ⟨hcontinues, hbefore⟩, hstops⟩
        rw [heq, List.cons_append]

theorem heads_eq_iff {before after : List (SubRepo Commit)} {f : SubRepo Commit → SubRepo Commit} :
    heads (before.map f ++ r.setGit g :: after) = heads (before ++ r :: after) ↔
      (∀ k ∈ before, (f k).git.head = k.git.head) ∧ g.head = r.git.head := by
  unfold heads
  rw [List.map_append, List.map_append, List.map_map, List.map_cons, List.map_cons, SubRepo.setGit_git]
  constructor
  · intro h
    obtain ⟨hbefore, hrest⟩ := List.append_inj h (by rw [List.length_map, List.length_map])
    exact ⟨List.map_inj_left.mp hbefore, (List.cons.inj hrest).1⟩
  · rintro ⟨hbefore, hhead⟩
    have hmap : before.map ((fun k => k.git.head) ∘ f) = before.map (·.git.head) := List.map_congr_left hbefore
    rw [hhead, hmap]

theorem preValidateAll_ok {wsPath : String} {repos : List (SubRepo Commit)} :
    preValidateAll wsPath branch repos = .ok () ↔ ∀ r ∈ repos, r.preValidate wsPath branch = .ok () := by
  induction repos with
  | nil => simp [preValidateAll]
  | cons r rest ih =>
    rw [List.forall_mem_cons, ← ih, preValidateAll]
    cases hr : r.preValidate wsPath branch with
    | error e => simp
    | ok _ => simp

section Stops

variable {before after : List (SubRepo Commit)} (hbefore : ∀ k ∈ before, k.Continues branch)
include hbefore

theorem switchAll_unresolved (hr : r.Unresolved branch) : ∃ e repos,
    switchAll branch [] (before ++ r :: after) = (.error e, repos) ∧
      (heads repos = heads (before ++ r :: after) ↔ ∀ k ∈ before, k.Stays branch) := by
  obtain ⟨e, g, hr⟩ := hr
  obtain ⟨passed, hpassed, hswitch⟩ := switchAll_append [] (r :: after) hbefore
  rw [hswitch, switchAll, hr, List.nil_append]
  dsimp only
  refine ⟨_, _, rfl, ?_⟩
  rw [List.map_map, heads_eq_iff]
  constructor
  · rintro ⟨hheads, -⟩ k hk v hv
    rw [hpassed k hk] at hv
    injection hv with hv
    rw [← hv]
    exact hheads k hk
  · exact fun hstays => ⟨fun k hk => hstays k hk _ (hpassed k hk), visit_unresolved hr⟩

theorem switchAll_refused (hroll : ∀ k ∈ before, k.replies.switch.rollback.fails = false)
    (hr : r.Refused branch) : ∃ e repos,
    switchAll branch [] (before ++ r :: after) = (.error e, repos) ∧
      (heads repos = heads (before ++ r :: after) ↔ r.KeepsHead branch ∧ ∀ k ∈ before, k.Recovers branch) := by
  obtain ⟨e, g, hr⟩ := hr
  obtain ⟨passed, hpassed, hswitch⟩ := switchAll_append [] (r :: after) hbefore
  have hkeeps : r.KeepsHead branch ↔ g.head = r.git.head := by
    constructor
    · exact fun h => h e g hr
    · intro h e' g' hr'
      rw [hr] at hr'
      injection hr' with hr'
      injection hr' with _ hr'
      rw [← hr', h]
  have hrecovers : ∀ k ∈ before, ((passed k).rollBack.git.head = k.git.head ↔ k.Recovers branch) :=
    fun k hk => rollBack_head_iff (hpassed k hk) (hroll k hk)
  rw [hswitch, switchAll, hr, List.nil_append]
  dsimp only
  refine ⟨_, _, rfl, ?_⟩
  rw [List.map_map, heads_eq_iff, hkeeps, and_comm]
  exact and_congr_right fun _ => forall₂_congr hrecovers

end Stops

/-- A switch that throws leaves every HEAD where it was, just if it is `Atomic` where it stops. -/
theorem switchBranchOnReuse_restores_iff (wsPath : String) (requested : Option String)
    (repos : List (SubRepo Commit)) (hroll : ∀ r ∈ repos, r.replies.switch.rollback.fails = false) :
    (∀ e repos', switchBranchOnReuse wsPath requested repos = (.error e, repos') → heads repos' = heads repos) ↔
      ∀ branch, requested = some branch → branch ≠ "" →
        (∀ r ∈ repos, r.preValidate wsPath branch = .ok ()) → Atomic branch repos := by
  constructor
  · rintro h branch rfl hne hvalid before r after rfl hbefore
    have hswitch : switchBranchOnReuse wsPath (some branch) (before ++ r :: after) =
        switchAll branch [] (before ++ r :: after) := by
      unfold switchBranchOnReuse
      rw [Option.filter_some, if_pos (decide_eq_true hne)]
      dsimp only
      rw [preValidateAll_ok.mpr hvalid]
    constructor
    · intro hr
      obtain ⟨e, repos', heq, hheads⟩ := switchAll_unresolved hbefore hr
      exact hheads.mp (h e repos' (hswitch.trans heq))
    · intro hr
      obtain ⟨e, repos', heq, hheads⟩ :=
        switchAll_refused hbefore (fun k hk => hroll k (List.mem_append_left _ hk)) hr
      exact hheads.mp (h e repos' (hswitch.trans heq))
  · intro h e repos' heq
    unfold switchBranchOnReuse at heq
    split at heq
    · cases heq
    · rename_i branch hbranch
      obtain ⟨rfl, hne⟩ := Option.filter_eq_some_iff.mp hbranch
      split at heq
      · injection heq with _ heq
        rw [← heq]
      · rename_i hvalid
        have hatomic := h branch rfl (of_decide_eq_true hne) (preValidateAll_ok.mp hvalid)
        rcases continues_or_stops branch repos with hall | ⟨before, r, after, rfl, hbefore, hr | hr⟩
        · obtain ⟨passed, -, hswitch⟩ := switchAll_append [] [] hall
          rw [List.append_nil, heq, switchAll] at hswitch
          cases hswitch
        · obtain ⟨e', repos'', heq', hheads⟩ := switchAll_unresolved hbefore hr
          rw [heq'] at heq
          injection heq with _ heq
          rw [← heq]
          exact hheads.mpr ((hatomic before r after rfl hbefore).1 hr)
        · obtain ⟨e', repos'', heq', hheads⟩ :=
            switchAll_refused hbefore (fun k hk => hroll k (List.mem_append_left _ hk)) hr
          rw [heq'] at heq
          injection heq with _ heq
          rw [← heq]
          exact hheads.mpr ((hatomic before r after rfl hbefore).2 hr)

/-! ### What a switch takes from the branches -/

def KeptBySwitch (branch : String) (before : SubRepo Commit) (g : Repo Commit) : Prop :=
  ∀ name tip, before.git.branches name = some tip → g.branches name = some tip ∨
    name = branch ∧ before.replies.switch.resolution.revParse = false

theorem checkoutTarget_branches (branch : String) (r : SubRepo Commit) :
    (r.checkoutTarget branch).2.branches = r.git.branches ∧
      ∀ target name, (r.checkoutTarget branch).1 = .ok target → target.resets name = true →
        name = branch ∧ (r.replies.switch.resolution.revParse = false ∨ r.git.branches name = none) := by
  have hframe := (resolveBranchForCheckout_frame r.replies.switch.resolution branch r.git).1
  unfold SubRepo.checkoutTarget
  split <;> rename_i g heq <;> rw [heq] at hframe
  · exact ⟨hframe, fun target name h => (nomatch h)⟩
  · refine ⟨hframe, fun target name h hresets => ?_⟩
    cases h
    cases hresets
  · refine ⟨hframe, fun target name h hresets => ?_⟩
    cases h
    have hname : branch = name := of_decide_eq_true hresets
    subst hname
    exact ⟨rfl, missing_of_resolve heq (by decide)⟩
  · have hbase := (resolveBaseRef_frame r.replies.switch.base r.switchBase g).1
    split <;> rename_i heq' <;> rw [heq'] at hbase
    · exact ⟨hbase.trans hframe, fun target name h => (nomatch h)⟩
    · refine ⟨hbase.trans hframe, fun target name h hresets => ?_⟩
      cases h
      cases hresets

def leaves : Except (Stop Commit) (Visited Commit) → Repo Commit
  | .ok v => v.repo.git
  | .error (.unresolved _ g) => g
  | .error (.refused _ g) => g

theorem visit_kept (branch : String) (r : SubRepo Commit) : KeptBySwitch branch r (leaves (r.visit branch)) := by
  obtain ⟨hbranches, hresets⟩ := checkoutTarget_branches branch r
  unfold SubRepo.visit
  split
  · exact fun name tip hname => .inl hname
  · split
    · rename_i g heq
      rw [heq] at hbranches
      exact fun name tip hname => .inl ((congrFun hbranches name).trans hname)
    · rename_i target g heq
      rw [heq] at hbranches hresets
      have hrun : KeptBySwitch branch r (r.replies.switch.checkout.run (Repo.checkout target) g).2 := by
        have hresolved : KeptBySwitch branch r g := fun name tip hname => by
          rw [hbranches]
          exact .inl hname
        refine r.replies.switch.checkout.run_keeps hresolved fun g' hcheckout => ?_
        obtain ⟨w, -, head, g'', hout, rfl⟩ := Repo.checkout_some hcheckout
        intro name tip hname
        have hname' := hname
        rw [← hbranches] at hname'
        rcases (Repo.checkedOut_spec hout).2.2 name tip hname' with hkept | hreset
        · exact .inl hkept
        · obtain ⟨rfl, hread | hmissing⟩ := hresets target name rfl hreset
          · exact .inr ⟨rfl, hread⟩
          · rw [hname] at hmissing
            cases hmissing
      split
      · rename_i heq'
        rw [heq'] at hrun
        exact hrun
      · rename_i heq'
        rw [heq'] at hrun
        exact hrun

theorem rollBack_branches (v : Visited Commit) : v.rollBack.git.branches = v.repo.git.branches := by
  unfold Visited.rollBack
  split
  · rfl
  · rename_i original _
    refine Reply.run_keeps (P := fun g => g.branches = v.repo.git.branches)
      v.repo.replies.switch.rollback rfl fun g hrestored => ?_
    rw [Repo.restore, Option.map_eq_some_iff] at hrestored
    obtain ⟨w, -, rfl⟩ := hrestored
    rfl

theorem switchAll_kept {before repos : List (SubRepo Commit)} {visited : List (Visited Commit)}
    (h : List.Forall₂ (fun r v => KeptBySwitch branch r v.repo.git) before visited) :
    List.Forall₂ (fun r after => KeptBySwitch branch r after.git) (before ++ repos)
      (switchAll branch visited repos).2 := by
  have hunchanged (rest : List (SubRepo Commit)) :
      List.Forall₂ (fun r after => KeptBySwitch branch r after.git) rest rest :=
    List.forall₂_same.mpr fun r _ name tip hname => .inl hname
  induction repos generalizing before visited with
  | nil =>
    rw [List.append_nil, switchAll]
    exact List.forall₂_map_right_iff.mpr h
  | cons r rest ih =>
    have hr := visit_kept branch r
    unfold switchAll
    split <;> rename_i heq <;> rw [heq] at hr
    · rw [List.append_cons before r rest]
      exact ih (List.rel_append h (.cons hr .nil))
    · refine List.rel_append ?_ (.cons hr (hunchanged rest))
      exact List.forall₂_map_right_iff.mpr h
    · refine List.rel_append ?_ (.cons hr (hunchanged rest))
      refine List.forall₂_map_right_iff.mpr (h.imp fun r v hv name tip hname => ?_)
      rw [rollBack_branches]
      exact hv name tip hname

theorem switchBranchOnReuse_kept (wsPath branch : String) (repos : List (SubRepo Commit)) :
    List.Forall₂ (fun r after => KeptBySwitch branch r after.git) repos
      (switchBranchOnReuse wsPath (some branch) repos).2 := by
  have hunchanged : List.Forall₂ (fun r after => KeptBySwitch branch r after.git) repos repos :=
    List.forall₂_same.mpr fun r _ name tip hname => .inl hname
  unfold switchBranchOnReuse
  split
  · exact hunchanged
  · rename_i branch' hbranch
    obtain ⟨hbranch, -⟩ := Option.filter_eq_some_iff.mp hbranch
    cases hbranch
    split
    · exact hunchanged
    · rw [← List.nil_append repos]
      exact switchAll_kept .nil

/-- Two repositories on `feature-a`; the remote of the second cannot be reached. -/
def unreachableRemote : List (SubRepo Nat) :=
  let onFeatureA : Repo Nat :=
    { branches := fun name => if name = "feature-a" then some 1 else none
      source := .branch "main"
      worktree := some { head := .branch "feature-a" } }
  let lsRemote : Except GitError Unit := .error { message := "Could not resolve host", code := 128 }
  [{ directory := "api", git := onFeatureA.setBranch "feature-b" (some 2) },
   { directory := "web", git := onFeatureA, replies := { switch := { resolution := { lsRemote := lsRemote } } } }]

theorem unreachableRemote_not_atomic : ¬ Atomic "feature-b" unreachableRemote := by
  intro hatomic
  have hroll : ∀ r ∈ unreachableRemote, r.replies.switch.rollback.fails = false := by decide
  have hrestores := (switchBranchOnReuse_restores_iff "/srv/workspaces/w1" (some "feature-b")
    unreachableRemote hroll).mpr fun branch hbranch _ _ => by
      injection hbranch with hbranch
      rw [← hbranch]
      exact hatomic
  exact absurd (hrestores _ _ rfl) (by decide)

theorem switchBranchOnReuse_half_switched : ¬ ∀ (repos repos' : List (SubRepo Nat)) (e : SwitchError),
    (∀ r ∈ repos, r.replies.switch.rollback.fails = false) →
    switchBranchOnReuse "/srv/workspaces/w1" (some "feature-b") repos = (.error e, repos') →
    heads repos' = heads repos := by
  intro h
  have hheads := h unreachableRemote _ _ (by decide) rfl
  revert hheads
  decide

end A2Wave.Workspaces
