import A2Wave.Scm.AttemptToken

/-! Worktree removals of a process that has lost its heartbeat ownership.  A guarded removal asks for
the ownership once, before its reservation; a reconciling pass asks only before it judges the owners
that are named. -/

namespace A2Wave.Reconciler

open Transition

def Pass.goesOn (pass : Pass) : Bool := pass.rest.any pass.adoptable

def Task.mayStart : Task → Bool
  | removal _ .reserve | removal _ (.recheck _) => true
  | removal r (.removing attempt) => r.ownedWorkload.isSome && attempt < Exclusion.maxAttempts
  | reconcile (.load _) | reconcile (.adopt _ _ _) | reconcile (.blocker _ _ _)
  | reconcile (.locate _ _ _) => true
  | reconcile (.scan pass) | reconcile (.removing _ _ pass) | reconcile (.release _ _ _ pass)
  | reconcile (.handOff _ _ pass) => pass.goesOn
  | _ => false

/-- A process loses its ownership only while none of its calls can start a removal any more, and a
pass on a process that has lost it finds no mark without a named owner. -/
def fences (s : State) : Pool.Event Thread Choice → Bool
  | .spawn _ => true
  | .act i _ => s.threads[i]?.all fun t => match t.task with
    | .loseOwnership => s.threads.all fun u => u.process ≠ t.process || !u.task.mayStart
    | .reconcile .list => t.process ∉ s.shared.fenced ||
      s.shared.world.db.scmWorkspaceRemovals.rows.all fun row => (namedOwner row).isSome
    | _ => true

section Quiet

variable {defaultWorkspacesPath : String → String} {host : Host} {heartbeats : Table InstanceHeartbeat}
  {db db' : Db}

theorem Pass.goesOn_cons {pass : Pass} {candidate : ScmWorkspaceRemoval}
    {rest : List ScmWorkspaceRemoval} (hrest : pass.rest = candidate :: rest)
    (h : pass.goesOn = false) :
    pass.adoptable candidate = false ∧ ({ pass with rest := rest } : Pass).goesOn = false := by
  unfold Pass.goesOn at h
  rw [hrest, List.any_cons, Bool.or_eq_false_iff] at h
  exact h

theorem Task.goesOn_of_attempt {phase : Phase} {candidate : ScmWorkspaceRemoval} {token : String}
    {pass : Pass} (hattempt : phase.attempt = some (candidate, token, pass))
    (hquiet : (Task.reconcile phase).mayStart = false) : pass.goesOn = false := by
  cases phase <;> cases hattempt <;> first | exact hquiet | cases hquiet

theorem actRemoval_quiet {c : Exclusion.Choice} {r : GuardedRemoval}
    {phase phase' : Exclusion.RemovalPhase}
    (h : Exclusion.actRemoval defaultWorkspacesPath host c db r phase = some (db', phase'))
    (hlost : host.hasLostHeartbeatOwnership = true)
    (hquiet : (Task.removal r phase).mayStart = false) :
    (Task.removal r phase').mayStart = false ∧ (Task.removal r phase').removing = none := by
  cases Exclusion.actRemoval_step h with
  | begins howned =>
    rw [hlost] at howned
    cases howned
  | @removalFails attempt phase' hphase' =>
    -- an owner that has spent its attempts hands the mark off
    have hlast : Exclusion.afterFailure r attempt false = .handOff := by
      unfold Exclusion.afterFailure
      cases hown : r.ownedWorkload with
      | none => rfl
      | some w =>
        simp only [Task.mayStart, hown, Option.isSome_some, Bool.true_and] at hquiet
        exact if_neg (by simpa using hquiet)
    rw [hphase', hlast]
    exact ⟨rfl, rfl⟩
  | retries hphase => rcases hphase with rfl | rfl <;> exact ⟨rfl, rfl⟩
  | refuses | removes | releases | handsOff => exact ⟨rfl, rfl⟩
  | aborts | reserves | checks | checkFails => cases hquiet

theorem reconcile_quiet {c : Choice} {phase phase' : Phase}
    (h : reconcileAbandonedWorkspaceRemovals defaultWorkspacesPath host heartbeats c db phase = some (db', phase'))
    (hlost : host.hasLostHeartbeatOwnership = true)
    (hquiet : (Task.reconcile phase).mayStart = false)
    (hnamed : phase = .list → ∀ row ∈ db.scmWorkspaceRemovals.rows, (namedOwner row).isSome = true) :
    (Task.reconcile phase').mayStart = false ∧ (Task.reconcile phase').removing = none := by
  cases reconcile_step h with
  | judges howned =>
    rw [hlost] at howned
    cases howned
  | lists =>
    -- the peers are not judged, and every mark has an owner
    refine ⟨List.any_eq_false.mpr fun row hrow => ?_, rfl⟩
    obtain ⟨owner, howner⟩ := Option.isSome_iff_exists.mp (hnamed rfl row hrow)
    simp [Pass.adoptable, howner]
  | selects hrest hadoptable =>
    rw [(Pass.goesOn_cons hrest hquiet).1] at hadoptable
    cases hadoptable
  | skips hrest => exact ⟨(Pass.goesOn_cons hrest hquiet).2, rfl⟩
  | removes | releases | handsOff => exact ⟨hquiet, rfl⟩
  | givesUp hattempt hpass =>
    refine ⟨?_, rfl⟩
    have hgoesOn := Task.goesOn_of_attempt hattempt hquiet
    rcases hpass with rfl | rfl <;> exact hgoesOn
  | listFails | idles | loadFails | ends => exact ⟨rfl, rfl⟩
  | loads | adopts | loses | unblocked | obsolete | locates | gone => cases hquiet

theorem actTask_quiet {s : Shared} {t : Thread} {c : Choice} {world : Capacity.World} {task' : Task}
    (h : actTask defaultWorkspacesPath s t c = some (world, task'))
    (hfenced : t.process ∈ s.fenced) (hquiet : t.task.mayStart = false)
    (hnamed : t.task = .reconcile .list →
      ∀ row ∈ s.world.db.scmWorkspaceRemovals.rows, (namedOwner row).isSome = true) :
    task'.mayStart = false ∧ task'.removing = none := by
  cases actTask_step h with
  | removal htask _ hr' hact =>
    rw [htask] at hquiet
    refine actRemoval_quiet hact (by simp [Capacity.Process.at, momentAt, hfenced]) ?_
    rw [hr']
    split
    · rename_i hstart
      rw [hstart]
      rfl
    · exact hquiet
  | reconcile htask _ hact =>
    rw [htask] at hquiet hnamed
    exact reconcile_quiet hact (by simp [Capacity.Process.at, momentAt, hfenced]) hquiet
      (fun hlist => hnamed (by rw [hlist]))
  | queue | resolveDefault | releaseSource => exact ⟨rfl, rfl⟩

end Quiet

structure FenceInv (s : State) : Prop where
  quiet : ∀ t ∈ s.threads, t.process ∈ s.shared.fenced → t.task.mayStart = false
  started : ∀ a ∈ s.shared.started, a.fenced = false

section Steps

variable {defaultWorkspacesPath : String → String} {s s' : State} {e : Pool.Event Thread Choice}

theorem starts_mayStart {sh : Shared} {task : Task}
    (h : starts defaultWorkspacesPath sh task = true) : task.mayStart = false := by
  cases task with
  | removal r phase =>
    rw [(starts_phase h).1 r phase rfl]
    rfl
  | reconcile phase =>
    rw [(starts_phase h).2 phase rfl]
    rfl
  | _ => rfl

theorem fenceInv_step (h : FenceInv s) (hok : fences s e = true)
    (hs : Pool.step (system defaultWorkspacesPath) s e = some s') : FenceInv s' := by
  obtain ⟨t, rfl, hstart, rfl⟩ | ⟨i, c, t, sh, t', rfl, hi, hact, rfl⟩ := Pool.step_cases hs
  · refine ⟨fun u hu hfenced => ?_, h.started⟩
    rcases List.mem_append.mp hu with hu | hu
    · exact h.quiet u hu hfenced
    · simp only [system, Bool.and_eq_true] at hstart
      rw [List.mem_singleton.mp hu]
      exact starts_mayStart hstart.1
  simp only [fences, hi, Option.all_some] at hok
  obtain ⟨heartbeats, -, rfl, rfl⟩ | ⟨hlose, rfl, rfl⟩ | ⟨world, htask, ht', rfl, -⟩ := act_cases hact
  · refine ⟨fun u hu hfenced => ?_, h.started⟩
    rcases List.mem_or_eq_of_mem_set hu with hu | rfl
    · exact h.quiet u hu hfenced
    · rfl
  · refine ⟨fun u hu hfenced => ?_, h.started⟩
    rcases List.mem_or_eq_of_mem_set hu with hu | rfl
    · rw [hlose] at hok
      have hidle := List.all_eq_true.mp hok u hu
      rcases List.mem_cons.mp hfenced with hsame | hfenced
      · simpa [hsame] using hidle
      · exact h.quiet u hu hfenced
    · rfl
  · have hprocess : t'.process = t.process := by rw [ht']
    have hstep : t.process ∈ s.shared.fenced → t'.task.mayStart = false ∧ t'.task.removing = none := by
      intro hfenced
      refine actTask_quiet htask hfenced (h.quiet t (List.mem_of_getElem? hi) hfenced) ?_
      intro hlist row hrow
      rw [hlist] at hok
      simp only [hfenced, not_true_eq_false, decide_false, Bool.false_or] at hok
      exact List.all_eq_true.mp hok row hrow
    refine ⟨fun u hu hfenced => ?_, fun a ha => ?_⟩
    · rcases List.mem_or_eq_of_mem_set hu with hu | rfl
      · exact h.quiet u hu hfenced
      · exact (hstep (hprocess ▸ hfenced)).1
    · simp only [Shared.commit] at ha
      split at ha
      · rename_i target token hremoving
        rcases List.mem_cons.mp ha with rfl | ha
        · by_contra hfenced
          have hnone := (hstep (by simpa using hfenced)).2
          rw [hremoving] at hnone
          cases hnone
        · exact h.started a ha
      · exact h.started a ha

end Steps

/-- As long as a process loses its ownership only between its removals, and a pass on a process that
has lost it finds only marks with a named owner, no process starts a removal after the loss. -/
theorem fenced_removes_nothing (defaultWorkspacesPath : String → String) (world : Capacity.World)
    (heartbeats : Table InstanceHeartbeat) (issued : List String) (fenced : List Nat)
    (events : List (Pool.Event Thread Choice)) (s : State)
    (h : Runs (Pool.step (system defaultWorkspacesPath)) (fun s e => fences s e = true)
      ⟨{ world := world, heartbeats := heartbeats, issued := issued, fenced := fenced }, []⟩
      events s) :
    ∀ a ∈ s.shared.started, a.fenced = false := by
  have hinv : FenceInv s := by
    refine h.invariant (I := FenceInv) (fun s e s' hok hI hs => fenceInv_step hI hok hs) ?_
    exact ⟨by simp, by simp⟩
  exact hinv.started

def losesAfterwards : List (Pool.Event Thread Choice) :=
  twoPasses ++ [.act 0 (issuing ""), .act 0 (issuing ""), .act 0 (issuing "token-3"),
    .spawn ⟨0, 2, .loseOwnership⟩, .act 2 (issuing ""),
    .spawn ⟨0, 3, .reconcile .list⟩, .act 3 (issuing "")]

theorem fenced_removes_nothing_afterwards : ∃ s,
    Runs (Pool.step (system fun _ => "/srv/worktrees")) (fun s e => fences s e = true)
      ⟨{ world := handedOff }, []⟩ losesAfterwards s ∧
    s.shared.started.length = 1 ∧ s.shared.fenced = [0] ∧
    ∀ a ∈ s.shared.started, a.fenced = false := by
  refine ⟨_, .of_guarded rfl, by decide +kernel, by decide +kernel, ?_⟩
  exact fenced_removes_nothing (fun _ => "/srv/worktrees") handedOff .empty [] [] losesAfterwards _
    (.of_guarded rfl)

theorem fenced_adopts_handedOff : ∃ s, run (Pool.step (system fun _ => "/srv/worktrees")) ⟨{ world := handedOff }, []⟩
      [.spawn ⟨0, 0, .loseOwnership⟩, .act 0 (issuing ""),
        .spawn ⟨0, 1, .reconcile .list⟩, .act 1 (issuing ""), .act 1 (issuing "token-1"),
        .act 1 (issuing ""), .act 1 (issuing ""), .act 1 (issuing "")] = some s ∧
    s.shared.started = [⟨1, ⟨"src_1", "feature"⟩, "token-1", true⟩] :=
  exists_of_run_any (by decide +kernel)

end A2Wave.Reconciler
