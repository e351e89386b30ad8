import Mathlib
import A2Wave.Scm.Reconciler

/-! The attempt tokens of removal reservations: a write under a token that the row no longer has
changes nothing, and a token is used by one call only. -/

namespace A2Wave.Reconciler

open Transition

def Task.carries : Task → Option (RemovalTarget × String)
  | removal r .release | removal r .handOff => some (r.target, r.attemptToken)
  | reconcile (.adopt candidate _ _) => some (candidate.target, candidate.attemptToken)
  | reconcile (.release candidate token _ _) | reconcile (.handOff candidate token _) =>
    some (candidate.target, token)
  | _ => none

def currentToken (db : Db) (target : RemovalTarget) : Option String :=
  (db.scmWorkspaceRemovals.find? target).map (·.attemptToken)

section Stale

variable {host : Host} {heartbeats : Table InstanceHeartbeat} {db : Db} {target : RemovalTarget}
  {token : String}

theorem not_current (h : currentToken db target ≠ some token) (row : ScmWorkspaceRemoval)
    (hrow : row ∈ db.scmWorkspaceRemovals.rows) :
    (row.target = target && row.attemptToken = token) = false := by
  by_contra hmatch
  simp only [Bool.not_eq_false, Bool.and_eq_true, decide_eq_true_eq] at hmatch
  have hfind : db.scmWorkspaceRemovals.find? target = some row :=
    Table.find?_eq_some_iff.mpr ⟨hrow, hmatch.1⟩
  exact h (by rw [currentToken, hfind, Option.map_some, hmatch.2])

theorem releaseReservation_stale (h : currentToken db target ≠ some token) :
    releaseReservation db target token = db := by
  unfold releaseReservation
  rw [Table.deleteWhere_eq_self (not_current h)]

theorem handOffReservation_stale (h : currentToken db target ≠ some token) :
    handOffReservation db target token = db := by
  simp only [handOffReservation]
  rw [Table.updateWhere_eq_self (not_current h)]

theorem adopt_stale {nextToken : String} (h : currentToken db target ≠ some token) :
    adopt host heartbeats db target token nextToken = (false, db) := by
  have hnone : (db.scmWorkspaceRemovals.find? target).filter (·.attemptToken = token) = none := by
    cases hfind : db.scmWorkspaceRemovals.find? target with
    | none => rfl
    | some row =>
      have hne : row.attemptToken ≠ token := by
        intro heq
        exact h (by rw [currentToken, hfind, Option.map_some, heq])
      simp [hne]
  simp only [adopt, hnone]

theorem actRemoval_stale {defaultWorkspacesPath : String → String} {c : Exclusion.Choice} {db' : Db}
    {r : GuardedRemoval} {phase phase' : Exclusion.RemovalPhase}
    (h : Exclusion.actRemoval defaultWorkspacesPath host c db r phase = some (db', phase'))
    (hcarries : (Task.removal r phase).carries = some (target, token))
    (hstale : currentToken db target ≠ some token) : db' = db := by
  cases Exclusion.actRemoval_step h with
  | reserves => cases hcarries
  | releases =>
    cases hcarries
    exact releaseReservation_stale hstale
  | handsOff =>
    cases hcarries
    exact handOffReservation_stale hstale
  | _ => rfl

theorem reconcile_stale {defaultWorkspacesPath : String → String} {c : Choice} {db' : Db}
    {phase phase' : Phase}
    (h : reconcileAbandonedWorkspaceRemovals defaultWorkspacesPath host heartbeats c db phase = some (db', phase'))
    (hcarries : (Task.reconcile phase).carries = some (target, token))
    (hstale : currentToken db target ≠ some token) : db' = db := by
  cases reconcile_step h with
  | adopts hadopt =>
    cases hcarries
    rw [adopt_stale hstale] at hadopt
    cases hadopt
  | releases =>
    cases hcarries
    exact releaseReservation_stale hstale
  | handsOff hdb =>
    cases hcarries
    rcases hdb with rfl | rfl
    · rfl
    · exact handOffReservation_stale hstale
  | _ => rfl

end Stale

def Phase.token : Phase → Option String
  | adopt _ token _ | blocker _ token _ | locate _ token _ | removing _ token _
  | release _ token _ _ | handOff _ token _ => some token
  | list | load _ | scan _ | returned _ | threw => none

theorem Phase.token_of_attempt {phase : Phase} {candidate : ScmWorkspaceRemoval} {token : String}
    {pass : Pass} (h : phase.attempt = some (candidate, token, pass)) : phase.token = some token := by
  cases phase <;> cases h <;> rfl

def Task.token : Task → Option String
  | removal _ .start => none
  | removal r _ => some r.attemptToken
  | reconcile phase => phase.token
  | queue _ | resolveDefault _ _ | setHeartbeats _ | loseOwnership | releaseSource _ | finished => none

section Token

variable {defaultWorkspacesPath : String → String} {s s' : Shared} {t t' : Thread} {c : Choice}

theorem reconcile_token {host : Host} {heartbeats : Table InstanceHeartbeat} {db db' : Db}
    {phase phase' : Phase} {token : String}
    (h : reconcileAbandonedWorkspaceRemovals defaultWorkspacesPath host heartbeats c db phase =
      some (db', phase')) (htoken : phase'.token = some token) :
    phase.token = some token ∨ ((Task.reconcile phase).issues = true ∧ token = c.token) := by
  cases reconcile_step h with
  | selects hrest hadoptable =>
    cases htoken
    exact .inr ⟨by simpa [Task.issues, hrest] using hadoptable, rfl⟩
  | givesUp hattempt =>
    cases htoken
    exact .inl (Phase.token_of_attempt hattempt)
  | adopts | unblocked | obsolete | locates | gone | removes => exact .inl htoken
  | _ => cases htoken

theorem actTask_token {world : Capacity.World} {task' : Task} {token : String}
    (h : actTask defaultWorkspacesPath s t c = some (world, task'))
    (htoken : task'.token = some token) :
    t.task.token = some token ∨ (t.task.issues = true ∧ token = c.token) := by
  cases actTask_step h with
  | @removal r r' phase p db phase' htask hp hr' hact =>
    rw [htask]
    by_cases hstart : phase = .start
    · subst hstart
      right
      refine ⟨rfl, ?_⟩
      cases phase' <;> simp_all [Task.token]
    · left
      cases phase' <;> cases phase <;> simp_all [Task.token]
  | reconcile htask _ hact =>
    rw [htask]
    exact reconcile_token hact htoken
  | queue | resolveDefault | releaseSource => cases htoken

theorem Task.token_of_removing {task : Task} {target : RemovalTarget} {token : String}
    (h : task.removing = some (target, token)) : task.token = some token := by
  cases task with
  | removal r phase | reconcile phase =>
    cases phase <;> cases h
    rfl
  | _ => cases h

structure TokenStep (s : Shared) (t : Thread) (s' : Shared) (t' : Thread) : Prop where
  party : t'.party = t.party
  issued : ∀ token ∈ s.issued, token ∈ s'.issued
  token : ∀ token, t'.task.token = some token → t.task.token = some token ∨ (token ∉ s.issued ∧ token ∈ s'.issued)
  started : ∀ a ∈ s'.started, a ∈ s.started ∨ (a.party = t.party ∧ t'.task.token = some a.attemptToken)

theorem tokenStep (h : act defaultWorkspacesPath s t c = some (s', t')) : TokenStep s t s' t' := by
  obtain ⟨heartbeats, -, rfl, rfl⟩ | ⟨-, rfl, rfl⟩ | ⟨world, hact, ht', rfl, hfresh⟩ := act_cases h
  · exact ⟨rfl, fun _ hi => hi, fun _ ht => (by cases ht), fun _ ha => .inl ha⟩
  · exact ⟨rfl, fun _ hi => hi, fun _ ht => (by cases ht), fun _ ha => .inl ha⟩
  · refine ⟨by rw [ht'], fun token hi => ?_, fun token ht => ?_, fun a ha => ?_⟩
    · simp only [Shared.commit]
      split
      · exact List.mem_cons_of_mem _ hi
      · exact hi
    · rcases actTask_token hact ht with hsame | ⟨hissues, rfl⟩
      · exact .inl hsame
      · exact .inr ⟨hfresh hissues, by simp [Shared.commit, hissues]⟩
    · simp only [Shared.commit] at ha
      split at ha
      · rename_i target token hremoving
        rcases List.mem_cons.mp ha with rfl | ha
        · exact .inr ⟨rfl, Task.token_of_removing hremoving⟩
        · exact .inl ha
      · exact .inl ha

end Token

structure TokenInv (s : State) : Prop where
  parties : ∀ (i : Nat) (t : Thread), s.threads[i]? = some t → t.party = i
  tokens : Pool.Exclusive (fun (sh : Shared) token => token ∈ sh.issued)
    (fun (t : Thread) token => t.task.token = some token) s
  issued : ∀ a ∈ s.shared.started, a.attemptToken ∈ s.shared.issued
  owner : ∀ a ∈ s.shared.started, ∀ t ∈ s.threads, t.task.token = some a.attemptToken → t.party = a.party
  alone : ∀ a ∈ s.shared.started, ∀ b ∈ s.shared.started, a.attemptToken = b.attemptToken → a.party = b.party

section Run

variable {defaultWorkspacesPath : String → String} {s s' : State} {i : Nat} {t t' : Thread}
  {sh : Shared}

theorem starts_token {task : Task} (h : starts defaultWorkspacesPath s.shared task = true) : task.token = none := by
  cases task with
  | removal r phase =>
    rw [(starts_phase h).1 r phase rfl]
    rfl
  | reconcile phase =>
    rw [(starts_phase h).2 phase rfl]
    rfl
  | _ => rfl

theorem TokenInv.spawn (h : TokenInv s) (htoken : t.task.token = none)
    (hparty : t.party = s.threads.length) : TokenInv ⟨s.shared, s.threads ++ [t]⟩ := by
  refine ⟨fun i u hu => ?_, h.tokens.spawn (by simp [htoken]), h.issued, fun a ha u hu hown => ?_, h.alone⟩
  · rw [List.getElem?_append] at hu
    split at hu
    · exact h.parties i u hu
    · rename_i hge
      rw [List.getElem?_singleton] at hu
      split at hu
      · rename_i hzero
        cases hu
        omega
      · cases hu
  · rcases List.mem_append.mp hu with hu | hu
    · exact h.owner a ha u hu hown
    · rw [List.mem_singleton.mp hu, htoken] at hown
      cases hown

theorem TokenInv.owner_of_entry (h : TokenInv s) (hi : s.threads[i]? = some t)
    (hstep : TokenStep s.shared t sh t') {a : Start} (ha : a ∈ s.shared.started)
    (htoken : t'.task.token = some a.attemptToken) : t.party = a.party := by
  rcases hstep.token a.attemptToken htoken with hsame | ⟨hfresh, -⟩
  · exact h.owner a ha t (List.mem_of_getElem? hi) hsame
  · exact absurd (h.issued a ha) hfresh

theorem TokenInv.act (h : TokenInv s) (hi : s.threads[i]? = some t)
    (hstep : TokenStep s.shared t sh t') : TokenInv ⟨sh, s.threads.set i t'⟩ := by
  have hown : ∀ token, t'.task.token = some token → token ∈ sh.issued := by
    intro token htoken
    rcases hstep.token token htoken with hsame | ⟨-, hnew⟩
    · exact hstep.issued token (h.tokens.flagged t (List.mem_of_getElem? hi) token hsame)
    · exact hnew
  have hexclusive : Pool.Exclusive (fun (sh : Shared) token => token ∈ sh.issued)
      (fun (t : Thread) token => t.task.token = some token) ⟨sh, s.threads.set i t'⟩ := by
    refine h.tokens.act hi (fun token htoken => ?_) hown (fun j u token _ hu hk => ?_)
    · rcases hstep.token token htoken with hsame | ⟨hfresh, -⟩
      · exact .inl hsame
      · exact .inr hfresh
    · exact hstep.issued token (h.tokens.flagged u (List.mem_of_getElem? hu) token hk)
  refine ⟨fun j u hu => ?_, hexclusive, fun a ha => ?_, fun a ha u hu hutoken => ?_,
    fun a ha b hb heq => ?_⟩
  · rcases Pool.getElem?_set_cases hu with ⟨rfl, rfl⟩ | ⟨-, hu⟩
    · exact hstep.party.trans (h.parties j t hi)
    · exact h.parties j u hu
  · rcases hstep.started a ha with ha | ⟨-, htoken⟩
    · exact hstep.issued _ (h.issued a ha)
    · exact hown _ htoken
  · obtain ⟨j, hj⟩ := List.mem_iff_getElem?.mp hu
    have hlt : i < (s.threads.set i t').length := by
      rw [List.length_set]
      exact (List.getElem?_eq_some_iff.mp hi).1
    have hi' : (s.threads.set i t')[i]? = some t' := by simp_all
    rcases Pool.getElem?_set_cases hj with ⟨-, rfl⟩ | ⟨hne, hmem⟩
    · rw [hstep.party]
      rcases hstep.started a ha with ha | ⟨hparty, -⟩
      · exact h.owner_of_entry hi hstep ha hutoken
      · exact hparty.symm
    · rcases hstep.started a ha with ha | ⟨-, htoken⟩
      · exact h.owner a ha u (List.mem_of_getElem? hmem) hutoken
      · -- the acting call has the token, so no other call does
        exact absurd hutoken (hexclusive.apart i j t' u (Ne.symm hne) hi' hj _ htoken)
  · rcases hstep.started a ha with ha | ⟨hpa, hta⟩
    · rcases hstep.started b hb with hb | ⟨hpb, htb⟩
      · exact h.alone a ha b hb heq
      · rw [hpb]
        exact (h.owner_of_entry hi hstep ha (by rw [htb, heq])).symm
    · rcases hstep.started b hb with hb | ⟨hpb, -⟩
      · rw [hpa]
        exact h.owner_of_entry hi hstep hb (by rw [hta, heq])
      · rw [hpa, hpb]

end Run

def Task.writes : Task → Option String
  | removal r .reserve => some r.attemptToken
  | reconcile (.adopt _ nextToken _) => some nextToken
  | _ => none

def Fades (db db' : Db) : Prop :=
  ∀ target token, currentToken db' target = some token → currentToken db target = some token

section Current

variable {defaultWorkspacesPath : String → String} {db db' : Db} {s : Shared} {t : Thread}
  {c : Choice} {token : String}

theorem fades_of_removals (h : db'.scmWorkspaceRemovals = db.scmWorkspaceRemovals) : Fades db db' := by
  intro target token hcurrent
  rwa [currentToken, h] at hcurrent

theorem fades_deleteWhere (p : ScmWorkspaceRemoval → Bool) :
    Fades db { db with scmWorkspaceRemovals := db.scmWorkspaceRemovals.deleteWhere p } := by
  intro target token hcurrent
  simp only [currentToken, Table.find?_deleteWhere, Option.map_eq_some_iff, Option.filter_eq_some_iff] at hcurrent
  obtain ⟨row, ⟨hrow, -⟩, htoken⟩ := hcurrent
  rw [currentToken, hrow, Option.map_some, htoken]

theorem fades_handOffReservation (target : RemovalTarget) (token : String) :
    Fades db (handOffReservation db target token) := by
  intro target' token' hcurrent
  simp only [currentToken, handOffReservation, Table.find?_updateWhere, Option.map_map] at hcurrent
  obtain ⟨row, hrow, htoken⟩ := Option.map_eq_some_iff.mp hcurrent
  rw [currentToken, hrow, Option.map_some, ← htoken]
  simp only [Function.comp]
  split <;> rfl

variable {target : RemovalTarget} {host : Host}

theorem currentToken_reserve {r : GuardedRemoval}
    (h : reserveRemoval defaultWorkspacesPath host db r = .ok db')
    (hcurrent : currentToken db' target = some token) :
    currentToken db target = some token ∨ r.attemptToken = token := by
  obtain ⟨-, removals, hins, rfl⟩ := reserveRemoval_ok h
  simp only [currentToken, Table.find?_insert hins] at hcurrent
  split at hcurrent
  · exact .inr (Option.some.inj hcurrent)
  · exact .inl hcurrent

theorem currentToken_adopt {heartbeats : Table InstanceHeartbeat}
    {target target' : RemovalTarget} {expected next : String} {b : Bool}
    (h : adopt host heartbeats db target expected next = (b, db'))
    (hcurrent : currentToken db' target' = some token) :
    currentToken db target' = some token ∨ next = token := by
  unfold adopt at h
  split at h
  · cases h
    exact .inl hcurrent
  split at h
  · cases h
    exact .inl hcurrent
  split at h
  · cases h
    exact .inl hcurrent
  · rename_i removals hcas
    cases h
    obtain ⟨row, -, -, hrow', hother⟩ := Table.cas_some hcas
    by_cases htarget : target' = target
    · right
      subst htarget
      rw [currentToken, hrow', Option.map_some] at hcurrent
      exact Option.some.inj hcurrent
    · left
      rwa [currentToken, hother target' htarget] at hcurrent

theorem currentToken_reconcile {heartbeats : Table InstanceHeartbeat}
    {phase phase' : Phase}
    (h : reconcileAbandonedWorkspaceRemovals defaultWorkspacesPath host heartbeats c db phase = some (db', phase'))
    (hcurrent : currentToken db' target = some token) :
    currentToken db target = some token ∨ (Task.reconcile phase).writes = some token := by
  cases reconcile_step h with
  | adopts hadopt => exact (currentToken_adopt hadopt hcurrent).imp_right (congrArg some)
  | releases => exact .inl (fades_deleteWhere _ target token hcurrent)
  | handsOff hdb =>
    rcases hdb with rfl | rfl
    · exact .inl hcurrent
    · exact .inl (fades_handOffReservation _ _ target token hcurrent)
  | _ => exact .inl hcurrent

variable {world : Capacity.World}

theorem currentToken_actTask {task' : Task}
    (h : actTask defaultWorkspacesPath s t c = some (world, task'))
    (hcurrent : currentToken world.db target = some token) :
    currentToken s.world.db target = some token ∨ t.task.writes = some token := by
  cases actTask_step h with
  | removal htask _ hr' hact =>
    rw [htask]
    obtain ⟨rfl, hres⟩ | ⟨rfl, -⟩ | ⟨-, rfl | rfl⟩ := Exclusion.actRemoval_cases hact
    · cases hr'
      exact (currentToken_reserve hres hcurrent).imp_right (congrArg some)
    · exact .inl hcurrent
    · exact .inl (fades_deleteWhere _ target token hcurrent)
    · exact .inl (fades_handOffReservation _ _ target token hcurrent)
  | reconcile htask _ hact =>
    rw [htask]
    exact currentToken_reconcile hact hcurrent
  | queue _ hact =>
    obtain ⟨p, p', -, htask', -, -, -⟩ := Capacity.act_cases hact
    exact .inl (fades_of_removals (Occupancy.sameScm_actTask htask').1 target token hcurrent)
  | resolveDefault _ hact =>
    obtain rfl | ⟨wsPath, attempt, -, -, rfl⟩ := actDefault_cases hact
    · exact .inl hcurrent
    · exact .inl (fades_of_removals (Occupancy.sameScm_setWorkDir _ _ _).1 target token hcurrent)
  | releaseSource => exact .inl (fades_deleteWhere _ target token hcurrent)

theorem actRemoval_reserve {choice : Exclusion.Choice} {r : GuardedRemoval}
    {phase : Exclusion.RemovalPhase}
    (h : Exclusion.actRemoval defaultWorkspacesPath host choice db r phase = some (db', .reserve)) :
    phase = .start := by
  have hafter : ∀ attempt blocked, .reserve ≠ Exclusion.afterFailure r attempt blocked := by
    intro attempt blocked heq
    rcases Exclusion.afterFailure_cases r attempt blocked with hf | hf | hf <;>
      rw [hf] at heq <;> cases heq
  cases Exclusion.actRemoval_step h with
  | begins => rfl
  | checkFails heq | removalFails heq => exact absurd heq (hafter _ _)
  | retries hphase => rcases hphase with hphase | hphase <;> cases hphase

theorem actTask_writes {task' : Task}
    (h : actTask defaultWorkspacesPath s t c = some (world, task'))
    (hwrites : task'.writes = some token) : t.task.issues = true ∧ token = c.token := by
  cases actTask_step h with
  | @removal r r' phase p db phase' htask hp hr' hact =>
    cases phase' with
    | reserve =>
      cases actRemoval_reserve hact
      cases hr'
      cases hwrites
      rw [htask]
      exact ⟨rfl, rfl⟩
    | _ => cases hwrites
  | @reconcile phase p db phase' htask hp hact =>
    cases phase' with
    | adopt candidate next pass =>
      cases reconcile_step hact with
      | selects hrest hadoptable =>
        cases hwrites
        rw [htask]
        exact ⟨by simpa [Task.issues, hrest] using hadoptable, rfl⟩
    | _ => cases hwrites
  | queue | resolveDefault | releaseSource => cases hwrites

theorem Task.token_of_writes {task : Task} (h : task.writes = some token) : task.token = some token := by
  cases task with
  | removal r phase | reconcile phase =>
    cases phase <;> cases h
    rfl
  | _ => cases h

theorem actTask_stale {task' : Task}
    (h : actTask defaultWorkspacesPath s t c = some (world, task'))
    (hcarries : t.task.carries = some (target, token))
    (hstale : currentToken s.world.db target ≠ some token) : world.db = s.world.db := by
  cases actTask_step h with
  | @removal r r' phase p db phase' hkind hp hr' hremoval =>
    rw [hkind] at hcarries
    refine actRemoval_stale hremoval ?_ hstale
    rw [hr']
    split
    · rename_i hstart
      rw [hstart] at hcarries
      cases hcarries
    · exact hcarries
  | reconcile hkind _ hreconcile =>
    rw [hkind] at hcarries
    exact reconcile_stale hreconcile hcarries hstale
  | queue hkind | resolveDefault hkind | releaseSource hkind =>
    rw [hkind] at hcarries
    cases hcarries

end Current

structure Retired (token : String) (s : State) : Prop where
  issued : token ∈ s.shared.issued
  notCurrent : ∀ target, currentToken s.shared.world.db target ≠ some token
  notWritten : ∀ t ∈ s.threads, t.task.writes ≠ some token

section History

variable {defaultWorkspacesPath : String → String} {s s' : State} {e : Pool.Event Thread Choice}

theorem retired_step {token : String} (h : Retired token s)
    (hs : Pool.step (system defaultWorkspacesPath) s e = some s') : Retired token s' := by
  obtain ⟨t, rfl, hstart, rfl⟩ | ⟨i, c, t, sh, t', rfl, hi, hact, rfl⟩ := Pool.step_cases hs
  · refine ⟨h.issued, h.notCurrent, fun u hu => ?_⟩
    rcases List.mem_append.mp hu with hu | hu
    · exact h.notWritten u hu
    · intro hwrites
      simp only [system, Bool.and_eq_true] at hstart
      rw [List.mem_singleton.mp hu] at hwrites
      have htoken := Task.token_of_writes hwrites
      rw [starts_token hstart.1] at htoken
      cases htoken
  · refine ⟨(tokenStep hact).issued token h.issued, ?_, fun u hu => ?_⟩
    · intro target hcurrent
      obtain ⟨heartbeats, -, -, rfl⟩ | ⟨-, -, rfl⟩ | ⟨world, htask, -, rfl, -⟩ := act_cases hact
      · exact h.notCurrent target hcurrent
      · exact h.notCurrent target hcurrent
      · rcases currentToken_actTask htask hcurrent with hbefore | hwrites
        · exact h.notCurrent target hbefore
        · exact h.notWritten t (List.mem_of_getElem? hi) hwrites
    · rcases List.mem_or_eq_of_mem_set hu with hu | rfl
      · exact h.notWritten u hu
      · intro hwrites
        obtain ⟨heartbeats, -, rfl, -⟩ | ⟨-, rfl, -⟩ | ⟨world, htask, -, -, hfresh⟩ := act_cases hact
        · cases hwrites
        · cases hwrites
        · obtain ⟨hissues, rfl⟩ := actTask_writes htask hwrites
          exact hfresh hissues h.issued

theorem tokenInv_step (h : TokenInv s)
    (hs : Pool.step (system defaultWorkspacesPath) s e = some s') : TokenInv s' := by
  obtain ⟨t, rfl, hstart, rfl⟩ | ⟨i, c, t, sh, t', rfl, hi, hact, rfl⟩ := Pool.step_cases hs
  · simp only [system, Bool.and_eq_true, decide_eq_true_eq] at hstart
    exact h.spawn (starts_token hstart.1) hstart.2
  · exact h.act hi (tokenStep hact)

theorem stale_step {i : Nat} {c : Choice} {t : Thread} {target : RemovalTarget} {token : String}
    (hi : s.threads[i]? = some t) (hcarries : t.task.carries = some (target, token))
    (hstale : currentToken s.shared.world.db target ≠ some token)
    (hs : Pool.step (system defaultWorkspacesPath) s (.act i c) = some s') :
    s'.shared.world.db = s.shared.world.db := by
  obtain ⟨u, hu, hmap⟩ := Option.bind_eq_some_iff.mp hs
  obtain ⟨⟨sh, t'⟩, hact, rfl⟩ := Option.map_eq_some_iff.mp hmap
  rw [hi] at hu
  cases hu
  obtain ⟨heartbeats, -, -, rfl⟩ | ⟨-, -, rfl⟩ | ⟨world, htask, -, rfl, -⟩ := act_cases hact
  · rfl
  · rfl
  exact actTask_stale htask hcarries hstale

end History

/-- In every interleaving, a write under a token that is not the current one of its row changes
nothing; a token that is no longer current does not become so again; and a token under which a file
system removal was started was used for that by one call only. -/
theorem attempt_tokens_safe (defaultWorkspacesPath : String → String) (world : Capacity.World)
    (heartbeats : Table InstanceHeartbeat) (issued : List String)
    (events : List (Pool.Event Thread Choice)) (s : State)
    (h : run (Pool.step (system defaultWorkspacesPath))
      ⟨{ world := world, heartbeats := heartbeats, issued := issued }, []⟩ events = some s) :
    (∀ (i : Nat) (c : Choice) (s' : State) (t : Thread) (target : RemovalTarget) (token : String),
      s.threads[i]? = some t → t.task.carries = some (target, token) →
      currentToken s.shared.world.db target ≠ some token →
      Pool.step (system defaultWorkspacesPath) s (.act i c) = some s' →
      s'.shared.world.db = s.shared.world.db) ∧
    (∀ token, Retired token s → ∀ later s', run (Pool.step (system defaultWorkspacesPath)) s later =
      some s' → ∀ target, currentToken s'.shared.world.db target ≠ some token) ∧
    (∀ a ∈ s.shared.started, ∀ b ∈ s.shared.started, a.attemptToken = b.attemptToken → a.party = b.party) ∧
    ∀ (i : Nat) (t : Thread), s.threads[i]? = some t → t.party = i := by
  have hinv : TokenInv s := by
    refine (runs_free_iff.mpr h).invariant (I := TokenInv)
      (fun s e s' _ hI hs => tokenInv_step hI hs) ?_
    exact ⟨by simp, ⟨by simp, by simp⟩, by simp, by simp, by simp⟩
  refine ⟨fun i c s' t target token hi hcarries hstale hs => stale_step hi hcarries hstale hs, ?_,
    hinv.alone, hinv.parties⟩
  intro token hretired later s' hrun target
  have hretired' : Retired token s' :=
    (runs_free_iff.mpr hrun).invariant (I := Retired token)
      (fun s e s' _ hI hs => retired_step hI hs) hretired
  exact hretired'.notCurrent target

def handedOff : Capacity.World where
  db := {
    scmSources := .single { id := "src_1", type := .git, localPath := "/srv/checkout" }
    scmWorkspaceRemovals := ⟨[{ target := ⟨"src_1", "feature"⟩, ownerInstanceId := none
                                attemptToken := "token-0" }], by simp⟩ }
  processes := [{ host := { processInstanceId := "host-1" } },
    { host := { processInstanceId := "host-2" } }]

def issuing (token : String) : Choice := { now := 1000, token := token }

def twoPasses : List (Pool.Event Thread Choice) :=
  [.spawn ⟨0, 0, .reconcile .list⟩, .spawn ⟨1, 1, .reconcile .list⟩,
    .act 0 (issuing ""), .act 1 (issuing ""), .act 0 (issuing ""), .act 1 (issuing ""),
    .act 0 (issuing "token-1"), .act 1 (issuing "token-2"),
    .act 0 (issuing ""), .act 0 (issuing ""), .act 0 (issuing "")]

theorem attempt_tokens_safe_twoPasses : ∃ s, run (Pool.step (system fun _ => "/srv/worktrees"))
      ⟨{ world := handedOff, issued := ["token-0"] }, []⟩ twoPasses = some s ∧
    s.shared.started = [⟨0, ⟨"src_1", "feature"⟩, "token-1", false⟩] ∧
    currentToken s.shared.world.db ⟨"src_1", "feature"⟩ = some "token-1" ∧
    ∀ c s', Pool.step (system fun _ => "/srv/worktrees") s (.act 1 c) = some s' →
      s'.shared.world.db = s.shared.world.db := by
  refine ⟨_, rfl, by decide +kernel, by decide +kernel, fun c s' hs => ?_⟩
  exact (attempt_tokens_safe (fun _ => "/srv/worktrees") handedOff .empty ["token-0"] twoPasses _
    rfl).1 1 c s' _ ⟨"src_1", "feature"⟩ "token-0" rfl rfl (by decide +kernel) hs

end A2Wave.Reconciler
