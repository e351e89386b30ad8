import A2Wave.Lib.Pool
import A2Wave.Run.Lifecycle

/-! Five paths race to settle one running run: the two finishers, cancellation, the claim of
the reapers and the failure of a preparation.  Each path is a thread; each of its database
accesses is one action. -/

namespace A2Wave.FirstTerminal

open Transition

inductive Call
  | finishRunSuccess (stepId : String) (workDir : Option String) (result : ExecuteWorkerResult)
      (trace : ExecutionTrace)
  | finishRunError (stepId errorMsg : String) (trace : ExecutionTrace)
  | claimRunCancellation (expectedStatus : CancellableRunStatus)
  | claimReapableRun (expectedOwnerInstanceId : String) (scope : ReapRunClaimScope)
  | failRunBeforeLifecycle (error : String)
  deriving DecidableEq

inductive Effect
  | recordUsage
  | insertAgentMessage
  | sendReply
  | scanArtifacts
  | notifyWebhook
  | generateWorkLog
  | scheduleNext
  | cancelLateStep
  | cleanup
  | discardArtifactsDir
  | completeExecutionLease
  deriving DecidableEq, Repr

def Effect.winnerOnly : Effect → Bool
  | insertAgentMessage | sendReply | scanArtifacts | notifyWebhook | generateWorkLog
  | scheduleNext => true
  | _ => false

inductive Report
  | returned (won : Bool)
  | warned (message : String) (currentStatus : Option RunStatus)
  deriving DecidableEq

def Report.tellsLoss : Report → Bool
  | returned won => !won
  | warned _ _ => true

inductive Phase
  | start
  | recover
  | lost
  | lateStep
  | done
  deriving DecidableEq, Repr

structure Thread where
  call : Call
  phase : Phase := .start
  won : Option RunStatus := none
  report : Option Report := none
  effects : List Effect := []
  deriving DecidableEq

def Call.finisher : Call → Option (String × Settlement × String)
  | finishRunSuccess stepId _ result trace =>
    some (stepId, successSettlement result trace, lostOwnership stepId)
  | finishRunError stepId errorMsg trace =>
    some (stepId, failureSettlement errorMsg trace, errorMsg)
  | _ => none

def Call.ownedEffects : Call → List Effect
  | finishRunSuccess _ workDir result _ =>
    .recordUsage :: (if result.success then [.insertAgentMessage, .sendReply] else []) ++
      (if result.success && (workDir.filter (· ≠ "")).isSome then [.scanArtifacts] else []) ++
      (if result.success then [.sendReply] else []) ++ [.cleanup, .scheduleNext, .generateWorkLog]
  | finishRunError _ _ _ =>
    [.recordUsage, .insertAgentMessage, .sendReply, .notifyWebhook, .generateWorkLog, .cleanup, .scheduleNext]
  | failRunBeforeLifecycle _ => [.cleanup, .scheduleNext]
  | _ => []

/-- A success that was recovered as a failure skips the success effects; a failure that was
recovered is still the failure that was to be stored. -/
def Call.recoveredEffects : Call → List Effect
  | finishRunSuccess _ _ _ _ => [.recordUsage, .cleanup, .scheduleNext]
  | c => c.ownedEffects

def Call.lostMessage : Call → String
  | finishRunSuccess _ _ _ _ =>
    "finishRunSuccess lost terminal-state ownership; skipping success side effects"
  | _ => "finishRunFailure called on already-finalized run; skipping re-finalization"

def Thread.win (t : Thread) (status : RunStatus) (report : Option Report) (effects : List Effect) :
    Thread :=
  { t with phase := .done, won := some status, report := report, effects := effects }

def Thread.lose (t : Thread) (report : Option Report) (effects : List Effect) : Thread :=
  { t with phase := .done, report := report, effects := t.effects ++ effects }

def attempt (runId : String) (host : Host) (db : Db) (t : Thread) : Db × Thread :=
  match t.call with
  | .claimRunCancellation expected =>
    match claimRunCancellation host db runId expected with
    | (true, db') => (db', t.win .cancelled (some (.returned true)) [])
    | (false, db') => (db', t.lose (some (.returned false)) [])
  | .claimReapableRun owner scope =>
    match claimReapableRun host db runId owner scope with
    | (true, db') => (db', t.win .failed (some (.returned true)) [])
    | (false, db') => (db', t.lose (some (.returned false)) [])
  | .failRunBeforeLifecycle error =>
    match failBeforeLifecycleTransition host db runId error with
    | (true, db') => (db', t.win .failed none t.call.ownedEffects)
    | (false, db') => (db', { t with phase := .lost })
  | .finishRunSuccess stepId _ result trace =>
    finish stepId (successSettlement result trace)
  | .finishRunError stepId errorMsg trace =>
    finish stepId (failureSettlement errorMsg trace)
where
  finish (stepId : String) (s : Settlement) : Db × Thread :=
    match terminalTransition host db runId stepId s with
    | .ok (true, db') => (db', t.win s.status none t.call.ownedEffects)
    | .ok (false, db') => (db', { t with phase := .lost })
    | .error _ => (db, { t with phase := .recover })

def afterLoss (status : Option RunStatus) (t : Thread) : Thread :=
  match t.call with
  | .failRunBeforeLifecycle _ =>
    if status = some .running then { t with phase := .start } else t.lose none [.cleanup]
  | _ =>
    let report := some (Report.warned t.call.lostMessage status)
    match status with
    | some .cancelled => { t with phase := .lateStep, report := report, effects := [.recordUsage] }
    | none => t.lose report [.discardArtifactsDir, .completeExecutionLease]
    | some .running => t.lose report [.cleanup, .scheduleNext]
    | some _ => t.lose report []

def act (runId : String) (db : Db) (t : Thread) (host : Host) : Option (Db × Thread) :=
  match t.phase with
  | .start => some (attempt runId host db t)
  | .recover =>
    t.call.finisher.map fun (stepId, _, recoveryError) =>
      match runLevelRecovery host db runId stepId recoveryError with
      | (true, db') => (db', t.win .failed none t.call.recoveredEffects)
      | (false, db') => (db', { t with phase := .lost })
  | .lost => some (db, afterLoss ((db.runs.find? runId).map Run.status) t)
  | .lateStep =>
    t.call.finisher.map fun (stepId, _, _) =>
      (cancelLateStep db stepId, t.lose t.report [.cancelLateStep, .cleanup])
  | .done => none

def Call.wellScoped : Call → Bool
  | claimReapableRun _ scope => scope = orphanReapScope || scope = scmReapScope
  | _ => true

def starts (t : Thread) : Bool := t = { call := t.call } && t.call.wellScoped

def race (runId : String) : Pool.Program Db Thread Host where
  start _ _ t := starts t
  act := act runId

abbrev State := Pool Db Thread

def Call.unconditional : Call → Bool
  | claimRunCancellation .queued => false
  | claimReapableRun _ _ => false
  | _ => true

def Call.silent : Call → Bool
  | failRunBeforeLifecycle _ => true
  | _ => false

/-- What a call that lost has done: it told so, unless it is the preparation failure, which
tells nothing, and it had no effect of a winner. -/
def Lost (t : Thread) : Prop :=
  (if t.call.silent then t.report = none else ∃ r, t.report = some r ∧ r.tellsLoss = true) ∧
    ∀ e ∈ t.effects, e.winnerOnly = false

def settled : RunStatus → Bool
  | .completed | .failed | .cancelled => true
  | _ => false

def ThreadOk (status : RunStatus) (t : Thread) : Prop :=
  t.call.wellScoped = true ∧
    match t.phase with
    | .start => t.won = none ∧ t.effects = []
    | .recover => t.won = none ∧ t.effects = []
    | .lost => t.won = none ∧ t.effects = [] ∧ status ≠ .running
    | .lateStep => t.won = none ∧ status ≠ .running ∧ Lost t
    | .done => t.won = none → Lost t ∧ (t.call.unconditional = true → status ≠ .running)

section Step

variable {runId : String} {host : Host} {db db' : Db} {r : Run} {t t' : Thread}

theorem ThreadOk.mono {a b : RunStatus} (h : ThreadOk a t) (hab : a ≠ .running → b ≠ .running) : ThreadOk b t := by
  refine ⟨h.1, ?_⟩
  have h2 := h.2
  revert h2
  cases t.phase with
  | start => exact id
  | recover => exact id
  | lost => exact fun h => ⟨h.1, h.2.1, hab h.2.2⟩
  | lateStep => exact fun h => ⟨h.1, hab h.2.1, h.2.2⟩
  | done => exact fun h hw => ⟨(h hw).1, fun hu => hab ((h hw).2 hu)⟩

def Wins (runId : String) (r : Run) (db' : Db) (t' : Thread) : Prop :=
  r.status = .running ∧ ∃ r', db'.runs.find? runId = some r' ∧ settled r'.status = true ∧
    t'.won = some r'.status ∧ t'.phase = .done ∧ t'.call.wellScoped = true

def Keeps (runId : String) (r : Run) (db' : Db) (t' : Thread) : Prop :=
  (∃ r', db'.runs.find? runId = some r' ∧ r'.status = r.status) ∧ t'.won = none ∧ ThreadOk r.status t'

theorem wins_of_casRun {p : Run → Bool} {f : Run → Run} {hf : ∀ r, (f r).id = r.id} {db₁ : Db}
    {status : RunStatus} {report : Option Report} {effects : List Effect}
    (hr : db.runs.find? runId = some r) (hcas : db.casRun runId p f hf = some db₁)
    (hp : p r = true → r.status = .running) (hstatus : (f r).status = status)
    (hsettled : settled status = true) (hscope : t.call.wellScoped = true)
    (hruns : db'.runs = db₁.runs) : Wins runId r db' (t.win status report effects) := by
  obtain ⟨r₀, hr₀, hpr, hnew, -⟩ := Db.casRun_find? hcas
  rw [hr] at hr₀
  cases hr₀
  refine ⟨hp hpr, f r, by rw [hruns, hnew], by rw [hstatus, hsettled], by rw [hstatus]; rfl, rfl, hscope⟩

theorem keeps_lost (hr : db.runs.find? runId = some r) (hrun : r.status ≠ .running)
    (hwon : t.won = none) (heff : t.effects = []) (hscope : t.call.wellScoped = true) :
    Keeps runId r db { t with phase := .lost } :=
  ⟨⟨r, hr, rfl⟩, hwon, hscope, hwon, heff, hrun⟩

theorem keeps_claim (hr : db.runs.find? runId = some r) (hwon : t.won = none)
    (heff : t.effects = []) (hscope : t.call.wellScoped = true) (hloud : t.call.silent = false)
    (hun : t.call.unconditional = true → r.status ≠ .running) :
    Keeps runId r db (t.lose (some (.returned false)) []) := by
  refine ⟨⟨r, hr, rfl⟩, hwon, hscope, ?_⟩
  intro _
  refine ⟨⟨?_, ?_⟩, hun⟩
  · have hcall : (t.lose (some (.returned false)) []).call.silent = false := hloud
    rw [if_neg (by simp [hcall])]
    exact ⟨_, rfl, rfl⟩
  · simp [Thread.lose, heff]

theorem finish_spec {stepId : String} {s : Settlement} (hr : db.runs.find? runId = some r)
    (hs : settled s.status = true) (hwon : t.won = none) (heff : t.effects = [])
    (hscope : t.call.wellScoped = true) (h : attempt.finish runId host db t stepId s = (db', t')) :
    Wins runId r db' t' ∨ Keeps runId r db' t' := by
  unfold attempt.finish at h
  split at h
  · rename_i db₂ htr
    cases h
    obtain ⟨hb, -⟩ | ⟨-, db₁, hcas, hstep⟩ := terminalTransition_cases htr
    · cases hb
    exact .inl (wins_of_casRun hr hcas (by simp) rfl hs hscope (Db.casStep_runs hstep))
  · rename_i db₂ htr
    cases h
    obtain ⟨-, rfl, hnot⟩ | ⟨hb, -⟩ := terminalTransition_cases htr
    · exact .inr (keeps_lost hr (hnot r hr) hwon heff hscope)
    · cases hb
  · cases h
    exact .inr ⟨⟨r, hr, rfl⟩, hwon, hscope, hwon, heff⟩

theorem settled_success (result : ExecuteWorkerResult) (trace : ExecutionTrace) :
    settled (successSettlement result trace).status = true := by
  simp only [successSettlement]
  split <;> rfl

theorem running_of_admits {scope : ReapRunClaimScope} {owner : String}
    (hscope : scope = orphanReapScope ∨ scope = scmReapScope) (hadm : scope.admits owner r = true)
    (hst : r.status = .running ∨ settled r.status = true) : r.status = .running := by
  have hmem : scope.statuses.contains r.status = true := (Bool.and_eq_true_iff.mp hadm).1
  obtain rfl | rfl := hscope
  · simpa [orphanReapScope] using hmem
  · obtain hrun | hset := hst
    · exact hrun
    · revert hmem hset
      cases r.status <;> simp [settled, scmReapScope]

theorem attempt_spec (hr : db.runs.find? runId = some r)
    (hst : r.status = .running ∨ settled r.status = true) (hwon : t.won = none)
    (heff : t.effects = []) (hscope : t.call.wellScoped = true)
    (h : attempt runId host db t = (db', t')) : Wins runId r db' t' ∨ Keeps runId r db' t' := by
  unfold attempt at h
  split at h
  · rename_i expected hcall
    split at h
    · rename_i db₂ hclaim
      cases h
      obtain ⟨hb, -⟩ | ⟨-, db₁, hcas, hruns, -⟩ := claimRunCancellation_cases hclaim
      · cases hb
      refine .inl (wins_of_casRun hr hcas ?_ rfl rfl hscope hruns)
      -- a queued run cannot be claimed: the run is running or settled
      intro hexp
      have hstatus : r.status = expected.status := by simpa using hexp
      cases expected with
      | running => exact hstatus
      | queued => simp [hstatus, CancellableRunStatus.status, settled] at hst
    · rename_i db₂ hclaim
      cases h
      obtain ⟨-, rfl, hnot⟩ | ⟨hb, -⟩ := claimRunCancellation_cases hclaim
      · refine .inr (keeps_claim hr hwon heff hscope (by rw [hcall]; rfl) ?_)
        intro hun
        rw [hcall] at hun
        cases expected with
        | running => exact hnot r hr
        | queued => cases hun
      · cases hb
  · rename_i owner scope hcall
    split at h
    · rename_i db₂ hclaim
      cases h
      obtain ⟨hb, -⟩ | ⟨-, db₁, hcas, rfl⟩ := claimReapableRun_cases hclaim
      · cases hb
      refine .inl (wins_of_casRun hr hcas ?_ rfl rfl hscope rfl)
      intro hadm
      rw [hcall] at hscope
      exact running_of_admits (by simpa [Call.wellScoped] using hscope) hadm hst
    · rename_i db₂ hclaim
      cases h
      obtain ⟨-, rfl, -⟩ | ⟨hb, -⟩ := claimReapableRun_cases hclaim
      · exact .inr (keeps_claim hr hwon heff hscope (by rw [hcall]; rfl) (by simp [hcall, Call.unconditional]))
      · cases hb
  · rename_i error hcall
    split at h
    · rename_i db₂ hfail
      cases h
      obtain ⟨hb, -⟩ | ⟨-, hcas⟩ := casRunning_cases hfail
      · cases hb
      · exact .inl (wins_of_casRun hr hcas (by simp) rfl rfl hscope rfl)
    · rename_i db₂ hfail
      cases h
      obtain ⟨-, rfl, hnot⟩ | ⟨hb, -⟩ := casRunning_cases hfail
      · exact .inr (keeps_lost hr (hnot r hr) hwon heff hscope)
      · cases hb
  · exact finish_spec hr (settled_success _ _) hwon heff hscope h
  · exact finish_spec hr rfl hwon heff hscope h

theorem afterLoss_spec (hr : db.runs.find? runId = some r) (hrun : r.status ≠ .running)
    (hwon : t.won = none) (heff : t.effects = []) (hscope : t.call.wellScoped = true) :
    Keeps runId r db (afterLoss (some r.status) t) := by
  have hlose : ∀ report effects, (if t.call.silent then report = none
        else ∃ r, report = some r ∧ r.tellsLoss = true) →
      (∀ e ∈ effects, e.winnerOnly = false) → Keeps runId r db (t.lose report effects) := by
    intro report effects hrep heffs
    refine ⟨⟨r, hr, rfl⟩, hwon, hscope, fun _ => ⟨⟨hrep, ?_⟩, fun _ => hrun⟩⟩
    simpa [Thread.lose, heff] using heffs
  unfold afterLoss
  split
  · rename_i error hcall
    rw [if_neg (by simpa using hrun)]
    exact hlose none [.cleanup] (by simp [hcall, Call.silent]) (by simp [Effect.winnerOnly])
  · rename_i hloud
    have hsilent : t.call.silent = false := by
      cases hc : t.call <;> simp_all [Call.silent]
    have hrep : if t.call.silent then some (Report.warned t.call.lostMessage (some r.status)) = none
        else ∃ rep, some (Report.warned t.call.lostMessage (some r.status)) = some rep ∧ rep.tellsLoss = true := by
      rw [if_neg (by simp [hsilent])]
      exact ⟨_, rfl, rfl⟩
    dsimp only
    split
    · exact ⟨⟨r, hr, rfl⟩, hwon, hscope, hwon, hrun, hrep, by simp [Effect.winnerOnly]⟩
    · rename_i h; cases h
    · rename_i h
      exact absurd (Option.some.inj h) hrun
    · exact hlose _ [] hrep (by simp)

theorem act_spec (hr : db.runs.find? runId = some r)
    (hst : r.status = .running ∨ settled r.status = true) (ht : ThreadOk r.status t)
    (h : act runId db t host = some (db', t')) : Wins runId r db' t' ∨ Keeps runId r db' t' := by
  obtain ⟨hscope, hphase⟩ := ht
  unfold act at h
  cases hp : t.phase with
  | start =>
    rw [hp] at h hphase
    exact attempt_spec hr hst hphase.1 hphase.2 hscope (Option.some.inj h)
  | recover =>
    rw [hp] at h hphase
    obtain ⟨⟨stepId, s, e⟩, -, hfin⟩ := Option.map_eq_some_iff.mp h
    dsimp only at hfin
    split at hfin
    · rename_i db₂ hrec
      cases hfin
      obtain ⟨hb, -⟩ | ⟨-, db₁, hcas, rfl⟩ := runLevelRecovery_cases hrec
      · cases hb
      exact .inl (wins_of_casRun hr hcas (by simp) rfl rfl hscope rfl)
    · rename_i db₂ hrec
      cases hfin
      obtain ⟨-, rfl, hnot⟩ | ⟨hb, -⟩ := runLevelRecovery_cases hrec
      · exact .inr (keeps_lost hr (hnot r hr) hphase.1 hphase.2 hscope)
      · cases hb
  | lost =>
    rw [hp] at h hphase
    cases h
    rw [hr]
    exact .inr (afterLoss_spec hr hphase.2.2 hphase.1 hphase.2.1 hscope)
  | lateStep =>
    rw [hp] at h hphase
    obtain ⟨⟨stepId, s, e⟩, -, hfin⟩ := Option.map_eq_some_iff.mp h
    cases hfin
    obtain ⟨hwon, hrun, hreport, heffects⟩ := hphase
    refine .inr ⟨⟨r, hr, rfl⟩, hwon, hscope, fun _ => ⟨⟨hreport, ?_⟩, fun _ => hrun⟩⟩
    intro e he
    rcases List.mem_append.mp he with he | he
    · exact heffects e he
    · simp only [List.mem_cons, List.not_mem_nil, or_false] at he
      obtain rfl | rfl := he <;> rfl
  | done => rw [hp] at h; cases h

theorem won_eq_none_of_act {status : RunStatus} (ht : ThreadOk status t)
    (h : act runId db t host = some (db', t')) : t.won = none := by
  have hphase := ht.2
  unfold act at h
  cases hp : t.phase with
  | start | recover | lost | lateStep => rw [hp] at hphase; exact hphase.1
  | done => rw [hp] at h; cases h

end Step

structure Inv (runId : String) (p : State) : Prop where
  row : ∃ r, p.shared.runs.find? runId = some r ∧ (∀ t ∈ p.threads, ThreadOk r.status t) ∧
    ((r.status = .running ∧ ∀ t ∈ p.threads, t.won = none) ∨
     (settled r.status = true ∧ ∃ (i : Nat) (t : Thread), p.threads[i]? = some t ∧
        t.won = some r.status ∧ ∀ (j : Nat) (u : Thread), p.threads[j]? = some u → j ≠ i → u.won = none))

theorem inv_step {runId : String} {p q : State} {e : Pool.Event Thread Host} (h : Inv runId p)
    (hs : Pool.step (race runId) p e = some q) : Inv runId q := by
  obtain ⟨r, hr, hok, hwin⟩ := h.row
  obtain ⟨t, -, ht, rfl⟩ | ⟨i, host, t, db', t', -, hi, ha, rfl⟩ := Pool.step_cases hs
  · obtain ⟨hfresh, hscope⟩ := Bool.and_eq_true_iff.mp ht
    have hfresh : t = { call := t.call } := by simpa using hfresh
    have hnew : ThreadOk r.status t ∧ t.won = none := by
      rw [hfresh]
      exact ⟨⟨hscope, rfl, rfl⟩, rfl⟩
    refine ⟨r, hr, ?_, ?_⟩
    · intro u hu
      rcases List.mem_append.mp hu with hu | hu
      · exact hok u hu
      · rw [List.mem_singleton.mp hu]
        exact hnew.1
    · obtain ⟨hrun, hnone⟩ | ⟨hset, i, w, hi, hw, huniq⟩ := hwin
      · refine .inl ⟨hrun, ?_⟩
        intro u hu
        rcases List.mem_append.mp hu with hu | hu
        · exact hnone u hu
        · rw [List.mem_singleton.mp hu]
          exact hnew.2
      · have hilt := (List.getElem?_eq_some_iff.mp hi).1
        refine .inr ⟨hset, i, w, by rw [List.getElem?_append_left hilt, hi], hw, ?_⟩
        intro j u hj hne
        rcases Nat.lt_or_ge j p.threads.length with hlt | hge
        · rw [List.getElem?_append_left hlt] at hj
          exact huniq j u hj hne
        · rw [List.getElem?_append_right hge] at hj
          rw [List.mem_singleton.mp (List.mem_of_getElem? hj)]
          exact hnew.2
  · have hst : r.status = .running ∨ settled r.status = true := by
      obtain ⟨hrun, -⟩ | ⟨hset, -⟩ := hwin
      · exact .inl hrun
      · exact .inr hset
    have hilt := (List.getElem?_eq_some_iff.mp hi).1
    have ht := hok t (List.mem_of_getElem? hi)
    obtain ⟨hrun, r', hr', hset', hwon', hdone', hscope'⟩ | ⟨⟨r', hr', hsame⟩, hwon', ht'⟩ :=
      act_spec hr hst ht ha
    · -- the call wins: nobody had won before
      have hnone : ∀ u ∈ p.threads, u.won = none := by
        obtain ⟨-, hnone⟩ | ⟨hset, -⟩ := hwin
        · exact hnone
        · rw [hrun] at hset
          cases hset
      have hne : r'.status ≠ .running := by
        intro heq
        rw [heq] at hset'
        cases hset'
      refine ⟨r', hr', ?_, .inr ⟨hset', i, t', by simp [hilt], hwon', ?_⟩⟩
      · intro u hu
        rcases List.mem_or_eq_of_mem_set hu with hu | rfl
        · exact (hok u hu).mono fun _ => hne
        · refine ⟨hscope', ?_⟩
          rw [hdone']
          intro hnone'
          rw [hwon'] at hnone'
          cases hnone'
      · intro j u hj hne'
        rw [List.getElem?_set_ne (Ne.symm hne')] at hj
        exact hnone u (List.mem_of_getElem? hj)
    · refine ⟨r', hr', ?_, ?_⟩
      · intro u hu
        rw [hsame]
        rcases List.mem_or_eq_of_mem_set hu with hu | rfl
        · exact hok u hu
        · exact ht'
      · rw [hsame]
        obtain ⟨hrun, hnone⟩ | ⟨hset, k, w, hk, hw, huniq⟩ := hwin
        · refine .inl ⟨hrun, ?_⟩
          intro u hu
          rcases List.mem_or_eq_of_mem_set hu with hu | rfl
          · exact hnone u hu
          · exact hwon'
        · have hki : i ≠ k := by
            rintro rfl
            rw [hi] at hk
            cases hk
            rw [won_eq_none_of_act ht ha] at hw
            cases hw
          refine .inr ⟨hset, k, w, by rw [List.getElem?_set_ne hki, hk], hw, ?_⟩
          intro j u hj hne
          rcases eq_or_ne i j with rfl | hij
          · rw [List.getElem?_set_self hilt] at hj
            cases hj
            exact hwon'
          · rw [List.getElem?_set_ne hij] at hj
            exact huniq j u hj hne

structure FirstWins (runId : String) (p : State) : Prop where
  unique : ∀ (i j : Nat) (t u : Thread), p.threads[i]? = some t → p.threads[j]? = some u →
    t.won.isSome = true → u.won.isSome = true → i = j
  kept : ∀ t ∈ p.threads, ∀ status, t.won = some status →
    settled status = true ∧ (p.shared.runs.find? runId).map Run.status = some status
  open_ : (∀ t ∈ p.threads, t.won = none) → (p.shared.runs.find? runId).map Run.status = some .running
  decided : ∀ t ∈ p.threads, t.phase = .done → t.call.unconditional = true → ∃ u ∈ p.threads, u.won.isSome = true
  losers : ∀ t ∈ p.threads, t.phase = .done → t.won = none → Lost t

theorem Inv.firstWins {runId : String} {p : State} (h : Inv runId p) : FirstWins runId p := by
  obtain ⟨r, hr, hok, hwin⟩ := h.row
  have hlosers : ∀ t ∈ p.threads, t.phase = .done → t.won = none → Lost t ∧
      (t.call.unconditional = true → r.status ≠ .running) := by
    intro t ht hdone hwon
    have h2 := (hok t ht).2
    rw [hdone] at h2
    exact h2 hwon
  obtain ⟨hrun, hnone⟩ | ⟨hset, i, w, hi, hw, huniq⟩ := hwin
  · refine ⟨?_, ?_, ?_, ?_, fun t ht hd hwon => (hlosers t ht hd hwon).1⟩
    · intro i j t u hi _ ht _
      simp [hnone t (List.mem_of_getElem? hi)] at ht
    · intro t ht status hstatus
      rw [hnone t ht] at hstatus
      cases hstatus
    · intro _
      rw [hr, ← hrun]
      rfl
    · intro t ht hdone hun
      exact absurd hrun ((hlosers t ht hdone (hnone t ht)).2 hun)
  · -- every winner is the thread `i`
    have hidx : ∀ j u, p.threads[j]? = some u → u.won.isSome = true → j = i := by
      intro j u hj hu
      by_contra hne
      simp [huniq j u hj hne] at hu
    refine ⟨?_, ?_, ?_, ?_, fun t ht hd hwon => (hlosers t ht hd hwon).1⟩
    · intro j k t u hj hk ht hu
      rw [hidx j t hj ht, hidx k u hk hu]
    · intro t ht status hstatus
      obtain ⟨j, hj⟩ := List.mem_iff_getElem?.mp ht
      have hji := hidx j t hj (by simp [hstatus])
      rw [hji, hi] at hj
      cases hj
      rw [hw] at hstatus
      cases hstatus
      exact ⟨hset, by rw [hr]; rfl⟩
    · intro hnone
      rw [hnone w (List.mem_of_getElem? hi)] at hw
      cases hw
    · intro _ _ _ _
      exact ⟨w, List.mem_of_getElem? hi, by simp [hw]⟩

/-- For every interleaving of the five paths on a running run, at most one of them wins, the
status it stored stays, and every other path ends as a loser. -/
theorem first_terminal_wins {runId : String} {db : Db} {r : Run}
    (hr : db.runs.find? runId = some r) (hrun : r.status = .running)
    {es : List (Pool.Event Thread Host)} {p : State}
    (h : run (Pool.step (race runId)) ⟨db, []⟩ es = some p) : FirstWins runId p := by
  have h0 : Inv runId ⟨db, []⟩ := ⟨r, hr, by simp, .inl ⟨hrun, by simp⟩⟩
  exact ((runs_free_iff.mpr h).invariant (fun p e q _ hI hs => inv_step hI hs) h0).firstWins

def racedDb : Db :=
  { runs := ⟨[{ id := "run_1", status := .running }], by simp⟩ }

def racingHost : Host := { processInstanceId := "host-1" }

def cancelledPreparation : List (Pool.Event Thread Host) :=
  [.spawn { call := .claimRunCancellation .running },
    .spawn { call := .failRunBeforeLifecycle "SCM source not synced" },
    .act 0 racingHost, .act 1 racingHost, .act 1 racingHost]

theorem first_terminal_wins_cancelled :
    ∃ p, run (Pool.step (race "run_1")) ⟨racedDb, []⟩ cancelledPreparation = some p ∧
      p.threads.map Thread.won = [some .cancelled, none] ∧ FirstWins "run_1" p := by
  obtain ⟨p, hp, hwon⟩ : ∃ p, run (Pool.step (race "run_1")) ⟨racedDb, []⟩ cancelledPreparation =
      some p ∧ p.threads.map Thread.won = [some .cancelled, none] :=
    exists_of_run_any (by decide +kernel)
  exact ⟨p, hp, hwon, first_terminal_wins (r := { id := "run_1", status := .running }) rfl rfl hp⟩

theorem failRunBeforeLifecycle_loses_silently :
    ∃ p, run (Pool.step (race "run_1")) ⟨racedDb, []⟩ cancelledPreparation = some p ∧
      ¬∀ t ∈ p.threads, t.phase = .done → t.won = none →
        ∃ report, t.report = some report ∧ report.tellsLoss = true := by
  obtain ⟨p, hp, hthreads⟩ : ∃ p, run (Pool.step (race "run_1")) ⟨racedDb, []⟩
      cancelledPreparation = some p ∧
        p.threads.any (fun t => t.phase = .done && t.won = none && t.report = none) = true :=
    exists_of_run_any (by decide +kernel)
  refine ⟨p, hp, ?_⟩
  intro hall
  obtain ⟨t, ht, hprops⟩ := List.any_eq_true.mp hthreads
  simp only [Bool.and_eq_true, decide_eq_true_eq] at hprops
  obtain ⟨⟨hdone, hwon⟩, hsilent⟩ := hprops
  obtain ⟨report, hreport, -⟩ := hall t ht hdone hwon
  rw [hsilent] at hreport
  cases hreport

end A2Wave.FirstTerminal
