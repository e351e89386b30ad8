import Mathlib
import A2Wave.Run.Lifecycle
import A2Wave.Run.Metadata

/-! Resuming an interrupted run: the decision of `lib/resume-decision.ts` and
`lib/resume-chat-id.ts`, and the life of one run over any number of crashes. -/

namespace A2Wave

def maxResumeAttempts : Nat := 3

def interruptionCodes : List String :=
  ["SERVER_RESTART_DURING_EXEC", "INSTANCE_STOPPED_DURING_EXEC"]

structure ResumeCandidate where
  liveChatId : Option String
  restartable : Bool
  resumeAttempts : ℚ
  failureCode : String
  agentMissing : Bool
  sessionResetRequested : Bool

inductive ResumeRefusal
  | noSession
  | attemptsExhausted
  | notInterrupted
  | agentMissing
  | sessionReset
  deriving DecidableEq, Repr

inductive ResumeDecision
  | resume (chatId : Option String) (attempt : ℚ)
  | refuse (reason : ResumeRefusal)
  deriving DecidableEq

def decideResume (c : ResumeCandidate) : ResumeDecision :=
  if c.agentMissing then .refuse .agentMissing
  else if c.sessionResetRequested then .refuse .sessionReset
  else if !interruptionCodes.contains c.failureCode then .refuse .notInterrupted
  else if (c.liveChatId.filter (· ≠ "")).isNone && !c.restartable then .refuse .noSession
  -- a counter that is no natural number fails closed
  else if c.resumeAttempts.den ≠ 1 ∨ c.resumeAttempts < 0 ∨ (maxResumeAttempts : ℚ) ≤ c.resumeAttempts
  then .refuse .attemptsExhausted
  else .resume c.liveChatId (c.resumeAttempts + 1)

def readFailureCode (result : Option Fields) : String :=
  (((metaGet? result "error").bind (·.get? "code")).bind Json.asStr?).getD ""

/-- `RESTARTABLE_TRIGGERS`: the triggers nobody waits on. -/
def isRestartableTrigger : Option TriggerSource → Bool
  | some .glab | some .gh | some .schedule | some .feishu => true
  | some .slack | some .discord | some .telegram | some .qqOfficial => true
  | _ => false

def firstText : List String → String
  | [] => ""
  | s :: ss => if s ≠ "" then s else firstText ss

def resumeDecisionForRow (row : Run) (assumeFailureCode : Option String) : ResumeDecision :=
  let metadata := row.executionMetadata
  decideResume
    { liveChatId := (metaGet? metadata "liveChatId").bind Json.asStr?
      restartable := metaGet? metadata "executionStarted" ≠ some (.bool true) &&
        isRestartableTrigger row.triggerSource
      resumeAttempts := spentAttempts (metaGet? metadata "resumeAttempts")
      failureCode := firstText [assumeFailureCode.getD "",
        ((metaGet? metadata "resumePending").bind Json.asStr?).getD "", readFailureCode row.result]
      agentMissing := (row.initiatorAgentId.filter (· ≠ "")).isNone
      sessionResetRequested := metaGet? metadata "oauthResetSession" = some (.bool true) ||
        metaGet? metadata "nativeChatResetSession" = some (.bool true) }

def ResumeDecision.resumes : ResumeDecision → Bool
  | .resume _ _ => true
  | .refuse _ => false

def canRequeueInterruptedRun (db : Db) (runId : String) (assumeFailureCode : String) : Bool :=
  match db.runs.find? runId with
  | none => false
  | some row => (resumeDecisionForRow row (some assumeFailureCode)).resumes

def resumeChatIdFromRow (row : Run) : Option String :=
  match resumeDecisionForRow row none with
  | .resume chatId _ => chatId.filter (· ≠ "")
  | .refuse _ => none

def awaitsFeishuEventReplay (r : Run) : Bool :=
  (r.triggerSessionId.filter (· ≠ "")).isSome && isNullish (metaGet? r.executionMetadata "retryAttempt")

/-- `applyFailure` of startup recovery, without its hook. -/
def applyFailure (host : Host) (db : Db) (runId : String) (reason : FailureReason) : Db :=
  updateRunStatus host (failRunWithStructuredReason host db runId reason) runId .failed

/-- `mergeExecutionMetadata` when no other writer interferes: every attempt reads the same
value, so one attempt decides. -/
def mergeExecutionMetadata (d : Dialect) (db : Db) (runId : String) (call : MergeCall) : Db :=
  match db.runs.find? runId with
  | none => db
  | some r => (mergeWrite d db runId r.executionMetadata call).getD db

theorem resumes_spent {row : Run} {code : Option String}
    (h : (resumeDecisionForRow row code).resumes = true) :
    0 ≤ spentAttempts (metaGet? row.executionMetadata "resumeAttempts") ∧
      spentAttempts (metaGet? row.executionMetadata "resumeAttempts") < maxResumeAttempts := by
  unfold resumeDecisionForRow decideResume at h
  dsimp only at h
  repeat (split at h; · cases h)
  rename_i hspent
  simp only [not_or, not_lt, not_le] at hspent
  exact ⟨hspent.2.1, hspent.2.2⟩

namespace Resume

open Transition Metadata

inductive Exec
  | idle
  | promoted
  | read (snapshot : Run)
  | resolved (snapshot : Run)
  | live
  | dead
  | recovering

structure Cycle where
  db : Db
  exec : Exec
  requeues : Nat

inductive Event
  | promote (host : Host) (agentId : String) (maxConcurrency : Nat)
  | readRow
  | resolve (contended : Bool)
  | prepare (host : Host) (step : RunStep)
  | announce (sessionId : Option String) (contended : Bool)
  | settle (host : Host) (stepId : String) (s : Settlement)
  | failBeforeLifecycle (host : Host) (error : String)
  | die
  | startupDecide (host : Host) (contended : Bool)
  | startupRequeue (host : Host)
  | startupQueued (host : Host)
  | reap (host : Host) (owner : String)

def contend (contended : Bool) (d : Dialect) (db : Db) (runId : String) (call : MergeCall) : Db :=
  if contended then db else mergeExecutionMetadata d db runId call

def serverRestart : String := FailureReason.serverRestartDuringExec.code

def instanceStopped : String := FailureReason.instanceStoppedDuringExec.code

def announceCall : Option String → MergeCall
  | some sessionId => .persistLiveSessionId sessionId
  | none => .markExecutionStarted

def startupDecide (d : Dialect) (runId : String) (host : Host) (contended : Bool) (s : Cycle) : Option Cycle :=
  (s.db.runs.find? runId).map fun r =>
    if r.triggerSource = some .feishu && awaitsFeishuEventReplay r then
      ⟨applyFailure host s.db runId .serverRestartDuringExec, .idle, s.requeues⟩
    else if canRequeueInterruptedRun s.db runId serverRestart then
      ⟨contend contended d s.db runId (.markRunForResume serverRestart), .recovering, s.requeues⟩
    else ⟨applyFailure host s.db runId .serverRestartDuringExec, .idle, s.requeues⟩

def reap (runId : String) (host : Host) (owner : String) (s : Cycle) : Cycle :=
  let fail : Cycle := ⟨(claimReapableRun host s.db runId owner orphanReapScope).2, .idle, s.requeues⟩
  if canRequeueInterruptedRun s.db runId instanceStopped then
    match requeueForResume host s.db runId (some instanceStopped) (some owner) with
    | (true, db) => ⟨db, .idle, s.requeues + 1⟩
    | (false, _) => fail
  else fail

def step (d : Dialect) (runId : String) (s : Cycle) : Event → Option Cycle
  | .promote host agentId maxConcurrency =>
    match s.exec, promoteQueuedRun host s.db agentId runId maxConcurrency with
    | .idle, .ok (true, db) => some ⟨db, .promoted, s.requeues⟩
    | _, _ => none
  | .readRow =>
    match s.exec with
    | .promoted => (s.db.runs.find? runId).map fun r =>
        if r.status = .running then ⟨s.db, .read r, s.requeues⟩ else ⟨s.db, .idle, s.requeues⟩
    | _ => none
  | .resolve contended =>
    match s.exec with
    | .read snapshot =>
      let db := if (resumeChatIdFromRow snapshot).isSome
        then contend contended d s.db runId .recordResumeAttempt else s.db
      some ⟨db, .resolved snapshot, s.requeues⟩
    | _ => none
  | .prepare host runStep =>
    match s.exec with
    | .resolved snapshot =>
      match prepareExecution host s.db snapshot runStep with
      | .ok (true, db) => some ⟨db, .live, s.requeues⟩
      | .ok (false, db) => some ⟨db, .idle, s.requeues⟩
      | .error _ => none
    | _ => none
  | .announce sessionId contended =>
    match s.exec with
    | .live => some ⟨contend contended d s.db runId (announceCall sessionId), .live, s.requeues⟩
    | _ => none
  | .settle host stepId settlement =>
    match s.exec, terminalTransition host s.db runId stepId settlement with
    | .live, .ok (_, db) => some ⟨db, .idle, s.requeues⟩
    | _, _ => none
  | .failBeforeLifecycle host error =>
    match s.exec with
    | .promoted | .read _ | .resolved _ =>
      some ⟨(failBeforeLifecycleTransition host s.db runId error).2, .idle, s.requeues⟩
    | _ => none
  | .die =>
    match s.exec with
    | .idle => none
    | _ => some ⟨s.db, .dead, s.requeues⟩
  | .startupDecide host contended =>
    match s.exec with
    | .dead => startupDecide d runId host contended s
    | _ => none
  | .startupRequeue host =>
    match s.exec with
    | .recovering =>
      match requeueForResume host s.db runId (some serverRestart) none with
      | (true, db) => some ⟨db, .idle, s.requeues + 1⟩
      | (false, db) => some ⟨db, .idle, s.requeues⟩
    | _ => none
  | .startupQueued host =>
    match s.exec with
    | .idle => (s.db.runs.find? runId).map fun r =>
        let safe := !awaitsFeishuEventReplay r &&
          hasSendableNativeChatContext (metaGet? r.executionMetadata "nativeChatContext")
        if r.status = .queued && r.triggerSource = some .feishu && !safe then
          ⟨applyFailure host s.db runId .feishuQueuedResetForReplay, .idle, s.requeues⟩
        else s
    | _ => none
  | .reap host owner =>
    match s.exec with
    | .dead => some (reap runId host owner s)
    | _ => none

def marked (m : Option Fields) : Prop := (metaGet? m "resumePending").isSome

def spent (m : Option Fields) : ℚ := spentAttempts (metaGet? m "resumeAttempts")

def DiesCounted (runId : String) (s : Cycle) : Event → Prop
  | .die => match s.exec with
    | .dead | .recovering => True
    | _ => ¬marked (stored runId s.db)
  | _ => True

def Counted (n : Nat) (m : Option Fields) : Prop := n = 0 ∨ (n : ℚ) ≤ spent m

def CountedOrMarked (n : Nat) (m : Option Fields) : Prop :=
  Counted n m ∨ (marked m ∧ (n : ℚ) ≤ spent m + 1)

structure Inv (runId : String) (s : Cycle) : Prop where
  bound : s.requeues ≤ maxResumeAttempts
  row : CountedOrMarked s.requeues (stored runId s.db)
  exec : match s.exec with
    | .read snapshot | .resolved snapshot =>
      snapshot.id = runId ∧ CountedOrMarked s.requeues snapshot.executionMetadata
    | .dead => Counted s.requeues (stored runId s.db)
    | .recovering => Counted s.requeues (stored runId s.db) ∧
        0 ≤ spent (stored runId s.db) ∧ spent (stored runId s.db) < maxResumeAttempts
    | _ => True

section Column

variable {d : Dialect} {runId : String} {db db' : Db} {host : Host} {n : Nat} {m : Option Fields}

@[simp] theorem stored_applyFailure (reason : FailureReason) :
    stored runId (applyFailure host db runId reason) = stored runId db := by
  simp only [stored, applyFailure, updateRunStatus, failRunWithStructuredReason, Table.find?_updateWhere]
  cases db.runs.find? runId with
  | none => rfl
  | some r =>
    simp only [Option.map_some, Option.bind_some]
    split
    · split <;> rfl
    · rfl

theorem stored_promote {agentId : String} {max : Nat}
    (h : promoteQueuedRun host db agentId runId max = .ok (true, db')) :
    stored runId db' = stored runId db := by
  obtain ⟨hb, -⟩ | ⟨-, -, db₁, hcas, hact⟩ := promoteQueuedRun_cases h
  · cases hb
  · rw [stored, hact.only.runs]
    exact stored_casRun hcas fun _ => rfl

theorem stored_terminalTransition {stepId : String} {s : Settlement} {b : Bool}
    (h : terminalTransition host db runId stepId s = .ok (b, db')) :
    stored runId db' = stored runId db := by
  obtain ⟨-, rfl, -⟩ | ⟨-, db₁, hcas, hstep⟩ := terminalTransition_cases h
  · rfl
  · rw [stored, Db.casStep_runs hstep]
    exact stored_casRun hcas fun _ => rfl

theorem stored_failBeforeLifecycle (host : Host) (db : Db) (runId error : String) :
    stored runId (failBeforeLifecycleTransition host db runId error).2 = stored runId db := by
  unfold failBeforeLifecycleTransition
  split
  · rfl
  · rename_i db₁ hcas
    exact stored_casRun hcas fun _ => rfl

theorem stored_claimReapableRun (owner : String) (scope : ReapRunClaimScope) :
    stored runId (claimReapableRun host db runId owner scope).2 = stored runId db := by
  unfold claimReapableRun
  dsimp only
  split
  · rfl
  · rename_i db₁ hcas
    simp only [stored, Db.failRunningSteps, Db.runs_updateSteps]
    exact stored_casRun hcas fun _ => rfl

theorem stored_merge (call : MergeCall) : stored runId (mergeExecutionMetadata d db runId call) = stored runId db ∨
    stored runId (mergeExecutionMetadata d db runId call) =
      some (((stored runId db).getD .nil).writes (call.produce ((stored runId db).getD .nil))) := by
  unfold mergeExecutionMetadata
  cases hr : db.runs.find? runId with
  | none => exact .inl rfl
  | some r =>
    dsimp only
    cases hw : mergeWrite d db runId r.executionMetadata call with
    | none => exact .inl rfl
    | some db' =>
      obtain ⟨r', -, -, hnew, -⟩ := Db.casRun_find? hw
      refine .inr ?_
      rw [Option.getD_some, stored_of_find? hnew, stored_of_find? hr]

theorem stored_contend (d : Dialect) (db : Db) (runId : String) (c : Bool) (call : MergeCall) :
    stored runId (contend c d db runId call) = stored runId db ∨
    stored runId (contend c d db runId call) =
      some (((stored runId db).getD .nil).writes (call.produce ((stored runId db).getD .nil))) := by
  unfold contend
  split
  · exact .inl rfl
  · exact stored_merge call

theorem get?_getD (m : Option Fields) (k : String) : (m.getD .nil).get? k = metaGet? m k := by
  cases m <;> rfl

theorem metaGet?_writes (ws : List (String × Option Json)) (k : String) : metaGet? (some ((m.getD .nil).writes ws)) k =
      ((ws.reverse.find? (·.1 = k)).map (·.2)).getD (metaGet? m k) := by
  rw [← get?_getD m k]
  exact Fields.get?_writes _ _ _

end Column

section Budget

variable {d : Dialect} {runId : String} {db db' : Db} {host : Host} {n : Nat} {m m' : Option Fields}

def SameBudget (m m' : Option Fields) : Prop :=
  metaGet? m' "resumePending" = metaGet? m "resumePending" ∧ metaGet? m' "resumeAttempts" = metaGet? m "resumeAttempts"

theorem SameBudget.countedOrMarked (h : SameBudget m m') (hc : CountedOrMarked n m) : CountedOrMarked n m' := by
  simpa only [CountedOrMarked, Counted, marked, spent, h.1, h.2] using hc

theorem sameBudget_announce (c : Bool) (sessionId : Option String) : SameBudget (stored runId db)
      (stored runId (contend c d db runId (announceCall sessionId))) := by
  obtain h | h := stored_contend d db runId c (announceCall sessionId)
  · rw [h]
    exact ⟨rfl, rfl⟩
  · rw [h]
    cases sessionId <;> constructor <;> rw [metaGet?_writes] <;> rfl

theorem spent_markRunForResume (d : Dialect) (db : Db) (runId : String) (c : Bool) (code : String) :
    spent (stored runId (contend c d db runId (.markRunForResume code))) = spent (stored runId db) := by
  obtain h | h := stored_contend d db runId c (.markRunForResume code)
  · rw [h]
  · rw [h, spent, metaGet?_writes]
    rfl

theorem countedOrMarked_record (c : Bool) (hc : CountedOrMarked n (stored runId db)) :
    CountedOrMarked n (stored runId (contend c d db runId .recordResumeAttempt)) := by
  obtain h | h := stored_contend d db runId c .recordResumeAttempt
  · rwa [h]
  · have hspent : spent (stored runId (contend c d db runId .recordResumeAttempt)) = spent (stored runId db) + 1 := by
      rw [h, spent, metaGet?_writes, spent, ← get?_getD (stored runId db) "resumeAttempts"]
      rfl
    refine .inl ?_
    obtain (h0 | hle) | ⟨-, hle⟩ := hc
    · exact .inl h0
    · right
      rw [hspent]
      linarith
    · right
      rw [hspent]
      exact hle

theorem sameBudget_restMeta (m : Option Fields) : SameBudget m (restMeta m) := by
  constructor <;> rw [metaGet?_restMeta] <;> rfl

theorem countedOrMarked_prepare {snapshot : Run} {runStep : RunStep} (hid : snapshot.id = runId)
    (hp : prepareExecution host db snapshot runStep = .ok (true, db'))
    (hrow : CountedOrMarked n (stored runId db))
    (hsnap : CountedOrMarked n snapshot.executionMetadata) :
    CountedOrMarked n (stored runId db') := by
  obtain ⟨hb, -⟩ | ⟨-, r, steps, st, hr, -, hnew, -⟩ := prepareExecution_cases hp
  · cases hb
  rw [hid] at hr hnew
  rw [stored_of_find? hnew, rewriteMetadata]
  split
  · exact (sameBudget_restMeta _).countedOrMarked hsnap
  · rwa [← stored_of_find? hr]

theorem requeued_budget {r : Run} (code : String) (hr : db.runs.find? runId = some r) :
    marked (some (requeuedMetadata db r code)) ∧
      spent (some (requeuedMetadata db r code)) = spent (stored runId db) := by
  rw [stored_of_find? hr]
  simp only [marked, spent, metaGet?, Option.bind_some, requeuedMetadata, Fields.get?_set]
  refine ⟨by simp, ?_⟩
  congr 1
  simp only [String.reduceEq, if_false]
  split
  · rw [Fields.get?_set]
    simp only [String.reduceEq, if_false]
    exact get?_getD _ _
  · exact get?_getD _ _

theorem requeue_budget {code : String} {owner : Option String}
    (h : requeueForResume host db runId (some code) owner = (true, db'))
    (hn : Counted n (stored runId db)) (h0 : 0 ≤ spent (stored runId db))
    (hlt : spent (stored runId db) < maxResumeAttempts) :
    n + 1 ≤ maxResumeAttempts ∧ CountedOrMarked (n + 1) (stored runId db') := by
  have hle : (n : ℚ) ≤ spent (stored runId db) := by
    obtain rfl | hle := hn
    · simpa using h0
    · exact hle
  constructor
  · have : (n : ℚ) < (maxResumeAttempts : ℚ) := lt_of_le_of_lt hle hlt
    exact_mod_cast this
  · obtain ⟨hb, -⟩ | ⟨-, db₁, hcas, rfl⟩ := requeueForResume_cases h
    · cases hb
    obtain ⟨r, hr, -, hnew, -⟩ := Db.casRun_find? hcas
    have hstored : stored runId (db₁.failRunningSteps runId
        FailureReason.serverRestartDuringExec.toJson) = some (requeuedMetadata db r code) := by
      rw [stored, Db.failRunningSteps, Db.runs_updateSteps, hnew]
      rfl
    obtain ⟨hmark, hspent⟩ := requeued_budget code hr
    rw [hstored]
    refine .inr ⟨hmark, ?_⟩
    rw [hspent]
    push_cast
    linarith

theorem Inv.plain {s : Cycle} {db : Db} {exec : Exec} (h : Inv runId s)
    (hexec : exec = .idle ∨ exec = .promoted ∨ exec = .live)
    (hrow : CountedOrMarked s.requeues (stored runId db)) : Inv runId ⟨db, exec, s.requeues⟩ := by
  refine ⟨h.bound, hrow, ?_⟩
  obtain rfl | rfl | rfl := hexec <;> trivial

variable {s t : Cycle}

theorem inv_readRow (h : Inv runId s) (hs : step d runId s .readRow = some t) : Inv runId t := by
  simp only [step] at hs
  split at hs
  · obtain ⟨r, hr, rfl⟩ := Option.map_eq_some_iff.mp hs
    split
    · refine ⟨h.bound, h.row, Table.find?_some_key hr, ?_⟩
      rw [← stored_of_find? hr]
      exact h.row
    · exact h.plain (.inl rfl) h.row
  · cases hs

theorem inv_die (hok : DiesCounted runId s .die) (h : Inv runId s)
    (hs : step d runId s .die = some t) : Inv runId t := by
  have hdead : t = ⟨s.db, .dead, s.requeues⟩ ∧ Counted s.requeues (stored runId s.db) := by
    have hunmarked : ¬marked (stored runId s.db) → Counted s.requeues (stored runId s.db) := by
      intro hm
      obtain hc | ⟨hm', -⟩ := h.row
      · exact hc
      · exact absurd hm' hm
    have hx := h.exec
    cases he : s.exec with
    | idle => simp [step, he] at hs
    | dead =>
      rw [he] at hx
      exact ⟨by simpa [step, he] using hs.symm, hx⟩
    | recovering =>
      rw [he] at hx
      exact ⟨by simpa [step, he] using hs.symm, hx.1⟩
    | promoted | read r => exact ⟨by simpa [step, he] using hs.symm, hunmarked (by simpa [DiesCounted, he] using hok)⟩
    | resolved r => exact ⟨by simpa [step, he] using hs.symm, hunmarked (by simpa [DiesCounted, he] using hok)⟩
    | live => exact ⟨by simpa [step, he] using hs.symm, hunmarked (by simpa [DiesCounted, he] using hok)⟩
  obtain ⟨rfl, hc⟩ := hdead
  exact ⟨h.bound, h.row, hc⟩

theorem canRequeue_spent {code : String} (h : canRequeueInterruptedRun db runId code = true) :
    0 ≤ spent (stored runId db) ∧ spent (stored runId db) < maxResumeAttempts := by
  unfold canRequeueInterruptedRun at h
  split at h
  · cases h
  · rename_i r hr
    rw [stored_of_find? hr]
    exact resumes_spent h

theorem inv_startupDecide {c : Bool} (h : Inv runId s) (he : s.exec = .dead)
    (hs : startupDecide d runId host c s = some t) : Inv runId t := by
  have hcount : Counted s.requeues (stored runId s.db) := by simpa [he] using h.exec
  obtain ⟨r, hr, rfl⟩ := Option.map_eq_some_iff.mp hs
  split
  · exact h.plain (.inl rfl) (by simpa using h.row)
  split
  · rename_i hcan
    obtain ⟨h0, hlt⟩ := canRequeue_spent hcan
    have hspent := spent_markRunForResume d s.db runId c serverRestart
    have hcount' : Counted s.requeues
        (stored runId (contend c d s.db runId (.markRunForResume serverRestart))) := by
      simpa only [Counted, hspent] using hcount
    exact ⟨h.bound, .inl hcount', hcount', by rw [hspent]; exact h0, by rw [hspent]; exact hlt⟩
  · exact h.plain (.inl rfl) (by simpa using h.row)

theorem inv_reap {s : Cycle} {owner : String} (h : Inv runId s) (he : s.exec = .dead) :
    Inv runId (reap runId host owner s) := by
  have hcount : Counted s.requeues (stored runId s.db) := by simpa [he] using h.exec
  have hfail : Inv runId
      ⟨(claimReapableRun host s.db runId owner orphanReapScope).2, .idle, s.requeues⟩ :=
    h.plain (.inl rfl) (by rw [stored_claimReapableRun]; exact h.row)
  simp only [reap]
  split
  · rename_i hcan
    obtain ⟨h0, hlt⟩ := canRequeue_spent hcan
    split
    · rename_i db' hreq
      obtain ⟨hbound, hrow⟩ := requeue_budget hreq hcount h0 hlt
      exact ⟨hbound, hrow, trivial⟩
    · exact hfail
  · exact hfail

theorem inv_step {e : Event} (hok : DiesCounted runId s e) (h : Inv runId s)
    (hs : step d runId s e = some t) : Inv runId t := by
  cases e with
  | promote host agentId max =>
    simp only [step] at hs
    split at hs
    · rename_i db' _ hp
      cases hs
      exact h.plain (.inr (.inl rfl)) (by rw [stored_promote hp]; exact h.row)
    · cases hs
  | readRow => exact inv_readRow h hs
  | resolve c =>
    simp only [step] at hs
    split at hs
    · rename_i snapshot he
      cases hs
      have hx := h.exec
      rw [he] at hx
      refine ⟨h.bound, ?_, hx⟩
      dsimp only
      split
      · exact countedOrMarked_record c h.row
      · exact h.row
    · cases hs
  | prepare host runStep =>
    simp only [step] at hs
    split at hs
    · rename_i snapshot he
      have hx := h.exec
      rw [he] at hx
      split at hs
      · rename_i db' hp
        cases hs
        exact h.plain (.inr (.inr rfl)) (countedOrMarked_prepare hx.1 hp h.row hx.2)
      · rename_i db' hp
        cases hs
        obtain ⟨-, hdb⟩ | ⟨hb, -⟩ := prepareExecution_cases hp
        · exact h.plain (.inl rfl) (by rw [hdb]; exact h.row)
        · cases hb
      · cases hs
    · cases hs
  | announce sessionId c =>
    simp only [step] at hs
    split at hs
    · cases hs
      exact h.plain (.inr (.inr rfl)) ((sameBudget_announce c sessionId).countedOrMarked h.row)
    · cases hs
  | settle host stepId settlement =>
    simp only [step] at hs
    split at hs
    · rename_i b db' _ ht
      cases hs
      exact h.plain (.inl rfl) (by rw [stored_terminalTransition ht]; exact h.row)
    · cases hs
  | failBeforeLifecycle host error =>
    have hrow := (stored_failBeforeLifecycle host s.db runId error) ▸ h.row
    simp only [step] at hs
    split at hs
    all_goals first
      | (cases hs; exact h.plain (.inl rfl) hrow)
      | cases hs
  | die => exact inv_die hok h hs
  | startupDecide host c =>
    simp only [step] at hs
    split at hs
    · rename_i he
      exact inv_startupDecide h he hs
    · cases hs
  | startupRequeue host =>
    simp only [step] at hs
    split at hs
    · rename_i he
      have hx := h.exec
      rw [he] at hx
      split at hs
      · rename_i db' hreq
        cases hs
        obtain ⟨hbound, hrow⟩ := requeue_budget hreq hx.1 hx.2.1 hx.2.2
        exact ⟨hbound, hrow, trivial⟩
      · rename_i db' hreq
        cases hs
        obtain ⟨-, hdb⟩ | ⟨hb, -⟩ := requeueForResume_cases hreq
        · exact h.plain (.inl rfl) (by rw [hdb]; exact h.row)
        · cases hb
    · cases hs
  | startupQueued host =>
    simp only [step] at hs
    split at hs
    · obtain ⟨r, hr, rfl⟩ := Option.map_eq_some_iff.mp hs
      split
      · exact h.plain (.inl rfl) (by simpa using h.row)
      · exact h
    · cases hs
  | reap host owner =>
    simp only [step] at hs
    split at hs
    · rename_i he
      cases hs
      exact inv_reap h he
    · cases hs

end Budget

def Exec.fresh : Exec → Bool
  | .read _ | .resolved _ | .recovering => false
  | _ => true

/-- A run is put back on the queue at most `maxResumeAttempts` times, in every life in which
no process dies with the mark of its resume still unconsumed. -/
theorem requeues_le_maxResumeAttempts {d : Dialect} {runId : String} {db : Db} {exec : Exec}
    (hexec : exec.fresh = true) {es : List Event} {t : Cycle}
    (h : Runs (step d runId) (DiesCounted runId) ⟨db, exec, 0⟩ es t) :
    t.requeues ≤ maxResumeAttempts := by
  have h0 : Inv runId ⟨db, exec, 0⟩ := by
    refine ⟨by simp, .inl (.inl rfl), ?_⟩
    cases exec <;> first | trivial | exact .inl rfl
  exact (h.invariant (fun s e t hok hI hs => inv_step hok hI hs) h0).bound

instance (m : Option Fields) : Decidable (marked m) :=
  inferInstanceAs (Decidable ((metaGet? m "resumePending").isSome = true))

instance (runId : String) (s : Cycle) (e : Event) : Decidable (DiesCounted runId s e) :=
  match e, s with
  | .die, ⟨_, .dead, _⟩ | .die, ⟨_, .recovering, _⟩ => inferInstanceAs (Decidable True)
  | .die, ⟨db, .idle, _⟩ | .die, ⟨db, .promoted, _⟩ | .die, ⟨db, .read _, _⟩
  | .die, ⟨db, .resolved _, _⟩ | .die, ⟨db, .live, _⟩ =>
    inferInstanceAs (Decidable (¬marked (stored runId db)))
  | .promote .., _ | .readRow, _ | .resolve _, _ | .prepare .., _ | .announce .., _ | .settle .., _
  | .failBeforeLifecycle .., _ | .startupDecide .., _ | .startupRequeue _, _ | .startupQueued _, _
  | .reap .., _ => inferInstanceAs (Decidable True)

def scheduledRun : Run :=
  { id := "run_1", status := .queued, triggerSource := some .schedule,
    initiatorAgentId := some "agent_1" }

def scheduledDb : Db :=
  { runs := ⟨[scheduledRun], by simp⟩,
    agents := .single { id := "agent_1", workspaceType := .temp, maxConcurrency := 1 } }

def execution (stepId : String) : List Event :=
  [.promote host1 "agent_1" 1, .readRow, .resolve false,
    .prepare host1 { id := stepId, runId := "run_1", order := 1, status := .running }]

def crash : List Event := [.die, .startupDecide host1 false, .startupRequeue host1]

theorem requeues_le_maxResumeAttempts_session :
    ∃ t, Runs (step .sqlite "run_1") (DiesCounted "run_1") ⟨scheduledDb, .idle, 0⟩
        (execution "rst_1" ++ .announce (some "session") false :: crash) t ∧
      t.requeues = 1 ∧ t.requeues ≤ maxResumeAttempts := by
  obtain ⟨t, ht, h1⟩ : ∃ t, run (guarded (step .sqlite "run_1") (DiesCounted "run_1"))
      ⟨scheduledDb, .idle, 0⟩ (execution "rst_1" ++ .announce (some "session") false :: crash) =
      some t ∧ t.requeues = 1 :=
    exists_of_run_any (by decide +kernel)
  have h := Runs.of_guarded ht
  exact ⟨t, h, h1, requeues_le_maxResumeAttempts rfl h⟩

theorem requeued_more_than_maxResumeAttempts : ∃ t, run (step .sqlite "run_1") ⟨scheduledDb, .idle, 0⟩
        (execution "rst_1" ++ crash ++ execution "rst_2" ++ crash ++ execution "rst_3" ++ crash ++
          execution "rst_4" ++ crash) = some t ∧
      maxResumeAttempts < t.requeues :=
  exists_of_run_any (by decide +kernel)

end Resume

end A2Wave
