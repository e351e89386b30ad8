import Mathlib.Data.List.Sort
import A2Wave.Lib.JsonText
import A2Wave.Lib.Promise
import A2Wave.Run.ExecutionLease

/-! `runWithLifecycle` of `lib/run-launcher.ts` with the finishers of `lib/run-lifecycle.ts` and the cleanup
boundary of `lib/workspace-cleanup-retry.ts`.  What these await is given by its outcome, so that every one of
them may fail. -/

namespace A2Wave.Launcher

open FinishRun (TerminalTransitionOutcome)
open Promise

inductive Failure
  | error (message : String)
  | workspaceRemovalHandedOff (reservationId : String)
  | workspaceCleanupExhausted (context : String) (cause : Failure)
  deriving DecidableEq

def Failure.message : Failure → String
  | error message => message
  | workspaceRemovalHandedOff reservationId =>
    "Workspace removal handed off to the reconciler: " ++ reservationId
  | workspaceCleanupExhausted context _ =>
    "Workspace cleanup did not succeed within its attempt budget: " ++ context

structure Artifact where
  id : String
  filename : String
  deriving DecidableEq

inductive Effect
  | settled (s : Settlement)
  | recovered (error : String)
  | chatMessage (content : String)
  | chatMessageUpdate (content : String)
  | completeExecutionLease
  | scheduleNext
  | discardRunArtifactsDir
  | sendFeishuReplyByContext (output : Option String)
  | sendNativeChatReplyByContext (output : Option String) (artifacts : List Artifact)
  | notifyRunError (agentName errorMsg : String)
  | generateWorkLog (success : Bool)
  | unregisterLogCollector
  | runJobRetryHook (error : String)
  | emit (stage : String) (outcome : Fields)
  deriving DecidableEq

abbrev Run (α : Type) := Promise Effect Failure α

section Cleanup

def DEFAULT_MAX_ATTEMPTS : Nat := 6

def retryFrom (context : String) (cleanup : Nat → Except Failure Unit) (attempt left : Nat) : Except Failure Unit :=
  match cleanup attempt with
  | .ok () => .ok ()
  | .error (.workspaceRemovalHandedOff reservationId) => .error (.workspaceRemovalHandedOff reservationId)
  | .error error =>
    match left with
    | 0 => .error (.workspaceCleanupExhausted context error)
    | left + 1 => retryFrom context cleanup (attempt + 1) left

def retryWorkspaceCleanup (context : String) (maxAttempts : Nat) (cleanup : Nat → Except Failure Unit) :
    Except Failure Unit :=
  retryFrom context cleanup 1 (max 1 maxAttempts - 1)

def findHandoffSignal : Failure → Option String
  | .workspaceRemovalHandedOff reservationId => some reservationId
  | .workspaceCleanupExhausted _ (.workspaceRemovalHandedOff reservationId) => some reservationId
  | _ => none

def cleanupWorkspaceOrHandOff (context : String) (cleanup : Nat → Except Failure Unit) : Except Failure Unit :=
  match retryWorkspaceCleanup context DEFAULT_MAX_ATTEMPTS cleanup with
  | .ok () => .ok ()
  | .error error =>
    match findHandoffSignal error with
    | some _ => .ok ()
    | none => .error error

end Cleanup

structure FinishRunParams where
  taskId : String
  runId : String
  stepId : String
  agentId : String
  trace : ExecutionTrace := {}
  workDir : Option String := none

def FinishRunParams.hasWorkDir (params : FinishRunParams) : Bool := params.workDir.any (· ≠ "")

structure FinishDeps where
  transition : Except Failure Bool
  recovery : Except Failure Bool
  getRunStatus : Except Failure (Option RunStatus)
  recordUsageOnce : Except Failure Bool
  cancelLateStep : Except Failure Unit
  cleanupWorktreeIfEphemeral : Nat → Except Failure Unit
  loadStepContext : Except Failure (Option Fields)
  insertMessage : Except Failure Unit
  artifactPolicy : Except Failure Unit
  scanAndRegisterArtifacts : Except Failure (List Artifact)
  buildArtifactLinkLines : Except Failure String
  updateMessage : Except Failure Unit
  agentName : Except Failure (Option String)

section Texts

def NATIVE_CHAT_CHANNELS : List String := ["slack", "discord", "telegram", "qq_official"]

def channelType (context : Option Fields) : Option Json :=
  ((context.bind (·.get? "channel")).bind fun channel => channel.get? "channel_type")

def isNativeChatChannel (channel : Option Json) : Bool :=
  NATIVE_CHAT_CHANNELS.any fun name => channel = some (.str name)

/-- `context?.receive_id_type && context?.receive_id`. -/
def hasReceiver (context : Option Fields) : Bool :=
  truthy (context.bind (·.get? "receive_id_type")) && truthy (context.bind (·.get? "receive_id"))

def buildNativeChatFallbackText (runId : String) : String :=
  "⚠️ The Agent did not return usable content. Please try again or inspect the run in a2wave (run_id=" ++ runId ++ ")."

def buildFeishuFallbackText (runId : String) : String :=
  "⚠️ Agent 未返回有效内容，本次执行可能失败。\n请稍后重试，或在 A2Wave 后台查看详情（run_id=" ++ runId ++ "）。"

def fallbackText (context : Option Fields) (runId : String) : String :=
  if isNativeChatChannel (channelType context) then buildNativeChatFallbackText runId
  else buildFeishuFallbackText runId

def appendNativeArtifactDownloadSection (content links : String) : String :=
  content ++ "\n\n---\n**产物下载**\n" ++ links

end Texts

section Finishers

variable (d : FinishDeps) (params : FinishRunParams)

def attemptTerminalTransition (s : Settlement) (recoveryError : String) : Run TerminalTransitionOutcome :=
  try
    let owned ← call d.transition
    if owned then
      perform (.settled s)
      pure .owned
    else pure .lost
  catch _ =>
    try
      let recovered ← call d.recovery
      if recovered then
        perform (.recovered recoveryError)
        pure .recovered
      else pure .lost
    catch _ => pure .lost

def tryRecordUsageOnce : Run Bool :=
  try call d.recordUsageOnce
  catch _ => pure false

def cleanupContext : String :=
  .ofList (JsonText.stringify (fun _ => "") (.obj (.ofList
    [("type", .str "run"), ("runId", .str params.runId), ("agentId", .str params.agentId)])))

def discardRunArtifactsDir : Run Unit :=
  if params.hasWorkDir then perform .discardRunArtifactsDir else pure ()

def cleanupFinishedExecution (shouldScheduleNext : Bool) (keepArtifactsDir : Bool) : Run Unit := do
  call (cleanupWorkspaceOrHandOff (cleanupContext params) d.cleanupWorktreeIfEphemeral)
  perform .completeExecutionLease
  if shouldScheduleNext then perform .scheduleNext
  if keepArtifactsDir then pure () else discardRunArtifactsDir params

def afterLoss : Run Unit := do
  let currentStatus ← call d.getRunStatus
  match currentStatus with
  | some .cancelled =>
    let _ ← tryRecordUsageOnce d
    try call d.cancelLateStep
    finally cleanupFinishedExecution d params false false
  | none =>
    discardRunArtifactsDir params
    perform .completeExecutionLease
  | some .running => cleanupFinishedExecution d params true false
  | some _ => pure ()

def announceArtifacts (context : Option Fields) (result : ExecuteWorkerResult) (content : String)
    (registered : List Artifact) : Run Unit :=
  try
    if registered = [] then
      perform (.sendNativeChatReplyByContext (some content) registered)
    else
      let links ← call d.buildArtifactLinkLines
      let base := if !hasText result.output && isNativeChatChannel (channelType context) then "" else content
      let updated := appendNativeArtifactDownloadSection base links
      call d.updateMessage
      perform (.chatMessageUpdate updated)
      perform (.sendNativeChatReplyByContext (some updated) registered)
  catch _ => pure ()

/-- The side effects of an owned success: the registered artifacts, and whether the run's own directory of
them may go. -/
def postSuccess (result : ExecuteWorkerResult) : Run (List Artifact × Bool) :=
  if result.success then
    try
      let context ← call d.loadStepContext
      let isChatChannel :=
        channelType context = some (.str "feishu") || isNativeChatChannel (channelType context) || hasReceiver context
      let content :=
        if hasText result.output || !isChatChannel then result.output else fallbackText context params.runId
      call d.insertMessage
      perform (.chatMessage content)
      perform (.sendFeishuReplyByContext (some result.output))
      if params.hasWorkDir then
        call d.artifactPolicy
        let scanned ←
          try some <$> call d.scanAndRegisterArtifacts
          catch _ => pure none
        announceArtifacts d context result content (scanned.getD [])
        pure (scanned.getD [], scanned.isSome)
      else
        perform (.sendNativeChatReplyByContext (some content) [])
        pure ([], true)
    catch _ => pure ([], !params.hasWorkDir)
  else pure ([], true)

def finishRunSuccess (result : ExecuteWorkerResult) : Run (List Artifact) := do
  let transitionOutcome ←
    attemptTerminalTransition d (successSettlement result params.trace) (lostOwnership params.stepId)
  match transitionOutcome with
  | .lost =>
    afterLoss d params
    pure []
  | .recovered =>
    let _ ← tryRecordUsageOnce d
    cleanupFinishedExecution d params true false
    pure []
  | .owned =>
    let _ ← tryRecordUsageOnce d
    let (registered, artifactsSecured) ← postSuccess d params result
    cleanupFinishedExecution d params true (!artifactsSecured)
    perform (.generateWorkLog result.success)
    pure registered

structure FinishRunFailureOptions where
  notifyWebhook : Bool
  generateWorklog : Bool

def postFailure (errorMsg : String) (options : FinishRunFailureOptions) : Run Unit :=
  try
    if options.notifyWebhook then
      let context ← call d.loadStepContext
      if isNativeChatChannel (channelType context) then
        call d.insertMessage
        perform (.chatMessage (fallbackText context params.runId))
        perform (.sendNativeChatReplyByContext none [])
      else if hasReceiver context then
        call d.insertMessage
        perform (.chatMessage (fallbackText context params.runId))
        perform (.sendFeishuReplyByContext none)
      let agentName ← call d.agentName
      perform (.notifyRunError (agentName.getD params.agentId) errorMsg)
    if options.generateWorklog then perform (.generateWorkLog false)
  catch _ => pure ()

def finishRunFailure (errorMsg : String) (options : FinishRunFailureOptions) : Run Unit := do
  let transitionOutcome ← attemptTerminalTransition d (failureSettlement errorMsg params.trace) errorMsg
  match transitionOutcome with
  | .lost => afterLoss d params
  | _ =>
    let _ ← tryRecordUsageOnce d
    postFailure d params errorMsg options
    cleanupFinishedExecution d params true false

def publicErrorMsg : String := "Execution failed. Check server logs for details."

def finishRunError (error : Failure) : Run String := do
  finishRunFailure d params error.message { notifyWebhook := true, generateWorklog := true }
  pure publicErrorMsg

end Finishers

section Plugins

/-- A plugin's `onAfterRun` reads the patched outcome and the first one, and may return a patch. -/
structure LifecyclePlugin where
  priority : Option Int := none
  onAfterRun : Option (Fields → Fields → Except Failure (Option (List (String × Option Json)))) := none

def ordered (plugins : List LifecyclePlugin) : List LifecyclePlugin :=
  plugins.insertionSort fun p q => p.priority.getD 100 ≤ q.priority.getD 100

def runTransform (plugins : List LifecyclePlugin) (outcome : Fields) : List (String × Option Json) :=
  (ordered plugins).foldl (fun patches plugin =>
    match plugin.onAfterRun with
    | none => patches
    | some handler =>
      match handler (outcome.writes patches) outcome with
      | .ok (some patch) => patches ++ patch
      | _ => patches) []

def patchedOutcome (plugins : Option (List LifecyclePlugin)) (success : Bool) (outcome : Fields) : Fields :=
  match plugins with
  | some plugins => (outcome.writes (runTransform plugins outcome)).set "success" (.bool success)
  | none => outcome

def emitOutcome (plugins : Option (List LifecyclePlugin)) (stage : String) (outcome : Fields) : Run Unit :=
  if plugins.isSome then perform (.emit stage outcome) else pure ()

end Plugins

structure ExecuteOutcome where
  result : ExecuteWorkerResult
  trace : ExecutionTrace := {}

structure LauncherDeps where
  executeWithRetry : Except Failure ExecuteOutcome
  flush : Except Failure Unit
  finish : FinishDeps
  finishThrown : FinishDeps
  collectorTrace : ExecutionTrace := {}
  durationMs : Nat := 0
  thrownDurationMs : Nat := 0
  /-- `options.plugins`, when there is a context for them. -/
  plugins : Option (List LifecyclePlugin) := none

structure LaunchedRunResult where
  success : Bool
  output : Option Json := none
  chatId : Option Json := none
  error : Option Json := none
  durationMs : Option Json
  artifacts : Option Json := none

section Launcher

variable (d : LauncherDeps) (params : FinishRunParams)

def collectorStop : Run Unit :=
  try call d.flush
  catch _ => pure ()

def artifactRefs (artifacts : List Artifact) : Json :=
  .arr (.ofList (artifacts.map fun a => .obj (.ofList [("id", .str a.id), ("filename", .str a.filename)])))

def failedRun (error : String) (durationMs : Nat) : Run LaunchedRunResult := do
  perform (.runJobRetryHook error)
  let outcome := .ofList [("success", .bool false), ("error", .str error), ("durationMs", .num durationMs)]
  let finalError := patchedOutcome d.plugins false outcome
  emitOutcome d.plugins "onRunFailed" finalError
  pure { success := false, error := finalError.get? "error", durationMs := finalError.get? "durationMs" }

def succeededRun (result : ExecuteWorkerResult) (artifacts : List Artifact) : Run LaunchedRunResult := do
  let outcome := .ofList (optStr result.chatId [("success", .bool true), ("output", .str result.output)] "chatId" ++
    [("durationMs", .num d.durationMs), ("artifacts", artifactRefs artifacts)])
  let finalOutcome := patchedOutcome d.plugins true outcome
  emitOutcome d.plugins "onRunSucceeded" finalOutcome
  pure
    { success := true, output := finalOutcome.get? "output", chatId := finalOutcome.get? "chatId"
      durationMs := some (.num d.durationMs)
      artifacts := finalOutcome.get? "artifacts" }

/-- The `try` block. -/
def launch : Run LaunchedRunResult := do
  let executed ← call d.executeWithRetry
  collectorStop d
  perform .unregisterLogCollector
  let params := { params with trace := { executed.trace with durationMs := d.durationMs } }
  if executed.result.success then
    let artifacts ← finishRunSuccess d.finish params executed.result
    succeededRun d executed.result artifacts
  else
    let engineError := executed.result.error.getD "Execution failed"
    let _ ← finishRunError d.finish params (.error engineError)
    failedRun d engineError d.durationMs

/-- The `catch` block. -/
def launchThrown (error : Failure) : Run LaunchedRunResult := do
  collectorStop d
  perform .unregisterLogCollector
  let params := { params with trace := { d.collectorTrace with durationMs := d.thrownDurationMs } }
  let publicError ← finishRunError d.finishThrown params error
  failedRun d publicError d.thrownDurationMs

def runWithLifecycle : Run LaunchedRunResult :=
  try launch d params
  catch error => launchThrown d params error

end Launcher

section Conditions

def Clears (attempt : Except Failure Unit) : Prop :=
  attempt = .ok () ∨ ∃ reservationId, attempt = .error (.workspaceRemovalHandedOff reservationId)

def CleanupFails (cleanup : Nat → Except Failure Unit) : Prop :=
  ∀ attempt, 1 ≤ attempt → attempt ≤ DEFAULT_MAX_ATTEMPTS → ¬ Clears (cleanup attempt)

variable (d : FinishDeps)

def FinishDeps.Lost : Prop :=
  d.transition = .ok false ∨ (∃ error, d.transition = .error error) ∧ d.recovery ≠ .ok true

/-- What makes a finisher fail: the status that it cannot read after a lost transition, the step of a cancelled
run that it cannot cancel, and the cleanup. -/
def FinishDeps.Fails : Prop :=
  d.Lost ∧ (∃ error, d.getRunStatus = .error error) ∨
  d.Lost ∧ d.getRunStatus = .ok (some .cancelled) ∧ (∃ error, d.cancelLateStep = .error error) ∨
  (¬ d.Lost ∨ d.getRunStatus = .ok (some .cancelled) ∨ d.getRunStatus = .ok (some .running)) ∧
    CleanupFails d.cleanupWorktreeIfEphemeral

end Conditions

section Settles

variable {d : FinishDeps} {params : FinishRunParams} {es : List Effect} {context : String}
  {cleanup : Nat → Except Failure Unit} {attempt left : Nat}

theorem clears_ok : Clears (.ok ()) := .inl rfl

theorem clears_handedOff (reservationId : String) : Clears (.error (.workspaceRemovalHandedOff reservationId)) :=
  .inr ⟨reservationId, rfl⟩

theorem not_clears {error : Failure} (h : ∀ reservationId, error ≠ .workspaceRemovalHandedOff reservationId) :
    ¬ Clears (.error error) := by
  rintro (hok | ⟨reservationId, heq⟩)
  · cases hok
  · exact h reservationId (Except.error.inj heq)

theorem retryFrom_clears : (∃ k, attempt ≤ k ∧ k ≤ attempt + left ∧ Clears (cleanup k)) ↔
    Clears (retryFrom context cleanup attempt left) := by
  induction left generalizing attempt with
  | zero =>
    have hone : (∃ k, attempt ≤ k ∧ k ≤ attempt + 0 ∧ Clears (cleanup k)) ↔ Clears (cleanup attempt) := by
      constructor
      · rintro ⟨k, hle, hge, hclears⟩
        obtain rfl : k = attempt := by omega
        exact hclears
      · exact fun hclears => ⟨attempt, Nat.le_refl _, by omega, hclears⟩
    rw [hone]
    unfold retryFrom
    split
    · rename_i heq
      rw [heq]
    · rename_i heq
      rw [heq]
    · rename_i error hnot heq
      rw [heq]
      exact iff_of_false (not_clears hnot) (not_clears fun _ => nofun)
  | succ left ih =>
    have hfirst : (∃ k, attempt ≤ k ∧ k ≤ attempt + (left + 1) ∧ Clears (cleanup k)) ↔
        Clears (cleanup attempt) ∨ ∃ k, attempt + 1 ≤ k ∧ k ≤ attempt + 1 + left ∧ Clears (cleanup k) := by
      constructor
      · rintro ⟨k, hle, hge, hclears⟩
        by_cases hk : k = attempt
        · subst hk
          exact .inl hclears
        · exact .inr ⟨k, by omega, by omega, hclears⟩
      · rintro (hclears | ⟨k, hle, hge, hclears⟩)
        · exact ⟨attempt, Nat.le_refl _, by omega, hclears⟩
        · exact ⟨k, by omega, by omega, hclears⟩
    rw [hfirst]
    unfold retryFrom
    split
    · rename_i heq
      rw [heq]
      exact iff_of_true (.inl clears_ok) clears_ok
    · rename_i reservationId heq
      rw [heq]
      exact iff_of_true (.inl (clears_handedOff reservationId)) (clears_handedOff reservationId)
    · rename_i error hnot heq
      rw [heq, ih]
      simp [not_clears hnot]

theorem retryFrom_error {error : Failure} (h : retryFrom context cleanup attempt left = .error error) :
    (∃ reservationId, error = .workspaceRemovalHandedOff reservationId) ∨ findHandoffSignal error = none := by
  induction left generalizing attempt with
  | zero =>
    unfold retryFrom at h
    split at h
    · cases h
    · cases h
      exact .inl ⟨_, rfl⟩
    · rename_i last hnot heq
      cases h
      right
      unfold findHandoffSignal
      split
      · rename_i hhanded
        cases hhanded
      · rename_i reservationId hhanded
        injection hhanded with _ hlast
        exact absurd hlast (hnot reservationId)
      · rfl
  | succ left ih =>
    unfold retryFrom at h
    split at h
    · cases h
    · cases h
      exact .inl ⟨_, rfl⟩
    · exact ih h

theorem cleanupWorkspaceOrHandOff_ok (context : String) : (∃ u, cleanupWorkspaceOrHandOff context cleanup = .ok u) ↔
    ¬ CleanupFails cleanup := by
  have hclears : Clears (retryWorkspaceCleanup context DEFAULT_MAX_ATTEMPTS cleanup) ↔ ¬ CleanupFails cleanup := by
    rw [retryWorkspaceCleanup, ← retryFrom_clears]
    constructor
    · rintro ⟨k, hle, hge, hk⟩ hfails
      exact hfails k hle hge hk
    · intro hnot
      by_contra hnone
      exact hnot fun k hle hge hk => hnone ⟨k, hle, hge, hk⟩
  rw [← hclears]
  unfold cleanupWorkspaceOrHandOff
  cases hretry : retryWorkspaceCleanup context DEFAULT_MAX_ATTEMPTS cleanup with
  | ok u => exact iff_of_true ⟨(), rfl⟩ clears_ok
  | error error =>
    dsimp only
    rcases retryFrom_error hretry with ⟨reservationId, rfl⟩ | hnone
    · exact iff_of_true ⟨(), rfl⟩ (clears_handedOff reservationId)
    · rw [hnone]
      refine iff_of_false nofun (not_clears ?_)
      rintro reservationId rfl
      cases hnone

theorem collectorStop_resolves {d : LauncherDeps} : Resolves (collectorStop d) es :=
  resolves_of_contained fun _ _ => resolves_pure

theorem tryRecordUsageOnce_resolves : Resolves (tryRecordUsageOnce d) es :=
  resolves_of_contained fun _ _ => resolves_pure

theorem discardRunArtifactsDir_resolves : Resolves (discardRunArtifactsDir params) es := by
  unfold discardRunArtifactsDir
  split
  · exact resolves_perform _
  · exact resolves_pure

theorem postSuccess_resolves {result : ExecuteWorkerResult} : Resolves (postSuccess d params result) es := by
  unfold postSuccess
  split
  · exact resolves_of_contained fun _ _ => resolves_pure
  · exact resolves_pure

theorem postFailure_resolves {errorMsg : String} {options : FinishRunFailureOptions} :
    Resolves (postFailure d params errorMsg options) es :=
  resolves_of_contained fun _ _ => resolves_pure

theorem attempt_settles (d : FinishDeps) (es : List Effect) (s : Settlement) (recoveryError : String) :
    ∃ outcome, (settle (attemptTerminalTransition d s recoveryError) es).1 = .ok outcome ∧
      (outcome = .lost ↔ d.Lost) := by
  unfold attemptTerminalTransition FinishDeps.Lost
  rw [settle_tryCatch]
  cases htransition : d.transition with
  | ok owned =>
    cases owned with
    | true => exact ⟨.owned, rfl, by simp⟩
    | false => exact ⟨.lost, rfl, by simp⟩
  | error error =>
    rw [settle_bind, settle_call]
    dsimp only
    rw [settle_tryCatch]
    cases hrecovery : d.recovery with
    | ok recovered =>
      cases recovered with
      | true => exact ⟨.recovered, rfl, by simp⟩
      | false => exact ⟨.lost, rfl, by simp⟩
    | error error => exact ⟨.lost, rfl, by simp⟩

theorem cleanupFinished_resolves {next keep : Bool} :
    Resolves (cleanupFinishedExecution d params next keep) es ↔ ¬ CleanupFails d.cleanupWorktreeIfEphemeral := by
  rw [← cleanupWorkspaceOrHandOff_ok (cleanupContext params)]
  unfold cleanupFinishedExecution
  rw [resolves_call_bind]
  refine exists_congr fun _ => and_iff_left ?_
  rw [resolves_perform_bind]
  have hdiscard (s : List Effect) : Resolves (if keep then pure () else discardRunArtifactsDir params) s := by
    split
    · exact resolves_pure
    · exact discardRunArtifactsDir_resolves
  cases next with
  | true => exact resolves_perform_bind.mpr (hdiscard _)
  | false => exact hdiscard _

theorem afterLoss_resolves : Resolves (afterLoss d params) es ↔ ¬ ((∃ error, d.getRunStatus = .error error) ∨
      d.getRunStatus = .ok (some .cancelled) ∧ (∃ error, d.cancelLateStep = .error error) ∨
      (d.getRunStatus = .ok (some .cancelled) ∨ d.getRunStatus = .ok (some .running)) ∧
        CleanupFails d.cleanupWorktreeIfEphemeral) := by
  unfold afterLoss
  rw [resolves_call_bind]
  cases hstatus : d.getRunStatus with
  | error error => simp
  | ok status =>
    simp only [Except.ok.injEq, exists_eq_left', reduceCtorEq, exists_false, false_or]
    split
    · have hcancel (s : List Effect) :
          Resolves (tryFinally (call d.cancelLateStep) (cleanupFinishedExecution d params false false)) s ↔
            (∃ u, d.cancelLateStep = .ok u) ∧ ¬ CleanupFails d.cleanupWorktreeIfEphemeral := by
        rw [resolves_tryFinally, cleanupFinished_resolves, resolves_call]
      rw [resolves_bind_right (fun _ => tryRecordUsageOnce_resolves) fun _ s => hcancel s]
      cases d.cancelLateStep <;> simp
    · rw [resolves_bind_left fun _ _ => resolves_perform _]
      exact iff_of_true discardRunArtifactsDir_resolves (by simp)
    · rw [cleanupFinished_resolves]
      simp
    · rename_i hcancelled hrunning
      refine iff_of_true resolves_pure ?_
      rintro (⟨heq, -⟩ | ⟨heq | heq, -⟩)
      · exact hcancelled (Option.some.inj heq)
      · exact hcancelled (Option.some.inj heq)
      · exact hrunning (Option.some.inj heq)

theorem fails_of_lost (h : d.Lost) : d.Fails ↔ (∃ error, d.getRunStatus = .error error) ∨
      d.getRunStatus = .ok (some .cancelled) ∧ (∃ error, d.cancelLateStep = .error error) ∨
      (d.getRunStatus = .ok (some .cancelled) ∨ d.getRunStatus = .ok (some .running)) ∧
        CleanupFails d.cleanupWorktreeIfEphemeral := by
  simp only [FinishDeps.Fails, h, true_and, not_true_eq_false, false_or]

theorem fails_of_won (h : ¬ d.Lost) : d.Fails ↔ CleanupFails d.cleanupWorktreeIfEphemeral := by
  simp only [FinishDeps.Fails, h, false_and, not_false_eq_true, true_or, true_and, false_or]

theorem finisher_resolves {α : Type} {s : Settlement} {recoveryError : String}
    {f : TerminalTransitionOutcome → Run α}
    (hlost : ∀ s, Resolves (f .lost) s ↔ Resolves (afterLoss d params) s)
    (hwon : ∀ outcome s, outcome ≠ .lost → (Resolves (f outcome) s ↔ ¬ CleanupFails d.cleanupWorktreeIfEphemeral)) :
    Resolves (attemptTerminalTransition d s recoveryError >>= f) es ↔ ¬ d.Fails := by
  obtain ⟨outcome, hsettles, hiff⟩ := attempt_settles d es s recoveryError
  rw [resolves_bind, hsettles]
  simp only [Except.ok.injEq, exists_eq_left']
  by_cases houtcome : outcome = .lost
  · subst houtcome
    rw [hlost, afterLoss_resolves, fails_of_lost (hiff.mp rfl)]
  · rw [hwon outcome _ houtcome, fails_of_won fun h => houtcome (hiff.mpr h)]

theorem finishRunSuccess_resolves {result : ExecuteWorkerResult} :
    Resolves (finishRunSuccess d params result) es ↔ ¬ d.Fails := by
  apply finisher_resolves
  · intro s
    exact resolves_bind_left fun _ _ => resolves_pure
  · intro outcome s hne
    cases outcome with
    | lost => exact absurd rfl hne
    | recovered =>
      refine resolves_bind_right (fun _ => tryRecordUsageOnce_resolves) fun _ s => ?_
      rw [resolves_bind_left fun _ _ => resolves_pure, cleanupFinished_resolves]
    | owned =>
      refine resolves_bind_right (fun _ => tryRecordUsageOnce_resolves) fun _ s => ?_
      refine resolves_bind_right (fun _ => postSuccess_resolves) fun _ s => ?_
      rw [resolves_bind_left, cleanupFinished_resolves]
      intro _ s
      exact resolves_perform_bind.mpr resolves_pure

theorem finishRunFailure_resolves {errorMsg : String} {options : FinishRunFailureOptions} :
    Resolves (finishRunFailure d params errorMsg options) es ↔ ¬ d.Fails := by
  apply finisher_resolves
  · intro s
    rfl
  · intro outcome s hne
    have hwon (s : List Effect) : Resolves (do
        let _ ← tryRecordUsageOnce d
        postFailure d params errorMsg options
        cleanupFinishedExecution d params true false) s ↔ ¬ CleanupFails d.cleanupWorktreeIfEphemeral := by
      refine resolves_bind_right (fun _ => tryRecordUsageOnce_resolves) fun _ s => ?_
      exact resolves_bind_right (fun _ => postFailure_resolves) fun _ s => cleanupFinished_resolves
    cases outcome with
    | lost => exact absurd rfl hne
    | recovered | owned => exact hwon s

theorem finishRunError_resolves {error : Failure} : Resolves (finishRunError d params error) es ↔ ¬ d.Fails := by
  rw [finishRunError, resolves_bind_left fun _ _ => resolves_pure, finishRunFailure_resolves]

end Settles

section Launches

variable {d : LauncherDeps} {params : FinishRunParams} {es : List Effect}

theorem emitOutcome_resolves {plugins : Option (List LifecyclePlugin)} {stage : String} {outcome : Fields} :
    Resolves (emitOutcome plugins stage outcome) es := by
  unfold emitOutcome
  split
  · exact resolves_perform _
  · exact resolves_pure

theorem failedRun_resolves {error : String} {durationMs : Nat} : Resolves (failedRun d error durationMs) es := by
  rw [failedRun, resolves_perform_bind, resolves_bind_left fun _ _ => resolves_pure]
  exact emitOutcome_resolves

theorem succeededRun_resolves {result : ExecuteWorkerResult} {artifacts : List Artifact} :
    Resolves (succeededRun d result artifacts) es := by
  rw [succeededRun, resolves_bind_left fun _ _ => resolves_pure]
  exact emitOutcome_resolves

theorem launch_resolves : Resolves (launch d params) es ↔
    (∃ executed, d.executeWithRetry = .ok executed) ∧ ¬ d.finish.Fails := by
  rw [launch, resolves_call_bind, ← exists_and_right]
  refine exists_congr fun executed => and_congr_right fun _ => ?_
  refine resolves_bind_right (fun _ => collectorStop_resolves) fun _ s => ?_
  rw [resolves_perform_bind]
  dsimp only
  split
  · rw [resolves_bind_left fun _ _ => succeededRun_resolves, finishRunSuccess_resolves]
  · rw [resolves_bind_left fun _ _ => failedRun_resolves, finishRunError_resolves]

theorem launchThrown_resolves {error : Failure} : Resolves (launchThrown d params error) es ↔
    ¬ d.finishThrown.Fails := by
  refine resolves_bind_right (fun _ => collectorStop_resolves) fun _ s => ?_
  rw [resolves_perform_bind, resolves_bind_left fun _ _ => failedRun_resolves, finishRunError_resolves]

end Launches

section Store

variable (host : Host) (w : FinishRun.Weather) (db : Db) (p : FinishRun.FinishRunParams) (s : Settlement)
  (recoveryError : String)

def answered {α : Type} : Option α → Except Failure α
  | some a => .ok a
  | none => .error (.error "query failed")

def FinishDeps.ofWeather (rest : FinishDeps) : FinishDeps :=
  let (transition, left) := withFault w.transition db (terminalTransition host db p.runId p.stepId s)
  let (recovery, _) := withFault w.recovery (w.beforeRecovery left)
    (.ok (runLevelRecovery host (w.beforeRecovery left) p.runId p.stepId recoveryError) : Tx Bool)
  let (_, settledDb) := FinishRun.attemptTerminalTransition host w db p s recoveryError
  { rest with
    transition := answered transition
    recovery := answered recovery
    getRunStatus :=
      if w.getRunStatusFails then answered none
      else .ok (FinishRun.getRunStatus (w.beforeReread settledDb) p.runId)
    cancelLateStep := if w.cancelLateStepFails then answered none else .ok ()
    cleanupWorktreeIfEphemeral := fun _ => if w.cleanupFails then answered none else .ok () }

variable {host w db p s recoveryError} {rest : FinishDeps}

variable (host w db p s recoveryError rest) in
theorem lost_ofWeather : (FinishDeps.ofWeather host w db p s recoveryError rest).Lost ↔
    (FinishRun.attemptTerminalTransition host w db p s recoveryError).1 = .lost := by
  unfold FinishDeps.Lost FinishDeps.ofWeather FinishRun.attemptTerminalTransition
  cases withFault w.transition db (terminalTransition host db p.runId p.stepId s) with
  | mk won left =>
    cases won with
    | some won => cases won <;> simp [answered]
    | none =>
      dsimp only
      cases withFault w.recovery (w.beforeRecovery left)
        (.ok (runLevelRecovery host (w.beforeRecovery left) p.runId p.stepId recoveryError) : Tx Bool) with
      | mk recovered left => rcases recovered with - | (- | -) <;> simp [answered]

variable (host w db p s recoveryError rest) in
theorem cleanupFails_ofWeather :
    CleanupFails (FinishDeps.ofWeather host w db p s recoveryError rest).cleanupWorktreeIfEphemeral ↔
      w.cleanupFails = true := by
  unfold CleanupFails FinishDeps.ofWeather
  dsimp only
  cases w.cleanupFails with
  | true =>
    refine iff_of_true ?_ rfl
    intro attempt _ _
    exact not_clears fun reservationId heq => by cases heq
  | false =>
    refine iff_of_false ?_ Bool.false_ne_true
    intro hfails
    exact hfails 1 (Nat.le_refl 1) (by decide) clears_ok

theorem settle_returned_iff : (FinishRun.settle host w db p s recoveryError).returned = true ↔
    ¬ (FinishDeps.ofWeather host w db p s recoveryError rest).Fails := by
  have hlost := lost_ofWeather host w db p s recoveryError rest
  have hcleanup := cleanupFails_ofWeather host w db p s recoveryError rest
  have hcancel : (∃ error, (FinishDeps.ofWeather host w db p s recoveryError rest).cancelLateStep = .error error) ↔
      w.cancelLateStepFails = true := by
    unfold FinishDeps.ofWeather
    cases w.cancelLateStepFails <;> simp [answered]
  have hstatus : (FinishDeps.ofWeather host w db p s recoveryError rest).getRunStatus =
      if w.getRunStatusFails then answered none
      else .ok (FinishRun.getRunStatus
        (w.beforeReread (FinishRun.attemptTerminalTransition host w db p s recoveryError).2) p.runId) := rfl
  unfold FinishRun.settle
  cases hattempt : FinishRun.attemptTerminalTransition host w db p s recoveryError with
  | mk outcome left =>
    rw [hattempt] at hlost hstatus
    cases outcome with
    | lost =>
      rw [fails_of_lost (hlost.mpr rfl), hcancel, hcleanup, hstatus]
      dsimp only
      unfold FinishRun.afterLoss
      cases w.getRunStatusFails with
      | true => simp [answered]
      | false =>
        simp only [Bool.false_eq_true, if_false, Except.ok.injEq, reduceCtorEq, exists_false, false_or]
        split <;> rename_i hread <;> simp only [hread]
        · cases w.cancelLateStepFails <;> cases hfails : w.cleanupFails <;>
            simp [FinishRun.cleanupFinishedExecution, hfails]
        · simp
        · simp [FinishRun.cleanupFinishedExecution]
        · rename_i status hcancelled hrunning
          refine iff_of_true trivial ?_
          rintro (⟨heq, -⟩ | ⟨heq | heq, -⟩)
          · exact hcancelled (Option.some.inj heq)
          · exact hcancelled (Option.some.inj heq)
          · exact hrunning (Option.some.inj heq)
    | owned | recovered =>
      rw [fails_of_won fun h => absurd (hlost.mp h) (by simp), hcleanup]
      simp [FinishRun.cleanupFinishedExecution]

theorem finishRunSuccess_returned_iff {params : FinishRunParams} {es : List Effect} {result : ExecuteWorkerResult} :
    (FinishRun.finishRunSuccess host w db p result).returned = true ↔
      Resolves (finishRunSuccess (FinishDeps.ofWeather host w db p (successSettlement result p.trace)
        (lostOwnership p.stepId) rest) params result) es := by
  rw [finishRunSuccess_resolves]
  exact settle_returned_iff

theorem finishRunError_returned_iff {params : FinishRunParams} {es : List Effect} {error : Failure} :
    (FinishRun.finishRunError host w db p error.message).returned = true ↔
      Resolves (finishRunError (FinishDeps.ofWeather host w db p (failureSettlement error.message p.trace)
        error.message rest) params error) es := by
  rw [finishRunError_resolves]
  exact settle_returned_iff

end Store

/-- A run's promise rejects exactly when its execution or its finisher fails, and the finisher of the failure
fails too. -/
theorem runWithLifecycle_resolves_iff (d : LauncherDeps) (params : FinishRunParams) :
    Resolves (runWithLifecycle d params) [] ↔
      (∃ executed, d.executeWithRetry = .ok executed) ∧ ¬ d.finish.Fails ∨ ¬ d.finishThrown.Fails := by
  rw [runWithLifecycle, resolves_tryCatch, launch_resolves]
  simp only [launchThrown_resolves]
  constructor
  · rintro (hlaunch | ⟨error, -, hthrown⟩)
    · exact .inl hlaunch
    · exact .inr hthrown
  · rintro (hlaunch | hthrown)
    · exact .inl hlaunch
    · by_cases hlaunch : Resolves (launch d params) []
      · exact .inl (launch_resolves.mp hlaunch)
      · obtain ⟨error, herror⟩ := not_resolves_iff.mp hlaunch
        exact .inr ⟨error, herror, hthrown⟩

def unreachable : FinishDeps where
  transition := .error (.error "connection refused")
  recovery := .error (.error "connection refused")
  getRunStatus := .error (.error "connection refused")
  recordUsageOnce := .error (.error "connection refused")
  cancelLateStep := .error (.error "connection refused")
  cleanupWorktreeIfEphemeral := fun _ => .error (.error "connection refused")
  loadStepContext := .error (.error "connection refused")
  insertMessage := .error (.error "connection refused")
  artifactPolicy := .error (.error "connection refused")
  scanAndRegisterArtifacts := .error (.error "connection refused")
  buildArtifactLinkLines := .error (.error "connection refused")
  updateMessage := .error (.error "connection refused")
  agentName := .error (.error "connection refused")

theorem runWithLifecycle_rejects : (settle (runWithLifecycle
      { executeWithRetry := .error (.error "worker crashed"), flush := .error (.error "connection refused")
        finish := unreachable
        finishThrown := unreachable }
      { taskId := "task_1", runId := "run_1", stepId := "step_1", agentId := "agt_1" }) []).1 =
      .error (.error "connection refused") :=
  rfl

end A2Wave.Launcher
