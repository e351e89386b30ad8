import Mathlib.Data.List.Chain
import Mathlib.Data.List.Rotate
import A2Wave.Lib.Pool
import A2Wave.Lib.Walk
import A2Wave.Run.ErrorPatterns
import A2Wave.Run.Lifecycle

/-! `lib/execute-with-retry.ts`: the calls of one process, which share the fallback that each agent sticks to and
the provider that each chat belongs to.  What a call does between two awaits takes no time. -/

namespace A2Wave.ExecuteWithRetry

open Transition ErrorPatterns

structure ResolvedProviderBinding where
  id : String
  providerId : String
  providerName : String := ""
  deriving DecidableEq

structure StickyProviderFallback where
  bindingId : String
  providerId : String
  expiresAt : Nat
  deriving DecidableEq

structure ChatProviderBinding where
  bindingId : String
  expiresAt : Nat
  deriving DecidableEq

def STICKY_PROVIDER_FALLBACK_TTL_MS : Nat := 30 * 60 * 1000

/-- What `executeWithRetry` reads of the task and of the resolved configuration. -/
structure WorkerTaskPayload where
  runId : Option String := none
  agentId : Option String := none
  providerChain : List ResolvedProviderBinding := []
  chatId : Option String := none
  maxRetries : Option Nat := none
  timeoutMinutes : Option Nat := none
  totalTimeoutMinutes : Option Nat := none
  deriving DecidableEq

structure Attempt where
  providerIndex : Nat
  attempt : Nat
  binding : Option ResolvedProviderBinding
  knownChatBindingId : Option String
  chatId : Option String
  startedAt : Nat
  timeoutMs : Option Nat
  result : Option ExecuteWorkerResult := none
  deriving DecidableEq

structure RetryRecord where
  attempt : Nat
  error : Option String
  durationMs : Nat
  deriving DecidableEq

/-- What a call awaits; the two in the middle are `isRunCancelled` before a fallback and before a retry. -/
inductive Phase
  | isRunCancelled
  | executeInWorker
  | fallback
  | retry
  | sleep (wakeAt : Nat)
  | returned
  | threw
  deriving DecidableEq

structure Call where
  payload : WorkerTaskPayload
  stickyProviderFallback : Option StickyProviderFallback
  deadlineAt : Option Nat
  providerIndex : Nat := 0
  attempt : Nat := 1
  phase : Phase := .isRunCancelled
  resetChatForBindingIds : List String := []
  lastResult : ExecuteWorkerResult := { success := false }
  retries : List RetryRecord := []
  attempts : List Attempt := []
  deriving DecidableEq

structure Process where
  now : Nat := 0
  stickyProviderFallbackByAgentId : String → Option StickyProviderFallback := fun _ => none
  chatBindingByChatId : String → Option ChatProviderBinding := fun _ => none

structure World extends Process where
  calls : List Call := []

structure Choice where
  throws : Bool := false
  cancelled : Bool := false
  result : ExecuteWorkerResult := { success := false }
  backoffMs : Nat := 0

section Process

variable (s : Process)

def pruneExpiredChatBindings : Process :=
  { s with chatBindingByChatId := fun chatId => (s.chatBindingByChatId chatId).filter (s.now < ·.expiresAt) }

def pruneExpiredStickyProviderFallbacks : Process :=
  { s with
    stickyProviderFallbackByAgentId := fun agentId =>
      (s.stickyProviderFallbackByAgentId agentId).filter (s.now < ·.expiresAt) }

/-- `if (!s)`, for a string that may be absent. -/
def present (s : Option String) : Option String := s.filter (· ≠ "")

def getStickyProviderFallback (agentId : Option String) : Option StickyProviderFallback × Process :=
  match present agentId with
  | none => (none, s)
  | some agentId =>
    match s.stickyProviderFallbackByAgentId agentId with
    | none => (none, s)
    | some sticky =>
      if sticky.expiresAt ≤ s.now then
        (none, pruneExpiredChatBindings
          { s with stickyProviderFallbackByAgentId := Function.update s.stickyProviderFallbackByAgentId agentId none })
      else (some sticky, s)

def rememberStickyProviderFallback (agentId : Option String) (binding : ResolvedProviderBinding) : Process :=
  match present agentId with
  | none => s
  | some agentId =>
    let s := pruneExpiredStickyProviderFallbacks s
    { s with
      stickyProviderFallbackByAgentId := Function.update s.stickyProviderFallbackByAgentId agentId
        (some ⟨binding.id, binding.providerId, s.now + STICKY_PROVIDER_FALLBACK_TTL_MS⟩) }

def rememberChatProvider (chatId : Option String) (binding : Option ResolvedProviderBinding) : Process :=
  match present chatId, binding with
  | some chatId, some binding =>
    let s := pruneExpiredChatBindings s
    { s with
      chatBindingByChatId := Function.update s.chatBindingByChatId chatId
        (some ⟨binding.id, s.now + STICKY_PROVIDER_FALLBACK_TTL_MS⟩) }
  | _, _ => s

def getChatBindingId (chatId : String) : Option String × Process :=
  match s.chatBindingByChatId chatId with
  | none => (none, s)
  | some binding =>
    if binding.expiresAt ≤ s.now then
      (none, { s with chatBindingByChatId := Function.update s.chatBindingByChatId chatId none })
    else (some binding.bindingId, s)

end Process

def rotateProviderChainForStickyFallback (providerChain : List ResolvedProviderBinding)
    (sticky : Option StickyProviderFallback) : List ResolvedProviderBinding :=
  match sticky with
  | none => providerChain
  | some sticky =>
    match providerChain.findIdx? (·.id = sticky.bindingId) with
    | none => providerChain
    | some stickyIndex => providerChain.drop stickyIndex ++ providerChain.take stickyIndex

namespace Call

variable (r : Call)

def maxAttempts : Nat := r.payload.maxRetries.getD 2 + 1

def timeoutMs : Option Nat := r.payload.timeoutMinutes.map (· * 60 * 1000)

def providerChain : List ResolvedProviderBinding :=
  rotateProviderChainForStickyFallback r.payload.providerChain r.stickyProviderFallback

def hasProviderFallback : Bool := 1 < r.providerChain.length

def providersToTry : List (Option ResolvedProviderBinding) :=
  if r.hasProviderFallback then r.providerChain.map some else [none]

def providerBinding : Option ResolvedProviderBinding := (r.providersToTry[r.providerIndex]?).join

def isPastDeadline (now : Nat) : Bool := r.deadlineAt.any (· ≤ now)

def resolveWorkerTimeoutMs (now : Nat) : Option Nat :=
  match r.deadlineAt with
  | none => r.timeoutMs
  | some deadlineAt => some (match r.timeoutMs with
    | some timeoutMs => min timeoutMs (deadlineAt - now)
    | none => deadlineAt - now)

def knownChatBindingId (s : Process) : Option String :=
  (present r.payload.chatId).bind fun chatId => (getChatBindingId s chatId).1

def resetChatForStickyProvider (binding : ResolvedProviderBinding) (known : Option String) : Bool :=
  (r.stickyProviderFallback.any (·.bindingId = binding.id)) &&
    r.payload.providerChain.head?.map (·.id) ≠ some binding.id &&
    (present r.payload.chatId).isSome && known.isSome && known ≠ some binding.id

def resetChat (known : Option String) : Bool :=
  r.providerBinding.any fun binding =>
    r.resetChatForBindingIds.contains binding.id || r.resetChatForStickyProvider binding known

def startAttempt (s : Process) : Call :=
  let known := r.knownChatBindingId s
  { r with
    phase := .executeInWorker
    attempts :=
      { providerIndex := r.providerIndex, attempt := r.attempt, binding := r.providerBinding
        knownChatBindingId := known
        chatId := if r.resetChat known then none else r.payload.chatId
        startedAt := s.now
        timeoutMs := r.resolveWorkerTimeoutMs s.now } :: r.attempts }

def enterProvider (i : Nat) : Call :=
  match r.providersToTry[i]? with
  | some binding =>
    { r with
      providerIndex := i
      attempt := 1
      phase := .isRunCancelled
      resetChatForBindingIds := r.resetChatForBindingIds ++ (binding.map (·.id)).toList }
  | none => { r with phase := .returned }

def canFallbackProvider (lower : String → String) (providerIndex : Nat) (error : Option String) : Bool :=
  r.hasProviderFallback && providerIndex + 1 < r.providersToTry.length && isProviderFallbackableError lower error

def described (error : Option String) : Option String :=
  match r.providerBinding with
  | some binding =>
    let name := binding.providerName
    let error := error.getD "Execution failed"
    some s!"[{name}] {error}"
  | none => error

def startedAt : Nat := (r.attempts.head?.map (·.startedAt)).getD 0

def pushRetry (error : Option String) (now : Nat) : Call :=
  { r with retries := r.retries ++ [⟨r.attempt, r.described error, now - r.startedAt⟩] }

def withResult (result : ExecuteWorkerResult) : Call :=
  { r with
    lastResult := result
    attempts := match r.attempts with
      | a :: attempts => { a with result := some result } :: attempts
      | [] => [] }

def overallTimeoutError (error : Option String) : String :=
  let minutes := r.payload.totalTimeoutMinutes.getD 0
  let error := error.getD "execution failed"
  s!"Run exceeded its total timeout of {minutes} minutes (last error: {error})"

def afterFailure (lower : String → String) (now : Nat) : Call :=
  let error := r.lastResult.error
  if r.isPastDeadline now then
    let lastResult := { r.lastResult with error := some (r.overallTimeoutError error) }
    { { r with lastResult := lastResult }.pushRetry lastResult.error now with phase := .returned }
  else if r.canFallbackProvider lower r.providerIndex error then { r with phase := .fallback }
  else
    let r := r.pushRetry error now
    if isPermanentError lower error then { r with phase := .returned }
    else if isHardQuotaError lower error || isCapabilityOrModelError lower error then { r with phase := .returned }
    else if r.attempt < r.maxAttempts then { r with phase := .retry }
    else r.enterProvider (r.providerIndex + 1)

def remember (s : Process) (result : ExecuteWorkerResult) : Process :=
  let s := rememberChatProvider s result.chatId r.providerBinding
  match r.providerBinding with
  | none => s
  | some binding =>
    let s :=
      if r.stickyProviderFallback.any (·.bindingId = binding.id) then
        rememberStickyProviderFallback s r.payload.agentId binding
      else s
    if r.attempt > 1 || r.providerIndex > 0 then rememberStickyProviderFallback s r.payload.agentId binding else s

end Call

def act (lower : String → String) (s : Process) (r : Call) (c : Choice) : Option (Process × Call) :=
  let cancelled := (present r.payload.runId).isSome && c.cancelled
  match r.phase with
  | .isRunCancelled =>
    if c.throws then some (s, { r with phase := .threw })
    else if cancelled || r.isPastDeadline s.now then some (s, { r with phase := .returned })
    else
      let s' := match present r.payload.chatId with
        | some chatId => (getChatBindingId s chatId).2
        | none => s
      some (s', r.startAttempt s)
  | .executeInWorker =>
    if c.throws then some (s, { r with phase := .threw })
    else
      let r := r.withResult c.result
      if c.result.success then some (r.remember s c.result, { r with phase := .returned })
      else some (s, r.afterFailure lower s.now)
  | .fallback =>
    if c.throws then some (s, { r with phase := .threw })
    else if cancelled then some (s, { r with phase := .returned })
    else some (s, r.enterProvider (r.providerIndex + 1))
  | .retry =>
    if c.throws then some (s, { r with phase := .threw })
    else if cancelled then some (s, { r with phase := .returned })
    else if r.deadlineAt.any (· ≤ s.now + c.backoffMs) then some (s, { r with phase := .returned })
    else some (s, { r with phase := .sleep (s.now + c.backoffMs) })
  | .sleep wakeAt =>
    if wakeAt ≤ s.now then some (s, { r with phase := .isRunCancelled, attempt := r.attempt + 1 }) else none
  | .returned => none
  | .threw => none

inductive Event
  | call (payload : WorkerTaskPayload)
  | act (i : Nat) (c : Choice)
  | tick (ms : Nat)

def step (lower : String → String) (w : World) : Event → Option World
  | .call payload =>
    let (sticky, s) := getStickyProviderFallback w.toProcess payload.agentId
    let r : Call :=
      { payload := payload, stickyProviderFallback := sticky
        deadlineAt := payload.totalTimeoutMinutes.map fun minutes => w.now + minutes * 60 * 1000 }
    some { s with calls := w.calls ++ [r] }
  | .act i c =>
    w.calls[i]?.bind fun r =>
      (act lower w.toProcess r c).map fun q => { q.1 with calls := w.calls.set i q.2 }
  | .tick ms => some { w with now := w.now + ms }

section Act

variable {lower : String → String} {s s' : Process} {r r' : Call} {c : Choice}

def startsAttempt (s : Process) (r : Call) (c : Choice) : Bool :=
  r.phase = .isRunCancelled && !c.throws && !((present r.payload.runId).isSome && c.cancelled) &&
    !r.isPastDeadline s.now

theorem act_cases (h : act lower s r c = some (s', r')) :
    (r.phase ≠ .returned ∧ (r' = { r with phase := .returned } ∨ r' = { r with phase := .threw })) ∨
    (startsAttempt s r c = true ∧ r' = r.startAttempt s) ∨
    (r.phase = .executeInWorker ∧ r' = { r.withResult c.result with phase := .returned }) ∨
    (r.phase = .executeInWorker ∧ c.result.success = false ∧ r' = (r.withResult c.result).afterFailure lower s.now) ∨
    (r.phase = .fallback ∧ r' = r.enterProvider (r.providerIndex + 1)) ∨
    (r.phase = .retry ∧ ∃ wakeAt, r' = { r with phase := .sleep wakeAt }) ∨
    (∃ wakeAt, r.phase = .sleep wakeAt ∧ r' = { r with phase := .isRunCancelled, attempt := r.attempt + 1 }) := by
  unfold act at h
  cases hphase : r.phase with
  | isRunCancelled =>
    rw [hphase] at h
    dsimp only at h
    split at h
    · cases h
      exact .inl ⟨nofun, .inr rfl⟩
    rename_i hthrows
    split at h
    · cases h
      exact .inl ⟨nofun, .inl rfl⟩
    · rename_i hgo
      cases h
      rw [Bool.or_eq_true, not_or, Bool.not_eq_true, Bool.not_eq_true] at hgo
      refine .inr (.inl ⟨?_, rfl⟩)
      rw [startsAttempt, hphase, hgo.1, hgo.2, Bool.eq_false_of_not_eq_true hthrows]
      rfl
  | executeInWorker =>
    rw [hphase] at h
    dsimp only at h
    split at h
    · cases h
      exact .inl ⟨nofun, .inr rfl⟩
    split at h
    · cases h
      exact .inr (.inr (.inl ⟨rfl, rfl⟩))
    · rename_i hfailed
      cases h
      exact .inr (.inr (.inr (.inl ⟨rfl, Bool.eq_false_of_not_eq_true hfailed, rfl⟩)))
  | fallback =>
    rw [hphase] at h
    dsimp only at h
    split at h
    · cases h
      exact .inl ⟨nofun, .inr rfl⟩
    split at h
    · cases h
      exact .inl ⟨nofun, .inl rfl⟩
    · cases h
      exact .inr (.inr (.inr (.inr (.inl ⟨rfl, rfl⟩))))
  | retry =>
    rw [hphase] at h
    dsimp only at h
    split at h
    · cases h
      exact .inl ⟨nofun, .inr rfl⟩
    split at h
    · cases h
      exact .inl ⟨nofun, .inl rfl⟩
    split at h
    · cases h
      exact .inl ⟨nofun, .inl rfl⟩
    · cases h
      exact .inr (.inr (.inr (.inr (.inr (.inl ⟨rfl, _, rfl⟩)))))
  | sleep wakeAt =>
    rw [hphase] at h
    dsimp only at h
    split at h
    · cases h
      exact .inr (.inr (.inr (.inr (.inr (.inr ⟨wakeAt, rfl, rfl⟩)))))
    · cases h
  | returned | threw =>
    rw [hphase] at h
    cases h

end Act

namespace Call

def Follows (lower : String → String) (r : Call) (earlier : Attempt) (providerIndex attempt : Nat) : Prop :=
  ∃ result, earlier.result = some result ∧ result.success = false ∧ isPermanentError lower result.error = false ∧
    if r.canFallbackProvider lower earlier.providerIndex result.error then
      providerIndex = earlier.providerIndex + 1 ∧ attempt = 1
    else isHardQuotaError lower result.error = false ∧ isCapabilityOrModelError lower result.error = false ∧
      if earlier.attempt < r.maxAttempts then providerIndex = earlier.providerIndex ∧ attempt = earlier.attempt + 1
      else providerIndex = earlier.providerIndex + 1 ∧ attempt = 1

def Ends (lower : String → String) (r : Call) (a : Attempt) (result : ExecuteWorkerResult) : Prop :=
  result.success = true ∨ isPermanentError lower result.error = true ∨
    r.canFallbackProvider lower a.providerIndex result.error = false ∧
      (isHardQuotaError lower result.error = true ∨ isCapabilityOrModelError lower result.error = true)

structure WithinBudget (maxAttempts : Nat) (timeoutMs deadlineAt : Option Nat) (a : Attempt) : Prop where
  attempt : a.attempt ≤ maxAttempts
  timeout : ∀ limit, timeoutMs = some limit → ∃ t, a.timeoutMs = some t ∧ t ≤ limit
  deadline : ∀ deadline, deadlineAt = some deadline →
    a.startedAt < deadline ∧ ∃ t, a.timeoutMs = some t ∧ t ≤ deadline - a.startedAt

structure Walked (lower : String → String) (r : Call) : Prop where
  first : ∀ a ∈ r.attempts.getLast?, a.providerIndex = 0 ∧ a.attempt = 1
  chain : r.attempts.IsChain fun later earlier => r.Follows lower earlier later.providerIndex later.attempt
  binding : ∀ a ∈ r.attempts, r.providersToTry[a.providerIndex]? = some a.binding
  budget : ∀ a ∈ r.attempts, WithinBudget r.maxAttempts r.timeoutMs r.deadlineAt a

structure Next (lower : String → String) (r : Call) (providerIndex attempt : Nat) : Prop where
  provider : providerIndex < r.providersToTry.length
  budget : attempt ≤ r.maxAttempts
  first : r.attempts = [] → providerIndex = 0 ∧ attempt = 1
  follows : ∀ a ∈ r.attempts.head?, r.Follows lower a providerIndex attempt

def Awaits (lower : String → String) (r : Call) : Prop :=
  match r.phase with
  | .isRunCancelled => r.Next lower r.providerIndex r.attempt
  | .executeInWorker =>
    ∃ a, r.attempts.head? = some a ∧ a.providerIndex = r.providerIndex ∧ a.attempt = r.attempt ∧ a.result = none
  | .fallback => r.Next lower (r.providerIndex + 1) 1
  | .retry => r.Next lower r.providerIndex (r.attempt + 1)
  | .sleep _ => r.Next lower r.providerIndex (r.attempt + 1)
  | .returned => True
  | .threw => True

structure Inv (lower : String → String) (r : Call) : Prop extends Walked lower r where
  awaits : r.Awaits lower
  ended : ∀ a ∈ r.attempts.head?, ∀ result, a.result = some result → r.Ends lower a result → r.phase = .returned

structure Same (r r' : Call) : Prop where
  payload : r'.payload = r.payload
  sticky : r'.stickyProviderFallback = r.stickyProviderFallback
  deadlineAt : r'.deadlineAt = r.deadlineAt
  attempts : r'.attempts = r.attempts

section Lemmas

variable {lower : String → String} {r r' : Call} {a : Attempt} {i n : Nat} {result : ExecuteWorkerResult}

theorem Same.walked (h : Same r r') (hr : r.Walked lower) : r'.Walked lower := by
  obtain ⟨payload, sticky, deadlineAt, _, _, _, _, _, _, attempts⟩ := r
  obtain ⟨payload', sticky', deadlineAt', _, _, _, _, _, _, attempts'⟩ := r'
  obtain ⟨rfl, rfl, rfl, rfl⟩ := h
  exact ⟨hr.first, hr.chain, hr.binding, hr.budget⟩

theorem Same.next (h : Same r r') (hr : r.Next lower i n) : r'.Next lower i n := by
  obtain ⟨payload, sticky, deadlineAt, _, _, _, _, _, _, attempts⟩ := r
  obtain ⟨payload', sticky', deadlineAt', _, _, _, _, _, _, attempts'⟩ := r'
  obtain ⟨rfl, rfl, rfl, rfl⟩ := h
  exact ⟨hr.provider, hr.budget, hr.first, hr.follows⟩

theorem Same.ends (h : Same r r') (hr : r'.Ends lower a result) : r.Ends lower a result := by
  obtain ⟨payload, sticky, deadlineAt, _, _, _, _, _, _, attempts⟩ := r
  obtain ⟨payload', sticky', deadlineAt', _, _, _, _, _, _, attempts'⟩ := r'
  obtain ⟨rfl, rfl, rfl, rfl⟩ := h
  exact hr

theorem Follows.not_ends (h : r.Follows lower a i n) (hresult : a.result = some result) : ¬r.Ends lower a result := by
  obtain ⟨result', heq, hfailed, hpermanent, hnext⟩ := h
  obtain rfl : result = result' := Option.some.inj (hresult.symm.trans heq)
  rintro (hsuccess | hperm | ⟨hfallback, hclass⟩)
  · rw [hfailed] at hsuccess
    cases hsuccess
  · rw [hpermanent] at hperm
    cases hperm
  · rw [if_neg (by simp [hfallback])] at hnext
    obtain ⟨hquota, hcapability, -⟩ := hnext
    rw [hquota, hcapability] at hclass
    obtain hclass | hclass := hclass <;> cases hclass

theorem Inv.move (h : r.Inv lower) (hsame : Same r r') (hphase : r.phase ≠ .returned) (hawaits : r'.Awaits lower) :
    r'.Inv lower := by
  refine { hsame.walked h.toWalked with awaits := hawaits, ended := ?_ }
  intro a ha result hresult hends
  rw [hsame.attempts] at ha
  exact absurd (h.ended a ha result hresult (hsame.ends hends)) hphase

theorem Inv.continues (h : r.Inv lower) (hphase : r.phase ≠ .returned) (hsame : Same r r') (hnext : r.Next lower i n)
    (hawaits : r'.Next lower i n → r'.Awaits lower) : r'.Inv lower :=
  h.move hsame hphase (hawaits (hsame.next hnext))

theorem Walked.returned (h : r.Walked lower) (hsame : Same r r') (hphase : r'.phase = .returned) : r'.Inv lower := by
  refine { hsame.walked h with awaits := ?_, ended := fun _ _ _ _ _ => hphase }
  rw [Awaits, hphase]
  trivial

theorem Walked.continues (h : r.Walked lower) (ha : r.attempts.head? = some a) (hsame : Same r r')
    (hnext : r.Next lower i n) (hawaits : r'.Next lower i n → r'.Awaits lower) : r'.Inv lower := by
  refine { hsame.walked h with awaits := hawaits (hsame.next hnext), ended := ?_ }
  intro b hb result hresult hends
  rw [hsame.attempts, ha] at hb
  obtain rfl := Option.some.inj hb
  exact absurd (hsame.ends hends) ((hnext.follows _ ha).not_ends hresult)

theorem Inv.threw (h : r.Inv lower) (hphase : r.phase ≠ .returned) : { r with phase := .threw }.Inv lower :=
  h.move ⟨rfl, rfl, rfl, rfl⟩ hphase trivial

theorem withinBudget_startAttempt {s : Process} (hbudget : r.attempt ≤ r.maxAttempts)
    (hdeadline : r.isPastDeadline s.now = false) (ha : a ∈ (r.startAttempt s).attempts.head?) :
    WithinBudget r.maxAttempts r.timeoutMs r.deadlineAt a := by
  obtain rfl := Option.some.inj ha
  refine ⟨hbudget, ?_, ?_⟩
  · intro limit htimeout
    simp only [resolveWorkerTimeoutMs, htimeout]
    cases r.deadlineAt with
    | none => exact ⟨limit, rfl, le_rfl⟩
    | some deadline => exact ⟨_, rfl, min_le_left _ _⟩
  · intro deadline hat
    rw [isPastDeadline, hat, Option.any_some, decide_eq_false_iff_not, not_le] at hdeadline
    refine ⟨hdeadline, ?_⟩
    simp only [resolveWorkerTimeoutMs, hat]
    cases r.timeoutMs with
    | none => exact ⟨_, rfl, le_rfl⟩
    | some timeoutMs => exact ⟨_, rfl, min_le_right _ _⟩

theorem binding_of_lt (h : r.providerIndex < r.providersToTry.length) :
    r.providersToTry[r.providerIndex]? = some r.providerBinding := by
  rw [providerBinding, List.getElem?_eq_getElem h]
  rfl

theorem Inv.startAttempt {s : Process} (h : r.Inv lower) (hphase : r.phase = .isRunCancelled)
    (hdeadline : r.isPastDeadline s.now = false) : (r.startAttempt s).Inv lower := by
  have hnext := h.awaits
  rw [Awaits, hphase] at hnext
  refine { first := ?_, chain := ?_, binding := ?_, budget := ?_, awaits := ⟨_, rfl, rfl, rfl, rfl⟩, ended := ?_ }
  · intro a ha
    cases hattempts : r.attempts with
    | nil =>
      rw [Call.startAttempt, hattempts] at ha
      obtain rfl := Option.some.inj ha
      exact hnext.first hattempts
    | cons b attempts =>
      rw [Call.startAttempt, List.getLast?_cons, hattempts, List.getLast?_cons] at ha
      apply h.first a
      rw [hattempts, List.getLast?_cons]
      exact ha
  · apply List.IsChain.cons h.chain
    intro a ha
    exact hnext.follows a ha
  · intro a ha
    obtain rfl | ha := List.mem_cons.mp ha
    · exact binding_of_lt hnext.provider
    · exact h.binding a ha
  · intro a ha
    obtain rfl | ha := List.mem_cons.mp ha
    · exact withinBudget_startAttempt hnext.budget hdeadline rfl
    · exact h.budget a ha
  · intro a ha result hresult
    obtain rfl := Option.some.inj ha
    cases hresult

theorem Inv.withResult (result : ExecuteWorkerResult) (h : r.Inv lower) (hphase : r.phase = .executeInWorker) :
    (r.withResult result).Walked lower ∧ ∃ a, (r.withResult result).attempts.head? = some a ∧
      a.providerIndex = r.providerIndex ∧ a.attempt = r.attempt ∧ a.result = some result := by
  have hawaits := h.awaits
  rw [Awaits, hphase] at hawaits
  obtain ⟨a, ha, hindex, hattempt, -⟩ := hawaits
  obtain ⟨attempts, hattempts⟩ := List.head?_eq_some_iff.mp ha
  have hresult : (r.withResult result).attempts = { a with result := some result } :: attempts := by
    rw [Call.withResult, hattempts]
  obtain ⟨hfirst, hchain, hbinding, hbudget⟩ := h.toWalked
  rw [hattempts] at hfirst hchain hbinding hbudget
  refine ⟨⟨?_, ?_, ?_, ?_⟩, { a with result := some result }, ?_, hindex, hattempt, rfl⟩
  · rw [hresult]
    cases attempts with
    | nil =>
      intro b hb
      obtain rfl := Option.some.inj hb
      exact hfirst a rfl
    | cons b attempts =>
      rw [List.getLast?_cons_cons]
      rw [List.getLast?_cons_cons] at hfirst
      exact hfirst
  · rw [hresult]
    cases attempts with
    | nil => exact .singleton _
    | cons b attempts =>
      rw [List.isChain_cons_cons] at hchain ⊢
      exact hchain
  · rw [hresult]
    rw [List.forall_mem_cons] at hbinding ⊢
    exact hbinding
  · rw [hresult]
    rw [List.forall_mem_cons] at hbudget ⊢
    exact ⟨⟨hbudget.1.attempt, hbudget.1.timeout, hbudget.1.deadline⟩, hbudget.2⟩
  · rw [hresult]
    rfl

theorem Walked.afterFailure {now : Nat} (h : r.Walked lower) (ha : r.attempts.head? = some a)
    (hindex : a.providerIndex = r.providerIndex) (hattempt : a.attempt = r.attempt)
    (hresult : a.result = some r.lastResult) (hfailed : r.lastResult.success = false) :
    (r.afterFailure lower now).Inv lower := by
  have hmem := List.mem_of_mem_head? ha
  have hlt : r.providerIndex < r.providersToTry.length := by
    rw [← hindex]
    exact (List.getElem?_eq_some_iff.mp (h.binding a hmem)).1
  have hne : r.attempts ≠ [] := List.ne_nil_of_mem hmem
  have hnext {i n : Nat} (hi : i < r.providersToTry.length) (hn : n ≤ r.maxAttempts) (hf : r.Follows lower a i n) :
      r.Next lower i n := by
    refine ⟨hi, hn, fun hnil => absurd hnil hne, ?_⟩
    intro b hb
    rw [ha] at hb
    obtain rfl := Option.some.inj hb
    exact hf
  unfold Call.afterFailure
  dsimp only
  split
  · exact h.returned ⟨rfl, rfl, rfl, rfl⟩ rfl
  split
  · rename_i hcan
    have hfollows : r.Follows lower a (r.providerIndex + 1) 1 := by
      have hcan' := hcan
      rw [canFallbackProvider, Bool.and_eq_true] at hcan'
      refine ⟨r.lastResult, hresult, hfailed, not_permanent_of_fallbackable hcan'.2, ?_⟩
      rw [hindex, if_pos hcan]
      exact ⟨rfl, rfl⟩
    refine h.continues ha ⟨rfl, rfl, rfl, rfl⟩ (hnext ?_ (Nat.le_add_left 1 _) hfollows) id
    rw [canFallbackProvider, Bool.and_eq_true, Bool.and_eq_true, decide_eq_true_eq] at hcan
    exact hcan.1.2
  rename_i hcan
  split
  · exact h.returned ⟨rfl, rfl, rfl, rfl⟩ rfl
  rename_i hpermanent
  split
  · exact h.returned ⟨rfl, rfl, rfl, rfl⟩ rfl
  rename_i hclass
  rw [Bool.not_eq_true] at hpermanent hcan
  rw [Bool.not_eq_true, Bool.or_eq_false_iff] at hclass
  have hfollows {i n : Nat} (h : if r.attempt < r.maxAttempts then i = r.providerIndex ∧ n = r.attempt + 1
      else i = r.providerIndex + 1 ∧ n = 1) : r.Follows lower a i n := by
    refine ⟨r.lastResult, hresult, hfailed, hpermanent, ?_⟩
    rw [hindex, hattempt, hcan, if_neg Bool.false_ne_true]
    exact ⟨hclass.1, hclass.2, h⟩
  split
  · rename_i hretry
    have hf : r.Follows lower a r.providerIndex (r.attempt + 1) := by
      apply hfollows
      rw [if_pos (show r.attempt < r.maxAttempts from hretry)]
      exact ⟨rfl, rfl⟩
    exact h.continues ha ⟨rfl, rfl, rfl, rfl⟩ (hnext hlt hretry hf) id
  · rename_i hspent
    have hf : r.Follows lower a (r.providerIndex + 1) 1 := by
      apply hfollows
      rw [if_neg (show ¬r.attempt < r.maxAttempts from hspent)]
      exact ⟨rfl, rfl⟩
    unfold enterProvider
    split
    · rename_i binding hbinding
      have hlt := (List.getElem?_eq_some_iff.mp hbinding).1
      exact h.continues ha ⟨rfl, rfl, rfl, rfl⟩ (hnext hlt (Nat.le_add_left 1 _) hf) id
    · exact h.returned ⟨rfl, rfl, rfl, rfl⟩ rfl

theorem Inv.enterProvider (h : r.Inv lower) (hphase : r.phase = .fallback) :
    (r.enterProvider (r.providerIndex + 1)).Inv lower := by
  have hnext := h.awaits
  rw [Awaits, hphase] at hnext
  dsimp only at hnext
  unfold Call.enterProvider
  split
  · exact h.continues (by rw [hphase]; nofun) ⟨rfl, rfl, rfl, rfl⟩ hnext id
  · exact h.toWalked.returned ⟨rfl, rfl, rfl, rfl⟩ rfl

theorem Inv.act {s s' : Process} {c : Choice} (h : r.Inv lower) (hact : act lower s r c = some (s', r')) :
    r'.Inv lower := by
  have hawaits := h.awaits
  obtain ⟨hphase, rfl | rfl⟩ | ⟨hstarts, rfl⟩ | ⟨hphase, rfl⟩ | ⟨hphase, hfailed, rfl⟩ | ⟨hphase, rfl⟩ |
    ⟨hphase, wakeAt, rfl⟩ | ⟨wakeAt, hphase, rfl⟩ := act_cases hact
  · exact h.toWalked.returned ⟨rfl, rfl, rfl, rfl⟩ rfl
  · exact h.threw hphase
  · simp only [startsAttempt, Bool.and_eq_true, Bool.not_eq_true', decide_eq_true_eq] at hstarts
    exact h.startAttempt hstarts.1.1.1 hstarts.2
  · exact (h.withResult c.result hphase).1.returned ⟨rfl, rfl, rfl, rfl⟩ rfl
  · obtain ⟨hwalked, a, ha, hindex, hattempt, hresult⟩ := h.withResult c.result hphase
    exact hwalked.afterFailure ha hindex hattempt hresult hfailed
  · exact h.enterProvider hphase
  · rw [Awaits, hphase] at hawaits
    exact h.continues (by rw [hphase]; nofun) ⟨rfl, rfl, rfl, rfl⟩ hawaits id
  · rw [Awaits, hphase] at hawaits
    exact h.continues (by rw [hphase]; nofun) ⟨rfl, rfl, rfl, rfl⟩ hawaits id

theorem providersToTry_pos : 0 < r.providersToTry.length := by
  unfold providersToTry
  split
  · rename_i hfallback
    rw [hasProviderFallback, decide_eq_true_eq] at hfallback
    rw [List.length_map]
    exact Nat.lt_of_succ_lt hfallback
  · exact Nat.one_pos

theorem Inv.init (payload : WorkerTaskPayload) (sticky : Option StickyProviderFallback) (deadlineAt : Option Nat) :
    Inv lower { payload := payload, stickyProviderFallback := sticky, deadlineAt := deadlineAt } where
  first a ha := absurd ha (Option.not_mem_none a)
  chain := .nil
  binding _ ha := absurd ha List.not_mem_nil
  budget _ ha := absurd ha List.not_mem_nil
  awaits := ⟨providersToTry_pos, Nat.le_add_left 1 _, fun _ => ⟨rfl, rfl⟩,
    fun a ha => absurd ha (Option.not_mem_none a)⟩
  ended a ha := absurd ha (Option.not_mem_none a)

theorem providerChain_isRotated (r : Call) : r.providerChain ~r r.payload.providerChain := by
  unfold providerChain rotateProviderChainForStickyFallback
  cases r.stickyProviderFallback with
  | none => exact .refl _
  | some sticky =>
    dsimp only
    split
    · exact .refl _
    · rename_i stickyIndex hfind
      have hlt := (List.findIdx?_eq_some_iff_getElem.mp hfind).1
      rw [← List.rotate_eq_drop_append_take hlt.le]
      exact .symm ⟨stickyIndex, rfl⟩

theorem length_providersToTry (r : Call) : r.providersToTry.length = max 1 r.payload.providerChain.length := by
  rw [← (providerChain_isRotated r).perm.length_eq]
  unfold providersToTry hasProviderFallback
  split
  · rename_i hfallback
    rw [decide_eq_true_eq] at hfallback
    rw [List.length_map, max_eq_right hfallback.le]
  · rename_i hsingle
    rw [decide_eq_true_eq, not_lt] at hsingle
    rw [List.length_singleton, max_eq_left hsingle]

theorem Walked.walk (h : r.Walked lower) :
    Walk r.maxAttempts (r.attempts.map fun a => (a.providerIndex, a.attempt)) := by
  obtain ⟨hfirst, hchain, -, hbudget⟩ := h
  generalize r.attempts = attempts at hfirst hchain hbudget
  induction attempts with
  | nil => exact .nil
  | cons a attempts ih =>
    cases attempts with
    | nil =>
      obtain ⟨hindex, hattempt⟩ := hfirst a rfl
      rw [List.map_singleton, hindex, hattempt]
      exact .start (Nat.le_add_left 1 _)
    | cons b attempts =>
      rw [List.isChain_cons_cons] at hchain
      have hwalk := ih (by rwa [List.getLast?_cons_cons] at hfirst) hchain.2 fun c hc => hbudget c (.tail a hc)
      have hle := (hbudget a (.head _)).attempt
      obtain ⟨result, -, -, -, hnext⟩ := hchain.1
      rw [List.map_cons] at hwalk ⊢
      rw [List.map_cons]
      split at hnext
      · rw [hnext.1, hnext.2]
        exact .next (Nat.le_add_left 1 _) hwalk
      · obtain ⟨-, -, hnext⟩ := hnext
        split at hnext
        · rw [hnext.1, hnext.2]
          rw [hnext.2] at hle
          exact .again hle hwalk
        · rw [hnext.1, hnext.2]
          exact .next (Nat.le_add_left 1 _) hwalk

end Lemmas

end Call

section Runs

variable {lower : String → String} {w w' : World}

theorem step_calls {P : Call → Prop} {e : Event}
    (hnew : ∀ payload sticky deadlineAt,
      P { payload := payload, stickyProviderFallback := sticky, deadlineAt := deadlineAt })
    (hact : ∀ i c r s' r', e = .act i c → w.calls[i]? = some r → P r → act lower w.toProcess r c = some (s', r') → P r')
    (h : ∀ r ∈ w.calls, P r) (hstep : step lower w e = some w') : ∀ r ∈ w'.calls, P r := by
  cases e with
  | call payload =>
    obtain rfl := Option.some.inj hstep
    intro r hr
    obtain hr | hr := List.mem_append.mp hr
    · exact h r hr
    · rw [List.mem_singleton.mp hr]
      exact hnew _ _ _
  | act i c =>
    obtain ⟨r, hr, hstep⟩ := Option.bind_eq_some_iff.mp hstep
    obtain ⟨⟨s', r'⟩, ha, rfl⟩ := Option.map_eq_some_iff.mp hstep
    intro u hu
    obtain hu | rfl := List.mem_or_eq_of_mem_set hu
    · exact h u hu
    · exact hact i c r s' u rfl hr (h r (List.mem_of_getElem? hr)) ha
  | tick ms =>
    obtain rfl := Option.some.inj hstep
    exact h

theorem step_inv {e : Event} (h : ∀ r ∈ w.calls, r.Inv lower) (hstep : step lower w e = some w') :
    ∀ r ∈ w'.calls, r.Inv lower :=
  step_calls Call.Inv.init (fun _ _ _ _ _ _ _ hr hact => hr.act hact) h hstep

/-- From any state of the maps, every call walks its rotated chain within its budget. -/
theorem providers_are_walked {p : Process} {es : List Event} {r : Call}
    (h : run (step lower) { p with calls := [] } es = some w) (hr : r ∈ w.calls) :
    r.providerChain ~r r.payload.providerChain ∧ r.Walked lower ∧
      r.attempts.Pairwise (fun later earlier => earlier.providerIndex ≤ later.providerIndex) ∧
      (∀ i, r.attempts.countP (·.providerIndex = i) ≤ r.maxAttempts) ∧
      r.attempts.length ≤ r.maxAttempts * max 1 r.payload.providerChain.length ∧
      ∀ a ∈ r.attempts.head?, ∀ result, a.result = some result → r.Ends lower a result → r.phase = .returned := by
  have hinv : ∀ r ∈ w.calls, r.Inv lower :=
    (runs_free_iff.mpr h).invariant (I := fun w => ∀ r ∈ w.calls, r.Inv lower)
      (fun _ _ _ _ h hstep => step_inv h hstep) fun _ hr => absurd hr List.not_mem_nil
  have hr := hinv r hr
  have hwalk := hr.walk
  refine ⟨Call.providerChain_isRotated r, hr.toWalked, ?_, ?_, ?_, hr.ended⟩
  · exact List.pairwise_map.mp hwalk.pairwise
  · intro i
    have hcount := hwalk.countP_le i
    rw [List.countP_map] at hcount
    exact hcount
  · rw [← Call.length_providersToTry]
    have hlength := hwalk.length_le_mul (n := r.providersToTry.length) (by
      rw [List.forall_mem_map]
      intro a ha
      exact (List.getElem?_eq_some_iff.mp (hr.binding a ha)).1)
    rwa [List.length_map] at hlength

end Runs

section Examples

def exampleChain : List ResolvedProviderBinding := [{ id := "a", providerId := "pa" }, { id := "b", providerId := "pb" }]

def exampleFallback : List Event :=
  [.call { agentId := some "agent", providerChain := exampleChain, totalTimeoutMinutes := some 1 }, .act 0 {},
    .act 0 { result := { success := false, error := some "quota exceeded" } }, .act 0 {}, .act 0 {},
    .act 0 { result := { success := true } }]

def exampleProcess : Process :=
  { stickyProviderFallbackByAgentId := fun agentId => if agentId = "agent" then some ⟨"b", "pb", 1000⟩ else none }

theorem providers_are_walked_fallback : ∃ w r,
    run (step id) { exampleProcess with calls := [] } exampleFallback = some w ∧ r ∈ w.calls ∧
      r.attempts.map (·.binding.map (·.id)) = [some "a", some "b"] ∧ r.attempts.length ≤ 3 * 2 := by
  obtain ⟨w, hw, hcalls⟩ : ∃ w, run (step id) { exampleProcess with calls := [] } exampleFallback = some w ∧
      (w.calls.map fun r => (r.attempts.map (·.binding.map (·.id)), r.maxAttempts, r.payload.providerChain.length)) =
        [([some "a", some "b"], 3, 2)] := exists_of_run_any (by decide +kernel)
  obtain ⟨r, hr, heq⟩ := List.map_eq_singleton_iff.mp hcalls
  rw [Prod.mk.injEq, Prod.mk.injEq] at heq
  obtain ⟨hbinding, hmax, hlength⟩ := heq
  have hmem : r ∈ w.calls := by
    rw [hr]
    exact List.mem_singleton_self r
  have htotal := (providers_are_walked hw hmem).2.2.2.2.1
  rw [hmax, hlength] at htotal
  exact ⟨w, r, hw, hmem, hbinding, htotal⟩

theorem attempts_exceed_empty_chain :
    ¬∀ (lower : String → String) (p : Process) (es : List Event) (w : World) (r : Call),
    run (step lower) { p with calls := [] } es = some w → r ∈ w.calls →
      r.attempts.length ≤ r.maxAttempts * r.payload.providerChain.length := by
  intro h
  obtain ⟨w, hw, hcalls⟩ : ∃ w, run (step id) { ({} : Process) with calls := [] } [.call {}, .act 0 {}] = some w ∧
      (w.calls.map fun r => (r.attempts.length, r.payload.providerChain.length)) = [(1, 0)] :=
    exists_of_run_any (by decide +kernel)
  obtain ⟨r, hr, heq⟩ := List.map_eq_singleton_iff.mp hcalls
  have hle := h id {} _ w r hw (by rw [hr]; exact List.mem_singleton_self r)
  rw [(Prod.mk.inj heq).1, (Prod.mk.inj heq).2] at hle
  exact absurd hle (Nat.not_succ_le_zero 0)

end Examples

def Attempt.ClearsOther (a : Attempt) : Prop :=
  ∀ binding known, a.binding = some binding → a.knownChatBindingId = some known → known ≠ binding.id → a.chatId = none

namespace Call

def carriesChat (s : Process) (r : Call) : Bool :=
  r.providerIndex = 0 && r.providerBinding.any fun binding =>
    r.payload.providerChain.head?.map (·.id) = some binding.id && (r.knownChatBindingId s).any (· ≠ binding.id)

structure Marked (r : Call) : Prop where
  first : r.providerIndex = 0 → r.resetChatForBindingIds = []
  later : 0 < r.providerIndex → ∀ binding, r.providerBinding = some binding → binding.id ∈ r.resetChatForBindingIds

section Chat

variable {lower : String → String} {s s' : Process} {r r' : Call} {c : Choice}

theorem sticky_of_rotated {binding : ResolvedProviderBinding} (hbinding : r.providerBinding = some binding)
    (hindex : r.providerIndex = 0) (hhead : r.payload.providerChain.head?.map (·.id) ≠ some binding.id) :
    r.stickyProviderFallback.any (·.bindingId = binding.id) = true := by
  have hfirst : r.providerChain[0]? = some binding := by
    rw [providerBinding, hindex, providersToTry] at hbinding
    split at hbinding
    · rw [List.getElem?_map] at hbinding
      cases hchain : r.providerChain[0]? with
      | none =>
        rw [hchain] at hbinding
        cases hbinding
      | some first =>
        rw [hchain] at hbinding
        exact hbinding
    · cases hbinding
  -- a chain that begins as it was configured is none of the cases
  have hraw : r.providerChain ≠ r.payload.providerChain := by
    intro heq
    rw [heq, ← List.head?_eq_getElem?] at hfirst
    rw [hfirst] at hhead
    exact hhead rfl
  unfold providerChain rotateProviderChainForStickyFallback at hfirst hraw
  cases hsticky : r.stickyProviderFallback with
  | none =>
    rw [hsticky] at hraw
    exact absurd rfl hraw
  | some sticky =>
    rw [hsticky] at hfirst hraw
    dsimp only at hfirst hraw
    split at hfirst
    · rename_i hfind
      rw [hfind] at hraw
      exact absurd rfl hraw
    · rename_i stickyIndex hfind
      obtain ⟨hlt, hid, -⟩ := List.findIdx?_eq_some_iff_getElem.mp hfind
      rw [List.getElem?_append_left (by rw [List.length_drop]; omega), List.getElem?_drop, Nat.add_zero,
        List.getElem?_eq_getElem hlt, Option.some.injEq] at hfirst
      rw [← hfirst, Option.any_some]
      simpa [eq_comm] using hid

theorem chatId_of_known {known : String} (h : r.knownChatBindingId s = some known) :
    (present r.payload.chatId).isSome = true ∧ r.payload.chatId ≠ none := by
  unfold knownChatBindingId at h
  obtain ⟨chatId, hchat, -⟩ := Option.bind_eq_some_iff.mp h
  refine ⟨by rw [hchat]; rfl, ?_⟩
  intro hnone
  rw [hnone] at hchat
  cases hchat

theorem Marked.resetChat {binding : ResolvedProviderBinding} {known : String} (h : r.Marked)
    (hbinding : r.providerBinding = some binding) (hknown : r.knownChatBindingId s = some known)
    (hne : known ≠ binding.id) : r.resetChat (some known) = !r.carriesChat s := by
  have hpresent := (chatId_of_known hknown).1
  rw [Call.resetChat, carriesChat, hbinding, hknown]
  simp only [Option.any_some, hne, ne_eq, not_false_eq_true, decide_true, Bool.and_true, resetChatForStickyProvider,
    hpresent, Option.isSome_some, Option.some.injEq]
  by_cases hindex : r.providerIndex = 0
  · rw [h.first hindex]
    by_cases hhead : r.payload.providerChain.head?.map (·.id) = some binding.id
    · simp [hindex, hhead]
    · have hsticky := sticky_of_rotated hbinding hindex hhead
      simp [hhead, hsticky]
  · have hmem := h.later (Nat.pos_of_ne_zero hindex) binding hbinding
    simp [hindex, hmem]

theorem Marked.clearsOther_iff (h : r.Marked) :
    (∀ a ∈ (r.startAttempt s).attempts.head?, a.ClearsOther) ↔ r.carriesChat s = false := by
  constructor
  · intro hclears
    rw [← Bool.not_eq_true]
    intro hcarries
    have hcase := hcarries
    rw [carriesChat, Bool.and_eq_true, Option.any_eq_true] at hcase
    obtain ⟨-, binding, hbinding, hknown⟩ := hcase
    rw [Bool.and_eq_true, Option.any_eq_true] at hknown
    obtain ⟨-, known, hknown, hne⟩ := hknown
    have hne : known ≠ binding.id := of_decide_eq_true hne
    have hnone := hclears _ rfl binding known hbinding hknown hne
    have hreset := h.resetChat hbinding hknown hne
    dsimp only at hnone
    rw [hknown, hreset, hcarries] at hnone
    exact (chatId_of_known hknown).2 hnone
  · intro hcarries a ha binding known hbinding hknown hne
    obtain rfl := Option.some.inj ha
    dsimp only at hbinding hknown ⊢
    rw [hknown, h.resetChat hbinding hknown hne, hcarries]
    rfl

theorem Marked.enterProvider (i : Nat) (h : r.Marked) : (r.enterProvider (i + 1)).Marked := by
  unfold Call.enterProvider
  split
  · rename_i binding hget
    refine ⟨nofun, ?_⟩
    intro _ current hcurrent
    rw [providerBinding] at hcurrent
    change (r.providersToTry[i + 1]?).join = some current at hcurrent
    rw [hget, Option.join_some] at hcurrent
    rw [hcurrent]
    exact List.mem_append_right _ (List.mem_singleton_self _)
  · exact ⟨h.first, h.later⟩

theorem Marked.afterFailure {now : Nat} (h : r.Marked) : (r.afterFailure lower now).Marked := by
  unfold Call.afterFailure
  dsimp only
  split
  · exact ⟨h.first, h.later⟩
  split
  · exact ⟨h.first, h.later⟩
  split
  · exact ⟨h.first, h.later⟩
  split
  · exact ⟨h.first, h.later⟩
  split
  · exact ⟨h.first, h.later⟩
  · have hpushed (error : Option String) : (r.pushRetry error now).Marked := ⟨h.first, h.later⟩
    exact (hpushed _).enterProvider r.providerIndex

theorem attempts_afterFailure (r : Call) (now : Nat) : (r.afterFailure lower now).attempts = r.attempts := by
  unfold Call.afterFailure
  dsimp only
  split
  · rfl
  split
  · rfl
  split
  · rfl
  split
  · rfl
  split
  · rfl
  · unfold Call.enterProvider
    split <;> rfl

structure Kept (r : Call) : Prop extends Marked r where
  clears : ∀ a ∈ r.attempts, a.ClearsOther

theorem Kept.withResult (h : r.Kept) (result : ExecuteWorkerResult) : (r.withResult result).Kept := by
  refine ⟨⟨h.first, h.later⟩, ?_⟩
  have hclears := h.clears
  unfold Call.withResult
  cases hattempts : r.attempts with
  | nil => exact fun _ ha => absurd ha List.not_mem_nil
  | cons b attempts =>
    rw [hattempts, List.forall_mem_cons] at hclears
    rw [List.forall_mem_cons]
    exact hclears

theorem Kept.act (h : r.Kept) (hok : startsAttempt s r c = true → r.carriesChat s = false)
    (hact : act lower s r c = some (s', r')) : r'.Kept := by
  obtain ⟨-, rfl | rfl⟩ | ⟨hstarts, rfl⟩ | ⟨-, rfl⟩ | ⟨-, -, rfl⟩ | ⟨-, rfl⟩ | ⟨-, wakeAt, rfl⟩ |
    ⟨wakeAt, -, rfl⟩ := act_cases hact
  · exact ⟨⟨h.first, h.later⟩, h.clears⟩
  · exact ⟨⟨h.first, h.later⟩, h.clears⟩
  · refine ⟨⟨h.first, h.later⟩, ?_⟩
    intro a ha
    obtain rfl | ha := List.mem_cons.mp ha
    · exact h.clearsOther_iff.mpr (hok hstarts) _ rfl
    · exact h.clears a ha
  · have hresult := h.withResult c.result
    exact ⟨⟨hresult.first, hresult.later⟩, hresult.clears⟩
  · have hresult := h.withResult c.result
    refine ⟨hresult.afterFailure, ?_⟩
    rw [attempts_afterFailure]
    exact hresult.clears
  · refine ⟨h.enterProvider r.providerIndex, ?_⟩
    have hattempts : (r.enterProvider (r.providerIndex + 1)).attempts = r.attempts := by
      unfold Call.enterProvider
      split <;> rfl
    rw [hattempts]
    exact h.clears
  · exact ⟨⟨h.first, h.later⟩, h.clears⟩
  · exact ⟨⟨h.first, h.later⟩, h.clears⟩

end Chat

end Call

def carriesNoChat (w : World) : Event → Prop
  | .act i c => ∀ r, w.calls[i]? = some r → startsAttempt w.toProcess r c = true → r.carriesChat w.toProcess = false
  | _ => True

instance (w : World) : (e : Event) → Decidable (carriesNoChat w e)
  | .call _ => .isTrue trivial
  | .tick _ => .isTrue trivial
  | .act i c =>
    match hr : w.calls[i]? with
    | none => .isTrue fun r h => by rw [hr] at h; cases h
    | some r =>
      decidable_of_iff (startsAttempt w.toProcess r c = true → r.carriesChat w.toProcess = false)
        ⟨fun h r' hr' => by rw [hr] at hr'; cases hr'; exact h, fun h => h r hr⟩

section Runs

variable {lower : String → String} {w w' : World}

theorem step_kept {e : Event} (hok : carriesNoChat w e) (h : ∀ r ∈ w.calls, r.Kept) (hstep : step lower w e = some w') :
    ∀ r ∈ w'.calls, r.Kept := by
  refine step_calls ?_ ?_ h hstep
  · intro payload sticky deadlineAt
    exact ⟨⟨fun _ => rfl, fun h => absurd h (Nat.lt_irrefl 0)⟩, fun _ ha => absurd ha List.not_mem_nil⟩
  · intro i c r s' r' he hr hkept hact
    subst he
    exact hkept.act (hok r hr) hact

/-- A run in which no attempt at the first provider of the configured chain is made with the chat of another hands no
chat to another provider. -/
theorem chat_stays_with_its_provider {p : Process} {es : List Event}
    (h : Runs (step lower) carriesNoChat { p with calls := [] } es w) :
    ∀ r ∈ w.calls, ∀ a ∈ r.attempts, a.ClearsOther := by
  have hkept := h.invariant (I := fun w => ∀ r ∈ w.calls, r.Kept) (fun _ _ _ hok h hstep => step_kept hok h hstep)
    fun _ hr => absurd hr List.not_mem_nil
  exact fun r hr => (hkept r hr).clears

end Runs

section Examples

def examplePayload : WorkerTaskPayload := { agentId := some "agent", providerChain := exampleChain }

/-- The first provider of call `i` is out of quota, and the second answers. -/
def exampleCall (i : Nat) (payload : WorkerTaskPayload) (chatId : String) : List Event :=
  [.call payload, .act i {}, .act i { result := { success := false, error := some "quota exceeded" } }, .act i {},
    .act i {}, .act i { result := { success := true, chatId := some chatId } }]

theorem chat_stays_with_its_provider_followUp : ∃ es w r,
    Runs (step id) carriesNoChat { ({} : Process) with calls := [] } es w ∧ r ∈ w.calls ∧
      r.attempts.map (·.chatId) = [some "c"] ∧ ∀ a ∈ r.attempts, a.ClearsOther := by
  obtain ⟨w, hw, hcalls⟩ : ∃ w, run (guarded (step id) carriesNoChat) { ({} : Process) with calls := [] }
      (exampleCall 0 examplePayload "c" ++ [.call { examplePayload with chatId := some "c" }, .act 1 {}]) = some w ∧
        (w.calls[1]?.map fun r => r.attempts.map (·.chatId)) = some [some "c"] := exists_of_run_any (by decide +kernel)
  obtain ⟨r, hr, hchat⟩ := Option.map_eq_some_iff.mp hcalls
  have hruns := Runs.of_guarded hw
  have hmem := List.mem_of_getElem? hr
  exact ⟨_, w, r, hruns, hmem, hchat, chat_stays_with_its_provider hruns r hmem⟩

theorem chat_is_carried_back : ¬∀ (lower : String → String) (p : Process) (es : List Event) (w : World),
    run (step lower) { p with calls := [] } es = some w → ∀ r ∈ w.calls, ∀ a ∈ r.attempts, a.ClearsOther := by
  intro h
  obtain ⟨w, hw, hcalls⟩ : ∃ w, run (step id) { ({} : Process) with calls := [] }
      (exampleCall 0 examplePayload "c" ++ exampleCall 1 { examplePayload with chatId := some "c" } "d" ++
        [.call { examplePayload with chatId := some "c" }, .act 2 {}]) = some w ∧
      (w.calls[2]?.map fun r => r.attempts.map fun a => (a.binding.map (·.id), a.knownChatBindingId, a.chatId)) =
        some [(some "a", some "b", some "c")] := exists_of_run_any (by decide +kernel)
  obtain ⟨r, hr, hattempts⟩ := Option.map_eq_some_iff.mp hcalls
  obtain ⟨a, ha, heq⟩ := List.map_eq_singleton_iff.mp hattempts
  rw [Prod.mk.injEq, Prod.mk.injEq] at heq
  obtain ⟨hbinding, hknown, hchat⟩ := heq
  obtain ⟨binding, hbinding, hid⟩ := Option.map_eq_some_iff.mp hbinding
  have hne : "b" ≠ binding.id := by
    rw [hid]
    decide
  have hnone := h id {} _ w hw r (List.mem_of_getElem? hr) a (by rw [ha]; exact List.mem_singleton_self a) binding "b"
    hbinding hknown hne
  rw [hchat] at hnone
  cases hnone

end Examples

end A2Wave.ExecuteWithRetry
