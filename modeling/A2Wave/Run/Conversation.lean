import Mathlib
import A2Wave.Queue.Capacity
import A2Wave.Run.AttachmentHistory
import A2Wave.Run.Resume

/-! The writers of the steps and messages of one run: the turns that `POST /agents/:id/chat`
appends to a conversation, the executions of `lib/execute-chat-run.ts`, `POST /runs/:id/execute`
and the retry of a failed run, beside every other transaction on the run tables. -/

namespace A2Wave.Conversation

open Transition AttachmentHistory

structure ChatMessage where
  role : Role
  content : String
  turn : Nat
  deriving DecidableEq

/-- The tables, with what they hold of one run; `intent` is a column of its row. -/
structure World where
  db : Db
  intent : String := ""
  messages : List ChatMessage := []
  turn : Nat := 0
  turns : Nat := 0
  materialised : List (Nat × Option Fields) := []

structure ChatRequest where
  message : String
  chatId : Option String := none
  attachments : Elems := .nil
  worktree : Option WorktreeConfig := none
  channel : TriggerSource := .debug
  userId : String
  agentId : String

structure Prior where
  row : Run
  intent : String
  turn : Nat

structure Execution where
  agentId : String
  snapshot : Run
  intent : String
  turn : Nat

structure RetryMetadataOptions where
  userId : Option String := none
  attachments : Elems := .nil
  attachmentConsumerId : Option String := none
  nativeChatContext : Option Json := none
  queuedTurn : Bool := false

inductive Thread
  | chat (req : ChatRequest)
  | reuseRun (req : ChatRequest) (prior : Prior)
  | createRun (req : ChatRequest)
  | acquire (req : ChatRequest) (prior : Option Prior) (turn : Nat)
  | markQueued (req : ChatRequest)
  | startTurn (req : ChatRequest) (prior : Option Prior) (turn : Nat)
  | abandonRun (prior : Option Prior)
  | executeChatRun (agentId : String)
  | resolve (e : Execution)
  | readOrder (e : Execution) (isResume : Bool)
  | persist (e : Execution) (isResume : Bool) (nextOrder : Nat)
  | executeRun (agentId : String)
  | retry (options : RetryMetadataOptions)
  | claimRetry (options : RetryMetadataOptions) (prior : Prior) (agentId : String)
  | acquireRetry (prior : Prior) (agentId : String)
  | restoreFailedRun (prior : Prior)
  | promote (agentId : String)
  | commit (op : Op)
  | reply (content : String)
  | finished

structure Choice where
  host : Host
  maxConcurrency : Nat := 1
  throws : Option String := none
  promotionsPaused : Bool := false
  contended : Bool := false
  stepId : String := ""
  prompt : String := ""
  context : Option Json := none
  materialized : Elems := .nil

section Model

variable (d : Dialect) (runId : String)

def stepRows (db : Db) : List (Nat × Option Fields) :=
  (db.runSteps.select (·.runId = runId)).map fun s => (s.order, s.input)

/-- … `ORDER BY run_steps.order`. -/
def orderedSteps (db : Db) : List (Option Fields) :=
  ((stepRows runId db).insertionSort fun a b => a.1 ≤ b.1).map Prod.snd

def World.paired (w : World) : List (Option Refs) :=
  pairAttachmentsToMessages (w.messages.map ChatMessage.role)
    (extractStepAttachments (orderedSteps runId w.db))

def firstOf (materialised : List (Nat × Option Fields)) (turn : Nat) : Option Refs :=
  (materialised.find? fun m => m.1 = turn).bind fun m => stepAttachments m.2

def nextOrder (db : Db) : Nat := ((stepRows runId db).map Prod.fst).foldr max 0 + 1

def stepInput (c : Choice) : Option Fields :=
  let context := c.context.toList.map fun v => ("context", v)
  let attachments := if 0 < c.materialized.length then [("attachments", Json.arr c.materialized)] else []
  some (.ofList ([("message", Json.str c.prompt)] ++ context ++ attachments))

/-- `persistRunTurn`, which also consumes the queue wait; it throws when the run is gone. -/
def persistRunTurn (w : World) (req : ChatRequest) (turn : Nat) (c : Choice) : Option World :=
  (w.db.runs.find? runId).bind fun run =>
    let step : RunStep := { id := c.stepId, runId := runId, agentId := some req.agentId
                            order := nextOrder runId w.db, input := stepInput c, status := .running
                            waitMs := some ((run.queuedAt.map fun t => c.host.now - t).getD 0) }
    (w.db.runSteps.insert step).map fun steps =>
      let runs := w.db.runs.updateWhere (·.id = runId) (fun r => { r with queuedAt := none }) fun _ => rfl
      { w with
        db := { w.db with runs := runs, runSteps := steps }
        messages := w.messages ++ [⟨.user, req.message, turn⟩]
        materialised := w.materialised ++ [(turn, stepInput c)] }

def updateRun (db : Db) (f : Run → Run) (hf : ∀ r, (f r).id = r.id) : Db :=
  { db with runs := db.runs.updateWhere (·.id = runId) f hf }

def failRunSteps (db : Db) : Db :=
  db.updateSteps (fun s => s.runId = runId && s.status = .running)
    (fun s => { s with status := .failed }) fun _ => rfl

def requesterMetadata (userId : String) : List (String × Json) :=
  [("runtimeAdminRequesterUserId", .str userId)]

def reuseRow (req : ChatRequest) (r : Run) : Run :=
  { r with
    queuedAt := none
    executionMetadata := some (.ofList (requesterMetadata req.userId))
    worktreeConfig := req.worktree.or r.worktreeConfig }

def newRow (req : ChatRequest) : Run :=
  { id := runId, status := .pending, initiatorAgentId := some req.agentId, triggerSource := some req.channel
    worktreeConfig := req.worktree
    executionMetadata := some (.ofList (requesterMetadata req.userId)) }

def queuedMetadata (req : ChatRequest) : Fields :=
  let attachments := if 0 < req.attachments.length
    then [("attachments", Json.arr req.attachments), ("attachmentConsumerId", .str req.userId)] else []
  .ofList ([("queuedTurn", Json.bool true)] ++ requesterMetadata req.userId ++ attachments)

def kept (prior : Option Fields) (k : String) (f : Json → Json) : List (String × Json) :=
  let v := metaGet? prior k
  if truthy v then v.toList.map fun v => (k, f v) else []

def buildRetryMetadata (prior : Option Fields) (options : RetryMetadataOptions) : Fields :=
  let text (k : String) (v : Option String) : List (String × Json) :=
    (v.filter (· ≠ "")).toList.map fun v => (k, .str v)
  let attachments := if 0 < options.attachments.length
    then [("attachments", Json.arr options.attachments)] else []
  let nativeChatContext := if truthy options.nativeChatContext
    then options.nativeChatContext.toList.map fun v => ("nativeChatContext", v) else []
  .ofList ([("retryAttempt", Json.num (spentAttempts (metaGet? prior "retryAttempt") + 1))] ++
    text "runtimeAdminRequesterUserId" options.userId ++
    kept prior "oauthCallerId" id ++
    kept prior "oauthEngineType" id ++
    kept prior "oauthResetSession" (fun _ => .bool true) ++
    kept prior "nativeChatResetSession" (fun _ => .bool true) ++
    attachments ++
    text "attachmentConsumerId" options.attachmentConsumerId ++
    nativeChatContext ++
    (if options.queuedTurn then [("queuedTurn", .bool true)] else []) ++
    kept prior "gitTriggerOrigin" fun
      | .obj origin => .obj (origin.set "queued" (.bool false))
      | v => v)

def retryRow (metadata : Fields) (r : Run) : Run :=
  { r with
    status := .pending
    result := none
    workDir := none
    ownerInstanceId := none
    queuedAt := none
    executionMetadata := some metadata }

def restoreRow (previous : Run) (r : Run) : Run :=
  { r with
    status := .failed
    result := previous.result
    workDir := previous.workDir
    ownerInstanceId := previous.ownerInstanceId
    queuedAt := previous.queuedAt
    executionMetadata := previous.executionMetadata }

def abandonRow (previous : Run) (r : Run) : Run :=
  { r with
    executionMetadata := previous.executionMetadata
    worktreeConfig := previous.worktreeConfig
    status := previous.status
    workDir := none }

def quiet : Op → Bool
  | .createRun _ => false
  | .deleteRun _ => false
  | .prepareExecution _ _ => false
  | _ => true

def World.withDb (w : World) (db : Db) : World := { w with db := db }

def chatIdOf (row : Run) : Option String := (metaGet? row.result "chatId").bind Json.asStr?

/-- `POST /agents/:id/chat` reads the conversation of the chat id. -/
def chat (w : World) (req : ChatRequest) : Thread :=
  match req.chatId with
  | none => .createRun req
  | some chatId =>
    match w.db.runs.find? runId with
    | none => .finished
    | some row =>
      if chatIdOf row ≠ some chatId then .finished
      else if row.status = .pending ∨ row.status = .queued ∨ row.status = .running then .finished
      else .reuseRun req ⟨row, w.intent, w.turn⟩

def acquireSlot (w : World) (agentId : String) (c : Choice) : Except DbError (SlotResult × World) :=
  if c.promotionsPaused then .ok (.queueFull, w)
  else
    match admitRun c.host w.db agentId runId c.maxConcurrency with
    | .error e => .error e
    | .ok (admission, db) => .ok (admission.slot, w.withDb db)

def failBeforeLifecycle (w : World) (c : Choice) (error : String) : World × Thread :=
  (w.withDb (failBeforeLifecycleTransition c.host w.db runId error).2, .finished)

/-- The transaction of `executeChatRun`: a resumed turn appends no message. -/
def persist (w : World) (e : Execution) (isResume : Bool) (order : Nat) (c : Choice) : World × Thread :=
  let step : RunStep := { id := c.stepId, runId := runId, agentId := some e.agentId
                          order := order, input := stepInput c, status := .running }
  match prepareExecution c.host w.db e.snapshot step with
  | .error _ => failBeforeLifecycle runId w c "Pre-lifecycle DB write failed"
  | .ok (false, db) => (w.withDb db, .finished)
  | .ok (true, db) =>
    ({ w with
      db := db
      messages := if isResume then w.messages else w.messages ++ [⟨.user, e.intent, e.turn⟩]
      materialised := w.materialised ++ [(e.turn, stepInput c)] }, .finished)

def executeInput (w : World) (c : Choice) : Option Fields :=
  some (.ofList ([("intent", Json.str w.intent)] ++ c.context.toList.map fun v => ("context", v)))

def executeRun (w : World) (agentId : String) (c : Choice) : World × Thread :=
  let step : RunStep := { id := c.stepId, runId := runId, order := 1, input := executeInput w c, status := .running }
  match Capacity.executeRun c.host w.db agentId runId c.maxConcurrency step with
  | .error _ => (w, .finished)
  | .ok ((), db) =>
    ({ w with db := db, materialised := w.materialised ++ [(w.turn, executeInput w c)] }, .finished)

def act (w : World) (t : Thread) (c : Choice) : Option (World × Thread) :=
  match t with
  | .chat req => some (w, chat runId w req)
  | .reuseRun req prior =>
    some ({ w with
      db := updateRun runId w.db (reuseRow req) fun _ => rfl
      intent := req.message
      turn := w.turns
      turns := w.turns + 1 }, .acquire req (some prior) w.turns)
  | .createRun req =>
    if (w.db.runs.find? runId).isSome then none
    else
      some ({ w with
        db := w.db.createRun (newRow runId req)
        intent := req.message
        turn := w.turns
        turns := w.turns + 1 }, .acquire req none w.turns)
  | .acquire req prior turn =>
    match acquireSlot runId w req.agentId c with
    | .error _ => some (w, .finished)
    | .ok (.acquired, w') => some (w', .startTurn req prior turn)
    | .ok (.queued, w') => some (w', .markQueued req)
    | .ok (.queueFull, w') => some (w', .abandonRun prior)
  | .markQueued req =>
    some (w.withDb (updateRun runId w.db
      (fun r => { r with executionMetadata := some (queuedMetadata req) }) fun _ => rfl), .finished)
  | .startTurn req prior turn =>
    match c.throws.elim (persistRunTurn runId w req turn c) fun _ => none with
    | none => some (w.withDb (failRunSteps runId w.db), .abandonRun prior)
    | some w' => some (w', .finished)
  | .abandonRun none =>
    some ({ w with db := w.db.deleteRun runId, messages := [], materialised := [] }, .finished)
  | .abandonRun (some prior) =>
    some ({ w with
      db := updateRun runId w.db (abandonRow prior.row) fun _ => rfl
      intent := prior.intent
      turn := prior.turn }, .finished)
  | .executeChatRun agentId =>
    some (w, match w.db.runs.find? runId with
      | some row => if row.status = .running then .resolve ⟨agentId, row, w.intent, w.turn⟩ else .finished
      | none => .finished)
  | .resolve e =>
    match c.throws with
    | some error => some (failBeforeLifecycle runId w c error)
    | none =>
      let isResume := (resumeChatIdFromRow e.snapshot).isSome
      let db := if isResume then Resume.contend c.contended d w.db runId .recordResumeAttempt else w.db
      some (w.withDb db, .readOrder e isResume)
  | .readOrder e isResume =>
    match c.throws with
    | some error => some (failBeforeLifecycle runId w c error)
    | none => some (w, .persist e isResume (nextOrder runId w.db))
  | .persist e isResume order => some (persist runId w e isResume order c)
  | .executeRun agentId => some (executeRun runId w agentId c)
  | .retry options =>
    some (w, match w.db.runs.find? runId with
      | some row =>
        match ((latestStep w.db runId).bind RunStep.agentId).or row.initiatorAgentId with
        | some agentId =>
          if row.status = .failed then .claimRetry options ⟨row, w.intent, w.turn⟩ agentId else .finished
        | none => .finished
      | none => .finished)
  | .claimRetry options prior agentId =>
    let metadata := buildRetryMetadata prior.row.executionMetadata options
    match w.db.casRun runId (·.status = .failed) (retryRow metadata) fun _ => rfl with
    | none => some (w, .finished)
    | some db => some ({ w with db := db, turn := w.turns, turns := w.turns + 1 }, .acquireRetry prior agentId)
  | .acquireRetry prior agentId =>
    match acquireSlot runId w agentId c with
    | .error _ => some (w, .restoreFailedRun prior)
    | .ok (.acquired, w') => some (w', .executeChatRun agentId)
    | .ok (.queued, w') => some (w', .finished)
    | .ok (.queueFull, w') => some (w', .restoreFailedRun prior)
  | .restoreFailedRun prior =>
    some ({ w with
      db := updateRun runId w.db (restoreRow prior.row) fun _ => rfl
      turn := prior.turn }, .finished)
  | .promote agentId =>
    match promoteQueuedRun c.host w.db agentId runId c.maxConcurrency with
    | .ok (true, db) => some (w.withDb db, .executeChatRun agentId)
    | _ => some (w, .finished)
  | .commit op => if quiet op then some (w.withDb (op.commit c.host w.db), .finished) else none
  | .reply content => some ({ w with messages := w.messages ++ [⟨.agent, content, w.turn⟩] }, .finished)
  | .finished => none

def starts : Thread → Bool
  | .chat _ => true
  | .executeRun _ => true
  | .retry _ => true
  | .promote _ => true
  | .commit _ => true
  | .reply _ => true
  | _ => false

def program : Pool.Program World Thread Choice where
  start _ _ t := starts t
  act := act d runId

end Model

structure Write where
  order : Nat
  input : Option Fields
  turn : Nat
  content : Option String

def Write.messages (wr : Write) : List ChatMessage := wr.content.toList.map fun content => ⟨.user, content, wr.turn⟩

section Effect

variable {d : Dialect} {runId : String}

def writes (runId : String) (w : World) (t : Thread) (c : Choice) : Option Write :=
  match t with
  | .startTurn req _ turn =>
    if c.throws.isNone then some ⟨nextOrder runId w.db, stepInput c, turn, some req.message⟩ else none
  | .persist e isResume order =>
    (w.db.runs.find? runId).bind fun row =>
      if row.status = .running
      then some ⟨order, stepInput c, e.turn, if isResume then none else some e.intent⟩ else none
  | .executeRun _ =>
    (w.db.runs.find? runId).bind fun row =>
      if row.status = .pending ∨ row.status = .queued
      then some ⟨1, executeInput w c, w.turn, none⟩ else none
  | _ => none

inductive Effect (runId : String) (w : World) (t : Thread) (c : Choice) (w' : World) : Prop
  | keep : stepRows runId w'.db = stepRows runId w.db → w'.materialised = w.materialised →
      w'.messages = w.messages → Effect runId w t c w'
  | reply (content : String) : t = .reply content → stepRows runId w'.db = stepRows runId w.db →
      w'.materialised = w.materialised → w'.messages = w.messages ++ [⟨.agent, content, w.turn⟩] →
      Effect runId w t c w'
  | write (wr : Write) : writes runId w t c = some wr →
      stepRows runId w'.db = stepRows runId w.db ++ [(wr.order, wr.input)] →
      w'.materialised = w.materialised ++ [(wr.turn, wr.input)] →
      w'.messages = w.messages ++ wr.messages → Effect runId w t c w'
  | delete : t = .abandonRun none → stepRows runId w'.db = [] → w'.materialised = [] → w'.messages = [] → Effect runId w t c w'

variable {db db' : Db}

theorem stepRows_of_runSteps (h : db'.runSteps = db.runSteps) : stepRows runId db' = stepRows runId db := by
  rw [stepRows, h, stepRows]

theorem stepRows_casRun {k : String} {p : Run → Bool} {f : Run → Run}
    {hf : ∀ r, (f r).id = r.id} (h : db.casRun k p f hf = some db') :
    stepRows runId db' = stepRows runId db :=
  stepRows_of_runSteps (runSteps_casRun h)

theorem stepRows_updateWhere {db : Db} {p : RunStep → Bool} {f : RunStep → RunStep}
    {hf : ∀ s, (f s).id = s.id} (hcols : ∀ s, (f s).runId = s.runId ∧ (f s).order = s.order ∧ (f s).input = s.input) :
    stepRows runId { db with runSteps := db.runSteps.updateWhere p f hf } = stepRows runId db := by
  simp only [stepRows, Table.select, Table.updateWhere]
  induction db.runSteps.rows with
  | nil => rfl
  | cons s rows ih =>
    obtain ⟨hrun, horder, hinput⟩ := hcols s
    have hs : (if p s = true then f s else s).runId = s.runId ∧ (if p s = true then f s else s).order = s.order ∧
        (if p s = true then f s else s).input = s.input := by
      split
      · exact ⟨hrun, horder, hinput⟩
      · exact ⟨rfl, rfl, rfl⟩
    simp only [List.map_cons, List.filter_cons, hs.1]
    split
    · simp only [List.map_cons, ih, hs.2.1, hs.2.2]
    · exact ih

theorem stepRows_insert {db : Db} {step : RunStep} {steps : Table RunStep} (h : db.runSteps.insert step = some steps)
    (hrun : step.runId = runId) :
    stepRows runId { db with runSteps := steps } = stepRows runId db ++ [(step.order, step.input)] := by
  simp [stepRows, Table.select, Table.rows_insert h, hrun]

theorem stepRows_deleteRun (db : Db) : stepRows runId (db.deleteRun runId) = [] := by
  simp [stepRows, Table.select, Db.deleteRun, Table.deleteWhere]

theorem stepRows_failRunningSteps (db : Db) (k : String) (error : Json) :
    stepRows runId (db.failRunningSteps k error) = stepRows runId db :=
  stepRows_updateWhere fun _ => ⟨rfl, rfl, rfl⟩

theorem stepRows_casStep {k : String} {p : RunStep → Bool} {f : RunStep → RunStep}
    {hf : ∀ s, (f s).id = s.id} (h : db.casStep k p f hf = some db')
    (hcols : ∀ s, (f s).runId = s.runId ∧ (f s).order = s.order ∧ (f s).input = s.input) :
    stepRows runId db' = stepRows runId db := by
  obtain ⟨t, ht, rfl⟩ := Option.map_eq_some_iff.mp h
  rw [Table.cas_eq_updateWhere ht]
  exact stepRows_updateWhere hcols

theorem stepRows_terminalTransition {host : Host} {db : Db} {k stepId : String} {st : Settlement} :
    stepRows runId (committed db (terminalTransition host db k stepId st)) = stepRows runId db := by
  cases h : terminalTransition host db k stepId st with
  | error e => rfl
  | ok r =>
    obtain ⟨b, db'⟩ := r
    obtain ⟨-, hdb, -⟩ | ⟨-, db₁, hcas, hstep⟩ := terminalTransition_cases h
    · simp only [committed, hdb]
    · rw [committed, stepRows_casStep hstep fun _ => ⟨rfl, rfl, rfl⟩]
      exact stepRows_casRun hcas

theorem stepRows_commit {host : Host} {db : Db} {op : Op} (hquiet : quiet op = true) :
    stepRows runId (op.commit host db) = stepRows runId db := by
  cases op with
  | createRun r | deleteRun k | prepareExecution snapshot step => cases hquiet
  | mergeMetadata d k read call | setWorkDir k workDir => exact stepRows_of_runSteps runSteps_getD
  | finishRunSuccess k stepId result trace => exact stepRows_terminalTransition
  | finishRunError k stepId errorMsg trace => exact stepRows_terminalTransition
  | runLevelRecovery k stepId error =>
    simp only [Op.commit, runLevelRecovery]
    split
    · rfl
    · rename_i db₁ hcas
      have hcols : stepRows runId db₁ = stepRows runId db := stepRows_casRun hcas
      rw [← hcols]
      exact stepRows_updateWhere fun _ => ⟨rfl, rfl, rfl⟩
  | cancelLateStep stepId => exact stepRows_updateWhere fun _ => ⟨rfl, rfl, rfl⟩
  | claimRunCancellation k expected =>
    simp only [Op.commit, claimRunCancellation]
    split
    · rfl
    · rename_i db₁ hcas
      have hcols : stepRows runId db₁ = stepRows runId db := stepRows_casRun hcas
      split
      · exact (stepRows_of_runSteps rfl).trans hcols
      · exact hcols
  | cancelStale k reason =>
    simp only [Op.commit, cancelStaleTransition]
    split
    · rfl
    · rename_i db₁ hcas
      exact stepRows_casRun hcas
  | failBeforeLifecycle k error =>
    simp only [Op.commit, failBeforeLifecycleTransition]
    split
    · rfl
    · rename_i db₁ hcas
      exact stepRows_casRun hcas
  | claimReapableRun k owner scope =>
    simp only [Op.commit, claimReapableRun]
    split
    · rfl
    · rename_i db₁ hcas
      rw [stepRows_failRunningSteps]
      exact stepRows_casRun hcas
  | requeueForResume k code owner =>
    simp only [Op.commit, requeueForResume]
    split
    · rfl
    · rename_i db₁ hcas
      rw [stepRows_failRunningSteps]
      exact stepRows_casRun hcas
  | applyFailure k reason => exact stepRows_failRunningSteps db k reason.toJson
  | releaseReserved w | releaseRecovered w | setSyncStatus sourceId status => exact stepRows_of_runSteps rfl
  | releaseOwned w =>
    simp only [Op.commit, releaseScmWorkload]
    split
    · rfl
    · split <;> exact stepRows_of_runSteps rfl
  | bindAgent agentId workspaceType scmSourceId => exact stepRows_of_runSteps rfl

variable {w w' : World} {t t' : Thread} {c : Choice}

theorem stepRows_failBeforeLifecycle (error : String) :
    stepRows runId (failBeforeLifecycle runId w c error).1.db = stepRows runId w.db := by
  simp only [failBeforeLifecycle, World.withDb, failBeforeLifecycleTransition]
  split
  · rfl
  · rename_i db₁ hcas
    exact stepRows_casRun hcas

theorem effect_failBeforeLifecycle (error : String) : Effect runId w t c (failBeforeLifecycle runId w c error).1 :=
  .keep (stepRows_failBeforeLifecycle error) rfl rfl

theorem effect_acquireSlot {agentId : String} {slot : SlotResult} (h : acquireSlot runId w agentId c = .ok (slot, w')) :
    Effect runId w t c w' := by
  unfold acquireSlot at h
  split at h
  · cases h
    exact .keep rfl rfl rfl
  · split at h
    · cases h
    · rename_i admission db hadmit
      cases h
      exact .keep (stepRows_of_runSteps (admitRun_runSteps hadmit)) rfl rfl

theorem effect_persistRunTurn {req : ChatRequest} {prior : Option Prior} {turn : Nat} (hthrows : c.throws = none)
    (h : persistRunTurn runId w req turn c = some w') : Effect runId w (.startTurn req prior turn) c w' := by
  obtain ⟨run, -, h⟩ := Option.bind_eq_some_iff.mp h
  obtain ⟨steps, hins, rfl⟩ := Option.map_eq_some_iff.mp h
  refine .write ⟨nextOrder runId w.db, stepInput c, turn, some req.message⟩ ?_ ?_ rfl rfl
  · simp only [writes, hthrows, Option.isNone_none, if_true]
  · exact stepRows_insert hins rfl

theorem prepareExecution_step {host : Host} {snapshot : Run} {step : RunStep}
    (h : prepareExecution host db snapshot step = .ok (true, db')) :
    ∃ row, db.runs.find? snapshot.id = some row ∧ row.status = .running ∧
      stepRows snapshot.id db' = stepRows snapshot.id db ++ [(step.order, step.input)] := by
  unfold prepareExecution at h
  dsimp only at h
  split at h
  · cases h
  · rename_i db₁ hcas
    split at h
    · cases h
    · rename_i steps hins
      cases h
      obtain ⟨row, hrow, hrun, -, -⟩ := Db.casRun_find? hcas
      have hnew := stepRows_insert hins rfl
      rw [stepRows_casRun hcas] at hnew
      exact ⟨row, hrow, of_decide_eq_true hrun, hnew⟩

theorem effect_persist {e : Execution} {isResume : Bool} {order : Nat} (hid : e.snapshot.id = runId) :
    Effect runId w (.persist e isResume order) c (persist runId w e isResume order c).1 := by
  unfold persist
  dsimp only
  split
  · exact effect_failBeforeLifecycle _
  · rename_i db hprep
    obtain ⟨-, rfl⟩ | ⟨hb, -⟩ := prepareExecution_cases hprep
    · exact .keep rfl rfl rfl
    · cases hb
  · rename_i db hprep
    obtain ⟨row, hrow, hrun, hsteps⟩ := prepareExecution_step hprep
    rw [hid] at hrow hsteps
    refine .write ⟨order, stepInput c, e.turn, if isResume then none else some e.intent⟩ ?_ hsteps rfl ?_
    · simp only [writes, hrow, Option.bind_some, hrun, if_true]
    · cases isResume with
      | true => exact (List.append_nil _).symm
      | false => rfl

theorem effect_executeRun {agentId : String} :
    Effect runId w (.executeRun agentId) c (executeRun runId w agentId c).1 := by
  unfold executeRun
  dsimp only
  split
  · exact .keep rfl rfl rfl
  · rename_i db hexec
    obtain ⟨db₁, db₂, steps, hres, -, hcas, hins, rfl⟩ := Capacity.executeRun_cases hexec
    obtain ⟨row, hrow, hstatus, -, -⟩ := Db.casRun_find? hcas
    rw [hres.runs] at hrow
    refine .write ⟨1, executeInput w c, w.turn, none⟩ ?_ ?_ rfl (List.append_nil _).symm
    · simp only [Bool.or_eq_true, decide_eq_true_eq] at hstatus
      simp only [writes, hrow, Option.bind_some, hstatus, if_true]
    · have hnew := stepRows_insert hins rfl
      rw [stepRows_casRun hcas, stepRows_of_runSteps hres.runSteps] at hnew
      exact hnew

def Thread.execution : Thread → Option Execution
  | .resolve e => some e
  | .readOrder e _ => some e
  | .persist e _ _ => some e
  | _ => none

theorem act_effect (hid : ∀ e, t.execution = some e → e.snapshot.id = runId)
    (h : act d runId w t c = some (w', t')) : Effect runId w t c w' := by
  cases t with
  | chat req | reuseRun req prior | markQueued req | executeChatRun agentId | retry options =>
    cases h
    exact .keep rfl rfl rfl
  | createRun req =>
    simp only [act] at h
    split at h
    · cases h
    · cases h
      refine .keep (stepRows_of_runSteps ?_) rfl rfl
      dsimp only [Db.createRun]
      split <;> rfl
  | acquire req prior turn | acquireRetry prior agentId =>
    simp only [act] at h
    split at h <;> cases h
    · exact .keep rfl rfl rfl
    all_goals exact effect_acquireSlot ‹_›
  | startTurn req prior turn =>
    simp only [act] at h
    cases hthrows : c.throws with
    | none =>
      simp only [hthrows, Option.elim_none] at h
      split at h
      · cases h
        exact .keep (stepRows_updateWhere fun _ => ⟨rfl, rfl, rfl⟩) rfl rfl
      · rename_i w₁ hpersist
        cases h
        exact effect_persistRunTurn hthrows hpersist
    | some error =>
      simp only [hthrows, Option.elim_some] at h
      cases h
      exact .keep (stepRows_updateWhere fun _ => ⟨rfl, rfl, rfl⟩) rfl rfl
  | abandonRun prior =>
    cases prior with
    | none =>
      cases h
      exact .delete rfl (stepRows_deleteRun w.db) rfl rfl
    | some prior =>
      cases h
      exact .keep rfl rfl rfl
  | resolve e =>
    simp only [act] at h
    split at h
    · cases h
      exact effect_failBeforeLifecycle _
    · cases h
      refine .keep (stepRows_of_runSteps ?_) rfl rfl
      simp only [World.withDb, Resume.contend, mergeExecutionMetadata]
      repeat (first | rfl | exact runSteps_getD | split)
  | readOrder e isResume =>
    simp only [act] at h
    split at h
    · cases h
      exact effect_failBeforeLifecycle _
    · cases h
      exact .keep rfl rfl rfl
  | persist e isResume order =>
    have hw : (persist runId w e isResume order c).1 = w' := congrArg Prod.fst (Option.some.inj h)
    rw [← hw]
    exact effect_persist (hid e rfl)
  | executeRun agentId =>
    have hw : (executeRun runId w agentId c).1 = w' := congrArg Prod.fst (Option.some.inj h)
    rw [← hw]
    exact effect_executeRun
  | claimRetry options prior agentId =>
    simp only [act] at h
    split at h
    · cases h
      exact .keep rfl rfl rfl
    · rename_i db hcas
      cases h
      exact .keep (stepRows_casRun hcas) rfl rfl
  | restoreFailedRun prior =>
    cases h
    exact .keep rfl rfl rfl
  | promote agentId =>
    simp only [act] at h
    split at h
    · rename_i db hpromote
      cases h
      exact .keep (stepRows_of_runSteps (promoteQueuedRun_runSteps hpromote)) rfl rfl
    · cases h
      exact .keep rfl rfl rfl
  | commit op =>
    simp only [act] at h
    split at h
    · rename_i hquiet
      cases h
      exact .keep (stepRows_commit hquiet) rfl rfl
    · cases h
  | reply content =>
    cases h
    exact .reply content rfl rfl rfl rfl
  | finished => cases h

theorem find?_id {db : Db} {row : Run} (h : db.runs.find? runId = some row) : row.id = runId :=
  Table.find?_some_key h

theorem act_execution (hid : ∀ e, t.execution = some e → e.snapshot.id = runId)
    (h : act d runId w t c = some (w', t')) : ∀ e, t'.execution = some e → e.snapshot.id = runId := by
  intro e he
  cases t with
  | executeChatRun agentId =>
    cases h
    split at he
    · rename_i row hrow
      split at he <;> cases he
      exact find?_id hrow
    · cases he
  | resolve e₀ | readOrder e₀ isResume =>
    simp only [act] at h
    split at h <;> cases h <;> cases he
    exact hid e rfl
  | chat req =>
    cases h
    revert he
    fun_cases chat runId w req <;> exact fun he => by cases he
  | retry options =>
    cases h
    split at he
    · split at he
      · split at he <;> cases he
      · cases he
    · cases he
  | persist e₀ isResume order =>
    have ht : (persist runId w e₀ isResume order c).2 = t' := congrArg Prod.snd (Option.some.inj h)
    rw [← ht] at he
    unfold persist at he
    dsimp only at he
    split at he <;> cases he
  | executeRun agentId =>
    have ht : (executeRun runId w agentId c).2 = t' := congrArg Prod.snd (Option.some.inj h)
    rw [← ht] at he
    unfold executeRun at he
    dsimp only at he
    split at he <;> cases he
  | finished => cases h
  | abandonRun prior =>
    cases prior <;> cases h <;> cases he
  | reuseRun req prior | markQueued req | restoreFailedRun prior | reply content =>
    cases h
    cases he
  | createRun req | commit op =>
    simp only [act] at h
    split at h <;> cases h
    cases he
  | acquire req prior turn | startTurn req prior turn | claimRetry options prior agentId | promote agentId =>
    simp only [act] at h
    split at h <;> cases h <;> cases he
  | acquireRetry prior agentId =>
    simp only [act] at h
    split at h <;> cases h <;> cases he

end Effect

def World.userCount (w : World) : Nat := (w.messages.map ChatMessage.role).count .user

def World.firstAttachments (w : World) : List (Option Refs) :=
  w.messages.map fun m =>
    match m.role with
    | .user => firstOf w.materialised m.turn
    | .agent => none

def Paired (runId : String) (w : World) : Prop := w.paired runId = w.firstAttachments

def Write.fresh (runId : String) (wr : Write) (w : World) : Prop :=
  ∀ row ∈ stepRows runId w.db, row.1 < wr.order

/-- The step that stands where the message will be shown carries what the first step of the turn
carries.  It is the written step itself, unless a step was written without a message before. -/
def Write.inPlace (runId : String) (wr : Write) (w : World) : Prop :=
  wr.content.isSome = true → ((extractStepAttachments (orderedSteps runId w.db ++ [wr.input]))[w.userCount]?).join =
      firstOf (w.materialised ++ [(wr.turn, wr.input)]) wr.turn

def Ok (runId : String) (p : Pool World Thread) : Pool.Event Thread Choice → Prop
  | .spawn _ => True
  | .act i c => ∀ t ∈ p.threads[i]?, ∀ wr ∈ writes runId p.shared t c,
      wr.fresh runId p.shared ∧ wr.inPlace runId p.shared

section Invariant

variable {d : Dialect} {runId : String} {w w' : World} {t t' : Thread} {c : Choice} {wr : Write}

structure Inv (runId : String) (w : World) : Prop where
  sorted : (stepRows runId w.db).Pairwise fun a b => a.1 ≤ b.1
  recorded : (stepRows runId w.db).map Prod.snd = w.materialised.map Prod.snd
  counted : w.userCount ≤ w.materialised.length
  started : ∀ m ∈ w.messages, m.role = .user → ∃ step ∈ w.materialised, step.1 = m.turn
  paired : Paired runId w

theorem orderedSteps_eq {db : Db} (h : (stepRows runId db).Pairwise fun a b => a.1 ≤ b.1) :
    orderedSteps runId db = (stepRows runId db).map Prod.snd := by
  rw [orderedSteps, h.insertionSort_eq]

theorem Inv.inputs (h : Inv runId w) : orderedSteps runId w.db = w.materialised.map Prod.snd :=
  (orderedSteps_eq h.sorted).trans h.recorded

theorem firstOf_append {materialised : List (Nat × Option Fields)} {turn : Nat}
    (h : ∃ step ∈ materialised, step.1 = turn) (later : Nat × Option Fields) :
    firstOf (materialised ++ [later]) turn = firstOf materialised turn := by
  obtain ⟨step, hmem, hturn⟩ := h
  have hsome : (materialised.find? fun m => m.1 = turn).isSome = true := by
    rw [List.find?_isSome]
    exact ⟨step, hmem, decide_eq_true hturn⟩
  obtain ⟨first, hfirst⟩ := Option.isSome_iff_exists.mp hsome
  rw [firstOf, List.find?_append, hfirst]
  rw [firstOf, hfirst]
  rfl

theorem Inv.of_same (h : Inv runId w) (hsteps : stepRows runId w'.db = stepRows runId w.db)
    (hmat : w'.materialised = w.materialised) (hmsg : w'.messages = w.messages) : Inv runId w' := by
  constructor
  · rw [hsteps]
    exact h.sorted
  · rw [hsteps, hmat]
    exact h.recorded
  · rw [World.userCount, hmsg, hmat]
    exact h.counted
  · rw [hmsg, hmat]
    exact h.started
  · have hpaired := h.paired
    simp only [Paired, World.paired, World.firstAttachments, orderedSteps] at hpaired ⊢
    rw [hsteps, hmat, hmsg]
    exact hpaired

theorem Inv.of_reply {content : String} (h : Inv runId w)
    (hsteps : stepRows runId w'.db = stepRows runId w.db) (hmat : w'.materialised = w.materialised)
    (hmsg : w'.messages = w.messages ++ [⟨.agent, content, w.turn⟩]) : Inv runId w' := by
  constructor
  · rw [hsteps]
    exact h.sorted
  · rw [hsteps, hmat]
    exact h.recorded
  · have hcount : w'.userCount = w.userCount := by
      simp [World.userCount, hmsg, List.count_append]
    rw [hcount, hmat]
    exact h.counted
  · intro m hm hrole
    rw [hmsg] at hm
    rw [hmat]
    rcases List.mem_append.mp hm with hm | hm
    · exact h.started m hm hrole
    · rw [List.mem_singleton.mp hm] at hrole
      cases hrole
  · have hpaired := h.paired
    simp only [Paired, World.paired, World.firstAttachments, orderedSteps] at hpaired ⊢
    rw [hsteps, hmat, hmsg, List.map_append, List.map_append, List.map_singleton, List.map_singleton,
      pairAttachmentsToMessages_agent, hpaired]

section Write

variable (h : Inv runId w) (hfresh : wr.fresh runId w)
  (hsteps : stepRows runId w'.db = stepRows runId w.db ++ [(wr.order, wr.input)])
  (hmat : w'.materialised = w.materialised ++ [(wr.turn, wr.input)])
  (hmsg : w'.messages = w.messages ++ wr.messages)

include h hfresh hsteps

theorem Inv.sorted_write : (stepRows runId w'.db).Pairwise fun a b => a.1 ≤ b.1 := by
  rw [hsteps, List.pairwise_append]
  refine ⟨h.sorted, List.pairwise_singleton _ _, ?_⟩
  intro a ha b hb
  rw [List.mem_singleton.mp hb]
  exact (hfresh a ha).le

theorem Inv.ordered_write : orderedSteps runId w'.db = orderedSteps runId w.db ++ [wr.input] := by
  rw [orderedSteps_eq (h.sorted_write hfresh hsteps), orderedSteps_eq h.sorted, hsteps, List.map_append]
  rfl

include hmat

theorem Inv.earlier_write : pairAttachmentsToMessages (w.messages.map ChatMessage.role)
        (extractStepAttachments (orderedSteps runId w'.db)) =
      w.messages.map fun m =>
        match m.role with
        | .user => firstOf w'.materialised m.turn
        | .agent => none := by
  have hlength : (extractStepAttachments (orderedSteps runId w.db)).length = w.materialised.length := by
    rw [h.inputs, extractStepAttachments, List.length_map, List.length_map]
  have hcount : (w.messages.map ChatMessage.role).count .user ≤
      (extractStepAttachments (orderedSteps runId w.db)).length := hlength ▸ h.counted
  rw [h.ordered_write hfresh hsteps, extractStepAttachments, List.map_append]
  refine (pairAttachmentsToMessages_later _ hcount).trans (h.paired.trans ?_)
  refine List.map_congr_left fun m hm => ?_
  cases hrole : m.role with
  | agent => rfl
  | user =>
    dsimp only
    rw [hmat, firstOf_append (h.started m hm hrole)]

include hmsg

theorem Inv.paired_write_iff : Paired runId w' ↔ wr.inPlace runId w := by
  have hearlier := h.earlier_write hfresh hsteps hmat
  unfold Paired World.paired World.firstAttachments
  rw [hmsg]
  cases hcontent : wr.content with
  | none =>
    have hmessages : wr.messages = [] := by rw [Write.messages, hcontent]; rfl
    rw [hmessages, List.append_nil, Write.inPlace, hcontent]
    exact ⟨fun _ hnone => absurd hnone (by decide), fun _ => hearlier⟩
  | some content =>
    have hmessages : wr.messages = [⟨.user, content, wr.turn⟩] := by rw [Write.messages, hcontent]; rfl
    rw [hmessages, List.map_append, List.map_append, List.map_singleton, List.map_singleton,
      pairAttachmentsToMessages_user, hearlier, List.append_cancel_left_eq, List.singleton_inj,
      h.ordered_write hfresh hsteps, hmat, Write.inPlace, hcontent]
    exact ⟨fun heq _ => heq, fun heq => heq rfl⟩

theorem Inv.of_write (hplace : wr.inPlace runId w) : Inv runId w' := by
  refine ⟨h.sorted_write hfresh hsteps, ?_, ?_, ?_, (h.paired_write_iff hfresh hsteps hmat hmsg).mpr hplace⟩
  · rw [hsteps, hmat, List.map_append, List.map_append, h.recorded]
    rfl
  · have hcounted := h.counted
    have hone : (wr.messages.map ChatMessage.role).count .user ≤ 1 := by
      cases hcontent : wr.content <;> simp [Write.messages, hcontent]
    rw [World.userCount] at hcounted ⊢
    rw [hmsg, hmat, List.map_append, List.count_append, List.length_append, List.length_singleton]
    omega
  · intro m hm hrole
    rw [hmsg] at hm
    rw [hmat]
    rcases List.mem_append.mp hm with hm | hm
    · obtain ⟨step, hstep, hturn⟩ := h.started m hm hrole
      exact ⟨step, List.mem_append_left _ hstep, hturn⟩
    · refine ⟨(wr.turn, wr.input), List.mem_append_right _ (List.mem_singleton_self _), ?_⟩
      obtain ⟨content, -, rfl⟩ := List.mem_map.mp hm
      rfl

end Write

theorem Inv.of_delete (hsteps : stepRows runId w'.db = []) (hmat : w'.materialised = [])
    (hmsg : w'.messages = []) : Inv runId w' := by
  constructor
  · rw [hsteps]
    exact .nil
  · rw [hsteps, hmat]
  · rw [World.userCount, hmsg, hmat]
    exact le_rfl
  · rw [hmsg]
    intro m hm
    cases hm
  · rw [Paired, World.paired, World.firstAttachments, hmsg]
    rfl

theorem Effect.inv (he : Effect runId w t c w') (h : Inv runId w)
    (hok : ∀ wr ∈ writes runId w t c, wr.fresh runId w ∧ wr.inPlace runId w) : Inv runId w' := by
  cases he with
  | keep hsteps hmat hmsg => exact h.of_same hsteps hmat hmsg
  | reply content _ hsteps hmat hmsg => exact h.of_reply hsteps hmat hmsg
  | write wr hwr hsteps hmat hmsg =>
    obtain ⟨hfresh, hplace⟩ := hok wr hwr
    exact h.of_write hfresh hsteps hmat hmsg hplace
  | delete _ hsteps hmat hmsg => exact .of_delete hsteps hmat hmsg

structure Holds (runId : String) (p : Pool World Thread) : Prop where
  history : Inv runId p.shared
  executions : ∀ t ∈ p.threads, ∀ e, t.execution = some e → e.snapshot.id = runId

theorem Holds.step {p q : Pool World Thread} {e : Pool.Event Thread Choice} (hok : Ok runId p e)
    (h : Holds runId p) (hs : Pool.step (program d runId) p e = some q) : Holds runId q := by
  obtain ⟨t, -, hstart, rfl⟩ | ⟨i, c, t, w', t', rfl, hi, hact, rfl⟩ := Pool.step_cases hs
  · refine ⟨h.history, ?_⟩
    intro u hu e he
    rcases List.mem_append.mp hu with hu | hu
    · exact h.executions u hu e he
    · rw [List.mem_singleton.mp hu] at he
      have hstarts : starts t = true := hstart
      cases t <;> first | (cases hstarts; done) | cases he
  · have hid := h.executions t (List.mem_of_getElem? hi)
    refine ⟨(act_effect hid hact).inv h.history (hok t hi), ?_⟩
    intro u hu
    obtain ⟨j, hj⟩ := List.mem_iff_getElem?.mp hu
    rcases Pool.getElem?_set_cases hj with ⟨-, rfl⟩ | ⟨-, hj⟩
    · exact act_execution hid hact
    · exact h.executions u (List.mem_of_getElem? hj)

end Invariant

section Runs

variable {d : Dialect} {runId : String} {p q : Pool World Thread}

theorem reachable_holds {db : Db} (hdb : stepRows runId db = []) {es : List (Pool.Event Thread Choice)}
    (h : Runs (Pool.step (program d runId)) (Ok runId) ⟨{ db := db }, []⟩ es p) : Holds runId p := by
  refine h.invariant (fun _ _ _ hok hI hs => hI.step hok hs) ⟨.of_delete hdb rfl rfl, ?_⟩
  intro t ht
  cases ht

instance (wr : Write) (w : World) : Decidable (wr.fresh runId w) :=
  inferInstanceAs (Decidable (∀ row ∈ stepRows runId w.db, row.1 < wr.order))

instance (wr : Write) (w : World) : Decidable (wr.inPlace runId w) :=
  inferInstanceAs (Decidable (wr.content.isSome = true →
    ((extractStepAttachments (orderedSteps runId w.db ++ [wr.input]))[w.userCount]?).join =
      firstOf (w.materialised ++ [(wr.turn, wr.input)]) wr.turn))

instance (p : Pool World Thread) (e : Pool.Event Thread Choice) : Decidable (Ok runId p e) :=
  match e with
  | .spawn _ => .isTrue trivial
  | .act i c => inferInstanceAs (Decidable (∀ t ∈ p.threads[i]?, ∀ wr ∈ writes runId p.shared t c,
      wr.fresh runId p.shared ∧ wr.inPlace runId p.shared))

def agentDb : Db :=
  { agents := .single { id := "agent_1", workspaceType := .temp, maxConcurrency := 1 } }

def actBy (i : Nat) : Pool.Event Thread Choice := .act i { host := Metadata.host1 }

def request (message : String) (chatId : Option String) : ChatRequest :=
  { message := message, chatId := chatId, userId := "user_1", agentId := "agent_1" }

def upload (name : String) : Elems :=
  .cons (.obj (.ofList [("name", .str name), ("mimeType", .str "image/png")])) .nil

/-- A turn that gets the slot at once; its call is the thread `i`. -/
def turnOf (i : Nat) (message : String) (chatId : Option String) (stepId name : String) :
    List (Pool.Event Thread Choice) :=
  [.spawn (.chat (request message chatId)), actBy i, actBy i, actBy i,
    .act i { host := Metadata.host1, stepId := stepId, prompt := message, materialized := upload name }]

def commits (i : Nat) (op : Op) : List (Pool.Event Thread Choice) := [.spawn (.commit op), actBy i]

def finishes (i : Nat) (stepId : String) : List (Pool.Event Thread Choice) :=
  commits i (.finishRunSuccess "run_1" stepId { success := true, output := "ok", chatId := some "session" } {})

/-- The process dies while the turn runs; the turn is resumed, by the threads `i + 2` on. -/
def resumed (i : Nat) (metadata : Fields) (stepId : String) : List (Pool.Event Thread Choice) :=
  commits i (.mergeMetadata .sqlite "run_1" (some metadata) (.persistLiveSessionId "session")) ++
    commits (i + 1) (.requeueForResume "run_1" (some "SERVER_RESTART_DURING_EXEC") none) ++
    [.spawn (.promote "agent_1"), actBy (i + 2), actBy (i + 2), actBy (i + 2), actBy (i + 2),
      .act (i + 2) { host := Metadata.host1, stepId := stepId, prompt := "continue" }]

def shownNames (p : Pool World Thread) : List (Option (List String)) :=
  (p.shared.paired "run_1").map fun refs => refs.map fun r => r.map PublicHistoryAttachmentRef.name

def twoTurns : List (Pool.Event Thread Choice) :=
  turnOf 0 "one" none "rst_1" "a.png" ++ finishes 1 "rst_1" ++ turnOf 2 "two" (some "session") "rst_2" "b.png"

def resumedBetween : List (Pool.Event Thread Choice) :=
  turnOf 0 "one" none "rst_1" "a.png" ++ resumed 1 (.ofList (requesterMetadata "user_1")) "rst_2" ++
    finishes 4 "rst_2" ++ turnOf 5 "two" (some "session") "rst_3" "b.png"

end Runs

end A2Wave.Conversation
