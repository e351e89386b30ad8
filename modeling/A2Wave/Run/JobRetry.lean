import Mathlib
import A2Wave.Lib.Chain
import A2Wave.Run.Rows

/-! Automatic replays of failed runs: `lib/job-retry-hook.ts`, `lib/job-retry-policy.ts` and
`lib/job-retry-scheduler.ts` with `lib/rerun-builder.ts`, over any number of processes that crash
and are recovered.  A request of a user that starts an existing run again begins a chain of its own
(`lib/run-retry-in-place.ts`) and is no event here. -/

namespace A2Wave.JobRetry

open Transition

def JOB_RETRIES_MIN : Int := 0

def JOB_RETRIES_MAX : Int := 3

def clampJobRetries (v : ℚ) : Int := max JOB_RETRIES_MIN (min JOB_RETRIES_MAX ⌊v⌋)

structure Runtime where
  number : Json → Option ℚ
  isPermanentError : Option String → Bool
  isHardQuotaError : Option String → Bool

inductive JobRetrySkipReason
  | disabled
  | notFailed
  | budgetSpent
  | permanentError
  deriving DecidableEq, Repr

structure JobRetryInput where
  status : RunStatus
  error : Option String
  maxJobRetries : Int
  attempt : ℚ

def shouldRetryJob (rt : Runtime) (input : JobRetryInput) : Option JobRetrySkipReason :=
  if input.maxJobRetries ≤ 0 then some .disabled
  else if input.status ≠ .failed then some .notFailed
  else if (input.maxJobRetries : ℚ) ≤ input.attempt then some .budgetSpent
  else if rt.isPermanentError input.error || rt.isHardQuotaError input.error then some .permanentError
  else none

def nextJobRetryAttempt (currentAttempt : ℚ) : ℚ := currentAttempt + 1

/-- `run.executionMetadata?.jobRetryAttempt ?? 0`. -/
def jobRetryAttempt (run : Run) : ℚ :=
  ((metaGet? run.executionMetadata "jobRetryAttempt").bind Json.asNum?).getD 0

/-- `run.executionMetadata?.jobRetryOf ?? run.id`. -/
def chainOrigin (run : Run) : String :=
  ((metaGet? run.executionMetadata "jobRetryOf").bind Json.asStr?).getD run.id

structure AgentRow where
  id : String
  status : String
  maxConcurrency : Option Nat := none
  config : Option Fields := none
  deriving DecidableEq

instance : Keyed AgentRow String := ⟨AgentRow.id⟩

def maxJobRetries (rt : Runtime) (agent : AgentRow) : Int :=
  let raw := metaGet? agent.config "maxJobRetries"
  clampJobRetries (if isNullish raw then 0 else (raw.bind rt.number).getD 0)

structure RerunSource where
  agentId : Option String
  originalContext : Option Fields
  rawAttachments : List Json

def asObject? : Option Json → Option Fields
  | some (.obj fs) => some fs
  | _ => none

def asArray? : Option Json → Option (List Json)
  | some (.arr xs) => some xs.toList
  | _ => none

def asString? (v : Option Json) : Option String := v.bind Json.asStr?

def resolveRerunContext (originalRun : Run) (stepContextValue : Option Json) : Option Fields :=
  let nativeContext := asObject? (metaGet? originalRun.executionMetadata "nativeChatContext")
  let context := if truthy (metaGet? originalRun.executionMetadata "queuedTurn") then nativeContext
    else (asObject? stepContextValue).or nativeContext
  context.map fun context =>
    if originalRun.triggerSource ≠ some .feishu || truthy (context.get? "receive_id_type") then context
    else
      let nestedChatId := ((context.get? "channel").bind (·.get? "channel_info")).bind (·.get? "chat_id")
      let flatChatId := (asString? (context.get? "chat_id")).map Json.str
      let chatId := if isNullish nestedChatId then flatChatId else nestedChatId
      match chatId with
      | none => context
      | some v =>
        if truthy chatId then (context.set "receive_id_type" (.str "chat_id")).set "receive_id" v else context

def loadRerunSource (db : Db) (originalRun : Run) : RerunSource :=
  let step := latestStep db originalRun.id
  let input := step.bind RunStep.input
  let stepAttachments := asArray? (metaGet? input "attachments")
  let metaAttachments := asArray? (metaGet? originalRun.executionMetadata "attachments")
  { agentId := (step.bind RunStep.agentId).or originalRun.initiatorAgentId
    originalContext := resolveRerunContext originalRun (metaGet? input "context")
    rawAttachments :=
      if truthy (metaGet? originalRun.executionMetadata "queuedTurn") then metaAttachments.getD []
      else (stepAttachments.or metaAttachments).getD [] }

def filterReplayableAttachments (rawAttachments : List Json) : List Json :=
  rawAttachments.filter fun a => (asString? (a.get? "token")).isSome || (asString? (a.get? "uri")).isSome

def usableAttachments (attachments : List Json) (consumerId : Option String) : List Json :=
  if consumerId.isNone then attachments.filter fun a => !truthy (a.get? "token") else attachments

def carried (run : Run) (k : String) : List (String × Json) :=
  let v := metaGet? run.executionMetadata k
  if truthy v then v.toList.map fun v => (k, v) else []

def replayMetadata (run : Run) (source : RerunSource) (consumerId : Option String) : Fields :=
  let attachments := usableAttachments (filterReplayableAttachments source.rawAttachments) consumerId
  let durableRerunContext := if run.triggerSource = some .feishu || run.triggerSource = some .a2a
    then source.originalContext else none
  let fields := carried run "runtimeAdminRequesterUserId" ++ (if attachments.isEmpty then []
      else ("attachments", Json.arr (.ofList attachments)) ::
        consumerId.toList.map fun id => ("attachmentConsumerId", Json.str id)) ++
    durableRerunContext.toList.map (fun context => ("nativeChatContext", Json.obj context)) ++
    (if truthy (metaGet? run.executionMetadata "traceParent")
      then carried run "traceParent" ++ carried run "traceSession" else [])
  ((Fields.ofList fields).set "jobRetryOf" (.str (chainOrigin run))).set "jobRetryAttempt"
    (.num (nextJobRetryAttempt (jobRetryAttempt run)))

structure Replay extends Link String where
  limit : Int
  deriving DecidableEq

inductive Task
  | admission (runId agentId : String) (maxConcurrency : Nat)
  | executeChatRun (runId : String)
  | runWithLifecycle (snapshot : Run)
  | runJobRetryHook (runId : String) (error : Option String)
  | readConfig (run : Run) (agentId : String) (error : Option String)
  | loadRerunSource (run : Run) (limit : Int)
  | readAgent (run : Run) (limit : Int) (source : RerunSource) (agentId : String)
  | insertReplay (run : Run) (limit : Int) (source : RerunSource) (agentId : String) (maxConcurrency : Nat)
  | admitReplay (runId agentId : String) (maxConcurrency : Nat)
  | deleteReplay (runId : String)
  | finished

def Task.runId? : Task → Option String
  | admission runId _ _ => some runId
  | executeChatRun runId => some runId
  | runWithLifecycle snapshot => some snapshot.id
  | runJobRetryHook runId _ => some runId
  | readConfig run _ _ => some run.id
  | loadRerunSource run _ => some run.id
  | readAgent run _ _ _ => some run.id
  | insertReplay run _ _ _ _ => some run.id
  | admitReplay runId _ _ => some runId
  | deleteReplay runId => some runId
  | finished => none

structure Thread where
  process : String
  task : Task

structure World where
  db : Db := {}
  agents : Table AgentRow := .empty
  threads : List Thread := []
  /-- The ids that were given to runs; `createId` never repeats one. -/
  used : List String := []
  replays : List Replay := []

inductive Ending
  | prepare (step : RunStep)
  | succeed (stepId : String) (result : ExecuteWorkerResult) (trace : ExecutionTrace)
  | fail (stepId error : String) (trace : ExecutionTrace)
  | stop

structure Choice where
  host : Host
  ending : Ending := .stop
  newRunId : String := ""
  /-- `resolveRerunConsumerId`, from columns that nothing else reads here. -/
  consumerId : Option String := none
  promotionsPaused : Bool := false
  throws : Bool := false

inductive Event
  | create (process : String) (r : Run) (agentId : String) (maxConcurrency : Nat)
  | act (i : Nat) (c : Choice)
  | promote (host : Host) (agentId runId : String) (maxConcurrency : Nat)
  | requeue (host : Host) (runId : String) (code owner : Option String)
  | commit (host : Host) (op : Op)
  | configure (agents : Table AgentRow) (tables : Db)
  | crash (process : String)

def World.withDb (w : World) (db : Db) : World := { w with db := db }

def spares : Op → Bool
  | .createRun _ => false
  | .prepareExecution _ _ => false
  | .requeueForResume _ _ _ => false
  | _ => true

def untagged (m : Option Fields) : Bool :=
  (metaGet? m "jobRetryOf").isNone && (metaGet? m "jobRetryAttempt").isNone

def admitted (w : World) (c : Choice) (agentId runId : String) (maxConcurrency : Nat) :
    Except DbError (SlotResult × World) :=
  if c.promotionsPaused then .ok (.queueFull, w)
  else
    match admitRun c.host w.db agentId runId maxConcurrency with
    | .error e => .error e
    | .ok (admission, db) => .ok (admission.slot, w.withDb db)

def execute (w : World) (c : Choice) (snapshot : Run) : World × Task :=
  match c.ending with
  | .prepare step =>
    match prepareExecution c.host w.db snapshot step with
    | .ok (true, db) => (w.withDb db, .runWithLifecycle snapshot)
    | _ => (w, .finished)
  -- what throws after its transaction still goes on to fail the run
  | .succeed stepId result trace =>
    (w.withDb ((Op.finishRunSuccess snapshot.id stepId result trace).commit c.host w.db), .runWithLifecycle snapshot)
  | .fail stepId error trace =>
    (w.withDb ((Op.finishRunError snapshot.id stepId error trace).commit c.host w.db),
      .runJobRetryHook snapshot.id (some error))
  | .stop => (w, .finished)

def newRow (run : Run) (source : RerunSource) (c : Choice) (agentId : String) : Run :=
  { id := c.newRunId, status := .pending, initiatorAgentId := some agentId, triggerSource := run.triggerSource
    executionMetadata := some (replayMetadata run source c.consumerId) }

def newReplay (run : Run) (limit : Int) (newRunId : String) : Replay where
  id := newRunId
  source := run.id
  origin := chainOrigin run
  depth := (nextJobRetryAttempt (jobRetryAttempt run)).num.toNat
  limit := limit

def act (rt : Runtime) (w : World) (t : Task) (c : Choice) : Option (World × Task) :=
  if c.throws then some (w, .finished)
  else
    match t with
    | .admission runId agentId maxConcurrency =>
      match admitted w c agentId runId maxConcurrency with
      | .ok (.acquired, w') => some (w', .executeChatRun runId)
      | .ok (_, w') => some (w', .finished)
      | .error _ => some (w, .finished)
    | .executeChatRun runId =>
      some (w, match w.db.runs.find? runId with
        | some row => if row.status = .running then .runWithLifecycle row else .finished
        | none => .finished)
    | .runWithLifecycle snapshot => some (execute w c snapshot)
    | .runJobRetryHook runId error =>
      some (w, match w.db.runs.find? runId with
        | none => .finished
        | some run =>
          if run.status ≠ .failed then .finished
          else
            match run.initiatorAgentId.filter (· ≠ "") with
            | none => .finished
            | some agentId => .readConfig run agentId error)
    | .readConfig run agentId error =>
      some (w, match w.agents.find? agentId with
        | none => .finished
        | some agent =>
          let limit := maxJobRetries rt agent
          if limit ≤ 0 then .finished
          else
            match shouldRetryJob rt ⟨run.status, error, limit, jobRetryAttempt run⟩ with
            | some _ => .finished
            | none => .loadRerunSource run limit)
    | .loadRerunSource run limit =>
      let source := JobRetry.loadRerunSource w.db run
      some (w, match source.agentId.filter (· ≠ "") with
        | none => .finished
        | some agentId => .readAgent run limit source agentId)
    | .readAgent run limit source agentId =>
      some (w, match w.agents.find? agentId with
        | none => .finished
        | some agent =>
          if agent.status ≠ "active" then .finished
          else .insertReplay run limit source agentId (agent.maxConcurrency.getD 1))
    | .insertReplay run limit source agentId maxConcurrency =>
      if c.newRunId ∈ w.used then none
      else
        some ({ w with
          db := w.db.createRun (newRow run source c agentId)
          used := w.used ++ [c.newRunId]
          replays := w.replays ++ [newReplay run limit c.newRunId] }, .admitReplay c.newRunId agentId maxConcurrency)
    | .admitReplay runId agentId maxConcurrency =>
      match admitted w c agentId runId maxConcurrency with
      | .ok (.acquired, w') => some (w', .executeChatRun runId)
      | .ok (.queued, w') => some (w', .finished)
      | .ok (.queueFull, w') => some (w', .deleteReplay runId)
      | .error _ => some (w, .finished)
    | .deleteReplay runId => some (w.withDb (w.db.deleteRun runId), .finished)
    | .finished => none

def World.idle (w : World) (runId : String) : Bool :=
  w.threads.all fun t => t.task.runId? ≠ some runId

def Thread.crashed (process : String) (t : Thread) : Thread :=
  if t.process = process then { t with task := .finished } else t

def step (rt : Runtime) (w : World) : Event → Option World
  | .create process r agentId maxConcurrency =>
    if r.id ∈ w.used || !untagged r.executionMetadata then none
    else
      some { w with
        db := w.db.createRun r
        used := w.used ++ [r.id]
        threads := w.threads ++ [⟨process, .admission r.id agentId maxConcurrency⟩] }
  | .act i c => w.threads[i]?.bind fun t => (act rt w t.task c).map fun (w', task) =>
      { w' with threads := w'.threads.set i { t with task := task } }
  | .promote host agentId runId maxConcurrency =>
    match promoteQueuedRun host w.db agentId runId maxConcurrency with
    | .ok (true, db) =>
      some { w with
        db := db
        threads := w.threads ++ [⟨host.processInstanceId, .executeChatRun runId⟩] }
    | _ => some w
  -- recovery takes the runs of processes that are gone
  | .requeue host runId code owner =>
    if w.idle runId then some (w.withDb ((Op.requeueForResume runId code owner).commit host w.db)) else none
  | .commit host op => if spares op then some (w.withDb (op.commit host w.db)) else none
  | .configure agents tables =>
    some { w with agents := agents, db := { tables with runs := w.db.runs, runSteps := w.db.runSteps } }
  | .crash process => some { w with threads := w.threads.map (Thread.crashed process) }

def retryTags (m : Option Fields) : Option Json × Option Json :=
  (metaGet? m "jobRetryOf", metaGet? m "jobRetryAttempt")

structure Keeps (r r' : Run) : Prop where
  tags : retryTags r'.executionMetadata = retryTags r.executionMetadata
  terminal : r.status.terminal = true → r'.status.terminal = true
  queued : r'.status = .queued → r.status = .queued

section Rows

variable {host : Host} {db db' : Db} {k : String} {r r' : Run} {op : Op}

theorem Keeps.refl (r : Run) : Keeps r r := ⟨rfl, id, id⟩

theorem Keeps.of_terminal (htags : retryTags r'.executionMetadata = retryTags r.executionMetadata)
    (hs : r'.status.terminal = true) : Keeps r r' := by
  refine ⟨htags, fun _ => hs, ?_⟩
  intro hq
  rw [hq] at hs
  cases hs

theorem metaGet?_writes (m : Option Fields) (kvs : List (String × Option Json)) {k : String}
    (hk : k ∉ kvs.map Prod.fst) : metaGet? (some ((m.getD .nil).writes kvs)) k = metaGet? m k := by
  have hnone : kvs.reverse.find? (·.1 = k) = none := by
    rw [List.find?_eq_none]
    intro kv hkv hkey
    exact hk (List.mem_map.mpr ⟨kv, List.mem_reverse.mp hkv, of_decide_eq_true hkey⟩)
  have hget : ((m.getD .nil).writes kvs).get? k = (m.getD .nil).get? k := by
    rw [Fields.get?_writes, hnone]
    rfl
  cases m <;> exact hget

theorem retryTags_produce {d : Dialect} {read : Option Fields} (call : MergeCall)
    (hread : matchesMetadata d read r.executionMetadata = true) :
    retryTags (some ((read.getD .nil).writes (call.produce (read.getD .nil)))) = retryTags r.executionMetadata := by
  have hsame := eq_of_matchesMetadata hread
  subst hsame
  cases call <;> simp [retryTags, metaGet?_writes, MergeCall.produce]

theorem retryTags_requeued (db : Db) (r : Run) (code : String) :
    retryTags (some (requeuedMetadata db r code)) = retryTags r.executionMetadata := by
  cases hm : r.executionMetadata <;> simp only [retryTags, requeuedMetadata, hm] <;> split <;>
    simp [metaGet?, Fields.get?_set]

theorem retryTags_rewrite {snapshot : Option Fields}
    (h : retryTags snapshot = retryTags r.executionMetadata) :
    retryTags (rewriteMetadata snapshot r).executionMetadata = retryTags r.executionMetadata := by
  rw [rewriteMetadata]
  split
  · rw [← h]
    simp [retryTags, metaGet?_restMeta, consumedKeys]
  · rfl

theorem keeps_of_spares (hop : spares op = true) (h : Op.RowWrite host db op r r') : Keeps r r' := by
  cases h with
  | same => exact .refl r
  | settled _ hs => exact .of_terminal rfl hs
  | reaped | cancelled | failed => exact .of_terminal rfl rfl
  | prepared => cases hop
  | merged hread => exact ⟨retryTags_produce _ hread, id, id⟩
  | directed => exact ⟨rfl, id, id⟩
  | requeued => cases hop

end Rows

def Replay.tags (p : Replay) : Option Json × Option Json :=
  (some (.str p.origin), some (.num p.depth))

def tagsOf (replays : List Replay) (runId : String) : Option Json × Option Json :=
  match replays.find? fun p => p.id = runId with
  | some p => p.tags
  | none => (none, none)

def Tagged (replays : List Replay) (run : Run) : Prop :=
  retryTags run.executionMetadata = tagsOf replays run.id

structure Due (db : Db) (replays : List Replay) (run : Run) (limit : Int) : Prop where
  tagged : Tagged replays run
  settled : ∀ r, db.runs.find? run.id = some r → r.status.terminal = true
  unspent : jobRetryAttempt run < limit
  clamped : ∃ v, limit = clampJobRetries v

def Carries (db : Db) (replays : List Replay) : Task → Prop
  | .runWithLifecycle snapshot => Tagged replays snapshot
  | .readConfig run _ _ =>
    Tagged replays run ∧ ∀ r, db.runs.find? run.id = some r → r.status.terminal = true
  | .loadRerunSource run limit => Due db replays run limit
  | .readAgent run limit _ _ => Due db replays run limit
  | .insertReplay run limit _ _ _ => Due db replays run limit
  | _ => True

structure Fits (db : Db) (used : List String) (replays : List Replay) (task : Task) : Prop where
  known : ∀ k, task.runId? = some k → k ∈ used
  started : ∀ r, task.runId? = some r.id → db.runs.find? r.id = some r → r.status ≠ .queued
  unreplayed : ∀ p ∈ replays, task.runId? ≠ some p.source
  carried : Carries db replays task

def Alone (threads : List Thread) : Prop :=
  ∀ (i j : Nat) (t u : Thread) (k : String), threads[i]? = some t → threads[j]? = some u →
    t.task.runId? = some k → u.task.runId? = some k → i = j

structure Inv (w : World) : Prop where
  known : ∀ k r, w.db.runs.find? k = some r → k ∈ w.used
  tagged : ∀ k r, w.db.runs.find? k = some r → Tagged w.replays r
  alone : Alone w.threads
  fits : ∀ t ∈ w.threads, Fits w.db w.used w.replays t.task
  chained : Link.Chained (w.replays.map Replay.toLink)
  replayed : ∀ p ∈ w.replays, p.id ∈ w.used ∧ p.source ∈ w.used
  spent : ∀ p ∈ w.replays, ∀ r, w.db.runs.find? p.source = some r → r.status.terminal = true
  within : ∀ p ∈ w.replays, (p.depth : Int) ≤ p.limit ∧ ∃ v, p.limit = clampJobRetries v

section Invariant

variable {rt : Runtime} {w w' : World} {db : Db} {used : List String} {replays : List Replay}
  {i : Nat} {t : Thread} {task : Task} {k : String}

theorem inv_initial : Inv {} := by
  constructor
  case chained => exact ⟨by simp, by simp, by simp⟩
  all_goals simp [Alone]

theorem fits_finished : Fits db used replays .finished :=
  ⟨fun _ h => (nomatch h), fun _ h => (nomatch h), fun _ _ h => (nomatch h), trivial⟩

theorem Inv.fewer {threads : List Thread} (h : Inv w)
    (hold : ∀ (i : Nat) (t : Thread), threads[i]? = some t →
      t.task = .finished ∨ ∃ u, w.threads[i]? = some u ∧ t.task = u.task) :
    Inv { w with threads := threads } := by
  refine ⟨h.known, h.tagged, ?_, ?_, h.chained, h.replayed, h.spent, h.within⟩
  · intro i j t u k hi hj ht hu
    obtain hfin | ⟨t', hi', htask⟩ := hold i t hi
    · rw [hfin] at ht
      cases ht
    · obtain hfin | ⟨u', hj', hutask⟩ := hold j u hj
      · rw [hfin] at hu
        cases hu
      · rw [htask] at ht
        rw [hutask] at hu
        exact h.alone i j t' u' k hi' hj' ht hu
  · intro t ht
    obtain ⟨i, hi⟩ := List.mem_iff_getElem?.mp ht
    obtain hfin | ⟨u, hu, htask⟩ := hold i t hi
    · rw [hfin]
      exact fits_finished
    · rw [htask]
      exact h.fits u (List.mem_of_getElem? hu)

theorem Inv.goOn (h : Inv w) (hi : w.threads[i]? = some t) (hfits : Fits w.db w.used w.replays task)
    (hother : ∀ k, task.runId? = some k → t.task.runId? = some k ∨ ∀ u ∈ w.threads, u.task.runId? ≠ some k) :
    Inv { w with threads := w.threads.set i { t with task := task } } := by
  have hone : ∀ (j : Nat) (u : Thread) (k : String), j ≠ i → w.threads[j]? = some u → task.runId? = some k →
      u.task.runId? ≠ some k := by
    intro j u k hne hj hk hu
    obtain hsame | hfree := hother k hk
    · exact hne (h.alone j i u t k hj hi hu hsame)
    · exact hfree u (List.mem_of_getElem? hj) hu
  refine ⟨h.known, h.tagged, ?_, ?_, h.chained, h.replayed, h.spent, h.within⟩
  · intro j j' u u' k hj hj' hu hu'
    obtain ⟨rfl, rfl⟩ | ⟨hne, hold⟩ := Pool.getElem?_set_cases hj
    · obtain ⟨rfl, rfl⟩ | ⟨hne', hold'⟩ := Pool.getElem?_set_cases hj'
      · rfl
      · exact absurd hu' (hone j' u' k hne' hold' hu)
    · obtain ⟨rfl, rfl⟩ | ⟨hne', hold'⟩ := Pool.getElem?_set_cases hj'
      · exact absurd hu (hone j u k hne hold hu')
      · exact h.alone j j' u u' k hold hold' hu hu'
  · intro u hu
    obtain ⟨j, hj⟩ := List.mem_iff_getElem?.mp hu
    obtain ⟨rfl, rfl⟩ | ⟨-, hj⟩ := Pool.getElem?_set_cases hj
    · exact hfits
    · exact h.fits u (List.mem_of_getElem? hj)

theorem Inv.finish (h : Inv w) : Inv { w with threads := w.threads.set i { t with task := .finished } } := by
  apply h.fewer
  intro j u hj
  obtain ⟨-, rfl⟩ | ⟨-, hj⟩ := Pool.getElem?_set_cases hj
  · exact .inl rfl
  · exact .inr ⟨u, hj, rfl⟩

theorem Inv.spawn (h : Inv w) (hfits : Fits w.db w.used w.replays t.task)
    (hother : ∀ k, t.task.runId? = some k → ∀ u ∈ w.threads, u.task.runId? ≠ some k) :
    Inv { w with threads := w.threads ++ [t] } := by
  refine ⟨h.known, h.tagged, ?_, ?_, h.chained, h.replayed, h.spent, h.within⟩
  · intro j j' u u' k hj hj' hu hu'
    rw [List.getElem?_append] at hj hj'
    split at hj
    · split at hj'
      · exact h.alone j j' u u' k hj hj' hu hu'
      · have hlast := List.mem_singleton.mp (List.mem_of_getElem? hj')
        subst hlast
        exact absurd hu (hother k hu' u (List.mem_of_getElem? hj))
    · have hlast := List.mem_singleton.mp (List.mem_of_getElem? hj)
      subst hlast
      split at hj'
      · exact absurd hu' (hother k hu u' (List.mem_of_getElem? hj'))
      · have hi := (List.getElem?_eq_some_iff.mp hj).1
        have hi' := (List.getElem?_eq_some_iff.mp hj').1
        simp only [List.length_singleton] at hi hi'
        omega
  · intro u hu
    obtain hold | hnew := List.mem_append.mp hu
    · exact h.fits u hold
    · rw [List.mem_singleton.mp hnew]
      exact hfits

theorem Inv.write (h : Inv w)
    (hrows : ∀ k r', db.runs.find? k = some r' → ∃ r, w.db.runs.find? k = some r ∧
      retryTags r'.executionMetadata = retryTags r.executionMetadata ∧
      (Keeps r r' ∨ (∀ t ∈ w.threads, t.task.runId? ≠ some k) ∧ ∀ p ∈ w.replays, p.source ≠ k)) :
    Inv (w.withDb db) := by
  have hsettled : ∀ t ∈ w.threads, ∀ k, t.task.runId? = some k →
      (∀ r, w.db.runs.find? k = some r → r.status.terminal = true) →
      ∀ r, db.runs.find? k = some r → r.status.terminal = true := by
    intro t ht k hk hterm r' hr'
    obtain ⟨r, hr, -, hkeeps | ⟨hidle, -⟩⟩ := hrows k r' hr'
    · exact hkeeps.terminal (hterm r hr)
    · exact absurd hk (hidle t ht)
  refine ⟨?_, ?_, h.alone, ?_, h.chained, h.replayed, ?_, h.within⟩
  · intro k r' hr'
    obtain ⟨r, hr, -⟩ := hrows k r' hr'
    exact h.known k r hr
  · intro k r' hr'
    obtain ⟨r, hr, htags, -⟩ := hrows k r' hr'
    have hid : r'.id = r.id := (Table.find?_some_key hr').trans (Table.find?_some_key hr).symm
    rw [Tagged, htags, hid]
    exact h.tagged k r hr
  · intro t ht
    have hfits := h.fits t ht
    refine ⟨hfits.known, ?_, hfits.unreplayed, ?_⟩
    · intro r' hk hr' hq
      obtain ⟨r, hr, -, hkeeps | ⟨hidle, -⟩⟩ := hrows r'.id r' hr'
      · have hid : r.id = r'.id := Table.find?_some_key hr
        exact hfits.started r (hid.symm ▸ hk) (hid.symm ▸ hr) (hkeeps.queued hq)
      · exact hidle t ht hk
    · have hcarried := hfits.carried
      have hdue : ∀ run limit, t.task.runId? = some run.id → Due w.db w.replays run limit →
          Due db w.replays run limit := fun run limit hk hdue =>
        ⟨hdue.tagged, hsettled t ht run.id hk hdue.settled, hdue.unspent, hdue.clamped⟩
      cases htask : t.task <;> rw [htask] at hcarried
      case readConfig run agentId error =>
        exact ⟨hcarried.1, hsettled t ht run.id (by rw [htask]; rfl) hcarried.2⟩
      case loadRerunSource run limit => exact hdue run limit (by rw [htask]; rfl) hcarried
      case readAgent run limit _ _ => exact hdue run limit (by rw [htask]; rfl) hcarried
      case insertReplay run limit _ _ _ => exact hdue run limit (by rw [htask]; rfl) hcarried
      all_goals exact hcarried
  · intro p hp r' hr'
    obtain ⟨r, hr, -, hkeeps | ⟨-, hfree⟩⟩ := hrows p.source r' hr'
    · exact hkeeps.terminal (h.spent p hp r hr)
    · exact absurd rfl (hfree p hp)

theorem Inv.keep (h : Inv w)
    (hrows : ∀ k r', db.runs.find? k = some r' → ∃ r, w.db.runs.find? k = some r ∧ Keeps r r') :
    Inv (w.withDb db) := by
  apply h.write
  intro k r' hr'
  obtain ⟨r, hr, hkeeps⟩ := hrows k r' hr'
  exact ⟨r, hr, hkeeps.tags, .inl hkeeps⟩

variable {host : Host}

theorem Inv.commit {op : Op} (h : Inv w) (hop : spares op = true) : Inv (w.withDb (op.commit host w.db)) := by
  apply h.keep
  intro k r' hr'
  have hcreate : ∀ r, op ≠ .createRun r := by
    rintro r rfl
    cases hop
  obtain ⟨r, hr, hwrite⟩ := Op.rowWrite hcreate hr'
  exact ⟨r, hr, keeps_of_spares hop hwrite⟩

theorem Inv.start {r r' : Run} (h : Inv w) (hidle : ∀ t ∈ w.threads, t.task.runId? ≠ some k)
    (hsource : ∀ p ∈ w.replays, p.source ≠ k) (hr : w.db.runs.find? k = some r)
    (htags : retryTags r'.executionMetadata = retryTags r.executionMetadata)
    (hnew : db.runs.find? k = some r')
    (hother : ∀ l, l ≠ k → db.runs.find? l = w.db.runs.find? l) : Inv (w.withDb db) := by
  apply h.write
  intro l row hrow
  by_cases hl : l = k
  · subst hl
    rw [hnew] at hrow
    cases hrow
    exact ⟨r, hr, htags, .inr ⟨hidle, hsource⟩⟩
  · rw [hother l hl] at hrow
    exact ⟨row, hrow, rfl, .inl (.refl row)⟩

theorem tagsOf_append {extra : List Replay} (hid : ∀ p ∈ extra, p.id ≠ k) :
    tagsOf (replays ++ extra) k = tagsOf replays k := by
  have hnone : extra.find? (fun p => decide (p.id = k)) = none := by
    rw [List.find?_eq_none]
    intro p hp
    simpa using hid p hp
  rw [tagsOf, tagsOf, List.find?_append, hnone, Option.or_none]

theorem Inv.grow (h : Inv w) (r : Run) (extra : List Replay) (hnew : r.id ∉ w.used)
    (hid : ∀ p ∈ extra, p.id = r.id) (htagged : Tagged (w.replays ++ extra) r)
    (hchained : Link.Chained ((w.replays ++ extra).map Replay.toLink))
    (hsource : ∀ p ∈ extra, p.source ∈ w.used ∧ (∀ t ∈ w.threads, t.task.runId? ≠ some p.source) ∧
      ∀ r, w.db.runs.find? p.source = some r → r.status.terminal = true)
    (hwithin : ∀ p ∈ extra, (p.depth : Int) ≤ p.limit ∧ ∃ v, p.limit = clampJobRetries v) :
    Inv { w with
      db := w.db.createRun r
      used := w.used ++ [r.id]
      replays := w.replays ++ extra } := by
  have hfree : w.db.runs.find? r.id = none := by
    cases hr : w.db.runs.find? r.id with
    | none => rfl
    | some row => exact absurd (h.known r.id row hr) hnew
  have hne : ∀ k ∈ w.used, k ≠ r.id := fun k hk heq => hnew (heq ▸ hk)
  have hrow : ∀ k ∈ w.used, (w.db.createRun r).runs.find? k = w.db.runs.find? k := fun k hk =>
    find?_createRun (hne k hk)
  have htag : ∀ run : Run, run.id ∈ w.used → Tagged w.replays run → Tagged (w.replays ++ extra) run := by
    intro run hused hrun
    rw [Tagged, tagsOf_append fun p hp => (hid p hp).trans_ne (hne run.id hused).symm]
    exact hrun
  refine ⟨?_, ?_, h.alone, ?_, hchained, ?_, ?_, ?_⟩
  · intro k row hk
    by_cases hkr : k = r.id
    · simp [hkr]
    · rw [find?_createRun hkr] at hk
      exact List.mem_append_left _ (h.known k row hk)
  · intro k row hk
    by_cases hkr : k = r.id
    · subst hkr
      rw [find?_createRun_self hfree hk]
      exact htagged
    · rw [find?_createRun hkr] at hk
      have hused := h.known k row hk
      rw [← show row.id = k from Table.find?_some_key hk] at hused
      exact htag row hused (h.tagged k row hk)
  · intro t ht
    have hfits := h.fits t ht
    refine ⟨?_, ?_, ?_, ?_⟩
    · intro k hk
      exact List.mem_append_left _ (hfits.known k hk)
    · intro row hk hr
      rw [hrow row.id (hfits.known row.id hk)] at hr
      exact hfits.started row hk hr
    · intro p hp
      obtain hp | hp := List.mem_append.mp hp
      · exact hfits.unreplayed p hp
      · exact (hsource p hp).2.1 t ht
    · have hcarried := hfits.carried
      have hdue : ∀ run limit, t.task.runId? = some run.id → Due w.db w.replays run limit →
          Due (w.db.createRun r) (w.replays ++ extra) run limit := by
        intro run limit hk hdue
        have hused := hfits.known run.id hk
        exact ⟨htag run hused hdue.tagged, hrow run.id hused ▸ hdue.settled, hdue.unspent, hdue.clamped⟩
      cases htask : t.task <;> rw [htask] at hcarried
      case runWithLifecycle snapshot =>
        exact htag snapshot (hfits.known snapshot.id (by rw [htask]; rfl)) hcarried
      case readConfig run agentId error =>
        have hused := hfits.known run.id (by rw [htask]; rfl)
        exact ⟨htag run hused hcarried.1, hrow run.id hused ▸ hcarried.2⟩
      case loadRerunSource run limit => exact hdue run limit (by rw [htask]; rfl) hcarried
      case readAgent run limit _ _ => exact hdue run limit (by rw [htask]; rfl) hcarried
      case insertReplay run limit _ _ _ => exact hdue run limit (by rw [htask]; rfl) hcarried
      all_goals exact hcarried
  · intro p hp
    obtain hp | hp := List.mem_append.mp hp
    · exact ⟨List.mem_append_left _ (h.replayed p hp).1, List.mem_append_left _ (h.replayed p hp).2⟩
    · exact ⟨by simp [hid p hp], List.mem_append_left _ (hsource p hp).1⟩
  · intro p hp
    obtain hp | hp := List.mem_append.mp hp
    · rw [hrow p.source (h.replayed p hp).2]
      exact h.spent p hp
    · rw [hrow p.source (hsource p hp).1]
      exact (hsource p hp).2.2
  · intro p hp
    obtain hp | hp := List.mem_append.mp hp
    · exact h.within p hp
    · exact hwithin p hp

theorem Inv.next (h : Inv w) (hi : w.threads[i]? = some t) (hk : task.runId? = t.task.runId?)
    (hcarries : Carries w.db w.replays task) :
    Inv { w with threads := w.threads.set i { t with task := task } } := by
  have hfits := h.fits t (List.mem_of_getElem? hi)
  apply h.goOn hi
  · refine ⟨?_, ?_, ?_, hcarries⟩
    · rw [hk]
      exact hfits.known
    · rw [hk]
      exact hfits.started
    · rw [hk]
      exact hfits.unreplayed
  · rw [hk]
    exact fun k hk => .inl hk

variable {agentId runId : String} {c : Choice} {m : Nat}

theorem admitted_cases {slot : SlotResult}
    (h : admitted w c agentId runId m = .ok (slot, w')) :
    (slot = .queueFull ∧ w' = w) ∨
    ∃ db r r', w' = w.withDb db ∧ w.db.runs.find? runId = some r ∧ db.runs.find? runId = some r' ∧
      r'.executionMetadata = r.executionMetadata ∧ (slot = .acquired → r'.status = .running) ∧
      slot ≠ .queueFull ∧ ∀ l, l ≠ runId → db.runs.find? l = w.db.runs.find? l := by
  rw [admitted] at h
  split at h
  · cases h
    exact .inl ⟨rfl, rfl⟩
  · split at h
    · cases h
    · rename_i res db hadmit
      cases h
      obtain ⟨hslot, -, -, rfl⟩ | ⟨db₁, db₂, hres, hslot, hcas, hact⟩ := admitRun_cases hadmit
      · exact .inl ⟨hslot, rfl⟩
      · obtain ⟨r, hr, -, hnew, hother⟩ := Db.casRun_find? hcas
        rw [← hact.only.runs, hres.runs] at *
        refine .inr ⟨db, r, _, rfl, hr, hnew, rfl, ?_, ?_, hother⟩
        · intro hacq
          rw [hslot] at hacq
          split at hacq
          · rename_i hlt
            simp [admitRow, hlt]
          · cases hacq
        · rw [hslot]
          split <;> decide

theorem promoted_cases
    (h : promoteQueuedRun host w.db agentId runId m = .ok (true, db)) :
    ∃ r r', w.db.runs.find? runId = some r ∧ r.status = .queued ∧ db.runs.find? runId = some r' ∧
      r'.executionMetadata = r.executionMetadata ∧ r'.status = .running ∧
      ∀ l, l ≠ runId → db.runs.find? l = w.db.runs.find? l := by
  obtain ⟨hfalse, -⟩ | ⟨-, -, db₁, hcas, hact⟩ := promoteQueuedRun_cases h
  · cases hfalse
  · obtain ⟨r, hr, hq, hnew, hother⟩ := Db.casRun_find? hcas
    rw [← hact.only.runs] at hnew hother
    exact ⟨r, _, hr, of_decide_eq_true hq, hnew, rfl, rfl, hother⟩

theorem fits_executeChatRun {r : Run} (hk : k ∈ used) (hr : db.runs.find? k = some r)
    (hrun : r.status = .running) (hsource : ∀ p ∈ replays, p.source ≠ k) :
    Fits db used replays (.executeChatRun k) := by
  refine ⟨?_, ?_, ?_, trivial⟩
  · rintro l ⟨⟩
    exact hk
  · intro row hid hrow hq
    cases hid
    rw [hr] at hrow
    cases hrow
    rw [hrun] at hq
    cases hq
  · intro p hp heq
    exact hsource p hp (Option.some.inj heq).symm

theorem Inv.free (h : Inv w) (hi : w.threads[i]? = some t) (hk : t.task.runId? = some k) :
    ∀ u ∈ w.threads.set i { t with task := .finished }, u.task.runId? ≠ some k := by
  intro u hu hrun
  obtain ⟨j, hj⟩ := List.mem_iff_getElem?.mp hu
  obtain ⟨-, rfl⟩ | ⟨hne, hold⟩ := Pool.getElem?_set_cases hj
  · cases hrun
  · exact hne (h.alone j i u t k hold hi hrun hk)

theorem Inv.admitted {slot : SlotResult}
    (h : Inv w) (hi : w.threads[i]? = some t) (hk : t.task.runId? = some runId)
    (ha : admitted w c agentId runId m = .ok (slot, w')) :
    Inv { w' with threads := w'.threads.set i { t with task := .finished } } ∧ (slot = .acquired →
        Inv { w' with threads := w'.threads.set i { t with task := .executeChatRun runId } }) ∧
      (slot = .queueFull → w' = w) := by
  have hfits := h.fits t (List.mem_of_getElem? hi)
  have hidle : Inv { w with threads := w.threads.set i { t with task := .finished } } := h.finish
  obtain ⟨rfl, rfl⟩ | ⟨db, r, r', rfl, hr, hnew, hmeta, hacq, hfull, hother⟩ := admitted_cases ha
  · exact ⟨hidle, fun hs => (nomatch hs), fun _ => rfl⟩
  · have hsource : ∀ p ∈ w.replays, p.source ≠ runId := by
      intro p hp heq
      exact hfits.unreplayed p hp (heq ▸ hk)
    have hfree := h.free hi hk
    have hwritten := hidle.start hfree hsource hr (by rw [hmeta]) hnew hother
    refine ⟨hwritten, ?_, ?_⟩
    · intro hs
      have hlt := (List.getElem?_eq_some_iff.mp hi).1
      have hset : (w.threads.set i { t with task := .finished })[i]? =
          some { t with task := .finished } := by simp [hlt]
      have hgo := hwritten.goOn hset
        (fits_executeChatRun (hfits.known runId hk) hnew (hacq hs) hsource)
        (fun k hk => by cases hk; exact .inr hfree)
      simpa only [World.withDb, List.set_set] using hgo
    · exact fun hs => absurd hs hfull

theorem Inv.execute {snapshot : Run} (h : Inv w) (hi : w.threads[i]? = some t)
    (ht : t.task = .runWithLifecycle snapshot) (he : execute w c snapshot = (w', task)) :
    Inv { w' with threads := w'.threads.set i { t with task := task } } := by
  have hcarried : Tagged w.replays snapshot := by
    have hcarried := (h.fits t (List.mem_of_getElem? hi)).carried
    rw [ht] at hcarried
    exact hcarried
  rw [JobRetry.execute] at he
  split at he
  · split at he
    · rename_i step _ _ db hprep
      cases he
      have hwritten : Inv (w.withDb db) := by
        apply h.keep
        intro k r' hr'
        have hrow : (Op.prepareExecution snapshot step).commit c.host w.db = db := by
          simp [Op.commit, hprep, committed]
        rw [← hrow] at hr'
        obtain ⟨r, hr, hwrite⟩ := Op.rowWrite (by simp) hr'
        cases hwrite with
        | same => exact ⟨_, hr, .refl _⟩
        | settled _ hs => exact ⟨_, hr, .of_terminal rfl hs⟩
        | prepared hrun hid =>
          have htags := (h.tagged k r hr)
          rw [Tagged, hid, ← hcarried] at htags
          refine ⟨r, hr, retryTags_rewrite htags.symm, ?_, ?_⟩
          · rw [hrun]
            exact fun hterm => by cases hterm
          · intro hq
            simp only [rewriteMetadata] at hq
            split at hq <;> exact hq
      exact hwritten.next hi (by rw [ht]) hcarried
    · cases he
      exact h.finish
  · rename_i stepId result trace _
    cases he
    have hwritten : Inv (w.withDb
      ((Op.finishRunSuccess snapshot.id stepId result trace).commit c.host w.db)) := h.commit rfl
    exact hwritten.next hi (by rw [ht]) hcarried
  · rename_i stepId error trace _
    cases he
    have hwritten : Inv (w.withDb
      ((Op.finishRunError snapshot.id stepId error trace).commit c.host w.db)) := h.commit rfl
    exact hwritten.next hi (by rw [ht]; rfl) trivial
  · cases he
    exact h.finish

theorem place_of_tagged {run : Run} (h : Tagged replays run) :
    (∃ p ∈ replays, p.id = run.id ∧ chainOrigin run = p.origin ∧ jobRetryAttempt run = p.depth) ∨
      (∀ p ∈ replays, p.id ≠ run.id) ∧ chainOrigin run = run.id ∧ jobRetryAttempt run = 0 := by
  rw [Tagged, tagsOf] at h
  split at h
  · rename_i p hp
    obtain ⟨hof, hattempt⟩ := Prod.mk.inj h
    refine .inl ⟨p, List.mem_of_find?_eq_some hp, by simpa using List.find?_some hp, ?_, ?_⟩
    · simp [chainOrigin, hof, Json.asStr?]
    · simp [jobRetryAttempt, hattempt, Json.asNum?]
  · rename_i hnone
    obtain ⟨hof, hattempt⟩ := Prod.mk.inj h
    refine .inr ⟨by simpa using hnone, ?_, ?_⟩
    · simp [chainOrigin, hof]
    · simp [jobRetryAttempt, hattempt]

theorem retryTags_replayMetadata (run : Run) (source : RerunSource) (consumerId : Option String) :
    retryTags (some (replayMetadata run source consumerId)) =
      (some (.str (chainOrigin run)), some (.num (nextJobRetryAttempt (jobRetryAttempt run)))) := by
  simp [retryTags, replayMetadata, metaGet?, Fields.get?_set]

theorem tagsOf_append_self {p : Replay} (hfree : ∀ q ∈ replays, q.id ≠ p.id) :
    tagsOf (replays ++ [p]) p.id = p.tags := by
  have hnone : replays.find? (fun q => decide (q.id = p.id)) = none := by
    rw [List.find?_eq_none]
    intro q hq
    simpa using hfree q hq
  rw [tagsOf, List.find?_append, hnone]
  simp

section NewReplay

variable {run : Run} {limit : Int} {newRunId : String} {d : Nat}

theorem nextJobRetryAttempt_cast (hd : jobRetryAttempt run = d) :
    nextJobRetryAttempt (jobRetryAttempt run) = ((d + 1 : Nat) : ℚ) := by
  rw [hd, nextJobRetryAttempt]
  push_cast
  rfl

theorem newReplay_depth (hd : jobRetryAttempt run = d) : (newReplay run limit newRunId).depth = d + 1 := by
  simp only [newReplay, nextJobRetryAttempt_cast hd]
  rfl

theorem newReplay_tags (hd : jobRetryAttempt run = d) (source : RerunSource) (consumerId : Option String) :
    retryTags (some (replayMetadata run source consumerId)) = (newReplay run limit newRunId).tags := by
  rw [retryTags_replayMetadata, nextJobRetryAttempt_cast hd, Replay.tags, newReplay_depth hd]
  rfl

theorem follows_newReplay (h : Tagged replays run) : ∃ d : Nat, jobRetryAttempt run = d ∧
    Link.Follows (replays.map Replay.toLink) (newReplay run limit newRunId).toLink := by
  obtain ⟨p, hp, hid, horigin, hattempt⟩ | ⟨hfree, horigin, hattempt⟩ := place_of_tagged h
  · have hlink := List.mem_map_of_mem (f := Replay.toLink) hp
    exact ⟨p.depth, hattempt, .inl ⟨p.toLink, hlink, hid, horigin, newReplay_depth hattempt⟩⟩
  · have hzero : jobRetryAttempt run = (0 : Nat) := by simpa using hattempt
    refine ⟨0, hzero, .inr ⟨?_, horigin, newReplay_depth hzero⟩⟩
    intro l hl
    obtain ⟨p, hp, rfl⟩ := List.mem_map.mp hl
    exact hfree p hp

end NewReplay

theorem Inv.insertReplay {run : Run} {limit : Int} {source : RerunSource}
    {agentId : String} (h : Inv w) (hi : w.threads[i]? = some t)
    (ht : t.task = .insertReplay run limit source agentId m) (hnew : c.newRunId ∉ w.used) :
    Inv { w with
      db := w.db.createRun (newRow run source c agentId)
      used := w.used ++ [c.newRunId]
      replays := w.replays ++ [newReplay run limit c.newRunId]
      threads := w.threads.set i { t with task := .admitReplay c.newRunId agentId m } } := by
  have hfits := h.fits t (List.mem_of_getElem? hi)
  have hk : t.task.runId? = some run.id := by rw [ht]; rfl
  have hdue : Due w.db w.replays run limit := by
    have hcarried := hfits.carried
    rw [ht] at hcarried
    exact hcarried
  have hused := hfits.known run.id hk
  have hne : ∀ k ∈ w.used, k ≠ c.newRunId := fun k hk heq => hnew (heq ▸ hk)
  have hids : ∀ p ∈ w.replays, p.id ≠ c.newRunId := fun p hp => hne p.id (h.replayed p hp).1
  obtain ⟨d, hd, hfollows⟩ : ∃ d : Nat, jobRetryAttempt run = d ∧
    Link.Follows (w.replays.map Replay.toLink) (newReplay run limit c.newRunId).toLink :=
      follows_newReplay hdue.tagged
  have hidle : Inv { w with threads := w.threads.set i { t with task := .finished } } := h.finish
  have htags : tagsOf (w.replays ++ [newReplay run limit c.newRunId]) c.newRunId =
      (newReplay run limit c.newRunId).tags := tagsOf_append_self hids
  have hgrown := hidle.grow (newRow run source c agentId) [newReplay run limit c.newRunId] hnew
    (by simp [newReplay, newRow])
    ((newReplay_tags hd source c.consumerId).trans htags.symm)
    (by
      rw [List.map_append]
      apply h.chained.append
      · intro l hl
        obtain ⟨p, hp, rfl⟩ := List.mem_map.mp hl
        exact hids p hp
      · exact hne run.id hused
      · intro l hl
        obtain ⟨p, hp, rfl⟩ := List.mem_map.mp hl
        exact ⟨fun heq => hfits.unreplayed p hp (heq ▸ hk), hne p.source (h.replayed p hp).2⟩
      · exact hfollows)
    (by
      intro p hp
      rw [List.mem_singleton.mp hp]
      exact ⟨hused, h.free hi hk, hdue.settled⟩)
    (by
      intro p hp
      rw [List.mem_singleton.mp hp, newReplay_depth hd]
      have hunspent := hdue.unspent
      rw [hd] at hunspent
      have hlt : (d : Int) < limit := by exact_mod_cast hunspent
      exact ⟨by simp only [newReplay]; omega, hdue.clamped⟩)
  have hset : (w.threads.set i { t with task := .finished })[i]? = some { t with task := .finished } := by
    simp [(List.getElem?_eq_some_iff.mp hi).1]
  have hadmits : Fits (w.db.createRun (newRow run source c agentId)) (w.used ++ [c.newRunId])
      (w.replays ++ [newReplay run limit c.newRunId]) (.admitReplay c.newRunId agentId m) := by
    refine ⟨?_, ?_, ?_, trivial⟩
    · rintro k ⟨⟩
      simp
    · intro row hid hrow hq
      have hfree : w.db.runs.find? (newRow run source c agentId).id = none := by
        cases hr : w.db.runs.find? (newRow run source c agentId).id with
        | none => rfl
        | some row => exact absurd (h.known _ row hr) hnew
      have hrowId : row.id = (newRow run source c agentId).id := (Option.some.inj hid).symm
      rw [hrowId] at hrow
      rw [find?_createRun_self hfree hrow] at hq
      cases hq
    · intro p hp heq
      have hid : p.source = c.newRunId := (Option.some.inj heq).symm
      obtain hp | hp := List.mem_append.mp hp
      · exact hne p.source (h.replayed p hp).2 hid
      · rw [List.mem_singleton.mp hp] at hid
        exact hne run.id hused hid
  have hgo := hgrown.goOn hset hadmits (by
    rintro k ⟨⟩
    refine .inr ?_
    intro u hu hrun
    exact hnew ((hidle.fits u hu).known c.newRunId hrun))
  simp only [List.set_set] at hgo
  exact hgo

theorem Inv.act (h : Inv w) (hi : w.threads[i]? = some t)
    (ha : act rt w t.task c = some (w', task)) :
    Inv { w' with threads := w'.threads.set i { t with task := task } } := by
  have hcarried := (h.fits t (List.mem_of_getElem? hi)).carried
  have hfinish : Inv { w with threads := w.threads.set i { t with task := .finished } } := h.finish
  rw [JobRetry.act.eq_def] at ha
  split at ha
  · cases ha
    exact hfinish
  cases ht : t.task with
  | admission runId agentId m =>
    rw [ht] at ha
    dsimp only at ha
    split at ha
    · rename_i w₁ hadmit
      cases ha
      exact (h.admitted hi (by rw [ht]; rfl) hadmit).2.1 rfl
    · rename_i slot w₁ _ hadmit
      cases ha
      exact (h.admitted hi (by rw [ht]; rfl) hadmit).1
    · cases ha
      exact hfinish
  | executeChatRun runId =>
    rw [ht] at ha
    cases ha
    split
    · rename_i row hrow
      split
      · refine h.next hi ?_ (h.tagged runId row hrow)
        simp only [ht, Task.runId?, show row.id = runId from Table.find?_some_key hrow]
      · exact hfinish
    · exact hfinish
  | runWithLifecycle snapshot =>
    rw [ht] at ha
    exact h.execute hi ht (Option.some.inj ha)
  | runJobRetryHook runId error =>
    rw [ht] at ha
    cases ha
    split
    · exact hfinish
    · rename_i run hrun
      have hid : run.id = runId := Table.find?_some_key hrun
      split
      · exact hfinish
      · rename_i hfailed
        split
        · exact hfinish
        · refine h.next hi (by simp only [ht, Task.runId?, hid]) ⟨h.tagged runId run hrun, ?_⟩
          intro r hr
          rw [hid, hrun] at hr
          cases hr
          rw [of_not_not hfailed]
          rfl
  | readConfig run agentId error =>
    rw [ht] at ha hcarried
    cases ha
    split
    · exact hfinish
    · dsimp only
      split
      · exact hfinish
      · split
        · exact hfinish
        · rename_i hdecision
          refine h.next hi (by rw [ht]; rfl) ⟨hcarried.1, hcarried.2, ?_, ⟨_, rfl⟩⟩
          rw [shouldRetryJob] at hdecision
          split at hdecision
          · cases hdecision
          split at hdecision
          · cases hdecision
          split at hdecision
          · cases hdecision
          · rename_i hspent
            exact not_le.mp hspent
  | loadRerunSource run limit =>
    rw [ht] at ha hcarried
    cases ha
    split
    · exact hfinish
    · exact h.next hi (by rw [ht]; rfl) hcarried
  | readAgent run limit source agentId =>
    rw [ht] at ha hcarried
    cases ha
    split
    · exact hfinish
    · split
      · exact hfinish
      · exact h.next hi (by rw [ht]; rfl) hcarried
  | insertReplay run limit source agentId m =>
    rw [ht] at ha
    dsimp only at ha
    split at ha
    · cases ha
    · rename_i hnew
      cases ha
      exact h.insertReplay hi ht hnew
  | admitReplay runId agentId m =>
    rw [ht] at ha
    dsimp only at ha
    split at ha
    · rename_i w₁ hadmit
      cases ha
      exact (h.admitted hi (by rw [ht]; rfl) hadmit).2.1 rfl
    · rename_i w₁ hadmit
      cases ha
      exact (h.admitted hi (by rw [ht]; rfl) hadmit).1
    · rename_i w₁ hadmit
      cases ha
      rw [(h.admitted hi (by rw [ht]; rfl) hadmit).2.2 rfl]
      exact h.next hi (by rw [ht]; rfl) trivial
    · cases ha
      exact hfinish
  | deleteReplay runId =>
    rw [ht] at ha
    cases ha
    have hdeleted : Inv (w.withDb ((Op.deleteRun runId).commit c.host w.db)) := h.commit rfl
    exact hdeleted.finish
  | finished =>
    rw [ht] at ha
    cases ha

theorem tagged_untagged {r : Run} (h : untagged r.executionMetadata = true)
    (hfree : ∀ p ∈ replays, p.id ≠ r.id) : Tagged replays r := by
  have hnone : replays.find? (fun p => decide (p.id = r.id)) = none := by
    rw [List.find?_eq_none]
    intro p hp
    simpa using hfree p hp
  simp only [untagged, Bool.and_eq_true, Option.isNone_iff_eq_none] at h
  rw [Tagged, tagsOf, hnone, retryTags, h.1, h.2]

theorem Inv.create {process agentId : String} {r : Run} (h : Inv w) (hnew : r.id ∉ w.used)
    (huntagged : untagged r.executionMetadata = true) :
    Inv { w with
      db := w.db.createRun r
      used := w.used ++ [r.id]
      threads := w.threads ++ [⟨process, .admission r.id agentId m⟩] } := by
  have hids : ∀ p ∈ w.replays, p.id ≠ r.id := fun p hp heq => hnew (heq ▸ (h.replayed p hp).1)
  have hgrown := h.grow r [] hnew (by simp)
    (by simpa using tagged_untagged huntagged hids) (by simpa using h.chained) (by simp) (by simp)
  rw [List.append_nil] at hgrown
  refine hgrown.spawn ⟨?_, ?_, ?_, trivial⟩ ?_
  · rintro k ⟨⟩
    simp
  · intro row hid hrow hq
    have hfree : w.db.runs.find? r.id = none := by
      cases hr : w.db.runs.find? r.id with
      | none => rfl
      | some row => exact absurd (h.known _ row hr) hnew
    rw [← show r.id = row.id from Option.some.inj hid] at hrow
    rw [find?_createRun_self hfree hrow] at hq
    cases hq
  · intro p hp heq
    exact hnew ((Option.some.inj heq) ▸ (h.replayed p hp).2)
  · rintro k ⟨⟩ u hu hrun
    exact hnew ((h.fits u hu).known r.id hrun)

theorem Inv.promote (h : Inv w)
    (hp : promoteQueuedRun host w.db agentId runId m = .ok (true, db)) :
    Inv { w with
      db := db
      threads := w.threads ++ [⟨host.processInstanceId, .executeChatRun runId⟩] } := by
  obtain ⟨r, r', hr, hq, hnew, hmeta, hrun, hother⟩ := promoted_cases hp
  have hid : r.id = runId := Table.find?_some_key hr
  have hidle : ∀ t ∈ w.threads, t.task.runId? ≠ some runId := by
    intro t ht hk
    rw [← hid] at hk hr
    exact (h.fits t ht).started r hk hr hq
  have hsource : ∀ p ∈ w.replays, p.source ≠ runId := by
    intro p hp heq
    have hterm := h.spent p hp r (heq ▸ hr)
    rw [hq] at hterm
    cases hterm
  have hwritten := h.start hidle hsource hr (by rw [hmeta]) hnew hother
  apply hwritten.spawn
  · exact fits_executeChatRun (h.known runId r hr) hnew hrun hsource
  · rintro k ⟨⟩
    exact hidle

theorem Inv.requeue {runId : String} {code owner : Option String} (h : Inv w)
    (hidle : w.idle runId = true) :
    Inv (w.withDb ((Op.requeueForResume runId code owner).commit host w.db)) := by
  apply h.write
  intro k r' hr'
  obtain ⟨r, hr, hwrite⟩ := Op.rowWrite (by simp) hr'
  cases hwrite with
  | same => exact ⟨_, hr, rfl, .inl (.refl _)⟩
  | settled _ hs => exact ⟨r, hr, rfl, .inl (.of_terminal rfl hs)⟩
  | requeued hid hrun =>
    have hk : r.id = k := Table.find?_some_key hr
    have htags : retryTags (requeueRow host w.db code r).executionMetadata = retryTags r.executionMetadata := by
      cases code with
      | none => rfl
      | some code => exact retryTags_requeued w.db r code
    refine ⟨r, hr, htags, .inr ⟨?_, ?_⟩⟩
    · intro t ht
      have hfree := List.all_eq_true.mp hidle t ht
      rw [← hk, hid]
      simpa using hfree
    · intro p hp heq
      have hterm := h.spent p hp r (heq ▸ hr)
      rw [hrun] at hterm
      cases hterm

theorem Inv.crash (process : String) (h : Inv w) :
    Inv { w with threads := w.threads.map (Thread.crashed process) } := by
  apply h.fewer
  intro i t ht
  rw [List.getElem?_map, Option.map_eq_some_iff] at ht
  obtain ⟨u, hu, rfl⟩ := ht
  rw [Thread.crashed]
  split
  · exact .inl rfl
  · exact .inr ⟨u, hu, rfl⟩

theorem Inv.step {e : Event} (h : Inv w) (hs : step rt w e = some w') : Inv w' := by
  cases e with
  | create process r agentId m =>
    simp only [JobRetry.step] at hs
    split at hs
    · cases hs
    · rename_i hok
      simp only [Bool.or_eq_true, decide_eq_true_eq, not_or] at hok
      cases hs
      exact h.create hok.1 (by simpa using hok.2)
  | act i c =>
    obtain ⟨t, hi, hs⟩ := Option.bind_eq_some_iff.mp hs
    obtain ⟨⟨w₁, task⟩, ha, rfl⟩ := Option.map_eq_some_iff.mp hs
    exact h.act hi ha
  | promote host agentId runId m =>
    simp only [JobRetry.step] at hs
    split at hs
    · rename_i db hp
      cases hs
      exact h.promote hp
    · cases hs
      exact h
  | requeue host runId code owner =>
    simp only [JobRetry.step] at hs
    split at hs
    · rename_i hidle
      cases hs
      exact h.requeue hidle
    · cases hs
  | commit host op =>
    simp only [JobRetry.step] at hs
    split at hs
    · rename_i hop
      cases hs
      exact h.commit hop
    · cases hs
  | configure agents tables =>
    cases hs
    have hkept : Inv (w.withDb { tables with runs := w.db.runs, runSteps := w.db.runSteps }) :=
      h.keep fun k r hr => ⟨r, hr, .refl r⟩
    exact ⟨hkept.known, hkept.tagged, hkept.alone, hkept.fits, hkept.chained, hkept.replayed,
      hkept.spent, hkept.within⟩
  | crash process =>
    cases hs
    exact h.crash process

end Invariant

def replaysOf (w : World) (runId : String) : List (Link String) :=
  Link.chainOf (w.replays.map Replay.toLink) runId

theorem clampJobRetries_le (v : ℚ) : clampJobRetries v ≤ JOB_RETRIES_MAX :=
  max_le (by decide) (min_le_left _ _)

theorem job_retries_terminate (rt : Runtime) (es : List Event) (w : World)
    (h : run (step rt) {} es = some w) :
    (∀ p ∈ w.replays, Link.Follows (w.replays.map Replay.toLink) p.toLink ∧
      (p.depth : Int) ≤ p.limit ∧ (∃ v, p.limit = clampJobRetries v) ∧
      ∀ r, w.db.runs.find? p.id = some r → chainOrigin r = p.origin ∧ jobRetryAttempt r = p.depth) ∧
    (∀ runId n, (∀ p ∈ w.replays, p.origin = runId → p.limit ≤ (n : Nat)) → (replaysOf w runId).length ≤ n) ∧
    ∀ runId, ((replaysOf w runId).length : Int) ≤ JOB_RETRIES_MAX := by
  have hinv : Inv w := ((runs_free_iff.mpr h).invariant (I := Inv)
    (fun _ _ _ _ hs hstep => hs.step hstep) inv_initial)
  have hlength : ∀ runId n, (∀ p ∈ w.replays, p.origin = runId → p.limit ≤ (n : Nat)) →
      (replaysOf w runId).length ≤ n := by
    intro runId n hlimit
    apply hinv.chained.length_chainOf_le
    intro l hl horigin
    obtain ⟨p, hp, rfl⟩ := List.mem_map.mp hl
    have hdepth := (hinv.within p hp).1
    have hle := hlimit p hp horigin
    omega
  refine ⟨?_, hlength, ?_⟩
  · intro p hp
    obtain ⟨hdepth, hclamped⟩ := hinv.within p hp
    refine ⟨hinv.chained.follows _ (List.mem_map_of_mem hp), hdepth, hclamped, ?_⟩
    intro r hr
    have hid : r.id = p.id := Table.find?_some_key hr
    obtain ⟨q, hq, hqid, horigin, hattempt⟩ | ⟨hfree, -⟩ := place_of_tagged (hinv.tagged p.id r hr)
    · have hsame : q.toLink = p.toLink := List.inj_on_of_nodup_map hinv.chained.ids
        (List.mem_map_of_mem hq) (List.mem_map_of_mem hp) (hqid.trans hid)
      rw [horigin, hattempt, hsame]
      exact ⟨rfl, rfl⟩
    · exact absurd hid.symm (hfree p hp)
  · intro runId
    have hmax : (replaysOf w runId).length ≤ 3 := by
      apply hlength
      intro p hp _
      obtain ⟨v, hv⟩ := (hinv.within p hp).2
      rw [hv]
      exact clampJobRetries_le v
    rw [JOB_RETRIES_MAX]
    omega

section Witness

def plainRuntime : Runtime where
  number := Json.asNum?
  isPermanentError := fun _ => false
  isHardQuotaError := fun _ => false

def oneRetry : Event :=
  let config := some (Fields.ofList [("maxJobRetries", .num 1)])
  .configure ⟨[{ id := "agent_1", status := "active", maxConcurrency := some 1, config := config }], by simp⟩
    { agents := .single { id := "agent_1", workspaceType := .temp, maxConcurrency := 1 } }

def actBy (i : Nat) (process : String) (ending : Ending) : Event :=
  .act i { host := { processInstanceId := process }, ending := ending, newRunId := "run_2" }

def failing (i : Nat) (process stepId : String) : List Event :=
  [.stop, .prepare { id := stepId, runId := "", order := 0, status := .running }, .fail stepId "boom" {},
    .stop, .stop].map (actBy i process)

def failedTwice : List Event :=
  [oneRetry, .create "p1" { id := "run_1", status := .pending, initiatorAgentId := some "agent_1" } "agent_1" 1,
    actBy 0 "p1" .stop] ++ failing 0 "p1" "step_1" ++
    [actBy 0 "p1" .stop, actBy 0 "p1" .stop, actBy 0 "p1" .stop, actBy 0 "p1" .stop, actBy 0 "p1" .stop,
      .crash "p1", .requeue { processInstanceId := "p2" } "run_2" none none,
      .promote { processInstanceId := "p2" } "agent_1" "run_2" 1] ++ failing 1 "p2" "step_2"

theorem job_retries_terminate_failedTwice : ∃ w, run (step plainRuntime) {} failedTwice = some w ∧
    w.replays = [⟨⟨"run_2", "run_1", "run_1", 1⟩, 1⟩] ∧
    w.db.runs.rows.map Run.status = [.failed, .failed] ∧
    ∀ runId, ((replaysOf w runId).length : Int) ≤ JOB_RETRIES_MAX := by
  obtain ⟨w, hw, hreplays, hstatus⟩ : ∃ w, run (step plainRuntime) {} failedTwice = some w ∧
      (w.replays = [⟨⟨"run_2", "run_1", "run_1", 1⟩, 1⟩] ∧ w.db.runs.rows.map Run.status = [.failed, .failed]) :=
    exists_of_run_any (by decide +kernel)
  exact ⟨w, hw, hreplays, hstatus, (job_retries_terminate _ _ _ hw).2.2⟩

end Witness

end A2Wave.JobRetry
