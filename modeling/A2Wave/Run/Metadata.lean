import A2Wave.Lib.Pool
import A2Wave.Queue.TaskQueueDb

/-! The writers of `runs.executionMetadata`: the compare-and-set merge of
`lib/merge-execution-metadata.ts` and the consume-once rewrite of
`lib/execute-chat-run.ts`. -/

namespace A2Wave

def maxMergeAttempts : Nat := 5

/-- `cast(execution_metadata as text) = JSON.stringify(expected)`.  SQLite keeps the text
that was written.  PostgreSQL prints a blank after every colon of a `jsonb` value, so there
only the text of the empty object can agree. -/
def matchesMetadata (d : Dialect) (expected stored : Option Fields) : Bool :=
  match expected with
  | none => stored = none
  | some e =>
    match d with
    | .sqlite => stored = some e
    | .postgres => e = .nil && stored = some .nil

theorem eq_of_matchesMetadata {d : Dialect} {expected stored : Option Fields}
    (h : matchesMetadata d expected stored = true) : stored = expected := by
  cases expected with
  | none => simpa [matchesMetadata] using h
  | some e =>
    cases d with
    | sqlite => simpa [matchesMetadata] using h
    | postgres =>
      simp only [matchesMetadata, Bool.and_eq_true, decide_eq_true_eq] at h
      rw [h.2, h.1]

inductive MergeCall
  | recordResumeAttempt
  | persistLiveSessionId (sessionId : String)
  | markExecutionStarted
  | markRunForResume (failureCode : String)
  deriving DecidableEq

def spentAttempts (v : Option Json) : ℚ := (v.bind Json.asNum?).getD 0

/-- The `produce` callback of each writer; `none` is an explicit `undefined`. -/
def MergeCall.produce (current : Fields) : MergeCall → List (String × Option Json)
  | recordResumeAttempt =>
    [("resumeAttempts", some (.num (spentAttempts (current.get? "resumeAttempts") + 1))), ("resumePending", none)]
  | persistLiveSessionId sessionId =>
    [("liveChatId", some (.str sessionId)), ("executionStarted", some (.bool true))]
  | markExecutionStarted => [("executionStarted", some (.bool true))]
  | markRunForResume failureCode => [("resumePending", some (.str failureCode))]

def mergeWrite (d : Dialect) (db : Db) (runId : String) (read : Option Fields) (call : MergeCall) : Option Db :=
  let base := read.getD .nil
  db.casRun runId (fun r => matchesMetadata d read r.executionMetadata)
    (fun r => { r with executionMetadata := some (base.writes (call.produce base)) }) (fun _ => rfl)

def consumedKeys : List String :=
  ["attachments", "attachmentConsumerId", "queuedTurn", "nativeChatContext", "nativeAttachments"]

def nonEmpty : Option Json → Bool
  | some (.arr xs) => 0 < xs.length
  | some (.str s) => s ≠ ""
  | _ => false

def consumesOnce (snapshot : Option Fields) : Bool :=
  nonEmpty (metaGet? snapshot "attachments") || truthy (metaGet? snapshot "queuedTurn") ||
    truthy (metaGet? snapshot "nativeChatContext") ||
    nonEmpty (metaGet? snapshot "nativeAttachments")

def restMeta (snapshot : Option Fields) : Option Fields :=
  let rest := (snapshot.getD .nil).without consumedKeys
  if rest = .nil then none else some rest

theorem metaGet?_restMeta (snapshot : Option Fields) (k : String) :
    metaGet? (restMeta snapshot) k = if k ∈ consumedKeys then none else metaGet? snapshot k := by
  have hrest : ((snapshot.getD .nil).without consumedKeys).get? k =
      if k ∈ consumedKeys then none else metaGet? snapshot k := by
    rw [Fields.get?_without]
    cases snapshot <;> rfl
  simp only [restMeta]
  split
  · rename_i h
    rw [← hrest, h]
    rfl
  · exact hrest

def rewriteMetadata (snapshot : Option Fields) (r : Run) : Run :=
  if consumesOnce snapshot then { r with executionMetadata := restMeta snapshot } else r

/-- The transaction of `executeChatRun` that guards on the status, appends the step and
performs the consume-once write.  `snapshot` is the row read when the execution began. -/
def prepareExecution (host : Host) (db : Db) (snapshot : Run) (step : RunStep) : Tx Bool :=
  let wait := match snapshot.queuedAt with
    | some t => host.now - t
    | none => 0
  match db.casRun snapshot.id (·.status = .running)
    (fun r => { rewriteMetadata snapshot.executionMetadata r with
      queuedAt := none, updatedAt := host.now })
    (fun r => by simp only [rewriteMetadata]; split <;> rfl) with
  | none => .ok (false, db)
  | some db' =>
    match db'.runSteps.insert
      { step with runId := snapshot.id, status := .running, waitMs := some wait } with
    | none => .error (.error "UNIQUE constraint failed: run_steps.id")
    | some steps => .ok (true, { db' with runSteps := steps })

theorem prepareExecution_cases {host : Host} {db db' : Db} {snapshot : Run} {step : RunStep}
    {b : Bool} (h : prepareExecution host db snapshot step = .ok (b, db')) :
    (b = false ∧ db' = db) ∨
    (b = true ∧ ∃ r steps st, db.runs.find? snapshot.id = some r ∧ r.status = .running ∧
      db'.runs.find? snapshot.id = some { rewriteMetadata snapshot.executionMetadata r with
        queuedAt := none, updatedAt := host.now } ∧
      (∀ k, k ≠ snapshot.id → db'.runs.find? k = db.runs.find? k) ∧
      st.id = step.id ∧ db.runSteps.insert st = some steps ∧ db'.runSteps = steps) := by
  unfold prepareExecution at h
  dsimp only at h
  split at h
  · cases h
    exact .inl ⟨rfl, rfl⟩
  · rename_i db₁ hcas
    obtain ⟨r, hr, hrun, hnew, hframe⟩ := Db.casRun_find? hcas
    obtain ⟨-, -, -, rfl⟩ := Db.casRun_some hcas
    split at h
    · cases h
    · rename_i steps hins
      cases h
      exact .inr ⟨rfl, r, steps, { step with
        runId := snapshot.id, status := .running, waitMs := some _ },
        hr, by simpa using hrun, hnew, hframe, rfl, hins, rfl⟩

namespace Metadata

open Transition

inductive Writer
  | merge (call : MergeCall) (attempt : Nat)
  | compareAndSet (call : MergeCall) (attempt : Nat) (read : Option Fields)
  | merged (call : MergeCall) (written : Bool)
  | executeChatRun
  | prepare (snapshot : Run)
  | finished

structure History where
  db : Db
  log : List (String × Option Json)

def consumed : List (String × Option Json) := consumedKeys.map fun k => (k, none)

/-- One step of a writer of run `runId`.  The read and the conditional update of a merge
attempt are two steps, because another writer may commit between them. -/
def act (d : Dialect) (runId : String) (s : History) : Writer → Host × RunStep → Option (History × Writer)
  | .merge call attempt, _ =>
    if maxMergeAttempts ≤ attempt then some (s, .merged call false)
    else
      match s.db.runs.find? runId with
      | none => some (s, .merged call false)
      | some r => some (s, .compareAndSet call attempt r.executionMetadata)
  | .compareAndSet call attempt read, _ =>
    match mergeWrite d s.db runId read call with
    | some db => some (⟨db, s.log ++ call.produce (read.getD .nil)⟩, .merged call true)
    | none => some (s, .merge call (attempt + 1))
  | .executeChatRun, _ =>
    match s.db.runs.find? runId with
    | none => some (s, .finished)
    | some r => if r.status = .running then some (s, .prepare r) else some (s, .finished)
  | .prepare snapshot, (host, step) =>
    match prepareExecution host s.db snapshot step with
    | .error _ => some (s, .finished)
    | .ok (false, db) => some (⟨db, s.log⟩, .finished)
    | .ok (true, db) =>
      some (⟨db, if consumesOnce snapshot.executionMetadata then s.log ++ consumed else s.log⟩, .finished)
  | .merged _ _, _ => none
  | .finished, _ => none

def starts : Writer → Bool
  | .merge _ n => n = 0
  | .executeChatRun => true
  | _ => false

def writers (d : Dialect) (runId : String) : Pool.Program History Writer (Host × RunStep) where
  start _ _ w := starts w
  act := act d runId

abbrev State := Pool History Writer

def stored (runId : String) (db : Db) : Option Fields :=
  (db.runs.find? runId).bind (·.executionMetadata)

theorem stored_of_find? {runId : String} {db : Db} {r : Run} (h : db.runs.find? runId = some r) :
    stored runId db = r.executionMetadata := by
  simp [stored, h]

theorem stored_casRun {runId k : String} {db db' : Db} {p : Run → Bool} {f : Run → Run}
    {hf : ∀ r, (f r).id = r.id} (h : db.casRun k p f hf = some db')
    (hm : ∀ r, (f r).executionMetadata = r.executionMetadata) :
    stored runId db' = stored runId db := by
  obtain ⟨-, -, -, rfl⟩ := Db.casRun_some h
  simp only [stored, Table.find?_updateWhere]
  cases db.runs.find? runId with
  | none => rfl
  | some r =>
    simp only [Option.map_some, Option.bind_some]
    split
    · exact hm r
    · rfl

/-- No successful write is lost: a key whose last explicit write in the history is `v` has
the value `v` in the row. -/
def KeepsWrites (runId : String) (p : State) : Prop :=
  ∀ before after k v, p.shared.log = before ++ (k, v) :: after → (∀ w ∈ after, w.1 ≠ k) →
    metaGet? (stored runId p.shared.db) k = v

/-- When a consume-once rewrite takes effect, the row still agrees with the snapshot on
every key that the rewrite does not consume. -/
def SnapshotCurrent (runId : String) (p : State) : Pool.Event Writer (Host × RunStep) → Prop
  | .spawn _ => True
  | .act i _ => ∀ snapshot r, p.threads[i]? = some (.prepare snapshot) →
      consumesOnce snapshot.executionMetadata = true →
      p.shared.db.runs.find? runId = some r → r.status = .running →
      ∀ k, k ∉ consumedKeys → metaGet? r.executionMetadata k = metaGet? snapshot.executionMetadata k

section Preservation

variable {d : Dialect} {runId : String} {m₀ : Fields}

def Replays (runId : String) (m₀ : Fields) (s : History) : Prop :=
  (s.db.runs.find? runId).isSome ∧ ∀ k, metaGet? (stored runId s.db) k = (m₀.writes s.log).get? k

def SnapshotOf (runId : String) : Writer → Prop
  | .prepare snapshot => snapshot.id = runId
  | _ => True

theorem replays_mergeWrite {s : History} {read : Option Fields} {call : MergeCall} {db : Db}
    (h : Replays runId m₀ s) (hw : mergeWrite d s.db runId read call = some db) :
    Replays runId m₀ ⟨db, s.log ++ call.produce (read.getD .nil)⟩ := by
  obtain ⟨r, hr, hmatch, hnew, -⟩ := Db.casRun_find? hw
  have hread : r.executionMetadata = read := eq_of_matchesMetadata hmatch
  refine ⟨by simp [hnew], ?_⟩
  intro k
  have hbase : ∀ k, (read.getD .nil).get? k = (m₀.writes s.log).get? k := by
    intro k
    rw [← h.2 k]
    simp only [stored, hr, Option.bind_some, metaGet?, hread]
    cases read <;> rfl
  simp only [stored, hnew, Option.bind_some, metaGet?]
  rw [Fields.writes_append, Fields.get?_writes, Fields.get?_writes, hbase]

theorem get?_writes_consumed (fs : Fields) (k : String) :
    (fs.writes consumed).get? k = if k ∈ consumedKeys then none else fs.get? k := by
  have hw : fs.writes consumed = fs.without consumedKeys := by
    simp [Fields.writes, Fields.without, consumed, Fields.write, List.foldl_map]
  rw [hw, Fields.get?_without]

theorem replays_prepare {s : History} {host : Host} {snapshot : Run} {step : RunStep} {db : Db}
    (h : Replays runId m₀ s) (hid : snapshot.id = runId)
    (hp : prepareExecution host s.db snapshot step = .ok (true, db))
    (hcur : ∀ r, consumesOnce snapshot.executionMetadata = true →
      s.db.runs.find? runId = some r → r.status = .running → ∀ k, k ∉ consumedKeys →
      metaGet? r.executionMetadata k = metaGet? snapshot.executionMetadata k) :
    Replays runId m₀
      ⟨db, if consumesOnce snapshot.executionMetadata then s.log ++ consumed else s.log⟩ := by
  obtain ⟨hb, -⟩ | ⟨-, r, steps, st, hr, hrun, hnew, -⟩ := prepareExecution_cases hp
  · cases hb
  rw [hid] at hr hnew
  refine ⟨by simp [hnew], ?_⟩
  intro k
  have hold := h.2 k
  simp only [stored, hnew, Option.bind_some, rewriteMetadata]
  by_cases hc : consumesOnce snapshot.executionMetadata = true
  · simp only [hc, if_true]
    rw [metaGet?_restMeta, Fields.writes_append, get?_writes_consumed]
    split
    · rfl
    · rename_i hk
      rw [← hcur r hc hr hrun k hk, ← hold]
      simp [stored, hr]
  · simp only [hc, if_neg (Bool.false_ne_true)]
    rw [← hold]
    simp [stored, hr]

theorem replays_step {p q : State} {e : Pool.Event Writer (Host × RunStep)}
    (hcur : SnapshotCurrent runId p e)
    (h : Pool.Holds (Replays runId m₀) (fun _ => SnapshotOf runId) p)
    (hs : Pool.step (writers d runId) p e = some q) :
    Pool.Holds (Replays runId m₀) (fun _ => SnapshotOf runId) q := by
  refine Pool.Holds.step ?_ ?_ h hs
  · intro w _ hw
    cases w <;> simp_all [writers, starts, SnapshotOf]
  · intro i c w s' w' he hi hG hL ha
    subst he
    -- no assertion of another writer mentions the shared state
    suffices hmain : Replays runId m₀ s' ∧ SnapshotOf runId w' from
      ⟨hmain.1, hmain.2, fun _ _ hu => hu⟩
    cases w with
    | merge call attempt =>
      simp only [writers, act] at ha
      split at ha
      · cases ha
        exact ⟨hG, trivial⟩
      · split at ha <;> cases ha <;> exact ⟨hG, trivial⟩
    | compareAndSet call attempt read =>
      simp only [writers, act] at ha
      split at ha
      · rename_i db hw
        cases ha
        exact ⟨replays_mergeWrite hG hw, trivial⟩
      · cases ha
        exact ⟨hG, trivial⟩
    | executeChatRun =>
      simp only [writers, act] at ha
      split at ha
      · cases ha
        exact ⟨hG, trivial⟩
      · rename_i r hr
        split at ha <;> cases ha
        · exact ⟨hG, Table.find?_some_key hr⟩
        · exact ⟨hG, trivial⟩
    | prepare snapshot =>
      obtain ⟨host, step⟩ := c
      simp only [writers, act] at ha
      split at ha
      · cases ha
        exact ⟨hG, trivial⟩
      · rename_i db hp
        cases ha
        obtain ⟨-, hdb⟩ | ⟨hb, -⟩ := prepareExecution_cases hp
        · exact ⟨hdb ▸ hG, trivial⟩
        · cases hb
      · rename_i db hp
        cases ha
        exact ⟨replays_prepare hG hL hp (fun r hc => hcur snapshot r hi hc), trivial⟩
    | merged call written | finished => simp [writers, act] at ha

theorem KeepsWrites.of_replays {p : State} (h : Replays runId m₀ p.shared) : KeepsWrites runId p := by
  intro before after k v hlog hafter
  rw [h.2 k, hlog, Fields.get?_writes, List.reverse_append, List.find?_append]
  have hlast : (after.reverse.find? (·.1 = k)) = none := by
    rw [List.find?_eq_none]
    intro w hw
    simpa using hafter w (List.mem_reverse.mp hw)
  simp [List.find?_append, hlast]

end Preservation

/-- A key whose merge succeeded keeps the merged value until another writer names the key,
in every run in which each consume-once rewrite starts from a current snapshot. -/
theorem merge_survives {d : Dialect} {runId : String} {db : Db}
    (hrow : (db.runs.find? runId).isSome) {es : List (Pool.Event Writer (Host × RunStep))}
    {p : State}
    (h : Runs (Pool.step (writers d runId)) (SnapshotCurrent runId) ⟨⟨db, []⟩, []⟩ es p) :
    KeepsWrites runId p := by
  let m₀ := (stored runId db).getD .nil
  have h0 : Pool.Holds (Replays runId m₀) (fun _ => SnapshotOf runId) (⟨⟨db, []⟩, []⟩ : State) := by
    refine ⟨⟨hrow, ?_⟩, by simp⟩
    intro k
    simp only [m₀, Fields.writes, List.foldl_nil]
    cases stored runId db <;> rfl
  have hp := h.invariant (fun p e q hok hI hs => replays_step hok hI hs) h0
  exact .of_replays hp.1

def resumedRow : Run where
  id := "run_1"
  status := .running
  executionMetadata := some (.ofList
    [("attachments", .arr (.ofList [.obj (.ofList [("token", .str "t")])])),
      ("liveChatId", .str "session"), ("resumePending", .str "SERVER_RESTART_DURING_EXEC")])
  ownerInstanceId := some "host-1"
  initiatorAgentId := some "agent_1"

def resumedDb : Db := { runs := ⟨[resumedRow], by simp⟩ }

def host1 : Host := { processInstanceId := "host-1" }

def step1 : RunStep := { id := "rst_1", runId := "run_1", order := 1, status := .running }

theorem merge_survives_fresh_snapshot : ∃ p, run (Pool.step (writers .sqlite "run_1")) ⟨⟨resumedDb, []⟩, []⟩
        [.spawn .executeChatRun, .act 0 (host1, step1), .act 0 (host1, step1),
          .spawn (.merge .markExecutionStarted 0), .act 1 (host1, step1), .act 1 (host1, step1)] =
        some p ∧
      p.threads = [.finished, .merged .markExecutionStarted true] ∧ KeepsWrites "run_1" p := by
  have h : ∃ p, p.threads = [.finished, .merged .markExecutionStarted true] ∧
      Runs (Pool.step (writers .sqlite "run_1")) (SnapshotCurrent "run_1") ⟨⟨resumedDb, []⟩, []⟩
        [.spawn .executeChatRun, .act 0 (host1, step1), .act 0 (host1, step1),
          .spawn (.merge .markExecutionStarted 0), .act 1 (host1, step1), .act 1 (host1, step1)]
        p := by
    refine ⟨_, ?_, .cons trivial rfl (.cons ?_ rfl (.cons ?_ rfl (.cons trivial rfl
      (.cons ?_ rfl (.cons ?_ rfl .nil)))))⟩
    · rfl
    · intro snapshot r h; cases h
    · intro snapshot r h _ hr _ k _
      cases h
      cases hr
      rfl
    · intro snapshot r h; cases h
    · intro snapshot r h; cases h
  obtain ⟨p, hthreads, hp⟩ := h
  exact ⟨p, hp.toRun, hthreads, merge_survives rfl hp⟩

theorem recordResumeAttempt_lost : ∃ p, run (Pool.step (writers .sqlite "run_1")) ⟨⟨resumedDb, []⟩, []⟩
        [.spawn .executeChatRun, .act 0 (host1, step1),
          .spawn (.merge .recordResumeAttempt 0), .act 1 (host1, step1), .act 1 (host1, step1),
          .act 0 (host1, step1)] = some p ∧
      p.threads = [.finished, .merged .recordResumeAttempt true] ∧ ¬KeepsWrites "run_1" p := by
  refine ⟨_, rfl, rfl, ?_⟩
  intro h
  have := h [] (("resumePending", none) :: consumed) "resumeAttempts" _ rfl (by decide)
  revert this
  decide +kernel

end Metadata

end A2Wave
