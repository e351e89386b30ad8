import Mathlib.Data.Nat.Basic
import A2Wave.Lib.JsonText
import A2Wave.Lib.Noninterference
import A2Wave.Queue.TaskQueueDb

/-! `SqliteTaskStore` of `a2a/sqlite-task-store.ts`: the tasks of all callers in one table, each
in an envelope that names the tenant and the owner it belongs to. -/

namespace A2Wave.TaskStore

open Noninterference

structure TaskScope where
  tenant : String
  owner : String
  deriving DecidableEq

structure ServerCallContext where
  tenant : Option String
  userName : Option String
  deriving DecidableEq

def trim (s : String) : String :=
  String.ofList (((s.toList.dropWhile isTrimmed).reverse.dropWhile isTrimmed).reverse)

def getScope (context : ServerCallContext) : Except String TaskScope :=
  match (context.tenant.map trim).filter (· ≠ ""), (context.userName.map trim).filter (· ≠ "") with
  | some tenant, some owner => .ok ⟨tenant, owner⟩
  | _, _ => .error "A2A task access requires both tenant and caller scope"

structure TaskStatus where
  /-- `TaskState`, a number; zero is `TASK_STATE_UNSPECIFIED`. -/
  state : Nat
  timestamp : Option String
  deriving DecidableEq

structure Task where
  id : String
  contextId : String
  status : Option TaskStatus
  artifacts : List Json
  rest : Json
  deriving DecidableEq

structure TaskPageCursor where
  statusTimestamp : String
  taskId : String
  deriving DecidableEq

structure Runtime where
  toJSON : Task → Json
  fromJSON : Json → Option Task
  taskStateName : Nat → String
  dateParse : String → Option Int
  toISOString : Int → String
  encodePageCursor : String → String → String
  /-- Version, timestamp and id of a page token's JSON, each where it has the right type; `none`
  when it is no JSON. -/
  decodePageToken : String → Option (Option Nat × Option String × Option String)
  textLt : String → String → Bool
  localeLe : String → String → Bool

section Envelope

/-- `PG_UNREPRESENTABLE`: a Lean string has no unpaired surrogate, so only U+0000 is left to drop. -/
def representable (s : String) : String := String.ofList (s.toList.filter (· ≠ Char.ofNat 0))

mutual

/-- The replacer of `encodeEnvelope`: it sees every value, and no key. -/
def sanitize : Json → Json
  | .str s => .str (representable s)
  | .arr xs => .arr (sanitizeElems xs)
  | .obj fs => .obj (sanitizeFields fs)
  | v => v

def sanitizeElems : Elems → Elems
  | .nil => .nil
  | .cons x xs => .cons (sanitize x) (sanitizeElems xs)

def sanitizeFields : Fields → Fields
  | .nil => .nil
  | .cons k v fs => .cons k (sanitize v) (sanitizeFields fs)

end

structure PersistedTaskEnvelope where
  scope : TaskScope
  task : Json
  deriving DecidableEq

def encodeTask (rt : Runtime) (task : Task) (scope : TaskScope) : Json :=
  sanitize (.obj (.ofList [("persistenceVersion", .num 1),
    ("scope", .obj (.ofList [("tenant", .str scope.tenant), ("owner", .str scope.owner)])),
    ("task", rt.toJSON task)]))

/-- The value at a path of object keys, as `json_extract` finds it. -/
def jsonExtract (data : Json) : List String → Option Json
  | [] => some data
  | k :: path =>
    match data with
    | .obj fs => (fs.get? k).bind fun v => jsonExtract v path
    | _ => none

def jsonExtractText (data : Json) (path : List String) : Option String :=
  match jsonExtract data path with
  | some (.str s) => some s
  | _ => none

/-- `isPersistedEnvelope` with the envelope it recognises. -/
def decodeEnvelope (data : Json) : Option PersistedTaskEnvelope :=
  if jsonExtract data ["persistenceVersion"] = some (.num 1) then
    match jsonExtractText data ["scope", "tenant"], jsonExtractText data ["scope", "owner"],
        jsonExtract data ["task"] with
    | some tenant, some owner, some task => some ⟨⟨tenant, owner⟩, task⟩
    | _, _, _ => none
  else none

def decodeScopedTask (rt : Runtime) (data : Json) (scope : TaskScope) : Option Task :=
  ((decodeEnvelope data).filter fun envelope => envelope.scope = scope).bind fun envelope =>
    rt.fromJSON envelope.task

end Envelope

structure Row where
  id : String
  /-- The text, as `JSON.parse` reads it; `none` when it throws. -/
  data : Option Json
  createdAt : Nat
  updatedAt : Nat
  deriving DecidableEq

instance : Keyed Row String := ⟨Row.id⟩

@[simp] theorem key_row (r : Row) : Keyed.key r = r.id := rfl

structure State where
  a2aTasks : Table Row := .empty
  lastCleanupAt : Nat := 0

def CLEANUP_INTERVAL_MS : Nat := 60 * 60 * 1000

def maxAgeDays : Nat := 14

def cutoff (now : Nat) : Nat := now - maxAgeDays * 24 * 60 * 60 * 1000

def cleanupDue (s : State) (now : Nat) : Bool := CLEANUP_INTERVAL_MS < now - s.lastCleanupAt

def cleanup (s : State) (now : Nat) : State :=
  if cleanupDue s now then
    { a2aTasks := s.a2aTasks.deleteWhere fun r => r.updatedAt < cutoff now, lastCleanupAt := now }
  else s

structure ListTasksRequest where
  contextId : String := ""
  status : Option Nat := none
  statusTimestampAfter : Option String := none
  pageToken : String := ""
  pageSize : Option Nat := none
  includeArtifacts : Bool := false
  deriving DecidableEq

structure ListTasksResponse where
  tasks : List Task
  nextPageToken : String
  pageSize : Nat
  totalSize : Nat
  deriving DecidableEq

def overwrite (s : State) (id : String) (data : Json) (now : Nat) : State :=
  let a2aTasks := s.a2aTasks.updateWhere (fun r => r.id = id)
    (fun r => { r with data := some data, updatedAt := now }) fun _ => rfl
  { s with a2aTasks := a2aTasks }

section Calls

variable (rt : Runtime)

def save (s : State) (task : Task) (context : ServerCallContext) (now : Nat) : State × Except String Unit :=
  match getScope context with
  | .error e => (s, .error e)
  | .ok scope =>
    match s.a2aTasks.find? task.id with
    | some existing =>
      let persisted := existing.data.bind decodeEnvelope
      if persisted.any fun p => p.scope = scope then
        (cleanup (overwrite s task.id (encodeTask rt task scope) now) now, .ok ())
      else (s, .error "A2A task ID is already owned by another caller scope")
    | none =>
      match s.a2aTasks.insert ⟨task.id, some (encodeTask rt task scope), now, now⟩ with
      | some tasks => (cleanup { s with a2aTasks := tasks } now, .ok ())
      | none => (s, .error "UNIQUE constraint failed: a2a_tasks.id")

def load (rows : List Row) (taskId : String) (context : ServerCallContext) : Option Task :=
  (rows.find? fun r => r.id = taskId).bind fun row =>
    match row.data, getScope context with
    | some data, .ok scope => decodeScopedTask rt data scope
    | _, _ => none

def invalidPageToken : String := "Invalid A2A task page token"

def isPageTokenChar (c : Char) : Bool :=
  ('A' ≤ c && c ≤ 'Z') || ('a' ≤ c && c ≤ 'z') || ('0' ≤ c && c ≤ '9') || c = '_' || c = '-'

def parsePageCursor (pageToken : String) : Except String (Option TaskPageCursor) :=
  if pageToken = "" then .ok none
  else if 4096 < pageToken.length || !pageToken.toList.all isPageTokenChar then .error invalidPageToken
  else
    match rt.decodePageToken pageToken with
    | some (some 1, some statusTimestamp, some taskId) =>
      if taskId = "" ∨ rt.encodePageCursor statusTimestamp taskId ≠ pageToken then .error invalidPageToken
      else .ok (some ⟨statusTimestamp, taskId⟩)
    | _ => .error invalidPageToken

def normalizeStatusTimestampAfter (value : Option String) : Except String (Option String) :=
  match value.filter (· ≠ "") with
  | none => .ok none
  | some value =>
    match rt.dateParse value with
    | none => .error "statusTimestampAfter must be a valid ISO 8601 date string"
    | some timestamp => .ok (some (rt.toISOString timestamp))

def inScope (scope : TaskScope) (row : Row) : Bool :=
  match row.data with
  | none => false
  | some data =>
    jsonExtract data ["persistenceVersion"] = some (.num 1) &&
      jsonExtractText data ["scope", "tenant"] = some scope.tenant &&
      jsonExtractText data ["scope", "owner"] = some scope.owner

def extractText (row : Row) (path : List String) : Option String :=
  row.data.bind fun data => jsonExtractText data path

/-- `COALESCE(…, '')`. -/
def statusTimestamp (row : Row) : String := (extractText row ["task", "status", "timestamp"]).getD ""

def requested (params : ListTasksRequest) (after : Option String) (row : Row) : Bool :=
  (params.contextId = "" || extractText row ["task", "contextId"] = some params.contextId) &&
    (params.status.getD 0 = 0 ||
      extractText row ["task", "status", "state"] = some (rt.taskStateName (params.status.getD 0))) &&
    after.all fun after => !rt.textLt (statusTimestamp row) after

def beforeCursor (cursor : Option TaskPageCursor) (row : Row) : Bool :=
  cursor.all fun cursor =>
    rt.textLt (statusTimestamp row) cursor.statusTimestamp ||
      (statusTimestamp row = cursor.statusTimestamp && rt.textLt row.id cursor.taskId)

/-- `ORDER BY` timestamp and id, both descending. -/
def rowBefore (r r' : Row) : Bool :=
  if statusTimestamp r = statusTimestamp r' then !rt.textLt r.id r'.id
  else rt.textLt (statusTimestamp r') (statusTimestamp r)

def taskTimestamp (task : Task) : String := (task.status.bind (·.timestamp)).getD ""

/-- The checks that `list` repeats on the decoded tasks. -/
def visible (params : ListTasksRequest) (after : Option String) (task : Task) : Bool :=
  (params.contextId = "" || task.contextId = params.contextId) &&
    (params.status.getD 0 = 0 || task.status.map (·.state) = some (params.status.getD 0)) &&
    after.all fun after =>
      match rt.dateParse (taskTimestamp task), rt.dateParse after with
      | some timestamp, some after => taskTimestamp task ≠ "" && after ≤ timestamp
      | _, _ => false

def taskBefore (t t' : Task) : Bool :=
  if taskTimestamp t = taskTimestamp t' then rt.localeLe t'.id t.id
  else rt.localeLe (taskTimestamp t') (taskTimestamp t)

/-- JavaScript's `<` on strings. -/
def codeUnitLt (a b : String) : Bool := !JsonText.keyLe b a

def taskBeforeCursor (cursor : Option TaskPageCursor) (task : Task) : Bool :=
  cursor.all fun cursor =>
    codeUnitLt (taskTimestamp task) cursor.statusTimestamp ||
      (taskTimestamp task = cursor.statusTimestamp && codeUnitLt task.id cursor.taskId)

def listPage (rows : List Row) (scope : TaskScope) (params : ListTasksRequest)
    (cursor : Option TaskPageCursor) (after : Option String) : ListTasksResponse :=
  let filtered := rows.filter fun r => inScope scope r && requested rt params after r
  let pageSize := params.pageSize.getD 50
  let selected := ((filtered.filter (beforeCursor rt cursor)).mergeSort (rowBefore rt)).take (pageSize + 1)
  let visibleTasks := ((selected.filterMap fun r => r.data.bind fun data => decodeScopedTask rt data scope).filter
    (visible rt params after)).mergeSort (taskBefore rt)
  let remainingTasks := visibleTasks.filter (taskBeforeCursor cursor)
  let page := remainingTasks.take pageSize
  { tasks := page.map fun task =>
      { task with artifacts := if params.includeArtifacts then task.artifacts else [] }
    nextPageToken :=
      match page.getLast? with
      | some lastItem =>
        if pageSize < selected.length || page.length < remainingTasks.length then
          rt.encodePageCursor (taskTimestamp lastItem) lastItem.id
        else ""
      | none => ""
    pageSize := pageSize
    totalSize := filtered.length }

def list (rows : List Row) (params : ListTasksRequest) (context : ServerCallContext) :
    Except String ListTasksResponse :=
  (getScope context).bind fun scope =>
    (parsePageCursor rt params.pageToken).bind fun cursor =>
      (normalizeStatusTimestampAfter rt params.statusTimestampAfter).bind fun after =>
        if rows.all fun r => r.data.isSome then .ok (listPage rt rows scope params cursor after)
        else .error "malformed JSON"

inductive Call
  | save (task : Task) (context : ServerCallContext) (now : Nat)
  | load (taskId : String) (context : ServerCallContext)
  | list (params : ListTasksRequest) (context : ServerCallContext)
  deriving DecidableEq

def Call.context : Call → ServerCallContext
  | .save _ context _ => context
  | .load _ context => context
  | .list _ context => context

inductive Outcome
  | saved (result : Except String Unit)
  | loaded (task : Option Task)
  | listed (result : Except String ListTasksResponse)
  deriving DecidableEq

def perform (s : State) : Call → State × Outcome
  | .save task context now => ((save rt s task context now).1, .saved (save rt s task context now).2)
  | .load taskId context => (s, .loaded (load rt s.a2aTasks.rows taskId context))
  | .list params context => (s, .listed (list rt s.a2aTasks.rows params context))

end Calls

def TaskScope.isRepresentable (scope : TaskScope) : Bool :=
  representable scope.tenant = scope.tenant && representable scope.owner = scope.owner

section Scope

variable {rt : Runtime} {scope : TaskScope} {row : Row} {task : Task}

theorem inScope_iff : inScope scope row = true ↔ ∃ data, row.data = some data ∧
    jsonExtract data ["persistenceVersion"] = some (.num 1) ∧
    jsonExtractText data ["scope", "tenant"] = some scope.tenant ∧
    jsonExtractText data ["scope", "owner"] = some scope.owner := by
  cases hdata : row.data with
  | none => simp [inScope, hdata]
  | some data => simp [inScope, hdata, and_assoc]

theorem inScope_unique {scope' : TaskScope} (h : inScope scope row = true)
    (h' : inScope scope' row = true) : scope = scope' := by
  obtain ⟨data, hdata, -, htenant, howner⟩ := inScope_iff.mp h
  obtain ⟨data', hdata', -, htenant', howner'⟩ := inScope_iff.mp h'
  rw [hdata] at hdata'
  cases hdata'
  rw [htenant] at htenant'
  rw [howner] at howner'
  cases scope
  cases scope'
  cases htenant'
  cases howner'
  rfl

theorem inScope_of_decode {envelope : PersistedTaskEnvelope}
    (h : row.data.bind decodeEnvelope = some envelope) : inScope envelope.scope row = true := by
  obtain ⟨data, hdata, hdecode⟩ := Option.bind_eq_some_iff.mp h
  unfold decodeEnvelope at hdecode
  split at hdecode
  · rename_i hversion
    split at hdecode
    · rename_i tenant owner value htenant howner hvalue
      cases hdecode
      exact inScope_iff.mpr ⟨data, hdata, hversion, htenant, howner⟩
    · cases hdecode
  · cases hdecode

theorem decodeScopedTask_none {data : Json} (hdata : row.data = some data)
    (h : inScope scope row = false) : decodeScopedTask rt data scope = none := by
  cases hdecode : decodeEnvelope data with
  | none => simp [decodeScopedTask, hdecode]
  | some envelope =>
    have hin : inScope envelope.scope row = true := inScope_of_decode (by rw [hdata]; exact hdecode)
    have hne : envelope.scope ≠ scope := by
      rintro rfl
      rw [hin] at h
      cases h
    simp [decodeScopedTask, hdecode, hne]

theorem jsonExtractText_tenant :
    jsonExtractText (encodeTask rt task scope) ["scope", "tenant"] = some (representable scope.tenant) := rfl

theorem jsonExtractText_owner :
    jsonExtractText (encodeTask rt task scope) ["scope", "owner"] = some (representable scope.owner) := rfl

theorem inScope_encodeTask {scope' : TaskScope} (h : scope.isRepresentable = true)
    (hdata : row.data = some (encodeTask rt task scope)) :
    inScope scope' row = true ↔ scope' = scope := by
  obtain ⟨htenant, howner⟩ : representable scope.tenant = scope.tenant ∧ representable scope.owner = scope.owner := by
    simpa [TaskScope.isRepresentable] using h
  have hself : inScope scope row = true := by
    rw [inScope_iff]
    refine ⟨_, hdata, rfl, ?_, ?_⟩
    · rw [jsonExtractText_tenant, htenant]
    · rw [jsonExtractText_owner, howner]
  constructor
  · exact fun h' => inScope_unique h' hself
  · rintro rfl
    exact hself

end Scope

def view (scope : TaskScope) (s : State) : List Row := s.a2aTasks.rows.filter (inScope scope)

def Readable (s : State) : Prop := ∀ r ∈ s.a2aTasks.rows, r.data.isSome = true

def Call.isOf (scope : TaskScope) (c : Call) : Bool :=
  match getScope c.context with
  | .ok scope' => scope' = scope
  | .error _ => false

/-- What a call has to leave alone for the scope to be undisturbed: the text of its own scope is
stored as it is, a save of the scope does not meet an id that another scope owns, and a clean-up
finds no expired task of the scope. -/
def Undisturbed (scope : TaskScope) (s : State) (c : Call) : Prop :=
  (∀ scope', getScope c.context = .ok scope' → scope'.isRepresentable = true) ∧
    match c with
    | .save task context now =>
      (getScope context = .ok scope → ∀ r ∈ s.a2aTasks.rows, r.id = task.id → inScope scope r = true) ∧
        (cleanupDue s now = true → ∀ r ∈ view scope s, cutoff now ≤ r.updatedAt)
    | _ => True

instance decidableScope (context : ServerCallContext) (p : TaskScope → Prop) [DecidablePred p] :
    Decidable (∀ scope, getScope context = .ok scope → p scope) :=
  match h : getScope context with
  | .error _ => isTrue fun scope hscope => by cases hscope
  | .ok scope => decidable_of_iff (p scope) ⟨fun hp scope' hscope' => by cases hscope'; exact hp, fun hp => hp scope rfl⟩

instance (scope : TaskScope) (s : State) (c : Call) : Decidable (Undisturbed scope s c) :=
  match c with
  | .save _ _ _ => inferInstanceAs (Decidable (_ ∧ _ ∧ _))
  | .load _ _ => inferInstanceAs (Decidable (_ ∧ True))
  | .list _ _ => inferInstanceAs (Decidable (_ ∧ True))

section Save

variable {rt : Runtime} {scope scope' : TaskScope} {s t : State} {task : Task} {context : ServerCallContext}
  {now : Nat}

theorem find?_view (k : String) :
    (view scope s).find? (fun r => r.id = k) = (s.a2aTasks.find? k).filter (inScope scope) := by
  have h := Table.find?_deleteWhere s.a2aTasks (fun r => !inScope scope r) k
  simp only [Table.find?, Table.deleteWhere, Bool.not_not, key_row] at h
  exact h

theorem save_cases (hscope : getScope context = .ok scope) : (∃ r e, s.a2aTasks.find? task.id = some r ∧
      (r.data.bind decodeEnvelope).any (fun p => p.scope = scope) = false ∧
      save rt s task context now = (s, .error e) ∧
      e = "A2A task ID is already owned by another caller scope") ∨
    (∃ r, s.a2aTasks.find? task.id = some r ∧ (r.data.bind decodeEnvelope).any (fun p => p.scope = scope) = true ∧
      save rt s task context now = (cleanup (overwrite s task.id (encodeTask rt task scope) now) now, .ok ())) ∨
    (s.a2aTasks.find? task.id = none ∧ ∃ tasks,
      s.a2aTasks.insert ⟨task.id, some (encodeTask rt task scope), now, now⟩ = some tasks ∧
      save rt s task context now = (cleanup { s with a2aTasks := tasks } now, .ok ())) := by
  unfold save
  rw [hscope]
  cases hfind : s.a2aTasks.find? task.id with
  | some r =>
    cases hany : (r.data.bind decodeEnvelope).any fun p => p.scope = scope with
    | false => exact .inl ⟨r, _, rfl, hany, by simp [hany], rfl⟩
    | true => exact .inr (.inl ⟨r, rfl, hany, by simp [hany]⟩)
  | none =>
    refine .inr (.inr ⟨rfl, ?_⟩)
    cases hins : s.a2aTasks.insert ⟨task.id, some (encodeTask rt task scope), now, now⟩ with
    | none =>
      have hsome : (s.a2aTasks.find? task.id).isSome = true := Table.insert_eq_none_iff.mp hins
      rw [hfind] at hsome
      cases hsome
    | some tasks => exact ⟨tasks, rfl, by simp only [hins]⟩

theorem view_cleanup (h : cleanupDue s now = true → ∀ r ∈ view scope s, cutoff now ≤ r.updatedAt) :
    view scope (cleanup s now) = view scope s := by
  unfold cleanup
  split
  · rename_i hdue
    have hkeep : (view scope s).filter (fun r => !decide (r.updatedAt < cutoff now)) = view scope s := by
      apply List.filter_eq_self.mpr
      intro r hr
      simpa using h hdue r hr
    rw [← hkeep]
    simp only [view, Table.deleteWhere, List.filter_filter]
    exact List.filter_congr fun r _ => Bool.and_comm _ _
  · rfl

theorem view_overwrite {id : String} {data : Json}
    (h : ∀ r ∈ s.a2aTasks.rows, r.id = id →
      inScope scope { r with data := some data, updatedAt := now } = inScope scope r) :
    view scope (overwrite s id data now) =
      (view scope s).map fun r => if r.id = id then { r with data := some data, updatedAt := now } else r := by
  simp only [view, overwrite, Table.updateWhere, List.filter_map, decide_eq_true_eq]
  congr 1
  apply List.filter_congr
  intro r hr
  simp only [Function.comp]
  split
  · rename_i hid
    exact h r hr hid
  · rfl

theorem view_insert {r : Row} {tasks : Table Row} (h : s.a2aTasks.insert r = some tasks) :
    view scope { s with a2aTasks := tasks } = view scope s ++ if inScope scope r = true then [r] else [] := by
  simp only [view, Table.rows_insert h, List.filter_append, List.filter_cons, List.filter_nil]

theorem scope_of_any {r : Row} (h : (r.data.bind decodeEnvelope).any (fun p => p.scope = scope) = true) :
    inScope scope r = true := by
  cases hdecode : r.data.bind decodeEnvelope with
  | none =>
    rw [hdecode] at h
    cases h
  | some envelope =>
    rw [hdecode, Option.any_some, decide_eq_true_eq] at h
    rw [← h]
    exact inScope_of_decode hdecode

theorem save_other (rt : Runtime) (s : State) (task : Task) (now : Nat)
    (hrep : ∀ scope', getScope context = .ok scope' → scope'.isRepresentable = true)
    (hother : (Call.save task context now).isOf scope = false) :
    (save rt s task context now).1 = s ∨ ∃ u, view scope u = view scope s ∧
      cleanupDue u now = cleanupDue s now ∧ (save rt s task context now).1 = cleanup u now := by
  cases hget : getScope context with
  | error e => exact .inl (by simp only [save, hget])
  | ok scope' =>
    have hne : scope ≠ scope' := by
      rintro rfl
      simp [Call.isOf, Call.context, hget] at hother
    have hnot : ∀ r : Row, r.data = some (encodeTask rt task scope') → inScope scope r = false := by
      intro r hdata
      rw [← Bool.not_eq_true]
      exact fun h => hne ((inScope_encodeTask (hrep scope' hget) hdata).mp h)
    rcases save_cases hget with ⟨r, e, -, -, hsave, -⟩ | ⟨r, hfind, hany, hsave⟩ | ⟨-, tasks, hins, hsave⟩
    · exact .inl (by rw [hsave])
    · have hold : ∀ r' ∈ s.a2aTasks.rows, r'.id = task.id → inScope scope r' = false := by
        intro r' hr' hid
        have hfind' : s.a2aTasks.find? task.id = some r' := Table.find?_eq_some_iff.mpr ⟨hr', hid⟩
        rw [hfind] at hfind'
        cases hfind'
        rw [← Bool.not_eq_true]
        exact fun h => hne (inScope_unique h (scope_of_any hany))
      refine .inr ⟨overwrite s task.id (encodeTask rt task scope') now, ?_, rfl, by rw [hsave]⟩
      rw [view_overwrite fun r' hr' hid => (hnot _ rfl).trans (hold r' hr' hid).symm]
      nth_rewrite 2 [← List.map_id (view scope s)]
      apply List.map_congr_left
      intro r' hr'
      obtain ⟨hmem, hin⟩ := List.mem_filter.mp hr'
      rw [id, if_neg]
      intro hid
      rw [hold r' hmem hid] at hin
      cases hin
    · refine .inr ⟨{ s with a2aTasks := tasks }, ?_, rfl, by rw [hsave]⟩
      rw [view_insert hins, hnot _ rfl]
      exact List.append_nil _

theorem save_view_other (hok : Undisturbed scope s (.save task context now))
    (hother : (Call.save task context now).isOf scope = false) :
    view scope (save rt s task context now).1 = view scope s := by
  obtain ⟨hrep, -, hclean⟩ := hok
  have hrep' : ∀ scope', getScope context = .ok scope' → scope'.isRepresentable = true := hrep
  rcases save_other rt s task now hrep' hother with hsame | ⟨u, hview, hdue, hsave⟩
  · rw [hsame]
  · rw [hsave, view_cleanup, hview]
    rw [hdue, hview]
    exact hclean

def saveIn (rt : Runtime) (scope : TaskScope) (rows : List Row) (task : Task) (now : Nat) :
    List Row × Except String Unit :=
  match rows.find? fun r => r.id = task.id with
  | some existing =>
    if (existing.data.bind decodeEnvelope).any fun p => p.scope = scope then
      (rows.map fun r => if r.id = task.id then
        { r with data := some (encodeTask rt task scope), updatedAt := now } else r, .ok ())
    else (rows, .error "A2A task ID is already owned by another caller scope")
  | none => (rows ++ [⟨task.id, some (encodeTask rt task scope), now, now⟩], .ok ())

theorem save_eq_saveIn (hok : Undisturbed scope s (.save task context now))
    (hget : getScope context = .ok scope) :
    (view scope (save rt s task context now).1, (save rt s task context now).2) =
      saveIn rt scope (view scope s) task now := by
  obtain ⟨hrep, hown, hclean⟩ := hok
  have hown' := hown hget
  have hnew : ∀ r : Row, r.data = some (encodeTask rt task scope) → inScope scope r = true :=
    fun r hdata => (inScope_encodeTask (hrep scope hget) hdata).mpr rfl
  have hfind : (view scope s).find? (fun r => r.id = task.id) = s.a2aTasks.find? task.id := by
    rw [find?_view]
    cases hf : s.a2aTasks.find? task.id with
    | none => rfl
    | some r =>
      obtain ⟨hr, hid⟩ := Table.find?_eq_some_iff.mp hf
      rw [Option.filter_some, if_pos (hown' r hr hid)]
  have hnow : cutoff now ≤ now := Nat.sub_le _ _
  rw [saveIn, hfind]
  rcases save_cases hget with ⟨r, e, hr, hany, hsave, rfl⟩ | ⟨r, hr, hany, hsave⟩ | ⟨hnone, tasks, hins, hsave⟩
  · rw [hr, hsave]
    simp [hany]
  · have hview : view scope (overwrite s task.id (encodeTask rt task scope) now) =
        (view scope s).map fun r => if r.id = task.id then
          { r with data := some (encodeTask rt task scope), updatedAt := now } else r :=
      view_overwrite fun r hr hid => (hnew _ rfl).trans (hown' r hr hid).symm
    have hkept : cleanupDue s now = true →
        ∀ r ∈ view scope (overwrite s task.id (encodeTask rt task scope) now), cutoff now ≤ r.updatedAt := by
      intro hdue r hr
      rw [hview] at hr
      obtain ⟨r₀, hr₀, rfl⟩ := List.mem_map.mp hr
      split
      · exact hnow
      · exact hclean hdue r₀ hr₀
    rw [hr, hsave, view_cleanup hkept, hview]
    simp [hany]
  · have hview : view scope { s with a2aTasks := tasks } =
        view scope s ++ [⟨task.id, some (encodeTask rt task scope), now, now⟩] := by
      rw [view_insert hins, if_pos (hnew _ rfl)]
    have hkept : cleanupDue s now = true →
        ∀ r ∈ view scope { s with a2aTasks := tasks }, cutoff now ≤ r.updatedAt := by
      intro hdue r hr
      rw [hview] at hr
      rcases List.mem_append.mp hr with hr | hr
      · exact hclean hdue r hr
      · rw [List.mem_singleton.mp hr]
        exact hnow
    rw [hnone, hsave, view_cleanup hkept, hview]

theorem readable_cleanup (h : Readable s) : Readable (cleanup s now) := by
  unfold cleanup
  split
  · exact fun r hr => h r (List.mem_of_mem_filter hr)
  · exact h

theorem readable_save (h : Readable s) : Readable (save rt s task context now).1 := by
  cases hget : getScope context with
  | error e =>
    simp only [save, hget]
    exact h
  | ok scope =>
    rcases save_cases hget with ⟨r, e, -, -, hsave, -⟩ | ⟨r, -, -, hsave⟩ | ⟨-, tasks, hins, hsave⟩
    · rw [hsave]
      exact h
    · rw [hsave]
      apply readable_cleanup
      intro r hr
      obtain ⟨r₀, hr₀, rfl⟩ := List.mem_map.mp hr
      split
      · rfl
      · exact h r₀ hr₀
    · rw [hsave]
      apply readable_cleanup
      intro r hr
      have hr' : r ∈ tasks.rows := hr
      rw [Table.rows_insert hins] at hr'
      rcases List.mem_append.mp hr' with hr' | hr'
      · exact h r hr'
      · rw [List.mem_singleton.mp hr']
        rfl

end Save

section Read

variable {rt : Runtime} {scope : TaskScope} {s : State} {context : ServerCallContext}

theorem load_view (hget : getScope context = .ok scope) (taskId : String) :
    load rt s.a2aTasks.rows taskId context = load rt (view scope s) taskId context := by
  have hrows : s.a2aTasks.rows.find? (fun r => r.id = taskId) = s.a2aTasks.find? taskId := rfl
  rw [load, load, find?_view, hrows]
  cases hfind : s.a2aTasks.find? taskId with
  | none => rfl
  | some r =>
    cases hin : inScope scope r with
    | true => rw [Option.filter_some, if_pos hin]
    | false =>
      rw [Option.filter_some, hin]
      simp only [Option.bind_some, Bool.false_eq_true, if_false, Option.bind_none, hget]
      cases hdata : r.data with
      | none => rfl
      | some data => exact decodeScopedTask_none hdata hin

theorem listPage_view (params : ListTasksRequest) (cursor : Option TaskPageCursor) (after : Option String) :
    listPage rt s.a2aTasks.rows scope params cursor after = listPage rt (view scope s) scope params cursor after := by
  have hfilter : (view scope s).filter (fun r => inScope scope r && requested rt params after r) =
      s.a2aTasks.rows.filter fun r => inScope scope r && requested rt params after r := by
    rw [view, List.filter_filter]
    apply List.filter_congr
    intro r _
    cases inScope scope r <;> simp
  simp only [listPage, hfilter]

theorem list_view (hread : Readable s) (hget : getScope context = .ok scope) (params : ListTasksRequest) :
    list rt s.a2aTasks.rows params context = list rt (view scope s) params context := by
  have hall : (s.a2aTasks.rows.all fun r => r.data.isSome) = true := List.all_eq_true.mpr hread
  have hview : ((view scope s).all fun r => r.data.isSome) = true :=
    List.all_eq_true.mpr fun r hr => hread r (List.mem_of_mem_filter hr)
  simp only [list, hget, hall, hview, listPage_view]
  rfl

end Read

theorem unwinding (rt : Runtime) (scope : TaskScope) :
    Unwinding (perform rt) (Call.isOf scope) (view scope) (Undisturbed scope) Readable where
  keeps := by
    intro s c hread _
    cases c with
    | save task context now => exact readable_save hread
    | load taskId context | list params context => exact hread
  others := by
    intro s c _ hok hother
    cases c with
    | save task context now => exact save_view_other hok hother
    | load taskId context => rfl
    | list params context => rfl
  own := by
    intro s t c hs ht hoks hokt hmine hview
    have hget : getScope c.context = .ok scope := by
      unfold Call.isOf at hmine
      split at hmine
      · rename_i hget
        rw [hget, of_decide_eq_true hmine]
      · cases hmine
    cases c with
    | save task context now =>
      have heqs : _ = saveIn rt scope (view scope s) task now := save_eq_saveIn hoks hget
      have heqt : _ = saveIn rt scope (view scope t) task now := save_eq_saveIn hokt hget
      rw [hview, ← heqt] at heqs
      obtain ⟨hnext, hout⟩ := Prod.mk.inj heqs
      exact ⟨hnext, congrArg Outcome.saved hout⟩
    | load taskId context =>
      refine ⟨hview, congrArg Outcome.loaded ?_⟩
      have hscope : getScope context = .ok scope := hget
      rw [load_view hscope, load_view hscope, hview]
    | list params context =>
      refine ⟨hview, congrArg Outcome.listed ?_⟩
      have hscope : getScope context = .ok scope := hget
      rw [list_view hs hscope, list_view ht hscope, hview]

theorem perform_other {rt : Runtime} {scope : TaskScope} {s : State} {c : Call}
    (hrep : ∀ scope', getScope c.context = .ok scope' → scope'.isRepresentable = true)
    (hother : c.isOf scope = false) {r : Row} (hr : r ∈ view scope s) :
    r ∈ view scope (perform rt s c).1 ∨
      ∃ task context now, c = .save task context now ∧ cleanupDue s now = true ∧ r.updatedAt < cutoff now := by
  cases c with
  | load taskId context | list params context => exact .inl hr
  | save task context now =>
    have hstep : (perform rt s (.save task context now)).1 = (save rt s task context now).1 := rfl
    rw [hstep]
    have hrep' : ∀ scope', getScope context = .ok scope' → scope'.isRepresentable = true := hrep
    rcases save_other rt s task now hrep' hother with hsame | ⟨u, hview, hdue, hsave⟩
    · rw [hsame]
      exact .inl hr
    · rw [hsave]
      rw [← hview] at hr
      unfold cleanup
      split
      · rename_i hclean
        by_cases hold : r.updatedAt < cutoff now
        · exact .inr ⟨task, context, now, rfl, hdue ▸ hclean, hold⟩
        · obtain ⟨hmem, hin⟩ := List.mem_filter.mp hr
          exact .inl (List.mem_filter.mpr ⟨List.mem_filter.mpr ⟨hmem, by simpa using hold⟩, hin⟩)
      · exact .inl hr

theorem a2a_scopes_do_not_interfere (rt : Runtime) {scope : TaskScope} {s : State} {cs ds : List Call}
    (hread : Readable s) (hcs : Along (perform rt) (Undisturbed scope) s cs)
    (hds : Along (perform rt) (Undisturbed scope) s ds)
    (hsame : cs.filter (Call.isOf scope) = ds.filter (Call.isOf scope)) :
    outputs (perform rt) (Call.isOf scope) s cs = outputs (perform rt) (Call.isOf scope) s ds ∧
      view scope (final (perform rt) s cs) = view scope (final (perform rt) s ds) ∧
      ∀ t c, (∀ scope', getScope c.context = .ok scope' → scope'.isRepresentable = true) →
        c.isOf scope = false → ∀ r ∈ view scope t, r ∈ view scope (perform rt t c).1 ∨
          ∃ task context now, c = .save task context now ∧ cleanupDue t now = true ∧ r.updatedAt < cutoff now := by
  obtain ⟨houts, hview⟩ := (unwinding rt scope).outputs_eq hread hread hcs hds hsame rfl
  exact ⟨houts, hview, fun t c hrep hother r hr => perform_other hrep hother hr⟩

def plain : Runtime where
  toJSON := fun task => .obj (.ofList [("id", .str task.id), ("contextId", .str task.contextId)])
  fromJSON := fun
    | .obj fs =>
      match fs.get? "id", fs.get? "contextId" with
      | some (.str id), some (.str contextId) => some ⟨id, contextId, none, [], .null⟩
      | _, _ => none
    | _ => none
  taskStateName := fun _ => ""
  dateParse := fun _ => none
  toISOString := fun _ => ""
  encodePageCursor := fun _ _ => ""
  decodePageToken := fun _ => none
  textLt := codeUnitLt
  localeLe := JsonText.keyLe

def alice : ServerCallContext := ⟨some "agt_1", some "a2a:alice"⟩

def bob : ServerCallContext := ⟨some "agt_1", some "a2a:bob"⟩

def emptyTask (id : String) : Task := ⟨id, "ctx", none, [], .null⟩

def scopeOf (user : ServerCallContext) : TaskScope :=
  ⟨user.tenant.getD "", user.userName.getD ""⟩

def runOf (user : ServerCallContext) (cs : List Call) : List Outcome :=
  outputs (perform plain) (Call.isOf (scopeOf user)) {} cs

theorem a2a_scopes_do_not_interfere_shared_id :
    runOf alice [.save (emptyTask "task_1") alice 1, .save (emptyTask "task_1") bob 2,
        .save (emptyTask "task_2") bob 3, .list {} alice, .load "task_1" alice] =
      runOf alice [.save (emptyTask "task_1") alice 1, .list {} alice, .load "task_1" alice] :=
  (a2a_scopes_do_not_interfere plain (fun r hr => absurd hr List.not_mem_nil) (by decide +kernel)
    (by decide +kernel) (by decide +kernel)).1

theorem a2a_scopes_interfere :
    runOf alice [.save (emptyTask "task_1") bob 1, .save (emptyTask "task_1") alice 2, .load "task_1" alice] ≠
      runOf alice [.save (emptyTask "task_1") alice 2, .load "task_1" alice] ∧
    runOf alice [.save (emptyTask "task_1") ⟨some "agt_1", some (String.ofList ("a2a:alice".toList ++ [Char.ofNat 0]))⟩ 1,
        .load "task_1" alice] ≠
      runOf alice [.load "task_1" alice] ∧
    runOf alice [.save (emptyTask "task_1") alice 1, .save (emptyTask "task_2") bob (15 * 24 * 60 * 60 * 1000),
        .load "task_1" alice] ≠
      runOf alice [.save (emptyTask "task_1") alice 1, .load "task_1" alice] := by
  refine ⟨?_, ?_, ?_⟩
  · decide +kernel
  · decide +kernel
  · decide +kernel

end A2Wave.TaskStore
