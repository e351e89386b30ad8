import A2Wave.Scm.Removal

/-! The default branch of `resolveWorkDir` in `lib/agent-helpers.ts`: a run that names no worktree
gets its agent's own one, or the shared checkout when that one cannot be had. -/

namespace A2Wave

def idSuffix (id : String) : String :=
  let suffix := match id.toList.dropWhile (· ≠ '_') with
    | [] => id
    | _ :: rest => String.ofList rest
  if suffix = "" then id else suffix

def perAgentWorkspaceName (agentId : String) : String := "agent-" ++ idSuffix agentId

def isBase64Url (c : Char) : Bool :=
  ('a' ≤ c && c ≤ 'z') || ('A' ≤ c && c ≤ 'Z') || ('0' ≤ c && c ≤ '9') || c = '_' || c = '-'

def isPerAgentWorkspaceName (name : String) : Bool :=
  let chars := name.toList
  "agent-".toList.isPrefixOf chars && (chars.drop 6).length = 16 && (chars.drop 6).all isBase64Url

/-- A call for a run without a worktree of its own name, with the source its agent was bound to
when the agent was read. -/
structure DefaultCall where
  runId : String
  agentId : String
  scmSourceId : String
  deriving DecidableEq

def DefaultCall.target (call : DefaultCall) : RemovalTarget :=
  ⟨call.scmSourceId, perAgentWorkspaceName call.agentId⟩

def workdirRecordAttempts : Nat := 3

inductive DefaultPhase
  | start
  | source
  | locate (source : ScmSource)
  | probe (localPath wsPath : String)
  | create (localPath wsPath : String) (advance : Bool)
  | record (wsPath : String) (attempt : Nat)
  | recorded (wsPath : String)
  | returned (dir : String)
  | elsewhere
  | threw (message : String)
  deriving DecidableEq

def hasSibling (db : Db) (runId wsPath : String) : Bool :=
  db.runs.rows.any fun r => r.workDir = some wsPath && r.status = .running && r.id ≠ runId

section Resolve

variable (defaultWorkspacesPath : String → String)

/-- One await of the call.  Whatever throws before the directory is recorded degrades to the
shared checkout. -/
def actDefault (succeeds dbFails : Bool) (db : Db) (call : DefaultCall) : DefaultPhase → Option (Db × DefaultPhase)
  | .start =>
    let bound := (db.agents.find? call.agentId).any fun a =>
      a.workspaceType = .scm && a.scmSourceId = some call.scmSourceId
    if dbFails || !bound then
      some (db, .threw "Agent SCM binding changed before workload admission")
    else some (db, .source)
  | .source =>
    if dbFails then some (db, .threw "select failed")
    else match db.scmSources.find? call.scmSourceId with
      | none => some (db, .elsewhere)
      | some source =>
        if source.type = .git then some (db, .locate source)
        else some (db, .returned source.localPath)
  | .locate source =>
    -- `createScmSource` checks the stored root, and its failure is swallowed
    if succeeds && !dbFails then
      some (db, .probe source.localPath
        (joinPath (source.paths defaultWorkspacesPath).wsRoot (perAgentWorkspaceName call.agentId)))
    else some (db, .returned source.localPath)
  | .probe localPath wsPath =>
    if dbFails then some (db, .returned localPath)
    else some (db, .create localPath wsPath (!hasSibling db call.runId wsPath))
  | .create localPath wsPath _ =>
    some (db, if succeeds then .record wsPath 1 else .returned localPath)
  | .record wsPath attempt =>
    if dbFails then
      if attempt < workdirRecordAttempts then some (db, .record wsPath (attempt + 1))
      else
        let runId := call.runId
        some (db, .threw s!"Failed to record workDir '{wsPath}' for run '{runId}'")
    else some (db.setWorkDir call.runId (some wsPath), .recorded wsPath)
  | .recorded wsPath => some (db, .returned wsPath)
  | .returned _ => none
  | .elsewhere => none
  | .threw _ => none

end Resolve

variable {defaultWorkspacesPath : String → String}

theorem actDefault_cases {succeeds dbFails : Bool} {db db' : Db} {call : DefaultCall}
    {phase phase' : DefaultPhase}
    (h : actDefault defaultWorkspacesPath succeeds dbFails db call phase = some (db', phase')) :
    db' = db ∨ ∃ wsPath attempt, phase = .record wsPath attempt ∧ phase' = .recorded wsPath ∧
      db' = db.setWorkDir call.runId (some wsPath) := by
  cases phase with
  | record wsPath attempt =>
    simp only [actDefault] at h
    split at h
    · split at h <;> cases h <;> exact .inl rfl
    · cases h
      exact .inr ⟨wsPath, attempt, rfl, rfl, rfl⟩
  | start | locate source | probe localPath wsPath =>
    simp only [actDefault] at h
    split at h <;> cases h <;> exact .inl rfl
  | source =>
    simp only [actDefault] at h
    split at h
    · cases h
      exact .inl rfl
    split at h
    · cases h
      exact .inl rfl
    · split at h <;> cases h <;> exact .inl rfl
  | create localPath wsPath advance | recorded wsPath =>
    cases h
    exact .inl rfl
  | returned dir => cases h
  | elsewhere => cases h
  | threw message => cases h

end A2Wave
