import A2Wave.Run.Operations

/-! `lib/scm-workspace-removal.ts`, and the transaction in which `resolveWorkDir` of
`lib/agent-helpers.ts` claims an explicit worktree.  A remover commits a reservation before it
touches the file system, and a run commits its `workDir` before it creates the directory. -/

namespace A2Wave

/-- `path.normalize`, over the segments of a POSIX path. -/
def normalizePath (path : String) : String :=
  let absolute := path.toList.head? = some '/'
  let trailing := path.toList.getLast? = some '/'
  let resolve (kept : List (List Char)) (segment : List Char) : List (List Char) :=
    if segment = [] ∨ segment = ['.'] then kept
    else if segment = ['.', '.'] then
      match kept with
      | [] => if absolute then [] else [segment]
      | top :: rest => if top = ['.', '.'] then segment :: kept else rest
    else segment :: kept
  let segments := ((path.toList.splitOn '/').foldl resolve []).reverse
  let body := ['/'].intercalate segments
  if body = [] then if absolute then "/" else if trailing then "./" else "."
  else String.ofList
    ((if absolute then ['/'] else []) ++ body ++ if trailing then ['/'] else [])

def joinPath (root name : String) : String :=
  if root = "" then normalizePath name else normalizePath (root ++ "/" ++ name)

structure ScmPaths where
  localPath : String
  wsRoot : String
  deriving DecidableEq

structure OwnedScmWorkload where
  workload : ScmWorkloadIdentity
  ownerInstanceId : String
  deriving DecidableEq

structure GuardedRemoval where
  target : RemovalTarget
  scm : ScmPaths
  ownedWorkload : Option OwnedScmWorkload := none
  attemptToken : String
  deriving DecidableEq

namespace GuardedRemoval

def owns (r : GuardedRemoval) (row : ScmWorkspaceRemoval) : Bool :=
  row.target = r.target && row.attemptToken = r.attemptToken

def excludes (r : GuardedRemoval) (runId : String) : Bool :=
  r.ownedWorkload.map OwnedScmWorkload.workload = some (runWorkload runId)

end GuardedRemoval

/-- A call of `resolveWorkDir` for a run that names its worktree, with the source its agent was
bound to when the agent was read. -/
structure ResolveCall where
  runId : String
  agentId : String
  scmSourceId : String
  name : String
  deriving DecidableEq

def ResolveCall.target (call : ResolveCall) : RemovalTarget := ⟨call.scmSourceId, call.name⟩

def isWorktreeName (name : String) : Bool :=
  let n := name.toList.length
  1 ≤ n && n ≤ 64 && name.toList.all fun c =>
    ('a' ≤ c && c ≤ 'z') || ('A' ≤ c && c ≤ 'Z') || ('0' ≤ c && c ≤ '9') || c = '_' || c = '-'

def Run.inFlight (r : Run) : Bool :=
  r.status = .running || r.status = .pending || r.status = .queued

def leasedOn (db : Db) (runId scmSourceId : String) : Bool :=
  (loadLease db (runWorkload runId)).any (·.scmSourceId = scmSourceId)

def validateOwnedCleanup (host : Host) (db : Db) (sourceId : String) (w : OwnedScmWorkload) :
    Except String ScmWorkloadIdentity :=
  if w.ownerInstanceId ≠ host.processInstanceId then
    .error "Workspace cleanup is owned by another process instance"
  else
    match (loadLease db w.workload).filter fun l => l.scmSourceId = sourceId &&
      l.phase = .active && l.ownerInstanceId = some w.ownerInstanceId with
    | none => .error "Workspace cleanup no longer owns an active workload"
    | some _ => .ok w.workload

def excludedWorkload (host : Host) (db : Db) (r : GuardedRemoval) : Except String (Option ScmWorkloadIdentity) :=
  match r.ownedWorkload with
  | none => .ok none
  | some w => (validateOwnedCleanup host db r.target.scmSourceId w).map some

def releaseWorkspaceRemovalReservation (db : Db) (r : GuardedRemoval) : Db :=
  { db with scmWorkspaceRemovals := db.scmWorkspaceRemovals.deleteWhere r.owns }

def handOffWorkspaceRemoval (db : Db) (r : GuardedRemoval) : Db :=
  let removals := db.scmWorkspaceRemovals.updateWhere r.owns
    (fun row => { row with ownerInstanceId := none }) (fun _ => rfl)
  { db with scmWorkspaceRemovals := removals }

/-- The transaction in which `resolveWorkDir` claims an explicit worktree. -/
def claimWorktree (db : Db) (call : ResolveCall) (wsPath : String) : Except String Db :=
  if db.runs.rows.any fun r => r.workDir = some wsPath && r.inFlight && r.id ≠ call.runId then
    .error s!"Worktree '{wsPath}' is occupied by a running or pending run"
  else
    match findPendingWorkspaceRemoval db call.scmSourceId call.name with
    | some _ =>
      let name := call.name
      .error s!"Worktree '{name}' is currently being removed; retry shortly"
    | none => .ok (db.setWorkDir call.runId (some wsPath))

section Paths

-- `defaultWorkspacesPath`: the root of a source that has none configured
variable (defaultWorkspacesPath : String → String)

/-- The paths of `GitScmSource`, to which an empty root is a missing one. -/
def ScmSource.paths (s : ScmSource) : ScmPaths :=
  ⟨s.localPath, (s.workspacesPath.filter (· ≠ "")).getD (defaultWorkspacesPath s.id)⟩

def worktreePath (db : Db) (target : RemovalTarget) : Option String :=
  (db.scmSources.find? target.scmSourceId).map fun s =>
    joinPath (s.paths defaultWorkspacesPath).wsRoot target.workspaceName

def findWorkspaceRemovalBlocker (db : Db) (sourceId : String) (scm : ScmPaths) (name : String)
    (excludingWorkload : Option ScmWorkloadIdentity) : Option String :=
  let wsPath := joinPath scm.wsRoot name
  match (db.scmSources.find? sourceId).filter (·.deletionRequestedAt.isNone) with
  | none => some "SCM source is no longer available"
  | some current =>
    -- here an empty root is a root
    let currentWsRoot := current.workspacesPath.getD (defaultWorkspacesPath sourceId)
    if current.localPath ≠ scm.localPath ∨ currentWsRoot ≠ scm.wsRoot then
      some "SCM source paths changed while removing the workspace; retry"
    else if db.runs.rows.any fun r => r.workDir = some wsPath && r.inFlight &&
        excludingWorkload ≠ some (runWorkload r.id) then
      some "Workspace is occupied by a running or pending run"
    else
      let leases := db.scmWorkloadLeases.select fun l =>
        l.scmSourceId = sourceId && excludingWorkload ≠ some l.workload
      if leases.any fun l =>
          l.workload.type = .evaluation && name = "eval-" ++ l.workload.workloadId then
        some "Workspace is occupied by a running evaluation"
      else
        let leasedRuns := db.runs.select fun r => leases.any (·.workload = runWorkload r.id)
        -- a run without a directory yet may still choose this one
        (leasedRuns.find? fun r => r.workDir = some wsPath || r.workDir.isNone).map fun r =>
          if r.workDir.isNone then
            "Workspace may be claimed by an admitted run that has not started yet"
          else "Workspace is occupied by a run that has not finished cleanup"

def checkRemoval (host : Host) (db : Db) (r : GuardedRemoval) : Except String Unit :=
  (excludedWorkload host db r).bind fun excluding =>
    match findWorkspaceRemovalBlocker defaultWorkspacesPath db r.target.scmSourceId r.scm
      r.target.workspaceName excluding with
    | some reason => .error reason
    | none => .ok ()

def reserveRemoval (host : Host) (db : Db) (r : GuardedRemoval) : Except String Db :=
  (checkRemoval defaultWorkspacesPath host db r).bind fun _ =>
    match db.scmWorkspaceRemovals.insert
      ⟨r.target, some host.processInstanceId, r.attemptToken, host.now⟩ with
    | none => .error "A removal of this workspace is already in progress"
    | some removals => .ok { db with scmWorkspaceRemovals := removals }

end Paths

section Spec

variable {defaultWorkspacesPath : String → String} {host : Host} {db db' : Db} {r : GuardedRemoval}

theorem excludedWorkload_ok {excluding : Option ScmWorkloadIdentity}
    (h : excludedWorkload host db r = .ok excluding) :
    excluding = r.ownedWorkload.map OwnedScmWorkload.workload := by
  unfold excludedWorkload at h
  split at h
  · rename_i hown
    cases h
    rw [hown]
    rfl
  · rename_i w hown
    unfold validateOwnedCleanup at h
    split at h
    · cases h
    · split at h
      · cases h
      · cases h
        rw [hown]
        rfl

theorem lease_of_leasedOn {runId sourceId : String} (h : leasedOn db runId sourceId = true) :
    ∃ l ∈ db.scmWorkloadLeases.rows, l.workload = runWorkload runId ∧ l.scmSourceId = sourceId := by
  unfold leasedOn at h
  cases hl : loadLease db (runWorkload runId) with
  | none => simp [hl] at h
  | some l =>
    obtain ⟨hmem, hkey⟩ := Table.find?_eq_some_iff.mp hl
    exact ⟨l, hmem, hkey, by simpa [hl] using h⟩

theorem findWorkspaceRemovalBlocker_none {sourceId name : String} {scm : ScmPaths}
    {excluding : Option ScmWorkloadIdentity}
    (h : findWorkspaceRemovalBlocker defaultWorkspacesPath db sourceId scm name excluding = none)
    {run : Run} (hrun : run ∈ db.runs.rows) (hdir : run.workDir = some (joinPath scm.wsRoot name))
    (hocc : run.inFlight = true ∨ leasedOn db run.id sourceId = true) :
    excluding = some (runWorkload run.id) := by
  unfold findWorkspaceRemovalBlocker at h
  dsimp only at h
  split at h
  · cases h
  split at h
  · cases h
  split at h
  · cases h
  rename_i hflight
  split at h
  · cases h
  rw [Option.map_eq_none_iff, List.find?_eq_none] at h
  by_contra hne
  rcases hocc with hocc | hocc
  · apply hflight
    rw [List.any_eq_true]
    exact ⟨run, hrun, by simp [hdir, hocc, hne]⟩
  · -- the lease makes the run one of the leased runs, and its directory is the path
    obtain ⟨l, hl, hw, hs⟩ := lease_of_leasedOn hocc
    have hleased : run ∈ db.runs.select fun r =>
        (db.scmWorkloadLeases.select fun l => decide (l.scmSourceId = sourceId) &&
          decide (excluding ≠ some l.workload)).any (·.workload = runWorkload r.id) := by
      refine List.mem_filter.mpr ⟨hrun, List.any_eq_true.mpr ⟨l, List.mem_filter.mpr ⟨hl, ?_⟩, ?_⟩⟩
      · simp [hs, hw, hne]
      · simp [hw]
    have := h run hleased
    simp [hdir] at this

theorem checkRemoval_ok (h : checkRemoval defaultWorkspacesPath host db r = .ok ()) {run : Run}
    (hrun : run ∈ db.runs.rows)
    (hdir : run.workDir = some (joinPath r.scm.wsRoot r.target.workspaceName))
    (hocc : run.inFlight = true ∨ leasedOn db run.id r.target.scmSourceId = true) :
    r.excludes run.id = true := by
  obtain ⟨excluding, hex, hk⟩ := bind_ok h
  split at hk
  · cases hk
  rename_i hnone
  have := findWorkspaceRemovalBlocker_none hnone hrun hdir hocc
  simp [GuardedRemoval.excludes, ← excludedWorkload_ok hex, this]

theorem reserveRemoval_ok (h : reserveRemoval defaultWorkspacesPath host db r = .ok db') :
    checkRemoval defaultWorkspacesPath host db r = .ok () ∧ ∃ removals, db.scmWorkspaceRemovals.insert
          ⟨r.target, some host.processInstanceId, r.attemptToken, host.now⟩ = some removals ∧
        db' = { db with scmWorkspaceRemovals := removals } := by
  obtain ⟨⟨⟩, hcheck, hk⟩ := bind_ok h
  split at hk
  · cases hk
  · rename_i removals hins
    cases hk
    exact ⟨hcheck, removals, hins, rfl⟩

theorem claimWorktree_ok {call : ResolveCall} {wsPath : String}
    (h : claimWorktree db call wsPath = .ok db') :
    findPendingWorkspaceRemoval db call.scmSourceId call.name = none ∧
      db' = db.setWorkDir call.runId (some wsPath) := by
  unfold claimWorktree at h
  split at h
  · cases h
  split at h
  · cases h
  · rename_i hnone
    cases h
    exact ⟨hnone, rfl⟩

theorem setWorkDir_cases (db : Db) (runId : String) (workDir : Option String) :
    (db.runs.find? runId = none ∧ db.setWorkDir runId workDir = db) ∨
    (∃ run, db.runs.find? runId = some run ∧
      db.casRun runId (fun _ => true) (workDirRow workDir) (workDirRow_id workDir) =
        some (db.setWorkDir runId workDir)) := by
  unfold Db.setWorkDir
  cases h : db.casRun runId (fun _ => true) (workDirRow workDir) (workDirRow_id workDir) with
  | none =>
    refine .inl ⟨?_, rfl⟩
    rw [Db.casRun_eq_none_iff] at h
    rw [Option.eq_none_iff_forall_not_mem]
    intro run hrun
    exact absurd (h run hrun) (by simp)
  | some db₁ =>
    obtain ⟨run, hrun, -⟩ := Db.casRun_find? h
    exact .inr ⟨run, hrun, rfl⟩

end Spec

end A2Wave
