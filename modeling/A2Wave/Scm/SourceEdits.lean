import Mathlib.Data.List.Permutation
import A2Wave.Scm.PathPlan
import A2Wave.Scm.SecretMask

/-! `PATCH /:id` of `routes/scm-sources.ts`: requests on one source that overlap.  The other sources,
the roles and the file system stay as they are. -/

namespace A2Wave.SourceEdits

open Transition PathPlan ScmSecret

structure Bookkeeping where
  syncStatus : SyncStatus := .idle
  codegraphStatus : CodegraphStatus := .idle
  initialSyncCompletedAt : Option Nat := none
  lastSyncAt : Option Nat := none
  lastSyncError : Option String := none
  deriving DecidableEq

structure Source extends ScmPathPeer where
  description : Option String := none
  type : ScmSourceType
  config : ScmSourceConfig
  isEnabled : Bool := true
  deletionRequestedAt : Option Nat := none
  userId : Option String := none
  sync : Bookkeeping := {}
  deriving DecidableEq

structure UpdateScmSourceInput where
  name : Option String := none
  description : Option (Option String) := none
  config : Option ScmSourceConfig := none
  localPath : Option String := none
  workspacesPath : Option (Option String) := none
  isEnabled : Option Bool := none
  deriving DecidableEq

inductive Body
  | setupScript
  | rejected (error : String)
  | parsed (data : UpdateScmSourceInput)
  deriving DecidableEq

/-- `peers` are the other sources; the planner passes the row of the source itself over. -/
structure Host where
  platform : Platform
  pathExists : String → Bool := fun _ => false
  runtime : Runtime
  number : ℚ → String
  peers : List ScmPathPeer := []
  activeAdmin : String → Bool := fun _ => false

inductive Response
  | updated
  | error (status : Nat) (error : String)
  deriving DecidableEq

structure Draft where
  existing : Source
  data : UpdateScmSourceInput
  effectiveWsPath : String
  config : Option ScmSourceConfig
  localPathChanged : Bool
  configChanged : Bool
  deriving DecidableEq

inductive Phase
  | select
  | json (existing : Source)
  | selectScmPathPeers (existing : Source) (data : UpdateScmSourceInput)
  | validateRoot (existing : Source) (data : UpdateScmSourceInput) (effectiveWsPath : String)
  | cancelInitialScmSync (draft : Draft)
  | reselect (draft : Draft)
  | write (draft : Draft)
  | update (draft : Draft) (lockedWsPath : String)
  | responded (response : Response)
  deriving DecidableEq

structure Request where
  actor : String
  body : Body
  phase : Phase := .select
  deriving DecidableEq

def Request.edit (r : Request) : String × Body := (r.actor, r.body)

structure World where
  source : Source
  requests : List Request := []
  lock : Option Nat := none
  workload : Option (String × String) := none
  pendingRemoval : Option String := none

structure Choice where
  cancelled : Bool := false
  busy : Bool := false

def RETIRED_SETUP_SCRIPT_ERROR : String := "setupScript is no longer supported"

def BUSY_ERROR : String := "Cannot change localPath or config while a sync or indexing job is running"

def configType : ScmSourceConfig → ScmSourceType
  | .p4 _ => .p4
  | .git _ => .git

section Definitions

variable (host : Host)

/-- `conditions`: an administrator, or the owner. -/
def visible (actor : String) (source : Source) : Bool :=
  host.activeAdmin actor || source.userId = some actor

def planPaths (actor : String) (id : String) (type : ScmSourceType) (localPath : String)
    (workspacesPath : Option String) : Except PlanError ScmPaths :=
  resolveScmPathPlan host.platform host.pathExists
    { sourceId := id, type := type, localPath := some localPath, workspacesPath := workspacesPath
      existingSources := host.peers
      excludeId := some id
      isAdmin := host.activeAdmin actor }

def peerOccupiedPaths (peer : ScmPathPeer) : List String :=
  (if peer.localPath ≠ "" then [peer.localPath] else []) ++
    match peer.workspacesPath.filter (· ≠ "") with
    | some path => [path]
    | none => if peer.id ≠ "" then [defaultWorkspacesPath host.platform host.pathExists peer.id] else []

def validateStoredScmWorkspacesRoot (id : String) (userId workspacesPath : Option String) : Option String :=
  let effectiveRoot := workspacesPath.getD (defaultWorkspacesPath host.platform host.pathExists id)
  match validateScmWorkspacesRoot host.platform effectiveRoot (userId.any host.activeAdmin) with
  | some error =>
    some s!"Unsafe saved workspacesPath: {error}. Update this SCM source to an approved dedicated root before using workspaces"
  | none =>
    (host.peers.filter fun peer => peer.id ≠ id).findSome? fun peer =>
      ((peerOccupiedPaths host peer).find? fun path => PathPlan.filesystemPathsOverlap host.platform path effectiveRoot).map
        fun collision =>
          let name := peer.name
          s!"Unsafe saved workspacesPath: it overlaps storage used by source \"{name}\" ({collision}). Update this SCM source to an approved dedicated root before using workspaces"

def payloadConfig (existing : Source) (data : UpdateScmSourceInput) : Except Response (Option ScmSourceConfig) :=
  match data.config with
  | none => .ok none
  | some config =>
    if configType config ≠ configType existing.config then
      .error (.error 400 "Config type does not match the source type")
    else
      match rehydrateScmConfigSecrets host.runtime config (some existing.config) with
      | .error error => .error (.error 400 error)
      | .ok config => .ok (some config)

def makeDraft (existing : Source) (data : UpdateScmSourceInput) (effectiveWsPath : String) : Except Response Draft :=
  match payloadConfig host existing data with
  | .error response => .error response
  | .ok config => .ok
    { existing := existing, data := data, effectiveWsPath := effectiveWsPath, config := config
      localPathChanged := data.localPath.any (· ≠ existing.localPath)
      configChanged := config.any fun config => !scmConfigEquals host.number config existing.config }

namespace Draft

def resetsSyncState (draft : Draft) : Bool := draft.localPathChanged || draft.configChanged

def disablesSource (draft : Draft) : Bool := draft.data.isEnabled = some false && draft.existing.isEnabled

def mutatesWorkspaceLifecycle (draft : Draft) : Bool :=
  draft.configChanged || draft.data.localPath.isSome || draft.data.workspacesPath.isSome

/-- `.set(payload)`, with the worktree root of the plan made last. -/
def write (draft : Draft) (plannedWsPath : String) (row : Source) : Source :=
  { row with
    name := draft.data.name.getD row.name
    description := draft.data.description.getD row.description
    localPath := draft.data.localPath.getD row.localPath
    workspacesPath := if draft.data.workspacesPath.isSome then some plannedWsPath else row.workspacesPath
    isEnabled := draft.data.isEnabled.getD row.isEnabled
    config := draft.config.getD row.config
    sync :=
      if draft.resetsSyncState then
        { row.sync with
          initialSyncCompletedAt := none
          syncStatus := .idle
          lastSyncAt := none
          lastSyncError := none }
      else row.sync }

def updates (draft : Draft) (row : Source) : Bool :=
  row.deletionRequestedAt = none && (!draft.resetsSyncState ||
    row.sync.syncStatus ≠ .syncing && row.sync.codegraphStatus ≠ .indexing)

end Draft

def guardReset (draft : Draft) (busy : Bool) : Phase :=
  if draft.resetsSyncState then
    if busy then .responded (.error 409 BUSY_ERROR)
    else if draft.existing.sync.syncStatus = .syncing then
      .responded (.error 409 "Cannot change localPath or config while a sync is in progress")
    else .write draft
  else .write draft

def afterDraft (draft : Draft) (busy : Bool) : Phase :=
  if (draft.resetsSyncState || draft.disablesSource) && draft.existing.sync.initialSyncCompletedAt = none then
    .cancelInitialScmSync draft
  else guardReset draft busy

def World.setPhase (w : World) (i : Nat) (r : Request) (phase : Phase) : World :=
  { w with requests := w.requests.set i { r with phase := phase } }

/-- The `UPDATE`, and the end of the transaction around it. -/
def World.commit (w : World) (i : Nat) (r : Request) (draft : Draft) (plannedWsPath : String) : World :=
  if draft.updates w.source then
    { w with source := draft.write plannedWsPath w.source }.setPhase i r (.responded .updated)
  else w.setPhase i r (.responded (.error 409 BUSY_ERROR))

def lockedPlan (actor : String) (draft : Draft) (row : Source) : Except PlanError ScmPaths :=
  planPaths host actor row.id draft.existing.type (draft.data.localPath.getD row.localPath)
    (draft.data.workspacesPath.getD (row.workspacesPath.or draft.existing.workspacesPath))

def enterTransaction (w : World) (i : Nat) (r : Request) (draft : Draft) : Option World :=
  if w.lock ≠ none then none
  else some (match w.workload with
    | some (type, id) => w.setPhase i r
        (.responded (.error 409 s!"Cannot change paths or config while {type} \"{id}\" uses this source"))
    | none =>
      match w.pendingRemoval with
      | some name => w.setPhase i r
          (.responded (.error 409 s!"Cannot change paths while workspace \"{name}\" is being removed"))
      | none =>
        match lockedPlan host r.actor draft w.source with
        | .error e => w.setPhase i r (.responded (.error e.status e.error))
        | .ok paths => { w with lock := some i }.setPhase i r (.update draft paths.wsRoot))

def act (w : World) (i : Nat) (r : Request) (c : Choice) : Option World :=
  match r.phase with
  | .select =>
    some (w.setPhase i r (
      if !visible host r.actor w.source then .responded (.error 404 "SCM source not found")
      else if w.source.deletionRequestedAt ≠ none then
        .responded (.error 409 "SCM source deletion is pending")
      else .json w.source))
  | .json existing =>
    some (w.setPhase i r (match r.body with
      | .setupScript => .responded (.error 400 RETIRED_SETUP_SCRIPT_ERROR)
      | .rejected error => .responded (.error 400 error)
      | .parsed data => .selectScmPathPeers existing data))
  | .selectScmPathPeers existing data =>
    some (w.setPhase i r (
      match planPaths host r.actor existing.id existing.type (data.localPath.getD existing.localPath)
          (data.workspacesPath.getD existing.workspacesPath) with
      | .error e => .responded (.error e.status e.error)
      | .ok paths => .validateRoot existing data paths.wsRoot))
  | .validateRoot existing data effectiveWsPath =>
    some (w.setPhase i r (
      match validateStoredScmWorkspacesRoot host existing.id existing.userId (some effectiveWsPath) with
      | some error => .responded (.error 400 error)
      | none =>
        match makeDraft host existing data effectiveWsPath with
        | .error response => .responded response
        | .ok draft => afterDraft draft c.busy))
  | .cancelInitialScmSync draft =>
    some (w.setPhase i r (if c.cancelled then .reselect draft else guardReset draft c.busy))
  | .reselect draft =>
    some (w.setPhase i r (
      if !visible host r.actor w.source then .responded (.error 404 "SCM source not found")
      else guardReset { draft with existing := w.source } c.busy))
  | .write draft =>
    if draft.mutatesWorkspaceLifecycle then enterTransaction host w i r draft
    else some (w.commit i r draft draft.effectiveWsPath)
  | .update draft lockedWsPath => some ({ w with lock := none }.commit i r draft lockedWsPath)
  | .responded _ => none

end Definitions

inductive Event
  | patch (actor : String) (body : Body)
  | act (i : Nat) (c : Choice)
  | bookkeeping (sync : Bookkeeping)
  | workload (workload : Option (String × String))
  | pendingRemoval (workspaceName : Option String)

def step (host : Host) (w : World) : Event → Option World
  | .patch actor body => some { w with requests := w.requests ++ [{ actor := actor, body := body }] }
  | .act i c => w.requests[i]?.bind fun r => act host w i r c
  | .bookkeeping sync => some { w with source := { w.source with sync := sync } }
  | .workload workload => some { w with workload := workload }
  | .pendingRemoval workspaceName => some { w with pendingRemoval := workspaceName }

def Agree (s s' : Source) : Prop := { s with sync := s'.sync } = s'

def Alone (host : Host) (s : Source) (actor : String) (body : Body) (s' : Source) : Prop :=
  ∃ n w, run (step host) { source := s } (.patch actor body :: List.replicate n (.act 0 {})) = some w ∧
    w.requests = [⟨actor, body, .responded .updated⟩] ∧ w.source = s'

inductive Serial (host : Host) : Source → List (String × Body) → Source → Prop
  | nil {s s'} : Agree s s' → Serial host s [] s'
  | cons {s s₁ s₂ s' actor body rs} : Agree s s₁ → Alone host s₁ actor body s₂ → Serial host s₂ rs s' →
      Serial host s ((actor, body) :: rs) s'

def allowed (host : Host) (w : World) : Event → Bool
  | .act i _ => w.requests[i]?.all fun r =>
    match r.phase with
    | .write draft | .update draft _ =>
      match draft.data.config, draft.config with
      | some config, some rehydrated =>
        decide (rehydrateScmConfigSecrets host.runtime config (some w.source.config) = .ok rehydrated)
      | _, _ => true
    | _ => true
  | _ => true

def World.Succeeded (w : World) (i : Nat) : Prop :=
  ∃ r, w.requests[i]? = some r ∧ r.phase = .responded .updated

def World.edits (w : World) (order : List Nat) : List (String × Body) :=
  order.filterMap fun i => w.requests[i]?.map Request.edit

/-- The requests that succeeded, in an order in which they lead from `s` to the row as it is. -/
def Serialised (host : Host) (s : Source) (w : World) : Prop :=
  ∃ order : List Nat, order.Nodup ∧ (∀ i, i ∈ order ↔ w.Succeeded i) ∧ Serial host s (w.edits order) w.source

section Plan

variable {host : Host} {actor id : String} {type : ScmSourceType} {localPath : String}
  {workspacesPath userId : Option String} {paths : ScmPaths}

theorem planPaths_getD : planPaths host actor id type localPath
      (some (workspacesPath.getD (defaultWorkspacesPath host.platform host.pathExists id))) =
    planPaths host actor id type localPath workspacesPath := by
  simp only [planPaths, resolveScmPathPlan, Option.getD_some]

theorem validateRoot_getD : validateStoredScmWorkspacesRoot host id userId
      (some (workspacesPath.getD (defaultWorkspacesPath host.platform host.pathExists id))) =
    validateStoredScmWorkspacesRoot host id userId workspacesPath := by
  simp only [validateStoredScmWorkspacesRoot, Option.getD_some]

theorem planPaths_wsRoot (h : planPaths host actor id type localPath workspacesPath = .ok paths) :
    paths.wsRoot = workspacesPath.getD (defaultWorkspacesPath host.platform host.pathExists id) :=
  (plan_ok h).2.1

theorem validateScmWorkspacesRoot_admin {platform : Platform} {path : String} {isAdmin : Bool}
    (h : validateScmWorkspacesRoot platform path isAdmin = none) : validateScmWorkspacesRoot platform path true = none := by
  cases isAdmin with
  | true => exact h
  | false =>
    simp only [validateScmWorkspacesRoot, Bool.not_true, Bool.false_and, Bool.not_false, Bool.true_and] at h ⊢
    split at h
    · cases h
    · rename_i habsolute
      rw [if_neg habsolute]
      split at h
      · cases h
      · exact h

theorem resolveScmPathPlan_isAdmin {platform : Platform} {pathExists : String → Bool} {input : ScmPathPlanInput}
    (h : resolveScmPathPlan platform pathExists input = .ok paths) (isAdmin : Bool) :
    validateScmWorkspacesRoot platform paths.wsRoot input.isAdmin = none ∧
      (validateScmWorkspacesRoot platform paths.wsRoot isAdmin = none →
        resolveScmPathPlan platform pathExists { input with isAdmin := isAdmin } = .ok paths) := by
  unfold resolveScmPathPlan at h ⊢
  dsimp only at h ⊢
  split at h
  · cases h
  rename_i hp4
  rw [if_neg hp4]
  split at h
  · cases h
  rename_i habsolute
  rw [if_neg habsolute]
  split at h
  · cases h
  rename_i hreclaim
  rw [if_neg hreclaim]
  split at h
  · cases h
  split at h
  · cases h
  rename_i hwsAbsolute
  split at h
  · cases h
  rename_i hwsReclaim
  split at h
  · cases h
  split at h
  · cases h
  rename_i hown
  split at h
  · cases h
  split at h
  · cases h
  split at h
  · cases h
  rename_i hroot
  cases h
  refine ⟨hroot, ?_⟩
  intro hroot'
  simp only [hroot', if_neg hwsAbsolute, if_neg hwsReclaim, if_neg hown]

end Plan

structure PathsChecked (host : Host) (row : Source) : Prop where
  root : validateStoredScmWorkspacesRoot host row.id row.userId row.workspacesPath = none
  plan : ∀ actor, visible host actor row = true →
    ∃ paths, planPaths host actor row.id row.type row.localPath row.workspacesPath = .ok paths

structure Earlier (host : Host) (actor : String) (row e : Source) : Prop where
  id : e.id = row.id
  type : e.type = row.type
  userId : e.userId = row.userId
  config : configType e.config = configType row.config
  visible : visible host actor row = true
  root : e.workspacesPath.isSome → row.workspacesPath.isSome
  paths : e.localPath = row.localPath ∧ e.workspacesPath = row.workspacesPath ∨ PathsChecked host row

/-- The request would pass its checks of the paths on the row as it is now, but for the plan of the
paths it brings itself. -/
structure Passed (host : Host) (actor : String) (row : Source) (data : UpdateScmSourceInput) (effectiveWsPath : String) :
    Prop where
  visible : visible host actor row = true
  own : ∀ v, data.workspacesPath = some v →
    effectiveWsPath = v.getD (defaultWorkspacesPath host.platform host.pathExists row.id) ∧
      validateStoredScmWorkspacesRoot host row.id row.userId (some effectiveWsPath) = none
  root : data.workspacesPath = none → validateStoredScmWorkspacesRoot host row.id row.userId row.workspacesPath = none
  plan : data.localPath = none → data.workspacesPath = none →
    ∃ paths, planPaths host actor row.id row.type row.localPath row.workspacesPath = .ok paths

structure Drafted (row : Source) (draft : Draft) : Prop where
  id : draft.existing.id = row.id
  type : draft.existing.type = row.type
  root : draft.existing.workspacesPath.isSome → row.workspacesPath.isSome
  config : ∀ config, draft.data.config = some config →
    configType config = configType row.config ∧ ∃ rehydrated, draft.config = some rehydrated ∧
      configType rehydrated = configType row.config
  noConfig : draft.data.config = none → draft.config = none

def RequestInv (host : Host) (w : World) (i : Nat) (r : Request) : Prop :=
  match r.phase with
  | .select | .responded _ => True
  | .json existing => Earlier host r.actor w.source existing
  | .selectScmPathPeers existing data => r.body = .parsed data ∧ Earlier host r.actor w.source existing
  | .validateRoot existing data effectiveWsPath =>
    r.body = .parsed data ∧ Earlier host r.actor w.source existing ∧
      ∃ paths, planPaths host r.actor existing.id existing.type (data.localPath.getD existing.localPath)
        (data.workspacesPath.getD existing.workspacesPath) = .ok paths ∧ effectiveWsPath = paths.wsRoot
  | .cancelInitialScmSync draft | .reselect draft | .write draft =>
    r.body = .parsed draft.data ∧ Passed host r.actor w.source draft.data draft.effectiveWsPath ∧ Drafted w.source draft
  | .update draft lockedWsPath =>
    r.body = .parsed draft.data ∧ Passed host r.actor w.source draft.data draft.effectiveWsPath ∧ Drafted w.source draft ∧
      w.lock = some i ∧ ∃ paths, lockedPlan host r.actor draft w.source = .ok paths ∧ lockedWsPath = paths.wsRoot

structure Inv (host : Host) (w : World) : Prop where
  requests : ∀ (i : Nat) r, w.requests[i]? = some r → RequestInv host w i r

section Invariant

variable {host : Host} {w w' : World} {row row' e : Source} {actor : String} {data : UpdateScmSourceInput}
  {effectiveWsPath : String} {draft : Draft} {i : Nat} {r : Request}

/-- How the row goes on: its identity stays, a worktree root is never taken away, and new paths are checked. -/
structure Next (host : Host) (row row' : Source) : Prop where
  id : row'.id = row.id
  type : row'.type = row.type
  userId : row'.userId = row.userId
  config : configType row'.config = configType row.config
  root : row.workspacesPath.isSome → row'.workspacesPath.isSome
  paths : row'.localPath = row.localPath ∧ row'.workspacesPath = row.workspacesPath ∨ PathsChecked host row'

theorem visible_congr (h : row'.userId = row.userId) : visible host actor row' = visible host actor row := by
  rw [visible, visible, h]

theorem PathsChecked.congr (h : PathsChecked host row) (hid : row'.id = row.id) (htype : row'.type = row.type)
    (huser : row'.userId = row.userId) (hlocal : row'.localPath = row.localPath)
    (hroot : row'.workspacesPath = row.workspacesPath) : PathsChecked host row' := by
  refine ⟨?_, ?_⟩
  · rw [hid, huser, hroot]
    exact h.root
  · intro actor hvisible
    rw [visible_congr huser] at hvisible
    rw [hid, htype, hlocal, hroot]
    exact h.plan actor hvisible

theorem Earlier.next (h : Earlier host actor row e) (hnext : Next host row row') : Earlier host actor row' e := by
  refine ⟨h.id.trans hnext.id.symm, h.type.trans hnext.type.symm, h.userId.trans hnext.userId.symm,
    h.config.trans hnext.config.symm, ?_, fun hsome => hnext.root (h.root hsome), ?_⟩
  · rw [visible_congr hnext.userId]
    exact h.visible
  · obtain ⟨hlocal, hroot⟩ | hchecked := hnext.paths
    · obtain ⟨helocal, heroot⟩ | hchecked := h.paths
      · exact .inl ⟨helocal.trans hlocal.symm, heroot.trans hroot.symm⟩
      · exact .inr (hchecked.congr hnext.id hnext.type hnext.userId hlocal hroot)
    · exact .inr hchecked

theorem Passed.next (h : Passed host actor row data effectiveWsPath) (hnext : Next host row row') :
    Passed host actor row' data effectiveWsPath := by
  have hvisible : SourceEdits.visible host actor row' = true := by
    rw [visible_congr hnext.userId]
    exact h.visible
  refine ⟨hvisible, ?_, ?_, ?_⟩
  · intro v hv
    rw [hnext.id, hnext.userId]
    exact h.own v hv
  · intro hnone
    obtain ⟨-, hroot⟩ | hchecked := hnext.paths
    · rw [hnext.id, hnext.userId, hroot]
      exact h.root hnone
    · exact hchecked.root
  · intro hlocal hnone
    obtain ⟨hlocal', hroot⟩ | hchecked := hnext.paths
    · rw [hnext.id, hnext.type, hlocal', hroot]
      exact h.plan hlocal hnone
    · exact hchecked.plan actor hvisible

theorem Drafted.next (h : Drafted row draft) (hnext : Next host row row') : Drafted row' draft := by
  refine ⟨h.id.trans hnext.id.symm, h.type.trans hnext.type.symm, fun hsome => hnext.root (h.root hsome), ?_, h.noConfig⟩
  intro config hconfig
  rw [hnext.config]
  exact h.config config hconfig

theorem RequestInv.next (h : RequestInv host w i r) (hnext : Next host w.source w'.source)
    (hlock : ∀ draft lockedWsPath, r.phase = .update draft lockedWsPath → w'.lock = some i ∧
      w'.source.localPath = w.source.localPath ∧ w'.source.workspacesPath = w.source.workspacesPath) :
    RequestInv host w' i r := by
  unfold RequestInv at h ⊢
  split at h
  · trivial
  · trivial
  · exact h.next hnext
  · exact ⟨h.1, h.2.next hnext⟩
  · exact ⟨h.1, h.2.1.next hnext, h.2.2⟩
  · exact ⟨h.1, h.2.1.next hnext, h.2.2.next hnext⟩
  · exact ⟨h.1, h.2.1.next hnext, h.2.2.next hnext⟩
  · exact ⟨h.1, h.2.1.next hnext, h.2.2.next hnext⟩
  · rename_i draft lockedWsPath hphase
    obtain ⟨hbody, hpassed, hdrafted, -, hplan⟩ := h
    obtain ⟨hlocked, hlocal, hroot⟩ := hlock draft lockedWsPath hphase
    refine ⟨hbody, hpassed.next hnext, hdrafted.next hnext, hlocked, ?_⟩
    rw [lockedPlan, hnext.id, hlocal, hroot]
    exact hplan

theorem Next.refl : Next host row row := ⟨rfl, rfl, rfl, rfl, fun hsome => hsome, .inl ⟨rfl, rfl⟩⟩

theorem Inv.put (h : Inv host w) {r' : Request} (hrequests : w'.requests = w.requests.set i r')
    (hnext : Next host w.source w'.source)
    (hlock : ∀ j r draft lockedWsPath, j ≠ i → w.requests[j]? = some r → r.phase = .update draft lockedWsPath →
      w'.lock = w.lock ∧ w'.source.localPath = w.source.localPath ∧ w'.source.workspacesPath = w.source.workspacesPath)
    (hr' : RequestInv host w' i r') : Inv host w' := by
  refine ⟨?_⟩
  intro j q hq
  rw [hrequests] at hq
  obtain ⟨rfl, rfl⟩ | ⟨hne, hq⟩ := Pool.getElem?_set_cases hq
  · exact hr'
  · have hinv := h.requests j q hq
    apply hinv.next hnext
    intro draft lockedWsPath hphase
    obtain ⟨hsame, hpaths⟩ := hlock j q draft lockedWsPath hne hq hphase
    refine ⟨?_, hpaths⟩
    simp only [RequestInv, hphase] at hinv
    exact hsame.trans hinv.2.2.2.1

variable {phase : Phase}

theorem Inv.setPhase (h : Inv host w) (hr' : RequestInv host w i { r with phase := phase }) :
    Inv host (w.setPhase i r phase) :=
  h.put rfl .refl (fun _ _ _ _ _ _ _ => ⟨rfl, rfl, rfl⟩)
    (hr'.next .refl fun draft lockedWsPath hphase => by
      have hphase : phase = .update draft lockedWsPath := hphase
      subst hphase
      exact ⟨hr'.2.2.2.1, rfl, rfl⟩)

variable {paths : ScmPaths}

theorem Earlier.passed (h : Earlier host actor row e)
    (hplan : planPaths host actor e.id e.type (data.localPath.getD e.localPath)
      (data.workspacesPath.getD e.workspacesPath) = .ok paths)
    (hvalid : validateStoredScmWorkspacesRoot host e.id e.userId (some paths.wsRoot) = none) :
    Passed host actor row data paths.wsRoot := by
  have hroot := planPaths_wsRoot hplan
  refine ⟨h.visible, ?_, ?_, ?_⟩
  · intro v hv
    rw [hv, Option.getD_some, h.id] at hroot
    rw [h.id, h.userId] at hvalid
    exact ⟨hroot, hvalid⟩
  · intro hnone
    rw [hnone, Option.getD_none] at hroot
    rw [hroot, validateRoot_getD] at hvalid
    obtain ⟨-, hsame⟩ | hchecked := h.paths
    · rwa [h.id, h.userId, hsame] at hvalid
    · exact hchecked.root
  · intro hlocal hnone
    rw [hlocal, hnone, Option.getD_none, Option.getD_none] at hplan
    obtain ⟨hsameLocal, hsame⟩ | hchecked := h.paths
    · rw [h.id, h.type, hsameLocal, hsame] at hplan
      exact ⟨paths, hplan⟩
    · exact hchecked.plan actor h.visible

theorem configType_rehydrate {rt : Runtime} {config rehydrated : ScmSourceConfig} {existing : Option ScmSourceConfig}
    (h : rehydrateScmConfigSecrets rt config existing = .ok rehydrated) : configType rehydrated = configType config := by
  cases config with
  | p4 config =>
    simp only [rehydrateScmConfigSecrets, rehydrateP4Config] at h
    split at h
    · split at h <;> cases h
      rfl
    · cases h
      rfl
  | git config =>
    simp only [rehydrateScmConfigSecrets, rehydrateGitConfig] at h
    split at h
    · cases h
    · split at h <;> cases h
      rfl

theorem makeDraft_ok (h : makeDraft host e data effectiveWsPath = .ok draft) :
    payloadConfig host e data = .ok draft.config ∧ draft.existing = e ∧ draft.data = data ∧
      draft.effectiveWsPath = effectiveWsPath := by
  simp only [makeDraft] at h
  split at h
  · cases h
  · rename_i config hconfig
    cases h
    exact ⟨hconfig, rfl, rfl, rfl⟩

theorem makeDraft_error {response : Response} (h : makeDraft host e data effectiveWsPath = .error response) :
    ∃ status error, response = .error status error := by
  simp only [makeDraft] at h
  split at h
  · rename_i response' hconfig
    obtain rfl := Except.error.inj h
    simp only [payloadConfig] at hconfig
    split at hconfig
    · cases hconfig
    · split at hconfig
      · exact ⟨_, _, (Except.error.inj hconfig).symm⟩
      · split at hconfig
        · exact ⟨_, _, (Except.error.inj hconfig).symm⟩
        · cases hconfig
  · cases h

variable {config : Option ScmSourceConfig}

theorem payloadConfig_ok (h : payloadConfig host e data = .ok config) : data.config = none ∧ config = none ∨
      ∃ submitted rehydrated, data.config = some submitted ∧ config = some rehydrated ∧
        configType submitted = configType e.config ∧
        rehydrateScmConfigSecrets host.runtime submitted (some e.config) = .ok rehydrated := by
  simp only [payloadConfig] at h
  split at h
  · rename_i hnone
    cases h
    exact .inl ⟨hnone, rfl⟩
  · rename_i submitted hsome
    split at h
    · cases h
    · rename_i htype
      split at h
      · cases h
      · rename_i rehydrated hrehydrated
        cases h
        exact .inr ⟨submitted, rehydrated, hsome, rfl, Classical.not_not.mp htype, hrehydrated⟩

theorem Earlier.drafted (h : Earlier host actor row e) (hdraft : makeDraft host e data effectiveWsPath = .ok draft) :
    Drafted row draft := by
  obtain ⟨hconfig, rfl, rfl, -⟩ := makeDraft_ok hdraft
  refine ⟨h.id, h.type, h.root, ?_, ?_⟩
  · intro submitted hsubmitted
    obtain ⟨hnone, -⟩ | ⟨submitted', rehydrated, hsome, hrehydrated, htype, hok⟩ := payloadConfig_ok hconfig
    · rw [hnone] at hsubmitted
      cases hsubmitted
    · obtain rfl := Option.some.inj (hsubmitted.symm.trans hsome)
      exact ⟨htype.trans h.config, rehydrated, hrehydrated, (configType_rehydrate hok).trans (htype.trans h.config)⟩
  · intro hnone
    obtain ⟨-, hconfig⟩ | ⟨submitted, -, hsome, -⟩ := payloadConfig_ok hconfig
    · exact hconfig
    · rw [hnone] at hsome
      cases hsome

theorem requestInv_guardReset {busy : Bool} (hbody : r.body = .parsed draft.data)
    (hpassed : Passed host r.actor w.source draft.data draft.effectiveWsPath) (hdrafted : Drafted w.source draft) :
    RequestInv host w i { r with phase := guardReset draft busy } := by
  unfold guardReset
  split
  · split
    · trivial
    · split
      · trivial
      · exact ⟨hbody, hpassed, hdrafted⟩
  · exact ⟨hbody, hpassed, hdrafted⟩

theorem lockedPlan_eq (hdrafted : Drafted row draft) : lockedPlan host actor draft row =
    planPaths host actor row.id row.type (draft.data.localPath.getD row.localPath)
      (draft.data.workspacesPath.getD row.workspacesPath) := by
  have hroot : row.workspacesPath.or draft.existing.workspacesPath = row.workspacesPath := by
    cases hrow : row.workspacesPath with
    | some path => rfl
    | none =>
      have hexisting := hdrafted.root
      rw [hrow] at hexisting
      cases hold : draft.existing.workspacesPath with
      | none => rfl
      | some path =>
        rw [hold] at hexisting
        exact absurd (hexisting rfl) (by simp)
  rw [lockedPlan, hroot, hdrafted.type]

theorem validateRoot_none {id : String} {userId workspacesPath : Option String}
    (h : validateStoredScmWorkspacesRoot host id userId workspacesPath = none) :
    validateScmWorkspacesRoot host.platform
      (workspacesPath.getD (defaultWorkspacesPath host.platform host.pathExists id)) (userId.any host.activeAdmin) = none := by
  simp only [validateStoredScmWorkspacesRoot] at h
  split at h
  · cases h
  · rename_i hnone
    exact hnone

theorem planPaths_visible {actor' : String} {localPath : String} {workspacesPath : Option String}
    (hvisible : visible host actor' row = true)
    (hroot : validateStoredScmWorkspacesRoot host row.id row.userId workspacesPath = none)
    (hplan : planPaths host actor row.id row.type localPath workspacesPath = .ok paths) :
    planPaths host actor' row.id row.type localPath workspacesPath = .ok paths := by
  obtain ⟨hactor, hrole⟩ := resolveScmPathPlan_isAdmin hplan (host.activeAdmin actor')
  apply hrole
  cases hadmin : host.activeAdmin actor' with
  | true => exact validateScmWorkspacesRoot_admin hactor
  | false =>
    have howner : row.userId = some actor' := by
      simpa [visible, hadmin] using hvisible
    have hsafe := validateRoot_none hroot
    rwa [howner, Option.any_some, hadmin, ← planPaths_wsRoot hplan] at hsafe

variable {plannedWsPath : String}

theorem write_workspacesPath : (draft.write plannedWsPath row).workspacesPath =
    if draft.data.workspacesPath.isSome then some plannedWsPath else row.workspacesPath := rfl

theorem configType_write (hdrafted : Drafted row draft) :
    configType (draft.write plannedWsPath row).config = configType row.config := by
  change configType (draft.config.getD row.config) = configType row.config
  cases hdata : draft.data.config with
  | none => rw [hdrafted.noConfig hdata, Option.getD_none]
  | some config =>
    obtain ⟨-, rehydrated, hrehydrated, htype⟩ := hdrafted.config config hdata
    rw [hrehydrated, Option.getD_some, htype]

theorem next_write (hpassed : Passed host actor row draft.data effectiveWsPath)
    (hdrafted : Drafted row draft) (hplan : lockedPlan host actor draft row = .ok paths) :
    Next host row (draft.write paths.wsRoot row) := by
  rw [lockedPlan_eq hdrafted] at hplan
  have hchecked : validateStoredScmWorkspacesRoot host row.id row.userId (draft.write paths.wsRoot row).workspacesPath = none ∧
      planPaths host actor row.id row.type (draft.write paths.wsRoot row).localPath
        (draft.write paths.wsRoot row).workspacesPath = .ok paths := by
    rw [write_workspacesPath]
    have hroot := planPaths_wsRoot hplan
    cases hdata : draft.data.workspacesPath with
    | none =>
      rw [hdata, Option.getD_none] at hplan
      exact ⟨hpassed.root hdata, hplan⟩
    | some v =>
      obtain ⟨hown, hvalid⟩ := hpassed.own v hdata
      rw [hdata, Option.getD_some] at hplan hroot
      rw [Option.isSome_some, if_pos rfl, hroot, planPaths_getD, ← hown]
      exact ⟨hvalid, hplan⟩
  refine ⟨rfl, rfl, rfl, configType_write hdrafted, ?_, .inr ⟨hchecked.1, ?_⟩⟩
  · intro hsome
    rw [write_workspacesPath]
    split
    · rfl
    · exact hsome
  · intro actor' hvisible
    refine ⟨paths, ?_⟩
    have hplanned : planPaths host actor' row.id row.type (draft.write paths.wsRoot row).localPath
        (draft.write paths.wsRoot row).workspacesPath = .ok paths := planPaths_visible hvisible hchecked.1 hchecked.2
    exact hplanned

theorem next_write_plain (hdrafted : Drafted row draft) (hlocal : draft.data.localPath = none)
    (hroot : draft.data.workspacesPath = none) : Next host row (draft.write plannedWsPath row) ∧
      (draft.write plannedWsPath row).localPath = row.localPath ∧
      (draft.write plannedWsPath row).workspacesPath = row.workspacesPath := by
  have hlocal' : (draft.write plannedWsPath row).localPath = row.localPath := by
    rw [Draft.write, hlocal, Option.getD_none]
  have hroot' : (draft.write plannedWsPath row).workspacesPath = row.workspacesPath := by
    rw [write_workspacesPath, hroot, Option.isSome_none]
    exact if_neg Bool.false_ne_true
  refine ⟨⟨rfl, rfl, rfl, configType_write hdrafted, ?_, .inl ⟨hlocal', hroot'⟩⟩, hlocal', hroot'⟩
  rw [hroot']
  exact fun hsome => hsome

theorem Draft.plain (hmutates : draft.mutatesWorkspaceLifecycle = false) :
    draft.data.localPath = none ∧ draft.data.workspacesPath = none := by
  simp only [Draft.mutatesWorkspaceLifecycle, Bool.or_eq_false_iff, Option.isSome_eq_false_iff, Option.isNone_iff_eq_none] at hmutates
  exact ⟨hmutates.1.2, hmutates.2⟩

theorem Inv.commit_plain (h : Inv host w) (hr : w.requests[i]? = some r) (hphase : r.phase = .write draft)
    (hmutates : draft.mutatesWorkspaceLifecycle = false) : Inv host (w.commit i r draft draft.effectiveWsPath) := by
  have hinv := h.requests i r hr
  simp only [RequestInv, hphase] at hinv
  obtain ⟨hlocal, hroot⟩ := Draft.plain hmutates
  obtain ⟨hnext, hpaths⟩ : Next host w.source (draft.write draft.effectiveWsPath w.source) ∧ _ :=
    next_write_plain hinv.2.2 hlocal hroot
  unfold World.commit
  split
  · exact h.put rfl hnext (fun _ _ _ _ _ _ _ => ⟨rfl, hpaths⟩) trivial
  · exact h.setPhase trivial

theorem Inv.commit_planned {lockedWsPath : String} (h : Inv host w) (hr : w.requests[i]? = some r)
    (hphase : r.phase = .update draft lockedWsPath) :
    Inv host ({ w with lock := none }.commit i r draft lockedWsPath) := by
  have hinv := h.requests i r hr
  simp only [RequestInv, hphase] at hinv
  obtain ⟨-, hpassed, hdrafted, hlock, paths, hplan, rfl⟩ := hinv
  -- No other request is inside a transaction.
  have halone : ∀ j q draft' lockedWsPath', j ≠ i → w.requests[j]? = some q → q.phase = .update draft' lockedWsPath' → False := by
    intro j q draft' lockedWsPath' hne hq hphase'
    have hother := h.requests j q hq
    simp only [RequestInv, hphase'] at hother
    exact hne (Option.some.inj (hother.2.2.2.1.symm.trans hlock))
  unfold World.commit
  split
  · exact h.put rfl (next_write hpassed hdrafted hplan)
      (fun j q draft' lockedWsPath' hne hq hphase' => (halone j q draft' lockedWsPath' hne hq hphase').elim) trivial
  · exact h.put rfl .refl
      (fun j q draft' lockedWsPath' hne hq hphase' => (halone j q draft' lockedWsPath' hne hq hphase').elim) trivial

theorem Inv.enterTransaction (h : Inv host w) (hr : w.requests[i]? = some r) (hphase : r.phase = .write draft)
    (henter : enterTransaction host w i r draft = some w') : Inv host w' := by
  have hinv := h.requests i r hr
  simp only [RequestInv, hphase] at hinv
  obtain ⟨hbody, hpassed, hdrafted⟩ := hinv
  unfold SourceEdits.enterTransaction at henter
  split at henter
  · cases henter
  · rename_i hlock
    obtain rfl := Option.some.inj henter
    rw [ne_eq, Classical.not_not] at hlock
    split
    · exact h.setPhase trivial
    · split
      · exact h.setPhase trivial
      · split
        · exact h.setPhase trivial
        · rename_i paths hplan
          refine h.put rfl .refl ?_ ⟨hbody, hpassed, hdrafted, rfl, paths, hplan, rfl⟩
          intro j q draft' lockedWsPath' hne hq hphase'
          have hother := h.requests j q hq
          simp only [RequestInv, hphase', hlock] at hother
          exact absurd hother.2.2.2.1 (by simp)

variable {c : Choice}

theorem Inv.act (h : Inv host w) (hr : w.requests[i]? = some r) (hact : act host w i r c = some w') : Inv host w' := by
  have hinv := h.requests i r hr
  unfold SourceEdits.act at hact
  unfold RequestInv at hinv
  split at hact <;> rename_i hphase <;> simp only [hphase] at hinv
  · obtain rfl := Option.some.inj hact
    apply h.setPhase
    split
    · trivial
    · rename_i hvisible
      split
      · trivial
      · exact ⟨rfl, rfl, rfl, rfl, by simpa using hvisible, fun hsome => hsome, .inl ⟨rfl, rfl⟩⟩
  · obtain rfl := Option.some.inj hact
    apply h.setPhase
    split
    · trivial
    · trivial
    · rename_i hbody
      exact ⟨hbody, hinv⟩
  · obtain rfl := Option.some.inj hact
    apply h.setPhase
    split
    · trivial
    · rename_i paths hplan
      exact ⟨hinv.1, hinv.2, paths, hplan, rfl⟩
  · obtain ⟨hbody, hearlier, paths, hplan, rfl⟩ := hinv
    obtain rfl := Option.some.inj hact
    apply h.setPhase
    split
    · trivial
    · rename_i hvalid
      split
      · rename_i response _
        exact trivial
      · rename_i draft hdraft
        obtain ⟨-, -, hdata, heffective⟩ := makeDraft_ok hdraft
        have hpassed := hearlier.passed hplan hvalid
        rw [← hdata] at hbody hpassed
        rw [← heffective] at hpassed
        have hdrafted := hearlier.drafted hdraft
        unfold afterDraft
        split
        · exact ⟨hbody, hpassed, hdrafted⟩
        · exact requestInv_guardReset hbody hpassed hdrafted
  · obtain rfl := Option.some.inj hact
    apply h.setPhase
    split
    · exact hinv
    · exact requestInv_guardReset hinv.1 hinv.2.1 hinv.2.2
  · obtain ⟨hbody, hpassed, hdrafted⟩ := hinv
    obtain rfl := Option.some.inj hact
    apply h.setPhase
    split
    · trivial
    · exact requestInv_guardReset hbody hpassed ⟨rfl, rfl, fun hsome => hsome, hdrafted.config, hdrafted.noConfig⟩
  · split at hact
    · exact h.enterTransaction hr hphase hact
    · rename_i hmutates
      obtain rfl := Option.some.inj hact
      exact h.commit_plain hr hphase (by simpa using hmutates)
  · obtain rfl := Option.some.inj hact
    exact h.commit_planned hr hphase
  · cases hact

theorem inv_step {ev : Event} (h : Inv host w) (hstep : step host w ev = some w') : Inv host w' := by
  cases ev with
  | patch actor body =>
    obtain rfl := Option.some.inj hstep
    refine ⟨?_⟩
    intro j q hq
    obtain hq | ⟨-, rfl⟩ := Pool.getElem?_append_cases hq
    · exact h.requests j q hq
    · trivial
  | act i c =>
    obtain ⟨r, hr, hact⟩ := Option.bind_eq_some_iff.mp hstep
    exact h.act hr hact
  | bookkeeping sync =>
    obtain rfl := Option.some.inj hstep
    refine ⟨?_⟩
    intro j q hq
    have hinv := h.requests j q hq
    refine hinv.next ⟨rfl, rfl, rfl, rfl, fun hsome => hsome, .inl ⟨rfl, rfl⟩⟩ ?_
    intro draft lockedWsPath hphase
    simp only [RequestInv, hphase] at hinv
    exact ⟨hinv.2.2.2.1, rfl, rfl⟩
  | workload workload | pendingRemoval workspaceName =>
    obtain rfl := Option.some.inj hstep
    exact ⟨h.requests⟩

theorem guardReset_ne_updated (draft : Draft) (busy : Bool) : guardReset draft busy ≠ .responded .updated := by
  unfold guardReset
  split
  · split
    · exact nofun
    · split <;> exact nofun
  · exact nofun

def Idles (w w' : World) (i : Nat) (r : Request) : Prop :=
  w'.source = w.source ∧ ∃ phase, w'.requests = w.requests.set i { r with phase := phase } ∧ phase ≠ .responded .updated

def Writes (w w' : World) (i : Nat) (r : Request) : Prop :=
  ∃ draft plannedWsPath, (r.phase = .write draft ∧ draft.mutatesWorkspaceLifecycle = false ∨
      r.phase = .update draft plannedWsPath) ∧
    w.source.deletionRequestedAt = none ∧ w'.source = draft.write plannedWsPath w.source ∧
    w'.requests = w.requests.set i { r with phase := .responded .updated }

theorem idles_setPhase (hphase : phase ≠ .responded .updated) : Idles w (w.setPhase i r phase) i r :=
  ⟨rfl, phase, rfl, hphase⟩

theorem commit_cases {w₀ : World} (hsource : w₀.source = w.source)
    (hrequests : w₀.requests = w.requests)
    (hphase : r.phase = .write draft ∧ draft.mutatesWorkspaceLifecycle = false ∨ r.phase = .update draft plannedWsPath) :
    Idles w (w₀.commit i r draft plannedWsPath) i r ∨ Writes w (w₀.commit i r draft plannedWsPath) i r := by
  unfold World.commit
  split
  · rename_i hupdates
    rw [hsource, Draft.updates, Bool.and_eq_true, decide_eq_true_eq] at hupdates
    refine .inr ⟨draft, plannedWsPath, hphase, hupdates.1, ?_, ?_⟩
    · rw [← hsource]
      rfl
    · rw [← hrequests]
      rfl
  · refine .inl ⟨hsource, .responded (.error 409 BUSY_ERROR), ?_, by exact nofun⟩
    rw [← hrequests]
    rfl

theorem act_cases (hact : act host w i r c = some w') : Idles w w' i r ∨ Writes w w' i r := by
  unfold SourceEdits.act at hact
  split at hact <;> rename_i hphase
  · obtain rfl := Option.some.inj hact
    refine .inl (idles_setPhase ?_)
    split
    · exact nofun
    · split <;> exact nofun
  · obtain rfl := Option.some.inj hact
    refine .inl (idles_setPhase ?_)
    split <;> exact nofun
  · obtain rfl := Option.some.inj hact
    refine .inl (idles_setPhase ?_)
    split <;> exact nofun
  · obtain rfl := Option.some.inj hact
    refine .inl (idles_setPhase ?_)
    split
    · exact nofun
    · split
      · rename_i response hdraft
        obtain ⟨status, error, rfl⟩ := makeDraft_error hdraft
        exact nofun
      · unfold afterDraft
        split
        · exact nofun
        · exact guardReset_ne_updated _ _
  · obtain rfl := Option.some.inj hact
    refine .inl (idles_setPhase ?_)
    split
    · exact nofun
    · exact guardReset_ne_updated _ _
  · obtain rfl := Option.some.inj hact
    refine .inl (idles_setPhase ?_)
    split
    · exact nofun
    · exact guardReset_ne_updated _ _
  · split at hact
    · unfold enterTransaction at hact
      split at hact
      · cases hact
      · obtain rfl := Option.some.inj hact
        split
        · exact .inl (idles_setPhase (by exact nofun))
        · split
          · exact .inl (idles_setPhase (by exact nofun))
          · split
            · exact .inl (idles_setPhase (by exact nofun))
            · exact .inl ⟨rfl, _, rfl, by exact nofun⟩
    · rename_i hmutates
      obtain rfl := Option.some.inj hact
      exact commit_cases rfl rfl (.inl ⟨hphase, by simpa using hmutates⟩)
  · obtain rfl := Option.some.inj hact
    exact commit_cases rfl rfl (.inr hphase)
  · cases hact

def calm (row : Source) : Source := { row with sync := { initialSyncCompletedAt := some 0 } }

def solo (row : Source) (actor : String) (data : UpdateScmSourceInput) (phase : Phase) : World where
  source := row
  requests := [⟨actor, .parsed data, phase⟩]

theorem makeDraft_of_config (h : payloadConfig host e data = .ok config) :
    ∃ draft, makeDraft host e data effectiveWsPath = .ok draft ∧ draft.config = config := by
  simp only [makeDraft, h]
  exact ⟨_, rfl, rfl⟩

theorem solo_prepares (hsync : row.sync = { initialSyncCompletedAt := some 0 })
    (hvisible : visible host actor row = true) (hdeletion : row.deletionRequestedAt = none)
    (hplan : planPaths host actor row.id row.type (data.localPath.getD row.localPath)
      (data.workspacesPath.getD row.workspacesPath) = .ok paths)
    (hvalid : validateStoredScmWorkspacesRoot host row.id row.userId (some paths.wsRoot) = none)
    (hdraft : makeDraft host row data paths.wsRoot = .ok draft) :
    run (step host) (solo row actor data .select) (List.replicate 4 (.act 0 {})) =
      some (solo row actor data (.write draft)) := by
  have hselect : step host (solo row actor data .select) (.act 0 {}) = some (solo row actor data (.json row)) := by
    simp [step, act, solo, World.setPhase, hvisible, hdeletion]
  have hjson : step host (solo row actor data (.json row)) (.act 0 {}) =
      some (solo row actor data (.selectScmPathPeers row data)) := rfl
  have hpeers : step host (solo row actor data (.selectScmPathPeers row data)) (.act 0 {}) =
      some (solo row actor data (.validateRoot row data paths.wsRoot)) := by
    simp [step, act, solo, World.setPhase, hplan]
  have hroot : step host (solo row actor data (.validateRoot row data paths.wsRoot)) (.act 0 {}) =
      some (solo row actor data (.write draft)) := by
    have hexisting := (makeDraft_ok hdraft).2.1
    have hafter : afterDraft draft false = .write draft := by
      simp [afterDraft, guardReset, hexisting, hsync]
    simp [step, act, solo, World.setPhase, hvalid, hdraft, hafter]
  simp only [List.replicate, run, hselect, hjson, hpeers, hroot, Option.bind_some]

theorem solo_writes (hsync : row.sync = { initialSyncCompletedAt := some 0 })
    (hdeletion : row.deletionRequestedAt = none) (heffective : draft.effectiveWsPath = paths.wsRoot)
    (hlocked : lockedPlan host actor draft row = .ok paths) :
    ∃ n, run (step host) (solo row actor data (.write draft)) (List.replicate n (.act 0 {})) =
      some (solo (draft.write paths.wsRoot row) actor data (.responded .updated)) := by
  have hupdates : draft.updates row = true := by
    simp [Draft.updates, hdeletion, hsync]
  cases hmutates : draft.mutatesWorkspaceLifecycle with
  | false =>
    have hwrite : step host (solo row actor data (.write draft)) (.act 0 {}) =
        some (solo (draft.write paths.wsRoot row) actor data (.responded .updated)) := by
      simp [step, act, solo, World.commit, World.setPhase, hmutates, hupdates, heffective]
    exact ⟨1, by simp only [List.replicate, run, hwrite, Option.bind_some]⟩
  | true =>
    have henter : step host (solo row actor data (.write draft)) (.act 0 {}) =
        some { solo row actor data (.update draft paths.wsRoot) with lock := some 0 } := by
      simp [step, act, solo, enterTransaction, World.setPhase, hmutates, hlocked]
    have hwrite : step host { solo row actor data (.update draft paths.wsRoot) with lock := some 0 } (.act 0 {}) =
        some (solo (draft.write paths.wsRoot row) actor data (.responded .updated)) := by
      simp [step, act, solo, World.commit, World.setPhase, hupdates]
    exact ⟨2, by simp only [List.replicate, run, henter, hwrite, Option.bind_some]⟩

theorem alone_of_passed
    (hvisible : visible host actor row = true) (hdeletion : row.deletionRequestedAt = none)
    (hplan : planPaths host actor row.id row.type (data.localPath.getD row.localPath)
      (data.workspacesPath.getD row.workspacesPath) = .ok paths)
    (hvalid : validateStoredScmWorkspacesRoot host row.id row.userId (some paths.wsRoot) = none)
    (hconfig : payloadConfig host row data = .ok config) :
    ∃ draft : Draft, draft.data = data ∧ draft.config = config ∧
      Alone host (calm row) actor (.parsed data) (draft.write paths.wsRoot (calm row)) := by
  obtain ⟨draft, hdraft, hdraftConfig⟩ : ∃ draft, makeDraft host (calm row) data paths.wsRoot = .ok draft ∧
      draft.config = config := makeDraft_of_config hconfig
  obtain ⟨-, hexisting, hdata, heffective⟩ := makeDraft_ok hdraft
  have hlocked : lockedPlan host actor draft (calm row) = .ok paths := by
    rw [lockedPlan, hexisting, hdata, Option.or_self]
    exact hplan
  obtain ⟨n, hwrites⟩ : ∃ n, run (step host) (solo (calm row) actor data (.write draft)) (List.replicate n (.act 0 {})) =
      some (solo (draft.write paths.wsRoot (calm row)) actor data (.responded .updated)) :=
    solo_writes rfl hdeletion heffective hlocked
  have hprepares : run (step host) (solo (calm row) actor data .select) (List.replicate 4 (.act 0 {})) =
      some (solo (calm row) actor data (.write draft)) := solo_prepares rfl hvisible hdeletion hplan hvalid hdraft
  refine ⟨draft, hdata, hdraftConfig, 4 + n, solo (draft.write paths.wsRoot (calm row)) actor data (.responded .updated),
    ?_, rfl, rfl⟩
  rw [← List.replicate_append_replicate]
  change run (step host) (solo (calm row) actor data .select) _ = _
  rw [run_append, hprepares, Option.bind_some, hwrites]

theorem Passed.valid (h : Passed host actor row data effectiveWsPath)
    (hplan : planPaths host actor row.id row.type (data.localPath.getD row.localPath)
      (data.workspacesPath.getD row.workspacesPath) = .ok paths) :
    validateStoredScmWorkspacesRoot host row.id row.userId (some paths.wsRoot) = none := by
  have hroot := planPaths_wsRoot hplan
  cases hdata : data.workspacesPath with
  | none =>
    rw [hdata, Option.getD_none] at hroot
    rw [hroot, validateRoot_getD]
    exact h.root hdata
  | some v =>
    obtain ⟨hown, hvalid⟩ := h.own v hdata
    rw [hdata, Option.getD_some, ← hown] at hroot
    rwa [hroot]

theorem payloadConfig_of_allowed (hdrafted : Drafted row draft)
    (hallowed : ∀ submitted rehydrated, draft.data.config = some submitted → draft.config = some rehydrated →
      rehydrateScmConfigSecrets host.runtime submitted (some row.config) = .ok rehydrated) :
    payloadConfig host row draft.data = .ok draft.config := by
  cases hdata : draft.data.config with
  | none =>
    rw [hdrafted.noConfig hdata]
    simp only [payloadConfig, hdata]
  | some submitted =>
    obtain ⟨htype, rehydrated, hrehydrated, -⟩ := hdrafted.config submitted hdata
    simp only [payloadConfig, hdata, htype, hallowed submitted rehydrated hdata hrehydrated, hrehydrated, ne_eq,
      not_true_eq_false, if_false]

theorem agree_write {draft' : Draft} {plannedWsPath plannedWsPath' : String} (hdata : draft'.data = draft.data)
    (hconfig : draft'.config = draft.config) (hroot : draft.data.workspacesPath.isSome → plannedWsPath' = plannedWsPath) :
    Agree (draft'.write plannedWsPath' (calm row)) (draft.write plannedWsPath row) := by
  have hworkspaces : (if draft.data.workspacesPath.isSome then some plannedWsPath' else row.workspacesPath) =
      if draft.data.workspacesPath.isSome then some plannedWsPath else row.workspacesPath := by
    split
    · rename_i hsome
      rw [hroot hsome]
    · rfl
  simp only [Agree, Draft.write, calm, hdata, hconfig, hworkspaces]

theorem allowed_act {submitted rehydrated : ScmSourceConfig} (hallowed : allowed host w (.act i c) = true)
    (hr : w.requests[i]? = some r) (hphase : r.phase = .write draft ∨ ∃ plannedWsPath, r.phase = .update draft plannedWsPath)
    (hsubmitted : draft.data.config = some submitted) (hrehydrated : draft.config = some rehydrated) :
    rehydrateScmConfigSecrets host.runtime submitted (some w.source.config) = .ok rehydrated := by
  obtain hphase | ⟨plannedWsPath, hphase⟩ := hphase
  · simpa [allowed, hr, hphase, hsubmitted, hrehydrated] using hallowed
  · simpa [allowed, hr, hphase, hsubmitted, hrehydrated] using hallowed

theorem Inv.writes_alone (h : Inv host w) (hr : w.requests[i]? = some r) (hwrites : Writes w w' i r)
    (hallowed : allowed host w (.act i c) = true) :
    ∃ s₁ s₂, Agree w.source s₁ ∧ Alone host s₁ r.actor r.body s₂ ∧ Agree s₂ w'.source := by
  obtain ⟨draft, plannedWsPath, hphase, hdeletion, hsource, -⟩ := hwrites
  have hinv := h.requests i r hr
  obtain ⟨hbody, hpassed, hdrafted, paths, hplan, hroot⟩ : r.body = .parsed draft.data ∧
      Passed host r.actor w.source draft.data draft.effectiveWsPath ∧ Drafted w.source draft ∧
      ∃ paths, planPaths host r.actor w.source.id w.source.type (draft.data.localPath.getD w.source.localPath)
        (draft.data.workspacesPath.getD w.source.workspacesPath) = .ok paths ∧
        (draft.data.workspacesPath.isSome → paths.wsRoot = plannedWsPath) := by
    obtain ⟨hphase, hmutates⟩ | hphase := hphase
    · simp only [RequestInv, hphase] at hinv
      obtain ⟨hbody, hpassed, hdrafted⟩ := hinv
      obtain ⟨hlocal, hroot⟩ := Draft.plain hmutates
      obtain ⟨paths, hplan⟩ := hpassed.plan hlocal hroot
      refine ⟨hbody, hpassed, hdrafted, paths, ?_, ?_⟩
      · rwa [hlocal, hroot]
      · rw [hroot]
        exact nofun
    · simp only [RequestInv, hphase] at hinv
      obtain ⟨hbody, hpassed, hdrafted, -, paths, hplan, hroot⟩ := hinv
      rw [lockedPlan_eq hdrafted] at hplan
      exact ⟨hbody, hpassed, hdrafted, paths, hplan, fun _ => hroot.symm⟩
  have hconfig : payloadConfig host w.source draft.data = .ok draft.config := by
    apply payloadConfig_of_allowed hdrafted
    intro submitted rehydrated hsubmitted hrehydrated
    exact allowed_act hallowed hr (hphase.imp And.left fun hphase => ⟨plannedWsPath, hphase⟩) hsubmitted hrehydrated
  obtain ⟨draft', hdata, hsame, halone⟩ := alone_of_passed hpassed.visible hdeletion hplan (hpassed.valid hplan) hconfig
  refine ⟨calm w.source, draft'.write paths.wsRoot (calm w.source), rfl, ?_, ?_⟩
  · rw [hbody]
    exact halone
  · rw [hsource]
    exact agree_write hdata hsame hroot

theorem Agree.trans {s s₁ s₂ : Source} (h : Agree s s₁) (h' : Agree s₁ s₂) : Agree s s₂ := by
  unfold Agree at h h' ⊢
  rw [← h', ← h]

theorem Serial.agree {s s₁ s₂ : Source} {rs : List (String × Body)} (h : Serial host s rs s₁) (hagree : Agree s₁ s₂) :
    Serial host s rs s₂ := by
  induction h with
  | nil hfirst => exact .nil (hfirst.trans hagree)
  | cons hfirst halone _ ih => exact .cons hfirst halone (ih hagree)

theorem Serial.snoc {s s' s₁ s₂ s₃ : Source} {rs : List (String × Body)} {body : Body} (h : Serial host s rs s')
    (hfirst : Agree s' s₁) (halone : Alone host s₁ actor body s₂) (hlast : Agree s₂ s₃) :
    Serial host s (rs ++ [(actor, body)]) s₃ := by
  induction h with
  | nil hnil => exact .cons (hnil.trans hfirst) halone (.nil hlast)
  | cons hcons halone' _ ih => exact .cons hcons halone' (ih hfirst)

theorem edits_congr {order : List Nat} (h : ∀ i ∈ order, w'.requests[i]?.map Request.edit = w.requests[i]?.map Request.edit) :
    w'.edits order = w.edits order := by
  unfold World.edits
  exact List.filterMap_congr h

theorem edit_set (hr : w.requests[i]? = some r)
    (hset : w'.requests = w.requests.set i { r with phase := phase }) (j : Nat) :
    w'.requests[j]?.map Request.edit = w.requests[j]?.map Request.edit := by
  rw [hset, List.getElem?_set]
  split
  · rename_i heq
    subst heq
    rw [if_pos (List.getElem?_eq_some_iff.mp hr).1, hr]
    rfl
  · rfl

theorem succeeded_set (hr : w.requests[i]? = some r)
    (hset : w'.requests = w.requests.set i { r with phase := phase }) {j : Nat} :
    w'.Succeeded j ↔ j = i ∧ phase = .responded .updated ∨ j ≠ i ∧ w.Succeeded j := by
  unfold World.Succeeded
  rw [hset]
  constructor
  · rintro ⟨q, hq, hphase⟩
    obtain ⟨rfl, rfl⟩ | ⟨hne, hq⟩ := Pool.getElem?_set_cases hq
    · exact .inl ⟨rfl, hphase⟩
    · exact .inr ⟨hne, q, hq, hphase⟩
  · rintro (⟨rfl, rfl⟩ | ⟨hne, q, hq, hphase⟩)
    · exact ⟨_, List.getElem?_set_self (List.getElem?_eq_some_iff.mp hr).1, rfl⟩
    · rw [List.getElem?_set_ne (Ne.symm hne)]
      exact ⟨q, hq, hphase⟩

theorem act_not_succeeded (hr : w.requests[i]? = some r) (hact : act host w i r c = some w') : ¬ w.Succeeded i := by
  rintro ⟨q, hq, hphase⟩
  obtain rfl := Option.some.inj (hr.symm.trans hq)
  simp only [act, hphase] at hact
  cases hact

theorem Serialised.act {s : Source} (h : Serialised host s w) (hinv : Inv host w)
    (hallowed : allowed host w (.act i c) = true) (hr : w.requests[i]? = some r) (hact : SourceEdits.act host w i r c = some w') :
    Serialised host s w' := by
  obtain ⟨order, hnodup, hmem, hserial⟩ := h
  have hnot := act_not_succeeded hr hact
  obtain ⟨hsource, phase, hset, hphase⟩ | hwrites := act_cases hact
  · refine ⟨order, hnodup, ?_, ?_⟩
    · intro j
      rw [hmem, succeeded_set hr hset]
      constructor
      · intro hj
        refine .inr ⟨?_, hj⟩
        rintro rfl
        exact hnot hj
      · rintro (⟨-, heq⟩ | ⟨-, hj⟩)
        · exact absurd heq hphase
        · exact hj
    · rw [hsource, edits_congr fun j _ => edit_set hr hset j]
      exact hserial
  · obtain ⟨s₁, s₂, hfirst, halone, hlast⟩ := hinv.writes_alone hr hwrites hallowed
    obtain ⟨-, -, -, -, -, hset⟩ := hwrites
    have hnew : i ∉ order := fun hi => hnot ((hmem i).mp hi)
    refine ⟨order ++ [i], ?_, ?_, ?_⟩
    · rw [List.nodup_append]
      refine ⟨hnodup, List.nodup_singleton i, ?_⟩
      rintro j hj k hk rfl
      rw [List.mem_singleton] at hk
      exact hnew (hk ▸ hj)
    · intro j
      rw [List.mem_append, List.mem_singleton, hmem, succeeded_set hr hset]
      constructor
      · rintro (hj | rfl)
        · refine .inr ⟨?_, hj⟩
          rintro rfl
          exact hnot hj
        · exact .inl ⟨rfl, rfl⟩
      · rintro (⟨rfl, -⟩ | ⟨-, hj⟩)
        · exact .inr rfl
        · exact .inl hj
    · have hedits : w'.edits (order ++ [i]) = w.edits order ++ [(r.actor, r.body)] := by
        rw [edits_congr fun j _ => edit_set hr hset j, World.edits, List.filterMap_append]
        simp [World.edits, hr, Request.edit]
      rw [hedits]
      exact hserial.snoc hfirst halone hlast

theorem serialised_step {s : Source} {ev : Event} (h : Serialised host s w) (hinv : Inv host w)
    (hallowed : allowed host w ev = true) (hstep : step host w ev = some w') : Serialised host s w' := by
  cases ev with
  | patch actor body =>
    obtain rfl := Option.some.inj hstep
    obtain ⟨order, hnodup, hmem, hserial⟩ := h
    refine ⟨order, hnodup, ?_, ?_⟩
    · intro j
      rw [hmem]
      constructor
      · rintro ⟨q, hq, hphase⟩
        exact ⟨q, Pool.getElem?_append_of hq, hphase⟩
      · rintro ⟨q, hq, hphase⟩
        obtain hq | ⟨-, rfl⟩ := Pool.getElem?_append_cases hq
        · exact ⟨q, hq, hphase⟩
        · cases hphase
    · rw [edits_congr ?_]
      · exact hserial
      · intro j hj
        obtain ⟨q, hq, -⟩ := (hmem j).mp hj
        rw [hq, Pool.getElem?_append_of hq]
  | act i c =>
    obtain ⟨r, hr, hact⟩ := Option.bind_eq_some_iff.mp hstep
    exact h.act hinv hallowed hr hact
  | bookkeeping sync =>
    obtain rfl := Option.some.inj hstep
    obtain ⟨order, hnodup, hmem, hserial⟩ := h
    exact ⟨order, hnodup, hmem, hserial.agree rfl⟩
  | workload workload | pendingRemoval workspaceName =>
    obtain rfl := Option.some.inj hstep
    exact h

end Invariant

/-- The edits of one source serialise as long as no write carries a credential that the row has lost. -/
theorem scm_edits_serialise {host : Host} {s : Source} {es : List Event} {w : World}
    (h : Runs (step host) (fun w ev => allowed host w ev = true) { source := s } es w) : Serialised host s w := by
  have hinitial : Inv host { source := s } ∧ Serialised host s { source := s } := by
    refine ⟨⟨?_⟩, [], List.nodup_nil, ?_, .nil rfl⟩
    · intro i r hr
      rw [List.getElem?_nil] at hr
      cases hr
    · intro i
      simp [World.Succeeded]
  exact (h.invariant (I := fun w => Inv host w ∧ Serialised host s w)
    (fun _ _ _ hallowed hI hstep => ⟨inv_step hI.1 hstep, serialised_step hI.2 hI.1 hallowed hstep⟩) hinitial).2

section Config

variable {host : Host} {s s' s'' : Source} {actor : String} {data : UpdateScmSourceInput} {w w' : World}

def Lone (host : Host) (s : Source) (actor : String) (data : UpdateScmSourceInput) (w : World) : Prop :=
  ∃ phase, w.requests = [⟨actor, .parsed data, phase⟩] ∧
    match phase with
    | .select => w.source = s
    | .json existing => w.source = s ∧ existing = s
    | .selectScmPathPeers existing data' | .validateRoot existing data' _ => w.source = s ∧ existing = s ∧ data' = data
    | .cancelInitialScmSync draft | .reselect draft | .write draft | .update draft _ =>
      w.source = s ∧ payloadConfig host s data = .ok draft.config
    | .responded .updated => ∃ config, payloadConfig host s data = .ok config ∧ w.source.config = config.getD s.config
    | .responded (.error _ _) => True

theorem lone_setPhase {r : Request} {phase : Phase} (hrequests : w.requests = [r]) (hactor : r.actor = actor)
    (hbody : r.body = .parsed data) (hphase : Lone host s actor data { w with requests := [⟨actor, .parsed data, phase⟩] }) :
    Lone host s actor data (w.setPhase 0 r phase) := by
  obtain ⟨actor', body', phase'⟩ := r
  obtain rfl : actor' = actor := hactor
  obtain rfl : body' = .parsed data := hbody
  unfold World.setPhase
  rw [hrequests]
  exact hphase

theorem lone_guardReset {draft : Draft} {busy : Bool} (hsource : w.source = s)
    (hconfig : payloadConfig host s data = .ok draft.config) :
    Lone host s actor data { w with requests := [⟨actor, .parsed data, guardReset draft busy⟩] } := by
  unfold guardReset
  split
  · split
    · exact ⟨_, rfl, trivial⟩
    · split
      · exact ⟨_, rfl, trivial⟩
      · exact ⟨_, rfl, hsource, hconfig⟩
  · exact ⟨_, rfl, hsource, hconfig⟩

theorem lone_commit {r : Request} {draft : Draft} {plannedWsPath : String} (hrequests : w.requests = [r])
    (hactor : r.actor = actor) (hbody : r.body = .parsed data) (hsource : w.source = s)
    (hconfig : payloadConfig host s data = .ok draft.config) :
    Lone host s actor data (w.commit 0 r draft plannedWsPath) := by
  unfold World.commit
  split
  · refine lone_setPhase hrequests hactor hbody ⟨_, rfl, draft.config, hconfig, ?_⟩
    rw [← hsource]
    rfl
  · exact lone_setPhase hrequests hactor hbody ⟨_, rfl, trivial⟩

theorem lone_step (h : Lone host s actor data w) (hstep : step host w (.act 0 {}) = some w') :
    Lone host s actor data w' := by
  obtain ⟨phase, hrequests, hphase⟩ := h
  obtain ⟨r, hr, hact⟩ := Option.bind_eq_some_iff.mp hstep
  rw [hrequests, List.getElem?_cons_zero] at hr
  obtain rfl := Option.some.inj hr
  unfold act at hact
  cases phase with
  | select =>
    obtain rfl := Option.some.inj hact
    apply lone_setPhase hrequests rfl rfl
    dsimp only
    split
    · exact ⟨_, rfl, trivial⟩
    · split
      · exact ⟨_, rfl, trivial⟩
      · exact ⟨_, rfl, hphase, hphase⟩
  | json existing =>
    obtain rfl := Option.some.inj hact
    exact lone_setPhase hrequests rfl rfl ⟨_, rfl, hphase.1, hphase.2, rfl⟩
  | selectScmPathPeers existing data' =>
    obtain rfl := Option.some.inj hact
    apply lone_setPhase hrequests rfl rfl
    dsimp only
    split
    · exact ⟨_, rfl, trivial⟩
    · exact ⟨_, rfl, hphase⟩
  | validateRoot existing data' effectiveWsPath =>
    obtain ⟨hsource, rfl, rfl⟩ := hphase
    obtain rfl := Option.some.inj hact
    apply lone_setPhase hrequests rfl rfl
    dsimp only
    split
    · exact ⟨_, rfl, trivial⟩
    · split
      · rename_i response hdraft
        obtain ⟨status, error, rfl⟩ := makeDraft_error hdraft
        exact ⟨_, rfl, trivial⟩
      · rename_i draft hdraft
        have hconfig := (makeDraft_ok hdraft).1
        unfold afterDraft
        split
        · exact ⟨_, rfl, hsource, hconfig⟩
        · exact lone_guardReset hsource hconfig
  | cancelInitialScmSync draft =>
    obtain rfl := Option.some.inj hact
    exact lone_setPhase hrequests rfl rfl (lone_guardReset hphase.1 hphase.2)
  | reselect draft =>
    obtain rfl := Option.some.inj hact
    apply lone_setPhase hrequests rfl rfl
    dsimp only
    split
    · exact ⟨_, rfl, trivial⟩
    · exact lone_guardReset hphase.1 hphase.2
  | write draft =>
    dsimp only at hact
    split at hact
    · unfold enterTransaction at hact
      split at hact
      · cases hact
      · obtain rfl := Option.some.inj hact
        split
        · exact lone_setPhase hrequests rfl rfl ⟨_, rfl, trivial⟩
        · split
          · exact lone_setPhase hrequests rfl rfl ⟨_, rfl, trivial⟩
          · split
            · exact lone_setPhase hrequests rfl rfl ⟨_, rfl, trivial⟩
            · refine lone_setPhase ?_ rfl rfl ⟨_, rfl, hphase⟩
              exact hrequests
    · obtain rfl := Option.some.inj hact
      exact lone_commit hrequests rfl rfl hphase.1 hphase.2
  | update draft lockedWsPath =>
    obtain rfl := Option.some.inj hact
    refine lone_commit ?_ rfl rfl ?_ hphase.2
    · exact hrequests
    · exact hphase.1
  | responded response => cases hact

theorem Alone.config (h : Alone host s actor (.parsed data) s') :
    ∃ config, payloadConfig host s data = .ok config ∧ s'.config = config.getD s.config := by
  obtain ⟨n, w, hrun, hrequests, rfl⟩ := h
  have hstart : Lone host s actor data (solo s actor data .select) := ⟨.select, rfl, rfl⟩
  have hruns : Runs (step host) (fun _ ev => ev = .act 0 {}) (solo s actor data .select)
      (List.replicate n (.act 0 {})) w := .of_forall hrun fun _ hev => List.eq_of_mem_replicate hev
  obtain ⟨phase, hrequests', hphase⟩ := hruns.invariant (I := Lone host s actor data)
    (fun _ ev _ hev hlone hstep => by
      obtain rfl : ev = .act 0 {} := hev
      exact lone_step hlone hstep) hstart
  rw [hrequests] at hrequests'
  obtain rfl := (Request.mk.inj (List.cons.inj hrequests').1).2.2
  exact hphase

theorem Agree.config (h : Agree s s') : s'.config = s.config := by
  rw [← h]

theorem payloadConfig_congr (h : s'.config = s.config) : payloadConfig host s' data = payloadConfig host s data := by
  simp only [payloadConfig, h]

theorem Serial.config_cons {rs : List (String × Body)} (h : Serial host s ((actor, .parsed data) :: rs) s') :
    ∃ s₁ config, payloadConfig host s data = .ok config ∧ s₁.config = config.getD s.config ∧ Serial host s₁ rs s' := by
  cases h with
  | cons hagree halone hrest =>
    obtain ⟨config, hpayload, hconfig⟩ := halone.config
    rw [payloadConfig_congr hagree.config] at hpayload
    rw [hagree.config] at hconfig
    exact ⟨_, config, hpayload, hconfig, hrest⟩

theorem Serial.config_nil (h : Serial host s [] s') : s'.config = s.config := by
  cases h with
  | nil hagree => exact hagree.config

end Config

def posixHost : Host where
  platform := posix
  runtime := HttpsUrl.runtime
  number := integerText

def p4 (p4passwd depotPath : String) : P4Config :=
  ⟨"ssl:p4.example.com:1666", "builder", p4passwd, "a2wave", some depotPath, false, 30, 60, none⟩

def game : Source where
  id := "scm_game"
  name := "game"
  localPath := "/depot/game"
  workspacesPath := none
  type := .p4
  config := .p4 (p4 "old" "//depot/main/...")
  userId := some "ann"
  sync := { initialSyncCompletedAt := some 0 }

def rotate : UpdateScmSourceInput := { config := some (.p4 (p4 "new" "//depot/main/...")) }

def retarget : UpdateScmSourceInput := { config := some (.p4 (p4 SCM_SECRET_MASK "//depot/dev/...")) }

def rename : UpdateScmSourceInput := { name := some "shooter" }

def overlap (first second : UpdateScmSourceInput) : List Event :=
  [.patch "ann" (.parsed first), .patch "ann" (.parsed second)] ++ List.replicate 4 (.act 0 {}) ++
    List.replicate 4 (.act 1 {})

theorem scm_edits_serialise_rename : ∃ w, run (step posixHost) { source := game }
      (overlap rename retarget ++ [.act 0 {}, .act 1 {}, .act 1 {}]) = some w ∧
    w.source.name = "shooter" ∧ w.source.config = .p4 (p4 "old" "//depot/dev/...") ∧ Serialised posixHost game w := by
  obtain ⟨w, hw, hname, hconfig⟩ : ∃ w, run (guarded (step posixHost) fun w ev => allowed posixHost w ev = true)
      { source := game } (overlap rename retarget ++ [.act 0 {}, .act 1 {}, .act 1 {}]) = some w ∧
      w.source.name = "shooter" ∧ w.source.config = .p4 (p4 "old" "//depot/dev/...") :=
    exists_of_run_any (by decide +kernel)
  exact ⟨w, (Runs.of_guarded hw).toRun, hname, hconfig, scm_edits_serialise (.of_guarded hw)⟩

theorem scm_edit_restores_replaced_password : ∃ w, run (step posixHost) { source := game }
      (overlap rotate retarget ++ [.act 0 {}, .act 0 {}, .act 1 {}, .act 1 {}]) = some w ∧
    w.Succeeded 0 ∧ w.Succeeded 1 ∧ w.source.config = .p4 (p4 "old" "//depot/dev/...") ∧
    ¬ Serialised posixHost game w := by
  obtain ⟨w, hw, hphases, hconfig, hforth, hback⟩ : ∃ w, run (step posixHost) { source := game }
      (overlap rotate retarget ++ [.act 0 {}, .act 0 {}, .act 1 {}, .act 1 {}]) = some w ∧
      w.requests.map Request.phase = [.responded .updated, .responded .updated] ∧
      w.source.config = .p4 (p4 "old" "//depot/dev/...") ∧
      w.edits [0, 1] = [("ann", .parsed rotate), ("ann", .parsed retarget)] ∧
      w.edits [1, 0] = [("ann", .parsed retarget), ("ann", .parsed rotate)] := exists_of_run_any (by decide +kernel)
  have hsucceeded : ∀ i, w.Succeeded i ↔ i = 0 ∨ i = 1 := by
    intro i
    have hphase : w.Succeeded i ↔ (w.requests.map Request.phase)[i]? = some (.responded .updated) := by
      rw [List.getElem?_map, Option.map_eq_some_iff]
      rfl
    rw [hphase, hphases]
    match i with
    | 0 | 1 => simp
    | i + 2 => simp
  refine ⟨w, hw, (hsucceeded 0).mpr (.inl rfl), (hsucceeded 1).mpr (.inr rfl), hconfig, ?_⟩
  rintro ⟨order, hnodup, hmem, hserial⟩
  have hperm : order.Perm [0, 1] := by
    rw [List.perm_ext_iff_of_nodup hnodup (by decide)]
    intro i
    rw [hmem, hsucceeded]
    simp
  obtain rfl | rfl := List.perm_pair.mp hperm
  · rw [hforth] at hserial
    obtain ⟨s₁, config₁, hpayload₁, hconfig₁, hrest⟩ := hserial.config_cons
    obtain ⟨s₂, config₂, hpayload₂, hconfig₂, hend⟩ := hrest.config_cons
    obtain rfl : some (.p4 (p4 "new" "//depot/main/...")) = config₁ := Except.ok.inj hpayload₁
    have hrow : s₁.config = { game with config := .p4 (p4 "new" "//depot/main/...") }.config := hconfig₁
    rw [payloadConfig_congr hrow] at hpayload₂
    obtain rfl : some (.p4 (p4 "new" "//depot/dev/...")) = config₂ := Except.ok.inj hpayload₂
    have hfinal := hend.config_nil
    rw [hconfig, hconfig₂, Option.getD_some] at hfinal
    exact absurd hfinal (by decide)
  · rw [hback] at hserial
    obtain ⟨s₁, config₁, hpayload₁, hconfig₁, hrest⟩ := hserial.config_cons
    obtain ⟨s₂, config₂, hpayload₂, hconfig₂, hend⟩ := hrest.config_cons
    obtain rfl : some (.p4 (p4 "old" "//depot/dev/...")) = config₁ := Except.ok.inj hpayload₁
    have hrow : s₁.config = { game with config := .p4 (p4 "old" "//depot/dev/...") }.config := hconfig₁
    rw [payloadConfig_congr hrow] at hpayload₂
    obtain rfl : some (.p4 (p4 "new" "//depot/main/...")) = config₂ := Except.ok.inj hpayload₂
    have hfinal := hend.config_nil
    rw [hconfig, hconfig₂, Option.getD_some] at hfinal
    exact absurd hfinal (by decide)

end A2Wave.SourceEdits
