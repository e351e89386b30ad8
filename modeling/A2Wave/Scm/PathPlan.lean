import A2Wave.Lib.Path
import A2Wave.Scm.PerAgent

/-! `lib/scm-path-plan.ts` with the checks it takes from `lib/scm-workspace-safety.ts`, and every
write of a source's paths: `POST` and `PATCH` of `routes/scm-sources.ts`, the upserts of
`lib/bootstrap.ts` and `lib/backfill-workspaces-path.ts`. -/

namespace A2Wave.PathPlan

open A2Wave.Path Transition

abbrev Segments := List (List Char)

def SCM_RECLAIM_DIR : String := ".a2wave-scm-reclaim-v1"

def isAbsolute (path : String) : Bool := path.toList.head? = some '/'

structure Platform where
  SCM_STORAGE_ROOT : String
  SCM_WORKSPACES_ALLOWED_ROOTS : List String := []
  homedir : String
  cwd : Segments := []
  protectedPlatformPaths : List String := []
  realpath : Segments → Segments := id
  foldCase : List Char → List Char := id
  absolute : isAbsolute SCM_STORAGE_ROOT = true
  unlinked : ∀ name ∈ [SCM_RECLAIM_DIR, "sources", "workspaces"],
    realpath ((pushAll [] SCM_STORAGE_ROOT.toList).reverse ++ [name.toList]) =
      realpath (pushAll [] SCM_STORAGE_ROOT.toList).reverse ++ [name.toList]

section Definitions

variable (platform : Platform)

def resolve (value : String) : Segments :=
  (pushAll (if isAbsolute value then [] else platform.cwd.reverse) value.toList).reverse

def canonicalizeThroughExistingAncestor (value : String) : Segments :=
  platform.realpath (resolve platform value)

def collisionKey (canonical : Segments) : Segments := canonical.map platform.foldCase

def filesystemCollisionKey (value : String) : Segments :=
  collisionKey platform (canonicalizeThroughExistingAncestor platform value)

def filesystemPathsOverlap (a b : String) : Bool :=
  Overlaps (filesystemCollisionKey platform a) (filesystemCollisionKey platform b)

def canonicalPathsOverlap (a b : Segments) : Bool :=
  Overlaps (collisionKey platform a) (collisionKey platform b)

def isSameFilesystemPath (a b : String) : Bool :=
  filesystemCollisionKey platform a = filesystemCollisionKey platform b

def scmReclaimRoot : String := joinPath platform.SCM_STORAGE_ROOT SCM_RECLAIM_DIR

def legacyWorkspacesRoot : String := joinPath platform.homedir ".a2wave/workspaces"

def legacyScmReclaimRoot : String := joinPath (legacyWorkspacesRoot platform) SCM_RECLAIM_DIR

def defaultScmLocalPath (sourceId : String) : String :=
  joinPath (platform.SCM_STORAGE_ROOT ++ "/sources") (idSuffix sourceId)

def defaultScmWorkspacesPath (sourceId : String) : String :=
  joinPath (platform.SCM_STORAGE_ROOT ++ "/workspaces") (idSuffix sourceId)

def defaultWorkspacesPath (pathExists : String → Bool) (sourceId : String) : String :=
  let legacyPath := joinPath (legacyWorkspacesRoot platform) (idSuffix sourceId)
  if pathExists legacyPath then legacyPath else defaultScmWorkspacesPath platform sourceId

def reclaimRoots : List String := [scmReclaimRoot platform, legacyScmReclaimRoot platform]

def managedCheckoutRoot : String := joinPath platform.SCM_STORAGE_ROOT "sources"

def getSharedStorageRoots : List String :=
  [managedCheckoutRoot platform, joinPath platform.SCM_STORAGE_ROOT "workspaces"]

def allowedRoots : List String :=
  [joinPath platform.SCM_STORAGE_ROOT "workspaces", legacyWorkspacesRoot platform,
    platform.SCM_STORAGE_ROOT] ++ platform.SCM_WORKSPACES_ALLOWED_ROOTS

def validateScmWorkspacesRoot (candidate : String) (allowOutsideConfiguredRoots : Bool) : Option String :=
  let canonicalize := canonicalizeThroughExistingAncestor platform
  let candidatePath := canonicalize candidate
  let overlaps (root : String) : Bool := canonicalPathsOverlap platform (canonicalize root) candidatePath
  if !isAbsolute candidate then some "workspacesPath must be an absolute path"
  else if !allowOutsideConfiguredRoots &&
      !((allowedRoots platform).filter isAbsolute).any fun root => canonicalize root <+: candidatePath then
    some "workspacesPath must be inside the default a2wave workspaces directory or a root listed in SCM_WORKSPACES_ALLOWED_ROOTS"
  else if platform.protectedPlatformPaths.any overlaps then
    some "workspacesPath must not overlap protected platform storage"
  else if overlaps (managedCheckoutRoot platform) then
    some "workspacesPath must not overlap managed SCM checkout storage"
  else if (reclaimRoots platform).any overlaps then
    some "workspacesPath must not overlap the SCM reclaim root"
  else none

structure ScmPathPeer where
  id : String
  name : String
  localPath : String
  workspacesPath : Option String
  deriving DecidableEq

structure ScmPathPlanInput where
  sourceId : String
  type : ScmSourceType
  localPath : Option String
  workspacesPath : Option String
  existingSources : List ScmPathPeer
  excludeId : Option String
  isAdmin : Bool

structure PlanError where
  status : Nat
  error : String
  deriving DecidableEq

variable (pathExists : String → Bool)

def effectiveWorkspacesPath (peer : ScmPathPeer) : String :=
  peer.workspacesPath.getD (defaultWorkspacesPath platform pathExists peer.id)

def findPeerConflict (peers : List ScmPathPeer) (candidate : String) (excludeId : Option String) :
    Option ScmPathPeer :=
  peers.find? fun peer =>
    !(excludeId.filter (· ≠ "") = some peer.id) && (filesystemPathsOverlap platform peer.localPath candidate ||
        filesystemPathsOverlap platform (effectiveWorkspacesPath platform pathExists peer) candidate)

def findClaimedSharedRoot (candidate : String) : Option String :=
  (getSharedStorageRoots platform).find? (isSameFilesystemPath platform candidate)

def resolveScmPathPlan (input : ScmPathPlanInput) : Except PlanError ScmPaths :=
  if input.type = .p4 ∧ input.localPath.filter (· ≠ "") = none then
    .error ⟨400, "P4 sources require a localPath covered by the client Root or AltRoots"⟩
  else
    let localPath := input.localPath.getD (defaultScmLocalPath platform input.sourceId)
    if !isAbsolute localPath then .error ⟨400, "localPath must be an absolute path"⟩
    else if (reclaimRoots platform).any (filesystemPathsOverlap platform localPath) then
      .error ⟨400, "localPath must not overlap the SCM reclaim root"⟩
    else
      match findClaimedSharedRoot platform localPath with
      | some root => .error ⟨400, s!"localPath must not be the shared storage root \"{root}\""⟩
      | none =>
        let workspacesPath :=
          input.workspacesPath.getD (defaultWorkspacesPath platform pathExists input.sourceId)
        if !isAbsolute workspacesPath then .error ⟨400, "workspacesPath must be an absolute path"⟩
        else if (reclaimRoots platform).any (filesystemPathsOverlap platform workspacesPath) then
          .error ⟨400, "workspacesPath must not overlap the SCM reclaim root"⟩
        else
          match findClaimedSharedRoot platform workspacesPath with
          | some root => .error ⟨400, s!"workspacesPath must not be the shared storage root \"{root}\""⟩
          | none =>
            if filesystemPathsOverlap platform workspacesPath localPath then
              .error ⟨400, "workspacesPath must not overlap with localPath"⟩
            else
              match findPeerConflict platform pathExists input.existingSources localPath input.excludeId with
              | some peer =>
                let name := peer.name
                .error ⟨409, s!"Path \"{localPath}\" overlaps with source \"{name}\""⟩
              | none =>
                match findPeerConflict platform pathExists input.existingSources workspacesPath
                    input.excludeId with
                | some peer =>
                  let name := peer.name
                  .error ⟨409, s!"Workspaces path \"{workspacesPath}\" overlaps with source \"{name}\""⟩
                | none =>
                  match validateScmWorkspacesRoot platform workspacesPath input.isAdmin with
                  | some error => .error ⟨400, error⟩
                  | none => .ok ⟨localPath, workspacesPath⟩

end Definitions

structure ScmSource extends ScmPathPeer where
  type : ScmSourceType
  deriving DecidableEq

instance : Keyed ScmSource String := ⟨fun s => s.id⟩

/-- `requests` are the rows that the open `PATCH` requests read before their transaction. -/
structure State where
  sources : Table ScmSource := .empty
  requests : List ScmSource := []

inductive Operation
  /-- `POST`, or an upsert from the environment that finds no row. -/
  | create (id name : String) (type : ScmSourceType) (localPath workspacesPath : Option String)
      (isAdmin : Bool)
  | readPatch (id : String)
  | patch (request : Nat) (localPath : Option String) (workspacesPath : Option (Option String))
      (isAdmin : Bool)
  | bootstrap (id : String) (localPath : Option String)
  | backfill (id : String)
  | delete (id : String)

structure Event where
  operation : Operation
  pathExists : String → Bool

section Operations

variable (platform : Platform) (pathExists : String → Bool)

def State.peers (s : State) : List ScmPathPeer := s.sources.rows.map ScmSource.toScmPathPeer

def State.setPaths (s : State) (id : String) (f : ScmSource → String × Option String) : State :=
  let sources := s.sources.updateWhere (fun row => row.id = id)
    (fun row => { row with localPath := (f row).1, workspacesPath := (f row).2 }) fun _ => rfl
  { s with sources := sources }

def create (s : State) (id name : String) (type : ScmSourceType)
    (localPath workspacesPath : Option String) (isAdmin : Bool) : Option State :=
  let plan := resolveScmPathPlan platform pathExists
    ⟨id, type, localPath, workspacesPath, s.peers, none, isAdmin⟩
  match plan with
  | .error _ => none
  | .ok paths =>
    (s.sources.insert ⟨⟨id, name, paths.localPath, some paths.wsRoot⟩, type⟩).map fun sources =>
      { s with sources := sources }

def patch (s : State) (existing : ScmSource) (localPath : Option String)
    (workspacesPath : Option (Option String)) (isAdmin : Bool) : Option State :=
  let currentPeer := s.sources.find? existing.id
  let storedLocalPath := (currentPeer.map (·.localPath)).getD existing.localPath
  let storedWorkspacesPath := (currentPeer.bind (·.workspacesPath)).or existing.workspacesPath
  let lockedPlan := resolveScmPathPlan platform pathExists
    { sourceId := existing.id, type := existing.type, localPath := some (localPath.getD storedLocalPath)
      workspacesPath := workspacesPath.getD storedWorkspacesPath
      existingSources := s.peers
      excludeId := some existing.id
      isAdmin := isAdmin }
  match lockedPlan with
  | .error _ => none
  | .ok paths => some (s.setPaths existing.id fun row =>
      (localPath.getD row.localPath,
        if workspacesPath.isSome then some paths.wsRoot else row.workspacesPath))

def bootstrap (s : State) (existing : ScmSource) (localPath : Option String) : Option State :=
  let plan := resolveScmPathPlan platform pathExists
    { sourceId := existing.id, type := existing.type
      localPath := some ((localPath.filter (· ≠ "")).getD existing.localPath)
      workspacesPath := existing.workspacesPath
      existingSources := s.peers
      excludeId := some existing.id
      isAdmin := true }
  match plan with
  | .error _ => none
  | .ok paths => some (s.setPaths existing.id fun _ => (paths.localPath, some paths.wsRoot))

/-- `workspaces_path IS NULL` guards the write. -/
def backfill (s : State) (id : String) : State :=
  s.setPaths id fun row =>
    (row.localPath, some (effectiveWorkspacesPath platform pathExists row.toScmPathPeer))

def step (s : State) (e : Event) : Option State :=
  match e.operation with
  | .create id name type localPath workspacesPath isAdmin =>
    create platform e.pathExists s id name type localPath workspacesPath isAdmin
  | .readPatch id => (s.sources.find? id).map fun row => { s with requests := s.requests ++ [row] }
  | .patch request localPath workspacesPath isAdmin =>
    s.requests[request]?.bind fun existing =>
      patch platform e.pathExists s existing localPath workspacesPath isAdmin
  | .bootstrap id localPath =>
    (s.sources.find? id).bind fun existing => bootstrap platform e.pathExists s existing localPath
  | .backfill id => some (backfill platform e.pathExists s id)
  | .delete id => some { s with sources := s.sources.deleteWhere fun row => row.id = id }

end Operations

section Paths

/-- The step of `normalizePath` on an absolute path. -/
def normalizeStep (kept : Segments) (segment : List Char) : Segments :=
  if segment = [] ∨ segment = ['.'] then kept
  else if segment = ['.', '.'] then
    match kept with
    | [] => []
    | top :: rest => if top = ['.', '.'] then segment :: kept else rest
  else segment :: kept

theorem normalizeStep_eq_push {kept : Segments} (h : ∀ s ∈ kept, Plain s) (segment : List Char) :
    normalizeStep kept segment = push kept segment := by
  unfold normalizeStep push
  cases kept with
  | nil => rfl
  | cons top rest =>
    dsimp only
    rw [List.tail_cons, if_neg (h top List.mem_cons_self).2.2.1]

theorem foldl_normalizeStep {kept segments : Segments} (hkept : ∀ s ∈ kept, Plain s)
    (hslash : ∀ s ∈ segments, '/' ∉ s) :
    segments.foldl normalizeStep kept = segments.foldl push kept := by
  induction segments generalizing kept with
  | nil => rfl
  | cons t segments ih =>
    rw [List.foldl_cons, List.foldl_cons, normalizeStep_eq_push hkept]
    exact ih (plain_push hkept (hslash t List.mem_cons_self))
      fun s hs => hslash s (List.mem_cons_of_mem _ hs)

theorem normalizePath_absolute {path : String} (habs : isAbsolute path = true)
    (hlast : path.toList.getLast? ≠ some '/') :
    (normalizePath path).toList = '/' :: ['/'].intercalate (pushAll [] path.toList).reverse := by
  have hhead : path.toList.head? = some '/' := by simpa [isAbsolute] using habs
  have hfold : (path.toList.splitOn '/').foldl normalizeStep [] = pushAll [] path.toList :=
    foldl_normalizeStep (fun _ h => absurd h List.not_mem_nil) fun _ => Separated.not_mem_of_mem_splitOn
  rw [← hfold]
  simp only [normalizePath, hhead, if_true, if_neg hlast]
  change (if ['/'].intercalate ((path.toList.splitOn '/').foldl normalizeStep []).reverse = [] then "/"
    else String.ofList (['/'] ++ ['/'].intercalate
      ((path.toList.splitOn '/').foldl normalizeStep []).reverse ++ [])).toList = _
  split
  · rename_i hnil
    rw [hnil]
    rfl
  · rw [List.append_nil, String.toList_ofList]
    rfl

theorem toList_joinPath {root name : String} (habs : isAbsolute root = true) (hname : Plain name.toList) :
    (joinPath root name).toList = '/' :: ['/'].intercalate (name.toList :: pushAll [] root.toList).reverse := by
  have hroot : root ≠ "" := by
    rintro rfl
    cases habs
  have hlist : (root ++ "/" ++ name).toList = root.toList ++ '/' :: name.toList := by
    simp
  have hjoin : isAbsolute (root ++ "/" ++ name) = true := by
    have hhead : root.toList.head? = some '/' := by simpa [isAbsolute] using habs
    rw [isAbsolute, hlist, List.head?_append, hhead]
    rfl
  have hlast : (root ++ "/" ++ name).toList.getLast? ≠ some '/' := by
    obtain ⟨hnil, -, -, hslash⟩ := hname
    rw [hlist, List.getLast?_append, List.getLast?_cons_of_ne_nil hnil]
    intro h
    cases hl : name.toList.getLast? with
    | none => exact hnil (List.getLast?_eq_none_iff.mp hl)
    | some c =>
      rw [hl] at h
      cases h
      exact hslash (List.mem_of_getLast? hl)
  rw [joinPath, if_neg hroot, normalizePath_absolute hjoin hlast, hlist, pushAll_child [] root.toList hname]

theorem resolve_joinPath (platform : Platform) {root name : String} (habs : isAbsolute root = true)
    (hname : Plain name.toList) :
    resolve platform (joinPath root name) = (pushAll [] root.toList).reverse ++ [name.toList] := by
  have hjoin : isAbsolute (joinPath root name) = true := by
    rw [isAbsolute, toList_joinPath habs hname]
    rfl
  have hplain : ∀ s ∈ (name.toList :: pushAll [] root.toList).reverse, Plain s := by
    intro s hs
    rcases List.mem_cons.mp (List.mem_reverse.mp hs) with rfl | hs
    · exact hname
    · exact plain_pushAll (fun _ h => absurd h List.not_mem_nil) _ s hs
  rw [resolve, if_pos hjoin, toList_joinPath habs hname, pushAll_intercalate hplain, List.reverse_reverse,
    List.reverse_cons]

def storageKey (platform : Platform) : Segments :=
  collisionKey platform (platform.realpath (pushAll [] platform.SCM_STORAGE_ROOT.toList).reverse)

theorem filesystemCollisionKey_storage (platform : Platform) {name : String} (hname : Plain name.toList)
    (hmem : name ∈ [SCM_RECLAIM_DIR, "sources", "workspaces"]) :
    filesystemCollisionKey platform (joinPath platform.SCM_STORAGE_ROOT name) =
      storageKey platform ++ [platform.foldCase name.toList] := by
  rw [filesystemCollisionKey, canonicalizeThroughExistingAncestor, resolve_joinPath platform platform.absolute hname,
    platform.unlinked name hmem, collisionKey, List.map_append]
  rfl

theorem not_contains_sharedRoot (platform : Platform) {path root : String}
    (hroot : root ∈ getSharedStorageRoots platform)
    (hclaim : isSameFilesystemPath platform path root = false)
    (hreclaim : filesystemPathsOverlap platform path (scmReclaimRoot platform) = false) :
    ¬filesystemCollisionKey platform path <+: filesystemCollisionKey platform root := by
  have hne : filesystemCollisionKey platform path ≠ filesystemCollisionKey platform root := by
    simpa [isSameFilesystemPath] using hclaim
  have hfree : ¬Overlaps (filesystemCollisionKey platform path)
      (filesystemCollisionKey platform (scmReclaimRoot platform)) := by
    simpa [filesystemPathsOverlap] using hreclaim
  have hkey : ∃ name : List Char, filesystemCollisionKey platform root = storageKey platform ++ [name] := by
    rcases List.mem_cons.mp hroot with rfl | hroot
    · exact ⟨_, filesystemCollisionKey_storage platform (by decide) (by simp)⟩
    · rw [List.mem_singleton] at hroot
      subst hroot
      exact ⟨_, filesystemCollisionKey_storage platform (by decide) (by simp)⟩
  obtain ⟨name, hname⟩ := hkey
  rw [scmReclaimRoot, filesystemCollisionKey_storage platform (by decide) (by simp)] at hfree
  rw [hname] at hne ⊢
  exact fun h => hfree (overlaps_sibling h hne)

end Paths

section Plan

variable {platform : Platform} {pathExists : String → Bool} {input : ScmPathPlanInput} {paths : ScmPaths}

theorem filesystemPathsOverlap_comm (a b : String) :
    filesystemPathsOverlap platform a b = filesystemPathsOverlap platform b a := by
  simp only [filesystemPathsOverlap, overlaps_comm]

def ScmPathPeer.roots (platform : Platform) (pathExists : String → Bool) (peer : ScmPathPeer) : List String :=
  [peer.localPath, effectiveWorkspacesPath platform pathExists peer]

structure FreeRoot (platform : Platform) (pathExists : String → Bool) (peers : List ScmPathPeer)
    (path : String) : Prop where
  reclaim : ∀ root ∈ reclaimRoots platform, filesystemPathsOverlap platform path root = false
  shared : ∀ root ∈ getSharedStorageRoots platform,
    ¬filesystemCollisionKey platform path <+: filesystemCollisionKey platform root
  peers : ∀ peer ∈ peers, ∀ root ∈ peer.roots platform pathExists, filesystemPathsOverlap platform path root = false

structure FreePaths (platform : Platform) (pathExists : String → Bool) (peers : List ScmPathPeer)
    (paths : ScmPaths) : Prop where
  localPath : FreeRoot platform pathExists peers paths.localPath
  wsRoot : FreeRoot platform pathExists peers paths.wsRoot
  own : filesystemPathsOverlap platform paths.wsRoot paths.localPath = false
  managed : filesystemPathsOverlap platform paths.wsRoot (managedCheckoutRoot platform) = false

theorem findPeerConflict_none {peers : List ScmPathPeer} {candidate : String} {excludeId : Option String}
    (h : findPeerConflict platform pathExists peers candidate excludeId = none) :
    ∀ peer ∈ peers, excludeId ≠ some peer.id → ∀ root ∈ peer.roots platform pathExists,
      filesystemPathsOverlap platform candidate root = false := by
  intro peer hpeer hne root hroot
  have hno := List.find?_eq_none.mp h peer hpeer
  have hkept : ¬excludeId.filter (· ≠ "") = some peer.id := by
    intro hex
    exact hne (Option.filter_eq_some_iff.mp hex).1
  simp only [hkept, decide_false, Bool.not_false, Bool.true_and, Bool.or_eq_true, not_or, Bool.not_eq_true] at hno
  rw [filesystemPathsOverlap_comm]
  rcases List.mem_cons.mp hroot with rfl | hroot
  · exact hno.1
  · rw [List.mem_singleton] at hroot
    subst hroot
    exact hno.2

theorem freeRoot_of_checks {peers : List ScmPathPeer} {path : String} {excludeId : Option String}
    (hreclaim : ¬(reclaimRoots platform).any (filesystemPathsOverlap platform path) = true)
    (hclaim : findClaimedSharedRoot platform path = none)
    (hpeers : findPeerConflict platform pathExists peers path excludeId = none) :
    FreeRoot platform pathExists (peers.filter fun peer => excludeId ≠ some peer.id) path where
  reclaim := by
    intro root hroot
    by_contra hover
    exact hreclaim (List.any_eq_true.mpr ⟨root, hroot, by simpa using hover⟩)
  shared := by
    intro root hroot
    apply not_contains_sharedRoot platform hroot
    · simpa using List.find?_eq_none.mp hclaim root hroot
    · by_contra hover
      exact hreclaim (List.any_eq_true.mpr ⟨_, List.mem_cons_self, by simpa using hover⟩)
  peers := by
    intro peer hpeer
    obtain ⟨hmem, hne⟩ := List.mem_filter.mp hpeer
    exact findPeerConflict_none hpeers peer hmem (by simpa using hne)

theorem validateScmWorkspacesRoot_none {path : String} {isAdmin : Bool}
    (h : validateScmWorkspacesRoot platform path isAdmin = none) :
    filesystemPathsOverlap platform path (managedCheckoutRoot platform) = false := by
  unfold validateScmWorkspacesRoot at h
  dsimp only at h
  split at h
  · cases h
  split at h
  · cases h
  split at h
  · cases h
  split at h
  · cases h
  rename_i hmanaged
  rw [filesystemPathsOverlap_comm, ← Bool.not_eq_true]
  exact hmanaged

theorem plan_ok (h : resolveScmPathPlan platform pathExists input = .ok paths) :
    paths.localPath = input.localPath.getD (defaultScmLocalPath platform input.sourceId) ∧
    paths.wsRoot = input.workspacesPath.getD (defaultWorkspacesPath platform pathExists input.sourceId) ∧
    FreePaths platform pathExists
      (input.existingSources.filter fun peer => input.excludeId ≠ some peer.id) paths := by
  unfold resolveScmPathPlan at h
  dsimp only at h
  split at h
  · cases h
  split at h
  · cases h
  split at h
  · cases h
  rename_i hlocalReclaim
  split at h
  · cases h
  rename_i hlocalShared
  split at h
  · cases h
  split at h
  · cases h
  rename_i hwsReclaim
  split at h
  · cases h
  rename_i hwsShared
  split at h
  · cases h
  rename_i hown
  split at h
  · cases h
  rename_i hlocalPeers
  split at h
  · cases h
  rename_i hwsPeers
  split at h
  · cases h
  rename_i hroot
  cases h
  refine ⟨rfl, rfl, ?_, ?_, ?_, ?_⟩
  · exact freeRoot_of_checks hlocalReclaim hlocalShared hlocalPeers
  · exact freeRoot_of_checks hwsReclaim hwsShared hwsPeers
  · simpa using hown
  · exact validateScmWorkspacesRoot_none hroot

end Plan

structure RootsDisjoint (platform : Platform) (pathExists : String → Bool)
    (sources : Table ScmSource) : Prop where
  own : ∀ row ∈ sources.rows, filesystemPathsOverlap platform
    (effectiveWorkspacesPath platform pathExists row.toScmPathPeer) row.localPath = false
  peers : ∀ row ∈ sources.rows, ∀ row' ∈ sources.rows, row.id ≠ row'.id →
    ∀ root ∈ row.roots platform pathExists, ∀ root' ∈ row'.roots platform pathExists,
      filesystemPathsOverlap platform root root' = false
  reclaim : ∀ row ∈ sources.rows, ∀ root ∈ row.roots platform pathExists,
    ∀ reclaimRoot ∈ reclaimRoots platform, filesystemPathsOverlap platform root reclaimRoot = false
  shared : ∀ row ∈ sources.rows, ∀ root ∈ row.roots platform pathExists, ∀ sharedRoot ∈ getSharedStorageRoots platform,
      ¬filesystemCollisionKey platform root <+: filesystemCollisionKey platform sharedRoot
  managed : ∀ row ∈ sources.rows, filesystemPathsOverlap platform
    (effectiveWorkspacesPath platform pathExists row.toScmPathPeer) (managedCheckoutRoot platform) = false

section Preservation

variable {platform : Platform} {pathExists probe : String → Bool} {sources sources' : Table ScmSource}

theorem RootsDisjoint.of_roots (h : RootsDisjoint platform probe sources)
    (hroots : ∀ row' ∈ sources'.rows, ∃ row ∈ sources.rows, row.id = row'.id ∧ row.localPath = row'.localPath ∧
      effectiveWorkspacesPath platform probe row.toScmPathPeer =
        effectiveWorkspacesPath platform probe row'.toScmPathPeer) :
    RootsDisjoint platform probe sources' where
  own := by
    intro row' hrow'
    obtain ⟨row, hrow, -, hlocal, hws⟩ := hroots row' hrow'
    rw [← hlocal, ← hws]
    exact h.own row hrow
  peers := by
    intro row₁' h₁' row₂' h₂' hne
    obtain ⟨row₁, h₁, hid₁, hlocal₁, hws₁⟩ := hroots row₁' h₁'
    obtain ⟨row₂, h₂, hid₂, hlocal₂, hws₂⟩ := hroots row₂' h₂'
    rw [← hid₁, ← hid₂] at hne
    simp only [ScmPathPeer.roots, ← hlocal₁, ← hws₁, ← hlocal₂, ← hws₂]
    exact h.peers row₁ h₁ row₂ h₂ hne
  reclaim := by
    intro row' hrow'
    obtain ⟨row, hrow, -, hlocal, hws⟩ := hroots row' hrow'
    simp only [ScmPathPeer.roots, ← hlocal, ← hws]
    exact h.reclaim row hrow
  shared := by
    intro row' hrow'
    obtain ⟨row, hrow, -, hlocal, hws⟩ := hroots row' hrow'
    simp only [ScmPathPeer.roots, ← hlocal, ← hws]
    exact h.shared row hrow
  managed := by
    intro row' hrow'
    obtain ⟨row, hrow, -, -, hws⟩ := hroots row' hrow'
    rw [← hws]
    exact h.managed row hrow

theorem RootsDisjoint.put (h : RootsDisjoint platform probe sources) {id : String} {paths : ScmPaths}
    (hfree : FreePaths platform probe
      ((sources.rows.map ScmSource.toScmPathPeer).filter fun peer => some id ≠ some peer.id) paths)
    (hrows : ∀ row ∈ sources'.rows, (row ∈ sources.rows ∧ row.id ≠ id) ∨
      (row.id = id ∧ row.localPath = paths.localPath ∧
        effectiveWorkspacesPath platform probe row.toScmPathPeer = paths.wsRoot)) :
    RootsDisjoint platform probe sources' := by
  have hnew : ∀ root ∈ [paths.localPath, paths.wsRoot],
      FreeRoot platform probe ((sources.rows.map ScmSource.toScmPathPeer).filter fun peer =>
        some id ≠ some peer.id) root := by
    intro root hroot
    rcases List.mem_cons.mp hroot with rfl | hroot
    · exact hfree.localPath
    · rw [List.mem_singleton.mp hroot]
      exact hfree.wsRoot
  have hold : ∀ row ∈ sources.rows, row.id ≠ id → row.toScmPathPeer ∈
      (sources.rows.map ScmSource.toScmPathPeer).filter fun peer => some id ≠ some peer.id := by
    intro row hrow hne
    exact List.mem_filter.mpr ⟨List.mem_map_of_mem hrow, by simpa using Ne.symm hne⟩
  refine ⟨?_, ?_, ?_, ?_, ?_⟩
  · intro row hrow
    rcases hrows row hrow with ⟨hrow, -⟩ | ⟨-, hlocal, hws⟩
    · exact h.own row hrow
    · rw [hlocal, hws]
      exact hfree.own
  · intro row hrow row' hrow' hne root hroot root' hroot'
    rcases hrows row hrow with ⟨hrow, hid⟩ | ⟨hid, hlocal, hws⟩
    · rcases hrows row' hrow' with ⟨hrow', -⟩ | ⟨-, hlocal', hws'⟩
      · exact h.peers row hrow row' hrow' hne root hroot root' hroot'
      · rw [filesystemPathsOverlap_comm]
        simp only [ScmPathPeer.roots, hlocal', hws'] at hroot'
        exact (hnew root' hroot').peers _ (hold row hrow hid) root hroot
    · rcases hrows row' hrow' with ⟨hrow', hid'⟩ | ⟨hid', -, -⟩
      · simp only [ScmPathPeer.roots, hlocal, hws] at hroot
        exact (hnew root hroot).peers _ (hold row' hrow' hid') root' hroot'
      · exact absurd (hid.trans hid'.symm) hne
  · intro row hrow root hroot
    rcases hrows row hrow with ⟨hrow, -⟩ | ⟨-, hlocal, hws⟩
    · exact h.reclaim row hrow root hroot
    · simp only [ScmPathPeer.roots, hlocal, hws] at hroot
      exact (hnew root hroot).reclaim
  · intro row hrow root hroot
    rcases hrows row hrow with ⟨hrow, -⟩ | ⟨-, hlocal, hws⟩
    · exact h.shared row hrow root hroot
    · simp only [ScmPathPeer.roots, hlocal, hws] at hroot
      exact (hnew root hroot).shared
  · intro row hrow
    rcases hrows row hrow with ⟨hrow, -⟩ | ⟨-, -, hws⟩
    · exact h.managed row hrow
    · rw [hws]
      exact hfree.managed

end Preservation

/-- The directory of an earlier release that an unstored worktree root depends on is there for the
event exactly when it is there for `probe`. -/
def KeepsProbe (platform : Platform) (probe : String → Bool) (s : State) (e : Event) : Prop :=
  ∀ row ∈ s.sources.rows, row.workspacesPath = none →
    defaultWorkspacesPath platform e.pathExists row.id = defaultWorkspacesPath platform probe row.id

instance (platform : Platform) (probe : String → Bool) (s : State) (e : Event) :
    Decidable (KeepsProbe platform probe s e) :=
  inferInstanceAs (Decidable (∀ row ∈ s.sources.rows, row.workspacesPath = none → _))

structure Inv (platform : Platform) (probe : String → Bool) (s : State) : Prop where
  disjoint : RootsDisjoint platform probe s.sources
  requests : ∀ request ∈ s.requests, request.workspacesPath ≠ none →
    ∀ row, s.sources.find? request.id = some row → row.workspacesPath ≠ none

section Steps

variable {platform : Platform} {probe pathExists : String → Bool} {s s' : State}

def NoNewNull (sources sources' : Table ScmSource) : Prop :=
  ∀ row' ∈ sources'.rows, row'.workspacesPath = none →
    ∃ row ∈ sources.rows, row.id = row'.id ∧ row.workspacesPath = none

theorem Inv.requests_of {sources' : Table ScmSource} (h : Inv platform probe s)
    (hnull : NoNewNull s.sources sources') : ∀ request ∈ s.requests, request.workspacesPath ≠ none →
      ∀ row, sources'.find? request.id = some row → row.workspacesPath ≠ none := by
  intro request hreq hsome row' hrow' hnone
  have hid' : row'.id = request.id := Table.find?_some_key hrow'
  obtain ⟨row, hrow, hid, hws⟩ := hnull row' (Table.find?_mem hrow') hnone
  have hfind : s.sources.find? request.id = some row :=
    Table.find?_eq_some_iff.mpr ⟨hrow, hid.trans hid'⟩
  exact h.requests request hreq hsome row hfind hws

variable {e : Event}

theorem KeepsProbe.effective (h : KeepsProbe platform probe s e) {row : ScmSource}
    (hrow : row ∈ s.sources.rows) :
    effectiveWorkspacesPath platform e.pathExists row.toScmPathPeer =
      effectiveWorkspacesPath platform probe row.toScmPathPeer := by
  cases hws : row.workspacesPath with
  | none => simp only [effectiveWorkspacesPath, hws, Option.getD_none, h row hrow hws]
  | some path => simp only [effectiveWorkspacesPath, hws, Option.getD_some]

theorem FreeRoot.of_probe {peers peers' : List ScmPathPeer} {path : String}
    (heff : ∀ peer ∈ peers', peer ∈ peers ∧ effectiveWorkspacesPath platform pathExists peer =
      effectiveWorkspacesPath platform probe peer)
    (h : FreeRoot platform pathExists peers path) : FreeRoot platform probe peers' path where
  reclaim := h.reclaim
  shared := h.shared
  peers := by
    intro peer hpeer root hroot
    obtain ⟨hmem, hsame⟩ := heff peer hpeer
    rw [ScmPathPeer.roots, ← hsame] at hroot
    exact h.peers peer hmem root hroot

theorem FreePaths.of_probe (hprobe : KeepsProbe platform probe s e) {excludeId : Option String}
    (id : String) (hid : excludeId = none ∨ excludeId = some id) {paths : ScmPaths}
    (h : FreePaths platform e.pathExists (s.peers.filter fun peer => excludeId ≠ some peer.id) paths) :
    FreePaths platform probe (s.peers.filter fun peer => some id ≠ some peer.id) paths := by
  have heff : ∀ peer ∈ s.peers.filter fun peer => some id ≠ some peer.id,
      peer ∈ s.peers.filter (fun peer => excludeId ≠ some peer.id) ∧
        effectiveWorkspacesPath platform e.pathExists peer = effectiveWorkspacesPath platform probe peer := by
    intro peer hpeer
    obtain ⟨hmem, hne⟩ := List.mem_filter.mp hpeer
    obtain ⟨row, hrow, rfl⟩ := List.mem_map.mp hmem
    refine ⟨List.mem_filter.mpr ⟨hmem, ?_⟩, hprobe.effective hrow⟩
    rcases hid with rfl | rfl
    · rfl
    · exact hne
  exact ⟨h.localPath.of_probe heff, h.wsRoot.of_probe heff, h.own, h.managed⟩

variable {id : String}

theorem mem_setPaths {f : ScmSource → String × Option String} {row' : ScmSource}
    (h : row' ∈ (s.setPaths id f).sources.rows) :
    ∃ row ∈ s.sources.rows, (row.id ≠ id ∧ row' = row) ∨
      (row.id = id ∧ row' = { row with localPath := (f row).1, workspacesPath := (f row).2 }) := by
  obtain ⟨row, hrow, heq⟩ := List.mem_map.mp h
  refine ⟨row, hrow, ?_⟩
  by_cases hid : row.id = id
  · rw [if_pos (decide_eq_true hid)] at heq
    exact .inr ⟨hid, heq.symm⟩
  · rw [if_neg (by simp [hid])] at heq
    exact .inl ⟨hid, heq.symm⟩

theorem Inv.setPaths (h : Inv platform probe s) {f : ScmSource → String × Option String}
    {paths : ScmPaths}
    (hfree : FreePaths platform probe (s.peers.filter fun peer => some id ≠ some peer.id) paths)
    (hf : ∀ row ∈ s.sources.rows, row.id = id → (f row).1 = paths.localPath ∧
      ((f row).2.getD (defaultWorkspacesPath platform probe id) = paths.wsRoot) ∧
      ((f row).2 = none → row.workspacesPath = none)) :
    Inv platform probe (s.setPaths id f) where
  disjoint := by
    refine h.disjoint.put hfree ?_
    intro row' hrow'
    obtain ⟨row, hrow, ⟨hne, rfl⟩ | ⟨hid, rfl⟩⟩ := mem_setPaths hrow'
    · exact .inl ⟨hrow, hne⟩
    · obtain ⟨hlocal, hws, -⟩ := hf row hrow hid
      refine .inr ⟨hid, hlocal, ?_⟩
      rw [← hid] at hws
      exact hws
  requests := by
    refine h.requests_of ?_
    intro row' hrow' hnone
    obtain ⟨row, hrow, ⟨-, rfl⟩ | ⟨hid, rfl⟩⟩ := mem_setPaths hrow'
    · exact ⟨row', hrow, rfl, hnone⟩
    · exact ⟨row, hrow, rfl, (hf row hrow hid).2.2 hnone⟩

theorem create_inv {id name : String} {type : ScmSourceType}
    {localPath workspacesPath : Option String} {isAdmin : Bool} (hprobe : KeepsProbe platform probe s e)
    (h : Inv platform probe s)
    (hstep : create platform e.pathExists s id name type localPath workspacesPath isAdmin = some s') :
    Inv platform probe s' := by
  unfold create at hstep
  dsimp only at hstep
  split at hstep
  · cases hstep
  rename_i paths hplan
  obtain ⟨sources, hins, rfl⟩ := Option.map_eq_some_iff.mp hstep
  obtain ⟨-, -, hfree⟩ := plan_ok hplan
  have hfree' := FreePaths.of_probe hprobe id (.inl rfl) hfree
  have hfresh : ∀ row ∈ s.sources.rows, row.id ≠ id := by
    intro row hrow hid
    have hfind : s.sources.find? id = some row := Table.find?_eq_some_iff.mpr ⟨hrow, hid⟩
    have hfree : s.sources.find? id = none := Table.find?_key_of_insert hins
    rw [hfind] at hfree
    cases hfree
  constructor
  · refine h.disjoint.put hfree' ?_
    intro row hrow
    rw [Table.rows_insert hins] at hrow
    rcases List.mem_append.mp hrow with hrow | hrow
    · exact .inl ⟨hrow, hfresh row hrow⟩
    · rw [List.mem_singleton] at hrow
      subst hrow
      exact .inr ⟨rfl, rfl, rfl⟩
  · refine h.requests_of ?_
    intro row hrow hnone
    rw [Table.rows_insert hins] at hrow
    rcases List.mem_append.mp hrow with hrow | hrow
    · exact ⟨row, hrow, rfl, hnone⟩
    · rw [List.mem_singleton] at hrow
      subst hrow
      cases hnone

theorem patch_inv {existing : ScmSource} {localPath : Option String}
    {workspacesPath : Option (Option String)} {isAdmin : Bool} (hprobe : KeepsProbe platform probe s e)
    (h : Inv platform probe s) (hreq : existing ∈ s.requests)
    (hstep : patch platform e.pathExists s existing localPath workspacesPath isAdmin = some s') :
    Inv platform probe s' := by
  unfold patch at hstep
  dsimp only at hstep
  split at hstep
  · cases hstep
  rename_i paths hplan
  cases hstep
  obtain ⟨hlocal, hws, hfree⟩ := plan_ok hplan
  refine h.setPaths (FreePaths.of_probe hprobe existing.id (.inr rfl) hfree) ?_
  intro row hrow hid
  have hfind : s.sources.find? existing.id = some row := Table.find?_eq_some_iff.mpr ⟨hrow, hid⟩
  -- the locked row decides: a snapshot with a stored root implies that the row stores one too
  have hstored : (row.workspacesPath).or existing.workspacesPath = row.workspacesPath := by
    cases hnone : row.workspacesPath with
    | some path => rfl
    | none =>
      by_contra hsome
      exact h.requests existing hreq hsome row hfind hnone
  simp only [hfind, Option.map_some, Option.bind_some, Option.getD_some, hstored] at hlocal hws
  refine ⟨hlocal.symm, ?_, ?_⟩
  · cases hpatch : workspacesPath with
    | some path => rfl
    | none =>
      rw [hpatch, Option.getD_none] at hws
      rw [hws]
      have heff := hprobe.effective hrow
      rw [effectiveWorkspacesPath, effectiveWorkspacesPath, hid] at heff
      exact heff.symm
  · cases workspacesPath with
    | some path => exact fun hnone => by cases hnone
    | none => exact id

theorem bootstrap_inv {existing : ScmSource} {localPath : Option String}
    (hprobe : KeepsProbe platform probe s e) (h : Inv platform probe s)
    (hstep : bootstrap platform e.pathExists s existing localPath = some s') : Inv platform probe s' := by
  unfold bootstrap at hstep
  dsimp only at hstep
  split at hstep
  · cases hstep
  rename_i paths hplan
  cases hstep
  obtain ⟨-, -, hfree⟩ := plan_ok hplan
  refine h.setPaths (FreePaths.of_probe hprobe existing.id (.inr rfl) hfree) ?_
  intro row hrow hid
  exact ⟨rfl, rfl, fun hnone => by cases hnone⟩

theorem backfill_inv (hprobe : KeepsProbe platform probe s e)
    (h : Inv platform probe s) : Inv platform probe (backfill platform e.pathExists s id) where
  disjoint := by
    refine h.disjoint.of_roots ?_
    intro row' hrow'
    obtain ⟨row, hrow, ⟨-, rfl⟩ | ⟨-, rfl⟩⟩ := mem_setPaths hrow'
    · exact ⟨row', hrow, rfl, rfl, rfl⟩
    · exact ⟨row, hrow, rfl, rfl, (hprobe.effective hrow).symm⟩
  requests := by
    refine h.requests_of ?_
    intro row' hrow' hnone
    obtain ⟨row, hrow, ⟨-, rfl⟩ | ⟨-, rfl⟩⟩ := mem_setPaths hrow'
    · exact ⟨row', hrow, rfl, hnone⟩
    · cases hnone

theorem delete_inv (h : Inv platform probe s) :
    Inv platform probe { s with sources := s.sources.deleteWhere fun row => row.id = id } where
  disjoint := h.disjoint.of_roots fun row hrow => ⟨row, List.mem_of_mem_filter hrow, rfl, rfl, rfl⟩
  requests := h.requests_of fun row hrow hnone => ⟨row, List.mem_of_mem_filter hrow, rfl, hnone⟩

theorem readPatch_inv {row : ScmSource} (h : Inv platform probe s)
    (hrow : s.sources.find? id = some row) :
    Inv platform probe { s with requests := s.requests ++ [row] } where
  disjoint := h.disjoint
  requests := by
    intro request hreq hsome row' hrow'
    rcases List.mem_append.mp hreq with hreq | hreq
    · exact h.requests request hreq hsome row' hrow'
    · rw [List.mem_singleton] at hreq
      subst hreq
      have hid : request.id = id := Table.find?_some_key hrow
      have hfind : s.sources.find? request.id = some row' := hrow'
      rw [hid, hrow] at hfind
      cases hfind
      exact hsome

theorem step_inv (hprobe : KeepsProbe platform probe s e) (h : Inv platform probe s)
    (hstep : step platform s e = some s') : Inv platform probe s' := by
  unfold step at hstep
  cases hop : e.operation with
  | create id name type localPath workspacesPath isAdmin =>
    rw [hop] at hstep
    exact create_inv hprobe h hstep
  | readPatch id =>
    rw [hop] at hstep
    obtain ⟨row, hrow, rfl⟩ := Option.map_eq_some_iff.mp hstep
    exact readPatch_inv h hrow
  | patch request localPath workspacesPath isAdmin =>
    rw [hop] at hstep
    obtain ⟨existing, hreq, hpatch⟩ := Option.bind_eq_some_iff.mp hstep
    exact patch_inv hprobe h (List.mem_of_getElem? hreq) hpatch
  | bootstrap id localPath =>
    rw [hop] at hstep
    obtain ⟨existing, -, hboot⟩ := Option.bind_eq_some_iff.mp hstep
    exact bootstrap_inv hprobe h hboot
  | backfill id =>
    rw [hop] at hstep
    cases hstep
    exact backfill_inv hprobe h
  | delete id =>
    rw [hop] at hstep
    cases hstep
    exact delete_inv h

end Steps

theorem scm_roots_stay_disjoint (platform : Platform) (probe : String → Bool) {sources : Table ScmSource}
    {es : List Event} {s : State}
    (h : Runs (step platform) (KeepsProbe platform probe) ⟨sources, []⟩ es s)
    (h0 : RootsDisjoint platform probe sources) : RootsDisjoint platform probe s.sources := by
  have hstart : Inv platform probe ⟨sources, []⟩ :=
    ⟨h0, fun request hreq => absurd hreq List.not_mem_nil⟩
  exact (h.invariant (I := Inv platform probe) (fun _ _ _ hok hI hs => step_inv hok hI hs) hstart).disjoint

def posix : Platform where
  SCM_STORAGE_ROOT := "/data/a2wave"
  homedir := "/home/a2wave"
  absolute := by decide
  unlinked := fun _ _ => rfl

def nowhere : String → Bool := fun _ => false

def edits : List Event :=
  [⟨.create "scm_a" "docs" .git none none false, nowhere⟩,
    ⟨.create "scm_b" "game" .p4 (some "/depot/game") (some "/data/a2wave/workspaces/game") false, nowhere⟩,
    ⟨.readPatch "scm_b", nowhere⟩, ⟨.patch 0 (some "/depot/main") none false, nowhere⟩]

theorem scm_roots_stay_disjoint_edits : ∃ s, run (step posix) ⟨.empty, []⟩ edits = some s ∧
      (s.sources.find? "scm_a").map (·.localPath) = some "/data/a2wave/sources/a" ∧
      (s.sources.find? "scm_b").map (·.localPath) = some "/depot/main" ∧
      RootsDisjoint posix nowhere s.sources := by
  have hempty : RootsDisjoint posix nowhere .empty := by
    constructor <;> exact fun row hrow => absurd hrow List.not_mem_nil
  have hrun : Runs (step posix) (KeepsProbe posix nowhere) ⟨.empty, []⟩ edits _ := .of_guarded rfl
  exact ⟨_, hrun.toRun, by decide +kernel, by decide +kernel, scm_roots_stay_disjoint posix nowhere hrun hempty⟩

theorem scm_roots_overlap_shared_root :
    (∃ s, run (step posix) ⟨.empty, []⟩ [⟨.create "scm_a" "docs" .git none none false, nowhere⟩] = some s ∧
      ∃ row ∈ s.sources.rows, ∃ sharedRoot ∈ getSharedStorageRoots posix,
        filesystemPathsOverlap posix row.localPath sharedRoot = true) ∧
    ∃ s, run (step posix) ⟨⟨[⟨⟨"scm_old", "old", "/depot/old", none⟩, .p4⟩], by decide⟩, []⟩
        [⟨.create "scm_b" "game" .p4 (some "/depot/game") (some "/home/a2wave/.a2wave/workspaces/old") false,
          nowhere⟩] = some s ∧
      ∃ row ∈ s.sources.rows, ∃ row' ∈ s.sources.rows, row.id ≠ row'.id ∧ filesystemPathsOverlap posix
          (effectiveWorkspacesPath posix (fun _ => true) row.toScmPathPeer)
          (effectiveWorkspacesPath posix (fun _ => true) row'.toScmPathPeer) = true := by
  constructor
  · exact exists_of_run_any (by decide +kernel)
  · exact exists_of_run_any (by decide +kernel)

end A2Wave.PathPlan
