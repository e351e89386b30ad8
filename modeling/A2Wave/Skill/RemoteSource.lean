import A2Wave.Skill.Storage

/-! The comparison and the merge of `lib/remote-skill-source.ts`, and how `routes/skills.ts` applies
them to an installed skill.  A download is a function of what is asked for. -/

namespace A2Wave.RemoteSkill

open SkillStorage

structure RemoteSkillSource where
  catalog : Option String := none
  inputUrl : String
  repository : String
  repositoryUrl : String
  requestedRef : String
  path : String
  revision : String
  digest : String
  deriving DecidableEq

structure RemoteSkillPackage where
  path : String
  digest : String
  files : List SkillStorageFile

structure RemoteSkillInspection where
  catalog : Option String := none
  inputUrl : String
  repository : String
  repositoryUrl : String
  requestedRef : String
  revision : String

structure RemoteSkillBundle where
  inspection : RemoteSkillInspection
  packages : List RemoteSkillPackage

inductive RemoteSkillErrorCode
  | invalidUrl
  | notFound
  | limitExceeded
  | upstreamError
  deriving DecidableEq

inductive Thrown
  | remote (code : RemoteSkillErrorCode) (message : String)
  | error (message : String)
  deriving DecidableEq

inductive RemoteSkillUpdateStrategy
  | abort
  | preserveLocal
  | overwrite
  deriving DecidableEq

inductive RemoteSkillFileChangeKind
  | added
  | deleted
  | modified
  deriving DecidableEq

structure RemoteSkillFileDiff where
  path : String
  localChange : Option RemoteSkillFileChangeKind
  remoteChange : Option RemoteSkillFileChangeKind
  conflict : Bool
  deriving DecidableEq

structure SkillRow where
  userId : Option String := none
  name : String
  description : Option String := none
  content : Option String := none
  storagePath : Option String := none
  groupId : Option String := none
  sharedWithAll : Bool := false
  remoteSource : Option RemoteSkillSource := none
  sourceDirty : Bool := false
  deriving DecidableEq

/-- `if (skill.storagePath)`. -/
def SkillRow.stored (row : SkillRow) : Bool := row.storagePath.any (· ≠ "")

structure RemoteSkillUpdateCheck where
  source : RemoteSkillSource
  latestRevision : String
  localDigest : String
  latestDigest : String
  updateAvailable : Bool
  sourceDirty : Bool
  files : List RemoteSkillFileDiff
  conflicts : List String

/-- The order of texts, SHA-256 in hexadecimal, and `loadRemoteSkillBundle`. -/
structure Remote where
  localeCompare : String → String → Ordering
  sha256 : Buffer → String
  loadRemoteSkillBundle : String → Option String → String → Except Thrown RemoteSkillBundle

section Functions

variable (host : SkillHost) (remote : Remote)

def sortPaths (paths : List String) : List String :=
  paths.mergeSort fun a b => remote.localeCompare a b ≠ .gt

def sortFiles (files : List SkillStorageFile) : List SkillStorageFile :=
  files.mergeSort fun a b => remote.localeCompare a.path b.path ≠ .gt

def calculateRemoteSkillDigest (files : List SkillStorageFile) : String :=
  "sha256:" ++ remote.sha256 ((sortFiles remote files).flatMap fun file =>
    utf8Bytes file.path ++ [0] ++ file.content ++ [0])

/-- `fileMap(files).get(path)`: the last file of a path counts. -/
def fileAt (files : List SkillStorageFile) (path : String) : Option Buffer :=
  (files.reverse.find? fun file => file.path = path).map SkillStorageFile.content

def changeKind (base current : Option Buffer) : Option RemoteSkillFileChangeKind :=
  if base = current then none
  else if base.isNone then some .added
  else if current.isNone then some .deleted
  else some .modified

def allPaths (base loc latest : List SkillStorageFile) : List String :=
  sortPaths remote ((base ++ loc ++ latest).map SkillStorageFile.path).eraseDups

def compareRemoteSkillFiles (base loc latest : List SkillStorageFile) : List RemoteSkillFileDiff :=
  (allPaths remote base loc latest).filterMap fun path =>
    let localChange := changeKind (fileAt base path) (fileAt loc path)
    let remoteChange := changeKind (fileAt base path) (fileAt latest path)
    if localChange.isNone ∧ remoteChange.isNone then none
    else some
      { path := path, localChange := localChange, remoteChange := remoteChange
        conflict := localChange.isSome && remoteChange.isSome && fileAt loc path ≠ fileAt latest path }

def selectFile (base loc latest : List SkillStorageFile) (strategy : RemoteSkillUpdateStrategy) (path : String) :
    Except Thrown (Option Buffer) :=
  if strategy = .overwrite ∨ fileAt loc path = fileAt base path then .ok (fileAt latest path)
  else if fileAt latest path = fileAt base path ∨ fileAt loc path = fileAt latest path then
    .ok (fileAt loc path)
  else if strategy = .preserveLocal then .ok (fileAt loc path)
  else .error (.remote .invalidUrl ("Remote Skill update conflicts at " ++ path))

structure Merged where
  files : List SkillStorageFile
  preservedLocalChanges : Bool

def mergeRemoteSkillFiles (base loc latest : List SkillStorageFile) (strategy : RemoteSkillUpdateStrategy) :
    Except Thrown Merged :=
  ((allPaths remote base loc latest).mapM fun path =>
    (selectFile base loc latest strategy path).map fun selected =>
      selected.map fun content => (⟨path, content⟩ : SkillStorageFile)).map fun selected =>
    let merged := selected.filterMap id
    { files := merged
      preservedLocalChanges :=
        calculateRemoteSkillDigest remote merged ≠ calculateRemoteSkillDigest remote latest }

def buildRemoteSkillSource (inspection : RemoteSkillInspection) (candidate : RemoteSkillPackage) :
    RemoteSkillSource :=
  { catalog := inspection.catalog, inputUrl := inspection.inputUrl, repository := inspection.repository
    repositoryUrl := inspection.repositoryUrl
    requestedRef := inspection.requestedRef
    path := candidate.path
    revision := inspection.revision
    digest := candidate.digest }

def readAllSkillFiles (disk : Option Dir) : List SkillStorageFile :=
  match disk with
  | none => []
  | some dir => sortFiles remote (dir.nodes.filterMap fun (path, node) =>
      match node with
      | .directory => none
      | .file content => some ⟨String.ofList (['/'].intercalate path), content⟩)

def findRemotePackage (packages : List RemoteSkillPackage) (path : String) : Except Thrown RemoteSkillPackage :=
  match packages.find? fun item => item.path = path with
  | some candidate => .ok candidate
  | none => .error (.remote .notFound ("Remote Skill no longer exists at " ++ path))

def thrown {α : Type} : Except String α → Except Thrown α
  | .error message => .error (.error message)
  | .ok a => .ok a

def applyDatabaseMetadataToLocalFiles (files : List SkillStorageFile) (skill : SkillRow) :
    Except String (List SkillStorageFile) :=
  match files.find? fun file => file.path = "SKILL.md" with
  | none => .ok files
  | some skillMd => do
    let stored ← parseSkillMd host (utf8Text skillMd.content)
    if stored.name = skill.name ∧ stored.description = skill.description ∧
        stored.body = skill.content.getD "" then .ok files
    else
      let document ← host.matter (utf8Text skillMd.content)
      let named := (document.data.erase "description").set "name" (.str skill.name)
      let metadata := match skill.description with
        | none => named
        | some description => named.set "description" (.str description)
      let content ← host.stringify (skill.content.getD "") metadata
      .ok (files.map fun file =>
        if file.path = "SKILL.md" then { file with content := utf8Bytes content } else file)

structure InstalledRemoteSkill where
  check : RemoteSkillUpdateCheck
  basePackage : RemoteSkillPackage
  latestBundle : RemoteSkillBundle
  latestPackage : RemoteSkillPackage
  localFiles : List SkillStorageFile

def loadBundles (source : RemoteSkillSource) :
    Except Thrown (RemoteSkillBundle × RemoteSkillPackage × RemoteSkillPackage) := do
  let latestBundle ← remote.loadRemoteSkillBundle source.inputUrl none source.requestedRef
  let latestPackage ← findRemotePackage latestBundle.packages source.path
  let baseBundle ←
    if latestBundle.inspection.revision = source.revision then .ok latestBundle
    else remote.loadRemoteSkillBundle source.inputUrl (some source.revision) source.requestedRef
  let basePackage ← findRemotePackage baseBundle.packages source.path
  .ok (latestBundle, latestPackage, basePackage)

def compareInstalled (skill : SkillRow) (source : RemoteSkillSource) (latestBundle : RemoteSkillBundle)
    (latestPackage basePackage : RemoteSkillPackage) (disk : Option Dir) : Except Thrown InstalledRemoteSkill :=
  (thrown (applyDatabaseMetadataToLocalFiles host (readAllSkillFiles remote disk) skill)).map fun localFiles =>
    let localDigest := calculateRemoteSkillDigest remote localFiles
    let files := compareRemoteSkillFiles remote basePackage.files localFiles latestPackage.files
    { check :=
        { source := source, latestRevision := latestBundle.inspection.revision, localDigest := localDigest
          latestDigest := latestPackage.digest
          updateAvailable := latestBundle.inspection.revision ≠ source.revision ||
            latestPackage.digest ≠ source.digest
          sourceDirty := skill.sourceDirty || localDigest ≠ source.digest
          files := files
          conflicts := (files.filter RemoteSkillFileDiff.conflict).map RemoteSkillFileDiff.path }
      basePackage := basePackage
      latestBundle := latestBundle
      latestPackage := latestPackage
      localFiles := localFiles }

/-- `if (!source)` and `if (!skill.storagePath)`. -/
def installedSource (skill : SkillRow) : Except Thrown RemoteSkillSource :=
  match skill.remoteSource with
  | none => .error (.remote .invalidUrl "Skill was not installed from a remote source")
  | some source =>
    if skill.stored then .ok source
    else .error (.remote .notFound "Remote Skill has no local file storage")

def inspectInstalledRemoteSkill (skill : SkillRow) (disk : Option Dir) : Except Thrown InstalledRemoteSkill :=
  (installedSource skill).bind fun source => (loadBundles remote source).bind fun (latest, package, base) =>
    compareInstalled host remote skill source latest package base disk

end Functions

end A2Wave.RemoteSkill
