import A2Wave.A2a.TaskStore
import A2Wave.Lib.Path

/-! `lib/skill-storage.ts`.  Each function acts on what stands in the storage root under one skill id. -/

namespace A2Wave.SkillStorage

abbrev Buffer := List UInt8

abbrev Name := List Char

section Text

structure Utf8 where
  missing : Nat := 0
  bits : Nat := 0
  lower : Nat := 0x80
  upper : Nat := 0xbf

def replacementCharacter : Char := Char.ofNat 0xfffd

def Utf8.lead (b : Nat) : List Char × Utf8 :=
  if b ≤ 0x7f then ([Char.ofNat b], {})
  else if 0xc2 ≤ b ∧ b ≤ 0xdf then ([], { missing := 1, bits := b - 0xc0 })
  else if 0xe0 ≤ b ∧ b ≤ 0xef then
    ([], ⟨2, b - 0xe0, if b = 0xe0 then 0xa0 else 0x80, if b = 0xed then 0x9f else 0xbf⟩)
  else if 0xf0 ≤ b ∧ b ≤ 0xf4 then
    ([], ⟨3, b - 0xf0, if b = 0xf0 then 0x90 else 0x80, if b = 0xf4 then 0x8f else 0xbf⟩)
  else ([replacementCharacter], {})

def Utf8.feed (s : Utf8) (b : Nat) : List Char × Utf8 :=
  if s.missing = 0 then lead b
  else if s.lower ≤ b ∧ b ≤ s.upper then
    let bits := s.bits * 64 + (b - 0x80)
    if s.missing = 1 then ([Char.ofNat bits], {})
    else ([], { missing := s.missing - 1, bits := bits })
  else (replacementCharacter :: (lead b).1, (lead b).2)

def Utf8.decode : Utf8 → Buffer → List Char
  | s, [] => if s.missing = 0 then [] else [replacementCharacter]
  | s, b :: bs => (s.feed b.toNat).1 ++ decode (s.feed b.toNat).2 bs

/-- `buffer.toString('utf-8')`. -/
def utf8Text (buffer : Buffer) : String := String.ofList (Utf8.decode {} buffer)

def utf8Bytes (text : String) : Buffer := text.toByteArray.data.toList

end Text

section Directory

inductive Node
  | directory
  | file (content : Buffer)
  deriving DecidableEq

structure Dir where
  nodes : List (List Name × Node) := []
  deriving DecidableEq

namespace Dir

def node? (dir : Dir) (path : List Name) : Option Node :=
  if path = [] then some .directory else dir.nodes.lookup path

def file? (dir : Dir) (path : List Name) : Option Buffer :=
  match dir.node? path with
  | some (.file content) => some content
  | _ => none

def put (dir : Dir) (path : List Name) (node : Node) : Dir :=
  if (dir.nodes.lookup path).isSome then
    ⟨dir.nodes.map fun entry => if entry.1 = path then (path, node) else entry⟩
  else ⟨dir.nodes ++ [(path, node)]⟩

/-- `ensureDir` for a path and the directories above it. -/
def ensure (dir : Dir) (path : List Name) : Except String Dir :=
  path.inits.foldlM (fun dir p =>
    match dir.node? p with
    | some .directory => .ok dir
    | some (.file _) => .error "ENOTDIR"
    | none => .ok (dir.put p .directory)) dir

end Dir

end Directory

structure Document where
  data : Fields
  content : String

structure ZipEntry where
  entryName : String
  isDirectory : Bool := false
  size : Nat
  getData : Except String Buffer

/-- The packages `gray-matter` and `adm-zip`, and what depends on the machine. -/
structure SkillHost where
  storageRoot : List Name
  acceptsName : Name → Bool := fun _ => true
  matter : String → Except String Document
  stringify : String → Fields → Except String String
  getEntries : Buffer → Except String (List ZipEntry)
  extractAllTo : Buffer → Dir → Except String Unit × Dir

def MAX_SINGLE_FILE_BYTES : Nat := 10 * 1024 * 1024

def MAX_ZIP_UPLOAD_BYTES : Nat := 10 * 1024 * 1024

def MAX_SKILL_TOTAL_UPLOAD_BYTES : Nat := 10 * 1024 * 1024

structure SkillMd where
  name : String
  description : Option String
  body : String
  deriving DecidableEq

structure UploadedFile where
  name : String
  content : Buffer

structure SkillStorageFile where
  path : String
  content : Buffer
  deriving DecidableEq

structure SkillRoot where
  stripPrefix : List Name
  skillMdIndex : Nat

def validateSingleFileSize (size : Nat) : Except String Unit :=
  if size > MAX_SINGLE_FILE_BYTES then .error "A single file must not exceed 10MB" else .ok ()

def validateSkillTotalSize (totalBytes : Nat) : Except String Unit :=
  if totalBytes > MAX_SKILL_TOTAL_UPLOAD_BYTES then
    .error "Total folder upload size exceeds the 10MB limit"
  else .ok ()

def findSkillRoot (paths : List String) : Option SkillRoot :=
  (paths.zipIdx.foldl (fun best (path, i) =>
    let segments := path.toList.splitOn '/'
    let root : SkillRoot := ⟨segments.dropLast, i⟩
    if segments.getLast? ≠ some "SKILL.md".toList then best
    else match best with
      | none => some root
      | some b => if root.stripPrefix.length < b.stripPrefix.length then some root else best) none)

/-- `replace(/\\/g, '/')`. -/
def forwardSlashes (path : List Char) : List Char :=
  path.map fun c => if c = Char.ofNat 92 then '/' else c

/-- `replace(/\/+/g, '/')`. -/
def squeezeSlashes : List Char → List Char
  | [] => []
  | c :: cs => if c = '/' ∧ cs.head? = some '/' then squeezeSlashes cs else c :: squeezeSlashes cs

def hasDots (path : List Char) : Bool := decide (['.', '.'] <:+: path)

section Functions

variable (host : SkillHost)

def parseSkillMd (content : String) : Except String SkillMd :=
  (host.matter content).map fun parsed =>
    { name := match parsed.data.get? "name" with
        | some (.str name) => TaskStore.trim name
        | _ => "Untitled Skill"
      description := match parsed.data.get? "description" with
        | some (.str description) => some (TaskStore.trim description) |>.filter (· ≠ "")
        | _ => none
      body := TaskStore.trim parsed.content }

/-- The segments of the path in reverse, as `Path.pushAll` keeps them. -/
def getSkillStoragePath (skillId : String) : List Name := skillId.toList :: host.storageRoot.reverse

def writeFileSync (dir : Dir) (path : List Name) (content : Buffer) : Except String Dir :=
  if !path.all host.acceptsName then .error "EINVAL"
  else do
    let dir ← dir.ensure path.dropLast
    match dir.node? path with
    | some .directory => .error "EISDIR"
    | _ => .ok (dir.put path (.file content))

def writeIn (dir : Dir) (path : List Name) (content : Buffer) : Except String Unit × Dir :=
  match writeFileSync host dir path content with
  | .error e => (.error e, dir)
  | .ok dir => (.ok (), dir)

def writeSkillMd (content : String) (disk : Option Dir) : Except String Unit × Dir :=
  writeIn host (disk.getD {}) ["SKILL.md".toList] (utf8Bytes content)

def writeSkillFile (skillId filePath : String) (content : Buffer) (disk : Option Dir) : Except String Unit × Dir :=
  let skillDir := getSkillStoragePath host skillId
  let dir := disk.getD {}
  let normalized := match squeezeSlashes (forwardSlashes filePath.toList) with
    | '/' :: rest => rest
    | path => path
  if normalized = [] ∨ hasDots normalized then (.error "Invalid file path", dir)
  else
    let resolvedTarget := Path.pushAll skillDir normalized
    if ¬skillDir <:+ resolvedTarget then (.error "Path traversal not allowed", dir)
    else writeIn host dir (resolvedTarget.reverse.drop skillDir.length) content

def scanEntry (found : Option ZipEntry × Nat) (entry : ZipEntry) : Except String (Option ZipEntry × Nat) :=
  if entry.isDirectory then .ok found
  else
    let totalSize := found.2 + entry.size
    let rawName := entry.entryName.toList
    let segments := (forwardSlashes rawName).splitOn '/'
    if totalSize > MAX_SKILL_TOTAL_UPLOAD_BYTES then
      .error "Uncompressed ZIP size exceeds the 10MB limit"
    else if hasDots (squeezeSlashes (forwardSlashes rawName)) then
      .error ("ZIP contains an illegal path: " ++ entry.entryName)
    else if segments.getLast? ≠ some "SKILL.md".toList then .ok (found.1, totalSize)
    else if segments.head? = some "SKILL.md".toList ∨ '/' ∉ rawName ∨ found.1.isNone then
      .ok (some entry, totalSize)
    else .ok (found.1, totalSize)

def findSkillMdEntry (entries : List ZipEntry) : Except String ZipEntry :=
  match entries.foldlM scanEntry (none, 0) with
  | .error e => .error e
  | .ok (none, _) => .error "No SKILL.md file found in the ZIP archive"
  | .ok (some entry, _) => .ok entry

def findIllegalEntry (skillId : String) (entries : List ZipEntry) : Option ZipEntry :=
  let skillDir := getSkillStoragePath host skillId
  entries.find? fun entry => ¬skillDir <:+ Path.pushAll skillDir (forwardSlashes entry.entryName.toList)

def extractZipToSkill (zipBuffer : Buffer) (skillId : String) (disk : Option Dir) :
    Except String SkillMd × Option Dir :=
  if zipBuffer.length > MAX_ZIP_UPLOAD_BYTES then (.error "ZIP archive must not exceed 10MB", disk)
  else
    match (host.getEntries zipBuffer).bind fun entries => (findSkillMdEntry entries).map fun e => (entries, e) with
    | .error e => (.error e, disk)
    | .ok (entries, skillMdEntry) =>
      match findIllegalEntry host skillId entries with
      | some entry => (.error ("ZIP contains an illegal path: " ++ entry.entryName), some (disk.getD {}))
      | none =>
        let (extracted, dir) := host.extractAllTo zipBuffer (disk.getD {})
        (extracted.bind fun _ => skillMdEntry.getData.bind fun data => parseSkillMd host (utf8Text data), some dir)

/-- The path below the folder of the SKILL.md; `none` for the files that are passed over. -/
def relativePath (root : SkillRoot) (path : String) : Option String :=
  let folder := ['/'].intercalate root.stripPrefix
  let stripPrefix := if folder = [] then [] else folder ++ ['/']
  if ¬stripPrefix <+: path.toList then none
  else some (String.ofList (path.toList.drop stripPrefix.length)) |>.filter (fun p => p ≠ "" ∧ p ≠ "SKILL.md")

def folderFiles (root : SkillRoot) (files : List UploadedFile) (paths : List String) : List SkillStorageFile :=
  (files.zip paths).zipIdx.filterMap fun ((file, path), i) =>
    if i = root.skillMdIndex then none
    else (relativePath root path).map fun relative => ⟨relative, file.content⟩

def writeFolderFiles (skillId : String) : List SkillStorageFile → Nat → Dir → Except String Unit × Dir
  | [], _, dir => (.ok (), dir)
  | file :: files, totalBytes, dir =>
    let total := totalBytes + file.content.length
    match (validateSingleFileSize file.content.length).bind fun _ => validateSkillTotalSize total with
    | .error e => (.error e, dir)
    | .ok () =>
      match writeSkillFile host skillId file.path file.content (some dir) with
      | (.error e, dir) => (.error e, dir)
      | (.ok (), dir) => writeFolderFiles skillId files total dir

/-- The `try` block. -/
def writeFolder (skillId : String) (skillMd : Buffer) (files : List SkillStorageFile) (disk : Option Dir) :
    Except String Dir :=
  match validateSkillTotalSize skillMd.length with
  | .error e => .error e
  | .ok () =>
    match writeSkillMd host (utf8Text skillMd) disk with
    | (.error e, _) => .error e
    | (.ok (), dir) =>
      match writeFolderFiles host skillId files skillMd.length dir with
      | (.error e, _) => .error e
      | (.ok (), dir) => .ok dir

def writeSkillFolder (skillId : String) (files : List UploadedFile) (paths : List String) (disk : Option Dir) :
    Except String SkillMd × Option Dir :=
  if paths.length ≠ files.length then (.error "files and paths have different lengths", disk)
  else
    match findSkillRoot paths with
    | none => (.error "No SKILL.md found in the folder", disk)
    | some root =>
      let skillMd := (files[root.skillMdIndex]?.map UploadedFile.content).getD []
      match (validateSingleFileSize skillMd.length).bind fun _ => parseSkillMd host (utf8Text skillMd) with
      | .error e => (.error e, disk)
      | .ok parsed =>
        match writeFolder host skillId skillMd (folderFiles root files paths) disk with
        | .error e => (.error e, none)
        | .ok dir => (.ok parsed, some dir)

variable {host} {skillId : String} {files : List UploadedFile} {paths : List String}

theorem writeSkillFolder_error {e : String} {disk : Option Dir}
    (h : writeSkillFolder host skillId files paths none = (.error e, disk)) : disk = none := by
  unfold writeSkillFolder at h
  split at h
  · exact (Prod.mk.inj h).2.symm
  split at h
  · exact (Prod.mk.inj h).2.symm
  dsimp only at h
  split at h
  · exact (Prod.mk.inj h).2.symm
  split at h
  · exact (Prod.mk.inj h).2.symm
  · cases h

end Functions

end A2Wave.SkillStorage
