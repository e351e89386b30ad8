import Mathlib.Logic.Function.Basic
import A2Wave.Skill.RemoteSource

/-! The requests of `routes/skills.ts` that replace the files of a skill, each from start to end. -/

namespace A2Wave.SkillReplace

open SkillStorage RemoteSkill

abbrev Storage := String → Option Dir

structure World where
  skills : String → Option SkillRow
  storage : Storage

structure Caller where
  isAdmin : Bool
  userId : String

inductive Response
  | ok (status : Nat)
  | error (status : Nat) (error : String) (code : Option String := none)
  deriving DecidableEq

def Response.isError : Response → Bool
  | .ok _ => false
  | .error .. => true

structure ReuploadForm where
  files : List UploadedFile := []
  paths : List String := []
  file : Option UploadedFile := none

structure UpdateRemoteSkillInput where
  revision : String
  digest : String
  strategy : RemoteSkillUpdateStrategy := .abort

structure Temporaries where
  temp : String
  backup : String

def makeTempSkillId (skillId random : String) : String := skillId ++ "_tmp_" ++ random

namespace Storage

def put (s : Storage) (id : String) (disk : Option Dir) : Storage := Function.update s id disk

def removeSkillStorage (s : Storage) (id : String) : Storage := s.put id none

/-- `renameSync` onto a name that is free. -/
def rename (s : Storage) (source target : String) : Storage := (s.put target (s source)).put source none

end Storage

namespace World

def getWritableSkill (w : World) (caller : Caller) (id : String) : Option SkillRow :=
  (w.skills id).filter fun row => caller.isAdmin || row.userId = some caller.userId

def update (w : World) (id : String) (set : SkillRow → SkillRow) : World :=
  { w with skills := Function.update w.skills id ((w.skills id).map set) }

end World

structure SkillStorageSwap where
  skillId : String
  backupId : String
  hadOriginal : Bool

namespace SkillStorageSwap

def commit (swap : SkillStorageSwap) (s : Storage) : Storage := s.removeSkillStorage swap.backupId

def rollback (swap : SkillStorageSwap) (s : Storage) : Storage :=
  let s := s.removeSkillStorage swap.skillId
  if swap.hadOriginal && (s swap.backupId).isSome then s.rename swap.backupId swap.skillId
  else s.removeSkillStorage swap.backupId

end SkillStorageSwap

def remoteSkillErrorResponse : Thrown → Response
  | .error message => .error 500 message
  | .remote code message =>
    match code with
    | .notFound => .error 404 message (some "not_found")
    | .limitExceeded => .error 413 message (some "limit_exceeded")
    | .upstreamError => .error 502 message (some "upstream_error")
    | .invalidUrl => .error 400 message (some "invalid_url")

/-- `.set({...})` of a reupload. -/
def reuploaded (existing : SkillRow) (id : String) (parsed : SkillMd) (row : SkillRow) : SkillRow :=
  { row with
    name := parsed.name
    description := parsed.description
    content := some parsed.body
    storagePath := some id
    sourceDirty := existing.remoteSource.isSome || existing.sourceDirty }

/-- The update that follows the files of `/:id/files/upload`. -/
def uploaded (skill : SkillRow) (id : String) (row : SkillRow) : SkillRow :=
  if !skill.stored then
    { row with storagePath := some id, sourceDirty := skill.remoteSource.isSome || skill.sourceDirty }
  else if skill.remoteSource.isSome then { row with sourceDirty := true }
  else row

structure RemoteUpdate where
  files : List SkillStorageFile
  metadata : SkillMd
  remoteSource : RemoteSkillSource
  preservedLocalChanges : Bool

def remoteUpdated (id : String) (u : RemoteUpdate) (row : SkillRow) : SkillRow :=
  { row with
    name := u.metadata.name
    description := u.metadata.description
    content := some u.metadata.body
    storagePath := some id
    remoteSource := some u.remoteSource
    sourceDirty := u.preservedLocalChanges }

def uploads (files : List UploadedFile) (paths : List String) : List SkillStorageFile :=
  files.zipIdx.map fun (file, index) =>
    ⟨((paths[index]?.map TaskStore.trim).filter (· ≠ "")).getD file.name, file.content⟩

def hasExtension (extension : String) (file : UploadedFile) : Bool :=
  decide (extension.toList <:+ file.name.toList.map Char.toLower)

section Requests

variable (host : SkillHost) (remote : Remote)

def writeUploads (skillId : String) : List SkillStorageFile → Option Dir → Except String Unit × Option Dir
  | [], disk => (.ok (), disk)
  | file :: files, disk =>
    match validateSingleFileSize file.content.length with
    | .error e => (.error e, disk)
    | .ok () =>
      match writeSkillFile host skillId file.path file.content disk with
      | (.error e, dir) => (.error e, some dir)
      | (.ok (), dir) => writeUploads skillId files (some dir)

def writeSingleFile (skillId : String) (file : UploadedFile) (disk : Option Dir) :
    Except String SkillMd × Option Dir :=
  if hasExtension ".md" file then
    let content := utf8Text file.content
    match parseSkillMd host content with
    | .error e => (.error e, disk)
    | .ok parsed =>
      match writeSkillMd host content disk with
      | (.error e, dir) => (.error e, some dir)
      | (.ok (), dir) => (.ok parsed, some dir)
  else if hasExtension ".zip" file then extractZipToSkill host file.content skillId disk
  else (.error "Only .md or .zip files are supported", disk)

def replaceSkillFolder (skillId : String) (files : List UploadedFile) (paths : List String) (random : String)
    (s : Storage) : Except String SkillMd × Storage :=
  let tempId := makeTempSkillId skillId random
  match writeSkillFolder host tempId files paths (s tempId) with
  | (.error e, disk) => (.error e, s.put tempId disk)
  | (.ok parsed, disk) =>
    (.ok parsed, ((s.put tempId disk).removeSkillStorage skillId).rename tempId skillId)

/-- The files of a remote update in the temporary directory; `seen` are the paths before them. -/
def stageFiles (tempId : String) : List SkillStorageFile → List String → Nat → Option Dir → Except String (Option Dir)
  | [], seen, _, disk =>
    if "SKILL.md" ∈ seen then .ok disk else .error "Remote Skill package does not contain SKILL.md"
  | file :: files, seen, totalBytes, disk =>
    let total := totalBytes + file.content.length
    if file.path ∈ seen then .error ("Duplicate Skill file path: " ++ file.path)
    else
      match (validateSingleFileSize file.content.length).bind fun _ => validateSkillTotalSize total with
      | .error e => .error e
      | .ok () =>
        match writeSkillFile host tempId file.path file.content disk with
        | (.error e, _) => .error e
        | (.ok (), dir) => stageFiles tempId files (file.path :: seen) total (some dir)

def replaceSkillFilesWithRollback (skillId : String) (files : List SkillStorageFile) (t : Temporaries)
    (s : Storage) : Except String SkillStorageSwap × Storage :=
  let tempId := makeTempSkillId skillId t.temp
  let backupId := makeTempSkillId (skillId ++ "_backup") t.backup
  match stageFiles host tempId files [] 0 (s tempId) with
  | .error e => (.error e, s.removeSkillStorage tempId)
  | .ok disk =>
    let s := s.put tempId disk
    let hadOriginal := (s skillId).isSome
    let s := if hadOriginal then s.rename skillId backupId else s
    (.ok ⟨skillId, backupId, hadOriginal⟩, s.rename tempId skillId)

/-- `POST /:id/reupload`. -/
def reupload (caller : Caller) (id : String) (form : ReuploadForm) (t : Temporaries) (w : World) : Response × World :=
  match w.getWritableSkill caller id with
  | none => (.error 404 "Skill not found", w)
  | some existing =>
    if form.files ≠ [] then
      match replaceSkillFolder host id form.files form.paths t.temp w.storage with
      | (.error e, storage) => (.error 400 e, { w with storage := storage })
      | (.ok parsed, storage) => (.ok 200, { w with storage := storage }.update id (reuploaded existing id parsed))
    else
      match form.file with
      | none => (.error 400 "Upload either a file field (.md / .zip) or files[] + paths[] (a folder)", w)
      | some file =>
        match validateSingleFileSize file.content.length with
        | .error e => (.error 400 e, w)
        | .ok () =>
          let cleared := if existing.stored then w.storage.removeSkillStorage id else w.storage
          match writeSingleFile host id file (cleared id) with
          | (.error e, disk) => (.error 400 e, { w with storage := cleared.put id disk })
          | (.ok parsed, disk) =>
            (.ok 200, { w with storage := cleared.put id disk }.update id (reuploaded existing id parsed))

/-- `POST /:id/files/upload`. -/
def filesUpload (caller : Caller) (id : String) (replace : Bool) (files : List UploadedFile) (paths : List String)
    (t : Temporaries) (w : World) : Response × World :=
  match w.getWritableSkill caller id with
  | none => (.error 404 "Skill not found", w)
  | some skill =>
    if files = [] then (.error 400 "Upload at least one file (files)", w)
    else if replace && skill.stored then
      let tempId := makeTempSkillId id t.temp
      match writeUploads host tempId (uploads files paths) (w.storage tempId) with
      | (.error e, disk) => (.error 400 e, { w with storage := w.storage.put tempId disk })
      | (.ok (), disk) =>
        (.ok 201, { w with
          storage := ((w.storage.put tempId disk).removeSkillStorage id).rename tempId id }.update id
            (uploaded skill id))
    else
      match writeUploads host id (uploads files paths) (w.storage id) with
      | (.error e, disk) => (.error 400 e, { w with storage := w.storage.put id disk })
      | (.ok (), disk) => (.ok 201, { w with storage := w.storage.put id disk }.update id (uploaded skill id))

def decideRemoteUpdate (data : UpdateRemoteSkillInput) (current : SkillRow) (disk : Option Dir) :
    Except Response RemoteUpdate :=
  match inspectInstalledRemoteSkill host remote current disk with
  | .error e => .error (remoteSkillErrorResponse e)
  | .ok i =>
    if i.check.latestRevision ≠ data.revision ∨ i.check.latestDigest ≠ data.digest then
      .error (.error 409 "Remote Skill changed after inspection; check for updates again" (some "remote_changed"))
    else if i.check.conflicts ≠ [] ∧ data.strategy = .abort then
      .error (.error 409 "Remote Skill update conflicts with local changes" (some "remote_conflict"))
    else
      match mergeRemoteSkillFiles remote i.basePackage.files i.localFiles i.latestPackage.files data.strategy with
      | .error e => .error (remoteSkillErrorResponse e)
      | .ok merged =>
        match merged.files.find? fun file => file.path = "SKILL.md" with
        | none => .error (remoteSkillErrorResponse (.remote .invalidUrl "Updated Skill package has no SKILL.md"))
        | some skillMd =>
          match parseSkillMd host (utf8Text skillMd.content) with
          | .error e => .error (remoteSkillErrorResponse (.error e))
          | .ok metadata => .ok
            ⟨merged.files, metadata, buildRemoteSkillSource i.latestBundle.inspection i.latestPackage,
              merged.preservedLocalChanges⟩

/-- `POST /:id/remote/update`; `failure` is what the transaction throws. -/
def remoteUpdate (caller : Caller) (id : String) (body : Except String UpdateRemoteSkillInput)
    (failure : Option String) (t : Temporaries) (w : World) : Response × World :=
  match body with
  | .error e => (.error 400 e, w)
  | .ok data =>
    match w.getWritableSkill caller id with
    | none => (.error 404 "Skill not found", w)
    | some current =>
      match decideRemoteUpdate host remote data current (w.storage id) with
      | .error response => (response, w)
      | .ok u =>
        match replaceSkillFilesWithRollback host id u.files t w.storage with
        | (.error e, storage) => (remoteSkillErrorResponse (.error e), { w with storage := storage })
        | (.ok swap, storage) =>
          match failure with
          | some e => (remoteSkillErrorResponse (.error e), { w with storage := swap.rollback storage })
          | none => (.ok 200, { w with storage := swap.commit storage }.update id (remoteUpdated id u))

inductive Replacement
  | reupload (form : ReuploadForm)
  | upload (files : List UploadedFile) (paths : List String)
  | remoteUpdate (body : Except String UpdateRemoteSkillInput) (failure : Option String)

def serve (caller : Caller) (id : String) (t : Temporaries) (w : World) : Replacement → Response × World
  | .reupload form => reupload host caller id form t w
  | .upload files paths => filesUpload host caller id true files paths t w
  | .remoteUpdate body failure => remoteUpdate host remote caller id body failure t w

end Requests

structure LeftAsItWas (id : String) (w w' : World) : Prop where
  row : w'.skills id = w.skills id
  files : ∀ path, (w'.storage id).bind (·.file? path) = (w.storage id).bind (·.file? path)
  temporaries : ∀ k, k ≠ id → w'.storage k = w.storage k

def UnpacksTo (host : SkillHost) (id : String) (file : UploadedFile) (dir : Dir) : Prop :=
  hasExtension ".md" file = false ∧ hasExtension ".zip" file = true ∧
    ∃ entries skillMd, host.getEntries file.content = .ok entries ∧ findSkillMdEntry entries = .ok skillMd ∧
      findIllegalEntry host id entries = none ∧
      ∀ path, (host.extractAllTo file.content {}).2.file? path = dir.file? path

def Spares (host : SkillHost) (id : String) (dir : Dir) : Replacement → Prop
  | .reupload form => form.files ≠ [] ∨ ∀ file, form.file = some file →
      MAX_SINGLE_FILE_BYTES < file.content.length ∨ UnpacksTo host id file dir
  | .upload files _ => ∀ file, files.head? = some file → MAX_SINGLE_FILE_BYTES < file.content.length
  | .remoteUpdate _ _ => True

section Lemmas

variable {host : SkillHost} {remote : Remote} {s s' : Storage} {id e : String} {t : Temporaries} {w : World}
  {dir : Dir} {disk : Option Dir}

theorem makeTempSkillId_ne (id random : String) : makeTempSkillId id random ≠ id := by
  intro h
  have hlength := congrArg String.length h
  simp only [makeTempSkillId, String.length_append] at hlength
  have htmp : "_tmp_".length = 5 := rfl
  omega

theorem backupId_ne (id random : String) : makeTempSkillId (id ++ "_backup") random ≠ id := by
  intro h
  have hlength := congrArg String.length h
  simp only [makeTempSkillId, String.length_append] at hlength
  have htmp : "_tmp_".length = 5 := rfl
  omega

theorem tempId_ne_backupId (id : String) (t : Temporaries) :
    makeTempSkillId id t.temp ≠ makeTempSkillId (id ++ "_backup") t.backup := by
  intro h
  have hlist := congrArg String.toList h
  simp only [makeTempSkillId, String.toList_append, List.append_assoc, List.append_cancel_left_eq] at hlist
  have hsecond := congrArg (fun l : List Char => l[1]?) hlist
  simp at hsecond

theorem put_self (h : s id = disk) : s.put id disk = s := by
  subst h
  exact Function.update_eq_self id s

theorem put_at (s : Storage) (id : String) (disk : Option Dir) : s.put id disk id = disk := Function.update_self ..

theorem LeftAsItWas.refl : LeftAsItWas id w w := ⟨rfl, fun _ => rfl, fun _ _ => rfl⟩

theorem replaceSkillFolder_error {files : List UploadedFile} {paths : List String} {random : String}
    (hfree : s (makeTempSkillId id random) = none)
    (h : replaceSkillFolder host id files paths random s = (.error e, s')) : s' = s := by
  unfold replaceSkillFolder at h
  dsimp only at h
  rw [hfree] at h
  split at h
  · rename_i disk hwrite
    cases h
    rw [writeSkillFolder_error hwrite, put_self hfree]
  · cases h

variable {files : List SkillStorageFile}

theorem replaceSkillFilesWithRollback_error
    (hfree : s (makeTempSkillId id t.temp) = none)
    (h : replaceSkillFilesWithRollback host id files t s = (.error e, s')) : s' = s := by
  unfold replaceSkillFilesWithRollback at h
  dsimp only at h
  split at h
  · cases h
    exact put_self hfree
  · cases h

section Swap

variable {temp backup : String}

theorem rollback_rename (htemp : temp ≠ id) (hbackup : backup ≠ id) (hne : temp ≠ backup)
    (hfree : s temp = none) (hfreeBackup : s backup = none) (horiginal : s id = some dir) :
    SkillStorageSwap.rollback ⟨id, backup, true⟩ (((s.put temp disk).rename id backup).rename temp id) = s := by
  have hkept : (((s.put temp disk).rename id backup).rename temp id).removeSkillStorage id backup = some dir := by
    simp [Storage.rename, Storage.put, Storage.removeSkillStorage, Function.update_apply, hbackup, hne.symm, htemp.symm, horiginal]
  simp only [SkillStorageSwap.rollback, hkept, Option.isSome_some, Bool.true_and, if_true]
  funext k
  simp only [Storage.rename, Storage.put, Storage.removeSkillStorage, Function.update_apply]
  by_cases hk : k = id
  · subst hk
    simp [hbackup, hbackup.symm, hne.symm, htemp.symm, horiginal]
  by_cases hkt : k = temp
  · subst hkt
    simp [hk, hne, hfree]
  by_cases hkb : k = backup
  · subst hkb
    simp [hfreeBackup]
  simp [hk, hkt, hkb]

theorem rollback_rename_none (htemp : temp ≠ id) (hbackup : backup ≠ id) (hne : temp ≠ backup)
    (hfree : s temp = none) (hfreeBackup : s backup = none) (horiginal : s id = none) :
    SkillStorageSwap.rollback ⟨id, backup, false⟩ ((s.put temp disk).rename temp id) = s := by
  simp only [SkillStorageSwap.rollback, Bool.false_and, Bool.false_eq_true, if_false]
  funext k
  simp only [Storage.rename, Storage.put, Storage.removeSkillStorage, Function.update_apply]
  by_cases hk : k = id
  · subst hk
    simp [hbackup.symm, horiginal]
  by_cases hkt : k = temp
  · subst hkt
    simp [hk, hne, hfree]
  by_cases hkb : k = backup
  · subst hkb
    simp [hfreeBackup]
  simp [hk, hkt, hkb]

end Swap

theorem rollback_replaceSkillFiles {swap : SkillStorageSwap}
    (hfree : s (makeTempSkillId id t.temp) = none)
    (hbackup : s (makeTempSkillId (id ++ "_backup") t.backup) = none)
    (h : replaceSkillFilesWithRollback host id files t s = (.ok swap, s')) : swap.rollback s' = s := by
  have htemp := makeTempSkillId_ne id t.temp
  have hid : ∀ disk, (s.put (makeTempSkillId id t.temp) disk) id = s id :=
    fun disk => Function.update_of_ne htemp.symm _ _
  unfold replaceSkillFilesWithRollback at h
  dsimp only at h
  split at h
  · cases h
  rw [hid] at h
  cases h
  cases horiginal : s id with
  | none => exact rollback_rename_none htemp (backupId_ne id t.backup) (tempId_ne_backupId id t) hfree hbackup horiginal
  | some dir => exact rollback_rename htemp (backupId_ne id t.backup) (tempId_ne_backupId id t) hfree hbackup horiginal

theorem replaceSkillFiles_at
    (h : stageFiles host (makeTempSkillId id t.temp) files [] 0 (s (makeTempSkillId id t.temp)) = .ok disk) :
    ∃ swap s', replaceSkillFilesWithRollback host id files t s = (.ok swap, s') ∧ swap.commit s' id = disk := by
  have htemp := makeTempSkillId_ne id t.temp
  have hbackup := backupId_ne id t.backup
  have hne := tempId_ne_backupId id t
  unfold replaceSkillFilesWithRollback
  dsimp only
  rw [h]
  refine ⟨_, _, rfl, ?_⟩
  split
  · simp [SkillStorageSwap.commit, Storage.removeSkillStorage, Storage.rename, Storage.put, htemp, htemp.symm,
      hbackup.symm, hne]
  · simp [SkillStorageSwap.commit, Storage.removeSkillStorage, Storage.rename, Storage.put, htemp.symm, hbackup.symm]

theorem remoteUpdate_error {caller : Caller} {body : Except String UpdateRemoteSkillInput} {failure : Option String}
    (hfree : w.storage (makeTempSkillId id t.temp) = none)
    (hbackup : w.storage (makeTempSkillId (id ++ "_backup") t.backup) = none)
    (hrejected : (remoteUpdate host remote caller id body failure t w).1.isError = true) :
    (remoteUpdate host remote caller id body failure t w).2 = w := by
  unfold remoteUpdate at hrejected ⊢
  cases body with
  | error e => rfl
  | ok data =>
    dsimp only at hrejected ⊢
    split
    · rfl
    rename_i current hcurrent
    rw [hcurrent] at hrejected
    dsimp only at hrejected
    split
    · rfl
    rename_i u hdecide
    rw [hdecide] at hrejected
    dsimp only at hrejected
    split
    · rename_i e storage hswap
      rw [replaceSkillFilesWithRollback_error hfree hswap]
    · rename_i swap storage hswap
      rw [hswap] at hrejected
      cases failure with
      | some e =>
        dsimp only
        rw [rollback_replaceSkillFiles hfree hbackup hswap]
      | none => cases hrejected

theorem not_sameFiles_none (hstored : ∃ path content, dir.file? path = some content) :
    ¬∀ path, (none : Option Dir).bind (·.file? path) = dir.file? path := by
  intro h
  obtain ⟨path, content, hcontent⟩ := hstored
  rw [← h path] at hcontent
  cases hcontent

theorem not_sameFiles_empty (hstored : ∃ path content, dir.file? path = some content) :
    ¬∀ path, (some ({} : Dir)).bind (·.file? path) = dir.file? path := by
  intro h
  obtain ⟨path, content, hcontent⟩ := hstored
  have hnode : (({} : Dir).node? path) = if path = [] then some .directory else none := rfl
  rw [← h path, Option.bind_some, Dir.file?, hnode] at hcontent
  by_cases hpath : path = []
  · rw [if_pos hpath] at hcontent
    cases hcontent
  · rw [if_neg hpath] at hcontent
    cases hcontent

theorem extractZipToSkill_error {buffer : Buffer} (hstored : ∃ path content, dir.file? path = some content)
    (hsize : ¬buffer.length > MAX_ZIP_UPLOAD_BYTES)
    (h : extractZipToSkill host buffer id none = (.error e, disk)) :
    (∀ path, disk.bind (·.file? path) = dir.file? path) ↔
      ∃ entries skillMd, host.getEntries buffer = .ok entries ∧ findSkillMdEntry entries = .ok skillMd ∧
        findIllegalEntry host id entries = none ∧
        ∀ path, (host.extractAllTo buffer {}).2.file? path = dir.file? path := by
  unfold extractZipToSkill at h
  rw [if_neg hsize] at h
  cases hentries : host.getEntries buffer with
  | error e' =>
    rw [hentries] at h
    cases h
    exact ⟨fun hsame => absurd hsame (not_sameFiles_none hstored), fun ⟨_, _, hok, _⟩ => by cases hok⟩
  | ok entries =>
    rw [hentries] at h
    cases hskillMd : findSkillMdEntry entries with
    | error e' =>
      rw [Except.bind, hskillMd] at h
      cases h
      refine ⟨fun hsame => absurd hsame (not_sameFiles_none hstored), ?_⟩
      rintro ⟨_, _, hentries', hok, _⟩
      cases hentries'
      cases hskillMd.symm.trans hok
    | ok skillMd =>
      rw [Except.bind, hskillMd] at h
      dsimp only [Except.map] at h
      cases hillegal : findIllegalEntry host id entries with
      | some entry =>
        rw [hillegal] at h
        cases h
        refine ⟨fun hsame => absurd hsame (not_sameFiles_empty hstored), ?_⟩
        rintro ⟨_, _, hentries', _, hnone, _⟩
        cases hentries'
        cases hillegal.symm.trans hnone
      | none =>
        rw [hillegal] at h
        obtain rfl : some (host.extractAllTo buffer {}).2 = disk := (Prod.mk.inj h).2
        exact ⟨fun hsame => ⟨entries, skillMd, rfl, hskillMd, hillegal, hsame⟩, fun ⟨_, _, _, _, _, hsame⟩ => hsame⟩

theorem writeSingleFile_error {file : UploadedFile} (hstored : ∃ path content, dir.file? path = some content)
    (hsize : ¬file.content.length > MAX_ZIP_UPLOAD_BYTES)
    (h : writeSingleFile host id file none = (.error e, disk)) :
    (∀ path, disk.bind (·.file? path) = dir.file? path) ↔ UnpacksTo host id file dir := by
  unfold writeSingleFile at h
  cases hmd : hasExtension ".md" file with
  | true =>
    refine ⟨fun hsame => absurd hsame ?_, fun hunpacks => absurd (hunpacks.1.symm.trans hmd) Bool.false_ne_true⟩
    rw [if_pos hmd] at h
    dsimp only at h
    split at h
    · cases h
      exact not_sameFiles_none hstored
    split at h
    · rename_i parsed _ e' dir' hwrite
      cases h
      unfold writeSkillMd writeIn at hwrite
      split at hwrite
      · cases hwrite
        exact not_sameFiles_empty hstored
      · cases hwrite
    · cases h
  | false =>
    rw [hmd, if_neg Bool.false_ne_true] at h
    cases hzip : hasExtension ".zip" file with
    | false =>
      rw [hzip, if_neg Bool.false_ne_true] at h
      cases h
      exact ⟨fun hsame => absurd hsame (not_sameFiles_none hstored),
        fun hunpacks => absurd (hzip.symm.trans hunpacks.2.1) Bool.false_ne_true⟩
    | true =>
      rw [if_pos hzip] at h
      exact (extractZipToSkill_error hstored hsize h).trans
        ⟨fun hsame => ⟨hmd, hzip, hsame⟩, fun hunpacks => hunpacks.2.2⟩

theorem writeUploads_isSome (files : List SkillStorageFile) (dir : Dir) :
    (writeUploads host id files (some dir)).2.isSome = true := by
  induction files generalizing dir with
  | nil => rfl
  | cons file files ih =>
    unfold writeUploads
    split
    · rfl
    split
    · rfl
    · exact ih _

theorem writeUploads_error (hfiles : files ≠ [])
    (h : writeUploads host id files none = (.error e, disk)) :
    disk = none ↔ ∀ file, files.head? = some file → MAX_SINGLE_FILE_BYTES < file.content.length := by
  cases files with
  | nil => exact absurd rfl hfiles
  | cons file files =>
    unfold writeUploads validateSingleFileSize at h
    by_cases hlarge : file.content.length > MAX_SINGLE_FILE_BYTES
    · rw [if_pos hlarge] at h
      cases h
      exact ⟨fun _ _ hfile => by cases hfile; exact hlarge, fun _ => rfl⟩
    · rw [if_neg hlarge] at h
      have hsome : disk.isSome = true := by
        dsimp only at h
        split at h
        · cases h
          rfl
        · rename_i dir _
          exact (congrArg (fun r => r.2.isSome) h).symm.trans (writeUploads_isSome files dir)
      refine ⟨fun hnone => ?_, fun hall => absurd (hall file rfl) hlarge⟩
      rw [hnone] at hsome
      cases hsome

theorem head?_uploads (files : List UploadedFile) (paths : List String) :
    (uploads files paths).head?.map SkillStorageFile.content = files.head?.map UploadedFile.content := by
  cases files <;> rfl

theorem leftAsItWas_put_iff (hdir : w.storage id = some dir) :
    LeftAsItWas id w { w with storage := (w.storage.removeSkillStorage id).put id disk } ↔
      ∀ path, disk.bind (·.file? path) = dir.file? path := by
  have hput : (w.storage.removeSkillStorage id).put id disk = w.storage.put id disk := Function.update_idem ..
  have hid : ({ w with storage := w.storage.put id disk } : World).storage id = disk := put_at ..
  rw [hput]
  constructor
  · intro h path
    have hfiles := h.files path
    rw [hdir, hid] at hfiles
    exact hfiles
  · intro h
    refine ⟨rfl, fun path => ?_, fun k hk => Function.update_of_ne hk _ _⟩
    rw [hdir, hid]
    exact h path

theorem reupload_error {caller : Caller} {form : ReuploadForm} {row : SkillRow}
    (hwritable : w.getWritableSkill caller id = some row) (hrow : row.stored = true)
    (hdir : w.storage id = some dir) (hstored : ∃ path content, dir.file? path = some content)
    (hfree : w.storage (makeTempSkillId id t.temp) = none)
    (hrejected : (reupload host caller id form t w).1.isError = true) :
    LeftAsItWas id w (reupload host caller id form t w).2 ↔ Spares host id dir (.reupload form) := by
  unfold reupload at hrejected ⊢
  rw [hwritable] at hrejected ⊢
  dsimp only at hrejected ⊢
  by_cases hfolder : form.files ≠ []
  · rw [if_pos hfolder] at hrejected ⊢
    refine ⟨fun _ => .inl hfolder, fun _ => ?_⟩
    split
    · rename_i e storage hreplace
      rw [replaceSkillFolder_error hfree hreplace]
      exact .refl
    · rename_i parsed storage hreplace
      rw [hreplace] at hrejected
      cases hrejected
  rw [if_neg hfolder] at hrejected ⊢
  cases hfile : form.file with
  | none =>
    refine ⟨fun _ => .inr fun file h => ?_, fun _ => .refl⟩
    cases hfile.symm.trans h
  | some file =>
    rw [hfile] at hrejected
    dsimp only [validateSingleFileSize] at hrejected ⊢
    have hspares : Spares host id dir (.reupload form) ↔
        MAX_SINGLE_FILE_BYTES < file.content.length ∨ UnpacksTo host id file dir := by
      refine ⟨fun h => (h.resolve_left hfolder) file hfile, fun h => .inr fun file' hfile' => ?_⟩
      cases hfile.symm.trans hfile'
      exact h
    rw [hspares]
    by_cases hsize : file.content.length > MAX_SINGLE_FILE_BYTES
    · rw [if_pos hsize]
      exact ⟨fun _ => .inl hsize, fun _ => .refl⟩
    rw [if_neg hsize, hrow, if_pos rfl] at hrejected ⊢
    have hcleared : w.storage.removeSkillStorage id id = none := put_at ..
    rw [hcleared] at hrejected ⊢
    dsimp only at hrejected ⊢
    split
    · rename_i e disk hwrite
      rw [leftAsItWas_put_iff hdir, writeSingleFile_error hstored hsize hwrite]
      exact ⟨.inr, fun h => h.resolve_left hsize⟩
    · rename_i parsed disk hwrite
      rw [hwrite] at hrejected
      cases hrejected

theorem filesUpload_error {caller : Caller} {files : List UploadedFile} {paths : List String} {row : SkillRow}
    (hwritable : w.getWritableSkill caller id = some row) (hrow : row.stored = true)
    (hfree : w.storage (makeTempSkillId id t.temp) = none)
    (hrejected : (filesUpload host caller id true files paths t w).1.isError = true) :
    LeftAsItWas id w (filesUpload host caller id true files paths t w).2 ↔
      Spares host id dir (.upload files paths) := by
  unfold filesUpload at hrejected ⊢
  rw [hwritable] at hrejected ⊢
  dsimp only at hrejected ⊢
  by_cases hfiles : files = []
  · rw [if_pos hfiles]
    refine ⟨fun _ file hfile => ?_, fun _ => .refl⟩
    rw [hfiles] at hfile
    cases hfile
  have hspares : Spares host id dir (.upload files paths) ↔
      ∀ file, (uploads files paths).head? = some file → MAX_SINGLE_FILE_BYTES < file.content.length := by
    have hhead := head?_uploads files paths
    cases files with
    | nil => exact absurd rfl hfiles
    | cons file files =>
      constructor
      · intro h file' hfile'
        rw [hfile'] at hhead
        rw [Option.some_inj.mp hhead]
        exact h file rfl
      · intro h file' hfile'
        cases hfile'
        exact h _ rfl
  have hne : uploads files paths ≠ [] := by
    intro hnil
    rw [uploads, List.map_eq_nil_iff, List.zipIdx_eq_nil_iff] at hnil
    exact hfiles hnil
  rw [if_neg hfiles, hrow, Bool.true_and, if_pos rfl, hfree] at hrejected ⊢
  split
  · rename_i e disk hwrite
    rw [hspares, ← writeUploads_error hne hwrite]
    constructor
    · intro h
      have htemp := h.temporaries _ (makeTempSkillId_ne id t.temp)
      rw [hfree] at htemp
      exact (put_at w.storage _ disk).symm.trans htemp
    · rintro rfl
      rw [put_self hfree]
      exact .refl
  · rename_i disk hwrite
    rw [hwrite] at hrejected
    cases hrejected

end Lemmas

theorem rejected_replacement_spares_iff (host : SkillHost) (remote : Remote) (caller : Caller) (id : String)
    (t : Temporaries) (w : World) (r : Replacement) (row : SkillRow) (dir : Dir)
    (hwritable : w.getWritableSkill caller id = some row) (hrow : row.stored = true)
    (hdir : w.storage id = some dir) (hstored : ∃ path content, dir.file? path = some content)
    (hfree : w.storage (makeTempSkillId id t.temp) = none)
    (hbackup : w.storage (makeTempSkillId (id ++ "_backup") t.backup) = none)
    (hrejected : (serve host remote caller id t w r).1.isError = true) :
    LeftAsItWas id w (serve host remote caller id t w r).2 ↔ Spares host id dir r := by
  cases r with
  | reupload form => exact reupload_error hwritable hrow hdir hstored hfree hrejected
  | upload files paths => exact filesUpload_error hwritable hrow hfree hrejected
  | remoteUpdate body failure =>
    refine ⟨fun _ => trivial, fun _ => ?_⟩
    show LeftAsItWas id w (remoteUpdate host remote caller id body failure t w).2
    rw [remoteUpdate_error hfree hbackup hrejected]
    exact .refl

section Runs

def plainHost : SkillHost where
  storageRoot := ["skills".toList]
  matter text := .ok ⟨.nil, text⟩
  stringify text _ := .ok text
  getEntries _ := .error "ADM-ZIP: Invalid or unsupported zip format. No END header found"
  extractAllTo _ dir := (.ok (), dir)

def offline : Remote where
  localeCompare a b := compare a b
  sha256 _ := ""
  loadRemoteSkillBundle _ _ _ := .error (.remote .upstreamError "GitHub request failed: offline")

def review : SkillRow where
  name := "review"
  storagePath := some "skl_1"

def reviewDir : Dir where
  nodes := [(["SKILL.md".toList], .file [0x23])]

def oneSkill : World where
  skills id := if id = "skl_1" then some review else none
  storage id := if id = "skl_1" then some reviewDir else none

theorem oneSkill_storage {id : String} (h : id ≠ "skl_1") : oneSkill.storage id = none := if_neg h

def administrator : Caller where
  isAdmin := true
  userId := "usr_1"

def climbing : ReuploadForm where
  files := [⟨"SKILL.md", [0x23]⟩, ⟨"notes.md", []⟩]
  paths := ["pack/SKILL.md", "pack/../../notes.md"]

theorem rejected_replacement_spares_iff_folder :
    (reupload plainHost administrator "skl_1" climbing ⟨"0", "1"⟩ oneSkill).1.isError = true ∧
    (LeftAsItWas "skl_1" oneSkill (serve plainHost offline administrator "skl_1" ⟨"0", "1"⟩ oneSkill (.reupload climbing)).2 ↔
      Spares plainHost "skl_1" reviewDir (.reupload climbing)) := by
  have hrejected : (reupload plainHost administrator "skl_1" climbing ⟨"0", "1"⟩ oneSkill).1.isError = true := by
    decide +kernel
  exact ⟨hrejected, rejected_replacement_spares_iff plainHost offline administrator "skl_1" ⟨"0", "1"⟩ oneSkill
    (.reupload climbing) review reviewDir rfl rfl rfl ⟨["SKILL.md".toList], [0x23], rfl⟩
    (oneSkill_storage (makeTempSkillId_ne _ _)) (oneSkill_storage (backupId_ne _ _)) hrejected⟩

theorem reupload_of_a_text_file_clears_the_skill :
    ¬∀ (host : SkillHost) (remote : Remote) (caller : Caller) (id : String) (t : Temporaries) (w : World)
      (r : Replacement) (row : SkillRow) (dir : Dir), w.getWritableSkill caller id = some row → row.stored = true →
      w.storage id = some dir → (∃ path content, dir.file? path = some content) →
      w.storage (makeTempSkillId id t.temp) = none →
      w.storage (makeTempSkillId (id ++ "_backup") t.backup) = none →
      (serve host remote caller id t w r).1.isError = true →
      LeftAsItWas id w (serve host remote caller id t w r).2 := by
  intro h
  have hleft := h plainHost offline administrator "skl_1" ⟨"0", "1"⟩ oneSkill
    (.reupload { file := some ⟨"notes.txt", []⟩ }) review reviewDir rfl rfl rfl ⟨["SKILL.md".toList], [0x23], rfl⟩
    (oneSkill_storage (makeTempSkillId_ne _ _)) (oneSkill_storage (backupId_ne _ _)) (by decide +kernel)
  have hfile := hleft.files ["SKILL.md".toList]
  have hgone : ((serve plainHost offline administrator "skl_1" ⟨"0", "1"⟩ oneSkill
      (.reupload { file := some ⟨"notes.txt", []⟩ })).2.storage "skl_1").bind (·.file? ["SKILL.md".toList]) = none := by
    decide +kernel
  rw [hgone] at hfile
  cases hfile

end Runs

end A2Wave.SkillReplace
