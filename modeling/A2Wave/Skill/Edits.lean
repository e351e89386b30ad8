import A2Wave.Lib.Linear
import A2Wave.Lib.Pool
import A2Wave.Skill.Replace

/-! The requests of `routes/skills.ts` that change one skill, when they overlap.  A temporary
directory is known to its request alone, so it is part of what the request keeps. -/

namespace A2Wave.SkillEdits

open Transition SkillStorage RemoteSkill SkillReplace Linear

structure UpdateSkillInput where
  name : Option String := none
  description : Option (Option String) := none
  content : Option (Option String) := none
  groupId : Option (Option String) := none
  visibleToAll : Option Bool := none
  deriving DecidableEq

/-- A `PATCH` comes with the groups that its caller can see, a remote update with its downloads. -/
inductive Edit
  | patch (data : UpdateSkillInput) (visibleGroups : List String)
  | remoteUpdate (data : UpdateRemoteSkillInput)
      (load : String → Option String → String → Except Thrown RemoteSkillBundle)
  | reupload (form : ReuploadForm)
  | upload (replace : Bool) (files : List UploadedFile) (paths : List String)
  | delete

structure Op where
  caller : Caller
  edit : Edit
  temporaries : Temporaries

section Patch

variable (caller : Caller) (data : UpdateSkillInput)

def validateSkillGroupVisibility (visibleGroups : List String) : Option String :=
  match data.groupId.join.filter (· ≠ "") with
  | none => none
  | some groupId => if groupId ∈ visibleGroups then none else some ("Skill group not found: " ++ groupId)

def rejectUnauthorizedSharedVisibility (existing : SkillRow) : Bool :=
  data.visibleToAll = some true && !existing.sharedWithAll && !caller.isAdmin

def rejectSystemSkillVisibilityDowngrade (existing : SkillRow) : Bool :=
  data.visibleToAll = some false && existing.userId.isNone && existing.sharedWithAll

def checkPatch (visibleGroups : List String) (existing : SkillRow) : Option Response :=
  match validateSkillGroupVisibility data visibleGroups with
  | some error => some (.error 400 error)
  | none =>
    if rejectUnauthorizedSharedVisibility caller data existing then
      some (.error 403 "Only administrators can make a Skill available to all users")
    else if rejectSystemSkillVisibilityDowngrade data existing then
      some (.error 400 "Platform built-in Skills must remain available to all users")
    else none

def preservesSharedVisibility : Bool := !caller.isAdmin && data.visibleToAll = some true

def updateCondition (row : SkillRow) : Bool :=
  !preservesSharedVisibility caller data || (row.userId = some caller.userId && row.sharedWithAll)

def touchesContent : Bool := data.name.isSome || data.description.isSome || data.content.isSome

def patchedDirty (existing : SkillRow) : Bool :=
  (existing.remoteSource.isSome && touchesContent data) || existing.sourceDirty

/-- `.set({...})` of a `PATCH`. -/
def patched (existing row : SkillRow) : SkillRow :=
  { row with
    name := data.name.getD row.name
    description := data.description.getD row.description
    content := data.content.getD row.content
    groupId := data.groupId.getD row.groupId
    sharedWithAll := data.visibleToAll.getD row.sharedWithAll
    sourceDirty := patchedDirty data existing }

def conflictResponse : Response :=
  .error 409 "Skill visibility changed while saving; reload and try again"

/-- The `UPDATE`, and the answer. -/
def savePatch (existing : SkillRow) (row : Option SkillRow) : Response × Option SkillRow :=
  match row.filter (updateCondition caller data) with
  | some row => (.ok 200, some (patched data existing row))
  | none => (if preservesSharedVisibility caller data then conflictResponse else .ok 200, row)

end Patch

structure Skill where
  row : Option SkillRow
  disk : Option Dir

section Serial

variable (host : SkillHost) (remote : Remote) (id : String)

def Skill.world (k : Skill) : World where
  skills i := if i = id then k.row else none
  storage i := if i = id then k.disk else none

/-- `PATCH /:id`, from start to end. -/
def patchSkill (caller : Caller) (data : UpdateSkillInput) (visibleGroups : List String) (w : World) :
    Response × World :=
  match w.getWritableSkill caller id with
  | none => (.error 404 "Skill not found", w)
  | some existing =>
    match checkPatch caller data visibleGroups existing with
    | some response => (response, w)
    | none =>
      let saved := savePatch caller data existing (w.skills id)
      (saved.1, { w with skills := Function.update w.skills id saved.2 })

/-- `DELETE /:id`, from start to end. -/
def deleteSkill (caller : Caller) (w : World) : Response × World :=
  match w.getWritableSkill caller id with
  | none => (.error 404 "Skill not found", w)
  | some skill =>
    (.ok 200,
      { skills := Function.update w.skills id none
        storage := if skill.stored then w.storage.removeSkillStorage id else w.storage })

def serveAlone (op : Op) (w : World) : Response × World :=
  match op.edit with
  | .patch data visibleGroups => patchSkill id op.caller data visibleGroups w
  | .remoteUpdate data load =>
    remoteUpdate host { remote with loadRemoteSkillBundle := load } op.caller id (.ok data) none op.temporaries w
  | .reupload form => reupload host op.caller id form op.temporaries w
  | .upload replace files paths => filesUpload host op.caller id replace files paths op.temporaries w
  | .delete => deleteSkill id op.caller w

def Skill.serve (op : Op) (k : Skill) : Skill :=
  let w := (serveAlone host remote id op (k.world id)).2
  ⟨w.skills id, w.storage id⟩

end Serial

/-- What a request awaits.  `existing`, `skill` and `current` are rows as it read them. -/
inductive Phase
  | select
  | patch (existing : SkillRow)
  | delete (skill : SkillRow)
  | removeStorage (skill : SkillRow)
  | lock (skill : SkillRow)
  | locked (skill : SkillRow)
  | writing (skill : SkillRow) (rest : List SkillStorageFile)
  | cleared (skill : SkillRow) (staged : Option Dir)
  | download (current : SkillRow)
  | swap (current : SkillRow) (u : RemoteUpdate)
  | saveUpload (skill : SkillRow)
  | saveReupload (existing : SkillRow) (parsed : SkillMd)
  | saveRemote (current : SkillRow) (u : RemoteUpdate)
  | responded (response : Response)

structure Request where
  op : Op
  phase : Phase := .select

structure Shared where
  row : Option SkillRow
  disk : Option Dir
  locked : Bool := false

namespace Phase

/-- Inside `withKeyedLock`. -/
def holdsLock : Phase → Bool
  | .locked _ | .writing _ _ | .cleared _ _ | .download _ | .swap _ _ | .saveUpload _ | .saveReupload _ _
  | .saveRemote _ _ => true
  | _ => false

def inEffect : Phase → Bool
  | .removeStorage _ | .responded _ => true
  | _ => false

def failed : Phase → Bool
  | .responded response => response.isError
  | _ => false

def succeeded : Phase → Bool
  | .responded response => !response.isError
  | _ => false

def removes : Phase → Bool
  | .removeStorage skill => skill.stored
  | _ => false

end Phase

section Steps

variable (host : SkillHost) (remote : Remote) (id : String)

def Shared.getWritableSkill (s : Shared) (caller : Caller) : Option SkillRow :=
  s.row.filter fun row => caller.isAdmin || row.userId = some caller.userId

def Shared.unlock (s : Shared) : Shared := { s with locked := false }

def tempId (op : Op) : String := makeTempSkillId id op.temporaries.temp

def enterReupload (op : Op) (form : ReuploadForm) (existing : SkillRow) (s : Shared) : Shared × Phase :=
  if form.files ≠ [] then
    match writeSkillFolder host (tempId id op) form.files form.paths none with
    | (.error e, _) => (s.unlock, .responded (.error 400 e))
    | (.ok parsed, staged) => ({ s with disk := staged }, .saveReupload existing parsed)
  else
    match form.file with
    | none => (s.unlock,
        .responded (.error 400 "Upload either a file field (.md / .zip) or files[] + paths[] (a folder)"))
    | some file =>
      match validateSingleFileSize file.content.length with
      | .error e => (s.unlock, .responded (.error 400 e))
      | .ok () =>
        match writeSingleFile host id file (if existing.stored then none else s.disk) with
        | (.error e, disk) => ({ s.unlock with disk := disk }, .responded (.error 400 e))
        | (.ok parsed, disk) => ({ s with disk := disk }, .saveReupload existing parsed)

def enterUpload (op : Op) (replace : Bool) (files : List SkillStorageFile) (skill : SkillRow) (s : Shared) :
    Shared × Phase :=
  if replace && skill.stored then
    match writeUploads host (tempId id op) files none with
    | (.error e, _) => (s.unlock, .responded (.error 400 e))
    | (.ok (), staged) => ({ s with disk := none }, .cleared skill staged)
  else (s, .writing skill files)

def enter (op : Op) (skill : SkillRow) (s : Shared) : Shared × Phase :=
  match op.edit with
  | .reupload form => enterReupload host id op form skill s
  | .upload replace files paths => enterUpload host id op replace (uploads files paths) skill s
  | _ =>
    match s.getWritableSkill op.caller with
    | none => (s.unlock, .responded (.error 404 "Skill not found"))
    | some current => (s, .download current)

def afterSelect (op : Op) (row : SkillRow) : Phase :=
  match op.edit with
  | .patch _ _ => .patch row
  | .delete => .delete row
  | .upload _ [] _ => .responded (.error 400 "Upload at least one file (files)")
  | _ => .lock row

def inspect (op : Op) (current : SkillRow) (disk : Option Dir) : Except Response RemoteUpdate :=
  match op.edit with
  | .remoteUpdate data load =>
    decideRemoteUpdate host { remote with loadRemoteSkillBundle := load } data current disk
  | _ => .error (.error 500 "")

def actPhase (s : Shared) (op : Op) : Phase → Option (Shared × Phase)
  | .select => some (s, match s.getWritableSkill op.caller with
      | none => .responded (.error 404 "Skill not found")
      | some row => afterSelect op row)
  | .patch existing =>
    match op.edit with
    | .patch data visibleGroups => some (match checkPatch op.caller data visibleGroups existing with
      | some response => (s, .responded response)
      | none =>
        let saved := savePatch op.caller data existing s.row
        ({ s with row := saved.2 }, .responded saved.1))
    | _ => none
  | .delete skill => some ({ s with row := none }, .removeStorage skill)
  | .removeStorage skill => some ({ s with disk := if skill.stored then none else s.disk }, .responded (.ok 200))
  | .lock skill => if s.locked then none else some ({ s with locked := true }, .locked skill)
  | .locked skill => some (enter host id op skill s)
  | .writing skill [] => some (s, .saveUpload skill)
  | .writing skill (file :: rest) =>
    match validateSingleFileSize file.content.length with
    | .error e => some (s.unlock, .responded (.error 400 e))
    | .ok () =>
      match writeSkillFile host id file.path file.content s.disk with
      | (.error e, dir) => some ({ s.unlock with disk := some dir }, .responded (.error 400 e))
      | (.ok (), dir) => some ({ s with disk := some dir }, .writing skill rest)
  | .cleared skill staged => some ({ s with disk := staged }, .saveUpload skill)
  | .download current => some (match inspect host remote op current s.disk with
      | .error response => (s.unlock, .responded response)
      | .ok u => (s, .swap current u))
  | .swap current u => some (match stageFiles host (tempId id op) u.files [] 0 none with
      | .error e => (s.unlock, .responded (remoteSkillErrorResponse (.error e)))
      | .ok staged => ({ s with disk := staged }, .saveRemote current u))
  | .saveUpload skill => some ({ s.unlock with row := s.row.map (uploaded skill id) }, .responded (.ok 201))
  | .saveReupload existing parsed =>
    some ({ s.unlock with row := s.row.map (reuploaded existing id parsed) }, .responded (.ok 200))
  | .saveRemote _ u => some ({ s.unlock with row := s.row.map (remoteUpdated id u) }, .responded (.ok 200))
  | .responded _ => none

def program : Pool.Program Shared Request Unit where
  start _ _ r := match r.phase with
    | .select => true
    | _ => false
  act s r _ := (actPhase host remote id s r.op r.phase).map fun (s, phase) => (s, { r with phase := phase })

end Steps

section Alone

variable {host : SkillHost} {remote : Remote} {id : String} {op : Op} {k : Skill} {r : SkillRow}

def mayWrite (caller : Caller) (owner : Option String) : Bool := caller.isAdmin || owner = some caller.userId

@[simp] theorem world_skills : (k.world id).skills id = k.row := if_pos rfl

@[simp] theorem world_storage : (k.world id).storage id = k.disk := if_pos rfl

theorem world_storage_temp (k : Skill) : (k.world id).storage (tempId id op) = none :=
  if_neg (makeTempSkillId_ne id op.temporaries.temp)

theorem writable_of_row (hrow : k.row = some r) (hmay : mayWrite op.caller r.userId = true) :
    (k.world id).getWritableSkill op.caller id = some r := by
  rw [World.getWritableSkill, world_skills, hrow]
  exact Option.filter_some_pos hmay

theorem writable_of_absent (hrow : k.row = none) : (k.world id).getWritableSkill op.caller id = none := by
  rw [World.getWritableSkill, world_skills, hrow]
  rfl

theorem serve_absent (hrow : k.row = none) : k.serve host remote id op = k := by
  have hnone : ∀ {w : World}, w = k.world id → (⟨w.skills id, w.storage id⟩ : Skill) = k := by
    rintro w rfl
    rw [world_skills, world_storage]
  have hwritable : (k.world id).getWritableSkill op.caller id = none := writable_of_absent hrow
  apply hnone
  unfold serveAlone
  cases op.edit with
  | patch data visibleGroups =>
    simp only [patchSkill, hwritable]
  | remoteUpdate data load =>
    simp only [remoteUpdate, hwritable]
  | reupload form =>
    simp only [reupload, hwritable]
  | upload replace files paths =>
    simp only [filesUpload, hwritable]
  | delete =>
    simp only [deleteSkill, hwritable]

theorem serve_patch {data : UpdateSkillInput} {visibleGroups : List String}
    (hedit : op.edit = .patch data visibleGroups) (hrow : k.row = some r) (hmay : mayWrite op.caller r.userId = true)
    (hcheck : checkPatch op.caller data visibleGroups r = none) (hcondition : updateCondition op.caller data r = true) :
    k.serve host remote id op = ⟨some (patched data r r), k.disk⟩ := by
  have hsaved : savePatch op.caller data r ((k.world id).skills id) = (.ok 200, some (patched data r r)) := by
    rw [savePatch, world_skills, hrow, Option.filter_some_pos hcondition]
  simp only [Skill.serve, serveAlone, hedit, patchSkill, writable_of_row hrow hmay, hcheck, hsaved, world_storage,
    Function.update_self]

theorem serve_delete (hedit : op.edit = .delete) (hrow : k.row = some r) (hmay : mayWrite op.caller r.userId = true) :
    k.serve host remote id op = ⟨none, if r.stored then none else k.disk⟩ := by
  simp only [Skill.serve, serveAlone, hedit, deleteSkill, writable_of_row hrow hmay, Function.update_self]
  cases r.stored with
  | true => rw [if_pos rfl, if_pos rfl, Storage.removeSkillStorage, put_at]
  | false => rw [if_neg Bool.false_ne_true, if_neg Bool.false_ne_true, world_storage]

theorem update_at (w : World) (id : String) (set : SkillRow → SkillRow) :
    (w.update id set).skills id = (w.skills id).map set := Function.update_self ..

theorem swapped_at (s : Storage) {temp : String} (htemp : temp ≠ id) (staged : Option Dir) :
    ((s.put temp staged).removeSkillStorage id).rename temp id id = staged := by
  simp [Storage.rename, Storage.put, Storage.removeSkillStorage, htemp, htemp.symm]

/-- What a reupload leaves of the files, when `stored` says whether the row has a storage path. -/
def Reuploads (host : SkillHost) (id : String) (op : Op) (form : ReuploadForm) (base : Option Dir) (stored : Bool)
    (parsed : SkillMd) (disk : Option Dir) : Prop :=
  (form.files ≠ [] ∧ writeSkillFolder host (tempId id op) form.files form.paths none = (.ok parsed, disk)) ∨
  (form.files = [] ∧ ∃ file, form.file = some file ∧ validateSingleFileSize file.content.length = .ok () ∧
    writeSingleFile host id file (if stored then none else base) = (.ok parsed, disk))

variable {disk : Option Dir}

theorem serve_reupload {form : ReuploadForm} {parsed : SkillMd}
    (hedit : op.edit = .reupload form) (hrow : k.row = some r) (hmay : mayWrite op.caller r.userId = true)
    (hreuploads : Reuploads host id op form k.disk r.stored parsed disk) :
    k.serve host remote id op = ⟨some (reuploaded r id parsed r), disk⟩ := by
  simp only [Skill.serve, serveAlone, hedit, reupload, writable_of_row hrow hmay]
  rcases hreuploads with ⟨hfiles, hwrite⟩ | ⟨hfiles, file, hfile, hsize, hwrite⟩
  · have hreplace : replaceSkillFolder host id form.files form.paths op.temporaries.temp (k.world id).storage =
        (.ok parsed, (((k.world id).storage.put (tempId id op) disk).removeSkillStorage id).rename (tempId id op) id) := by
      unfold replaceSkillFolder
      dsimp only
      rw [show (k.world id).storage (makeTempSkillId id op.temporaries.temp) = none from world_storage_temp k]
      rw [show makeTempSkillId id op.temporaries.temp = tempId id op from rfl, hwrite]
    rw [if_pos hfiles, hreplace]
    dsimp only
    rw [update_at, world_skills, hrow]
    exact congrArg (Skill.mk _) (swapped_at _ (makeTempSkillId_ne id _) disk)
  · have hcleared : (if r.stored then (k.world id).storage.removeSkillStorage id else (k.world id).storage) id =
        if r.stored then none else k.disk := by
      cases r.stored with
      | true => exact put_at ..
      | false => exact world_storage
    rw [if_neg (not_not_intro hfiles), hfile]
    dsimp only
    rw [hsize]
    dsimp only
    rw [hcleared, hwrite]
    dsimp only
    rw [update_at, world_skills, hrow]
    exact congrArg (Skill.mk _) (put_at _ id disk)

/-- What an upload leaves of the files, when `swaps` says whether it replaces them. -/
def Uploads (host : SkillHost) (id : String) (op : Op) (files : List SkillStorageFile) (base : Option Dir) (swaps : Bool)
    (disk : Option Dir) : Prop :=
  writeUploads host (if swaps then tempId id op else id) files (if swaps then none else base) = (.ok (), disk)

theorem serve_upload {replace : Bool} {files : List UploadedFile} {paths : List String}
    (hedit : op.edit = .upload replace files paths) (hrow : k.row = some r) (hmay : mayWrite op.caller r.userId = true)
    (hfiles : files ≠ [])
    (huploads : Uploads host id op (uploads files paths) k.disk (replace && r.stored) disk) :
    k.serve host remote id op = ⟨some (uploaded r id r), disk⟩ := by
  unfold Uploads at huploads
  simp only [Skill.serve, serveAlone, hedit, filesUpload, writable_of_row hrow hmay]
  rw [if_neg hfiles]
  cases hswaps : replace && r.stored with
  | true =>
    rw [hswaps, if_pos rfl, if_pos rfl] at huploads
    rw [if_pos rfl]
    rw [show (k.world id).storage (makeTempSkillId id op.temporaries.temp) = none from world_storage_temp k]
    rw [show makeTempSkillId id op.temporaries.temp = tempId id op from rfl, huploads]
    dsimp only
    rw [update_at, world_skills, hrow]
    exact congrArg (Skill.mk _) (swapped_at _ (makeTempSkillId_ne id _) disk)
  | false =>
    rw [hswaps, if_neg Bool.false_ne_true, if_neg Bool.false_ne_true] at huploads
    rw [if_neg Bool.false_ne_true, world_storage, huploads]
    dsimp only
    rw [update_at, world_skills, hrow]
    exact congrArg (Skill.mk _) (put_at _ id disk)

theorem serve_remoteUpdate {data : UpdateRemoteSkillInput} {load} {u : RemoteUpdate}
    (hedit : op.edit = .remoteUpdate data load) (hrow : k.row = some r) (hmay : mayWrite op.caller r.userId = true)
    (hinspect : inspect host remote op r k.disk = .ok u)
    (hstage : stageFiles host (tempId id op) u.files [] 0 none = .ok disk) :
    k.serve host remote id op = ⟨some (remoteUpdated id u r), disk⟩ := by
  rw [inspect, hedit] at hinspect
  simp only [Skill.serve, serveAlone, hedit, remoteUpdate, writable_of_row hrow hmay, world_storage]
  dsimp only at hinspect
  rw [hinspect]
  dsimp only
  have hfree : (k.world id).storage (makeTempSkillId id op.temporaries.temp) = none := world_storage_temp k
  have hstage' : stageFiles host (makeTempSkillId id op.temporaries.temp) u.files [] 0
      ((k.world id).storage (makeTempSkillId id op.temporaries.temp)) = .ok disk := (congrArg _ hfree).trans hstage
  obtain ⟨swap, storage, hreplace, hdisk⟩ := replaceSkillFiles_at hstage'
  rw [hreplace]
  dsimp only
  rw [update_at, world_skills, hrow]
  exact congrArg (Skill.mk _) hdisk

end Alone

end A2Wave.SkillEdits
