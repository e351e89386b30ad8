import Mathlib.Data.Finset.Card
import A2Wave.Skill.Access

/-! `replaceSkillFilesWithRollback` where a write or a rename may fail, and the swap that it returns. -/

namespace A2Wave.SkillSwap

open SkillStorage SkillReplace SkillAccess

/-- Whether a write of the new files fails on the machine, and each of the two renames. -/
structure Faults where
  write : Bool := false
  backup : Bool := false
  swap : Bool := false

structure Swap extends SkillStorageSwap where
  settled : Bool := false

def Swap.commit (swap : Swap) (s : Storage) : Swap × Storage :=
  if swap.settled then (swap, s) else ({ swap with settled := true }, swap.toSkillStorageSwap.commit s)

def Swap.rollback (swap : Swap) (s : Storage) : Swap × Storage :=
  if swap.settled then (swap, s) else ({ swap with settled := true }, swap.toSkillStorageSwap.rollback s)

/-- The `catch` of the renames. -/
def restore (skillId tempId backupId : String) (hadOriginal : Bool) (s : Storage) : Storage :=
  let s := s.removeSkillStorage tempId
  if hadOriginal && (s backupId).isSome && (s skillId).isNone then s.rename backupId skillId else s

def replaceSkillFilesWithRollback (host : SkillHost) (faults : Faults) (skillId : String)
    (files : List SkillStorageFile) (t : Temporaries) (s : Storage) : Except String Swap × Storage :=
  let tempId := makeTempSkillId skillId t.temp
  let backupId := makeTempSkillId (skillId ++ "_backup") t.backup
  match if faults.write then .error "ENOSPC" else stageFiles host tempId files [] 0 (s tempId) with
  | .error e => (.error e, s.removeSkillStorage tempId)
  | .ok disk =>
    let s := s.put tempId disk
    let hadOriginal := (s skillId).isSome
    if hadOriginal && faults.backup then (.error "EIO", restore skillId tempId backupId hadOriginal s)
    else
      let s := if hadOriginal then s.rename skillId backupId else s
      if faults.swap then (.error "EIO", restore skillId tempId backupId hadOriginal s)
      else (.ok { skillId := skillId, backupId := backupId, hadOriginal := hadOriginal }, s.rename tempId skillId)

section Staging

/-- What a list has to be like to be staged on top of a directory, behind the paths `seen` with `total` bytes. -/
structure Stages (host : SkillHost) (seen : List String) (total : Nat) (dir : Dir) (files : List SkillStorageFile) :
    Prop where
  unseen : ∀ file ∈ files, file.path ∉ seen
  distinct : (files.map (·.path)).Nodup
  size : ∀ file ∈ files, file.content.length ≤ MAX_SINGLE_FILE_BYTES
  total : total + (files.map (·.content.length)).sum ≤ MAX_SKILL_TOTAL_UPLOAD_BYTES
  skillMd : "SKILL.md" ∈ seen ∨ "SKILL.md" ∈ files.map (·.path)
  named : ∀ file ∈ files, hasDots (normalized file.path) = false ∧ (written file.path).all host.acceptsName = true
  free : ∀ file ∈ files, Open dir (written file.path)
  apart : files.Pairwise fun a b =>
    ¬written a.path <+: (written b.path).dropLast ∧ ¬written b.path <+: (written a.path).dropLast

variable {host : SkillHost} {dir dir' : Dir} {disk disk' : Option Dir} {file : SkillStorageFile}
  {files : List SkillStorageFile} {seen : List String} {total : Nat} {tempId : String} {path q : List Name}
  {content : Buffer}

theorem open_written (h : writeFileSync host dir path content = .ok dir') :
    Open dir' q ↔ Open dir q ∧ ¬path <+: q.dropLast ∧ ¬q <+: path.dropLast := by
  obtain ⟨-, -, hfile, hnode⟩ := writeFileSync_ok h
  simp only [Open, hfile, hnode, Ne, not_or]
  constructor
  · rintro ⟨habove, hdir, hbelow⟩
    refine ⟨⟨fun p hp => ?_, hdir⟩, fun hp => ?_, hbelow⟩
    · have hnone := habove p hp
      split_ifs at hnone
      exact hnone
    · have hnone := habove path hp
      rw [if_pos rfl] at hnone
      cases hnone
  · rintro ⟨⟨habove, hdir⟩, hpath, hbelow⟩
    refine ⟨fun p hp => ?_, hdir, hbelow⟩
    rw [if_neg fun heq : p = path => hpath (heq ▸ hp)]
    exact habove p hp

theorem stages_cons (h : writeFileSync host dir (written file.path) content = .ok dir') :
    Stages host seen total dir (file :: files) ↔
      (file.path ∉ seen ∧ file.content.length ≤ MAX_SINGLE_FILE_BYTES ∧ hasDots (normalized file.path) = false) ∧
        Stages host (file.path :: seen) (total + file.content.length) dir' files := by
  have hok := writeFileSync_ok h
  constructor
  · intro hs
    have hd := List.nodup_cons.mp hs.distinct
    have ha := List.pairwise_cons.mp hs.apart
    refine ⟨⟨hs.unseen _ List.mem_cons_self, hs.size _ List.mem_cons_self, (hs.named _ List.mem_cons_self).1⟩,
      fun f hf => ?_, hd.2, fun f hf => hs.size f (List.mem_cons_of_mem _ hf), ?_, ?_,
      fun f hf => hs.named f (List.mem_cons_of_mem _ hf), fun f hf => ?_, ha.2⟩
    · rw [List.mem_cons, not_or]
      exact ⟨fun heq : f.path = file.path => hd.1 (List.mem_map.mpr ⟨f, hf, heq⟩),
        hs.unseen f (List.mem_cons_of_mem _ hf)⟩
    · have := hs.total
      rw [List.map_cons, List.sum_cons] at this
      omega
    · have := hs.skillMd
      rw [List.map_cons, List.mem_cons] at this
      grind
    · exact (open_written h).mpr ⟨hs.free f (List.mem_cons_of_mem _ hf), ha.1 f hf⟩
  · rintro ⟨⟨hseen, hsize, hdots⟩, hs⟩
    refine ⟨List.forall_mem_cons.mpr ⟨hseen, fun f hf hmem => hs.unseen f hf (List.mem_cons_of_mem _ hmem)⟩,
      List.nodup_cons.mpr ⟨fun hmem => ?_, hs.distinct⟩, List.forall_mem_cons.mpr ⟨hsize, hs.size⟩, ?_, ?_,
      List.forall_mem_cons.mpr ⟨⟨hdots, hok.1⟩, hs.named⟩,
      List.forall_mem_cons.mpr ⟨hok.2.1, fun f hf => ((open_written h).mp (hs.free f hf)).1⟩,
      List.pairwise_cons.mpr ⟨fun f hf => ((open_written h).mp (hs.free f hf)).2, hs.apart⟩⟩
    · obtain ⟨f, hf, heq⟩ := List.mem_map.mp hmem
      exact hs.unseen f hf (List.mem_cons.mpr (.inl heq))
    · have := hs.total
      rw [List.map_cons, List.sum_cons]
      omega
    · have := hs.skillMd
      rw [List.map_cons, List.mem_cons]
      grind

/-- What one round of the loop does. -/
theorem stageFiles_cons : stageFiles host tempId (file :: files) seen total disk = .ok disk' ↔
    (file.path ∉ seen ∧ file.content.length ≤ MAX_SINGLE_FILE_BYTES ∧
      total + file.content.length ≤ MAX_SKILL_TOTAL_UPLOAD_BYTES ∧ hasDots (normalized file.path) = false) ∧
    ∃ dir, writeFileSync host (disk.getD {}) (written file.path) file.content = .ok dir ∧
      stageFiles host tempId files (file.path :: seen) (total + file.content.length) (some dir) = .ok disk' := by
  rw [stageFiles]
  by_cases hseen : file.path ∈ seen
  · simp [hseen]
  rw [if_neg hseen]
  by_cases hsize : file.content.length ≤ MAX_SINGLE_FILE_BYTES
  swap
  · simp [validateSingleFileSize, hsize, Nat.not_le.mp hsize, Except.bind]
  by_cases htotal : total + file.content.length ≤ MAX_SKILL_TOTAL_UPLOAD_BYTES
  swap
  · simp [validateSingleFileSize, validateSkillTotalSize, hsize, htotal, Nat.not_lt.mpr hsize, Nat.not_le.mp htotal,
      Except.bind]
  have hsizes : ((validateSingleFileSize file.content.length).bind fun _ =>
      validateSkillTotalSize (total + file.content.length)) = .ok () := by
    simp [validateSingleFileSize, validateSkillTotalSize, Nat.not_lt.mpr hsize, Nat.not_lt.mpr htotal, Except.bind]
  rw [hsizes]
  dsimp only
  rcases writeSkillFile_cases host tempId file.path file.content disk with ⟨e, hw⟩ | ⟨hdots, dir, hw, hwrite⟩
  · rw [hw]
    refine iff_of_false nofun ?_
    rintro ⟨⟨-, -, -, hdots⟩, dir, hwrite, -⟩
    have hname : normalized file.path ≠ [] := by
      intro heq
      refine (writeFileSync_ok hwrite).2.1.ne_nil ?_
      rw [written, heq]
      rfl
    rw [writeSkillFile_named hdots hname, writeIn, hwrite] at hw
    cases hw
  · rw [hw]
    simp [hseen, hsize, htotal, hdots, hwrite]

theorem stageFiles_ok_iff (htotal : total ≤ MAX_SKILL_TOTAL_UPLOAD_BYTES) :
    (∃ disk', stageFiles host tempId files seen total disk = .ok disk') ↔
      Stages host seen total (disk.getD {}) files := by
  induction files generalizing seen total disk with
  | nil =>
    rw [stageFiles]
    split_ifs with hmd
    · exact iff_of_true ⟨_, rfl⟩ ⟨by simp, .nil, by simp, htotal, .inl hmd, by simp, by simp, .nil⟩
    · exact iff_of_false nofun fun h => h.skillMd.elim hmd (by simp)
  | cons file files ih =>
    simp only [stageFiles_cons]
    constructor
    · rintro ⟨disk', ⟨hseen, hsize, hle, hdots⟩, dir, hwrite, hrest⟩
      exact (stages_cons hwrite).mpr ⟨⟨hseen, hsize, hdots⟩, (@ih (some dir) _ _ hle).mp ⟨disk', hrest⟩⟩
    · intro h
      have hnamed := h.named file List.mem_cons_self
      obtain ⟨dir, hwrite⟩ := @writeFileSync_of_open _ _ _ file.content hnamed.2 (h.free file List.mem_cons_self)
      obtain ⟨⟨hseen, hsize, hdots⟩, hs⟩ := (stages_cons hwrite).mp h
      have hle : total + file.content.length ≤ MAX_SKILL_TOTAL_UPLOAD_BYTES :=
        Nat.le_trans (Nat.le_add_right _ _) hs.total
      obtain ⟨disk', hrest⟩ := (@ih (some dir) _ _ hle).mpr hs
      exact ⟨disk', ⟨hseen, hsize, hle, hdots⟩, dir, hwrite, hrest⟩

/-- Of the files that are written to one path the last stands there. -/
theorem stageFiles_file? (h : stageFiles host tempId files seen total disk = .ok disk') (path : List Name) :
    disk'.bind (·.file? path) = ((files.reverse.find? fun f => written f.path = path).map (·.content)).or
      (disk.bind (·.file? path)) := by
  induction files generalizing seen total disk with
  | nil =>
    rw [stageFiles] at h
    split_ifs at h
    obtain rfl := Except.ok.inj h
    rfl
  | cons file files ih =>
    obtain ⟨-, dir, hwrite, hrest⟩ := stageFiles_cons.mp h
    rw [ih hrest, List.reverse_cons, List.find?_append, Option.map_or, Option.or_assoc, Option.bind_some,
      (writeFileSync_ok hwrite).2.2.1, file?_getD]
    congr 1
    by_cases hpath : written file.path = path
    · simp [hpath]
    · simp [hpath, Ne.symm hpath]

end Staging

section Swap

variable {host : SkillHost} {faults : Faults} {skillId : String} {files : List SkillStorageFile} {t : Temporaries}
  {s s' : Storage} {swap : Swap}

/-- `tempId` and `backupId` are new. -/
structure Fresh (skillId : String) (t : Temporaries) (s : Storage) : Prop where
  temp : s (makeTempSkillId skillId t.temp) = none
  backup : s (makeTempSkillId (skillId ++ "_backup") t.backup) = none

variable (host faults skillId files t s) in
structure Exact : Prop where
  thrown : ∀ e s', replaceSkillFilesWithRollback host faults skillId files t s = (.error e, s') → s' = s
  stored : ∀ swap s', replaceSkillFilesWithRollback host faults skillId files t s = (.ok swap, s') →
    ∃ place : SkillStorageFile → List Name, Set.InjOn place {f | f ∈ files} ∧ ∀ path content,
      (s' skillId).bind (·.file? path) = some content ↔ ∃ f ∈ files, place f = path ∧ f.content = content
  rolledBack : ∀ swap s', replaceSkillFilesWithRollback host faults skillId files t s = (.ok swap, s') →
    (swap.rollback s').2 = s
  committed : ∀ swap s', replaceSkillFilesWithRollback host faults skillId files t s = (.ok swap, s') →
    ∀ id, (swap.commit s').2 id = if id = skillId then s' id else s id
  once : ∀ swap s', replaceSkillFilesWithRollback host faults skillId files t s = (.ok swap, s') →
    ∀ settled ∈ [(swap.commit s').1, (swap.rollback s').1], ∀ later,
      settled.commit later = (settled, later) ∧ settled.rollback later = (settled, later)

variable (host faults skillId files s) in
/-- The list is accepted and nothing fails, but two of its files have one place. -/
structure Collides : Prop where
  staged : Stages host [] 0 {} files
  faultless : faults.write = false ∧ faults.swap = false ∧ ((s skillId).isSome = true → faults.backup = false)
  shared : ∃ f ∈ files, ∃ g ∈ files, f ≠ g ∧ written f.path = written g.path

theorem replace_ok
    (h : replaceSkillFilesWithRollback host faults skillId files t s = (.ok swap, s')) :
    faults.write = false ∧ faults.swap = false ∧ ((s skillId).isSome = true → faults.backup = false) ∧
      swap.settled = false ∧
      SkillReplace.replaceSkillFilesWithRollback host skillId files t s = (.ok swap.toSkillStorageSwap, s') := by
  have hid : ∀ disk, (s.put (makeTempSkillId skillId t.temp) disk) skillId = s skillId :=
    fun disk => Function.update_of_ne (makeTempSkillId_ne skillId t.temp).symm _ _
  unfold replaceSkillFilesWithRollback at h
  unfold SkillReplace.replaceSkillFilesWithRollback
  cases hwrite : faults.write with
  | true => simp [hwrite] at h
  | false =>
    simp only [hwrite, Bool.false_eq_true, if_false] at h
    cases hstage : stageFiles host (makeTempSkillId skillId t.temp) files [] 0 (s (makeTempSkillId skillId t.temp)) with
    | error e => rw [hstage] at h; cases h
    | ok disk =>
      rw [hstage] at h
      dsimp only at h ⊢
      split at h
      · cases h
      rename_i hbackup
      split at h
      · cases h
      rename_i hswap
      rw [hid] at hbackup
      obtain ⟨hres, hs⟩ := Prod.mk.inj h
      obtain rfl := Except.ok.inj hres
      subst hs
      refine ⟨rfl, by simpa using hswap, fun hsome => by simpa [hsome] using hbackup, rfl, by rw [hstage]⟩

theorem replace_staged (hfresh : Fresh skillId t s)
    (h : replaceSkillFilesWithRollback host faults skillId files t s = (.ok swap, s')) :
    stageFiles host (makeTempSkillId skillId t.temp) files [] 0 none = .ok (s' skillId) ∧
      ∀ id, (swap.commit s').2 id = if id = skillId then s' id else s id := by
  obtain ⟨-, -, -, hsettled, h⟩ := replace_ok h
  have htemp := makeTempSkillId_ne skillId t.temp
  have hbackup := backupId_ne skillId t.backup
  have hne := tempId_ne_backupId skillId t
  rw [Swap.commit, hsettled, if_neg Bool.false_ne_true]
  unfold SkillReplace.replaceSkillFilesWithRollback at h
  dsimp only at h
  cases hstage : stageFiles host (makeTempSkillId skillId t.temp) files [] 0 (s (makeTempSkillId skillId t.temp)) with
  | error e => rw [hstage] at h; cases h
  | ok disk =>
    rw [hstage] at h
    obtain ⟨hswap, rfl⟩ := Prod.mk.inj h
    rw [hfresh.temp] at hstage
    rw [← Except.ok.inj hswap, hstage]
    refine ⟨?_, fun id => ?_⟩
    · split <;> simp [Storage.rename, Storage.put, htemp, htemp.symm, hne]
    · simp only [SkillStorageSwap.commit, Storage.removeSkillStorage, Storage.rename, Storage.put,
        Function.update_apply, apply_ite (fun s : Storage => s id)]
      have := hfresh.temp
      have := hfresh.backup
      grind

theorem replace_thrown {e : String} (hfresh : Fresh skillId t s)
    (h : replaceSkillFilesWithRollback host faults skillId files t s = (.error e, s')) : s' = s := by
  have htemp := makeTempSkillId_ne skillId t.temp
  have hbackup := backupId_ne skillId t.backup
  have hne := tempId_ne_backupId skillId t
  have hfreeTemp := hfresh.temp
  have hfreeBackup := hfresh.backup
  unfold replaceSkillFilesWithRollback restore at h
  dsimp only at h
  split at h
  · obtain rfl := (Prod.mk.inj h).2
    exact put_self hfresh.temp
  · split at h
    · obtain rfl := (Prod.mk.inj h).2
      funext id
      simp only [Storage.removeSkillStorage, Storage.rename, Storage.put, Function.update_apply]
      grind
    · split at h
      · obtain rfl := (Prod.mk.inj h).2
        funext id
        simp only [Storage.removeSkillStorage, Storage.rename, Storage.put, Function.update_apply]
        grind
      · cases h

theorem replace_of_faultless (hfresh : Fresh skillId t s) (hstages : Stages host [] 0 {} files)
    (hfaults : faults.write = false ∧ faults.swap = false ∧ ((s skillId).isSome = true → faults.backup = false)) :
    ∃ swap s', replaceSkillFilesWithRollback host faults skillId files t s = (.ok swap, s') := by
  obtain ⟨hwrite, hswap, hbackup⟩ := hfaults
  have hid : ∀ disk, (s.put (makeTempSkillId skillId t.temp) disk) skillId = s skillId :=
    fun disk => Function.update_of_ne (makeTempSkillId_ne skillId t.temp).symm _ _
  obtain ⟨disk, hstage⟩ := (@stageFiles_ok_iff host none files [] 0 (makeTempSkillId skillId t.temp)
    (Nat.zero_le _)).mpr hstages
  unfold replaceSkillFilesWithRollback
  dsimp only
  rw [hwrite, if_neg Bool.false_ne_true, hfresh.temp, hstage]
  dsimp only
  rw [hid, if_neg (by simpa using hbackup), hswap, if_neg Bool.false_ne_true]
  exact ⟨_, _, rfl⟩

/-- With `place` for their places, the files of the directory are as many as those of the list. -/
theorem injOn_of_stored {place place' : SkillStorageFile → List Name} (h : Set.InjOn place {f | f ∈ files})
    (hsame : ∀ path, (∃ f ∈ files, place f = path) ↔ ∃ f ∈ files, place' f = path) :
    Set.InjOn place' {f | f ∈ files} := by
  have himage : files.toFinset.image place = files.toFinset.image place' := by
    ext path
    simpa using hsame path
  have hcoe : ((files.toFinset : Finset SkillStorageFile) : Set SkillStorageFile) = {f | f ∈ files} := by
    ext f
    simp
  rw [← hcoe] at h ⊢
  rw [← Finset.card_image_iff, ← himage, Finset.card_image_iff.mpr h]

end Swap

section Runs

def spelledTwice : List SkillStorageFile := [⟨"SKILL.md", [0x23]⟩, ⟨"a//b", [1]⟩, ⟨"a/b", [2]⟩]

end Runs

end A2Wave.SkillSwap
