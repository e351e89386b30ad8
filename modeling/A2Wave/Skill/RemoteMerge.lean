import A2Wave.Lib.Traverse
import A2Wave.Skill.Replace

/-! The merge of a remote update as a merge of three states path by path. -/

namespace A2Wave.RemoteSkill

open SkillStorage Traverse

section ThreeWay

variable {β : Type} [DecidableEq β] {base loc latest : β}

def threeWay (base loc latest : β) : β := if loc = base then latest else loc

abbrev Conflicting (base loc latest : β) : Prop := loc ≠ base ∧ latest ≠ base ∧ loc ≠ latest

@[simp] theorem threeWay_self (base : β) : threeWay base base base = base := if_pos rfl

end ThreeWay

section FileAt

variable {files files' : List SkillStorageFile} {path : String} {content : Buffer}

abbrev Distinct (files : List SkillStorageFile) : Prop := (files.map SkillStorageFile.path).Nodup

theorem eq_of_path (h : Distinct files) {file file' : SkillStorageFile} (hf : file ∈ files) (hf' : file' ∈ files)
    (hpath : file.path = file'.path) : file = file' :=
  List.inj_on_of_nodup_map h hf hf' hpath

theorem fileAt_eq_some (h : Distinct files) : fileAt files path = some content ↔ ⟨path, content⟩ ∈ files := by
  rw [fileAt, Option.map_eq_some_iff]
  constructor
  · rintro ⟨⟨p, c⟩, hfind, rfl⟩
    have hp : p = path := by simpa using List.find?_some hfind
    subst hp
    exact List.mem_reverse.mp (List.mem_of_find?_eq_some hfind)
  · intro hmem
    cases hfind : files.reverse.find? fun file => file.path = path with
    | none =>
      have hnone := List.find?_eq_none.mp hfind _ (List.mem_reverse.mpr hmem)
      simp at hnone
    | some file =>
      have hp : file.path = path := by simpa using List.find?_some hfind
      have hf : file ∈ files := List.mem_reverse.mp (List.mem_of_find?_eq_some hfind)
      exact ⟨file, rfl, congrArg SkillStorageFile.content (eq_of_path h hf hmem hp)⟩

theorem fileAt_eq_none : fileAt files path = none ↔ path ∉ files.map SkillStorageFile.path := by
  rw [fileAt, Option.map_eq_none_iff, List.find?_eq_none, List.mem_map]
  simp only [List.mem_reverse, decide_eq_true_eq]
  exact ⟨fun h ⟨file, hf, hp⟩ => h file hf hp, fun h file hf hp => h ⟨file, hf, hp⟩⟩

def SameFiles (files files' : List SkillStorageFile) : Prop := ∀ file, file ∈ files ↔ file ∈ files'

theorem sameFiles_iff (h : Distinct files) (h' : Distinct files') :
    SameFiles files files' ↔ ∀ path, fileAt files path = fileAt files' path := by
  constructor
  · intro hsame path
    apply Option.ext
    intro content
    rw [fileAt_eq_some h, fileAt_eq_some h']
    exact hsame ⟨path, content⟩
  · rintro hat ⟨path, content⟩
    rw [← fileAt_eq_some h, ← fileAt_eq_some h', hat path]

theorem fileAt_perm (h : Distinct files) (hperm : files.Perm files') : fileAt files = fileAt files' := by
  have h' : Distinct files' := (hperm.map _).nodup_iff.mp h
  funext path
  exact (sameFiles_iff h h').mp (fun file => hperm.mem_iff) path

end FileAt

theorem nodup_eraseDups (xs : List String) : xs.eraseDups.Nodup := by
  induction hn : xs.length using Nat.strongRecOn generalizing xs with
  | _ n ih =>
    cases xs with
    | nil => exact .nil
    | cons x xs =>
      rw [List.eraseDups_cons, List.nodup_cons]
      constructor
      · rw [List.mem_eraseDups, List.mem_filter]
        simp
      · refine ih _ ?_ _ rfl
        rw [← hn]
        exact Nat.lt_succ_of_le (List.length_filter_le _ xs)

section Merge

variable {remote : Remote} {base loc latest : List SkillStorageFile} {path : String}
  {strategy : RemoteSkillUpdateStrategy} {m : Merged}

theorem nodup_allPaths : (allPaths remote base loc latest).Nodup :=
  (List.mergeSort_perm _ _).nodup_iff.mpr (nodup_eraseDups _)

theorem not_mem_allPaths : path ∉ allPaths remote base loc latest ↔
    fileAt base path = none ∧ fileAt loc path = none ∧ fileAt latest path = none := by
  rw [allPaths, sortPaths, List.mem_mergeSort, List.mem_eraseDups, List.map_append, List.map_append,
    List.mem_append, List.mem_append, fileAt_eq_none, fileAt_eq_none, fileAt_eq_none, not_or, not_or, and_assoc]

theorem mem_allPaths_of_changed (h : ¬ (fileAt base path = fileAt loc path ∧ fileAt base path = fileAt latest path)) :
    path ∈ allPaths remote base loc latest := by
  by_contra hpath
  obtain ⟨hb, hl, hr⟩ := not_mem_allPaths.mp hpath
  exact h ⟨hb.trans hl.symm, hb.trans hr.symm⟩

theorem changeKind_isNone {b current : Option Buffer} : (changeKind b current).isNone ↔ b = current := by
  grind [changeKind]

def diffAt (base loc latest : List SkillStorageFile) (path : String) : RemoteSkillFileDiff :=
  { path := path, localChange := changeKind (fileAt base path) (fileAt loc path)
    remoteChange := changeKind (fileAt base path) (fileAt latest path)
    conflict := decide (Conflicting (fileAt base path) (fileAt loc path) (fileAt latest path)) }

theorem mem_compare {d : RemoteSkillFileDiff} : d ∈ compareRemoteSkillFiles remote base loc latest ↔
    d = diffAt base loc latest d.path ∧
      ¬ (fileAt base d.path = fileAt loc d.path ∧ fileAt base d.path = fileAt latest d.path) := by
  have hreport : ∀ path, diffAt base loc latest path =
      ⟨path, changeKind (fileAt base path) (fileAt loc path), changeKind (fileAt base path) (fileAt latest path),
        (changeKind (fileAt base path) (fileAt loc path)).isSome &&
          (changeKind (fileAt base path) (fileAt latest path)).isSome && fileAt loc path ≠ fileAt latest path⟩ := by
    intro path
    rw [diffAt, RemoteSkillFileDiff.mk.injEq]
    refine ⟨rfl, rfl, rfl, ?_⟩
    grind [changeKind]
  rw [compareRemoteSkillFiles, List.mem_filterMap]
  simp only [changeKind_isNone, ← hreport]
  constructor
  · rintro ⟨path, -, hd⟩
    split at hd
    · cases hd
    · rename_i hchanged
      obtain rfl := Option.some.inj hd
      exact ⟨rfl, hchanged⟩
  · rintro ⟨hd, hchanged⟩
    exact ⟨d.path, mem_allPaths_of_changed hchanged, by rw [if_neg hchanged, ← hd]⟩

theorem selectFile_eq : selectFile base loc latest strategy path =
    if strategy = .overwrite then .ok (fileAt latest path)
    else if strategy = .abort ∧ Conflicting (fileAt base path) (fileAt loc path) (fileAt latest path) then
      .error (.remote .invalidUrl ("Remote Skill update conflicts at " ++ path))
    else .ok (threeWay (fileAt base path) (fileAt loc path) (fileAt latest path)) := by
  rw [selectFile]
  cases strategy <;> grind [threeWay]

theorem selectFile_error : (∃ e, selectFile base loc latest strategy path = .error e) ↔
    strategy = .abort ∧ Conflicting (fileAt base path) (fileAt loc path) (fileAt latest path) := by
  rw [selectFile_eq]
  split
  · rename_i hs
    simp [hs]
  · split
    · rename_i h
      exact iff_of_true ⟨_, rfl⟩ h
    · rename_i h
      exact iff_of_false (fun ⟨_, he⟩ => nomatch he) h

def mergedFile (base loc latest : List SkillStorageFile) (strategy : RemoteSkillUpdateStrategy) (path : String) :
    Except Thrown (Option SkillStorageFile) :=
  (selectFile base loc latest strategy path).map fun selected => selected.map fun content => ⟨path, content⟩

theorem merge_cases : (∃ e, (allPaths remote base loc latest).mapM (mergedFile base loc latest strategy) = .error e ∧
      mergeRemoteSkillFiles remote base loc latest strategy = .error e) ∨
    ∃ selected m, (allPaths remote base loc latest).mapM (mergedFile base loc latest strategy) = .ok selected ∧
      mergeRemoteSkillFiles remote base loc latest strategy = .ok m ∧ m.files = selected.filterMap id ∧
      m.preservedLocalChanges =
        decide (calculateRemoteSkillDigest remote m.files ≠ calculateRemoteSkillDigest remote latest) := by
  have hmerge : mergeRemoteSkillFiles remote base loc latest strategy =
      ((allPaths remote base loc latest).mapM (mergedFile base loc latest strategy)).map fun selected =>
        ⟨selected.filterMap id, decide (calculateRemoteSkillDigest remote (selected.filterMap id) ≠
          calculateRemoteSkillDigest remote latest)⟩ := rfl
  rw [hmerge]
  cases (allPaths remote base loc latest).mapM (mergedFile base loc latest strategy) with
  | error e => exact .inl ⟨e, rfl, rfl⟩
  | ok selected => exact .inr ⟨selected, _, rfl, rfl, rfl, rfl⟩

theorem mergedFile_error : (∃ e, mergedFile base loc latest strategy path = .error e) ↔
    ∃ e, selectFile base loc latest strategy path = .error e := by
  rw [mergedFile]
  cases selectFile base loc latest strategy path with
  | error e => exact iff_of_true ⟨e, rfl⟩ ⟨e, rfl⟩
  | ok o => exact iff_of_false (fun ⟨_, h⟩ => nomatch h) (fun ⟨_, h⟩ => nomatch h)

theorem mergedFile_ok {file : SkillStorageFile} : mergedFile base loc latest strategy path = .ok (some file) ↔
    file.path = path ∧ selectFile base loc latest strategy path = .ok (some file.content) := by
  rw [mergedFile]
  cases selectFile base loc latest strategy path with
  | error e => exact iff_of_false nofun (fun h => nomatch h.2)
  | ok o =>
    obtain ⟨p, c⟩ := file
    cases o with
    | none => exact iff_of_false (fun h => nomatch Except.ok.inj h) (fun h => nomatch Except.ok.inj h.2)
    | some content =>
      constructor
      · intro h
        obtain ⟨rfl, rfl⟩ := SkillStorageFile.mk.inj (Option.some.inj (Except.ok.inj h))
        exact ⟨rfl, rfl⟩
      · rintro ⟨rfl, h⟩
        obtain rfl := Option.some.inj (Except.ok.inj h)
        rfl

theorem merge_error : (∃ e, mergeRemoteSkillFiles remote base loc latest strategy = .error e) ↔
    strategy = .abort ∧ ∃ d ∈ compareRemoteSkillFiles remote base loc latest, d.conflict := by
  have hmapM : (∃ e, mergeRemoteSkillFiles remote base loc latest strategy = .error e) ↔
      ∃ e, (allPaths remote base loc latest).mapM (mergedFile base loc latest strategy) = .error e := by
    rcases @merge_cases remote base loc latest strategy with ⟨e, he, he'⟩ | ⟨_, _, hs, hm, _⟩
    · exact iff_of_true ⟨e, he'⟩ ⟨e, he⟩
    · rw [hs, hm]
      simp
  rw [hmapM, mapM_error_iff]
  simp only [mergedFile_error, selectFile_error]
  constructor
  · rintro ⟨path, -, rfl, hc⟩
    refine ⟨rfl, diffAt base loc latest path, mem_compare.mpr ⟨rfl, fun h => hc.1 h.1.symm⟩, decide_eq_true hc⟩
  · rintro ⟨rfl, d, hd, hc⟩
    obtain ⟨hdiff, hchanged⟩ := mem_compare.mp hd
    rw [hdiff] at hc
    exact ⟨d.path, mem_allPaths_of_changed hchanged, rfl, of_decide_eq_true hc⟩

theorem paths_sublist {paths : List String} {selected : List (Option SkillStorageFile)}
    (h : paths.map (mergedFile base loc latest strategy) = selected.map .ok) :
    ((selected.filterMap id).map SkillStorageFile.path).Sublist paths := by
  induction paths generalizing selected with
  | nil =>
    obtain rfl : selected = [] := List.map_eq_nil_iff.mp h.symm
    exact .slnil
  | cons path paths ih =>
    cases selected with
    | nil => cases h
    | cons o selected =>
      obtain ⟨ho, hrest⟩ := List.cons.inj h
      cases o with
      | none => exact (ih hrest).cons path
      | some file =>
        obtain ⟨rfl, -⟩ := mergedFile_ok.mp ho
        exact (ih hrest).cons_cons file.path

theorem fileAt_merged (h : mergeRemoteSkillFiles remote base loc latest strategy = .ok m) :
    Distinct m.files ∧ ∀ path, selectFile base loc latest strategy path = .ok (fileAt m.files path) := by
  rcases @merge_cases remote base loc latest strategy with ⟨e, -, he⟩ | ⟨selected, m', hs, hm, hfiles, -⟩
  · rw [h] at he
    cases he
  · obtain rfl : m = m' := Except.ok.inj (h.symm.trans hm)
    have hdistinct : Distinct m.files := by
      rw [Distinct, hfiles]
      exact (paths_sublist (mapM_ok_iff.mp hs)).nodup nodup_allPaths
    refine ⟨hdistinct, fun path => ?_⟩
    cases hsel : selectFile base loc latest strategy path with
    | error e =>
      obtain ⟨rfl, hc⟩ := selectFile_error.mp ⟨e, hsel⟩
      have hmem : path ∈ allPaths remote base loc latest := mem_allPaths_of_changed fun h => hc.1 h.1.symm
      have herror := mapM_error_iff.mpr ⟨path, hmem, mergedFile_error.mpr ⟨e, hsel⟩⟩
      rw [hs] at herror
      exact absurd herror (fun ⟨_, h⟩ => nomatch h)
    | ok o =>
      congr 1
      apply Option.ext
      intro content
      rw [fileAt_eq_some hdistinct, hfiles, List.mem_filterMap]
      constructor
      · rintro rfl
        refine ⟨some ⟨path, content⟩, (mem_of_mapM_ok hs).mpr ⟨path, ?_, mergedFile_ok.mpr ⟨rfl, hsel⟩⟩, rfl⟩
        by_contra hpath
        obtain ⟨hb, hl, hr⟩ := not_mem_allPaths.mp hpath
        rw [selectFile_eq, hb, hl, hr] at hsel
        cases strategy <;> simp at hsel
      · rintro ⟨o', ho', rfl⟩
        obtain ⟨p, -, hp⟩ := (mem_of_mapM_ok hs).mp ho'
        obtain ⟨rfl, hp⟩ := mergedFile_ok.mp hp
        rw [hsel] at hp
        exact Except.ok.inj hp

end Merge

section Update

variable {remote : Remote} {base loc latest : List SkillStorageFile}

/-- The merge of an update, path by path: it throws only on a conflict that the report has, takes the latest state where
the local one is the base and keeps the local one elsewhere, and agrees with the report on the paths that nobody has
changed; neither depends on the order of the files. -/
theorem mergeRemoteSkillFiles_threeWay (hb : Distinct base) (hl : Distinct loc) (hr : Distinct latest) :
    (∀ strategy, (∃ e, mergeRemoteSkillFiles remote base loc latest strategy = .error e) ↔
      strategy = .abort ∧ ∃ d ∈ compareRemoteSkillFiles remote base loc latest, d.conflict) ∧
    (∀ strategy m, mergeRemoteSkillFiles remote base loc latest strategy = .ok m → strategy ≠ .overwrite → ∀ path,
      (fileAt loc path = fileAt base path → fileAt m.files path = fileAt latest path) ∧
      (fileAt loc path ≠ fileAt base path → fileAt m.files path = fileAt loc path)) ∧
    (∀ m, mergeRemoteSkillFiles remote base loc latest .overwrite = .ok m → SameFiles m.files latest) ∧
    (∀ strategy m, mergeRemoteSkillFiles remote base loc latest strategy = .ok m → Distinct m.files) ∧
    (∀ path, (∀ d ∈ compareRemoteSkillFiles remote base loc latest, d.path ≠ path) →
      fileAt loc path = fileAt base path ∧ fileAt latest path = fileAt base path ∧
      ∀ strategy m, mergeRemoteSkillFiles remote base loc latest strategy = .ok m →
        fileAt m.files path = fileAt base path) ∧
    (∀ base' loc' latest', base.Perm base' → loc.Perm loc' → latest.Perm latest' →
      (∀ d, d ∈ compareRemoteSkillFiles remote base loc latest ↔
        d ∈ compareRemoteSkillFiles remote base' loc' latest') ∧
      ∀ strategy m, mergeRemoteSkillFiles remote base loc latest strategy = .ok m →
        ∃ m', mergeRemoteSkillFiles remote base' loc' latest' strategy = .ok m' ∧ SameFiles m.files m'.files) := by
  have hpath : ∀ strategy m, mergeRemoteSkillFiles remote base loc latest strategy = .ok m → ∀ path,
      fileAt m.files path = if strategy = .overwrite then fileAt latest path
        else threeWay (fileAt base path) (fileAt loc path) (fileAt latest path) := by
    intro strategy m hm path
    have hsel := (fileAt_merged hm).2 path
    rw [selectFile_eq] at hsel
    split at hsel
    · rename_i hs
      rw [if_pos hs]
      exact (Except.ok.inj hsel).symm
    · rename_i hs
      rw [if_neg hs]
      split at hsel
      · cases hsel
      · exact (Except.ok.inj hsel).symm
  refine ⟨fun _ => merge_error, fun strategy m hm hs path => ⟨fun h => ?_, fun h => ?_⟩, fun m hm => ?_,
    fun _ m hm => (fileAt_merged hm).1, fun path habsent => ?_, fun base' loc' latest' pb pl pr => ?_⟩
  · rw [hpath strategy m hm, if_neg hs, threeWay, if_pos h]
  · rw [hpath strategy m hm, if_neg hs, threeWay, if_neg h]
  · exact (sameFiles_iff (fileAt_merged hm).1 hr).mpr fun path => (hpath _ m hm path).trans (if_pos rfl)
  · have hsame : fileAt base path = fileAt loc path ∧ fileAt base path = fileAt latest path := by
      by_contra hchanged
      exact habsent (diffAt base loc latest path) (mem_compare.mpr ⟨rfl, hchanged⟩) rfl
    refine ⟨hsame.1.symm, hsame.2.symm, fun strategy m hm => ?_⟩
    rw [hpath strategy m hm, ← hsame.1, ← hsame.2, threeWay_self, ite_self]
  · have hb' := fileAt_perm hb pb
    have hl' := fileAt_perm hl pl
    have hr' := fileAt_perm hr pr
    have hreport : ∀ d, d ∈ compareRemoteSkillFiles remote base loc latest ↔
        d ∈ compareRemoteSkillFiles remote base' loc' latest' := by
      intro d
      rw [mem_compare, mem_compare, diffAt, diffAt, hb', hl', hr']
    refine ⟨hreport, fun strategy m hm => ?_⟩
    cases hm' : mergeRemoteSkillFiles remote base' loc' latest' strategy with
    | error e =>
      obtain ⟨rfl, d, hd, hc⟩ := merge_error.mp ⟨e, hm'⟩
      obtain ⟨e', he'⟩ : ∃ e', mergeRemoteSkillFiles remote base loc latest .abort = .error e' :=
        merge_error.mpr ⟨rfl, d, (hreport d).mpr hd, hc⟩
      rw [hm] at he'
      cases he'
    | ok m' =>
      refine ⟨m', rfl, (sameFiles_iff (fileAt_merged hm).1 (fileAt_merged hm').1).mpr fun path => ?_⟩
      have hsel := (fileAt_merged hm).2 path
      have hsel' := (fileAt_merged hm').2 path
      rw [selectFile_eq, hb', hl', hr', ← selectFile_eq, hsel'] at hsel
      exact (Except.ok.inj hsel).symm

theorem mergeRemoteSkillFiles_threeWay_edit : fileAt [⟨"a.md", [2]⟩] "a.md" ≠ fileAt [⟨"a.md", [1]⟩] "a.md" ∧
    ∀ m, mergeRemoteSkillFiles SkillReplace.offline [⟨"a.md", [1]⟩] [⟨"a.md", [2]⟩]
        [⟨"a.md", [1]⟩, ⟨"b.md", []⟩] .abort = .ok m →
      fileAt m.files "a.md" = some [2] ∧ fileAt m.files "b.md" = some [] := by
  refine ⟨by decide, fun m hm => ?_⟩
  have hpath := (mergeRemoteSkillFiles_threeWay (by decide) (by decide) (by decide)).2.1 .abort m hm (by decide)
  exact ⟨(hpath "a.md").2 (by decide), (hpath "b.md").1 (by decide)⟩

end Update

end A2Wave.RemoteSkill
