import A2Wave.Lib.StableSort
import A2Wave.Skill.RemoteMerge

/-! Which packages the digest of a skill tells apart. -/

namespace A2Wave.RemoteSkill

open SkillStorage Std

section Records

/-- What `calculateRemoteSkillDigest` feeds to the hash for one file. -/
def record (file : SkillStorageFile) : Buffer := utf8Bytes file.path ++ [0] ++ file.content ++ [0]

def hashInput (remote : Remote) (files : List SkillStorageFile) : Buffer := (sortFiles remote files).flatMap record

structure Package (files : List SkillStorageFile) : Prop where
  distinct : Distinct files
  paths : ∀ file ∈ files, file.path ≠ "" ∧ '\x00' ∉ file.path.toList

/-- Up to one file the lists are the same; there `ys` has more content, and goes on, behind a NUL, with records that are
files of their own in `xs`. -/
def SpellsOut (xs ys : List SkillStorageFile) : Prop :=
  ∃ before path content spelled rest rest', xs = before ++ ⟨path, content⟩ :: rest ∧
    ys = before ++ ⟨path, content ++ 0 :: spelled⟩ :: rest' ∧
    rest.flatMap record = spelled ++ 0 :: rest'.flatMap record

def Unconfused (remote : Remote) (files files' : List SkillStorageFile) : Prop :=
  ¬ SpellsOut (sortFiles remote files) (sortFiles remote files') ∧
  ¬ SpellsOut (sortFiles remote files') (sortFiles remote files) ∧
  (SameFiles files files' → ∀ f g, remote.localeCompare f.path g.path = .eq →
    ([f, g].Sublist files ↔ [f, g].Sublist files'))

variable {remote : Remote} {xs ys files files' : List SkillStorageFile} {path path' : String}

theorem utf8Bytes_eq (text : String) : utf8Bytes text = text.toList.flatMap String.utf8EncodeChar := by
  rw [utf8Bytes, ← String.utf8Encode_toList, List.utf8Encode]
  simp

theorem utf8Bytes_inj : utf8Bytes path = utf8Bytes path' ↔ path = path' := by
  constructor
  · intro h
    rw [utf8Bytes, utf8Bytes] at h
    exact String.toByteArray_inj.mp (ByteArray.ext (Array.toList_inj.mp h))
  · rintro rfl
    rfl

theorem zero_mem_utf8EncodeChar {c : Char} (h : 0 ∈ String.utf8EncodeChar c) : c = '\x00' := by
  have hofNat : ∀ n, 0 = UInt8.ofNat n → n % 256 = 0 := fun n hn => (congrArg UInt8.toNat hn).symm
  have hval : c.val.toNat = 0 := by
    simp only [String.utf8EncodeChar] at h
    split at h
    · have h0 := hofNat _ (List.mem_singleton.mp h)
      omega
    · exfalso
      split at h
      · simp only [List.mem_cons, List.not_mem_nil, or_false] at h
        rcases h with h | h <;> have h0 := hofNat _ h <;> omega
      · split at h
        · simp only [List.mem_cons, List.not_mem_nil, or_false] at h
          rcases h with h | h | h <;> have h0 := hofNat _ h <;> omega
        · simp only [List.mem_cons, List.not_mem_nil, or_false] at h
          rcases h with h | h | h | h <;> have h0 := hofNat _ h <;> omega
  exact Char.ext (UInt32.toNat_inj.mp hval)

theorem Package.zero_not_mem (h : Package files) {file : SkillStorageFile} (hf : file ∈ files) :
    0 ∉ utf8Bytes file.path := by
  intro hmem
  rw [utf8Bytes_eq] at hmem
  obtain ⟨c, hc, h0⟩ := List.mem_flatMap.mp hmem
  rw [zero_mem_utf8EncodeChar h0] at hc
  exact (h.paths file hf).2 hc

theorem spellsOut_behind {before : List SkillStorageFile} (h : SpellsOut xs ys) :
    SpellsOut (before ++ xs) (before ++ ys) := by
  obtain ⟨b, path, content, spelled, rest, rest', rfl, rfl, hrest⟩ := h
  exact ⟨before ++ b, path, content, spelled, rest, rest', by simp, by simp, hrest⟩

theorem SpellsOut.hashInput (h : SpellsOut xs ys) : xs.flatMap record = ys.flatMap record := by
  obtain ⟨before, path, content, spelled, rest, rest', rfl, rfl, hrest⟩ := h
  simp [record, hrest]

theorem SpellsOut.not_sameFiles (h : SpellsOut xs ys) (hx : Distinct xs) : ¬ SameFiles xs ys := by
  obtain ⟨before, path, content, spelled, rest, rest', rfl, rfl, -⟩ := h
  intro hsame
  have hmem := (hsame ⟨path, content ++ 0 :: spelled⟩).mpr (by simp)
  have hmem' : ⟨path, content⟩ ∈ before ++ ⟨path, content⟩ :: rest := by simp
  have heq := eq_of_path hx hmem hmem' rfl
  simp at heq

theorem append_zero_cases {a b r r' : Buffer} (h : a ++ 0 :: r = b ++ 0 :: r') :
    (a = b ∧ r = r') ∨ (∃ s, b = a ++ 0 :: s ∧ r = s ++ 0 :: r') ∨ ∃ s, a = b ++ 0 :: s ∧ r' = s ++ 0 :: r := by
  rcases List.append_eq_append_iff.mp h with ⟨as, rfl, has⟩ | ⟨bs, rfl, hbs⟩
  · cases as with
    | nil => exact .inl ⟨(List.append_nil a).symm, (List.cons.inj has).2⟩
    | cons x as =>
      obtain ⟨rfl, hr⟩ := List.cons.inj has
      exact .inr (.inl ⟨as, rfl, hr⟩)
  · cases bs with
    | nil => exact .inl ⟨List.append_nil b, (List.cons.inj hbs).2.symm⟩
    | cons x bs =>
      obtain ⟨rfl, hr⟩ := List.cons.inj hbs
      exact .inr (.inr ⟨bs, rfl, hr⟩)

theorem eq_or_spellsOut (hx : ∀ file ∈ xs, 0 ∉ utf8Bytes file.path) (hy : ∀ file ∈ ys, 0 ∉ utf8Bytes file.path)
    (h : xs.flatMap record = ys.flatMap record) : xs = ys ∨ SpellsOut xs ys ∨ SpellsOut ys xs := by
  induction xs generalizing ys with
  | nil =>
    cases ys with
    | nil => exact .inl rfl
    | cons g ys => simp [record] at h
  | cons f xs ih =>
    cases ys with
    | nil => simp [record] at h
    | cons g ys =>
      obtain ⟨p, c⟩ := f
      obtain ⟨q, d⟩ := g
      have hp := hx _ List.mem_cons_self
      have hq := hy _ List.mem_cons_self
      have hrest := @ih ys (fun file hf => hx file (List.mem_cons_of_mem _ hf))
        (fun file hf => hy file (List.mem_cons_of_mem _ hf))
      simp only [List.flatMap_cons, record, List.append_assoc, List.singleton_append] at h
      -- the paths end at the first NUL
      rcases append_zero_cases h with ⟨hpq, hfiles⟩ | ⟨s, hs, -⟩ | ⟨s, hs, -⟩
      · obtain rfl : p = q := utf8Bytes_inj.mp hpq
        rcases append_zero_cases hfiles with ⟨rfl, hrecords⟩ | ⟨s, rfl, hs⟩ | ⟨s, rfl, hs⟩
        · rcases hrest hrecords with rfl | hspell | hspell
          · exact .inl rfl
          · exact .inr (.inl (@spellsOut_behind _ _ [⟨p, c⟩] hspell))
          · exact .inr (.inr (@spellsOut_behind _ _ [⟨p, c⟩] hspell))
        · exact .inr (.inl ⟨[], p, c, s, xs, ys, rfl, rfl, hs⟩)
        · exact .inr (.inr ⟨[], p, d, s, ys, xs, rfl, rfl, hs⟩)
      · exact absurd (hs ▸ by simp) hq
      · exact absurd (hs ▸ by simp) hp

end Records

section Digest

variable {remote : Remote} {files files' : List SkillStorageFile}

theorem sameFiles_sortFiles :
    SameFiles (sortFiles remote files) (sortFiles remote files') ↔ SameFiles files files' := by
  simp only [SameFiles, sortFiles, List.mem_mergeSort]

theorem sortFiles_eq_iff [TransCmp remote.localeCompare] (h : Package files) (h' : Package files')
    (hsame : SameFiles files files') : sortFiles remote files = sortFiles remote files' ↔
      ∀ f g, remote.localeCompare f.path g.path = .eq → ([f, g].Sublist files ↔ [f, g].Sublist files') := by
  have hle : ∀ a b : String, remote.localeCompare a b ≠ .gt ↔ (remote.localeCompare a b).isLE :=
    fun a b => Ordering.isLE_iff_ne_gt.symm
  have htied : ∀ a b : String, remote.localeCompare a b = .eq ↔
      remote.localeCompare a b ≠ .gt ∧ remote.localeCompare b a ≠ .gt := by
    intro a b
    rw [ne_eq, ne_eq, OrientedCmp.gt_iff_lt (a := b)]
    cases remote.localeCompare a b <;> simp
  have hperm : files.Perm files' :=
    (List.perm_ext_iff_of_nodup h.distinct.of_map h'.distinct.of_map).mpr hsame
  rw [sortFiles, sortFiles, StableSort.mergeSort_eq_iff ?_ ?_ h.distinct.of_map hperm]
  · simp only [decide_eq_true_eq]
    exact ⟨fun hall f g hfg => hall f g ((htied _ _).mp hfg).1 ((htied _ _).mp hfg).2,
      fun hall f g hfg hgf => hall f g ((htied _ _).mpr ⟨hfg, hgf⟩)⟩
  · intro a b c hab hbc
    simp only [decide_eq_true_eq, hle] at hab hbc ⊢
    exact TransCmp.isLE_trans hab hbc
  · intro a b
    rw [Bool.or_eq_true, decide_eq_true_eq, decide_eq_true_eq, ne_eq, ne_eq, OrientedCmp.gt_iff_lt (a := b.path)]
    cases remote.localeCompare a.path b.path <;> simp

theorem hashInput_eq_iff [TransCmp remote.localeCompare] (h : Package files) (h' : Package files') :
    (hashInput remote files = hashInput remote files' ↔ SameFiles files files') ↔ Unconfused remote files files' := by
  have hsorted : ∀ {files : List SkillStorageFile}, Package files → Distinct (sortFiles remote files) ∧
      ∀ file ∈ sortFiles remote files, 0 ∉ utf8Bytes file.path := fun hp =>
    ⟨((List.mergeSort_perm _ _).map _).nodup_iff.mpr hp.distinct,
      fun file hf => hp.zero_not_mem (List.mem_mergeSort.mp hf)⟩
  obtain ⟨hd, hz⟩ := hsorted h
  obtain ⟨hd', hz'⟩ := hsorted h'
  have hnot : SameFiles files files' → ¬ SpellsOut (sortFiles remote files) (sortFiles remote files') ∧
      ¬ SpellsOut (sortFiles remote files') (sortFiles remote files) := fun hsame =>
    ⟨fun hspell => hspell.not_sameFiles hd (sameFiles_sortFiles.mpr hsame),
      fun hspell => hspell.not_sameFiles hd' (sameFiles_sortFiles.mpr fun file => (hsame file).symm)⟩
  constructor
  · intro hiff
    refine ⟨fun hspell => (hnot (hiff.mp hspell.hashInput)).1 hspell,
      fun hspell => (hnot (hiff.mp hspell.hashInput.symm)).2 hspell, fun hsame => ?_⟩
    rw [← sortFiles_eq_iff h h' hsame]
    exact (eq_or_spellsOut hz hz' (hiff.mpr hsame)).resolve_right (not_or.mpr (hnot hsame))
  · rintro ⟨hspell, hspell', htied⟩
    constructor
    · intro heq
      have hsort := (eq_or_spellsOut hz hz' heq).resolve_right (not_or.mpr ⟨hspell, hspell'⟩)
      exact sameFiles_sortFiles.mp fun file => by rw [hsort]
    · intro hsame
      rw [hashInput, hashInput, (sortFiles_eq_iff h h' hsame).mpr (htied hsame)]

theorem calculateRemoteSkillDigest_inj (hsha : Function.Injective remote.sha256) :
    calculateRemoteSkillDigest remote files = calculateRemoteSkillDigest remote files' ↔
      hashInput remote files = hashInput remote files' := by
  constructor
  · intro h
    have hlist := congrArg String.toList h
    rw [calculateRemoteSkillDigest, calculateRemoteSkillDigest, String.toList_append, String.toList_append] at hlist
    exact hsha (String.toList_inj.mp (List.append_cancel_left hlist))
  · intro h
    exact congrArg (fun input => "sha256:" ++ remote.sha256 input) h

/-- The loop over the selections of `POST /remote/install`, each a path with the digest that was inspected. -/
def selectPackages (packages : List RemoteSkillPackage) :
    List String → List (String × String) → Except Thrown (List RemoteSkillPackage)
  | _, [] => .ok []
  | seenPaths, (path, digest) :: selections =>
    if path ∈ seenPaths then .error (.remote .invalidUrl ("Duplicate Skill selection: " ++ path))
    else match packages.reverse.find? fun candidate => candidate.path = path with
      | none => .error (.remote .notFound ("Selected Skill no longer exists at " ++ path))
      | some candidate =>
        if candidate.digest ≠ digest then
          .error (.remote .invalidUrl ("Selected Skill digest does not match the inspected snapshot: " ++ path))
        else (selectPackages packages (path :: seenPaths) selections).map (candidate :: ·)

theorem selectPackages_digest {packages selected : List RemoteSkillPackage} {seenPaths : List String}
    {selections : List (String × String)} (h : selectPackages packages seenPaths selections = .ok selected) :
    ∀ candidate ∈ selected, candidate ∈ packages ∧ (candidate.path, candidate.digest) ∈ selections := by
  induction selections generalizing seenPaths selected with
  | nil =>
    obtain rfl := Except.ok.inj h
    simp
  | cons selection selections ih =>
    obtain ⟨path, digest⟩ := selection
    rw [selectPackages] at h
    split at h
    · cases h
    · split at h
      · cases h
      · rename_i candidate hfind
        split at h
        · cases h
        · rename_i hdigest
          cases hrest : selectPackages packages (path :: seenPaths) selections with
          | error e =>
            rw [hrest] at h
            cases h
          | ok rest =>
            rw [hrest] at h
            obtain rfl := Except.ok.inj h
            intro c hc
            rcases List.mem_cons.mp hc with rfl | hc
            · have hpath : c.path = path := by simpa using List.find?_some hfind
              refine ⟨List.mem_reverse.mp (List.mem_of_find?_eq_some hfind), ?_⟩
              rw [hpath, not_not.mp hdigest]
              exact List.mem_cons_self
            · exact ⟨(ih hrest c hc).1, List.mem_cons_of_mem _ (ih hrest c hc).2⟩

theorem Package.merged {base loc latest : List SkillStorageFile} {strategy : RemoteSkillUpdateStrategy} {m : Merged}
    (hloc : Package loc) (hlatest : Package latest)
    (hm : mergeRemoteSkillFiles remote base loc latest strategy = .ok m) : Package m.files := by
  obtain ⟨hdistinct, hselect⟩ := fileAt_merged hm
  refine ⟨hdistinct, fun file hf => ?_⟩
  have hsel := hselect file.path
  rw [(fileAt_eq_some hdistinct).mpr hf, selectFile_eq] at hsel
  have hat : fileAt latest file.path = some file.content ∨ fileAt loc file.path = some file.content := by
    grind [threeWay]
  rcases hat with hat | hat
  · exact hlatest.paths _ ((fileAt_eq_some hlatest.distinct).mp hat)
  · exact hloc.paths _ ((fileAt_eq_some hloc.distinct).mp hat)

end Digest

section Runs

def hashing : Remote :=
  { SkillReplace.offline with sha256 := fun input => String.ofList (input.map Char.ofUInt8) }

instance : TransCmp hashing.localeCompare := inferInstanceAs (TransCmp (compare : String → String → Ordering))

theorem hashing_injective : Function.Injective hashing.sha256 := by
  have hchar : Function.Injective Char.ofUInt8 := fun b b' hb => UInt8.toUInt32_inj.mp (congrArg Char.val hb)
  exact fun x y h => hchar.list_map (String.ofList_injective h)

def twoFiles : List SkillStorageFile := [⟨"SKILL.md", [0x23]⟩, ⟨"b", [0x79]⟩]

def oneFile : List SkillStorageFile := [⟨"SKILL.md", [0x23, 0, 0x62, 0, 0x79]⟩]

theorem package_twoFiles : Package twoFiles := ⟨by decide, by decide⟩

theorem package_oneFile : Package oneFile := ⟨by decide, by decide⟩

theorem hashInput_twoFiles : hashInput hashing twoFiles = hashInput hashing oneFile := by
  rw [hashInput, hashInput, sortFiles, sortFiles, List.mergeSort_of_pairwise (by decide),
    List.mergeSort_of_pairwise (by decide)]
  decide

theorem not_sameFiles_twoFiles : ¬ SameFiles twoFiles oneFile := by
  intro h
  have hmem := (h ⟨"b", [0x79]⟩).mp (by decide)
  revert hmem
  decide

end Runs

end A2Wave.RemoteSkill
