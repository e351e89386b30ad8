import Mathlib.Algebra.BigOperators.Group.List.Basic
import A2Wave.Lib.JsonText
import A2Wave.Lib.Outcome
import A2Wave.Lib.Path

/-! The checks of `lib/agent-import.ts` on an archive before any of it is used, and the files of skills that are
collected from it. -/

namespace A2Wave.ImportArchive

open JsonText Path Separated

structure AgentImportArchiveLimits where
  maxEntries : Nat
  maxEntryUncompressedBytes : Nat
  maxTotalUncompressedBytes : Nat
  maxSkillUncompressedBytes : Nat
  maxSkillFiles : Nat
  maxPathBytes : Nat
  maxPathSegmentBytes : Nat

def AGENT_IMPORT_ARCHIVE_LIMITS : AgentImportArchiveLimits :=
  { maxEntries := 10000, maxEntryUncompressedBytes := 10 * 1024 * 1024, maxTotalUncompressedBytes := 100 * 1024 * 1024
    maxSkillUncompressedBytes := 10 * 1024 * 1024
    maxSkillFiles := 500
    maxPathBytes := 1024
    maxPathSegmentBytes := 255 }

structure ZipEntry where
  entryName : String
  isDirectory : Bool := false
  attr : Option (BitVec 32) := none
  size : Option ℚ := some 0
  compressedSize : Option ℚ := some 0
  data : List UInt8 := []

def formatBytes (bytes : Nat) : String :=
  if bytes % (1024 * 1024) = 0 then toString (bytes / 1024 / 1024) ++ "MB"
  else if bytes % 1024 = 0 then toString (bytes / 1024) ++ "KB"
  else toString bytes ++ " bytes"

section Paths

def illegalPath (path : String) : String := "ZIP contains an illegal path: " ++ String.ofList (quote path)

/-- `/^[a-zA-Z]:/`. -/
def hasDrive : List Char → Bool
  | c :: ':' :: _ => c.isAlpha
  | _ => false

def byteLength (cs : List Char) : Nat := (String.ofList cs).utf8ByteSize

def normalizedPath (path : List Char) : List Char := if path.getLast? = some '/' then path.dropLast else path

def isIllegalSegment (limits : AgentImportArchiveLimits) (segment : List Char) : Bool :=
  segment = [] || segment = ['.'] || segment = ['.', '.'] || decide (limits.maxPathSegmentBytes < byteLength segment)

def validateArchivePath (rawPath : String) (limits : AgentImportArchiveLimits) : Except String String :=
  let path := rawPath.toList
  if path = [] || path.contains (Char.ofNat 0) || path.contains backslash || path.head? = some '/' || hasDrive path ||
      decide (['/', '/'] <:+: path) || decide (limits.maxPathBytes < byteLength path) then
    .error (illegalPath rawPath)
  else
    let withoutDirectorySuffix := normalizedPath path
    if withoutDirectorySuffix = [] || (withoutDirectorySuffix.splitOn '/').any (isIllegalSegment limits) then
      .error (illegalPath rawPath)
    else .ok rawPath

end Paths

section Preflight

variable (toLowerCase : String → String) (limits : AgentImportArchiveLimits)

structure Seen where
  seenPaths : List String := []
  filePaths : List String := []
  requiredDirectories : List String := []
  skillBytes : String → Nat := fun _ => 0
  skillFiles : String → Nat := fun _ => 0
  totalBytes : Nat := 0

def MAX_SAFE_INTEGER : Nat := 2 ^ 53 - 1

def validSize (size : Option ℚ) : Option Nat :=
  size.bind fun q => if q.den = 1 ∧ 0 ≤ q.num ∧ q.num ≤ MAX_SAFE_INTEGER then some q.num.toNat else none

def ZipEntry.path (entry : ZipEntry) : List Char := normalizedPath entry.entryName.toList

def ZipEntry.pathParts (entry : ZipEntry) : List (List Char) := entry.path.splitOn '/'

def ZipEntry.collisionKey (entry : ZipEntry) : String := toLowerCase (String.ofList entry.path)

/-- `parentPath` of each `index` from 1. -/
def ZipEntry.parentPaths (entry : ZipEntry) : List String :=
  (List.range' 1 (entry.pathParts.length - 1)).map fun index =>
    toLowerCase (String.ofList (['/'].intercalate (entry.pathParts.take index)))

def ZipEntry.endsWithSlash (entry : ZipEntry) : Bool := entry.entryName.toList.getLast? = some '/'

def ZipEntry.isSymbolicLink (entry : ZipEntry) : Bool := (entry.attr.getD 0 >>> 16) &&& 0o170000#32 = 0o120000#32

def ZipEntry.skillName (entry : ZipEntry) : Option String :=
  match entry.pathParts with
  | first :: name :: _ :: _ =>
    if first = "skills".toList ∧ entry.isDirectory = false then some (String.ofList name) else none
  | _ => none

def checkEntry (entry : ZipEntry) : Except String Nat :=
  if entry.isDirectory ≠ entry.endsWithSlash then .error (illegalPath entry.entryName)
  else if entry.isSymbolicLink then .error ("ZIP contains a symbolic link: " ++ entry.entryName)
  else
    match validSize entry.size, validSize entry.compressedSize with
    | none, _ => .error ("ZIP entry " ++ entry.entryName ++ " has an invalid uncompressed size")
    | some _, none => .error ("ZIP entry " ++ entry.entryName ++ " has an invalid compressed size")
    | some size, some _ =>
      if entry.isDirectory && size ≠ 0 then
        .error ("ZIP directory " ++ entry.entryName ++ " has an invalid uncompressed size")
      else if limits.maxEntryUncompressedBytes < size then
        .error ("A single entry in the ZIP archive must not exceed " ++ formatBytes limits.maxEntryUncompressedBytes)
      else .ok size

def checkConflicts (seen : Seen) (entry : ZipEntry) : Except String Seen :=
  let collisionKey := entry.collisionKey toLowerCase
  if collisionKey ∈ seen.seenPaths then .error ("Duplicate ZIP entry path: " ++ entry.entryName)
  else if (entry.parentPaths toLowerCase).any (seen.filePaths.contains ·) then
    .error ("ZIP entry path conflicts with a file: " ++ entry.entryName)
  else
    let requiredDirectories := seen.requiredDirectories ++ entry.parentPaths toLowerCase
    if entry.isDirectory = false ∧ collisionKey ∈ requiredDirectories then
      .error ("ZIP entry path conflicts with a directory: " ++ entry.entryName)
    else
      .ok { seen with
        seenPaths := collisionKey :: seen.seenPaths
        filePaths := if entry.isDirectory then seen.filePaths else collisionKey :: seen.filePaths
        requiredDirectories := requiredDirectories }

def checkBudgets (seen : Seen) (entry : ZipEntry) (size : Nat) : Except String Seen :=
  let totalBytes := seen.totalBytes + size
  if MAX_SAFE_INTEGER < totalBytes ∨ limits.maxTotalUncompressedBytes < totalBytes then
    .error ("ZIP total uncompressed size must not exceed " ++ formatBytes limits.maxTotalUncompressedBytes)
  else
    match entry.skillName with
    | none => .ok { seen with totalBytes := totalBytes }
    | some skillName =>
      let nextBytes := seen.skillBytes skillName + size
      let nextFiles := seen.skillFiles skillName + 1
      if limits.maxSkillUncompressedBytes < nextBytes then
        .error ("Skill " ++ skillName ++ " must not exceed " ++ formatBytes limits.maxSkillUncompressedBytes ++
          " uncompressed")
      else if limits.maxSkillFiles < nextFiles then
        .error ("Skill " ++ skillName ++ " contains more than " ++ toString limits.maxSkillFiles ++ " files")
      else
        .ok { seen with
          totalBytes := totalBytes
          skillBytes := Function.update seen.skillBytes skillName nextBytes
          skillFiles := Function.update seen.skillFiles skillName nextFiles }

def checkNext (seen : Seen) (entry : ZipEntry) : Except String Seen := do
  let _ ← validateArchivePath entry.entryName limits
  let seen ← checkConflicts toLowerCase seen entry
  let size ← checkEntry limits entry
  checkBudgets limits seen entry size

def preflightAgentImportArchive (entries : List ZipEntry) : Except String Unit :=
  if limits.maxEntries < entries.length then
    .error ("ZIP archive contains more than " ++ toString limits.maxEntries ++ " entries")
  else (entries.foldlM (checkNext toLowerCase limits) {}).map fun _ => ()

end Preflight

section Safety

variable (toLowerCase : String → String) (limits : AgentImportArchiveLimits)

structure WellFormedPath (path : List Char) : Prop where
  relative : ∃ segments, segments ≠ [] ∧ (∀ s ∈ segments, Plain s ∧ byteLength s ≤ limits.maxPathSegmentBytes) ∧
    (path = ['/'].intercalate segments ∨ path = ['/'].intercalate segments ++ ['/'])
  characters : Char.ofNat 0 ∉ path ∧ backslash ∉ path
  drive : hasDrive path = false
  bytes : byteLength path ≤ limits.maxPathBytes

def ZipEntry.bytes (entry : ZipEntry) : Nat := (validSize entry.size).getD 0

structure Sound (entry : ZipEntry) : Prop where
  path : WellFormedPath limits entry.entryName.toList
  flag : entry.isDirectory = true ↔ entry.entryName.toList.getLast? = some '/'
  link : entry.isSymbolicLink = false
  size : (validSize entry.size).isSome = true
  compressedSize : (validSize entry.compressedSize).isSome = true
  directory : entry.isDirectory = true → entry.bytes = 0
  bytes : entry.bytes ≤ limits.maxEntryUncompressedBytes

def Below (file entry : ZipEntry) : Prop :=
  file.isDirectory = false ∧ ∃ front rest, front ≠ [] ∧ rest ≠ [] ∧ entry.pathParts = front ++ rest ∧
    toLowerCase (String.ofList (['/'].intercalate front)) = file.collisionKey toLowerCase

structure Apart (entry entry' : ZipEntry) : Prop where
  distinct : entry.collisionKey toLowerCase ≠ entry'.collisionKey toLowerCase
  notBelow : ¬ Below toLowerCase entry entry'
  notAbove : ¬ Below toLowerCase entry' entry

def ofSkill (name : String) (entries : List ZipEntry) : List ZipEntry :=
  entries.filter fun entry => entry.skillName = some name

structure Safe (entries : List ZipEntry) : Prop where
  count : entries.length ≤ limits.maxEntries
  sound : ∀ entry ∈ entries, Sound limits entry
  apart : entries.Pairwise (Apart toLowerCase)
  integer : (entries.map ZipEntry.bytes).sum ≤ MAX_SAFE_INTEGER
  total : (entries.map ZipEntry.bytes).sum ≤ limits.maxTotalUncompressedBytes
  skillBytes : ∀ name, ((ofSkill name entries).map ZipEntry.bytes).sum ≤ limits.maxSkillUncompressedBytes
  skillFiles : ∀ name, (ofSkill name entries).length ≤ limits.maxSkillFiles

variable {toLowerCase limits} {entry entry' : ZipEntry} {entries entries' : List ZipEntry}

theorem Apart.symm (h : Apart toLowerCase entry entry') : Apart toLowerCase entry' entry :=
  ⟨Ne.symm h.distinct, h.notAbove, h.notBelow⟩

theorem Safe.perm (hperm : entries.Perm entries') (h : Safe toLowerCase limits entries) :
    Safe toLowerCase limits entries' where
  count := hperm.length_eq ▸ h.count
  sound := fun entry hmem => h.sound entry (hperm.mem_iff.mpr hmem)
  apart := (hperm.pairwise_iff fun hab => hab.symm).mp h.apart
  integer := (hperm.map ZipEntry.bytes).sum_eq ▸ h.integer
  total := (hperm.map ZipEntry.bytes).sum_eq ▸ h.total
  skillBytes := fun name => ((hperm.filter _).map ZipEntry.bytes).sum_eq ▸ h.skillBytes name
  skillFiles := fun name => (hperm.filter _).length_eq ▸ h.skillFiles name

end Safety

section Path

variable {limits : AgentImportArchiveLimits} {path : List Char}

theorem splitOn_normalizedPath {segments : List (List Char)} (hne : segments ≠ []) (hplain : ∀ s ∈ segments, Plain s)
    (hpath : path = ['/'].intercalate segments ∨ path = ['/'].intercalate segments ++ ['/']) :
    normalizedPath path = ['/'].intercalate segments ∧ (normalizedPath path).splitOn '/' = segments := by
  have hsplit := List.splitOn_intercalate '/' (fun t ht => (hplain t ht).2.2.2) hne
  have hnormal : normalizedPath path = ['/'].intercalate segments := by
    rcases hpath with rfl | rfl
    · exact if_neg (getLast?_intercalate fun s hs => ⟨(hplain s hs).1, (hplain s hs).2.2.2⟩)
    · rw [normalizedPath, if_pos (by simp), List.dropLast_concat]
  exact ⟨hnormal, hnormal ▸ hsplit⟩

theorem isIllegalSegment_iff {s : List Char} (hslash : '/' ∉ s) : isIllegalSegment limits s = false ↔
    Plain s ∧ byteLength s ≤ limits.maxPathSegmentBytes := by
  simp only [isIllegalSegment, Bool.or_eq_false_iff, decide_eq_false_iff_not, Nat.not_lt, Plain]
  exact ⟨fun h => ⟨⟨h.1.1.1, h.1.1.2, h.1.2, hslash⟩, h.2⟩, fun h => ⟨⟨⟨h.1.1, h.1.2.1⟩, h.1.2.2.1⟩, h.2⟩⟩

theorem slashes_of_segments {segments : List (List Char)} (hne : segments ≠ []) (hplain : ∀ s ∈ segments, Plain s)
    (hpath : path = ['/'].intercalate segments ∨ path = ['/'].intercalate segments ++ ['/']) :
    path.head? ≠ some '/' ∧ ¬ ['/', '/'] <:+: path := by
  have hempty : [] ∉ segments := fun hmem => (hplain [] hmem).1 rfl
  have hsplit := List.splitOn_intercalate '/' (fun t ht => (hplain t ht).2.2.2) hne
  have hpieces : path.splitOn '/' = segments ∨ path.splitOn '/' = segments ++ [[]] := by
    rcases hpath with rfl | rfl
    · exact .inl hsplit
    · right
      rw [List.splitOn_append_cons_self, hsplit]
      rfl
  -- A piece between two slashes is a segment, also where the last piece is none.
  have hmiddle : ∀ front rest, rest ≠ [] → path.splitOn '/' ≠ front ++ [] :: rest := by
    intro front rest hrest heq
    rcases hpieces with hpieces | hpieces
    · rw [hpieces] at heq
      exact hempty (heq ▸ List.mem_append_right _ List.mem_cons_self)
    · obtain ⟨rest, last, rfl⟩ := (List.eq_nil_or_concat rest).resolve_left hrest
      rw [hpieces, List.concat_eq_append, ← List.cons_append, ← List.append_assoc] at heq
      have hsegments := (List.append_inj' heq rfl).1
      exact hempty (hsegments ▸ List.mem_append_right _ List.mem_cons_self)
  constructor
  · intro hhead
    obtain ⟨rest, rfl⟩ : ∃ rest, path = '/' :: rest := by
      cases path with
      | nil => cases hhead
      | cons c rest => exact ⟨rest, by rw [Option.some.inj hhead]⟩
    refine hmiddle [] (rest.splitOn '/') (List.splitOn_ne_nil _ _) ?_
    exact List.splitOn_append_cons_self [] rest
  · rintro ⟨front, rest, rfl⟩
    refine hmiddle (front.splitOn '/') (rest.splitOn '/') (List.splitOn_ne_nil _ _) ?_
    rw [List.append_assoc, List.cons_append, List.splitOn_append_cons_self]
    rfl

theorem validateArchivePath_ok_iff {rawPath result : String} : validateArchivePath rawPath limits = .ok result ↔
    result = rawPath ∧ WellFormedPath limits rawPath.toList := by
  unfold validateArchivePath
  dsimp only
  generalize rawPath.toList = path
  constructor
  · intro h
    split at h
    · cases h
    rename_i hraw
    split at h
    · cases h
    rename_i hsegments
    simp only [Bool.or_eq_true, decide_eq_true_eq, List.contains_iff_mem, not_or, Bool.not_eq_true,
      Nat.not_lt] at hraw hsegments
    obtain ⟨⟨⟨⟨⟨⟨-, hnul⟩, hbackslash⟩, -⟩, hdrive⟩, -⟩, hbytes⟩ := hraw
    obtain ⟨-, hlegal⟩ := hsegments
    refine ⟨(Except.ok.inj h).symm, ⟨?_, ⟨hnul, hbackslash⟩, hdrive, hbytes⟩⟩
    refine ⟨(normalizedPath path).splitOn '/', List.splitOn_ne_nil _ _, fun s hs => ?_, ?_⟩
    · have hfalse := List.any_eq_false.mp hlegal s hs
      exact (isIllegalSegment_iff (Separated.not_mem_of_mem_splitOn hs)).mp (Bool.eq_false_iff.mpr hfalse)
    · rw [List.intercalate_splitOn, normalizedPath]
      split
      · rename_i hslash
        obtain ⟨front, rfl⟩ := List.getLast?_eq_some_iff.mp hslash
        rw [List.dropLast_concat]
        exact .inr rfl
      · exact .inl rfl
  · rintro ⟨rfl, ⟨⟨segments, hne, hlegal, hpath⟩, ⟨hnul, hbackslash⟩, hdrive, hbytes⟩⟩
    have hplain : ∀ s ∈ segments, Plain s := fun s hs => (hlegal s hs).1
    obtain ⟨hhead, hdouble⟩ := slashes_of_segments hne hplain hpath
    obtain ⟨hnormal, hsplit⟩ := splitOn_normalizedPath hne hplain hpath
    have hsome : normalizedPath path ≠ [] := by
      intro hnil
      rw [hnil] at hsplit
      exact (hplain [] (hsplit ▸ List.mem_singleton_self _)).1 rfl
    have hpath' : path ≠ [] := by
      rintro rfl
      exact hsome rfl
    rw [if_neg, if_neg]
    · simp only [Bool.or_eq_true, decide_eq_true_eq, not_or, Bool.not_eq_true]
      refine ⟨hsome, List.any_eq_false.mpr fun s hs => ?_⟩
      rw [hsplit] at hs
      have hfalse := (isIllegalSegment_iff (hplain s hs).2.2.2).mpr (hlegal s hs)
      rw [hfalse]
      exact Bool.false_ne_true
    · simp only [Bool.or_eq_true, decide_eq_true_eq, List.contains_iff_mem, not_or, Bool.not_eq_true, Nat.not_lt]
      exact ⟨⟨⟨⟨⟨⟨hpath', hnul⟩, hbackslash⟩, hhead⟩, hdrive⟩, hdouble⟩, hbytes⟩

end Path

section Loop

variable {toLowerCase : String → String} {limits : AgentImportArchiveLimits} {entry entry' : ZipEntry}
  {entries : List ZipEntry} {seen seen' : Seen}

def KeepsSlashes (toLowerCase : String → String) : Prop :=
  ∀ s, (toLowerCase s).toList.count '/' = s.toList.count '/'

theorem mem_parentPaths {k : String} : k ∈ entry.parentPaths toLowerCase ↔
    ∃ front rest, front ≠ [] ∧ rest ≠ [] ∧ entry.pathParts = front ++ rest ∧
      toLowerCase (String.ofList (['/'].intercalate front)) = k := by
  unfold ZipEntry.parentPaths
  rw [List.mem_map]
  constructor
  · rintro ⟨index, hindex, rfl⟩
    rw [List.mem_range'_1] at hindex
    refine ⟨entry.pathParts.take index, entry.pathParts.drop index, ?_, ?_, (List.take_append_drop _ _).symm, rfl⟩
    · exact List.ne_nil_of_length_pos (by rw [List.length_take]; omega)
    · exact List.ne_nil_of_length_pos (by rw [List.length_drop]; omega)
  · rintro ⟨front, rest, hfront, hrest, hparts, rfl⟩
    refine ⟨front.length, ?_, by rw [hparts, List.take_left']; rfl⟩
    have hfront := List.length_pos_iff.mpr hfront
    have hrest := List.length_pos_iff.mpr hrest
    rw [List.mem_range'_1, hparts, List.length_append]
    omega

theorem below_iff : Below toLowerCase entry' entry ↔
    entry'.isDirectory = false ∧ entry'.collisionKey toLowerCase ∈ entry.parentPaths toLowerCase := by
  rw [mem_parentPaths]
  rfl

theorem not_below_self (hslash : KeepsSlashes toLowerCase) :
    entry.collisionKey toLowerCase ∉ entry.parentPaths toLowerCase := by
  rw [mem_parentPaths]
  rintro ⟨front, rest, hfront, hrest, hparts, heq⟩
  have hcount := congrArg (fun s : String => s.toList.count '/') heq
  have hpath : entry.path = ['/'].intercalate front ++ '/' :: ['/'].intercalate rest := by
    rw [← intercalate_append hfront hrest, ← hparts, ZipEntry.pathParts, List.intercalate_splitOn]
  simp only [ZipEntry.collisionKey, hslash _, String.toList_ofList, hpath, List.count_append, List.count_cons_self]
    at hcount
  omega

structure Fresh (toLowerCase : String → String) (seen : Seen) (entry : ZipEntry) : Prop where
  path : entry.collisionKey toLowerCase ∉ seen.seenPaths
  parents : ∀ k ∈ entry.parentPaths toLowerCase, k ∉ seen.filePaths
  directory : entry.isDirectory = false → entry.collisionKey toLowerCase ∉ seen.requiredDirectories

def skillShare (entry : ZipEntry) (name : String) (n : Nat) : Nat := if entry.skillName = some name then n else 0

def Seen.add (toLowerCase : String → String) (seen : Seen) (entry : ZipEntry) : Seen where
  seenPaths := entry.collisionKey toLowerCase :: seen.seenPaths
  filePaths := if entry.isDirectory then seen.filePaths else entry.collisionKey toLowerCase :: seen.filePaths
  requiredDirectories := seen.requiredDirectories ++ entry.parentPaths toLowerCase
  skillBytes := fun name => seen.skillBytes name + skillShare entry name entry.bytes
  skillFiles := fun name => seen.skillFiles name + skillShare entry name 1
  totalBytes := seen.totalBytes + entry.bytes

structure Room (limits : AgentImportArchiveLimits) (seen : Seen) (entries : List ZipEntry) : Prop where
  integer : seen.totalBytes + (entries.map ZipEntry.bytes).sum ≤ MAX_SAFE_INTEGER
  total : seen.totalBytes + (entries.map ZipEntry.bytes).sum ≤ limits.maxTotalUncompressedBytes
  skillBytes : ∀ name, seen.skillBytes name + ((ofSkill name entries).map ZipEntry.bytes).sum ≤
    limits.maxSkillUncompressedBytes
  skillFiles : ∀ name, seen.skillFiles name + (ofSkill name entries).length ≤ limits.maxSkillFiles

theorem checkEntry_ok_iff (hpath : WellFormedPath limits entry.entryName.toList) {size : Nat} :
    checkEntry limits entry = .ok size ↔ size = entry.bytes ∧ Sound limits entry := by
  unfold checkEntry
  constructor
  · intro h
    split at h
    · cases h
    rename_i hflag
    split at h
    · cases h
    rename_i hlink
    split at h
    · cases h
    · cases h
    rename_i n m hsize hcompressed
    split at h
    · cases h
    rename_i hdirectory
    split at h
    · cases h
    rename_i hbytes
    obtain rfl := Except.ok.inj h
    have hn : entry.bytes = n := by rw [ZipEntry.bytes, hsize, Option.getD_some]
    refine ⟨hn.symm, hpath, ?_, Bool.eq_false_iff.mpr hlink, by simp [hsize], by simp [hcompressed], ?_, ?_⟩
    · rw [not_not.mp hflag]
      simp [ZipEntry.endsWithSlash]
    · intro hdir
      rw [hn]
      by_contra hne
      exact hdirectory (by simp [hdir, hne])
    · omega
  · rintro ⟨rfl, hsound⟩
    obtain ⟨n, hsize⟩ := Option.isSome_iff_exists.mp hsound.size
    obtain ⟨m, hcompressed⟩ := Option.isSome_iff_exists.mp hsound.compressedSize
    have hn : entry.bytes = n := by rw [ZipEntry.bytes, hsize, Option.getD_some]
    have hflag : entry.isDirectory = entry.endsWithSlash := by
      rw [Bool.eq_iff_iff, hsound.flag]
      simp [ZipEntry.endsWithSlash]
    have hdirectory : ¬ (entry.isDirectory && n ≠ 0) = true := by
      intro hboth
      simp only [Bool.and_eq_true, decide_eq_true_eq] at hboth
      exact hboth.2 (hn ▸ hsound.directory hboth.1)
    have hbytes := hsound.bytes
    rw [if_neg (not_not.mpr hflag), if_neg (by simp [hsound.link]), hsize, hcompressed]
    dsimp only
    rw [if_neg hdirectory, if_neg (by omega), hn]

theorem share_eq (name : String) :
    (((ofSkill name [entry]).map ZipEntry.bytes).sum = skillShare entry name entry.bytes) ∧
      (ofSkill name [entry]).length = skillShare entry name 1 := by
  unfold ofSkill skillShare
  by_cases h : entry.skillName = some name <;> simp [h]

theorem room_singleton (hroom : Room limits seen []) : Room limits seen [entry] ↔
    seen.totalBytes + entry.bytes ≤ MAX_SAFE_INTEGER ∧
      seen.totalBytes + entry.bytes ≤ limits.maxTotalUncompressedBytes ∧
      ∀ name, entry.skillName = some name → seen.skillBytes name + entry.bytes ≤ limits.maxSkillUncompressedBytes ∧
          seen.skillFiles name + 1 ≤ limits.maxSkillFiles := by
  constructor
  · intro h
    refine ⟨h.integer, h.total, fun name hname => ?_⟩
    have hbytes := h.skillBytes name
    have hfiles := h.skillFiles name
    rw [(share_eq name).1, skillShare, if_pos hname] at hbytes
    rw [(share_eq name).2, skillShare, if_pos hname] at hfiles
    exact ⟨hbytes, hfiles⟩
  · rintro ⟨hinteger, htotal, hskill⟩
    refine ⟨hinteger, htotal, fun name => ?_, fun name => ?_⟩
    · rw [(share_eq name).1, skillShare]
      split
      · exact (hskill name ‹_›).1
      · exact hroom.skillBytes name
    · rw [(share_eq name).2, skillShare]
      split
      · exact (hskill name ‹_›).2
      · exact hroom.skillFiles name

theorem update_share {skillName : String} (hname : entry.skillName = some skillName) (f : String → Nat) (n : Nat) :
    Function.update f skillName (f skillName + n) = fun name => f name + skillShare entry name n := by
  funext name
  rw [Function.update_apply, skillShare, hname]
  by_cases h : name = skillName
  · simp [h]
  · simp [h, Ne.symm h]

theorem checkBudgets_ok_iff (hroom : Room limits seen []) :
    checkBudgets limits seen entry entry.bytes = .ok seen' ↔ Room limits seen [entry] ∧ seen' = { seen with
        totalBytes := seen.totalBytes + entry.bytes
        skillBytes := fun name => seen.skillBytes name + skillShare entry name entry.bytes
        skillFiles := fun name => seen.skillFiles name + skillShare entry name 1 } := by
  rw [room_singleton hroom]
  unfold checkBudgets
  dsimp only
  cases hname : entry.skillName with
  | none =>
    have hzero : ∀ name n, skillShare entry name n = 0 := fun name n => if_neg (by simp [hname])
    dsimp only
    split
    · rename_i hover
      refine iff_of_false nofun fun h => ?_
      omega
    · rename_i hfits
      simp only [hzero, Nat.add_zero, Except.ok.injEq]
      constructor
      · rintro rfl
        exact ⟨⟨by omega, by omega, nofun⟩, rfl⟩
      · exact fun h => h.2.symm
  | some skillName =>
    dsimp only
    split
    · rename_i hover
      refine iff_of_false nofun fun h => ?_
      omega
    · rename_i hfits
      split
      · rename_i hover
        refine iff_of_false nofun fun h => ?_
        have hskill := h.1.2.2 skillName rfl
        omega
      · rename_i hbytes
        split
        · rename_i hover
          refine iff_of_false nofun fun h => ?_
          have hskill := h.1.2.2 skillName rfl
          omega
        · rename_i hfiles
          rw [update_share hname, update_share hname, Except.ok.injEq]
          constructor
          · rintro rfl
            refine ⟨⟨by omega, by omega, fun name heq => ?_⟩, rfl⟩
            obtain rfl := Option.some.inj heq
            omega
          · exact fun h => h.2.symm

theorem checkConflicts_ok_iff (hslash : KeepsSlashes toLowerCase) :
    checkConflicts toLowerCase seen entry = .ok seen' ↔ Fresh toLowerCase seen entry ∧ seen' = { seen with
        seenPaths := entry.collisionKey toLowerCase :: seen.seenPaths
        filePaths := if entry.isDirectory then seen.filePaths else entry.collisionKey toLowerCase :: seen.filePaths
        requiredDirectories := seen.requiredDirectories ++ entry.parentPaths toLowerCase } := by
  have hself := @not_below_self toLowerCase entry hslash
  unfold checkConflicts
  dsimp only
  split
  · rename_i hseen
    exact iff_of_false nofun fun h => h.1.path hseen
  rename_i hseen
  split
  · rename_i hparent
    refine iff_of_false nofun fun h => ?_
    obtain ⟨k, hk, hfile⟩ := List.any_eq_true.mp hparent
    exact h.1.parents k hk (List.contains_iff_mem.mp hfile)
  rename_i hparent
  split
  · rename_i hdirectory
    refine iff_of_false nofun fun h => ?_
    rcases List.mem_append.mp hdirectory.2 with hrequired | hown
    · exact h.1.directory hdirectory.1 hrequired
    · exact hself hown
  rename_i hdirectory
  rw [Except.ok.injEq]
  constructor
  · rintro rfl
    refine ⟨⟨hseen, fun k hk hfile => ?_, fun hdir hrequired => ?_⟩, rfl⟩
    · exact hparent (List.any_eq_true.mpr ⟨k, hk, List.contains_iff_mem.mpr hfile⟩)
    · exact hdirectory ⟨hdir, List.mem_append_left _ hrequired⟩
  · exact fun h => h.2.symm

theorem room_sets {seenPaths filePaths requiredDirectories : List String} : Room limits { seen with
      seenPaths := seenPaths, filePaths := filePaths, requiredDirectories := requiredDirectories } entries ↔
      Room limits seen entries :=
  ⟨fun h => ⟨h.integer, h.total, h.skillBytes, h.skillFiles⟩, fun h => ⟨h.integer, h.total, h.skillBytes, h.skillFiles⟩⟩

theorem checkNext_ok_iff (hslash : KeepsSlashes toLowerCase) (hroom : Room limits seen []) :
    checkNext toLowerCase limits seen entry = .ok seen' ↔
      Sound limits entry ∧ Fresh toLowerCase seen entry ∧ Room limits seen [entry] ∧
        seen' = seen.add toLowerCase entry := by
  unfold checkNext
  constructor
  · intro h
    obtain ⟨_, hvalid, h⟩ := bind_ok h
    obtain ⟨-, hpath⟩ := validateArchivePath_ok_iff.mp hvalid
    obtain ⟨next, hconflicts, h⟩ := bind_ok h
    obtain ⟨hfresh, rfl⟩ := (checkConflicts_ok_iff hslash).mp hconflicts
    obtain ⟨size, hentry, h⟩ := bind_ok h
    obtain ⟨rfl, hsound⟩ := (checkEntry_ok_iff hpath).mp hentry
    obtain ⟨hfits, rfl⟩ := (checkBudgets_ok_iff (room_sets.mpr hroom)).mp h
    exact ⟨hsound, hfresh, room_sets.mp hfits, rfl⟩
  · rintro ⟨hsound, hfresh, hfits, rfl⟩
    have hvalid : validateArchivePath entry.entryName limits = .ok entry.entryName :=
      validateArchivePath_ok_iff.mpr ⟨rfl, hsound.path⟩
    have hconflicts := (@checkConflicts_ok_iff toLowerCase entry seen _ hslash).mpr ⟨hfresh, rfl⟩
    have hentry := (checkEntry_ok_iff hsound.path).mpr ⟨rfl, hsound⟩
    simp only [hvalid, hconflicts, hentry, bind, Except.bind]
    apply (checkBudgets_ok_iff (room_sets.mpr hroom)).mpr
    exact ⟨room_sets.mpr hfits, rfl⟩

theorem fresh_add : Fresh toLowerCase (seen.add toLowerCase entry) entry' ↔
    Fresh toLowerCase seen entry' ∧ Apart toLowerCase entry entry' := by
  constructor
  · rintro ⟨hpath, hparents, hdirectory⟩
    rw [Seen.add, List.mem_cons, not_or] at hpath
    refine ⟨⟨hpath.2, fun k hk hfile => hparents k hk ?_, fun hdir hrequired => ?_⟩, Ne.symm hpath.1, ?_, ?_⟩
    · dsimp only [Seen.add]
      split
      · exact hfile
      · exact List.mem_cons_of_mem _ hfile
    · exact hdirectory hdir (List.mem_append_left _ hrequired)
    · rw [below_iff]
      rintro ⟨hdir, hmem⟩
      refine hparents _ hmem ?_
      dsimp only [Seen.add]
      rw [if_neg (by simp [hdir])]
      exact List.mem_cons_self
    · rw [below_iff]
      rintro ⟨hdir, hmem⟩
      exact hdirectory hdir (List.mem_append_right _ hmem)
  · rintro ⟨⟨hpath, hparents, hdirectory⟩, ⟨hdistinct, hbelow, habove⟩⟩
    rw [below_iff] at hbelow habove
    refine ⟨?_, fun k hk hfile => ?_, fun hdir hrequired => ?_⟩
    · rw [Seen.add, List.mem_cons, not_or]
      exact ⟨Ne.symm hdistinct, hpath⟩
    · dsimp only [Seen.add] at hfile
      split at hfile
      · exact hparents k hk hfile
      · rename_i hdir
        rcases List.mem_cons.mp hfile with rfl | hfile
        · exact hbelow ⟨Bool.eq_false_iff.mpr hdir, hk⟩
        · exact hparents k hk hfile
    · rcases List.mem_append.mp hrequired with hrequired | hown
      · exact hdirectory hdir hrequired
      · exact habove ⟨hdir, hown⟩

theorem ofSkill_cons (name : String) : ((ofSkill name (entry :: entries)).map ZipEntry.bytes).sum =
        skillShare entry name entry.bytes + ((ofSkill name entries).map ZipEntry.bytes).sum ∧
      (ofSkill name (entry :: entries)).length = skillShare entry name 1 + (ofSkill name entries).length := by
  unfold ofSkill skillShare
  by_cases h : entry.skillName = some name
  · simp [h, Nat.add_comm]
  · simp [h]

theorem room_cons : Room limits seen (entry :: entries) ↔ Room limits (seen.add toLowerCase entry) entries := by
  have hsum : ((entry :: entries).map ZipEntry.bytes).sum = entry.bytes + (entries.map ZipEntry.bytes).sum := by simp
  constructor
  · rintro ⟨hinteger, htotal, hbytes, hfiles⟩
    rw [hsum, ← Nat.add_assoc] at hinteger htotal
    refine ⟨hinteger, htotal, fun name => ?_, fun name => ?_⟩
    · have hname := hbytes name
      rwa [(ofSkill_cons name).1, ← Nat.add_assoc] at hname
    · have hname := hfiles name
      rwa [(ofSkill_cons name).2, ← Nat.add_assoc] at hname
  · rintro ⟨hinteger, htotal, hbytes, hfiles⟩
    refine ⟨?_, ?_, fun name => ?_, fun name => ?_⟩
    · rw [hsum, ← Nat.add_assoc]
      exact hinteger
    · rw [hsum, ← Nat.add_assoc]
      exact htotal
    · rw [(ofSkill_cons name).1, ← Nat.add_assoc]
      exact hbytes name
    · rw [(ofSkill_cons name).2, ← Nat.add_assoc]
      exact hfiles name

theorem Room.mono (h : Room limits seen entries) : Room limits seen [] where
  integer := by
    have hle := h.integer
    simp only [List.map_nil, List.sum_nil]
    omega
  total := by
    have hle := h.total
    simp only [List.map_nil, List.sum_nil]
    omega
  skillBytes name := by
    have hle := h.skillBytes name
    simp only [ofSkill, List.filter_nil, List.map_nil, List.sum_nil]
    omega
  skillFiles name := by
    have hle := h.skillFiles name
    simp only [ofSkill, List.filter_nil, List.length_nil]
    omega

theorem foldlM_checkNext_iff (hslash : KeepsSlashes toLowerCase) (hroom : Room limits seen []) :
    (∃ seen', entries.foldlM (checkNext toLowerCase limits) seen = .ok seen') ↔
      (∀ entry ∈ entries, Sound limits entry) ∧ entries.Pairwise (Apart toLowerCase) ∧
        (∀ entry ∈ entries, Fresh toLowerCase seen entry) ∧ Room limits seen entries := by
  induction entries generalizing seen with
  | nil => simp [hroom, pure, Except.pure]
  | cons entry entries ih =>
    rw [List.foldlM_cons, List.forall_mem_cons, List.pairwise_cons, List.forall_mem_cons]
    constructor
    · rintro ⟨final, h⟩
      obtain ⟨next, hnext, h⟩ := bind_ok h
      obtain ⟨hsound, hfresh, hfits, rfl⟩ := (checkNext_ok_iff hslash hroom).mp hnext
      obtain ⟨hsounds, hapart, hfreshs, hroom'⟩ := (ih (room_cons.mp hfits)).mp ⟨final, h⟩
      refine ⟨⟨hsound, hsounds⟩, ⟨fun e he => ?_, hapart⟩, ⟨hfresh, fun e he => ?_⟩, room_cons.mpr hroom'⟩
      · exact (fresh_add.mp (hfreshs e he)).2
      · exact (fresh_add.mp (hfreshs e he)).1
    · rintro ⟨⟨hsound, hsounds⟩, ⟨hhead, hapart⟩, ⟨hfresh, hfreshs⟩, hfits⟩
      have hrest : Room limits (seen.add toLowerCase entry) entries := room_cons.mp hfits
      have hone : Room limits seen [entry] := room_cons.mpr hrest.mono
      have hnext := (checkNext_ok_iff hslash hroom).mpr ⟨hsound, hfresh, hone, rfl⟩
      obtain ⟨final, hfinal⟩ := (ih hrest.mono).mpr
        ⟨hsounds, hapart, fun e he => fresh_add.mpr ⟨hfreshs e he, hhead e he⟩, hrest⟩
      exact ⟨final, by rw [hnext]; exact hfinal⟩

theorem preflight_iff (hslash : KeepsSlashes toLowerCase) :
    preflightAgentImportArchive toLowerCase limits entries = .ok () ↔ Safe toLowerCase limits entries := by
  have hstart : Room limits {} [] := ⟨Nat.zero_le _, Nat.zero_le _, fun _ => Nat.zero_le _, fun _ => Nat.zero_le _⟩
  have hfresh : ∀ entry ∈ entries, Fresh toLowerCase {} entry :=
    fun entry _ => ⟨nofun, fun _ _ => nofun, fun _ => nofun⟩
  have hloop := @foldlM_checkNext_iff toLowerCase limits entries {} hslash hstart
  unfold preflightAgentImportArchive
  split
  · rename_i hcount
    refine iff_of_false nofun fun h => ?_
    have hle := h.count
    omega
  · rename_i hcount
    have hmap : (entries.foldlM (checkNext toLowerCase limits) {}).map (fun _ => ()) = .ok () ↔
        ∃ final, entries.foldlM (checkNext toLowerCase limits) {} = .ok final := by
      cases entries.foldlM (checkNext toLowerCase limits) {} with
      | error e => exact iff_of_false nofun (by simp)
      | ok final => exact iff_of_true rfl ⟨final, rfl⟩
    rw [hmap, hloop]
    constructor
    · rintro ⟨hsound, hapart, -, hroom⟩
      refine ⟨Nat.le_of_not_lt hcount, hsound, hapart, ?_, ?_, fun name => ?_, fun name => ?_⟩
      · simpa using hroom.integer
      · simpa using hroom.total
      · simpa using hroom.skillBytes name
      · simpa using hroom.skillFiles name
    · intro h
      refine ⟨h.sound, h.apart, hfresh, ?_, ?_, fun name => ?_, fun name => ?_⟩
      · simpa using h.integer
      · simpa using h.total
      · simpa using h.skillBytes name
      · simpa using h.skillFiles name

end Loop

section Collect

structure PendingFileWrite where
  skillId : String
  path : List (List Char)
  data : List UInt8

/-- `resolve(base, path)` below an absolute base. -/
def resolveIn (base : List (List Char)) (path : List Char) : List (List Char) :=
  (pushAll (if path.head? = some '/' then [] else base.reverse) path).reverse

variable (root : List (List Char))

def getSkillStoragePath (skillId : String) : List (List Char) := resolveIn root skillId.toList

def skillPrefix (dirName : List Char) : List Char := "skills/".toList ++ dirName ++ ['/']

def skillDirectory (ref : String) : Except String (List Char) :=
  let dirName := normalizedPath ref.toList
  if dirName = [] ∨ '/' ∈ dirName ∨ backslash ∈ dirName ∨ dirName = ['.'] ∨ dirName = ['.', '.'] then
    .error ("Invalid Skill reference in Agent export: " ++ String.ofList (quote ref))
  else .ok dirName

def collectFile (newId : String) (dirName : List Char) (entry : ZipEntry) : Except String (Option PendingFileWrite) :=
  let entryName := entry.entryName.toList
  let pathPrefix := skillPrefix dirName
  if entry.isDirectory || !pathPrefix.isPrefixOf entryName || entryName = pathPrefix ++ "skill.json".toList then
    .ok none
  else
    let relativePath := entryName.drop pathPrefix.length
    if relativePath = [] then .ok none
    else
      let skillStoragePath := getSkillStoragePath root newId
      let targetPath := resolveIn skillStoragePath relativePath
      if targetPath ≠ skillStoragePath ∧ ¬ skillStoragePath <+: targetPath then
        .error ("Skill file path escapes its storage directory: " ++ String.ofList relativePath)
      else .ok (some ⟨newId, targetPath, entry.data⟩)

def collectSkill (newId : String) (dirName : List Char) : List ZipEntry → Except String (List PendingFileWrite)
  | [] => .ok []
  | entry :: entries => do
    let file ← collectFile root newId dirName entry
    let files ← collectSkill newId dirName entries
    .ok (file.toList ++ files)

/-- The loop over the references to skills.  `importSkill` reads the metadata of the `n`th of them and writes its row;
it returns the id of a new skill, and none for one that the instance has. -/
def collectSkills (importSkill : Nat → Except String (Option String)) (entries : List ZipEntry) :
    Nat → List String → Except String (List PendingFileWrite)
  | _, [] => .ok []
  | n, ref :: skillRefs => do
    let dirName ← skillDirectory ref
    if (entries.find? fun entry => entry.entryName.toList = skillPrefix dirName ++ "skill.json".toList).isNone then
      collectSkills importSkill entries (n + 1) skillRefs
    else
      match ← importSkill n with
      | none => collectSkills importSkill entries (n + 1) skillRefs
      | some newId => do
        let files ← collectSkill root newId dirName entries
        let rest ← collectSkills importSkill entries (n + 1) skillRefs
        .ok (files ++ rest)

structure GeneratesIds (importSkill : Nat → Except String (Option String)) : Prop where
  plain : ∀ n newId, importSkill n = .ok (some newId) → Plain newId.toList
  distinct : ∀ n m newId, importSkill n = .ok (some newId) → importSkill m = .ok (some newId) → n = m

variable {root} {limits : AgentImportArchiveLimits} {newId : String} {dirName : List Char} {entry : ZipEntry}
  {entries : List ZipEntry} {importSkill : Nat → Except String (Option String)}

theorem resolveIn_plain {base : List (List Char)} {path : List Char} (h : ∀ s ∈ path.splitOn '/', Plain s) :
    resolveIn base path = base ++ path.splitOn '/' := by
  have hhead : path.head? ≠ some '/' := by
    intro hhead
    cases path with
    | nil => cases hhead
    | cons c path =>
      obtain rfl := Option.some.inj hhead
      have hsplit : ('/' :: path).splitOn '/' = [] :: path.splitOn '/' := List.splitOn_append_cons_self [] path
      exact (h [] (hsplit ▸ List.mem_cons_self)).1 rfl
  rw [resolveIn, if_neg hhead, pushAll, foldl_push_plain h, List.reverse_append, List.reverse_reverse,
    List.reverse_reverse]

theorem getSkillStoragePath_plain (h : Plain newId.toList) :
    getSkillStoragePath root newId = root ++ [newId.toList] := by
  have hsplit : newId.toList.splitOn '/' = [newId.toList] := List.splitOn_eq_singleton h.2.2.2
  rw [getSkillStoragePath, resolveIn_plain, hsplit]
  rw [hsplit]
  exact List.forall_mem_singleton.mpr h

theorem plain_relativePath {relativePath : List Char} (h : Sound limits entry) (hfile : entry.isDirectory = false)
    (hpath : entry.entryName.toList = skillPrefix dirName ++ relativePath) :
    ∀ s ∈ relativePath.splitOn '/', Plain s := by
  obtain ⟨segments, hne, hlegal, hjoin⟩ := h.path.relative
  have hplain : ∀ s ∈ segments, Plain s := fun s hs => (hlegal s hs).1
  have hlast : entry.entryName.toList.getLast? ≠ some '/' := by
    intro hslash
    rw [h.flag.mpr hslash] at hfile
    cases hfile
  have hjoin : entry.entryName.toList = ['/'].intercalate segments := by
    rcases hjoin with hjoin | hjoin
    · exact hjoin
    · rw [hjoin, List.getLast?_concat] at hlast
      exact absurd rfl hlast
  have hsplit : entry.entryName.toList.splitOn '/' = segments := by
    rw [hjoin, List.splitOn_intercalate '/' (fun t ht => (hplain t ht).2.2.2) hne]
  obtain ⟨front, hfront⟩ : ∃ front : List Char, entry.entryName.toList = front ++ ['/'] ++ relativePath :=
    ⟨_, hpath⟩
  rw [hfront, List.append_assoc, List.singleton_append, List.splitOn_append_cons_self] at hsplit
  intro s hs
  apply hplain
  rw [← hsplit]
  exact List.mem_append_right _ hs

theorem collectFile_of_sound (hid : Plain newId.toList) (h : Sound limits entry) :
    ∃ file, collectFile root newId dirName entry = .ok file ∧ ∀ w, file = some w → w.skillId = newId ∧ ∃ relativePath,
        entry.entryName.toList = skillPrefix dirName ++ relativePath ∧
          w.path = root ++ newId.toList :: relativePath.splitOn '/' := by
  unfold collectFile
  dsimp only
  split
  · exact ⟨none, rfl, nofun⟩
  rename_i hkeep
  split
  · exact ⟨none, rfl, nofun⟩
  rename_i hsome
  simp only [Bool.or_eq_true, not_or, Bool.not_eq_true, Bool.not_eq_true', decide_eq_true_eq,
    Bool.not_eq_false, List.isPrefixOf_iff_prefix] at hkeep
  obtain ⟨⟨hfile, relativePath, hpath⟩, -⟩ := hkeep
  have hplain : ∀ s ∈ relativePath.splitOn '/', Plain s :=
    plain_relativePath h hfile hpath.symm
  rw [← hpath, List.drop_left, resolveIn_plain hplain, getSkillStoragePath_plain hid, if_neg]
  · refine ⟨_, rfl, ?_⟩
    rintro w ⟨⟩
    exact ⟨rfl, relativePath, rfl, List.append_assoc ..⟩
  · exact fun hout => hout.2 (List.prefix_append _ _)

theorem collectSkill_of_safe (hid : Plain newId.toList) (hsound : ∀ entry ∈ entries, Sound limits entry)
    (hnodup : (entries.map ZipEntry.entryName).Nodup) :
    ∃ files, collectSkill root newId dirName entries = .ok files ∧ (files.map PendingFileWrite.path).Nodup ∧
      ∀ w ∈ files, w.skillId = newId ∧ ∃ entry ∈ entries, ∃ relativePath,
        entry.entryName.toList = skillPrefix dirName ++ relativePath ∧
          w.path = root ++ newId.toList :: relativePath.splitOn '/' := by
  induction entries with
  | nil => exact ⟨[], rfl, List.nodup_nil, nofun⟩
  | cons entry entries ih =>
    obtain ⟨hhead, hrest⟩ := List.forall_mem_cons.mp hsound
    rw [List.map_cons, List.nodup_cons] at hnodup
    obtain ⟨file, hfile, hown⟩ := @collectFile_of_sound root limits newId dirName entry hid hhead
    obtain ⟨files, hfiles, hdistinct, hall⟩ := ih hrest hnodup.2
    refine ⟨file.toList ++ files, ?_, ?_, ?_⟩
    · simp only [collectSkill, hfile, hfiles, bind, Except.bind]
    · cases file with
      | none => exact hdistinct
      | some w =>
        obtain ⟨-, relativePath, hentry, hpath⟩ := hown w rfl
        rw [Option.toList_some, List.singleton_append, List.map_cons, List.nodup_cons]
        refine ⟨fun hmem => ?_, hdistinct⟩
        obtain ⟨v, hv, hsame⟩ := List.mem_map.mp hmem
        obtain ⟨-, other, hother, relativePath', hentry', hpath'⟩ := hall v hv
        rw [hpath, hpath', List.append_cancel_left_eq, List.cons.injEq] at hsame
        have hrelative : relativePath' = relativePath := by
          rw [← @List.intercalate_splitOn _ relativePath' _ _ '/', hsame.2, List.intercalate_splitOn]
        have hname : other.entryName = entry.entryName := by
          rw [← String.toList_inj, hentry, hentry', hrelative]
        exact hnodup.1 (hname ▸ List.mem_map_of_mem hother)
    · intro w hw
      rcases List.mem_append.mp hw with hw | hw
      · obtain ⟨hskill, relativePath, hentry, hpath⟩ := hown w (Option.mem_toList.mp hw)
        exact ⟨hskill, entry, List.mem_cons_self, relativePath, hentry, hpath⟩
      · obtain ⟨hskill, other, hother, hrelative⟩ := hall w hw
        exact ⟨hskill, other, List.mem_cons_of_mem _ hother, hrelative⟩

theorem collectSkills_of_safe (hids : GeneratesIds importSkill) (hsound : ∀ entry ∈ entries, Sound limits entry)
    (hnodup : (entries.map ZipEntry.entryName).Nodup) {n : Nat} {skillRefs : List String}
    {writes : List PendingFileWrite} (h : collectSkills root importSkill entries n skillRefs = .ok writes) :
    (writes.map PendingFileWrite.path).Nodup ∧ ∀ w ∈ writes, ∃ m, n ≤ m ∧ importSkill m = .ok (some w.skillId) ∧
      ∃ relativePath : List Char, w.path = root ++ w.skillId.toList :: relativePath.splitOn '/' := by
  induction skillRefs generalizing n writes with
  | nil =>
    cases h
    exact ⟨List.nodup_nil, nofun⟩
  | cons ref skillRefs ih =>
    have hlater : ∀ {writes}, collectSkills root importSkill entries (n + 1) skillRefs = .ok writes →
        (writes.map PendingFileWrite.path).Nodup ∧ ∀ w ∈ writes, ∃ m, n ≤ m ∧ importSkill m = .ok (some w.skillId) ∧
          ∃ relativePath : List Char, w.path = root ++ w.skillId.toList :: relativePath.splitOn '/' := by
      intro writes h
      obtain ⟨hdistinct, hall⟩ := ih h
      refine ⟨hdistinct, fun w hw => ?_⟩
      obtain ⟨m, hm, hskill⟩ := hall w hw
      exact ⟨m, by omega, hskill⟩
    unfold collectSkills at h
    obtain ⟨dirName, -, h⟩ := bind_ok h
    split at h
    · exact hlater h
    obtain ⟨outcome, houtcome, h⟩ := bind_ok h
    cases outcome with
    | none => exact hlater h
    | some newId =>
      obtain ⟨files, hfiles, h⟩ := bind_ok h
      obtain ⟨rest, hrest, h⟩ := bind_ok h
      obtain rfl := Except.ok.inj h
      obtain ⟨files', hfiles', hdistinct, hown⟩ :=
        @collectSkill_of_safe root limits newId dirName entries (hids.plain n newId houtcome) hsound hnodup
      rw [hfiles, Except.ok.injEq] at hfiles'
      subst hfiles'
      obtain ⟨hdistinct', hall⟩ := ih hrest
      constructor
      · rw [List.map_append, List.nodup_append]
        refine ⟨hdistinct, hdistinct', fun path hpath path' hpath' heq => ?_⟩
        obtain ⟨w, hw, rfl⟩ := List.mem_map.mp hpath
        obtain ⟨v, hv, rfl⟩ := List.mem_map.mp hpath'
        obtain ⟨hskill, _, -, relativePath, -, hwpath⟩ := hown w hw
        obtain ⟨m, hm, hmskill, relativePath', hvpath⟩ := hall v hv
        rw [hwpath, hvpath, List.append_cancel_left_eq, List.cons.injEq, String.toList_inj] at heq
        have hsame := hids.distinct n m newId houtcome (heq.1 ▸ hmskill)
        omega
      · intro w hw
        rcases List.mem_append.mp hw with hw | hw
        · obtain ⟨hskill, _, -, relativePath, -, hpath⟩ := hown w hw
          exact ⟨n, le_refl n, hskill ▸ houtcome, relativePath, hskill ▸ hpath⟩
        · exact (hlater hrest).2 w hw

/-- The preflight accepts the safe archives, in any order of their entries; and what an import collects from one of
them goes to places that are apart, each strictly inside the directory of its own skill. -/
theorem preflight_accepts_exactly {toLowerCase : String → String} (hslash : KeepsSlashes toLowerCase)
    (hids : GeneratesIds importSkill) :
    (preflightAgentImportArchive toLowerCase limits entries = .ok () ↔ Safe toLowerCase limits entries) ∧
      (∀ entries', entries.Perm entries' → (preflightAgentImportArchive toLowerCase limits entries = .ok () ↔
        preflightAgentImportArchive toLowerCase limits entries' = .ok ())) ∧
      (preflightAgentImportArchive toLowerCase limits entries = .ok () → ∀ skillRefs writes,
        collectSkills root importSkill entries 0 skillRefs = .ok writes → (writes.map PendingFileWrite.path).Nodup ∧
            ∀ w ∈ writes, getSkillStoragePath root w.skillId <+: w.path ∧
              w.path ≠ getSkillStoragePath root w.skillId) := by
  refine ⟨preflight_iff hslash, fun entries' hperm => ?_, fun haccepted skillRefs writes h => ?_⟩
  · rw [preflight_iff hslash, preflight_iff hslash]
    exact ⟨Safe.perm hperm, Safe.perm hperm.symm⟩
  · have hsafe := (preflight_iff hslash).mp haccepted
    have hnodup : (entries.map ZipEntry.entryName).Nodup := by
      rw [List.Nodup, List.pairwise_map]
      refine hsafe.apart.imp fun hab heq => hab.distinct ?_
      rw [ZipEntry.collisionKey, ZipEntry.collisionKey, ZipEntry.path, ZipEntry.path, heq]
    obtain ⟨hdistinct, hall⟩ := collectSkills_of_safe hids hsafe.sound hnodup h
    refine ⟨hdistinct, fun w hw => ?_⟩
    obtain ⟨m, -, hskill, relativePath, hpath⟩ := hall w hw
    rw [getSkillStoragePath_plain (hids.plain m _ hskill), hpath]
    refine ⟨⟨relativePath.splitOn '/', by simp⟩, fun heq => ?_⟩
    have hlength := congrArg List.length heq
    have hpos := List.length_pos_iff.mpr (List.splitOn_ne_nil '/' relativePath)
    simp only [List.length_append, List.length_cons, List.length_nil] at hlength
    omega

end Collect

section Examples

def memoEntries : List ZipEntry :=
  [{ entryName := "agent.json", size := some 2, compressedSize := some 2 },
    { entryName := "skills/memo/skill.json", size := some 2, compressedSize := some 2 },
    { entryName := "skills/memo/notes/a.md", size := some 3, compressedSize := some 3 }]

def memoSkill (n : Nat) : Except String (Option String) := .ok (if n = 0 then some "skl_AAAAAAAAAAAAAAAA" else none)

theorem memoSkill_generates : GeneratesIds memoSkill := by
  have hzero : ∀ n newId, memoSkill n = .ok (some newId) → n = 0 ∧ newId = "skl_AAAAAAAAAAAAAAAA" := by
    intro n newId h
    by_cases hn : n = 0
    · subst hn
      cases h
      exact ⟨rfl, rfl⟩
    · simp [memoSkill, hn] at h
  constructor
  · intro n newId h
    rw [(hzero n newId h).2]
    decide
  · intro n m newId hn hm
    rw [(hzero n newId hn).1, (hzero m newId hm).1]

theorem preflight_accepts_memo :
    ∃ writes, collectSkills ["data".toList, "skills".toList] memoSkill memoEntries 0 ["memo"] = .ok writes ∧
      writes.length = 1 ∧ ∀ w ∈ writes, getSkillStoragePath ["data".toList, "skills".toList] w.skillId <+: w.path := by
  obtain ⟨writes, hwrites, hlength⟩ : ∃ writes,
      collectSkills ["data".toList, "skills".toList] memoSkill memoEntries 0 ["memo"] = .ok writes ∧
        writes.length = 1 := ⟨_, rfl, rfl⟩
  have haccepted : preflightAgentImportArchive id AGENT_IMPORT_ARCHIVE_LIMITS memoEntries = .ok () := by rfl
  have hall := (preflight_accepts_exactly (fun _ => rfl) memoSkill_generates).2.2 haccepted ["memo"] writes hwrites
  exact ⟨writes, hwrites, hlength, fun w hw => (hall.2 w hw).1⟩

end Examples

end A2Wave.ImportArchive
