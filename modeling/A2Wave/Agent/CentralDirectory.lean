import A2Wave.Agent.ImportArchive
import A2Wave.Lib.Buffer

/-! The reader of the raw central directory of an archive, in `lib/agent-import.ts`. -/

namespace A2Wave.ImportArchive

open Buffer

inductive ReadError
  | range
  | invalid (message : String)
  deriving DecidableEq

section Reads

variable (buffer : Bytes)

def readUInt16LE (offset : Nat) : Except ReadError Nat :=
  match read? buffer 2 offset with
  | some n => .ok n
  | none => .error .range

def readUInt32LE (offset : Nat) : Except ReadError Nat :=
  match read? buffer 4 offset with
  | some n => .ok n
  | none => .error .range

end Reads

section Reader

variable (utf8 : Bytes → String) (limits : AgentImportArchiveLimits) (buffer : Bytes)

def EOCD_SIGNATURE : Nat := 0x06054b50

def EOCD_WINDOW : Nat := 65557

def ENTRY_SIGNATURE : Nat := 0x02014b50

/-- The search from the back, over the `n` offsets from `minOffset`. -/
def searchEocd (minOffset : Nat) : Nat → Except ReadError (Option Nat)
  | 0 => .ok none
  | n + 1 => do
    if (← readUInt32LE buffer (minOffset + n)) = EOCD_SIGNATURE then .ok (some (minOffset + n))
    else searchEocd minOffset n

/-- `directoryEnd` is `centralOffset + centralSize`. -/
def checkRecords (directoryEnd : Nat) : Nat → Nat → Except ReadError Nat
  | 0, offset => .ok offset
  | n + 1, offset => do
    if buffer.length < offset + 46 then
      .error (.invalid "Invalid ZIP archive: malformed central directory entry")
    else if (← readUInt32LE buffer offset) ≠ ENTRY_SIGNATURE then
      .error (.invalid "Invalid ZIP archive: malformed central directory entry")
    else
      let nameLength ← readUInt16LE buffer (offset + 28)
      let extraLength ← readUInt16LE buffer (offset + 30)
      let commentLength ← readUInt16LE buffer (offset + 32)
      let entryEnd := offset + 46 + nameLength + extraLength + commentLength
      if buffer.length < entryEnd ∨ directoryEnd < entryEnd then
        .error (.invalid "Invalid ZIP archive: central directory entry is out of bounds")
      else
        let rawName := subarray buffer (offset + 46) (offset + 46 + nameLength)
        let _ ← (validateArchivePath (utf8 rawName) limits).mapError .invalid
        checkRecords directoryEnd n entryEnd

def assertRawCentralDirectoryPaths : Except ReadError Unit := do
  let minOffset := buffer.length - EOCD_WINDOW
  match ← searchEocd buffer minOffset (buffer.length - 21 - minOffset) with
  | none => .error (.invalid "Invalid ZIP archive: end-of-central-directory record is missing")
  | some eocd =>
    let diskNumber ← readUInt16LE buffer (eocd + 4)
    let centralDisk ← readUInt16LE buffer (eocd + 6)
    let entriesOnDisk ← readUInt16LE buffer (eocd + 8)
    let totalEntries ← readUInt16LE buffer (eocd + 10)
    let centralSize ← readUInt32LE buffer (eocd + 12)
    let centralOffset ← readUInt32LE buffer (eocd + 16)
    if diskNumber ≠ 0 ∨ centralDisk ≠ 0 ∨ entriesOnDisk ≠ totalEntries ∨ totalEntries = 0xffff ∨
        centralSize = 0xffffffff ∨ centralOffset = 0xffffffff then
      .error (.invalid "Invalid ZIP archive: multi-disk and ZIP64 archives are not supported")
    else if limits.maxEntries < totalEntries then
      .error (.invalid ("ZIP archive contains more than " ++ toString limits.maxEntries ++ " entries"))
    else if eocd < centralOffset + centralSize ∨ buffer.length < centralOffset + centralSize then
      .error (.invalid "Invalid ZIP archive: central directory is out of bounds")
    else
      let offset ← checkRecords utf8 limits buffer (centralOffset + centralSize) totalEntries centralOffset
      if offset ≠ centralOffset + centralSize then
        .error (.invalid "Invalid ZIP archive: central directory size does not match its entries")
      else .ok ()

end Reader

section Spec

variable (utf8 : Bytes → String) (limits : AgentImportArchiveLimits) (buffer : Bytes)

structure IsEocd (eocd : Nat) : Prop where
  inside : eocd + 22 ≤ buffer.length
  window : buffer.length ≤ eocd + EOCD_WINDOW
  signature : read? buffer 4 eocd = some EOCD_SIGNATURE
  last : ∀ offset, eocd < offset → offset + 22 ≤ buffer.length → read? buffer 4 offset ≠ some EOCD_SIGNATURE

structure IsRecord (offset entryEnd : Nat) : Prop where
  signature : read? buffer 4 offset = some ENTRY_SIGNATURE
  lengths : ∃ nameLength extraLength commentLength, read? buffer 2 (offset + 28) = some nameLength ∧
    read? buffer 2 (offset + 30) = some extraLength ∧ read? buffer 2 (offset + 32) = some commentLength ∧
    entryEnd = offset + 46 + nameLength + extraLength + commentLength ∧ entryEnd ≤ buffer.length ∧
    (subarray buffer (offset + 46) (offset + 46 + nameLength)).length = nameLength ∧
    WellFormedPath limits (utf8 (subarray buffer (offset + 46) (offset + 46 + nameLength))).toList

inductive Tiles : Nat → Nat → Nat → Prop
  | none (offset : Nat) : Tiles 0 offset offset
  | record {n offset next directoryEnd : Nat} : IsRecord utf8 limits buffer offset next →
      Tiles n next directoryEnd → Tiles (n + 1) offset directoryEnd

structure Validated (eocd totalEntries centralOffset centralSize : Nat) : Prop where
  record : IsEocd buffer eocd
  entries : read? buffer 2 (eocd + 10) = some totalEntries
  size : read? buffer 4 (eocd + 12) = some centralSize
  offset : read? buffer 4 (eocd + 16) = some centralOffset
  bounds : centralOffset + centralSize ≤ eocd
  count : totalEntries ≤ limits.maxEntries
  tiles : Tiles utf8 limits buffer totalEntries centralOffset (centralOffset + centralSize)

end Spec

section Bounds

variable {utf8 : Bytes → String} {limits : AgentImportArchiveLimits} {buffer : Bytes}

def IsInvalid (e : ReadError) : Prop := ∃ message, e = .invalid message

theorem readUInt16LE_settles {offset : Nat} (h : offset + 2 ≤ buffer.length) :
    Settles IsInvalid (readUInt16LE buffer offset) fun n => read? buffer 2 offset = some n := by
  obtain ⟨n, hn⟩ := read?_of_le h
  rw [readUInt16LE, hn]
  rfl

theorem readUInt32LE_settles {offset : Nat} (h : offset + 4 ≤ buffer.length) :
    Settles IsInvalid (readUInt32LE buffer offset) fun n => read? buffer 4 offset = some n := by
  obtain ⟨n, hn⟩ := read?_of_le h
  rw [readUInt32LE, hn]
  rfl

theorem searchEocd_settles {minOffset n : Nat} (h : ∀ k < n, minOffset + k + 22 ≤ buffer.length) :
    Settles IsInvalid (searchEocd buffer minOffset n) fun found => ∀ eocd, found = some eocd →
      minOffset ≤ eocd ∧ eocd < minOffset + n ∧ read? buffer 4 eocd = some EOCD_SIGNATURE ∧
        ∀ offset, eocd < offset → offset < minOffset + n → read? buffer 4 offset ≠ some EOCD_SIGNATURE := by
  induction n with
  | zero => exact nofun
  | succ n ih =>
    have hroom := h n (Nat.lt_succ_self n)
    apply (readUInt32LE_settles (by omega)).bind
    intro value hvalue
    split
    · rename_i hsignature
      rintro eocd ⟨⟩
      exact ⟨by omega, by omega, hsignature ▸ hvalue, fun offset hlow hhigh => by omega⟩
    · rename_i hother
      apply (ih fun k hk => h k (Nat.lt_succ_of_lt hk)).mono
      rintro found hfound eocd rfl
      obtain ⟨hlow, hhigh, hsignature, hlast⟩ := hfound eocd rfl
      refine ⟨hlow, by omega, hsignature, fun offset hbehind hinside => ?_⟩
      by_cases hend : offset = minOffset + n
      · rw [hend, hvalue]
        exact fun heq => hother (Option.some.inj heq)
      · exact hlast offset hbehind (by omega)

theorem searchEocd_window (window : Nat) :
    Settles IsInvalid (searchEocd buffer (buffer.length - window) (buffer.length - 21 - (buffer.length - window)))
      fun found => ∀ eocd, found = some eocd →
        eocd + 22 ≤ buffer.length ∧ buffer.length ≤ eocd + window ∧ read? buffer 4 eocd = some EOCD_SIGNATURE ∧
          ∀ offset, eocd < offset → offset + 22 ≤ buffer.length → read? buffer 4 offset ≠ some EOCD_SIGNATURE := by
  apply (searchEocd_settles (by omega)).mono
  intro found hfound eocd heocd
  obtain ⟨hlow, hhigh, hsignature, hlast⟩ := hfound eocd heocd
  exact ⟨by omega, by omega, hsignature, fun offset hbehind hroom => hlast offset hbehind (by omega)⟩

theorem checkRecords_settles {directoryEnd n offset : Nat} :
    Settles IsInvalid (checkRecords utf8 limits buffer directoryEnd n offset) fun stop =>
      Tiles utf8 limits buffer n offset stop := by
  induction n generalizing offset with
  | zero => exact .none offset
  | succ n ih =>
    unfold checkRecords
    split
    · exact ⟨_, rfl⟩
    rename_i hroom
    apply (readUInt32LE_settles (by omega)).bind
    intro signature hsignature
    split
    · exact ⟨_, rfl⟩
    rename_i hentry
    apply (readUInt16LE_settles (by omega)).bind
    intro nameLength hname
    apply (readUInt16LE_settles (by omega)).bind
    intro extraLength hextra
    apply (readUInt16LE_settles (by omega)).bind
    intro commentLength hcomment
    dsimp only
    split
    · exact ⟨_, rfl⟩
    rename_i hbounds
    have hlength : (subarray buffer (offset + 46) (offset + 46 + nameLength)).length = nameLength := by
      rw [length_subarray (by omega) (by omega)]
      omega
    generalize hraw : subarray buffer (offset + 46) (offset + 46 + nameLength) = rawName at hlength
    have hvalid : Settles IsInvalid ((validateArchivePath (utf8 rawName) limits).mapError ReadError.invalid) fun _ =>
        WellFormedPath limits (utf8 rawName).toList := by
      cases hpath : validateArchivePath (utf8 rawName) limits with
      | error message => exact ⟨message, rfl⟩
      | ok path => exact (validateArchivePath_ok_iff.mp hpath).2
    apply hvalid.bind
    intro _ hwell
    apply ih.mono
    intro stop htiles
    refine .record ⟨not_not.mp hentry ▸ hsignature, nameLength, extraLength, commentLength, hname, hextra, hcomment,
      rfl, by omega, ?_, ?_⟩ htiles
    · rw [hraw, hlength]
    · rw [hraw]
      exact hwell

/-- Every read of the buffer lies in it, and a directory that is accepted consists of the records that were read, all
of them with a well formed name. -/
theorem central_directory_reads_inside (utf8 : Bytes → String) (limits : AgentImportArchiveLimits) (buffer : Bytes) :
    Settles IsInvalid (assertRawCentralDirectoryPaths utf8 limits buffer) fun _ =>
      ∃ eocd totalEntries centralOffset centralSize,
        Validated utf8 limits buffer eocd totalEntries centralOffset centralSize := by
  unfold assertRawCentralDirectoryPaths
  -- The size of the window plays no part, and with a literal the search unfolds.
  generalize hsize : EOCD_WINDOW = window
  apply (searchEocd_window window).bind
  intro found hfound
  cases found with
  | none => exact ⟨_, rfl⟩
  | some eocd =>
    obtain ⟨hinside, hwindow, hsignature, hlast⟩ := hfound eocd rfl
    have heocd : IsEocd buffer eocd := ⟨hinside, hsize ▸ hwindow, hsignature, hlast⟩
    dsimp only
    apply (readUInt16LE_settles (by omega)).bind
    intro diskNumber _
    apply (readUInt16LE_settles (by omega)).bind
    intro centralDisk _
    apply (readUInt16LE_settles (by omega)).bind
    intro entriesOnDisk _
    apply (readUInt16LE_settles (by omega)).bind
    intro totalEntries htotal
    apply (readUInt32LE_settles (by omega)).bind
    intro centralSize hcentral
    apply (readUInt32LE_settles (by omega)).bind
    intro centralOffset hoffset
    split
    · exact ⟨_, rfl⟩
    split
    · exact ⟨_, rfl⟩
    rename_i hcount
    split
    · exact ⟨_, rfl⟩
    rename_i hbounds
    apply checkRecords_settles.bind
    intro stop htiles
    split
    · exact ⟨_, rfl⟩
    rename_i hstop
    refine ⟨eocd, totalEntries, centralOffset, centralSize, heocd, htotal, hcentral, hoffset, by omega, by omega, ?_⟩
    rw [← not_not.mp hstop]
    exact htiles

end Bounds

end A2Wave.ImportArchive
