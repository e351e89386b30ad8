import A2Wave.Agent.CentralDirectory
import A2Wave.Agent.Import
import A2Wave.Lib.Disk

/-! `importAgentFromZip` of `lib/agent-import.ts` in its transaction of `db/transaction.ts`, and what is left behind
where it fails. -/

namespace A2Wave.AgentImport

open AgentBundle (ExportedMcpServer Importer assertImportedMcpUrlsSafe importMcpServer)
open Buffer Disk ImportArchive JsonText Path Session

section Rows

inductive SkillVisibility
  | «private»
  | allUsers
  deriving DecidableEq

structure SkillRow where
  id : String
  name : String
  description : Option String := none
  content : Option String := none
  storagePath : Option String := none
  userId : Option String := none
  visibility : SkillVisibility := .private

/-- The columns of an Agent that an import does not take over from `agent.json` as they are. -/
structure AgentRow where
  id : String
  name : String
  skills : List String := []
  mcpServerIds : List String := []
  kbDocumentIds : List String := []
  providerId : Option String := none
  scmSourceId : Option String := none
  memoryEnabled : Bool := false
  userId : Option String := none

structure NamedRow where
  id : String
  name : String
  userId : Option String := none
  deletionRequested : Bool := false

instance : Keyed SkillRow String := ⟨SkillRow.id⟩

instance : Keyed AgentRow String := ⟨AgentRow.id⟩

structure Tables where
  mcpServers : Table McpServer := .empty
  skills : Table SkillRow := .empty
  agents : Table AgentRow := .empty
  providers : List NamedRow := []
  scmSources : List NamedRow := []
  kbDocuments : List NamedRow := []

def MEMORY_SKILL_NAME : String := "a2wave-memory"

def REBINDABLE_SYSTEM_SKILL_NAMES : List String := ["a2wave-memory"]

def systemSkill (skills : Table SkillRow) (name : String) : Option SkillRow :=
  skills.rows.find? fun row => row.name = name && row.userId.isNone && row.visibility = .allUsers

end Rows

section Bundle

inductive SkillOrigin
  | systemBuiltin (name digest : String)
  | userOwned

structure ExportedSkillMetadata where
  name : String
  description : Option String := none
  origin : Option SkillOrigin := none

/-- `agent.json`.  Where the code takes something else for a list, it throws there. -/
structure ExportedAgent where
  name : String
  mcpServerRefs : Except String (List String) := .ok []
  skillRefs : Except String (List String) := .ok []
  kbDocumentRefs : Except String (List String) := .ok []
  providerRef : Option String := none
  scmSourceRef : Option String := none
  memoryEnabled : Bool := false
  providerChain : Option Json := none
  chatAppConfig : Option Json := none

abbrev Location := List (List Char)

abbrev Files := Tree (List Char) Bytes

structure Host where
  importer : Importer
  isPostgres : Bool := false
  storageRoot : Location
  toLowerCase : String → String
  utf8 : Bytes → String
  readZip : Bytes → Except String (List ZipEntry)
  getData : ZipEntry → Except String Bytes
  parseManifest : Bytes → Except String String
  parseAgent : Bytes → Except String ExportedAgent
  parseMcp : Bytes → Except String ExportedMcpServer
  parseSkill : Bytes → Except String ExportedSkillMetadata
  chatAppConfigSchema : Json → Except String Unit
  computeExportedSkillPackageDigest : String → Option String → List (List Char × Bytes) → String
  readAllSkillFiles : String → Except String (List (List Char × Bytes))

/-- `if (text)`. -/
def given (text : Option String) : Option String := text.filter (· ≠ "")

def getEntry (zip : List ZipEntry) (name : List Char) : Option ZipEntry :=
  zip.find? fun entry => entry.entryName.toList = name

def skillJson (dirName : List Char) : List Char := skillPrefix dirName ++ "skill.json".toList

end Bundle

section Connection

/-- What a COMMIT that fails has done: the database rolled the transaction back, keeps it open, or its answer is
lost. -/
inductive CommitFault
  | rolledBack
  | stillOpen
  | applied
  deriving DecidableEq

structure Faults where
  beginFails : Bool := false
  statement : Nat → Option Bool := fun _ => none
  disk : Disk.Faults (List Char) Bytes := {}
  commit : Option CommitFault := none

structure World where
  tables : Tables := {}
  tree : Files

/-- `tables` is what a query on the connection sees, and `saved` what a ROLLBACK goes back to. -/
structure Connection extends World where
  saved : Option Tables := none
  statements : Nat := 0
  ids : Nat := 0

def Connection.rollback (c : Connection) : Connection :=
  match c.saved with
  | some tables => { c with tables := tables, saved := none }
  | none => c

def Connection.commit (c : Connection) : Connection := { c with saved := none }

/-- After a COMMIT that failed.  It is outside the `try` on SQLite; on PostgreSQL the driver rolls back then. -/
def Connection.failedCommit (c : Connection) (isPostgres : Bool) : CommitFault → Connection
  | .rolledBack => c.rollback
  | .stillOpen => if isPostgres then c.rollback else c
  | .applied => c.commit

def World.opened (w : World) : Connection := { toWorld := w, saved := some w.tables }

abbrev Tx (α : Type) := Session Connection String α

variable (host : Host) (faults : Faults) {α : Type}

def statement (f : Tables → Except String (α × Tables)) : Tx α := step fun c =>
  let c := { c with statements := c.statements + 1 }
  match faults.statement (c.statements - 1) with
  | some aborts => (.error "the statement failed", if aborts then c.rollback else c)
  | none =>
    match f c.tables with
    | .error e => (.error e, c)
    | .ok (a, tables) => (.ok a, { c with tables := tables })

def select (f : Tables → α) : Tx α := statement faults fun tables => .ok (f tables, tables)

/-- `tx.insert(..).values(..)`; a row that has the key of another is a conflict. -/
def insertInto {ρ : Type} [Keyed ρ String] (name : String) (table : Tables → Table ρ) (put : Tables → Table ρ → Tables)
    (row : ρ) : Tx Unit := statement faults fun tables =>
  match (table tables).insert row with
  | none => .error ("UNIQUE constraint failed: " ++ name ++ ".id")
  | some rows => .ok ((), put tables rows)

def insertMcpServer : McpServer → Tx Unit :=
  insertInto faults "mcp_servers" Tables.mcpServers fun tables rows => { tables with mcpServers := rows }

def insertSkill : SkillRow → Tx Unit :=
  insertInto faults "skills" Tables.skills fun tables rows => { tables with skills := rows }

def insertAgent : AgentRow → Tx Unit :=
  insertInto faults "agents" Tables.agents fun tables rows => { tables with agents := rows }

def createId : Tx String := step fun c => (.ok (host.importer.createId c.ids), { c with ids := c.ids + 1 })

def withTransaction (fn : Tx α) (w : World) : Except String α × Connection :=
  if faults.beginFails then (.error "BEGIN failed", { toWorld := w })
  else
    match run fn w.opened with
    | (.error e, c) => (.error e, c.rollback)
    | (.ok result, c) =>
      match faults.commit with
      | none => (.ok result, c.commit)
      | some fault => (.error "COMMIT failed", c.failedCommit host.isPostgres fault)

end Connection

section McpServers

variable (host : Host) (faults : Faults) (zip : List ZipEntry)

structure Imported where
  id : String
  name : String

structure McpServers where
  mcpIdMap : String → Option String := fun _ => none
  importedMcps : List Imported := []

def checkMcpReference (ref : String) : Except String Unit :=
  let name := ref.toList
  if name = [] ∨ '/' ∈ name ∨ backslash ∈ name ∨ name = ['.'] ∨ name = ['.', '.'] then
    .error ("Invalid MCP Server reference in Agent export: " ++ String.ofList (quote ref))
  else .ok ()

def importMcp (acc : McpServers) (ref : String) : Tx McpServers := do
  attempt (checkMcpReference ref)
  match getEntry zip ("mcp-servers/".toList ++ ref.toList) with
  | none => pure acc
  | some entry => do
    let data ← attempt (host.getData entry)
    let mcpData ← attempt (host.parseMcp data)
    let row ← attempt (importMcpServer host.importer [] "" mcpData)
    let existing ← select faults fun tables => tables.mcpServers.rows.find? fun row => row.name = mcpData.name
    let finalName := if existing.isSome then mcpData.name ++ " (Imported)" else mcpData.name
    let newId ← createId host
    insertMcpServer faults { row with id := newId, name := finalName }
    pure
      { mcpIdMap := Function.update acc.mcpIdMap ref (some newId)
        importedMcps := acc.importedMcps ++ [⟨newId, finalName⟩] }

end McpServers

section Skills

variable (host : Host) (faults : Faults) (zip : List ZipEntry)

inductive DowngradeReason
  | packageMismatch
  | unverifiableProvenance

structure Provenance where
  trustedBuiltin : Option SkillRow := none
  targetBuiltin : Option SkillRow := none
  builtinDowngradeReason : Option DowngradeReason := none

def getArchivedSkillPackageFiles (dirName : List Char) : Except String (List (List Char × Bytes)) :=
  (zip.filter fun entry => !entry.isDirectory && (skillPrefix dirName).isPrefixOf entry.entryName.toList &&
    entry.entryName.toList ≠ skillJson dirName).mapM fun entry =>
      (host.getData entry).map fun data => (entry.entryName.toList.drop (skillPrefix dirName).length, data)

def getPersistedSkillPackageFiles (skill : SkillRow) : Except String (List (List Char × Bytes)) := do
  let files ← if (given skill.storagePath).isSome then host.readAllSkillFiles skill.id else .ok []
  let packaged := files.filter fun file => file.1 ≠ "SKILL.md".toList && file.1 ≠ "skill.json".toList
  .ok (packaged ++ (given skill.content).toList.map fun content => ("SKILL.md".toList, content.toUTF8.data.toList))

def targetDigest (row : SkillRow) : Option String :=
  (getPersistedSkillPackageFiles host row).toOption.map
    (host.computeExportedSkillPackageDigest row.name row.description)

def rebind (digest archiveDigest : String) (targetBuiltin : Option SkillRow) : Provenance :=
  if digest = archiveDigest ∧ targetBuiltin.bind (targetDigest host) = some archiveDigest then
    { trustedBuiltin := targetBuiltin, targetBuiltin := targetBuiltin }
  else { targetBuiltin := targetBuiltin, builtinDowngradeReason := some .packageMismatch }

def unverifiable (name : String) : Tx Provenance :=
  if name ∈ REBINDABLE_SYSTEM_SKILL_NAMES then do
    let targetBuiltin ← select faults fun tables => systemSkill tables.skills name
    pure { targetBuiltin := targetBuiltin, builtinDowngradeReason := some .unverifiableProvenance }
  else pure { builtinDowngradeReason := some .unverifiableProvenance }

def readProvenance (dirName : List Char) (skillMeta : ExportedSkillMetadata) : Tx Provenance :=
  match skillMeta.origin with
  | some (.systemBuiltin name digest) =>
    if name = skillMeta.name ∧ skillMeta.name ∈ REBINDABLE_SYSTEM_SKILL_NAMES then do
      let archiveFiles ← attempt (getArchivedSkillPackageFiles host zip dirName)
      let archiveDigest :=
        host.computeExportedSkillPackageDigest skillMeta.name skillMeta.description archiveFiles
      let targetBuiltin ← select faults fun tables => systemSkill tables.skills skillMeta.name
      pure (rebind host digest archiveDigest targetBuiltin)
    else unverifiable faults skillMeta.name
  | some .userOwned => pure {}
  | none =>
    if skillMeta.name ∈ REBINDABLE_SYSTEM_SKILL_NAMES then unverifiable faults skillMeta.name else pure {}

structure Skills where
  skillIdMap : String → Option String := fun _ => none
  importedSkills : List Imported := []
  shouldDisableImportedMemory : Bool := false
  boundSystemMemorySkillId : Option String := none
  pendingDirs : List Location := []
  pendingFileWrites : List PendingFileWrite := []

def bindBuiltin (acc : Skills) (ref : String) (builtin : SkillRow) : Skills :=
  { acc with
    skillIdMap := Function.update acc.skillIdMap ref (some builtin.id)
    importedSkills := acc.importedSkills ++ [⟨builtin.id, builtin.name⟩]
    boundSystemMemorySkillId :=
      if builtin.name = MEMORY_SKILL_NAME then some builtin.id else acc.boundSystemMemorySkillId }

def bindNew (acc : Skills) (ref : String) (skillMeta : ExportedSkillMetadata) (provenance : Provenance)
    (new : Imported) : Skills :=
  if skillMeta.name = MEMORY_SKILL_NAME ∧ provenance.builtinDowngradeReason.isSome then
    match provenance.targetBuiltin with
    | some target =>
      { acc with
        skillIdMap := Function.update acc.skillIdMap ref (some target.id)
        importedSkills := acc.importedSkills ++ [⟨target.id, target.name⟩]
        boundSystemMemorySkillId := some target.id }
    | none => { acc with importedSkills := acc.importedSkills ++ [new], shouldDisableImportedMemory := true }
  else
    { acc with
      skillIdMap := Function.update acc.skillIdMap ref (some new.id)
      importedSkills := acc.importedSkills ++ [new] }

def collectWrite (newId : String) (dirName : List Char) (entry : ZipEntry) : Except String (List PendingFileWrite) := do
  match ← collectFile host.storageRoot newId dirName entry with
  | none => .ok []
  | some file => do
    let data ← host.getData entry
    .ok [{ file with data := data }]

def collectWrites (newId : String) (dirName : List Char) : List ZipEntry → Except String (List PendingFileWrite)
  | [] => .ok []
  | entry :: entries => do
    let file ← collectWrite host newId dirName entry
    let files ← collectWrites newId dirName entries
    .ok (file ++ files)

def skillDirs (newId : String) (files : List PendingFileWrite) : List Location :=
  getSkillStoragePath host.storageRoot newId :: files.map fun file => file.path.dropLast

def readSkillMd (dirName : List Char) : Except String (Option String) :=
  match getEntry zip (skillPrefix dirName ++ "SKILL.md".toList) with
  | none => .ok none
  | some entry => (host.getData entry).map fun data => some (host.utf8 data)

def findExisting (targetBuiltin : Option SkillRow) (name : String) : Tx (Option SkillRow) :=
  match targetBuiltin with
  | some row => pure (some row)
  | none => select faults fun tables => tables.skills.rows.find? fun row => row.name = name

def createSkill (acc : Skills) (ref : String) (dirName : List Char) (skillMeta : ExportedSkillMetadata)
    (provenance : Provenance) : Tx Skills := do
  let content ← attempt (readSkillMd host zip dirName)
  let existing ← findExisting faults provenance.targetBuiltin skillMeta.name
  let finalName := if existing.isSome then skillMeta.name ++ " (Imported)" else skillMeta.name
  let newId ← createId host
  insertSkill faults
    { id := newId, name := finalName, description := skillMeta.description, content := content
      storagePath := some newId
      userId := some host.importer.userId }
  let files ← attempt (collectWrites host newId dirName zip)
  pure
    { bindNew acc ref skillMeta provenance ⟨newId, finalName⟩ with
      pendingDirs := acc.pendingDirs ++ skillDirs host newId files
      pendingFileWrites := acc.pendingFileWrites ++ files }

def importSkill (acc : Skills) (ref : String) : Tx Skills := do
  let dirName ← attempt (skillDirectory ref)
  match getEntry zip (skillJson dirName) with
  | none => pure acc
  | some entry => do
    let data ← attempt (host.getData entry)
    let skillMeta ← attempt (host.parseSkill data)
    let provenance ← readProvenance host faults zip dirName skillMeta
    match provenance.trustedBuiltin with
    | some builtin => pure (bindBuiltin acc ref builtin)
    | none => createSkill host faults zip acc ref dirName skillMeta provenance

end Skills

section SkillFiles

variable (faults : Faults)

structure Written where
  createdDirs : List Location := []
  tree : Files

def onTree {α : Type} (p : Session Files String α) : Session Written String α :=
  focus Written.tree (fun tree written => { written with tree := tree }) p

def createDir (dir : Location) : Session Written String Unit := do
  let missing ← step fun written => (.ok (!existsSync written.tree dir), written)
  if missing then do
    step fun written => (.ok (), { written with createdDirs := written.createdDirs ++ [dir] })
    onTree (mkdirSync faults.disk dir)
  else pure ()

def writeFiles (pendingDirs : List Location) (pendingFileWrites : List PendingFileWrite) :
    Session Written String Unit := do
  pendingDirs.forM (createDir faults)
  pendingFileWrites.forM fun file => onTree (writeFileSync faults.disk file.path file.data)

def cleanUp (written : Written) : Files := written.createdDirs.foldl (rmSync faults.disk) written.tree

/-- The last step of the transaction, in a `try` of its own. -/
def writeSkillFiles (pendingDirs : List Location) (pendingFileWrites : List PendingFileWrite) : Tx Unit := step fun c =>
  match run (writeFiles faults pendingDirs pendingFileWrites) { tree := c.tree } with
  | (.ok (), written) => (.ok (), { c with tree := written.tree })
  | (.error e, written) => (.error e, { c with tree := cleanUp faults written })

end SkillFiles

section Import

variable (host : Host) (faults : Faults) (zip : List ZipEntry) (agent : ExportedAgent)

def acquireScmPathMutationLock : Tx Unit :=
  if (given agent.scmSourceRef).isSome && host.isPostgres then select faults fun _ => () else pure ()

def importMcpServers : Tx McpServers := do
  let refs ← attempt agent.mcpServerRefs
  refs.foldlM (importMcp host faults zip) {}

def importSkills : Tx Skills := do
  let refs ← attempt agent.skillRefs
  refs.foldlM (importSkill host faults zip) {}

def resolveProvider : Tx (Option String) :=
  match given agent.providerRef with
  | none => pure none
  | some ref => select faults fun tables => (tables.providers.find? fun row => row.name = ref).map NamedRow.id

def isBindableByImporter (row : NamedRow) : Bool :=
  host.importer.isAdmin || row.userId = some host.importer.userId

def resolveScmSource : Tx (Option String) :=
  match given agent.scmSourceRef with
  | none => pure none
  | some ref => select faults fun tables =>
    ((tables.scmSources.filter fun row => row.name = ref && !row.deletionRequested).find?
      (isBindableByImporter host)).map NamedRow.id

def resolveKbDocuments : Tx (List String) := do
  let refs ← attempt agent.kbDocumentRefs
  refs.foldlM (fun ids name => do
    let doc ← select faults fun tables =>
      (tables.kbDocuments.filter fun row => row.name = name).find? (isBindableByImporter host)
    pure (ids ++ (doc.map NamedRow.id).toList)) []

def repairMemory (skills : Skills) : Tx (Option SkillRow × Bool) :=
  if agent.memoryEnabled && !skills.shouldDisableImportedMemory && skills.boundSystemMemorySkillId.isNone then do
    let target ← select faults fun tables => systemSkill tables.skills MEMORY_SKILL_NAME
    pure (target, target.isNone)
  else pure (none, skills.shouldDisableImportedMemory)

def checkConfig : Except String Unit := do
  let invalid (what message : String) :=
    "Imported Agent \"" ++ agent.name ++ "\" has an invalid " ++ what ++ ": " ++ message
  match agent.providerChain with
  | none => pure ()
  | some chain => (host.importer.providerChainSchema chain).mapError (invalid "provider chain")
  match agent.chatAppConfig with
  | none => pure ()
  | some config => (host.chatAppConfigSchema config).mapError (invalid "chat page config")

structure ImportResult where
  agent : Imported
  mcpServers : List Imported
  skills : List Imported

def importAgent : Tx ImportResult := do
  acquireScmPathMutationLock host faults agent
  let mcps ← importMcpServers host faults zip agent
  let skills ← importSkills host faults zip agent
  let providerId ← resolveProvider faults agent
  let scmSourceId ← resolveScmSource host faults agent
  let kbDocumentIds ← resolveKbDocuments host faults agent
  let agentId ← createId host
  let existing ← select faults fun tables => tables.agents.rows.find? fun row => row.name = agent.name
  let agentName := if existing.isSome then agent.name ++ " (Imported)" else agent.name
  let memory ← repairMemory faults agent skills
  attempt (checkConfig host agent)
  insertAgent faults
    { id := agentId, name := agentName
      skills := (agent.skillRefs.toOption.getD []).filterMap skills.skillIdMap ++ memory.1.toList.map SkillRow.id
      mcpServerIds := (agent.mcpServerRefs.toOption.getD []).filterMap mcps.mcpIdMap
      kbDocumentIds := kbDocumentIds
      providerId := providerId
      scmSourceId := scmSourceId
      memoryEnabled := agent.memoryEnabled && !memory.2
      userId := some host.importer.userId }
  writeSkillFiles faults skills.pendingDirs skills.pendingFileWrites
  pure
    { agent := ⟨agentId, agentName⟩, mcpServers := mcps.importedMcps
      skills := skills.importedSkills ++ memory.1.toList.map fun row => ⟨row.id, row.name⟩ }

def SUPPORTED_MANIFEST_VERSIONS : List String := ["1.0"]

def MAX_IMPORT_ZIP_BYTES : Nat := 50 * 1024 * 1024

def readErrorMessage : ReadError → String
  | .range => "The value of \"offset\" is out of range."
  | .invalid message => message

def readArchive (zipBuffer : Bytes) : Except String (List ZipEntry × ExportedAgent) := do
  if MAX_IMPORT_ZIP_BYTES < zipBuffer.length then .error "ZIP file must not exceed 50MB"
  else do
    let zip ← host.readZip zipBuffer
    (assertRawCentralDirectoryPaths host.utf8 AGENT_IMPORT_ARCHIVE_LIMITS zipBuffer).mapError readErrorMessage
    preflightAgentImportArchive host.toLowerCase AGENT_IMPORT_ARCHIVE_LIMITS zip
    match getEntry zip "manifest.json".toList with
    | none =>
      .error "No manifest.json found in the ZIP archive; this is not a valid Agent export package"
    | some manifestEntry => do
      let version ← (host.getData manifestEntry).bind host.parseManifest
      if version ∉ SUPPORTED_MANIFEST_VERSIONS then
        .error ("Unsupported export package version: " ++ version ++ ". Supported versions: 1.0")
      else
        match getEntry zip "agent.json".toList with
        | none => .error "No agent.json found in the ZIP archive"
        | some agentEntry => do
          let agent ← (host.getData agentEntry).bind host.parseAgent
          .ok (zip, agent)

def importAgentFromZip (zipBuffer : Bytes) (w : World) : Except String ImportResult × Connection :=
  match readArchive host zipBuffer with
  | .error e => (.error e, { toWorld := w })
  | .ok (zip, agent) => withTransaction host faults (importAgent host faults zip agent) w

end Import

section Spec

variable (host : Host) (faults : Faults) (zip : List ZipEntry)

def trustedBuiltin (tables : Tables) (dirName : List Char) (skillMeta : ExportedSkillMetadata) : Option SkillRow :=
  match skillMeta.origin with
  | some (.systemBuiltin name digest) =>
    if name = skillMeta.name ∧ skillMeta.name ∈ REBINDABLE_SYSTEM_SKILL_NAMES then
      match getArchivedSkillPackageFiles host zip dirName with
      | .error _ => none
      | .ok files =>
        let archiveDigest := host.computeExportedSkillPackageDigest skillMeta.name skillMeta.description files
        (rebind host digest archiveDigest (systemSkill tables.skills skillMeta.name)).trustedBuiltin
    else none
  | _ => none

def CreatesSkill (tables : Tables) (ref : String) : Prop :=
  ∃ dirName entry data skillMeta, skillDirectory ref = .ok dirName ∧ getEntry zip (skillJson dirName) = some entry ∧
    host.getData entry = .ok data ∧ host.parseSkill data = .ok skillMeta ∧
    trustedBuiltin host zip tables dirName skillMeta = none

structure FreshIds (w : World) : Prop where
  plain : ∀ n, Plain (host.importer.createId n).toList
  free : ∀ n, existsSync w.tree (host.storageRoot ++ [(host.importer.createId n).toList]) = false

structure NothingLeft (w : World) (c : Connection) : Prop where
  rows : c.tables = w.tables
  directories : ∀ name, existsSync c.tree (host.storageRoot ++ [name]) = true →
    existsSync w.tree (host.storageRoot ++ [name]) = true

structure ReachesCommit (zipBuffer : Bytes) (w : World) (zip : List ZipEntry) (agent : ExportedAgent) : Prop where
  read : readArchive host zipBuffer = .ok (zip, agent)
  begun : faults.beginFails = false
  body : ∃ result, (run (importAgent host faults zip agent) w.opened).1 = .ok result

def RollsBack (fault : CommitFault) : Prop := fault = .rolledBack ∨ fault = .stillOpen ∧ host.isPostgres = true

structure Open (w : World) (c : Connection) : Prop where
  saved : c.saved = some w.tables
  tree : c.tree = w.tree

structure Inside (w : World) (c : Connection) : Prop extends Open w c where
  agents : c.tables.agents = w.tables.agents
  systemSkills : ∀ name, systemSkill c.tables.skills name = systemSkill w.tables.skills name

structure Undone (w : World) (c : Connection) : Prop where
  rows : c.rollback.tables = w.tables
  directories : ∀ name, existsSync c.tree (host.storageRoot ++ [name]) = true →
    existsSync w.tree (host.storageRoot ++ [name]) = true

end Spec

section Statements

variable {host : Host} {faults : Faults} {zip : List ZipEntry} {α : Type} {w : World} {c : Connection}

theorem Open.undone (h : Open w c) : Undone host w c where
  rows := by rw [Connection.rollback, h.saved]
  directories := fun name hname => h.tree ▸ hname

theorem rollback_tree (c : Connection) : c.rollback.tree = c.tree := by
  unfold Connection.rollback
  split <;> rfl

theorem rollback_rollback (c : Connection) : c.rollback.rollback = c.rollback := by
  cases hsaved : c.saved with
  | none =>
    have hself : c.rollback = c := by rw [Connection.rollback, hsaved]
    rw [hself, hself]
  | some tables =>
    have hrollback : c.rollback = { c with tables := tables, saved := none } := by rw [Connection.rollback, hsaved]
    rw [hrollback]
    rfl

theorem Undone.nothingLeft (h : Undone host w c) : NothingLeft host w c.rollback where
  rows := h.rows
  directories := by
    rw [rollback_tree]
    exact h.directories

theorem Undone.rollback (h : Undone host w c) : Undone host w c.rollback where
  rows := by
    rw [rollback_rollback]
    exact h.rows
  directories := h.nothingLeft.directories

theorem statement_leaves {f : Tables → Except String (α × Tables)} (h : Open w c) :
    Leaves (statement faults f) c (fun a c' => Open w c' ∧ f c.tables = .ok (a, c'.tables)) (Undone host w) := by
  have hnext : Undone host w { c with statements := c.statements + 1 } := Open.undone ⟨h.saved, h.tree⟩
  apply leaves_step
  · intro a c' hstep
    dsimp only at hstep
    split at hstep
    · cases hstep
    · split at hstep
      · cases hstep
      · rename_i heq
        obtain ⟨hok, rfl⟩ := Prod.mk.inj hstep
        obtain rfl := Except.ok.inj hok
        exact ⟨⟨h.saved, h.tree⟩, heq⟩
  · intro e c' hstep
    dsimp only at hstep
    split at hstep
    · rename_i aborts _
      obtain ⟨-, rfl⟩ := Prod.mk.inj hstep
      cases aborts with
      | false => exact hnext
      | true => exact hnext.rollback
    · split at hstep
      · obtain ⟨-, rfl⟩ := Prod.mk.inj hstep
        exact hnext
      · cases hstep

theorem select_leaves (f : Tables → α) (h : Inside w c) :
    Leaves (select faults f) c (fun a c' => Inside w c' ∧ a = f c.tables) (Undone host w) := by
  apply (statement_leaves h.toOpen).mono
  · rintro a c' ⟨hopen, heq⟩
    obtain ⟨ha, htables⟩ := Prod.mk.inj (Except.ok.inj heq)
    exact ⟨⟨hopen, htables ▸ h.agents, htables ▸ h.systemSkills⟩, ha.symm⟩
  · exact fun _ h => h

theorem select_inside (f : Tables → α) (h : Inside w c) :
    Leaves (select faults f) c (fun _ => Inside w) (Undone host w) :=
  (select_leaves f h).mono (fun _ _ h => h.1) fun _ h => h

theorem createId_leaves (h : Inside w c) :
    Leaves (createId host) c (fun id c' => Inside w c' ∧ ∃ n, id = host.importer.createId n) (Undone host w) := by
  apply leaves_step
  · intro id c' hstep
    obtain ⟨hid, rfl⟩ := Prod.mk.inj hstep
    exact ⟨⟨⟨h.saved, h.tree⟩, h.agents, h.systemSkills⟩, c.ids, (Except.ok.inj hid).symm⟩
  · intro e c' hstep
    cases (Prod.mk.inj hstep).1

theorem insertInto_leaves {ρ : Type} [Keyed ρ String] {name : String} {table : Tables → Table ρ}
    {put : Tables → Table ρ → Tables} {row : ρ} (h : Open w c) :
    Leaves (insertInto faults name table put row) c
      (fun _ c' => Open w c' ∧ ∃ rows, (table c.tables).insert row = some rows ∧ c'.tables = put c.tables rows)
      (Undone host w) := by
  apply (statement_leaves h).mono
  · rintro _ c' ⟨hopen, heq⟩
    split at heq
    · cases heq
    · rename_i rows hinsert
      obtain ⟨-, htables⟩ := Prod.mk.inj (Except.ok.inj heq)
      exact ⟨hopen, rows, hinsert, htables.symm⟩
  · exact fun _ h => h

theorem insertMcpServer_leaves (row : McpServer) (h : Inside w c) :
    Leaves (insertMcpServer faults row) c (fun _ => Inside w) (Undone host w) := by
  apply (insertInto_leaves h.toOpen).mono
  · rintro _ c' ⟨hopen, rows, -, htables⟩
    exact ⟨hopen, htables ▸ h.agents, htables ▸ h.systemSkills⟩
  · exact fun _ h => h

theorem insertSkill_leaves (row : SkillRow) (hrow : row.userId.isSome = true) (h : Inside w c) :
    Leaves (insertSkill faults row) c (fun _ => Inside w) (Undone host w) := by
  apply (insertInto_leaves h.toOpen).mono
  · rintro _ c' ⟨hopen, rows, hinsert, htables⟩
    refine ⟨hopen, htables ▸ h.agents, fun name => ?_⟩
    have hsystem : systemSkill rows name = systemSkill c.tables.skills name := by
      obtain ⟨userId, huser⟩ := Option.isSome_iff_exists.mp hrow
      rw [systemSkill, Table.rows_insert hinsert, List.find?_append, systemSkill]
      simp [huser]
    rw [htables]
    exact hsystem.trans (h.systemSkills name)
  · exact fun _ h => h

theorem insertAgent_leaves (row : AgentRow) (h : Inside w c) :
    Leaves (insertAgent faults row) c (fun _ c' => Open w c' ∧ c'.tables ≠ w.tables) (Undone host w) := by
  apply (insertInto_leaves h.toOpen).mono
  · rintro _ c' ⟨hopen, rows, hinsert, htables⟩
    refine ⟨hopen, fun hsame => ?_⟩
    have hagents : rows = w.tables.agents := by rw [← hsame, htables]
    have hlength := congrArg List.length (Table.rows_insert hinsert)
    rw [hagents, h.agents, List.length_append, List.length_singleton] at hlength
    omega
  · exact fun _ h => h

end Statements

section Body

variable {host : Host} {faults : Faults} {zip : List ZipEntry} {agent : ExportedAgent} {w : World} {c : Connection}
  {α : Type}

theorem attempt_leaves {x : Except String α} (h : Inside w c) :
    Leaves (attempt x) c (fun a c' => Inside w c' ∧ x = .ok a) (Undone host w) :=
  leaves_attempt (fun _ hx => ⟨h, hx⟩) h.undone

theorem importMcp_leaves (acc : McpServers) (ref : String) (h : Inside w c) :
    Leaves (importMcp host faults zip acc ref) c (fun _ => Inside w) (Undone host w) := by
  unfold importMcp
  apply (attempt_leaves h).bind
  rintro _ c ⟨h, -⟩
  split
  · exact h
  · apply (attempt_leaves h).bind
    rintro data c ⟨h, -⟩
    apply (attempt_leaves h).bind
    rintro mcpData c ⟨h, -⟩
    apply (attempt_leaves h).bind
    rintro row c ⟨h, -⟩
    apply (select_leaves _ h).bind
    rintro existing c ⟨h, -⟩
    apply (createId_leaves h).bind
    rintro newId c ⟨h, -⟩
    apply (insertMcpServer_leaves _ h).bind
    intro _ c h
    exact h

theorem importMcpServers_leaves (h : Inside w c) :
    Leaves (importMcpServers host faults zip agent) c (fun _ => Inside w) (Undone host w) := by
  unfold importMcpServers
  apply (attempt_leaves h).bind
  rintro refs c ⟨h, -⟩
  exact @leaves_foldlM _ _ _ c (Undone host w) {} _ refs (importMcp host faults zip) (fun _ _ => Inside w) h
    fun front ref rest _ acc c h => importMcp_leaves acc ref h

theorem unverifiable_leaves (name : String) (h : Inside w c) :
    Leaves (unverifiable faults name) c (fun provenance c' => Inside w c' ∧ provenance.trustedBuiltin = none)
      (Undone host w) := by
  unfold unverifiable
  split
  · apply (select_leaves _ h).bind
    rintro target c ⟨h, -⟩
    exact ⟨h, rfl⟩
  · exact ⟨h, rfl⟩

theorem readProvenance_leaves (dirName : List Char) (skillMeta : ExportedSkillMetadata) (h : Inside w c) :
    Leaves (readProvenance host faults zip dirName skillMeta) c
      (fun provenance c' =>
        Inside w c' ∧ provenance.trustedBuiltin = trustedBuiltin host zip w.tables dirName skillMeta)
      (Undone host w) := by
  unfold readProvenance trustedBuiltin
  cases skillMeta.origin with
  | none =>
    dsimp only
    split
    · exact unverifiable_leaves _ h
    · exact ⟨h, rfl⟩
  | some origin =>
    cases origin with
    | userOwned => exact ⟨h, rfl⟩
    | systemBuiltin name digest =>
      dsimp only
      by_cases hclaims : name = skillMeta.name ∧ skillMeta.name ∈ REBINDABLE_SYSTEM_SKILL_NAMES
      · rw [if_pos hclaims, if_pos hclaims]
        apply (attempt_leaves h).bind
        rintro files c ⟨h, hfiles⟩
        apply (select_leaves _ h).bind
        rintro target c' ⟨h', htarget⟩
        refine ⟨h', ?_⟩
        rw [hfiles, htarget, h.systemSkills]
      · rw [if_neg hclaims, if_neg hclaims]
        exact unverifiable_leaves _ h

theorem findExisting_leaves (target : Option SkillRow) (name : String) (h : Inside w c) :
    Leaves (findExisting faults target name) c (fun _ => Inside w) (Undone host w) := by
  unfold findExisting
  split
  · exact h
  · exact select_inside _ h

variable {dirName : List Char}

theorem collectFile_below {root : Location} {newId : String} {entry : ZipEntry}
    {file : PendingFileWrite} (h : collectFile root newId dirName entry = .ok (some file)) :
    getSkillStoragePath root newId <+: file.path := by
  unfold collectFile at h
  dsimp only at h
  split at h
  · cases h
  · split at h
    · cases h
    · split at h
      · cases h
      · rename_i hinside
        obtain rfl := Option.some.inj (Except.ok.inj h)
        rw [not_and_or, not_not, not_not] at hinside
        rcases hinside with heq | hpre
        · rw [heq]
        · exact hpre

theorem collectWrite_below {newId : String} {entry : ZipEntry} {files : List PendingFileWrite}
    (h : collectWrite host newId dirName entry = .ok files) :
    ∀ file ∈ files, getSkillStoragePath host.storageRoot newId <+: file.path := by
  obtain ⟨file, hfile, h⟩ := bind_ok h
  cases file with
  | none =>
    obtain rfl := Except.ok.inj h
    nofun
  | some file =>
    obtain ⟨data, -, h⟩ := bind_ok h
    obtain rfl := Except.ok.inj h
    have hbelow := collectFile_below hfile
    exact List.forall_mem_singleton.mpr hbelow

theorem collectWrites_below {newId : String} {entries : List ZipEntry}
    {files : List PendingFileWrite} (h : collectWrites host newId dirName entries = .ok files) :
    ∀ file ∈ files, getSkillStoragePath host.storageRoot newId <+: file.path := by
  induction entries generalizing files with
  | nil =>
    cases h
    nofun
  | cons entry entries ih =>
    obtain ⟨file, hfile, h⟩ := bind_ok h
    obtain ⟨rest, hrest, h⟩ := bind_ok h
    obtain rfl := Except.ok.inj h
    rw [List.forall_mem_append]
    exact ⟨collectWrite_below hfile, ih hrest⟩

theorem createSkill_leaves (acc : Skills) (ref : String) (dirName : List Char) (skillMeta : ExportedSkillMetadata)
    (provenance : Provenance) (h : Inside w c) :
    Leaves (createSkill host faults zip acc ref dirName skillMeta provenance) c
      (fun acc' c' => Inside w c' ∧ ∃ n files,
        acc'.pendingDirs = acc.pendingDirs ++ skillDirs host (host.importer.createId n) files ∧
        acc'.pendingFileWrites = acc.pendingFileWrites ++ files ∧
        ∀ file ∈ files, getSkillStoragePath host.storageRoot (host.importer.createId n) <+: file.path)
      (Undone host w) := by
  unfold createSkill
  apply (attempt_leaves h).bind
  rintro content c ⟨h, -⟩
  apply (findExisting_leaves _ _ h).bind
  intro existing c h
  apply (createId_leaves h).bind
  rintro newId c ⟨h, n, rfl⟩
  apply (insertSkill_leaves _ rfl h).bind
  intro _ c h
  apply (attempt_leaves h).bind
  rintro files c ⟨h, hfiles⟩
  exact ⟨h, n, files, rfl, rfl, collectWrites_below hfiles⟩

def Adds (host : Host) (zip : List ZipEntry) (w : World) (ref : String) (acc acc' : Skills) : Prop :=
  (¬ CreatesSkill host zip w.tables ref ∧ acc'.pendingDirs = acc.pendingDirs ∧
    acc'.pendingFileWrites = acc.pendingFileWrites) ∨
  (CreatesSkill host zip w.tables ref ∧ ∃ n files,
    acc'.pendingDirs = acc.pendingDirs ++ skillDirs host (host.importer.createId n) files ∧
    acc'.pendingFileWrites = acc.pendingFileWrites ++ files ∧
    ∀ file ∈ files, getSkillStoragePath host.storageRoot (host.importer.createId n) <+: file.path)

theorem importSkill_leaves (acc : Skills) (ref : String) (h : Inside w c) :
    Leaves (importSkill host faults zip acc ref) c (fun acc' c' => Inside w c' ∧ Adds host zip w ref acc acc')
      (Undone host w) := by
  unfold importSkill
  apply (attempt_leaves h).bind
  rintro dirName c ⟨h, hdir⟩
  cases hentry : getEntry zip (skillJson dirName) with
  | none =>
    refine ⟨h, .inl ⟨?_, rfl, rfl⟩⟩
    rintro ⟨dirName', entry, -, -, hdir', hentry', -⟩
    rw [hdir, Except.ok.injEq] at hdir'
    rw [← hdir', hentry] at hentry'
    cases hentry'
  | some entry =>
    dsimp only
    apply (attempt_leaves h).bind
    rintro data c ⟨h, hdata⟩
    apply (attempt_leaves h).bind
    rintro skillMeta c ⟨h, hmeta⟩
    apply (readProvenance_leaves _ _ h).bind
    rintro provenance c ⟨h, hprovenance⟩
    cases htrusted : provenance.trustedBuiltin with
    | some builtin =>
      refine ⟨h, .inl ⟨?_, rfl, rfl⟩⟩
      rintro ⟨dirName', entry', data', skillMeta', hdir', hentry', hdata', hmeta', hnone⟩
      rw [hdir, Except.ok.injEq] at hdir'
      subst hdir'
      rw [hentry, Option.some.injEq] at hentry'
      subst hentry'
      rw [hdata, Except.ok.injEq] at hdata'
      subst hdata'
      rw [hmeta, Except.ok.injEq] at hmeta'
      subst hmeta'
      rw [hprovenance, hnone] at htrusted
      cases htrusted
    | none =>
      have hcreates : CreatesSkill host zip w.tables ref :=
        ⟨dirName, entry, data, skillMeta, hdir, hentry, hdata, hmeta, hprovenance ▸ htrusted⟩
      exact (createSkill_leaves _ _ _ _ _ h).mono (fun _ _ h => ⟨h.1, .inr ⟨hcreates, h.2⟩⟩) fun _ h => h

end Body

section Order

variable {host : Host} {zip : List ZipEntry} {w : World} {root : Location} {dirs dirs' : List Location}

def Led (root : Location) (dirs : List Location) : Prop :=
  ∀ front dir rest, dirs = front ++ dir :: rest → ∀ name, root ++ [name] <+: dir → root ++ [name] ∈ front ++ [dir]

theorem Led.append (h : Led root dirs) (h' : Led root dirs') : Led root (dirs ++ dirs') := by
  intro front dir rest heq name hname
  rcases List.append_eq_append_iff.mp heq with ⟨front', rfl, hrest⟩ | ⟨rest', rfl, hrest⟩
  · rw [List.append_assoc]
    exact List.mem_append_right dirs (h' front' dir rest hrest name hname)
  · cases rest' with
    | nil => exact List.mem_append_right front (h' [] dir rest hrest.symm name hname)
    | cons x rest' =>
      obtain ⟨rfl, -⟩ := List.cons.inj hrest
      exact h front dir rest' rfl name hname

theorem eq_of_below {name id : List Char} {p : Location} (hname : root ++ [name] <+: p) (hid : root ++ [id] <+: p) :
    root ++ [name] = root ++ [id] := by
  have hlength : (root ++ [name]).length = (root ++ [id]).length := by simp
  exact (List.prefix_of_prefix_length_le hname hid hlength.le).eq_of_length hlength

theorem led_skillDirs {newId : String} {files : List PendingFileWrite} (hplain : Plain newId.toList)
    (hfiles : ∀ file ∈ files, getSkillStoragePath host.storageRoot newId <+: file.path) :
    Led host.storageRoot (skillDirs host newId files) := by
  rw [getSkillStoragePath_plain hplain] at hfiles
  intro front dir rest heq name hname
  rw [skillDirs, getSkillStoragePath_plain hplain] at heq
  cases front with
  | nil =>
    obtain ⟨rfl, -⟩ := List.cons.inj heq
    rw [eq_of_below hname List.prefix_rfl]
    exact List.mem_singleton_self _
  | cons first front =>
    obtain ⟨rfl, hmap⟩ := List.cons.inj heq
    have hmem : dir ∈ files.map fun file => file.path.dropLast := by simp [hmap]
    obtain ⟨file, hfile, rfl⟩ := List.mem_map.mp hmem
    rw [eq_of_below (hname.trans (List.dropLast_prefix _)) (hfiles file hfile)]
    exact List.mem_cons_self

structure Prepared (host : Host) (zip : List ZipEntry) (w : World) (refs : List String) (acc : Skills) : Prop where
  led : Led host.storageRoot acc.pendingDirs
  files : ∀ file ∈ acc.pendingFileWrites, ∀ name, host.storageRoot ++ [name] <+: file.path →
    host.storageRoot ++ [name] ∈ acc.pendingDirs
  none : (∀ ref ∈ refs, ¬ CreatesSkill host zip w.tables ref) → acc.pendingDirs = []
  created : ∀ ref ∈ refs, CreatesSkill host zip w.tables ref →
    ∃ n, host.storageRoot ++ [(host.importer.createId n).toList] ∈ acc.pendingDirs

theorem prepared_nil : Prepared host zip w [] {} where
  led := by
    intro front dir rest heq
    cases front <;> cases heq
  files := nofun
  none := fun _ => rfl
  created := nofun

theorem Prepared.add {refs : List String} {ref : String} {acc acc' : Skills}
    (hplain : ∀ n, Plain (host.importer.createId n).toList) (h : Prepared host zip w refs acc)
    (hadds : Adds host zip w ref acc acc') : Prepared host zip w (refs ++ [ref]) acc' := by
  rcases hadds with ⟨hnot, hdirs, hwrites⟩ | ⟨hcreates, n, files, hdirs, hwrites, hbelow⟩
  · refine ⟨hdirs ▸ h.led, ?_, fun hnone => ?_, fun ref' href' hcreates => ?_⟩
    · rw [hdirs, hwrites]
      exact h.files
    · rw [hdirs]
      exact h.none fun ref' href' => hnone ref' (List.mem_append_left _ href')
    · rw [hdirs]
      rcases List.mem_append.mp href' with href' | href'
      · exact h.created ref' href' hcreates
      · exact absurd (List.mem_singleton.mp href' ▸ hcreates) hnot
  · have hpath := @getSkillStoragePath_plain host.storageRoot _ (hplain n)
    have hmem : host.storageRoot ++ [(host.importer.createId n).toList] ∈ acc'.pendingDirs := by
      rw [hdirs, skillDirs, hpath]
      exact List.mem_append_right _ List.mem_cons_self
    refine ⟨?_, ?_, fun hnone => ?_, fun _ _ _ => ⟨n, hmem⟩⟩
    · rw [hdirs]
      exact h.led.append (led_skillDirs (hplain n) hbelow)
    · intro file hfile name hname
      rw [hwrites] at hfile
      rcases List.mem_append.mp hfile with hfile | hfile
      · rw [hdirs]
        exact List.mem_append_left _ (h.files file hfile name hname)
      · have hfile' := hbelow file hfile
        rw [hpath] at hfile'
        rw [eq_of_below hname hfile']
        exact hmem
    · exact absurd hcreates (hnone ref (by simp))

end Order

section Disk

variable {host : Host} {faults : Faults} {root : Location} {t : Files} {written : Written}

def Tracked (root : Location) (t : Files) (written : Written) : Prop :=
  ∀ name, existsSync written.tree (root ++ [name]) = true →
    existsSync t (root ++ [name]) = true ∨ root ++ [name] ∈ written.createdDirs

structure Created (root : Location) (t : Files) (dirs : List Location) (written : Written) : Prop where
  tracked : Tracked root t written
  present : ∀ dir ∈ dirs, existsSync written.tree dir = true
  known : ∀ dir ∈ written.createdDirs, dir ∈ dirs

theorem Tracked.grows {tree : Files} {p : Location} (h : Tracked root t written) (hgrows : Grows p written.tree tree)
    (hknown : ∀ name, root ++ [name] <+: p →
      existsSync written.tree (root ++ [name]) = true ∨ root ++ [name] ∈ written.createdDirs) :
    Tracked root t { written with tree := tree } := by
  intro name hname
  rcases hgrows.new _ hname with hold | hbelow
  · exact h name hold
  · rcases hknown name hbelow with hold | hcreated
    · exact h name hold
    · exact .inr hcreated

theorem createDir_leaves {front : List Location} {dir : Location} (h : Created root t front written)
    (hled : ∀ name, root ++ [name] <+: dir → root ++ [name] ∈ front ++ [dir]) :
    Leaves (createDir faults dir) written (fun _ => Created root t (front ++ [dir])) (Tracked root t) := by
  have hlook : Leaves (step fun written => (.ok (!existsSync written.tree dir), written) : Session Written String Bool)
      written (fun missing written' => missing = !existsSync written.tree dir ∧ written = written') (Tracked root t) :=
    ⟨rfl, rfl⟩
  apply hlook.bind
  rintro _ _ ⟨rfl, rfl⟩
  cases hexists : existsSync written.tree dir with
  | true =>
    refine ⟨h.tracked, fun d hd => ?_, fun d hd => List.mem_append_left _ (h.known d hd)⟩
    rcases List.mem_append.mp hd with hd | hd
    · exact h.present d hd
    · exact List.mem_singleton.mp hd ▸ hexists
  | false =>
    have hpush : Leaves (step fun written => (.ok (), { written with createdDirs := written.createdDirs ++ [dir] }) :
        Session Written String Unit) written
        (fun _ written' => { written with createdDirs := written.createdDirs ++ [dir] } = written') (Tracked root t) :=
      rfl
    apply hpush.bind
    rintro _ _ rfl
    have htracked : Tracked root t { written with createdDirs := written.createdDirs ++ [dir] } :=
      fun name hname => (h.tracked name hname).imp_right fun hmem => List.mem_append_left _ hmem
    have hknown : ∀ name, root ++ [name] <+: dir → existsSync written.tree (root ++ [name]) = true ∨
        root ++ [name] ∈ written.createdDirs ++ [dir] := by
      intro name hname
      rcases List.mem_append.mp (hled name hname) with hmem | hmem
      · exact .inl (h.present _ hmem)
      · exact .inr (List.mem_append_right _ hmem)
    apply leaves_focus mkdirSync_leaves
    · rintro _ tree ⟨hgrows, hdir⟩
      refine ⟨htracked.grows hgrows hknown, fun d hd => ?_, fun d hd => ?_⟩
      · rcases List.mem_append.mp hd with hd | hd
        · exact hgrows.kept d (h.present d hd)
        · exact List.mem_singleton.mp hd ▸ hdir
      · rcases List.mem_append.mp hd with hd | hd
        · exact List.mem_append_left _ (h.known d hd)
        · exact List.mem_append_right _ hd
    · exact fun tree hgrows => htracked.grows hgrows hknown

theorem writeFiles_leaves {dirs : List Location} {files : List PendingFileWrite} (hled : Led root dirs)
    (hfiles : ∀ file ∈ files, ∀ name, root ++ [name] <+: file.path → root ++ [name] ∈ dirs) :
    Leaves (writeFiles faults dirs files) { tree := t } (fun _ => Created root t dirs) (Tracked root t) := by
  have hinit : Created root t [] { tree := t } := ⟨fun _ hname => .inl hname, nofun, nofun⟩
  have hdirs : Leaves (dirs.forM (createDir faults)) { tree := t } (fun _ => Created root t dirs) (Tracked root t) :=
    @leaves_forM _ _ _ (Tracked root t) _ dirs (createDir faults) (Created root t) hinit
      fun front dir rest heq written h => createDir_leaves h (hled front dir rest heq)
  apply hdirs.bind
  intro _ written h
  refine @leaves_forM _ _ written (Tracked root t) _ files
    (fun file => onTree (writeFileSync faults.disk file.path file.data)) (fun _ => Created root t dirs) h ?_
  intro front file rest heq written h
  have hknown : ∀ name, root ++ [name] <+: file.path → existsSync written.tree (root ++ [name]) = true ∨
      root ++ [name] ∈ written.createdDirs :=
    fun name hname => .inl (h.present _ (hfiles file (heq ▸ by simp) name hname))
  apply leaves_focus (writeFileSync_leaves file.data)
  · intro _ tree hgrows
    exact ⟨h.tracked.grows hgrows hknown, fun d hd => hgrows.kept d (h.present d hd), h.known⟩
  · exact fun tree hgrows => h.tracked.grows hgrows hknown

theorem existsSync_cleanUp (hremove : ∀ p, faults.disk.remove p = false) {p : Location}
    (h : existsSync (cleanUp faults written) p = true) :
    existsSync written.tree p = true ∧ p ∉ written.createdDirs := by
  obtain ⟨dirs, tree⟩ := written
  rw [cleanUp] at h
  dsimp only at h ⊢
  induction dirs generalizing tree with
  | nil => exact ⟨h, List.not_mem_nil⟩
  | cons dir dirs ih =>
    obtain ⟨hexists, hrest⟩ := ih _ h
    obtain ⟨hexists, hdir⟩ := (existsSync_rmSync (hremove dir)).mp hexists
    refine ⟨hexists, fun hmem => ?_⟩
    rcases List.mem_cons.mp hmem with rfl | hmem
    · exact hdir List.prefix_rfl
    · exact hrest hmem

end Disk

section Whole

variable {host : Host} {faults : Faults} {zip : List ZipEntry} {agent : ExportedAgent} {w : World} {c : Connection}

theorem writeSkillFiles_leaves {dirs : List Location} {files : List PendingFileWrite}
    (hremove : ∀ p, faults.disk.remove p = false) (hled : Led host.storageRoot dirs)
    (hfiles : ∀ file ∈ files, ∀ name, host.storageRoot ++ [name] <+: file.path → host.storageRoot ++ [name] ∈ dirs)
    (h : Open w c) :
    Leaves (writeSkillFiles faults dirs files) c
      (fun _ c' => ∃ written, Created host.storageRoot w.tree dirs written ∧ c' = { c with tree := written.tree })
      (Undone host w) := by
  have hwrite := @writeFiles_leaves faults host.storageRoot w.tree dirs files hled hfiles
  rw [← h.tree] at hwrite
  apply leaves_step
  · intro _ c' hstep
    split at hstep
    · rename_i written hrun
      obtain ⟨-, rfl⟩ := Prod.mk.inj hstep
      exact ⟨written, h.tree ▸ hwrite.of_ok hrun, rfl⟩
    · cases hstep
  · intro e c' hstep
    split at hstep
    · cases hstep
    · rename_i e' written hrun
      obtain ⟨-, rfl⟩ := Prod.mk.inj hstep
      have htracked := hwrite.of_error hrun
      rw [h.tree] at htracked
      refine ⟨by rw [Connection.rollback, h.saved], fun name hname => ?_⟩
      obtain ⟨hexists, hunknown⟩ := existsSync_cleanUp hremove hname
      exact (htracked name hexists).resolve_right hunknown

theorem importSkills_leaves (hplain : ∀ n, Plain (host.importer.createId n).toList) (h : Inside w c) :
    Leaves (importSkills host faults zip agent) c
      (fun acc c' => Inside w c' ∧ ∃ refs, agent.skillRefs = .ok refs ∧ Prepared host zip w refs acc)
      (Undone host w) := by
  unfold importSkills
  apply (attempt_leaves h).bind
  rintro refs c ⟨h, hrefs⟩
  have hloop := @leaves_foldlM _ _ _ c (Undone host w) {} _ refs (importSkill host faults zip)
    (fun front acc c' => Inside w c' ∧ Prepared host zip w front acc) ⟨h, prepared_nil⟩
    fun front ref rest _ acc c hI => (importSkill_leaves acc ref hI.1).mono
      (fun acc' c' hadds => ⟨hadds.1, hI.2.add hplain hadds.2⟩) fun _ hundone => hundone
  exact hloop.mono (fun acc c' hI => ⟨hI.1, refs, hrefs, hI.2⟩) fun _ hundone => hundone

theorem acquireScmPathMutationLock_leaves (h : Inside w c) :
    Leaves (acquireScmPathMutationLock host faults agent) c (fun _ => Inside w) (Undone host w) := by
  unfold acquireScmPathMutationLock
  split
  · exact select_inside _ h
  · exact h

theorem resolveProvider_leaves (h : Inside w c) :
    Leaves (resolveProvider faults agent) c (fun _ => Inside w) (Undone host w) := by
  unfold resolveProvider
  split
  · exact h
  · exact select_inside _ h

theorem resolveScmSource_leaves (h : Inside w c) :
    Leaves (resolveScmSource host faults agent) c (fun _ => Inside w) (Undone host w) := by
  unfold resolveScmSource
  split
  · exact h
  · exact select_inside _ h

theorem resolveKbDocuments_leaves (h : Inside w c) :
    Leaves (resolveKbDocuments host faults agent) c (fun _ => Inside w) (Undone host w) := by
  unfold resolveKbDocuments
  apply (attempt_leaves h).bind
  rintro refs c ⟨h, -⟩
  refine @leaves_foldlM _ _ _ c (Undone host w) [] _ refs _ (fun _ _ => Inside w) h ?_
  intro front name rest _ ids c h
  apply (select_leaves _ h).bind
  rintro doc c ⟨h, -⟩
  exact h

theorem repairMemory_leaves (skills : Skills) (h : Inside w c) :
    Leaves (repairMemory faults agent skills) c (fun _ => Inside w) (Undone host w) := by
  unfold repairMemory
  split
  · apply (select_leaves _ h).bind
    rintro target c ⟨h, -⟩
    exact h
  · exact h

structure Finished (host : Host) (zip : List ZipEntry) (w : World) (refs : List String) (c : Connection) : Prop where
  saved : c.saved = some w.tables
  rows : c.tables ≠ w.tables
  none : (∀ ref ∈ refs, ¬ CreatesSkill host zip w.tables ref) → ∀ name,
    existsSync c.tree (host.storageRoot ++ [name]) = true → existsSync w.tree (host.storageRoot ++ [name]) = true
  created : ∀ ref ∈ refs, CreatesSkill host zip w.tables ref →
    ∃ n, existsSync c.tree (host.storageRoot ++ [(host.importer.createId n).toList]) = true

theorem finished_of_created {refs : List String} {skills : Skills} {written : Written}
    (hprepared : Prepared host zip w refs skills) (hopen : Open w c) (hrows : c.tables ≠ w.tables)
    (hcreated : Created host.storageRoot w.tree skills.pendingDirs written) :
    Finished host zip w refs { c with tree := written.tree } where
  saved := hopen.saved
  rows := hrows
  none := by
    intro hnone name hname
    refine (hcreated.tracked name hname).resolve_right fun hmem => ?_
    have hdir := hcreated.known _ hmem
    rw [hprepared.none hnone] at hdir
    cases hdir
  created := by
    intro ref href hcreates
    obtain ⟨n, hn⟩ := hprepared.created ref href hcreates
    exact ⟨n, hcreated.present _ hn⟩

theorem importAgent_leaves (hplain : ∀ n, Plain (host.importer.createId n).toList)
    (hremove : ∀ p, faults.disk.remove p = false) (h : Inside w c) :
    Leaves (importAgent host faults zip agent) c
      (fun _ c' => ∃ refs, agent.skillRefs = .ok refs ∧ Finished host zip w refs c') (Undone host w) := by
  unfold importAgent
  apply (acquireScmPathMutationLock_leaves h).bind
  intro _ c h
  apply (importMcpServers_leaves h).bind
  intro mcps c h
  apply (importSkills_leaves hplain h).bind
  rintro skills c ⟨h, refs, hrefs, hprepared⟩
  apply (resolveProvider_leaves h).bind
  intro providerId c h
  apply (resolveScmSource_leaves h).bind
  intro scmSourceId c h
  apply (resolveKbDocuments_leaves h).bind
  intro kbDocumentIds c h
  apply (createId_leaves h).bind
  rintro agentId c ⟨h, -⟩
  apply (select_leaves _ h).bind
  rintro existing c ⟨h, -⟩
  apply (repairMemory_leaves skills h).bind
  intro memory c h
  apply (attempt_leaves h).bind
  rintro _ c ⟨h, -⟩
  apply (insertAgent_leaves _ h).bind
  rintro _ c ⟨hopen, hrows⟩
  apply (writeSkillFiles_leaves hremove hprepared.led hprepared.files hopen).bind
  rintro _ c' ⟨written, hcreated, rfl⟩
  exact ⟨refs, hrefs, finished_of_created hprepared hopen hrows hcreated⟩

variable {fault : CommitFault}

theorem failedCommit_tree {isPostgres : Bool} : (c.failedCommit isPostgres fault).tree = c.tree := by
  cases fault with
  | rolledBack => exact rollback_tree c
  | stillOpen =>
    cases isPostgres with
    | false => rfl
    | true => exact rollback_tree c
  | applied => rfl

theorem failedCommit_rows {refs : List String} (h : Finished host zip w refs c) :
    (c.failedCommit host.isPostgres fault).tables = w.tables ↔ RollsBack host fault := by
  have hrollback : c.rollback.tables = w.tables := by rw [Connection.rollback, h.saved]
  cases fault with
  | rolledBack => exact ⟨fun _ => .inl rfl, fun _ => hrollback⟩
  | stillOpen =>
    cases hpostgres : host.isPostgres with
    | true => exact ⟨fun _ => .inr ⟨rfl, hpostgres⟩, fun _ => hrollback⟩
    | false => exact ⟨fun hrows => absurd hrows h.rows, by rintro (⟨⟨⟩⟩ | ⟨-, htrue⟩); simp [hpostgres] at htrue⟩
  | applied => exact ⟨fun hrows => absurd hrows h.rows, by rintro (⟨⟨⟩⟩ | ⟨⟨⟩, -⟩)⟩

theorem inside_opened (w : World) : Inside w w.opened := ⟨⟨rfl, rfl⟩, rfl, fun _ => rfl⟩

theorem import_of_reaches {zipBuffer : Bytes} {result : ImportResult}
    (hcommit : faults.commit = some fault) (hread : readArchive host zipBuffer = .ok (zip, agent))
    (hbegin : faults.beginFails = false) (hrun : run (importAgent host faults zip agent) w.opened = (.ok result, c)) :
    importAgentFromZip host faults zipBuffer w = (.error "COMMIT failed", c.failedCommit host.isPostgres fault) := by
  rw [importAgentFromZip, hread]
  dsimp only
  rw [withTransaction, if_neg (by simp [hbegin]), hrun]
  dsimp only
  rw [hcommit]

theorem import_error_cases {zipBuffer : Bytes} {e : String}
    (h : importAgentFromZip host faults zipBuffer w = (.error e, c)) :
    c = { toWorld := w } ∨
      (∃ zip agent e' c', run (importAgent host faults zip agent) w.opened = (.error e', c') ∧ c = c'.rollback) ∨
      ∃ fault zip agent result c', faults.commit = some fault ∧ ReachesCommit host faults zipBuffer w zip agent ∧
        run (importAgent host faults zip agent) w.opened = (.ok result, c') ∧
        c = c'.failedCommit host.isPostgres fault := by
  unfold importAgentFromZip at h
  cases hread : readArchive host zipBuffer with
  | error message =>
    rw [hread] at h
    exact .inl (Prod.mk.inj h).2.symm
  | ok archive =>
    obtain ⟨zip, agent⟩ := archive
    rw [hread] at h
    dsimp only at h
    unfold withTransaction at h
    cases hbegin : faults.beginFails with
    | true =>
      rw [hbegin, if_pos rfl] at h
      exact .inl (Prod.mk.inj h).2.symm
    | false =>
      rw [hbegin, if_neg Bool.false_ne_true] at h
      cases hrun : run (importAgent host faults zip agent) w.opened with
      | mk r c' =>
        rw [hrun] at h
        cases r with
        | error message => exact .inr (.inl ⟨zip, agent, message, c', hrun, (Prod.mk.inj h).2.symm⟩)
        | ok result =>
          dsimp only at h
          cases hcommit : faults.commit with
          | none =>
            rw [hcommit] at h
            cases (Prod.mk.inj h).1
          | some fault =>
            rw [hcommit] at h
            have hreaches : ReachesCommit host faults zipBuffer w zip agent := ⟨hread, hbegin, result, by rw [hrun]⟩
            exact .inr (.inr ⟨fault, zip, agent, result, c', rfl, hreaches, hrun, (Prod.mk.inj h).2.symm⟩)

/-- An import that fails leaves nothing, unless it is its COMMIT that fails: then the database has to roll back, and
the archive must have no skill that is created. -/
theorem failed_import_leaves_nothing_iff {zipBuffer : Bytes} (hids : FreshIds host w)
    (hremove : ∀ p, faults.disk.remove p = false) :
    (∀ e c, importAgentFromZip host faults zipBuffer w = (.error e, c) → NothingLeft host w c) ↔
      ∀ fault zip agent refs, faults.commit = some fault → ReachesCommit host faults zipBuffer w zip agent →
        agent.skillRefs = .ok refs → RollsBack host fault ∧ ∀ ref ∈ refs, ¬ CreatesSkill host zip w.tables ref := by
  constructor
  · rintro h fault zip agent refs hcommit ⟨hread, hbegin, result, hbody⟩ hrefs
    obtain ⟨c, hrun⟩ : ∃ c, run (importAgent host faults zip agent) w.opened = (.ok result, c) :=
      ⟨_, Prod.ext hbody rfl⟩
    have hleft := h _ _ (import_of_reaches hcommit hread hbegin hrun)
    obtain ⟨refs', hrefs', hfinished⟩ :=
      (importAgent_leaves hids.plain hremove (inside_opened w)).of_ok hrun
    rw [hrefs, Except.ok.injEq] at hrefs'
    subst hrefs'
    refine ⟨(failedCommit_rows hfinished).mp hleft.rows, fun ref href hcreates => ?_⟩
    obtain ⟨n, hn⟩ := hfinished.created ref href hcreates
    have hbefore := hleft.directories _ (failedCommit_tree ▸ hn)
    rw [hids.free n] at hbefore
    cases hbefore
  · intro h e c himport
    obtain rfl | ⟨zip, agent, e', c', hrun, rfl⟩ | ⟨fault, zip, agent, result, c', hcommit, hreaches, hrun, rfl⟩ :=
      import_error_cases himport
    · exact ⟨rfl, fun _ hname => hname⟩
    · have hundone := (importAgent_leaves hids.plain hremove (inside_opened w)).of_error hrun
      exact hundone.nothingLeft
    · obtain ⟨refs, hrefs, hfinished⟩ := (importAgent_leaves hids.plain hremove (inside_opened w)).of_ok hrun
      obtain ⟨hrolls, hnone⟩ := h fault zip agent refs hcommit hreaches hrefs
      refine ⟨(failedCommit_rows hfinished).mpr hrolls, fun name hname => ?_⟩
      rw [failedCommit_tree] at hname
      exact hfinished.none hnone name hname

end Whole

section Examples

def ascii (text : String) : Bytes := text.toList.map fun c => UInt8.ofNat c.toNat

def littleEndianBytes (width n : Nat) : Bytes := (List.range width).map fun i => UInt8.ofNat (n / 256 ^ i)

structure StoredFile where
  name : String
  text : String
  crc : Nat

namespace StoredFile

variable (file : StoredFile)

def header : Bytes :=
  [20, 0, 0, 0, 0, 0, 0, 0, 33, 0] ++ littleEndianBytes 4 file.crc ++ littleEndianBytes 4 (ascii file.text).length ++
    littleEndianBytes 4 (ascii file.text).length ++ littleEndianBytes 2 (ascii file.name).length

def localRecord : Bytes :=
  littleEndianBytes 4 0x04034b50 ++ file.header ++ littleEndianBytes 2 0 ++ ascii file.name ++ ascii file.text

def centralRecord (offset : Nat) : Bytes :=
  littleEndianBytes 4 ENTRY_SIGNATURE ++ [20, 0] ++ file.header ++ littleEndianBytes 12 0 ++
    littleEndianBytes 4 offset ++ ascii file.name

def entry : ZipEntry :=
  { entryName := file.name, attr := some 0, size := some (ascii file.text).length
    compressedSize := some (ascii file.text).length
    data := ascii file.text }

end StoredFile

def storedZip (files : List StoredFile) : Bytes :=
  let records := files.flatMap StoredFile.localRecord
  let centrals := files.foldl
    (fun acc file => (acc.1 + file.localRecord.length, acc.2 ++ file.centralRecord acc.1)) (0, [])
  records ++ centrals.2 ++ littleEndianBytes 4 EOCD_SIGNATURE ++ littleEndianBytes 4 0 ++
    littleEndianBytes 2 files.length ++ littleEndianBytes 2 files.length ++ littleEndianBytes 4 centrals.2.length ++
    littleEndianBytes 4 records.length ++ littleEndianBytes 2 0

def manifestFile : StoredFile := ⟨"manifest.json", "\x7b\"version\":\"1.0\"\x7d", 0x3edb716d⟩

def agentFile : StoredFile where
  name := "agent.json"
  text := "\x7b\"name\":\"memo keeper\",\"type\":\"llm\",\"mcpServerRefs\":[],\"skillRefs\":[\"memo\"]," ++
    "\"kbDocumentRefs\":[]\x7d"
  crc := 0x89cd723c

def skillFile : StoredFile :=
  ⟨"skills/memo/skill.json", "\x7b\"name\":\"memo\",\"description\":null\x7d", 0xc8cb14ad⟩

def memoFiles : List StoredFile := [manifestFile, agentFile, skillFile]

def memoId (n : Nat) : String := if n = 0 then "skl_AAAAAAAAAAAAAAAA" else "agt_AAAAAAAAAAAAAAAA"

def memoHost : Host where
  importer :=
    { userId := "usr_AAAAAAAAAAAAAAAA", isAdmin := false, assertSafeStrictUrl := fun _ => true
      providerChainSchema := fun _ => .ok ()
      createId := memoId }
  storageRoot := ["data".toList, "skills".toList]
  toLowerCase := fun text => String.ofList (text.toList.map Char.toLower)
  utf8 := fun bytes => String.ofList (bytes.map fun b => Char.ofNat b.toNat)
  readZip := fun buffer =>
    if buffer = storedZip memoFiles then .ok (memoFiles.map StoredFile.entry)
    else .error "ADM-ZIP: Invalid or unsupported zip format"
  getData := fun entry => .ok entry.data
  parseManifest := fun data => if data = ascii manifestFile.text then .ok "1.0" else .error "Unexpected token"
  parseAgent := fun data =>
    if data = ascii agentFile.text then .ok { name := "memo keeper", skillRefs := .ok ["memo"] }
    else .error "Unexpected token"
  parseMcp := fun _ => .error "Unexpected token"
  parseSkill := fun data => if data = ascii skillFile.text then .ok { name := "memo" } else .error "Unexpected token"
  chatAppConfigSchema := fun _ => .ok ()
  computeExportedSkillPackageDigest := fun _ _ _ => "sha256:"
  readAllSkillFiles := fun _ => .ok []

def emptyTree : Files := fun p => if p <+: ["data".toList, "skills".toList] then some .directory else none

def emptyWorld : World where
  tree := emptyTree

def memoImport (faults : Faults) : Except String ImportResult × Connection :=
  importAgentFromZip memoHost faults (storedZip memoFiles) emptyWorld

def rejection (outcome : Except String ImportResult × Connection) : Option String :=
  match outcome.1 with
  | .error e => some e
  | .ok _ => none

theorem eq_of_rejection {outcome : Except String ImportResult × Connection} {e : String}
    (h : rejection outcome = some e) : outcome = (.error e, outcome.2) := by
  obtain ⟨r, c⟩ := outcome
  cases r with
  | ok result => cases h
  | error e' =>
    obtain rfl := Option.some.inj h
    rfl

theorem emptyWorld_free (name : List Char) : existsSync emptyWorld.tree (memoHost.storageRoot ++ [name]) = false := by
  have hnot : ¬ memoHost.storageRoot ++ [name] <+: ["data".toList, "skills".toList] := by
    intro hpre
    have hlength : 3 ≤ 2 := hpre.length_le
    omega
  show existsSync emptyTree _ = false
  rw [existsSync, emptyTree, if_neg hnot]
  rfl

theorem failed_import_keeps_directory : ¬ ∀ faults zipBuffer, (∀ p, faults.disk.remove p = false) → ∀ e c,
      importAgentFromZip memoHost faults zipBuffer emptyWorld = (.error e, c) → NothingLeft memoHost emptyWorld c := by
  intro h
  obtain ⟨name, hrejects, hkept⟩ : ∃ name,
      rejection (memoImport { commit := some .rolledBack }) = some "COMMIT failed" ∧
      existsSync (memoImport { commit := some .rolledBack }).2.tree (memoHost.storageRoot ++ [name]) = true :=
    ⟨"skl_AAAAAAAAAAAAAAAA".toList, by decide +kernel⟩
  generalize himport : memoImport { commit := some .rolledBack } = outcome at hrejects hkept
  have hleft := h { commit := some .rolledBack } (storedZip memoFiles) (fun _ => rfl) _ _
    (himport.trans (eq_of_rejection hrejects))
  have hbefore := hleft.directories name hkept
  rw [emptyWorld_free name] at hbefore
  cases hbefore

theorem memoId_fresh : FreshIds memoHost emptyWorld where
  plain := by
    intro n
    show Plain (memoId n).toList
    unfold memoId
    split <;> decide
  free := fun n => emptyWorld_free _

theorem failed_import_leaves_nothing_full_disk : ∃ e c,
    memoImport { disk := { create := fun _ => true } } = (.error e, c) ∧ NothingLeft memoHost emptyWorld c := by
  have hrejects : rejection (memoImport { disk := { create := fun _ => true } }) = some "ENOSPC" := by decide +kernel
  have himport := eq_of_rejection hrejects
  refine ⟨_, _, himport, (failed_import_leaves_nothing_iff memoId_fresh fun _ => rfl).mpr ?_ _ _ himport⟩
  intro fault _ _ _ hcommit
  cases hcommit

end Examples

end A2Wave.AgentImport
