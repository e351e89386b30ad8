import A2Wave.A2a.TaskStore
import A2Wave.Agent.McpServer

/-! What `engine/mcp-sync.ts` computes from the MCP config file of a workspace and the marker beside it. -/

namespace A2Wave.McpSync

open JsonText

inductive McpConfigDialect
  | default
  | kimi
  deriving DecidableEq

structure ResolvedMcpServer where
  name : String
  type : McpType
  command : Option String := none
  args : Option (List String) := none
  cwd : Option String := none
  url : Option String := none
  headers : Option (List (String × String)) := none
  env : Option (List (String × String)) := none

/-- Assigning to `__proto__` replaces the prototype of an object and makes no entry. -/
def assign (fs : Fields) (k : String) (v : Json) : Fields :=
  if k = "__proto__" then fs else fs.set k v

def given (s : Option String) : Option String := s.filter (· ≠ "")

def textRecord (r : List (String × String)) : Json :=
  .obj (.ofList (r.map fun p => (p.1, .str p.2)))

def spread (k : String) (v : Option Json) : List (String × Json) := (v.map (k, ·)).toList

def serverConfig (dialect : McpConfigDialect) (server : ResolvedMcpServer) : Option Json :=
  match server.type with
  | .stdio => (given server.command).map fun command => .obj (.ofList
      ([("command", .str command), ("args", .arr (.ofList ((server.args.getD []).map .str)))] ++
        spread "cwd" ((given (server.cwd.map TaskStore.trim)).map .str) ++
        spread "env" (server.env.map textRecord)))
  | .sse => (given server.url).map fun url => .obj (.ofList
      ((if dialect = .kimi then [("transport", .str "sse")] else []) ++ [("url", .str url)] ++
        spread "headers" (server.headers.map textRecord)))
  | .http => (given server.url).map fun url => .obj (.ofList
      ((if dialect = .kimi then [("transport", .str "http")] else [("type", .str "http")]) ++
        [("url", .str url)] ++ spread "headers" (server.headers.map textRecord)))
  | .group => none

def buildManagedMcpServers (servers : List ResolvedMcpServer) (dialect : McpConfigDialect) : Fields :=
  servers.foldl
    (fun mcpServers server =>
      match serverConfig dialect server with
      | some config => assign mcpServers server.name config
      | none => mcpServers)
    .nil

inductive JsonFile
  | absent
  | unreadable
  | holds (json : Json)
  deriving DecidableEq

structure JsonFileRead where
  fileExists : Bool
  record : Fields
  deriving DecidableEq

def readJsonRecord : JsonFile → JsonFileRead
  | .absent => ⟨false, .nil⟩
  | .holds (.obj record) => ⟨true, record⟩
  | _ => ⟨true, .nil⟩

structure ManagedMcpMarker where
  managedServers : Fields
  createdByPlatform : Bool
  ownerInstanceId : Option String
  deriving DecidableEq

def ManagedMcpMarker.toJson (marker : ManagedMcpMarker) : Json :=
  .obj (.ofList
    ([("managedServers", .obj marker.managedServers), ("createdByPlatform", .bool marker.createdByPlatform)] ++
      spread "ownerInstanceId" (marker.ownerInstanceId.map .str)))

/-- The entries of `managedServers` that a marker keeps when it is read. -/
def fingerprints : Fields → Fields
  | .nil => .nil
  | .cons name (.str fingerprint) rest =>
    if name = "__proto__" then fingerprints rest else .cons name (.str fingerprint) (fingerprints rest)
  | .cons _ _ rest => fingerprints rest

def readManagedMarker (file : JsonFile) : Option ManagedMcpMarker :=
  let { fileExists, record } := readJsonRecord file
  if fileExists then
    let createdByPlatform := record.get? "createdByPlatform" = some (.bool true)
    let ownerInstanceId := (record.get? "ownerInstanceId").bind Json.asStr?
    match record.get? "managedServers" with
    | some (.obj managedServers) => some ⟨fingerprints managedServers, createdByPlatform, ownerInstanceId⟩
    | _ => some ⟨.nil, createdByPlatform, ownerInstanceId⟩
  else none

def ownsManagedMarker (processInstanceId : String) (marker : ManagedMcpMarker) : Bool :=
  marker.ownerInstanceId = none || marker.ownerInstanceId = some processInstanceId

def objectPrototypeNames : List String :=
  ["constructor", "__defineGetter__", "__defineSetter__", "hasOwnProperty", "__lookupGetter__",
    "__lookupSetter__", "isPrototypeOf", "propertyIsEnumerable", "toString", "valueOf", "__proto__",
    "toLocaleString"]

/-- `name in fs`. -/
def isIn (name : String) (fs : Fields) : Bool :=
  (fs.get? name).isSome || objectPrototypeNames.contains name

def candidate (baseName : String) : Nat → String
  | 0 => baseName
  | 1 => baseName ++ "--a2w"
  | i => baseName ++ "--a2w-" ++ toString i

/-- `now` is `Date.now()`. -/
def resolveNonConflictingMcpName (now : Nat) (baseName : String) (existingServers : Fields) : String :=
  match (List.range 1000).find? fun i => !isIn (candidate baseName i) existingServers with
  | some i => candidate baseName i
  | none => baseName ++ "--a2w-" ++ toString now

/-- `mcpServers` of a config, when it is a record. -/
def serversOf (config : Fields) : Fields :=
  match config.get? "mcpServers" with
  | some (.obj servers) => servers
  | _ => .nil

def JsonFile.servers (file : JsonFile) : Fields := serversOf (readJsonRecord file).record

section Fingerprint

variable (number : ℚ → String)

def fingerprint (config : Json) : String := String.ofList (stableStringify number config)

def removeManaged : Fields → Fields → Fields
  | .nil, servers => servers
  | .cons name (.str text) rest, servers =>
    removeManaged rest
      (if (servers.get? name).map (fingerprint number) = some text then servers.erase name else servers)
  | .cons _ _ rest, servers => removeManaged rest servers

/-- The loop over the entries that a sync writes; `entries` are these under their resolved names. -/
structure Injection where
  existingServers : Fields
  managedServers : Fields
  entries : Fields
  deriving DecidableEq

def inject (now : Nat) : Fields → Injection → Injection
  | .nil, acc => acc
  | .cons requestedName config rest, acc =>
    let resolvedName := resolveNonConflictingMcpName now requestedName acc.existingServers
    inject now rest
      ⟨assign acc.existingServers resolvedName config,
        assign acc.managedServers resolvedName (.str (fingerprint number config)),
        assign acc.entries resolvedName config⟩

structure Plan where
  nextConfig : Fields
  nextManagedMarker : ManagedMcpMarker
  entries : Fields
  deriving DecidableEq

/-- `writeMcpConfig` between its reads and its writes. -/
def planSync (now : Nat) (processInstanceId : String) (managedServers : Fields) (read : JsonFileRead)
    (previousMarker : Option ManagedMcpMarker) : Plan :=
  let managed := (previousMarker.map (·.managedServers)).getD .nil
  let injection :=
    inject number now managedServers ⟨removeManaged number managed (serversOf read.record), .nil, .nil⟩
  { nextConfig := read.record.set "mcpServers" (.obj injection.existingServers)
    nextManagedMarker :=
      { managedServers := injection.managedServers
        createdByPlatform := !read.fileExists || (previousMarker.map (·.createdByPlatform)).getD false
        ownerInstanceId := some processInstanceId }
    entries := injection.entries }

def restored (read : JsonFileRead) : JsonFile :=
  if read.fileExists then .holds (.obj read.record) else .absent

def hasOnlyMcpServers : Fields → Bool
  | .nil => true
  | .cons key _ rest => key = "mcpServers" && hasOnlyMcpServers rest

/-- What `releaseMcpConfig` leaves of a config; `none` removes the file. -/
def strip (marker : ManagedMcpMarker) (config : Fields) : Option Fields :=
  let servers := removeManaged number marker.managedServers (serversOf config)
  if marker.createdByPlatform && servers = .nil && hasOnlyMcpServers config then none
  else some (config.set "mcpServers" (.obj servers))

end Fingerprint

section Files

theorem serversOf_set (config servers : Fields) : serversOf (config.set "mcpServers" (.obj servers)) = servers := by
  simp [serversOf, Fields.get?_set]

theorem servers_holds (config : Fields) : (JsonFile.holds (.obj config)).servers = serversOf config := rfl

@[simp] theorem servers_absent : JsonFile.absent.servers = .nil := rfl

theorem servers_restored (file : JsonFile) : (restored (readJsonRecord file)).servers = file.servers := by
  cases file with
  | absent => rfl
  | unreadable => rfl
  | holds json => cases json <;> rfl

/-- Entries as `assign` makes them in the `managedServers` of a marker. -/
def Fingerprinted : Fields → Prop
  | .nil => True
  | .cons name text rest => name ≠ "__proto__" ∧ (∃ s, text = .str s) ∧ Fingerprinted rest

theorem Fingerprinted.set {fs : Fields} {name text : String} (h : Fingerprinted fs) (hname : name ≠ "__proto__") :
    Fingerprinted (fs.set name (.str text)) := by
  fun_induction Fields.set fs name (.str text) with
  | case1 => exact ⟨hname, ⟨text, rfl⟩, trivial⟩
  | case2 v rest => exact ⟨hname, ⟨text, rfl⟩, h.2.2⟩
  | case3 k v rest _ ih => exact ⟨h.1, h.2.1, ih h.2.2⟩

theorem Fingerprinted.assign {fs : Fields} (h : Fingerprinted fs) (name text : String) :
    Fingerprinted (assign fs name (.str text)) := by
  unfold McpSync.assign
  split
  · exact h
  · rename_i hname
    exact h.set hname

theorem fingerprints_eq {fs : Fields} (h : Fingerprinted fs) : fingerprints fs = fs := by
  fun_induction fingerprints fs with
  | case1 => rfl
  | case2 text rest ih => exact absurd rfl h.1
  | case3 name text rest _ ih => rw [ih h.2.2]
  | case4 name v rest hv ih =>
    obtain ⟨text, htext⟩ := h.2.1
    exact absurd htext (hv text)

theorem readManagedMarker_toJson {marker : ManagedMcpMarker} (h : Fingerprinted marker.managedServers) :
    readManagedMarker (.holds marker.toJson) = some marker := by
  obtain ⟨managedServers, createdByPlatform, ownerInstanceId⟩ := marker
  have hread := fingerprints_eq h
  cases ownerInstanceId with
  | none => cases createdByPlatform <;>
      simp [readManagedMarker, readJsonRecord, ManagedMcpMarker.toJson, spread, Fields.ofList, Fields.get?, hread]
  | some ownerInstanceId => cases createdByPlatform <;>
      simp [readManagedMarker, readJsonRecord, ManagedMcpMarker.toJson, spread, Fields.ofList, Fields.get?,
        Json.asStr?, hread]

end Files

section Entries

variable {number : ℚ → String} {managed servers user entries : Fields} {name : String} {config : Json}

theorem get?_assign (fs : Fields) (k l : String) (v : Json) :
    (assign fs k v).get? l = if k = l ∧ k ≠ "__proto__" then some v else fs.get? l := by
  unfold assign
  by_cases hk : k = "__proto__"
  · rw [if_pos hk, if_neg fun h => h.2 hk]
  · rw [if_neg hk, Fields.get?_set]
    simp [hk]

theorem get?_of_removeManaged (h : (removeManaged number managed servers).get? name = some config) :
    servers.get? name = some config := by
  fun_induction removeManaged number managed servers with
  | case1 servers => exact h
  | case2 k text rest servers ih =>
    have hserver := ih h
    split at hserver
    · rw [Fields.get?_erase] at hserver
      split at hserver
      · cases hserver
      · exact hserver
    · exact hserver
  | case3 k v rest servers _ ih => exact ih h

theorem get?_removeManaged_of_none (h : servers.get? name = none) :
    (removeManaged number managed servers).get? name = none := by
  cases hget : (removeManaged number managed servers).get? name with
  | none => rfl
  | some config =>
    rw [get?_of_removeManaged hget] at h
    cases h

theorem removeManaged_erases (hmanaged : managed.get? name = some (.str (fingerprint number config)))
    (hserver : servers.get? name = some config) :
    (removeManaged number managed servers).get? name = none := by
  fun_induction removeManaged number managed servers with
  | case1 servers => cases hmanaged
  | case2 k text rest servers ih =>
    by_cases hk : k = name
    · subst hk
      rw [Fields.get?, if_pos rfl] at hmanaged
      cases hmanaged
      apply get?_removeManaged_of_none
      rw [if_pos (by rw [hserver]; rfl), Fields.get?_erase, if_pos rfl]
    · rw [Fields.get?, if_neg hk] at hmanaged
      apply ih hmanaged
      split
      · rw [Fields.get?_erase, if_neg hk]
        exact hserver
      · exact hserver
  | case3 k v rest servers hv ih =>
    by_cases hk : k = name
    · rw [Fields.get?, if_pos hk] at hmanaged
      cases hmanaged
      exact absurd rfl (hv _)
    · rw [Fields.get?, if_neg hk] at hmanaged
      exact ih hmanaged hserver

/-- `servers` holds `entries`, which the marker describes, and otherwise only entries of the user. -/
structure Carries (number : ℚ → String) (user servers managed entries : Fields) : Prop where
  kept : ∀ name config, entries.get? name = some config → servers.get? name = some config
  marked : ∀ name config, entries.get? name = some config → managed.get? name = some (.str (fingerprint number config))
  rest : ∀ name config, servers.get? name = some config →
    user.get? name = some config ∨ entries.get? name = some config

def Within (servers user : Fields) : Prop :=
  ∀ name config, servers.get? name = some config → user.get? name = some config

theorem Within.removeManaged (h : Within servers user) : Within (removeManaged number managed servers) user :=
  fun name config hget => h name config (get?_of_removeManaged hget)

theorem Carries.removeManaged (h : Carries number user servers managed entries) :
    Within (removeManaged number managed servers) user := by
  intro name config hget
  have hserver := get?_of_removeManaged hget
  rcases h.rest name config hserver with huser | hentry
  · exact huser
  · rw [removeManaged_erases (h.marked name config hentry) hserver] at hget
    cases hget

structure Injected (number : ℚ → String) (user : Fields) (acc : Injection) : Prop where
  carries : Carries number user acc.existingServers acc.managedServers acc.entries
  fingerprinted : Fingerprinted acc.managedServers

theorem Injected.assign {acc : Injection} (h : Injected number user acc) (name : String) (config : Json) :
    Injected number user
      ⟨assign acc.existingServers name config, assign acc.managedServers name (.str (fingerprint number config)),
        assign acc.entries name config⟩ := by
  refine ⟨⟨?_, ?_, ?_⟩, h.fingerprinted.assign name _⟩
  · intro other c hother
    rw [get?_assign] at hother ⊢
    split at hother
    · rename_i hname
      rw [if_pos hname]
      exact hother
    · rename_i hname
      rw [if_neg hname]
      exact h.carries.kept other c hother
  · intro other c hother
    rw [get?_assign] at hother ⊢
    split at hother
    · rename_i hname
      cases hother
      rw [if_pos hname]
    · rename_i hname
      rw [if_neg hname]
      exact h.carries.marked other c hother
  · intro other c hother
    rw [get?_assign] at hother ⊢
    split at hother
    · rename_i hname
      rw [if_pos hname]
      exact .inr hother
    · rename_i hname
      rw [if_neg hname]
      exact h.carries.rest other c hother

theorem Injected.inject {acc : Injection} (h : Injected number user acc) (now : Nat) (requested : Fields) :
    Injected number user (inject number now requested acc) := by
  fun_induction McpSync.inject number now requested acc with
  | case1 acc => exact h
  | case2 requestedName config rest acc resolvedName ih => exact ih (h.assign resolvedName config)

theorem planSync_injected (now : Nat) (processInstanceId : String) (requested : Fields) {read : JsonFileRead}
    {previous : Option ManagedMcpMarker}
    (h : Within (removeManaged number ((previous.map (·.managedServers)).getD .nil) (serversOf read.record)) user) :
    let plan := planSync number now processInstanceId requested read previous
    Carries number user (serversOf plan.nextConfig) plan.nextManagedMarker.managedServers plan.entries ∧
      Fingerprinted plan.nextManagedMarker.managedServers := by
  have hnone : ∀ name config, Fields.nil.get? name ≠ some config := fun name config h => by cases h
  have hstart : Injected number user
      ⟨removeManaged number ((previous.map (·.managedServers)).getD .nil) (serversOf read.record), .nil, .nil⟩ := by
    refine ⟨⟨?_, ?_, ?_⟩, trivial⟩
    · exact fun name config hget => absurd hget (hnone name config)
    · exact fun name config hget => absurd hget (hnone name config)
    · exact fun name config hget => .inl (h name config hget)
  have hend := hstart.inject now requested
  dsimp only [planSync]
  rw [serversOf_set]
  exact ⟨hend.carries, hend.fingerprinted⟩

theorem servers_strip {marker : ManagedMcpMarker} {file : JsonFile}
    (h : Within (removeManaged number marker.managedServers file.servers) user) :
    Within (match strip number marker (readJsonRecord file).record with
      | none => JsonFile.absent
      | some config => .holds (.obj config)).servers user := by
  unfold strip
  dsimp only
  split
  · rename_i hstrip
    intro name config hget
    cases hget
  · rename_i config hstrip
    split at hstrip
    · cases hstrip
    · cases hstrip
      rw [servers_holds, serversOf_set]
      exact h

end Entries

end A2Wave.McpSync
