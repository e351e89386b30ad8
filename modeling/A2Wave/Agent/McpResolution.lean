import A2Wave.Agent.McpServer
import A2Wave.Lib.JsonText

/-! The MCP servers that `buildAgentConfig` of `lib/agent-helpers.ts` resolves for an execution. -/

namespace A2Wave.McpResolution

structure UserRow where
  id : String
  role : String
  isActive : Bool
  deriving DecidableEq

instance : Keyed UserRow String := ⟨UserRow.id⟩

structure Store where
  users : Table UserRow := .empty
  mcpServers : Table McpServer := .empty

structure AgentRow where
  id : String
  name : String
  userId : Option String := none
  mcpServerIds : List String := []
  a2aRouteTargets : List Json := []

structure BuiltinMcpConfig where
  command : String
  args : List String
  env : Record String

structure Host where
  /-- `resolveBuiltinMcpConfig('a2wave-mcp-group-proxy')`. -/
  proxyConfig : BuiltinMcpConfig
  number : ℚ → String

inductive EnvValue
  | text (s : String)
  | internalToken
  | internalAdminToken
  deriving DecidableEq

abbrev RuntimeEnv := Record EnvValue

structure McpRuntimeAuthorization where
  requesterIsActiveAdmin : Bool := false
  agentOwnerIsActiveAdmin : Bool := false

structure ResolvedInlineBackend where
  name : String
  type : McpType
  command : Option String
  args : Option (List String)
  cwd : Option String
  url : Option String
  headers : Option (Record String)
  env : Option RuntimeEnv

structure RuntimeGroupConfig where
  legacyMcpServerId : String
  config : List (String × List ResolvedInlineBackend)

structure ResolvedMcpServer where
  name : String
  type : McpType
  command : Option String
  args : List String
  cwd : Option String := none
  url : Option String := none
  headers : Option (Record String) := none
  env : Option RuntimeEnv
  publicEnvKeys : List String := []
  runtimeGroupConfig : Option RuntimeGroupConfig := none

def canRunAdminBoundMcp (authorization : McpRuntimeAuthorization) : Bool :=
  authorization.requesterIsActiveAdmin || authorization.agentOwnerIsActiveAdmin

def isMcpBlockedAtRuntime (server : McpServer) (agentOwnerId : Option String)
    (authorization : McpRuntimeAuthorization) : Bool :=
  if isOwnerSafeBuiltinMcp server.name server.userId then false
  else if isControlPlaneOnlyBuiltinMcp server.name server.userId then !authorization.requesterIsActiveAdmin
  else if server.usageScope = .adminOnly || introducesStdioExecution server.type server.groupConfig then
    !canRunAdminBoundMcp authorization
  else !authorization.requesterIsActiveAdmin && !canNonAdminUseMcp server agentOwnerId

def INTERNAL_TOKEN_ENV : String := "A2WAVE_INTERNAL_TOKEN"

def INTERNAL_ADMIN_TOKEN_ENV : String := "A2WAVE_INTERNAL_ADMIN_TOKEN"

def texts (env : Option (Record String)) : List (Property EnvValue) :=
  ((env.map Record.entries).getD []).map fun p => ⟨p.key, .text p.value⟩

def getControlPlaneMcpRuntimeEnv (server : McpServer) (requesterIsActiveAdmin : Bool) :
    Option (List (Property EnvValue)) :=
  if !requesterIsActiveAdmin || !isControlPlaneOnlyBuiltinMcp server.name server.userId then none
  else some [⟨INTERNAL_ADMIN_TOKEN_ENV, .internalAdminToken⟩]

def buildRouterMcpRuntimeEnv (host : Host) (server : McpServer) (agent : AgentRow) : List (Property EnvValue) :=
  let targets := String.ofList (JsonText.stringify host.number (.arr (.ofList agent.a2aRouteTargets)))
  (if agent.a2aRouteTargets.isEmpty then [] else [⟨"A2WAVE_ROUTE_TARGETS", .text targets⟩]) ++
    [⟨"A2WAVE_CALLER_AGENT_ID", .text agent.id⟩, ⟨"A2WAVE_CALLER_AGENT_NAME", .text agent.name⟩] ++
    if isOwnerSafeBuiltinMcp server.name server.userId then [⟨INTERNAL_TOKEN_ENV, .internalToken⟩] else []

/-- Runs of `-`, and those at the ends, go. -/
def joinDashes : List Char → List Char
  | [] => []
  | [c] => [c]
  | c :: d :: cs => if c = '-' && d = '-' then joinDashes (d :: cs) else c :: joinDashes (d :: cs)

def safeBaseName (name : String) : String :=
  let dashed := joinDashes (name.toList.map fun c => if c.isAlphanum || c = '_' || c = '-' then c else '-')
  let front := if dashed.head? = some '-' then dashed.tail else dashed
  String.ofList (if front.getLast? = some '-' then front.dropLast else front)

/-- `id.replace(/^mcp_/, '').slice(0, 6)`. -/
def shortId (id : String) : String :=
  let cs := id.toList
  String.ofList ((if "mcp_".toList.isPrefixOf cs then cs.drop 4 else cs).take 6)

def safeName (refServer : McpServer) : String :=
  let baseName := safeBaseName refServer.name
  if baseName ≠ "" then baseName ++ "-" ++ shortId refServer.id else "ref-" ++ refServer.id

/-- `inlineBackend` as it is pushed. -/
def resolveInline (backend : InlineBackend) : ResolvedInlineBackend :=
  { name := backend.name, type := backend.type, command := backend.command, args := backend.args, cwd := backend.cwd
    url := backend.url
    headers := backend.headers
    env := backend.env.map fun env => .assign .empty (texts (some env)) }

def resolveRef (refServer : McpServer) (authorization : McpRuntimeAuthorization) : ResolvedInlineBackend :=
  { name := safeName refServer, type := refServer.type, command := refServer.command, args := some refServer.args
    cwd := refServer.cwd
    url := refServer.url
    headers := refServer.headers
    env := match getControlPlaneMcpRuntimeEnv refServer authorization.requesterIsActiveAdmin with
      | some controlPlaneEnv => some (.assign .empty (texts refServer.env ++ controlPlaneEnv))
      | none => refServer.env.map fun env => .assign .empty (texts (some env)) }

section Resolve

variable (host : Host) (s : Store)

def refScope (ownerId : Option String) (authorization : McpRuntimeAuthorization) (row : McpServer) : Bool :=
  match ownerId.filter (· ≠ "") with
  | none => true
  | some ownerId =>
    canRunAdminBoundMcp authorization || row.userId = some ownerId || row.usageScope = .allUsers || row.userId.isNone

def resolveBackend (ownerId : Option String) (authorization : McpRuntimeAuthorization) :
    GroupBackend → Option ResolvedInlineBackend
  | .inline backend => some (resolveInline backend)
  | .ref mcpServerId =>
    match (s.mcpServers.find? mcpServerId).filter (refScope ownerId authorization) with
    | none => none
    | some refServer =>
      if refServer.type = .group || isMcpBlockedAtRuntime refServer ownerId authorization then none
      else some (resolveRef refServer authorization)

def resolveGroupRefs (groupConfig : GroupConfig) (ownerId : Option String) (authorization : McpRuntimeAuthorization) :
    List (String × List ResolvedInlineBackend) :=
  groupConfig.backends.filterMap fun (groupKey, backends) =>
    let resolvedBackends := backends.filterMap (resolveBackend s ownerId authorization)
    if resolvedBackends.isEmpty then none else some (groupKey, resolvedBackends)

def toResolvedMcp (row : McpServer) (extraEnv : List (Property EnvValue)) (authorization : McpRuntimeAuthorization)
    (agentOwnerId : Option String) : ResolvedMcpServer :=
  match row.type, row.groupConfig with
  | .group, some groupConfig =>
    let groupPublicEnv : List (Property EnvValue) := [⟨"A2WAVE_GROUP_NAME", .text row.name⟩]
    { name := row.name, type := .stdio, command := some host.proxyConfig.command, args := host.proxyConfig.args
      env := some (.assign .empty (texts (some host.proxyConfig.env) ++ groupPublicEnv ++ extraEnv))
      publicEnvKeys := groupPublicEnv.map Property.key
      runtimeGroupConfig := some
        { legacyMcpServerId := row.id, config := resolveGroupRefs s groupConfig agentOwnerId authorization } }
  | type, _ =>
    let env : RuntimeEnv := .assign .empty (texts row.env ++ extraEnv)
    { name := row.name, type := type, command := row.command, args := row.args, cwd := row.cwd, url := row.url
      headers := row.headers
      env := if env.rows.isEmpty then none else some env }

def isActiveAdmin (user : Option UserRow) : Bool := user.any fun user => user.role = "admin" && user.isActive

def runtimeAuthorization (agent : AgentRow) (runtimeAdminRequesterUserId : Option String) : McpRuntimeAuthorization :=
  let owner := (agent.userId.filter (· ≠ "")).bind s.users.find?
  let runtimeRequester :=
    match runtimeAdminRequesterUserId.filter (· ≠ "") with
    | none => none
    | some requester => if some requester = agent.userId then owner else s.users.find? requester
  { requesterIsActiveAdmin := isActiveAdmin runtimeRequester, agentOwnerIsActiveAdmin := isActiveAdmin owner }

def filterRestrictedMcpForRuntime (agent : AgentRow) (rows : List McpServer)
    (authorization : McpRuntimeAuthorization) : List McpServer :=
  let blockedIds := (rows.filter fun server => isMcpBlockedAtRuntime server agent.userId authorization).map (·.id)
  rows.filter fun server => !blockedIds.contains server.id

/-- Step 4 of `buildAgentConfig`. -/
def resolvedMcpServers (agent : AgentRow) (runtimeAdminRequesterUserId : Option String) : List ResolvedMcpServer :=
  let authorization := runtimeAuthorization s agent runtimeAdminRequesterUserId
  let rawMcpRows := s.mcpServers.select fun row => agent.mcpServerIds.contains row.id
  let resolved := (filterRestrictedMcpForRuntime agent rawMcpRows authorization).map fun row =>
    let extraEnv :=
      if row.name = ROUTER_MCP_NAME then buildRouterMcpRuntimeEnv host row agent
      else (getControlPlaneMcpRuntimeEnv row authorization.requesterIsActiveAdmin).getD []
    toResolvedMcp host s row extraEnv authorization agent.userId
  if agent.a2aRouteTargets.isEmpty || resolved.any (·.name = ROUTER_MCP_NAME) then resolved
  else
    match (s.mcpServers.select fun row => row.name = ROUTER_MCP_NAME && row.userId.isNone).head? with
    | none => resolved
    | some routerMcp =>
      if isOwnerSafeBuiltinMcp routerMcp.name routerMcp.userId then
        resolved ++ [toResolvedMcp host s routerMcp (buildRouterMcpRuntimeEnv host routerMcp agent) authorization
          agent.userId]
      else resolved

end Resolve

def ActiveAdmin (s : Store) (userId : Option String) : Prop :=
  ∃ user ∈ s.users.rows, userId = some user.id ∧ user.role = "admin" ∧ user.isActive = true

def adminBound (row : McpServer) : Prop :=
  row.usageScope = .adminOnly ∨ introducesStdioExecution row.type row.groupConfig = true

structure Authorised (s : Store) (agent : AgentRow) (requester : Option String) (row : McpServer) : Prop where
  access : isOwnerSafeBuiltinMcp row.name row.userId = true ∨ canNonAdminUseMcp row agent.userId = true ∨
    ActiveAdmin s requester ∨ ActiveAdmin s agent.userId ∧ adminBound row
  stdio : introducesStdioExecution row.type row.groupConfig = true →
    isOwnerSafeBuiltinMcp row.name row.userId = true ∨ ActiveAdmin s requester ∨ ActiveAdmin s agent.userId
  platformAdmin : isControlPlaneOnlyBuiltinMcp row.name row.userId = true → ActiveAdmin s requester

def TokenFor (s : Store) (requester : Option String) (row : McpServer) (env : Option RuntimeEnv) : Prop :=
  ∀ env', env = some env' → ∀ p ∈ env'.rows, p.value = .internalAdminToken →
    isControlPlaneOnlyBuiltinMcp row.name row.userId = true ∧ ActiveAdmin s requester

inductive BackendOf (s : Store) (agent : AgentRow) (requester : Option String) (groupConfig : GroupConfig) :
    ResolvedInlineBackend → Prop
  | inline {g backend} : g ∈ groupConfig.backends → .inline backend ∈ g.2 →
      BackendOf s agent requester groupConfig (resolveInline backend)
  | ref {g refServer} {b : ResolvedInlineBackend} : g ∈ groupConfig.backends → .ref refServer.id ∈ g.2 →
      refServer ∈ s.mcpServers.rows → refServer.type ≠ .group → Authorised s agent requester refServer →
      b.type = refServer.type → b.command = refServer.command → b.args = some refServer.args →
      b.url = refServer.url → b.headers = refServer.headers → TokenFor s requester refServer b.env →
      BackendOf s agent requester groupConfig b

structure ServerOf (s : Store) (agent : AgentRow) (requester : Option String) (row : McpServer)
    (r : ResolvedMcpServer) : Prop where
  name : r.name = row.name
  token : TokenFor s requester row r.env
  plain : r.runtimeGroupConfig = none →
    r.type = row.type ∧ r.command = row.command ∧ r.args = row.args ∧ r.url = row.url ∧ r.headers = row.headers
  group : ∀ c, r.runtimeGroupConfig = some c → row.type = .group ∧ ∃ groupConfig, row.groupConfig = some groupConfig ∧
    ∀ g ∈ c.config, ∀ b ∈ g.2, BackendOf s agent requester groupConfig b

section Authorised

variable {s : Store} {agent : AgentRow} {requester : Option String} {row : McpServer}
  {authorization : McpRuntimeAuthorization} {host : Host}

theorem ActiveAdmin.of_find {userId : Option String} (h : isActiveAdmin (userId.bind s.users.find?) = true) :
    ActiveAdmin s userId := by
  rw [isActiveAdmin, Option.any_eq_true] at h
  obtain ⟨user, huser, hadmin⟩ := h
  obtain ⟨id, rfl, hfind⟩ := Option.bind_eq_some_iff.mp huser
  rw [Bool.and_eq_true, decide_eq_true_eq] at hadmin
  have hid : user.id = id := Table.find?_some_key hfind
  exact ⟨user, Table.find?_mem hfind, by rw [hid], hadmin⟩

theorem ActiveAdmin.of_filter {userId : Option String} {p : String → Bool} (h : ActiveAdmin s (userId.filter p)) :
    ActiveAdmin s userId := by
  obtain ⟨user, hmem, hid, hadmin⟩ := h
  exact ⟨user, hmem, (Option.filter_eq_some_iff.mp hid).1, hadmin⟩

theorem owner_activeAdmin (h : (runtimeAuthorization s agent requester).agentOwnerIsActiveAdmin = true) :
    ActiveAdmin s agent.userId :=
  .of_filter (.of_find h)

theorem requester_activeAdmin (h : (runtimeAuthorization s agent requester).requesterIsActiveAdmin = true) :
    ActiveAdmin s requester := by
  unfold runtimeAuthorization at h
  dsimp only at h
  split at h
  · cases h
  · rename_i id hid
    have hrequester := (Option.filter_eq_some_iff.mp hid).1
    split at h
    · rename_i hsame
      rw [hrequester, hsame]
      exact .of_filter (.of_find h)
    · have hfind : isActiveAdmin ((some id).bind s.users.find?) = true := h
      rw [hrequester]
      exact .of_find hfind

theorem authorised_of_not_blocked
    (h : isMcpBlockedAtRuntime row agent.userId (runtimeAuthorization s agent requester) = false) :
    Authorised s agent requester row := by
  unfold isMcpBlockedAtRuntime at h
  split at h
  · rename_i hrouter
    refine ⟨.inl hrouter, fun _ => .inl hrouter, fun hplatform => ?_⟩
    -- no row has both names
    rw [isOwnerSafeBuiltinMcp, Bool.and_eq_true, decide_eq_true_eq] at hrouter
    rw [isControlPlaneOnlyBuiltinMcp, Bool.and_eq_true, decide_eq_true_eq, hrouter.2] at hplatform
    exact absurd hplatform.2 (by decide)
  split at h
  · rw [Bool.not_eq_false'] at h
    have hadmin := requester_activeAdmin h
    exact ⟨.inr (.inr (.inl hadmin)), fun _ => .inr (.inl hadmin), fun _ => hadmin⟩
  rename_i hplatform
  split at h
  · rename_i hbound
    rw [Bool.not_eq_false', canRunAdminBoundMcp, Bool.or_eq_true] at h
    have hbound : adminBound row := by simpa [adminBound] using hbound
    obtain hadmin | hadmin := h
    · have hadmin := requester_activeAdmin hadmin
      exact ⟨.inr (.inr (.inl hadmin)), fun _ => .inr (.inl hadmin), fun hp => absurd hp hplatform⟩
    · have hadmin := owner_activeAdmin hadmin
      exact ⟨.inr (.inr (.inr ⟨hadmin, hbound⟩)), fun _ => .inr (.inr hadmin), fun hp => absurd hp hplatform⟩
  · rename_i hfree
    rw [Bool.or_eq_true, not_or] at hfree
    refine ⟨?_, fun hstdio => absurd hstdio hfree.2, fun hp => absurd hp hplatform⟩
    rw [Bool.and_eq_false_iff, Bool.not_eq_false', Bool.not_eq_false'] at h
    obtain hadmin | huse := h
    · exact .inr (.inr (.inl (requester_activeAdmin hadmin)))
    · exact .inr (.inl huse)

theorem text_of_mem_texts {env : Option (Record String)} {p : Property EnvValue} (h : p ∈ texts env) :
    ∃ text, p.value = .text text := by
  obtain ⟨q, -, rfl⟩ := List.mem_map.mp h
  exact ⟨q.value, rfl⟩

theorem controlPlaneEnv_some {ps : List (Property EnvValue)} {admin : Bool}
    (henv : getControlPlaneMcpRuntimeEnv row admin = some ps) :
    isControlPlaneOnlyBuiltinMcp row.name row.userId = true ∧ admin = true := by
  unfold getControlPlaneMcpRuntimeEnv at henv
  split at henv
  · cases henv
  · rename_i hgate
    simpa [and_comm] using hgate

theorem routerEnv_token {p : Property EnvValue} (hp : p ∈ buildRouterMcpRuntimeEnv host row agent) :
    p.value ≠ .internalAdminToken := by
  unfold buildRouterMcpRuntimeEnv at hp
  dsimp only at hp
  rw [List.mem_append, List.mem_append] at hp
  obtain (hp | hp) | hp := hp
  · split at hp
    · cases hp
    · rw [List.mem_singleton.mp hp]
      nofun
  · obtain rfl | hp := List.mem_cons.mp hp
    · nofun
    · rw [List.mem_singleton.mp hp]
      nofun
  · split at hp
    · rw [List.mem_singleton.mp hp]
      nofun
    · cases hp

theorem tokenFor_assign {env : Option (Record String)} {ps : List (Property EnvValue)}
    (h : ∀ p ∈ ps, p.value = .internalAdminToken →
      isControlPlaneOnlyBuiltinMcp row.name row.userId = true ∧ ActiveAdmin s requester) :
    TokenFor s requester row (some (.assign .empty (texts env ++ ps))) := by
  intro env' henv p hp htoken
  obtain rfl := Option.some.inj henv
  obtain hp | hp := Record.mem_assign hp
  · cases hp
  · obtain hp | hp := List.mem_append.mp hp
    · obtain ⟨text, htext⟩ := text_of_mem_texts hp
      rw [htext] at htoken
      cases htoken
    · exact h p hp htoken

theorem backendOf_resolveBackend {groupConfig : GroupConfig} {g : String × List GroupBackend} {backend : GroupBackend}
    {b : ResolvedInlineBackend} (hg : g ∈ groupConfig.backends) (hbackend : backend ∈ g.2)
    (h : resolveBackend s agent.userId (runtimeAuthorization s agent requester) backend = some b) :
    BackendOf s agent requester groupConfig b := by
  cases backend with
  | inline backend =>
    obtain rfl := Option.some.inj h
    exact .inline hg hbackend
  | ref mcpServerId =>
    simp only [resolveBackend] at h
    split at h
    · cases h
    · rename_i refServer hfind
      have hfind := (Option.filter_eq_some_iff.mp hfind).1
      split at h
      · cases h
      · rename_i hgate
        rw [Bool.or_eq_true, not_or, decide_eq_true_eq, Bool.not_eq_true] at hgate
        obtain rfl := Option.some.inj h
        have hid : refServer.id = mcpServerId := Table.find?_some_key hfind
        rw [← hid] at hbackend
        refine .ref hg hbackend (Table.find?_mem hfind) hgate.1 (authorised_of_not_blocked hgate.2) rfl rfl rfl rfl rfl
          ?_
        rw [resolveRef]
        dsimp only
        split
        · rename_i controlPlaneEnv henv
          apply tokenFor_assign
          intro _ _ _
          obtain ⟨hplatform, hadmin⟩ := controlPlaneEnv_some henv
          exact ⟨hplatform, requester_activeAdmin hadmin⟩
        · intro env' henv
          obtain ⟨env, -, rfl⟩ := Option.map_eq_some_iff.mp henv
          have htoken : TokenFor s requester refServer (some (.assign .empty (texts (some env) ++ []))) :=
            tokenFor_assign fun _ hp => by cases hp
          rw [List.append_nil] at htoken
          exact htoken _ rfl

theorem serverOf_toResolvedMcp {extraEnv : List (Property EnvValue)}
    (hextra : ∀ p ∈ extraEnv, p.value = .internalAdminToken →
      isControlPlaneOnlyBuiltinMcp row.name row.userId = true ∧ ActiveAdmin s requester) :
    ServerOf s agent requester row
      (toResolvedMcp host s row extraEnv (runtimeAuthorization s agent requester) agent.userId) := by
  unfold toResolvedMcp
  split
  · rename_i groupConfig htype hconfig
    refine ⟨rfl, ?_, nofun, ?_⟩
    · dsimp only
      rw [List.append_assoc]
      apply tokenFor_assign
      intro p hp htoken
      obtain rfl | hp := List.mem_cons.mp hp
      · cases htoken
      · exact hextra p hp htoken
    · intro c hc
      obtain rfl := Option.some.inj hc
      refine ⟨htype, groupConfig, hconfig, ?_⟩
      intro g' hg' b hb
      obtain ⟨g, hg, hsome⟩ := List.mem_filterMap.mp hg'
      dsimp only at hsome
      split at hsome
      · cases hsome
      · obtain rfl := Option.some.inj hsome
        obtain ⟨backend, hbackend, hresolve⟩ := List.mem_filterMap.mp hb
        exact backendOf_resolveBackend hg hbackend hresolve
  · refine ⟨rfl, ?_, fun _ => ⟨rfl, rfl, rfl, rfl, rfl⟩, nofun⟩
    intro env' henv
    dsimp only at henv
    split at henv
    · cases henv
    · exact tokenFor_assign hextra env' henv

theorem mem_filterRestricted {rows : List McpServer}
    (h : row ∈ filterRestrictedMcpForRuntime agent rows authorization) :
    row ∈ rows ∧ isMcpBlockedAtRuntime row agent.userId authorization = false := by
  obtain ⟨hmem, hkept⟩ := List.mem_filter.mp h
  refine ⟨hmem, ?_⟩
  rw [← Bool.not_eq_true]
  intro hblocked
  rw [Bool.not_eq_true', List.contains_eq_mem, decide_eq_false_iff_not] at hkept
  exact hkept (List.mem_map_of_mem (List.mem_filter.mpr ⟨hmem, hblocked⟩))

/-- Every server that an execution gets is one of the table, and is authorised, as is every backend of a group. -/
theorem resolved_mcps_are_authorised (host : Host) (s : Store) (agent : AgentRow) (requester : Option String) :
    ∀ r ∈ resolvedMcpServers host s agent requester,
      ∃ row ∈ s.mcpServers.rows, Authorised s agent requester row ∧ ServerOf s agent requester row r := by
  have hbound : ∀ r ∈ (filterRestrictedMcpForRuntime agent
      (s.mcpServers.select fun row => agent.mcpServerIds.contains row.id)
      (runtimeAuthorization s agent requester)).map fun row =>
        toResolvedMcp host s row
          (if row.name = ROUTER_MCP_NAME then buildRouterMcpRuntimeEnv host row agent
            else (getControlPlaneMcpRuntimeEnv row
              (runtimeAuthorization s agent requester).requesterIsActiveAdmin).getD [])
          (runtimeAuthorization s agent requester) agent.userId,
      ∃ row ∈ s.mcpServers.rows, Authorised s agent requester row ∧ ServerOf s agent requester row r := by
    intro r hr
    obtain ⟨row, hrow, rfl⟩ := List.mem_map.mp hr
    obtain ⟨hmem, hfree⟩ := mem_filterRestricted hrow
    refine ⟨row, (List.mem_filter.mp hmem).1, authorised_of_not_blocked hfree, serverOf_toResolvedMcp ?_⟩
    intro p hp htoken
    split at hp
    · exact absurd htoken (routerEnv_token hp)
    · cases henv : getControlPlaneMcpRuntimeEnv row (runtimeAuthorization s agent requester).requesterIsActiveAdmin with
      | none =>
        rw [henv] at hp
        cases hp
      | some ps =>
        obtain ⟨hplatform, hadmin⟩ := controlPlaneEnv_some henv
        exact ⟨hplatform, requester_activeAdmin hadmin⟩
  intro r hr
  unfold resolvedMcpServers at hr
  dsimp only at hr
  split at hr
  · exact hbound r hr
  split at hr
  · exact hbound r hr
  · rename_i routerMcp hhead
    obtain ⟨hmem, -⟩ := List.mem_filter.mp (List.mem_of_mem_head? hhead)
    split at hr
    · rename_i hrouter
      obtain hr | hr := List.mem_append.mp hr
      · exact hbound r hr
      · rw [List.mem_singleton.mp hr]
        refine ⟨routerMcp, hmem, authorised_of_not_blocked ?_, serverOf_toResolvedMcp ?_⟩
        · rw [isMcpBlockedAtRuntime, if_pos hrouter]
        · intro p hp htoken
          exact absurd htoken (routerEnv_token hp)
    · exact hbound r hr

end Authorised

section Examples

def exampleStore : Store :=
  { mcpServers := ⟨[{ id := "mcp_r", name := ROUTER_MCP_NAME, usageScope := .adminOnly }], by decide⟩ }

def exampleHost : Host := { proxyConfig := { command := "node", args := [], env := .empty }, number := fun _ => "" }

theorem resolved_mcps_are_authorised_router : ∃ r ∈ resolvedMcpServers exampleHost exampleStore
        { id := "agent", name := "Agent", mcpServerIds := ["mcp_r"] } none,
      ∃ row ∈ exampleStore.mcpServers.rows,
        Authorised exampleStore { id := "agent", name := "Agent", mcpServerIds := ["mcp_r"] } none row ∧
        ServerOf exampleStore { id := "agent", name := "Agent", mcpServerIds := ["mcp_r"] } none row r := by
  have hresolved : (resolvedMcpServers exampleHost exampleStore
      { id := "agent", name := "Agent", mcpServerIds := ["mcp_r"] } none).length = 1 := by decide +kernel
  obtain ⟨r, hr⟩ := List.length_eq_one_iff.mp hresolved
  have hmem : r ∈ resolvedMcpServers exampleHost exampleStore
      { id := "agent", name := "Agent", mcpServerIds := ["mcp_r"] } none := by
    rw [hr]
    exact List.mem_singleton_self r
  exact ⟨r, hmem, resolved_mcps_are_authorised _ _ _ _ r hmem⟩

theorem router_is_resolved_unbindable : ¬∀ (host : Host) (s : Store) (agent : AgentRow) (requester : Option String),
    ∀ r ∈ resolvedMcpServers host s agent requester, ∃ row ∈ s.mcpServers.rows, r.name = row.name ∧
      (canNonAdminUseMcp row agent.userId = true ∨ ActiveAdmin s requester ∨
        ActiveAdmin s agent.userId ∧ adminBound row) := by
  intro h
  have hresolved : (resolvedMcpServers exampleHost exampleStore
      { id := "agent", name := "Agent", mcpServerIds := ["mcp_r"] } none).length = 1 := by decide +kernel
  obtain ⟨r, hr⟩ := List.length_eq_one_iff.mp hresolved
  obtain ⟨row, hrow, -, huse | ⟨user, hmem, -⟩ | ⟨⟨user, hmem, -⟩, -⟩⟩ :=
    h exampleHost exampleStore { id := "agent", name := "Agent", mcpServerIds := ["mcp_r"] } none r
      (by rw [hr]; exact List.mem_singleton_self r)
  · obtain rfl := List.mem_singleton.mp hrow
    cases huse
  · cases hmem
  · cases hmem

end Examples

end A2Wave.McpResolution
