import Mathlib.Data.List.Forall2
import A2Wave.Agent.Export

/-! The credentials that `importAgentFromZip` of `lib/agent-import.ts` stores for a bundle. -/

namespace A2Wave.AgentBundle

structure Importer where
  userId : String
  isAdmin : Bool
  assertSafeStrictUrl : String → Bool
  /-- `providerChainSchema`: the message of the first issue. -/
  providerChainSchema : Json → Except String Unit
  shouldDisableImportedMemory : Bool := false
  createId : Nat → String

section Import

variable (runtime : Runtime) (importer : Importer)

def clearMaskedRecord (record : Record String) : Record String :=
  record.mapValues fun _ value => if value = MASK then "" else value

def usesUrl (type : McpType) : Bool := type = .sse || type = .http

def inlineBackends (groupConfig : GroupConfig) : List (String × InlineBackend) :=
  groupConfig.backends.flatMap fun (groupKey, list) => list.filterMap fun
    | .inline backend => some (groupKey, backend)
    | .ref _ => none

def assertImportedMcpUrlsSafe (mcp : ExportedMcpServer) : Except String Unit :=
  let unsafeUrl (url : Option String) : Bool := (url.filter (· ≠ "")).any (!importer.assertSafeStrictUrl ·)
  if usesUrl mcp.type && unsafeUrl mcp.url then .error "Imported MCP URL must be a public HTTP(S) address"
  else
    match (if mcp.type = .group then mcp.groupConfig else none) with
    | none => .ok ()
    | some groupConfig =>
      match (inlineBackends groupConfig).find? fun b => usesUrl b.2.type && unsafeUrl b.2.url with
      | none => .ok ()
      | some (groupKey, backend) =>
        let name := backend.name
        .error s!"Imported MCP inline backend URL must be a public HTTP(S) address: {groupKey}/{name}"

/-- Import one server under an id; `names` are those in the table. -/
def importMcpServer (names : List String) (id : String) (mcp : ExportedMcpServer) : Except String McpServer :=
  if !importer.isAdmin && introducesStdioExecution mcp.type mcp.groupConfig then
    .error "Only admin can import agents that define stdio MCP servers"
  else
    (assertImportedMcpUrlsSafe importer mcp).map fun _ =>
      { id := id, name := if names.contains mcp.name then mcp.name ++ " (Imported)" else mcp.name
        description := mcp.description
        type := mcp.type
        command := mcp.command
        args := mcp.args
        cwd := mcp.cwd
        url := mcp.url
        headers := mcp.headers.map clearMaskedRecord
        env := mcp.env.map clearMaskedRecord
        isEnabled := mcp.isEnabled
        groupConfig := mcp.groupConfig
        usageScope := resolveUsageScope mcp.type mcp.groupConfig none importer.isAdmin .private
        userId := some importer.userId }

def importMcpServers (names : List String) : Nat → List ExportedMcpServer → Except String (List McpServer)
  | _, [] => .ok []
  | n, mcp :: mcps =>
    (importMcpServer importer names (importer.createId n) mcp).bind fun row =>
      (importMcpServers (row.name :: names) (n + 1) mcps).map fun rows => row :: rows

def importedA2ARouteTarget (target : Fields) : Fields :=
  if target.get? "type" = some (.str "remote") ∧ target.get? "apiKey" = some (.str MASK) then target.erase "apiKey"
  else target

def importedEnvEntry (key : String) (entry : EnvEntry) : EnvEntry :=
  if entry.value = MASK && (entry.sensitive || isSensitiveKey runtime key) then { value := "", sensitive := true }
  else entry

def importedConfig (config : Option Fields) : Option Fields :=
  if importer.shouldDisableImportedMemory then some ((config.getD .nil).set "memoryEnabled" (.bool false)) else config

def importedAgent (agent : AgentRow) : AgentRow :=
  { config := importedConfig importer agent.config, env := agent.env.map (·.mapValues (importedEnvEntry runtime))
    feishuConfig := agent.feishuConfig
    a2aRouteTargets := agent.a2aRouteTargets.map fun targets => targets.map importedA2ARouteTarget }

/-- The rows that an import stores; `names` are the names of the MCP servers that exist. -/
def importAgentFromZip (names : List String) (bundle : Bundle) : Except String (AgentRow × List McpServer) :=
  (importMcpServers importer names 0 bundle.mcpServers).bind fun mcpServers =>
    let importedChain := bundle.agent.config.bind (·.get? "providerChain")
    ((importedChain.map importer.providerChainSchema).getD (.ok ())).map fun _ =>
      (importedAgent runtime importer bundle.agent, mcpServers)

end Import

section Credentials

variable (runtime : Runtime)

def secretValues (keys : List String) (fs : Fields) : List String :=
  keys.filterMap fun k => (fs.get? k).bind Json.asStr?

def providerChain (config : Option Fields) : List Fields :=
  match config.bind (·.get? "providerChain") with
  | some (.arr items) => items.toList.filterMap fun
    | .obj fs => some fs
    | _ => none
  | _ => []

def AgentRow.channelSecrets (agent : AgentRow) : List String :=
  agent.feishuConfig.toList.flatMap (secretValues ["appSecret"]) ++
    agent.slackConfig.toList.flatMap (secretValues ["appToken", "botToken"]) ++
    agent.discordConfig.toList.flatMap (secretValues ["botToken"]) ++
    agent.telegramConfig.toList.flatMap (secretValues ["botToken"]) ++
    agent.qqOfficialConfig.toList.flatMap (secretValues ["appSecret"])

def AgentRow.sensitiveEnv (agent : AgentRow) : List String :=
  ((agent.env.toList.flatMap fun env => env.rows).filter fun p =>
    p.value.sensitive || isSensitiveKey runtime p.key).map fun p => p.value.value

def AgentRow.credentials (agent : AgentRow) : List String :=
  agent.channelSecrets ++ (providerChain agent.config).flatMap (secretValues PROVIDER_SECRETS) ++
    (agent.a2aRouteTargets.getD []).flatMap (secretValues ["apiKey"]) ++ agent.sensitiveEnv runtime

def recordValues (record : Option (Record String)) : List String :=
  record.toList.flatMap fun record => record.rows.map Property.value

def inlineCredentials (backend : InlineBackend) : List String :=
  backend.url.toList ++ recordValues backend.headers ++ recordValues backend.env

def mcpCredentials (mcp : McpServer) : List String :=
  mcp.url.toList ++ recordValues mcp.headers ++ recordValues mcp.env ++
    mcp.groupConfig.toList.flatMap fun groupConfig =>
      (inlineBackends groupConfig).flatMap fun b => inlineCredentials b.2

def IsMasked (value : String) : Prop := MASK.toList <:+: value.toList

instance (value : String) : Decidable (IsMasked value) := inferInstanceAs (Decidable (_ <:+: _))

end Credentials

section Masked

variable {runtime : Runtime} {importer : Importer}

def KeptUrl (runtime : Runtime) (url : Option String) : Prop :=
  ∀ u, url = some u → u ≠ "" →
    (∃ parsed, runtime.parseUrl u = some parsed ∧ parsed.hasSecretBearingParts = false) ∧ ¬IsMasked u

def NoEntries (record : Option (Record String)) : Prop := ∀ r, record = some r → r.rows = []

structure MaskFree (runtime : Runtime) (agent : AgentRow) (mcpRows : List McpServer) : Prop where
  feishu : agent.feishuConfig = none
  providerChain : ∀ item ∈ providerChain agent.config, ∀ k ∈ PROVIDER_SECRETS, truthy (item.get? k) = false
  routes : ∀ target ∈ agent.a2aRouteTargets.getD [], truthy (target.get? "apiKey") = true →
    target.get? "type" = some (.str "remote")
  urls : ∀ mcp ∈ mcpRows, KeptUrl runtime mcp.url
  backends : ∀ mcp ∈ mcpRows, mcp.type = .group → ∀ groupConfig, mcp.groupConfig = some groupConfig →
    ∀ b ∈ inlineBackends groupConfig, KeptUrl runtime b.2.url ∧ NoEntries b.2.headers ∧ NoEntries b.2.env

theorem isMasked_mask : IsMasked MASK := List.infix_refl _

theorem not_isMasked_empty : ¬IsMasked "" := by decide

theorem not_isMasked_of_falsy {v : Option Json} {value : String} (hfalsy : truthy v = false)
    (hvalue : v.bind Json.asStr? = some value) : ¬IsMasked value := by
  obtain ⟨json, rfl, hstr⟩ := Option.bind_eq_some_iff.mp hvalue
  cases json with
  | str s =>
    obtain rfl := Option.some.inj hstr
    have hempty : s = "" := by simpa [truthy] using hfalsy
    rw [hempty]
    exact not_isMasked_empty
  | null | bool b | num q | arr xs | obj fs => cases hstr

theorem redactMcpUrl_kept {url : Option String} :
    (∀ v ∈ (redactMcpUrl runtime url).toList, ¬IsMasked v) ↔ KeptUrl runtime url := by
  cases url with
  | none => exact ⟨fun _ => nofun, fun _ => nofun⟩
  | some u =>
    have hsome : (∀ v ∈ (redactMcpUrl runtime (some u)).toList, ¬IsMasked v) ↔
        ¬IsMasked ((redactMcpUrl runtime (some u)).getD "") := by
      exact List.forall_mem_singleton
    have hkept : KeptUrl runtime (some u) ↔ (u ≠ "" →
        (∃ parsed, runtime.parseUrl u = some parsed ∧ parsed.hasSecretBearingParts = false) ∧ ¬IsMasked u) := by
      simp [KeptUrl]
    rw [hsome, hkept, redactMcpUrl, Option.map_some, Option.getD_some]
    by_cases hempty : u = ""
    · rw [if_pos hempty, hempty]
      exact ⟨fun _ hne => absurd rfl hne, fun _ => not_isMasked_empty⟩
    · rw [if_neg hempty]
      cases hparse : runtime.parseUrl u with
      | none => exact ⟨fun h => absurd isMasked_mask h, fun h => by obtain ⟨⟨_, hp, -⟩, -⟩ := h hempty; cases hp⟩
      | some parsed =>
        dsimp only
        by_cases hsecret : parsed.hasSecretBearingParts = true
        · rw [if_pos hsecret]
          have hmasked : IsMasked (parsed.origin ++ "/" ++ MASK) := by
            rw [IsMasked, String.toList_append]
            exact List.infix_append_of_infix_right (List.infix_refl _)
          refine ⟨fun h => absurd hmasked h, fun h => ?_⟩
          obtain ⟨⟨parsed', hp, hfree⟩, -⟩ := h hempty
          obtain rfl := Option.some.inj hp
          rw [hsecret] at hfree
          cases hfree
        · rw [if_neg hsecret]
          exact ⟨fun h _ => ⟨⟨parsed, rfl, Bool.eq_false_of_not_eq_true hsecret⟩, h⟩, fun h => (h hempty).2⟩

theorem recordValues_masked {record : Option (Record String)} :
    (∀ v ∈ recordValues (record.map maskAllStringRecord), ¬IsMasked v) ↔ NoEntries record := by
  cases record with
  | none => exact ⟨fun _ => nofun, fun _ => nofun⟩
  | some r =>
    have hvalues : ∀ v, v ∈ recordValues (some (maskAllStringRecord r)) ↔ ∃ q ∈ r.rows, v = MASK := by
      intro v
      simp only [recordValues, maskAllStringRecord, Option.toList_some, List.flatMap_singleton, List.mem_map,
        Record.mem_mapValues]
      constructor
      · rintro ⟨p, ⟨q, hq, rfl⟩, rfl⟩
        exact ⟨q, hq, rfl⟩
      · rintro ⟨q, hq, rfl⟩
        exact ⟨_, ⟨q, hq, rfl⟩, rfl⟩
    constructor
    · intro h r' hr
      obtain rfl := Option.some.inj hr
      rw [List.eq_nil_iff_forall_not_mem]
      intro q hq
      exact h MASK ((hvalues MASK).mpr ⟨q, hq, rfl⟩) isMasked_mask
    · intro h v hv
      obtain ⟨q, hq, -⟩ := (hvalues v).mp hv
      rw [h r rfl] at hq
      cases hq

theorem recordValues_cleared {record : Option (Record String)} :
    ∀ v ∈ recordValues ((record.map maskAllStringRecord).map clearMaskedRecord), ¬IsMasked v := by
  cases record with
  | none => nofun
  | some r =>
    intro v hv
    simp only [recordValues, Option.map_some, Option.toList_some, List.flatMap_singleton, List.mem_map] at hv
    obtain ⟨p, hp, rfl⟩ := hv
    obtain ⟨q, hq, rfl⟩ := Record.mem_mapValues.mp hp
    obtain ⟨q', -, rfl⟩ := Record.mem_mapValues.mp hq
    exact not_isMasked_empty

theorem secretValues_maskTruthy {keys : List String} {fs : Fields} :
    (∀ v ∈ secretValues keys (maskTruthy keys fs), ¬IsMasked v) ↔ ∀ k ∈ keys, truthy (fs.get? k) = false := by
  constructor
  · intro h k hk
    rw [← Bool.not_eq_true]
    intro htruthy
    refine h MASK (List.mem_filterMap.mpr ⟨k, hk, ?_⟩) isMasked_mask
    rw [get?_maskTruthy, if_pos ⟨hk, htruthy⟩]
    rfl
  · intro h v hv
    obtain ⟨k, hk, hv⟩ := List.mem_filterMap.mp hv
    have hfalsy := h k hk
    rw [get?_maskTruthy, if_neg (by simp [hfalsy])] at hv
    exact not_isMasked_of_falsy hfalsy hv

theorem secretValues_importedTarget {target : Fields} :
    (∀ v ∈ secretValues ["apiKey"] (importedA2ARouteTarget (maskTruthy ["apiKey"] target)), ¬IsMasked v) ↔
      (truthy (target.get? "apiKey") = true → target.get? "type" = some (.str "remote")) := by
  have htype : (maskTruthy ["apiKey"] target).get? "type" = target.get? "type" := by
    rw [get?_maskTruthy, if_neg (by simp)]
  have hmasked : (∀ v ∈ secretValues ["apiKey"] (maskTruthy ["apiKey"] target), ¬IsMasked v) ↔
      truthy (target.get? "apiKey") = false := secretValues_maskTruthy.trans List.forall_mem_singleton
  unfold importedA2ARouteTarget
  split
  · rename_i hremote
    rw [htype] at hremote
    refine ⟨fun _ _ => hremote.1, fun _ v hv => ?_⟩
    obtain ⟨k, hk, hv⟩ := List.mem_filterMap.mp hv
    rw [List.mem_singleton.mp hk, Fields.get?_erase, if_pos rfl] at hv
    cases hv
  · rename_i hkept
    rw [hmasked]
    rw [htype, get?_maskTruthy] at hkept
    cases htruthy : truthy (target.get? "apiKey") with
    | false => exact ⟨fun _ => nofun, fun _ => rfl⟩
    | true =>
      rw [if_pos ⟨List.mem_singleton_self _, htruthy⟩] at hkept
      exact ⟨nofun, fun h => absurd ⟨h rfl, rfl⟩ hkept⟩

theorem providerChain_importedConfig (config : Option Fields) :
    providerChain (importedConfig importer config) = providerChain config := by
  unfold importedConfig
  split
  · have hget : (some ((config.getD .nil).set "memoryEnabled" (.bool false))).bind (·.get? "providerChain") =
        config.bind (·.get? "providerChain") := by
      rw [Option.bind_some, Fields.get?_set, if_neg (by decide)]
      cases config <;> rfl
    rw [providerChain, hget, providerChain]
  · rfl

theorem toList_ofList (items : List Json) : (Elems.ofList items).toList = items := by
  induction items with
  | nil => rfl
  | cons item items ih => rw [Elems.ofList, Elems.toList, ih]

theorem providerChain_sanitized (config : Option Fields) : providerChain (config.map sanitizeProviderChainConfig) =
      (providerChain config).map (maskTruthy PROVIDER_SECRETS) := by
  cases config with
  | none => rfl
  | some config =>
    unfold providerChain sanitizeProviderChainConfig
    simp only [Option.map_some, Option.bind_some]
    cases hchain : config.get? "providerChain" with
    | none => simp [hchain]
    | some chain =>
      cases chain with
      | arr items =>
        simp only [Fields.get?_set, if_true, toList_ofList, List.filterMap_map, List.map_filterMap]
        congr 1
        funext item
        cases item <;> rfl
      | null | bool b | num q | str s | obj fs => simp [hchain]

theorem sensitiveEnv_imported (agent : AgentRow) :
    ∀ v ∈ (importedAgent runtime importer (sanitizeAgent runtime agent)).sensitiveEnv runtime, ¬IsMasked v := by
  intro v hv
  obtain ⟨p, hp, rfl⟩ := List.mem_map.mp hv
  obtain ⟨hp, hsensitive⟩ := List.mem_filter.mp hp
  rw [importedAgent, sanitizeAgent] at hp
  dsimp only at hp
  cases hrow : agent.env with
  | none =>
    rw [hrow] at hp
    cases hp
  | some env =>
    simp only [hrow, Option.map_some, Option.toList_some, List.flatMap_singleton] at hp
    obtain ⟨q, hq, rfl⟩ := Record.mem_mapValues.mp hp
    obtain ⟨entry, -, rfl⟩ := Record.mem_mapValues.mp hq
    dsimp only at hsensitive ⊢
    by_cases hentry : (entry.value.sensitive || isSensitiveKey runtime entry.key) = true
    · rw [if_pos hentry, importedEnvEntry, if_pos (by simp [hentry])]
      exact not_isMasked_empty
    · rw [if_neg hentry, importedEnvEntry, if_neg (by simp [Bool.eq_false_of_not_eq_true hentry])] at hsensitive
      exact absurd hsensitive hentry

def importedCredentials (mcp : ExportedMcpServer) : List String :=
  mcp.url.toList ++ recordValues (mcp.headers.map clearMaskedRecord) ++ recordValues (mcp.env.map clearMaskedRecord) ++
    mcp.groupConfig.toList.flatMap fun groupConfig =>
      (inlineBackends groupConfig).flatMap fun b => inlineCredentials b.2

theorem importMcpServers_credentials {names : List String} {n : Nat} {mcps : List ExportedMcpServer}
    {rows : List McpServer} (h : importMcpServers importer names n mcps = .ok rows) :
    rows.flatMap mcpCredentials = mcps.flatMap importedCredentials := by
  induction mcps generalizing names n rows with
  | nil =>
    cases h
    rfl
  | cons mcp mcps ih =>
    rw [importMcpServers] at h
    cases hrow : importMcpServer importer names (importer.createId n) mcp with
    | error message =>
      rw [hrow] at h
      cases h
    | ok row =>
      rw [hrow] at h
      cases hrest : importMcpServers importer (row.name :: names) (n + 1) mcps with
      | error message =>
        rw [Except.bind, hrest] at h
        cases h
      | ok rest =>
        rw [Except.bind, hrest] at h
        cases h
        have hcredentials : mcpCredentials row = importedCredentials mcp := by
          unfold importMcpServer at hrow
          split at hrow
          · cases hrow
          · cases hsafe : assertImportedMcpUrlsSafe importer mcp with
            | error message =>
              rw [hsafe] at hrow
              cases hrow
            | ok _ =>
              rw [hsafe] at hrow
              cases hrow
              rfl
        rw [List.flatMap_cons, List.flatMap_cons, hcredentials, ih hrest]

theorem inlineBackends_redacted (groupConfig : GroupConfig) :
    inlineBackends (redactMcpGroupConfig runtime groupConfig) =
      (inlineBackends groupConfig).map fun b => (b.1, redactInline runtime b.2) := by
  unfold inlineBackends redactMcpGroupConfig
  rw [List.flatMap_map, List.map_flatMap]
  congr 1
  funext g
  simp only [List.filterMap_filterMap, List.map_filterMap]
  congr 1
  funext backend
  cases backend <;> rfl

theorem inlineCredentials_redacted {backend : InlineBackend} :
    (∀ v ∈ inlineCredentials (redactInline runtime backend), ¬IsMasked v) ↔
      KeptUrl runtime backend.url ∧ NoEntries backend.headers ∧ NoEntries backend.env := by
  unfold inlineCredentials
  rw [List.forall_mem_append, List.forall_mem_append, and_assoc]
  exact and_congr redactMcpUrl_kept (and_congr recordValues_masked recordValues_masked)

theorem importedCredentials_sanitized {mcp : McpServer} :
    (∀ v ∈ importedCredentials (sanitizeMcpServer runtime mcp), ¬IsMasked v) ↔ KeptUrl runtime mcp.url ∧
      (mcp.type = .group → ∀ groupConfig, mcp.groupConfig = some groupConfig → ∀ b ∈ inlineBackends groupConfig,
          KeptUrl runtime b.2.url ∧ NoEntries b.2.headers ∧ NoEntries b.2.env) := by
  have hgroup : (∀ v ∈ (sanitizeMcpServer runtime mcp).groupConfig.toList.flatMap fun groupConfig =>
      (inlineBackends groupConfig).flatMap fun b => inlineCredentials b.2, ¬IsMasked v) ↔
      (mcp.type = .group → ∀ groupConfig, mcp.groupConfig = some groupConfig → ∀ b ∈ inlineBackends groupConfig,
          KeptUrl runtime b.2.url ∧ NoEntries b.2.headers ∧ NoEntries b.2.env) := by
    unfold sanitizeMcpServer
    dsimp only
    by_cases htype : mcp.type = .group
    · rw [if_pos htype]
      cases mcp.groupConfig with
      | none => exact ⟨fun _ _ => nofun, fun _ => nofun⟩
      | some groupConfig =>
        rw [Option.map_some, Option.toList_some, List.flatMap_singleton, inlineBackends_redacted,
          List.forall_mem_flatMap, List.forall_mem_map]
        refine ⟨fun h _ gc hgc b hb => ?_, fun h b hb => ?_⟩
        · obtain rfl := Option.some.inj hgc
          exact inlineCredentials_redacted.mp (h b hb)
        · exact inlineCredentials_redacted.mpr (h htype groupConfig rfl b hb)
    · rw [if_neg htype]
      exact ⟨fun _ h => absurd h htype, fun _ => nofun⟩
  unfold importedCredentials
  rw [List.forall_mem_append, List.forall_mem_append, List.forall_mem_append, hgroup]
  refine and_congr_left fun _ => ?_
  rw [and_assoc]
  refine ⟨fun h => redactMcpUrl_kept.mp h.1, fun h => ⟨redactMcpUrl_kept.mpr h, ?_, ?_⟩⟩
  · exact recordValues_cleared
  · exact recordValues_cleared

theorem channelSecrets_imported {agent : AgentRow} :
    (∀ v ∈ (importedAgent runtime importer (sanitizeAgent runtime agent)).channelSecrets, ¬IsMasked v) ↔
      agent.feishuConfig = none := by
  rw [AgentRow.channelSecrets, importedAgent, sanitizeAgent]
  dsimp only
  cases agent.feishuConfig with
  | none => exact ⟨fun _ => rfl, fun _ => nofun⟩
  | some feishuConfig =>
    refine ⟨fun h => absurd isMasked_mask (h MASK ?_), nofun⟩
    simp [secretValues, Fields.get?_set, Json.asStr?]

theorem chainSecrets_imported {agent : AgentRow} :
    (∀ v ∈ (providerChain (importedAgent runtime importer (sanitizeAgent runtime agent)).config).flatMap
      (secretValues PROVIDER_SECRETS), ¬IsMasked v) ↔
      ∀ item ∈ providerChain agent.config, ∀ k ∈ PROVIDER_SECRETS, truthy (item.get? k) = false := by
  rw [importedAgent, sanitizeAgent, providerChain_importedConfig, providerChain_sanitized, List.forall_mem_flatMap,
    List.forall_mem_map]
  simp only [secretValues_maskTruthy]

theorem routeKeys_imported {agent : AgentRow} :
    (∀ v ∈ ((importedAgent runtime importer (sanitizeAgent runtime agent)).a2aRouteTargets.getD []).flatMap
      (secretValues ["apiKey"]), ¬IsMasked v) ↔
      ∀ target ∈ agent.a2aRouteTargets.getD [], truthy (target.get? "apiKey") = true →
        target.get? "type" = some (.str "remote") := by
  rw [importedAgent, sanitizeAgent]
  dsimp only
  cases agent.a2aRouteTargets with
  | none => exact ⟨fun _ => nofun, fun _ => nofun⟩
  | some targets =>
    simp only [Option.map_some, Option.getD_some]
    rw [List.forall_mem_flatMap, List.forall_mem_map, List.forall_mem_map]
    simp only [secretValues_importedTarget]

/-- What an import of an exported bundle stores is free of the placeholder exactly when nothing was overwritten that
the import does not clear. -/
theorem import_stores_no_mask_iff {agent stored : AgentRow} {mcpRows rows : List McpServer} {names : List String}
    (h : importAgentFromZip runtime importer names (buildExportZip runtime agent mcpRows) = .ok (stored, rows)) :
    (∀ v ∈ stored.credentials runtime ++ rows.flatMap mcpCredentials, ¬IsMasked v) ↔
      MaskFree runtime agent mcpRows := by
  unfold importAgentFromZip at h
  cases hmcps : importMcpServers importer names 0 (buildExportZip runtime agent mcpRows).mcpServers with
  | error message =>
    rw [hmcps] at h
    cases h
  | ok mcps =>
    rw [hmcps, Except.bind] at h
    dsimp only at h
    cases hchain : (((buildExportZip runtime agent mcpRows).agent.config.bind (·.get? "providerChain")).map
        importer.providerChainSchema).getD (.ok ()) with
    | error message =>
      rw [hchain] at h
      cases h
    | ok _ =>
      rw [hchain] at h
      cases h
      have hagent : (buildExportZip runtime agent mcpRows).agent = sanitizeAgent runtime agent := rfl
      have hmcp : (∀ v ∈ rows.flatMap mcpCredentials, ¬IsMasked v) ↔ ∀ mcp ∈ mcpRows,
          ∀ v ∈ importedCredentials (sanitizeMcpServer runtime mcp), ¬IsMasked v := by
        rw [importMcpServers_credentials hmcps, buildExportZip, List.forall_mem_flatMap, List.forall_mem_map]
      rw [List.forall_mem_append, hmcp, hagent, AgentRow.credentials, List.forall_mem_append, List.forall_mem_append,
        List.forall_mem_append, channelSecrets_imported, chainSecrets_imported, routeKeys_imported]
      simp only [importedCredentials_sanitized]
      constructor
      · rintro ⟨⟨⟨⟨hfeishu, hitems⟩, hroutes⟩, -⟩, hservers⟩
        exact ⟨hfeishu, hitems, hroutes, fun mcp hmem => (hservers mcp hmem).1,
          fun mcp hmem => (hservers mcp hmem).2⟩
      · intro hfree
        exact ⟨⟨⟨⟨hfree.feishu, hfree.providerChain⟩, hfree.routes⟩, sensitiveEnv_imported agent⟩,
          fun mcp hmem => ⟨hfree.urls mcp hmem, hfree.backends mcp hmem⟩⟩

end Masked

section Examples

def exampleRuntime : Runtime :=
  { toLowerCase := id
    parseUrl := fun value => if value = "https://mcp.example" then some { origin := value } else none }

def exampleImporter : Importer :=
  { userId := "u", isAdmin := true, assertSafeStrictUrl := fun _ => true, providerChainSchema := fun _ => .ok ()
    createId := fun n => if n = 0 then "mcp_0" else "mcp_1" }

def exampleAgent : AgentRow :=
  { env := some ⟨[⟨"API_KEY", { value := "k", sensitive := false }⟩], by decide⟩
    slackConfig := some (.ofList [("botToken", .str "xoxb")])
    a2aRouteTargets := some [.ofList [("type", .str "remote"), ("apiKey", .str "a2a")]] }

def exampleMcpRows : List McpServer :=
  [{ id := "mcp", name := "m", type := .http, url := some "https://mcp.example"
     headers := some ⟨[⟨"Authorization", "Bearer t"⟩], by decide⟩ }]

theorem import_stores_no_mask_iff_cleared : ∃ stored rows,
    importAgentFromZip exampleRuntime exampleImporter [] (buildExportZip exampleRuntime exampleAgent exampleMcpRows) =
      .ok (stored, rows) ∧
      ∀ v ∈ stored.credentials exampleRuntime ++ rows.flatMap mcpCredentials, ¬IsMasked v := by
  obtain ⟨⟨stored, rows⟩, h⟩ : ∃ result, importAgentFromZip exampleRuntime exampleImporter []
      (buildExportZip exampleRuntime exampleAgent exampleMcpRows) = .ok result := ⟨_, rfl⟩
  refine ⟨stored, rows, h, (import_stores_no_mask_iff h).mpr ?_⟩
  refine ⟨rfl, nofun, ?_, ?_, ?_⟩
  · intro target htarget _
    rw [List.mem_singleton.mp htarget]
    rfl
  · intro mcp hmem u hu _
    rw [List.mem_singleton.mp hmem] at hu
    obtain rfl := Option.some.inj hu
    exact ⟨⟨{ origin := "https://mcp.example" }, rfl, by decide +kernel⟩, by decide +kernel⟩
  · intro mcp hmem htype
    rw [List.mem_singleton.mp hmem] at htype
    cases htype

theorem feishu_mask_is_stored : ¬∀ (runtime : Runtime) (importer : Importer) (names : List String)
    (agent stored : AgentRow) (mcpRows rows : List McpServer),
    importAgentFromZip runtime importer names (buildExportZip runtime agent mcpRows) = .ok (stored, rows) →
      ∀ v ∈ stored.credentials runtime ++ rows.flatMap mcpCredentials, ¬IsMasked v := by
  intro h
  refine h exampleRuntime exampleImporter [] { feishuConfig := some (.ofList [("appSecret", .str "s3cret")]) } _ [] _
    rfl MASK ?_ isMasked_mask
  decide +kernel

end Examples

end A2Wave.AgentBundle
