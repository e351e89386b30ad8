import Mathlib
import A2Wave.Agent.McpServer
import A2Wave.Lib.Json

/-! What `lib/agent-export.ts` and `lib/mcp-redaction.ts` put into a bundle in the place of credentials. -/

namespace A2Wave.AgentBundle

def MASK : String := "********"

structure Url where
  origin : String
  username : String := ""
  password : String := ""
  search : String := ""
  hash : String := ""
  pathname : String := "/"

structure Runtime where
  toLowerCase : String → String
  parseUrl : String → Option Url

structure EnvEntry where
  value : String
  sensitive : Bool
  deriving DecidableEq

structure AgentRow where
  config : Option Fields := none
  env : Option (Record EnvEntry) := none
  feishuConfig : Option Fields := none
  slackConfig : Option Fields := none
  discordConfig : Option Fields := none
  telegramConfig : Option Fields := none
  qqOfficialConfig : Option Fields := none
  a2aRouteTargets : Option (List Fields) := none

structure ExportedMcpServer where
  name : String
  description : Option String
  type : McpType
  command : Option String
  args : List String
  cwd : Option String
  url : Option String
  headers : Option (Record String)
  env : Option (Record String)
  isEnabled : Bool
  groupConfig : Option GroupConfig

/-- The files of a bundle: `agent.json`, and those of `mcp-servers/` in the order of the references. -/
structure Bundle where
  agent : AgentRow
  mcpServers : List ExportedMcpServer

section Keys

def SENSITIVE_WORDS : List String := ["token", "secret", "key", "password", "passwd", "credential"]

def SENSITIVE_SUBSTRINGS : List String := ["auth", "passwd", "password", "credential"]

def snakeCase : List Char → List Char
  | c :: d :: cs => if c.isLower && d.isUpper then c :: '_' :: snakeCase (d :: cs) else c :: snakeCase (d :: cs)
  | cs => cs

def splitKeyWords (runtime : Runtime) (key : String) : List String :=
  let text := runtime.toLowerCase (String.ofList (snakeCase key.toList))
  ((text.toList.splitOnP fun c => "_-./".toList.contains c).map String.ofList).filter (· ≠ "")

def includes (text part : String) : Bool := decide (part.toList <:+: text.toList)

def isSensitiveKey (runtime : Runtime) (key : String) : Bool :=
  (splitKeyWords runtime key).any SENSITIVE_WORDS.contains ||
    SENSITIVE_SUBSTRINGS.any (includes (runtime.toLowerCase key))

end Keys

section Redaction

variable (runtime : Runtime)

def Url.hasSecretBearingParts (url : Url) : Bool :=
  url.username ≠ "" || url.password ≠ "" || url.search ≠ "" || url.hash ≠ "" || url.pathname.toList.any (· ≠ '/')

def redactMcpUrl (value : Option String) : Option String :=
  value.map fun value =>
    if value = "" then value
    else
      match runtime.parseUrl value with
      | some parsed => if parsed.hasSecretBearingParts then parsed.origin ++ "/" ++ MASK else value
      | none => MASK

def maskAllStringRecord (record : Record String) : Record String := record.mapValues fun _ _ => MASK

def redactInline (backend : InlineBackend) : InlineBackend :=
  { backend with
    url := redactMcpUrl runtime backend.url
    env := backend.env.map maskAllStringRecord
    headers := backend.headers.map maskAllStringRecord }

/-- `redactMcpGroupConfig` with `dropRefBackends`. -/
def redactMcpGroupConfig (groupConfig : GroupConfig) : GroupConfig :=
  { backends := groupConfig.backends.map fun (groupKey, list) =>
      (groupKey, list.filterMap fun
        | .inline backend => some (.inline (redactInline runtime backend))
        | .ref _ => none) }

def sanitizeMcpServer (mcp : McpServer) : ExportedMcpServer :=
  { name := mcp.name, description := mcp.description, type := mcp.type, command := mcp.command, args := mcp.args
    cwd := mcp.cwd
    url := redactMcpUrl runtime mcp.url
    headers := mcp.headers.map maskAllStringRecord
    env := mcp.env.map maskAllStringRecord
    isEnabled := mcp.isEnabled
    groupConfig := if mcp.type = .group then mcp.groupConfig.map (redactMcpGroupConfig runtime) else none }

end Redaction

def maskTruthy (keys : List String) (fs : Fields) : Fields :=
  keys.foldl (fun fs k => if truthy (fs.get? k) then fs.set k (.str MASK) else fs) fs

def PROVIDER_SECRETS : List String := ["providerApiKey", "providerBaseUrl", "providerOauthToken"]

def maskItem : Json → Json
  | .obj fs => .obj (maskTruthy PROVIDER_SECRETS fs)
  | item => item

def sanitizeProviderChainConfig (config : Fields) : Fields :=
  match config.get? "providerChain" with
  | some (.arr items) => config.set "providerChain" (.arr (.ofList (items.toList.map maskItem)))
  | _ => config

def sanitizeAgent (runtime : Runtime) (agent : AgentRow) : AgentRow :=
  { config := agent.config.map sanitizeProviderChainConfig
    env := agent.env.map fun env => env.mapValues fun key entry =>
      if entry.sensitive || isSensitiveKey runtime key then { entry with value := MASK } else entry
    feishuConfig := agent.feishuConfig.map (·.set "appSecret" (.str MASK))
    slackConfig := agent.slackConfig.map fun slackConfig =>
      (slackConfig.set "appToken" (.str MASK)).set "botToken" (.str MASK)
    discordConfig := agent.discordConfig.map (·.set "botToken" (.str MASK))
    telegramConfig := agent.telegramConfig.map (·.set "botToken" (.str MASK))
    qqOfficialConfig := agent.qqOfficialConfig.map (·.set "appSecret" (.str MASK))
    a2aRouteTargets := agent.a2aRouteTargets.map fun targets => targets.map (maskTruthy ["apiKey"]) }

def buildExportZip (runtime : Runtime) (agent : AgentRow) (mcpRows : List McpServer) : Bundle :=
  { agent := sanitizeAgent runtime agent, mcpServers := mcpRows.map (sanitizeMcpServer runtime) }

section Lemmas

theorem maskTruthy_cons (k : String) (keys : List String) (fs : Fields) : maskTruthy (k :: keys) fs =
      maskTruthy keys (if truthy (fs.get? k) then fs.set k (.str MASK) else fs) := rfl

theorem get?_maskTruthy (keys : List String) (fs : Fields) (k : String) : (maskTruthy keys fs).get? k =
      if k ∈ keys ∧ truthy (fs.get? k) = true then some (.str MASK) else fs.get? k := by
  induction keys generalizing fs with
  | nil => simp [maskTruthy]
  | cons l keys ih =>
    rw [maskTruthy_cons, ih]
    by_cases hl : truthy (fs.get? l) = true
    · rw [if_pos hl, Fields.get?_set]
      by_cases hlk : l = k
      · subst hlk
        have hmask : truthy (some (.str MASK)) = true := by decide
        simp [hl, hmask]
      · simp [hlk, Ne.symm hlk]
    · rw [if_neg hl]
      by_cases hlk : k = l
      · subst hlk
        simp [hl]
      · simp [hlk]

end Lemmas

end A2Wave.AgentBundle
