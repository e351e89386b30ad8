import A2Wave.Lib.Record

/-! The MCP server rows of `db/schema.sqlite.ts`, the predicates of `lib/mcp-stdio.ts` on them, and the names of
`lib/seed-builtin-mcp.ts`. -/

namespace A2Wave

inductive McpType
  | stdio
  | sse
  | http
  | group
  deriving DecidableEq, Repr

inductive McpUsageScope
  | «private»
  | adminOnly
  | allUsers
  deriving DecidableEq, Repr

structure InlineBackend where
  name : String
  type : McpType
  command : Option String := none
  args : Option (List String) := none
  cwd : Option String := none
  url : Option String := none
  headers : Option (Record String) := none
  env : Option (Record String) := none

inductive GroupBackend
  | inline (backend : InlineBackend)
  | ref (mcpServerId : String)

structure GroupConfig where
  backends : List (String × List GroupBackend)

structure McpServer where
  id : String
  name : String
  description : Option String := none
  type : McpType := .stdio
  command : Option String := none
  args : List String := []
  cwd : Option String := none
  url : Option String := none
  headers : Option (Record String) := none
  env : Option (Record String) := none
  groupConfig : Option GroupConfig := none
  isEnabled : Bool := false
  usageScope : McpUsageScope := .private
  userId : Option String := none

instance : Keyed McpServer String := ⟨McpServer.id⟩

def GroupBackend.isInlineStdio : GroupBackend → Bool
  | inline backend => backend.type = .stdio
  | ref _ => false

def introducesStdioExecution (type : McpType) (groupConfig : Option GroupConfig) : Bool :=
  match type, groupConfig with
  | .stdio, _ => true
  | .group, some groupConfig => groupConfig.backends.any fun g => g.2.any GroupBackend.isInlineStdio
  | _, _ => false

def resolveUsageScope (type : McpType) (groupConfig : Option GroupConfig) (requested : Option McpUsageScope)
    (isAdmin : Bool) (fallback : McpUsageScope) : McpUsageScope :=
  if introducesStdioExecution type groupConfig then .adminOnly
  else
    match requested with
    | none => fallback
    | some requested => if isAdmin then requested else if requested = .private then .private else fallback

def canNonAdminUseMcp (row : McpServer) (callerId : Option String) : Bool :=
  match row.usageScope with
  | .allUsers => true
  | .private => row.userId.isSome && row.userId = callerId
  | .adminOnly => false

def ROUTER_MCP_NAME : String := "a2wave-agent-router"

def PLATFORM_ADMIN_MCP_NAME : String := "a2wave-platform-admin"

def isOwnerSafeBuiltinMcp (name : String) (userId : Option String) : Bool := userId.isNone && name = ROUTER_MCP_NAME

def isControlPlaneOnlyBuiltinMcp (name : String) (userId : Option String) : Bool :=
  userId.isNone && name = PLATFORM_ADMIN_MCP_NAME

end A2Wave
