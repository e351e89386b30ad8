import A2Wave.Engine.StreamLog

/-! The parser of the Codex CLI's output lines. -/

namespace A2Wave.CodexStream

open Utf16 (Text Value ascii)
open JsValue StreamLog

section Parser

structure CodexUsage (N : Type) where
  inputTokens : Option N
  cachedInputTokens : Option N
  outputTokens : Option N

inductive ParsedCodexEvent (N : Type)
  | nonJson
  | unknown (msgType subtype : Val N)
  | session (chatId : Val N)
  | turnStarted
  | turnCompleted (usage : Option (CodexUsage N))
  | resultOther (subtype : String) (error : Option Text)
  | assistantText (text : Text)
  | toolCall (toolName callId : Val N) (input : Option (Utf16.Fields N)) (subtype : CallSubtype)
      (error : Option Text) (exitCode : Option N) (output : Option Text)
  | error (message : Text)

structure ParsedCodexLine (N : Type) where
  events : List (ParsedCodexEvent N)
  msgType : Val N
  subtype : Val N

inductive Phase
  | started
  | updated
  | completed
  deriving DecidableEq

def Phase.subtype : Phase → CallSubtype
  | .completed => .completed
  | _ => .started

variable {N : Type}

def optionalField (k : String) (v : Val N) (fs : Utf16.Fields N) : Utf16.Fields N :=
  match v with
  | none => fs
  | some v => .cons (ascii k) v fs

def commandInput (item : Val N) : Utf16.Fields N :=
  optionalField "command" ((text? (getProp item "command")).map .str) <|
    optionalField "tool" ((text? (getProp item "tool")).map .str) <|
      optionalField "arguments"
        (if isObject (getProp item "arguments") then getProp item "arguments" else none) .nil

variable (js : Numbers N)

def parseCommandItem (item : Val N) (phase : Phase) : ParsedCodexEvent N :=
  let toolName :=
    if isText (getProp item "type") "mcp_tool_call" then
      orFalsy js (getProp item "tool") (orFalsy js (getProp item "name") (literal "mcp"))
    else literal "shell"
  let callId := orFalsy js (getProp item "id") (literal "")
  let rawInput := commandInput item
  let input := if (names rawInput).isEmpty then none else some rawInput
  let status := getProp item "status"
  let failed :=
    phase = .completed && (isText status "failed" || isText status "error")
  let error := if failed then nonEmptyText? (getProp item "error") else none
  let output := if phase = .completed then toolResultText (getProp item "aggregated_output")
    else none
  let exitCode := if phase = .completed then number? (getProp item "exit_code") else none
  .toolCall toolName callId input (if failed then .failed else phase.subtype) error exitCode output

def parseItemEvent (data : Val N) (phase : Phase) : List (ParsedCodexEvent N) :=
  let item := getProp data "item"
  if !isObject item then []
  else
    let itemType := orFalsy js (getProp item "type") (literal "unknown")
    if isText itemType "agent_message" then
      if phase = .completed then
        ((nonEmptyText? (getProp item "text")).map ParsedCodexEvent.assistantText).toList
      else []
    else if isText itemType "command_execution" || isText itemType "mcp_tool_call" then
      if phase = .updated then [] else [parseCommandItem js item phase]
    else if isText itemType "reasoning" then []
    else if isText itemType "file_change" || isText itemType "plan_update" ||
        isText itemType "web_search" then
      if phase = .updated then []
      else [.toolCall itemType (orFalsy js (getProp item "id") (literal "")) none phase.subtype
        none none none]
    else [.unknown (literal "item") itemType]

def extractErrorMessage : Val N → Option Text
  | none => none
  | some .null => none
  | some (.str s) => if s = [] then none else some s
  | some (.bool b) => some (if b then Utf16.trueText else Utf16.falseText)
  | some (.num n) => some (js.print n)
  | some raw =>
    (nonEmptyText? (getProp (some raw) "message")).or <|
      (nonEmptyText? (getProp (some raw) "error")).or <|
        (nonEmptyText? (getProp (getProp (some raw) "error") "message")).or
          (some (Utf16.stringify js.toNumberFormat raw))

def extractUsage (data : Val N) : Option (CodexUsage N) :=
  let usage := getProp data "usage"
  if !isObject usage then none
  else
    let out : CodexUsage N :=
      ⟨number? (getProp usage "input_tokens"), number? (getProp usage "cached_input_tokens"),
        number? (getProp usage "output_tokens")⟩
    if out.inputTokens.isSome || out.cachedInputTokens.isSome || out.outputTokens.isSome then
      some out
    else none

def itemSubtype (data : Val N) : Val N :=
  (text? (getProp (getProp data "item") "type")).map .str

def parseItem (data msgType : Val N) (phase : Phase) : ParsedCodexLine N :=
  ⟨parseItemEvent js data phase, msgType, itemSubtype data⟩

def parseMessage (data msgType : Val N) : ParsedCodexLine N :=
  if isText msgType "thread.started" then
    let threadId := orFalsy js (getProp data "thread_id") (literal "")
    ⟨if isTruthy js threadId then [.session threadId] else [], msgType, none⟩
  else if isText msgType "thread.error" then
    -- an empty text, which `||` passes over, is never extracted
    let message := (extractErrorMessage js (getProp data "error")).or
      (extractErrorMessage js (getProp data "message"))
    ⟨[.error (message.getD (ascii "Unknown thread error"))], msgType, none⟩
  else if isText msgType "turn.started" then ⟨[.turnStarted], msgType, none⟩
  else if isText msgType "turn.completed" then
    ⟨[.turnCompleted (extractUsage data)], msgType, none⟩
  else if isText msgType "turn.failed" then
    let error := (extractErrorMessage js (getProp data "error")).or
      (extractErrorMessage js (getProp data "message"))
    ⟨[.resultOther "error" error], msgType, none⟩
  else if isText msgType "item.started" then parseItem js data msgType .started
  else if isText msgType "item.updated" then parseItem js data msgType .updated
  else if isText msgType "item.completed" then parseItem js data msgType .completed
  else ⟨if isTruthy js msgType then [.unknown msgType none] else [], msgType, none⟩

def parseData (data : Val N) : Except JsError (ParsedCodexLine N) := do
  let msgType ← prop data "type"
  return parseMessage js data msgType

def parseCodexStreamLine (line : Text) : Except JsError (ParsedCodexLine N) :=
  match Utf16.parse js.toNumberFormat line with
  | none => .ok ⟨[.nonJson], none, none⟩
  | some data => parseData js (some data)

variable {js}

theorem isOk_parseCodexStreamLine (line : Text) : (parseCodexStreamLine js line).isOk = true ↔
      ∀ data ∈ Utf16.parse js.toNumberFormat line, nullish (some data) = false := by
  rw [parseCodexStreamLine]
  cases Utf16.parse js.toNumberFormat line with
  | none => exact iff_of_true rfl nofun
  | some data =>
    change (parseData js (some data)).isOk = true ↔ _
    rw [parseData, isOk_bind_return, isOk_prop, Bool.not_eq_true']
    exact ⟨fun h _ hd => (Option.some.inj hd) ▸ h, fun h => h data rfl⟩

end Parser

end A2Wave.CodexStream
