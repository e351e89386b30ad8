import A2Wave.Engine.StreamLog

/-! The parser of the OpenCode CLI's output lines. -/

namespace A2Wave.OpencodeStream

open Utf16 (Text Value ascii)
open JsValue StreamLog

section Parser

structure OpencodeUsage (N : Type) where
  inputTokens : Option N
  outputTokens : Option N
  reasoningTokens : Option N
  totalTokens : Option N
  cacheReadTokens : Option N
  cacheWriteTokens : Option N

inductive ParsedOpencodeEvent (N : Type)
  | nonJson
  | unknown (msgType : Val N)
  | stepStarted
  | stepFinished (reason : Option Text) (final : Bool) (usage : Option (OpencodeUsage N))
      (cost : Option N)
  | assistantText (text : Text)
  | toolCall (toolName callId : Val N) (subtype : CallSubtype) (input : Val N)
      (error : Option Text)
  | error (message : Text)

structure ParsedOpencodeLine (N : Type) where
  events : List (ParsedOpencodeEvent N)
  msgType : Val N
  sessionId : Option Text

variable {N : Type}

def toolSubtype (status : Val N) : CallSubtype :=
  if isText status "completed" then .completed
  else if isText status "error" then .failed
  else .started

def OpencodeUsage.reported (usage : OpencodeUsage N) : Option (OpencodeUsage N) :=
  if usage.inputTokens.isSome || usage.outputTokens.isSome || usage.reasoningTokens.isSome ||
      usage.totalTokens.isSome || usage.cacheReadTokens.isSome || usage.cacheWriteTokens.isSome
  then some usage
  else none

def usageOf (tokens : Val N) : Option (OpencodeUsage N) :=
  let cache := getProp tokens "cache"
  if isObject tokens then
    OpencodeUsage.reported
      ⟨number? (getProp tokens "input"), number? (getProp tokens "output"),
        number? (getProp tokens "reasoning"), number? (getProp tokens "total"),
        number? (getProp cache "read"), number? (getProp cache "write")⟩
  else none

def extractUsage (part : Val N) : Except JsError (Option (OpencodeUsage N)) := do
  let tokens ← prop part "tokens"
  return usageOf tokens

def extractErrorMessage (raw : Val N) : Text :=
  ((nonEmptyText? raw).or <|
    (nonEmptyText? (getProp (getProp raw "data") "message")).or <|
      (nonEmptyText? (getProp raw "message")).or (nonEmptyText? (getProp raw "name"))).getD
    (ascii "Unknown opencode error")

variable (js : Numbers N)

def parseToolPart (part : Val N) : Except JsError (ParsedOpencodeEvent N) := do
  let state ← prop part "state"
  let state := orFalsy js state emptyObject
  let status ← prop state "status"
  let input ← prop state "input"
  let error ← prop state "error"
  let tool ← prop part "tool"
  let callId ← prop part "callID"
  return .toolCall (orFalsy js tool (literal "unknown")) (orFalsy js callId (literal ""))
    (toolSubtype status) (if isObject input then input else none) (nonEmptyText? error)

def parseStepFinish (part : Val N) : Except JsError (ParsedOpencodeEvent N) := do
  let reason ← prop part "reason"
  let usage ← extractUsage part
  let cost ← prop part "cost"
  return .stepFinished (text? reason) (isText reason "stop") usage (number? cost)

def parseText (part : Val N) : Except JsError (List (ParsedOpencodeEvent N)) := do
  let text ← prop part "text"
  return ((nonEmptyText? text).map ParsedOpencodeEvent.assistantText).toList

def parseMessage (data msgType part : Val N) : Except JsError (List (ParsedOpencodeEvent N)) :=
  if isText msgType "step_start" then .ok [.stepStarted]
  else if isText msgType "step_finish" then (parseStepFinish part).map fun event => [event]
  else if isText msgType "text" then parseText part
  else if isText msgType "tool_use" then (parseToolPart js part).map fun event => [event]
  else if isText msgType "error" then .ok [.error (extractErrorMessage (getProp data "error"))]
  else .ok (if isTruthy js msgType then [.unknown msgType] else [])

def parseData (data : Val N) : Except JsError (ParsedOpencodeLine N) :=
  if isObject data then do
    let msgType ← prop data "type"
    let sessionId ← prop data "sessionID"
    let part ← prop data "part"
    let events ← parseMessage js data msgType (orFalsy js part emptyObject)
    return ⟨events, msgType, nonEmptyText? sessionId⟩
  else .ok ⟨[.nonJson], none, none⟩

def parseOpencodeStreamLine (line : Text) : Except JsError (ParsedOpencodeLine N) :=
  match Utf16.parse js.toNumberFormat line with
  | none => .ok ⟨[.nonJson], none, none⟩
  | some data => parseData js (some data)

end Parser

section Total

variable {N : Type} {js : Numbers N} {part data : Val N}

theorem isOk_parseToolPart (h : nullish part = false) : (parseToolPart js part).isOk = true := by
  have hstate : ∀ v : Val N, nullish (orFalsy js v emptyObject) = false := fun v =>
    nullish_orFalsy rfl
  simp only [parseToolPart, prop_eq h, prop_eq (hstate _), bind, Except.bind]
  rfl

theorem isOk_parseStepFinish (h : nullish part = false) : (parseStepFinish part).isOk = true := by
  simp only [parseStepFinish, extractUsage, prop_eq h, bind, Except.bind]
  rfl

theorem isOk_parseText (h : nullish part = false) : (parseText part).isOk = true := by
  rw [parseText, isOk_bind_return, isOk_prop, h]
  rfl

theorem isOk_parseMessage (h : nullish part = false) (msgType : Val N) :
    (parseMessage js data msgType part).isOk = true := by
  rw [parseMessage]
  split
  · rfl
  split
  · rw [isOk_map, isOk_parseStepFinish h]
  split
  · exact isOk_parseText h
  split
  · rw [isOk_map, isOk_parseToolPart h]
  split
  · rfl
  · rfl

theorem isOk_parseData : (parseData js data).isOk = true := by
  rw [parseData]
  split
  · rename_i hobject
    have hdata : nullish data = false := nullish_of_isObject hobject
    rw [prop_eq hdata, prop_eq hdata, prop_eq hdata]
    change (parseMessage js data _ _ >>= fun events => pure _).isOk = true
    rw [isOk_bind_return, isOk_parseMessage (nullish_orFalsy rfl)]
  · rfl

theorem isOk_parseOpencodeStreamLine (line : Text) : (parseOpencodeStreamLine js line).isOk = true := by
  rw [parseOpencodeStreamLine]
  split
  · rfl
  · exact isOk_parseData

end Total

end A2Wave.OpencodeStream
