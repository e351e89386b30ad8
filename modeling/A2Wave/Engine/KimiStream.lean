import A2Wave.Engine.StreamLog

/-! The parser of the Kimi CLI's output lines. -/

namespace A2Wave.KimiStream

open Utf16 (Text Value ascii newline)
open JsValue StreamLog

section Parser

variable {N : Type}

structure State where
  sessionId : Option Text
  outputBuffer : Text
  resultIsError : Bool
  resultErrorText : Text
  toolNameByCallId : List (Text × Text)

def initial (initialSessionId : Option Text) : State := ⟨initialSessionId, [], false, [], []⟩

/-- The text of a block of type `text`. -/
def blockText (block : Value N) : Text :=
  if isText (getProp (some block) "type") "text" then
    (text? (getProp (some block) "text")).getD []
  else []

def extractTextContent (content : Val N) : Text :=
  match text? content with
  | some text => text
  | none => ((asArray content).getD []).flatMap blockText

variable (js : Numbers N)

def tryParseJsonObject (text : Text) : Option (Utf16.Fields N) :=
  (Utf16.parse js.toNumberFormat text).bind fun v => asObject (some v)

def toolCallInput (arguments : Val N) : Option (Utf16.Fields N) :=
  match text? arguments with
  | some text => tryParseJsonObject js text
  | none => asObject arguments

def handleToolCall (s : State) (toolCall : Value N) : Except JsError (State × List (Effect N)) :=
  if isObject (some toolCall) then do
    let fn := orElse (getProp (some toolCall) "function") emptyObject
    let callId := (text? (getProp (some toolCall) "id")).getD []
    let name ← prop fn "name"
    let arguments ← prop fn "arguments"
    let toolName := (nonEmptyText? name).getD (ascii "unknown")
    let entry := StreamLogEntry.toolCall .started (some (.str callId)) (some (.str toolName))
      (toolCallInput js arguments) none none
    return if callId = [] then (s, [.onLogEntry entry])
      else ({ s with toolNameByCallId := putName (· == ·) s.toolNameByCallId callId toolName },
        [.onLogEntry entry, .heartbeatStarted (some (.str callId)) (some (.str toolName))])
  else .ok (s, [])

def handleToolCalls (s : State) (rawToolCalls : Val N) : Except JsError (State × List (Effect N)) :=
  forEach (handleToolCall js) s ((asArray rawToolCalls).getD [])

def handleText (s : State) (text : Text) : State × List (Effect N) :=
  if text = [] then (s, [])
  else
    let outputBuffer := if s.outputBuffer = [] then text else s.outputBuffer ++ newline :: text
    ({ s with outputBuffer := outputBuffer }, [.onUpdate outputBuffer, .onLogEntry (.assistant text false)])

def handleToolResult (s : State) (data : Utf16.Fields N) : State × List (Effect N) :=
  let callId := (text? (data.get? (ascii "tool_call_id"))).getD []
  if callId = [] then (s, [])
  else
    let isError := isTrue (data.get? (ascii "is_error")) ||
      isText (data.get? (ascii "is_error")) "true"
    let errorText := if isError then extractTextContent (data.get? (ascii "content")) else []
    let toolName := (nameOf (· == ·) s.toolNameByCallId callId).getD []
    ({ s with toolNameByCallId := dropName (· == ·) s.toolNameByCallId callId },
      [.heartbeatSettled (some (.str callId)),
        .onLogEntry (.toolCall (if isError then .failed else .completed) (some (.str callId))
          (some (.str toolName)) none (if errorText = [] then none else some errorText) none)])

def handleError (s : State) (data : Utf16.Fields N) : State × List (Effect N) :=
  let content := extractTextContent (data.get? (ascii "content"))
  let message :=
    if content ≠ [] then content
    else ((nonEmptyText? (data.get? (ascii "message"))).or
      (nonEmptyText? (data.get? (ascii "error")))).getD (ascii "Unknown error")
  ({ s with resultIsError := true, resultErrorText := message }, [.onLogEntry (.error (some (.str message)))])

def handleAssistant (s : State) (data : Utf16.Fields N) : Except JsError (State × List (Effect N)) := do
  let calls ← handleToolCalls js s
    (if isTruthy js (data.get? (ascii "tool_calls")) then data.get? (ascii "tool_calls") else none)
  let text := handleText calls.1 (extractTextContent (data.get? (ascii "content")))
  return (text.1, calls.2 ++ text.2)

def handleData (s : State) (data : Utf16.Fields N) : Except JsError (State × List (Effect N)) :=
  let role := data.get? (ascii "role")
  if isText role "assistant" then handleAssistant js s data
  else if isText role "tool" then .ok (handleToolResult s data)
  else if isText role "meta" then
    .ok ({ s with sessionId := (nonEmptyText? (data.get? (ascii "session_id"))).or s.sessionId }, [])
  else if isText role "error" then .ok (handleError s data)
  else .ok (s, [])

def parseLine (s : State) (line : Text) : Except JsError (State × List (Effect N)) :=
  if Utf16.isBlank line then .ok (s, [])
  else match tryParseJsonObject js line with
    | none => .ok (s, [])
    | some data => handleData js s data

end Parser

section Total

variable {N : Type} {js : Numbers N}

theorem isOk_handleToolCall (s : State) (toolCall : Value N) : (handleToolCall js s toolCall).isOk = true := by
  rw [handleToolCall]
  split
  · have hfn : nullish (orElse (getProp (some toolCall) "function") emptyObject) = false :=
      nullish_orElse rfl
    simp only [prop_eq hfn]
    rfl
  · rfl

theorem isOk_handleAssistant (s : State) (data : Utf16.Fields N) : (handleAssistant js s data).isOk = true := by
  rw [handleAssistant, isOk_bind_return, handleToolCalls]
  exact isOk_forEach isOk_handleToolCall s _

theorem isOk_parseLine (s : State) (line : Text) : (parseLine js s line).isOk = true := by
  rw [parseLine]
  split
  · rfl
  split
  · rfl
  rw [handleData]
  split
  · exact isOk_handleAssistant s _
  split
  · rfl
  split
  · rfl
  split
  · rfl
  · rfl

end Total

end A2Wave.KimiStream
