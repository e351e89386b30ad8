import A2Wave.Engine.StreamLog

/-! The parser of output lines in the style of Claude Code, which two engines share. -/

namespace A2Wave.CcStream

open Utf16 (Text Value ascii newline)
open JsValue StreamLog

section Parser

structure State (N : Type) where
  sessionId : Option Text
  outputBuffer : Text
  resultReceived : Bool
  resultIsError : Bool
  resultErrorText : Val N
  lastUsage : Option (TokenUsage N)
  toolNameByCallId : List (Val N × Val N)

variable {N : Type}

def initial (initialSessionId : Option Text) : State N :=
  ⟨initialSessionId, [], false, false, literal "", none, []⟩

variable (js : Numbers N)

def tryParseJson (text : Text) : Option (Utf16.Fields N) :=
  (Utf16.parse js.toNumberFormat text).bind fun v => asObject (some v)

def joinedErrors (errors : Val N) : Text :=
  [newline].intercalate (((asArray errors).getD []).filterMap fun e => text? (some e))

def extractResultErrorText (data : Utf16.Fields N) : Text :=
  ((nonEmptyText? (data.get? (ascii "result"))).or
    (nonEmptyText? (data.get? (ascii "error")))).getD (joinedErrors (data.get? (ascii "errors")))

def sessionOf (s : State N) (data : Utf16.Fields N) : Option Text :=
  (nonEmptyText? (data.get? (ascii "session_id"))).or <|
    (nonEmptyText? (data.get? (ascii "chat_id"))).or s.sessionId

def handleSystem (s : State N) (data : Utf16.Fields N) : State N × List (Effect N) :=
  let subtype := data.get? (ascii "subtype")
  if isText subtype "thinking_tokens" then (s, [])
  else (s, [.onLogEntry (.system (orFalsy js subtype (literal "system"))
    (data.get? (ascii "model")))])

def handleStreamEvent (s : State N) (data : Utf16.Fields N) : State N × List (Effect N) :=
  let delta := getProp (data.get? (ascii "event")) "delta"
  match text? (getProp delta "text") with
  | none => (s, [])
  | some text =>
    if isText (getProp delta "type") "text_delta" then
      ({ s with outputBuffer := s.outputBuffer ++ text },
        [.onUpdate (s.outputBuffer ++ text), .onLogEntry (.assistant text true)])
    else (s, [])

def handleToolUse (s : State N) (block : Val N) : State N × List (Effect N) :=
  let callId := orFalsy js (getProp block "id") (literal "")
  let toolName := orFalsy js (getProp block "name") (literal "unknown")
  let entry := StreamLogEntry.toolCall .started callId toolName
    (asObject (getProp block "input")) none none
  if isTruthy js callId then
    ({ s with toolNameByCallId := putName (sameKey js) s.toolNameByCallId callId toolName },
      [.onLogEntry entry, .heartbeatStarted callId toolName])
  else (s, [.onLogEntry entry])

def handleBlock (s : State N) (block : Value N) : State N × List (Effect N) :=
  let type := getProp (some block) "type"
  if isText type "text" then
    match text? (getProp (some block) "text") with
    | none => (s, [])
    | some text =>
      ({ s with outputBuffer := s.outputBuffer ++ text },
        [.onUpdate (s.outputBuffer ++ text), .onLogEntry (.assistant text false)])
  else if isText type "tool_use" then handleToolUse js s (some block)
  else (s, [])

def messageContent (data : Utf16.Fields N) : List (Value N) :=
  (asArray (getProp (data.get? (ascii "message")) "content")).getD []

def handleResultBlock (s : State N) (block : Value N) : State N × List (Effect N) :=
  let callId := orFalsy js (getProp (some block) "tool_use_id") (literal "")
  if isText (getProp (some block) "type") "tool_result" && isTruthy js callId then
    let isError := isTrue (getProp (some block) "is_error")
    let resultText := toolResultText (getProp (some block) "content")
    let toolName := orElse ((nameOf (sameKey js) s.toolNameByCallId callId).getD none) (literal "")
    ({ s with toolNameByCallId := dropName (sameKey js) s.toolNameByCallId callId }, [.heartbeatSettled callId,
        .onLogEntry (.toolCall (if isError then .failed else .completed) callId toolName none
          (if isError then resultText else none) (if isError then none else resultText))])
  else (s, [])

variable (collectUsage : Bool)

def handleResult (s : State N) (data : Utf16.Fields N) : State N × List (Effect N) :=
  let usage := if collectUsage then extractClaudeStyleUsage (some (.obj data)) else none
  let isError := isTrue (data.get? (ascii "is_error"))
  let resultIsError := s.resultIsError || isError
  let resultText := nonEmptyText? (data.get? (ascii "result"))
  let outputBuffer := (resultText.map Utf16.trim).getD s.outputBuffer
  let ownErrorText : Val N := some (.str (if isError then extractResultErrorText data else []))
  let resultErrorText :=
    if resultIsError then
      orFalsy js ownErrorText (orFalsy js s.resultErrorText (literal "CLI returned an error result"))
    else s.resultErrorText
  let lastUsage := usage.or s.lastUsage
  ({ s with resultReceived := true, lastUsage := lastUsage, resultIsError := resultIsError,
            outputBuffer := outputBuffer, resultErrorText := resultErrorText },
    (resultText.map fun _ => Effect.onUpdate outputBuffer).toList ++
      [.onLogEntry (.result (if resultIsError then "error" else "success")
        (number? (data.get? (ascii "duration_ms"))) lastUsage)])

def handleError (s : State N) (data : Utf16.Fields N) : State N × List (Effect N) :=
  let message := orFalsy js (data.get? (ascii "message"))
    (orFalsy js (data.get? (ascii "error")) (literal "Unknown error"))
  ({ s with resultIsError := true, resultErrorText := message }, [.onLogEntry (.error message)])

def handleData (s : State N) (data : Utf16.Fields N) : State N × List (Effect N) :=
  let s := { s with sessionId := sessionOf s data }
  let type := data.get? (ascii "type")
  if isText type "system" then handleSystem js s data
  else if isText type "stream_event" then handleStreamEvent s data
  else if isText type "assistant" then forEachOk (handleBlock js) s (messageContent data)
  else if isText type "user" then forEachOk (handleResultBlock js) s (messageContent data)
  else if isText type "result" then handleResult js collectUsage s data
  else if isText type "error" then handleError js s data
  else (s, [])

def parseLine (s : State N) (line : Text) : State N × List (Effect N) :=
  if Utf16.isBlank line then (s, [])
  else match tryParseJson js line with
    | none => (s, [])
    | some data => handleData js collectUsage s data

end Parser

end A2Wave.CcStream
