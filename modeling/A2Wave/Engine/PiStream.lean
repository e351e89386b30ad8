import A2Wave.Engine.StreamLog

/-! The parser of the Pi CLI's output lines. -/

namespace A2Wave.PiStream

open Utf16 (Text Value ascii newline)
open JsValue StreamLog

section Parser

structure State (N : Type) where
  sessionId : Option Text
  outputBuffer : Text
  resultReceived : Bool
  resultIsError : Bool
  resultErrorText : Text
  lastErrorText : Text
  usage : Option (TokenUsage N)
  completedAssistantTexts : List Text
  toolNameByCallId : List (Text × Text)
  currentAssistantText : Text
  currentHadDeltas : Bool
  retryInFlight : Bool
  overflowRecoveryInFlight : Bool

variable {N : Type}

def initial (initialSessionId : Option Text) : State N :=
  ⟨initialSessionId, [], false, false, [], [], none, [], [], [], false, false, false⟩

/-- The text of a block of type `text`. -/
def blockText (block : Value N) : Text :=
  if isText (getProp (some block) "type") "text" then
    (text? (getProp (some block) "text")).getD []
  else []

def extractTextContent (message : Val N) : Text :=
  ((asArray (getProp message "content")).getD []).flatMap blockText

def extractToolResultText (result : Val N) : Text :=
  let content := getProp result "content"
  match text? content with
  | some text => text
  | none =>
    [newline].intercalate ((((asArray content).getD []).map blockText).filter (· ≠ []))

def messageError (message : Val N) : Text :=
  match nonEmptyText? (getProp message "errorMessage") with
  | some text => text
  | none =>
    match text? (getProp message "stopReason") with
    | some stopReason => ascii "Pi request " ++ stopReason
    | none => ascii "Pi request failed"

variable (js : Numbers N)

def mapPiUsage (source : Val N) : Option (TokenUsage N) :=
  match asObject (getProp source "usage") with
  | none => none
  | some usage =>
    let output := number? (usage.get? (ascii "output"))
    let reasoning := number? (usage.get? (ascii "reasoning"))
    TokenUsage.reported fun
      | .inputTokens => number? (usage.get? (ascii "input"))
      | .outputTokens => output.map fun output =>
          match reasoning with
          | none => output
          | some reasoning => js.max js.zero (js.sub output reasoning)
      | .reasoningTokens => reasoning
      | .cacheReadTokens => number? (usage.get? (ascii "cacheRead"))
      | .cacheWriteTokens => number? (usage.get? (ascii "cacheWrite"))

def addUsage (s : State N) (usage : Option (TokenUsage N)) : State N :=
  match usage with
  | none => s
  | some usage => { s with usage := accumulateUsage js s.usage usage }

def joinTexts (texts : List Text) : Text := [newline].intercalate (texts.filter (· ≠ []))

def publishOutput (s : State N) : State N × List (Effect N) :=
  let outputBuffer := joinTexts (s.completedAssistantTexts ++ [s.currentAssistantText])
  ({ s with outputBuffer := outputBuffer }, [.onUpdate outputBuffer])

def discardCurrentAssistant (s : State N) : State N × List (Effect N) :=
  publishOutput { s with currentAssistantText := [], currentHadDeltas := false }

def finalizeCurrentAssistant (s : State N) : State N :=
  let completedAssistantTexts :=
    if s.currentAssistantText = [] then s.completedAssistantTexts
    else s.completedAssistantTexts ++ [s.currentAssistantText]
  { s with completedAssistantTexts := completedAssistantTexts,
           currentAssistantText := [], currentHadDeltas := false,
           outputBuffer := [newline].intercalate completedAssistantTexts }

def failAssistant (s : State N) (message : Val N) : State N × List (Effect N) :=
  let error := messageError message
  let (s, effects) := discardCurrentAssistant
    { s with overflowRecoveryInFlight := false, resultIsError := true, resultErrorText := error,
             lastErrorText := error }
  (s, effects ++ [.onLogEntry (.error (some (.str error)))])

def settleRecovery (s : State N) : State N :=
  if s.overflowRecoveryInFlight then
    { s with overflowRecoveryInFlight := false, resultIsError := false, resultErrorText := [] }
  else s

def setCurrentText (s : State N) (text : Text) : State N × List (Effect N) :=
  if text = s.currentAssistantText then (s, [])
  else publishOutput { s with currentAssistantText := text }

def completeAssistant (s : State N) (message : Val N) : State N × List (Effect N) :=
  let finalText := extractTextContent message
  let (s, effects) := setCurrentText (settleRecovery s) finalText
  let entries := if finalText ≠ [] ∧ s.currentHadDeltas = false then
    [Effect.onLogEntry (.assistant finalText false)] else []
  (finalizeCurrentAssistant s, effects ++ entries)

def failed (message : Val N) : Bool :=
  isText (getProp message "stopReason") "error" || isText (getProp message "stopReason") "aborted"

def isAssistant (message : Val N) : Bool := isText (getProp message "role") "assistant"

def handleAssistantEnd (s : State N) (message : Val N) : State N × List (Effect N) :=
  if isAssistant message then
    let s := addUsage js s (mapPiUsage js message)
    if failed message then failAssistant s message else completeAssistant s message
  else (s, [])

def handleUpdate (s : State N) (event : Val N) : State N × List (Effect N) :=
  match if isText (getProp event "type") "text_delta" then text? (getProp event "delta") else none with
  | some delta =>
    let (s, effects) := publishOutput
      { s with currentAssistantText := s.currentAssistantText ++ delta, currentHadDeltas := true }
    (s, effects ++ [.onLogEntry (.assistant delta false)])
  | none =>
    if isText (getProp event "type") "error" then
      let error := messageError (getProp event "error")
      ({ s with resultIsError := true, resultErrorText := error, lastErrorText := error }, [])
    else (s, [])

def handleCompactionEnd (s : State N) (data : Utf16.Fields N) : State N :=
  { addUsage js s (mapPiUsage js (data.get? (ascii "result"))) with
    overflowRecoveryInFlight := isTrue (data.get? (ascii "willRetry")) }

def handleToolStart (s : State N) (data : Utf16.Fields N) : State N × List (Effect N) :=
  let callId := (text? (data.get? (ascii "toolCallId"))).getD []
  let toolName := (nonEmptyText? (data.get? (ascii "toolName"))).getD (ascii "unknown")
  let entry := StreamLogEntry.toolCall .started (some (.str callId)) (some (.str toolName))
    (asObject (data.get? (ascii "args"))) none none
  if callId = [] then (s, [.onLogEntry entry])
  else ({ s with toolNameByCallId := putName (· == ·) s.toolNameByCallId callId toolName },
    [.onLogEntry entry, .heartbeatStarted (some (.str callId)) (some (.str toolName))])

def handleToolEnd (s : State N) (data : Utf16.Fields N) : State N × List (Effect N) :=
  let callId := (text? (data.get? (ascii "toolCallId"))).getD []
  let known := (nameOf (· == ·) s.toolNameByCallId callId).filter (· ≠ [])
  let toolName := ((nonEmptyText? (data.get? (ascii "toolName"))).or known).getD (ascii "unknown")
  let isError := isTrue (data.get? (ascii "isError"))
  let errorText := if isError then extractToolResultText (data.get? (ascii "result")) else []
  let entry := StreamLogEntry.toolCall (if isError then .failed else .completed)
    (some (.str callId)) (some (.str toolName)) none
    (if errorText = [] then none else some errorText) none
  if callId = [] then (s, [.onLogEntry entry])
  else ({ s with toolNameByCallId := dropName (· == ·) s.toolNameByCallId callId },
    [.heartbeatSettled (some (.str callId)), .onLogEntry entry])

def handleRetryStart (s : State N) (data : Utf16.Fields N) : State N × List (Effect N) :=
  ({ s with retryInFlight := true }, [.onLogEntry (.retry ((number? (data.get? (ascii "attempt"))).getD js.one)
      ((number? (data.get? (ascii "delayMs"))).getD js.zero))])

def handleRetryEnd (s : State N) (data : Utf16.Fields N) : State N :=
  if s.retryInFlight then
    let s := { s with retryInFlight := false }
    if isTrue (data.get? (ascii "success")) then
      { s with resultIsError := false, resultErrorText := [] }
    else match nonEmptyText? (data.get? (ascii "finalError")) with
      | some finalError =>
        { s with resultIsError := true, resultErrorText := finalError, lastErrorText := finalError }
      | none => s
  else s

def handleSettled (s : State N) : State N × List (Effect N) :=
  ({ s with resultReceived := true },
    [.onLogEntry (.result (if s.resultIsError then "error" else "success") none s.usage)])

def handleData (s : State N) (data : Utf16.Fields N) : State N × List (Effect N) :=
  let type := data.get? (ascii "type")
  if isText type "session" then
    ({ s with sessionId := (nonEmptyText? (data.get? (ascii "id"))).or s.sessionId }, [])
  else if isText type "message_start" then
    if isAssistant (data.get? (ascii "message")) then (finalizeCurrentAssistant s, []) else (s, [])
  else if isText type "message_update" then
    handleUpdate s (data.get? (ascii "assistantMessageEvent"))
  else if isText type "message_end" then handleAssistantEnd js s (data.get? (ascii "message"))
  else if isText type "compaction_end" then (handleCompactionEnd js s data, [])
  else if isText type "tool_execution_start" then handleToolStart s data
  else if isText type "tool_execution_end" then handleToolEnd s data
  else if isText type "auto_retry_start" then handleRetryStart js s data
  else if isText type "auto_retry_end" then (handleRetryEnd s data, [])
  else if isText type "agent_settled" then handleSettled s
  else (s, [])

def tryParseObject (text : Text) : Option (Utf16.Fields N) :=
  (Utf16.parse js.toNumberFormat text).bind fun v => asObject (some v)

def parseLine (s : State N) (line : Text) : State N × List (Effect N) :=
  if Utf16.isBlank line then (s, [])
  else match tryParseObject js line with
    | none => (s, [])
    | some data => handleData js s data

end Parser

end A2Wave.PiStream
