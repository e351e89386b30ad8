import A2Wave.Engine.StreamLog
import A2Wave.Lib.Outcome

/-! The parser of the Cursor CLI's output lines. -/

namespace A2Wave.CursorStream

open Utf16 (Text Value ascii)
open JsValue StreamLog

section Parser

inductive ParsedCursorEvent (N : Type)
  | nonJson
  | unknown (msgType subtype : Val N)
  | session (chatId : Text)
  | systemInit (model : Val N)
  | user
  | assistantText (text : Text) (blockIndex : Nat)
  | assistantToolUse (toolName callId : Val N) (input : Option (Utf16.Fields N))
      (subtype : CallSubtype) (error : Option Text) (blockIndex : Nat)
  | resultSuccess (text : Text) (durationMs : Val N) (usage : Option (TokenUsage N))
  | resultOther (subtype : Val N) (error : Option Text) (usage : Option (TokenUsage N))
  | thinking
  | toolCall (toolName callId : Val N) (input : Option (Utf16.Fields N)) (subtype : CallSubtype)
      (error : Option Text)
  | toolResult (toolName callId isError : Val N)
  | error (message : Val N)

structure ParsedCursorLine (N : Type) where
  events : List (ParsedCursorEvent N)
  msgType : Val N
  subtype : Val N

variable {N : Type}

def extractChatId (data : Val N) : Option Text :=
  (nonEmptyText? (getProp data "session_id")).or (nonEmptyText? (getProp data "chat_id"))

variable (js : Numbers N)

def normalizeToolError (raw : Val N) : Option Text :=
  let unwrapped := if (getProp raw "error").isSome then getProp raw "error" else raw
  match unwrapped with
  | none => none
  | some .null => none
  | some (.str s) => some s
  | some v => some (Utf16.stringify js.toNumberFormat v)

/-- `value ? { error: value } : {}`. -/
def unlessEmpty (text : Option Text) : Option Text := text.filter (· ≠ [])

def parseToolUse (block : Val N) (i : Nat) : ParsedCursorEvent N :=
  let fullInput := asObject (getProp block "input")
  let innerResult := fullInput.bind fun input => input.get? (ascii "result")
  let hasFailed := isObject innerResult && (getProp innerResult "error").isSome
  let subtype :=
    if innerResult.isSome then if hasFailed then CallSubtype.failed else .completed else .started
  let params := fullInput.map fun input => input.erase (ascii "result")
  let input := params.filter fun params => !(names params).isEmpty
  let toolError := if hasFailed then normalizeToolError js (getProp innerResult "error") else none
  .assistantToolUse (orFalsy js (getProp block "name") (literal "unknown"))
    (orFalsy js (getProp block "id") (literal "")) input subtype (unlessEmpty toolError) i

def parseBlock (block : Val N) (i : Nat) : Except JsError (List (ParsedCursorEvent N)) := do
  let blockType ← prop block "type"
  return match nonEmptyText? (getProp block "text") with
    | some text => [.assistantText text i]
    | none => if isText (orFalsy js blockType (literal "unknown")) "tool_use"
        then [parseToolUse js block i] else []

def parseBlocks (contentArr : Val N) : Nat → Nat → Except JsError (List (ParsedCursorEvent N))
  | 0, _ => .error .outOfFuel
  | fuel + 1, i => do
    if ← lengthExceeds js i contentArr then
      let events ← parseBlock js (getIndex contentArr i) i
      let later ← parseBlocks contentArr fuel (i + 1)
      return events ++ later
    else return []

def parseAssistantMessage (data : Val N) : Except JsError (List (ParsedCursorEvent N)) :=
  let contentArr := getProp (getProp data "message") "content"
  if !isTruthy js contentArr || lengthIsZero js contentArr then .ok []
  else parseBlocks js contentArr (size contentArr + 1) 0

/-- `key.replace(/ToolCall$/, '')`. -/
def withoutToolCall (key : Text) : Text :=
  if (ascii "ToolCall").isSuffixOf key then key.take (key.length - 8) else key

def toolKey (data : Val N) : Option Text := (keys (getProp data "tool_call")).head?

def toolCallInner (data : Val N) : Val N :=
  (toolKey data).bind (entry (getProp data "tool_call"))

def toolNameOf (data : Val N) : Val N :=
  let toolName := orElse (getProp data "tool_name") (orElse (getProp data "name") (literal ""))
  let toolName := match toolKey data with
    | some key => if isTruthy js toolName then toolName else some (.str (withoutToolCall key))
    | none => toolName
  orFalsy js toolName (literal "unknown")

def callIdOf (data : Val N) : Val N :=
  orElse (getProp data "call_id") (orElse (getProp data "tool_call_id") (literal ""))

/-- `msgSubtype === 'completed' && innerResult && 'error' in innerResult`. -/
def innerHasError (msgSubtype innerResult : Val N) : Except JsError Bool :=
  if isText msgSubtype "completed" && isTruthy js innerResult then hasProp innerResult "error"
  else .ok false

def inputHasError (msgSubtype : Val N) (input : Option (Utf16.Fields N)) : Bool :=
  let result := input.bind fun input => input.get? (ascii "result")
  isText msgSubtype "completed" && isObject result && (getProp result "error").isSome

def parseToolCall (data msgSubtype : Val N) : Except JsError (ParsedCursorEvent N) := do
  let rawInput := getProp data "input"
  let args := getProp (toolCallInner data) "args"
  let input := asObject (if !isTruthy js rawInput && isObject args then args else rawInput)
  let innerResult := getProp (toolCallInner data) "result"
  let innerError ← innerHasError js msgSubtype innerResult
  let hasError := innerError || inputHasError msgSubtype input
  let subtype :=
    if hasError then CallSubtype.failed
    else if isText msgSubtype "completed" then .completed else .started
  let inputResult := input.bind fun input => input.get? (ascii "result")
  let rawErr := orElse (getProp innerResult "error") (getProp inputResult "error")
  let error := if hasError then normalizeToolError js rawErr else none
  return .toolCall (toolNameOf js data) (callIdOf data) input subtype (unlessEmpty error)

def parseToolResult (data : Val N) : ParsedCursorEvent N :=
  .toolResult (toolNameOf js data) (callIdOf data) (getProp data "is_error")

def parseSuccess (data : Val N) : Except JsError (ParsedCursorEvent N) := do
  let text ← callTrim (orFalsy js (getProp data "result") (literal ""))
  return .resultSuccess text (getProp data "duration_ms") (extractClaudeStyleUsage data)

/-- `value ? { error: String(value) } : {}`. -/
def errorText : Val N → Except JsError (Option Text)
  | some v => if isTruthy js (some v) then (toText js v).map some else .ok none
  | none => .ok none

def parseOtherResult (data subtype : Val N) : Except JsError (ParsedCursorEvent N) := do
  let error ← errorText js (orElse (getProp data "error") (orElse (getProp data "result") (literal "")))
  return .resultOther subtype error (extractClaudeStyleUsage data)

def parseMessage (data msgType subtype : Val N) : Except JsError (List (ParsedCursorEvent N)) :=
  if isText msgType "system" then
    .ok (if isText subtype "init" then [.systemInit (getProp data "model")] else [])
  else if isText msgType "user" then .ok [.user]
  else if isText msgType "assistant" then parseAssistantMessage js data
  else if isText msgType "result" then
    if isText subtype "success" then (parseSuccess js data).map fun event => [event]
    else (parseOtherResult js data subtype).map fun event => [event]
  else if isText msgType "thinking" then .ok [.thinking]
  else if isText msgType "tool_call" then
    (parseToolCall js data subtype).map fun event => [event]
  else if isText msgType "tool_result" then .ok [parseToolResult js data]
  else if isText msgType "error" then
    .ok [.error (orElse (getProp data "error") (orElse (getProp data "message") (literal "Unknown error")))]
  else .ok (if isTruthy js msgType then [.unknown msgType subtype] else [])

def sessionEvents (data : Val N) : List (ParsedCursorEvent N) :=
  ((extractChatId data).map ParsedCursorEvent.session).toList

/-- The line as its value; `data` is read unchecked. -/
def parseData (data : Val N) : Except JsError (ParsedCursorLine N) := do
  let msgType ← prop data "type"
  let subtype ← prop data "subtype"
  let events ← parseMessage js data msgType subtype
  return ⟨sessionEvents data ++ events, msgType, subtype⟩

def parseCursorStreamLine (line : Text) : Except JsError (ParsedCursorLine N) :=
  match Utf16.parse js.toNumberFormat line with
  | none => .ok ⟨[.nonJson], none, none⟩
  | some data => parseData js (some data)

end Parser

section Readable

variable {N : Type} (js : Numbers N)

/-- No block below the length is missing or `null`. -/
def BlocksReadable (contentArr : Val N) : Prop :=
  lengthReadable contentArr = true ∧ ∀ i, (∀ j ≤ i, lengthExceeds js j contentArr = .ok true) →
      nullish (getIndex contentArr i) = false

structure Readable (data : Val N) : Prop where
  value : nullish data = false
  content : isText (getProp data "type") "assistant" = true →
    isTruthy js (getProp (getProp data "message") "content") = true →
    lengthIsZero js (getProp (getProp data "message") "content") = false →
    BlocksReadable js (getProp (getProp data "message") "content")
  success : isText (getProp data "type") "result" = true → isText (getProp data "subtype") "success" = true →
    isTruthy js (getProp data "result") = true → (text? (getProp data "result")).isSome = true
  error : isText (getProp data "type") "result" = true → isText (getProp data "subtype") "success" = false →
    (orElse (getProp data "error") (getProp data "result")).all printable = true
  toolCall : isText (getProp data "type") "tool_call" = true → isText (getProp data "subtype") "completed" = true →
    isTruthy js (getProp (toolCallInner data) "result") = true →
    isObject (getProp (toolCallInner data) "result") = true

variable {js} {c data : Val N}

theorem isOk_parseBlock (block : Val N) (i : Nat) : (parseBlock js block i).isOk = !nullish block := by
  rw [parseBlock, isOk_bind_return, isOk_prop]

theorem later_end {fuel i : Nat} (hb : lengthExceeds js i c = .ok true)
    (hi : nullish (getIndex c i) = false)
    (hend : ∃ m, i ≤ m ∧ m < i + (fuel + 1) ∧ (lengthExceeds js m c ≠ .ok true ∨ nullish (getIndex c m) = true)) :
    ∃ m, i + 1 ≤ m ∧ m < i + 1 + fuel ∧ (lengthExceeds js m c ≠ .ok true ∨ nullish (getIndex c m) = true) := by
  obtain ⟨m, him, hmi, hm⟩ := hend
  have hne : m ≠ i := by
    rintro rfl
    rcases hm with hm | hm
    · exact hm hb
    · rw [hi] at hm
      cases hm
  exact ⟨m, by omega, by omega, hm⟩

theorem isOk_parseBlocks (hlen : lengthReadable c = true) {fuel i : Nat}
    (hend : ∃ m, i ≤ m ∧ m < i + fuel ∧ (lengthExceeds js m c ≠ .ok true ∨ nullish (getIndex c m) = true)) :
    (parseBlocks js c fuel i).isOk = true ↔
      ∀ k, i ≤ k → (∀ j, i ≤ j → j ≤ k → lengthExceeds js j c = .ok true) → nullish (getIndex c k) = false := by
  induction fuel generalizing i with
  | zero =>
    obtain ⟨m, him, hmi, -⟩ := hend
    omega
  | succ fuel ih =>
    rw [parseBlocks]
    have hok : (lengthExceeds js i c).isOk = true := by rw [isOk_lengthExceeds, hlen]
    cases hb : lengthExceeds js i c with
    | error e =>
      rw [hb] at hok
      cases hok
    | ok b =>
      cases b with
      | false =>
        refine iff_of_true rfl fun k hk hall => ?_
        have := hall i (Nat.le_refl i) hk
        rw [hb] at this
        cases this
      | true =>
        change (parseBlock js (getIndex c i) i >>= fun events =>
          parseBlocks js c fuel (i + 1) >>= fun later => pure (events ++ later)).isOk = true ↔ _
        rw [isOk_bind_and, isOk_parseBlock, Bool.and_eq_true, Bool.not_eq_true']
        constructor
        · rintro ⟨hi, hlater⟩ k hk hall
          by_cases hki : k = i
          · rw [hki]
            exact hi
          · exact (ih (later_end hb hi hend)).mp hlater k (by omega)
              fun j hj hjk => hall j (by omega) hjk
        · intro hall
          have hi : nullish (getIndex c i) = false := hall i (Nat.le_refl i) fun j hj hji => by
            rw [Nat.le_antisymm hji hj]
            exact hb
          refine ⟨hi, (ih (later_end hb hi hend)).mpr fun k hk hj => hall k (by omega) ?_⟩
          intro j hij hjk
          by_cases hji : j = i
          · rw [hji]
            exact hb
          · exact hj j (by omega) hjk

theorem isOk_parseAssistantMessage : (parseAssistantMessage js data).isOk = true ↔
      (isTruthy js (getProp (getProp data "message") "content") = true →
        lengthIsZero js (getProp (getProp data "message") "content") = false →
        BlocksReadable js (getProp (getProp data "message") "content")) := by
  rw [parseAssistantMessage]
  set c := getProp (getProp data "message") "content"
  cases htruthy : isTruthy js c with
  | false => exact iff_of_true rfl nofun
  | true =>
    cases hzero : lengthIsZero js c with
    | true => exact iff_of_true rfl fun _ => nofun
    | false =>
      change (parseBlocks js c (size c + 1) 0).isOk = true ↔ _
      cases hlen : lengthReadable c with
      | false =>
        have hhead : (lengthExceeds js 0 c).isOk = false := by rw [isOk_lengthExceeds, hlen]
        refine iff_of_false ?_ fun h => ?_
        · rw [parseBlocks]
          cases hb : lengthExceeds js 0 c with
          | error e => exact Bool.false_ne_true
          | ok b =>
            rw [hb] at hhead
            cases hhead
        · have := (h rfl rfl).1
          rw [hlen] at this
          cases this
      | true =>
        obtain ⟨m, hm, hend⟩ := @exists_loop_end N js c
        rw [isOk_parseBlocks hlen ⟨m, Nat.zero_le m, by omega, hend⟩]
        constructor
        · intro h _ _
          exact ⟨hlen, fun i hi => h i (Nat.zero_le i) fun j _ hji => hi j hji⟩
        · intro h k _ hk
          exact (h rfl rfl).2 k fun j hj => hk j (Nat.zero_le j) hj

theorem isOk_parseSuccess : (parseSuccess js data).isOk = true ↔
      (isTruthy js (getProp data "result") = true → (text? (getProp data "result")).isSome = true) := by
  rw [parseSuccess, isOk_bind_return, isOk_callTrim, orFalsy]
  cases isTruthy js (getProp data "result") with
  | false => exact iff_of_true rfl fun h => by cases h
  | true => exact ⟨fun h _ => h, fun h => h rfl⟩

theorem printable_of_falsy {v : Value N} (h : isTruthy js (some v) = false) : printable v = true := by
  cases v with
  | arr xs => cases h
  | obj fs => cases h
  | null | bool _ | num _ | str _ => rfl

theorem isOk_errorText (v : Val N) : (errorText js v).isOk = v.all printable := by
  cases v with
  | none => rfl
  | some v =>
    rw [errorText, Option.all_some]
    split
    · rw [isOk_map, isOk_toText]
    · rename_i hfalsy
      exact (printable_of_falsy (Bool.eq_false_of_not_eq_true hfalsy)).symm

theorem all_orElse_literal (v : Val N) (s : String) : (orElse v (literal s)).all printable = v.all printable := by
  rcases v with _ | (_ | _ | _ | _ | _ | _) <;> rfl

theorem all_orElse_congr {v w w' : Val N} (h : w.all printable = w'.all printable) :
    (orElse v w).all printable = (orElse v w').all printable := by
  rw [orElse, orElse]
  split
  · exact h
  · rfl

theorem isOk_parseOtherResult (subtype : Val N) : (parseOtherResult js data subtype).isOk =
      (orElse (getProp data "error") (getProp data "result")).all printable := by
  rw [parseOtherResult, isOk_bind_return, isOk_errorText]
  exact all_orElse_congr (all_orElse_literal _ _)

theorem isOk_parseToolCall (subtype : Val N) : (parseToolCall js data subtype).isOk = true ↔
      (isText subtype "completed" = true → isTruthy js (getProp (toolCallInner data) "result") = true →
        isObject (getProp (toolCallInner data) "result") = true) := by
  rw [parseToolCall, isOk_bind_return, innerHasError]
  cases isText subtype "completed" with
  | false => exact iff_of_true rfl nofun
  | true =>
    cases isTruthy js (getProp (toolCallInner data) "result") with
    | false => exact iff_of_true rfl fun _ => nofun
    | true =>
      rw [Bool.and_true, if_pos rfl, isOk_hasProp]
      exact ⟨fun h _ _ => h, fun h => h rfl rfl⟩

theorem readable_other (hvalue : nullish data = false)
    (hassistant : isText (getProp data "type") "assistant" = false)
    (hresult : isText (getProp data "type") "result" = false)
    (hcall : isText (getProp data "type") "tool_call" = false) : Readable js data where
  value := hvalue
  content h := by rw [hassistant] at h; cases h
  success h := by rw [hresult] at h; cases h
  error h := by rw [hresult] at h; cases h
  toolCall h := by rw [hcall] at h; cases h

theorem readable_of_isText (hvalue : nullish data = false) {s : String}
    (h : isText (getProp data "type") s = true) (hassistant : ascii s ≠ ascii "assistant")
    (hresult : ascii s ≠ ascii "result") (hcall : ascii s ≠ ascii "tool_call") :
    Readable js data :=
  readable_other hvalue (isText_eq_false h hassistant) (isText_eq_false h hresult)
    (isText_eq_false h hcall)

theorem readable_assistant (hvalue : nullish data = false)
    (h : isText (getProp data "type") "assistant" = true) :
    Readable js data ↔ (parseAssistantMessage js data).isOk = true := by
  have hresult : isText (getProp data "type") "result" = false := isText_eq_false h (by decide)
  have hcall : isText (getProp data "type") "tool_call" = false := isText_eq_false h (by decide)
  rw [isOk_parseAssistantMessage]
  refine ⟨fun hr => hr.content h, fun hc => ⟨hvalue, fun _ => hc, ?_, ?_, ?_⟩⟩
  · intro hr; rw [hresult] at hr; cases hr
  · intro hr; rw [hresult] at hr; cases hr
  · intro hr; rw [hcall] at hr; cases hr

theorem readable_result (hvalue : nullish data = false)
    (h : isText (getProp data "type") "result" = true) :
    Readable js data ↔
      if isText (getProp data "subtype") "success" = true then (parseSuccess js data).isOk = true
      else (parseOtherResult js data (getProp data "subtype")).isOk = true := by
  have hassistant : isText (getProp data "type") "assistant" = false :=
    isText_eq_false h (by decide)
  have hcall : isText (getProp data "type") "tool_call" = false := isText_eq_false h (by decide)
  split
  · rename_i hsuccess
    rw [isOk_parseSuccess]
    refine ⟨fun hr => hr.success h hsuccess, fun hs => ⟨hvalue, ?_, fun _ _ => hs, ?_, ?_⟩⟩
    · intro ha; rw [hassistant] at ha; cases ha
    · intro _ ho; rw [hsuccess] at ho; cases ho
    · intro ht; rw [hcall] at ht; cases ht
  · rename_i hsuccess
    have hother : isText (getProp data "subtype") "success" = false :=
      Bool.eq_false_of_not_eq_true hsuccess
    rw [isOk_parseOtherResult]
    refine ⟨fun hr => hr.error h hother, fun hs => ⟨hvalue, ?_, ?_, fun _ _ => hs, ?_⟩⟩
    · intro ha; rw [hassistant] at ha; cases ha
    · intro _ hs'; exact absurd hs' hsuccess
    · intro ht; rw [hcall] at ht; cases ht

theorem readable_toolCall (hvalue : nullish data = false)
    (h : isText (getProp data "type") "tool_call" = true) :
    Readable js data ↔ (parseToolCall js data (getProp data "subtype")).isOk = true := by
  have hassistant : isText (getProp data "type") "assistant" = false :=
    isText_eq_false h (by decide)
  have hresult : isText (getProp data "type") "result" = false := isText_eq_false h (by decide)
  rw [isOk_parseToolCall]
  refine ⟨fun hr => hr.toolCall h, fun hc => ⟨hvalue, ?_, ?_, ?_, fun _ => hc⟩⟩
  · intro ha; rw [hassistant] at ha; cases ha
  · intro hr; rw [hresult] at hr; cases hr
  · intro hr; rw [hresult] at hr; cases hr

theorem isOk_parseMessage (hvalue : nullish data = false) :
    (parseMessage js data (getProp data "type") (getProp data "subtype")).isOk = true ↔ Readable js data := by
  rw [parseMessage]
  split
  · rename_i h
    exact iff_of_true rfl (readable_of_isText hvalue h (by decide) (by decide) (by decide))
  split
  · rename_i h
    exact iff_of_true rfl (readable_of_isText hvalue h (by decide) (by decide) (by decide))
  split
  · rename_i h
    exact (readable_assistant hvalue h).symm
  split
  · rename_i h
    rw [readable_result hvalue h]
    split
    · rw [isOk_map]
    · rw [isOk_map]
  rename_i hassistant hresult
  split
  · rename_i h
    exact iff_of_true rfl (readable_of_isText hvalue h (by decide) (by decide) (by decide))
  split
  · rename_i h
    rw [isOk_map, readable_toolCall hvalue h]
  rename_i hcall
  have hother : Readable js data :=
    readable_other hvalue (Bool.eq_false_of_not_eq_true hassistant)
      (Bool.eq_false_of_not_eq_true hresult) (Bool.eq_false_of_not_eq_true hcall)
  split
  · exact iff_of_true rfl hother
  split
  · exact iff_of_true rfl hother
  · exact iff_of_true rfl hother

theorem isOk_parseData : (parseData js data).isOk = true ↔ Readable js data := by
  cases hvalue : nullish data with
  | true =>
    refine iff_of_false ?_ fun h => ?_
    · rw [parseData, prop, hvalue]
      exact Bool.false_ne_true
    · have := h.value
      rw [hvalue] at this
      cases this
  | false =>
    rw [parseData, prop_eq hvalue, prop_eq hvalue]
    change (parseMessage js data (getProp data "type") (getProp data "subtype") >>= fun events =>
      pure _).isOk = true ↔ _
    rw [isOk_bind_return, isOk_parseMessage hvalue]

theorem isOk_parseCursorStreamLine (line : Text) : (parseCursorStreamLine js line).isOk = true ↔
      ∀ data ∈ Utf16.parse js.toNumberFormat line, Readable js (some data) := by
  rw [parseCursorStreamLine]
  cases Utf16.parse js.toNumberFormat line with
  | none => exact iff_of_true rfl nofun
  | some data =>
    rw [isOk_parseData]
    exact ⟨fun h _ hd => (Option.some.inj hd) ▸ h, fun h => h data rfl⟩

end Readable

end A2Wave.CursorStream
