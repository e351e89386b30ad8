import A2Wave.Engine.PiStream

/-! What the Pi parser has collected after a sequence of events. -/

namespace A2Wave.PiStream

open Utf16 (Text Value ascii newline)
open JsValue StreamLog

section Events

inductive EventKind
  | assistantStart
  | assistantDelta
  | assistantEnd
  | other
  deriving DecidableEq

variable {N : Type} (js : Numbers N)

def isDelta (event : Val N) : Bool :=
  isText (getProp event "type") "text_delta" && (text? (getProp event "delta")).isSome

def kind (event : Utf16.Fields N) : EventKind :=
  let type := event.get? (ascii "type")
  if isText type "message_start" && isAssistant (event.get? (ascii "message")) then .assistantStart
  else if isText type "message_update" && isDelta (event.get? (ascii "assistantMessageEvent")) then
    .assistantDelta
  else if isText type "message_end" && isAssistant (event.get? (ascii "message")) then .assistantEnd
  else .other

/-- Each start of an assistant message is followed by its end before the next start, and deltas
stand between the two; `isOpen` tells that the last message has not ended. -/
def Bracketed : Bool → List (Utf16.Fields N) → Bool
  | isOpen, [] => !isOpen
  | isOpen, event :: events =>
    match kind event with
    | .assistantStart => !isOpen && Bracketed true events
    | .assistantDelta => isOpen && Bracketed true events
    | .assistantEnd => isOpen && Bracketed false events
    | .other => Bracketed isOpen events

def finalText? (event : Utf16.Fields N) : Option Text :=
  let message := event.get? (ascii "message")
  if kind event = .assistantEnd ∧ failed message = false then some (extractTextContent message)
  else none

def finalTexts (events : List (Utf16.Fields N)) : List Text := events.filterMap finalText?

def usageCarrier (event : Utf16.Fields N) : Val N :=
  if kind event = .assistantEnd then event.get? (ascii "message")
  else if isText (event.get? (ascii "type")) "compaction_end" then event.get? (ascii "result")
  else none

def reportedTokens (carrier : Val N) (k : String) : Option N :=
  (asObject (getProp carrier "usage")).bind fun usage => number? (usage.get? (ascii k))

def outputTokens (carrier : Val N) : Option N :=
  (reportedTokens carrier "output").map fun output =>
    ((reportedTokens carrier "reasoning").map fun reasoning =>
      js.max js.zero (js.sub output reasoning)).getD output

def tokens (carrier : Val N) : UsageField → Option N
  | .inputTokens => reportedTokens carrier "input"
  | .outputTokens => outputTokens js carrier
  | .reasoningTokens => reportedTokens carrier "reasoning"
  | .cacheReadTokens => reportedTokens carrier "cacheRead"
  | .cacheWriteTokens => reportedTokens carrier "cacheWrite"

def reported (field : UsageField) (events : List (Utf16.Fields N)) : List (Option N) :=
  events.map fun event => tokens js (usageCarrier event) field

def run (s : State N) (events : List (Utf16.Fields N)) : State N :=
  events.foldl (fun s event => (handleData js s event).1) s

def eventOf (line : Text) : Option (Utf16.Fields N) :=
  if Utf16.isBlank line then none else tryParseObject js line

def parseLines (s : State N) (lines : List Text) : State N :=
  lines.foldl (fun s line => (parseLine js s line).1) s

end Events

section Steps

variable {N : Type} {js : Numbers N} {s : State N} {event : Utf16.Fields N}

structure SameText (s s' : State N) : Prop where
  buffer : s'.outputBuffer = s.outputBuffer
  completed : s'.completedAssistantTexts = s.completedAssistantTexts
  current : s'.currentAssistantText = s.currentAssistantText

theorem SameText.refl (s : State N) : SameText s s := ⟨rfl, rfl, rfl⟩

theorem addUsage_sameText (usage : Option (TokenUsage N)) : SameText s (addUsage js s usage) := by
  cases usage <;> exact ⟨rfl, rfl, rfl⟩

theorem read_mapPiUsage (carrier : Val N) (field : UsageField) :
    TokenUsage.read (mapPiUsage js carrier) field = tokens js carrier field := by
  rw [mapPiUsage]
  cases hu : asObject (getProp carrier "usage") with
  | none => cases field <;> simp [tokens, reportedTokens, outputTokens, hu, TokenUsage.read]
  | some usage =>
    rw [read_reported]
    cases field with
    | inputTokens | reasoningTokens | cacheReadTokens | cacheWriteTokens => simp [tokens, reportedTokens, hu]
    | outputTokens =>
      simp only [tokens, outputTokens, reportedTokens, hu, Option.bind_some]
      cases number? (usage.get? (ascii "reasoning")) <;> rfl

theorem read_addUsage (carrier : Val N) (field : UsageField) :
    TokenUsage.read (addUsage js s (mapPiUsage js carrier)).usage field =
      addTokens js (TokenUsage.read s.usage field) (tokens js carrier field) := by
  rw [← read_mapPiUsage]
  cases mapPiUsage js carrier with
  | none => rfl
  | some usage => exact read_accumulateUsage s.usage usage field

theorem setCurrentText_usage (text : Text) : (setCurrentText s text).1.usage = s.usage := by
  rw [setCurrentText]
  split <;> rfl

theorem settleRecovery_usage : (settleRecovery s).usage = s.usage := by
  rw [settleRecovery]
  split <;> rfl

theorem completeAssistant_usage (message : Val N) : (completeAssistant s message).1.usage = s.usage :=
  (setCurrentText_usage _).trans settleRecovery_usage

theorem handleAssistantEnd_usage {message : Val N} (h : isAssistant message = true) :
    (handleAssistantEnd js s message).1.usage = (addUsage js s (mapPiUsage js message)).usage := by
  rw [handleAssistantEnd, if_pos h]
  dsimp only
  split
  · rfl
  · exact completeAssistant_usage message

theorem handleUpdate_usage (update : Val N) : (handleUpdate s update).1.usage = s.usage := by
  rw [handleUpdate]
  split
  · rfl
  · split <;> rfl

theorem handleToolStart_usage : (handleToolStart s event).1.usage = s.usage := by
  rw [handleToolStart]
  split <;> rfl

theorem handleToolEnd_usage : (handleToolEnd s event).1.usage = s.usage := by
  rw [handleToolEnd]
  split <;> rfl

theorem handleRetryEnd_usage : (handleRetryEnd s event).usage = s.usage := by
  rw [handleRetryEnd]
  split
  · dsimp only
    split
    · rfl
    · split <;> rfl
  · rfl

theorem tokens_none (field : UsageField) : tokens js (none : Val N) field = none := by
  cases field <;> rfl

theorem kind_ne_end {t : String} (h : isText (event.get? (ascii "type")) t = true)
    (hne : ascii t ≠ ascii "message_end") : kind event ≠ .assistantEnd := by
  have hend : isText (event.get? (ascii "type")) "message_end" = false := isText_eq_false h hne
  rw [kind]
  rw [hend]
  split
  · nofun
  split
  · nofun
  · nofun

theorem usageCarrier_eq_none (hend : kind event ≠ .assistantEnd)
    (hcompaction : isText (event.get? (ascii "type")) "compaction_end" = false) :
    usageCarrier event = none := by
  rw [usageCarrier, if_neg hend, hcompaction]
  rfl

theorem usageCarrier_of_isText {t : String} (h : isText (event.get? (ascii "type")) t = true)
    (hend : ascii t ≠ ascii "message_end") (hcompaction : ascii t ≠ ascii "compaction_end") :
    usageCarrier event = none :=
  usageCarrier_eq_none (kind_ne_end h hend) (isText_eq_false h hcompaction)

theorem kind_end (h : isText (event.get? (ascii "type")) "message_end" = true) : kind event =
      if isAssistant (event.get? (ascii "message")) then .assistantEnd else .other := by
  have hstart : isText (event.get? (ascii "type")) "message_start" = false :=
    isText_eq_false h (by decide)
  have hupdate : isText (event.get? (ascii "type")) "message_update" = false :=
    isText_eq_false h (by decide)
  rw [kind]
  rw [hstart, hupdate, h]
  rfl

theorem read_handleData (field : UsageField) : TokenUsage.read (handleData js s event).1.usage field =
      addTokens js (TokenUsage.read s.usage field) (tokens js (usageCarrier event) field) := by
  have hkeep {u : Option (TokenUsage N)} (hu : u = s.usage) (hnone : usageCarrier event = none) :
      TokenUsage.read u field =
        addTokens js (TokenUsage.read s.usage field) (tokens js (usageCarrier event) field) := by
    rw [hu, hnone, tokens_none]
    rfl
  rw [handleData]
  split
  · rename_i h
    exact hkeep rfl (usageCarrier_of_isText h (by decide) (by decide))
  split
  · rename_i h
    have hnone : usageCarrier event = none := usageCarrier_of_isText h (by decide) (by decide)
    split
    · exact hkeep rfl hnone
    · exact hkeep rfl hnone
  split
  · rename_i h
    exact hkeep (handleUpdate_usage _) (usageCarrier_of_isText h (by decide) (by decide))
  split
  · rename_i h
    have hkind := kind_end h
    cases hassistant : isAssistant (event.get? (ascii "message")) with
    | true =>
      rw [hassistant, if_pos rfl] at hkind
      rw [handleAssistantEnd_usage hassistant, read_addUsage, usageCarrier, if_pos hkind]
    | false =>
      rw [hassistant, if_neg Bool.false_ne_true] at hkind
      have hnone : usageCarrier event = none :=
        usageCarrier_eq_none (by rw [hkind]; nofun) (isText_eq_false h (by decide))
      refine hkeep ?_ hnone
      rw [handleAssistantEnd, hassistant]
      rfl
  rename_i hend
  split
  · rename_i h
    have hkind : kind event ≠ .assistantEnd := kind_ne_end h (by decide)
    rw [usageCarrier, if_neg hkind, if_pos h]
    exact read_addUsage _ field
  rename_i hcompaction
  split
  · rename_i h
    exact hkeep handleToolStart_usage (usageCarrier_of_isText h (by decide) (by decide))
  split
  · rename_i h
    exact hkeep handleToolEnd_usage (usageCarrier_of_isText h (by decide) (by decide))
  split
  · rename_i h
    exact hkeep rfl (usageCarrier_of_isText h (by decide) (by decide))
  split
  · rename_i h
    exact hkeep handleRetryEnd_usage (usageCarrier_of_isText h (by decide) (by decide))
  split
  · rename_i h
    exact hkeep rfl (usageCarrier_of_isText h (by decide) (by decide))
  · refine hkeep rfl (usageCarrier_eq_none ?_ (Bool.eq_false_of_not_eq_true hcompaction))
    rw [kind]
    rw [Bool.eq_false_of_not_eq_true hend]
    split
    · nofun
    split
    · nofun
    · nofun

theorem of_kind_start (h : kind event = .assistantStart) : isText (event.get? (ascii "type")) "message_start" = true ∧
      isAssistant (event.get? (ascii "message")) = true := by
  rw [kind] at h
  split at h
  · rename_i hstart
    exact Bool.and_eq_true_iff.mp hstart
  split at h
  · cases h
  split at h
  · cases h
  · cases h

theorem of_kind_delta (h : kind event = .assistantDelta) : isText (event.get? (ascii "type")) "message_update" = true ∧
      isDelta (event.get? (ascii "assistantMessageEvent")) = true := by
  rw [kind] at h
  split at h
  · cases h
  split at h
  · rename_i hupdate
    exact Bool.and_eq_true_iff.mp hupdate
  split at h
  · cases h
  · cases h

theorem of_kind_end (h : kind event = .assistantEnd) : isText (event.get? (ascii "type")) "message_end" = true ∧
      isAssistant (event.get? (ascii "message")) = true := by
  rw [kind] at h
  split at h
  · cases h
  split at h
  · cases h
  split at h
  · rename_i hend
    exact Bool.and_eq_true_iff.mp hend
  · cases h

theorem handleUpdate_sameText {update : Val N} (h : isDelta update = false) :
    SameText s (handleUpdate s update).1 := by
  have hdelta : (if isText (getProp update "type") "text_delta" then
      text? (getProp update "delta") else none) = none := by
    rw [isDelta] at h
    split
    · rename_i htype
      rw [htype, Bool.true_and] at h
      exact Option.isSome_eq_false_iff.mp h |> Option.isNone_iff_eq_none.mp
    · rfl
  rw [handleUpdate, hdelta]
  dsimp only
  split
  · exact ⟨rfl, rfl, rfl⟩
  · exact SameText.refl s

theorem handleToolStart_sameText : SameText s (handleToolStart s event).1 := by
  rw [handleToolStart]
  split <;> exact ⟨rfl, rfl, rfl⟩

theorem handleToolEnd_sameText : SameText s (handleToolEnd s event).1 := by
  rw [handleToolEnd]
  split <;> exact ⟨rfl, rfl, rfl⟩

theorem handleRetryEnd_sameText : SameText s (handleRetryEnd s event) := by
  rw [handleRetryEnd]
  split
  · dsimp only
    split
    · exact ⟨rfl, rfl, rfl⟩
    · split <;> exact ⟨rfl, rfl, rfl⟩
  · exact SameText.refl s

theorem handleCompactionEnd_sameText : SameText s (handleCompactionEnd js s event) :=
  have h := addUsage_sameText (s := s) (mapPiUsage js (event.get? (ascii "result")))
  ⟨h.buffer, h.completed, h.current⟩

theorem handleData_sameText (h : kind event = .other) : SameText s (handleData js s event).1 := by
  rw [handleData]
  split
  · exact ⟨rfl, rfl, rfl⟩
  split
  · rename_i hstart
    split
    · rename_i hassistant
      rw [kind, hstart, hassistant] at h
      cases h
    · exact SameText.refl s
  rename_i hstart
  split
  · rename_i hupdate
    apply handleUpdate_sameText
    cases hdelta : isDelta (event.get? (ascii "assistantMessageEvent")) with
    | false => rfl
    | true =>
      rw [kind, Bool.eq_false_of_not_eq_true hstart, hupdate, hdelta] at h
      cases h
  split
  · rename_i hend
    rw [kind_end hend] at h
    split at h
    · cases h
    · rename_i hassistant
      rw [handleAssistantEnd, if_neg hassistant]
      exact SameText.refl s
  split
  · exact handleCompactionEnd_sameText
  split
  · exact handleToolStart_sameText
  split
  · exact handleToolEnd_sameText
  split
  · exact ⟨rfl, rfl, rfl⟩
  split
  · exact handleRetryEnd_sameText
  split
  · exact ⟨rfl, rfl, rfl⟩
  · exact SameText.refl s

theorem handleData_start (h : kind event = .assistantStart) :
    (handleData js s event).1 = finalizeCurrentAssistant s := by
  obtain ⟨htype, hassistant⟩ := of_kind_start h
  rw [handleData]
  rw [isText_eq_false htype (by decide), htype, hassistant]
  rfl

theorem handleData_delta (h : kind event = .assistantDelta) : (handleData js s event).1 =
      (handleUpdate s (event.get? (ascii "assistantMessageEvent"))).1 := by
  obtain ⟨htype, -⟩ := of_kind_delta h
  have hsession := isText_eq_false htype (b := "session") (by decide)
  have hstart := isText_eq_false htype (b := "message_start") (by decide)
  rw [handleData]
  rw [hsession, hstart, htype]
  rfl

theorem handleData_end (h : kind event = .assistantEnd) : (handleData js s event).1 =
      (handleAssistantEnd js s (event.get? (ascii "message"))).1 := by
  obtain ⟨htype, -⟩ := of_kind_end h
  have hsession := isText_eq_false htype (b := "session") (by decide)
  have hstart := isText_eq_false htype (b := "message_start") (by decide)
  have hupdate := isText_eq_false htype (b := "message_update") (by decide)
  rw [handleData]
  rw [hsession, hstart, hupdate, htype]
  rfl

end Steps

section Runs

variable {N : Type} {js : Numbers N} {s : State N} {event : Utf16.Fields N}
  {texts : List Text} {isOpen : Bool}

/-- The texts of the messages so far have been collected; between two messages they are also
what the output holds. -/
structure Collected (isOpen : Bool) (s : State N) (texts : List Text) : Prop where
  completed : s.completedAssistantTexts = texts.filter (· ≠ [])
  closed : isOpen = false → s.currentAssistantText = [] ∧ s.outputBuffer = joinTexts texts

theorem Collected.same {s' : State N} (hc : Collected isOpen s texts) (h : SameText s s') :
    Collected isOpen s' texts where
  completed := h.completed.trans hc.completed
  closed hopen := ⟨h.current.trans (hc.closed hopen).1, h.buffer.trans (hc.closed hopen).2⟩

theorem Collected.start (hc : Collected false s texts) : Collected true (finalizeCurrentAssistant s) texts where
  completed := by
    rw [finalizeCurrentAssistant, (hc.closed rfl).1]
    exact hc.completed
  closed := nofun

theorem Collected.delta (hc : Collected true s texts) {update : Val N}
    (h : isDelta update = true) : Collected true (handleUpdate s update).1 texts where
  completed := by
    obtain ⟨htype, hdelta⟩ := Bool.and_eq_true_iff.mp h
    obtain ⟨delta, hdelta⟩ := Option.isSome_iff_exists.mp hdelta
    rw [handleUpdate, htype, if_pos rfl, hdelta]
    exact hc.completed
  closed := nofun

theorem joinTexts_append_nil : joinTexts (texts ++ [[]]) = joinTexts texts := by
  simp [joinTexts]

theorem joinTexts_filter : joinTexts (texts.filter (· ≠ [])) = joinTexts texts := by
  rw [joinTexts, joinTexts, List.filter_filter]
  simp

theorem Collected.fail (hc : Collected true s texts) (message : Val N) :
    Collected false (failAssistant s message).1 texts where
  completed := hc.completed
  closed _ := by
    refine ⟨rfl, ?_⟩
    change joinTexts (s.completedAssistantTexts ++ [[]]) = _
    rw [joinTexts_append_nil, hc.completed, joinTexts_filter]

theorem setCurrentText_completed (text : Text) :
    (setCurrentText s text).1.completedAssistantTexts = s.completedAssistantTexts := by
  rw [setCurrentText]
  split <;> rfl

theorem setCurrentText_current (text : Text) : (setCurrentText s text).1.currentAssistantText = text := by
  rw [setCurrentText]
  split
  · rename_i h
    exact h.symm
  · rfl

theorem settleRecovery_completed : (settleRecovery s).completedAssistantTexts = s.completedAssistantTexts := by
  rw [settleRecovery]
  split <;> rfl

theorem completeAssistant_completed (message : Val N) : (completeAssistant s message).1.completedAssistantTexts =
      s.completedAssistantTexts ++ [extractTextContent message].filter (· ≠ []) := by
  change (finalizeCurrentAssistant
    (setCurrentText (settleRecovery s) (extractTextContent message)).1).completedAssistantTexts = _
  rw [finalizeCurrentAssistant, setCurrentText_current, setCurrentText_completed, settleRecovery_completed]
  dsimp only
  split
  · rename_i h
    simp [h]
  · rename_i h
    simp [h]

theorem Collected.complete (hc : Collected true s texts) (message : Val N) :
    Collected false (completeAssistant s message).1 (texts ++ [extractTextContent message]) := by
  have hcompleted : (completeAssistant s message).1.completedAssistantTexts =
      (texts ++ [extractTextContent message]).filter (· ≠ []) := by
    rw [completeAssistant_completed, hc.completed, List.filter_append]
  refine ⟨hcompleted, fun _ => ⟨rfl, ?_⟩⟩
  rw [joinTexts, ← hcompleted]
  rfl

theorem Collected.finish (hc : Collected true s texts) (h : kind event = .assistantEnd) :
    Collected false (handleAssistantEnd js s (event.get? (ascii "message"))).1
      (texts ++ (finalText? event).toList) := by
  rw [handleAssistantEnd, if_pos (of_kind_end h).2, finalText?, h]
  dsimp only
  have hc' : Collected true (addUsage js s (mapPiUsage js (event.get? (ascii "message")))) texts :=
    hc.same (addUsage_sameText _)
  cases hfailed : failed (event.get? (ascii "message")) with
  | true =>
    rw [if_pos rfl, if_neg (by nofun), Option.toList_none, List.append_nil]
    exact hc'.fail _
  | false =>
    rw [if_neg Bool.false_ne_true, if_pos ⟨rfl, rfl⟩, Option.toList_some]
    exact hc'.complete _

theorem finalTexts_cons (events : List (Utf16.Fields N)) :
    finalTexts (event :: events) = (finalText? event).toList ++ finalTexts events := by
  rw [finalTexts, List.filterMap_cons]
  cases finalText? event <;> rfl

theorem finalText?_eq_none (h : kind event ≠ .assistantEnd) : finalText? event = none := by
  rw [finalText?]
  exact if_neg fun hk => h hk.1

theorem collected_run {events : List (Utf16.Fields N)} (hc : Collected isOpen s texts)
    (hb : Bracketed isOpen events = true) :
    Collected false (run js s events) (texts ++ finalTexts events) := by
  induction events generalizing isOpen s texts with
  | nil =>
    have hopen : isOpen = false := by simpa [Bracketed] using hb
    subst hopen
    rw [finalTexts, List.filterMap_nil, List.append_nil]
    exact hc
  | cons event events ih =>
    rw [run, List.foldl_cons, finalTexts_cons, ← List.append_assoc]
    rw [Bracketed] at hb
    cases hk : kind event with
    | assistantStart =>
      simp only [hk, Bool.and_eq_true, Bool.not_eq_true'] at hb
      obtain ⟨rfl, hb⟩ := hb
      rw [handleData_start hk, finalText?_eq_none (by rw [hk]; nofun), Option.toList_none, List.append_nil]
      exact ih hc.start hb
    | assistantDelta =>
      simp only [hk, Bool.and_eq_true] at hb
      obtain ⟨rfl, hb⟩ := hb
      rw [handleData_delta hk, finalText?_eq_none (by rw [hk]; nofun), Option.toList_none, List.append_nil]
      exact ih (hc.delta (of_kind_delta hk).2) hb
    | assistantEnd =>
      simp only [hk, Bool.and_eq_true] at hb
      obtain ⟨rfl, hb⟩ := hb
      rw [handleData_end hk]
      exact ih (hc.finish hk) hb
    | other =>
      simp only [hk] at hb
      rw [finalText?_eq_none (by rw [hk]; nofun), Option.toList_none, List.append_nil]
      exact ih (hc.same (handleData_sameText hk)) hb

theorem read_run (field : UsageField) (events : List (Utf16.Fields N)) :
    TokenUsage.read (run js s events).usage field =
      (reported js field events).foldl (addTokens js) (TokenUsage.read s.usage field) := by
  induction events generalizing s with
  | nil => rfl
  | cons event events ih =>
    rw [run, List.foldl_cons, ← run, ih, read_handleData]
    rfl

theorem parseLine_eq (line : Text) : (parseLine js s line).1 =
      match eventOf js line with
      | none => s
      | some event => (handleData js s event).1 := by
  rw [parseLine, eventOf]
  split
  · rfl
  · cases tryParseObject js line <;> rfl

theorem parseLines_eq (lines : List Text) : parseLines js s lines = run js s (lines.filterMap (eventOf js)) := by
  induction lines generalizing s with
  | nil => rfl
  | cons line lines ih =>
    rw [parseLines, List.foldl_cons, ← parseLines, ih, parseLine_eq, List.filterMap_cons]
    cases eventOf js line <;> rfl

/-- The output and the usage after lines whose events are bracketed. -/
theorem parseLines_bracketed (initialSessionId : Option Text) (lines : List Text)
    (hb : Bracketed false (lines.filterMap (eventOf js)) = true) :
    (parseLines js (initial initialSessionId) lines).outputBuffer =
        joinTexts (finalTexts (lines.filterMap (eventOf js))) ∧
      ∀ field, TokenUsage.read (parseLines js (initial initialSessionId) lines).usage field =
        sumReported js (reported js field (lines.filterMap (eventOf js))) := by
  rw [parseLines_eq]
  have hinit : Collected false (initial initialSessionId : State N) [] :=
    ⟨rfl, fun _ => ⟨rfl, rfl⟩⟩
  refine ⟨((collected_run hinit hb).closed rfl).2, fun field => ?_⟩
  rw [read_run, ← foldl_addTokens]
  rfl

def sampleLines : List Text :=
  [ascii "\x7b\"type\":\"message_start\",\"message\":\x7b\"role\":\"assistant\"\x7d\x7d",
    ascii "\x7b\"type\":\"message_update\",\"assistantMessageEvent\":" ++
      ascii "\x7b\"type\":\"text_delta\",\"delta\":\"x\"\x7d\x7d",
    ascii "\x7b\"type\":\"message_end\",\"message\":\x7b\"role\":\"assistant\"," ++
      ascii "\"content\":[\x7b\"type\":\"text\",\"text\":\"a\"\x7d]," ++
      ascii "\"usage\":\x7b\"output\":5,\"reasoning\":2\x7d\x7d\x7d"]

theorem parseLines_sample : (parseLines wholeNumbers (initial none) sampleLines).outputBuffer =
        joinTexts (finalTexts (sampleLines.filterMap (eventOf wholeNumbers))) ∧
      ∀ field, TokenUsage.read (parseLines wholeNumbers (initial none) sampleLines).usage field =
        sumReported wholeNumbers
          (reported wholeNumbers field (sampleLines.filterMap (eventOf wholeNumbers))) :=
  parseLines_bracketed none sampleLines (by decide +kernel)

example : (parseLines wholeNumbers (initial none) sampleLines).outputBuffer = ascii "a" ∧
      TokenUsage.read (parseLines wholeNumbers (initial none) sampleLines).usage .outputTokens = some 3 := by
  decide +kernel

end Runs

end A2Wave.PiStream
