import A2Wave.Lib.TextSearch
import A2Wave.Memory.DedupKey

/-! `topicBodyWithItems`: items are added to the body of a topic. -/

namespace A2Wave.MemoryTopics

open JsText TextSearch

section Source

def MEMORY_TOPIC_EVIDENCE_POINTER_LIMIT : Nat := 20

variable (tables : TextTables)

def lineKey (line : Text) : Option Text :=
  if isListItem (trim line) then some (topicItemDedupKey tables line) else none

def deduplicateTopicBody (body : Text) : Text :=
  joinLines (KeepFirst.keepFirst (lineKey tables) [] (splitLines body))

/-- `/^##\s+/`. -/
def isLevelTwo : Text → Bool
  | '#' :: '#' :: c :: _ => isSpace c
  | _ => false

def isPointer (line : Text) : Bool := isListItem (trim line)

def evidenceParts (lines : List Text) : Option (List Text × List Text × List Text) :=
  match lines.dropWhile fun line => trim line ≠ headingLine "Evidence Pointers".toList with
  | [] => none
  | heading :: rest =>
    let start := lines.takeWhile fun line => trim line ≠ headingLine "Evidence Pointers".toList
    some (start ++ [heading], rest.takeWhile fun line => !isLevelTwo line, rest.dropWhile fun line => !isLevelTwo line)

def limitEvidencePointers (body topicSection : Text) : Text :=
  if topicSection ≠ "Evidence Pointers".toList then body
  else match evidenceParts (splitLines body) with
  | none => body
  | some (start, sectionLines, rest) =>
    let pointers := sectionLines.filter isPointer
    if pointers.length ≤ MEMORY_TOPIC_EVIDENCE_POINTER_LIMIT then body
    else
      let retained := pointers.drop (pointers.length - MEMORY_TOPIC_EVIDENCE_POINTER_LIMIT)
      joinLines (start ++ [] :: retained ++ rest)

def topicBase (title : Text) (body : Option Text) : Text :=
  let text := trim (body.getD [])
  deduplicateTopicBody tables (if text = [] then titleLine title else text)

def itemLines (body : Text) : List Text := (splitLines body).filter isPointer

def itemLine (item : Text) : Text := '-' :: ' ' :: item

def nextHeading : Text := ['\n', '#', '#', ' ']

def insertItems (base heading additionText : Text) : Text :=
  match before? heading base with
  | none => base ++ '\n' :: '\n' :: (heading ++ '\n' :: '\n' :: additionText)
  | some start =>
    let afterHeading := base.drop (start.length + heading.length)
    match before? nextHeading afterHeading with
    | none =>
      base ++ '\n' :: ((if base.getLast? = some '\n' then [] else ['\n']) ++ additionText)
    | some middle =>
      trimEnd (start ++ heading ++ middle) ++ '\n' :: (additionText ++ '\n' :: afterHeading.drop middle.length)

def normalizedItems (items : List Text) : List Text := (items.map normalizeItem).filter (· ≠ [])

def additions (base : Text) (items : List Text) : List Text :=
  newItems tables (itemLines base) (normalizedItems items)

def topicBodyWithItems (title : Text) (body : Option Text) (topicSection : Text)
    (items : List Text) : Except MemoryTopicError Text := do
  ensure (MemoryTopicSection.ofText topicSection).isSome
    ⟨"INVALID_TOPIC_SECTION", "Invalid topic section"⟩
  ensure (normalizedItems items ≠ [])
    ⟨"INVALID_TOPIC_BODY", "At least one topic item is required"⟩
  let base := topicBase tables title body
  let new := additions tables base items
  return if new = [] then base
    else limitEvidencePointers
      (insertItems base (headingLine topicSection) (joinLines (new.map itemLine))) topicSection

end Source

end A2Wave.MemoryTopics
