import A2Wave.Lib.Lines
import A2Wave.Memory.Topics

/-! The sections of a topic's body, and its lines. -/

namespace A2Wave.MemoryTopics

open JsText

inductive MemoryTopicSection
  | durableKnowledge
  | decisionsAndConventions
  | workflows
  | failurePatterns
  | evidencePointers
  deriving DecidableEq

namespace MemoryTopicSection

def all : List MemoryTopicSection :=
  [durableKnowledge, decisionsAndConventions, workflows, failurePatterns, evidencePointers]

def text : MemoryTopicSection → Text
  | durableKnowledge => "Durable Knowledge".toList
  | decisionsAndConventions => "Decisions and Conventions".toList
  | workflows => "Workflows".toList
  | failurePatterns => "Failure Patterns".toList
  | evidencePointers => "Evidence Pointers".toList

def ofText (name : Text) : Option MemoryTopicSection := all.find? fun s => decide (s.text = name)

theorem of_ofText {name : Text} {s : MemoryTopicSection} (h : ofText name = some s) : s.text = name := by
  simpa using List.find?_some h

end MemoryTopicSection

/-- `/^#\s+/`. -/
def isLevelOne : Text → Bool
  | '#' :: c :: _ => isSpace c
  | _ => false

/-- `/^[-*]\s+/`. -/
def isListItem : Text → Bool
  | mark :: c :: _ => (mark == '-' || mark == '*') && isSpace c
  | _ => false

/-- The group of `/^##\s+(.+)$/`.  After blanks only, the last of them is the group. -/
def sectionHeading : Text → Option Text
  | '#' :: '#' :: s =>
    let blanks := s.takeWhile isSpace
    let name := s.dropWhile isSpace
    if blanks = [] then none
    else if name = [] then
      match blanks.tail.getLast? with
      | none => none
      | some c => if isLineTerminator c then none else some [c]
    else if name.any isLineTerminator then none
    else some name
  | _ => none

def headingLine (name : Text) : Text := "## ".toList ++ name

theorem newline_not_mem_headingLine (s : MemoryTopicSection) : '\n' ∉ headingLine s.text := by
  cases s <;> decide

theorem lineTexts_headingLine (s : MemoryTopicSection) : lineTexts (headingLine s.text) = [headingLine s.text] := by
  cases s <;> decide

/-- `replace(/\r\n/g, '\n')`. -/
def normalizeNewlines : Text → Text
  | [] => []
  | [c] => [c]
  | c :: d :: s =>
    if c = '\r' ∧ d = '\n' then '\n' :: normalizeNewlines s else c :: normalizeNewlines (d :: s)

end A2Wave.MemoryTopics
