import A2Wave.Queue.TaskQueueDb

/-! `lib/attachment-history.ts`: the attachments of the steps of a run are shown at its user
messages, by position. -/

namespace A2Wave.AttachmentHistory

inductive Role
  | user
  | agent
  deriving DecidableEq, Repr

structure PublicHistoryAttachmentRef where
  token : Option String
  name : String
  mimeType : String
  size : Option ℚ
  deriving DecidableEq

abbrev Refs := List PublicHistoryAttachmentRef

def optional {α : Type} (read : Json → Option α) : Option Json → Option (Option α)
  | none => some none
  | some v => (read v).map some

def size? (v : Json) : Option ℚ := v.asNum?.filter fun q => 0 ≤ q

def toPublicHistoryAttachment : Json → Option PublicHistoryAttachmentRef
  | .obj raw => do
    let name ← (raw.get? "name").bind Json.asStr?
    let mimeType ← (raw.get? "mimeType").bind Json.asStr?
    let token ← optional Json.asStr? (raw.get? "token")
    let size ← optional size? (raw.get? "size")
    return ⟨token, name, mimeType, size⟩
  | _ => none

/-- What `extractStepAttachments` does with the input of one step. -/
def stepAttachments (input : Option Fields) : Option Refs :=
  match metaGet? input "attachments" with
  | some (.arr a) =>
    let records := a.toList.filterMap toPublicHistoryAttachment
    if 0 < records.length then some records else none
  | _ => none

def extractStepAttachments (inputs : List (Option Fields)) : List (Option Refs) :=
  inputs.map stepAttachments

def pairFrom (userIdx : Nat) (steps : List (Option Refs)) : List Role → List (Option Refs)
  | [] => []
  | .user :: messages => (steps[userIdx]?).join :: pairFrom (userIdx + 1) steps messages
  | .agent :: messages => none :: pairFrom userIdx steps messages

def pairAttachmentsToMessages (messages : List Role) (steps : List (Option Refs)) : List (Option Refs) :=
  pairFrom 0 steps messages

section Pairing

variable {messages : List Role} {steps : List (Option Refs)}

theorem pairFrom_append (k : Nat) (later : List Role) : pairFrom k steps (messages ++ later) =
      pairFrom k steps messages ++ pairFrom (k + messages.count .user) steps later := by
  induction messages generalizing k with
  | nil => rfl
  | cons m ms ih =>
    cases m with
    | user =>
      simp only [List.cons_append, pairFrom, ih, List.count_cons_self]
      rw [Nat.add_right_comm k 1]
      rfl
    | agent =>
      simp only [List.cons_append, pairFrom, ih]
      rfl

theorem pairAttachmentsToMessages_user : pairAttachmentsToMessages (messages ++ [.user]) steps =
      pairAttachmentsToMessages messages steps ++ [(steps[messages.count .user]?).join] := by
  simp [pairAttachmentsToMessages, pairFrom_append, pairFrom]

theorem pairAttachmentsToMessages_agent : pairAttachmentsToMessages (messages ++ [.agent]) steps =
      pairAttachmentsToMessages messages steps ++ [none] := by
  simp [pairAttachmentsToMessages, pairFrom_append, pairFrom]

theorem pairFrom_later (k : Nat) (later : List (Option Refs)) (h : k + messages.count .user ≤ steps.length) :
    pairFrom k (steps ++ later) messages = pairFrom k steps messages := by
  induction messages generalizing k with
  | nil => rfl
  | cons m ms ih =>
    cases m with
    | user =>
      rw [List.count_cons_self] at h
      have hk : k < steps.length := by omega
      simp only [pairFrom]
      rw [List.getElem?_append_left hk, ih (k + 1) (by omega)]
    | agent =>
      have hcount : (Role.agent :: ms).count .user = ms.count .user := rfl
      rw [hcount] at h
      simp only [pairFrom, ih k h]

theorem pairAttachmentsToMessages_later (later : List (Option Refs))
    (h : messages.count .user ≤ steps.length) :
    pairAttachmentsToMessages messages (steps ++ later) = pairAttachmentsToMessages messages steps :=
  pairFrom_later 0 later (by omega)

end Pairing

end A2Wave.AttachmentHistory
