import Mathlib.Logic.Function.Basic
import A2Wave.Lib.Separated
import A2Wave.Lib.SerialQueue
import A2Wave.Lib.Transition
import A2Wave.Lib.Utf16Text

/-! A card that shows the output of an agent and of its children while they run. -/

namespace A2Wave.StreamingCard

open Utf16 (Text ofChars newline)
open SerialQueue (Queue)

section Card

inductive ElementId
  | main
  | child (n : Nat)
  deriving DecidableEq

inductive Operation
  | content (element : ElementId) (content : Text)
  | create (childId : Text) (element : ElementId) (content : Text)
  | settings
  deriving DecidableEq

structure Call where
  op : Operation
  sequence : Nat

/-- Where `finish` stands; an awaited operation is given by its place in the queue. -/
inductive Finishing
  | idle
  | main (awaited : Option Nat)
  | child (i : Nat) (awaited : Option Nat)
  | closing (awaited : Nat)
  | settling
  | done
  deriving DecidableEq

structure Panel where
  label : Text
  content : Text

structure CardPatch where
  messageId : Text
  content : Text
  panels : List Panel

structure Card where
  messageId : Option Text
  sequence : Nat
  lastContent : Text
  pendingContent : Option Text
  throttleTimer : Bool
  childCounter : Nat
  childElementIds : Text → Option Nat
  childLabels : Text → Option Text
  childCreated : List Text
  childLastContent : Text → Option Text
  childPendingContent : Text → Option Text
  childThrottleTimers : Text → Bool
  opQueue : Queue Operation
  calls : List Call
  finishing : Finishing
  streamingClosed : Bool
  patch : Option CardPatch

def created : Card where
  messageId := none
  sequence := 1
  lastContent := []
  pendingContent := none
  throttleTimer := false
  childCounter := 0
  childElementIds _ := none
  childLabels _ := none
  childCreated := []
  childLastContent _ := none
  childPendingContent _ := none
  childThrottleTimers _ := false
  opQueue := []
  calls := []
  finishing := .idle
  streamingClosed := false
  patch := none

def childAgent : Text := ofChars "子 Agent".toList

def header (label : Text) : Text :=
  ofChars "> **🧩 ".toList ++ label ++ ofChars "**\n> \n".toList

def formatChildContent (label : Option Text) (content : Text) : Text :=
  header (label.getD childAgent) ++ [newline].intercalate ((content.splitOn newline).map (ofChars "> ".toList ++ ·))

def initialContent (label : Option Text) (idx : Nat) : Text :=
  header (label.getD (childAgent ++ ofChars " #".toList ++ ofChars (toString idx).toList)) ++ ofChars "> 思考中...".toList

variable (s : Card)

namespace Card

def enqueue (op : Operation) : Card := { s with opQueue := SerialQueue.enqueue s.opQueue op }

def updateContent (content : Text) : Card :=
  { s with pendingContent := some content, throttleTimer := true }

def flush : Card × Option Nat :=
  let s := { s with throttleTimer := false }
  match s.pendingContent with
  | none => (s, none)
  | some content =>
    if content = s.lastContent then (s, none)
    else
      (enqueue { s with lastContent := content, pendingContent := none } (.content .main content),
        some s.opQueue.length)

def addChildSection (childId : Text) (label : Option Text) : Card :=
  if (s.childElementIds childId).isSome then s
  else
    let idx := s.childCounter + 1
    let label := label.filter (· ≠ [])
    enqueue
      { s with childCounter := idx,
               childElementIds := Function.update s.childElementIds childId (some idx),
               childLabels := Function.update s.childLabels childId
                (label.or (s.childLabels childId)) }
      (.create childId (.child idx) (initialContent label idx))

def updateChildContent (childId content : Text) : Card :=
  if childId ∈ s.childCreated then
    { s with childPendingContent := Function.update s.childPendingContent childId (some content),
             childThrottleTimers := Function.update s.childThrottleTimers childId true }
  else s

def flushChild (childId : Text) : Card × Option Nat :=
  let s := { s with childThrottleTimers := Function.update s.childThrottleTimers childId false }
  match s.childPendingContent childId with
  | none => (s, none)
  | some content =>
    if some content = s.childLastContent childId then (s, none)
    else
      let s := { s with
        childLastContent := Function.update s.childLastContent childId (some content),
        childPendingContent := Function.update s.childPendingContent childId none }
      match s.childElementIds childId with
      | none => (s, none)
      | some n =>
        (enqueue s (.content (.child n) (formatChildContent (s.childLabels childId) content)), some s.opQueue.length)

def start (k : Nat) : Option Card :=
  (SerialQueue.start s.opQueue k).map fun r =>
    { s with opQueue := r.1, calls := s.calls ++ [⟨r.2, s.sequence⟩], sequence := s.sequence + 1 }

def afterCall (op : Operation) (success : Bool) : Card :=
  match op with
  | .content _ _ => s
  | .create childId _ _ =>
    if success then
      { s with childCreated :=
          if childId ∈ s.childCreated then s.childCreated else s.childCreated ++ [childId] }
    else
      { s with childElementIds := Function.update s.childElementIds childId none,
               childLabels := Function.update s.childLabels childId none }
  | .settings => { s with streamingClosed := s.streamingClosed || success }

def settle (k : Nat) (success : Bool) : Option Card :=
  (SerialQueue.settle s.opQueue k).map fun r => afterCall { s with opQueue := r.1 } r.2 success

def finish : Option Card :=
  if s.finishing = .idle then
    let (s, awaited) := s.flush
    some { s with finishing := .main awaited }
  else none

/-- The loop of `finish` over the children at its `i`-th round. -/
def nextChild (i : Nat) : Card :=
  match s.childCreated[i]? with
  | some childId => { (s.flushChild childId).1 with finishing := .child i (s.flushChild childId).2 }
  | none => { s.enqueue .settings with finishing := .closing s.opQueue.length }

def replaceWithCollapsiblePanels : Card :=
  { s with patch := s.messageId.map fun messageId =>
      ⟨messageId, s.lastContent, s.childCreated.map fun childId =>
        ⟨(s.childLabels childId).getD childAgent, (s.childLastContent childId).getD []⟩⟩ }

def awaitedSettled (awaited : Option Nat) : Bool :=
  awaited.all fun k => SerialQueue.isSettled s.opQueue k

/-- `finish` goes on behind the await it stands at. -/
def resume : Option Card :=
  match s.finishing with
  | .idle => none
  | .main awaited => if s.awaitedSettled awaited then some (s.nextChild 0) else none
  | .child i awaited => if s.awaitedSettled awaited then some (s.nextChild (i + 1)) else none
  | .closing awaited =>
    if SerialQueue.isSettled s.opQueue awaited then
      some { s with finishing :=
        if s.streamingClosed && !s.childCreated.isEmpty && s.messageId.isSome then .settling
        else .done }
    else none
  | .settling => some { s.replaceWithCollapsiblePanels with finishing := .done }
  | .done => none

end Card

inductive Event
  | updateContent (content : Text)
  | addChildSection (childId : Text) (label : Option Text)
  | updateChildContent (childId content : Text)
  | throttle
  | childThrottle (childId : Text)
  | start (k : Nat)
  | settle (k : Nat) (success : Bool)
  | send (messageId : Text)
  | finish
  | resume

def step : Event → Option Card
  | .updateContent content => some (s.updateContent content)
  | .addChildSection childId label => some (s.addChildSection childId label)
  | .updateChildContent childId content => some (s.updateChildContent childId content)
  | .throttle => if s.throttleTimer then some s.flush.1 else none
  | .childThrottle childId =>
    if s.childThrottleTimers childId then some (s.flushChild childId).1 else none
  | .start k => s.start k
  | .settle k success => s.settle k success
  | .send messageId => some { s with messageId := some messageId }
  | .finish => s.finish
  | .resume => s.resume

end Card

section Observed

/-- A card with what has been given for its elements, and for a child whether its section had
been created then. -/
structure Observed where
  card : Card
  given : Option Text
  givenChild : Text → Option (Text × Bool)

def Observed.initial : Observed := ⟨created, none, fun _ => none⟩

def observe (o : Observed) (e : Event) : Option Observed :=
  (step o.card e).map fun card =>
    match e with
    | .updateContent content => { o with card := card, given := some content }
    | .updateChildContent childId content =>
      { o with card := card,
               givenChild := Function.update o.givenChild childId
                (some (content, decide (childId ∈ o.card.childCreated))) }
    | _ => { o with card := card }

/-- The calls come before `finish`, and the API succeeds. -/
def Expected (o : Observed) : Event → Prop
  | .updateContent _ => o.card.finishing = .idle
  | .addChildSection _ _ => o.card.finishing = .idle
  | .updateChildContent _ _ => o.card.finishing = .idle
  | .settle _ success => success = true
  | _ => True

instance (o : Observed) (e : Event) : Decidable (Expected o e) := by
  cases e <;> unfold Expected <;> infer_instance

def contents (element : ElementId) (ops : List Operation) : List Text :=
  ops.filterMap fun
    | .content e text => if e = element then some text else none
    | _ => none

def lastSent (s : Card) (element : ElementId) : Option Text :=
  (contents element (s.calls.map (·.op))).getLast?

end Observed

end A2Wave.StreamingCard
