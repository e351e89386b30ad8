import A2Wave.Chat.StreamingCard

/-! What has been sent for the elements of a card when `finish` has resolved. -/

namespace A2Wave.StreamingCard

open Utf16 (Text)
open SerialQueue (Queue Serial AllSettled ops started)

section Invariant

variable (q : Queue Operation)

structure CallsInOrder (calls : List Call) (sequence : Nat) : Prop where
  serial : Serial q
  ops : calls.map (·.op) = started q
  numbers : calls.map (·.sequence) = List.range' 1 calls.length
  next : sequence = calls.length + 1

structure MainGiven (last : Text) (pending given : Option Text) : Prop where
  sent : last = (contents .main (ops q)).getLast?.getD []
  given : pending.getD last = given.getD []

structure Sections (counter : Nat) (ids : Text → Option Nat) (labels : Text → Option Text)
    (created : List Text) (last : Text → Option Text) : Prop where
  numbered : ∀ c n, ids c = some n → n ≤ counter
  distinct : ∀ c c' n, ids c = some n → ids c' = some n → c = c'
  create : ∀ c e t, .create c e t ∈ ops q → (ids c).isSome = true
  section_of_created : ∀ c ∈ created, (ids c).isSome = true
  created_of_last : ∀ c, (last c).isSome = true → c ∈ created
  fresh : ∀ n, counter < n → contents (.child n) (ops q) = []
  sent : ∀ c n, ids c = some n → (contents (.child n) (ops q)).getLast? = (last c).map (formatChildContent (labels c))

def accepted : Option (Text × Bool) → Option Text
  | some (content, true) => some content
  | _ => none

structure ChildrenGiven (created : List Text) (last pending : Text → Option Text)
    (givenChild : Text → Option (Text × Bool)) : Prop where
  created_of_pending : ∀ c, (pending c).isSome = true → c ∈ created
  given : ∀ c, (pending c).or (last c) = accepted (givenChild c)

def MainFlushed (last : Text) (pending : Option Text) : Prop := pending.getD last = last

def ChildFlushed (last pending : Option Text) : Prop := pending.or last = last

variable (s : Card)

def Flushed : Prop :=
  MainFlushed s.lastContent s.pendingContent ∧ ∀ c, ChildFlushed (s.childLastContent c) (s.childPendingContent c)

/-- What `finish` has reached. -/
def Reached : Prop :=
  match s.finishing with
  | .idle => True
  | .main _ => MainFlushed s.lastContent s.pendingContent
  | .child i _ => MainFlushed s.lastContent s.pendingContent ∧
      ∀ j ≤ i, ∀ c ∈ s.childCreated[j]?, ChildFlushed (s.childLastContent c) (s.childPendingContent c)
  | .closing k => Flushed s ∧ s.opQueue.length = k + 1
  | .settling => Flushed s ∧ AllSettled s.opQueue
  | .done => Flushed s ∧ AllSettled s.opQueue

structure Core (given : Option Text) (givenChild : Text → Option (Text × Bool)) : Prop where
  calls : CallsInOrder s.opQueue s.calls s.sequence
  main : MainGiven s.opQueue s.lastContent s.pendingContent given
  sections : Sections s.opQueue s.childCounter s.childElementIds s.childLabels s.childCreated
    s.childLastContent
  children : ChildrenGiven s.childCreated s.childLastContent s.childPendingContent givenChild

structure Inv (o : Observed) : Prop where
  core : Core o.card o.given o.givenChild
  reached : Reached o.card

theorem inv_initial : Inv .initial where
  core :=
    { calls := ⟨List.Pairwise.nil, rfl, rfl, rfl⟩, main := ⟨rfl, rfl⟩
      sections := ⟨nofun, nofun, nofun, nofun, nofun, fun _ _ => rfl, nofun⟩
      children := ⟨nofun, fun _ => rfl⟩ }
  reached := trivial

end Invariant

section Contents

variable {element : ElementId} {l : List Operation}

theorem contents_append (l' : List Operation) :
    contents element (l ++ l') = contents element l ++ contents element l' := by
  rw [contents, List.filterMap_append]
  rfl

theorem contents_content (e : ElementId) (text : Text) :
    contents element [.content e text] = if e = element then [text] else [] := by
  rw [contents]
  by_cases h : e = element <;> simp [h]

end Contents

section Queued

variable {q : Queue Operation} {op : Operation} {calls : List Call} {sequence : Nat}

theorem CallsInOrder.enqueue (h : CallsInOrder q calls sequence) :
    CallsInOrder (SerialQueue.enqueue q op) calls sequence where
  serial := h.serial.enqueue
  ops := h.ops.trans SerialQueue.started_enqueue.symm
  numbers := h.numbers
  next := h.next

variable {last : Text} {pending given : Option Text}

theorem MainGiven.enqueue (h : MainGiven q last pending given)
    (hcontents : contents .main [op] = []) :
    MainGiven (SerialQueue.enqueue q op) last pending given where
  sent := by
    rw [SerialQueue.ops_enqueue, contents_append, hcontents, List.append_nil]
    exact h.sent
  given := h.given

theorem MainGiven.send {content : Text} (h : MainGiven q last (some content) given) :
    MainGiven (SerialQueue.enqueue q (.content .main content)) content none given where
  sent := by
    rw [SerialQueue.ops_enqueue, contents_append, contents_content, if_pos rfl, List.getLast?_append]
    rfl
  given := h.given

variable {counter : Nat} {ids : Text → Option Nat} {labels : Text → Option Text}
  {created : List Text} {lastChild : Text → Option Text}

theorem Sections.enqueue (h : Sections q counter ids labels created lastChild)
    (hcontents : ∀ n, contents (.child n) [op] = [])
    (hcreate : ∀ c e t, op = .create c e t → (ids c).isSome = true) :
    Sections (SerialQueue.enqueue q op) counter ids labels created lastChild where
  numbered := h.numbered
  distinct := h.distinct
  create c e t hmem := by
    rw [SerialQueue.ops_enqueue, List.mem_append, List.mem_singleton] at hmem
    rcases hmem with hmem | hop
    · exact h.create c e t hmem
    · exact hcreate c e t hop.symm
  section_of_created := h.section_of_created
  created_of_last := h.created_of_last
  fresh n hn := by
    rw [SerialQueue.ops_enqueue, contents_append, h.fresh n hn, hcontents n]
    rfl
  sent c n hc := by
    rw [SerialQueue.ops_enqueue, contents_append, hcontents n, List.append_nil]
    exact h.sent c n hc

theorem Sections.send (h : Sections q counter ids labels created lastChild) {childId : Text}
    {n : Nat} (hid : ids childId = some n) (hmem : childId ∈ created) (content : Text) :
    Sections (SerialQueue.enqueue q (.content (.child n) (formatChildContent (labels childId) content)))
      counter ids labels created (Function.update lastChild childId (some content)) where
  numbered := h.numbered
  distinct := h.distinct
  create c e t hmem := by
    rw [SerialQueue.ops_enqueue, List.mem_append, List.mem_singleton] at hmem
    exact h.create c e t (hmem.resolve_right nofun)
  section_of_created := h.section_of_created
  created_of_last c hc := by
    by_cases hcc : c = childId
    · rw [hcc]
      exact hmem
    · rw [Function.update_of_ne hcc] at hc
      exact h.created_of_last c hc
  fresh m hm := by
    have hne : n ≠ m := fun hnm => absurd (h.numbered childId n hid) (by omega)
    rw [SerialQueue.ops_enqueue, contents_append, h.fresh m hm, contents_content,
      if_neg fun heq => hne (ElementId.child.inj heq)]
    rfl
  sent c m hc := by
    rw [SerialQueue.ops_enqueue, contents_append, contents_content]
    by_cases hcc : c = childId
    · subst hcc
      rw [hid] at hc
      cases hc
      rw [if_pos rfl, List.getLast?_append, Function.update_self]
      rfl
    · have hne : n ≠ m := by
        rintro rfl
        exact hcc (h.distinct c childId n hc hid)
      rw [if_neg fun heq => hne (ElementId.child.inj heq), List.append_nil, Function.update_of_ne hcc]
      exact h.sent c m hc

variable {pendingChild : Text → Option Text} {givenChild : Text → Option (Text × Bool)}

theorem ChildrenGiven.send (h : ChildrenGiven created lastChild pendingChild givenChild)
    {childId content : Text} (hp : pendingChild childId = some content) :
    ChildrenGiven created (Function.update lastChild childId (some content))
      (Function.update pendingChild childId none) givenChild where
  created_of_pending c hc := by
    by_cases hcc : c = childId
    · rw [hcc, Function.update_self] at hc
      cases hc
    · rw [Function.update_of_ne hcc] at hc
      exact h.created_of_pending c hc
  given c := by
    by_cases hcc : c = childId
    · rw [hcc, Function.update_self, Function.update_self, ← h.given childId, hp]
      rfl
    · rw [Function.update_of_ne hcc, Function.update_of_ne hcc]
      exact h.given c

theorem childFlushed_update (childId content : Text) :
    ChildFlushed (Function.update lastChild childId (some content) childId)
      (Function.update pendingChild childId none childId) := by
  rw [Function.update_self, Function.update_self]
  rfl

theorem childFlushed_update_of_ne {c childId : Text} (hne : c ≠ childId) (content : Text)
    (h : ChildFlushed (lastChild c) (pendingChild c)) :
    ChildFlushed (Function.update lastChild childId (some content) c)
      (Function.update pendingChild childId none c) := by
  rw [Function.update_of_ne hne, Function.update_of_ne hne]
  exact h

theorem Sections.add (h : Sections q counter ids labels created lastChild) {childId : Text}
    (hid : ids childId = none) (label : Option Text) (text : Text) :
    Sections (SerialQueue.enqueue q (.create childId (.child (counter + 1)) text)) (counter + 1)
      (Function.update ids childId (some (counter + 1))) (Function.update labels childId label)
      created lastChild := by
  have hgrow : ∀ c, (ids c).isSome = true → (Function.update ids childId (some (counter + 1)) c).isSome = true := by
    intro c hc
    by_cases hcc : c = childId
    · rw [hcc, Function.update_self]
      rfl
    · rw [Function.update_of_ne hcc]
      exact hc
  refine Sections.enqueue ⟨?_, ?_, ?_, ?_, h.created_of_last, ?_, ?_⟩ (fun _ => rfl) ?_
  · intro c n hc
    by_cases hcc : c = childId
    · rw [hcc, Function.update_self] at hc
      cases hc
      exact Nat.le_refl _
    · rw [Function.update_of_ne hcc] at hc
      exact Nat.le_succ_of_le (h.numbered c n hc)
  · intro c c' n hc hc'
    by_cases hcc : c = childId
    · by_cases hcc' : c' = childId
      · rw [hcc, hcc']
      · rw [hcc, Function.update_self] at hc
        rw [Function.update_of_ne hcc'] at hc'
        cases hc
        exact absurd (h.numbered c' _ hc') (by omega)
    · rw [Function.update_of_ne hcc] at hc
      by_cases hcc' : c' = childId
      · rw [hcc', Function.update_self] at hc'
        cases hc'
        exact absurd (h.numbered c _ hc) (by omega)
      · rw [Function.update_of_ne hcc'] at hc'
        exact h.distinct c c' n hc hc'
  · exact fun c e t hmem => hgrow c (h.create c e t hmem)
  · exact fun c hc => hgrow c (h.section_of_created c hc)
  · exact fun n hn => h.fresh n (by omega)
  · intro c n hc
    by_cases hcc : c = childId
    · subst hcc
      rw [Function.update_self] at hc
      cases hc
      have hlast : lastChild c = none := by
        cases hl : lastChild c with
        | none => rfl
        | some content =>
          have := h.section_of_created c (h.created_of_last c (by rw [hl]; rfl))
          rw [hid] at this
          cases this
      rw [h.fresh _ (Nat.lt_succ_self _), hlast]
      rfl
    · rw [Function.update_of_ne hcc] at hc ⊢
      exact h.sent c n hc
  · intro c e t hop
    cases hop
    rw [Function.update_self]
    rfl

end Queued

section Flush

variable {s : Card} {given : Option Text} {givenChild : Text → Option (Text × Bool)}

theorem flush_of_flushed (h : MainFlushed s.lastContent s.pendingContent) :
    s.flush = ({ s with throttleTimer := false }, none) := by
  rw [Card.flush]
  cases hp : s.pendingContent with
  | none => rfl
  | some content =>
    rw [hp] at h
    exact if_pos h

theorem flush_cases (s : Card) : MainFlushed s.lastContent s.pendingContent ∨
      ∃ content, s.pendingContent = some content ∧
        s.flush = (({ s with throttleTimer := false, lastContent := content,
                             pendingContent := none } : Card).enqueue (.content .main content),
          some s.opQueue.length) := by
  cases hp : s.pendingContent with
  | none => exact .inl rfl
  | some content =>
    by_cases heq : content = s.lastContent
    · exact .inl heq
    · refine .inr ⟨content, rfl, ?_⟩
      rw [Card.flush]
      dsimp only
      rw [hp]
      exact if_neg heq

theorem Core.flush (h : Core s given givenChild) : Core s.flush.1 given givenChild := by
  obtain hf | ⟨content, hpending, hs⟩ := flush_cases s
  · rw [flush_of_flushed hf]
    exact ⟨h.calls, h.main, h.sections, h.children⟩
  · have hmain := h.main
    rw [hpending] at hmain
    rw [hs]
    refine ⟨h.calls.enqueue, hmain.send, h.sections.enqueue ?_ nofun, h.children⟩
    intro n
    rw [contents_content, if_neg nofun]

theorem mainFlushed_flush (s : Card) : MainFlushed s.flush.1.lastContent s.flush.1.pendingContent := by
  obtain hf | ⟨content, -, hs⟩ := flush_cases s
  · rw [flush_of_flushed hf]
    exact hf
  · rw [hs]
    rfl

theorem flush_frame (s : Card) : s.flush.1.childCreated = s.childCreated ∧ s.flush.1.finishing = s.finishing ∧
      s.flush.1.childLastContent = s.childLastContent ∧
      s.flush.1.childPendingContent = s.childPendingContent := by
  obtain hf | ⟨content, -, hs⟩ := flush_cases s
  · rw [flush_of_flushed hf]
    exact ⟨rfl, rfl, rfl, rfl⟩
  · rw [hs]
    exact ⟨rfl, rfl, rfl, rfl⟩

variable {childId : Text}

theorem flushChild_of_flushed
    (h : ChildFlushed (s.childLastContent childId) (s.childPendingContent childId)) :
    s.flushChild childId =
      ({ s with childThrottleTimers := Function.update s.childThrottleTimers childId false }, none) := by
  rw [Card.flushChild]
  cases hp : s.childPendingContent childId with
  | none => rfl
  | some content =>
    rw [hp] at h
    exact if_pos h

theorem flushChild_cases (h : Core s given givenChild) (childId : Text) :
    ChildFlushed (s.childLastContent childId) (s.childPendingContent childId) ∨
      ∃ content n, s.childPendingContent childId = some content ∧ s.childElementIds childId = some n ∧
        s.flushChild childId = (({ s with
              childThrottleTimers := Function.update s.childThrottleTimers childId false,
              childLastContent := Function.update s.childLastContent childId (some content),
              childPendingContent := Function.update s.childPendingContent childId none } :
            Card).enqueue
              (.content (.child n) (formatChildContent (s.childLabels childId) content)),
            some s.opQueue.length) := by
  cases hp : s.childPendingContent childId with
  | none => exact .inl rfl
  | some content =>
    by_cases heq : some content = s.childLastContent childId
    · exact .inl heq
    · have hcreated := h.children.created_of_pending childId (by rw [hp]; rfl)
      obtain ⟨n, hn⟩ := Option.isSome_iff_exists.mp (h.sections.section_of_created childId hcreated)
      refine .inr ⟨content, n, rfl, hn, ?_⟩
      rw [Card.flushChild]
      dsimp only
      rw [hp]
      dsimp only
      rw [if_neg heq, hn]

theorem Core.flushChild (h : Core s given givenChild) (childId : Text) :
    Core (s.flushChild childId).1 given givenChild := by
  obtain hf | ⟨content, n, hpending, hn, hs⟩ := flushChild_cases h childId
  · rw [flushChild_of_flushed hf]
    exact ⟨h.calls, h.main, h.sections, h.children⟩
  · have hcreated := h.children.created_of_pending childId (by rw [hpending]; rfl)
    rw [hs]
    refine ⟨h.calls.enqueue, h.main.enqueue ?_, h.sections.send hn hcreated content, h.children.send hpending⟩
    rw [contents_content, if_neg nofun]

theorem childFlushed_flushChild (h : Core s given givenChild) (childId : Text) :
    ChildFlushed ((s.flushChild childId).1.childLastContent childId)
      ((s.flushChild childId).1.childPendingContent childId) := by
  obtain hf | ⟨content, n, -, -, hs⟩ := flushChild_cases h childId
  · rw [flushChild_of_flushed hf]
    exact hf
  · rw [hs]
    exact childFlushed_update childId content

theorem flushChild_frame (h : Core s given givenChild) (childId : Text) :
    (s.flushChild childId).1.childCreated = s.childCreated ∧ (s.flushChild childId).1.finishing = s.finishing ∧
      (s.flushChild childId).1.lastContent = s.lastContent ∧
      (s.flushChild childId).1.pendingContent = s.pendingContent := by
  obtain hf | ⟨content, n, -, -, hs⟩ := flushChild_cases h childId
  · rw [flushChild_of_flushed hf]
    exact ⟨rfl, rfl, rfl, rfl⟩
  · rw [hs]
    exact ⟨rfl, rfl, rfl, rfl⟩

theorem ChildFlushed.flushChild (h : Core s given givenChild) {c : Text} (childId : Text)
    (hc : ChildFlushed (s.childLastContent c) (s.childPendingContent c)) :
    ChildFlushed ((s.flushChild childId).1.childLastContent c)
      ((s.flushChild childId).1.childPendingContent c) := by
  by_cases hcc : c = childId
  · rw [hcc]
    exact childFlushed_flushChild h childId
  · obtain hf | ⟨content, n, -, -, hs⟩ := flushChild_cases h childId
    · rw [flushChild_of_flushed hf]
      exact hc
    · rw [hs]
      exact childFlushed_update_of_ne hcc content hc

end Flush

section Calls

variable {q q' : Queue Operation} {op : Operation} {calls : List Call} {sequence k : Nat}

theorem CallsInOrder.start (h : CallsInOrder q calls sequence)
    (hstart : SerialQueue.start q k = some (q', op)) :
    CallsInOrder q' (calls ++ [⟨op, sequence⟩]) (sequence + 1) where
  serial := h.serial.start hstart
  ops := by
    rw [List.map_append, h.ops, h.serial.started_start hstart]
    rfl
  numbers := by
    rw [List.map_append, h.numbers, List.length_append, List.length_singleton,
      List.range'_concat, List.map_singleton, h.next, Nat.one_mul, Nat.add_comm 1]
  next := by rw [h.next, List.length_append, List.length_singleton]

theorem CallsInOrder.settle (h : CallsInOrder q calls sequence)
    (hsettle : SerialQueue.settle q k = some (q', op)) : CallsInOrder q' calls sequence where
  serial := h.serial.settle hsettle
  ops := h.ops.trans (SerialQueue.started_settle hsettle).symm
  numbers := h.numbers
  next := h.next

theorem MainGiven.of_ops {last : Text} {pending given : Option Text}
    (h : MainGiven q last pending given) (hops : ops q' = ops q) :
    MainGiven q' last pending given := ⟨by rw [hops]; exact h.sent, h.given⟩

variable {counter : Nat} {ids : Text → Option Nat} {labels : Text → Option Text}
  {created : List Text} {lastChild pendingChild : Text → Option Text}
  {givenChild : Text → Option (Text × Bool)}

theorem Sections.of_ops (h : Sections q counter ids labels created lastChild)
    (hops : ops q' = ops q) : Sections q' counter ids labels created lastChild where
  numbered := h.numbered
  distinct := h.distinct
  create := by rw [hops]; exact h.create
  section_of_created := h.section_of_created
  created_of_last := h.created_of_last
  fresh := by rw [hops]; exact h.fresh
  sent := by rw [hops]; exact h.sent

theorem Sections.create_settled (h : Sections q counter ids labels created lastChild)
    {childId : Text} (hid : (ids childId).isSome = true) :
    Sections q counter ids labels (created ++ [childId]) lastChild where
  numbered := h.numbered
  distinct := h.distinct
  create := h.create
  section_of_created c hc := by
    rcases List.mem_append.mp hc with hc | hc
    · exact h.section_of_created c hc
    · rw [List.mem_singleton.mp hc]
      exact hid
  created_of_last c hc := List.mem_append_left _ (h.created_of_last c hc)
  fresh := h.fresh
  sent := h.sent

theorem ChildrenGiven.create_settled
    (h : ChildrenGiven created lastChild pendingChild givenChild) (childId : Text) :
    ChildrenGiven (created ++ [childId]) lastChild pendingChild givenChild where
  created_of_pending c hc := List.mem_append_left _ (h.created_of_pending c hc)
  given := h.given

theorem ChildrenGiven.pending_eq_none (h : ChildrenGiven created lastChild pendingChild givenChild)
    {c : Text} (hc : c ∉ created) : pendingChild c = none := by
  cases hp : pendingChild c with
  | none => rfl
  | some content => exact absurd (h.created_of_pending c (by rw [hp]; rfl)) hc

theorem Sections.last_eq_none (h : Sections q counter ids labels created lastChild)
    {c : Text} (hc : c ∉ created) : lastChild c = none := by
  cases hl : lastChild c with
  | none => rfl
  | some content => exact absurd (h.created_of_last c (by rw [hl]; rfl)) hc

theorem ChildrenGiven.give (h : ChildrenGiven created lastChild pendingChild givenChild)
    {childId : Text} (hmem : childId ∈ created) (content : Text) :
    ChildrenGiven created lastChild (Function.update pendingChild childId (some content))
      (Function.update givenChild childId (some (content, true))) where
  created_of_pending c hc := by
    by_cases hcc : c = childId
    · rw [hcc]
      exact hmem
    · rw [Function.update_of_ne hcc] at hc
      exact h.created_of_pending c hc
  given c := by
    by_cases hcc : c = childId
    · rw [hcc, Function.update_self, Function.update_self]
      rfl
    · rw [Function.update_of_ne hcc, Function.update_of_ne hcc]
      exact h.given c

theorem ChildrenGiven.drop (h : ChildrenGiven created lastChild pendingChild givenChild)
    {childId : Text} (hp : pendingChild childId = none) (hl : lastChild childId = none)
    (content : Text) :
    ChildrenGiven created lastChild pendingChild
      (Function.update givenChild childId (some (content, false))) where
  created_of_pending := h.created_of_pending
  given c := by
    by_cases hcc : c = childId
    · rw [hcc, Function.update_self, hp, hl]
      rfl
    · rw [Function.update_of_ne hcc]
      exact h.given c

end Calls

section Steps

variable {s s' : Card} {given : Option Text} {givenChild : Text → Option (Text × Bool)}

theorem Reached.idle (h : s.finishing = .idle) : Reached s := by
  rw [Reached, h]
  trivial

theorem Reached.mono (h : Reached s) (hf : s'.finishing = s.finishing)
    (hmain : MainFlushed s.lastContent s.pendingContent → MainFlushed s'.lastContent s'.pendingContent)
    (hchild : ∀ c, ChildFlushed (s.childLastContent c) (s.childPendingContent c) →
      ChildFlushed (s'.childLastContent c) (s'.childPendingContent c))
    (hcreated : ∀ (j : Nat), ∀ c ∈ s'.childCreated[j]?, c ∈ s.childCreated[j]? ∨
      ChildFlushed (s'.childLastContent c) (s'.childPendingContent c))
    (hlen : Flushed s → s'.opQueue.length = s.opQueue.length)
    (hsettled : Flushed s → AllSettled s.opQueue → AllSettled s'.opQueue) : Reached s' := by
  have hflushed : Flushed s → Flushed s' := fun hs => ⟨hmain hs.1, fun c => hchild c (hs.2 c)⟩
  rw [Reached] at h ⊢
  rw [hf]
  cases hfin : s.finishing with
  | idle => trivial
  | main awaited =>
    rw [hfin] at h
    exact hmain h
  | child i awaited =>
    rw [hfin] at h
    refine ⟨hmain h.1, fun j hj c hc => ?_⟩
    rcases hcreated j c hc with hold | hnew
    · exact hchild c (h.2 j hj c hold)
    · exact hnew
  | closing k =>
    rw [hfin] at h
    exact ⟨hflushed h.1, (hlen h.1).trans h.2⟩
  | settling | done =>
    rw [hfin] at h
    exact ⟨hflushed h.1, hsettled h.1 h.2⟩

theorem Reached.flush (h : Reached s) : Reached s.flush.1 := by
  obtain ⟨hcreated, hf, hlast, hpending⟩ := flush_frame s
  refine h.mono hf (fun _ => mainFlushed_flush s) ?_ ?_ ?_ ?_
  · intro c hc
    rw [hlast, hpending]
    exact hc
  · intro j c hc
    rw [hcreated] at hc
    exact .inl hc
  · intro hs
    rw [flush_of_flushed hs.1]
  · intro hs hall
    rw [flush_of_flushed hs.1]
    exact hall

theorem Reached.flushChild (h : Reached s) (hcore : Core s given givenChild) (childId : Text) :
    Reached (s.flushChild childId).1 := by
  obtain ⟨hcreated, hf, hlast, hpending⟩ := flushChild_frame hcore childId
  refine h.mono hf ?_ (fun c hc => hc.flushChild hcore childId) ?_ ?_ ?_
  · intro hm
    rw [hlast, hpending]
    exact hm
  · intro j c hc
    rw [hcreated] at hc
    exact .inl hc
  · intro hs
    rw [flushChild_of_flushed (hs.2 childId)]
  · intro hs hall
    rw [flushChild_of_flushed (hs.2 childId)]
    exact hall

theorem inv_nextChild (hcore : Core s given givenChild) {i : Nat}
    (hmain : MainFlushed s.lastContent s.pendingContent)
    (hbefore : ∀ j < i, ∀ c ∈ s.childCreated[j]?, ChildFlushed (s.childLastContent c) (s.childPendingContent c)) :
    Core (s.nextChild i) given givenChild ∧ Reached (s.nextChild i) := by
  rw [Card.nextChild]
  cases hi : s.childCreated[i]? with
  | some childId =>
    have hflush := hcore.flushChild childId
    obtain ⟨hcreated, hf, hlast, hpending⟩ := flushChild_frame hcore childId
    refine ⟨⟨hflush.calls, hflush.main, hflush.sections, hflush.children⟩, ?_, ?_⟩
    · change MainFlushed (s.flushChild childId).1.lastContent _
      rw [hlast]
      change MainFlushed _ (s.flushChild childId).1.pendingContent
      rw [hpending]
      exact hmain
    · intro j hj c hc
      change c ∈ (s.flushChild childId).1.childCreated[j]? at hc
      rw [hcreated] at hc
      rcases Nat.lt_or_eq_of_le hj with hj | rfl
      · exact (hbefore j hj c hc).flushChild hcore childId
      · rw [hi] at hc
        cases hc
        exact childFlushed_flushChild hcore childId
  | none =>
    refine ⟨⟨hcore.calls.enqueue, hcore.main.enqueue rfl, hcore.sections.enqueue (fun _ => rfl) nofun,
      hcore.children⟩, ⟨hmain, fun c => ?_⟩, ?_⟩
    · by_cases hc : c ∈ s.childCreated
      · obtain ⟨j, hj⟩ := List.mem_iff_getElem?.mp hc
        have hji : j < i := Nat.lt_of_lt_of_le (List.getElem?_eq_some_iff.mp hj).1
          (List.getElem?_eq_none_iff.mp hi)
        exact hbefore j hji c hj
      · change ChildFlushed _ (s.childPendingContent c)
        rw [hcore.children.pending_eq_none hc]
        rfl
    · change (SerialQueue.enqueue s.opQueue .settings).length = _
      rw [SerialQueue.enqueue, List.length_append]
      rfl

theorem Core.addChildSection (h : Core s given givenChild) (childId : Text)
    (label : Option Text) : Core (s.addChildSection childId label) given givenChild := by
  rw [Card.addChildSection]
  split
  · exact h
  · rename_i hid
    have hnone : s.childElementIds childId = none :=
      Option.not_isSome_iff_eq_none.mp hid
    exact ⟨h.calls.enqueue, h.main.enqueue rfl, h.sections.add hnone _ _, h.children⟩

theorem addChildSection_finishing (childId : Text) (label : Option Text) :
    (s.addChildSection childId label).finishing = s.finishing := by
  rw [Card.addChildSection]
  split <;> rfl

theorem Core.updateChildContent (h : Core s given givenChild) (childId content : Text) :
    Core (s.updateChildContent childId content) given
      (Function.update givenChild childId
        (some (content, decide (childId ∈ s.childCreated)))) := by
  rw [Card.updateChildContent]
  split
  · rename_i hmem
    rw [decide_eq_true hmem]
    exact ⟨h.calls, h.main, h.sections, h.children.give hmem content⟩
  · rename_i hmem
    rw [decide_eq_false hmem]
    exact ⟨h.calls, h.main, h.sections,
      h.children.drop (h.children.pending_eq_none hmem) (h.sections.last_eq_none hmem) content⟩

theorem updateChildContent_finishing (childId content : Text) :
    (s.updateChildContent childId content).finishing = s.finishing := by
  rw [Card.updateChildContent]
  split <;> rfl

theorem start_cases {k : Nat} (h : s.start k = some s') : ∃ q op, SerialQueue.start s.opQueue k = some (q, op) ∧
      s' = { s with opQueue := q, calls := s.calls ++ [⟨op, s.sequence⟩],
                    sequence := s.sequence + 1 } := by
  obtain ⟨r, hr, rfl⟩ := Option.map_eq_some_iff.mp h
  exact ⟨r.1, r.2, hr, rfl⟩

theorem settle_cases {k : Nat} (h : s.settle k true = some s') :
    ∃ q op, SerialQueue.settle s.opQueue k = some (q, op) ∧ s' = Card.afterCall { s with opQueue := q } op true := by
  obtain ⟨r, hr, rfl⟩ := Option.map_eq_some_iff.mp h
  exact ⟨r.1, r.2, hr, rfl⟩

theorem Core.start (h : Core s given givenChild) {k : Nat} (hs : s.start k = some s') : Core s' given givenChild := by
  obtain ⟨q, op, hstart, rfl⟩ := start_cases hs
  have hops := SerialQueue.ops_start hstart
  exact ⟨h.calls.start hstart, h.main.of_ops hops, h.sections.of_ops hops, h.children⟩

theorem Reached.start (h : Reached s) {k : Nat} (hs : s.start k = some s') : Reached s' := by
  obtain ⟨q, op, hstart, rfl⟩ := start_cases hs
  refine h.mono rfl (fun hm => hm) (fun _ hc => hc) (fun _ _ hc => .inl hc) ?_ ?_
  · intro _
    have := congrArg List.length (SerialQueue.ops_start hstart)
    rwa [SerialQueue.ops, SerialQueue.ops, List.length_map, List.length_map] at this
  · intro _ hall
    rw [hall.start] at hstart
    cases hstart

theorem Core.afterCall (h : Core s given givenChild) {k : Nat} {q : Queue Operation}
    {op : Operation} (hsettle : SerialQueue.settle s.opQueue k = some (q, op)) :
    Core (Card.afterCall { s with opQueue := q } op true) given givenChild := by
  have hops := SerialQueue.ops_settle hsettle
  have hmem := SerialQueue.mem_ops_settle hsettle
  have hcore : Core { s with opQueue := q } given givenChild :=
    ⟨h.calls.settle hsettle, h.main.of_ops hops, h.sections.of_ops hops, h.children⟩
  cases op with
  | content element text => exact hcore
  | settings => exact ⟨hcore.calls, hcore.main, hcore.sections, hcore.children⟩
  | create childId element text =>
    have hid := h.sections.create childId element text hmem
    rw [Card.afterCall, if_pos rfl]
    dsimp only
    split
    · exact ⟨hcore.calls, hcore.main, hcore.sections, hcore.children⟩
    · exact ⟨hcore.calls, hcore.main, hcore.sections.create_settled hid, hcore.children.create_settled childId⟩

theorem afterCall_frame (op : Operation) : (s.afterCall op true).finishing = s.finishing ∧
      (s.afterCall op true).opQueue = s.opQueue ∧
      (s.afterCall op true).lastContent = s.lastContent ∧
      (s.afterCall op true).pendingContent = s.pendingContent ∧
      (s.afterCall op true).childLastContent = s.childLastContent ∧
      (s.afterCall op true).childPendingContent = s.childPendingContent := by
  cases op <;> exact ⟨rfl, rfl, rfl, rfl, rfl, rfl⟩

theorem afterCall_created (h : Core s given givenChild) (op : Operation) {j : Nat} {c : Text}
    (hc : c ∈ (s.afterCall op true).childCreated[j]?) :
    c ∈ s.childCreated[j]? ∨ ChildFlushed (s.childLastContent c) (s.childPendingContent c) := by
  cases op with
  | content element text | settings => exact .inl hc
  | create childId element text =>
    rw [Card.afterCall, if_pos rfl] at hc
    dsimp only at hc
    split at hc
    · exact .inl hc
    · rename_i hnot
      by_cases hj : j < s.childCreated.length
      · rw [List.getElem?_append_left hj] at hc
        exact .inl hc
      · rw [List.getElem?_append_right (Nat.le_of_not_lt hj)] at hc
        have hcc := List.mem_of_getElem? hc
        rw [List.mem_singleton.mp hcc, h.children.pending_eq_none hnot]
        exact .inr rfl

theorem Reached.settle (h : Reached s) (hcore : Core s given givenChild) {k : Nat}
    (hs : s.settle k true = some s') : Reached s' := by
  obtain ⟨q, op, hsettle, rfl⟩ := settle_cases hs
  obtain ⟨hf, hq, hl, hp, hcl, hcp⟩ := @afterCall_frame { s with opQueue := q } op
  refine h.mono hf ?_ ?_ ?_ ?_ ?_
  · rw [hl, hp]
    exact fun hm => hm
  · rw [hcl, hcp]
    exact fun _ hc => hc
  · intro j c hc
    rw [hcl, hcp]
    have hops := SerialQueue.ops_settle hsettle
    exact afterCall_created (s := { s with opQueue := q })
      ⟨hcore.calls.settle hsettle, hcore.main.of_ops hops, hcore.sections.of_ops hops, hcore.children⟩ op hc
  · intro _
    have := congrArg List.length (SerialQueue.ops_settle hsettle)
    rw [SerialQueue.ops, SerialQueue.ops, List.length_map, List.length_map] at this
    rw [hq]
    exact this
  · intro _ hall
    rw [hall.settle] at hsettle
    cases hsettle

theorem inv_resume (hcore : Core s given givenChild) (h : Reached s) (hs : s.resume = some s') :
    Core s' given givenChild ∧ Reached s' := by
  rw [Card.resume] at hs
  rw [Reached] at h
  cases hf : s.finishing with
  | idle | done =>
    rw [hf] at hs
    cases hs
  | main awaited =>
    rw [hf] at hs h
    dsimp only at hs
    split at hs
    · cases hs
      exact inv_nextChild hcore h fun j hj => absurd hj (Nat.not_lt_zero j)
    · cases hs
  | child i awaited =>
    rw [hf] at hs h
    dsimp only at hs
    split at hs
    · cases hs
      exact inv_nextChild hcore h.1 fun j hj => h.2 j (Nat.le_of_lt_succ hj)
    · cases hs
  | closing k =>
    rw [hf] at hs h
    dsimp only at hs
    split at hs
    · rename_i hsettled
      cases hs
      have hall : AllSettled s.opQueue := hcore.calls.serial.allSettled hsettled h.2
      refine ⟨⟨hcore.calls, hcore.main, hcore.sections, hcore.children⟩, ?_⟩
      generalize (s.streamingClosed && !s.childCreated.isEmpty && s.messageId.isSome) = patched
      cases patched <;> exact ⟨h.1, hall⟩
    · cases hs
  | settling =>
    rw [hf] at hs h
    cases hs
    exact ⟨⟨hcore.calls, hcore.main, hcore.sections, hcore.children⟩, h⟩

end Steps

section Runs

open Transition

theorem inv_step (o : Observed) (e : Event) (o' : Observed) (hok : Expected o e) (h : Inv o)
    (hs : observe o e = some o') : Inv o' := by
  obtain ⟨card, hcard, rfl⟩ := Option.map_eq_some_iff.mp hs
  obtain ⟨hcore, hreached⟩ := h
  cases e with
  | updateContent content =>
    cases hcard
    exact ⟨⟨hcore.calls, ⟨hcore.main.sent, rfl⟩, hcore.sections, hcore.children⟩, Reached.idle hok⟩
  | addChildSection childId label =>
    cases hcard
    exact ⟨hcore.addChildSection childId label, Reached.idle ((addChildSection_finishing childId label).trans hok)⟩
  | updateChildContent childId content =>
    cases hcard
    exact ⟨hcore.updateChildContent childId content,
      Reached.idle ((updateChildContent_finishing childId content).trans hok)⟩
  | throttle =>
    rw [step] at hcard
    split at hcard
    · cases hcard
      exact ⟨hcore.flush, hreached.flush⟩
    · cases hcard
  | childThrottle childId =>
    rw [step] at hcard
    split at hcard
    · cases hcard
      exact ⟨hcore.flushChild childId, hreached.flushChild hcore childId⟩
    · cases hcard
  | start k => exact ⟨hcore.start hcard, hreached.start hcard⟩
  | settle k success =>
    cases hok
    obtain ⟨q, op, hsettle, rfl⟩ := settle_cases hcard
    exact ⟨hcore.afterCall hsettle, hreached.settle hcore hcard⟩
  | send messageId =>
    cases hcard
    exact ⟨⟨hcore.calls, hcore.main, hcore.sections, hcore.children⟩, hreached⟩
  | finish =>
    rw [step, Card.finish] at hcard
    split at hcard
    · cases hcard
      have hflush := hcore.flush
      exact ⟨⟨hflush.calls, hflush.main, hflush.sections, hflush.children⟩, mainFlushed_flush o.card⟩
    · cases hcard
  | resume =>
    obtain ⟨hcore', hreached'⟩ := inv_resume hcore hreached hcard
    exact ⟨hcore', hreached'⟩

def OneAtATime (s : Card) : Prop :=
  ∀ (i j : Nat) (a b : SerialQueue.Job Operation), s.opQueue[i]? = some a →
    s.opQueue[j]? = some b → a.status = .running → b.status = .running → i = j

def MainLastSent (o : Observed) : Prop :=
  ∀ content, o.given = some content → lastSent o.card .main = some content

def ChildrenLastSent (o : Observed) : Prop :=
  ∀ c n content createdThen, o.card.childElementIds c = some n → o.givenChild c = some (content, createdThen) →
    lastSent o.card (.child n) = some (formatChildContent (o.card.childLabels c) content)

/-- The same where the main element has content to be replaced, and where the section of the child
had been created when the content was given; earlier content of a child is not sent. -/
def Delivered (o : Observed) : Prop :=
  (∀ content, o.given = some content →
    lastSent o.card .main = some content ∨ content = [] ∧ lastSent o.card .main = none) ∧
    ∀ c n content createdThen, o.card.childElementIds c = some n → o.givenChild c = some (content, createdThen) →
      lastSent o.card (.child n) =
        if createdThen then some (formatChildContent (o.card.childLabels c) content) else none

variable {o : Observed}

theorem Inv.lastSent_main (h : Inv o) (hdone : o.card.finishing = .done) {content : Text}
    (hgiven : o.given = some content) :
    lastSent o.card .main = some content ∨ content = [] ∧ lastSent o.card .main = none := by
  have hreached := h.reached
  rw [Reached, hdone] at hreached
  obtain ⟨⟨hmain, -⟩, hall⟩ := hreached
  have hlast : o.card.lastContent = content := by
    have hg := h.core.main.given
    rw [hgiven] at hg
    exact hmain.symm.trans hg
  have hsent := h.core.main.sent
  rw [hlast, ← hall.started, ← h.core.calls.ops] at hsent
  rw [lastSent]
  cases hcontents : (contents .main (o.card.calls.map (·.op))).getLast? with
  | none =>
    rw [hcontents] at hsent
    exact .inr ⟨hsent, rfl⟩
  | some text =>
    rw [hcontents] at hsent
    exact .inl (congrArg some hsent.symm)

theorem Inv.lastSent_child (h : Inv o) (hdone : o.card.finishing = .done) {c : Text} {n : Nat}
    (hid : o.card.childElementIds c = some n) :
    lastSent o.card (.child n) = (accepted (o.givenChild c)).map (formatChildContent (o.card.childLabels c)) := by
  have hreached := h.reached
  rw [Reached, hdone] at hreached
  obtain ⟨⟨-, hchild⟩, hall⟩ := hreached
  rw [lastSent, h.core.calls.ops, hall.started, h.core.sections.sent c n hid, ← h.core.children.given c, hchild c]

/-- A run in which `finish` comes last and the API succeeds. -/
theorem delivery {es : List Event} (hrun : Runs observe Expected .initial es o) :
    OneAtATime o.card ∧ (o.card.calls.map (·.sequence)).Pairwise (· < ·) ∧
      (o.card.finishing = .done → Delivered o) := by
  have hinv : Inv o := hrun.invariant inv_step inv_initial
  refine ⟨fun i j a b => hinv.core.calls.serial.running_unique, ?_, fun hdone => ⟨?_, ?_⟩⟩
  · rw [hinv.core.calls.numbers]
    exact List.pairwise_lt_range'
  · exact fun content hgiven => hinv.lastSent_main hdone hgiven
  · intro c n content createdThen hid hgiven
    rw [hinv.lastSent_child hdone hid, hgiven]
    cases createdThen <;> rfl

def childRun (early : Bool) : List Event :=
  let childId : Text := [0x61]
  let content : Event := .updateChildContent childId [0x78]
  [.addChildSection childId none] ++ (if early then [content] else []) ++
    [.start 0, .settle 0 true] ++ (if early then [] else [content]) ++
    [.finish, .resume] ++ (if early then [] else [.start 1, .settle 1 true]) ++ [.resume] ++
    (if early then [.start 1, .settle 1 true] else [.start 2, .settle 2 true]) ++ [.resume]

theorem delivery_childRun : ∃ o, Runs observe Expected .initial (childRun false) o ∧ o.card.finishing = .done ∧
      OneAtATime o.card ∧ (o.card.calls.map (·.sequence)).Pairwise (· < ·) ∧ Delivered o := by
  obtain ⟨o, hrun, hdone⟩ := @exists_of_run_any _ _ (guarded observe Expected) .initial
    (childRun false) (fun o => o.card.finishing = .done) inferInstance (by decide +kernel)
  have h := delivery (Runs.of_guarded hrun)
  exact ⟨o, Runs.of_guarded hrun, hdone, h.1, h.2.1, h.2.2 hdone⟩

def emptyRun : List Event :=
  [.updateContent [], .finish, .resume, .start 0, .settle 0 true, .resume]

theorem content_lost : (¬∀ es o, Runs observe Expected .initial es o → o.card.finishing = .done → ChildrenLastSent o) ∧
      ¬∀ es o, Runs observe Expected .initial es o → o.card.finishing = .done → MainLastSent o := by
  constructor
  · intro h
    obtain ⟨o, hrun, hdone, hid, hgiven, hlost⟩ := @exists_of_run_any _ _
      (guarded observe Expected) .initial (childRun true)
      (fun o => o.card.finishing = .done ∧ o.card.childElementIds [0x61] = some 1 ∧
        o.givenChild [0x61] = some ([0x78], false) ∧ lastSent o.card (.child 1) = none)
      inferInstance (by decide +kernel)
    have hsent := h _ o (Runs.of_guarded hrun) hdone [0x61] 1 [0x78] false hid hgiven
    rw [hlost] at hsent
    cases hsent
  · intro h
    obtain ⟨o, hrun, hdone, hgiven, hlost⟩ := @exists_of_run_any _ _
      (guarded observe Expected) .initial emptyRun
      (fun o => o.card.finishing = .done ∧ o.given = some [] ∧ lastSent o.card .main = none)
      inferInstance (by decide +kernel)
    have hsent := h _ o (Runs.of_guarded hrun) hdone [] hgiven
    rw [hlost] at hsent
    cases hsent

end Runs

end A2Wave.StreamingCard
