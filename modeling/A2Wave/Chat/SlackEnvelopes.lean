import A2Wave.Chat.SlackConnections

/-! `lib/slack-service.ts`: what becomes of the envelopes that Slack delivers, from `handleEnvelope` to
the acknowledgement, cut at every await. -/

namespace A2Wave.SlackEnvelopes

open Transition ChatConnections.Slack

structure SlackFileEvent where
  id : Option String
  deriving DecidableEq

inductive EventType
  | message
  | app_mention
  deriving DecidableEq

structure SlackMessageEvent where
  type : EventType
  channel : String
  channel_type : Option String := none
  user : Option String
  text : Option String
  ts : Option String
  subtype : Option String := none
  bot_id : Option String := none
  files : List SlackFileEvent := []
  deriving DecidableEq

/-- An envelope, with what `handleEnvelope` reads of the connection that received it. -/
structure SlackEventEnvelope where
  agentId : String
  config : SlackConfig
  botUserId : String
  teamId : String
  team_id : Option String
  event : Option SlackMessageEvent
  deriving DecidableEq

def isSet (s : Option String) : Bool := s.any (· ≠ "")

def isDirectMessage (event : SlackMessageEvent) : Bool :=
  event.channel_type = some "im" || event.channel.toList.head? = some 'D'

/-- `s.includes(t)`. -/
def includes (s t : List Char) : Bool := s.tails.any fun r => t.isPrefixOf r

def mentionOf (botUserId : String) : List Char := s!"<@{botUserId}>".toList

def shouldTriggerSlackEvent (config : SlackConfig) (event : SlackMessageEvent) (botUserId : String) : Bool :=
  if !isSet event.user || event.channel = "" || !isSet event.ts || isSet event.bot_id ||
    (isSet event.subtype && event.subtype ≠ some "file_share") then false
  else if isDirectMessage event then true
  else
    let isMentioned := botUserId ≠ "" && includes (event.text.getD "").toList (mentionOf botUserId)
    (config.groupTriggerOnAt && isMentioned) || config.groupTriggerOnNewMessage

def buildSlackDedupKey (teamId channel : String) (ts : Option String) : String :=
  let ts := ts.getD "unknown"
  s!"slack:{teamId}:{channel}:{ts}"

def extractSlackNativeAttachments (event : SlackMessageEvent) : List SlackFileEvent :=
  event.files.filter fun file => isSet file.id

/-- `s.replaceAll(t, '')`; so many characters of a match are still to be skipped. -/
def removeAll (t : List Char) : Nat → List Char → List Char
  | _, [] => []
  | skip + 1, _ :: s => removeAll t skip s
  | 0, c :: s => if t.isPrefixOf (c :: s) then removeAll t (t.length - 1) s else c :: removeAll t 0 s

/-- `s.replace(/\s+/g, ' ')`; whether the last character was white space. -/
def collapse : Bool → List Char → List Char
  | _, [] => []
  | inside, c :: s =>
    if isTrimmed c then (if inside then collapse true s else ' ' :: collapse true s)
    else c :: collapse false s

def stripSlackBotMention (text botUserId : String) : String :=
  TaskStore.trim (String.ofList (collapse false (removeAll (mentionOf botUserId) 0 text.toList)))

inductive ChatType
  | p2p
  | group
  deriving DecidableEq

structure CommandPlugin where
  commandName : String
  prefixes : List String
  allowedContexts : Option (List ChatType) := none
  emptyTextFallback : Option String := none
  responds : Bool := false

def newCommandPlugin : CommandPlugin where
  commandName := "new"
  prefixes := ["/new"]
  allowedContexts := some [.p2p]
  emptyTextFallback := some "新会话已开始"

def statusCommandPlugin : CommandPlugin where
  commandName := "status"
  prefixes := ["/status", "/状态"]
  responds := true

def NATIVE_CHAT_COMMANDS : List CommandPlugin := [newCommandPlugin, statusCommandPlugin]

def matchPrefix (text : List Char) (command : String) : Option (List Char) :=
  if command.toList.isPrefixOf text then
    let after := text.drop command.length
    if after.head?.all isTrimmed then some (after.dropWhile isTrimmed) else none
  else none

def matchByLongestPrefix (text : String) (candidates : List CommandPlugin) : Option (CommandPlugin × String) :=
  let trimmed := text.toList.dropWhile isTrimmed
  candidates.findSome? fun plugin =>
    plugin.prefixes.findSome? fun command =>
      (matchPrefix trimmed command).map fun rest => (plugin, String.ofList rest)

/-- What `interceptNativeChatCommand` makes of the text before it reads the Agent. -/
inductive Command
  | none
  | session (intent : String)
  | responder
  deriving DecidableEq

def interceptNativeChatCommand (text : String) (chatType : ChatType) : Command :=
  match matchByLongestPrefix text NATIVE_CHAT_COMMANDS with
  | Option.none => .none
  | some (plugin, rest) =>
    if plugin.allowedContexts.any (!·.contains chatType) then .none
    else if plugin.responds then .responder
    else .session (if rest = "" then plugin.emptyTextFallback.getD rest else rest)

inductive Reason
  | untriggered
  | empty
  | unpublished
  | muted
  | answered
  | reserved
  | superseded (sibling : Nat)
  deriving DecidableEq

inductive Phase
  | intercept
  | selectResponderAgent
  | respond
  | sendReply
  | ackSuperseded
  | deferred
  | selectAgent
  | resolveConversation
  | insertRun
  | acquireSlot
  | settleQueueFull
  | settleFailed
  | sendNotice
  | acknowledged (reason : Reason)
  | dropped
  deriving DecidableEq

structure Handler where
  replica : String
  envelope : SlackEventEnvelope
  event : SlackMessageEvent
  phase : Phase
  deriving DecidableEq

inductive RunStatus
  | pending
  | failed (error : String)
  deriving DecidableEq

/-- The index `runs_native_chat_event_unique` is on `initiatorAgentId` and `triggerEventId`. -/
structure Run where
  initiatorAgentId : String
  triggerEventId : String
  intent : String
  resetSession : Bool
  status : RunStatus
  deriving DecidableEq

namespace Handler

def chatType (h : Handler) : ChatType := if isDirectMessage h.event then .p2p else .group

def textIntent (h : Handler) : String := stripSlackBotMention (h.event.text.getD "") h.envelope.botUserId

def intent (h : Handler) : String :=
  if h.textIntent = "" then "Please review the attached files." else h.textIntent

def command (h : Handler) : Command := interceptNativeChatCommand h.intent h.chatType

def runIntent (h : Handler) : String :=
  match h.command with
  | .session intent => intent
  | _ => h.intent

def resetSession (h : Handler) : Bool :=
  match h.command with
  | .session _ => true
  | _ => false

def eventId (h : Handler) : String :=
  buildSlackDedupKey (h.envelope.team_id.getD h.envelope.teamId) h.event.channel h.event.ts

def key (h : Handler) : String × String := (h.envelope.agentId, h.eventId)

/-- `pendingMentions` is a map of each replica; an id of an Agent has no blank. -/
def pendingKey (h : Handler) : String × String × String := (h.replica, h.key)

def isEmpty (h : Handler) : Bool := h.textIntent = "" && (extractSlackNativeAttachments h.event).isEmpty

end Handler

def Run.key (r : Run) : String × String := (r.initiatorAgentId, r.triggerEventId)

structure World where
  handlers : List Handler := []
  pendingMentions : String × String × String → Option Nat := fun _ => none
  runs : List Run := []
  replies : List (String × String) := []

namespace World

def setPhase (w : World) (i : Nat) (h : Handler) (phase : Phase) : World :=
  { w with handlers := w.handlers.set i { h with phase := phase } }

def acknowledge (w : World) (i : Nat) (h : Handler) (reason : Reason) : World :=
  w.setPhase i h (.acknowledged reason)

/-- `handleEnvelope` up to its first await. -/
def deliver (w : World) (replica : String) (envelope : SlackEventEnvelope) : World :=
  match envelope.event with
  | none => w
  | some event =>
    let h : Handler := ⟨replica, envelope, event, .intercept⟩
    let phase : Phase :=
      if !shouldTriggerSlackEvent envelope.config event envelope.botUserId then .acknowledged .untriggered
      else if h.isEmpty then .acknowledged .empty
      else if h.command = .responder then .selectResponderAgent
      else .intercept
    { w with handlers := w.handlers ++ [{ h with phase := phase }] }

def defer (w : World) (i : Nat) (h : Handler) : World :=
  if h.event.type = .app_mention then
    let w := { w with pendingMentions := Function.update w.pendingMentions h.pendingKey (some i) }
    w.setPhase i h .deferred
  else w.setPhase i h .selectAgent

/-- What `handleEnvelope` does for a message that no command answers. -/
def proceed (w : World) (i : Nat) (h : Handler) : World :=
  match w.pendingMentions h.pendingKey with
  | some k =>
    let w := { w with pendingMentions := Function.update w.pendingMentions h.pendingKey none }
    let w := { w with handlers := w.handlers.modify k fun g => { g with phase := .acknowledged (.superseded i) } }
    w.setPhase i h .ackSuperseded
  | none => w.defer i h

def fire (w : World) (i : Nat) (h : Handler) : World :=
  let w := { w with pendingMentions := Function.update w.pendingMentions h.pendingKey none }
  w.setPhase i h .selectAgent

def insertRun (w : World) (h : Handler) : World :=
  { w with runs := w.runs ++ [⟨h.envelope.agentId, h.eventId, h.runIntent, h.resetSession, .pending⟩] }

def settle (w : World) (h : Handler) (error : String) (onlyPending : Bool) : World :=
  { w with runs := w.runs.map fun r =>
      if r.key = h.key ∧ (onlyPending → r.status = .pending) then { r with status := .failed error } else r }

def clearPendingMentions (w : World) (replica agentId : String) : World :=
  { w with
    pendingMentions := fun key => if key.1 = replica ∧ key.2.1 = agentId then none else w.pendingMentions key
    handlers := w.handlers.mapIdx fun k h =>
      if h.replica = replica ∧ h.envelope.agentId = agentId ∧ w.pendingMentions h.pendingKey = some k
      then { h with phase := .dropped } else h }

end World

inductive Slot
  | acquired
  | queued
  | queue_full
  deriving DecidableEq

inductive Outcome
  | resolves
  | rejects
  | rejectsAfter
  /-- No Agent, no answer, an Agent that does not publish here, a reply mode of `none`, or no row left
  to settle. -/
  | declines
  | slot (slot : Slot)
  deriving DecidableEq

def act (w : World) (i : Nat) (h : Handler) (outcome : Outcome) : Option World :=
  match h.phase with
  | .intercept => some (w.proceed i h)
  | .selectResponderAgent =>
    match outcome with
    | .resolves => some (w.setPhase i h .respond)
    | .declines => some (w.proceed i h)
    | _ => some (w.setPhase i h .dropped)
  | .respond =>
    match outcome with
    | .declines => some (w.proceed i h)
    | _ => some (w.setPhase i h .sendReply)
  | .sendReply =>
    let posted := { w with replies := w.replies ++ [h.key] }
    match outcome with
    | .resolves => some (posted.acknowledge i h .answered)
    | .rejectsAfter => some (posted.setPhase i h .dropped)
    | .declines => some (w.acknowledge i h .muted)
    | _ => some (w.setPhase i h .dropped)
  | .ackSuperseded => some (w.defer i h)
  | .deferred => some (w.fire i h)
  | .selectAgent =>
    match outcome with
    | .resolves => some (w.setPhase i h .resolveConversation)
    | .declines => some (w.acknowledge i h .unpublished)
    | _ => some (w.setPhase i h .dropped)
  | .resolveConversation =>
    match outcome with
    | .resolves => some (w.setPhase i h .insertRun)
    | _ => some (w.setPhase i h .dropped)
  | .insertRun =>
    if w.runs.any (·.key = h.key) then
      if outcome = .rejects then some (w.setPhase i h .dropped) else some (w.acknowledge i h .reserved)
    else
      match outcome with
      | .resolves => some ((w.insertRun h).setPhase i h .acquireSlot)
      | .rejectsAfter => some ((w.insertRun h).setPhase i h .dropped)
      | _ => some (w.setPhase i h .dropped)
  | .acquireSlot =>
    match outcome with
    | .slot .queue_full => some (w.setPhase i h .settleQueueFull)
    | .slot _ => some (w.acknowledge i h .reserved)
    | _ => some (w.setPhase i h .settleFailed)
  | .settleQueueFull =>
    match outcome with
    | .resolves => some ((w.settle h "Agent queue is full" false).setPhase i h .sendNotice)
    | _ => some (w.setPhase i h .settleFailed)
  | .settleFailed =>
    match outcome with
    | .resolves => some ((w.settle h "Native chat scheduling failed" true).setPhase i h .sendNotice)
    | _ => some (w.setPhase i h .dropped)
  | .sendNotice =>
    if outcome = .rejects then some (w.setPhase i h .dropped) else some (w.acknowledge i h .reserved)
  | .acknowledged _ | .dropped => none

inductive Event
  | deliver (replica : String) (envelope : SlackEventEnvelope)
  | act (i : Nat) (outcome : Outcome)
  | clearPendingMentions (replica agentId : String)

def step (w : World) : Event → Option World
  | .deliver replica envelope => some (w.deliver replica envelope)
  | .act i outcome => w.handlers[i]?.bind fun h => SlackEnvelopes.act w i h outcome
  | .clearPendingMentions replica agentId => some (w.clearPendingMentions replica agentId)

def allowed (w : World) : Event → Bool
  | .act i outcome => w.handlers[i]?.all fun h =>
    !(h.phase = .respond && outcome ≠ .declines) ||
      (!w.replies.contains h.key && w.handlers.all fun g => !(g.phase = .sendReply && g.key = h.key))
  | _ => true

def Justified (w : World) (i : Nat) (h : Handler) : Reason → Prop
  | .untriggered => shouldTriggerSlackEvent h.envelope.config h.event h.envelope.botUserId = false
  | .empty => h.isEmpty = true
  | .unpublished | .muted => True
  | .answered => h.key ∈ w.replies
  | .reserved => ∃ r ∈ w.runs, r.key = h.key
  | .superseded j => j ≠ i ∧ ∃ g, w.handlers[j]? = some g ∧ g.key = h.key

def Phase.holdsRun : Phase → Bool
  | .acquireSlot | .settleQueueFull | .settleFailed | .sendNotice => true
  | _ => false

structure Inv (w : World) : Prop where
  runs : (w.runs.map Run.key).Nodup
  replies : w.replies.Nodup
  sending : ∀ (i : Nat) h, w.handlers[i]? = some h → h.phase = .sendReply → h.key ∉ w.replies ∧
    ∀ (j : Nat) g, w.handlers[j]? = some g → g.phase = .sendReply → g.key = h.key → j = i
  pending : ∀ key (k : Nat), w.pendingMentions key = some k →
    ∃ h, w.handlers[k]? = some h ∧ h.pendingKey = key ∧ h.phase = .deferred
  reserved : ∀ (i : Nat) h, w.handlers[i]? = some h → h.phase.holdsRun = true → ∃ r ∈ w.runs, r.key = h.key
  justified : ∀ (i : Nat) h reason, w.handlers[i]? = some h → h.phase = .acknowledged reason → Justified w i h reason

section Invariant

variable {w w' : World} {i : Nat} {h h' : Handler}

structure Keeps (w w' : World) : Prop where
  handlers : ∀ (i : Nat) h, w.handlers[i]? = some h → ∃ h', w'.handlers[i]? = some h' ∧ h'.key = h.key
  runs : ∀ r ∈ w.runs, ∃ r' ∈ w'.runs, r'.key = r.key
  replies : ∀ key ∈ w.replies, key ∈ w'.replies

theorem Justified.mono {reason : Reason} (hjustified : Justified w i h reason) (hkeeps : Keeps w w')
    (henvelope : h'.envelope = h.envelope) (hevent : h'.event = h.event) : Justified w' i h' reason := by
  have hkey : h'.key = h.key := by simp only [Handler.key, Handler.eventId, henvelope, hevent]
  cases reason with
  | untriggered =>
    simp only [Justified, henvelope, hevent] at hjustified ⊢
    exact hjustified
  | empty =>
    simp only [Justified, Handler.isEmpty, Handler.textIntent, henvelope, hevent] at hjustified ⊢
    exact hjustified
  | unpublished => trivial
  | muted => trivial
  | answered =>
    simp only [Justified, hkey] at hjustified ⊢
    exact hkeeps.replies _ hjustified
  | reserved =>
    obtain ⟨r, hr, heq⟩ := hjustified
    obtain ⟨r', hr', heq'⟩ := hkeeps.runs r hr
    exact ⟨r', hr', by rw [heq', heq, hkey]⟩
  | superseded j =>
    obtain ⟨hne, g, hg, heq⟩ := hjustified
    obtain ⟨g', hg', heq'⟩ := hkeeps.handlers j g hg
    exact ⟨hne, g', hg', by rw [heq', heq, hkey]⟩

theorem keeps_setPhase (hi : w.handlers[i]? = some h) (p : Phase) : Keeps w (w.setPhase i h p) := by
  refine ⟨?_, fun r hr => ⟨r, hr, rfl⟩, fun key hkey => hkey⟩
  intro j g hg
  by_cases hj : i = j
  · subst hj
    obtain rfl := Option.some.inj (hi.symm.trans hg)
    have hlt := (List.getElem?_eq_some_iff.mp hi).1
    exact ⟨{ h with phase := p }, by simp [World.setPhase, hlt], rfl⟩
  · exact ⟨g, by simp [World.setPhase, hj, hg], rfl⟩

theorem Inv.setPhase (hinv : Inv w) (hi : w.handlers[i]? = some h) {p : Phase}
    (hpending : ∀ key, w.pendingMentions key = some i → p = .deferred)
    (hsending : p = .sendReply → h.key ∉ w.replies ∧
      ∀ (j : Nat) g, w.handlers[j]? = some g → g.phase = .sendReply → g.key ≠ h.key)
    (hrun : p.holdsRun = true → ∃ r ∈ w.runs, r.key = h.key)
    (hjustified : ∀ reason, p = .acknowledged reason → Justified w i h reason) : Inv (w.setPhase i h p) := by
  have hkeeps := keeps_setPhase hi p
  refine ⟨hinv.runs, hinv.replies, ?_, ?_, ?_, ?_⟩
  · intro j g hg hphase
    obtain ⟨rfl, rfl⟩ | ⟨hji, hg⟩ := Pool.getElem?_set_cases hg
    · refine ⟨(hsending hphase).1, ?_⟩
      intro k f hf hfphase hkey
      obtain ⟨rfl, -⟩ | ⟨-, hf⟩ := Pool.getElem?_set_cases hf
      · rfl
      · exact absurd hkey ((hsending hphase).2 k f hf hfphase)
    · obtain ⟨hreplies, honly⟩ := hinv.sending j g hg hphase
      refine ⟨hreplies, ?_⟩
      intro k f hf hfphase hkey
      obtain ⟨-, hfi⟩ | ⟨-, hf⟩ := Pool.getElem?_set_cases hf
      · rw [hfi] at hfphase hkey
        exact absurd hkey.symm ((hsending hfphase).2 j g hg hphase)
      · exact honly k f hf hfphase hkey
  · intro key k hk
    obtain ⟨g, hg, hkey, hphase⟩ := hinv.pending key k hk
    by_cases hik : i = k
    · subst hik
      obtain rfl := Option.some.inj (hi.symm.trans hg)
      have hlt := (List.getElem?_eq_some_iff.mp hi).1
      exact ⟨{ h with phase := p }, by simp [World.setPhase, hlt], hkey, hpending key hk⟩
    · exact ⟨g, by simp [World.setPhase, hik, hg], hkey, hphase⟩
  · intro j g hg hphase
    obtain ⟨rfl, rfl⟩ | ⟨-, hg⟩ := Pool.getElem?_set_cases hg
    · exact hrun hphase
    · exact hinv.reserved j g hg hphase
  · intro j g reason hg hphase
    obtain ⟨rfl, rfl⟩ | ⟨-, hg⟩ := Pool.getElem?_set_cases hg
    · exact (hjustified reason hphase).mono hkeeps rfl rfl
    · exact (hinv.justified j g reason hg hphase).mono hkeeps rfl rfl

theorem Inv.not_pending (hinv : Inv w) (hi : w.handlers[i]? = some h) (hphase : h.phase ≠ .deferred)
    (key : String × String × String) : w.pendingMentions key ≠ some i := by
  intro hk
  obtain ⟨g, hg, -, hdeferred⟩ := hinv.pending key i hk
  obtain rfl := Option.some.inj (hi.symm.trans hg)
  exact hphase hdeferred

theorem Inv.setPhase_plain (hinv : Inv w) (hi : w.handlers[i]? = some h) (hphase : h.phase ≠ .deferred) {p : Phase}
    (hsending : p ≠ .sendReply := by exact nofun) (hrun : p.holdsRun = false := by rfl)
    (hacknowledged : ∀ reason, p ≠ .acknowledged reason := by exact nofun) : Inv (w.setPhase i h p) := by
  apply hinv.setPhase hi
  · exact fun key hk => absurd hk (hinv.not_pending hi hphase key)
  · exact fun hp => absurd hp hsending
  · intro hp
    rw [hrun] at hp
    cases hp
  · exact fun reason hp => absurd hp (hacknowledged reason)

theorem Inv.acknowledge (hinv : Inv w) (hi : w.handlers[i]? = some h) (hphase : h.phase ≠ .deferred)
    {reason : Reason} (hjustified : Justified w i h reason) : Inv (w.acknowledge i h reason) := by
  apply hinv.setPhase hi
  · exact fun key hk => absurd hk (hinv.not_pending hi hphase key)
  · exact fun hp => (nomatch hp)
  · exact fun hp => (nomatch hp)
  · intro reason' hp
    cases hp
    exact hjustified

theorem Inv.setPhase_run (hinv : Inv w) (hi : w.handlers[i]? = some h) (hphase : h.phase ≠ .deferred) {p : Phase}
    (hp : p.holdsRun = true) (hrun : ∃ r ∈ w.runs, r.key = h.key) : Inv (w.setPhase i h p) := by
  apply hinv.setPhase hi
  · exact fun key hk => absurd hk (hinv.not_pending hi hphase key)
  · rintro rfl
    cases hp
  · exact fun _ => hrun
  · rintro reason rfl
    cases hp

theorem Inv.erase (hinv : Inv w) {pending : String × String × String → Option Nat}
    (hpending : ∀ key k, pending key = some k → w.pendingMentions key = some k) :
    Inv { w with pendingMentions := pending } := by
  refine ⟨hinv.runs, hinv.replies, hinv.sending, ?_, hinv.reserved, ?_⟩
  · exact fun key k hk => hinv.pending key k (hpending key k hk)
  · intro j g reason hg hphase
    exact (hinv.justified j g reason hg hphase).mono
      ⟨fun j g hg => ⟨g, hg, rfl⟩, fun r hr => ⟨r, hr, rfl⟩, fun key hkey => hkey⟩ rfl rfl

theorem update_none_some {pending : String × String × String → Option Nat} {key key' : String × String × String}
    {k : Nat} (hk : Function.update pending key none key' = some k) : key' ≠ key ∧ pending key' = some k := by
  by_cases hkey : key' = key
  · subst hkey
    simp at hk
  · rw [Function.update_of_ne hkey] at hk
    exact ⟨hkey, hk⟩

theorem Inv.defer (hinv : Inv w) (hi : w.handlers[i]? = some h) (hphase : h.phase ≠ .deferred) :
    Inv (w.defer i h) := by
  simp only [World.defer]
  split
  · have hset : Inv (w.setPhase i h .deferred) := by
      apply hinv.setPhase hi
      · exact fun _ _ => rfl
      · exact fun hp => (nomatch hp)
      · exact fun hp => (nomatch hp)
      · exact fun reason hp => (nomatch hp)
    have hself : (w.setPhase i h .deferred).handlers[i]? = some { h with phase := .deferred } := by
      simp [World.setPhase, (List.getElem?_eq_some_iff.mp hi).1]
    refine ⟨hset.runs, hset.replies, hset.sending, ?_, hset.reserved, ?_⟩
    · intro key k hk
      by_cases hkey : key = h.pendingKey
      · subst hkey
        simp only [World.setPhase, Function.update_self] at hk
        obtain rfl := Option.some.inj hk
        exact ⟨_, hself, rfl, rfl⟩
      · simp only [World.setPhase, Function.update_of_ne hkey] at hk
        exact hset.pending key k hk
    · intro j g reason hg hgphase
      exact (hset.justified j g reason hg hgphase).mono
        ⟨fun j g hg => ⟨g, hg, rfl⟩, fun r hr => ⟨r, hr, rfl⟩, fun key hkey => hkey⟩ rfl rfl
  · exact hinv.setPhase_plain hi hphase

theorem Inv.proceed (hinv : Inv w) (hi : w.handlers[i]? = some h) (hphase : h.phase ≠ .deferred) :
    Inv (w.proceed i h) := by
  simp only [World.proceed]
  split
  · rename_i k hk
    obtain ⟨g, hg, hkey, hdeferred⟩ := hinv.pending _ k hk
    have hik : i ≠ k := by
      rintro rfl
      exact hinv.not_pending hi hphase _ hk
    have herased := hinv.erase (fun _ _ hk => (@update_none_some _ h.pendingKey _ _ hk).2)
    have hsame : g.key = h.key := by
      simp only [Handler.pendingKey, Prod.mk.injEq] at hkey
      exact hkey.2
    -- The mention that is dropped is acknowledged: the envelope at hand has its message now.
    have hsuperseded : Inv ({ w with pendingMentions := Function.update w.pendingMentions h.pendingKey none }.setPhase
        k g (.acknowledged (.superseded i))) := by
      apply herased.setPhase hg
      · intro key hk'
        obtain ⟨hne, hk'⟩ := update_none_some hk'
        obtain ⟨g', hg', hkey', -⟩ := hinv.pending key k hk'
        obtain rfl := Option.some.inj (hg.symm.trans hg')
        exact absurd (hkey'.symm.trans hkey) hne
      · exact fun hp => (nomatch hp)
      · exact fun hp => (nomatch hp)
      · intro reason hp
        cases hp
        exact ⟨hik, h, hi, hsame.symm⟩
    have hmodify : w.handlers.modify k (fun g => { g with phase := .acknowledged (.superseded i) }) =
        w.handlers.set k { g with phase := .acknowledged (.superseded i) } := by
      apply List.ext_getElem?
      intro j
      by_cases hj : k = j
      · subst hj
        rw [List.getElem?_modify_eq, List.getElem?_set_self (List.getElem?_eq_some_iff.mp hg).1, hg]
        rfl
      · rw [List.getElem?_modify_ne _ _ hj, List.getElem?_set_ne hj]
    rw [hmodify]
    apply hsuperseded.setPhase_plain (i := i) (h := h) (p := .ackSuperseded) ?_ hphase (by exact nofun) rfl
      (fun reason hp => (nomatch hp))
    simp only [World.setPhase]
    rw [List.getElem?_set_ne hik.symm, hi]
  · exact hinv.defer hi hphase

theorem Inv.fire (hinv : Inv w) (hi : w.handlers[i]? = some h) : Inv (w.fire i h) := by
  have herased := hinv.erase (fun _ _ hk => (@update_none_some _ h.pendingKey _ _ hk).2)
  apply herased.setPhase hi
  · intro key hk
    obtain ⟨hne, hk⟩ := update_none_some hk
    obtain ⟨g, hg, hkey, -⟩ := hinv.pending key i hk
    obtain rfl := Option.some.inj (hi.symm.trans hg)
    exact absurd hkey.symm hne
  · exact fun hp => (nomatch hp)
  · exact fun hp => (nomatch hp)
  · exact fun reason hp => (nomatch hp)

theorem Inv.deliver (hinv : Inv w) (replica : String) (envelope : SlackEventEnvelope) :
    Inv (w.deliver replica envelope) := by
  cases hevent : envelope.event with
  | none => simpa only [World.deliver, hevent] using hinv
  | some event =>
    -- The new handler has sent nothing, reserved nothing and deferred nothing.
    obtain ⟨g, hg, hsend, hrun, hjustified⟩ : ∃ g : Handler,
        w.deliver replica envelope = { w with handlers := w.handlers ++ [g] } ∧ g.phase ≠ .sendReply ∧
        g.phase.holdsRun = false ∧
        ∀ reason, g.phase = .acknowledged reason → ∀ w' : World, Justified w' w.handlers.length g reason := by
      simp only [World.deliver, hevent]
      refine ⟨_, rfl, ?_, ?_, ?_⟩
      · split
        · exact nofun
        · split
          · exact nofun
          · split <;> exact nofun
      · split
        · rfl
        · split
          · rfl
          · split <;> rfl
      · intro reason hphase w'
        split at hphase
        · rename_i htrigger
          cases hphase
          simpa [Justified] using htrigger
        · split at hphase
          · rename_i hempty
            cases hphase
            exact hempty
          · split at hphase <;> cases hphase
    rw [hg]
    have hcases : ∀ (j : Nat) f, (w.handlers ++ [g])[j]? = some f →
        w.handlers[j]? = some f ∨ j = w.handlers.length ∧ f = g :=
      fun j f hf => Pool.getElem?_append_cases hf
    have hold : ∀ (j : Nat) f, w.handlers[j]? = some f → (w.handlers ++ [g])[j]? = some f :=
      fun j f hf => Pool.getElem?_append_of hf
    refine ⟨hinv.runs, hinv.replies, ?_, ?_, ?_, ?_⟩
    · intro j f hf hphase
      obtain hf | ⟨-, rfl⟩ := hcases j f hf
      · obtain ⟨hreplies, honly⟩ := hinv.sending j f hf hphase
        refine ⟨hreplies, ?_⟩
        intro k e he hephase hkey
        obtain he | ⟨-, rfl⟩ := hcases k e he
        · exact honly k e he hephase hkey
        · exact absurd hephase hsend
      · exact absurd hphase hsend
    · intro key k hk
      obtain ⟨f, hf, hrest⟩ := hinv.pending key k hk
      exact ⟨f, hold k f hf, hrest⟩
    · intro j f hf hphase
      obtain hf | ⟨-, rfl⟩ := hcases j f hf
      · exact hinv.reserved j f hf hphase
      · rw [hrun] at hphase
        cases hphase
    · intro j f reason hf hphase
      obtain hf | ⟨rfl, rfl⟩ := hcases j f hf
      · exact (hinv.justified j f reason hf hphase).mono
          ⟨fun j f hf => ⟨f, hold j f hf, rfl⟩, fun r hr => ⟨r, hr, rfl⟩, fun key hkey => hkey⟩ rfl rfl
      · exact hjustified reason hphase _

theorem Inv.clearPendingMentions (hinv : Inv w) (replica agentId : String) :
    Inv (w.clearPendingMentions replica agentId) := by
  have hcases : ∀ (j : Nat) f, (w.clearPendingMentions replica agentId).handlers[j]? = some f →
      f.phase = .dropped ∨ w.handlers[j]? = some f := by
    intro j f hf
    simp only [World.clearPendingMentions, List.getElem?_mapIdx] at hf
    obtain ⟨g, hg, rfl⟩ := Option.map_eq_some_iff.mp hf
    split
    · exact .inl rfl
    · exact .inr hg
  have hkeeps : Keeps w (w.clearPendingMentions replica agentId) := by
    refine ⟨?_, fun r hr => ⟨r, hr, rfl⟩, fun key hkey => hkey⟩
    intro j f hf
    simp only [World.clearPendingMentions, List.getElem?_mapIdx, hf, Option.map_some]
    refine ⟨_, rfl, ?_⟩
    split <;> rfl
  refine ⟨hinv.runs, hinv.replies, ?_, ?_, ?_, ?_⟩
  · intro j f hf hphase
    obtain hdropped | hf := hcases j f hf
    · rw [hdropped] at hphase
      cases hphase
    · obtain ⟨hreplies, honly⟩ := hinv.sending j f hf hphase
      refine ⟨hreplies, ?_⟩
      intro k e he hephase hkey
      obtain hdropped | he := hcases k e he
      · rw [hdropped] at hephase
        cases hephase
      · exact honly k e he hephase hkey
  · intro key k hk
    simp only [World.clearPendingMentions] at hk
    split at hk
    · cases hk
    · rename_i hother
      obtain ⟨f, hf, hkey, hphase⟩ := hinv.pending key k hk
      refine ⟨f, ?_, hkey, hphase⟩
      simp only [World.clearPendingMentions, List.getElem?_mapIdx, hf, Option.map_some]
      rw [if_neg]
      rintro ⟨hreplica, hagent, -⟩
      subst hkey
      exact hother ⟨hreplica, hagent⟩
  · intro j f hf hphase
    obtain hdropped | hf := hcases j f hf
    · rw [hdropped] at hphase
      cases hphase
    · exact hinv.reserved j f hf hphase
  · intro j f reason hf hphase
    obtain hdropped | hf := hcases j f hf
    · rw [hdropped] at hphase
      cases hphase
    · exact (hinv.justified j f reason hf hphase).mono hkeeps rfl rfl

theorem Inv.insertRun (hinv : Inv w) (hnew : ¬w.runs.any (·.key = h.key) = true) :
    Inv (w.insertRun h) ∧ ∃ r ∈ (w.insertRun h).runs, r.key = h.key := by
  have hfresh : h.key ∉ w.runs.map Run.key := by
    intro hmem
    obtain ⟨r, hr, hkey⟩ := List.mem_map.mp hmem
    exact hnew (List.any_eq_true.mpr ⟨r, hr, by simp [hkey]⟩)
  have hruns : ∀ r ∈ w.runs, r ∈ (w.insertRun h).runs := fun r hr => List.mem_append_left _ hr
  refine ⟨⟨?_, hinv.replies, hinv.sending, hinv.pending, ?_, ?_⟩, ?_⟩
  · simp only [World.insertRun, List.map_append, List.map_singleton]
    exact List.Nodup.append hinv.runs (List.nodup_singleton _) (List.disjoint_singleton.mpr hfresh)
  · intro j g hg hphase
    obtain ⟨r, hr, hkey⟩ := hinv.reserved j g hg hphase
    exact ⟨r, hruns r hr, hkey⟩
  · intro j g reason hg hphase
    exact (hinv.justified j g reason hg hphase).mono
      ⟨fun j g hg => ⟨g, hg, rfl⟩, fun r hr => ⟨r, hruns r hr, rfl⟩, fun key hkey => hkey⟩ rfl rfl
  · exact ⟨_, List.mem_append_right _ (List.mem_singleton_self _), rfl⟩

theorem Inv.settle (hinv : Inv w) (g : Handler) (error : String) (onlyPending : Bool) :
    Inv (w.settle g error onlyPending) ∧ ∀ r ∈ w.runs, ∃ r' ∈ (w.settle g error onlyPending).runs, r'.key = r.key := by
  have hkeys : (w.settle g error onlyPending).runs.map Run.key = w.runs.map Run.key := by
    rw [World.settle, List.map_map]
    apply List.map_congr_left
    intro r _
    simp only [Function.comp_apply]
    split <;> rfl
  have hruns : ∀ r ∈ w.runs, ∃ r' ∈ (w.settle g error onlyPending).runs, r'.key = r.key := by
    intro r hr
    have hmem : r.key ∈ (w.settle g error onlyPending).runs.map Run.key := by
      rw [hkeys]
      exact List.mem_map_of_mem hr
    exact List.mem_map.mp hmem
  refine ⟨⟨?_, hinv.replies, hinv.sending, hinv.pending, ?_, ?_⟩, hruns⟩
  · rw [hkeys]
    exact hinv.runs
  · intro j f hf hphase
    obtain ⟨r, hr, hkey⟩ := hinv.reserved j f hf hphase
    obtain ⟨r', hr', hkey'⟩ := hruns r hr
    exact ⟨r', hr', hkey'.trans hkey⟩
  · intro j f reason hf hphase
    exact (hinv.justified j f reason hf hphase).mono ⟨fun j f hf => ⟨f, hf, rfl⟩, hruns, fun key hkey => hkey⟩ rfl rfl

theorem Inv.posted (hinv : Inv w) (hi : w.handlers[i]? = some h) (hphase : h.phase = .sendReply) {p : Phase}
    (hp : p = .acknowledged .answered ∨ p = .dropped) :
    Inv ({ w with replies := w.replies ++ [h.key] }.setPhase i h p) := by
  obtain ⟨hfresh, honly⟩ := hinv.sending i h hi hphase
  have hnot : h.phase ≠ .deferred := by
    rw [hphase]
    exact nofun
  have hkeeps : Keeps w ({ w with replies := w.replies ++ [h.key] }.setPhase i h p) :=
    ⟨(keeps_setPhase hi p).handlers, fun r hr => ⟨r, hr, rfl⟩, fun key hkey => List.mem_append_left _ hkey⟩
  have hset : Inv (w.setPhase i h .dropped) :=
    hinv.setPhase_plain hi hnot
  have hcases : ∀ (j : Nat) f, ({ w with replies := w.replies ++ [h.key] }.setPhase i h p).handlers[j]? = some f →
      j = i ∧ f = { h with phase := p } ∨ j ≠ i ∧ w.handlers[j]? = some f :=
    fun j f hf => Pool.getElem?_set_cases hf
  have hsend : p ≠ .sendReply := by
    obtain rfl | rfl := hp <;> exact nofun
  refine ⟨hinv.runs, ?_, ?_, ?_, ?_, ?_⟩
  · exact List.Nodup.append hinv.replies (List.nodup_singleton _) (List.disjoint_singleton.mpr hfresh)
  · intro j f hf hfphase
    obtain ⟨-, rfl⟩ | ⟨hji, hf⟩ := hcases j f hf
    · exact absurd hfphase hsend
    · obtain ⟨hreplies, honly'⟩ := hinv.sending j f hf hfphase
      refine ⟨?_, ?_⟩
      · intro hmem
        obtain hmem | hmem := List.mem_append.mp hmem
        · exact hreplies hmem
        · exact hji (honly j f hf hfphase (List.mem_singleton.mp hmem))
      · intro k e he hephase hkey
        obtain ⟨-, rfl⟩ | ⟨-, he⟩ := hcases k e he
        · exact absurd hephase hsend
        · exact honly' k e he hephase hkey
  · intro key k hk
    have hki : k ≠ i := by
      rintro rfl
      exact hinv.not_pending hi hnot key hk
    obtain ⟨f, hf, hrest⟩ := hinv.pending key k hk
    refine ⟨f, ?_, hrest⟩
    simp only [World.setPhase]
    rw [List.getElem?_set_ne hki.symm, hf]
  · intro j f hf hfphase
    obtain ⟨-, rfl⟩ | ⟨-, hf⟩ := hcases j f hf
    · obtain rfl | rfl := hp <;> cases hfphase
    · exact hinv.reserved j f hf hfphase
  · intro j f reason hf hfphase
    obtain ⟨-, rfl⟩ | ⟨-, hf⟩ := hcases j f hf
    · obtain rfl | rfl := hp
      · cases hfphase
        exact List.mem_append_right _ (List.mem_singleton_self _)
      · cases hfphase
    · exact (hinv.justified j f reason hf hfphase).mono hkeeps rfl rfl

theorem Inv.act {outcome : Outcome} (hinv : Inv w) (hi : w.handlers[i]? = some h)
    (hallowed : allowed w (.act i outcome) = true) (hact : act w i h outcome = some w') : Inv w' := by
  have hrun := hinv.reserved i h hi
  rw [SlackEnvelopes.act.eq_def] at hact
  cases hphase : h.phase <;> rw [hphase] at hact hrun <;> dsimp only at hact
  case deferred =>
    obtain rfl := Option.some.inj hact
    exact hinv.fire hi
  case acknowledged | dropped => cases hact
  all_goals have hnot : h.phase ≠ .deferred := by rw [hphase]; exact nofun
  case intercept =>
    obtain rfl := Option.some.inj hact
    exact hinv.proceed hi hnot
  case selectResponderAgent =>
    split at hact <;> obtain rfl := Option.some.inj hact
    · exact hinv.setPhase_plain hi hnot
    · exact hinv.proceed hi hnot
    · exact hinv.setPhase_plain hi hnot
  case respond =>
    split at hact <;> obtain rfl := Option.some.inj hact
    · exact hinv.proceed hi hnot
    · rename_i hanswers
      simp only [allowed, hi, Option.all_some, hphase, Bool.or_eq_true, Bool.and_eq_true] at hallowed
      have hfree := hallowed.resolve_left (by simpa using hanswers)
      apply hinv.setPhase hi
      · exact fun key hk => absurd hk (hinv.not_pending hi hnot key)
      · intro _
        refine ⟨by simpa using hfree.1, ?_⟩
        intro j g hg hgphase hkey
        have hg' := List.all_eq_true.mp hfree.2 g (List.mem_of_getElem? hg)
        simp [hgphase, hkey] at hg'
      · exact fun hp => (nomatch hp)
      · exact fun reason hp => (nomatch hp)
  case sendReply =>
    split at hact <;> obtain rfl := Option.some.inj hact
    · exact hinv.posted hi hphase (.inl rfl)
    · exact hinv.posted hi hphase (.inr rfl)
    · exact hinv.acknowledge hi hnot trivial
    · exact hinv.setPhase_plain hi hnot
  case ackSuperseded =>
    obtain rfl := Option.some.inj hact
    exact hinv.defer hi hnot
  case selectAgent =>
    split at hact <;> obtain rfl := Option.some.inj hact
    · exact hinv.setPhase_plain hi hnot
    · exact hinv.acknowledge hi hnot trivial
    · exact hinv.setPhase_plain hi hnot
  case resolveConversation =>
    split at hact <;> obtain rfl := Option.some.inj hact <;> exact hinv.setPhase_plain hi hnot
  case insertRun =>
    split at hact
    · rename_i htaken
      split at hact <;> obtain rfl := Option.some.inj hact
      · exact hinv.setPhase_plain hi hnot
      · obtain ⟨r, hr, hkey⟩ := List.any_eq_true.mp htaken
        exact hinv.acknowledge hi hnot ⟨r, hr, by simpa using hkey⟩
    · rename_i hnew
      obtain ⟨hinserted, hrun⟩ := hinv.insertRun hnew
      split at hact <;> obtain rfl := Option.some.inj hact
      · exact hinserted.setPhase_run hi hnot rfl hrun
      · exact hinserted.setPhase_plain hi hnot
      · exact hinv.setPhase_plain hi hnot
  case acquireSlot =>
    split at hact <;> obtain rfl := Option.some.inj hact
    · exact hinv.setPhase_run hi hnot rfl (hrun rfl)
    · exact hinv.acknowledge hi hnot (hrun rfl)
    · exact hinv.setPhase_run hi hnot rfl (hrun rfl)
  case settleQueueFull =>
    split at hact <;> obtain rfl := Option.some.inj hact
    · obtain ⟨hsettled, hkept⟩ := hinv.settle h "Agent queue is full" false
      obtain ⟨r, hr, hkey⟩ := hrun rfl
      obtain ⟨r', hr', hkey'⟩ := hkept r hr
      exact hsettled.setPhase_run hi hnot rfl ⟨r', hr', hkey'.trans hkey⟩
    · exact hinv.setPhase_run hi hnot rfl (hrun rfl)
  case settleFailed =>
    split at hact <;> obtain rfl := Option.some.inj hact
    · obtain ⟨hsettled, hkept⟩ := hinv.settle h "Native chat scheduling failed" true
      obtain ⟨r, hr, hkey⟩ := hrun rfl
      obtain ⟨r', hr', hkey'⟩ := hkept r hr
      exact hsettled.setPhase_run hi hnot rfl ⟨r', hr', hkey'.trans hkey⟩
    · exact hinv.setPhase_plain hi hnot
  case sendNotice =>
    split at hact <;> obtain rfl := Option.some.inj hact
    · exact hinv.setPhase_plain hi hnot
    · exact hinv.acknowledge hi hnot (hrun rfl)

theorem inv_step {e : Event} (hinv : Inv w) (hallowed : allowed w e = true) (hstep : step w e = some w') : Inv w' := by
  cases e with
  | deliver replica envelope =>
    cases hstep
    exact hinv.deliver replica envelope
  | act i outcome =>
    obtain ⟨h, hi, hact⟩ := Option.bind_eq_some_iff.mp hstep
    exact hinv.act hi hallowed hact
  | clearPendingMentions replica agentId =>
    cases hstep
    exact hinv.clearPendingMentions replica agentId

theorem inv_initial : Inv {} := by
  refine ⟨List.nodup_nil, List.nodup_nil, ?_, ?_, ?_, ?_⟩ <;> simp

end Invariant

theorem count_le_one {α : Type} {l : List α} {f : α → String × String} (h : (l.map f).Nodup)
    (key : String × String) : l.countP (fun r => f r = key) ≤ 1 := by
  have hle := List.nodup_iff_count_le_one.mp h key
  rw [List.count, List.countP_map] at hle
  rwa [List.countP_congr (q := (· == key) ∘ f) (fun r _ => by simp)]

/-- A message gets one run, and one command reply unless a second envelope is answered too; what is
acknowledged was reserved, answered, ignored or superseded. -/
theorem one_slack_message_one_answer {es : List Event} {w : World}
    (h : Runs step (fun w e => allowed w e = true) {} es w) :
    (∀ key, w.runs.countP (fun r => r.key = key) ≤ 1) ∧
    (∀ key, w.replies.count key ≤ 1) ∧
    ∀ (i : Nat) g reason, w.handlers[i]? = some g → g.phase = .acknowledged reason → Justified w i g reason := by
  have hinv : Inv w :=
    h.invariant (I := Inv) (fun _ _ _ hallowed hinv hstep => inv_step hinv hallowed hstep) inv_initial
  exact ⟨count_le_one hinv.runs, List.nodup_iff_count_le_one.mp hinv.replies, hinv.justified⟩

def memberConfig : SlackConfig := { appId := "A1", appToken := "x", botToken := "b" }

/-- `type` is that of the envelope, the message is the same. -/
def mentionEnvelope (type : EventType) (text : String) : SlackEventEnvelope where
  agentId := "a"
  config := memberConfig
  botUserId := "U1"
  teamId := "T1"
  team_id := none
  event := some { type := type, channel := "C1", user := some "U2", text := some text, ts := some "1.2" }

theorem one_slack_message_one_answer_twins : ∃ w, run step {} [
      .deliver "r" (mentionEnvelope .app_mention "<@U1> hello"), .act 0 .resolves,
      .deliver "r" (mentionEnvelope .message "<@U1> hello"), .act 1 .resolves, .act 1 .resolves,
      .act 1 .resolves, .act 1 .resolves, .act 1 .rejectsAfter,
      .deliver "r" (mentionEnvelope .message "<@U1> hello"), .act 2 .resolves, .act 2 .resolves,
      .act 2 .resolves, .act 2 .resolves] = some w ∧
    w.handlers.map Handler.phase = [.acknowledged (.superseded 1), .dropped, .acknowledged .reserved] ∧
    w.runs.countP (fun r => r.key = ("a", "slack:T1:C1:1.2")) ≤ 1 ∧ w.runs.length = 1 := by
  obtain ⟨w, hw, hphases, hlength⟩ : ∃ w, run (guarded step fun w e => allowed w e = true) {}
      [.deliver "r" (mentionEnvelope .app_mention "<@U1> hello"), .act 0 .resolves,
      .deliver "r" (mentionEnvelope .message "<@U1> hello"), .act 1 .resolves, .act 1 .resolves,
      .act 1 .resolves, .act 1 .resolves, .act 1 .rejectsAfter,
      .deliver "r" (mentionEnvelope .message "<@U1> hello"), .act 2 .resolves, .act 2 .resolves,
      .act 2 .resolves, .act 2 .resolves] = some w ∧
      (w.handlers.map Handler.phase =
      [.acknowledged (.superseded 1), .dropped, .acknowledged .reserved] ∧ w.runs.length = 1) :=
    exists_of_run_any (by decide +kernel)
  have hruns := Runs.of_guarded hw
  exact ⟨w, hruns.toRun, hphases, (one_slack_message_one_answer hruns).1 _, hlength⟩

theorem one_slack_message_two_replies : ∃ es w, run step {} es = some w ∧
    w.replies.count ("a", "slack:T1:C1:1.2") = 2 := by
  obtain ⟨w, hw, hcount⟩ : ∃ w, run step {} [.deliver "r" (mentionEnvelope .app_mention "<@U1> /status"),
      .deliver "r" (mentionEnvelope .message "<@U1> /status"), .act 0 .resolves, .act 1 .resolves,
      .act 0 .resolves, .act 1 .resolves, .act 0 .resolves, .act 1 .resolves] = some w ∧
      (w.replies.count ("a", "slack:T1:C1:1.2") = 2) :=
    exists_of_run_any (by decide +kernel)
  exact ⟨_, w, hw, hcount⟩

end A2Wave.SlackEnvelopes
