import A2Wave.Lib.Transition
import Mathlib.Data.List.MinMax

/-! `lib/native-chat-runner.ts`: the conversation of a native chat turn, which is a generation of the session of its
transport.  The rows stand newest first; an instant is in milliseconds. -/

namespace A2Wave.NativeChat

open Transition

inductive NativeChatSource
  | slack
  | discord
  | telegram
  | qqOfficial
  deriving DecidableEq

/-- `scene` is that of the `channel_info`. -/
structure ReserveNativeChatRunInput where
  agentId : String
  source : NativeChatSource
  eventId : String
  conversationId : String
  scene : Option String := none
  resetSession : Bool := false

structure RunRow where
  id : String
  initiatorAgentId : String
  triggerSource : NativeChatSource
  triggerSessionId : String
  triggerEventId : String
  conversationId : Option String
  createdAt : Nat

/-- The row of a turn, with what was asked for and what the clock said when its conversation was resolved. -/
structure Turn where
  input : ReserveNativeChatRunInput
  now : Nat
  row : RunRow

/-- `limitOne` is `ORDER BY created_at DESC LIMIT 1`, and `stored` how an instant is stored. -/
structure Backend where
  limitOne : List RunRow → Option RunRow
  stored : Nat → Nat

/-- The query finds one of the rows with the greatest `created_at`, no matter which. -/
structure Backend.Sound (b : Backend) : Prop where
  finds : ∀ rows, rows ≠ [] → b.limitOne rows ≠ none
  mem : ∀ rows row, b.limitOne rows = some row → row ∈ rows
  greatest : ∀ rows row, b.limitOne rows = some row → ∀ r ∈ rows, r.createdAt ≤ row.createdAt

def QQ_C2C_SESSION_TIMEOUT_MS : Nat := 2 * 60 * 60 * 1000

def QQ_GROUP_SESSION_TIMEOUT_MS : Nat := 8 * 60 * 60 * 1000

def resolveQQOfficialSessionTimeoutMs (scene : Option String) : Option Nat :=
  if scene = some "c2c" then some QQ_C2C_SESSION_TIMEOUT_MS
  else if scene = some "group" then some QQ_GROUP_SESSION_TIMEOUT_MS
  else none

def expired (input : ReserveNativeChatRunInput) (now : Nat) (previous : RunRow) : Bool :=
  input.source = .qqOfficial &&
    (resolveQQOfficialSessionTimeoutMs input.scene).any fun timeoutMs => previous.createdAt + timeoutMs < now

def ofSession (input : ReserveNativeChatRunInput) (row : RunRow) : Bool :=
  row.initiatorAgentId = input.agentId && row.triggerSource = input.source &&
    row.triggerSessionId = input.conversationId

def resolveNativeChatConversationId (b : Backend) (rows : List RunRow) (input : ReserveNativeChatRunInput)
    (runId : String) (now : Nat) : String :=
  if input.resetSession then runId
  else match b.limitOne (rows.filter (ofSession input)) with
    | none => runId
    | some previous =>
      if expired input now previous then runId else previous.conversationId.getD previous.id

/-- A delivery: whether the Agent is published there, the id of the run, and the instants of the read and the insert. -/
structure Delivery where
  published : Bool
  input : ReserveNativeChatRunInput
  runId : String
  now : Nat
  inserted : Nat

/-- The insert is refused where the event has a run already; what follows it leaves the conversation alone. -/
def reserveNativeChatRun (b : Backend) (turns : List Turn) (d : Delivery) : List Turn :=
  let conflict := turns.any fun t => t.row.initiatorAgentId = d.input.agentId && t.row.triggerSource = d.input.source &&
    t.row.triggerEventId = d.input.eventId
  if !d.published || conflict then turns
  else
    { input := d.input, now := d.now
      row :=
        { id := d.runId, initiatorAgentId := d.input.agentId, triggerSource := d.input.source
          triggerSessionId := d.input.conversationId
          triggerEventId := d.input.eventId
          conversationId := resolveNativeChatConversationId b (turns.map Turn.row) d.input d.runId d.now
          createdAt := b.stored d.inserted } } :: turns

section Generations

def startsGeneration (older : List Turn) (t : Turn) : Bool :=
  t.input.resetSession || match older with
    | [] => true
    | previous :: _ => expired t.input t.now previous.row

def generation : List Turn → Option String
  | [] => none
  | t :: older => if startsGeneration older t then some t.row.id else generation older

def session (turns : List Turn) (input : ReserveNativeChatRunInput) : List Turn :=
  turns.filter fun t => ofSession input t.row

def FollowsTurns (turns : List Turn) : Prop :=
  ∀ newer t older, turns = newer ++ t :: older → t.row.conversationId = generation (t :: older)

def Untied : List Turn → Prop
  | [] => True
  | latest :: older => ∀ t ∈ older, t.row.createdAt ≤ latest.row.createdAt ∧
      (t.row.createdAt = latest.row.createdAt → t.row.conversationId = latest.row.conversationId)

variable {b : Backend} {turns turns' : List Turn} {d : Delivery} {t : Turn} {older : List Turn}

theorem FollowsTurns.cons (h : FollowsTurns older) (ht : t.row.conversationId = generation (t :: older)) :
    FollowsTurns (t :: older) := by
  intro newer u rest heq
  cases newer with
  | nil =>
    obtain ⟨rfl, rfl⟩ := List.cons.inj heq
    exact ht
  | cons v newer => exact h newer u rest (List.cons.inj heq).2

theorem filter_rows (turns : List Turn) (input : ReserveNativeChatRunInput) :
    (turns.map Turn.row).filter (ofSession input) = (session turns input).map Turn.row := by
  rw [List.filter_map]
  rfl

/-- The conversation that is resolved for a turn is its generation. -/
theorem resolve_generation (hb : b.Sound) {input : ReserveNativeChatRunInput} {runId : String} {now : Nat}
    (hfollows : FollowsTurns (session turns input)) (huntied : input.resetSession = true ∨ Untied (session turns input))
    (hinput : t.input = input) (hnow : t.now = now) (hid : t.row.id = runId) :
    some (resolveNativeChatConversationId b (turns.map Turn.row) input runId now) =
      generation (t :: session turns input) := by
  subst hinput hnow hid
  rw [resolveNativeChatConversationId, filter_rows, generation, startsGeneration.eq_def]
  by_cases hreset : t.input.resetSession = true
  · rw [if_pos hreset, hreset, Bool.true_or, if_pos rfl]
  · rw [if_neg hreset, Bool.eq_false_iff.mpr hreset, Bool.false_or]
    have huntied := huntied.resolve_left hreset
    generalize session turns t.input = older at hfollows huntied
    cases older with
    | nil =>
      cases hnone : b.limitOne [] with
      | none => simp [hnone]
      | some row => cases hb.mem _ _ hnone
    | cons latest older =>
      cases hfind : b.limitOne ((latest :: older).map Turn.row) with
      | none => exact absurd hfind (hb.finds _ (List.cons_ne_nil _ _))
      | some previous =>
        -- the row that is found has the instant and the generation of the latest turn
        have hsame : previous.createdAt = latest.row.createdAt ∧
            previous.conversationId = latest.row.conversationId := by
          have hle := hb.greatest _ _ hfind latest.row (List.mem_map_of_mem List.mem_cons_self)
          obtain ⟨u, hu, rfl⟩ := List.mem_map.mp (hb.mem _ _ hfind)
          rcases List.mem_cons.mp hu with rfl | hu
          · exact ⟨rfl, rfl⟩
          · have heq := Nat.le_antisymm (huntied u hu).1 hle
            exact ⟨heq, (huntied u hu).2 heq⟩
        have hgeneration := hfollows [] latest older rfl
        obtain ⟨id, hid⟩ : ∃ id, generation (latest :: older) = some id := by
          clear hgeneration hfollows huntied hfind hsame
          induction older generalizing latest with
          | nil => exact ⟨latest.row.id, by simp [generation, startsGeneration]⟩
          | cons u older ih =>
            rw [generation]
            split
            · exact ⟨_, rfl⟩
            · exact ih u
        have hexpired : expired t.input t.now previous = expired t.input t.now latest.row := by
          rw [expired, expired, hsame.1]
        dsimp only
        rw [hexpired]
        split
        · rfl
        · rw [hid, hsame.2, hgeneration, hid]
          rfl

def step (b : Backend) (turns : List Turn) (d : Delivery) : Option (List Turn) := some (reserveNativeChatRun b turns d)

def Resolvable (turns : List Turn) (d : Delivery) : Prop :=
  d.input.resetSession = true ∨ Untied (session turns d.input)

theorem reserve_followsTurns (hb : b.Sound) (hd : Resolvable turns d)
    (h : ∀ input, FollowsTurns (session turns input)) (input : ReserveNativeChatRunInput) :
    FollowsTurns (session (reserveNativeChatRun b turns d) input) := by
  rw [reserveNativeChatRun]
  split
  · exact h input
  · rw [session, List.filter_cons]
    split
    · rename_i hsession
      refine (h input).cons ?_
      obtain ⟨⟨hagent, hsource⟩, hid⟩ : (d.input.agentId = input.agentId ∧ d.input.source = input.source) ∧
          d.input.conversationId = input.conversationId := by simpa [ofSession] using hsession
      have hsame : session turns input = session turns d.input := by
        simp only [session, ofSession, hagent, hsource, hid]
      change _ = generation (_ :: session turns input)
      rw [hsame]
      exact resolve_generation hb (h d.input) hd rfl rfl rfl
    · exact h input

end Generations

section Runs

def sqlite : Backend where
  limitOne rows := List.argmax RunRow.createdAt rows.reverse
  stored now := now / 1000 * 1000

theorem sqlite_sound : sqlite.Sound where
  finds _ hne hnone := hne (List.reverse_eq_nil_iff.mp (List.argmax_eq_none.mp hnone))
  mem _ _ h := List.mem_reverse.mp (List.argmax_mem h)
  greatest _ _ h _ hr := List.le_of_mem_argmax (List.mem_reverse.mpr hr) h

def delivery (eventId : String) (reset : Bool) (now : Nat) : Delivery where
  published := true
  input :=
    { agentId := "agt", source := .slack, eventId := eventId, conversationId := "C1", resetSession := reset }
  runId := eventId
  now := now
  inserted := now

def hasty : List Delivery := [delivery "1" false 100, delivery "2" true 200, delivery "3" false 300]

end Runs

end A2Wave.NativeChat
