import A2Wave.Chat.Connections
import A2Wave.A2a.TaskStore

/-! `lib/telegram-service.ts`: the calls of `start` and `stop`, cut at every await, and the poll loop of
each connection.  A `getUpdates` that is aborted rejects. -/

namespace A2Wave.ChatConnections.Telegram

open Transition

inductive ReplyMode
  | reply
  | new
  | none
  deriving DecidableEq

structure TelegramConfig where
  botToken : String
  groupTriggerOnMention : Bool := true
  groupTriggerOnNewMessage : Bool := false
  groupReplyMode : ReplyMode := .reply
  privateReplyMode : ReplyMode := .reply
  sendArtifactsAsFile : Bool := true
  apiBaseUrl : Option String := none
  deriving DecidableEq

@[irreducible] def parseTelegramBotId (botToken : String) : Option String :=
  let botId := TaskStore.trim (String.ofList (botToken.toList.takeWhile (· ≠ ':')))
  if botId ≠ "" && botId.toList.all Char.isDigit then some botId else none

@[irreducible] def TelegramConfig.botId (config : TelegramConfig) : String := (parseTelegramBotId config.botToken).getD ""

inductive Loop
  | idle
  | getUpdates
  | handleUpdate (left : Nat)
  | backoff
  | ended
  deriving DecidableEq

structure Polling where
  abort : Bool := false
  polling : Bool := false
  loop : Loop := .idle
  deriving DecidableEq

def Polling.left (p : Polling) : Nat :=
  match p.loop with
  | .handleUpdate left => left
  | _ => 0

inductive Phase
  | getMe (connection : Nat)
  | deleteWebhook (connection : Nat)
  | succeeded
  | failed
  deriving DecidableEq

def Phase.status : Phase → Status
  | .getMe _ | .deleteWebhook _ => .pending
  | .succeeded => .succeeded
  | .failed => .failed

abbrev TelegramWorld := World TelegramConfig Polling Phase

def manager : Manager TelegramConfig Polling Phase where
  key := TelegramConfig.botId
  status := Phase.status
  connectionOf
    | .getMe k | .deleteWebhook k => some k
    | _ => none
  delivers p := (p.loop = .getUpdates && !p.abort) || p.left ≠ 0

def canReuseTelegramConnection (current next : TelegramConfig) (isPolling : Bool) : Bool :=
  isPolling && current.botToken = next.botToken && current.apiBaseUrl = next.apiBaseUrl

def Polling.teardown (p : Polling) : Polling := { p with polling := false, abort := true }

def teardown (w : TelegramWorld) (agentId botId : String) (k : Nat) (p : Polling) : TelegramWorld :=
  (w.setState k p.teardown).unregister agentId botId

/-- `start` up to its first await.  A call that throws here changes nothing. -/
def start (w : TelegramWorld) (agentId : String) (rawConfig : Option TelegramConfig) : TelegramWorld :=
  match rawConfig with
  | none => w
  | some config =>
    match parseTelegramBotId config.botToken with
    | none => w
    | some botId =>
      if (w.holders botId).any (· ≠ agentId) then w
      else
        match w.connections agentId, w.registered agentId with
        | some k, some previous =>
          if canReuseTelegramConnection previous.config config previous.state.polling then
            w.reuse agentId botId k config .succeeded
          else
            let w := teardown w agentId previous.config.botId k previous.state
            w.register agentId botId config {} (.getMe w.made.length)
        | _, _ => w.register agentId botId config {} (.getMe w.made.length)

def stop (w : TelegramWorld) (agentId : String) : TelegramWorld :=
  match w.connections agentId, w.registered agentId with
  | some k, some connection =>
    let w := teardown w agentId connection.config.botId k connection.state
    w.push agentId none .succeeded
  | _, _ => w.push agentId none .succeeded

def checkLoop (w : TelegramWorld) (agentId : String) (k : Nat) (p : Polling) : TelegramWorld :=
  w.setState k { p with loop := if p.polling && w.connections agentId = some k then .getUpdates else .ended }

def act (w : TelegramWorld) (i : Nat) (c : Call TelegramConfig Phase) (resolves : Bool) : Option TelegramWorld :=
  match c.phase, c.config with
  | .getMe k, some config =>
    if resolves then some (w.setPhase i (.deleteWebhook k))
    else w.made[k]?.map fun connection =>
      (teardown w c.agentId config.botId k connection.state).setPhase i .failed
  | .deleteWebhook k, some _ =>
    w.made[k]?.map fun connection =>
      (checkLoop w c.agentId k { connection.state with polling := true }).setPhase i .succeeded
  | _, _ => none

/-- One turn of the loop up to its next await.  `updates` is the batch that `getUpdates` resolves to. -/
def pollLoop (w : TelegramWorld) (k : Nat) (connection : Connection TelegramConfig Polling)
    (updates : Option Nat) : Option TelegramWorld :=
  let p := connection.state
  match p.loop with
  | .getUpdates =>
    match if p.abort then none else updates with
    | some 0 => some (checkLoop w connection.agentId k p)
    | some (left + 1) => some (w.setState k { p with loop := .handleUpdate left })
    | none => some (w.setState k { p with loop := if !p.polling || p.abort then .ended else .backoff })
  | .handleUpdate 0 => some (checkLoop w connection.agentId k p)
  | .handleUpdate (left + 1) => some (w.setState k { p with loop := .handleUpdate left })
  | .backoff => some (checkLoop w connection.agentId k p)
  | _ => none

inductive Event
  | start (agentId : String) (rawConfig : Option TelegramConfig)
  | stop (agentId : String)
  | act (i : Nat) (resolves : Bool)
  | poll (k : Nat) (updates : Option Nat)

def step (w : TelegramWorld) : Event → Option TelegramWorld
  | .start agentId rawConfig => some (start w agentId rawConfig)
  | .stop agentId => some (stop w agentId)
  | .act i resolves => w.calls[i]?.bind fun c => act w i c resolves
  | .poll k updates => w.made[k]?.bind fun connection => pollLoop w k connection updates

/-- A `start` that fails finds no connection of a later call, and a connection that is taken down is
not within a batch of updates. -/
def allowed (w : TelegramWorld) : Event → Bool
  | .start agentId rawConfig =>
    rawConfig.all fun config =>
      (parseTelegramBotId config.botToken).all fun botId =>
        (w.holders botId).any (· ≠ agentId) || (w.registered agentId).all fun previous =>
          canReuseTelegramConnection previous.config config previous.state.polling || previous.state.left = 0
  | .stop agentId => (w.registered agentId).all (·.state.left = 0)
  | .act i resolves => w.calls[i]?.all fun c =>
    match c.phase with
    | .getMe k => resolves || (w.registered c.agentId).all (·.call = i) && w.made[k]?.all (·.state.left = 0)
    | _ => true
  | .poll _ _ => true

section Invariant

variable {w w' : TelegramWorld} {i k : Nat}

def Good (w : TelegramWorld) : Prop := Inv manager w ∧ Own manager w

theorem delivers_teardown {p : Polling} (h : p.left = 0) : manager.delivers p.teardown = false := by
  have hleft : p.teardown.left = 0 := h
  simp only [manager, hleft]
  simp [Polling.teardown]

variable {x : Connection TelegramConfig Polling}

theorem Good.setState (h : Good w) (hx : w.made[k]? = some x) {p : Polling}
    (hp : manager.delivers p = true → manager.delivers x.state = true ∨ w.connections x.agentId = some k) :
    Good (w.setState k p) := by
  refine ⟨h.1.setState ?_, h.2.setState k p⟩
  intro hdelivers y hy
  obtain rfl := Option.some.inj (hx.symm.trans hy)
  obtain hold | hregistered := hp hdelivers
  · exact h.1.live k x hx hold
  · exact hregistered

theorem Good.checkLoop (h : Good w) (hx : w.made[k]? = some x)
    (agentId : String) (p : Polling) : Good (checkLoop w agentId k p) := by
  apply h.setState hx
  intro hdelivers
  right
  by_cases hk : w.connections agentId = some k
  · obtain ⟨y, -, hy, hagent, -⟩ := h.1.registered _ k hk
    obtain rfl := Option.some.inj (hx.symm.trans hy)
    rw [hagent, hk]
  · simp [manager, hk, Polling.left] at hdelivers

theorem Good.start (h : Good w) (agentId : String) (rawConfig : Option TelegramConfig)
    (hallowed : allowed w (.start agentId rawConfig) = true) : Good (start w agentId rawConfig) := by
  obtain ⟨hinv, hown⟩ := h
  cases rawConfig with
  | none => exact ⟨hinv, hown⟩
  | some config =>
    cases hbot : parseTelegramBotId config.botToken with
    | none =>
      simp only [Telegram.start, hbot]
      exact ⟨hinv, hown⟩
    | some botId =>
      have hkey : botId = manager.key config := by
        change botId = config.botId
        rw [TelegramConfig.botId, hbot, Option.getD_some]
      simp only [Telegram.start, hbot]
      simp only [allowed, Option.all_some, hbot, Bool.or_eq_true] at hallowed
      split
      · exact ⟨hinv, hown⟩
      · rename_i hholder
        have hfree : ∀ b, w.holders (manager.key config) = some b → b = agentId := by
          intro b hb
          rw [← hkey] at hb
          simpa [hb] using hholder
        have hallowed := hallowed.resolve_left hholder
        rw [hkey]
        cases hk : w.connections agentId with
        | none =>
          refine ⟨(hinv.without hk).register config {} (by simp [manager, Phase.status]) hfree, ?_⟩
          exact hown.register agentId _ config _ (fun k heq => (Option.some.inj heq).symm)
        | some k =>
          obtain ⟨x, hx, hregistered⟩ := hinv.toCore.registered_eq hk
          simp only [hregistered, Option.all_some, Bool.or_eq_true, decide_eq_true_eq] at hallowed ⊢
          split
          · rename_i hreuse
            simp only [canReuseTelegramConnection, Bool.and_eq_true, decide_eq_true_eq] at hreuse
            have hsame : manager.key config = manager.key x.config := by
              simp only [manager, TelegramConfig.botId, hreuse.1.2]
            exact ⟨hinv.reuse hk hx config hsame (by simp [manager, Phase.status]), hown.reuse agentId _ k config rfl⟩
          · rename_i hreuse
            have hleft := hallowed.resolve_left hreuse
            have hdropped := hinv.drop hk hx (delivers_teardown hleft)
            refine ⟨hdropped.register config {} (by simp [manager, Phase.status]) ?_, ?_⟩
            · intro b hb
              exact hfree b (release_some hb)
            · apply Own.register
              · exact (hown.setState k _).unregister agentId _
              · exact fun k heq => (Option.some.inj heq).symm

theorem Good.stop (h : Good w) (agentId : String) (hallowed : allowed w (.stop agentId) = true) :
    Good (stop w agentId) := by
  obtain ⟨hinv, hown⟩ := h
  cases hk : w.connections agentId with
  | none =>
    simp only [Telegram.stop, hk]
    exact ⟨(hinv.without hk).stopped _, hown.push agentId none rfl⟩
  | some k =>
    obtain ⟨x, hx, hregistered⟩ := hinv.toCore.registered_eq hk
    have hleft : x.state.left = 0 := by simpa [allowed, hregistered] using hallowed
    simp only [Telegram.stop, hk, hregistered]
    exact ⟨(hinv.drop hk hx (delivers_teardown hleft)).stopped _,
      ((hown.setState k _).unregister agentId _).push agentId none rfl⟩

theorem Good.act {c : Call TelegramConfig Phase} {resolves : Bool} (h : Good w) (hc : w.calls[i]? = some c)
    (hallowed : allowed w (.act i resolves) = true) (hact : act w i c resolves = some w') : Good w' := by
  simp only [allowed, hc, Option.all_some] at hallowed
  cases hphase : c.phase with
  | getMe k =>
    cases hconfig : c.config with
    | none => simp [Telegram.act, hphase, hconfig] at hact
    | some config =>
      simp only [Telegram.act, hphase, hconfig] at hact
      simp only [hphase] at hallowed
      split at hact
      · obtain rfl := Option.some.inj hact
        refine ⟨h.1.setPhase ?_, h.2.setPhase ?_⟩
        · intro d hd
          obtain rfl := Option.some.inj (hc.symm.trans hd)
          simp [manager, Phase.status, hphase]
        · intro d hd j hj
          obtain rfl := Option.some.inj (hc.symm.trans hd)
          rw [hphase]
          exact hj
      · rename_i hrejects
        obtain ⟨x, hx, rfl⟩ := Option.map_eq_some_iff.mp hact
        simp only [hrejects, Bool.false_or, Bool.and_eq_true, hx, Option.all_some, decide_eq_true_eq] at hallowed
        obtain ⟨hinv, hown⟩ := h
        refine ⟨?_, ?_⟩
        · apply hinv.fail hown hc hconfig (by rw [hphase]; rfl) ?_ (delivers_teardown hallowed.2) rfl
          intro y hy
          simpa [hy] using hallowed.1
        · exact ((hown.setState k _).unregister c.agentId _).setPhase (fun d hd j hj => (nomatch hj))
  | deleteWebhook k =>
    cases hconfig : c.config with
    | none => simp [Telegram.act, hphase, hconfig] at hact
    | some config =>
      simp only [Telegram.act, hphase, hconfig] at hact
      obtain ⟨x, hx, rfl⟩ := Option.map_eq_some_iff.mp hact
      obtain ⟨hinv, hown⟩ := h.checkLoop hx c.agentId { x.state with polling := true }
      refine ⟨hinv.setPhase ?_, hown.setPhase (fun d hd j hj => (nomatch hj))⟩
      intro d hd
      obtain rfl := Option.some.inj (hc.symm.trans hd)
      simp [manager, Phase.status, hphase]
  | succeeded | failed => simp [Telegram.act, hphase] at hact

theorem Good.pollLoop {updates : Option Nat} (h : Good w)
    (hx : w.made[k]? = some x) (hpoll : pollLoop w k x updates = some w') : Good w' := by
  have hcheck := h.checkLoop hx x.agentId x.state
  cases hloop : x.state.loop with
  | idle | ended => simp [Telegram.pollLoop, hloop] at hpoll
  | getUpdates =>
    simp only [Telegram.pollLoop, hloop] at hpoll
    split at hpoll <;> obtain rfl := Option.some.inj hpoll
    · exact hcheck
    · rename_i left hupdates
      apply h.setState hx
      intro _
      left
      have hopen : x.state.abort = false := by
        by_contra habort
        simp [habort] at hupdates
      simp [manager, hloop, hopen]
    · apply h.setState hx
      intro hdelivers
      exfalso
      revert hdelivers
      simp only [manager, Polling.left]
      split <;> simp
  | handleUpdate left =>
    cases left with
    | zero =>
      simp only [Telegram.pollLoop, hloop, Option.some.injEq] at hpoll
      subst hpoll
      exact hcheck
    | succ left =>
      simp only [Telegram.pollLoop, hloop, Option.some.injEq] at hpoll
      subst hpoll
      apply h.setState hx
      intro _
      left
      simp [manager, Polling.left, hloop]
  | backoff =>
    simp only [Telegram.pollLoop, hloop, Option.some.injEq] at hpoll
    subst hpoll
    exact hcheck

theorem Good.step {e : Event} (h : Good w) (hallowed : allowed w e = true) (hstep : step w e = some w') : Good w' := by
  cases e with
  | start agentId rawConfig =>
    cases hstep
    exact h.start agentId rawConfig hallowed
  | stop agentId =>
    cases hstep
    exact h.stop agentId hallowed
  | act i resolves =>
    obtain ⟨c, hc, hact⟩ := Option.bind_eq_some_iff.mp hstep
    exact h.act hc hallowed hact
  | poll k updates =>
    obtain ⟨x, hx, hpoll⟩ := Option.bind_eq_some_iff.mp hstep
    exact h.pollLoop hx hpoll

theorem obeys {es : List Event} (h : Runs Telegram.step (fun w e => allowed w e = true) {} es w)
    (hsettled : manager.Settled w) : manager.Obeys w :=
  (h.invariant (I := Good) (fun _ _ _ hallowed hgood hstep => hgood.step hallowed hstep)
    ⟨inv_initial manager, own_initial manager⟩).1.obeys hsettled

end Invariant

end A2Wave.ChatConnections.Telegram
