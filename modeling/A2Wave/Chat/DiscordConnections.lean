import A2Wave.Chat.Connections

/-! `lib/discord-service.ts`: the calls of `start` and `stop`, cut at every await.  The client of
discord.js is outside: it delivers what it receives from its `login` on until its `destroy`. -/

namespace A2Wave.ChatConnections.Discord

open Transition

inductive GuildReplyMode
  | reply
  | new
  | none
  deriving DecidableEq

inductive DmReplyMode
  | reply
  | none
  deriving DecidableEq

structure DiscordConfig where
  applicationId : String
  botToken : String
  guildTriggerOnMention : Bool := true
  guildTriggerOnNewMessage : Bool := false
  guildReplyMode : GuildReplyMode := .reply
  dmReplyMode : DmReplyMode := .reply
  sendArtifactsAsFile : Bool := true
  deriving DecidableEq

inductive Client
  | created
  | loggedIn
  | destroyed
  deriving DecidableEq

/-- What a call waits for: the client of the connection it replaces, the client of its own, the
client that its catch block destroys, or the one that `stop` destroys. -/
inductive Phase
  | destroyPrevious (connection : Nat)
  | login (connection : Nat)
  | destroyFailed
  | destroyStopped
  | succeeded
  | failed
  deriving DecidableEq

def Phase.status : Phase → Status
  | .destroyPrevious _ | .login _ | .destroyStopped => .pending
  | .destroyFailed | .failed => .failed
  | .succeeded => .succeeded

abbrev DiscordWorld := World DiscordConfig Client Phase

def manager : Manager DiscordConfig Client Phase where
  key := DiscordConfig.applicationId
  status := Phase.status
  connectionOf
    | .destroyPrevious k | .login k => some k
    | _ => none
  delivers client := client = .loggedIn

def canReuseDiscordGatewayConnection (current next : DiscordConfig) (isReady : Bool) : Bool :=
  isReady && current.applicationId = next.applicationId && current.botToken = next.botToken

/-- `start` up to its first await.  A call that throws here changes nothing. -/
def start (w : DiscordWorld) (agentId : String) (rawConfig : Option DiscordConfig) (isReady : Bool) : DiscordWorld :=
  match rawConfig with
  | none => w
  | some config =>
    if (w.holders config.applicationId).any (· ≠ agentId) then w
    else
      match w.connections agentId, w.registered agentId with
      | some k, some previous =>
        if canReuseDiscordGatewayConnection previous.config config (isReady && previous.state = .loggedIn) then
          w.reuse agentId config.applicationId k config .succeeded
        else
          let w := w.setState k .destroyed
          let w := w.unregister agentId previous.config.applicationId
          w.register agentId config.applicationId config .created (.destroyPrevious w.made.length)
      | _, _ => w.register agentId config.applicationId config .loggedIn (.login w.made.length)

def stop (w : DiscordWorld) (agentId : String) : DiscordWorld :=
  match w.connections agentId, w.registered agentId with
  | some k, some connection =>
    let w := w.setState k .destroyed
    let w := w.unregister agentId connection.config.applicationId
    w.push agentId none .destroyStopped
  | _, _ => w.push agentId none .succeeded

/-- The catch block of `start`. -/
def fail (w : DiscordWorld) (i k : Nat) (agentId : String) (config : DiscordConfig) : DiscordWorld :=
  let w := w.setState k .destroyed
  let w := w.unregister agentId config.applicationId
  w.setPhase i .destroyFailed

inductive Event
  | start (agentId : String) (rawConfig : Option DiscordConfig) (isReady : Bool)
  | stop (agentId : String)
  | act (i : Nat) (resolves : Bool)

def act (w : DiscordWorld) (i : Nat) (c : Call DiscordConfig Phase) (resolves : Bool) : Option DiscordWorld :=
  match c.phase, c.config with
  | .destroyPrevious k, some config =>
    some (if resolves then (w.setState k .loggedIn).setPhase i (.login k) else fail w i k c.agentId config)
  | .login k, some config => some (if resolves then w.setPhase i .succeeded else fail w i k c.agentId config)
  | .destroyFailed, _ => some (w.setPhase i .failed)
  | .destroyStopped, _ => some (w.setPhase i .succeeded)
  | _, _ => none

def step (w : DiscordWorld) : Event → Option DiscordWorld
  | .start agentId rawConfig isReady => some (start w agentId rawConfig isReady)
  | .stop agentId => some (stop w agentId)
  | .act i resolves => w.calls[i]?.bind fun c => act w i c resolves

/-- A `start` that fails finds no connection of a later call, and one that goes on to log in finds
its own. -/
def allowed (w : DiscordWorld) : Event → Bool
  | .act i resolves => w.calls[i]?.all fun c =>
    let isOwn := (w.registered c.agentId).all (·.call = i)
    match c.phase with
    | .destroyPrevious k => if resolves then w.connections c.agentId = some k else isOwn
    | .login _ => resolves || isOwn
    | _ => true
  | _ => true

section Invariant

variable {w w' : DiscordWorld} {i : Nat}

def Good (w : DiscordWorld) : Prop := Inv manager w ∧ Own manager w

theorem free_of_not_any {a : String} {config : DiscordConfig} {holders : String → Option String}
    (h : ¬(holders config.applicationId).any (· ≠ a) = true) :
    ∀ b, holders (manager.key config) = some b → b = a := by
  intro b hb
  have hb : holders config.applicationId = some b := hb
  simpa [hb] using h

theorem Good.start (h : Good w) (agentId : String) (rawConfig : Option DiscordConfig) (isReady : Bool) :
    Good (start w agentId rawConfig isReady) := by
  obtain ⟨hinv, hown⟩ := h
  cases rawConfig with
  | none => exact ⟨hinv, hown⟩
  | some config =>
    simp only [Discord.start]
    split
    · exact ⟨hinv, hown⟩
    · rename_i hholder
      have hfree := free_of_not_any hholder
      cases hk : w.connections agentId with
      | none =>
        refine ⟨(hinv.without hk).register config .loggedIn (by simp [manager, Phase.status]) hfree, ?_⟩
        exact hown.register agentId _ config _ (fun k heq => (Option.some.inj heq).symm)
      | some k =>
        obtain ⟨x, hx, hregistered⟩ := hinv.toCore.registered_eq hk
        simp only [hregistered]
        split
        · rename_i hreuse
          simp only [canReuseDiscordGatewayConnection, Bool.and_eq_true, decide_eq_true_eq] at hreuse
          have hkey : manager.key config = manager.key x.config := hreuse.1.2.symm
          exact ⟨hinv.reuse hk hx config hkey (by simp [manager, Phase.status]), hown.reuse agentId _ k config rfl⟩
        · have hdropped := hinv.drop (s := .destroyed) hk hx (by simp [manager])
          refine ⟨hdropped.register config .created (by simp [manager, Phase.status]) ?_, ?_⟩
          · intro b hb
            exact hfree b (release_some hb)
          · apply Own.register
            · exact (hown.setState k .destroyed).unregister agentId _
            · exact fun k heq => (Option.some.inj heq).symm

theorem Good.stop (h : Good w) (agentId : String) : Good (stop w agentId) := by
  obtain ⟨hinv, hown⟩ := h
  cases hk : w.connections agentId with
  | none =>
    simp only [Discord.stop, hk]
    exact ⟨(hinv.without hk).stopped _, hown.push agentId none rfl⟩
  | some k =>
    obtain ⟨x, hx, hregistered⟩ := hinv.toCore.registered_eq hk
    simp only [Discord.stop, hk, hregistered]
    exact ⟨(hinv.drop hk hx (by simp [manager])).stopped _,
      ((hown.setState k .destroyed).unregister agentId _).push agentId none rfl⟩

theorem Good.fail (h : Good w) {k : Nat} {c : Call DiscordConfig Phase} {config : DiscordConfig}
    (hc : w.calls[i]? = some c) (hconfig : c.config = some config) (hk : manager.connectionOf c.phase = some k)
    (hcall : (w.registered c.agentId).all (·.call = i) = true) : Good (fail w i k c.agentId config) := by
  obtain ⟨hinv, hown⟩ := h
  refine ⟨hinv.fail hown hc hconfig hk ?_ (by simp [manager]) rfl, ?_⟩
  · intro x hx
    simpa [hx] using hcall
  · apply Own.setPhase
    · exact (hown.setState k .destroyed).unregister c.agentId _
    · intro _ _ k hnone
      cases hnone

theorem Good.act {c : Call DiscordConfig Phase} {resolves : Bool} (h : Good w) (hc : w.calls[i]? = some c)
    (hallowed : allowed w (.act i resolves) = true) (hact : act w i c resolves = some w') : Good w' := by
  simp only [allowed, hc, Option.all_some] at hallowed
  cases hphase : c.phase with
  | destroyPrevious k =>
    cases hconfig : c.config with
    | none => simp [Discord.act, hphase, hconfig] at hact
    | some config =>
      simp only [Discord.act, hphase, hconfig, Option.some.injEq] at hact
      subst hact
      simp only [hphase] at hallowed
      split at hallowed
      · rename_i hresolves
        rw [if_pos hresolves]
        obtain ⟨hinv, hown⟩ := h
        have hk : w.connections c.agentId = some k := by simpa using hallowed
        refine ⟨?_, ?_⟩
        · apply Inv.setPhase
          · apply hinv.setState
            intro _ x hx
            obtain ⟨y, -, hy, hagent, -⟩ := hinv.registered _ k hk
            obtain rfl := Option.some.inj (hx.symm.trans hy)
            rw [hagent, hk]
          · intro d hd
            obtain rfl := Option.some.inj (hc.symm.trans hd)
            simp [manager, Phase.status, hphase]
        · apply (hown.setState k .loggedIn).setPhase
          intro d hd j hj
          obtain rfl := Option.some.inj (hc.symm.trans hd)
          rw [hphase]
          exact hj
      · rename_i hrejects
        rw [if_neg hrejects]
        exact h.fail hc hconfig (by rw [hphase]; rfl) hallowed
  | login k =>
    cases hconfig : c.config with
    | none => simp [Discord.act, hphase, hconfig] at hact
    | some config =>
      simp only [Discord.act, hphase, hconfig, Option.some.injEq] at hact
      subst hact
      simp only [hphase] at hallowed
      split
      · refine ⟨h.1.setPhase ?_, h.2.setPhase ?_⟩
        · intro d hd
          obtain rfl := Option.some.inj (hc.symm.trans hd)
          simp [manager, Phase.status, hphase]
        · intro d hd j hj
          cases hj
      · rename_i hrejects
        exact h.fail hc hconfig (by rw [hphase]; rfl) (by simpa [hrejects] using hallowed)
  | destroyFailed | destroyStopped =>
    simp only [Discord.act, hphase, Option.some.injEq] at hact
    subst hact
    refine ⟨h.1.setPhase ?_, h.2.setPhase (fun d hd j hj => (nomatch hj))⟩
    intro d hd
    obtain rfl := Option.some.inj (hc.symm.trans hd)
    simp [manager, Phase.status, hphase]
  | succeeded | failed => simp [Discord.act, hphase] at hact

theorem Good.step {e : Event} (h : Good w) (hallowed : allowed w e = true) (hstep : step w e = some w') : Good w' := by
  cases e with
  | start agentId rawConfig isReady =>
    cases hstep
    exact h.start agentId rawConfig isReady
  | stop agentId =>
    cases hstep
    exact h.stop agentId
  | act i resolves =>
    obtain ⟨c, hc, hact⟩ := Option.bind_eq_some_iff.mp hstep
    exact h.act hc hallowed hact

theorem good_initial : Good {} :=
  ⟨inv_initial manager, own_initial manager⟩

theorem obeys {es : List Event} (h : Runs Discord.step (fun w e => allowed w e = true) {} es w)
    (hsettled : manager.Settled w) : manager.Obeys w :=
  (h.invariant (I := Good) (fun _ _ _ hallowed hgood hstep => hgood.step hallowed hstep) good_initial).1.obeys hsettled

end Invariant

end A2Wave.ChatConnections.Discord
