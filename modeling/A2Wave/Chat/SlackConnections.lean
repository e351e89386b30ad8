import A2Wave.Chat.DiscordConnections
import A2Wave.Chat.TelegramConnections

/-! `lib/slack-service.ts`: the calls of `start` and `stop`, cut at every await.  The socket is outside:
it delivers what it receives from its `start` on, until that rejects or the socket is disconnected. -/

namespace A2Wave.ChatConnections.Slack

open Transition

inductive GroupReplyMode
  | thread
  | new
  | none
  deriving DecidableEq

inductive P2pReplyMode
  | new
  | none
  deriving DecidableEq

structure SlackConfig where
  appId : String
  appToken : String
  botToken : String
  groupTriggerOnAt : Bool := true
  groupTriggerOnNewMessage : Bool := false
  groupReplyMode : GroupReplyMode := .thread
  p2pReplyMode : P2pReplyMode := .new
  sendArtifactsAsFile : Bool := true
  deriving DecidableEq

inductive Phase
  | disconnectPrevious
  | authTest
  | socketStart (connection : Nat)
  | disconnectStopped
  | succeeded
  | failed
  deriving DecidableEq

def Phase.status : Phase → Status
  | .disconnectPrevious | .authTest | .socketStart _ | .disconnectStopped => .pending
  | .succeeded => .succeeded
  | .failed => .failed

def Phase.unregistered : Phase → Bool
  | .disconnectPrevious | .authTest => true
  | _ => false

abbrev SlackWorld := World SlackConfig Bool Phase

def manager : Manager SlackConfig Bool Phase where
  key := SlackConfig.appId
  status := Phase.status
  connectionOf
    | .socketStart k => some k
    | _ => none
  delivers := id

def reserve (w : SlackWorld) (appId agentId : String) : SlackWorld :=
  { w with holders := Function.update w.holders appId (some agentId) }

/-- `start` up to its first await.  A call that throws here changes nothing. -/
def start (w : SlackWorld) (agentId : String) (rawConfig : Option SlackConfig) : SlackWorld :=
  match rawConfig with
  | none => w
  | some config =>
    if (w.holders config.appId).any (· ≠ agentId) then w
    else
      match w.connections agentId, w.registered agentId with
      | some k, some previous =>
        let w := w.unregister agentId previous.config.appId
        let w := reserve w config.appId agentId
        let w := w.setState k false
        w.push agentId (some config) .disconnectPrevious
      | _, _ => (reserve w config.appId agentId).push agentId (some config) .authTest

def stop (w : SlackWorld) (agentId : String) : SlackWorld :=
  match w.connections agentId, w.registered agentId with
  | some k, some connection =>
    let w := w.unregister agentId connection.config.appId
    let w := w.setState k false
    w.push agentId none .disconnectStopped
  | _, _ => w.push agentId none .succeeded

/-- The connection of a `start` that is authenticated. -/
def connect (w : SlackWorld) (i : Nat) (agentId : String) (config : SlackConfig) : SlackWorld :=
  let w' : SlackWorld := { w with
    made := w.made ++ [⟨agentId, config, i, true⟩]
    connections := Function.update w.connections agentId (some w.made.length) }
  w'.setPhase i (.socketStart w.made.length)

/-- The catch block of `start`. -/
def fail (w : SlackWorld) (i : Nat) (agentId : String) (config : SlackConfig) : SlackWorld :=
  (w.unregister agentId config.appId).setPhase i .failed

inductive Event
  | start (agentId : String) (rawConfig : Option SlackConfig)
  | stop (agentId : String)
  /-- What a call waits for resolves or rejects.  An `auth.test` without a bot user or a team counts as
  a rejection, and a `disconnect` that rejects is ignored. -/
  | act (i : Nat) (resolves : Bool)

def act (w : SlackWorld) (i : Nat) (c : Call SlackConfig Phase) (resolves : Bool) : Option SlackWorld :=
  match c.phase, c.config with
  | .disconnectPrevious, _ => some (w.setPhase i .authTest)
  | .authTest, some config => some (if resolves then connect w i c.agentId config else fail w i c.agentId config)
  | .socketStart k, some config =>
    some (if resolves then w.setPhase i .succeeded else fail (w.setState k false) i c.agentId config)
  | .disconnectStopped, _ => some (w.setPhase i .succeeded)
  | _, _ => none

def step (w : SlackWorld) : Event → Option SlackWorld
  | .start agentId rawConfig => some (start w agentId rawConfig)
  | .stop agentId => some (stop w agentId)
  | .act i resolves => w.calls[i]?.bind fun c => act w i c resolves

def takesOwn (w : SlackWorld) (i : Nat) (c : Call SlackConfig Phase) : Bool :=
  (w.registered c.agentId).all (·.call = i) &&
    (lastCall w.calls c.agentId).all fun j => j = i || w.calls[j]?.all fun d =>
      !(d.phase.unregistered && d.config.map SlackConfig.appId = c.config.map SlackConfig.appId)

/-- A `start` registers its connection only while it is the last call of its Agent, and one that fails
finds neither the connection of a later call nor a later call that waits with the same app. -/
def allowed (w : SlackWorld) : Event → Bool
  | .act i resolves => w.calls[i]?.all fun c =>
    match c.phase with
    | .authTest => if resolves then lastCall w.calls c.agentId = some i else takesOwn w i c
    | .socketStart _ => resolves || takesOwn w i c
    | _ => true
  | _ => true

structure Good (w : SlackWorld) : Prop where
  registered : ∀ a (k : Nat), w.connections a = some k → ∃ x c, w.made[k]? = some x ∧ x.agentId = a ∧
    lastCall w.calls a = some x.call ∧ w.calls[x.call]? = some c ∧ c.config = some x.config ∧
    (c.phase = .socketStart k ∨ c.phase = .succeeded)
  last : ∀ a (i : Nat) c, lastCall w.calls a = some i → w.calls[i]? = some c → c.config ≠ none →
    c.phase.unregistered = false → c.phase ≠ .failed → w.connections a ≠ none
  held : ∀ appId a, w.holders appId = some a → (∃ (i : Nat) (c : Call SlackConfig Phase) (config : SlackConfig),
    w.calls[i]? = some c ∧ c.agentId = a ∧ c.config = some config ∧ config.appId = appId ∧
    c.phase.unregistered = true) ∨ ∃ x, w.registered a = some x ∧ x.config.appId = appId
  holds : ∀ a (i : Nat) c (config : SlackConfig), lastCall w.calls a = some i → w.calls[i]? = some c →
    c.config = some config → c.phase ≠ .failed → w.holders config.appId = some a
  live : ∀ (k : Nat) x, w.made[k]? = some x → x.state = true → w.connections x.agentId = some k

section Invariant

variable {w w' : SlackWorld} {i k : Nat}

variable {a : String}

theorem Good.registered_eq (h : Good w) (hk : w.connections a = some k) :
    ∃ x, w.made[k]? = some x ∧ w.registered a = some x := by
  obtain ⟨x, -, hx, -⟩ := h.registered a k hk
  exact ⟨x, hx, by simp [World.registered, hk, hx]⟩

theorem Good.obeys (h : Good w) (hsettled : manager.Settled w) : manager.Obeys w := by
  have hwaits : ∀ (i : Nat) c, w.calls[i]? = some c → c.phase.status ≠ .pending :=
    fun i c hc => hsettled c (List.mem_of_getElem? hc)
  refine ⟨?_, h.live, ?_⟩
  · intro a config
    constructor
    · intro hconfig
      obtain ⟨y, hy, rfl⟩ := Option.map_eq_some_iff.mp hconfig
      obtain ⟨k, hk, hy⟩ := Option.bind_eq_some_iff.mp hy
      obtain ⟨x, c, hx, -, hlast, hc, hcall, hphase⟩ := h.registered a k hk
      obtain rfl := Option.some.inj (hx.symm.trans hy)
      refine ⟨x.call, c, hlast, hc, hcall, ?_⟩
      obtain hphase | hphase := hphase
      · exact absurd (by rw [hphase]; rfl) (hwaits _ c hc)
      · rw [hphase]
        rfl
    · rintro ⟨i, c, hlast, hc, hconfig, hstatus⟩
      have hphase : c.phase = .succeeded := by
        have hstatus : c.phase.status = .succeeded := hstatus
        cases hp : c.phase <;> rw [hp] at hstatus <;> first | rfl | cases hstatus
      have hsome := h.last a i c hlast hc (by simp [hconfig]) (by rw [hphase]; rfl)
        (by rw [hphase]; intro heq; cases heq)
      obtain ⟨k, hk⟩ := Option.ne_none_iff_exists'.mp hsome
      obtain ⟨x, c', hx, -, hlast', hc', hconfig', -⟩ := h.registered a k hk
      obtain rfl := Option.some.inj (hlast.symm.trans hlast')
      obtain rfl := Option.some.inj (hc.symm.trans hc')
      obtain rfl := Option.some.inj (hconfig.symm.trans hconfig')
      simp [World.registered, hk, hx]
  · intro appId a
    constructor
    · intro hholder
      obtain ⟨i, c, config, hc, -, -, -, hphase⟩ | hregistered := h.held appId a hholder
      · refine absurd ?_ (hwaits i c hc)
        cases hp : c.phase <;> rw [hp] at hphase <;> first | rfl | cases hphase
      · exact hregistered
    · rintro ⟨x, hx, rfl⟩
      obtain ⟨k, hk, hx⟩ := Option.bind_eq_some_iff.mp hx
      obtain ⟨y, c, hy, -, hlast, hc, hconfig, hphase⟩ := h.registered a k hk
      obtain rfl := Option.some.inj (hx.symm.trans hy)
      exact h.holds a x.call c x.config hlast hc hconfig
        (by obtain hp | hp := hphase <;> rw [hp] <;> intro heq <;> cases heq)

structure Left (w : SlackWorld) (a : String) : Prop where
  absent : w.connections a = none
  registered : ∀ b (k : Nat), w.connections b = some k → ∃ x c, w.made[k]? = some x ∧ x.agentId = b ∧
    lastCall w.calls b = some x.call ∧ w.calls[x.call]? = some c ∧ c.config = some x.config ∧
    (c.phase = .socketStart k ∨ c.phase = .succeeded)
  last : ∀ b (i : Nat) c, b ≠ a → lastCall w.calls b = some i → w.calls[i]? = some c → c.config ≠ none →
    c.phase.unregistered = false → c.phase ≠ .failed → w.connections b ≠ none
  held : ∀ appId b, w.holders appId = some b → (∃ (i : Nat) (c : Call SlackConfig Phase) (config : SlackConfig),
    w.calls[i]? = some c ∧ c.agentId = b ∧ c.config = some config ∧ config.appId = appId ∧
    c.phase.unregistered = true) ∨ ∃ x, w.registered b = some x ∧ x.config.appId = appId
  holds : ∀ b (i : Nat) c (config : SlackConfig), b ≠ a → lastCall w.calls b = some i → w.calls[i]? = some c →
    c.config = some config → c.phase ≠ .failed → w.holders config.appId = some b
  live : ∀ (k : Nat) x, w.made[k]? = some x → x.state = true → w.connections x.agentId = some k

theorem Good.left (h : Good w) (hnone : w.connections a = none) : Left w a :=
  ⟨hnone, h.registered, fun b i c _ => h.last b i c, h.held, fun b i c config _ => h.holds b i c config, h.live⟩

theorem registered_unregister {a b : String} (key : String) (hb : b ≠ a) :
    (w.unregister a key).registered b = w.registered b := by
  simp only [World.registered, World.unregister, Function.update_of_ne hb]

variable {x : Connection SlackConfig Bool}

theorem registered_setState {b : String} {s : Bool}
    (hx : w.registered b = some x) : ∃ y, (w.setState k s).registered b = some y ∧ y.config = x.config := by
  obtain ⟨j, hj, hx⟩ := Option.bind_eq_some_iff.mp hx
  obtain ⟨y, hy, -, hconfig, -⟩ := made_setState_of (w := w) (k := k) (s := s) hx
  exact ⟨y, Option.bind_eq_some_iff.mpr ⟨j, hj, hy⟩, hconfig⟩

theorem Good.drop (h : Good w) (hk : w.connections a = some k)
    (hx : w.made[k]? = some x) : Left ((w.unregister a x.config.appId).setState k false) a := by
  have hregistered : w.registered a = some x := by simp [World.registered, hk, hx]
  refine ⟨by simp [World.setState, World.unregister], ?_, ?_, ?_, ?_, ?_⟩
  · intro b j hj
    have hb : b ≠ a := by
      rintro rfl
      simp [World.setState, World.unregister] at hj
    simp only [World.setState, World.unregister, Function.update_of_ne hb] at hj
    obtain ⟨y, c, hy, hagent, hlast, hc, hconfig, hphase⟩ := h.registered b j hj
    obtain ⟨z, hz, hagent', hconfig', hcall⟩ := made_setState_of (w := w.unregister a x.config.appId) (k := k)
      (s := false) hy
    exact ⟨z, c, hz, hagent'.trans hagent, by rw [hcall]; exact hlast, by rw [hcall]; exact hc,
      by rw [hconfig, hconfig'], hphase⟩
  · intro b i c hb hlast hc hconfig hunregistered hfailed
    simp only [World.setState, World.unregister, Function.update_of_ne hb]
    exact h.last b i c hlast hc hconfig hunregistered hfailed
  · intro appId b hholder
    obtain hpending | ⟨y, hy, happ⟩ := h.held appId b (release_some hholder)
    · exact .inl hpending
    · right
      have hb : b ≠ a := by
        rintro rfl
        obtain rfl := Option.some.inj (hregistered.symm.trans hy)
        subst happ
        exact release_self _ _ _ hholder
      obtain ⟨z, hz, hconfig⟩ := registered_setState (k := k) (s := false)
        ((registered_unregister x.config.appId hb).trans hy)
      exact ⟨z, hz, by rw [hconfig, happ]⟩
  · intro b i c config hb hlast hc hconfig hfailed
    exact release_kept (h.holds b i c config hlast hc hconfig hfailed) (fun heq => absurd heq hb)
  · intro j y hy hdelivers
    obtain ⟨z, hz, hagent, -, -, hstate⟩ := made_setState hy
    have hjk : k ≠ j := by
      rintro rfl
      rw [hstate, if_pos rfl] at hdelivers
      cases hdelivers
    rw [hstate, if_neg hjk] at hdelivers
    have hj := h.live j z hz hdelivers
    have hb : y.agentId ≠ a := by
      intro hb
      rw [← hagent, hb, hk] at hj
      exact hjk (Option.some.inj hj)
    simp only [World.setState, World.unregister, Function.update_of_ne hb]
    rw [hagent]
    exact hj

theorem Left.stopped (h : Left w a) (p : Phase) : Good (w.push a none p) := by
  have hother : ∀ b (i : Nat) c, lastCall (w.push a none p).calls b = some i →
      (w.push a none p).calls[i]? = some c → c.config ≠ none →
      b ≠ a ∧ lastCall w.calls b = some i ∧ w.calls[i]? = some c := by
    intro b i c hlast hc hconfig
    have hb : b ≠ a := by
      rintro rfl
      obtain ⟨-, rfl⟩ := lastCall_push hlast hc
      exact hconfig rfl
    rw [World.push, lastCall_append, if_neg (Ne.symm hb)] at hlast
    obtain hc | ⟨rfl, -⟩ := Pool.getElem?_append_cases hc
    · exact ⟨hb, hlast, hc⟩
    · exact absurd (lastCall_lt_length hlast) (Nat.lt_irrefl _)
  refine ⟨?_, ?_, ?_, ?_, h.live⟩
  · intro b k hk
    have hb : a ≠ b := by
      rintro rfl
      have hk : w.connections a = some k := hk
      rw [h.absent] at hk
      cases hk
    obtain ⟨x, c, hx, hagent, hlast, hc, hrest⟩ := h.registered b k hk
    refine ⟨x, c, hx, hagent, ?_, Pool.getElem?_append_of hc, hrest⟩
    rw [World.push, lastCall_append, if_neg hb, hlast]
  · intro b i c hlast hc hconfig
    obtain ⟨hb, hlast, hc⟩ := hother b i c hlast hc hconfig
    exact h.last b i c hb hlast hc hconfig
  · intro appId b hholder
    obtain ⟨i, c, config, hc, hrest⟩ | hregistered := h.held appId b hholder
    · exact .inl ⟨i, c, config, Pool.getElem?_append_of hc, hrest⟩
    · exact .inr hregistered
  · intro b i c config hlast hc hconfig
    obtain ⟨hb, hlast, hc⟩ := hother b i c hlast hc (by simp [hconfig])
    exact h.holds b i c config hb hlast hc hconfig

theorem Left.started (h : Left w a) (config : SlackConfig) {p : Phase} (hp : p.unregistered = true)
    (hfree : ∀ b, w.holders config.appId = some b → b = a) :
    Good ((reserve w config.appId a).push a (some config) p) := by
  have hnew : ((reserve w config.appId a).push a (some config) p).calls[w.calls.length]? =
      some ⟨a, some config, p⟩ := by
    simp [World.push, reserve]
  have hother : ∀ b (i : Nat) c, lastCall ((reserve w config.appId a).push a (some config) p).calls b = some i →
      ((reserve w config.appId a).push a (some config) p).calls[i]? = some c →
      b = a ∧ c = ⟨a, some config, p⟩ ∨ b ≠ a ∧ lastCall w.calls b = some i ∧ w.calls[i]? = some c := by
    intro b i c hlast hc
    by_cases hb : b = a
    · subst hb
      exact .inl ⟨rfl, (lastCall_push hlast hc).2⟩
    · rw [World.push, lastCall_append, if_neg (Ne.symm hb)] at hlast
      obtain hc | ⟨rfl, -⟩ := Pool.getElem?_append_cases hc
      · exact .inr ⟨hb, hlast, hc⟩
      · exact absurd (lastCall_lt_length hlast) (Nat.lt_irrefl _)
  refine ⟨?_, ?_, ?_, ?_, h.live⟩
  · intro b k hk
    have hb : a ≠ b := by
      rintro rfl
      have hk : w.connections a = some k := hk
      rw [h.absent] at hk
      cases hk
    obtain ⟨x, c, hx, hagent, hlast, hc, hrest⟩ := h.registered b k hk
    refine ⟨x, c, hx, hagent, ?_, Pool.getElem?_append_of hc, hrest⟩
    rw [World.push, lastCall_append, if_neg hb]
    exact hlast
  · intro b i c hlast hc hconfig hunregistered
    obtain ⟨-, rfl⟩ | ⟨hb, hlast, hc⟩ := hother b i c hlast hc
    · rw [hp] at hunregistered
      cases hunregistered
    · exact h.last b i c hb hlast hc hconfig hunregistered
  · intro appId b hholder
    by_cases happ : appId = config.appId
    · subst happ
      simp only [World.push, reserve, Function.update_self] at hholder
      obtain rfl := Option.some.inj hholder
      exact .inl ⟨_, _, config, hnew, rfl, rfl, rfl, hp⟩
    · simp only [World.push, reserve, Function.update_of_ne happ] at hholder
      obtain ⟨i, c, config', hc, hrest⟩ | hregistered := h.held appId b hholder
      · exact .inl ⟨i, c, config', Pool.getElem?_append_of hc, hrest⟩
      · exact .inr hregistered
  · intro b i c config' hlast hc hconfig hfailed
    obtain ⟨rfl, rfl⟩ | ⟨hb, hlast, hc⟩ := hother b i c hlast hc
    · obtain rfl := Option.some.inj hconfig
      simp [World.push, reserve]
    · have hholder := h.holds b i c config' hb hlast hc hconfig hfailed
      have happ : config'.appId ≠ config.appId := by
        intro happ
        rw [happ] at hholder
        exact hb (hfree b hholder)
      simpa only [World.push, reserve, Function.update_of_ne happ] using hholder

theorem Good.start (h : Good w) (agentId : String) (rawConfig : Option SlackConfig) :
    Good (start w agentId rawConfig) := by
  cases rawConfig with
  | none => exact h
  | some config =>
    simp only [Slack.start]
    split
    · exact h
    · rename_i hholder
      have hfree : ∀ b, w.holders config.appId = some b → b = agentId := by
        intro b hb
        simpa [hb] using hholder
      cases hk : w.connections agentId with
      | none => exact (h.left hk).started config rfl hfree
      | some k =>
        obtain ⟨x, hx, hregistered⟩ := h.registered_eq hk
        simp only [hregistered]
        exact (h.drop hk hx).started config rfl (fun b hb => hfree b (release_some hb))

theorem Good.stop (h : Good w) (agentId : String) : Good (stop w agentId) := by
  cases hk : w.connections agentId with
  | none =>
    simp only [Slack.stop, hk]
    exact (h.left hk).stopped _
  | some k =>
    obtain ⟨x, hx, hregistered⟩ := h.registered_eq hk
    simp only [Slack.stop, hk, hregistered]
    exact (h.drop hk hx).stopped _

variable {c : Call SlackConfig Phase}

theorem Good.setPhase (h : Good w) {p : Phase} (hc : w.calls[i]? = some c)
    (hunregistered : p.unregistered = c.phase.unregistered) (hfailed : c.phase ≠ .failed)
    (hp : c.phase = .succeeded ∨ (∃ k, c.phase = .socketStart k) → p = .succeeded) : Good (w.setPhase i p) := by
  have hcase : ∀ (j : Nat) d, (w.setPhase i p).calls[j]? = some d → ∃ e, w.calls[j]? = some e ∧
      d.agentId = e.agentId ∧ d.config = e.config ∧ d.phase.unregistered = e.phase.unregistered ∧
      (d.phase ≠ .failed → e.phase ≠ .failed) := by
    intro j d hd
    obtain ⟨e, he, hagent, hconfig, hphase⟩ := calls_setPhase hd
    refine ⟨e, he, hagent, hconfig, ?_, ?_⟩
    · rw [hphase]
      split
      · rename_i heq
        subst heq
        obtain rfl := Option.some.inj (hc.symm.trans he)
        exact hunregistered
      · rfl
    · intro hd
      rw [hphase] at hd
      split at hd
      · rename_i heq
        subst heq
        obtain rfl := Option.some.inj (hc.symm.trans he)
        exact hfailed
      · exact hd
  refine ⟨?_, ?_, ?_, ?_, h.live⟩
  · intro b k hk
    obtain ⟨x, d, hx, hagent, hlast, hd, hconfig, hphase⟩ := h.registered b k hk
    obtain ⟨e, he, -, hconfig', hphase'⟩ := calls_setPhase_of (k := i) (p := p) hd
    refine ⟨x, e, hx, hagent, by rw [lastCall_setPhase]; exact hlast, he, hconfig'.trans hconfig, ?_⟩
    rw [hphase']
    split
    · rename_i heq
      subst heq
      obtain rfl := Option.some.inj (hc.symm.trans hd)
      right
      apply hp
      obtain hsocket | hsucceeded := hphase
      · exact .inr ⟨k, hsocket⟩
      · exact .inl hsucceeded
    · exact hphase
  · intro b j d hlast hd hconfig hunregistered' hfailed'
    rw [lastCall_setPhase] at hlast
    obtain ⟨e, he, -, hconfig', hphase, hkept⟩ := hcase j d hd
    exact h.last b j e hlast he (by rw [← hconfig']; exact hconfig) (hphase.symm.trans hunregistered')
      (hkept hfailed')
  · intro appId b hholder
    obtain ⟨j, d, config, hd, hagent, hconfig, happ, hphase⟩ | hregistered := h.held appId b hholder
    · obtain ⟨e, he, hagent', hconfig', hphase'⟩ := calls_setPhase_of (k := i) (p := p) hd
      refine .inl ⟨j, e, config, he, hagent'.trans hagent, hconfig'.trans hconfig, happ, ?_⟩
      rw [hphase']
      split
      · rename_i heq
        subst heq
        obtain rfl := Option.some.inj (hc.symm.trans hd)
        exact hunregistered.trans hphase
      · exact hphase
    · exact .inr hregistered
  · intro b j d config hlast hd hconfig hfailed'
    rw [lastCall_setPhase] at hlast
    obtain ⟨e, he, -, hconfig', -, hkept⟩ := hcase j d hd
    exact h.holds b j e config hlast he (hconfig'.symm.trans hconfig) (hkept hfailed')

theorem Good.setState (h : Good w) (k : Nat) : Good (w.setState k false) := by
  refine ⟨?_, h.last, ?_, h.holds, ?_⟩
  · intro b j hj
    obtain ⟨x, c, hx, hagent, hlast, hc, hconfig, hphase⟩ := h.registered b j hj
    obtain ⟨y, hy, hagent', hconfig', hcall⟩ := made_setState_of (w := w) (k := k) (s := false) hx
    exact ⟨y, c, hy, hagent'.trans hagent, by rw [hcall]; exact hlast, by rw [hcall]; exact hc,
      by rw [hconfig, hconfig'], hphase⟩
  · intro appId b hholder
    obtain hpending | ⟨x, hx, happ⟩ := h.held appId b hholder
    · exact .inl hpending
    · obtain ⟨y, hy, hconfig⟩ := registered_setState (k := k) (s := false) hx
      exact .inr ⟨y, hy, by rw [hconfig, happ]⟩
  · intro j y hy hdelivers
    obtain ⟨x, hx, hagent, -, -, hstate⟩ := made_setState hy
    rw [hstate] at hdelivers
    split at hdelivers
    · cases hdelivers
    · rw [hagent]
      exact h.live j x hx hdelivers

theorem takesOwn_registered (h : takesOwn w i c = true)
    (hx : w.registered c.agentId = some x) : x.call = i := by
  simp only [takesOwn, hx, Option.all_some, Bool.and_eq_true, decide_eq_true_eq] at h
  exact h.1

theorem takesOwn_last {c d : Call SlackConfig Phase} {j : Nat} (h : takesOwn w i c = true)
    (hlast : lastCall w.calls c.agentId = some j) (hd : w.calls[j]? = some d) (hji : j ≠ i)
    (hphase : d.phase.unregistered = true) :
    d.config.map SlackConfig.appId ≠ c.config.map SlackConfig.appId := by
  simp only [takesOwn, hlast, hd, Option.all_some, hji, hphase, Bool.and_eq_true] at h
  simpa using h.2

theorem Good.fail (h : Good w) {config : SlackConfig} (hc : w.calls[i]? = some c)
    (hconfig : c.config = some config) (htakes : takesOwn w i c = true)
    (hdead : ∀ x, w.registered c.agentId = some x → x.state = false) : Good (fail w i c.agentId config) := by
  -- The last call, when it is another one, has no connection that the block could take.
  have hlater : ∀ (j : Nat) d, lastCall w.calls c.agentId = some j → w.calls[j]? = some d → j ≠ i →
      d.config ≠ none → d.phase.unregistered = false → d.phase = .failed := by
    intro j d hlast hd hji hstart hunregistered
    by_contra hfailed
    obtain ⟨k, hk⟩ := Option.ne_none_iff_exists'.mp (h.last _ j d hlast hd hstart hunregistered hfailed)
    obtain ⟨x, d', hx, -, hlast', -⟩ := h.registered _ k hk
    have hxi := takesOwn_registered htakes (by simp [World.registered, hk, hx] : w.registered c.agentId = some x)
    rw [hlast, hxi] at hlast'
    exact hji (Option.some.inj hlast')
  have hcase : ∀ (j : Nat) d, (Slack.fail w i c.agentId config).calls[j]? = some d → d.phase ≠ .failed →
      j ≠ i ∧ ∃ e, w.calls[j]? = some e ∧ d.config = e.config ∧ d.phase = e.phase := by
    intro j d hd hfailed
    obtain ⟨e, he, -, hconfig', hphase⟩ := calls_setPhase hd
    by_cases hij : i = j
    · rw [if_pos hij] at hphase
      exact absurd hphase hfailed
    · rw [if_neg hij] at hphase
      exact ⟨Ne.symm hij, e, he, hconfig', hphase⟩
  have hlastCall : ∀ b, lastCall (Slack.fail w i c.agentId config).calls b = lastCall w.calls b :=
    fun b => lastCall_setPhase (w := w.unregister c.agentId config.appId) .failed
  have hother : ∀ (j : Nat) d, w.calls[j]? = some d → j ≠ i → (Slack.fail w i c.agentId config).calls[j]? = some d :=
    fun j d hd hji => (List.getElem?_modify_ne _ _ (Ne.symm hji)).trans hd
  refine ⟨?_, ?_, ?_, ?_, ?_⟩
  · intro b k hk
    have hb : b ≠ c.agentId := by
      rintro rfl
      simp [Slack.fail, World.setPhase, World.unregister] at hk
    simp only [Slack.fail, World.setPhase, World.unregister, Function.update_of_ne hb] at hk
    obtain ⟨x, d, hx, hagent, hlast, hd, hrest⟩ := h.registered b k hk
    refine ⟨x, d, hx, hagent, by rw [hlastCall]; exact hlast, hother _ d hd ?_, hrest⟩
    intro hxi
    obtain ⟨d', hd', hagent'⟩ := lastCall_lt hlast
    rw [hxi] at hd'
    obtain rfl := Option.some.inj (hc.symm.trans hd')
    exact hb hagent'.symm
  · intro b j d hlast hd hstart hunregistered hfailed
    rw [hlastCall] at hlast
    obtain ⟨hji, e, he, hconfig', hphase⟩ := hcase j d hd hfailed
    rw [hconfig'] at hstart
    rw [hphase] at hunregistered hfailed
    by_cases hb : b = c.agentId
    · subst hb
      exact absurd (hlater j e hlast he hji hstart hunregistered) hfailed
    · simp only [Slack.fail, World.setPhase, World.unregister, Function.update_of_ne hb]
      exact h.last b j e hlast he hstart hunregistered hfailed
  · intro appId b hholder
    obtain ⟨j, d, config', hd, hagent, hconfig', happ, hphase⟩ | ⟨x, hx, happ⟩ :=
      h.held appId b (release_some hholder)
    · left
      refine ⟨j, d, config', hother j d hd ?_, hagent, hconfig', happ, hphase⟩
      rintro rfl
      obtain rfl := Option.some.inj (hc.symm.trans hd)
      obtain rfl := Option.some.inj (hconfig.symm.trans hconfig')
      subst hagent happ
      exact release_self _ _ _ hholder
    · right
      have hb : b ≠ c.agentId := by
        rintro rfl
        have hxi := takesOwn_registered htakes hx
        obtain ⟨k, hk, hx⟩ := Option.bind_eq_some_iff.mp hx
        obtain ⟨y, d, hy, -, -, hd, hdconfig, -⟩ := h.registered _ k hk
        obtain rfl := Option.some.inj (hx.symm.trans hy)
        rw [hxi] at hd
        obtain rfl := Option.some.inj (hc.symm.trans hd)
        obtain rfl := Option.some.inj (hconfig.symm.trans hdconfig)
        subst happ
        exact release_self _ _ _ hholder
      exact ⟨x, (registered_unregister config.appId hb).trans hx, happ⟩
  · intro b j d config' hlast hd hconfig' hfailed
    rw [hlastCall] at hlast
    obtain ⟨hji, e, he, heconfig, hphase⟩ := hcase j d hd hfailed
    rw [heconfig] at hconfig'
    rw [hphase] at hfailed
    apply release_kept (h.holds b j e config' hlast he hconfig' hfailed)
    rintro rfl happ
    cases hunregistered : e.phase.unregistered with
    | true =>
      apply takesOwn_last htakes hlast he hji hunregistered
      rw [hconfig', hconfig, Option.map_some, Option.map_some, happ]
    | false => exact hfailed (hlater j e hlast he hji (by simp [hconfig']) hunregistered)
  · intro k x hx hdelivers
    have hk := h.live k x hx hdelivers
    have hb : x.agentId ≠ c.agentId := by
      intro hb
      rw [hb] at hk
      have hx : w.made[k]? = some x := hx
      rw [hdead x (by simp [World.registered, hk, hx])] at hdelivers
      cases hdelivers
    simpa only [Slack.fail, World.setPhase, World.unregister, Function.update_of_ne hb] using hk

theorem Good.connect (h : Good w) {config : SlackConfig} (hc : w.calls[i]? = some c)
    (hconfig : c.config = some config) (hphase : c.phase = .authTest)
    (hlast : lastCall w.calls c.agentId = some i) : Good (connect w i c.agentId config) := by
  have hnone : w.connections c.agentId = none := by
    rw [Option.eq_none_iff_forall_not_mem]
    intro k hk
    obtain ⟨x, d, -, -, hlast', hd, -, hdphase⟩ := h.registered _ k hk
    obtain rfl := Option.some.inj (hlast.symm.trans hlast')
    obtain rfl := Option.some.inj (hc.symm.trans hd)
    rw [hphase] at hdphase
    obtain hdphase | hdphase := hdphase <;> cases hdphase
  have hlastCall : ∀ b, lastCall (Slack.connect w i c.agentId config).calls b = lastCall w.calls b :=
    fun b => lastCall_modify (fun _ => rfl)
  have hnew : (Slack.connect w i c.agentId config).made[w.made.length]? = some ⟨c.agentId, config, i, true⟩ := by
    simp [Slack.connect, World.setPhase]
  have hself : (Slack.connect w i c.agentId config).calls[i]? =
      some { c with phase := .socketStart w.made.length } := by
    simp [Slack.connect, World.setPhase, hc]
  have hother : ∀ j : Nat, j ≠ i → (Slack.connect w i c.agentId config).calls[j]? = w.calls[j]? :=
    fun j hji => List.getElem?_modify_ne _ _ (Ne.symm hji)
  have hsame : (Slack.connect w i c.agentId config).connections c.agentId = some w.made.length := by
    simp [Slack.connect, World.setPhase]
  have hconnections : ∀ b, b ≠ c.agentId → (Slack.connect w i c.agentId config).connections b = w.connections b := by
    intro b hb
    simp only [Slack.connect, World.setPhase, Function.update_of_ne hb]
  have hcall : ∀ b (j : Nat), b ≠ c.agentId → lastCall w.calls b = some j → j ≠ i := by
    rintro b j hb hj rfl
    obtain ⟨d, hd, hagent⟩ := lastCall_lt hj
    obtain rfl := Option.some.inj (hc.symm.trans hd)
    exact hb hagent.symm
  refine ⟨?_, ?_, ?_, ?_, ?_⟩
  · intro b k hk
    by_cases hb : b = c.agentId
    · subst hb
      obtain rfl := Option.some.inj (hsame.symm.trans hk)
      exact ⟨_, _, hnew, rfl, by rw [hlastCall]; exact hlast, hself, hconfig, .inl rfl⟩
    · rw [hconnections b hb] at hk
      obtain ⟨x, d, hx, hagent, hlast', hd, hrest⟩ := h.registered b k hk
      refine ⟨x, d, Pool.getElem?_append_of hx, hagent, by rw [hlastCall]; exact hlast', ?_, hrest⟩
      rw [hother _ (hcall b _ hb hlast'), hd]
  · intro b j d hlast' hd hstart hunregistered hfailed
    by_cases hb : b = c.agentId
    · subst hb
      rw [hsame]
      exact Option.some_ne_none _
    · rw [hlastCall] at hlast'
      rw [hconnections b hb]
      rw [hother j (hcall b j hb hlast')] at hd
      exact h.last b j d hlast' hd hstart hunregistered hfailed
  · intro appId b hholder
    have hregistered : ∀ x, w.registered b = some x →
        b ≠ c.agentId ∧ (Slack.connect w i c.agentId config).registered b = some x := by
      intro x hx
      obtain ⟨k, hk, hx⟩ := Option.bind_eq_some_iff.mp hx
      have hb : b ≠ c.agentId := by
        rintro rfl
        rw [hnone] at hk
        cases hk
      exact ⟨hb, Option.bind_eq_some_iff.mpr ⟨k, (hconnections b hb).trans hk, Pool.getElem?_append_of hx⟩⟩
    obtain ⟨j, d, config', hd, hagent, hconfig', happ, hdphase⟩ | ⟨x, hx, happ⟩ := h.held appId b hholder
    · by_cases hji : j = i
      · subst hji
        obtain rfl := Option.some.inj (hc.symm.trans hd)
        obtain rfl := Option.some.inj (hconfig.symm.trans hconfig')
        subst hagent
        exact .inr ⟨_, Option.bind_eq_some_iff.mpr ⟨_, hsame, hnew⟩, happ⟩
      · exact .inl ⟨j, d, config', by rw [hother j hji, hd], hagent, hconfig', happ, hdphase⟩
    · exact .inr ⟨x, (hregistered x hx).2, happ⟩
  · intro b j d config' hlast' hd hconfig' hfailed
    rw [hlastCall] at hlast'
    by_cases hji : j = i
    · subst hji
      obtain rfl := Option.some.inj (hself.symm.trans hd)
      exact h.holds b j c config' hlast' hc hconfig' (by rw [hphase]; intro heq; cases heq)
    · rw [hother j hji] at hd
      exact h.holds b j d config' hlast' hd hconfig' hfailed
  · intro k x hx hdelivers
    obtain hx | ⟨rfl, rfl⟩ := Pool.getElem?_append_cases hx
    · have hk := h.live k x hx hdelivers
      have hb : x.agentId ≠ c.agentId := by
        intro hb
        rw [hb, hnone] at hk
        cases hk
      rw [hconnections _ hb, hk]
    · exact hsame

theorem Good.act {resolves : Bool} (h : Good w) (hc : w.calls[i]? = some c)
    (hallowed : allowed w (.act i resolves) = true) (hact : act w i c resolves = some w') : Good w' := by
  simp only [allowed, hc, Option.all_some] at hallowed
  cases hphase : c.phase with
  | disconnectPrevious =>
    simp only [Slack.act, hphase, Option.some.injEq] at hact
    subst hact
    exact h.setPhase hc (by rw [hphase]; rfl) (by rw [hphase]; exact nofun) (by simp [hphase])
  | authTest =>
    cases hconfig : c.config with
    | none => simp [Slack.act, hphase, hconfig] at hact
    | some config =>
      simp only [Slack.act, hphase, hconfig, Option.some.injEq] at hact
      subst hact
      simp only [hphase] at hallowed
      split at hallowed
      · rename_i hresolves
        rw [if_pos hresolves]
        exact h.connect hc hconfig hphase (by simpa using hallowed)
      · rename_i hrejects
        rw [if_neg hrejects]
        apply h.fail hc hconfig hallowed
        -- A call that waits for `auth.test` has no connection.
        intro x hx
        have hxi := takesOwn_registered hallowed hx
        obtain ⟨k, hk, hx⟩ := Option.bind_eq_some_iff.mp hx
        obtain ⟨y, d, hy, -, -, hd, -, hdphase⟩ := h.registered _ k hk
        obtain rfl := Option.some.inj (hx.symm.trans hy)
        rw [hxi] at hd
        obtain rfl := Option.some.inj (hc.symm.trans hd)
        rw [hphase] at hdphase
        obtain hdphase | hdphase := hdphase <;> cases hdphase
  | socketStart k =>
    cases hconfig : c.config with
    | none => simp [Slack.act, hphase, hconfig] at hact
    | some config =>
      simp only [Slack.act, hphase, hconfig, Option.some.injEq] at hact
      subst hact
      simp only [hphase] at hallowed
      split
      · exact h.setPhase hc (by rw [hphase]; rfl) (by rw [hphase]; exact nofun) (fun _ => rfl)
      · rename_i hrejects
        have htakes : takesOwn w i c = true := by simpa [hrejects] using hallowed
        have hkept : ∀ x, (w.setState k false).registered c.agentId = some x →
            ∃ y, w.registered c.agentId = some y ∧ x.call = y.call ∧ x.state = false := by
          intro x hx
          obtain ⟨j, hj, hx⟩ := Option.bind_eq_some_iff.mp hx
          obtain ⟨y, hy, -, -, hcall, hstate⟩ := made_setState hx
          have hregistered : w.registered c.agentId = some y := Option.bind_eq_some_iff.mpr ⟨j, hj, hy⟩
          refine ⟨y, hregistered, hcall, ?_⟩
          have hyi := takesOwn_registered htakes hregistered
          obtain ⟨z, d, hz, -, hlast, hd, -, hdphase⟩ := h.registered _ j hj
          obtain rfl := Option.some.inj (hy.symm.trans hz)
          rw [hyi] at hd
          obtain rfl := Option.some.inj (hc.symm.trans hd)
          rw [hphase] at hdphase
          obtain hdphase | hdphase := hdphase
          · cases hdphase
            rw [hstate, if_pos rfl]
          · cases hdphase
        refine (h.setState k).fail hc hconfig ?_ ?_
        · simp only [takesOwn, Bool.and_eq_true] at htakes ⊢
          refine ⟨?_, htakes.2⟩
          cases hx : (w.setState k false).registered c.agentId with
          | none => rfl
          | some x =>
            obtain ⟨y, hy, hcall, -⟩ := hkept x hx
            have hyi := htakes.1
            rw [hy, Option.all_some] at hyi
            rw [Option.all_some, hcall]
            exact hyi
        · intro x hx
          obtain ⟨-, -, -, hstate⟩ := hkept x hx
          exact hstate
  | disconnectStopped =>
    simp only [Slack.act, hphase, Option.some.injEq] at hact
    subst hact
    exact h.setPhase hc (by rw [hphase]; rfl) (by rw [hphase]; exact nofun) (fun _ => rfl)
  | succeeded | failed => simp [Slack.act, hphase] at hact

theorem Good.step {e : Event} (h : Good w) (hallowed : allowed w e = true) (hstep : step w e = some w') : Good w' := by
  cases e with
  | start agentId rawConfig =>
    cases hstep
    exact h.start agentId rawConfig
  | stop agentId =>
    cases hstep
    exact h.stop agentId
  | act i resolves =>
    obtain ⟨c, hc, hact⟩ := Option.bind_eq_some_iff.mp hstep
    exact h.act hc hallowed hact

theorem good_initial : Good {} := by
  refine ⟨?_, ?_, ?_, ?_, ?_⟩
  · exact fun a k hk => (nomatch hk)
  · exact fun a i c hlast => (nomatch hlast)
  · exact fun appId a hholder => (nomatch hholder)
  · exact fun a i c config hlast => (nomatch hlast)
  · intro k x hx
    simp at hx

theorem obeys {es : List Event} (h : Runs Slack.step (fun w e => allowed w e = true) {} es w)
    (hsettled : manager.Settled w) : manager.Obeys w :=
  (h.invariant (I := Good) (fun _ _ _ hallowed hgood hstep => hgood.step hallowed hstep) good_initial).obeys hsettled

end Invariant

end A2Wave.ChatConnections.Slack

namespace A2Wave.ChatConnections

open Transition

/-- A manager obeys the last call when no overtaken call takes from a later one, and no connection is
opened, or taken down within a batch, behind the map. -/
theorem chat_managers_obey_the_last_call (slackEvents : List Slack.Event) (discordEvents : List Discord.Event)
    (telegramEvents : List Telegram.Event) :
    (∀ w, Runs Slack.step (fun w e => Slack.allowed w e = true) {} slackEvents w →
      Slack.manager.Settled w → Slack.manager.Obeys w) ∧
    (∀ w, Runs Discord.step (fun w e => Discord.allowed w e = true) {} discordEvents w →
      Discord.manager.Settled w → Discord.manager.Obeys w) ∧
    ∀ w, Runs Telegram.step (fun w e => Telegram.allowed w e = true) {} telegramEvents w →
      Telegram.manager.Settled w → Telegram.manager.Obeys w :=
  ⟨fun _ => Slack.obeys, fun _ => Discord.obeys, fun _ => Telegram.obeys⟩

section Runs

def slackConfig : Slack.SlackConfig := { appId := "A1", appToken := "x", botToken := "b" }

def discordConfig : Discord.DiscordConfig := { applicationId := "1", botToken := "t" }

def otherDiscordConfig : Discord.DiscordConfig := { applicationId := "1", botToken := "u" }

def telegramConfig : Telegram.TelegramConfig := { botToken := "7:t" }

instance settledDecidable {C E P : Type} (m : Manager C E P) (w : World C E P) : Decidable (m.Settled w) :=
  inferInstanceAs (Decidable (∀ c ∈ w.calls, m.status c.phase ≠ .pending))

theorem chat_managers_obey_the_last_call_in_turn :
    (∃ w, run Slack.step {} [.start "a" (some slackConfig), .act 0 true, .act 0 true,
      .start "a" (some slackConfig), .act 1 true, .act 1 true, .act 1 true] = some w ∧
      w.registered "a" = some ⟨"a", slackConfig, 1, true⟩ ∧ Slack.manager.Obeys w) ∧
    (∃ w, run Discord.step {} [.start "a" (some discordConfig) false, .act 0 true,
      .start "a" (some otherDiscordConfig) true, .act 1 true, .act 1 true] = some w ∧
      w.registered "a" = some ⟨"a", otherDiscordConfig, 1, .loggedIn⟩ ∧ Discord.manager.Obeys w) ∧
    ∃ w, run Telegram.step {} [.start "a" (some telegramConfig), .act 0 true, .act 0 true,
      .poll 0 (some 1), .poll 0 none, .stop "a"] = some w ∧
      w.registered "a" = none ∧ Telegram.manager.Obeys w := by
  refine ⟨?_, ?_, ?_⟩
  · obtain ⟨w, hw, hregistered, hsettled⟩ : ∃ w, run (guarded Slack.step fun w e => Slack.allowed w e = true) {}
        [.start "a" (some slackConfig), .act 0 true, .act 0 true, .start "a" (some slackConfig), .act 1 true,
        .act 1 true, .act 1 true] = some w ∧
      (w.registered "a" = some ⟨"a", slackConfig, 1, true⟩ ∧ Slack.manager.Settled w) :=
      exists_of_run_any (by decide +kernel)
    have hruns := Runs.of_guarded hw
    exact ⟨w, hruns.toRun, hregistered, (chat_managers_obey_the_last_call _ [] []).1 w hruns hsettled⟩
  · obtain ⟨w, hw, hregistered, hsettled⟩ : ∃ w, run (guarded Discord.step fun w e => Discord.allowed w e = true) {}
        [.start "a" (some discordConfig) false, .act 0 true, .start "a" (some otherDiscordConfig) true,
        .act 1 true, .act 1 true] = some w ∧
      (w.registered "a" = some ⟨"a", otherDiscordConfig, 1, .loggedIn⟩ ∧ Discord.manager.Settled w) :=
      exists_of_run_any (by decide +kernel)
    have hruns := Runs.of_guarded hw
    exact ⟨w, hruns.toRun, hregistered, (chat_managers_obey_the_last_call [] _ []).2.1 w hruns hsettled⟩
  · obtain ⟨w, hw, hregistered, hsettled⟩ : ∃ w, run (guarded Telegram.step fun w e => Telegram.allowed w e = true) {}
        [.start "a" (some telegramConfig), .act 0 true, .act 0 true, .poll 0 (some 1), .poll 0 none,
          .stop "a"] = some w ∧
      (w.registered "a" = none ∧ Telegram.manager.Settled w) :=
      exists_of_run_any (by decide +kernel)
    have hruns := Runs.of_guarded hw
    exact ⟨w, hruns.toRun, hregistered, (chat_managers_obey_the_last_call [] [] _).2.2 w hruns hsettled⟩

theorem chat_managers_disobey_a_later_call :
    (∃ es w, run Slack.step {} es = some w ∧ Slack.manager.Settled w ∧ ¬Slack.manager.Obeys w) ∧
    (∃ es w, run Discord.step {} es = some w ∧ Discord.manager.Settled w ∧ ¬Discord.manager.Obeys w) ∧
    ∃ es w, run Telegram.step {} es = some w ∧ Telegram.manager.Settled w ∧ ¬Telegram.manager.Obeys w := by
  refine ⟨?_, ?_, ?_⟩
  · obtain ⟨w, hw, hregistered, hlast, hcall, hsettled⟩ : ∃ w, run Slack.step {}
        [.start "a" (some slackConfig), .stop "a", .act 0 true, .act 0 true] = some w ∧
      ((w.registered "a").map (·.config) = some slackConfig ∧ lastCall w.calls "a" = some 1 ∧
        w.calls[1]? = some ⟨"a", none, .succeeded⟩ ∧ Slack.manager.Settled w) :=
      exists_of_run_any (by decide +kernel)
    refine ⟨_, w, hw, hsettled, ?_⟩
    intro hobeys
    obtain ⟨i, c, hi, hc, hconfig, -⟩ := (hobeys.registered "a" slackConfig).mp hregistered
    obtain rfl := Option.some.inj (hlast.symm.trans hi)
    obtain rfl := Option.some.inj (hcall.symm.trans hc)
    cases hconfig
  · obtain ⟨w, hw, hmade, hnone, hsettled⟩ : ∃ w, run Discord.step {}
        [.start "a" (some discordConfig) false, .act 0 true, .start "a" (some otherDiscordConfig) false,
        .stop "a", .act 2 true, .act 1 true, .act 1 true] = some w ∧
      (w.made[1]? = some ⟨"a", otherDiscordConfig, 1, .loggedIn⟩ ∧ w.connections "a" = none ∧
        Discord.manager.Settled w) :=
      exists_of_run_any (by decide +kernel)
    refine ⟨_, w, hw, hsettled, ?_⟩
    intro hobeys
    have hregistered := hobeys.delivers 1 _ hmade rfl
    rw [hnone] at hregistered
    cases hregistered
  · obtain ⟨w, hw, hlast, hcall, hnone, hsettled⟩ : ∃ w, run Telegram.step {}
        [.start "a" (some telegramConfig), .start "a" (some telegramConfig), .act 0 false, .act 1 true,
          .act 1 true] = some w ∧
      (lastCall w.calls "a" = some 1 ∧ w.calls[1]? = some ⟨"a", some telegramConfig, .succeeded⟩ ∧
        w.registered "a" = none ∧ Telegram.manager.Settled w) :=
      exists_of_run_any (by decide +kernel)
    refine ⟨_, w, hw, hsettled, ?_⟩
    intro hobeys
    have hregistered := (hobeys.registered "a" telegramConfig).mpr ⟨1, _, hlast, hcall, rfl, rfl⟩
    rw [hnone] at hregistered
    cases hregistered

end Runs

end A2Wave.ChatConnections
