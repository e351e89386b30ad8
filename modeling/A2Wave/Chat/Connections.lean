import A2Wave.Lib.Claims
import A2Wave.Lib.Pool
import Mathlib.Data.List.Induction

/-! What the Slack, Discord and Telegram managers have in common: a map from Agents to connections,
a map from apps to the Agents that hold them, and calls of `start` and `stop` that overlap. -/

namespace A2Wave.ChatConnections

/-- `call` is the `start` that made the connection, or that gave it its config later. -/
structure Connection (C E : Type) where
  agentId : String
  config : C
  call : Nat
  state : E
  deriving DecidableEq

structure Call (C P : Type) where
  agentId : String
  config : Option C
  phase : P
  deriving DecidableEq

inductive Status
  | pending
  | succeeded
  | failed
  deriving DecidableEq

/-- A connection is known by its place among all that were made, a call by its place among all that
changed anything. -/
structure World (C E P : Type) where
  made : List (Connection C E) := []
  connections : String → Option Nat := fun _ => none
  holders : String → Option String := fun _ => none
  calls : List (Call C P) := []

variable {C E P : Type}

namespace World

def registered (w : World C E P) (agentId : String) : Option (Connection C E) :=
  (w.connections agentId).bind fun k => w.made[k]?

def setState (w : World C E P) (k : Nat) (state : E) : World C E P :=
  { w with made := w.made.modify k fun x => { x with state := state } }

def setPhase (w : World C E P) (i : Nat) (phase : P) : World C E P :=
  { w with calls := w.calls.modify i fun c => { c with phase := phase } }

def unregister (w : World C E P) (agentId key : String) : World C E P :=
  { w with
    connections := Function.update w.connections agentId none
    holders := release w.holders key agentId }

def register (w : World C E P) (agentId key : String) (config : C) (state : E) (phase : P) : World C E P :=
  { w with
    made := w.made ++ [⟨agentId, config, w.calls.length, state⟩]
    connections := Function.update w.connections agentId (some w.made.length)
    holders := Function.update w.holders key (some agentId)
    calls := w.calls ++ [⟨agentId, some config, phase⟩] }

def reuse (w : World C E P) (agentId key : String) (k : Nat) (config : C) (phase : P) : World C E P :=
  { w with
    made := w.made.modify k fun x => { x with config := config, call := w.calls.length }
    holders := Function.update w.holders key (some agentId)
    calls := w.calls ++ [⟨agentId, some config, phase⟩] }

def push (w : World C E P) (agentId : String) (config : Option C) (phase : P) : World C E P :=
  { w with calls := w.calls ++ [⟨agentId, config, phase⟩] }

end World

/-- The last place of `a` in the list. -/
def lastIndex (l : List String) (a : String) : Option Nat :=
  l.zipIdx.foldl (fun last x => if x.1 = a then some x.2 else last) none

def lastCall (calls : List (Call C P)) (agentId : String) : Option Nat :=
  lastIndex (calls.map Call.agentId) agentId

structure Manager (C E P : Type) where
  key : C → String
  status : P → Status
  connectionOf : P → Option Nat
  delivers : E → Bool

namespace Manager

def Settled (m : Manager C E P) (w : World C E P) : Prop := ∀ c ∈ w.calls, m.status c.phase ≠ .pending

/-- The last call of the Agent is a `start` with this config, and it succeeded. -/
def LastStarted (m : Manager C E P) (w : World C E P) (agentId : String) (config : C) : Prop :=
  ∃ i c, lastCall w.calls agentId = some i ∧ w.calls[i]? = some c ∧ c.config = some config ∧
    m.status c.phase = .succeeded

structure Obeys (m : Manager C E P) (w : World C E P) : Prop where
  registered : ∀ a config, (w.registered a).map (·.config) = some config ↔ m.LastStarted w a config
  delivers : ∀ (k : Nat) x, w.made[k]? = some x → m.delivers x.state = true → w.connections x.agentId = some k
  holders : ∀ key a, w.holders key = some a ↔ ∃ x, w.registered a = some x ∧ m.key x.config = key

end Manager

theorem lastIndex_append (l : List String) (a b : String) :
    lastIndex (l ++ [b]) a = if b = a then some l.length else lastIndex l a := by
  simp [lastIndex, List.zipIdx_append]

section LastCall

variable {calls : List (Call C P)} {a : String} {i : Nat}

theorem lastCall_append (c : Call C P) :
    lastCall (calls ++ [c]) a = if c.agentId = a then some calls.length else lastCall calls a := by
  rw [lastCall, List.map_append, List.map_singleton, lastIndex_append, List.length_map]
  rfl

theorem lastCall_modify {f : Call C P → Call C P} (hf : ∀ c, (f c).agentId = c.agentId) :
    lastCall (calls.modify i f) a = lastCall calls a := by
  have hagents : (calls.modify i f).map Call.agentId = calls.map Call.agentId := by
    apply List.ext_getElem?
    intro j
    by_cases hij : i = j
    · subst hij
      cases hc : calls[i]? with
      | none => simp [hc]
      | some c => simp [hc, hf]
    · simp [hij]
  rw [lastCall, hagents, lastCall]

theorem lastCall_lt (h : lastCall calls a = some i) : ∃ c, calls[i]? = some c ∧ c.agentId = a := by
  induction calls using List.reverseRecOn with
  | nil => cases h
  | append_singleton calls c ih =>
    rw [lastCall_append] at h
    split at h
    · cases h
      exact ⟨c, by simp, by assumption⟩
    · obtain ⟨c', hc', hagent⟩ := ih h
      exact ⟨c', (List.getElem?_append_left (List.getElem?_eq_some_iff.mp hc').1).trans hc', hagent⟩

end LastCall

section World

variable {w : World C E P} {a : String} {i k : Nat}

theorem made_setState {s : E} {x : Connection C E} (h : (w.setState k s).made[i]? = some x) :
    ∃ y, w.made[i]? = some y ∧ x.agentId = y.agentId ∧ x.config = y.config ∧ x.call = y.call ∧
      x.state = if k = i then s else y.state := by
  by_cases hi : k = i
  · subst hi
    obtain ⟨y, hy, rfl⟩ := Option.map_eq_some_iff.mp ((List.getElem?_modify_eq _ _ _).symm.trans h)
    exact ⟨y, hy, rfl, rfl, rfl, by simp⟩
  · exact ⟨x, (List.getElem?_modify_ne _ _ hi).symm.trans h, rfl, rfl, rfl, by simp [hi]⟩

theorem made_setState_of {s : E} {y : Connection C E} (hy : w.made[i]? = some y) :
    ∃ x, (w.setState k s).made[i]? = some x ∧ x.agentId = y.agentId ∧ x.config = y.config ∧ x.call = y.call := by
  by_cases hi : k = i
  · subst hi
    exact ⟨{ y with state := s }, by simp [World.setState, hy], rfl, rfl, rfl⟩
  · exact ⟨y, (List.getElem?_modify_ne _ _ hi).trans hy, rfl, rfl, rfl⟩

theorem calls_setPhase {p : P} {c : Call C P} (h : (w.setPhase k p).calls[i]? = some c) :
    ∃ d, w.calls[i]? = some d ∧ c.agentId = d.agentId ∧ c.config = d.config ∧
      c.phase = if k = i then p else d.phase := by
  by_cases hi : k = i
  · subst hi
    obtain ⟨d, hd, rfl⟩ := Option.map_eq_some_iff.mp ((List.getElem?_modify_eq _ _ _).symm.trans h)
    exact ⟨d, hd, rfl, rfl, by simp⟩
  · exact ⟨c, (List.getElem?_modify_ne _ _ hi).symm.trans h, rfl, rfl, by simp [hi]⟩

theorem calls_setPhase_of {p : P} {d : Call C P} (hd : w.calls[i]? = some d) :
    ∃ c, (w.setPhase k p).calls[i]? = some c ∧ c.agentId = d.agentId ∧ c.config = d.config ∧
      c.phase = if k = i then p else d.phase := by
  by_cases hi : k = i
  · subst hi
    exact ⟨{ d with phase := p }, by simp [World.setPhase, hd], rfl, rfl, by simp⟩
  · exact ⟨d, (List.getElem?_modify_ne _ _ hi).trans hd, rfl, rfl, by simp [hi]⟩

theorem lastCall_setPhase (p : P) : lastCall (w.setPhase i p).calls a = lastCall w.calls a :=
  lastCall_modify fun _ => rfl

theorem lastCall_lt_length {calls : List (Call C P)} (h : lastCall calls a = some i) : i < calls.length := by
  obtain ⟨c, hc, -⟩ := lastCall_lt h
  exact (List.getElem?_eq_some_iff.mp hc).1

end World

/-! Where a `start` registers its connection before it awaits anything. -/

section RegisteredFirst

variable (m : Manager C E P) {w : World C E P} {a : String} {i k : Nat}

def Manager.claims (w : World C E P) (a : String) : Option String :=
  (w.registered a).map fun x => m.key x.config

structure Core (w : World C E P) : Prop where
  holds : Holds (m.claims w) w.holders
  registered : ∀ a k, w.connections a = some k → ∃ x c, w.made[k]? = some x ∧ x.agentId = a ∧
    lastCall w.calls a = some x.call ∧ w.calls[x.call]? = some c ∧ c.config = some x.config ∧
    m.status c.phase ≠ .failed
  live : ∀ (k : Nat) x, w.made[k]? = some x → m.delivers x.state = true → w.connections x.agentId = some k

structure Inv (w : World C E P) : Prop extends Core m w where
  last : ∀ a i c, lastCall w.calls a = some i → w.calls[i]? = some c → c.config ≠ none →
    m.status c.phase ≠ .failed → w.connections a ≠ none

variable {m}

theorem Core.registered_eq (h : Core m w) (hk : w.connections a = some k) :
    ∃ x, w.made[k]? = some x ∧ w.registered a = some x := by
  obtain ⟨x, -, hx, -⟩ := h.registered a k hk
  exact ⟨x, hx, by simp [World.registered, hk, hx]⟩

theorem Inv.obeys (h : Inv m w) (hsettled : m.Settled w) : m.Obeys w := by
  refine ⟨?_, h.live, ?_⟩
  · intro a config
    constructor
    · intro hconfig
      obtain ⟨y, hy, rfl⟩ := Option.map_eq_some_iff.mp hconfig
      obtain ⟨k, hk, hy⟩ := Option.bind_eq_some_iff.mp hy
      obtain ⟨x, c, hx, -, hlast, hc, hcall, hstatus⟩ := h.registered a k hk
      obtain rfl := Option.some.inj (hx.symm.trans hy)
      refine ⟨x.call, c, hlast, hc, hcall, ?_⟩
      have hpending := hsettled c (List.mem_of_getElem? hc)
      cases hs : m.status c.phase with
      | pending => exact absurd hs hpending
      | succeeded => rfl
      | failed => exact absurd hs hstatus
    · rintro ⟨i, c, hlast, hc, hconfig, hstatus⟩
      have hsome := h.last a i c hlast hc (by simp [hconfig]) (by simp [hstatus])
      obtain ⟨k, hk⟩ := Option.ne_none_iff_exists'.mp hsome
      obtain ⟨x, c', hx, -, hlast', hc', hconfig', -⟩ := h.registered a k hk
      obtain rfl := Option.some.inj (hlast.symm.trans hlast')
      obtain rfl := Option.some.inj (hc.symm.trans hc')
      obtain rfl := Option.some.inj (hconfig.symm.trans hconfig')
      simp [World.registered, hk, hx]
  · intro key a
    rw [h.holds a key]
    simp [Manager.claims, Option.map_eq_some_iff]

theorem Core.setState (h : Core m w) {s : E}
    (hs : m.delivers s = true → ∀ x, w.made[k]? = some x → w.connections x.agentId = some k) :
    Core m (w.setState k s) := by
  have hclaims : m.claims (w.setState k s) = m.claims w := by
    funext a
    cases hi : w.connections a with
    | none => simp [Manager.claims, World.registered, World.setState, hi]
    | some i =>
      obtain ⟨x, -, hx, -⟩ := h.registered a i hi
      obtain ⟨y, hy, -, hconfig, -⟩ := made_setState_of (w := w) (k := k) (s := s) hx
      have hi' : (w.setState k s).connections a = some i := hi
      simp only [Manager.claims, World.registered, hi, hi', Option.bind_some, hx, hy, Option.map_some, hconfig]
  refine ⟨?_, ?_, ?_⟩
  · rw [hclaims]
    exact h.holds
  · intro a i hi
    obtain ⟨x, c, hx, hagent, hlast, hc, hconfig, hstatus⟩ := h.registered a i hi
    obtain ⟨y, hy, hagent', hconfig', hcall⟩ := made_setState_of (w := w) (k := k) (s := s) hx
    exact ⟨y, c, hy, hagent'.trans hagent, by rw [hcall]; exact hlast, by rw [hcall]; exact hc,
      by rw [hconfig', hconfig], hstatus⟩
  · intro i y hy hdelivers
    obtain ⟨x, hx, hagent, -, -, hstate⟩ := made_setState hy
    rw [hagent]
    by_cases hi : k = i
    · subst hi
      rw [hstate, if_pos rfl] at hdelivers
      exact hs hdelivers x hx
    · rw [hstate, if_neg hi] at hdelivers
      exact h.live i x hx hdelivers

theorem Inv.setState (h : Inv m w) {s : E}
    (hs : m.delivers s = true → ∀ x, w.made[k]? = some x → w.connections x.agentId = some k) :
    Inv m (w.setState k s) :=
  ⟨h.toCore.setState hs, h.last⟩

variable {p : P}

theorem Core.setPhase (h : Core m w) (hp : ∀ c, w.calls[i]? = some c → m.status p = .failed →
    m.status c.phase = .failed ∨ w.connections c.agentId = none) : Core m (w.setPhase i p) := by
  refine ⟨h.holds, ?_, h.live⟩
  intro a k hk
  obtain ⟨x, c, hx, hagent, hlast, hc, hconfig, hstatus⟩ := h.registered a k hk
  obtain ⟨d, hd, -, hconfig', hphase⟩ := calls_setPhase_of (w := w) (k := i) (p := p) hc
  refine ⟨x, d, hx, hagent, by rw [lastCall_setPhase]; exact hlast, hd, hconfig'.trans hconfig, ?_⟩
  rw [hphase]
  split
  · rename_i heq
    subst heq
    intro hfailed
    obtain hfailed | hnone := hp c hc hfailed
    · exact hstatus hfailed
    · obtain ⟨c', hc', hagent'⟩ := lastCall_lt hlast
      obtain rfl := Option.some.inj (hc.symm.trans hc')
      have hk' : w.connections a = some k := hk
      rw [← hagent', hnone] at hk'
      cases hk'
  · exact hstatus

theorem Inv.setPhase (h : Inv m w)
    (hp : ∀ c, w.calls[i]? = some c → (m.status p = .failed ↔ m.status c.phase = .failed)) :
    Inv m (w.setPhase i p) := by
  refine ⟨h.toCore.setPhase fun c hc hfailed => .inl ((hp c hc).mp hfailed), ?_⟩
  intro a j d hlast hd hconfig hstatus
  rw [lastCall_setPhase] at hlast
  obtain ⟨c, hc, -, hconfig', hphase⟩ := calls_setPhase hd
  apply h.last a j c hlast hc (by rw [← hconfig']; exact hconfig)
  intro hfailed
  apply hstatus
  rw [hphase]
  split
  · rename_i heq
    subst heq
    exact (hp c hc).mpr hfailed
  · exact hfailed

theorem claims_unregister (key : String) : m.claims (w.unregister a key) = Function.update (m.claims w) a none := by
  funext b
  by_cases hb : b = a
  · subst hb
    simp [Manager.claims, World.registered, World.unregister]
  · simp [Manager.claims, World.registered, World.unregister, Function.update_of_ne hb]

variable {x : Connection C E}

theorem Core.unregister (h : Core m w) (hk : w.connections a = some k)
    (hx : w.made[k]? = some x) (hdead : m.delivers x.state = false) : Core m (w.unregister a (m.key x.config)) := by
  have hclaim : m.claims w a = some (m.key x.config) := by simp [Manager.claims, World.registered, hk, hx]
  refine ⟨?_, ?_, ?_⟩
  · rw [claims_unregister]
    exact h.holds.release hclaim
  · intro b j hj
    by_cases hb : b = a
    · subst hb
      simp [World.unregister] at hj
    · simp only [World.unregister, Function.update_of_ne hb] at hj
      exact h.registered b j hj
  · intro j y hy hdelivers
    have hj := h.live j y hy hdelivers
    by_cases hb : y.agentId = a
    · rw [hb, hk] at hj
      obtain rfl := Option.some.inj hj
      obtain rfl := Option.some.inj (hx.symm.trans hy)
      rw [hdead] at hdelivers
      cases hdelivers
    · simpa only [World.unregister, Function.update_of_ne hb] using hj

theorem Core.unregister_none (h : Core m w) (hnone : w.connections a = none) (key : String) :
    w.unregister a key = w := by
  have hclaim : m.claims w a ≠ some key := by simp [Manager.claims, World.registered, hnone]
  rw [World.unregister, h.holds.release_of_ne hclaim, ← hnone, Function.update_eq_self]

theorem Core.push (h : Core m w) (hnone : w.connections a = none) (config : Option C) (p : P) :
    Core m (w.push a config p) := by
  refine ⟨h.holds, ?_, h.live⟩
  intro b k hk
  obtain ⟨x, c, hx, hagent, hlast, hc, hrest⟩ := h.registered b k hk
  refine ⟨x, c, hx, hagent, ?_, Pool.getElem?_append_of hc, hrest⟩
  rw [World.push, lastCall_append, if_neg, hlast]
  rintro rfl
  have hk' : w.connections a = some k := hk
  rw [hnone] at hk'
  cases hk'

variable (m) in
structure Without (w : World C E P) (a : String) : Prop extends Core m w where
  absent : w.connections a = none
  others : ∀ b i c, b ≠ a → lastCall w.calls b = some i → w.calls[i]? = some c → c.config ≠ none →
    m.status c.phase ≠ .failed → w.connections b ≠ none

theorem Inv.without (h : Inv m w) (hnone : w.connections a = none) : Without m w a :=
  ⟨h.toCore, hnone, fun b i c _ => h.last b i c⟩

theorem Inv.unregister (h : Inv m w) (hk : w.connections a = some k)
    (hx : w.made[k]? = some x) (hdead : m.delivers x.state = false) :
    Without m (w.unregister a (m.key x.config)) a := by
  refine ⟨h.toCore.unregister hk hx hdead, by simp [World.unregister], ?_⟩
  intro b i c hb hlast hc hconfig hstatus
  simp only [World.unregister, Function.update_of_ne hb]
  exact h.last b i c hlast hc hconfig hstatus

theorem Without.others_push (h : Without m w a) (config : Option C) (p : P) :
    ∀ b i c, b ≠ a → lastCall (w.push a config p).calls b = some i → (w.push a config p).calls[i]? = some c →
      c.config ≠ none → m.status c.phase ≠ .failed → w.connections b ≠ none := by
  intro b i c hb hlast hc
  rw [World.push, lastCall_append, if_neg (Ne.symm hb)] at hlast
  obtain hc | ⟨rfl, -⟩ := Pool.getElem?_append_cases hc
  · exact h.others b i c hb hlast hc
  · exact absurd (lastCall_lt_length hlast) (Nat.lt_irrefl _)

theorem lastCall_push {config : Option C} {c : Call C P} (hlast : lastCall (w.push a config p).calls a = some i)
    (hc : (w.push a config p).calls[i]? = some c) : i = w.calls.length ∧ c = ⟨a, config, p⟩ := by
  rw [World.push, lastCall_append, if_pos rfl] at hlast
  obtain rfl := Option.some.inj hlast
  simp only [World.push, List.getElem?_concat_length] at hc
  exact ⟨rfl, (Option.some.inj hc).symm⟩

theorem Without.stopped (h : Without m w a) (p : P) : Inv m (w.push a none p) := by
  refine ⟨h.toCore.push h.absent none p, ?_⟩
  intro b i c hlast hc hconfig hstatus
  by_cases hb : b = a
  · subst hb
    obtain ⟨-, rfl⟩ := lastCall_push hlast hc
    exact absurd rfl hconfig
  · exact h.others_push none p b i c hb hlast hc hconfig hstatus

theorem Without.failed (h : Without m w a) (hp : m.status p = .failed) {c : Call C P}
    (hc : w.calls[i]? = some c) (hagent : c.agentId = a)
    (hlast : ∀ j d, lastCall w.calls a = some j → w.calls[j]? = some d → j ≠ i → d.config ≠ none →
      m.status d.phase = .failed) : Inv m (w.setPhase i p) := by
  refine ⟨h.toCore.setPhase ?_, ?_⟩
  · intro d hd _
    obtain rfl := Option.some.inj (hc.symm.trans hd)
    rw [hagent]
    exact .inr h.absent
  · intro b j d hj hd hconfig hstatus
    rw [lastCall_setPhase] at hj
    obtain ⟨d', hd', hagent', hconfig', hphase⟩ := calls_setPhase hd
    by_cases hij : i = j
    · rw [hphase, if_pos hij] at hstatus
      exact absurd hp hstatus
    · rw [hphase, if_neg hij] at hstatus
      rw [hconfig'] at hconfig
      by_cases hb : b = a
      · subst hb
        exact absurd (hlast j d' hj hd' (Ne.symm hij) hconfig) hstatus
      · exact h.others b j d' hb hj hd' hconfig hstatus

theorem Without.register (h : Without m w a) (config : C) (s : E) (hp : m.status p ≠ .failed)
    (hfree : ∀ b, w.holders (m.key config) = some b → b = a) :
    Inv m (w.register a (m.key config) config s p) := by
  have hclaim : m.claims w a = none := by simp [Manager.claims, World.registered, h.absent]
  have hclaims : m.claims (w.register a (m.key config) config s p) =
      Function.update (m.claims w) a (some (m.key config)) := by
    funext b
    by_cases hb : b = a
    · subst hb
      simp [Manager.claims, World.registered, World.register]
    · rw [Function.update_of_ne hb]
      cases hk : w.connections b with
      | none => simp [Manager.claims, World.registered, World.register, Function.update_of_ne hb, hk]
      | some k =>
        obtain ⟨x, -, hx, -⟩ := h.registered b k hk
        have hx' : (w.register a (m.key config) config s p).made[k]? = some x := Pool.getElem?_append_of hx
        have hk' : (w.register a (m.key config) config s p).connections b = some k := by
          simp only [World.register, Function.update_of_ne hb, hk]
        simp only [Manager.claims, World.registered, hk, hk', Option.bind_some, hx, hx']
  have hpush := h.toCore.push h.absent (some config) p
  refine ⟨⟨?_, ?_, ?_⟩, ?_⟩
  · rw [hclaims]
    exact h.holds.reserve hclaim hfree
  · intro b k hk
    by_cases hb : b = a
    · subst hb
      simp only [World.register, Function.update_self] at hk
      obtain rfl := Option.some.inj hk
      refine ⟨⟨b, config, w.calls.length, s⟩, ⟨b, some config, p⟩, ?_, rfl, ?_, ?_, rfl, hp⟩
      · simp [World.register]
      · simp only [World.register, lastCall_append, if_pos]
      · simp [World.register]
    · simp only [World.register, Function.update_of_ne hb] at hk
      obtain ⟨x, c, hx, hrest⟩ := hpush.registered b k hk
      exact ⟨x, c, Pool.getElem?_append_of hx, hrest⟩
  · intro k x hx hdelivers
    obtain hx | ⟨rfl, rfl⟩ := Pool.getElem?_append_cases hx
    · have hk := h.live k x hx hdelivers
      have hb : x.agentId ≠ a := by
        intro hb
        rw [hb, h.absent] at hk
        cases hk
      simpa only [World.register, Function.update_of_ne hb] using hk
    · simp [World.register]
  · intro b i c hlast hc hconfig hstatus
    by_cases hb : b = a
    · subst hb
      simp [World.register]
    · simp only [World.register, Function.update_of_ne hb]
      exact h.others_push (some config) p b i c hb hlast hc hconfig hstatus

theorem Inv.reuse (h : Inv m w) (hk : w.connections a = some k) (hx : w.made[k]? = some x)
    (config : C) (hkey : m.key config = m.key x.config) (hp : m.status p ≠ .failed) :
    Inv m (w.reuse a (m.key config) k config p) := by
  have hclaim : m.claims w a = some (m.key config) := by simp [Manager.claims, World.registered, hk, hx, hkey]
  have hholders : Function.update w.holders (m.key config) (some a) = w.holders := by
    rw [← (h.holds a _).mpr hclaim, Function.update_eq_self]
  have hsame : (w.reuse a (m.key config) k config p).made[k]? =
      some { x with config := config, call := w.calls.length } := by
    simp [World.reuse, hx]
  have hother : ∀ j : Nat, j ≠ k → (w.reuse a (m.key config) k config p).made[j]? = w.made[j]? :=
    fun j hj => List.getElem?_modify_ne _ _ (Ne.symm hj)
  have hagent : x.agentId = a := by
    obtain ⟨y, -, hy, hagent, -⟩ := h.registered a k hk
    rwa [Option.some.inj (hx.symm.trans hy)]
  have hapart : ∀ b j, b ≠ a → w.connections b = some j → j ≠ k := by
    rintro b j hb hj rfl
    obtain ⟨y, -, hy, hagent', -⟩ := h.registered b j hj
    obtain rfl := Option.some.inj (hx.symm.trans hy)
    exact hb (hagent'.symm.trans hagent)
  have hclaims : m.claims (w.reuse a (m.key config) k config p) = m.claims w := by
    funext b
    by_cases hb : b = a
    · subst hb
      have hk' : (w.reuse b (m.key config) k config p).connections b = some k := hk
      rw [hclaim]
      simp only [Manager.claims, World.registered, hk', Option.bind_some, hsame, Option.map_some]
    · cases hj : w.connections b with
      | none => simp [Manager.claims, World.registered, World.reuse, hj]
      | some j =>
        have hj' : (w.reuse a (m.key config) k config p).connections b = some j := hj
        simp only [Manager.claims, World.registered, hj, hj', Option.bind_some, hother j (hapart b j hb hj)]
  refine ⟨⟨?_, ?_, ?_⟩, ?_⟩
  · rw [hclaims]
    simpa only [World.reuse, hholders] using h.holds
  · intro b j hj
    by_cases hb : b = a
    · subst hb
      obtain rfl := Option.some.inj (hk.symm.trans hj)
      refine ⟨_, ⟨b, some config, p⟩, hsame, hagent, ?_, ?_, rfl, hp⟩
      · simp only [World.reuse, lastCall_append, if_pos]
      · simp [World.reuse]
    · obtain ⟨y, c, hy, hagent', hlast, hc, hrest⟩ := h.registered b j hj
      refine ⟨y, c, (hother j (hapart b j hb hj)).trans hy, hagent', ?_, Pool.getElem?_append_of hc, hrest⟩
      simp only [World.reuse, lastCall_append]
      rw [if_neg (Ne.symm hb), hlast]
  · intro j y hy hdelivers
    by_cases hj : j = k
    · subst hj
      obtain rfl := Option.some.inj (hsame.symm.trans hy)
      exact h.live j x hx hdelivers
    · exact h.live j y ((hother j hj).symm.trans hy) hdelivers
  · intro b i c hlast hc hconfig hstatus
    by_cases hb : b = a
    · subst hb
      simp [World.reuse, hk]
    · simp only [World.reuse, lastCall_append] at hlast
      rw [if_neg (Ne.symm hb)] at hlast
      obtain hc | ⟨rfl, -⟩ := Pool.getElem?_append_cases hc
      · exact h.last b i c hlast hc hconfig hstatus
      · exact absurd (lastCall_lt_length hlast) (Nat.lt_irrefl _)

theorem made_of_setState {s : E} (hx : w.made[k]? = some x) :
    (w.setState k s).made[k]? = some { x with state := s } := by
  simp [World.setState, hx]

theorem Inv.drop (h : Inv m w) {s : E} (hk : w.connections a = some k)
    (hx : w.made[k]? = some x) (hs : m.delivers s = false) :
    Without m ((w.setState k s).unregister a (m.key x.config)) a :=
  (h.setState (s := s) (fun hdelivers => absurd hdelivers (by simp [hs]))).unregister
    (x := { x with state := s }) hk (made_of_setState hx) hs

variable (m) in
/-- The connection of a waiting `start` is the one whose config that call has. -/
structure Own (w : World C E P) : Prop where
  made : ∀ (k : Nat) x, w.made[k]? = some x → x.call < w.calls.length
  own : ∀ (i : Nat) c k, w.calls[i]? = some c → m.connectionOf c.phase = some k →
    ∀ (j : Nat) x, w.made[j]? = some x → x.call = i → j = k

theorem Own.setState (h : Own m w) (k : Nat) (s : E) : Own m (w.setState k s) := by
  refine ⟨?_, ?_⟩
  · intro j x hx
    obtain ⟨y, hy, -, -, hcall, -⟩ := made_setState hx
    rw [hcall]
    exact h.made j y hy
  · intro i c k' hc hconnection j x hx hcall
    obtain ⟨y, hy, -, -, hcall', -⟩ := made_setState hx
    exact h.own i c k' hc hconnection j y hy (hcall'.symm.trans hcall)

theorem Own.unregister (h : Own m w) (a key : String) : Own m (w.unregister a key) :=
  ⟨h.made, h.own⟩

theorem Own.setPhase (h : Own m w) (hp : ∀ c, w.calls[i]? = some c → ∀ k, m.connectionOf p = some k →
    m.connectionOf c.phase = some k) : Own m (w.setPhase i p) := by
  refine ⟨?_, ?_⟩
  · intro j x hx
    have hlt := h.made j x hx
    simpa [World.setPhase] using hlt
  · intro i' c k' hc hconnection
    obtain ⟨d, hd, -, -, hphase⟩ := calls_setPhase hc
    apply h.own i' d k' hd
    rw [hphase] at hconnection
    split at hconnection
    · rename_i heq
      subst heq
      exact hp d hd k' hconnection
    · exact hconnection

theorem Own.push (h : Own m w) (a : String) (config : Option C) (hp : m.connectionOf p = none) :
    Own m (w.push a config p) := by
  refine ⟨?_, ?_⟩
  · intro j x hx
    have hlt := h.made j x hx
    simp only [World.push, List.length_append, List.length_singleton]
    omega
  · intro i c k hc hconnection j x hx hcall
    obtain hc | ⟨-, rfl⟩ := Pool.getElem?_append_cases hc
    · exact h.own i c k hc hconnection j x hx hcall
    · rw [hp] at hconnection
      cases hconnection

theorem Own.register (h : Own m w) (a key : String) (config : C) (s : E)
    (hp : ∀ k, m.connectionOf p = some k → k = w.made.length) : Own m (w.register a key config s p) := by
  refine ⟨?_, ?_⟩
  · intro j x hx
    simp only [World.register, List.length_append, List.length_singleton]
    obtain hx | ⟨-, rfl⟩ := Pool.getElem?_append_cases hx
    · have hlt := h.made j x hx
      omega
    · exact Nat.lt_succ_self _
  · intro i c k hc hconnection j x hx hcall
    obtain hc | ⟨rfl, rfl⟩ := Pool.getElem?_append_cases hc
    · obtain hx | ⟨-, rfl⟩ := Pool.getElem?_append_cases hx
      · exact h.own i c k hc hconnection j x hx hcall
      · subst hcall
        exact absurd (List.getElem?_eq_some_iff.mp hc).1 (Nat.lt_irrefl _)
    · obtain hx | ⟨rfl, -⟩ := Pool.getElem?_append_cases hx
      · have hlt := h.made j x hx
        omega
      · exact (hp k hconnection).symm

theorem Own.reuse (h : Own m w) (a key : String) (k : Nat) (config : C) (hp : m.connectionOf p = none) :
    Own m (w.reuse a key k config p) := by
  have hcases : ∀ (j : Nat) x, (w.reuse a key k config p).made[j]? = some x →
      x.call = w.calls.length ∨ w.made[j]? = some x := by
    intro j x hx
    by_cases hj : k = j
    · subst hj
      obtain ⟨y, -, rfl⟩ := Option.map_eq_some_iff.mp ((List.getElem?_modify_eq _ _ _).symm.trans hx)
      exact .inl rfl
    · exact .inr ((List.getElem?_modify_ne _ _ hj).symm.trans hx)
  refine ⟨?_, ?_⟩
  · intro j x hx
    simp only [World.reuse, List.length_append, List.length_singleton]
    obtain hcall | hx := hcases j x hx
    · omega
    · have hlt := h.made j x hx
      omega
  · intro i c k' hc hconnection j x hx hcall
    obtain hc | ⟨-, rfl⟩ := Pool.getElem?_append_cases hc
    · obtain hnew | hx := hcases j x hx
      · have hlt := (List.getElem?_eq_some_iff.mp hc).1
        omega
      · exact h.own i c k' hc hconnection j x hx hcall
    · rw [hp] at hconnection
      cases hconnection

theorem Inv.fail (h : Inv m w) (hown : Own m w) {c : Call C P} {config : C} {s : E}
    (hc : w.calls[i]? = some c) (hconfig : c.config = some config) (hk : m.connectionOf c.phase = some k)
    (hcall : ∀ x, w.registered c.agentId = some x → x.call = i) (hs : m.delivers s = false)
    (hp : m.status p = .failed) :
    Inv m (((w.setState k s).unregister c.agentId (m.key config)).setPhase i p) := by
  cases hj : w.connections c.agentId with
  | none =>
    have hset := h.setState (k := k) (s := s) (fun hdelivers => absurd hdelivers (by simp [hs]))
    rw [hset.unregister_none hj]
    apply (hset.without hj).failed hp hc rfl
    intro j d hlast hd _ hstart
    by_contra hstatus
    exact h.last _ j d hlast hd hstart hstatus hj
  | some j =>
    obtain ⟨x, d, hx, -, hlast, hd, hdconfig, -⟩ := h.registered _ j hj
    have hxi := hcall x (by simp [World.registered, hj, hx])
    obtain rfl := hown.own i c k hc hk j x hx hxi
    rw [hxi] at hd hlast
    obtain rfl := Option.some.inj (hc.symm.trans hd)
    obtain rfl := Option.some.inj (hconfig.symm.trans hdconfig)
    apply (h.drop hj hx hs).failed hp hc rfl
    intro j' d' hlast' hd' hne
    have hlast' : lastCall w.calls c.agentId = some j' := hlast'
    exact absurd (Option.some.inj (hlast'.symm.trans hlast)) hne

variable (m) in
theorem inv_initial : Inv m ({} : World C E P) := by
  refine ⟨⟨?_, ?_, ?_⟩, ?_⟩
  · intro a b
    simp [Manager.claims, World.registered]
  · exact fun a k hk => (nomatch hk)
  · intro k x hx
    simp at hx
  · exact fun a i c hlast => (nomatch hlast)

variable (m) in
theorem own_initial : Own m ({} : World C E P) := by
  refine ⟨?_, ?_⟩ <;> simp

end RegisteredFirst

end A2Wave.ChatConnections
