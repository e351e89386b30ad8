import A2Wave.Lib.Claims
import A2Wave.Lib.Transition
import Mathlib.Data.List.Basic

/-! The connections of the QQ manager (`lib/qq-official-service.ts`): any number of `start` and
`stop` calls, cut at every await.  The sockets are outside: they answer for a remote call, and for
whether a connection is open. -/

namespace A2Wave.QQConnections

open Transition

inductive ReplyMode
  | reply
  | new
  | none
  deriving DecidableEq

structure QQOfficialConfig where
  appId : String
  appSecret : String
  groupTriggerOnAt : Bool := true
  groupReplyMode : ReplyMode := .reply
  c2cReplyMode : ReplyMode := .reply
  sendArtifactsAsFile : Bool := true
  deriving DecidableEq

structure QQConnection where
  agentId : String
  generation : Nat
  config : QQOfficialConfig
  stopping : Bool := false
  deriving DecidableEq

structure QQPendingStart where
  generation : Nat
  appId : String
  deriving DecidableEq

inductive Phase
  | validateBot
  | getGateway
  | waitForReady (connection : Nat)
  | settled
  deriving DecidableEq

structure Start where
  agentId : String
  config : QQOfficialConfig
  generation : Nat
  phase : Phase
  deriving DecidableEq

structure World where
  made : List QQConnection := []
  connections : String → Option Nat := fun _ => none
  applicationHolders : String → Option String := fun _ => none
  pendingStarts : String → Option QQPendingStart := fun _ => none
  generations : String → Nat := fun _ => 0
  starts : List Start := []

namespace World

def nextGeneration (w : World) (agentId : String) : World :=
  { w with generations := Function.update w.generations agentId (w.generations agentId + 1) }

def appOf (w : World) (connection : Nat) : Option String := w.made[connection]?.map (·.config.appId)

/-- `applicationHolders.delete`, where the Agent is the holder. -/
def releaseApp (w : World) (appId agentId : String) : World :=
  { w with applicationHolders := release w.applicationHolders appId agentId }

def clearPending (w : World) (agentId : String) : World :=
  { w with pendingStarts := Function.update w.pendingStarts agentId none }

def closeConnection (w : World) (agentId : String) (connection : Nat) : World :=
  { w with
    made := w.made.modify connection fun c => { c with stopping := true }
    connections := if w.connections agentId = some connection
      then Function.update w.connections agentId none else w.connections }

def begin (w : World) (agentId : String) (config : QQOfficialConfig) : World :=
  let previous := w.connections agentId
  let previousApp := previous.bind w.appOf
  let w := w.nextGeneration agentId
  let generation := w.generations agentId
  let w := match w.pendingStarts agentId with
    | some pending => if some pending.appId ≠ previousApp then w.releaseApp pending.appId agentId else w
    | none => w
  let pending : QQPendingStart := ⟨generation, config.appId⟩
  let w := { w with pendingStarts := Function.update w.pendingStarts agentId (some pending) }
  let w := match previous, previousApp with
    | some connection, some appId =>
      let w := w.closeConnection agentId connection
      if appId ≠ config.appId then w.releaseApp appId agentId else w
    | _, _ => w
  { w with
    applicationHolders := Function.update w.applicationHolders config.appId (some agentId)
    starts := w.starts ++ [⟨agentId, config, generation, .validateBot⟩] }

/-- `start` up to its first await.  A call that throws here, or that finds the connection open with
this config, changes nothing. -/
def start (w : World) (agentId : String) (rawConfig : Option QQOfficialConfig) (isSocketOpen : Bool) : World :=
  match rawConfig with
  | none => w
  | some config =>
    let previous := (w.connections agentId).bind fun i => w.made[i]?
    if (w.applicationHolders config.appId).any (· ≠ agentId) then w
    else if previous.any (·.config = config) && isSocketOpen then w
    else w.begin agentId config

def stop (w : World) (agentId : String) : World :=
  let w := w.nextGeneration agentId
  let w := match w.pendingStarts agentId with
    | some pending =>
      let w := w.clearPending agentId
      w.releaseApp pending.appId agentId
    | none => w
  match w.connections agentId with
  | none => w
  | some connection =>
    let appId := w.appOf connection
    let w := w.closeConnection agentId connection
    match appId with
    | some appId => w.releaseApp appId agentId
    | none => w

def setPhase (w : World) (i : Nat) (phase : Phase) : World :=
  { w with starts := w.starts.modify i fun s => { s with phase := phase } }

def isCurrent (w : World) (s : Start) : Bool :=
  (w.pendingStarts s.agentId).any fun pending => pending.generation = s.generation

/-- The catch block of `start`. -/
def abandon (w : World) (i : Nat) (s : Start) (connection : Option Nat) : World :=
  let w := match connection with
    | some connection => w.closeConnection s.agentId connection
    | none => w
  let w := if w.isCurrent s then w.clearPending s.agentId else w
  let current := (w.connections s.agentId).bind w.appOf
  let pending := (w.pendingStarts s.agentId).map QQPendingStart.appId
  let w := if current ≠ some s.config.appId ∧ pending ≠ some s.config.appId
    then w.releaseApp s.config.appId s.agentId else w
  w.setPhase i .settled

def register (w : World) (i : Nat) (s : Start) : World :=
  let connection := w.made.length
  { w with
    made := w.made ++ [{ agentId := s.agentId, generation := s.generation, config := s.config }]
    connections := Function.update w.connections s.agentId (some connection)
    pendingStarts := Function.update w.pendingStarts s.agentId none
    starts := w.starts.modify i fun s => { s with phase := .waitForReady connection } }

end World

inductive Outcome
  | resolves
  | rejects
  | throws
  deriving DecidableEq

inductive Event
  | start (agentId : String) (rawConfig : Option QQOfficialConfig) (isSocketOpen : Bool)
  | stop (agentId : String)
  | act (i : Nat) (outcome : Outcome)

def World.act (w : World) (i : Nat) (s : Start) (outcome : Outcome) : Option World :=
  match s.phase with
  | .validateBot =>
    if outcome = .resolves && w.isCurrent s then some (w.setPhase i .getGateway)
    else some (w.abandon i s none)
  | .getGateway =>
    if outcome ≠ .rejects && w.isCurrent s then
      let connection := w.made.length
      let w := w.register i s
      if outcome = .throws then some (w.abandon i s (some connection)) else some w
    else some (w.abandon i s none)
  | .waitForReady connection =>
    if outcome = .resolves then some (w.setPhase i .settled) else some (w.abandon i s (some connection))
  | .settled => none

def step (w : World) : Event → Option World
  | .start agentId rawConfig isSocketOpen => some (w.start agentId rawConfig isSocketOpen)
  | .stop agentId => some (w.stop agentId)
  | .act i outcome => w.starts[i]?.bind fun s => w.act i s outcome

def World.claims (w : World) (agentId : String) : Option String :=
  match w.connections agentId with
  | some connection => w.appOf connection
  | none => (w.pendingStarts agentId).map QQPendingStart.appId

structure Inv (w : World) : Prop where
  holds : Holds w.claims w.applicationHolders
  apart : ∀ a p, w.pendingStarts a = some p → w.connections a = none
  registered : ∀ a i, w.connections a = some i → ∃ c, w.made[i]? = some c ∧ c.agentId = a ∧
    c.generation = w.generations a ∧ c.stopping = false
  latest : ∀ a p, w.pendingStarts a = some p → p.generation = w.generations a
  past : ∀ s ∈ w.starts, s.generation ≤ w.generations s.agentId
  pending : ∀ s ∈ w.starts, ∀ p, w.pendingStarts s.agentId = some p → p.generation = s.generation →
    p.appId = s.config.appId
  own : ∀ s ∈ w.starts, ∀ i, s.phase = .waitForReady i → ∃ c, w.made[i]? = some c ∧
    c.agentId = s.agentId ∧ c.generation = s.generation ∧ c.config = s.config

section Claims

variable {w w' : World} {a agentId : String} {i k : Nat}

theorem claims_congr (hconnections : w'.connections = w.connections) (happ : ∀ i, w'.appOf i = w.appOf i)
    (hpending : w'.pendingStarts = w.pendingStarts) : w'.claims = w.claims := by
  funext a
  simp only [World.claims, hconnections, hpending, happ]

theorem claims_drop (hconnections : w'.connections = Function.update w.connections agentId none)
    (happ : ∀ i, w'.appOf i = w.appOf i)
    (hpending : w'.pendingStarts = Function.update w.pendingStarts agentId none) :
    w'.claims = Function.update w.claims agentId none := by
  funext a
  by_cases ha : a = agentId
  · subst ha
    simp [World.claims, hconnections, hpending]
  · simp only [World.claims, hconnections, hpending, Function.update_of_ne ha, happ]

theorem made_closeConnection (agentId : String) (hi : i ≠ k) : (w.closeConnection agentId k).made[i]? = w.made[i]? := by
  simp [World.closeConnection, hi.symm]

theorem made_closeConnection_same (agentId : String) {c : QQConnection} (hc : w.made[i]? = some c) :
    ∃ c', (w.closeConnection agentId k).made[i]? = some c' ∧ c'.agentId = c.agentId ∧
      c'.generation = c.generation ∧ c'.config = c.config := by
  by_cases hi : k = i
  · subst hi
    exact ⟨{ c with stopping := true }, by simp [World.closeConnection, hc], rfl, rfl, rfl⟩
  · exact ⟨c, by rw [made_closeConnection agentId (Ne.symm hi), hc], rfl, rfl, rfl⟩

theorem appOf_closeConnection (agentId : String) : (w.closeConnection agentId k).appOf i = w.appOf i := by
  by_cases hi : k = i
  · subst hi
    simp only [World.appOf, World.closeConnection, List.getElem?_modify_eq]
    cases w.made[k]? <;> rfl
  · rw [World.appOf, made_closeConnection agentId (Ne.symm hi), World.appOf]

theorem Inv.settle (h : Inv w) (hholds : Holds w'.claims w'.applicationHolders)
    (hgenerations : ∀ a, w'.generations a = w.generations a ∨
      w'.connections a = none ∧ w'.pendingStarts a = none ∧ w.generations a ≤ w'.generations a)
    (hconnections : ∀ a (i : Nat), w'.connections a = some i → w.connections a = some i ∧ w'.made[i]? = w.made[i]?)
    (hpending : ∀ a p, w'.pendingStarts a = some p → w.pendingStarts a = some p)
    (hmade : ∀ (i : Nat) (c : QQConnection), w.made[i]? = some c → ∃ c', w'.made[i]? = some c' ∧ c'.agentId = c.agentId ∧
      c'.generation = c.generation ∧ c'.config = c.config)
    (hstarts : ∀ s' ∈ w'.starts, ∃ s ∈ w.starts, s'.agentId = s.agentId ∧ s'.config = s.config ∧
      s'.generation = s.generation ∧ (s'.phase = s.phase ∨ ∀ i, s'.phase ≠ .waitForReady i)) : Inv w' := by
  refine ⟨hholds, ?_, ?_, ?_, ?_, ?_, ?_⟩
  · intro a p hp
    cases hi : w'.connections a with
    | none => rfl
    | some i =>
      have hnone := h.apart a p (hpending a p hp)
      rw [(hconnections a i hi).1] at hnone
      cases hnone
  · intro a i hi
    obtain ⟨hold, hsame⟩ := hconnections a i hi
    obtain ⟨c, hc, hagent, hgeneration, hopen⟩ := h.registered a i hold
    obtain heq | ⟨hnone, -⟩ := hgenerations a
    · exact ⟨c, by rw [hsame, hc], hagent, by rw [heq, hgeneration], hopen⟩
    · rw [hnone] at hi
      cases hi
  · intro a p hp
    obtain heq | ⟨-, hnone, -⟩ := hgenerations a
    · rw [heq]
      exact h.latest a p (hpending a p hp)
    · rw [hnone] at hp
      cases hp
  · intro s' hs'
    obtain ⟨s, hs, hagent, -, hgeneration, -⟩ := hstarts s' hs'
    rw [hagent, hgeneration]
    have hpast := h.past s hs
    obtain heq | ⟨-, -, hle⟩ := hgenerations s.agentId <;> omega
  · intro s' hs' p hp hsame
    obtain ⟨s, hs, hagent, hconfig, hgeneration, -⟩ := hstarts s' hs'
    rw [hagent] at hp
    rw [hgeneration] at hsame
    rw [hconfig]
    exact h.pending s hs p (hpending _ p hp) hsame
  · intro s' hs' i hphase
    obtain ⟨s, hs, hagent, hconfig, hgeneration, hkept | hgone⟩ := hstarts s' hs'
    · rw [hkept] at hphase
      obtain ⟨c, hc, hcagent, hcgeneration, hcconfig⟩ := h.own s hs i hphase
      obtain ⟨c', hc', hagent', hgeneration', hconfig'⟩ := hmade i c hc
      exact ⟨c', hc', by rw [hagent', hcagent, hagent], by rw [hgeneration', hcgeneration, hgeneration],
        by rw [hconfig', hcconfig, hconfig]⟩
    · exact absurd hphase (hgone i)

theorem Inv.appOf_registered (h : Inv w) (hi : w.connections agentId = some i) :
    ∃ c, w.made[i]? = some c ∧ w.appOf i = some c.config.appId := by
  obtain ⟨c, hc, -⟩ := h.registered agentId i hi
  exact ⟨c, hc, by simp [World.appOf, hc]⟩

structure Stopped (w w' : World) (agentId : String) : Prop where
  generations : w'.generations = Function.update w.generations agentId (w.generations agentId + 1)
  connections : w'.connections = Function.update w.connections agentId none
  pending : w'.pendingStarts = Function.update w.pendingStarts agentId none
  holds : Holds (Function.update w.claims agentId none) w'.applicationHolders
  appOf : ∀ i, w'.appOf i = w.appOf i
  starts : w'.starts = w.starts
  kept : ∀ i : Nat, w.connections agentId ≠ some i → w'.made[i]? = w.made[i]?
  made : ∀ (i : Nat) (c : QQConnection), w.made[i]? = some c → ∃ c', w'.made[i]? = some c' ∧
    c'.agentId = c.agentId ∧ c'.generation = c.generation ∧ c'.config = c.config

theorem update_none {β : Type} {f : String → Option β} (h : f a = none) : Function.update f a none = f := by
  rw [← h, Function.update_eq_self]

theorem stop_registered {appId : String} (hp : w.pendingStarts agentId = none)
    (hi : w.connections agentId = some i) (happ : w.appOf i = some appId) :
    w.stop agentId = ((w.nextGeneration agentId).closeConnection agentId i).releaseApp appId agentId := by
  have happ' : (w.nextGeneration agentId).appOf i = some appId := happ
  simp only [World.stop, World.nextGeneration, hp, hi] at happ' ⊢
  rw [happ']

theorem Inv.stopped (h : Inv w) (agentId : String) : Stopped w (w.stop agentId) agentId := by
  have hholds := h.holds
  cases hp : w.pendingStarts agentId with
  | some p =>
    have hnone := h.apart agentId p hp
    have hclaim : w.claims agentId = some p.appId := by simp [World.claims, hnone, hp]
    have hstop : w.stop agentId = { w with
        generations := Function.update w.generations agentId (w.generations agentId + 1)
        pendingStarts := Function.update w.pendingStarts agentId none
        applicationHolders := release w.applicationHolders p.appId agentId } := by
      simp only [World.stop, World.nextGeneration, World.clearPending, World.releaseApp, hp, hnone]
    rw [hstop]
    exact ⟨rfl, (update_none hnone).symm, rfl, hholds.release hclaim, fun _ => rfl, rfl, fun _ _ => rfl,
      fun i c hc => ⟨c, hc, rfl, rfl, rfl⟩⟩
  | none =>
    cases hi : w.connections agentId with
    | none =>
      have hclaim : w.claims agentId = none := by simp [World.claims, hi, hp]
      have hstop : w.stop agentId = w.nextGeneration agentId := by
        simp only [World.stop, World.nextGeneration, hp, hi]
      rw [hstop]
      exact ⟨rfl, (update_none hi).symm, (update_none hp).symm, by rw [update_none hclaim]; exact hholds,
        fun _ => rfl, rfl, fun _ _ => rfl, fun i c hc => ⟨c, hc, rfl, rfl, rfl⟩⟩
    | some i =>
      obtain ⟨c, hc, happ⟩ := h.appOf_registered hi
      have hclaim : w.claims agentId = some c.config.appId := by simp [World.claims, hi, happ]
      rw [stop_registered hp hi happ]
      refine ⟨rfl, ?_, (update_none hp).symm, hholds.release hclaim, fun k =>
        appOf_closeConnection agentId, rfl, fun k hk => made_closeConnection agentId (fun heq => hk (heq ▸ hi)),
        fun k c hc => made_closeConnection_same agentId hc⟩
      simp [World.releaseApp, World.closeConnection, World.nextGeneration, hi]

theorem Stopped.inv (h : Inv w) (hstopped : Stopped w w' agentId) : Inv w' := by
  have hclaims : w'.claims = Function.update w.claims agentId none :=
    claims_drop hstopped.connections hstopped.appOf hstopped.pending
  apply h.settle
  · rw [hclaims]
    exact hstopped.holds
  · intro a
    rw [hstopped.generations, hstopped.connections, hstopped.pending]
    by_cases ha : a = agentId
    · subst ha
      simp
    · simp [Function.update_of_ne ha]
  · intro a i hi
    rw [hstopped.connections] at hi
    by_cases ha : a = agentId
    · subst ha
      simp at hi
    · rw [Function.update_of_ne ha] at hi
      refine ⟨hi, hstopped.kept i ?_⟩
      intro hsame
      obtain ⟨c, hc, hagent, -⟩ := h.registered a i hi
      obtain ⟨c', hc', hagent', -⟩ := h.registered agentId i hsame
      rw [hc] at hc'
      cases hc'
      exact ha (hagent.symm.trans hagent')
  · intro a p hp
    rw [hstopped.pending] at hp
    by_cases ha : a = agentId
    · subst ha
      simp at hp
    · rwa [Function.update_of_ne ha] at hp
  · exact hstopped.made
  · intro s hs
    rw [hstopped.starts] at hs
    exact ⟨s, hs, rfl, rfl, rfl, .inl rfl⟩

/-- What `begin` adds to what `stop` leaves behind. -/
def World.reserve (w : World) (agentId : String) (config : QQOfficialConfig) : World :=
  let pending : QQPendingStart := ⟨w.generations agentId, config.appId⟩
  { w with
    pendingStarts := Function.update w.pendingStarts agentId (some pending)
    applicationHolders := Function.update w.applicationHolders config.appId (some agentId)
    starts := w.starts ++ [⟨agentId, config, w.generations agentId, .validateBot⟩] }

theorem update_release (holders : String → Option String) (b a : String) :
    Function.update (release holders b a) b (some a) = Function.update holders b (some a) := by
  rw [release]
  split
  · rw [Function.update_idem]
  · rfl

theorem Inv.begin_eq (h : Inv w) (agentId : String) (config : QQOfficialConfig) :
    w.begin agentId config = (w.stop agentId).reserve agentId config := by
  cases hp : w.pendingStarts agentId with
  | some p =>
    have hnone := h.apart agentId p hp
    simp [World.begin, World.stop, World.reserve, World.nextGeneration, World.clearPending,
      World.releaseApp, hp, hnone]
  | none =>
    cases hi : w.connections agentId with
    | none =>
      simp [World.begin, World.stop, World.reserve, World.nextGeneration, hp, hi]
    | some i =>
      obtain ⟨c, hc, happ⟩ := h.appOf_registered hi
      rw [stop_registered hp hi happ]
      by_cases hsame : c.config.appId = config.appId
      · simp only [World.begin, World.reserve, World.nextGeneration, World.closeConnection,
          World.releaseApp, hp, hi, happ, Option.bind_some, hsame, ne_eq, not_true_eq_false, ↓reduceIte,
          update_release]
      · simp only [World.begin, World.reserve, World.nextGeneration, World.closeConnection,
          World.releaseApp, hp, hi, happ, Option.bind_some, hsame, ne_eq, not_false_eq_true, ↓reduceIte]

theorem mem_modify {α : Type} {l : List α} {f : α → α} {x : α} (h : x ∈ l.modify i f) :
    x ∈ l ∨ ∃ y, l[i]? = some y ∧ x = f y := by
  obtain ⟨k, hk⟩ := List.mem_iff_getElem?.mp h
  by_cases hik : i = k
  · subst hik
    rw [List.getElem?_modify_eq] at hk
    obtain ⟨y, hy, rfl⟩ := Option.map_eq_some_iff.mp hk
    exact .inr ⟨y, hy, rfl⟩
  · rw [List.getElem?_modify_ne f l hik] at hk
    exact .inl (List.mem_of_getElem? hk)

theorem Inv.reserve (h : Inv w) (config : QQOfficialConfig) (hnone : w.connections agentId = none)
    (hidle : w.pendingStarts agentId = none)
    (hpast : ∀ s ∈ w.starts, s.agentId = agentId → s.generation < w.generations agentId)
    (hfree : ∀ a, w.applicationHolders config.appId = some a → a = agentId) : Inv (w.reserve agentId config) := by
  have hclaim : w.claims agentId = none := by simp [World.claims, hnone, hidle]
  have hclaims : (w.reserve agentId config).claims = Function.update w.claims agentId (some config.appId) := by
    funext a
    by_cases ha : a = agentId
    · subst ha
      simp [World.claims, World.reserve, hnone]
    · simp only [World.claims, World.reserve, Function.update_of_ne ha]
      rfl
  refine ⟨?_, ?_, h.registered, ?_, ?_, ?_, ?_⟩
  · rw [hclaims]
    exact h.holds.reserve hclaim hfree
  · intro a p hp
    by_cases ha : a = agentId
    · subst ha
      exact hnone
    · simp only [World.reserve, Function.update_of_ne ha] at hp
      exact h.apart a p hp
  · intro a p hp
    by_cases ha : a = agentId
    · subst ha
      simp only [World.reserve, Function.update_self] at hp
      cases hp
      rfl
    · simp only [World.reserve, Function.update_of_ne ha] at hp
      exact h.latest a p hp
  · intro s hs
    obtain hs | hs := List.mem_append.mp hs
    · exact h.past s hs
    · rw [List.mem_singleton.mp hs]
      exact Nat.le_refl _
  · intro s hs p hp hsame
    obtain hs | hs := List.mem_append.mp hs
    · by_cases ha : s.agentId = agentId
      · have hlt := hpast s hs ha
        simp only [World.reserve, ha, Function.update_self] at hp
        cases hp
        exact absurd hsame (Nat.ne_of_gt hlt)
      · simp only [World.reserve, Function.update_of_ne ha] at hp
        exact h.pending s hs p hp hsame
    · obtain rfl := List.mem_singleton.mp hs
      simp only [World.reserve, Function.update_self] at hp
      cases hp
      rfl
  · intro s hs k hphase
    obtain hs | hs := List.mem_append.mp hs
    · exact h.own s hs k hphase
    · rw [List.mem_singleton.mp hs] at hphase
      cases hphase

theorem Inv.begin (h : Inv w) (agentId : String) (config : QQOfficialConfig)
    (hfree : ∀ a, w.applicationHolders config.appId = some a → a = agentId) : Inv (w.begin agentId config) := by
  rw [h.begin_eq]
  have hstopped := h.stopped agentId
  apply (hstopped.inv h).reserve
  · rw [hstopped.connections, Function.update_self]
  · rw [hstopped.pending, Function.update_self]
  · intro s hs hagent
    rw [hstopped.starts] at hs
    have hle := h.past s hs
    rw [hstopped.generations, Function.update_self]
    rw [hagent] at hle
    omega
  · intro a hold
    by_cases ha : a = agentId
    · exact ha
    · have hclaim := (hstopped.holds a config.appId).mp hold
      rw [Function.update_of_ne ha] at hclaim
      exact hfree a ((h.holds a config.appId).mpr hclaim)

theorem Inv.start (h : Inv w) (agentId : String) (rawConfig : Option QQOfficialConfig) (isSocketOpen : Bool) :
    Inv (w.start agentId rawConfig isSocketOpen) := by
  cases rawConfig with
  | none => exact h
  | some config =>
    simp only [World.start]
    split
    · exact h
    · rename_i hfree
      split
      · exact h
      · apply h.begin agentId config
        intro a hold
        simpa [hold] using hfree

theorem Inv.setPhase (h : Inv w) {phase : Phase} (hphase : ∀ k, phase ≠ .waitForReady k) :
    Inv (w.setPhase i phase) := by
  apply h.settle
  · have hclaims : (w.setPhase i phase).claims = w.claims := claims_congr rfl (fun _ => rfl) rfl
    rw [hclaims]
    exact h.holds
  · exact fun _ => .inl rfl
  · exact fun a k hk => ⟨hk, rfl⟩
  · exact fun a p hp => hp
  · exact fun k c hc => ⟨c, hc, rfl, rfl, rfl⟩
  · intro s' hs'
    obtain hs | ⟨s, hs, rfl⟩ := mem_modify hs'
    · exact ⟨s', hs, rfl, rfl, rfl, .inl rfl⟩
    · exact ⟨s, List.mem_of_getElem? hs, rfl, rfl, rfl, .inr hphase⟩

variable {s : Start}

theorem isCurrent_iff :
    w.isCurrent s = true ↔ ∃ p, w.pendingStarts s.agentId = some p ∧ p.generation = s.generation := by
  simp [World.isCurrent, Option.any_eq_true]

theorem Inv.register (h : Inv w) (hs : w.starts[i]? = some s) (hcurrent : w.isCurrent s = true) :
    Inv (w.register i s) := by
  obtain ⟨p, hp, hgeneration⟩ := isCurrent_iff.mp hcurrent
  have hmem : s ∈ w.starts := List.mem_of_getElem? hs
  have happ : p.appId = s.config.appId := h.pending s hmem p hp hgeneration
  have hnone := h.apart s.agentId p hp
  have hlatest : s.generation = w.generations s.agentId := hgeneration.symm.trans (h.latest s.agentId p hp)
  have hnew : (w.register i s).made[w.made.length]? =
      some { agentId := s.agentId, generation := s.generation, config := s.config } := by
    simp [World.register]
  have hold : ∀ (k : Nat) (c : QQConnection), w.made[k]? = some c → (w.register i s).made[k]? = some c := by
    intro k c hc
    exact (List.getElem?_append_left (List.getElem?_eq_some_iff.mp hc).1).trans hc
  have hclaims : (w.register i s).claims = w.claims := by
    funext a
    by_cases ha : a = s.agentId
    · subst ha
      simp [World.claims, World.register, World.appOf, hnone, hp, happ]
    · simp only [World.claims, World.register, Function.update_of_ne ha]
      cases hk : w.connections a with
      | none => rfl
      | some k =>
        obtain ⟨c, hc, -⟩ := h.registered a k hk
        have hc' := hold k c hc
        simp only [World.register] at hc'
        simp only [World.appOf, hc, hc']
  refine ⟨?_, ?_, ?_, ?_, ?_, ?_, ?_⟩
  · rw [hclaims]
    exact h.holds
  · intro a q hq
    by_cases ha : a = s.agentId
    · subst ha
      simp [World.register] at hq
    · simp only [World.register, Function.update_of_ne ha] at hq ⊢
      exact h.apart a q hq
  · intro a k hk
    by_cases ha : a = s.agentId
    · subst ha
      simp only [World.register, Function.update_self] at hk
      cases hk
      exact ⟨_, hnew, rfl, hlatest, rfl⟩
    · simp only [World.register, Function.update_of_ne ha] at hk
      obtain ⟨c, hc, hrest⟩ := h.registered a k hk
      exact ⟨c, hold k c hc, hrest⟩
  · intro a q hq
    by_cases ha : a = s.agentId
    · subst ha
      simp [World.register] at hq
    · simp only [World.register, Function.update_of_ne ha] at hq
      exact h.latest a q hq
  · intro s' hs'
    obtain hs' | ⟨t, ht, rfl⟩ := mem_modify hs'
    · exact h.past s' hs'
    · exact h.past t (List.mem_of_getElem? ht)
  · intro s' hs' q hq hsame
    by_cases ha : s'.agentId = s.agentId
    · simp [World.register, ha] at hq
    · simp only [World.register, Function.update_of_ne ha] at hq
      obtain hs' | ⟨t, ht, rfl⟩ := mem_modify hs'
      · exact h.pending s' hs' q hq hsame
      · exact h.pending t (List.mem_of_getElem? ht) q hq hsame
  · intro s' hs' k hphase
    obtain hs' | ⟨t, ht, rfl⟩ := mem_modify hs'
    · obtain ⟨c, hc, hrest⟩ := h.own s' hs' k hphase
      exact ⟨c, hold k c hc, hrest⟩
    · rw [hs] at ht
      cases ht
      cases hphase
      exact ⟨_, hnew, rfl, rfl, rfl⟩

theorem claims_of_apart (h : w.pendingStarts a = none ∨ w.connections a = none) {appId : String} :
    w.claims a = some appId ↔ (w.connections a).bind w.appOf = some appId ∨
      (w.pendingStarts a).map QQPendingStart.appId = some appId := by
  cases hi : w.connections a with
  | none => simp [World.claims, hi]
  | some k =>
    have hp : w.pendingStarts a = none := h.resolve_right (by simp [hi])
    simp [World.claims, hi, hp]

theorem abandon_of_not_current (hcurrent : w.isCurrent s = false)
    (hapart : w.pendingStarts s.agentId = none ∨ w.connections s.agentId = none) :
    w.abandon i s none = { w with
      applicationHolders := if w.claims s.agentId = some s.config.appId then w.applicationHolders
        else release w.applicationHolders s.config.appId s.agentId
      starts := w.starts.modify i fun s => { s with phase := .settled } } := by
  simp only [World.abandon, hcurrent, Bool.false_eq_true, ↓reduceIte]
  by_cases hclaim : w.claims s.agentId = some s.config.appId
  · have hcase := (claims_of_apart hapart).mp hclaim
    rw [if_pos hclaim, if_neg (by tauto)]
    rfl
  · have hcase := mt (claims_of_apart hapart).mpr hclaim
    rw [if_neg hclaim, if_pos (by tauto)]
    rfl

def Abandoned (w w' : World) (made : List QQConnection) (i : Nat) (s : Start) : Prop :=
  let starts := w.starts.modify i fun s => { s with phase := .settled }
  w' = { w with made := made, starts := starts } ∨
  (w' = { w with
    made := made
    connections := Function.update w.connections s.agentId none
    pendingStarts := Function.update w.pendingStarts s.agentId none
    applicationHolders := release w.applicationHolders s.config.appId s.agentId
    starts := starts } ∧
    w.claims s.agentId = some s.config.appId ∧ s.generation = w.generations s.agentId)

theorem Inv.abandon_none (h : Inv w) (hs : s ∈ w.starts) : Abandoned w (w.abandon i s none) w.made i s := by
  cases hcurrent : w.isCurrent s with
  | false =>
    left
    have hapart : w.pendingStarts s.agentId = none ∨ w.connections s.agentId = none := by
      cases hp : w.pendingStarts s.agentId with
      | none => exact .inl rfl
      | some p => exact .inr (h.apart _ p hp)
    rw [abandon_of_not_current hcurrent hapart]
    by_cases hclaim : w.claims s.agentId = some s.config.appId
    · rw [if_pos hclaim]
    · rw [if_neg hclaim, h.holds.release_of_ne hclaim]
  | true =>
    right
    obtain ⟨p, hp, hgeneration⟩ := isCurrent_iff.mp hcurrent
    have hnone := h.apart _ p hp
    have happ : p.appId = s.config.appId := h.pending s hs p hp hgeneration
    refine ⟨?_, by simp [World.claims, hnone, hp, happ], hgeneration.symm.trans (h.latest _ p hp)⟩
    simp only [World.abandon, hcurrent, ↓reduceIte, World.clearPending, hnone, Option.bind_none,
      Function.update_self, Option.map_none, ne_eq, reduceCtorEq, not_false_eq_true, and_self,
      World.releaseApp, World.setPhase, update_none hnone]

theorem Inv.closeConnection {c : QQConnection} (h : Inv w) (hc : w.made[k]? = some c)
    (hlater : w.connections c.agentId ≠ some k) :
    w.closeConnection c.agentId k = { w with made := (w.closeConnection c.agentId k).made } ∧
      Inv (w.closeConnection c.agentId k) := by
  have hkept : w.closeConnection c.agentId k = { w with made := (w.closeConnection c.agentId k).made } := by
    simp only [World.closeConnection, if_neg hlater]
  have hconnections : (w.closeConnection c.agentId k).connections = w.connections := by rw [hkept]
  refine ⟨hkept, ?_⟩
  apply h.settle
  · rw [claims_congr hconnections (fun _ => appOf_closeConnection c.agentId) rfl]
    exact h.holds
  · exact fun _ => .inl rfl
  · intro a i hi
    rw [hconnections] at hi
    refine ⟨hi, made_closeConnection c.agentId ?_⟩
    rintro rfl
    obtain ⟨c', hc', hagent, -⟩ := h.registered a i hi
    obtain rfl := Option.some.inj (hc.symm.trans hc')
    exact hlater (hagent ▸ hi)
  · exact fun a p hp => hp
  · exact fun i c hc => made_closeConnection_same _ hc
  · exact fun s hs => ⟨s, hs, rfl, rfl, rfl, .inl rfl⟩

theorem Inv.abandon_some {c : QQConnection} (h : Inv w) (hs : s ∈ w.starts) (hc : w.made[k]? = some c)
    (hagent : c.agentId = s.agentId) (hgeneration : c.generation = s.generation) (hconfig : c.config = s.config) :
    Abandoned w (w.abandon i s (some k)) (w.closeConnection s.agentId k).made i s ∧
      (w.abandon i s (some k)).connections s.agentId ≠ some k := by
  have hthen : w.abandon i s (some k) = (w.closeConnection s.agentId k).abandon i s none := rfl
  by_cases hreg : w.connections s.agentId = some k
  · have hp : w.pendingStarts s.agentId = none := by
      cases hp : w.pendingStarts s.agentId with
      | none => rfl
      | some p => rw [h.apart _ p hp] at hreg; cases hreg
    obtain ⟨c', hc', -, hlatest, -⟩ := h.registered _ k hreg
    obtain rfl := Option.some.inj (hc.symm.trans hc')
    have hclosed : (w.closeConnection s.agentId k).connections = Function.update w.connections s.agentId none := by
      simp [World.closeConnection, hreg]
    have hnone : (w.closeConnection s.agentId k).connections s.agentId = none := by
      rw [hclosed, Function.update_self]
    have hidle : (w.closeConnection s.agentId k).pendingStarts s.agentId = none := hp
    rw [hthen, abandon_of_not_current (by simp [World.isCurrent, hidle]) (.inl hidle),
      if_neg (by simp [World.claims, hnone, hidle])]
    refine ⟨.inr ⟨?_, by simp [World.claims, hreg, World.appOf, hc, hconfig], hgeneration.symm.trans hlatest⟩, ?_⟩
    · simp only [hclosed, update_none hp]
      rfl
    · rw [hnone]
      exact nofun
  · obtain ⟨hkept, hinv⟩ := h.closeConnection hc (hagent ▸ hreg)
    rw [hagent] at hkept hinv
    rw [hthen]
    obtain heq | ⟨heq, hclaim, hlatest⟩ := hinv.abandon_none (i := i) (s := s) hs
    · rw [heq, hkept]
      exact ⟨.inl rfl, hreg⟩
    · have hclaims : (w.closeConnection s.agentId k).claims = w.claims :=
        claims_congr (by rw [hkept]) (fun _ => appOf_closeConnection s.agentId) rfl
      rw [hclaims] at hclaim
      rw [heq, hkept]
      exact ⟨.inr ⟨rfl, hclaim, hlatest⟩, by simp⟩

theorem Abandoned.inv {w' : World} {made : List QQConnection} (h : Inv w)
    (habandoned : Abandoned w w' made i s) (happ : ∀ k : Nat, made[k]?.map (·.config.appId) = w.appOf k)
    (hmade : ∀ (k : Nat) (c : QQConnection), w.made[k]? = some c → ∃ c', made[k]? = some c' ∧
      c'.agentId = c.agentId ∧ c'.generation = c.generation ∧ c'.config = c.config)
    (hkept : ∀ a (k : Nat), w'.connections a = some k → made[k]? = w.made[k]?) : Inv w' := by
  have hstarts : ∀ s' ∈ w.starts.modify i fun s => { s with phase := .settled }, ∃ s ∈ w.starts,
      s'.agentId = s.agentId ∧ s'.config = s.config ∧ s'.generation = s.generation ∧
      (s'.phase = s.phase ∨ ∀ k, s'.phase ≠ .waitForReady k) := by
    intro s' hs'
    obtain hs' | ⟨t, ht, rfl⟩ := mem_modify hs'
    · exact ⟨s', hs', rfl, rfl, rfl, .inl rfl⟩
    · exact ⟨t, List.mem_of_getElem? ht, rfl, rfl, rfl, .inr fun k hk => (nomatch hk)⟩
  obtain heq | ⟨heq, hclaim, -⟩ := habandoned
  · have hclaims : w'.claims = w.claims :=
      claims_congr (by rw [heq]) (by rw [heq]; exact happ) (by rw [heq])
    subst heq
    apply h.settle
    · rw [hclaims]
      exact h.holds
    · exact fun _ => .inl rfl
    · exact fun a k hk => ⟨hk, hkept a k hk⟩
    · exact fun a p hp => hp
    · exact hmade
    · exact hstarts
  · have hclaims : w'.claims = Function.update w.claims s.agentId none :=
      claims_drop (by rw [heq]) (by rw [heq]; exact happ) (by rw [heq])
    subst heq
    apply h.settle
    · rw [hclaims]
      exact h.holds.release hclaim
    · exact fun _ => .inl rfl
    · intro a k hk
      refine ⟨?_, hkept a k hk⟩
      by_cases ha : a = s.agentId
      · subst ha
        simp at hk
      · simpa [Function.update_of_ne ha] using hk
    · intro a p hp
      by_cases ha : a = s.agentId
      · subst ha
        simp at hp
      · simpa [Function.update_of_ne ha] using hp
    · exact hmade
    · exact hstarts

theorem Abandoned.connections_of {w' : World} {made : List QQConnection}
    (habandoned : Abandoned w w' made i s) (hk : w'.connections a = some k) : w.connections a = some k := by
  obtain rfl | ⟨rfl, -⟩ := habandoned
  · exact hk
  · by_cases ha : a = s.agentId
    · subst ha
      simp at hk
    · simpa [Function.update_of_ne ha] using hk

theorem Inv.abandon {connection : Option Nat} (h : Inv w) (hs : s ∈ w.starts)
    (hown : ∀ k, connection = some k → ∃ c, w.made[k]? = some c ∧ c.agentId = s.agentId ∧
      c.generation = s.generation ∧ c.config = s.config) : Inv (w.abandon i s connection) := by
  cases connection with
  | none =>
    exact (h.abandon_none hs).inv h (fun _ => rfl) (fun k c hc => ⟨c, hc, rfl, rfl, rfl⟩) (fun _ _ _ => rfl)
  | some k =>
    obtain ⟨c, hc, hagent, hgeneration, hconfig⟩ := hown k rfl
    obtain ⟨habandoned, hgone⟩ := h.abandon_some (i := i) hs hc hagent hgeneration hconfig
    apply habandoned.inv h
    · exact fun j => appOf_closeConnection s.agentId
    · exact fun j c hc => made_closeConnection_same s.agentId hc
    · intro a j hj
      apply made_closeConnection
      rintro rfl
      obtain ⟨c', hc', hagent', -⟩ := h.registered a j (habandoned.connections_of hj)
      obtain rfl := Option.some.inj (hc.symm.trans hc')
      rw [← hagent', hagent] at hj
      exact hgone hj

theorem Inv.act {w' : World} {outcome : Outcome} (h : Inv w) (hs : w.starts[i]? = some s)
    (hact : w.act i s outcome = some w') : Inv w' := by
  have hmem : s ∈ w.starts := List.mem_of_getElem? hs
  have hfails : Inv (w.abandon i s none) := h.abandon hmem (fun k hk => (nomatch hk))
  cases hphase : s.phase with
  | validateBot =>
    simp only [World.act, hphase] at hact
    split at hact <;> cases hact
    · exact h.setPhase (fun k hk => (nomatch hk))
    · exact hfails
  | getGateway =>
    simp only [World.act, hphase] at hact
    split at hact
    · rename_i hgoes
      have hregistered := h.register hs (Bool.and_eq_true_iff.mp hgoes).2
      split at hact <;> cases hact
      · let t : Start := { s with phase := .waitForReady w.made.length }
        have ht : (w.register i s).starts[i]? = some t := by simp [World.register, hs, t]
        exact hregistered.abandon (s := t) (List.mem_of_getElem? ht) (fun k hk =>
          hregistered.own t (List.mem_of_getElem? ht) k (by rw [← Option.some.inj hk]))
      · exact hregistered
    · cases hact
      exact hfails
  | waitForReady connection =>
    simp only [World.act, hphase] at hact
    split at hact <;> cases hact
    · exact h.setPhase (fun k hk => (nomatch hk))
    · exact h.abandon hmem (fun k hk => h.own s hmem k (by rw [hphase, Option.some.inj hk]))
  | settled => simp [World.act, hphase] at hact

theorem inv_step {w' : World} {e : Event} (h : Inv w) (hstep : step w e = some w') : Inv w' := by
  cases e with
  | start agentId rawConfig isSocketOpen =>
    cases hstep
    exact h.start agentId rawConfig isSocketOpen
  | stop agentId =>
    cases hstep
    exact (h.stopped agentId).inv h
  | act i outcome =>
    obtain ⟨s, hs, hact⟩ := Option.bind_eq_some_iff.mp hstep
    exact h.act hs hact

theorem inv_initial : Inv {} := by
  refine ⟨fun a b => by simp [World.claims], ?_, ?_, ?_, ?_, ?_, ?_⟩ <;> simp

theorem Inv.of_run {es : List Event} (h : run step {} es = some w) : Inv w :=
  (runs_free_iff.mpr h).invariant (I := Inv) (fun _ _ _ _ hinv hstep => inv_step hinv hstep) inv_initial

end Claims

section Superseded

variable {w w' : World} {i : Nat} {s : Start}

/-- A later `start` or `stop` of the Agent takes the next generation. -/
def Supersedes (w : World) (s : Start) : Event → Prop
  | .start agentId rawConfig isSocketOpen => agentId = s.agentId ∧
    (w.start agentId rawConfig isSocketOpen).generations agentId ≠ w.generations agentId
  | .stop agentId => agentId = s.agentId
  | .act _ _ => False

def Keeps (w w' : World) : Prop :=
  (∀ a, w.generations a ≤ w'.generations a) ∧
  ∀ (i : Nat) (s : Start), w.starts[i]? = some s →
    ∃ s', w'.starts[i]? = some s' ∧ s'.agentId = s.agentId ∧ s'.generation = s.generation

theorem keeps_modify {f : Start → Start} (hgenerations : w'.generations = w.generations)
    (hstarts : w'.starts = w.starts.modify i f)
    (hf : ∀ s, (f s).agentId = s.agentId ∧ (f s).generation = s.generation) : Keeps w w' := by
  refine ⟨fun a => Nat.le_of_eq (by rw [hgenerations]), ?_⟩
  intro j t ht
  rw [hstarts]
  by_cases hij : i = j
  · subst hij
    exact ⟨f t, by simp [ht], hf t⟩
  · exact ⟨t, by rw [List.getElem?_modify_ne f w.starts hij, ht], rfl, rfl⟩

theorem Abandoned.keeps {made : List QQConnection} (h : Abandoned w w' made i s) : Keeps w w' := by
  obtain rfl | ⟨rfl, -⟩ := h <;> exact keeps_modify rfl rfl (fun _ => ⟨rfl, rfl⟩)

theorem Keeps.trans {w'' : World} (h : Keeps w w') (h' : Keeps w' w'') : Keeps w w'' := by
  refine ⟨fun a => Nat.le_trans (h.1 a) (h'.1 a), ?_⟩
  intro j t ht
  obtain ⟨t', ht', hagent, hgeneration⟩ := h.2 j t ht
  obtain ⟨t'', ht'', hagent', hgeneration'⟩ := h'.2 j t' ht'
  exact ⟨t'', ht'', hagent'.trans hagent, hgeneration'.trans hgeneration⟩

theorem Stopped.generations_of {agentId : String} (h : Stopped w w' agentId) (a : String) :
    w'.generations a = if a = agentId then w.generations a + 1 else w.generations a := by
  rw [h.generations]
  by_cases ha : a = agentId
  · subst ha
    simp
  · simp [ha]

theorem Stopped.keeps {agentId : String} (h : Stopped w w' agentId) : Keeps w w' := by
  refine ⟨?_, fun j t ht => ⟨t, by rw [h.starts, ht], rfl, rfl⟩⟩
  intro a
  rw [h.generations_of a]
  split <;> omega

theorem keeps_reserve (w : World) (agentId : String) (config : QQOfficialConfig) :
    Keeps w (w.reserve agentId config) := by
  refine ⟨fun a => Nat.le_refl _, ?_⟩
  intro j t ht
  exact ⟨t, (List.getElem?_append_left (List.getElem?_eq_some_iff.mp ht).1).trans ht, rfl, rfl⟩

theorem start_cases (w : World) (agentId : String) (rawConfig : Option QQOfficialConfig) (isSocketOpen : Bool) :
    w.start agentId rawConfig isSocketOpen = w ∨
      ∃ config, w.start agentId rawConfig isSocketOpen = w.begin agentId config := by
  cases rawConfig with
  | none => exact .inl rfl
  | some config =>
    simp only [World.start]
    split
    · exact .inl rfl
    · split
      · exact .inl rfl
      · exact .inr ⟨config, rfl⟩

theorem Inv.keeps_begin (h : Inv w) (agentId : String) (config : QQOfficialConfig) :
    Keeps w (w.begin agentId config) := by
  rw [h.begin_eq]
  exact (h.stopped agentId).keeps.trans (keeps_reserve _ _ _)

theorem Inv.keeps_act {outcome : Outcome} (h : Inv w) (hs : w.starts[i]? = some s)
    (hact : w.act i s outcome = some w') : Keeps w w' := by
  have hmem : s ∈ w.starts := List.mem_of_getElem? hs
  have hsetPhase : ∀ phase, Keeps w (w.setPhase i phase) :=
    fun phase => keeps_modify rfl rfl (fun _ => ⟨rfl, rfl⟩)
  cases hphase : s.phase with
  | validateBot =>
    simp only [World.act, hphase] at hact
    split at hact <;> cases hact
    · exact hsetPhase _
    · exact (h.abandon_none hmem).keeps
  | getGateway =>
    simp only [World.act, hphase] at hact
    split at hact
    · rename_i hgoes
      have hregistered := h.register hs (Bool.and_eq_true_iff.mp hgoes).2
      have hkeeps : Keeps w (w.register i s) := keeps_modify rfl rfl (fun _ => ⟨rfl, rfl⟩)
      split at hact <;> cases hact
      · let t : Start := { s with phase := .waitForReady w.made.length }
        have ht : (w.register i s).starts[i]? = some t := by simp [World.register, hs, t]
        have htmem := List.mem_of_getElem? ht
        obtain ⟨c, hc, hagent, hgeneration, hconfig⟩ := hregistered.own t htmem _ rfl
        exact hkeeps.trans (hregistered.abandon_some (s := t) htmem hc hagent hgeneration hconfig).1.keeps
      · exact hkeeps
    · cases hact
      exact (h.abandon_none hmem).keeps
  | waitForReady connection =>
    simp only [World.act, hphase] at hact
    split at hact <;> cases hact
    · exact hsetPhase _
    · obtain ⟨c, hc, hagent, hgeneration, hconfig⟩ := h.own s hmem connection hphase
      exact (h.abandon_some hmem hc hagent hgeneration hconfig).1.keeps
  | settled => simp [World.act, hphase] at hact

theorem Inv.keeps_step {e : Event} (h : Inv w) (hstep : step w e = some w') : Keeps w w' := by
  cases e with
  | start agentId rawConfig isSocketOpen =>
    cases hstep
    obtain heq | ⟨config, heq⟩ := start_cases w agentId rawConfig isSocketOpen
    · rw [heq]
      exact ⟨fun _ => Nat.le_refl _, fun j t ht => ⟨t, ht, rfl, rfl⟩⟩
    · rw [heq]
      exact h.keeps_begin agentId config
  | stop agentId =>
    cases hstep
    exact (h.stopped agentId).keeps
  | act i outcome =>
    obtain ⟨s, hs, hact⟩ := Option.bind_eq_some_iff.mp hstep
    exact h.keeps_act hs hact

theorem Inv.superseded {e : Event} (h : Inv w) (hs : s ∈ w.starts) (hsupersedes : Supersedes w s e)
    (hstep : step w e = some w') : s.generation < w'.generations s.agentId := by
  have hle := h.past s hs
  have hmono := (h.keeps_step hstep).1 s.agentId
  cases e with
  | start agentId rawConfig isSocketOpen =>
    obtain ⟨rfl, hnext⟩ := hsupersedes
    cases hstep
    omega
  | stop agentId =>
    cases hsupersedes
    cases hstep
    have hnext := (h.stopped s.agentId).generations_of s.agentId
    rw [if_pos rfl] at hnext
    omega
  | act => exact absurd hsupersedes id

theorem Inv.act_of_superseded {outcome : Outcome} (h : Inv w) (hs : w.starts[i]? = some s)
    (hlater : s.generation < w.generations s.agentId) (hact : w.act i s outcome = some w') :
    w'.connections = w.connections ∧ w'.pendingStarts = w.pendingStarts ∧
      w'.applicationHolders = w.applicationHolders ∧
      ∀ (k : Nat) (c : QQConnection), w.made[k]? = some c → ¬(c.agentId = s.agentId ∧ c.generation = s.generation) →
        w'.made[k]? = some c := by
  have hmem : s ∈ w.starts := List.mem_of_getElem? hs
  have hstale : w.isCurrent s = false := by
    rw [Bool.eq_false_iff]
    intro hcurrent
    obtain ⟨p, hp, hgeneration⟩ := isCurrent_iff.mp hcurrent
    have hlatest := h.latest _ p hp
    omega
  have hfails : w.abandon i s none = { w with starts := w.starts.modify i fun s => { s with phase := .settled } } := by
    obtain heq | ⟨-, -, hlatest⟩ := h.abandon_none (i := i) hmem
    · exact heq
    · omega
  cases hphase : s.phase with
  | validateBot | getGateway =>
    simp only [World.act, hphase, hstale, Bool.and_false, Bool.false_eq_true, ↓reduceIte] at hact
    obtain rfl := Option.some.inj hact
    rw [hfails]
    exact ⟨rfl, rfl, rfl, fun k c hc _ => hc⟩
  | waitForReady connection =>
    simp only [World.act, hphase] at hact
    split at hact <;> obtain rfl := Option.some.inj hact
    · exact ⟨rfl, rfl, rfl, fun k c hc _ => hc⟩
    · obtain ⟨c, hc, hagent, hgeneration, hconfig⟩ := h.own s hmem connection hphase
      obtain heq | ⟨-, -, hlatest⟩ := (h.abandon_some (i := i) hmem hc hagent hgeneration hconfig).1
      · rw [heq]
        refine ⟨rfl, rfl, rfl, ?_⟩
        intro k c' hc' hother
        refine (made_closeConnection s.agentId ?_).trans hc'
        rintro rfl
        obtain rfl := Option.some.inj (hc.symm.trans hc')
        exact hother ⟨hagent, hgeneration⟩
      · omega
  | settled => simp [World.act, hphase] at hact

end Superseded

/-- A start that a later call of its Agent overtakes never has a connection registered again, and
never touches what the later call has. -/
theorem qq_connection_generations {es : List Event} {w : World} (h : run step {} es = some w) :
    (∀ a p, w.pendingStarts a = some p → w.connections a = none) ∧
    (∀ appId a, w.applicationHolders appId = some a ↔
      (∃ (k : Nat) (c : QQConnection), w.connections a = some k ∧ w.made[k]? = some c ∧ c.config.appId = appId) ∨
        ∃ p, w.pendingStarts a = some p ∧ p.appId = appId) ∧
    ∀ (i : Nat) (s : Start) (e : Event) (w₁ : World), w.starts[i]? = some s → Supersedes w s e →
      step w e = some w₁ → ∀ (later : List Event) (w₂ : World), run step w₁ later = some w₂ →
        (∀ k, w₂.connections s.agentId = some k →
          ∃ c, w₂.made[k]? = some c ∧ c.generation ≠ s.generation ∧ c.stopping = false) ∧
        ∀ (outcome : Outcome) (w₃ : World), step w₂ (.act i outcome) = some w₃ →
          w₃.connections = w₂.connections ∧ w₃.pendingStarts = w₂.pendingStarts ∧
          w₃.applicationHolders = w₂.applicationHolders ∧
          ∀ (k : Nat) (c : QQConnection), w₂.made[k]? = some c →
            ¬(c.agentId = s.agentId ∧ c.generation = s.generation) → w₃.made[k]? = some c := by
  have hinv := Inv.of_run h
  refine ⟨hinv.apart, ?_, ?_⟩
  · intro appId a
    have hapart : w.pendingStarts a = none ∨ w.connections a = none := by
      cases hp : w.pendingStarts a with
      | none => exact .inl rfl
      | some p => exact .inr (hinv.apart a p hp)
    rw [hinv.holds a appId, claims_of_apart hapart]
    simp [World.appOf, Option.bind_eq_some_iff, Option.map_eq_some_iff]
  · intro i s e w₁ hs hsupersedes he later w₂ hrun
    have hmem : s ∈ w.starts := List.mem_of_getElem? hs
    have hlater := hinv.superseded hmem hsupersedes he
    have hkeeps := hinv.keeps_step he
    obtain ⟨hinv₂, hkeeps₂⟩ := (runs_free_iff.mpr hrun).invariant (I := fun w => Inv w ∧ Keeps w₁ w)
      (fun _ _ _ _ hinv hstep => ⟨inv_step hinv.1 hstep, hinv.2.trans (hinv.1.keeps_step hstep)⟩)
      ⟨inv_step hinv he, fun _ => Nat.le_refl _, fun j t ht => ⟨t, ht, rfl, rfl⟩⟩
    have hlater₂ : s.generation < w₂.generations s.agentId := Nat.lt_of_lt_of_le hlater (hkeeps₂.1 _)
    refine ⟨?_, ?_⟩
    · intro k hk
      obtain ⟨c, hc, -, hgeneration, hopen⟩ := hinv₂.registered _ k hk
      exact ⟨c, hc, by omega, hopen⟩
    · intro outcome w₃ hact
      obtain ⟨t, ht, hact⟩ := Option.bind_eq_some_iff.mp hact
      obtain ⟨t', ht', hagent, hgeneration⟩ := (hkeeps.trans hkeeps₂).2 i s hs
      obtain rfl := Option.some.inj (ht.symm.trans ht')
      have hframe := hinv₂.act_of_superseded ht (by rw [hagent, hgeneration]; exact hlater₂) hact
      rwa [hagent, hgeneration] at hframe

def firstConfig : QQOfficialConfig := { appId := "1", appSecret := "s" }

def secondConfig : QQOfficialConfig := { appId := "2", appSecret := "s" }

theorem qq_connection_generations_overtaken : ∃ w w₁ w₂, run step {} [.start "a" (some firstConfig) false] = some w ∧
    step w (.start "a" (some secondConfig) false) = some w₁ ∧
    run step w₁ [.act 1 .resolves, .act 0 .resolves, .act 1 .resolves, .act 1 .resolves] = some w₂ ∧
    w₂.connections "a" = some 0 ∧
    ∃ c, w₂.made[0]? = some c ∧ c.generation ≠ 1 ∧ c.stopping = false := by
  obtain ⟨w, hw, hs, hnext, hlater⟩ : ∃ w, run step {} [.start "a" (some firstConfig) false] = some w ∧
      (w.starts[0]? = some ⟨"a", firstConfig, 1, .validateBot⟩ ∧
      (w.start "a" (some secondConfig) false).generations "a" ≠ w.generations "a" ∧
      (run step (w.start "a" (some secondConfig) false)
        [.act 1 .resolves, .act 0 .resolves, .act 1 .resolves, .act 1 .resolves]).any
          fun w₂ => w₂.connections "a" = some 0) :=
    exists_of_run_any (by decide +kernel)
  obtain ⟨w₂, hw₂, hregistered⟩ := exists_of_run_any hlater
  exact ⟨w, _, w₂, hw, rfl, hw₂, hregistered,
    ((qq_connection_generations hw).2.2 0 _ (.start "a" (some secondConfig) false) _ hs ⟨rfl, hnext⟩ rfl _ w₂
      hw₂).1 0 hregistered⟩

end A2Wave.QQConnections
