import Mathlib.Logic.Function.Basic
import A2Wave.Lib.Pool

/-! The client pool of the MCP group proxy. -/

namespace A2Wave.GroupProxy

open Transition

inductive Phase
  | connecting
  | listing
  | closing
  | throwing
  | rejected
  | resolved
  deriving DecidableEq

/-- `setupClient` has set the client's `onclose`. -/
def Phase.hooked : Phase → Bool
  | .listing | .closing | .resolved => true
  | _ => false

/-- A call of `connectBackend`: its promise, its client, and the first attempts of `call_tool` that await it. -/
structure Attempt where
  key : String
  phase : Phase
  isOpen : Bool
  connectPending : Bool
  callers : ℕ

structure World where
  attempts : List Attempt
  clientPool : String → Option ℕ

def init : World := ⟨[], fun _ => none⟩

def getOrCreateClient (w : World) (key : String) : World × ℕ :=
  match w.clientPool key with
  | some x => (w, x)
  | none => (⟨w.attempts ++ [⟨key, .connecting, false, false, 0⟩],
      Function.update w.clientPool key (some w.attempts.length)⟩, w.attempts.length)

inductive Outcome
  | connects
  | connectFails
  | timesOut
  | connectsLate
  | lists
  | listFails
  | closes
  | closed
  | catches
  | retries
  deriving DecidableEq

/-- The attempt after an outcome, and whether the outcome deletes what the pool has under its key. -/
def Attempt.act (a : Attempt) : Outcome → Option (Attempt × Bool)
  | .connects => if a.phase = .connecting then some ({ a with phase := .listing, isOpen := true }, false) else none
  | .connectFails => if a.phase = .connecting then some ({ a with phase := .throwing }, false) else none
  | .timesOut =>
    if a.phase = .connecting then some ({ a with phase := .throwing, connectPending := true }, false) else none
  | .connectsLate =>
    if a.connectPending then some ({ a with connectPending := false, isOpen := true }, false) else none
  | .lists => if a.phase = .listing then some ({ a with phase := .resolved }, false) else none
  | .listFails => if a.phase = .listing then some ({ a with phase := .closing }, false) else none
  | .closes => if a.isOpen then some ({ a with isOpen := false }, a.phase.hooked) else none
  | .closed => if a.phase = .closing && !a.isOpen then some ({ a with phase := .throwing }, false) else none
  | .catches => if a.phase = .throwing then some ({ a with phase := .rejected }, true) else none
  | .retries =>
    if a.phase = .rejected && 0 < a.callers then some ({ a with callers := a.callers - 1 }, true) else none

inductive Event
  | get (key : String)
  | callTool (key : String)
  | act (x : ℕ) (o : Outcome)

def World.put (w : World) (x : ℕ) (a : Attempt) (evicts : Bool) : World where
  attempts := w.attempts.set x a
  clientPool := if evicts then Function.update w.clientPool a.key none else w.clientPool

def step (w : World) : Event → Option World
  | .get key => some (getOrCreateClient w key).1
  | .callTool key =>
    let (w, x) := getOrCreateClient w key
    w.attempts[x]?.map fun a => w.put x { a with callers := a.callers + 1 } false
  | .act x o =>
    w.attempts[x]?.bind fun a => (a.act o).map fun r =>
      let w := w.put x r.1 r.2
      if o = .retries then (getOrCreateClient w a.key).1 else w

/-- `shutdown` closes the clients of the promises in the pool, once these have settled. -/
def shutdown (w : World) : World :=
  { w with attempts := w.attempts.mapIdx fun x a =>
      if w.clientPool a.key = some x then { a with isOpen := false } else a }

/-- The event is another attempt's, and takes the entry of `x` out of the pool. -/
def Robs (w : World) (e : Event) (x : ℕ) : Prop :=
  ∃ y o key w', e = .act y o ∧ y ≠ x ∧ w.clientPool key = some x ∧ step w e = some w' ∧ w'.clientPool key ≠ some x

/-- In the run another attempt takes the entry of `x`, or `x` connects after its timeout. -/
def Escapes (es : List Event) (x : ℕ) : Prop :=
  ∃ es₁ e es₂ w, es = es₁ ++ e :: es₂ ∧ run step init es₁ = some w ∧ (Robs w e x ∨ e = .act x .connectsLate)

def Attempt.lives (a : Attempt) : Bool := a.isOpen || a.phase = .connecting

/-- While it connects or its client is open, the attempt is the pool's. -/
def Held (x : ℕ) (w : World) : Prop :=
  ∀ a, w.attempts[x]? = some a → (a.isOpen = true → a.phase.hooked = true) ∧
    (a.lives = true → w.clientPool a.key = some x)

variable {w w' : World} {x y : ℕ} {a a' : Attempt} {key : String} {evicts : Bool} {o : Outcome}

theorem Attempt.act_key (h : a.act o = some (a', evicts)) : a'.key = a.key := by
  cases o <;> simp only [act] at h <;> split at h <;> cases h <;> rfl

/-- An attempt that deletes the pool's entry neither connects nor has an open client. -/
theorem Attempt.act_lives (h : a.act o = some (a', evicts)) (ho : o ≠ .connectsLate)
    (hhooked : a.isOpen = true → a.phase.hooked = true) :
    (a'.isOpen = true → a'.phase.hooked = true) ∧ (a'.lives = true → evicts = false ∧ a.lives = true) := by
  obtain ⟨key, phase, isOpen, connectPending, callers⟩ := a
  cases o
  case connectsLate => cases ho rfl
  case retries =>
    cases phase <;> cases isOpen <;> simp [act, Phase.hooked] at h hhooked
    obtain ⟨-, rfl, rfl⟩ := h
    simp [lives]
  all_goals
    cases phase <;> cases isOpen <;> simp [act, Phase.hooked] at h hhooked <;> obtain ⟨rfl, rfl⟩ := h <;>
      simp [lives, Phase.hooked]

theorem getOrCreateClient_pool (hy : w.clientPool key = some y) (key' : String) :
    (getOrCreateClient w key').1.clientPool key = some y := by
  rw [getOrCreateClient]
  split
  · exact hy
  · next hnone =>
    have hne : key ≠ key' := fun heq => by rw [heq, hnone] at hy; cases hy
    exact (Function.update_of_ne hne ..).trans hy

theorem getElem?_getOrCreateClient (h : (getOrCreateClient w key).1.attempts[x]? = some a) :
    w.attempts[x]? = some a ∨ a.isOpen = false ∧ (getOrCreateClient w key).1.clientPool a.key = some x := by
  rw [getOrCreateClient] at h ⊢
  split at h
  · exact .inl h
  · obtain h | ⟨rfl, rfl⟩ := Pool.getElem?_append_cases h
    · exact .inl h
    · exact .inr ⟨rfl, Function.update_self ..⟩

theorem Held.start (h : Held x w) (key : String) : Held x (getOrCreateClient w key).1 := by
  intro a ha
  obtain ha | ⟨hopen, hpool⟩ := getElem?_getOrCreateClient ha
  · exact ⟨(h a ha).1, fun hlives => getOrCreateClient_pool ((h a ha).2 hlives) key⟩
  · exact ⟨fun heq => (by rw [hopen] at heq; cases heq), fun _ => hpool⟩

theorem Held.put (h : Held x w) (ha : w.attempts[x]? = some a) (hkey : a'.key = a.key)
    (hhooked : a'.isOpen = true → a'.phase.hooked = true)
    (hlives : a'.lives = true → evicts = false ∧ a.lives = true) : Held x (w.put x a' evicts) := by
  intro c hc
  obtain ⟨-, rfl⟩ | ⟨hne, -⟩ := Pool.getElem?_set_cases hc
  · refine ⟨hhooked, fun hc => ?_⟩
    obtain ⟨rfl, hold⟩ := hlives hc
    rw [hkey]
    exact (h a ha).2 hold
  · exact absurd rfl hne

theorem Held.step {e : Event} (h : Held x w) (hrobs : ¬Robs w e x) (hlate : e ≠ .act x .connectsLate)
    (hs : step w e = some w') : Held x w' := by
  cases e with
  | get key =>
    obtain rfl := Option.some.inj hs
    exact h.start key
  | callTool key =>
    obtain ⟨a, ha, rfl⟩ := Option.map_eq_some_iff.mp hs
    have hstart := h.start key
    intro c hc
    obtain ⟨rfl, rfl⟩ | ⟨-, hc⟩ := Pool.getElem?_set_cases hc
    · exact hstart a ha
    · exact hstart c hc
  | act y o =>
    obtain ⟨a, ha, hr⟩ := Option.bind_eq_some_iff.mp hs
    obtain ⟨⟨a', evicts⟩, hact, hw⟩ := Option.map_eq_some_iff.mp hr
    dsimp only at hw
    by_cases hyx : y = x
    · subst hyx hw
      have ho : o ≠ .connectsLate := fun heq => hlate (by rw [heq])
      obtain ⟨hhooked, hlives⟩ := Attempt.act_lives hact ho (h a ha).1
      have hput := h.put ha (Attempt.act_key hact) hhooked hlives
      split
      · exact hput.start _
      · exact hput
    · have hold : ∀ c, (w.put y a' evicts).attempts[x]? = some c → (c.isOpen = true → c.phase.hooked = true) ∧
          (c.lives = true → w'.clientPool c.key = some x) := by
        intro c hc
        obtain ⟨heq, -⟩ | ⟨-, hc⟩ := Pool.getElem?_set_cases hc
        · exact absurd heq.symm hyx
        refine ⟨(h c hc).1, fun hlives => ?_⟩
        by_contra hne
        exact hrobs ⟨y, o, c.key, w', rfl, hyx, (h c hc).2 hlives, hs, hne⟩
      split at hw <;> subst hw
      · intro c hc
        obtain hc | ⟨hopen, hpool⟩ := getElem?_getOrCreateClient hc
        · exact hold c hc
        · exact ⟨fun heq => (by rw [hopen] at heq; cases heq), fun _ => hpool⟩
      · exact hold

/-- In every run an open client is the pool's, and a shutdown closes it, unless another attempt took its entry or
it was connected after its timeout. -/
theorem open_client_kept_or_escaped {es : List Event} (h : run step init es = some w)
    (hx : w.attempts[x]? = some a) (hopen : a.isOpen = true) : Escapes es x ∨ w.clientPool a.key = some x ∧
      ∃ b, (shutdown w).attempts[x]? = some b ∧ b.isOpen = false := by
  obtain hruns | ⟨es₁, e, es₂, u, heq, hu, hbad⟩ :=
    runs_or_violates (fun u e => ¬(Robs u e x ∨ e = .act x .connectsLate)) h
  · have hheld := hruns.invariant (I := Held x)
      (fun s e t hok hs ht => hs.step (fun hr => hok (.inl hr)) (fun hl => hok (.inr hl)) ht) (fun _ hc => by cases hc)
    have hpool := (hheld a hx).2 (by rw [Attempt.lives, hopen]; rfl)
    refine .inr ⟨hpool, { a with isOpen := false }, ?_, rfl⟩
    rw [shutdown, List.getElem?_mapIdx, hx, Option.map_some, if_pos hpool]
  · exact .inl ⟨es₁, e, es₂, u, heq, hu, not_not.mp hbad⟩

/-- Two calls of a tool wait for one connection that fails, and both retry. -/
def twoRetries : List Event := [.callTool "prod:db", .callTool "prod:db", .act 0 .connectFails, .act 0 .catches,
  .act 0 .retries, .act 0 .retries, .act 1 .connects]

theorem open_client_escapes_of_retries : Escapes twoRetries 1 := by
  have hrun : run step init twoRetries = some _ := rfl
  obtain hescapes | ⟨hpool, -⟩ :=
    open_client_kept_or_escaped (x := 1) (a := ⟨"prod:db", .listing, true, false, 0⟩) hrun rfl rfl
  · exact hescapes
  · cases hpool

end A2Wave.GroupProxy
