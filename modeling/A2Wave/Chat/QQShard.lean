import A2Wave.Lib.Pool
import Mathlib.Data.List.Basic

/-! One shard of a QQ connection (`lib/qq-official-service.ts`, `connectShard` and
`handleGatewayPayload`).  The gateway numbers what it sends in a session one by one, says hello once
on a socket, and goes on behind the number that a Resume names. -/

namespace A2Wave.QQShard

open Transition

structure CloseAction where
  clearSession : Bool
  invalidateToken : Bool

def classifyQQGatewayClose (code : Nat) : CloseAction where
  clearSession := code = 4004 || code = 4006 || code = 4007 || code = 9001 || code = 9005
  invalidateToken := code = 4004

inductive Payload
  | hello
  | reconnect
  | invalidSession
  | ready (session : Nat) (s : Option Nat)
  | resumed (s : Option Nat)
  | dispatch (s : Option Nat)
  | malformed
  | other
  deriving DecidableEq

def Payload.number : Payload → Option Nat
  | .ready _ s | .resumed s | .dispatch s => s
  | _ => none

inductive ReadyState
  | open
  | closing
  | closed
  deriving DecidableEq

inductive Handler
  | acquire
  | getToken (shouldResume : Bool)
  | dispatch (s : Option Nat)
  deriving DecidableEq

/-- The last five fields are the gateway's: what it has got and sent on the socket, and the number of
the last payload that the shard has handled on it. -/
structure Socket where
  readyState : ReadyState := .open
  acceptPayloads : Bool := true
  payloadQueue : List Payload := []
  handler : Option Handler := none
  greeted : Bool := false
  identified : Bool := false
  session : Option Nat := none
  position : Nat := 0
  handled : Nat := 0
  deriving DecidableEq

inductive Frame
  | heartbeat (session sequence : Option Nat)
  | resume (session sequence : Option Nat)
  | identify
  deriving DecidableEq

/-- `received` and `completed` are the numbers of each session, `sessions` counts the sessions that
the gateway has made. -/
structure Shard where
  sockets : List Socket := []
  socket : Option Nat := none
  sessionId : Option Nat := none
  sequence : Option Nat := none
  heartbeat : Bool := false
  reconnect : Bool := false
  stopping : Bool := false
  sessions : Nat := 0
  received : List (Nat × Nat) := []
  completed : List (Nat × Nat) := []
  sent : List Frame := []

namespace Shard

def update (w : Shard) (k : Nat) (x : Socket) : Shard := { w with sockets := w.sockets.set k x }

/-- `socket.close()`. -/
def beginClose (x : Socket) : Socket :=
  { x with readyState := if x.readyState = .open then .closing else x.readyState }

def clearSession (w : Shard) : Shard := { w with sessionId := none, sequence := none }

def send (w : Shard) (frame : Frame) : Shard := { w with sent := w.sent ++ [frame] }

def connectShard (w : Shard) : Option Shard :=
  if w.stopping || !(w.socket = none || w.reconnect) then none
  else some { w with sockets := w.sockets ++ [{}], socket := some w.sockets.length, reconnect := false }

def message (w : Shard) (k : Nat) (x : Socket) (payload : Payload) : Option Shard :=
  if x.readyState = .closed then none
  else
    let queued := { x with payloadQueue := x.payloadQueue ++ [payload] }
    let numbered (session : Nat) (s : Option Nat) : Option Shard :=
      match s with
      | none => some (w.update k queued)
      | some s =>
        if s = x.position + 1 then
          some { w.update k { queued with position := s } with received := w.received ++ [(session, s)] }
        else none
    match payload with
    | .hello => if x.greeted then none else some (w.update k { queued with greeted := true })
    | .ready session s =>
      if !x.identified || x.session ≠ none || session ≠ w.sessions then none
      else
        let w := { w with sessions := w.sessions + 1 }
        let queued := { queued with session := some session }
        match s with
        | none => some (w.update k queued)
        | some s =>
          if s = x.position + 1 then
            some { w.update k { queued with position := s } with received := w.received ++ [(session, s)] }
          else none
    | .resumed s | .dispatch s => x.session.bind fun session => numbered session s
    | _ => some (w.update k queued)

def complete (w : Shard) (x : Socket) (s : Nat) : Shard :=
  { w with
    sequence := some s
    completed := match x.session with
      | some session => w.completed ++ [(session, s)]
      | none => w.completed }

/-- `handleGatewayPayload` up to its first await. -/
def handleGatewayPayload (w : Shard) (k : Nat) (x : Socket) (payload : Payload) : Shard :=
  match payload with
  | .hello =>
    let w := { w with heartbeat := true }
    if w.sessionId.isSome then
      if w.stopping || x.readyState ≠ .open then w.update k x
      else w.update k { x with handler := some (.getToken true) }
    else w.update k { x with handler := some .acquire }
  | .reconnect => w.update k (beginClose x)
  | .invalidSession => w.clearSession.update k (beginClose x)
  | .ready session s =>
    let w := { w with sessionId := some session }
    match s with
    | some s => (w.complete x s).update k { x with handled := s }
    | none => w.update k x
  | .resumed s =>
    match s with
    | some s => (w.complete x s).update k { x with handled := s }
    | none => w.update k x
  | .dispatch s => w.update k { x with handler := some (.dispatch s) }
  | .malformed => w.update k { beginClose x with acceptPayloads := false }
  | .other => w.update k x

def dequeue (w : Shard) (k : Nat) (x : Socket) : Option Shard :=
  match x.handler, x.payloadQueue with
  | none, payload :: rest =>
    let x := { x with payloadQueue := rest }
    if !x.acceptPayloads || w.socket ≠ some k then some (w.update k x)
    else some (w.handleGatewayPayload k x payload)
  | _, _ => none

def reject (w : Shard) (k : Nat) (x : Socket) : Shard :=
  let x := { x with handler := none, acceptPayloads := false }
  w.update k (if w.socket = some k then beginClose x else x)

def answerHello (w : Shard) (k : Nat) (x : Socket) (shouldResume : Bool) : Shard :=
  let x := { x with handler := none }
  if w.socket = some k && x.readyState = .open then
    if shouldResume then
      let position := w.sequence.getD 0
      (w.send (.resume w.sessionId w.sequence)).update k
        (if w.sessionId.isSome then
          { x with session := w.sessionId, position := position, handled := position } else x)
    else (w.send .identify).update k { x with identified := true }
  else w.update k x

def act (w : Shard) (k : Nat) (x : Socket) (resolves : Bool) : Option Shard :=
  match x.handler with
  | some .acquire =>
    if w.stopping || w.socket ≠ some k || x.readyState ≠ .open then some (w.update k { x with handler := none })
    else some (w.update k { x with handler := some (.getToken false) })
  | some (.getToken shouldResume) =>
    some (if resolves then w.answerHello k x shouldResume else w.reject k x)
  | some (.dispatch s) =>
    some (if resolves then
      match s with
      | some s => (w.complete x s).update k { x with handler := none, handled := s }
      | none => w.update k { x with handler := none }
    else w.reject k x)
  | none => none

def close (w : Shard) (k : Nat) (x : Socket) (code : Nat) : Option Shard :=
  if x.readyState = .closed then none
  else if w.socket ≠ some k then some (w.update k { x with readyState := .closed })
  else
    let w := { w with heartbeat := false, reconnect := !w.stopping }
    let w := if (classifyQQGatewayClose code).clearSession then w.clearSession else w
    some (w.update k { x with readyState := .closed, acceptPayloads := false })

def beat (w : Shard) : Option Shard :=
  match w.socket.bind fun k => w.sockets[k]? with
  | some x =>
    if w.heartbeat && x.readyState = .open then some (w.send (.heartbeat w.sessionId w.sequence)) else none
  | none => none

def stop (w : Shard) : Shard :=
  let w := { w with stopping := true, heartbeat := false, reconnect := false }
  match w.socket with
  | some k => { w with sockets := w.sockets.modify k beginClose }
  | none => w

end Shard

inductive Event
  | connect
  | message (k : Nat) (payload : Payload)
  | dequeue (k : Nat)
  | act (k : Nat) (resolves : Bool)
  | close (k code : Nat)
  | beat
  | stop

def step (w : Shard) : Event → Option Shard
  | .connect => w.connectShard
  | .message k payload => w.sockets[k]?.bind fun x => w.message k x payload
  | .dequeue k => w.sockets[k]?.bind fun x => w.dequeue k x
  | .act k resolves => w.sockets[k]?.bind fun x => w.act k x resolves
  | .close k code => w.sockets[k]?.bind fun x => w.close k x code
  | .beat => w.beat
  | .stop => some w.stop

def allowed (w : Shard) : Event → Bool
  | .act k resolves => w.sockets[k]?.all fun x =>
    match x.handler with
    | some (.dispatch (some _)) => !resolves || w.sessionId = none || w.sessionId = x.session
    | _ => true
  | .dequeue k => w.sockets[k]?.all fun x =>
    match x.payloadQueue.head? with
    | some (.ready _ none) =>
      x.handler.isSome || !x.acceptPayloads || w.socket ≠ some k || w.sequence = none
    | _ => true
  | _ => true

def Chain : Nat → List Nat → Nat → Prop
  | a, [], b => a = b
  | a, s :: l, b => s = a + 1 ∧ Chain s l b

theorem Chain.le : ∀ {l : List Nat} {a b : Nat}, Chain a l b → a ≤ b
  | [], _, _, h => Nat.le_of_eq h
  | _ :: _, _, _, ⟨hs, h⟩ => by
    have hle := h.le
    omega

theorem Chain.snoc : ∀ {l : List Nat} {a b : Nat}, Chain a l b → Chain a (l ++ [b + 1]) (b + 1)
  | [], _, _, h => by
    cases h
    exact ⟨rfl, rfl⟩
  | _ :: _, _, _, ⟨hs, h⟩ => ⟨hs, h.snoc⟩

namespace Socket

def numbers (x : Socket) : List Nat := x.payloadQueue.filterMap Payload.number

def taken (x : Socket) : Nat :=
  match x.handler with
  | some (.dispatch (some s)) => s
  | _ => x.handled

def greeting (x : Socket) : Bool :=
  match x.handler with
  | some .acquire | some (.getToken _) => true
  | _ => false

def hellos (x : Socket) : Nat :=
  x.payloadQueue.count .hello + (if x.greeting then 1 else 0) + (if x.identified || x.session.isSome then 1 else 0)

end Socket

def Payload.inSession : Payload → Bool
  | .ready _ _ | .resumed _ | .dispatch _ => true
  | _ => false

structure SocketInv (w : Shard) (k : Nat) (x : Socket) : Prop where
  hello : x.hellos ≤ if x.greeted then 1 else 0
  unbound : x.session = none → (∀ p ∈ x.payloadQueue, p.inSession = false) ∧
    (∀ s, x.handler ≠ some (.dispatch s)) ∧ x.position = 0 ∧ x.handled = 0
  ready : ∀ session s, .ready session s ∈ x.payloadQueue → x.session = some session
  bound : ∀ session, x.session = some session → session < w.sessions
  done : ∀ session m, x.session = some session → m ≤ x.handled → (session, m) ∈ w.received → (session, m) ∈ w.completed
  le : x.handled ≤ x.position
  known : ∀ session, x.session = some session → x.position = 0 ∨ (session, x.position) ∈ w.received
  running : ∀ s, x.handler = some (.dispatch (some s)) → s = x.handled + 1 ∧ s ≤ x.position
  chain : x.acceptPayloads = true → w.socket = some k → Chain x.taken x.numbers x.position
  current : ∀ session, w.socket = some k → x.session = some session → w.sessionId = none ∨ w.sessionId = some session
  identify : w.socket = some k → x.session = none →
    x.identified = true ∨ x.handler = some .acquire ∨ x.handler = some (.getToken false) → w.sessionId = none

def Exposes (w : Shard) (session n : Nat) : Prop :=
  (session, n) ∈ w.received ∧ ∀ m, m ≤ n → (session, m) ∈ w.received → (session, m) ∈ w.completed

structure Inv (w : Shard) : Prop where
  consecutive : ∀ session m, (session, m) ∈ w.received → 1 ≤ m ∧ ∀ m', 1 ≤ m' → m' ≤ m → (session, m') ∈ w.received
  made : ∀ session m, (session, m) ∈ w.received → session < w.sessions
  sessionId : ∀ session, w.sessionId = some session → session < w.sessions
  safe : ∀ session n, w.sessionId = some session → w.sequence = some n → Exposes w session n
  sockets : ∀ (k : Nat) x, w.sockets[k]? = some x → SocketInv w k x

section Invariant

variable {w w' : Shard} {k j : Nat} {x y : Socket}

theorem SocketInv.mono (h : SocketInv w j y) (hsessions : w.sessions ≤ w'.sessions)
    (hreceived : ∀ p ∈ w.received, p ∈ w'.received) (hcompleted : ∀ p ∈ w.completed, p ∈ w'.completed)
    (hnew : ∀ session m, (session, m) ∈ w'.received → (session, m) ∈ w.received ∨
      ∀ n, n = 0 ∨ (session, n) ∈ w.received → n < m)
    (hcurrent : w'.socket = some j → w.socket = some j ∧ (w'.sessionId = w.sessionId ∨ w'.sessionId = none)) :
    SocketInv w' j y := by
  refine ⟨h.hello, h.unbound, h.ready, ?_, ?_, h.le, ?_, h.running, ?_, ?_, ?_⟩
  · intro session hsession
    exact Nat.lt_of_lt_of_le (h.bound session hsession) hsessions
  · intro session m hsession hm hmem
    obtain hold | hfresh := hnew session m hmem
    · exact hcompleted _ (h.done session m hsession hm hold)
    · have hlt := hfresh y.position (h.known session hsession)
      have hle := h.le
      omega
  · intro session hsession
    obtain hzero | hmem := h.known session hsession
    · exact .inl hzero
    · exact .inr (hreceived _ hmem)
  · exact fun haccept hk => h.chain haccept (hcurrent hk).1
  · intro session hk hsession
    obtain ⟨hk, hsame | hnone⟩ := hcurrent hk
    · rw [hsame]
      exact h.current session hk hsession
    · exact .inl hnone
  · intro hk hsession hidentify
    obtain ⟨hk, hsame | hnone⟩ := hcurrent hk
    · rw [hsame]
      exact h.identify hk hsession hidentify
    · exact hnone

theorem Inv.update (h : Inv w) (hy : SocketInv w k y) : Inv (w.update k y) := by
  have hmono : ∀ {j z}, SocketInv w j z → SocketInv (w.update k y) j z := fun hz =>
    hz.mono (Nat.le_refl _) (fun _ hp => hp) (fun _ hp => hp) (fun _ _ hm => .inl hm) (fun hk => ⟨hk, .inl rfl⟩)
  refine ⟨h.consecutive, h.made, h.sessionId, h.safe, ?_⟩
  intro j z hz
  obtain ⟨rfl, rfl⟩ | ⟨-, hz⟩ := Pool.getElem?_set_cases hz
  · exact hmono hy
  · exact hmono (h.sockets j z hz)

theorem Inv.connect (h : Inv w) (hconnect : w.connectShard = some w') : Inv w' := by
  simp only [Shard.connectShard] at hconnect
  split at hconnect
  · cases hconnect
  · obtain rfl := Option.some.inj hconnect
    refine ⟨h.consecutive, h.made, h.sessionId, h.safe, ?_⟩
    intro j z hz
    by_cases hj : j < w.sockets.length
    · rw [List.getElem?_append_left hj] at hz
      refine (h.sockets j z hz).mono (Nat.le_refl _) (fun _ hp => hp) (fun _ hp => hp) (fun _ _ hm => .inl hm) ?_
      intro hk
      have heq := Option.some.inj hk
      omega
    · have heq : j = w.sockets.length := by
        have hlt := (List.getElem?_eq_some_iff.mp hz).1
        rw [List.length_append, List.length_singleton] at hlt
        omega
      subst heq
      simp only [List.getElem?_concat_length] at hz
      obtain rfl := Option.some.inj hz
      refine ⟨Nat.le_refl 0, ?_, ?_, ?_, ?_, Nat.le_refl 0, ?_, ?_, fun _ _ => rfl, ?_, ?_⟩
      · exact fun _ => ⟨fun p hp => (nomatch hp), fun s hs => (nomatch hs), rfl, rfl⟩
      · exact fun session s hs => (nomatch hs)
      · exact fun session hs => (nomatch hs)
      · exact fun session m hs => (nomatch hs)
      · exact fun session hs => (nomatch hs)
      · exact fun s hs => (nomatch hs)
      · exact fun session hk hs => (nomatch hs)
      · rintro - - (hs | hs | hs) <;> cases hs

theorem Inv.receive (h : Inv w) {session p : Nat} (hsession : session < w.sessions)
    (hp : p = 0 ∨ (session, p) ∈ w.received) : Inv { w with received := w.received ++ [(session, p + 1)] } := by
  have hcases : ∀ session' m, (session', m) ∈ w.received ++ [(session, p + 1)] →
      (session', m) ∈ w.received ∨ session' = session ∧ m = p + 1 ∧
        ∀ n, n = 0 ∨ (session', n) ∈ w.received → n < m := by
    intro session' m hm
    by_cases hold : (session', m) ∈ w.received
    · exact .inl hold
    · obtain hm | hm := List.mem_append.mp hm
      · exact .inl hm
      · obtain ⟨rfl, rfl⟩ := Prod.mk.inj (List.mem_singleton.mp hm)
        refine .inr ⟨rfl, rfl, ?_⟩
        rintro n (rfl | hn)
        · omega
        · by_contra hlt
          exact hold ((h.consecutive session' n hn).2 (p + 1) (by omega) (by omega))
  refine ⟨?_, ?_, h.sessionId, ?_, ?_⟩
  · intro session' m hm
    obtain hold | ⟨rfl, rfl, -⟩ := hcases session' m hm
    · obtain ⟨hpos, hbelow⟩ := h.consecutive session' m hold
      exact ⟨hpos, fun m' h1 hle => List.mem_append_left _ (hbelow m' h1 hle)⟩
    · refine ⟨by omega, ?_⟩
      intro m' h1 hle
      by_cases hm' : m' = p + 1
      · subst hm'
        exact hm
      · obtain rfl | hp := hp
        · omega
        · exact List.mem_append_left _ ((h.consecutive _ p hp).2 m' h1 (by omega))
  · intro session' m hm
    obtain hold | ⟨rfl, -⟩ := hcases session' m hm
    · exact h.made session' m hold
    · exact hsession
  · intro session' n hid hsequence
    obtain ⟨hn, hdone⟩ := h.safe session' n hid hsequence
    refine ⟨List.mem_append_left _ hn, ?_⟩
    intro m hle hm
    obtain hold | ⟨-, -, hfresh⟩ := hcases session' m hm
    · exact hdone m hle hold
    · have hlt := hfresh n (.inr hn)
      omega
  · intro j z hz
    refine (h.sockets j z hz).mono (Nat.le_refl _) (fun _ hp => List.mem_append_left _ hp) (fun _ hp => hp) ?_ ?_
    · intro session' m hm
      obtain hold | ⟨-, -, hfresh⟩ := hcases session' m hm
      · exact .inl hold
      · exact .inr hfresh
    · exact fun hk => ⟨hk, .inl rfl⟩

theorem numbers_enqueue (x : Socket) (p : Payload) :
    { x with payloadQueue := x.payloadQueue ++ [p] }.numbers = x.numbers ++ p.number.toList := by
  simp only [Socket.numbers, List.filterMap_append]
  cases hp : p.number <;> simp [hp]

variable {p : Payload}

theorem SocketInv.hello_enqueue (h : SocketInv w k y) (hqueue : x.payloadQueue = y.payloadQueue ++ [p])
    (hhandler : x.handler = y.handler) (hgreeted : x.greeted = y.greeted)
    (hanswered : (x.identified || x.session.isSome) = (y.identified || y.session.isSome)) (hp : p ≠ .hello) :
    x.hellos ≤ if x.greeted then 1 else 0 := by
  have hcount : x.payloadQueue.count .hello = y.payloadQueue.count .hello := by
    rw [hqueue, List.count_append, List.count_singleton, if_neg (by simpa using hp), Nat.add_zero]
  have hhellos := h.hello
  rw [Socket.hellos, Socket.greeting] at hhellos ⊢
  rw [hcount, hhandler, hanswered, hgreeted]
  exact hhellos

theorem SocketInv.enqueue (h : SocketInv w k x) {greeted : Bool} (hp : p.inSession = false)
    (hhello : (x.payloadQueue ++ [p]).count .hello + (if x.greeting then 1 else 0) +
      (if x.identified || x.session.isSome then 1 else 0) ≤ if greeted then 1 else 0) :
    SocketInv w k { x with payloadQueue := x.payloadQueue ++ [p], greeted := greeted } := by
  have hnumber : p.number = none := by cases p <;> first | rfl | cases hp
  refine ⟨hhello, ?_, ?_, h.bound, h.done, h.le, h.known, h.running, ?_, h.current, h.identify⟩
  · intro hsession
    obtain ⟨hqueue, hrest⟩ := h.unbound hsession
    refine ⟨?_, hrest⟩
    intro q hq
    obtain hq | hq := List.mem_append.mp hq
    · exact hqueue q hq
    · rwa [List.mem_singleton.mp hq]
  · intro session s hmem
    obtain hq | hq := List.mem_append.mp hmem
    · exact h.ready session s hq
    · rw [← List.mem_singleton.mp hq] at hp
      cases hp
  · intro haccept hk
    have hchain := h.chain haccept hk
    have hnumbers := numbers_enqueue x p
    rw [hnumber, Option.toList_none, List.append_nil] at hnumbers
    have hsame : { x with payloadQueue := x.payloadQueue ++ [p], greeted := greeted }.numbers = x.numbers := hnumbers
    rw [hsame]
    exact hchain

variable {session : Nat}

theorem SocketInv.enqueueBound (h : SocketInv w k x) (hsession : x.session = some session)
    (hp : ∀ session' s, p ≠ .ready session' s) (hhello : p ≠ .hello) (hnumber : p.number = none) :
    SocketInv w k { x with payloadQueue := x.payloadQueue ++ [p] } := by
  refine ⟨?_, ?_, ?_, h.bound, h.done, h.le, h.known, h.running, ?_, h.current, h.identify⟩
  · exact h.hello_enqueue rfl rfl rfl rfl hhello
  · intro hnone
    rw [hsession] at hnone
    cases hnone
  · intro session' s hmem
    obtain hq | hq := List.mem_append.mp hmem
    · exact h.ready session' s hq
    · exact absurd (List.mem_singleton.mp hq).symm (hp session' s)
  · intro haccept hk
    rw [numbers_enqueue, hnumber, Option.toList_none, List.append_nil]
    exact h.chain haccept hk

theorem SocketInv.enqueueNumbered (h : SocketInv w k x)
    (hsession : x.session = some session) (hp : ∀ session' s, p ≠ .ready session' s)
    (hhello : p ≠ .hello) (hnumber : p.number = some (x.position + 1))
    (hreceived : (session, x.position + 1) ∈ w.received) :
    SocketInv w k { x with payloadQueue := x.payloadQueue ++ [p], position := x.position + 1 } := by
  refine ⟨?_, ?_, ?_, h.bound, h.done, Nat.le_succ_of_le h.le, ?_, ?_, ?_, h.current, h.identify⟩
  · exact h.hello_enqueue rfl rfl rfl rfl hhello
  · intro hnone
    rw [hsession] at hnone
    cases hnone
  · intro session' s hmem
    obtain hq | hq := List.mem_append.mp hmem
    · exact h.ready session' s hq
    · exact absurd (List.mem_singleton.mp hq).symm (hp session' s)
  · intro session' hsession'
    obtain rfl := Option.some.inj (hsession.symm.trans hsession')
    exact .inr hreceived
  · intro s hs
    obtain ⟨hnext, hle⟩ := h.running s hs
    exact ⟨hnext, Nat.le_succ_of_le hle⟩
  · intro haccept hk
    have hnumbers := numbers_enqueue x p
    rw [hnumber, Option.toList_some] at hnumbers
    have hsame : { x with payloadQueue := x.payloadQueue ++ [p], position := x.position + 1 }.numbers =
        x.numbers ++ [x.position + 1] := hnumbers
    rw [hsame]
    exact (h.chain haccept hk).snoc

theorem SocketInv.enqueueReady (h : SocketInv w k x) {s : Option Nat}
    (hidentified : x.identified = true) (hnone : x.session = none) (hbound : session < w.sessions)
    (hnumber : s = none ∨ s = some (x.position + 1) ∧ (session, x.position + 1) ∈ w.received)
    (hpositive : ∀ m, (session, m) ∈ w.received → 1 ≤ m) :
    SocketInv w k { x with
      payloadQueue := x.payloadQueue ++ [.ready session s], session := some session, position := s.getD x.position } := by
  obtain ⟨hqueue, hhandler, hposition, hhandled⟩ := h.unbound hnone
  refine ⟨?_, fun hsession => (nomatch hsession), ?_, ?_, ?_, ?_, ?_, ?_, ?_, ?_, ?_⟩
  · exact h.hello_enqueue rfl rfl rfl (by simp [hidentified]) (by exact nofun)
  · intro session' s' hmem
    obtain hq | hq := List.mem_append.mp hmem
    · exact absurd (hqueue _ hq) (by simp [Payload.inSession])
    · obtain ⟨rfl, -⟩ := Payload.ready.inj (List.mem_singleton.mp hq)
      rfl
  · intro session' hsession
    obtain rfl := Option.some.inj hsession
    exact hbound
  · intro session' m hsession hm hmem
    obtain rfl := Option.some.inj hsession
    have hm' : m ≤ x.handled := hm
    have hle := hpositive m hmem
    omega
  · have hle : x.handled ≤ x.position := h.le
    obtain rfl | ⟨rfl, -⟩ := hnumber
    · exact hle
    · exact Nat.le_succ_of_le hle
  · intro session' hsession
    obtain rfl := Option.some.inj hsession
    obtain rfl | ⟨rfl, hmem⟩ := hnumber
    · exact .inl hposition
    · exact .inr hmem
  · exact fun s' hs' => absurd hs' (hhandler _)
  · intro haccept hk
    have hchain := h.chain haccept hk
    have hnumbers := numbers_enqueue x (.ready session s)
    obtain rfl | ⟨rfl, -⟩ := hnumber
    · simp only [Payload.number, Option.toList_none, List.append_nil] at hnumbers
      have hsame : { x with
          payloadQueue := x.payloadQueue ++ [Payload.ready session none], session := some session,
          position := Option.getD none x.position }.numbers = x.numbers := hnumbers
      rw [hsame]
      exact hchain
    · simp only [Payload.number, Option.toList_some] at hnumbers
      have hsame : { x with
          payloadQueue := x.payloadQueue ++ [Payload.ready session (some (x.position + 1))], session := some session,
          position := (some (x.position + 1)).getD x.position }.numbers = x.numbers ++ [x.position + 1] := hnumbers
      rw [hsame]
      exact hchain.snoc
  · intro session' hk _
    exact .inl (h.identify hk hnone (.inl hidentified))
  · exact fun _ hsession => (nomatch hsession)

theorem Inv.sessions (h : Inv w) : Inv { w with sessions := w.sessions + 1 } := by
  refine ⟨h.consecutive, ?_, ?_, h.safe, ?_⟩
  · exact fun session m hm => Nat.lt_succ_of_lt (h.made session m hm)
  · exact fun session hid => Nat.lt_succ_of_lt (h.sessionId session hid)
  · intro j z hz
    exact (h.sockets j z hz).mono (Nat.le_succ _) (fun _ hp => hp) (fun _ hp => hp) (fun _ _ hm => .inl hm)
      (fun hk => ⟨hk, .inl rfl⟩)

theorem Inv.message (h : Inv w) (hx : w.sockets[k]? = some x)
    (hmessage : w.message k x p = some w') : Inv w' := by
  have hsocket := h.sockets k x hx
  simp only [Shard.message] at hmessage
  split at hmessage
  · cases hmessage
  · have hplain : ∀ q : Payload, q.inSession = false → q ≠ .hello →
        Inv (w.update k { x with payloadQueue := x.payloadQueue ++ [q] }) := by
      intro q hq hhello
      apply h.update
      exact hsocket.enqueue hq (hsocket.hello_enqueue (x := { x with payloadQueue := x.payloadQueue ++ [q] }) rfl rfl rfl rfl hhello)
    have hbound : ∀ q : Payload, (∀ session' s, q ≠ .ready session' s) → q ≠ .hello →
        (x.session.bind fun session => match q.number with
          | none => some (w.update k { x with payloadQueue := x.payloadQueue ++ [q] })
          | some s =>
            if s = x.position + 1 then
              some { w.update k { x with payloadQueue := x.payloadQueue ++ [q], position := s } with
                received := w.received ++ [(session, s)] }
            else none) = some w' → Inv w' := by
      intro q hready hhello hq
      obtain ⟨session, hsession, hq⟩ := Option.bind_eq_some_iff.mp hq
      split at hq
      · rename_i hnumber
        obtain rfl := Option.some.inj hq
        exact h.update (hsocket.enqueueBound hsession hready hhello hnumber)
      · rename_i s hnumber
        split at hq
        · rename_i hs
          subst hs
          obtain rfl := Option.some.inj hq
          have hreceived := h.receive (hsocket.bound session hsession) (hsocket.known session hsession)
          exact hreceived.update ((hreceived.sockets k x hx).enqueueNumbered hsession hready hhello hnumber
            (List.mem_append_right _ (List.mem_singleton_self _)))
        · cases hq
    cases p with
    | hello =>
      simp only at hmessage
      split at hmessage
      · cases hmessage
      · rename_i hgreeted
        obtain rfl := Option.some.inj hmessage
        apply h.update
        apply hsocket.enqueue rfl
        have hhellos := hsocket.hello
        rw [if_neg hgreeted] at hhellos
        simp only [Socket.hellos] at hhellos
        rw [List.count_append, List.count_singleton, if_pos rfl, if_pos (by simp)]
        omega
    | ready session s =>
      simp only at hmessage
      split at hmessage
      · cases hmessage
      · rename_i hguard
        simp only [Bool.or_eq_true, decide_eq_true_eq, not_or, Bool.not_eq_true', Bool.not_eq_false,
          Classical.not_not, ne_eq] at hguard
        obtain ⟨⟨hidentified, hnone⟩, rfl⟩ := hguard
        obtain ⟨-, -, hposition, -⟩ := hsocket.unbound hnone
        have hpositive : ∀ m, (w.sessions, m) ∈ w.received → False :=
          fun m hm => absurd (h.made _ m hm) (Nat.lt_irrefl _)
        split at hmessage
        · obtain rfl := Option.some.inj hmessage
          apply h.sessions.update
          exact (h.sessions.sockets k x hx).enqueueReady hidentified hnone (Nat.lt_succ_self _) (.inl rfl)
            (fun m hm => (hpositive m hm).elim)
        · rename_i s
          split at hmessage
          · rename_i hs
            subst hs
            obtain rfl := Option.some.inj hmessage
            have hreceived := h.sessions.receive (p := x.position) (Nat.lt_succ_self w.sessions) (.inl hposition)
            apply hreceived.update
            apply (hreceived.sockets k x hx).enqueueReady hidentified hnone (Nat.lt_succ_self _)
              (.inr ⟨rfl, List.mem_append_right _ (List.mem_singleton_self _)⟩)
            exact fun m hm => (hreceived.consecutive _ m hm).1
          · cases hmessage
    | resumed s => exact hbound (.resumed s) (fun _ _ => nofun) (by exact nofun) hmessage
    | dispatch s => exact hbound (.dispatch s) (fun _ _ => nofun) (by exact nofun) hmessage
    | reconnect | invalidSession | malformed | other =>
      obtain rfl := Option.some.inj hmessage
      exact hplain _ rfl (by exact nofun)

theorem SocketInv.shrink (h : SocketInv w k x) (hsession : y.session = x.session) (hposition : y.position = x.position)
    (hhandled : y.handled = x.handled) (hidentified : y.identified = x.identified) (hgreeted : y.greeted = x.greeted)
    (hhandler : y.handler = x.handler ∨ y.handler = none) (hqueue : y.payloadQueue.Sublist x.payloadQueue)
    (hchain : y.acceptPayloads = true → w.socket = some k → Chain y.taken y.numbers y.position) :
    SocketInv w k y := by
  refine ⟨?_, ?_, ?_, ?_, ?_, ?_, ?_, ?_, hchain, ?_, ?_⟩
  · have hhellos := h.hello
    have hcount := hqueue.count_le Payload.hello
    have hgreeting : (if y.greeting then 1 else 0) ≤ (if x.greeting then 1 else 0) := by
      obtain hsame | hnone := hhandler
      · have hgreet : y.greeting = x.greeting := by rw [Socket.greeting, Socket.greeting, hsame]
        exact Nat.le_of_eq (by rw [hgreet])
      · have hfalse : y.greeting = false := by rw [Socket.greeting, hnone]
        rw [hfalse]
        exact Nat.zero_le _
    rw [Socket.hellos] at hhellos ⊢
    rw [hidentified, hsession, hgreeted]
    omega
  · intro hnone
    rw [hsession] at hnone
    obtain ⟨hall, hdispatch, hpos, hhand⟩ := h.unbound hnone
    refine ⟨fun p hp => hall p (hqueue.subset hp), ?_, hposition.trans hpos, hhandled.trans hhand⟩
    intro s hs
    obtain hsame | hnone := hhandler
    · exact hdispatch s (hsame.symm.trans hs)
    · rw [hnone] at hs
      cases hs
  · intro session s hmem
    rw [hsession]
    exact h.ready session s (hqueue.subset hmem)
  · rw [hsession]
    exact h.bound
  · rw [hsession, hhandled]
    exact h.done
  · rw [hhandled, hposition]
    exact h.le
  · rw [hsession, hposition]
    exact h.known
  · intro s hs
    obtain hsame | hnone := hhandler
    · rw [hhandled, hposition]
      exact h.running s (hsame.symm.trans hs)
    · rw [hnone] at hs
      cases hs
  · rw [hsession]
    exact h.current
  · intro hk hnone hidentify
    rw [hsession] at hnone
    rw [hidentified] at hidentify
    obtain hsame | hgone := hhandler
    · rw [hsame] at hidentify
      exact h.identify hk hnone hidentify
    · obtain hid | hid | hid := hidentify
      · exact h.identify hk hnone (.inl hid)
      · rw [hgone] at hid
        cases hid
      · rw [hgone] at hid
        cases hid

variable {rest : List Payload}

theorem numbers_cons (hqueue : x.payloadQueue = p :: rest) :
    x.numbers = p.number.toList ++ rest.filterMap Payload.number := by
  rw [Socket.numbers, hqueue]
  cases hp : p.number <;> simp [hp]

theorem SocketInv.pop (h : SocketInv w k x) (hqueue : x.payloadQueue = p :: rest)
    (hlive : x.acceptPayloads = true → w.socket = some k → p.number = none) :
    SocketInv w k { x with payloadQueue := rest } := by
  refine h.shrink (y := { x with payloadQueue := rest }) rfl rfl rfl rfl rfl (.inl rfl) ?_ ?_
  · rw [hqueue]
    exact List.sublist_cons_self p rest
  · intro haccept hk
    have hchain := h.chain haccept hk
    rw [numbers_cons hqueue, hlive haccept hk] at hchain
    exact hchain

theorem SocketInv.beginClose (h : SocketInv w k x) : SocketInv w k (Shard.beginClose x) :=
  h.shrink rfl rfl rfl rfl rfl (.inl rfl) (List.Sublist.refl _) h.chain

theorem SocketInv.refuse (h : SocketInv w k x) : SocketInv w k { x with acceptPayloads := false } :=
  h.shrink rfl rfl rfl rfl rfl (.inl rfl) (List.Sublist.refl _) (fun haccept => (nomatch haccept))

theorem Inv.complete (h : Inv w) (hx : w.sockets[k]? = some x) {session s : Nat} (hsession : x.session = some session)
    (hs : s = x.handled + 1) (hle : s ≤ x.position) {sessionId : Option Nat}
    (hid : sessionId = none ∨ sessionId = some session) (hcurrent : sessionId = w.sessionId ∨ w.socket = some k) :
    Inv ({ w with sessionId := sessionId }.complete x s) ∧ Exposes ({ w with sessionId := sessionId }.complete x s) session s := by
  have hsocket := h.sockets k x hx
  have hcompleted : ({ w with sessionId := sessionId }.complete x s).completed = w.completed ++ [(session, s)] := by
    simp only [Shard.complete, hsession]
  have hkept : ∀ p ∈ w.completed, p ∈ ({ w with sessionId := sessionId }.complete x s).completed := by
    intro p hp
    rw [hcompleted]
    exact List.mem_append_left _ hp
  have hexposes : Exposes ({ w with sessionId := sessionId }.complete x s) session s := by
    refine ⟨?_, ?_⟩
    · obtain hzero | hmem := hsocket.known session hsession
      · omega
      · exact (h.consecutive session _ hmem).2 s (by omega) hle
    · intro m hm hmem
      by_cases heq : m = s
      · rw [hcompleted, heq]
        exact List.mem_append_right _ (List.mem_singleton_self _)
      · exact hkept _ (hsocket.done session m hsession (by omega) hmem)
  refine ⟨⟨h.consecutive, h.made, ?_, ?_, ?_⟩, hexposes⟩
  · intro session' hid'
    have hid' : sessionId = some session' := hid'
    obtain rfl | rfl := hid
    · cases hid'
    · obtain rfl := Option.some.inj hid'
      exact hsocket.bound session hsession
  · intro session' n hid' hsequence
    have hid' : sessionId = some session' := hid'
    obtain rfl | rfl := hid
    · cases hid'
    · obtain rfl := Option.some.inj hid'
      obtain rfl := Option.some.inj hsequence
      exact hexposes
  · intro j z hz
    have hz : w.sockets[j]? = some z := hz
    by_cases hj : w.socket = some j ∧ sessionId ≠ w.sessionId
    · -- The session is set by a READY, on the current socket.
      obtain ⟨hj, hne⟩ := hj
      obtain rfl := Option.some.inj ((hcurrent.resolve_left hne).symm.trans hj)
      obtain rfl := Option.some.inj (hx.symm.trans hz)
      refine ⟨hsocket.hello, hsocket.unbound, hsocket.ready, hsocket.bound, ?_, hsocket.le, hsocket.known,
        hsocket.running, hsocket.chain, ?_, ?_⟩
      · exact fun session' m hs' hm hmem => hkept _ (hsocket.done session' m hs' hm hmem)
      · intro session' _ hs'
        obtain rfl := Option.some.inj (hsession.symm.trans hs')
        exact hid
      · intro _ hnone
        rw [hsession] at hnone
        cases hnone
    · refine (h.sockets j z hz).mono (Nat.le_refl _) (fun _ hp => hp) hkept (fun _ _ hm => .inl hm) ?_
      intro hk
      have hk : w.socket = some j := hk
      refine ⟨hk, .inl ?_⟩
      by_contra hne
      exact hj ⟨hk, hne⟩

theorem SocketInv.advance (h : SocketInv w k x) {session s : Nat} (hsession : x.session = some session)
    (hle : s ≤ x.position) (hexposes : Exposes w session s)
    (hqueue : rest.Sublist x.payloadQueue)
    (hchain : x.acceptPayloads = true → w.socket = some k → Chain s (rest.filterMap Payload.number) x.position) :
    SocketInv w k { x with handler := none, payloadQueue := rest, handled := s } := by
  refine ⟨?_, ?_, ?_, h.bound, ?_, hle, h.known, fun s hs => (nomatch hs), hchain, h.current, ?_⟩
  · have hhellos := h.hello
    have hcount := hqueue.count_le Payload.hello
    rw [Socket.hellos] at hhellos ⊢
    have hfalse : Socket.greeting { x with handler := none, payloadQueue := rest, handled := s } = false := rfl
    rw [hfalse]
    simp only [Bool.false_eq_true, ↓reduceIte]
    omega
  · intro hnone
    have hnone : x.session = none := hnone
    rw [hsession] at hnone
    cases hnone
  · exact fun session' s' hmem => h.ready session' s' (hqueue.subset hmem)
  · intro session' m hsession' hm hmem
    obtain rfl := Option.some.inj (hsession.symm.trans hsession')
    exact hexposes.2 m hm hmem
  · intro _ hnone
    have hnone : x.session = none := hnone
    rw [hsession] at hnone
    cases hnone

theorem Inv.quiet (h : Inv w) (heartbeat reconnect stopping : Bool) (sent : List Frame) :
    Inv { w with heartbeat := heartbeat, reconnect := reconnect, stopping := stopping, sent := sent } := by
  refine ⟨h.consecutive, h.made, h.sessionId, h.safe, ?_⟩
  intro j z hz
  exact (h.sockets j z hz).mono (Nat.le_refl _) (fun _ hp => hp) (fun _ hp => hp) (fun _ _ hm => .inl hm)
    (fun hk => ⟨hk, .inl rfl⟩)

theorem Inv.clearSession (h : Inv w) : Inv w.clearSession := by
  refine ⟨h.consecutive, h.made, fun _ hid => (nomatch hid), fun _ _ hid => (nomatch hid), ?_⟩
  intro j z hz
  exact (h.sockets j z hz).mono (Nat.le_refl _) (fun _ hp => hp) (fun _ hp => hp) (fun _ _ hm => .inl hm)
    (fun hk => ⟨hk, .inr rfl⟩)

theorem Inv.ready (h : Inv w) (hx : w.sockets[k]? = some x) (hk : w.socket = some k)
    (hsession : x.session = some session) (hsequence : w.sequence = none) :
    Inv { w with sessionId := some session } := by
  refine ⟨h.consecutive, h.made, ?_, ?_, ?_⟩
  · intro session' hid
    obtain rfl := Option.some.inj hid
    exact (h.sockets k x hx).bound session hsession
  · intro session' n _ hn
    have hn : w.sequence = some n := hn
    rw [hsequence] at hn
    cases hn
  · intro j z hz
    have hz : w.sockets[j]? = some z := hz
    have hsocket := h.sockets j z hz
    by_cases hj : j = k
    · subst hj
      obtain rfl := Option.some.inj (hx.symm.trans hz)
      refine ⟨hsocket.hello, hsocket.unbound, hsocket.ready, hsocket.bound, hsocket.done, hsocket.le, hsocket.known,
        hsocket.running, hsocket.chain, ?_, ?_⟩
      · intro session' _ hs'
        exact .inr (hsession.symm.trans hs')
      · intro _ hnone
        rw [hsession] at hnone
        cases hnone
    · refine hsocket.mono (Nat.le_refl _) (fun _ hp => hp) (fun _ hp => hp) (fun _ _ hm => .inl hm) ?_
      intro hj'
      exact absurd (Option.some.inj (hj'.symm.trans hk)) hj

theorem SocketInv.greet (h : SocketInv w k x) (hqueue : x.payloadQueue = .hello :: rest)
    (hhandler : x.handler = none) {handler : Handler}
    (hgreet : handler = .getToken true ∨ handler = .acquire ∧ w.sessionId = none) :
    SocketInv w k { x with payloadQueue := rest, handler := some handler } := by
  have hdispatch : ∀ s, handler ≠ .dispatch s := by
    obtain rfl | ⟨rfl, -⟩ := hgreet <;> exact nofun
  have htaken : Socket.taken { x with payloadQueue := rest, handler := some handler } = x.taken := by
    rw [Socket.taken, Socket.taken, hhandler]
    obtain rfl | ⟨rfl, -⟩ := hgreet <;> rfl
  have hpop := h.pop hqueue (fun _ _ => rfl)
  refine ⟨?_, ?_, hpop.ready, h.bound, h.done, h.le, h.known, ?_, ?_, h.current, ?_⟩
  · have hhellos := h.hello
    have hgreeting : Socket.greeting { x with payloadQueue := rest, handler := some handler } = true := by
      obtain rfl | ⟨rfl, -⟩ := hgreet <;> rfl
    have hwas : x.greeting = false := by rw [Socket.greeting, hhandler]
    rw [Socket.hellos, hqueue, List.count_cons_self, hwas] at hhellos
    rw [Socket.hellos, hgreeting]
    simp only [Bool.false_eq_true, ↓reduceIte] at hhellos ⊢
    omega
  · intro hnone
    obtain ⟨hall, -, hpos, hhand⟩ := hpop.unbound hnone
    exact ⟨hall, fun s hs => hdispatch s (Option.some.inj hs), hpos, hhand⟩
  · exact fun s hs => absurd (Option.some.inj hs) (hdispatch _)
  · intro haccept hk
    have hchain := hpop.chain haccept hk
    rw [htaken]
    have htaken : Socket.taken { x with payloadQueue := rest } = x.taken := rfl
    rwa [htaken] at hchain
  · intro hk hnone hidentify
    obtain rfl | ⟨-, hid⟩ := hgreet
    · obtain hid | hid | hid := hidentify
      · exact h.identify hk hnone (.inl hid)
      · cases hid
      · cases hid
    · exact hid

theorem SocketInv.next (h : SocketInv w k x) (hqueue : x.payloadQueue = p :: rest)
    (hhandler : x.handler = none) (haccept : x.acceptPayloads = true) (hk : w.socket = some k) {s : Nat}
    (hnumber : p.number = some s) :
    s = x.handled + 1 ∧ s ≤ x.position ∧ Chain s (rest.filterMap Payload.number) x.position := by
  have hchain := h.chain haccept hk
  have htaken : x.taken = x.handled := by rw [Socket.taken, hhandler]
  rw [numbers_cons hqueue, hnumber, htaken] at hchain
  obtain ⟨hs, hrest⟩ := hchain
  exact ⟨hs, hrest.le, hrest⟩

theorem SocketInv.begin (h : SocketInv w k x) {s : Option Nat}
    (hqueue : x.payloadQueue = .dispatch s :: rest) (hhandler : x.handler = none)
    (haccept : x.acceptPayloads = true) (hk : w.socket = some k) :
    SocketInv w k { x with payloadQueue := rest, handler := some (.dispatch s) } := by
  have hmem : Payload.dispatch s ∈ x.payloadQueue := by
    rw [hqueue]
    exact List.mem_cons_self
  refine ⟨?_, ?_, ?_, h.bound, h.done, h.le, h.known, ?_, ?_, h.current, ?_⟩
  · have hhellos := h.hello
    have hwas : x.greeting = false := by rw [Socket.greeting, hhandler]
    rw [Socket.hellos, hqueue, hwas, List.count_cons_of_ne (by exact nofun)] at hhellos
    exact hhellos
  · intro hnone
    exact absurd ((h.unbound hnone).1 _ hmem) (by simp [Payload.inSession])
  · intro session s' hs'
    apply h.ready session s'
    rw [hqueue]
    exact List.mem_cons_of_mem _ hs'
  · intro n hn
    obtain rfl := Handler.dispatch.inj (Option.some.inj hn)
    obtain ⟨hs, hle, -⟩ := h.next hqueue hhandler haccept hk rfl
    exact ⟨hs, hle⟩
  · intro _ _
    cases s with
    | none =>
      have hchain := h.chain haccept hk
      have htaken : x.taken = x.handled := by rw [Socket.taken, hhandler]
      rw [numbers_cons hqueue, htaken] at hchain
      exact hchain
    | some s => exact (h.next hqueue hhandler haccept hk rfl).2.2
  · intro hk' hnone hidentify
    apply h.identify hk' hnone
    obtain hid | hid | hid := hidentify
    · exact .inl hid
    · cases hid
    · cases hid

theorem SocketInv.inSession (h : SocketInv w k x) (hmem : p ∈ x.payloadQueue)
    (hp : p.inSession = true) : ∃ session, x.session = some session := by
  cases hsession : x.session with
  | none =>
    have hfalse := (h.unbound hsession).1 p hmem
    rw [hp] at hfalse
    cases hfalse
  | some session => exact ⟨session, rfl⟩

theorem Inv.handled (h : Inv w) (hx : w.sockets[k]? = some x)
    (hqueue : x.payloadQueue = p :: rest) (hhandler : x.handler = none) (haccept : x.acceptPayloads = true)
    (hk : w.socket = some k) {session s : Nat} (hsession : x.session = some session) (hnumber : p.number = some s)
    {sessionId : Option Nat} (hid : sessionId = none ∨ sessionId = some session) :
    Inv (({ w with sessionId := sessionId }.complete x s).update k { x with payloadQueue := rest, handled := s }) := by
  obtain ⟨hs, hle, hchain⟩ := (h.sockets k x hx).next hqueue hhandler haccept hk hnumber
  obtain ⟨hinv, hexposes⟩ := h.complete hx hsession hs hle hid (.inr hk)
  apply hinv.update
  have hsub : rest.Sublist x.payloadQueue := by
    rw [hqueue]
    exact List.sublist_cons_self p rest
  have hadvance := (hinv.sockets k x hx).advance hsession hle hexposes hsub (fun _ _ => hchain)
  rwa [← hhandler] at hadvance

theorem Inv.handleGatewayPayload (h : Inv w) (hx : w.sockets[k]? = some x)
    (hqueue : x.payloadQueue = p :: rest) (hhandler : x.handler = none) (haccept : x.acceptPayloads = true)
    (hk : w.socket = some k) (hready : ∀ session, p = .ready session none → w.sequence = none) :
    Inv (w.handleGatewayPayload k { x with payloadQueue := rest } p) := by
  have hsocket := h.sockets k x hx
  have hmem : p ∈ x.payloadQueue := by
    rw [hqueue]
    exact List.mem_cons_self
  have hpop : p.number = none → SocketInv w k { x with payloadQueue := rest } :=
    fun hnumber => hsocket.pop hqueue (fun _ _ => hnumber)
  cases p with
  | hello =>
    simp only [Shard.handleGatewayPayload]
    have hbeat := h.quiet true w.reconnect w.stopping w.sent
    split
    · split
      · exact hbeat.update ((hbeat.sockets k x hx).pop hqueue (fun _ _ => rfl))
      · exact hbeat.update ((hbeat.sockets k x hx).greet hqueue hhandler (.inl rfl))
    · rename_i hid
      rw [Option.not_isSome_iff_eq_none] at hid
      exact hbeat.update ((hbeat.sockets k x hx).greet hqueue hhandler (.inr ⟨rfl, hid⟩))
  | reconnect => exact h.update (hpop rfl).beginClose
  | invalidSession =>
    have hclear := h.clearSession
    exact hclear.update ((hclear.sockets k x hx).pop hqueue (fun _ _ => rfl)).beginClose
  | ready session s =>
    have hsession := hsocket.ready session s hmem
    cases s with
    | none =>
      have hset := h.ready hx hk hsession (hready session rfl)
      exact hset.update ((hset.sockets k x hx).pop hqueue (fun _ _ => rfl))
    | some s => exact h.handled hx hqueue hhandler haccept hk hsession rfl (.inr rfl)
  | resumed s =>
    obtain ⟨session, hsession⟩ := hsocket.inSession hmem rfl
    cases s with
    | none => exact h.update (hpop rfl)
    | some s => exact h.handled hx hqueue hhandler haccept hk hsession rfl (hsocket.current session hk hsession)
  | dispatch s => exact h.update (hsocket.begin hqueue hhandler haccept hk)
  | malformed => exact h.update (hpop rfl).beginClose.refuse
  | other => exact h.update (hpop rfl)

theorem Inv.dequeue (h : Inv w) (hx : w.sockets[k]? = some x) (hdequeue : w.dequeue k x = some w')
    (hallowed : allowed w (.dequeue k) = true) : Inv w' := by
  simp only [Shard.dequeue] at hdequeue
  split at hdequeue
  · rename_i p rest hhandler hqueue
    split at hdequeue
    · rename_i hdead
      obtain rfl := Option.some.inj hdequeue
      apply h.update
      apply (h.sockets k x hx).pop hqueue
      intro haccept hk
      simp [haccept, hk] at hdead
    · rename_i hlive
      obtain rfl := Option.some.inj hdequeue
      simp only [Bool.or_eq_true, Bool.not_eq_true', decide_eq_true_eq, not_or, Bool.not_eq_false,
        Classical.not_not, ne_eq] at hlive
      obtain ⟨haccept, hk⟩ := hlive
      apply h.handleGatewayPayload hx hqueue hhandler haccept hk
      rintro session rfl
      simpa [allowed, hx, hqueue, hhandler, haccept, hk] using hallowed
  · cases hdequeue

theorem numbers_of_all {l : List Payload} (h : ∀ p ∈ l, p.inSession = false) : l.filterMap Payload.number = [] := by
  rw [List.filterMap_eq_nil_iff]
  intro p hp
  have hp := h p hp
  cases p <;> first | rfl | cases hp

theorem SocketInv.count_greeting (h : SocketInv w k x) (hgreeting : x.greeting = true) :
    x.greeted = true ∧ x.identified = false ∧ x.session = none := by
  have hhellos := h.hello
  rw [Socket.hellos, hgreeting] at hhellos
  cases hgreeted : x.greeted with
  | false =>
    rw [hgreeted] at hhellos
    simp only [↓reduceIte, Bool.false_eq_true] at hhellos
    omega
  | true =>
    cases hanswered : x.identified || x.session.isSome with
    | true =>
      rw [hgreeted, hanswered] at hhellos
      simp only [↓reduceIte] at hhellos
      omega
    | false =>
      rw [Bool.or_eq_false_iff] at hanswered
      exact ⟨rfl, hanswered.1, by simpa using hanswered.2⟩

theorem SocketInv.leave (h : SocketInv w k x) (htaken : x.taken = x.handled) :
    SocketInv w k { x with handler := none } := by
  refine h.shrink (y := { x with handler := none }) rfl rfl rfl rfl rfl (.inr rfl) (List.Sublist.refl _) ?_
  intro haccept hk
  have hchain := h.chain haccept hk
  rwa [htaken] at hchain

theorem SocketInv.bind (h : SocketInv w k x) (hinv : Inv w) (hgreeting : x.greeting = true)
    (hid : w.sessionId = some session) :
    SocketInv w k { x with
      handler := none, session := w.sessionId, position := w.sequence.getD 0, handled := w.sequence.getD 0 } := by
  obtain ⟨hgreeted, hidentified, hnone⟩ := h.count_greeting hgreeting
  obtain ⟨hall, -⟩ := h.unbound hnone
  have hcount : x.payloadQueue.count .hello = 0 := by
    have hhellos := h.hello
    rw [Socket.hellos, hgreeting, hgreeted] at hhellos
    simp only [↓reduceIte] at hhellos
    omega
  rw [hid]
  refine ⟨?_, fun hnone => (nomatch hnone), ?_, ?_, ?_, Nat.le_refl _, ?_, fun s hs => (nomatch hs), ?_, ?_, ?_⟩
  · rw [hgreeted, Socket.hellos, hcount, Socket.greeting]
    simp
  · intro session' s hmem
    have hfalse := hall _ hmem
    cases hfalse
  · intro session' hsession'
    obtain rfl := Option.some.inj hsession'
    exact hinv.sessionId session hid
  · intro session' m hsession' hm hmem
    obtain rfl := Option.some.inj hsession'
    cases hsequence : w.sequence with
    | none =>
      have hpos := (hinv.consecutive session m hmem).1
      rw [hsequence] at hm
      have hm : m ≤ 0 := hm
      omega
    | some n =>
      rw [hsequence] at hm
      exact (hinv.safe session n hid hsequence).2 m hm hmem
  · intro session' hsession'
    obtain rfl := Option.some.inj hsession'
    cases hsequence : w.sequence with
    | none => exact .inl rfl
    | some n => exact .inr (hinv.safe session n hid hsequence).1
  · intro _ _
    have hnumbers : Socket.numbers { x with
        handler := none, session := some session, position := w.sequence.getD 0, handled := w.sequence.getD 0 } = [] :=
      numbers_of_all hall
    rw [hnumbers]
    rfl
  · intro session' _ hsession'
    exact .inr (hid.trans hsession')
  · exact fun _ hnone => (nomatch hnone)

theorem SocketInv.taken_greeting {handler : Handler} (hx : x.handler = some handler)
    (hgreet : ∀ s, handler ≠ .dispatch s) : x.taken = x.handled ∧ x.greeting = true := by
  rw [Socket.taken, Socket.greeting, hx]
  cases handler with
  | acquire | getToken shouldResume => exact ⟨rfl, rfl⟩
  | dispatch s => exact absurd rfl (hgreet s)

theorem Inv.answerHello (h : Inv w) (hx : w.sockets[k]? = some x) {shouldResume : Bool}
    (hhandler : x.handler = some (.getToken shouldResume)) : Inv (w.answerHello k x shouldResume) := by
  obtain ⟨htaken, hgreeting⟩ := SocketInv.taken_greeting hhandler (fun _ => nofun)
  have hsent : ∀ frame, Inv (w.send frame) :=
    fun frame => h.quiet w.heartbeat w.reconnect w.stopping (w.sent ++ [frame])
  simp only [Shard.answerHello]
  split
  · rename_i hlive
    rw [Bool.and_eq_true, decide_eq_true_eq, decide_eq_true_eq] at hlive
    cases shouldResume with
    | true =>
      simp only [↓reduceIte]
      apply (hsent _).update
      split
      · rename_i hid
        obtain ⟨session, hid⟩ := Option.isSome_iff_exists.mp hid
        exact ((hsent _).sockets k x hx).bind (hsent _) hgreeting hid
      · exact ((hsent _).sockets k x hx).leave htaken
    | false =>
      simp only [Bool.false_eq_true, ↓reduceIte]
      have hsocket := (hsent .identify).sockets k x hx
      have hleave := hsocket.leave htaken
      have hid : x.session = none → w.sessionId = none :=
        fun hnone => hsocket.identify hlive.1 hnone (.inr (.inr hhandler))
      apply (hsent _).update
      refine ⟨?_, hleave.unbound, hleave.ready, hleave.bound, hleave.done, hleave.le, hleave.known, hleave.running,
        hleave.chain, hleave.current, fun _ hnone _ => hid hnone⟩
      have hhellos := hsocket.hello
      obtain ⟨-, hidentified, hnone⟩ := hsocket.count_greeting hgreeting
      rw [Socket.hellos, hgreeting, hidentified, hnone] at hhellos
      rw [Socket.hellos, hnone, Socket.greeting]
      simpa using hhellos
  · exact h.update ((h.sockets k x hx).leave htaken)

theorem Inv.reject (h : Inv w) (hx : w.sockets[k]? = some x) : Inv (w.reject k x) := by
  have hrejected : SocketInv w k { x with handler := none, acceptPayloads := false } :=
    (h.sockets k x hx).shrink (y := { x with handler := none, acceptPayloads := false }) rfl rfl rfl rfl rfl
      (.inr rfl) (List.Sublist.refl _) (fun haccept => (nomatch haccept))
  apply h.update
  split
  · exact hrejected.beginClose
  · exact hrejected

theorem Inv.act {resolves : Bool} (h : Inv w) (hx : w.sockets[k]? = some x) (hact : w.act k x resolves = some w')
    (hallowed : allowed w (.act k resolves) = true) : Inv w' := by
  have hsocket := h.sockets k x hx
  simp only [Shard.act] at hact
  cases hhandler : x.handler with
  | none =>
    rw [hhandler] at hact
    cases hact
  | some handler =>
    rw [hhandler] at hact
    cases handler with
    | acquire =>
      obtain ⟨htaken, hgreeting⟩ := SocketInv.taken_greeting hhandler (fun _ => nofun)
      simp only at hact
      split at hact
      · obtain rfl := Option.some.inj hact
        exact h.update (hsocket.leave htaken)
      · obtain rfl := Option.some.inj hact
        apply h.update
        refine ⟨?_, ?_, hsocket.ready, hsocket.bound, hsocket.done, hsocket.le, hsocket.known, fun s hs => (nomatch hs),
          ?_, hsocket.current, fun hk hnone _ => hsocket.identify hk hnone (.inr (.inl hhandler))⟩
        · have hhellos := hsocket.hello
          rw [Socket.hellos, hgreeting] at hhellos
          exact hhellos
        · intro hnone
          obtain ⟨hall, -, hrest⟩ := hsocket.unbound hnone
          exact ⟨hall, fun s hs => (nomatch hs), hrest⟩
        · intro haccept hk
          have hchain := hsocket.chain haccept hk
          rw [htaken] at hchain
          exact hchain
    | getToken shouldResume =>
      obtain rfl := Option.some.inj hact
      cases resolves with
      | true => exact h.answerHello hx hhandler
      | false => exact h.reject hx
    | dispatch s =>
      obtain rfl := Option.some.inj hact
      cases resolves with
      | false => exact h.reject hx
      | true =>
        cases s with
        | none =>
          exact h.update (hsocket.leave (by rw [Socket.taken, hhandler]))
        | some s =>
          obtain ⟨hs, hle⟩ := hsocket.running s hhandler
          have htaken : x.taken = s := by rw [Socket.taken, hhandler]
          have hbound : x.session ≠ none := fun hnone => (hsocket.unbound hnone).2.1 _ hhandler
          obtain ⟨session, hsession⟩ := Option.ne_none_iff_exists'.mp hbound
          have hid : w.sessionId = none ∨ w.sessionId = some session := by
            simpa [allowed, hx, hhandler, hsession] using hallowed
          obtain ⟨hinv, hexposes⟩ := h.complete hx hsession hs hle hid (.inl rfl)
          apply hinv.update
          apply (hinv.sockets k x hx).advance hsession hle hexposes (List.Sublist.refl _)
          intro haccept hk
          have hchain := hsocket.chain haccept hk
          rwa [htaken] at hchain

theorem SocketInv.closed (h : SocketInv w k x) (acceptPayloads : Bool)
    (haccept : acceptPayloads = true → x.acceptPayloads = true) :
    SocketInv w k { x with readyState := .closed, acceptPayloads := acceptPayloads } :=
  h.shrink rfl rfl rfl rfl rfl (.inl rfl) (List.Sublist.refl _) (fun hy => h.chain (haccept hy))

theorem Inv.close {code : Nat} (h : Inv w) (hx : w.sockets[k]? = some x) (hclose : w.close k x code = some w') :
    Inv w' := by
  simp only [Shard.close] at hclose
  split at hclose
  · cases hclose
  · split at hclose
    · obtain rfl := Option.some.inj hclose
      exact h.update ((h.sockets k x hx).closed x.acceptPayloads id)
    · obtain rfl := Option.some.inj hclose
      have hquiet := h.quiet false (!w.stopping) w.stopping w.sent
      split
      · exact hquiet.clearSession.update ((hquiet.clearSession.sockets k x hx).closed false (fun hf => (nomatch hf)))
      · exact hquiet.update ((hquiet.sockets k x hx).closed false (fun hf => (nomatch hf)))

theorem Inv.beat (h : Inv w) (hbeat : w.beat = some w') : Inv w' := by
  simp only [Shard.beat] at hbeat
  split at hbeat
  · split at hbeat
    · obtain rfl := Option.some.inj hbeat
      exact h.quiet w.heartbeat w.reconnect w.stopping _
    · cases hbeat
  · cases hbeat

theorem Inv.stop (h : Inv w) : Inv w.stop := by
  have hquiet := h.quiet false false true w.sent
  simp only [Shard.stop]
  split
  · rename_i k _
    cases hx : w.sockets[k]? with
    | none =>
      rwa [List.modify_eq_self (List.getElem?_eq_none_iff.mp hx)]
    | some x =>
      have hset : w.sockets.modify k Shard.beginClose = w.sockets.set k (Shard.beginClose x) := by
        rw [List.modify_eq_set_getElem?, hx]
        rfl
      rw [hset]
      exact hquiet.update (hquiet.sockets k x hx).beginClose
  · exact hquiet

theorem inv_step {e : Event} (h : Inv w) (hallowed : allowed w e = true) (hstep : step w e = some w') : Inv w' := by
  cases e with
  | connect => exact h.connect hstep
  | message k payload =>
    obtain ⟨x, hx, hmessage⟩ := Option.bind_eq_some_iff.mp hstep
    exact h.message hx hmessage
  | dequeue k =>
    obtain ⟨x, hx, hdequeue⟩ := Option.bind_eq_some_iff.mp hstep
    exact h.dequeue hx hdequeue hallowed
  | act k resolves =>
    obtain ⟨x, hx, hact⟩ := Option.bind_eq_some_iff.mp hstep
    exact h.act hx hact hallowed
  | close k code =>
    obtain ⟨x, hx, hclose⟩ := Option.bind_eq_some_iff.mp hstep
    exact h.close hx hclose
  | beat => exact h.beat hstep
  | stop =>
    obtain rfl := Option.some.inj hstep
    exact h.stop

theorem inv_initial : Inv {} := by
  refine ⟨?_, ?_, ?_, ?_, ?_⟩ <;> simp

@[simp] theorem update_sent : (w.update k x).sent = w.sent := rfl

theorem message_sent (hmessage : w.message k x p = some w') : w'.sent = w.sent := by
  simp only [Shard.message] at hmessage
  split at hmessage
  · cases hmessage
  · have hbound : ∀ q : Payload, (x.session.bind fun session => match q.number with
          | none => some (w.update k { x with payloadQueue := x.payloadQueue ++ [p] })
          | some s =>
            if s = x.position + 1 then
              some { w.update k { x with payloadQueue := x.payloadQueue ++ [p], position := s } with
                received := w.received ++ [(session, s)] }
            else none) = some w' → w'.sent = w.sent := by
      intro q hq
      obtain ⟨session, -, hq⟩ := Option.bind_eq_some_iff.mp hq
      split at hq
      · obtain rfl := Option.some.inj hq
        rfl
      · split at hq
        · obtain rfl := Option.some.inj hq
          rfl
        · cases hq
    cases p with
    | hello =>
      simp only at hmessage
      split at hmessage
      · cases hmessage
      · obtain rfl := Option.some.inj hmessage
        rfl
    | ready session s =>
      simp only at hmessage
      split at hmessage
      · cases hmessage
      · split at hmessage
        · obtain rfl := Option.some.inj hmessage
          rfl
        · split at hmessage
          · obtain rfl := Option.some.inj hmessage
            rfl
          · cases hmessage
    | resumed s => exact hbound (.resumed s) hmessage
    | dispatch s => exact hbound (.dispatch s) hmessage
    | reconnect | invalidSession | malformed | other =>
      obtain rfl := Option.some.inj hmessage
      rfl

theorem handleGatewayPayload_sent : (w.handleGatewayPayload k x p).sent = w.sent := by
  cases p with
  | hello =>
    simp only [Shard.handleGatewayPayload]
    split
    · split <;> rfl
    · rfl
  | ready session s | resumed s => cases s <;> rfl
  | reconnect | invalidSession | dispatch s | malformed | other => rfl

theorem step_sent {e : Event} (hstep : step w e = some w') : w'.sent = w.sent ∨ ∃ frame, w'.sent = w.sent ++ [frame] ∧
      (frame = .identify ∨ frame = .resume w.sessionId w.sequence ∨ frame = .heartbeat w.sessionId w.sequence) := by
  cases e with
  | connect =>
    simp only [step, Shard.connectShard] at hstep
    split at hstep
    · cases hstep
    · obtain rfl := Option.some.inj hstep
      exact .inl rfl
  | message k payload =>
    obtain ⟨x, -, hmessage⟩ := Option.bind_eq_some_iff.mp hstep
    exact .inl (message_sent hmessage)
  | dequeue k =>
    obtain ⟨x, -, hdequeue⟩ := Option.bind_eq_some_iff.mp hstep
    simp only [Shard.dequeue] at hdequeue
    split at hdequeue
    · split at hdequeue
      · obtain rfl := Option.some.inj hdequeue
        exact .inl rfl
      · obtain rfl := Option.some.inj hdequeue
        exact .inl handleGatewayPayload_sent
    · cases hdequeue
  | act k resolves =>
    obtain ⟨x, -, hact⟩ := Option.bind_eq_some_iff.mp hstep
    simp only [Shard.act] at hact
    split at hact
    · split at hact <;> obtain rfl := Option.some.inj hact <;> exact .inl rfl
    · rename_i shouldResume _
      obtain rfl := Option.some.inj hact
      split
      · simp only [Shard.answerHello]
        split
        · split
          · exact .inr ⟨_, rfl, .inr (.inl rfl)⟩
          · exact .inr ⟨_, rfl, .inl rfl⟩
        · exact .inl rfl
      · exact .inl rfl
    · obtain rfl := Option.some.inj hact
      split
      · split <;> exact .inl rfl
      · exact .inl rfl
    · cases hact
  | close k code =>
    obtain ⟨x, -, hclose⟩ := Option.bind_eq_some_iff.mp hstep
    simp only [Shard.close] at hclose
    split at hclose
    · cases hclose
    · split at hclose
      · obtain rfl := Option.some.inj hclose
        exact .inl rfl
      · obtain rfl := Option.some.inj hclose
        split <;> exact .inl rfl
  | beat =>
    simp only [step, Shard.beat] at hstep
    split at hstep
    · split at hstep
      · obtain rfl := Option.some.inj hstep
        exact .inr ⟨_, rfl, .inr (.inr rfl)⟩
      · cases hstep
    · cases hstep
  | stop =>
    obtain rfl := Option.some.inj hstep
    simp only [Shard.stop]
    split <;> exact .inl rfl

end Invariant

/-- A Resume or a heartbeat of a session names a number of this session, and everything up to it that
the shard received has been handled. -/
theorem qq_resume_skips_no_message {es : List Event} {w w' : Shard} {e : Event} {session n : Nat} {frame : Frame}
    (h : Runs step (fun w e => allowed w e = true) {} es w) (hstep : step w e = some w')
    (hsent : frame ∈ w'.sent.drop w.sent.length)
    (hframe : frame = .resume (some session) (some n) ∨ frame = .heartbeat (some session) (some n)) :
    Exposes w session n := by
  have hinv : Inv w :=
    h.invariant (I := Inv) (fun _ _ _ hallowed hinv hstep => inv_step hinv hallowed hstep) inv_initial
  obtain hsame | ⟨sent, hnew, hnamed⟩ := step_sent hstep
  · rw [hsame, List.drop_length] at hsent
    cases hsent
  · rw [hnew, List.drop_left, List.mem_singleton] at hsent
    subst hsent
    have hshard : w.sessionId = some session ∧ w.sequence = some n := by
      obtain rfl | rfl | rfl := hnamed
      · simp at hframe
      · simpa using hframe
      · simpa using hframe
    exact hinv.safe session n hshard.1 hshard.2

/-- Socket `k` connects and says hello. -/
def greet (k : Nat) : List Event := [.connect, .message k .hello, .dequeue k]

/-- Socket `k` identifies, and gets the READY of the session. -/
def identify (k session : Nat) : List Event :=
  greet k ++ [.act k true, .act k true, .message k (.ready session (some 1)), .dequeue k]

theorem qq_resume_skips_no_message_failed : ∃ w w', run step {} (identify 0 0 ++
      [.message 0 (.dispatch (some 2)), .message 0 (.dispatch (some 3)), .dequeue 0, .act 0 true, .dequeue 0,
        .act 0 false, .close 0 1006] ++ greet 1) = some w ∧
    step w (.act 1 true) = some w' ∧ w'.sent = [.identify, .resume (some 0) (some 2)] ∧ Exposes w 0 2 := by
  obtain ⟨w, hw, hsent⟩ : ∃ w, run (guarded step fun w e => allowed w e = true) {} (identify 0 0 ++
      [.message 0 (.dispatch (some 2)), .message 0 (.dispatch (some 3)), .dequeue 0, .act 0 true, .dequeue 0,
        .act 0 false, .close 0 1006] ++ greet 1) = some w ∧
      (w.sent = [.identify] ∧ (step w (.act 1 true)).any fun w' =>
        w'.sent = [.identify, .resume (some 0) (some 2)]) := exists_of_run_any (by decide +kernel)
  obtain ⟨hbefore, hsent⟩ := hsent
  obtain ⟨w', hstep, hsent⟩ := (Option.any_eq_true _ _).mp hsent
  have hruns := Runs.of_guarded hw
  rw [decide_eq_true_eq] at hsent
  have hframe : Frame.resume (some 0) (some 2) ∈ w'.sent.drop w.sent.length := by
    rw [hsent, hbefore]
    exact List.mem_cons_self
  exact ⟨w, w', hruns.toRun, hstep, hsent, qq_resume_skips_no_message hruns hstep hframe (.inl rfl)⟩

theorem qq_resume_skips_a_message : ∃ es w w', run step {} es = some w ∧ step w (.act 2 true) = some w' ∧
    w'.sent.drop w.sent.length = [.resume (some 1) (some 2)] ∧ ¬ Exposes w 1 2 := by
  obtain ⟨w, hw, hsent, hnone⟩ : ∃ w, run step {} (identify 0 0 ++
      [.message 0 (.dispatch (some 2)), .dequeue 0, .close 0 4006] ++ identify 1 1 ++
      [.act 0 true, .close 1 1006] ++ greet 2) = some w ∧
      (((step w (.act 2 true)).any fun w' => w'.sent.drop w.sent.length = [.resume (some 1) (some 2)]) = true ∧
        (1, 2) ∉ w.received) := exists_of_run_any (by decide +kernel)
  obtain ⟨w', hstep, hsent⟩ := (Option.any_eq_true _ _).mp hsent
  exact ⟨_, w, w', hw, hstep, by simpa using hsent, fun h => hnone h.1⟩

end A2Wave.QQShard
