import A2Wave.Lib.Transition

/-! `db/transaction.ts` on SQLite: one connection, one lock, and asynchronous callbacks that
yield at every statement.  Everything that the other modules treat as one transaction goes
through here. -/

universe u v

namespace A2Wave.Transaction

open Transition

/-- An asynchronous callback.  A statement runs to completion on the connection when it is
awaited; what follows may depend on the state it ran in.  Calls that the callback makes from
its own context join its transaction, so their statements are its own. -/
inductive Callback (σ : Type u) (ε α : Type v)
  | settle (result : Except ε α)
  | statement (f : σ → σ) (next : σ → Callback σ ε α)

inductive Kind
  | withTransaction
  | runExclusive
  deriving DecidableEq, Repr

structure Call (σ : Type u) (ε α : Type v) where
  kind : Kind
  fn : Callback σ ε α

/-- The task that holds the lock.  A transaction is open exactly while a `withTransaction`
holds it, and its statements see the working copy. -/
inductive Holder (σ : Type u) (ε α : Type v)
  | transaction (c : Call σ ε α) (working : σ) (rest : Callback σ ε α)
  | exclusive (c : Call σ ε α) (rest : Callback σ ε α)

structure Connection (σ : Type u) (ε α : Type v) where
  committed : σ
  holder : Option (Holder σ ε α) := none
  chain : List (Call σ ε α) := []
  joined : List (Call σ ε α × Callback σ ε α) := []
  settled : List (Call σ ε α × Except ε α) := []

inductive Event (σ : Type u) (ε α : Type v)
  | call (c : Call σ ε α)
  | enter
  | advance
  | advanceJoined (i : Nat)

section Step

variable {σ : Type u} {ε α : Type v}

def Callback.exec : Callback σ ε α → σ → σ × Except ε α
  | settle result, s => (s, result)
  | statement f next, s => (next s).exec (f s)

namespace Connection

variable (s : Connection σ ε α)

def inTransaction : Bool :=
  match s.holder with
  | some (.transaction _ _ _) => true
  | _ => false

def arrive (c : Call σ ε α) : Connection σ ε α :=
  if c.kind = .withTransaction && s.inTransaction then
    { s with joined := s.joined ++ [(c, c.fn)] }
  else { s with chain := s.chain ++ [c] }

def enter : Option (Connection σ ε α) :=
  match s.holder, s.chain with
  | none, c :: chain =>
    let holder := match c.kind with
      | .withTransaction => Holder.transaction c s.committed c.fn
      | .runExclusive => Holder.exclusive c c.fn
    some { s with holder := some holder, chain := chain }
  | _, _ => none

def release (c : Call σ ε α) (result : Except ε α) (committed : σ) : Connection σ ε α :=
  { s with committed := committed, holder := none, settled := s.settled ++ [(c, result)] }

/-- The next action of the task that holds the lock: a statement, `COMMIT` or `ROLLBACK`. -/
def advance : Option (Connection σ ε α) :=
  match s.holder with
  | none => none
  | some (.transaction c working (.statement f next)) =>
    some { s with holder := some (.transaction c (f working) (next working)) }
  | some (.transaction c working (.settle (.ok v))) => some (s.release c (.ok v) working)
  | some (.transaction c _ (.settle (.error e))) => some (s.release c (.error e) s.committed)
  | some (.exclusive c (.statement f next)) =>
    some { s with committed := f s.committed, holder := some (.exclusive c (next s.committed)) }
  | some (.exclusive c (.settle result)) => some (s.release c result s.committed)

/-- The next action of a joined call: its statements land in whatever transaction is open,
and commit by themselves when none is. -/
def advanceJoined (i : Nat) : Option (Connection σ ε α) :=
  match s.joined[i]? with
  | none => none
  | some (c, .settle result) =>
    some { s with joined := s.joined.eraseIdx i, settled := s.settled ++ [(c, result)] }
  | some (c, .statement f next) =>
    match s.holder with
    | some (.transaction c' working rest) =>
      some { s with holder := some (.transaction c' (f working) rest), joined := s.joined.set i (c, next working) }
    | _ =>
      some { s with committed := f s.committed, joined := s.joined.set i (c, next s.committed) }

end Connection

def step (s : Connection σ ε α) : Event σ ε α → Option (Connection σ ε α)
  | .call c => some (s.arrive c)
  | .enter => s.enter
  | .advance => s.advance
  | .advanceJoined i => s.advanceJoined i

def Callback.ThrowsClean (fn : Callback σ ε α) : Prop :=
  ∀ s e, (fn.exec s).2 = .error e → (fn.exec s).1 = s

/-- No `withTransaction` arrives from a foreign context while a transaction is open, and
`runExclusive` is given what it is for: one write. -/
def Disciplined (s : Connection σ ε α) : Event σ ε α → Prop
  | .call c =>
    match c.kind with
    | .withTransaction => s.inTransaction = false
    | .runExclusive => c.fn.ThrowsClean
  | _ => True

def returned (s : Connection σ ε α) : List (Call σ ε α × α) :=
  s.settled.filterMap fun (c, result) => result.toOption.map fun v => (c, v)

inductive Serial : σ → List (Call σ ε α × α) → σ → Prop
  | nil {s} : Serial s [] s
  | cons {s t u c v cs} : c.fn.exec s = (t, .ok v) → Serial t cs u → Serial s ((c, v) :: cs) u

variable {c : Call σ ε α}

theorem Serial.concat {s t u : σ} {cs : List (Call σ ε α × α)} {v : α}
    (h : Serial s cs t) (hc : c.fn.exec t = (u, .ok v)) : Serial s (cs ++ [(c, v)]) u := by
  induction h with
  | nil => exact .cons hc .nil
  | cons hhead _ ih => exact .cons hhead (ih hc)

def Continues (c : Call σ ε α) (s now : σ) (rest : Callback σ ε α) : Prop :=
  rest.exec now = c.fn.exec s

/-- What the holder of the lock has done so far, on top of the serial state `t`. -/
def Progress (s : Connection σ ε α) (t : σ) : Prop :=
  match s.holder with
  | none => s.committed = t
  | some (.transaction c working rest) => s.committed = t ∧ Continues c t working rest
  | some (.exclusive c rest) => c.fn.ThrowsClean ∧ Continues c t s.committed rest

/-- Nobody has joined a foreign transaction; the committed state is that of the calls that
returned, up to the progress of the holder of the lock. -/
structure Inv (s₀ : σ) (s : Connection σ ε α) : Prop where
  joined : s.joined = []
  chain : ∀ c ∈ s.chain, c.kind = .runExclusive → c.fn.ThrowsClean
  serial : ∃ t, Serial s₀ (returned s) t ∧ Progress s t

theorem returned_release_ok {s : Connection σ ε α} {v : α} {w : σ} :
    returned (s.release c (.ok v) w) = returned s ++ [(c, v)] := by
  simp [returned, Connection.release, Except.toOption]

theorem returned_release_error {s : Connection σ ε α} {e : ε} {w : σ} :
    returned (s.release c (.error e) w) = returned s := by
  simp [returned, Connection.release, Except.toOption]

theorem inv_arrive {s₀ : σ} {s : Connection σ ε α} (hok : Disciplined s (.call c))
    (h : Inv s₀ s) : Inv s₀ (s.arrive c) := by
  have hwait : (decide (c.kind = .withTransaction) && s.inTransaction) = false := by
    cases hk : c.kind with
    | withTransaction => simpa [Disciplined, hk] using hok
    | runExclusive => simp
  have harrive : s.arrive c = { s with chain := s.chain ++ [c] } := by
    simp [Connection.arrive, hwait]
  rw [harrive]
  refine ⟨h.joined, ?_, h.serial⟩
  intro c' hc' hk
  rcases List.mem_append.mp hc' with hc' | hc'
  · exact h.chain c' hc' hk
  · rw [List.mem_singleton.mp hc'] at hk ⊢
    simpa [Disciplined, hk] using hok

variable {s s' : Connection σ ε α}

theorem inv_enter {s₀ : σ} (h : Inv s₀ s) (hs : s.enter = some s') : Inv s₀ s' := by
  unfold Connection.enter at hs
  split at hs
  · rename_i c chain hholder hchain
    cases hs
    obtain ⟨t, hserial, hprogress⟩ := h.serial
    simp only [Progress, hholder] at hprogress
    refine ⟨h.joined, fun c' hc' => h.chain c' (by simp [hchain, hc']), t, hserial, ?_⟩
    cases hk : c.kind with
    | withTransaction => exact ⟨hprogress, by rw [hprogress]; rfl⟩
    | runExclusive => exact ⟨h.chain c (by simp [hchain]) hk, by rw [hprogress]; rfl⟩
  · cases hs

theorem inv_advance {s₀ : σ} (h : Inv s₀ s) (hs : s.advance = some s') : Inv s₀ s' := by
  obtain ⟨t, hserial, hprogress⟩ := h.serial
  unfold Connection.advance at hs
  split at hs
  · cases hs
  · -- a statement of a transaction
    rename_i c working f next hholder
    cases hs
    simp only [Progress, hholder] at hprogress
    exact ⟨h.joined, h.chain, t, hserial, hprogress.1, hprogress.2⟩
  · -- `COMMIT`
    rename_i c working v hholder
    cases hs
    simp only [Progress, hholder] at hprogress
    refine ⟨h.joined, h.chain, working, ?_, rfl⟩
    rw [returned_release_ok]
    exact hserial.concat hprogress.2.symm
  · -- `ROLLBACK`
    rename_i c working e hholder
    cases hs
    simp only [Progress, hholder] at hprogress
    refine ⟨h.joined, h.chain, t, ?_, hprogress.1⟩
    rw [returned_release_error]
    exact hserial
  · -- a statement that commits by itself
    rename_i c f next hholder
    cases hs
    simp only [Progress, hholder] at hprogress
    exact ⟨h.joined, h.chain, t, hserial, hprogress.1, hprogress.2⟩
  · rename_i c result hholder
    cases hs
    simp only [Progress, hholder] at hprogress
    obtain ⟨hclean, hexec⟩ := hprogress
    cases result with
    | ok v =>
      refine ⟨h.joined, h.chain, s.committed, ?_, rfl⟩
      rw [returned_release_ok]
      exact hserial.concat hexec.symm
    | error e =>
      -- the only write of the callback was the one that threw
      refine ⟨h.joined, h.chain, t, ?_, ?_⟩
      · rw [returned_release_error]
        exact hserial
      · have hclean' := hclean t e (by rw [← hexec]; rfl)
        rw [← hexec] at hclean'
        exact hclean'

theorem inv_step {s₀ : σ} {e : Event σ ε α} (hok : Disciplined s e)
    (h : Inv s₀ s) (hs : step s e = some s') : Inv s₀ s' := by
  cases e with
  | call c =>
    cases hs
    exact inv_arrive hok h
  | enter => exact inv_enter h hs
  | advance => exact inv_advance h hs
  | advanceJoined i => simp [step, Connection.advanceJoined, h.joined] at hs

def issued : List (Event σ ε α) → List (Call σ ε α)
  | [] => []
  | .call c :: es => c :: issued es
  | _ :: es => issued es

def Holder.call : Holder σ ε α → Call σ ε α
  | transaction c _ _ => c
  | exclusive c _ => c

def lockOrder (s : Connection σ ε α) : List (Call σ ε α) :=
  s.settled.map Prod.fst ++ s.holder.toList.map Holder.call ++ s.chain

theorem lockOrder_release {s : Connection σ ε α} {hd : Holder σ ε α} {result : Except ε α} {w : σ}
    (h : s.holder = some hd) : lockOrder (s.release hd.call result w) = lockOrder s := by
  simp [lockOrder, Connection.release, h]

theorem lockOrder_advance (hs : s.advance = some s') : lockOrder s' = lockOrder s := by
  unfold Connection.advance at hs
  split at hs
  · cases hs
  · rename_i hholder
    cases hs
    simp [lockOrder, hholder, Holder.call]
  · rename_i hholder
    cases hs
    exact lockOrder_release hholder
  · rename_i hholder
    cases hs
    exact lockOrder_release hholder
  · rename_i hholder
    cases hs
    simp [lockOrder, hholder, Holder.call]
  · rename_i hholder
    cases hs
    exact lockOrder_release hholder

theorem lockOrder_enter (hs : s.enter = some s') : lockOrder s' = lockOrder s := by
  unfold Connection.enter at hs
  split at hs
  · rename_i c chain hholder hchain
    cases hs
    cases hk : c.kind <;> simp [lockOrder, hholder, hchain, Holder.call]
  · cases hs

theorem lockOrder_run {s₀ : σ} {es : List (Event σ ε α)}
    (h : Runs step Disciplined s es s') (hinv : Inv s₀ s) :
    lockOrder s' = lockOrder s ++ issued es := by
  induction h with
  | nil => simp [issued]
  | @cons s e t es u hok hs hrest ih =>
    rw [ih (inv_step hok hinv hs)]
    cases e with
    | call c =>
      cases hs
      have hjoined : (s.arrive c).joined = [] := (inv_arrive hok hinv).joined
      have harrive : lockOrder (s.arrive c) = lockOrder s ++ [c] := by
        unfold Connection.arrive at hjoined ⊢
        split at hjoined
        · simp at hjoined
        · rename_i hwait
          simp [hwait, lockOrder]
      simp [harrive, issued]
    | enter => rw [lockOrder_enter hs]; rfl
    | advance => rw [lockOrder_advance hs]; rfl
    | advanceJoined i => simp [step, Connection.advanceJoined, hinv.joined] at hs

end Step

/-- Where no foreign `withTransaction` arrives inside an open transaction, every call is
settled at most once and in the order of the calls, and the committed state is that of the
serial execution of exactly the calls that returned normally, with the values they returned. -/
theorem committed_serial {σ : Type u} {ε α : Type v} {s₀ : σ} {es : List (Event σ ε α)}
    {s : Connection σ ε α} (h : Runs step Disciplined { committed := s₀ } es s) :
    lockOrder s = issued es ∧ s.joined = [] ∧
      ((∀ c rest, s.holder ≠ some (.exclusive c rest)) → Serial s₀ (returned s) s.committed) := by
  have hinit : Inv s₀ ({ committed := s₀ } : Connection σ ε α) :=
    ⟨rfl, by simp, s₀, .nil, rfl⟩
  have hinv : Inv s₀ s := h.invariant (fun _ _ _ hok hI hs => inv_step hok hI hs) hinit
  refine ⟨?_, hinv.joined, fun hexclusive => ?_⟩
  · rw [lockOrder_run h hinit]
    simp [lockOrder]
  · obtain ⟨t, hserial, hprogress⟩ := hinv.serial
    have hcommitted : s.committed = t := by
      unfold Progress at hprogress
      split at hprogress
      · exact hprogress
      · exact hprogress.1
      · rename_i c rest hholder
        exact absurd hholder (hexclusive c rest)
    rw [hcommitted]
    exact hserial

def insertRow (row : String) (result : Except String Unit) : Callback (List String) String Unit :=
  .statement (· ++ [row]) fun _ => .settle result

def transfer : Call (List String) String Unit := ⟨.withTransaction, insertRow "owned" (.error "boom")⟩

def audit : Call (List String) String Unit := ⟨.runExclusive, insertRow "audit" (.ok ())⟩

theorem committed_serial_audit : ∃ s, Runs step Disciplined { committed := ([] : List String) }
        [.call transfer, .enter, .advance, .call audit, .advance, .enter, .advance, .advance] s ∧
      lockOrder s = [transfer, audit] ∧ returned s = [(audit, ())] ∧
      Serial [] (returned s) s.committed ∧ s.committed = ["audit"] := by
  have h : ∃ s, Runs step Disciplined { committed := ([] : List String) }
      [.call transfer, .enter, .advance, .call audit, .advance, .enter, .advance, .advance] s ∧
      returned s = [(audit, ())] ∧ s.holder = none ∧ s.committed = ["audit"] := by
    refine ⟨_, .cons rfl rfl (.cons trivial rfl (.cons trivial rfl (.cons ?_ rfl (.cons trivial rfl
      (.cons trivial rfl (.cons trivial rfl (.cons trivial rfl .nil))))))), rfl, rfl, rfl⟩
    intro s e herror
    cases herror
  obtain ⟨s, hrun, hreturned, hholder, hcommitted⟩ := h
  obtain ⟨horder, -, hserial⟩ := committed_serial hrun
  exact ⟨s, hrun, horder, hreturned, hserial (by simp [hholder]), hcommitted⟩

def payout : Call (List String) String Unit := ⟨.withTransaction, insertRow "payout" (.ok ())⟩

theorem joined_transaction_lost : ∃ s, run step { committed := ([] : List String) }
        [.call transfer, .enter, .advance, .call payout, .advanceJoined 0, .advanceJoined 0, .advance] = some s ∧
      s.holder.isNone ∧ s.chain = [] ∧ s.joined = [] ∧
      s.settled = [(payout, .ok ()), (transfer, .error "boom")] ∧ s.committed = [] ∧
      ¬ ∃ order, order.Perm (returned s) ∧ Serial [] order s.committed := by
  have h : ∃ s, run step { committed := ([] : List String) }
        [.call transfer, .enter, .advance, .call payout, .advanceJoined 0, .advanceJoined 0, .advance] = some s ∧
      s.holder.isNone ∧ s.chain = [] ∧ s.joined = [] ∧
      s.settled = [(payout, .ok ()), (transfer, .error "boom")] ∧ s.committed = [] :=
    ⟨_, rfl, rfl, rfl, rfl, rfl, rfl⟩
  obtain ⟨s, hrun, hholder, hchain, hjoined, hsettled, hcommitted⟩ := h
  refine ⟨s, hrun, hholder, hchain, hjoined, hsettled, hcommitted, ?_⟩
  rintro ⟨order, hperm, hserial⟩
  have hreturned : returned s = [(payout, ())] := by simp [returned, hsettled, Except.toOption]
  rw [hreturned] at hperm
  have horder : order = [(payout, ())] := List.perm_singleton.mp hperm
  subst horder
  rw [hcommitted] at hserial
  cases hserial with
  | cons hexec hrest =>
    cases hrest
    have hpayout : payout.fn.exec [] = (["payout"], .ok ()) := rfl
    rw [hpayout] at hexec
    cases hexec

end A2Wave.Transaction
