import A2Wave.Lib.JsonText
import A2Wave.Lib.Pool

/-! `createPersistingLogCollector` of `lib/run-lifecycle.ts`.  `number` is how the runtime prints a number. -/

namespace A2Wave.LogCollector

open Transition JsonText

def MAX_INPUT_JSON_LENGTH : Nat := 2000

def MAX_STREAM_LOGS : Nat := 1000

section Definitions

variable (number : ℚ → String)

/-- The `length` of a JavaScript string. -/
def jsLength (text : Text) : Nat := (text.flatMap utf16).length

def sanitizeEntry (entry : Json) : Json :=
  match entry with
  | .obj fields =>
    if fields.get? "type" ≠ some (.str "tool_call") || !truthy (fields.get? "input") then entry
    else
      let serialized := ((fields.get? "input").map (stringify number)).getD []
      if jsLength serialized ≤ MAX_INPUT_JSON_LENGTH then entry
      else .obj (fields.set "input"
        (.obj (.ofList [("_truncated", .bool true), ("_length", .num (jsLength serialized))])))
  | entry => entry

def sanitizeLogsForStorage (logs : List Json) : List Json := logs.map (sanitizeEntry number)

/-- A `writeNow` that a timer has queued, has begun, or is over, whether the database took it or not. -/
inductive FlushPhase
  | queued
  | writing
  | settled
  deriving DecidableEq

structure Flush where
  phase : FlushPhase
  logs : List Json := []
  deriving DecidableEq

/-- What a call of `stop` awaits; only the first one writes after the flush in flight. -/
inductive StopPhase
  | inFlight (flush : Nat) (first : Bool)
  | writeNow (flush : Nat)
  | resolved
  deriving DecidableEq

structure Collector where
  logs : List Json := []
  truncated : Bool := false
  timer : Bool := false
  inFlight : Option Nat := none
  stopped : Bool := false
  flushes : List Flush := []
  stops : List StopPhase := []

inductive Event
  | onLogEntry (entry : Json) (now : Nat)
  | timeout
  | microtask (flush : Nat)
  | settle (flush : Nat)
  | stop
  | resume (call : Nat)

namespace Collector

def scheduleFlush (w : Collector) : Collector :=
  if w.stopped || w.timer then w else { w with timer := true }

def truncatedEntry (now : Nat) : Json :=
  .obj (.ofList [("type", .str "system"), ("subtype", .str "truncated"), ("ts", .num now)])

def onLogEntry (w : Collector) (entry : Json) (now : Nat) : Collector :=
  if w.stopped then w
  else if w.logs.length < MAX_STREAM_LOGS then { w with logs := w.logs ++ [entry] }.scheduleFlush
  else if !w.truncated then { w with truncated := true, logs := w.logs ++ [truncatedEntry now] }.scheduleFlush
  else w

def setFlush (w : Collector) (i : Nat) (flush : Flush) : Collector := { w with flushes := w.flushes.set i flush }

/-- The write of `writeNow`, begun now. -/
def flushNow (w : Collector) : Flush := { phase := .writing, logs := sanitizeLogsForStorage number w.logs }

def settled (w : Collector) (i : Nat) : Bool := w.flushes[i]?.any (·.phase = .settled)

def stop (w : Collector) : Collector :=
  if w.stopped then
    match w.inFlight with
    | some flush => { w with stops := w.stops ++ [.inFlight flush false] }
    | none => { w with stops := w.stops ++ [.resolved] }
  else
    match w.inFlight with
    | some flush => { w with stopped := true, timer := false, stops := w.stops ++ [.inFlight flush true] }
    | none =>
      { w with
        stopped := true
        timer := false
        flushes := w.flushes ++ [w.flushNow number]
        stops := w.stops ++ [.writeNow w.flushes.length] }

/-- The await of a call of `stop` is over. -/
def resume (w : Collector) (call : Nat) : StopPhase → Option Collector
  | .inFlight flush first =>
    if !w.settled flush then none
    else if first then
      some { w with
        flushes := w.flushes ++ [w.flushNow number]
        stops := w.stops.set call (.writeNow w.flushes.length) }
    else some { w with stops := w.stops.set call .resolved }
  | .writeNow flush => if w.settled flush then some { w with stops := w.stops.set call .resolved } else none
  | .resolved => none

end Collector

def step (w : Collector) : Event → Option Collector
  | .onLogEntry entry now => some (w.onLogEntry entry now)
  | .timeout =>
    if w.timer then
      some { w with
        timer := false
        inFlight := some w.flushes.length
        flushes := w.flushes ++ [{ phase := .queued }] }
    else none
  | .microtask i =>
    if w.flushes[i]?.any (·.phase = .queued) then some (w.setFlush i (w.flushNow number)) else none
  | .settle i =>
    w.flushes[i]?.bind fun flush =>
      if flush.phase = .writing then some (w.setFlush i { flush with phase := .settled }) else none
  | .stop => some (w.stop number)
  | .resume call => w.stops[call]?.bind fun phase => w.resume number call phase

end Definitions

def allowed (w : Collector) : Event → Bool
  | .timeout => w.flushes.all (·.phase = .settled)
  | _ => true

section Invariant

variable {number : ℚ → String} {w w' : Collector} {e : Option Nat} {i : Nat} {f : Flush}

def Quiet (w : Collector) (e : Option Nat) : Prop :=
  ∀ (i : Nat) f, w.flushes[i]? = some f → f.phase = .settled ∨ e = some i

def Handed (number : ℚ → String) (w : Collector) (f : Flush) : Prop :=
  f.phase ≠ .queued ∧ f.logs = sanitizeLogsForStorage number w.logs

/-- Where the first call of `stop` is. -/
def FirstInv (number : ℚ → String) (w : Collector) : StopPhase → Prop
  | .inFlight flush first => first = true ∧ Quiet w (some flush)
  | .writeNow flush => Quiet w (some flush) ∧ ∃ f, w.flushes[flush]? = some f ∧ Handed number w f
  | .resolved => Quiet w none ∧ ∃ f ∈ w.flushes, Handed number w f

/-- A later call of `stop` writes nothing. -/
def Later : StopPhase → Prop
  | .inFlight _ first => first = false
  | .writeNow _ => False
  | .resolved => True

def Inv (number : ℚ → String) (w : Collector) : Prop :=
  match w.stops with
  | [] => w.stopped = false ∧ Quiet w w.inFlight
  | first :: later => w.stopped = true ∧ w.timer = false ∧ FirstInv number w first ∧ ∀ phase ∈ later, Later phase

theorem scheduleFlush_frame : w.scheduleFlush.logs = w.logs ∧ w.scheduleFlush.flushes = w.flushes ∧
    w.scheduleFlush.inFlight = w.inFlight ∧ w.scheduleFlush.stopped = w.stopped ∧ w.scheduleFlush.stops = w.stops := by
  unfold Collector.scheduleFlush
  split <;> exact ⟨rfl, rfl, rfl, rfl, rfl⟩

theorem onLogEntry_frame {entry : Json} {now : Nat} : (w.onLogEntry entry now).flushes = w.flushes ∧
    (w.onLogEntry entry now).inFlight = w.inFlight ∧ (w.onLogEntry entry now).stopped = w.stopped ∧
      (w.onLogEntry entry now).stops = w.stops := by
  unfold Collector.onLogEntry
  split
  · exact ⟨rfl, rfl, rfl, rfl⟩
  · split
    · exact scheduleFlush_frame.2
    · split
      · exact scheduleFlush_frame.2
      · exact ⟨rfl, rfl, rfl, rfl⟩

theorem onLogEntry_stopped {entry : Json} {now : Nat} (h : w.stopped = true) : w.onLogEntry entry now = w := by
  rw [Collector.onLogEntry, if_pos h]

theorem Quiet.congr (h : Quiet w e) (hflushes : w'.flushes = w.flushes) : Quiet w' e := by
  unfold Quiet
  rw [hflushes]
  exact h

theorem Quiet.setFlush {f' : Flush} (h : Quiet w e) (hf : w.flushes[i]? = some f) (hphase : f.phase ≠ .settled) :
    Quiet (w.setFlush i f') e ∧ e = some i := by
  have he : e = some i := (h i f hf).resolve_left hphase
  refine ⟨?_, he⟩
  intro j g hg
  obtain ⟨rfl, -⟩ | ⟨-, hg⟩ := Pool.getElem?_set_cases hg
  · exact .inr he
  · exact h j g hg

theorem Quiet.append (h : Quiet w none) (hflushes : w'.flushes = w.flushes ++ [f]) : Quiet w' (some w.flushes.length) := by
  intro j g hg
  rw [hflushes] at hg
  obtain hg | ⟨rfl, -⟩ := Pool.getElem?_append_cases hg
  · exact .inl ((h j g hg).resolve_right (by simp))
  · exact .inr rfl

theorem Quiet.of_settled (h : Quiet w (some i)) (hsettled : w.settled i = true) : Quiet w none := by
  intro j g hg
  obtain hphase | heq := h j g hg
  · exact .inl hphase
  · obtain rfl := Option.some.inj heq
    rw [Collector.settled, hg] at hsettled
    exact .inl (by simpa using hsettled)

theorem handed_flushNow : Handed number w (w.flushNow number) := ⟨by simp [Collector.flushNow], rfl⟩

theorem inv_onLogEntry {entry : Json} {now : Nat} (h : Inv number w) : Inv number (w.onLogEntry entry now) := by
  cases hstopped : w.stopped with
  | true =>
    rw [onLogEntry_stopped hstopped]
    exact h
  | false =>
    obtain ⟨hflushes, hinFlight, hstop, hstops⟩ : _ ∧ _ ∧ _ ∧ _ := onLogEntry_frame (w := w)
    unfold Inv at h ⊢
    rw [hstops]
    split at h
    · rw [hinFlight, hstop]
      exact ⟨h.1, h.2.congr hflushes⟩
    · rw [h.1] at hstopped
      cases hstopped

theorem FirstInv.setFlush {first : StopPhase} {f' : Flush} (h : FirstInv number w first) (hf : w.flushes[i]? = some f)
    (hphase : f.phase ≠ .settled) (hhanded : Handed number w f → Handed number w f') :
    FirstInv number (w.setFlush i f') first := by
  cases first with
  | inFlight flush first => exact ⟨h.1, (h.2.setFlush hf hphase).1⟩
  | writeNow flush =>
    obtain ⟨hquiet, g, hg, hlogs⟩ := h
    obtain ⟨hquiet', heq⟩ : Quiet (w.setFlush i f') (some flush) ∧ some flush = some i := hquiet.setFlush hf hphase
    obtain rfl := Option.some.inj heq
    obtain rfl := Option.some.inj (hf.symm.trans hg)
    exact ⟨hquiet', f', List.getElem?_set_self (List.getElem?_eq_some_iff.mp hf).1, hhanded hlogs⟩
  | resolved =>
    have hquiet : Quiet (w.setFlush i f') none ∧ none = some i := h.1.setFlush hf hphase
    cases hquiet.2

theorem inv_setFlush {f' : Flush} (h : Inv number w) (hf : w.flushes[i]? = some f) (hphase : f.phase ≠ .settled)
    (hhanded : Handed number w f → Handed number w f') : Inv number (w.setFlush i f') := by
  have hstops : (w.setFlush i f').stops = w.stops := rfl
  unfold Inv at h ⊢
  rw [hstops]
  split at h
  · exact ⟨h.1, (h.2.setFlush hf hphase).1⟩
  · exact ⟨h.1, h.2.1, h.2.2.1.setFlush hf hphase hhanded, h.2.2.2⟩

theorem inv_stop (h : Inv number w) : Inv number (w.stop number) := by
  unfold Inv at h
  split at h
  · rename_i hnone
    obtain ⟨hstopped, hquiet⟩ := h
    unfold Collector.stop
    rw [hstopped]
    cases hinFlight : w.inFlight with
    | some flush =>
      rw [hinFlight] at hquiet
      simp only [Inv, hnone, List.nil_append, Bool.false_eq_true, if_false]
      exact ⟨trivial, trivial, ⟨rfl, hquiet⟩, by simp⟩
    | none =>
      rw [hinFlight] at hquiet
      simp only [Inv, hnone, List.nil_append, Bool.false_eq_true, if_false]
      refine ⟨trivial, trivial, ⟨hquiet.append rfl, w.flushNow number, ?_, handed_flushNow⟩, by simp⟩
      exact List.getElem?_concat_length
  · rename_i first later hcons
    obtain ⟨hstopped, htimer, hfirst, hlater⟩ := h
    unfold Collector.stop
    rw [if_pos hstopped]
    cases w.inFlight with
    | some flush =>
      simp only [Inv, hcons, List.cons_append]
      refine ⟨hstopped, htimer, ?_, ?_⟩
      · cases first <;> exact hfirst
      · intro phase hphase
        obtain hphase | hphase := List.mem_append.mp hphase
        · exact hlater phase hphase
        · obtain rfl := List.mem_singleton.mp hphase
          rfl
    | none =>
      simp only [Inv, hcons, List.cons_append]
      refine ⟨hstopped, htimer, ?_, ?_⟩
      · cases first <;> exact hfirst
      · intro phase hphase
        obtain hphase | hphase := List.mem_append.mp hphase
        · exact hlater phase hphase
        · obtain rfl := List.mem_singleton.mp hphase
          trivial

theorem inv_resume {call : Nat} {phase : StopPhase} (h : Inv number w) (hcall : w.stops[call]? = some phase)
    (hresume : w.resume number call phase = some w') : Inv number w' := by
  unfold Inv at h
  split at h
  · rename_i hnone
    rw [hnone, List.getElem?_nil] at hcall
    cases hcall
  · rename_i first later hcons
    obtain ⟨hstopped, htimer, hfirst, hlater⟩ := h
    rw [hcons] at hcall
    cases call with
    | zero =>
      obtain rfl : first = phase := Option.some.inj hcall
      cases first with
      | inFlight flush first =>
        obtain ⟨rfl, hquiet⟩ := hfirst
        simp only [Collector.resume] at hresume
        split at hresume
        · cases hresume
        · rename_i hsettled
          obtain rfl := Option.some.inj hresume
          simp only [Inv, hcons, List.set_cons_zero]
          refine ⟨hstopped, htimer, ⟨?_, w.flushNow number, List.getElem?_concat_length, handed_flushNow⟩, hlater⟩
          exact (hquiet.of_settled (by simpa using hsettled)).append rfl
      | writeNow flush =>
        obtain ⟨hquiet, f, hf, hhanded⟩ := hfirst
        simp only [Collector.resume] at hresume
        split at hresume
        · rename_i hsettled
          obtain rfl := Option.some.inj hresume
          simp only [Inv, hcons, List.set_cons_zero]
          exact ⟨hstopped, htimer, ⟨hquiet.of_settled hsettled, f, List.mem_of_getElem? hf, hhanded⟩, hlater⟩
        · cases hresume
      | resolved => cases hresume
    | succ call =>
      have hphase := hlater phase (List.mem_of_getElem? hcall)
      cases phase with
      | inFlight flush first' =>
        obtain rfl : first' = false := hphase
        simp only [Collector.resume] at hresume
        split at hresume
        · cases hresume
        · obtain rfl := Option.some.inj hresume
          simp only [Inv, hcons, List.set_cons_succ]
          refine ⟨hstopped, htimer, ?_, ?_⟩
          · cases first <;> exact hfirst
          · intro phase' hphase'
            obtain hmem | rfl := List.mem_or_eq_of_mem_set hphase'
            · exact hlater phase' hmem
            · trivial
      | writeNow flush => exact hphase.elim
      | resolved => cases hresume

theorem inv_step {ev : Event} (h : Inv number w) (hallowed : allowed w ev = true) (hstep : step number w ev = some w') :
    Inv number w' := by
  cases ev with
  | onLogEntry entry now =>
    obtain rfl := Option.some.inj hstep
    exact inv_onLogEntry h
  | timeout =>
    simp only [step] at hstep
    split at hstep
    · rename_i htimer
      obtain rfl := Option.some.inj hstep
      have hquiet : Quiet w none := by
        intro i f hf
        have hsettled := List.all_eq_true.mp hallowed f (List.mem_of_getElem? hf)
        exact .inl (by simpa using hsettled)
      unfold Inv at h
      split at h
      · rename_i hnone
        simp only [Inv, hnone]
        exact ⟨h.1, hquiet.append rfl⟩
      · rw [h.2.1] at htimer
        cases htimer
    · cases hstep
  | microtask i =>
    simp only [step] at hstep
    split at hstep
    · rename_i hqueued
      obtain rfl := Option.some.inj hstep
      obtain ⟨f, hf, hphase⟩ : ∃ f, w.flushes[i]? = some f ∧ f.phase = .queued := by
        simpa [Option.any_eq_true] using hqueued
      exact inv_setFlush h hf (by simp [hphase]) fun hhanded => absurd hphase hhanded.1
    · cases hstep
  | settle i =>
    obtain ⟨f, hf, hsettle⟩ := Option.bind_eq_some_iff.mp hstep
    split at hsettle
    · rename_i hwriting
      obtain rfl := Option.some.inj hsettle
      exact inv_setFlush h hf (by simp [hwriting]) fun hhanded => ⟨by simp, hhanded.2⟩
    · cases hsettle
  | stop =>
    obtain rfl := Option.some.inj hstep
    exact inv_stop h
  | resume call =>
    obtain ⟨phase, hcall, hresume⟩ := Option.bind_eq_some_iff.mp hstep
    exact inv_resume h hcall hresume

structure Done (logs : List Json) (flushes : List Flush) (w : Collector) : Prop where
  stopped : w.stopped = true
  timer : w.timer = false
  logs : w.logs = logs
  flushes : w.flushes = flushes
  quiet : Quiet w none
  stops : ∀ phase ∈ w.stops, Later phase

theorem done_step {ev : Event} {logs : List Json} {flushes : List Flush} (h : Done logs flushes w)
    (hstep : step number w ev = some w') : Done logs flushes w' := by
  cases ev with
  | onLogEntry entry now =>
    obtain rfl := Option.some.inj hstep
    rw [onLogEntry_stopped h.stopped]
    exact h
  | timeout =>
    simp only [step, h.timer] at hstep
    cases hstep
  | microtask i =>
    simp only [step] at hstep
    split at hstep
    · rename_i hqueued
      obtain ⟨f, hf, hphase⟩ : ∃ f, w.flushes[i]? = some f ∧ f.phase = .queued := by
        simpa [Option.any_eq_true] using hqueued
      have hsettled := (h.quiet i f hf).resolve_right (by simp)
      rw [hphase] at hsettled
      cases hsettled
    · cases hstep
  | settle i =>
    obtain ⟨f, hf, hsettle⟩ := Option.bind_eq_some_iff.mp hstep
    split at hsettle
    · rename_i hwriting
      have hsettled := (h.quiet i f hf).resolve_right (by simp)
      rw [hwriting] at hsettled
      cases hsettled
    · cases hsettle
  | stop =>
    obtain rfl := Option.some.inj hstep
    unfold Collector.stop
    rw [if_pos h.stopped]
    have hstops : ∀ last, Later last → ∀ phase ∈ w.stops ++ [last], Later phase := by
      intro last hlast phase hphase
      obtain hphase | hphase := List.mem_append.mp hphase
      · exact h.stops phase hphase
      · obtain rfl := List.mem_singleton.mp hphase
        exact hlast
    split
    · exact ⟨h.stopped, h.timer, h.logs, h.flushes, h.quiet, hstops _ rfl⟩
    · exact ⟨h.stopped, h.timer, h.logs, h.flushes, h.quiet, hstops _ trivial⟩
  | resume call =>
    obtain ⟨phase, hcall, hresume⟩ := Option.bind_eq_some_iff.mp hstep
    have hlater := h.stops phase (List.mem_of_getElem? hcall)
    cases phase with
    | inFlight flush first =>
      obtain rfl : first = false := hlater
      simp only [Collector.resume] at hresume
      split at hresume
      · cases hresume
      · obtain rfl := Option.some.inj hresume
        refine ⟨h.stopped, h.timer, h.logs, h.flushes, h.quiet, ?_⟩
        intro phase' hphase'
        obtain hmem | rfl := List.mem_or_eq_of_mem_set hphase'
        · exact h.stops phase' hmem
        · trivial
    | writeNow flush => exact hlater.elim
    | resolved => cases hresume

theorem done_of_resolved (h : Inv number w) (hstop : w.stops[0]? = some .resolved) :
    Done w.logs w.flushes w ∧ ∃ f ∈ w.flushes, Handed number w f := by
  unfold Inv at h
  split at h
  · rename_i hnone
    rw [hnone, List.getElem?_nil] at hstop
    cases hstop
  · rename_i first later hcons
    obtain ⟨hstopped, htimer, hfirst, hlater⟩ := h
    rw [hcons] at hstop
    obtain rfl : first = .resolved := Option.some.inj hstop
    refine ⟨⟨hstopped, htimer, rfl, rfl, hfirst.1, ?_⟩, hfirst.2⟩
    rw [hcons]
    intro phase hphase
    obtain rfl | hphase := List.mem_cons.mp hphase
    · trivial
    · exact hlater phase hphase

end Invariant

/-- The collector is quiet once the first call of `stop` resolves, if no timer fired over a write. -/
theorem stop_quiesces {number : ℚ → String} {es : List Event} {w : Collector}
    (h : Runs (step number) (fun w ev => allowed w ev = true) {} es w) (hstop : w.stops[0]? = some .resolved) :
    (∀ f ∈ w.flushes, f.phase = .settled) ∧
      (∃ f ∈ w.flushes, f.phase ≠ .queued ∧ f.logs = sanitizeLogsForStorage number w.logs) ∧
        ∀ es' w', run (step number) w es' = some w' → w'.flushes = w.flushes ∧ w'.logs = w.logs := by
  have hinv : Inv number w := h.invariant (I := Inv number)
    (fun _ _ _ hallowed hinv hstep => inv_step hinv hallowed hstep) ⟨rfl, fun i f hf => by simp at hf⟩
  obtain ⟨hdone, hhanded⟩ := done_of_resolved hinv hstop
  refine ⟨?_, hhanded, ?_⟩
  · intro f hf
    obtain ⟨i, hi⟩ := List.mem_iff_getElem?.mp hf
    exact (hdone.quiet i f hi).resolve_right (by simp)
  · intro es' w' hrun
    have hdone' := (runs_free_iff.mpr hrun).invariant (I := Done w.logs w.flushes)
      (fun _ _ _ _ hdone hstep => done_step hdone hstep) hdone
    exact ⟨hdone'.flushes, hdone'.logs⟩

def line (text : String) : Json :=
  .obj (.ofList [("type", .str "assistant"), ("text", .str text), ("ts", .num 1)])

def digits (q : ℚ) : String := toString q.num

theorem stop_quiesces_flush : ∃ w, run (step digits) {} [.onLogEntry (line "a") 1, .timeout, .microtask 0,
      .onLogEntry (line "b") 2, .stop, .settle 0, .resume 0, .onLogEntry (line "c") 3, .settle 1, .resume 0] = some w ∧
    w.logs = [line "a", line "b"] ∧ ∀ f ∈ w.flushes, f.phase = .settled := by
  obtain ⟨w, hw, hstop, hlogs⟩ : ∃ w, run (guarded (step digits) fun w ev => allowed w ev = true) {}
      [.onLogEntry (line "a") 1, .timeout, .microtask 0, .onLogEntry (line "b") 2, .stop, .settle 0, .resume 0,
        .onLogEntry (line "c") 3, .settle 1, .resume 0] = some w ∧
      w.stops[0]? = some .resolved ∧ w.logs = [line "a", line "b"] := exists_of_run_any (by decide +kernel)
  exact ⟨w, (Runs.of_guarded hw).toRun, hlogs, (stop_quiesces (.of_guarded hw) hstop).1⟩

theorem stop_leaves_write_outstanding : ∃ w, run (step digits) {} [.onLogEntry (line "a") 1, .timeout, .microtask 0,
      .onLogEntry (line "b") 2, .timeout, .microtask 1, .settle 1, .stop, .resume 0, .settle 2, .resume 0] = some w ∧
    w.stops = [.resolved] ∧ w.flushes[0]? = some ⟨.writing, [line "a"]⟩ :=
  exists_of_run_any (by decide +kernel)

end A2Wave.LogCollector
