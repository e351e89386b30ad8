import A2Wave.Lib.Pool
import A2Wave.Instance.Heartbeat

/-! The request ids of SAML logins (`lib/saml.ts`): rows that a login issues and that a validation, on
any replica, takes.  A validation awaits each of its calls before the next one. -/

namespace A2Wave.SamlRequests

open Transition

def SAML_REQUEST_EXPIRATION_MS : Nat := 8 * 60 * 60 * 1000

structure Value where
  value : String
  issue : Nat
  deriving DecidableEq

structure SamlRequest where
  id : String
  value : Value
  createdAt : Nat
  deriving DecidableEq

instance : Keyed SamlRequest String := ⟨SamlRequest.id⟩

structure Issue where
  id : String
  value : String
  createdAt : Nat
  deriving DecidableEq

inductive Call
  | get (key : String) (now issues : Nat)
  | remove (key : String) (held : Bool)
  deriving DecidableEq

/-- What a validation asked and was told; a read began at `now`, when there were so many issues. -/
inductive Entry
  | read (key : String) (now issues : Nat) (result : Option Value)
  | remove (key : String)
  | removed (key : String) (result : Option String)
  deriving DecidableEq

structure Validation where
  replica : String
  scope : String → Option Value := fun _ => none
  pending : Option Call := none
  finished : Bool := false
  history : List Entry := []

def Validation.log (x : Validation) (entry : Entry) : Validation := { x with history := x.history ++ [entry] }

def Validation.settle (x : Validation) : Validation := { x with pending := none }

structure World where
  clock : Nat := 0
  samlRequests : Table SamlRequest := .empty
  issued : List Issue := []
  validations : List Validation := []

inductive Outcome
  | resolves
  | rejectsBefore
  | rejectsAfter

namespace World

def update (w : World) (i : Nat) (x : Validation) : World := { w with validations := w.validations.set i x }

/-- The save read the clock at `createdAt`. -/
def saveAsync (d : Dialect) (w : World) (key value : String) (createdAt : Nat) : World × Option (String × Nat) :=
  match w.samlRequests.insert ⟨key, ⟨value, w.issued.length⟩, storedInstant d createdAt⟩ with
  | none => (w, none)
  | some inserted =>
    ({ w with samlRequests := inserted, issued := w.issued ++ [⟨key, value, createdAt⟩] }, some (value, createdAt))

def getAsync (w : World) (i : Nat) (x : Validation) (key : String) : World :=
  match x.scope key with
  | some held => w.update i (x.log (.read key w.clock w.issued.length (some held)))
  | none => w.update i { x with pending := some (.get key w.clock w.issued.length) }

def unexpired (d : Dialect) (key : String) (now : Nat) (row : SamlRequest) : Bool :=
  row.id = key && storedInstant d (now - SAML_REQUEST_EXPIRATION_MS) ≤ row.createdAt

/-- The `DELETE … RETURNING` of a read. -/
def consume (d : Dialect) (w : World) (key : String) (now : Nat) : World × Option Value :=
  ({ w with samlRequests := w.samlRequests.deleteWhere (unexpired d key now) },
    ((w.samlRequests.select (unexpired d key now)).head?).map SamlRequest.value)

def removeAsync (w : World) (i : Nat) (x : Validation) (key : Option String) : World :=
  match key with
  | none => w
  | some key =>
    w.update i { x.log (.remove key) with
      scope := Function.update x.scope key none
      pending := some (.remove key (x.scope key).isSome) }

/-- The `DELETE … RETURNING` of a removal. -/
def delete (w : World) (key : String) : World × Option String :=
  ({ w with samlRequests := w.samlRequests.deleteWhere fun row => row.id = key },
    ((w.samlRequests.select fun row => row.id = key).head?).map SamlRequest.id)

def act (d : Dialect) (w : World) (i : Nat) (x : Validation) (outcome : Outcome) : Option World :=
  match x.pending with
  | none => none
  | some (.get key now issues) =>
    some (match outcome with
    | .rejectsBefore => w.update i x.settle
    | .rejectsAfter => (w.consume d key now).1.update i x.settle
    | .resolves =>
      match w.consume d key now with
      | (w, none) => w.update i (x.settle.log (.read key now issues none))
      | (w, some value) =>
        w.update i { x.settle.log (.read key now issues (some value)) with
          scope := Function.update x.scope key (some value) })
  | some (.remove key held) =>
    some (match outcome with
    | .rejectsBefore => w.update i x.settle
    | .rejectsAfter => (w.delete key).1.update i x.settle
    | .resolves =>
      let (w, removed) := w.delete key
      w.update i (x.settle.log (.removed key (removed.or (if held then some key else none)))))

/-- The sweeper read the clock at `now`. -/
def sweepExpiredSamlRequests (d : Dialect) (w : World) (now : Nat) : World × Nat :=
  let lapsed (row : SamlRequest) : Bool := row.createdAt < storedInstant d (now - SAML_REQUEST_EXPIRATION_MS)
  ({ w with samlRequests := w.samlRequests.deleteWhere lapsed }, (w.samlRequests.select lapsed).length)

def restart (w : World) (replica : String) : World :=
  { w with validations := w.validations.map fun x => if x.replica = replica then { x with finished := true } else x }

end World

inductive Event
  | tick (ms : Nat)
  | saveAsync (key value : String) (createdAt : Nat)
  | runInSamlValidation (replica : String)
  | getAsync (i : Nat) (key : String)
  | removeAsync (i : Nat) (key : Option String)
  | act (i : Nat) (outcome : Outcome)
  | settle (i : Nat)
  | sweep (now : Nat)
  | restart (replica : String)

def World.call (w : World) (i : Nat) (f : Validation → World) : Option World :=
  w.validations[i]?.bind fun x => if x.finished || x.pending ≠ none then none else some (f x)

def step (d : Dialect) (w : World) : Event → Option World
  | .tick ms => some { w with clock := w.clock + ms }
  | .saveAsync key value createdAt =>
    if createdAt ≤ w.clock then some (w.saveAsync d key value createdAt).1 else none
  | .runInSamlValidation replica => some { w with validations := w.validations ++ [{ replica := replica }] }
  | .getAsync i key => w.call i fun x => w.getAsync i x key
  | .removeAsync i key => w.call i fun x => w.removeAsync i x key
  | .act i outcome => w.validations[i]?.bind fun x => if x.finished then none else w.act d i x outcome
  | .settle i => w.call i fun x => w.update i { x with finished := true }
  | .sweep now => if now ≤ w.clock then some (w.sweepExpiredSamlRequests d now).1 else none
  | .restart replica => some (w.restart replica)

def precision : Dialect → Nat
  | .sqlite => 1000
  | .postgres => 1

theorem storedInstant_le_of_le {d : Dialect} {t t' : Nat} (h : t ≤ t') : storedInstant d t ≤ storedInstant d t' := by
  cases d with
  | sqlite => exact Nat.mul_le_mul_right 1000 (Nat.div_le_div_right h)
  | postgres => exact h

theorem lt_of_storedInstant_le {d : Dialect} {t t' : Nat} (h : storedInstant d t ≤ storedInstant d t') :
    t < t' + precision d := by
  cases d with
  | sqlite =>
    simp only [storedInstant, precision] at h ⊢
    omega
  | postgres => exact Nat.lt_succ_of_le h

theorem in_time {d : Dialect} {now createdAt : Nat}
    (h : storedInstant d (now - SAML_REQUEST_EXPIRATION_MS) ≤ storedInstant d createdAt) :
    now < createdAt + SAML_REQUEST_EXPIRATION_MS + precision d := by
  have hlt := lt_of_storedInstant_le h
  omega

structure ValidationInv (d : Dialect) (w : World) (x : Validation) : Prop where
  gone : ∀ key now n v, Entry.read key now n (some v) ∈ x.history →
    ∀ row ∈ w.samlRequests.rows, row.value.issue ≠ v.issue
  issued : ∀ key now n v, Entry.read key now n (some v) ∈ x.history →
    ∃ issue, w.issued[v.issue]? = some issue ∧ issue.id = key ∧ issue.value = v.value
  inTime : ∀ (q : Nat) key now n v, x.history[q]? = some (Entry.read key now n (some v)) →
    ∃ (p : Nat) (now' n' : Nat) (issue : Issue), p ≤ q ∧
    x.history[p]? = some (Entry.read key now' n' (some v)) ∧ w.issued[v.issue]? = some issue ∧
    now' < issue.createdAt + SAML_REQUEST_EXPIRATION_MS + precision d
  held : ∀ (p : Nat) key now n v, x.history[p]? = some (Entry.read key now n (some v)) →
    (∀ r : Nat, p < r → x.history[r]? ≠ some (Entry.remove key)) → x.scope key = some v
  scope : ∀ key v, x.scope key = some v → ∃ now n, Entry.read key now n (some v) ∈ x.history
  same : ∀ (p q : Nat) key now n v now' n' result, p < q → x.history[p]? = some (Entry.read key now n (some v)) →
    (∀ r : Nat, p < r → r < q → x.history[r]? ≠ some (Entry.remove key)) →
    x.history[q]? = some (Entry.read key now' n' result) → result = some v
  missed : ∀ key now n, Entry.read key now n none ∈ x.history → ∀ row ∈ w.samlRequests.rows,
    row.id = key → row.value.issue < n → row.createdAt < storedInstant d (now - SAML_REQUEST_EXPIRATION_MS)
  missedScope : ∀ key now n v, Entry.read key now n none ∈ x.history → x.scope key = some v → n ≤ v.issue
  after : ∀ (p q : Nat) key now n now' n' v, p < q → x.history[p]? = some (Entry.read key now n none) →
    x.history[q]? = some (Entry.read key now' n' (some v)) → n ≤ v.issue
  times : ∀ (p q : Nat) key now n result key' now' n' result', p ≤ q → x.history[p]? = some (Entry.read key now n result) →
    x.history[q]? = some (Entry.read key' now' n' result') → now ≤ now'
  clock : ∀ key now n result, Entry.read key now n result ∈ x.history → now ≤ w.clock ∧ n ≤ w.issued.length
  waiting : ∀ key now n, x.pending = some (.get key now n) → x.scope key = none ∧ now ≤ w.clock ∧
    n ≤ w.issued.length ∧ ∀ key' now' n' result, Entry.read key' now' n' result ∈ x.history → now' ≤ now

structure Inv (d : Dialect) (w : World) : Prop where
  rows : ∀ row ∈ w.samlRequests.rows, ∃ issue, w.issued[row.value.issue]? = some issue ∧ row.id = issue.id ∧
    row.value.value = issue.value ∧ row.createdAt = storedInstant d issue.createdAt
  validations : ∀ (i : Nat) x, w.validations[i]? = some x → ValidationInv d w x
  single : ∀ (i j : Nat) x y key now n v key' now' n' v', w.validations[i]? = some x → w.validations[j]? = some y →
    Entry.read key now n (some v) ∈ x.history → Entry.read key' now' n' (some v') ∈ y.history → v.issue = v'.issue → i = j

section Invariant

variable {d : Dialect} {w w' : World} {x y : Validation} {i : Nat} {key : String}

theorem ValidationInv.mono (h : ValidationInv d w x) (hclock : w.clock ≤ w'.clock)
    (hissued : ∀ (k : Nat) issue, w.issued[k]? = some issue → w'.issued[k]? = some issue)
    (hlength : w.issued.length ≤ w'.issued.length)
    (hrows : ∀ row ∈ w'.samlRequests.rows, row ∈ w.samlRequests.rows ∨ row.value.issue = w.issued.length) :
    ValidationInv d w' x := by
  refine ⟨?_, ?_, ?_, h.held, h.scope, h.same, ?_, h.missedScope, h.after, h.times, ?_, ?_⟩
  · intro key now n v hread row hrow
    obtain hold | hfresh := hrows row hrow
    · exact h.gone key now n v hread row hold
    · obtain ⟨issue, hissue, -⟩ := h.issued key now n v hread
      have hlt := (List.getElem?_eq_some_iff.mp hissue).1
      omega
  · intro key now n v hread
    obtain ⟨issue, hissue, hrest⟩ := h.issued key now n v hread
    exact ⟨issue, hissued _ _ hissue, hrest⟩
  · intro q key now n v hread
    obtain ⟨p, now', n', issue, hle, hp, hissue, htime⟩ := h.inTime q key now n v hread
    exact ⟨p, now', n', issue, hle, hp, hissued _ _ hissue, htime⟩
  · intro key now n hread row hrow hid hlt
    obtain hold | hfresh := hrows row hrow
    · exact h.missed key now n hread row hold hid hlt
    · have hle := (h.clock key now n none hread).2
      omega
  · intro key now n result hread
    obtain ⟨hnow, hn⟩ := h.clock key now n result hread
    exact ⟨Nat.le_trans hnow hclock, Nat.le_trans hn hlength⟩
  · intro key now n hpending
    obtain ⟨hscope, hnow, hn, hall⟩ := h.waiting key now n hpending
    exact ⟨hscope, Nat.le_trans hnow hclock, Nat.le_trans hn hlength, hall⟩

theorem Inv.mono (h : Inv d w) (hclock : w.clock ≤ w'.clock)
    (hissued : ∀ (k : Nat) issue, w.issued[k]? = some issue → w'.issued[k]? = some issue)
    (hlength : w.issued.length ≤ w'.issued.length)
    (hrows : ∀ row ∈ w'.samlRequests.rows, row ∈ w.samlRequests.rows ∨ row.value.issue = w.issued.length ∧
      ∃ issue, w'.issued[row.value.issue]? = some issue ∧ row.id = issue.id ∧
        row.value.value = issue.value ∧ row.createdAt = storedInstant d issue.createdAt)
    (hvalidations : w'.validations = w.validations) : Inv d w' := by
  refine ⟨?_, ?_, ?_⟩
  · intro row hrow
    obtain hold | ⟨-, hfresh⟩ := hrows row hrow
    · obtain ⟨issue, hissue, hrest⟩ := h.rows row hold
      exact ⟨issue, hissued _ _ hissue, hrest⟩
    · exact hfresh
  · intro i x hx
    rw [hvalidations] at hx
    exact (h.validations i x hx).mono hclock hissued hlength (fun row hrow => (hrows row hrow).imp id And.left)
  · rw [hvalidations]
    exact h.single

theorem Inv.deleteWhere (h : Inv d w) (p : SamlRequest → Bool) :
    Inv d { w with samlRequests := w.samlRequests.deleteWhere p } :=
  h.mono (Nat.le_refl _) (fun _ _ hk => hk) (Nat.le_refl _) (fun _ hrow => .inl (List.mem_filter.mp hrow).1) rfl

theorem Inv.tick (h : Inv d w) (ms : Nat) : Inv d { w with clock := w.clock + ms } :=
  h.mono (Nat.le_add_right _ _) (fun _ _ hk => hk) (Nat.le_refl _) (fun _ hrow => .inl hrow) rfl

theorem Inv.saveAsync (h : Inv d w) (key value : String) (createdAt : Nat) :
    Inv d (w.saveAsync d key value createdAt).1 := by
  simp only [World.saveAsync]
  split
  · exact h
  · rename_i inserted hinsert
    refine h.mono (Nat.le_refl _) ?_ ?_ ?_ rfl
    · exact fun k issue hk => Pool.getElem?_append_of hk
    · rw [List.length_append]
      exact Nat.le_add_right _ _
    · intro row hrow
      rw [Table.rows_insert hinsert] at hrow
      obtain hold | hnew := List.mem_append.mp hrow
      · exact .inl hold
      · obtain rfl := List.mem_singleton.mp hnew
        exact .inr ⟨rfl, _, List.getElem?_concat_length, rfl, rfl, rfl⟩

theorem Inv.update (h : Inv d w) (hx : w.validations[i]? = some x) (hy : ValidationInv d w y)
    (hgot : ∀ key now n v, Entry.read key now n (some v) ∈ y.history →
      (∃ key' now' n' v', Entry.read key' now' n' (some v') ∈ x.history ∧ v'.issue = v.issue) ∨
      ∀ (j : Nat) z key' now' n' v', w.validations[j]? = some z → Entry.read key' now' n' (some v') ∈ z.history →
        v'.issue ≠ v.issue) : Inv d (w.update i y) := by
  have hother : ∀ j z key now n v key' now' n' v', j ≠ i → w.validations[j]? = some z →
      Entry.read key now n (some v) ∈ y.history → Entry.read key' now' n' (some v') ∈ z.history → v.issue = v'.issue → False := by
    intro j z key now n v key' now' n' v' hne hz hread hread' heq
    obtain ⟨key₀, now₀, n₀, v₀, hold, hv₀⟩ | hnobody := hgot key now n v hread
    · exact hne (h.single i j x z _ _ _ _ _ _ _ _ hx hz hold hread' (hv₀.trans heq)).symm
    · exact hnobody j z key' now' n' v' hz hread' heq.symm
  have hmono : ∀ {z}, ValidationInv d w z → ValidationInv d (w.update i y) z :=
    fun hz => hz.mono (Nat.le_refl _) (fun _ _ hk => hk) (Nat.le_refl _) (fun _ hrow => .inl hrow)
  refine ⟨h.rows, ?_, ?_⟩
  · intro j z hz
    obtain ⟨rfl, rfl⟩ | ⟨-, hz⟩ := Pool.getElem?_set_cases hz
    · exact hmono hy
    · exact hmono (h.validations j z hz)
  · intro j k y₁ y₂ key now n v key' now' n' v' hj hk hread hread' heq
    obtain ⟨rfl, rfl⟩ | ⟨hjne, hj'⟩ := Pool.getElem?_set_cases hj
    · obtain ⟨rfl, rfl⟩ | ⟨hkne, hk'⟩ := Pool.getElem?_set_cases hk
      · rfl
      · exact (hother _ _ _ _ _ _ _ _ _ _ hkne hk' hread hread' heq).elim
    · obtain ⟨rfl, rfl⟩ | ⟨-, hk'⟩ := Pool.getElem?_set_cases hk
      · exact (hother _ _ _ _ _ _ _ _ _ _ hjne hj' hread' hread heq.symm).elim
      · exact h.single j k y₁ y₂ _ _ _ _ _ _ _ _ hj' hk' hread hread' heq

theorem ValidationInv.quiet (h : ValidationInv d w x) (hscope : y.scope = x.scope) (hhistory : y.history = x.history)
    (hpending : ∀ key now n, y.pending = some (.get key now n) → x.pending = some (.get key now n)) :
    ValidationInv d w y := by
  refine ⟨?_, ?_, ?_, ?_, ?_, ?_, ?_, ?_, ?_, ?_, ?_, ?_⟩ <;> simp only [hscope, hhistory]
  · exact h.gone
  · exact h.issued
  · exact h.inTime
  · exact h.held
  · exact h.scope
  · exact h.same
  · exact h.missed
  · exact h.missedScope
  · exact h.after
  · exact h.times
  · exact h.clock
  · exact fun key now n hy => h.waiting key now n (hpending key now n hy)

theorem ValidationInv.forget (h : ValidationInv d w x) {entry : Entry} (hhistory : y.history = x.history ++ [entry])
    (hread : ∀ key now n result, entry ≠ Entry.read key now n result)
    (hscope : ∀ key, y.scope key = x.scope key ∨ y.scope key = none ∧ entry = .remove key)
    (hpending : ∀ key now n, y.pending ≠ some (.get key now n)) : ValidationInv d w y := by
  have hmem : ∀ {key now n result}, Entry.read key now n result ∈ y.history → Entry.read key now n result ∈ x.history := by
    intro key now n result hmem
    rw [hhistory] at hmem
    obtain hold | hnew := List.mem_append.mp hmem
    · exact hold
    · exact absurd (List.mem_singleton.mp hnew).symm (hread _ _ _ _)
  have hget : ∀ {p : Nat} {key now n result}, y.history[p]? = some (Entry.read key now n result) →
      x.history[p]? = some (Entry.read key now n result) := by
    intro p key now n result hp
    rw [hhistory] at hp
    obtain hold | ⟨-, hnew⟩ := Pool.getElem?_append_cases hp
    · exact hold
    · exact absurd hnew.symm (hread _ _ _ _)
  have hkept : ∀ {p : Nat} {e : Entry}, x.history[p]? = some e → y.history[p]? = some e := by
    intro p e hp
    rw [hhistory]
    exact Pool.getElem?_append_of hp
  have hwas : ∀ {key v}, y.scope key = some v → x.scope key = some v := by
    intro key v hv
    obtain hsame | ⟨hnone, -⟩ := hscope key
    · exact hsame.symm.trans hv
    · rw [hnone] at hv
      cases hv
  refine ⟨?_, ?_, ?_, ?_, ?_, ?_, ?_, ?_, ?_, ?_, ?_, ?_⟩
  · exact fun key now n v hy => h.gone key now n v (hmem hy)
  · exact fun key now n v hy => h.issued key now n v (hmem hy)
  · intro q key now n v hy
    obtain ⟨p, now', n', issue, hle, hp, hrest⟩ := h.inTime q key now n v (hget hy)
    exact ⟨p, now', n', issue, hle, hkept hp, hrest⟩
  · intro p key now n v hy hremove
    have hheld := h.held p key now n v (hget hy) (fun r hr hx => hremove r hr (hkept hx))
    obtain hsame | ⟨-, rfl⟩ := hscope key
    · exact hsame.trans hheld
    · have hlt : p < x.history.length := (List.getElem?_eq_some_iff.mp (hget hy)).1
      refine absurd ?_ (hremove x.history.length hlt)
      rw [hhistory, List.getElem?_concat_length]
  · intro key v hv
    obtain ⟨now, n, hx⟩ := h.scope key v (hwas hv)
    refine ⟨now, n, ?_⟩
    rw [hhistory]
    exact List.mem_append_left _ hx
  · intro p q key now n v now' n' result hpq hp hremove hq
    exact h.same p q key now n v now' n' result hpq (hget hp) (fun r hr hr' hx => hremove r hr hr' (hkept hx)) (hget hq)
  · exact fun key now n hy => h.missed key now n (hmem hy)
  · exact fun key now n v hy hv => h.missedScope key now n v (hmem hy) (hwas hv)
  · exact fun p q key now n now' n' v hpq hp hq => h.after p q key now n now' n' v hpq (hget hp) (hget hq)
  · exact fun p q key now n result key' now' n' result' hpq hp hq =>
      h.times p q key now n result key' now' n' result' hpq (hget hp) (hget hq)
  · exact fun key now n result hy => h.clock key now n result (hmem hy)
  · exact fun key now n hy => absurd hy (hpending key now n)

theorem ValidationInv.answer (h : ValidationInv d w x) {key : String} {now n : Nat} {result : Option Value}
    (hhistory : y.history = x.history ++ [Entry.read key now n result])
    (hscope : result = none ∧ y.scope = x.scope ∨
      ∃ v, result = some v ∧ y.scope = Function.update x.scope key (some v))
    (hpending : ∀ key now n, y.pending ≠ some (.get key now n))
    (hheld : ∀ v, x.scope key = some v → result = some v)
    (hgone : ∀ v, result = some v → ∀ row ∈ w.samlRequests.rows, row.value.issue ≠ v.issue)
    (hissued : ∀ v, result = some v → ∃ issue, w.issued[v.issue]? = some issue ∧ issue.id = key ∧ issue.value = v.value)
    (hinTime : ∀ v, result = some v → x.scope key = some v ∨ ∃ issue, w.issued[v.issue]? = some issue ∧
      now < issue.createdAt + SAML_REQUEST_EXPIRATION_MS + precision d)
    (hmissed : result = none → ∀ row ∈ w.samlRequests.rows, row.id = key → row.value.issue < n →
      row.createdAt < storedInstant d (now - SAML_REQUEST_EXPIRATION_MS))
    (hafter : ∀ v, result = some v → ∀ now' n', Entry.read key now' n' none ∈ x.history → n' ≤ v.issue)
    (htimes : ∀ key' now' n' result', Entry.read key' now' n' result' ∈ x.history → now' ≤ now)
    (hclock : now ≤ w.clock ∧ n ≤ w.issued.length) : ValidationInv d w y := by
  have hmem : ∀ {key' now' n' result'}, Entry.read key' now' n' result' ∈ y.history →
      Entry.read key' now' n' result' ∈ x.history ∨ key' = key ∧ now' = now ∧ n' = n ∧ result' = result := by
    intro key' now' n' result' hy
    rw [hhistory] at hy
    obtain hold | hnew := List.mem_append.mp hy
    · exact .inl hold
    · exact .inr (Entry.read.inj (List.mem_singleton.mp hnew))
  have hget : ∀ {p : Nat} {key' now' n' result'}, y.history[p]? = some (Entry.read key' now' n' result') →
      x.history[p]? = some (Entry.read key' now' n' result') ∨
        p = x.history.length ∧ key' = key ∧ now' = now ∧ n' = n ∧ result' = result := by
    intro p key' now' n' result' hy
    rw [hhistory] at hy
    obtain hold | ⟨hp, hnew⟩ := Pool.getElem?_append_cases hy
    · exact .inl hold
    · exact .inr ⟨hp, Entry.read.inj hnew⟩
  have hkept : ∀ {p : Nat} {e : Entry}, x.history[p]? = some e → y.history[p]? = some e := by
    intro p e hp
    rw [hhistory]
    exact Pool.getElem?_append_of hp
  have hlast : y.history[x.history.length]? = some (Entry.read key now n result) := by
    rw [hhistory, List.getElem?_concat_length]
  have hlt : ∀ {p : Nat} {e : Entry}, x.history[p]? = some e → p < x.history.length :=
    fun hp => (List.getElem?_eq_some_iff.mp hp).1
  -- What the scope holds is what it held, or the answer.
  have hwas : ∀ {key' v}, y.scope key' = some v → x.scope key' = some v ∨ key' = key ∧ result = some v := by
    intro key' v hv
    obtain ⟨-, hsame⟩ | ⟨v', rfl, hset⟩ := hscope
    · rw [hsame] at hv
      exact .inl hv
    · rw [hset] at hv
      by_cases hkey : key' = key
      · subst hkey
        rw [Function.update_self] at hv
        exact .inr ⟨rfl, hv⟩
      · rw [Function.update_of_ne hkey] at hv
        exact .inl hv
  have hkeeps : ∀ {key' v}, x.scope key' = some v → y.scope key' = some v := by
    intro key' v hv
    obtain ⟨-, hsame⟩ | ⟨v', hresult, hset⟩ := hscope
    · rw [hsame]
      exact hv
    · rw [hset]
      by_cases hkey : key' = key
      · subst hkey
        rw [Function.update_self, ← hresult]
        exact hheld v hv
      · rw [Function.update_of_ne hkey]
        exact hv
  have hset : ∀ v, result = some v → y.scope key = some v := by
    rintro v rfl
    obtain ⟨hnone, -⟩ | ⟨v', hresult, hset⟩ := hscope
    · cases hnone
    · rw [hset, Function.update_self, hresult]
  refine ⟨?_, ?_, ?_, ?_, ?_, ?_, ?_, ?_, ?_, ?_, ?_, ?_⟩
  · intro key' now' n' v hy
    obtain hold | ⟨rfl, rfl, rfl, hresult⟩ := hmem hy
    · exact h.gone key' now' n' v hold
    · exact hgone v hresult.symm
  · intro key' now' n' v hy
    obtain hold | ⟨rfl, rfl, rfl, hresult⟩ := hmem hy
    · exact h.issued key' now' n' v hold
    · exact hissued v hresult.symm
  · intro q key' now' n' v hy
    obtain hold | ⟨rfl, rfl, rfl, rfl, hresult⟩ := hget hy
    · obtain ⟨p, now₀, n₀, issue, hle, hp, hrest⟩ := h.inTime q key' now' n' v hold
      exact ⟨p, now₀, n₀, issue, hle, hkept hp, hrest⟩
    · obtain hheld' | ⟨issue, hissue, htime⟩ := hinTime v hresult.symm
      · obtain ⟨now₁, n₁, hread⟩ := h.scope _ v hheld'
        obtain ⟨q, hq⟩ := List.mem_iff_getElem?.mp hread
        obtain ⟨p, now₀, n₀, issue, hle, hp, hrest⟩ := h.inTime q _ now₁ n₁ v hq
        exact ⟨p, now₀, n₀, issue, Nat.le_trans hle (Nat.le_of_lt (hlt hq)), hkept hp, hrest⟩
      · exact ⟨x.history.length, _, _, issue, Nat.le_refl _, hresult ▸ hlast, hissue, htime⟩
  · intro p key' now' n' v hy hremove
    obtain hold | ⟨-, rfl, -, -, hresult⟩ := hget hy
    · exact hkeeps (h.held p key' now' n' v hold (fun r hr hx => hremove r hr (hkept hx)))
    · exact hset v hresult.symm
  · intro key' v hv
    obtain hold | ⟨rfl, hresult⟩ := hwas hv
    · obtain ⟨now₁, n₁, hread⟩ := h.scope key' v hold
      exact ⟨now₁, n₁, by rw [hhistory]; exact List.mem_append_left _ hread⟩
    · refine ⟨now, n, ?_⟩
      rw [hhistory, hresult]
      exact List.mem_append_right _ (List.mem_singleton_self _)
  · intro p q key' now₁ n₁ v now₂ n₂ result' hpq hp hremove hq
    obtain hold | ⟨rfl, -⟩ := hget hp
    · obtain hq' | ⟨rfl, rfl, -, -, hresult⟩ := hget hq
      · exact h.same p q key' now₁ n₁ v now₂ n₂ result' hpq hold (fun r hr hr' hx => hremove r hr hr' (hkept hx)) hq'
      · rw [hresult]
        apply hheld v
        exact h.held p _ now₁ n₁ v hold (fun r hr hx => hremove r hr (hlt hx) (hkept hx))
    · have hle := (List.getElem?_eq_some_iff.mp hq).1
      rw [hhistory, List.length_append, List.length_singleton] at hle
      omega
  · intro key' now' n' hy
    obtain hold | ⟨rfl, rfl, rfl, hresult⟩ := hmem hy
    · exact h.missed key' now' n' hold
    · exact hmissed hresult.symm
  · intro key' now' n' v hy hv
    obtain hold | ⟨rfl, rfl, rfl, hresult⟩ := hmem hy
    · obtain hwas | ⟨rfl, hresult⟩ := hwas hv
      · exact h.missedScope key' now' n' v hold hwas
      · exact hafter v hresult now' n' hold
    · obtain hwas | ⟨-, hsome⟩ := hwas hv
      · exact absurd ((hheld v hwas).symm.trans hresult.symm) (by exact nofun)
      · exact absurd (hsome.symm.trans hresult.symm) (by exact nofun)
  · intro p q key' now₁ n₁ now₂ n₂ v hpq hp hq
    obtain hp' | ⟨rfl, -⟩ := hget hp
    · obtain hq' | ⟨-, rfl, -, -, hresult⟩ := hget hq
      · exact h.after p q key' now₁ n₁ now₂ n₂ v hpq hp' hq'
      · exact hafter v hresult.symm now₁ n₁ (List.mem_iff_getElem?.mpr ⟨p, hp'⟩)
    · have hle := (List.getElem?_eq_some_iff.mp hq).1
      rw [hhistory, List.length_append, List.length_singleton] at hle
      omega
  · intro p q key₁ now₁ n₁ result₁ key₂ now₂ n₂ result₂ hpq hp hq
    obtain hp' | ⟨rfl, -, rfl, -⟩ := hget hp
    · obtain hq' | ⟨-, -, rfl, -⟩ := hget hq
      · exact h.times p q _ _ _ _ _ _ _ _ hpq hp' hq'
      · exact htimes _ _ _ _ (List.mem_iff_getElem?.mpr ⟨p, hp'⟩)
    · obtain hq' | ⟨-, -, rfl, -⟩ := hget hq
      · exact absurd (hlt hq') (Nat.not_lt.mpr hpq)
      · exact Nat.le_refl _
  · intro key' now' n' result' hy
    obtain hold | ⟨-, rfl, rfl, -⟩ := hmem hy
    · exact h.clock key' now' n' result' hold
    · exact hclock
  · exact fun key' now' n' hy => absurd hy (hpending key' now' n')

theorem Inv.quiet (h : Inv d w) (hx : w.validations[i]? = some x) (hscope : y.scope = x.scope)
    (hhistory : y.history = x.history)
    (hpending : ∀ key now n, y.pending = some (.get key now n) → x.pending = some (.get key now n)) :
    Inv d (w.update i y) := by
  apply h.update hx
  · exact (h.validations i x hx).quiet hscope hhistory hpending
  · intro key now n v hread
    rw [hhistory] at hread
    exact .inl ⟨key, now, n, v, hread, rfl⟩

theorem Inv.forget (h : Inv d w) (hx : w.validations[i]? = some x) {entry : Entry}
    (hhistory : y.history = x.history ++ [entry]) (hread : ∀ key now n result, entry ≠ Entry.read key now n result)
    (hscope : ∀ key, y.scope key = x.scope key ∨ y.scope key = none ∧ entry = .remove key)
    (hpending : ∀ key now n, y.pending ≠ some (.get key now n)) : Inv d (w.update i y) := by
  apply h.update hx
  · exact (h.validations i x hx).forget hhistory hread hscope hpending
  · intro key now n v hy
    rw [hhistory] at hy
    obtain hold | hnew := List.mem_append.mp hy
    · exact .inl ⟨key, now, n, v, hold, rfl⟩
    · exact absurd (List.mem_singleton.mp hnew).symm (hread _ _ _ _)

theorem Inv.getAsync (h : Inv d w) (hx : w.validations[i]? = some x) (hpending : x.pending = none) :
    Inv d (w.getAsync i x key) := by
  have hvalidation := h.validations i x hx
  simp only [World.getAsync]
  split
  · rename_i held hheld
    obtain ⟨now, n, hread⟩ := hvalidation.scope key held hheld
    apply h.update hx
    · refine hvalidation.answer (y := x.log (.read key w.clock w.issued.length (some held))) rfl
        (.inr ⟨held, rfl, ?_⟩) ?_ ?_ ?_ ?_ ?_ ?_ ?_ ?_ ⟨Nat.le_refl _, Nat.le_refl _⟩
      · exact (Function.update_eq_self_iff.mpr hheld.symm).symm
      · intro key' now' n' hget
        have hget : x.pending = some (.get key' now' n') := hget
        rw [hpending] at hget
        cases hget
      · exact fun v hv => hheld.symm.trans hv
      · rintro v ⟨⟩
        exact hvalidation.gone key now n held hread
      · rintro v ⟨⟩
        exact hvalidation.issued key now n held hread
      · rintro v ⟨⟩
        exact .inl hheld
      · exact fun hnone => (nomatch hnone)
      · rintro v ⟨⟩ now' n' hmiss
        exact hvalidation.missedScope key now' n' held hmiss hheld
      · exact fun key' now' n' result hread => (hvalidation.clock key' now' n' result hread).1
    · intro key' now' n' v hy
      obtain hold | hnew := List.mem_append.mp hy
      · exact .inl ⟨key', now', n', v, hold, rfl⟩
      · obtain ⟨rfl, -, -, hv⟩ := Entry.read.inj (List.mem_singleton.mp hnew)
        obtain rfl := Option.some.inj hv
        exact .inl ⟨_, now, n, v, hread, rfl⟩
  · rename_i hnone
    apply h.update hx
    · refine ⟨hvalidation.gone, hvalidation.issued, hvalidation.inTime, hvalidation.held, hvalidation.scope,
        hvalidation.same, hvalidation.missed,
        hvalidation.missedScope, hvalidation.after, hvalidation.times, hvalidation.clock, ?_⟩
      intro key' now' n' hget
      obtain ⟨rfl, rfl, rfl⟩ := Call.get.inj (Option.some.inj hget)
      exact ⟨hnone, Nat.le_refl _, Nat.le_refl _, fun key' now' n' result hread => (hvalidation.clock key' now' n' result hread).1⟩
    · exact fun key' now' n' v hy => .inl ⟨key', now', n', v, hy, rfl⟩

theorem unexpired_iff {now : Nat} {row : SamlRequest} : World.unexpired d key now row = true ↔
    row.id = key ∧ storedInstant d (now - SAML_REQUEST_EXPIRATION_MS) ≤ row.createdAt := by
  simp [World.unexpired]

theorem Inv.consume_none (h : Inv d w) (hx : w.validations[i]? = some x) {now n : Nat}
    (hpending : x.pending = some (.get key now n)) :
    Inv d ((w.consume d key now).1.update i (x.settle.log (.read key now n none))) := by
  have hdeleted : Inv d (w.consume d key now).1 := h.deleteWhere _
  have hvalidation := hdeleted.validations i x hx
  obtain ⟨hnone, hnow, hn, htimes⟩ := hvalidation.waiting key now n hpending
  apply hdeleted.update hx
  · refine hvalidation.answer (y := x.settle.log (.read key now n none)) rfl (.inl ⟨rfl, rfl⟩)
      (fun _ _ _ hget => (nomatch hget)) ?_ (fun _ hv => (nomatch hv)) (fun _ hv => (nomatch hv))
      (fun _ hv => (nomatch hv)) ?_ (fun _ hv => (nomatch hv)) htimes ⟨hnow, hn⟩
    · intro v hv
      rw [hnone] at hv
      cases hv
    · intro _ row hrow hid _
      have hlive : (!World.unexpired d key now row) = true := (List.mem_filter.mp hrow).2
      rw [Bool.not_eq_true'] at hlive
      by_contra hle
      rw [Nat.not_lt] at hle
      rw [unexpired_iff.mpr ⟨hid, hle⟩] at hlive
      cases hlive
  · intro key' now' n' v hy
    obtain hold | hnew := List.mem_append.mp hy
    · exact .inl ⟨key', now', n', v, hold, rfl⟩
    · exact absurd (List.mem_singleton.mp hnew) (by simp)

theorem Inv.consume_some (h : Inv d w) (hx : w.validations[i]? = some x) {now n : Nat}
    (hpending : x.pending = some (.get key now n)) {value : Value} (hvalue : (w.consume d key now).2 = some value) :
    Inv d ((w.consume d key now).1.update i { x.settle.log (.read key now n (some value)) with
      scope := Function.update x.scope key (some value) }) := by
  have hdeleted : Inv d (w.consume d key now).1 := h.deleteWhere _
  have hvalidation := hdeleted.validations i x hx
  obtain ⟨hnone, hnow, hn, htimes⟩ := hvalidation.waiting key now n hpending
  obtain ⟨row, hhead, rfl⟩ := Option.map_eq_some_iff.mp hvalue
  obtain ⟨hrow, hunexpired⟩ := List.mem_filter.mp (List.mem_of_head? hhead)
  obtain ⟨hid, hlive⟩ := unexpired_iff.mp hunexpired
  obtain ⟨issue, hissue, hissueId, hissueValue, hcreatedAt⟩ := h.rows row hrow
  have hstored : storedInstant d (now - SAML_REQUEST_EXPIRATION_MS) ≤ storedInstant d issue.createdAt := by
    rw [← hcreatedAt]
    exact hlive
  apply hdeleted.update hx
  · refine hvalidation.answer (y := { x.settle.log (.read key now n (some row.value)) with
        scope := Function.update x.scope key (some row.value) })
      rfl (.inr ⟨row.value, rfl, rfl⟩) (fun _ _ _ hget => (nomatch hget)) ?_ ?_ ?_ ?_
      (fun hnone => (nomatch hnone)) ?_ htimes ⟨hnow, hn⟩
    · intro v hv
      rw [hnone] at hv
      cases hv
    · rintro v ⟨⟩ row' hrow' heq
      obtain ⟨hrow', hgone⟩ := List.mem_filter.mp hrow'
      obtain ⟨issue', hissue', hissueId', -, hcreatedAt'⟩ := h.rows row' hrow'
      rw [heq, hissue] at hissue'
      obtain rfl := Option.some.inj hissue'
      have hsame : World.unexpired d key now row' = true := by
        rw [unexpired_iff, hcreatedAt']
        exact ⟨hissueId'.trans (hissueId.symm.trans hid), hstored⟩
      rw [hsame] at hgone
      cases hgone
    · rintro v ⟨⟩
      exact ⟨issue, hissue, hissueId.symm.trans hid, hissueValue.symm⟩
    · rintro v ⟨⟩
      exact .inr ⟨issue, hissue, in_time hstored⟩
    · rintro v ⟨⟩ now' n' hmiss
      by_contra hlt
      have hexpired := (h.validations i x hx).missed key now' n' hmiss row hrow hid (Nat.not_le.mp hlt)
      have hle := htimes key now' n' none hmiss
      have hmono := storedInstant_le_of_le (d := d) (Nat.sub_le_sub_right hle SAML_REQUEST_EXPIRATION_MS)
      omega
  · intro key' now' n' v hy
    obtain hold | hnew := List.mem_append.mp hy
    · exact .inl ⟨key', now', n', v, hold, rfl⟩
    · obtain ⟨-, -, -, hv⟩ := Entry.read.inj (List.mem_singleton.mp hnew)
      obtain rfl := Option.some.inj hv
      refine .inr ?_
      intro j z key₁ now₁ n₁ v₁ hz hread heq
      exact (h.validations j z hz).gone key₁ now₁ n₁ v₁ hread row hrow heq.symm

theorem Inv.removeAsync (h : Inv d w) (hx : w.validations[i]? = some x) (key : Option String) :
    Inv d (w.removeAsync i x key) := by
  cases key with
  | none => exact h
  | some key =>
    refine h.forget hx rfl (fun _ _ _ _ hentry => (nomatch hentry)) ?_ (fun _ _ _ hget => (nomatch hget))
    intro key'
    by_cases hkey : key' = key
    · subst hkey
      exact .inr ⟨Function.update_self .., rfl⟩
    · exact .inl (Function.update_of_ne hkey ..)

theorem Inv.settle (h : Inv d w) (hx : w.validations[i]? = some x) : Inv d (w.update i x.settle) :=
  h.quiet hx rfl rfl (fun _ _ _ hget => (nomatch hget))

theorem Inv.act {outcome : Outcome} (h : Inv d w) (hx : w.validations[i]? = some x)
    (hact : w.act d i x outcome = some w') : Inv d w' := by
  simp only [World.act] at hact
  split at hact
  · cases hact
  · rename_i key now n hpending
    obtain rfl := Option.some.inj hact
    cases outcome with
    | rejectsBefore => exact h.settle hx
    | rejectsAfter => exact Inv.settle (h.deleteWhere _) hx
    | resolves =>
      cases hvalue : (w.consume d key now).2 with
      | none =>
        have hconsume : w.consume d key now = ((w.consume d key now).1, none) := Prod.ext rfl hvalue
        rw [hconsume]
        exact h.consume_none hx hpending
      | some value =>
        have hconsume : w.consume d key now = ((w.consume d key now).1, some value) := Prod.ext rfl hvalue
        rw [hconsume]
        exact h.consume_some hx hpending hvalue
  · rename_i key held hpending
    obtain rfl := Option.some.inj hact
    cases outcome with
    | rejectsBefore => exact h.settle hx
    | rejectsAfter => exact Inv.settle (h.deleteWhere _) hx
    | resolves =>
      have hdeleted : Inv d (w.delete key).1 := h.deleteWhere _
      exact hdeleted.forget hx rfl (fun _ _ _ _ hentry => (nomatch hentry)) (fun _ => .inl rfl)
        (fun _ _ _ hget => (nomatch hget))

theorem Inv.runInSamlValidation (h : Inv d w) (replica : String) :
    Inv d { w with validations := w.validations ++ [{ replica := replica }] } := by
  refine ⟨h.rows, ?_, ?_⟩
  · intro i x hx
    obtain hx | ⟨-, rfl⟩ := Pool.getElem?_append_cases hx
    · exact (h.validations i x hx).mono (Nat.le_refl _) (fun _ _ hk => hk) (Nat.le_refl _) (fun _ hrow => .inl hrow)
    · constructor <;> intros <;> simp_all
  · intro i j x y key now n v key' now' n' v' hx hy hread hread' heq
    obtain hx | ⟨-, rfl⟩ := Pool.getElem?_append_cases hx
    · obtain hy | ⟨-, rfl⟩ := Pool.getElem?_append_cases hy
      · exact h.single i j x y _ _ _ _ _ _ _ _ hx hy hread hread' heq
      · cases hread'
    · cases hread

theorem Inv.restart (h : Inv d w) (replica : String) : Inv d (w.restart replica) := by
  have hcases : ∀ {i : Nat} {x}, (w.restart replica).validations[i]? = some x →
      ∃ y, w.validations[i]? = some y ∧ x.scope = y.scope ∧ x.history = y.history ∧ x.pending = y.pending := by
    intro i x hx
    rw [World.restart, List.getElem?_map] at hx
    obtain ⟨y, hy, rfl⟩ := Option.map_eq_some_iff.mp hx
    refine ⟨y, hy, ?_⟩
    split <;> exact ⟨rfl, rfl, rfl⟩
  refine ⟨h.rows, ?_, ?_⟩
  · intro i x hx
    obtain ⟨y, hy, hscope, hhistory, hpending⟩ := hcases hx
    have hquiet := (h.validations i y hy).quiet hscope hhistory (fun _ _ _ hget => hpending.symm.trans hget)
    exact hquiet.mono (Nat.le_refl _) (fun _ _ hk => hk) (Nat.le_refl _) (fun _ hrow => .inl hrow)
  · intro i j x y key now n v key' now' n' v' hx hy hread hread' heq
    obtain ⟨x', hx', -, hhistory, -⟩ := hcases hx
    obtain ⟨y', hy', -, hhistory', -⟩ := hcases hy
    rw [hhistory] at hread
    rw [hhistory'] at hread'
    exact h.single i j x' y' _ _ _ _ _ _ _ _ hx' hy' hread hread' heq

theorem call_some {f : Validation → World} (hcall : w.call i f = some w') :
    ∃ x, w.validations[i]? = some x ∧ x.pending = none ∧ w' = f x := by
  obtain ⟨x, hx, hfree⟩ := Option.bind_eq_some_iff.mp hcall
  split at hfree
  · cases hfree
  · rename_i hguard
    simp only [Bool.or_eq_true, decide_eq_true_eq, not_or, ne_eq, Classical.not_not] at hguard
    exact ⟨x, hx, hguard.2, (Option.some.inj hfree).symm⟩

theorem inv_step {e : Event} (h : Inv d w) (hstep : step d w e = some w') : Inv d w' := by
  cases e with
  | tick ms =>
    obtain rfl := Option.some.inj hstep
    exact h.tick ms
  | saveAsync key value createdAt =>
    simp only [step] at hstep
    split at hstep
    · obtain rfl := Option.some.inj hstep
      exact h.saveAsync key value createdAt
    · cases hstep
  | runInSamlValidation replica =>
    obtain rfl := Option.some.inj hstep
    exact h.runInSamlValidation replica
  | getAsync i key =>
    obtain ⟨x, hx, hpending, rfl⟩ := call_some hstep
    exact h.getAsync hx hpending
  | removeAsync i key =>
    obtain ⟨x, hx, -, rfl⟩ := call_some hstep
    exact h.removeAsync hx key
  | act i outcome =>
    obtain ⟨x, hx, hact⟩ := Option.bind_eq_some_iff.mp hstep
    split at hact
    · cases hact
    · exact h.act hx hact
  | settle i =>
    obtain ⟨x, hx, -, rfl⟩ := call_some hstep
    exact h.quiet hx rfl rfl (fun _ _ _ hget => hget)
  | sweep now =>
    simp only [step] at hstep
    split at hstep
    · obtain rfl := Option.some.inj hstep
      exact h.deleteWhere _
    · cases hstep
  | restart replica =>
    obtain rfl := Option.some.inj hstep
    exact h.restart replica

theorem inv_initial (d : Dialect) : Inv d {} := by
  refine ⟨?_, ?_, ?_⟩ <;> simp [Table.empty]

end Invariant

/-- Validation `i` gets a value for the id. -/
def World.Yields (w : World) (i : Nat) (key : String) (v : Value) : Prop :=
  ∃ x now n, w.validations[i]? = some x ∧ Entry.read key now n (some v) ∈ x.history

def World.IssuedOnce (w : World) (key : String) : Prop :=
  ∀ (k k' : Nat) issue issue', w.issued[k]? = some issue → w.issued[k']? = some issue' →
    issue.id = key → issue'.id = key → k = k'

def Validation.ReadsAgree (x : Validation) : Prop :=
  ∀ (p q : Nat) key now n result now' n' v, x.history[p]? = some (Entry.read key now n result) →
    x.history[q]? = some (Entry.read key now' n' (some v)) → v.issue < n →
    (∀ r, min p q < r → r < max p q → x.history[r]? ≠ some (Entry.remove key)) → result = some v

def Validation.InTime (d : Dialect) (w : World) (x : Validation) : Prop :=
  ∀ (p : Nat) key now n result issue v, x.history[p]? = some (Entry.read key now n result) →
    (∀ r now' n' result', r < p → x.history[r]? ≠ some (Entry.read key now' n' result')) →
    w.issued[v.issue]? = some issue → issue.createdAt + SAML_REQUEST_EXPIRATION_MS + precision d < now →
    ∀ now' n', Entry.read key now' n' (some v) ∉ x.history

/-- Each issue of an id is good for one validation, in which it can be read until it is removed. -/
theorem saml_request_ids_are_single_use {d : Dialect} {es : List Event} {w : World}
    (h : run (step d) {} es = some w) :
    (∀ i j key key' v v', w.Yields i key v → w.Yields j key' v' → v.issue = v'.issue → i = j) ∧
    (∀ i j key v v', w.IssuedOnce key → w.Yields i key v → w.Yields j key v' → i = j) ∧
    ∀ (i : Nat) x, w.validations[i]? = some x → x.ReadsAgree ∧ x.InTime d w ∧
      ∀ key v, w.Yields i key v → ∃ issue, w.issued[v.issue]? = some issue ∧ issue.id = key ∧ issue.value = v.value := by
  have hinv : Inv d w :=
    (runs_free_iff.mpr h).invariant (I := Inv d) (fun _ _ _ _ hinv hstep => inv_step hinv hstep) (inv_initial d)
  have hsingle : ∀ i j key key' v v', w.Yields i key v → w.Yields j key' v' → v.issue = v'.issue → i = j := by
    rintro i j key key' v v' ⟨x, now, n, hx, hread⟩ ⟨y, now', n', hy, hread'⟩ heq
    exact hinv.single i j x y _ _ _ _ _ _ _ _ hx hy hread hread' heq
  have hissued : ∀ i key v, w.Yields i key v →
      ∃ issue, w.issued[v.issue]? = some issue ∧ issue.id = key ∧ issue.value = v.value := by
    rintro i key v ⟨x, now, n, hx, hread⟩
    exact (hinv.validations i x hx).issued key now n v hread
  refine ⟨hsingle, ?_, ?_⟩
  · intro i j key v v' honce hv hv'
    obtain ⟨issue, hissue, hid, -⟩ := hissued i key v hv
    obtain ⟨issue', hissue', hid', -⟩ := hissued j key v' hv'
    exact hsingle i j key key v v' hv hv' (honce _ _ issue issue' hissue hissue' hid hid')
  · intro i x hx
    have hvalidation := hinv.validations i x hx
    refine ⟨?_, ?_, fun key v => hissued i key v⟩
    · intro p q key now n result now' n' v hp hq hlt hremove
      obtain hpq | rfl | hqp := Nat.lt_trichotomy p q
      · cases result with
        | none => exact absurd (hvalidation.after p q key now n now' n' v hpq hp hq) (Nat.not_le.mpr hlt)
        | some v' =>
          have hsame := hvalidation.same p q key now n v' now' n' (some v) hpq hp ?_ hq
          · exact hsame.symm
          · intro r hr hr'
            exact hremove r (by omega) (by omega)
      · rw [hp] at hq
        exact (Entry.read.inj (Option.some.inj hq)).2.2.2
      · apply hvalidation.same q p key now' n' v now n result hqp hq ?_ hp
        intro r hr hr'
        exact hremove r (by omega) (by omega)
    · intro p key now n result issue v hp hfirst hissue hlate now' n' hread
      obtain ⟨q, hq⟩ := List.mem_iff_getElem?.mp hread
      obtain ⟨q', now₁, n₁, issue', -, hq', hissue', htime⟩ := hvalidation.inTime q key now' n' v hq
      obtain rfl := Option.some.inj (hissue.symm.trans hissue')
      have hle : p ≤ q' := Nat.not_lt.mp fun hlt => hfirst q' now₁ n₁ (some v) hlt hq'
      have hnow := hvalidation.times p q' _ _ _ _ _ _ _ _ hle hp hq'
      omega

theorem saml_request_ids_are_single_use_race : ∃ w, run (step .sqlite) {} [.tick 5000, .saveAsync "r" "v" 4000,
      .runInSamlValidation "a", .runInSamlValidation "b", .getAsync 0 "r", .getAsync 1 "r", .act 0 .resolves,
      .act 1 .resolves, .getAsync 0 "r", .removeAsync 0 (some "r"), .act 0 .resolves, .getAsync 0 "r",
      .act 0 .resolves] = some w ∧
    w.validations.map Validation.history = [
      [.read "r" 5000 1 (some ⟨"v", 0⟩), .read "r" 5000 1 (some ⟨"v", 0⟩), .remove "r", .removed "r" (some "r"),
        .read "r" 5000 1 none],
      [.read "r" 5000 1 none]] ∧
    ∀ (i : Nat) x, w.validations[i]? = some x → x.ReadsAgree := by
  obtain ⟨w, hw, hhistory⟩ : ∃ w, run (step .sqlite) {} [.tick 5000, .saveAsync "r" "v" 4000,
      .runInSamlValidation "a", .runInSamlValidation "b", .getAsync 0 "r", .getAsync 1 "r", .act 0 .resolves,
      .act 1 .resolves, .getAsync 0 "r", .removeAsync 0 (some "r"), .act 0 .resolves, .getAsync 0 "r",
      .act 0 .resolves] = some w ∧
      w.validations.map Validation.history = [
        [.read "r" 5000 1 (some ⟨"v", 0⟩), .read "r" 5000 1 (some ⟨"v", 0⟩), .remove "r", .removed "r" (some "r"),
          .read "r" 5000 1 none],
        [.read "r" 5000 1 none]] := exists_of_run_any (by decide +kernel)
  exact ⟨w, hw, hhistory, fun i x hx => ((saml_request_ids_are_single_use hw).2.2 i x hx).1⟩

end A2Wave.SamlRequests
