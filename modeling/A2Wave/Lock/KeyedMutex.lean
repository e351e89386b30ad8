import Mathlib
import A2Wave.Lib.Transition

/-! `withKeyedLock` of `lib/keyed-mutex.ts`, with the reactions it registers on promises and the queue of those that
are due.  Calls are numbered in the order in which they are made. -/

namespace A2Wave.KeyedMutex

open Transition Function

/-- `() => fn()`, what settles the tail of a call once its task has settled, and the clean-up of the map. -/
inductive Reaction
  | run (call : Nat)
  | release (call : Nat)
  | cleanUp (call : Nat)
  deriving DecidableEq

/-- `settled` is a call whose promise has settled, `released` one whose tail has, too, and `finished` one whose
clean-up has run. -/
inductive Phase
  | waiting
  | running
  | settled
  | released
  | finished
  deriving DecidableEq

namespace Phase

def ended : Phase → Bool
  | .waiting | .running => false
  | _ => true

def fulfilled : Phase → Bool
  | .released | .finished => true
  | _ => false

end Phase

structure State (κ ω : Type) where
  keys : List κ := []
  phase : Nat → Phase := fun _ => .waiting
  outcome : Nat → Option ω := fun _ => none
  reactions : Nat → List Reaction := fun _ => []
  jobs : List Reaction := []
  tails : κ → Option Nat := fun _ => none

inductive Event (κ ω : Type)
  | call (key : κ)
  | microtask
  | settle (call : Nat) (outcome : ω)

section Definitions

variable {κ ω : Type} [DecidableEq κ]

namespace State

/-- `prev.then(…)`, where without `prev` the promise is `Promise.resolve()`. -/
def andThen (s : State κ ω) (prev : Option Nat) (r : Reaction) : State κ ω :=
  match prev with
  | none => { s with jobs := s.jobs ++ [r] }
  | some p =>
    if (s.phase p).fulfilled then { s with jobs := s.jobs ++ [r] }
    else { s with reactions := update s.reactions p (s.reactions p ++ [r]) }

def withKeyedLock (s : State κ ω) (key : κ) : State κ ω :=
  let call := s.keys.length
  let s := s.andThen (s.tails key) (.run call)
  { s with
    keys := s.keys ++ [key]
    reactions := update s.reactions call [.cleanUp call]
    tails := update s.tails key (some call) }

/-- `fn` itself may throw before it returns a promise, which is a task that settles as soon as it runs. -/
def perform (s : State κ ω) : Reaction → State κ ω
  | .run call => { s with phase := update s.phase call .running }
  | .release call =>
    { s with
      phase := update s.phase call .released
      jobs := s.jobs ++ s.reactions call
      reactions := update s.reactions call [] }
  | .cleanUp call =>
    let s := { s with phase := update s.phase call .finished }
    match s.keys[call]? with
    | none => s
    | some key => if s.tails key = some call then { s with tails := update s.tails key none } else s

def settle (s : State κ ω) (call : Nat) (outcome : ω) : State κ ω :=
  { s with
    phase := update s.phase call .settled
    outcome := update s.outcome call (some outcome)
    jobs := s.jobs ++ [.release call] }

end State

def step (s : State κ ω) : Event κ ω → Option (State κ ω)
  | .call key => some (s.withKeyedLock key)
  | .microtask =>
    match s.jobs with
    | [] => none
    | r :: jobs => some ({ s with jobs := jobs }.perform r)
  | .settle call outcome => if s.phase call = .running then some (s.settle call outcome) else none

end Definitions

section Invariant

variable {κ ω : Type}

/-- Call `j` is the first one after call `i` that is for the same key. -/
def Follows (keys : List κ) (i j : Nat) : Prop :=
  i < j ∧ keys[i]? = keys[j]? ∧ ∀ m, i < m → m < j → keys[m]? ≠ keys[j]?

def InTurn (keys : List κ) (x y : Reaction) : Prop :=
  ∀ i j, x = .run j → y = .cleanUp i → keys[i]? ≠ keys[j]?

structure Inv (s : State κ ω) : Prop where
  unborn : ∀ i, s.keys[i]? = none → s.phase i = .waiting
  last : ∀ k i, s.tails k = some i → s.keys[i]? = some k ∧ ∀ j, s.keys[j]? = some k → j ≤ i
  kept : ∀ k i, s.tails k = some i → s.phase i ≠ .finished
  entry : ∀ k i, s.keys[i]? = some k → s.phase i ≠ .finished → s.tails k ≠ none
  order : ∀ k i j, i < j → s.keys[i]? = some k → s.keys[j]? = some k → s.phase i = .finished ∨ s.phase j = .waiting
  run : ∀ j, .run j ∈ s.jobs → s.phase j = .waiting ∧ ∃ k, s.keys[j]? = some k ∧
    ∀ i < j, s.keys[i]? = some k → (s.phase i).fulfilled
  release : ∀ i, .release i ∈ s.jobs ↔ s.phase i = .settled
  cleanUp : ∀ i, .cleanUp i ∈ s.jobs ↔ s.phase i = .released
  nodup : s.jobs.Nodup
  inTurn : s.jobs.Pairwise (InTurn s.keys)
  reactions : ∀ k i, s.keys[i]? = some k → ¬ (s.phase i).fulfilled →
    (s.tails k = some i ∧ s.reactions i = [.cleanUp i]) ∨
      ∃ j, Follows s.keys i j ∧ s.keys[j]? = some k ∧ s.reactions i = [.cleanUp i, .run j]
  waiting : ∀ k j, s.keys[j]? = some k → s.phase j = .waiting →
    .run j ∈ s.jobs ∨ ∃ i, Follows s.keys i j ∧ ¬ (s.phase i).fulfilled

variable {s : State κ ω} {i j m : Nat} {k key : κ}

theorem Inv.initial : Inv ({} : State κ ω) := by
  constructor <;> simp

theorem Inv.born (h : Inv s) (hi : s.phase i ≠ .waiting) : ∃ k, s.keys[i]? = some k := by
  cases hk : s.keys[i]? with
  | none => exact absurd (h.unborn i hk) hi
  | some k => exact ⟨k, rfl⟩

theorem key_append : (s.keys ++ [key])[i]? = some k ↔ s.keys[i]? = some k ∨ i = s.keys.length ∧ key = k := by
  grind

theorem Follows.unique (h : Follows s.keys i j) (h' : Follows s.keys i m) (hk : s.keys[j]? = s.keys[m]?) : j = m := by
  rcases Nat.lt_trichotomy j m with hlt | heq | hgt
  · exact absurd hk (h'.2.2 j h.1 hlt)
  · exact heq
  · exact absurd hk.symm (h.2.2 m h'.1 hgt)

theorem Follows.append (h : Follows s.keys i j) (hj : s.keys[j]? = some k) : Follows (s.keys ++ [key]) i j := by
  obtain ⟨hij, hk, hbetween⟩ := h
  have hlt : j < s.keys.length := (List.getElem?_eq_some_iff.mp hj).1
  refine ⟨hij, ?_, fun m him hmj => ?_⟩
  · rw [List.getElem?_append_left (Nat.lt_trans hij hlt), List.getElem?_append_left hlt, hk]
  · rw [List.getElem?_append_left (Nat.lt_trans hmj hlt), List.getElem?_append_left hlt]
    exact hbetween m him hmj

theorem follows_length (hi : s.keys[i]? = some key) (hlast : ∀ j, s.keys[j]? = some key → j ≤ i) :
    Follows (s.keys ++ [key]) i s.keys.length := by
  have hlt : i < s.keys.length := (List.getElem?_eq_some_iff.mp hi).1
  refine ⟨hlt, ?_, fun m him hm => ?_⟩
  · rw [List.getElem?_append_left hlt, List.getElem?_concat_length, hi]
  · rw [List.getElem?_append_left hm, List.getElem?_concat_length]
    exact fun hkey => absurd (hlast m hkey) (Nat.not_le.mpr him)

theorem Inv.inTurn_append (h : Inv s) : s.jobs.Pairwise (InTurn (s.keys ++ [key])) := by
  refine h.inTurn.imp_of_mem fun {x y} hx hy hxy i j hxj hyi => ?_
  subst hxj hyi
  obtain ⟨-, k, hj, -⟩ := h.run j hx
  obtain ⟨k', hi⟩ := h.born (i := i) (by rw [(h.cleanUp i).mp hy]; nofun)
  rw [key_append.mpr (.inl hi), key_append.mpr (.inl hj), ← hi, ← hj]
  exact hxy i j rfl rfl

theorem Inv.settle {outcome : ω} (hs : Inv s) (hi : s.phase i = .running) : Inv (s.settle i outcome) := by
  have hnot : ¬ (s.phase i).fulfilled := by rw [hi]; nofun
  constructor
  all_goals dsimp only [State.settle]
  case unborn => grind [hs.unborn]
  case last => exact hs.last
  case kept => grind [hs.kept]
  case entry => grind [hs.entry]
  case order => grind [hs.order]
  case run => grind [hs.run]
  case release => grind [hs.release]
  case cleanUp => grind [hs.cleanUp]
  case nodup => grind [hs.nodup, hs.release]
  case inTurn =>
    rw [List.pairwise_append]
    refine ⟨hs.inTurn, List.pairwise_singleton _ _, fun x _ y hy a b _ hya => ?_⟩
    rw [List.mem_singleton.mp hy] at hya
    cases hya
  case reactions => grind [hs.reactions]
  case waiting => grind [hs.waiting, Phase.fulfilled]

end Invariant

section Steps

variable {κ ω : Type} [DecidableEq κ] {s : State κ ω} {key k : κ} {i j p : Nat}

theorem withKeyedLock_due (h : ∀ p, s.tails key = some p → (s.phase p).fulfilled) : s.withKeyedLock key =
    { s with
      keys := s.keys ++ [key]
      reactions := update s.reactions s.keys.length [.cleanUp s.keys.length]
      jobs := s.jobs ++ [.run s.keys.length]
      tails := update s.tails key (some s.keys.length) } := by
  unfold State.withKeyedLock State.andThen
  cases hp : s.tails key with
  | none => rfl
  | some p => simp only [h p hp, if_true]

theorem withKeyedLock_pending (hp : s.tails key = some p) (h : ¬ (s.phase p).fulfilled) : s.withKeyedLock key =
    { s with
      keys := s.keys ++ [key]
      reactions := update (update s.reactions p (s.reactions p ++ [.run s.keys.length])) s.keys.length
        [.cleanUp s.keys.length]
      tails := update s.tails key (some s.keys.length) } := by
  unfold State.withKeyedLock State.andThen
  rw [hp]
  simp only [h]
  rfl

theorem Inv.call_due (hs : Inv s) (h : ∀ p, s.tails key = some p → (s.phase p).fulfilled) :
    Inv (s.withKeyedLock key) := by
  rw [withKeyedLock_due h]
  have hphase : s.phase s.keys.length = .waiting := hs.unborn _ (by simp)
  have hdone : ∀ i, s.keys[i]? = some key → (s.phase i).fulfilled := by
    intro i hi
    by_cases hf : s.phase i = .finished
    · rw [hf]; rfl
    · obtain ⟨t, ht⟩ := Option.ne_none_iff_exists'.mp (hs.entry key i hi hf)
      have ⟨htk, hle⟩ := hs.last key t ht
      rcases Nat.lt_or_eq_of_le (hle i hi) with hlt | rfl
      · rcases hs.order key i t hlt hi htk with h' | h'
        · exact absurd h' hf
        · have := h t ht
          rw [h'] at this
          cases this
      · exact h i ht
  constructor
  case unborn => grind [hs.unborn]
  case last => grind [hs.last]
  case kept => grind [hs.kept]
  case entry => grind [hs.entry]
  case order => grind [hs.order]
  case run => grind [hs.run]
  case release => grind [hs.release]
  case cleanUp => grind [hs.cleanUp]
  case nodup => grind [hs.nodup, hs.run]
  case inTurn =>
    rw [List.pairwise_append]
    refine ⟨hs.inTurn_append, List.pairwise_singleton _ _, fun x _ y hy i j _ hyi => ?_⟩
    rw [List.mem_singleton.mp hy] at hyi
    cases hyi
  case reactions =>
    intro k i hi hf
    rcases key_append.mp hi with hi | ⟨rfl, rfl⟩
    · rcases hs.reactions k i hi hf with ⟨ht, hr⟩ | ⟨j, hj, hjk, hr⟩
      · grind
      · exact .inr ⟨j, hj.append hjk, by grind, by grind⟩
    · grind
  case waiting =>
    intro k j hj hw
    rcases key_append.mp hj with hj | ⟨rfl, rfl⟩
    · rcases hs.waiting k j hj hw with hrun | ⟨i, hi, hf⟩
      · exact .inl (List.mem_append_left _ hrun)
      · exact .inr ⟨i, hi.append hj, hf⟩
    · exact .inl (by simp)

theorem Inv.call_pending (hs : Inv s) (hp : s.tails key = some p) (hf : ¬ (s.phase p).fulfilled) :
    Inv (s.withKeyedLock key) := by
  rw [withKeyedLock_pending hp hf]
  obtain ⟨hpk, hlast⟩ := hs.last key p hp
  have hphase : s.phase s.keys.length = .waiting := hs.unborn _ (by simp)
  have hlt : p < s.keys.length := (List.getElem?_eq_some_iff.mp hpk).1
  have hnext : Follows (s.keys ++ [key]) p s.keys.length := follows_length hpk hlast
  have halone : s.reactions p = [.cleanUp p] := by
    rcases hs.reactions key p hpk hf with ⟨-, hr⟩ | ⟨j, hj, hjk, -⟩
    · exact hr
    · exact absurd (hlast j hjk) (Nat.not_le.mpr hj.1)
  constructor
  case unborn => grind [hs.unborn]
  case last =>
    intro k i hi
    by_cases hk : k = key
    · subst hk
      obtain rfl : s.keys.length = i := by simpa using hi
      grind
    · have ht : s.tails k = some i := by simpa [update_of_ne hk] using hi
      grind [hs.last k i ht]
  case kept => grind [hs.kept]
  case entry => grind [hs.entry]
  case order => grind [hs.order]
  case run => grind [hs.run]
  case release => exact hs.release
  case cleanUp => exact hs.cleanUp
  case nodup => exact hs.nodup
  case inTurn => exact hs.inTurn_append
  case reactions =>
    intro k i hi hfi
    rcases key_append.mp hi with hi | ⟨rfl, rfl⟩
    · by_cases hip : i = p
      · refine .inr ⟨s.keys.length, hip ▸ hnext, by grind, ?_⟩
        grind
      · rcases hs.reactions k i hi hfi with ⟨ht, hr⟩ | ⟨j, hj, hjk, hr⟩
        · grind
        · exact .inr ⟨j, hj.append hjk, by grind, by grind⟩
    · grind
  case waiting =>
    intro k j hj hw
    rcases key_append.mp hj with hj | ⟨rfl, rfl⟩
    · rcases hs.waiting k j hj hw with hrun | ⟨i, hi, hfi⟩
      · exact .inl hrun
      · exact .inr ⟨i, hi.append hj, hfi⟩
    · exact .inr ⟨p, hnext, hf⟩

theorem Inv.call (hs : Inv s) : Inv (s.withKeyedLock key) := by
  by_cases h : ∀ p, s.tails key = some p → (s.phase p).fulfilled
  · exact hs.call_due h
  · push Not at h
    obtain ⟨p, hp, hf⟩ := h
    exact hs.call_pending hp hf

section Job

variable {jobs : List Reaction}

theorem Inv.perform_run (hs : Inv s) (hjobs : s.jobs = .run i :: jobs) :
    Inv (({ s with jobs := jobs } : State κ ω).perform (.run i)) := by
  have hnodup := List.nodup_cons.mp (hjobs ▸ hs.nodup)
  have hturn := List.pairwise_cons.mp (hjobs ▸ hs.inTurn)
  have hmem : ∀ r, r ∈ s.jobs ↔ r = .run i ∨ r ∈ jobs := by simp [hjobs]
  obtain ⟨hi, k, hk, hbefore⟩ := hs.run i (by simp [hjobs])
  -- the clean-ups of the calls before have run: none is due after this reaction
  have hfinished : ∀ j < i, s.keys[j]? = some k → s.phase j = .finished := by
    intro j hj hjk
    have hfj := hbefore j hj hjk
    by_contra hne
    have hreleased : s.phase j = .released := by
      cases hp : s.phase j <;> simp [hp, Phase.fulfilled] at hfj hne ⊢
    rcases (hmem _).mp ((hs.cleanUp j).mpr hreleased) with h | h
    · cases h
    · exact hturn.1 _ h j i rfl rfl (by rw [hjk, hk])
  constructor
  all_goals dsimp only [State.perform]
  case unborn => grind [hs.unborn]
  case last => exact hs.last
  case kept => grind [hs.kept]
  case entry => grind [hs.entry]
  case order => grind [hs.order]
  case run => grind [hs.run, Phase.fulfilled]
  case release => grind [hs.release]
  case cleanUp => grind [hs.cleanUp]
  case nodup => exact hnodup.2
  case inTurn => exact hturn.2
  case reactions => grind [hs.reactions, Phase.fulfilled]
  case waiting => grind [hs.waiting, Phase.fulfilled]

theorem Inv.perform_release (hs : Inv s) (hjobs : s.jobs = .release i :: jobs) :
    Inv (({ s with jobs := jobs } : State κ ω).perform (.release i)) := by
  have hnodup := List.nodup_cons.mp (hjobs ▸ hs.nodup)
  have hturn := List.pairwise_cons.mp (hjobs ▸ hs.inTurn)
  have hmem : ∀ r, r ∈ s.jobs ↔ r = .release i ∨ r ∈ jobs := by simp [hjobs]
  have hi : s.phase i = .settled := (hs.release i).mp (by simp [hjobs])
  obtain ⟨k, hk⟩ := hs.born (i := i) (by rw [hi]; nofun)
  have hf : ¬ (s.phase i).fulfilled := by rw [hi]; nofun
  have hbefore : ∀ j < i, s.keys[j]? = some k → s.phase j = .finished := by
    intro j hj hjk
    exact (hs.order k j i hj hjk hk).resolve_right (by rw [hi]; nofun)
  have hafter : ∀ j, i < j → s.keys[j]? = some k → s.phase j = .waiting := by
    intro j hj hjk
    exact (hs.order k i j hj hk hjk).resolve_left (by rw [hi]; nofun)
  have hdue : ∀ j, .run j ∈ jobs → s.keys[j]? ≠ some k := by
    intro j hj hjk
    obtain ⟨hw, k', hk', hdone⟩ := hs.run j ((hmem _).mpr (.inr hj))
    rcases Nat.lt_trichotomy i j with hlt | rfl | hgt
    · exact hf (hdone i hlt (by rw [hk, ← hjk, hk']))
    · rw [hi] at hw
      cases hw
    · rw [hbefore j hgt hjk] at hw
      cases hw
  have hreactions : s.reactions i = [.cleanUp i] ∨
      ∃ j, Follows s.keys i j ∧ s.keys[j]? = some k ∧ s.reactions i = [.cleanUp i, .run j] :=
    (hs.reactions k i hk hf).imp_left And.right
  constructor
  all_goals dsimp only [State.perform]
  case unborn => grind [hs.unborn]
  case last => exact hs.last
  case kept => grind [hs.kept]
  case entry => grind [hs.entry]
  case order => grind [hs.order]
  case run =>
    intro j hj
    rcases List.mem_append.mp hj with hj | hj
    · grind [hs.run, Phase.fulfilled]
    · rcases hreactions with hr | ⟨m, hm, hmk, hr⟩
      · simp [hr] at hj
      · obtain rfl : j = m := by simpa [hr] using hj
        have hji : j ≠ i := Nat.ne_of_gt hm.1
        refine ⟨by rw [update_of_ne hji, hafter j hm.1 hmk], k, hmk, fun a ha hak => ?_⟩
        rcases Nat.lt_trichotomy a i with hlt | rfl | hgt
        · rw [update_of_ne (Nat.ne_of_lt hlt), hbefore a hlt hak]
          rfl
        · rw [update_self]
          rfl
        · exact absurd (hak.trans hmk.symm) (hm.2.2 a hgt ha)
  case release => grind [hs.release]
  case cleanUp => grind [hs.cleanUp]
  case nodup =>
    rw [List.nodup_append]
    refine ⟨hnodup.2, by grind, fun r hr r' hr' heq => ?_⟩
    subst heq
    rcases hreactions with hri | ⟨m, hm, hmk, hri⟩
    · grind [hs.cleanUp]
    · grind [hs.cleanUp]
  case inTurn =>
    rw [List.pairwise_append]
    refine ⟨hturn.2, by grind [InTurn], fun x hx y hy a b hxb hya => ?_⟩
    subst hxb hya
    obtain rfl : a = i := by grind
    rw [hk]
    exact fun h => hdue b hx h.symm
  case reactions => grind [hs.reactions, Phase.fulfilled]
  case waiting =>
    intro m j hj hw
    have hji : j ≠ i := by
      rintro rfl
      simp at hw
    rw [update_of_ne hji] at hw
    rcases hs.waiting m j hj hw with hrun | ⟨a, ha, hfa⟩
    · exact .inl (List.mem_append_left _ (((hmem _).mp hrun).resolve_left nofun))
    · by_cases hai : a = i
      · subst hai
        refine .inl (List.mem_append_right _ ?_)
        rcases hs.reactions k a hk hf with ⟨ht, -⟩ | ⟨b, hb, hbk, hr⟩
        · exact absurd ((hs.last k a ht).2 j (ha.2.1 ▸ hk)) (Nat.not_le.mpr ha.1)
        · rw [hr, ha.unique hb (by rw [← ha.2.1, ← hb.2.1])]
          simp
      · exact .inr ⟨a, ha, by rwa [update_of_ne hai]⟩

theorem Inv.perform_cleanUp (hs : Inv s) (hjobs : s.jobs = .cleanUp i :: jobs) :
    Inv (({ s with jobs := jobs } : State κ ω).perform (.cleanUp i)) := by
  have hnodup := List.nodup_cons.mp (hjobs ▸ hs.nodup)
  have hturn := List.pairwise_cons.mp (hjobs ▸ hs.inTurn)
  have hmem : ∀ r, r ∈ s.jobs ↔ r = .cleanUp i ∨ r ∈ jobs := by simp [hjobs]
  have hi : s.phase i = .released := (hs.cleanUp i).mp (by simp [hjobs])
  obtain ⟨k, hk⟩ := hs.born (i := i) (by rw [hi]; nofun)
  have hbefore : ∀ j < i, s.keys[j]? = some k → s.phase j = .finished := by
    intro j hj hjk
    exact (hs.order k j i hj hjk hk).resolve_right (by rw [hi]; nofun)
  have hperform : (({ s with jobs := jobs } : State κ ω).perform (.cleanUp i)) =
      { s with
        jobs := jobs
        phase := update s.phase i .finished
        tails := if s.tails k = some i then update s.tails k none else s.tails } := by
    simp only [State.perform, hk]
    split
    · rfl
    · rfl
  rw [hperform]
  constructor
  all_goals dsimp only
  case unborn => grind [hs.unborn]
  case last => grind [hs.last]
  case kept =>
    intro k' j hj
    have hji : j ≠ i := by
      rintro rfl
      by_cases hk' : k' = k
      · subst hk'
        grind
      · have ht : s.tails k' = some j := by grind
        exact hk' (Option.some.inj ((hs.last k' j ht).1.symm.trans hk))
    have ht : s.tails k' = some j := by grind
    rw [update_of_ne hji]
    exact hs.kept k' j ht
  case entry => grind [hs.entry, hs.last]
  case order => grind [hs.order]
  case run => grind [hs.run, Phase.fulfilled]
  case release => grind [hs.release]
  case cleanUp => grind [hs.cleanUp]
  case nodup => exact hnodup.2
  case inTurn => exact hturn.2
  case reactions => grind [hs.reactions, Phase.fulfilled]
  case waiting => grind [hs.waiting, Phase.fulfilled]

end Job

theorem Inv.next {e : Event κ ω} {t : State κ ω} (hs : Inv s) (h : step s e = some t) : Inv t := by
  cases e with
  | call key =>
    obtain rfl := Option.some.inj h
    exact hs.call
  | microtask =>
    simp only [KeyedMutex.step] at h
    split at h
    · cases h
    · rename_i r jobs hjobs
      obtain rfl := Option.some.inj h
      cases r with
      | run i => exact hs.perform_run hjobs
      | release i => exact hs.perform_release hjobs
      | cleanUp i => exact hs.perform_cleanUp hjobs
  | settle i outcome =>
    simp only [KeyedMutex.step] at h
    split at h
    · rename_i hi
      obtain rfl := Option.some.inj h
      exact hs.settle hi
    · cases h

theorem inv_of_run {es : List (Event κ ω)} (h : run KeyedMutex.step {} es = some s) : Inv s :=
  (runs_free_iff.mpr h).invariant (fun _ _ _ _ hs hstep => hs.next hstep) .initial

end Steps

section Tasks

variable {κ ω : Type} {s : State κ ω} {i j : Nat} {k : κ}

theorem Inv.running_unique (hs : Inv s) (hi : s.keys[i]? = some k) (hj : s.keys[j]? = some k)
    (hri : s.phase i = .running) (hrj : s.phase j = .running) : i = j := by
  rcases Nat.lt_trichotomy i j with hlt | heq | hgt
  · rcases hs.order k i j hlt hi hj with h | h
    · rw [hri] at h; cases h
    · rw [hrj] at h; cases h
  · exact heq
  · rcases hs.order k j i hgt hj hi with h | h
    · rw [hrj] at h; cases h
    · rw [hri] at h; cases h

theorem Inv.over_of_started (hs : Inv s) (hij : i < j) (hi : s.keys[i]? = some k) (hj : s.keys[j]? = some k)
    (hstarted : s.phase j ≠ .waiting) : (s.phase i).ended := by
  rw [(hs.order k i j hij hi hj).resolve_right hstarted]
  rfl

theorem Inv.entry_iff (hs : Inv s) : s.tails k ≠ none ↔ ∃ i, s.keys[i]? = some k ∧ s.phase i ≠ .finished := by
  constructor
  · intro h
    obtain ⟨i, hi⟩ := Option.ne_none_iff_exists'.mp h
    exact ⟨i, (hs.last k i hi).1, hs.kept k i hi⟩
  · rintro ⟨i, hi, hf⟩
    exact hs.entry k i hi hf

theorem Inv.finished_iff (hs : Inv s) (hjobs : s.jobs = []) : s.phase i = .finished ↔ (s.phase i).ended := by
  have hreleased := hs.cleanUp i
  have hsettled := hs.release i
  rw [hjobs] at hreleased hsettled
  cases hi : s.phase i <;> simp [hi, Phase.ended] at hreleased hsettled ⊢

theorem Inv.waits_for (hs : Inv s) (hjobs : s.jobs = []) (hi : s.keys[i]? = some k) (hw : s.phase i = .waiting) :
    ∃ j < i, s.keys[j]? = some k ∧ s.phase j = .running := by
  induction i using Nat.strongRecOn with
  | _ i ih =>
    rcases hs.waiting k i hi hw with hrun | ⟨a, ha, hf⟩
    · rw [hjobs] at hrun
      cases hrun
    · have hak : s.keys[a]? = some k := ha.2.1.trans hi
      cases hphase : s.phase a with
      | running => exact ⟨a, ha.1, hak, hphase⟩
      | waiting =>
        obtain ⟨j, hj, hjk, hrunning⟩ := ih a ha.1 hak hphase
        exact ⟨j, Nat.lt_trans hj ha.1, hjk, hrunning⟩
      | settled =>
        have hdue := (hs.release a).mpr hphase
        rw [hjobs] at hdue
        cases hdue
      | released | finished => exact absurd (by rw [hphase]; rfl) hf

end Tasks

section Microtasks

variable {κ ω : Type} {s : State κ ω}

def Reaction.weight : Reaction → Nat
  | .release _ => 3
  | _ => 1

def State.pending (s : State κ ω) : Nat := (s.jobs.map Reaction.weight).sum

theorem Inv.weight_reactions {i : Nat} (hs : Inv s) (hi : s.phase i = .settled) :
    ((s.reactions i).map Reaction.weight).sum ≤ 2 := by
  obtain ⟨k, hk⟩ := hs.born (i := i) (by rw [hi]; nofun)
  rcases hs.reactions k i hk (by rw [hi]; nofun) with ⟨-, hr⟩ | ⟨j, -, -, hr⟩
  · rw [hr]
    exact Nat.le_succ 1
  · rw [hr]
    exact Nat.le_refl 2

variable [DecidableEq κ]

theorem Inv.pending_microtask {t : State κ ω} (hs : Inv s) (h : step s .microtask = some t) :
    t.pending < s.pending := by
  simp only [step] at h
  split at h
  · cases h
  · rename_i r jobs hjobs
    obtain rfl := Option.some.inj h
    cases r with
    | run i => simp [State.pending, State.perform, hjobs, Reaction.weight]
    | release i =>
      have hi : s.phase i = .settled := (hs.release i).mp (by simp [hjobs])
      have hle := hs.weight_reactions hi
      simp only [State.pending, State.perform, hjobs, List.map_append, List.sum_append, List.map_cons, List.sum_cons,
        Reaction.weight]
      omega
    | cleanUp i =>
      have hsame : (({ s with jobs := jobs } : State κ ω).perform (.cleanUp i)).jobs = jobs := by
        simp only [State.perform]
        split
        · rfl
        · split <;> rfl
      simp [State.pending, hsame, hjobs, Reaction.weight]

theorem Inv.drain (hs : Inv s) : ∃ n t, Transition.run step s (List.replicate n .microtask) = some t ∧ t.jobs = [] := by
  induction hn : s.pending using Nat.strongRecOn generalizing s with
  | _ n ih =>
    cases hstep : step s .microtask with
    | none =>
      refine ⟨0, s, rfl, ?_⟩
      simp only [step] at hstep
      split at hstep
      · assumption
      · cases hstep
    | some u =>
      obtain ⟨m, t, hrun, ht⟩ := ih u.pending (hn ▸ hs.pending_microtask hstep) (hs.next hstep) rfl
      refine ⟨m + 1, t, ?_, ht⟩
      rw [List.replicate_succ, Transition.run, hstep]
      exact hrun

end Microtasks

section Outcomes

variable {κ ω : Type} [DecidableEq κ] {s : State κ ω}

def Settled (s : State κ ω) : Prop := ∀ i, s.outcome i ≠ none → (s.phase i).ended

theorem perform_outcome (r : Reaction) : (s.perform r).outcome = s.outcome := by
  cases r with
  | run i => rfl
  | release i => rfl
  | cleanUp i =>
    simp only [State.perform]
    split
    · rfl
    · split <;> rfl

theorem withKeyedLock_outcome (key : κ) : (s.withKeyedLock key).outcome = s.outcome := by
  unfold State.withKeyedLock State.andThen
  simp only
  split
  · rfl
  · split <;> rfl

theorem withKeyedLock_phase (key : κ) : (s.withKeyedLock key).phase = s.phase := by
  unfold State.withKeyedLock State.andThen
  simp only
  split
  · rfl
  · split <;> rfl

theorem over_perform {r : Reaction} {i : Nat} (hr : r ≠ .run i) (h : (s.phase i).ended) :
    ((s.perform r).phase i).ended := by
  cases r with
  | run j =>
    have hij : i ≠ j := fun hij => hr (congrArg Reaction.run hij.symm)
    simpa [State.perform, update_of_ne hij] using h
  | release j =>
    by_cases hij : i = j
    · subst hij
      simp [State.perform, Phase.ended]
    · simpa [State.perform, update_of_ne hij] using h
  | cleanUp j =>
    have hphase : (s.perform (.cleanUp j)).phase = update s.phase j .finished := by
      simp only [State.perform]
      split
      · rfl
      · split <;> rfl
    rw [hphase]
    by_cases hij : i = j
    · subst hij
      simp [Phase.ended]
    · rwa [update_of_ne hij]

theorem step_outcome {e : Event κ ω} {t : State κ ω} (hi : Inv s) (hs : Settled s) (h : step s e = some t) :
    Settled t ∧ ∀ i o, t.outcome i = some o ↔ s.outcome i = some o ∨ e = .settle i o := by
  cases e with
  | call key =>
    obtain rfl := Option.some.inj h
    have houtcome := withKeyedLock_outcome (s := s) key
    have hphase : (s.withKeyedLock key).phase = s.phase := withKeyedLock_phase key
    refine ⟨fun i => ?_, fun i o => ?_⟩
    · rw [houtcome, hphase]
      exact hs i
    · rw [houtcome]
      simp
  | microtask =>
    simp only [step] at h
    split at h
    · cases h
    · rename_i r jobs hjobs
      obtain rfl := Option.some.inj h
      have houtcome := perform_outcome (s := { s with jobs := jobs }) r
      refine ⟨fun i => ?_, fun i o => ?_⟩
      · rw [houtcome]
        intro ho
        refine over_perform ?_ (hs i ho)
        rintro rfl
        have hw := (hi.run i (by rw [hjobs]; exact List.mem_cons_self)).1
        have hover := hs i ho
        rw [hw] at hover
        cases hover
      · rw [houtcome]
        simp
  | settle j o' =>
    simp only [step] at h
    split at h
    · rename_i hrunning
      obtain rfl := Option.some.inj h
      have hnone : s.outcome j = none := by
        by_contra ho
        have hover := hs j ho
        rw [hrunning] at hover
        cases hover
      refine ⟨fun i => ?_, fun i o => ?_⟩
      · by_cases hij : i = j
        · subst hij
          intro
          simp [State.settle, Phase.ended]
        · simpa [State.settle, update_of_ne hij] using hs i
      · by_cases hij : i = j
        · subst hij
          simp [State.settle, hnone]
        · simp [State.settle, update_of_ne hij, Ne.symm hij]
    · cases h

theorem outcome_iff {es : List (Event κ ω)} {t : State κ ω} (h : run step {} es = some t) (i : Nat) (o : ω) :
    t.outcome i = some o ↔ .settle i o ∈ es := by
  have hrun : ∀ (es : List (Event κ ω)) (s : State κ ω), Inv s → Settled s → run step s es = some t →
      (t.outcome i = some o ↔ s.outcome i = some o ∨ .settle i o ∈ es) := by
    intro es
    induction es with
    | nil =>
      intro s _ _ h
      obtain rfl := Option.some.inj h
      simp
    | cons e es ih =>
      intro s hi hs h
      obtain ⟨u, hu, ht⟩ := Option.bind_eq_some_iff.mp h
      obtain ⟨hsu, houtcome⟩ := step_outcome hi hs hu
      rw [ih u (hi.next hu) hsu ht, houtcome, List.mem_cons, or_assoc, eq_comm (a := e)]
  rw [hrun es {} .initial (fun _ h => absurd rfl h) h]
  simp

end Outcomes

section Runs

variable {κ ε α : Type} [DecidableEq κ]

/-- In every order of calls, reactions and tasks that settle: the tasks of a key run one at a time and in the order of
the calls; a promise settles as its own task does; once the reactions that are due have run, a task waits only for one
of its own key that runs; and a key has an entry as long as a task of its has not settled and been cleaned up after. -/
theorem withKeyedLock_serializes {es : List (Event κ (Except ε α))} {s : State κ (Except ε α)}
    (h : run step {} es = some s) :
    (∀ k i j, s.keys[i]? = some k → s.keys[j]? = some k → s.phase i = .running → s.phase j = .running → i = j) ∧
    (∀ k i j, i < j → s.keys[i]? = some k → s.keys[j]? = some k → s.phase j ≠ .waiting → (s.phase i).ended) ∧
    (∀ i o, s.outcome i = some o ↔ .settle i o ∈ es) ∧
    (∃ n t, run step s (List.replicate n .microtask) = some t ∧ t.jobs = []) ∧
    (s.jobs = [] → ∀ k i, s.keys[i]? = some k → s.phase i = .waiting →
      ∃ j < i, s.keys[j]? = some k ∧ s.phase j = .running) ∧
    (∀ k, s.tails k ≠ none ↔ ∃ i, s.keys[i]? = some k ∧ s.phase i ≠ .finished) ∧
    (s.jobs = [] → ∀ k, s.tails k ≠ none ↔ ∃ i, s.keys[i]? = some k ∧ ¬ (s.phase i).ended) := by
  have hs : Inv s := inv_of_run h
  refine ⟨fun k i j => hs.running_unique, fun k i j => hs.over_of_started, outcome_iff h, hs.drain,
    fun hjobs k i => hs.waits_for hjobs, fun k => hs.entry_iff, fun hjobs k => ?_⟩
  rw [hs.entry_iff]
  refine exists_congr fun i => and_congr_right fun _ => ?_
  rw [ne_eq, hs.finished_iff hjobs]

theorem withKeyedLock_serializes_failure :
    ∃ s : State String (Except String Nat), (s.jobs = [] ∧ s.keys = ["k", "k", "l"]) ∧
      (s.phase 0 = .finished ∧ s.phase 1 = .running ∧ s.phase 2 = .running) ∧
      s.outcome 0 = some (.error "boom") ∧ ∃ i, s.keys[i]? = some "k" ∧ ¬ (s.phase i).ended := by
  have hrun : ∃ s : State String (Except String Nat), run step {}
      [.call "k", .call "k", .call "l", .microtask, .microtask, .settle 0 (.error "boom"), .microtask, .microtask,
        .microtask] = some s ∧ (s.jobs = [] ∧ s.keys = ["k", "k", "l"]) ∧
      (s.phase 0 = .finished ∧ s.phase 1 = .running ∧ s.phase 2 = .running) ∧ s.tails "k" ≠ none :=
    ⟨_, rfl, ⟨rfl, rfl⟩, ⟨rfl, rfl, rfl⟩, by decide⟩
  obtain ⟨s, hs, hjobs, hphase, htail⟩ := hrun
  have hserial := withKeyedLock_serializes hs
  exact ⟨s, hjobs, hphase, (hserial.2.2.1 0 _).mpr (by simp), (hserial.2.2.2.2.2.2 hjobs.1 "k").mp htail⟩

end Runs

end A2Wave.KeyedMutex
