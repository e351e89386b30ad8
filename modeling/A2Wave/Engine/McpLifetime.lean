import A2Wave.Engine.McpSync
import Mathlib.Data.List.Count

/-! How long the entries that a sync writes stay in a managed MCP config. -/

namespace A2Wave.McpSync

open Transition

@[simp] theorem Run.phase_at (run : Run) (phase : Phase) : (run.at phase).phase = phase := rfl

@[simp] theorem Run.processInstanceId_at (run : Run) (phase : Phase) :
    (run.at phase).processInstanceId = run.processInstanceId := rfl

abbrev LockInv : State → Prop :=
  Pool.Exclusive (fun (s : Shared) replica => s.locked replica = true)
    fun run replica => run.phase.holdsLock = true ∧ run.processInstanceId = replica

section Lock

variable {number : ℚ → String} {s s' : Shared} {run : Run} {c : Choice} {phase : Phase} {p : State} {i : Nat}

inductive Locks (s : Shared) (run : Run) (s' : Shared) (phase : Phase) : Prop
  | keeps : phase.holdsLock = run.phase.holdsLock → s'.locked = s.locked → Locks s run s' phase
  | takes : s.locked run.processInstanceId = false →
      s'.locked = Function.update s.locked run.processInstanceId true → Locks s run s' phase
  | frees : run.phase.holdsLock = true → phase.holdsLock = false →
      s'.locked = Function.update s.locked run.processInstanceId false → Locks s run s' phase

theorem holdsLock_of_isClearing (h : phase.isClearing = true) : phase.holdsLock = true := by
  cases phase <;> first | rfl | cases h

theorem Does.locks (h : Does number s run c s' phase) : Locks s run s' phase := by
  cases h with
  | lock hphase hfree | dropLast hphase hfree _ => exact .takes hfree rfl
  | read hphase | plan hphase | writeConfig hphase | failMarker hphase => exact .keeps (by rw [hphase]; rfl) rfl
  | writeMarker hphase | restore hphase | leave hphase _ => exact .frees (by rw [hphase]; rfl) rfl rfl
  | refuse hphase =>
    refine .frees ?_ rfl rfl
    obtain hphase | ⟨read, plan, hphase⟩ := hphase <;> rw [hphase] <;> rfl
  | abandon hphase => exact .frees (holdsLock_of_isClearing hphase) rfl rfl
  | drop hphase _ => exact .keeps (by rw [hphase]; rfl) rfl
  | own hphase _ _ => exact .keeps (by rw [hphase]; rfl) rfl
  | strip hphase => exact .keeps (by rw [hphase]; rfl) rfl
  | dropConfig hphase => exact .keeps (by rw [hphase]; rfl) rfl
  | dropMarker hphase => exact .frees (by rw [hphase]; rfl) rfl rfl

theorem LockInv.act (h : LockInv p) (hi : p.threads[i]? = some run) (hlocks : Locks p.shared run s' phase) :
    LockInv ⟨s', p.threads.set i (run.at phase)⟩ := by
  have hown : ∀ replica, run.phase.holdsLock = true ∧ run.processInstanceId = replica →
      p.shared.locked replica = true := h.flagged run (List.mem_of_getElem? hi)
  refine Pool.Exclusive.act h hi ?_ ?_ ?_
  · rintro replica ⟨hphase, hreplica⟩
    simp only [Run.phase_at, Run.processInstanceId_at] at hphase hreplica
    subst hreplica
    cases hlocks with
    | keeps hsame _ =>
      rw [hsame] at hphase
      exact .inl ⟨hphase, rfl⟩
    | takes hfree _ => exact .inr (Bool.eq_false_iff.mp hfree)
    | frees _ hphase' _ =>
      rw [hphase'] at hphase
      cases hphase
  · rintro replica ⟨hphase, hreplica⟩
    simp only [Run.phase_at, Run.processInstanceId_at] at hphase hreplica
    subst hreplica
    cases hlocks with
    | keeps hsame hlocked =>
      rw [hsame] at hphase
      rw [hlocked]
      exact hown _ ⟨hphase, rfl⟩
    | takes _ hlocked => rw [hlocked, Function.update_self]
    | frees _ hphase' _ =>
      rw [hphase'] at hphase
      cases hphase
  · rintro j other replica hj hother ⟨hphase, hreplica⟩
    have hlocked := h.flagged other (List.mem_of_getElem? hother) replica ⟨hphase, hreplica⟩
    cases hlocks with
    | keeps _ hsame => rw [hsame]; exact hlocked
    | takes _ hsame =>
      rw [hsame, Function.update_apply]
      split
      · rfl
      · exact hlocked
    | frees hphase' _ hsame =>
      rw [hsame, Function.update_of_ne]
      · exact hlocked
      · intro heq
        exact h.apart i j run other (Ne.symm hj) hi hother replica ⟨hphase', heq.symm⟩ ⟨hphase, hreplica⟩

end Lock

section Invariant

variable (number : ℚ → String) (user : Fields)

def NoneSynced (threads : List Run) (replica : String) : Prop :=
  ∀ run ∈ threads, run.processInstanceId = replica → run.phase.isSynced = false

def Owed (threads : List Run) (replica : String) : Prop :=
  ∃ run ∈ threads, run.processInstanceId = replica ∧ (run.phase.isSynced = true ∨ run.phase.isReleasing = true)

inductive Settled (threads : List Run) (servers : Fields) (marker : JsonFile)
    (latest : Option (String × Fields)) : Prop
  | clear : readManagedMarker marker = none → Within servers user →
      (∀ replica entries, latest = some (replica, entries) → NoneSynced threads replica) →
      Settled threads servers marker latest
  | managed {m replica entries} : readManagedMarker marker = some m → m.ownerInstanceId = some replica →
      latest = some (replica, entries) → Carries number user servers m.managedServers entries →
      Owed threads replica → Settled threads servers marker latest

structure Written (threads : List Run) (s : Shared) (replica : String) (read : JsonFileRead) (plan : Plan)
    (previous : Option (String × Fields)) : Prop where
  wasRead : ∃ file, read = readJsonRecord file
  undone : Settled number user threads (serversOf read.record) s.marker previous
  latest : s.latest = some (replica, plan.entries)
  carries : Carries number user s.config.servers plan.nextManagedMarker.managedServers plan.entries
  fingerprinted : Fingerprinted plan.nextManagedMarker.managedServers
  owner : plan.nextManagedMarker.ownerInstanceId = some replica

def View (threads : List Run) (s : Shared) (run : Run) : Prop :=
  match run.phase with
  | .readingMarker read => read = readJsonRecord s.config
  | .writingConfig read plan => read = readJsonRecord s.config ∧ ∃ now,
      plan = planSync number now run.processInstanceId (buildManagedMcpServers run.servers run.dialect) read
        (readManagedMarker s.marker)
  | .writingMarker read plan previous => Written number user threads s run.processInstanceId read plan previous
  | .restoring read plan previous => Written number user threads s run.processInstanceId read plan previous
  | .stripping marker => readManagedMarker s.marker = some marker ∧
      ownsManagedMarker run.processInstanceId marker = true
  | .dropping config => ∃ marker, readManagedMarker s.marker = some marker ∧
      ownsManagedMarker run.processInstanceId marker = true ∧
      config = strip number marker (readJsonRecord s.config).record
  | .droppingMarker => Within s.config.servers user ∧ ∃ entries, s.latest = some (run.processInstanceId, entries)
  | _ => True

def heldBy (replica : String) (run : Run) : Bool :=
  run.phase.isSynced && decide (run.processInstanceId = replica)

structure Inv (p : State) : Prop where
  lock : LockInv p
  refs : ∀ replica, p.shared.managedMcpConfigRefs replica = p.threads.countP (heldBy replica)
  last : ∀ run ∈ p.threads, run.phase.isReleasing = true → NoneSynced p.threads run.processInstanceId
  views : ∀ run ∈ p.threads, View number user p.threads p.shared run
  settled : (∀ run ∈ p.threads, run.phase.isMidway = false) →
    Settled number user p.threads p.shared.config.servers p.shared.marker p.shared.latest

end Invariant

section Threads

variable {number : ℚ → String} {user : Fields} {threads threads' : List Run} {run run' : Run} {i : Nat}
  {replica : String}

theorem countP_set {α : Type} {l : List α} {q : α → Bool} {i : Nat} {a : α} (b : α) (hi : l[i]? = some a) :
    (l.set i b).countP q + (if q a then 1 else 0) = l.countP q + (if q b then 1 else 0) := by
  induction l generalizing i with
  | nil => cases hi
  | cons x l ih =>
    cases i with
    | zero =>
      cases hi
      simp only [List.set_cons_zero, List.countP_cons]
      omega
    | succ i =>
      have hrest := ih (i := i) hi
      simp only [List.set_cons_succ, List.countP_cons]
      omega

theorem NoneSynced.set (h : NoneSynced threads replica)
    (hrun : run'.processInstanceId = replica → run'.phase.isSynced = false) :
    NoneSynced (threads.set i run') replica := by
  intro other hother hreplica
  rcases List.mem_or_eq_of_mem_set hother with hother | rfl
  · exact h other hother hreplica
  · exact hrun hreplica

theorem Owed.set (h : Owed threads replica) (hi : threads[i]? = some run)
    (hrun : run.processInstanceId = replica → run.phase.isSynced = true ∨ run.phase.isReleasing = true →
      Owed (threads.set i run') replica) : Owed (threads.set i run') replica := by
  obtain ⟨other, hother, hreplica, howes⟩ := h
  obtain ⟨j, hj⟩ := List.mem_iff_getElem?.mp hother
  by_cases hji : i = j
  · subst hji
    rw [hi] at hj
    cases hj
    exact hrun hreplica howes
  · refine ⟨other, ?_, hreplica, howes⟩
    apply List.mem_of_getElem? (i := j)
    rw [List.getElem?_set_ne hji]
    exact hj

theorem mem_set_self (hi : threads[i]? = some run) : run' ∈ threads.set i run' :=
  List.mem_set (List.getElem?_eq_some_iff.mp hi).1 run'

theorem Owed.of_run (hi : threads[i]? = some run) (hreplica : run'.processInstanceId = replica)
    (h : run'.phase.isSynced = true ∨ run'.phase.isReleasing = true) : Owed (threads.set i run') replica :=
  ⟨run', mem_set_self hi, hreplica, h⟩

theorem Settled.keep {servers : Fields} {marker : JsonFile} {latest : Option (String × Fields)}
    (h : Settled number user threads servers marker latest)
    (hnone : ∀ replica, NoneSynced threads replica → NoneSynced threads' replica)
    (howed : ∀ m replica, readManagedMarker marker = some m → m.ownerInstanceId = some replica →
      Owed threads replica → Owed threads' replica) :
    Settled number user threads' servers marker latest := by
  cases h with
  | clear hmarker hservers hlatest =>
    exact .clear hmarker hservers fun replica entries heq => hnone replica (hlatest replica entries heq)
  | managed hmarker howner hlatest hcarries h =>
    exact .managed hmarker howner hlatest hcarries (howed _ _ hmarker howner h)

end Threads

section Step

variable {number : ℚ → String} {user : Fields} {p : State} {s s' : Shared} {run run' : Run} {c : Choice}
  {phase : Phase} {i : Nat} {replica : String}

theorem view_of_outside {threads : List Run} (h : run.phase.isInside = false) : View number user threads s run := by
  unfold View
  cases hphase : run.phase <;> first | trivial | (rw [hphase] at h; cases h)

theorem isMidway_of_outside (h : run.phase.isInside = false) : run.phase.isMidway = false := by
  cases hphase : run.phase <;> first | rfl | (rw [hphase] at h; cases h)

theorem Written.keep {threads threads' : List Run} {read : JsonFileRead} {plan : Plan}
    {previous : Option (String × Fields)} (h : Written number user threads s replica read plan previous)
    (hconfig : s'.config = s.config) (hmarker : s'.marker = s.marker) (hlatest : s'.latest = s.latest)
    (hsettled : ∀ servers latest, Settled number user threads servers s.marker latest →
      Settled number user threads' servers s.marker latest) :
    Written number user threads' s' replica read plan previous where
  wasRead := h.wasRead
  undone := by
    rw [hmarker]
    exact hsettled _ _ h.undone
  latest := by
    rw [hlatest]
    exact h.latest
  carries := by
    rw [hconfig]
    exact h.carries
  fingerprinted := h.fingerprinted
  owner := h.owner

theorem View.keep {threads threads' : List Run} (h : View number user threads s run)
    (hconfig : s'.config = s.config) (hmarker : s'.marker = s.marker) (hlatest : s'.latest = s.latest)
    (hsettled : ∀ servers latest, Settled number user threads servers s.marker latest →
      Settled number user threads' servers s.marker latest) : View number user threads' s' run := by
  cases hphase : run.phase with
  | readingMarker read => simpa only [View, hphase, hconfig] using h
  | writingConfig read plan | dropping config => simpa only [View, hphase, hconfig, hmarker] using h
  | writingMarker read plan previous | restoring read plan previous =>
    simp only [View, hphase] at h ⊢
    exact h.keep hconfig hmarker hlatest hsettled
  | stripping marker => simpa only [View, hphase, hmarker] using h
  | droppingMarker => simpa only [View, hphase, hconfig, hlatest] using h
  | preparing | probing | synced entries | releasing | done => simp only [View, hphase]

theorem Inv.spawn (h : Inv number user p) (hphase : run.phase = .preparing) :
    Inv number user ⟨p.shared, p.threads ++ [run]⟩ := by
  have hnone : ∀ replica, NoneSynced p.threads replica → NoneSynced (p.threads ++ [run]) replica := by
    intro replica hreplica other hother heq
    rcases List.mem_append.mp hother with hother | hother
    · exact hreplica other hother heq
    · rw [List.mem_singleton.mp hother, hphase]
      rfl
  have hsettled : ∀ servers latest, Settled number user p.threads servers p.shared.marker latest →
      Settled number user (p.threads ++ [run]) servers p.shared.marker latest := by
    intro servers latest hservers
    refine hservers.keep hnone ?_
    rintro m replica _ _ ⟨other, hother, howes⟩
    exact ⟨other, List.mem_append_left _ hother, howes⟩
  constructor
  · apply h.lock.spawn
    intro replica hholds
    rw [hphase] at hholds
    cases hholds.1
  · intro replica
    have hheld : heldBy replica run = false := by simp [heldBy, hphase, Phase.isSynced]
    rw [List.countP_append, List.countP_singleton, hheld]
    exact h.refs replica
  · intro other hother hreleasing
    rcases List.mem_append.mp hother with hother | hother
    · exact hnone _ (h.last other hother hreleasing)
    · rw [List.mem_singleton.mp hother, hphase] at hreleasing
      cases hreleasing
  · intro other hother
    rcases List.mem_append.mp hother with hother | hother
    · exact (h.views other hother).keep rfl rfl rfl hsettled
    · apply view_of_outside
      rw [List.mem_singleton.mp hother, hphase]
      rfl
  · intro hmidway
    apply hsettled
    apply h.settled
    intro other hother
    exact hmidway other (List.mem_append_left _ hother)

theorem Inv.act (h : Inv number user p)
    (hlock : LockInv ⟨s', p.threads.set i run'⟩)
    (hrefs : ∀ replica, s'.managedMcpConfigRefs replica = (p.threads.set i run').countP (heldBy replica))
    (hlast : ∀ other ∈ p.threads.set i run', other.phase.isReleasing = true →
      NoneSynced (p.threads.set i run') other.processInstanceId)
    (hothers : ∀ (j : Nat) (other : Run), j ≠ i → p.threads[j]? = some other →
      View number user p.threads p.shared other → View number user (p.threads.set i run') s' other)
    (hview : View number user (p.threads.set i run') s' run')
    (hsettled : (∀ other ∈ p.threads.set i run', other.phase.isMidway = false) →
      Settled number user (p.threads.set i run') s'.config.servers s'.marker s'.latest) :
    Inv number user ⟨s', p.threads.set i run'⟩ := by
  refine ⟨hlock, hrefs, hlast, ?_, hsettled⟩
  intro other hother
  obtain ⟨j, hj⟩ := List.mem_iff_getElem?.mp hother
  rcases Pool.getElem?_set_cases hj with ⟨-, rfl⟩ | ⟨hne, hj⟩
  · exact hview
  · exact hothers j other hne hj (h.views other (List.mem_of_getElem? hj))

theorem Inv.keep (h : Inv number user p) (hi : p.threads[i]? = some run)
    (hlock : LockInv ⟨s', p.threads.set i run'⟩)
    (hrefs : ∀ replica, s'.managedMcpConfigRefs replica = (p.threads.set i run').countP (heldBy replica))
    (hlast : ∀ other ∈ p.threads.set i run', other.phase.isReleasing = true →
      NoneSynced (p.threads.set i run') other.processInstanceId)
    (hconfig : s'.config = p.shared.config) (hmarker : s'.marker = p.shared.marker)
    (hlatest : s'.latest = p.shared.latest)
    (hkeeps : ∀ servers latest, Settled number user p.threads servers p.shared.marker latest →
      Settled number user (p.threads.set i run') servers p.shared.marker latest)
    (hview : View number user (p.threads.set i run') s' run')
    (hmidway : run'.phase.isMidway = false → run.phase.isMidway = false) :
    Inv number user ⟨s', p.threads.set i run'⟩ := by
  refine h.act hlock hrefs hlast ?_ hview ?_
  · intro j other _ _ hother
    exact hother.keep hconfig hmarker hlatest hkeeps
  · intro hnone
    rw [hconfig, hmarker, hlatest]
    apply hkeeps
    apply h.settled
    intro other hother
    obtain ⟨j, hj⟩ := List.mem_iff_getElem?.mp hother
    by_cases hji : i = j
    · subst hji
      rw [hi] at hj
      cases hj
      exact hmidway (hnone run' (mem_set_self hi))
    · apply hnone other
      apply List.mem_of_getElem? (i := j)
      rw [List.getElem?_set_ne hji]
      exact hj

theorem countP_heldBy (hi : p.threads[i]? = some run) (replica : String) (hold : run.phase.isSynced = false)
    (hnew : run'.phase.isSynced = false) :
    (p.threads.set i run').countP (heldBy replica) = p.threads.countP (heldBy replica) := by
  have hcount := countP_set (q := heldBy replica) run' hi
  simpa [heldBy, hold, hnew] using hcount

theorem last_set (h : Inv number user p) (hi : p.threads[i]? = some run) (hnew : run'.phase.isSynced = false)
    (hreplica : run'.processInstanceId = run.processInstanceId)
    (hreleasing : run'.phase.isReleasing = true → run.phase.isReleasing = true) :
    ∀ other ∈ p.threads.set i run', other.phase.isReleasing = true →
      NoneSynced (p.threads.set i run') other.processInstanceId := by
  intro other hother hphase
  apply NoneSynced.set _ fun _ => hnew
  rcases List.mem_or_eq_of_mem_set hother with hother | rfl
  · exact h.last other hother hphase
  · rw [hreplica]
    exact h.last run (List.mem_of_getElem? hi) (hreleasing hphase)

theorem Inv.quiet (h : Inv number user p) (hi : p.threads[i]? = some run)
    (hlocks : Locks p.shared run s' phase) (hrefs : s'.managedMcpConfigRefs = p.shared.managedMcpConfigRefs)
    (hconfig : s'.config = p.shared.config) (hmarker : s'.marker = p.shared.marker)
    (hlatest : s'.latest = p.shared.latest) (hold : run.phase.isSynced = false) (hnew : phase.isSynced = false)
    (hreleasing : phase.isReleasing = true → run.phase.isReleasing = true)
    (howed : run.phase.isReleasing = true → phase.isReleasing = true ∨
      ∀ m, readManagedMarker p.shared.marker = some m → m.ownerInstanceId ≠ some run.processInstanceId)
    (hview : (∀ servers latest, Settled number user p.threads servers p.shared.marker latest →
        Settled number user (p.threads.set i (run.at phase)) servers p.shared.marker latest) →
      View number user (p.threads.set i (run.at phase)) s' (run.at phase))
    (hmidway : phase.isMidway = false → run.phase.isMidway = false) :
    Inv number user ⟨s', p.threads.set i (run.at phase)⟩ := by
  have hkeeps : ∀ servers latest, Settled number user p.threads servers p.shared.marker latest →
      Settled number user (p.threads.set i (run.at phase)) servers p.shared.marker latest := by
    intro servers latest hservers
    refine hservers.keep (fun replica hreplica => hreplica.set fun _ => hnew) ?_
    intro m replica hm howner hreplica
    refine hreplica.set hi ?_
    rintro rfl (hphase | hphase)
    · rw [hold] at hphase
      cases hphase
    · rcases howed hphase with hphase | hother
      · exact .of_run hi rfl (.inr hphase)
      · exact absurd howner (hother m hm)
  refine h.keep hi (h.lock.act hi hlocks) ?_ ?_ hconfig hmarker hlatest hkeeps (hview hkeeps) hmidway
  · intro replica
    rw [hrefs, countP_heldBy hi replica hold hnew]
    exact h.refs replica
  · exact last_set h hi hnew rfl hreleasing

theorem Inv.begin {entries : Fields} {refs : Nat} (h : Inv number user p) (hi : p.threads[i]? = some run)
    (hphase : run.phase = .synced entries) (hlocks : Locks p.shared run s' phase)
    (hrefs : s'.managedMcpConfigRefs = Function.update p.shared.managedMcpConfigRefs run.processInstanceId refs)
    (hcount : refs + 1 = p.shared.managedMcpConfigRefs run.processInstanceId)
    (hconfig : s'.config = p.shared.config) (hmarker : s'.marker = p.shared.marker)
    (hlatest : s'.latest = p.shared.latest)
    (hnew : phase = .done ∧ 0 < refs ∨ phase = .releasing ∧ refs = 0) :
    Inv number user ⟨s', p.threads.set i (run.at phase)⟩ := by
  have hsynced : phase.isSynced = false := by
    rcases hnew with ⟨rfl, _⟩ | ⟨rfl, _⟩ <;> rfl
  have houtside : (run.at phase).phase.isInside = false := by
    rcases hnew with ⟨rfl, _⟩ | ⟨rfl, _⟩ <;> rfl
  have hcountP : ∀ replica, s'.managedMcpConfigRefs replica =
      (p.threads.set i (run.at phase)).countP (heldBy replica) := by
    intro replica
    have hset := countP_set (q := heldBy replica) (run.at phase) hi
    rw [hrefs, Function.update_apply]
    have hnow : heldBy replica (run.at phase) = false := by simp [heldBy, hsynced]
    rw [hnow] at hset
    split
    · rename_i hreplica
      subst hreplica
      have hbefore : heldBy run.processInstanceId run = true := by simp [heldBy, hphase, Phase.isSynced]
      rw [hbefore, ← h.refs] at hset
      simp only [↓reduceIte, Bool.false_eq_true, Nat.add_zero] at hset
      omega
    · rename_i hreplica
      have hbefore : heldBy replica run = false := by simp [heldBy, Ne.symm hreplica]
      rw [hbefore, ← h.refs] at hset
      simpa using hset.symm
  -- the last reference of a replica is dropped exactly when none of its runs is left
  have hnone : refs = 0 → NoneSynced (p.threads.set i (run.at phase)) run.processInstanceId := by
    intro hzero other hother hreplica
    have hcount := hcountP run.processInstanceId
    rw [hrefs, Function.update_self, hzero] at hcount
    have hheld := List.countP_eq_zero.mp hcount.symm other hother
    simpa [heldBy, hreplica] using hheld
  have howed : Owed (p.threads.set i (run.at phase)) run.processInstanceId := by
    rcases hnew with ⟨rfl, hpos⟩ | ⟨rfl, -⟩
    · have hcount := hcountP run.processInstanceId
      rw [hrefs, Function.update_self] at hcount
      obtain ⟨other, hother, hheld⟩ := List.countP_pos_iff.mp (hcount ▸ hpos)
      simp only [heldBy, Bool.and_eq_true, decide_eq_true_eq] at hheld
      exact ⟨other, hother, hheld.2, .inl hheld.1⟩
    · exact .of_run hi rfl (.inr rfl)
  refine h.keep hi (h.lock.act hi hlocks) hcountP ?_ hconfig hmarker hlatest ?_ (view_of_outside houtside) ?_
  · intro other hother hreleasing
    rcases List.mem_or_eq_of_mem_set hother with hmem | rfl
    · exact (h.last other hmem hreleasing).set fun _ => hsynced
    · rcases hnew with ⟨rfl, _⟩ | ⟨rfl, hzero⟩
      · cases hreleasing
      · exact hnone hzero
  · intro servers latest hservers
    refine hservers.keep (fun replica hreplica => hreplica.set fun _ => hsynced) ?_
    intro m replica _ _ hreplica
    refine hreplica.set hi ?_
    rintro rfl _
    exact howed
  · intro _
    rw [hphase]
    rfl

theorem others_outside {now : Nat} (h : Inv number user p) (hi : p.threads[i]? = some run)
    (hok : apart p (.act i (.go now)) = true) (hwriting : run.phase.isWriting = true) :
    ∀ (j : Nat) (other : Run), j ≠ i → p.threads[j]? = some other → other.phase.isInside = false := by
  intro j other hj hother
  by_cases hreplica : other.processInstanceId = run.processInstanceId
  · have hrun : run.phase.holdsLock = true := by
      cases hphase : run.phase <;> first | rfl | (rw [hphase] at hwriting; cases hwriting)
    have hfree := h.lock.apart i j run other (Ne.symm hj) hi hother run.processInstanceId ⟨hrun, rfl⟩
    cases hphase : other.phase <;> first | rfl | exact absurd ⟨by rw [hphase]; rfl, hreplica⟩ hfree
  · simp only [apart, hi, Option.all_some, hwriting, Bool.not_true, Bool.false_or, List.all_eq_true] at hok
    simpa [hreplica] using hok other (List.mem_of_getElem? hother)

theorem settled_of_outside (h : Inv number user p) (hi : p.threads[i]? = some run)
    (hmidway : run.phase.isMidway = false)
    (hothers : ∀ (j : Nat) (other : Run), j ≠ i → p.threads[j]? = some other → other.phase.isInside = false) :
    Settled number user p.threads p.shared.config.servers p.shared.marker p.shared.latest := by
  apply h.settled
  intro other hother
  obtain ⟨j, hj⟩ := List.mem_iff_getElem?.mp hother
  by_cases hji : j = i
  · subst hji
    rw [hi] at hj
    cases hj
    exact hmidway
  · exact isMidway_of_outside (hothers j other hji hj)

theorem Inv.write (h : Inv number user p) (hi : p.threads[i]? = some run) (hlocks : Locks p.shared run s' phase)
    (hothers : ∀ (j : Nat) (other : Run), j ≠ i → p.threads[j]? = some other → other.phase.isInside = false)
    (hrefs : s'.managedMcpConfigRefs = p.shared.managedMcpConfigRefs)
    (hold : run.phase.isSynced = false) (hnew : phase.isSynced = false)
    (hreleasing : phase.isReleasing = true → run.phase.isReleasing = true)
    (hview : View number user (p.threads.set i (run.at phase)) s' (run.at phase))
    (hsettled : phase.isMidway = false →
      Settled number user (p.threads.set i (run.at phase)) s'.config.servers s'.marker s'.latest) :
    Inv number user ⟨s', p.threads.set i (run.at phase)⟩ := by
  refine h.act (h.lock.act hi hlocks) ?_ (last_set h hi hnew rfl hreleasing) ?_ hview ?_
  · intro replica
    rw [hrefs, countP_heldBy hi replica hold hnew]
    exact h.refs replica
  · intro j other hj hother _
    exact view_of_outside (hothers j other hj hother)
  · intro hnone
    exact hsettled (hnone (run.at phase) (mem_set_self hi))

theorem Settled.set {servers : Fields} {marker : JsonFile} {latest : Option (String × Fields)}
    (h : Settled number user p.threads servers marker latest) (hi : p.threads[i]? = some run)
    (hold : run.phase.isSynced = false) (hreleasing : run.phase.isReleasing = false)
    (hnew : run'.phase.isSynced = false) :
    Settled number user (p.threads.set i run') servers marker latest := by
  refine h.keep (fun replica hreplica => hreplica.set fun _ => hnew) ?_
  intro m replica _ _ hreplica
  refine hreplica.set hi ?_
  rintro - (hphase | hphase)
  · rw [hold] at hphase
    cases hphase
  · rw [hreleasing] at hphase
    cases hphase

theorem Settled.removeManaged {threads : List Run} {servers : Fields} {marker : JsonFile}
    {latest : Option (String × Fields)} (h : Settled number user threads servers marker latest) :
    Within (removeManaged number (((readManagedMarker marker).map (·.managedServers)).getD .nil) servers) user := by
  cases h with
  | clear hmarker hservers _ => exact hservers.removeManaged
  | managed hmarker _ _ hcarries _ =>
    rw [hmarker]
    exact hcarries.removeManaged

section Writes

variable {read : JsonFileRead} {plan : Plan} {previous : Option (String × Fields)}

theorem Inv.writeConfig (h : Inv number user p) (hi : p.threads[i]? = some run)
    (hphase : run.phase = .writingConfig read plan)
    (hothers : ∀ (j : Nat) (other : Run), j ≠ i → p.threads[j]? = some other → other.phase.isInside = false) :
    Inv number user
      ⟨{ p.shared with config := .holds (.obj plan.nextConfig), latest := some (run.processInstanceId, plan.entries) },
        p.threads.set i (run.at (.writingMarker read plan p.shared.latest))⟩ := by
  have hsettled := settled_of_outside h hi (by rw [hphase]; rfl) hothers
  have hview := h.views run (List.mem_of_getElem? hi)
  simp only [View, hphase] at hview
  obtain ⟨hread, now, hplan⟩ := hview
  have hservers : serversOf read.record = p.shared.config.servers := by rw [hread]; rfl
  have hinjected := planSync_injected now run.processInstanceId (buildManagedMcpServers run.servers run.dialect)
    (hservers ▸ hsettled.removeManaged)
  rw [← hplan] at hinjected
  refine h.write hi (.keeps (by rw [hphase]; rfl) rfl) hothers rfl (by rw [hphase]; rfl) rfl nofun ?_ nofun
  exact {
    wasRead := ⟨p.shared.config, hread⟩
    undone := by
      rw [hservers]
      exact hsettled.set hi (by rw [hphase]; rfl) (by rw [hphase]; rfl) rfl
    latest := rfl
    carries := hinjected.1
    fingerprinted := hinjected.2
    owner := by rw [hplan]; rfl }

theorem Inv.writeMarker (h : Inv number user p) (hi : p.threads[i]? = some run)
    (hphase : run.phase = .writingMarker read plan previous)
    (hlocks : Locks p.shared run s' (.synced plan.entries))
    (hothers : ∀ (j : Nat) (other : Run), j ≠ i → p.threads[j]? = some other → other.phase.isInside = false)
    (hs : s' = (({ p.shared with marker := .holds plan.nextManagedMarker.toJson }.setRefs run.processInstanceId
      (p.shared.managedMcpConfigRefs run.processInstanceId + 1)).unlock run.processInstanceId)) :
    Inv number user ⟨s', p.threads.set i (run.at (.synced plan.entries))⟩ := by
  subst hs
  have hview := h.views run (List.mem_of_getElem? hi)
  simp only [View, hphase] at hview
  have hnotSynced : run.phase.isSynced = false := by rw [hphase]; rfl
  refine h.act (h.lock.act hi hlocks) ?_ ?_ ?_ trivial ?_
  · intro replica
    have hset := countP_set (q := heldBy replica) (run.at (.synced plan.entries)) hi
    have hbefore : heldBy replica run = false := by simp [heldBy, hnotSynced]
    rw [hbefore, ← h.refs] at hset
    simp only [Shared.unlock, Shared.setRefs, Function.update_apply]
    split
    · rename_i hreplica
      subst hreplica
      simpa [heldBy, Phase.isSynced] using hset.symm
    · rename_i hreplica
      simpa [heldBy, Phase.isSynced, Ne.symm hreplica] using hset.symm
  · intro other hother hreleasing
    rcases List.mem_or_eq_of_mem_set hother with hmem | rfl
    · apply (h.last other hmem hreleasing).set
      -- the cleanup of a run of this replica would hold its lock
      intro hreplica
      have hlocked : other.phase.holdsLock = true := by
        cases hother : other.phase <;> first | rfl | (rw [hother] at hreleasing; cases hreleasing)
      obtain ⟨j, hj⟩ := List.mem_iff_getElem?.mp hmem
      have hji : i ≠ j := by
        rintro rfl
        rw [hi] at hj
        cases hj
        rw [hphase] at hreleasing
        cases hreleasing
      exact absurd ⟨hlocked, hreplica.symm⟩
        (h.lock.apart i j run other hji hi hj run.processInstanceId ⟨by rw [hphase]; rfl, rfl⟩)
    · cases hreleasing
  · intro j other hj hother _
    exact view_of_outside (hothers j other hj hother)
  · intro _
    exact .managed (readManagedMarker_toJson hview.fingerprinted) hview.owner hview.latest hview.carries
      (.of_run hi rfl (.inl rfl))

theorem Inv.restore (h : Inv number user p) (hi : p.threads[i]? = some run)
    (hphase : run.phase = .restoring read plan previous) (hlocks : Locks p.shared run s' .done)
    (hothers : ∀ (j : Nat) (other : Run), j ≠ i → p.threads[j]? = some other → other.phase.isInside = false)
    (hs : s' = { p.shared with config := restored read, latest := previous }.unlock run.processInstanceId) :
    Inv number user ⟨s', p.threads.set i (run.at .done)⟩ := by
  subst hs
  have hview := h.views run (List.mem_of_getElem? hi)
  simp only [View, hphase] at hview
  refine h.write hi hlocks hothers rfl (by rw [hphase]; rfl) rfl nofun trivial ?_
  intro _
  obtain ⟨file, rfl⟩ := hview.wasRead
  have hundone : Settled number user (p.threads.set i (run.at .done)) (serversOf (readJsonRecord file).record)
      p.shared.marker previous :=
    hview.undone.set hi (by rw [hphase]; rfl) (by rw [hphase]; rfl) rfl
  have hservers : (restored (readJsonRecord file)).servers = serversOf (readJsonRecord file).record :=
    servers_restored file
  rw [← hservers] at hundone
  exact hundone

theorem Inv.dropConfig {config : Option Fields} (h : Inv number user p) (hi : p.threads[i]? = some run)
    (hphase : run.phase = .dropping config)
    (hothers : ∀ (j : Nat) (other : Run), j ≠ i → p.threads[j]? = some other → other.phase.isInside = false) :
    Inv number user
      ⟨{ p.shared with config := dropFile config }, p.threads.set i (run.at .droppingMarker)⟩ := by
  have hsettled := settled_of_outside h hi (by rw [hphase]; rfl) hothers
  have hview := h.views run (List.mem_of_getElem? hi)
  simp only [View, hphase] at hview
  obtain ⟨marker, hmarker, howns, rfl⟩ := hview
  refine h.write hi (.keeps (by rw [hphase]; rfl) rfl) hothers rfl (by rw [hphase]; rfl) rfl
    (fun _ => by rw [hphase]; rfl) ?_ nofun
  cases hsettled with
  | clear hnone _ _ =>
    rw [hmarker] at hnone
    cases hnone
  | managed hread howner hlatest hcarries _ =>
    rw [hmarker] at hread
    cases hread
    refine ⟨servers_strip hcarries.removeManaged, ?_⟩
    simp only [ownsManagedMarker, howner, Bool.or_eq_true, decide_eq_true_eq] at howns
    obtain howns | howns := howns
    · cases howns
    · cases howns
      exact ⟨_, hlatest⟩

theorem Inv.dropMarker (h : Inv number user p) (hi : p.threads[i]? = some run)
    (hphase : run.phase = .droppingMarker) (hlocks : Locks p.shared run s' .done)
    (hothers : ∀ (j : Nat) (other : Run), j ≠ i → p.threads[j]? = some other → other.phase.isInside = false)
    (hs : s' = { p.shared with marker := .absent }.unlock run.processInstanceId) :
    Inv number user ⟨s', p.threads.set i (run.at .done)⟩ := by
  subst hs
  have hview := h.views run (List.mem_of_getElem? hi)
  simp only [View, hphase] at hview
  obtain ⟨hservers, entries, hlatest⟩ := hview
  refine h.write hi hlocks hothers rfl (by rw [hphase]; rfl) rfl nofun trivial ?_
  intro _
  refine .clear rfl hservers ?_
  intro replica entries' hlatest'
  have heq : p.shared.latest = some (replica, entries') := hlatest'
  rw [hlatest] at heq
  cases heq
  exact (h.last run (List.mem_of_getElem? hi) (by rw [hphase]; rfl)).set fun _ => rfl

end Writes

theorem Inv.does (h : Inv number user p) (hi : p.threads[i]? = some run) (hok : apart p (.act i c) = true)
    (hdoes : Does number p.shared run c s' phase) : Inv number user ⟨s', p.threads.set i (run.at phase)⟩ := by
  have hlocks := hdoes.locks
  have hview := h.views run (List.mem_of_getElem? hi)
  cases hdoes with
  | lock hphase _ =>
    exact h.quiet hi hlocks rfl rfl rfl rfl (by rw [hphase]; rfl) rfl nofun (by rw [hphase]; nofun)
      (fun _ => trivial) (fun _ => by rw [hphase]; rfl)
  | read hphase =>
    exact h.quiet hi hlocks rfl rfl rfl rfl (by rw [hphase]; rfl) rfl nofun (by rw [hphase]; nofun)
      (fun _ => rfl) (fun _ => by rw [hphase]; rfl)
  | @plan now read hphase =>
    simp only [View, hphase] at hview
    exact h.quiet hi hlocks rfl rfl rfl rfl (by rw [hphase]; rfl) rfl nofun (by rw [hphase]; nofun)
      (fun _ => ⟨hview, now, rfl⟩) (fun _ => by rw [hphase]; rfl)
  | writeConfig hphase =>
    exact h.writeConfig hi hphase (others_outside h hi hok (by rw [hphase]; rfl))
  | writeMarker hphase =>
    exact h.writeMarker hi hphase hlocks (others_outside h hi hok (by rw [hphase]; rfl)) rfl
  | restore hphase =>
    exact h.restore hi hphase hlocks (others_outside h hi hok (by rw [hphase]; rfl)) rfl
  | refuse hphase =>
    have hsynced : run.phase.isSynced = false := by
      obtain hphase | ⟨read, plan, hphase⟩ := hphase <;> rw [hphase] <;> rfl
    have hreleasing : run.phase.isReleasing = false := by
      obtain hphase | ⟨read, plan, hphase⟩ := hphase <;> rw [hphase] <;> rfl
    have hmidway : run.phase.isMidway = false := by
      obtain hphase | ⟨read, plan, hphase⟩ := hphase <;> rw [hphase] <;> rfl
    exact h.quiet hi hlocks rfl rfl rfl rfl hsynced rfl nofun (by rw [hreleasing]; nofun)
      (fun _ => trivial) (fun _ => hmidway)
  | failMarker hphase =>
    simp only [View, hphase] at hview
    exact h.quiet hi hlocks rfl rfl rfl rfl (by rw [hphase]; rfl) rfl nofun (by rw [hphase]; nofun)
      (fun hkeeps => hview.keep rfl rfl rfl hkeeps) nofun
  | abandon hclearing =>
    simp only [apart, hi, Option.all_some, hclearing] at hok
    cases hok
  | drop hphase hrefs =>
    exact h.begin hi hphase hlocks rfl (by omega) rfl rfl rfl (.inl ⟨rfl, by omega⟩)
  | dropLast hphase _ hrefs =>
    have hheld : 0 < p.shared.managedMcpConfigRefs run.processInstanceId := by
      rw [h.refs, List.countP_pos_iff]
      exact ⟨run, List.mem_of_getElem? hi, by simp [heldBy, hphase, Phase.isSynced]⟩
    exact h.begin hi hphase hlocks rfl (by omega) rfl rfl rfl (.inr ⟨rfl, rfl⟩)
  | leave hphase hforeign =>
    refine h.quiet hi hlocks rfl rfl rfl rfl (by rw [hphase]; rfl) rfl nofun ?_ (fun _ => trivial)
      (fun _ => by rw [hphase]; rfl)
    intro _
    refine .inr fun m hm howner => ?_
    have hfalse := hforeign m hm
    simp [ownsManagedMarker, howner] at hfalse
  | own hphase hmarker howns =>
    exact h.quiet hi hlocks rfl rfl rfl rfl (by rw [hphase]; rfl) rfl (fun _ => by rw [hphase]; rfl)
      (fun _ => .inl rfl) (fun _ => ⟨hmarker, howns⟩) (fun _ => by rw [hphase]; rfl)
  | @strip now marker hphase =>
    simp only [View, hphase] at hview
    exact h.quiet hi hlocks rfl rfl rfl rfl (by rw [hphase]; rfl) rfl (fun _ => by rw [hphase]; rfl)
      (fun _ => .inl rfl) (fun _ => ⟨marker, hview.1, hview.2, rfl⟩) (fun _ => by rw [hphase]; rfl)
  | dropConfig hphase =>
    exact h.dropConfig hi hphase (others_outside h hi hok (by rw [hphase]; rfl))
  | dropMarker hphase =>
    exact h.dropMarker hi hphase hlocks (others_outside h hi hok (by rw [hphase]; rfl)) rfl

theorem Inv.step {q : State} {e : Pool.Event Run Choice} (hok : apart p e = true) (h : Inv number user p)
    (hs : Pool.step (system number) p e = some q) : Inv number user q := by
  obtain ⟨run, rfl, hstart, rfl⟩ | ⟨i, c, run, s', run', rfl, hi, hact, rfl⟩ := Pool.step_cases hs
  · exact h.spawn (of_decide_eq_true hstart)
  · obtain ⟨phase, rfl, hdoes⟩ := act_does hact
    exact h.does hi hok hdoes

end Step

def InFile (entries : Fields) (file : JsonFile) : Prop :=
  ∀ name config, entries.get? name = some config → file.servers.get? name = some config

theorem Inv.initial (number : ℚ → String) (file : JsonFile) : Inv number file.servers ⟨{ config := file }, []⟩ := by
  refine ⟨⟨by simp, by simp⟩, fun _ => rfl, by simp, by simp, fun _ => ?_⟩
  exact .clear rfl (fun _ _ h => h) nofun

theorem Inv.kept {number : ℚ → String} {user entries : Fields} {p : State} {replica : String}
    (h : Inv number user p) (hlatest : p.shared.latest = some (replica, entries))
    (hsynced : ∃ run ∈ p.threads, run.processInstanceId = replica ∧ run.phase.isSynced = true) :
    InFile entries p.shared.config := by
  obtain ⟨run, hrun, hreplica, hphase⟩ := hsynced
  by_cases hmidway : ∀ other ∈ p.threads, other.phase.isMidway = false
  · cases h.settled hmidway with
    | clear _ _ hnone =>
      rw [hnone _ _ hlatest run hrun hreplica] at hphase
      cases hphase
    | managed _ _ hwritten hcarries _ =>
      rw [hlatest] at hwritten
      cases hwritten
      exact hcarries.kept
  · push Not at hmidway
    obtain ⟨writer, hwriter, hwriting⟩ := hmidway
    have hview := h.views writer hwriter
    cases hw : writer.phase with
    | writingMarker read plan previous | restoring read plan previous =>
      simp only [View, hw] at hview
      have hwritten := hview.latest
      rw [hlatest] at hwritten
      cases hwritten
      exact hview.carries.kept
    | droppingMarker =>
      simp only [View, hw] at hview
      obtain ⟨-, entries', hwritten⟩ := hview
      rw [hlatest] at hwritten
      cases hwritten
      have hnone := h.last writer hwriter (by rw [hw]; rfl) run hrun hreplica
      rw [hnone] at hphase
      cases hphase
    | _ =>
      rw [hw] at hwriting
      exact absurd rfl hwriting

theorem owes_of_isSynced_or_isReleasing {phase : Phase}
    (h : phase.isSynced = true ∨ phase.isReleasing = true) : phase.owes = true := by
  cases phase <;> first | rfl | (rcases h with h | h <;> cases h)

theorem Inv.cleared {number : ℚ → String} {user : Fields} {p : State} (h : Inv number user p)
    (howes : ∀ run ∈ p.threads, run.phase.owes = false) : Within p.shared.config.servers user := by
  have hmidway : ∀ run ∈ p.threads, run.phase.isMidway = false := by
    intro run hrun
    have hphase := howes run hrun
    cases hw : run.phase <;> first | rfl | (rw [hw] at hphase; cases hphase)
  cases h.settled hmidway with
  | clear _ hservers _ => exact hservers
  | managed _ _ _ _ howed =>
    obtain ⟨run, hrun, -, hphase⟩ := howed
    have hnot := howes run hrun
    rw [owes_of_isSynced_or_isReleasing hphase] at hnot
    cases hnot

/-- The entries that were written last stay in the config as long as a run of the replica that wrote them is to
be cleaned up; and once no run is, the config holds no entry that it did not hold before the first sync. -/
theorem managed_config_lifetime (number : ℚ → String) (file : JsonFile) (events : List (Pool.Event Run Choice))
    (p : State)
    (h : Runs (Pool.step (system number)) (fun p e => apart p e = true) ⟨{ config := file }, []⟩ events p) :
    (∀ replica entries, p.shared.latest = some (replica, entries) →
      (∃ run ∈ p.threads, run.processInstanceId = replica ∧ run.phase.isSynced = true) →
      InFile entries p.shared.config) ∧
    ((∀ run ∈ p.threads, run.phase.owes = false) → Within p.shared.config.servers file.servers) := by
  have hinv : Inv number file.servers p :=
    h.invariant (I := Inv number file.servers) (fun p e q hok hI hs => hI.step hok hs) (Inv.initial number file)
  exact ⟨fun replica entries hlatest hsynced => hinv.kept hlatest hsynced, hinv.cleared⟩

section Examples

def notes : ResolvedMcpServer :=
  { name := "notes", type := .http, url := some "https://notes", headers := some [("Authorization", "Bearer 1")] }

def search : ResolvedMcpServer := { name := "search", type := .stdio, command := some "search" }

def goes (i n : Nat) : List (Pool.Event Run Choice) := List.replicate n (.act i (.go 0))

def takingTurns : List (Pool.Event Run Choice) :=
  [.spawn { processInstanceId := "a", servers := [notes] }, .spawn { processInstanceId := "b", servers := [search] }] ++
    goes 0 5 ++ goes 1 5 ++ goes 0 2 ++ goes 1 5

theorem managed_config_lifetime_turns : ∃ p : State,
      run (guarded (Pool.step (system fun _ => "")) fun p e => apart p e = true) ⟨{}, []⟩ takingTurns = some p ∧
      p.threads.length = 2 ∧
      (∀ replica entries, p.shared.latest = some (replica, entries) →
        (∃ run ∈ p.threads, run.processInstanceId = replica ∧ run.phase.isSynced = true) →
        InFile entries p.shared.config) ∧
      ((∀ run ∈ p.threads, run.phase.owes = false) → Within p.shared.config.servers (JsonFile.absent).servers) := by
  obtain ⟨p, hrun, hlength⟩ : ∃ p : State,
      run (guarded (Pool.step (system fun _ => "")) fun p e => apart p e = true) ⟨{}, []⟩ takingTurns = some p ∧
        p.threads.length = 2 :=
    exists_of_run_any (by decide +kernel)
  exact ⟨p, hrun, hlength, managed_config_lifetime _ .absent _ p (.of_guarded hrun)⟩

def syncInsideCleanup : List (Pool.Event Run Choice) :=
  [.spawn { processInstanceId := "a", servers := [notes] }, .spawn { processInstanceId := "b", servers := [search] }] ++
    goes 0 5 ++ goes 0 3 ++ goes 1 5 ++ goes 0 2

theorem cleanup_removes_a_peers_sync :
    ¬∀ (number : ℚ → String) (file : JsonFile) (events : List (Pool.Event Run Choice)) (p : State),
      run (Pool.step (system number)) ⟨{ config := file }, []⟩ events = some p →
      (∀ run ∈ p.threads, ∀ entries, run.phase = .synced entries → InFile entries p.shared.config) ∧
      ((∀ run ∈ p.threads, run.phase.owes = false) → Within p.shared.config.servers file.servers) := by
  intro h
  obtain ⟨p, hrun, hconfig, run, hmem, hsynced⟩ : ∃ p : State,
      run (Pool.step (system fun _ => "")) ⟨{}, []⟩ syncInsideCleanup = some p ∧ p.shared.config = .absent ∧
        ∃ run ∈ p.threads, run.phase = .synced
          (.cons "search" (.obj (.cons "command" (.str "search") (.cons "args" (.arr .nil) .nil))) .nil) :=
    exists_of_run_any (by decide +kernel)
  have hkept := (h _ .absent _ p hrun).1 run hmem _ hsynced "search" _ rfl
  rw [hconfig] at hkept
  cases hkept

end Examples

end A2Wave.McpSync
