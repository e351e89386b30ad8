import Mathlib
import A2Wave.Memory.MergeAtomic

/-! Archiving topics until the active ones are within their limits. -/

namespace A2Wave.MemoryTopics

open JsText

section Oldest

variable (rt : Runtime) (excluded : List Text) (s : Memory)

def evictable : List MemoryTopicRecord :=
  (listMemoryTopics rt s .active).filter (·.topicId ∉ excluded)

def protectedTopics : List MemoryTopicRecord :=
  (listMemoryTopics rt s .active).filter (·.topicId ∈ excluded)

variable {rt excluded s} {outcome : MoveOutcome} {oldest r : MemoryTopicRecord}
  {o : Option MemoryTopicRecord}

theorem mem_evictable : r ∈ evictable rt excluded s ↔
    (IsTopic rt s r ∧ r.status = .active) ∧ r.topicId ∉ excluded := by
  rw [evictable, List.mem_filter, mem_listMemoryTopics, decide_eq_true_eq]

theorem mem_protectedTopics : r ∈ protectedTopics rt excluded s ↔
    (IsTopic rt s r ∧ r.status = .active) ∧ r.topicId ∈ excluded := by
  rw [protectedTopics, List.mem_filter, mem_listMemoryTopics, decide_eq_true_eq]

theorem evictable_eq_nil (h : oldestTopic rt excluded s = none) : evictable rt excluded s = [] := by
  rw [oldestTopic, List.head?_eq_none_iff] at h
  have hperm := List.perm_insertionSort (·.updatedAt ≤ ·.updatedAt) (evictable rt excluded s)
  rw [evictable, h] at hperm
  exact hperm.nil_eq.symm

theorem mem_of_oldestTopic (h : oldestTopic rt excluded s = some oldest) : oldest ∈ evictable rt excluded s :=
  (List.mem_insertionSort _).mp (List.mem_of_mem_head? h)

theorem IsTopic.eq_of_path {q : MemoryTopicRecord} (hr : IsTopic rt s r) (hq : IsTopic rt s q)
    (h : r.path = q.path) : r = q := by
  obtain ⟨file, hget, hparse⟩ := hr
  obtain ⟨file', hget', hparse'⟩ := hq
  rw [h, hget'] at hget
  obtain rfl := Option.some_inj.mp hget
  rw [h, hparse'] at hparse
  exact (Except.ok.inj hparse).symm

theorem path_ne_archived {topic : MemoryTopicRecord} (hr : IsTopic rt s r)
    (hactive : r.status = .active) (now : Nat) :
    r.path ≠ (movedRecord rt topic .archived now).path := by
  intro hpath
  have hstatus := congrArg TopicPath.status hpath
  rw [hr.status_path, hactive] at hstatus
  cases hstatus

theorem isTopic_archived (h : IsTopic rt s oldest) (now : Nat) (hr : r.status = .active) :
    IsTopic rt (moved rt oldest .archived now s) r ↔ IsTopic rt s r ∧ r ≠ oldest := by
  rw [moved, isTopic_del, isTopic_put rt (parse_movedFile rt h now)]
  constructor
  · rintro ⟨hpath, rfl | ⟨-, hs⟩⟩
    · cases hr
    · exact ⟨hs, fun heq => hpath (by rw [heq])⟩
  · rintro ⟨hs, hne⟩
    exact ⟨fun hpath => hne (hs.eq_of_path h hpath), .inr ⟨path_ne_archived hs hr now, hs⟩⟩

theorem readOldest (h : oldestTopic rt excluded s = o) :
    Op.read (fun s => .ok (oldestTopic rt excluded s)) s = (.ok o, s) := by
  rw [Op.read, h]

section Moves

variable (h : oldestTopic rt excluded s = some oldest)

include h in
theorem isTopic_of_oldestTopic : IsTopic rt s oldest ∧ oldest.status = .active :=
  (mem_evictable.mp (mem_of_oldestTopic h)).1

include h in
theorem oldest_status_ne : oldest.status ≠ .archived := by
  rw [(isTopic_of_oldestTopic h).2]
  exact nofun

include h in
theorem archiveOldest_done (hdone : outcome.isDone = true) : archiveOldestTopic rt outcome excluded s =
      (.ok (some (movedRecord rt oldest .archived outcome.now)), moved rt oldest .archived outcome.now s) := by
  obtain ⟨hold, -⟩ := isTopic_of_oldestTopic h
  rw [MoveOutcome.isDone, Bool.and_eq_true] at hdone
  have hmove := moveTopic_done rt hold (oldest_status_ne h) (WriteOutcome.eq_done hdone.1) hdone.2
  have harchived : IsTopic rt (moved rt oldest .archived outcome.now s)
      (movedRecord rt oldest .archived outcome.now) :=
    ⟨_, by
      rw [moved, Memory.get_del_of_ne (movedRecord_path_ne rt hold (oldest_status_ne h) _),
        Memory.get_put_self], parse_movedFile rt hold _⟩
  refine (Op.bind_ok (readOldest h)).trans ((Op.bind_ok hmove).trans ?_)
  exact Op.bind_ok (parseAt_ok rt harchived)

include h in
theorem archiveOldest_throws (hdone : outcome.isDone = false) :
    ∃ message s', archiveOldestTopic rt outcome excluded s = (.error (.file message), s') ∧
      ∀ r, r.status = .active → IsTopic rt s r → IsTopic rt s' r := by
  obtain ⟨hold, -⟩ := isTopic_of_oldestTopic h
  have hbind : ∀ {message s'}, moveTopic rt outcome oldest .archived s = (.error (.file message), s') →
      archiveOldestTopic rt outcome excluded s = (.error (.file message), s') :=
    fun hmove => (Op.bind_ok (readOldest h)).trans (Op.bind_error hmove)
  cases hwrite : outcome.write with
  | throws left =>
    refine ⟨_, _, hbind (moveTopic_throws rt hold hwrite), fun r hr hs => ?_⟩
    exact (isTopic_setAt rt left (path_ne_archived hs hr _)).mpr hs
  | done =>
    have hdeletes : outcome.deletes = false := by
      simpa [MoveOutcome.isDone, hwrite, WriteOutcome.isDone] using hdone
    refine ⟨_, _, hbind (moveTopic_kept rt hold (oldest_status_ne h) hwrite hdeletes),
      fun r hr hs => ?_⟩
    exact (isTopic_put_of_ne rt (path_ne_archived hs hr _)).mpr hs

include h in
theorem evictable_archived (now : Nat) : (evictable rt excluded (moved rt oldest .archived now s)).Perm
      ((evictable rt excluded s).erase oldest) := by
  obtain ⟨hold, -⟩ := isTopic_of_oldestTopic h
  have hnodup : (evictable rt excluded s).Nodup := (nodup_listMemoryTopics rt s _).filter _
  refine (List.perm_ext_iff_of_nodup ((nodup_listMemoryTopics rt _ _).filter _)
    (hnodup.erase oldest)).mpr fun r => ?_
  rw [hnodup.mem_erase_iff, mem_evictable, ← evictable, mem_evictable]
  constructor
  · rintro ⟨⟨hs, hr⟩, hid⟩
    obtain ⟨hs, hne⟩ := (isTopic_archived hold now hr).mp hs
    exact ⟨hne, ⟨hs, hr⟩, hid⟩
  · rintro ⟨hne, ⟨hs, hr⟩, hid⟩
    exact ⟨⟨(isTopic_archived hold now hr).mpr ⟨hs, hne⟩, hr⟩, hid⟩

include h in
theorem length_evictable_archived (now : Nat) : (evictable rt excluded (moved rt oldest .archived now s)).length + 1 =
      (evictable rt excluded s).length := by
  have hmem := mem_of_oldestTopic h
  have hpos := List.length_pos_of_mem hmem
  rw [(evictable_archived h now).length_eq, List.length_erase_of_mem hmem]
  omega

include h in
theorem protectedTopics_archived (now : Nat) : (protectedTopics rt excluded (moved rt oldest .archived now s)).Perm
      (protectedTopics rt excluded s) := by
  obtain ⟨⟨hold, -⟩, hfree⟩ := mem_evictable.mp (mem_of_oldestTopic h)
  refine (List.perm_ext_iff_of_nodup ((nodup_listMemoryTopics rt _ _).filter _)
    ((nodup_listMemoryTopics rt _ _).filter _)).mpr fun r => ?_
  rw [← protectedTopics, ← protectedTopics, mem_protectedTopics, mem_protectedTopics]
  constructor
  · rintro ⟨⟨hs, hr⟩, hid⟩
    exact ⟨⟨((isTopic_archived hold now hr).mp hs).1, hr⟩, hid⟩
  · rintro ⟨⟨hs, hr⟩, hid⟩
    refine ⟨⟨(isTopic_archived hold now hr).mpr ⟨hs, ?_⟩, hr⟩, hid⟩
    rintro rfl
    exact hfree hid

end Moves

end Oldest

section Fits

variable (rt : Runtime) (outcomes : Nat → MoveOutcome) (protectedIds : List Text)

structure Fitted (s : Memory) (run : Except MemoryError Unit × List Text × Memory) : Prop where
  within : run.1 = .ok () → WithinLimits rt (listMemoryTopics rt run.2.2 .active)
  fails : ∀ e, run.1 = .error e → ∃ n, (outcomes n).isDone = false
  kept : ∀ r ∈ protectedTopics rt protectedIds s, r ∈ listMemoryTopics rt run.2.2 .active

variable {rt outcomes protectedIds} {s : Memory}

theorem protectedTopics_eq (h : evictable rt protectedIds s = []) :
    protectedTopics rt protectedIds s = listMemoryTopics rt s .active := by
  rw [evictable, List.filter_eq_nil_iff] at h
  refine List.filter_eq_self.mpr fun r hr => ?_
  simpa using h r hr

theorem mem_of_protected {s' : Memory} (hkeeps : ∀ r, r.status = .active → IsTopic rt s r →
      IsTopic rt s' r) : ∀ r ∈ protectedTopics rt protectedIds s,
    r ∈ listMemoryTopics rt s' .active := by
  intro r hr
  obtain ⟨⟨hs, hactive⟩, -⟩ := mem_protectedTopics.mp hr
  exact (mem_listMemoryTopics rt).mpr ⟨hkeeps r hactive hs, hactive⟩

theorem fitFrom_fits (k n : Nat) (archived : List Text)
    (hk : (evictable rt protectedIds s).length = k)
    (hfits : WithinLimits rt (protectedTopics rt protectedIds s)) :
    ∃ run, Fitted rt outcomes protectedIds s run ∧
      ∀ fuel, k < fuel → fitFrom rt outcomes protectedIds fuel n archived s = run := by
  induction k generalizing n archived s with
  | zero =>
    have hall := protectedTopics_eq (List.length_eq_zero_iff.mp hk)
    rw [hall] at hfits
    refine ⟨(.ok (), archived, s), ⟨fun _ => hfits, fun _ h => (by cases h), fun r hr => by rwa [hall] at hr⟩, ?_⟩
    intro fuel hfuel
    cases fuel with
    | zero => cases hfuel
    | succ fuel => rw [fitFrom, if_pos hfits]
  | succ k ih =>
    by_cases hwithin : WithinLimits rt (listMemoryTopics rt s .active)
    · refine ⟨(.ok (), archived, s), ⟨fun _ => hwithin, fun _ h => (by cases h), mem_of_protected fun _ _ h => h⟩, ?_⟩
      intro fuel hfuel
      cases fuel with
      | zero => cases hfuel
      | succ fuel => rw [fitFrom, if_pos hwithin]
    cases hold : oldestTopic rt protectedIds s with
    | none =>
      rw [evictable_eq_nil hold] at hk
      cases hk
    | some oldest =>
      cases hdone : (outcomes n).isDone with
      | false =>
        obtain ⟨message, s', hrun, hkeeps⟩ := archiveOldest_throws hold hdone
        refine ⟨(.error (.file message), archived, s'),
          ⟨fun h => (by cases h), fun _ _ => ⟨n, hdone⟩, mem_of_protected hkeeps⟩, ?_⟩
        intro fuel hfuel
        cases fuel with
        | zero => cases hfuel
        | succ fuel => rw [fitFrom, if_neg hwithin, hrun]
      | true =>
        have hlength := length_evictable_archived hold (outcomes n).now
        have hprotected := protectedTopics_archived hold (outcomes n).now
        obtain ⟨run, hfitted, hruns⟩ := ih (n + 1) (archived ++ [oldest.topicId])
          (Nat.succ_injective (hlength.trans hk)) ((withinLimits_perm hprotected).mpr hfits)
        refine ⟨run, ⟨hfitted.within, hfitted.fails,
          fun r hr => hfitted.kept r (hprotected.mem_iff.mpr hr)⟩, ?_⟩
        intro fuel hfuel
        cases fuel with
        | zero => cases hfuel
        | succ fuel =>
          rw [fitFrom, if_neg hwithin, archiveOldest_done hold hdone]
          exact hruns fuel (Nat.lt_of_succ_lt_succ hfuel)

/-- The loop ends: it takes a pass for each topic that it archives, and one more. -/
theorem ensureCatalogFits_fits
    (hfits : WithinLimits rt (protectedTopics rt protectedIds s)) :
    Fitted rt outcomes protectedIds s (ensureCatalogFits rt outcomes protectedIds s) ∧
      ∀ fuel, (evictable rt protectedIds s).length < fuel → fitFrom rt outcomes protectedIds fuel 0 [] s =
          ensureCatalogFits rt outcomes protectedIds s := by
  obtain ⟨run, hfitted, hruns⟩ := @fitFrom_fits rt outcomes protectedIds s _ 0 [] rfl hfits
  have hlength : (evictable rt protectedIds s).length < (listMemoryTopics rt s .active).length + 1 :=
    Nat.lt_succ_of_le (List.length_filter_le _ _)
  have hrun : ensureCatalogFits rt outcomes protectedIds s = run := hruns _ hlength
  rw [hrun]
  exact ⟨hfitted, hruns⟩

def sevenTopics : Memory where
  main := none
  files := ["tpc_00000001", "tpc_00000002", "tpc_00000003", "tpc_00000004", "tpc_00000005",
    "tpc_00000006", "tpc_00000007"].map fun id => plainTopic id.toList ['t'] (han 100) [['k']]
  nodup := by decide

theorem ensureCatalogFits_sevenTopics :
    ¬WithinLimits plainRuntime (listMemoryTopics plainRuntime sevenTopics .active) ∧
      (ensureCatalogFits plainRuntime (fun _ => ⟨9, .done, true⟩) ["tpc_00000001".toList]
        sevenTopics).2.1 = ["tpc_00000002".toList] ∧
      Fitted plainRuntime (fun _ => ⟨9, .done, true⟩) ["tpc_00000001".toList] sevenTopics
        (ensureCatalogFits plainRuntime (fun _ => ⟨9, .done, true⟩) ["tpc_00000001".toList]
          sevenTopics) :=
  ⟨by decide +kernel, by decide +kernel, (ensureCatalogFits_fits (by decide +kernel)).1⟩

end Fits

end A2Wave.MemoryTopics
