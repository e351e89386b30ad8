import A2Wave.Memory.Frame
import A2Wave.Memory.MergeStages

/-! When a merge that fails leaves the active topics and their bodies. -/

namespace A2Wave.MemoryTopics

open JsText TextSearch

section Compensation

variable (rt : Runtime)

def ActiveBody (s : Memory) (topicId body : Text) : Prop :=
  ∃ r, IsTopic rt s r ∧ r.status = .active ∧ r.topicId = topicId ∧ r.body = body

variable {rt} {out : MergeOutcome} {start : Memory} {target : MemoryTopicRecord}
  {sources : List MemoryTopicRecord} {s : Memory} {before : MemoryFile} {archived : List Text}

theorem activeBody_congr {s s' : Memory} (h : ∀ r, IsTopic rt s' r ↔ IsTopic rt s r)
    (topicId body : Text) : ActiveBody rt s' topicId body ↔ ActiveBody rt s topicId body := by
  simp only [ActiveBody, h]

theorem activeBody_restored (hplan : Plan rt start target sources)
    (hstage : Stage rt out start target sources [] archived s)
    (hbefore : parseMemoryTopicFile rt target.path before = .ok target) (topicId body : Text) :
    ActiveBody rt (s.put target.path before) topicId body ↔ ActiveBody rt start topicId body := by
  constructor
  · rintro ⟨r, hr, hactive, rfl, rfl⟩
    obtain rfl | ⟨hpath, hr⟩ := (isTopic_put rt hbefore).mp hr
    · exact ⟨r, hplan.isTarget, hactive, rfl, rfl⟩
    · obtain ⟨q, hq, hqactive, hstageOf⟩ := (hstage.active r hactive).mp hr
      unfold stageOf at hstageOf
      split_ifs at hstageOf with htarget haway hback
      · obtain rfl := Option.some_inj.mp hstageOf
        exact absurd rfl hpath
      · obtain rfl := Option.some_inj.mp hstageOf
        exact ⟨q, hq, hqactive, rfl, rfl⟩
      · obtain rfl := Option.some_inj.mp hstageOf
        exact ⟨q, hq, hqactive, rfl, rfl⟩
  · rintro ⟨q, hq, hactive, rfl, rfl⟩
    by_cases htarget : q.topicId = target.topicId
    · obtain rfl := hplan.unique.active q target hq hactive hplan.isTarget hplan.targetActive htarget
      exact ⟨q, (isTopic_put rt hbefore).mpr (.inl rfl), hactive, rfl, rfl⟩
    · have hput : ∀ r, r.status = .active → r.topicId = q.topicId → r.body = q.body →
          stageOf rt out target sources [] archived q = some r →
          ActiveBody rt (s.put target.path before) q.topicId q.body := by
        intro r hr hid hbody hstageOf
        have hrs := (hstage.active r hr).mpr ⟨q, hq, hactive, hstageOf⟩
        refine ⟨r, (isTopic_put rt hbefore).mpr (.inr ⟨?_, hrs⟩), hr, hid, hbody⟩
        intro hpath
        apply htarget
        rw [← hid, ← hrs.topicId_path, hpath, hplan.isTarget.topicId_path]
      by_cases hback : q.topicId ∈ archived
      · refine hput (reactivatedOf rt out q) rfl rfl rfl ?_
        rw [stageOf, if_neg htarget, if_neg List.not_mem_nil, if_pos hback]
      · exact hput q hactive rfl rfl (stageOf_kept htarget List.not_mem_nil hback)

/-- What the compensation needs to restore the topics of `archived` and the target. -/
def Compensates (rt : Runtime) (out : MergeOutcome) (start : Memory) (target : MemoryTopicRecord)
    (sources : List MemoryTopicRecord) (archived : List Text) : Prop :=
  out.restore = .done ∧ ∀ back id later, archived = back ++ id :: later →
    ComesBack rt out start target sources back id later

theorem compensate_restores (hplan : Plan rt start target sources)
    (hstage : Stage rt out start target sources archived [] s) (hnodup : archived.Nodup)
    (hids : ∀ id ∈ archived, ∃ q ∈ sources, q.topicId = id)
    (hcomp : Compensates rt out start target sources archived)
    (hbefore : parseMemoryTopicFile rt target.path before = .ok target) (topicId body : Text) :
    ActiveBody rt (compensate rt out target.path before archived s).2 topicId body ↔
      ActiveBody rt start topicId body := by
  obtain ⟨s₁, hrun, hback⟩ := reactivateAll_ok hplan archived [] s hstage hnodup hids hcomp.2
  have hcompensate : compensate rt out target.path before archived s =
      rebuildMemoryMain rt out.restoreMain (s₁.put target.path before) := by
    refine (Op.bind_ok hrun).trans ?_
    rw [hcomp.1]
    exact Op.bind_ok (writeTopicFile_done _ _ _)
  rw [hcompensate, activeBody_congr (fun r => isTopic_rebuild rt out.restoreMain)]
  exact activeBody_restored hplan hback hbefore topicId body

end Compensation

section Loop

variable (rt : Runtime) (out : MergeOutcome) (start : Memory) (target : MemoryTopicRecord)
  (sources : List MemoryTopicRecord)

def Rebuilds (done : List Text) (q : MemoryTopicRecord) : Prop :=
  (out.archive q.topicId).main = .done ∧ Renders rt (readAgentSummary start)
    (stageTopics rt out start target sources (done ++ [q.topicId]) [])

/-- No step after the deletion of a source throws: neither the rebuild of its archive nor, once all
are archived, the last rebuild. -/
def NoLoss : List Text → List MemoryTopicRecord → Prop
  | _, [] => out.last = .done
  | done, q :: rest => (out.archive q.topicId).move.isDone = true →
      Rebuilds rt out start target sources done q ∧ NoLoss (done ++ [q.topicId]) rest

def Undone : List Text → List MemoryTopicRecord → Prop
  | _, [] => True
  | done, q :: rest =>
    if (out.archive q.topicId).move.isDone = true then Undone (done ++ [q.topicId]) rest
    else Compensates rt out start target sources done

structure ReadyAll (done : List Text) (rest : List MemoryTopicRecord) (s : Memory) : Prop where
  stage : Stage rt out start target sources done [] s
  isSource : ∀ q ∈ rest, q ∈ sources
  nodup : (done ++ rest.map (·.topicId)).Nodup
  archived : ∀ q ∈ rest, ∀ r, IsTopic rt s r → r.status = .archived → r.topicId = q.topicId → r.path = archivePath rt q

variable {rt out start target sources} {done : List Text} {q : MemoryTopicRecord}
  {rest : List MemoryTopicRecord} {s s' : Memory}

theorem ReadyAll.head (h : ReadyAll rt out start target sources done (q :: rest) s) :
    Ready rt out start target sources done q s where
  stage := h.stage
  isSource := h.isSource q List.mem_cons_self
  here := by
    intro hmem
    have hdisjoint := List.disjoint_of_nodup_append h.nodup
    exact hdisjoint hmem List.mem_cons_self
  archived := h.archived q List.mem_cons_self

theorem ReadyAll.next (h : ReadyAll rt out start target sources done (q :: rest) s)
    (hstage : Stage rt out start target sources (done ++ [q.topicId]) [] s')
    (htopics : ∀ r, IsTopic rt s' r ↔ r = archivedOf rt out q ∨ IsTopic rt s r ∧ r.topicId ≠ q.topicId) :
    ReadyAll rt out start target sources (done ++ [q.topicId]) rest s' where
  stage := hstage
  isSource p hp := h.isSource p (List.mem_cons_of_mem _ hp)
  nodup := by
    rw [List.append_assoc]
    exact h.nodup
  archived := by
    intro p hp r hs' hr hid
    obtain rfl | ⟨hs, -⟩ := (htopics r).mp hs'
    · have hnodup := (List.nodup_append.mp h.nodup).2.1
      rw [List.map_cons, List.nodup_cons] at hnodup
      exact absurd (hid ▸ List.mem_map_of_mem hp) hnodup.1
    · exact h.archived p (List.mem_cons_of_mem _ hp) r hs hr hid

theorem archiveSources_kept (hplan : Plan rt start target sources) (rest : List MemoryTopicRecord) :
    ∀ done s, ReadyAll rt out start target sources done rest s →
      NoLoss rt out start target sources done rest → Undone rt out start target sources done rest →
      (∃ s', archiveSources rt out rest done s = (.ok (), done ++ rest.map (·.topicId), s') ∧
        Stage rt out start target sources (done ++ rest.map (·.topicId)) [] s' ∧
        (rest ≠ [] → Renders rt (readAgentSummary start)
          (stageTopics rt out start target sources (done ++ rest.map (·.topicId)) [])) ∧
        out.last = .done) ∨
      ∃ e pre post s', rest = pre ++ post ∧
        archiveSources rt out rest done s = (.error e, done ++ pre.map (·.topicId), s') ∧
        Stage rt out start target sources (done ++ pre.map (·.topicId)) [] s' ∧
        Compensates rt out start target sources (done ++ pre.map (·.topicId)) := by
  induction rest with
  | nil =>
    intro done s hready hloss _
    have hstage := hready.stage
    rw [List.map_nil, List.append_nil]
    exact .inl ⟨s, rfl, hstage, fun h => absurd rfl h, hloss⟩
  | cons q rest ih =>
    intro done s hready hloss hundone
    rw [Undone] at hundone
    cases hmove : (out.archive q.topicId).move.isDone with
    | false =>
      rw [hmove, if_neg Bool.false_ne_true] at hundone
      obtain ⟨e, s', hrun, hstage⟩ := hready.head.archive_kept hplan hmove
      refine .inr ⟨e, [], q :: rest, s', rfl, ?_, ?_, ?_⟩
      · simp only [archiveSources, hrun, List.map_nil, List.append_nil]
      · simpa using hstage
      · simpa using hundone
    | true =>
      rw [hmove, if_pos rfl] at hundone
      obtain ⟨⟨hmain, hrenders⟩, hloss⟩ := hloss hmove
      obtain ⟨t, s₁, hrun, hstage, htopics⟩ := hready.head.archive_ok hplan hmove hmain hrenders
      have hstep : archiveSources rt out (q :: rest) done s = archiveSources rt out rest (done ++ [q.topicId]) s₁ := by
        simp only [archiveSources, hrun]
      have hids : ∀ l : List MemoryTopicRecord, done ++ (q :: l).map (·.topicId) =
          done ++ [q.topicId] ++ l.map (·.topicId) := by simp
      rw [hstep, hids rest]
      obtain ⟨s', hall, hend, hlast, hdone⟩ | ⟨e, pre, post, s', hsplit, hfail, hend, hcomp⟩ :=
        ih (done ++ [q.topicId]) s₁ (hready.next hstage htopics) hloss hundone
      · refine .inl ⟨s', hall, hend, fun _ => ?_, hdone⟩
        cases rest with
        | nil =>
          rw [List.map_nil, List.append_nil]
          exact hrenders
        | cons p rest => exact hlast (List.cons_ne_nil _ _)
      · refine .inr ⟨e, q :: pre, post, s', by rw [hsplit]; rfl, ?_, ?_, ?_⟩
        · rw [hids pre, hfail]
        · rw [hids pre]
          exact hend
        · rw [hids pre]
          exact hcomp

theorem archiveSources_lost (hplan : Plan rt start target sources) (rest : List MemoryTopicRecord) :
    ∀ done s, ReadyAll rt out start target sources done rest s → ¬NoLoss rt out start target sources done rest →
      (∃ s', archiveSources rt out rest done s = (.ok (), done ++ rest.map (·.topicId), s') ∧
        Stage rt out start target sources (done ++ rest.map (·.topicId)) [] s' ∧
        out.last ≠ .done) ∨
      ∃ e archived q s', archiveSources rt out rest done s = (.error e, archived, s') ∧
        q ∈ rest ∧ q.topicId ∉ archived ∧ Absent rt q.topicId s' := by
  induction rest with
  | nil =>
    intro done s hready hloss
    have hstage := hready.stage
    rw [List.map_nil, List.append_nil]
    exact .inl ⟨s, rfl, hstage, hloss⟩
  | cons q rest ih =>
    intro done s hready hloss
    rw [NoLoss, Classical.not_imp] at hloss
    obtain ⟨hmove, hloss⟩ := hloss
    by_cases hrebuilds : Rebuilds rt out start target sources done q
    · obtain ⟨t, s₁, hrun, hstage, htopics⟩ :=
        hready.head.archive_ok hplan hmove hrebuilds.1 hrebuilds.2
      have hstep : archiveSources rt out (q :: rest) done s = archiveSources rt out rest (done ++ [q.topicId]) s₁ := by
        simp only [archiveSources, hrun]
      have hids : done ++ (q :: rest).map (·.topicId) =
          done ++ [q.topicId] ++ rest.map (·.topicId) := by simp
      rw [hstep, hids]
      obtain hall | ⟨e, archived, p, s', hfail, hp, hid, habsent⟩ :=
        ih (done ++ [q.topicId]) s₁ (hready.next hstage htopics) fun h => hloss ⟨hrebuilds, h⟩
      · exact .inl hall
      · exact .inr ⟨e, archived, p, s', hfail, List.mem_cons_of_mem _ hp, hid, habsent⟩
    · obtain ⟨e, s', hrun, habsent⟩ := hready.head.archive_lost hplan hmove hrebuilds
      refine .inr ⟨e, done, q, s', ?_, List.mem_cons_self, hready.head.here, habsent⟩
      simp only [archiveSources, hrun]

end Loop

section Merge

variable (rt : Runtime) (out : MergeOutcome) (sourceTopicIds : List Text) (targetTopicId : Text)
  (start : Memory)

def Atomic : Prop :=
  ∀ e, (mergeMemoryTopics rt out sourceTopicIds targetTopicId start).1 = .error e →
    ∀ topicId body, ActiveBody rt (mergeMemoryTopics rt out sourceTopicIds targetTopicId start).2
      topicId body ↔ ActiveBody rt start topicId body

structure Admitted (target : MemoryTopicRecord) (sources : List MemoryTopicRecord) : Prop where
  nonempty : uniqueSources sourceTopicIds targetTopicId ≠ []
  readTarget : readMemoryTopic rt targetTopicId start = (.ok target, start)
  readSources : readTopics rt (uniqueSources sourceTopicIds targetTopicId) start = (.ok sources, start)
  fits : estimateMemoryTokens (mergedBody target sources) ≤ MEMORY_TOPIC_HARD_TOKENS

def Safe : Prop :=
  ∀ target sources, Admitted rt sourceTopicIds targetTopicId start target sources →
    if out.target.isDone = true then
      NoLoss rt out start target sources [] sources ∧ Undone rt out start target sources [] sources
    else out.restore = .done

variable {rt out sourceTopicIds targetTopicId start} {target : MemoryTopicRecord}
  {sources : List MemoryTopicRecord}

theorem nodup_distinct (xs : List Text) : (distinct xs).Nodup := by
  induction xs with
  | nil => exact .nil
  | cons x xs ih =>
    rw [distinct, List.nodup_cons]
    exact ⟨by simp, ih.filter _⟩

theorem Admitted.plan (h : Admitted rt sourceTopicIds targetTopicId start target sources)
    (hunique : UniqueIds rt start) : Plan rt start target sources := by
  obtain ⟨-, htarget, hactive, hid⟩ := of_readMemoryTopic rt h.readTarget
  obtain ⟨-, hids, hsources⟩ := of_readTopics h.readSources
  refine ⟨hunique, htarget, hactive, fun q hq => ⟨(hsources q hq).1, (hsources q hq).2, ?_⟩, ?_⟩
  · have hmem : q.topicId ∈ uniqueSources sourceTopicIds targetTopicId := by
      rw [← hids]
      exact List.mem_map_of_mem hq
    rw [hid]
    simpa using (List.mem_filter.mp hmem).2
  · rw [hids]
    exact (nodup_distinct sourceTopicIds).filter _

variable {before : MemoryFile}

theorem Admitted.run (h : Admitted rt sourceTopicIds targetTopicId start target sources)
    (out : MergeOutcome) (hget : start.get target.path = some before) :
    mergeMemoryTopics rt out sourceTopicIds targetTopicId start = mergeFiles rt out target sources before start := by
  have hread : readTopicFile target.path start = (.ok before, start) := by
    simp only [readTopicFile, Op.read, hget]
  unfold mergeMemoryTopics
  rw [Op.bind_ok (Op.lift_ensure_of h.nonempty _ _), Op.bind_ok h.readTarget,
    Op.bind_ok h.readSources, Op.bind_ok (Op.lift_ensure_of h.fits _ _)]
  exact Op.bind_ok hread

theorem merge_cases : (∃ e, mergeMemoryTopics rt out sourceTopicIds targetTopicId start = (.error e, start)) ∨
    ∃ target sources before, Admitted rt sourceTopicIds targetTopicId start target sources ∧
      start.get target.path = some before ∧
      mergeMemoryTopics rt out sourceTopicIds targetTopicId start = mergeFiles rt out target sources before start := by
  unfold mergeMemoryTopics
  by_cases hnonempty : uniqueSources sourceTopicIds targetTopicId ≠ []
  swap
  · exact .inl ⟨_, Op.bind_error (Op.lift_ensure_of_not hnonempty _ _)⟩
  rw [Op.bind_ok (Op.lift_ensure_of hnonempty _ _)]
  cases htarget : readMemoryTopic rt targetTopicId start with
  | mk result s₁ =>
    have hs₁ : s₁ = start := congrArg Prod.snd htarget.symm
    rw [hs₁] at htarget
    cases result with
    | error e => exact .inl ⟨e, Op.bind_error htarget⟩
    | ok target =>
      rw [Op.bind_ok htarget]
      cases hsources : readTopics rt (uniqueSources sourceTopicIds targetTopicId) start with
      | mk result s₂ =>
        have hs₂ : s₂ = start := by
          have hsnd := readTopics_snd rt (uniqueSources sourceTopicIds targetTopicId) start
          rw [hsources] at hsnd
          exact hsnd
        rw [hs₂] at hsources
        cases result with
        | error e => exact .inl ⟨e, Op.bind_error hsources⟩
        | ok sources =>
          rw [Op.bind_ok hsources]
          by_cases hfits : estimateMemoryTokens (mergedBody target sources) ≤ MEMORY_TOPIC_HARD_TOKENS
          swap
          · exact .inl ⟨_, Op.bind_error (Op.lift_ensure_of_not hfits _ _)⟩
          obtain ⟨-, ⟨before, hget, -⟩, -, -⟩ := of_readMemoryTopic rt htarget
          have hadmitted : Admitted rt sourceTopicIds targetTopicId start target sources :=
            ⟨hnonempty, htarget, hsources, hfits⟩
          have hrun := hadmitted.run out hget
          unfold mergeMemoryTopics at hrun
          rw [Op.bind_ok (Op.lift_ensure_of hnonempty _ _), Op.bind_ok htarget, Op.bind_ok hsources] at hrun
          exact .inr ⟨target, sources, before, hadmitted, hget, hrun⟩

theorem unmarked_readAgentSummary (s : Memory) : ¬summaryEnd <:+: trim (readAgentSummary s) := by
  rw [readAgentSummary]
  cases s.main with
  | none => decide
  | some main => exact not_summaryEnd_extract main

theorem readyAll_begin (hplan : Plan rt start target sources) : ReadyAll rt out start target sources [] sources
      (start.put target.path (mergedFile rt target sources out.now)) := by
  have hparse := parse_mergedFile sources hplan.isTarget out.now
  refine ⟨⟨?_, fun q _ hmem => absurd hmem List.not_mem_nil, fun _ => .rfl,
    unmarked_readAgentSummary start⟩, fun q hq => hq, by simpa using hplan.nodup, ?_⟩
  · intro r hr
    rw [isTopic_put rt hparse]
    constructor
    · rintro (rfl | ⟨hpath, hrs⟩)
      · exact ⟨target, hplan.isTarget, hplan.targetActive, by rw [stageOf, if_pos rfl]⟩
      · refine ⟨r, hrs, hr, stageOf_kept ?_ List.not_mem_nil List.not_mem_nil⟩
        intro hid
        exact hpath (by rw [hplan.unique.active r target hrs hr hplan.isTarget hplan.targetActive hid])
    · rintro ⟨q, hq, hactive, hstage⟩
      by_cases htarget : q.topicId = target.topicId
      · rw [stageOf, if_pos htarget] at hstage
        exact .inl (Option.some_inj.mp hstage).symm
      · rw [stageOf_kept htarget List.not_mem_nil List.not_mem_nil] at hstage
        obtain rfl := Option.some_inj.mp hstage
        refine .inr ⟨fun hpath => htarget ?_, hq⟩
        rw [← hq.topicId_path, hpath, hplan.isTarget.topicId_path]
  · intro q hq r hrs hr hid
    obtain ⟨htopic, hactive, -⟩ := hplan.isSource q hq
    obtain rfl | ⟨-, hrs⟩ := (isTopic_put rt hparse).mp hrs
    · rw [show (mergedRecord rt target sources out.now).status = target.status from rfl, hplan.targetActive] at hr
      cases hr
    · exact hplan.unique.archived q r htopic hactive hrs hr hid

theorem tryMerge_done (hplan : Plan rt start target sources) (hdone : out.target = .done) :
    tryMerge rt out target sources start = archiveSources rt out sources []
      (start.put target.path (mergedFile rt target sources out.now)) := by
  have hwrite : writeTarget rt out target sources start =
      (.ok (), start.put target.path (mergedFile rt target sources out.now)) := by
    rw [writeTarget_eq hplan.isTarget, hdone]
    rfl
  simp only [tryMerge, hwrite]

theorem parse_before (hplan : Plan rt start target sources)
    (hget : start.get target.path = some before) :
    parseMemoryTopicFile rt target.path before = .ok target := by
  obtain ⟨file, hfile, hparse⟩ := hplan.isTarget
  rw [hget] at hfile
  obtain rfl := Option.some_inj.mp hfile
  exact hparse

theorem isTopic_written_back (hplan : Plan rt start target sources)
    (hget : start.get target.path = some before) (left : Option MemoryFile)
    (r : MemoryTopicRecord) :
    IsTopic rt ((start.setAt target.path left).put target.path before) r ↔ IsTopic rt start r := by
  by_cases hpath : r.path = target.path
  · rw [isTopic_put rt (parse_before hplan hget)]
    constructor
    · rintro (rfl | ⟨hne, -⟩)
      · exact hplan.isTarget
      · exact absurd hpath hne
    · rintro ⟨file, hfile, hparse⟩
      rw [hpath, hget] at hfile
      obtain rfl := Option.some_inj.mp hfile
      rw [hpath, parse_before hplan hget] at hparse
      exact .inl (Except.ok.inj hparse).symm
  · rw [isTopic_put_of_ne rt hpath, isTopic_setAt rt left hpath]

theorem merge_ends (hplan : Plan rt start target sources) {archived : List Text} {s : Memory}
    (hstage : Stage rt out start target sources archived [] s)
    (hrenders : Renders rt (readAgentSummary start)
      (stageTopics rt out start target sources archived []))
    (hlast : out.last = .done) :
    ∃ t s', (do rebuildMemoryMain rt out.last
                readMemoryTopic rt target.topicId : Op MemoryTopicRecord) s = (.ok t, s') := by
  obtain ⟨main, -, hrebuild⟩ := rebuild_done rt (((hstage.summary _).trans
    (renders_perm rt (perm_stageTopics hplan hstage.active))).mpr hrenders)
  have hmerged : stageOf rt out target sources archived [] target =
      some (mergedRecord rt target sources out.now) := by rw [stageOf, if_pos rfl]
  have hread : readMemoryTopic rt target.topicId { s with main := some main } =
      (.ok (mergedRecord rt target sources out.now), { s with main := some main }) := by
    refine readMemoryTopic_ok rt hplan.isTarget.isTopicId fun r => ?_
    rw [isTopic_setMain]
    constructor
    · rintro ⟨⟨hr, hactive⟩, hid⟩
      obtain ⟨q, hq, hqactive, hq'⟩ := (hstage.active r hactive).mp hr
      rw [topicId_stageOf hq'] at hid
      obtain rfl := hplan.unique.active q target hq hqactive hplan.isTarget hplan.targetActive hid
      rw [hmerged] at hq'
      exact (Option.some_inj.mp hq').symm
    · rintro rfl
      have hactive : (mergedRecord rt target sources out.now).status = .active := hplan.targetActive
      exact ⟨⟨(hstage.active _ hactive).mpr ⟨target, hplan.isTarget, hplan.targetActive, hmerged⟩, hactive⟩, rfl⟩
  rw [hlast]
  exact ⟨_, _, (Op.bind_ok hrebuild).trans hread⟩

theorem atomic_of_safe (hunique : UniqueIds rt start)
    (hsafe : Safe rt out sourceTopicIds targetTopicId start) :
    Atomic rt out sourceTopicIds targetTopicId start := by
  intro e herror topicId body
  obtain ⟨e', hmerge⟩ | ⟨target, sources, before, hadmitted, hget, hmerge⟩ :=
    @merge_cases rt out sourceTopicIds targetTopicId start
  · rw [hmerge]
  have hplan := hadmitted.plan hunique
  have hbefore := parse_before hplan hget
  have hcond := hsafe target sources hadmitted
  rw [hmerge] at herror ⊢
  cases hdone : out.target with
  | throws left =>
    rw [hdone, WriteOutcome.isDone, if_neg Bool.false_ne_true] at hcond
    have htry : tryMerge rt out target sources start =
        (.error (.file "write failed"), [], start.setAt target.path left) := by
      simp only [tryMerge, writeTarget_eq hplan.isTarget, hdone, writeTopicFile]
    have hcompensate : compensate rt out target.path before [] (start.setAt target.path left) =
        rebuildMemoryMain rt out.restoreMain
          ((start.setAt target.path left).put target.path before) := by
      refine (Op.bind_ok rfl).trans ?_
      rw [hcond]
      exact Op.bind_ok (writeTopicFile_done _ _ _)
    simp only [mergeFiles, htry, hcompensate]
    rw [activeBody_congr (fun r => isTopic_rebuild rt out.restoreMain)]
    exact activeBody_congr (isTopic_written_back hplan hget left) topicId body
  | done =>
    rw [hdone, WriteOutcome.isDone, if_pos rfl] at hcond
    have htry := tryMerge_done hplan hdone
    obtain ⟨s', hrun, hstage, hrenders, hlast⟩ | ⟨e', pre, post, s', hsplit, hrun, hstage, hcomp⟩ :=
      archiveSources_kept hplan sources [] _ (readyAll_begin hplan) hcond.1 hcond.2
    · have hnonempty : sources ≠ [] := by
        rintro rfl
        exact hadmitted.nonempty (of_readTopics hadmitted.readSources).2.1.symm
      obtain ⟨t, s'', hend⟩ := merge_ends hplan hstage (hrenders hnonempty) hlast
      rw [hrun] at htry
      simp only [mergeFiles, htry, hend] at herror
      cases herror
    · rw [hrun] at htry
      simp only [mergeFiles, htry]
      rw [List.nil_append] at hstage hcomp ⊢
      have hnodup := hplan.nodup
      rw [hsplit, List.map_append] at hnodup
      refine compensate_restores hplan hstage (List.nodup_append.mp hnodup).1 ?_ hcomp hbefore
        topicId body
      intro id hid
      obtain ⟨q, hq, rfl⟩ := List.mem_map.mp hid
      exact ⟨q, by rw [hsplit]; exact List.mem_append_left _ hq, rfl⟩

theorem noLoss_of_atomic (hunique : UniqueIds rt start)
    (hatomic : Atomic rt out sourceTopicIds targetTopicId start)
    (hadmitted : Admitted rt sourceTopicIds targetTopicId start target sources)
    (hdone : out.target = .done) : NoLoss rt out start target sources [] sources := by
  have hplan := hadmitted.plan hunique
  have hlost : ∀ q ∈ sources, ∀ e s', mergeMemoryTopics rt out sourceTopicIds targetTopicId start =
      (.error e, s') → ¬Absent rt q.topicId s' := by
    intro q hq e s' hmerge habsent
    obtain ⟨htopic, hactive, -⟩ := hplan.isSource q hq
    have hsame := hatomic e (by rw [hmerge]) q.topicId q.body
    rw [hmerge] at hsame
    obtain ⟨r, hr, hractive, hid, -⟩ := hsame.mpr ⟨q, htopic, hactive, rfl, rfl⟩
    exact habsent r hractive hid hr
  obtain ⟨before, hget, -⟩ := hplan.isTarget
  have hmerge : mergeMemoryTopics rt out sourceTopicIds targetTopicId start =
      mergeFiles rt out target sources before start := hadmitted.run out hget
  have htry := tryMerge_done hplan hdone
  by_contra hloss
  obtain ⟨s', hrun, hstage, hlast⟩ | ⟨e, archived, q, s', hrun, hq, hid, habsent⟩ :=
    archiveSources_lost hplan sources [] _ (readyAll_begin hplan) hloss
  · rw [hrun] at htry
    simp only [mergeFiles, htry] at hmerge
    cases hrebuild : rebuildMemoryMain rt out.last s' with
    | mk result s'' =>
      cases result with
      | ok u => exact hlast (of_rebuild rt hrebuild).1
      | error e =>
        rw [Op.bind_error hrebuild] at hmerge
        obtain ⟨q, hq⟩ := List.exists_mem_of_ne_nil sources (by
          rintro rfl
          exact hadmitted.nonempty (of_readTopics hadmitted.readSources).2.1.symm)
        refine hlost q hq e s'' hmerge ?_
        have habsent : Absent rt q.topicId s' := by
          intro r hr hid hrs
          obtain ⟨p, -, -, hp⟩ := (hstage.active r hr).mp hrs
          rw [topicId_stageOf hp] at hid
          rw [stageOf_away (by rw [hid]; exact (hplan.isSource q hq).2.2)
            (by rw [hid]; exact List.mem_map_of_mem hq)] at hp
          cases hp
        have hs'' := (leaves_rebuild out.last).absent habsent
        rw [hrebuild] at hs''
        exact hs''
  · rw [hrun] at htry
    simp only [mergeFiles, htry] at hmerge
    refine hlost q hq e _ hmerge ?_
    refine (leaves_compensate out ?_ before hid).absent habsent
    rw [hplan.isTarget.topicId_path]
    exact Ne.symm (hplan.isSource q hq).2.2

/-- A merge is atomic when no source is lost and what precedes a failure can be undone; where a
source is lost it is not. -/
theorem merge_atomic (rt : Runtime) (out : MergeOutcome) (sourceTopicIds : List Text)
    (targetTopicId : Text) (start : Memory) :
    (UniqueIds rt start ∧ Safe rt out sourceTopicIds targetTopicId start →
      Atomic rt out sourceTopicIds targetTopicId start) ∧
    (UniqueIds rt start → Atomic rt out sourceTopicIds targetTopicId start →
      ∀ target sources, Admitted rt sourceTopicIds targetTopicId start target sources →
        out.target = .done → NoLoss rt out start target sources [] sources) :=
  ⟨fun h => atomic_of_safe h.1 h.2,
    fun hunique hatomic _ _ hadmitted hdone => noLoss_of_atomic hunique hatomic hadmitted hdone⟩

end Merge

section Runs

def plainTopic (topicId title description : Text) (keywords : List Text) : TopicPath × MemoryFile :=
  (⟨.active, topicId, title⟩, topicFile plainRuntime
    { topicId, title, scope := ['s'], description, keywords, status := .active, updatedAt := 5 }
    (['#', ' '] ++ title))

def quietMerge : MergeOutcome where
  now := 9
  target := .done
  archive _ := ⟨⟨9, .done, true⟩, .done⟩
  last := .done
  reactivate _ := ⟨⟨9, .done, true⟩, fun _ => ⟨9, .done, true⟩, .done⟩
  restore := .done
  restoreMain := .done

def twoTopics : Memory where
  main := none
  files := [plainTopic "tpc_00000001".toList ['t'] ['t'] [['k']],
    plainTopic "tpc_00000002".toList ['a'] ['a'] [['a']]]
  nodup := by decide

def fullDiskMerge : MergeOutcome :=
  { quietMerge with archive _ := ⟨⟨9, .throws none, true⟩, .done⟩ }

theorem uniqueIds_twoTopics : UniqueIds plainRuntime twoTopics := by
  have hactive : ∀ q ∈ topics plainRuntime twoTopics, q.status = .active := by decide +kernel
  have hids : ((topics plainRuntime twoTopics).map (·.topicId)).Nodup := by decide +kernel
  constructor
  · intro q r hq _ hr _ hid
    rw [← mem_topics] at hq hr
    exact List.inj_on_of_nodup_map hids hq hr hid
  · intro q r _ _ hr harchived
    rw [← mem_topics] at hr
    cases (hactive r hr).symm.trans harchived

theorem merge_atomic_fullDisk :
    (mergeMemoryTopics plainRuntime fullDiskMerge ["tpc_00000002".toList] "tpc_00000001".toList
      twoTopics).1.toBool = false ∧
    Atomic plainRuntime fullDiskMerge ["tpc_00000002".toList] "tpc_00000001".toList twoTopics := by
  refine ⟨by decide +kernel, (merge_atomic plainRuntime fullDiskMerge ["tpc_00000002".toList]
    "tpc_00000001".toList twoTopics).1 ⟨uniqueIds_twoTopics, ?_⟩⟩
  intro target sources hadmitted
  obtain ⟨-, hids, -⟩ := of_readTopics hadmitted.readSources
  rw [show uniqueSources ["tpc_00000002".toList] "tpc_00000001".toList = ["tpc_00000002".toList] by decide] at hids
  match sources, hids with
  | [q], _ =>
    refine ⟨fun hmove => absurd hmove Bool.false_ne_true, rfl, ?_⟩
    intro back id later hnil
    simp at hnil

def han (n : Nat) : Text := List.replicate n '中'

/-- The catalogue has room for these six, but not for the keywords of `b` on `t` and on `b`. -/
def crowdedMemory : Memory where
  main := none
  files := [plainTopic "tpc_00000001".toList ['t'] (han 100) [['k']],
    plainTopic "tpc_00000002".toList ['a'] ['a'] [['a']],
    plainTopic "tpc_00000003".toList ['b'] (han 10) [han 40, han 39, han 38, han 37, han 36],
    plainTopic "tpc_00000004".toList ['d'] (han 100) [['a']],
    plainTopic "tpc_00000005".toList ['e'] (han 100) [['a']],
    plainTopic "tpc_00000006".toList ['f'] (han 100) [['a']]]
  nodup := by decide

theorem merge_loses_source : ¬Atomic plainRuntime quietMerge
    ["tpc_00000002".toList, "tpc_00000003".toList] "tpc_00000001".toList crowdedMemory := by
  intro hatomic
  cases hmerge : mergeMemoryTopics plainRuntime quietMerge
      ["tpc_00000002".toList, "tpc_00000003".toList] "tpc_00000001".toList crowdedMemory with
  | mk result after =>
    have hfails : result.toBool = false := by
      rw [show result = _ from (congrArg Prod.fst hmerge).symm]
      decide +kernel
    have hgone : ∀ r ∈ topics plainRuntime after, r.status = .active → r.topicId ≠ "tpc_00000002".toList := by
      rw [show after = _ from (congrArg Prod.snd hmerge).symm]
      decide +kernel
    have hhere : ∃ r ∈ topics plainRuntime crowdedMemory,
        r.status = .active ∧ r.topicId = "tpc_00000002".toList := by decide +kernel
    obtain ⟨q, hq, hactive, hid⟩ := hhere
    cases result with
    | ok topic => cases hfails
    | error e =>
      have hsame := hatomic e (by rw [hmerge]) "tpc_00000002".toList q.body
      rw [hmerge] at hsame
      obtain ⟨r, hr, hactive, hid, -⟩ :=
        hsame.mpr ⟨q, (mem_topics plainRuntime).mp hq, hactive, hid, rfl⟩
      exact hgone r ((mem_topics plainRuntime).mpr hr) hactive hid

end Runs

end A2Wave.MemoryTopics
