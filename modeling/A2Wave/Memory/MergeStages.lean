import Mathlib
import A2Wave.Memory.Merge

/-! The topics at every stage of a merge and of its compensation, named by the ids that are away in
the archive and those that are back from it. -/

namespace A2Wave.MemoryTopics

open JsText TextSearch

def WriteOutcome.isDone {α : Type} : WriteOutcome α → Bool
  | .done => true
  | .throws _ => false

def MoveOutcome.isDone (outcome : MoveOutcome) : Bool := outcome.write.isDone && outcome.deletes

theorem WriteOutcome.eq_done {α : Type} {outcome : WriteOutcome α} (h : outcome.isDone = true) : outcome = .done := by
  cases outcome with
  | done => rfl
  | throws left => cases h

section Merged

variable {rt : Runtime} {s : Memory} {target : MemoryTopicRecord} {sources : List MemoryTopicRecord}

theorem titleLine_trimmed {m : MemoryTopicMetadata} (h : Checked rt m) :
    (∀ c ∈ (titleLine m.title).head?, isSpace c = false) ∧ ∀ c ∈ (titleLine m.title).getLast?, isSpace c = false := by
  constructor
  · rintro c hc
    obtain rfl : '#' = c := Option.some_inj.mp hc
    decide
  · intro c hc
    rw [titleLine, List.getLast?_append_of_ne_nil _ h.title_ne_nil, ← h.trim_title] at hc
    exact getLast?_trim c hc

def writtenKeywords (rt : Runtime) (target : MemoryTopicRecord)
    (sources : List MemoryTopicRecord) : List Text :=
  keepKeywords rt ((mergedKeywords target sources).map some) []

def mergedWritten (rt : Runtime) (target : MemoryTopicRecord) (sources : List MemoryTopicRecord)
    (now : Nat) : MemoryTopicMetadata :=
  { mergedMetadata target sources now with keywords := writtenKeywords rt target sources }

def mergedFile (rt : Runtime) (target : MemoryTopicRecord) (sources : List MemoryTopicRecord)
    (now : Nat) : MemoryFile :=
  topicFile rt (mergedWritten rt target sources now) (trim (mergedBody target sources))

def mergedRecord (rt : Runtime) (target : MemoryTopicRecord) (sources : List MemoryTopicRecord)
    (now : Nat) : MemoryTopicRecord :=
  topicRecord (mergedWritten rt target sources now) target.path (trim (mergedBody target sources))
    (fileSize (mergedFile rt target sources now))

theorem keywords_ne_nil {m : MemoryTopicMetadata} (h : Checked rt m) :
    ∃ k ks, m.keywords = k :: ks ∧ normalizeSpace k = k ∧ k ≠ [] ∧ length16 k ≤ 40 := by
  have hkeys := h.keywords
  simp only [normalizedKeywords] at hkeys
  split at hkeys
  next => cases hkeys
  next hlen =>
    have heq := Except.ok.inj hkeys
    cases hm : m.keywords with
    | nil =>
      rw [hm] at hlen
      exact absurd (.inl rfl) hlen
    | cons k ks =>
      have hmem : k ∈ keepKeywords rt (m.keywords.map some) [] := by
        rw [heq, hm]
        exact .head _
      exact ⟨k, ks, rfl, of_mem_keepKeywords hmem⟩

theorem normalizedKeywords_merged (h : Checked rt target.toMemoryTopicMetadata) :
    normalizedKeywords rt (some ((mergedKeywords target sources).map some)) =
      .ok (writtenKeywords rt target sources) := by
  obtain ⟨k, ks, hk, hnormal, hne, hlen⟩ := keywords_ne_nil h
  have hpos : (writtenKeywords rt target sources).length ≠ 0 := by
    rw [writtenKeywords, mergedKeywords, hk, List.cons_append, distinct,
      MEMORY_TOPIC_KEYWORD_LIMIT, List.take_succ_cons, List.map_cons]
    simp [keepKeywords, hnormal, hne, Nat.not_lt.mpr hlen]
  have hle : (writtenKeywords rt target sources).length ≤ MEMORY_TOPIC_KEYWORD_LIMIT := by
    refine Nat.le_trans (length_keepKeywords_le _ _) ?_
    rw [List.length_map, mergedKeywords]
    exact List.length_take_le _ _
  simp only [normalizedKeywords]
  rw [if_neg]
  · rfl
  · rw [not_or, Nat.not_lt]
    exact ⟨hpos, hle⟩

theorem checked_merged (h : Checked rt target.toMemoryTopicMetadata) (now : Nat) :
    Checked rt (mergedWritten rt target sources now) :=
  ⟨h.topicId, h.isTopicId, h.title, h.scope, h.description, normalizedKeywords_ok (normalizedKeywords_merged h)⟩

theorem isPrefix_mergedBody (h : target.body ≠ []) : target.body <+: mergedBody target sources := by
  rw [mergedBody, List.filter_cons_of_pos (by simpa using h)]
  cases (sources.map fun topic => trim (dropTitleLine topic.body)).filter (· ≠ []) with
  | nil => simp [List.intercalate]
  | cons body rest =>
    rw [List.intercalate_cons_cons, List.append_assoc]
    exact List.prefix_append _ _

theorem titled_merged (h : IsTopic rt s target) : titleLine target.title <+: trim (mergedBody target sources) := by
  obtain ⟨file, -, hreads⟩ := h.readsAs
  have hbody : target.body ≠ [] := by
    intro hnil
    have htitled := hreads.titled
    rw [hnil, List.prefix_nil] at htitled
    cases htitled
  have hedges := titleLine_trimmed hreads.checked
  exact isPrefix_trim (hreads.titled.trans (isPrefix_mergedBody hbody)) (List.cons_ne_nil _ _)
    hedges.1 hedges.2

theorem writeTarget_eq (h : IsTopic rt s target) (out : MergeOutcome) : writeTarget rt out target sources s =
      writeTopicFile out.target target.path (mergedFile rt target sources out.now) s := by
  obtain ⟨file, -, hreads⟩ := h.readsAs
  have hrender : renderMemoryTopicFile rt (mergedMetadata target sources out.now)
      (mergedBody target sources) = .ok (mergedFile rt target sources out.now) :=
    render_of_keywords (checked_merged hreads.checked out.now)
      (normalizedKeywords_merged hreads.checked) (titled_merged h)
  refine Op.bind_ok ?_
  rw [hrender]
  rfl

variable (sources) in
theorem parse_mergedFile (h : IsTopic rt s target) (now : Nat) :
    parseMemoryTopicFile rt target.path (mergedFile rt target sources now) =
      .ok (mergedRecord rt target sources now) := by
  obtain ⟨file, -, hreads⟩ := h.readsAs
  exact parse_topicFile (checked_merged hreads.checked now) hreads.isTopicPath hreads.topicId
    hreads.status trim_trim (titled_merged h)

end Merged

def archivePath (rt : Runtime) (q : MemoryTopicRecord) : TopicPath :=
  topicPath rt { q.toMemoryTopicMetadata with status := .archived }

/-- At most one active file is read as a topic of an id, and an archived copy of it is where it
would be archived. -/
structure UniqueIds (rt : Runtime) (s : Memory) : Prop where
  active : ∀ q r, IsTopic rt s q → q.status = .active → IsTopic rt s r → r.status = .active →
    q.topicId = r.topicId → q = r
  archived : ∀ q r, IsTopic rt s q → q.status = .active → IsTopic rt s r → r.status = .archived →
    r.topicId = q.topicId → r.path = archivePath rt q

structure Plan (rt : Runtime) (s : Memory) (target : MemoryTopicRecord)
    (sources : List MemoryTopicRecord) : Prop where
  unique : UniqueIds rt s
  isTarget : IsTopic rt s target
  targetActive : target.status = .active
  isSource : ∀ q ∈ sources, IsTopic rt s q ∧ q.status = .active ∧ q.topicId ≠ target.topicId
  nodup : (sources.map (·.topicId)).Nodup

section Stage

variable (rt : Runtime) (out : MergeOutcome) (start : Memory) (target : MemoryTopicRecord)
  (sources : List MemoryTopicRecord)

def archivedOf (q : MemoryTopicRecord) : MemoryTopicRecord :=
  movedRecord rt q .archived (out.archive q.topicId).move.now

def reactivatedOf (q : MemoryTopicRecord) : MemoryTopicRecord :=
  movedRecord rt (archivedOf rt out q) .active (out.reactivate q.topicId).move.now

def stageOf (away back : List Text) (q : MemoryTopicRecord) : Option MemoryTopicRecord :=
  if q.topicId = target.topicId then some (mergedRecord rt target sources out.now)
  else if q.topicId ∈ away then none
  else if q.topicId ∈ back then some (reactivatedOf rt out q)
  else some q

def stageTopics (away back : List Text) : List MemoryTopicRecord :=
  (listMemoryTopics rt start .active).filterMap (stageOf rt out target sources away back)

structure Stage (away back : List Text) (s : Memory) : Prop where
  active : ∀ r, r.status = .active → (IsTopic rt s r ↔ ∃ q, IsTopic rt start q ∧
    q.status = .active ∧ stageOf rt out target sources away back q = some r)
  archived : ∀ q ∈ sources, q.topicId ∈ away → ∀ r, r.status = .archived →
    r.topicId = q.topicId → (IsTopic rt s r ↔ r = archivedOf rt out q)
  summary : ∀ topics, Renders rt (readAgentSummary s) topics ↔ Renders rt (readAgentSummary start) topics
  unmarked : ¬summaryEnd <:+: trim (readAgentSummary s)

variable {rt out start target sources} {away back : List Text} {s : Memory}
  {q r : MemoryTopicRecord}

theorem topicId_stageOf (h : stageOf rt out target sources away back q = some r) : r.topicId = q.topicId := by
  unfold stageOf at h
  split_ifs at h with htarget haway hback
  · obtain rfl := Option.some_inj.mp h
    exact htarget.symm
  · obtain rfl := Option.some_inj.mp h
    rfl
  · obtain rfl := Option.some_inj.mp h
    rfl

theorem status_stageOf (hplan : Plan rt start target sources) (hq : q.status = .active)
    (h : stageOf rt out target sources away back q = some r) : r.status = .active := by
  unfold stageOf at h
  split_ifs at h with htarget haway hback
  · obtain rfl := Option.some_inj.mp h
    exact hplan.targetActive
  · obtain rfl := Option.some_inj.mp h
    rfl
  · obtain rfl := Option.some_inj.mp h
    exact hq

theorem perm_stageTopics (hplan : Plan rt start target sources)
    (hactive : ∀ r, r.status = .active → (IsTopic rt s r ↔ ∃ q, IsTopic rt start q ∧
      q.status = .active ∧ stageOf rt out target sources away back q = some r)) :
    (listMemoryTopics rt s .active).Perm (stageTopics rt out start target sources away back) := by
  have hnodup : (stageTopics rt out start target sources away back).Nodup := by
    have hstart : ((listMemoryTopics rt start .active).map (·.topicId)).Nodup := by
      refine (nodup_listMemoryTopics rt start .active).map_on ?_
      intro q hq r hr hid
      obtain ⟨hq, hqactive⟩ := (mem_listMemoryTopics rt).mp hq
      obtain ⟨hr, hractive⟩ := (mem_listMemoryTopics rt).mp hr
      exact hplan.unique.active q r hq hqactive hr hractive hid
    refine .of_map (·.topicId) ((map_filterMap_sublist ?_ _).nodup hstart)
    exact fun q r hr => topicId_stageOf hr
  rw [List.perm_ext_iff_of_nodup (nodup_listMemoryTopics rt s .active) hnodup]
  intro r
  rw [mem_listMemoryTopics, stageTopics, List.mem_filterMap]
  constructor
  · rintro ⟨hr, hstatus⟩
    obtain ⟨q, hq, hqactive, hstage⟩ := (hactive r hstatus).mp hr
    exact ⟨q, (mem_listMemoryTopics rt).mpr ⟨hq, hqactive⟩, hstage⟩
  · rintro ⟨q, hq, hstage⟩
    obtain ⟨hq, hqactive⟩ := (mem_listMemoryTopics rt).mp hq
    have hstatus := status_stageOf hplan hqactive hstage
    exact ⟨(hactive r hstatus).mpr ⟨q, hq, hqactive, hstage⟩, hstatus⟩

theorem stageOf_kept (htarget : q.topicId ≠ target.topicId) (haway : q.topicId ∉ away)
    (hback : q.topicId ∉ back) : stageOf rt out target sources away back q = some q := by
  rw [stageOf, if_neg htarget, if_neg haway, if_neg hback]

theorem Stage.only_source (hplan : Plan rt start target sources)
    (hstage : Stage rt out start target sources away [] s) (hq : q ∈ sources)
    (haway : q.topicId ∉ away) :
    ∀ r, (IsTopic rt s r ∧ r.status = .active) ∧ r.topicId = q.topicId ↔ r = q := by
  obtain ⟨htopic, hactive, htarget⟩ := hplan.isSource q hq
  have hkept : stageOf rt out target sources away [] q = some q :=
    stageOf_kept htarget haway List.not_mem_nil
  intro r
  constructor
  · rintro ⟨⟨hr, hstatus⟩, hid⟩
    obtain ⟨p, hp, hpactive, hp'⟩ := (hstage.active r hstatus).mp hr
    obtain rfl := hplan.unique.active p q hp hpactive htopic hactive
      ((topicId_stageOf hp').symm.trans hid)
    rw [hkept] at hp'
    exact (Option.some_inj.mp hp').symm
  · rintro rfl
    exact ⟨⟨(hstage.active r hactive).mpr ⟨r, htopic, hactive, hkept⟩, hactive⟩, rfl⟩

theorem Stage.setMain (hstage : Stage rt out start target sources away back s) {main : Text}
    (hrender : renderMemoryMain rt (readAgentSummary s) (listMemoryTopics rt s .active) = .ok main) :
    Stage rt out start target sources away back { s with main := some main } where
  active := hstage.active
  archived := hstage.archived
  summary topics := (renders_extract rt hstage.unmarked hrender).trans (hstage.summary topics)
  unmarked := not_summaryEnd_extract main

def moved (rt : Runtime) (topic : MemoryTopicRecord) (status : MemoryTopicStatus) (now : Nat)
    (s : Memory) : Memory :=
  (s.put (movedRecord rt topic status now).path (movedFile rt topic status now)).del topic.path

theorem stageOf_append {id : Text} (h : q.topicId ≠ id) : stageOf rt out target sources (away ++ [id]) back q =
      stageOf rt out target sources away back q := by
  simp [stageOf, h]

theorem stageOf_cons {id : Text} (h : q.topicId ≠ id) : stageOf rt out target sources away (back ++ [id]) q =
      stageOf rt out target sources (id :: away) back q := by
  simp [stageOf, h]

theorem stageOf_away (htarget : q.topicId ≠ target.topicId) (haway : q.topicId ∈ away) :
    stageOf rt out target sources away back q = none := by
  rw [stageOf, if_neg htarget, if_pos haway]

theorem Stage.archive (hplan : Plan rt start target sources)
    (hstage : Stage rt out start target sources away [] s) (hq : q ∈ sources)
    (hmoved : ∀ r, IsTopic rt (moved rt q .archived (out.archive q.topicId).move.now s) r ↔
      r = archivedOf rt out q ∨ IsTopic rt s r ∧ r.topicId ≠ q.topicId) :
    Stage rt out start target sources (away ++ [q.topicId]) []
      (moved rt q .archived (out.archive q.topicId).move.now s) where
  active := by
    obtain ⟨htopic, hactive, htarget⟩ := hplan.isSource q hq
    intro r hr
    rw [hmoved]
    constructor
    · rintro (rfl | ⟨hrs, hid⟩)
      · cases hr
      · obtain ⟨p, hp, hpactive, hp'⟩ := (hstage.active r hr).mp hrs
        rw [topicId_stageOf hp'] at hid
        exact ⟨p, hp, hpactive, by rw [stageOf_append hid, hp']⟩
    · rintro ⟨p, hp, hpactive, hp'⟩
      have hid : p.topicId ≠ q.topicId := by
        intro hid
        rw [stageOf_away (by rw [hid]; exact htarget) (by rw [hid]; simp)] at hp'
        cases hp'
      rw [stageOf_append hid] at hp'
      refine .inr ⟨(hstage.active r hr).mpr ⟨p, hp, hpactive, hp'⟩, ?_⟩
      rw [topicId_stageOf hp']
      exact hid
  archived := by
    intro p hp hpaway r hr hid
    rw [hmoved]
    by_cases hpq : p.topicId = q.topicId
    · obtain ⟨hpt, hpactive, -⟩ := hplan.isSource p hp
      obtain ⟨hqt, hqactive, -⟩ := hplan.isSource q hq
      obtain rfl := hplan.unique.active p q hpt hpactive hqt hqactive hpq
      exact or_iff_left fun h => h.2 hid
    · have hpaway : p.topicId ∈ away := by simpa [hpq] using hpaway
      rw [← hstage.archived p hp hpaway r hr hid]
      constructor
      · rintro (rfl | ⟨hrs, -⟩)
        · exact absurd hid.symm hpq
        · exact hrs
      · exact fun hrs => .inr ⟨hrs, by rw [hid]; exact hpq⟩
  summary := hstage.summary
  unmarked := hstage.unmarked

theorem Stage.only_archived (hplan : Plan rt start target sources)
    (hstage : Stage rt out start target sources away back s) (hq : q ∈ sources)
    (haway : q.topicId ∈ away) :
    ∀ r, IsTopic rt s r ∧ r.topicId = q.topicId ↔ r = archivedOf rt out q := by
  obtain ⟨-, -, htarget⟩ := hplan.isSource q hq
  intro r
  constructor
  · rintro ⟨hr, hid⟩
    cases hstatus : r.status with
    | archived => exact (hstage.archived q hq haway r hstatus hid).mp hr
    | active =>
      obtain ⟨p, -, -, hp⟩ := (hstage.active r hstatus).mp hr
      rw [topicId_stageOf hp] at hid
      rw [stageOf_away (by rw [hid]; exact htarget) (by rw [hid]; exact haway)] at hp
      cases hp
  · rintro rfl
    exact ⟨(hstage.archived q hq haway (archivedOf rt out q) rfl rfl).mpr rfl, rfl⟩

theorem Stage.reactivate (hplan : Plan rt start target sources)
    (hstage : Stage rt out start target sources (q.topicId :: away) back s) (hq : q ∈ sources)
    (haway : q.topicId ∉ away)
    (hmoved : ∀ r, IsTopic rt (moved rt (archivedOf rt out q) .active
        (out.reactivate q.topicId).move.now s) r ↔
      r = reactivatedOf rt out q ∨ IsTopic rt s r ∧ r.topicId ≠ q.topicId) :
    Stage rt out start target sources away (back ++ [q.topicId])
      (moved rt (archivedOf rt out q) .active (out.reactivate q.topicId).move.now s) where
  active := by
    obtain ⟨htopic, hactive, htarget⟩ := hplan.isSource q hq
    have hback : stageOf rt out target sources away (back ++ [q.topicId]) q = some (reactivatedOf rt out q) := by
      rw [stageOf, if_neg htarget, if_neg haway, if_pos (by simp)]
    intro r hr
    rw [hmoved]
    constructor
    · rintro (rfl | ⟨hrs, hid⟩)
      · exact ⟨q, htopic, hactive, hback⟩
      · obtain ⟨p, hp, hpactive, hp'⟩ := (hstage.active r hr).mp hrs
        rw [topicId_stageOf hp'] at hid
        exact ⟨p, hp, hpactive, by rw [stageOf_cons hid, hp']⟩
    · rintro ⟨p, hp, hpactive, hp'⟩
      by_cases hid : p.topicId = q.topicId
      · obtain rfl := hplan.unique.active p q hp hpactive htopic hactive hid
        rw [hback] at hp'
        exact .inl (Option.some_inj.mp hp').symm
      · rw [stageOf_cons hid] at hp'
        refine .inr ⟨(hstage.active r hr).mpr ⟨p, hp, hpactive, hp'⟩, ?_⟩
        rw [topicId_stageOf hp']
        exact hid
  archived := by
    intro p hp hpaway r hr hid
    have hpq : p.topicId ≠ q.topicId := fun hpq => haway (hpq ▸ hpaway)
    rw [hmoved, ← hstage.archived p hp (List.mem_cons_of_mem _ hpaway) r hr hid]
    constructor
    · rintro (rfl | ⟨hrs, -⟩)
      · cases hr
      · exact hrs
    · exact fun hrs => .inr ⟨hrs, by rw [hid]; exact hpq⟩
  summary := hstage.summary
  unmarked := hstage.unmarked

theorem Stage.frame (hstage : Stage rt out start target sources away back s) {s' : Memory}
    {path : TopicPath} (harchived : path.status = .archived) (hid : path.topicId ∉ away)
    (hsame : ∀ r : MemoryTopicRecord, r.path ≠ path → (IsTopic rt s' r ↔ IsTopic rt s r))
    (hmain : s'.main = s.main) : Stage rt out start target sources away back s' where
  active := by
    intro r hr
    rw [← hstage.active r hr]
    by_cases hpath : r.path = path
    · have hnone : ∀ m : Memory, ¬IsTopic rt m r := by
        intro m hm
        have hstatus := hm.status_path
        rw [hpath, harchived, hr] at hstatus
        cases hstatus
      exact iff_of_false (hnone s') (hnone s)
    · exact hsame r hpath
  archived := by
    intro p hp hpaway r hr hrid
    rw [← hstage.archived p hp hpaway r hr hrid]
    by_cases hpath : r.path = path
    · have hnone : ∀ m : Memory, ¬IsTopic rt m r := by
        intro m hm
        have htopicId := hm.topicId_path
        rw [hpath, hrid] at htopicId
        rw [htopicId] at hid
        exact hid hpaway
      exact iff_of_false (hnone s') (hnone s)
    · exact hsame r hpath
  summary := by
    rw [readAgentSummary, hmain]
    exact hstage.summary
  unmarked := by
    rw [readAgentSummary, hmain]
    exact hstage.unmarked

structure Ready (rt : Runtime) (out : MergeOutcome) (start : Memory) (target : MemoryTopicRecord)
    (sources : List MemoryTopicRecord) (away : List Text) (q : MemoryTopicRecord) (s : Memory) :
    Prop where
  stage : Stage rt out start target sources away [] s
  isSource : q ∈ sources
  here : q.topicId ∉ away
  archived : ∀ r, IsTopic rt s r → r.status = .archived → r.topicId = q.topicId → r.path = archivePath rt q

section Archive

variable (hplan : Plan rt start target sources)
  (hready : Ready rt out start target sources away q s)

include hplan hready

theorem Ready.only : ∀ r, (IsTopic rt s r ∧ r.status = .active) ∧ r.topicId = q.topicId ↔ r = q :=
  hready.stage.only_source hplan hready.isSource hready.here

theorem Ready.isTopic : IsTopic rt s q := ((hready.only hplan q).mpr rfl).1.1

theorem Ready.active : q.status = .active := (hplan.isSource q hready.isSource).2.1

theorem Ready.isTopic_moved (r : MemoryTopicRecord) :
    IsTopic rt (moved rt q .archived (out.archive q.topicId).move.now s) r ↔
      r = archivedOf rt out q ∨ IsTopic rt s r ∧ r.topicId ≠ q.topicId := by
  have hne : q.status ≠ .archived := by rw [hready.active hplan]; exact nofun
  refine isTopic_move rt (hready.isTopic hplan) hne _ fun p hp hid => ?_
  cases hstatus : p.status with
  | active => exact .inl ((hready.only hplan p).mp ⟨⟨hp, hstatus⟩, hid⟩)
  | archived => exact .inr (hready.archived p hp hstatus hid)

theorem Ready.read : readMemoryTopic rt q.topicId s = (.ok q, s) :=
  readMemoryTopic_ok rt (hready.isTopic hplan).isTopicId (hready.only hplan)

theorem Ready.archive_kept (hmove : (out.archive q.topicId).move.isDone = false) :
    ∃ e s', archiveMemoryTopic rt (out.archive q.topicId) q.topicId s = (.error e, s') ∧
      Stage rt out start target sources away [] s' := by
  have hne : q.status ≠ .archived := by rw [hready.active hplan]; exact nofun
  cases hwrite : (out.archive q.topicId).move.write with
  | throws left =>
    refine ⟨_, _, (Op.bind_ok (hready.read hplan)).trans
      (Op.bind_error (moveTopic_throws rt (hready.isTopic hplan) hwrite)), ?_⟩
    exact hready.stage.frame rfl hready.here (fun r hr => isTopic_setAt rt left hr)
      (by cases left <;> rfl)
  | done =>
    have hdel : (out.archive q.topicId).move.deletes = false := by
      simpa [MoveOutcome.isDone, hwrite, WriteOutcome.isDone] using hmove
    refine ⟨_, _, (Op.bind_ok (hready.read hplan)).trans
      (Op.bind_error (moveTopic_kept rt (hready.isTopic hplan) hne hwrite hdel)), ?_⟩
    exact hready.stage.frame rfl hready.here (fun r hr => isTopic_put_of_ne rt hr) rfl

theorem Ready.archive_moved (hmove : (out.archive q.topicId).move.isDone = true) :
    archiveMemoryTopic rt (out.archive q.topicId) q.topicId s =
      (do rebuildMemoryMain rt (out.archive q.topicId).main
          parseAt rt (archivedOf rt out q).path : Op MemoryTopicRecord)
        (moved rt q .archived (out.archive q.topicId).move.now s) := by
  have hne : q.status ≠ .archived := by rw [hready.active hplan]; exact nofun
  rw [MoveOutcome.isDone, Bool.and_eq_true] at hmove
  exact (Op.bind_ok (hready.read hplan)).trans (Op.bind_ok
    (moveTopic_done rt (hready.isTopic hplan) hne (WriteOutcome.eq_done hmove.1) hmove.2))

theorem Ready.stage_moved : Stage rt out start target sources (away ++ [q.topicId]) []
    (moved rt q .archived (out.archive q.topicId).move.now s) :=
  hready.stage.archive hplan hready.isSource (hready.isTopic_moved hplan)

theorem Ready.archive_ok (hmove : (out.archive q.topicId).move.isDone = true)
    (hmain : (out.archive q.topicId).main = .done)
    (hrenders : Renders rt (readAgentSummary start)
      (stageTopics rt out start target sources (away ++ [q.topicId]) [])) :
    ∃ t s', archiveMemoryTopic rt (out.archive q.topicId) q.topicId s = (.ok t, s') ∧
      Stage rt out start target sources (away ++ [q.topicId]) [] s' ∧
      ∀ r, IsTopic rt s' r ↔ r = archivedOf rt out q ∨ IsTopic rt s r ∧ r.topicId ≠ q.topicId := by
  have hstage := hready.stage_moved hplan
  have hrenders' := ((hstage.summary _).trans
    (renders_perm rt (perm_stageTopics hplan hstage.active))).mpr hrenders
  obtain ⟨main, hrender, hrebuild⟩ := rebuild_done rt hrenders'
  have harchived : IsTopic rt (moved rt q .archived (out.archive q.topicId).move.now s)
      (archivedOf rt out q) := (hready.isTopic_moved hplan _).mpr (.inl rfl)
  refine ⟨archivedOf rt out q, _, ?_, hstage.setMain hrender, hready.isTopic_moved hplan⟩
  · rw [hready.archive_moved hplan hmove, hmain]
    exact (Op.bind_ok hrebuild).trans (parseAt_ok rt harchived)

theorem Ready.archive_lost (hmove : (out.archive q.topicId).move.isDone = true)
    (hlost : ¬((out.archive q.topicId).main = .done ∧ Renders rt (readAgentSummary start)
      (stageTopics rt out start target sources (away ++ [q.topicId]) []))) :
    ∃ e s', archiveMemoryTopic rt (out.archive q.topicId) q.topicId s = (.error e, s') ∧
      ∀ r, r.status = .active → r.topicId = q.topicId → ¬IsTopic rt s' r := by
  have hstage := hready.stage_moved hplan
  cases hrebuild : rebuildMemoryMain rt (out.archive q.topicId).main
      (moved rt q .archived (out.archive q.topicId).move.now s) with
  | mk result s' =>
    cases result with
    | ok u =>
      obtain ⟨hmain, hrenders⟩ := of_rebuild rt hrebuild
      refine absurd ⟨hmain, ?_⟩ hlost
      exact ((hstage.summary _).trans
        (renders_perm rt (perm_stageTopics hplan hstage.active))).mp hrenders
    | error e =>
      refine ⟨e, s', ?_, ?_⟩
      · rw [hready.archive_moved hplan hmove]
        exact Op.bind_error hrebuild
      · intro r hr hid hs'
        have hs : s' = (rebuildMemoryMain rt (out.archive q.topicId).main
            (moved rt q .archived (out.archive q.topicId).move.now s)).2 := by rw [hrebuild]
        rw [hs, isTopic_rebuild, hready.isTopic_moved hplan] at hs'
        obtain rfl | ⟨-, hne⟩ := hs'
        · cases hr
        · exact hne hid

end Archive

theorem withinLimits_perm {topics topics' : List MemoryTopicRecord} (h : topics.Perm topics') :
    WithinLimits rt topics ↔ WithinLimits rt topics' := by
  rw [WithinLimits, WithinLimits, h.length_eq, activeTopicBytes, activeTopicBytes,
    (h.map (·.size)).sum_nat, estimateMemoryTokens_perm (catalogText_perm rt h)]

theorem fitCatalog_within (outcomes : Nat → MoveOutcome) (protectedIds : List Text)
    (h : WithinLimits rt (listMemoryTopics rt s .active)) :
    fitCatalog rt outcomes protectedIds s = (.ok (), s) := by
  simp only [fitCatalog, ensureCatalogFits, fitFrom, if_pos h]

/-- Nothing disturbs a topic coming back: its files are moved, no limit is in the way, and the main
file is written. -/
structure ComesBack (rt : Runtime) (out : MergeOutcome) (start : Memory)
    (target : MemoryTopicRecord) (sources : List MemoryTopicRecord) (back : List Text) (id : Text)
    (later : List Text) : Prop where
  move : (out.reactivate id).move.isDone = true
  main : (out.reactivate id).main = .done
  within : WithinLimits rt (stageTopics rt out start target sources later (back ++ [id]))
  renders : Renders rt (readAgentSummary start)
    (stageTopics rt out start target sources later (back ++ [id]))

theorem reactivate_ok (hplan : Plan rt start target sources)
    (hstage : Stage rt out start target sources (q.topicId :: away) back s) (hq : q ∈ sources)
    (haway : q.topicId ∉ away)
    (hback : ComesBack rt out start target sources back q.topicId away) :
    ∃ t s', reactivateMemoryTopic rt (out.reactivate q.topicId) q.topicId s = (.ok t, s') ∧
      Stage rt out start target sources away (back ++ [q.topicId]) s' := by
  have honly := hstage.only_archived hplan hq List.mem_cons_self
  have harchived : IsTopic rt s (archivedOf rt out q) := ((honly _).mpr rfl).1
  have hne : (archivedOf rt out q).status ≠ .active := by
    show MemoryTopicStatus.archived ≠ .active
    exact nofun
  have hmoved : ∀ r, IsTopic rt (moved rt (archivedOf rt out q) .active
      (out.reactivate q.topicId).move.now s) r ↔
        r = reactivatedOf rt out q ∨ IsTopic rt s r ∧ r.topicId ≠ q.topicId := fun r =>
    isTopic_move rt harchived hne _ fun p hp hid => .inl ((honly p).mp ⟨hp, hid⟩)
  have hnext := hstage.reactivate hplan hq haway hmoved
  have hperm := perm_stageTopics hplan hnext.active
  have hwithin := (withinLimits_perm hperm).mpr hback.within
  obtain ⟨main, hrender, hrebuild⟩ := rebuild_done rt
    (((hnext.summary _).trans (renders_perm rt hperm)).mpr hback.renders)
  have hread : readArchivedTopic rt q.topicId s = (.ok (archivedOf rt out q), s) := by
    refine readArchivedTopic_ok rt fun r => ?_
    constructor
    · rintro ⟨⟨hr, -⟩, hid⟩
      exact (honly r).mp ⟨hr, hid⟩
    · rintro rfl
      exact ⟨⟨harchived, rfl⟩, rfl⟩
  have hmove := hback.move
  rw [MoveOutcome.isDone, Bool.and_eq_true] at hmove
  have hfits := fitCatalog_within (out.reactivate q.topicId).fit [q.topicId] hwithin
  refine ⟨reactivatedOf rt out q, _, ?_, hnext.setMain hrender⟩
  have hback' : ∀ s' : Memory, (∀ r, IsTopic rt s' r ↔
      r = reactivatedOf rt out q ∨ IsTopic rt s r ∧ r.topicId ≠ q.topicId) →
        readMemoryTopic rt q.topicId s' = (.ok (reactivatedOf rt out q), s') := by
    intro s' hs'
    refine readMemoryTopic_ok rt (hplan.isSource q hq).1.isTopicId fun r => ?_
    rw [hs']
    constructor
    · rintro ⟨⟨rfl | ⟨-, hid⟩, -⟩, hid'⟩
      · rfl
      · exact absurd hid' hid
    · rintro rfl
      exact ⟨⟨.inl rfl, rfl⟩, rfl⟩
  rw [← hback.main] at hrebuild
  refine (Op.bind_ok hread).trans ?_
  refine (Op.bind_ok (moveTopic_done rt harchived hne (WriteOutcome.eq_done hmove.1) hmove.2)).trans ?_
  exact (Op.bind_ok hfits).trans ((Op.bind_ok hrebuild).trans (hback' _ hmoved))

theorem reactivateAll_ok (hplan : Plan rt start target sources) (ids : List Text) :
    ∀ back s, Stage rt out start target sources ids back s → ids.Nodup → (∀ id ∈ ids, ∃ q ∈ sources, q.topicId = id) →
      (∀ pre id post, ids = pre ++ id :: post → ComesBack rt out start target sources (back ++ pre) id post) →
      ∃ s', reactivateAll rt out.reactivate ids s = (.ok (), s') ∧
        Stage rt out start target sources [] (back ++ ids) s' := by
  induction ids with
  | nil =>
    intro back s hstage _ _ _
    rw [List.append_nil]
    exact ⟨s, rfl, hstage⟩
  | cons id ids ih =>
    intro back s hstage hnodup hids hback
    obtain ⟨q, hq, rfl⟩ := hids id List.mem_cons_self
    rw [List.nodup_cons] at hnodup
    have hfirst := hback [] q.topicId ids rfl
    rw [List.append_nil] at hfirst
    obtain ⟨t, s₁, hrun, hnext⟩ := reactivate_ok hplan hstage hq hnodup.1 hfirst
    obtain ⟨s', hrest, hend⟩ := ih (back ++ [q.topicId]) s₁ hnext hnodup.2
      (fun id hid => hids id (List.mem_cons_of_mem _ hid)) (by
        intro pre id post hsplit
        rw [List.append_assoc]
        exact hback (q.topicId :: pre) id post (by rw [hsplit]; rfl))
    rw [List.append_assoc] at hend
    exact ⟨s', (Op.bind_ok hrun).trans hrest, hend⟩

end Stage

end A2Wave.MemoryTopics
