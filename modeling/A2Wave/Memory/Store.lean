import Mathlib
import A2Wave.Memory.Main

/-! The memory files of an agent, and the operations on its topics.  Every file operation may
throw: what it does and what it leaves is its outcome. -/

namespace A2Wave.MemoryTopics

open JsText

inductive MemoryError
  | topic (e : MemoryTopicError)
  | file (message : String)
  deriving DecidableEq

structure Memory where
  main : Option Text
  files : List (TopicPath × MemoryFile)
  nodup : (files.map (·.1)).Nodup

namespace Memory

def get (s : Memory) (path : TopicPath) : Option MemoryFile :=
  (s.files.find? fun entry => entry.1 = path).map (·.2)

def del (s : Memory) (path : TopicPath) : Memory where
  main := s.main
  files := s.files.filter fun entry => entry.1 ≠ path
  nodup := (List.filter_sublist.map Prod.fst).nodup s.nodup

def put (s : Memory) (path : TopicPath) (file : MemoryFile) : Memory where
  main := s.main
  files := (path, file) :: (s.del path).files
  nodup := by
    rw [List.map_cons, List.nodup_cons]
    refine ⟨?_, (s.del path).nodup⟩
    rintro hmem
    obtain ⟨entry, hentry, rfl⟩ := List.mem_map.mp hmem
    simp [del] at hentry

def setAt (s : Memory) (path : TopicPath) : Option MemoryFile → Memory
  | none => s.del path
  | some file => s.put path file

variable {s : Memory} {path other : TopicPath} {file : MemoryFile}

theorem get_eq_some : s.get path = some file ↔ (path, file) ∈ s.files := by
  rw [get, Option.map_eq_some_iff]
  constructor
  · rintro ⟨⟨p, f⟩, hfind, rfl⟩
    obtain rfl : p = path := by simpa using List.find?_some hfind
    exact List.mem_of_find?_eq_some hfind
  · intro hmem
    cases hfind : s.files.find? fun entry => entry.1 = path with
    | none =>
      have hnone := List.find?_eq_none.mp hfind _ hmem
      simp at hnone
    | some entry =>
      have hkey : entry.1 = path := by simpa using List.find?_some hfind
      have heq := List.inj_on_of_nodup_map s.nodup (List.mem_of_find?_eq_some hfind) hmem hkey
      exact ⟨entry, rfl, by rw [heq]⟩

theorem get_del_self : (s.del path).get path = none := by
  rw [Option.eq_none_iff_forall_ne_some]
  intro f hf
  rw [get_eq_some] at hf
  simp [del] at hf

theorem get_del_of_ne (h : other ≠ path) : (s.del path).get other = s.get other := by
  ext f
  rw [get_eq_some, get_eq_some]
  simp [del, h]

theorem get_put_self : (s.put path file).get path = some file := by
  rw [get_eq_some]
  exact .head _

theorem get_put_of_ne (h : other ≠ path) : (s.put path file).get other = s.get other := by
  have hdel : (s.del path).get other = s.get other := get_del_of_ne h
  rw [← hdel]
  ext f
  rw [get_eq_some, get_eq_some, put, List.mem_cons, Prod.mk.injEq]
  exact or_iff_right fun hfirst => h hfirst.1

theorem get_setAt_of_ne (left : Option MemoryFile) (h : other ≠ path) :
    (s.setAt path left).get other = s.get other := by
  cases left with
  | none => exact get_del_of_ne h
  | some file => exact get_put_of_ne h

end Memory

inductive WriteOutcome (α : Type)
  | done
  | throws (left : Option α)

def Op (α : Type) := Memory → Except MemoryError α × Memory

namespace Op

variable {α β : Type}

def bind (x : Op α) (f : α → Op β) : Op β := fun s =>
  match x s with
  | (.ok a, s') => f a s'
  | (.error e, s') => (.error e, s')

instance : Monad Op where
  pure a := fun s => (.ok a, s)
  bind := bind

def read (f : Memory → Except MemoryError α) : Op α := fun s => (f s, s)

def lift (x : Except MemoryTopicError α) : Op α := read fun _ => x.mapError .topic

variable {x : Op α} {f : α → Op β} {s s' : Memory} {a : α} {e : MemoryError}

theorem bind_ok (h : x s = (.ok a, s')) : (x >>= f) s = f a s' := by
  show Op.bind x f s = f a s'
  rw [bind, h]

theorem bind_error (h : x s = (.error e, s')) : (x >>= f) s = (.error e, s') := by
  show Op.bind x f s = (.error e, s')
  rw [bind, h]

theorem lift_ensure_of {p : Prop} [Decidable p] (h : p) (e : MemoryTopicError) (s : Memory) :
    lift (ensure p e) s = (.ok (), s) := by
  rw [ensure_of h]
  rfl

theorem lift_ensure_of_not {p : Prop} [Decidable p] (h : ¬p) (e : MemoryTopicError) (s : Memory) :
    lift (ensure p e) s = (.error (.topic e), s) := by
  rw [ensure, if_neg h]
  rfl

theorem of_bind_ok {b : β} (h : (x >>= f) s = (.ok b, s')) : ∃ a s₁, x s = (.ok a, s₁) ∧ f a s₁ = (.ok b, s') := by
  cases hrun : x s with
  | mk result s₁ =>
    cases result with
    | error e =>
      rw [bind_error hrun] at h
      cases congrArg Prod.fst h
    | ok a =>
      rw [bind_ok hrun] at h
      exact ⟨a, s₁, rfl, h⟩

theorem of_bind_lift {x : Except MemoryTopicError α} {b : β}
    (h : (lift x >>= f) s = (.ok b, s')) : ∃ a, x = .ok a ∧ f a s = (.ok b, s') := by
  obtain ⟨a, s₁, hlift, h⟩ := of_bind_ok h
  obtain ⟨hx, rfl⟩ := Prod.mk.inj hlift
  cases x with
  | error e => cases hx
  | ok a' =>
    obtain rfl := Except.ok.inj hx
    exact ⟨a', rfl, h⟩

end Op

section Files

def writeTopicFile (outcome : WriteOutcome MemoryFile) (path : TopicPath) (file : MemoryFile) : Op Unit := fun s =>
  match outcome with
  | .done => (.ok (), s.put path file)
  | .throws left => (.error (.file "write failed"), s.setAt path left)

def writeMain (outcome : WriteOutcome Text) (text : Text) : Op Unit := fun s =>
  match outcome with
  | .done => (.ok (), { s with main := some text })
  | .throws left => (.error (.file "write failed"), { s with main := left })

def deleteTopicFile (deletes : Bool) (path : TopicPath) : Op Unit := fun s =>
  match s.get path with
  | none => (.error (.file "File not found"), s)
  | some _ => if deletes then (.ok (), s.del path) else (.error (.file "delete failed"), s)

theorem writeTopicFile_done (s : Memory) (path : TopicPath) (file : MemoryFile) :
    writeTopicFile .done path file s = (.ok (), s.put path file) := rfl

theorem writeTopicFile_throws (s : Memory) (path : TopicPath) (file : MemoryFile)
    (left : Option MemoryFile) :
    writeTopicFile (.throws left) path file s = (.error (.file "write failed"), s.setAt path left) := rfl

theorem deleteTopicFile_done {s : Memory} {path : TopicPath} {file : MemoryFile}
    (h : s.get path = some file) : deleteTopicFile true path s = (.ok (), s.del path) := by
  unfold deleteTopicFile
  rw [h]
  rfl

theorem deleteTopicFile_throws {s : Memory} {path : TopicPath} {file : MemoryFile}
    (h : s.get path = some file) :
    deleteTopicFile false path s = (.error (.file "delete failed"), s) := by
  unfold deleteTopicFile
  rw [h]
  rfl

def readTopicFile (path : TopicPath) : Op MemoryFile := .read fun s =>
  match s.get path with
  | none => .error (.file "File not found")
  | some file => .ok file

end Files

section Topics

variable (rt : Runtime)

def dirText : MemoryTopicStatus → Text
  | .active => "memory/topics/".toList
  | .archived => "memory/topics/archive/".toList

def pathText (path : TopicPath) : Text :=
  dirText path.status ++ path.topicId ++ '-' :: (path.slug ++ ".md".toList)

def topics (s : Memory) : List MemoryTopicRecord :=
  (s.files.insertionSort fun a b => rt.localeLe (pathText a.1) (pathText b.1)).filterMap
    fun entry => (parseMemoryTopicFile rt entry.1 entry.2).toOption

def newestFirst (a b : MemoryTopicRecord) : Prop :=
  b.updatedAt < a.updatedAt ∨ b.updatedAt = a.updatedAt ∧ rt.localeLe a.title b.title = true

instance : DecidableRel (newestFirst rt) := fun _ _ => inferInstanceAs (Decidable (_ ∨ _ ∧ _))

def listMemoryTopics (s : Memory) (status : MemoryTopicStatus) : List MemoryTopicRecord :=
  ((topics rt s).filter (·.status = status)).insertionSort (newestFirst rt)

def readMemoryTopic (topicId : Text) : Op MemoryTopicRecord := .read fun s =>
  if isTopicId topicId = false then .error (.topic ⟨"INVALID_TOPIC_ID", "Invalid topic ID"⟩)
  else match (listMemoryTopics rt s .active).find? (·.topicId = topicId) with
  | none => .error (.topic ⟨"TOPIC_NOT_FOUND", "Active topic not found"⟩)
  | some topic => .ok topic

def readAgentSummary (s : Memory) : Text := (s.main.map extractAgentSummary).getD []

def rebuildMemoryMain (outcome : WriteOutcome Text) : Op Unit := do
  let rendered ← .read fun s =>
    (renderMemoryMain rt (readAgentSummary s) (listMemoryTopics rt s .active)).mapError .topic
  writeMain outcome rendered

structure MoveOutcome where
  now : Nat
  write : WriteOutcome MemoryFile
  deletes : Bool

def movedMetadata (topic : MemoryTopicRecord) (status : MemoryTopicStatus) (now : Nat) :
    MemoryTopicMetadata :=
  { topic.toMemoryTopicMetadata with status, updatedAt := now }

def moveTopic (outcome : MoveOutcome) (topic : MemoryTopicRecord) (status : MemoryTopicStatus) : Op TopicPath := do
  let metadata := movedMetadata topic status outcome.now
  let path := topicPath rt metadata
  let file ← .lift (renderMemoryTopicFile rt metadata topic.body)
  writeTopicFile outcome.write path file
  deleteTopicFile outcome.deletes topic.path
  return path

def parseAt (path : TopicPath) : Op MemoryTopicRecord := do
  let file ← readTopicFile path
  .lift (parseMemoryTopicFile rt path file)

structure ArchiveOutcome where
  move : MoveOutcome
  main : WriteOutcome Text

def archiveMemoryTopic (outcome : ArchiveOutcome) (topicId : Text) : Op MemoryTopicRecord := do
  let topic ← readMemoryTopic rt topicId
  let archivedPath ← moveTopic rt outcome.move topic .archived
  rebuildMemoryMain rt outcome.main
  parseAt rt archivedPath

def oldestTopic (excluded : List Text) (s : Memory) : Option MemoryTopicRecord :=
  (((listMemoryTopics rt s .active).filter (·.topicId ∉ excluded)).insertionSort
    (·.updatedAt ≤ ·.updatedAt)).head?

def archiveOldestTopic (outcome : MoveOutcome) (excluded : List Text) : Op (Option MemoryTopicRecord) := do
  match ← .read fun s => .ok (oldestTopic rt excluded s) with
  | none => return none
  | some oldest =>
    let archivedPath ← moveTopic rt outcome oldest .archived
    let archived ← parseAt rt archivedPath
    return some archived

def activeTopicBytes (topics : List MemoryTopicRecord) : Nat := (topics.map (·.size)).sum

def WithinLimits (topics : List MemoryTopicRecord) : Prop :=
  topics.length ≤ MEMORY_ACTIVE_TOPIC_LIMIT ∧ activeTopicBytes topics ≤ MEMORY_ACTIVE_TOPICS_BYTES_LIMIT ∧
    estimateMemoryTokens (catalogText rt topics) ≤ MEMORY_MAIN_CATALOG_HARD_TOKENS

instance (topics : List MemoryTopicRecord) : Decidable (WithinLimits rt topics) :=
  inferInstanceAs (Decidable (_ ∧ _ ∧ _))

/-- Archive the oldest topic as long as a limit is exceeded.  The last component are the topics
archived on the way; `fuel` counts the active ones. -/
def fitFrom (outcomes : Nat → MoveOutcome) (protectedIds : List Text) :
    Nat → Nat → List Text → Memory → Except MemoryError Unit × List Text × Memory
  | 0, _, archived, s => (.ok (), archived, s)
  | fuel + 1, n, archived, s =>
    if WithinLimits rt (listMemoryTopics rt s .active) then (.ok (), archived, s)
    else match archiveOldestTopic rt (outcomes n) protectedIds s with
    | (.error e, s) => (.error e, archived, s)
    | (.ok none, s) =>
      (.error (.topic ⟨"ACTIVE_TOPIC_LIMIT", "Active topic limits cannot be satisfied"⟩), archived, s)
    | (.ok (some topic), s) =>
      fitFrom outcomes protectedIds fuel (n + 1) (archived ++ [topic.topicId]) s

def ensureCatalogFits (outcomes : Nat → MoveOutcome) (protectedIds : List Text) (s : Memory) :
    Except MemoryError Unit × List Text × Memory :=
  fitFrom rt outcomes protectedIds ((listMemoryTopics rt s .active).length + 1) 0 [] s

/-- `ensureCatalogFits` where the archived ids are not asked for. -/
def fitCatalog (outcomes : Nat → MoveOutcome) (protectedIds : List Text) : Op Unit := fun s =>
  let (result, _, s') := ensureCatalogFits rt outcomes protectedIds s
  (result, s')

def readArchivedTopic (topicId : Text) : Op MemoryTopicRecord := .read fun s =>
  match (listMemoryTopics rt s .archived).find? (·.topicId = topicId) with
  | none => .error (.topic ⟨"TOPIC_NOT_FOUND", "Archived topic not found"⟩)
  | some topic => .ok topic

structure ReactivateOutcome where
  move : MoveOutcome
  fit : Nat → MoveOutcome
  main : WriteOutcome Text

def reactivateMemoryTopic (outcome : ReactivateOutcome) (topicId : Text) : Op MemoryTopicRecord := do
  let topic ← readArchivedTopic rt topicId
  let _ ← moveTopic rt outcome.move topic .active
  fitCatalog rt outcome.fit [topicId]
  rebuildMemoryMain rt outcome.main
  readMemoryTopic rt topicId

end Topics

section Facts

variable (rt : Runtime) {s : Memory} {r q : MemoryTopicRecord} {path : TopicPath} {file : MemoryFile}

def IsTopic (s : Memory) (r : MemoryTopicRecord) : Prop :=
  ∃ file, s.get r.path = some file ∧ parseMemoryTopicFile rt r.path file = .ok r

theorem path_of_parse (h : parseMemoryTopicFile rt path file = .ok r) : r.path = path := by
  rw [(readsAs h).eq]
  rfl

theorem IsTopic.readsAs (h : IsTopic rt s r) : ∃ file, s.get r.path = some file ∧ ReadsAs rt r.path file r := by
  obtain ⟨file, hget, hparse⟩ := h
  exact ⟨file, hget, MemoryTopics.readsAs hparse⟩

theorem IsTopic.topicId_path (h : IsTopic rt s r) : r.path.topicId = r.topicId := by
  obtain ⟨file, -, hreads⟩ := h.readsAs
  exact hreads.topicId.symm

theorem IsTopic.status_path (h : IsTopic rt s r) : r.path.status = r.status := by
  obtain ⟨file, -, hreads⟩ := h.readsAs
  exact hreads.status.symm

theorem mem_topics : r ∈ topics rt s ↔ IsTopic rt s r := by
  rw [topics, List.mem_filterMap]
  constructor
  · rintro ⟨⟨p, f⟩, hmem, hparse⟩
    rw [List.mem_insertionSort, ← Memory.get_eq_some] at hmem
    cases hp : parseMemoryTopicFile rt p f with
    | error e => rw [hp] at hparse; cases hparse
    | ok r' =>
      rw [hp] at hparse
      obtain rfl := Option.some_inj.mp hparse
      obtain rfl := path_of_parse rt hp
      exact ⟨f, hmem, hp⟩
  · rintro ⟨f, hget, hparse⟩
    refine ⟨(r.path, f), ?_, by rw [hparse]; rfl⟩
    rw [List.mem_insertionSort]
    exact Memory.get_eq_some.mp hget

theorem mem_listMemoryTopics {status : MemoryTopicStatus} :
    r ∈ listMemoryTopics rt s status ↔ IsTopic rt s r ∧ r.status = status := by
  rw [listMemoryTopics, List.mem_insertionSort, List.mem_filter, mem_topics, decide_eq_true_eq]

theorem map_filterMap_sublist {α β γ : Type} {f : α → Option β} {g : β → γ} {key : α → γ}
    (h : ∀ a b, f a = some b → g b = key a) (l : List α) :
    List.Sublist ((l.filterMap f).map g) (l.map key) := by
  induction l with
  | nil => exact .slnil
  | cons a l ih =>
    cases ha : f a with
    | none =>
      rw [List.filterMap_cons_none ha]
      exact ih.cons _
    | some b =>
      rw [List.filterMap_cons_some ha, List.map_cons, List.map_cons, h a b ha]
      exact ih.cons_cons _

theorem nodup_listMemoryTopics (s : Memory) (status : MemoryTopicStatus) : (listMemoryTopics rt s status).Nodup := by
  have hsorted := (List.perm_insertionSort
    (fun a b : TopicPath × MemoryFile => rt.localeLe (pathText a.1) (pathText b.1)) s.files).map
      Prod.fst
  have htopics : ((topics rt s).map (·.path)).Nodup := by
    refine (map_filterMap_sublist ?_ _).nodup (hsorted.nodup_iff.mpr s.nodup)
    intro entry r hr
    cases hp : parseMemoryTopicFile rt entry.1 entry.2 with
    | error e => rw [hp] at hr; cases hr
    | ok r' =>
      rw [hp] at hr
      obtain rfl := Option.some_inj.mp hr
      exact path_of_parse rt hp
  rw [listMemoryTopics, (List.perm_insertionSort _ _).nodup_iff]
  exact (List.Nodup.of_map _ htopics).filter _

theorem isTopic_put (h : parseMemoryTopicFile rt path file = .ok q) :
    IsTopic rt (s.put path file) r ↔ r = q ∨ (r.path ≠ path ∧ IsTopic rt s r) := by
  have hq := path_of_parse rt h
  by_cases hr : r.path = path
  · constructor
    · rintro ⟨f, hget, hparse⟩
      rw [hr, Memory.get_put_self] at hget
      obtain rfl := Option.some_inj.mp hget
      rw [hr, h] at hparse
      exact .inl (Except.ok.inj hparse).symm
    · rintro (rfl | ⟨hne, -⟩)
      · exact ⟨file, by rw [hr, Memory.get_put_self], by rw [hr, h]⟩
      · exact absurd hr hne
  · rw [IsTopic, Memory.get_put_of_ne hr]
    constructor
    · exact fun hs => .inr ⟨hr, hs⟩
    · rintro (rfl | ⟨-, hs⟩)
      · exact absurd hq hr
      · exact hs

theorem isTopic_del : IsTopic rt (s.del path) r ↔ r.path ≠ path ∧ IsTopic rt s r := by
  by_cases hr : r.path = path
  · constructor
    · rintro ⟨f, hget, -⟩
      rw [hr, Memory.get_del_self] at hget
      cases hget
    · exact fun h => absurd hr h.1
  · rw [IsTopic, Memory.get_del_of_ne hr]
    exact ⟨fun h => ⟨hr, h⟩, fun h => h.2⟩

theorem isTopic_setAt (left : Option MemoryFile) (h : r.path ≠ path) :
    IsTopic rt (s.setAt path left) r ↔ IsTopic rt s r := by
  rw [IsTopic, Memory.get_setAt_of_ne left h]
  rfl

variable {topicId : Text}

theorem find_listMemoryTopics {status : MemoryTopicStatus}
    (h : ∀ q, (IsTopic rt s q ∧ q.status = status) ∧ q.topicId = topicId ↔ q = r) :
    (listMemoryTopics rt s status).find? (·.topicId = topicId) = some r := by
  have hr := (h r).mpr rfl
  have hmem : r ∈ listMemoryTopics rt s status := (mem_listMemoryTopics rt).mpr hr.1
  cases hf : (listMemoryTopics rt s status).find? (·.topicId = topicId) with
  | none => exact absurd hr.2 (by simpa using List.find?_eq_none.mp hf r hmem)
  | some q =>
    have hq := (mem_listMemoryTopics rt).mp (List.mem_of_find?_eq_some hf)
    rw [(h q).mp ⟨hq, by simpa using List.find?_some hf⟩]

theorem readMemoryTopic_ok (hid : isTopicId topicId = true)
    (h : ∀ q, (IsTopic rt s q ∧ q.status = .active) ∧ q.topicId = topicId ↔ q = r) :
    readMemoryTopic rt topicId s = (.ok r, s) := by
  simp only [readMemoryTopic, Op.read, hid, find_listMemoryTopics rt h]
  rfl

theorem readArchivedTopic_ok
    (h : ∀ q, (IsTopic rt s q ∧ q.status = .archived) ∧ q.topicId = topicId ↔ q = r) :
    readArchivedTopic rt topicId s = (.ok r, s) := by
  simp only [readArchivedTopic, Op.read, find_listMemoryTopics rt h]

theorem of_readMemoryTopic {s' : Memory}
    (h : readMemoryTopic rt topicId s = (.ok r, s')) :
    s' = s ∧ IsTopic rt s r ∧ r.status = .active ∧ r.topicId = topicId := by
  have hs : s' = s := congrArg Prod.snd h.symm
  have hr : (readMemoryTopic rt topicId s).1 = .ok r := by rw [h]
  simp only [readMemoryTopic, Op.read] at hr
  split at hr
  next => cases hr
  next =>
    split at hr
    next => cases hr
    next topic hfind =>
      obtain rfl := Except.ok.inj hr
      obtain ⟨htopic, hactive⟩ := (mem_listMemoryTopics rt).mp (List.mem_of_find?_eq_some hfind)
      exact ⟨hs, htopic, hactive, by simpa using List.find?_some hfind⟩

def movedFile (topic : MemoryTopicRecord) (status : MemoryTopicStatus) (now : Nat) : MemoryFile :=
  topicFile rt (movedMetadata topic status now) topic.body

def movedRecord (topic : MemoryTopicRecord) (status : MemoryTopicStatus) (now : Nat) :
    MemoryTopicRecord :=
  topicRecord (movedMetadata topic status now) (topicPath rt (movedMetadata topic status now))
    topic.body (fileSize (movedFile rt topic status now))

variable {topic : MemoryTopicRecord} {status : MemoryTopicStatus}

theorem parse_movedFile (h : IsTopic rt s topic) (now : Nat) :
    parseMemoryTopicFile rt (movedRecord rt topic status now).path
      (movedFile rt topic status now) = .ok (movedRecord rt topic status now) := by
  obtain ⟨file, -, hreads⟩ := h.readsAs
  exact parse_topicFile (hreads.checked.withStatus status now)
    (isTopicPath_topicPath hreads.checked.isTopicId) rfl rfl hreads.body hreads.titled

theorem movedRecord_path_ne (h : IsTopic rt s topic) (hne : topic.status ≠ status) (now : Nat) :
    (movedRecord rt topic status now).path ≠ topic.path := by
  intro hpath
  have hstatus := congrArg TopicPath.status hpath
  rw [h.status_path] at hstatus
  exact hne hstatus.symm

section Move

variable (h : IsTopic rt s topic) {outcome : MoveOutcome}

include h in
theorem moveTopic_render : (Op.lift (renderMemoryTopicFile rt
    (movedMetadata topic status outcome.now) topic.body) : Op MemoryFile) s =
      (.ok (movedFile rt topic status outcome.now), s) := by
  obtain ⟨file, -, hreads⟩ := h.readsAs
  have htitled : titleLine (movedMetadata topic status outcome.now).title <+: trim topic.body := by
    rw [hreads.body]
    exact hreads.titled
  have hrender := render_checked (hreads.checked.withStatus status outcome.now) htitled
  rw [hreads.body] at hrender
  simp only [Op.lift, Op.read]
  rw [movedMetadata, hrender]
  rfl

include h in
theorem moveTopic_throws {left : Option MemoryFile} (hwrite : outcome.write = .throws left) :
    moveTopic rt outcome topic status s = (.error (.file "write failed"),
      s.setAt (movedRecord rt topic status outcome.now).path left) := by
  unfold moveTopic
  rw [Op.bind_ok (moveTopic_render rt h)]
  rw [hwrite]
  exact Op.bind_error (writeTopicFile_throws _ _ _ _)

include h in
theorem get_put_movedRecord (hne : topic.status ≠ status) (now : Nat) (file : MemoryFile) :
    ∃ old, (s.put (movedRecord rt topic status now).path file).get topic.path = some old := by
  obtain ⟨old, hget, -⟩ := h.readsAs
  exact ⟨old, by rw [Memory.get_put_of_ne (movedRecord_path_ne rt h hne now).symm, hget]⟩

include h in
theorem moveTopic_written (hwrite : outcome.write = .done) : moveTopic rt outcome topic status s =
      (do deleteTopicFile outcome.deletes topic.path
          return (movedRecord rt topic status outcome.now).path : Op TopicPath)
        (s.put (movedRecord rt topic status outcome.now).path
          (movedFile rt topic status outcome.now)) := by
  unfold moveTopic
  rw [Op.bind_ok (moveTopic_render rt h), hwrite]
  exact Op.bind_ok (writeTopicFile_done _ _ _)

include h in
theorem moveTopic_kept (hne : topic.status ≠ status) (hwrite : outcome.write = .done)
    (hdel : outcome.deletes = false) :
    moveTopic rt outcome topic status s = (.error (.file "delete failed"),
      s.put (movedRecord rt topic status outcome.now).path
        (movedFile rt topic status outcome.now)) := by
  obtain ⟨old, hold⟩ := get_put_movedRecord rt h hne outcome.now
    (movedFile rt topic status outcome.now)
  rw [moveTopic_written rt h hwrite, hdel]
  exact Op.bind_error (deleteTopicFile_throws hold)

include h in
theorem moveTopic_done (hne : topic.status ≠ status) (hwrite : outcome.write = .done)
    (hdel : outcome.deletes = true) :
    moveTopic rt outcome topic status s = (.ok (movedRecord rt topic status outcome.now).path,
      (s.put (movedRecord rt topic status outcome.now).path
        (movedFile rt topic status outcome.now)).del topic.path) := by
  obtain ⟨old, hold⟩ := get_put_movedRecord rt h hne outcome.now
    (movedFile rt topic status outcome.now)
  rw [moveTopic_written rt h hwrite, hdel]
  exact Op.bind_ok (deleteTopicFile_done hold)

end Move

theorem isTopic_put_of_ne (h : r.path ≠ path) :
    IsTopic rt (s.put path file) r ↔ IsTopic rt s r := isTopic_setAt rt (some file) h

theorem isTopic_move (h : IsTopic rt s topic) (hne : topic.status ≠ status) (now : Nat)
    (honly : ∀ q, IsTopic rt s q → q.topicId = topic.topicId →
      q = topic ∨ q.path = (movedRecord rt topic status now).path) :
    IsTopic rt ((s.put (movedRecord rt topic status now).path
      (movedFile rt topic status now)).del topic.path) r ↔
      r = movedRecord rt topic status now ∨ IsTopic rt s r ∧ r.topicId ≠ topic.topicId := by
  rw [isTopic_del, isTopic_put rt (parse_movedFile rt h now)]
  constructor
  · rintro ⟨hpath, hr | ⟨hnew, hr⟩⟩
    · exact .inl hr
    · refine .inr ⟨hr, fun hid => ?_⟩
      obtain rfl | hold := honly r hr hid
      · exact hpath rfl
      · exact hnew hold
  · rintro (rfl | ⟨hr, hid⟩)
    · exact ⟨movedRecord_path_ne rt h hne now, .inl rfl⟩
    · refine ⟨fun hpath => hid ?_, .inr ⟨fun hpath => hid ?_, hr⟩⟩
      · rw [← hr.topicId_path, hpath, h.topicId_path]
      · rw [← hr.topicId_path, hpath]
        rfl

theorem IsTopic.isTopicId (h : IsTopic rt s r) : isTopicId r.topicId = true := by
  obtain ⟨file, -, hreads⟩ := h.readsAs
  exact hreads.checked.isTopicId

theorem parseAt_ok (h : IsTopic rt s r) : parseAt rt r.path s = (.ok r, s) := by
  obtain ⟨file, hget, hparse⟩ := h
  have hread : readTopicFile r.path s = (.ok file, s) := by
    simp only [readTopicFile, Op.read, hget]
  refine (Op.bind_ok hread).trans ?_
  rw [hparse]
  rfl

section Rebuild

theorem isTopic_setMain {main : Option Text} : IsTopic rt { s with main } r ↔ IsTopic rt s r := .rfl

theorem isTopic_rebuild (outcome : WriteOutcome Text) :
    IsTopic rt (rebuildMemoryMain rt outcome s).2 r ↔ IsTopic rt s r := by
  cases hrender : renderMemoryMain rt (readAgentSummary s) (listMemoryTopics rt s .active) with
  | error e =>
    have hread : rebuildMemoryMain rt outcome s = (.error (.topic e), s) :=
      Op.bind_error (by simp only [Op.read, hrender]; rfl)
    rw [hread]
  | ok main =>
    have hread : rebuildMemoryMain rt outcome s = writeMain outcome main s :=
      Op.bind_ok (by simp only [Op.read, hrender]; rfl)
    rw [hread]
    cases outcome with
    | done | throws left => exact isTopic_setMain rt

theorem rebuild_done (h : Renders rt (readAgentSummary s) (listMemoryTopics rt s .active)) :
    ∃ main, renderMemoryMain rt (readAgentSummary s) (listMemoryTopics rt s .active) = .ok main ∧
      rebuildMemoryMain rt .done s = (.ok (), { s with main := some main }) := by
  obtain ⟨main, hrender⟩ := h
  refine ⟨main, hrender, ?_⟩
  have hread : rebuildMemoryMain rt .done s = writeMain .done main s :=
    Op.bind_ok (by simp only [Op.read, hrender]; rfl)
  rw [hread]
  rfl

theorem of_rebuild {outcome : WriteOutcome Text} {s' : Memory}
    (h : rebuildMemoryMain rt outcome s = (.ok (), s')) :
    outcome = .done ∧ Renders rt (readAgentSummary s) (listMemoryTopics rt s .active) := by
  cases hrender : renderMemoryMain rt (readAgentSummary s) (listMemoryTopics rt s .active) with
  | error e =>
    have hread : rebuildMemoryMain rt outcome s = (.error (.topic e), s) :=
      Op.bind_error (by simp only [Op.read, hrender]; rfl)
    rw [hread] at h
    cases congrArg Prod.fst h
  | ok main =>
    have hread : rebuildMemoryMain rt outcome s = writeMain outcome main s :=
      Op.bind_ok (by simp only [Op.read, hrender]; rfl)
    rw [hread] at h
    cases outcome with
    | done => exact ⟨rfl, main, hrender⟩
    | throws left => cases congrArg Prod.fst h

end Rebuild

end Facts

end A2Wave.MemoryTopics
