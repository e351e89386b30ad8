import A2Wave.Memory.Merge

/-! Which topics an operation can make active. -/

namespace A2Wave.MemoryTopics

open JsText

section Frame

variable (rt : Runtime)

def Absent (topicId : Text) (s : Memory) : Prop :=
  ∀ r, r.status = .active → r.topicId = topicId → ¬IsTopic rt s r

def Op.Leaves {α : Type} (topicId : Text) (x : Op α) : Prop :=
  ∀ s r, r.status = .active → r.topicId = topicId → IsTopic rt (x s).2 r → IsTopic rt s r

variable {rt} {topicId : Text} {s : Memory}

variable {r : MemoryTopicRecord}

theorem of_isTopic_setAt {path : TopicPath} (hpath : path.status = .archived ∨ path.topicId ≠ topicId)
    (left : Option MemoryFile) (hr : r.status = .active)
    (hid : r.topicId = topicId) (h : IsTopic rt (s.setAt path left) r) : IsTopic rt s r := by
  by_cases hp : r.path = path
  · obtain harchived | hne := hpath
    · rw [← hp, h.status_path, hr] at harchived
      cases harchived
    · rw [← hp, h.topicId_path] at hne
      exact absurd hid hne
  · exact (isTopic_setAt rt left hp).mp h

namespace Op

variable {α β : Type}

theorem Leaves.read (f : Memory → Except MemoryError α) : Leaves rt topicId (.read f) :=
  fun _ _ _ _ h => h

theorem Leaves.bind {x : Op α} {f : α → Op β} (hx : Leaves rt topicId x)
    (hf : ∀ s a, (x s).1 = .ok a → Leaves rt topicId (f a)) : Leaves rt topicId (x >>= f) := by
  intro s r hr hid hs
  refine hx s r hr hid ?_
  cases hrun : x s with
  | mk result s' =>
    cases result with
    | error e =>
      rw [bind_error hrun] at hs
      exact hs
    | ok a =>
      rw [bind_ok hrun] at hs
      exact hf s a (by rw [hrun]) s' r hr hid hs

theorem Leaves.pure (a : α) : Leaves rt topicId (Pure.pure a : Op α) := fun _ _ _ _ h => h

theorem Leaves.absent {x : Op α} (h : Leaves rt topicId x) (hs : Absent rt topicId s) :
    Absent rt topicId (x s).2 := fun r hr hid hs' => hs r hr hid (h s r hr hid hs')

end Op

open Op (Leaves)

theorem leaves_write {path : TopicPath} (hpath : path.status = .archived ∨ path.topicId ≠ topicId)
    (outcome : WriteOutcome MemoryFile) (file : MemoryFile) :
    Leaves rt topicId (writeTopicFile outcome path file) := by
  intro s r hr hid hs
  cases outcome with
  | done => exact of_isTopic_setAt hpath (some file) hr hid hs
  | throws left => exact of_isTopic_setAt hpath left hr hid hs

theorem leaves_delete (deletes : Bool) (path : TopicPath) : Leaves rt topicId (deleteTopicFile deletes path) := by
  intro s r hr hid hs
  unfold deleteTopicFile at hs
  split at hs
  · exact hs
  · split at hs
    · exact ((isTopic_del rt).mp hs).2
    · exact hs

theorem leaves_move {topic : MemoryTopicRecord} {status : MemoryTopicStatus}
    (h : status = .archived ∨ topic.topicId ≠ topicId) (outcome : MoveOutcome) :
    Leaves rt topicId (moveTopic rt outcome topic status) := by
  refine .bind (.read _) fun _ _ _ => .bind (leaves_write h _ _) fun _ _ _ => ?_
  exact .bind (leaves_delete _ _) fun _ _ _ => .pure _

theorem leaves_rebuild (outcome : WriteOutcome Text) : Leaves rt topicId (rebuildMemoryMain rt outcome) :=
  fun _ _ _ _ hs => (isTopic_rebuild rt outcome).mp hs

theorem leaves_parseAt (path : TopicPath) : Leaves rt topicId (parseAt rt path) :=
  .bind (.read _) fun _ _ _ => .read _

theorem leaves_archive (outcome : ArchiveOutcome) (id : Text) :
    Leaves rt topicId (archiveMemoryTopic rt outcome id) := by
  refine .bind (.read _) fun _ _ _ => .bind (leaves_move (.inl rfl) _) fun _ _ _ => ?_
  exact .bind (leaves_rebuild _) fun _ _ _ => leaves_parseAt _

theorem leaves_archiveOldest (outcome : MoveOutcome) (excluded : List Text) :
    Leaves rt topicId (archiveOldestTopic rt outcome excluded) := by
  refine .bind (.read _) fun _ oldest _ => ?_
  cases oldest with
  | none => exact .pure _
  | some oldest =>
    exact .bind (leaves_move (.inl rfl) _) fun _ _ _ =>
      .bind (leaves_parseAt _) fun _ _ _ => .pure _

theorem leaves_fitFrom (outcomes : Nat → MoveOutcome) (protectedIds : List Text) (fuel n : Nat)
    (archived : List Text) {s : Memory} (hr : r.status = .active)
    (hid : r.topicId = topicId)
    (hs : IsTopic rt (fitFrom rt outcomes protectedIds fuel n archived s).2.2 r) :
    IsTopic rt s r := by
  induction fuel generalizing n archived s with
  | zero => exact hs
  | succ fuel ih =>
    rw [fitFrom] at hs
    split at hs
    · exact hs
    · have hstep := @leaves_archiveOldest rt topicId (outcomes n) protectedIds s r hr hid
      cases hrun : archiveOldestTopic rt (outcomes n) protectedIds s with
      | mk result s' =>
        rw [hrun] at hs hstep
        cases result with
        | error e => exact hstep hs
        | ok oldest =>
          cases oldest with
          | none => exact hstep hs
          | some topic => exact hstep (ih _ _ hs)

theorem leaves_ensureCatalogFits (outcomes : Nat → MoveOutcome) (protectedIds : List Text)
    {s : Memory} (hr : r.status = .active) (hid : r.topicId = topicId)
    (hs : IsTopic rt (ensureCatalogFits rt outcomes protectedIds s).2.2 r) : IsTopic rt s r :=
  leaves_fitFrom outcomes protectedIds _ 0 [] hr hid hs

theorem leaves_fitCatalog (outcomes : Nat → MoveOutcome) (protectedIds : List Text) :
    Leaves rt topicId (fitCatalog rt outcomes protectedIds) :=
  fun _ _ hr hid hs => leaves_ensureCatalogFits outcomes protectedIds hr hid hs

theorem leaves_reactivate {id : Text} (h : id ≠ topicId) (outcome : ReactivateOutcome) :
    Leaves rt topicId (reactivateMemoryTopic rt outcome id) := by
  refine .bind (.read _) fun s topic htopic => ?_
  have hid : topic.topicId = id := by
    simp only [readArchivedTopic, Op.read] at htopic
    split at htopic
    next => cases htopic
    next found hfind =>
      obtain rfl := Except.ok.inj htopic
      simpa using List.find?_some hfind
  refine .bind (leaves_move (.inr (by rw [hid]; exact h)) _) fun _ _ _ => ?_
  refine .bind (leaves_fitCatalog _ _) fun _ _ _ => ?_
  exact .bind (leaves_rebuild _) fun _ _ _ => .read _

theorem leaves_reactivateAll (outcomes : Text → ReactivateOutcome) (ids : List Text)
    (h : topicId ∉ ids) : Leaves rt topicId (reactivateAll rt outcomes ids) := by
  induction ids with
  | nil => exact .pure _
  | cons id ids ih =>
    rw [List.mem_cons, not_or] at h
    exact .bind (leaves_reactivate (Ne.symm h.1) _) fun _ _ _ => ih h.2

theorem leaves_compensate (out : MergeOutcome) {path : TopicPath} (hpath : path.topicId ≠ topicId)
    (before : MemoryFile) {archived : List Text} (h : topicId ∉ archived) :
    Leaves rt topicId (compensate rt out path before archived) :=
  .bind (leaves_reactivateAll out.reactivate archived h) fun _ _ _ =>
    .bind (leaves_write (.inr hpath) _ _) fun _ _ _ => leaves_rebuild _

end Frame

section Reads

variable {rt : Runtime}

theorem of_readTopics {ids : List Text} {topics : List MemoryTopicRecord} {s s' : Memory}
    (h : readTopics rt ids s = (.ok topics, s')) :
    s' = s ∧ topics.map (·.topicId) = ids ∧ ∀ q ∈ topics, IsTopic rt s q ∧ q.status = .active := by
  induction ids generalizing topics s s' with
  | nil =>
    obtain ⟨htopics, hs⟩ := Prod.mk.inj h
    obtain rfl := Except.ok.inj htopics
    exact ⟨hs.symm, rfl, fun q hq => nomatch hq⟩
  | cons id ids ih =>
    obtain ⟨q, s₁, hq, h⟩ := Op.of_bind_ok h
    obtain ⟨qs, s₂, hqs, h⟩ := Op.of_bind_ok h
    obtain ⟨htopics, hs⟩ := Prod.mk.inj h
    obtain rfl := Except.ok.inj htopics
    obtain ⟨rfl, htopic, hactive, hid⟩ := of_readMemoryTopic rt hq
    obtain ⟨rfl, hids, hall⟩ := ih hqs
    refine ⟨hs.symm, by rw [List.map_cons, hid, hids], ?_⟩
    intro p hp
    obtain rfl | hp := List.mem_cons.mp hp
    · exact ⟨htopic, hactive⟩
    · exact hall p hp

variable (rt) in
theorem readTopics_snd (ids : List Text) (s : Memory) : (readTopics rt ids s).2 = s := by
  induction ids with
  | nil => rfl
  | cons id ids ih =>
    cases hid : readMemoryTopic rt id s with
    | mk result s₁ =>
      have hs₁ : s₁ = s := congrArg Prod.snd hid.symm
      rw [hs₁] at hid
      cases result with
      | error e => rw [readTopics, Op.bind_error hid]
      | ok q =>
        rw [readTopics, Op.bind_ok hid]
        cases hids : readTopics rt ids s with
        | mk result s₂ =>
          rw [hids] at ih
          have hs₂ : s₂ = s := ih
          rw [hs₂] at hids
          cases result with
          | error e => rw [Op.bind_error hids]
          | ok qs => rw [Op.bind_ok hids]; rfl

end Reads

end A2Wave.MemoryTopics
