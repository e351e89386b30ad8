import Mathlib.Data.List.Perm.Subperm
import Mathlib.Data.List.Dedup
import A2Wave.Git.Convergence
import A2Wave.Lib.Transition

/-! The bound on the fingerprints of one watch entry, over runs of ticks as `processListings` of
`lib/git-trigger-manager.ts` makes them.  The ceiling is applied to entries that could not be
proved closed; a closure that is waiting to be dispatched keeps its entry whatever the size. -/

namespace A2Wave.GitTrigger

open Transition

structure Tick where
  listing : List ObservedRequest
  complete : Bool
  events : List GitTriggerEvent
  targetBranches : List String
  ignoreDrafts : Bool
  available : Int
  polledAt : String
  refused : List GitTriggerFiredEvent
  deriving DecidableEq

def Tick.params (t : Tick) : DiffParams where
  observed := t.listing.filter fun r => matchesFilters r t.targetBranches t.ignoreDrafts
  events := t.events
  polledAt := t.polledAt
  maxRunsPerTick := some t.available
  observedUnfiltered := some t.listing
  listingComplete := some t.complete

def process (localeCompare : String → String → Ordering) (state : Option GitTriggerRepoState)
    (t : Tick) : Option (Option GitTriggerRepoState) :=
  let result := diffRepoState localeCompare state t.params
  if t.listing.length ≤ gitTriggerMaxPages * 100 ∧ ∀ e ∈ t.refused, e ∈ result.fired then
    some (some (rollbackUnhandled result.nextState state t.refused))
  else none

section Held

variable (p : DiffParams) (previous : GitTriggerRepoState) (refused : List GitTriggerFiredEvent)

def storedListed : List String := previous.requests.keys.filter p.stillOpen

def storedAbsent : List String := previous.requests.keys.filter fun key => !p.stillOpen key

def pending : List GitTriggerFiredEvent := p.observed.filterMap (observedCandidate p previous)

def slots : Nat :=
  sliceIndex ((storedAbsent p previous).length + (pending p previous).length) p.cap

def postponed : List GitTriggerFiredEvent :=
  (pending p previous).drop (slots p previous - (storedAbsent p previous).length)

def takenUp : List String :=
  (p.observed.map ObservedRequest.key).dedup.filter fun key =>
    (previous.requests.get? key).isNone && !(postponed p previous).any (·.key = key) && !refused.any (·.key = key)

def owed : List String :=
  (storedAbsent p previous).drop (slots p previous) ++
    ((storedAbsent p previous).take (slots p previous)).filter fun key => refused.any (·.key = key)

def held : Nat :=
  (storedListed p previous).length + (takenUp p previous refused).length + (owed p previous refused).length

end Held

def Fits (state : Option GitTriggerRepoState) (t : Tick) : Prop :=
  ∀ previous ∈ state, t.complete = true → .closed ∈ t.events → held t.params previous t.refused ≤ maxRetainedRequests

theorem size_eq_length_keys (r : Record GitTriggerRequestState) : r.size = r.keys.length := by
  rw [Record.keys, List.length_map, r.entries_perm.length_eq]
  rfl

section Order

variable {p : DiffParams} {previous : GitTriggerRepoState} {refused : List GitTriggerFiredEvent}
  {key : String}

theorem stillOpen_of_seen (hsub : ∀ r ∈ p.observed, r ∈ p.unfiltered) (h : p.seen key = true) :
    p.stillOpen key = true := by
  obtain ⟨r, hr, rfl⟩ := seen_iff.mp h
  exact stillOpen_of_mem hsub hr

def closures (p : DiffParams) (previous : GitTriggerRepoState) : List GitTriggerFiredEvent :=
  previous.requests.entries.filterMap (closedCandidate p)

variable {e : GitTriggerFiredEvent}

theorem closures_event (h : e ∈ closures p previous) : e.event = .closed := by
  obtain ⟨entry, -, hentry⟩ := List.mem_filterMap.mp h
  unfold closedCandidate at hentry
  split at hentry
  · cases hentry
  · cases hentry
    rfl

theorem pending_event (h : e ∈ pending p previous) : e.event ≠ .closed := by
  obtain ⟨r, -, hr⟩ := List.mem_filterMap.mp h
  exact (observedCandidate_request hr).2

theorem ordered_eq (hinfer : p.canInferClosed = true) :
    ordered p previous = closures p previous ++ pending p previous := by
  have hcandidates : candidates p previous = pending p previous ++ closures p previous := by
    rw [candidates, if_pos hinfer]
    rfl
  have hpendingNot : (pending p previous).filter (·.event = .closed) = [] :=
    List.filter_eq_nil_iff.mpr fun e he => by simpa using pending_event he
  have hclosures : (closures p previous).filter (·.event = .closed) = closures p previous :=
    List.filter_eq_self.mpr fun e he => by simpa using closures_event he
  have hpending : (pending p previous).filter (·.event ≠ .closed) = pending p previous :=
    List.filter_eq_self.mpr fun e he => by simpa using pending_event he
  have hclosuresNot : (closures p previous).filter (·.event ≠ .closed) = [] :=
    List.filter_eq_nil_iff.mpr fun e he => by simpa using closures_event he
  rw [ordered, hcandidates, List.filter_append, List.filter_append, hpendingNot, hclosures, hpending,
    hclosuresNot, List.nil_append, List.append_nil]

theorem map_key_closures (hk : previous.KeyedByRequest) (hsub : ∀ r ∈ p.observed, r ∈ p.unfiltered) :
    (closures p previous).map GitTriggerFiredEvent.key = storedAbsent p previous := by
  have hentries : ∀ entry ∈ previous.requests.entries, entry.value.key = entry.key :=
    fun entry hentry => hk _ _ (Record.mem_entries.mp hentry)
  unfold closures storedAbsent Record.keys
  generalize previous.requests.entries = entries at hentries ⊢
  induction entries with
  | nil => rfl
  | cons entry entries ih =>
    have htail := ih fun e he => hentries e (List.mem_cons_of_mem entry he)
    rw [List.filterMap_cons, List.map_cons, List.filter_cons]
    cases hopen : p.stillOpen entry.key with
    | true =>
      have hnone : closedCandidate p entry = none := by
        rw [closedCandidate, hopen, Bool.or_true]
        rfl
      rw [hnone]
      exact htail
    | false =>
      have hseen : p.seen entry.key = false := by
        rw [Bool.eq_false_iff]
        intro hseen
        rw [stillOpen_of_seen hsub hseen] at hopen
        cases hopen
      have hsome : closedCandidate p entry = some { event := .closed, request := closedRequest entry.value } := by
        rw [closedCandidate, hopen, hseen]
        rfl
      have hkey : GitTriggerFiredEvent.key ⟨.closed, closedRequest entry.value, none⟩ = entry.key :=
        (closedRequest_key entry.value).trans (hentries entry List.mem_cons_self)
      rw [hsome]
      dsimp only
      rw [List.map_cons, htail, hkey]
      rfl

variable (hk : previous.KeyedByRequest) (hsub : ∀ r ∈ p.observed, r ∈ p.unfiltered)

include hk hsub in
theorem length_closures : (closures p previous).length = (storedAbsent p previous).length := by
  rw [← map_key_closures hk hsub, List.length_map]

include hk hsub in
theorem deferredEvents_eq (hinfer : p.canInferClosed = true) : deferredEvents p previous =
      (closures p previous).drop (slots p previous) ++ postponed p previous := by
  rw [deferredEvents, ordered_eq hinfer, List.drop_append, List.length_append, length_closures hk hsub]
  rfl

theorem pending_key (h : e ∈ pending p previous) : p.seen e.key = true := by
  obtain ⟨r, hr, he⟩ := List.mem_filterMap.mp h
  refine seen_iff.mpr ⟨r, hr, ?_⟩
  rw [GitTriggerFiredEvent.key, (observedCandidate_request he).1]

theorem mem_storedAbsent : key ∈ storedAbsent p previous ↔
      (previous.requests.get? key).isSome = true ∧ p.stillOpen key = false := by
  rw [storedAbsent, List.mem_filter, Record.mem_keys]
  simp

theorem mem_storedListed : key ∈ storedListed p previous ↔
      (previous.requests.get? key).isSome = true ∧ p.stillOpen key = true := by
  rw [storedListed, List.mem_filter, Record.mem_keys]

theorem nodup_storedAbsent : (storedAbsent p previous).Nodup := (Record.nodup_keys _).filter _

include hk hsub in
theorem any_deferred (hinfer : p.canInferClosed = true) : (deferredEvents p previous).any (·.key = key) = true ↔
      key ∈ (storedAbsent p previous).drop (slots p previous) ∨ (postponed p previous).any (·.key = key) = true := by
  rw [deferredEvents_eq hk hsub hinfer, List.any_append, Bool.or_eq_true, ← map_key_closures hk hsub,
    ← List.map_drop, List.any_eq_true, List.mem_map]
  simp only [decide_eq_true_eq]

end Order

section Next

variable {localeCompare : String → String → Ordering} {p : DiffParams} {previous : GitTriggerRepoState}
  {refused : List GitTriggerFiredEvent} {key : String}

theorem nextState_isSome_iff (hcomplete : p.complete = true) :
    ((diffRepoState localeCompare (some previous) p).nextState.requests.get? key).isSome = true ↔
      if p.seen key = true then
        (deferredEvents p previous).any (·.key = key) = true → (previous.requests.get? key).isSome = true
      else (previous.requests.get? key).isSome = true ∧ (p.stillOpen key = true ∨
        (deferredEvents p previous).any (·.key = key) = true) := by
  cases hobserved : p.observedByNumber key with
  | some r =>
    have hseen : p.seen key = true :=
      seen_iff.mpr ⟨r, observedByNumber_mem hobserved⟩
    rw [if_pos hseen]
    cases hdeferred : (deferredEvents p previous).any (·.key = key) with
    | false =>
      have hs : decision p previous key = .keep (fingerprint r) := by
        rw [decision, hobserved, hdeferred]
        rfl
      rw [nextState_keep hs]
      simp
    | true =>
      have hs : decision p previous key = (previous.requests.get? key).elim .drop .keep := by
        rw [decision, hobserved, hdeferred]
        rfl
      cases hprior : previous.requests.get? key with
      | none =>
        rw [nextState_drop (by rw [hs, hprior]; rfl)]
        simp
      | some prior =>
        rw [nextState_keep (by rw [hs, hprior]; rfl)]
        simp
  | none =>
    have hseen : ¬p.seen key = true := by
      intro h
      obtain ⟨r, hr, hkey⟩ := seen_iff.mp h
      exact observedByNumber_eq_none_iff.mp hobserved r hr hkey
    rw [if_neg hseen]
    cases hprior : previous.requests.get? key with
    | none =>
      have hs : decision p previous key = .drop := by
        rw [decision, hobserved, hprior, retainedFingerprint]
        simp only [Option.elim_none]
        repeat (first | rfl | split)
      rw [nextState_drop hs]
      simp
    | some prior =>
      cases hopen : p.stillOpen key with
      | true =>
        have hs : decision p previous key = .keep { prior with filtered := some true } := by
          rw [decision, hobserved, hprior, hopen]
          rfl
        rw [nextState_keep hs]
        simp
      | false =>
        cases hdeferred : (deferredEvents p previous).any (·.key = key) with
        | true =>
          have hs : decision p previous key = .keep prior := by
            rw [decision, hobserved, hprior, hopen, hcomplete, hdeferred]
            rfl
          rw [nextState_keep hs]
          simp
        | false =>
          have hs : decision p previous key = .drop := by
            rw [decision, hobserved, hprior, hopen, hcomplete, hdeferred]
            rfl
          rw [nextState_drop hs]
          simp

theorem stored_isSome_iff (hcomplete : p.complete = true) (hsub : ∀ r ∈ p.observed, r ∈ p.unfiltered) :
    (stored localeCompare p previous refused key).isSome = true ↔
      ((previous.requests.get? key).isSome = true ∧ p.stillOpen key = true) ∨
      ((previous.requests.get? key).isNone = true ∧ p.seen key = true ∧
        (deferredEvents p previous).any (·.key = key) = false ∧ refused.any (·.key = key) = false) ∨
      ((previous.requests.get? key).isSome = true ∧ p.stillOpen key = false ∧
        ((deferredEvents p previous).any (·.key = key) = true ∨ refused.any (·.key = key) = true)) := by
  have hseen : p.seen key = true → p.stillOpen key = true := stillOpen_of_seen hsub
  have href : (∃ e ∈ refused, e.key = key) ↔ refused.any (·.key = key) = true := by simp
  rw [stored, rollback_get?]
  by_cases hrefused : ∃ e ∈ refused, e.key = key
  · rw [if_pos hrefused, href.mp hrefused]
    cases (previous.requests.get? key) <;> cases p.stillOpen key <;> simp
  · have hnot : refused.any (·.key = key) = false := by
      rw [Bool.eq_false_iff]
      exact fun h => hrefused (href.mpr h)
    rw [if_neg hrefused, nextState_isSome_iff hcomplete, hnot]
    cases hs : p.seen key with
    | true =>
      rw [hseen hs]
      cases (previous.requests.get? key) <;> simp
    | false => cases (previous.requests.get? key) <;> cases p.stillOpen key <;> simp

end Next

section Size

variable {localeCompare : String → String → Ordering} {p : DiffParams} {previous : GitTriggerRepoState}
  {refused : List GitTriggerFiredEvent} {key : String}

def after (localeCompare : String → String → Ordering) (p : DiffParams) (previous : GitTriggerRepoState)
    (refused : List GitTriggerFiredEvent) : GitTriggerRepoState :=
  rollbackUnhandled (diffRepoState localeCompare (some previous) p).nextState (some previous) refused

theorem mem_keys_after : key ∈ (after localeCompare p previous refused).requests.keys ↔
    (stored localeCompare p previous refused key).isSome = true := Record.mem_keys

theorem mem_takenUp : key ∈ takenUp p previous refused ↔
    p.seen key = true ∧ (previous.requests.get? key).isNone = true ∧
      (postponed p previous).any (·.key = key) = false ∧ refused.any (·.key = key) = false := by
  rw [takenUp, List.mem_filter, List.mem_dedup, List.mem_map, seen_iff]
  simp [and_assoc]

theorem mem_owed : key ∈ owed p previous refused ↔
    key ∈ storedAbsent p previous ∧ (key ∈ (storedAbsent p previous).drop (slots p previous) ∨
      refused.any (·.key = key) = true) := by
  have hsplit : key ∈ storedAbsent p previous ↔ key ∈ (storedAbsent p previous).take (slots p previous) ∨
        key ∈ (storedAbsent p previous).drop (slots p previous) := by
    rw [← List.mem_append, List.take_append_drop]
  rw [owed, List.mem_append, List.mem_filter, hsplit]
  tauto

theorem nodup_owed : (owed p previous refused).Nodup := by
  have hnodup : ((storedAbsent p previous).take (slots p previous) ++
      (storedAbsent p previous).drop (slots p previous)).Nodup := by
    rw [List.take_append_drop]
    exact nodup_storedAbsent
  obtain ⟨htake, hdrop, hapart⟩ := List.nodup_append.mp hnodup
  rw [owed, List.nodup_append]
  refine ⟨hdrop, htake.filter _, ?_⟩
  intro a ha b hb
  exact Ne.symm (hapart b (List.mem_of_mem_filter hb) a ha)

theorem seen_of_postponed (h : (postponed p previous).any (·.key = key) = true) : p.seen key = true := by
  obtain ⟨e, he, hkey⟩ := List.any_eq_true.mp h
  rw [← of_decide_eq_true hkey]
  exact pending_key (List.mem_of_mem_drop he)

variable (hk : previous.KeyedByRequest) (hsub : ∀ r ∈ p.observed, r ∈ p.unfiltered)

include hk hsub in
theorem mem_keys_closing (hcomplete : p.complete = true) (hwanted : p.wanted .closed = true) :
    key ∈ (after localeCompare p previous refused).requests.keys ↔
      key ∈ storedListed p previous ++ takenUp p previous refused ++ owed p previous refused := by
  have hinfer : p.canInferClosed = true := by rw [DiffParams.canInferClosed, hwanted, hcomplete]; rfl
  have hdeferred : (deferredEvents p previous).any (·.key = key) = true ↔ _ :=
    any_deferred hk hsub hinfer
  have habsent : key ∈ storedAbsent p previous ↔ _ := mem_storedAbsent
  have hdrop : key ∈ (storedAbsent p previous).drop (slots p previous) → key ∈ storedAbsent p previous :=
    List.mem_of_mem_drop
  have hpostponed : (postponed p previous).any (·.key = key) = true → p.stillOpen key = true :=
    fun h => stillOpen_of_seen hsub (seen_of_postponed h)
  rw [mem_keys_after, stored_isSome_iff hcomplete hsub, List.mem_append, List.mem_append, mem_storedListed,
    mem_takenUp, mem_owed, habsent]
  cases hprior : previous.requests.get? key with
  | none =>
    have hnot : key ∉ (storedAbsent p previous).drop (slots p previous) := by
      intro h
      have hstored := (habsent.mp (hdrop h)).1
      rw [hprior] at hstored
      cases hstored
    have hsame : (deferredEvents p previous).any (·.key = key) = (postponed p previous).any (·.key = key) :=
      Bool.eq_iff_iff.mpr (hdeferred.trans (or_iff_right hnot))
    rw [hsame]
    simp
  | some prior =>
    cases hopen : p.stillOpen key with
    | true => simp
    | false =>
      have hnot : ¬(postponed p previous).any (·.key = key) = true := by
        intro h
        rw [hpostponed h] at hopen
        cases hopen
      rw [hdeferred.trans (or_iff_left hnot)]
      simp

include hk hsub in
theorem size_closing (hcomplete : p.complete = true) (hwanted : p.wanted .closed = true) :
    (after localeCompare p previous refused).requests.size = held p previous refused := by
  have hlisted : (storedListed p previous).Nodup := (Record.nodup_keys _).filter _
  have htaken : (takenUp p previous refused).Nodup := (List.nodup_dedup _).filter _
  have hnodup : (storedListed p previous ++ takenUp p previous refused ++ owed p previous refused).Nodup := by
    rw [List.nodup_append, List.nodup_append]
    refine ⟨⟨hlisted, htaken, ?_⟩, nodup_owed, ?_⟩
    · rintro a ha b hb rfl
      have hstored := (mem_storedListed.mp ha).1
      rw [Option.isNone_iff_eq_none.mp (mem_takenUp.mp hb).2.1] at hstored
      cases hstored
    · rintro a ha b hb rfl
      obtain ⟨hstored, hgone⟩ := mem_storedAbsent.mp (mem_owed.mp hb).1
      rcases List.mem_append.mp ha with ha | ha
      · rw [(mem_storedListed.mp ha).2] at hgone
        cases hgone
      · rw [Option.isNone_iff_eq_none.mp (mem_takenUp.mp ha).2.1] at hstored
        cases hstored
  have hperm : (after localeCompare p previous refused).requests.keys.Perm
      (storedListed p previous ++ takenUp p previous refused ++ owed p previous refused) :=
    (List.perm_ext_iff_of_nodup (Record.nodup_keys _) hnodup).mpr
      fun _ => mem_keys_closing hk hsub hcomplete hwanted
  rw [size_eq_length_keys, hperm.length_eq, List.length_append, List.length_append]
  rfl

theorem seen_of_candidate {e : GitTriggerFiredEvent} (hinfer : p.canInferClosed = false)
    (h : e ∈ candidates p previous) : p.seen e.key = true := by
  rcases mem_candidates.mp h with ⟨r, hr, hcand⟩ | ⟨hinfer', -⟩
  · exact pending_key (List.mem_filterMap.mpr ⟨r, hr, hcand⟩)
  · rw [hinfer] at hinfer'
    cases hinfer'

theorem size_le_of_stillOpen {r : Record GitTriggerRequestState}
    (h : ∀ key ∈ r.keys, p.stillOpen key = true) : r.size ≤ p.unfiltered.length := by
  have hsub : r.keys ⊆ p.unfiltered.map ObservedRequest.key := by
    intro key hkey
    obtain ⟨q, hq, hqkey⟩ := List.any_eq_true.mp (h key hkey)
    exact List.mem_map.mpr ⟨q, hq, of_decide_eq_true hqkey⟩
  rw [size_eq_length_keys, ← List.length_map (f := ObservedRequest.key)]
  exact ((Record.nodup_keys r).subperm hsub).length_le

variable (hrefused : ∀ e ∈ refused, e ∈ firedEvents p previous)

include hsub hrefused in
theorem size_complete (hcomplete : p.complete = true) (hwanted : p.wanted .closed = false) :
    (after localeCompare p previous refused).requests.size ≤ p.unfiltered.length := by
  have hinfer : p.canInferClosed = false := by rw [DiffParams.canInferClosed, hwanted]; rfl
  refine size_le_of_stillOpen fun key hkey => ?_
  rcases (stored_isSome_iff hcomplete hsub).mp (mem_keys_after.mp hkey) with
    ⟨-, hopen⟩ | ⟨-, hseen, -⟩ | ⟨-, -, hevent⟩
  · exact hopen
  · exact stillOpen_of_seen hsub hseen
  · have hcandidate : ∃ e ∈ candidates p previous, e.key = key := by
      rcases hevent with hevent | hevent
      · obtain ⟨e, he, hkey⟩ := List.any_eq_true.mp hevent
        exact ⟨e, mem_fired_or_deferred.mpr (.inr he), of_decide_eq_true hkey⟩
      · obtain ⟨e, he, hkey⟩ := List.any_eq_true.mp hevent
        exact ⟨e, mem_fired_or_deferred.mpr (.inl (hrefused e he)), of_decide_eq_true hkey⟩
    obtain ⟨e, he, rfl⟩ := hcandidate
    exact stillOpen_of_seen hsub (seen_of_candidate hinfer he)

include hsub in
theorem stillOpen_of_keep {s : GitTriggerRequestState} (hcomplete : p.complete = false)
    (h : decision p previous key = .keep s) : p.stillOpen key = true := by
  cases hobserved : p.observedByNumber key with
  | some r => exact stillOpen_of_seen hsub (seen_iff.mpr ⟨r, observedByNumber_mem hobserved⟩)
  | none =>
    by_contra hopen
    rw [decision, hobserved, hcomplete, retainedFingerprint] at h
    simp only [hopen] at h
    cases hprior : previous.requests.get? key <;> rw [hprior] at h <;> cases h

include hsub in
theorem size_kept (hcomplete : p.complete = false) :
    (Record.assign .empty (keptRequests p previous)).size ≤ p.unfiltered.length := by
  refine size_le_of_stillOpen fun key hkey => ?_
  obtain ⟨s, hs⟩ := Option.isSome_iff_exists.mp (Record.mem_keys.mp hkey)
  rcases Record.mem_assign (Record.get?_eq_some_iff.mp hs) with hmem | hmem
  · exact absurd hmem List.not_mem_nil
  · exact stillOpen_of_keep hsub hcomplete (mem_keptRequests.mp hmem)

theorem size_next (hcomplete : p.complete = false) (hsub : ∀ r ∈ p.observed, r ∈ p.unfiltered)
    (hlisting : p.unfiltered.length ≤ maxRetainedRequests) :
    (diffRepoState localeCompare (some previous) p).nextState.requests.size ≤ maxRetainedRequests := by
  have hnew : ∀ e ∈ retainedUnprovable localeCompare p previous,
      (Record.assign .empty (keptRequests p previous)).get? e.key = none := by
    intro e he
    have hdec := mem_unprovableRequests.mp (mem_retainedUnprovable he)
    rw [Record.get?_assign_of_not_mem _ (Record.not_mem_map_key _), Record.get?_empty]
    intro t ht
    rw [mem_keptRequests.mp ht] at hdec
    cases hdec
  have hkept : (Record.assign .empty (keptRequests p previous)).size ≤ p.unfiltered.length :=
    size_kept hsub hcomplete
  have hbudget : (retainedUnprovable localeCompare p previous).length ≤
      maxRetainedRequests - Record.size (.assign .empty (keptRequests p previous)) := by
    rw [retainedUnprovable, List.length_take]
    exact Nat.min_le_left _ _
  rw [diffRepoState, Record.size_assign _ nodup_retainedUnprovable hnew]
  omega

include hsub hrefused in
theorem size_incomplete (hcomplete : p.complete = false) (hlisting : p.unfiltered.length ≤ maxRetainedRequests) :
    (after localeCompare p previous refused).requests.size ≤ maxRetainedRequests := by
  have hinfer : p.canInferClosed = false := by rw [DiffParams.canInferClosed, hcomplete, Bool.and_false]
  have hkeys : (after localeCompare p previous refused).requests.keys ⊆
      (diffRepoState localeCompare (some previous) p).nextState.requests.keys := by
    intro key hkey
    rw [mem_keys_after, stored, rollback_get?] at hkey
    split at hkey
    · rename_i hmem
      obtain ⟨e, he, rfl⟩ := hmem
      have hseen := seen_of_candidate hinfer (mem_fired_or_deferred.mpr (.inl (hrefused e he)))
      obtain ⟨r, hr⟩ : ∃ r, p.observedByNumber e.key = some r := by
        cases hobserved : p.observedByNumber e.key with
        | some r => exact ⟨r, rfl⟩
        | none =>
          obtain ⟨r, hr, hrkey⟩ := seen_iff.mp hseen
          exact absurd hrkey (observedByNumber_eq_none_iff.mp hobserved r hr)
      obtain ⟨prior, hprior⟩ := Option.isSome_iff_exists.mp hkey
      have hkeep : ∃ s, decision p previous e.key = .keep s := by
        rw [decision, hr, hprior, retainedFingerprint]
        split
        · exact ⟨_, rfl⟩
        · exact ⟨_, rfl⟩
      obtain ⟨s, hs⟩ := hkeep
      rw [Record.mem_keys, nextState_keep hs]
      rfl
    · exact Record.mem_keys.mpr hkey
  rw [size_eq_length_keys]
  refine le_trans ((Record.nodup_keys _).subperm hkeys).length_le ?_
  rw [← size_eq_length_keys]
  exact size_next hcomplete hsub hlisting

end Size

section Keyed

variable {localeCompare : String → String → Ordering} {p : DiffParams} {previous : GitTriggerRepoState}
  {refused : List GitTriggerFiredEvent} {key : String} {s : GitTriggerRequestState}

theorem elim_keep_key {prior : Option GitTriggerRequestState} (hp : ∀ q ∈ prior, q.key = key)
    (h : prior.elim Retained.drop .keep = .keep s ∨ prior.elim Retained.drop .keep = .unprovable s) :
    s.key = key := by
  cases prior with
  | none => rcases h with h | h <;> cases h
  | some q =>
    rcases h with h | h
    · cases h
      exact hp s rfl
    · cases h

theorem decision_key (hk : previous.KeyedByRequest)
    (h : decision p previous key = .keep s ∨ decision p previous key = .unprovable s) : s.key = key := by
  have hprior : ∀ q ∈ previous.requests.get? key, q.key = key := hk key
  unfold decision at h
  generalize previous.requests.get? key = prior at h hprior
  cases hobserved : p.observedByNumber key with
  | some r =>
    rw [hobserved] at h
    dsimp only [retainedFingerprint] at h
    split at h
    · exact elim_keep_key hprior h
    · rcases h with h | h
      · cases h
        rw [fingerprint_key, (observedByNumber_mem hobserved).2]
      · cases h
  | none =>
    rw [hobserved] at h
    dsimp only [retainedFingerprint] at h
    split at h
    · cases prior with
      | none => rcases h with h | h <;> cases h
      | some q =>
        rcases h with h | h
        · cases h
          exact hprior q rfl
        · cases h
    · split at h
      · cases prior with
        | none => rcases h with h | h <;> cases h
        | some q =>
          rcases h with h | h
          · cases h
          · cases h
            exact hprior s rfl
      · split at h
        · exact elim_keep_key hprior h
        · rcases h with h | h <;> cases h

theorem keyed_after (hk : previous.KeyedByRequest) : (after localeCompare p previous refused).KeyedByRequest := by
  intro key entry hentry
  change stored localeCompare p previous refused key = some entry at hentry
  rcases stored_cases localeCompare p previous refused key with hprior | ⟨-, hnext⟩
  · exact hk key entry (hprior.symm.trans hentry)
  rw [hnext] at hentry
  cases hdecision : decision p previous key with
  | keep s =>
    rw [nextState_keep hdecision] at hentry
    obtain rfl := Option.some.inj hentry
    exact decision_key hk (.inl hdecision)
  | unprovable s =>
    rw [nextState_unprovable hdecision] at hentry
    split at hentry
    · obtain rfl := Option.some.inj hentry
      exact decision_key hk (.inr hdecision)
    · cases hentry
  | drop =>
    rw [nextState_drop hdecision] at hentry
    cases hentry

theorem keyed_buildState (requests : List ObservedRequest) (polledAt : String) :
    (buildState requests polledAt).KeyedByRequest := by
  intro key entry hentry
  rcases Record.mem_assign (Record.get?_eq_some_iff.mp hentry) with hmem | hmem
  · exact absurd hmem List.not_mem_nil
  · obtain ⟨r, -, hr⟩ := List.mem_map.mp hmem
    cases hr
    exact fingerprint_key r

theorem keys_buildState_subset (requests : List ObservedRequest) (polledAt : String) :
    (buildState requests polledAt).requests.keys ⊆ requests.map ObservedRequest.key := by
  intro key hkey
  obtain ⟨s, hs⟩ := Option.isSome_iff_exists.mp (Record.mem_keys.mp hkey)
  rcases Record.mem_assign (Record.get?_eq_some_iff.mp hs) with hmem | hmem
  · exact absurd hmem List.not_mem_nil
  · obtain ⟨r, hr, heq⟩ := List.mem_map.mp hmem
    cases heq
    exact List.mem_map_of_mem hr

theorem size_buildState (requests : List ObservedRequest) (polledAt : String) :
    (buildState requests polledAt).requests.size ≤ requests.length := by
  rw [size_eq_length_keys, ← List.length_map (f := ObservedRequest.key)]
  exact ((Record.nodup_keys _).subperm (keys_buildState_subset requests polledAt)).length_le

end Keyed

section Runs

variable {localeCompare : String → String → Ordering} {t : Tick}

theorem observed_subset (t : Tick) : ∀ r ∈ t.params.observed, r ∈ t.params.unfiltered :=
  fun _ hr => List.mem_of_mem_filter hr

def Bounded (state : Option GitTriggerRepoState) : Prop :=
  ∀ s ∈ state, s.KeyedByRequest ∧ s.requests.size ≤ maxRetainedRequests

theorem process_none {next : Option GitTriggerRepoState} (h : process localeCompare none t = some next) :
    t.listing.length ≤ gitTriggerMaxPages * 100 ∧
      next = some (buildState t.params.observed t.polledAt) := by
  unfold process at h
  dsimp only at h
  split at h
  · rename_i hok
    have hnil : t.refused = [] :=
      List.eq_nil_iff_forall_not_mem.mpr fun e he => absurd (hok.2 e he) List.not_mem_nil
    cases h
    rw [hnil]
    exact ⟨hok.1, rfl⟩
  · cases h

theorem process_some {previous : GitTriggerRepoState} {next : Option GitTriggerRepoState}
    (h : process localeCompare (some previous) t = some next) :
    t.listing.length ≤ gitTriggerMaxPages * 100 ∧ (∀ e ∈ t.refused, e ∈ firedEvents t.params previous) ∧
      next = some (after localeCompare t.params previous t.refused) := by
  unfold process at h
  dsimp only at h
  split at h
  · rename_i hok
    cases h
    exact ⟨hok.1, hok.2, rfl⟩
  · cases h

theorem bounded_process {state next : Option GitTriggerRepoState} (hfits : Fits state t)
    (hbounded : Bounded state) (h : process localeCompare state t = some next) : Bounded next := by
  have hpages : gitTriggerMaxPages * 100 ≤ maxRetainedRequests := by decide
  have hsub := observed_subset t
  intro s hs
  cases state with
  | none =>
    obtain ⟨hlisting, rfl⟩ := process_none h
    obtain rfl := Option.some.inj hs
    refine ⟨keyed_buildState _ _, le_trans (size_buildState _ _) ?_⟩
    exact le_trans (List.length_filter_le _ _) (le_trans hlisting hpages)
  | some previous =>
    obtain ⟨hlisting, hrefused, rfl⟩ := process_some h
    obtain rfl := Option.some.inj hs
    obtain ⟨hk, -⟩ := hbounded previous rfl
    have hunfiltered : t.params.unfiltered.length ≤ maxRetainedRequests := le_trans hlisting hpages
    refine ⟨keyed_after hk, ?_⟩
    cases hcomplete : t.complete with
    | false => exact size_incomplete hsub hrefused (congrArg (Option.getD · true) (congrArg some hcomplete)) hunfiltered
    | true =>
      have hcomplete' : t.params.complete = true := hcomplete
      cases hwanted : t.params.wanted .closed with
      | false => exact le_trans (size_complete hsub hrefused hcomplete' hwanted) hunfiltered
      | true =>
        rw [size_closing hk hsub hcomplete' hwanted]
        exact hfits previous rfl hcomplete (by simpa [DiffParams.wanted, Tick.params] using hwanted)

theorem retained_le_max {ticks : List Tick} {s : GitTriggerRepoState}
    (h : Runs (process localeCompare) Fits none ticks (some s)) :
    s.requests.size ≤ maxRetainedRequests := by
  have hbounded := h.invariant (I := Bounded)
    (fun _ _ _ hfits hI hstep => bounded_process hfits hI hstep) (fun _ h => by cases h)
  exact (hbounded s rfl).2

section Backlog

def openRequest (number : Nat) : ObservedRequest := { number, sha := "f00", comments := 0, title := "" }

def openRequests (first count : Nat) : List ObservedRequest :=
  (List.range' first count).map openRequest

def mergeTick (first count : Nat) : Tick where
  listing := openRequests first count
  complete := true
  events := [.closed]
  targetBranches := []
  ignoreDrafts := true
  available := 5
  polledAt := "2026-03-02T08:00:00.000Z"
  refused := []

theorem repr_inj {m n : Nat} (h : Nat.repr m = Nat.repr n) : m = n := by
  have hdigits : Nat.toDigits 10 m = Nat.toDigits 10 n := by
    rw [← Nat.toList_repr, ← Nat.toList_repr, h]
  have hm : Nat.ofDigitChars 10 (Nat.toDigits 10 m) 0 = m := Nat.ofDigitChars_toDigits (by decide) (by decide)
  have hn : Nat.ofDigitChars 10 (Nat.toDigits 10 n) 0 = n := Nat.ofDigitChars_toDigits (by decide) (by decide)
  rw [← hm, ← hn, hdigits]

theorem map_key_openRequests (first count : Nat) :
    (openRequests first count).map ObservedRequest.key = (List.range' first count).map Nat.repr := by
  rw [openRequests, List.map_map]
  rfl

theorem mem_keys_openRequests {first count : Nat} {key : String} :
    key ∈ (openRequests first count).map ObservedRequest.key ↔
      ∃ n, first ≤ n ∧ n < first + count ∧ Nat.repr n = key := by
  rw [map_key_openRequests, List.mem_map]
  simp only [List.mem_range'_1, and_assoc]

theorem nodup_keys_openRequests (first count : Nat) : ((openRequests first count).map ObservedRequest.key).Nodup := by
  rw [map_key_openRequests]
  exact List.Nodup.map (fun _ _ => repr_inj) (List.nodup_range' 1)

variable {first second a b : Nat}

theorem keys_apart (h : first + a ≤ second) {key : String}
    (hkey : key ∈ (openRequests first a).map ObservedRequest.key) :
    key ∉ (openRequests second b).map ObservedRequest.key := by
  obtain ⟨m, -, hm, rfl⟩ := mem_keys_openRequests.mp hkey
  rw [mem_keys_openRequests]
  rintro ⟨n, hn, -, heq⟩
  have := repr_inj heq
  omega

theorem observed_mergeTick (first count : Nat) :
    (mergeTick first count).params.observed = openRequests first count := by
  refine List.filter_eq_self.mpr fun r hr => ?_
  obtain ⟨n, -, rfl⟩ := List.mem_map.mp hr
  rfl

theorem size_buildState_of_nodup {requests : List ObservedRequest} (polledAt : String)
    (h : (requests.map ObservedRequest.key).Nodup) :
    (buildState requests polledAt).requests.size = requests.length := by
  have hmap : ((requests.map fun r => (⟨r.key, fingerprint r⟩ : Property GitTriggerRequestState)).map
      Property.key).Nodup := by
    rw [List.map_map]
    exact h
  rw [buildState, Record.size_assign _ hmap fun _ _ => Record.get?_empty _, List.length_map]
  exact Nat.zero_add _

/-- What the first listing of `count` requests seeds. -/
def seeded (first count : Nat) : GitTriggerRepoState :=
  buildState (openRequests first count) (mergeTick first count).polledAt

section Second

variable {first second a b : Nat} (h : first + a ≤ second)

include h in
theorem absent_mergeTick {key : String} (hkey : key ∈ (seeded first a).requests.keys) :
    (mergeTick second b).params.stillOpen key = false := by
  have hapart := keys_apart (b := b) h (keys_buildState_subset _ _ hkey)
  rw [stillOpen_eq_false_iff]
  intro r hr heq
  exact hapart (List.mem_map.mpr ⟨r, hr, heq⟩)

include h in
theorem fresh_mergeTick {key : String} (hkey : key ∈ (openRequests second b).map ObservedRequest.key) :
    (seeded first a).requests.get? key = none := by
  rw [← Option.not_isSome_iff_eq_none]
  intro hsome
  exact keys_apart h (keys_buildState_subset _ _ (Record.mem_keys.mpr hsome)) hkey

include h in
theorem pending_mergeTick : pending (mergeTick second b).params (seeded first a) = [] := by
  rw [pending, observed_mergeTick, List.filterMap_eq_nil_iff]
  intro r hr
  rw [observedCandidate, fresh_mergeTick h (List.mem_map_of_mem hr)]
  rfl

include h in
theorem held_mergeTick : b + (a - 5) ≤ held (mergeTick second b).params (seeded first a) [] := by
  have hpending := pending_mergeTick (b := b) h
  have habsent : storedAbsent (mergeTick second b).params (seeded first a) = (seeded first a).requests.keys :=
    List.filter_eq_self.mpr fun key hkey => by rw [absent_mergeTick h hkey]; rfl
  have hsize : (seeded first a).requests.keys.length = a := by
    rw [← size_eq_length_keys, seeded, size_buildState_of_nodup _ (nodup_keys_openRequests first a),
      openRequests, List.length_map, List.length_range']
  have htaken : (takenUp (mergeTick second b).params (seeded first a) []).length = b := by
    have hall : takenUp (mergeTick second b).params (seeded first a) [] =
        (openRequests second b).map ObservedRequest.key := by
      rw [takenUp, observed_mergeTick, (nodup_keys_openRequests second b).dedup]
      refine List.filter_eq_self.mpr fun key hkey => ?_
      rw [fresh_mergeTick h hkey, postponed, hpending, List.drop_nil]
      rfl
    rw [hall, map_key_openRequests, List.length_map, List.length_range']
  have howed : a - 5 ≤ (owed (mergeTick second b).params (seeded first a) []).length := by
    have hslots : slots (mergeTick second b).params (seeded first a) ≤ 5 := by
      rw [slots, hpending]
      exact Nat.min_le_left _ _
    rw [owed, List.length_append, List.length_drop, habsent, hsize]
    omega
  rw [held, htaken]
  omega

end Second

variable {localeCompare : String → String → Ordering}

theorem process_mergeTick {first count : Nat}
    (hcount : count ≤ gitTriggerMaxPages * 100) (state : Option GitTriggerRepoState) :
    process localeCompare state (mergeTick first count) =
      some (some (diffRepoState localeCompare state (mergeTick first count).params).nextState) := by
  have hlength : (mergeTick first count).listing.length = count := by
    rw [mergeTick, openRequests, List.length_map, List.length_range']
  have hrefused : ∀ e ∈ (mergeTick first count).refused,
      e ∈ (diffRepoState localeCompare state (mergeTick first count).params).fired :=
    fun _ he => absurd he List.not_mem_nil
  unfold process
  dsimp only
  rw [if_pos ⟨by rw [hlength]; exact hcount, hrefused⟩]
  rfl

theorem process_mergeTick_none {first count : Nat}
    (hcount : count ≤ gitTriggerMaxPages * 100) :
    process localeCompare none (mergeTick first count) = some (some (seeded first count)) := by
  rw [process_mergeTick hcount, diffRepoState, observed_mergeTick]
  rfl

theorem run_mergeTicks
    (ha : a ≤ gitTriggerMaxPages * 100) (hb : b ≤ gitTriggerMaxPages * 100) :
    run (process localeCompare) none [mergeTick first a, mergeTick second b] =
      some (some (after localeCompare (mergeTick second b).params (seeded first a) [])) := by
  rw [run, process_mergeTick_none ha, Option.bind_some, run, process_mergeTick hb]
  rfl

theorem size_mergeTick
    (h : first + a ≤ second) :
    b + (a - 5) ≤ (after localeCompare (mergeTick second b).params (seeded first a) []).requests.size := by
  have hk : (seeded first a).KeyedByRequest := keyed_buildState _ _
  rw [size_closing hk (observed_subset _) rfl rfl]
  exact held_mergeTick h

theorem retained_exceeds :
    ¬∀ (localeCompare : String → String → Ordering) (ticks : List Tick) (s : GitTriggerRepoState),
      run (process localeCompare) none ticks = some (some s) → s.requests.size ≤ maxRetainedRequests := by
  intro h
  have hcount : 500 ≤ gitTriggerMaxPages * 100 := by decide
  have hsize : 500 + (500 - 5) ≤ (after (fun _ _ => .eq) (mergeTick 501 500).params (seeded 1 500) []).requests.size :=
    size_mergeTick (by decide)
  have hrun : run (process fun _ _ => .eq) none [mergeTick 1 500, mergeTick 501 500] = _ :=
    run_mergeTicks hcount hcount
  have hmax := le_trans hsize (h _ _ _ hrun)
  exact absurd hmax (by decide)

theorem retained_le_max_sample : ∃ s, Runs (process fun _ _ => .eq) Fits none [mergeTick 1 1, mergeTick 2 1] (some s) ∧
      s.requests.size ≤ maxRetainedRequests := by
  have hfits : Fits (some (seeded 1 1)) (mergeTick 2 1) := by
    intro previous hprevious _ _
    obtain rfl := Option.some.inj hprevious
    decide +kernel
  have hruns : Runs (process fun _ _ => .eq) Fits none [mergeTick 1 1, mergeTick 2 1]
      (some (diffRepoState (fun _ _ => .eq) (some (seeded 1 1)) (mergeTick 2 1).params).nextState) :=
    .cons (fun _ h => by cases h) (process_mergeTick_none (by decide))
      (.cons hfits (process_mergeTick (by decide) _) .nil)
  exact ⟨_, hruns, retained_le_max hruns⟩

end Backlog

end Runs

end A2Wave.GitTrigger
