import A2Wave.Git.TriggerDiff

/-! The rule that `retainedFingerprint` serves: a stored fingerprint moves past a change that
the configuration asked for only if the tick handled it. -/

namespace A2Wave.GitTrigger

def GitTriggerRepoState.KeyedByRequest (s : GitTriggerRepoState) : Prop :=
  ∀ key entry, s.requests.get? key = some entry → entry.key = key

theorem keyedByRequest_iff {s : GitTriggerRepoState} :
    s.KeyedByRequest ↔ ∀ p ∈ s.requests.rows, p.value.key = p.key := by
  constructor
  · intro h p hp
    exact h p.key p.value (Record.get?_eq_some_iff.mpr hp)
  · intro h key entry hentry
    exact h ⟨key, entry⟩ (Record.get?_eq_some_iff.mp hentry)

inductive SubscribedTransition (p : DiffParams) (previous : GitTriggerRepoState) (key : String) : Prop
  | appears {r} : r ∈ p.observed → r.key = key → previous.requests.get? key = none →
      p.wanted .opened = true → SubscribedTransition p previous key
  | returns {r prior} : r ∈ p.observed → r.key = key →
      previous.requests.get? key = some prior → prior.filtered = some true →
      p.wanted .opened = true → SubscribedTransition p previous key
  | moves {r prior} : r ∈ p.observed → r.key = key → previous.requests.get? key = some prior → prior.sha ≠ r.sha →
      p.wanted .updated = true → SubscribedTransition p previous key
  | comments {r prior} : r ∈ p.observed → r.key = key →
      previous.requests.get? key = some prior → prior.comments < r.comments →
      p.wanted .commented = true → SubscribedTransition p previous key
  | disappears {prior} : previous.requests.get? key = some prior → p.complete = true →
      p.stillOpen key = false → p.wanted .closed = true → SubscribedTransition p previous key

section Keys

variable {p : DiffParams} {previous : GitTriggerRepoState} {key : String}

theorem mem_foldl_add {observed : List ObservedRequest} {keys : List String} :
    key ∈ observed.foldl (fun keys r => if r.key ∈ keys then keys else keys ++ [r.key]) keys ↔
      key ∈ keys ∨ ∃ r ∈ observed, r.key = key := by
  induction observed generalizing keys with
  | nil => simp
  | cons r observed ih =>
    rw [List.foldl_cons, ih]
    split
    · rename_i hr
      constructor
      · rintro (h | ⟨q, hq, hk⟩)
        · exact .inl h
        · exact .inr ⟨q, List.mem_cons_of_mem r hq, hk⟩
      · rintro (h | ⟨q, hq, rfl⟩)
        · exact .inl h
        · rcases List.mem_cons.mp hq with rfl | hq
          · exact .inl hr
          · exact .inr ⟨q, hq, rfl⟩
    · simp only [List.mem_append, List.mem_cons, List.not_mem_nil, or_false, exists_eq_or_imp]
      constructor
      · rintro ((h | rfl) | h)
        · exact .inl h
        · exact .inr (.inl rfl)
        · exact .inr (.inr h)
      · rintro (h | rfl | h)
        · exact .inl (.inl h)
        · exact .inl (.inr rfl)
        · exact .inr h

theorem nodup_foldl_add {observed : List ObservedRequest} {keys : List String} (h : keys.Nodup) :
    (observed.foldl (fun keys r => if r.key ∈ keys then keys else keys ++ [r.key]) keys).Nodup := by
  induction observed generalizing keys with
  | nil => exact h
  | cons r observed ih =>
    rw [List.foldl_cons]
    apply ih
    split
    · exact h
    · rename_i hr
      rw [List.nodup_append]
      refine ⟨h, by simp, ?_⟩
      intro a ha b hb hab
      rw [List.mem_singleton] at hb
      exact hr (hb ▸ hab ▸ ha)

theorem mem_allKnownKeys : key ∈ allKnownKeys p.observed previous ↔
    (previous.requests.get? key).isSome ∨ ∃ r ∈ p.observed, r.key = key := by
  rw [allKnownKeys, mem_foldl_add, Record.mem_keys]

theorem nodup_allKnownKeys : (allKnownKeys p.observed previous).Nodup :=
  nodup_foldl_add (Record.nodup_keys _)

theorem observedByNumber_eq_none_iff : p.observedByNumber key = none ↔ ∀ r ∈ p.observed, r.key ≠ key := by
  simp [DiffParams.observedByNumber, List.find?_eq_none]

variable {r : ObservedRequest}

theorem observedByNumber_mem (h : p.observedByNumber key = some r) : r ∈ p.observed ∧ r.key = key := by
  have hmem := List.mem_of_find?_eq_some h
  have hkey := List.find?_some h
  exact ⟨List.mem_reverse.mp hmem, by simpa using hkey⟩

theorem observedByNumber_of_mem (hd : (p.observed.map ObservedRequest.key).Nodup)
    (hr : r ∈ p.observed) : p.observedByNumber r.key = some r := by
  cases h : p.observedByNumber r.key with
  | none => exact absurd rfl (observedByNumber_eq_none_iff.mp h r hr)
  | some q =>
    obtain ⟨hq, hkey⟩ := observedByNumber_mem h
    rw [List.inj_on_of_nodup_map hd hq hr hkey]

theorem seen_iff : p.seen key = true ↔ ∃ r ∈ p.observed, r.key = key := by
  simp [DiffParams.seen]

theorem stillOpen_of_mem (hsub : ∀ r ∈ p.observed, r ∈ p.unfiltered)
    (hr : r ∈ p.observed) : p.stillOpen r.key = true := by
  simp only [DiffParams.stillOpen, List.any_eq_true, decide_eq_true_eq]
  exact ⟨r, hsub r hr, rfl⟩

theorem stillOpen_eq_false_iff : p.stillOpen key = false ↔ ∀ r ∈ p.unfiltered, r.key ≠ key := by
  simp [DiffParams.stillOpen]

end Keys

section Next

variable {localeCompare : String → String → Ordering} {p : DiffParams}
  {previous : GitTriggerRepoState} {key : String} {s : GitTriggerRequestState}

variable {e : Property GitTriggerRequestState}

theorem kept_key {d : Retained} (h : d.kept key = some e) : e.key = key := by
  cases d with
  | keep s => cases h; rfl
  | unprovable s => cases h
  | drop => cases h

theorem candidate_key {d : Retained}
    (h : d.candidate key = some e) : e.key = key := by
  cases d with
  | keep s => cases h
  | unprovable s => cases h; rfl
  | drop => cases h

theorem decision_unknown (h : key ∉ allKnownKeys p.observed previous) : decision p previous key = .drop := by
  rw [mem_allKnownKeys, not_or] at h
  have hprior : previous.requests.get? key = none := by simpa using h.1
  have hobs : p.observedByNumber key = none := by
    rw [observedByNumber_eq_none_iff]
    intro r hr hk
    exact h.2 ⟨r, hr, hk⟩
  simp only [decision, hprior, hobs, retainedFingerprint, Option.elim_none]
  repeat (first | rfl | split)

theorem mem_keptRequests : (⟨key, s⟩ : Property GitTriggerRequestState) ∈ keptRequests p previous ↔
    decision p previous key = .keep s := by
  rw [keptRequests, List.mem_filterMap]
  constructor
  · rintro ⟨k, -, hk⟩
    have hkey : key = k := kept_key hk
    subst hkey
    cases hd : decision p previous key with
    | keep s' => rw [hd] at hk; cases hk; rfl
    | unprovable s' | drop => rw [hd] at hk; cases hk
  · intro hd
    refine ⟨key, ?_, by rw [hd]; rfl⟩
    by_contra hunknown
    rw [decision_unknown hunknown] at hd
    cases hd

theorem mem_unprovableRequests : (⟨key, s⟩ : Property GitTriggerRequestState) ∈ unprovableRequests p previous ↔
      decision p previous key = .unprovable s := by
  rw [unprovableRequests, List.mem_filterMap]
  constructor
  · rintro ⟨k, -, hk⟩
    have hkey : key = k := candidate_key hk
    subst hkey
    cases hd : decision p previous key with
    | keep s' | drop => rw [hd] at hk; cases hk
    | unprovable s' => rw [hd] at hk; cases hk; rfl
  · intro hd
    refine ⟨key, ?_, by rw [hd]; rfl⟩
    by_contra hunknown
    rw [decision_unknown hunknown] at hd
    cases hd

theorem nodup_keptRequests : ((keptRequests p previous).map Property.key).Nodup := by
  apply nodup_map_filterMap (h := id)
  · intro k _ e he
    exact kept_key he
  · rw [List.map_id]
    exact nodup_allKnownKeys

theorem nodup_unprovableRequests : ((unprovableRequests p previous).map Property.key).Nodup := by
  apply nodup_map_filterMap (h := id)
  · intro k _ e he
    exact candidate_key he
  · rw [List.map_id]
    exact nodup_allKnownKeys

theorem mem_retainedUnprovable
    (h : e ∈ retainedUnprovable localeCompare p previous) : e ∈ unprovableRequests p previous :=
  (List.mem_insertionSort _).mp (List.mem_of_mem_take h)

theorem nodup_retainedUnprovable : ((retainedUnprovable localeCompare p previous).map Property.key).Nodup := by
  have hperm : ((unprovableRequests p previous).insertionSort _).Perm _ :=
    List.perm_insertionSort (fun a b : Property GitTriggerRequestState =>
      localeCompare (b.value.updatedAt.getD "") (a.value.updatedAt.getD "") ≠ .gt) _
  have hsort := ((hperm.map Property.key).nodup_iff).mpr nodup_unprovableRequests
  exact ((List.take_sublist _ _).map Property.key).nodup hsort

theorem nextState_keep (h : decision p previous key = .keep s) :
    (diffRepoState localeCompare (some previous) p).nextState.requests.get? key = some s := by
  have hkept := Record.get?_assign_of_mem .empty nodup_keptRequests (mem_keptRequests.mpr h)
  rw [diffRepoState, Record.get?_assign_of_not_mem _ (Record.not_mem_map_key _), hkept]
  intro t he
  rw [mem_unprovableRequests.mp (mem_retainedUnprovable he)] at h
  cases h

theorem nextState_not_kept (hkept : ∀ s, decision p previous key ≠ .keep s)
    (hretained : ∀ s, ⟨key, s⟩ ∉ retainedUnprovable localeCompare p previous) :
    (diffRepoState localeCompare (some previous) p).nextState.requests.get? key = none := by
  rw [diffRepoState, Record.get?_assign_of_not_mem _ (Record.not_mem_map_key hretained),
    Record.get?_assign_of_not_mem _ (Record.not_mem_map_key _), Record.get?_empty]
  intro s he
  exact hkept s (mem_keptRequests.mp he)

theorem nextState_drop (h : decision p previous key = .drop) :
    (diffRepoState localeCompare (some previous) p).nextState.requests.get? key = none := by
  apply nextState_not_kept
  · intro s hs
    rw [h] at hs
    cases hs
  · intro s he
    rw [mem_unprovableRequests.mp (mem_retainedUnprovable he)] at h
    cases h

theorem nextState_unprovable (h : decision p previous key = .unprovable s) :
    (diffRepoState localeCompare (some previous) p).nextState.requests.get? key =
      if ⟨key, s⟩ ∈ retainedUnprovable localeCompare p previous then some s else none := by
  split
  · rename_i hmem
    exact Record.get?_assign_of_mem _ nodup_retainedUnprovable hmem
  · rename_i hmem
    apply nextState_not_kept
    · intro t ht
      rw [h] at ht
      cases ht
    · intro t he
      have hdec := mem_unprovableRequests.mp (mem_retainedUnprovable he)
      rw [h] at hdec
      cases hdec
      exact hmem he

theorem maxRetained_le_of_given_up (h : decision p previous key = .unprovable s)
    (hmem : ⟨key, s⟩ ∉ retainedUnprovable localeCompare p previous) :
    maxRetainedRequests ≤ (diffRepoState localeCompare (some previous) p).nextState.requests.size := by
  have hnew : ∀ e ∈ retainedUnprovable localeCompare p previous,
      (Record.assign .empty (keptRequests p previous)).get? e.key = none := by
    intro e he
    have hmem : e ∈ unprovableRequests p previous := mem_retainedUnprovable he
    have hdec := mem_unprovableRequests.mp hmem
    rw [Record.get?_assign_of_not_mem _ (Record.not_mem_map_key _), Record.get?_empty]
    intro t ht
    rw [mem_keptRequests.mp ht] at hdec
    cases hdec
  rw [diffRepoState, Record.size_assign _ nodup_retainedUnprovable hnew]
  have hlen : maxRetainedRequests - Record.size (.assign .empty (keptRequests p previous)) ≤
      (retainedUnprovable localeCompare p previous).length := by
    by_contra hlt
    apply hmem
    rw [retainedUnprovable, List.length_take] at hlt
    rw [retainedUnprovable, List.take_of_length_le (by omega)]
    exact (List.mem_insertionSort _).mpr (mem_unprovableRequests.mpr h)
  omega

end Next

section Candidates

variable {p : DiffParams} {previous : GitTriggerRepoState} {key : String}
  {e : GitTriggerFiredEvent}

variable {r : ObservedRequest}

theorem observedCandidate_request
    (h : observedCandidate p previous r = some e) : e.request = r ∧ e.event ≠ .closed := by
  unfold observedCandidate at h
  split at h
  · split at h <;> cases h
    exact ⟨rfl, by simp⟩
  · split at h
    · cases h
      exact ⟨rfl, by simp⟩
    split at h
    · cases h
      exact ⟨rfl, by simp⟩
    split at h <;> cases h
    exact ⟨rfl, by simp⟩

theorem closedRequest_key (s : GitTriggerRequestState) : (closedRequest s).key = s.key := by
  simp only [closedRequest, ObservedRequest.key, GitTriggerRequestState.key, requestKey, present]
  cases s.project with
  | none => rfl
  | some project => by_cases h : project = "" <;> simp [h]

theorem mem_candidates : e ∈ candidates p previous ↔ (∃ r ∈ p.observed, observedCandidate p previous r = some e) ∨
    (p.canInferClosed = true ∧ ∃ key prior, previous.requests.get? key = some prior ∧
      p.seen key = false ∧ p.stillOpen key = false ∧
      e = { event := .closed, request := closedRequest prior }) := by
  rw [candidates, List.mem_append, List.mem_filterMap]
  apply or_congr Iff.rfl
  constructor
  · intro h
    split at h
    · rename_i hinfer
      obtain ⟨entry, hentry, hcand⟩ := List.mem_filterMap.mp h
      unfold closedCandidate at hcand
      split at hcand
      · cases hcand
      · rename_i hgone
        rw [Bool.or_eq_true, not_or] at hgone
        cases hcand
        exact ⟨hinfer, entry.key, entry.value, Record.mem_entries.mp hentry, by simpa using hgone.1,
          by simpa using hgone.2, rfl⟩
    · cases h
  · rintro ⟨hinfer, key, prior, hprior, hseen, hopen, rfl⟩
    rw [if_pos hinfer, List.mem_filterMap]
    refine ⟨⟨key, prior⟩, Record.mem_entries.mpr hprior, ?_⟩
    simp [closedCandidate, hseen, hopen]

theorem ordered_perm : (ordered p previous).Perm (candidates p previous) := by
  have hsplit := List.filter_append_perm (fun e : GitTriggerFiredEvent => decide (e.event = .closed))
    (candidates p previous)
  have hne : (fun e : GitTriggerFiredEvent => !decide (e.event = .closed)) =
      fun e => decide (e.event ≠ .closed) := by
    funext e
    simp
  rwa [hne] at hsplit

theorem fired_append_deferred : firedEvents p previous ++ deferredEvents p previous = ordered p previous :=
  List.take_append_drop _ _

theorem mem_fired_or_deferred :
    e ∈ candidates p previous ↔ e ∈ firedEvents p previous ∨ e ∈ deferredEvents p previous := by
  rw [← ordered_perm.mem_iff, ← fired_append_deferred, List.mem_append]

theorem closedCandidate_key (hk : previous.KeyedByRequest)
    {entry : Property GitTriggerRequestState} (hentry : entry ∈ previous.requests.entries)
    (h : closedCandidate p entry = some e) : e.key = entry.key ∧ p.seen entry.key = false := by
  unfold closedCandidate at h
  split at h
  · cases h
  · rename_i hgone
    rw [Bool.or_eq_true, not_or] at hgone
    cases h
    refine ⟨?_, by simpa using hgone.1⟩
    exact (closedRequest_key entry.value).trans (hk _ _ (Record.mem_entries.mp hentry))

theorem nodup_candidate_keys (hk : previous.KeyedByRequest)
    (hd : (p.observed.map ObservedRequest.key).Nodup) :
    ((candidates p previous).map GitTriggerFiredEvent.key).Nodup := by
  have hobserved : ((p.observed.filterMap (observedCandidate p previous)).map
      GitTriggerFiredEvent.key).Nodup := by
    refine nodup_map_filterMap ?_ hd
    intro r _ e he
    rw [GitTriggerFiredEvent.key, (observedCandidate_request he).1]
  rw [candidates, List.map_append, List.nodup_append]
  refine ⟨hobserved, ?_, ?_⟩
  · split
    · refine nodup_map_filterMap ?_ (Record.nodup_keys previous.requests)
      intro entry hentry e he
      exact (closedCandidate_key hk hentry he).1
    · simp
  · intro a ha b hb hab
    obtain ⟨e, he, rfl⟩ := List.mem_map.mp ha
    obtain ⟨r, hr, hcand⟩ := List.mem_filterMap.mp he
    split at hb
    · obtain ⟨e', he', rfl⟩ := List.mem_map.mp hb
      obtain ⟨entry, hentry, hclosed⟩ := List.mem_filterMap.mp he'
      obtain ⟨hkey, hseen⟩ := closedCandidate_key hk hentry hclosed
      -- a closed event is not about a request that was seen
      have hseen' : p.seen entry.key = true := by
        refine seen_iff.mpr ⟨r, hr, ?_⟩
        rw [← hkey, ← hab, GitTriggerFiredEvent.key, (observedCandidate_request hcand).1]
      rw [hseen] at hseen'
      cases hseen'
    · simp at hb

theorem nodup_ordered_keys (hk : previous.KeyedByRequest)
    (hd : (p.observed.map ObservedRequest.key).Nodup) :
    ((ordered p previous).map GitTriggerFiredEvent.key).Nodup :=
  ((ordered_perm.map GitTriggerFiredEvent.key).nodup_iff).mpr (nodup_candidate_keys hk hd)

theorem observedCandidate_eq_none_iff {prior : GitTriggerRequestState}
    (hprior : previous.requests.get? r.key = some prior) :
    observedCandidate p previous r = none ↔ ¬(prior.filtered = some true ∧ p.wanted .opened = true) ∧
      ¬(prior.sha ≠ r.sha ∧ p.wanted .updated = true) ∧
      ¬(prior.comments < r.comments ∧ p.wanted .commented = true) := by
  simp only [observedCandidate, hprior]
  split
  · rename_i hreturn
    simp [hreturn]
  · rename_i hreturn
    split
    · rename_i hmove
      simp [hmove]
    · rename_i hmove
      split
      · rename_i hcomment
        simp [hcomment]
      · rename_i hcomment
        exact ⟨fun _ => ⟨hreturn, hmove, hcomment⟩, fun _ => rfl⟩

theorem candidate_of_observed (hr : r ∈ p.observed)
    (h : observedCandidate p previous r ≠ none) : ∃ e ∈ candidates p previous, e.key = r.key := by
  obtain ⟨e, he⟩ := Option.ne_none_iff_exists'.mp h
  refine ⟨e, mem_candidates.mpr (.inl ⟨r, hr, he⟩), ?_⟩
  rw [GitTriggerFiredEvent.key, (observedCandidate_request he).1]

theorem candidate_of_transition (hk : previous.KeyedByRequest)
    (hsub : ∀ r ∈ p.observed, r ∈ p.unfiltered) (h : SubscribedTransition p previous key) :
    ∃ e ∈ candidates p previous, e.key = key := by
  cases h with
  | appears hr hkey hprior hwanted =>
    subst hkey
    apply candidate_of_observed hr
    simp [observedCandidate, hprior, hwanted]
  | returns hr hkey hprior hfiltered hwanted =>
    subst hkey
    apply candidate_of_observed hr
    rw [Ne, observedCandidate_eq_none_iff hprior]
    exact fun hnone => hnone.1 ⟨hfiltered, hwanted⟩
  | moves hr hkey hprior hsha hwanted =>
    subst hkey
    apply candidate_of_observed hr
    rw [Ne, observedCandidate_eq_none_iff hprior]
    exact fun hnone => hnone.2.1 ⟨hsha, hwanted⟩
  | comments hr hkey hprior hlt hwanted =>
    subst hkey
    apply candidate_of_observed hr
    rw [Ne, observedCandidate_eq_none_iff hprior]
    exact fun hnone => hnone.2.2 ⟨hlt, hwanted⟩
  | disappears hprior hcomplete hopen hwanted =>
    have hseen : p.seen key = false := by
      rw [Bool.eq_false_iff, Ne, seen_iff]
      rintro ⟨r, hr, rfl⟩
      rw [stillOpen_of_mem hsub hr] at hopen
      cases hopen
    have hinfer : p.canInferClosed = true := by simp [DiffParams.canInferClosed, hwanted, hcomplete]
    refine ⟨_, mem_candidates.mpr (.inr ⟨hinfer, key, _, hprior, hseen, hopen, rfl⟩), ?_⟩
    exact (closedRequest_key _).trans (hk _ _ hprior)

end Candidates

section Rule

variable {localeCompare : String → String → Ordering} {p : DiffParams}
  {previous : GitTriggerRepoState} {key : String} {e : GitTriggerFiredEvent}

theorem candidate_cases (hk : previous.KeyedByRequest) (h : e ∈ candidates p previous) :
    (e.event ≠ .closed ∧ e.request ∈ p.observed) ∨
    (e.event = .closed ∧ (previous.requests.get? e.key).isSome ∧ p.complete = true ∧
      p.seen e.key = false ∧ p.stillOpen e.key = false) := by
  rcases mem_candidates.mp h with ⟨r, hr, hcand⟩ | ⟨hinfer, key, prior, hprior, hseen, hopen, rfl⟩
  · obtain ⟨hreq, hevent⟩ := observedCandidate_request hcand
    exact .inl ⟨hevent, hreq ▸ hr⟩
  · have hkey : GitTriggerFiredEvent.key ⟨.closed, closedRequest prior, none⟩ = key :=
      (closedRequest_key prior).trans (hk key prior hprior)
    refine .inr ⟨rfl, ?_, (Bool.and_eq_true_iff.mp hinfer).2, ?_, ?_⟩
    · rw [hkey, hprior]
      rfl
    · rwa [hkey]
    · rwa [hkey]

theorem observedByNumber_of_unseen (h : p.seen key = false) : p.observedByNumber key = none := by
  rw [observedByNumber_eq_none_iff]
  intro r hr hkey
  rw [seen_iff.mpr ⟨r, hr, hkey⟩] at h
  cases h

theorem nextState_deferred (hk : previous.KeyedByRequest)
    (hd : (p.observed.map ObservedRequest.key).Nodup) (h : e ∈ deferredEvents p previous) :
    (diffRepoState localeCompare (some previous) p).nextState.requests.get? e.key = previous.requests.get? e.key := by
  have hdeferred : (deferredEvents p previous).any (·.key = e.key) = true := by
    rw [List.any_eq_true]
    exact ⟨e, h, by simp⟩
  have hdecision : decision p previous e.key = (previous.requests.get? e.key).elim .drop .keep := by
    rcases candidate_cases hk (mem_fired_or_deferred.mpr (.inr h)) with
      ⟨-, hr⟩ | ⟨-, -, hcomplete, hseen, hopen⟩
    · have hobserved : p.observedByNumber e.key = some e.request := observedByNumber_of_mem hd hr
      rw [decision, hobserved, hdeferred]
      rfl
    · rw [decision, observedByNumber_of_unseen hseen, hdeferred, hopen, hcomplete]
      rfl
  cases hprior : previous.requests.get? e.key with
  | none => exact nextState_drop (by rw [hdecision, hprior]; rfl)
  | some prior => exact nextState_keep (by rw [hdecision, hprior]; rfl)

theorem rollback_get? (next : GitTriggerRepoState) (unhandled : List GitTriggerFiredEvent) :
    (rollbackUnhandled next (some previous) unhandled).requests.get? key =
      if ∃ e ∈ unhandled, e.key = key then previous.requests.get? key else next.requests.get? key := by
  unfold rollbackUnhandled
  generalize next.requests = requests
  induction unhandled generalizing requests with
  | nil => simp
  | cons item unhandled ih =>
    simp only [List.foldl_cons, ih, List.mem_cons, exists_eq_or_imp]
    by_cases hrest : ∃ e ∈ unhandled, e.key = key
    · simp [hrest]
    · simp only [hrest, if_false, or_false, Option.bind_some]
      by_cases hkey : item.key = key
      · subst hkey
        cases hprior : previous.requests.get? item.key <;> simp [Record.get?_set, Record.get?_delete]
      · cases hprior : previous.requests.get? item.key <;>
          simp [Record.get?_set, Record.get?_delete, hkey]

section Tick

-- the events of the tick that the dispatcher refused
variable (localeCompare p previous) (refused : List GitTriggerFiredEvent)

def stored (key : String) : Option GitTriggerRequestState :=
  (rollbackUnhandled (diffRepoState localeCompare (some previous) p).nextState (some previous)
    refused).requests.get? key

def Handled (key : String) : Prop :=
  ∃ e ∈ (diffRepoState localeCompare (some previous) p).fired, e ∉ refused ∧ e.key = key

end Tick

variable {refused : List GitTriggerFiredEvent}

theorem stored_refused (h : e ∈ refused) :
    stored localeCompare p previous refused e.key = previous.requests.get? e.key := by
  rw [stored, rollback_get?, if_pos ⟨e, h, rfl⟩]

theorem stored_cases (localeCompare : String → String → Ordering) (p : DiffParams)
    (previous : GitTriggerRepoState) (refused : List GitTriggerFiredEvent) (key : String) :
    stored localeCompare p previous refused key = previous.requests.get? key ∨
    ((∀ e ∈ refused, e.key ≠ key) ∧ stored localeCompare p previous refused key =
      (diffRepoState localeCompare (some previous) p).nextState.requests.get? key) := by
  rw [stored, rollback_get?]
  split
  · exact .inl rfl
  · rename_i hnone
    exact .inr ⟨fun e he hkey => hnone ⟨e, he, hkey⟩, rfl⟩

theorem stored_deferred (hk : previous.KeyedByRequest)
    (hd : (p.observed.map ObservedRequest.key).Nodup) (h : e ∈ deferredEvents p previous) :
    stored localeCompare p previous refused e.key = previous.requests.get? e.key := by
  obtain hprior | ⟨-, hnext⟩ := stored_cases localeCompare p previous refused e.key
  · exact hprior
  · rw [hnext, nextState_deferred hk hd h]

theorem handled_of_candidate (hk : previous.KeyedByRequest)
    (hd : (p.observed.map ObservedRequest.key).Nodup) (h : e ∈ candidates p previous)
    (hmoved : stored localeCompare p previous refused e.key ≠ previous.requests.get? e.key) :
    Handled localeCompare p previous refused e.key := by
  rcases mem_fired_or_deferred.mp h with hfired | hdeferred
  · refine ⟨e, hfired, ?_, rfl⟩
    intro hrefused
    exact hmoved (stored_refused hrefused)
  · exact absurd (stored_deferred hk hd hdeferred) hmoved

theorem stored_hidden (hk : previous.KeyedByRequest)
    (hrefused : ∀ e ∈ refused, e ∈ firedEvents p previous)
    (hunseen : ∀ r ∈ p.observed, r.key ≠ key) (hopen : p.stillOpen key = true) :
    stored localeCompare p previous refused key =
      (previous.requests.get? key).map fun prior => { prior with filtered := some true } := by
  have hnot : ¬∃ e ∈ refused, e.key = key := by
    rintro ⟨e, he, rfl⟩
    rcases candidate_cases hk (mem_fired_or_deferred.mpr (.inl (hrefused e he))) with
      ⟨-, hr⟩ | ⟨-, -, -, -, hclosed⟩
    · exact hunseen e.request hr rfl
    · rw [hopen] at hclosed
      cases hclosed
  rw [stored, rollback_get?, if_neg hnot]
  have hdecision : decision p previous key = (previous.requests.get? key).elim .drop
      fun prior => .keep { prior with filtered := some true } := by
    rw [decision, observedByNumber_eq_none_iff.mpr hunseen, hopen]
    rfl
  cases hprior : previous.requests.get? key with
  | none => exact nextState_drop (by rw [hdecision, hprior]; rfl)
  | some prior => exact nextState_keep (by rw [hdecision, hprior]; rfl)

theorem nextState_none {prior : GitTriggerRequestState} (hprior : previous.requests.get? key = some prior)
    (h : (diffRepoState localeCompare (some previous) p).nextState.requests.get? key = none) :
    p.stillOpen key = false ∧ (p.complete = false → maxRetainedRequests ≤
      (diffRepoState localeCompare (some previous) p).nextState.requests.size) := by
  cases hobserved : p.observedByNumber key with
  | some r =>
    exfalso
    have hkeep : ∃ s, decision p previous key = .keep s := by
      rw [decision, hobserved, hprior, retainedFingerprint]
      split
      · exact ⟨_, rfl⟩
      · exact ⟨_, rfl⟩
    obtain ⟨s, hs⟩ := hkeep
    rw [nextState_keep hs] at h
    cases h
  | none =>
    cases hopen : p.stillOpen key with
    | true =>
      exfalso
      have hs : decision p previous key = .keep { prior with filtered := some true } := by
        rw [decision, hobserved, hprior, hopen]
        rfl
      rw [nextState_keep hs] at h
      cases h
    | false =>
      refine ⟨rfl, fun hcomplete => ?_⟩
      have hs : decision p previous key = .unprovable prior := by
        rw [decision, hobserved, hprior, hopen, hcomplete]
        rfl
      rw [nextState_unprovable hs] at h
      split at h
      · cases h
      · rename_i hmem
        exact maxRetained_le_of_given_up hs hmem

/-- The one rule.  An entry that moves while a subscribed change is pending was handled; a
deferred or refused key keeps its entry; closure is only inferred from absence from a complete
listing; an entry behind a filter is only marked as filtered; and an entry is lost without an
event only if its closure was not subscribed to, or if it could not be proved and the state is
full. -/
theorem advances_only_if_handled (localeCompare : String → String → Ordering)
    (p : DiffParams) (previous : GitTriggerRepoState) (refused : List GitTriggerFiredEvent)
    (hk : previous.KeyedByRequest) (hd : (p.observed.map ObservedRequest.key).Nodup)
    (hsub : ∀ r ∈ p.observed, r ∈ p.unfiltered)
    (hrefused : ∀ e ∈ refused, e ∈ (diffRepoState localeCompare (some previous) p).fired) :
    (∀ key, SubscribedTransition p previous key →
      stored localeCompare p previous refused key ≠ previous.requests.get? key →
      Handled localeCompare p previous refused key) ∧
    (∀ e, e ∈ (diffRepoState localeCompare (some previous) p).deferred ∨ e ∈ refused →
      stored localeCompare p previous refused e.key = previous.requests.get? e.key) ∧
    (∀ e, e ∈ (diffRepoState localeCompare (some previous) p).fired ∨
        e ∈ (diffRepoState localeCompare (some previous) p).deferred → e.event = .closed →
      (previous.requests.get? e.key).isSome ∧ p.complete = true ∧ ∀ r ∈ p.unfiltered, r.key ≠ e.key) ∧
    (∀ key, (∀ r ∈ p.observed, r.key ≠ key) → (∃ r ∈ p.unfiltered, r.key = key) →
      stored localeCompare p previous refused key =
        (previous.requests.get? key).map fun prior => { prior with filtered := some true }) ∧
    (∀ key prior, previous.requests.get? key = some prior → stored localeCompare p previous refused key = none →
      ¬Handled localeCompare p previous refused key →
      (∀ r ∈ p.unfiltered, r.key ≠ key) ∧ ((p.complete = true ∧ p.wanted .closed = false) ∨
          (p.complete = false ∧ maxRetainedRequests ≤
            (diffRepoState localeCompare (some previous) p).nextState.requests.size))) := by
  refine ⟨?_, ?_, ?_, ?_, ?_⟩
  · intro key htransition hmoved
    obtain ⟨e, he, rfl⟩ := candidate_of_transition hk hsub htransition
    exact handled_of_candidate hk hd he hmoved
  · rintro e (he | he)
    · exact stored_deferred hk hd he
    · exact stored_refused he
  · intro e he hclosed
    rcases candidate_cases hk (mem_fired_or_deferred.mpr he) with
      ⟨hevent, -⟩ | ⟨-, hprior, hcomplete, -, hopen⟩
    · exact absurd hclosed hevent
    · exact ⟨hprior, hcomplete, stillOpen_eq_false_iff.mp hopen⟩
  · rintro key hunseen ⟨r, hr, hkey⟩
    refine stored_hidden hk hrefused hunseen ?_
    simp only [DiffParams.stillOpen, List.any_eq_true, decide_eq_true_eq]
    exact ⟨r, hr, hkey⟩
  · intro key prior hprior hnone hunhandled
    obtain hstored | ⟨-, hnext⟩ := stored_cases localeCompare p previous refused key
    · rw [hstored, hprior] at hnone
      cases hnone
    obtain ⟨hopen, hbudget⟩ := nextState_none hprior (hnext.symm.trans hnone)
    refine ⟨stillOpen_eq_false_iff.mp hopen, ?_⟩
    cases hcomplete : p.complete with
    | false => exact .inr ⟨rfl, hbudget hcomplete⟩
    | true =>
      refine .inl ⟨rfl, ?_⟩
      rw [Bool.eq_false_iff]
      intro hwanted
      -- a subscribed closure has an event, which was handled
      obtain ⟨e, he, rfl⟩ := candidate_of_transition hk hsub
        (.disappears hprior hcomplete hopen hwanted)
      refine hunhandled (handled_of_candidate hk hd he ?_)
      rw [hnone, hprior]
      simp

end Rule

def tracked : GitTriggerRepoState where
  requests := Record.assign .empty
    [⟨"7", { number := 7, sha := "a", comments := 1 }⟩, ⟨"8", { number := 8, sha := "b", comments := 0 }⟩]

def pushedAndMerged : DiffParams where
  observed := [{ number := 7, sha := "a2", comments := 1, title := "feature" },
    { number := 9, sha := "c", comments := 0, title := "fix" }]
  events := [.opened, .updated, .commented, .closed]
  polledAt := "2025-01-01T00:00:00Z"
  maxRunsPerTick := some 2

def mergedEight : GitTriggerFiredEvent where
  event := .closed
  request := closedRequest { number := 8, sha := "b", comments := 0 }

theorem advances_only_if_handled_throttled : (tracked.requests.get? "8").isSome ∧
      stored compare pushedAndMerged tracked [mergedEight] "8" = tracked.requests.get? "8" ∧
      stored compare pushedAndMerged tracked [mergedEight] "9" = tracked.requests.get? "9" ∧
      Handled compare pushedAndMerged tracked [mergedEight] "7" := by
  have hk : tracked.KeyedByRequest := keyedByRequest_iff.mpr (by decide +kernel)
  obtain ⟨hadvance, hkept, -, -, -⟩ := advances_only_if_handled compare pushedAndMerged tracked
    [mergedEight] hk (by decide +kernel) (by decide +kernel) (by decide +kernel)
  refine ⟨by decide +kernel, ?_, ?_, ?_⟩
  · exact hkept mergedEight (.inr (by decide +kernel))
  · exact hkept ⟨.opened, { number := 9, sha := "c", comments := 0, title := "fix" }, none⟩
      (.inl (by decide +kernel))
  · have hprior : tracked.requests.get? "7" = some { number := 7, sha := "a", comments := 1 } := by
      decide +kernel
    have hobserved : (⟨7, "a2", 1, "feature", none, none, none, none, none, false, none, none⟩ :
        ObservedRequest) ∈ pushedAndMerged.observed := by decide +kernel
    exact hadvance "7" (.moves hobserved (by decide +kernel) hprior (by decide +kernel) rfl)
      (by decide +kernel)

end A2Wave.GitTrigger
