import A2Wave.Git.OneRule

/-! Polling one complete listing again and again.  What a tick defers is exactly what the next
tick has to offer, so the cap bounds the rate of events and never their delivery. -/

namespace A2Wave.GitTrigger

variable {localeCompare : String → String → Ordering} {p : DiffParams}
  {previous : GitTriggerRepoState} {key : String} {e : GitTriggerFiredEvent}

def tick (localeCompare : String → String → Ordering) (p : DiffParams)
    (previous : GitTriggerRepoState) : GitTriggerRepoState :=
  (diffRepoState localeCompare (some previous) p).nextState

def settled (p : DiffParams) (prior : Option GitTriggerRequestState) (key : String) : Option GitTriggerRequestState :=
  match p.observedByNumber key with
  | some r => some (fingerprint r)
  | none =>
    if p.stillOpen key then prior.map fun prior => { prior with filtered := some true } else none

section Tick

variable (hk : previous.KeyedByRequest) (hd : (p.observed.map ObservedRequest.key).Nodup)
  (hcomplete : p.complete = true)

include hcomplete in
theorem tick_settled (h : ∀ e ∈ deferredEvents p previous, e.key ≠ key) :
    (tick localeCompare p previous).requests.get? key = settled p (previous.requests.get? key) key := by
  have hdeferred : (deferredEvents p previous).any (·.key = key) = false := by
    simpa using h
  unfold settled
  cases hobserved : p.observedByNumber key with
  | some r =>
    have hs : decision p previous key = .keep (fingerprint r) := by
      rw [decision, hobserved, hdeferred]
      rfl
    exact nextState_keep hs
  | none =>
    cases hopen : p.stillOpen key with
    | true =>
      have hs : decision p previous key = (previous.requests.get? key).elim .drop
          fun prior => .keep { prior with filtered := some true } := by
        rw [decision, hobserved, hopen]
        rfl
      cases hprior : previous.requests.get? key with
      | none => exact nextState_drop (by rw [hs, hprior]; rfl)
      | some prior => exact nextState_keep (by rw [hs, hprior]; rfl)
    | false =>
      have hs : decision p previous key = .drop := by
        rw [decision, hobserved, hopen, hcomplete, hdeferred]
        rfl
      exact nextState_drop hs

include hk hd in
theorem tick_deferred (h : e ∈ deferredEvents p previous) :
    (tick localeCompare p previous).requests.get? e.key = previous.requests.get? e.key :=
  nextState_deferred hk hd h

include hk hd hcomplete in
theorem tick_cases (localeCompare : String → String → Ordering) (key : String) :
    ((∃ e ∈ deferredEvents p previous, e.key = key) ∧
      (tick localeCompare p previous).requests.get? key = previous.requests.get? key) ∨
    ((∀ e ∈ deferredEvents p previous, e.key ≠ key) ∧ (tick localeCompare p previous).requests.get? key =
        settled p (previous.requests.get? key) key) := by
  by_cases h : ∃ e ∈ deferredEvents p previous, e.key = key
  · obtain ⟨e, he, rfl⟩ := h
    exact .inl ⟨⟨e, he, rfl⟩, tick_deferred hk hd he⟩
  · have hnone : ∀ e ∈ deferredEvents p previous, e.key ≠ key :=
      fun e he hkey => h ⟨e, he, hkey⟩
    exact .inr ⟨hnone, tick_settled hcomplete hnone⟩

theorem present_present (s : Option String) : present (present s) = present s := by
  cases s with
  | none => rfl
  | some s => by_cases h : s = "" <;> simp [present, h]

theorem fingerprint_key (r : ObservedRequest) : (fingerprint r).key = r.key := by
  simp only [fingerprint, GitTriggerRequestState.key, ObservedRequest.key, requestKey, present_present]

include hk hd hcomplete in
theorem keyed_tick : (tick localeCompare p previous).KeyedByRequest := by
  intro key entry hentry
  obtain ⟨-, hsame⟩ | ⟨-, hsettled⟩ := tick_cases hk hd hcomplete localeCompare key
  · exact hk key entry (hsame.symm.trans hentry)
  · rw [hsettled, settled] at hentry
    split at hentry
    · rename_i r hr
      cases hentry
      rw [fingerprint_key, (observedByNumber_mem hr).2]
    · split at hentry
      · obtain ⟨prior, hprior, rfl⟩ := Option.map_eq_some_iff.mp hentry
        exact hk key prior hprior
      · cases hentry

end Tick

theorem mem_candidates_congr {next : GitTriggerRepoState} (hk : previous.KeyedByRequest)
    (h : next.requests.get? e.key = previous.requests.get? e.key)
    (he : e ∈ candidates p previous) : e ∈ candidates p next := by
  rcases mem_candidates.mp he with ⟨r, hr, hcand⟩ | ⟨hinfer, key, prior, hprior, hseen, hopen, rfl⟩
  · refine mem_candidates.mpr (.inl ⟨r, hr, ?_⟩)
    have hkey : e.key = r.key := by
      rw [GitTriggerFiredEvent.key, (observedCandidate_request hcand).1]
    rw [hkey] at h
    rw [← hcand, observedCandidate, observedCandidate, h]
  · have hkey : GitTriggerFiredEvent.key ⟨.closed, closedRequest prior, none⟩ = key :=
      (closedRequest_key prior).trans (hk key prior hprior)
    rw [hkey, hprior] at h
    exact mem_candidates.mpr (.inr ⟨hinfer, key, prior, h, hseen, hopen, rfl⟩)

theorem not_candidate_of_settled {prior : Option GitTriggerRequestState}
    (hk : previous.KeyedByRequest) (hd : (p.observed.map ObservedRequest.key).Nodup)
    (h : previous.requests.get? e.key = settled p prior e.key) : e ∉ candidates p previous := by
  intro he
  rcases mem_candidates.mp he with ⟨r, hr, hcand⟩ | ⟨-, key, stale, hstale, hseen, hopen, rfl⟩
  · have hkey : e.key = r.key := by
      rw [GitTriggerFiredEvent.key, (observedCandidate_request hcand).1]
    rw [hkey, settled, observedByNumber_of_mem hd hr] at h
    have hnone : observedCandidate p previous r = none := by
      rw [observedCandidate_eq_none_iff h]
      simp [fingerprint]
    rw [hnone] at hcand
    cases hcand
  · have hkey : GitTriggerFiredEvent.key ⟨.closed, closedRequest stale, none⟩ = key :=
      (closedRequest_key stale).trans (hk key stale hstale)
    rw [hkey, settled, observedByNumber_of_unseen hseen, hopen, hstale] at h
    cases h

section Tick

variable (hk : previous.KeyedByRequest) (hd : (p.observed.map ObservedRequest.key).Nodup)
  (hcomplete : p.complete = true)

include hk hd hcomplete in
theorem mem_candidates_tick : e ∈ candidates p (tick localeCompare p previous) ↔ e ∈ deferredEvents p previous := by
  have hk' : (tick localeCompare p previous).KeyedByRequest := keyed_tick hk hd hcomplete
  constructor
  · intro he
    obtain ⟨⟨e', he', hkey⟩, hsame⟩ | ⟨-, hsettled⟩ := tick_cases hk hd hcomplete localeCompare e.key
    · have hcand : e ∈ candidates p previous := mem_candidates_congr hk' hsame.symm he
      have hcand' : e' ∈ candidates p previous := mem_fired_or_deferred.mpr (.inr he')
      rwa [List.inj_on_of_nodup_map (nodup_candidate_keys hk hd) hcand hcand' hkey.symm]
    · exact absurd he (not_candidate_of_settled hk' hd hsettled)
  · intro he
    exact mem_candidates_congr hk (tick_deferred hk hd he) (mem_fired_or_deferred.mpr (.inr he))

include hk hd in
theorem nodup_ordered : (ordered p previous).Nodup :=
  List.Nodup.of_map _ (nodup_ordered_keys hk hd)

include hk hd hcomplete in
theorem ordered_tick_perm : (ordered p (tick localeCompare p previous)).Perm (deferredEvents p previous) := by
  have hk' : (tick localeCompare p previous).KeyedByRequest := keyed_tick hk hd hcomplete
  have hdeferred : (deferredEvents p previous).Nodup :=
    (List.drop_sublist _ _).nodup (nodup_ordered hk hd)
  rw [List.perm_ext_iff_of_nodup (nodup_ordered hk' hd) hdeferred]
  intro e
  rw [ordered_perm.mem_iff, mem_candidates_tick hk hd hcomplete]

end Tick

theorem length_deferred {c : Nat} (hcap : p.cap = c) :
    (deferredEvents p previous).length = (ordered p previous).length - c := by
  rw [deferredEvents, List.length_drop, sliceIndex, hcap, if_neg (by omega), Int.toNat_natCast]
  omega

theorem settled_settled (prior : Option GitTriggerRequestState) :
    settled p (settled p prior key) key = settled p prior key := by
  unfold settled
  split
  · rfl
  · split
    · cases prior <;> rfl
    · rfl

section Poll

variable (localeCompare p) (polledAt : Nat → String)

/-- The state after `n` ticks on one listing. -/
def poll (previous : GitTriggerRepoState) : Nat → GitTriggerRepoState
  | 0 => previous
  | n + 1 => tick localeCompare { p with polledAt := polledAt n } (poll previous n)

/-- The events that the tick after `n` ticks fires. -/
def firedAt (previous : GitTriggerRepoState) (n : Nat) : List GitTriggerFiredEvent :=
  (diffRepoState localeCompare (some (poll localeCompare p polledAt previous n))
    { p with polledAt := polledAt n }).fired

end Poll

section Run

variable (localeCompare) (polledAt : Nat → String) {c : Nat} (hk : previous.KeyedByRequest)
  (hd : (p.observed.map ObservedRequest.key).Nodup) (hcomplete : p.complete = true)
  (hcap : p.cap = c)

include hk hd hcomplete in
theorem keyed_poll (n : Nat) : (poll localeCompare p polledAt previous n).KeyedByRequest := by
  induction n with
  | zero => exact hk
  | succ n ih => exact keyed_tick ih hd hcomplete

include hk hd hcomplete hcap in
theorem poll_perm (n : Nat) : ((List.range n).flatMap (firedAt localeCompare p polledAt previous) ++
        ordered p (poll localeCompare p polledAt previous n)).Perm (ordered p previous) ∧
      (ordered p (poll localeCompare p polledAt previous n)).length = (ordered p previous).length - n * c := by
  induction n with
  | zero => simp [poll]
  | succ n ih =>
    obtain ⟨hperm, hlen⟩ := ih
    have hkn : (poll localeCompare p polledAt previous n).KeyedByRequest :=
      keyed_poll localeCompare polledAt hk hd hcomplete n
    have hnext : (ordered p (poll localeCompare p polledAt previous (n + 1))).Perm
        (deferredEvents p (poll localeCompare p polledAt previous n)) :=
      ordered_tick_perm (p := { p with polledAt := polledAt n }) hkn hd hcomplete
    constructor
    · refine List.Perm.trans ?_ hperm
      rw [List.range_succ, List.flatMap_append, List.append_assoc]
      apply List.Perm.append_left
      have hsplit : firedAt localeCompare p polledAt previous n ++
          deferredEvents p (poll localeCompare p polledAt previous n) =
            ordered p (poll localeCompare p polledAt previous n) := fired_append_deferred
      rw [List.flatMap_singleton, ← hsplit]
      exact List.Perm.append_left _ hnext
    · rw [hnext.length_eq, length_deferred hcap, hlen, Nat.succ_mul]
      omega

include hk hd hcomplete in
theorem poll_succ_get? {n : Nat} (hn : 1 ≤ n)
    (h : ordered p (poll localeCompare p polledAt previous n) = []) (key : String) :
    (poll localeCompare p polledAt previous (n + 1)).requests.get? key =
      (poll localeCompare p polledAt previous n).requests.get? key := by
  obtain ⟨m, rfl⟩ := Nat.exists_eq_add_of_le' hn
  have hkm : (poll localeCompare p polledAt previous m).KeyedByRequest :=
    keyed_poll localeCompare polledAt hk hd hcomplete m
  have hnone : ∀ e ∈ deferredEvents p (poll localeCompare p polledAt previous (m + 1)), e.key ≠ key := by
    rw [deferredEvents, h]
    simp
  have hlast : (poll localeCompare p polledAt previous (m + 1 + 1)).requests.get? key =
      settled p ((poll localeCompare p polledAt previous (m + 1)).requests.get? key) key :=
    tick_settled (p := { p with polledAt := polledAt (m + 1) }) hcomplete hnone
  obtain ⟨⟨e, he, -⟩, -⟩ | ⟨-, hsettled⟩ :=
    tick_cases (p := { p with polledAt := polledAt m }) hkm hd hcomplete localeCompare key
  · -- what the tick before deferred would be offered again
    have hmem : e ∈ candidates p (poll localeCompare p polledAt previous (m + 1)) :=
      (mem_candidates_tick (p := { p with polledAt := polledAt m }) hkm hd hcomplete).mpr he
    rw [← ordered_perm.mem_iff, h] at hmem
    cases hmem
  · have hsettled' : (poll localeCompare p polledAt previous (m + 1)).requests.get? key =
        settled p ((poll localeCompare p polledAt previous m).requests.get? key) key := hsettled
    rw [hlast, hsettled', settled_settled]

end Run

/-- With `k` events to fire and at most `c` of them a tick, every event fires exactly once,
nothing fires after `⌈k / c⌉` ticks, and from then on, but not before the first tick, the
entries stay as they are. -/
theorem poll_converges (localeCompare : String → String → Ordering) (p : DiffParams)
    (previous : GitTriggerRepoState) (polledAt : Nat → String) (c : Nat)
    (hk : previous.KeyedByRequest) (hd : (p.observed.map ObservedRequest.key).Nodup)
    (hcomplete : p.complete = true) (hcap : p.cap = c) (hc : 1 ≤ c) :
    let k := (candidates p previous).length
    let ticks := (k + c - 1) / c
    (∀ n, ticks ≤ n → ∀ e, ((List.range n).flatMap (firedAt localeCompare p polledAt previous)).count e =
      if e ∈ candidates p previous then 1 else 0) ∧
    (∀ n, ticks ≤ n → firedAt localeCompare p polledAt previous n = []) ∧
    (∀ n, max 1 ticks ≤ n → ∀ key, (poll localeCompare p polledAt previous n).requests.get? key =
      (poll localeCompare p polledAt previous (max 1 ticks)).requests.get? key) := by
  intro k ticks
  have hdone : ∀ n, ticks ≤ n → ordered p (poll localeCompare p polledAt previous n) = [] := by
    intro n hn
    obtain ⟨-, hlen⟩ := poll_perm localeCompare polledAt hk hd hcomplete hcap n
    have hlt : k + c - 1 < (n + 1) * c :=
      (Nat.div_lt_iff_lt_mul hc).mp (Nat.lt_succ_of_le hn)
    rw [Nat.succ_mul] at hlt
    rw [ordered_perm.length_eq, ordered_perm.length_eq] at hlen
    have hzero : (candidates p (poll localeCompare p polledAt previous n)).length = 0 := by
      omega
    have hnil : (ordered p (poll localeCompare p polledAt previous n)).Perm
        (candidates p (poll localeCompare p polledAt previous n)) := ordered_perm
    rw [List.eq_nil_of_length_eq_zero hzero] at hnil
    exact List.Perm.eq_nil hnil
  refine ⟨?_, ?_, ?_⟩
  · intro n hn e
    obtain ⟨hperm, -⟩ := poll_perm localeCompare polledAt hk hd hcomplete hcap n
    rw [hdone n hn, List.append_nil] at hperm
    rw [(hperm.trans ordered_perm).count_eq]
    exact List.Nodup.count ((ordered_perm.nodup_iff).mp (nodup_ordered hk hd))
  · intro n hn
    have hfired : firedAt localeCompare p polledAt previous n =
        firedEvents p (poll localeCompare p polledAt previous n) := rfl
    rw [hfired, firedEvents, hdone n hn, List.take_nil]
  · intro n hn key
    induction n, hn using Nat.le_induction with
    | base => rfl
    | succ n hn ih =>
      rw [poll_succ_get? localeCompare polledAt hk hd hcomplete (by omega)
        (hdone n (by omega)) key, ih]

theorem poll_converges_pushedAndMerged : (candidates pushedAndMerged tracked).length = 3 ∧
      ((List.range 2).flatMap (firedAt compare pushedAndMerged (fun _ => "") tracked)).count
        mergedEight = 1 ∧
      firedAt compare pushedAndMerged (fun _ => "") tracked 2 = [] := by
  have hk : tracked.KeyedByRequest := keyedByRequest_iff.mpr (by decide +kernel)
  have hlen : (candidates pushedAndMerged tracked).length = 3 := by decide +kernel
  obtain ⟨hcount, hnone, -⟩ := poll_converges compare pushedAndMerged tracked (fun _ => "") 2 hk
    (by decide +kernel) (by decide +kernel) rfl (by decide)
  rw [hlen] at hcount hnone
  refine ⟨hlen, ?_, hnone 2 (by decide)⟩
  rw [hcount 2 (by decide) mergedEight, if_pos (by decide +kernel)]

end A2Wave.GitTrigger
