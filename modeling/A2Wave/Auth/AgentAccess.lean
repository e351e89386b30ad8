import A2Wave.Lib.Sql
import A2Wave.Lib.Table

/-! `lib/agent-access.ts`.  The permission model is written twice in the source: as row
checks on loaded rows and as SQL conditions on listings.  Here both are definitions over the
same tables, and the two are compared. -/

namespace A2Wave.AgentAccess

structure AgentRow where
  id : String
  userId : Option String
  deriving DecidableEq

inductive MemberRole
  | viewer
  | editor
  deriving DecidableEq, Repr

structure AgentMember where
  agentId : String
  userId : String
  role : MemberRole
  deriving DecidableEq

structure RunRow where
  id : String
  userId : Option String
  initiatorAgentId : Option String
  deriving DecidableEq

structure ArtifactRow where
  id : String
  userId : Option String
  agentId : Option String
  deriving DecidableEq

instance : Keyed AgentRow String := ⟨AgentRow.id⟩
instance : Keyed AgentMember (String × String) := ⟨fun m => (m.agentId, m.userId)⟩

structure Store where
  agents : Table AgentRow := .empty
  agentMembers : Table AgentMember := .empty

inductive AgentPermission
  | owner
  | editor
  | viewer
  deriving DecidableEq, Repr

def MemberRole.toPermission : MemberRole → AgentPermission
  | .viewer => .viewer
  | .editor => .editor

structure Context where
  userRole : String
  userId : String
  deriving DecidableEq

def getAgentPermission (c : Context) (agent : AgentRow) : Option AgentPermission :=
  if c.userRole = "admin" then some .owner
  else if agent.userId = none then none
  else if agent.userId = some c.userId then some .owner
  else none

structure AgentWithPermission where
  agent : AgentRow
  permission : AgentPermission
  deriving DecidableEq

def loadAgentWithPerm (db : Store) (c : Context) (agentId : String) : Option AgentWithPermission :=
  match db.agents.find? agentId with
  | none => none
  | some agent =>
    match getAgentPermission c agent with
    | some fast => some ⟨agent, fast⟩
    | none =>
      if agent.userId = none then none
      else
        match db.agentMembers.find? (agentId, c.userId) with
        | none => none
        | some member => some ⟨agent, member.role.toPermission⟩

/-- `agents AS readable_agents WHERE readable_agents.user_id = :me`. -/
def ownedAgentIds (db : Store) (me : String) : List (Option String) :=
  (db.agents.select fun a => Sql.holds (Sql.eq a.userId (some me))).map fun a => some a.id

/-- The membership arm: a join of `agent_members` with `agents`. -/
def memberAgentIds (db : Store) (me : String) : List (Option String) :=
  ((db.agentMembers.rows.flatMap fun m => db.agents.rows.map fun a => (m, a)).filter fun (m, a) =>
    Sql.holds (Sql.eq (some a.id) (some m.agentId)) &&
      Sql.holds (Sql.and (Sql.eq (some m.userId) (some me)) (Sql.isNotNull a.userId))).map
    fun (m, _) => some m.agentId

def readableAgentSubquery (db : Store) (agentIdColumn : Option String) (me : String) : Sql.Truth :=
  Sql.inList agentIdColumn (Sql.union (ownedAgentIds db me) (memberAgentIds db me))

/-- A read filter of a listing; `none` is the `undefined` of the source, no condition. -/
abbrev Filter (ρ : Type) := Option (ρ → Sql.Truth)

def Filter.selects {ρ : Type} (f : Filter ρ) (row : ρ) : Bool :=
  match f with
  | none => true
  | some condition => Sql.holds (condition row)

def getAgentReadFilter (db : Store) (c : Context) : Filter AgentRow :=
  if c.userRole = "admin" then none
  else some fun a => readableAgentSubquery db (some a.id) c.userId

def getRunReadFilter (db : Store) (c : Context) : Filter RunRow :=
  if c.userRole = "admin" then none
  else some fun r =>
    Sql.or (Sql.eq r.userId (some c.userId)) (readableAgentSubquery db r.initiatorAgentId c.userId)

def getArtifactReadFilter (db : Store) (c : Context) : Filter ArtifactRow :=
  if c.userRole = "admin" then none
  else some fun r =>
    Sql.or (Sql.eq r.userId (some c.userId)) (readableAgentSubquery db r.agentId c.userId)

inductive Need
  | read
  | write
  deriving DecidableEq, Repr

structure ScopedRow where
  userId : Option String
  agentId : Option String
  deriving DecidableEq

def RunRow.scope (r : RunRow) : ScopedRow := ⟨r.userId, r.initiatorAgentId⟩

def ArtifactRow.scope (r : ArtifactRow) : ScopedRow := ⟨r.userId, r.agentId⟩

/-- Truthiness of a `string | null`: the empty string counts as absent. -/
def truthy (s : Option String) : Bool := s ≠ none && s ≠ some ""

def hasAgentScopedAccess (db : Store) (c : Context) (row : ScopedRow) (need : Need) : Bool :=
  if c.userRole = "admin" then true
  else if truthy row.userId && row.userId == some c.userId then true
  else
    match row.agentId with
    | none => false
    | some agentId =>
      if agentId = "" then false
      else
        match loadAgentWithPerm db c agentId with
        | none => false
        | some access => need = .read || access.permission ≠ .viewer

variable {db : Store} {c : Context}

def Readable (db : Store) (me : String) (agentId : String) : Prop :=
  ∃ a, db.agents.find? agentId = some a ∧
    (a.userId = some me ∨ a.userId ≠ none ∧ ∃ m, db.agentMembers.find? (agentId, me) = some m)

theorem loadAgentWithPerm_isSome_iff (hc : c.userRole ≠ "admin") (agentId : String) :
    (loadAgentWithPerm db c agentId).isSome ↔ Readable db c.userId agentId := by
  unfold loadAgentWithPerm Readable getAgentPermission
  cases ha : db.agents.find? agentId with
  | none => simp
  | some a =>
    simp only [if_neg hc, Option.some.injEq, exists_eq_left']
    by_cases hnull : a.userId = none
    · simp [hnull]
    · by_cases hown : a.userId = some c.userId
      · simp [hown]
      · simp only [if_neg hnull, if_neg hown]
        cases hm : db.agentMembers.find? (agentId, c.userId) with
        | none => simp [hown]
        | some m => simp [hnull]

theorem mem_ownedAgentIds (me id : String) :
    some id ∈ ownedAgentIds db me ↔ ∃ a, db.agents.find? id = some a ∧ a.userId = some me := by
  simp only [ownedAgentIds, Table.select, List.mem_map, List.mem_filter, Sql.holds_eq,
    Option.some.injEq, Table.find?_eq_some_iff]
  constructor
  · rintro ⟨a, ⟨ha, u, hu, rfl⟩, hid⟩
    exact ⟨a, ⟨ha, hid⟩, hu⟩
  · rintro ⟨a, ⟨ha, hid⟩, hu⟩
    exact ⟨a, ⟨ha, me, hu, rfl⟩, hid⟩

theorem mem_memberAgentIds (me id : String) : some id ∈ memberAgentIds db me ↔
      ∃ a, db.agents.find? id = some a ∧ a.userId ≠ none ∧ ∃ m, db.agentMembers.find? (id, me) = some m := by
  simp only [memberAgentIds, List.mem_map, List.mem_filter, List.mem_flatMap, Bool.and_eq_true,
    Sql.holds_eq, Sql.holds_and, Sql.holds_isNotNull, Option.some.injEq, Table.find?_eq_some_iff]
  constructor
  · rintro ⟨⟨m, a⟩, ⟨⟨m', hm', a', ha', hpair⟩, ⟨x, hx, hx'⟩, ⟨y, hy, hy'⟩, hnull⟩, hid⟩
    cases hpair
    refine ⟨a, ⟨ha', ?_⟩, hnull, m, hm', ?_⟩
    · exact hx.trans (hx'.symm.trans hid)
    · exact Prod.ext hid (hy.trans hy'.symm)
  · rintro ⟨a, ⟨ha, hid⟩, hnull, m, hm, hkey⟩
    obtain ⟨hmid, hmme⟩ := Prod.mk.inj hkey
    exact ⟨(m, a), ⟨⟨m, hm, a, ha, rfl⟩, ⟨a.id, rfl, hmid.trans hid.symm⟩, ⟨me, hmme, rfl⟩, hnull⟩, hmid⟩

theorem holds_readableAgentSubquery (me : String) (agentId : Option String) :
    Sql.holds (readableAgentSubquery db agentId me) = true ↔ ∃ id, agentId = some id ∧ Readable db me id := by
  simp only [readableAgentSubquery, Sql.holds_inList, Sql.mem_union, mem_ownedAgentIds, mem_memberAgentIds]
  constructor
  · rintro ⟨id, rfl, ⟨a, ha, hown⟩ | ⟨a, ha, hmem⟩⟩
    · exact ⟨id, rfl, a, ha, .inl hown⟩
    · exact ⟨id, rfl, a, ha, .inr hmem⟩
  · rintro ⟨id, rfl, a, ha, hown | hmem⟩
    · exact ⟨id, rfl, .inl ⟨a, ha, hown⟩⟩
    · exact ⟨id, rfl, .inr ⟨a, ha, hmem⟩⟩

theorem truthy_iff (s : Option String) : truthy s = true ↔ ∃ x, s = some x ∧ x ≠ "" := by
  cases s with
  | none | some x => simp [truthy]

theorem hasAgentScopedAccess_read_iff (hc : c.userRole ≠ "admin") (row : ScopedRow) :
    hasAgentScopedAccess db c row .read = true ↔ row.userId = some c.userId ∧ c.userId ≠ "" ∨
        ∃ id, row.agentId = some id ∧ id ≠ "" ∧ Readable db c.userId id := by
  have hown : (truthy row.userId && row.userId == some c.userId) = true ↔
      row.userId = some c.userId ∧ c.userId ≠ "" := by
    rw [Bool.and_eq_true, truthy_iff, beq_iff_eq]
    constructor
    · rintro ⟨⟨x, hx, hne⟩, hme⟩
      exact ⟨hme, Option.some.inj (hx.symm.trans hme) ▸ hne⟩
    · rintro ⟨hme, hne⟩
      exact ⟨⟨_, hme, hne⟩, hme⟩
  unfold hasAgentScopedAccess
  rw [if_neg hc, ← hown]
  split
  · rename_i h
    simp [h]
  · rename_i h
    simp only [h]
    cases ha : row.agentId with
    | none => simp
    | some id =>
      simp only [Option.some.injEq, exists_eq_left']
      by_cases hid : id = ""
      · simp [hid]
      · rw [if_neg hid, ← loadAgentWithPerm_isSome_iff hc]
        cases hl : loadAgentWithPerm db c id with
        | none => simp
        | some access => simp [hid]

/-- Ids that are there are not empty.  `createId` never makes an empty id. -/
def ScopedRow.NonemptyIds (row : ScopedRow) : Prop := row.userId ≠ some "" ∧ row.agentId ≠ some ""

theorem scoped_condition_iff (hc : c.userRole ≠ "admin") {row : ScopedRow} (hrow : row.NonemptyIds) :
    Sql.holds (Sql.or (Sql.eq row.userId (some c.userId))
        (readableAgentSubquery db row.agentId c.userId)) = true ↔
      hasAgentScopedAccess db c row .read = true := by
  rw [Sql.holds_or, Sql.holds_eq, holds_readableAgentSubquery, hasAgentScopedAccess_read_iff hc]
  apply or_congr
  · constructor
    · rintro ⟨x, hx, hme⟩
      refine ⟨hx.trans hme.symm, ?_⟩
      rintro hempty
      exact hrow.1 (by rw [hx, ← hme, hempty])
    · rintro ⟨hme, -⟩
      exact ⟨_, hme, rfl⟩
  · constructor
    · rintro ⟨id, hid, hread⟩
      refine ⟨id, hid, ?_, hread⟩
      rintro rfl
      exact hrow.2 hid
    · rintro ⟨id, hid, -, hread⟩
      exact ⟨id, hid, hread⟩

theorem getAgentReadFilter_selects_iff {a : AgentRow} (ha : a ∈ db.agents.rows) :
    (getAgentReadFilter db c).selects a = true ↔ (loadAgentWithPerm db c a.id).isSome := by
  have hfind : db.agents.find? a.id = some a := Table.find?_eq_some_iff.mpr ⟨ha, rfl⟩
  unfold getAgentReadFilter
  by_cases hc : c.userRole = "admin"
  · simp [hc, Filter.selects, loadAgentWithPerm, hfind, getAgentPermission]
  · rw [if_neg hc, loadAgentWithPerm_isSome_iff hc]
    simp [Filter.selects, holds_readableAgentSubquery]

theorem getRunReadFilter_selects_iff {r : RunRow} (hr : r.scope.NonemptyIds) :
    (getRunReadFilter db c).selects r = true ↔ hasAgentScopedAccess db c r.scope .read = true := by
  unfold getRunReadFilter
  by_cases hc : c.userRole = "admin"
  · simp [hc, Filter.selects, hasAgentScopedAccess]
  · rw [if_neg hc]
    exact scoped_condition_iff hc hr

theorem getArtifactReadFilter_selects_iff {r : ArtifactRow} (hr : r.scope.NonemptyIds) :
    (getArtifactReadFilter db c).selects r = true ↔ hasAgentScopedAccess db c r.scope .read = true := by
  unfold getArtifactReadFilter
  by_cases hc : c.userRole = "admin"
  · simp [hc, Filter.selects, hasAgentScopedAccess]
  · rw [if_neg hc]
    exact scoped_condition_iff hc hr

theorem hasAgentScopedAccess_read_of_write {row : ScopedRow}
    (h : hasAgentScopedAccess db c row .write = true) :
    hasAgentScopedAccess db c row .read = true := by
  unfold hasAgentScopedAccess at h ⊢
  split
  · rfl
  · rename_i hc
    rw [if_neg hc] at h
    split
    · rfl
    · rename_i hown
      rw [if_neg hown] at h
      cases ha : row.agentId with
      | none => simp [ha] at h
      | some id =>
        simp only [ha] at h ⊢
        by_cases hid : id = ""
        · simp [hid] at h
        · rw [if_neg hid] at h ⊢
          cases hl : loadAgentWithPerm db c id with
          | none => simp [hl] at h
          | some access => simp

/-- Listings and row checks grant the same reads, and writing implies reading. -/
theorem readFilters_agree (db : Store) (c : Context) : (∀ a ∈ db.agents.rows,
      (getAgentReadFilter db c).selects a = true ↔ (loadAgentWithPerm db c a.id).isSome) ∧
    (∀ r : RunRow, r.scope.NonemptyIds →
      ((getRunReadFilter db c).selects r = true ↔ hasAgentScopedAccess db c r.scope .read = true)) ∧
    (∀ r : ArtifactRow, r.scope.NonemptyIds → ((getArtifactReadFilter db c).selects r = true ↔
        hasAgentScopedAccess db c r.scope .read = true)) ∧
    (∀ row : ScopedRow, hasAgentScopedAccess db c row .write = true → hasAgentScopedAccess db c row .read = true) :=
  ⟨fun _ ha => getAgentReadFilter_selects_iff ha, fun _ hr => getRunReadFilter_selects_iff hr,
    fun _ hr => getArtifactReadFilter_selects_iff hr,
    fun _ h => hasAgentScopedAccess_read_of_write h⟩

theorem readFilters_agree_legacy_member : ∃ db : Store, ∃ c : Context, ∃ a ∈ db.agents.rows, ∃ r : RunRow,
      c.userRole ≠ "admin" ∧ a.userId = none ∧ r.scope.NonemptyIds ∧
      r.initiatorAgentId = some a.id ∧ (db.agentMembers.find? (a.id, c.userId)).isSome ∧
      ((getAgentReadFilter db c).selects a = true ↔ (loadAgentWithPerm db c a.id).isSome) ∧
      ((getRunReadFilter db c).selects r = true ↔ hasAgentScopedAccess db c r.scope .read = true) ∧
      (getRunReadFilter db c).selects r = false :=
  let db : Store := { agents := ⟨[⟨"agt_legacy", none⟩], by decide⟩,
                      agentMembers := ⟨[⟨"agt_legacy", "usr_alice", .viewer⟩], by decide⟩ }
  let c : Context := ⟨"user", "usr_alice"⟩
  let r : RunRow := ⟨"run_1", none, some "agt_legacy"⟩
  have hr : r.scope.NonemptyIds := ⟨by decide, by decide⟩
  ⟨db, c, ⟨"agt_legacy", none⟩, by decide, r, by decide, rfl, hr, rfl, by decide,
    (readFilters_agree db c).1 _ (by decide), (readFilters_agree db c).2.1 r hr, by decide⟩

theorem readFilters_disagree_empty_id : ¬ ∀ (db : Store) (c : Context) (r : RunRow),
      ((getRunReadFilter db c).selects r = true ↔ hasAgentScopedAccess db c r.scope .read = true) := by
  intro h
  have := h {} ⟨"user", ""⟩ ⟨"run_1", some "", none⟩
  revert this
  decide

end A2Wave.AgentAccess
