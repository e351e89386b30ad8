import A2Wave.Agent.McpResolution
import A2Wave.Lib.Separated

/-! The names of the backends of a resolved group (`resolveGroupRefs` in `lib/agent-helpers.ts`), for the groups
that `schemas/mcp-server.ts` accepts. -/

namespace A2Wave.McpResolution

open Separated

section Schema

def nameChar (c : Char) : Bool := c.isAlphanum || c = '_' || c = '-'

def namePattern (s : String) : Bool := s ≠ "" && s.toList.all nameChar

def inlineBackendSchema (backend : InlineBackend) : Bool :=
  1 ≤ backend.name.length && backend.name.length ≤ 50 && namePattern backend.name && backend.type ≠ .group

def groupBackendSchema : GroupBackend → Bool
  | .inline backend => inlineBackendSchema backend
  | .ref mcpServerId => mcpServerId ≠ ""

def inlineName : GroupBackend → Option String
  | .inline backend => some backend.name
  | .ref _ => none

def groupConfigSchema (groupConfig : GroupConfig) : Bool :=
  (groupConfig.backends.all fun g => g.2.all groupBackendSchema && 1 ≤ g.2.length && g.2.length ≤ 20) &&
    1 ≤ groupConfig.backends.length && groupConfig.backends.length ≤ 20 &&
    (groupConfig.backends.all fun g => namePattern g.1) &&
    groupConfig.backends.all fun g => (g.2.filterMap inlineName).Nodup

structure Accepted (groupConfig : GroupConfig) : Prop where
  schema : groupConfigSchema groupConfig = true
  keys : (groupConfig.backends.map Prod.fst).Nodup
  ordinary : "__proto__" ∉ groupConfig.backends.map Prod.fst

/-- `createId('mcp')`: twelve random bytes in base64url. -/
def GeneratedId (id : String) : Prop :=
  ∃ cs : List Char, cs.length = 16 ∧ cs.all nameChar = true ∧ id.toList = "mcp_".toList ++ cs

end Schema

section Words

def isSeparator (c : Char) : Bool := !(c.isAlphanum || c = '_')

def words (cs : List Char) : List (List Char) := (cs.splitOnP isSeparator).filter (· ≠ [])

variable {c d : Char} {cs : List Char}

@[simp] theorem words_nil : words [] = [] := by simp [words]

theorem words_separator (h : isSeparator c = true) : words (c :: cs) = words cs := by
  simp [words, List.splitOnP_cons_eq_if_modifyHead, h]

theorem words_letter (h : isSeparator c = false) :
    (cs.head?.all isSeparator = true ∧ words (c :: cs) = [c] :: words cs) ∨
      cs.head?.any isSeparator = false ∧ ∃ w ws, words cs = w :: ws ∧ words (c :: cs) = (c :: w) :: ws := by
  cases cs with
  | nil => simp [words, List.splitOnP_cons_eq_if_modifyHead, h]
  | cons d cs =>
    obtain ⟨hd, tl, hsplit⟩ := List.exists_cons_of_ne_nil (List.splitOnP_ne_nil isSeparator cs)
    cases hd' : isSeparator d with
    | true =>
      left
      simp [words, List.splitOnP_cons_eq_if_modifyHead, h, hd']
    | false =>
      right
      refine ⟨hd', d :: hd, tl.filter (· ≠ []), ?_, ?_⟩
      all_goals simp [words, List.splitOnP_cons_eq_if_modifyHead, h, hd', hsplit]

theorem mem_words {w : List Char} (h : w ∈ words cs) : w ≠ [] ∧ ∀ c ∈ w, isSeparator c = false := by
  induction cs generalizing w with
  | nil => simp at h
  | cons c cs ih =>
    cases hc : isSeparator c with
    | true =>
      rw [words_separator hc] at h
      exact ih h
    | false =>
      obtain ⟨-, hnew⟩ | ⟨-, v, vs, hcs, hold⟩ := @words_letter c cs hc
      · rw [hnew] at h
        rcases List.mem_cons.mp h with rfl | h
        · simp [hc]
        · exact ih h
      · rw [hold] at h
        rcases List.mem_cons.mp h with rfl | h
        · refine ⟨by simp, fun e he => ?_⟩
          rcases List.mem_cons.mp he with rfl | he
          · exact hc
          · exact (ih (hcs ▸ List.mem_cons_self)).2 e he
        · exact ih (hcs ▸ List.mem_cons_of_mem _ h)

theorem isSeparator_of_words_nil (h : words cs = []) : ∀ c ∈ cs, isSeparator c = true := by
  induction cs with
  | nil => simp
  | cons c cs ih =>
    cases hc : isSeparator c with
    | true =>
      rw [words_separator hc] at h
      exact List.forall_mem_cons.mpr ⟨hc, ih h⟩
    | false =>
      obtain ⟨-, hnew⟩ | ⟨-, w, ws, -, hold⟩ := @words_letter c cs hc
      · rw [hnew] at h
        cases h
      · rw [hold] at h
        cases h

def dashed (cs : List Char) : List Char :=
  cs.map fun c => if c.isAlphanum || c = '_' || c = '-' then c else '-'

theorem dashed_separator (h : isSeparator c = true) : dashed (c :: cs) = '-' :: dashed cs := by
  simp only [isSeparator, Bool.not_eq_true'] at h
  simp only [dashed, List.map_cons, h, Bool.false_or, decide_eq_true_eq, List.cons.injEq, and_true]
  split
  · assumption
  · rfl

theorem dashed_letter (h : isSeparator c = false) : dashed (c :: cs) = c :: dashed cs := by
  simp only [isSeparator, Bool.not_eq_false'] at h
  simp only [dashed, List.map_cons, h, Bool.true_or, if_true]

theorem letter_ne_dash (h : isSeparator c = false) : c ≠ '-' := by
  rintro rfl
  revert h
  decide

theorem dash_not_mem_words {w : List Char} (h : w ∈ words cs) : '-' ∉ w :=
  fun hmem => letter_ne_dash ((mem_words h).2 '-' hmem) rfl

theorem joinDashes_cons (c : Char) (cs : List Char) :
    joinDashes (c :: cs) = if c = '-' ∧ cs.head? = some '-' then joinDashes cs else c :: joinDashes cs := by
  cases cs with
  | nil | cons d cs => simp [joinDashes]

def edge (c : Option Char) : List Char := if c.any isSeparator then ['-'] else []

theorem head?_dashed : (dashed cs).head? = some '-' ↔ cs.head?.any isSeparator = true := by
  cases cs with
  | nil => simp [dashed]
  | cons c cs =>
    cases hc : isSeparator c with
    | true => simp [dashed_separator hc, hc]
    | false => simp [dashed_letter hc, letter_ne_dash hc, hc]

theorem joinDashes_dashed : joinDashes (dashed cs) =
    edge cs.head? ++ ['-'].intercalate (words cs) ++ if words cs = [] then [] else edge cs.getLast? := by
  induction cs with
  | nil => simp [dashed, joinDashes, edge]
  | cons c cs ih =>
    have hlast : cs ≠ [] → (c :: cs).getLast? = cs.getLast? := fun h => List.getLast?_cons_of_ne_nil h
    cases hc : isSeparator c with
    | true =>
      simp only [dashed_separator hc, joinDashes_cons, words_separator hc, ih, head?_dashed, true_and]
      cases cs with
      | nil => simp [edge, hc]
      | cons d cs =>
        rw [hlast (by simp)]
        cases hd : isSeparator d with
        | true | false => simp [edge, hc, hd]
    | false =>
      rw [dashed_letter hc, joinDashes_cons, if_neg fun h => letter_ne_dash hc h.1, ih]
      obtain ⟨hhead, hnew⟩ | ⟨hhead, w, ws, hcs, hold⟩ := @words_letter c cs hc
      · cases cs with
        | nil => simp [hnew, edge, hc]
        | cons d cs =>
          rw [hnew, hlast (by simp)]
          have hd : isSeparator d = true := hhead
          by_cases hnil : words (d :: cs) = []
          · have hall := isSeparator_of_words_nil hnil
            have hend : isSeparator ((d :: cs).getLast (by simp)) = true := hall _ (List.getLast_mem _)
            simp [hnil, edge, hc, hd, List.getLast?_eq_some_getLast, hend]
          · simp [hnil, edge, hc, hd, List.intercalate_cons_of_ne_nil]
      · have hne : cs ≠ [] := by
          rintro rfl
          cases hcs
        rw [hold, hcs, hlast hne]
        simp [edge, hc, hhead, List.intercalate_cons_cons_left]

theorem strip_edges {lead m trail : List Char} (hlead : lead = [] ∨ lead = ['-']) (htrail : trail = [] ∨ trail = ['-'])
    (hnil : m = [] → trail = []) (hhead : m.head? ≠ some '-') (hlast : m.getLast? ≠ some '-') :
    let dashed := lead ++ m ++ trail
    let front := if dashed.head? = some '-' then dashed.tail else dashed
    (if front.getLast? = some '-' then front.dropLast else front) = m := by
  have hfront : (if (lead ++ m ++ trail).head? = some '-' then (lead ++ m ++ trail).tail else lead ++ m ++ trail) =
      m ++ trail := by
    rcases hlead with rfl | rfl
    · refine if_neg fun heq => ?_
      cases m with
      | nil => simp [hnil] at heq
      | cons c m => exact hhead (by simpa using heq)
    · rfl
  dsimp only
  rw [hfront]
  rcases htrail with rfl | rfl
  · rw [List.append_nil, if_neg hlast]
  · rw [if_pos (by simp), List.dropLast_concat]

theorem edge_cases (c : Option Char) : edge c = [] ∨ edge c = ['-'] := by
  unfold edge
  split
  · exact .inr rfl
  · exact .inl rfl

theorem toList_safeBaseName (name : String) : (safeBaseName name).toList = ['-'].intercalate (words name.toList) := by
  have hpieces : ∀ w ∈ words name.toList, w ≠ [] ∧ '-' ∉ w :=
    fun w hw => ⟨(mem_words hw).1, dash_not_mem_words hw⟩
  have hnil := @intercalate_eq_nil _ '-' (words name.toList) fun w hw => (hpieces w hw).1
  have htrail : (if words name.toList = [] then [] else edge name.toList.getLast?) = [] ∨
      (if words name.toList = [] then [] else edge name.toList.getLast?) = ['-'] := by
    split
    · exact .inl rfl
    · exact edge_cases _
  have hstrip := strip_edges (edge_cases name.toList.head?) htrail (fun h => if_pos (hnil.mp h))
    (head?_intercalate hpieces) (getLast?_intercalate hpieces)
  rw [← joinDashes_dashed] at hstrip
  exact String.toList_ofList.trans hstrip

end Words

section Targets

variable (s : Store) (ownerId : Option String) (authorization : McpRuntimeAuthorization)

inductive Target
  | inline (backend : InlineBackend)
  | ref (row : McpServer)

def accessible : GroupBackend → Option Target
  | .inline backend => some (.inline backend)
  | .ref mcpServerId =>
    ((s.mcpServers.find? mcpServerId).filter fun row => refScope ownerId authorization row && row.type ≠ .group &&
      !isMcpBlockedAtRuntime row ownerId authorization).map .ref

def labelled (row : McpServer) : List Char :=
  ['-'].intercalate (words row.name.toList) ++ '-' :: (row.id.toList.drop 4).take 6

def unnamed (row : McpServer) : List Char := "ref-".toList ++ row.id.toList

/-- Two references clash when they have the same words and ids that begin alike; without any word, when they have
the same id.  The other clauses are names of one kind that happen to be written like those of another. -/
def Clash : Target → Target → Prop
  | .inline _, .inline _ => False
  | .inline backend, .ref row =>
    backend.name.toList = if words row.name.toList = [] then unnamed row else labelled row
  | .ref row, .inline backend =>
    backend.name.toList = if words row.name.toList = [] then unnamed row else labelled row
  | .ref row, .ref other =>
    if words row.name.toList = [] then
      if words other.name.toList = [] then row.id = other.id else unnamed row = labelled other
    else if words other.name.toList = [] then labelled row = unnamed other
    else words row.name.toList = words other.name.toList ∧
      (row.id.toList.drop 4).take 6 = (other.id.toList.drop 4).take 6

instance : DecidableRel Clash
  | .inline _, .inline _ => inferInstanceAs (Decidable False)
  | .inline backend, .ref row => inferInstanceAs
      (Decidable (backend.name.toList = if words row.name.toList = [] then unnamed row else labelled row))
  | .ref row, .inline backend => inferInstanceAs
      (Decidable (backend.name.toList = if words row.name.toList = [] then unnamed row else labelled row))
  | .ref row, .ref _ => inferInstanceAs (Decidable (if words row.name.toList = [] then _ else _))

def Presents : Target → ResolvedInlineBackend → Prop
  | .inline backend, resolved => resolved = resolveInline backend
  | .ref row, resolved => resolved.type = row.type ∧ resolved.command = row.command ∧ resolved.args = some row.args ∧
      resolved.cwd = row.cwd ∧ resolved.url = row.url ∧ resolved.headers = row.headers

/-- What `resolveGroupRefs` has under a key. -/
def returned (groupConfig : GroupConfig) (groupKey : String) : List ResolvedInlineBackend :=
  ((resolveGroupRefs s groupConfig ownerId authorization).lookup groupKey).getD []

def Target.present : Target → ResolvedInlineBackend
  | .inline backend => resolveInline backend
  | .ref row => resolveRef row authorization

variable {s ownerId authorization} {groupConfig : GroupConfig} {row other : McpServer}

theorem resolveBackend_eq (backend : GroupBackend) : resolveBackend s ownerId authorization backend =
    (accessible s ownerId authorization backend).map (Target.present authorization) := by
  cases backend with
  | inline backend => rfl
  | ref mcpServerId =>
    simp only [resolveBackend, accessible]
    cases s.mcpServers.find? mcpServerId with
    | none => rfl
    | some row =>
      cases hscope : refScope ownerId authorization row with
      | false => simp [Option.filter_some, hscope]
      | true =>
        by_cases hgroup : row.type = .group
        · simp [Option.filter_some, hscope, hgroup]
        · cases hblocked : isMcpBlockedAtRuntime row ownerId authorization <;>
            simp [Option.filter_some, hscope, hgroup, hblocked, Target.present]

theorem lookup_kept {α β : Type*} {kept : α → List β} {groups : List (String × α)} {g : String × α}
    (hkeys : (groups.map Prod.fst).Nodup) (hg : g ∈ groups) :
    ((groups.filterMap fun (key, a) => if (kept a).isEmpty then none else some (key, kept a)).lookup g.1).getD [] =
      kept g.2 := by
  induction groups with
  | nil => cases hg
  | cons head groups ih =>
    obtain ⟨key, a⟩ := head
    rw [List.map_cons, List.nodup_cons] at hkeys
    have hrest : key = g.1 → (groups.filterMap fun (key, a) =>
        if (kept a).isEmpty then none else some (key, kept a)).lookup g.1 = none := by
      rintro rfl
      rw [List.lookup_eq_none_iff]
      intro p hp
      obtain ⟨⟨key, a⟩, hmem, hp⟩ := List.mem_filterMap.mp hp
      dsimp only at hp
      split at hp
      · cases hp
      · cases hp
        exact bne_iff_ne.mpr fun heq => hkeys.1 (List.mem_map.mpr ⟨_, hmem, heq.symm⟩)
    rw [List.filterMap_cons]
    dsimp only
    rcases List.mem_cons.mp hg with rfl | hg
    · cases hempty : (kept a).isEmpty with
      | true =>
        rw [if_pos rfl]
        dsimp only
        rw [hrest rfl, List.isEmpty_iff.mp hempty]
        rfl
      | false =>
        rw [if_neg (by simp)]
        simp
    · have hne : g.1 ≠ key := fun heq => hkeys.1 (List.mem_map.mpr ⟨g, hg, heq⟩)
      cases hempty : (kept a).isEmpty with
      | true =>
        rw [if_pos rfl]
        exact ih hkeys.2 hg
      | false =>
        rw [if_neg (by simp)]
        dsimp only
        rw [List.lookup_cons, beq_eq_false_iff_ne.mpr hne]
        exact ih hkeys.2 hg

theorem returned_eq {g : String × List GroupBackend} (hkeys : (groupConfig.backends.map Prod.fst).Nodup)
    (hg : g ∈ groupConfig.backends) : returned s ownerId authorization groupConfig g.1 =
      (g.2.filterMap (accessible s ownerId authorization)).map (Target.present authorization) := by
  have hresolve : resolveBackend s ownerId authorization =
      fun backend => (accessible s ownerId authorization backend).map (Target.present authorization) :=
    funext resolveBackend_eq
  rw [List.map_filterMap, ← hresolve]
  exact lookup_kept hkeys hg

theorem toList_shortId {id : String} (h : GeneratedId id) : (shortId id).toList = (id.toList.drop 4).take 6 := by
  obtain ⟨cs, -, -, hid⟩ := h
  have hprefix : "mcp_".toList.isPrefixOf id.toList = true :=
    List.isPrefixOf_iff_prefix.mpr ⟨cs, hid.symm⟩
  simp only [shortId, hprefix, if_true, String.toList_ofList]

theorem safeBaseName_eq_empty {name : String} : safeBaseName name = "" ↔ words name.toList = [] := by
  rw [← String.toList_inj, toList_safeBaseName]
  exact intercalate_eq_nil fun w hw => (mem_words hw).1

theorem toList_safeName (h : GeneratedId row.id) :
    (safeName row).toList = if words row.name.toList = [] then unnamed row else labelled row := by
  unfold safeName
  dsimp only
  by_cases hwords : words row.name.toList = []
  · rw [if_neg (not_not.mpr (safeBaseName_eq_empty.mpr hwords)), if_pos hwords, String.toList_append]
    rfl
  · rw [if_pos (safeBaseName_eq_empty.not.mpr hwords), if_neg hwords, String.toList_append, String.toList_append,
      toList_safeBaseName, toList_shortId h, List.append_assoc]
    rfl

theorem length_prefix (h : GeneratedId row.id) : ((row.id.toList.drop 4).take 6).length = 6 := by
  obtain ⟨cs, hlength, -, hid⟩ := h
  simp [hid, hlength]

theorem words_inj (h : words row.name.toList ≠ []) (hother : words other.name.toList ≠ [])
    (heq : ['-'].intercalate (words row.name.toList) = ['-'].intercalate (words other.name.toList)) :
    words row.name.toList = words other.name.toList := by
  rw [← List.splitOn_intercalate '-' (fun w hw => dash_not_mem_words hw) h, heq,
    List.splitOn_intercalate '-' (fun w hw => dash_not_mem_words hw) hother]

theorem labelled_inj (hid : GeneratedId row.id) (hid' : GeneratedId other.id) (h : words row.name.toList ≠ [])
    (h' : words other.name.toList ≠ []) : labelled row = labelled other ↔
      words row.name.toList = words other.name.toList ∧
        (row.id.toList.drop 4).take 6 = (other.id.toList.drop 4).take 6 := by
  constructor
  · intro heq
    have hlength : ('-' :: (row.id.toList.drop 4).take 6).length = ('-' :: (other.id.toList.drop 4).take 6).length := by
      rw [List.length_cons, List.length_cons, length_prefix hid, length_prefix hid']
    obtain ⟨hwords, hprefix⟩ := List.append_inj' heq hlength
    exact ⟨words_inj h h' hwords, (List.cons.inj hprefix).2⟩
  · rintro ⟨hwords, hprefix⟩
    rw [labelled, labelled, hwords, hprefix]

theorem unnamed_inj : unnamed row = unnamed other ↔ row.id = other.id := by
  rw [unnamed, unnamed, List.append_cancel_left_eq, String.toList_inj]

def Target.Generated : Target → Prop
  | .inline _ => True
  | .ref row => GeneratedId row.id

def DistinctInline : Target → Target → Prop
  | .inline a, .inline b => a.name ≠ b.name
  | _, _ => True

theorem name_ne_iff {a b : Target} (ha : a.Generated) (hb : b.Generated) (hinline : DistinctInline a b) :
    (a.present authorization).name ≠ (b.present authorization).name ↔ ¬ Clash a b := by
  cases a with
  | inline a =>
    cases b with
    | inline b => exact iff_of_true hinline id
    | ref row =>
      refine not_congr ?_
      rw [← String.toList_inj]
      change a.name.toList = (safeName row).toList ↔ _
      rw [toList_safeName hb, Clash]
  | ref row =>
    cases b with
    | inline b =>
      refine not_congr ?_
      rw [← String.toList_inj, eq_comm]
      change b.name.toList = (safeName row).toList ↔ _
      rw [toList_safeName ha, Clash]
    | ref other =>
      refine not_congr ?_
      rw [← String.toList_inj]
      change (safeName row).toList = (safeName other).toList ↔ _
      rw [toList_safeName ha, toList_safeName hb, Clash]
      by_cases h : words row.name.toList = []
      · rw [if_pos h, if_pos h]
        split
        · exact unnamed_inj
        · exact Iff.rfl
      · rw [if_neg h, if_neg h]
        split
        · exact Iff.rfl
        · rename_i h'
          exact labelled_inj ha hb h h'

theorem nameChar_intercalate {ws : List (List Char)} (h : ∀ w ∈ ws, ∀ c ∈ w, isSeparator c = false) :
    ∀ c ∈ ['-'].intercalate ws, nameChar c = true := by
  have hletter : ∀ c, isSeparator c = false → nameChar c = true := by
    intro c hc
    simp only [isSeparator, Bool.not_eq_false'] at hc
    simp only [nameChar, hc, Bool.true_or]
  induction ws with
  | nil => simp
  | cons w ws ih =>
    obtain ⟨hw, hrest⟩ := List.forall_mem_cons.mp h
    cases ws with
    | nil =>
      rw [List.intercalate_singleton]
      exact fun c hc => hletter c (hw c hc)
    | cons v vs =>
      intro c hc
      rw [List.intercalate_cons_cons, List.mem_append, List.mem_append, List.mem_singleton] at hc
      obtain (hc | rfl) | hc := hc
      · exact hletter c (hw c hc)
      · decide
      · exact ih hrest c hc

theorem namePattern_safeName (h : GeneratedId row.id) : namePattern (safeName row) = true := by
  have hid : ∀ c ∈ row.id.toList, nameChar c = true := by
    obtain ⟨cs, -, hchars, hid⟩ := h
    rw [hid]
    intro c hc
    rcases List.mem_append.mp hc with hc | hc
    · exact List.all_eq_true.mp (by decide) c hc
    · exact List.all_eq_true.mp hchars c hc
  have hname := toList_safeName h
  have hne : safeName row ≠ "" := by
    intro heq
    rw [heq] at hname
    split at hname
    · cases hname
    · exact absurd (List.append_eq_nil_iff.mp hname.symm).2 (by simp)
  have hall : ∀ c ∈ (safeName row).toList, nameChar c = true := by
    intro c hc
    rw [hname] at hc
    split at hc
    · rcases List.mem_append.mp hc with hc | hc
      · exact List.all_eq_true.mp (by decide) c hc
      · exact hid c hc
    · rcases List.mem_append.mp hc with hc | hc
      · exact nameChar_intercalate (fun w hw => (mem_words hw).2) c hc
      · rcases List.mem_cons.mp hc with rfl | hc
        · decide
        · exact hid c (List.mem_of_mem_drop (List.mem_of_mem_take hc))
  simp only [namePattern, Bool.and_eq_true, decide_eq_true_eq]
  exact ⟨hne, List.all_eq_true.mpr hall⟩

variable {backend : GroupBackend}

theorem generated_of_accessible {t : Target}
    (hids : ∀ mcpServerId row, s.mcpServers.find? mcpServerId = some row → GeneratedId row.id)
    (h : accessible s ownerId authorization backend = some t) : t.Generated := by
  cases backend with
  | inline b =>
    cases h
    trivial
  | ref mcpServerId =>
    obtain ⟨row, hrow, rfl⟩ := Option.map_eq_some_iff.mp h
    exact hids mcpServerId row (Option.filter_eq_some_iff.mp hrow).1

theorem inline_of_accessible {b : InlineBackend}
    (h : accessible s ownerId authorization backend = some (.inline b)) : backend = .inline b := by
  cases backend with
  | inline b' =>
    cases h
    rfl
  | ref mcpServerId =>
    obtain ⟨row, -, hrow⟩ := Option.map_eq_some_iff.mp h
    cases hrow

theorem namePattern_inline {b : InlineBackend} (hschema : groupBackendSchema backend = true)
    (h : accessible s ownerId authorization backend = some (.inline b)) : namePattern b.name = true := by
  rw [inline_of_accessible h] at hschema
  simp only [groupBackendSchema, inlineBackendSchema, Bool.and_eq_true] at hschema
  exact hschema.1.2

theorem distinctInline_of_names {backends : List GroupBackend} (h : (backends.filterMap inlineName).Nodup) :
    (backends.filterMap (accessible s ownerId authorization)).Pairwise DistinctInline := by
  rw [List.pairwise_filterMap]
  rw [List.Nodup, List.pairwise_filterMap] at h
  refine h.imp fun {a b} hab t ht u hu => ?_
  cases t with
  | ref row => trivial
  | inline x =>
    cases u with
    | ref row => trivial
    | inline y =>
      rw [inline_of_accessible ht, inline_of_accessible hu] at hab
      exact hab x.name rfl y.name rfl

/-- The names of the resolved backends of a key are distinct just when no two of its targets clash; that they
match the pattern, and that each accessible backend is there once and in its place, holds anyway. -/
theorem backends_addressable_iff (haccepted : Accepted groupConfig)
    (hids : ∀ mcpServerId row, s.mcpServers.find? mcpServerId = some row → GeneratedId row.id)
    {g : String × List GroupBackend} (hg : g ∈ groupConfig.backends) :
    let targets := g.2.filterMap (accessible s ownerId authorization)
    let resolved := returned s ownerId authorization groupConfig g.1
    ((resolved.map (·.name)).Nodup ∧ (∀ backend ∈ resolved, namePattern backend.name = true) ∧
        List.Forall₂ Presents targets resolved) ↔
      targets.Pairwise fun a b => ¬ Clash a b := by
  intro targets resolved
  have hresolved : resolved = targets.map (Target.present authorization) := returned_eq haccepted.keys hg
  have hschema := haccepted.schema
  simp only [groupConfigSchema, Bool.and_eq_true, List.all_eq_true, decide_eq_true_eq] at hschema
  obtain ⟨⟨⟨⟨hbackends, -⟩, -⟩, -⟩, hinline⟩ := hschema
  have hgenerated : ∀ t ∈ targets, t.Generated := by
    intro t ht
    obtain ⟨backend, -, ht⟩ := List.mem_filterMap.mp ht
    exact generated_of_accessible hids ht
  have hdistinct : targets.Pairwise DistinctInline := distinctInline_of_names (hinline g hg)
  have hnames : (resolved.map (·.name)).Nodup ↔ targets.Pairwise fun a b => ¬ Clash a b := by
    rw [hresolved, List.map_map, List.Nodup, List.pairwise_map]
    constructor
    · intro h
      refine (h.and hdistinct).imp_of_mem fun ha hb hab => ?_
      exact (name_ne_iff (hgenerated _ ha) (hgenerated _ hb) hab.2).mp hab.1
    · intro h
      refine (h.and hdistinct).imp_of_mem fun ha hb hab => ?_
      exact (name_ne_iff (hgenerated _ ha) (hgenerated _ hb) hab.2).mpr hab.1
  rw [hnames]
  refine and_iff_left ⟨?_, ?_⟩
  · rw [hresolved]
    intro backend hbackend
    obtain ⟨t, ht, rfl⟩ := List.mem_map.mp hbackend
    cases t with
    | inline b =>
      obtain ⟨source, hsource, ht⟩ := List.mem_filterMap.mp ht
      exact namePattern_inline ((hbackends g hg).1.1 source hsource) ht
    | ref row => exact namePattern_safeName (hgenerated _ ht)
  · rw [hresolved, List.forall₂_map_right_iff, List.forall₂_same]
    intro t _
    cases t with
    | inline b => rfl
    | ref row => exact ⟨rfl, rfl, rfl, rfl, rfl, rfl⟩

end Targets

section Examples

def searchStore : Store :=
  { mcpServers := ⟨[{ id := "mcp_AAAAAAAAAAAAAAAA", name := "web search!", type := .http, usageScope := .allUsers }],
      by decide⟩ }

def searchGroup (backends : List GroupBackend) : GroupConfig := ⟨[("default", backends)]⟩

theorem searchStore_ids (mcpServerId : String) (row : McpServer)
    (h : searchStore.mcpServers.find? mcpServerId = some row) : GeneratedId row.id := by
  obtain rfl := List.mem_singleton.mp (List.mem_of_find?_eq_some h)
  exact ⟨List.replicate 16 'A', by decide, by decide, by decide⟩

theorem backends_addressable_search :
    ((returned searchStore none {} (searchGroup [.inline { name := "search", type := .http },
      .ref "mcp_AAAAAAAAAAAAAAAA"]) "default").map (·.name)).Nodup :=
  ((backends_addressable_iff (g := ("default", _)) ⟨by decide +kernel, by decide, by decide⟩ searchStore_ids
    List.mem_cons_self).mpr (by decide +kernel)).1

theorem backends_repeat_reference :
    let groupConfig := searchGroup [.ref "mcp_AAAAAAAAAAAAAAAA", .ref "mcp_AAAAAAAAAAAAAAAA"]
    Accepted groupConfig ∧
      (∀ mcpServerId row, searchStore.mcpServers.find? mcpServerId = some row → GeneratedId row.id) ∧
      ¬ ((returned searchStore none {} groupConfig "default").map (·.name)).Nodup :=
  ⟨⟨by decide +kernel, by decide, by decide⟩, searchStore_ids, by decide +kernel⟩

end Examples

end A2Wave.McpResolution
