import Mathlib.Data.List.Perm.Subperm
import A2Wave.Engine.McpSync

/-! One sync of the MCP config of a workspace (`engine/mcp-sync.ts`) and the cleanup that matches it: which of
the servers it delivers, and what both leave of the content of the user. -/

namespace A2Wave.McpSync

structure Files where
  config : JsonFile
  marker : JsonFile

def Files.record (files : Files) : Fields := (readJsonRecord files.config).record

def Files.managed (files : Files) : Fields := ((readManagedMarker files.marker).map (·.managedServers)).getD .nil

def usable (servers : List ResolvedMcpServer) (dialect : McpConfigDialect) : List (String × Json) :=
  servers.filterMap fun server => (serverConfig dialect server).map fun config => (server.name, config)

section Model

variable (number : ℚ → String) (now : Nat) (processInstanceId : String)

def planFor (servers : List ResolvedMcpServer) (dialect : McpConfigDialect) (files : Files) : Plan :=
  planSync number now processInstanceId (buildManagedMcpServers servers dialect) (readJsonRecord files.config)
    (readManagedMarker files.marker)

/-- `writeMcpConfig`, when both of its writes succeed. -/
def sync (servers : List ResolvedMcpServer) (dialect : McpConfigDialect) (files : Files) : Files :=
  let plan := planFor number now processInstanceId servers dialect files
  ⟨.holds (.obj plan.nextConfig), .holds plan.nextManagedMarker.toJson⟩

/-- `releaseMcpConfig` without another reference. -/
def cleanup (files : Files) : Files :=
  match readManagedMarker files.marker with
  | none => files
  | some marker =>
    if ownsManagedMarker processInstanceId marker then
      ⟨dropFile (strip number marker (readJsonRecord files.config).record), .absent⟩
    else files

end Model

theorem writeMcpConfig_sync {number : ℚ → String} {now : Nat} {s : Shared} {run : Run} (h : run.phase = .probing) :
    ∃ s' run', ((((writeMcpConfig number s run (.go now)).bind fun r => writeMcpConfig number r.1 r.2 (.go now)).bind
        fun r => writeMcpConfig number r.1 r.2 (.go now)).bind fun r => writeMcpConfig number r.1 r.2 (.go now)) =
        some (s', run') ∧
      Files.mk s'.config s'.marker =
        sync number now run.processInstanceId run.servers run.dialect ⟨s.config, s.marker⟩ := by
  simp only [writeMcpConfig, h, Option.bind_some, Run.at]
  exact ⟨_, _, rfl, rfl⟩

section Keys

def keysOf : Fields → List String
  | .nil => []
  | .cons k _ fs => k :: keysOf fs

variable {fs : Fields} {k l : String} {v : Json}

theorem get?_eq_none_iff : fs.get? k = none ↔ k ∉ keysOf fs := by
  fun_induction keysOf fs with
  | case1 => simp
  | case2 l v fs ih =>
    by_cases h : l = k
    · simp [Fields.get?, h]
    · simp [Fields.get?, h, Ne.symm h, ih]

theorem keysOf_set : keysOf (fs.set k v) = if k ∈ keysOf fs then keysOf fs else keysOf fs ++ [k] := by
  fun_induction Fields.set fs k v with
  | case1 => rfl
  | case2 w fs => simp [keysOf]
  | case3 l w fs hne ih =>
    simp only [keysOf, ih, List.mem_cons, Ne.symm hne, false_or]
    split <;> rfl

def assignAll (ps : List (String × Json)) (fs : Fields) : Fields := ps.foldl (fun fs p => assign fs p.1 p.2) fs

theorem assignAll_cons (p : String × Json) (ps : List (String × Json)) (fs : Fields) :
    assignAll (p :: ps) fs = assignAll ps (assign fs p.1 p.2) := rfl

theorem buildManaged_eq (servers : List ResolvedMcpServer) (dialect : McpConfigDialect) :
    buildManagedMcpServers servers dialect = assignAll (usable servers dialect) .nil := by
  unfold buildManagedMcpServers assignAll usable
  generalize Fields.nil = fs
  induction servers generalizing fs with
  | nil => rfl
  | cons server servers ih =>
    cases hconfig : serverConfig dialect server with
    | none | some config => simp [hconfig, ih]

theorem length_assignAll (ps : List (String × Json)) (fs : Fields) :
    (keysOf (assignAll ps fs)).length ≤ (keysOf fs).length + ps.length ∧
      ((keysOf (assignAll ps fs)).length = (keysOf fs).length + ps.length →
        (ps.map Prod.fst).Nodup ∧ "__proto__" ∉ ps.map Prod.fst ∧ ∀ k ∈ ps.map Prod.fst, k ∉ keysOf fs) := by
  induction ps generalizing fs with
  | nil => simp [assignAll]
  | cons p ps ih =>
    obtain ⟨name, config⟩ := p
    obtain ⟨hle, heq⟩ := ih (assign fs name config)
    have hkeys : keysOf (assign fs name config) =
        if name = "__proto__" ∨ name ∈ keysOf fs then keysOf fs else keysOf fs ++ [name] := by
      unfold assign
      by_cases hproto : name = "__proto__"
      · simp [hproto]
      · simp [hproto, keysOf_set]
    rw [assignAll_cons, List.length_cons]
    dsimp only
    by_cases hold : name = "__proto__" ∨ name ∈ keysOf fs
    · rw [if_pos hold] at hkeys
      rw [hkeys] at hle
      exact ⟨by omega, fun h => by omega⟩
    · rw [if_neg hold] at hkeys
      rw [not_or] at hold
      rw [hkeys, List.length_append, List.length_singleton] at hle heq
      refine ⟨by omega, fun h => ?_⟩
      obtain ⟨hnodup, hproto, hfresh⟩ := heq (by omega)
      have hname : name ∉ ps.map Prod.fst := fun hmem => hfresh name hmem (by simp)
      refine ⟨List.nodup_cons.mpr ⟨hname, hnodup⟩, ?_, ?_⟩
      · simpa [Ne.symm hold.1] using hproto
      · intro k hk
        rcases List.mem_cons.mp hk with rfl | hk
        · exact hold.2
        · exact fun hmem => hfresh k hk (List.mem_append_left _ hmem)

variable {ps : List (String × Json)}

theorem get?_assignAll_of_not_mem (h : k ∉ ps.map Prod.fst) : (assignAll ps fs).get? k = fs.get? k := by
  induction ps generalizing fs with
  | nil => rfl
  | cons p ps ih =>
    rw [List.map_cons, List.mem_cons, not_or] at h
    rw [assignAll_cons, ih h.2, get?_assign, if_neg fun hk => h.1 hk.1.symm]

theorem get?_assignAll_of_mem (hnodup : (ps.map Prod.fst).Nodup)
    (hproto : "__proto__" ∉ ps.map Prod.fst) (h : (k, v) ∈ ps) : (assignAll ps fs).get? k = some v := by
  induction ps generalizing fs with
  | nil => cases h
  | cons p ps ih =>
    rw [List.map_cons, List.nodup_cons] at hnodup
    rw [List.map_cons, List.mem_cons, not_or] at hproto
    rw [assignAll_cons]
    rcases List.mem_cons.mp h with rfl | h
    · rw [get?_assignAll_of_not_mem hnodup.1, get?_assign, if_pos ⟨rfl, Ne.symm hproto.1⟩]
    · exact ih hnodup.2 hproto.2 h

def pairs : Fields → List (String × Json)
  | .nil => []
  | .cons k v fs => (k, v) :: pairs fs

theorem map_fst_pairs (fs : Fields) : (pairs fs).map Prod.fst = keysOf fs := by
  fun_induction pairs fs with
  | case1 => rfl
  | case2 k v fs ih => rw [List.map_cons, ih, keysOf]

theorem pairs_set (h : k ∉ keysOf fs) : pairs (fs.set k v) = pairs fs ++ [(k, v)] := by
  fun_induction Fields.set fs k v with
  | case1 => rfl
  | case2 w fs => simp [keysOf] at h
  | case3 l w fs hne ih =>
    simp only [keysOf, List.mem_cons, not_or] at h
    simp [pairs, ih h.2]

theorem pairs_assignAll (hnodup : (ps.map Prod.fst).Nodup)
    (hproto : "__proto__" ∉ ps.map Prod.fst) (hfresh : ∀ k ∈ ps.map Prod.fst, k ∉ keysOf fs) :
    pairs (assignAll ps fs) = pairs fs ++ ps := by
  induction ps generalizing fs with
  | nil => simp [assignAll]
  | cons p ps ih =>
    rw [List.map_cons, List.nodup_cons] at hnodup
    rw [List.map_cons, List.mem_cons, not_or] at hproto
    have hset : assign fs p.1 p.2 = fs.set p.1 p.2 := if_neg (Ne.symm hproto.1)
    have hhead := hfresh p.1 List.mem_cons_self
    have hrest : ∀ k ∈ ps.map Prod.fst, k ∉ keysOf (fs.set p.1 p.2) := by
      intro k hk
      rw [keysOf_set, if_neg hhead, List.mem_append, List.mem_singleton, not_or]
      exact ⟨hfresh k (List.mem_cons_of_mem _ hk), fun heq => hnodup.1 (heq ▸ hk)⟩
    rw [assignAll_cons, hset, ih hnodup.2 hproto.2 hrest, pairs_set hhead, List.append_assoc]
    rfl

end Keys

section Names

variable (now : Nat)

def targets : Fields → Fields → List (String × Json)
  | .nil, _ => []
  | .cons requestedName config rest, existingServers =>
    let resolvedName := resolveNonConflictingMcpName now requestedName existingServers
    (resolvedName, config) :: targets rest (assign existingServers resolvedName config)

def Avoids : Fields → Fields → Prop
  | .nil, _ => True
  | .cons requestedName config rest, existingServers =>
    ((∀ i < 1000, isIn (candidate requestedName i) existingServers = true) →
      existingServers.get? (requestedName ++ "--a2w-" ++ toString now) = none) ∧
    Avoids rest (assign existingServers (resolveNonConflictingMcpName now requestedName existingServers) config)

variable {now} {number : ℚ → String} {requested existing : Fields}

theorem targets_cons (name : String) (config : Json) (rest existing : Fields) :
    targets now (.cons name config rest) existing = (resolveNonConflictingMcpName now name existing, config) ::
        targets now rest (assign existing (resolveNonConflictingMcpName now name existing) config) := rfl

theorem inject_cons (name : String) (config : Json) (rest : Fields) (acc : Injection) :
    inject number now (.cons name config rest) acc = inject number now rest
        ⟨assign acc.existingServers (resolveNonConflictingMcpName now name acc.existingServers) config,
          assign acc.managedServers (resolveNonConflictingMcpName now name acc.existingServers)
            (.str (fingerprint number config)),
          assign acc.entries (resolveNonConflictingMcpName now name acc.existingServers) config⟩ := rfl

theorem inject_eq (requested : Fields) (acc : Injection) : inject number now requested acc =
      ⟨assignAll (targets now requested acc.existingServers) acc.existingServers,
        assignAll ((targets now requested acc.existingServers).map fun p => (p.1, .str (fingerprint number p.2)))
          acc.managedServers,
        assignAll (targets now requested acc.existingServers) acc.entries⟩ := by
  fun_induction pairs requested generalizing acc with
  | case1 => rfl
  | case2 name config rest ih =>
    rw [inject_cons, ih, targets_cons, List.map_cons, assignAll_cons, assignAll_cons, assignAll_cons]

theorem length_targets (requested existing : Fields) :
    (targets now requested existing).length = (pairs requested).length := by
  fun_induction pairs requested generalizing existing with
  | case1 => rfl
  | case2 name config rest ih => rw [targets_cons, List.length_cons, List.length_cons, ih]

theorem forall₂_targets (requested existing : Fields) :
    List.Forall₂ (fun t p : String × Json => t.2 = p.2) (targets now requested existing) (pairs requested) := by
  fun_induction pairs requested generalizing existing with
  | case1 => exact .nil
  | case2 name config rest ih =>
    rw [targets_cons]
    exact .cons rfl (ih _)

theorem not_isIn {name : String} {fs : Fields} (h : isIn name fs = false) :
    fs.get? name = none ∧ name ≠ "__proto__" := by
  simp only [isIn, Bool.or_eq_false_iff] at h
  refine ⟨by simpa using h.1, ?_⟩
  rintro rfl
  exact absurd h.2 (by decide)

theorem dated_ne_proto (name : String) (now : Nat) : name ++ "--a2w-" ++ toString now ≠ "__proto__" := by
  intro h
  have hmem : '-' ∈ (name ++ "--a2w-" ++ toString now).toList := by
    rw [String.toList_append, String.toList_append]
    exact List.mem_append_left _ (List.mem_append_right _ (by decide))
  rw [h] at hmem
  exact absurd hmem (by decide)

theorem resolve_ne_proto (name : String) (fs : Fields) : resolveNonConflictingMcpName now name fs ≠ "__proto__" := by
  unfold resolveNonConflictingMcpName
  split
  · rename_i i hi
    have hfree := List.find?_some hi
    exact (not_isIn (by simpa using hfree)).2
  · exact dated_ne_proto name now

theorem get?_resolve_iff {name : String} {fs : Fields} : fs.get? (resolveNonConflictingMcpName now name fs) = none ↔
      ((∀ i < 1000, isIn (candidate name i) fs = true) → fs.get? (name ++ "--a2w-" ++ toString now) = none) := by
  unfold resolveNonConflictingMcpName
  split
  · rename_i i hi
    have hfree : isIn (candidate name i) fs = false := by simpa using List.find?_some hi
    refine iff_of_true (not_isIn hfree).1 fun hall => ?_
    have hlt := List.mem_range.mp (List.mem_of_find?_eq_some hi)
    rw [hall i hlt] at hfree
    cases hfree
  · rename_i hnone
    have hall : ∀ i < 1000, isIn (candidate name i) fs = true := by
      intro i hi
      simpa using List.find?_eq_none.mp hnone i (List.mem_range.mpr hi)
    exact ⟨fun h _ => h, fun h => h hall⟩

theorem proto_not_target (requested existing : Fields) :
    "__proto__" ∉ (targets now requested existing).map Prod.fst := by
  fun_induction pairs requested generalizing existing with
  | case1 => simp [targets]
  | case2 name config rest ih =>
    have hproto := @resolve_ne_proto now name existing
    rw [targets_cons, List.map_cons, List.mem_cons, not_or]
    generalize resolveNonConflictingMcpName now name existing = resolvedName at hproto ⊢
    exact ⟨Ne.symm hproto, ih _⟩

theorem avoids_iff : Avoids now requested existing ↔ ((targets now requested existing).map Prod.fst).Nodup ∧
      ∀ t ∈ (targets now requested existing).map Prod.fst, existing.get? t = none := by
  fun_induction pairs requested generalizing existing with
  | case1 => simp [Avoids, targets]
  | case2 name config rest ih =>
    rw [Avoids, ← get?_resolve_iff, ih, targets_cons, List.map_cons, List.nodup_cons]
    have hproto := @resolve_ne_proto now name existing
    generalize resolveNonConflictingMcpName now name existing = resolvedName at hproto ⊢
    have hname : ∀ t, (assign existing resolvedName config).get? t = none ↔
        t ≠ resolvedName ∧ existing.get? t = none := by
      intro t
      rw [get?_assign]
      by_cases ht : resolvedName = t
      · rw [if_pos ⟨ht, hproto⟩]
        simp [ht]
      · rw [if_neg fun h => ht h.1]
        simp [Ne.symm ht]
    constructor
    · rintro ⟨hfree, hnodup, hrest⟩
      refine ⟨⟨fun hmem => ((hname _).mp (hrest _ hmem)).1 rfl, hnodup⟩, ?_⟩
      intro t ht
      rcases List.mem_cons.mp ht with rfl | ht
      · exact hfree
      · exact ((hname t).mp (hrest t ht)).2
    · rintro ⟨⟨hfresh, hnodup⟩, hall⟩
      refine ⟨hall _ List.mem_cons_self, hnodup, ?_⟩
      intro t ht
      exact (hname t).mpr ⟨fun heq => hfresh (heq ▸ ht), hall t (List.mem_cons_of_mem _ ht)⟩

end Names

section User

variable (number : ℚ → String)

def Listed : Fields → String → String → Prop
  | .nil, _, _ => False
  | .cons k (.str text') rest, name, text => k = name ∧ text' = text ∨ Listed rest name text
  | .cons _ _ rest, name, text => Listed rest name text

def UserEntry (managed config : Fields) (name : String) (entry : Json) : Prop :=
  (serversOf config).get? name = some entry ∧ ¬ Listed managed name (fingerprint number entry)

variable {number} {managed servers : Fields} {name : String} {entry : Json}

theorem get?_removeManaged_iff : (removeManaged number managed servers).get? name = some entry ↔
    servers.get? name = some entry ∧ ¬ Listed managed name (fingerprint number entry) := by
  fun_induction removeManaged number managed servers with
  | case1 servers => simp [Listed]
  | case2 k text rest servers ih =>
    rw [ih, Listed]
    by_cases hk : k = name
    · subst hk
      by_cases hsame : (servers.get? k).map (fingerprint number) = some text
      · rw [if_pos hsame, Fields.get?_erase, if_pos rfl]
        constructor
        · rintro ⟨hnone, -⟩
          cases hnone
        · rintro ⟨hget, hnot⟩
          rw [hget] at hsame
          exact absurd (.inl ⟨rfl, (Option.some.inj hsame).symm⟩) hnot
      · rw [if_neg hsame]
        constructor
        · rintro ⟨hget, hnot⟩
          refine ⟨hget, ?_⟩
          rintro (⟨-, htext⟩ | hrest)
          · rw [hget, htext] at hsame
            exact hsame rfl
          · exact hnot hrest
        · rintro ⟨hget, hnot⟩
          exact ⟨hget, fun hrest => hnot (.inr hrest)⟩
    · have hget : (if (servers.get? k).map (fingerprint number) = some text then servers.erase k
          else servers).get? name = servers.get? name := by
        split
        · rw [Fields.get?_erase, if_neg hk]
        · rfl
      rw [hget]
      simp [hk]
  | case3 k v rest servers hv ih =>
    rw [ih, Listed]
    exact hv

theorem listed_mem_keysOf {text : String} (h : Listed managed name text) : name ∈ keysOf managed := by
  fun_induction Listed managed name text with
  | case1 => exact h.elim
  | case2 k text' rest name text ih =>
    rcases h with ⟨rfl, -⟩ | h
    · exact List.mem_cons_self
    · exact List.mem_cons_of_mem _ (ih h)
  | case3 k v rest name text hv ih => exact List.mem_cons_of_mem _ (ih h)

end User

section RoundTrip

variable (number : ℚ → String) (now : Nat) (processInstanceId : String) (servers : List ResolvedMcpServer)
  (dialect : McpConfigDialect) (files : Files)

def Delivers : Prop :=
  let plan := planFor number now processInstanceId servers dialect files
  ∃ names : List String, names.Nodup ∧ List.Forall₂ (fun name p => (serversOf plan.nextConfig).get? name = some p.2 ∧
      plan.nextManagedMarker.managedServers.get? name = some (.str (fingerprint number p.2)))
      names (usable servers dialect)

def KeepsUser : Prop :=
  let plan := planFor number now processInstanceId servers dialect files
  (∀ name entry, UserEntry number files.managed files.record name entry →
      (serversOf plan.nextConfig).get? name = some entry) ∧
    (∀ key, key ≠ "mcpServers" → plan.nextConfig.get? key = files.record.get? key) ∧
    ∀ v, files.record.get? "mcpServers" = some v → (∀ fs, v ≠ .obj fs) → plan.nextConfig.get? "mcpServers" = some v

def CleansUp : Prop :=
  let left := (cleanup number processInstanceId (sync number now processInstanceId servers dialect files)).record
  (∀ key, key ≠ "mcpServers" → left.get? key = files.record.get? key) ∧
    ∀ name entry, (serversOf left).get? name = some entry ↔ UserEntry number files.managed files.record name entry

/-- The names of the usable servers make keys, each its own; `mcpServers` is a record where there is one; and the
name with the date is free where it is needed. -/
structure Deliverable : Prop where
  distinct : ((usable servers dialect).map Prod.fst).Nodup
  ordinary : "__proto__" ∉ (usable servers dialect).map Prod.fst
  record : ∀ v, files.record.get? "mcpServers" = some v → ∃ fs, v = .obj fs
  avoids : Avoids now (buildManagedMcpServers servers dialect)
    (removeManaged number files.managed (serversOf files.record))

def written : List (String × Json) :=
  targets now (buildManagedMcpServers servers dialect)
    (removeManaged number files.managed (serversOf files.record))

variable {number now processInstanceId servers dialect files}

theorem serversOf_planFor : serversOf (planFor number now processInstanceId servers dialect files).nextConfig =
    assignAll (written number now servers dialect files)
      (removeManaged number files.managed (serversOf files.record)) := by
  simp only [planFor, planSync, serversOf_set, inject_eq]
  rfl

theorem managed_planFor :
    (planFor number now processInstanceId servers dialect files).nextManagedMarker.managedServers =
      assignAll ((written number now servers dialect files).map fun p => (p.1, .str (fingerprint number p.2)))
        .nil := by
  simp only [planFor, planSync, inject_eq]
  rfl

theorem get?_planFor {key : String} (h : key ≠ "mcpServers") :
    (planFor number now processInstanceId servers dialect files).nextConfig.get? key = files.record.get? key := by
  simp only [planFor, planSync, Fields.get?_set, if_neg (Ne.symm h)]
  rfl

theorem names_fingerprints (number : ℚ → String) (ps : List (String × Json)) :
    (ps.map fun p => (p.1, Json.str (fingerprint number p.2))).map Prod.fst = ps.map Prod.fst := by
  rw [List.map_map]
  rfl

theorem cleanup_sync :
    let plan := planFor number now processInstanceId servers dialect files
    let left := (cleanup number processInstanceId (sync number now processInstanceId servers dialect files)).record
    serversOf left = removeManaged number plan.nextManagedMarker.managedServers (serversOf plan.nextConfig) ∧
      ∀ key, key ≠ "mcpServers" → left.get? key = plan.nextConfig.get? key := by
  intro plan
  have hmarker : Fingerprinted plan.nextManagedMarker.managedServers :=
    (planSync_injected now processInstanceId (buildManagedMcpServers servers dialect)
      (fun _ _ h => h)).2
  have howns : ownsManagedMarker processInstanceId plan.nextManagedMarker = true := by
    simp [ownsManagedMarker, plan, planFor, planSync]
  have hcleanup : cleanup number processInstanceId (sync number now processInstanceId servers dialect files) =
      ⟨dropFile (strip number plan.nextManagedMarker plan.nextConfig), .absent⟩ := by
    simp only [cleanup, sync]
    rw [readManagedMarker_toJson hmarker]
    simp only [if_pos howns]
    rfl
  rw [hcleanup]
  generalize plan.nextManagedMarker = marker
  generalize plan.nextConfig = config
  unfold strip
  dsimp only
  split
  · rename_i hgone
    simp only [Bool.and_eq_true, decide_eq_true_eq] at hgone
    obtain ⟨⟨-, hnil⟩, honly⟩ := hgone
    refine ⟨hnil.symm, fun key hkey => ?_⟩
    have hother : ∀ fs : Fields, hasOnlyMcpServers fs = true → fs.get? key = none := by
      intro fs
      fun_induction hasOnlyMcpServers fs with
      | case1 => exact fun _ => rfl
      | case2 k v rest ih =>
        intro h
        rw [Bool.and_eq_true, decide_eq_true_eq] at h
        rw [Fields.get?, if_neg fun heq => hkey (heq.symm.trans h.1), ih h.2]
    exact (hother config honly).symm
  · refine ⟨serversOf_set _ _, fun key hkey => ?_⟩
    exact (Fields.get?_set ..).trans (if_neg (Ne.symm hkey))

theorem written_marked {name : String} {entry : Json}
    (hnodup : ((written number now servers dialect files).map Prod.fst).Nodup)
    (h : (name, entry) ∈ written number now servers dialect files) :
    (serversOf (planFor number now processInstanceId servers dialect files).nextConfig).get? name = some entry ∧
      (planFor number now processInstanceId servers dialect files).nextManagedMarker.managedServers.get? name =
        some (.str (fingerprint number entry)) := by
  have hproto : "__proto__" ∉ (written number now servers dialect files).map Prod.fst := proto_not_target _ _
  rw [serversOf_planFor, managed_planFor]
  refine ⟨get?_assignAll_of_mem hnodup hproto h, ?_⟩
  rw [← names_fingerprints number] at hnodup hproto
  exact get?_assignAll_of_mem hnodup hproto (List.mem_map_of_mem h)

theorem cleaned_of_mem {name : String} (hnodup : ((written number now servers dialect files).map Prod.fst).Nodup)
    (h : name ∈ (written number now servers dialect files).map Prod.fst) :
    let plan := planFor number now processInstanceId servers dialect files
    (removeManaged number plan.nextManagedMarker.managedServers (serversOf plan.nextConfig)).get? name = none := by
  obtain ⟨⟨name, entry⟩, hmem, rfl⟩ := List.mem_map.mp h
  obtain ⟨hserver, hmarked⟩ := @written_marked number now processInstanceId servers dialect files name entry hnodup hmem
  exact removeManaged_erases hmarked hserver

theorem cleaned_of_not_mem {name : String} (h : name ∉ (written number now servers dialect files).map Prod.fst) :
    let plan := planFor number now processInstanceId servers dialect files
    (removeManaged number plan.nextManagedMarker.managedServers (serversOf plan.nextConfig)).get? name =
      (removeManaged number files.managed (serversOf files.record)).get? name := by
  intro plan
  have hget : (serversOf plan.nextConfig).get? name =
      (removeManaged number files.managed (serversOf files.record)).get? name := by
    rw [serversOf_planFor, get?_assignAll_of_not_mem h]
  have hkeys : name ∉ keysOf plan.nextManagedMarker.managedServers := by
    rw [← get?_eq_none_iff, managed_planFor, get?_assignAll_of_not_mem (by rwa [names_fingerprints])]
    rfl
  refine Option.ext fun entry => ?_
  rw [get?_removeManaged_iff, hget]
  exact ⟨fun h => h.1, fun h => ⟨h, fun hlisted => hkeys (listed_mem_keysOf hlisted)⟩⟩

theorem pairs_buildManaged (h : ((usable servers dialect).map Prod.fst).Nodup)
    (hproto : "__proto__" ∉ (usable servers dialect).map Prod.fst) :
    pairs (buildManagedMcpServers servers dialect) = usable servers dialect := by
  rw [buildManaged_eq, pairs_assignAll h hproto fun _ _ => List.not_mem_nil]
  rfl

theorem distinct_of_delivers (h : Delivers number now processInstanceId servers dialect files) :
    ((usable servers dialect).map Prod.fst).Nodup ∧ "__proto__" ∉ (usable servers dialect).map Prod.fst ∧
      ((written number now servers dialect files).map Prod.fst).Nodup := by
  obtain ⟨names, hnodup, hentries⟩ := h
  have hwritten := length_assignAll
    ((written number now servers dialect files).map fun p => (p.1, Json.str (fingerprint number p.2))) .nil
  have husable := length_assignAll (usable servers dialect) .nil
  rw [← @managed_planFor number now processInstanceId servers dialect files, names_fingerprints,
    List.length_map] at hwritten
  rw [← buildManaged_eq] at husable
  have hlength : names.length ≤ (keysOf
      (planFor number now processInstanceId servers dialect files).nextManagedMarker.managedServers).length := by
    refine (List.subperm_of_subset hnodup fun name hname => ?_).length_le
    obtain ⟨i, hi, rfl⟩ := List.mem_iff_getElem.mp hname
    have hmarked := (hentries.get hi (hentries.length_eq ▸ hi)).2
    rw [List.get_eq_getElem] at hmarked
    by_contra hnot
    rw [get?_eq_none_iff.mpr hnot] at hmarked
    cases hmarked
  have htargets : (written number now servers dialect files).length =
      (keysOf (buildManagedMcpServers servers dialect)).length := by
    rw [written, length_targets, ← map_fst_pairs, List.length_map]
  have hnames := hentries.length_eq
  have hnil : (keysOf Fields.nil).length = 0 := rfl
  obtain ⟨hdistinct, hproto, -⟩ := husable.2 (by omega)
  exact ⟨hdistinct, hproto, (hwritten.2 (by omega)).1⟩

/-- A sync and its cleanup deliver all servers and keep what the user wrote, just when the names of the servers
make keys of their own, and `mcpServers` is no other value than a record. -/
theorem round_trip_iff : Delivers number now processInstanceId servers dialect files ∧
        KeepsUser number now processInstanceId servers dialect files ∧
        CleansUp number now processInstanceId servers dialect files ↔
      Deliverable number now servers dialect files := by
  have hcleanup := @cleanup_sync number now processInstanceId servers dialect files
  dsimp only at hcleanup
  constructor
  · rintro ⟨hdelivers, hkeeps, hcleans⟩
    obtain ⟨hdistinct, hordinary, hnodup⟩ := distinct_of_delivers hdelivers
    refine ⟨hdistinct, hordinary, fun v hv => ?_, avoids_iff.mpr ⟨hnodup, fun name hname => ?_⟩⟩
    · by_contra hnot
      have hkept := hkeeps.2.2 v hv fun fs heq => hnot ⟨fs, heq⟩
      simp only [planFor, planSync, Fields.get?_set, if_true, Option.some.injEq] at hkept
      exact hnot ⟨_, hkept.symm⟩
    · by_contra huser
      obtain ⟨entry, hentry⟩ := Option.ne_none_iff_exists'.mp huser
      have hleft := (hcleans.2 name entry).mpr (get?_removeManaged_iff.mp hentry)
      rw [hcleanup.1, cleaned_of_mem hnodup hname] at hleft
      cases hleft
  · rintro ⟨hdistinct, hordinary, hrecord, havoids⟩
    obtain ⟨hnodup, hfree⟩ := avoids_iff.mp havoids
    have hplace : ∀ name entry, UserEntry number files.managed files.record name entry →
        name ∉ (written number now servers dialect files).map Prod.fst := by
      intro name entry huser hname
      have hnone := hfree name hname
      rw [get?_removeManaged_iff.mpr huser] at hnone
      cases hnone
    refine ⟨⟨(written number now servers dialect files).map Prod.fst, hnodup, ?_⟩, ⟨?_, ?_, ?_⟩, ?_, ?_⟩
    · have hall := @forall₂_targets now (buildManagedMcpServers servers dialect)
        (removeManaged number files.managed (serversOf files.record))
      rw [pairs_buildManaged hdistinct hordinary] at hall
      rw [List.forall₂_map_left_iff]
      refine (List.forall₂_iff_get.mpr ⟨hall.length_eq, fun i hi hj => ?_⟩)
      have hsame := hall.get hi hj
      rw [← hsame]
      exact written_marked hnodup (List.get_mem _ _)
    · intro name entry huser
      rw [serversOf_planFor, get?_assignAll_of_not_mem (hplace name entry huser)]
      exact get?_removeManaged_iff.mpr huser
    · exact fun key hkey => get?_planFor hkey
    · intro v hv hnot
      obtain ⟨fs, hfs⟩ := hrecord v hv
      exact absurd hfs (hnot fs)
    · exact fun key hkey => (hcleanup.2 key hkey).trans (get?_planFor hkey)
    · intro name entry
      rw [hcleanup.1]
      by_cases hname : name ∈ (written number now servers dialect files).map Prod.fst
      · rw [cleaned_of_mem hnodup hname]
        exact iff_of_false (by simp) fun h => hplace name entry h hname
      · rw [cleaned_of_not_mem hname]
        exact get?_removeManaged_iff

theorem round_trip_same_name :
    let servers : List ResolvedMcpServer :=
      [{ name := "x", type := .stdio, command := some "one" }, { name := "x", type := .stdio, command := some "two" }]
    ¬ (Delivers (fun _ => "0") 0 "a" servers .default ⟨.absent, .absent⟩ ∧
      KeepsUser (fun _ => "0") 0 "a" servers .default ⟨.absent, .absent⟩ ∧
      CleansUp (fun _ => "0") 0 "a" servers .default ⟨.absent, .absent⟩) := by
  intro servers h
  exact absurd (distinct_of_delivers h.1).1 (by decide)

end RoundTrip

end A2Wave.McpSync
