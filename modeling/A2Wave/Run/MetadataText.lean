import A2Wave.Lib.Jsonb
import A2Wave.Run.Metadata

/-! `mergeExecutionMetadata` of `lib/merge-execution-metadata.ts` with the texts that its compare-and-set
compares: the column of each dialect as the database prints it, and `JSON.stringify` of what was read. -/

namespace A2Wave.MetadataText

open JsonText

structure Printers where
  number : ℚ → String
  numeric : ℚ → String
  number_no_blank : ∀ q, (number q).toList.head? ≠ some ' '

/-- `Object.entries` of what `produce` returns; `none` is an explicit `undefined`. -/
structure Produced where
  entries : List (String × Option Json)
  distinct : (entries.map Prod.fst).Nodup

section Definitions

variable (p : Printers) (d : Dialect)

/-- `cast(execution_metadata as text)`. -/
def columnText (v : Fields) : Text :=
  match d with
  | .sqlite => stringify p.number (.obj v)
  | .postgres => jsonbText p.numeric (.obj v)

def matchesText (expected stored : Option Fields) : Bool :=
  match expected with
  | none => stored.isNone
  | some expected => stored.any fun v => columnText p d v = stringify p.number (.obj expected)

def kept (v : Fields) : Fields :=
  match d with
  | .sqlite => v
  | .postgres => jsonbFields v

/-- `merged[key] = value`: `__proto__` is a property only where it was one before. -/
def assignKey (merged : Fields) (key : String) : Option Json → Fields
  | none => merged.erase key
  | some value => if key = "__proto__" && (merged.get? key).isNone then merged else merged.set key value

def mergeFields (base : Fields) (entries : List (String × Option Json)) : Fields :=
  entries.foldl (fun merged entry => assignKey merged entry.1 entry.2) base

inductive Outcome
  | gone
  | written
  | conflict
  deriving DecidableEq

def mergeOnce (db : Db) (runId : String) (produce : Fields → Produced) : Tx Outcome :=
  match db.runs.find? runId with
  | none => .ok (.gone, db)
  | some current =>
    let base := current.executionMetadata.getD .nil
    let merged := mergeFields base (produce base).entries
    if d = .postgres && !jsonbAcceptsFields merged then .error (.error "unsupported Unicode escape sequence")
    else
      match db.casRun runId (fun r => matchesText p d current.executionMetadata r.executionMetadata)
        (fun r => { r with executionMetadata := some (kept d merged) }) (fun _ => rfl) with
      | some db' => .ok (.written, db')
      | none => .ok (.conflict, db)

def mergeAttempts (runId : String) (produce : Fields → Produced) : Nat → Db → Tx Bool
  | 0, db => .ok (false, db)
  | attempts + 1, db =>
    match mergeOnce p d db runId produce with
    | .error e => .error e
    | .ok (.gone, db) => .ok (false, db)
    | .ok (.written, db) => .ok (true, db)
    | .ok (.conflict, db) => mergeAttempts runId produce attempts db

def mergeExecutionMetadata (db : Db) (runId : String) (produce : Fields → Produced) : Tx Bool :=
  mergeAttempts p d runId produce maxMergeAttempts db

def overridden (base : Fields) (entries : List (String × Option Json)) (key : String) : Option Json :=
  match entries.find? (·.1 = key) with
  | some entry => entry.2
  | none => base.get? key

def Merges (db : Db) (r : Run) (produce : Fields → Produced) : Prop :=
  ∃ db' merged, mergeExecutionMetadata p d db r.id produce = .ok (true, db') ∧ (∀ key, merged.get? key =
      overridden (r.executionMetadata.getD .nil) (produce (r.executionMetadata.getD .nil)).entries key) ∧
    db'.runs.find? r.id = some { r with executionMetadata := some (kept d merged) } ∧
    ∀ other, other ≠ r.id → db'.runs.find? other = db.runs.find? other

/-- `produce` gives no `__proto__` that the base does not have. -/
def NoPrototype (base : Fields) (entries : List (String × Option Json)) : Prop :=
  ∀ value, ("__proto__", some value) ∈ entries → (base.get? "__proto__").isSome = true

def Storable (entries : List (String × Option Json)) : Prop :=
  ∀ key value, (key, some value) ∈ entries → nulFree key = true ∧ jsonbAccepts value = true

end Definitions

section Keys

variable {base merged : Fields} {entries : List (String × Option Json)} {key other : String} {value : Option Json}

theorem get?_assignKey_ne (hne : key ≠ other) : (assignKey merged key value).get? other = merged.get? other := by
  cases value with
  | none => rw [assignKey, Fields.get?_erase, if_neg hne]
  | some value =>
    rw [assignKey]
    split
    · rfl
    · rw [Fields.get?_set, if_neg hne]

theorem get?_assignKey_self (hproto : key = "__proto__" → value.isSome = true → (merged.get? key).isSome = true) :
    (assignKey merged key value).get? key = value := by
  cases value with
  | none => rw [assignKey, Fields.get?_erase, if_pos rfl]
  | some value =>
    rw [assignKey, if_neg, Fields.get?_set, if_pos rfl]
    intro hskip
    obtain ⟨hkey, hnone⟩ := Bool.and_eq_true_iff.mp hskip
    have hsome := hproto (of_decide_eq_true hkey) rfl
    rw [Option.isNone_iff_eq_none.mp hnone] at hsome
    cases hsome

theorem get?_assignKey_congr {merged' : Fields} (h : merged.get? key = merged'.get? key) :
    (assignKey merged key value).get? key = (assignKey merged' key value).get? key := by
  cases value with
  | none => simp only [assignKey, Fields.get?_erase, if_true]
  | some value =>
    simp only [assignKey, h]
    split
    · exact h
    · simp only [Fields.get?_set, if_true]

theorem mergeFields_cons (entry : String × Option Json) :
    mergeFields base (entry :: entries) = mergeFields (assignKey base entry.1 entry.2) entries := rfl

theorem get?_mergeFields_of_notMem (h : key ∉ entries.map Prod.fst) :
    (mergeFields base entries).get? key = base.get? key := by
  induction entries generalizing base with
  | nil => rfl
  | cons entry entries ih =>
    rw [List.map_cons, List.mem_cons, not_or] at h
    rw [mergeFields_cons, ih h.2, get?_assignKey_ne (Ne.symm h.1)]

theorem get?_mergeFields_of_mem (hnodup : (entries.map Prod.fst).Nodup) (hmem : (key, value) ∈ entries) :
    (mergeFields base entries).get? key = (assignKey base key value).get? key := by
  induction entries generalizing base with
  | nil => cases hmem
  | cons entry entries ih =>
    rw [List.map_cons, List.nodup_cons] at hnodup
    rw [mergeFields_cons]
    rcases List.mem_cons.mp hmem with rfl | hrest
    · exact get?_mergeFields_of_notMem hnodup.1
    · have hne : entry.1 ≠ key := by
        rintro rfl
        exact hnodup.1 (List.mem_map.mpr ⟨_, hrest, rfl⟩)
      rw [ih hnodup.2 hrest]
      exact get?_assignKey_congr (get?_assignKey_ne hne)

theorem overridden_of_mem (hnodup : (entries.map Prod.fst).Nodup) (hmem : (key, value) ∈ entries) :
    overridden base entries key = value := by
  unfold overridden
  cases hfind : entries.find? (·.1 = key) with
  | none =>
    have hnot := List.find?_eq_none.mp hfind _ hmem
    simp at hnot
  | some entry =>
    have hkey : entry.1 = key := by simpa using List.find?_some hfind
    have heq : entry = (key, value) :=
      List.inj_on_of_nodup_map hnodup (List.mem_of_find?_eq_some hfind) hmem hkey
    rw [heq]

theorem overridden_of_notMem (h : key ∉ entries.map Prod.fst) : overridden base entries key = base.get? key := by
  unfold overridden
  rw [List.find?_eq_none.mpr]
  intro entry hentry hkey
  exact h (List.mem_map.mpr ⟨entry, hentry, by simpa using hkey⟩)

theorem mergeFields_overrides (hnodup : (entries.map Prod.fst).Nodup) (hproto : NoPrototype base entries)
    (key : String) : (mergeFields base entries).get? key = overridden base entries key := by
  by_cases hmem : key ∈ entries.map Prod.fst
  · obtain ⟨⟨key, value⟩, hentry, rfl⟩ := List.mem_map.mp hmem
    rw [get?_mergeFields_of_mem hnodup hentry, overridden_of_mem hnodup hentry]
    apply get?_assignKey_self
    intro hkey hsome
    obtain ⟨v, rfl⟩ := Option.isSome_iff_exists.mp hsome
    have hkey : key = "__proto__" := hkey
    subst hkey
    exact hproto v hentry
  · rw [get?_mergeFields_of_notMem hmem, overridden_of_notMem hmem]

theorem noPrototype_of_isSome (hnodup : (entries.map Prod.fst).Nodup)
    (hkeys : ((mergeFields base entries).get? "__proto__").isSome = (overridden base entries "__proto__").isSome) :
    NoPrototype base entries := by
  intro value hmem
  rw [get?_mergeFields_of_mem hnodup hmem, overridden_of_mem hnodup hmem] at hkeys
  by_contra hnone
  have hskip : base.get? "__proto__" = none := by simpa using hnone
  simp [assignKey, hskip] at hkeys

end Keys

section Storable

variable {entries : List (String × Option Json)} {key : String} {value : Json}

theorem jsonbAccepts_set {fs : Fields} (hfs : jsonbAcceptsFields fs = true) (hkey : nulFree key = true)
    (hvalue : jsonbAccepts value = true) : jsonbAcceptsFields (fs.set key value) = true := by
  fun_induction Fields.set fs key value with
  | case1 => simp [jsonbAcceptsFields, hkey, hvalue]
  | case2 w fs =>
    simp only [jsonbAcceptsFields, Bool.and_eq_true] at hfs ⊢
    exact ⟨⟨hfs.1.1, hvalue⟩, hfs.2⟩
  | case3 l w fs hne ih =>
    simp only [jsonbAcceptsFields, Bool.and_eq_true] at hfs ⊢
    exact ⟨hfs.1, ih hfs.2⟩

theorem jsonbAccepts_erase {fs : Fields} (hfs : jsonbAcceptsFields fs = true) :
    jsonbAcceptsFields (fs.erase key) = true := by
  fun_induction Fields.erase fs key with
  | case1 => rfl
  | case2 w fs ih =>
    simp only [jsonbAcceptsFields, Bool.and_eq_true] at hfs
    exact ih hfs.2
  | case3 l w fs hne ih =>
    simp only [jsonbAcceptsFields, Bool.and_eq_true] at hfs ⊢
    exact ⟨hfs.1, ih hfs.2⟩

theorem jsonbAccepts_get? {fs : Fields} (hfs : jsonbAcceptsFields fs = true) (hget : fs.get? key = some value) :
    nulFree key = true ∧ jsonbAccepts value = true := by
  fun_induction Fields.get? fs key with
  | case1 => cases hget
  | case2 v fs =>
    simp only [jsonbAcceptsFields, Bool.and_eq_true] at hfs
    cases hget
    exact hfs.1
  | case3 l w fs hne ih =>
    simp only [jsonbAcceptsFields, Bool.and_eq_true] at hfs
    exact ih hfs.2 hget

theorem jsonbAccepts_mergeFields {base : Fields} (hbase : jsonbAcceptsFields base = true) (h : Storable entries) :
    jsonbAcceptsFields (mergeFields base entries) = true := by
  induction entries generalizing base with
  | nil => exact hbase
  | cons entry entries ih =>
    rw [mergeFields_cons]
    apply ih _ fun key value hmem => h key value (List.mem_cons_of_mem _ hmem)
    obtain ⟨key, value⟩ := entry
    cases value with
    | none => exact jsonbAccepts_erase hbase
    | some value =>
      obtain ⟨hkey, hvalue⟩ := h key value List.mem_cons_self
      simp only [assignKey]
      split
      · exact hbase
      · exact jsonbAccepts_set hbase hkey hvalue

theorem jsonbAccepts_mergeFields_iff (hnodup : (entries.map Prod.fst).Nodup) (hproto : NoPrototype .nil entries) :
    jsonbAcceptsFields (mergeFields .nil entries) = true ↔ Storable entries := by
  constructor
  · intro haccepts key value hmem
    have hget := mergeFields_overrides hnodup hproto key
    rw [overridden_of_mem hnodup hmem] at hget
    exact jsonbAccepts_get? haccepts hget
  · exact jsonbAccepts_mergeFields rfl

end Storable

section Merge

variable {p : Printers} {d : Dialect} {db db' : Db} {r : Run} {produce : Fields → Produced} {outcome : Outcome}

theorem matchesText_self_iff (v : Option Fields) :
    matchesText p d v v = true ↔ d = .sqlite ∨ v = none ∨ v = some .nil := by
  cases v with
  | none => exact iff_of_true rfl (.inr (.inl rfl))
  | some v =>
    cases d with
    | sqlite => exact iff_of_true (by simp [matchesText, columnText]) (.inl rfl)
    | postgres =>
      have htext : columnText p .postgres v = stringify p.number (.obj v) ↔ v = .nil ∧ v = .nil :=
        jsonbText_eq_stringify_iff p.number_no_blank v v
      rw [matchesText, Option.any_some, decide_eq_true_iff, htext]
      simp

theorem get?_kept_isSome (v : Fields) (key : String) : ((kept d v).get? key).isSome = (v.get? key).isSome := by
  cases d with
  | sqlite => rfl
  | postgres => simp [kept, get?_jsonbFields]

def mergedOf (produce : Fields → Produced) (r : Run) : Fields :=
  mergeFields (r.executionMetadata.getD .nil) (produce (r.executionMetadata.getD .nil)).entries

theorem mergeOnce_rejects (hrow : db.runs.find? r.id = some r) (hd : d = .postgres)
    (hrejects : jsonbAcceptsFields (mergedOf produce r) = false) :
    mergeOnce p d db r.id produce = .error (.error "unsupported Unicode escape sequence") := by
  unfold mergeOnce
  rw [hrow]
  dsimp only
  rw [if_pos]
  rw [mergedOf] at hrejects
  simp [hd, hrejects]

theorem mergeOnce_stored (hrow : db.runs.find? r.id = some r)
    (hstored : d = .postgres → jsonbAcceptsFields (mergedOf produce r) = true) :
    mergeOnce p d db r.id produce =
      match db.casRun r.id (fun row => matchesText p d r.executionMetadata row.executionMetadata)
        (fun row => { row with executionMetadata := some (kept d (mergedOf produce r)) }) (fun _ => rfl) with
      | some db' => .ok (.written, db')
      | none => .ok (.conflict, db) := by
  unfold mergeOnce
  rw [hrow]
  dsimp only
  rw [if_neg]
  · rfl
  · intro hboth
    obtain ⟨hd, hrejects⟩ := Bool.and_eq_true_iff.mp hboth
    rw [mergedOf] at hstored
    rw [hstored (of_decide_eq_true hd)] at hrejects
    cases hrejects

theorem mergeAttempts_conflict (h : mergeOnce p d db r.id produce = .ok (.conflict, db)) (attempts : Nat) :
    mergeAttempts p d r.id produce attempts db = .ok (false, db) := by
  induction attempts with
  | zero => rfl
  | succ attempts ih =>
    rw [mergeAttempts, h]
    exact ih

end Merge

/-- Without another writer, a merge takes effect exactly when the dialect is SQLite or the column was empty and
takes what is produced, and no new property is called `__proto__`. -/
theorem merges_iff (p : Printers) (d : Dialect) (db : Db) (r : Run) (produce : Fields → Produced)
    (hrow : db.runs.find? r.id = some r) :
    Merges p d db r produce ↔ (d = .sqlite ∨ (r.executionMetadata = none ∨ r.executionMetadata = some .nil) ∧
        Storable (produce .nil).entries) ∧
      NoPrototype (r.executionMetadata.getD .nil) (produce (r.executionMetadata.getD .nil)).entries := by
  have hnodup := (produce (r.executionMetadata.getD .nil)).distinct
  have hempty (h : r.executionMetadata = none ∨ r.executionMetadata = some .nil) :
      r.executionMetadata.getD .nil = .nil := by
    rcases h with h | h <;> rw [h] <;> rfl
  by_cases hrejects : d = .postgres ∧ jsonbAcceptsFields (mergedOf produce r) = false
  · -- the write throws
    refine iff_of_false ?_ ?_
    · rintro ⟨db', merged, hmerge, -⟩
      rw [mergeExecutionMetadata, maxMergeAttempts, mergeAttempts, mergeOnce_rejects hrow hrejects.1 hrejects.2] at hmerge
      cases hmerge
    · rintro ⟨hsqlite | ⟨hnone, hstorable⟩, -⟩
      · rw [hrejects.1] at hsqlite
        cases hsqlite
      · have hnil : jsonbAcceptsFields .nil = true := rfl
        have haccepts := jsonbAccepts_mergeFields hnil hstorable
        rw [mergedOf, hempty hnone] at hrejects
        rw [hrejects.2] at haccepts
        cases haccepts
  · have hstored : d = .postgres → jsonbAcceptsFields (mergedOf produce r) = true := fun hd =>
      Bool.eq_true_of_not_eq_false fun hfalse => hrejects ⟨hd, hfalse⟩
    have honce := mergeOnce_stored (p := p) hrow hstored
    cases hcas : db.casRun r.id (fun row => matchesText p d r.executionMetadata row.executionMetadata)
        (fun row => { row with executionMetadata := some (kept d (mergedOf produce r)) }) (fun _ => rfl) with
    | none =>
      -- the texts differ
      rw [hcas] at honce
      have hnot := Db.casRun_eq_none_iff.mp hcas r hrow
      refine iff_of_false ?_ ?_
      · rintro ⟨db', merged, hmerge, -⟩
        rw [mergeExecutionMetadata, mergeAttempts_conflict honce] at hmerge
        cases hmerge
      · rintro ⟨hmatch, -⟩
        have hself : matchesText p d r.executionMetadata r.executionMetadata = true := by
          rw [matchesText_self_iff]
          exact hmatch.imp_right And.left
        rw [hself] at hnot
        cases hnot
    | some db' =>
      rw [hcas] at honce
      obtain ⟨row, hfound, hmatch, hnew, hframe⟩ := Db.casRun_find? hcas
      obtain rfl := Option.some.inj (hfound.symm.trans hrow)
      have hmerge : mergeExecutionMetadata p d db row.id produce = .ok (true, db') := by
        rw [mergeExecutionMetadata, maxMergeAttempts, mergeAttempts, honce]
      constructor
      · rintro ⟨db'', merged, hmerge', hoverrides, hrow', -⟩
        rw [hmerge] at hmerge'
        obtain rfl := (Prod.mk.inj (Except.ok.inj hmerge')).2
        rw [hnew] at hrow'
        have hkept : kept d (mergedOf produce row) = kept d merged :=
          Option.some.inj (congrArg Run.executionMetadata (Option.some.inj hrow'))
        have hproto : NoPrototype (row.executionMetadata.getD .nil)
            (produce (row.executionMetadata.getD .nil)).entries := by
          apply noPrototype_of_isSome hnodup
          rw [← hoverrides, ← get?_kept_isSome (d := d) merged, ← hkept, get?_kept_isSome, mergedOf]
        refine ⟨?_, hproto⟩
        rcases (matchesText_self_iff _).mp hmatch with hsqlite | hnone
        · exact .inl hsqlite
        · cases d with
          | sqlite => exact .inl rfl
          | postgres =>
            right
            refine ⟨hnone, ?_⟩
            have haccepts := hstored rfl
            rw [mergedOf] at haccepts
            rw [hempty hnone] at haccepts hproto hnodup
            exact (jsonbAccepts_mergeFields_iff hnodup hproto).mp haccepts
      · rintro ⟨-, hproto⟩
        exact ⟨db', _, hmerge, mergeFields_overrides hnodup hproto, hnew, hframe⟩

def wholeNumbers : Printers where
  number := fun q => if q = 0 then "0" else "1"
  numeric := fun q => if q = 0 then "0" else "1"
  number_no_blank := by
    intro q
    split <;> decide

def resumingDb : Db where
  runs := ⟨[{ id := "run_1", status := .running, executionMetadata := some (.ofList [("resumeAttempts", .num 1)]) }],
    by decide⟩

def liveSession : Produced where
  entries := [("liveChatId", some (.str "chat_1"))]
  distinct := by decide

theorem merges_iff_sqlite : Merges wholeNumbers .sqlite resumingDb
      { id := "run_1", status := .running, executionMetadata := some (.ofList [("resumeAttempts", .num 1)]) }
      (fun _ => liveSession) := by
  apply (merges_iff _ _ _ _ _ rfl).mpr
  refine ⟨.inl rfl, ?_⟩
  intro value hmem
  have hmem : ("__proto__", some value) ∈ [("liveChatId", some (Json.str "chat_1"))] := hmem
  simp at hmem

theorem live_session_dropped_on_postgres :
    mergeExecutionMetadata wholeNumbers .postgres resumingDb "run_1" (fun _ => liveSession) =
      .ok (false, resumingDb) :=
  rfl

end A2Wave.MetadataText
