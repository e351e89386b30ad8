import Mathlib.Algebra.BigOperators.Group.List.Basic
import Mathlib.Algebra.Ring.Rat
import Mathlib.Data.Int.Cast.Basic
import A2Wave.Db.Schema
import A2Wave.Lib.Fault
import A2Wave.Lib.Transition

/-! `recordUsageOnce` of `lib/run-lifecycle.ts`: the tokens of a step, and their sum in the row of its run.
Token counts are whole numbers. -/

namespace A2Wave.Usage

open Transition

inductive TokenField
  | inputTokens
  | outputTokens
  | reasoningTokens
  | cacheReadTokens
  | cacheWriteTokens
  deriving DecidableEq

def TokenField.name : TokenField → String
  | inputTokens => "inputTokens"
  | outputTokens => "outputTokens"
  | reasoningTokens => "reasoningTokens"
  | cacheReadTokens => "cacheReadTokens"
  | cacheWriteTokens => "cacheWriteTokens"

structure TokenUsage where
  inputTokens : Option ℤ := none
  outputTokens : Option ℤ := none
  reasoningTokens : Option ℤ := none
  cacheReadTokens : Option ℤ := none
  cacheWriteTokens : Option ℤ := none
  deriving DecidableEq

namespace TokenUsage

def get (usage : TokenUsage) : TokenField → Option ℤ
  | .inputTokens => usage.inputTokens
  | .outputTokens => usage.outputTokens
  | .reasoningTokens => usage.reasoningTokens
  | .cacheReadTokens => usage.cacheReadTokens
  | .cacheWriteTokens => usage.cacheWriteTokens

def field (usage : TokenUsage) (f : TokenField) : List (String × Json) :=
  ((usage.get f).map fun n => (f.name, Json.num n)).toList

def toJson (usage : TokenUsage) : Json :=
  .obj (.ofList (usage.field .inputTokens ++ usage.field .outputTokens ++ usage.field .reasoningTokens ++
    usage.field .cacheReadTokens ++ usage.field .cacheWriteTokens))

/-- `COALESCE(column, 0) + n` for each field that is there. -/
def add (column n : Option ℤ) : Option ℤ :=
  match n with
  | some n => some (column.getD 0 + n)
  | none => column

end TokenUsage

structure RunUsage where
  id : String
  tokens : TokenUsage := {}
  deriving DecidableEq

instance : Keyed RunUsage String := ⟨RunUsage.id⟩

structure Store where
  runs : Table RunUsage := .empty
  runSteps : Table RunStep := .empty

def buildRunUsageSet (usage : TokenUsage) (run : RunUsage) : RunUsage :=
  { run with
    tokens :=
      { inputTokens := TokenUsage.add run.tokens.inputTokens usage.inputTokens
        outputTokens := TokenUsage.add run.tokens.outputTokens usage.outputTokens
        reasoningTokens := TokenUsage.add run.tokens.reasoningTokens usage.reasoningTokens
        cacheReadTokens := TokenUsage.add run.tokens.cacheReadTokens usage.cacheReadTokens
        cacheWriteTokens := TokenUsage.add run.tokens.cacheWriteTokens usage.cacheWriteTokens } }

/-- `jsonSet` on a column that holds an object or `NULL`. -/
def jsonSet (column : Option Fields) (key : String) (value : Json) : Option Fields :=
  some ((column.getD .nil).set key value)

def jsonPathIsAbsent (column : Option Fields) (key : String) : Bool := (column.bind (·.get? key)).isNone

def disappeared (runId stepId : String) : String :=
  s!"Run \"{runId}\" disappeared while recording usage for step \"{stepId}\""

def writeUsage (usage : TokenUsage) (row : RunStep) : RunStep :=
  { row with output := jsonSet row.output "usage" usage.toJson }

theorem key_buildRunUsageSet (usage : TokenUsage) (run : RunUsage) :
    Keyed.key (buildRunUsageSet usage run) = Keyed.key run := rfl

theorem key_writeUsage (usage : TokenUsage) (row : RunStep) : Keyed.key (writeUsage usage row) = Keyed.key row := rfl

def lacksUsage (row : RunStep) : Bool := jsonPathIsAbsent row.output "usage"

def claimUsage (s : Store) (runId stepId : String) (usage : TokenUsage) : Except String (Bool × Store) :=
  match s.runSteps.cas stepId lacksUsage (writeUsage usage) (key_writeUsage usage) with
  | none => .ok (false, s)
  | some runSteps =>
    match s.runs.cas runId (fun _ => true) (buildRunUsageSet usage) (key_buildRunUsageSet usage) with
    | none => .error (disappeared runId stepId)
    | some runs => .ok (true, { runs := runs, runSteps := runSteps })

/-- `none` when it throws. -/
def recordUsageOnce (fault : Option Fault) (s : Store) (runId stepId : String) (usage : Option TokenUsage) :
    Option Bool × Store :=
  match usage with
  | none => (some false, s)
  | some usage =>
    if usage = {} then (some false, s) else withFault fault s (claimUsage s runId stepId usage)

structure World where
  store : Store := {}
  recorded : List (String × String × TokenUsage) := []

inductive Event
  | insertRun (id : String)
  | insertStep (step : RunStep)
  | deleteRun (id : String)
  | recordUsageOnce (fault : Option Fault) (runId stepId : String) (usage : Option TokenUsage)

def records (fault : Option Fault) (s : Store) (runId stepId : String) (usage : TokenUsage) : Bool :=
  usage ≠ {} && fault ≠ some .rolledBack &&
    match claimUsage s runId stepId usage with
    | .ok (won, _) => won
    | .error _ => false

def step (w : World) : Event → Option World
  | .insertRun id => (w.store.runs.insert { id := id }).map fun runs => { w with store := { w.store with runs := runs } }
  | .insertStep row =>
    -- the foreign key holds, and `createId` never gives an id twice
    if (w.store.runs.find? row.runId).isSome && lacksUsage row && !w.recorded.any (·.2.1 = row.id) then
      (w.store.runSteps.insert row).map fun runSteps => { w with store := { w.store with runSteps := runSteps } }
    else none
  | .deleteRun id =>
    some { w with store :=
      { runs := w.store.runs.deleteWhere (·.id = id), runSteps := w.store.runSteps.deleteWhere (·.runId = id) } }
  | .recordUsageOnce fault runId stepId usage =>
    some
      { store := (recordUsageOnce fault w.store runId stepId usage).2, recorded := w.recorded ++
          (usage.filter (records fault w.store runId stepId)).toList.map fun usage => (runId, stepId, usage) }

def ofItsRun (w : World) : Event → Bool
  | .recordUsageOnce _ runId stepId _ => (w.store.runSteps.find? stepId).all (·.runId = runId)
  | _ => true

def stepTokens (f : TokenField) (row : RunStep) : ℚ :=
  (((row.output.bind (·.get? "usage")).bind (·.get? f.name)).bind Json.asNum?).getD 0

def storedTokens (s : Store) (runId : String) (f : TokenField) : ℚ :=
  ((s.runSteps.select (·.runId = runId)).map (stepTokens f)).sum

section Spec

variable {s s' : Store} {runId stepId : String} {usage : TokenUsage} {won : Bool} {f : TokenField}

theorem get_toJson (usage : TokenUsage) (f : TokenField) :
    usage.toJson.get? f.name = (usage.get f).map fun n => .num n := by
  obtain ⟨input, output, reasoning, cacheRead, cacheWrite⟩ := usage
  cases f with
  | inputTokens => cases input <;> cases output <;> cases reasoning <;> cases cacheRead <;> cases cacheWrite <;> rfl
  | outputTokens => cases input <;> cases output <;> cases reasoning <;> cases cacheRead <;> cases cacheWrite <;> rfl
  | reasoningTokens => cases input <;> cases output <;> cases reasoning <;> cases cacheRead <;> cases cacheWrite <;> rfl
  | cacheReadTokens => cases input <;> cases output <;> cases reasoning <;> cases cacheRead <;> cases cacheWrite <;> rfl
  | cacheWriteTokens => cases input <;> cases output <;> cases reasoning <;> cases cacheRead <;> cases cacheWrite <;> rfl

theorem tokens_buildRunUsageSet (run : RunUsage) : ((((buildRunUsageSet usage run).tokens.get f).getD 0 : ℤ) : ℚ) =
      ((run.tokens.get f).getD 0 : ℤ) + ((usage.get f).getD 0 : ℤ) := by
  have hadd (column n : Option ℤ) : (TokenUsage.add column n).getD 0 = column.getD 0 + n.getD 0 := by
    cases n with
    | none => rw [TokenUsage.add, Option.getD_none, add_zero]
    | some n => rfl
  rw [← Int.cast_add]
  congr 1
  cases f <;> exact hadd _ _

theorem stepTokens_lacks {row : RunStep} (h : lacksUsage row = true) : stepTokens f row = 0 := by
  rw [lacksUsage, jsonPathIsAbsent, Option.isNone_iff_eq_none] at h
  rw [stepTokens, h]
  rfl

theorem get_jsonSet (column : Option Fields) (key : String) (value : Json) :
    (jsonSet column key value).bind (·.get? key) = some value := by
  simp [jsonSet, Fields.get?_set]

theorem stepTokens_writeUsage (row : RunStep) : stepTokens f (writeUsage usage row) = ((usage.get f).getD 0 : ℤ) := by
  rw [stepTokens, writeUsage, get_jsonSet, Option.bind_some, get_toJson]
  cases usage.get f <;> rfl

theorem claimUsage_ok (h : claimUsage s runId stepId usage = .ok (won, s')) : won = false ∧ s' = s ∨
      won = true ∧ ∃ row run, s.runSteps.find? stepId = some row ∧ lacksUsage row = true ∧
        s.runs.find? runId = some run ∧
        s' = { runs := s.runs.updateWhere (fun run => Keyed.key run = runId && true) (buildRunUsageSet usage)
                 (key_buildRunUsageSet usage)
               runSteps := s.runSteps.updateWhere (fun row => Keyed.key row = stepId && lacksUsage row) (writeUsage usage)
                 (key_writeUsage usage) } := by
  unfold claimUsage at h
  split at h
  · cases h
    exact .inl ⟨rfl, rfl⟩
  · rename_i runSteps hsteps
    split at h
    · cases h
    · rename_i runs hruns
      cases h
      obtain ⟨row, hrow, habsent, -⟩ := Table.cas_some hsteps
      obtain ⟨run, hrun, -⟩ := Table.cas_some hruns
      refine .inr ⟨rfl, row, run, hrow, habsent, hrun, ?_⟩
      rw [Table.cas_eq_updateWhere hsteps, Table.cas_eq_updateWhere hruns]

theorem recordUsageOnce_cases (fault : Option Fault) (s : Store) (runId stepId : String) (usage : Option TokenUsage) :
    (recordUsageOnce fault s runId stepId usage).2 = s ∧ usage.filter (records fault s runId stepId) = none ∨
      ∃ u s', usage.filter (records fault s runId stepId) = some u ∧
        claimUsage s runId stepId u = .ok (true, s') ∧ (recordUsageOnce fault s runId stepId usage).2 = s' := by
  cases usage with
  | none => exact .inl ⟨rfl, rfl⟩
  | some u =>
    by_cases hempty : u = {}
    · refine .inl ⟨?_, ?_⟩
      · simp [recordUsageOnce, hempty]
      · simp [Option.filter, records, hempty]
    · simp only [recordUsageOnce, hempty, if_false]
      cases hclaim : claimUsage s runId stepId u with
      | error e =>
        refine .inl ⟨rfl, ?_⟩
        simp [Option.filter, records, hclaim]
      | ok result =>
        obtain ⟨won, s'⟩ := result
        obtain ⟨rfl, rfl⟩ | ⟨rfl, -⟩ := claimUsage_ok hclaim
        · refine .inl ⟨?_, ?_⟩
          · cases fault with
            | none => rfl
            | some fault => cases fault <;> rfl
          · simp [Option.filter, records, hclaim]
        · cases fault with
          | none => exact .inr ⟨u, s', by simp [Option.filter, records, hclaim, hempty], hclaim, rfl⟩
          | some fault =>
            cases fault with
            | rolledBack => exact .inl ⟨rfl, by simp [Option.filter, records]⟩
            | applied => exact .inr ⟨u, s', by simp [Option.filter, records, hclaim, hempty], hclaim, rfl⟩

theorem sum_select (rows : List RunStep) (p : RunStep → Bool) (g : RunStep → ℚ) :
    ((rows.filter p).map g).sum = (rows.map fun row => if p row then g row else 0).sum := by
  induction rows with
  | nil => rfl
  | cons row rows ih =>
    rw [List.filter_cons, List.map_cons, List.sum_cons, ← ih]
    split
    · rw [List.map_cons, List.sum_cons]
    · rw [zero_add]

theorem storedTokens_claim {row : RunStep} (hrow : s.runSteps.find? stepId = some row) (hlacks : lacksUsage row = true)
    (hsteps : s'.runSteps =
      s.runSteps.updateWhere (fun row => Keyed.key row = stepId && lacksUsage row) (writeUsage usage) (key_writeUsage usage))
    (id : String) : storedTokens s' id f =
      storedTokens s id f + if row.runId = id then (((usage.get f).getD 0 : ℤ) : ℚ) else 0 := by
  have hid : Keyed.key row = stepId := Table.find?_some_key hrow
  unfold storedTokens Table.select
  rw [sum_select, sum_select, hsteps]
  have hupdate := Table.sum_map_update (p := fun row => Keyed.key row = stepId && lacksUsage row) (f := writeUsage usage)
    (fun row => if row.runId = id then stepTokens f row else 0) s.runSteps.nodup (Table.find?_mem hrow)
    (by simp [hid, hlacks]) (fun row' _ hrow' => by
      rw [Bool.and_eq_true, decide_eq_true_eq] at hrow'
      exact hrow'.1.trans hid.symm)
  simp only [stepTokens_lacks hlacks, stepTokens_writeUsage, ite_self, add_zero] at hupdate
  simp only [decide_eq_true_eq]
  exact hupdate

end Spec

section Invariant

variable {w w' : World} {runId stepId : String} {usage : TokenUsage}

structure Inv (w : World) : Prop where
  totals : ∀ id run, w.store.runs.find? id = some run → ∀ f,
    (((run.tokens.get f).getD 0 : ℤ) : ℚ) = storedTokens w.store id f
  foreignKey : ∀ row ∈ w.store.runSteps.rows, (w.store.runs.find? row.runId).isSome
  nodup : (w.recorded.map (·.2.1)).Nodup
  recorded : ∀ runId stepId usage, (runId, stepId, usage) ∈ w.recorded → ∀ row, w.store.runSteps.find? stepId = some row →
    row.runId = runId ∧ (row.output.bind (·.get? "usage")) = some usage.toJson
  marked : ∀ row ∈ w.store.runSteps.rows, lacksUsage row = false → ∃ usage, (row.runId, row.id, usage) ∈ w.recorded

theorem lacksUsage_false {row : RunStep} {value : Json} (h : row.output.bind (·.get? "usage") = some value) :
    lacksUsage row = false := by
  rw [lacksUsage, jsonPathIsAbsent, h]
  rfl

theorem storedTokens_congr {s s' : Store} {id : String} {f : TokenField}
    (h : (s'.runSteps.select (·.runId = id)).map (stepTokens f) = (s.runSteps.select (·.runId = id)).map (stepTokens f)) :
    storedTokens s' id f = storedTokens s id f := by
  rw [storedTokens, h, storedTokens]

theorem Inv.insertRun {id : String} {runs : Table RunUsage} (h : Inv w)
    (hinsert : w.store.runs.insert { id := id } = some runs) :
    Inv { w with store := { w.store with runs := runs } } := by
  have hfresh := Table.find?_key_of_insert hinsert
  refine ⟨?_, ?_, h.nodup, h.recorded, h.marked⟩
  · intro id' run hrun f
    rw [Table.find?_insert hinsert] at hrun
    split at hrun
    · rename_i heq
      obtain rfl := Option.some.inj hrun
      -- no step belongs to a run that was not there
      have hnone : w.store.runSteps.select (·.runId = id') = [] := by
        rw [Table.select, List.filter_eq_nil_iff]
        intro row hrow hid
        have hsome := h.foreignKey row hrow
        rw [decide_eq_true_eq.mp hid, ← heq, hfresh] at hsome
        cases hsome
      have hstored : storedTokens { w.store with runs := runs } id' f = 0 := by
        rw [storedTokens, hnone]
        rfl
      rw [hstored]
      cases f <;> rfl
    · exact h.totals id' run hrun f
  · intro row hrow
    obtain ⟨run, hrun⟩ := Option.isSome_iff_exists.mp (h.foreignKey row hrow)
    rw [Table.find?_insert_of_some hinsert hrun]
    rfl

theorem Inv.insertStep {row : RunStep} {runSteps : Table RunStep} (h : Inv w)
    (hrun : (w.store.runs.find? row.runId).isSome) (hlacks : lacksUsage row = true)
    (hfresh : w.recorded.any (·.2.1 = row.id) = false) (hinsert : w.store.runSteps.insert row = some runSteps) :
    Inv { w with store := { w.store with runSteps := runSteps } } := by
  have hrows := Table.rows_insert hinsert
  refine ⟨?_, ?_, h.nodup, ?_, ?_⟩
  · intro id run hid f
    rw [h.totals id run hid f, storedTokens, storedTokens, Table.select, Table.select, hrows, List.filter_append,
      List.map_append, List.sum_append]
    have hnew : ((List.filter (·.runId = id) [row]).map (stepTokens f)).sum = 0 := by
      rw [sum_select]
      simp [stepTokens_lacks hlacks]
    rw [hnew, add_zero]
  · intro row' hrow'
    rw [hrows, List.mem_append] at hrow'
    obtain hrow' | hrow' := hrow'
    · exact h.foreignKey row' hrow'
    · rw [List.mem_singleton.mp hrow']
      exact hrun
  · intro runId stepId usage hmem row' hrow'
    rw [Table.find?_insert hinsert] at hrow'
    split at hrow'
    · rename_i heq
      have hnot := List.any_eq_false.mp hfresh _ hmem
      exact absurd (decide_eq_true heq.symm) hnot
    · exact h.recorded runId stepId usage hmem row' hrow'
  · intro row' hrow' hmarked
    rw [hrows, List.mem_append] at hrow'
    obtain hrow' | hrow' := hrow'
    · exact h.marked row' hrow' hmarked
    · rw [List.mem_singleton.mp hrow', hlacks] at hmarked
      cases hmarked

theorem Inv.deleteRun (h : Inv w) (id : String) : Inv { w with store :=
      { runs := w.store.runs.deleteWhere (·.id = id), runSteps := w.store.runSteps.deleteWhere (·.runId = id) } } := by
  have hrows : ∀ row, row ∈ (w.store.runSteps.deleteWhere (·.runId = id)).rows →
      row ∈ w.store.runSteps.rows ∧ row.runId ≠ id := by
    intro row hrow
    obtain ⟨hmem, hne⟩ := List.mem_filter.mp hrow
    exact ⟨hmem, by simpa using hne⟩
  refine ⟨?_, ?_, h.nodup, ?_, ?_⟩
  · intro id' run hrun f
    rw [Table.find?_deleteWhere, Option.filter_eq_some_iff] at hrun
    have hid : run.id = id' := Table.find?_some_key hrun.1
    have hne : id' ≠ id := by
      rw [← hid]
      simpa using hrun.2
    rw [h.totals id' run hrun.1 f]
    symm
    apply storedTokens_congr
    congr 1
    change ((w.store.runSteps.rows.filter fun row => !decide (row.runId = id)).filter fun row => decide (row.runId = id')) =
      w.store.runSteps.rows.filter fun row => decide (row.runId = id')
    rw [List.filter_filter]
    apply List.filter_congr
    intro row _
    by_cases heq : row.runId = id'
    · simp [heq, hne]
    · simp [heq]
  · intro row hrow
    obtain ⟨hmem, hne⟩ := hrows row hrow
    obtain ⟨run, hrun⟩ := Option.isSome_iff_exists.mp (h.foreignKey row hmem)
    have hid : run.id = row.runId := Table.find?_some_key hrun
    rw [Table.find?_deleteWhere, hrun, Option.filter_some, hid]
    simp [hne]
  · intro runId stepId usage hmem row hrow
    rw [Table.find?_deleteWhere, Option.filter_eq_some_iff] at hrow
    exact h.recorded runId stepId usage hmem row hrow.1
  · intro row hrow hmarked
    exact h.marked row (hrows row hrow).1 hmarked

theorem Inv.claim {store : Store} (h : Inv w) (hclaim : claimUsage w.store runId stepId usage = .ok (true, store))
    (hrun : ∀ row, w.store.runSteps.find? stepId = some row → row.runId = runId) :
    Inv { store := store, recorded := w.recorded ++ [(runId, stepId, usage)] } := by
  obtain ⟨hfalse, -⟩ | ⟨-, row, run, hrow, hlacks, hrunRow, hstore⟩ := claimUsage_ok hclaim
  · cases hfalse
  have hruns : store.runs = w.store.runs.updateWhere (fun run => Keyed.key run = runId && true)
      (buildRunUsageSet usage) (key_buildRunUsageSet usage) := by rw [hstore]
  have hsteps : store.runSteps = w.store.runSteps.updateWhere (fun row => Keyed.key row = stepId && lacksUsage row)
      (writeUsage usage) (key_writeUsage usage) := by rw [hstore]
  have howner := hrun row hrow
  have hrowId : row.id = stepId := Table.find?_some_key hrow
  -- the step has not been recorded before, since it lacks the marker
  have hfresh : ∀ runId' usage', (runId', stepId, usage') ∉ w.recorded := by
    intro runId' usage' hmem
    rw [lacksUsage_false (h.recorded runId' stepId usage' hmem row hrow).2] at hlacks
    cases hlacks
  refine ⟨?_, ?_, ?_, ?_, ?_⟩
  · intro id run' hid f
    rw [hruns, Table.find?_updateWhere, Option.map_eq_some_iff] at hid
    obtain ⟨run₀, hrun₀, rfl⟩ := hid
    have hid₀ : Keyed.key run₀ = id := Table.find?_some_key hrun₀
    rw [storedTokens_claim hrow hlacks hsteps, ← h.totals id run₀ hrun₀ f, hid₀, howner]
    simp only [Bool.and_true, decide_eq_true_eq]
    by_cases heq : id = runId
    · rw [if_pos heq, if_pos heq.symm]
      exact tokens_buildRunUsageSet run₀
    · rw [if_neg heq, if_neg (Ne.symm heq), add_zero]
  · intro row' hrow'
    rw [hsteps] at hrow'
    obtain ⟨row₀, hrow₀, rfl⟩ := List.mem_map.mp hrow'
    have hsame : (if (Keyed.key row₀ = stepId && lacksUsage row₀) = true then writeUsage usage row₀ else row₀).runId =
        row₀.runId := by
      split <;> rfl
    obtain ⟨run₀, hrun₀⟩ := Option.isSome_iff_exists.mp (h.foreignKey row₀ hrow₀)
    rw [hsame, hruns, Table.find?_updateWhere, hrun₀]
    rfl
  · rw [List.map_append, List.nodup_append]
    refine ⟨h.nodup, by simp, ?_⟩
    rintro id hid id' hid' rfl
    obtain ⟨⟨runId', stepId', usage'⟩, hmem, rfl⟩ := List.mem_map.mp hid
    obtain rfl : stepId' = stepId := by simpa using hid'
    exact hfresh runId' usage' hmem
  · intro runId' stepId' usage' hmem row' hrow'
    rw [hsteps, Table.find?_updateWhere, Option.map_eq_some_iff] at hrow'
    obtain ⟨row₀, hrow₀, rfl⟩ := hrow'
    obtain hbefore | hnew := List.mem_append.mp hmem
    · have hother : stepId' ≠ stepId := by
        rintro rfl
        exact hfresh runId' usage' hbefore
      have hsame : ¬ (Keyed.key row₀ = stepId && lacksUsage row₀) = true := by
        simp [Table.find?_some_key hrow₀, hother]
      rw [if_neg hsame]
      exact h.recorded runId' stepId' usage' hbefore row₀ hrow₀
    · cases List.mem_singleton.mp hnew
      obtain rfl := Option.some.inj (hrow.symm.trans hrow₀)
      rw [if_pos (by simp [Table.find?_some_key hrow, hlacks])]
      exact ⟨howner, get_jsonSet _ _ _⟩
  · intro row' hrow' hmarked
    rw [hsteps] at hrow'
    obtain ⟨row₀, hrow₀, rfl⟩ := List.mem_map.mp hrow'
    by_cases hclaimed : (Keyed.key row₀ = stepId && lacksUsage row₀) = true
    · rw [if_pos hclaimed]
      rw [Bool.and_eq_true, decide_eq_true_eq] at hclaimed
      have hsame : row₀ = row :=
        Option.some.inj ((Table.find?_eq_some_iff.mpr ⟨hrow₀, hclaimed.1⟩).symm.trans hrow)
      subst hsame
      refine ⟨usage, List.mem_append_right _ ?_⟩
      rw [← howner, ← hrowId]
      exact List.mem_singleton_self _
    · rw [if_neg hclaimed] at hmarked ⊢
      obtain ⟨usage', hmem⟩ := h.marked row₀ hrow₀ hmarked
      exact ⟨usage', List.mem_append_left _ hmem⟩

theorem inv_step {ev : Event} (h : Inv w) (hok : ofItsRun w ev = true) (hstep : step w ev = some w') : Inv w' := by
  cases ev with
  | insertRun id =>
    obtain ⟨runs, hinsert, rfl⟩ := Option.map_eq_some_iff.mp hstep
    exact h.insertRun hinsert
  | insertStep row =>
    simp only [step] at hstep
    split at hstep
    · rename_i hguard
      obtain ⟨runSteps, hinsert, rfl⟩ := Option.map_eq_some_iff.mp hstep
      simp only [Bool.and_eq_true, Bool.not_eq_true'] at hguard
      exact h.insertStep hguard.1.1 hguard.1.2 hguard.2 hinsert
    · cases hstep
  | deleteRun id =>
    obtain rfl := Option.some.inj hstep
    exact h.deleteRun id
  | recordUsageOnce fault runId stepId usage =>
    obtain rfl := Option.some.inj hstep
    obtain ⟨hstore, hnone⟩ | ⟨usage', store, hsome, hclaim, hstore⟩ :=
      recordUsageOnce_cases fault w.store runId stepId usage
    · rw [hstore, hnone]
      simp only [Option.toList_none, List.map_nil, List.append_nil]
      exact h
    · rw [hstore, hsome]
      refine h.claim hclaim ?_
      intro row hrow
      rw [ofItsRun, hrow] at hok
      simpa using hok

end Invariant

/-- The columns of a run are the sums of what its steps store, and a step is recorded once. -/
theorem usage_is_recorded_once {es : List Event} {w : World} (h : Runs step (fun w ev => ofItsRun w ev = true) {} es w) :
    (∀ id run, w.store.runs.find? id = some run → ∀ f, (((run.tokens.get f).getD 0 : ℤ) : ℚ) =
        ((w.store.runSteps.select fun row => row.runId = id && !lacksUsage row).map (stepTokens f)).sum) ∧
      (w.recorded.map (·.2.1)).Nodup ∧
      ∀ row ∈ w.store.runSteps.rows, lacksUsage row = false ↔
        ∃ usage, (row.runId, row.id, usage) ∈ w.recorded ∧ row.output.bind (·.get? "usage") = some usage.toJson := by
  have hinitial : Inv {} := by
    refine ⟨?_, ?_, List.nodup_nil, ?_, ?_⟩
    · intro id run hrun
      cases hrun
    · intro row hrow
      cases hrow
    · intro runId stepId usage hmem
      cases hmem
    · intro row hrow
      cases hrow
  have hinv := h.invariant (I := Inv) (fun _ _ _ hok hinv hstep => inv_step hinv hok hstep) hinitial
  refine ⟨?_, hinv.nodup, ?_⟩
  · intro id run hrun f
    rw [hinv.totals id run hrun f, storedTokens, Table.select, Table.select, sum_select, sum_select]
    congr 1
    apply List.map_congr_left
    intro row _
    cases hlacks : lacksUsage row with
    | true => simp [stepTokens_lacks hlacks]
    | false => simp
  · intro row hrow
    constructor
    · intro hmarked
      obtain ⟨usage, hmem⟩ := hinv.marked row hrow hmarked
      exact ⟨usage, hmem, (hinv.recorded _ _ usage hmem row (Table.find?_eq_some_iff.mpr ⟨hrow, rfl⟩)).2⟩
    · rintro ⟨usage, -, hstored⟩
      exact lacksUsage_false hstored

theorem usage_is_recorded_once_twice : ∃ w, run step {} [.insertRun "run_1",
      .insertStep { id := "step_1", runId := "run_1", order := 0, status := .running },
      .insertStep { id := "step_2", runId := "run_1", order := 1, status := .running },
      .recordUsageOnce (some .rolledBack) "run_1" "step_1" (some { inputTokens := some 10 }),
      .recordUsageOnce (some .applied) "run_1" "step_1" (some { inputTokens := some 10, outputTokens := some 3 }),
      .recordUsageOnce none "run_1" "step_1" (some { inputTokens := some 10, outputTokens := some 3 }),
      .recordUsageOnce none "run_1" "step_2" (some { inputTokens := some 5 })] = some w ∧
    w.store.runs.rows = [⟨"run_1", { inputTokens := some 15, outputTokens := some 3 }⟩] ∧
      (w.recorded.map (·.2.1)).Nodup := by
  obtain ⟨w, hw, hrows⟩ : ∃ w, run (guarded step fun w ev => ofItsRun w ev = true) {} [.insertRun "run_1",
      .insertStep { id := "step_1", runId := "run_1", order := 0, status := .running },
      .insertStep { id := "step_2", runId := "run_1", order := 1, status := .running },
      .recordUsageOnce (some .rolledBack) "run_1" "step_1" (some { inputTokens := some 10 }),
      .recordUsageOnce (some .applied) "run_1" "step_1" (some { inputTokens := some 10, outputTokens := some 3 }),
      .recordUsageOnce none "run_1" "step_1" (some { inputTokens := some 10, outputTokens := some 3 }),
      .recordUsageOnce none "run_1" "step_2" (some { inputTokens := some 5 })] = some w ∧
      w.store.runs.rows = [⟨"run_1", { inputTokens := some 15, outputTokens := some 3 }⟩] :=
    exists_of_run_any (by decide +kernel)
  exact ⟨w, (Runs.of_guarded hw).toRun, hrows, (usage_is_recorded_once (.of_guarded hw)).2.1⟩

end A2Wave.Usage
