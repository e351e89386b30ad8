import A2Wave.Run.Rows
import Mathlib.Data.Rat.Floor

/-! The retention sweep (`lib/data-retention.ts`), with the artifacts and shares that it reads
(`lib/artifact-storage.ts`, `lib/artifact-share.ts`), among every other writer of these tables. -/

namespace A2Wave.Retention

open Transition

def RETENTION_DELETE_BATCH : Nat := 500

def dayMs : Nat := 24 * 60 * 60 * 1000

structure RetentionPolicy where
  enabled : Bool
  retentionDays : ℚ

/-- `raw` is the setting read by `Number`, where that is finite. -/
def resolveRetentionPolicy (enabled : Option String) (raw : Option ℚ) : RetentionPolicy where
  enabled := enabled ≠ some "false"
  retentionDays := (raw.filter (0 < ·)).getD 60

structure Artifact where
  id : String
  runId : String
  storagePath : String
  deriving DecidableEq

instance : Keyed Artifact String := ⟨Artifact.id⟩

structure ArtifactShare where
  id : String
  artifactId : String
  expiresAt : Nat
  revokedAt : Option Nat := none
  deriving DecidableEq

instance : Keyed ArtifactShare String := ⟨ArtifactShare.id⟩

inductive Phase
  | select
  | purgeArtifactFilesForRuns (ids : List String)
  | unlink (ids : List String) (paths : List String)
  | delete (ids : List String)
  | done
  deriving DecidableEq

/-- A call of `deleteTerminalRunsBefore`.  `batches` counts the rounds of its loop; `backlog` is
the number of runs that were old when it began. -/
structure Sweep where
  cutoff : Int
  now : Nat
  totalDeleted : Nat := 0
  phase : Phase := .select
  batches : Nat := 0
  backlog : Nat
  deriving DecidableEq

structure World where
  db : Db := {}
  artifacts : Table Artifact := .empty
  artifactShares : Table ArtifactShare := .empty
  files : List String := []
  sweeps : List Sweep := []
  used : List String := []
  now : Nat := 0

def active (now : Nat) (s : ArtifactShare) : Bool := s.revokedAt.isNone && now < s.expiresAt

def World.hasActiveShare (w : World) (now : Nat) (runId : String) : Bool :=
  w.artifactShares.rows.any fun s =>
    active now s && (w.artifacts.find? s.artifactId).any fun a => a.runId = runId

def old (cutoff : Int) (r : Run) : Bool := (r.updatedAt : Int) < cutoff

def World.doomed (w : World) (cutoff : Int) (now : Nat) (r : Run) : Bool :=
  r.status.terminal && old cutoff r && !w.hasActiveShare now r.id

def World.deleteRuns (w : World) (ids : List String) : World :=
  let ofRun (artifactId : String) := (w.artifacts.find? artifactId).any fun a => a.runId ∈ ids
  let runs := w.db.runs.deleteWhere fun r => r.id ∈ ids
  let runSteps := w.db.runSteps.deleteWhere fun s => s.runId ∈ ids
  { w with
    db := { w.db with runs := runs, runSteps := runSteps }
    artifacts := w.artifacts.deleteWhere fun a => a.runId ∈ ids
    artifactShares := w.artifactShares.deleteWhere fun s => ofRun s.artifactId }

def World.sweepRuns (w : World) (s : Sweep) (fails : Bool) : World × Sweep :=
  if fails then (w, { s with phase := .done })
  else
    match s.phase with
    | .select =>
      let doomed := (w.db.runs.select (w.doomed s.cutoff s.now)).take RETENTION_DELETE_BATCH
      let s := { s with batches := s.batches + 1 }
      (w, if doomed.isEmpty then { s with phase := .done }
        else { s with phase := .purgeArtifactFilesForRuns (doomed.map Run.id) })
    | .purgeArtifactFilesForRuns ids =>
      let rows := w.artifacts.select fun a => a.runId ∈ ids
      (w, { s with phase := .unlink ids (rows.map Artifact.storagePath) })
    | .unlink ids paths =>
      ({ w with files := w.files.filter (· ∉ paths) }, { s with phase := .delete ids })
    | .delete ids =>
      let res := w.db.runs.select fun r => r.id ∈ ids
      let phase := if ids.length < RETENTION_DELETE_BATCH then .done else .select
      (w.deleteRuns ids, { s with totalDeleted := s.totalDeleted + res.length, phase := phase })
    | .done => (w, s)

def truncate (q : ℚ) : Int := if 0 ≤ q then ⌊q⌋ else ⌈q⌉

def World.backlog (w : World) (cutoff : Int) : Nat := w.db.runs.rows.countP (old cutoff)

def World.runDataRetentionSweep (w : World) (policy : RetentionPolicy) : World :=
  if !policy.enabled then w
  else
    let cutoff := truncate (w.now - policy.retentionDays * dayMs)
    { w with sweeps := w.sweeps ++ [{ cutoff := cutoff, now := w.now, backlog := w.backlog cutoff }] }

inductive ShareAccessLevel
  | «public»
  | password
  | authenticated
  deriving DecidableEq

structure ShareInput where
  id : String
  artifactId : String
  accessLevel : ShareAccessLevel
  password : Option String := none
  expiryDays : Option ℚ := none

def MIN_SHARE_EXPIRY_DAYS : ℚ := 1
def MAX_SHARE_EXPIRY_DAYS : ℚ := 365
def DEFAULT_SHARE_EXPIRY_DAYS : ℚ := 7

def World.createArtifactShare (w : World) (input : ShareInput) : Except String World :=
  let expiryDays := input.expiryDays.getD DEFAULT_SHARE_EXPIRY_DAYS
  if input.accessLevel = .password && (input.password.getD "" = "") then
    .error "Password is required for password-protected shares"
  else if expiryDays < MIN_SHARE_EXPIRY_DAYS || MAX_SHARE_EXPIRY_DAYS < expiryDays then
    .error "expiryDays must be between 1 and 365"
  else if (w.artifacts.find? input.artifactId).isNone then .error "FOREIGN KEY constraint failed"
  else
    let expiresAt := (truncate (w.now + expiryDays * dayMs)).toNat
    match w.artifactShares.insert { id := input.id, artifactId := input.artifactId, expiresAt := expiresAt } with
    | some shares => .ok { w with artifactShares := shares }
    | none => .error "UNIQUE constraint failed: artifact_shares.id"

def World.registerArtifact (w : World) (a : Artifact) : World :=
  if (w.db.runs.find? a.runId).isNone then w
  else
    match w.artifacts.insert a with
    | some artifacts => { w with artifacts := artifacts, files := w.files ++ [a.storagePath] }
    | none => w

def World.revokeShare (w : World) (shareId : String) : World :=
  { w with
    artifactShares := w.artifactShares.updateWhere (·.id = shareId)
      (fun s => { s with revokedAt := some w.now }) (fun _ => rfl) }

def World.deleteStaleShares (w : World) : World :=
  { w with
    artifactShares := w.artifactShares.deleteWhere fun s => s.expiresAt < w.now || s.revokedAt.isSome }

def World.deleteArtifact (w : World) (artifactId : String) : World :=
  { w with
    artifacts := w.artifacts.deleteWhere (·.id = artifactId)
    artifactShares := w.artifactShares.deleteWhere (·.artifactId = artifactId) }

structure Update where
  condition : Run → Bool
  row : Run → Run
  stamps : Bool := true

def Update.write (u : Update) (now : Nat) (r : Run) : Run :=
  { u.row r with
    id := r.id
    status := if u.stamps then (u.row r).status else r.status
    updatedAt := if u.stamps then now else r.updatedAt }

theorem Update.write_id (u : Update) (now : Nat) (r : Run) : (u.write now r).id = r.id := rfl

def World.update (w : World) (u : Update) : World :=
  let runs := w.db.runs.updateWhere u.condition (u.write w.now) (u.write_id w.now)
  { w with db := { w.db with runs := runs } }

def World.insertRun (w : World) (r : Run) : World :=
  { w with db := w.db.createRun { r with updatedAt := w.now }, used := w.used ++ [r.id] }

inductive Event
  | tick (ms : Nat)
  | insertRun (r : Run)
  | update (u : Update)
  | deleteRun (runId : String)
  | registerArtifact (a : Artifact)
  | deleteArtifact (artifactId : String)
  | createArtifactShare (input : ShareInput)
  | revokeShare (shareId : String)
  | deleteStaleShares
  | runDataRetentionSweep (enabled : Option String) (raw : Option ℚ)
  | sweepRuns (i : Nat) (fails : Bool)

def step (w : World) : Event → Option World
  | .tick ms => some { w with now := w.now + ms }
  | .insertRun r => if r.id ∈ w.used then none else some (w.insertRun r)
  | .update u => some (w.update u)
  | .deleteRun runId => some (w.deleteRuns [runId])
  | .registerArtifact a => some (w.registerArtifact a)
  | .deleteArtifact artifactId => some (w.deleteArtifact artifactId)
  | .createArtifactShare input => some ((w.createArtifactShare input).toOption.getD w)
  | .revokeShare shareId => some (w.revokeShare shareId)
  | .deleteStaleShares => some w.deleteStaleShares
  | .runDataRetentionSweep enabled raw => some (w.runDataRetentionSweep (resolveRetentionPolicy enabled raw))
  | .sweepRuns i fails => w.sweeps[i]?.map fun s =>
    let (w', s') := w.sweepRuns s fails
    { w' with sweeps := w'.sweeps.set i s' }

def Sweep.held (s : Sweep) : List String :=
  match s.phase with
  | .purgeArtifactFilesForRuns ids => ids
  | .unlink ids _ => ids
  | .delete ids => ids
  | .select => []
  | .done => []

/-- The next step of sweep `i` deletes this row. -/
def Deletes (w : World) (i : Nat) (s : Sweep) (r : Run) : Prop :=
  w.sweeps[i]? = some s ∧ ∃ ids, s.phase = .delete ids ∧ r.id ∈ ids ∧ w.db.runs.find? r.id = some r

/-- No run that a sweep holds is written by an update that stamps it, and no share of an artifact of
such a run is created. -/
def undisturbed (w : World) : Event → Bool
  | .update u => w.sweeps.all fun s => s.held.all fun k =>
    (w.db.runs.find? k).all fun r => !(u.condition r && u.stamps)
  | .createArtifactShare input =>
    match w.createArtifactShare input, w.artifacts.find? input.artifactId with
    | .ok _, some a => w.sweeps.all fun s => a.runId ∉ s.held
    | _, _ => true
  | _ => true

def Undisturbed (w : World) (e : Event) : Prop := undisturbed w e = true

instance (w : World) (e : Event) : Decidable (Undisturbed w e) := inferInstanceAs (Decidable (_ = true))

section Shares

variable {w w' : World} {now now' : Nat} {k : String}

theorem hasActiveShare_iff : w.hasActiveShare now k = true ↔ ∃ s ∈ w.artifactShares.rows, ∃ a,
    w.artifacts.find? s.artifactId = some a ∧ active now s = true ∧ a.runId = k := by
  simp only [World.hasActiveShare, List.any_eq_true, Bool.and_eq_true, Option.any_eq_true,
    decide_eq_true_eq]
  constructor
  · rintro ⟨s, hs, hactive, a, ha, hk⟩
    exact ⟨s, hs, a, ha, hactive, hk⟩
  · rintro ⟨s, hs, a, ha, hactive, hk⟩
    exact ⟨s, hs, hactive, a, ha, hk⟩

theorem active_of_later {s : ArtifactShare} (hnow : now ≤ now') (h : active now' s = true) : active now s = true := by
  simp only [active, Bool.and_eq_true, decide_eq_true_eq] at *
  exact ⟨h.1, by omega⟩

theorem hasActiveShare_mono
    (hshares : ∀ s ∈ w'.artifactShares.rows, active now' s = true → ∀ a,
      w'.artifacts.find? s.artifactId = some a → ∃ s₀ ∈ w.artifactShares.rows,
        active now s₀ = true ∧ ∃ a₀, w.artifacts.find? s₀.artifactId = some a₀ ∧ a₀.runId = a.runId)
    (h : w'.hasActiveShare now' k = true) : w.hasActiveShare now k = true := by
  obtain ⟨s, hs, a, ha, hactive, hk⟩ := hasActiveShare_iff.mp h
  obtain ⟨s₀, hs₀, hactive₀, a₀, ha₀, hrun⟩ := hshares s hs hactive a ha
  exact hasActiveShare_iff.mpr ⟨s₀, hs₀, a₀, ha₀, hactive₀, hrun.trans hk⟩

end Shares

structure Spares (ids : List String) (w w' : World) : Prop where
  runs : ∀ k ∈ ids, ∀ r', w'.db.runs.find? k = some r' → ∃ r, w.db.runs.find? k = some r ∧
    r'.status = r.status ∧ r'.updatedAt = r.updatedAt
  shares : ∀ k ∈ ids, w'.hasActiveShare w'.now k = true → w.hasActiveShare w.now k = true

structure Sound (w : World) : Prop where
  shares : ∀ s ∈ w.artifactShares.rows, (w.artifacts.find? s.artifactId).isSome = true
  used : ∀ k r, w.db.runs.find? k = some r → k ∈ w.used
  held : ∀ s ∈ w.sweeps, ∀ k ∈ s.held, k ∈ w.used
  cutoffs : ∀ s ∈ w.sweeps, s.cutoff ≤ s.now ∧ s.now ≤ w.now

def Doomed (w : World) : Prop :=
  ∀ s ∈ w.sweeps, ∀ k ∈ s.held, ∀ r, w.db.runs.find? k = some r → w.doomed s.cutoff w.now r = true

section Doomed

variable {w w' : World} {ids : List String} {k : String}

theorem doomed_iff {cutoff : Int} {now : Nat} {r : Run} : w.doomed cutoff now r = true ↔
    r.status.terminal = true ∧ old cutoff r = true ∧ w.hasActiveShare now r.id = false := by
  simp [World.doomed, and_assoc]

theorem Spares.doomed {cutoff : Int} {r' : Run} (h : Spares ids w w') (hk : k ∈ ids)
    (hr' : w'.db.runs.find? k = some r')
    (hdoomed : ∀ r, w.db.runs.find? k = some r → w.doomed cutoff w.now r = true) :
    w'.doomed cutoff w'.now r' = true := by
  obtain ⟨r, hr, hstatus, hupdated⟩ := h.runs k hk r' hr'
  obtain ⟨hterminal, hold, hshare⟩ := doomed_iff.mp (hdoomed r hr)
  have hid : r.id = k := Table.find?_some_key hr
  have hid' : r'.id = k := Table.find?_some_key hr'
  refine doomed_iff.mpr ⟨by rw [hstatus, hterminal], by rw [old, hupdated]; exact hold, ?_⟩
  rw [hid'] 
  rw [hid] at hshare
  by_contra hnew
  rw [h.shares k hk (by simpa using hnew)] at hshare
  cases hshare

theorem spares_of_tables (hruns : w'.db.runs = w.db.runs) (hartifacts : w'.artifacts = w.artifacts)
    (hshares : w'.artifactShares = w.artifactShares) (hnow : w.now ≤ w'.now) : Spares ids w w' := by
  refine ⟨?_, ?_⟩
  · intro k _ r' hr'
    rw [hruns] at hr'
    exact ⟨r', hr', rfl, rfl⟩
  · intro k _
    apply hasActiveShare_mono
    intro s hs hactive a ha
    rw [hshares] at hs
    rw [hartifacts] at ha
    exact ⟨s, hs, active_of_later hnow hactive, a, ha, rfl⟩

theorem find?_of_deleteWhere {ρ κ : Type} [Keyed ρ κ] [DecidableEq κ] {t : Table ρ} {p : ρ → Bool}
    {i : κ} {r : ρ} (h : (t.deleteWhere p).find? i = some r) : t.find? i = some r ∧ p r = false := by
  rw [Table.find?_deleteWhere, Option.filter_eq_some_iff] at h
  simpa using h

theorem mem_of_deleteWhere {ρ κ : Type} [Keyed ρ κ] {t : Table ρ} {p : ρ → Bool} {r : ρ}
    (h : r ∈ (t.deleteWhere p).rows) : r ∈ t.rows ∧ p r = false := by
  simpa [Table.deleteWhere] using h

theorem spares_deleteRuns (ids' : List String) : Spares ids w (w.deleteRuns ids') := by
  refine ⟨?_, ?_⟩
  · intro k _ r' hr'
    exact ⟨r', (find?_of_deleteWhere hr').1, rfl, rfl⟩
  · intro k _
    apply hasActiveShare_mono
    intro s hs hactive a ha
    exact ⟨s, (mem_of_deleteWhere hs).1, hactive, a, (find?_of_deleteWhere ha).1, rfl⟩

theorem spares_deleteArtifact (artifactId : String) : Spares ids w (w.deleteArtifact artifactId) := by
  refine ⟨fun k _ r' hr' => ⟨r', hr', rfl, rfl⟩, ?_⟩
  intro k _
  apply hasActiveShare_mono
  intro s hs hactive a ha
  exact ⟨s, (mem_of_deleteWhere hs).1, hactive, a, (find?_of_deleteWhere ha).1, rfl⟩

theorem spares_deleteStaleShares : Spares ids w w.deleteStaleShares := by
  refine ⟨fun k _ r' hr' => ⟨r', hr', rfl, rfl⟩, ?_⟩
  intro k _
  apply hasActiveShare_mono
  intro s hs hactive a ha
  exact ⟨s, (mem_of_deleteWhere hs).1, hactive, a, ha, rfl⟩

theorem spares_revokeShare (shareId : String) : Spares ids w (w.revokeShare shareId) := by
  refine ⟨fun k _ r' hr' => ⟨r', hr', rfl, rfl⟩, ?_⟩
  intro k _
  apply hasActiveShare_mono
  intro s hs hactive a ha
  simp only [World.revokeShare, Table.updateWhere, List.mem_map] at hs
  obtain ⟨s₀, hs₀, rfl⟩ := hs
  split at hactive
  · simp [active] at hactive
  · rename_i hother
    rw [if_neg hother] at ha
    exact ⟨s₀, hs₀, hactive, a, ha, rfl⟩

theorem spares_registerArtifact (a : Artifact) (h : Sound w) : Spares ids w (w.registerArtifact a) := by
  rw [World.registerArtifact]
  split
  · exact spares_of_tables rfl rfl rfl le_rfl
  · split
    · rename_i artifacts hins
      refine ⟨fun k _ r' hr' => ⟨r', hr', rfl, rfl⟩, ?_⟩
      intro k _
      apply hasActiveShare_mono
      intro s hs hactive b hb
      obtain ⟨b₀, hb₀⟩ := Option.isSome_iff_exists.mp (h.shares s hs)
      have hkept := Table.find?_insert_of_some hins hb₀
      obtain rfl := Option.some.inj (hkept.symm.trans hb)
      exact ⟨s, hs, hactive, b₀, hb₀, rfl⟩
    · exact spares_of_tables rfl rfl rfl le_rfl

theorem createArtifactShare_cases {input : ShareInput} (h : w.createArtifactShare input = .ok w') :
    ∃ a share shares, w.artifacts.find? input.artifactId = some a ∧ share.artifactId = input.artifactId ∧
      w.artifactShares.insert share = some shares ∧ w' = { w with artifactShares := shares } := by
  rw [World.createArtifactShare] at h
  dsimp only at h
  split at h
  · cases h
  split at h
  · cases h
  split at h
  · cases h
  rename_i hartifact
  split at h
  · rename_i shares hins
    cases h
    obtain ⟨a, ha⟩ := Option.isSome_iff_exists.mp (by simpa [Option.isSome_iff_ne_none] using hartifact)
    exact ⟨a, _, shares, ha, rfl, hins, rfl⟩
  · cases h

theorem spares_createArtifactShare {input : ShareInput} (h : w.createArtifactShare input = .ok w')
    (hfree : ∀ a, w.artifacts.find? input.artifactId = some a → a.runId ∉ ids) : Spares ids w w' := by
  obtain ⟨a, share, shares, ha, hartifact, hins, rfl⟩ := createArtifactShare_cases h
  refine ⟨fun k _ r' hr' => ⟨r', hr', rfl, rfl⟩, ?_⟩
  intro k hk hshared
  obtain ⟨s, hs, b, hb, hactive, hrun⟩ := hasActiveShare_iff.mp hshared
  simp only [Table.rows_insert hins, List.mem_append, List.mem_singleton] at hs
  obtain hold | rfl := hs
  · exact hasActiveShare_iff.mpr ⟨s, hold, b, hb, hactive, hrun⟩
  · rw [hartifact] at hb
    exact absurd (hrun ▸ hk) (hfree b hb)

theorem spares_update {u : Update}
    (hfree : ∀ k ∈ ids, ∀ r, w.db.runs.find? k = some r → u.condition r = true → u.stamps = false) :
    Spares ids w (w.update u) := by
  refine ⟨?_, fun k _ h => h⟩
  intro k hk r' hr'
  simp only [World.update, Table.find?_updateWhere, Option.map_eq_some_iff] at hr'
  obtain ⟨r, hr, rfl⟩ := hr'
  refine ⟨r, hr, ?_⟩
  split
  · rename_i hcond
    simp [Update.write, hfree k hk r hr hcond]
  · exact ⟨rfl, rfl⟩

theorem spares_insertRun {r : Run} (hnew : r.id ∉ ids) : Spares ids w (w.insertRun r) := by
  refine ⟨?_, fun k _ h => h⟩
  intro k hk r' hr'
  have hne : k ≠ r.id := fun heq => hnew (heq ▸ hk)
  have hold : (w.insertRun r).db.runs.find? k = w.db.runs.find? k := find?_createRun hne
  rw [hold] at hr'
  exact ⟨r', hr', rfl, rfl⟩

end Doomed

section Invariants

variable {w w' : World} {e : Event}

inductive SweepStep (w : World) (s : Sweep) : World → Sweep → Prop
  | ends : SweepStep w s w { s with phase := .done }
  | drained : s.phase = .select → SweepStep w s w { s with batches := s.batches + 1, phase := .done }
  | selects {rows : List Run} : s.phase = .select → rows ≠ [] →
      (∀ r ∈ rows, r ∈ w.db.runs.rows ∧ w.doomed s.cutoff s.now r = true) →
      SweepStep w s w
        { s with batches := s.batches + 1, phase := .purgeArtifactFilesForRuns (rows.map Run.id) }
  | purges {ids paths} : s.phase = .purgeArtifactFilesForRuns ids →
      SweepStep w s w { s with phase := .unlink ids paths }
  | unlinks {ids paths files} : s.phase = .unlink ids paths →
      SweepStep w s { w with files := files } { s with phase := .delete ids }
  | deletes {ids total phase} : s.phase = .delete ids → phase = .select ∨ phase = .done →
      SweepStep w s (w.deleteRuns ids) { s with totalDeleted := total, phase := phase }

theorem sweepStep (w : World) (s : Sweep) (fails : Bool) :
    SweepStep w s (w.sweepRuns s fails).1 (w.sweepRuns s fails).2 := by
  rw [World.sweepRuns]
  split
  · exact .ends
  split
  · rename_i hphase
    dsimp only
    split
    · exact .drained hphase
    · rename_i hsome
      refine .selects hphase ?_ ?_
      · simpa using hsome
      · intro r hr
        exact List.mem_filter.mp (List.mem_of_mem_take hr)
  · rename_i ids hphase
    exact .purges hphase
  · rename_i ids paths hphase
    exact .unlinks hphase
  · rename_i ids hphase
    refine .deletes hphase ?_
    split
    · exact .inr rfl
    · exact .inl rfl
  · rename_i hphase
    have hdone : { s with phase := .done } = s := by rw [← hphase]
    have hends : SweepStep w s w { s with phase := .done } := .ends
    rw [hdone] at hends
    exact hends

variable {s s' : Sweep}

theorem SweepStep.held (h : SweepStep w s w' s') {k : String} (hk : k ∈ s'.held) :
    k ∈ s.held ∨ ∃ r ∈ w.db.runs.rows, r.id = k ∧ w.doomed s.cutoff s.now r = true := by
  cases h with
  | ends => cases hk
  | drained => cases hk
  | selects _ _ hrows =>
    obtain ⟨r, hr, rfl⟩ := List.mem_map.mp hk
    exact .inr ⟨r, (hrows r hr).1, rfl, (hrows r hr).2⟩
  | purges hphase | unlinks hphase =>
    refine .inl ?_
    rw [Sweep.held, hphase]
    exact hk
  | deletes _ hphase => obtain rfl | rfl := hphase <;> cases hk

theorem SweepStep.clock (h : SweepStep w s w' s') :
    s'.cutoff = s.cutoff ∧ s'.now = s.now ∧ w'.sweeps = w.sweeps ∧ w'.now = w.now ∧ w'.used = w.used := by
  cases h <;> exact ⟨rfl, rfl, rfl, rfl, rfl⟩

theorem SweepStep.spares (h : SweepStep w s w' s') (ids : List String) : Spares ids w w' := by
  cases h with
  | deletes => exact spares_deleteRuns _
  | _ => exact spares_of_tables rfl rfl rfl le_rfl

theorem Sound.of (h : Sound w)
    (hshares : ∀ s ∈ w'.artifactShares.rows, (w'.artifacts.find? s.artifactId).isSome = true)
    (hused : ∀ k r, w'.db.runs.find? k = some r → k ∈ w'.used) (hkept : w.used ⊆ w'.used)
    (hsweeps : w'.sweeps = w.sweeps) (hnow : w.now ≤ w'.now) : Sound w' := by
  refine ⟨hshares, hused, ?_, ?_⟩
  · intro s hs k hk
    rw [hsweeps] at hs
    exact hkept (h.held s hs k hk)
  · intro s hs
    rw [hsweeps] at hs
    obtain ⟨hcutoff, hs⟩ := h.cutoffs s hs
    exact ⟨hcutoff, hs.trans hnow⟩

theorem Sound.deleteRuns (h : Sound w) (ids : List String) : Sound (w.deleteRuns ids) := by
  refine h.of ?_ ?_ (List.Subset.refl _) rfl le_rfl
  · intro s hs
    obtain ⟨hs, hfree⟩ := mem_of_deleteWhere hs
    obtain ⟨a, ha⟩ := Option.isSome_iff_exists.mp (h.shares s hs)
    simp only [ha] at hfree
    have hkept : (w.deleteRuns ids).artifacts.find? s.artifactId = some a := by
      simp only [World.deleteRuns, Table.find?_deleteWhere, ha]
      simpa using hfree
    rw [hkept]
    rfl
  · intro k r hr
    exact h.used k r (find?_of_deleteWhere hr).1

theorem Sound.deleteArtifact (h : Sound w) (artifactId : String) : Sound (w.deleteArtifact artifactId) := by
  refine h.of ?_ h.used (List.Subset.refl _) rfl le_rfl
  intro s hs
  obtain ⟨hs, hother⟩ := mem_of_deleteWhere hs
  obtain ⟨a, ha⟩ := Option.isSome_iff_exists.mp (h.shares s hs)
  have hid : a.id = s.artifactId := Table.find?_some_key ha
  have hkept : (w.deleteArtifact artifactId).artifacts.find? s.artifactId = some a := by
    simp only [World.deleteArtifact, Table.find?_deleteWhere, ha]
    simpa [hid] using hother
  rw [hkept]
  rfl

theorem Sound.set {i : Nat} (h : Sound w) (hs : w.sweeps[i]? = some s)
    (hcutoff : s'.cutoff = s.cutoff) (hnow : s'.now = s.now) (hheld : ∀ k ∈ s'.held, k ∈ w.used) :
    Sound { w with sweeps := w.sweeps.set i s' } := by
  refine ⟨h.shares, h.used, ?_, ?_⟩
  · intro u hu k hk
    obtain hold | rfl := List.mem_or_eq_of_mem_set hu
    · exact h.held u hold k hk
    · exact hheld k hk
  · intro u hu
    obtain hold | rfl := List.mem_or_eq_of_mem_set hu
    · exact h.cutoffs u hold
    · rw [hcutoff, hnow]
      exact h.cutoffs s (List.mem_of_getElem? hs)

theorem Sound.sweepRuns {i : Nat} (h : Sound w) (hi : w.sweeps[i]? = some s)
    (hstep : SweepStep w s w' s') : Sound { w' with sweeps := w'.sweeps.set i s' } := by
  obtain ⟨hcutoff, hnow, hsweeps, -, hused⟩ := hstep.clock
  have hkept : Sound w' := by
    cases hstep with
    | deletes => exact h.deleteRuns _
    | unlinks => exact h.of h.shares h.used (List.Subset.refl _) rfl le_rfl
    | _ => exact h
  have hs := List.mem_of_getElem? hi
  rw [← hsweeps] at hi
  apply hkept.set hi hcutoff hnow
  intro k hk
  rw [hused]
  obtain hold | ⟨r, hr, rfl, -⟩ := hstep.held hk
  · exact h.held s hs k hold
  · exact h.used r.id r (Table.find?_eq_some_iff.mpr ⟨hr, rfl⟩)

theorem truncate_le {n : Nat} {d : ℚ} (hd : 0 ≤ d) : truncate (n - d) ≤ n := by
  rw [truncate]
  split
  · have hfloor := Int.floor_le ((n : ℚ) - d)
    have hle : ((⌊(n : ℚ) - d⌋ : Int) : ℚ) ≤ (n : Int) := by
      push_cast
      linarith
    exact_mod_cast hle
  · rename_i hneg
    have hceil : ⌈(n : ℚ) - d⌉ ≤ 0 := Int.ceil_le.mpr (by push_cast; linarith)
    omega

theorem resolved_days_pos (enabled : Option String) (raw : Option ℚ) :
    0 ≤ (resolveRetentionPolicy enabled raw).retentionDays := by
  cases hraw : raw.filter (0 < ·) with
  | none => simp [resolveRetentionPolicy, hraw]
  | some d =>
    obtain ⟨-, hpos⟩ := Option.filter_eq_some_iff.mp hraw
    simp only [resolveRetentionPolicy, hraw, Option.getD_some]
    exact le_of_lt (by simpa using hpos)

theorem cutoff_le_now (enabled : Option String) (raw : Option ℚ) (now : Nat) :
    truncate (now - (resolveRetentionPolicy enabled raw).retentionDays * dayMs) ≤ now :=
  truncate_le (mul_nonneg (resolved_days_pos enabled raw) (by simp [dayMs]))

theorem Sound.step (h : Sound w) (hs : step w e = some w') : Sound w' := by
  cases e with
  | tick ms =>
    cases hs
    exact h.of h.shares h.used (List.Subset.refl _) rfl (Nat.le_add_right _ _)
  | insertRun r =>
    simp only [Retention.step] at hs
    split at hs
    · cases hs
    · cases hs
      refine h.of h.shares ?_ (List.subset_append_left _ _) rfl le_rfl
      intro k row hrow
      by_cases hk : k = r.id
      · simp [World.insertRun, hk]
      · have hold : (w.insertRun r).db.runs.find? k = w.db.runs.find? k := find?_createRun hk
        rw [hold] at hrow
        exact List.mem_append_left _ (h.used k row hrow)
  | update u =>
    cases hs
    refine h.of h.shares ?_ (List.Subset.refl _) rfl le_rfl
    intro k r' hr'
    simp only [World.update, Table.find?_updateWhere, Option.map_eq_some_iff] at hr'
    obtain ⟨r, hr, -⟩ := hr'
    exact h.used k r hr
  | deleteRun runId =>
    cases hs
    exact h.deleteRuns [runId]
  | registerArtifact a =>
    cases hs
    rw [World.registerArtifact]
    split
    · exact h
    · split
      · rename_i artifacts hins
        refine h.of ?_ h.used (List.Subset.refl _) rfl le_rfl
        intro s hs
        obtain ⟨b, hb⟩ := Option.isSome_iff_exists.mp (h.shares s hs)
        rw [Table.find?_insert_of_some hins hb]
        rfl
      · exact h
  | deleteArtifact artifactId =>
    cases hs
    exact h.deleteArtifact artifactId
  | createArtifactShare input =>
    cases hs
    cases hshare : w.createArtifactShare input with
    | error e => exact h
    | ok w₁ =>
      obtain ⟨a, share, shares, ha, hartifact, hins, rfl⟩ := createArtifactShare_cases hshare
      refine h.of ?_ h.used (List.Subset.refl _) rfl le_rfl
      intro s hs
      simp only [Except.toOption, Option.getD_some, Table.rows_insert hins, List.mem_append, List.mem_singleton] at hs
      obtain hold | rfl := hs
      · exact h.shares s hold
      · change (w.artifacts.find? s.artifactId).isSome = true
        rw [hartifact, ha]
        rfl
  | revokeShare shareId =>
    cases hs
    refine h.of ?_ h.used (List.Subset.refl _) rfl le_rfl
    intro s hs
    simp only [World.revokeShare, Table.updateWhere, List.mem_map] at hs
    obtain ⟨s₀, hs₀, rfl⟩ := hs
    split
    · exact h.shares s₀ hs₀
    · exact h.shares s₀ hs₀
  | deleteStaleShares =>
    cases hs
    refine h.of ?_ h.used (List.Subset.refl _) rfl le_rfl
    intro s hs
    exact h.shares s (mem_of_deleteWhere hs).1
  | runDataRetentionSweep enabled raw =>
    cases hs
    rw [World.runDataRetentionSweep]
    split
    · exact h
    · refine ⟨h.shares, h.used, ?_, ?_⟩
      · intro s hs k hk
        obtain hold | hnew := List.mem_append.mp hs
        · exact h.held s hold k hk
        · rw [List.mem_singleton.mp hnew] at hk
          cases hk
      · intro s hs
        obtain hold | hnew := List.mem_append.mp hs
        · exact h.cutoffs s hold
        · rw [List.mem_singleton.mp hnew]
          exact ⟨cutoff_le_now enabled raw w.now, le_rfl⟩
  | sweepRuns i fails =>
    obtain ⟨s, hi, rfl⟩ := Option.map_eq_some_iff.mp hs
    exact h.sweepRuns hi (sweepStep w s fails)

theorem Doomed.of (h : Doomed w) (hsweeps : w'.sweeps = w.sweeps)
    (hspares : ∀ s ∈ w.sweeps, Spares s.held w w') : Doomed w' := by
  intro s hs k hk r hr
  rw [hsweeps] at hs
  exact (hspares s hs).doomed hk hr (h s hs k hk)

theorem Doomed.sweepRuns {i : Nat} (h : Doomed w) (hsound : Sound w)
    (hi : w.sweeps[i]? = some s) (hstep : SweepStep w s w' s') :
    Doomed { w' with sweeps := w'.sweeps.set i s' } := by
  obtain ⟨hcutoff, -, hsweeps, hnow, -⟩ := hstep.clock
  have hs := List.mem_of_getElem? hi
  have hkept : Doomed w' := h.of hsweeps fun u _ => hstep.spares u.held
  intro u hu k hk r hr
  obtain hold | rfl := List.mem_or_eq_of_mem_set hu
  · exact hkept u hold k hk r hr
  · change w'.doomed u.cutoff w'.now r = true
    apply (hstep.spares [k]).doomed (List.mem_singleton.mpr rfl) hr
    intro r₀ hr₀
    rw [hcutoff]
    obtain hold | ⟨r₁, hr₁, rfl, hdoomed⟩ := hstep.held hk
    · exact h s hs k hold r₀ hr₀
    · have hrow : w.db.runs.find? r₁.id = some r₁ := Table.find?_eq_some_iff.mpr ⟨hr₁, rfl⟩
      obtain rfl := Option.some.inj (hrow.symm.trans hr₀)
      obtain ⟨hterminal, hold, hshare⟩ := doomed_iff.mp hdoomed
      refine doomed_iff.mpr ⟨hterminal, hold, ?_⟩
      by_contra hlater
      have hnow' : s.now ≤ w.now := (hsound.cutoffs s hs).2
      have hearlier : w.hasActiveShare s.now r₁.id = true := hasActiveShare_mono
        (fun sh hsh hactive a ha => ⟨sh, hsh, active_of_later hnow' hactive, a, ha, rfl⟩)
        (by simpa using hlater)
      rw [hearlier] at hshare
      cases hshare

theorem Doomed.step (h : Doomed w) (hsound : Sound w) (hok : Undisturbed w e) (hs : step w e = some w') :
    Doomed w' := by
  cases e with
  | tick ms =>
    cases hs
    exact h.of rfl fun s _ => spares_of_tables rfl rfl rfl (Nat.le_add_right _ _)
  | insertRun r =>
    simp only [Retention.step] at hs
    split at hs
    · cases hs
    · rename_i hnew
      cases hs
      exact h.of rfl fun s hs => spares_insertRun fun hk => hnew (hsound.held s hs r.id hk)
  | update u =>
    cases hs
    refine h.of rfl fun s hs => spares_update ?_
    intro k hk r hr hcond
    have hfree := List.all_eq_true.mp (List.all_eq_true.mp hok s hs) k hk
    rw [hr] at hfree
    simpa [hcond] using hfree
  | deleteRun runId =>
    cases hs
    exact h.of rfl fun s _ => spares_deleteRuns [runId]
  | registerArtifact a =>
    cases hs
    refine h.of ?_ fun s _ => spares_registerArtifact a hsound
    rw [World.registerArtifact]
    repeat (first | rfl | split)
  | deleteArtifact artifactId =>
    cases hs
    exact h.of rfl fun s _ => spares_deleteArtifact artifactId
  | createArtifactShare input =>
    cases hs
    cases hshare : w.createArtifactShare input with
    | error err => exact h
    | ok w₁ =>
      have hsweeps : w₁.sweeps = w.sweeps := by
        obtain ⟨-, -, -, -, -, -, rfl⟩ := createArtifactShare_cases hshare
        rfl
      refine h.of hsweeps fun s hs => spares_createArtifactShare hshare ?_
      intro a ha
      simp only [Undisturbed, undisturbed, hshare, ha] at hok
      simpa using List.all_eq_true.mp hok s hs
  | revokeShare shareId =>
    cases hs
    exact h.of rfl fun s _ => spares_revokeShare shareId
  | deleteStaleShares =>
    cases hs
    exact h.of rfl fun s _ => spares_deleteStaleShares
  | runDataRetentionSweep enabled raw =>
    cases hs
    rw [World.runDataRetentionSweep]
    split
    · exact h
    · intro s hs k hk r hr
      obtain hold | hnew := List.mem_append.mp hs
      · exact h s hold k hk r hr
      · rw [List.mem_singleton.mp hnew] at hk
        cases hk
  | sweepRuns i fails =>
    obtain ⟨s, hi, rfl⟩ := Option.map_eq_some_iff.mp hs
    exact h.sweepRuns hsound hi (sweepStep w s fails)

end Invariants

section Progress

variable {w w' : World} {e : Event}

def remaining (w : World) (cutoff : Int) (ids : List String) : Nat :=
  w.db.runs.rows.countP fun r => old cutoff r && r.id ∉ ids

def Sweep.Progress (w : World) (s : Sweep) : Prop :=
  if s.phase = .done then s.batches ≤ s.backlog + 1
  else s.batches + remaining w s.cutoff s.held ≤ s.backlog

theorem Sweep.Progress.of {s : Sweep} (h : s.Progress w)
    (hle : remaining w' s.cutoff s.held ≤ remaining w s.cutoff s.held) : s.Progress w' := by
  rw [Sweep.Progress] at *
  split
  · rename_i hdone
    rw [if_pos hdone] at h
    exact h
  · rename_i hphase
    rw [if_neg hphase] at h
    omega

variable {cutoff : Int}

theorem old_of_write {u : Update} {now : Nat} {r : Run} (hcutoff : cutoff ≤ now)
    (h : old cutoff (u.write now r) = true) : old cutoff r = true := by
  have hlt := of_decide_eq_true h
  simp only [Update.write] at hlt
  split at hlt
  · omega
  · exact decide_eq_true hlt

variable {ids : List String}

theorem remaining_update {u : Update} (hcutoff : cutoff ≤ w.now) :
    remaining (w.update u) cutoff ids ≤ remaining w cutoff ids := by
  refine Table.countP_updateWhere_le (f := u.write w.now) (u.write_id w.now) ?_
  intro r _ _ hq
  obtain ⟨hold, hfree⟩ := Bool.and_eq_true_iff.mp hq
  exact Bool.and_eq_true_iff.mpr ⟨old_of_write hcutoff hold, hfree⟩

theorem remaining_insertRun {r : Run} (hcutoff : cutoff ≤ w.now) :
    remaining (w.insertRun r) cutoff ids ≤ remaining w cutoff ids := by
  simp only [remaining, World.insertRun, Db.createRun]
  split
  · rename_i t ht
    rw [Table.rows_insert ht, List.countP_append]
    have hyoung : ¬(w.now : Int) < cutoff := by omega
    simp [old, hyoung]
  · exact le_rfl

theorem remaining_deleteRuns {ids ids' : List String} :
    remaining (w.deleteRuns ids') cutoff ids ≤ remaining w cutoff ids :=
  Table.countP_deleteWhere_le _ _ _

theorem remaining_deleted : remaining (w.deleteRuns ids) cutoff [] ≤ remaining w cutoff ids := by
  simp only [remaining, World.deleteRuns, Table.deleteWhere, List.countP_filter]
  apply List.countP_mono_left
  intro r _ h
  simpa using h

theorem SweepStep.remaining {s s' : Sweep} (h : SweepStep w s w' s') :
    remaining w' cutoff ids ≤ remaining w cutoff ids := by
  cases h with
  | deletes => exact remaining_deleteRuns
  | _ => exact le_rfl

theorem remaining_selected {rows : List Run} (hsome : rows ≠ [])
    (hrows : ∀ r ∈ rows, r ∈ w.db.runs.rows ∧ old cutoff r = true) :
    remaining w cutoff (rows.map Run.id) + 1 ≤ remaining w cutoff [] := by
  have hsplit := List.countP_eq_countP_filter_add w.db.runs.rows (old cutoff)
    (fun r => r.id ∉ rows.map Run.id)
  obtain ⟨r, hr⟩ := List.exists_mem_of_ne_nil rows hsome
  have hpos : 0 < (w.db.runs.rows.filter fun r => !decide (r.id ∉ rows.map Run.id)).countP (old cutoff) := by
    refine List.countP_pos_iff.mpr ⟨r, ?_, (hrows r hr).2⟩
    rw [List.mem_filter]
    exact ⟨(hrows r hr).1, by simpa using ⟨r, hr, rfl⟩⟩
  rw [List.countP_filter] at hsplit
  have hall : remaining w cutoff [] = w.db.runs.rows.countP (old cutoff) := by
    simp [remaining]
  rw [hall, hsplit, remaining]
  omega

theorem Sweep.Progress.step_self {s s' : Sweep} (h : s.Progress w) (hstep : SweepStep w s w' s') : s'.Progress w' := by
  rw [Sweep.Progress] at *
  cases hstep with
  | ends =>
    split at h
    · exact h
    · simp only [if_true]
      omega
  | drained hphase =>
    rw [if_neg (by simp [hphase])] at h
    simp only [if_true]
    omega
  | @selects rows hphase hsome hrows =>
    rw [if_neg (by simp [hphase])] at h
    have hold : ∀ r ∈ rows, r ∈ w.db.runs.rows ∧ old s.cutoff r = true := fun r hr =>
      ⟨(hrows r hr).1, (doomed_iff.mp (hrows r hr).2).2.1⟩
    have hless := remaining_selected hsome hold
    simp only [Sweep.held, hphase, reduceCtorEq, if_false] at *
    omega
  | purges hphase =>
    rw [if_neg (by simp [hphase])] at h
    simpa [Sweep.held, hphase] using h
  | unlinks hphase =>
    rw [if_neg (by simp [hphase])] at h
    simp only [Sweep.held, hphase, reduceCtorEq, if_false] at *
    exact h
  | @deletes ids total phase hphase hnext =>
    rw [if_neg (by simp [hphase])] at h
    have hheld : s.held = ids := by rw [Sweep.held, hphase]
    rw [hheld] at h
    have hless : remaining (w.deleteRuns ids) s.cutoff [] ≤ remaining w s.cutoff ids := remaining_deleted
    obtain rfl | rfl := hnext
    · simp only [Sweep.held, reduceCtorEq, if_false]
      omega
    · simp only [if_true]
      omega

def Progressing (w : World) : Prop := ∀ s ∈ w.sweeps, s.Progress w

theorem Progressing.of (h : Progressing w) (hsweeps : w'.sweeps = w.sweeps)
    (hle : ∀ s ∈ w.sweeps, remaining w' s.cutoff s.held ≤ remaining w s.cutoff s.held) : Progressing w' := by
  intro s hs
  rw [hsweeps] at hs
  exact (h s hs).of (hle s hs)

theorem Progressing.step (h : Progressing w) (hsound : Sound w) (hs : step w e = some w') : Progressing w' := by
  have hcutoff : ∀ s ∈ w.sweeps, s.cutoff ≤ w.now := by
    intro s hs
    obtain ⟨hcutoff, hnow⟩ := hsound.cutoffs s hs
    omega
  cases e with
  | tick ms | deleteArtifact artifactId | revokeShare shareId | deleteStaleShares =>
    cases hs
    exact h.of rfl fun _ _ => le_rfl
  | insertRun r =>
    simp only [Retention.step] at hs
    split at hs
    · cases hs
    · cases hs
      exact h.of rfl fun s hs => remaining_insertRun (hcutoff s hs)
  | update u =>
    cases hs
    exact h.of rfl fun s hs => remaining_update (hcutoff s hs)
  | deleteRun runId =>
    cases hs
    exact h.of rfl fun _ _ => remaining_deleteRuns
  | registerArtifact a =>
    cases hs
    rw [World.registerArtifact]
    split
    · exact h
    · split
      · exact h.of rfl fun _ _ => le_rfl
      · exact h
  | createArtifactShare input =>
    cases hs
    cases hshare : w.createArtifactShare input with
    | error err => exact h
    | ok w₁ =>
      obtain ⟨-, -, -, -, -, -, rfl⟩ := createArtifactShare_cases hshare
      exact h.of rfl fun _ _ => le_rfl
  | runDataRetentionSweep enabled raw =>
    cases hs
    rw [World.runDataRetentionSweep]
    split
    · exact h
    · intro s hs
      obtain hold | hnew := List.mem_append.mp hs
      · exact (h s hold).of le_rfl
      · rw [List.mem_singleton.mp hnew]
        simp [Sweep.Progress, Sweep.held, remaining, World.backlog]
  | sweepRuns i fails =>
    obtain ⟨s, hi, rfl⟩ := Option.map_eq_some_iff.mp hs
    have hstep := sweepStep w s fails
    have hsweeps := hstep.clock.2.2.1
    have hkept : Progressing (w.sweepRuns s fails).1 :=
      h.of hsweeps fun _ _ => hstep.remaining
    intro u hu
    obtain hold | rfl := List.mem_or_eq_of_mem_set hu
    · exact (hkept u hold).of le_rfl
    · exact ((h s (List.mem_of_getElem? hi)).step_self hstep).of le_rfl

end Progress

theorem sound_initial : Sound {} :=
  ⟨fun _ h => (nomatch h), fun _ _ h => (nomatch h), fun _ h => (nomatch h), fun _ h => (nomatch h)⟩

theorem batches_le {es : List Event} {w : World} (h : run step {} es = some w) :
    ∀ s ∈ w.sweeps, s.batches ≤ s.backlog + 1 := by
  have hinv : Sound w ∧ Progressing w := (runs_free_iff.mpr h).invariant (I := fun w => Sound w ∧ Progressing w)
    (fun _ _ _ _ hi hs => ⟨hi.1.step hs, hi.2.step hi.1 hs⟩) ⟨sound_initial, by simp [Progressing]⟩
  intro s hs
  have hprogress := hinv.2 s hs
  rw [Sweep.Progress] at hprogress
  split at hprogress
  · exact hprogress
  · omega

/-- A deletion is of the row that the next step of the sweep finds. -/
theorem retention_deletes_eligible {es : List Event} {w : World} (h : Runs step Undisturbed {} es w) :
    (∀ i s r, Deletes w i s r → r.status.terminal = true ∧ (r.updatedAt : Int) < s.cutoff ∧
      w.hasActiveShare w.now r.id = false) ∧
    ∀ s ∈ w.sweeps, s.batches ≤ s.backlog + 1 := by
  have hinv : Sound w ∧ Doomed w := h.invariant (I := fun w => Sound w ∧ Doomed w)
    (fun _ _ _ hok hi hs => ⟨hi.1.step hs, hi.2.step hi.1 hok hs⟩) ⟨sound_initial, by simp [Doomed]⟩
  refine ⟨?_, batches_le h.toRun⟩
  rintro i s r ⟨hi, ids, hphase, hid, hr⟩
  have hheld : r.id ∈ s.held := by
    rw [Sweep.held, hphase]
    exact hid
  obtain ⟨hterminal, hold, hshare⟩ := doomed_iff.mp
    (hinv.2 s (List.mem_of_getElem? hi) r.id hheld r hr)
  exact ⟨hterminal, of_decide_eq_true hold, hshare⟩

section Witness

def longAgo : List Event :=
  [.insertRun { id := "run_1", status := .pending, initiatorAgentId := some "agent_1" },
    .update { condition := fun r => r.id = "run_1", row := fun r => { r with status := .completed } },
    .registerArtifact { id := "art_1", runId := "run_1", storagePath := "/artifacts/run_1/a" },
    .tick (61 * dayMs), .runDataRetentionSweep none none]

def turn : List Event :=
  [.update { condition := fun r => r.id = "run_1", row := fun r => { r with queuedAt := none } },
    .update { condition := fun r => r.id = "run_1", row := admitRow { processInstanceId := "p1" } true }]

def oneBatch : List Event := [.sweepRuns 0 false, .sweepRuns 0 false, .sweepRuns 0 false]

def observed (w : World) : Option (Phase × Int) × Option (RunStatus × Nat) × Bool :=
  (w.sweeps[0]?.map fun s => (s.phase, s.cutoff),
    (w.db.runs.find? "run_1").map fun r => (r.status, r.updatedAt), w.hasActiveShare w.now "run_1")

theorem deletes_of_observed {w : World} {cutoff : Int} {status : RunStatus} {updatedAt : Nat} {shared : Bool}
    (h : observed w = (some (.delete ["run_1"], cutoff), some (status, updatedAt), shared)) :
    ∃ s r, Deletes w 0 s r ∧ s.cutoff = cutoff ∧ r.status = status ∧ r.updatedAt = updatedAt ∧
      w.hasActiveShare w.now r.id = shared := by
  simp only [observed, Prod.mk.injEq, Option.map_eq_some_iff] at h
  obtain ⟨⟨s, hs, hphase, hcutoff⟩, ⟨r, hr, hstatus, hupdated⟩, hshare⟩ := h
  have hid : r.id = "run_1" := Table.find?_some_key hr
  exact ⟨s, r, ⟨hs, ["run_1"], hphase, by simp [hid], hid ▸ hr⟩, hcutoff, hstatus, hupdated, hid ▸ hshare⟩

theorem retention_deletes_eligible_longAgo : ∃ w s r,
    Runs step Undisturbed {} (longAgo ++ oneBatch) w ∧ Deletes w 0 s r ∧ r.status = .completed ∧
      r.status.terminal = true ∧ (r.updatedAt : Int) < s.cutoff ∧ w.hasActiveShare w.now r.id = false := by
  obtain ⟨w, hw, hobserved⟩ : ∃ w, run (guarded step Undisturbed) {} (longAgo ++ oneBatch) = some w ∧
      observed w = (some (.delete ["run_1"], (dayMs : Int)), some (.completed, 0), false) :=
    exists_of_run_any (by decide +kernel)
  obtain ⟨s, r, hdeletes, -, hstatus, -⟩ := deletes_of_observed hobserved
  exact ⟨w, s, r, .of_guarded hw, hdeletes, hstatus, (retention_deletes_eligible (.of_guarded hw)).1 0 s r hdeletes⟩

theorem retention_deletes_a_running_run : ∃ es w s r, run step {} es = some w ∧ Deletes w 0 s r ∧
    r.status = .running ∧ ¬(r.updatedAt : Int) < s.cutoff ∧ w.hasActiveShare w.now r.id = true := by
  let share : Event := .createArtifactShare { id := "shr_1", artifactId := "art_1", accessLevel := .public }
  let es := longAgo ++ [.sweepRuns 0 false] ++ turn ++ [share, .sweepRuns 0 false, .sweepRuns 0 false]
  obtain ⟨w, hw, hobserved⟩ : ∃ w, run step {} es = some w ∧
      observed w = (some (.delete ["run_1"], (dayMs : Int)), some (.running, 61 * dayMs), true) :=
    exists_of_run_any (by decide +kernel)
  obtain ⟨s, r, hdeletes, hcutoff, hstatus, hupdated, hshare⟩ := deletes_of_observed hobserved
  refine ⟨es, w, s, r, hw, hdeletes, hstatus, ?_, hshare⟩
  rw [hcutoff, hupdated]
  decide

end Witness

end A2Wave.Retention
