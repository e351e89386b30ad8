import A2Wave.Engine.McpConfig
import A2Wave.Lib.Pool
import Mathlib.Logic.Function.Basic

/-! The runs that share one managed MCP config (`engine/mcp-sync.ts`, as `engine/base-engine.ts` calls it): each
syncs it and cleans it up at its end, on the replica that executes it.  A write of a file is one action. -/

namespace A2Wave.McpSync

open Transition

inductive Phase
  | preparing
  | probing
  | readingMarker (read : JsonFileRead)
  | writingConfig (read : JsonFileRead) (plan : Plan)
  | writingMarker (read : JsonFileRead) (plan : Plan) (previous : Option (String × Fields))
  | restoring (read : JsonFileRead) (plan : Plan) (previous : Option (String × Fields))
  | synced (entries : Fields)
  | releasing
  | stripping (marker : ManagedMcpMarker)
  | dropping (config : Option Fields)
  | droppingMarker
  | done
  deriving DecidableEq

structure Run where
  processInstanceId : String
  servers : List ResolvedMcpServer := []
  dialect : McpConfigDialect := .default
  phase : Phase := .preparing

/-- The two files of the workspace, and of each replica its references and its keyed lock.  `latest` records which
replica wrote the config last, and the entries that it wrote. -/
structure Shared where
  config : JsonFile := .absent
  marker : JsonFile := .absent
  managedMcpConfigRefs : String → Nat := fun _ => 0
  locked : String → Bool := fun _ => false
  latest : Option (String × Fields) := none

/-- What the awaited call does.  `fail` is an exception, or a target that takes no write. -/
inductive Choice
  | go (now : Nat)
  | fail

abbrev State := Pool Shared Run

def Shared.lock (s : Shared) (replica : String) : Shared :=
  { s with locked := Function.update s.locked replica true }

def Shared.unlock (s : Shared) (replica : String) : Shared :=
  { s with locked := Function.update s.locked replica false }

def Shared.setRefs (s : Shared) (replica : String) (refs : Nat) : Shared :=
  { s with managedMcpConfigRefs := Function.update s.managedMcpConfigRefs replica refs }

def Run.at (run : Run) (phase : Phase) : Run := { run with phase := phase }

section Actions

variable (number : ℚ → String)

/-- `writeMcpConfig` under the lock of the replica. -/
def writeMcpConfig (s : Shared) (run : Run) : Choice → Option (Shared × Run)
  | .go now =>
    let replica := run.processInstanceId
    match run.phase with
    | .probing => some (s, run.at (.readingMarker (readJsonRecord s.config)))
    | .readingMarker read =>
      let plan := planSync number now replica (buildManagedMcpServers run.servers run.dialect) read
        (readManagedMarker s.marker)
      some (s, run.at (.writingConfig read plan))
    | .writingConfig read plan =>
      some ({ s with config := .holds (.obj plan.nextConfig), latest := some (replica, plan.entries) },
        run.at (.writingMarker read plan s.latest))
    | .writingMarker _ plan _ =>
      let marked := { s with marker := .holds plan.nextManagedMarker.toJson }
      some ((marked.setRefs replica (s.managedMcpConfigRefs replica + 1)).unlock replica,
        run.at (.synced plan.entries))
    | .restoring read _ previous =>
      some ({ s with config := restored read, latest := previous }.unlock replica, run.at .done)
    | _ => none
  | .fail =>
    match run.phase with
    | .probing => some (s.unlock run.processInstanceId, run.at .done)
    | .writingConfig _ _ => some (s.unlock run.processInstanceId, run.at .done)
    | .writingMarker read plan previous => some (s, run.at (.restoring read plan previous))
    | .restoring _ _ _ => some (s.unlock run.processInstanceId, run.at .done)
    | _ => none

/-- `releaseMcpConfig` up to its first await. -/
def dropReference (s : Shared) (run : Run) : Shared × Run :=
  let replica := run.processInstanceId
  let remainingRefs := s.managedMcpConfigRefs replica - 1
  if 0 < remainingRefs then (s.setRefs replica remainingRefs, run.at .done)
  else ((s.setRefs replica 0).lock replica, run.at .releasing)

def dropFile : Option Fields → JsonFile
  | none => .absent
  | some config => .holds (.obj config)

/-- The rest of `releaseMcpConfig`, under the lock of the replica. -/
def releaseMcpConfig (s : Shared) (run : Run) : Choice → Option (Shared × Run)
  | .go _ =>
    match run.phase with
    | .releasing =>
      match readManagedMarker s.marker with
      | none => some (s.unlock run.processInstanceId, run.at .done)
      | some marker =>
        if ownsManagedMarker run.processInstanceId marker then some (s, run.at (.stripping marker))
        else some (s.unlock run.processInstanceId, run.at .done)
    | .stripping marker => some (s, run.at (.dropping (strip number marker (readJsonRecord s.config).record)))
    | .dropping config => some ({ s with config := dropFile config }, run.at .droppingMarker)
    | .droppingMarker => some ({ s with marker := .absent }.unlock run.processInstanceId, run.at .done)
    | _ => none
  | .fail =>
    match run.phase with
    | .releasing => some (s.unlock run.processInstanceId, run.at .done)
    | .dropping _ => some (s.unlock run.processInstanceId, run.at .done)
    | .droppingMarker => some (s.unlock run.processInstanceId, run.at .done)
    | _ => none

def act (s : Shared) (run : Run) (c : Choice) : Option (Shared × Run) :=
  match run.phase, c with
  | .done, _ => none
  | .preparing, .go _ =>
    if s.locked run.processInstanceId then none else some (s.lock run.processInstanceId, run.at .probing)
  | .preparing, .fail => none
  | .synced _, .go _ => if s.locked run.processInstanceId then none else some (dropReference s run)
  | .synced _, .fail => none
  | .releasing, c => releaseMcpConfig number s run c
  | .stripping _, c => releaseMcpConfig number s run c
  | .dropping _, c => releaseMcpConfig number s run c
  | .droppingMarker, c => releaseMcpConfig number s run c
  | _, c => writeMcpConfig number s run c

def system : Pool.Program Shared Run Choice where
  start _ _ run := run.phase = .preparing
  act := act number

end Actions

namespace Phase

def isSynced : Phase → Bool
  | .synced _ => true
  | _ => false

def isReleasing : Phase → Bool
  | .releasing => true
  | .stripping _ => true
  | .dropping _ => true
  | .droppingMarker => true
  | _ => false

def isMidway : Phase → Bool
  | .writingMarker _ _ _ => true
  | .restoring _ _ _ => true
  | .droppingMarker => true
  | _ => false

def isInside : Phase → Bool
  | .readingMarker _ => true
  | .writingConfig _ _ => true
  | .writingMarker _ _ _ => true
  | .restoring _ _ _ => true
  | .stripping _ => true
  | .dropping _ => true
  | .droppingMarker => true
  | _ => false

def isWriting : Phase → Bool
  | .writingConfig _ _ => true
  | .writingMarker _ _ _ => true
  | .restoring _ _ _ => true
  | .dropping _ => true
  | .droppingMarker => true
  | _ => false

def holdsLock : Phase → Bool
  | .preparing => false
  | .synced _ => false
  | .done => false
  | _ => true

def owes : Phase → Bool
  | .writingMarker _ _ _ => true
  | .restoring _ _ _ => true
  | .synced _ => true
  | .releasing => true
  | .stripping _ => true
  | .dropping _ => true
  | .droppingMarker => true
  | _ => false

def isClearing : Phase → Bool
  | .restoring _ _ _ => true
  | .releasing => true
  | .dropping _ => true
  | .droppingMarker => true
  | _ => false

end Phase

/-- No replica writes while an operation of another one is between its first read and its last write, and no
operation fails while it takes entries back. -/
def apart (p : State) : Pool.Event Run Choice → Bool
  | .spawn _ => true
  | .act i (.go _) => p.threads[i]?.all fun run => !run.phase.isWriting ||
      p.threads.all fun other =>
        other.processInstanceId = run.processInstanceId || !other.phase.isInside
  | .act i .fail => p.threads[i]?.all fun run => !run.phase.isClearing

section Step

variable {number : ℚ → String} {s s' : Shared} {run run' : Run} {c : Choice} {phase : Phase}

inductive Does (number : ℚ → String) (s : Shared) (run : Run) : Choice → Shared → Phase → Prop
  | lock {now} : run.phase = .preparing → s.locked run.processInstanceId = false →
      Does number s run (.go now) (s.lock run.processInstanceId) .probing
  | read {now} : run.phase = .probing → Does number s run (.go now) s (.readingMarker (readJsonRecord s.config))
  | plan {now read} : run.phase = .readingMarker read →
      Does number s run (.go now) s (.writingConfig read (planSync number now run.processInstanceId
        (buildManagedMcpServers run.servers run.dialect) read (readManagedMarker s.marker)))
  | writeConfig {now read plan} : run.phase = .writingConfig read plan → Does number s run (.go now)
        { s with config := .holds (.obj plan.nextConfig), latest := some (run.processInstanceId, plan.entries) }
        (.writingMarker read plan s.latest)
  | writeMarker {now read plan previous} : run.phase = .writingMarker read plan previous → Does number s run (.go now)
        (({ s with marker := .holds plan.nextManagedMarker.toJson }.setRefs run.processInstanceId
          (s.managedMcpConfigRefs run.processInstanceId + 1)).unlock run.processInstanceId)
        (.synced plan.entries)
  | restore {now read plan previous} : run.phase = .restoring read plan previous → Does number s run (.go now)
        ({ s with config := restored read, latest := previous }.unlock run.processInstanceId) .done
  | refuse : run.phase = .probing ∨ (∃ read plan, run.phase = .writingConfig read plan) →
      Does number s run .fail (s.unlock run.processInstanceId) .done
  | failMarker {read plan previous} : run.phase = .writingMarker read plan previous →
      Does number s run .fail s (.restoring read plan previous)
  | abandon : run.phase.isClearing = true → Does number s run .fail (s.unlock run.processInstanceId) .done
  | drop {now entries} : run.phase = .synced entries → 1 < s.managedMcpConfigRefs run.processInstanceId →
      Does number s run (.go now)
        (s.setRefs run.processInstanceId (s.managedMcpConfigRefs run.processInstanceId - 1)) .done
  | dropLast {now entries} : run.phase = .synced entries → s.locked run.processInstanceId = false →
      s.managedMcpConfigRefs run.processInstanceId ≤ 1 →
      Does number s run (.go now)
        ((s.setRefs run.processInstanceId 0).lock run.processInstanceId) .releasing
  | leave {now} : run.phase = .releasing → (∀ marker, readManagedMarker s.marker = some marker →
        ownsManagedMarker run.processInstanceId marker = false) →
      Does number s run (.go now) (s.unlock run.processInstanceId) .done
  | own {now marker} : run.phase = .releasing → readManagedMarker s.marker = some marker →
      ownsManagedMarker run.processInstanceId marker = true →
      Does number s run (.go now) s (.stripping marker)
  | strip {now marker} : run.phase = .stripping marker →
      Does number s run (.go now) s (.dropping (strip number marker (readJsonRecord s.config).record))
  | dropConfig {now config} : run.phase = .dropping config →
      Does number s run (.go now) { s with config := dropFile config } .droppingMarker
  | dropMarker {now} : run.phase = .droppingMarker →
      Does number s run (.go now) ({ s with marker := .absent }.unlock run.processInstanceId) .done

theorem act_does (h : act number s run c = some (s', run')) :
    ∃ phase, run' = run.at phase ∧ Does number s run c s' phase := by
  obtain ⟨replica, servers, dialect, phase⟩ := run
  cases phase with
  | preparing =>
    cases c with
    | fail => cases h
    | go now =>
      simp only [act] at h
      split at h
      · cases h
      · rename_i hfree
        cases h
        exact ⟨_, rfl, .lock rfl (Bool.eq_false_iff.mpr hfree)⟩
  | probing =>
    cases c with
    | fail =>
      cases h
      exact ⟨_, rfl, .refuse (.inl rfl)⟩
    | go now =>
      cases h
      exact ⟨_, rfl, .read rfl⟩
  | readingMarker read =>
    cases c with
    | fail => cases h
    | go now =>
      cases h
      exact ⟨_, rfl, .plan rfl⟩
  | writingConfig read plan =>
    cases c with
    | fail =>
      cases h
      exact ⟨_, rfl, .refuse (.inr ⟨read, plan, rfl⟩)⟩
    | go now =>
      cases h
      exact ⟨_, rfl, .writeConfig rfl⟩
  | writingMarker read plan previous =>
    cases c with
    | fail =>
      cases h
      exact ⟨_, rfl, .failMarker rfl⟩
    | go now =>
      cases h
      exact ⟨_, rfl, .writeMarker rfl⟩
  | restoring read plan previous =>
    cases c with
    | fail =>
      cases h
      exact ⟨_, rfl, .abandon rfl⟩
    | go now =>
      cases h
      exact ⟨_, rfl, .restore rfl⟩
  | synced entries =>
    cases c with
    | fail => cases h
    | go now =>
      simp only [act] at h
      split at h
      · cases h
      · rename_i hfree
        simp only [dropReference, Option.some.injEq] at h
        split at h
        · rename_i hrefs
          cases h
          exact ⟨_, rfl, .drop rfl (Nat.lt_of_sub_pos hrefs)⟩
        · rename_i hrefs
          cases h
          have hlast := Nat.sub_eq_zero_iff_le.mp (Nat.eq_zero_of_not_pos hrefs)
          exact ⟨_, rfl, .dropLast rfl (Bool.eq_false_iff.mpr hfree) hlast⟩
  | releasing =>
    cases c with
    | fail =>
      cases h
      exact ⟨_, rfl, .abandon rfl⟩
    | go now =>
      simp only [act, releaseMcpConfig] at h
      split at h
      · rename_i hmarker
        cases h
        exact ⟨_, rfl, .leave rfl fun marker hread => by rw [hmarker] at hread; cases hread⟩
      · rename_i marker hmarker
        split at h
        · rename_i howns
          cases h
          exact ⟨_, rfl, .own rfl hmarker howns⟩
        · rename_i howns
          cases h
          refine ⟨_, rfl, .leave rfl ?_⟩
          intro other hread
          rw [hmarker] at hread
          cases hread
          exact Bool.eq_false_iff.mpr howns
  | stripping marker =>
    cases c with
    | fail => cases h
    | go now =>
      cases h
      exact ⟨_, rfl, .strip rfl⟩
  | dropping config =>
    cases c with
    | fail =>
      cases h
      exact ⟨_, rfl, .abandon rfl⟩
    | go now =>
      cases h
      exact ⟨_, rfl, .dropConfig rfl⟩
  | droppingMarker =>
    cases c with
    | fail =>
      cases h
      exact ⟨_, rfl, .abandon rfl⟩
    | go now =>
      cases h
      exact ⟨_, rfl, .dropMarker rfl⟩
  | done => cases h

end Step

end A2Wave.McpSync
