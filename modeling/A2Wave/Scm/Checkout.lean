import A2Wave.Scm.Exclusion
import A2Wave.Scm.PerAgent
import A2Wave.Scm.Sync

/-! Syncs and runs around the shared checkouts: any number of processes, each with its own
checkout locks, over one database. -/

namespace A2Wave.Checkout

open Transition

structure Handed where
  runId : String
  scmSourceId : String
  deriving DecidableEq

structure Shared where
  world : Capacity.World
  busyCheckouts : Nat → BusyCheckouts := fun _ => []
  handed : List Handed := []

inductive Task
  | queue (task : Capacity.Task)
  | sync (call : SyncCall) (phase : SyncPhase)
  | resolve (call : ResolveCall) (phase : Exclusion.ResolvePhase)
  | resolveDefault (call : DefaultCall) (phase : DefaultPhase)

structure Thread where
  process : Nat
  task : Task

structure Choice extends SyncChoice where
  succeeds : Bool := true

def Choice.exclusion (c : Choice) : Exclusion.Choice := ⟨c.moment, c.succeeds, c.dbFails⟩

def Task.directory : Task → Option (String × String × String)
  | resolve call (.returned dir) => some (call.runId, call.scmSourceId, dir)
  | resolveDefault call (.returned dir) => some (call.runId, call.scmSourceId, dir)
  | _ => none

/-- The hand-out of a step to `task`: the directory is the checkout of the source. -/
def newlyHanded (db : Db) (task : Task) : List Handed :=
  match task.directory with
  | some (runId, scmSourceId, dir) =>
    if (db.scmSources.find? scmSourceId).any (·.localPath = dir) then [⟨runId, scmSourceId⟩] else []
  | none => []

def Shared.commit (s : Shared) (world : Capacity.World) (task : Task) : Shared where
  world := world
  busyCheckouts := s.busyCheckouts
  handed := (newlyHanded world.db task ++ s.handed).filter fun h =>
    !(leasedOn s.world.db h.runId h.scmSourceId && !leasedOn world.db h.runId h.scmSourceId)

section Program

variable (defaultWorkspacesPath : String → String) (scmReclaimRoots : List String)

def act (s : Shared) (t : Thread) (c : Choice) : Option (Shared × Thread) :=
  match t.task with
  | .queue task =>
    (Capacity.act s.world ⟨t.process, task⟩ c.moment).map fun (world, t') =>
      (s.commit world (.queue t'.task), ⟨t'.process, .queue t'.task⟩)
  | .sync call phase => s.world.processes[t.process]?.bind fun p =>
    (actSync scmReclaimRoots (p.at c.moment).host c.toSyncChoice s.world.db
      (s.busyCheckouts t.process) call phase).map fun (db, busy, phase') =>
        ({ s.commit { s.world with db := db } (.sync call phase') with
            busyCheckouts := Function.update s.busyCheckouts t.process busy },
          { t with task := .sync call phase' })
  | .resolve call phase =>
    (Exclusion.actResolve defaultWorkspacesPath c.exclusion s.world.db call phase).map
      fun (db, phase') => (s.commit { s.world with db := db } (.resolve call phase'),
        { t with task := .resolve call phase' })
  | .resolveDefault call phase =>
    (actDefault defaultWorkspacesPath c.succeeds c.dbFails s.world.db call phase).map
      fun (db, phase') => (s.commit { s.world with db := db } (.resolveDefault call phase'),
        { t with task := .resolveDefault call phase' })

end Program

/-- The transactions among which the syncs run.  The status of a source and the directory of a run
are written by the calls modelled here. -/
def concurrent : Op → Bool
  | .setWorkDir _ _ | .setSyncStatus _ _ | .deleteRun _ => false
  | .createRun r => r.workDir.isNone
  | _ => true

def starts (db : Db) : Task → Bool
  | .queue (.commit op) => concurrent op
  | .queue task => Capacity.starts db task
  | .sync call .claim => call.alreadyAcquired && call.sourceId ≠ ""
  | .sync call .lock => !call.alreadyAcquired && call.sourceId ≠ ""
  | .sync _ _ => false
  | .resolve _ phase => phase = .start
  | .resolveDefault _ phase => phase = .start

def system (defaultWorkspacesPath : String → String) (scmReclaimRoots : List String) :
    Pool.Program Shared Thread Choice where
  start s _ t := starts s.world.db t.task
  act := act defaultWorkspacesPath scmReclaimRoots

abbrev State := Pool Shared Thread

end A2Wave.Checkout
