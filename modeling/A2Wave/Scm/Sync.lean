import A2Wave.Queue.Capacity

/-! `lib/p4-sync.ts`: one call of `syncScmSource`, one await at a time, with the CodeGraph job it
may hand its checkout to, and the route that starts a manual sync.  The checkout lock is a set
in the memory of a process; the `syncing` status is the claim that all processes see. -/

namespace A2Wave

def Db.updateSource (db : Db) (sourceId : String) (f : ScmSource → ScmSource)
    (hf : ∀ s, (f s).id = s.id) : Db :=
  { db with scmSources := db.scmSources.updateWhere (·.id = sourceId) f hf }

/-- The claim of a sync: `UPDATE … SET sync_status = 'syncing' … RETURNING *`. -/
def acquireSyncStatus (host : Host) (db : Db) (sourceId : String) : Option (ScmSource × Db) :=
  (db.scmSources.cas sourceId
    (fun s => s.syncStatus ≠ .syncing && s.codegraphStatus ≠ .indexing && s.deletionRequestedAt.isNone)
    (fun s => { s with syncStatus := .syncing, updatedAt := host.now }) (fun _ => rfl)).bind
    fun sources => (sources.find? sourceId).map fun row => (row, { db with scmSources := sources })

def deferSync (host : Host) (db : Db) (sourceId : String) : Db :=
  db.updateSource sourceId (fun s => { s with syncStatus := .idle, updatedAt := host.now })
    (fun _ => rfl)

def releasePreAcquiredSync (host : Host) (db : Db) (sourceId message : String) : Db :=
  db.updateSource sourceId (fun s => { s with
    syncStatus := .error
    lastSyncAt := some host.now
    lastSyncError := some message
    updatedAt := host.now }) (fun _ => rfl)

def findSharedCheckoutScmWorkload (host : Host) (db : Db) (scmSourceId sharedLocalPath : String)
    (sourceType : ScmSourceType) : Option ScmWorkloadIdentity :=
  let leases := db.scmWorkloadLeases.select fun l => l.scmSourceId = scmSourceId && l.phase = .active
  let evaluation := leases.find? fun l =>
    l.workload.type = .evaluation && evaluationOccupiesSharedCheckout sourceType
  let run := leases.find? fun l => l.workload.type = .run &&
    runOccupiesSharedCheckout host ((db.runs.find? l.workload.workloadId).bind (·.workDir))
      sharedLocalPath
  (evaluation.or run).map ScmWorkloadLease.workload

inductive SyncAcquisition
  | acquired (source : ScmSource)
  | deferred (occupant : ScmWorkloadIdentity)
  | refused (message : String)
  | notAcquired

inductive ScmSyncResult
  | ok
  | cancelled
  | failed (message : String)

structure SyncCall where
  sourceId : String
  alreadyAcquired : Bool
  deriving DecidableEq

section Admission

-- the current and the legacy root under which deleted checkouts are reclaimed
variable (scmReclaimRoots : List String)

def gateSync (host : Host) (db : Db) (sourceId : String) (row : ScmSource) : SyncAcquisition × Db :=
  if row.deletionRequestedAt.isSome then (.refused "SCM source deletion is pending", db)
  else if scmReclaimRoots.any (filesystemPathsOverlap host row.localPath) then
    (.refused "SCM localPath overlaps the private reclaim root", db)
  else
    match findSharedCheckoutScmWorkload host db sourceId row.localPath row.type with
    | some occupant => (.deferred occupant, deferSync host db sourceId)
    | none => (.acquired row, db)

def admitSync (host : Host) (db : Db) (call : SyncCall) : SyncAcquisition × Db :=
  if call.alreadyAcquired then
    match db.scmSources.find? call.sourceId with
    | none => (.refused "SCM source not found", db)
    | some row => gateSync scmReclaimRoots host db call.sourceId row
  else
    match acquireSyncStatus host db call.sourceId with
    | none => (.notAcquired, db)
    | some (row, db') => gateSync scmReclaimRoots host db' call.sourceId row

end Admission

def handsOffToCodegraph (source : ScmSource) : ScmSyncResult → Bool
  | .ok => source.codegraphEnabled
  | .cancelled | .failed _ => false

def finishSyncRow (host : Host) (source : ScmSource) (result : ScmSyncResult) (s : ScmSource) :
    ScmSource :=
  let indexes := handsOffToCodegraph source result
  { s with
    syncStatus := if indexes then .syncing else match result with
      | .ok | .cancelled => .idle
      | .failed _ => .error
    lastSyncAt := some host.now
    lastSyncError := match result with
      | .ok | .cancelled => none
      | .failed message => some message
    initialSyncCompletedAt := match result with
      | .ok => if source.initialSyncCompletedAt.isNone then some host.now else s.initialSyncCompletedAt
      | .cancelled | .failed _ => s.initialSyncCompletedAt
    codegraphStatus := if indexes then .indexing else s.codegraphStatus
    codegraphLastError := if indexes then none else s.codegraphLastError
    updatedAt := host.now }

theorem finishSyncRow_id (host : Host) (source : ScmSource) (result : ScmSyncResult)
    (s : ScmSource) : (finishSyncRow host source result s).id = s.id := rfl

def resetSyncRow (host : Host) (s : ScmSource) : ScmSource :=
  { s with
    syncStatus := .error
    lastSyncError := some "Failed to persist sync result"
    updatedAt := host.now }

def finalizePreAcquiredIndex (host : Host) (db : Db) (sourceId : String) (status : CodegraphStatus)
    (message : Option String) : Db :=
  db.updateSource sourceId (fun s => { s with
    codegraphStatus := status, codegraphLastError := message, updatedAt := host.now }) (fun _ => rfl)

def indexedRow (host : Host) (source : ScmSource) (error : Option String) (s : ScmSource) :
    ScmSource :=
  { s with
    codegraphStatus := if error.isNone then .idle else .error
    codegraphLastIndexedAt := if error.isNone then some host.now else source.codegraphLastIndexedAt
    codegraphLastError := error
    updatedAt := host.now }

/-- `UPDATE … SET sync_status = 'idle' WHERE sync_status = 'syncing'`, when CodeGraph is done. -/
def settleSync (host : Host) (db : Db) (sourceId : String) : Db :=
  db.updateSource sourceId (fun s =>
    if s.syncStatus = .syncing then { s with syncStatus := .idle, updatedAt := host.now } else s)
    (fun s => by split <;> rfl)

inductive SyncPhase
  | claim
  | lock
  | unclaim
  | admission
  | admitted (acquisition : SyncAcquisition)
  | stillExists
  | refused (message : String)
  | syncing (source : ScmSource)
  | synced (source : ScmSource) (result : ScmSyncResult)
  | resetStatus
  | handOff
  | indexing (source : ScmSource)
  | indexed (source : ScmSource) (error : Option String)
  | finalizeIndex (status : CodegraphStatus) (message : Option String)
  | settle
  | release
  /-- The outer `catch`, reached from an await after the lock was released. -/
  | caught
  | returned

namespace SyncPhase

def holdsLock : SyncPhase → Bool
  | admission | admitted _ | syncing _ | synced _ _ | resetStatus | handOff | indexing _
  | indexed _ _ | finalizeIndex _ _ | settle | release => true
  | claim | lock | unclaim | stillExists | refused _ | caught | returned => false

def executes : SyncPhase → Option ScmSource
  | admitted (.acquired source) => some source
  | syncing source => some source
  | _ => none

end SyncPhase

structure SyncChoice where
  moment : Capacity.Moment
  dbFails : Bool := false
  result : ScmSyncResult := .ok

/-- The checkout locks of a process: `busyCheckouts`. -/
abbrev BusyCheckouts := List String

def releaseCheckout (busy : BusyCheckouts) (sourceId : String) : BusyCheckouts :=
  busy.filter (· ≠ sourceId)

section Call

variable (scmReclaimRoots : List String)

/-- `runSyncScmSource` up to its first await: the liveness gate, and the lock unless the route
holds it.  A call of the route that is fenced here keeps both. -/
def enterSync (host : Host) (busy : BusyCheckouts) (call : SyncCall) : BusyCheckouts × SyncPhase :=
  if host.hasLostHeartbeatOwnership then (busy, .returned)
  else if call.alreadyAcquired then (busy, .admission)
  else if call.sourceId ∈ busy then (busy, .returned)
  else (call.sourceId :: busy, .admission)

def actSync (host : Host) (c : SyncChoice) (db : Db) (busy : BusyCheckouts) (call : SyncCall) :
    SyncPhase → Option (Db × BusyCheckouts × SyncPhase)
  | .claim =>
    if c.dbFails then some (db, busy, .returned)
    else match acquireSyncStatus host db call.sourceId with
      | none => some (db, busy, .returned)
      | some (_, db') => some (db', busy, .lock)
  | .lock =>
    if call.alreadyAcquired then
      if call.sourceId ∈ busy then some (db, busy, .unclaim)
      else
        let (busy', phase) := enterSync host (call.sourceId :: busy) call
        some (db, busy', phase)
    else
      let (busy', phase) := enterSync host busy call
      some (db, busy', phase)
  | .unclaim => some (if c.dbFails then db else deferSync host db call.sourceId, busy, .returned)
  | .admission =>
    if c.dbFails then some (db, busy, .release)
    else
      let (acquisition, db') := admitSync scmReclaimRoots host db call
      some (db', busy, .admitted acquisition)
  | .admitted acquisition =>
    match acquisition with
    | .notAcquired => some (db, releaseCheckout busy call.sourceId, .stillExists)
    | .refused message => some (db, releaseCheckout busy call.sourceId, .refused message)
    | .deferred _ => some (db, releaseCheckout busy call.sourceId, .returned)
    | .acquired source => some (db, busy, .syncing source)
  | .stillExists => some (db, busy, if c.dbFails then .caught else .returned)
  | .refused message =>
    if c.dbFails then some (db, busy, .caught)
    else some (releasePreAcquiredSync host db call.sourceId message, busy, .returned)
  | .syncing source => some (db, busy, .synced source c.result)
  | .synced source result =>
    if c.dbFails then some (db, busy, .resetStatus)
    else
      let db' := db.updateSource call.sourceId (finishSyncRow host source result)
        (finishSyncRow_id host source result)
      some (db', busy, if handsOffToCodegraph source result then .handOff else .release)
  | .resetStatus =>
    let db' := db.updateSource call.sourceId (resetSyncRow host) (fun _ => rfl)
    some (if c.dbFails then db else db', busy, .release)
  | .handOff =>
    if host.hasLostHeartbeatOwnership then some (db, busy, .finalizeIndex .idle none)
    else if c.dbFails then some (db, busy, .settle)
    else match db.scmSources.find? call.sourceId with
      | none => some (db, busy, .finalizeIndex .error (some "SCM source not found"))
      | some source =>
        some (db, busy, if source.codegraphEnabled then .indexing source else .finalizeIndex .idle none)
  | .indexing source => some (db, busy, .indexed source (match c.result with
      | .failed message => some message
      | .ok | .cancelled => none))
  | .indexed source error =>
    let db' := db.updateSource call.sourceId (indexedRow host source error) (fun _ => rfl)
    some (if c.dbFails then db else db', busy, .settle)
  | .finalizeIndex status message =>
    some (if c.dbFails then db else finalizePreAcquiredIndex host db call.sourceId status message, busy, .settle)
  | .settle => some (if c.dbFails then db else settleSync host db call.sourceId, busy, .release)
  | .release => some (db, releaseCheckout busy call.sourceId, .returned)
  | .caught => some (db, releaseCheckout busy call.sourceId, .returned)
  | .returned => none

end Call

end A2Wave
