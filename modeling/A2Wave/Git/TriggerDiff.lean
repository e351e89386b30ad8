import A2Wave.Lib.Record

/-! `lib/git-trigger-diff.ts`: what a poll of a repository fires, and the fingerprints it
stores.  A stored fingerprint advances only if the tick handled the request's current state. -/

namespace A2Wave.GitTrigger

inductive GitTriggerEvent
  | opened
  | updated
  | commented
  | closed
  deriving DecidableEq, Repr

structure GitTriggerRequestState where
  number : Int
  sha : String
  comments : Int
  filtered : Option Bool := none
  updatedAt : Option String := none
  title : Option String := none
  url : Option String := none
  project : Option String := none
  deriving DecidableEq

structure GitTriggerRepoState where
  requests : Record GitTriggerRequestState
  polledAt : Option String := none

structure ObservedRequest where
  number : Int
  sha : String
  comments : Int
  title : String
  url : Option String := none
  author : Option String := none
  sourceBranch : Option String := none
  targetBranch : Option String := none
  updatedAt : Option String := none
  isDraft : Bool := false
  lastCommentAuthor : Option String := none
  project : Option String := none
  deriving DecidableEq

structure GitTriggerFiredEvent where
  event : GitTriggerEvent
  request : ObservedRequest
  newComments : Option Int := none
  deriving DecidableEq

structure DiffResult where
  fired : List GitTriggerFiredEvent
  nextState : GitTriggerRepoState
  deferred : List GitTriggerFiredEvent
  seeded : Bool

def gitTriggerMaxPages : Nat := 5

def gitTriggerMaxRunsPerTick : Int := 5

def maxRetainedRequests : Nat := gitTriggerMaxPages * 100 + 200

def present (s : Option String) : Option String := s.filter (· ≠ "")

def requestKey (number : Int) (project : Option String) : String :=
  match present project with
  | some project => s!"{project}!{number}"
  | none => toString number

def ObservedRequest.key (r : ObservedRequest) : String := requestKey r.number r.project

def GitTriggerRequestState.key (s : GitTriggerRequestState) : String :=
  requestKey s.number s.project

def GitTriggerFiredEvent.key (e : GitTriggerFiredEvent) : String := e.request.key

def fingerprint (request : ObservedRequest) : GitTriggerRequestState where
  number := request.number
  sha := request.sha
  comments := request.comments
  updatedAt := present request.updatedAt
  title := present (some request.title)
  url := present request.url
  project := present request.project

/-- `new Set` of the stored keys, then `add` for each observed request. -/
def allKnownKeys (observed : List ObservedRequest) (previous : GitTriggerRepoState) : List String :=
  observed.foldl (fun keys r => if r.key ∈ keys then keys else keys ++ [r.key])
    previous.requests.keys

inductive Retained
  | keep (s : GitTriggerRequestState)
  | unprovable (s : GitTriggerRequestState)
  | drop

def retainedFingerprint (observed : Option ObservedRequest) (prior : Option GitTriggerRequestState)
    (deferred stillOpen listingComplete : Bool) : Retained :=
  match observed with
  | some observed =>
    if deferred then prior.elim .drop .keep else .keep (fingerprint observed)
  | none =>
    if stillOpen then prior.elim .drop fun prior => .keep { prior with filtered := some true }
    else if !listingComplete then prior.elim .drop .unprovable
    else if deferred then prior.elim .drop .keep
    else .drop

def buildState (requests : List ObservedRequest) (polledAt : String) : GitTriggerRepoState where
  requests := Record.assign .empty (requests.map fun r => ⟨r.key, fingerprint r⟩)
  polledAt := some polledAt

def matchesFilters (request : ObservedRequest) (targetBranches : List String)
    (ignoreDrafts : Bool) : Bool :=
  if ignoreDrafts && request.isDraft then false
  else if targetBranches ≠ [] then
    match present request.targetBranch with
    | none => false
    | some branch => targetBranches.contains branch
  else true

structure DiffParams where
  observed : List ObservedRequest
  events : List GitTriggerEvent
  polledAt : String
  maxRunsPerTick : Option Int := none
  observedUnfiltered : Option (List ObservedRequest) := none
  listingComplete : Option Bool := none

namespace DiffParams

variable (p : DiffParams)

def wanted (e : GitTriggerEvent) : Bool := p.events.contains e

def cap : Int := p.maxRunsPerTick.getD gitTriggerMaxRunsPerTick

def unfiltered : List ObservedRequest := p.observedUnfiltered.getD p.observed

def stillOpen (key : String) : Bool := p.unfiltered.any (·.key = key)

def complete : Bool := p.listingComplete.getD true

def canInferClosed : Bool := p.wanted .closed && p.complete

/-- `observedByNumber`: of two requests with one key the later wins. -/
def observedByNumber (key : String) : Option ObservedRequest :=
  p.observed.reverse.find? (·.key = key)

def seen (key : String) : Bool := p.observed.any (·.key = key)

end DiffParams

def observedCandidate (p : DiffParams) (previous : GitTriggerRepoState)
    (request : ObservedRequest) : Option GitTriggerFiredEvent :=
  match previous.requests.get? request.key with
  | none => if p.wanted .opened then some { event := .opened, request } else none
  | some prior =>
    if prior.filtered = some true ∧ p.wanted .opened then some { event := .opened, request }
    else if prior.sha ≠ request.sha ∧ p.wanted .updated then some { event := .updated, request }
    else if prior.comments < request.comments ∧ p.wanted .commented then
      some { event := .commented, request, newComments := some (request.comments - prior.comments) }
    else none

def closedRequest (prior : GitTriggerRequestState) : ObservedRequest where
  number := prior.number
  sha := prior.sha
  comments := prior.comments
  title := prior.title.getD ""
  isDraft := false
  updatedAt := present prior.updatedAt
  url := present prior.url
  project := present prior.project

def closedCandidate (p : DiffParams) (entry : Property GitTriggerRequestState) : Option GitTriggerFiredEvent :=
  if p.seen entry.key || p.stillOpen entry.key then none
  else some { event := .closed, request := closedRequest entry.value }

def candidates (p : DiffParams) (previous : GitTriggerRepoState) : List GitTriggerFiredEvent :=
  p.observed.filterMap (observedCandidate p previous) ++
    if p.canInferClosed then previous.requests.entries.filterMap (closedCandidate p) else []

def ordered (p : DiffParams) (previous : GitTriggerRepoState) : List GitTriggerFiredEvent :=
  (candidates p previous).filter (·.event = .closed) ++ (candidates p previous).filter (·.event ≠ .closed)

/-- The index at which `slice` cuts a list of `length` elements. -/
def sliceIndex (length : Nat) (n : Int) : Nat :=
  if n < 0 then (length + n).toNat else min n.toNat length

def firedEvents (p : DiffParams) (previous : GitTriggerRepoState) : List GitTriggerFiredEvent :=
  (ordered p previous).take (sliceIndex (ordered p previous).length p.cap)

def deferredEvents (p : DiffParams) (previous : GitTriggerRepoState) : List GitTriggerFiredEvent :=
  (ordered p previous).drop (sliceIndex (ordered p previous).length p.cap)

def decision (p : DiffParams) (previous : GitTriggerRepoState) (key : String) : Retained :=
  retainedFingerprint (p.observedByNumber key) (previous.requests.get? key)
    ((deferredEvents p previous).any (·.key = key)) (p.stillOpen key) p.complete

def Retained.kept (key : String) : Retained → Option (Property GitTriggerRequestState)
  | keep s => some ⟨key, s⟩
  | unprovable _ | drop => none

def Retained.candidate (key : String) : Retained → Option (Property GitTriggerRequestState)
  | unprovable s => some ⟨key, s⟩
  | keep _ | drop => none

def keptRequests (p : DiffParams) (previous : GitTriggerRepoState) : List (Property GitTriggerRequestState) :=
  (allKnownKeys p.observed previous).filterMap fun key => (decision p previous key).kept key

def unprovableRequests (p : DiffParams) (previous : GitTriggerRepoState) : List (Property GitTriggerRequestState) :=
  (allKnownKeys p.observed previous).filterMap fun key => (decision p previous key).candidate key

section Diff

-- `String.prototype.localeCompare` of the runtime's locale
variable (localeCompare : String → String → Ordering)

def retainedUnprovable (p : DiffParams) (previous : GitTriggerRepoState) : List (Property GitTriggerRequestState) :=
  let updated (e : Property GitTriggerRequestState) : String := e.value.updatedAt.getD ""
  let nextRequests := Record.assign .empty (keptRequests p previous)
  ((unprovableRequests p previous).insertionSort fun a b =>
      localeCompare (updated b) (updated a) ≠ .gt).take
    (maxRetainedRequests - nextRequests.size)

def diffRepoState (previous : Option GitTriggerRepoState) (p : DiffParams) : DiffResult :=
  match previous with
  | none =>
    { fired := [], deferred := [], nextState := buildState p.observed p.polledAt, seeded := true }
  | some previous =>
    { fired := firedEvents p previous, deferred := deferredEvents p previous
      nextState :=
        { requests := (Record.assign .empty (keptRequests p previous)).assign
            (retainedUnprovable localeCompare p previous)
          polledAt := some p.polledAt }
      seeded := false }

end Diff

def rollbackUnhandled (next : GitTriggerRepoState) (previous : Option GitTriggerRepoState)
    (unhandled : List GitTriggerFiredEvent) : GitTriggerRepoState :=
  let rollback (requests : Record GitTriggerRequestState) (item : GitTriggerFiredEvent) :=
    match previous.bind (·.requests.get? item.key) with
    | some prior => requests.set item.key prior
    | none => requests.delete item.key
  { next with requests := unhandled.foldl rollback next.requests }

end A2Wave.GitTrigger
