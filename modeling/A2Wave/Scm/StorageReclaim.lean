import A2Wave.Lib.FileTree
import A2Wave.Scm.PathPlan

/-! `lib/scm-storage-reclaim.ts` with the two callers that delete a source: `DELETE /:id` of
`routes/scm-sources.ts` and the pending deletions of `initAutoSyncSchedulers`.  The directories a
source was allocated are parked in a reclaim root, then removed, and its row is deleted last. -/

namespace A2Wave.Reclaim

open A2Wave.Path FileTree Transition PathPlan

def SCM_RECLAIM_MARKER : String := ".a2wave-owned-reclaim-root"

def markerText : String := "a2wave-scm-reclaim-v1\n"

structure Deployment extends Platform where
  isSymbolicLink : String → Bool := fun _ => false
  apart : ∀ a ∈ reclaimRoots toPlatform, ∀ b ∈ reclaimRoots toPlatform,
    canonicalizeThroughExistingAncestor toPlatform a <+: canonicalizeThroughExistingAncestor toPlatform b →
    canonicalizeThroughExistingAncestor toPlatform a = canonicalizeThroughExistingAncestor toPlatform b

structure ReclaimableScmSource where
  id : String
  localPath : String
  workspacesPath : Option String
  deriving DecidableEq

def reclaimable (row : A2Wave.ScmSource) : ReclaimableScmSource :=
  ⟨row.id, row.localPath, row.workspacesPath⟩

def ReclaimableScmSource.paths (source : ReclaimableScmSource) : List String :=
  source.localPath :: (source.workspacesPath.filter (· ≠ "")).toList

structure Candidate where
  path : String
  label : String
  isolationRoot : String
  deriving DecidableEq

section Storage

variable (d : Deployment)

def place (path : String) : Segments := canonicalizeThroughExistingAncestor d.toPlatform path

def isSamePath (a b : String) : Bool := resolve d.toPlatform a = resolve d.toPlatform b

def defaultLegacyWorkspacesPath (sourceId : String) : String :=
  joinPath (legacyWorkspacesRoot d.toPlatform) (idSuffix sourceId)

def allocatedCandidates (source : ReclaimableScmSource) : List Candidate :=
  let candidates : List (Option String × String × String × String) :=
    [(some source.localPath, defaultScmLocalPath d.toPlatform source.id, "localPath", scmReclaimRoot d.toPlatform),
      (source.workspacesPath, defaultScmWorkspacesPath d.toPlatform source.id, "workspacesPath",
        scmReclaimRoot d.toPlatform),
      (source.workspacesPath, defaultLegacyWorkspacesPath d source.id, "legacyWorkspacesPath",
        legacyScmReclaimRoot d.toPlatform)]
  candidates.filterMap fun (path, allocated, label, isolationRoot) =>
    (path.filter fun path => path ≠ "" ∧ isSamePath d path allocated).map fun path =>
      ⟨path, label, isolationRoot⟩

def findOccupyingPeer (peers : List ReclaimableScmSource) (candidate sourceId : String) :
    Option ReclaimableScmSource :=
  peers.find? fun peer =>
    peer.id ≠ sourceId && peer.paths.any fun path => PathPlan.filesystemPathsOverlap d.toPlatform path candidate

def isolatedPath (sourceId : String) (c : Candidate) : Segments :=
  place d c.isolationRoot ++ [(sourceId ++ "-" ++ c.label).toList]

/-- `lstat` does not follow the link that may stand at the path itself. -/
def isReclaimableDir (tree : Entries (List Char)) (path : String) : Bool :=
  !d.isSymbolicLink path && isDirectory tree (place d path)

def marker (isolationRoot : String) : Segments := place d isolationRoot ++ [SCM_RECLAIM_MARKER.toList]

def hasOwnedIsolationRoot (tree : Entries (List Char)) (isolationRoot : String) : Bool :=
  readFile tree (marker d isolationRoot) = some markerText

end Storage

structure Shared where
  sources : Table A2Wave.ScmSource := .empty
  tree : Entries (List Char) := []

structure Work where
  source : ReclaimableScmSource
  peers : List ReclaimableScmSource
  isolated : List Candidate := []
  blocked : List (String × String) := []
  todo : List Candidate := []

inductive Await
  | inspect
  | hasOwned
  | inspectParked
  | readMarker
  | listRoot
  | makeRoot
  | writeMarker
  | readMarkerAgain
  | inspectTarget
  | rename
  deriving DecidableEq

inductive Phase
  | select (id : String)
  | reserve (source : A2Wave.ScmSource)
  | listPending
  | selectPeers (source : ReclaimableScmSource)
  | isolate (await : Await) (work : Work) (c : Candidate)
  | commit (work : Work) (rest : List Candidate)
  | finalize (source : ReclaimableScmSource)
  | ended

/-- A `DELETE` request, or a recovery with the pending sources it has not resumed yet.  One that
crashes never acts again. -/
structure Thread where
  pending : List ReclaimableScmSource := []
  phase : Phase

structure Choice where
  refused : Bool := false
  idle : Bool := true
  now : Nat := 0
  fails : Bool := false
  applied : Bool := false

def Thread.leave (t : Thread) : Thread :=
  match t.pending with
  | [] => { t with phase := .ended }
  | source :: pending => { pending := pending, phase := .selectPeers source }

section Program

variable (d : Deployment)

def proceed (t : Thread) (work : Work) : List Candidate → Thread
  | [] => if work.blocked = [] then { t with phase := .commit work work.isolated } else t.leave
  | c :: todo =>
    match findOccupyingPeer d work.peers c.path work.source.id with
    | some peer => proceed t { work with blocked := work.blocked ++ [(c.path, peer.id)] } todo
    | none => { t with phase := .isolate .inspect { work with todo := todo } c }

def Work.isolate (work : Work) (c : Candidate) : Work := { work with isolated := work.isolated ++ [c] }

def isolate (s : Shared) (t : Thread) (work : Work) (c : Candidate) (choice : Choice) : Await → Shared × Thread
  | .inspect =>
    if choice.fails then (s, t.leave)
    else if isReclaimableDir d s.tree c.path then (s, { t with phase := .isolate .readMarker work c })
    else (s, { t with phase := .isolate .hasOwned work c })
  | .hasOwned =>
    if hasOwnedIsolationRoot d s.tree c.isolationRoot then
      (s, { t with phase := .isolate .inspectParked work c })
    else (s, proceed d t work work.todo)
  | .inspectParked =>
    if choice.fails then (s, t.leave)
    else if isDirectory s.tree (isolatedPath d work.source.id c) then
      (s, proceed d t (work.isolate c) work.todo)
    else (s, proceed d t work work.todo)
  | .readMarker =>
    match readFile s.tree (marker d c.isolationRoot) with
    | some existing =>
      if existing = markerText then (s, { t with phase := .isolate .inspectTarget work c })
      else (s, t.leave)
    | none => (s, { t with phase := .isolate .listRoot work c })
  | .listRoot =>
    if !isDirectory s.tree (place d c.isolationRoot) then
      (s, { t with phase := .isolate .makeRoot work c })
    else if hasEntries s.tree (place d c.isolationRoot) then (s, t.leave)
    else (s, { t with phase := .isolate .writeMarker work c })
  | .makeRoot =>
    match mkdir s.tree (place d c.isolationRoot) with
    | some tree => ({ s with tree := tree }, { t with phase := .isolate .writeMarker work c })
    | none => (s, t.leave)
  | .writeMarker =>
    let tree := if choice.fails then none else create s.tree (marker d c.isolationRoot) markerText
    ({ s with tree := tree.getD s.tree }, { t with phase := .isolate .readMarkerAgain work c })
  | .readMarkerAgain =>
    if hasOwnedIsolationRoot d s.tree c.isolationRoot then
      (s, { t with phase := .isolate .inspectTarget work c })
    else (s, t.leave)
  | .inspectTarget =>
    if choice.fails || isDirectory s.tree (isolatedPath d work.source.id c) then (s, t.leave)
    else (s, { t with phase := .isolate .rename work c })
  | .rename =>
    match rename s.tree (place d c.path) (isolatedPath d work.source.id c) with
    | some tree =>
      if choice.fails then ({ s with tree := if choice.applied then tree else s.tree }, t.leave)
      else ({ s with tree := tree }, proceed d t (work.isolate c) work.todo)
    | none => (s, t.leave)

def selectScmPathPeers (s : Shared) : List ReclaimableScmSource := s.sources.rows.map reclaimable

def requestDeletion (now : Nat) (row : A2Wave.ScmSource) : A2Wave.ScmSource :=
  { row with deletionRequestedAt := some now }

def reserve (s : Shared) (t : Thread) (source : A2Wave.ScmSource) (choice : Choice) : Shared × Thread :=
  let peers := selectScmPathPeers s
  let reserved := s.sources.cas source.id
    (fun row => choice.idle && row.deletionRequestedAt.isNone) (requestDeletion choice.now) fun _ => rfl
  match reserved with
  | some sources =>
    let pendingSource := ((s.sources.find? source.id).map reclaimable).getD (reclaimable source)
    ({ s with sources := sources },
      proceed d t { source := pendingSource, peers := peers } (allocatedCandidates d pendingSource))
  | none =>
    if source.deletionRequestedAt = none then (s, t.leave)
    else (s, { t with phase := .selectPeers (reclaimable source) })

def act (s : Shared) (t : Thread) (choice : Choice) : Option (Shared × Thread) :=
  match t.phase with
  | .select id =>
    match s.sources.find? id with
    | some source =>
      if choice.refused then some (s, t.leave) else some (s, { t with phase := .reserve source })
    | none => some (s, t.leave)
  | .reserve source => if choice.refused then some (s, t.leave) else some (reserve d s t source choice)
  | .listPending =>
    let pendingDeletions := s.sources.select fun row => row.deletionRequestedAt.isSome
    some (s, Thread.leave { t with pending := pendingDeletions.map reclaimable })
  | .selectPeers source =>
    let work : Work := { source := source, peers := selectScmPathPeers s }
    some (s, proceed d t work (allocatedCandidates d source))
  | .isolate await work c => some (isolate d s t work c choice await)
  | .commit work [] => some (s, { t with phase := .finalize work.source })
  | .commit work (c :: rest) =>
    let tree := remove s.tree (isolatedPath d work.source.id c)
    if choice.fails then some ({ s with tree := if choice.applied then tree else s.tree }, t.leave)
    else some ({ s with tree := tree }, { t with phase := .commit work rest })
  | .finalize source =>
    let sources := s.sources.deleteWhere fun row =>
      row.id = source.id && row.deletionRequestedAt.isSome
    some ({ s with sources := sources }, t.leave)
  | .ended => none

def program : Pool.Program Shared Thread Choice where
  start _ _ t := t.pending.isEmpty && match t.phase with
    | .select _ => true
    | .listPending => true
    | _ => false
  act := act d

end Program

def ReservesRoots (d : Deployment) (sources : Table A2Wave.ScmSource) : Prop :=
  ∀ row ∈ sources.rows, ∀ path ∈ (reclaimable row).paths, ∀ root ∈ reclaimRoots d.toPlatform,
    PathPlan.filesystemPathsOverlap d.toPlatform path root = false

structure Ground (d : Deployment) (known : List ReclaimableScmSource) : Prop where
  unique : ∀ a ∈ known, ∀ b ∈ known, a.id = b.id → a = b
  reserved : ∀ a ∈ known, ∀ path ∈ a.paths, ∀ root ∈ reclaimRoots d.toPlatform,
    PathPlan.filesystemPathsOverlap d.toPlatform path root = false

section Places

variable {d : Deployment} {known : List ReclaimableScmSource} {a b : ReclaimableScmSource}
  {c c' : Candidate} {root root' path : String}

theorem ReservesRoots.ground {sources : Table A2Wave.ScmSource} (h : ReservesRoots d sources) :
    Ground d (sources.rows.map reclaimable) := by
  constructor
  · intro a ha b hb hid
    obtain ⟨row, hrow, rfl⟩ := List.mem_map.mp ha
    obtain ⟨row', hrow', rfl⟩ := List.mem_map.mp hb
    exact congrArg reclaimable (List.inj_on_of_nodup_map sources.nodup hrow hrow' hid)
  · intro a ha
    obtain ⟨row, hrow, rfl⟩ := List.mem_map.mp ha
    exact h row hrow

theorem reservesRoots_of_planned {d : Deployment} {pathExists : String → Bool} {planned : Table PathPlan.ScmSource}
    {sources : Table A2Wave.ScmSource} (h : RootsDisjoint d.toPlatform pathExists planned)
    (hrows : ∀ row ∈ sources.rows, ∃ peer ∈ planned.rows, peer.localPath = row.localPath ∧
      peer.workspacesPath = row.workspacesPath) : ReservesRoots d sources := by
  intro row hrow path hpath root hroot
  obtain ⟨peer, hpeer, hlocal, hws⟩ := hrows row hrow
  refine h.reclaim peer hpeer path ?_ root hroot
  rcases List.mem_cons.mp hpath with rfl | hpath
  · exact List.mem_cons.mpr (.inl hlocal.symm)
  · obtain ⟨hsome, -⟩ := Option.filter_eq_some_iff.mp (Option.mem_toList.mp hpath)
    have hstored : row.workspacesPath = some path := hsome
    have heff : effectiveWorkspacesPath d.toPlatform pathExists peer.toScmPathPeer = path := by
      rw [effectiveWorkspacesPath, hws, hstored]
      rfl
    exact List.mem_cons_of_mem _ (List.mem_singleton.mpr heff.symm)

theorem allocatedCandidates_cases (hc : c ∈ allocatedCandidates d a) :
    c = ⟨a.localPath, "localPath", scmReclaimRoot d.toPlatform⟩ ∨
    ∃ path, a.workspacesPath = some path ∧ path ≠ "" ∧ (c = ⟨path, "workspacesPath", scmReclaimRoot d.toPlatform⟩ ∨
        c = ⟨path, "legacyWorkspacesPath", legacyScmReclaimRoot d.toPlatform⟩) := by
  obtain ⟨⟨path, allocated, label, isolationRoot⟩, hmem, hmap⟩ := List.mem_filterMap.mp hc
  obtain ⟨path', hpath, rfl⟩ := Option.map_eq_some_iff.mp hmap
  obtain ⟨rfl, hcond⟩ := Option.filter_eq_some_iff.mp hpath
  have hne : path' ≠ "" := (of_decide_eq_true hcond).1
  simp only [List.mem_cons, List.not_mem_nil, or_false, Prod.mk.injEq] at hmem
  rcases hmem with ⟨hsome, -, rfl, rfl⟩ | ⟨hsome, -, rfl, rfl⟩ | ⟨hsome, -, rfl, rfl⟩
  · obtain rfl := Option.some.inj hsome
    exact .inl rfl
  · exact .inr ⟨path', hsome.symm, hne, .inl rfl⟩
  · exact .inr ⟨path', hsome.symm, hne, .inr rfl⟩

theorem mem_allocatedCandidates (hc : c ∈ allocatedCandidates d a) :
    c.path ∈ a.paths ∧ c.isolationRoot ∈ reclaimRoots d.toPlatform ∧
      c.label ∈ ["localPath", "workspacesPath", "legacyWorkspacesPath"] := by
  rcases allocatedCandidates_cases hc with rfl | ⟨path, hpath, hne, rfl | rfl⟩
  · simp [ReclaimableScmSource.paths, reclaimRoots]
  · simp [ReclaimableScmSource.paths, reclaimRoots, hpath, hne]
  · simp [ReclaimableScmSource.paths, reclaimRoots, hpath, hne]

theorem eq_of_label (hc : c ∈ allocatedCandidates d a) (hc' : c' ∈ allocatedCandidates d a)
    (hlabel : c.label = c'.label) : c = c' := by
  rcases allocatedCandidates_cases hc with rfl | ⟨path, hpath, -, rfl | rfl⟩ <;>
    rcases allocatedCandidates_cases hc' with rfl | ⟨path', hpath', -, rfl | rfl⟩ <;>
    simp_all

theorem append_dash_inj {l l' m m' : List Char} (hm : '-' ∉ m) (hm' : '-' ∉ m')
    (h : l ++ '-' :: m = l' ++ '-' :: m') : l = l' ∧ m = m' := by
  rcases List.append_eq_append_iff.mp h with ⟨k, rfl, hk⟩ | ⟨k, rfl, hk⟩
  · cases k with
    | nil => simpa using hk
    | cons x k =>
      obtain ⟨-, rfl⟩ := List.cons.inj hk
      exact absurd (List.mem_append_right k List.mem_cons_self) hm
  · cases k with
    | nil => simpa using hk.symm
    | cons x k =>
      obtain ⟨-, rfl⟩ := List.cons.inj hk
      exact absurd (List.mem_append_right k List.mem_cons_self) hm'

theorem dash_not_mem_label {label : String}
    (h : label ∈ ["localPath", "workspacesPath", "legacyWorkspacesPath"]) : '-' ∉ label.toList := by
  simp only [List.mem_cons, List.not_mem_nil, or_false] at h
  rcases h with rfl | rfl | rfl <;> decide

theorem isolatedName (id label : String) : (id ++ "-" ++ label).toList = id.toList ++ '-' :: label.toList := by
  simp

theorem roots_eq (ha : root ∈ reclaimRoots d.toPlatform) (hb : root' ∈ reclaimRoots d.toPlatform)
    {x : List Char} (h : place d root <+: place d root' ++ [x]) : place d root = place d root' := by
  rcases List.prefix_concat_iff.mp h with heq | hpre
  · -- then the second root would lie above the first
    have hback := d.apart root' hb root ha
    have hpre : place d root' <+: place d root := heq ▸ List.prefix_append _ [x]
    exact (hback hpre).symm
  · exact d.apart root ha root' hb hpre

theorem Ground.not_overlaps_root (g : Ground d known) (ha : a ∈ known) (hpath : path ∈ a.paths)
    (hroot : root ∈ reclaimRoots d.toPlatform) : ¬Overlaps (place d path) (place d root) := by
  have hkeys := g.reserved a ha path hpath root hroot
  simp only [PathPlan.filesystemPathsOverlap, decide_eq_false_iff_not] at hkeys
  rintro (h | h)
  · exact hkeys (.inl (h.map d.foldCase))
  · exact hkeys (.inr (h.map d.foldCase))

theorem Ground.not_overlaps_isolated (g : Ground d known) (ha : a ∈ known) (hpath : path ∈ a.paths)
    (hc : c ∈ allocatedCandidates d b) : ¬Overlaps (place d path) (isolatedPath d b.id c) :=
  not_overlaps_child (g.not_overlaps_root ha hpath (mem_allocatedCandidates hc).2.1) _

theorem Ground.isolated_inj (g : Ground d known) (ha : a ∈ known) (hb : b ∈ known)
    (hc : c ∈ allocatedCandidates d a) (hc' : c' ∈ allocatedCandidates d b)
    (h : isolatedPath d a.id c <+: isolatedPath d b.id c') : a = b ∧ c = c' := by
  obtain ⟨-, hroot, hlabel⟩ := mem_allocatedCandidates hc
  obtain ⟨-, hroot', hlabel'⟩ := mem_allocatedCandidates hc'
  have hplace : place d c.isolationRoot = place d c'.isolationRoot :=
    roots_eq hroot hroot' ((List.prefix_append _ _).trans h)
  rw [isolatedPath, isolatedPath, hplace, List.prefix_append_right_inj] at h
  have hname := List.cons_prefix_cons.mp h |>.1
  rw [isolatedName, isolatedName] at hname
  obtain ⟨hid, hlab⟩ := append_dash_inj (dash_not_mem_label hlabel) (dash_not_mem_label hlabel') hname
  obtain rfl := g.unique a ha b hb (String.toList_injective hid)
  exact ⟨rfl, eq_of_label hc hc' (String.toList_injective hlab)⟩

theorem not_isolated_prefix_root (hc : c ∈ allocatedCandidates d a)
    (hroot : root ∈ reclaimRoots d.toPlatform) : ¬isolatedPath d a.id c <+: place d root := by
  intro h
  have hpre : place d c.isolationRoot <+: place d root := (List.prefix_append _ _).trans h
  have heq := d.apart _ (mem_allocatedCandidates hc).2.1 _ hroot hpre
  have hlen := h.length_le
  change place d c.isolationRoot = place d root at heq
  rw [isolatedPath, heq, List.length_append, List.length_singleton] at hlen
  omega

theorem not_isolated_prefix_marker (hc : c ∈ allocatedCandidates d a)
    (hroot : root ∈ reclaimRoots d.toPlatform) : ¬isolatedPath d a.id c <+: marker d root := by
  intro h
  rcases List.prefix_concat_iff.mp h with heq | hpre
  · obtain ⟨-, hname⟩ := List.append_inj' heq rfl
    have hchars := (List.cons.inj hname).1
    have hmarker : SCM_RECLAIM_MARKER.toList = ".a2wave-owned-reclaim".toList ++ '-' :: "root".toList := by
      decide
    rw [isolatedName, hmarker] at hchars
    obtain ⟨-, hlab⟩ := append_dash_inj (dash_not_mem_label (mem_allocatedCandidates hc).2.2) (by decide) hchars
    have hlabel := (mem_allocatedCandidates hc).2.2
    rw [String.toList_injective hlab] at hlabel
    revert hlabel
    decide
  · exact not_isolated_prefix_root hc hroot hpre

theorem Ground.not_prefix_marker (g : Ground d known) (ha : a ∈ known) (hpath : path ∈ a.paths)
    (hroot : root ∈ reclaimRoots d.toPlatform) : ¬place d path <+: marker d root :=
  fun h => not_overlaps_child (g.not_overlaps_root ha hpath hroot) _ (.inl h)

theorem marker_inj (h : place d root = place d root') : marker d root = marker d root' :=
  congrArg (· ++ _) h

end Places

section Trees

variable {d : Deployment} {known : List ReclaimableScmSource} {a : ReclaimableScmSource}
  {c : Candidate} {root path : String} {t t' : Entries (List Char)}

def Gone (d : Deployment) (t : Entries (List Char)) (id : String) (c : Candidate) : Prop :=
  isReclaimableDir d t c.path = false ∧
    ¬(hasOwnedIsolationRoot d t c.isolationRoot = true ∧ isDirectory t (isolatedPath d id c) = true)

structure Advances (d : Deployment) (known : List ReclaimableScmSource) (t t' : Entries (List Char)) : Prop where
  owned : ∀ root ∈ reclaimRoots d.toPlatform,
    hasOwnedIsolationRoot d t root = true → hasOwnedIsolationRoot d t' root = true
  vacant : ∀ a ∈ known, ∀ path ∈ a.paths, isReclaimableDir d t path = false → isReclaimableDir d t' path = false
  gone : ∀ a ∈ known, ∀ c ∈ allocatedCandidates d a, Gone d t a.id c → Gone d t' a.id c
  growth : ∀ root ∈ reclaimRoots d.toPlatform, ∀ e ∈ t', place d root <+: e.1 → e.1 ≠ place d root →
    e ∈ t ∨ hasOwnedIsolationRoot d t' root = true

theorem Advances.refl (d : Deployment) (known : List ReclaimableScmSource) (t : Entries (List Char)) :
    Advances d known t t :=
  ⟨fun _ _ h => h, fun _ _ _ _ h => h, fun _ _ _ _ h => h, fun _ _ _ he _ _ => .inl he⟩

theorem vacant_of_nothingNew (h : NothingNew t t' (place d path)) (hd : isReclaimableDir d t path = false) :
    isReclaimableDir d t' path = false := by
  simp only [isReclaimableDir, Bool.and_eq_false_iff, Bool.not_eq_false'] at hd ⊢
  refine hd.imp_right fun hdir => ?_
  rw [Bool.eq_false_iff] at hdir ⊢
  exact fun hd' => hdir (h.isDirectory hd')

theorem Gone.of_nothingNew (hg : Gone d t a.id c) (hplace : NothingNew t t' (place d c.path))
    (hparked : NothingNew t t' (isolatedPath d a.id c))
    (howned : hasOwnedIsolationRoot d t' c.isolationRoot = true →
      isDirectory t (isolatedPath d a.id c) = true → hasOwnedIsolationRoot d t c.isolationRoot = true) :
    Gone d t' a.id c := by
  refine ⟨vacant_of_nothingNew hplace hg.1, ?_⟩
  rintro ⟨ho, hdir⟩
  have hdir := hparked.isDirectory hdir
  exact hg.2 ⟨howned ho hdir, hdir⟩

theorem owned_eq (h : readFile t' (marker d root) = readFile t (marker d root)) :
    hasOwnedIsolationRoot d t' root = hasOwnedIsolationRoot d t root := by
  simp only [hasOwnedIsolationRoot, h]

theorem advances_append {m : Segments} {n : Node} (hplace : ∀ a ∈ known, ∀ path ∈ a.paths, ¬place d path <+: m)
    (hparked : ∀ a c, c ∈ allocatedCandidates d a → ¬isolatedPath d a.id c <+: m)
    (howned : ∀ root, hasOwnedIsolationRoot d (t ++ [(m, n)]) root = true →
      hasEntries t (place d root) = true → hasOwnedIsolationRoot d t root = true)
    (hgrowth : ∀ root ∈ reclaimRoots d.toPlatform, place d root <+: m → m ≠ place d root →
      hasOwnedIsolationRoot d (t ++ [(m, n)]) root = true) :
    Advances d known t (t ++ [(m, n)]) := by
  constructor
  · intro root _ ho
    simp only [hasOwnedIsolationRoot, decide_eq_true_eq] at ho ⊢
    rw [readFile_append, ho]
    rfl
  · intro a ha path hpath
    exact vacant_of_nothingNew (nothingNew_append (hplace a ha path hpath))
  · intro a ha c hc hg
    refine hg.of_nothingNew (nothingNew_append (hplace a ha _ (mem_allocatedCandidates hc).1))
      (nothingNew_append (hparked a c hc)) ?_
    intro ho hdir
    exact howned c.isolationRoot ho (isDirectory_of_below hdir (List.cons_ne_nil _ _))
  · intro root hroot e he hpre hne
    rcases List.mem_append.mp he with he | he
    · exact .inl he
    · rw [List.mem_singleton] at he
      subst he
      exact .inr (hgrowth root hroot hpre hne)

theorem Ground.advances_mkdir (g : Ground d known) (hroot : root ∈ reclaimRoots d.toPlatform)
    (h : mkdir t (place d root) = some t') : Advances d known t t' := by
  obtain rfl := mkdir_some h
  refine advances_append (fun a ha path hpath hpre => g.not_overlaps_root ha hpath hroot (.inl hpre))
    (fun a c hc => not_isolated_prefix_root hc hroot) ?_ ?_
  · intro root' ho _
    have hread : readFile (t ++ [(place d root, .directory)]) (marker d root') = readFile t (marker d root') := by
      rw [readFile_append]
      simp [Node.text]
    rwa [owned_eq hread] at ho
  · intro root' hroot' hpre hne
    exact absurd (d.apart root' hroot' root hroot hpre).symm hne

theorem Ground.advances_create (g : Ground d known) (hroot : root ∈ reclaimRoots d.toPlatform)
    (hfresh : hasEntries t (place d root) = true → hasOwnedIsolationRoot d t root = true)
    (h : create t (marker d root) markerText = some t') : Advances d known t t' := by
  obtain ⟨rfl, -, hread⟩ := create_some h
  refine advances_append (fun a ha path hpath => g.not_prefix_marker ha hpath hroot)
    (fun a c hc => not_isolated_prefix_marker hc hroot) ?_ ?_
  · intro root' ho hentries
    by_cases heq : marker d root = marker d root'
    · -- the marker is new, so nothing stood beside it
      have hsame : place d root = place d root' := List.append_inj_left' heq rfl
      rw [← hsame] at hentries
      have howned := hfresh hentries
      simp only [hasOwnedIsolationRoot] at howned ⊢
      rwa [← heq]
    · simp only [hasOwnedIsolationRoot] at ho ⊢
      rw [readFile_append, if_neg heq] at ho
      simpa using ho
  · intro root' hroot' hpre _
    simp only [hasOwnedIsolationRoot, decide_eq_true_eq]
    rwa [marker_inj (roots_eq hroot' hroot hpre)]

theorem advances_remove (hc : c ∈ allocatedCandidates d a) :
    Advances d known t (remove t (isolatedPath d a.id c)) := by
  have howned : ∀ root ∈ reclaimRoots d.toPlatform,
      hasOwnedIsolationRoot d (remove t (isolatedPath d a.id c)) root = hasOwnedIsolationRoot d t root :=
    fun root hroot => owned_eq (readFile_remove (not_isolated_prefix_marker hc hroot))
  constructor
  · intro root hroot ho
    rwa [howned root hroot]
  · intro b hb path hpath
    exact vacant_of_nothingNew (nothingNew_remove t _ _)
  · intro b hb c' hc' hg
    refine hg.of_nothingNew (nothingNew_remove t _ _) (nothingNew_remove t _ _) ?_
    intro ho _
    rwa [howned _ (mem_allocatedCandidates hc').2.1] at ho
  · intro root _ e he _ _
    exact .inl (mem_remove.mp he).1

theorem Ground.advances_rename (g : Ground d known) (ha : a ∈ known) (hc : c ∈ allocatedCandidates d a)
    (hlink : d.isSymbolicLink c.path = false)
    (ho : hasOwnedIsolationRoot d t c.isolationRoot = true)
    (h : rename t (place d c.path) (isolatedPath d a.id c) = some t') : Advances d known t t' := by
  obtain ⟨hpath, hisolation, -⟩ := mem_allocatedCandidates hc
  have howned : ∀ root ∈ reclaimRoots d.toPlatform,
      hasOwnedIsolationRoot d t' root = hasOwnedIsolationRoot d t root := fun root hroot =>
    owned_eq (readFile_rename h (g.not_prefix_marker ha hpath hroot) (not_isolated_prefix_marker hc hroot))
  have hplace : ∀ b ∈ known, ∀ path ∈ b.paths, NothingNew t t' (place d path) := fun b hb path hp =>
    nothingNew_rename h (g.not_overlaps_isolated hb hp hc)
  constructor
  · intro root hroot ho
    rwa [howned root hroot]
  · intro b hb path hp
    exact vacant_of_nothingNew (hplace b hb path hp)
  · intro b hb c' hc' hg
    have hother : ¬Overlaps (isolatedPath d b.id c') (isolatedPath d a.id c) := by
      -- the source of the rename is a directory, so it is not the candidate that is gone
      have hsource : ¬(b = a ∧ c' = c) := by
        rintro ⟨rfl, rfl⟩
        have hvacant := hg.1
        rw [isReclaimableDir, hlink, (rename_some h).1] at hvacant
        cases hvacant
      rintro (hpre | hpre)
      · exact hsource (g.isolated_inj hb ha hc' hc hpre)
      · obtain ⟨rfl, rfl⟩ := g.isolated_inj ha hb hc hc' hpre
        exact hsource ⟨rfl, rfl⟩
    refine hg.of_nothingNew (hplace b hb _ (mem_allocatedCandidates hc').1) (nothingNew_rename h hother) ?_
    intro ho _
    rwa [howned _ (mem_allocatedCandidates hc').2.1] at ho
  · intro root hroot e he hpre hne
    rcases mem_of_rename h he with ⟨he, -⟩ | hbelow
    · exact .inl he
    refine .inr ?_
    rcases List.prefix_or_prefix_of_prefix hpre hbelow with hup | hdown
    · have hsame := roots_eq hroot hisolation hup
      rw [howned root hroot]
      simp only [hasOwnedIsolationRoot] at ho ⊢
      rwa [marker_inj hsame]
    · exact absurd hdown (not_isolated_prefix_root hc hroot)

end Trees

section Invariant

variable {d : Deployment} {known : List ReclaimableScmSource} {s s' : Shared}
  {source : ReclaimableScmSource} {c : Candidate} {work : Work} {rest : List Candidate} {t t' : Thread}

def Requested (s : Shared) (id : String) : Prop :=
  ∀ row ∈ s.sources.rows, row.id = id → row.deletionRequestedAt.isSome = true

/-- What may be moved or removed: a directory derived from an id whose deletion is requested,
apart from the directories of every other row. -/
structure Derived (d : Deployment) (known : List ReclaimableScmSource) (s : Shared)
    (source : ReclaimableScmSource) (c : Candidate) : Prop where
  known : source ∈ known
  requested : Requested s source.id
  candidate : c ∈ allocatedCandidates d source
  owned : hasOwnedIsolationRoot d s.tree c.isolationRoot = true
  path : ∀ row ∈ s.sources.rows, row.id ≠ source.id → ∀ path ∈ (reclaimable row).paths,
    PathPlan.filesystemPathsOverlap d.toPlatform path c.path = false
  isolated : ∀ row ∈ s.sources.rows, ∀ path ∈ (reclaimable row).paths,
    ¬Overlaps (place d path) (isolatedPath d source.id c)

structure Steps (d : Deployment) (known : List ReclaimableScmSource) (s s' : Shared) : Prop where
  rows : ∀ row' ∈ s'.sources.rows, ∃ row ∈ s.sources.rows, reclaimable row = reclaimable row' ∧
    (row.deletionRequestedAt.isSome = true → row'.deletionRequestedAt.isSome = true)
  tree : Advances d known s.tree s'.tree
  deleted : ∀ row ∈ s.sources.rows, s'.sources.find? row.id = none →
    ∀ c ∈ allocatedCandidates d (reclaimable row), Gone d s.tree row.id c
  emptied : ∀ e ∈ s.tree, e ∉ s'.tree → ∃ source c, Derived d known s source c ∧
    (place d c.path <+: e.1 ∨ isolatedPath d source.id c <+: e.1)

structure Claims (d : Deployment) (s : Shared) (work : Work) (c : Candidate) : Prop where
  candidate : c ∈ allocatedCandidates d work.source
  owned : hasOwnedIsolationRoot d s.tree c.isolationRoot = true
  free : findOccupyingPeer d work.peers c.path work.source.id = none

structure Work.Ready (known : List ReclaimableScmSource) (s : Shared) (work : Work) : Prop where
  known : work.source ∈ known
  requested : Requested s work.source.id
  peers : ∀ row ∈ s.sources.rows, row.id ≠ work.source.id → reclaimable row ∈ work.peers

def Parked (d : Deployment) (s : Shared) (work : Work) (c : Candidate) : Prop :=
  Claims d s work c ∧ isReclaimableDir d s.tree c.path = false

structure Work.Holds (d : Deployment) (known : List ReclaimableScmSource) (s : Shared) (work : Work)
    (rest : List Candidate) : Prop extends work.Ready known s where
  left : ∀ c ∈ rest, c ∈ allocatedCandidates d work.source
  isolated : ∀ c ∈ work.isolated, Parked d s work c
  settled : ∀ c ∈ allocatedCandidates d work.source, c ∈ rest ∨ work.blocked ≠ [] ∨ c ∈ work.isolated ∨
    Gone d s.tree work.source.id c

def Await.Holds (d : Deployment) (s : Shared) (c : Candidate) : Await → Prop
  | .inspect => True
  | .hasOwned => isReclaimableDir d s.tree c.path = false
  | .inspectParked => isReclaimableDir d s.tree c.path = false ∧ hasOwnedIsolationRoot d s.tree c.isolationRoot = true
  | .readMarker | .listRoot | .readMarkerAgain => d.isSymbolicLink c.path = false
  | .makeRoot | .writeMarker => d.isSymbolicLink c.path = false ∧ (hasEntries s.tree (place d c.isolationRoot) = true →
        hasOwnedIsolationRoot d s.tree c.isolationRoot = true)
  | .inspectTarget | .rename => d.isSymbolicLink c.path = false ∧ hasOwnedIsolationRoot d s.tree c.isolationRoot = true

def Phase.Holds (d : Deployment) (known : List ReclaimableScmSource) (s : Shared) : Phase → Prop
  | .select _ | .listPending | .ended => True
  | .reserve source => reclaimable source ∈ known ∧ (source.deletionRequestedAt.isSome = true → Requested s source.id)
  | .selectPeers source => source ∈ known ∧ Requested s source.id
  | .isolate await work c => work.Holds d known s (c :: work.todo) ∧
      findOccupyingPeer d work.peers c.path work.source.id = none ∧ await.Holds d s c
  | .commit work rest => work.Ready known s ∧ (∀ c ∈ rest, Parked d s work c) ∧
      ∀ c ∈ allocatedCandidates d work.source, c ∈ rest ∨ Gone d s.tree work.source.id c
  | .finalize source => source ∈ known ∧ ∀ c ∈ allocatedCandidates d source, Gone d s.tree source.id c

def Thread.Holds (d : Deployment) (known : List ReclaimableScmSource) (s : Shared) (t : Thread) : Prop :=
  (∀ source ∈ t.pending, source ∈ known ∧ Requested s source.id) ∧ t.phase.Holds d known s

structure Shared.Holds (d : Deployment) (known : List ReclaimableScmSource) (tree : Entries (List Char))
    (s : Shared) : Prop where
  rows : ∀ row ∈ s.sources.rows, reclaimable row ∈ known
  untouched : ∀ root ∈ reclaimRoots d.toPlatform, hasOwnedIsolationRoot d s.tree root = false →
    ∀ e ∈ s.tree, place d root <+: e.1 → e.1 ≠ place d root → e ∈ tree

theorem Steps.requested (h : Steps d known s s') {id : String} (hr : Requested s id) : Requested s' id := by
  intro row' hrow' hid
  obtain ⟨row, hrow, heq, hkeeps⟩ := h.rows row' hrow'
  have hid' : row.id = row'.id := congrArg ReclaimableScmSource.id heq
  exact hkeeps (hr row hrow (hid'.trans hid))

theorem Steps.ready (h : Steps d known s s') (hw : work.Ready known s) : work.Ready known s' := by
  refine ⟨hw.known, h.requested hw.requested, ?_⟩
  intro row' hrow' hne
  obtain ⟨row, hrow, heq, -⟩ := h.rows row' hrow'
  have hid : row.id = row'.id := congrArg ReclaimableScmSource.id heq
  rw [← heq]
  exact hw.peers row hrow fun hsame => hne (hid ▸ hsame)

theorem Steps.vacant (h : Steps d known s s') (ha : source ∈ known)
    (hc : c ∈ allocatedCandidates d source) (hv : isReclaimableDir d s.tree c.path = false) :
    isReclaimableDir d s'.tree c.path = false :=
  h.tree.vacant source ha _ (mem_allocatedCandidates hc).1 hv

theorem Steps.owned (h : Steps d known s s') (hc : c ∈ allocatedCandidates d source)
    (ho : hasOwnedIsolationRoot d s.tree c.isolationRoot = true) :
    hasOwnedIsolationRoot d s'.tree c.isolationRoot = true :=
  h.tree.owned _ (mem_allocatedCandidates hc).2.1 ho

theorem Steps.parked (h : Steps d known s s') (ha : work.source ∈ known) (hp : Parked d s work c) :
    Parked d s' work c :=
  ⟨⟨hp.1.candidate, h.owned hp.1.candidate hp.1.owned, hp.1.free⟩, h.vacant ha hp.1.candidate hp.2⟩

theorem Steps.fresh (h : Steps d known s s') {root : String} (hroot : root ∈ reclaimRoots d.toPlatform)
    (hf : hasEntries s.tree (place d root) = true → hasOwnedIsolationRoot d s.tree root = true)
    (he : hasEntries s'.tree (place d root) = true) : hasOwnedIsolationRoot d s'.tree root = true := by
  obtain ⟨e, hmem, hpre, hne⟩ := hasEntries_iff.mp he
  rcases h.tree.growth root hroot e hmem hpre hne with hold | howned
  · exact h.tree.owned root hroot (hf (hasEntries_iff.mpr ⟨e, hold, hpre, hne⟩))
  · exact howned

theorem Steps.await {await : Await} (h : Steps d known s s') (ha : source ∈ known)
    (hc : c ∈ allocatedCandidates d source) (hw : await.Holds d s c) : await.Holds d s' c := by
  cases await with
  | inspect => trivial
  | hasOwned => exact h.vacant ha hc hw
  | inspectParked => exact ⟨h.vacant ha hc hw.1, h.owned hc hw.2⟩
  | readMarker => exact hw
  | listRoot => exact hw
  | readMarkerAgain => exact hw
  | makeRoot | writeMarker => exact ⟨hw.1, h.fresh (mem_allocatedCandidates hc).2.1 hw.2⟩
  | inspectTarget | rename => exact ⟨hw.1, h.owned hc hw.2⟩

theorem Steps.holds (h : Steps d known s s') (hw : work.Holds d known s rest) : work.Holds d known s' rest where
  toReady := h.ready hw.toReady
  left := hw.left
  isolated c hc := h.parked hw.known (hw.isolated c hc)
  settled c hc := by
    rcases hw.settled c hc with hrest | hblocked | hisolated | hgone
    · exact .inl hrest
    · exact .inr (.inl hblocked)
    · exact .inr (.inr (.inl hisolated))
    · exact .inr (.inr (.inr (h.tree.gone _ hw.known c hc hgone)))

theorem Steps.phase {phase : Phase} (h : Steps d known s s') (hp : phase.Holds d known s) :
    phase.Holds d known s' := by
  cases phase with
  | select id => trivial
  | listPending => trivial
  | ended => trivial
  | reserve source => exact ⟨hp.1, fun hsome => h.requested (hp.2 hsome)⟩
  | selectPeers source => exact ⟨hp.1, h.requested hp.2⟩
  | isolate await work c =>
    obtain ⟨hw, hfree, hawait⟩ := hp
    exact ⟨h.holds hw, hfree, h.await hw.known (hw.left c List.mem_cons_self) hawait⟩
  | commit work rest =>
    obtain ⟨hw, hrest, hgone⟩ := hp
    refine ⟨h.ready hw, fun c hc => h.parked hw.known (hrest c hc), ?_⟩
    intro c hc
    exact (hgone c hc).imp_right (h.tree.gone _ hw.known c hc)
  | finalize source => exact ⟨hp.1, fun c hc => h.tree.gone _ hp.1 c hc (hp.2 c hc)⟩

theorem Steps.thread (h : Steps d known s s') (ht : t.Holds d known s) : t.Holds d known s' :=
  ⟨fun source hs => ⟨(ht.1 source hs).1, h.requested (ht.1 source hs).2⟩, h.phase ht.2⟩

theorem Steps.shared {tree : Entries (List Char)} (h : Steps d known s s') (hs : s.Holds d known tree) :
    s'.Holds d known tree := by
  constructor
  · intro row' hrow'
    obtain ⟨row, hrow, heq, -⟩ := h.rows row' hrow'
    rw [← heq]
    exact hs.rows row hrow
  · intro root hroot hno e he hpre hne
    rcases h.tree.growth root hroot e he hpre hne with hold | howned
    · refine hs.untouched root hroot ?_ e hold hpre hne
      rw [Bool.eq_false_iff] at hno ⊢
      exact fun ho => hno (h.tree.owned root hroot ho)
    · rw [hno] at howned
      cases howned

theorem Steps.refl (d : Deployment) (known : List ReclaimableScmSource) (s : Shared) : Steps d known s s where
  rows row hrow := ⟨row, hrow, rfl, fun h => h⟩
  tree := .refl d known s.tree
  deleted row hrow hnone := absurd rfl (Table.find?_eq_none_iff.mp hnone row hrow)
  emptied _ he hno := absurd he hno

theorem Steps.of_tree {tree : Entries (List Char)} (h : Advances d known s.tree tree)
    (hempty : ∀ e ∈ s.tree, e ∉ tree → ∃ source c, Derived d known s source c ∧
      (place d c.path <+: e.1 ∨ isolatedPath d source.id c <+: e.1)) :
    Steps d known s { s with tree := tree } where
  rows row hrow := ⟨row, hrow, rfl, fun h => h⟩
  tree := h
  deleted row hrow hnone := absurd rfl (Table.find?_eq_none_iff.mp hnone row hrow)
  emptied := hempty

end Invariant

section Program

variable {d : Deployment} {known : List ReclaimableScmSource} {tree : Entries (List Char)} {s s' : Shared}
  {source : ReclaimableScmSource} {c : Candidate} {work : Work} {rest : List Candidate} {t t' : Thread}
  {choice : Choice}

theorem findOccupyingPeer_none {peers : List ReclaimableScmSource} {candidate sourceId : String}
    (h : findOccupyingPeer d peers candidate sourceId = none) {peer : ReclaimableScmSource}
    (hpeer : peer ∈ peers) (hne : peer.id ≠ sourceId) {path : String} (hpath : path ∈ peer.paths) :
    PathPlan.filesystemPathsOverlap d.toPlatform path candidate = false := by
  have hno := List.find?_eq_none.mp h peer hpeer
  simp only [Bool.and_eq_true, decide_eq_true_eq, List.any_eq_true, not_and, not_exists] at hno
  simpa using hno hne path hpath

theorem Claims.derived (g : Ground d known) (hs : s.Holds d known tree) (hw : work.Ready known s)
    (hc : Claims d s work c) : Derived d known s work.source c where
  known := hw.known
  requested := hw.requested
  candidate := hc.candidate
  owned := hc.owned
  path row hrow hne _ hpath := findOccupyingPeer_none hc.free (hw.peers row hrow hne) hne hpath
  isolated row hrow _ hpath := g.not_overlaps_isolated (hs.rows row hrow) hpath hc.candidate

theorem leave_holds (ht : ∀ source ∈ t.pending, source ∈ known ∧ Requested s source.id) : t.leave.Holds d known s := by
  unfold Thread.leave
  split
  · exact ⟨ht, trivial⟩
  · rename_i source pending heq
    rw [heq] at ht
    exact ⟨fun a ha => ht a (List.mem_cons_of_mem _ ha), ht source List.mem_cons_self⟩

theorem Parked.congr {work' : Work} (hp : Parked d s work c) (hsource : work'.source = work.source)
    (hpeers : work'.peers = work.peers) : Parked d s work' c := by
  obtain ⟨⟨hcandidate, howned, hfree⟩, hvacant⟩ := hp
  rw [← hsource] at hcandidate hfree
  rw [← hpeers] at hfree
  exact ⟨⟨hcandidate, howned, hfree⟩, hvacant⟩

theorem proceed_holds (ht : ∀ source ∈ t.pending, source ∈ known ∧ Requested s source.id)
    (hw : work.Holds d known s rest) : (proceed d t work rest).Holds d known s := by
  induction rest generalizing work with
  | nil =>
    unfold proceed
    split
    · rename_i hblocked
      refine ⟨ht, hw.toReady, hw.isolated, ?_⟩
      intro c hc
      rcases hw.settled c hc with hrest | hne | hisolated | hgone
      · exact absurd hrest List.not_mem_nil
      · exact absurd hblocked hne
      · exact .inl hisolated
      · exact .inr hgone
    · exact leave_holds ht
  | cons c rest ih =>
    unfold proceed
    split
    · -- a blocked candidate keeps the row, so nothing has to be settled any more
      refine ih ⟨⟨hw.known, hw.requested, hw.peers⟩, fun c' hc' => hw.left c' (List.mem_cons_of_mem _ hc'),
        fun c' hc' => (hw.isolated c' hc').congr rfl rfl, fun _ _ => .inr (.inl (by simp))⟩
    · rename_i hfree
      exact ⟨ht, ⟨⟨hw.known, hw.requested, hw.peers⟩, hw.left,
        fun c' hc' => (hw.isolated c' hc').congr rfl rfl, hw.settled⟩, hfree, trivial⟩

theorem Work.Holds.skip (hw : work.Holds d known s (c :: rest))
    (hg : Gone d s.tree work.source.id c) : work.Holds d known s rest where
  toReady := hw.toReady
  left c' hc' := hw.left c' (List.mem_cons_of_mem _ hc')
  isolated := hw.isolated
  settled c' hc' := by
    rcases hw.settled c' hc' with hrest | hother
    · rcases List.mem_cons.mp hrest with rfl | hrest
      · exact .inr (.inr (.inr hg))
      · exact .inl hrest
    · exact .inr hother

theorem Work.Holds.park (hw : work.Holds d known s (c :: rest)) (hp : Parked d s work c) :
    (work.isolate c).Holds d known s rest where
  known := hw.known
  requested := hw.requested
  peers := hw.peers
  left c' hc' := hw.left c' (List.mem_cons_of_mem _ hc')
  isolated c' hc' := by
    rcases List.mem_append.mp hc' with hc' | hc'
    · exact (hw.isolated c' hc').congr rfl rfl
    · rw [List.mem_singleton.mp hc']
      exact hp.congr rfl rfl
  settled c' hc' := by
    rcases hw.settled c' hc' with hrest | hblocked | hisolated | hgone
    · rcases List.mem_cons.mp hrest with rfl | hrest
      · exact .inr (.inr (.inl (List.mem_append_right _ (List.mem_singleton_self c'))))
      · exact .inl hrest
    · exact .inr (.inl hblocked)
    · exact .inr (.inr (.inl (List.mem_append_left _ hisolated)))
    · exact .inr (.inr (.inr hgone))

def Meets (d : Deployment) (known : List ReclaimableScmSource) (s : Shared) (r : Shared × Thread) : Prop :=
  Steps d known s r.1 ∧ r.2.Holds d known r.1

theorem Meets.read (h : t.Holds d known s) : Meets d known s (s, t) := ⟨.refl d known s, h⟩

theorem Meets.leave (ht : t.Holds d known s) : Meets d known s (s, t.leave) := .read (leave_holds ht.1)

section Isolate

variable {await : Await} (ht : t.Holds d known s)
  (hphase : t.phase = .isolate await work c)

include ht hphase

theorem isolate_phase : work.Holds d known s (c :: work.todo) ∧
    findOccupyingPeer d work.peers c.path work.source.id = none ∧ await.Holds d s c := by
  have hp := ht.2
  rw [hphase] at hp
  exact hp

theorem isolate_next {await' : Await} (hawait : await'.Holds d s c) :
    Meets d known s (s, { t with phase := .isolate await' work c }) := by
  obtain ⟨hw, hfree, -⟩ := isolate_phase ht hphase
  exact .read ⟨ht.1, hw, hfree, hawait⟩

theorem isolate_skip (hg : Gone d s.tree work.source.id c) : Meets d known s (s, proceed d t work work.todo) := by
  obtain ⟨hw, -, -⟩ := isolate_phase ht hphase
  exact .read (proceed_holds ht.1 (hw.skip hg))

theorem isolate_claims (howned : hasOwnedIsolationRoot d s.tree c.isolationRoot = true) : Claims d s work c := by
  obtain ⟨hw, hfree, -⟩ := isolate_phase ht hphase
  exact ⟨hw.left c List.mem_cons_self, howned, hfree⟩

end Isolate

section Awaits

variable (g : Ground d known) (hs : s.Holds d known tree) (ht : t.Holds d known s)

include ht

theorem inspect_meets (hphase : t.phase = .isolate .inspect work c) :
    Meets d known s (isolate d s t work c choice .inspect) := by
  dsimp only [isolate]
  split
  · exact .leave ht
  split
  · rename_i hdir
    simp only [isReclaimableDir, Bool.and_eq_true, Bool.not_eq_true'] at hdir
    refine isolate_next ht hphase ?_
    exact hdir.1
  · rename_i hdir
    refine isolate_next ht hphase ?_
    exact Bool.eq_false_iff.mpr hdir

theorem hasOwned_meets (hphase : t.phase = .isolate .hasOwned work c) :
    Meets d known s (isolate d s t work c choice .hasOwned) := by
  obtain ⟨-, -, hvacant⟩ := isolate_phase ht hphase
  dsimp only [isolate]
  split
  · rename_i howned
    refine isolate_next ht hphase ?_
    exact ⟨hvacant, howned⟩
  · rename_i howned
    exact isolate_skip ht hphase ⟨hvacant, fun h => howned h.1⟩

theorem inspectParked_meets (hphase : t.phase = .isolate .inspectParked work c) :
    Meets d known s (isolate d s t work c choice .inspectParked) := by
  obtain ⟨hw, -, hvacant, howned⟩ := isolate_phase ht hphase
  dsimp only [isolate]
  split
  · exact .leave ht
  split
  · exact .read (proceed_holds ht.1 (hw.park ⟨isolate_claims ht hphase howned, hvacant⟩))
  · rename_i hparked
    exact isolate_skip ht hphase ⟨hvacant, fun h => hparked h.2⟩

theorem readMarker_meets (hphase : t.phase = .isolate .readMarker work c) :
    Meets d known s (isolate d s t work c choice .readMarker) := by
  obtain ⟨-, -, hlink⟩ := isolate_phase ht hphase
  dsimp only [isolate]
  split
  · rename_i existing hread
    split
    · rename_i heq
      subst heq
      refine isolate_next ht hphase ?_
      exact ⟨hlink, decide_eq_true hread⟩
    · exact .leave ht
  · refine isolate_next ht hphase ?_
    exact hlink

theorem listRoot_meets (hphase : t.phase = .isolate .listRoot work c) :
    Meets d known s (isolate d s t work c choice .listRoot) := by
  obtain ⟨-, -, hlink⟩ := isolate_phase ht hphase
  dsimp only [isolate]
  split
  · rename_i hdir
    simp only [Bool.not_eq_true', Bool.eq_false_iff] at hdir
    refine isolate_next ht hphase ?_
    exact ⟨hlink, fun h => absurd (isDirectory_of_hasEntries h) hdir⟩
  split
  · exact .leave ht
  · rename_i hentries
    refine isolate_next ht hphase ?_
    exact ⟨hlink, fun h => absurd h hentries⟩

theorem readMarkerAgain_meets (hphase : t.phase = .isolate .readMarkerAgain work c) :
    Meets d known s (isolate d s t work c choice .readMarkerAgain) := by
  obtain ⟨-, -, hlink⟩ := isolate_phase ht hphase
  dsimp only [isolate]
  split
  · rename_i howned
    refine isolate_next ht hphase ?_
    exact ⟨hlink, howned⟩
  · exact .leave ht

theorem inspectTarget_meets (hphase : t.phase = .isolate .inspectTarget work c) :
    Meets d known s (isolate d s t work c choice .inspectTarget) := by
  obtain ⟨-, -, hawait⟩ := isolate_phase ht hphase
  dsimp only [isolate]
  split
  · exact .leave ht
  · refine isolate_next ht hphase ?_
    exact hawait

include g

theorem makeRoot_meets (hphase : t.phase = .isolate .makeRoot work c) :
    Meets d known s (isolate d s t work c choice .makeRoot) := by
  obtain ⟨hw, hfree, hawait⟩ := isolate_phase ht hphase
  have hroot := (mem_allocatedCandidates (hw.left c List.mem_cons_self)).2.1
  dsimp only [isolate]
  split
  · rename_i tree' hmkdir
    have hstep : Steps d known s { s with tree := tree' } := by
      refine .of_tree (g.advances_mkdir hroot hmkdir) fun e he hno => absurd ?_ hno
      rw [mkdir_some hmkdir]
      exact List.mem_append_left _ he
    have hnext : Thread.Holds d known s { t with phase := .isolate .writeMarker work c } :=
      ⟨ht.1, hw, hfree, hawait⟩
    exact ⟨hstep, hstep.thread hnext⟩
  · exact .leave ht

theorem writeMarker_meets (hphase : t.phase = .isolate .writeMarker work c) :
    Meets d known s (isolate d s t work c choice .writeMarker) := by
  obtain ⟨hw, hfree, hlink, hfresh⟩ := isolate_phase ht hphase
  have hroot := (mem_allocatedCandidates (hw.left c List.mem_cons_self)).2.1
  have hnext : Thread.Holds d known s { t with phase := .isolate .readMarkerAgain work c } :=
    ⟨ht.1, hw, hfree, hlink⟩
  dsimp only [isolate]
  cases hcreate : (if choice.fails then none else create s.tree (marker d c.isolationRoot) markerText) with
  | none => exact .read hnext
  | some tree' =>
    split at hcreate
    · cases hcreate
    have hstep : Steps d known s { s with tree := tree' } := by
      refine .of_tree (g.advances_create hroot hfresh hcreate) fun e he hno => absurd ?_ hno
      rw [(create_some hcreate).1]
      exact List.mem_append_left _ he
    exact ⟨hstep, hstep.thread hnext⟩

include hs

theorem rename_meets (hphase : t.phase = .isolate .rename work c) :
    Meets d known s (isolate d s t work c choice .rename) := by
  obtain ⟨hw, hfree, hlink, howned⟩ := isolate_phase ht hphase
  have hclaims := isolate_claims ht hphase howned
  have hc := hclaims.candidate
  dsimp only [isolate]
  split
  · rename_i tree' hrename
    have hstep : Steps d known s { s with tree := tree' } := by
      refine .of_tree (g.advances_rename hw.known hc hlink howned hrename) fun e he hno => ?_
      refine ⟨work.source, c, hclaims.derived g hs hw.toReady, ?_⟩
      by_contra hneither
      rw [not_or] at hneither
      exact hno (mem_rename_of_mem hrename he hneither.1 hneither.2)
    split
    · -- the error may come after the move
      cases choice.applied
      · exact .leave ht
      · exact ⟨hstep, hstep.thread (leave_holds ht.1)⟩
    · have hvacant : isReclaimableDir d tree' c.path = false := by
        have hapart := g.not_overlaps_isolated hw.known (mem_allocatedCandidates hc).1 hc
        rw [isReclaimableDir, isDirectory_rename hrename hapart, Bool.and_false]
      have hparked : Parked d { s with tree := tree' } work c :=
        ⟨⟨hc, hstep.owned hc howned, hfree⟩, hvacant⟩
      have hpending := (hstep.thread ht).1
      exact ⟨hstep, proceed_holds hpending ((hstep.holds hw).park hparked)⟩
  · exact .leave ht

theorem isolate_meets {await : Await} (hphase : t.phase = .isolate await work c) :
    Meets d known s (isolate d s t work c choice await) := by
  cases await with
  | inspect => exact inspect_meets ht hphase
  | hasOwned => exact hasOwned_meets ht hphase
  | inspectParked => exact inspectParked_meets ht hphase
  | readMarker => exact readMarker_meets ht hphase
  | listRoot => exact listRoot_meets ht hphase
  | makeRoot => exact makeRoot_meets g ht hphase
  | writeMarker => exact writeMarker_meets g ht hphase
  | readMarkerAgain => exact readMarkerAgain_meets ht hphase
  | inspectTarget => exact inspectTarget_meets ht hphase
  | rename => exact rename_meets g hs ht hphase

end Awaits

theorem requested_of_row {row : A2Wave.ScmSource} (hrow : row ∈ s.sources.rows)
    (hsome : row.deletionRequestedAt.isSome = true) : Requested s row.id := by
  intro row' hrow' hid
  rw [List.inj_on_of_nodup_map s.sources.nodup hrow' hrow hid]
  exact hsome

theorem work_start (hknown : source ∈ known) (hrequested : Requested s source.id)
    {peers : List ReclaimableScmSource} (hpeers : ∀ row ∈ s.sources.rows, reclaimable row ∈ peers) :
    Work.Holds d known s { source := source, peers := peers } (allocatedCandidates d source) where
  known := hknown
  requested := hrequested
  peers row hrow _ := hpeers row hrow
  left _ hc := hc
  isolated _ hc := absurd hc List.not_mem_nil
  settled _ hc := .inl hc

theorem reserve_steps {id : String} {p : A2Wave.ScmSource → Bool} {now : Nat} {sources : Table A2Wave.ScmSource}
    {hkey : ∀ row, Keyed.key (requestDeletion now row) = Keyed.key row}
    (h : s.sources.cas id p (requestDeletion now) hkey = some sources) :
    Steps d known s { s with sources := sources } where
  rows row' hrow' := by
    obtain rfl := Table.cas_eq_updateWhere h
    obtain ⟨row, hrow, rfl⟩ := List.mem_map.mp hrow'
    refine ⟨row, hrow, ?_⟩
    split
    · exact ⟨rfl, fun _ => rfl⟩
    · exact ⟨rfl, fun hsome => hsome⟩
  tree := .refl d known s.tree
  deleted row hrow hnone := by
    have hfind : s.sources.find? row.id = some row := Table.find?_eq_some_iff.mpr ⟨hrow, rfl⟩
    dsimp only at hnone
    rw [Table.cas_eq_updateWhere h, Table.find?_updateWhere, hfind] at hnone
    cases hnone
  emptied _ he hno := absurd he hno

section Act

variable (g : Ground d known) (hs : s.Holds d known tree) (ht : t.Holds d known s)

include ht hs

theorem select_meets {id : String} {source : A2Wave.ScmSource} (hfind : s.sources.find? id = some source) :
    Meets d known s (s, { t with phase := .reserve source }) := by
  have hrow := Table.find?_mem hfind
  exact .read ⟨ht.1, hs.rows source hrow, requested_of_row hrow⟩

theorem reserve_meets {source : A2Wave.ScmSource} (hphase : t.phase = .reserve source) :
    Meets d known s (reserve d s t source choice) := by
  have hp := ht.2
  rw [hphase] at hp
  dsimp only [reserve]
  split
  · rename_i sources hcas
    have hstep : Steps d known s { s with sources := sources } := reserve_steps hcas
    obtain ⟨row, hfind, -, hfind', -⟩ := Table.cas_some hcas
    have hid : row.id = source.id := Table.find?_some_key hfind
    rw [hfind]
    have hrow' : requestDeletion choice.now row ∈ ({ s with sources := sources } : Shared).sources.rows :=
      Table.find?_mem hfind'
    have hrequested := requested_of_row hrow' rfl
    have hpeers : ∀ row ∈ sources.rows, reclaimable row ∈ selectScmPathPeers s := by
      intro row' hrow'
      obtain ⟨row, hrow, heq, -⟩ := hstep.rows row' hrow'
      rw [← heq]
      exact List.mem_map_of_mem hrow
    have hknown := hs.rows row (Table.find?_mem hfind)
    exact ⟨hstep, proceed_holds (hstep.thread ht).1 (work_start hknown hrequested hpeers)⟩
  · split
    · exact .leave ht
    · rename_i hsome
      exact .read ⟨ht.1, hp.1, hp.2 (Option.isSome_iff_ne_none.mpr hsome)⟩

omit ht in
theorem listPending_meets : Meets d known s (s, Thread.leave
      { t with pending := (s.sources.select fun row => row.deletionRequestedAt.isSome).map reclaimable }) := by
  refine .read (leave_holds ?_)
  intro source hsource
  obtain ⟨row, hrow, rfl⟩ := List.mem_map.mp hsource
  obtain ⟨hrow, hsome⟩ := List.mem_filter.mp hrow
  exact ⟨hs.rows row hrow, requested_of_row hrow hsome⟩

omit hs in
theorem selectPeers_meets (hphase : t.phase = .selectPeers source) :
    Meets d known s (s, proceed d t { source := source, peers := selectScmPathPeers s }
      (allocatedCandidates d source)) := by
  have hp := ht.2
  rw [hphase] at hp
  exact .read (proceed_holds ht.1 (work_start hp.1 hp.2 fun row hrow => List.mem_map_of_mem hrow))

omit hs in
theorem committed_meets (hphase : t.phase = .commit work []) :
    Meets d known s (s, { t with phase := .finalize work.source }) := by
  have hp := ht.2
  rw [hphase] at hp
  obtain ⟨hw, -, hgone⟩ := hp
  refine .read ⟨ht.1, hw.known, ?_⟩
  intro c hc
  exact (hgone c hc).resolve_left List.not_mem_nil

include g

theorem finalize_meets (hphase : t.phase = .finalize source) :
    Meets d known s ({ s with sources := s.sources.deleteWhere fun row =>
      row.id = source.id && row.deletionRequestedAt.isSome }, t.leave) := by
  have hp := ht.2
  rw [hphase] at hp
  obtain ⟨hknown, hgone⟩ := hp
  have hstep : Steps d known s { s with sources := s.sources.deleteWhere fun row =>
      row.id = source.id && row.deletionRequestedAt.isSome } := by
    refine ⟨?_, .refl d known s.tree, ?_, fun _ he hno => absurd he hno⟩
    · intro row hrow
      exact ⟨row, (List.mem_filter.mp hrow).1, rfl, fun h => h⟩
    · intro row hrow hnone
      have hfind : s.sources.find? row.id = some row := Table.find?_eq_some_iff.mpr ⟨hrow, rfl⟩
      rw [Table.find?_deleteWhere, hfind, Option.filter_eq_none_iff] at hnone
      have hid : row.id = source.id := by
        have hmatch := hnone row rfl
        simp only [Bool.not_eq_true', Bool.not_eq_false, Bool.and_eq_true, decide_eq_true_eq] at hmatch
        exact hmatch.1
      obtain rfl := g.unique _ (hs.rows row hrow) source hknown hid
      exact hgone
  exact ⟨hstep, hstep.thread (leave_holds ht.1)⟩

omit ht in
theorem remove_steps (hw : work.Ready known s) (hc : Claims d s work c) :
    Steps d known s { s with tree := remove s.tree (isolatedPath d work.source.id c) } := by
  refine .of_tree (advances_remove hc.candidate) fun e he hno => ?_
  refine ⟨work.source, c, hc.derived g hs hw, .inr ?_⟩
  by_contra hkeep
  exact hno (mem_remove.mpr ⟨he, hkeep⟩)

theorem commit_meets {r : Shared × Thread} (hphase : t.phase = .commit work (c :: rest))
    (h : act d s t choice = some r) : Meets d known s r := by
  have hp := ht.2
  rw [hphase] at hp
  obtain ⟨hw, hrest, hgone⟩ := hp
  have hparked := hrest c List.mem_cons_self
  have hstep := remove_steps g hs hw hparked.1
  simp only [act, hphase] at h
  split at h
  · obtain rfl := Option.some.inj h
    cases choice.applied
    · exact .leave ht
    · exact ⟨hstep, hstep.thread (leave_holds ht.1)⟩
  · obtain rfl := Option.some.inj h
    refine ⟨hstep, (hstep.thread ht).1, hstep.ready hw, ?_, ?_⟩
    · intro c' hc'
      exact hstep.parked hw.known (hrest c' (List.mem_cons_of_mem _ hc'))
    · intro c' hc'
      rcases hgone c' hc' with hmem | hg
      · rcases List.mem_cons.mp hmem with rfl | hmem
        · refine .inr ⟨hstep.vacant hw.known hc' hparked.2, fun hboth => ?_⟩
          rw [isDirectory_remove] at hboth
          cases hboth.2
        · exact .inl hmem
      · exact .inr (hstep.tree.gone _ hw.known c' hc' hg)

theorem act_meets {r : Shared × Thread} (h : act d s t choice = some r) : Meets d known s r := by
  cases hphase : t.phase with
  | select id =>
    simp only [act, hphase] at h
    split at h
    · rename_i source hfind
      split at h
      · obtain rfl := Option.some.inj h
        exact .leave ht
      · obtain rfl := Option.some.inj h
        exact select_meets hs ht hfind
    · obtain rfl := Option.some.inj h
      exact .leave ht
  | reserve source =>
    simp only [act, hphase] at h
    split at h
    · obtain rfl := Option.some.inj h
      exact .leave ht
    · obtain rfl := Option.some.inj h
      exact reserve_meets hs ht hphase
  | listPending =>
    simp only [act, hphase] at h
    obtain rfl := Option.some.inj h
    exact listPending_meets (t := t) hs
  | selectPeers source =>
    simp only [act, hphase] at h
    obtain rfl := Option.some.inj h
    exact selectPeers_meets ht hphase
  | isolate await work c =>
    simp only [act, hphase] at h
    obtain rfl := Option.some.inj h
    exact isolate_meets g hs ht hphase
  | commit work rest =>
    cases rest with
    | nil =>
      simp only [act, hphase] at h
      obtain rfl := Option.some.inj h
      exact committed_meets ht hphase
    | cons c rest => exact commit_meets g hs ht hphase h
  | finalize source =>
    simp only [act, hphase] at h
    obtain rfl := Option.some.inj h
    exact finalize_meets g hs ht hphase
  | ended =>
    simp only [act, hphase] at h
    cases h

end Act

theorem pool_step (g : Ground d known) {p q : Pool Shared Thread} {e : Pool.Event Thread Choice}
    (hp : Pool.Holds (Shared.Holds d known tree) (fun s t => t.Holds d known s) p)
    (h : Pool.step (program d) p e = some q) :
    Pool.Holds (Shared.Holds d known tree) (fun s t => t.Holds d known s) q ∧ Steps d known p.shared q.shared := by
  constructor
  · refine hp.step ?_ ?_ h
    · intro t _ hstart
      simp only [program, Bool.and_eq_true, List.isEmpty_iff] at hstart
      obtain ⟨hpending, hphase⟩ := hstart
      refine ⟨fun source hsource => absurd hsource (hpending ▸ List.not_mem_nil), ?_⟩
      split at hphase
      · rename_i heq
        rw [heq]
        trivial
      · rename_i heq
        rw [heq]
        trivial
      · cases hphase
    · intro i choice t s' t' _ _ hs ht hact
      obtain ⟨hstep, ht'⟩ := act_meets g hs ht hact
      exact ⟨hstep.shared hs, ht', fun u _ hu => hstep.thread hu⟩
  · obtain ⟨t, -, -, rfl⟩ | ⟨i, choice, t, s', t', -, hi, hact, rfl⟩ := Pool.step_cases h
    · exact .refl d known p.shared
    · exact (act_meets g hp.1 (hp.2 t (List.mem_of_getElem? hi)) hact).1

end Program

/-- Whatever requests, recoveries, crashes and failures came before, a step deletes a row only when
each of its allocated directories is gone from its path and from the reclaim root: what stands there
under the same name was there at the start, in a root that is not ours.  And a step moves or removes
only what lies in a directory derived from an id whose deletion is requested. -/
theorem scmSource_deletion_crash_safe (d : Deployment) {s₀ : Shared} {es : List (Pool.Event Thread Choice)}
    {e : Pool.Event Thread Choice} {p q : Pool Shared Thread} (hreserved : ReservesRoots d s₀.sources)
    (hrun : run (Pool.step (program d)) ⟨s₀, []⟩ es = some p)
    (hstep : Pool.step (program d) p e = some q) :
    (∀ row ∈ p.shared.sources.rows, q.shared.sources.find? row.id = none →
      ∀ c ∈ allocatedCandidates d (reclaimable row), isReclaimableDir d p.shared.tree c.path = false ∧
        (isDirectory p.shared.tree (isolatedPath d row.id c) = true →
          hasOwnedIsolationRoot d p.shared.tree c.isolationRoot = false ∧
            isDirectory s₀.tree (isolatedPath d row.id c) = true)) ∧
    ∀ entry ∈ p.shared.tree, entry ∉ q.shared.tree → ∃ source c,
      Derived d (s₀.sources.rows.map reclaimable) p.shared source c ∧
        (place d c.path <+: entry.1 ∨ isolatedPath d source.id c <+: entry.1) := by
  have g := hreserved.ground
  have hstart : Pool.Holds (Shared.Holds d (s₀.sources.rows.map reclaimable) s₀.tree)
      (fun s (t : Thread) => t.Holds d (s₀.sources.rows.map reclaimable) s) ⟨s₀, []⟩ :=
    ⟨⟨fun row hrow => List.mem_map_of_mem hrow, fun _ _ _ e he _ _ => he⟩,
      fun t ht => absurd ht List.not_mem_nil⟩
  have hp := (runs_free_iff.mpr hrun).invariant (fun _ _ _ _ hI hs => (pool_step g hI hs).1) hstart
  have hsteps := (pool_step g hp hstep).2
  refine ⟨?_, hsteps.emptied⟩
  intro row hrow hnone c hc
  obtain ⟨hvacant, hparked⟩ := hsteps.deleted row hrow hnone c hc
  refine ⟨hvacant, fun hdir => ?_⟩
  have hunmarked : hasOwnedIsolationRoot d p.shared.tree c.isolationRoot = false :=
    Bool.eq_false_iff.mpr fun howned => hparked ⟨howned, hdir⟩
  obtain ⟨entry, hentry, hpre, heq⟩ := isDirectory_iff.mp hdir
  have hroot : place d c.isolationRoot <+: isolatedPath d row.id c := List.prefix_append _ _
  have hne : entry.1 ≠ place d c.isolationRoot := by
    intro hsame
    exact not_isolated_prefix_root hc (mem_allocatedCandidates hc).2.1 (hsame ▸ hpre)
  have hold := hp.1.untouched _ (mem_allocatedCandidates hc).2.1 hunmarked entry hentry (hroot.trans hpre) hne
  exact ⟨hunmarked, isDirectory_iff.mpr ⟨entry, hold, hpre, heq⟩⟩

def posix : Deployment where
  toPlatform := PathPlan.posix
  apart := by decide +kernel

def docs : Shared where
  sources := ⟨[{ id := "scm_a", type := .git, localPath := "/data/a2wave/sources/a",
                 workspacesPath := some "/data/a2wave/workspaces/a" }], by decide⟩
  tree := [(place posix "/data/a2wave/sources/a", .directory),
    (place posix "/data/a2wave/workspaces/a", .directory)]

def resumed : List (Pool.Event Thread Choice) :=
  .spawn { phase := .select "scm_a" } :: List.replicate 9 (.act 0 {}) ++
    .spawn { phase := .listPending } :: List.replicate 13 (.act 1 {})

theorem scmSource_deletion_resumed : ∃ p q, run (Pool.step (program posix)) ⟨docs, []⟩ resumed = some p ∧
      Pool.step (program posix) p (.act 1 {}) = some q ∧
      (p.shared.sources.find? "scm_a").isSome = true ∧ q.shared.sources.find? "scm_a" = none ∧
      ∀ row ∈ p.shared.sources.rows, q.shared.sources.find? row.id = none →
        ∀ c ∈ allocatedCandidates posix (reclaimable row), isReclaimableDir posix p.shared.tree c.path = false := by
  have hreserved : ReservesRoots posix docs.sources := by
    unfold ReservesRoots
    decide +kernel
  have hlast : ∃ p, run (Pool.step (program posix)) ⟨docs, []⟩ resumed = some p ∧
      (Pool.step (program posix) p (.act 1 {})).any (fun q =>
        (p.shared.sources.find? "scm_a").isSome && (q.shared.sources.find? "scm_a").isNone) = true :=
    exists_of_run_any (by decide +kernel)
  obtain ⟨p, hrun, hany⟩ := hlast
  obtain ⟨q, hstep, hrow⟩ := (Option.any_eq_true _ _).mp hany
  simp only [Bool.and_eq_true, Option.isNone_iff_eq_none] at hrow
  refine ⟨p, q, hrun, hstep, hrow.1, hrow.2, ?_⟩
  intro row hmem hnone c hc
  exact ((scmSource_deletion_crash_safe posix hreserved hrun hstep).1 row hmem hnone c hc).1

end A2Wave.Reclaim
