import A2Wave.Memory.Store

/-! `mergeMemoryTopics`: the target is rewritten, the sources are archived one by one, and what was
done is undone when a step throws. -/

namespace A2Wave.MemoryTopics

open JsText TextSearch

section Source

variable (rt : Runtime)

/-- `[...new Set(xs)]`. -/
def distinct : List Text → List Text
  | [] => []
  | x :: xs => x :: (distinct xs).filter (· ≠ x)

/-- `body.replace(/^# .*\n?/, '')`. -/
def dropTitleLine (body : Text) : Text :=
  if "# ".toList <+: body then
    let rest := (body.drop 2).dropWhile fun c => !isLineTerminator c
    if rest.head? = some '\n' then rest.tail else rest
  else body

def mergedBody (target : MemoryTopicRecord) (sources : List MemoryTopicRecord) : Text :=
  "\n\n".toList.intercalate
    ((target.body :: sources.map fun topic => trim (dropTitleLine topic.body)).filter (· ≠ []))

def mergedKeywords (target : MemoryTopicRecord) (sources : List MemoryTopicRecord) : List Text :=
  (distinct (target.keywords ++ sources.flatMap (·.keywords))).take MEMORY_TOPIC_KEYWORD_LIMIT

def mergedMetadata (target : MemoryTopicRecord) (sources : List MemoryTopicRecord) (now : Nat) :
    MemoryTopicMetadata :=
  { target.toMemoryTopicMetadata with
    keywords := mergedKeywords target sources
    updatedAt := now }

structure MergeOutcome where
  now : Nat
  target : WriteOutcome MemoryFile
  archive : Text → ArchiveOutcome
  last : WriteOutcome Text
  reactivate : Text → ReactivateOutcome
  restore : WriteOutcome MemoryFile
  restoreMain : WriteOutcome Text

def readTopics : List Text → Op (List MemoryTopicRecord)
  | [] => return []
  | id :: ids => do
    let topic ← readMemoryTopic rt id
    let topics ← readTopics ids
    return topic :: topics

def archiveSources (out : MergeOutcome) :
    List MemoryTopicRecord → List Text → Memory → Except MemoryError Unit × List Text × Memory
  | [], archived, s => (.ok (), archived, s)
  | source :: sources, archived, s =>
    match archiveMemoryTopic rt (out.archive source.topicId) source.topicId s with
    | (.error e, s) => (.error e, archived, s)
    | (.ok _, s) => archiveSources out sources (archived ++ [source.topicId]) s

def writeTarget (out : MergeOutcome) (target : MemoryTopicRecord)
    (sources : List MemoryTopicRecord) : Op Unit := do
  let file ← .lift (renderMemoryTopicFile rt (mergedMetadata target sources out.now)
    (mergedBody target sources))
  writeTopicFile out.target target.path file

/-- What `try` encloses. -/
def tryMerge (out : MergeOutcome) (target : MemoryTopicRecord) (sources : List MemoryTopicRecord)
    (s : Memory) : Except MemoryError Unit × List Text × Memory :=
  match writeTarget rt out target sources s with
  | (.error e, s) => (.error e, [], s)
  | (.ok (), s) => archiveSources rt out sources [] s

def reactivateAll (outcomes : Text → ReactivateOutcome) : List Text → Op Unit
  | [] => return ()
  | id :: ids => do
    let _ ← reactivateMemoryTopic rt (outcomes id) id
    reactivateAll outcomes ids

def compensate (out : MergeOutcome) (path : TopicPath) (targetBefore : MemoryFile)
    (archived : List Text) : Op Unit := do
  reactivateAll rt out.reactivate archived
  writeTopicFile out.restore path targetBefore
  rebuildMemoryMain rt out.restoreMain

def mergeFiles (out : MergeOutcome) (target : MemoryTopicRecord)
    (sources : List MemoryTopicRecord) (targetBefore : MemoryFile) : Op MemoryTopicRecord := fun s =>
  match tryMerge rt out target sources s with
  | (.error e, archived, s) => (.error e, (compensate rt out target.path targetBefore archived s).2)
  | (.ok (), _, s) =>
    (do rebuildMemoryMain rt out.last
        readMemoryTopic rt target.topicId : Op MemoryTopicRecord) s

def uniqueSources (sourceTopicIds : List Text) (targetTopicId : Text) : List Text :=
  (distinct sourceTopicIds).filter (· ≠ targetTopicId)

def mergeMemoryTopics (out : MergeOutcome) (sourceTopicIds : List Text) (targetTopicId : Text) :
    Op MemoryTopicRecord := do
  .lift (ensure (uniqueSources sourceTopicIds targetTopicId ≠ [])
    ⟨"INVALID_TOPIC_MERGE", "At least one source topic is required"⟩)
  let target ← readMemoryTopic rt targetTopicId
  let sources ← readTopics rt (uniqueSources sourceTopicIds targetTopicId)
  .lift (ensure (estimateMemoryTokens (mergedBody target sources) ≤ MEMORY_TOPIC_HARD_TOKENS)
    ⟨"TOPIC_HARD_LIMIT", "Merged topic would exceed the hard limit"⟩)
  let targetBefore ← readTopicFile target.path
  mergeFiles rt out target sources targetBefore

end Source

end A2Wave.MemoryTopics
