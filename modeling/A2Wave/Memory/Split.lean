import A2Wave.Memory.Frame
import A2Wave.Memory.Sections

/-! `splitMemoryTopic`: the blocks of a topic's body are distributed over new topics. -/

namespace A2Wave.MemoryTopics

open JsText

structure TopicBodyBlock where
  hash : Text
  topicSection : MemoryTopicSection
  content : Text

structure SplitItem where
  sourceHash : Text
  content : Text

structure SplitSection where
  topicSection : Text
  items : List SplitItem

structure MemoryTopicSplitReplacement where
  title : Text
  scope : Text
  description : Text
  keywords : List Text
  sections : List SplitSection

section Blocks

def blockText (lines : List Text) : Text := trim (joinLines lines)

variable (hashMemoryBlock : Text → Text)

def flushBlock (topicSection : MemoryTopicSection) (buffer : List Text) : List TopicBodyBlock :=
  if blockText buffer = [] then []
  else [⟨hashMemoryBlock (blockText buffer), topicSection, blockText buffer⟩]

def blocksFrom : List Text → MemoryTopicSection → List Text → Except MemoryTopicError (List TopicBodyBlock)
  | [], topicSection, buffer => .ok (flushBlock hashMemoryBlock topicSection buffer)
  | line :: lines, topicSection, buffer =>
    if isLevelOne line then blocksFrom lines topicSection buffer
    else match sectionHeading line with
    | some heading =>
      match MemoryTopicSection.ofText heading with
      | none => .error ⟨"INVALID_TOPIC_SPLIT", "Source topic has an unknown section"⟩
      | some next => do
        let blocks ← blocksFrom lines next []
        return flushBlock hashMemoryBlock topicSection buffer ++ blocks
    | none =>
      if trim line = [] then do
        let blocks ← blocksFrom lines topicSection []
        return flushBlock hashMemoryBlock topicSection buffer ++ blocks
      else if isListItem line && !buffer.isEmpty then do
        let blocks ← blocksFrom lines topicSection [line]
        return flushBlock hashMemoryBlock topicSection buffer ++ blocks
      else blocksFrom lines topicSection (buffer ++ [line])

def splitTopicBodyBlocks (body : Text) : Except MemoryTopicError (List TopicBodyBlock) :=
  blocksFrom hashMemoryBlock (splitLines (normalizeNewlines body)) .durableKnowledge []

end Blocks

section Plan

def coverageFailed (message : String) : MemoryTopicError := ⟨"TOPIC_SPLIT_COVERAGE_FAILED", message⟩

def takeBlock (hash : Text) : List TopicBodyBlock → Option (TopicBodyBlock × List TopicBodyBlock)
  | [] => none
  | block :: blocks =>
    if block.hash = hash then some (block, blocks)
    else (takeBlock hash blocks).map fun taken => (taken.1, block :: taken.2)

def takeItems : List SplitItem → List TopicBodyBlock → Except MemoryTopicError (List TopicBodyBlock)
  | [], available => .ok available
  | item :: items, available =>
    match takeBlock item.sourceHash available with
    | none =>
      .error (coverageFailed "Every source topic block must be copied verbatim exactly once")
    | some (sourceBlock, rest) =>
      if trim item.content = sourceBlock.content then takeItems items rest
      else .error (coverageFailed "Every source topic block must be copied verbatim exactly once")

def renderSections : List SplitSection → Except MemoryTopicError (List Text)
  | [] => .ok []
  | s :: sections => do
    ensure ((MemoryTopicSection.ofText s.topicSection).isSome ∧ s.items ≠ [])
      ⟨"INVALID_TOPIC_SPLIT", "Invalid replacement topic section"⟩
    let parts ← renderSections sections
    return headingLine s.topicSection :: ['\n', '\n'].intercalate (s.items.map fun item => trim item.content) :: parts

def renderSplitTopicBody (title : Text) (sections : List SplitSection) : Except MemoryTopicError Text := do
  let parts ← renderSections sections
  return ['\n', '\n'].intercalate (titleLine title :: parts)

structure ProposedTopic where
  metadata : MemoryTopicMetadata
  path : TopicPath
  file : MemoryFile

def MemoryTopicSplitReplacement.items (r : MemoryTopicSplitReplacement) : List SplitItem :=
  r.sections.flatMap (·.items)

def MemoryTopicSplitReplacement.metadata (r : MemoryTopicSplitReplacement) (topicId : Text)
    (now : Nat) : MemoryTopicMetadata :=
  { topicId, title := r.title, scope := r.scope, description := r.description,
    keywords := r.keywords, status := .active, updatedAt := now }

variable (rt : Runtime) (now : Nat)

def proposeTopic (topicId : Text) (replacement : MemoryTopicSplitReplacement)
    (available : List TopicBodyBlock) :
    Except MemoryTopicError (ProposedTopic × List TopicBodyBlock) := do
  let metadata := replacement.metadata topicId now
  let rest ← takeItems replacement.items available
  let body ← renderSplitTopicBody replacement.title replacement.sections
  ensure (estimateMemoryTokens body ≤ MEMORY_TOPIC_HARD_TOKENS)
    ⟨"TOPIC_HARD_LIMIT", "A replacement topic exceeds the hard limit"⟩
  let path := topicPath rt metadata
  let file ← renderMemoryTopicFile rt metadata body
  let _ ← parseMemoryTopicFile rt path file
  return (⟨metadata, path, file⟩, rest)

/-- The topics to write, `createTopicId n` being the id drawn for the `n`th one, and the blocks that
no replacement has. -/
def proposeTopics (createTopicId : Nat → Text) : Nat → List MemoryTopicSplitReplacement →
    List TopicBodyBlock → Except MemoryTopicError (List ProposedTopic × List TopicBodyBlock)
  | _, [], available => .ok ([], available)
  | n, replacement :: replacements, available => do
    let first ← proposeTopic rt now (createTopicId n) replacement available
    let others ← proposeTopics createTopicId (n + 1) replacements first.2
    return (first.1 :: others.1, others.2)

end Plan

section Files

variable (rt : Runtime)

structure SplitOutcome where
  now : Nat
  createTopicId : Nat → Text
  write : Nat → WriteOutcome MemoryFile
  archive : ArchiveOutcome
  fit : Nat → MoveOutcome
  last : WriteOutcome Text
  delete : Nat → MemoryTopicStatus → Bool
  reactivate : Text → ReactivateOutcome

def writeProposed (outcomes : Nat → WriteOutcome MemoryFile) : Nat → List ProposedTopic → Op Unit
  | _, [] => return ()
  | n, item :: items => do
    writeTopicFile (outcomes n) item.path item.file
    writeProposed outcomes (n + 1) items

/-- What `try` encloses, with the topics that were archived to make room. -/
def trySplit (out : SplitOutcome) (sourceTopicId : Text) (proposed : List ProposedTopic)
    (s : Memory) : Except MemoryError (List MemoryTopicRecord) × List Text × Memory :=
  let ids := proposed.map (·.metadata.topicId)
  let start : Op MemoryTopicRecord := do
    writeProposed out.write 0 proposed
    archiveMemoryTopic rt out.archive sourceTopicId
  match start s with
  | (.error e, s) => (.error e, [], s)
  | (.ok _, s) =>
    match ensureCatalogFits rt out.fit ids s with
    | (.error e, archivedForFit, s) => (.error e, archivedForFit, s)
    | (.ok (), archivedForFit, s) =>
      let finish : Op (List MemoryTopicRecord) := do
        rebuildMemoryMain rt out.last
        readTopics rt ids
      let (result, s) := finish s
      (result, archivedForFit, s)

def deleteProposed (out : SplitOutcome) : Nat → List ProposedTopic → Memory → Memory
  | _, [], s => s
  | n, item :: items, s =>
    let path (status : MemoryTopicStatus) := topicPath rt { item.metadata with status }
    let s := (deleteTopicFile (out.delete n .active) (path .active) s).2
    let s := (deleteTopicFile (out.delete n .archived) (path .archived) s).2
    deleteProposed out (n + 1) items s

def restoreArchived (out : SplitOutcome) (sourceTopicId : Text) (archivedForFit : List Text) : Op Unit := do
  let archivedSource ← .read fun s =>
    .ok ((listMemoryTopics rt s .archived).find? (·.topicId = sourceTopicId))
  if archivedSource.isSome then
    reactivateAll rt out.reactivate (sourceTopicId :: archivedForFit)
  else reactivateAll rt out.reactivate archivedForFit

def splitFiles (out : SplitOutcome) (sourceTopicId : Text) (proposed : List ProposedTopic) :
    Op (List MemoryTopicRecord) := fun s =>
  match trySplit rt out sourceTopicId proposed s with
  | (.ok topics, _, s) => (.ok topics, s)
  | (.error e, archivedForFit, s) =>
    (.error e, (restoreArchived rt out sourceTopicId archivedForFit
      (deleteProposed rt out 0 proposed s)).2)

variable (hashMemoryBlock : Text → Text)

def splitMemoryTopic (out : SplitOutcome) (sourceTopicId : Text)
    (replacements : List MemoryTopicSplitReplacement) : Op (List MemoryTopicRecord) := do
  .lift (ensure (2 ≤ replacements.length)
    ⟨"INVALID_TOPIC_SPLIT", "At least two replacement topics are required"⟩)
  let source ← readMemoryTopic rt sourceTopicId
  let sourceBlocks ← .lift (splitTopicBodyBlocks hashMemoryBlock source.body)
  .lift (ensure (sourceBlocks ≠ [])
    ⟨"INVALID_TOPIC_SPLIT", "Source topic has no semantic blocks"⟩)
  let proposed ← .lift
    (proposeTopics rt out.now out.createTopicId 0 replacements sourceBlocks)
  .lift (ensure (proposed.2 = [])
    (coverageFailed "One or more source topic blocks have no replacement"))
  splitFiles rt out sourceTopicId proposed.1

end Files

end A2Wave.MemoryTopics
