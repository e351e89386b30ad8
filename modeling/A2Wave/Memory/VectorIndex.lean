import A2Wave.Lib.KeepFirst
import A2Wave.Lib.Reconcile
import A2Wave.Lib.Utf16Text
import A2Wave.Memory.Topics

/-! The vector index of the memory: chunks of the files of an agent, each with an embedding. -/

namespace A2Wave.MemoryIndex

open Utf16
open MemoryTopics (MemoryTopicStatus)

section Chunks

inductive MemoryFileKind
  | main
  | topic
  | archived_topic
  | weekly
  | daily
  | other
  deriving DecidableEq

def CHUNK_SIZE : Nat := 500
def CHUNK_OVERLAP : Nat := 100

def chunkFrom (rest : Text) : List Text :=
  if rest.length ≤ CHUNK_SIZE then [rest]
  else rest.take CHUNK_SIZE :: chunkFrom (rest.drop (CHUNK_SIZE - CHUNK_OVERLAP))
termination_by rest.length
decreasing_by
  rename_i h
  rw [List.length_drop]
  simp only [CHUNK_SIZE, CHUNK_OVERLAP] at h ⊢
  omega

def chunkText (text : Text) : List Text := if isBlank text then [] else chunkFrom text

structure MemoryFileMetadata where
  filename : Text
  fileKind : MemoryFileKind
  topicId : Option Text
  topicStatus : Option MemoryTopicStatus
  indexableContent : Text

@[ext]
structure Chunk where
  filePath : Text
  fileKind : MemoryFileKind
  topicId : Option Text
  topicStatus : Option MemoryTopicStatus
  text : Text
  hash : Text
  deriving DecidableEq

def fileChunks (contentHash : Text → Text) (file : MemoryFileMetadata) : List Chunk :=
  (chunkText file.indexableContent).map fun chunk =>
    { file with filePath := file.filename, text := chunk, hash := contentHash chunk }

def allChunks (contentHash : Text → Text) (files : List MemoryFileMetadata) : List Chunk :=
  files.flatMap (fileChunks contentHash)

end Chunks

section Keys

def MemoryFileKind.text : MemoryFileKind → Text
  | .main => ascii "main"
  | .topic => ascii "topic"
  | .archived_topic => ascii "archived_topic"
  | .weekly => ascii "weekly"
  | .daily => ascii "daily"
  | .other => ascii "other"

def statusText : MemoryTopicStatus → Text
  | .active => ascii "active"
  | .archived => ascii "archived"

def noNumbers : NumberFormat Empty where
  print := nofun
  read _ := none
  print_units := nofun
  print_ne_nil := nofun
  read_print := nofun

def nullable : Option Text → Value Empty
  | none => .null
  | some s => .str s

def rowValue (c : Chunk) : Value Empty :=
  .arr (.cons (.str c.filePath) (.cons (.str c.fileKind.text) (.cons (nullable c.topicId)
    (.cons (nullable (c.topicStatus.map statusText)) (.cons (.str c.text)
      (.cons (.str c.hash) .nil))))))

def rowKey (c : Chunk) : Text := stringify noNumbers (rowValue c)

theorem nullable_inj {s t : Option Text} (h : nullable s = nullable t) : s = t := by
  cases s with
  | none =>
    cases t with
    | none => rfl
    | some t => cases h
  | some s =>
    cases t with
    | none => cases h
    | some t => rw [Value.str.inj h]

theorem text_injective : Function.Injective MemoryFileKind.text := by
  intro k l
  cases k <;> cases l <;> decide +kernel

theorem statusText_injective : Function.Injective statusText := by
  intro s t
  cases s <;> cases t <;> decide +kernel

theorem distinct_nullable (s : Option Text) : (nullable s).Distinct := by
  cases s with
  | none => trivial
  | some s => trivial

theorem distinct_rowValue (c : Chunk) : (rowValue c).Distinct :=
  ⟨trivial, trivial, distinct_nullable _, distinct_nullable _, trivial, trivial, trivial⟩

theorem rowKey_injective : Function.Injective rowKey := by
  intro c d h
  have hvalue : rowValue c = rowValue d := by
    have hc := parse_stringify noNumbers (rowValue c) (distinct_rowValue c)
    rw [← rowKey, h, rowKey, parse_stringify noNumbers (rowValue d) (distinct_rowValue d)] at hc
    exact (Option.some_inj.mp hc).symm
  obtain ⟨hpath, hvalue⟩ := Utf16.Elems.cons.inj (Value.arr.inj hvalue)
  obtain ⟨hkind, hvalue⟩ := Utf16.Elems.cons.inj hvalue
  obtain ⟨hid, hvalue⟩ := Utf16.Elems.cons.inj hvalue
  obtain ⟨hstatus, hvalue⟩ := Utf16.Elems.cons.inj hvalue
  obtain ⟨htext, hvalue⟩ := Utf16.Elems.cons.inj hvalue
  obtain ⟨hhash, -⟩ := Utf16.Elems.cons.inj hvalue
  have hstatus : c.topicStatus = d.topicStatus :=
    Option.map_injective statusText_injective (nullable_inj hstatus)
  exact Chunk.ext (Value.str.inj hpath) (text_injective (Value.str.inj hkind)) (nullable_inj hid)
    hstatus (Value.str.inj htext) (Value.str.inj hhash)

end Keys

section Table

structure TextColumn where
  stored : Text → Text
  stored_stored (s : Text) : stored (stored s) = stored s
  stored_wellFormed {s : Text} (h : NoneFrom unpaired none s) : stored s = s

variable {B : Type}

structure VecRow (B : Type) where
  id : Nat
  agentId : Text
  filePath : Text
  fileKind : MemoryFileKind
  topicId : Option Text
  topicStatus : Option MemoryTopicStatus
  chunkText : Text
  contentHash : Text
  embedding : Option B
  createdAt : Nat

def VecRow.chunk (row : VecRow B) : Chunk :=
  { row with text := row.chunkText, hash := row.contentHash }

structure VecTable (column : TextColumn) (B : Type) where
  rows : List (VecRow B)
  nextId : Nat
  nodup : (rows.map (·.id)).Nodup
  below : ∀ row ∈ rows, row.id < nextId
  texts : ∀ row ∈ rows, column.stored row.chunkText = row.chunkText

def newRow (column : TextColumn) (id : Nat) (agentId : Text) (c : Chunk) (embedding : Option B)
    (now : Nat) : VecRow B where
  id := id
  agentId := agentId
  filePath := c.filePath
  fileKind := c.fileKind
  topicId := c.topicId
  topicStatus := c.topicStatus
  chunkText := column.stored c.text
  contentHash := c.hash
  embedding := embedding
  createdAt := now

variable {column : TextColumn}

namespace VecTable

def rowsOf (t : VecTable column B) (agentId : Text) : List (VecRow B) :=
  t.rows.filter (·.agentId = agentId)

def deleteRow (t : VecTable column B) (agentId : Text) (id : Nat) : VecTable column B where
  rows := t.rows.filter fun row => ¬(row.agentId = agentId ∧ row.id = id)
  nextId := t.nextId
  nodup := (List.filter_sublist.map _).nodup t.nodup
  below row hrow := t.below row (List.mem_filter.mp hrow).1
  texts row hrow := t.texts row (List.mem_filter.mp hrow).1

def insertChunk (t : VecTable column B) (agentId : Text) (c : Chunk) (embedding : Option B)
    (now : Nat) : VecTable column B where
  rows := t.rows ++ [newRow column t.nextId agentId c embedding now]
  nextId := t.nextId + 1
  nodup := by
    rw [List.map_append, List.nodup_append]
    refine ⟨t.nodup, List.nodup_singleton _, fun id hid other hother => ?_⟩
    obtain ⟨row, hrow, rfl⟩ := List.mem_map.mp hid
    obtain rfl := List.mem_singleton.mp hother
    exact (t.below row hrow).ne
  below row hrow := by
    obtain hrow | hrow := List.mem_append.mp hrow
    · exact Nat.lt_succ_of_lt (t.below row hrow)
    · rw [List.mem_singleton.mp hrow]
      exact Nat.lt_succ_self _
  texts row hrow := by
    obtain hrow | hrow := List.mem_append.mp hrow
    · exact t.texts row hrow
    · rw [List.mem_singleton.mp hrow]
      exact column.stored_stored _

end VecTable

end Table

section Reindex

variable {B : Type} {column : TextColumn}

def setEmbedding (found : Text → Option B) (row : VecRow B) : Text → Option B :=
  match row.embedding with
  | none => found
  | some embedding => Function.update found row.contentHash (some embedding)

def embeddingByHash (rows : List (VecRow B)) : Text → Option B :=
  rows.foldl setEmbedding fun _ => none

def matchRows (rows : List (VecRow B)) (chunks : List Chunk) : List (VecRow B) × List Chunk :=
  Reconcile.take rowKey (Reconcile.pool rowKey VecRow.chunk (rows.filter (·.embedding.isSome)))
    chunks

def hash? (c : Chunk) : Option Text := some c.hash

def missingChunks (found : Text → Option B) (chunks : List Chunk) : List Chunk :=
  KeepFirst.keepFirst hash? [] (chunks.filter fun c => (found c.hash).isNone)

def addAnswers : List Chunk → List (Option B) → (Text → Option B) → Text → Option B
  | c :: chunks, some embedding :: answers, found =>
    addAnswers chunks answers (Function.update found c.hash (some embedding))
  | _ :: chunks, none :: answers, found => addAnswers chunks answers found
  | _, _, found => found

def deleteRows (agentId : Text) (ids : List Nat) (t : VecTable column B) : VecTable column B :=
  ids.foldl (fun t id => t.deleteRow agentId id) t

def insertChunks (agentId : Text) (found : Text → Option B) (now : Nat) (chunks : List Chunk)
    (t : VecTable column B) : VecTable column B :=
  chunks.foldl (fun t c => t.insertChunk agentId c (found c.hash) now) t

def staleRowIds (rows : List (VecRow B)) (chunks : List Chunk) : List Nat :=
  (rows.filter fun row => row.id ∉ (matchRows rows chunks).1.map (·.id)).map (·.id)

def askEmbeddings (getEmbeddings : List Text → Option (List (Option B)))
    (newChunks : List Chunk) : Option (List (Option B)) :=
  if newChunks = [] then some [] else getEmbeddings (newChunks.map (·.text))

/-- Read from `before`, and written to `after`: to what the table is once the embeddings are there.
`getEmbeddings` may reject, and answer for some of the texts only. -/
def doReindexVectors (contentHash : Text → Text)
    (getEmbeddings : List Text → Option (List (Option B))) (agentId : Text) (now : Nat)
    (files : List MemoryFileMetadata) (before after : VecTable column B) :
    Option (VecTable column B) := do
  let existingRows := before.rowsOf agentId
  let chunks := allChunks contentHash files
  let chunksToInsert := (matchRows existingRows chunks).2
  let found := embeddingByHash existingRows
  let newChunks := missingChunks found chunksToInsert
  let answers ← askEmbeddings getEmbeddings newChunks
  return insertChunks agentId (addAnswers newChunks answers found) now chunksToInsert
    (deleteRows agentId (staleRowIds existingRows chunks) after)

end Reindex

section Writes

variable {B : Type} {column : TextColumn} {agentId other : Text} {t : VecTable column B}

def TextColumn.storedChunk (column : TextColumn) (c : Chunk) : Chunk :=
  { c with text := column.stored c.text }

theorem rowsOf_deleteRow (id : Nat) :
    (t.deleteRow agentId id).rowsOf agentId = (t.rowsOf agentId).filter (·.id ≠ id) := by
  rw [VecTable.rowsOf, VecTable.rowsOf, VecTable.deleteRow, List.filter_filter, List.filter_filter]
  refine List.filter_congr fun row _ => ?_
  by_cases hrow : row.agentId = agentId
  · simp [hrow]
  · simp [hrow]

theorem rowsOf_deleteRow_of_ne (id : Nat) (h : other ≠ agentId) :
    (t.deleteRow agentId id).rowsOf other = t.rowsOf other := by
  rw [VecTable.rowsOf, VecTable.rowsOf, VecTable.deleteRow, List.filter_filter]
  refine List.filter_congr fun row _ => ?_
  by_cases hrow : row.agentId = other
  · simp [hrow, h]
  · simp [hrow]

theorem rowsOf_deleteRows (ids : List Nat) :
    (deleteRows agentId ids t).rowsOf agentId = (t.rowsOf agentId).filter (·.id ∉ ids) := by
  induction ids generalizing t with
  | nil => exact (List.filter_eq_self.mpr fun _ _ => rfl).symm
  | cons id ids ih =>
    rw [deleteRows, List.foldl_cons, ← deleteRows, ih, rowsOf_deleteRow, List.filter_filter]
    refine List.filter_congr fun row _ => ?_
    simp [not_or, Bool.and_comm]

theorem rowsOf_deleteRows_of_ne (ids : List Nat) (h : other ≠ agentId) :
    (deleteRows agentId ids t).rowsOf other = t.rowsOf other := by
  induction ids generalizing t with
  | nil => rfl
  | cons id ids ih => exact ih.trans (rowsOf_deleteRow_of_ne id h)

theorem rowsOf_insertChunk (c : Chunk) (embedding : Option B) (now : Nat) :
    (t.insertChunk agentId c embedding now).rowsOf agentId =
      t.rowsOf agentId ++ [newRow column t.nextId agentId c embedding now] := by
  rw [VecTable.rowsOf, VecTable.insertChunk, List.filter_append, List.filter_singleton]
  simp [newRow, VecTable.rowsOf]

theorem rowsOf_insertChunk_of_ne (c : Chunk) (embedding : Option B) (now : Nat)
    (h : other ≠ agentId) :
    (t.insertChunk agentId c embedding now).rowsOf other = t.rowsOf other := by
  rw [VecTable.rowsOf, VecTable.insertChunk, List.filter_append, List.filter_singleton]
  simp [newRow, VecTable.rowsOf, h.symm]

theorem rowsOf_insertChunks_of_ne (found : Text → Option B) (now : Nat) (chunks : List Chunk)
    (h : other ≠ agentId) :
    (insertChunks agentId found now chunks t).rowsOf other = t.rowsOf other := by
  induction chunks generalizing t with
  | nil => rfl
  | cons c chunks ih => exact ih.trans (rowsOf_insertChunk_of_ne c _ now h)

theorem rowsOf_insertChunks (found : Text → Option B) (now : Nat) (chunks : List Chunk) :
    ∃ inserted, (insertChunks agentId found now chunks t).rowsOf agentId = t.rowsOf agentId ++ inserted ∧
      inserted.map VecRow.chunk = chunks.map column.storedChunk ∧
      ∀ row ∈ inserted, row.embedding = found row.contentHash := by
  induction chunks generalizing t with
  | nil => exact ⟨[], (List.append_nil _).symm, rfl, nofun⟩
  | cons c chunks ih =>
    obtain ⟨inserted, hrows, hchunks, hfound⟩ := @ih (t.insertChunk agentId c (found c.hash) now)
    refine ⟨newRow column t.nextId agentId c (found c.hash) now :: inserted, ?_, ?_, ?_⟩
    · rw [rowsOf_insertChunk, List.append_assoc] at hrows
      exact hrows
    · rw [List.map_cons, hchunks]
      rfl
    · intro row hrow
      obtain rfl | hrow := List.mem_cons.mp hrow
      · rfl
      · exact hfound row hrow

end Writes

section Embeddings

variable {B : Type} {rows : List (VecRow B)} {found : Text → Option B} {h : Text}

theorem foldl_embedding (rows : List (VecRow B)) (found : Text → Option B) (h : Text) :
    (∃ row ∈ rows, row.contentHash = h ∧ row.embedding.isSome = true ∧
      rows.foldl setEmbedding found h = row.embedding) ∨
    (∀ row ∈ rows, row.contentHash = h → row.embedding = none) ∧ rows.foldl setEmbedding found h = found h := by
  induction rows generalizing found with
  | nil => exact .inr ⟨nofun, rfl⟩
  | cons row rows ih =>
    rw [List.foldl_cons]
    obtain ⟨last, hlast, hlast'⟩ | ⟨hnone, heq⟩ := ih (setEmbedding found row)
    · exact .inl ⟨last, List.mem_cons_of_mem _ hlast, hlast'⟩
    rw [heq, setEmbedding]
    cases hrow : row.embedding with
    | none =>
      refine .inr ⟨fun other hother hhash => ?_, rfl⟩
      obtain rfl | hother := List.mem_cons.mp hother
      · exact hrow
      · exact hnone other hother hhash
    | some embedding =>
      by_cases hhash : row.contentHash = h
      · refine .inl ⟨row, List.mem_cons_self, hhash, by rw [hrow]; rfl, ?_⟩
        simp only [← hhash, Function.update_self, hrow]
      · refine .inr ⟨fun other hother hother' => ?_, ?_⟩
        · obtain rfl | hother := List.mem_cons.mp hother
          · exact absurd hother' hhash
          · exact hnone other hother hother'
        · exact Function.update_of_ne (Ne.symm hhash) _ _

theorem embeddingByHash_cases (rows : List (VecRow B)) (h : Text) :
    (∃ row ∈ rows, row.contentHash = h ∧ row.embedding.isSome = true ∧ embeddingByHash rows h = row.embedding) ∨
    (∀ row ∈ rows, row.contentHash = h → row.embedding = none) ∧ embeddingByHash rows h = none :=
  foldl_embedding rows _ h

theorem addAnswers_of_not_mem {chunks : List Chunk} {answers : List (Option B)}
    (hmem : h ∉ chunks.map (·.hash)) : addAnswers chunks answers found h = found h := by
  induction chunks generalizing answers found with
  | nil => rfl
  | cons c chunks ih =>
    rw [List.map_cons, List.mem_cons, not_or] at hmem
    match answers with
    | [] => rfl
    | none :: answers => exact ih hmem.2
    | some embedding :: answers =>
      rw [addAnswers, ih hmem.2, Function.update_of_ne hmem.1]

theorem addAnswers_getElem {chunks : List Chunk} {answers : List (Option B)} {i : Nat} {c : Chunk}
    (hnodup : (chunks.map (·.hash)).Nodup) (hfree : found c.hash = none)
    (hi : chunks[i]? = some c) :
    addAnswers chunks answers found c.hash = (answers[i]?).join := by
  induction chunks generalizing answers found i with
  | nil => cases hi
  | cons d chunks ih =>
    rw [List.map_cons, List.nodup_cons] at hnodup
    cases i with
    | zero =>
      obtain rfl := Option.some_inj.mp hi
      match answers with
      | [] => exact hfree
      | none :: answers => exact (addAnswers_of_not_mem hnodup.1).trans hfree
      | some embedding :: answers =>
        rw [addAnswers, addAnswers_of_not_mem hnodup.1, Function.update_self]
        rfl
    | succ i =>
      have hne : c.hash ≠ d.hash := by
        intro heq
        rw [← heq] at hnodup
        exact hnodup.1 (List.mem_map.mpr ⟨c, List.mem_of_getElem? hi, rfl⟩)
      match answers with
      | [] => exact hfree
      | none :: answers => exact ih hnodup.2 hfree hi
      | some embedding :: answers =>
        exact ih hnodup.2 (by rw [Function.update_of_ne hne, hfree]) hi

theorem nodup_missingChunks (found : Text → Option B) (chunks : List Chunk) :
    ((missingChunks found chunks).map (·.hash)).Nodup := by
  have hkeys := (@KeepFirst.keys_keepFirst _ _ _ hash? []
    (chunks.filter fun c => (found c.hash).isNone)).1
  rwa [show (hash? : Chunk → Option Text) = some ∘ Chunk.hash from rfl, List.filterMap_eq_map] at hkeys

theorem exists_missingChunk {chunks : List Chunk} {c : Chunk} (hc : c ∈ chunks)
    (hfree : found c.hash = none) :
    ∃ (i : Nat) (d : Chunk), (missingChunks found chunks)[i]? = some d ∧ d.hash = c.hash := by
  have hmem : c ∈ chunks.filter fun c => (found c.hash).isNone :=
    List.mem_filter.mpr ⟨hc, by rw [hfree]; rfl⟩
  obtain hseen | hkept := @KeepFirst.mem_keys_keepFirst _ _ _ hash? [] c _ c.hash hmem rfl
  · exact absurd hseen List.not_mem_nil
  · obtain ⟨d, hd, hhash⟩ := List.mem_filterMap.mp hkept
    obtain ⟨i, hi⟩ := List.mem_iff_getElem?.mp hd
    exact ⟨i, d, hi, Option.some_inj.mp hhash⟩

end Embeddings

section Converges

variable {B : Type} {column : TextColumn}

/-- The embedding was stored under the hash of the row before, or else it is what the service
answered for a text of that hash. -/
def EmbeddedBy (contentHash : Text → Text) (getEmbeddings : List Text → Option (List (Option B)))
    (existing : List (VecRow B)) (row : VecRow B) : Prop :=
  (∃ old ∈ existing, old.contentHash = row.contentHash ∧ old.embedding.isSome = true ∧ row.embedding = old.embedding) ∨
  (∀ old ∈ existing, old.contentHash = row.contentHash → old.embedding = none) ∧
    ∃ texts answers, getEmbeddings texts = some answers ∧
      ∃ (i : Nat) (text : Text), texts[i]? = some text ∧ contentHash text = row.contentHash ∧
        row.embedding = (answers[i]?).join

structure Reindexed (contentHash : Text → Text)
    (getEmbeddings : List Text → Option (List (Option B))) (agentId : Text)
    (files : List MemoryFileMetadata) (before after done : VecTable column B) : Prop where
  rows : ((done.rowsOf agentId).map VecRow.chunk).Perm
    ((allChunks contentHash files).map column.storedChunk)
  embedded : ∀ row ∈ done.rowsOf agentId, EmbeddedBy contentHash getEmbeddings (before.rowsOf agentId) row
  others : ∀ other, other ≠ agentId → done.rowsOf other = after.rowsOf other

theorem eq_of_id {t : VecTable column B} {agentId : Text} {row other : VecRow B}
    (hrow : row ∈ t.rowsOf agentId) (hother : other ∈ t.rowsOf agentId) (h : row.id = other.id) :
    row = other :=
  List.inj_on_of_nodup_map t.nodup (List.mem_filter.mp hrow).1 (List.mem_filter.mp hother).1 h

theorem nodup_rowsOf (t : VecTable column B) (agentId : Text) : (t.rowsOf agentId).Nodup :=
  (List.Nodup.of_map _ t.nodup).filter _

section Match

variable {t : VecTable column B} {agentId : Text} {chunks : List Chunk}

theorem keyed_rows (t : VecTable column B) (agentId : Text) :
    Reconcile.Keyed rowKey VecRow.chunk (Reconcile.pool rowKey VecRow.chunk
      ((t.rowsOf agentId).filter (·.embedding.isSome))) :=
  Reconcile.keyed_pool ((nodup_rowsOf t agentId).filter _)

theorem mem_of_retained {row : VecRow B} (h : row ∈ (matchRows (t.rowsOf agentId) chunks).1) :
    row ∈ t.rowsOf agentId ∧ row.embedding.isSome = true := by
  have hpool := Reconcile.mem_of_mem_take (keyed_rows t agentId) h
  exact List.mem_filter.mp (List.mem_filter.mp hpool).1

theorem perm_matchRows : ((matchRows (t.rowsOf agentId) chunks).1.map VecRow.chunk ++
    (matchRows (t.rowsOf agentId) chunks).2).Perm chunks :=
  Reconcile.perm_take (keyed_rows t agentId) rowKey_injective

theorem perm_retained : ((t.rowsOf agentId).filter fun row =>
      row.id ∉ staleRowIds (t.rowsOf agentId) chunks).Perm
    (matchRows (t.rowsOf agentId) chunks).1 := by
  refine (List.perm_ext_iff_of_nodup ((nodup_rowsOf t agentId).filter _)
    (Reconcile.nodup_take (keyed_rows t agentId))).mpr fun row => ?_
  rw [List.mem_filter, decide_eq_true_eq]
  constructor
  · rintro ⟨hrow, hstale⟩
    by_contra hnot
    refine hstale (List.mem_map.mpr ⟨row, List.mem_filter.mpr ⟨hrow, ?_⟩, rfl⟩)
    rw [decide_eq_true_eq]
    intro hid
    obtain ⟨other, hother, hid⟩ := List.mem_map.mp hid
    rw [eq_of_id (mem_of_retained hother).1 hrow hid] at hother
    exact hnot hother
  · intro hkept
    refine ⟨(mem_of_retained hkept).1, fun hstale => ?_⟩
    obtain ⟨other, hother, hid⟩ := List.mem_map.mp hstale
    obtain ⟨hother, hnot⟩ := List.mem_filter.mp hother
    rw [eq_of_id hother (mem_of_retained hkept).1 hid, decide_eq_true_eq] at hnot
    exact hnot (List.mem_map.mpr ⟨row, hkept, rfl⟩)

theorem storedChunk_retained {row : VecRow B} (h : row ∈ t.rowsOf agentId) :
    column.storedChunk row.chunk = row.chunk := by
  rw [TextColumn.storedChunk, VecRow.chunk]
  simp only [t.texts row (List.mem_filter.mp h).1]

end Match

variable {contentHash : Text → Text} {getEmbeddings : List Text → Option (List (Option B))}
  {agentId : Text} {now : Nat} {files : List MemoryFileMetadata} {before after done : VecTable column B}

theorem hash_of_mem_allChunks {c : Chunk} (h : c ∈ allChunks contentHash files) : c.hash = contentHash c.text := by
  obtain ⟨file, -, hc⟩ := List.mem_flatMap.mp h
  obtain ⟨text, -, rfl⟩ := List.mem_map.mp hc
  rfl

section Run

variable (contentHash getEmbeddings agentId files before)

def insertedChunks : List Chunk :=
  (matchRows (before.rowsOf agentId) (allChunks contentHash files)).2

def newChunks : List Chunk :=
  missingChunks (embeddingByHash (before.rowsOf agentId))
    (insertedChunks contentHash agentId files before)

def Answered (answers : List (Option B)) : Prop :=
  newChunks contentHash agentId files before = [] ∧ answers = [] ∨
    getEmbeddings ((newChunks contentHash agentId files before).map (·.text)) = some answers

def answeredByHash (answers : List (Option B)) : Text → Option B :=
  addAnswers (newChunks contentHash agentId files before) answers
    (embeddingByHash (before.rowsOf agentId))

end Run

theorem of_doReindexVectors
    (h : doReindexVectors contentHash getEmbeddings agentId now files before after = some done) :
    ∃ answers, Answered contentHash getEmbeddings agentId files before answers ∧
      done = insertChunks agentId (answeredByHash contentHash agentId files before answers) now
        (insertedChunks contentHash agentId files before)
        (deleteRows agentId
          (staleRowIds (before.rowsOf agentId) (allChunks contentHash files)) after) := by
  unfold doReindexVectors at h
  obtain ⟨answers, hanswers, hdone⟩ := Option.bind_eq_some_iff.mp h
  refine ⟨answers, ?_, (Option.some_inj.mp hdone).symm⟩
  rw [askEmbeddings] at hanswers
  split at hanswers
  next hnil => exact .inl ⟨hnil, (Option.some_inj.mp hanswers).symm⟩
  next => exact .inr hanswers

theorem embeddedBy_inserted {answers : List (Option B)} {row : VecRow B}
    (hanswers : Answered contentHash getEmbeddings agentId files before answers)
    (hrow : row.chunk ∈ (insertedChunks contentHash agentId files before).map column.storedChunk)
    (hfound : row.embedding = answeredByHash contentHash agentId files before answers row.contentHash) :
    EmbeddedBy contentHash getEmbeddings (before.rowsOf agentId) row := by
  obtain ⟨c, hc, hchunk⟩ := List.mem_map.mp hrow
  have hhash : c.hash = row.contentHash := congrArg Chunk.hash hchunk
  obtain ⟨old, hold, hsame, hsome, hembedding⟩ | ⟨hnone, hfree⟩ :=
    embeddingByHash_cases (before.rowsOf agentId) row.contentHash
  · refine .inl ⟨old, hold, hsame, hsome, ?_⟩
    rw [hfound, answeredByHash, addAnswers_of_not_mem, hembedding]
    intro hmem
    obtain ⟨d, hd, hd'⟩ := List.mem_map.mp hmem
    have hmissing := (List.mem_filter.mp ((KeepFirst.keepFirst_sublist [] _).subset hd)).2
    rw [hd', hembedding, Option.isNone_iff_eq_none] at hmissing
    rw [hmissing] at hsome
    cases hsome
  · rw [← hhash] at hfree hfound
    obtain ⟨i, d, hi, hd⟩ := exists_missingChunk hc hfree
    have hnew : (newChunks contentHash agentId files before)[i]? = some d := hi
    have hanswer := @addAnswers_getElem _ (embeddingByHash (before.rowsOf agentId)) _ answers i d
      (nodup_missingChunks _ _) (by rw [hd, hfree]) hnew
    obtain ⟨hnil, -⟩ | hasked := hanswers
    · rw [hnil] at hnew
      cases hnew
    refine .inr ⟨hnone, _, answers, hasked, i, d.text, ?_, ?_, ?_⟩
    · rw [List.getElem?_map, hnew]
      rfl
    · have hmem := (List.mem_filter.mp ((KeepFirst.keepFirst_sublist [] _).subset
        (List.mem_of_getElem? hi))).1
      have hall : d ∈ allChunks contentHash files :=
        perm_matchRows.subset (List.mem_append_right _ hmem)
      rw [← hash_of_mem_allChunks hall, hd, hhash]
    · rw [hfound, ← hd]
      exact hanswer

theorem doReindexVectors_reindexed (hsame : after.rowsOf agentId = before.rowsOf agentId)
    (h : doReindexVectors contentHash getEmbeddings agentId now files before after = some done) :
    Reindexed contentHash getEmbeddings agentId files before after done := by
  obtain ⟨answers, hanswers, hdone⟩ := of_doReindexVectors h
  obtain ⟨inserted, hrows, hchunks, hfound⟩ := @rowsOf_insertChunks B column agentId
    (deleteRows agentId (staleRowIds (before.rowsOf agentId) (allChunks contentHash files)) after)
    (answeredByHash contentHash agentId files before answers) now
    (insertedChunks contentHash agentId files before)
  rw [← hdone, rowsOf_deleteRows, hsame] at hrows
  have hkept := @perm_retained B column before agentId (allChunks contentHash files)
  constructor
  case rows =>
    have hretained : ((matchRows (before.rowsOf agentId) (allChunks contentHash files)).1.map
        VecRow.chunk).map column.storedChunk =
          (matchRows (before.rowsOf agentId) (allChunks contentHash files)).1.map VecRow.chunk := by
      rw [List.map_map]
      exact List.map_congr_left fun row hrow => storedChunk_retained (mem_of_retained hrow).1
    rw [hrows, List.map_append, hchunks]
    refine ((hkept.map VecRow.chunk).append_right _).trans ?_
    rw [← hretained, ← List.map_append]
    exact perm_matchRows.map _
  case embedded =>
    intro row hrow
    rw [hrows] at hrow
    obtain hrow | hrow := List.mem_append.mp hrow
    · obtain ⟨hmem, hsome⟩ := mem_of_retained (hkept.subset hrow)
      exact .inl ⟨row, hmem, rfl, hsome, rfl⟩
    · refine embeddedBy_inserted hanswers ?_ (hfound row hrow)
      rw [← hchunks]
      exact List.mem_map_of_mem hrow
  case others =>
    intro other hne
    rw [hdone, rowsOf_insertChunks_of_ne _ _ _ hne, rowsOf_deleteRows_of_ne _ hne]

def Right (contentHash : Text → Text) (embed : Text → B) (rows : List (VecRow B)) : Prop :=
  ∀ row ∈ rows, ∀ b, row.embedding = some b → ∀ s, contentHash s = row.contentHash → b = embed s

theorem embedding_of_right {embed : Text → B}
    (hhash : ∀ s s', contentHash s = contentHash s' → embed s = embed s')
    (hright : Right contentHash embed (before.rowsOf agentId))
    (hanswers : ∀ texts answers, getEmbeddings texts = some answers → answers = texts.map fun s => some (embed s))
    {row : VecRow B} (h : EmbeddedBy contentHash getEmbeddings (before.rowsOf agentId) row)
    (s : Text) (hs : contentHash s = row.contentHash) : row.embedding = some (embed s) := by
  obtain ⟨old, hold, hsame, hsome, hembedding⟩ |
    ⟨-, texts, answers, hasked, i, text, hi, htext, hembedding⟩ := h
  · obtain ⟨b, hb⟩ := Option.isSome_iff_exists.mp hsome
    rw [hembedding, hb, hright old hold b hb s (hs.trans hsame.symm)]
  · rw [hembedding, hanswers texts answers hasked, List.getElem?_map, hi]
    exact congrArg some (hhash text s (htext.trans hs.symm))

/-- The rows become those of the chunks.  Where what was stored and what the service answers is
right, every row has the embedding of its text. -/
theorem doReindexVectors_converges (hsame : after.rowsOf agentId = before.rowsOf agentId) :
    (doReindexVectors contentHash getEmbeddings agentId now files before after = none →
      ∃ texts, getEmbeddings texts = none) ∧
    ∀ done, doReindexVectors contentHash getEmbeddings agentId now files before after = some done →
      Reindexed contentHash getEmbeddings agentId files before after done ∧
      ∀ embed : Text → B, (∀ s s', contentHash s = contentHash s' → embed s = embed s') →
        Right contentHash embed (before.rowsOf agentId) →
        (∀ texts answers, getEmbeddings texts = some answers → answers = texts.map fun s => some (embed s)) →
        ∀ row ∈ done.rowsOf agentId, ∀ s, contentHash s = row.contentHash → row.embedding = some (embed s) := by
  refine ⟨fun h => ?_, fun done h => ?_⟩
  · unfold doReindexVectors at h
    cases hasked : askEmbeddings getEmbeddings (newChunks contentHash agentId files before) with
    | some answers =>
      cases (Option.bind_eq_none_iff.mp h) answers hasked
    | none =>
      rw [askEmbeddings] at hasked
      split at hasked
      next => cases hasked
      next => exact ⟨_, hasked⟩
  · have hreindexed := doReindexVectors_reindexed hsame h
    exact ⟨hreindexed, fun embed hhash hright hanswers row hrow =>
      embedding_of_right hhash hright hanswers (hreindexed.embedded row hrow)⟩

end Converges

section Runs

def plainColumn : TextColumn where
  stored s := s
  stored_stored _ := rfl
  stored_wellFormed _ := rfl

def mainRow (id : Nat) (agentId text : Text) (embedding : Nat) : VecRow Nat where
  id := id
  agentId := agentId
  filePath := ascii "MEMORY.md"
  fileKind := .main
  topicId := none
  topicStatus := none
  chunkText := text
  contentHash := text
  embedding := some embedding
  createdAt := 0

def dailyFile (text : Text) : MemoryFileMetadata :=
  ⟨ascii "memory/2026-07-29.md", .daily, none, none, text⟩

def oldTable : VecTable plainColumn Nat where
  rows := [mainRow 1 (ascii "agt_1") (ascii "a") 7, mainRow 2 (ascii "agt_1") (ascii "a") 7,
    mainRow 3 (ascii "agt_1") (ascii "b") 8, mainRow 4 (ascii "agt_2") (ascii "a") 7]
  nextId := 5
  nodup := by decide
  below := by decide
  texts _ _ := rfl

def newFiles : List MemoryFileMetadata :=
  [⟨ascii "MEMORY.md", .main, none, none, ascii "a"⟩, dailyFile (ascii "b"), dailyFile (ascii "c")]

theorem chunkText_short {text : Text} (hblank : isBlank text = false)
    (h : text.length ≤ CHUNK_SIZE) : chunkText text = [text] := by
  rw [chunkText, hblank, chunkFrom, if_pos h]
  rfl

theorem allChunks_newFiles : allChunks id newFiles = [⟨ascii "MEMORY.md", .main, none, none, ascii "a", ascii "a"⟩,
      ⟨ascii "memory/2026-07-29.md", .daily, none, none, ascii "b", ascii "b"⟩,
      ⟨ascii "memory/2026-07-29.md", .daily, none, none, ascii "c", ascii "c"⟩] := by
  simp only [allChunks, newFiles, dailyFile, fileChunks, List.flatMap_cons, List.flatMap_nil]
  rw [chunkText_short (by decide +kernel) (by decide +kernel), chunkText_short (by decide +kernel) (by decide +kernel),
    chunkText_short (by decide +kernel) (by decide +kernel)]
  rfl

def fiveFor (texts : List Text) : Option (List (Option Nat)) := some (texts.map fun _ => some 5)

def summary (agentId : Text) (run : Option (VecTable plainColumn Nat)) : Option (List (Nat × Option Nat)) :=
  run.map fun t => (t.rowsOf agentId).map fun row => (row.id, row.embedding)

theorem run_oldTable : summary (ascii "agt_1") (doReindexVectors id fiveFor (ascii "agt_1") 9 newFiles oldTable
      oldTable) = some [(2, some 7), (5, some 8), (6, some 5)] := by
  unfold doReindexVectors
  rw [allChunks_newFiles]
  decide +kernel

theorem doReindexVectors_oldTable : ∃ done,
    doReindexVectors id fiveFor (ascii "agt_1") 9 newFiles oldTable oldTable = some done ∧
      (done.rowsOf (ascii "agt_1")).map (fun row => (row.id, row.embedding)) =
        [(2, some 7), (5, some 8), (6, some 5)] ∧
      Reindexed id fiveFor (ascii "agt_1") newFiles oldTable oldTable done := by
  obtain ⟨done, hdone, hrows⟩ := Option.map_eq_some_iff.mp run_oldTable
  exact ⟨done, hdone, hrows, ((doReindexVectors_converges rfl).2 done hdone).1⟩

def emptyTable : VecTable plainColumn Nat := ⟨[], 1, .nil, nofun, nofun⟩

theorem reindex_without_embedding : ∃ done,
    doReindexVectors id (fun _ => some []) (ascii "agt_1") 9 newFiles emptyTable emptyTable = some done ∧
    (done.rowsOf (ascii "agt_1")).map (·.embedding) = [none, none, none] := by
  have hrun : summary (ascii "agt_1") (doReindexVectors id (fun _ => some []) (ascii "agt_1") 9
      newFiles emptyTable emptyTable) = some [(1, none), (2, none), (3, none)] := by
    unfold doReindexVectors
    rw [allChunks_newFiles]
    decide +kernel
  obtain ⟨done, hdone, hrows⟩ := Option.map_eq_some_iff.mp hrun
  refine ⟨done, hdone, ?_⟩
  have hembeddings := congrArg (List.map Prod.snd) hrows
  rw [List.map_map] at hembeddings
  exact hembeddings

end Runs

end A2Wave.MemoryIndex
