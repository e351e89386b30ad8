import A2Wave.Lib.Pool
import A2Wave.Instance.Heartbeat

/-! `lib/kb-sync-service.ts`: any number of syncs of knowledge-base documents, each with a lease
that its document's status and stored time identify, beside edits of the documents in
`routes/kb-documents.ts`. -/

namespace A2Wave.KbSync

open Transition

inductive SyncStatus
  | idle
  | syncing
  | synced
  | error
  deriving DecidableEq

structure KbDocument where
  id : String
  name : String
  sourceType : String
  notionUrl : Option String := none
  notionToken : Option String := none
  contentHash : Option String := none
  fileSize : Option Nat := none
  syncStatus : SyncStatus := .idle
  lastSyncAt : Option Nat := none
  lastSyncError : Option String := none
  storagePath : Option String := none
  updatedAt : Nat
  generation : Nat := 0
  deriving DecidableEq

instance : Keyed KbDocument String := ⟨KbDocument.id⟩

@[simp] theorem key_document (doc : KbDocument) : Keyed.key doc = doc.id := rfl

structure KbContent where
  id : String
  content : Option String
  title : Option String
  fetchedAt : Option Nat
  deriving DecidableEq

instance : Keyed KbContent String := ⟨KbContent.id⟩

structure World where
  kbDocuments : Table KbDocument := .empty
  storage : Table KbContent := .empty

structure KbSyncLease where
  id : String
  acquiredAt : Nat
  generation : Nat
  deriving DecidableEq

structure Fetched where
  title : String
  content : String
  contentHash : String
  deriving DecidableEq

inductive KbSyncResult
  | completed (document : KbDocument) (contentChanged : Bool)
  | notClaimed
  | superseded
  deriving DecidableEq

def KB_SYNC_LEASE_TIMEOUT_MS : Nat := 10 * 60 * 1000

def MAX_SINGLE_FILE_BYTES : Nat := 10 * 1024 * 1024

def hasActiveKbSyncLease (doc : KbDocument) (now : Nat) : Bool :=
  doc.syncStatus = .syncing && now - doc.updatedAt < KB_SYNC_LEASE_TIMEOUT_MS

def nextKbUpdatedAt (now previous : Nat) : Nat := max now (previous + 1)

structure UpdateKbDocumentInput where
  name : Option String := none
  notionUrl : Option String := none
  notionToken : Option String := none
  deriving DecidableEq

def credentialsChanged (existing : KbDocument) (input : UpdateKbDocumentInput) : Bool :=
  (input.notionUrl.isSome && input.notionUrl ≠ existing.notionUrl) ||
    (input.notionToken.isSome && input.notionToken ≠ existing.notionToken)

inductive Thread
  | create (doc : KbDocument)
  /-- A caller of `syncRemoteKbDocument` reads the row and looks at its lease. -/
  | readDocument (id : String)
  | checkLease (doc : KbDocument)
  | claim (doc : KbDocument)
  | fetch (doc : KbDocument) (lease : KbSyncLease)
  | complete (doc : KbDocument) (lease : KbSyncLease) (fetched : Fetched)
  | fail (lease : KbSyncLease) (message : String)
  | settled (result : KbSyncResult)
  | threw (message : String)
  | readPatch (id : String) (input : UpdateKbDocumentInput)
  | patch (existing : KbDocument) (input : UpdateKbDocumentInput)
  | finished
  deriving DecidableEq

def Thread.lease : Thread → Option KbSyncLease
  | fetch _ lease => some lease
  | complete _ lease _ => some lease
  | fail lease _ => some lease
  | _ => none

structure Choice where
  now : Nat
  fetched : Except String Fetched := .error ""
  storageFault : Option (Bool × String) := none

section Program

variable (d : Dialect)

def leaseCondition (lease : KbSyncLease) (row : KbDocument) : Bool :=
  row.syncStatus = .syncing && row.updatedAt = storedInstant d lease.acquiredAt

def claimKbSyncLease (docs : Table KbDocument) (doc : KbDocument) (now : Nat) :
    Option (KbSyncLease × Table KbDocument) :=
  let acquiredAt := nextKbUpdatedAt now doc.updatedAt
  (docs.cas doc.id
    (fun row => row.syncStatus = doc.syncStatus && row.updatedAt = storedInstant d doc.updatedAt)
    (fun row => { row with
      syncStatus := .syncing
      updatedAt := storedInstant d acquiredAt
      generation := row.generation + 1 }) fun _ => rfl).map fun docs =>
    (⟨doc.id, acquiredAt, ((docs.find? doc.id).map KbDocument.generation).getD 0⟩, docs)

def validateKbFileSize (size : Nat) : Except String Unit :=
  if MAX_SINGLE_FILE_BYTES < size then .error "A single file must not exceed 10MB" else .ok ()

def writeContent (storage : Table KbContent) (id : String) (fetched : Fetched) (now : Nat) : Table KbContent :=
  storage.upsert ⟨id, some fetched.content, some fetched.title, some now⟩

def writeContentOnly (storage : Table KbContent) (id : String) (fetched : Fetched) : Table KbContent :=
  let old := storage.find? id
  storage.upsert ⟨id, some fetched.content, old.bind KbContent.title, old.bind KbContent.fetchedAt⟩

def complete (w : World) (doc : KbDocument) (lease : KbSyncLease) (fetched : Fetched) (c : Choice) : World × Thread :=
  let contentChanged := some fetched.contentHash ≠ doc.contentHash
  let updated := w.kbDocuments.cas lease.id (leaseCondition d lease)
    (fun row => { row with
      contentHash := some fetched.contentHash
      fileSize := some fetched.content.utf8ByteSize
      syncStatus := .synced
      lastSyncAt := some (storedInstant d c.now)
      lastSyncError := none
      storagePath := some doc.id
      updatedAt := storedInstant d (nextKbUpdatedAt c.now lease.acquiredAt)
      generation := row.generation + 1 }) fun _ => rfl
  match updated with
  | none => (w, .settled .superseded)
  | some docs =>
    match if contentChanged then c.storageFault else none with
    | some (written, message) =>
      (if written then { w with storage := writeContentOnly w.storage doc.id fetched } else w, .fail lease message)
    | none =>
      ({ kbDocuments := docs
         storage := if contentChanged then writeContent w.storage doc.id fetched c.now else w.storage },
        .settled (.completed ((docs.find? lease.id).getD doc) contentChanged))

/-- The `catch` of a sync. -/
def fail (w : World) (lease : KbSyncLease) (message : String) (now : Nat) : World × Thread :=
  let updated := w.kbDocuments.cas lease.id (leaseCondition d lease)
    (fun row => { row with
      syncStatus := .error
      lastSyncError := some message
      lastSyncAt := some (storedInstant d now)
      updatedAt := storedInstant d (nextKbUpdatedAt now lease.acquiredAt)
      generation := row.generation + 1 }) fun _ => rfl
  match updated with
  | none => (w, .settled .superseded)
  | some docs => ({ w with kbDocuments := docs }, .threw message)

/-- The write of `PATCH`; a conflict is answered with 409. -/
def patch (w : World) (existing : KbDocument) (input : UpdateKbDocumentInput) (now : Nat) : World :=
  let reset := credentialsChanged existing input
  let updated := w.kbDocuments.cas existing.id
    (fun row => row.updatedAt = storedInstant d existing.updatedAt)
    (fun row => { row with
      name := input.name.getD row.name
      notionUrl := input.notionUrl.or row.notionUrl
      notionToken := input.notionToken.or row.notionToken
      syncStatus := if reset then .idle else row.syncStatus
      lastSyncError := if reset then none else row.lastSyncError
      updatedAt := storedInstant d (nextKbUpdatedAt now existing.updatedAt)
      generation := if reset then row.generation + 1 else row.generation }) fun _ => rfl
  match updated with
  | none => w
  | some docs => { w with kbDocuments := docs }

def act (w : World) (t : Thread) (c : Choice) : Option (World × Thread) :=
  match t with
  | .create doc =>
    (w.kbDocuments.insert { doc with updatedAt := storedInstant d c.now, generation := 0 }).map fun docs =>
      ({ w with kbDocuments := docs }, .finished)
  | .readDocument id =>
    some (w, match w.kbDocuments.find? id with
      | some doc => .checkLease doc
      | none => .finished)
  | .checkLease doc => some (w, if hasActiveKbSyncLease doc c.now then .finished else .claim doc)
  | .claim doc =>
    match claimKbSyncLease d w.kbDocuments doc c.now with
    | none => some (w, .settled .notClaimed)
    | some (lease, docs) => some ({ w with kbDocuments := docs }, .fetch doc lease)
  | .fetch doc lease =>
    match c.fetched with
    | .error message => some (w, .fail lease message)
    | .ok fetched =>
      match validateKbFileSize fetched.content.utf8ByteSize with
      | .error message => some (w, .fail lease message)
      | .ok () => some (w, .complete doc lease fetched)
  | .complete doc lease fetched => some (complete d w doc lease fetched c)
  | .fail lease message => some (fail d w lease message c.now)
  | .readPatch id input =>
    some (w, match w.kbDocuments.find? id with
      | some existing =>
        if credentialsChanged existing input && existing.sourceType ≠ "notion" then .finished
        else .patch existing input
      | none => .finished)
  | .patch existing input => some (patch d w existing input c.now, .finished)
  | .settled _ => none
  | .threw _ => none
  | .finished => none

def starts : Thread → Bool
  | .create _ => true
  | .readDocument _ => true
  | .readPatch _ _ => true
  | _ => false

def program : Pool.Program World Thread Choice where
  start _ _ t := starts t
  act := act d

end Program

def Replaced (docs : Table KbDocument) (lease : KbSyncLease) : Prop :=
  ∀ row, docs.find? lease.id = some row → row.generation ≠ lease.generation

section Effect

variable {d : Dialect} {w w' : World} {t t' : Thread} {c : Choice}

theorem storedInstant_le_next (d : Dialect) (now previous : Nat) :
    storedInstant d previous ≤ storedInstant d (nextKbUpdatedAt now previous) := by
  have hle : previous + 1 ≤ nextKbUpdatedAt now previous := Nat.le_max_right _ _
  cases d with
  | postgres => exact Nat.le_of_succ_le hle
  | sqlite =>
    simp only [storedInstant]
    omega

structure Rewrite (row row' : KbDocument) : Prop where
  later : row.updatedAt ≤ row'.updatedAt
  generation : row'.generation = row.generation ∧ row'.syncStatus = row.syncStatus ∨
    row'.generation = row.generation + 1

inductive Effect (d : Dialect) (docs : Table KbDocument) (t : Thread) (c : Choice) : Table KbDocument → Thread → Prop
  | none {t' : Thread} : (∀ lease, t'.lease = some lease → t.lease = some lease) → Effect d docs t c docs t'
  | insert {docs' : Table KbDocument} {doc : KbDocument} {t' : Thread} : docs.insert doc = some docs' →
      t'.lease = Option.none → Effect d docs t c docs' t'
  | claim {docs' : Table KbDocument} {row row' doc : KbDocument} {generation : Nat} :
      t = .claim doc → docs.find? doc.id = some row → row.syncStatus = doc.syncStatus →
      row.updatedAt = storedInstant d doc.updatedAt → Rewrite row row' → docs'.find? doc.id = some row' →
      (∀ k, k ≠ doc.id → docs'.find? k = docs.find? k) → row'.generation = row.generation + 1 →
      row'.syncStatus = .syncing → generation = row'.generation →
      row'.updatedAt = storedInstant d (nextKbUpdatedAt c.now doc.updatedAt) →
      Effect d docs t c docs' (.fetch doc ⟨doc.id, nextKbUpdatedAt c.now doc.updatedAt, generation⟩)
  | write {docs' : Table KbDocument} {row row' : KbDocument} {t' : Thread} {k : String} :
      docs.find? k = some row → Rewrite row row' → docs'.find? k = some row' →
      (∀ k', k' ≠ k → docs'.find? k' = docs.find? k') →
      (row'.generation = row.generation ∨ row'.syncStatus ≠ .syncing) → t'.lease = Option.none →
      Effect d docs t c docs' t'

variable {lease : KbSyncLease}

theorem claim_effect {docs docs' : Table KbDocument} {doc : KbDocument}
    (h : claimKbSyncLease d docs doc c.now = some (lease, docs')) :
    Effect d docs (.claim doc) c docs' (.fetch doc lease) := by
  unfold claimKbSyncLease at h
  obtain ⟨docs₁, hcas, heq⟩ := Option.map_eq_some_iff.mp h
  obtain ⟨hlease, rfl⟩ := Prod.mk.inj heq
  obtain ⟨row, hrow, hp, hrow', hothers⟩ := Table.cas_some hcas
  simp only [Bool.and_eq_true, decide_eq_true_eq] at hp
  obtain ⟨hstatus, hat⟩ := hp
  rw [hrow'] at hlease
  subst hlease
  refine .claim rfl hrow hstatus hat ?_ hrow' hothers rfl rfl rfl rfl
  refine ⟨?_, .inr rfl⟩
  rw [hat]
  exact storedInstant_le_next _ _ _

theorem leaseCondition_iff {row : KbDocument} : leaseCondition d lease row = true ↔
      row.syncStatus = .syncing ∧ row.updatedAt = storedInstant d lease.acquiredAt := by
  simp [leaseCondition]

theorem complete_effect {doc : KbDocument} {fetched : Fetched}
    (h : complete d w doc lease fetched c = (w', t')) :
    Effect d w.kbDocuments (.complete doc lease fetched) c w'.kbDocuments t' := by
  unfold complete at h
  dsimp only at h
  split at h
  · cases h
    exact .none fun lease' hlease' => by cases hlease'
  · rename_i docs hcas
    obtain ⟨row, hrow, hp, hrow', hothers⟩ := Table.cas_some hcas
    obtain ⟨-, hat⟩ := leaseCondition_iff.mp hp
    split at h
    · cases h
      split <;> exact .none fun lease' hlease' => hlease'
    · cases h
      refine .write hrow ?_ hrow' hothers (.inr ?_) rfl
      · refine ⟨?_, .inr rfl⟩
        rw [hat]
        exact storedInstant_le_next _ _ _
      · exact fun h => by cases h

theorem fail_effect {message : String} (h : fail d w lease message c.now = (w', t')) :
    Effect d w.kbDocuments (.fail lease message) c w'.kbDocuments t' := by
  unfold fail at h
  dsimp only at h
  split at h
  · cases h
    exact .none fun lease' hlease' => by cases hlease'
  · rename_i docs hcas
    obtain ⟨row, hrow, hp, hrow', hothers⟩ := Table.cas_some hcas
    obtain ⟨-, hat⟩ := leaseCondition_iff.mp hp
    cases h
    refine .write hrow ?_ hrow' hothers (.inr ?_) rfl
    · refine ⟨?_, .inr rfl⟩
      rw [hat]
      exact storedInstant_le_next _ _ _
    · exact fun h => by cases h

theorem patch_effect {existing : KbDocument} {input : UpdateKbDocumentInput} :
    Effect d w.kbDocuments (.patch existing input) c (patch d w existing input c.now).kbDocuments .finished := by
  unfold patch
  dsimp only
  split
  · exact .none fun lease' hlease' => by cases hlease'
  · rename_i docs hcas
    obtain ⟨row, hrow, hp, hrow', hothers⟩ := Table.cas_some hcas
    have hat : row.updatedAt = storedInstant d existing.updatedAt := of_decide_eq_true hp
    have hlater : row.updatedAt ≤ storedInstant d (nextKbUpdatedAt c.now existing.updatedAt) := by
      rw [hat]
      exact storedInstant_le_next _ _ _
    cases hreset : credentialsChanged existing input with
    | true =>
      simp only [hreset, if_true] at hrow'
      refine .write hrow ?_ hrow' hothers (.inr ?_) rfl
      · exact ⟨hlater, .inr rfl⟩
      · exact fun h => by cases h
    | false =>
      simp only [hreset, Bool.false_eq_true, if_false] at hrow'
      refine .write hrow ?_ hrow' hothers (.inl rfl) rfl
      exact ⟨hlater, .inl ⟨rfl, rfl⟩⟩

theorem act_effect (h : act d w t c = some (w', t')) : Effect d w.kbDocuments t c w'.kbDocuments t' := by
  cases t with
  | create doc =>
    obtain ⟨docs, hins, heq⟩ := Option.map_eq_some_iff.mp h
    cases heq
    exact .insert hins rfl
  | readDocument id | checkLease doc =>
    cases h
    refine .none fun lease hlease => ?_
    split at hlease <;> cases hlease
  | claim doc =>
    simp only [act] at h
    split at h
    · cases h
      exact .none fun lease hlease => by cases hlease
    · rename_i lease docs hclaim
      cases h
      exact claim_effect hclaim
  | fetch doc lease =>
    simp only [act] at h
    split at h
    · cases h
      exact .none fun lease' hlease' => hlease'
    · split at h
      · cases h
        exact .none fun lease' hlease' => hlease'
      · cases h
        exact .none fun lease' hlease' => hlease'
  | complete doc lease fetched => exact complete_effect (Option.some.inj h)
  | fail lease message => exact fail_effect (Option.some.inj h)
  | settled result => cases h
  | threw message => cases h
  | readPatch id input =>
    cases h
    refine .none fun lease hlease => ?_
    split at hlease
    · split at hlease <;> cases hlease
    · cases hlease
  | patch existing input =>
    cases h
    exact patch_effect
  | finished => cases h

end Effect

/-- What is known of a lease while its sync runs: its document was written at its instant or later,
and when the document is syncing for somebody else, later. -/
def LeaseOk (d : Dialect) (docs : Table KbDocument) (lease : KbSyncLease) : Prop :=
  ∃ row, docs.find? lease.id = some row ∧ lease.generation ≤ row.generation ∧
    storedInstant d lease.acquiredAt ≤ row.updatedAt ∧
    (lease.generation ≠ row.generation → row.syncStatus = .syncing → storedInstant d lease.acquiredAt < row.updatedAt)

def freshClaim (d : Dialect) (p : Pool World Thread) (t : Thread) (c : Choice) : Prop :=
  match t with
  | .claim doc => ∀ row ∈ p.shared.kbDocuments.find? doc.id, row.syncStatus = doc.syncStatus →
      row.updatedAt = storedInstant d doc.updatedAt → ∀ u ∈ p.threads, ∀ old ∈ u.lease, old.id = doc.id →
        storedInstant d old.acquiredAt ≠ storedInstant d (nextKbUpdatedAt c.now doc.updatedAt)
  | _ => True

def FreshClaims (d : Dialect) (p : Pool World Thread) : Pool.Event Thread Choice → Prop
  | .spawn _ => True
  | .act i c => ∀ t ∈ p.threads[i]?, freshClaim d p t c

section Invariant

variable {d : Dialect} {docs docs' : Table KbDocument} {t t' : Thread} {c : Choice} {lease : KbSyncLease}
  {p q : Pool World Thread}

theorem LeaseOk.rewrite {row row' : KbDocument} (h : LeaseOk d docs lease)
    (hrow : docs.find? lease.id = some row) (hwrite : Rewrite row row')
    (hrow' : docs'.find? lease.id = some row')
    (hnew : row'.generation = row.generation + 1 → row'.syncStatus = .syncing →
      storedInstant d lease.acquiredAt < row'.updatedAt) : LeaseOk d docs' lease := by
  obtain ⟨row₀, hrow₀, hgen, hat, hafter⟩ := h
  rw [hrow] at hrow₀
  cases hrow₀
  obtain ⟨hlater, ⟨hsame, hstatus⟩ | hnext⟩ := hwrite
  · refine ⟨row', hrow', by omega, hat.trans hlater, ?_⟩
    intro hne hsyncing
    rw [hsame] at hne
    rw [hstatus] at hsyncing
    exact (hafter hne hsyncing).trans_le hlater
  · refine ⟨row', hrow', by omega, hat.trans hlater, ?_⟩
    intro _ hsyncing
    exact hnew hnext hsyncing

theorem Effect.keeps (h : Effect d docs t c docs' t')
    (hfresh : ∀ doc row, t = .claim doc → docs.find? doc.id = some row → row.syncStatus = doc.syncStatus →
      row.updatedAt = storedInstant d doc.updatedAt → lease.id = doc.id →
      storedInstant d lease.acquiredAt ≠ storedInstant d (nextKbUpdatedAt c.now doc.updatedAt))
    (hlease : LeaseOk d docs lease) : LeaseOk d docs' lease := by
  cases h with
  | none => exact hlease
  | insert hins =>
    obtain ⟨row, hrow, hrest⟩ := hlease
    exact ⟨row, Table.find?_insert_of_some hins hrow, hrest⟩
  | @claim _ row row' doc _ hclaim hrow hold hread hwrite hrow' hothers _ _ _ hat =>
    by_cases hid : lease.id = doc.id
    · have hne := hfresh doc row hclaim hrow hold hread hid
      rw [← hid] at hrow hrow'
      refine hlease.rewrite hrow hwrite hrow' ?_
      intro _ _
      have hle : storedInstant d lease.acquiredAt ≤ row'.updatedAt := by
        obtain ⟨row₀, hrow₀, -, hle, -⟩ := hlease
        rw [hrow] at hrow₀
        cases hrow₀
        exact hle.trans hwrite.later
      exact Nat.lt_of_le_of_ne hle (hat ▸ hne)
    · obtain ⟨row₀, hrow₀, hrest⟩ := hlease
      exact ⟨row₀, (hothers _ hid).trans hrow₀, hrest⟩
  | @write _ row row' _ k hrow hwrite hrow' hothers hstatus =>
    by_cases hid : lease.id = k
    · subst hid
      refine hlease.rewrite hrow hwrite hrow' ?_
      intro hnext hsyncing
      rcases hstatus with hsame | hne
      · omega
      · exact absurd hsyncing hne
    · obtain ⟨row₀, hrow₀, hrest⟩ := hlease
      exact ⟨row₀, (hothers _ hid).trans hrow₀, hrest⟩

theorem Effect.takes (h : Effect d docs t c docs' t') (ht' : t'.lease = some lease) :
    (docs' = docs ∧ t.lease = some lease) ∨ LeaseOk d docs' lease := by
  cases h with
  | none hkeep => exact .inl ⟨rfl, hkeep lease ht'⟩
  | insert _ hnone | write _ _ _ _ _ hnone =>
    rw [hnone] at ht'
    cases ht'
  | claim _ _ _ _ _ hrow' _ _ _ hlease hat =>
    cases ht'
    refine .inr ⟨_, hrow', hlease.le, hat.ge, fun hne => absurd hlease hne⟩

def Inv (d : Dialect) (p : Pool World Thread) : Prop :=
  ∀ t ∈ p.threads, ∀ lease, t.lease = some lease → LeaseOk d p.shared.kbDocuments lease

theorem step_inv {e : Pool.Event Thread Choice} (hok : FreshClaims d p e) (h : Inv d p)
    (hs : Pool.step (program d) p e = some q) : Inv d q := by
  obtain ⟨t, -, ht, rfl⟩ | ⟨i, c, t, w', t', rfl, hi, hact, rfl⟩ := Pool.step_cases hs
  · intro u hu lease hlease
    rcases List.mem_append.mp hu with hu | hu
    · exact h u hu lease hlease
    · rw [List.mem_singleton.mp hu] at hlease
      have hstart : starts t = true := ht
      cases t <;> first | (cases hstart; done) | cases hlease
  · have heff : Effect d p.shared.kbDocuments t c w'.kbDocuments t' := act_effect hact
    have hfresh := hok t hi
    intro u hu lease hlease
    obtain ⟨j, hj⟩ := List.mem_iff_getElem?.mp hu
    rcases Pool.getElem?_set_cases hj with ⟨-, rfl⟩ | ⟨hne, hj⟩
    · rcases heff.takes hlease with ⟨hdocs, hold⟩ | hnew
      · dsimp only
        rw [hdocs]
        exact h t (List.mem_of_getElem? hi) lease hold
      · exact hnew
    · have hmem := List.mem_of_getElem? hj
      refine heff.keeps ?_ (h u hmem lease hlease)
      rintro doc row rfl hrow hstatus hread hid
      exact hfresh row hrow hstatus hread u hmem lease hlease hid

theorem Effect.grows {k : String} {row : KbDocument} (h : Effect d docs t c docs' t')
    (hrow : docs.find? k = some row) : ∃ row', docs'.find? k = some row' ∧ row.generation ≤ row'.generation := by
  have hwrite : ∀ {r r' : KbDocument}, Rewrite r r' → r.generation ≤ r'.generation := by
    rintro r r' ⟨-, ⟨hsame, -⟩ | hnext⟩ <;> omega
  cases h with
  | none => exact ⟨row, hrow, le_rfl⟩
  | insert hins => exact ⟨row, Table.find?_insert_of_some hins hrow, le_rfl⟩
  | @claim _ row₀ row' doc _ _ hrow₀ _ _ hrewrite hrow' hothers =>
    by_cases hk : k = doc.id
    · subst hk
      rw [hrow] at hrow₀
      cases hrow₀
      exact ⟨row', hrow', hwrite hrewrite⟩
    · exact ⟨row, (hothers k hk).trans hrow, le_rfl⟩
  | @write _ row₀ row' _ k₀ hrow₀ hrewrite hrow' hothers =>
    by_cases hk : k = k₀
    · subst hk
      rw [hrow] at hrow₀
      cases hrow₀
      exact ⟨row', hrow', hwrite hrewrite⟩
    · exact ⟨row, (hothers k hk).trans hrow, le_rfl⟩

theorem Replaced.later (hrep : Replaced docs lease) (hlease : LeaseOk d docs lease)
    (h : Effect d docs t c docs' t') : Replaced docs' lease := by
  obtain ⟨row, hrow, hgen, -⟩ := hlease
  have hlt : lease.generation < row.generation := Nat.lt_of_le_of_ne hgen (hrep row hrow).symm
  obtain ⟨row', hrow', hgrows⟩ := h.grows hrow
  intro row'' hrow''
  rw [hrow'] at hrow''
  cases hrow''
  omega

theorem Replaced.leaseCondition (hrep : Replaced docs lease) (hlease : LeaseOk d docs lease) :
    ∀ row, docs.find? lease.id = some row → leaseCondition d lease row = false := by
  intro row hrow
  obtain ⟨row₀, hrow₀, -, -, hafter⟩ := hlease
  rw [hrow] at hrow₀
  cases hrow₀
  rw [← Bool.not_eq_true, leaseCondition_iff]
  rintro ⟨hstatus, hat⟩
  have hlt := hafter (hrep row hrow).symm hstatus
  exact absurd hat hlt.ne'

end Invariant

def Thread.remaining : Thread → Nat
  | fetch _ _ => 2
  | complete _ _ _ => 1
  | fail _ _ => 1
  | _ => 0

section Superseded

variable {d : Dialect} {w w' : World} {t t' : Thread} {c : Choice} {lease : KbSyncLease}
  {p q : Pool World Thread}

theorem act_of_replaced (hlease : t.lease = some lease) (hok : LeaseOk d w.kbDocuments lease)
    (hrep : Replaced w.kbDocuments lease) (h : act d w t c = some (w', t')) :
    w' = w ∧ (t'.lease = some lease ∨ t' = .settled .superseded) ∧ t'.remaining < t.remaining := by
  have hcond := hrep.leaseCondition hok
  cases t with
  | fetch doc lease' =>
    cases hlease
    simp only [act] at h
    split at h
    · cases h
      exact ⟨rfl, .inl rfl, Nat.lt_succ_self 1⟩
    · split at h
      · cases h
        exact ⟨rfl, .inl rfl, Nat.lt_succ_self 1⟩
      · cases h
        exact ⟨rfl, .inl rfl, Nat.lt_succ_self 1⟩
  | complete doc lease' fetched =>
    cases hlease
    simp only [act, complete, Table.cas_eq_none_iff.mpr hcond] at h
    cases h
    exact ⟨rfl, .inr rfl, Nat.one_pos⟩
  | fail lease' message =>
    cases hlease
    simp only [act, fail, Table.cas_eq_none_iff.mpr hcond] at h
    cases h
    exact ⟨rfl, .inr rfl, Nat.one_pos⟩
  | _ => cases hlease

theorem act_isSome_of_lease (hlease : t.lease = some lease) : (act d w t c).isSome = true := by
  cases t with
  | fetch doc lease' =>
    simp only [act]
    split
    · rfl
    · split <;> rfl
  | complete doc lease' fetched => rfl
  | fail lease' message => rfl
  | _ => cases hlease

def initial : Pool World Thread := ⟨{}, []⟩

theorem initial_inv (d : Dialect) : Inv d initial := by
  intro t ht
  cases ht

theorem reachable_inv {es : List (Pool.Event Thread Choice)}
    (h : Runs (Pool.step (program d)) (FreshClaims d) initial es p) : Inv d p :=
  h.invariant (fun _ _ _ hok hI hs => step_inv hok hI hs) (initial_inv d)

def Superseded (p : Pool World Thread) (i : Nat) (lease : KbSyncLease) : Prop :=
  ∃ t, p.threads[i]? = some t ∧ (t.lease = some lease ∧ Replaced p.shared.kbDocuments lease ∨ t = .settled .superseded)

theorem step_superseded {e : Pool.Event Thread Choice} {i : Nat} (hinv : Inv d p)
    (h : Superseded p i lease) (hs : Pool.step (program d) p e = some q) : Superseded q i lease := by
  obtain ⟨t, ht, hcase⟩ := h
  obtain ⟨u, -, -, rfl⟩ | ⟨j, c, u, w', u', rfl, hj, hact, rfl⟩ := Pool.step_cases hs
  · refine ⟨t, ?_, hcase⟩
    rw [List.getElem?_append_left (List.getElem?_eq_some_iff.mp ht).1, ht]
  · have hact' : act d p.shared u c = some (w', u') := hact
    by_cases hij : j = i
    · subst hij
      rw [hj] at ht
      cases ht
      refine ⟨u', List.getElem?_set_self (List.getElem?_eq_some_iff.mp hj).1, ?_⟩
      rcases hcase with ⟨hlease, hrep⟩ | rfl
      · have hok := hinv t (List.mem_of_getElem? hj) lease hlease
        obtain ⟨rfl, hnext, -⟩ := act_of_replaced hlease hok hrep hact'
        exact hnext.imp_left fun hlease' => ⟨hlease', hrep⟩
      · cases hact'
    · refine ⟨t, (List.getElem?_set_ne hij).trans ht, ?_⟩
      refine hcase.imp_left fun ⟨hlease, hrep⟩ => ⟨hlease, ?_⟩
      exact hrep.later (hinv t (List.mem_of_getElem? ht) lease hlease) (act_effect hact')

/-- A sync whose lease was replaced writes nothing from then on and, within two actions of its
own, ends as superseded: in every run whose claims are fresh. -/
theorem superseded_kb_sync_writes_nothing (d : Dialect) (es : List (Pool.Event Thread Choice))
    (hp : Runs (Pool.step (program d)) (FreshClaims d) initial es p) {i : Nat}
    (ht : p.threads[i]? = some t) (hlease : t.lease = some lease)
    (hrep : Replaced p.shared.kbDocuments lease) :
    ∀ es' q, Runs (Pool.step (program d)) (FreshClaims d) p es' q → ∃ u, q.threads[i]? = some u ∧
        (u = .settled .superseded ∨ u.lease = some lease ∧ ∀ c, ∃ r u', Pool.step (program d) q (.act i c) = some r ∧
            r.shared = q.shared ∧ r.threads[i]? = some u' ∧
            (u'.lease = some lease ∨ u' = .settled .superseded) ∧ u'.remaining < u.remaining) := by
  intro es' q hq
  have hinv := hq.invariant (I := fun q => Inv d q ∧ Superseded q i lease)
    (fun _ _ _ hok hI hs => ⟨step_inv hok hI.1 hs, step_superseded hI.1 hI.2 hs⟩)
    ⟨reachable_inv hp, t, ht, .inl ⟨hlease, hrep⟩⟩
  obtain ⟨hinv, u, hu, ⟨hlease', hrep'⟩ | rfl⟩ := hinv
  · refine ⟨u, hu, .inr ⟨hlease', fun c => ?_⟩⟩
    have hok := hinv u (List.mem_of_getElem? hu) lease hlease'
    obtain ⟨⟨w', u'⟩, hact⟩ := Option.isSome_iff_exists.mp
      (act_isSome_of_lease (d := d) (w := q.shared) (c := c) hlease')
    obtain ⟨hsame, hnext, hless⟩ := act_of_replaced hlease' hok hrep' hact
    refine ⟨⟨w', q.threads.set i u'⟩, u', ?_, hsame, ?_, hnext, hless⟩
    · simp [Pool.step, hu, program, hact]
    · exact List.getElem?_set_self (List.getElem?_eq_some_iff.mp hu).1
  · exact ⟨_, hu, .inl rfl⟩

end Superseded

instance (d : Dialect) (p : Pool World Thread) (t : Thread) (c : Choice) : Decidable (freshClaim d p t c) :=
  match t with
  | .claim doc => inferInstanceAs (Decidable (∀ row ∈ p.shared.kbDocuments.find? doc.id,
      row.syncStatus = doc.syncStatus → row.updatedAt = storedInstant d doc.updatedAt →
        ∀ u ∈ p.threads, ∀ old ∈ u.lease, old.id = doc.id →
          storedInstant d old.acquiredAt ≠ storedInstant d (nextKbUpdatedAt c.now doc.updatedAt)))
  | .create _ | .readDocument _ | .checkLease _ | .fetch _ _ | .complete _ _ _ | .fail _ _ | .settled _
  | .threw _ | .readPatch _ _ | .patch _ _ | .finished => .isTrue trivial

instance (d : Dialect) (p : Pool World Thread) (e : Pool.Event Thread Choice) : Decidable (FreshClaims d p e) :=
  match e with
  | .spawn _ => .isTrue trivial
  | .act i c => inferInstanceAs (Decidable (∀ t ∈ p.threads[i]?, freshClaim d p t c))

section Runs

def notionDocument : KbDocument := { id := "kbd_1", name := "Runbook", sourceType := "notion", updatedAt := 0 }

def oldContent : Fetched := ⟨"Runbook", "old workspace", "hash-old"⟩

def actAt (i now : Nat) : Pool.Event Thread Choice := .act i { now := now }

def firstSync : List (Pool.Event Thread Choice) :=
  [.spawn (.create notionDocument), actAt 0 1000, .spawn (.readDocument "kbd_1"), actAt 1 5000, actAt 1 5000,
    actAt 1 5100, .act 1 { now := 5200, fetched := .ok oldContent }]

def rotation (now : Nat) : List (Pool.Event Thread Choice) :=
  [.spawn (.readPatch "kbd_1" { notionToken := some "secret_new" }), actAt 2 5300, actAt 2 5400,
    .spawn (.readDocument "kbd_1"), actAt 3 now, actAt 3 now, actAt 3 now]

theorem superseded_kb_sync_writes_nothing_rotated : ∃ (p q : Pool World Thread) (t u : Thread) (lease : KbSyncLease),
      run (Pool.step (program .sqlite)) initial (firstSync ++ rotation 7000) = some p ∧
      p.threads[1]? = some t ∧ t.lease = some lease ∧ Replaced p.shared.kbDocuments lease ∧
      run (Pool.step (program .sqlite)) p [actAt 1 8000] = some q ∧ q.threads[1]? = some u ∧
      (u = .settled .superseded ∨
        u.lease = some lease ∧ ∀ c, ∃ r u', Pool.step (program .sqlite) q (.act 1 c) = some r ∧
          r.shared = q.shared ∧ r.threads[1]? = some u' ∧
          (u'.lease = some lease ∨ u' = .settled .superseded) ∧ u'.remaining < u.remaining) := by
  have hrep : ∀ p, run (Pool.step (program .sqlite)) initial (firstSync ++ rotation 7000) = some p →
      Replaced p.shared.kbDocuments ⟨"kbd_1", 5100, 1⟩ := by
    intro p hp row hrow
    cases hp
    cases hrow
    decide
  have hend := superseded_kb_sync_writes_nothing .sqlite (firstSync ++ rotation 7000) (.of_guarded rfl)
    (i := 1) rfl rfl (hrep _ rfl) [actAt 1 8000] _ (.of_guarded rfl)
  obtain ⟨u, hu, hsettled⟩ := hend
  exact ⟨_, _, _, u, _, rfl, rfl, rfl, hrep _ rfl, rfl, hu, hsettled⟩

theorem superseded_kb_sync_writes_stale_content : ∃ (p q : Pool World Thread) (t : Thread) (lease : KbSyncLease),
      run (Pool.step (program .sqlite)) initial (firstSync ++ rotation 5700) = some p ∧
      p.threads[1]? = some t ∧ t.lease = some lease ∧ Replaced p.shared.kbDocuments lease ∧
      Pool.step (program .sqlite) p (actAt 1 5900) = some q ∧
      q.threads[1]? ≠ some (.settled .superseded) ∧
      (p.shared.storage.find? "kbd_1").isNone = true ∧
      (q.shared.storage.find? "kbd_1").bind KbContent.content = some "old workspace" ∧
      (q.shared.kbDocuments.find? "kbd_1").map KbDocument.syncStatus = some .synced := by
  refine ⟨_, _, _, _, rfl, rfl, rfl, ?_, rfl, ?_, ?_, ?_, ?_⟩
  · intro row hrow
    cases hrow
    decide
  · decide +kernel
  · decide +kernel
  · decide +kernel
  · decide +kernel

end Runs

end A2Wave.KbSync
