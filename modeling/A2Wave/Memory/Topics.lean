import Mathlib
import A2Wave.Lib.JsText
import A2Wave.Lib.Outcome

/-! Topic files of `lib/memory-topics.ts`: their metadata, and when a file is read as a topic. -/

namespace A2Wave.MemoryTopics

open JsText

def MEMORY_TOPIC_SOFT_TOKENS : Nat := 1500
def MEMORY_TOPIC_HARD_TOKENS : Nat := 2000
def MEMORY_ACTIVE_TOPIC_LIMIT : Nat := 16
def MEMORY_ACTIVE_TOPICS_BYTES_LIMIT : Nat := 64 * 1024
def MEMORY_TOPIC_KEYWORD_LIMIT : Nat := 6
def MEMORY_TOPIC_DESCRIPTION_LIMIT : Nat := 100
def MEMORY_TOPIC_SCOPE_LIMIT : Nat := 240

inductive MemoryTopicStatus
  | active
  | archived
  deriving DecidableEq

structure MemoryTopicMetadata where
  topicId : Text
  title : Text
  scope : Text
  description : Text
  keywords : List Text
  status : MemoryTopicStatus
  updatedAt : Nat
  deriving DecidableEq

/-- A name under `memory/topics/`, or `memory/topics/archive/` when archived. -/
structure TopicPath where
  status : MemoryTopicStatus
  topicId : Text
  slug : Text
  deriving DecidableEq

structure MemoryTopicRecord extends MemoryTopicMetadata where
  path : TopicPath
  body : Text
  size : Nat
  tokenCount : Nat
  needsReorganization : Bool
  deriving DecidableEq

/-- The front matter of a file: a field is `none` when it is missing or of another type. -/
structure FrontMatter where
  topicId : Option Text
  title : Option Text
  scope : Option Text
  description : Option Text
  keywords : Option (List (Option Text))
  status : Option MemoryTopicStatus
  updatedAt : Option Nat
  deriving DecidableEq

inductive MemoryFile
  | matter (data : FrontMatter) (content : Text) (size : Nat)
  | unreadable
  deriving DecidableEq

structure MemoryTopicError where
  code : String
  message : String
  deriving DecidableEq

/-- What the runtime gives: its tables of characters, its order of texts, and the size of what
`matter.stringify` makes. -/
structure Runtime where
  toLowerCase : Text → Text
  normalizeNFKD : Text → Text
  localeLe : Text → Text → Bool
  byteLength : FrontMatter → Text → Nat

def utf8Length (s : Text) : Nat := (s.map Char.utf8Size).sum

def plainRuntime : Runtime where
  toLowerCase s := s.map Char.toLower
  normalizeNFKD s := s
  localeLe a b := decide (a.map Char.toNat ≤ b.map Char.toNat)
  byteLength data content :=
    120 + (([data.topicId, data.title, data.scope, data.description].map fun field =>
        utf8Length (field.getD [])).sum +
      ((data.keywords.getD []).map fun keyword => 5 + utf8Length (keyword.getD [])).sum) + utf8Length content

section Checks

def requiredString (value : Option Text) (field : String) (maxLength : Nat) : Except MemoryTopicError Text :=
  match value with
  | none => .error ⟨"INVALID_TOPIC_METADATA", s!"{field} is required"⟩
  | some value =>
    if trim value = [] then .error ⟨"INVALID_TOPIC_METADATA", s!"{field} is required"⟩
    else if maxLength < length16 (normalizeSpace value) then
      .error ⟨"INVALID_TOPIC_METADATA", s!"{field} must not exceed {maxLength} characters"⟩
    else .ok (normalizeSpace value)

variable (rt : Runtime)

/-- The keywords kept, `seen` being the keys of those before. -/
def keepKeywords : List (Option Text) → List Text → List Text
  | [], _ => []
  | none :: items, seen => keepKeywords items seen
  | some item :: items, seen =>
    let keyword := normalizeSpace item
    if keyword = [] ∨ 40 < length16 keyword ∨ rt.toLowerCase keyword ∈ seen then
      keepKeywords items seen
    else keyword :: keepKeywords items (rt.toLowerCase keyword :: seen)

def normalizedKeywords (value : Option (List (Option Text))) : Except MemoryTopicError (List Text) :=
  match value with
  | none => .error ⟨"INVALID_TOPIC_METADATA", "keywords must be an array"⟩
  | some items =>
    let result := keepKeywords rt items []
    if result.length = 0 ∨ MEMORY_TOPIC_KEYWORD_LIMIT < result.length then
      .error ⟨"INVALID_TOPIC_METADATA", s!"keywords must contain 1-{MEMORY_TOPIC_KEYWORD_LIMIT} unique values"⟩
    else .ok result

def isHexDigit (c : Char) : Bool := ('0' ≤ c && c ≤ '9') || ('a' ≤ c && c ≤ 'f')

def isSlugChar (c : Char) : Bool := ('0' ≤ c && c ≤ '9') || ('a' ≤ c && c ≤ 'z')

def isTopicId (id : Text) : Bool :=
  decide (id.take 4 = "tpc_".toList) && decide (id.length = 12) && (id.drop 4).all isHexDigit

def isTopicPath (path : TopicPath) : Bool :=
  isTopicId path.topicId && !path.slug.isEmpty && path.slug.all fun c => isSlugChar c || c == '-'

def estimateMemoryTokens (text : Text) : Nat :=
  text.countP (fun c => decide (0xff < c.toNat)) + (text.countP (fun c => decide (c.toNat ≤ 0xff)) + 3) / 4

def hyphenate : Bool → Text → Text
  | _, [] => []
  | inRun, c :: s =>
    if isSlugChar c then c :: hyphenate false s
    else if inRun then hyphenate true s
    else '-' :: hyphenate true s

def slugifyTopicTitle (title : Text) : Text :=
  let hyphens := hyphenate false (rt.toLowerCase (rt.normalizeNFKD title))
  let slug := ((hyphens.dropWhile (· == '-')).rdropWhile (· == '-')).take 48
  if slug = [] then "topic".toList else slug

def topicPath (metadata : MemoryTopicMetadata) : TopicPath :=
  ⟨metadata.status, metadata.topicId, slugifyTopicTitle rt metadata.title⟩

end Checks

section Files

variable (rt : Runtime)

def titleLine (title : Text) : Text := "# ".toList ++ title

def parseTopicStatus : Option MemoryTopicStatus → Except MemoryTopicError MemoryTopicStatus
  | some status => .ok status
  | none => .error ⟨"INVALID_TOPIC_METADATA", "status must be active or archived"⟩

def parseUpdatedAt : Option Nat → Except MemoryTopicError Nat
  | some updatedAt => .ok updatedAt
  | none => .error ⟨"INVALID_TOPIC_METADATA", "updated_at must be an ISO date"⟩

/-- The checks on what `matter` read. -/
def parseFrontMatter (path : TopicPath) (data : FrontMatter) (content : Text) (size : Nat) :
    Except MemoryTopicError MemoryTopicRecord := do
  let topicId ← requiredString data.topicId "topic_id" 20
  ensure (isTopicId topicId = true ∧ topicId = path.topicId)
    ⟨"INVALID_TOPIC_METADATA", "topic_id does not match the topic path"⟩
  let title ← requiredString data.title "title" 80
  let scope ← requiredString data.scope "scope" MEMORY_TOPIC_SCOPE_LIMIT
  let description ← requiredString data.description "description" MEMORY_TOPIC_DESCRIPTION_LIMIT
  let keywords ← normalizedKeywords rt data.keywords
  let status ← parseTopicStatus data.status
  ensure (status = path.status)
    ⟨"INVALID_TOPIC_METADATA", "status does not match the topic path"⟩
  let updatedAt ← parseUpdatedAt data.updatedAt
  let body := trim content
  ensure (titleLine title <+: body)
    ⟨"INVALID_TOPIC_BODY", "Topic body must start with its title"⟩
  return {
    topicId, title, scope, description, keywords, status, updatedAt, path, body, size
    tokenCount := estimateMemoryTokens body
    needsReorganization := MEMORY_TOPIC_SOFT_TOKENS ≤ estimateMemoryTokens body }

def parseMemoryTopicFile (path : TopicPath) (file : MemoryFile) : Except MemoryTopicError MemoryTopicRecord :=
  if isTopicPath path = false then .error ⟨"INVALID_TOPIC_PATH", "Invalid topic path"⟩
  else match file with
  | .unreadable => .error ⟨"INVALID_TOPIC_FRONTMATTER", "Invalid topic frontmatter"⟩
  | .matter data content size => parseFrontMatter rt path data content size

def renderMemoryTopicFile (metadata : MemoryTopicMetadata) (body : Text) : Except MemoryTopicError MemoryFile := do
  let topicId ← requiredString (some metadata.topicId) "topic_id" 20
  ensure (isTopicId topicId = true) ⟨"INVALID_TOPIC_METADATA", "Invalid topic_id"⟩
  let title ← requiredString (some metadata.title) "title" 80
  let scope ← requiredString (some metadata.scope) "scope" MEMORY_TOPIC_SCOPE_LIMIT
  let description ←
    requiredString (some metadata.description) "description" MEMORY_TOPIC_DESCRIPTION_LIMIT
  let keywords ← normalizedKeywords rt (some (metadata.keywords.map some))
  let normalizedBody := trim body
  ensure (titleLine title <+: normalizedBody)
    ⟨"INVALID_TOPIC_BODY", "Topic body must start with its title"⟩
  let data : FrontMatter :=
    { topicId, title, scope, description, keywords := some (keywords.map some),
      status := metadata.status, updatedAt := metadata.updatedAt }
  return .matter data normalizedBody (rt.byteLength data normalizedBody)

end Files

section Normal

variable {rt : Runtime}

theorem requiredString_ok {value : Option Text} {field : String} {maxLength : Nat} {t : Text}
    (h : requiredString value field maxLength = .ok t) :
    requiredString (some t) field maxLength = .ok t := by
  cases value with
  | none => cases h
  | some v =>
    rw [requiredString] at h
    split_ifs at h with hempty hlong
    obtain rfl := Except.ok.inj h
    have hne : normalizeSpace v ≠ [] := fun h => hempty (collapse_eq_nil.mp h)
    rw [requiredString, normalizeSpace_idem, trim_normalizeSpace, if_neg hne, if_neg hlong]

theorem keepKeywords_map (items : List (Option Text)) (seen : List Text) :
    keepKeywords rt ((keepKeywords rt items seen).map some) seen = keepKeywords rt items seen := by
  induction items generalizing seen with
  | nil => rfl
  | cons item items ih =>
    cases item with
    | none => exact ih seen
    | some item =>
      simp only [keepKeywords]
      split
      next => exact ih seen
      next h => rw [List.map_cons, keepKeywords, normalizeSpace_idem, if_neg h, ih]

theorem of_mem_keepKeywords {items : List (Option Text)} {seen : List Text} {keyword : Text}
    (h : keyword ∈ keepKeywords rt items seen) :
    normalizeSpace keyword = keyword ∧ keyword ≠ [] ∧ length16 keyword ≤ 40 := by
  induction items generalizing seen with
  | nil => cases h
  | cons item items ih =>
    cases item with
    | none => exact ih h
    | some item =>
      simp only [keepKeywords] at h
      split at h
      next => exact ih h
      next hkeep =>
        obtain rfl | h := List.mem_cons.mp h
        · rw [not_or, not_or, Nat.not_lt] at hkeep
          exact ⟨normalizeSpace_idem item, hkeep.1, hkeep.2.1⟩
        · exact ih h

theorem length_keepKeywords_le (items : List (Option Text)) (seen : List Text) :
    (keepKeywords rt items seen).length ≤ items.length := by
  induction items generalizing seen with
  | nil => exact Nat.le_refl _
  | cons item items ih =>
    cases item with
    | none => exact Nat.le_succ_of_le (ih seen)
    | some item =>
      simp only [keepKeywords]
      split
      next => exact Nat.le_succ_of_le (ih seen)
      next => exact Nat.succ_le_succ (ih _)

theorem normalizedKeywords_ok {value : Option (List (Option Text))} {keywords : List Text}
    (h : normalizedKeywords rt value = .ok keywords) :
    normalizedKeywords rt (some (keywords.map some)) = .ok keywords := by
  cases value with
  | none => cases h
  | some items =>
    simp only [normalizedKeywords] at h
    split at h
    next => cases h
    next hlen =>
      obtain rfl := Except.ok.inj h
      rw [normalizedKeywords, keepKeywords_map, if_neg hlen]

structure Checked (rt : Runtime) (m : MemoryTopicMetadata) : Prop where
  topicId : requiredString (some m.topicId) "topic_id" 20 = .ok m.topicId
  isTopicId : isTopicId m.topicId = true
  title : requiredString (some m.title) "title" 80 = .ok m.title
  scope : requiredString (some m.scope) "scope" MEMORY_TOPIC_SCOPE_LIMIT = .ok m.scope
  description : requiredString (some m.description) "description" MEMORY_TOPIC_DESCRIPTION_LIMIT = .ok m.description
  keywords : normalizedKeywords rt (some (m.keywords.map some)) = .ok m.keywords

def topicFile (rt : Runtime) (m : MemoryTopicMetadata) (body : Text) : MemoryFile :=
  let data : FrontMatter :=
    { topicId := m.topicId, title := m.title, scope := m.scope, description := m.description,
      keywords := some (m.keywords.map some), status := m.status, updatedAt := m.updatedAt }
  .matter data body (rt.byteLength data body)

def fileSize : MemoryFile → Nat
  | .matter _ _ size => size
  | .unreadable => 0

def topicRecord (m : MemoryTopicMetadata) (path : TopicPath) (body : Text) (size : Nat) :
    MemoryTopicRecord :=
  { m with
    path, body, size
    tokenCount := estimateMemoryTokens body
    needsReorganization := MEMORY_TOPIC_SOFT_TOKENS ≤ estimateMemoryTokens body }

variable {m : MemoryTopicMetadata}

theorem Checked.withStatus (h : Checked rt m)
    (status : MemoryTopicStatus) (updatedAt : Nat) :
    Checked rt { m with status, updatedAt } :=
  ⟨h.topicId, h.isTopicId, h.title, h.scope, h.description, h.keywords⟩

theorem Checked.title_ne_nil (h : Checked rt m) : m.title ≠ [] := by
  intro hnil
  have htitle := h.title
  rw [hnil] at htitle
  cases htitle

theorem Checked.trim_title (h : Checked rt m) : trim m.title = m.title := by
  have htitle := h.title
  rw [requiredString] at htitle
  split_ifs at htitle
  rw [← Except.ok.inj htitle, trim_normalizeSpace]

structure ReadsAs (rt : Runtime) (path : TopicPath) (file : MemoryFile) (r : MemoryTopicRecord) : Prop where
  isTopicPath : isTopicPath path = true
  checked : Checked rt r.toMemoryTopicMetadata
  topicId : r.topicId = path.topicId
  status : r.status = path.status
  body : trim r.body = r.body
  titled : titleLine r.title <+: r.body
  eq : r = topicRecord r.toMemoryTopicMetadata path r.body (fileSize file)
  content : ∀ data content size, file = .matter data content size → r.body = trim content

theorem readsAs {path : TopicPath} {file : MemoryFile} {r : MemoryTopicRecord}
    (h : parseMemoryTopicFile rt path file = .ok r) : ReadsAs rt path file r := by
  unfold parseMemoryTopicFile at h
  split at h
  next => cases h
  next hpath =>
    cases file with
    | unreadable => cases h
    | matter data content size =>
      obtain ⟨topicId, hid, h⟩ := bind_ok h
      obtain ⟨_, hmatch, h⟩ := bind_ok h
      obtain ⟨title, htitle, h⟩ := bind_ok h
      obtain ⟨scope, hscope, h⟩ := bind_ok h
      obtain ⟨description, hdesc, h⟩ := bind_ok h
      obtain ⟨keywords, hkeys, h⟩ := bind_ok h
      obtain ⟨status, -, h⟩ := bind_ok h
      obtain ⟨_, hstatus, h⟩ := bind_ok h
      obtain ⟨updatedAt, -, h⟩ := bind_ok h
      obtain ⟨_, hbody, h⟩ := bind_ok h
      obtain rfl := Except.ok.inj h
      obtain ⟨hpattern, hsame⟩ := of_ensure hmatch
      exact ⟨by simpa using hpath, ⟨requiredString_ok hid, hpattern, requiredString_ok htitle,
        requiredString_ok hscope, requiredString_ok hdesc, normalizedKeywords_ok hkeys⟩, hsame,
        of_ensure hstatus, trim_trim, of_ensure hbody, rfl, fun _ _ _ h => by cases h; rfl⟩

theorem render_of_keywords {body : Text} {keywords : List Text}
    (h : Checked rt { m with keywords })
    (hkeys : normalizedKeywords rt (some (m.keywords.map some)) = .ok keywords)
    (hbody : titleLine m.title <+: trim body) :
    renderMemoryTopicFile rt m body = .ok (topicFile rt { m with keywords } (trim body)) := by
  unfold renderMemoryTopicFile
  simp only [bind, h.topicId, h.title, h.scope, h.description, hkeys, ensure_of h.isTopicId,
    ensure_of hbody, Except.bind]
  rfl

theorem render_checked {body : Text} (h : Checked rt m)
    (hbody : titleLine m.title <+: trim body) :
    renderMemoryTopicFile rt m body = .ok (topicFile rt m (trim body)) :=
  render_of_keywords h h.keywords hbody

theorem parse_topicFile {path : TopicPath} {body : Text}
    (h : Checked rt m) (hpath : isTopicPath path = true) (hid : m.topicId = path.topicId)
    (hstatus : m.status = path.status) (hbody : trim body = body)
    (htitle : titleLine m.title <+: body) :
    parseMemoryTopicFile rt path (topicFile rt m body) =
      .ok (topicRecord m path body (fileSize (topicFile rt m body))) := by
  unfold parseMemoryTopicFile topicFile
  rw [hpath, if_neg (by decide)]
  unfold parseFrontMatter
  simp only [bind, h.topicId, h.title, h.scope, h.description, h.keywords, Except.bind,
    ensure_of (And.intro h.isTopicId hid), parseTopicStatus, ensure_of hstatus, parseUpdatedAt,
    hbody, ensure_of htitle]
  rfl

theorem hyphenate_chars {inRun : Bool} {s : Text} : ∀ c ∈ hyphenate inRun s, isSlugChar c = true ∨ c = '-' := by
  induction s generalizing inRun with
  | nil => intro c hc; cases hc
  | cons d s ih =>
    intro c hc
    rw [hyphenate] at hc
    split at hc
    next hd =>
      obtain rfl | hc := List.mem_cons.mp hc
      · exact .inl hd
      · exact ih c hc
    next =>
      split at hc
      next => exact ih c hc
      next =>
        obtain rfl | hc := List.mem_cons.mp hc
        · exact .inr rfl
        · exact ih c hc

theorem isTopicPath_topicPath (h : isTopicId m.topicId = true) : isTopicPath (topicPath rt m) = true := by
  have hslug : (slugifyTopicTitle rt m.title).isEmpty = false ∧
      (slugifyTopicTitle rt m.title).all (fun c => isSlugChar c || c == '-') = true := by
    simp only [slugifyTopicTitle]
    split
    next => exact ⟨rfl, by decide⟩
    next hne =>
      refine ⟨by simpa using hne, ?_⟩
      rw [List.all_eq_true]
      intro c hc
      have hmem := List.dropWhile_suffix (· == '-') |>.subset
        ((List.rdropWhile_prefix (· == '-') _).subset (List.mem_of_mem_take hc))
      obtain hc | rfl := hyphenate_chars c hmem
      · simp [hc]
      · rfl
  simp [isTopicPath, topicPath, h, hslug]

end Normal

end A2Wave.MemoryTopics
