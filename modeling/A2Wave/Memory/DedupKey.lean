import Mathlib
import A2Wave.Lib.KeepFirst
import A2Wave.Lib.Pattern
import A2Wave.Memory.Sections

/-! `topicItemDedupKey`: the key under which two items of a topic count as one fact. -/

namespace A2Wave.MemoryTopics

open JsText

/-- The character tables of the runtime: case, compatibility forms, `\p{P}` and `\p{S}`. -/
structure TextTables where
  toLowerCase : Text → Text
  normalizeNFKC : Text → Text
  isPunctuation : Char → Bool
  isSymbol : Char → Bool

structure Pass where
  pattern : Pattern
  replacement : Text → Text
  global : Bool

def Pass.apply (pass : Pass) (s : Text) : Text :=
  if pass.global then pass.pattern.replaceAll pass.replacement s
  else pass.pattern.replaceFirst pass.replacement s

def rewrite (passes : List Pass) (s : Text) : Text := passes.foldl (fun s pass => pass.apply s) s

section Items

/-- `replace(/^[-*]\s+/, '')`. -/
def dropMarker (s : Text) : Text := if isListItem s then (s.drop 1).dropWhile isSpace else s

def normalizeItem (item : Text) : Text := collapse (dropMarker (trim item))

def isQuote (c : Char) : Bool :=
  c == '`' || c == '\'' || c == '"' || c == '“' || c == '”' || c == '‘' || c == '’'

def foldItem (tables : TextTables) (item : Text) : Text :=
  (tables.toLowerCase (tables.normalizeNFKC (normalizeItem item))).filter fun c => !isQuote c

/-- `/[\u3000-\u9fff\uac00-\ud7af\uf900-\ufaff]/u`. -/
def isCjk (c : Char) : Bool :=
  (0x3000 ≤ c.toNat && c.toNat ≤ 0x9fff) || (0xac00 ≤ c.toNat && c.toNat ≤ 0xd7af) ||
    (0xf900 ≤ c.toNat && c.toNat ≤ 0xfaff)

end Items

section English

open Pattern

def isHyphenOrSpace (c : Char) : Bool := c == '-' || isSpace c

def englishPasses : List Pass :=
  [⟨bounded (Pattern.all [anyOf ["one".toList, "a".toList], plus isHyphenOrSpace,
      word "weeks?".toList]), fun _ => " 7 days ".toList, true⟩,
    ⟨bounded (Pattern.all [word "seven".toList, plus isHyphenOrSpace, word "days?".toList]),
      fun _ => " 7 days ".toList, true⟩,
    ⟨bounded (Pattern.all [plus Char.isDigit, plus isHyphenOrSpace, word "days?".toList]),
      fun s => ' ' :: s.takeWhile Char.isDigit ++ "days ".toList, true⟩,
    ⟨bounded (.alt (Pattern.all [word "api".toList, plus isHyphenOrSpace,
        anyOf ["keys?".toList, "credentials?".toList]]) (word "credentials?".toList)),
      fun _ => " credential ".toList, true⟩,
    ⟨bounded (anyOf (["rotates?", "rotated", "rotating", "rotation"].map String.toList)),
      fun _ => " rotate ".toList, true⟩,
    ⟨bounded (anyOf (["warnings?", "warns?", "warned", "warning", "alerts?", "alerted", "alerting",
        "notifies?", "notified", "notifications?"].map String.toList)),
      fun _ => " warn ".toList, true⟩,
    ⟨bounded (anyOf (["always", "consistently", "uniformly", "every", "each", "once", "per",
        "requires?", "required", "requiring", "follows?", "followed", "following", "cadence",
        "cycles?", "intervals?", "periods?", "operators?", "receives?", "received", "receiving",
        "with", "and", "a", "an", "the", "is", "are", "be", "must", "should", "will", "in",
        "advance", "style", "format"].map String.toList)),
      fun _ => [' '], true⟩]

def englishTokens (item : Text) : List Text := runs isSlugChar (rewrite englishPasses item)

def isCadence (tokens : List Text) : Bool :=
  tokens.contains "credential".toList && tokens.contains "rotate".toList &&
    tokens.contains "warn".toList && tokens.any fun token => "days".toList.isSuffixOf token

/-- The order of `sort()`. -/
def codeLe (a b : Text) : Prop := a.map Char.toNat ≤ b.map Char.toNat

instance : DecidableRel codeLe := fun _ _ => inferInstanceAs (Decidable (_ ≤ _))

def orderedTokens (tokens : List Text) : List Text :=
  if isCadence tokens then tokens.insertionSort codeLe else tokens

def englishTopicItemDedupKey (item : Text) : Text := (orderedTokens (englishTokens item)).flatten

end English

section Chinese

open Pattern

def writeWords : List Text := ["写".toList, "写入".toList, "包含".toList, "带上".toList, "添加".toList]

def chinesePasses : List Pass :=
  [⟨Pattern.all [.start, word "所有".toList, .many isSpace], fun _ => [], false⟩,
    ⟨.seq (anyOf ["统一".toList, "固定".toList, "一律".toList, "始终".toList]) (word "使用".toList),
      fun _ => "使用".toList, true⟩,
    ⟨word "采用".toList, fun _ => "使用".toList, true⟩,
    ⟨.seq (word "必须在?结尾处?".toList) (anyOf writeWords), fun _ => "结尾包含".toList, true⟩,
    ⟨.seq (word "在?结尾处?必须".toList) (anyOf writeWords), fun _ => "结尾包含".toList, true⟩,
    ⟨.seq (anyOf ["样式".toList, "格式".toList])
        (.ahead (.seq (.opt (.char fun c => "。.!！?？".toList.contains c)) .finish)),
      fun _ => [], false⟩,
    ⟨bounded (Pattern.all [anyOf ["always".toList, "consistently".toList, "uniformly".toList],
        plus isSpace, word "use".toList]), fun _ => "use".toList, true⟩,
    ⟨Pattern.all [.boundary, anyOf ["style".toList, "format".toList],
        .ahead (.seq (.opt (.char fun c => ".!?".toList.contains c)) .finish)],
      fun _ => [], false⟩]

/-- `replace(/[\s\p{P}\p{S}]+/gu, '')`. -/
def isSignificant (tables : TextTables) (c : Char) : Bool :=
  !(isSpace c || tables.isPunctuation c || tables.isSymbol c)

end Chinese

section Key

variable (tables : TextTables)

def topicItemDedupKey (item : Text) : Text :=
  let normalized := foldItem tables item
  if normalized.any isCjk then (rewrite chinesePasses normalized).filter (isSignificant tables)
  else englishTopicItemDedupKey normalized

def newItems (existing items : List Text) : List Text :=
  KeepFirst.keepFirst (fun item => some (topicItemDedupKey tables item))
    (existing.map (topicItemDedupKey tables)) items

end Key

section Facts

variable (tables : TextTables)

def plainTokens (normalized : Text) : List Text :=
  if normalized.any isCjk then [normalized.filter (isSignificant tables)]
  else runs isSlugChar normalized

def factTokens (item : Text) : List Text :=
  let normalized := foldItem tables item
  if normalized.any isCjk then [(rewrite chinesePasses normalized).filter (isSignificant tables)]
  else orderedTokens (englishTokens normalized)

def Unmodified (item : Text) : Prop :=
  let normalized := foldItem tables item
  ∀ pass ∈ if normalized.any isCjk then chinesePasses else englishPasses, pass.pattern.occurs normalized = false

theorem topicItemDedupKey_eq (item : Text) : topicItemDedupKey tables item = (factTokens tables item).flatten := by
  simp only [topicItemDedupKey, factTokens]
  split
  · rw [List.flatten_singleton]
  · rfl

theorem rewrite_eq_self {passes : List Pass} {s : Text}
    (h : ∀ pass ∈ passes, pass.pattern.occurs s = false) : rewrite passes s = s := by
  induction passes with
  | nil => rfl
  | cons pass passes ih =>
    have hpass : pass.apply s = s := by
      rw [Pass.apply, Pattern.replaceAll_of_not_occurs _ (h pass List.mem_cons_self),
        Pattern.replaceFirst_of_not_occurs _ (h pass List.mem_cons_self)]
      exact ite_self s
    rw [rewrite, List.foldl_cons, hpass]
    exact ih fun q hq => h q (List.mem_cons_of_mem _ hq)

theorem perm_orderedTokens (tokens : List Text) : (orderedTokens tokens).Perm tokens := by
  rw [orderedTokens]
  split
  · exact List.perm_insertionSort codeLe tokens
  · exact .rfl

theorem flatten_plainTokens (s : Text) : (plainTokens tables s).flatten =
    s.filter (if s.any isCjk then isSignificant tables else isSlugChar) := by
  rw [plainTokens]
  split
  · rw [List.flatten_singleton]
  · exact flatten_runs isSlugChar s

variable {tables} {item : Text}

theorem factTokens_of_unmodified (h : Unmodified tables item) :
    (factTokens tables item).Perm (plainTokens tables (foldItem tables item)) ∧
      (isCadence (plainTokens tables (foldItem tables item)) = false →
        factTokens tables item = plainTokens tables (foldItem tables item)) := by
  simp only [Unmodified] at h
  simp only [factTokens, plainTokens, englishTokens]
  by_cases hcjk : (foldItem tables item).any isCjk = true
  · rw [if_pos hcjk] at h
    rw [if_pos hcjk, if_pos hcjk, rewrite_eq_self h]
    exact ⟨.rfl, fun _ => rfl⟩
  · rw [if_neg hcjk] at h
    rw [if_neg hcjk, if_neg hcjk, rewrite_eq_self h]
    refine ⟨perm_orderedTokens _, fun hplain => ?_⟩
    rw [orderedTokens, hplain, if_neg Bool.false_ne_true]

theorem factTokens_of_key_eq {a b : Text} (h : topicItemDedupKey tables a = topicItemDedupKey tables b) :
    (factTokens tables a).flatten = (factTokens tables b).flatten ∧
      ((factTokens tables a).map List.length = (factTokens tables b).map List.length →
        factTokens tables a = factTokens tables b) := by
  rw [topicItemDedupKey_eq, topicItemDedupKey_eq] at h
  exact ⟨h, fun hlength => List.eq_iff_flatten_eq.mpr ⟨h, hlength⟩⟩

theorem key_stored {existing items : List Text} (hitem : item ∈ items) :
    ∃ fact, (fact ∈ existing ∨ fact ∈ newItems tables existing items) ∧
      topicItemDedupKey tables fact = topicItemDedupKey tables item := by
  have hkey := @KeepFirst.mem_keys_keepFirst _ _ _
    (fun item => some (topicItemDedupKey tables item)) (existing.map (topicItemDedupKey tables)) item
    items _ hitem rfl
  obtain hkey | hkey := hkey
  · obtain ⟨fact, hfact, heq⟩ := List.mem_map.mp hkey
    exact ⟨fact, .inl hfact, heq⟩
  · obtain ⟨fact, hfact, heq⟩ := List.mem_filterMap.mp hkey
    exact ⟨fact, .inr hfact, Option.some_inj.mp heq⟩

def asciiTables : TextTables where
  toLowerCase s := s.map Char.toLower
  normalizeNFKC s := s
  isPunctuation c := "!\"#%&'()*,-./:;?@[\\]_{}".toList.contains c
  isSymbol c := "$+<=>^`|~".toList.contains c

end Facts

end A2Wave.MemoryTopics
