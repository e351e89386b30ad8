import A2Wave.Lib.Lines
import A2Wave.Lib.TextSearch
import A2Wave.Memory.Topics

/-! The main file `MEMORY.md`: the summary between its markers, and the catalogue of topics. -/

namespace A2Wave.MemoryTopics

open JsText TextSearch

def MEMORY_MAIN_SUMMARY_HARD_TOKENS : Nat := 500
def MEMORY_MAIN_CATALOG_HARD_TOKENS : Nat := 700
def MEMORY_MAIN_HARD_TOKENS : Nat := 1400

def TOPIC_CATALOG_START : Text := "<!-- a2wave-topic-catalog:start -->".toList
def TOPIC_CATALOG_END : Text := "<!-- a2wave-topic-catalog:end -->".toList
def summaryHeading : Text := "## Agent Summary".toList
def noSummary : Text := "- No cross-topic startup facts have been recorded.".toList

section Extract

def summaryEnd : Text := '\n' :: TOPIC_CATALOG_START

/-- What can follow `\s*\n` at the head of a text, the longest match first. -/
def afterNewlines : Text → List Text
  | [] => []
  | c :: s => if isSpace c then afterNewlines s ++ (if c = '\n' then [s] else []) else []

def summaryAfter (text : Text) : Option Text := (afterNewlines text).findSome? (before? summaryEnd)

def summaryMatch : Text → Option Text
  | [] => none
  | c :: s =>
    if summaryHeading <+: c :: s then
      match summaryAfter ((c :: s).drop summaryHeading.length) with
      | some summary => some summary
      | none => summaryMatch s
    else summaryMatch s

def extractAgentSummary (main : Text) : Text := ((summaryMatch main).map trim).getD []

end Extract

section Render

variable (rt : Runtime)

def quoted (text : Text) : Text := '`' :: (text ++ ['`'])

def catalogLines (topic : MemoryTopicRecord) : List Text :=
  ["- ".toList ++ quoted topic.topicId ++ " **".toList ++ topic.title ++ "** — ".toList ++ topic.description,
    "  Keywords: ".toList ++ ", ".toList.intercalate (topic.keywords.map quoted)]

def topicLines (topics : List MemoryTopicRecord) : List Text :=
  ((topics.filter (·.status = .active)).insertionSort fun a b =>
    rt.localeLe a.title b.title).flatMap catalogLines

def catalogText (topics : List MemoryTopicRecord) : Text :=
  joinLines (["## Topic Catalog".toList, []] ++
    (if topicLines rt topics = [] then ["- No active topics.".toList] else topicLines rt topics))

def renderCatalog (topics : List MemoryTopicRecord) : Except MemoryTopicError Text := do
  ensure (estimateMemoryTokens (catalogText rt topics) ≤ MEMORY_MAIN_CATALOG_HARD_TOKENS)
    ⟨"MEMORY_CATALOG_LIMIT", "Topic catalog exceeds its hard limit"⟩
  return catalogText rt topics

def DISCLOSURE_GUIDE : Text := joinLines ["## Disclosure Guide".toList, [],
  "- Read the closest matching topic before searching historical logs.".toList,
  "- Read at most one topic first; read a second only for a concrete cross-topic dependency.".toList,
  "- Search daily or weekly logs only when topic knowledge is insufficient or exact evidence is needed.".toList]

def mainLines (normalizedSummary catalog : Text) : List Text :=
  ["# Agent Memory".toList, [], summaryHeading, [],
    if normalizedSummary = [] then noSummary else normalizedSummary, [],
    TOPIC_CATALOG_START, catalog, TOPIC_CATALOG_END, [], DISCLOSURE_GUIDE, []]

def renderMemoryMain (summary : Text) (topics : List MemoryTopicRecord) : Except MemoryTopicError Text := do
  let normalizedSummary := trim summary
  ensure (estimateMemoryTokens normalizedSummary ≤ MEMORY_MAIN_SUMMARY_HARD_TOKENS)
    ⟨"MEMORY_SUMMARY_LIMIT", "Agent Summary exceeds its hard limit"⟩
  let catalog ← renderCatalog rt topics
  let rendered := joinLines (mainLines normalizedSummary catalog)
  ensure (estimateMemoryTokens rendered ≤ MEMORY_MAIN_HARD_TOKENS)
    ⟨"MEMORY_MAIN_LIMIT", "MEMORY.md exceeds its hard limit"⟩
  return rendered

end Render

section Summary

def mainHead : Text := "# Agent Memory\n\n".toList

def shownSummary (normalizedSummary : Text) : Text :=
  if normalizedSummary = [] then noSummary else normalizedSummary

def mainTail (catalog : Text) : Text :=
  '\n' :: joinLines [catalog, TOPIC_CATALOG_END, [], DISCLOSURE_GUIDE, []]

theorem joinLines_mainLines (summary catalog : Text) :
    joinLines (mainLines summary catalog) = mainHead ++ (summaryHeading ++ '\n' :: '\n' ::
      (shownSummary summary ++ '\n' :: (summaryEnd ++ mainTail catalog))) := rfl

theorem summaryMatch_of_not_isPrefix {c : Char} {s : Text} (h : ¬summaryHeading <+: c :: s) :
    summaryMatch (c :: s) = summaryMatch s := by
  rw [summaryMatch, if_neg h]

theorem summaryHeading_eq : summaryHeading = '#' :: '#' :: " Agent Summary".toList := rfl

theorem summaryMatch_append {l : Text} (hl : '#' ∉ l) (t : Text) : summaryMatch (l ++ t) = summaryMatch t := by
  induction l with
  | nil => rfl
  | cons c l ih =>
    rw [List.mem_cons, not_or] at hl
    rw [List.cons_append, summaryMatch_of_not_isPrefix, ih hl.2]
    intro h
    rw [summaryHeading_eq] at h
    exact hl.1 (List.cons_prefix_cons.mp h).1

theorem summaryMatch_mainHead (t : Text) : summaryMatch (mainHead ++ t) = summaryMatch t := by
  have hrest : mainHead ++ t = '#' :: (" Agent Memory\n\n".toList ++ t) := rfl
  rw [hrest, summaryMatch_of_not_isPrefix, summaryMatch_append (by decide)]
  intro h
  rw [summaryHeading_eq] at h
  have hsecond := (List.cons_prefix_cons.mp (List.cons_prefix_cons.mp h).2).1
  exact absurd hsecond (by decide)

theorem summaryMatch_heading {t a : Text} (h : summaryAfter t = some a) :
    summaryMatch (summaryHeading ++ t) = some a := by
  have hdrop : (summaryHeading ++ t).drop summaryHeading.length = t := List.drop_left
  have hpre : summaryHeading <+: summaryHeading ++ t := List.prefix_append _ _
  obtain ⟨c, s, hs⟩ : ∃ c s, summaryHeading ++ t = c :: s := ⟨'#', _, rfl⟩
  rw [hs] at hdrop hpre ⊢
  rw [summaryMatch, if_pos hpre, hdrop, h]

theorem afterNewlines_of_head? {t : Text} (ht : ∀ c ∈ t.head?, isSpace c = false) : afterNewlines t = [] := by
  cases t with
  | nil => rfl
  | cons c t => rw [afterNewlines, ht c rfl, if_neg Bool.false_ne_true]

theorem summaryAfter_newlines {t a : Text} (ht : ∀ c ∈ t.head?, isSpace c = false)
    (h : before? summaryEnd t = some a) : summaryAfter ('\n' :: '\n' :: t) = some a := by
  have hspace : isSpace '\n' = true := by decide
  simp [summaryAfter, afterNewlines, hspace, afterNewlines_of_head? ht, h]

theorem not_mem_catalogStart : '\n' ∉ TOPIC_CATALOG_START := by decide

theorem before?_summary {s : Text} (hs : ¬summaryEnd <:+: s) (tail : Text) :
    before? summaryEnd (s ++ '\n' :: (summaryEnd ++ tail)) = some (s ++ ['\n']) := by
  have hnext : before? summaryEnd ('\n' :: (summaryEnd ++ tail)) = some ['\n'] := by
    rw [before?_cons_of_not_isPrefix, before?_of_isPrefix (List.prefix_append _ _)]
    · rfl
    · intro h
      have hfirst := (List.cons_prefix_cons.mp (List.cons_prefix_cons.mp h).2).1
      exact absurd hfirst (by decide)
  rw [summaryEnd] at hs hnext ⊢
  rw [before?_append_cons not_mem_catalogStart hs, hnext]
  rfl

theorem shownSummary_ne_nil (s : Text) : shownSummary s ≠ [] := by
  rw [shownSummary]
  split
  next => exact List.cons_ne_nil _ _
  next h => exact h

theorem trim_shownSummary (s : Text) : trim (shownSummary (trim s)) = shownSummary (trim s) := by
  rw [shownSummary]
  split
  next => decide
  next => exact trim_trim

variable (rt : Runtime)

theorem renderMemoryMain_eq {summary main : Text} {topics : List MemoryTopicRecord}
    (h : renderMemoryMain rt summary topics = .ok main) :
    main = joinLines (mainLines (trim summary) (catalogText rt topics)) := by
  obtain ⟨_, -, h⟩ := bind_ok h
  obtain ⟨catalog, hcatalog, h⟩ := bind_ok h
  obtain ⟨_, -, hcatalog⟩ := bind_ok hcatalog
  obtain rfl := Except.ok.inj hcatalog
  obtain ⟨_, -, h⟩ := bind_ok h
  exact (Except.ok.inj h).symm

theorem extractAgentSummary_main {summary catalog a : Text}
    (h : before? summaryEnd (shownSummary (trim summary) ++ '\n' :: (summaryEnd ++ mainTail catalog)) = some a) :
    extractAgentSummary (joinLines (mainLines (trim summary) catalog)) = trim a := by
  have hhead : ∀ c ∈ (shownSummary (trim summary) ++
      '\n' :: (summaryEnd ++ mainTail catalog)).head?, isSpace c = false := by
    intro c hc
    have htrim := trim_shownSummary summary
    cases hs : shownSummary (trim summary) with
    | nil => exact absurd hs (shownSummary_ne_nil _)
    | cons d s =>
      rw [hs] at hc htrim
      obtain rfl := Option.some_inj.mp hc
      exact head?_trim d (by rw [htrim]; rfl)
  rw [joinLines_mainLines, extractAgentSummary, summaryMatch_mainHead,
    summaryMatch_heading (summaryAfter_newlines hhead h)]
  rfl

def Survives (summary : Text) : Prop := trim summary ≠ [] ∧ ¬summaryEnd <:+: trim summary

instance (summary : Text) : Decidable (Survives summary) := by
  unfold Survives
  infer_instance

theorem extractAgentSummary_of_unmarked {summary catalog : Text}
    (h : ¬summaryEnd <:+: shownSummary (trim summary)) :
    extractAgentSummary (joinLines (mainLines (trim summary) catalog)) = shownSummary (trim summary) := by
  rw [extractAgentSummary_main (before?_summary h _), trim_concat (by decide)]
  exact trim_shownSummary summary

theorem extractAgentSummary_of_infix {summary catalog : Text}
    (h : summaryEnd <:+: trim summary) :
    extractAgentSummary (joinLines (mainLines (trim summary) catalog)) ≠ trim summary := by
  have hne : trim summary ≠ [] := by
    intro hnil
    rw [hnil, List.infix_nil] at h
    exact absurd h (by decide)
  obtain ⟨a, ha⟩ := exists_before? h
  have hshown : shownSummary (trim summary) = trim summary := if_neg hne
  have hlen := (append_isPrefix_of_before? ha).length_le
  rw [List.length_append] at hlen
  rw [extractAgentSummary_main (a := a) (by rw [hshown]; exact before?_append ha _)]
  intro heq
  have htrim := length_trim_le (s := a)
  rw [heq] at htrim
  have hpos : 0 < summaryEnd.length := by decide
  omega

theorem extractAgentSummary_render {summary main : Text} {topics : List MemoryTopicRecord}
    (h : renderMemoryMain rt summary topics = .ok main) :
    extractAgentSummary main = trim summary ↔ Survives summary := by
  rw [renderMemoryMain_eq rt h]
  constructor
  · intro heq
    refine ⟨fun hnil => ?_, fun hin => extractAgentSummary_of_infix hin heq⟩
    have hshown : shownSummary (trim summary) = noSummary := if_pos hnil
    rw [extractAgentSummary_of_unmarked (by rw [hshown]; decide), hshown, hnil] at heq
    exact absurd heq (by decide)
  · rintro ⟨hne, hin⟩
    have hshown : shownSummary (trim summary) = trim summary := if_neg hne
    rw [extractAgentSummary_of_unmarked (by rw [hshown]; exact hin), hshown]

/-- `rebuildMemoryMain` once for each catalogue, the summary being read back every time. -/
def rebuilds (main : Text) : List (List MemoryTopicRecord) → Except MemoryTopicError Text
  | [] => .ok main
  | topics :: later => do
    let main ← renderMemoryMain rt (extractAgentSummary main) topics
    rebuilds main later

/-- A summary survives every rebuild exactly when there is one and it holds no end marker at the
start of a line. -/
theorem summary_survives_iff {summary main : Text} {topics : List MemoryTopicRecord}
    (h : renderMemoryMain rt summary topics = .ok main) :
    (extractAgentSummary main = trim summary ∧ ∀ later main',
      rebuilds rt main later = .ok main' → extractAgentSummary main' = trim summary) ↔
      Survives summary := by
  rw [extractAgentSummary_render rt h]
  constructor
  · exact fun hkeep => hkeep.1
  · intro hs
    refine ⟨hs, fun later => ?_⟩
    have hmain : extractAgentSummary main = trim summary :=
      (extractAgentSummary_render rt h).mpr hs
    clear h
    induction later generalizing main with
    | nil =>
      intro main' hmain'
      obtain rfl := Except.ok.inj hmain'
      exact hmain
    | cons topics later ih =>
      intro main' hmain'
      obtain ⟨next, hnext, hlater⟩ := bind_ok hmain'
      rw [hmain] at hnext
      have hs' : Survives (trim summary) := by
        rw [Survives, trim_trim]
        exact hs
      have hread := (extractAgentSummary_render rt hnext).mpr hs'
      rw [trim_trim] at hread
      exact ih hread main' hlater

section Order

theorem estimateMemoryTokens_perm {s t : Text} (h : s.Perm t) : estimateMemoryTokens s = estimateMemoryTokens t := by
  rw [estimateMemoryTokens, estimateMemoryTokens, h.countP_eq, h.countP_eq]

theorem joinLines_perm (lines : List Text) :
    (joinLines lines).Perm (lines.flatten ++ List.replicate (lines.length - 1) '\n') := by
  induction lines with
  | nil => exact .refl _
  | cons a lines ih =>
    cases lines with
    | nil => simp [joinLines]
    | cons b rest =>
      have hjoin : joinLines (a :: b :: rest) = a ++ '\n' :: joinLines (b :: rest) := by
        simp [joinLines, List.intercalate_cons_cons]
      have hlen : (a :: b :: rest).length - 1 = (b :: rest).length - 1 + 1 := by simp
      rw [hjoin, hlen, List.replicate_succ, List.flatten_cons, List.append_assoc]
      refine .append_left a ?_
      exact (ih.cons '\n').trans List.perm_middle.symm

theorem joinLines_perm_of_perm {lines lines' : List Text} (h : lines.Perm lines') :
    (joinLines lines).Perm (joinLines lines') := by
  refine (joinLines_perm lines).trans (.trans ?_ (joinLines_perm lines').symm)
  rw [h.length_eq]
  exact h.flatten.append_right _

variable {topics topics' : List MemoryTopicRecord}

theorem topicLines_perm (h : topics.Perm topics') : (topicLines rt topics).Perm (topicLines rt topics') := by
  refine .flatMap_right catalogLines ?_
  exact ((List.perm_insertionSort _ _).trans (h.filter _)).trans (List.perm_insertionSort _ _).symm

theorem catalogText_perm (h : topics.Perm topics') : (catalogText rt topics).Perm (catalogText rt topics') := by
  have hlines := topicLines_perm rt h
  refine joinLines_perm_of_perm (.append_left _ ?_)
  by_cases hnil : topicLines rt topics = []
  · have hnil' : topicLines rt topics' = [] := by
      rw [hnil] at hlines
      exact hlines.nil_eq.symm
    rw [if_pos hnil, if_pos hnil']
  · have hnil' : topicLines rt topics' ≠ [] := by
      intro h'
      rw [h'] at hlines
      exact hnil hlines.eq_nil
    rw [if_neg hnil, if_neg hnil']
    exact hlines

def Renders (summary : Text) (topics : List MemoryTopicRecord) : Prop :=
  ∃ main, renderMemoryMain rt summary topics = .ok main

theorem renders_iff {summary : Text} {topics : List MemoryTopicRecord} : Renders rt summary topics ↔
      estimateMemoryTokens (trim summary) ≤ MEMORY_MAIN_SUMMARY_HARD_TOKENS ∧
      estimateMemoryTokens (catalogText rt topics) ≤ MEMORY_MAIN_CATALOG_HARD_TOKENS ∧
      estimateMemoryTokens (joinLines (mainLines (trim summary) (catalogText rt topics))) ≤
        MEMORY_MAIN_HARD_TOKENS := by
  constructor
  · rintro ⟨main, h⟩
    obtain ⟨_, hsummary, h⟩ := bind_ok h
    obtain ⟨catalog, hcatalog, h⟩ := bind_ok h
    obtain ⟨_, htokens, hcatalog⟩ := bind_ok hcatalog
    obtain rfl := Except.ok.inj hcatalog
    obtain ⟨_, hmain, h⟩ := bind_ok h
    exact ⟨of_ensure hsummary, of_ensure htokens, of_ensure hmain⟩
  · rintro ⟨hsummary, htokens, hmain⟩
    refine ⟨joinLines (mainLines (trim summary) (catalogText rt topics)), ?_⟩
    unfold renderMemoryMain renderCatalog
    simp only [bind, ensure_of hsummary, ensure_of htokens, Except.bind, pure, Except.pure, ensure_of hmain]

theorem mainLines_perm {summary catalog catalog' : Text} (h : catalog.Perm catalog') :
    (joinLines (mainLines summary catalog)).Perm (joinLines (mainLines summary catalog')) := by
  rw [joinLines_mainLines, joinLines_mainLines]
  refine .append_left _ (.append_left _ (.cons _ (.cons _ (.append_left _ (.cons _
    (.append_left _ (.cons _ ?_)))))))
  exact h.append_right ('\n' :: joinLines [TOPIC_CATALOG_END, [], DISCLOSURE_GUIDE, []])

theorem renders_perm {summary : Text}
    (h : topics.Perm topics') : Renders rt summary topics ↔ Renders rt summary topics' := by
  have hcatalog := catalogText_perm rt h
  rw [renders_iff, renders_iff, estimateMemoryTokens_perm hcatalog,
    estimateMemoryTokens_perm (mainLines_perm hcatalog)]

theorem not_summaryEnd_summaryMatch {main a : Text} (h : summaryMatch main = some a) : ¬summaryEnd <:+: a := by
  induction main with
  | nil => cases h
  | cons c main ih =>
    rw [summaryMatch] at h
    split at h
    next =>
      split at h
      next summary hafter =>
        obtain rfl := Option.some_inj.mp h
        obtain ⟨t, -, hbefore⟩ := List.exists_of_findSome?_eq_some hafter
        exact not_isInfix_of_before? (List.cons_ne_nil _ _) hbefore
      next => exact ih h
    next => exact ih h

theorem trim_isInfix (s : Text) : trim s <:+: s :=
  trimEnd_prefix.isInfix.trans (List.dropWhile_suffix isSpace).isInfix

theorem not_summaryEnd_extract (main : Text) : ¬summaryEnd <:+: trim (extractAgentSummary main) := by
  rw [extractAgentSummary]
  cases h : summaryMatch main with
  | none => decide
  | some a =>
    intro hin
    refine not_summaryEnd_summaryMatch h (hin.trans ?_)
    exact (trim_isInfix _).trans (trim_isInfix a)

theorem renders_shownSummary {summary : Text} {topics : List MemoryTopicRecord} :
    Renders rt (shownSummary (trim summary)) topics ↔ Renders rt summary topics := by
  rw [renders_iff, renders_iff, trim_shownSummary]
  by_cases hnil : trim summary = []
  · have hshown : shownSummary (trim summary) = noSummary := if_pos hnil
    have hmain : mainLines noSummary (catalogText rt topics) = mainLines [] (catalogText rt topics) := rfl
    rw [hshown, hnil, hmain]
    exact and_congr_left fun _ => iff_of_true (by decide) (by decide)
  · have hshown : shownSummary (trim summary) = trim summary := if_neg hnil
    rw [hshown]

theorem renders_extract {summary main : Text} {topics later : List MemoryTopicRecord}
    (hsummary : ¬summaryEnd <:+: trim summary)
    (h : renderMemoryMain rt summary topics = .ok main) :
    Renders rt (extractAgentSummary main) later ↔ Renders rt summary later := by
  have hshown : ¬summaryEnd <:+: shownSummary (trim summary) := by
    rw [shownSummary]
    split
    next => decide
    next => exact hsummary
  rw [renderMemoryMain_eq rt h, extractAgentSummary_of_unmarked hshown, renders_shownSummary]

end Order

def oneFact : Text := "- Prefer the worktree of the run.".toList

theorem oneFact_survives : (extractAgentSummary (joinLines (mainLines oneFact (catalogText plainRuntime []))) =
        trim oneFact ∧
      ∀ later main', rebuilds plainRuntime
          (joinLines (mainLines oneFact (catalogText plainRuntime []))) later = .ok main' →
        extractAgentSummary main' = trim oneFact) ↔ Survives oneFact :=
  summary_survives_iff plainRuntime
    (show renderMemoryMain plainRuntime oneFact [] = _ by decide +kernel)

theorem trim_nil : trim [] = [] := rfl

theorem emptySummary_replaced : ∃ main, renderMemoryMain plainRuntime [] [] = .ok main ∧
    extractAgentSummary main = noSummary ∧ extractAgentSummary main ≠ trim [] := by
  obtain ⟨main, hmain⟩ : Renders plainRuntime [] [] :=
    (renders_iff plainRuntime).mpr (by decide +kernel)
  have hread : extractAgentSummary main = noSummary := by
    rw [renderMemoryMain_eq plainRuntime hmain, extractAgentSummary_of_unmarked (by decide)]
    rfl
  exact ⟨main, hmain, hread, by rw [hread, trim_nil]; exact List.cons_ne_nil _ _⟩

end Summary

end A2Wave.MemoryTopics
