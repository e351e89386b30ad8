import A2Wave.Memory.TopicBody

/-! What becomes of the lines of a body, and of the items, when items are added. -/

namespace A2Wave.MemoryTopics

open JsText TextSearch

section Items

theorem space_of_mem_collapse {c : Char} {inRun : Bool} {s : Text} (h : c ∈ collapseFrom inRun s)
    (hc : isSpace c = true) : c = ' ' := by
  induction s generalizing inRun with
  | nil => cases h
  | cons d s ih =>
    rw [collapseFrom] at h
    split at h
    next =>
      split at h
      next => exact ih h
      next =>
        obtain rfl | h := List.mem_cons.mp h
        · rfl
        · exact ih h
    next hd =>
      obtain rfl | h := List.mem_cons.mp h
      · exact absurd hc hd
      · exact ih h

theorem trim_dropMarker (s : Text) : trim (dropMarker (trim s)) = dropMarker (trim s) := by
  rw [dropMarker]
  split
  · apply trim_eq_self
    · intro c hc
      exact head?_trimStart c hc
    · intro c hc
      have hsuffix : (((trim s).drop 1).dropWhile isSpace) <:+ trim s :=
        (List.dropWhile_suffix isSpace).trans (List.drop_suffix 1 _)
      obtain ⟨t, ht⟩ := hsuffix
      have hlast : c ∈ (trim s).getLast? := by
        rw [← ht, List.getLast?_append, Option.mem_def.mp hc]
        rfl
      exact getLast?_trim c hlast
  · exact trim_trim

theorem trim_normalizeItem (item : Text) : trim (normalizeItem item) = normalizeItem item := by
  rw [normalizeItem, ← trim_dropMarker, trim_collapse_trim]

theorem newline_not_mem_normalizeItem (item : Text) : '\n' ∉ normalizeItem item := by
  intro h
  cases space_of_mem_collapse h (by decide)

theorem of_mem_normalizedItems {items : List Text} {item : Text} (h : item ∈ normalizedItems items) :
    trim item = item ∧ '\n' ∉ item ∧ item ≠ [] := by
  obtain ⟨hmem, hne⟩ := List.mem_filter.mp h
  obtain ⟨raw, -, rfl⟩ := List.mem_map.mp hmem
  exact ⟨trim_normalizeItem raw, newline_not_mem_normalizeItem raw, by simpa using hne⟩

theorem trim_itemLine {item : Text} (htrim : trim item = item) (hne : item ≠ []) :
    trim (itemLine item) = itemLine item := by
  apply trim_eq_self
  · intro c hc
    obtain rfl := Option.some_inj.mp hc
    decide
  · intro c hc
    rw [itemLine, List.getLast?_cons_cons, List.getLast?_cons_of_ne_nil hne] at hc
    rw [← htrim] at hc
    exact getLast?_trim c hc

theorem lineTexts_itemLines {new items : List Text} (h : new.Sublist (normalizedItems items)) :
    lineTexts (joinLines (new.map itemLine)) = new.map itemLine := by
  have hnew : ∀ line ∈ new.map itemLine, trim line = line ∧ line ≠ [] ∧ '\n' ∉ line := by
    intro line hline
    obtain ⟨item, hitem, rfl⟩ := List.mem_map.mp hline
    obtain ⟨htrim, hnewline, hne⟩ := of_mem_normalizedItems (h.subset hitem)
    refine ⟨trim_itemLine htrim hne, List.cons_ne_nil _ _, ?_⟩
    simpa [itemLine] using hnewline
  rw [lineTexts_joinLines fun line hline => (hnew line hline).2.2]
  exact texts_eq_self fun line hline => ⟨(hnew line hline).1, (hnew line hline).2.1⟩

end Items

section Base

variable {tables : TextTables}

structure Deduplicated (tables : TextTables) (text base : Text) : Prop where
  sublist : (splitLines base).Sublist (splitLines text)
  others : ∀ line ∈ splitLines text, lineKey tables line = none → line ∈ splitLines base
  keys : ∀ line ∈ splitLines text, ∀ key, lineKey tables line = some key →
    key ∈ (splitLines base).filterMap (lineKey tables)
  nodup : ((splitLines base).filterMap (lineKey tables)).Nodup

theorem splitLines_deduplicateTopicBody (body : Text) :
    splitLines (deduplicateTopicBody tables body) = KeepFirst.keepFirst (lineKey tables) [] (splitLines body) := by
  have hsublist := @KeepFirst.keepFirst_sublist _ _ _ (lineKey tables) [] (splitLines body)
  exact splitLines_joinLines (KeepFirst.keepFirst_ne_nil (List.splitOn_ne_nil _ _))
    fun line hline => newline_not_mem_splitLines (hsublist.subset hline)

theorem deduplicated (tables : TextTables) (text : Text) :
    Deduplicated tables text (deduplicateTopicBody tables text) := by
  have hlines := @splitLines_deduplicateTopicBody tables text
  constructor
  · rw [hlines]
    exact KeepFirst.keepFirst_sublist [] _
  · intro line hline hkey
    rw [hlines]
    exact KeepFirst.mem_keepFirst_of_none hline hkey
  · intro line hline key hkey
    rw [hlines]
    exact (KeepFirst.mem_keys_keepFirst hline hkey).resolve_left List.not_mem_nil
  · rw [hlines]
    exact (KeepFirst.keys_keepFirst [] _).1

theorem topicItemDedupKey_congr {a b : Text} (h : normalizeItem a = normalizeItem b) :
    topicItemDedupKey tables a = topicItemDedupKey tables b := by
  have hfold : foldItem tables a = foldItem tables b := by rw [foldItem, foldItem, h]
  rw [topicItemDedupKey, topicItemDedupKey, hfold]

theorem lineKey_trim (line : Text) : lineKey tables (trim line) = lineKey tables line := by
  have hkey : topicItemDedupKey tables (trim line) = topicItemDedupKey tables line :=
    topicItemDedupKey_congr (by rw [normalizeItem, normalizeItem, trim_trim])
  rw [lineKey, lineKey, trim_trim, hkey]

theorem lineKey_of_blank {line : Text} (h : trim line = []) : lineKey tables line = none := by
  rw [lineKey, h]
  rfl

theorem keys_texts (lines : List Text) :
    (texts lines).filterMap (lineKey tables) = lines.filterMap (lineKey tables) := by
  induction lines with
  | nil => rfl
  | cons line lines ih =>
    rw [texts] at ih
    rw [texts, List.map_cons]
    by_cases hblank : trim line = []
    · rw [List.filter_cons_of_neg (by simpa using hblank), ih, List.filterMap_cons_none (lineKey_of_blank hblank)]
    · rw [List.filter_cons_of_pos (by simpa using hblank), List.filterMap_cons, lineKey_trim, ih, List.filterMap_cons]

theorem keys_lineTexts (body : Text) :
    (splitLines body).filterMap (lineKey tables) = (lineTexts body).filterMap (lineKey tables) :=
  (keys_texts _).symm

theorem keys_itemLines (body : Text) : (itemLines body).map (topicItemDedupKey tables) =
      (splitLines body).filterMap (lineKey tables) := by
  rw [itemLines]
  induction splitLines body with
  | nil => rfl
  | cons line lines ih =>
    cases hitem : isPointer line with
    | true =>
      have hkey : lineKey tables line = some (topicItemDedupKey tables line) := if_pos hitem
      rw [List.filter_cons_of_pos hitem, List.map_cons, ih, List.filterMap_cons_some hkey]
    | false =>
      have hkey : lineKey tables line = none := if_neg (by
        rw [isPointer] at hitem
        rw [hitem]
        exact Bool.false_ne_true)
      rw [List.filter_cons_of_neg (by simp [hitem]), ih, List.filterMap_cons_none hkey]

theorem deduplicateTopicBody_eq_self {body : Text}
    (h : ((splitLines body).filterMap (lineKey tables)).Nodup) :
    deduplicateTopicBody tables body = body := by
  rw [deduplicateTopicBody, KeepFirst.keepFirst_eq_self h fun _ _ => List.not_mem_nil]
  exact joinLines_splitLines

end Base

section New

variable {tables : TextTables}

structure NewItems (tables : TextTables) (base : Text) (items new : List Text) : Prop where
  sublist : new.Sublist (normalizedItems items)
  stored : ∀ item ∈ normalizedItems items,
    topicItemDedupKey tables item ∈ (itemLines base).map (topicItemDedupKey tables) ∨
      topicItemDedupKey tables item ∈ new.map (topicItemDedupKey tables)
  nodup : (new.map (topicItemDedupKey tables)).Nodup
  fresh : ∀ item ∈ new, topicItemDedupKey tables item ∉ (itemLines base).map (topicItemDedupKey tables)

theorem filterMap_some {α β : Type} (f : α → β) (xs : List α) : xs.filterMap (fun x => some (f x)) = xs.map f := by
  rw [List.filterMap_eq_map']

theorem newItems_additions (tables : TextTables) (base : Text) (items : List Text) :
    NewItems tables base items (additions tables base items) := by
  have hkeys := @KeepFirst.keys_keepFirst _ _ _ (fun item => some (topicItemDedupKey tables item))
    ((itemLines base).map (topicItemDedupKey tables)) (normalizedItems items)
  rw [filterMap_some] at hkeys
  refine ⟨KeepFirst.keepFirst_sublist _ _, ?_, hkeys.1, ?_⟩
  · intro item hitem
    have hstored := @KeepFirst.mem_keys_keepFirst _ _ _
      (fun item => some (topicItemDedupKey tables item))
      ((itemLines base).map (topicItemDedupKey tables)) item _ _ hitem rfl
    rw [filterMap_some] at hstored
    exact hstored
  · intro item hitem
    exact hkeys.2 _ (List.mem_map_of_mem hitem)

theorem key_itemLine {item : Text} (htrim : trim item = item) (hne : item ≠ [])
    (hmark : isListItem item = false) :
    topicItemDedupKey tables (itemLine item) = topicItemDedupKey tables item := by
  have hline : normalizeItem (itemLine item) = normalizeItem item := by
    cases item with
    | nil => exact absurd rfl hne
    | cons c item =>
      have hc : isSpace c = false := head?_trim c (by rw [htrim]; rfl)
      have hdropped : dropMarker (itemLine (c :: item)) = c :: item := by
        have hmarked : isListItem (itemLine (c :: item)) = true := rfl
        rw [dropMarker, if_pos hmarked]
        show (' ' :: c :: item).dropWhile isSpace = c :: item
        rw [List.dropWhile_cons_of_pos (by decide), List.dropWhile_cons_of_neg (by simp [hc])]
      rw [normalizeItem, normalizeItem, trim_itemLine htrim hne, hdropped, htrim, dropMarker, hmark,
        if_neg Bool.false_ne_true]
  exact topicItemDedupKey_congr hline

end New

section Insert

variable {base heading : Text} {lines : List Text}

def HeadsLine (heading base : Text) : Prop :=
  ∃ start rest, before? heading base = some start ∧ base = start ++ (heading ++ rest) ∧
    (∀ c ∈ start.getLast?, c = '\n') ∧ ∀ c ∈ rest.head?, c = '\n'

structure Placed (base heading : Text) (front back : List Text) : Prop where
  lines : splitLines base = front ++ back
  inSection : ∃ before sectionLines, front = before ++ heading :: sectionLines ∧
    ∀ line ∈ sectionLines, ¬"## ".toList <+: line
  next : ∀ line ∈ back.head?, "## ".toList <+: line

/-- `lines` are inserted: at the end of the section, or with its heading at the end. -/
structure Inserted (base heading : Text) (lines : List Text) (inserted : Text) : Prop where
  kept : ∃ front mark back, lineTexts base = front ++ back ∧
    lineTexts inserted = front ++ (mark ++ lines) ++ back ∧ (mark = [] ∨ mark = [heading])
  missing : ¬heading <:+: base → lineTexts inserted = lineTexts base ++ heading :: lines
  placed : HeadsLine heading base → ∃ front back, Placed base heading front back ∧
    lineTexts inserted = texts front ++ lines ++ texts back

theorem insertItems_missing (hbefore : before? heading base = none)
    (hheading : lineTexts heading = [heading]) {text : Text} (htext : lineTexts text = lines) :
    lineTexts (insertItems base heading text) = lineTexts base ++ heading :: lines := by
  rw [insertItems, hbefore]
  show lineTexts (base ++ '\n' :: '\n' :: (heading ++ '\n' :: '\n' :: text)) = _
  rw [lineTexts_newline, lineTexts_cons (by decide), lineTexts_newline, lineTexts_cons (by decide), hheading, htext]
  rfl

theorem insertItems_found {start : Text} (hbefore : before? heading base = some start) {text : Text}
    (htext : lineTexts text = lines) :
    ∃ middle back, ¬nextHeading <:+: middle ∧ (base = start ++ heading ++ middle ∧ back = [] ∨
        "## ".toList <+: back ∧ base = start ++ heading ++ middle ++ '\n' :: back) ∧
      lineTexts (insertItems base heading text) =
        lineTexts (start ++ heading ++ middle) ++ lines ++ lineTexts back := by
  obtain ⟨rest, hbase⟩ := append_isPrefix_of_before? hbefore
  have hdrop : base.drop (start.length + heading.length) = rest := by
    rw [← hbase, ← List.length_append, List.drop_left]
  rw [insertItems, hbefore]
  simp only [hdrop]
  cases hnext : before? nextHeading rest with
  | none =>
    have hfree : ¬nextHeading <:+: rest := by
      intro hin
      obtain ⟨a, ha⟩ := exists_before? hin
      rw [hnext] at ha
      cases ha
    refine ⟨rest, [], hfree, .inl ⟨hbase.symm, rfl⟩, ?_⟩
    rw [hbase]
    show lineTexts (base ++ '\n' :: ((if base.getLast? = some '\n' then [] else ['\n']) ++ text)) = _
    rw [lineTexts_newline]
    split
    · rw [List.nil_append, htext, lineTexts_nil, List.append_nil]
    · rw [List.singleton_append, lineTexts_cons (by decide), htext, lineTexts_nil, List.append_nil]
  | some middle =>
    obtain ⟨tail, hrest⟩ := append_isPrefix_of_before? hnext
    have hdrop' : rest.drop middle.length = nextHeading ++ tail := by
      rw [← hrest, List.append_assoc, List.drop_left]
    refine ⟨middle, "## ".toList ++ tail, not_isInfix_of_before? (List.cons_ne_nil _ _) hnext,
      .inr ⟨List.prefix_append _ _, ?_⟩, ?_⟩
    · rw [← hbase, ← hrest]
      simp [nextHeading]
    · simp only [hdrop']
      rw [lineTexts_newline, lineTexts_trimEnd, lineTexts_newline, htext]
      rw [show nextHeading ++ tail = '\n' :: ("## ".toList ++ tail) from rfl, lineTexts_cons (by decide)]
      simp only [List.append_assoc]

theorem isPrefix_head?_splitLines {p s : Text} (hp : '\n' ∉ p) (h : p <+: s) :
    ∀ line ∈ (splitLines s).head?, p <+: line := by
  intro line hline
  by_cases hmem : '\n' ∈ s
  · obtain ⟨first, rest, rfl, hfirst⟩ := List.eq_append_cons_of_mem hmem
    rw [splitLines_newline, splitLines_line hfirst] at hline
    obtain rfl := Option.some_inj.mp hline
    exact isPrefix_of_not_mem hp h
  · rw [splitLines_line hmem] at hline
    obtain rfl := Option.some_inj.mp hline
    exact h

theorem splitLines_heading {start middle : Text} (hheading : '\n' ∉ heading)
    (hstart : ∀ c ∈ start.getLast?, c = '\n') (hmiddle : ∀ c ∈ middle.head?, c = '\n') :
    ∃ before sectionLines,
      splitLines (start ++ heading ++ middle) = before ++ heading :: sectionLines ∧
      ∀ line ∈ sectionLines, '\n' :: line <:+: middle := by
  have hrest : ∃ sectionLines, splitLines (heading ++ middle) = heading :: sectionLines ∧
      ∀ line ∈ sectionLines, '\n' :: line <:+: middle := by
    cases middle with
    | nil =>
      rw [List.append_nil, splitLines_line hheading]
      exact ⟨[], rfl, fun _ h => nomatch h⟩
    | cons c middle =>
      obtain rfl := hmiddle c rfl
      rw [splitLines_newline, splitLines_line hheading]
      refine ⟨splitLines middle, rfl, fun line hline => ?_⟩
      have hin := newline_line_isInfix hline
      rw [joinLines_splitLines] at hin
      exact hin
  obtain ⟨sectionLines, hlines, hin⟩ := hrest
  obtain rfl | ⟨start, c, rfl⟩ := List.eq_nil_or_concat' start
  · exact ⟨[], sectionLines, hlines, hin⟩
  · obtain rfl := hstart c (by rw [List.getLast?_concat]; rfl)
    refine ⟨splitLines start, sectionLines, ?_, hin⟩
    rw [List.append_assoc, List.append_assoc, List.singleton_append, splitLines_newline, hlines]

theorem inserted_insertItems (hheading : lineTexts heading = [heading]) (hnewline : '\n' ∉ heading)
    {text : Text} (htext : lineTexts text = lines) :
    Inserted base heading lines (insertItems base heading text) := by
  refine ⟨?_, fun hmissing => ?_, ?_⟩
  · cases hbefore : before? heading base with
    | none =>
      refine ⟨lineTexts base, [heading], [], (List.append_nil _).symm, ?_, .inr rfl⟩
      rw [insertItems_missing hbefore hheading htext, List.append_nil]
      rfl
    | some start =>
      obtain ⟨middle, back, -, hbase, hinserted⟩ := insertItems_found hbefore htext
      refine ⟨lineTexts (start ++ heading ++ middle), [], lineTexts back, ?_, hinserted, .inl rfl⟩
      obtain ⟨rfl, rfl⟩ | ⟨-, rfl⟩ := hbase
      · rw [lineTexts_nil, List.append_nil]
      · exact lineTexts_newline
  · exact insertItems_missing (before?_eq_none hmissing) hheading htext
  · rintro ⟨start, rest, hbefore, hline, hstart, hrest⟩
    obtain ⟨middle, back, hfree, hbase, hinserted⟩ := insertItems_found hbefore htext
    have hfree' : ∀ line, '\n' :: line <:+: middle → ¬"## ".toList <+: line := by
      intro line hin hnext
      exact hfree ((List.cons_prefix_cons.mpr ⟨rfl, hnext⟩).isInfix.trans hin)
    obtain ⟨rfl, rfl⟩ | ⟨hback, hsplit⟩ := hbase
    · rw [List.append_assoc, List.append_cancel_left_eq, List.append_cancel_left_eq] at hline
      subst hline
      obtain ⟨before, sectionLines, hlines, hin⟩ := splitLines_heading hnewline hstart hrest
      refine ⟨splitLines (start ++ heading ++ middle), [], ⟨(List.append_nil _).symm,
        ⟨before, sectionLines, hlines, fun line hmem => hfree' line (hin line hmem)⟩,
        fun _ h => nomatch h⟩, ?_⟩
      rw [hinserted]
      rfl
    · rw [hsplit, List.append_assoc, List.append_assoc, List.append_cancel_left_eq,
        List.append_cancel_left_eq] at hline
      have hmiddle : ∀ c ∈ middle.head?, c = '\n' := by
        intro c hc
        refine hrest c ?_
        rw [← hline, List.head?_append, Option.mem_def.mp hc]
        rfl
      obtain ⟨before, sectionLines, hlines, hin⟩ := splitLines_heading hnewline hstart hmiddle
      refine ⟨splitLines (start ++ heading ++ middle), splitLines back, ⟨?_, ⟨before, sectionLines,
        hlines, fun line hmem => hfree' line (hin line hmem)⟩,
        isPrefix_head?_splitLines (by decide) hback⟩, hinserted⟩
      rw [hsplit, splitLines_newline]

end Insert

section Limit

structure Limited (inserted topicSection result : Text) : Prop where
  other : topicSection ≠ "Evidence Pointers".toList → result = inserted
  within : ∀ start sectionLines rest, evidenceParts (splitLines inserted) = some (start, sectionLines, rest) →
    (sectionLines.filter isPointer).length ≤ MEMORY_TOPIC_EVIDENCE_POINTER_LIMIT → result = inserted
  newest : ∀ start sectionLines rest, evidenceParts (splitLines inserted) = some (start, sectionLines, rest) →
    topicSection = "Evidence Pointers".toList →
    MEMORY_TOPIC_EVIDENCE_POINTER_LIMIT < (sectionLines.filter isPointer).length →
    ∃ retained, splitLines result = start ++ [] :: retained ++ rest ∧
      retained.length = MEMORY_TOPIC_EVIDENCE_POINTER_LIMIT ∧
      retained <:+ sectionLines.filter isPointer

theorem append_evidenceParts {lines start sectionLines rest : List Text}
    (h : evidenceParts lines = some (start, sectionLines, rest)) :
    start ++ sectionLines ++ rest = lines ∧ start ≠ [] := by
  unfold evidenceParts at h
  split at h
  next => cases h
  next heading others hdrop =>
    simp only [Option.some.injEq, Prod.mk.injEq] at h
    obtain ⟨rfl, rfl, rfl⟩ := h
    refine ⟨?_, List.append_ne_nil_of_right_ne_nil _ (List.cons_ne_nil _ _)⟩
    rw [List.append_assoc, List.takeWhile_append_dropWhile, List.append_assoc, List.singleton_append,
      ← hdrop, List.takeWhile_append_dropWhile]

theorem limited (inserted topicSection : Text) :
    Limited inserted topicSection (limitEvidencePointers inserted topicSection) := by
  constructor
  · intro hother
    rw [limitEvidencePointers, if_pos hother]
  · intro start sectionLines rest hparts hwithin
    rw [limitEvidencePointers]
    split
    · rfl
    · rw [hparts]
      exact if_pos hwithin
  · intro start sectionLines rest hparts hsection hover
    refine ⟨(sectionLines.filter isPointer).drop
      ((sectionLines.filter isPointer).length - MEMORY_TOPIC_EVIDENCE_POINTER_LIMIT), ?_, ?_,
      List.drop_suffix _ _⟩
    · rw [limitEvidencePointers, if_neg (not_not_intro hsection), hparts]
      simp only [if_neg (Nat.not_le.mpr hover)]
      obtain ⟨hlines, -⟩ := append_evidenceParts hparts
      refine splitLines_joinLines (by simp) fun line hline => ?_
      have hmem : ∀ line ∈ start ++ sectionLines ++ rest, '\n' ∉ line := by
        rw [hlines]
        exact fun _ => newline_not_mem_splitLines
      obtain hline | hline := List.mem_append.mp hline
      · obtain hline | hline := List.mem_append.mp hline
        · exact hmem line (List.mem_append_left _ (List.mem_append_left _ hline))
        · obtain rfl | hline := List.mem_cons.mp hline
          · exact List.not_mem_nil
          · refine hmem line (List.mem_append_left _ (List.mem_append_right _ ?_))
            exact (List.mem_filter.mp ((List.drop_suffix _ _).subset hline)).1
      · exact hmem line (List.mem_append_right _ hline)
    · rw [List.length_drop]
      omega

end Limit

section Add

def bodyText (title : Text) (body : Option Text) : Text :=
  if trim (body.getD []) = [] then titleLine title else trim (body.getD [])

structure Adds (tables : TextTables) (title : Text) (body : Option Text) (topicSection : Text)
    (items : List Text) (base : Text) (new : List Text) (result : Text) : Prop where
  deduplicated : Deduplicated tables (bodyText title body) base
  newItems : NewItems tables base items new
  unchanged : new = [] → result = base
  inserted : new ≠ [] → ∃ inserted, Inserted base (headingLine topicSection) (new.map itemLine) inserted ∧
      Limited inserted topicSection result
  again : (∀ item ∈ normalizedItems items, isListItem item = false) →
    (new ≠ [] → Inserted base (headingLine topicSection) (new.map itemLine) result) →
    topicBodyWithItems tables title (some result) topicSection items = .ok (trim result)

variable {tables : TextTables} {title topicSection : Text} {body : Option Text} {items : List Text}

theorem topicBodyWithItems_stored (hsection : (MemoryTopicSection.ofText topicSection).isSome)
    (hitems : normalizedItems items ≠ []) {text : Text}
    (hnodup : ((lineTexts text).filterMap (lineKey tables)).Nodup)
    (hstored : ∀ item ∈ normalizedItems items,
      topicItemDedupKey tables item ∈ (lineTexts text).filterMap (lineKey tables)) :
    topicBodyWithItems tables title (some text) topicSection items = .ok (trim text) := by
  have hne : trim text ≠ [] := by
    intro hnil
    obtain ⟨item, hitem⟩ := List.exists_mem_of_ne_nil _ hitems
    have hkey := hstored item hitem
    rw [← lineTexts_trim, hnil] at hkey
    cases hkey
  have hbase : topicBase tables title (some text) = trim text := by
    simp only [topicBase, Option.getD_some]
    rw [if_neg hne]
    refine deduplicateTopicBody_eq_self ?_
    rw [keys_lineTexts, lineTexts_trim]
    exact hnodup
  have hnew : additions tables (trim text) items = [] := by
    refine KeepFirst.keepFirst_eq_nil fun item hitem => ⟨_, ?_, rfl⟩
    rw [keys_itemLines, keys_lineTexts, lineTexts_trim]
    exact hstored item hitem
  rw [topicBodyWithItems, ensure_of hsection, ensure_of hitems, hbase]
  show Except.ok (if additions tables (trim text) items = [] then trim text else _) = _
  rw [if_pos hnew]

theorem perm_keys_inserted {base inserted heading : Text} {new : List Text}
    (h : Inserted base heading (new.map itemLine) inserted) (hheading : lineKey tables heading = none)
    (hkeys : ∀ item ∈ new, lineKey tables (itemLine item) = some (topicItemDedupKey tables item)) :
    ((lineTexts inserted).filterMap (lineKey tables)).Perm
      ((lineTexts base).filterMap (lineKey tables) ++ new.map (topicItemDedupKey tables)) := by
  obtain ⟨front, mark, back, hbase, hinserted, hmark⟩ := h.kept
  have hmark' : mark.filterMap (lineKey tables) = [] := by
    obtain rfl | rfl := hmark
    · rfl
    · rw [List.filterMap_cons_none hheading]
      rfl
  have hnew : (new.map itemLine).filterMap (lineKey tables) = new.map (topicItemDedupKey tables) := by
    rw [List.filterMap_map]
    clear h hinserted
    induction new with
    | nil => rfl
    | cons item new ih =>
      have hitem : (lineKey tables ∘ itemLine) item = some (topicItemDedupKey tables item) :=
        hkeys item List.mem_cons_self
      rw [List.filterMap_cons_some hitem, ih fun i hi => hkeys i (List.mem_cons_of_mem _ hi), List.map_cons]
  rw [hinserted, hbase]
  simp only [List.filterMap_append, hmark', hnew, List.nil_append, List.append_assoc]
  exact List.perm_append_comm.append_left _

end Add

section Run

def twoSections : Text := "# t\n\n## Workflows\n\n- a\n- A\n\n## Failure Patterns".toList

def deepHeading : Text := "# t\n\n## Durable Knowledge\n\n### Workflows\n\n## Workflows".toList

theorem twoSections_b : topicBodyWithItems asciiTables ['t'] (some twoSections)
    "Workflows".toList [['b']] = .ok "# t\n\n## Workflows\n\n- a\n- b\n\n## Failure Patterns".toList := by
  decide +kernel

theorem deepHeading_c : topicBodyWithItems asciiTables ['t'] (some deepHeading)
    "Workflows".toList [['c']] = .ok "# t\n\n## Durable Knowledge\n\n### Workflows\n- c\n\n## Workflows".toList := by
  decide +kernel

end Run

end A2Wave.MemoryTopics
