import Mathlib.Data.List.Flatten
import Mathlib.Data.List.Perm.Basic
import A2Wave.Memory.Split

/-! A split keeps the lines of the topic. -/

namespace A2Wave.MemoryTopics

open JsText

section Blocks

variable {hashMemoryBlock : Text → Text}

def isContent (line : Text) : Bool :=
  !isLevelOne line && (sectionHeading line).isNone && decide (trim line ≠ [])

def contentLines (body : Text) : List Text := (splitLines (normalizeNewlines body)).filter isContent

theorem lineTexts_blockText {lines : List Text} (h : ∀ line ∈ lines, '\n' ∉ line) :
    lineTexts (blockText lines) = texts lines := by
  rw [blockText, lineTexts_trim, lineTexts_joinLines h]

theorem blockText_ne_nil {lines : List Text} {line : Text} (hmem : line ∈ lines)
    (hline : trim line ≠ []) (h : ∀ line ∈ lines, '\n' ∉ line) : blockText lines ≠ [] := by
  intro hnil
  have htexts := lineTexts_blockText h
  rw [hnil, lineTexts_nil] at htexts
  exact texts_ne_nil hmem hline htexts.symm

structure Cut (lines : List Text) (blocks : List TopicBodyBlock) (groups : List (List Text)) : Prop where
  flatten : groups.flatten = lines
  content : blocks.map (·.content) = groups.map blockText

theorem Cut.append {lines lines' : List Text} {blocks blocks' : List TopicBodyBlock}
    {groups groups' : List (List Text)} (h : Cut lines blocks groups)
    (h' : Cut lines' blocks' groups') :
    Cut (lines ++ lines') (blocks ++ blocks') (groups ++ groups') where
  flatten := by rw [List.flatten_append, h.flatten, h'.flatten]
  content := by rw [List.map_append, List.map_append, h.content, h'.content]

theorem cut_flushBlock {topicSection : MemoryTopicSection} {buffer : List Text}
    (hlines : ∀ line ∈ buffer, '\n' ∉ line ∧ trim line ≠ []) :
    ∃ groups, Cut buffer (flushBlock hashMemoryBlock topicSection buffer) groups := by
  cases buffer with
  | nil => exact ⟨[], rfl, rfl⟩
  | cons line buffer =>
    have hne : blockText (line :: buffer) ≠ [] := blockText_ne_nil List.mem_cons_self
      (hlines line List.mem_cons_self).2 fun l hl => (hlines l hl).1
    refine ⟨[line :: buffer], by rw [List.flatten_singleton], ?_⟩
    rw [flushBlock, if_neg hne]
    rfl

theorem cut_blocksFrom (lines : List Text) : ∀ topicSection buffer blocks,
    (∀ line ∈ lines, '\n' ∉ line) → (∀ line ∈ buffer, '\n' ∉ line ∧ trim line ≠ []) →
    blocksFrom hashMemoryBlock lines topicSection buffer = .ok blocks →
    ∃ groups, Cut (buffer ++ lines.filter isContent) blocks groups := by
  induction lines with
  | nil =>
    intro topicSection buffer blocks _ hbuffer h
    obtain rfl := Except.ok.inj h
    rw [List.filter_nil, List.append_nil]
    exact cut_flushBlock hbuffer
  | cons line lines ih =>
    intro topicSection buffer blocks hlines hbuffer h
    have hnewline := hlines line List.mem_cons_self
    have hrest : ∀ l ∈ lines, '\n' ∉ l := fun l hl => hlines l (List.mem_cons_of_mem _ hl)
    -- After a flush the block of the buffer stands before those of the rest.
    have hflush : ∀ {next : MemoryTopicSection} {buffer' : List Text} {b : List TopicBodyBlock},
        (∀ l ∈ buffer', '\n' ∉ l ∧ trim l ≠ []) →
        (do let blocks ← blocksFrom hashMemoryBlock lines next buffer'
            return flushBlock hashMemoryBlock topicSection buffer ++ blocks :
              Except MemoryTopicError (List TopicBodyBlock)) = .ok b →
        ∃ groups, Cut (buffer ++ (buffer' ++ lines.filter isContent)) b groups := by
      intro next buffer' b hbuffer' hb
      obtain ⟨others, hothers, hb⟩ := bind_ok hb
      obtain rfl := Except.ok.inj hb
      obtain ⟨groups, hcut⟩ := @cut_flushBlock hashMemoryBlock topicSection buffer hbuffer
      obtain ⟨groups', hcut'⟩ := ih next buffer' others hrest hbuffer' hothers
      exact ⟨groups ++ groups', hcut.append hcut'⟩
    rw [blocksFrom] at h
    split at h
    next hlevel =>
      have hdropped : isContent line = false := by simp [isContent, hlevel]
      rw [List.filter_cons_of_neg (by simp [hdropped])]
      exact ih topicSection buffer blocks hrest hbuffer h
    next hlevel =>
      split at h
      next heading hheading =>
        have hdropped : isContent line = false := by simp [isContent, hheading]
        rw [List.filter_cons_of_neg (by simp [hdropped])]
        split at h
        next => cases h
        next next _ => exact hflush (fun _ hmem => absurd hmem List.not_mem_nil) h
      next hheading =>
        split at h
        next hblank =>
          have hdropped : isContent line = false := by simp [isContent, hblank]
          rw [List.filter_cons_of_neg (by simp [hdropped])]
          exact hflush (fun _ hmem => absurd hmem List.not_mem_nil) h
        next hblank =>
          have hkept : isContent line = true := by simp [isContent, hlevel, hheading, hblank]
          rw [List.filter_cons_of_pos hkept]
          split at h
          next =>
            have hline : ∀ l ∈ [line], '\n' ∉ l ∧ trim l ≠ [] := by
              intro l hl
              obtain rfl := List.mem_singleton.mp hl
              exact ⟨hnewline, hblank⟩
            exact hflush hline h
          next =>
            have hgathered := ih topicSection (buffer ++ [line]) blocks hrest ?_ h
            · rw [List.append_assoc] at hgathered
              exact hgathered
            · intro l hl
              obtain hl | hl := List.mem_append.mp hl
              · exact hbuffer l hl
              · obtain rfl := List.mem_singleton.mp hl
                exact ⟨hnewline, hblank⟩

theorem cut_splitTopicBodyBlocks {body : Text} {blocks : List TopicBodyBlock}
    (h : splitTopicBodyBlocks hashMemoryBlock body = .ok blocks) :
    ∃ groups, Cut (contentLines body) blocks groups :=
  cut_blocksFrom _ .durableKnowledge [] blocks (fun _ => newline_not_mem_splitLines)
    (fun _ h => nomatch h) h

end Blocks

section Plan

variable {rt : Runtime} {now : Nat} {r : MemoryTopicSplitReplacement}

variable {available rest : List TopicBodyBlock}

theorem perm_takeBlock {hash : Text} {block : TopicBodyBlock}
    (h : takeBlock hash available = some (block, rest)) : (block :: rest).Perm available := by
  induction available generalizing rest with
  | nil => cases h
  | cons first available ih =>
    rw [takeBlock] at h
    split at h
    · cases h
      exact .rfl
    · obtain ⟨taken, htaken, hrest⟩ := Option.map_eq_some_iff.mp h
      cases hrest
      exact (List.Perm.swap first taken.1 taken.2).trans ((ih htaken).cons first)

theorem perm_takeItems {items : List SplitItem}
    (h : takeItems items available = .ok rest) :
    (items.map (fun item => trim item.content) ++ rest.map (·.content)).Perm
      (available.map (·.content)) := by
  induction items generalizing available with
  | nil =>
    obtain rfl := Except.ok.inj h
    exact .rfl
  | cons item items ih =>
    rw [takeItems] at h
    split at h
    next => cases h
    next sourceBlock left htaken =>
      split at h
      next hcopied =>
        have hperm := (ih h).cons (trim item.content)
        rw [hcopied] at hperm
        refine (?_ : List.Perm _ _).trans ((perm_takeBlock htaken).map (·.content))
        rw [List.map_cons, hcopied]
        exact hperm
      next => cases h

namespace MemoryTopicSplitReplacement

def placed (r : MemoryTopicSplitReplacement) : List Text := r.items.map fun item => trim item.content

def frameTexts (r : MemoryTopicSplitReplacement) : List Text :=
  lineTexts (titleLine r.title) ++ r.sections.map fun s => headingLine s.topicSection

def bodyTexts (r : MemoryTopicSplitReplacement) : List Text :=
  lineTexts (titleLine r.title) ++ r.sections.flatMap fun s =>
    headingLine s.topicSection :: s.items.flatMap fun item => lineTexts (trim item.content)

theorem perm_bodyTexts (r : MemoryTopicSplitReplacement) :
    r.bodyTexts.Perm (r.frameTexts ++ r.placed.flatMap lineTexts) := by
  have hsections : ∀ sections : List SplitSection, (sections.flatMap fun s => headingLine s.topicSection ::
        s.items.flatMap fun item => lineTexts (trim item.content)).Perm
      (sections.map (fun s => headingLine s.topicSection) ++
        (sections.flatMap (·.items)).flatMap fun item => lineTexts (trim item.content)) := by
    intro sections
    rw [List.flatMap_assoc, List.map_eq_flatMap]
    exact (List.flatMap_append_perm sections (fun s => [headingLine s.topicSection]) _).symm
  rw [bodyTexts, frameTexts, placed, items, List.append_assoc, List.flatMap_map]
  exact (hsections r.sections).append_left _

end MemoryTopicSplitReplacement

theorem lineTexts_renderSections {sections : List SplitSection} {parts : List Text}
    (h : renderSections sections = .ok parts) :
    parts.flatMap lineTexts = sections.flatMap fun s => headingLine s.topicSection ::
      s.items.flatMap fun item => lineTexts (trim item.content) := by
  induction sections generalizing parts with
  | nil =>
    obtain rfl := Except.ok.inj h
    rfl
  | cons s sections ih =>
    obtain ⟨_, hsection, h⟩ := bind_ok h
    obtain ⟨others, hothers, h⟩ := bind_ok h
    obtain rfl := Except.ok.inj h
    obtain ⟨name, hname⟩ := Option.isSome_iff_exists.mp (of_ensure hsection).1
    have hheading : lineTexts (headingLine s.topicSection) = [headingLine s.topicSection] := by
      rw [← MemoryTopicSection.of_ofText hname]
      exact lineTexts_headingLine name
    rw [List.flatMap_cons, List.flatMap_cons, hheading, lineTexts_paragraphs, List.flatMap_map,
      ih hothers, List.flatMap_cons]
    rfl

theorem lineTexts_renderSplitTopicBody {body : Text}
    (h : renderSplitTopicBody r.title r.sections = .ok body) : lineTexts body = r.bodyTexts := by
  obtain ⟨parts, hparts, h⟩ := bind_ok h
  obtain rfl := Except.ok.inj h
  rw [lineTexts_paragraphs, List.flatMap_cons, lineTexts_renderSections hparts]
  rfl

structure Proposes (rt : Runtime) (topicId : Text) (r : MemoryTopicSplitReplacement)
    (p : ProposedTopic) (t : MemoryTopicRecord) : Prop where
  path : p.path.topicId = topicId
  metadata : p.metadata.topicId = topicId
  parse : parseMemoryTopicFile rt p.path p.file = .ok t
  topicId : t.topicId = topicId
  active : t.status = .active
  body : ∃ body, renderSplitTopicBody r.title r.sections = .ok body ∧ t.body = trim body

theorem body_of_render {m : MemoryTopicMetadata} {body : Text} {file : MemoryFile} {path : TopicPath}
    {t : MemoryTopicRecord} (hrender : renderMemoryTopicFile rt m body = .ok file)
    (hparse : parseMemoryTopicFile rt path file = .ok t) : t.body = trim body := by
  obtain ⟨_, -, hrender⟩ := bind_ok hrender
  obtain ⟨_, -, hrender⟩ := bind_ok hrender
  obtain ⟨_, -, hrender⟩ := bind_ok hrender
  obtain ⟨_, -, hrender⟩ := bind_ok hrender
  obtain ⟨_, -, hrender⟩ := bind_ok hrender
  obtain ⟨_, -, hrender⟩ := bind_ok hrender
  obtain ⟨_, -, hrender⟩ := bind_ok hrender
  obtain rfl := Except.ok.inj hrender
  rw [(readsAs hparse).content _ _ _ rfl, trim_trim]

theorem of_proposeTopic {topicId : Text} {p : ProposedTopic}
    (h : proposeTopic rt now topicId r available = .ok (p, rest)) :
    (∃ t, Proposes rt topicId r p t) ∧ (r.placed ++ rest.map (·.content)).Perm (available.map (·.content)) := by
  obtain ⟨left, hitems, h⟩ := bind_ok h
  obtain ⟨body, hbody, h⟩ := bind_ok h
  obtain ⟨_, -, h⟩ := bind_ok h
  obtain ⟨file, hfile, h⟩ := bind_ok h
  obtain ⟨t, ht, h⟩ := bind_ok h
  cases h
  have hread := readsAs ht
  exact ⟨⟨t, rfl, rfl, ht, hread.topicId, hread.status, body, hbody, body_of_render hfile ht⟩, perm_takeItems hitems⟩

/-- The replacements, what is written for them and what is read back, the `n`th under the `n`th id
drawn. -/
inductive AllProposed (rt : Runtime) (createTopicId : Nat → Text) : Nat →
    List MemoryTopicSplitReplacement → List ProposedTopic → List MemoryTopicRecord → Prop
  | nil (n : Nat) : AllProposed rt createTopicId n [] [] []
  | cons {n : Nat} {r : MemoryTopicSplitReplacement} {p : ProposedTopic} {t : MemoryTopicRecord}
      {rs : List MemoryTopicSplitReplacement} {ps : List ProposedTopic}
      {ts : List MemoryTopicRecord} (head : Proposes rt (createTopicId n) r p t)
      (tail : AllProposed rt createTopicId (n + 1) rs ps ts) :
      AllProposed rt createTopicId n (r :: rs) (p :: ps) (t :: ts)

variable {createTopicId : Nat → Text} {n : Nat} {rs : List MemoryTopicSplitReplacement}
  {ps : List ProposedTopic} {ts : List MemoryTopicRecord}

theorem of_proposeTopics
    (h : proposeTopics rt now createTopicId n rs available = .ok (ps, rest)) :
    (∃ ts, AllProposed rt createTopicId n rs ps ts) ∧
      (rs.flatMap (·.placed) ++ rest.map (·.content)).Perm (available.map (·.content)) := by
  induction rs generalizing n available ps with
  | nil =>
    cases h
    exact ⟨⟨[], .nil n⟩, .rfl⟩
  | cons r rs ih =>
    obtain ⟨first, hfirst, h⟩ := bind_ok h
    obtain ⟨others, hothers, h⟩ := bind_ok h
    cases h
    obtain ⟨⟨t, ht⟩, hplaced⟩ := of_proposeTopic hfirst
    obtain ⟨⟨ts, hts⟩, hrest⟩ := ih hothers
    refine ⟨⟨t :: ts, .cons ht hts⟩, ?_⟩
    rw [List.flatMap_cons, List.append_assoc]
    exact (hrest.append_left _).trans hplaced

theorem AllProposed.topicIds (h : AllProposed rt createTopicId n rs ps ts) :
    ts.map (·.topicId) = (List.range' n rs.length).map createTopicId := by
  induction h with
  | nil n => rfl
  | cons head tail ih =>
    rw [List.map_cons, head.topicId, ih, List.length_cons, List.range'_succ, List.map_cons]

theorem AllProposed.metadata (h : AllProposed rt createTopicId n rs ps ts) :
    ps.map (·.metadata.topicId) = ts.map (·.topicId) := by
  induction h with
  | nil n => rfl
  | cons head tail ih => rw [List.map_cons, List.map_cons, head.metadata, head.topicId, ih]

theorem AllProposed.bodies (h : AllProposed rt createTopicId n rs ps ts) :
    List.Forall₂ (fun r t => ∃ body, renderSplitTopicBody r.title r.sections = .ok body ∧
      t.body = trim body) rs ts := by
  induction h with
  | nil n => exact .nil
  | cons head tail ih => exact .cons head.body ih

end Plan

section Files

variable {rt : Runtime} {createTopicId : Nat → Text} {n : Nat}
  {rs : List MemoryTopicSplitReplacement} {ps : List ProposedTopic} {ts : List MemoryTopicRecord}

def Sole (rt : Runtime) (t : MemoryTopicRecord) (s : Memory) : Prop :=
  ∀ r, r.status = .active → r.topicId = t.topicId → IsTopic rt s r → r = t

theorem leaves_writeProposed {topicId : Text} (outcomes : Nat → WriteOutcome MemoryFile)
    (h : ∀ p ∈ ps, p.path.topicId ≠ topicId) :
    Op.Leaves rt topicId (writeProposed outcomes n ps) := by
  induction ps generalizing n with
  | nil => exact .pure _
  | cons p ps ih =>
    exact .bind (leaves_write (.inr (h p List.mem_cons_self)) _ _) fun _ _ _ =>
      ih fun q hq => h q (List.mem_cons_of_mem _ hq)

theorem AllProposed.paths (h : AllProposed rt createTopicId n rs ps ts) :
    ps.map (·.path.topicId) = ts.map (·.topicId) := by
  induction h with
  | nil n => rfl
  | cons head tail ih => rw [List.map_cons, List.map_cons, head.path, head.topicId, ih]

theorem of_writeTopicFile {outcome : WriteOutcome MemoryFile} {path : TopicPath} {file : MemoryFile}
    {s s' : Memory} (h : writeTopicFile outcome path file s = (.ok (), s')) :
    s' = s.put path file := by
  cases outcome with
  | done => exact (congrArg Prod.snd h).symm
  | throws left => cases congrArg Prod.fst h

theorem sole_writeProposed (h : AllProposed rt createTopicId n rs ps ts)
    (hnodup : (ts.map (·.topicId)).Nodup) {outcomes : Nat → WriteOutcome MemoryFile} {s s' : Memory}
    (hfresh : ∀ t ∈ ts, Absent rt t.topicId s)
    (hwrite : writeProposed outcomes n ps s = (.ok (), s')) : ∀ t ∈ ts, Sole rt t s' := by
  induction h generalizing s with
  | nil n => exact fun t ht => nomatch ht
  | @cons n r p t rs ps ts head tail ih =>
    obtain ⟨_, s₁, hfirst, hrest⟩ := Op.of_bind_ok hwrite
    rw [List.map_cons, List.nodup_cons] at hnodup
    obtain rfl := of_writeTopicFile hfirst
    have hothers : ∀ q ∈ ps, q.path.topicId ≠ t.topicId := by
      intro q hq hid
      apply hnodup.1
      rw [← tail.paths, ← hid]
      exact List.mem_map_of_mem hq
    intro u hu
    obtain rfl | hu := List.mem_cons.mp hu
    · intro q hq hid hs'
      have hleaves := @leaves_writeProposed rt (n + 1) ps u.topicId outcomes hothers
      have hs₁ := hleaves _ q hq hid (by rw [hrest]; exact hs')
      obtain rfl | ⟨-, hs⟩ := (isTopic_put rt head.parse).mp hs₁
      · rfl
      · exact absurd hs (hfresh u List.mem_cons_self q hq hid)
    · refine ih hnodup.2 (fun v hv => ?_) hrest u hu
      have hne : p.path.topicId ≠ v.topicId := by
        rw [head.path, ← head.topicId]
        intro hid
        exact hnodup.1 (hid ▸ List.mem_map_of_mem hv)
      have hleaves := @leaves_write rt v.topicId p.path (.inr hne) (outcomes n) p.file
      have habsent := hleaves.absent (hfresh v (List.mem_cons_of_mem _ hv))
      rw [hfirst] at habsent
      exact habsent

theorem of_trySplit {out : SplitOutcome} {sourceTopicId : Text} {topics : List MemoryTopicRecord}
    {archived : List Text} {s s' : Memory}
    (h : trySplit rt out sourceTopicId ps s = (.ok topics, archived, s')) :
    ∃ s₁, writeProposed out.write 0 ps s = (.ok (), s₁) ∧
      (∀ r, r.status = .active → IsTopic rt s' r → IsTopic rt s₁ r) ∧
      readTopics rt (ps.map (·.metadata.topicId)) s' = (.ok topics, s') := by
  simp only [trySplit] at h
  split at h
  next => cases h
  next source s₂ hstart =>
    obtain ⟨_, s₁, hwrite, harchive⟩ := Op.of_bind_ok hstart
    split at h
    next => cases h
    next hfits =>
      obtain ⟨hfinish, h⟩ := Prod.mk.inj h
      obtain ⟨rfl, hs'⟩ := Prod.mk.inj h
      obtain ⟨_, s₄, hrebuild, hread⟩ := Op.of_bind_ok (Prod.ext hfinish hs')
      obtain ⟨rfl, -, -⟩ := of_readTopics hread
      refine ⟨s₁, hwrite, fun r hr hs' => ?_, hread⟩
      have hmain := @leaves_rebuild rt r.topicId out.last _ r hr rfl (by
        rw [hrebuild]
        exact hs')
      have hfit : IsTopic rt s₂ r := by
        refine leaves_ensureCatalogFits out.fit (ps.map (·.metadata.topicId)) hr rfl ?_
        rw [hfits]
        exact hmain
      exact leaves_archive out.archive sourceTopicId s₁ r hr rfl (by rw [harchive]; exact hfit)

theorem eq_of_sole {topics : List MemoryTopicRecord}
    (hids : topics.map (·.topicId) = ts.map (·.topicId))
    (h : ∀ q ∈ topics, ∀ t ∈ ts, q.topicId = t.topicId → q = t) : topics = ts := by
  induction topics generalizing ts with
  | nil => exact (List.map_eq_nil_iff.mp hids.symm).symm
  | cons q topics ih =>
    cases ts with
    | nil => cases hids
    | cons t ts =>
      obtain ⟨hid, hids⟩ := List.cons.inj hids
      rw [h q List.mem_cons_self t List.mem_cons_self hid, ih hids fun p hp u hu =>
        h p (List.mem_cons_of_mem _ hp) u (List.mem_cons_of_mem _ hu)]

end Files

section Coverage

structure Fresh (rt : Runtime) (createTopicId : Nat → Text) (count : Nat) (s : Memory) : Prop where
  nodup : ((List.range count).map createTopicId).Nodup
  absent : ∀ n < count, Absent rt (createTopicId n) s

/-- The content lines of `source`, cut into `groups`, are those of `topics` besides their titles and
headings. -/
structure Distributes (source : MemoryTopicRecord) (groups : List (List Text))
    (replacements : List MemoryTopicSplitReplacement) (topics : List MemoryTopicRecord) : Prop where
  cut : groups.flatten = contentLines source.body
  placed : (replacements.flatMap (·.placed)).Perm (groups.map blockText)
  bodies : List.Forall₂ (fun r t => ∃ body, renderSplitTopicBody r.title r.sections = .ok body ∧
    t.body = trim body) replacements topics
  lines : List.Forall₂ (fun r t => lineTexts t.body = r.bodyTexts) replacements topics
  kept : (topics.flatMap fun t => lineTexts t.body).Perm
    (replacements.flatMap (·.frameTexts) ++ texts (contentLines source.body))
  ordered : ∀ r ∈ replacements, r.placed.Sublist (groups.map blockText) →
    (r.placed.flatMap lineTexts).Sublist (texts (contentLines source.body))

theorem flatMap_blockText {groups : List (List Text)}
    (h : ∀ group ∈ groups, ∀ line ∈ group, '\n' ∉ line) :
    (groups.map blockText).flatMap lineTexts = texts groups.flatten := by
  rw [texts_flatten, List.flatMap_map]
  exact List.flatMap_congr fun group hgroup => lineTexts_blockText (h group hgroup)

theorem distributes {hashMemoryBlock : Text → Text} {rt : Runtime} {now : Nat}
    {createTopicId : Nat → Text} {source : MemoryTopicRecord} {blocks : List TopicBodyBlock}
    {replacements : List MemoryTopicSplitReplacement} {ps : List ProposedTopic}
    {ts : List MemoryTopicRecord}
    (hblocks : splitTopicBodyBlocks hashMemoryBlock source.body = .ok blocks)
    (hproposed : proposeTopics rt now createTopicId 0 replacements blocks = .ok (ps, []))
    (hts : AllProposed rt createTopicId 0 replacements ps ts) :
    ∃ groups, Distributes source groups replacements ts := by
  obtain ⟨groups, hcut⟩ := cut_splitTopicBodyBlocks hblocks
  have hplaced := (of_proposeTopics hproposed).2
  rw [List.map_nil, List.append_nil, hcut.content] at hplaced
  have hnewline : ∀ group ∈ groups, ∀ line ∈ group, '\n' ∉ line := by
    intro group hgroup line hline
    have hmem : line ∈ groups.flatten := List.mem_flatten.mpr ⟨group, hgroup, hline⟩
    rw [hcut.flatten] at hmem
    exact newline_not_mem_splitLines (List.mem_filter.mp hmem).1
  have htexts := flatMap_blockText hnewline
  rw [hcut.flatten] at htexts
  have hlines : List.Forall₂ (fun r t => lineTexts t.body = r.bodyTexts) replacements ts := by
    refine hts.bodies.imp fun r t ⟨body, hbody, ht⟩ => ?_
    rw [ht, lineTexts_trim, lineTexts_renderSplitTopicBody hbody]
  refine ⟨groups, hcut.flatten, hplaced, hts.bodies, hlines, ?_, ?_⟩
  · have hbodies : (ts.flatMap fun t => lineTexts t.body) = replacements.flatMap (·.bodyTexts) := by
      clear hproposed hts hplaced
      induction hlines with
      | nil => rfl
      | cons head _ ih => rw [List.flatMap_cons, List.flatMap_cons, head, ih]
    have hframes : (replacements.flatMap (·.bodyTexts)).Perm
        (replacements.flatMap fun r => r.frameTexts ++ r.placed.flatMap lineTexts) :=
      List.Perm.flatMap_left _ fun r _ => r.perm_bodyTexts
    have htaken : (replacements.flatMap fun r => r.placed.flatMap lineTexts).Perm
        ((groups.map blockText).flatMap lineTexts) := by
      rw [← List.flatMap_assoc]
      exact hplaced.flatMap_right lineTexts
    rw [hbodies, ← htexts]
    refine hframes.trans ((List.flatMap_append_perm replacements _ _).symm.trans ?_)
    exact htaken.append_left _
  · intro r _ hsub
    rw [← htexts]
    exact hsub.flatMap lineTexts

/-- A split distributes the content lines of the topic over the new topics. -/
theorem split_distributes_lines (rt : Runtime) (hashMemoryBlock : Text → Text) (out : SplitOutcome)
    (sourceTopicId : Text) (replacements : List MemoryTopicSplitReplacement)
    {start after : Memory} {topics : List MemoryTopicRecord}
    (hfresh : Fresh rt out.createTopicId replacements.length start)
    (h : splitMemoryTopic rt hashMemoryBlock out sourceTopicId replacements start = (.ok topics, after)) :
    ∃ source groups, readMemoryTopic rt sourceTopicId start = (.ok source, start) ∧
      Distributes source groups replacements topics ∧
      ∀ t ∈ topics, IsTopic rt after t ∧ t.status = .active := by
  obtain ⟨_, -, hrun⟩ := Op.of_bind_lift h
  obtain ⟨source, s₁, hsource, hrun⟩ := Op.of_bind_ok hrun
  obtain ⟨hs₁, -, -, -⟩ := of_readMemoryTopic rt hsource
  rw [hs₁] at hsource hrun
  obtain ⟨blocks, hblocks, hrun⟩ := Op.of_bind_lift hrun
  obtain ⟨_, -, hrun⟩ := Op.of_bind_lift hrun
  obtain ⟨⟨ps, rest⟩, hproposed, hrun⟩ := Op.of_bind_lift hrun
  obtain ⟨_, hall, hrun⟩ := Op.of_bind_lift hrun
  obtain rfl : rest = [] := of_ensure hall
  obtain ⟨ts, hts⟩ := (of_proposeTopics hproposed).1
  obtain ⟨groups, hgroups⟩ := distributes hblocks hproposed hts
  unfold splitFiles at hrun
  split at hrun
  next topics' archived s' htry =>
    obtain ⟨htopics, rfl⟩ := Prod.mk.inj hrun
    obtain rfl := Except.ok.inj htopics
    obtain ⟨s₂, hwrite, hleaves, hread⟩ := of_trySplit htry
    obtain ⟨-, hids, hactive⟩ := of_readTopics hread
    rw [hts.metadata] at hids
    have hdrawn := hts.topicIds
    rw [← List.range_eq_range'] at hdrawn
    have hsole := sole_writeProposed hts (by rw [hdrawn]; exact hfresh.nodup) ?_ hwrite
    · have heq := eq_of_sole hids fun q hq t ht hid =>
        hsole t ht q (hactive q hq).2 hid (hleaves q (hactive q hq).2 (hactive q hq).1)
      rw [heq]
      rw [heq] at hactive
      exact ⟨source, groups, hsource, hgroups, hactive⟩
    · intro t ht
      have hmem : t.topicId ∈ ts.map (·.topicId) := List.mem_map_of_mem ht
      rw [hdrawn] at hmem
      obtain ⟨n, hn, hid⟩ := List.mem_map.mp hmem
      rw [← hid]
      exact hfresh.absent n (List.mem_range.mp hn)
  next => cases congrArg Prod.fst hrun

end Coverage

section Run

/-- The hash on the blocks of `listBody`. -/
def listHash (content : Text) : Text :=
  if content = "- a".toList then
    "ae030a32f1f546fde1506fba2565cec128360bfa666150b1982fc59d52e7d8be".toList
  else if content = "- b".toList then
    "d919ba095531b7a20d97aa2403aba5d01c8d8236ceb67080b2c47dfe7e103113".toList
  else "f5ae19f39bb8f5e280fd49aab73849028f469fee25959d2db2409d08e605681e".toList

def listBody : Text := "# t\n\n## Durable Knowledge\n\n- a\n- b\n# c\n- d".toList

def listMemory : Memory where
  main := none
  files := [(⟨.active, "tpc_00000001".toList, ['t']⟩, topicFile plainRuntime
    { topicId := "tpc_00000001".toList, title := ['t'], scope := ['s'], description := ['d'],
      keywords := [['k']], status := .active, updatedAt := 5 } listBody)]
  nodup := by decide

def replacement (title : Text) (contents : List Text) : MemoryTopicSplitReplacement where
  title := title
  scope := ['s']
  description := ['d']
  keywords := [['k']]
  sections := [⟨"Durable Knowledge".toList, contents.map fun content => ⟨listHash content, content⟩⟩]

def listReplacements : List MemoryTopicSplitReplacement :=
  [replacement ['x'] ["- b".toList, "- a".toList], replacement ['y'] ["- d".toList]]

def quietSplit : SplitOutcome where
  now := 9
  createTopicId n := "tpc_0000001".toList ++ [if n = 0 then 'a' else 'b']
  write _ := .done
  archive := ⟨⟨9, .done, true⟩, .done⟩
  fit _ := ⟨9, .done, true⟩
  last := .done
  delete _ _ := true
  reactivate _ := ⟨⟨9, .done, true⟩, fun _ => ⟨9, .done, true⟩, .done⟩

def listSplit : Except MemoryError (List MemoryTopicRecord) × Memory :=
  splitMemoryTopic plainRuntime listHash quietSplit "tpc_00000001".toList listReplacements listMemory

theorem listSplit_lines : ∃ topics after, listSplit = (.ok topics, after) ∧ topics.map (fun t => lineTexts t.body) =
      [["# x".toList, "## Durable Knowledge".toList, "- b".toList, "- a".toList],
        ["# y".toList, "## Durable Knowledge".toList, "- d".toList]] := by
  have hlines : listSplit.1.toOption.map (fun topics => topics.map fun t => lineTexts t.body) =
      some [["# x".toList, "## Durable Knowledge".toList, "- b".toList, "- a".toList],
        ["# y".toList, "## Durable Knowledge".toList, "- d".toList]] := by decide +kernel
  cases hsplit : listSplit with
  | mk result after =>
    rw [hsplit] at hlines
    cases result with
    | error e => cases hlines
    | ok topics => exact ⟨topics, after, rfl, Option.some_inj.mp hlines⟩

theorem fresh_listMemory : Fresh plainRuntime quietSplit.createTopicId 2 listMemory := by
  have hids : ∀ t ∈ topics plainRuntime listMemory, ∀ n < 2,
      t.topicId ≠ quietSplit.createTopicId n := by decide +kernel
  refine ⟨by decide, fun n hn t _ hid ht => ?_⟩
  exact hids t ((mem_topics plainRuntime).mpr ht) n hn hid

theorem split_distributes_list : ∃ topics after source groups,
    splitMemoryTopic plainRuntime listHash quietSplit "tpc_00000001".toList listReplacements
      listMemory = (.ok topics, after) ∧
    readMemoryTopic plainRuntime "tpc_00000001".toList listMemory = (.ok source, listMemory) ∧
    Distributes source groups listReplacements topics := by
  obtain ⟨topics, after, hsplit, -⟩ := listSplit_lines
  obtain ⟨source, groups, hsource, hgroups, -⟩ := split_distributes_lines plainRuntime listHash
    quietSplit "tpc_00000001".toList listReplacements fresh_listMemory hsplit
  exact ⟨topics, after, source, groups, hsplit, hsource, hgroups⟩

theorem split_reorders_lines : ∃ topics after,
    splitMemoryTopic plainRuntime listHash quietSplit "tpc_00000001".toList listReplacements
      listMemory = (.ok topics, after) ∧
    (∃ lines ∈ topics.map (fun t => lineTexts t.body),
      ¬(lines.filter (· ∈ lineTexts listBody)).Sublist (lineTexts listBody)) ∧
    ∃ line ∈ lineTexts listBody, line ≠ titleLine ['t'] ∧
      ∀ lines ∈ topics.map (fun t => lineTexts t.body), line ∉ lines := by
  obtain ⟨topics, after, hsplit, hlines⟩ := listSplit_lines
  refine ⟨topics, after, hsplit, ?_, ?_⟩
  · rw [hlines]
    decide
  · rw [hlines]
    decide

end Run

end A2Wave.MemoryTopics
