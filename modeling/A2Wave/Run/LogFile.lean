import A2Wave.Lib.Json
import A2Wave.Lib.Ring

/-! `lib/run-log-file.ts`, the reading side.  A log file is the list of its lines; what
`JSON.parse` makes of a line is a parameter, `none` when it throws. -/

namespace A2Wave.RunLog

inductive RunLogFilter
  | all
  | tools
  | messages
  | problems
  deriving DecidableEq, Repr

def PROBLEM_SYSTEM_SUBTYPES : List String :=
  ["a2a.task.poll_retry", "a2a.task.resubscribe_failed", "a2a.task.cancel_failed"]

def hasType (entry : Json) (type : String) : Bool := entry.get? "type" = some (.str type)

def hasSubtype (entry : Json) (subtype : String) : Bool := entry.get? "subtype" = some (.str subtype)

def matchesRunLogFilter (entry : Json) : RunLogFilter → Bool
  | .tools => hasType entry "tool_call" || hasType entry "tool_heartbeat"
  | .messages => hasType entry "assistant"
  | .problems =>
    hasType entry "error" || hasType entry "retry" ||
      (hasType entry "tool_call" && hasSubtype entry "failed") ||
      (hasType entry "system" && PROBLEM_SYSTEM_SUBTYPES.any (hasSubtype entry))
  | .all => true

structure RunLogStats where
  total : Nat := 0
  tools : Nat := 0
  messages : Nat := 0
  errors : Nat := 0
  deriving DecidableEq

def updateRunLogStats (stats : RunLogStats) (entry : Json) : RunLogStats where
  total := stats.total + 1
  tools :=
    if hasType entry "tool_call" && hasSubtype entry "started" then stats.tools + 1 else stats.tools
  messages := if matchesRunLogFilter entry .messages then stats.messages + 1 else stats.messages
  errors := if matchesRunLogFilter entry .problems then stats.errors + 1 else stats.errors

/-- White space and line terminators, as `String.prototype.trim` removes them. -/
def isWhiteSpace (c : Char) : Bool :=
  c.toNat ∈ [0x09, 0x0a, 0x0b, 0x0c, 0x0d, 0x20, 0xa0, 0x1680, 0x2028, 0x2029, 0x202f, 0x205f,
    0x3000, 0xfeff] || (0x2000 ≤ c.toNat && c.toNat ≤ 0x200a)

section Scan

variable (parse : String → Option Json)

def parseLine (line : String) : Option Json :=
  if line.toList.all isWhiteSpace then none
  else (parse line).filter fun entry => truthy (some entry)

def iterateNdjsonEntries (lines : List String) : List Json := lines.filterMap (parseLine parse)

structure RunLogTotals where
  matchingEntries : Nat
  stats : RunLogStats
  deriving DecidableEq

structure TailScan where
  stats : RunLogStats := {}
  ring : Ring Json := {}

def scanEntry (filter : RunLogFilter) (pageSize : Nat) (s : TailScan) (entry : Json) : TailScan where
  stats := updateRunLogStats s.stats entry
  ring := if matchesRunLogFilter entry filter then s.ring.push pageSize entry else s.ring

def scanTotalsAndTail (lines : List String) (filter : RunLogFilter) (pageSize : Nat) : RunLogTotals × List Json :=
  let s := (iterateNdjsonEntries parse lines).foldl (scanEntry filter pageSize) {}
  (⟨s.ring.count, s.stats⟩, s.ring.toList pageSize)

/-- The loop of `readValidNdjsonRange`, with its early exit. -/
def readRangeLoop (filter : RunLogFilter) (startIndex endIndex : Nat) : List Json → Nat → List Json → List Json
  | [], _, entries => entries
  | entry :: rest, matchingIndex, entries =>
    if matchesRunLogFilter entry filter then
      let entries :=
        if startIndex ≤ matchingIndex ∧ matchingIndex < endIndex then entries ++ [entry] else entries
      if endIndex ≤ matchingIndex + 1 then entries
      else readRangeLoop filter startIndex endIndex rest (matchingIndex + 1) entries
    else readRangeLoop filter startIndex endIndex rest matchingIndex entries

def readValidNdjsonRange (lines : List String) (filter : RunLogFilter) (startIndex endIndex : Nat) : List Json :=
  readRangeLoop filter startIndex endIndex (iterateNdjsonEntries parse lines) 0 []

end Scan

structure LogFile where
  lines : List String
  size : Nat
  mtimeMs : Nat
  deriving DecidableEq

structure CacheKey where
  runId : String
  filter : RunLogFilter
  deriving DecidableEq

structure CachedTotals where
  key : CacheKey
  size : Nat
  mtimeMs : Nat
  totals : RunLogTotals
  deriving DecidableEq

/-- A `Map` in insertion order, oldest first. -/
abbrev TotalsCache := List CachedTotals

def TOTALS_CACHE_MAX : Nat := 64

def readCachedTotals (cache : TotalsCache) (key : CacheKey) (size mtimeMs : Nat) : Option RunLogTotals × TotalsCache :=
  match cache.find? fun hit => hit.key = key with
  | none => (none, cache)
  | some hit =>
    if hit.size ≠ size || hit.mtimeMs ≠ mtimeMs then (none, cache)
    else (some hit.totals, cache.filter (fun hit => hit.key ≠ key) ++ [hit])

def storeCachedTotals (cache : TotalsCache) (key : CacheKey) (size mtimeMs : Nat)
    (totals : RunLogTotals) : TotalsCache :=
  let stored := cache.filter (fun hit => hit.key ≠ key) ++ [⟨key, size, mtimeMs, totals⟩]
  stored.drop (stored.length - TOTALS_CACHE_MAX)

inductive PageRequest
  | last
  | number (page : ℤ)
  deriving DecidableEq

structure Request where
  runId : String
  page : PageRequest
  pageSize : Nat
  filter : RunLogFilter := .all
  deriving DecidableEq

structure RunLogPage where
  entries : List Json
  page : Nat
  pageSize : Nat
  totalEntries : Nat
  totalPages : Nat
  stats : RunLogStats
  deriving DecidableEq

/-- `Math.max(1, Math.ceil(totalEntries / pageSize))`. -/
def totalPagesOf (totalEntries pageSize : Nat) : Nat :=
  max 1 ((totalEntries + pageSize - 1) / pageSize)

def clampPage (page : PageRequest) (totalPages : Nat) : Nat :=
  match page with
  | .last => totalPages
  | .number page => (min (max 1 page) totalPages).toNat

/-- `xs.slice(-n)`; `-0` is zero. -/
def sliceLast {α : Type} (n : Nat) (xs : List α) : List α :=
  if n = 0 then xs else xs.drop (xs.length - n)

def isRunId (runId : String) : Bool :=
  runId ≠ "" && runId.toList.all fun c => c.isAlphanum || c = '_' || c = '-'

section Read

variable (parse : String → Option Json) (fs : String → Option LogFile)

def pageEntries (lines : List String) (filter : RunLogFilter) (pageSize page totalEntries : Nat)
    (tailFromScan : Option (List Json)) : List Json :=
  let totalPages := totalPagesOf totalEntries pageSize
  let range :=
    readValidNdjsonRange parse lines filter ((page - 1) * pageSize) ((page - 1) * pageSize + pageSize)
  if totalEntries = 0 then []
  else
    match tailFromScan with
    | some tail =>
      if page = totalPages then sliceLast (totalEntries - (totalPages - 1) * pageSize) tail
      else range
    | none => range

def readRunLogPage (cache : TotalsCache) (r : Request) : Option RunLogPage × TotalsCache :=
  if isRunId r.runId then
    match fs r.runId with
    | none => (none, cache)
    | some file =>
      let key : CacheKey := ⟨r.runId, r.filter⟩
      let (cached, cache) := readCachedTotals cache key file.size file.mtimeMs
      let (totals, tailFromScan, cache) :=
        match cached with
        | some totals => (totals, none, cache)
        | none =>
          let (totals, tail) := scanTotalsAndTail parse file.lines r.filter r.pageSize
          (totals, some tail, storeCachedTotals cache key file.size file.mtimeMs totals)
      let totalPages := totalPagesOf totals.matchingEntries r.pageSize
      let page := clampPage r.page totalPages
      (some
        { entries := pageEntries parse file.lines r.filter r.pageSize page totals.matchingEntries tailFromScan
          page := page
          pageSize := r.pageSize
          totalEntries := totals.matchingEntries
          totalPages := totalPages
          stats := totals.stats }, cache)
  else (none, cache)

def readRunLogPages : TotalsCache → List Request → List (Option RunLogPage)
  | _, [] => []
  | cache, r :: rs =>
    let (page, cache) := readRunLogPage parse fs cache r
    page :: readRunLogPages cache rs

end Read

section Plain

variable (parse : String → Option Json)

def matchingEntries (lines : List String) (filter : RunLogFilter) : List Json :=
  (iterateNdjsonEntries parse lines).filter fun entry => matchesRunLogFilter entry filter

def plainTotals (lines : List String) (filter : RunLogFilter) : RunLogTotals where
  matchingEntries := (matchingEntries parse lines filter).length
  stats := (iterateNdjsonEntries parse lines).foldl updateRunLogStats {}

def pageOf {α : Type} (xs : List α) (pageSize page : Nat) : List α :=
  (xs.drop ((page - 1) * pageSize)).take pageSize

def plainPage (fs : String → Option LogFile) (r : Request) : Option RunLogPage :=
  if isRunId r.runId then
    (fs r.runId).map fun file =>
      let totals := plainTotals parse file.lines r.filter
      let totalPages := totalPagesOf totals.matchingEntries r.pageSize
      let page := clampPage r.page totalPages
      { entries := pageOf (matchingEntries parse file.lines r.filter) r.pageSize page, page := page
        pageSize := r.pageSize
        totalEntries := totals.matchingEntries
        totalPages := totalPages
        stats := totals.stats }
  else none

variable {parse} {filter : RunLogFilter} {pageSize : Nat} {lines : List String}

theorem foldl_scanEntry_stats (es : List Json) (s : TailScan) :
    (es.foldl (scanEntry filter pageSize) s).stats = es.foldl updateRunLogStats s.stats := by
  induction es generalizing s with
  | nil => rfl
  | cons e es ih => simp only [List.foldl_cons, ih, scanEntry]

theorem foldl_scanEntry_ring (es : List Json) (s : TailScan) : (es.foldl (scanEntry filter pageSize) s).ring =
      (es.filter fun e => matchesRunLogFilter e filter).foldl (Ring.push pageSize) s.ring := by
  induction es generalizing s with
  | nil => rfl
  | cons e es ih =>
    rw [List.foldl_cons, ih, List.filter_cons]
    by_cases h : matchesRunLogFilter e filter = true
    · simp [scanEntry, h]
    · simp [scanEntry, h]

theorem scanTotalsAndTail_eq (h : 1 ≤ pageSize) : scanTotalsAndTail parse lines filter pageSize =
      (plainTotals parse lines filter, (matchingEntries parse lines filter).drop
          ((matchingEntries parse lines filter).length - pageSize)) := by
  have hring : Ring.Holds pageSize
      ((matchingEntries parse lines filter).foldl (Ring.push pageSize) {})
      (matchingEntries parse lines filter) := by
    simpa using Ring.holds_foldl h (Ring.holds_empty pageSize) (matchingEntries parse lines filter)
  simp only [scanTotalsAndTail, foldl_scanEntry_ring, foldl_scanEntry_stats]
  exact Prod.ext (congrArg (RunLogTotals.mk · _) hring.count_eq) hring.toList_eq

theorem readRangeLoop_eq {a b i : Nat} (hi : i < b) (es acc : List Json) : readRangeLoop filter a b es i acc =
      acc ++ ((es.filter fun e => matchesRunLogFilter e filter).take (b - i)).drop (a - i) := by
  induction es generalizing i acc with
  | nil => simp [readRangeLoop]
  | cons e es ih =>
    rw [readRangeLoop, List.filter_cons]
    by_cases hm : matchesRunLogFilter e filter = true
    · obtain ⟨n, hn⟩ : ∃ n, b - i = n + 1 := ⟨b - i - 1, by omega⟩
      simp only [hm, if_true, hn, List.take_succ_cons]
      -- the entry is kept exactly when nothing is left to drop
      have hhead : (if a ≤ i ∧ i < b then acc ++ [e] else acc) ++
          ((es.filter fun e => matchesRunLogFilter e filter).take n).drop (a - (i + 1)) =
          acc ++ (e :: (es.filter fun e => matchesRunLogFilter e filter).take n).drop (a - i) := by
        by_cases ha : a ≤ i
        · rw [if_pos ⟨ha, hi⟩, Nat.sub_eq_zero_of_le ha, Nat.sub_eq_zero_of_le (by omega)]
          simp
        · obtain ⟨m, hm⟩ : ∃ m, a - i = m + 1 := ⟨a - i - 1, by omega⟩
          rw [if_neg (by omega), hm, show a - (i + 1) = m by omega, List.drop_succ_cons]
      split
      · have hn0 : n = 0 := by omega
        rw [← hhead, hn0]
        simp
      · rw [ih (by omega), show b - (i + 1) = n by omega]
        exact hhead
    · simp only [hm]
      exact ih hi acc

theorem readValidNdjsonRange_eq (h : 1 ≤ pageSize) (page : Nat) :
    readValidNdjsonRange parse lines filter ((page - 1) * pageSize)
        ((page - 1) * pageSize + pageSize) =
      pageOf (matchingEntries parse lines filter) pageSize page := by
  rw [readValidNdjsonRange, readRangeLoop_eq (by omega), List.nil_append, Nat.sub_zero, Nat.sub_zero,
    List.drop_take, Nat.add_sub_cancel_left]
  rfl

theorem totalPagesOf_bounds {n : Nat} (hn : 0 < n) (h : 1 ≤ pageSize) :
    (totalPagesOf n pageSize - 1) * pageSize < n ∧ n ≤ totalPagesOf n pageSize * pageSize := by
  have hdiv := Nat.div_add_mod (n + pageSize - 1) pageSize
  have hmod := Nat.mod_lt (n + pageSize - 1) h
  have hpos : 1 ≤ (n + pageSize - 1) / pageSize := by
    rw [Nat.le_div_iff_mul_le h]
    omega
  have htotal : totalPagesOf n pageSize = (n + pageSize - 1) / pageSize := max_eq_right hpos
  rw [htotal, Nat.sub_mul, Nat.one_mul, Nat.mul_comm]
  omega

theorem sliceLast_tail {xs : List Json} (hxs : xs ≠ []) (h : 1 ≤ pageSize) :
    sliceLast (xs.length - (totalPagesOf xs.length pageSize - 1) * pageSize)
        (xs.drop (xs.length - pageSize)) =
      pageOf xs pageSize (totalPagesOf xs.length pageSize) := by
  have hpos : 0 < xs.length := List.length_pos_iff.mpr hxs
  obtain ⟨hlt, hle⟩ := totalPagesOf_bounds hpos h
  obtain ⟨t, ht⟩ : ∃ t, (totalPagesOf xs.length pageSize - 1) * pageSize = t := ⟨_, rfl⟩
  have hup : xs.length ≤ t + pageSize := by
    rw [← ht, Nat.sub_mul, Nat.one_mul]
    omega
  rw [ht] at hlt
  rw [pageOf, ht, sliceLast, if_neg (by omega), List.drop_drop, List.length_drop,
    List.take_of_length_le (by rw [List.length_drop]; omega)]
  congr 1
  omega

theorem pageEntries_scan (h : 1 ≤ pageSize) (page : Nat) :
    pageEntries parse lines filter pageSize page (matchingEntries parse lines filter).length
        (some ((matchingEntries parse lines filter).drop
          ((matchingEntries parse lines filter).length - pageSize))) =
      pageOf (matchingEntries parse lines filter) pageSize page := by
  unfold pageEntries
  dsimp only
  split
  · rename_i hnil
    rw [pageOf, List.eq_nil_of_length_eq_zero hnil]
    simp
  · rename_i hne
    split
    · rename_i hpage
      rw [hpage]
      exact sliceLast_tail (fun hnil => hne (by rw [hnil]; rfl)) h
    · exact readValidNdjsonRange_eq h page

theorem pageEntries_range (h : 1 ≤ pageSize) (page : Nat) :
    pageEntries parse lines filter pageSize page (matchingEntries parse lines filter).length none =
      pageOf (matchingEntries parse lines filter) pageSize page := by
  unfold pageEntries
  dsimp only
  split
  · rename_i hnil
    rw [pageOf, List.eq_nil_of_length_eq_zero hnil]
    simp
  · exact readValidNdjsonRange_eq h page

theorem flatten_pageOf (xs : List Json) (pageSize n : Nat) :
    ((List.range n).map fun i => pageOf xs pageSize (i + 1)).flatten = xs.take (n * pageSize) := by
  induction n with
  | zero => simp
  | succ n ih =>
    rw [List.range_succ, List.map_append, List.flatten_append, ih, Nat.add_mul, Nat.one_mul, List.take_add]
    simp [pageOf]

end Plain

section Cache

variable (parse : String → Option Json) (fs : String → Option LogFile)

def Coherent (cache : TotalsCache) : Prop :=
  ∀ hit ∈ cache, ∀ file, fs hit.key.runId = some file → hit.size = file.size →
    hit.mtimeMs = file.mtimeMs → hit.totals = plainTotals parse file.lines hit.key.filter

variable {parse fs} {cache : TotalsCache} {file : LogFile}

theorem Coherent.readCachedTotals (h : Coherent parse fs cache) (key : CacheKey) (size mtimeMs : Nat) :
    Coherent parse fs (readCachedTotals cache key size mtimeMs).2 := by
  unfold RunLog.readCachedTotals
  split
  · exact h
  · rename_i hit hfind
    split
    · exact h
    · intro hit' hmem
      rcases List.mem_append.mp hmem with hmem | hmem
      · exact h hit' (List.mem_of_mem_filter hmem)
      · rw [List.mem_singleton.mp hmem]
        exact h hit (List.mem_of_find?_eq_some hfind)

theorem readCachedTotals_hit (h : Coherent parse fs cache) (key : CacheKey)
    (hfile : fs key.runId = some file) (totals : RunLogTotals)
    (hhit : (readCachedTotals cache key file.size file.mtimeMs).1 = some totals) :
    totals = plainTotals parse file.lines key.filter := by
  unfold readCachedTotals at hhit
  split at hhit
  · cases hhit
  · rename_i hit hfind
    split at hhit
    · cases hhit
    · rename_i hversion
      have hkey : hit.key = key := by simpa using List.find?_some hfind
      cases hhit
      subst hkey
      simp only [ne_eq, Bool.or_eq_true, decide_eq_true_eq, not_or, not_not] at hversion
      exact h hit (List.mem_of_find?_eq_some hfind) file hfile hversion.1 hversion.2

theorem Coherent.storeCachedTotals (h : Coherent parse fs cache) (key : CacheKey)
    (hfile : fs key.runId = some file) :
    Coherent parse fs (storeCachedTotals cache key file.size file.mtimeMs
      (plainTotals parse file.lines key.filter)) := by
  intro hit hmem
  have hmem' := List.mem_of_mem_drop hmem
  rcases List.mem_append.mp hmem' with hmem' | hmem'
  · exact h hit (List.mem_of_mem_filter hmem')
  · rw [List.mem_singleton.mp hmem']
    intro file' hfile' _ _
    rw [hfile] at hfile'
    cases hfile'
    rfl

theorem readRunLogPage_eq (h : Coherent parse fs cache) {r : Request} (hr : 1 ≤ r.pageSize) :
    (readRunLogPage parse fs cache r).1 = plainPage parse fs r ∧
      Coherent parse fs (readRunLogPage parse fs cache r).2 := by
  unfold readRunLogPage plainPage
  split
  · cases hfile : fs r.runId with
    | none => exact ⟨rfl, h⟩
    | some file =>
      have hread := h.readCachedTotals ⟨r.runId, r.filter⟩ file.size file.mtimeMs
      have hhit := readCachedTotals_hit h ⟨r.runId, r.filter⟩ hfile
      dsimp only
      rcases hc : readCachedTotals cache ⟨r.runId, r.filter⟩ file.size file.mtimeMs with ⟨cached, cache'⟩
      rw [hc] at hread hhit
      cases cached with
      | some totals =>
        have htotals : totals = plainTotals parse file.lines r.filter := hhit totals rfl
        subst htotals
        refine ⟨?_, hread⟩
        simp only [Option.map_some, plainTotals, pageEntries_range hr]
      | none =>
        simp only [scanTotalsAndTail_eq hr]
        refine ⟨?_, hread.storeCachedTotals ⟨r.runId, r.filter⟩ hfile⟩
        simp only [Option.map_some, plainTotals, pageEntries_scan hr]
  · exact ⟨rfl, h⟩

theorem readRunLogPages_eq (h : Coherent parse fs cache) {rs : List Request}
    (hrs : ∀ r ∈ rs, 1 ≤ r.pageSize) :
    readRunLogPages parse fs cache rs = rs.map (plainPage parse fs) := by
  induction rs generalizing cache with
  | nil => rfl
  | cons r rs ih =>
    obtain ⟨hpage, hnext⟩ := readRunLogPage_eq h (hrs r List.mem_cons_self)
    rw [readRunLogPages, List.map_cons]
    rw [← hpage, ← ih hnext fun r' hr' => hrs r' (List.mem_cons_of_mem _ hr')]

end Cache

section Pages

variable (parse : String → Option Json) (fs : String → Option LogFile)

def allPages (runId : String) (filter : RunLogFilter) (pageSize totalPages : Nat) : List Request :=
  (List.range totalPages).map fun i : Nat => ⟨runId, .number (i + 1), pageSize, filter⟩

def entriesOf (page : Option RunLogPage) : List Json := (page.map RunLogPage.entries).getD []

variable {parse fs} {runId : String} {file : LogFile} {filter : RunLogFilter} {pageSize : Nat}

theorem entriesOf_plainPage (hid : isRunId runId = true) (hfile : fs runId = some file) {i : Nat}
    (hi : i < totalPagesOf (matchingEntries parse file.lines filter).length pageSize) :
    entriesOf (plainPage parse fs ⟨runId, .number (i + 1), pageSize, filter⟩) =
      pageOf (matchingEntries parse file.lines filter) pageSize (i + 1) := by
  have hclamp : clampPage (.number (i + 1))
      (totalPagesOf (matchingEntries parse file.lines filter).length pageSize) = i + 1 := by
    simp only [clampPage]
    omega
  simp only [entriesOf, plainPage, hid, if_true, hfile, Option.map_some, Option.getD_some, plainTotals]
  rw [hclamp]

theorem flatMap_allPages (hid : isRunId runId = true) (hfile : fs runId = some file)
    (h : 1 ≤ pageSize) :
    ((allPages runId filter pageSize
        (totalPagesOf (matchingEntries parse file.lines filter).length pageSize)).map
      fun r => entriesOf (plainPage parse fs r)).flatten = matchingEntries parse file.lines filter := by
  rw [allPages, List.map_map]
  have hpages : (List.range (totalPagesOf (matchingEntries parse file.lines filter).length
        pageSize)).map ((fun r => entriesOf (plainPage parse fs r)) ∘
          fun i : Nat => (⟨runId, .number (i + 1), pageSize, filter⟩ : Request)) =
      (List.range (totalPagesOf (matchingEntries parse file.lines filter).length pageSize)).map
        fun i => pageOf (matchingEntries parse file.lines filter) pageSize (i + 1) := by
    apply List.map_congr_left
    intro i hi
    exact entriesOf_plainPage hid hfile (List.mem_range.mp hi)
  rw [hpages, flatten_pageOf]
  apply List.take_of_length_le
  by_cases hnil : (matchingEntries parse file.lines filter).length = 0
  · omega
  · exact (totalPagesOf_bounds (Nat.pos_of_ne_zero hnil) h).2

/-- Paging is slicing: any requests, in any order, are answered with the slices of the
filtered list; the tail kept by the scan is the range the second scan reads; and the pages
of a log, one after the other, are the filtered list. -/
theorem runLog_paging (parse : String → Option Json) (fs : String → Option LogFile) :
    (∀ rs : List Request, (∀ r ∈ rs, 1 ≤ r.pageSize) → readRunLogPages parse fs [] rs = rs.map (plainPage parse fs)) ∧
    (∀ (lines : List String) (filter : RunLogFilter) (pageSize : Nat), 1 ≤ pageSize →
      matchingEntries parse lines filter ≠ [] →
      let total := (scanTotalsAndTail parse lines filter pageSize).1.matchingEntries
      let startIndex := (totalPagesOf total pageSize - 1) * pageSize
      sliceLast (total - startIndex) (scanTotalsAndTail parse lines filter pageSize).2 =
        readValidNdjsonRange parse lines filter startIndex (startIndex + pageSize)) ∧
    (∀ (runId : String) (file : LogFile) (filter : RunLogFilter) (pageSize : Nat),
      isRunId runId = true → fs runId = some file → 1 ≤ pageSize →
      ((readRunLogPages parse fs [] (allPages runId filter pageSize
          (totalPagesOf (matchingEntries parse file.lines filter).length pageSize))).map
        entriesOf).flatten = matchingEntries parse file.lines filter) := by
  have hempty : Coherent parse fs [] := fun hit hmem => absurd hmem List.not_mem_nil
  refine ⟨fun rs hrs => readRunLogPages_eq hempty hrs, ?_, ?_⟩
  · intro lines filter pageSize h hne
    rw [scanTotalsAndTail_eq h]
    dsimp only [plainTotals]
    rw [readValidNdjsonRange_eq h]
    exact sliceLast_tail hne h
  · intro runId file filter pageSize hid hfile h
    have hsizes : ∀ r ∈ allPages runId filter pageSize
        (totalPagesOf (matchingEntries parse file.lines filter).length pageSize), 1 ≤ r.pageSize := by
      intro r hr
      obtain ⟨i, -, rfl⟩ := List.mem_map.mp hr
      exact h
    rw [readRunLogPages_eq hempty hsizes, List.map_map]
    exact flatMap_allPages hid hfile h

/-- A parser for the witness: the line is the type of an entry, `!` is a corrupt line. -/
def parseType (line : String) : Option Json :=
  if line = "!" then none else some (.obj (.ofList [("type", .str line)]))

theorem runLog_paging_corrupt_line : ∃ (fs : String → Option LogFile) (rs : List Request),
      (∀ r ∈ rs, 1 ≤ r.pageSize) ∧ readRunLogPages parseType fs [] rs = rs.map (plainPage parseType fs) ∧
      ((readRunLogPages parseType fs [] rs).map fun p => (entriesOf p).length) = [2, 1] := by
  let file : LogFile := ⟨["assistant", "!", "assistant", " ", "tool_call", "assistant"], 40, 1⟩
  let fs : String → Option LogFile := fun _ => some file
  let rs : List Request := allPages "run_1" .messages 2 2
  have hrs : ∀ r ∈ rs, 1 ≤ r.pageSize := by decide
  exact ⟨fs, rs, hrs, (runLog_paging parseType fs).1 rs hrs, by decide +kernel⟩

end Pages

end A2Wave.RunLog
