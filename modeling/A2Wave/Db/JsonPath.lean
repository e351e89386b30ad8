import A2Wave.Lib.Utf16Text

/-! Paths into JSON columns, as one text for SQLite and as a chain of operators for PostgreSQL. -/

namespace A2Wave.JsonPath

open Utf16 (Text ascii)

section Paths

def dot : UInt16 := 0x2e
def openBracket : UInt16 := 0x5b
def closeBracket : UInt16 := 0x5d
def quoteMark : UInt16 := 0x22
def dollar : UInt16 := 0x24
def nul : UInt16 := 0

structure Path where
  head : Text
  tail : List Text

def Path.segments (path : Path) : List Text := path.head :: path.tail

def isDialectDivergentSegment (segment : Text) : Bool :=
  segment.length == 0 || segment.contains dot || segment.contains openBracket ||
    segment.contains nul || segment.head? == some quoteMark

def segmentError (helper segment : Text) : Text :=
  ascii "json-sql: " ++ helper ++ ascii " received the path segment " ++ Utf16.quote segment ++
    ascii ", which SQLite reads as path syntax ('.'/'[' descend, a leading '\"' opens a quoted label, a NUL " ++
    ascii "truncates the key, an empty label is invalid) while PostgreSQL binds it as a literal key " ++
    ascii "— the two backends would address different data."

def assertSafePath (segments : List Text) (helper : Text) : Except Text Unit :=
  match segments with
  | [] => .ok ()
  | segment :: segments =>
    if isDialectDivergentSegment segment then .error (segmentError helper segment)
    else assertSafePath segments helper

/-- `$.` and the segments with dots between them. -/
def sqlitePath (path : Path) : Text := ascii "$." ++ [dot].intercalate path.segments

structure Column where
  name : String
  dataType : String

/-- A PostgreSQL expression; `arrow` is `->`, which yields JSON, and `arrowText` is `->>`. -/
inductive PgExpr
  | column (name : String)
  | castJsonb (name : String)
  | arrow (e : PgExpr) (segment : Text)
  | arrowText (e : PgExpr) (segment : Text)

def pgJsonSource (column : Column) : PgExpr :=
  if column.dataType = "json" then .column column.name else .castJsonb column.name

def pgAccessor (column : Column) (path : Path) : PgExpr :=
  .arrowText (path.segments.dropLast.foldl PgExpr.arrow (pgJsonSource column))
    (path.segments.getLast (List.cons_ne_nil _ _))

end Paths

section Grammar

inductive Step
  | key (label : Text)
  | index (n : Nat)
  | fromEnd (n : Nat)
  deriving DecidableEq

def endsLabel (u : UInt16) : Bool := u == dot || u == openBracket

def parseLabel : Text → Option (Text × Text)
  | [] => none
  | u :: s =>
    if u = quoteMark then
      match s.dropWhile (· ≠ quoteMark) with
      | [] => none
      | _ :: rest => some (s.takeWhile (· ≠ quoteMark), rest)
    else
      match (u :: s).takeWhile (!endsLabel ·) with
      | [] => none
      | label => some (label, (u :: s).dropWhile (!endsLabel ·))

def decimal? (s : Text) : Option Nat :=
  if s ≠ [] ∧ s.all Utf16.isDigit = true then
    some (s.foldl (fun n u => 10 * n + (u.toNat - 0x30)) 0)
  else none

/-- What stands between brackets: a number, `#`, or `#-` and a number. -/
def indexOf (s : Text) : Option Step :=
  if s = ascii "#" then some (.fromEnd 0)
  else if (ascii "#-").isPrefixOf s then (decimal? (s.drop 2)).map Step.fromEnd
  else (decimal? s).map Step.index

def parseIndex (s : Text) : Option (Step × Text) :=
  match s.dropWhile (· ≠ closeBracket) with
  | [] => none
  | _ :: rest => (indexOf (s.takeWhile (· ≠ closeBracket))).map fun step => (step, rest)

def parseSteps : Nat → Text → Option (List Step)
  | 0, _ => none
  | _ + 1, [] => some []
  | fuel + 1, u :: s =>
    if u = dot then do
      let (label, rest) ← parseLabel s
      let steps ← parseSteps fuel rest
      return .key label :: steps
    else if u = openBracket then do
      let (step, rest) ← parseIndex s
      let steps ← parseSteps fuel rest
      return step :: steps
    else none

def sqliteSteps (path : Text) : Option (List Step) :=
  match path.takeWhile (· ≠ nul) with
  | [] => none
  | u :: s => if u = dollar then parseSteps (s.length + 1) s else none

def PgExpr.keys : PgExpr → List Text
  | .column _ => []
  | .castJsonb _ => []
  | .arrow e segment => e.keys ++ [segment]
  | .arrowText e segment => e.keys ++ [segment]

end Grammar

section Labels

variable {segment rest : Text}

structure Literal (segment : Text) : Prop where
  ne_nil : segment ≠ []
  dot : dot ∉ segment
  openBracket : openBracket ∉ segment
  nul : nul ∉ segment
  quoteMark : segment.head? ≠ some quoteMark

theorem literal_iff : isDialectDivergentSegment segment = false ↔ Literal segment := by
  constructor
  · intro h
    simp only [isDialectDivergentSegment, Bool.or_eq_false_iff, beq_eq_false_iff_ne, Ne,
      List.length_eq_zero_iff, List.contains_eq_mem, decide_eq_false_iff_not] at h
    exact ⟨h.1.1.1.1, h.1.1.1.2, h.1.1.2, h.1.2, h.2⟩
  · intro h
    simp only [isDialectDivergentSegment, Bool.or_eq_false_iff, beq_eq_false_iff_ne, Ne,
      List.length_eq_zero_iff, List.contains_eq_mem, decide_eq_false_iff_not]
    exact ⟨⟨⟨⟨h.ne_nil, h.dot⟩, h.openBracket⟩, h.nul⟩, h.quoteMark⟩

theorem endsLabel_eq_false {u : UInt16} : (!endsLabel u) = true ↔ u ≠ dot ∧ u ≠ openBracket := by
  simp [endsLabel]

theorem Literal.all_label (h : Literal segment) : ∀ u ∈ segment, (!endsLabel u) = true :=
  fun _ hu => endsLabel_eq_false.mpr
    ⟨fun heq => h.dot (heq ▸ hu), fun heq => h.openBracket (heq ▸ hu)⟩

theorem parseLabel_literal (h : Literal segment) (hrest : ∀ u ∈ rest.head?, endsLabel u = true) :
    parseLabel (segment ++ rest) = some (segment, rest) := by
  have htake : rest.takeWhile (!endsLabel ·) = [] := by
    cases rest with
    | nil => rfl
    | cons u rest => rw [List.takeWhile_cons, hrest u rfl]; rfl
  have hdrop : rest.dropWhile (!endsLabel ·) = rest := by
    cases rest with
    | nil => rfl
    | cons u rest => rw [List.dropWhile_cons, hrest u rfl]; rfl
  have hlabel : (segment ++ rest).takeWhile (!endsLabel ·) = segment := by
    rw [List.takeWhile_append_of_pos h.all_label, htake, List.append_nil]
  have hafter : (segment ++ rest).dropWhile (!endsLabel ·) = rest := by
    rw [List.dropWhile_append_of_pos h.all_label, hdrop]
  cases segment with
  | nil => exact absurd rfl h.ne_nil
  | cons u segment =>
    have hu : u ≠ quoteMark := fun heq => h.quoteMark (congrArg some heq)
    rw [List.cons_append] at hlabel hafter ⊢
    rw [parseLabel, if_neg hu, hlabel, hafter]

theorem literal_of_parseLabel
    (h : parseLabel (segment.takeWhile (· ≠ nul)) = some (segment, rest)) : Literal segment := by
  have hprefix : segment.takeWhile (· ≠ nul) <+: segment := List.takeWhile_prefix _
  have hmem : ∀ u ∈ segment.takeWhile (· ≠ nul), u ≠ nul := fun u hu => by
    simpa using List.mem_takeWhile_imp hu
  generalize segment.takeWhile (· ≠ nul) = t at h hprefix hmem
  cases t with
  | nil => cases h
  | cons u s =>
    rw [parseLabel] at h
    split at h
    · rename_i hu
      split at h
      · cases h
      · have hlabel := (Prod.mk.inj (Option.some.inj h)).1
        have hle : (s.takeWhile (· ≠ quoteMark)).length ≤ s.length :=
          (List.takeWhile_prefix _).length_le
        have hlt := hprefix.length_le
        rw [List.length_cons, ← hlabel] at hlt
        omega
    · rename_i hu
      split at h
      · cases h
      · have hlabel := (Prod.mk.inj (Option.some.inj h)).1
        have hle : segment.length ≤ (u :: s).length := by
          rw [← hlabel]
          exact (List.takeWhile_prefix _).length_le
        have hwhole : u :: s = segment :=
          hprefix.eq_of_length (Nat.le_antisymm hprefix.length_le hle)
        have hends : ∀ v ∈ segment, v ≠ dot ∧ v ≠ openBracket := by
          intro v hv
          rw [← hlabel] at hv
          exact endsLabel_eq_false.mp (@List.mem_takeWhile_imp _ (!endsLabel ·) _ _ hv)
        rw [← hwhole] at hends ⊢
        exact ⟨List.cons_ne_nil _ _, fun hd => (hends _ hd).1 rfl, fun hb => (hends _ hb).2 rfl,
          fun hn => hmem _ hn rfl, fun hq => hu (Option.some.inj hq)⟩

end Labels

section Paths

def dotted (segments : List Text) : Text := segments.flatMap (dot :: ·)

theorem sqlitePath_eq (path : Path) : sqlitePath path = dollar :: dotted path.segments := by
  have hjoin : ∀ segments : List Text, segments ≠ [] →
      dot :: [dot].intercalate segments = dotted segments := by
    intro segments hne
    induction segments with
    | nil => exact absurd rfl hne
    | cons segment segments ih =>
      cases segments with
      | nil => rw [List.intercalate_singleton, dotted, List.flatMap_singleton]
      | cons next segments =>
        rw [List.intercalate_cons_cons, dotted, List.flatMap_cons, ← dotted,
          ← ih (List.cons_ne_nil _ _), List.append_assoc]
        rfl
  rw [sqlitePath, ← hjoin path.segments (List.cons_ne_nil _ _)]
  rfl

variable {segments : List Text}

theorem head?_dotted : ∀ u ∈ (dotted segments).head?, endsLabel u = true := by
  intro u hu
  cases segments with
  | nil => cases hu
  | cons segment segments =>
    cases hu
    rfl

theorem parseSteps_dotted (h : ∀ segment ∈ segments, Literal segment)
    {fuel : Nat} (hfuel : segments.length < fuel) :
    parseSteps fuel (dotted segments) = some (segments.map .key) := by
  induction segments generalizing fuel with
  | nil =>
    cases fuel with
    | zero => exact absurd hfuel (Nat.not_lt_zero _)
    | succ fuel => rfl
  | cons segment segments ih =>
    cases fuel with
    | zero => exact absurd hfuel (Nat.not_lt_zero _)
    | succ fuel =>
      rw [List.forall_mem_cons] at h
      have hlabel := parseLabel_literal h.1 (@head?_dotted segments)
      rw [dotted, List.flatMap_cons, ← dotted, List.cons_append, parseSteps, if_pos rfl, hlabel]
      simp only [Option.bind_eq_bind, Option.bind_some]
      rw [ih h.2 (Nat.lt_of_succ_lt_succ hfuel)]
      rfl

theorem length_le_dotted (segments : List Text) : segments.length ≤ (dotted segments).length := by
  induction segments with
  | nil => exact Nat.le_refl 0
  | cons segment segments ih =>
    rw [dotted, List.flatMap_cons, ← dotted, List.length_append, List.length_cons, List.length_cons]
    omega

theorem nul_not_mem_dotted (h : ∀ segment ∈ segments, Literal segment) : ∀ u ∈ dotted segments, u ≠ nul := by
  intro u hu
  obtain ⟨segment, hsegment, hu⟩ := List.mem_flatMap.mp hu
  rcases List.mem_cons.mp hu with rfl | hu
  · decide
  · rintro rfl
    exact (h segment hsegment).nul hu

theorem sqliteSteps_literal {path : Path} (h : ∀ segment ∈ path.segments, Literal segment) :
    sqliteSteps (sqlitePath path) = some (path.segments.map .key) := by
  have htake : (dollar :: dotted path.segments).takeWhile (· ≠ nul) =
      dollar :: dotted path.segments := by
    rw [List.takeWhile_eq_self_iff]
    intro u hu
    rcases List.mem_cons.mp hu with rfl | hu
    · decide
    · exact decide_eq_true (nul_not_mem_dotted h u hu)
  rw [sqlitePath_eq, sqliteSteps, htake]
  exact parseSteps_dotted h (Nat.lt_succ_of_le (length_le_dotted _))

theorem sqliteSteps_divergent {segment : Text} (h : ¬Literal segment) :
    sqliteSteps (sqlitePath ⟨segment, []⟩) ≠ some [.key segment] := by
  intro hsteps
  have htake : (dollar :: dot :: segment).takeWhile (· ≠ nul) =
      dollar :: dot :: segment.takeWhile (· ≠ nul) := by
    rw [List.takeWhile_cons_of_pos (by decide), List.takeWhile_cons_of_pos (by decide)]
  have hpath : sqlitePath ⟨segment, []⟩ = dollar :: dot :: segment := by
    rw [sqlitePath_eq, Path.segments, dotted, List.flatMap_singleton]
  rw [hpath, sqliteSteps, htake] at hsteps
  change parseSteps _ (dot :: segment.takeWhile (· ≠ nul)) = _ at hsteps
  rw [parseSteps, if_pos rfl] at hsteps
  obtain ⟨⟨label, rest⟩, hlabel, hrest⟩ := Option.bind_eq_some_iff.mp hsteps
  obtain ⟨steps, -, hkey⟩ := Option.bind_eq_some_iff.mp hrest
  obtain ⟨hstep, -⟩ := List.cons.inj (Option.some.inj hkey)
  obtain rfl := Step.key.inj hstep
  exact h (literal_of_parseLabel hlabel)

theorem keys_foldl (segments : List Text) (e : PgExpr) :
    (segments.foldl PgExpr.arrow e).keys = e.keys ++ segments := by
  induction segments generalizing e with
  | nil => rw [List.foldl_nil, List.append_nil]
  | cons segment segments ih =>
    rw [List.foldl_cons, ih, PgExpr.keys, List.append_assoc, List.singleton_append]

theorem keys_pgAccessor (column : Column) (path : Path) : (pgAccessor column path).keys = path.segments := by
  have hsource : (pgJsonSource column).keys = [] := by
    rw [pgJsonSource]
    split <;> rfl
  rw [pgAccessor, PgExpr.keys, keys_foldl, hsource, List.nil_append]
  exact List.dropLast_append_getLast _

theorem literal_of_assertSafePath {helper : Text}
    (h : assertSafePath segments helper = .ok ()) : ∀ segment ∈ segments, Literal segment := by
  induction segments with
  | nil => exact fun _ hs => absurd hs List.not_mem_nil
  | cons segment segments ih =>
    rw [assertSafePath] at h
    split at h
    · cases h
    · rename_i hsegment
      rw [List.forall_mem_cons]
      exact ⟨literal_iff.mp (Bool.eq_false_of_not_eq_true hsegment), ih h⟩

/-- An accepted path has the same keys in both, and every segment that is not accepted stands in
a path of which SQLite reads other steps or none. -/
theorem paths_agree (column : Column) :
    (∀ (path : Path) (helper : Text), assertSafePath path.segments helper = .ok () →
      sqliteSteps (sqlitePath path) = some ((pgAccessor column path).keys.map .key) ∧
        (pgAccessor column path).keys = path.segments) ∧
      ∀ segment, isDialectDivergentSegment segment = true → ∃ path : Path, segment ∈ path.segments ∧
          sqliteSteps (sqlitePath path) ≠ some ((pgAccessor column path).keys.map .key) := by
  constructor
  · intro path helper h
    rw [keys_pgAccessor]
    exact ⟨sqliteSteps_literal (literal_of_assertSafePath h), rfl⟩
  · intro segment h
    refine ⟨⟨segment, []⟩, List.mem_cons_self, ?_⟩
    rw [keys_pgAccessor]
    apply sqliteSteps_divergent
    intro hliteral
    rw [literal_iff.mpr hliteral] at h
    cases h

theorem paths_agree_inputTokens :
    assertSafePath [ascii "usage", ascii "inputTokens"] (ascii "jsonExtractNumber") = .ok () ∧
      sqliteSteps (sqlitePath ⟨ascii "usage", [ascii "inputTokens"]⟩) =
        some ((pgAccessor ⟨"metadata", "json"⟩ ⟨ascii "usage", [ascii "inputTokens"]⟩).keys.map
          .key) :=
  ⟨rfl, ((paths_agree ⟨"metadata", "json"⟩).1 ⟨ascii "usage", [ascii "inputTokens"]⟩
    (ascii "jsonExtractNumber") rfl).1⟩

end Paths

end A2Wave.JsonPath
