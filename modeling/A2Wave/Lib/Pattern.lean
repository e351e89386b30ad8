import A2Wave.Lib.JsText

/-! Regular expressions of JavaScript: how one matches at a place, and what `replace` makes of a
text. -/

namespace A2Wave.JsText

inductive Pattern
  | empty
  | char (p : Char → Bool)
  | many (p : Char → Bool)
  | seq (a b : Pattern)
  | alt (a b : Pattern)
  | opt (a : Pattern)
  | ahead (a : Pattern)
  | boundary
  | start
  | finish

namespace Pattern

/-- `p+`. -/
def plus (p : Char → Bool) : Pattern := .seq (.char p) (.many p)

/-- A word of a pattern: a `?` makes the character before it optional. -/
def word : Text → Pattern
  | [] => .empty
  | c :: '?' :: s => .seq (.opt (.char (· == c))) (word s)
  | c :: s => .seq (.char (· == c)) (word s)

/-- `w₁|w₂|…`. -/
def anyOf : List Text → Pattern
  | [] => .char fun _ => false
  | [w] => word w
  | w :: ws => .alt (word w) (anyOf ws)

def all (ps : List Pattern) : Pattern := ps.foldr .seq .empty

/-- `\b…\b`. -/
def bounded (p : Pattern) : Pattern := .seq .boundary (.seq p .boundary)

def isWordChar (c : Char) : Bool := c.isAlphanum || c == '_'

def manyWays (p : Char → Bool) : Text → List (Text × Text)
  | [] => [([], [])]
  | c :: s =>
    if p c then (manyWays p s).map (fun way => (c :: way.1, way.2)) ++ [([], c :: s)]
    else [([], c :: s)]

/-- What can be matched at a place and what is left then, in the order of the attempts.  The
character before the place is `before`. -/
def ways : Pattern → Option Char → Text → List (Text × Text)
  | empty, _, s => [([], s)]
  | char _, _, [] => []
  | char p, _, c :: s => if p c then [([c], s)] else []
  | many p, _, s => manyWays p s
  | seq a b, before, s =>
    (ways a before s).flatMap fun way =>
      (ways b (way.1.getLast? <|> before) way.2).map fun rest => (way.1 ++ rest.1, rest.2)
  | alt a b, before, s => ways a before s ++ ways b before s
  | opt a, before, s => ways a before s ++ [([], s)]
  | ahead a, before, s => if (ways a before s).isEmpty then [] else [([], s)]
  | boundary, before, s => if before.any isWordChar = s.head?.any isWordChar then [] else [([], s)]
  | start, before, s => if before.isSome then [] else [([], s)]
  | finish, _, s => if s.isEmpty then [([], s)] else []

def matchAt (p : Pattern) (before : Option Char) (s : Text) : Option Text :=
  (p.ways before s).head?.map (·.1)

def occursFrom (p : Pattern) : Option Char → Text → Bool
  | before, [] => (p.matchAt before []).isSome
  | before, c :: s => (p.matchAt before (c :: s)).isSome || occursFrom p (some c) s

def occurs (p : Pattern) (s : Text) : Bool := p.occursFrom none s

/-- `skip` characters belong to the last match. -/
def replaceAllFrom (p : Pattern) (f : Text → Text) : Nat → Option Char → Text → Text
  | _, before, [] => if (p.matchAt before []).isSome then f [] else []
  | skip + 1, _, c :: s => replaceAllFrom p f skip (some c) s
  | 0, before, c :: s =>
    match p.matchAt before (c :: s) with
    | none => c :: replaceAllFrom p f 0 (some c) s
    | some [] => f [] ++ c :: replaceAllFrom p f 0 (some c) s
    | some (d :: u) => f (d :: u) ++ replaceAllFrom p f u.length (some c) s

/-- `replace`, with the flag `g`. -/
def replaceAll (p : Pattern) (f : Text → Text) (s : Text) : Text := p.replaceAllFrom f 0 none s

def replaceFirstFrom (p : Pattern) (f : Text → Text) : Option Char → Text → Text
  | before, [] => if (p.matchAt before []).isSome then f [] else []
  | before, c :: s =>
    match p.matchAt before (c :: s) with
    | none => c :: replaceFirstFrom p f (some c) s
    | some u => f u ++ (c :: s).drop u.length

/-- `replace`, without the flag `g`. -/
def replaceFirst (p : Pattern) (f : Text → Text) (s : Text) : Text := p.replaceFirstFrom f none s

section Unchanged

variable {p : Pattern} {s : Text} (f : Text → Text)

theorem replaceAllFrom_of_not_occursFrom {before : Option Char}
    (h : p.occursFrom before s = false) : p.replaceAllFrom f 0 before s = s := by
  induction s generalizing before with
  | nil =>
    rw [occursFrom] at h
    rw [replaceAllFrom, h]
    rfl
  | cons c s ih =>
    rw [occursFrom, Bool.or_eq_false_iff] at h
    have hnone : p.matchAt before (c :: s) = none := by simpa using h.1
    rw [replaceAllFrom, hnone]
    simp only [ih h.2]

theorem replaceFirstFrom_of_not_occursFrom {before : Option Char}
    (h : p.occursFrom before s = false) : p.replaceFirstFrom f before s = s := by
  induction s generalizing before with
  | nil =>
    rw [occursFrom] at h
    rw [replaceFirstFrom, h]
    rfl
  | cons c s ih =>
    rw [occursFrom, Bool.or_eq_false_iff] at h
    have hnone : p.matchAt before (c :: s) = none := by simpa using h.1
    rw [replaceFirstFrom, hnone]
    simp only [ih h.2]

theorem replaceAll_of_not_occurs (h : p.occurs s = false) : p.replaceAll f s = s :=
  replaceAllFrom_of_not_occursFrom f h

theorem replaceFirst_of_not_occurs (h : p.occurs s = false) : p.replaceFirst f s = s :=
  replaceFirstFrom_of_not_occursFrom f h

end Unchanged

end Pattern

/-- The longest runs of characters of a kind, `match(/[…]+/g)`. -/
def runs (p : Char → Bool) (s : Text) : List Text := (s.splitOnP fun c => !p c).filter (· ≠ [])

theorem flatten_filter_ne_nil {α : Type} [DecidableEq α] (pieces : List (List α)) :
    (pieces.filter (· ≠ [])).flatten = pieces.flatten := by
  induction pieces with
  | nil => rfl
  | cons piece pieces ih =>
    cases piece with
    | nil => exact ih
    | cons c piece => rw [List.filter_cons_of_pos (by simp), List.flatten_cons, List.flatten_cons, ih]

theorem flatten_runs (p : Char → Bool) (s : Text) : (runs p s).flatten = s.filter p := by
  rw [runs, flatten_filter_ne_nil]
  induction s with
  | nil => rfl
  | cons c s ih =>
    rw [List.splitOnP_cons_eq_if_modifyHead]
    cases hc : p c with
    | false =>
      rw [List.filter_cons_of_neg (by simp [hc]), ← ih]
      rfl
    | true =>
      rw [List.filter_cons_of_pos hc, ← ih]
      cases hsplit : s.splitOnP fun c => !p c with
      | nil => exact absurd hsplit (List.splitOnP_ne_nil _ _)
      | cons piece pieces => rfl

end A2Wave.JsText
