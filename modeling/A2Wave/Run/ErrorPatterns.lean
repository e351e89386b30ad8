import Mathlib.Data.List.Basic

/-! How `lib/execute-with-retry.ts` classifies the text of an error.  `lower` is `toLowerCase`. -/

namespace A2Wave.ErrorPatterns

inductive Atom
  | text (s : String)
  | oneOf (ss : List String)
  | optional (c : Char)
  | wordBoundary
  | startOrNonDigit
  | endOrNonDigit
  | start
  | finish
  | anything

inductive ErrorPattern
  | substring (s : String)
  | regExp (atoms : List Atom)

structure Place where
  before : Option Char
  rest : List Char

def Place.all : Option Char → List Char → List Place
  | before, [] => [⟨before, []⟩]
  | before, c :: cs => ⟨before, c :: cs⟩ :: Place.all (some c) cs

def Place.skip : List Char → Place → Option Place
  | [], p => some p
  | c :: cs, p =>
    match p.rest with
    | d :: ds => if c = d then Place.skip cs ⟨some d, ds⟩ else none
    | [] => none

def isWordChar (c : Char) : Bool := c.isAlphanum || c = '_'

def isLineEnd (c : Char) : Bool := c.toNat = 0x0a || c.toNat = 0x0d || c.toNat = 0x2028 || c.toNat = 0x2029

/-- The places that `.*` can reach. -/
def Place.within : Option Char → List Char → List Place
  | before, [] => [⟨before, []⟩]
  | before, c :: cs => ⟨before, c :: cs⟩ :: if isLineEnd c then [] else Place.within (some c) cs

def Place.nonDigit (p : Place) : List Place :=
  match p.rest with
  | c :: cs => if c.isDigit then [] else [⟨some c, cs⟩]
  | [] => []

def Atom.step (p : Place) : Atom → List Place
  | .text s => (p.skip s.toList).toList
  | .oneOf ss => ss.filterMap fun s => p.skip s.toList
  | .optional c => (p.skip [c]).toList ++ [p]
  | .wordBoundary => if p.before.any isWordChar = p.rest.head?.any isWordChar then [] else [p]
  | .startOrNonDigit => (if p.before.isNone then [p] else []) ++ p.nonDigit
  | .endOrNonDigit => (if p.rest.isEmpty then [p] else []) ++ p.nonDigit
  | .start => if p.before.isNone then [p] else []
  | .finish => if p.rest.isEmpty then [p] else []
  | .anything => Place.within p.before p.rest

def matchesAt : List Atom → Place → Bool
  | [], _ => true
  | atom :: atoms, p => (atom.step p).any (matchesAt atoms)

def ErrorPattern.test (text : String) : ErrorPattern → Bool
  | substring s => (Place.all none text.toList).any (matchesAt [.text s])
  | regExp atoms => (Place.all none text.toList).any (matchesAt atoms)

def NUMERIC_BOUNDARY (n : String) : ErrorPattern := .regExp [.startOrNonDigit, .text n, .endOrNonDigit]

def word (s : String) : ErrorPattern := .regExp [.wordBoundary, .text s, .wordBoundary]

def PERMANENT_ERROR_PATTERNS : List ErrorPattern :=
  [NUMERIC_BOUNDARY "401", NUMERIC_BOUNDARY "403", .substring "unauthorized", .substring "forbidden",
    .substring "permission denied", .substring "content policy", word "safety", word "worktree",
    .substring "scm source"]

def SOFT_RATELIMIT_PATTERNS : List ErrorPattern :=
  [NUMERIC_BOUNDARY "429", .substring "rate limit", .substring "too many requests"]

def HARD_QUOTA_PATTERNS : List ErrorPattern :=
  ["session limit", "hit your session", "session_limit", "daily limit", "weekly limit", "monthly limit", "quota",
    "usage limit"].map .substring

def CAPABILITY_FALLBACK_PATTERNS : List ErrorPattern :=
  [.regExp [.start, .text "empty tool list", .finish], .regExp [.start, .text "tool list empty", .finish],
    .substring "tool calling is not supported",
    .substring "tools are not supported",
    .substring "does not support tools",
    .regExp [.wordBoundary, .text "unsupported tool", .optional 's', .wordBoundary],
    .regExp [.wordBoundary, .oneOf ["invalid", "unsupported", "incompatible"], .text " tool schema", .wordBoundary],
    .regExp [.wordBoundary, .text "tool schema", .wordBoundary, .anything, .wordBoundary,
      .oneOf ["invalid", "unsupported", "incompatible", "not supported", "rejected"], .wordBoundary],
    .substring "schema incompatible",
    .regExp [.wordBoundary, .text "mcp tool", .optional 's', .wordBoundary, .anything, .wordBoundary,
      .oneOf ["not supported", "unsupported", "incompatible", "disabled"], .wordBoundary]]

def DETERMINISTIC_MODEL_FALLBACK_PATTERNS : List ErrorPattern :=
  ["invalid model", "model not found", "unknown model", "unsupported model"].map .substring

def ACCOUNT_PROVIDER_FALLBACK_PATTERNS : List ErrorPattern := SOFT_RATELIMIT_PATTERNS ++ HARD_QUOTA_PATTERNS

def PROVIDER_FALLBACK_PATTERNS : List ErrorPattern :=
  ACCOUNT_PROVIDER_FALLBACK_PATTERNS ++ CAPABILITY_FALLBACK_PATTERNS ++ DETERMINISTIC_MODEL_FALLBACK_PATTERNS

section Classes

variable (lower : String → String) (error : Option String)

def matchAnyPattern (patterns : List ErrorPattern) : Bool :=
  (error.filter (· ≠ "")).any fun error => patterns.any (ErrorPattern.test (lower error))

def isPermanentError : Bool :=
  !matchAnyPattern lower error ACCOUNT_PROVIDER_FALLBACK_PATTERNS && matchAnyPattern lower error PERMANENT_ERROR_PATTERNS

def isProviderFallbackableError : Bool :=
  !isPermanentError lower error && matchAnyPattern lower error PROVIDER_FALLBACK_PATTERNS

def isHardQuotaError : Bool := matchAnyPattern lower error HARD_QUOTA_PATTERNS

def isCapabilityOrModelError : Bool :=
  matchAnyPattern lower error (CAPABILITY_FALLBACK_PATTERNS ++ DETERMINISTIC_MODEL_FALLBACK_PATTERNS)

variable {lower error}

theorem not_permanent_of_fallbackable (h : isProviderFallbackableError lower error = true) :
    isPermanentError lower error = false := by
  rw [isProviderFallbackableError, Bool.and_eq_true, Bool.not_eq_true'] at h
  exact h.1

end Classes

example : isPermanentError id (some "http 403 from the gateway") = true ∧
    isPermanentError id (some "took 4031 ms") = false ∧
    isPermanentError id (some "403: usage limit reached") = false := by decide +kernel

end A2Wave.ErrorPatterns
