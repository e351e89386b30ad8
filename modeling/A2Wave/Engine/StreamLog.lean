import Mathlib.Data.List.ReduceOption
import A2Wave.Lib.JsValue

/-! What the parsers of the engines' output report: log entries, token usage and the output of
tools. -/

namespace A2Wave.StreamLog

open Utf16 (Text ascii)
open JsValue

section Usage

inductive UsageField
  | inputTokens
  | outputTokens
  | reasoningTokens
  | cacheReadTokens
  | cacheWriteTokens
  deriving DecidableEq

def tokenUsageFields : List UsageField :=
  [.inputTokens, .outputTokens, .reasoningTokens, .cacheReadTokens, .cacheWriteTokens]

abbrev TokenUsage (N : Type) := UsageField → Option N

variable {N : Type}

def TokenUsage.empty : TokenUsage N := fun _ => none

/-- `Object.keys(out).length > 0 ? out : undefined`. -/
def TokenUsage.reported (out : TokenUsage N) : Option (TokenUsage N) :=
  if tokenUsageFields.any fun field => (out field).isSome then some out else none

def extractClaudeStyleUsage (data : Val N) : Option (TokenUsage N) :=
  match asObject (getProp data "usage") with
  | none => none
  | some usage =>
    TokenUsage.reported fun
      | .inputTokens => number? (usage.get? (ascii "input_tokens"))
      | .outputTokens => number? (usage.get? (ascii "output_tokens"))
      | .reasoningTokens => none
      | .cacheReadTokens => number? (usage.get? (ascii "cache_read_input_tokens"))
      | .cacheWriteTokens => number? (usage.get? (ascii "cache_creation_input_tokens"))

variable (js : Numbers N)

def accumulateField (delta : TokenUsage N) (out : Option (TokenUsage N)) (field : UsageField) :
    Option (TokenUsage N) :=
  match delta field with
  | none => out
  | some value =>
    let base := out.getD TokenUsage.empty
    some (Function.update base field (some (js.add ((base field).getD js.zero) value)))

def accumulateUsage (target : Option (TokenUsage N)) (delta : TokenUsage N) : Option (TokenUsage N) :=
  tokenUsageFields.foldl (accumulateField js delta) target

/-- `(old ?? 0) + delta`, where no delta leaves the old value. -/
def addTokens (old delta : Option N) : Option N :=
  match delta with
  | none => old
  | some value => some (js.add (old.getD js.zero) value)

def sumReported (values : List (Option N)) : Option N :=
  if values.reduceOption = [] then none else some (values.reduceOption.foldl js.add js.zero)

variable {js}

def TokenUsage.read (usage : Option (TokenUsage N)) (field : UsageField) : Option N :=
  usage.bind (· field)

theorem read_accumulateField (delta : TokenUsage N) (out : Option (TokenUsage N))
    (field f : UsageField) :
    TokenUsage.read (accumulateField js delta out field) f =
      if f = field then addTokens js (TokenUsage.read out f) (delta f)
      else TokenUsage.read out f := by
  have hbase : (out.getD TokenUsage.empty) f = TokenUsage.read out f := by
    cases out <;> rfl
  rw [accumulateField]
  split
  · rename_i hnone
    split
    · rename_i hf
      rw [hf, hnone]
      rfl
    · rfl
  · rename_i value hsome
    change Function.update _ field _ f = _
    rw [Function.update_apply, hbase]
    split
    · rename_i hf
      subst hf
      rw [hsome, hbase]
      rfl
    · rfl

theorem read_foldl_accumulateField (delta : TokenUsage N) {fields : List UsageField}
    (hnodup : fields.Nodup) (out : Option (TokenUsage N)) (f : UsageField) :
    TokenUsage.read (fields.foldl (accumulateField js delta) out) f =
      if f ∈ fields then addTokens js (TokenUsage.read out f) (delta f)
      else TokenUsage.read out f := by
  induction fields generalizing out with
  | nil => simp
  | cons field fields ih =>
    obtain ⟨hnot, hnodup⟩ := List.nodup_cons.mp hnodup
    rw [List.foldl_cons, ih hnodup, read_accumulateField]
    by_cases hf : f = field
    · subst hf
      simp [hnot]
    · simp [hf]

theorem read_accumulateUsage (target : Option (TokenUsage N)) (delta : TokenUsage N)
    (f : UsageField) :
    TokenUsage.read (accumulateUsage js target delta) f = addTokens js (TokenUsage.read target f) (delta f) := by
  have hmem : f ∈ tokenUsageFields := by cases f <;> decide
  rw [accumulateUsage, read_foldl_accumulateField delta (by decide), if_pos hmem]

theorem read_reported (out : TokenUsage N) (f : UsageField) : TokenUsage.read out.reported f = out f := by
  have hmem : f ∈ tokenUsageFields := by cases f <;> decide
  rw [TokenUsage.reported]
  split
  · rfl
  · rename_i hnone
    cases hf : out f with
    | none => rfl
    | some v => exact absurd (List.any_eq_true.mpr ⟨f, hmem, by rw [hf]; rfl⟩) hnone

theorem sumReported_append (values : List (Option N)) (value : Option N) :
    sumReported js (values ++ [value]) = addTokens js (sumReported js values) value := by
  rw [sumReported, sumReported, List.reduceOption_append]
  cases value with
  | none => rw [List.reduceOption_singleton, Option.toList_none, List.append_nil]; rfl
  | some v =>
    rw [List.reduceOption_singleton, Option.toList_some, List.foldl_append,
      if_neg (List.append_ne_nil_of_right_ne_nil _ (List.cons_ne_nil _ _))]
    split
    · rename_i hnil
      rw [hnil]
      rfl
    · rfl

theorem foldl_addTokens (values : List (Option N)) : values.foldl (addTokens js) none = sumReported js values := by
  induction values using List.reverseRecOn with
  | nil => rfl
  | append_singleton values value ih =>
    rw [List.foldl_append, ih, sumReported_append]
    rfl

end Usage

section ToolOutput

def toolOutputMaxChars : Nat := 8192

def capToolOutput (text : Text) : Text :=
  if text.length ≤ toolOutputMaxChars then text
  else text.take toolOutputMaxChars ++ ascii "… [truncated]"

variable {N : Type}

def toolResultText (raw : Val N) : Option Text :=
  match text? raw with
  | some text => if text = [] then none else some (capToolOutput text)
  | none =>
    match asArray raw with
    | none => none
    | some blocks =>
      let texts := blocks.filterMap fun block => nonEmptyText? (getProp (some block) "text")
      let text := [Utf16.newline].intercalate texts
      if text = [] then none else some (capToolOutput text)

end ToolOutput

section Entries

inductive CallSubtype
  | started
  | completed
  | failed
  deriving DecidableEq

variable (N : Type)

inductive StreamLogEntry
  | system (subtype model : Val N)
  | assistant (text : Text) (isPartial : Bool)
  | toolCall (subtype : CallSubtype) (callId toolName : Val N) (input : Option (Utf16.Fields N))
      (error output : Option Text)
  | result (subtype : String) (durationMs : Option N) (usage : Option (TokenUsage N))
  | error (message : Val N)
  | retry (attempt nextAttemptIn : N)

inductive Effect
  | onUpdate (content : Text)
  | onLogEntry (entry : StreamLogEntry N)
  | heartbeatStarted (callId toolName : Val N)
  | heartbeatSettled (callId : Val N)

end Entries

section ToolNames

variable {K V : Type} (same : K → K → Bool)

/-- `names.get(k)`. -/
def nameOf (names : List (K × V)) (k : K) : Option V := (names.find? fun e => same e.1 k).map (·.2)

/-- `names.delete(k)`. -/
def dropName (names : List (K × V)) (k : K) : List (K × V) := names.filter fun e => !same e.1 k

/-- `names.set(k, v)`. -/
def putName (names : List (K × V)) (k : K) (v : V) : List (K × V) :=
  if names.any fun e => same e.1 k then names.map fun e => if same e.1 k then (e.1, v) else e
  else names ++ [(k, v)]

variable {N : Type} (js : Numbers N)

def sameKey : Val N → Val N → Bool
  | none, none => true
  | some .null, some .null => true
  | some (.bool b), some (.bool c) => b == c
  | some (.num n), some (.num m) => js.same n m
  | some (.str s), some (.str t) => s == t
  | _, _ => false

def forEach {σ α ε : Type} (step : σ → α → Except ε (σ × List (Effect N))) :
    σ → List α → Except ε (σ × List (Effect N))
  | s, [] => .ok (s, [])
  | s, a :: as => do
    let first ← step s a
    let later ← forEach step first.1 as
    return (later.1, first.2 ++ later.2)

def forEachOk {σ α : Type} (step : σ → α → σ × List (Effect N)) : σ → List α → σ × List (Effect N)
  | s, [] => (s, [])
  | s, a :: as =>
    let first := step s a
    let later := forEachOk step first.1 as
    (later.1, first.2 ++ later.2)

theorem isOk_forEach {σ α : Type} {step : σ → α → Except JsError (σ × List (Effect N))}
    (hstep : ∀ s a, (step s a).isOk = true) (s : σ) (as : List α) :
    (forEach step s as).isOk = true := by
  induction as generalizing s with
  | nil => rfl
  | cons a as ih =>
    rw [forEach]
    have ha := hstep s a
    cases hr : step s a with
    | error e =>
      rw [hr] at ha
      cases ha
    | ok first =>
      change (forEach step first.1 as >>= fun later => pure _).isOk = true
      rw [isOk_bind_return, ih]

end ToolNames

end A2Wave.StreamLog
