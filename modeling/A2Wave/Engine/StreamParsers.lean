import A2Wave.Engine.CcStream
import A2Wave.Engine.CodexStream
import A2Wave.Engine.CursorStream
import A2Wave.Engine.KimiStream
import A2Wave.Engine.OpencodeStream
import A2Wave.Engine.PiStream

/-! The lines of a run, as the parser of its engine takes them. -/

namespace A2Wave.StreamParsers

open Utf16 (Text ascii)
open JsValue StreamLog

section Runs

structure LineParser where
  State : Type
  parseLine : State → Text → Except JsError State

def LineParser.feed (parser : LineParser) (s : parser.State) (lines : List Text) : Except JsError parser.State :=
  lines.foldlM parser.parseLine s

inductive Provider
  | cursor
  | codex
  | opencode
  | kimi
  | pi
  | claudeStyle (collectUsage : Bool)

variable {N : Type} (js : Numbers N)

def Provider.parser : Provider → LineParser
  | .cursor => ⟨List (CursorStream.ParsedCursorLine N), fun parsed line =>
      (CursorStream.parseCursorStreamLine js line).map fun r => parsed ++ [r]⟩
  | .codex => ⟨List (CodexStream.ParsedCodexLine N), fun parsed line =>
      (CodexStream.parseCodexStreamLine js line).map fun r => parsed ++ [r]⟩
  | .opencode => ⟨List (OpencodeStream.ParsedOpencodeLine N), fun parsed line =>
      (OpencodeStream.parseOpencodeStreamLine js line).map fun r => parsed ++ [r]⟩
  | .kimi => ⟨KimiStream.State × List (Effect N), fun s line =>
      (KimiStream.parseLine js s.1 line).map fun r => (r.1, s.2 ++ r.2)⟩
  | .pi => ⟨PiStream.State N × List (Effect N), fun s line =>
      .ok ((PiStream.parseLine js s.1 line).1, s.2 ++ (PiStream.parseLine js s.1 line).2)⟩
  | .claudeStyle collectUsage => ⟨CcStream.State N × List (Effect N), fun s line =>
      .ok ((CcStream.parseLine js collectUsage s.1 line).1, s.2 ++ (CcStream.parseLine js collectUsage s.1 line).2)⟩

def Provider.Accepts (provider : Provider) (line : Text) : Prop :=
  match provider with
  | .cursor => ∀ data ∈ Utf16.parse js.toNumberFormat line, CursorStream.Readable js (some data)
  | .codex => ∀ data ∈ Utf16.parse js.toNumberFormat line, nullish (some data) = false
  | _ => True

variable {js}

theorem isOk_map_iff {α β : Type} (x : Except JsError α) (f : α → β) : (x.map f).isOk = true ↔ x.isOk = true := by
  rw [isOk_map]

theorem isOk_parseLine (provider : Provider) (s : (provider.parser js).State) (line : Text) :
    ((provider.parser js).parseLine s line).isOk = true ↔ provider.Accepts js line := by
  cases provider with
  | cursor =>
    exact (isOk_map_iff _ _).trans (CursorStream.isOk_parseCursorStreamLine line)
  | codex =>
    exact (isOk_map_iff _ _).trans (CodexStream.isOk_parseCodexStreamLine line)
  | opencode =>
    exact (isOk_map_iff _ _).trans
      (iff_of_true (OpencodeStream.isOk_parseOpencodeStreamLine line) trivial)
  | kimi =>
    exact (isOk_map_iff _ _).trans (iff_of_true (KimiStream.isOk_parseLine s.1 line) trivial)
  | pi | claudeStyle collectUsage => exact iff_of_true rfl trivial

/-- Whatever the parser has read before, the lines are parsed to their end if and only if each
of them has the shape that is taken for granted. -/
theorem feed_isOk_iff (provider : Provider) (s : (provider.parser js).State) (lines : List Text) :
    ((provider.parser js).feed s lines).isOk = true ↔ ∀ line ∈ lines, provider.Accepts js line := by
  induction lines generalizing s with
  | nil => exact iff_of_true rfl nofun
  | cons line lines ih =>
    have hline := isOk_parseLine provider s line
    rw [List.forall_mem_cons, ← hline, LineParser.feed, List.foldlM_cons]
    cases (provider.parser js).parseLine s line with
    | error e => exact iff_of_false Bool.false_ne_true fun h => absurd h.1 Bool.false_ne_true
    | ok s' => exact (ih s').trans ⟨fun h => ⟨rfl, h⟩, fun h => h.2⟩

theorem null_line_throws : ¬∀ (provider : Provider) (s : (provider.parser wholeNumbers).State) (line : Text),
      ((provider.parser wholeNumbers).parseLine s line).isOk = true := by
  intro h
  have hnull : (CursorStream.parseCursorStreamLine wholeNumbers (ascii "null")).isOk = false := by
    decide
  have hok : (CursorStream.parseCursorStreamLine wholeNumbers (ascii "null")).isOk = true :=
    (isOk_map_iff _ fun r => [] ++ [r]).mp (h .cursor [] (ascii "null"))
  rw [hnull] at hok
  cases hok

end Runs

end A2Wave.StreamParsers
