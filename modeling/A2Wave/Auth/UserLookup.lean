import A2Wave.Lib.JsText

/-! The search for users by a keyword. -/

namespace A2Wave.UserLookup

open JsText (Text)

/-- Every `c` gets a `!` before it, which is `ESCAPE_CHAR`. -/
def escapeSign (c : Char) (s : Text) : Text := s.flatMap fun u => if u = c then ['!', u] else [u]

def escapeLikePattern (input : Text) : Text := escapeSign '_' (escapeSign '%' (escapeSign '!' input))

/-- `text LIKE pattern ESCAPE '!'`. -/
def like : Text → Text → Bool
  | [], text => text.isEmpty
  | '%' :: pattern, text => text.tails.any (like pattern)
  | '_' :: pattern, text => text.tail?.any (like pattern)
  | ['!'], _ => false
  | '!' :: c :: pattern, text | c :: pattern, text => text.head? = some c && like pattern text.tail

/-- The `lower` of SQLite knows ASCII only. -/
def likeWithEscape (col pattern : Text) : Bool := like (pattern.map Char.toLower) (col.map Char.toLower)

def signs : List Char := ['!', '%', '_']

theorem toLower_sign {c : Char} (h : c ∈ signs ∨ c.toLower ∈ signs) : c.toLower = c := by
  have hsigns : ∀ d ∈ signs, d.isAlpha = false := by simp [signs, Char.isAlpha, Char.isUpper, Char.isLower]
  have halpha : c.isAlpha = false := h.elim (hsigns c) fun h => c.isAlpha_toLower_eq_isAlpha ▸ hsigns _ h
  exact Char.toLower_eq_of_not_isUpper (Bool.not_eq_true _ ▸ (Bool.or_eq_false_iff.mp halpha).1)

theorem escapeLikePattern_cons (c : Char) (s : Text) :
    escapeLikePattern (c :: s) = (if c ∈ signs then ['!', c] else [c]) ++ escapeLikePattern s := by
  by_cases h : c ∈ signs
  · rw [if_pos h]
    obtain rfl | rfl | rfl : c = '!' ∨ c = '%' ∨ c = '_' := by simpa [signs] using h
    all_goals rfl
  · rw [if_neg h]
    simp only [signs, List.mem_cons, List.not_mem_nil, or_false, not_or] at h
    simp [escapeLikePattern, escapeSign, h]

theorem like_escaped (s pattern text : Text) :
    like (escapeLikePattern s ++ pattern) text = true ↔ ∃ rest, text = s ++ rest ∧ like pattern rest = true := by
  induction s generalizing text with
  | nil => simp [escapeLikePattern, escapeSign]
  | cons c s ih =>
    have hc : like (escapeLikePattern (c :: s) ++ pattern) text =
        (text.head? = some c && like (escapeLikePattern s ++ pattern) text.tail) := by
      rw [escapeLikePattern_cons]
      split
      · rfl
      · rw [List.singleton_append, List.cons_append, like] <;> grind [signs]
    rw [hc, Bool.and_eq_true, ih]
    cases text <;> simp [and_assoc]

theorem map_escapeLikePattern (s : Text) :
    (escapeLikePattern s).map Char.toLower = escapeLikePattern (s.map Char.toLower) := by
  induction s with
  | nil => rfl
  | cons c s ih =>
    rw [List.map_cons, escapeLikePattern_cons, escapeLikePattern_cons, List.map_append, ih]
    by_cases h : c ∈ signs ∨ c.toLower ∈ signs
    · rw [toLower_sign h, or_self] at h
      simp [h, toLower_sign (.inl h)]
    · simp [not_or.mp h]

end A2Wave.UserLookup
