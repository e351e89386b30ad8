import Mathlib.Data.List.Basic

/-! Two texts joined by a separator that may stand in either of them, and pieces with a separator between each two. -/

universe u

namespace A2Wave.Separated

variable {α : Type u} {x : α} {a b c d : List α}

/-- The second part of the one pair ends in the second part of the other, and what stands before it
belongs to the first part of the other. -/
def Shifted (x : α) (a b c d : List α) : Prop := ∃ u, c = a ++ x :: u ∧ b = u ++ x :: d

theorem Shifted.eq (h : Shifted x a b c d) : a ++ x :: b = c ++ x :: d := by
  obtain ⟨u, rfl, rfl⟩ := h
  rw [List.append_assoc, List.cons_append]

theorem append_cons_eq_iff : a ++ x :: b = c ++ x :: d ↔ (a = c ∧ b = d) ∨ Shifted x a b c d ∨ Shifted x c d a b := by
  constructor
  · intro h
    rcases List.append_eq_append_iff.mp h with ⟨v, hc, hb⟩ | ⟨v, ha, hd⟩
    · cases v with
      | nil => exact .inl ⟨by rw [hc, List.append_nil], (List.cons.inj hb).2⟩
      | cons y v =>
        obtain ⟨rfl, rfl⟩ := List.cons.inj hb
        exact .inr (.inl ⟨v, hc, rfl⟩)
    · cases v with
      | nil => exact .inl ⟨by rw [ha, List.append_nil], (List.cons.inj hd).2.symm⟩
      | cons y v =>
        obtain ⟨rfl, rfl⟩ := List.cons.inj hd
        exact .inr (.inr ⟨v, ha, rfl⟩)
  · rintro (⟨rfl, rfl⟩ | h | h)
    · rfl
    · exact h.eq
    · exact h.eq.symm

theorem not_mem_of_mem_splitOn [BEq α] [LawfulBEq α] {piece : List α} (h : piece ∈ a.splitOn x) : x ∉ piece := by
  induction a generalizing piece with
  | nil =>
    rw [List.splitOn_nil, List.mem_singleton] at h
    subst h
    exact List.not_mem_nil
  | cons y a ih =>
    rw [List.splitOn_cons_eq_if_modifyHead] at h
    split at h
    · rcases List.mem_cons.mp h with rfl | h
      · exact List.not_mem_nil
      · exact ih h
    · rename_i hy
      cases hsplit : a.splitOn x with
      | nil => exact absurd hsplit (List.splitOn_ne_nil _ _)
      | cons t ts =>
        rw [hsplit, List.modifyHead_cons] at h
        rcases List.mem_cons.mp h with rfl | h
        · have hne : ¬y = x := by simpa using hy
          intro hmem
          rcases List.mem_cons.mp hmem with heq | hmem
          · exact hne heq.symm
          · exact ih (hsplit ▸ List.mem_cons_self) hmem
        · exact ih (hsplit ▸ List.mem_cons_of_mem _ h)

theorem splitOn_append [BEq α] [LawfulBEq α] {pre post : List (List α)} {p q : List α}
    (ha : a.splitOn x = pre ++ [p]) (hb : b.splitOn x = q :: post) :
    (a ++ b).splitOn x = pre ++ (p ++ q) :: post := by
  induction a generalizing pre p with
  | nil =>
    rw [List.splitOn_nil] at ha
    cases pre with
    | nil =>
      obtain rfl := (List.cons.inj ha).1
      exact hb
    | cons l pre =>
      have hlength := congrArg List.length ha
      simp at hlength
  | cons y a ih =>
    rw [List.splitOn_cons_eq_if_modifyHead] at ha
    rw [List.cons_append, List.splitOn_cons_eq_if_modifyHead]
    split at ha
    next hy =>
      rw [if_pos hy]
      cases pre with
      | nil => exact absurd (List.cons.inj ha).2 (List.splitOn_ne_nil _ _)
      | cons l pre =>
        obtain ⟨hl, hrest⟩ := List.cons.inj ha
        rw [ih hrest, ← hl]
        rfl
    next hy =>
      rw [if_neg hy]
      cases hsplit : a.splitOn x with
      | nil => exact absurd hsplit (List.splitOn_ne_nil _ _)
      | cons l ls =>
        rw [hsplit, List.modifyHead_cons] at ha
        cases pre with
        | nil =>
          obtain ⟨rfl, rfl⟩ := List.cons.inj ha
          rw [@ih [] l hsplit]
          rfl
        | cons l' pre =>
          obtain ⟨rfl, rfl⟩ := List.cons.inj ha
          rw [@ih (l :: pre) p hsplit]
          rfl

section Pieces

variable {pieces front rest : List (List α)}

theorem intercalate_concat (x : α) (pieces : List (List α)) (last : List α) :
    [x].intercalate (pieces ++ [last]) = pieces.flatMap (· ++ [x]) ++ last := by
  induction pieces with
  | nil => simp [List.intercalate]
  | cons p pieces ih =>
    have hne : pieces ++ [last] ≠ [] := by simp
    rw [List.cons_append, List.intercalate_cons_of_ne_nil hne, ih, List.flatMap_cons, List.append_assoc,
      List.append_assoc, List.append_assoc]

theorem intercalate_append (hfront : front ≠ []) (hrest : rest ≠ []) :
    [x].intercalate (front ++ rest) = [x].intercalate front ++ x :: [x].intercalate rest := by
  obtain ⟨pieces, last, rfl⟩ := (List.eq_nil_or_concat front).resolve_left hfront
  rw [List.concat_eq_append, intercalate_concat]
  induction pieces with
  | nil =>
    rw [List.nil_append, List.singleton_append, List.intercalate_cons_of_ne_nil hrest, List.append_assoc]
    rfl
  | cons p pieces ih =>
    have hne : pieces ++ [last] ++ rest ≠ [] := by simp
    rw [List.cons_append, List.cons_append, List.intercalate_cons_of_ne_nil hne, ih (by simp), List.flatMap_cons]
    simp only [List.append_assoc]

theorem infix_intercalate {p : List α} (h : p ∈ pieces) : p <:+: [x].intercalate pieces := by
  obtain ⟨front, rest, rfl⟩ := List.append_of_mem h
  rw [List.append_cons]
  cases rest with
  | nil =>
    rw [List.append_nil, intercalate_concat]
    exact (List.suffix_append _ p).isInfix
  | cons q rest =>
    rw [intercalate_append (by simp) (List.cons_ne_nil q rest), intercalate_concat]
    exact ⟨_, _, rfl⟩

theorem mem_intercalate {y : α} (h : y ∈ [x].intercalate pieces) : y = x ∨ ∃ p ∈ pieces, y ∈ p := by
  induction pieces with
  | nil => simp at h
  | cons p pieces ih =>
    cases pieces with
    | nil => exact .inr ⟨p, List.mem_cons_self, by simpa using h⟩
    | cons q rest =>
      rw [List.intercalate_cons_cons, List.append_assoc, List.mem_append, List.mem_append, List.mem_singleton] at h
      rcases h with h | rfl | h
      · exact .inr ⟨p, List.mem_cons_self, h⟩
      · exact .inl rfl
      · exact (ih h).imp_right fun ⟨r, hr, hy⟩ => ⟨r, List.mem_cons_of_mem _ hr, hy⟩

theorem intercalate_prefix_iff [BEq α] [LawfulBEq α] {p : List α} (hp : p ≠ []) (hfront : ∀ q ∈ front ++ [p], x ∉ q)
    (hpieces : ∀ q ∈ pieces, x ∉ q) : [x].intercalate (front ++ [p]) <+: [x].intercalate pieces ↔
      ∃ tail rest, pieces = front ++ (p ++ tail) :: rest := by
  have hsplit := List.splitOn_intercalate x hfront (by simp)
  constructor
  · rintro ⟨w, hw⟩
    have hne : pieces ≠ [] := by
      rintro rfl
      rw [intercalate_concat, List.intercalate_nil] at hw
      exact hp (List.append_eq_nil_iff.mp (List.append_eq_nil_iff.mp hw).1).2
    cases hrest : w.splitOn x with
    | nil => exact absurd hrest (List.splitOn_ne_nil _ _)
    | cons tail rest =>
      refine ⟨tail, rest, ?_⟩
      rw [← splitOn_append hsplit hrest, hw, List.splitOn_intercalate x hpieces hne]
  · rintro ⟨tail, rest, rfl⟩
    have hrest : ∀ q ∈ tail :: rest, x ∉ q := by
      intro q hq
      rcases List.mem_cons.mp hq with rfl | hq
      · exact fun hx => hpieces _ (List.mem_append_right _ List.mem_cons_self) (List.mem_append_right _ hx)
      · exact hpieces q (List.mem_append_right _ (List.mem_cons_of_mem _ hq))
    refine ⟨[x].intercalate (tail :: rest), ?_⟩
    rw [← splitOn_append hsplit (List.splitOn_intercalate x hrest (List.cons_ne_nil _ _)), List.intercalate_splitOn]

theorem intercalate_eq_nil (h : ∀ p ∈ pieces, p ≠ []) : [x].intercalate pieces = [] ↔ pieces = [] := by
  cases pieces with
  | nil => simp
  | cons p pieces =>
    refine iff_of_false (fun heq => h p List.mem_cons_self ?_) (by simp)
    cases pieces with
    | nil => simpa using heq
    | cons q pieces =>
      rw [List.intercalate_cons_cons] at heq
      exact (List.append_eq_nil_iff.mp (List.append_eq_nil_iff.mp heq).1).1

theorem head?_intercalate (h : ∀ p ∈ pieces, p ≠ [] ∧ x ∉ p) : ([x].intercalate pieces).head? ≠ some x := by
  cases pieces with
  | nil => simp
  | cons p pieces =>
    obtain ⟨hne, hfree⟩ := h p List.mem_cons_self
    obtain ⟨y, p, rfl⟩ := List.exists_cons_of_ne_nil hne
    rw [List.intercalate_cons_cons_left, List.head?_cons]
    exact fun heq => hfree (Option.some.inj heq ▸ List.mem_cons_self)

theorem getLast?_intercalate (h : ∀ p ∈ pieces, p ≠ [] ∧ x ∉ p) : ([x].intercalate pieces).getLast? ≠ some x := by
  rcases List.eq_nil_or_concat pieces with rfl | ⟨front, last, rfl⟩
  · simp
  · rw [List.concat_eq_append] at h ⊢
    obtain ⟨hne, hfree⟩ := h last (by simp)
    rw [intercalate_concat, List.getLast?_append_of_ne_nil _ hne]
    exact fun heq => hfree (List.mem_of_getLast? heq)

end Pieces

end A2Wave.Separated
