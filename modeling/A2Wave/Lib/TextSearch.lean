import Mathlib.Data.List.Infix

/-! The first occurrence of one list in another. -/

universe u

namespace A2Wave.TextSearch

variable {α : Type u} [DecidableEq α]

/-- What stands before the first occurrence of `pat`. -/
def before? (pat : List α) : List α → Option (List α)
  | [] => if pat <+: [] then some [] else none
  | c :: s => if pat <+: c :: s then some [] else (before? pat s).map (c :: ·)

variable {pat s t a : List α}

theorem before?_of_isPrefix (h : pat <+: s) : before? pat s = some [] := by
  cases s with
  | nil | cons c s => rw [before?, if_pos h]

theorem before?_cons_of_not_isPrefix {c : α} (h : ¬pat <+: c :: s) :
    before? pat (c :: s) = (before? pat s).map (c :: ·) := by
  rw [before?, if_neg h]

theorem append_isPrefix_of_before? (h : before? pat s = some a) : a ++ pat <+: s := by
  induction s generalizing a with
  | nil =>
    rw [before?] at h
    split at h
    next hp =>
      obtain rfl := Option.some_inj.mp h
      exact hp
    next => cases h
  | cons c s ih =>
    rw [before?] at h
    split at h
    next hp =>
      obtain rfl := Option.some_inj.mp h
      exact hp
    next =>
      obtain ⟨b, hb, rfl⟩ := Option.map_eq_some_iff.mp h
      exact List.cons_prefix_cons.mpr ⟨rfl, ih hb⟩

theorem exists_before? (h : pat <:+: s) : ∃ a, before? pat s = some a := by
  induction s with
  | nil => exact ⟨[], before?_of_isPrefix (by rw [List.infix_nil.mp h])⟩
  | cons c s ih =>
    by_cases hp : pat <+: c :: s
    · exact ⟨[], before?_of_isPrefix hp⟩
    · obtain ⟨a, ha⟩ := ih ((List.infix_cons_iff.mp h).resolve_left hp)
      exact ⟨c :: a, by rw [before?_cons_of_not_isPrefix hp, ha]; rfl⟩

theorem before?_eq_none (h : ¬pat <:+: s) : before? pat s = none := by
  cases ha : before? pat s with
  | none => rfl
  | some a =>
    obtain ⟨b, rfl⟩ := append_isPrefix_of_before? ha
    exact absurd ⟨a, b, rfl⟩ h

theorem before?_append (h : before? pat s = some a) (t : List α) : before? pat (s ++ t) = some a := by
  induction s generalizing a with
  | nil =>
    rw [before?] at h
    split at h
    next hp =>
      obtain rfl := Option.some_inj.mp h
      rw [List.prefix_nil.mp hp]
      exact before?_of_isPrefix List.nil_prefix
    next => cases h
  | cons c s ih =>
    rw [before?] at h
    split at h
    next hp =>
      obtain rfl := Option.some_inj.mp h
      exact before?_of_isPrefix (hp.trans (List.prefix_append _ _))
    next hp =>
      obtain ⟨b, hb, rfl⟩ := Option.map_eq_some_iff.mp h
      have hlen : pat.length ≤ (c :: s).length := by
        have hle := (append_isPrefix_of_before? hb).length_le
        rw [List.length_append] at hle
        rw [List.length_cons]
        omega
      have hp' : ¬pat <+: c :: (s ++ t) := fun h' =>
        hp (List.prefix_of_prefix_length_le h' (List.prefix_append (c :: s) t) hlen)
      rw [List.cons_append, before?_cons_of_not_isPrefix hp', ih hb]
      rfl

theorem not_isInfix_of_before? (hpat : pat ≠ []) (h : before? pat s = some a) : ¬pat <:+: a := by
  intro hin
  obtain ⟨b, hb⟩ := exists_before? hin
  obtain ⟨t, rfl⟩ := append_isPrefix_of_before? h
  have hba := before?_append hb (pat ++ t)
  rw [← List.append_assoc, h, Option.some_inj] at hba
  have hlen := (append_isPrefix_of_before? hb).length_le
  rw [List.length_append, hba] at hlen
  have hpos := List.length_pos_iff.mpr hpat
  omega

section Separated

variable {d : α} {p : List α}

omit [DecidableEq α] in
theorem isPrefix_of_not_mem (hd : d ∉ p) (h : p <+: s ++ d :: t) : p <+: s := by
  obtain hle | hlt := Nat.lt_or_ge s.length p.length |>.symm
  · exact List.prefix_of_prefix_length_le h (List.prefix_append _ _) hle
  · have hsd : s ++ [d] <+: p := by
      refine List.prefix_of_prefix_length_le ⟨t, by simp⟩ h ?_
      rw [List.length_append, List.length_singleton]
      exact hlt
    exact absurd (hsd.subset (by simp)) hd

theorem before?_append_cons (hd : d ∉ p) (hs : ¬d :: p <:+: s) (t : List α) :
    before? (d :: p) (s ++ d :: t) = (before? (d :: p) (d :: t)).map (s ++ ·) := by
  induction s with
  | nil => simp
  | cons c s ih =>
    have hp : ¬d :: p <+: c :: (s ++ d :: t) := by
      intro h
      obtain ⟨rfl, hp⟩ := List.cons_prefix_cons.mp h
      exact hs (List.cons_prefix_cons.mpr ⟨rfl, isPrefix_of_not_mem hd hp⟩).isInfix
    have hs' : ¬d :: p <:+: s := fun h => hs (List.infix_cons h)
    rw [List.cons_append, before?_cons_of_not_isPrefix hp, ih hs', Option.map_map]
    rfl

end Separated

end A2Wave.TextSearch
