import Mathlib.Data.List.Basic

/-! Keyset paging over an ordered list of rows, some of which cannot be shown.  A page reads one row
more than its size, shows what can be shown of them, and the next page starts after the last row
that was shown. -/

universe u

namespace A2Wave.Paging

variable {α : Type u} (good : α → Bool) (size : Nat)

/-- What follows the first `n` good rows. -/
def dropThrough : Nat → List α → List α
  | 0, l => l
  | _ + 1, [] => []
  | n + 1, x :: l => if good x then dropThrough n l else dropThrough (n + 1) l

def shown (l : List α) : List α := ((l.take (size + 1)).filter good).take size

/-- Follow the pages from a list on; `none` when the fuel is used up. -/
def walk : Nat → List α → Option (List α)
  | 0, _ => none
  | fuel + 1, l =>
    if shown good size l ≠ [] ∧ size < (l.take (size + 1)).length then
      (walk fuel (dropThrough good (shown good size l).length l)).map (shown good size l ++ ·)
    else some (shown good size l)

def Gap (l : List α) : Prop :=
  ∃ pre bad post, l = pre ++ bad ++ post ∧ bad.length = size + 1 ∧ (∀ x ∈ bad, good x = false) ∧
    ∃ x ∈ post, good x = true

variable {good size} {l : List α}

theorem filter_dropThrough (n : Nat) (l : List α) : (dropThrough good n l).filter good = (l.filter good).drop n := by
  induction l generalizing n with
  | nil => cases n <;> rfl
  | cons x l ih =>
    cases n with
    | zero => rfl
    | succ n =>
      unfold dropThrough
      cases hx : good x with
      | true => rw [if_pos rfl, ih, List.filter_cons_of_pos hx, List.drop_succ_cons]
      | false =>
        rw [if_neg (by simp), ih, List.filter_cons_of_neg (by simp [hx])]

theorem eq_append_dropThrough {n m : Nat} (h : n < ((l.take m).filter good).length) :
    ∃ front x, l = front ++ x :: dropThrough good (n + 1) l ∧ front.length < m ∧ good x = true ∧
      (front.filter good).length = n := by
  induction l generalizing n m with
  | nil => simp at h
  | cons y l ih =>
    cases m with
    | zero => simp at h
    | succ m =>
      rw [List.take_succ_cons] at h
      unfold dropThrough
      cases hy : good y with
      | true =>
        rw [List.filter_cons_of_pos hy, List.length_cons] at h
        cases n with
        | zero => exact ⟨[], y, by simp [dropThrough], Nat.succ_pos m, hy, rfl⟩
        | succ n =>
          obtain ⟨front, x, hl, hlen, hx, hcount⟩ := ih (Nat.lt_of_succ_lt_succ h)
          refine ⟨y :: front, x, ?_, Nat.succ_lt_succ hlen, hx, ?_⟩
          · rw [if_pos rfl, List.cons_append, ← hl]
          · rw [List.filter_cons_of_pos hy, List.length_cons, hcount]
      | false =>
        rw [List.filter_cons_of_neg (by simp [hy])] at h
        obtain ⟨front, x, hl, hlen, hx, hcount⟩ := ih h
        refine ⟨y :: front, x, ?_, Nat.succ_lt_succ hlen, hx, ?_⟩
        · rw [if_neg (by simp), List.cons_append, ← hl]
        · rw [List.filter_cons_of_neg (by simp [hy]), hcount]

theorem gap_append_iff {front rest : List α} {x : α} (hx : good x = true) (hlen : front.length ≤ size) :
    Gap good size (front ++ x :: rest) ↔ Gap good size rest := by
  constructor
  · rintro ⟨pre, bad, post, heq, hbad, hall, hpost⟩
    rw [List.append_assoc] at heq
    rcases List.append_eq_append_iff.mp heq with ⟨v, hpre, hrest⟩ | ⟨v, hfront, hrest⟩
    · cases v with
      | nil =>
        exfalso
        cases bad with
        | nil => cases hbad
        | cons y bad =>
          obtain ⟨rfl, -⟩ := List.cons.inj hrest
          rw [hall x List.mem_cons_self] at hx
          cases hx
      | cons y v =>
        obtain ⟨rfl, htail⟩ := List.cons.inj hrest
        exact ⟨v, bad, post, htail.trans (List.append_assoc v bad post).symm, hbad, hall, hpost⟩
    · -- the run would have to hold the good row
      exfalso
      rw [hfront, List.length_append] at hlen
      rcases List.append_eq_append_iff.mp hrest with ⟨w, hv, -⟩ | ⟨w, hv, hw⟩
      · rw [hv, List.length_append] at hlen
        omega
      · cases w with
        | nil =>
          rw [hv, List.append_nil] at hbad
          omega
        | cons y w =>
          obtain ⟨rfl, -⟩ := List.cons.inj hw
          have hmem : x ∈ bad := by
            rw [hv]
            exact List.mem_append_right _ List.mem_cons_self
          rw [hall x hmem] at hx
          cases hx
  · rintro ⟨pre, bad, post, rfl, hbad, hall, hpost⟩
    exact ⟨front ++ x :: pre, bad, post, by simp, hbad, hall, hpost⟩

theorem gap_iff : Gap good size l ↔ ∃ n < l.length, ((l.drop n).take (size + 1)).length = size + 1 ∧
    (∀ x ∈ (l.drop n).take (size + 1), good x = false) ∧ ∃ x ∈ (l.drop n).drop (size + 1), good x = true := by
  constructor
  · rintro ⟨pre, bad, post, rfl, hbad, hall, hpost⟩
    have hdrop : (pre ++ bad ++ post).drop pre.length = bad ++ post := by
      rw [List.append_assoc, List.drop_left]
    have htake : (bad ++ post).take (size + 1) = bad := by rw [← hbad, List.take_left]
    have hrest : (bad ++ post).drop (size + 1) = post := by rw [← hbad, List.drop_left]
    refine ⟨pre.length, ?_, ?_⟩
    · rw [List.length_append, List.length_append]
      omega
    · rw [hdrop, htake, hrest]
      exact ⟨hbad, hall, hpost⟩
  · rintro ⟨n, -, hlen, hall, hpost⟩
    refine ⟨l.take n, (l.drop n).take (size + 1), (l.drop n).drop (size + 1), ?_, hlen, hall, hpost⟩
    rw [List.append_assoc, List.take_append_drop, List.take_append_drop]

instance (good : α → Bool) (size : Nat) (l : List α) : Decidable (Gap good size l) :=
  decidable_of_iff _ gap_iff.symm

theorem not_gap_of_length_le (h : l.length ≤ size) : ¬Gap good size l := by
  rintro ⟨pre, bad, post, rfl, hbad, -, -⟩
  rw [List.length_append, List.length_append] at h
  omega

theorem shown_isPrefix (good : α → Bool) (size : Nat) (l : List α) : shown good size l <+: l.filter good :=
  List.IsPrefix.trans ( List.take_prefix size _) (List.IsPrefix.filter good ( List.take_prefix (size + 1) l))

theorem exists_last (h : shown good size l ≠ []) :
    ∃ front x, l = front ++ x :: dropThrough good (shown good size l).length l ∧ front.length ≤ size ∧
      good x = true ∧ shown good size l = front.filter good ++ [x] := by
  obtain ⟨n, hn⟩ := Nat.exists_eq_succ_of_ne_zero (mt List.length_eq_zero_iff.mp h)
  have hcount : n < ((l.take (size + 1)).filter good).length := by
    have hle := List.length_take_le' size ((l.take (size + 1)).filter good)
    rw [shown] at hn
    omega
  obtain ⟨front, x, hl, hlen, hx, hfront⟩ := eq_append_dropThrough hcount
  refine ⟨front, x, ?_, Nat.lt_succ_iff.mp hlen, hx, ?_⟩
  · rw [hn]
    exact hl
  · have htake := List.prefix_iff_eq_take.mp (shown_isPrefix good size l)
    rw [htake, hn]
    nth_rewrite 1 [hl]
    rw [List.filter_append, List.filter_cons_of_pos hx, ← hfront, List.take_append,
      List.take_of_length_le (Nat.le_succ _), Nat.succ_sub (Nat.le_refl _), Nat.sub_self]
    rfl

theorem append_filter_dropThrough (good : α → Bool) (size : Nat) (l : List α) :
    shown good size l ++ (dropThrough good (shown good size l).length l).filter good = l.filter good := by
  have htake := List.prefix_iff_eq_take.mp (shown_isPrefix good size l)
  rw [filter_dropThrough]
  nth_rewrite 1 [htake]
  exact List.take_append_drop _ _

theorem gap_iff_of_shown_eq_nil (hsize : 1 ≤ size) (h : shown good size l = [])
    (hfull : size < (l.take (size + 1)).length) : Gap good size l ↔ l.filter good ≠ [] := by
  have hbad : ∀ x ∈ l.take (size + 1), good x = false := by
    intro x hx
    rw [shown, List.take_eq_nil_iff] at h
    rcases h with h | h
    · omega
    · simpa using List.filter_eq_nil_iff.mp h x hx
  constructor
  · rintro ⟨pre, bad, post, rfl, -, -, x, hx, hgood⟩ hnil
    have hmem : x ∈ (pre ++ bad ++ post).filter good :=
      List.mem_filter.mpr ⟨List.mem_append_right _ hx, hgood⟩
    rw [hnil] at hmem
    cases hmem
  · intro hne
    obtain ⟨x, hx⟩ := List.exists_mem_of_ne_nil _ hne
    obtain ⟨hx, hgood⟩ := List.mem_filter.mp hx
    rw [← List.take_append_drop (size + 1) l] at hx
    rcases List.mem_append.mp hx with hx | hx
    · rw [hbad x hx] at hgood
      cases hgood
    · have hlen := List.length_take_le (size + 1) l
      refine ⟨[], l.take (size + 1), l.drop (size + 1), ?_, by omega, hbad, x, hx, hgood⟩
      rw [List.nil_append, List.take_append_drop]

theorem walk_spec (good : α → Bool) (hsize : 1 ≤ size) {fuel : Nat} (hfuel : l.length < fuel) :
    ∃ out, walk good size fuel l = some out ∧ (out = l.filter good ↔ ¬Gap good size l) := by
  induction fuel generalizing l with
  | zero => cases hfuel
  | succ fuel ih =>
    by_cases hfull : size < (l.take (size + 1)).length
    · by_cases hnil : shown good size l = []
      · refine ⟨[], ?_, ?_⟩
        · rw [walk, hnil, if_neg (by simp)]
        · rw [gap_iff_of_shown_eq_nil hsize hnil hfull, not_not]
          exact eq_comm
      · obtain ⟨front, x, hl, hlen, hx, -⟩ := exists_last hnil
        have hshort : (dropThrough good (shown good size l).length l).length < fuel := by
          have hlength := congrArg List.length hl
          rw [List.length_append, List.length_cons] at hlength
          omega
        obtain ⟨out, hout, hiff⟩ := ih hshort
        refine ⟨shown good size l ++ out, ?_, ?_⟩
        · rw [walk, if_pos ⟨hnil, hfull⟩, hout]
          rfl
        · rw [← append_filter_dropThrough good size l, List.append_cancel_left_eq, hiff,
            ← gap_append_iff hx hlen, ← hl]
    · have hall : l.length ≤ size := by
        rw [List.length_take] at hfull
        omega
      refine ⟨l.filter good, ?_, ?_⟩
      · have hwindow : l.take (size + 1) = l := List.take_of_length_le (by omega)
        have hshown : shown good size l = l.filter good := by
          rw [shown, hwindow, List.take_of_length_le (Nat.le_trans (List.length_filter_le _ _) hall)]
        rw [walk, if_neg (fun h => hfull h.2), hshown]
      · exact iff_of_true rfl (not_gap_of_length_le hall)

theorem filterMap_take_filter {β : Type*} (read : α → Option β) (n : Nat) (l : List α) :
    (l.filterMap read).take n = ((l.filter fun x => (read x).isSome).take n).filterMap read := by
  induction l generalizing n with
  | nil => simp
  | cons x l ih =>
    cases hx : read x with
    | none => rw [List.filterMap_cons_none hx, List.filter_cons_of_neg (by simp [hx]), ih]
    | some y =>
      rw [List.filterMap_cons_some hx, List.filter_cons_of_pos (by simp [hx])]
      cases n with
      | zero => simp
      | succ n => rw [List.take_succ_cons, List.take_succ_cons, List.filterMap_cons_some hx, ih]

end A2Wave.Paging
