import Mathlib.Data.List.Nodup
import Mathlib.Data.List.Perm.Subperm

/-! Chains of copies.  A link records what it was copied from, the first source of its chain and
its depth in it.  When nothing is copied twice, no chain has two links of one depth, so a bound on
the depth bounds the length of the chain. -/

universe u

namespace A2Wave

structure Link (α : Type u) where
  id : α
  source : α
  origin : α
  depth : Nat
  deriving DecidableEq

namespace Link

variable {α : Type u} {links : List (Link α)} {l l' : Link α}

def Follows (links : List (Link α)) (l : Link α) : Prop :=
  (∃ p ∈ links, p.id = l.source ∧ l.origin = p.origin ∧ l.depth = p.depth + 1) ∨
    (∀ p ∈ links, p.id ≠ l.source) ∧ l.origin = l.source ∧ l.depth = 1

theorem Follows.depth_pos (h : Follows links l) : 0 < l.depth := by
  obtain ⟨p, -, -, -, hdepth⟩ | ⟨-, -, hdepth⟩ := h
  · omega
  · omega

structure Chained [DecidableEq α] (links : List (Link α)) : Prop where
  follows : ∀ l ∈ links, Follows links l
  ids : (links.map id).Nodup
  sources : (links.map source).Nodup

variable [DecidableEq α]

theorem Chained.eq_of_depth (h : Chained links) (hl : l ∈ links) (hl' : l' ∈ links)
    (horigin : l.origin = l'.origin) (hdepth : l.depth = l'.depth) : l = l' := by
  have hinj := List.inj_on_of_nodup_map h.sources
  induction hn : l.depth generalizing l l' with
  | zero => exact absurd hn (Nat.ne_of_gt (h.follows l hl).depth_pos)
  | succ n ih =>
    apply hinj hl hl'
    obtain ⟨p, hp, hid, ho, hd⟩ | ⟨-, ho, hd⟩ := h.follows l hl
    · obtain ⟨p', hp', hid', ho', hd'⟩ | ⟨-, -, hd'⟩ := h.follows l' hl'
      · have hsame : p = p' := by
          apply ih hp hp'
          · rw [← ho, ← ho', horigin]
          · omega
          · omega
        rw [← hid, ← hid', hsame]
      · have hpos := (h.follows p hp).depth_pos
        omega
    · obtain ⟨p', hp', -, -, hd'⟩ | ⟨-, ho', -⟩ := h.follows l' hl'
      · have hpos := (h.follows p' hp').depth_pos
        omega
      · rw [← ho, ← ho', horigin]

def chainOf (links : List (Link α)) (origin : α) : List (Link α) :=
  links.filter fun l => l.origin = origin

theorem Chained.length_chainOf_le (h : Chained links) {origin : α} {n : Nat}
    (hn : ∀ l ∈ links, l.origin = origin → l.depth ≤ n) : (chainOf links origin).length ≤ n := by
  have hnodup : ((chainOf links origin).map depth).Nodup := by
    apply List.Nodup.map_on
    · intro l hl l' hl' hdepth
      obtain ⟨hmem, ho⟩ := List.mem_filter.mp hl
      obtain ⟨hmem', ho'⟩ := List.mem_filter.mp hl'
      have hsame : l.origin = l'.origin := (of_decide_eq_true ho).trans (of_decide_eq_true ho').symm
      exact h.eq_of_depth hmem hmem' hsame hdepth
    · exact (List.Nodup.of_map _ h.sources).filter _
  have hsub : (chainOf links origin).map depth ⊆ (List.range n).map (· + 1) := by
    intro d hd
    obtain ⟨l, hl, rfl⟩ := List.mem_map.mp hd
    obtain ⟨hmem, ho⟩ := List.mem_filter.mp hl
    have hle := hn l hmem (of_decide_eq_true ho)
    have hpos := (h.follows l hmem).depth_pos
    exact List.mem_map.mpr ⟨l.depth - 1, List.mem_range.mpr (by omega), by omega⟩
  have hlen := (List.subperm_of_subset hnodup hsub).length_le
  simpa using hlen

theorem Chained.append (h : Chained links) (hid : ∀ p ∈ links, p.id ≠ l.id) (hself : l.source ≠ l.id)
    (hsource : ∀ p ∈ links, p.source ≠ l.source ∧ p.source ≠ l.id) (hfollows : Follows links l) :
    Chained (links ++ [l]) := by
  refine ⟨?_, ?_, ?_⟩
  · intro l' hl'
    obtain hold | hnew := List.mem_append.mp hl'
    · obtain ⟨p, hp, hrest⟩ | ⟨hfree, hrest⟩ := h.follows l' hold
      · exact .inl ⟨p, List.mem_append_left _ hp, hrest⟩
      · refine .inr ⟨?_, hrest⟩
        intro p hp
        obtain hp | hp := List.mem_append.mp hp
        · exact hfree p hp
        · rw [List.mem_singleton.mp hp]
          exact (hsource l' hold).2.symm
    · rw [List.mem_singleton.mp hnew]
      obtain ⟨p, hp, hrest⟩ | ⟨hfree, hrest⟩ := hfollows
      · exact .inl ⟨p, List.mem_append_left _ hp, hrest⟩
      · refine .inr ⟨?_, hrest⟩
        intro p hp
        obtain hp | hp := List.mem_append.mp hp
        · exact hfree p hp
        · rw [List.mem_singleton.mp hp]
          exact hself.symm
  · rw [List.map_append, List.nodup_append]
    refine ⟨h.ids, by simp, ?_⟩
    intro x hx y hy
    obtain ⟨p, hp, rfl⟩ := List.mem_map.mp hx
    rw [List.map_singleton, List.mem_singleton] at hy
    rw [hy]
    exact hid p hp
  · rw [List.map_append, List.nodup_append]
    refine ⟨h.sources, by simp, ?_⟩
    intro x hx y hy
    obtain ⟨p, hp, rfl⟩ := List.mem_map.mp hx
    rw [List.map_singleton, List.mem_singleton] at hy
    rw [hy]
    exact (hsource p hp).1

end Link

end A2Wave
