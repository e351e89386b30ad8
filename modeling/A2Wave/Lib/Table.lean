import Mathlib.Algebra.Group.Basic
import Mathlib.Data.List.Nodup

/-! Tables of rows under a primary key, with the operations of a relational store that
select, update and delete by a predicate.  Uniqueness of the key is a field, so a table
with two rows of one key cannot be built. -/

universe u v

namespace A2Wave

class Keyed (ρ : Type u) (κ : outParam (Type v)) where
  key : ρ → κ

structure Table (ρ : Type u) {κ : Type v} [Keyed ρ κ] where
  rows : List ρ
  nodup : (rows.map Keyed.key).Nodup

namespace Table

open Keyed

variable {ρ : Type u} {κ : Type v} [Keyed ρ κ]

def empty : Table ρ := ⟨[], by simp⟩

def single (r : ρ) : Table ρ := ⟨[r], by simp⟩

/-- `UPDATE … SET f WHERE p`.  An update never assigns the key. -/
def updateWhere (t : Table ρ) (p : ρ → Bool) (f : ρ → ρ) (hf : ∀ r, key (f r) = key r) : Table ρ where
  rows := t.rows.map fun r => if p r then f r else r
  nodup := by
    have hkey : (t.rows.map fun r => if p r then f r else r).map key = t.rows.map key := by
      rw [List.map_map]
      apply List.map_congr_left
      intro r _
      simp only [Function.comp]
      split
      · exact hf r
      · rfl
    rw [hkey]
    exact t.nodup

def deleteWhere (t : Table ρ) (p : ρ → Bool) : Table ρ where
  rows := t.rows.filter fun r => !p r
  nodup := (List.Sublist.map key List.filter_sublist).nodup t.nodup

def select (t : Table ρ) (p : ρ → Bool) : List ρ := t.rows.filter p

variable [DecidableEq κ]

def find? (t : Table ρ) (k : κ) : Option ρ := t.rows.find? fun r => key r = k

def insert (t : Table ρ) (r : ρ) : Option (Table ρ) :=
  if h : key r ∈ t.rows.map key then none
  else some ⟨t.rows ++ [r], by
    rw [List.map_append, List.nodup_append]
    refine ⟨t.nodup, by simp, ?_⟩
    intro a ha b hb hab
    have hb' : b = key r := by simpa using hb
    exact h (hb' ▸ hab ▸ ha)⟩

/-- A conditional update of the row with key `k`: `none` when no row was changed, which is
what an empty `RETURNING` list reports. -/
def cas (t : Table ρ) (k : κ) (p : ρ → Bool) (f : ρ → ρ) (hf : ∀ r, key (f r) = key r) : Option (Table ρ) :=
  if (t.find? k).any p then some (t.updateWhere (fun r => key r = k && p r) f hf) else none

variable {t : Table ρ} {r : ρ}

theorem find?_some_key {k : κ} (h : t.find? k = some r) : key r = k := by
  simpa using List.find?_some h

theorem find?_mem {k : κ} (h : t.find? k = some r) : r ∈ t.rows :=
  List.mem_of_find?_eq_some h

theorem find?_eq_some_iff {k : κ} : t.find? k = some r ↔ r ∈ t.rows ∧ key r = k := by
  constructor
  · intro h
    exact ⟨find?_mem h, find?_some_key h⟩
  · rintro ⟨hr, hk⟩
    cases h : t.find? k with
    | none =>
      have := List.find?_eq_none.mp h r hr
      simp [hk] at this
    | some r' =>
      have hk' := find?_some_key h
      rw [List.inj_on_of_nodup_map t.nodup (find?_mem h) hr (hk'.trans hk.symm)]

theorem find?_eq_none_iff {k : κ} : t.find? k = none ↔ ∀ r ∈ t.rows, key r ≠ k := by
  simp [find?, List.find?_eq_none]

@[simp] theorem find?_empty (k : κ) : (empty : Table ρ).find? k = none := rfl

@[simp] theorem find?_updateWhere (t : Table ρ) (p : ρ → Bool) (f : ρ → ρ)
    (hf : ∀ r, key (f r) = key r) (k : κ) :
    (t.updateWhere p f hf).find? k = (t.find? k).map fun r => if p r then f r else r := by
  have hpred : ((fun r => decide (key r = k)) ∘ fun r => if p r then f r else r) =
      fun r => decide (key r = k) := by
    funext r
    simp only [Function.comp]
    split <;> simp [hf]
  simp only [find?, updateWhere, List.find?_map, hpred]

@[simp] theorem find?_deleteWhere (t : Table ρ) (p : ρ → Bool) (k : κ) :
    (t.deleteWhere p).find? k = (t.find? k).filter fun r => !p r := by
  cases h : t.find? k with
  | none =>
    rw [find?_eq_none_iff] at h
    rw [Option.filter_none, find?_eq_none_iff]
    intro r hr
    exact h r (List.mem_of_mem_filter hr)
  | some r =>
    obtain ⟨hr, hk⟩ := find?_eq_some_iff.mp h
    by_cases hp : p r
    · rw [Option.filter_some, if_neg (by simp [hp]), find?_eq_none_iff]
      intro r' hr' hk'
      have hr'' := List.mem_filter.mp hr'
      have : r' = r := List.inj_on_of_nodup_map t.nodup hr''.1 hr (hk'.trans hk.symm)
      simp [this, hp] at hr''
    · rw [Option.filter_some, if_pos (by simp [hp]), find?_eq_some_iff]
      exact ⟨List.mem_filter.mpr ⟨hr, by simp [hp]⟩, hk⟩

omit [DecidableEq κ] in
theorem updateWhere_eq_self {t : Table ρ} {p : ρ → Bool} {f : ρ → ρ}
    {hf : ∀ r, key (f r) = key r} (h : ∀ r ∈ t.rows, p r = false) : t.updateWhere p f hf = t := by
  have hrows : (t.rows.map fun r => if p r then f r else r) = t.rows := by
    nth_rewrite 2 [← List.map_id t.rows]
    apply List.map_congr_left
    intro r hr
    simp [h r hr]
  cases t
  simp only [updateWhere, mk.injEq]
  exact hrows

omit [DecidableEq κ] in
theorem deleteWhere_eq_self {t : Table ρ} {p : ρ → Bool} (h : ∀ r ∈ t.rows, p r = false) : t.deleteWhere p = t := by
  have hrows : t.rows.filter (fun r => !p r) = t.rows := by
    rw [List.filter_eq_self]
    intro r hr
    simp [h r hr]
  cases t
  simp only [deleteWhere, mk.injEq]
  exact hrows

theorem insert_eq_none_iff : t.insert r = none ↔ (t.find? (key r)).isSome := by
  have : key r ∈ t.rows.map key ↔ (t.find? (key r)).isSome := by
    simp [find?, List.find?_isSome]
  by_cases h : key r ∈ t.rows.map key <;> simp [insert, h, ← this]

theorem find?_insert {t t' : Table ρ} (h : t.insert r = some t') (k : κ) :
    t'.find? k = if key r = k then some r else t.find? k := by
  unfold insert at h
  split at h
  · cases h
  · rename_i hr
    cases h
    by_cases hk : key r = k
    · rw [if_pos hk, find?_eq_some_iff]
      exact ⟨by simp, hk⟩
    · simp [find?, List.find?_append, hk]

theorem rows_insert {t t' : Table ρ} (h : t.insert r = some t') : t'.rows = t.rows ++ [r] := by
  unfold insert at h
  split at h
  · cases h
  · cases h; rfl

theorem find?_key_of_insert {t t' : Table ρ} (h : t.insert r = some t') : t.find? (key r) = none := by
  rw [← Option.not_isSome_iff_eq_none, ← insert_eq_none_iff, h]
  exact Option.some_ne_none t'

theorem find?_insert_of_some {t t' : Table ρ} {r row : ρ} {k : κ} (h : t.insert r = some t')
    (hrow : t.find? k = some row) : t'.find? k = some row := by
  have hne : key r ≠ k := by
    intro hkey
    have hfree := find?_key_of_insert h
    rw [hkey, hrow] at hfree
    cases hfree
  rw [find?_insert h, if_neg hne, hrow]

/-- `INSERT … ON CONFLICT DO UPDATE` of all columns. -/
def upsert (t : Table ρ) (r : ρ) : Table ρ :=
  ((t.deleteWhere fun r' => key r' = key r).insert r).getD t

theorem find?_upsert (t : Table ρ) (r : ρ) (k : κ) :
    (t.upsert r).find? k = if key r = k then some r else t.find? k := by
  unfold upsert
  cases h : (t.deleteWhere fun r' => key r' = key r).insert r with
  | none =>
    obtain ⟨r', hr'⟩ := Option.isSome_iff_exists.mp (insert_eq_none_iff.mp h)
    rw [find?_deleteWhere, Option.filter_eq_some_iff] at hr'
    simp [find?_some_key hr'.1] at hr'
  | some t' =>
    rw [Option.getD_some, find?_insert h, find?_deleteWhere]
    by_cases hk : key r = k
    · simp [hk]
    · rw [if_neg hk, if_neg hk]
      cases hf : t.find? k with
      | none => rfl
      | some r' => simp [find?_some_key hf, Ne.symm hk]

section Cas

variable {t t' : Table ρ} {k : κ} {p : ρ → Bool} {f : ρ → ρ} {hf : ∀ r, key (f r) = key r}

theorem cas_eq_none_iff : t.cas k p f hf = none ↔ ∀ r, t.find? k = some r → p r = false := by
  unfold cas
  cases h : t.find? k with
  | none => simp
  | some r => by_cases hp : p r <;> simp [hp]

theorem cas_some (h : t.cas k p f hf = some t') : ∃ r, t.find? k = some r ∧ p r = true ∧ t'.find? k = some (f r) ∧
      ∀ k', k' ≠ k → t'.find? k' = t.find? k' := by
  unfold cas at h
  split at h
  · rename_i hany
    cases h
    obtain ⟨r, hr, hp⟩ := (Option.any_eq_true_iff_get _ _).mp hany |> fun ⟨hs, hp⟩ =>
      (⟨(t.find? k).get hs, by simp, hp⟩ : ∃ r, t.find? k = some r ∧ p r = true)
    have hk := find?_some_key hr
    refine ⟨r, hr, hp, by simp [hr, hk, hp], ?_⟩
    intro k' hne
    rw [find?_updateWhere]
    cases h' : t.find? k' with
    | none => rfl
    | some r' =>
      have hk' := find?_some_key h'
      simp [hk', hne]
  · cases h

theorem cas_eq_updateWhere (h : t.cas k p f hf = some t') : t' = t.updateWhere (fun r => key r = k && p r) f hf := by
  unfold cas at h
  split at h
  · exact (Option.some.inj h).symm
  · cases h

theorem cas_isSome_of {r : ρ} (hr : t.find? k = some r) (hp : p r = true) :
    t.cas k p f hf = some (t.updateWhere (fun r => key r = k && p r) f hf) := by
  simp [cas, hr, hp]

end Cas

section Count

omit [DecidableEq κ]

theorem countP_updateWhere_le {t : Table ρ} {p : ρ → Bool} {f : ρ → ρ}
    (hf : ∀ r, key (f r) = key r) {q : ρ → Bool}
    (h : ∀ r ∈ t.rows, p r = true → q (f r) = true → q r = true) :
    (t.updateWhere p f hf).rows.countP q ≤ t.rows.countP q := by
  simp only [updateWhere, List.countP_map]
  apply List.countP_mono_left
  intro r hr hq
  simp only [Function.comp] at hq
  split at hq
  · rename_i hp
    exact h r hr hp hq
  · exact hq

theorem countP_map_le_succ {l : List ρ} {p q : ρ → Bool} {f : ρ → ρ} {k : κ}
    (hnd : (l.map key).Nodup) (h : ∀ r ∈ l, p r = true → key r = k) :
    (l.map fun r => if p r = true then f r else r).countP q ≤ l.countP q + 1 := by
  induction l with
  | nil => simp
  | cons r rs ih =>
    rw [List.map_cons, List.nodup_cons] at hnd
    simp only [List.map_cons, List.countP_cons]
    by_cases hp : p r = true
    · -- the key is taken by the head, so the tail is left as it is
      have htail : (rs.map fun r => if p r = true then f r else r) = rs := by
        conv_rhs => rw [← List.map_id rs]
        apply List.map_congr_left
        intro r' hr'
        have hpr' : ¬p r' = true := by
          intro hp'
          apply hnd.1
          rw [h r (by simp) hp, ← h r' (by simp [hr']) hp']
          exact List.mem_map_of_mem hr'
        simp [hpr']
      rw [htail]
      split <;> split <;> omega
    · have := ih hnd.2 (fun r' hr' => h r' (by simp [hr']))
      simp only [hp]
      simp only [Bool.false_eq_true, if_false] at this ⊢
      omega

theorem countP_updateWhere_le_succ {t : Table ρ} {p : ρ → Bool} {f : ρ → ρ}
    (hf : ∀ r, key (f r) = key r) {q : ρ → Bool} {k : κ}
    (h : ∀ r ∈ t.rows, p r = true → key r = k) :
    (t.updateWhere p f hf).rows.countP q ≤ t.rows.countP q + 1 :=
  countP_map_le_succ t.nodup h

theorem countP_deleteWhere_le (t : Table ρ) (p q : ρ → Bool) : (t.deleteWhere p).rows.countP q ≤ t.rows.countP q :=
  List.filter_sublist.countP_le

end Count

section Sum

omit [DecidableEq κ]

variable {M : Type*} [AddCommMonoid M] {p : ρ → Bool} {f : ρ → ρ} {r : ρ}

theorem sum_map_update {l : List ρ} (g : ρ → M) (hl : (l.map key).Nodup) (hr : r ∈ l) (hp : p r = true)
    (hkey : ∀ r' ∈ l, p r' = true → key r' = key r) :
    ((l.map fun r => if p r then f r else r).map g).sum + g r = (l.map g).sum + g (f r) := by
  induction l with
  | nil => cases hr
  | cons a l ih =>
    rw [List.map_cons, List.nodup_cons] at hl
    obtain rfl | hmem := List.mem_cons.mp hr
    · have hrest : (l.map fun r => if p r then f r else r) = l := by
        conv_rhs => rw [← List.map_id l]
        apply List.map_congr_left
        intro r' hr'
        have hp' : ¬ p r' = true := by
          intro hp'
          rw [← hkey r' (List.mem_cons_of_mem r hr') hp'] at hl
          exact hl.1 (List.mem_map_of_mem hr')
        rw [if_neg hp']
        rfl
      simp only [List.map_cons, List.sum_cons, hrest, hp, if_true]
      rw [add_right_comm, add_comm (g (f r)), add_right_comm]
    · have ha : p a = false := by
        cases hpa : p a with
        | false => rfl
        | true => exact absurd (hkey a List.mem_cons_self hpa ▸ List.mem_map_of_mem hmem) hl.1
      have ih := ih hl.2 hmem fun r' hr' => hkey r' (List.mem_cons_of_mem a hr')
      simp only [List.map_cons, List.sum_cons, ha, Bool.false_eq_true, if_false]
      rw [add_assoc, ih, add_assoc]

end Sum

end Table

end A2Wave
