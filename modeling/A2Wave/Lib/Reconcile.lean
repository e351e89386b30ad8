import Mathlib.Data.List.Perm.Basic
import Mathlib.Logic.Function.Basic

/-! Elements that are at hand are matched with values that are wanted, each element once. -/

universe u v w

namespace A2Wave.Reconcile

variable {α : Type u} {β : Type v} {κ : Type w} [DecidableEq κ]

def pool (key : β → κ) (val : α → β) (xs : List α) (k : κ) : List α :=
  xs.filter fun a => key (val a) = k

def take (key : β → κ) : (κ → List α) → List β → List α × List β
  | _, [] => ([], [])
  | left, b :: bs =>
    match (left (key b)).getLast? with
    | some a =>
      let (as, rest) := take key (Function.update left (key b) (left (key b)).dropLast) bs
      (a :: as, rest)
    | none =>
      let (as, rest) := take key left bs
      (as, b :: rest)

variable {key : β → κ} {val : α → β} {left : κ → List α} {a : α} {b : β} {bs : List β}

structure Keyed (key : β → κ) (val : α → β) (left : κ → List α) : Prop where
  own : ∀ k, ∀ a ∈ left k, key (val a) = k
  nodup : ∀ k, (left k).Nodup

theorem keyed_pool {xs : List α} (h : xs.Nodup) : Keyed key val (pool key val xs) where
  own k a ha := by simpa using (List.mem_filter.mp ha).2
  nodup _ := h.filter _

theorem update_sublist (k : κ) : (Function.update left (key b) (left (key b)).dropLast k).Sublist (left k) := by
  by_cases hk : k = key b
  · rw [hk, Function.update_self]
    exact List.dropLast_sublist _
  · rw [Function.update_of_ne hk]

theorem Keyed.update (h : Keyed key val left) :
    Keyed key val (Function.update left (key b) (left (key b)).dropLast) where
  own k a ha := h.own k a ((update_sublist k).subset ha)
  nodup k := (update_sublist k).nodup (h.nodup k)

theorem Keyed.not_mem_update (h : Keyed key val left) (ha : (left (key b)).getLast? = some a)
    (k : κ) : a ∉ Function.update left (key b) (left (key b)).dropLast k := by
  intro hmem
  have hk : k = key b := by
    rw [← h.own k a ((update_sublist k).subset hmem)]
    exact h.own _ a (List.mem_of_getLast? ha)
  rw [hk, Function.update_self] at hmem
  have hnodup := h.nodup (key b)
  rw [← List.dropLast_append_getLast? a ha, List.nodup_append] at hnodup
  exact hnodup.2.2 a hmem a List.mem_cons_self rfl

theorem mem_of_mem_take (h : Keyed key val left) (ha : a ∈ (take key left bs).1) : a ∈ left (key (val a)) := by
  induction bs generalizing left with
  | nil => exact absurd ha List.not_mem_nil
  | cons b bs ih =>
    rw [take] at ha
    split at ha
    next a' hlast =>
      obtain rfl | ha := List.mem_cons.mp ha
      · have hmem := List.mem_of_getLast? hlast
        rwa [h.own _ a hmem]
      · exact (update_sublist _).subset (ih h.update ha)
    next => exact ih h ha

theorem nodup_take (h : Keyed key val left) : (take key left bs).1.Nodup := by
  induction bs generalizing left with
  | nil => exact .nil
  | cons b bs ih =>
    rw [take]
    split
    next a hlast =>
      refine List.nodup_cons.mpr ⟨fun ha => ?_, ih h.update⟩
      exact h.not_mem_update hlast _ (mem_of_mem_take h.update ha)
    next => exact ih h

theorem perm_take (h : Keyed key val left) (hkey : Function.Injective key) :
    ((take key left bs).1.map val ++ (take key left bs).2).Perm bs := by
  induction bs generalizing left with
  | nil => exact .nil
  | cons b bs ih =>
    rw [take]
    split
    next a hlast =>
      have hval : val a = b := hkey (h.own _ a (List.mem_of_getLast? hlast))
      simp only [List.map_cons, List.cons_append, hval]
      exact (ih h.update).cons b
    next => exact List.perm_middle.trans ((ih h).cons b)

end A2Wave.Reconcile
