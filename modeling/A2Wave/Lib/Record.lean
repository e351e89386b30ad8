import Mathlib
import A2Wave.Lib.Table

/-! JavaScript records.  A record remembers the order in which its properties were first
assigned; enumeration lists the array indices first, in ascending order. -/

universe u

namespace A2Wave

structure Property (α : Type u) where
  key : String
  value : α
  deriving DecidableEq

instance {α : Type u} : Keyed (Property α) String := ⟨Property.key⟩

abbrev Record (α : Type u) := Table (Property α)

def isDigit (c : Char) : Bool := '0' ≤ c && c ≤ '9'

/-- The value of a key that is a canonical array index, below `2 ^ 32 - 1`. -/
def arrayIndex? (key : String) : Option Nat :=
  let digits := key.toList
  let n := digits.foldl (fun n c => 10 * n + (c.toNat - '0'.toNat)) 0
  if digits ≠ [] ∧ digits.all isDigit = true ∧ (digits.head? ≠ some '0' ∨ digits.length = 1) ∧
      n < 2 ^ 32 - 1 then some n
  else none

namespace Record

variable {α : Type u}

def get? (r : Record α) (k : String) : Option α := (r.find? k).map Property.value

def set (r : Record α) (k : String) (v : α) : Record α :=
  (r.insert ⟨k, v⟩).getD
    (r.updateWhere (fun p => p.key = k) (fun p => { p with value := v }) (fun _ => rfl))

def delete (r : Record α) (k : String) : Record α := r.deleteWhere fun p => p.key = k

def size (r : Record α) : Nat := r.rows.length

def entries (r : Record α) : List (Property α) :=
  (r.rows.filter fun p => (arrayIndex? p.key).isSome).insertionSort
      (fun p q => (arrayIndex? p.key).getD 0 ≤ (arrayIndex? q.key).getD 0) ++
    r.rows.filter fun p => (arrayIndex? p.key).isNone

def keys (r : Record α) : List String := r.entries.map Property.key

def assign (r : Record α) (ps : List (Property α)) : Record α :=
  ps.foldl (fun r p => set r p.key p.value) r

/-- `Object.fromEntries(Object.entries(r).map(…))`, where the keys stay. -/
def mapValues (f : String → α → α) (r : Record α) : Record α :=
  r.updateWhere (fun _ => true) (fun p => { p with value := f p.key p.value }) (fun _ => rfl)

variable {r : Record α} {k l : String} {v : α}

variable {p : Property α}

theorem mem_mapValues {f : String → α → α} :
    p ∈ (mapValues f r).rows ↔ ∃ q ∈ r.rows, p = { q with value := f q.key q.value } := by
  rw [mapValues, Table.updateWhere, List.mem_map]
  constructor
  · rintro ⟨q, hq, rfl⟩
    exact ⟨q, hq, rfl⟩
  · rintro ⟨q, hq, rfl⟩
    exact ⟨q, hq, rfl⟩

@[simp] theorem get?_empty (k : String) : get? (Table.empty : Record α) k = none := rfl

theorem get?_set (r : Record α) (k l : String) (v : α) : get? (set r k v) l = if k = l then some v else get? r l := by
  unfold set
  cases h : r.insert ⟨k, v⟩ with
  | some r' =>
    rw [Option.getD_some, get?, Table.find?_insert h]
    show Option.map Property.value (if k = l then some ⟨k, v⟩ else r.find? l) = _
    split <;> rfl
  | none =>
    obtain ⟨p, hp⟩ := Option.isSome_iff_exists.mp (Table.insert_eq_none_iff.mp h)
    have hp' : r.find? k = some p := hp
    rw [Option.getD_none, get?, get?, Table.find?_updateWhere]
    by_cases hkl : k = l
    · subst hkl
      have hkey : p.key = k := Table.find?_some_key hp'
      simp [hp', hkey]
    · rw [if_neg hkl]
      cases hl : r.find? l with
      | none => rfl
      | some q =>
        have hkey : q.key = l := Table.find?_some_key hl
        simp [hkey, Ne.symm hkl]

theorem get?_delete (r : Record α) (k l : String) : get? (delete r k) l = if k = l then none else get? r l := by
  unfold delete get?
  rw [Table.find?_deleteWhere]
  cases h : r.find? l with
  | none => simp
  | some p =>
    have hkey : p.key = l := Table.find?_some_key h
    by_cases hkl : k = l
    · simp [hkl, hkey]
    · simp [hkl, hkey, Ne.symm hkl]

theorem get?_eq_some_iff : get? r k = some v ↔ ⟨k, v⟩ ∈ r.rows := by
  simp only [get?, Option.map_eq_some_iff]
  constructor
  · rintro ⟨p, hp, rfl⟩
    obtain ⟨hmem, hkey⟩ := Table.find?_eq_some_iff.mp hp
    have hkey' : p.key = k := hkey
    subst hkey'
    exact hmem
  · intro h
    exact ⟨⟨k, v⟩, Table.find?_eq_some_iff.mpr ⟨h, rfl⟩, rfl⟩

theorem entries_perm (r : Record α) : r.entries.Perm r.rows := by
  have hsplit := List.filter_append_perm (fun p : Property α => (arrayIndex? p.key).isSome) r.rows
  have hnone : (fun p : Property α => !(arrayIndex? p.key).isSome) =
      fun p => (arrayIndex? p.key).isNone := by
    funext p
    cases arrayIndex? p.key <;> rfl
  rw [hnone] at hsplit
  exact (List.Perm.append_right _ (List.perm_insertionSort _ _)).trans hsplit

theorem mem_entries : p ∈ r.entries ↔ get? r p.key = some p.value := by
  rw [r.entries_perm.mem_iff, get?_eq_some_iff]

theorem nodup_keys (r : Record α) : r.keys.Nodup :=
  ((r.entries_perm.map Property.key).nodup_iff).mpr r.nodup

theorem mem_keys : k ∈ r.keys ↔ (get? r k).isSome := by
  simp only [keys, List.mem_map]
  constructor
  · rintro ⟨p, hp, rfl⟩
    rw [mem_entries.mp hp]
    rfl
  · intro h
    obtain ⟨v, hv⟩ := Option.isSome_iff_exists.mp h
    exact ⟨⟨k, v⟩, mem_entries.mpr hv, rfl⟩

variable {ps : List (Property α)}

theorem get?_assign_of_not_mem (r : Record α)
    (h : k ∉ ps.map Property.key) : get? (assign r ps) k = get? r k := by
  induction ps generalizing r with
  | nil => rfl
  | cons p ps ih =>
    rw [List.map_cons, List.mem_cons, not_or] at h
    have htail := ih (set r p.key p.value) h.2
    rw [assign, List.foldl_cons]
    rw [assign] at htail
    rw [htail, get?_set, if_neg (Ne.symm h.1)]

theorem get?_assign_of_mem (r : Record α)
    (hps : (ps.map Property.key).Nodup) (h : ⟨k, v⟩ ∈ ps) : get? (assign r ps) k = some v := by
  induction ps generalizing r with
  | nil => cases h
  | cons p ps ih =>
    rw [List.map_cons, List.nodup_cons] at hps
    rw [assign, List.foldl_cons]
    rcases List.mem_cons.mp h with rfl | h
    · have hhead := get?_assign_of_not_mem (set r k v) hps.1
      rw [assign] at hhead
      rw [hhead, get?_set, if_pos rfl]
    · exact ih (set r p.key p.value) hps.2 h

theorem mem_set (h : p ∈ (set r k v).rows) : p ∈ r.rows ∨ p = ⟨k, v⟩ := by
  have hget : get? (set r k v) p.key = some p.value := get?_eq_some_iff.mpr h
  rw [get?_set] at hget
  split at hget
  · rename_i heq
    obtain rfl := Option.some.inj hget
    exact .inr (by rw [heq])
  · exact .inl (get?_eq_some_iff.mp hget)

theorem mem_assign (h : p ∈ (assign r ps).rows) : p ∈ r.rows ∨ p ∈ ps := by
  induction ps generalizing r with
  | nil => exact .inl h
  | cons q ps ih =>
    rw [assign, List.foldl_cons] at h
    obtain h | h := ih (r := set r q.key q.value) h
    · obtain h | rfl := mem_set h
      · exact .inl h
      · exact .inr (List.mem_cons_self)
    · exact .inr (List.mem_cons_of_mem q h)

theorem not_mem_map_key (h : ∀ v, ⟨k, v⟩ ∉ ps) : k ∉ ps.map Property.key := by
  intro hmem
  obtain ⟨⟨l, v⟩, hp, rfl⟩ := List.mem_map.mp hmem
  exact h v hp

theorem size_set_of_get?_eq_none (h : get? r k = none) (v : α) : size (set r k v) = size r + 1 := by
  have hfind : r.find? k = none := Option.map_eq_none_iff.mp h
  cases hins : r.insert ⟨k, v⟩ with
  | none =>
    have hsome := Table.insert_eq_none_iff.mp hins
    have hfind' : r.find? (Keyed.key (⟨k, v⟩ : Property α)) = none := hfind
    simp [hfind'] at hsome
  | some r' => simp [set, size, hins, Table.rows_insert hins]

theorem size_assign (r : Record α) (hps : (ps.map Property.key).Nodup)
    (hnew : ∀ p ∈ ps, get? r p.key = none) : size (assign r ps) = size r + ps.length := by
  induction ps generalizing r with
  | nil => rfl
  | cons p ps ih =>
    rw [List.map_cons, List.nodup_cons] at hps
    have hhead := size_set_of_get?_eq_none (hnew p List.mem_cons_self) p.value
    have htail := ih (set r p.key p.value) hps.2 ?_
    · rw [assign, List.foldl_cons]
      rw [assign] at htail
      rw [htail, hhead, List.length_cons]
      omega
    · intro q hq
      have hne : p.key ≠ q.key := fun heq => hps.1 (heq ▸ List.mem_map_of_mem hq)
      rw [get?_set, if_neg hne]
      exact hnew q (List.mem_cons_of_mem p hq)

end Record

theorem nodup_map_filterMap {α β κ : Type*} {l : List α} {f : α → Option β} {g : β → κ} {h : α → κ}
    (hf : ∀ a ∈ l, ∀ b, f a = some b → g b = h a) (hl : (l.map h).Nodup) :
    ((l.filterMap f).map g).Nodup := by
  induction l with
  | nil => simp
  | cons a l ih =>
    rw [List.map_cons, List.nodup_cons] at hl
    have htail := ih (fun a ha => hf a (List.mem_cons_of_mem _ ha)) hl.2
    rw [List.filterMap_cons]
    split
    · exact htail
    · rename_i b hb
      rw [List.map_cons, List.nodup_cons]
      refine ⟨?_, htail⟩
      rw [hf a List.mem_cons_self b hb]
      intro hmem
      obtain ⟨c, hc, hkey⟩ := List.mem_map.mp hmem
      obtain ⟨d, hd, hfd⟩ := List.mem_filterMap.mp hc
      rw [hf d (List.mem_cons_of_mem a hd) c hfd] at hkey
      exact hl.1 (hkey ▸ List.mem_map_of_mem hd)

end A2Wave
