import Mathlib.Data.List.Basic

/-! Operations chained one behind the other: each may start when the one before it has
settled. -/

namespace A2Wave.SerialQueue

inductive Status
  | waiting
  | running
  | settled
  deriving DecidableEq

structure Job (α : Type) where
  op : α
  status : Status

abbrev Queue (α : Type) := List (Job α)

section Operations

variable {α : Type}

def enqueue (q : Queue α) (op : α) : Queue α := q ++ [⟨op, .waiting⟩]

def isSettled (q : Queue α) (k : Nat) : Bool := q[k]?.any fun job => job.status = .settled

/-- What operation `k` is chained to has settled. -/
def ready (q : Queue α) : Nat → Bool
  | 0 => true
  | k + 1 => isSettled q k

def setStatus (q : Queue α) (k : Nat) (op : α) (status : Status) : Queue α :=
  q.take k ++ ⟨op, status⟩ :: q.drop (k + 1)

def start (q : Queue α) (k : Nat) : Option (Queue α × α) :=
  match q[k]? with
  | none => none
  | some job =>
    if job.status = .waiting ∧ ready q k = true then some (setStatus q k job.op .running, job.op)
    else none

def settle (q : Queue α) (k : Nat) : Option (Queue α × α) :=
  match q[k]? with
  | none => none
  | some job =>
    if job.status = .running then some (setStatus q k job.op .settled, job.op) else none

def ops (q : Queue α) : List α := q.map (·.op)

def started (q : Queue α) : List α := ops (q.filter fun job => job.status ≠ .waiting)

def Serial (q : Queue α) : Prop :=
  q.Pairwise fun a b => a.status = .settled ∨ b.status = .waiting

def AllSettled (q : Queue α) : Prop := ∀ job ∈ q, job.status = .settled

end Operations

section Serial

variable {α : Type} {q q' : Queue α} {k : Nat} {op : α} {job : Job α}

theorem eq_of_getElem? (h : q[k]? = some job) : q = q.take k ++ job :: q.drop (k + 1) := by
  obtain ⟨hk, rfl⟩ := List.getElem?_eq_some_iff.mp h
  rw [List.getElem_cons_drop, List.take_append_drop]

theorem start_cases (h : start q k = some (q', op)) :
    ∃ job, q[k]? = some job ∧ job.status = .waiting ∧ ready q k = true ∧ op = job.op ∧
      q' = setStatus q k job.op .running := by
  rw [start] at h
  split at h
  · cases h
  · rename_i job hjob
    split at h
    · rename_i hstart
      cases h
      exact ⟨job, hjob, hstart.1, hstart.2, rfl, rfl⟩
    · cases h

theorem settle_cases (h : settle q k = some (q', op)) :
    ∃ job, q[k]? = some job ∧ job.status = .running ∧ op = job.op ∧ q' = setStatus q k job.op .settled := by
  rw [settle] at h
  split at h
  · cases h
  · rename_i job hjob
    split at h
    · rename_i hrunning
      cases h
      exact ⟨job, hjob, hrunning, rfl, rfl⟩
    · cases h

@[simp] theorem ops_enqueue : ops (enqueue q op) = ops q ++ [op] := by simp [ops, enqueue]

theorem ops_setStatus (h : q[k]? = some job) (status : Status) : ops (setStatus q k job.op status) = ops q := by
  conv_rhs => rw [eq_of_getElem? h]
  simp [ops, setStatus]

theorem ops_start (h : start q k = some (q', op)) : ops q' = ops q := by
  obtain ⟨job, hjob, -, -, -, rfl⟩ := start_cases h
  exact ops_setStatus hjob _

theorem ops_settle (h : settle q k = some (q', op)) : ops q' = ops q := by
  obtain ⟨job, hjob, -, -, rfl⟩ := settle_cases h
  exact ops_setStatus hjob _

theorem mem_ops_settle (h : settle q k = some (q', op)) : op ∈ ops q := by
  obtain ⟨job, hjob, -, rfl, -⟩ := settle_cases h
  exact List.mem_map_of_mem (List.mem_of_getElem? hjob)

@[simp] theorem started_enqueue : started (enqueue q op) = started q := by
  simp [started, enqueue]

theorem serial_split : Serial (q.take k ++ job :: q.drop (k + 1)) ↔ Serial (q.take k) ∧ Serial (q.drop (k + 1)) ∧
      (∀ b ∈ q.drop (k + 1), job.status = .settled ∨ b.status = .waiting) ∧
      ∀ a ∈ q.take k, ∀ b ∈ job :: q.drop (k + 1), a.status = .settled ∨ b.status = .waiting := by
  rw [Serial, List.pairwise_append, List.pairwise_cons]
  exact ⟨fun ⟨h, h', h''⟩ => ⟨h, h'.2, h'.1, h''⟩, fun ⟨h, h', h'', h'''⟩ => ⟨h, ⟨h'', h'⟩, h'''⟩⟩

theorem Serial.enqueue (h : Serial q) : Serial (enqueue q op) := by
  rw [SerialQueue.enqueue, Serial, List.pairwise_append]
  refine ⟨h, List.pairwise_singleton _ _, fun a _ b hb => .inr ?_⟩
  rw [List.mem_singleton.mp hb]

theorem isSettled_iff : isSettled q k = true ↔ ∃ job, q[k]? = some job ∧ job.status = .settled := by
  simp [isSettled, Option.any_eq_true]

theorem Serial.settled_of_mem_take (h : Serial q) (hk : q[k]? = some job)
    (hjob : job.status ≠ .waiting) : ∀ a ∈ q.take k, a.status = .settled := by
  rw [eq_of_getElem? hk, serial_split] at h
  intro a ha
  rcases h.2.2.2 a ha job List.mem_cons_self with hs | hs
  · exact hs
  · exact absurd hs hjob

theorem Serial.settled_of_ready (h : Serial q) (hready : ready q k = true) : ∀ a ∈ q.take k, a.status = .settled := by
  cases k with
  | zero => simp
  | succ k =>
    obtain ⟨job, hjob, hs⟩ := isSettled_iff.mp hready
    intro a ha
    rw [List.take_add_one, hjob, Option.toList_some, List.mem_append, List.mem_singleton] at ha
    rcases ha with ha | rfl
    · exact h.settled_of_mem_take hjob (by rw [hs]; nofun) a ha
    · exact hs

theorem Serial.waiting_after (h : Serial q) (hk : q[k]? = some job)
    (hjob : job.status ≠ .settled) : ∀ b ∈ q.drop (k + 1), b.status = .waiting := by
  rw [eq_of_getElem? hk, serial_split] at h
  exact fun b hb => (h.2.2.1 b hb).resolve_left hjob

theorem Serial.start (h : Serial q) (hstart : start q k = some (q', op)) : Serial q' := by
  obtain ⟨job, hjob, hwaiting, hready, -, rfl⟩ := start_cases hstart
  have hbefore := h.settled_of_ready hready
  have hafter := h.waiting_after hjob (by rw [hwaiting]; nofun)
  rw [eq_of_getElem? hjob, serial_split] at h
  exact serial_split.mpr ⟨h.1, h.2.1, fun b hb => .inr (hafter b hb),
    fun a ha _ _ => .inl (hbefore a ha)⟩

theorem Serial.settle (h : Serial q) (hsettle : settle q k = some (q', op)) : Serial q' := by
  obtain ⟨job, hjob, hrunning, -, rfl⟩ := settle_cases hsettle
  have hbefore := h.settled_of_mem_take hjob (by rw [hrunning]; nofun)
  rw [eq_of_getElem? hjob, serial_split] at h
  exact serial_split.mpr ⟨h.1, h.2.1, fun _ _ => .inl rfl, fun a ha _ _ => .inl (hbefore a ha)⟩

theorem started_append (l r : Queue α) : started (l ++ r) = started l ++ started r := by
  simp [started, ops]

theorem started_waiting (h : ∀ b ∈ q, b.status = .waiting) : started q = [] := by
  rw [started, List.filter_eq_nil_iff.mpr fun b hb => by simp [h b hb]]
  rfl

theorem Serial.started_start (h : Serial q) (hstart : SerialQueue.start q k = some (q', op)) :
    started q' = started q ++ [op] := by
  obtain ⟨job, hjob, hwaiting, -, rfl, rfl⟩ := start_cases hstart
  have hafter := started_waiting (h.waiting_after hjob (by rw [hwaiting]; nofun))
  have hnone : started (job :: q.drop (k + 1)) = [] := by
    apply started_waiting
    intro b hb
    rcases List.mem_cons.mp hb with rfl | hb
    · exact hwaiting
    · exact h.waiting_after hjob (by rw [hwaiting]; nofun) b hb
  have hq : started q = started (q.take k) := by
    conv_lhs => rw [eq_of_getElem? hjob]
    rw [started_append, hnone, List.append_nil]
  rw [setStatus, started_append, hq, List.append_right_inj, ← List.singleton_append,
    started_append, hafter, List.append_nil]
  rfl

theorem started_settle (hsettle : SerialQueue.settle q k = some (q', op)) : started q' = started q := by
  obtain ⟨job, hjob, hrunning, -, rfl⟩ := settle_cases hsettle
  conv_rhs => rw [eq_of_getElem? hjob]
  simp [setStatus, started, ops, hrunning]

theorem Serial.running_unique (h : Serial q) {i j : Nat} {a b : Job α} (hi : q[i]? = some a)
    (hj : q[j]? = some b) (ha : a.status = .running) (hb : b.status = .running) : i = j := by
  by_contra hne
  have hlt {i j : Nat} {a b : Job α} (hi : q[i]? = some a) (hj : q[j]? = some b)
      (ha : a.status = .running) (hb : b.status = .running) (hij : i < j) : False := by
    obtain ⟨hi', rfl⟩ := List.getElem?_eq_some_iff.mp hi
    obtain ⟨hj', rfl⟩ := List.getElem?_eq_some_iff.mp hj
    rcases List.pairwise_iff_getElem.mp h i j hi' hj' hij with hs | hs
    · rw [ha] at hs
      cases hs
    · rw [hb] at hs
      cases hs
  rcases Nat.lt_or_gt_of_ne hne with hij | hij
  · exact hlt hi hj ha hb hij
  · exact hlt hj hi hb ha hij

theorem Serial.allSettled (h : Serial q) (hlast : isSettled q k = true)
    (hlen : q.length = k + 1) : AllSettled q := by
  obtain ⟨job, hjob, hs⟩ := isSettled_iff.mp hlast
  have hbefore := h.settled_of_mem_take hjob (by rw [hs]; nofun)
  intro a ha
  rw [eq_of_getElem? hjob, List.drop_eq_nil_of_le (Nat.le_of_eq hlen), List.mem_append, List.mem_singleton] at ha
  rcases ha with ha | rfl
  · exact hbefore a ha
  · exact hs

theorem AllSettled.started (h : AllSettled q) : started q = ops q := by
  rw [SerialQueue.started, List.filter_eq_self.mpr fun a ha => by simp [h a ha]]

theorem AllSettled.start (h : AllSettled q) : SerialQueue.start q k = none := by
  cases hstart : SerialQueue.start q k with
  | none => rfl
  | some r =>
    obtain ⟨job, hjob, hwaiting, -⟩ := @start_cases α q r.1 k r.2 hstart
    rw [h job (List.mem_of_getElem? hjob)] at hwaiting
    cases hwaiting

theorem AllSettled.settle (h : AllSettled q) : SerialQueue.settle q k = none := by
  cases hsettle : SerialQueue.settle q k with
  | none => rfl
  | some r =>
    obtain ⟨job, hjob, hrunning, -⟩ := @settle_cases α q r.1 k r.2 hsettle
    rw [h job (List.mem_of_getElem? hjob)] at hrunning
    cases hrunning

end Serial

end A2Wave.SerialQueue
