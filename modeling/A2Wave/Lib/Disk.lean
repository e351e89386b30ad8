import Mathlib.Data.List.Infix
import Mathlib.Logic.Function.Basic
import A2Wave.Lib.Session

/-! A hierarchical file system whose calls may fail half way, as a map from paths to what stands there. -/

namespace A2Wave.Disk

open Session

inductive Node (β : Type)
  | directory
  | file (content : β)

abbrev Tree (α β : Type) := List α → Option (Node β)

/-- The calls that fail for a reason outside the tree.  A write that fails may leave a part of the content. -/
structure Faults (α β : Type) where
  create : List α → Bool := fun _ => false
  write : List α → Option (Option β) := fun _ => none
  remove : List α → Bool := fun _ => false

variable {α β : Type} [DecidableEq α]

section Calls

variable (faults : Faults α β)

def existsSync (t : Tree α β) (p : List α) : Bool := (t p).isSome

def put (t : Tree α β) (p : List α) (node : Node β) : Tree α β := Function.update t p (some node)

def makeDirectory (p : List α) : Session (Tree α β) String Unit := step fun t =>
  match t p with
  | some .directory => (.ok (), t)
  | some (.file _) => (.error "ENOTDIR", t)
  | none => if faults.create p then (.error "ENOSPC", t) else (.ok (), put t p .directory)

/-- `mkdirSync` with `recursive`. -/
def mkdirSync (p : List α) : Session (Tree α β) String Unit := p.inits.forM (makeDirectory faults)

def writeFileSync (p : List α) (content : β) : Session (Tree α β) String Unit := step fun t =>
  match t p.dropLast, t p with
  | some .directory, some .directory => (.error "EISDIR", t)
  | some .directory, _ =>
    match faults.write p with
    | none => (.ok (), put t p (.file content))
    | some none => (.error "ENOSPC", t)
    | some (some written) => (.error "ENOSPC", put t p (.file written))
  | _, _ => (.error "ENOENT", t)

/-- `rmSync` with `recursive` and `force`, where a failure is caught. -/
def rmSync (t : Tree α β) (p : List α) : Tree α β :=
  if faults.remove p then t else fun q => if p <+: q then none else t q

end Calls

section Growth

variable {faults : Faults α β} {t t' t'' : Tree α β} {p q : List α}

structure Grows (p : List α) (t t' : Tree α β) : Prop where
  kept : ∀ q, existsSync t q = true → existsSync t' q = true
  new : ∀ q, existsSync t' q = true → existsSync t q = true ∨ q <+: p

omit [DecidableEq α] in
theorem Grows.refl (p : List α) (t : Tree α β) : Grows p t t := ⟨fun _ h => h, fun _ h => .inl h⟩

omit [DecidableEq α] in
theorem Grows.trans (h : Grows p t t') (h' : Grows p t' t'') : Grows p t t'' where
  kept := fun q hq => h'.kept q (h.kept q hq)
  new := fun q hq => (h'.new q hq).elim (h.new q) .inr

omit [DecidableEq α] in
theorem Grows.mono (h : Grows q t t') (hq : q <+: p) : Grows p t t' where
  kept := h.kept
  new := fun x hx => (h.new x hx).imp_right fun hpre => hpre.trans hq

theorem existsSync_put (node : Node β) : existsSync (put t p node) q = true ↔ q = p ∨ existsSync t q = true := by
  by_cases hq : q = p
  · simp [existsSync, put, hq]
  · simp [existsSync, put, hq]

theorem grows_put (node : Node β) : Grows p t (put t p node) where
  kept := fun _ hq => (existsSync_put node).mpr (.inr hq)
  new := by
    intro q hq
    rcases (existsSync_put node).mp hq with rfl | hq
    · exact .inr List.prefix_rfl
    · exact .inl hq

theorem makeDirectory_leaves : Leaves (makeDirectory faults p) t (fun _ t' => Grows p t t' ∧ existsSync t' p = true)
    (Grows p t) := by
  apply leaves_step
  · intro _ t' hstep
    split at hstep
    · rename_i hp
      obtain ⟨-, rfl⟩ := Prod.mk.inj hstep
      exact ⟨.refl p t, by rw [existsSync, hp]; rfl⟩
    · cases hstep
    · split at hstep
      · cases hstep
      · obtain ⟨-, rfl⟩ := Prod.mk.inj hstep
        exact ⟨grows_put _, (existsSync_put _).mpr (.inl rfl)⟩
  · intro e t' hstep
    split at hstep
    · cases hstep
    · obtain ⟨-, rfl⟩ := Prod.mk.inj hstep
      exact .refl p t
    · split at hstep
      · obtain ⟨-, rfl⟩ := Prod.mk.inj hstep
        exact .refl p t
      · cases hstep

theorem mkdirSync_leaves : Leaves (mkdirSync faults p) t (fun _ t' => Grows p t t' ∧ existsSync t' p = true)
    (Grows p t) := by
  have hloop : Leaves (mkdirSync faults p) t
      (fun _ t' => Grows p t t' ∧ ∀ q ∈ p.inits, existsSync t' q = true) (Grows p t) := by
    refine @leaves_forM _ _ t (Grows p t) _ p.inits (makeDirectory faults)
      (fun front t' => Grows p t t' ∧ ∀ q ∈ front, existsSync t' q = true) ⟨.refl p t, nofun⟩ ?_
    rintro front q rest hinits t' ⟨hgrows, hfront⟩
    have hq : q <+: p := (List.mem_inits q p).mp (hinits ▸ List.mem_append_right front List.mem_cons_self)
    apply makeDirectory_leaves.mono
    · rintro _ t'' ⟨hstep, hexists⟩
      refine ⟨hgrows.trans (hstep.mono hq), fun x hx => ?_⟩
      rcases List.mem_append.mp hx with hx | hx
      · exact hstep.kept x (hfront x hx)
      · exact List.mem_singleton.mp hx ▸ hexists
    · exact fun t'' hstep => hgrows.trans (hstep.mono hq)
  exact hloop.mono (fun _ t' h => ⟨h.1, h.2 p ((List.mem_inits p p).mpr List.prefix_rfl)⟩) fun _ h => h

theorem writeFileSync_leaves (content : β) :
    Leaves (writeFileSync faults p content) t (fun _ => Grows p t) (Grows p t) := by
  have hgrows : ∀ r t', (match t p.dropLast, t p with
      | some .directory, some .directory => (Except.error "EISDIR", t)
      | some .directory, _ =>
        match faults.write p with
        | none => (.ok (), put t p (.file content))
        | some none => (.error "ENOSPC", t)
        | some (some written) => (.error "ENOSPC", put t p (.file written))
      | _, _ => (.error "ENOENT", t)) = (r, t') → Grows p t t' := by
    intro r t' hstep
    split at hstep
    · obtain ⟨-, rfl⟩ := Prod.mk.inj hstep
      exact .refl p t
    · split at hstep <;> obtain ⟨-, rfl⟩ := Prod.mk.inj hstep
      · exact grows_put _
      · exact .refl p t
      · exact grows_put _
    · obtain ⟨-, rfl⟩ := Prod.mk.inj hstep
      exact .refl p t
  exact leaves_step (fun _ t' => hgrows _ t') fun _ t' => hgrows _ t'

theorem existsSync_rmSync (hremove : faults.remove p = false) :
    existsSync (rmSync faults t p) q = true ↔ existsSync t q = true ∧ ¬ p <+: q := by
  have hrm : rmSync faults t p = fun q => if p <+: q then none else t q := if_neg (by simp [hremove])
  rw [hrm, existsSync]
  split
  · rename_i hpre
    exact ⟨nofun, fun h => absurd hpre h.2⟩
  · rename_i hpre
    exact ⟨fun h => ⟨h, hpre⟩, fun h => h.1⟩

end Growth

end A2Wave.Disk
