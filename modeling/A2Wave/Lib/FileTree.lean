import A2Wave.Lib.Path

/-! A hierarchical file system as the list of its entries.  A directory stands where an entry says
so, and above every entry; what lies below a directory moves and goes with it. -/

universe u

namespace A2Wave.FileTree

open A2Wave.Path

inductive Node
  | directory
  | file (text : String)
  deriving DecidableEq

def Node.text : Node → Option String
  | .directory => none
  | .file text => some text

abbrev Entries (α : Type u) := List (List α × Node)

variable {α : Type u} [DecidableEq α] {t t' : Entries α} {p q x : List α} {e : List α × Node}

/-- What `lstat` says of a path that is no link. -/
def isDirectory (t : Entries α) (p : List α) : Bool :=
  t.any fun e => decide (p <+: e.1 ∧ (e.1 = p → e.2 = .directory))

def hasEntries (t : Entries α) (p : List α) : Bool := t.any fun e => decide (p <+: e.1 ∧ e.1 ≠ p)

def readFile (t : Entries α) (p : List α) : Option String :=
  t.findSome? fun e => if e.1 = p then e.2.text else none

/-- `mkdir -p`: a file at the path or above it is in the way. -/
def mkdir (t : Entries α) (p : List α) : Option (Entries α) :=
  if t.any fun e => decide (e.1 <+: p ∧ e.2 ≠ .directory) then none
  else some (t ++ [(p, .directory)])

def create (t : Entries α) (p : List α) (text : String) : Option (Entries α) :=
  if (t.any fun e => decide (p <+: e.1)) || !isDirectory t p.dropLast then none
  else some (t ++ [(p, .file text)])

def remove (t : Entries α) (p : List α) : Entries α := t.filter fun e => !decide (p <+: e.1)

def move (p q : List α) (e : List α × Node) : List α × Node :=
  if p <+: e.1 then (q ++ e.1.drop p.length, e.2) else e

/-- `rename(2)` on a directory: the target does not exist, or is an empty directory. -/
def rename (t : Entries α) (p q : List α) : Option (Entries α) :=
  if isDirectory t p && isDirectory t q.dropLast && !decide (p <+: q) &&
      t.all (fun e => !decide (q <+: e.1) || e = (q, .directory)) then
    some ((remove t q).map (move p q))
  else none

theorem isDirectory_iff : isDirectory t p = true ↔ ∃ e ∈ t, p <+: e.1 ∧ (e.1 = p → e.2 = .directory) := by
  simp only [isDirectory, List.any_eq_true, decide_eq_true_eq]

theorem hasEntries_iff : hasEntries t p = true ↔ ∃ e ∈ t, p <+: e.1 ∧ e.1 ≠ p := by
  simp only [hasEntries, List.any_eq_true, decide_eq_true_eq]

theorem isDirectory_of_below {y : List α} (h : isDirectory t (p ++ y) = true) (hy : y ≠ []) :
    hasEntries t p = true := by
  obtain ⟨e, he, hpre, -⟩ := isDirectory_iff.mp h
  refine hasEntries_iff.mpr ⟨e, he, (List.prefix_append p y).trans hpre, ?_⟩
  intro heq
  have hlen := hpre.length_le
  rw [heq, List.length_append] at hlen
  have : y.length ≠ 0 := fun h0 => hy (List.length_eq_zero_iff.mp h0)
  omega

theorem isDirectory_of_hasEntries (h : hasEntries t p = true) : isDirectory t p = true := by
  obtain ⟨e, he, hpre, hne⟩ := hasEntries_iff.mp h
  exact isDirectory_iff.mpr ⟨e, he, hpre, fun heq => absurd heq hne⟩

def NothingNew (t t' : Entries α) (x : List α) : Prop := ∀ e ∈ t', x <+: e.1 → e ∈ t

theorem NothingNew.isDirectory (h : NothingNew t t' x) (hd : isDirectory t' x = true) : isDirectory t x = true := by
  obtain ⟨e, he, hpre, heq⟩ := isDirectory_iff.mp hd
  exact isDirectory_iff.mpr ⟨e, h e he hpre, hpre, heq⟩

omit [DecidableEq α] in
theorem nothingNew_append {n : Node} (h : ¬x <+: p) : NothingNew t (t ++ [(p, n)]) x := by
  intro e he hpre
  rcases List.mem_append.mp he with he | he
  · exact he
  · rw [List.mem_singleton] at he
    subst he
    exact absurd hpre h

theorem mem_remove : e ∈ remove t p ↔ e ∈ t ∧ ¬p <+: e.1 := by
  simp [remove]

theorem nothingNew_remove (t : Entries α) (p x : List α) : NothingNew t (remove t p) x :=
  fun _ he _ => (mem_remove.mp he).1

theorem isDirectory_remove (t : Entries α) (p : List α) : isDirectory (remove t p) p = false := by
  rw [Bool.eq_false_iff]
  intro h
  obtain ⟨e, he, hpre, -⟩ := isDirectory_iff.mp h
  exact (mem_remove.mp he).2 hpre

theorem rename_some (h : rename t p q = some t') : isDirectory t p = true ∧ t' = (remove t q).map (move p q) := by
  simp only [rename] at h
  split at h
  · rename_i hcond
    simp only [Bool.and_eq_true] at hcond
    exact ⟨hcond.1.1.1, (Option.some.inj h).symm⟩
  · cases h

theorem mem_of_rename (h : rename t p q = some t') (he : e ∈ t') : (e ∈ t ∧ ¬p <+: e.1) ∨ q <+: e.1 := by
  obtain ⟨-, rfl⟩ := rename_some h
  obtain ⟨d, hd, rfl⟩ := List.mem_map.mp he
  simp only [move]
  split
  · exact .inr (List.prefix_append q _)
  · rename_i hp
    exact .inl ⟨(mem_remove.mp hd).1, hp⟩

theorem nothingNew_rename (h : rename t p q = some t') (hx : ¬Overlaps x q) : NothingNew t t' x := by
  intro e he hpre
  rcases mem_of_rename h he with ⟨he, -⟩ | hq
  · exact he
  · exact absurd (List.prefix_or_prefix_of_prefix hpre hq) hx

theorem isDirectory_rename (h : rename t p q = some t') (hpq : ¬Overlaps p q) : isDirectory t' p = false := by
  rw [Bool.eq_false_iff]
  intro hd
  obtain ⟨e, he, hpre, -⟩ := isDirectory_iff.mp hd
  rcases mem_of_rename h he with ⟨-, hnot⟩ | hq
  · exact hnot hpre
  · exact hpq (List.prefix_or_prefix_of_prefix hpre hq)

theorem mem_rename_of_mem (h : rename t p q = some t') (he : e ∈ t) (hp : ¬p <+: e.1)
    (hq : ¬q <+: e.1) : e ∈ t' := by
  obtain ⟨-, rfl⟩ := rename_some h
  exact List.mem_map.mpr ⟨e, mem_remove.mpr ⟨he, hq⟩, if_neg hp⟩

theorem readFile_remove (hp : ¬p <+: x) : readFile (remove t p) x = readFile t x := by
  induction t with
  | nil => rfl
  | cons e t ih =>
    simp only [remove, readFile, List.filter_cons, List.findSome?_cons] at ih ⊢
    by_cases he : p <+: e.1
    · have hne : e.1 ≠ x := fun heq => hp (heq ▸ he)
      simp only [he, decide_true, Bool.not_true, Bool.false_eq_true, if_false, hne]
      exact ih
    · simp only [he, decide_false, Bool.not_false, if_true, List.findSome?_cons]
      rw [ih]

theorem readFile_map_move (hp : ¬p <+: x) (hq : ¬q <+: x) : readFile (t.map (move p q)) x = readFile t x := by
  induction t with
  | nil => rfl
  | cons e t ih =>
    simp only [readFile, List.map_cons, List.findSome?_cons] at ih ⊢
    rw [ih]
    by_cases he : p <+: e.1
    · have hne : e.1 ≠ x := fun heq => hp (heq ▸ he)
      have hmoved : q ++ e.1.drop p.length ≠ x := fun heq => hq (heq ▸ List.prefix_append q _)
      simp only [move, he, if_true, hmoved, if_false, hne]
    · simp only [move, he, if_false]

theorem readFile_rename (h : rename t p q = some t') (hp : ¬p <+: x) (hq : ¬q <+: x) :
    readFile t' x = readFile t x := by
  obtain ⟨-, rfl⟩ := rename_some h
  rw [readFile_map_move hp hq, readFile_remove hq]

theorem readFile_append (n : Node) :
    readFile (t ++ [(p, n)]) x = (readFile t x).or (if p = x then n.text else none) := by
  rw [readFile, List.findSome?_append]
  congr 1
  simp only [List.findSome?_cons, List.findSome?_nil]
  split <;> simp_all

theorem create_some {text : String} (h : create t p text = some t') :
    t' = t ++ [(p, .file text)] ∧ (∀ e ∈ t, ¬p <+: e.1) ∧ readFile t' p = some text := by
  simp only [create] at h
  split at h
  · cases h
  · rename_i hcond
    simp only [Bool.or_eq_true, not_or, List.any_eq_true, decide_eq_true_eq, not_exists, not_and] at hcond
    obtain rfl := Option.some.inj h
    refine ⟨rfl, hcond.1, ?_⟩
    have hnone : readFile t p = none := by
      rw [readFile, List.findSome?_eq_none_iff]
      intro e he
      refine if_neg ?_
      intro heq
      exact hcond.1 e he (heq ▸ List.prefix_refl e.1)
    rw [readFile_append, hnone, if_pos rfl]
    rfl

theorem mkdir_some (h : mkdir t p = some t') : t' = t ++ [(p, .directory)] := by
  simp only [mkdir] at h
  split at h
  · cases h
  · exact (Option.some.inj h).symm

end A2Wave.FileTree
