import Mathlib
import A2Wave.Skill.Replace

/-! `readSkillFile` beside `writeSkillFile`: the file of the storage root that a path names for each of them. -/

namespace A2Wave.SkillAccess

open SkillStorage SkillReplace

section Files

def ensureOne (dir : Dir) (p : List Name) : Except String Dir :=
  match dir.node? p with
  | some .directory => .ok dir
  | some (.file _) => .error "ENOTDIR"
  | none => .ok (dir.put p .directory)

variable {host : SkillHost} {dir dir' : Dir} {path p q : List Name} {ps : List (List Name)} {content : Buffer}

theorem lookup_cons (entry : List Name × Node) (nodes : List (List Name × Node)) (q : List Name) :
    (entry :: nodes).lookup q = if q = entry.1 then some entry.2 else nodes.lookup q := by
  rw [List.lookup.eq_def]
  by_cases hq : q = entry.1
  · simp [hq]
  · simp [hq, beq_eq_false_iff_ne.mpr hq]

theorem lookup_map_of_ne {node : Node} (h : q ≠ path) (nodes : List (List Name × Node)) :
    (nodes.map fun entry => if entry.1 = path then (path, node) else entry).lookup q = nodes.lookup q := by
  induction nodes with
  | nil => rfl
  | cons entry nodes ih =>
    rw [List.map_cons, lookup_cons, lookup_cons, ih]
    by_cases hentry : entry.1 = path
    · rw [if_pos hentry, if_neg h, if_neg (hentry ▸ h)]
    · rw [if_neg hentry]

theorem node?_put (hpath : path ≠ []) (node : Node) (q : List Name) :
    (dir.put path node).node? q = if q = path then some node else dir.node? q := by
  unfold Dir.node? Dir.put
  by_cases hq : q = []
  · rw [if_pos hq, if_pos hq, if_neg (hq ▸ Ne.symm hpath)]
  rw [if_neg hq, if_neg hq]
  cases hfind : dir.nodes.lookup path with
  | none =>
    rw [Option.isSome_none, if_neg Bool.false_ne_true, List.lookup_append, lookup_cons]
    split_ifs with heq
    · rw [heq, hfind]
      rfl
    · rw [List.lookup_nil, Option.or_none]
  | some old =>
    rw [Option.isSome_some, if_pos rfl]
    generalize dir.nodes = nodes at hfind
    induction nodes with
    | nil => cases hfind
    | cons entry nodes ih =>
      obtain ⟨name, stored⟩ := entry
      rw [lookup_cons] at hfind
      rw [List.map_cons, lookup_cons, lookup_cons]
      by_cases hname : name = path
      · subst hname
        simp only [if_true]
        split_ifs with heq
        · rfl
        · exact lookup_map_of_ne heq nodes
      · rw [if_neg hname]
        rw [if_neg (Ne.symm hname)] at hfind
        dsimp only
        rw [ih hfind]
        split_ifs with h₁ h₂ <;> first | rfl | exact absurd (h₁.symm.trans h₂) hname

theorem ensureOne_ok (h : ensureOne dir p = .ok dir') : dir.file? p = none ∧ (∀ q, dir'.file? q = dir.file? q) ∧
    ∀ q, dir'.node? q = some .directory ↔ dir.node? q = some .directory ∨ q = p := by
  unfold ensureOne at h
  split at h
  · rename_i hnode
    obtain rfl := Except.ok.inj h
    exact ⟨by rw [Dir.file?, hnode], fun _ => rfl, fun q => (or_iff_left_of_imp fun hq => hq ▸ hnode).symm⟩
  · cases h
  · rename_i hnode
    obtain rfl := Except.ok.inj h
    have hp : p ≠ [] := fun heq => by simp [Dir.node?, heq] at hnode
    refine ⟨by rw [Dir.file?, hnode], fun q => ?_, fun q => ?_⟩
    · rw [Dir.file?, node?_put hp, Dir.file?]
      split_ifs with heq
      · rw [heq, hnode]
      · rfl
    · rw [node?_put hp]
      split_ifs with heq
      · simp [heq]
      · simp [heq]

theorem ensureAll_ok (h : ps.foldlM ensureOne dir = .ok dir') : (∀ p ∈ ps, dir.file? p = none) ∧
    (∀ q, dir'.file? q = dir.file? q) ∧
    ∀ q, dir'.node? q = some .directory ↔ dir.node? q = some .directory ∨ q ∈ ps := by
  induction ps generalizing dir with
  | nil =>
    obtain rfl := Except.ok.inj h
    simp
  | cons p ps ih =>
    rw [List.foldlM_cons] at h
    cases hone : ensureOne dir p with
    | error e => rw [hone] at h; cases h
    | ok next =>
      rw [hone] at h
      obtain ⟨hfree, hfile, hnode⟩ := ensureOne_ok hone
      obtain ⟨hfree', hfile', hnode'⟩ := ih h
      refine ⟨fun q hq => ?_, fun q => (hfile' q).trans (hfile q), fun q => ?_⟩
      · rcases List.mem_cons.mp hq with rfl | hq
        · exact hfree
        · exact (hfile q).symm.trans (hfree' q hq)
      · rw [hnode', hnode, or_assoc, List.mem_cons]

theorem ensureAll_of_free (h : ∀ p ∈ ps, dir.file? p = none) : ∃ dir', ps.foldlM ensureOne dir = .ok dir' := by
  induction ps generalizing dir with
  | nil => exact ⟨dir, rfl⟩
  | cons p ps ih =>
    obtain ⟨next, hone⟩ : ∃ next, ensureOne dir p = .ok next := by
      have hp := h p List.mem_cons_self
      unfold ensureOne
      split
      · exact ⟨_, rfl⟩
      · rename_i hnode
        rw [Dir.file?, hnode] at hp
        cases hp
      · exact ⟨_, rfl⟩
    rw [List.foldlM_cons, hone]
    exact ih fun q hq => ((ensureOne_ok hone).2.1 q).trans (h q (List.mem_cons_of_mem _ hq))

/-- No file stands above the path, and no directory at it. -/
def Open (dir : Dir) (path : List Name) : Prop :=
  (∀ p, p <+: path.dropLast → dir.file? p = none) ∧ dir.node? path ≠ some .directory

theorem Open.ne_nil (h : Open dir path) : path ≠ [] := by
  rintro rfl
  exact h.2 rfl

theorem writeFileSync_ok (h : writeFileSync host dir path content = .ok dir') :
    path.all host.acceptsName = true ∧ Open dir path ∧
      (∀ q, dir'.file? q = if q = path then some content else dir.file? q) ∧
      ∀ q, dir'.node? q = some .directory ↔ dir.node? q = some .directory ∨ q <+: path.dropLast := by
  unfold writeFileSync at h
  split at h
  · cases h
  rename_i haccepts
  cases hensure : dir.ensure path.dropLast with
  | error e => rw [hensure] at h; cases h
  | ok next =>
    rw [hensure] at h
    simp only [bind, Except.bind] at h
    split at h
    · cases h
    · rename_i hdir
      obtain rfl := Except.ok.inj h
      obtain ⟨hfree, hfile, hnode⟩ := ensureAll_ok hensure
      simp only [List.mem_inits] at hfree hnode
      have hpath : path ≠ [] := fun heq => hdir (by simp [Dir.node?, heq])
      refine ⟨by simpa using haccepts, ⟨hfree, fun hq => hdir ((hnode path).mpr (.inl hq))⟩, fun q => ?_, fun q => ?_⟩
      · rw [Dir.file?, node?_put hpath, ← hfile q]
        split_ifs with heq <;> rfl
      · rw [node?_put hpath, ← hnode]
        split_ifs with heq
        · subst heq
          exact iff_of_false (fun h => by cases h) hdir
        · rfl

theorem writeFileSync_of_open (haccepts : path.all host.acceptsName = true) (h : Open dir path) :
    ∃ dir', writeFileSync host dir path content = .ok dir' := by
  obtain ⟨next, hensure⟩ := ensureAll_of_free fun p hp => h.1 p ((List.mem_inits p path.dropLast).mp hp)
  have hnode : next.node? path ≠ some .directory := by
    intro hdir
    rcases ((ensureAll_ok hensure).2.2 path).mp hdir with hdir | hmem
    · exact h.2 hdir
    · have hle := ((List.mem_inits _ _).mp hmem).length_le
      have hpos := List.length_pos_iff.mpr h.ne_nil
      rw [List.length_dropLast] at hle
      omega
  refine ⟨next.put path (.file content), ?_⟩
  rw [writeFileSync, haccepts, if_neg (by simp), show dir.ensure path.dropLast = .ok next from hensure]
  simp only [bind, Except.bind]

theorem file?_getD (disk : Option Dir) (path : List Name) : (disk.getD {}).file? path = disk.bind (·.file? path) := by
  cases disk with
  | none =>
    rw [Option.getD_none, Option.bind_none, Dir.file?, Dir.node?]
    split_ifs <;> rfl
  | some dir => rfl

end Files

section Functions

variable (host : SkillHost)

/-- What stands at an absolute path below the storage root. -/
def nodeAt (s : Storage) (path : List Name) : Option Node :=
  match path.drop host.storageRoot.length with
  | [] => none
  | name :: rest =>
    if host.storageRoot <+: path then (s (String.ofList name)).bind (·.node? rest) else none

def pathText (resolved : List Name) : List Char := '/' :: ['/'].intercalate resolved.reverse

def readSkillFile (skillId filePath : String) (s : Storage) : Except String Buffer :=
  let baseResolved := getSkillStoragePath host skillId
  let resolved := Path.pushAll baseResolved filePath.toList
  if ¬pathText baseResolved <+: pathText resolved then .error "Path traversal not allowed"
  else match nodeAt host s resolved.reverse with
    | none => .error "File not found"
    | some .directory => .error "Cannot read directory as file"
    | some (.file content) => .ok content

structure Write where
  skillId : String
  filePath : String
  content : Buffer

def Write.run (w : Write) (s : Storage) : Except String Unit × Storage :=
  let (result, dir) := writeSkillFile host w.skillId w.filePath w.content (s w.skillId)
  (result, s.put w.skillId (some dir))

/-- `normalized` of `writeSkillFile`. -/
def normalized (filePath : String) : List Char :=
  match squeezeSlashes (forwardSlashes filePath.toList) with
  | '/' :: rest => rest
  | path => path

/-- The segments below the directory of the skill under which a file is written. -/
def written (filePath : String) : List Name :=
  ((normalized filePath).splitOn '/').filter fun s => s ≠ [] ∧ s ≠ ['.']

/-- The path as it is read leads into a directory whose name goes on after that of the skill. -/
def NamesNeighbour (skillId filePath : String) : Prop :=
  ∃ tail rest, tail ≠ [] ∧ rest ≠ [] ∧ (Path.pushAll (getSkillStoragePath host skillId) filePath.toList).reverse =
      host.storageRoot ++ (skillId.toList ++ tail) :: rest

/-- The path names a file for `writeSkillFile`, which takes a backslash for a slash. -/
def Respelled (filePath : String) : Prop :=
  Char.ofNat 92 ∈ filePath.toList ∧ hasDots (normalized filePath) = false ∧ written filePath ≠ [] ∧
    (written filePath).all host.acceptsName = true

structure StaysInside (skillId filePath : String) : Prop where
  reads : ∀ s content, readSkillFile host skillId filePath s = .ok content →
    ∃ path, (s skillId).bind (·.file? path) = some content
  writes : ∀ s content path, nodeAt host ((Write.mk skillId filePath content).run host s).2 path ≠ nodeAt host s path →
    ∃ rest, path = host.storageRoot ++ skillId.toList :: rest ∧
      (rest = [] → nodeAt host ((Write.mk skillId filePath content).run host s).2 path = some .directory)
  returns : ∀ s content s', (Write.mk skillId filePath content).run host s = (.ok (), s') →
    ∀ later : List Write, (∀ w ∈ later, w.skillId = skillId → written w.filePath ≠ written filePath) →
    readSkillFile host skillId filePath (later.foldl (fun s w => (w.run host s).2) s') = .ok content

end Functions

section Access

variable {host : SkillHost} {skillId filePath : String} {s s' : Storage} {content : Buffer} {path rest : List Name}
  {name : Name}

theorem nodeAt_below (s : Storage) (name : Name) (rest : List Name) :
    nodeAt host s (host.storageRoot ++ name :: rest) = (s (String.ofList name)).bind (·.node? rest) := by
  rw [nodeAt, List.drop_left]
  exact if_pos (List.prefix_append _ _)

theorem nodeAt_put {disk : Option Dir} (h : nodeAt host (s.put skillId disk) path ≠ nodeAt host s path) :
    ∃ rest, path = host.storageRoot ++ skillId.toList :: rest := by
  unfold nodeAt at h
  split at h
  · exact absurd rfl h
  · rename_i name rest hdrop
    split at h
    · rename_i hroot
      have hname : String.ofList name = skillId := by
        by_contra hne
        exact h (by rw [Storage.put, Function.update_of_ne hne])
      obtain ⟨below, rfl⟩ := hroot
      rw [List.drop_left] at hdrop
      exact ⟨rest, by rw [hdrop, ← hname, String.toList_ofList]⟩
    · exact absurd rfl h

theorem pathText_prefix_iff (hroot : ∀ q ∈ host.storageRoot, Path.Plain q) (hid : Path.Plain skillId.toList) :
    pathText (getSkillStoragePath host skillId) <+:
        pathText (Path.pushAll (getSkillStoragePath host skillId) filePath.toList) ↔
      ∃ tail rest, (Path.pushAll (getSkillStoragePath host skillId) filePath.toList).reverse =
        host.storageRoot ++ (skillId.toList ++ tail) :: rest := by
  have hbase : ∀ q ∈ getSkillStoragePath host skillId, Path.Plain q := by
    intro q hq
    rcases List.mem_cons.mp hq with rfl | hq
    · exact hid
    · exact hroot q (List.mem_reverse.mp hq)
  rw [pathText, pathText, List.cons_prefix_cons, and_iff_right rfl, getSkillStoragePath, List.reverse_cons,
    List.reverse_reverse]
  refine Separated.intercalate_prefix_iff hid.1 (fun q hq => ?_) fun q hq => ?_
  · rcases List.mem_append.mp hq with hq | hq
    · exact (hroot q hq).2.2.2
    · exact List.mem_singleton.mp hq ▸ hid.2.2.2
  · exact (Path.plain_pushAll hbase _ q (List.mem_reverse.mp hq)).2.2.2

theorem pushAll_written (hdots : hasDots (normalized filePath) = false) (kept : List Name) :
    Path.pushAll kept (normalized filePath) = (written filePath).reverse ++ kept :=
  Path.pushAll_dotless (of_decide_eq_false hdots) kept

theorem writeSkillFile_named (hdots : hasDots (normalized filePath) = false) (hname : normalized filePath ≠ [])
    (disk : Option Dir) : writeSkillFile host skillId filePath content disk =
      writeIn host (disk.getD {}) (written filePath) content := by
  have heq : writeSkillFile host skillId filePath content disk =
      if normalized filePath = [] ∨ hasDots (normalized filePath) = true then (.error "Invalid file path", disk.getD {})
      else if ¬getSkillStoragePath host skillId <:+
          Path.pushAll (getSkillStoragePath host skillId) (normalized filePath) then
        (.error "Path traversal not allowed", disk.getD {})
      else writeIn host (disk.getD {}) ((Path.pushAll (getSkillStoragePath host skillId)
        (normalized filePath)).reverse.drop (getSkillStoragePath host skillId).length) content := rfl
  rw [heq, if_neg (by simp [hdots, hname]), pushAll_written hdots,
    if_neg (not_not_intro (List.suffix_append _ _)), List.reverse_append, List.reverse_reverse,
    List.drop_left' List.length_reverse]

theorem writeSkillFile_cases (host : SkillHost) (skillId filePath : String) (content : Buffer) (disk : Option Dir) :
    (∃ e, writeSkillFile host skillId filePath content disk = (.error e, disk.getD {})) ∨
    hasDots (normalized filePath) = false ∧ ∃ dir, writeSkillFile host skillId filePath content disk = (.ok (), dir) ∧
      writeFileSync host (disk.getD {}) (written filePath) content = .ok dir := by
  by_cases hname : normalized filePath = [] ∨ hasDots (normalized filePath) = true
  · exact .inl ⟨_, if_pos hname⟩
  obtain ⟨hname, hdots⟩ := not_or.mp hname
  rw [writeSkillFile_named (Bool.eq_false_iff.mpr hdots) hname, writeIn]
  cases hwrite : writeFileSync host (disk.getD {}) (written filePath) content with
  | error e => exact .inl ⟨e, rfl⟩
  | ok dir => exact .inr ⟨Bool.eq_false_iff.mpr hdots, dir, rfl, rfl⟩

theorem run_ok (h : (Write.mk skillId filePath content).run host s = (.ok (), s')) :
    hasDots (normalized filePath) = false ∧ ∃ dir, s' = s.put skillId (some dir) ∧
      writeFileSync host ((s skillId).getD {}) (written filePath) content = .ok dir := by
  rcases writeSkillFile_cases host skillId filePath content (s skillId) with ⟨e, hw⟩ | ⟨hdots, dir, hw, hwrite⟩
  · rw [Write.run, hw] at h
    cases h
  · rw [Write.run, hw] at h
    exact ⟨hdots, dir, (Prod.mk.inj h).2.symm, hwrite⟩

theorem run_storage (w : Write) (s : Storage) : (w.run host s).2 =
    s.put w.skillId (some (writeSkillFile host w.skillId w.filePath w.content (s w.skillId)).2) := rfl

/-- A write leaves every other file as it is. -/
theorem run_kept (w : Write) (h : w.skillId = skillId → written w.filePath ≠ path) :
    ((w.run host s).2 skillId).bind (·.file? path) = (s skillId).bind (·.file? path) := by
  by_cases hid : w.skillId = skillId
  · subst hid
    rw [run_storage, Storage.put, Function.update_self, Option.bind_some, ← file?_getD (s w.skillId)]
    rcases writeSkillFile_cases host w.skillId w.filePath w.content (s w.skillId) with ⟨e, hw⟩ | ⟨-, dir, hw, hwrite⟩
    · rw [hw]
    · rw [hw, (writeFileSync_ok hwrite).2.2.1, if_neg (h rfl).symm]
  · rw [run_storage, Storage.put, Function.update_of_ne (Ne.symm hid)]

theorem runs_kept (later : List Write) (h : ∀ w ∈ later, w.skillId = skillId → written w.filePath ≠ path) :
    ((later.foldl (fun s w => (w.run host s).2) s) skillId).bind (·.file? path) = (s skillId).bind (·.file? path) := by
  induction later generalizing s with
  | nil => rfl
  | cons w later ih =>
    rw [List.foldl_cons, ih fun v hv => h v (List.mem_cons_of_mem _ hv), run_kept w (h w List.mem_cons_self)]

theorem readSkillFile_ok (hroot : ∀ q ∈ host.storageRoot, Path.Plain q) (hid : Path.Plain skillId.toList)
    (h : readSkillFile host skillId filePath s = .ok content) : ∃ tail rest,
      (Path.pushAll (getSkillStoragePath host skillId) filePath.toList).reverse =
        host.storageRoot ++ (skillId.toList ++ tail) :: rest ∧
      (s (String.ofList (skillId.toList ++ tail))).bind (·.file? rest) = some content := by
  unfold readSkillFile at h
  dsimp only at h
  split at h
  · cases h
  rename_i hprefix
  obtain ⟨tail, rest, heq⟩ := (pathText_prefix_iff hroot hid).mp (not_not.mp hprefix)
  refine ⟨tail, rest, heq, ?_⟩
  rw [heq, nodeAt_below] at h
  cases hdisk : s (String.ofList (skillId.toList ++ tail)) with
  | none => rw [hdisk] at h; cases h
  | some dir =>
    rw [hdisk, Option.bind_some] at h
    rw [Option.bind_some, Dir.file?]
    split at h
    · cases h
    · cases h
    · rename_i hnode
      rw [hnode]
      exact congrArg some (Except.ok.inj h)

theorem readSkillFile_of_file (hroot : ∀ q ∈ host.storageRoot, Path.Plain q) (hid : Path.Plain skillId.toList)
    {tail : Name} (hpath : (Path.pushAll (getSkillStoragePath host skillId) filePath.toList).reverse =
      host.storageRoot ++ (skillId.toList ++ tail) :: rest)
    (h : (s (String.ofList (skillId.toList ++ tail))).bind (·.file? rest) = some content) :
    readSkillFile host skillId filePath s = .ok content := by
  rw [readSkillFile, if_neg (not_not_intro ((pathText_prefix_iff hroot hid).mpr ⟨tail, rest, hpath⟩)), hpath,
    nodeAt_below]
  obtain ⟨dir, hdir, hfile⟩ := Option.bind_eq_some_iff.mp h
  rw [hdir, Option.bind_some]
  rw [Dir.file?] at hfile
  split at hfile
  · rename_i hnode
    rw [hnode]
    exact congrArg Except.ok (Option.some.inj hfile)
  · cases hfile

theorem sublist_squeezeSlashes (p : List Char) : (squeezeSlashes p).Sublist p := by
  induction p with
  | nil => exact .slnil
  | cons c p ih =>
    rw [squeezeSlashes]
    split
    · exact ih.cons c
    · exact ih.cons_cons c

theorem squeezeSlashes_append (a b : List Char) :
    squeezeSlashes (a ++ '.' :: b) = squeezeSlashes a ++ '.' :: squeezeSlashes b := by
  induction a with
  | nil => rfl
  | cons c a ih =>
    have hhead : (a ++ '.' :: b).head? = some '/' ↔ a.head? = some '/' := by cases a <;> simp
    simp only [List.cons_append, squeezeSlashes, hhead, ih]
    split <;> rfl

theorem pushAll_squeezeSlashes (kept : List Name) (front p : List Char) :
    Path.pushAll kept (front ++ squeezeSlashes p) = Path.pushAll kept (front ++ p) := by
  induction p generalizing front with
  | nil => rfl
  | cons c p ih =>
    rw [squeezeSlashes]
    split
    · rename_i h
      obtain ⟨rfl, hhead⟩ := h
      obtain ⟨p, rfl⟩ := List.head?_eq_some_iff.mp hhead
      have hskip := Path.pushAll_append (Path.pushAll kept front) [] p
      rw [ih, Path.pushAll_append, Path.pushAll_append, ← List.nil_append ('/' :: p), hskip]
      rfl
    · rw [List.append_cons, ih, ← List.append_cons]

theorem pushAll_normalized (hspell : Char.ofNat 92 ∉ filePath.toList) (kept : List Name) :
    Path.pushAll kept filePath.toList = Path.pushAll kept (normalized filePath) := by
  have hforward : forwardSlashes filePath.toList = filePath.toList := by
    refine (List.map_congr_left fun c hc => ?_).trans (List.map_id _)
    exact if_neg fun hslash : c = Char.ofNat 92 => hspell (hslash ▸ hc)
  rw [← List.nil_append filePath.toList, ← pushAll_squeezeSlashes, List.nil_append, normalized, hforward]
  split
  · rename_i rest heq
    rw [heq, ← List.nil_append ('/' :: rest), Path.pushAll_append]
    rfl
  · rfl

theorem dots_normalized (h : ['.', '.'] <:+: filePath.toList) : hasDots (normalized filePath) = true := by
  obtain ⟨a, b, h⟩ := h
  have hforward : forwardSlashes filePath.toList = forwardSlashes a ++ '.' :: '.' :: forwardSlashes b := by
    rw [← h]
    simp [forwardSlashes]
  rw [hasDots, decide_eq_true_iff, normalized, hforward, squeezeSlashes_append]
  change _ <:+: match squeezeSlashes (forwardSlashes a) ++ '.' :: '.' :: squeezeSlashes (forwardSlashes b) with
    | '/' :: rest => rest
    | path => path
  split
  · rename_i rest heq
    cases hfront : squeezeSlashes (forwardSlashes a) with
    | nil => rw [hfront] at heq; cases heq
    | cons c front =>
      rw [hfront] at heq
      obtain rfl := (List.cons.inj heq).2
      exact ⟨front, squeezeSlashes (forwardSlashes b), by simp⟩
  · exact ⟨squeezeSlashes (forwardSlashes a), squeezeSlashes (forwardSlashes b), by simp⟩

theorem backslash_not_mem_normalized : Char.ofNat 92 ∉ normalized filePath := by
  have hforward : Char.ofNat 92 ∉ squeezeSlashes (forwardSlashes filePath.toList) := by
    intro hmem
    obtain ⟨c, -, hc⟩ := List.mem_map.mp ((sublist_squeezeSlashes _).subset hmem)
    split_ifs at hc with hslash
    · cases hc
    · exact hslash hc
  rw [normalized]
  split
  · rename_i rest heq
    exact fun hmem => hforward (heq ▸ List.mem_cons_of_mem _ hmem)
  · exact hforward

/-- A path with a backslash is written under another name than it is read. -/
theorem written_ne_of_backslash (hspell : Char.ofNat 92 ∈ filePath.toList) :
    ((filePath.toList.splitOn '/').filter fun s => s ≠ [] ∧ s ≠ ['.']) ≠ written filePath := by
  intro heq
  rw [← @List.intercalate_splitOn _ filePath.toList _ _ '/'] at hspell
  obtain ⟨q, hq, hmem⟩ := (Separated.mem_intercalate hspell).resolve_left (by decide)
  have hkept : q ∈ written filePath := by
    rw [← heq, List.mem_filter, decide_eq_true_iff]
    refine ⟨hq, ?_, ?_⟩
    · rintro rfl
      cases hmem
    · rintro rfl
      exact absurd hmem (by decide)
  have hblock := @Separated.infix_intercalate _ '/' _ _ (List.mem_of_mem_filter hkept)
  rw [List.intercalate_splitOn] at hblock
  exact backslash_not_mem_normalized (hblock.subset hmem)

theorem returns_of_spelled (hroot : ∀ q ∈ host.storageRoot, Path.Plain q) (hid : Path.Plain skillId.toList)
    (hspell : ¬Respelled host filePath) (hrun : (Write.mk skillId filePath content).run host s = (.ok (), s'))
    (later : List Write) (hlater : ∀ w ∈ later, w.skillId = skillId → written w.filePath ≠ written filePath) :
    readSkillFile host skillId filePath (later.foldl (fun s w => (w.run host s).2) s') = .ok content := by
  obtain ⟨hdots, dir, rfl, hwrite⟩ := run_ok hrun
  obtain ⟨haccepts, hopen, hfile, -⟩ := writeFileSync_ok hwrite
  have hslash : Char.ofNat 92 ∉ filePath.toList := fun hmem => hspell ⟨hmem, hdots, hopen.ne_nil, haccepts⟩
  have hpath : (Path.pushAll (getSkillStoragePath host skillId) filePath.toList).reverse =
      host.storageRoot ++ (skillId.toList ++ []) :: written filePath := by
    rw [pushAll_normalized hslash, pushAll_written hdots, getSkillStoragePath]
    simp
  refine readSkillFile_of_file hroot hid hpath ?_
  rw [List.append_nil, String.ofList_toList, runs_kept later hlater, Storage.put, Function.update_self,
    Option.bind_some, hfile, if_pos rfl]

/-- What is written to an empty storage under a path with a backslash is not found there. -/
theorem not_returns_of_respelled (hroot : ∀ q ∈ host.storageRoot, Path.Plain q) (hid : Path.Plain skillId.toList)
    (hspell : Respelled host filePath) : ¬StaysInside host skillId filePath := by
  intro h
  obtain ⟨hslash, hdots, hne, haccepts⟩ := hspell
  have hempty (q : List Name) : ({} : Dir).file? q = none := (file?_getD none q)
  obtain ⟨dir, hwrite⟩ := @writeFileSync_of_open host {} _ [] haccepts ⟨fun q _ => hempty q, by simp [Dir.node?, hne]⟩
  have hname : normalized filePath ≠ [] := fun heq => hne (by rw [written, heq]; rfl)
  have hrun : (Write.mk skillId filePath []).run host (fun _ => none) =
      (.ok (), Storage.put (fun _ => none) skillId (some dir)) := by
    rw [Write.run, writeSkillFile_named hdots hname, writeIn, Option.getD_none, hwrite]
  obtain ⟨tail, rest, hpath, hfile⟩ := readSkillFile_ok hroot hid (h.returns _ _ _ hrun [] (by simp))
  rw [Path.pushAll_dotless (fun hblock => absurd (dots_normalized hblock) (by simp [hdots])), List.reverse_append,
    List.reverse_reverse, getSkillStoragePath, List.reverse_cons, List.reverse_reverse, List.append_assoc,
    List.append_cancel_left_eq, List.singleton_append] at hpath
  obtain ⟨hid, hrest⟩ := List.cons.inj hpath
  rw [← hid, String.ofList_toList, List.foldl_nil, Storage.put, Function.update_self, Option.bind_some,
    (writeFileSync_ok hwrite).2.2.1, hempty] at hfile
  split_ifs at hfile with heq
  exact written_ne_of_backslash hslash (hrest.trans heq)

/-- The files of a skill that a client reaches are its own exactly when the path neither leads on from the name of the
skill's directory to a neighbour's nor names a file for writing alone. -/
theorem staysInside_iff (hroot : ∀ q ∈ host.storageRoot, Path.Plain q) (hid : Path.Plain skillId.toList) :
    StaysInside host skillId filePath ↔ ¬NamesNeighbour host skillId filePath ∧ ¬Respelled host filePath := by
  constructor
  · intro h
    refine ⟨?_, fun hspell => not_returns_of_respelled hroot hid hspell h⟩
    rintro ⟨tail, rest, htail, hrest, hpath⟩
    let neighbour : Storage := fun id =>
      if id = String.ofList (skillId.toList ++ tail) then some ⟨[(rest, .file [])]⟩ else none
    have hread : readSkillFile host skillId filePath neighbour = .ok [] := by
      refine readSkillFile_of_file hroot hid hpath ?_
      simp [neighbour, Dir.file?, Dir.node?, hrest, List.lookup]
    obtain ⟨path, hfile⟩ := h.reads _ _ hread
    have hne : skillId ≠ String.ofList (skillId.toList ++ tail) := by
      intro heq
      have hlen := congrArg (fun t => t.toList.length) heq
      rw [String.toList_ofList] at hlen
      simp [htail] at hlen
    rw [show neighbour skillId = none from if_neg hne] at hfile
    cases hfile
  · rintro ⟨hneighbour, hspell⟩
    refine ⟨fun s content hread => ?_, fun s content path hchange => ?_, fun s content s' hrun later hlater =>
      returns_of_spelled hroot hid hspell hrun later hlater⟩
    · obtain ⟨tail, rest, hpath, hfile⟩ := readSkillFile_ok hroot hid hread
      have hrest : rest ≠ [] := by
        rintro rfl
        obtain ⟨dir, -, hnode⟩ := Option.bind_eq_some_iff.mp hfile
        simp [Dir.file?, Dir.node?] at hnode
      have htail : tail = [] := by
        by_contra htail
        exact hneighbour ⟨tail, rest, htail, hrest, hpath⟩
      subst htail
      rw [List.append_nil, String.ofList_toList] at hfile
      exact ⟨rest, hfile⟩
    · obtain ⟨rest, rfl⟩ := nodeAt_put (run_storage _ s ▸ hchange)
      refine ⟨rest, rfl, ?_⟩
      rintro rfl
      rw [nodeAt_below, String.ofList_toList, run_storage, Storage.put, Function.update_self, Option.bind_some]
      exact if_pos rfl

end Access

section Runs

def review : String := "skl_AAAAAAAAAAAAAAAA"

/-- The new files of the skill are being staged. -/
def staging : Storage := fun id =>
  if id = review then some ⟨[(["SKILL.md".toList], .file [0x24])]⟩
  else if id = makeTempSkillId review "0123456789abcdef" then some ⟨[(["SKILL.md".toList], .file [0x23])]⟩
  else none

theorem readSkillFile_of_temporary :
    readSkillFile plainHost review "../skl_AAAAAAAAAAAAAAAA_tmp_0123456789abcdef/SKILL.md" staging = .ok [0x23] ∧
      ¬∃ path, (staging review).bind (·.file? path) = some [0x23] := by
  refine ⟨by decide +kernel, ?_⟩
  rintro ⟨path, hfile⟩
  have hdir : staging review = some ⟨[(["SKILL.md".toList], .file [0x24])]⟩ := rfl
  rw [hdir, Option.bind_some, Dir.file?, Dir.node?, lookup_cons] at hfile
  split_ifs at hfile <;> cases hfile

theorem staysInside_of_skillMd : StaysInside plainHost review "SKILL.md" := by
  refine (staysInside_iff (by decide) (by decide)).mpr ⟨?_, fun h => absurd h.1 (by decide)⟩
  rintro ⟨tail, rest, htail, -, hpath⟩
  have hresolved : (Path.pushAll (getSkillStoragePath plainHost review) "SKILL.md".toList).reverse =
      plainHost.storageRoot ++ review.toList :: ["SKILL.md".toList] := by decide +kernel
  have heq := (List.cons.inj (List.append_cancel_left (hresolved.symm.trans hpath))).1
  exact htail (List.self_eq_append_right.mp heq)

end Runs
end A2Wave.SkillAccess
