import A2Wave.Lib.JsonText
import A2Wave.Lib.Path
import A2Wave.Scm.PerAgent

/-! The directory `resolveWorkDir` in `lib/agent-helpers.ts` gives an agent without an SCM source,
with `slugify` of `packages/shared/src/slug.ts`. -/

namespace A2Wave.WorkDir

open Path Separated

structure Unicode where
  toLowerCase : String → String
  inScripts : Char → Bool
  inScripts_ascii : ∀ c, inScripts c = true → 128 ≤ c.toNat

section Slug

variable (u : Unicode)

def isKept (c : Char) : Bool := ('a' ≤ c && c ≤ 'z') || ('0' ≤ c && c ≤ '9') || u.inScripts c

def hyphenate : Bool → List Char → List Char
  | _, [] => []
  | inRun, c :: cs =>
    if isKept u c then c :: hyphenate false cs
    else if inRun then hyphenate true cs
    else '-' :: hyphenate true cs

def trimHyphens (text : List Char) : List Char :=
  let text := if text.head? = some '-' then text.tail else text
  if text.getLast? = some '-' then text.dropLast else text

def nameHash (name : String) : BitVec 32 :=
  (name.toList.flatMap JsonText.utf16).foldl (fun hash unit => (hash <<< 5) - hash + BitVec.ofNat 32 unit) 0

def slugify (name : String) : String :=
  let slug := trimHyphens (hyphenate u false (u.toLowerCase name).toList)
  if slug ≠ [] then String.ofList slug
  else "id-" ++ String.ofList (Nat.toDigits 16 (nameHash name).toNat)

end Slug

/-- `id.split('_').pop() || id`. -/
def idTail (id : String) : String :=
  let last := ((id.toList.splitOn '_').getLast?).getD []
  if last = [] then id else String.ofList last

structure AgentRow where
  id : String
  name : String
  workspaceType : WorkspaceType
  scmSourceId : Option String
  workDir : Option String
  deriving DecidableEq

structure Host where
  workspacePath : String
  cwd : List (List Char)
  /-- The checkout or worktree of a bound agent; `none` where its source is gone. -/
  scmDirectory : AgentRow → String → Option String

section Resolve

variable (u : Unicode) (host : Host)

def resolve (value : String) : String :=
  let base := if value.toList.head? = some '/' then [] else host.cwd.reverse
  String.ofList ('/' :: ['/'].intercalate (pushAll base value.toList).reverse)

def allowedBases : List String := [resolve host host.workspacePath, resolve host "./data"]

def boundDirectory (agent : AgentRow) : Option String :=
  if agent.workspaceType = .scm then
    (agent.scmSourceId.filter (· ≠ "")).bind (host.scmDirectory agent)
  else none

def configuredDirectory (agent : AgentRow) : Option String :=
  ((agent.workDir.filter (· ≠ "")).map (resolve host)).filter fun resolved =>
    (allowedBases host).any fun base =>
      resolved = base || (base ++ "/").toList.isPrefixOf resolved.toList

def directoryName (agent : AgentRow) : String := slugify u agent.name ++ "-" ++ idTail agent.id

def resolveWorkDir (agent : AgentRow) : String :=
  match boundDirectory host agent, configuredDirectory host agent with
  | some dir, _ => dir
  | none, some dir => dir
  | none, none => joinPath host.workspacePath (directoryName u agent)

end Resolve

section Join

def joinStep (absolute : Prop) [Decidable absolute] (kept : List (List Char)) (segment : List Char) :
    List (List Char) :=
  if segment = [] ∨ segment = ['.'] then kept
  else if segment = ['.', '.'] then
    match kept with
    | [] => if absolute then [] else [segment]
    | top :: rest => if top = ['.', '.'] then segment :: kept else rest
  else segment :: kept

theorem joinStep_plain {absolute : Prop} [Decidable absolute] {segment : List Char} (h : Plain segment)
    (kept : List (List Char)) : joinStep absolute kept segment = segment :: kept := by
  obtain ⟨hnil, hdot, hdots, -⟩ := h
  unfold joinStep
  rw [if_neg (by simp [hnil, hdot]), if_neg hdots]

def parentText (absolute : Prop) [Decidable absolute] (front : List (List Char)) : List Char :=
  (if absolute then ['/'] else []) ++ (front.foldl (joinStep absolute) []).reverse.flatMap (· ++ ['/'])

theorem toList_normalizePath {path : String} {front : List (List Char)} {name : List Char}
    (hsplit : path.toList.splitOn '/' = front ++ [name]) (hname : Plain name)
    (hlast : path.toList.getLast? ≠ some '/') :
    (normalizePath path).toList = parentText (path.toList.head? = some '/') front ++ name := by
  have hfold : ((path.toList.splitOn '/').foldl (joinStep (path.toList.head? = some '/')) []).reverse =
      (front.foldl (joinStep (path.toList.head? = some '/')) []).reverse ++ [name] := by
    rw [hsplit, List.foldl_append, List.foldl_cons, List.foldl_nil, joinStep_plain hname, List.reverse_cons]
  have hbody := intercalate_concat '/'
    (front.foldl (joinStep (path.toList.head? = some '/')) []).reverse name
  rw [← hfold] at hbody
  simp only [normalizePath, if_neg hlast]
  change (if ['/'].intercalate ((path.toList.splitOn '/').foldl
      (joinStep (path.toList.head? = some '/')) []).reverse = [] then _ else _ : String).toList = _
  have hne : ['/'].intercalate ((path.toList.splitOn '/').foldl
      (joinStep (path.toList.head? = some '/')) []).reverse ≠ [] := by
    rw [hbody]
    exact List.append_ne_nil_of_right_ne_nil _ hname.1
  rw [if_neg hne, String.toList_ofList, List.append_nil]
  change _ ++ ['/'].intercalate ((path.toList.splitOn '/').foldl
      (joinStep (path.toList.head? = some '/')) []).reverse = _
  rw [hbody, parentText, List.append_assoc]

theorem getLast?_ne_slash {segment : List Char} (h : Plain segment) (front : List Char) :
    (front ++ segment).getLast? ≠ some '/' := by
  obtain ⟨hnil, -, -, hslash⟩ := h
  rw [List.getLast?_append_of_ne_nil _ hnil]
  exact fun hlast => hslash (List.mem_of_getLast? hlast)

def below (root : String) : List Char :=
  if root = "" then [] else parentText (root.toList.head? = some '/') (root.toList.splitOn '/')

theorem toList_joinPath (root : String) {name : String} (hname : Plain name.toList) :
    (joinPath root name).toList = below root ++ name.toList := by
  have hsingle : name.toList.splitOn '/' = [name.toList] := List.splitOn_eq_singleton hname.2.2.2
  by_cases hroot : root = ""
  · have hhead : name.toList.head? ≠ some '/' := fun h => hname.2.2.2 (List.mem_of_head? h)
    have halone : name.toList.splitOn '/' = [] ++ [name.toList] := hsingle
    rw [joinPath, if_pos hroot, below, if_pos hroot,
      toList_normalizePath halone hname (getLast?_ne_slash hname []), parentText, if_neg hhead]
    rfl
  · have hlist : (root ++ "/" ++ name).toList = root.toList ++ '/' :: name.toList := by simp
    have hsplit : (root ++ "/" ++ name).toList.splitOn '/' = root.toList.splitOn '/' ++ [name.toList] := by
      rw [hlist, List.splitOn_append_cons_self, hsingle]
    have hlast : (root ++ "/" ++ name).toList.getLast? ≠ some '/' := by
      rw [hlist, List.append_cons]
      exact getLast?_ne_slash hname _
    have hhead : (root ++ "/" ++ name).toList.head? = root.toList.head? := by
      cases hr : root.toList with
      | nil => exact absurd (String.toList_eq_nil_iff.mp hr) hroot
      | cons c cs => rw [hlist, hr, List.cons_append, List.head?_cons, List.head?_cons]
    rw [joinPath, if_neg hroot, below, if_neg hroot, toList_normalizePath hsplit hname hlast, parentText,
      parentText, hhead]

theorem joinPath_inj (root : String) {a b : String} (ha : Plain a.toList) (hb : Plain b.toList) :
    joinPath root a = joinPath root b ↔ a = b := by
  constructor
  · intro h
    have htext := congrArg String.toList h
    rw [toList_joinPath root ha, toList_joinPath root hb] at htext
    exact String.toList_inj.mp (List.append_cancel_left htext)
  · rintro rfl
    rfl

end Join

section Names

variable {u : Unicode}

theorem isKept_ne_slash {c : Char} (h : isKept u c = true) : c ≠ '/' := by
  rintro rfl
  have hscript : u.inScripts '/' = true := by simpa [isKept] using h
  exact absurd (u.inScripts_ascii _ hscript) (by decide)

theorem slash_not_mem_hyphenate (inRun : Bool) (text : List Char) : '/' ∉ hyphenate u inRun text := by
  induction text generalizing inRun with
  | nil => exact List.not_mem_nil
  | cons c cs ih =>
    unfold hyphenate
    split
    · rename_i hc
      intro h
      rcases List.mem_cons.mp h with heq | h
      · exact isKept_ne_slash hc heq.symm
      · exact ih false h
    · split
      · exact ih true
      · intro h
        rcases List.mem_cons.mp h with heq | h
        · cases heq
        · exact ih true h

theorem mem_of_mem_trimHyphens {text : List Char} {c : Char} (h : c ∈ trimHyphens text) : c ∈ text := by
  have htail : c ∈ (if text.head? = some '-' then text.tail else text) := by
    unfold trimHyphens at h
    generalize (if text.head? = some '-' then text.tail else text) = trimmed at h ⊢
    dsimp only at h
    split at h
    · exact List.mem_of_mem_dropLast h
    · exact h
  split at htail
  · exact List.mem_of_mem_tail htail
  · exact htail

theorem digitChar_ne_slash : ∀ n < 16, Nat.digitChar n ≠ '/' := by decide

theorem slash_not_mem_toDigits (n : Nat) : '/' ∉ Nat.toDigits 16 n := by
  induction n using Nat.strong_induction_on with
  | _ n ih =>
    rw [Nat.toDigits_eq_if (by decide)]
    split
    · rename_i hlt
      intro h
      exact digitChar_ne_slash n hlt (List.mem_singleton.mp h).symm
    · intro h
      rcases List.mem_append.mp h with h | h
      · exact ih (n / 16) (by omega) h
      · exact digitChar_ne_slash (n % 16) (by omega) (List.mem_singleton.mp h).symm

theorem slash_not_mem_slugify (name : String) : '/' ∉ (slugify u name).toList := by
  unfold slugify
  dsimp only
  split
  · rw [String.toList_ofList]
    exact fun h => slash_not_mem_hyphenate _ _ (mem_of_mem_trimHyphens h)
  · rw [String.toList_append, String.toList_ofList]
    intro h
    rcases List.mem_append.mp h with h | h
    · exact absurd h (by decide +kernel)
    · exact slash_not_mem_toDigits _ (String.toList_ofList ▸ h)

/-- An id as `createId` makes it: a prefix, an underscore and base64url characters. -/
def IsGenerated (id : String) : Prop :=
  ∃ start random, id.toList = start ++ '_' :: random ∧ '/' ∉ start ∧ ∀ c ∈ random, isBase64Url c = true

theorem slash_not_mem_of_isGenerated {id : String} (h : IsGenerated id) : '/' ∉ id.toList := by
  obtain ⟨start, random, hid, hstart, hrandom⟩ := h
  rw [hid]
  intro hmem
  rcases List.mem_append.mp hmem with hmem | hmem
  · exact hstart hmem
  · rcases List.mem_cons.mp hmem with heq | hmem
    · cases heq
    · exact absurd (hrandom _ hmem) (by decide)

theorem mem_intercalate {c sep : Char} {pieces : List (List Char)} {piece : List Char}
    (hpiece : piece ∈ pieces) (hc : c ∈ piece) : c ∈ [sep].intercalate pieces := by
  induction pieces with
  | nil => exact absurd hpiece List.not_mem_nil
  | cons p pieces ih =>
    cases pieces with
    | nil =>
      rw [List.intercalate_singleton]
      exact List.mem_singleton.mp hpiece ▸ hc
    | cons q pieces =>
      rw [List.intercalate_cons_of_ne_nil (List.cons_ne_nil q pieces)]
      rcases List.mem_cons.mp hpiece with rfl | hpiece
      · exact List.mem_append_left _ (List.mem_append_left _ hc)
      · exact List.mem_append_right _ (ih hpiece)

theorem mem_of_mem_splitOn {c sep : Char} {text piece : List Char} (hpiece : piece ∈ text.splitOn sep)
    (hc : c ∈ piece) : c ∈ text := by
  have hjoin : [sep].intercalate (text.splitOn sep) = text := List.intercalate_splitOn sep
  rw [← hjoin]
  exact mem_intercalate hpiece hc

theorem slash_not_mem_idTail {id : String} (h : IsGenerated id) : '/' ∉ (idTail id).toList := by
  unfold idTail
  dsimp only
  split
  · exact slash_not_mem_of_isGenerated h
  · rw [String.toList_ofList]
    cases hlast : (id.toList.splitOn '_').getLast? with
    | none => exact List.not_mem_nil
    | some piece =>
      exact fun hmem => slash_not_mem_of_isGenerated h
        (mem_of_mem_splitOn (List.mem_of_getLast? hlast) hmem)

theorem toList_directoryName (agent : AgentRow) :
    (directoryName u agent).toList = (slugify u agent.name).toList ++ '-' :: (idTail agent.id).toList := by
  rw [directoryName, String.toList_append, String.toList_append, List.append_assoc]
  rfl

theorem directoryName_plain {agent : AgentRow} (h : IsGenerated agent.id) : Plain (directoryName u agent).toList := by
  have hhyphen : '-' ∈ (directoryName u agent).toList := by
    rw [toList_directoryName]
    exact List.mem_append_right _ List.mem_cons_self
  refine ⟨?_, ?_, ?_, ?_⟩
  · intro hnil
    rw [hnil] at hhyphen
    exact absurd hhyphen List.not_mem_nil
  · intro hdot
    rw [hdot] at hhyphen
    exact absurd hhyphen (by decide)
  · intro hdots
    rw [hdots] at hhyphen
    exact absurd hhyphen (by decide)
  · rw [toList_directoryName]
    intro hmem
    rcases List.mem_append.mp hmem with hmem | hmem
    · exact slash_not_mem_slugify _ hmem
    · rcases List.mem_cons.mp hmem with heq | hmem
      · cases heq
      · exact slash_not_mem_idTail h hmem

end Names

section Collision

variable {u : Unicode} {host : Host} {a b : AgentRow}

/-- Neither an SCM source nor an allowed `config.workDir` names the directory. -/
def Defaulted (host : Host) (agent : AgentRow) : Prop :=
  boundDirectory host agent = none ∧ configuredDirectory host agent = none

def Absorbs (u : Unicode) (a b : AgentRow) : Prop :=
  Shifted '-' (slugify u a.name).toList (idTail a.id).toList (slugify u b.name).toList
    (idTail b.id).toList

def Clash (u : Unicode) (a b : AgentRow) : Prop :=
  (slugify u a.name = slugify u b.name ∧ idTail a.id = idTail b.id) ∨ Absorbs u a b ∨ Absorbs u b a

theorem directoryName_eq_iff : directoryName u a = directoryName u b ↔ Clash u a b := by
  rw [← String.toList_inj, toList_directoryName, toList_directoryName, append_cons_eq_iff,
    String.toList_inj, String.toList_inj]
  rfl

theorem resolveWorkDir_defaulted (h : Defaulted host a) :
    resolveWorkDir u host a = joinPath host.workspacePath (directoryName u a) := by
  rw [resolveWorkDir, h.1, h.2]

theorem default_workDirs_apart_iff (ha : Defaulted host a) (hb : Defaulted host b)
    (hida : IsGenerated a.id) (hidb : IsGenerated b.id) :
    resolveWorkDir u host a ≠ resolveWorkDir u host b ↔ ¬Clash u a b := by
  rw [resolveWorkDir_defaulted ha, resolveWorkDir_defaulted hb, ne_eq,
    joinPath_inj _ (directoryName_plain hida) (directoryName_plain hidb), directoryName_eq_iff]

def asciiTables : Unicode where
  toLowerCase := fun s => s.map Char.toLower
  inScripts := fun _ => false
  inScripts_ascii := fun _ h => by cases h

def sampleHost : Host where
  workspacePath := "./data/workspaces"
  cwd := ["srv".toList]
  scmDirectory := fun _ _ => none

def sampleAgent (id name : String) : AgentRow := ⟨id, name, .temp, none, none⟩

theorem default_workDirs_apart_sample : resolveWorkDir asciiTables sampleHost (sampleAgent "agt_ab-9" "Docs bot") ≠
        resolveWorkDir asciiTables sampleHost (sampleAgent "agt_ab_9" "Docs bot") ↔
      ¬Clash asciiTables (sampleAgent "agt_ab-9" "Docs bot") (sampleAgent "agt_ab_9" "Docs bot") :=
  default_workDirs_apart_iff ⟨rfl, rfl⟩ ⟨rfl, rfl⟩
    ⟨"agt".toList, "ab-9".toList, by decide +kernel, by decide +kernel, List.all_eq_true.mp (by decide +kernel)⟩
    ⟨"agt".toList, "ab_9".toList, by decide +kernel, by decide +kernel, List.all_eq_true.mp (by decide +kernel)⟩

theorem default_workDirs_collide :
    ¬∀ (u : Unicode) (host : Host) (a b : AgentRow), a.id ≠ b.id → IsGenerated a.id → IsGenerated b.id →
      Defaulted host a → Defaulted host b → resolveWorkDir u host a ≠ resolveWorkDir u host b := by
  intro h
  refine h asciiTables sampleHost (sampleAgent "agt_k3Xw_PqZ7tR1mB0y" "Docs bot")
    (sampleAgent "agt_9dLe_PqZ7tR1mB0y" "Docs bot") (by decide +kernel)
    ⟨"agt".toList, "k3Xw_PqZ7tR1mB0y".toList, by decide +kernel, by decide +kernel,
      List.all_eq_true.mp (by decide +kernel)⟩
    ⟨"agt".toList, "9dLe_PqZ7tR1mB0y".toList, by decide +kernel, by decide +kernel,
      List.all_eq_true.mp (by decide +kernel)⟩
    ⟨rfl, rfl⟩ ⟨rfl, rfl⟩ ?_
  decide +kernel

end Collision

end A2Wave.WorkDir
