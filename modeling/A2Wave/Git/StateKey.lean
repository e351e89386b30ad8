import A2Wave.Lib.JsText
import A2Wave.Lib.Separated

/-! The watch entries of `packages/shared/src/schemas/git-trigger.ts` and `repoStateKey` in
`lib/git-trigger-diff.ts`, the key of the row in which an entry's fingerprint is stored. -/

namespace A2Wave.GitTrigger

open JsText Separated

inductive GitTriggerScope
  | project
  | group
  deriving DecidableEq, Repr

structure GitTriggerRepo where
  scope : GitTriggerScope
  project : Text
  host : Option Text
  project_named : project ≠ []
  project_trimmed : trim project = project
  project_short : length16 project ≤ 300
  host_trimmed : ∀ h ∈ host, trim h = h
  host_short : ∀ h ∈ host, length16 h ≤ 300
  deriving DecidableEq

structure SchemaIssue where
  path : String
  message : Option String
  deriving DecidableEq

def parseScope : Option Json → Except SchemaIssue GitTriggerScope
  | none => .ok .project
  | some (.str "project") => .ok .project
  | some (.str "group") => .ok .group
  | some _ => .error ⟨"scope", none⟩

/-- `z.string().trim().max(300)`. -/
def parseTrimmed (path : String) : Json → Except SchemaIssue { s : Text // trim s = s ∧ length16 s ≤ 300 }
  | .str s =>
    if h : length16 (trim s.toList) ≤ 300 then .ok ⟨trim s.toList, trim_trim, h⟩
    else .error ⟨path, none⟩
  | _ => .error ⟨path, none⟩

def parseProject (value : Option Json) : Except SchemaIssue { s : Text // trim s = s ∧ length16 s ≤ 300 } :=
  parseTrimmed "project" (value.getD (.str ""))

def parseHost : Option Json → Except SchemaIssue (Option { s : Text // trim s = s ∧ length16 s ≤ 300 })
  | none => .ok none
  | some value => (parseTrimmed "host" value).map some

def gitTriggerRepoSchema (input : Fields) : Except SchemaIssue GitTriggerRepo :=
  match parseScope (input.get? "scope"), parseProject (input.get? "project"), parseHost (input.get? "host") with
  | .error issue, _, _ => .error issue
  | .ok _, .error issue, _ => .error issue
  | .ok _, .ok _, .error issue => .error issue
  | .ok scope, .ok ⟨project, htrim, hshort⟩, .ok host =>
    if hnamed : project ≠ [] then
      .ok
        { scope, project
          host := host.map (·.val)
          project_named := hnamed
          project_trimmed := htrim
          project_short := hshort
          host_trimmed := by
            intro h hh
            obtain ⟨k, -, rfl⟩ := Option.map_eq_some_iff.mp hh
            exact k.property.1
          host_short := by
            intro h hh
            obtain ⟨k, -, rfl⟩ := Option.map_eq_some_iff.mp hh
            exact k.property.2 }
    else .error ⟨"project", some "A project or group path is required"⟩

namespace GitTriggerRepo

def toFields (repo : GitTriggerRepo) : Fields :=
  let scope := match repo.scope with
    | .project => "project"
    | .group => "group"
  .ofList ([("scope", .str scope), ("project", .str (String.ofList repo.project))] ++
    (repo.host.map fun h => ("host", .str (String.ofList h))).toList)

def path (repo : GitTriggerRepo) : Text :=
  match repo.scope with
  | .group => "group:".toList ++ repo.project
  | .project => repo.project

/-- `host` where it is a true value. -/
def namedHost (repo : GitTriggerRepo) : Option Text := repo.host.filter (· ≠ [])

end GitTriggerRepo

def repoStateKey (repo : GitTriggerRepo) : Text :=
  match repo.namedHost with
  | some host => host ++ '/' :: repo.path
  | none => repo.path

theorem parseTrimmed_of_trimmed (path : String) {s : Text} (htrim : trim s = s) (hshort : length16 s ≤ 300) :
    parseTrimmed path (.str (String.ofList s)) = .ok ⟨s, htrim, hshort⟩ := by
  have hlist : trim (String.ofList s).toList = s := by rw [String.toList_ofList, htrim]
  unfold parseTrimmed
  dsimp only
  rw [dif_pos (by rw [hlist]; exact hshort)]
  congr 2

section Key

variable {a b : GitTriggerRepo}

def Shadows (a b : GitTriggerRepo) : Prop :=
  a.scope = .group ∧ b.scope = .project ∧ b.project = "group:".toList ++ a.project

def SamePath (a b : GitTriggerRepo) : Prop :=
  (a.scope = b.scope ∧ a.project = b.project) ∨ Shadows a b ∨ Shadows b a

theorem path_eq_iff : a.path = b.path ↔ SamePath a b := by
  unfold GitTriggerRepo.path SamePath Shadows
  cases ha : a.scope <;> cases hb : b.scope <;> simp [eq_comm]

def SpellsHost (a b : GitTriggerRepo) : Prop :=
  match a.namedHost, b.namedHost with
  | none, some host => a.path = host ++ '/' :: b.path
  | some start, some host => Shifted '/' start a.path host b.path
  | _, none => False

def SharesKey (a b : GitTriggerRepo) : Prop :=
  (a.namedHost = b.namedHost ∧ SamePath a b) ∨ SpellsHost a b ∨ SpellsHost b a

theorem repoStateKey_eq_iff : repoStateKey a = repoStateKey b ↔ SharesKey a b := by
  unfold repoStateKey SharesKey SpellsHost
  rw [← path_eq_iff]
  cases a.namedHost with
  | none =>
    cases b.namedHost with
    | none => simp
    | some k => simp
  | some h =>
    cases b.namedHost with
    | none => simp [eq_comm]
    | some k => simp [append_cons_eq_iff]

theorem repoStateKey_ne_iff (a b : GitTriggerRepo) : repoStateKey a ≠ repoStateKey b ↔ ¬SharesKey a b :=
  not_congr repoStateKey_eq_iff

theorem repoStateKey_shared : ¬∀ (inputA inputB : Fields) (a b : GitTriggerRepo), gitTriggerRepoSchema inputA = .ok a →
      gitTriggerRepoSchema inputB = .ok b → a ≠ b → repoStateKey a ≠ repoStateKey b := by
  intro h
  refine h (.ofList [("project", .str "forge/team/app")])
    (.ofList [("project", .str "team/app"), ("host", .str "forge")])
    ⟨.project, "forge/team/app".toList, none, by decide, by decide, by decide, by decide, by decide⟩
    ⟨.project, "team/app".toList, some "forge".toList, by decide, by decide, by decide, by decide,
      by decide⟩ ?_ ?_ ?_ ?_
  · decide +kernel
  · decide +kernel
  · decide +kernel
  · decide +kernel

end Key

end A2Wave.GitTrigger
