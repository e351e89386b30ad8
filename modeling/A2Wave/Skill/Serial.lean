import A2Wave.Skill.Edits

/-! When overlapping requests on one skill come out as if they had been served one after the other. -/

namespace A2Wave.SkillEdits

open Transition SkillStorage RemoteSkill SkillReplace Linear

section Condition

/-- What the dirty mark becomes when an upload has read the row `skill`. -/
def uploadedDirty (skill row : SkillRow) : Bool :=
  skill.remoteSource.isSome || (if skill.stored then row.sourceDirty else skill.sourceDirty)

def marked (row : SkillRow) : Bool := row.remoteSource.isSome || row.sourceDirty

def freshPatch (data : UpdateSkillInput) (existing row : SkillRow) : Bool :=
  patchedDirty data existing = patchedDirty data row &&
    (data.visibleToAll ≠ some false || existing.userId.isSome || existing.sharedWithAll = row.sharedWithAll)

def freshUpload (replace : Bool) (skill row : SkillRow) : Bool :=
  (skill.stored = row.stored || (!replace && row.stored)) && uploadedDirty skill row = marked row

def sameInstall (current row : SkillRow) : Bool :=
  { current with groupId := row.groupId, sharedWithAll := row.sharedWithAll, sourceDirty := row.sourceDirty } = row

def wanted (p : Pool Shared Request) : Bool :=
  p.shared.row.isSome || p.threads.any fun r => r.phase.removes

def permits (p : Pool Shared Request) (op : Op) : Phase → Bool
  | .patch existing =>
    match op.edit with
    | .patch data _ => p.shared.row.all (freshPatch data existing)
    | _ => true
  | .delete skill => skill.stored || p.shared.row.isNone || p.shared.disk.isNone
  | .locked existing =>
    match op.edit with
    | .reupload form => wanted p &&
        (form.files ≠ [] || p.shared.row.all fun row => existing.stored = row.stored || p.shared.disk.isNone)
    | _ => true
  | .writing _ (_ :: _) | .cleared _ _ | .swap _ _ => wanted p
  | .saveUpload skill =>
    match op.edit with
    | .upload replace _ _ => p.shared.row.all (freshUpload replace skill)
    | _ => true
  | .saveReupload existing _ => p.shared.row.all fun row => marked existing = marked row
  | .saveRemote current _ => p.shared.row.all (sameInstall current)
  | _ => true

/-- No request decides from a row that has since changed in what it decides from, and none writes
files for a skill that has been deleted. -/
def allowed (p : Pool Shared Request) : Pool.Event Request Unit → Bool
  | .spawn _ => true
  | .act i _ => p.threads[i]?.all fun r => permits p r.op r.phase

end Condition

section Rows

variable {id : String} {skill row current : SkillRow} {data : UpdateSkillInput}

theorem uploaded_eq : uploaded skill id row =
    { row with
      storagePath := if skill.stored then row.storagePath else some id
      sourceDirty := uploadedDirty skill row } := by
  unfold uploaded uploadedDirty
  cases hstored : skill.stored with
  | false => rfl
  | true =>
    cases hsource : skill.remoteSource.isSome <;> rfl

theorem uploadedDirty_self : uploadedDirty row row = marked row := by
  unfold uploadedDirty marked
  cases row.stored <;> rfl

theorem uploaded_of_fresh {replace : Bool} (hpath : row.storagePath = none ∨ row.storagePath = some id)
    (h : freshUpload replace skill row = true) : uploaded skill id row = uploaded row id row := by
  obtain ⟨hstored, hdirty⟩ := (Bool.and_eq_true ..).mp h
  rw [uploaded_eq, uploaded_eq, of_decide_eq_true hdirty, uploadedDirty_self]
  have hsame : (if skill.stored then row.storagePath else some id) = if row.stored then row.storagePath else some id := by
    cases hrow : row.stored with
    | false =>
      have hskill : skill.stored = false := by simpa [hrow] using hstored
      rw [hskill]
    | true =>
      rcases hpath with hpath | hpath
      · rw [SkillRow.stored, hpath] at hrow
        cases hrow
      · rw [hpath]
        cases skill.stored <;> rfl
  rw [hsame]

theorem stored_of_fresh {replace : Bool} (h : freshUpload replace skill row = true) (hskill : skill.stored = true) :
    row.stored = true := by
  have hstored := ((Bool.and_eq_true ..).mp h).1
  rw [hskill, Bool.or_eq_true] at hstored
  rcases hstored with hsame | hrow
  · exact (of_decide_eq_true hsame).symm
  · exact ((Bool.and_eq_true ..).mp hrow).2

theorem swaps_of_fresh {replace : Bool} (h : freshUpload replace skill row = true) :
    (replace && skill.stored) = (replace && row.stored) := by
  cases replace with
  | false => rfl
  | true =>
    have hstored := ((Bool.and_eq_true ..).mp h).1
    rw [Bool.not_true, Bool.false_and, Bool.or_false] at hstored
    rw [of_decide_eq_true hstored]

theorem stored_of_path (hid : id ≠ "") (hpath : row.storagePath = some id) : row.stored = true := by
  rw [SkillRow.stored, hpath, Option.any_some]
  exact decide_eq_true hid

theorem path_of_stored (hpath : row.storagePath = none ∨ row.storagePath = some id) (hstored : row.stored = true) :
    row.storagePath = some id := by
  rcases hpath with hpath | hpath
  · rw [SkillRow.stored, hpath] at hstored
    cases hstored
  · exact hpath

variable {existing : SkillRow}

theorem reuploaded_of_fresh {parsed : SkillMd} (h : marked existing = marked row) :
    reuploaded existing id parsed row = reuploaded row id parsed row := by
  have hdirty : (existing.remoteSource.isSome || existing.sourceDirty) = (row.remoteSource.isSome || row.sourceDirty) := h
  unfold reuploaded
  rw [hdirty]

theorem patched_of_fresh (h : freshPatch data existing row = true) :
    patched data existing row = patched data row row := by
  unfold patched
  rw [of_decide_eq_true ((Bool.and_eq_true ..).mp h).1]

theorem checkPatch_of_fresh {caller : Caller} {visibleGroups : List String}
    (h : freshPatch data existing row = true) (howner : row.userId = existing.userId)
    (hcheck : checkPatch caller data visibleGroups existing = none) (hcondition : updateCondition caller data row = true) :
    checkPatch caller data visibleGroups row = none := by
  unfold checkPatch at hcheck ⊢
  split at hcheck
  · cases hcheck
  split at hcheck
  · cases hcheck
  split at hcheck
  · cases hcheck
  rename_i hshared hsystem
  have hshared' : ¬rejectUnauthorizedSharedVisibility caller data row = true := by
    unfold rejectUnauthorizedSharedVisibility
    unfold updateCondition preservesSharedVisibility at hcondition
    intro hreject
    simp at hreject
    simp [hreject] at hcondition
  have hsystem' : ¬rejectSystemSkillVisibilityDowngrade data row = true := by
    have hfresh := ((Bool.and_eq_true ..).mp h).2
    unfold rejectSystemSkillVisibilityDowngrade at hsystem ⊢
    intro hreject
    simp only [howner, Bool.and_eq_true, decide_eq_true_eq, Option.isNone_iff_eq_none] at hreject hsystem
    obtain ⟨⟨hdata, huser⟩, hrow⟩ := hreject
    have hexisting : existing.sharedWithAll = false := Bool.eq_false_iff.mpr fun h => hsystem ⟨⟨hdata, huser⟩, h⟩
    rw [hdata, huser, hexisting, hrow] at hfresh
    cases hfresh
  rw [if_neg hshared', if_neg hsystem']

section Install

variable {host : SkillHost} {remote : Remote} {disk : Option Dir}

theorem inspectInstalled_congr (host : SkillHost) (remote : Remote) (disk : Option Dir) (current : SkillRow)
    (groupId : Option String) (sharedWithAll sourceDirty : Bool) :
    ∃ f : InstalledRemoteSkill → InstalledRemoteSkill,
      (∀ i, f i = { i with check := { i.check with sourceDirty := (f i).check.sourceDirty } }) ∧
      inspectInstalledRemoteSkill host remote
          { current with groupId := groupId, sharedWithAll := sharedWithAll, sourceDirty := sourceDirty } disk =
        (inspectInstalledRemoteSkill host remote current disk).map f := by
  refine ⟨fun i => { i with
    check := { i.check with sourceDirty := sourceDirty || i.check.localDigest ≠ i.check.source.digest } },
    fun _ => rfl, ?_⟩
  unfold inspectInstalledRemoteSkill
  have hsource : installedSource
      { current with groupId := groupId, sharedWithAll := sharedWithAll, sourceDirty := sourceDirty } =
      installedSource current := rfl
  rw [hsource]
  cases installedSource current with
  | error e => rfl
  | ok source =>
    dsimp only [Except.bind]
    cases loadBundles remote source with
    | error e => rfl
    | ok bundles =>
      have hfiles : applyDatabaseMetadataToLocalFiles host (readAllSkillFiles remote disk)
          { current with groupId := groupId, sharedWithAll := sharedWithAll, sourceDirty := sourceDirty } =
          applyDatabaseMetadataToLocalFiles host (readAllSkillFiles remote disk) current := rfl
      dsimp only [compareInstalled]
      rw [hfiles]
      cases applyDatabaseMetadataToLocalFiles host (readAllSkillFiles remote disk) current <;> rfl

theorem decideRemoteUpdate_congr (input : UpdateRemoteSkillInput) (groupId : Option String)
    (sharedWithAll sourceDirty : Bool) :
    decideRemoteUpdate host remote input
        { current with groupId := groupId, sharedWithAll := sharedWithAll, sourceDirty := sourceDirty } disk =
      decideRemoteUpdate host remote input current disk := by
  obtain ⟨f, hf, heq⟩ := inspectInstalled_congr host remote disk current groupId sharedWithAll sourceDirty
  unfold decideRemoteUpdate
  rw [heq]
  cases inspectInstalledRemoteSkill host remote current disk with
  | error e => rfl
  | ok i =>
    dsimp only [Except.map]
    rw [hf i]

theorem inspect_of_sameInstall {op : Op} (h : sameInstall current row = true) :
    inspect host remote op row disk = inspect host remote op current disk := by
  have hrow := of_decide_eq_true h
  unfold inspect
  split
  · rw [← hrow]
    exact decideRemoteUpdate_congr ..
  · rfl

end Install

end Rows

section Invariant

variable (host : SkillHost) (remote : Remote) (id : String) (owner : Option String)

def Phase.deletes : Phase → Bool
  | .removeStorage _ => true
  | _ => false

/-- How far a request has come with the files, which were `base` when it took the lock. -/
def Progress (base : Option Dir) (stored : Bool) (disk : Option Dir) (op : Op) : Phase → Prop
  | .removeStorage _ => False
  | .locked _ | .download _ => disk = base
  | .writing skill rest => ∃ replace files paths written, op.edit = .upload replace files paths ∧ files ≠ [] ∧
      (replace && skill.stored) = false ∧ uploads files paths = written ++ rest ∧
      writeUploads host id written base = (.ok (), disk)
  | .cleared skill staged => ∃ files paths, op.edit = .upload true files paths ∧ files ≠ [] ∧ skill.stored = true ∧
      Uploads host id op (uploads files paths) base true staged
  | .swap current u => disk = base ∧ inspect host remote op current base = .ok u
  | .saveUpload skill => ∃ replace files paths, op.edit = .upload replace files paths ∧ files ≠ [] ∧
      Uploads host id op (uploads files paths) base (replace && skill.stored) disk
  | .saveReupload _ parsed => ∃ form, op.edit = .reupload form ∧ Reuploads host id op form base stored parsed disk
  | .saveRemote current u => inspect host remote op current base = .ok u ∧
      stageFiles host (tempId id op) u.files [] 0 none = .ok disk
  | _ => True

def Checked (op : Op) : Phase → Prop
  | .select | .removeStorage _ | .responded _ => True
  | .delete _ => mayWrite op.caller owner = true ∧ op.edit = .delete
  | .lock _ | .locked _ => mayWrite op.caller owner = true ∧ ∀ replace paths, op.edit ≠ .upload replace [] paths
  | .patch existing => mayWrite op.caller owner = true ∧ existing.userId = owner
  | _ => mayWrite op.caller owner = true

structure Sound (k : Skill) : Prop where
  owner : ∀ r, k.row = some r → r.userId = owner
  path : ∀ r, k.row = some r → r.storagePath = none ∨ r.storagePath = some id
  kept : k.disk ≠ none → ∃ r, k.row = some r ∧ r.stored = true

structure Inv (k : Skill) (p : Pool Shared Request) : Prop where
  sound : Sound id owner k
  row : p.shared.row = k.row
  idle : ∀ r, k.row = some r → (∀ t ∈ p.threads, t.phase.holdsLock = false) → p.shared.disk = k.disk
  progress : ∀ r, k.row = some r → ∀ t ∈ p.threads, Progress host remote id k.disk r.stored p.shared.disk t.op t.phase
  gone : k.row = none → p.shared.disk = none ∨ ∃ t ∈ p.threads, t.phase.removes = true
  checked : ∀ t ∈ p.threads, Checked owner t.op t.phase
  lock : Pool.Exclusive (fun s (_ : Unit) => s.locked = true) (fun t _ => t.phase.holdsLock = true) p

variable {host remote id owner} {k k' : Skill} {p : Pool Shared Request} {i : Nat} {t : Request} {s' : Shared}
  {phase : Phase}

theorem progress_of_not_holdsLock {base disk : Option Dir} {stored : Bool} {op : Op} (hlock : phase.holdsLock = false)
    (hdeletes : phase.deletes = false) : Progress host remote id base stored disk op phase := by
  cases phase with
  | removeStorage skill => cases hdeletes
  | locked _ | writing _ _ | cleared _ _ | download _ | swap _ _ | saveUpload _ | saveReupload _ _ | saveRemote _ _ =>
    cases hlock
  | _ => trivial

theorem lock_act (s' : Shared) (phase : Phase) (h : Inv host remote id owner k p) (hi : p.threads[i]? = some t)
    (htake : phase.holdsLock = true → t.phase.holdsLock = true ∨ p.shared.locked = false)
    (hown : phase.holdsLock = true → s'.locked = true)
    (hfree : p.shared.locked = true → t.phase.holdsLock = false → s'.locked = true) :
    Pool.Exclusive (fun s (_ : Unit) => s.locked = true) (fun t _ => t.phase.holdsLock = true)
      ⟨s', p.threads.set i { t with phase := phase }⟩ := by
  refine h.lock.act hi ?_ (fun _ => hown) ?_
  · intro _ hholds
    rcases htake hholds with hheld | hunlocked
    · exact .inl hheld
    · exact .inr (by rw [hunlocked]; exact nofun)
  · intro j u _ hj hu hk
    refine h.lock.kept (k := ()) hi ?_ hj hu hk
    exact fun hlocked hnot => hfree hlocked (Bool.eq_false_iff.mpr hnot)

theorem others_progress (h : Inv host remote id owner k p) (hi : p.threads[i]? = some t)
    {r r' : SkillRow} (hrow : k.row = some r) {base disk : Option Dir}
    (hsame : t.phase.holdsLock = true ∨ base = k.disk ∧ disk = p.shared.disk ∧ r'.stored = r.stored)
    {j : Nat} {u : Request} (hj : j ≠ i) (hu : p.threads[j]? = some u) :
    Progress host remote id base r'.stored disk u.op u.phase := by
  have hprogress := h.progress r hrow u (List.mem_of_getElem? hu)
  rcases hsame with hholds | ⟨rfl, rfl, hstored⟩
  · apply progress_of_not_holdsLock
    · exact Bool.eq_false_iff.mpr (h.lock.apart i j t u (Ne.symm hj) hi hu () hholds)
    · cases hphase : u.phase.deletes with
      | false => rfl
      | true =>
        cases hu' : u.phase <;> rw [hu'] at hphase hprogress <;> first | exact hprogress.elim | cases hphase
  · rw [hstored]
    exact hprogress

theorem Inv.next (h : Inv host remote id owner k p) (hi : p.threads[i]? = some t) (hsound : Sound id owner k')
    (hrow : s'.row = k'.row)
    (hidle : ∀ r, k'.row = some r → phase.holdsLock = false →
      (t.phase.holdsLock = false → ∀ u ∈ p.threads, u.phase.holdsLock = false) → s'.disk = k'.disk)
    (hself : ∀ r, k'.row = some r → Progress host remote id k'.disk r.stored s'.disk t.op phase)
    (hothers : ∀ r', k'.row = some r' → ∃ r, k.row = some r ∧
      (t.phase.holdsLock = true ∨ k'.disk = k.disk ∧ s'.disk = p.shared.disk ∧ r'.stored = r.stored))
    (hgone : k'.row = none → s'.disk = none ∨ phase.removes = true ∨
      t.phase.removes = false ∧ ∃ u ∈ p.threads, u.phase.removes = true)
    (hchecked : Checked owner t.op phase)
    (hlock : Pool.Exclusive (fun s (_ : Unit) => s.locked = true) (fun t _ => t.phase.holdsLock = true)
      ⟨s', p.threads.set i { t with phase := phase }⟩) :
    Inv host remote id owner k' ⟨s', p.threads.set i { t with phase := phase }⟩ where
  sound := hsound
  row := hrow
  idle := by
    intro r hr hnone
    have hlt := (List.getElem?_eq_some_iff.mp hi).1
    refine hidle r hr (hnone _ (List.mem_of_getElem? (List.getElem?_set_self hlt))) fun hfree u hu => ?_
    obtain ⟨j, hj⟩ := List.mem_iff_getElem?.mp hu
    by_cases hij : i = j
    · subst hij
      rw [← Option.some.inj (hi.symm.trans hj)]
      exact hfree
    · exact hnone u (List.mem_of_getElem? ((List.getElem?_set_ne hij).trans hj))
  progress := by
    intro r hr u hu
    obtain ⟨j, hj⟩ := List.mem_iff_getElem?.mp hu
    rcases Pool.getElem?_set_cases hj with ⟨-, rfl⟩ | ⟨hne, hj⟩
    · exact hself r hr
    · obtain ⟨r₀, hr₀, hsame⟩ := hothers r hr
      exact others_progress h hi hr₀ hsame hne hj
  gone := by
    intro hnone
    have hlt := (List.getElem?_eq_some_iff.mp hi).1
    rcases hgone hnone with hdisk | hremoves | ⟨hnot, u, hu, hremoves⟩
    · exact .inl hdisk
    · exact .inr ⟨_, List.mem_of_getElem? (List.getElem?_set_self hlt), hremoves⟩
    · obtain ⟨j, hj⟩ := List.mem_iff_getElem?.mp hu
      have hne : i ≠ j := by
        rintro rfl
        rw [Option.some.inj (hi.symm.trans hj), hremoves] at hnot
        cases hnot
      exact .inr ⟨u, List.mem_of_getElem? ((List.getElem?_set_ne hne).trans hj), hremoves⟩
  checked := by
    intro u hu
    obtain ⟨j, hj⟩ := List.mem_iff_getElem?.mp hu
    rcases Pool.getElem?_set_cases hj with ⟨-, rfl⟩ | ⟨-, hj⟩
    · exact hchecked
    · exact h.checked u (List.mem_of_getElem? hj)
  lock := hlock

theorem Inv.quiet (h : Inv host remote id owner k p) (hi : p.threads[i]? = some t) (hrow : s'.row = p.shared.row)
    (hdisk : s'.disk = p.shared.disk) (hremoves : t.phase.removes = false)
    (hlocked : p.shared.locked = true → t.phase.holdsLock = false → s'.locked = true)
    (htake : phase.holdsLock = true → t.phase.holdsLock = true ∨ p.shared.locked = false)
    (hown : phase.holdsLock = true → s'.locked = true) (hstays : t.phase.holdsLock = true → phase.holdsLock = true)
    (hself : ∀ r, k.row = some r → Progress host remote id k.disk r.stored p.shared.disk t.op phase)
    (hchecked : Checked owner t.op phase) :
    Inv host remote id owner k ⟨s', p.threads.set i { t with phase := phase }⟩ := by
  refine h.next hi h.sound (hrow.trans h.row) ?_ ?_ ?_ ?_ hchecked (lock_act _ _ h hi htake hown hlocked)
  · intro r hr hleft hfree
    refine hdisk.trans (h.idle r hr (hfree (Bool.eq_false_iff.mpr fun hholds => ?_)))
    exact absurd (hleft.symm.trans (hstays hholds)) Bool.false_ne_true
  · intro r hr
    rw [hdisk]
    exact hself r hr
  · exact fun r hr => ⟨r, hr, .inr ⟨rfl, hdisk, rfl⟩⟩
  · intro hnone
    rw [hdisk]
    rcases h.gone hnone with hgone | hgone
    · exact .inl hgone
    · exact .inr (.inr ⟨hremoves, hgone⟩)

theorem Inv.write (h : Inv host remote id owner k p) (hi : p.threads[i]? = some t) (hrow : s'.row = p.shared.row)
    (hlocked : s'.locked = p.shared.locked) (hholds : t.phase.holdsLock = true) (hstays : phase.holdsLock = true)
    (hwanted : s'.disk = none ∨ wanted p = true)
    (hself : ∀ r, k.row = some r → Progress host remote id k.disk r.stored s'.disk t.op phase)
    (hchecked : Checked owner t.op phase) :
    Inv host remote id owner k ⟨s', p.threads.set i { t with phase := phase }⟩ := by
  have hheld : s'.locked = true := hlocked.trans (h.lock.flagged t (List.mem_of_getElem? hi) () hholds)
  have hremoves : t.phase.removes = false := by
    cases hphase : t.phase <;> rw [hphase] at hholds <;> first | rfl | cases hholds
  refine h.next hi h.sound (hrow.trans h.row) ?_ hself ?_ ?_ hchecked
    (lock_act _ _ h hi (fun _ => .inl hholds) (fun _ => hheld) fun _ _ => hheld)
  · exact fun r _ hleft => absurd (hleft.symm.trans hstays) Bool.false_ne_true
  · exact fun r hr => ⟨r, hr, .inl hholds⟩
  · intro hnone
    rcases hwanted with hdisk | hwanted
    · exact .inl hdisk
    · rw [wanted, h.row, hnone, Option.isSome_none, Bool.false_or, List.any_eq_true] at hwanted
      exact .inr (.inr ⟨hremoves, hwanted⟩)

theorem removes_of_holdsLock (h : phase.holdsLock = true) : phase.removes = false := by
  cases phase <;> first | rfl | cases h

theorem Inv.save {response : Response} (h : Inv host remote id owner k p) (hi : p.threads[i]? = some t)
    (hholds : t.phase.holdsLock = true) (hsound : Sound id owner k') (hrow : s'.row = k'.row)
    (hdisk : s'.disk = p.shared.disk) (hsome : ∀ r', k'.row = some r' → k'.disk = p.shared.disk ∧ ∃ r, k.row = some r)
    (hnone : k'.row = none → k.row = none) :
    Inv host remote id owner k' ⟨s', p.threads.set i { t with phase := .responded response }⟩ := by
  refine h.next hi hsound hrow ?_ (fun _ _ => trivial) ?_ ?_ trivial
    (lock_act _ _ h hi (fun hholds => by cases hholds) (fun hholds => by cases hholds) ?_)
  · exact fun r hr _ _ => hdisk.trans (hsome r hr).1.symm
  · intro r' hr'
    obtain ⟨r, hr⟩ := (hsome r' hr').2
    exact ⟨r, hr, .inl hholds⟩
  · intro hgone
    rcases h.gone (hnone hgone) with hnoDisk | hremoves
    · exact .inl (hdisk.trans hnoDisk)
    · exact .inr (.inr ⟨removes_of_holdsLock hholds, hremoves⟩)
  · intro _ hnot
    rw [hholds] at hnot
    cases hnot

theorem Inv.rewrite {response : Response} (h : Inv host remote id owner k p) (hi : p.threads[i]? = some t)
    (hfree : t.phase.holdsLock = false) (hremoves : t.phase.removes = false) (hsound : Sound id owner k')
    (hbase : k'.disk = k.disk) (hrow : s'.row = k'.row) (hdisk : s'.disk = p.shared.disk)
    (hlocked : s'.locked = p.shared.locked)
    (hsome : ∀ r', k'.row = some r' → ∃ r, k.row = some r ∧ r'.stored = r.stored)
    (hnone : k'.row = none → k.row = none) :
    Inv host remote id owner k' ⟨s', p.threads.set i { t with phase := .responded response }⟩ := by
  refine h.next hi hsound hrow ?_ (fun _ _ => trivial) ?_ ?_ trivial
    (lock_act _ _ h hi (fun hholds => by cases hholds) (fun hholds => by cases hholds) fun hheld _ => hlocked.trans hheld)
  · intro r' hr' _ hothers
    obtain ⟨r, hr, -⟩ := hsome r' hr'
    rw [hdisk, hbase]
    exact h.idle r hr (hothers hfree)
  · intro r' hr'
    obtain ⟨r, hr, hstored⟩ := hsome r' hr'
    exact ⟨r, hr, .inr ⟨hbase, hdisk, hstored⟩⟩
  · intro hgone
    rcases h.gone (hnone hgone) with hnoDisk | hothers
    · exact .inl (hdisk.trans hnoDisk)
    · exact .inr (.inr ⟨hremoves, hothers⟩)

end Invariant

section Steps

variable (host : SkillHost) (remote : Remote) (id : String) (owner : Option String)

def Goes (k : Skill) (p : Pool Shared Request) (i : Nat) (t : Request) (s' : Shared) (phase : Phase) : Prop :=
  phase.failed = true ∨
  (phase.inEffect = t.phase.inEffect ∧ Inv host remote id owner k ⟨s', p.threads.set i { t with phase := phase }⟩) ∨
  (t.phase.inEffect = false ∧ phase.inEffect = true ∧
    Inv host remote id owner (k.serve host remote id t.op) ⟨s', p.threads.set i { t with phase := phase }⟩)

variable {host remote id owner} {k : Skill} {p : Pool Shared Request} {i : Nat} {op : Op} {s' : Shared} {phase : Phase}

theorem writable_cases {caller : Caller} {row : SkillRow} (h : Inv host remote id owner k p)
    (hrow : p.shared.getWritableSkill caller = some row) :
    k.row = some row ∧ row.userId = owner ∧ mayWrite caller owner = true := by
  obtain ⟨hsome, hmay⟩ := Option.filter_eq_some_iff.mp hrow
  rw [h.row] at hsome
  have howner := h.sound.owner row hsome
  rw [howner] at hmay
  exact ⟨hsome, howner, hmay⟩

theorem goes_select (h : Inv host remote id owner k p) (hi : p.threads[i]? = some ⟨op, .select⟩)
    (hact : actPhase host remote id p.shared op .select = some (s', phase)) :
    Goes host remote id owner k p i ⟨op, .select⟩ s' phase := by
  obtain ⟨rfl, rfl⟩ := Prod.mk.inj (Option.some.inj hact)
  cases hrow : p.shared.getWritableSkill op.caller with
  | none => exact .inl rfl
  | some row =>
    obtain ⟨-, howner, hmay⟩ := writable_cases h hrow
    have hquiet : ∀ phase : Phase, phase.holdsLock = false → phase.deletes = false → Checked owner op phase →
        Inv host remote id owner k ⟨p.shared, p.threads.set i ⟨op, phase⟩⟩ := by
      intro phase hlock hdeletes hchecked
      refine h.quiet hi rfl rfl rfl (fun hlocked _ => hlocked) ?_ ?_ (fun hholds => by cases hholds) ?_ hchecked
      · exact fun hholds => absurd (hlock.symm.trans hholds) Bool.false_ne_true
      · exact fun hholds => absurd (hlock.symm.trans hholds) Bool.false_ne_true
      · exact fun _ _ => progress_of_not_holdsLock hlock hdeletes
    have hlock : (∀ replace paths, op.edit ≠ .upload replace [] paths) →
        Inv host remote id owner k ⟨p.shared, p.threads.set i ⟨op, .lock row⟩⟩ :=
      fun hne => hquiet (.lock row) rfl rfl ⟨hmay, hne⟩
    dsimp only
    cases hedit : op.edit with
    | patch data visibleGroups =>
      have hafter : afterSelect op row = .patch row := by rw [afterSelect, hedit]
      rw [hafter]
      exact .inr (.inl ⟨rfl, hquiet (.patch row) rfl rfl ⟨hmay, howner⟩⟩)
    | delete =>
      have hafter : afterSelect op row = .delete row := by rw [afterSelect, hedit]
      rw [hafter]
      exact .inr (.inl ⟨rfl, hquiet (.delete row) rfl rfl ⟨hmay, hedit⟩⟩)
    | remoteUpdate data load | reupload form =>
      have hafter : afterSelect op row = .lock row := by rw [afterSelect, hedit]
      rw [hafter]
      exact .inr (.inl ⟨rfl, hlock fun _ _ h => by rw [hedit] at h; cases h⟩)
    | upload replace files paths =>
      cases files with
      | nil =>
        have hafter : afterSelect op row = .responded (.error 400 "Upload at least one file (files)") := by
          rw [afterSelect, hedit]
        rw [hafter]
        exact .inl rfl
      | cons file files =>
        have hafter : afterSelect op row = .lock row := by rw [afterSelect, hedit]
        rw [hafter]
        exact .inr (.inl ⟨rfl, hlock fun _ _ h => by rw [hedit] at h; cases h⟩)

variable {existing : SkillRow}

theorem goes_patch (h : Inv host remote id owner k p)
    (hi : p.threads[i]? = some ⟨op, .patch existing⟩) (hpermits : permits p op (.patch existing) = true)
    (hact : actPhase host remote id p.shared op (.patch existing) = some (s', phase)) :
    Goes host remote id owner k p i ⟨op, .patch existing⟩ s' phase := by
  obtain ⟨hmay, howner⟩ := h.checked _ (List.mem_of_getElem? hi)
  unfold permits at hpermits
  unfold actPhase at hact
  cases hedit : op.edit with
  | patch data visibleGroups =>
    rw [hedit] at hact hpermits
    dsimp only at hact hpermits
    cases hcheck : checkPatch op.caller data visibleGroups existing with
    | some response =>
      rw [hcheck] at hact
      obtain ⟨rfl, rfl⟩ := Prod.mk.inj (Option.some.inj hact)
      refine .inl ?_
      unfold checkPatch at hcheck
      split at hcheck
      · cases hcheck; rfl
      split at hcheck
      · cases hcheck; rfl
      split at hcheck
      · cases hcheck; rfl
      · cases hcheck
    | none =>
      rw [hcheck, h.row] at hact
      rw [h.row] at hpermits
      dsimp only [savePatch] at hact
      cases hrow : k.row with
      | none =>
        rw [hrow] at hact
        obtain ⟨rfl, rfl⟩ := Prod.mk.inj (Option.some.inj hact)
        cases hpreserves : preservesSharedVisibility op.caller data with
        | true => exact .inl rfl
        | false =>
          refine .inr (.inr ⟨rfl, rfl, ?_⟩)
          rw [serve_absent hrow]
          exact h.rewrite hi rfl rfl h.sound rfl hrow.symm rfl rfl (fun r' hr' => ⟨r', hr', rfl⟩) (fun hnone => hnone)
      | some r =>
        rw [hrow] at hact hpermits
        have hfresh : freshPatch data existing r = true := hpermits
        cases hcondition : updateCondition op.caller data r with
        | false =>
          have hpreserves : preservesSharedVisibility op.caller data = true := by
            unfold updateCondition at hcondition
            cases hp : preservesSharedVisibility op.caller data with
            | true => rfl
            | false =>
              rw [hp] at hcondition
              cases hcondition
          have hnone : (some r).filter (updateCondition op.caller data) = none := by
            rw [Option.filter_some, hcondition]
            rfl
          rw [hnone, hpreserves] at hact
          obtain ⟨rfl, rfl⟩ := Prod.mk.inj (Option.some.inj hact)
          exact .inl rfl
        | true =>
          rw [Option.filter_some_pos hcondition] at hact
          obtain ⟨rfl, rfl⟩ := Prod.mk.inj (Option.some.inj hact)
          have hrowOwner := h.sound.owner r hrow
          have hserve : k.serve host remote id op = ⟨some (patched data existing r), k.disk⟩ := by
            rw [patched_of_fresh hfresh]
            exact serve_patch hedit hrow (hrowOwner ▸ hmay)
              (checkPatch_of_fresh hfresh (hrowOwner.trans howner.symm) hcheck hcondition) hcondition
          refine .inr (.inr ⟨rfl, rfl, ?_⟩)
          rw [hserve]
          refine h.rewrite hi rfl rfl ?_ rfl rfl rfl rfl ?_ (fun hnone => by cases hnone)
          · refine ⟨fun r' hr' => ?_, fun r' hr' => ?_, fun hdisk => ?_⟩
            · cases hr'
              exact hrowOwner
            · cases hr'
              exact h.sound.path r hrow
            · obtain ⟨r₀, hr₀, hstored⟩ := h.sound.kept hdisk
              cases hrow.symm.trans hr₀
              exact ⟨_, rfl, hstored⟩
          · intro r' hr'
            cases hr'
            exact ⟨r, hrow, rfl⟩
  | _ => rw [hedit] at hact; cases hact

variable {skill : SkillRow}

theorem goes_delete (h : Inv host remote id owner k p)
    (hi : p.threads[i]? = some ⟨op, .delete skill⟩) (hpermits : permits p op (.delete skill) = true)
    (hact : actPhase host remote id p.shared op (.delete skill) = some (s', phase)) :
    Goes host remote id owner k p i ⟨op, .delete skill⟩ s' phase := by
  obtain ⟨hmay, hedit⟩ := h.checked _ (List.mem_of_getElem? hi)
  obtain ⟨rfl, rfl⟩ := Prod.mk.inj (Option.some.inj hact)
  refine .inr (.inr ⟨rfl, rfl, ?_⟩)
  have hserve : k.serve host remote id op = ⟨none, none⟩ := by
    cases hrow : k.row with
    | none =>
      rw [serve_absent hrow]
      cases hdisk : k.disk with
      | none => exact congrArg₂ Skill.mk hrow hdisk
      | some dir =>
        obtain ⟨r, hr, -⟩ := h.sound.kept (by rw [hdisk]; exact Option.some_ne_none dir)
        cases hrow.symm.trans hr
    | some r =>
      rw [serve_delete hedit hrow (h.sound.owner r hrow ▸ hmay)]
      cases hstored : r.stored with
      | true => rfl
      | false =>
        cases hdisk : k.disk with
        | none => rfl
        | some dir =>
          obtain ⟨r₀, hr₀, hkept⟩ := h.sound.kept (by rw [hdisk]; exact Option.some_ne_none dir)
          cases hrow.symm.trans hr₀
          rw [hstored] at hkept
          cases hkept
  have hlock := lock_act { p.shared with row := none } (.removeStorage skill) h hi
    (fun hholds => by cases hholds) (fun hholds => by cases hholds) (fun hlocked _ => hlocked)
  have hgone : ∀ (P : SkillRow → Prop) r, (none : Option SkillRow) = some r → P r := fun _ _ hr => by cases hr
  rw [hserve]
  refine h.next hi ⟨hgone _, hgone _, fun hdisk => absurd rfl hdisk⟩ rfl (hgone _) (hgone _) (hgone _) ?_ trivial hlock
  intro _
  cases hstored : skill.stored with
  | true => exact .inr (.inl hstored)
  | false =>
    -- the row said that there are no files: there are none, or the row was gone already
    have hpermits' : (p.shared.row.isNone || p.shared.disk.isNone) = true := by
      simpa [permits, hstored] using hpermits
    rcases (Bool.or_eq_true ..).mp hpermits' with hrow | hdisk
    · rw [Option.isNone_iff_eq_none, h.row] at hrow
      rcases h.gone hrow with hdisk | hothers
      · exact .inl hdisk
      · exact .inr (.inr ⟨rfl, hothers⟩)
    · exact .inl (Option.isNone_iff_eq_none.mp hdisk)

theorem goes_removeStorage (h : Inv host remote id owner k p)
    (hi : p.threads[i]? = some ⟨op, .removeStorage skill⟩)
    (hact : actPhase host remote id p.shared op (.removeStorage skill) = some (s', phase)) :
    Goes host remote id owner k p i ⟨op, .removeStorage skill⟩ s' phase := by
  obtain ⟨rfl, rfl⟩ := Prod.mk.inj (Option.some.inj hact)
  have hrow : k.row = none := by
    cases hrow : k.row with
    | none => rfl
    | some r => exact (h.progress r hrow _ (List.mem_of_getElem? hi)).elim
  have hsome : ∀ r, k.row = some r → False := fun r hr => by cases hrow.symm.trans hr
  have hlock := lock_act { p.shared with disk := if skill.stored then none else p.shared.disk } (.responded (.ok 200)) h hi
    (fun hholds => by cases hholds) (fun hholds => by cases hholds) (fun hlocked _ => hlocked)
  refine .inr (.inl ⟨rfl, h.next hi h.sound h.row (fun r hr => (hsome r hr).elim) (fun r hr => (hsome r hr).elim)
    (fun r hr => (hsome r hr).elim) (fun _ => ?_) trivial hlock⟩)
  cases hstored : skill.stored with
  | true => exact .inl rfl
  | false =>
    rcases h.gone hrow with hdisk | hothers
    · exact .inl hdisk
    · exact .inr (.inr ⟨hstored, hothers⟩)

theorem goes_lock (h : Inv host remote id owner k p)
    (hi : p.threads[i]? = some ⟨op, .lock skill⟩)
    (hact : actPhase host remote id p.shared op (.lock skill) = some (s', phase)) :
    Goes host remote id owner k p i ⟨op, .lock skill⟩ s' phase := by
  have hchecked := h.checked _ (List.mem_of_getElem? hi)
  dsimp only [actPhase] at hact
  split at hact
  · cases hact
  rename_i hfree
  have hfree' : p.shared.locked = false := Bool.eq_false_iff.mpr hfree
  obtain ⟨rfl, rfl⟩ := Prod.mk.inj (Option.some.inj hact)
  refine .inr (.inl ⟨rfl, h.quiet hi rfl rfl rfl (fun _ _ => rfl) (fun _ => .inr hfree') (fun _ => rfl)
    (fun _ => rfl) ?_ hchecked⟩)
  refine fun r hr => h.idle r hr fun u hu => Bool.eq_false_iff.mpr fun hholds => ?_
  exact absurd (hfree'.symm.trans (h.lock.flagged u hu () hholds)) Bool.false_ne_true

variable {phase₀ : Phase}

theorem goes_write (h : Inv host remote id owner k p) (hi : p.threads[i]? = some ⟨op, phase₀⟩)
    (hholds : phase₀.holdsLock = true) (hstays : phase.holdsLock = true) (hrow : s'.row = p.shared.row)
    (hlocked : s'.locked = p.shared.locked) (heffect : phase.inEffect = false) (hwanted : s'.disk = none ∨ wanted p = true)
    (hself : ∀ r, k.row = some r → Progress host remote id k.disk r.stored s'.disk op phase)
    (hchecked : Checked owner op phase) : Goes host remote id owner k p i ⟨op, phase₀⟩ s' phase := by
  have heffect₀ : phase₀.inEffect = false := by
    cases phase₀ <;> first | rfl | cases hholds
  exact .inr (.inl ⟨heffect.trans heffect₀.symm, h.write hi hrow hlocked hholds hstays hwanted hself hchecked⟩)

theorem goes_look (h : Inv host remote id owner k p) (hi : p.threads[i]? = some ⟨op, phase₀⟩)
    (hholds : phase₀.holdsLock = true) (hstays : phase.holdsLock = true) (heffect : phase.inEffect = false)
    (hself : ∀ r, k.row = some r → Progress host remote id k.disk r.stored p.shared.disk op phase)
    (hchecked : Checked owner op phase) : Goes host remote id owner k p i ⟨op, phase₀⟩ p.shared phase := by
  have heffect₀ : phase₀.inEffect = false := by
    cases phase₀ <;> first | rfl | cases hholds
  have hlocked : p.shared.locked = true := h.lock.flagged _ (List.mem_of_getElem? hi) () hholds
  refine .inr (.inl ⟨heffect.trans heffect₀.symm, h.quiet hi rfl rfl (removes_of_holdsLock hholds)
    (fun _ _ => hlocked) (fun _ => .inl hholds) (fun _ => hlocked) (fun _ => hstays) hself hchecked⟩)

theorem goes_enterReupload {form : ReuploadForm} (h : Inv host remote id owner k p)
    (hi : p.threads[i]? = some ⟨op, .locked existing⟩) (hedit : op.edit = .reupload form)
    (hpermits : permits p op (.locked existing) = true)
    (hact : enterReupload host id op form existing p.shared = (s', phase)) :
    Goes host remote id owner k p i ⟨op, .locked existing⟩ s' phase := by
  have hmay := (h.checked _ (List.mem_of_getElem? hi)).1
  simp only [permits, hedit, Bool.and_eq_true] at hpermits
  obtain ⟨hwanted, hclears⟩ := hpermits
  unfold enterReupload at hact
  split at hact
  · rename_i hfiles
    split at hact
    · cases hact
      exact .inl rfl
    · rename_i parsed staged hfolder
      cases hact
      refine goes_write h hi rfl rfl rfl rfl rfl (.inr hwanted) ?_ hmay
      exact fun r _ => ⟨form, hedit, .inl ⟨hfiles, hfolder⟩⟩
  rename_i hfiles
  split at hact
  · cases hact
    exact .inl rfl
  rename_i file hfile
  split at hact
  · cases hact
    exact .inl rfl
  rename_i hsize
  split at hact
  · cases hact
    exact .inl rfl
  rename_i parsed disk hwrite
  cases hact
  refine goes_write h hi rfl rfl rfl rfl rfl (.inr hwanted) ?_ hmay
  intro r hr
  have hbase : p.shared.disk = k.disk := h.progress r hr _ (List.mem_of_getElem? hi)
  have hcleared : (if existing.stored then none else p.shared.disk) = if r.stored then none else k.disk := by
    rw [h.row, hr, decide_eq_false hfiles, Bool.false_or, Option.all_some, Bool.or_eq_true] at hclears
    rcases hclears with hstored | hdisk
    · rw [of_decide_eq_true hstored, hbase]
    · rw [Option.isNone_iff_eq_none] at hdisk
      rw [← hbase, hdisk, ite_self, ite_self]
  rw [hcleared] at hwrite
  exact ⟨form, hedit, .inr ⟨not_not.mp hfiles, file, hfile, hsize, hwrite⟩⟩

theorem goes_enterUpload {replace : Bool} {files : List UploadedFile} {paths : List String}
    (h : Inv host remote id owner k p) (hi : p.threads[i]? = some ⟨op, .locked skill⟩)
    (hedit : op.edit = .upload replace files paths)
    (hact : enterUpload host id op replace (uploads files paths) skill p.shared = (s', phase)) :
    Goes host remote id owner k p i ⟨op, .locked skill⟩ s' phase := by
  obtain ⟨hmay, hne⟩ := h.checked _ (List.mem_of_getElem? hi)
  have hfiles : files ≠ [] := by
    rintro rfl
    exact hne replace paths hedit
  unfold enterUpload at hact
  split at hact
  · rename_i hswaps
    obtain ⟨rfl, hstored⟩ := (Bool.and_eq_true ..).mp hswaps
    split at hact
    · cases hact
      exact .inl rfl
    rename_i staged hstage
    cases hact
    refine goes_write h hi rfl rfl rfl rfl rfl (.inl rfl) ?_ hmay
    exact fun r _ => ⟨files, paths, hedit, hfiles, hstored, hstage⟩
  rename_i hswaps
  cases hact
  refine goes_look h hi rfl rfl rfl ?_ hmay
  intro r hr
  have hbase : p.shared.disk = k.disk := h.progress r hr _ (List.mem_of_getElem? hi)
  exact ⟨replace, files, paths, [], hedit, hfiles, Bool.eq_false_iff.mpr hswaps, rfl, by rw [hbase]; rfl⟩

theorem goes_locked (h : Inv host remote id owner k p)
    (hi : p.threads[i]? = some ⟨op, .locked skill⟩) (hpermits : permits p op (.locked skill) = true)
    (hact : actPhase host remote id p.shared op (.locked skill) = some (s', phase)) :
    Goes host remote id owner k p i ⟨op, .locked skill⟩ s' phase := by
  have hmay := (h.checked _ (List.mem_of_getElem? hi)).1
  have hact := Option.some.inj hact
  unfold enter at hact
  split at hact
  · rename_i form hedit
    exact goes_enterReupload h hi hedit hpermits hact
  · rename_i replace files paths hedit
    exact goes_enterUpload h hi hedit hact
  · split at hact
    · cases hact
      exact .inl rfl
    · cases hact
      refine goes_look h hi rfl rfl rfl ?_ hmay
      exact fun r hr => h.progress r hr _ (List.mem_of_getElem? hi)

theorem writeUploads_cons {skillId : String} {file : SkillStorageFile} {disk : Option Dir} {dir : Dir}
    (files : List SkillStorageFile) (hsize : validateSingleFileSize file.content.length = .ok ())
    (hwrite : writeSkillFile host skillId file.path file.content disk = (.ok (), dir)) :
    writeUploads host skillId (file :: files) disk = writeUploads host skillId files (some dir) := by
  rw [writeUploads, hsize]
  dsimp only
  rw [hwrite]

theorem writeUploads_snoc {skillId : String} {written : List SkillStorageFile} {file : SkillStorageFile}
    {base disk : Option Dir} {dir : Dir} (hwritten : writeUploads host skillId written base = (.ok (), disk))
    (hsize : validateSingleFileSize file.content.length = .ok ())
    (hwrite : writeSkillFile host skillId file.path file.content disk = (.ok (), dir)) :
    writeUploads host skillId (written ++ [file]) base = (.ok (), some dir) := by
  induction written generalizing base with
  | nil =>
    cases hwritten
    exact writeUploads_cons [] hsize hwrite
  | cons file₀ written ih =>
    unfold writeUploads at hwritten
    split at hwritten
    · cases hwritten
    rename_i hsize₀
    split at hwritten
    · cases hwritten
    rename_i dir₀ hwrite₀
    exact (writeUploads_cons (written ++ [file]) hsize₀ hwrite₀).trans (ih hwritten)

theorem goes_writing {rest : List SkillStorageFile} (h : Inv host remote id owner k p)
    (hi : p.threads[i]? = some ⟨op, .writing skill rest⟩) (hpermits : permits p op (.writing skill rest) = true)
    (hact : actPhase host remote id p.shared op (.writing skill rest) = some (s', phase)) :
    Goes host remote id owner k p i ⟨op, .writing skill rest⟩ s' phase := by
  have hmay : mayWrite op.caller owner = true := h.checked _ (List.mem_of_getElem? hi)
  have hprogress := fun r hr => h.progress r hr _ (List.mem_of_getElem? hi)
  cases rest with
  | nil =>
    cases hact
    refine goes_look h hi rfl rfl rfl ?_ hmay
    intro r hr
    obtain ⟨replace, files, paths, written, hedit, hfiles, hswaps, hall, hwritten⟩ := hprogress r hr
    rw [List.append_nil] at hall
    refine ⟨replace, files, paths, hedit, hfiles, ?_⟩
    rw [hswaps, hall]
    exact hwritten
  | cons file rest =>
    dsimp only [actPhase] at hact
    split at hact
    · cases hact
      exact .inl rfl
    rename_i hsize
    split at hact
    · cases hact
      exact .inl rfl
    rename_i dir hwrite
    cases hact
    refine goes_write h hi rfl rfl rfl rfl rfl (.inr hpermits) ?_ hmay
    intro r hr
    obtain ⟨replace, files, paths, written, hedit, hfiles, hswaps, hall, hwritten⟩ := hprogress r hr
    refine ⟨replace, files, paths, written ++ [file], hedit, hfiles, hswaps, ?_, writeUploads_snoc hwritten hsize hwrite⟩
    rw [hall, List.append_assoc]
    rfl

theorem goes_cleared {staged : Option Dir} (h : Inv host remote id owner k p)
    (hi : p.threads[i]? = some ⟨op, .cleared skill staged⟩) (hpermits : permits p op (.cleared skill staged) = true)
    (hact : actPhase host remote id p.shared op (.cleared skill staged) = some (s', phase)) :
    Goes host remote id owner k p i ⟨op, .cleared skill staged⟩ s' phase := by
  have hmay : mayWrite op.caller owner = true := h.checked _ (List.mem_of_getElem? hi)
  cases hact
  refine goes_write h hi rfl rfl rfl rfl rfl (.inr hpermits) ?_ hmay
  intro r hr
  obtain ⟨files, paths, hedit, hfiles, hstored, hstaged⟩ := h.progress r hr _ (List.mem_of_getElem? hi)
  refine ⟨true, files, paths, hedit, hfiles, ?_⟩
  rw [Bool.true_and, hstored]
  exact hstaged

theorem isError_remoteSkillErrorResponse (e : Thrown) : (remoteSkillErrorResponse e).isError = true := by
  cases e with
  | error message => rfl
  | remote code message => cases code <;> rfl

variable {current : SkillRow}

theorem inspect_error {disk : Option Dir} {response : Response}
    (h : inspect host remote op current disk = .error response) : response.isError = true := by
  unfold inspect at h
  split at h
  · unfold decideRemoteUpdate at h
    split at h
    · cases h
      exact isError_remoteSkillErrorResponse _
    split at h
    · cases h; rfl
    split at h
    · cases h; rfl
    split at h
    · cases h
      exact isError_remoteSkillErrorResponse _
    split at h
    · cases h; rfl
    split at h
    · cases h; rfl
    · cases h
  · cases h; rfl

theorem goes_download (h : Inv host remote id owner k p)
    (hi : p.threads[i]? = some ⟨op, .download current⟩)
    (hact : actPhase host remote id p.shared op (.download current) = some (s', phase)) :
    Goes host remote id owner k p i ⟨op, .download current⟩ s' phase := by
  have hmay : mayWrite op.caller owner = true := h.checked _ (List.mem_of_getElem? hi)
  have hact := Option.some.inj hact
  split at hact
  · rename_i response hinspect
    cases hact
    exact .inl (inspect_error hinspect)
  rename_i u hinspect
  cases hact
  refine goes_look h hi rfl rfl rfl ?_ hmay
  intro r hr
  have hbase : p.shared.disk = k.disk := h.progress r hr _ (List.mem_of_getElem? hi)
  exact ⟨hbase, hbase ▸ hinspect⟩

theorem goes_swap {u : RemoteUpdate} (h : Inv host remote id owner k p)
    (hi : p.threads[i]? = some ⟨op, .swap current u⟩) (hpermits : permits p op (.swap current u) = true)
    (hact : actPhase host remote id p.shared op (.swap current u) = some (s', phase)) :
    Goes host remote id owner k p i ⟨op, .swap current u⟩ s' phase := by
  have hmay : mayWrite op.caller owner = true := h.checked _ (List.mem_of_getElem? hi)
  have hact := Option.some.inj hact
  split at hact
  · cases hact
    exact .inl rfl
  rename_i staged hstage
  cases hact
  refine goes_write h hi rfl rfl rfl rfl rfl (.inr hpermits) ?_ hmay
  intro r hr
  exact ⟨(h.progress r hr _ (List.mem_of_getElem? hi)).2, hstage⟩

theorem goes_save {f : SkillRow → SkillRow} {status : Nat} (h : Inv host remote id owner k p)
    (hi : p.threads[i]? = some ⟨op, phase₀⟩) (hholds : phase₀.holdsLock = true)
    (howner : ∀ r, (f r).userId = r.userId)
    (hpath : ∀ r, k.row = some r → (f r).storagePath = some id ∧ (f r).stored = true)
    (hserve : ∀ r, k.row = some r → k.serve host remote id op = ⟨some (f r), p.shared.disk⟩) :
    Goes host remote id owner k p i ⟨op, phase₀⟩ { p.shared.unlock with row := p.shared.row.map f }
      (.responded (.ok status)) := by
  have heffect₀ : phase₀.inEffect = false := by
    cases phase₀ <;> first | rfl | cases hholds
  refine .inr (.inr ⟨heffect₀, rfl, ?_⟩)
  cases hrow : k.row with
  | none =>
    rw [serve_absent hrow]
    refine h.save hi hholds h.sound ?_ rfl (fun r' hr' => ?_) (fun hnone => hnone)
    · rw [h.row, hrow]
      rfl
    · cases hrow.symm.trans hr'
  | some r =>
    obtain ⟨hstorage, hstored⟩ := hpath r hrow
    rw [hserve r hrow]
    refine h.save hi hholds ⟨fun r' hr' => ?_, fun r' hr' => ?_, fun _ => ⟨f r, rfl, hstored⟩⟩ ?_ rfl
      (fun _ _ => ⟨rfl, r, hrow⟩) (fun hnone => by cases hnone)
    · cases hr'
      exact (howner r).trans (h.sound.owner r hrow)
    · cases hr'
      exact .inr hstorage
    · rw [h.row, hrow]
      rfl

theorem goes_saveUpload (hid : id ≠ "") (h : Inv host remote id owner k p)
    (hi : p.threads[i]? = some ⟨op, .saveUpload skill⟩) (hpermits : permits p op (.saveUpload skill) = true)
    (hact : actPhase host remote id p.shared op (.saveUpload skill) = some (s', phase)) :
    Goes host remote id owner k p i ⟨op, .saveUpload skill⟩ s' phase := by
  have hmay : mayWrite op.caller owner = true := h.checked _ (List.mem_of_getElem? hi)
  have hfresh : ∀ r, k.row = some r → ∃ replace files paths, op.edit = .upload replace files paths ∧ files ≠ [] ∧
      Uploads host id op (uploads files paths) k.disk (replace && skill.stored) p.shared.disk ∧
      freshUpload replace skill r = true := by
    intro r hr
    obtain ⟨replace, files, paths, hedit, hfiles, huploads⟩ := h.progress r hr _ (List.mem_of_getElem? hi)
    refine ⟨replace, files, paths, hedit, hfiles, huploads, ?_⟩
    unfold permits at hpermits
    rw [hedit] at hpermits
    dsimp only at hpermits
    rw [h.row, hr] at hpermits
    exact hpermits
  cases hact
  refine goes_save h hi rfl (fun r => by rw [uploaded_eq]) ?_ ?_
  · intro r hr
    obtain ⟨replace, files, paths, hedit, hfiles, huploads, hfresh⟩ := hfresh r hr
    have hpath : (uploaded skill id r).storagePath = some id := by
      rw [uploaded_eq]
      show (if skill.stored then r.storagePath else some id) = some id
      cases hskill : skill.stored with
      | false => rfl
      | true => exact path_of_stored (h.sound.path r hr) (stored_of_fresh hfresh hskill)
    exact ⟨hpath, stored_of_path hid hpath⟩
  · intro r hr
    obtain ⟨replace, files, paths, hedit, hfiles, huploads, hfresh⟩ := hfresh r hr
    rw [uploaded_of_fresh (h.sound.path r hr) hfresh]
    rw [swaps_of_fresh hfresh] at huploads
    exact serve_upload hedit hr (h.sound.owner r hr ▸ hmay) hfiles huploads

theorem goes_saveReupload {parsed : SkillMd} (hid : id ≠ "") (h : Inv host remote id owner k p)
    (hi : p.threads[i]? = some ⟨op, .saveReupload existing parsed⟩)
    (hpermits : permits p op (.saveReupload existing parsed) = true)
    (hact : actPhase host remote id p.shared op (.saveReupload existing parsed) = some (s', phase)) :
    Goes host remote id owner k p i ⟨op, .saveReupload existing parsed⟩ s' phase := by
  have hmay : mayWrite op.caller owner = true := h.checked _ (List.mem_of_getElem? hi)
  cases hact
  refine goes_save h hi rfl (fun r => rfl) (fun r _ => ⟨rfl, stored_of_path hid rfl⟩) ?_
  intro r hr
  obtain ⟨form, hedit, hreuploads⟩ := h.progress r hr _ (List.mem_of_getElem? hi)
  rw [permits, h.row, hr, Option.all_some] at hpermits
  rw [reuploaded_of_fresh (of_decide_eq_true hpermits)]
  exact serve_reupload hedit hr (h.sound.owner r hr ▸ hmay) hreuploads

theorem goes_saveRemote {u : RemoteUpdate} (hid : id ≠ "") (h : Inv host remote id owner k p)
    (hi : p.threads[i]? = some ⟨op, .saveRemote current u⟩)
    (hpermits : permits p op (.saveRemote current u) = true)
    (hact : actPhase host remote id p.shared op (.saveRemote current u) = some (s', phase)) :
    Goes host remote id owner k p i ⟨op, .saveRemote current u⟩ s' phase := by
  have hmay : mayWrite op.caller owner = true := h.checked _ (List.mem_of_getElem? hi)
  cases hact
  refine goes_save h hi rfl (fun r => rfl) (fun r _ => ⟨rfl, stored_of_path hid rfl⟩) ?_
  intro r hr
  obtain ⟨hinspect, hstage⟩ := h.progress r hr _ (List.mem_of_getElem? hi)
  rw [permits, h.row, hr, Option.all_some] at hpermits
  rw [← inspect_of_sameInstall hpermits] at hinspect
  cases hedit : op.edit with
  | remoteUpdate data load => exact serve_remoteUpdate hedit hr (h.sound.owner r hr ▸ hmay) hinspect hstage
  | _ => rw [inspect, hedit] at hinspect; cases hinspect

theorem goes_act (hid : id ≠ "") (h : Inv host remote id owner k p)
    (hi : p.threads[i]? = some ⟨op, phase₀⟩) (hpermits : permits p op phase₀ = true)
    (hact : actPhase host remote id p.shared op phase₀ = some (s', phase)) :
    Goes host remote id owner k p i ⟨op, phase₀⟩ s' phase := by
  cases phase₀ with
  | select => exact goes_select h hi hact
  | patch existing => exact goes_patch h hi hpermits hact
  | delete skill => exact goes_delete h hi hpermits hact
  | removeStorage skill => exact goes_removeStorage h hi hact
  | lock skill => exact goes_lock h hi hact
  | locked skill => exact goes_locked h hi hpermits hact
  | writing skill rest => exact goes_writing h hi hpermits hact
  | cleared skill staged => exact goes_cleared h hi hpermits hact
  | download current => exact goes_download h hi hact
  | swap current u => exact goes_swap h hi hpermits hact
  | saveUpload skill => exact goes_saveUpload hid h hi hpermits hact
  | saveReupload existing parsed => exact goes_saveReupload hid h hi hpermits hact
  | saveRemote current u => exact goes_saveRemote hid h hi hpermits hact
  | responded response => cases hact

theorem Inv.spawn {t : Request} (h : Inv host remote id owner k p) (ht : t.phase = .select) :
    Inv host remote id owner k ⟨p.shared, p.threads ++ [t]⟩ := by
  have hmem : ∀ u ∈ p.threads ++ [t], u ∈ p.threads ∨ u = t := fun u hu =>
    (List.mem_append.mp hu).imp_right List.mem_singleton.mp
  refine ⟨h.sound, h.row, ?_, ?_, ?_, ?_, ?_⟩
  · exact fun r hr hnone => h.idle r hr fun u hu => hnone u (List.mem_append_left _ hu)
  · intro r hr u hu
    rcases hmem u hu with hu | rfl
    · exact h.progress r hr u hu
    · rw [ht]
      trivial
  · intro hnone
    rcases h.gone hnone with hdisk | ⟨u, hu, hremoves⟩
    · exact .inl hdisk
    · exact .inr ⟨u, List.mem_append_left _ hu, hremoves⟩
  · intro u hu
    rcases hmem u hu with hu | rfl
    · exact h.checked u hu
    · rw [ht]
      trivial
  · refine h.lock.spawn fun _ hholds => ?_
    rw [ht] at hholds
    cases hholds

end Steps

section Runs

variable (host : SkillHost) (remote : Remote) (id : String)

def Served (owner : Option String) (start : Skill) (p : Pool Shared Request) : Prop :=
  (∃ t ∈ p.threads, t.phase.failed = true) ∨
  ∃ k, Linearised Request.op (fun t => t.phase.inEffect) (fun op k => k.serve host remote id op) start p.threads k ∧
    Inv host remote id owner k p

variable {host remote id} {owner : Option String} {start : Skill} {p q : Pool Shared Request}

theorem failed_set {i : Nat} {t t' : Request} (hi : p.threads[i]? = some t) (hlive : t.phase.failed = false)
    (h : ∃ u ∈ p.threads, u.phase.failed = true) : ∃ u ∈ p.threads.set i t', u.phase.failed = true := by
  obtain ⟨u, hu, hfailed⟩ := h
  obtain ⟨j, hj⟩ := List.mem_iff_getElem?.mp hu
  have hne : i ≠ j := by
    rintro rfl
    rw [Option.some.inj (hi.symm.trans hj), hfailed] at hlive
    cases hlive
  exact ⟨u, List.mem_of_getElem? ((List.getElem?_set_ne hne).trans hj), hfailed⟩

theorem served_step {e : Pool.Event Request Unit} (hid : id ≠ "") (hallowed : allowed p e = true)
    (h : Served host remote id owner start p) (hstep : Pool.step (program host remote id) p e = some q) :
    Served host remote id owner start q := by
  obtain ⟨t, rfl, hselect, rfl⟩ | ⟨i, c, t, s', t', rfl, hi, hact, rfl⟩ := Pool.step_cases hstep
  · have ht : t.phase = .select := by
      simp only [program] at hselect
      split at hselect
      · assumption
      · cases hselect
    rcases h with ⟨u, hu, hfailed⟩ | ⟨k, hlinear, hinv⟩
    · exact .inl ⟨u, List.mem_append_left _ hu, hfailed⟩
    · exact .inr ⟨k, hlinear.spawn (by rw [ht]; rfl), hinv.spawn ht⟩
  · obtain ⟨⟨s₀, phase⟩, hphase, heq⟩ := Option.map_eq_some_iff.mp hact
    cases heq
    have hlt := (List.getElem?_eq_some_iff.mp hi).1
    rcases h with hfailed | ⟨k, hlinear, hinv⟩
    · refine .inl (failed_set hi ?_ hfailed)
      cases ht : t.phase <;> first | rfl | (rw [ht] at hphase; cases hphase)
    have hpermits : permits p t.op t.phase = true := by
      have hallowed' : p.threads[i]?.all (fun r => permits p r.op r.phase) = true := hallowed
      rw [hi, Option.all_some] at hallowed'
      exact hallowed'
    rcases goes_act hid hinv hi hpermits hphase with hfailed | ⟨heffect, hinv'⟩ | ⟨hbefore, hafter, hinv'⟩
    · exact .inl ⟨_, List.mem_of_getElem? (List.getElem?_set_self hlt), hfailed⟩
    · exact .inr ⟨k, hlinear.keep hi rfl heffect, hinv'⟩
    · exact .inr ⟨_, hlinear.commit hi hbefore hafter, hinv'⟩

theorem served_initial (hpath : ∀ r, start.row = some r → r.storagePath = none ∨ r.storagePath = some id)
    (hkept : start.disk ≠ none → ∃ r, start.row = some r ∧ r.stored = true) :
    Served host remote id (start.row.bind SkillRow.userId) start
      ⟨{ row := start.row, disk := start.disk }, []⟩ := by
  refine .inr ⟨start, linearised_nil, ⟨?_, hpath, hkept⟩, rfl, fun _ _ _ => rfl, ?_, ?_, ?_, ?_⟩
  · intro r hr
    rw [hr]
    rfl
  · exact fun _ _ t ht => absurd ht List.not_mem_nil
  · intro hnone
    cases hdisk : start.disk with
    | none => exact .inl rfl
    | some dir =>
      obtain ⟨r, hr, -⟩ := hkept (by rw [hdisk]; exact Option.some_ne_none dir)
      cases hnone.symm.trans hr
  · exact fun t ht => absurd ht List.not_mem_nil
  · exact ⟨fun t ht => absurd ht List.not_mem_nil, fun i j t u _ hi => by cases hi⟩

/-- When every request has succeeded, the skill is what the requests lead to in some order. -/
theorem skill_edits_serialise (host : SkillHost) (remote : Remote) (id : String) (start : Skill)
    (es : List (Pool.Event Request Unit)) (p : Pool Shared Request) (hid : id ≠ "")
    (hpath : ∀ r, start.row = some r → r.storagePath = none ∨ r.storagePath = some id)
    (hkept : start.disk ≠ none → ∃ r, start.row = some r ∧ r.stored = true)
    (hruns : Runs (Pool.step (program host remote id)) (fun p e => allowed p e = true)
      ⟨{ row := start.row, disk := start.disk }, []⟩ es p)
    (hdone : ∀ t ∈ p.threads, t.phase.succeeded = true) :
    (∃ order : List Op, order.Perm (p.threads.map Request.op) ∧
      order.foldl (fun k op => k.serve host remote id op) start = ⟨p.shared.row, p.shared.disk⟩) ∧
    (p.shared.row = none → p.shared.disk = none) := by
  have hsettled : ∀ t ∈ p.threads, t.phase.failed = false ∧ t.phase.inEffect = true ∧ t.phase.holdsLock = false ∧
      t.phase.removes = false := by
    intro t ht
    have hok := hdone t ht
    cases hphase : t.phase <;> rw [hphase] at hok <;> first | cases hok | skip
    rename_i response
    exact ⟨Bool.not_eq_true' _ |>.mp hok, rfl, rfl, rfl⟩
  rcases hruns.invariant (fun _ _ _ hallowed h hstep => served_step hid hallowed h hstep)
      (served_initial hpath hkept) with
    ⟨t, ht, hfailed⟩ | ⟨k, hlinear, hinv⟩
  · rw [(hsettled t ht).1] at hfailed
    cases hfailed
  have hgone : p.shared.row = none → p.shared.disk = none := by
    intro hnone
    rcases hinv.gone (hinv.row.symm.trans hnone) with hdisk | ⟨t, ht, hremoves⟩
    · exact hdisk
    · rw [(hsettled t ht).2.2.2] at hremoves
      cases hremoves
  have hdisk : k.disk = p.shared.disk := by
    cases hrow : k.row with
    | some r => exact (hinv.idle r hrow fun t ht => (hsettled t ht).2.2.1).symm
    | none =>
      rw [hgone (hinv.row.trans hrow)]
      cases hdisk : k.disk with
      | none => rfl
      | some dir =>
        obtain ⟨r, hr, -⟩ := hinv.sound.kept (by rw [hdisk]; exact Option.some_ne_none dir)
        cases hrow.symm.trans hr
  obtain ⟨order, hperm, horder⟩ := hlinear.all fun t ht => (hsettled t ht).2.1
  refine ⟨⟨order, hperm, ?_⟩, hgone⟩
  rw [horder, hinv.row, ← hdisk]

end Runs

section Examples

def reviewSkill : Skill := ⟨some review, some reviewDir⟩

def opened : Pool Shared Request := ⟨{ row := reviewSkill.row, disk := reviewSkill.disk }, []⟩

def asked (edit : Edit) : Request where
  op := { caller := administrator, edit := edit, temporaries := ⟨"0", "1"⟩ }

def addNotes : Edit := .upload false [⟨"notes.md", [0x41]⟩] []

/-- A `PATCH` between the lock of an upload and its first file. -/
def renamedDuringUpload : List (Pool.Event Request Unit) :=
  [.spawn (asked addNotes), .spawn (asked (.patch { name := some "renamed" } [])), .act 0 (), .act 1 (), .act 0 (),
    .act 0 (), .act 1 (), .act 0 (), .act 0 (), .act 0 ()]

theorem skill_edits_serialise_rename : ∃ p,
    Runs (Pool.step (program plainHost offline "skl_1")) (fun p e => allowed p e = true) opened renamedDuringUpload p ∧
    p.threads.length = 2 ∧
    (∃ order : List Op, order.Perm (p.threads.map Request.op) ∧
      order.foldl (fun k op => k.serve plainHost offline "skl_1" op) reviewSkill = ⟨p.shared.row, p.shared.disk⟩) ∧
    (p.shared.row = none → p.shared.disk = none) := by
  obtain ⟨p, hrun, hdone, hlength⟩ : ∃ p,
      run (guarded (Pool.step (program plainHost offline "skl_1")) fun p e => allowed p e = true) opened
        renamedDuringUpload = some p ∧ (p.threads.all fun t => t.phase.succeeded) = true ∧ p.threads.length = 2 :=
    exists_of_run_any (by decide +kernel)
  have hruns := Runs.of_guarded hrun
  refine ⟨p, hruns, hlength, skill_edits_serialise plainHost offline "skl_1" reviewSkill renamedDuringUpload p
    (by decide) ?_ ?_ hruns (List.all_eq_true.mp hdone)⟩
  · intro r hr
    cases hr
    exact .inr rfl
  · exact fun _ => ⟨review, rfl, rfl⟩

def deletedDuringUpload : List (Pool.Event Request Unit) :=
  [.spawn (asked addNotes), .spawn (asked .delete), .act 0 (), .act 1 (), .act 0 (), .act 0 (), .act 1 (), .act 1 (),
    .act 0 (), .act 0 (), .act 0 ()]

theorem directory_outlives_deleted_skill :
    ¬∀ (host : SkillHost) (remote : Remote) (id : String) (start : Skill) (es : List (Pool.Event Request Unit))
      (p : Pool Shared Request), id ≠ "" → (∀ r, start.row = some r → r.storagePath = none ∨ r.storagePath = some id) →
      (start.disk ≠ none → ∃ r, start.row = some r ∧ r.stored = true) →
      run (Pool.step (program host remote id)) ⟨{ row := start.row, disk := start.disk }, []⟩ es = some p →
      (∀ t ∈ p.threads, t.phase.succeeded = true) →
      (∃ order : List Op, order.Perm (p.threads.map Request.op) ∧
        order.foldl (fun k op => k.serve host remote id op) start = ⟨p.shared.row, p.shared.disk⟩) ∧
      (p.shared.row = none → p.shared.disk = none) := by
  intro h
  obtain ⟨p, hrun, hdone, hrow, hdisk⟩ : ∃ p,
      run (Pool.step (program plainHost offline "skl_1")) opened deletedDuringUpload = some p ∧
        (p.threads.all fun t => t.phase.succeeded) = true ∧ p.shared.row = none ∧ p.shared.disk ≠ none :=
    exists_of_run_any (by decide +kernel)
  refine hdisk ((h plainHost offline "skl_1" reviewSkill deletedDuringUpload p (by decide) ?_ ?_ hrun
    (List.all_eq_true.mp hdone)).2 hrow)
  · intro r hr
    cases hr
    exact .inr rfl
  · exact fun _ => ⟨review, rfl, rfl⟩

end Examples

end A2Wave.SkillEdits
