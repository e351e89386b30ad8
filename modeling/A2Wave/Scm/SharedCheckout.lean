import Mathlib
import A2Wave.Scm.CheckoutLock
import A2Wave.Scm.SyncClaim

/-! A sync against the runs that work in the checkout it rewrites. -/

namespace A2Wave.Checkout

open Transition

def Shared.clear (s : Shared) (workDir : Option String) (scmSourceId : String) : Bool :=
  s.world.processes.any fun p => (localPathOf s.world.db scmSourceId).any fun localPath =>
    !runOccupiesSharedCheckout p.host workDir localPath

def Thread.claims (t : Thread) (scmSourceId : String) : Bool :=
  match t.task with
  | .sync call phase => call.sourceId = scmSourceId && phase.claims call
  | .queue _ | .resolve _ _ | .resolveDefault _ _ => false

def Thread.executes (t : Thread) (scmSourceId : String) : Bool :=
  match t.task with
  | .sync call phase => call.sourceId = scmSourceId && phase.executes.isSome
  | .queue _ | .resolve _ _ | .resolveDefault _ _ => false

def Task.returns (db : Db) (c : Choice) : Task → Option (String × String × String)
  | .resolve call (.create wsPath) =>
    if c.succeeds then some (call.runId, call.scmSourceId, wsPath) else none
  | .resolveDefault call .source =>
    if c.dbFails then none
    else ((db.scmSources.find? call.scmSourceId).filter (·.type ≠ .git)).map fun source =>
      (call.runId, call.scmSourceId, source.localPath)
  | .resolveDefault call (.locate source) =>
    if c.succeeds && !c.dbFails then none else some (call.runId, call.scmSourceId, source.localPath)
  | .resolveDefault call (.probe localPath _) =>
    if c.dbFails then some (call.runId, call.scmSourceId, localPath) else none
  | .resolveDefault call (.create localPath _ _) =>
    if c.succeeds then none else some (call.runId, call.scmSourceId, localPath)
  | .resolveDefault call (.recorded wsPath) => some (call.runId, call.scmSourceId, wsPath)
  | _ => none

def Task.records : Task → Option (String × Option String)
  | .resolve call (.claim wsPath) => some (call.runId, some wsPath)
  | .resolve call .rollback => some (call.runId, none)
  | .resolveDefault call (.record wsPath _) => some (call.runId, some wsPath)
  | _ => none

def returnsAsRecorded (s : Shared) (c : Choice) (t : Thread) : Bool :=
  (t.task.returns s.world.db c).all fun (runId, scmSourceId, dir) =>
    localPathOf s.world.db scmSourceId ≠ some dir ||
      !s.clear (workDirOf s.world.db runId) scmSourceId

/-- A recorded directory is not moved away from a checkout that the run was handed, nor onto one
that is being rewritten. -/
def recordsApart (s : State) (t : Thread) : Bool :=
  t.task.records.all fun (runId, workDir) =>
    (s.shared.handed.all fun h => h.runId ≠ runId || !s.shared.clear workDir h.scmSourceId) &&
    s.threads.all fun u => match u.task with
      | .sync call phase => phase.executes.isNone ||
          !activeOn s.shared.world.db runId call.sourceId || s.shared.clear workDir call.sourceId
      | .queue _ | .resolve _ _ | .resolveDefault _ _ => true

def arbitrates (s : State) : Pool.Event Thread Choice → Bool
  | .spawn _ => true
  | .act i c => s.threads[i]?.all fun t => returnsAsRecorded s.shared c t && recordsApart s t

/-- A task that `starts` has let in, at any of its later steps. -/
def Thread.lawful (t : Thread) : Prop :=
  match t.task with
  | .queue (.commit op) => concurrent op = true
  | .sync call _ => call.sourceId ≠ ""
  | _ => True

structure CheckoutInv (s : State) : Prop where
  lawful : ∀ t ∈ s.threads, t.lawful
  claims : Pool.Exclusive (fun (sh : Shared) x => claimed sh.world.db x = true)
    (fun t x => t.claims x = true) s
  apart : ∀ t ∈ s.threads, ∀ x, t.executes x = true → ∀ runId, activeOn s.shared.world.db runId x = true →
    s.shared.clear (workDirOf s.shared.world.db runId) x = true
  handed : ∀ h ∈ s.shared.handed, s.shared.clear (workDirOf s.shared.world.db h.runId) h.scmSourceId = false

section View

variable {s s' : Shared} {x : String} {workDir : Option String}

def Shared.keys (s : Shared) : List (String → String) :=
  s.world.processes.map (·.host.filesystemCollisionKey)

theorem runOccupiesSharedCheckout_congr {host host' : Host}
    (h : host'.filesystemCollisionKey = host.filesystemCollisionKey) (localPath : String) :
    runOccupiesSharedCheckout host' workDir localPath = runOccupiesSharedCheckout host workDir localPath := by
  simp only [runOccupiesSharedCheckout, filesystemPathsOverlap, h]

theorem clear_iff : s.clear workDir x = true ↔ ∃ key ∈ s.keys, ∃ localPath, localPathOf s.world.db x = some localPath ∧
      runOccupiesSharedCheckout { processInstanceId := "", filesystemCollisionKey := key } workDir
        localPath = false := by
  simp only [Shared.clear, Shared.keys, List.any_eq_true, List.mem_map]
  constructor
  · rintro ⟨p, hp, hany⟩
    cases hpath : localPathOf s.world.db x with
    | none => simp [hpath] at hany
    | some localPath =>
      have hocc : runOccupiesSharedCheckout p.host workDir localPath = false := by
        simpa [hpath] using hany
      exact ⟨_, ⟨p, hp, rfl⟩, localPath, rfl, (runOccupiesSharedCheckout_congr rfl localPath).trans hocc⟩
  · rintro ⟨-, ⟨p, hp, rfl⟩, localPath, hpath, hocc⟩
    have hocc' : runOccupiesSharedCheckout p.host workDir localPath = false :=
      (runOccupiesSharedCheckout_congr rfl localPath).trans hocc
    exact ⟨p, hp, by simp [hpath, hocc']⟩

theorem clear_congr (hkeys : s'.keys = s.keys)
    (hpath : localPathOf s'.world.db x = localPathOf s.world.db x) :
    s'.clear workDir x = s.clear workDir x := by
  rw [Bool.eq_iff_iff, clear_iff, clear_iff, hkeys, hpath]

theorem clear_of_process {i : Nat} {p : Capacity.Process} {m : Capacity.Moment} {localPath : String}
    (hp : s.world.processes[i]? = some p) (hpath : localPathOf s.world.db x = some localPath)
    (hocc : runOccupiesSharedCheckout (p.at m).host workDir localPath = false) :
    s.clear workDir x = true := by
  rw [clear_iff]
  refine ⟨p.host.filesystemCollisionKey, List.mem_map_of_mem (List.mem_of_getElem? hp), localPath,
    hpath, (runOccupiesSharedCheckout_congr rfl localPath).trans hocc⟩

theorem keys_set {i : Nat} {p p' : Capacity.Process} {m : Capacity.Moment}
    (hp : s.world.processes[i]? = some p) (hsame : (p.at m).SameHost p') :
    (s.world.processes.set i p').map (·.host.filesystemCollisionKey) = s.keys := by
  have hkey : p'.host.filesystemCollisionKey = p.host.filesystemCollisionKey := by
    rw [hsame]
    rfl
  unfold Shared.keys
  rw [List.map_set, hkey]
  apply List.ext_getElem?
  intro j
  rw [List.getElem?_set]
  split
  · rename_i hij
    subst hij
    obtain ⟨hlt, hget⟩ := List.getElem?_eq_some_iff.mp hp
    simp [hlt, hget]
  · rfl

end View

theorem Thread.claims_of_executes {t : Thread} {x : String} (h : t.executes x = true) : t.claims x = true := by
  obtain ⟨process, task⟩ := t
  cases task with
  | sync call phase =>
    simp only [Thread.executes, Bool.and_eq_true, decide_eq_true_eq] at h
    simp [Thread.claims, h.1, SyncPhase.claims_of_executes h.2]
  | queue task => cases h
  | resolve call phase => cases h
  | resolveDefault call phase => cases h

section Frame

variable {s : State} {sh' : Shared} {i : Nat} {t t' : Thread}

theorem CheckoutInv.act (h : CheckoutInv s) (hkeys : sh'.keys = s.shared.keys)
    (hpaths : ∀ y, localPathOf sh'.world.db y = localPathOf s.shared.world.db y)
    (hlawful : t'.lawful)
    (hclaims : Pool.Exclusive (fun (sh : Shared) x => claimed sh.world.db x = true)
      (fun t x => t.claims x = true) ⟨sh', s.threads.set i t'⟩)
    (hown : ∀ x, t'.executes x = true → ∀ runId, activeOn sh'.world.db runId x = true →
      s.shared.clear (workDirOf sh'.world.db runId) x = true)
    (hothers : ∀ u ∈ s.threads, ∀ x, u.executes x = true → ∀ runId, activeOn sh'.world.db runId x = true →
      s.shared.clear (workDirOf sh'.world.db runId) x = true)
    (hhanded : ∀ h ∈ sh'.handed, s.shared.clear (workDirOf sh'.world.db h.runId) h.scmSourceId =
      false) : CheckoutInv ⟨sh', s.threads.set i t'⟩ := by
  refine ⟨?_, hclaims, ?_, ?_⟩
  · intro u hu
    rcases List.mem_or_eq_of_mem_set hu with hu | rfl
    · exact h.lawful u hu
    · exact hlawful
  · intro u hu x hx runId hactive
    rw [clear_congr hkeys (hpaths x)]
    rcases List.mem_or_eq_of_mem_set hu with hu | rfl
    · exact hothers u hu x hx runId hactive
    · exact hown x hx runId hactive
  · intro d hd
    rw [clear_congr hkeys (hpaths _)]
    exact hhanded d hd

theorem exclusive_other (h : CheckoutInv s) (hi : s.threads[i]? = some t)
    (hno : ∀ x, t'.claims x = false) (hsources : sh'.world.db.scmSources = s.shared.world.db.scmSources) :
    Pool.Exclusive (fun (sh : Shared) x => claimed sh.world.db x = true)
      (fun t x => t.claims x = true) ⟨sh', s.threads.set i t'⟩ := by
  refine h.claims.act hi ?_ ?_ ?_
  · intro x hx
    simp [hno] at hx
  · intro x hx
    simp [hno] at hx
  · intro j u x _ hu hx
    have hclaimed := h.claims.flagged u (List.mem_of_getElem? hu) x hx
    simpa [claimed, hsources] using hclaimed

theorem mem_handed {world : Capacity.World} {task : Task} {d : Handed}
    (h : d ∈ (s.shared.commit world task).handed) :
    d ∈ newlyHanded world.db task ∨ d ∈ s.shared.handed :=
  List.mem_append.mp (List.mem_of_mem_filter h)

end Frame

section Steps

variable {defaultWorkspacesPath : String → String} {scmReclaimRoots : List String} {s : State}
  {i process : Nat} {c : Choice}

variable {db db' : Db}

theorem lawful_queue {p : Capacity.Process} {task task' : Capacity.Task}
    (h : Capacity.TaskStep p db task db' task') : Thread.lawful ⟨process, .queue task'⟩ := by
  cases h <;> trivial

theorem checkoutInv_queue {task task' : Capacity.Task} {world : Capacity.World} (h : CheckoutInv s)
    (hi : s.threads[i]? = some ⟨process, .queue task⟩)
    (hact : Capacity.act s.shared.world ⟨process, task⟩ c.moment = some (world, ⟨process, task'⟩)) :
    CheckoutInv ⟨s.shared.commit world (.queue task'), s.threads.set i ⟨process, .queue task'⟩⟩ := by
  obtain ⟨p, p', hp, htask, -, hprocs, hsame⟩ := Capacity.act_cases hact
  have hlawful := h.lawful _ (List.mem_of_getElem? hi)
  have harb : Arbitrated (p.at c.moment).host s.shared.world.db world.db := by
    refine arbitrated_actTask (fun op hop => ?_) htask
    simp only at hop
    subst hop
    exact hlawful
  have hpaths : ∀ y, localPathOf world.db y = localPathOf s.shared.world.db y := by
    intro y
    rw [localPathOf, harb.sources, localPathOf]
  refine h.act ?_ hpaths ?_ (exclusive_other h hi (fun _ => rfl) harb.sources) ?_ ?_ ?_
  · rw [← keys_set hp hsame, ← hprocs]
    rfl
  · exact lawful_queue (Capacity.actTask_step htask)
  · intro x hx
    cases hx
  · intro u hu x hx runId hactive
    change s.shared.clear (workDirOf world.db runId) x = true
    rw [harb.workDirs]
    have hclaimed := h.claims.flagged u hu x (Thread.claims_of_executes hx)
    have hne : x ≠ "" := by
      obtain ⟨q, utask⟩ := u
      cases utask with
      | sync call phase =>
        simp only [Thread.executes, Bool.and_eq_true, decide_eq_true_eq] at hx
        rw [← hx.1]
        exact h.lawful _ hu
      | queue task | resolve call phase | resolveDefault call phase => cases hx
    rcases harb.activations runId x hne hactive with hactive | hadm
    · exact h.apart u hu x hx runId hactive
    · simp only [claimed, Option.any_eq_true, decide_eq_true_eq] at hclaimed
      obtain ⟨row, hrow, hstatus⟩ := hclaimed
      exact clear_of_process hp (by rw [localPathOf, hrow, Option.map_some])
        (hadm row hrow hstatus)
  · intro d hd
    change s.shared.clear (workDirOf world.db d.runId) d.scmSourceId = false
    rw [harb.workDirs]
    rcases mem_handed hd with hd | hd
    · cases hd
    · exact h.handed d hd

theorem checkoutInv_sync {call : SyncCall} {phase phase' : SyncPhase} {p : Capacity.Process}
    {db' : Db} {busy busy' : BusyCheckouts} {busyCheckouts : Nat → BusyCheckouts}
    (h : CheckoutInv s) (hi : s.threads[i]? = some ⟨process, .sync call phase⟩)
    (hp : s.shared.world.processes[process]? = some p)
    (hact : actSync scmReclaimRoots (p.at c.moment).host c.toSyncChoice s.shared.world.db busy call
      phase = some (db', busy', phase')) :
    CheckoutInv ⟨{ s.shared.commit { s.shared.world with db := db' } (.sync call phase') with
      busyCheckouts := busyCheckouts }, s.threads.set i ⟨process, .sync call phase'⟩⟩ := by
  have hstep := actSync_claim hact
  have hdirs : ∀ runId, workDirOf db' runId = workDirOf s.shared.world.db runId := by
    intro runId
    rw [workDirOf, hstep.runs, workDirOf]
  have hactive' : ∀ runId x, activeOn db' runId x = activeOn s.shared.world.db runId x := by
    intro runId x
    rw [activeOn, loadLease, hstep.leases, activeOn, loadLease]
  have hmem := List.mem_of_getElem? hi
  have hflag : phase.claims call = true → claimed s.shared.world.db call.sourceId = true := by
    intro hclaims
    exact h.claims.flagged _ hmem call.sourceId (by simp [Thread.claims, hclaims])
  have hlawful : call.sourceId ≠ "" := h.lawful _ hmem
  refine h.act rfl hstep.localPaths hlawful ?_ ?_ ?_ ?_
  · refine h.claims.act hi ?_ ?_ ?_
    · intro x hx
      simp only [Thread.claims, Bool.and_eq_true, decide_eq_true_eq] at hx
      obtain ⟨rfl, hclaims⟩ := hx
      rcases hstep.takes hclaims with hclaims | hfree
      · left
        simp [Thread.claims, hclaims]
      · right
        simp [hfree]
    · intro x hx
      simp only [Thread.claims, Bool.and_eq_true, decide_eq_true_eq] at hx
      obtain ⟨rfl, hclaims⟩ := hx
      exact hstep.keeps hclaims hflag
    · intro j u x hj hu hx
      refine h.claims.kept hi (fun hclaimed hno => ?_) hj hu hx
      by_cases hsource : x = call.sourceId
      · subst hsource
        exact hstep.frees hclaimed (by simpa [Thread.claims] using hno)
      · exact (hstep.others x hsource).trans hclaimed
  · intro x hx runId hactive
    change s.shared.clear (workDirOf db' runId) x = true
    change activeOn db' runId x = true at hactive
    rw [hdirs]
    rw [hactive'] at hactive
    simp only [Thread.executes, Bool.and_eq_true, decide_eq_true_eq] at hx
    obtain ⟨rfl, hexec⟩ := hx
    rcases hstep.admits hexec with hbefore | hun
    · exact h.apart _ hmem call.sourceId (by simp [Thread.executes, hbefore]) runId hactive
    · have hclaimed := hstep.keeps (SyncPhase.claims_of_executes hexec) hflag
      simp only [claimed, Option.any_eq_true] at hclaimed
      obtain ⟨row, hrow, -⟩ := hclaimed
      have hpath : localPathOf s.shared.world.db call.sourceId = some row.localPath := by
        rw [← hstep.localPaths, localPathOf, hrow, Option.map_some]
      exact clear_of_process hp hpath (hun runId row.localPath hactive hpath)
  · intro u hu x hx runId hactive
    change s.shared.clear (workDirOf db' runId) x = true
    rw [hdirs]
    exact h.apart u hu x hx runId ((hactive' runId x).symm.trans hactive)
  · intro d hd
    change s.shared.clear (workDirOf db' d.runId) d.scmSourceId = false
    rw [hdirs]
    rcases mem_handed hd with hd | hd
    · cases hd
    · exact h.handed d hd

structure ResolveStep (db : Db) (c : Choice) (task : Task) (db' : Db) (task' : Task) : Prop where
  writes : db' = db ∨ ∃ runId workDir, task.records = some (runId, workDir) ∧ db' = db.setWorkDir runId workDir
  returns : ∀ r, task'.directory = some r → task.returns db c = some r

variable {task task' : Task}

theorem ResolveStep.idle {db : Db} (h : task'.directory = none) : ResolveStep db c task db task' :=
  ⟨.inl rfl, fun r hr => by simp [h] at hr⟩

theorem resolveStep_resolve {call : ResolveCall}
    {phase phase' : Exclusion.ResolvePhase}
    (h : Exclusion.actResolve defaultWorkspacesPath c.exclusion db call phase = some (db', phase')) :
    ResolveStep db c (.resolve call phase) db' (.resolve call phase') := by
  cases phase with
  | start | source =>
    simp only [Exclusion.actResolve] at h
    split at h
    · cases h
      exact .idle rfl
    split at h <;> cases h <;> exact .idle rfl
  | claim wsPath =>
    simp only [Exclusion.actResolve] at h
    split at h
    · cases h
      exact .idle rfl
    split at h
    · cases h
      exact .idle rfl
    · rename_i hclaim
      cases h
      obtain ⟨-, rfl⟩ := claimWorktree_ok hclaim
      exact ⟨.inr ⟨call.runId, some wsPath, rfl, rfl⟩, fun r hr => by cases hr⟩
  | create wsPath =>
    cases h
    refine ⟨.inl rfl, fun r hr => ?_⟩
    split at hr
    · rename_i hsucceeds
      cases hr
      exact if_pos hsucceeds
    · cases hr
  | rollback =>
    cases h
    refine ⟨?_, fun r hr => by cases hr⟩
    split
    · exact .inl rfl
    · exact .inr ⟨call.runId, none, rfl, rfl⟩
  | returned wsPath => cases h
  | threw message => cases h

theorem resolveStep_default {call : DefaultCall} {phase phase' : DefaultPhase}
    (h : actDefault defaultWorkspacesPath c.succeeds c.dbFails db call phase = some (db', phase')) :
    ResolveStep db c (.resolveDefault call phase) db' (.resolveDefault call phase') := by
  cases phase with
  | start =>
    simp only [actDefault] at h
    split at h <;> cases h <;> exact .idle rfl
  | source =>
    simp only [actDefault] at h
    split at h
    · cases h
      exact .idle rfl
    rename_i hok
    split at h
    · cases h
      exact .idle rfl
    rename_i source hsource
    split at h
    · cases h
      exact .idle rfl
    · rename_i htype
      cases h
      refine ⟨.inl rfl, fun r hr => ?_⟩
      cases hr
      simp [Task.returns, hok, hsource, htype]
  | locate source =>
    simp only [actDefault] at h
    split at h
    · cases h
      exact .idle rfl
    · rename_i hfails
      cases h
      refine ⟨.inl rfl, fun r hr => ?_⟩
      cases hr
      exact if_neg hfails
  | probe localPath wsPath =>
    simp only [actDefault] at h
    split at h
    · rename_i hfails
      cases h
      refine ⟨.inl rfl, fun r hr => ?_⟩
      cases hr
      exact if_pos hfails
    · cases h
      exact .idle rfl
  | create localPath wsPath advance =>
    cases h
    refine ⟨.inl rfl, fun r hr => ?_⟩
    split at hr
    · cases hr
    · rename_i hfails
      cases hr
      exact if_neg hfails
  | record wsPath attempt =>
    simp only [actDefault] at h
    split at h
    · split at h <;> cases h <;> exact .idle rfl
    · cases h
      exact ⟨.inr ⟨call.runId, some wsPath, rfl, rfl⟩, fun r hr => by cases hr⟩
  | recorded wsPath =>
    cases h
    refine ⟨.inl rfl, fun r hr => ?_⟩
    cases hr
    rfl
  | returned dir => cases h
  | elsewhere => cases h
  | threw message => cases h

theorem Task.records_of_returns {db : Db} {task : Task} {r : String × String × String}
    (h : task.returns db c = some r) : task.records = none := by
  cases task with
  | resolve call phase | resolveDefault call phase => cases phase <;> first | rfl | cases h
  | queue task => cases h
  | sync call phase => cases h

theorem ResolveStep.workDirOf
    (h : ResolveStep db c task db' task') (id : String) :
    workDirOf db' id = workDirOf db id ∨ task.records = some (id, workDirOf db' id) := by
  rcases h.writes with rfl | ⟨runId, workDir, hrecords, rfl⟩
  · exact .inl rfl
  · rcases workDirOf_setWorkDir db runId workDir id with
      hsame | ⟨rfl, hdir⟩
    · exact .inl hsame
    · right
      rw [hdir, hrecords]

theorem recordsApart_handed {t : Thread} {runId : String} {workDir : Option String} {d : Handed}
    (h : recordsApart s t = true) (hrecords : t.task.records = some (runId, workDir))
    (hd : d ∈ s.shared.handed) (hrun : d.runId = runId) :
    s.shared.clear workDir d.scmSourceId = false := by
  simp only [recordsApart, hrecords, Option.all_some, Bool.and_eq_true, List.all_eq_true] at h
  simpa [hrun] using h.1 d hd

theorem recordsApart_executes {t u : Thread} {runId x : String} {workDir : Option String}
    (h : recordsApart s t = true) (hrecords : t.task.records = some (runId, workDir))
    (hu : u ∈ s.threads) (hx : u.executes x = true)
    (hactive : activeOn s.shared.world.db runId x = true) : s.shared.clear workDir x = true := by
  simp only [recordsApart, hrecords, Option.all_some, Bool.and_eq_true, List.all_eq_true] at h
  have hapart := h.2 u hu
  obtain ⟨process, utask⟩ := u
  cases utask with
  | sync call phase =>
    simp only [Thread.executes, Bool.and_eq_true, decide_eq_true_eq] at hx
    obtain ⟨rfl, hexec⟩ := hx
    have hsome : phase.executes.isNone = false := by simpa [Option.isSome_iff_ne_none] using hexec
    simpa [hsome, hactive] using hapart
  | queue task => cases hx
  | resolve call phase => cases hx
  | resolveDefault call phase => cases hx

theorem newlyHanded_returns {d : Handed}
    (h : ResolveStep db c task db' task') (hsources : db'.scmSources = db.scmSources)
    (hd : d ∈ newlyHanded db' task') : ∃ dir, task.returns db c = some (d.runId, d.scmSourceId, dir) ∧
      localPathOf db d.scmSourceId = some dir := by
  unfold newlyHanded at hd
  split at hd
  · rename_i runId scmSourceId dir hdir
    split at hd
    · rename_i hpath
      rw [List.mem_singleton.mp hd]
      refine ⟨dir, h.returns _ hdir, ?_⟩
      rw [hsources, Option.any_eq_true] at hpath
      obtain ⟨row, hrow, hlocal⟩ := hpath
      rw [localPathOf, hrow, Option.map_some, of_decide_eq_true hlocal]
    · cases hd
  · cases hd

theorem checkoutInv_resolve {db' : Db} (h : CheckoutInv s)
    (hi : s.threads[i]? = some ⟨process, task⟩)
    (hok : arbitrates s (.act i c) = true)
    (hstep : ResolveStep s.shared.world.db c task db' task')
    (hno : ∀ x, Thread.claims ⟨process, task'⟩ x = false)
    (hlawful : Thread.lawful ⟨process, task'⟩) :
    CheckoutInv ⟨s.shared.commit { s.shared.world with db := db' } task', s.threads.set i ⟨process, task'⟩⟩ := by
  have hok : returnsAsRecorded s.shared c ⟨process, task⟩ = true ∧ recordsApart s ⟨process, task⟩ = true := by
    simpa [arbitrates, hi] using hok
  obtain ⟨hreturns, hrecords⟩ := hok
  have hsources : db'.scmSources = s.shared.world.db.scmSources := by
    rcases hstep.writes with rfl | ⟨runId, workDir, -, rfl⟩
    · rfl
    · exact (Occupancy.untouched_casRun_getD (k := runId)).scmSources
  have hactive' : ∀ runId x, activeOn db' runId x = activeOn s.shared.world.db runId x := by
    intro runId x
    rcases hstep.writes with rfl | ⟨_, workDir, -, rfl⟩
    · rfl
    · simp only [activeOn, loadLease, Occupancy.leases_setWorkDir]
  have hpaths : ∀ y, localPathOf db' y = localPathOf s.shared.world.db y := by
    intro y
    rw [localPathOf, hsources, localPathOf]
  refine h.act rfl hpaths hlawful (exclusive_other h hi hno hsources) ?_ ?_ ?_
  · intro x hx
    have hclaims := Thread.claims_of_executes hx
    simp [hno] at hclaims
  · intro u hu x hx runId hactive
    replace hactive := (hactive' runId x).symm.trans hactive
    change s.shared.clear (workDirOf db' runId) x = true
    rcases hstep.workDirOf runId with hsame | hrecords'
    · rw [hsame]
      exact h.apart u hu x hx runId hactive
    · exact recordsApart_executes hrecords hrecords' hu hx hactive
  · intro d hd
    change s.shared.clear (workDirOf db' d.runId) d.scmSourceId = false
    rcases mem_handed hd with hd | hd
    · obtain ⟨dir, hdir, hpath⟩ := newlyHanded_returns hstep hsources hd
      have hsame : workDirOf db' d.runId = workDirOf s.shared.world.db d.runId := by
        rcases hstep.workDirOf d.runId with hsame | hrecords'
        · exact hsame
        · simp [Task.records_of_returns hdir] at hrecords'
      rw [hsame]
      simpa [returnsAsRecorded, hdir, hpath] using hreturns
    · rcases hstep.workDirOf d.runId with hsame | hrecords'
      · rw [hsame]
        exact h.handed d hd
      · exact recordsApart_handed hrecords hrecords' hd rfl

theorem checkoutInv_spawn {t : Thread} (h : CheckoutInv s)
    (hstart : starts s.shared.world.db t.task = true) :
    CheckoutInv ⟨s.shared, s.threads ++ [t]⟩ := by
  have hfresh : t.lawful ∧ ∀ x, t.claims x = false := by
    obtain ⟨process, task⟩ := t
    cases task with
    | queue task => cases task <;> exact ⟨by first | exact hstart | trivial, fun _ => rfl⟩
    | sync call phase =>
      cases phase <;> simp_all [starts, Thread.lawful, Thread.claims, SyncPhase.claims]
    | resolve call phase | resolveDefault call phase => exact ⟨trivial, fun _ => rfl⟩
  refine ⟨?_, h.claims.spawn (fun x hx => by simp [hfresh.2] at hx), ?_, h.handed⟩
  · intro u hu
    rcases List.mem_append.mp hu with hu | hu
    · exact h.lawful u hu
    · rw [List.mem_singleton.mp hu]
      exact hfresh.1
  · intro u hu x hx runId hactive
    rcases List.mem_append.mp hu with hu | hu
    · exact h.apart u hu x hx runId hactive
    · rw [List.mem_singleton.mp hu] at hx
      have hclaims := Thread.claims_of_executes hx
      simp [hfresh.2] at hclaims

theorem checkoutInv_step {e : Pool.Event Thread Choice} {s' : State}
    (hok : arbitrates s e = true) (h : CheckoutInv s)
    (hs : Pool.step (system defaultWorkspacesPath scmReclaimRoots) s e = some s') :
    CheckoutInv s' := by
  obtain ⟨t, rfl, hstart, rfl⟩ | ⟨i, c, t, sh, t', rfl, hi, hact, rfl⟩ := Pool.step_cases hs
  · exact checkoutInv_spawn h hstart
  obtain ⟨process, task⟩ := t
  cases task with
  | queue task =>
    obtain ⟨⟨world, t₁⟩, hqueue, heq⟩ := Option.map_eq_some_iff.mp hact
    cases heq
    have hprocess : t₁.process = process := by
      obtain ⟨-, -, -, -, hprocess, -⟩ := Capacity.act_cases hqueue
      exact hprocess
    obtain ⟨n, task'⟩ := t₁
    cases hprocess
    exact checkoutInv_queue h hi hqueue
  | sync call phase =>
    obtain ⟨p, hp, hmap⟩ := Option.bind_eq_some_iff.mp hact
    obtain ⟨⟨db', busy', phase'⟩, hsync, heq⟩ := Option.map_eq_some_iff.mp hmap
    cases heq
    exact checkoutInv_sync h hi hp hsync
  | resolve call phase =>
    obtain ⟨⟨db', phase'⟩, hresolve, heq⟩ := Option.map_eq_some_iff.mp hact
    cases heq
    exact checkoutInv_resolve h hi hok (resolveStep_resolve hresolve) (fun _ => rfl) trivial
  | resolveDefault call phase =>
    obtain ⟨⟨db', phase'⟩, hresolve, heq⟩ := Option.map_eq_some_iff.mp hact
    cases heq
    exact checkoutInv_resolve h hi hok (resolveStep_default hresolve) (fun _ => rfl) trivial

end Steps

/-- As long as the checkout is returned only to runs whose recorded directory says so, and the
directories of runs are not recorded across a hand-out or a running sync, no checkout is rewritten
while a run with an active lease on its source was handed it. -/
theorem sync_never_rewrites_handed (defaultWorkspacesPath : String → String)
    (scmReclaimRoots : List String) (world : Capacity.World)
    (events : List (Pool.Event Thread Choice)) (s : State)
    (h : Runs (Pool.step (system defaultWorkspacesPath scmReclaimRoots))
      (fun s e => arbitrates s e = true) ⟨{ world := world }, []⟩ events s) :
    ∀ t ∈ s.threads, ∀ d ∈ s.shared.handed, t.executes d.scmSourceId = true →
      activeOn s.shared.world.db d.runId d.scmSourceId = false := by
  have hinv : CheckoutInv s := by
    refine h.invariant (I := CheckoutInv) (fun s e s' hok hI hs => checkoutInv_step hok hI hs) ?_
    exact ⟨by simp, ⟨by simp, by simp⟩, by simp, by simp⟩
  intro t ht d hd hexec
  by_contra hactive
  have hclear := hinv.apart t ht d.scmSourceId hexec d.runId (by simpa using hactive)
  rw [hinv.handed d hd] at hclear
  cases hclear

def nextTurn : Capacity.World where
  db := {
    runs := ⟨[{ id := "run_1", status := .pending, initiatorAgentId := some "agent_1"
                workDir := some "/srv/worktrees/agent-1" }], by simp⟩
    agents := .single { id := "agent_1", workspaceType := .scm, scmSourceId := some "src_1", maxConcurrency := 1 }
    scmSources := .single { id := "src_1", type := .git, localPath := "/srv/checkout" } }
  processes := [{ host := { processInstanceId := "host-1" } },
    { host := { processInstanceId := "host-2" } }]

def unusable : Choice := { moment := ⟨1000, false⟩, succeeds := false }

def besideSync : List (Pool.Event Thread Choice) :=
  [.spawn (autoSync 0), .act 0 now, .act 0 now, .act 0 now,
    .spawn ⟨1, .queue (.tryAcquireSlot "agent_1" "run_1" 1 .admitRun)⟩, .act 1 now, .act 1 now,
    .spawn ⟨1, .resolveDefault ⟨"run_1", "agent_1", "src_1"⟩ .start⟩, .act 2 now, .act 2 now,
    .act 2 now, .act 2 now]

theorem sync_never_rewrites_handed_worktree : ∃ s,
    Runs (Pool.step (system (fun _ => "/srv/worktrees") [])) (fun s e => arbitrates s e = true)
      ⟨{ world := nextTurn }, []⟩ (besideSync ++ [.act 2 now, .act 2 now, .act 2 now]) s ∧
    (s.threads[0]?.any fun t => t.executes "src_1") = true ∧
    activeOn s.shared.world.db "run_1" "src_1" = true ∧
    ∀ t ∈ s.threads, ∀ d ∈ s.shared.handed, t.executes d.scmSourceId = true →
      activeOn s.shared.world.db d.runId d.scmSourceId = false := by
  refine ⟨_, .of_guarded rfl, by decide +kernel, by decide +kernel, ?_⟩
  exact sync_never_rewrites_handed (fun _ => "/srv/worktrees") [] nextTurn
    (besideSync ++ [.act 2 now, .act 2 now, .act 2 now]) _ (.of_guarded rfl)

theorem fallback_beside_sync : ∃ s, run (Pool.step (system (fun _ => "/srv/worktrees") [])) ⟨{ world := nextTurn }, []⟩
      (besideSync ++ [.act 2 unusable]) = some s ∧
    (s.threads[0]?.any fun t => t.executes "src_1") = true ∧
    s.shared.handed = [⟨"run_1", "src_1"⟩] ∧
    activeOn s.shared.world.db "run_1" "src_1" = true :=
  exists_of_run_any (by decide +kernel)

end A2Wave.Checkout
