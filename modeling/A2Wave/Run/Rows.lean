import A2Wave.Run.Operations

/-! What an operation may do to one row of the run table. -/

namespace A2Wave

def RunStatus.terminal : RunStatus → Bool
  | .completed => true
  | .failed => true
  | .cancelled => true
  | .pending => false
  | .queued => false
  | .running => false

inductive Op.RowWrite (host : Host) (db : Db) : Op → Run → Run → Prop
  | same {op r} : RowWrite host db op r r
  | settled {op r status result} : r.status = .running → status.terminal = true →
      RowWrite host db op r (settleRow host status result r)
  | reaped {runId owner scope r result} : scope.admits owner r = true →
      RowWrite host db (.claimReapableRun runId owner scope) r (settleRow host .failed result r)
  | cancelled {runId expected r} : r.status = expected.status →
      RowWrite host db (.claimRunCancellation runId expected) r (cancelRow host r)
  | failed {runId reason r} :
      RowWrite host db (.applyFailure runId reason) r (statusRow host .failed (reasonRow host reason r))
  | prepared {snapshot step r} : r.status = .running → r.id = snapshot.id →
      RowWrite host db (.prepareExecution snapshot step) r
        { rewriteMetadata snapshot.executionMetadata r with queuedAt := none, updatedAt := host.now }
  | merged {d runId read call r} : matchesMetadata d read r.executionMetadata = true →
      RowWrite host db (.mergeMetadata d runId read call) r
        { r with executionMetadata := some ((read.getD .nil).writes (call.produce (read.getD .nil))) }
  | directed {runId workDir r} : RowWrite host db (.setWorkDir runId workDir) r (workDirRow workDir r)
  | requeued {runId code owner r} : r.id = runId → r.status = .running →
      RowWrite host db (.requeueForResume runId code owner) r (requeueRow host db code r)

section Rows

variable {host : Host} {db db' : Db} {k : String} {r' : Run} {op : Op}

theorem casRun_row {k' : String} {p : Run → Bool} {f : Run → Run} {hf : ∀ r, (f r).id = r.id}
    (h : db.casRun k p f hf = some db') (hr' : db'.runs.find? k' = some r') :
    ∃ r, db.runs.find? k' = some r ∧ (r' = r ∨ r.id = k ∧ p r = true ∧ r' = f r) := by
  obtain ⟨r, hr, hp, hfr, hother⟩ := Db.casRun_find? h
  by_cases hk : k' = k
  · subst hk
    rw [hfr] at hr'
    cases hr'
    exact ⟨r, hr, .inr ⟨Table.find?_some_key hr, hp, rfl⟩⟩
  · rw [hother k' hk] at hr'
    exact ⟨r', hr', .inl rfl⟩

theorem casRun_getD_row {k' : String} {p : Run → Bool} {f : Run → Run} {hf : ∀ r, (f r).id = r.id}
    (hr' : ((db.casRun k p f hf).getD db).runs.find? k' = some r') :
    ∃ r, db.runs.find? k' = some r ∧ (r' = r ∨ r.id = k ∧ p r = true ∧ r' = f r) := by
  cases h : db.casRun k p f hf with
  | none =>
    rw [h] at hr'
    exact ⟨r', hr', .inl rfl⟩
  | some db' =>
    rw [h] at hr'
    exact casRun_row h hr'

theorem rowWrite_terminalTransition {runId stepId : String} {s : Settlement}
    (hs : s.status.terminal = true)
    (hr' : (committed db (terminalTransition host db runId stepId s)).runs.find? k = some r') :
    ∃ r, db.runs.find? k = some r ∧ Op.RowWrite host db op r r' := by
  cases h : terminalTransition host db runId stepId s with
  | error e =>
    rw [h] at hr'
    exact ⟨r', hr', .same⟩
  | ok res =>
    obtain ⟨b, db'⟩ := res
    rw [h] at hr'
    obtain ⟨-, rfl, -⟩ | ⟨-, db₁, hcas, hstep⟩ := terminalTransition_cases h
    · exact ⟨r', hr', .same⟩
    · rw [committed, Db.casStep_runs hstep] at hr'
      obtain ⟨r, hr, rfl | ⟨-, hp, rfl⟩⟩ := casRun_row hcas hr'
      · exact ⟨_, hr, .same⟩
      · exact ⟨r, hr, .settled (by simpa using hp) hs⟩

theorem terminal_successSettlement (result : ExecuteWorkerResult) (trace : ExecutionTrace) :
    (successSettlement result trace).status.terminal = true := by
  simp only [successSettlement]
  split <;> rfl

theorem rowWrite_settle {runId : String} {status : RunStatus} {result : Fields}
    (hs : status.terminal = true)
    (hcas : db.casRun runId (·.status = .running) (settleRow host status result) (fun _ => rfl) = some db')
    (hr' : db'.runs.find? k = some r') :
    ∃ r, db.runs.find? k = some r ∧ Op.RowWrite host db op r r' := by
  obtain ⟨r, hr, rfl | ⟨-, hp, rfl⟩⟩ := casRun_row hcas hr'
  · exact ⟨_, hr, .same⟩
  · exact ⟨r, hr, .settled (by simpa using hp) hs⟩

theorem Op.rowWrite (hcreate : ∀ r, op ≠ .createRun r) (hr' : (op.commit host db).runs.find? k = some r') :
    ∃ r, db.runs.find? k = some r ∧ Op.RowWrite host db op r r' := by
  cases op with
  | createRun r => exact absurd rfl (hcreate r)
  | deleteRun runId =>
    simp only [Op.commit, Db.deleteRun, Table.find?_deleteWhere] at hr'
    exact ⟨r', (Option.filter_eq_some_iff.mp hr').1, .same⟩
  | prepareExecution snapshot step =>
    simp only [Op.commit] at hr'
    cases h : A2Wave.prepareExecution host db snapshot step with
    | error e =>
      rw [h] at hr'
      exact ⟨r', hr', .same⟩
    | ok res =>
      obtain ⟨b, db'⟩ := res
      rw [h] at hr'
      obtain ⟨-, rfl⟩ | ⟨-, r, -, -, hr, hrun, hrow, hother, -⟩ := prepareExecution_cases h
      · exact ⟨r', hr', .same⟩
      · by_cases hk : k = snapshot.id
        · subst hk
          rw [committed, hrow] at hr'
          cases hr'
          exact ⟨r, hr, .prepared hrun (Table.find?_some_key hr)⟩
        · rw [committed, hother k hk] at hr'
          exact ⟨r', hr', .same⟩
  | mergeMetadata d runId read call =>
    obtain ⟨r, hr, rfl | ⟨-, hp, rfl⟩⟩ := casRun_getD_row hr'
    · exact ⟨_, hr, .same⟩
    · exact ⟨r, hr, .merged hp⟩
  | setWorkDir runId workDir =>
    obtain ⟨r, hr, rfl | ⟨-, -, rfl⟩⟩ := casRun_getD_row hr'
    · exact ⟨_, hr, .same⟩
    · exact ⟨r, hr, .directed⟩
  | finishRunSuccess runId stepId result trace =>
    exact rowWrite_terminalTransition (terminal_successSettlement result trace) hr'
  | finishRunError runId stepId errorMsg trace => exact rowWrite_terminalTransition rfl hr'
  | runLevelRecovery runId stepId error =>
    simp only [Op.commit, A2Wave.runLevelRecovery] at hr'
    split at hr'
    · exact ⟨r', hr', .same⟩
    · rename_i db₁ hcas
      exact rowWrite_settle rfl hcas hr'
  | cancelLateStep stepId | releaseReserved | releaseRecovered | setSyncStatus | bindAgent => exact ⟨r', hr', .same⟩
  | claimRunCancellation runId expected =>
    simp only [Op.commit] at hr'
    cases h : A2Wave.claimRunCancellation host db runId expected with
    | mk b db' =>
      rw [h] at hr'
      obtain ⟨-, rfl, -⟩ | ⟨-, db₁, hcas, hruns, -⟩ := claimRunCancellation_cases h
      · exact ⟨r', hr', .same⟩
      · rw [hruns] at hr'
        obtain ⟨r, hr, rfl | ⟨-, hp, rfl⟩⟩ := casRun_row hcas hr'
        · exact ⟨_, hr, .same⟩
        · exact ⟨r, hr, .cancelled (by simpa using hp)⟩
  | cancelStale runId reason =>
    simp only [Op.commit, cancelStaleTransition] at hr'
    split at hr'
    · exact ⟨r', hr', .same⟩
    · rename_i db₁ hcas
      exact rowWrite_settle rfl hcas hr'
  | failBeforeLifecycle runId error =>
    simp only [Op.commit, failBeforeLifecycleTransition] at hr'
    split at hr'
    · exact ⟨r', hr', .same⟩
    · rename_i db₁ hcas
      exact rowWrite_settle rfl hcas hr'
  | claimReapableRun runId owner scope =>
    simp only [Op.commit] at hr'
    cases h : A2Wave.claimReapableRun host db runId owner scope with
    | mk b db' =>
      rw [h] at hr'
      obtain ⟨-, rfl, -⟩ | ⟨-, db₁, hcas, rfl⟩ := claimReapableRun_cases h
      · exact ⟨r', hr', .same⟩
      · obtain ⟨r, hr, rfl | ⟨-, hp, rfl⟩⟩ := casRun_row hcas hr'
        · exact ⟨_, hr, .same⟩
        · exact ⟨r, hr, .reaped hp⟩
  | requeueForResume runId code owner =>
    simp only [Op.commit] at hr'
    cases h : A2Wave.requeueForResume host db runId code owner with
    | mk b db' =>
      rw [h] at hr'
      obtain ⟨-, rfl⟩ | ⟨-, db₁, hcas, rfl⟩ := requeueForResume_cases h
      · exact ⟨r', hr', .same⟩
      · obtain ⟨r, hr, rfl | ⟨hid, hp, rfl⟩⟩ := casRun_row hcas hr'
        · exact ⟨_, hr, .same⟩
        · simp only [Bool.and_eq_true, decide_eq_true_eq] at hp
          exact ⟨r, hr, .requeued hid hp.1⟩
  | applyFailure runId reason =>
    simp only [Op.commit, updateRunStatus, failRunWithStructuredReason, Table.find?_updateWhere] at hr'
    obtain ⟨r₁, hr₁, heq⟩ := Option.map_eq_some_iff.mp hr'
    obtain ⟨r, hr, rfl⟩ := Option.map_eq_some_iff.mp hr₁
    by_cases hid : r.id = runId
    · have hid' : (reasonRow host reason r).id = runId := hid
      simp only [hid, hid', decide_true, if_true] at heq
      exact ⟨r, hr, heq ▸ .failed⟩
    · simp only [hid, decide_false, Bool.false_eq_true, if_false] at heq
      exact ⟨r, hr, heq ▸ .same⟩
  | releaseOwned w =>
    have hruns : (committed db (releaseScmWorkload db w host.processInstanceId)).runs = db.runs := by
      simp only [releaseScmWorkload]
      repeat (first | rfl | split)
    simp only [Op.commit, hruns] at hr'
    exact ⟨r', hr', .same⟩

theorem find?_createRun {r : Run} (hne : k ≠ r.id) : (db.createRun r).runs.find? k = db.runs.find? k := by
  rw [Db.createRun]
  split
  · rename_i t ht
    exact (Table.find?_insert ht k).trans (if_neg hne.symm)
  · rfl

theorem find?_createRun_self {r : Run} (hfree : db.runs.find? r.id = none)
    (h : (db.createRun r).runs.find? r.id = some r') : r' = { r with status := .pending } := by
  rw [Db.createRun] at h
  split at h
  · rename_i t ht
    have hself := (Table.find?_insert ht r.id).trans (if_pos rfl)
    exact (Option.some.inj (hself.symm.trans h)).symm
  · rw [hfree] at h
    cases h

end Rows

end A2Wave
