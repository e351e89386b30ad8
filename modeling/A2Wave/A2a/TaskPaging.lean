import Mathlib.Data.String.Basic
import A2Wave.A2a.TaskStore
import A2Wave.Lib.Paging

/-! Following `nextPageToken` through `SqliteTaskStore.list`.  The page is cut by the database and
sorted again by the store, so the two orders have to agree on the tasks of a listing. -/

namespace A2Wave.TaskStore

open Paging

/-- The pages from a token to the end; `none` when the fuel is used up. -/
def followPages (rt : Runtime) (rows : List Row) (params : ListTasksRequest) (context : ServerCallContext) :
    Nat → String → Option (Except String (List Task))
  | 0, _ => none
  | fuel + 1, token =>
    match list rt rows { params with pageToken := token } context with
    | .error e => some (.error e)
    | .ok page =>
      if page.nextPageToken = "" then some (.ok page.tasks)
      else (followPages rt rows params context fuel page.nextPageToken).map fun rest =>
        rest.map (page.tasks ++ ·)

section Listing

variable (rt : Runtime) (scope : TaskScope) (params : ListTasksRequest) (after : Option String)

def matching (rows : List Row) : List Row :=
  (rows.filter fun r => inScope scope r && requested rt params after r).mergeSort (rowBefore rt)

def readTask (row : Row) : Option Task :=
  (row.data.bind fun data => decodeScopedTask rt data scope).filter (visible rt params after)

def wellFormed (row : Row) : Bool := (readTask rt scope params after row).isSome

def response (task : Task) : Task :=
  { task with artifacts := if params.includeArtifacts then task.artifacts else [] }

def expected (rows : List Row) : List Task :=
  ((matching rt scope params after rows).filterMap (readTask rt scope params after)).map (response params)

def pageSize : Nat := params.pageSize.getD 50

def cursorAfter (task : Task) : TaskPageCursor := ⟨taskTimestamp task, task.id⟩

/-- What a listing needs of its well-formed tasks: an envelope that names its own row, one order for
the database, the sort and the comparison of strings, and ids that a page token can carry. -/
structure Regular (rows : List Row) : Prop where
  named : ∀ r ∈ matching rt scope params after rows, ∀ t ∈ readTask rt scope params after r,
    t.id = r.id ∧ taskTimestamp t = statusTimestamp r
  sorted : ∀ r ∈ matching rt scope params after rows, ∀ r' ∈ matching rt scope params after rows,
    ∀ t ∈ readTask rt scope params after r, ∀ t' ∈ readTask rt scope params after r', r ≠ r' →
      rowBefore rt r r' = true → taskBefore rt t t' = true ∧ taskBeforeCursor (some (cursorAfter t)) t' = true
  carried : ∀ r ∈ matching rt scope params after rows, ∀ t ∈ readTask rt scope params after r,
    t.id ≠ "" ∧ (rt.encodePageCursor (taskTimestamp t) t.id).length ≤ 4096

structure TokenText (rows : List Row) : Prop where
  decode : ∀ r ∈ matching rt scope params after rows, ∀ t ∈ readTask rt scope params after r,
    rt.decodePageToken (rt.encodePageCursor (taskTimestamp t) t.id) = some (some 1, some (taskTimestamp t), some t.id)
  chars : ∀ r ∈ matching rt scope params after rows, ∀ t ∈ readTask rt scope params after r,
    rt.encodePageCursor (taskTimestamp t) t.id ≠ "" ∧
      (rt.encodePageCursor (taskTimestamp t) t.id).toList.all isPageTokenChar = true

end Listing

structure TextOrder (rt : Runtime) : Prop where
  irrefl : ∀ a, rt.textLt a a = false
  trans : ∀ a b c, rt.textLt a b = true → rt.textLt b c = true → rt.textLt a c = true
  total : ∀ a b, a ≠ b → rt.textLt a b = true ∨ rt.textLt b a = true

theorem parsePageCursor_encode {rt : Runtime} {timestamp id : String}
    (hdecode : rt.decodePageToken (rt.encodePageCursor timestamp id) = some (some 1, some timestamp, some id))
    (hne : rt.encodePageCursor timestamp id ≠ "")
    (hchars : (rt.encodePageCursor timestamp id).toList.all isPageTokenChar = true) (hid : id ≠ "")
    (hlength : (rt.encodePageCursor timestamp id).length ≤ 4096) :
    parsePageCursor rt (rt.encodePageCursor timestamp id) = .ok (some ⟨timestamp, id⟩) := by
  rw [parsePageCursor, if_neg hne, hchars, hdecode]
  have hshort : ¬4096 < (rt.encodePageCursor timestamp id).length := by omega
  simp [hshort, hid]

section Order

variable {rt : Runtime} (horder : TextOrder rt) {r r' r'' : Row}

include horder in
theorem textLt_asymm {a b : String} (h : rt.textLt a b = true) : rt.textLt b a = false := by
  rw [Bool.eq_false_iff]
  intro h'
  have hself := horder.trans a b a h h'
  rw [horder.irrefl] at hself
  cases hself

include horder in
theorem rowBefore_total (r r' : Row) : (rowBefore rt r r' || rowBefore rt r' r) = true := by
  unfold rowBefore
  by_cases hts : statusTimestamp r = statusTimestamp r'
  · rw [if_pos hts, if_pos hts.symm]
    cases hlt : rt.textLt r.id r'.id with
    | false => rfl
    | true => rw [textLt_asymm horder hlt]; rfl
  · rw [if_neg hts, if_neg (Ne.symm hts)]
    rcases horder.total _ _ hts with h | h
    · rw [h, Bool.or_true]
    · rw [h, Bool.true_or]

include horder in
theorem textLe_trans {a b c : String} (hab : rt.textLt a b = false) (hbc : rt.textLt b c = false) :
    rt.textLt a c = false := by
  rw [Bool.eq_false_iff]
  intro hac
  by_cases hbceq : b = c
  · rw [hbceq, hac] at hab
    cases hab
  · rcases horder.total b c hbceq with h | h
    · rw [h] at hbc
      cases hbc
    · rw [horder.trans a c b hac h] at hab
      cases hab

include horder in
theorem rowBefore_trans (h : rowBefore rt r r' = true) (h' : rowBefore rt r' r'' = true) :
    rowBefore rt r r'' = true := by
  unfold rowBefore at h h' ⊢
  by_cases hts : statusTimestamp r = statusTimestamp r' <;>
    by_cases hts' : statusTimestamp r' = statusTimestamp r''
  · rw [if_pos hts] at h
    rw [if_pos hts'] at h'
    rw [if_pos (hts.trans hts'), textLe_trans horder (Bool.not_eq_true' _ ▸ h) (Bool.not_eq_true' _ ▸ h')]
    rfl
  · rw [if_neg hts'] at h'
    rw [if_neg (hts ▸ hts'), hts]
    exact h'
  · rw [if_neg hts] at h
    rw [if_neg (hts' ▸ hts), ← hts']
    exact h
  · rw [if_neg hts] at h
    rw [if_neg hts'] at h'
    have hlt := horder.trans _ _ _ h' h
    have hne : statusTimestamp r ≠ statusTimestamp r'' := by
      intro heq
      rw [heq, horder.irrefl] at hlt
      cases hlt
    rw [if_neg hne]
    exact hlt

include horder in
theorem id_eq_of_rowBefore (h : rowBefore rt r r' = true) (h' : rowBefore rt r' r = true) : r.id = r'.id := by
  unfold rowBefore at h h'
  by_cases hts : statusTimestamp r = statusTimestamp r'
  · rw [if_pos hts] at h
    rw [if_pos hts.symm] at h'
    by_contra hid
    rcases horder.total _ _ hid with hlt | hlt
    · rw [hlt] at h
      cases h
    · rw [hlt] at h'
      cases h'
  · rw [if_neg hts] at h
    rw [if_neg (Ne.symm hts), textLt_asymm horder h] at h'
    cases h'

include horder in
theorem beforeCursor_eq (r r' : Row) : beforeCursor rt (some ⟨statusTimestamp r', r'.id⟩) r = !rowBefore rt r r' := by
  unfold beforeCursor rowBefore
  rw [Option.all_some]
  by_cases hts : statusTimestamp r = statusTimestamp r'
  · simp [hts, horder.irrefl]
  · simp only [hts, if_false, decide_false, Bool.false_and, Bool.or_false]
    rcases horder.total _ _ hts with h | h
    · rw [h, textLt_asymm horder h]
      rfl
    · rw [h, textLt_asymm horder h]
      rfl

end Order

section Sorted

variable {rt : Runtime} (horder : TextOrder rt) {rows l : List Row}

include horder in
theorem sorted_rows (l : List Row) : (l.mergeSort (rowBefore rt)).Pairwise fun r r' => rowBefore rt r r' = true := by
  have htrans : ∀ a b c, rowBefore rt a b = true → rowBefore rt b c = true → rowBefore rt a c = true :=
    fun _ _ _ => rowBefore_trans horder
  exact List.pairwise_mergeSort htrans (rowBefore_total horder) l

def Apart (l : List Row) : Prop := (l.map Row.id).Nodup

theorem Apart.of_sublist {l' : List Row} (h : Apart l) (hsub : l'.Sublist l) : Apart l' :=
  List.Nodup.sublist (hsub.map Row.id) h

theorem Apart.eq (h : Apart l) {r r' : Row} (hr : r ∈ l) (hr' : r' ∈ l) (hid : r.id = r'.id) : r = r' :=
  List.inj_on_of_nodup_map h hr hr' hid

theorem Apart.mergeSort (h : Apart l) (le : Row → Row → Bool) : Apart (l.mergeSort le) :=
  (((List.mergeSort_perm l le).map Row.id).nodup_iff).mpr h

include horder in
theorem filter_mergeSort (h : Apart l) (p : Row → Bool) :
    (l.filter p).mergeSort (rowBefore rt) = (l.mergeSort (rowBefore rt)).filter p := by
  refine List.Perm.eq_of_pairwise ?_ (sorted_rows horder _) ((sorted_rows horder l).filter p) ?_
  · intro r r' hr hr' hle hle'
    have hmem : r ∈ l := List.mem_of_mem_filter ((List.mergeSort_perm _ _).mem_iff.mp hr)
    have hmem' : r' ∈ l := (List.mergeSort_perm _ _).mem_iff.mp (List.mem_of_mem_filter hr')
    exact h.eq hmem hmem' (id_eq_of_rowBefore horder hle hle')
  · exact (List.mergeSort_perm _ _).trans ((List.mergeSort_perm l _).symm.filter p)

include horder in
theorem filter_beforeCursor {pre rest : List Row} {r : Row} (h : Apart (pre ++ r :: rest))
    (hsorted : (pre ++ r :: rest).Pairwise fun r r' => rowBefore rt r r' = true) :
    (pre ++ r :: rest).filter (beforeCursor rt (some ⟨statusTimestamp r, r.id⟩)) = rest := by
  obtain ⟨-, htail, hcross⟩ := List.pairwise_append.mp hsorted
  obtain ⟨hrest, -⟩ := List.pairwise_cons.mp htail
  have hpre : pre.filter (beforeCursor rt (some ⟨statusTimestamp r, r.id⟩)) = [] := by
    refine List.filter_eq_nil_iff.mpr fun r' hr' => ?_
    rw [beforeCursor_eq horder, hcross r' hr' r List.mem_cons_self]
    simp
  have hself : beforeCursor rt (some ⟨statusTimestamp r, r.id⟩) r = false := by
    have hrefl : rowBefore rt r r = true := by simpa using rowBefore_total horder r r
    rw [beforeCursor_eq horder, hrefl]
    rfl
  have hkept : rest.filter (beforeCursor rt (some ⟨statusTimestamp r, r.id⟩)) = rest := by
    refine List.filter_eq_self.mpr fun r' hr' => ?_
    rw [beforeCursor_eq horder]
    cases hback : rowBefore rt r' r with
    | false => rfl
    | true =>
      exfalso
      have hid := id_eq_of_rowBefore horder (hrest r' hr') hback
      have hnodup : (r.id :: rest.map Row.id).Nodup := by
        have hright := h.of_sublist (List.sublist_append_right pre (r :: rest))
        rwa [Apart, List.map_cons] at hright
      exact (List.nodup_cons.mp hnodup).1 (hid ▸ List.mem_map_of_mem hr')
  rw [List.filter_append, hpre, List.nil_append, List.filter_cons_of_neg (by simp [hself]), hkept]

end Sorted

section Page

variable {rt : Runtime} {scope : TaskScope} {params : ListTasksRequest} {after : Option String}
  {rows l : List Row} {cursor : Option TaskPageCursor}

theorem listPage_eq
    (hrows : ((rows.filter fun r => inScope scope r && requested rt params after r).filter
      (beforeCursor rt cursor)).mergeSort (rowBefore rt) = l)
    (hsorted : (l.filterMap (readTask rt scope params after)).Pairwise fun t t' => taskBefore rt t t' = true)
    (hcursor : ∀ t ∈ l.filterMap (readTask rt scope params after), taskBeforeCursor cursor t = true) :
    (listPage rt rows scope params cursor after).tasks =
        ((shown (wellFormed rt scope params after) (pageSize params) l).filterMap
          (readTask rt scope params after)).map (response params) ∧
      (listPage rt rows scope params cursor after).nextPageToken =
        match ((shown (wellFormed rt scope params after) (pageSize params) l).filterMap
          (readTask rt scope params after)).getLast? with
        | some last => if pageSize params < (l.take (pageSize params + 1)).length then
            rt.encodePageCursor (taskTimestamp last) last.id else ""
        | none => "" := by
  have hwindow : (l.take (pageSize params + 1)).Sublist l := List.take_sublist _ _
  have hread : ((l.take (pageSize params + 1)).filterMap fun r =>
      r.data.bind fun data => decodeScopedTask rt data scope).filter (visible rt params after) =
      (l.take (pageSize params + 1)).filterMap (readTask rt scope params after) := by
    rw [List.filter_filterMap]
    rfl
  have hsort : ((l.take (pageSize params + 1)).filterMap (readTask rt scope params after)).mergeSort
      (taskBefore rt) = (l.take (pageSize params + 1)).filterMap (readTask rt scope params after) :=
    List.mergeSort_of_pairwise (hsorted.sublist (hwindow.filterMap _))
  have hremaining : ((l.take (pageSize params + 1)).filterMap (readTask rt scope params after)).filter
      (taskBeforeCursor cursor) = (l.take (pageSize params + 1)).filterMap (readTask rt scope params after) :=
    List.filter_eq_self.mpr fun t ht => hcursor t ((hwindow.filterMap _).subset ht)
  have hpage : ((l.take (pageSize params + 1)).filterMap (readTask rt scope params after)).take (pageSize params) =
      (shown (wellFormed rt scope params after) (pageSize params) l).filterMap (readTask rt scope params after) :=
    filterMap_take_filter _ _ _
  -- a page that holds back a task has read one row too many
  have hmore : ((shown (wellFormed rt scope params after) (pageSize params) l).filterMap
        (readTask rt scope params after)).length <
      ((l.take (pageSize params + 1)).filterMap (readTask rt scope params after)).length →
      pageSize params < (l.take (pageSize params + 1)).length := by
    intro h
    have hle := List.length_filterMap_le (readTask rt scope params after) (l.take (pageSize params + 1))
    rw [← hpage, List.length_take] at h
    omega
  unfold listPage
  dsimp only
  rw [hrows, show params.pageSize.getD 50 = pageSize params from rfl, hread, hsort, hremaining, hpage]
  refine ⟨rfl, ?_⟩
  cases ((shown (wellFormed rt scope params after) (pageSize params) l).filterMap
      (readTask rt scope params after)).getLast? with
  | none => rfl
  | some last =>
    dsimp only
    simp only [Bool.or_eq_true, decide_eq_true_eq, or_iff_left_of_imp hmore]

end Page

section Walk

variable {rt : Runtime} {scope : TaskScope} {params : ListTasksRequest} {after : Option String}
  {context : ServerCallContext} {tasks : Table Row} {l : List Row} {token : String}

theorem matching_apart (tasks : Table Row) : Apart (matching rt scope params after tasks.rows) :=
  Apart.mergeSort (Apart.of_sublist tasks.nodup List.filter_sublist) _

theorem matching_eq (horder : TextOrder rt)
    (hperm : l.Perm (tasks.rows.filter fun r => inScope scope r && requested rt params after r))
    (hsorted : l.Pairwise fun r r' => rowBefore rt r r' = true) :
    matching rt scope params after tasks.rows = l := by
  refine List.Perm.eq_of_pairwise ?_ (sorted_rows horder _) hsorted ((List.mergeSort_perm _ _).trans hperm.symm)
  intro r r' hr hr' hle hle'
  have hmem : r' ∈ matching rt scope params after tasks.rows :=
    (List.mergeSort_perm _ _).mem_iff.mpr (hperm.mem_iff.mp hr')
  exact (matching_apart tasks).eq hr hmem (id_eq_of_rowBefore horder hle hle')

def At (rt : Runtime) (scope : TaskScope) (params : ListTasksRequest) (after : Option String)
    (rows : List Row) (token : String) (l : List Row) : Prop :=
  (token = "" ∧ l = matching rt scope params after rows) ∨
    ∃ pre r t, matching rt scope params after rows = pre ++ r :: l ∧
      readTask rt scope params after r = some t ∧ token = rt.encodePageCursor (taskTimestamp t) t.id

theorem At.sublist (h : At rt scope params after tasks.rows token l) :
    l.Sublist (matching rt scope params after tasks.rows) := by
  rcases h with ⟨-, rfl⟩ | ⟨pre, r, t, hl, -⟩
  · exact List.Sublist.refl _
  · rw [hl]
    exact (List.sublist_cons_self r l).trans (List.sublist_append_right pre (r :: l))

variable (horder : TextOrder rt) (hregular : Regular rt scope params after tasks.rows)

include horder hregular in
theorem pairwise_taskBefore (h : At rt scope params after tasks.rows token l) :
    (l.filterMap (readTask rt scope params after)).Pairwise fun t t' => taskBefore rt t t' = true := by
  have hnodup : (matching rt scope params after tasks.rows).Nodup := (matching_apart tasks).of_map Row.id
  have hsorted : (matching rt scope params after tasks.rows).Pairwise fun r r' => rowBefore rt r r' = true :=
    sorted_rows horder _
  refine List.Pairwise.sublist (h.sublist.filterMap _) (List.pairwise_filterMap.mpr ?_)
  refine List.Pairwise.imp_of_mem ?_ (hsorted.and hnodup)
  rintro r r' hr hr' ⟨hle, hne⟩ t ht t' ht'
  exact (hregular.sorted r hr r' hr' t ht t' ht' hne hle).1

variable (htoken : TokenText rt scope params after tasks.rows)

include horder hregular htoken in
theorem At.cursor (h : At rt scope params after tasks.rows token l) : ∃ cursor, parsePageCursor rt token = .ok cursor ∧
      ((tasks.rows.filter fun r => inScope scope r && requested rt params after r).filter
        (beforeCursor rt cursor)).mergeSort (rowBefore rt) = l ∧
      ∀ t ∈ l.filterMap (readTask rt scope params after), taskBeforeCursor cursor t = true := by
  have hsorted : (matching rt scope params after tasks.rows).Pairwise fun r r' => rowBefore rt r r' = true :=
    sorted_rows horder _
  rcases h with ⟨rfl, rfl⟩ | ⟨pre, r, t, hl, hread, rfl⟩
  · refine ⟨none, rfl, ?_, fun _ _ => rfl⟩
    have hall : (tasks.rows.filter fun r => inScope scope r && requested rt params after r).filter
        (beforeCursor rt none) = tasks.rows.filter fun r => inScope scope r && requested rt params after r :=
      List.filter_eq_self.mpr fun _ _ => rfl
    rw [hall]
    rfl
  · have hr : r ∈ matching rt scope params after tasks.rows := by
      rw [hl]
      exact List.mem_append_right _ List.mem_cons_self
    have hnodup : (pre ++ r :: l).Nodup := hl ▸ (matching_apart tasks).of_map Row.id
    obtain ⟨hid, hts⟩ := hregular.named r hr t hread
    obtain ⟨hne, hlength⟩ := hregular.carried r hr t hread
    obtain ⟨hsome, hchars⟩ := htoken.chars r hr t hread
    refine ⟨some ⟨taskTimestamp t, t.id⟩,
      parsePageCursor_encode (htoken.decode r hr t hread) hsome hchars hne hlength, ?_, ?_⟩
    · have hrows : Apart (tasks.rows.filter fun r => inScope scope r && requested rt params after r) :=
        Apart.of_sublist tasks.nodup List.filter_sublist
      rw [filter_mergeSort horder hrows, hid, hts]
      change (matching rt scope params after tasks.rows).filter _ = l
      rw [hl]
      exact filter_beforeCursor horder (hl ▸ matching_apart tasks) (hl ▸ hsorted)
    · intro t' ht'
      obtain ⟨r', hr', hread'⟩ := List.mem_filterMap.mp ht'
      have hmem : r' ∈ matching rt scope params after tasks.rows := by
        rw [hl]
        exact List.mem_append_right _ (List.mem_cons_of_mem r hr')
      obtain ⟨-, htail, -⟩ := List.pairwise_append.mp (hl ▸ hsorted)
      have hle := (List.pairwise_cons.mp htail).1 r' hr'
      have hapart : r ≠ r' := by
        rintro rfl
        exact (List.nodup_cons.mp (List.nodup_append.mp hnodup).2.1).1 hr'
      exact (hregular.sorted r hr r' hmem t hread t' hread' hapart hle).2

variable (hscope : getScope context = .ok scope)
  (hafter : normalizeStatusTimestampAfter rt params.statusTimestampAfter = .ok after)
  (hjson : ∀ r ∈ tasks.rows, r.data.isSome = true)

include horder hregular htoken hscope hafter hjson in
theorem followPages_eq (fuel : Nat) (h : At rt scope params after tasks.rows token l) :
    followPages rt tasks.rows params context fuel token =
      (walk (wellFormed rt scope params after) (pageSize params) fuel l).map fun out =>
        .ok ((out.filterMap (readTask rt scope params after)).map (response params)) := by
  induction fuel generalizing token l with
  | zero => rfl
  | succ fuel ih =>
    obtain ⟨cursor, hcursor, hrows, hbefore⟩ := h.cursor horder hregular htoken
    obtain ⟨htasks, hnext⟩ := listPage_eq hrows (pairwise_taskBefore horder hregular h) hbefore
    have hlist : list rt tasks.rows { params with pageToken := token } context =
        .ok (listPage rt tasks.rows scope params cursor after) := by
      have hall : (tasks.rows.all fun r => r.data.isSome) = true := List.all_eq_true.mpr hjson
      simp only [list, hscope, hcursor, hafter, hall, Except.bind, if_true]
      rfl
    rw [followPages, hlist]
    dsimp only
    by_cases hnil : shown (wellFormed rt scope params after) (pageSize params) l = []
    · rw [hnil] at htasks hnext
      have hend : (listPage rt tasks.rows scope params cursor after).nextPageToken = "" := hnext
      rw [if_pos hend, walk, if_neg (fun hmore => hmore.1 hnil), htasks, hnil]
      rfl
    · obtain ⟨front, x, hl, -, hx, hshown⟩ := exists_last hnil
      obtain ⟨t, ht⟩ := Option.isSome_iff_exists.mp hx
      have hlast : ((shown (wellFormed rt scope params after) (pageSize params) l).filterMap
          (readTask rt scope params after)).getLast? = some t := by
        rw [hshown, List.filterMap_append, List.filterMap_cons_some ht]
        simp
      rw [hlast] at hnext
      dsimp only at hnext
      by_cases hmore : pageSize params < (l.take (pageSize params + 1)).length
      · rw [if_pos hmore] at hnext
        have hat : At rt scope params after tasks.rows (rt.encodePageCursor (taskTimestamp t) t.id)
            (dropThrough (wellFormed rt scope params after)
              (shown (wellFormed rt scope params after) (pageSize params) l).length l) := by
          rcases h with ⟨-, hstart⟩ | ⟨pre, r, t', hpre, -, -⟩
          · exact .inr ⟨front, x, t, hstart ▸ hl, ht, rfl⟩
          · refine .inr ⟨pre ++ r :: front, x, t, ?_, ht, rfl⟩
            rw [hpre, List.append_assoc, List.cons_append, ← hl]
        have hx' : x ∈ matching rt scope params after tasks.rows := by
          refine h.sublist.subset ?_
          rw [hl]
          exact List.mem_append_right _ List.mem_cons_self
        rw [if_neg (by rw [hnext]; exact (htoken.chars x hx' t ht).1), hnext, ih hat, walk,
          if_pos ⟨hnil, hmore⟩, htasks]
        cases walk (wellFormed rt scope params after) (pageSize params) fuel
            (dropThrough (wellFormed rt scope params after)
              (shown (wellFormed rt scope params after) (pageSize params) l).length l) with
        | none => rfl
        | some out =>
          simp only [Option.map_some, Except.map, List.filterMap_append, List.map_append]
      · rw [if_neg hmore] at hnext
        rw [if_pos hnext, walk, if_neg (fun h => hmore h.2), htasks]
        rfl

include hregular in
theorem rows_eq_of_tasks_eq {out out' : List Row}
    (hout : ∀ r ∈ out, r ∈ matching rt scope params after tasks.rows ∧ wellFormed rt scope params after r = true)
    (hout' : ∀ r ∈ out', r ∈ matching rt scope params after tasks.rows ∧ wellFormed rt scope params after r = true)
    (h : (out.filterMap (readTask rt scope params after)).map (response params) =
      (out'.filterMap (readTask rt scope params after)).map (response params)) : out = out' := by
  have hids : ∀ {rows : List Row}, (∀ r ∈ rows, r ∈ matching rt scope params after tasks.rows ∧
      wellFormed rt scope params after r = true) →
      ((rows.filterMap (readTask rt scope params after)).map (response params)).map Task.id = rows.map Row.id := by
    intro rows hrows
    induction rows with
    | nil => rfl
    | cons r rows ih =>
      obtain ⟨hr, hgood⟩ := hrows r List.mem_cons_self
      obtain ⟨t, ht⟩ := Option.isSome_iff_exists.mp hgood
      have hid : (response params t).id = r.id := (hregular.named r hr t ht).1
      rw [List.filterMap_cons_some ht, List.map_cons, List.map_cons, List.map_cons, hid,
        ih fun r' hr' => hrows r' (List.mem_cons_of_mem r hr')]
  have hmap : out.map Row.id = out'.map Row.id := by rw [← hids hout, ← hids hout', h]
  have hinj : ∀ r ∈ out, ∀ r' ∈ out', r.id = r'.id → r = r' :=
    fun r hr r' hr' hid => (matching_apart tasks).eq (hout r hr).1 (hout' r' hr').1 hid
  clear h hids hout hout'
  induction out generalizing out' with
  | nil => exact (List.map_eq_nil_iff.mp hmap.symm).symm
  | cons r out ih =>
    cases out' with
    | nil => cases hmap
    | cons r' out' =>
      obtain ⟨hid, htail⟩ := List.cons.inj hmap
      rw [hinj r List.mem_cons_self r' List.mem_cons_self hid,
        ih htail fun a ha b hb => hinj a (List.mem_cons_of_mem r ha) b (List.mem_cons_of_mem r' hb)]

theorem walk_subset {good : Row → Bool} {size fuel : Nat} {out : List Row}
    (h : walk good size fuel l = some out) : ∀ r ∈ out, r ∈ l.filter good := by
  induction fuel generalizing l out with
  | zero => cases h
  | succ fuel ih =>
    rw [walk] at h
    split at h
    · obtain ⟨rest, hrest, rfl⟩ := Option.map_eq_some_iff.mp h
      intro r hr
      rw [← append_filter_dropThrough good size l]
      rcases List.mem_append.mp hr with hr | hr
      · exact List.mem_append_left _ hr
      · exact List.mem_append_right _ (ih hrest r hr)
    · obtain rfl := Option.some.inj h
      exact fun r hr => (shown_isPrefix good size l).subset hr

theorem filterMap_filter_wellFormed (l : List Row) :
    (l.filter (wellFormed rt scope params after)).filterMap (readTask rt scope params after) =
      l.filterMap (readTask rt scope params after) := by
  have h := filterMap_take_filter (readTask rt scope params after) l.length l
  rw [List.take_of_length_le (List.length_filterMap_le _ l), List.take_of_length_le (List.length_filter_le _ l)] at h
  exact h.symm

theorem expected_ne_nil_of_gap {size : Nat}
    (h : Gap (wellFormed rt scope params after) size (matching rt scope params after tasks.rows)) :
    expected rt scope params after tasks.rows ≠ [] := by
  obtain ⟨pre, bad, post, heq, -, -, r, hr, hgood⟩ := h
  obtain ⟨t, ht⟩ := Option.isSome_iff_exists.mp hgood
  have hmem : r ∈ matching rt scope params after tasks.rows := by
    rw [heq]
    exact List.mem_append_right _ hr
  exact List.ne_nil_of_mem (List.mem_map_of_mem (List.mem_filterMap.mpr ⟨r, hmem, ht⟩))

include hscope hafter in
theorem followPages_of_unreadable (h : ¬∀ r ∈ tasks.rows, r.data.isSome = true) (fuel : Nat) :
    followPages rt tasks.rows params context (fuel + 1) "" = some (.error "malformed JSON") := by
  have hall : (tasks.rows.all fun r => r.data.isSome) = false := by
    rw [Bool.eq_false_iff]
    exact fun hall => h (List.all_eq_true.mp hall)
  have hlist : list rt tasks.rows { params with pageToken := "" } context = .error "malformed JSON" := by
    simp only [list, hscope, hafter, parsePageCursor, hall, Except.bind, if_true]
    rfl
  rw [followPages, hlist]

end Walk

section Samples

/-- The codec `plain` with the tokens of two tasks that have no timestamp. -/
def paged : Runtime :=
  { plain with
    encodePageCursor := fun _ id =>
      if id = "c" then "eyJ2ZXJzaW9uIjoxLCJzdGF0dXNUaW1lc3RhbXAiOiIiLCJ0YXNrSWQiOiJjIn0"
      else if id = "a" then "eyJ2ZXJzaW9uIjoxLCJzdGF0dXNUaW1lc3RhbXAiOiIiLCJ0YXNrSWQiOiJhIn0"
      else ""
    decodePageToken := fun token =>
      if token = "eyJ2ZXJzaW9uIjoxLCJzdGF0dXNUaW1lc3RhbXAiOiIiLCJ0YXNrSWQiOiJjIn0" then
        some (some 1, some "", some "c")
      else if token = "eyJ2ZXJzaW9uIjoxLCJzdGF0dXNUaW1lc3RhbXAiOiIiLCJ0YXNrSWQiOiJhIn0" then
        some (some 1, some "", some "a")
      else none
    textLt := fun a b => a < b }

theorem paged_order : TextOrder paged where
  irrefl := fun a => decide_eq_false (lt_irrefl a)
  trans := fun _ _ _ hab hbc => decide_eq_true (lt_trans (of_decide_eq_true hab) (of_decide_eq_true hbc))
  total := fun _ _ hne => (lt_or_gt_of_ne hne).imp decide_eq_true decide_eq_true

def goodRow (id : String) : Row := ⟨id, some (encodeTask plain (emptyTask id) (scopeOf alice)), 0, 0⟩

def malformedRow (id : String) : Row :=
  ⟨id, some (.obj (.ofList [("persistenceVersion", .num 1),
    ("scope", .obj (.ofList [("tenant", .str "agt_1"), ("owner", .str "a2a:alice")])),
    ("task", .obj (.ofList [("id", .str id)]))])), 0, 0⟩

def oneGoodBetween : Table Row := ⟨[goodRow "a", malformedRow "b", goodRow "c"], by decide⟩

def behindMalformed : Table Row := ⟨[goodRow "a", malformedRow "b", malformedRow "c"], by decide⟩

def onePerPage : ListTasksRequest := { pageSize := some 1 }

theorem matching_oneGoodBetween : matching paged (scopeOf alice) onePerPage none oneGoodBetween.rows =
      [goodRow "c", malformedRow "b", goodRow "a"] :=
  matching_eq paged_order (by decide +kernel) (by decide +kernel)

theorem matching_behindMalformed : matching paged (scopeOf alice) onePerPage none behindMalformed.rows =
      [malformedRow "c", malformedRow "b", goodRow "a"] :=
  matching_eq paged_order (by decide +kernel) (by decide +kernel)

end Samples

end A2Wave.TaskStore
