import A2Wave.Agent.Export

/-! What two exports show of rows that differ in their secrets only (`lib/agent-export.ts` and
`lib/mcp-redaction.ts`). -/

namespace A2Wave.AgentBundle

section Names

def isSeparator (c : Char) : Bool := "_-./".toList.contains c

/-- The words of a name: separators are left out, and `cut` ends a word before the rest of the name. -/
def wordsAt (cut : Char → List Char → Bool) : List Char → List (List Char)
  | [] => []
  | c :: rest =>
    if isSeparator c then wordsAt cut rest
    else if rest.head?.all isSeparator || cut c rest then [c] :: wordsAt cut rest
    else
      match wordsAt cut rest with
      | [] => [[c]]
      | w :: ws => (c :: w) :: ws

def camel (c : Char) (rest : List Char) : Bool :=
  (c.isLower || c.isDigit) && rest.head?.any Char.isUpper ||
    c.isUpper && rest.head?.any Char.isUpper && rest.tail.head?.any Char.isLower

/-- The one step within a name that `splitKeyWords` looks for. -/
def hump (c : Char) (rest : List Char) : Bool := c.isLower && rest.head?.any Char.isUpper

def isSensitiveWord (w : List Char) : Bool := SENSITIVE_WORDS.contains (String.ofList (w.map Char.toLower))

def NamesSecret (key : String) : Prop := (wordsAt camel key.toList).any isSensitiveWord = true

instance : DecidablePred NamesSecret := fun key =>
  inferInstanceAs (Decidable ((wordsAt camel key.toList).any isSensitiveWord = true))

def Ascii (s : String) : Prop := ∀ c ∈ s.toList, c.toNat < 128

/-- A sensitive word that stands between separators and steps from a small letter to a capital, or one of the
sensitive parts anywhere; beyond ASCII it is up to the code. -/
def Noticed (runtime : Runtime) (key : String) : Prop :=
  (Ascii key → (wordsAt hump key.toList).any isSensitiveWord = true ∨
      ∃ part ∈ SENSITIVE_SUBSTRINGS, part.toList <:+: key.toList.map Char.toLower) ∧
    (¬ Ascii key → isSensitiveKey runtime key = true)

variable {c d : Char} {cs : List Char} {cut : Char → List Char → Bool}

theorem wordsAt_separator (h : isSeparator c = true) : wordsAt cut (c :: cs) = wordsAt cut cs := by
  rw [wordsAt, if_pos h]

theorem splitOnP_map {α β : Type*} (f : α → β) (p : β → Bool) (xs : List α) :
    (xs.map f).splitOnP p = (xs.splitOnP (p ∘ f)).map (List.map f) := by
  induction xs with
  | nil => simp
  | cons x xs ih =>
    rw [List.map_cons, List.splitOnP_cons_eq_if_modifyHead, List.splitOnP_cons_eq_if_modifyHead, ih]
    dsimp only [Function.comp]
    split
    · simp
    · cases xs.splitOnP (p ∘ f) <;> simp

theorem filter_splitOnP (cs : List Char) :
    (cs.splitOnP isSeparator).filter (· ≠ []) = wordsAt (fun _ _ => false) cs := by
  induction cs with
  | nil => simp [wordsAt]
  | cons c cs ih =>
    rw [wordsAt, ← ih, List.splitOnP_cons_eq_if_modifyHead]
    cases hc : isSeparator c with
    | true => simp
    | false =>
      simp only [Bool.false_eq_true, if_false, Bool.or_false]
      cases cs with
      | nil => simp
      | cons d cs =>
        obtain ⟨w, ws, hsplit⟩ := List.exists_cons_of_ne_nil (List.splitOnP_ne_nil isSeparator cs)
        cases hd : isSeparator d <;> simp [List.splitOnP_cons_eq_if_modifyHead, hd, hsplit]

theorem snakeCase_cons (c : Char) (cs : List Char) :
    snakeCase (c :: cs) = if hump c cs then c :: '_' :: snakeCase cs else c :: snakeCase cs := by
  cases cs with
  | nil | cons d cs => simp [snakeCase, hump]

theorem head?_snakeCase (cs : List Char) : (snakeCase cs).head? = cs.head? := by
  cases cs with
  | nil => rfl
  | cons c cs =>
    rw [snakeCase_cons]
    split <;> rfl

theorem wordsAt_snakeCase (cs : List Char) : wordsAt (fun _ _ => false) (snakeCase cs) = wordsAt hump cs := by
  induction cs with
  | nil => rfl
  | cons c cs ih =>
    rw [snakeCase_cons]
    cases hhump : hump c cs with
    | true =>
      have hbar : isSeparator '_' = true := by decide
      rw [if_pos rfl, wordsAt, wordsAt_separator hbar, wordsAt, ih]
      simp [hbar, hhump]
    | false =>
      rw [if_neg (by simp), wordsAt, wordsAt, head?_snakeCase, ih, hhump]

theorem ascii_append_underscores {key : String} (h : Ascii key) : Ascii (String.ofList (snakeCase key.toList)) := by
  unfold Ascii at h ⊢
  rw [String.toList_ofList]
  generalize key.toList = cs at h ⊢
  induction cs with
  | nil => simp [snakeCase]
  | cons c cs ih =>
    obtain ⟨hc, hcs⟩ := List.forall_mem_cons.mp h
    rw [snakeCase_cons]
    split
    · exact List.forall_mem_cons.mpr ⟨hc, List.forall_mem_cons.mpr ⟨by decide, ih hcs⟩⟩
    · exact List.forall_mem_cons.mpr ⟨hc, ih hcs⟩

theorem not_isSeparator_of_toNat (h : 65 ≤ c.toNat) (hbar : c.toNat ≠ 95) : isSeparator c = false := by
  rw [Bool.eq_false_iff]
  intro hsep
  have hmem : c ∈ "_-./".toList := by simpa [isSeparator] using hsep
  have htoNat : c.toNat ∈ "_-./".toList.map Char.toNat := List.mem_map_of_mem hmem
  have hvalues : "_-./".toList.map Char.toNat = [95, 45, 46, 47] := by decide
  rw [hvalues] at htoNat
  simp only [List.mem_cons, List.not_mem_nil, or_false] at htoNat
  omega

theorem isSeparator_toLower (c : Char) : isSeparator c.toLower = isSeparator c := by
  unfold Char.toLower
  split
  next h =>
    have hlow : 65 ≤ c.val.toNat := h.1
    have hhigh : c.val.toNat ≤ 90 := h.2
    have hvalue : (c.val + 32).toNat = c.val.toNat + 32 := by
      rw [UInt32.toNat_add, show (32 : UInt32).toNat = 32 from rfl]
      exact Nat.mod_eq_of_lt (by omega)
    rw [@not_isSeparator_of_toNat c hlow (by change c.val.toNat ≠ 95; omega)]
    refine not_isSeparator_of_toNat ?_ ?_
    · change 65 ≤ (c.val + 32).toNat
      omega
    · change (c.val + 32).toNat ≠ 95
      omega
  next => rfl

/-- `toLowerCase` of a text without characters beyond ASCII. -/
def LowersAscii (runtime : Runtime) : Prop :=
  ∀ s, Ascii s → runtime.toLowerCase s = String.ofList (s.toList.map Char.toLower)

theorem splitKeyWords_eq {runtime : Runtime} (hlower : LowersAscii runtime) {key : String} (h : Ascii key) :
    splitKeyWords runtime key = (wordsAt hump key.toList).map fun w => String.ofList (w.map Char.toLower) := by
  have hsep : isSeparator ∘ Char.toLower = isSeparator := funext isSeparator_toLower
  have hsplit := filter_splitOnP (snakeCase key.toList)
  have hwords : splitKeyWords runtime key =
      (((runtime.toLowerCase (String.ofList (snakeCase key.toList))).toList.splitOnP isSeparator).map
        String.ofList).filter (· ≠ "") := rfl
  rw [hwords, hlower _ (ascii_append_underscores h), String.toList_ofList, String.toList_ofList, splitOnP_map, hsep,
    List.map_map, List.filter_map, ← wordsAt_snakeCase, ← hsplit]
  congr 1
  refine List.filter_congr fun w _ => ?_
  cases w <;> simp

theorem isSensitiveKey_iff {runtime : Runtime} (hlower : LowersAscii runtime) {key : String} :
    isSensitiveKey runtime key = true ↔ Noticed runtime key := by
  by_cases hascii : Ascii key
  · have hnoticed : Noticed runtime key ↔ (wordsAt hump key.toList).any isSensitiveWord = true ∨
        ∃ part ∈ SENSITIVE_SUBSTRINGS, part.toList <:+: key.toList.map Char.toLower :=
      ⟨fun h => h.1 hascii, fun h => ⟨fun _ => h, fun hnot => absurd hascii hnot⟩⟩
    rw [hnoticed, isSensitiveKey, Bool.or_eq_true, splitKeyWords_eq hlower hascii, List.any_map, hlower _ hascii]
    refine or_congr Iff.rfl ?_
    simp only [List.any_eq_true, includes, String.toList_ofList, decide_eq_true_eq]
  · exact ⟨fun h => ⟨fun hyes => absurd hyes hascii, fun _ => h⟩, fun h => h.2 hascii⟩

end Names

section Masks

inductive DifferIn (secrets : List String) : Fields → Fields → Prop
  | nil : DifferIn secrets .nil .nil
  | same {k v fs fs'} : fs.get? k = none → fs'.get? k = none → DifferIn secrets fs fs' →
      DifferIn secrets (.cons k v fs) (.cons k v fs')
  | secret {k v v' fs fs'} : k ∈ secrets → truthy (some v) = true → truthy (some v') = true → fs.get? k = none →
      fs'.get? k = none → DifferIn secrets fs fs' → DifferIn secrets (.cons k v fs) (.cons k v' fs')

variable {secrets rest : List String} {fs fs' : Fields} {k : String} {v : Json}

theorem DifferIn.eq (h : DifferIn [] fs fs') : fs = fs' := by
  generalize hnone : ([] : List String) = secrets at h
  induction h with
  | nil => rfl
  | same _ _ _ ih => rw [ih]
  | secret hk => exact absurd (hnone ▸ hk) List.not_mem_nil

theorem DifferIn.truthy_eq (h : DifferIn secrets fs fs') (k : String) : truthy (fs.get? k) = truthy (fs'.get? k) := by
  induction h with
  | nil => rfl
  | same _ _ _ ih =>
    rw [Fields.get?, Fields.get?]
    split
    · rfl
    · exact ih
  | secret _ hv hv' _ _ _ ih =>
    rw [Fields.get?, Fields.get?]
    split
    · rw [hv, hv']
    · exact ih

theorem DifferIn.narrow (h : DifferIn secrets fs fs') (hk : truthy (fs.get? k) = false)
    (hrest : ∀ s ∈ secrets, s = k ∨ s ∈ rest) : DifferIn rest fs fs' := by
  induction h with
  | nil => exact .nil
  | @same l v fs fs' hfresh hfresh' _ ih =>
    refine .same hfresh hfresh' (ih ?_)
    rw [Fields.get?] at hk
    split at hk
    · rename_i hl
      rw [← hl, hfresh]
      rfl
    · exact hk
  | @secret l v v' fs fs' hl hv hv' hfresh hfresh' _ ih =>
    rw [Fields.get?] at hk
    split at hk
    · rw [hv] at hk
      cases hk
    · rename_i hne
      exact .secret ((hrest l hl).resolve_left hne) hv hv' hfresh hfresh' (ih hk)

theorem DifferIn.set (h : DifferIn secrets fs fs') (hrest : ∀ s ∈ secrets, s = k ∨ s ∈ rest) :
    DifferIn rest (fs.set k v) (fs'.set k v) := by
  have hother : ∀ {l : String} {gs : Fields}, l ≠ k → gs.get? l = none → (gs.set k v).get? l = none := by
    intro l gs hne hgs
    rw [Fields.get?_set, if_neg (Ne.symm hne), hgs]
  have hgone : ∀ {l : String} {gs : Fields}, gs.get? l = none → truthy (gs.get? l) = false := by
    intro l gs hgs
    rw [hgs]
    rfl
  induction h with
  | nil => exact .same rfl rfl .nil
  | @same l w fs fs' hfresh hfresh' htail ih =>
    rw [Fields.set, Fields.set]
    split
    · rename_i hl
      subst hl
      exact .same hfresh hfresh' (htail.narrow (hgone hfresh) hrest)
    · rename_i hne
      exact .same (hother hne hfresh) (hother hne hfresh') ih
  | @secret l w w' fs fs' hl hw hw' hfresh hfresh' htail ih =>
    rw [Fields.set, Fields.set]
    split
    · rename_i heq
      subst heq
      exact .same hfresh hfresh' (htail.narrow (hgone hfresh) hrest)
    · rename_i hne
      exact .secret ((hrest l hl).resolve_left hne) hw hw' (hother hne hfresh) (hother hne hfresh') ih

theorem maskTruthy_differIn (h : DifferIn secrets fs fs') : maskTruthy secrets fs = maskTruthy secrets fs' := by
  have hall : ∀ (keys : List String) {secrets : List String} {fs fs' : Fields}, (∀ s ∈ secrets, s ∈ keys) →
      DifferIn secrets fs fs' → maskTruthy keys fs = maskTruthy keys fs' := by
    intro keys
    induction keys with
    | nil =>
      intro secrets fs fs' hnone h
      have hnil : secrets = [] := List.eq_nil_iff_forall_not_mem.mpr fun s hs => List.not_mem_nil (hnone s hs)
      subst hnil
      rw [h.eq]
    | cons k keys ih =>
      intro secrets fs fs' hkeys h
      have hrest : ∀ s ∈ secrets, s = k ∨ s ∈ keys := fun s hs => List.mem_cons.mp (hkeys s hs)
      rw [maskTruthy_cons, maskTruthy_cons, ← h.truthy_eq k]
      split
      · exact ih (fun _ hs => hs) (h.set hrest)
      · rename_i hfalse
        exact ih (fun _ hs => hs) (h.narrow (Bool.eq_false_iff.mpr hfalse) hrest)
  exact hall secrets (fun _ hs => hs) h

end Masks

section Rows

variable (runtime : Runtime)

inductive ItemDiffers : Json → Json → Prop
  | same (item : Json) : ItemDiffers item item
  | item {fs fs' : Fields} : DifferIn PROVIDER_SECRETS fs fs' → ItemDiffers (.obj fs) (.obj fs')

inductive ConfigDiffers : Fields → Fields → Prop
  | same (config : Fields) : ConfigDiffers config config
  | chain {config : Fields} {items items' : Elems} : config.get? "providerChain" = some (.arr items) →
      List.Forall₂ ItemDiffers items.toList items'.toList →
      ConfigDiffers config (config.set "providerChain" (.arr items'))

def Swapped (a b : String) : Prop := a = b ∨ a ≠ "" ∧ b ≠ ""

def EntryDiffers (p q : Property EnvEntry) : Prop :=
  p.key = q.key ∧ p.value.sensitive = q.value.sensitive ∧ (p.value.value = q.value.value ∨
      p.value.value ≠ "" ∧ q.value.value ≠ "" ∧ (p.value.sensitive = true ∨ NamesSecret p.key))

structure AgentsDiffer (agent agent' : AgentRow) : Prop where
  config : Option.Rel ConfigDiffers agent.config agent'.config
  env : Option.Rel (fun env env' : Record EnvEntry => List.Forall₂ EntryDiffers env.rows env'.rows) agent.env agent'.env
  feishuConfig : Option.Rel (DifferIn ["appSecret"]) agent.feishuConfig agent'.feishuConfig
  slackConfig : Option.Rel (DifferIn ["appToken", "botToken"]) agent.slackConfig agent'.slackConfig
  discordConfig : Option.Rel (DifferIn ["botToken"]) agent.discordConfig agent'.discordConfig
  telegramConfig : Option.Rel (DifferIn ["botToken"]) agent.telegramConfig agent'.telegramConfig
  qqOfficialConfig : Option.Rel (DifferIn ["appSecret"]) agent.qqOfficialConfig agent'.qqOfficialConfig
  a2aRouteTargets : Option.Rel (List.Forall₂ (DifferIn ["apiKey"])) agent.a2aRouteTargets agent'.a2aRouteTargets

structure PartsDiffer (url url' : Url) : Prop where
  origin : url.origin = url'.origin
  username : Swapped url.username url'.username
  password : Swapped url.password url'.password
  search : Swapped url.search url'.search
  hash : Swapped url.hash url'.hash
  pathname : Swapped url.pathname url'.pathname
  differ : url ≠ url'

def UrlDiffers (value value' : Option String) : Prop :=
  value = value' ∨ ∃ v v' url url', value = some v ∧ value' = some v' ∧ v ≠ "" ∧ v' ≠ "" ∧
    runtime.parseUrl v = some url ∧ runtime.parseUrl v' = some url' ∧ PartsDiffer url url'

def RecordDiffers (record record' : Record String) : Prop :=
  List.Forall₂ (fun p q => p.key = q.key ∧ Swapped p.value q.value) record.rows record'.rows

structure InlineDiffers (backend backend' : InlineBackend) : Prop where
  rest : { backend with url := none, headers := none, env := none } =
    { backend' with url := none, headers := none, env := none }
  url : UrlDiffers runtime backend.url backend'.url
  headers : Option.Rel RecordDiffers backend.headers backend'.headers
  env : Option.Rel RecordDiffers backend.env backend'.env

inductive BackendDiffers : GroupBackend → GroupBackend → Prop
  | inline {backend backend' : InlineBackend} : InlineDiffers runtime backend backend' →
      BackendDiffers (.inline backend) (.inline backend')
  | ref (mcpServerId : String) : BackendDiffers (.ref mcpServerId) (.ref mcpServerId)

def GroupDiffers (groupConfig groupConfig' : GroupConfig) : Prop :=
  List.Forall₂ (fun g g' => g.1 = g'.1 ∧ List.Forall₂ (BackendDiffers runtime) g.2 g'.2) groupConfig.backends
    groupConfig'.backends

structure McpsDiffer (mcp mcp' : McpServer) : Prop where
  rest : { mcp with url := none, headers := none, env := none, groupConfig := none } =
    { mcp' with url := none, headers := none, env := none, groupConfig := none }
  url : UrlDiffers runtime mcp.url mcp'.url
  headers : Option.Rel RecordDiffers mcp.headers mcp'.headers
  env : Option.Rel RecordDiffers mcp.env mcp'.env
  groupConfig : Option.Rel (GroupDiffers runtime) mcp.groupConfig mcp'.groupConfig

end Rows

section Notices

variable (runtime : Runtime)

def EntryNoticed (p q : Property EnvEntry) : Prop := p = q ∨ p.value.sensitive = true ∨ Noticed runtime p.key

def UrlNoticed (value value' : Option String) : Prop :=
  value = value' ∨ ∀ v, value = some v ∨ value' = some v →
    ∃ url, runtime.parseUrl v = some url ∧ url.hasSecretBearingParts = true

inductive BackendNoticed : GroupBackend → GroupBackend → Prop
  | inline {backend backend' : InlineBackend} : UrlNoticed runtime backend.url backend'.url →
      BackendNoticed (.inline backend) (.inline backend')
  | ref (mcpServerId mcpServerId' : String) : BackendNoticed (.ref mcpServerId) (.ref mcpServerId')

structure McpNoticed (mcp mcp' : McpServer) : Prop where
  url : UrlNoticed runtime mcp.url mcp'.url
  groupConfig : mcp.type = .group → Option.Rel (fun groupConfig groupConfig' : GroupConfig =>
    List.Forall₂ (fun g g' => List.Forall₂ (BackendNoticed runtime) g.2 g'.2) groupConfig.backends
      groupConfig'.backends) mcp.groupConfig mcp'.groupConfig

structure AllNoticed (agent agent' : AgentRow) (mcpRows mcpRows' : List McpServer) : Prop where
  env : Option.Rel (fun env env' : Record EnvEntry => List.Forall₂ (EntryNoticed runtime) env.rows env'.rows) agent.env
    agent'.env
  mcps : List.Forall₂ (McpNoticed runtime) mcpRows mcpRows'

end Notices

section Equal

variable {runtime : Runtime} {α β : Type*} {R S : α → α → Prop} {f : α → β} {agent agent' : AgentRow}
  {mcpRows mcpRows' : List McpServer}

theorem map_eq_map_iff {l l' : List α} (h : List.Forall₂ R l l') (hf : ∀ a b, R a b → (f a = f b ↔ S a b)) :
    l.map f = l'.map f ↔ List.Forall₂ S l l' := by
  induction h with
  | nil => simp
  | cons hab _ ih => rw [List.map_cons, List.map_cons, List.cons.injEq, List.forall₂_cons, hf _ _ hab, ih]

theorem optionMap_eq_iff {o o' : Option α} (h : Option.Rel R o o') (hf : ∀ a b, R a b → (f a = f b ↔ S a b)) :
    o.map f = o'.map f ↔ Option.Rel S o o' := by
  cases h with
  | none => exact iff_of_true rfl .none
  | some hab =>
    rw [Option.map_some, Option.map_some, Option.some.injEq, hf _ _ hab]
    exact ⟨.some, fun h => by cases h; assumption⟩

theorem optionMap_congr {o o' : Option α} (h : Option.Rel R o o') (hf : ∀ a b, R a b → f a = f b) :
    o.map f = o'.map f := by
  cases h with
  | none => rfl
  | some hab => exact congrArg some (hf _ _ hab)

theorem map_congr {l l' : List α} (h : List.Forall₂ R l l') (hf : ∀ a b, R a b → f a = f b) : l.map f = l'.map f := by
  induction h with
  | nil => rfl
  | cons hab _ ih => rw [List.map_cons, List.map_cons, hf _ _ hab, ih]

theorem mapValues_eq_iff {γ : Type} {g : String → γ → γ} {r r' : Record γ} :
    Record.mapValues g r = Record.mapValues g r' ↔ r.rows.map (fun p => { p with value := g p.key p.value }) =
        r'.rows.map fun p => { p with value := g p.key p.value } := by
  simp [Record.mapValues, Table.updateWhere]

theorem mask_record {record record' : Option (Record String)} (h : Option.Rel RecordDiffers record record') :
    record.map maskAllStringRecord = record'.map maskAllStringRecord := by
  refine optionMap_congr h fun r r' hr => mapValues_eq_iff.mpr (map_congr hr ?_)
  rintro ⟨k, v⟩ ⟨k', v'⟩ ⟨hkey, -⟩
  dsimp only at hkey ⊢
  rw [hkey]

theorem mask_entry {p q : Property EnvEntry} (hlower : LowersAscii runtime) (h : EntryDiffers p q) :
    (({ p with value := if p.value.sensitive || isSensitiveKey runtime p.key then { p.value with value := MASK }
          else p.value } : Property EnvEntry) =
        { q with value := if q.value.sensitive || isSensitiveKey runtime q.key then { q.value with value := MASK }
          else q.value }) ↔ EntryNoticed runtime p q := by
  obtain ⟨k, v, sensitive⟩ := p
  obtain ⟨k', v', sensitive'⟩ := q
  obtain ⟨hkey, hsensitive, -⟩ := h
  dsimp only at hkey hsensitive
  subst hkey hsensitive
  rw [EntryNoticed, ← isSensitiveKey_iff hlower]
  dsimp only
  cases hmask : sensitive || isSensitiveKey runtime k with
  | true =>
    rw [Bool.or_eq_true] at hmask
    exact iff_of_true rfl (.inr hmask)
  | false =>
    rw [Bool.or_eq_false_iff] at hmask
    simp [hmask.1, hmask.2]

theorem set_set (fs : Fields) (k : String) (v w : Json) : (fs.set k v).set k w = fs.set k w := by
  fun_induction Fields.set fs k v with
  | case1 | case2 u fs => simp [Fields.set]
  | case3 l u fs hne ih => simp [Fields.set, hne, ih]

theorem sanitize_config {config config' : Fields} (h : ConfigDiffers config config') :
    sanitizeProviderChainConfig config = sanitizeProviderChainConfig config' := by
  cases h with
  | same => rfl
  | @chain items items' hget hitems =>
    have hget' : (config.set "providerChain" (.arr items')).get? "providerChain" = some (.arr items') := by
      rw [Fields.get?_set, if_pos rfl]
    have hmasked : items.toList.map maskItem = items'.toList.map maskItem := by
      refine map_congr hitems fun x y hxy => ?_
      cases hxy with
      | same => rfl
      | item hfs => exact congrArg Json.obj (maskTruthy_differIn hfs)
    simp only [sanitizeProviderChainConfig, hget, hget', hmasked, set_set]

theorem sanitizeAgent_eq_iff (hlower : LowersAscii runtime) (h : AgentsDiffer agent agent') :
    sanitizeAgent runtime agent = sanitizeAgent runtime agent' ↔
      Option.Rel (fun env env' : Record EnvEntry => List.Forall₂ (EntryNoticed runtime) env.rows env'.rows) agent.env
        agent'.env := by
  have hone : ∀ (k : String) (fs fs' : Fields), DifferIn [k] fs fs' →
      fs.set k (.str MASK) = fs'.set k (.str MASK) := by
    intro k fs fs' hfs
    have hnone : DifferIn [] (fs.set k (.str MASK)) (fs'.set k (.str MASK)) :=
      hfs.set fun s hs => .inl (List.mem_singleton.mp hs)
    exact hnone.eq
  have hslack : ∀ fs fs' : Fields, DifferIn ["appToken", "botToken"] fs fs' →
      (fs.set "appToken" (.str MASK)).set "botToken" (.str MASK) =
        (fs'.set "appToken" (.str MASK)).set "botToken" (.str MASK) := by
    intro fs fs' hfs
    have hbot : DifferIn ["botToken"] (fs.set "appToken" (.str MASK)) (fs'.set "appToken" (.str MASK)) :=
      hfs.set fun s hs => List.mem_cons.mp hs
    exact hone "botToken" _ _ hbot
  have hmap : ∀ env env' : Record EnvEntry, List.Forall₂ EntryDiffers env.rows env'.rows →
      ((env.mapValues fun key entry =>
          if entry.sensitive || isSensitiveKey runtime key then { entry with value := MASK } else entry) =
        (env'.mapValues fun key entry =>
          if entry.sensitive || isSensitiveKey runtime key then { entry with value := MASK } else entry) ↔
        List.Forall₂ (EntryNoticed runtime) env.rows env'.rows) := fun env env' hrows =>
    mapValues_eq_iff.trans (map_eq_map_iff hrows fun p q hpq => mask_entry hlower hpq)
  have henv := optionMap_eq_iff h.env hmap
  rw [← henv, sanitizeAgent, sanitizeAgent, AgentRow.mk.injEq]
  constructor
  · exact fun heq => heq.2.1
  · intro heq
    refine ⟨optionMap_congr h.config fun _ _ => sanitize_config, heq, ?_, ?_, ?_, ?_, ?_, ?_⟩
    · exact optionMap_congr h.feishuConfig (hone "appSecret")
    · exact optionMap_congr h.slackConfig hslack
    · exact optionMap_congr h.discordConfig (hone "botToken")
    · exact optionMap_congr h.telegramConfig (hone "botToken")
    · exact optionMap_congr h.qqOfficialConfig (hone "appSecret")
    · exact optionMap_congr h.a2aRouteTargets fun _ _ ht => map_congr ht fun _ _ => maskTruthy_differIn

def MasksOrigin (runtime : Runtime) : Prop :=
  ∀ v url masked, runtime.parseUrl v = some url → runtime.parseUrl (url.origin ++ "/" ++ MASK) = some masked →
    masked.hasSecretBearingParts = true

theorem redact_eq_iff (hmask : MasksOrigin runtime) {value value' : Option String}
    (h : UrlDiffers runtime value value') :
    redactMcpUrl runtime value = redactMcpUrl runtime value' ↔ UrlNoticed runtime value value' := by
  obtain rfl | ⟨v, v', url, url', rfl, rfl, hv, hv', hparse, hparse', hparts⟩ := h
  · exact iff_of_true rfl (.inl rfl)
  · have hnoticed : UrlNoticed runtime (some v) (some v') ↔
        url.hasSecretBearingParts = true ∧ url'.hasSecretBearingParts = true := by
      constructor
      · rintro (heq | hall)
        · obtain rfl := Option.some.inj heq
          rw [hparse, Option.some.injEq] at hparse'
          exact absurd hparse' hparts.differ
        · obtain ⟨parsed, hparsed, hbearing⟩ := hall v (.inl rfl)
          obtain ⟨parsed', hparsed', hbearing'⟩ := hall v' (.inr rfl)
          rw [hparse, Option.some.injEq] at hparsed
          rw [hparse', Option.some.injEq] at hparsed'
          exact ⟨hparsed ▸ hbearing, hparsed' ▸ hbearing'⟩
      · rintro ⟨hbearing, hbearing'⟩
        refine .inr ?_
        rintro w (hw | hw)
        · exact ⟨url, Option.some.inj hw ▸ hparse, hbearing⟩
        · exact ⟨url', Option.some.inj hw ▸ hparse', hbearing'⟩
    rw [hnoticed]
    simp only [redactMcpUrl, Option.map_some, if_neg hv, if_neg hv', hparse, hparse', Option.some.injEq, hparts.origin]
    cases hbearing : url.hasSecretBearingParts with
    | true =>
      cases hbearing' : url'.hasSecretBearingParts with
      | true => simp
      | false =>
        simp only [Bool.false_eq_true, if_true, if_false, and_false, iff_false]
        intro heq
        have hmasked := hmask v' url' url' hparse' (heq ▸ hparse')
        rw [hbearing'] at hmasked
        cases hmasked
    | false =>
      cases hbearing' : url'.hasSecretBearingParts with
      | true =>
        simp only [Bool.false_eq_true, if_true, if_false, false_and, iff_false]
        intro heq
        have hmasked := hmask v url url hparse (by rw [hparts.origin, ← heq, hparse])
        rw [hbearing] at hmasked
        cases hmasked
      | false =>
        simp only [Bool.false_eq_true, if_false, false_and, iff_false]
        rintro rfl
        rw [hparse, Option.some.injEq] at hparse'
        exact hparts.differ hparse'

theorem redactInline_eq_iff (hmask : MasksOrigin runtime) {backend backend' : InlineBackend}
    (h : InlineDiffers runtime backend backend') :
    redactInline runtime backend = redactInline runtime backend' ↔ UrlNoticed runtime backend.url backend'.url := by
  have hrest := h.rest
  rw [InlineBackend.mk.injEq] at hrest
  obtain ⟨hname, htype, hcommand, hargs, hcwd, -, -, -⟩ := hrest
  rw [← redact_eq_iff hmask h.url, redactInline, redactInline, InlineBackend.mk.injEq]
  constructor
  · exact fun heq => heq.2.2.2.2.2.1
  · exact fun heq => ⟨hname, htype, hcommand, hargs, hcwd, heq, mask_record h.headers, mask_record h.env⟩

def redactBackends (runtime : Runtime) (list : List GroupBackend) : List GroupBackend :=
  list.filterMap fun
    | .inline backend => some (.inline (redactInline runtime backend))
    | .ref _ => none

theorem redactBackends_eq_iff (hmask : MasksOrigin runtime) {list list' : List GroupBackend}
    (h : List.Forall₂ (BackendDiffers runtime) list list') :
    redactBackends runtime list = redactBackends runtime list' ↔ List.Forall₂ (BackendNoticed runtime) list list' := by
  induction h with
  | nil => exact iff_of_true rfl .nil
  | @cons backend backend' list list' hbackend _ ih =>
    rw [List.forall₂_cons, ← ih]
    cases hbackend with
    | inline hinline =>
      have hnoticed := redactInline_eq_iff hmask hinline
      have hcons : ∀ (b : InlineBackend) (bs : List GroupBackend),
          redactBackends runtime (.inline b :: bs) = .inline (redactInline runtime b) :: redactBackends runtime bs :=
        fun _ _ => rfl
      rw [hcons, hcons, List.cons.injEq, GroupBackend.inline.injEq, hnoticed]
      refine and_congr_left fun _ => ⟨.inline, fun h => ?_⟩
      cases h
      assumption
    | ref mcpServerId => exact ⟨fun heq => ⟨.ref _ _, heq⟩, fun h => h.2⟩

theorem redactGroup_eq_iff (hmask : MasksOrigin runtime) {groupConfig groupConfig' : GroupConfig}
    (h : GroupDiffers runtime groupConfig groupConfig') :
    redactMcpGroupConfig runtime groupConfig = redactMcpGroupConfig runtime groupConfig' ↔
      List.Forall₂ (fun g g' => List.Forall₂ (BackendNoticed runtime) g.2 g'.2) groupConfig.backends
        groupConfig'.backends := by
  have hgroup : ∀ groupConfig : GroupConfig, redactMcpGroupConfig runtime groupConfig =
      ⟨groupConfig.backends.map fun g => (g.1, redactBackends runtime g.2)⟩ := fun _ => rfl
  rw [hgroup, hgroup, GroupConfig.mk.injEq]
  refine map_eq_map_iff h fun g g' hg => ?_
  rw [Prod.mk.injEq, redactBackends_eq_iff hmask hg.2]
  exact and_iff_right hg.1

theorem sanitizeMcpServer_eq_iff (hmask : MasksOrigin runtime) {mcp mcp' : McpServer}
    (h : McpsDiffer runtime mcp mcp') :
    sanitizeMcpServer runtime mcp = sanitizeMcpServer runtime mcp' ↔ McpNoticed runtime mcp mcp' := by
  have hrest := h.rest
  rw [McpServer.mk.injEq] at hrest
  obtain ⟨-, hname, hdescription, htype, hcommand, hargs, hcwd, -, -, -, -, hisEnabled, -, -⟩ := hrest
  have hgroup := optionMap_eq_iff h.groupConfig fun _ _ => redactGroup_eq_iff hmask
  have hparts : McpNoticed runtime mcp mcp' ↔ redactMcpUrl runtime mcp.url = redactMcpUrl runtime mcp'.url ∧
      (mcp.type = .group →
        mcp.groupConfig.map (redactMcpGroupConfig runtime) = mcp'.groupConfig.map (redactMcpGroupConfig runtime)) := by
    rw [redact_eq_iff hmask h.url, hgroup]
    exact ⟨fun hn => ⟨hn.url, hn.groupConfig⟩, fun hn => ⟨hn.1, hn.2⟩⟩
  rw [hparts, sanitizeMcpServer, sanitizeMcpServer, ExportedMcpServer.mk.injEq, ← htype]
  constructor
  · rintro ⟨-, -, -, -, -, -, hurl, -, -, -, hconfig⟩
    refine ⟨hurl, fun hgroup => ?_⟩
    rwa [if_pos hgroup, if_pos hgroup] at hconfig
  · rintro ⟨hurl, hconfig⟩
    refine ⟨hname, hdescription, rfl, hcommand, hargs, hcwd, hurl, mask_record h.headers, mask_record h.env,
      hisEnabled, ?_⟩
    split
    · rename_i hgroup
      exact hconfig hgroup
    · rfl

/-- Two exports of rows that differ in secrets only are equal just when every secret that they differ in is noticed:
an entry of the env by its flag or its name, and a URL by a part other than slashes. -/
theorem export_reveals_no_secret_iff (hlower : LowersAscii runtime) (hmask : MasksOrigin runtime)
    (hagent : AgentsDiffer agent agent') (hmcps : List.Forall₂ (McpsDiffer runtime) mcpRows mcpRows') :
    buildExportZip runtime agent mcpRows = buildExportZip runtime agent' mcpRows' ↔
      AllNoticed runtime agent agent' mcpRows mcpRows' := by
  rw [buildExportZip, buildExportZip, Bundle.mk.injEq, sanitizeAgent_eq_iff hlower hagent,
    map_eq_map_iff hmcps fun _ _ => sanitizeMcpServer_eq_iff hmask]
  exact ⟨fun h => ⟨h.1, h.2⟩, fun h => ⟨h.env, h.mcps⟩⟩

end Equal

section Examples

example : (wordsAt camel "APIKey".toList, wordsAt hump "APIKey".toList) =
    (["API".toList, "Key".toList], ["APIKey".toList]) := by decide

def searchRuntime : Runtime :=
  { toLowerCase := fun s => String.ofList (s.toList.map Char.toLower)
    parseUrl := fun value =>
      if "https://mcp.example/".toList.isPrefixOf value.toList then
        some { origin := "https://mcp.example", pathname := String.ofList (value.toList.drop 19) }
      else none }

theorem searchRuntime_masks : MasksOrigin searchRuntime := by
  intro v url masked hparse hmasked
  have horigin : url.origin = "https://mcp.example" := by
    dsimp only [searchRuntime] at hparse
    split at hparse
    · cases hparse
      rfl
    · cases hparse
  have hpath : searchRuntime.parseUrl ("https://mcp.example" ++ "/" ++ MASK) =
      some { origin := "https://mcp.example", pathname := "/********" } := rfl
  rw [horigin, hpath, Option.some.injEq] at hmasked
  rw [← hmasked]
  decide

def envAgent (key value : String) : AgentRow :=
  { env := some ⟨[⟨key, { value := value, sensitive := false }⟩], by simp⟩ }

def urlServer (path : String) : McpServer :=
  { id := "mcp", name := "m", type := .http, url := some ("https://mcp.example/" ++ path) }

theorem envAgent_differs {key value value' : String} (hvalue : value ≠ "") (hvalue' : value' ≠ "")
    (hkey : NamesSecret key) : AgentsDiffer (envAgent key value) (envAgent key value') :=
  ⟨.none, .some (.cons ⟨rfl, rfl, .inr ⟨hvalue, hvalue', .inr hkey⟩⟩ .nil), .none, .none, .none, .none, .none, .none⟩

theorem urlServer_differs : McpsDiffer searchRuntime (urlServer "one") (urlServer "two") :=
  ⟨rfl, .inr ⟨_, _, _, _, rfl, rfl, by decide, by decide, rfl, rfl,
    ⟨rfl, .inl rfl, .inl rfl, .inl rfl, .inl rfl, .inr ⟨by decide, by decide⟩, by simp⟩⟩, .none, .none, .none⟩

theorem export_reveals_no_secret_search : buildExportZip searchRuntime (envAgent "API_KEY" "one") [urlServer "one"] =
      buildExportZip searchRuntime (envAgent "API_KEY" "two") [urlServer "two"] := by
  refine (export_reveals_no_secret_iff (fun _ _ => rfl) searchRuntime_masks
    (envAgent_differs (by decide) (by decide) (by decide)) (.cons urlServer_differs .nil)).mpr ⟨?_, ?_⟩
  · refine .some (.cons (.inr (.inr ⟨fun _ => .inl (by decide), fun hnot => absurd ?_ hnot⟩)) .nil)
    exact List.forall_mem_iff_forall_getElem.mpr (by decide)
  · refine .cons ⟨.inr ?_, fun htype => by cases htype⟩ .nil
    rintro v (hv | hv)
    · obtain rfl := Option.some.inj hv
      exact ⟨{ origin := "https://mcp.example", pathname := "/one" }, rfl, by decide⟩
    · obtain rfl := Option.some.inj hv
      exact ⟨{ origin := "https://mcp.example", pathname := "/two" }, rfl, by decide⟩

theorem export_reveals_acronym_key : AgentsDiffer (envAgent "APIKey" "one") (envAgent "APIKey" "two") ∧
      buildExportZip searchRuntime (envAgent "APIKey" "one") [] ≠
        buildExportZip searchRuntime (envAgent "APIKey" "two") [] := by
  refine ⟨envAgent_differs (by decide) (by decide) (by decide), fun heq => ?_⟩
  have henv := congrArg (fun bundle : Bundle => (bundle.agent.env.map fun env => env.rows)) heq
  revert henv
  decide +kernel

end Examples

end A2Wave.AgentBundle
