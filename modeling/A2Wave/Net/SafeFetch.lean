import Mathlib
import A2Wave.Net.UrlSafety

/-! Requests that follow redirects hop by hop. -/

namespace A2Wave.SafeFetch

open JsText UrlSafety

section Requests

structure RequestInit (β : Type) where
  method : Option Text
  headers : List (Text × Text)
  body : Option β
  redirect : Text

variable {β : Type}

/-- `new Headers(init)`: names are in small letters. -/
def mkHeaders (init : List (Text × Text)) : List (Text × Text) :=
  init.map fun header => (lower header.1, header.2)

def delete (headers : List (Text × Text)) (name : Text) : List (Text × Text) :=
  headers.filter (·.1 ≠ lower name)

def headerNames (headers : List (Text × Text)) : List Text := headers.map (·.1)

/-- The loop over the names of the headers that deletes those that `p` holds of. -/
def deleteNamed (p : Text → Bool) (headers : List (Text × Text)) : List (Text × Text) :=
  (headerNames headers).foldl (fun rest name => if p name then delete rest name else rest) headers

def REDIRECT_STATUSES : List Nat := [301, 302, 303, 307, 308]

def SAFE_CROSS_ORIGIN_REDIRECT_HEADERS : List Text :=
  ["accept".toList, "accept-language".toList, "a2a-version".toList, "cache-control".toList,
    "content-language".toList, "content-type".toList, "mcp-protocol-version".toList,
    "pragma".toList, "user-agent".toList]

def BODY_METADATA_HEADERS : List Text := ["digest".toList, "transfer-encoding".toList]

def isEntityHeader (name : Text) : Bool :=
  "content-".toList.isPrefixOf name || decide (name ∈ BODY_METADATA_HEADERS)

def isUnsafeHeader (name : Text) : Bool :=
  !decide (lower name ∈ SAFE_CROSS_ORIGIN_REDIRECT_HEADERS)

def upper (s : Text) : Text := s.map Char.toUpper

def GET : Text := "GET".toList
def HEAD : Text := "HEAD".toList

def Rewrites (request : RequestInit β) (status : Nat) : Prop :=
  (status = 301 ∨ status = 302 ∨ status = 303) ∧
    upper (request.method.getD GET) ≠ GET ∧ upper (request.method.getD GET) ≠ HEAD

instance (request : RequestInit β) (status : Nat) : Decidable (Rewrites request status) :=
  inferInstanceAs (Decidable (_ ∧ _))

def prepareRedirectRequest (request : RequestInit β) (status : Nat) (crossOrigin : Bool) : RequestInit β :=
  let next := if Rewrites request status then
      { request with method := some GET, body := none,
                     headers := deleteNamed isEntityHeader (mkHeaders request.headers) }
    else request
  if crossOrigin then
    { next with headers := deleteNamed isUnsafeHeader (mkHeaders next.headers) }
  else next

end Requests

section Loop

/-- `new URL(location, base)` and `new URL(url).origin`, which throw on what is no URL. -/
structure UrlParser where
  parse : Text → Option Url
  resolve : Text → Text → Option Text
  origin : Text → Option Text

structure Response where
  status : Nat
  location : Option Text

inductive FetchError
  | unsafe_ (e : UnsafeUrlError)
  | rejected
  deriving DecidableEq

structure Fetch (β : Type) where
  url : Text
  request : RequestInit β
  answer : Option Response

inductive Event (β : Type)
  | accepted (url : Text)
  | fetched (f : Fetch β)

variable {β : Type}

/-- What a loop runs against: its check of a hop, the servers, and whether the body of an answer
can be cancelled. -/
structure Net (β : Type) where
  check : Nat → Text → Except FetchError Unit
  fetch : Nat → Text → RequestInit β → Option Response
  release : Nat → Bool

variable (urls : UrlParser)

def nextHop (current : Text) (request : RequestInit β) (status : Nat) (location : Text) :
    Option (Text × RequestInit β) := do
  let next ← urls.resolve location current
  let here ← urls.origin current
  let there ← urls.origin next
  return (next, prepareRedirectRequest request status (decide (here ≠ there)))

def redirection (response : Response) : Option Text :=
  if response.status ∈ REDIRECT_STATUSES then response.location.filter (· ≠ []) else none

def tooMany (maxRedirects : Nat) : FetchError :=
  .unsafe_ ⟨"blocked", s!"Too many redirects (>{maxRedirects})", none⟩

variable (net : Net β) (maxRedirects : Nat)

def follow (hop : Nat) (current : Text) (request : RequestInit β) : List (Event β) × Except FetchError Response :=
  match net.check hop current with
  | .error e => ([], .error e)
  | .ok () =>
    let answer := net.fetch hop current request
    let events := [.accepted current, .fetched ⟨current, request, answer⟩]
    match answer with
    | none => (events, .error .rejected)
    | some response =>
      match redirection response with
      | none => (events, .ok response)
      | some location =>
        if net.release hop = false then (events, .error .rejected)
        else if maxRedirects ≤ hop then (events, .error (tooMany maxRedirects))
        else match nextHop urls current request response.status location with
        | none => (events, .error .rejected)
        | some (next, request) =>
          let (rest, result) := follow (hop + 1) next request
          (events ++ rest, result)
termination_by maxRedirects - hop

def manual : Text := "manual".toList

variable (ip : IpRanges)

def strictHop (url : Text) : Except FetchError Unit :=
  match assertSafeStrictUrl ip (urls.parse url) with
  | .error e => .error (.unsafe_ e)
  | .ok _ => .ok ()

structure SafeFetchOptions where
  validateHop : Option (Text → Except FetchError Unit)
  maxRedirects : Option Nat

def SafeFetchOptions.hopCheck (options : SafeFetchOptions) : Text → Except FetchError Unit :=
  options.validateHop.getD (strictHop urls ip)

def DEFAULT_MAX_REDIRECTS : Nat := 5

def safeFetch (options : SafeFetchOptions)
    (fetch : Nat → Text → RequestInit β → Option Response) (url : Text) (init : RequestInit β) :
    List (Event β) × Except FetchError Response :=
  follow urls ⟨fun _ => options.hopCheck urls ip, fetch, fun _ => true⟩
    (options.maxRedirects.getD DEFAULT_MAX_REDIRECTS) 0 url { init with redirect := manual }

structure StreamingSafeFetchOptions where
  maxRedirects : Option Nat
  trusted : UrlSafety.Host → Bool
  allowPrivateTargets : Bool
  resolveHostname : Nat → UrlSafety.Host → Option (List Addr)
  aborted : Nat → Bool

def resolveHop (options : StreamingSafeFetchOptions) (hop : Nat) (current : Text) (parsed : Url) :
    Except FetchError Unit :=
  if options.aborted hop then .error .rejected
  else match resolvePublicUrl ip (options.resolveHostname hop)
      ⟨options.trusted parsed.host, options.allowPrivateTargets⟩ (urls.parse current) with
  | .error e => .error (.unsafe_ e)
  | .ok _ => .ok ()

def checkHop (options : StreamingSafeFetchOptions) (hop : Nat) (current : Text) : Except FetchError Unit :=
  match assertSafeHttpUrl ip options.allowPrivateTargets (urls.parse current) with
  | .error e => .error (.unsafe_ e)
  | .ok parsed => resolveHop urls ip options hop current parsed

def createStreamingSafeFetch (options : StreamingSafeFetchOptions)
    (fetchImpl : Nat → Text → RequestInit β → Option Response) (cancels : Nat → Bool)
    (input : Text) (init : RequestInit β) : List (Event β) × Except FetchError Response :=
  follow urls ⟨checkHop urls ip options, fetchImpl, cancels⟩
    (options.maxRedirects.getD DEFAULT_MAX_REDIRECTS) 0 input { init with redirect := manual }

end Loop

section Headers

variable {β : Type} {p : Text → Bool} {headers : List (Text × Text)} {name : Text}

theorem toLower_toLower (c : Char) : c.toLower.toLower = c.toLower := by
  unfold Char.toLower
  split
  next h =>
    obtain ⟨hlow, hhigh⟩ := h
    rw [dif_neg]
    rintro ⟨-, hz⟩
    have hlow : 65 ≤ c.val.toNat := hlow
    have hhigh : c.val.toNat ≤ 90 := hhigh
    have hz : (c.val + 32).toNat ≤ 90 := hz
    rw [UInt32.toNat_add, show (32 : UInt32).toNat = 32 from rfl] at hz
    omega
  next => rfl

theorem lower_lower (s : Text) : lower (lower s) = lower s := by
  rw [lower, lower, List.map_map]
  exact List.map_congr_left fun c _ => toLower_toLower c

theorem lower_mkHeaders {header : Text × Text} (h : header ∈ mkHeaders headers) : lower header.1 = header.1 := by
  obtain ⟨_, -, rfl⟩ := List.mem_map.mp h
  exact lower_lower _

theorem mem_foldl_delete (names : List Text) (rest : List (Text × Text)) (header : Text × Text) :
    header ∈ names.foldl (fun rest name => if p name then delete rest name else rest) rest ↔
      header ∈ rest ∧ ∀ name ∈ names, p name = true → header.1 ≠ lower name := by
  induction names generalizing rest with
  | nil => exact ⟨fun h => ⟨h, fun _ hname => absurd hname List.not_mem_nil⟩, And.left⟩
  | cons name names ih =>
    rw [List.foldl_cons, ih, List.forall_mem_cons]
    by_cases hp : p name = true
    · rw [if_pos hp, delete, List.mem_filter, decide_eq_true_eq, and_assoc]
      exact and_congr_right fun _ => and_congr_left fun _ => ⟨fun h _ => h, fun h => h hp⟩
    · rw [if_neg hp]
      exact and_congr_right fun _ => ⟨fun h => ⟨fun h' => absurd h' hp, h⟩, And.right⟩

theorem mem_deleteNamed {header : Text × Text} : header ∈ deleteNamed p (mkHeaders headers) ↔
      header ∈ mkHeaders headers ∧ p header.1 = false := by
  rw [deleteNamed, mem_foldl_delete]
  refine and_congr_right fun hmem => ?_
  constructor
  · intro h
    by_contra hp
    rw [Bool.not_eq_false] at hp
    exact h header.1 (List.mem_map_of_mem hmem) hp (lower_mkHeaders hmem).symm
  · intro hp name hname hname' heq
    obtain ⟨other, hother, rfl⟩ := List.mem_map.mp hname
    rw [lower_mkHeaders hother] at heq
    rw [← heq, hp] at hname'
    cases hname'

end Headers

section Invariants

variable {β : Type} {request : RequestInit β} {status : Nat} {crossOrigin : Bool}

def Trusted (request : RequestInit β) : Prop :=
  ∀ header ∈ request.headers, lower header.1 ∈ SAFE_CROSS_ORIGIN_REDIRECT_HEADERS

structure Bodiless (request : RequestInit β) : Prop where
  method : request.method = some GET
  body : request.body = none
  headers : ∀ header ∈ request.headers, isEntityHeader (lower header.1) = false

theorem isUnsafeHeader_eq_false {name : Text} :
    isUnsafeHeader name = false ↔ lower name ∈ SAFE_CROSS_ORIGIN_REDIRECT_HEADERS := by
  rw [isUnsafeHeader, Bool.not_eq_false', decide_eq_true_eq]

theorem trusted_crossed : Trusted (prepareRedirectRequest request status true) := by
  intro header h
  exact isUnsafeHeader_eq_false.mp (mem_deleteNamed.mp h).2

theorem lower_of_mem {header : Text × Text} {p : Text → Bool} {headers : List (Text × Text)}
    (h : header ∈ deleteNamed p (mkHeaders headers)) :
    ∃ other ∈ headers, lower header.1 = lower other.1 := by
  obtain ⟨other, hother, rfl⟩ := List.mem_map.mp (mem_deleteNamed.mp h).1
  exact ⟨other, hother, lower_lower _⟩

theorem name_of_prepared {header : Text × Text}
    (h : header ∈ (prepareRedirectRequest request status crossOrigin).headers) :
    ∃ other ∈ request.headers, lower header.1 = lower other.1 := by
  rw [prepareRedirectRequest] at h
  split at h
  · split at h
    · obtain ⟨other, hother, hname⟩ := lower_of_mem h
      obtain ⟨first, hfirst, hname'⟩ := lower_of_mem hother
      exact ⟨first, hfirst, hname.trans hname'⟩
    · exact lower_of_mem h
  · split at h
    · exact lower_of_mem h
    · exact ⟨header, h, rfl⟩

theorem Trusted.prepare (h : Trusted request) : Trusted (prepareRedirectRequest request status crossOrigin) := by
  intro header hheader
  obtain ⟨other, hother, hname⟩ := name_of_prepared hheader
  rw [hname]
  exact h other hother

theorem not_rewrites_of_get (h : request.method = some GET) : ¬Rewrites request status := by
  rintro ⟨-, hget, -⟩
  rw [h] at hget
  exact hget (by decide)

theorem method_body_prepared (h : ¬Rewrites request status) :
    (prepareRedirectRequest request status crossOrigin).method = request.method ∧
      (prepareRedirectRequest request status crossOrigin).body = request.body := by
  rw [prepareRedirectRequest, if_neg h]
  cases crossOrigin with
  | false | true => exact ⟨rfl, rfl⟩

theorem Bodiless.prepare (h : Bodiless request) : Bodiless (prepareRedirectRequest request status crossOrigin) := by
  obtain ⟨hmethod, hbody⟩ := @method_body_prepared β request status crossOrigin
    (not_rewrites_of_get h.method)
  refine ⟨hmethod.trans h.method, hbody.trans h.body, fun header hheader => ?_⟩
  obtain ⟨other, hother, hname⟩ := name_of_prepared hheader
  rw [hname]
  exact h.headers other hother

theorem bodiless_rewritten (h : Rewrites request status) :
    Bodiless (prepareRedirectRequest request status crossOrigin) := by
  have hkept : ∀ header ∈ deleteNamed isEntityHeader (mkHeaders request.headers),
      isEntityHeader (lower header.1) = false := by
    intro header hheader
    obtain ⟨hmem, hentity⟩ := mem_deleteNamed.mp hheader
    rwa [lower_mkHeaders hmem]
  rw [prepareRedirectRequest, if_pos h]
  cases crossOrigin with
  | false => exact ⟨rfl, rfl, hkept⟩
  | true =>
    refine ⟨rfl, rfl, fun header hheader => ?_⟩
    obtain ⟨other, hother, hname⟩ := lower_of_mem hheader
    rw [hname]
    exact hkept other hother

end Invariants

section Runs

variable {β : Type}

def fetches (events : List (Event β)) : List (Fetch β) :=
  events.filterMap fun
    | .accepted _ => none
    | .fetched f => some f

def Follows (urls : UrlParser) (a b : Fetch β) : Prop :=
  ∃ response location, a.answer = some response ∧
    nextHop urls a.url a.request response.status location = some (b.url, b.request)

structure SafeRun (urls : UrlParser) (accepts : Text → Prop) (maxRedirects : Nat)
    (events : List (Event β)) : Prop where
  checked : ∀ url, .accepted url ∈ events → accepts url
  first : ∀ pre f post, events = pre ++ .fetched f :: post → .accepted f.url ∈ pre
  atMost : (fetches events).length ≤ maxRedirects + 1
  crossed : ∀ pre a b post, fetches events = pre ++ a :: b :: post →
    urls.origin a.url ≠ urls.origin b.url → ∀ f ∈ b :: post, Trusted f.request
  rewritten : ∀ pre a post response, fetches events = pre ++ a :: post →
    a.answer = some response → Rewrites a.request response.status → ∀ f ∈ post, Bodiless f.request

variable {urls : UrlParser} {a b : Fetch β}

theorem Follows.cases (h : Follows urls a b) : ∃ response, a.answer = some response ∧
    ∃ here there, urls.origin a.url = some here ∧ urls.origin b.url = some there ∧
      b.request = prepareRedirectRequest a.request response.status (decide (here ≠ there)) := by
  obtain ⟨response, location, hanswer, hnext⟩ := h
  obtain ⟨next, hresolve, hnext⟩ := Option.bind_eq_some_iff.mp hnext
  obtain ⟨here, hhere, hnext⟩ := Option.bind_eq_some_iff.mp hnext
  obtain ⟨there, hthere, hnext⟩ := Option.bind_eq_some_iff.mp hnext
  obtain ⟨hurl, hrequest⟩ := Prod.mk.inj (Option.some_inj.mp hnext)
  rw [hurl] at hthere
  exact ⟨response, hanswer, here, there, hhere, hthere, hrequest.symm⟩

theorem Follows.trusted (h : Follows urls a b) (ha : Trusted a.request) : Trusted b.request := by
  obtain ⟨response, -, here, there, -, -, hrequest⟩ := h.cases
  rw [hrequest]
  exact ha.prepare

theorem Follows.trusted_of_crossed (h : Follows urls a b)
    (hcross : urls.origin a.url ≠ urls.origin b.url) : Trusted b.request := by
  obtain ⟨response, -, here, there, hhere, hthere, hrequest⟩ := h.cases
  have hne : here ≠ there := by
    rintro rfl
    exact hcross (hhere.trans hthere.symm)
  rw [hrequest, decide_eq_true hne]
  exact trusted_crossed

theorem Follows.bodiless (h : Follows urls a b) (ha : Bodiless a.request) : Bodiless b.request := by
  obtain ⟨response, -, here, there, -, -, hrequest⟩ := h.cases
  rw [hrequest]
  exact ha.prepare

theorem Follows.bodiless_of_rewrites (h : Follows urls a b) {response : Response}
    (hanswer : a.answer = some response) (hrewrites : Rewrites a.request response.status) :
    Bodiless b.request := by
  obtain ⟨other, hother, here, there, -, -, hrequest⟩ := h.cases
  obtain rfl := Option.some_inj.mp (hanswer.symm.trans hother)
  rw [hrequest]
  exact bodiless_rewritten hrewrites

theorem trusted_of_chain {pre post : List (Fetch β)}
    (h : (pre ++ a :: b :: post).IsChain (Follows urls))
    (hcross : urls.origin a.url ≠ urls.origin b.url) : ∀ f ∈ b :: post, Trusted f.request := by
  have hfollows := List.isChain_cons_cons.mp h.right_of_append
  have hb := hfollows.1.trusted_of_crossed hcross
  intro f hf
  obtain rfl | hf := List.mem_cons.mp hf
  · exact hb
  · exact List.IsChain.cons_induction (fun f => Trusted f.request) post hfollows.2
      (fun _ _ hstep => hstep.trusted) hb f hf

theorem bodiless_of_chain {pre post : List (Fetch β)} {response : Response}
    (h : (pre ++ a :: post).IsChain (Follows urls)) (hanswer : a.answer = some response)
    (hrewrites : Rewrites a.request response.status) : ∀ f ∈ post, Bodiless f.request := by
  cases post with
  | nil => exact fun f hf => absurd hf List.not_mem_nil
  | cons b post =>
    have hfollows := List.isChain_cons_cons.mp h.right_of_append
    have hb := hfollows.1.bodiless_of_rewrites hanswer hrewrites
    intro f hf
    obtain rfl | hf := List.mem_cons.mp hf
    · exact hb
    · exact List.IsChain.cons_induction (fun f => Bodiless f.request) post hfollows.2
        (fun _ _ hstep => hstep.bodiless) hb f hf

section Follow

variable {net : Net β} {maxRedirects : Nat}

structure Hops (urls : UrlParser) (net : Net β) (maxRedirects hop : Nat) (current : Text)
    (request : RequestInit β) (events : List (Event β)) : Prop where
  head : ∀ f ∈ (fetches events).head?, f.url = current ∧ f.request = request
  chain : (fetches events).IsChain (Follows urls)
  count : (fetches events).length ≤ maxRedirects - hop + 1
  checked : ∀ url, .accepted url ∈ events → ∃ hop, net.check hop url = .ok ()
  first : ∀ pre f post, events = pre ++ .fetched f :: post → .accepted f.url ∈ pre

variable {hop : Nat} {current : Text} {request : RequestInit β}

theorem Hops.none : Hops urls net maxRedirects hop current request [] where
  head := nofun
  chain := .nil
  count := Nat.zero_le _
  checked _ h := absurd h List.not_mem_nil
  first pre f post h := by
    have hmem : Event.fetched f ∈ ([] : List (Event β)) := by rw [h]; simp
    cases hmem

theorem Hops.cons {answer : Option Response} {rest : List (Event β)} {next : Text}
    {request' : RequestInit β} (hcheck : net.check hop current = .ok ())
    (hcount : (fetches rest).length ≤ maxRedirects - hop)
    (hfollows : ∀ b ∈ (fetches rest).head?, Follows urls ⟨current, request, answer⟩ b)
    (h : Hops urls net maxRedirects (hop + 1) next request' rest) :
    Hops urls net maxRedirects hop current request
      (.accepted current :: .fetched ⟨current, request, answer⟩ :: rest) where
  head f hf := by
    obtain rfl := Option.some_inj.mp hf
    exact ⟨rfl, rfl⟩
  chain := by
    show List.IsChain _ (⟨current, request, answer⟩ :: fetches rest)
    cases hrest : fetches rest with
    | nil => exact .singleton _
    | cons b post =>
      exact List.isChain_cons_cons.mpr ⟨hfollows b (by rw [hrest]; rfl), hrest ▸ h.chain⟩
  count := Nat.succ_le_succ hcount
  checked url hurl := by
    obtain hurl | hurl := List.mem_cons.mp hurl
    · rw [Event.accepted.inj hurl]
      exact ⟨hop, hcheck⟩
    · obtain hurl | hurl := List.mem_cons.mp hurl
      · cases hurl
      · exact h.checked url hurl
  first pre f post hsplit := by
    obtain ⟨-, hnone⟩ | ⟨pre₁, rfl, hsplit₁⟩ := List.cons_eq_append_iff.mp hsplit
    · cases hnone
    obtain ⟨rfl, hfetch⟩ | ⟨pre₂, rfl, hsplit₂⟩ := List.cons_eq_append_iff.mp hsplit₁
    · obtain rfl := Event.fetched.inj (List.cons.inj hfetch).1
      exact List.mem_cons_self
    · exact List.mem_cons_of_mem _ (List.mem_cons_of_mem _ (h.first pre₂ f post hsplit₂))

theorem Hops.last {answer : Option Response} (hcheck : net.check hop current = .ok ()) :
    Hops urls net maxRedirects hop current request
      [.accepted current, .fetched ⟨current, request, answer⟩] :=
  .cons hcheck (Nat.zero_le _) nofun (@Hops.none β urls net maxRedirects (hop + 1) current request)

theorem hops_follow (hop : Nat) (current : Text) (request : RequestInit β) :
    Hops urls net maxRedirects hop current request
      (follow urls net maxRedirects hop current request).1 := by
  fun_induction follow urls net maxRedirects hop current request
  case case1 => exact .none
  case case2 hcheck answer events _ => exact .last hcheck
  case case3 hcheck answer events response _ _ => exact .last hcheck
  case case4 hcheck answer events response _ location _ _ => exact .last hcheck
  case case5 hcheck answer events response _ location _ _ _ => exact .last hcheck
  case case6 hcheck answer events response _ location _ _ _ _ => exact .last hcheck
  case case7 hop current request hcheck answer events response hanswer location hlocation _ hhop
      next request' hnext rest result hrest ih =>
    rw [hrest] at ih
    refine .cons hcheck (ih.count.trans (by omega)) (fun b hb => ?_) ih
    obtain ⟨hurl, hrequest⟩ := ih.head b hb
    exact ⟨response, location, hanswer, by rw [hurl, hrequest]; exact hnext⟩

theorem safeRun_follow (current : Text) (request : RequestInit β) :
    SafeRun urls (fun url => ∃ hop, net.check hop url = .ok ()) maxRedirects
      (follow urls net maxRedirects 0 current request).1 := by
  have h := @hops_follow β urls net maxRedirects 0 current request
  refine ⟨h.checked, h.first, h.count, ?_, ?_⟩
  · intro pre a b post hsplit hcross
    exact trusted_of_chain (hsplit ▸ h.chain) hcross
  · intro pre a post response hsplit hanswer hrewrites
    exact bodiless_of_chain (hsplit ▸ h.chain) hanswer hrewrites

end Follow

theorem SafeRun.mono {accepts accepts' : Text → Prop} {maxRedirects : Nat}
    {events : List (Event β)} (h : SafeRun urls accepts maxRedirects events)
    (haccepts : ∀ url, accepts url → accepts' url) : SafeRun urls accepts' maxRedirects events :=
  { h with checked := fun url hurl => haccepts url (h.checked url hurl) }

/-- The check of a hop accepts a URL that is safe, and whose host is resolved to addresses that
none of is blocked. -/
def AcceptsHop (urls : UrlParser) (ip : IpRanges) (options : StreamingSafeFetchOptions)
    (url : Text) : Prop :=
  ∃ hop parsed addresses, assertSafeHttpUrl ip options.allowPrivateTargets (urls.parse url) = .ok parsed ∧
    options.resolveHostname hop parsed.host = some addresses ∧ addresses ≠ [] ∧
    hasBlockedAddress ip ⟨options.trusted parsed.host, options.allowPrivateTargets⟩ addresses = false

theorem acceptsHop_of_checkHop {ip : IpRanges} {options : StreamingSafeFetchOptions} {hop : Nat}
    {url : Text} (h : checkHop urls ip options hop url = .ok ()) :
    AcceptsHop urls ip options url := by
  unfold checkHop at h
  split at h
  next => cases h
  next parsed hparsed =>
    unfold resolveHop at h
    split at h
    next => cases h
    next =>
      split at h
      next => cases h
      next resolved hresolved =>
        obtain ⟨hsafe, hanswer, hne, hfree⟩ := of_resolvePublicUrl hresolved
        obtain rfl := Except.ok.inj (hparsed.symm.trans hsafe)
        exact ⟨hop, _, _, hsafe, hanswer, hne, hfree⟩

/-- Both loops follow redirects safely. -/
theorem redirects_safe (urls : UrlParser) (ip : IpRanges) (options : SafeFetchOptions)
    (streaming : StreamingSafeFetchOptions)
    (fetch : Nat → Text → RequestInit β → Option Response) (cancels : Nat → Bool) (url : Text)
    (init : RequestInit β) :
    SafeRun urls (fun url => options.hopCheck urls ip url = .ok ())
      (options.maxRedirects.getD DEFAULT_MAX_REDIRECTS)
      (safeFetch urls ip options fetch url init).1 ∧
    SafeRun urls (AcceptsHop urls ip streaming)
      (streaming.maxRedirects.getD DEFAULT_MAX_REDIRECTS)
      (createStreamingSafeFetch urls ip streaming fetch cancels url init).1 := by
  constructor
  · exact (safeRun_follow url _).mono fun _ ⟨_, h⟩ => h
  · exact (safeRun_follow url _).mono fun _ ⟨_, h⟩ => acceptsHop_of_checkHop h

end Runs

end A2Wave.SafeFetch
