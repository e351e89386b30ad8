import Mathlib
import A2Wave.Lib.JsText
import A2Wave.Lib.Outcome

/-! Which hosts a URL may name. -/

namespace A2Wave.UrlSafety

open JsText

section Addresses

structure V4 where
  a : UInt8
  b : UInt8
  c : UInt8
  d : UInt8
  deriving DecidableEq

structure V6 where
  p0 : UInt16
  p1 : UInt16
  p2 : UInt16
  p3 : UInt16
  p4 : UInt16
  p5 : UInt16
  p6 : UInt16
  p7 : UInt16
  deriving DecidableEq

inductive Addr
  | v4 (a : V4)
  | v6 (p : V6)
  deriving DecidableEq

inductive Range
  | unicast
  | unspecified
  | broadcast
  | multicast
  | linkLocal
  | loopback
  | carrierGradeNat
  | privateUse
  | reserved
  | uniqueLocal
  | ipv4Mapped
  | rfc6145
  | rfc6052
  | sixToFour
  | teredo
  | other
  deriving DecidableEq

def pair (hi lo : UInt8) : UInt16 := hi.toUInt16 * 256 + lo.toUInt16

inductive Embeds : V6 → V4 → Prop
  | mapped (a : V4) : Embeds ⟨0, 0, 0, 0, 0, 0xffff, pair a.a a.b, pair a.c a.d⟩ a
  | nat64 (a : V4) : Embeds ⟨0x64, 0xff9b, 0, 0, 0, 0, pair a.a a.b, pair a.c a.d⟩ a
  | translated (a : V4) : Embeds ⟨0, 0, 0, 0, 0xffff, 0, pair a.a a.b, pair a.c a.d⟩ a
  | sixToFour (a : V4) (p3 p4 p5 p6 p7 : UInt16) : Embeds ⟨0x2002, pair a.a a.b, pair a.c a.d, p3, p4, p5, p6, p7⟩ a

structure IpRanges where
  range4 : V4 → Range
  range6 : V6 → Range
  loopback4 (a : V4) (h : a.a = 127) : range4 a = .loopback
  linkLocal4 (a : V4) (h : a.a = 169 ∧ a.b = 254) : range4 a = .linkLocal
  loopback6 : range6 ⟨0, 0, 0, 0, 0, 0, 0, 1⟩ = .loopback
  linkLocal6 (p : V6) (h : p.p0 &&& 0xffc0 = 0xfe80) : range6 p = .linkLocal
  uniqueLocal6 (p : V6) (h : p.p0 &&& 0xfe00 = 0xfc00) : range6 p = .uniqueLocal
  ipv4Mapped (hi lo : UInt16) : range6 ⟨0, 0, 0, 0, 0, 0xffff, hi, lo⟩ = .ipv4Mapped
  rfc6052 (hi lo : UInt16) : range6 ⟨0x64, 0xff9b, 0, 0, 0, 0, hi, lo⟩ = .rfc6052
  rfc6145 (hi lo : UInt16) : range6 ⟨0, 0, 0, 0, 0xffff, 0, hi, lo⟩ = .rfc6145
  sixToFour (p : V6) (h : p.p0 = 0x2002) : range6 p = .sixToFour

namespace IpRanges

variable (ip : IpRanges)

def mk4 (hi lo : UInt16) : V4 :=
  ⟨(hi >>> 8 &&& 0xff).toUInt8, (hi &&& 0xff).toUInt8, (lo >>> 8 &&& 0xff).toUInt8, (lo &&& 0xff).toUInt8⟩

def embeddedIpv4 (p : V6) : Option V4 :=
  match ip.range6 p with
  | .ipv4Mapped => some (mk4 p.p6 p.p7)
  | .rfc6052 => some (mk4 p.p6 p.p7)
  | .rfc6145 => some (mk4 p.p6 p.p7)
  | .sixToFour => some (mk4 p.p1 p.p2)
  | _ => none

def CLOUD_METADATA_IPV4_ADDRESSES : List V4 := [⟨169, 254, 169, 254⟩, ⟨100, 100, 100, 200⟩]

def CLOUD_METADATA_IPV6_ADDRESSES : List V6 := [⟨0xfd00, 0xec2, 0, 0, 0, 0, 0, 0x254⟩]

def isCloudMetadata4 (a : V4) : Bool := decide (a ∈ CLOUD_METADATA_IPV4_ADDRESSES)

def isCloudMetadataAddress : Addr → Bool
  | .v4 a => isCloudMetadata4 a
  | .v6 p =>
    match ip.embeddedIpv4 p with
    | some a => isCloudMetadata4 a
    | none => decide (p ∈ CLOUD_METADATA_IPV6_ADDRESSES)

def isPublicUnicast : Addr → Bool
  | .v4 a => decide (ip.range4 a = .unicast)
  | .v6 p =>
    match ip.embeddedIpv4 p with
    | some a => decide (ip.range4 a = .unicast)
    | none => decide (ip.range6 p = .unicast)

def TRUSTED_PRIVATE_DNS_RANGES : List Range := [.privateUse, .carrierGradeNat, .uniqueLocal]

def isTrustedRange (r : Range) : Bool :=
  decide (r = .unicast) || decide (r ∈ TRUSTED_PRIVATE_DNS_RANGES)

def isAllowed4 (a : V4) : Bool := !isCloudMetadata4 a && isTrustedRange (ip.range4 a)

def isAllowedTrustedDnsAddress : Addr → Bool
  | .v4 a => ip.isAllowed4 a
  | .v6 p => !ip.isCloudMetadataAddress (.v6 p) &&
    match ip.embeddedIpv4 p with
    | some a => ip.isAllowed4 a
    | none => isTrustedRange (ip.range6 p)

end IpRanges

end Addresses

section Names

def isHostChar (c : Char) : Bool :=
  decide (0x21 ≤ c.toNat) && decide (c.toNat ≤ 0x7e) && c != '[' && c != ']'

def DomainName : Type := { n : Text // ∀ c ∈ n, isHostChar c = true }

inductive Host
  | name (n : DomainName)
  | ip (a : Addr)

def lower (s : Text) : Text := s.map Char.toLower

/-- `replace(/^\[|\]$/g, '')`. -/
def stripBrackets (s : Text) : Text :=
  let rest := if s.head? = some '[' then s.tail else s
  if rest.getLast? = some ']' then rest.dropLast else rest

def normalizeHost (hostname : Text) : Text := lower (stripBrackets (trim hostname))

/-- `replace(/\.$/, '')`. -/
def stripDot (s : Text) : Text := if s.getLast? = some '.' then s.dropLast else s

def CLOUD_METADATA_HOSTNAMES : List Text :=
  ["metadata.google.internal".toList, "metadata.goog".toList, "instance-data".toList,
    "instance-data.ec2.internal".toList]

def localhost : Text := "localhost".toList

def isCloudMetadataHostname (hostname : Text) : Bool :=
  decide (stripDot (normalizeHost hostname) ∈ CLOUD_METADATA_HOSTNAMES)

end Names

section Assert

variable (ip : IpRanges)

def isPrivateOrReserved : Host → Bool
  | .name n => decide (normalizeHost n.1 = localhost) || isCloudMetadataHostname n.1
  | .ip a => ip.isCloudMetadataAddress a || !ip.isPublicUnicast a

def isBlockedHostStrict (h : Host) : Bool := isPrivateOrReserved ip h

def isForbiddenHost : Host → Bool
  | .name n => isCloudMetadataHostname n.1 || decide (normalizeHost n.1 = localhost)
  | .ip a => !ip.isAllowedTrustedDnsAddress a

structure UnsafeUrlError where
  reason : String
  message : String
  code : Option String
  deriving DecidableEq

structure Url where
  protocol : String
  host : Host

def blockedMessage (allowPrivateAddresses : Bool) : String :=
  if allowPrivateAddresses then "URL points to a forbidden address"
  else "URL points to a private or reserved address"

/-- `parsed` is the URL as the parser reads it. -/
def assertSafeHttpUrl (allowPrivateAddresses : Bool) (parsed : Option Url) : Except UnsafeUrlError Url :=
  match parsed with
  | none => .error ⟨"invalid", "Invalid URL", none⟩
  | some url =>
    if url.protocol ≠ "https:" ∧ url.protocol ≠ "http:" then
      .error ⟨"protocol", "Only http/https allowed", none⟩
    else if (if allowPrivateAddresses then isForbiddenHost ip url.host
        else isBlockedHostStrict ip url.host) = true then
      .error ⟨"blocked", blockedMessage allowPrivateAddresses, none⟩
    else .ok url

def assertSafeStrictUrl (parsed : Option Url) : Except UnsafeUrlError Url :=
  assertSafeHttpUrl ip false parsed

def PRIVATE_DNS_ADDRESS_ERROR : String := "URL hostname resolves to a private or reserved address"

def unresolved : UnsafeUrlError :=
  ⟨"blocked", "URL hostname could not be resolved safely", some "dns_resolution_failed"⟩

def hasForbiddenAddress (addresses : List Addr) : Bool :=
  addresses.any fun a => !ip.isAllowedTrustedDnsAddress a

structure ResolvePublicUrlOptions where
  allowPrivateDnsAnswers : Bool
  allowPrivateAddresses : Bool

def hasBlockedAddress (options : ResolvePublicUrlOptions) (addresses : List Addr) : Bool :=
  hasForbiddenAddress ip addresses ||
    (!options.allowPrivateAddresses && !options.allowPrivateDnsAnswers &&
      addresses.any fun a => isPrivateOrReserved ip (.ip a))

/-- `resolveHostname` fails with none. -/
def resolvePublicUrl (resolveHostname : Host → Option (List Addr))
    (options : ResolvePublicUrlOptions) (parsed : Option Url) :
    Except UnsafeUrlError (Url × List Addr) := do
  let url ← assertSafeHttpUrl ip options.allowPrivateAddresses parsed
  match resolveHostname url.host with
  | none => .error unresolved
  | some [] => .error unresolved
  | some addresses =>
    if hasBlockedAddress ip options addresses = true then
      .error ⟨"blocked", PRIVATE_DNS_ADDRESS_ERROR, some
        (if hasForbiddenAddress ip addresses = true then "forbidden_dns_address"
          else "private_dns_address")⟩
    else .ok (url, addresses)

variable {ip}

theorem of_resolvePublicUrl {resolveHostname : Host → Option (List Addr)}
    {options : ResolvePublicUrlOptions} {parsed : Option Url} {url : Url} {addresses : List Addr}
    (h : resolvePublicUrl ip resolveHostname options parsed = .ok (url, addresses)) :
    assertSafeHttpUrl ip options.allowPrivateAddresses parsed = .ok url ∧
      resolveHostname url.host = some addresses ∧ addresses ≠ [] ∧
      hasBlockedAddress ip options addresses = false := by
  obtain ⟨safe, hsafe, h⟩ := bind_ok h
  split at h
  next => cases h
  next => cases h
  next answer hne hanswer =>
    split at h
    next => cases h
    next hblocked =>
      obtain ⟨rfl, rfl⟩ := Prod.mk.inj (Except.ok.inj h)
      rw [Bool.not_eq_true] at hblocked
      exact ⟨hsafe, hanswer, hne, hblocked⟩

end Assert

section Embedded

variable (ip : IpRanges) {p : V6} {a : V4}

theorem toNat_pair (hi lo : UInt8) : (pair hi lo).toNat = hi.toNat * 256 + lo.toNat := by
  have hhi := hi.toNat_lt
  have hlo := lo.toNat_lt
  simp only [pair, UInt16.toNat_add, UInt16.toNat_mul, UInt8.toNat_toUInt16, UInt16.toNat_ofNat]
  omega

theorem hi_pair (hi lo : UInt8) : (pair hi lo >>> 8 &&& 0xff).toUInt8 = hi := by
  apply UInt8.toNat_inj.mp
  have hhi := hi.toNat_lt
  have hlo := lo.toNat_lt
  simp only [UInt16.toNat_toUInt8, UInt16.toNat_and, UInt16.toNat_shiftRight, toNat_pair]
  rw [show UInt16.toNat 255 = 2 ^ 8 - 1 by rfl, Nat.and_two_pow_sub_one_eq_mod,
    show UInt16.toNat 8 % 16 = 8 by rfl, Nat.shiftRight_eq_div_pow]
  omega

theorem lo_pair (hi lo : UInt8) : (pair hi lo &&& 0xff).toUInt8 = lo := by
  apply UInt8.toNat_inj.mp
  have hlo := lo.toNat_lt
  simp only [UInt16.toNat_toUInt8, UInt16.toNat_and, toNat_pair]
  rw [show UInt16.toNat 255 = 2 ^ 8 - 1 by rfl, Nat.and_two_pow_sub_one_eq_mod]
  omega

theorem mk4_pair (a : V4) : IpRanges.mk4 (pair a.a a.b) (pair a.c a.d) = a := by
  rw [IpRanges.mk4, hi_pair, lo_pair, hi_pair, lo_pair]

theorem embeddedIpv4_of_embeds (h : Embeds p a) : ip.embeddedIpv4 p = some a := by
  cases h with
  | mapped => rw [IpRanges.embeddedIpv4, ip.ipv4Mapped]; exact congrArg some (mk4_pair a)
  | nat64 => rw [IpRanges.embeddedIpv4, ip.rfc6052]; exact congrArg some (mk4_pair a)
  | translated => rw [IpRanges.embeddedIpv4, ip.rfc6145]; exact congrArg some (mk4_pair a)
  | sixToFour => rw [IpRanges.embeddedIpv4, ip.sixToFour _ rfl]; exact congrArg some (mk4_pair a)

end Embedded

section Blocked

variable (ip : IpRanges)

def isBlocked (allowPrivateAddresses : Bool) (h : Host) : Bool :=
  if allowPrivateAddresses then isForbiddenHost ip h else isBlockedHostStrict ip h

variable {ip} {p : V6} {a : V4} {n m : DomainName} {h : Host} {protocol : String} {allow : Bool}

theorem assertSafe_iff (hprotocol : protocol = "https:" ∨ protocol = "http:") :
    assertSafeHttpUrl ip allow (some ⟨protocol, h⟩) = .ok ⟨protocol, h⟩ ↔ isBlocked ip allow h = false := by
  have hprotocol' : ¬(protocol ≠ "https:" ∧ protocol ≠ "http:") := by
    rintro ⟨hs, hp⟩
    exact hprotocol.elim hs hp
  rw [assertSafeHttpUrl, if_neg hprotocol', ← isBlocked]
  cases isBlocked ip allow h with
  | false => simp
  | true => simp

theorem isSpace_of_isHostChar {c : Char} (h : isHostChar c = true) : isSpace c = false := by
  simp only [isHostChar, Bool.and_eq_true, decide_eq_true_eq] at h
  obtain ⟨⟨⟨hlow, hhigh⟩, -⟩, -⟩ := h
  simp only [isSpace, Bool.or_eq_false_iff, Bool.and_eq_false_iff, decide_eq_false_iff_not]
  omega

theorem ne_bracket_of_isHostChar {c : Char} (h : isHostChar c = true) : c ≠ '[' ∧ c ≠ ']' := by
  simp only [isHostChar, Bool.and_eq_true, bne_iff_ne] at h
  exact ⟨h.1.2, h.2⟩

theorem stripBrackets_name (n : DomainName) : stripBrackets n.1 = n.1 := by
  have hopen : n.1.head? ≠ some '[' := fun hc =>
    (ne_bracket_of_isHostChar (n.2 _ (List.mem_of_mem_head? hc))).1 rfl
  have hclose : n.1.getLast? ≠ some ']' := fun hc =>
    (ne_bracket_of_isHostChar (n.2 _ (List.mem_of_getLast? hc))).2 rfl
  simp only [stripBrackets, if_neg hopen, if_neg hclose]

theorem normalizeHost_name (n : DomainName) : normalizeHost n.1 = lower n.1 := by
  have htrim : trim n.1 = n.1 := trim_eq_self
    (fun c hc => isSpace_of_isHostChar (n.2 c (List.mem_of_mem_head? hc)))
    (fun c hc => isSpace_of_isHostChar (n.2 c (List.mem_of_getLast? hc)))
  rw [normalizeHost, htrim, stripBrackets_name]

theorem isBlocked_name : isBlocked ip allow (.name n) =
    (decide (lower n.1 = localhost) || decide (stripDot (lower n.1) ∈ CLOUD_METADATA_HOSTNAMES)) := by
  cases allow with
  | true =>
    simp only [isBlocked, if_pos, isForbiddenHost, isCloudMetadataHostname, normalizeHost_name]
    exact Bool.or_comm _ _
  | false =>
    simp only [isBlocked, isBlockedHostStrict, isPrivateOrReserved, isCloudMetadataHostname,
      normalizeHost_name, Bool.false_eq_true, if_false]

theorem stripDot_localhost : stripDot localhost = localhost := by decide

theorem isBlocked_name_of_ne (h : stripDot (lower n.1) ≠ localhost) :
    isBlocked ip allow (.name n) = decide (stripDot (lower n.1) ∈ CLOUD_METADATA_HOSTNAMES) := by
  have hname : lower n.1 ≠ localhost := by
    intro heq
    rw [heq] at h
    exact h stripDot_localhost
  rw [isBlocked_name, decide_eq_false hname, Bool.false_or]

theorem isCloudMetadata_of_embeds (h : Embeds p a) :
    ip.isCloudMetadataAddress (.v6 p) = IpRanges.isCloudMetadata4 a := by
  simp only [IpRanges.isCloudMetadataAddress, embeddedIpv4_of_embeds ip h]

theorem isBlocked_of_embeds (h : Embeds p a) :
    isBlocked ip allow (.ip (.v6 p)) = isBlocked ip allow (.ip (.v4 a)) := by
  cases allow with
  | true =>
    simp only [isBlocked, if_pos, isForbiddenHost, IpRanges.isAllowedTrustedDnsAddress,
      embeddedIpv4_of_embeds ip h, isCloudMetadata_of_embeds h, IpRanges.isAllowed4]
    rw [← Bool.and_assoc, Bool.and_self]
  | false =>
    simp only [isBlocked, isBlockedHostStrict, isPrivateOrReserved, IpRanges.isPublicUnicast,
      embeddedIpv4_of_embeds ip h, IpRanges.isCloudMetadataAddress, Bool.false_eq_true, if_false]

theorem isTrusted_unicast : IpRanges.isTrustedRange .unicast = true := rfl

theorem isBlocked_stricter (hstrict : isBlocked ip false h = false) : isBlocked ip true h = false := by
  cases h with
  | name n => rwa [isBlocked_name] at hstrict ⊢
  | ip addr =>
    simp only [isBlocked, isBlockedHostStrict, isPrivateOrReserved, Bool.false_eq_true, if_false,
      Bool.or_eq_false_iff, Bool.not_eq_false'] at hstrict
    obtain ⟨hmetadata, hpublic⟩ := hstrict
    simp only [isBlocked, if_pos, isForbiddenHost, Bool.not_eq_false']
    cases addr with
    | v4 a =>
      rw [IpRanges.isPublicUnicast, decide_eq_true_eq] at hpublic
      rw [IpRanges.isAllowedTrustedDnsAddress, IpRanges.isAllowed4, hpublic, isTrusted_unicast]
      rw [IpRanges.isCloudMetadataAddress] at hmetadata
      rw [hmetadata]
      rfl
    | v6 p =>
      rw [IpRanges.isAllowedTrustedDnsAddress, hmetadata]
      rw [IpRanges.isPublicUnicast] at hpublic
      rw [IpRanges.isCloudMetadataAddress] at hmetadata
      cases hembedded : ip.embeddedIpv4 p with
      | none =>
        simp only [hembedded, decide_eq_true_eq] at hpublic ⊢
        rw [hpublic]
        rfl
      | some a =>
        simp only [hembedded, decide_eq_true_eq] at hpublic hmetadata ⊢
        rw [IpRanges.isAllowed4, hmetadata, hpublic]
        rfl

end Blocked

section Spelling

def Denied4 (a : V4) : Prop :=
  a.a = 127 ∨ (a.a = 169 ∧ a.b = 254) ∨ a ∈ IpRanges.CLOUD_METADATA_IPV4_ADDRESSES

/-- `localhost`, and what is loopback, link-local or cloud metadata, in every spelling. -/
inductive Denied : Host → Prop
  | localhost (n : DomainName) (h : stripDot (lower n.1) = localhost) : Denied (.name n)
  | metadataName (n : DomainName) (h : stripDot (lower n.1) ∈ CLOUD_METADATA_HOSTNAMES) : Denied (.name n)
  | v4 (a : V4) (h : Denied4 a) : Denied (.ip (.v4 a))
  | embedded (p : V6) (a : V4) (hp : Embeds p a) (h : Denied4 a) : Denied (.ip (.v6 p))
  | loopback : Denied (.ip (.v6 ⟨0, 0, 0, 0, 0, 0, 0, 1⟩))
  | linkLocal (p : V6) (h : p.p0 &&& 0xffc0 = 0xfe80) : Denied (.ip (.v6 p))
  | metadata (p : V6) (h : p ∈ IpRanges.CLOUD_METADATA_IPV6_ADDRESSES) : Denied (.ip (.v6 p))

inductive Respelled : Host → Host → Prop
  | name (n m : DomainName) (h : stripDot (lower n.1) = stripDot (lower m.1)) : Respelled (.name n) (.name m)
  | ip (a : Addr) : Respelled (.ip a) (.ip a)

variable (ip : IpRanges) (protocol : String)

def Accepts (allow : Bool) (h : Host) : Prop :=
  assertSafeHttpUrl ip allow (some ⟨protocol, h⟩) = .ok ⟨protocol, h⟩

structure SpellingIndependent (h : Host) : Prop where
  respelled : ∀ h', Respelled h h' → ∀ allow, Accepts ip protocol allow h' ↔ Accepts ip protocol allow h
  embedded : ∀ p a, h = .ip (.v6 p) → Embeds p a → ∀ allow,
    Accepts ip protocol allow h ↔ Accepts ip protocol allow (.ip (.v4 a))
  stricter : Accepts ip protocol false h → Accepts ip protocol true h
  denied : Denied h → ∀ allow, ¬Accepts ip protocol allow h

variable {ip protocol} {h : Host} {allow : Bool} {a : V4} {p : V6}

theorem isBlocked4_of_denied (ha : Denied4 a) : isBlocked ip allow (.ip (.v4 a)) = true := by
  have hranges : (IpRanges.isCloudMetadata4 a = true) ∨ (ip.range4 a = .loopback ∨ ip.range4 a = .linkLocal) := by
    obtain ha | ha | ha := ha
    · exact .inr (.inl (ip.loopback4 a ha))
    · exact .inr (.inr (ip.linkLocal4 a ha))
    · exact .inl (decide_eq_true ha)
  cases allow with
  | true =>
    simp only [isBlocked, if_pos, isForbiddenHost, IpRanges.isAllowedTrustedDnsAddress, IpRanges.isAllowed4]
    obtain hmetadata | hrange | hrange := hranges
    · rw [hmetadata]; rfl
    · rw [hrange, show IpRanges.isTrustedRange .loopback = false from rfl, Bool.and_false]; rfl
    · rw [hrange, show IpRanges.isTrustedRange .linkLocal = false from rfl, Bool.and_false]; rfl
  | false =>
    simp only [isBlocked, isBlockedHostStrict, isPrivateOrReserved, Bool.false_eq_true, if_false,
      IpRanges.isCloudMetadataAddress, IpRanges.isPublicUnicast]
    obtain hmetadata | hrange | hrange := hranges
    · rw [hmetadata]; rfl
    · rw [hrange, Bool.or_comm]; rfl
    · rw [hrange, Bool.or_comm]; rfl

theorem isBlocked6_of_range (hp : ip.range6 p = .loopback ∨ ip.range6 p = .linkLocal) :
    isBlocked ip allow (.ip (.v6 p)) = true := by
  have hnone : ip.embeddedIpv4 p = none := by
    obtain hp | hp := hp
    · rw [IpRanges.embeddedIpv4, hp]
    · rw [IpRanges.embeddedIpv4, hp]
  cases allow with
  | true =>
    simp only [isBlocked, if_pos, isForbiddenHost, IpRanges.isAllowedTrustedDnsAddress, hnone]
    obtain hp | hp := hp
    · rw [hp, show IpRanges.isTrustedRange .loopback = false from rfl, Bool.and_false]; rfl
    · rw [hp, show IpRanges.isTrustedRange .linkLocal = false from rfl, Bool.and_false]; rfl
  | false =>
    simp only [isBlocked, isBlockedHostStrict, isPrivateOrReserved, Bool.false_eq_true, if_false,
      IpRanges.isPublicUnicast, hnone]
    obtain hp | hp := hp
    · rw [hp, Bool.or_comm]; rfl
    · rw [hp, Bool.or_comm]; rfl

theorem isBlocked6_of_metadata (hp : p ∈ IpRanges.CLOUD_METADATA_IPV6_ADDRESSES) :
    isBlocked ip allow (.ip (.v6 p)) = true := by
  have hrange : ip.range6 p = .uniqueLocal := by
    obtain rfl := List.mem_singleton.mp hp
    exact ip.uniqueLocal6 _ rfl
  have hnone : ip.embeddedIpv4 p = none := by rw [IpRanges.embeddedIpv4, hrange]
  have hmetadata : ip.isCloudMetadataAddress (.v6 p) = true := by
    simp only [IpRanges.isCloudMetadataAddress, hnone]
    exact decide_eq_true hp
  cases allow with
  | true =>
    simp only [isBlocked, if_pos, isForbiddenHost, IpRanges.isAllowedTrustedDnsAddress, hmetadata]
    rfl
  | false =>
    simp only [isBlocked, isBlockedHostStrict, isPrivateOrReserved, Bool.false_eq_true, if_false, hmetadata]
    rfl

theorem isBlocked_of_denied (hname : ∀ n, h = .name n → stripDot (lower n.1) ≠ localhost)
    (hdenied : Denied h) : isBlocked ip allow h = true := by
  cases hdenied with
  | localhost n hn => exact absurd hn (hname n rfl)
  | metadataName n hn => rw [isBlocked_name_of_ne (hname n rfl)]; exact decide_eq_true hn
  | v4 a ha => exact isBlocked4_of_denied ha
  | embedded p a hp ha => rw [isBlocked_of_embeds hp]; exact isBlocked4_of_denied ha
  | loopback => exact isBlocked6_of_range (.inl ip.loopback6)
  | linkLocal p hp => exact isBlocked6_of_range (.inr (ip.linkLocal6 p hp))
  | metadata p hp => exact isBlocked6_of_metadata hp

theorem isBlocked_respelled (hname : ∀ n, h = .name n → stripDot (lower n.1) ≠ localhost)
    {h' : Host} (hr : Respelled h h') : isBlocked ip allow h' = isBlocked ip allow h := by
  cases hr with
  | name n m heq =>
    have hn := hname n rfl
    have hm : stripDot (lower m.1) ≠ localhost := heq ▸ hn
    rw [isBlocked_name_of_ne hn, isBlocked_name_of_ne hm, heq]
  | ip a => rfl

def dotted : DomainName := ⟨"localhost.".toList, List.all_eq_true.mp (by decide)⟩

def undotted : DomainName := ⟨localhost, List.all_eq_true.mp (by decide)⟩

theorem isBlocked_dotted : isBlocked ip allow (.name dotted) = false := by
  rw [isBlocked_name]
  decide

theorem isBlocked_undotted : isBlocked ip allow (.name undotted) = true := by
  rw [isBlocked_name]
  decide

/-- The host name with a dot behind it is not compared with `localhost`. -/
theorem spellingIndependent_iff (hprotocol : protocol = "https:" ∨ protocol = "http:") :
    SpellingIndependent ip protocol h ↔ ∀ n, h = .name n → stripDot (lower n.1) ≠ localhost := by
  constructor
  · rintro hsame n rfl hn
    have hdotted := hsame.respelled (.name dotted) (.name _ _ (hn.trans (by decide))) true
    have hundotted := hsame.respelled (.name undotted) (.name _ _ (hn.trans (by decide))) true
    have haccepts := hundotted.mpr (hdotted.mp ((assertSafe_iff hprotocol).mpr isBlocked_dotted))
    have hblocked := (assertSafe_iff hprotocol).mp haccepts
    rw [isBlocked_undotted] at hblocked
    cases hblocked
  · intro hname
    constructor
    case respelled =>
      intro h' hr allow
      rw [Accepts, Accepts, assertSafe_iff hprotocol, assertSafe_iff hprotocol, isBlocked_respelled hname hr]
    case embedded =>
      rintro p a rfl hp allow
      rw [Accepts, Accepts, assertSafe_iff hprotocol, assertSafe_iff hprotocol, isBlocked_of_embeds hp]
    case stricter =>
      rw [Accepts, Accepts, assertSafe_iff hprotocol, assertSafe_iff hprotocol]
      exact isBlocked_stricter
    case denied =>
      intro hdenied allow
      rw [Accepts, assertSafe_iff hprotocol, isBlocked_of_denied hname hdenied]
      exact Bool.noConfusion

def prefixRange (p0 p1 p4 p5 : UInt16) : Range :=
  if p0 &&& 0xffc0 = 0xfe80 then .linkLocal
  else if p0 &&& 0xfe00 = 0xfc00 then .uniqueLocal
  else if p0 = 0x2002 then .sixToFour
  else if p0 = 0 ∧ p1 = 0 ∧ p4 = 0 ∧ p5 = 0xffff then .ipv4Mapped
  else if p0 = 0x64 ∧ p1 = 0xff9b ∧ p4 = 0 ∧ p5 = 0 then .rfc6052
  else if p0 = 0 ∧ p1 = 0 ∧ p4 = 0xffff ∧ p5 = 0 then .rfc6145
  else .unicast

theorem prefixRange_linkLocal {p0 : UInt16} (p1 p4 p5 : UInt16) (h : p0 &&& 0xffc0 = 0xfe80) :
    prefixRange p0 p1 p4 p5 = .linkLocal := if_pos h

theorem prefixRange_uniqueLocal {p0 : UInt16} (p1 p4 p5 : UInt16) (h : p0 &&& 0xfe00 = 0xfc00) :
    prefixRange p0 p1 p4 p5 = .uniqueLocal := by
  have hne : ¬p0 &&& 0xffc0 = 0xfe80 := by
    intro hlink
    have hboth : (p0 &&& 0xffc0) &&& 0xfe00 = 0xfe80 &&& 0xfe00 := by rw [hlink]
    rw [UInt16.and_assoc, show (0xffc0 : UInt16) &&& 0xfe00 = 0xfe00 from rfl, h] at hboth
    exact absurd hboth (by decide)
  rw [prefixRange, if_neg hne, if_pos h]

theorem prefixRange_sixToFour {p0 : UInt16} (p1 p4 p5 : UInt16) (h : p0 = 0x2002) :
    prefixRange p0 p1 p4 p5 = .sixToFour := by
  have hlink : ¬p0 &&& 0xffc0 = 0xfe80 := by rw [h]; decide
  have hlocal : ¬p0 &&& 0xfe00 = 0xfc00 := by rw [h]; decide
  rw [prefixRange, if_neg hlink, if_neg hlocal, if_pos h]

def plainRanges : IpRanges where
  range4 a :=
    if a.a = 127 then .loopback
    else if a.a = 169 ∧ a.b = 254 then .linkLocal
    else if a.a = 10 then .privateUse
    else .unicast
  range6 p :=
    if p = ⟨0, 0, 0, 0, 0, 0, 0, 1⟩ then .loopback else prefixRange p.p0 p.p1 p.p4 p.p5
  loopback4 a h := if_pos h
  linkLocal4 a h := by
    have hne : a.a ≠ 127 := by rw [h.1]; decide
    rw [if_neg hne, if_pos h]
  loopback6 := rfl
  linkLocal6 p h := by
    have hne : p ≠ ⟨0, 0, 0, 0, 0, 0, 0, 1⟩ := by rintro rfl; exact absurd h (by decide)
    rw [if_neg hne, prefixRange_linkLocal _ _ _ h]
  uniqueLocal6 p h := by
    have hne : p ≠ ⟨0, 0, 0, 0, 0, 0, 0, 1⟩ := by rintro rfl; exact absurd h (by decide)
    rw [if_neg hne, prefixRange_uniqueLocal _ _ _ h]
  ipv4Mapped hi lo := by
    have hne : V6.mk 0 0 0 0 0 0xffff hi lo ≠ ⟨0, 0, 0, 0, 0, 0, 0, 1⟩ := by simp
    rw [if_neg hne]
    show prefixRange 0 0 0 0xffff = .ipv4Mapped
    decide
  rfc6052 hi lo := by
    have hne : V6.mk 0x64 0xff9b 0 0 0 0 hi lo ≠ ⟨0, 0, 0, 0, 0, 0, 0, 1⟩ := by simp
    rw [if_neg hne]
    show prefixRange 0x64 0xff9b 0 0 = .rfc6052
    decide
  rfc6145 hi lo := by
    have hne : V6.mk 0 0 0 0 0xffff 0 hi lo ≠ ⟨0, 0, 0, 0, 0, 0, 0, 1⟩ := by simp
    rw [if_neg hne]
    show prefixRange 0 0 0xffff 0 = .rfc6145
    decide
  sixToFour p h := by
    have hne : p ≠ ⟨0, 0, 0, 0, 0, 0, 0, 1⟩ := by rintro rfl; exact absurd h (by decide)
    rw [if_neg hne, prefixRange_sixToFour _ _ _ h]

def exampleName : DomainName := ⟨"example.com".toList, List.all_eq_true.mp (by decide)⟩

theorem spellingIndependent_exampleName : SpellingIndependent plainRanges "https:" (.name exampleName) := by
  refine (spellingIndependent_iff (.inl rfl)).mpr fun n hn => ?_
  obtain rfl := Host.name.inj hn
  decide

theorem accepts_localhost_dot : Accepts plainRanges "https:" false (.name dotted) ∧
      Accepts plainRanges "https:" true (.name dotted) ∧
      ¬Accepts plainRanges "https:" false (.name undotted) ∧
      ¬SpellingIndependent plainRanges "https:" (.name dotted) := by
  have haccepts : ∀ allow, Accepts plainRanges "https:" allow (.name dotted) :=
    fun _ => (assertSafe_iff (.inl rfl)).mpr isBlocked_dotted
  refine ⟨haccepts false, haccepts true, fun h => ?_, fun h => ?_⟩
  · have hblocked := (assertSafe_iff (.inl rfl)).mp h
    rw [isBlocked_undotted] at hblocked
    cases hblocked
  · exact h.denied (.localhost dotted (by decide)) true (haccepts true)

end Spelling

end A2Wave.UrlSafety
