import Eef.Lib.Block
import Eef.Node.Identity

/-!
# Targets of an HTTP request

`http_request` of `engine.rs` up to the point where the request is sent. A node without full access
asks three things: that an entry of the allowlist covers the host (`host_is_allowed`), that no
address the resolver returned is non-public (`restricted_http_client`), and that the method is
listed. The client that sends the request is then pinned to the first address.

`is_non_public` goes by the parts of an address; `NonPublic` says what it is for, as address
blocks. The two agree on every address but one kind: an IPv6 address that maps an IPv4 address is
not judged like the address it maps (`isNonPublic_iff`).

Where a client connects is up to the HTTP library. `Connects` is what its documentation says: the
override of `resolve` holds, unless the environment names a proxy for the URL.
-/

namespace Eef.Node.Http

open Eef.Lib

/-! ## Addresses -/

/-- `std::net::Ipv4Addr`, by its octets. -/
structure Ipv4Addr where
  a : UInt8
  b : UInt8
  c : UInt8
  d : UInt8
  deriving DecidableEq, Repr

/-- `std::net::Ipv6Addr`, by its segments. -/
structure Ipv6Addr where
  s0 : UInt16
  s1 : UInt16
  s2 : UInt16
  s3 : UInt16
  s4 : UInt16
  s5 : UInt16
  s6 : UInt16
  s7 : UInt16
  deriving DecidableEq, Repr

/-- `std::net::IpAddr`. -/
inductive IpAddr where
  | v4 (address : Ipv4Addr)
  | v6 (address : Ipv6Addr)
  deriving DecidableEq, Repr

/-- `std::net::SocketAddr`. -/
structure SocketAddr where
  ip : IpAddr
  port : Nat
  deriving DecidableEq, Repr

namespace Ipv4Addr

/-- The address as a number of 32 bits. -/
def toNat (x : Ipv4Addr) : Nat :=
  x.a.toNat * 2 ^ 24 + x.b.toNat * 2 ^ 16 + x.c.toNat * 2 ^ 8 + x.d.toNat

def isPrivate (x : Ipv4Addr) : Bool :=
  x.a == 10 || (x.a == 172 && 16 ≤ x.b && x.b ≤ 31) || (x.a == 192 && x.b == 168)

def isLoopback (x : Ipv4Addr) : Bool := x.a == 127

def isLinkLocal (x : Ipv4Addr) : Bool := x.a == 169 && x.b == 254

def isUnspecified (x : Ipv4Addr) : Bool := x == ⟨0, 0, 0, 0⟩

def isMulticast (x : Ipv4Addr) : Bool := 224 ≤ x.a && x.a ≤ 239

def broadcast : Ipv4Addr := ⟨255, 255, 255, 255⟩

end Ipv4Addr

namespace Ipv6Addr

/-- The address as a number of 128 bits. -/
def toNat (x : Ipv6Addr) : Nat :=
  x.s0.toNat * 2 ^ 112 + x.s1.toNat * 2 ^ 96 + x.s2.toNat * 2 ^ 80 + x.s3.toNat * 2 ^ 64
    + x.s4.toNat * 2 ^ 48 + x.s5.toNat * 2 ^ 32 + x.s6.toNat * 2 ^ 16 + x.s7.toNat

def localhost : Ipv6Addr := ⟨0, 0, 0, 0, 0, 0, 0, 1⟩

def isLoopback (x : Ipv6Addr) : Bool := x == localhost

def isUnspecified (x : Ipv6Addr) : Bool := x == ⟨0, 0, 0, 0, 0, 0, 0, 0⟩

def isUniqueLocal (x : Ipv6Addr) : Bool := x.s0 &&& 0xfe00 == 0xfc00

def isUnicastLinkLocal (x : Ipv6Addr) : Bool := x.s0 &&& 0xffc0 == 0xfe80

/-- The first octet is `0xff`. -/
def isMulticast (x : Ipv6Addr) : Bool := x.s0 >>> 8 == 0xff

/-- `to_ipv4_mapped`: the IPv4 address that an address below `::ffff:0:0` maps. -/
def toIpv4Mapped (x : Ipv6Addr) : Option Ipv4Addr :=
  if x.s0 = 0 ∧ x.s1 = 0 ∧ x.s2 = 0 ∧ x.s3 = 0 ∧ x.s4 = 0 ∧ x.s5 = 0xffff then
    some ⟨(x.s6 >>> 8).toUInt8, x.s6.toUInt8, (x.s7 >>> 8).toUInt8, x.s7.toUInt8⟩
  else none

end Ipv6Addr

/-- `is_non_public`. -/
def isNonPublic : IpAddr → Bool
  | .v4 address =>
    address.isPrivate
      || address.isLoopback
      || address.isLinkLocal
      || address.isUnspecified
      || address.isMulticast
      || address == Ipv4Addr.broadcast
      || (address.a == 100 && (64 ≤ address.b && address.b ≤ 127))
      || address.a == 0
  | .v6 address =>
    address.isLoopback
      || address.isUnspecified
      || address.isUniqueLocal
      || address.isUnicastLinkLocal
      || address.isMulticast
      || address == Ipv6Addr.localhost

/-! ## The blocks of addresses that are not public -/

/-- The IPv4 blocks: this network (with the unspecified address), private, shared, loopback,
link-local, multicast and broadcast. -/
def nonPublicV4 : List (Block 32) :=
  [⟨0 * 2 ^ 24, 8, by decide, by decide⟩, ⟨10 * 2 ^ 24, 8, by decide, by decide⟩,
   ⟨100 * 2 ^ 24 + 64 * 2 ^ 16, 8 + 2, by decide, by decide⟩,
   ⟨127 * 2 ^ 24, 8, by decide, by decide⟩,
   ⟨169 * 2 ^ 24 + 254 * 2 ^ 16, 8 + 8, by decide, by decide⟩,
   ⟨172 * 2 ^ 24 + 16 * 2 ^ 16, 8 + 4, by decide, by decide⟩,
   ⟨192 * 2 ^ 24 + 168 * 2 ^ 16, 8 + 8, by decide, by decide⟩,
   ⟨224 * 2 ^ 24, 4, by decide, by decide⟩, ⟨2 ^ 32 - 1, 32, by decide, by decide⟩]

/-- The IPv6 blocks: unspecified, loopback, unique-local, link-local and multicast. -/
def nonPublicV6 : List (Block 128) :=
  [⟨0, 128, by decide, by decide⟩, ⟨1, 128, by decide, by decide⟩,
   ⟨0xfc00 * 2 ^ 112, 7, by decide, by decide⟩, ⟨0xfe80 * 2 ^ 112, 10, by decide, by decide⟩,
   ⟨0xff00 * 2 ^ 112, 8, by decide, by decide⟩]

def Ipv4Addr.NonPublic (x : Ipv4Addr) : Prop := ∃ b ∈ nonPublicV4, b.Contains x.toNat

/-- An address that nothing outside the node's own networks answers to. An IPv6 address that maps
an IPv4 address is judged like that address. -/
def NonPublic : IpAddr → Prop
  | .v4 x => x.NonPublic
  | .v6 x => (∃ b ∈ nonPublicV6, b.Contains x.toNat) ∨ ∃ y, x.toIpv4Mapped = some y ∧ y.NonPublic

/-- The address maps a non-public IPv4 address. -/
def MapsNonPublic : IpAddr → Prop
  | .v4 _ => False
  | .v6 x => ∃ y, x.toIpv4Mapped = some y ∧ isNonPublic (.v4 y) = true

/-- A block that fixes bits of the first octet only. -/
theorem contains_first {len k : Nat} (hlen : len ≤ 8) (hle : len ≤ 32)
    (haligned : 2 ^ (32 - len) ∣ k * 2 ^ 24) (x : Ipv4Addr) :
    Block.Contains ⟨k * 2 ^ 24, len, hle, haligned⟩ x.toNat ↔
      k ≤ x.a.toNat ∧ x.a.toNat < k + 2 ^ (8 - len) := by
  have hb := x.b.toNat_lt
  have hc := x.c.toNat_lt
  have hd := x.d.toNat_lt
  have hsize : 2 ^ (32 - len) = 2 ^ (8 - len) * 2 ^ 24 := by
    rw [← Nat.pow_add]
    congr 1
    omega
  rw [Block.contains_iff]
  show k * 2 ^ 24 ≤ x.toNat ∧ x.toNat < k * 2 ^ 24 + 2 ^ (32 - len) ↔ _
  rw [hsize]
  generalize 2 ^ (8 - len) = n
  unfold Ipv4Addr.toNat
  omega

/-- A block that fixes the first octet and bits of the second. -/
theorem contains_second {len k m : Nat} (hlen : len ≤ 8) (hle : 8 + len ≤ 32)
    (haligned : 2 ^ (32 - (8 + len)) ∣ k * 2 ^ 24 + m * 2 ^ 16) (hm : m + 2 ^ (8 - len) ≤ 256)
    (x : Ipv4Addr) :
    Block.Contains ⟨k * 2 ^ 24 + m * 2 ^ 16, 8 + len, hle, haligned⟩ x.toNat ↔
      x.a.toNat = k ∧ m ≤ x.b.toNat ∧ x.b.toNat < m + 2 ^ (8 - len) := by
  have hb := x.b.toNat_lt
  have hc := x.c.toNat_lt
  have hd := x.d.toNat_lt
  have hsize : 2 ^ (32 - (8 + len)) = 2 ^ (8 - len) * 2 ^ 16 := by
    rw [← Nat.pow_add]
    congr 1
    omega
  rw [Block.contains_iff]
  show k * 2 ^ 24 + m * 2 ^ 16 ≤ x.toNat
    ∧ x.toNat < k * 2 ^ 24 + m * 2 ^ 16 + 2 ^ (32 - (8 + len)) ↔ _
  rw [hsize]
  generalize 2 ^ (8 - len) = n at hm ⊢
  unfold Ipv4Addr.toNat
  omega

theorem broadcast_iff (x : Ipv4Addr) (hle : 32 ≤ 32) (haligned : 2 ^ (32 - 32) ∣ 2 ^ 32 - 1) :
    Block.Contains ⟨2 ^ 32 - 1, 32, hle, haligned⟩ x.toNat ↔ x = Ipv4Addr.broadcast := by
  obtain ⟨a, b, c, d⟩ := x
  have ha := a.toNat_lt
  have hb := b.toNat_lt
  have hc := c.toNat_lt
  have hd := d.toNat_lt
  rw [Block.contains_iff]
  simp only [Block.size, Ipv4Addr.toNat, Ipv4Addr.broadcast, Ipv4Addr.mk.injEq, ← UInt8.toNat_inj,
    UInt8.reduceToNat]
  omega

theorem nonPublic_v4 (x : Ipv4Addr) : isNonPublic (.v4 x) = true ↔ x.NonPublic := by
  have ha := x.a.toNat_lt
  have hb := x.b.toNat_lt
  -- an unspecified address has the first octet 0
  have hzero : x.isUnspecified = true → x.a.toNat = 0 := by
    intro h
    rw [beq_iff_eq.mp h]
    rfl
  unfold Ipv4Addr.NonPublic nonPublicV4
  simp only [List.mem_cons, List.not_mem_nil, or_false, exists_eq_or_imp, exists_eq_left,
    broadcast_iff]
  simp (disch := decide) only [contains_first, contains_second]
  simp only [isNonPublic, Ipv4Addr.isPrivate, Ipv4Addr.isLoopback, Ipv4Addr.isLinkLocal,
    Ipv4Addr.isMulticast, Bool.or_eq_true, Bool.and_eq_true, beq_iff_eq, decide_eq_true_eq,
    UInt8.le_iff_toNat_le, ← UInt8.toNat_inj, UInt8.reduceToNat]
  by_cases hall : x = Ipv4Addr.broadcast
  · simp only [hall, or_true, true_or]
  by_cases hunspecified : x.isUnspecified = true
  · simp only [hunspecified, hzero hunspecified, or_true, true_or, true_iff]
    exact .inl (by decide)
  simp only [hall, hunspecified, Bool.false_eq_true, or_false]
  omega

theorem mask_uniqueLocal (x : UInt16) :
    x &&& 0xfe00 = 0xfc00 ↔ 0xfc00 ≤ x.toNat ∧ x.toNat < 0xfe00 := by
  have hx := x.toNat_lt
  have hmask : x.toNat &&& 0xfe00 = x.toNat / 2 ^ 9 * 2 ^ 9 := @and_mask 16 9 _ (by decide) hx
  simp only [← UInt16.toNat_inj, UInt16.toNat_and, UInt16.reduceToNat, hmask]
  omega

theorem mask_linkLocal (x : UInt16) :
    x &&& 0xffc0 = 0xfe80 ↔ 0xfe80 ≤ x.toNat ∧ x.toNat < 0xfec0 := by
  have hx := x.toNat_lt
  have hmask : x.toNat &&& 0xffc0 = x.toNat / 2 ^ 6 * 2 ^ 6 := @and_mask 16 6 _ (by decide) hx
  simp only [← UInt16.toNat_inj, UInt16.toNat_and, UInt16.reduceToNat, hmask]
  omega

theorem first_octet (x : UInt16) : x >>> 8 = 0xff ↔ 0xff00 ≤ x.toNat := by
  have hx := x.toNat_lt
  simp only [← UInt16.toNat_inj, UInt16.toNat_shiftRight, UInt16.reduceToNat,
    Nat.shiftRight_eq_div_pow, Nat.reduceMod, Nat.reducePow]
  omega

/-- A block that fixes bits of the first segment only. -/
theorem contains_segment {len k : Nat} (hlen : len ≤ 16) (hle : len ≤ 128)
    (haligned : 2 ^ (128 - len) ∣ k * 2 ^ 112) (x : Ipv6Addr) :
    Block.Contains ⟨k * 2 ^ 112, len, hle, haligned⟩ x.toNat ↔
      k ≤ x.s0.toNat ∧ x.s0.toNat < k + 2 ^ (16 - len) := by
  have h1 := x.s1.toNat_lt
  have h2 := x.s2.toNat_lt
  have h3 := x.s3.toNat_lt
  have h4 := x.s4.toNat_lt
  have h5 := x.s5.toNat_lt
  have h6 := x.s6.toNat_lt
  have h7 := x.s7.toNat_lt
  have hsize : 2 ^ (128 - len) = 2 ^ (16 - len) * 2 ^ 112 := by
    rw [← Nat.pow_add]
    congr 1
    omega
  rw [Block.contains_iff]
  show k * 2 ^ 112 ≤ x.toNat ∧ x.toNat < k * 2 ^ 112 + 2 ^ (128 - len) ↔ _
  rw [hsize]
  generalize 2 ^ (16 - len) = n
  unfold Ipv6Addr.toNat
  omega

/-- A block of one address, given by its last segment. -/
theorem contains_one {n : Nat} (hn : n < 2 ^ 16) (hle : 128 ≤ 128)
    (haligned : 2 ^ (128 - 128) ∣ n) (x : Ipv6Addr) :
    Block.Contains ⟨n, 128, hle, haligned⟩ x.toNat ↔ x = ⟨0, 0, 0, 0, 0, 0, 0, UInt16.ofNat n⟩ := by
  obtain ⟨s0, s1, s2, s3, s4, s5, s6, s7⟩ := x
  rw [Block.contains_iff]
  simp only [Block.size, Ipv6Addr.toNat, Ipv6Addr.mk.injEq, ← UInt16.toNat_inj,
    UInt16.reduceToNat, UInt16.toNat_ofNat_of_lt' hn]
  omega

theorem nonPublic_v6 (x : Ipv6Addr) :
    isNonPublic (.v6 x) = true ↔ ∃ b ∈ nonPublicV6, b.Contains x.toNat := by
  have h0 := x.s0.toNat_lt
  unfold nonPublicV6
  simp only [List.mem_cons, List.not_mem_nil, or_false, exists_eq_or_imp, exists_eq_left]
  simp (disch := decide) only [contains_segment, contains_one]
  simp only [isNonPublic, Ipv6Addr.isLoopback, Ipv6Addr.isUnspecified, Ipv6Addr.isUniqueLocal,
    Ipv6Addr.isUnicastLinkLocal, Ipv6Addr.isMulticast, Ipv6Addr.localhost, Bool.or_eq_true,
    beq_iff_eq, mask_uniqueLocal, mask_linkLocal, first_octet]
  have hzero : UInt16.ofNat 0 = 0 := rfl
  have hone : UInt16.ofNat 1 = 1 := rfl
  rw [hzero, hone]
  by_cases hloopback : x = ⟨0, 0, 0, 0, 0, 0, 0, 1⟩
  · simp only [hloopback, or_true, true_or]
  by_cases hunspecified : x = ⟨0, 0, 0, 0, 0, 0, 0, 0⟩
  · simp only [hunspecified, or_true, true_or]
  simp only [hloopback, hunspecified, or_false, false_or]
  omega

/-- `is_non_public` knows every non-public address but those that an IPv6 address maps. -/
theorem isNonPublic_iff (ip : IpAddr) : NonPublic ip ↔ isNonPublic ip = true ∨ MapsNonPublic ip := by
  cases ip with
  | v4 x =>
    rw [nonPublic_v4]
    exact ⟨.inl, fun h => h.resolve_right id⟩
  | v6 x =>
    simp only [NonPublic, MapsNonPublic, nonPublic_v6, nonPublic_v4]

/-! ## The request -/

/-- `reqwest::Url`, as far as the node reads it. -/
structure Url where
  scheme : String
  host : Option String
  port : Option Nat
  rest : String
  deriving DecidableEq, Repr

/-- `port_or_known_default`, for the schemes that get that far. -/
def Url.portOrKnownDefault (url : Url) : Option Nat :=
  url.port <|> (if url.scheme = "http" then some 80 else if url.scheme = "https" then some 443
    else none)

/-- The parts of a `reqwest::Client` that the node chooses. A client never follows a redirect, and
uses the proxies of the environment. -/
structure Client where
  resolve : Option (String × SocketAddr)
  deriving DecidableEq, Repr

/-- The HTTP library: how it reads an URL and a method, the addresses of the proxy that the
environment names for an URL, and the addresses that a client may connect to. -/
class Reqwest where
  parseUrl : String → Result Url
  parseMethod : String → Result Unit
  proxy : Url → Option (List IpAddr)
  targets : Client → Url → List IpAddr

/-- Where a client connects, as documented. -/
structure Connects [Reqwest] : Prop where
  proxied : ∀ client url addresses, Reqwest.proxy url = some addresses →
    Reqwest.targets client url = addresses
  pinned : ∀ (client : Client) (url : Url) (host : String) (address : SocketAddr),
    Reqwest.proxy url = none → client.resolve = some (host, address) → url.host = some host →
      Reqwest.targets client url = [address.ip]

/-- `HttpPolicy`, as far as a request is admitted by it. -/
structure HttpPolicy where
  enabled : Bool
  allowedHosts : List String
  methods : List String
  allowPrivateNetworks : Bool
  deriving DecidableEq, Repr

/-- `NodePolicy`, as far as HTTP requests go. -/
structure NodePolicy where
  fullAccess : List String
  http : HttpPolicy
  deriving DecidableEq, Repr

/-- `NodePolicy::unrestricted`. -/
def NodePolicy.unrestricted (policy : NodePolicy) (feature : String) : Bool :=
  policy.fullAccess.any (· == feature)

/-- `s.trim()`. -/
def trim (s : String) : String :=
  String.ofList ((s.toList.dropWhile isWhitespace).reverse.dropWhile isWhitespace).reverse

/-- `s.to_ascii_uppercase()`. -/
def asciiUpper (s : String) : String := String.ofList (s.toList.map Char.toUpper)

/-- `a.eq_ignore_ascii_case(b)`. -/
def eqIgnoreAsciiCase (a b : String) : Bool := asciiLower a == asciiLower b

/-- `s.strip_prefix("*.")`. -/
def stripWildcard (s : String) : Option String :=
  match s.toList with
  | '*' :: '.' :: cs => some (String.ofList cs)
  | _ => none

/-- `s.ends_with(end)`. -/
def endsWith (s suffix : String) : Bool := suffix.toList.isSuffixOf s.toList

/-- `host_is_allowed`. -/
def hostIsAllowed (host : String) (allowlist : List String) : Bool :=
  allowlist.any fun entry =>
    let allowed := asciiLower (trim entry)
    let host := asciiLower host
    allowed == host || (stripWildcard allowed).any fun suffix => endsWith host ("." ++ suffix)

/-- The loop of `restricted_http_client` over what the resolver returned. -/
def selectPublic : Option SocketAddr → List SocketAddr → Result (Option SocketAddr)
  | selected, [] => .ok selected
  | selected, address :: addresses => do
    bailIf (isNonPublic address.ip) "HTTP target resolves to a private or non-routable address"
    selectPublic (selected <|> some address) addresses

/-- What the resolver answers for a host and a port. -/
abbrev Resolver := String → Nat → Result (List SocketAddr)

/-- `restricted_http_client`. -/
def restrictedHttpClient (lookupHost : Resolver) (url : Url) (allowPrivate : Bool) :
    Result Client := do
  if allowPrivate then return ⟨none⟩
  let host ← context url.host "URL has no host"
  let port ← context url.portOrKnownDefault "URL has no port"
  let addresses ← lookupHost host port
  let found ← selectPublic none addresses
  let selected ← context found "HTTP target did not resolve"
  return ⟨some (host, selected)⟩

/-- The body of a request: a text, or a value sent as JSON. -/
inductive Body where
  | text (s : String)
  | json (value : Json)
  deriving DecidableEq

/-- The request as it is handed to `send`. -/
structure Request where
  client : Client
  method : String
  url : Url
  headers : List (String × String)
  body : Option Body
  timeoutSeconds : Nat

/-- The header fields in turn. -/
def headerFields : List (String × Json) → Result (List (String × String))
  | [] => .ok []
  | (name, value) :: rest => do
    bailIf (asciiLower name = "host" ∨ asciiLower name = "content-length")
      ("the '" ++ name ++ "' header is managed by the HTTP client")
    let value ← context value.asStr "header values must be strings"
    let headers ← headerFields rest
    return (name, value) :: headers

/-- The headers of the request: none when the parameter is absent or no object. -/
def requestHeaders (params : Json) : Result (List (String × String)) :=
  match params.get? "headers" with
  | some (.obj fields) => headerFields fields
  | _ => .ok []

/-- `http_request`, up to `send`. -/
def httpRequest [Reqwest] (lookupHost : Resolver) (policy : NodePolicy) (action : String)
    (params : Json) : Result Request := do
  bailIf (action ≠ "send" ∨ policy.http.enabled = false)
    "http.request is not enabled for this action"
  let rawUrl ← context ((params.get? "url").bind Json.asStr) "http.request requires 'url'"
  let url ← Reqwest.parseUrl rawUrl
  bailIf (url.scheme ≠ "http" ∧ url.scheme ≠ "https") "only HTTP and HTTPS URLs are supported"
  let host ← context url.host "URL has no host"
  bailIf (policy.unrestricted "http.request" = false
      ∧ hostIsAllowed host policy.http.allowedHosts = false)
    ("HTTP host '" ++ host ++ "' is not in the node allowlist")
  let client ← restrictedHttpClient lookupHost url
    (policy.http.allowPrivateNetworks || policy.unrestricted "http.request")
  let method := asciiUpper (((params.get? "method").bind Json.asStr).getD "GET")
  bailIf (policy.unrestricted "http.request" = false
      ∧ (policy.http.methods.any fun allowed => eqIgnoreAsciiCase allowed method) = false)
    ("HTTP method '" ++ method ++ "' is not in the node allowlist")
  Reqwest.parseMethod method
  let headers ← requestHeaders params
  let body := (params.get? "body").map fun body =>
    match body.asStr with
    | some text => .text text
    | none => .json body
  let seconds := ((params.get? "timeout_seconds").bind (Json.asUInt 64)).getD 30
  return ⟨client, method, url, headers, body, min (max seconds 1) 120⟩

/-! ## What an admitted request is -/

/-- An allowlist entry covers a host when it is the host, or when it is `*.suffix` and the host is
a proper subdomain of the suffix. The case of ASCII letters makes no difference, and white space
around an entry is no part of it. -/
def Covers (entry host : String) : Prop :=
  asciiLower (trim entry) = asciiLower host ∨ ∃ suffix sub : String, sub ≠ "" ∧
    asciiLower (trim entry) = "*." ++ suffix ∧ asciiLower host = sub ++ "." ++ suffix

/-- What a policy with an allowlist and no private networks asks of a request. -/
structure TargetAdmitted [Reqwest] (policy : HttpPolicy) (request : Request) (host : String)
    (resolved : List SocketAddr) : Prop where
  /-- An entry of the allowlist covers the host. -/
  hostCovered : ∃ entry ∈ policy.allowedHosts, Covers entry host
  /-- The method is on its list. -/
  methodListed : ∃ allowed ∈ policy.methods, asciiLower allowed = asciiLower request.method
  /-- The client connects to returned addresses only. -/
  connects : ∀ ip ∈ Reqwest.targets request.client request.url, ip ∈ resolved.map SocketAddr.ip
  /-- No returned address is non-public. -/
  allPublic : ∀ address ∈ resolved, ¬NonPublic address.ip

theorem stripWildcard_eq {s suffix : String} : stripWildcard s = some suffix ↔ s = "*." ++ suffix := by
  unfold stripWildcard
  constructor
  · intro h
    split at h
    · rename_i cs hs
      cases h
      simp only [← String.toList_inj, hs, String.toList_append, String.toList_ofList]
      rfl
    · cases h
  · rintro rfl
    rw [String.toList_append]
    show some (String.ofList suffix.toList) = some suffix
    rw [String.ofList_toList]

theorem endsWith_iff {s suffix : String} : endsWith s suffix = true ↔ ∃ sub, s = sub ++ suffix := by
  unfold endsWith
  rw [List.isSuffixOf_iff_suffix]
  constructor
  · rintro ⟨cs, hcs⟩
    refine ⟨String.ofList cs, ?_⟩
    rw [← String.toList_inj, String.toList_append, String.toList_ofList, hcs]
  · rintro ⟨sub, rfl⟩
    exact ⟨sub.toList, String.toList_append.symm⟩

/-- The entries that do not stand for the host itself with a star before it. Such an entry covers
nothing: the host is its suffix behind an empty label. -/
def properEntries (host : String) (allowlist : List String) : List String :=
  allowlist.filter fun entry => asciiLower (trim entry) ≠ "*" ++ asciiLower host

/-- An entry that lets a host pass covers it, unless it is the host with a star before it. -/
theorem covers_iff {entry host : String} :
    Covers entry host ↔ hostIsAllowed host [entry] = true ∧
      asciiLower (trim entry) ≠ "*" ++ asciiLower host := by
  have hallowed : hostIsAllowed host [entry] = true ↔ asciiLower (trim entry) = asciiLower host ∨
      ∃ suffix, asciiLower (trim entry) = "*." ++ suffix ∧
        ∃ sub, asciiLower host = sub ++ ("." ++ suffix) := by
    unfold hostIsAllowed
    simp only [List.any_cons, List.any_nil, Bool.or_false, Bool.or_eq_true, beq_iff_eq,
      Option.any_eq_true, stripWildcard_eq, endsWith_iff]
  rw [hallowed]
  unfold Covers
  constructor
  · rintro (h | ⟨suffix, sub, hsub, hentry, hhost⟩)
    · refine ⟨.inl h, fun hstar => ?_⟩
      have hlen := congrArg String.length (h.symm.trans hstar)
      rw [String.length_append] at hlen
      have hone : "*".length = 1 := rfl
      omega
    · rw [String.append_assoc] at hhost
      refine ⟨.inr ⟨suffix, hentry, sub, hhost⟩, fun hstar => hsub ?_⟩
      -- the label before the suffix would be empty
      have hlen := congrArg String.length (hentry.symm.trans hstar)
      rw [hhost] at hlen
      simp only [String.length_append] at hlen
      have hstar : "*.".length = "*".length + ".".length := rfl
      refine String.length_eq_zero_iff.mp ?_
      omega
  · rintro ⟨h | ⟨suffix, hentry, sub, hhost⟩, hne⟩
    · exact .inl h
    · refine .inr ⟨suffix, sub, fun hsub => hne ?_, hentry, by rw [hhost, String.append_assoc]⟩
      rw [hentry, hhost, hsub, String.empty_append, ← String.append_assoc]
      rfl

/-- `host_is_allowed` is what an entry covers, as far as the entries are proper. -/
theorem hostIsAllowed_iff {host : String} {allowlist : List String} :
    hostIsAllowed host (properEntries host allowlist) = true ↔
      ∃ entry ∈ allowlist, Covers entry host := by
  have hone : ∀ l : List String,
      hostIsAllowed host l = true ↔ ∃ entry ∈ l, hostIsAllowed host [entry] = true := by
    intro l
    unfold hostIsAllowed
    simp only [List.any_eq_true, List.mem_singleton, exists_eq_left]
  rw [hone]
  unfold properEntries
  simp only [List.mem_filter, decide_eq_true_eq, covers_iff]
  constructor
  · rintro ⟨entry, ⟨hmem, hne⟩, h⟩
    exact ⟨entry, hmem, h, hne⟩
  · rintro ⟨entry, hmem, h, hne⟩
    exact ⟨entry, ⟨hmem, hne⟩, h⟩

/-- The loop keeps the first address, and fails when `is_non_public` holds of any. -/
theorem selectPublic_ok : ∀ {addresses : List SocketAddr} {selected found : Option SocketAddr},
    selectPublic selected addresses = .ok found ↔
      (∀ address ∈ addresses, isNonPublic address.ip = false) ∧
        found = (selected <|> addresses.head?)
  | [], selected, found => by
    have hnone : (selected <|> ([] : List SocketAddr).head?) = selected := by cases selected <;> rfl
    rw [hnone]
    constructor
    · rintro ⟨⟩
      exact ⟨fun _ h => absurd h List.not_mem_nil, rfl⟩
    · rintro ⟨-, rfl⟩
      rfl
  | address :: addresses, selected, found => by
    simp only [selectPublic, bind_ok, bailIf_ok, selectPublic_ok, List.mem_cons, forall_eq_or_imp,
      Bool.not_eq_true, exists_const, and_assoc, List.head?_cons]
    cases selected <;> rfl

section
variable [Reqwest]

/-- A request that is sent has passed every check, and its client is pinned to the first address
that the resolver returned. -/
theorem httpRequest_ok {lookupHost : Resolver} {policy : NodePolicy} {action : String}
    {params : Json} {request : Request} (hfull : policy.unrestricted "http.request" = false)
    (hprivate : policy.http.allowPrivateNetworks = false)
    (h : httpRequest lookupHost policy action params = .ok request) :
    ∃ host port selected addresses, request.url.host = some host
      ∧ request.url.portOrKnownDefault = some port
      ∧ lookupHost host port = .ok (selected :: addresses)
      ∧ request.client = ⟨some (host, selected)⟩
      ∧ hostIsAllowed host policy.http.allowedHosts = true
      ∧ (policy.http.methods.any fun allowed => eqIgnoreAsciiCase allowed request.method) = true
      ∧ ∀ address ∈ selected :: addresses, isNonPublic address.ip = false := by
  simp only [httpRequest, bind_ok, bailIf_ok, context_ok, pure_ok, hfull, hprivate, true_and,
    Bool.or_self, Bool.not_eq_false] at h
  obtain ⟨_, -, rawUrl, -, url, -, _, -, host, hhost, _, hallowed, client, hclient, _, hmethod,
    _, -, headers, -, rfl⟩ := h
  simp only [restrictedHttpClient, Bool.false_eq_true, if_false, bind_ok, context_ok, pure_ok,
    selectPublic_ok, hhost, Option.some.injEq] at hclient
  obtain ⟨_, rfl, port, hport, resolved, hlookup, found, ⟨hpublic, rfl⟩, selected, hselected, rfl⟩ :=
    hclient
  cases resolved with
  | nil => cases hselected
  | cons first addresses =>
    cases hselected
    exact ⟨host, port, _, addresses, hhost, hport, hlookup, rfl, hallowed, hmethod, hpublic⟩

/-- A request that is sent without full access meets the policy exactly when no returned address is
an IPv6 address that maps a non-public IPv4 address, the host passes by an entry other than its own
name behind a star, and a proxy that the environment names for the URL is itself at one of the
returned addresses. -/
theorem http_target_admitted (hconnects : Connects) {lookupHost : Resolver} {policy : NodePolicy}
    {action : String} {params : Json} {request : Request}
    (hfull : policy.unrestricted "http.request" = false)
    (hprivate : policy.http.allowPrivateNetworks = false)
    (h : httpRequest lookupHost policy action params = .ok request) :
    ∃ host port resolved, request.url.host = some host
      ∧ request.url.portOrKnownDefault = some port ∧ lookupHost host port = .ok resolved
      ∧ (TargetAdmitted policy.http request host resolved ↔
          (∀ address ∈ resolved, ¬MapsNonPublic address.ip)
            ∧ hostIsAllowed host (properEntries host policy.http.allowedHosts) = true
            ∧ ∀ addresses, Reqwest.proxy request.url = some addresses →
                ∀ ip ∈ addresses, ip ∈ resolved.map SocketAddr.ip) := by
  obtain ⟨host, port, selected, addresses, hhost, hport, hlookup, hclient, hallowed, hmethod,
    hpublic⟩ := httpRequest_ok hfull hprivate h
  refine ⟨host, port, _, hhost, hport, hlookup, fun hadmitted => ⟨fun address hmem hmaps => ?_,
    hostIsAllowed_iff.mpr hadmitted.hostCovered, fun proxy hproxy => ?_⟩, fun hcond => ?_⟩
  · exact hadmitted.allPublic address hmem ((isNonPublic_iff _).mpr (.inr hmaps))
  · rw [← hconnects.proxied request.client _ _ hproxy]
    exact hadmitted.connects
  · obtain ⟨hmaps, hcovered, hproxied⟩ := hcond
    refine ⟨hostIsAllowed_iff.mp hcovered, ?_, ?_, fun address hmem hnon => ?_⟩
    · simpa only [List.any_eq_true, eqIgnoreAsciiCase, beq_iff_eq] using hmethod
    · cases hproxy : Reqwest.proxy request.url with
      | none =>
        rw [hconnects.pinned request.client request.url host selected hproxy (by rw [hclient]) hhost]
        exact fun ip hip => List.mem_singleton.mp hip ▸ List.mem_cons_self
      | some proxy =>
        rw [hconnects.proxied request.client _ _ hproxy]
        exact hproxied proxy hproxy
    · rcases (isNonPublic_iff _).mp hnon with h | h
      · rw [hpublic address hmem] at h
        cases h
      · exact hmaps address hmem h

end

/-! ## A request to a mapped loopback address -/

/-- A library that knows the one URL of the samples, accepts every method, and has no proxy. -/
@[reducible] def sampleReqwest : Reqwest where
  parseUrl := fun s =>
    if s = "http://api.example.org/" then .ok ⟨"http", some "api.example.org", none, "/"⟩
    else .error "unknown URL"
  parseMethod := fun _ => .ok ()
  proxy := fun _ => none
  targets := fun client _ => (client.resolve.map fun (_, address) => address.ip).toList

/-- A policy for one host, without private networks. -/
def samplePolicy : NodePolicy :=
  ⟨[], true, ["api.example.org"], ["GET"], false⟩

def sampleParams : Json := .obj [("url", .str "http://api.example.org/")]

/-- `1.1.1.1`. -/
def publicAddress : SocketAddr := ⟨.v4 ⟨1, 1, 1, 1⟩, 80⟩

/-- `::ffff:127.0.0.1`. -/
def mappedLoopback : SocketAddr := ⟨.v6 ⟨0, 0, 0, 0, 0, 0xffff, 0x7f00, 1⟩, 80⟩

/-- The request of the samples, to the address that the resolver returned. -/
def sampleRequest (address : SocketAddr) : Request :=
  ⟨⟨some ("api.example.org", address)⟩, "GET", ⟨"http", some "api.example.org", none, "/"⟩, [],
    none, 30⟩

theorem sampleRequest_ok {address : SocketAddr} (h : isNonPublic address.ip = false) :
    @httpRequest sampleReqwest (fun _ _ => .ok [address]) samplePolicy "send" sampleParams
      = .ok (sampleRequest address) := by
  have hselect : selectPublic none [address] = .ok (some address) :=
    selectPublic_ok.mpr ⟨fun a ha => List.mem_singleton.mp ha ▸ h, rfl⟩
  have hclient : restrictedHttpClient (fun _ _ => .ok [address])
      ⟨"http", some "api.example.org", none, "/"⟩ false = .ok ⟨some ("api.example.org", address)⟩ := by
    simp only [restrictedHttpClient, Bool.false_eq_true, if_false, bind_ok]
    exact ⟨_, rfl, 80, rfl, _, rfl, _, hselect, _, rfl, rfl⟩
  simp only [httpRequest, bind_ok]
  exact ⟨(), rfl, _, rfl, _, rfl, (), rfl, _, rfl, (), by decide, _, hclient, (), by decide, (), rfl,
    _, rfl, rfl⟩

section

attribute [local instance] sampleReqwest

theorem sample_connects : Connects where
  proxied _ _ _ h := nomatch h
  pinned client url host address _ hresolve _ := by
    show (client.resolve.map fun (_, address) => address.ip).toList = _
    rw [hresolve]
    rfl

/-- The client connects to the node's own loopback address when the resolver returns it as a mapped
one. -/
theorem mapped_loopback_admitted :
    ∃ (lookupHost : Resolver) (policy : NodePolicy) (params : Json) (request : Request)
      (host : String) (resolved : List SocketAddr),
      policy.unrestricted "http.request" = false ∧ policy.http.allowPrivateNetworks = false
        ∧ Connects ∧ httpRequest lookupHost policy "send" params = .ok request
        ∧ request.url.host = some host ∧ lookupHost host 80 = .ok resolved
        ∧ Reqwest.targets request.client request.url = [mappedLoopback.ip]
        ∧ ¬TargetAdmitted policy.http request host resolved := by
  refine ⟨fun _ _ => .ok [mappedLoopback], samplePolicy, sampleParams,
    sampleRequest mappedLoopback, "api.example.org", [mappedLoopback], rfl, rfl, sample_connects,
    sampleRequest_ok rfl, rfl, rfl, rfl, fun h => ?_⟩
  refine h.allPublic mappedLoopback (List.mem_singleton_self _) ?_
  exact .inr ⟨⟨127, 0, 0, 1⟩, rfl, (nonPublic_v4 _).mp rfl⟩

/-- A request to a public address meets the policy. -/
theorem http_target_admitted_public :
    TargetAdmitted samplePolicy.http (sampleRequest publicAddress) "api.example.org"
      [publicAddress] := by
  obtain ⟨host, port, resolved, hhost, -, hresolved, hiff⟩ :=
    @http_target_admitted _ sample_connects (fun _ _ => .ok [publicAddress]) samplePolicy "send"
      sampleParams (sampleRequest publicAddress) rfl rfl (sampleRequest_ok rfl)
  cases hhost
  cases hresolved
  refine hiff.2 ⟨fun address hmem => ?_, by decide, nofun⟩
  obtain rfl := List.mem_singleton.mp hmem
  exact id

end

end Eef.Node.Http
