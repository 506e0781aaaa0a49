import Eef.Node.Authentication
import Eef.Node.Network

/-!
# The handshake of a node

`handle_connection` (`server.rs`) up to the admission of a session. A connection either starts
with a public selector, which chooses one identity's own secret and the coordinator's TLS
identity, or it is opened under the network key. The policy is consulted twice: for the secret
of the selected name, and for the name the decrypted message claims. `Admitted` is what holds of
every session that comes out.

`NodeCrypto` stands for the cipher and the JSON reader; an `Arrival` is what one read of the
socket yields within its time.
-/

namespace Eef.Node.Handshake

open Eef.Lib
open Eef.Node.Authentication

/-- `NodeCrypto::new`, `decode_line`, `NodeCrypto::verify`, and the reading of a JSON text. -/
class NodeCrypto (Key : Type) where
  new : String → Result Key
  decodeLine : Key → List UInt8 → Result Json
  verify : Key → String → String → Bool
  parse : List UInt8 → Option Json

/-- One read: a line, the end of the stream, or an error or a timeout. -/
inductive Arrival where
  | line (bytes : List UInt8)
  | closed
  | failed (error : String)
  deriving DecidableEq, Repr

/-- `read_wire_line`. -/
def readWireLine (limit : Nat) : Arrival → Result (Option (List UInt8))
  | .line bytes =>
    if limit < bytes.length then .error "wire message exceeds the line limit" else .ok (some bytes)
  | .closed => .ok none
  | .failed error => .error error

/-- `MAX_WIRE_LINE`. -/
def maxWireLine : Nat := 8 * 1024 * 1024

variable {Key : Type} [NodeCrypto Key]

/-- `read_message`. -/
def readMessage (crypto : Key) (a : Arrival) : Result (Option Json) := do
  let line ← readWireLine maxWireLine a
  match line with
  | none => .ok none
  | some line => do
    let message ← NodeCrypto.decodeLine crypto line
    return some message

/-- What a connection brings. -/
structure Incoming where
  first : Arrival
  /-- The TLS accept, after the selector. -/
  tls : Result Unit
  /-- The authentication message that follows it. -/
  auth : Arrival
  /-- The reply to a probe, and the message after it. -/
  pong : Result Unit
  afterProbe : Arrival
  /-- The reply that admits the node, or refuses an identity that is connected already. -/
  accepted : Result Unit
  denied : Result Unit

/-- The receipts: an identity with a nonce, and the instant it was accepted. -/
abbrev Receipts := List ((String × String) × Nat)

omit [NodeCrypto Key] in
variable (Key) in
/-- `NodeServer`, as far as a handshake reads it. -/
structure Server where
  authentication : AuthenticationPolicy
  tlsConfig : Bool
  crypto : Option Key
  nonces : Receipts
  active : List String

/-- `NodeServer::with_authentication`. -/
def Server.withAuthentication [Tls] (psk : String) (authentication : AuthenticationPolicy) :
    Result (Server Key) := do
  authentication.validate
  authentication.validateLegacyKey psk
  let crypto ←
    match authentication.allowLegacy with
    | true => (NodeCrypto.new psk : Result Key).map some
    | false => .ok none
  each Tls.serverConfig authentication.tls.toList
  return ⟨authentication, authentication.tls.isSome, crypto, [], []⟩

/-- `CredentialSelector`. -/
structure CredentialSelector where
  type : String
  schemaVersion : Nat
  nodeId : String
  deriving DecidableEq, Repr

/-- Derived `Deserialize`. -/
def CredentialSelector.decode (j : Json) : Option CredentialSelector := do
  let fs ← j.struct ["type", "schema_version", "node_id"] 3
  let type ← Json.field fs "type" Json.asStr
  let schemaVersion ← Json.field fs "schema_version" (Json.asUInt 32)
  let nodeId ← Json.field fs "node_id" Json.asStr
  return ⟨type, schemaVersion, nodeId⟩

/-- The opening of a connection: its key, the identity it selected, and the message it already
brought. -/
structure Opening (Key : Type) where
  crypto : Key
  selectedId : Option String
  initialAuth : Option Json
  deriving DecidableEq

/-- The first line begins with `{`. -/
def isSelector (first : List UInt8) : Bool := first.head? == some 0x7b

/-- The branch of a credential selector. -/
def Server.select (s : Server Key) (first : List UInt8) (tls : Result Unit) :
    Result (Opening Key) := do
  bailIf (1024 < first.length) "credential selector exceeds bounds"
  let selector ← context ((NodeCrypto.parse Key first).bind CredentialSelector.decode)
    "invalid credential selector"
  bailIf (selector.type ≠ "node_credential" ∨ selector.schemaVersion ≠ 2)
    "invalid credential selector"
  validateRemoteNodeId selector.nodeId
  let secret ← context (s.authentication.credentials.get? selector.nodeId).join
    "node credential unavailable"
  let crypto ← NodeCrypto.new secret
  ensure s.tlsConfig "credential TLS identity unavailable; owner provisioning required"
  tls
  return ⟨crypto, some selector.nodeId, none⟩

/-- The branch of the network key. -/
def Server.legacy (s : Server Key) (first : List UInt8) : Result (Opening Key) := do
  bailIf (s.authentication.allowLegacy = false) "legacy authentication disabled"
  let crypto ← context s.crypto "Legacy authentication key unavailable"
  let auth ← NodeCrypto.decodeLine crypto first
  return ⟨crypto, none, some auth⟩

/-- The two branches. -/
def Server.opening (s : Server Key) (incoming : Incoming) : Result (Opening Key) := do
  let first ← readWireLine 8192 incoming.first
  let first ← context first "connection closed before auth"
  if isSelector first then s.select first incoming.tls else s.legacy first

/-- The first message: a connection under the network key has brought it already. -/
def Opening.firstMessage (o : Opening Key) (incoming : Incoming) : Result Json :=
  match o.initialAuth with
  | some auth => .ok auth
  | none => do
    let auth ← readMessage o.crypto incoming.auth
    context auth "connection closed before credential auth"

/-- The message to authenticate: a probe is answered first. -/
def Opening.message (o : Opening Key) (incoming : Incoming) : Result Json := do
  let auth ← o.firstMessage incoming
  if auth.index "type" = .str "probe" then do
    let _ ← context (((auth.index "nonce").asStr).filter (·.utf8ByteSize = 32))
      "invalid probe challenge"
    incoming.pong
    let auth ← readMessage o.crypto incoming.afterProbe
    context auth "connection closed after probe"
  else .ok auth

/-- `parse::<i64>()`. -/
def parseI64 (s : String) : Option Int :=
  let digits (cs : List Char) : Option Nat :=
    if cs ≠ [] ∧ cs.all Char.isDigit then some (Network.decimal cs) else none
  let value : Option Int :=
    match s.toList with
    | '-' :: cs => (digits cs).map fun n => -(n : Int)
    | '+' :: cs => (digits cs).map fun n => (n : Int)
    | cs => (digits cs).map fun n => (n : Int)
  value.filter fun n => -(2 ^ 63) ≤ n ∧ n < 2 ^ 63

/-- `PROTOCOL_VERSION`, `AUTH_CLOCK_SKEW_MS` and `MAX_AUTH_NONCES`. -/
def protocolVersion : Nat := 1

@[inherit_doc protocolVersion]
def authClockSkewMs : Nat := 5 * 60 * 1000

@[inherit_doc protocolVersion]
def maxAuthNonces : Nat := 8192

/-- When a handshake reads the clock, in nanoseconds: first for the timestamp, then under the lock
once for the age of each receipt, and last for the receipt of its own. -/
structure Clock where
  wall : Nat
  pruned : String × String → Nat
  inserted : Nat

/-- The wall clock at an instant: `as_millis` of the time since the epoch. -/
def localMs (now : Nat) : Nat := now / 10 ^ 6

/-- The part of `verify_auth_with` before the replay cache: the claimed identity and its
nonce. -/
def verifyClaim (clock : Clock) (crypto : Key) (auth : Json) : Result (String × String) := do
  ensure ((auth.get? "type").bind Json.asStr = some "auth") "auth failed"
  ensure ((auth.get? "protocol").bind (Json.asUInt 64) = some protocolVersion)
    "unsupported protocol"
  let text (key : String) : Result String := context ((auth.get? key).bind Json.asStr) "auth failed"
  let nodeId ← text "node_id"
  validateRemoteNodeId nodeId
  let version ← text "version"
  let nonce ← text "nonce"
  let timestamp ← text "timestamp"
  let signature ← text "signature"
  bailIf (128 < version.utf8ByteSize ∨ nonce = "" ∨ 128 < nonce.utf8ByteSize
    ∨ nonce.toList.any isControl ∨ 20 < timestamp.utf8ByteSize ∨ 128 < signature.utf8ByteSize)
    "invalid node id"
  let timestampMs ← context (parseI64 timestamp) "invalid auth timestamp"
  bailIf (authClockSkewMs < ((localMs clock.wall : Int) - timestampMs).natAbs) "stale auth timestamp"
  let raw := nonce ++ "|" ++ nodeId ++ "|" ++ version ++ "|" ++ timestamp
  bailIf (NodeCrypto.verify crypto raw signature = false) "auth failed"
  return (nodeId, nonce)

/-- `nonces.retain(|_, seen| seen.elapsed() < Duration::from_secs(10 * 60))`. -/
def retained (pruned : String × String → Nat) (nonces : Receipts) : Receipts :=
  nonces.filter fun seen => pruned seen.1 - seen.2 < 10 * 60 * 10 ^ 9

/-- `verify_auth_with`: the replay cache after it, and the identity. -/
def verifyAuthWith (clock : Clock) (crypto : Key) (auth : Json) (nonces : Receipts) :
    Receipts × Result String :=
  match verifyClaim clock crypto auth with
  | .error e => (nonces, .error e)
  | .ok receipt =>
    let nonces := retained clock.pruned nonces
    if receipt ∈ nonces.map Prod.fst then (nonces, .error "replayed auth")
    else if maxAuthNonces ≤ nonces.length then
      (nonces, .error "authentication replay cache at capacity")
    else ((receipt, clock.inserted) :: nonces, .ok receipt.1)

/-- The claimed name is the selected one, or one without a credential of its own. -/
def Server.checkClaim (s : Server Key) (selectedId : Option String) (auth : Json) :
    Result Unit := do
  let claimed ← context (auth.index "node_id").asStr "auth failed"
  validateRemoteNodeId claimed
  match selectedId with
  | some id => bailIf (id ≠ claimed) "credential identity mismatch"
  | none =>
    bailIf ((s.authentication.credentials.get? claimed).isSome = true)
      "identity requires its node credential"

/-- The block `verification`. -/
def Server.verification (s : Server Key) (clock : Clock) (o : Opening Key) (auth : Json) :
    Receipts × Result String :=
  match s.checkClaim o.selectedId auth with
  | .error e => (s.nonces, .error e)
  | .ok () => verifyAuthWith clock o.crypto auth s.nonces

/-- A session that is admitted: its identity, its opening and the message it was admitted by. -/
structure Session (Key : Type) where
  nodeId : String
  opening : Opening Key
  auth : Json
  deriving DecidableEq

/-- `handle_connection`, until the session is served: the server after it, and the session. -/
def Server.handleConnection (s : Server Key) (clock : Clock) (incoming : Incoming) :
    Server Key × Result (Session Key) :=
  match s.opening incoming with
  | .error e => (s, .error e)
  | .ok o =>
    match o.message incoming with
    | .error e => (s, .error e)
    | .ok auth =>
      match s.verification clock o auth with
      | (nonces, .error e) => ({ s with nonces }, .error e)
      | (nonces, .ok nodeId) =>
        if nodeId ∈ s.active then
          -- the refusal is written first, so a dead connection fails with its own error
          ({ s with nonces }, do
            incoming.denied
            .error ("duplicate node id '" ++ nodeId ++ "'"))
        else
          match incoming.accepted with
          -- the lease gives the identity back when the reply cannot be written
          | .error e => ({ s with nonces }, .error e)
          | .ok () => ({ s with nonces, active := nodeId :: s.active }, .ok ⟨nodeId, o, auth⟩)

/-! ## Who is admitted -/

/-- The message came encrypted under the key of the opening. -/
def Opening.Received (o : Opening Key) (auth : Json) : Prop :=
  ∃ line, NodeCrypto.decodeLine o.crypto line = .ok auth

/-- The message claims `nodeId`, and its signature of that name verifies under the key. -/
def Claims (crypto : Key) (auth : Json) (nodeId : String) : Prop :=
  auth.get? "node_id" = some (.str nodeId) ∧
    ∃ nonce version timestamp signature, auth.get? "signature" = some (.str signature) ∧
      NodeCrypto.verify crypto (nonce ++ "|" ++ nodeId ++ "|" ++ version ++ "|" ++ timestamp)
        signature = true

/-- A session under the identity's own credential. -/
structure UnderCredential (s : Server Key) (incoming : Incoming) (session : Session Key) :
    Prop where
  tls : incoming.tls = .ok () ∧ s.tlsConfig = true
  selected : session.opening.selectedId = some session.nodeId
  secret : ∃ secret, s.authentication.credentials.get? session.nodeId = some (some secret) ∧
    NodeCrypto.new secret = .ok session.opening.crypto

/-- A session under the network key. -/
structure UnderNetworkKey (s : Server Key) (session : Session Key) : Prop where
  allowed : s.authentication.allowLegacy = true
  unselected : session.opening.selectedId = none
  unknown : s.authentication.credentials.get? session.nodeId = none
  key : s.crypto = some session.opening.crypto

/-- What holds of an admitted session. -/
structure Admitted (s : Server Key) (incoming : Incoming) (session : Session Key) : Prop where
  trust : UnderCredential s incoming session ∨ UnderNetworkKey s session
  received : session.opening.Received session.auth
  claims : Claims session.opening.crypto session.auth session.nodeId

theorem verifyClaim_ok {clock : Clock} {crypto : Key} {auth : Json} {nodeId nonce : String}
    (h : verifyClaim clock crypto auth = .ok (nodeId, nonce)) : Claims crypto auth nodeId := by
  simp only [verifyClaim, bind_ok, ensure_ok, bailIf_ok, context_ok, pure_ok,
    Option.bind_eq_some_iff] at h
  obtain ⟨_, -, _, -, id, ⟨v, hv, hid⟩, _, -, version, -, n, -, timestamp, -, signature,
    ⟨w, hw, hsig⟩, _, -, _, -, _, -, _, hverify, hpair⟩ := h
  cases hpair
  refine ⟨?_, nonce, version, timestamp, signature, ?_, by simpa using hverify⟩
  · rw [hv, Json.of_asStr hid]
  · rw [hw, Json.of_asStr hsig]

theorem verifyAuthWith_ok {clock : Clock} {crypto : Key} {auth : Json} {seen nonces : Receipts}
    {nodeId : String} (h : verifyAuthWith clock crypto auth seen = (nonces, .ok nodeId)) :
    Claims crypto auth nodeId := by
  unfold verifyAuthWith at h
  split at h
  · cases h
  · rename_i receipt hclaim
    dsimp only at h
    split at h
    · cases h
    · split at h
      · cases h
      · cases h
        exact verifyClaim_ok hclaim

theorem readMessage_ok {crypto : Key} {a : Arrival} {auth : Json}
    (h : readMessage crypto a = .ok (some auth)) :
    ∃ line, NodeCrypto.decodeLine crypto line = .ok auth := by
  simp only [readMessage, bind_ok] at h
  obtain ⟨line, -, h⟩ := h
  split at h
  · cases h
  · rename_i line
    simp only [bind_ok, pure_ok] at h
    obtain ⟨message, hmessage, heq⟩ := h
    cases heq
    exact ⟨line, hmessage⟩

theorem message_ok {o : Opening Key} {incoming : Incoming} {auth : Json}
    (hinitial : ∀ a, o.initialAuth = some a → o.Received a)
    (h : o.message incoming = .ok auth) : o.Received auth := by
  simp only [Opening.message, bind_ok] at h
  obtain ⟨first, hfirst, h⟩ := h
  split at h
  · simp only [bind_ok, context_ok] at h
    obtain ⟨_, -, _, -, _, hread, rfl⟩ := h
    exact readMessage_ok hread
  · cases h
    unfold Opening.firstMessage at hfirst
    split at hfirst
    · rename_i a ha
      cases hfirst
      exact hinitial _ ha
    · simp only [bind_ok, context_ok] at hfirst
      obtain ⟨_, hread, rfl⟩ := hfirst
      exact readMessage_ok hread

/-- The two ways to open a connection. -/
theorem opening_ok {s : Server Key} {incoming : Incoming} {o : Opening Key}
    (h : s.opening incoming = .ok o) :
    (∃ id secret, o.selectedId = some id ∧ incoming.tls = .ok () ∧ s.tlsConfig = true ∧
      s.authentication.credentials.get? id = some (some secret) ∧
      NodeCrypto.new secret = .ok o.crypto ∧ o.initialAuth = none) ∨
    (o.selectedId = none ∧ s.authentication.allowLegacy = true ∧ s.crypto = some o.crypto ∧
      ∀ a, o.initialAuth = some a → o.Received a) := by
  simp only [Server.opening, bind_ok] at h
  obtain ⟨_, -, first, -, h⟩ := h
  split at h
  · left
    simp only [Server.select, bind_ok, bailIf_ok, context_ok, ensure_ok, pure_ok,
      Option.join_eq_some_iff] at h
    obtain ⟨_, -, selector, -, _, -, _, -, secret, hsecret, crypto, hcrypto, _, htls, _, haccept,
      rfl⟩ := h
    exact ⟨selector.nodeId, secret, rfl, haccept, htls, hsecret, hcrypto, rfl⟩
  · right
    simp only [Server.legacy, bind_ok, bailIf_ok, context_ok, pure_ok, Bool.not_eq_false] at h
    obtain ⟨_, hallow, crypto, hcrypto, auth, hauth, rfl⟩ := h
    refine ⟨rfl, hallow, hcrypto, fun a ha => ?_⟩
    cases ha
    exact ⟨first, hauth⟩

/-- A session is admitted under the identity's own secret or, for an identity the policy does
not know, under the network key. -/
theorem handleConnection_ok {s t : Server Key} {clock : Clock} {incoming : Incoming}
    {session : Session Key} (h : s.handleConnection clock incoming = (t, .ok session)) :
    Admitted s incoming session := by
  unfold Server.handleConnection at h
  split at h
  · cases h
  rename_i o hopening
  split at h
  · cases h
  rename_i auth hmessage
  split at h
  · cases h
  rename_i nonces nodeId hverification
  split at h
  · simp [bind_ok] at h
  split at h
  · cases h
  rename_i haccepted
  cases h
  unfold Server.verification at hverification
  split at hverification
  · cases hverification
  rename_i hcheck
  have hclaims := verifyAuthWith_ok hverification
  -- both checks of the claimed name read the same member
  simp only [Server.checkClaim, bind_ok, context_ok, Json.index, hclaims.1] at hcheck
  obtain ⟨claimed, hclaimed, _, -, hcheck⟩ := hcheck
  cases hclaimed
  rcases opening_ok hopening with
    ⟨id, secret, hid, htls, hconfig, hsecret, hkey, hnone⟩ | ⟨hid, hallow, hkey, hreceived⟩
  · rw [hid] at hcheck
    simp only [bailIf_ok, not_not] at hcheck
    subst hcheck
    refine ⟨Or.inl ⟨⟨htls, hconfig⟩, hid, secret, hsecret, hkey⟩, ?_, hclaims⟩
    refine message_ok (fun a ha => ?_) hmessage
    rw [hnone] at ha
    cases ha
  · rw [hid] at hcheck
    simp only [bailIf_ok, Bool.not_eq_true, Option.isSome_eq_false_iff, Option.isNone_iff_eq_none]
      at hcheck
    exact ⟨Or.inr ⟨hallow, hid, hcheck, hkey⟩, message_ok hreceived hmessage, hclaims⟩

end Eef.Node.Handshake
