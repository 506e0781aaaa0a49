import Eef.Coordinator.Config
import Eef.Node.Handshake

/-!
# Trust in node identities

`credentials.rs`: the owner's credential commands and the preparation of a local enrollment,
both edits of the saved authentication policy. An identity is added, revoked or given another
secret by the command that says so and by nothing else; and a private code is only handed out
for what is saved. The policy applies to the handshakes of the process that was started with it.

`Code` stands for the encoding of an invitation, base64 over its JSON text. A panic of the
source counts as a refusal: it is raised before the file is written.
-/

namespace Eef.Coordinator.Credentials

open Eef.Lib Eef.Node
open Eef.Coordinator.Config
open Eef.Node.Authentication
open Eef.Node.Handshake

/-- `STANDARD.encode(serde_json::to_vec(..))`, and its way back. -/
class Code where
  encode : Json → String
  decode : String → Option Json

/-- `CredentialCommand`. -/
inductive CredentialCommand where
  | showPolicy
  | provision (node address : String) (rotate : Bool)
  | exportCode (node address : String)
  | revoke (node : String)
  | legacy (allow : Bool)
  deriving DecidableEq, Repr

/-- What the random source yields to one call. -/
structure Fresh where
  /-- `generate_credential`: 32 bytes in lowercase hex. -/
  credential : String
  isHex : hexDigest credential = true
  /-- `CoordinatorIdentity::generate`. -/
  identity : Result CoordinatorIdentity

/-- `CREDENTIAL_NOTE`. -/
def credentialNote : String :=
  "Credential changes apply after explicit eef restart. Existing sessions are not revoked until restart. Pairing never grants node feature permissions; no automatic replay was sent."

/-- The report of a credential command; `private` goes with the code. -/
structure CredentialReport where
  changed : Bool
  savedPolicy : Json
  appliedPolicy : Json
  restartRequired : Bool
  note : String
  code : Option String
  deriving DecidableEq

/-- The report as the command returns it. -/
def CredentialReport.toJson (r : CredentialReport) : Json :=
  .obj ([("schema_version", .nat 1), ("report_type", .str "node_credentials"),
      ("success", .bool true), ("changed", .bool r.changed), ("saved_policy", r.savedPolicy),
      ("applied_policy", r.appliedPolicy), ("restart_required", .bool r.restartRequired),
      ("execution_authorized", .bool false), ("note", .str r.note)]
    ++ (match r.code with
      | some code => [("code", .str code), ("private", .bool true)]
      | none => []))

variable [Tls] [Code]

/-- The invitation of a code. -/
def invitation (node address secret certificate : String) : Json :=
  .obj [("schema_version", .nat 2), ("node_id", .str node), ("address", .str address),
    ("auth_mode", .str AuthMode.nodeCredential.name), ("psk", .str secret),
    ("coordinator_certificate", .str certificate)]

/-- `invitation_code`. -/
def invitationCode (node address secret certificate : String) : String :=
  Code.encode (invitation node address secret certificate)

/-- `CoordinatorIdentity::generate`, where none is saved yet. -/
def ensureTls (fresh : Fresh) : Option CoordinatorIdentity → Result CoordinatorIdentity
  | some identity => .ok identity
  | none => do
    let identity ← fresh.identity
    Tls.serverConfig identity
    return identity

/-- The policy a command asks for, and the code it hands out. -/
def CredentialCommand.edit (fresh : Fresh) (before : AuthenticationPolicy) :
    CredentialCommand → Result (AuthenticationPolicy × Option String)
  | .showPolicy => .ok (before, none)
  | .legacy allow => .ok ({ before with allowLegacy := allow }, none)
  | .revoke node => do
    validateRemoteNodeId node
    return ({ before with credentials := before.credentials.insert node none }, none)
  | .exportCode node address => do
    validateRemoteNodeId node
    Network.validateAddress address true
    let secret ← context (before.credentials.get? node).join
      "identity is not provisioned or is revoked; export never creates or restores credentials"
    let identity ← context before.tls
      "saved TLS identity unavailable; export never creates coordinator trust"
    return (before, some (invitationCode node address secret identity.certificate))
  | .provision node address rotate => do
    validateRemoteNodeId node
    Network.validateAddress address true
    bailIf ((before.credentials.get? node).isSome ∧ rotate = false)
      "identity already provisioned or revoked; explicitly rotate to replace its credential"
    let identity ← ensureTls fresh before.tls
    return ({ before with
        tls := some identity
        credentials := before.credentials.insert node (some fresh.credential) },
      some (invitationCode node address fresh.credential identity.certificate))

/-- `validate_secret` of the runtime. -/
def validateSecret (psk : String) : Result Unit :=
  bailIf (psk.utf8ByteSize < 12 ∨ asciiLower psk = asciiLower "change-me-eef"
    ∨ "CHANGE_ME".toList <:+: psk.toList)
    "set EEF_NODE_PSK to a non-placeholder secret of at least 12 characters"

/-- `/node/psk` as a string, or empty. -/
def networkKey (value : Json) : String :=
  (((value.get? "node").bind (·.get? "psk")).bind Json.asStr).getD ""

/-- The network key of an explicit `Legacy` opt-in is the one the process would start with. -/
def checkLegacy (secret : Option String) (value : Json) (saved : AuthenticationPolicy) :
    CredentialCommand → Result Unit
  | .legacy true => do
    let key := secret.getD (networkKey value)
    validateSecret key
    saved.validateLegacyKey key
  | _ => .ok ()

/-- The policy is stored where it changed. -/
def store (value : Json) (before saved : AuthenticationPolicy) : Result Json :=
  if saved ≠ before then setAuthentication value saved.toJson else .ok value

/-- The closure of `command`, for the configuration `config` the process started with. -/
def commandEdit (config : Json) (secret : Option String) (applied : AuthenticationPolicy)
    (request : CredentialCommand) (fresh : Fresh) (value : Json) :
    Result (CredentialReport × Json × Bool) := do
  ensure (value.index "node").isObject "node settings must be an object"
  let before ← AuthenticationPolicy.parse (authentication value)
  let (saved, code) ← request.edit fresh before
  saved.validate
  checkLegacy secret value saved request
  saved.validateLegacyKey (networkKey config)
  let value ← store value before saved
  return (⟨saved ≠ before, saved.summary, applied.summary, saved ≠ applied, credentialNote, code⟩,
    value, saved ≠ before)

/-! ## Enrollment -/

/-- A socket address: its text, whether it is a loopback address, and its port. -/
structure SocketAddr where
  text : String
  loopback : Bool
  port : Nat
  deriving DecidableEq, Repr

/-- `hash_valid`. -/
def hashValid (s : String) : Bool := hexDigits64 s

/-- `PrepareRequest`. -/
structure PrepareRequest where
  schemaVersion : Nat
  expectedRuntimeId : String
  nodeId : String
  address : SocketAddr
  expectedFingerprint : Option String
  allowCoordinatorRestart : Bool
  deriving DecidableEq, Repr

/-- `PrepareRequest::validate`. -/
def PrepareRequest.validate (r : PrepareRequest) : Result Unit := do
  validateRemoteNodeId r.nodeId
  bailIf (r.schemaVersion ≠ 1 ∨ ¬uuid r.expectedRuntimeId ∨ ¬r.address.loopback
    ∨ r.address.port = 0 ∨ r.expectedFingerprint.any fun fp => !hashValid fp)
    "invalid local enrollment preparation request"

/-- `PREPARE_NOTE`. -/
def prepareNote : String :=
  "PRIVATE reusable invitation. Saved trust is not active registration. No feature permissions, models, work or restart were requested."

/-- `Invitation`. -/
structure Invitation where
  schemaVersion : Nat
  nodeId : String
  address : String
  authMode : AuthMode
  psk : String
  coordinatorCertificate : String
  deriving DecidableEq, Repr

/-- Derived `Deserialize`. -/
def Invitation.decode (j : Json) : Option Invitation := do
  let fs ← j.struct ["schema_version", "node_id", "address", "auth_mode", "psk",
    "coordinator_certificate"] 6
  let schemaVersion ← Json.field fs "schema_version" (Json.asUInt 32)
  let nodeId ← Json.field fs "node_id" Json.asStr
  let address ← Json.field fs "address" Json.asStr
  let authMode ← Json.field fs "auth_mode" AuthMode.decode
  let psk ← Json.field fs "psk" Json.asStr
  let coordinatorCertificate ← Json.field fs "coordinator_certificate" Json.asStr
  return ⟨schemaVersion, nodeId, address, authMode, psk, coordinatorCertificate⟩

/-- `Invitation::parse`. -/
def Invitation.parse (code node : String) : Result Invitation := do
  bailIf (code = "" ∨ 4096 < code.utf8ByteSize) "pairing code is empty or exceeds bounds"
  let document ← context (Code.decode code) "invalid pairing code"
  let i ← context (Invitation.decode document) "invalid pairing invitation"
  bailIf (i.schemaVersion ≠ 2 ∨ i.nodeId ≠ node ∨ i.authMode ≠ .nodeCredential)
    "pairing invitation does not match this node"
  validateCredential i.psk
  validateRemoteNodeId node
  Tls.clientConfig i.coordinatorCertificate
  Network.validateAddress i.address true
  return i

/-- `Prepared`. -/
structure Prepared where
  schemaVersion : Nat
  reportType : String
  success : Bool
  runtimeId : String
  nodeId : String
  fingerprint : String
  authenticationDigest : String
  changed : Bool
  restartRequired : Bool
  executionAuthorized : Bool
  code : String
  note : String
  deriving DecidableEq, Repr

/-- `Prepared::validate`. -/
def Prepared.validate (p : Prepared) (request : PrepareRequest) : Result Unit := do
  request.validate
  let i ← Invitation.parse p.code request.nodeId
  let fingerprint ← Tls.certificateFingerprint i.coordinatorCertificate
  bailIf (p.schemaVersion ≠ 1 ∨ p.reportType ≠ "coordinator_enrollment_prepared" ∨ ¬p.success
    ∨ p.runtimeId ≠ request.expectedRuntimeId ∨ p.nodeId ≠ request.nodeId
    ∨ p.executionAuthorized ∨ ¬hashValid p.authenticationDigest ∨ p.note ≠ prepareNote
    ∨ i.address ≠ request.address.text ∨ fingerprint ≠ p.fingerprint
    ∨ (request.expectedFingerprint.any fun fp => fp ≠ p.fingerprint)
    ∨ (p.restartRequired ∧ ¬request.allowCoordinatorRestart)
    ∨ (p.changed ∧ ¬p.restartRequired)) "private enrollment preparation reply unconfirmed"

/-- What an enrollment makes of the policy: an identity that is missing is provisioned. -/
def enroll (fresh : Fresh) (before : AuthenticationPolicy) (node : String) :
    Result AuthenticationPolicy :=
  if (before.credentials.get? node).isNone then do
    let identity ← ensureTls fresh before.tls
    return { before with
      tls := some identity
      credentials := before.credentials.insert node (some fresh.credential) }
  else .ok before

/-- The refusals of `prepare_enrollment`. -/
def checkEnrollment (before applied : AuthenticationPolicy) (request : PrepareRequest) :
    Result Unit := do
  let fingerprint ←
    match before.tls with
    | some identity => (Tls.certificateFingerprint identity.certificate).map some
    | none => .ok none
  let missing := (before.credentials.get? request.nodeId).isNone
  bailIf (fingerprint ≠ request.expectedFingerprint)
    "saved coordinator trust changed; inspect setup again"
  bailIf (before.credentials.get? request.nodeId = some none)
    "node identity revoked; enrollment never restores revocation"
  bailIf ((missing ∧ (applied.credentials.get? request.nodeId).isSome)
    ∨ (before.tls.isNone ∧ applied.tls.isSome))
    "saved trust lost applied identity state; explicit owner repair is required"
  bailIf ((missing ∨ before ≠ applied) ∧ ¬request.allowCoordinatorRestart)
    "explicit coordinator restart consent is required before preparing pending trust"
  bailIf (¬missing ∧ before.tls.isNone)
    "existing credential lacks TLS trust; explicit migration is required"

variable [Sha256]

/-- The closure of `prepare_enrollment`. -/
def enrollEdit (config : Json) (applied : AuthenticationPolicy) (request : PrepareRequest)
    (fresh : Fresh) (value : Json) : Result (Prepared × Json × Bool) := do
  let before ← AuthenticationPolicy.parse (authentication value)
  checkEnrollment before applied request
  let saved ← enroll fresh before request.nodeId
  saved.validate
  saved.validateLegacyKey (networkKey config)
  let identity ← context saved.tls "validated enrollment identity"
  let secret ← context (saved.credentials.get? request.nodeId).join "validated credential"
  let code := invitationCode request.nodeId request.address.text secret identity.certificate
  let fingerprint ← Tls.certificateFingerprint identity.certificate
  let report : Prepared := {
    schemaVersion := 1
    reportType := "coordinator_enrollment_prepared"
    success := true
    runtimeId := request.expectedRuntimeId
    nodeId := request.nodeId
    fingerprint
    authenticationDigest := Sha256.raw saved.toJson
    changed := saved ≠ before
    restartRequired := saved ≠ applied
    executionAuthorized := false
    code
    note := prepareNote }
  report.validate request
  let value ← store value before saved
  return (report, value, saved ≠ before)

/-! ## What an edit does to the policy -/

/-- `Provision` with an explicit `rotate`. -/
def CredentialCommand.rotates (id : String) : CredentialCommand → Prop
  | .provision node _ rotate => node = id ∧ rotate = true
  | _ => False

@[inherit_doc CredentialCommand.rotates]
def CredentialCommand.revokes (id : String) : CredentialCommand → Prop
  | .revoke node => node = id
  | _ => False

/-- The identity a command names. -/
def CredentialCommand.target : CredentialCommand → Option String
  | .provision node _ _ | .exportCode node _ | .revoke node => some node
  | _ => none

/-- Trust that is kept from `p` to `q`, up to the identities that are rotated or revoked. -/
structure Kept (rotated revoked : String → Prop) (p q : AuthenticationPolicy) : Prop where
  known : ∀ id, (p.credentials.get? id).isSome → (q.credentials.get? id).isSome
  revocation : ∀ id, p.credentials.get? id = some none → ¬rotated id →
    q.credentials.get? id = some none
  secret : ∀ id key, p.credentials.get? id = some (some key) → ¬rotated id → ¬revoked id →
    q.credentials.get? id = some (some key)
  tls : ∀ i, p.tls = some i → q.tls = some i

/-- A code carries the secret, the identity and the certificate of the policy `p`. -/
def Carries (p : AuthenticationPolicy) (node code : String) : Prop :=
  ∃ address key i, p.credentials.get? node = some (some key) ∧ p.tls = some i ∧
    code = invitationCode node address key i.certificate

section Kept

variable {rotated revoked : String → Prop} {p q r : AuthenticationPolicy}

omit [Tls] [Code] [Sha256] in
theorem Kept.refl (p : AuthenticationPolicy) : Kept rotated revoked p p :=
  ⟨fun _ h => h, fun _ h _ => h, fun _ _ h _ _ => h, fun _ h => h⟩

omit [Tls] [Code] [Sha256] in
theorem Kept.trans (h : Kept rotated revoked p q) (h' : Kept rotated revoked q r) :
    Kept rotated revoked p r where
  known id hp := h'.known id (h.known id hp)
  revocation id hp hrot := h'.revocation id (h.revocation id hp hrot) hrot
  secret id key hp hrot hrev := h'.secret id key (h.secret id key hp hrot hrev) hrot hrev
  tls i hp := h'.tls i (h.tls i hp)

omit [Tls] [Code] [Sha256] in
theorem Kept.mono {rotated' revoked' : String → Prop} (h : Kept rotated revoked p q)
    (hrot : ∀ id, rotated id → rotated' id) (hrev : ∀ id, revoked id → revoked' id) :
    Kept rotated' revoked' p q where
  known := h.known
  revocation id hp hno := h.revocation id hp fun hr => hno (hrot id hr)
  secret id key hp hno hno' := h.secret id key hp (fun hr => hno (hrot id hr))
    fun hr => hno' (hrev id hr)
  tls := h.tls

omit [Tls] [Code] [Sha256] in
/-- One identity gets a new entry. -/
theorem Kept.insert {node : String} {entry : Option String} {tls : Option CoordinatorIdentity}
    (htls : ∀ i, p.tls = some i → tls = some i)
    (hrev : p.credentials.get? node = some none → rotated node ∨ entry = none)
    (hsecret : ∀ key, p.credentials.get? node = some (some key) → rotated node ∨ revoked node) :
    Kept rotated revoked p { p with tls, credentials := p.credentials.insert node entry } where
  known id hp := by
    show ((p.credentials.insert node entry).get? id).isSome
    rw [SortedMap.get?_insert]
    split
    · rfl
    · exact hp
  revocation id hp hno := by
    show (p.credentials.insert node entry).get? id = some none
    rw [SortedMap.get?_insert]
    split
    · rename_i hid
      subst hid
      rcases hrev hp with hr | hr
      · exact absurd hr hno
      · rw [hr]
    · exact hp
  secret id key hp hno hno' := by
    show (p.credentials.insert node entry).get? id = some (some key)
    rw [SortedMap.get?_insert]
    split
    · rename_i hid
      subst hid
      rcases hsecret key hp with hr | hr
      · exact absurd hr hno
      · exact absurd hr hno'
    · exact hp
  tls := htls

end Kept

omit [Code] [Sha256] in
theorem ensureTls_ok {fresh : Fresh} {before : Option CoordinatorIdentity}
    {identity : CoordinatorIdentity} (h : ensureTls fresh before = .ok identity) :
    ∀ i, before = some i → some identity = some i := by
  rintro i rfl
  unfold ensureTls at h
  cases h
  rfl

omit [Sha256] in
/-- Step: a command moves the trust it names, and its code carries what it saves. -/
theorem edit_ok {fresh : Fresh} {before saved : AuthenticationPolicy} {code : Option String}
    {request : CredentialCommand} (h : request.edit fresh before = .ok (saved, code)) :
    Kept (request.rotates ·) (request.revokes ·) before saved ∧
      ∀ c, code = some c → ∃ node, request.target = some node ∧ Carries saved node c := by
  cases request with
  | showPolicy =>
    cases h
    exact ⟨Kept.refl _, fun c hc => by cases hc⟩
  | legacy allow =>
    cases h
    exact ⟨⟨fun _ h => h, fun _ h _ => h, fun _ _ h _ _ => h, fun _ h => h⟩,
      fun c hc => by cases hc⟩
  | revoke node =>
    simp only [CredentialCommand.edit, bind_ok, pure_ok] at h
    obtain ⟨_, -, heq⟩ := h
    cases heq
    exact ⟨Kept.insert (fun _ h => h) (fun _ => Or.inr rfl) (fun _ _ => Or.inr rfl),
      fun c hc => by cases hc⟩
  | exportCode node address =>
    simp only [CredentialCommand.edit, bind_ok, context_ok, pure_ok, Option.join_eq_some_iff] at h
    obtain ⟨_, -, _, -, key, hkey, i, hi, heq⟩ := h
    cases heq
    refine ⟨Kept.refl _, fun c hc => ?_⟩
    cases hc
    exact ⟨node, rfl, address, key, i, hkey, hi, rfl⟩
  | provision node address rotate =>
    simp only [CredentialCommand.edit, bind_ok, bailIf_ok, pure_ok] at h
    obtain ⟨_, -, _, -, _, hnew, identity, hidentity, heq⟩ := h
    cases heq
    -- an identity that is known already is rotated
    have hrotated : (before.credentials.get? node).isSome → rotate = true := by
      intro hsome
      cases rotate with
      | false => exact absurd ⟨hsome, rfl⟩ hnew
      | true => rfl
    refine ⟨Kept.insert (ensureTls_ok hidentity) (fun hp => Or.inl ⟨rfl, hrotated ?_⟩)
      (fun key hp => Or.inl ⟨rfl, hrotated ?_⟩), fun c hc => ?_⟩
    · rw [hp]
      rfl
    · rw [hp]
      rfl
    · cases hc
      exact ⟨node, rfl, address, fresh.credential, identity, SortedMap.get?_insert_self _ _ _, rfl,
        rfl⟩

/-- What an edit makes of a value: the policy it reads, and the one it stores if they differ. -/
structure Edits (rotated revoked : String → Prop) (value value' : Json) (changed : Bool)
    (before saved : AuthenticationPolicy) : Prop where
  read : AuthenticationPolicy.parse (authentication value) = .ok before
  valid : saved.validate = .ok ()
  kept : Kept rotated revoked before saved
  changes : changed = decide (saved ≠ before)
  stored : changed = true → setAuthentication value saved.toJson = .ok value'

omit [Tls] [Code] [Sha256] in
theorem store_ok {value value' : Json} {before saved : AuthenticationPolicy}
    (h : store value before saved = .ok value') (hchanged : decide (saved ≠ before) = true) :
    setAuthentication value saved.toJson = .ok value' := by
  unfold store at h
  rw [if_pos (of_decide_eq_true hchanged)] at h
  exact h

omit [Sha256] in
theorem commandEdit_ok {config : Json} {secret : Option String} {applied : AuthenticationPolicy}
    {request : CredentialCommand} {fresh : Fresh} {value value' : Json}
    {report : CredentialReport} {changed : Bool}
    (h : commandEdit config secret applied request fresh value = .ok (report, value', changed)) :
    ∃ before saved, Edits (request.rotates ·) (request.revokes ·) value value' changed before saved ∧
      (request.edit fresh before = .ok (saved, report.code)) := by
  simp only [commandEdit, bind_ok, pure_ok] at h
  obtain ⟨_, -, before, hbefore, ⟨saved, code⟩, hedit, _, hvalid, _, -, _, -, _, hstore, heq⟩ := h
  cases heq
  exact ⟨before, saved, ⟨hbefore, hvalid, (edit_ok hedit).1, rfl, store_ok hstore⟩, hedit⟩

omit [Code] [Sha256] in
/-- An enrollment adds an identity that is missing. -/
theorem enroll_ok {fresh : Fresh} {before saved : AuthenticationPolicy} {node : String}
    (h : enroll fresh before node = .ok saved) :
    Kept (fun _ => False) (fun _ => False) before saved ∧
      ((before.credentials.get? node).isSome → saved = before) := by
  unfold enroll at h
  split at h
  · rename_i hnone
    rw [Option.isNone_iff_eq_none] at hnone
    simp only [bind_ok, pure_ok] at h
    obtain ⟨identity, hidentity, rfl⟩ := h
    refine ⟨Kept.insert (ensureTls_ok hidentity) (fun hp => ?_) (fun key hp => ?_), fun hsome => ?_⟩
    · rw [hnone] at hp
      cases hp
    · rw [hnone] at hp
      cases hp
    · rw [hnone] at hsome
      cases hsome
  · cases h
    exact ⟨Kept.refl _, fun _ => rfl⟩

theorem enrollEdit_ok {config : Json} {applied : AuthenticationPolicy} {request : PrepareRequest}
    {fresh : Fresh} {value value' : Json} {report : Prepared} {changed : Bool}
    (h : enrollEdit config applied request fresh value = .ok (report, value', changed)) :
    ∃ before saved,
      Edits (fun _ => False) (fun _ => False) value value' changed before saved ∧
      Carries saved request.nodeId report.code ∧
      ((before.credentials.get? request.nodeId).isSome → saved = before) := by
  simp only [enrollEdit, bind_ok, context_ok, pure_ok, Option.join_eq_some_iff] at h
  obtain ⟨before, hbefore, _, -, saved, hsaved, _, hvalid, _, -, i, hi, key, hkey, _, -, _, -, _,
    hstore, heq⟩ := h
  cases heq
  obtain ⟨hkept, hknown⟩ := enroll_ok hsaved
  exact ⟨before, saved, ⟨hbefore, hvalid, hkept, rfl, store_ok hstore⟩,
    ⟨request.address.text, key, i, hkey, hi, rfl⟩, hknown⟩

end Eef.Coordinator.Credentials
