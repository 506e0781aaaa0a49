import Eef.Lib.SortedMap
import Eef.Node.Identity
import Mathlib.Data.String.Basic

/-!
# Exact-node credentials

`authentication.rs`: the policy that says which node may connect and under which secret. An
identity is provisioned with a secret of its own, or revoked, or unknown; only an unknown one
may still use the network key. `Tls` stands for the certificate library: whether it builds a
server or a client from the stored material, and the fingerprint of a certificate.
-/

namespace Eef.Node.Authentication

open Eef.Lib

/-- `AuthMode`. -/
inductive AuthMode where
  | legacy
  | nodeCredential
  deriving DecidableEq, Repr

/-- Derived `Serialize`. -/
def AuthMode.name : AuthMode → String
  | .legacy => "legacy"
  | .nodeCredential => "node_credential"

/-- Derived `Deserialize`. -/
def AuthMode.decode (j : Json) : Option AuthMode :=
  match j.asVariant with
  | some "legacy" => some .legacy
  | some "node_credential" => some .nodeCredential
  | _ => none

/-- `CoordinatorIdentity`. -/
structure CoordinatorIdentity where
  certificate : String
  privateKey : String
  deriving DecidableEq, Repr

/-- `CoordinatorIdentity::server_config`, `client_config` and `certificate_fingerprint`. -/
class Tls where
  serverConfig : CoordinatorIdentity → Result Unit
  clientConfig : String → Result Unit
  certificateFingerprint : String → Result String

namespace CoordinatorIdentity

@[inherit_doc AuthMode.name]
def toJson (i : CoordinatorIdentity) : Json :=
  .obj [("certificate", .str i.certificate), ("private_key", .str i.privateKey)]

@[inherit_doc AuthMode.decode]
def decode (j : Json) : Option CoordinatorIdentity := do
  let fs ← j.struct ["certificate", "private_key"] 2
  let certificate ← Json.field fs "certificate" Json.asStr
  let privateKey ← Json.field fs "private_key" Json.asStr
  return ⟨certificate, privateKey⟩

theorem decode_toJson (i : CoordinatorIdentity) : decode i.toJson = some i := by
  cases i
  simp [toJson, decode, Json.struct, Json.field, Assoc.lookup_cons, Json.asStr]

end CoordinatorIdentity

/-- `credentials`: `none` is a revoked identity. -/
abbrev Credentials := SortedMap String (Option String)

/-- `AuthenticationPolicy`. -/
structure AuthenticationPolicy where
  allowLegacy : Bool
  credentials : Credentials
  tls : Option CoordinatorIdentity
  deriving DecidableEq

/-- `validate_credential`. -/
def validateCredential (key : String) : Result Unit :=
  ensure (key.utf8ByteSize = 64 ∧ key.toList.all isHexDigit)
    "node credential must be a generated 256-bit hexadecimal secret"

/-- The loop of `AuthenticationPolicy::validate`, with the secrets it has seen. -/
def validateCredentials : List String → List (String × Option String) → Result Unit
  | _, [] => .ok ()
  | keys, (id, none) :: rest => do
    validateRemoteNodeId id
    validateCredentials keys rest
  | keys, (id, some key) :: rest => do
    validateRemoteNodeId id
    validateCredential key
    bailIf (asciiLower key ∈ keys) "node credentials must be independent"
    validateCredentials (asciiLower key :: keys) rest

namespace AuthenticationPolicy

/-- `AuthenticationPolicy::default`. -/
def default : AuthenticationPolicy := ⟨true, .empty, none⟩

/-- A stored secret, or `null`. -/
def decodeEntry : String × Json → Option (String × Option String)
  | (id, .null) => some (id, none)
  | (id, .str key) => some (id, some key)
  | _ => none

@[inherit_doc decodeEntry]
def decodeCredentials : Json → Option Credentials
  | .obj fields =>
    if (fields.map Prod.fst).Nodup then (fields.mapM decodeEntry).map SortedMap.ofList else none
  | _ => none

@[inherit_doc AuthMode.decode]
def decode (j : Json) : Option AuthenticationPolicy := do
  let fs ← j.struct ["allow_legacy", "credentials", "tls"] 0
  let allowLegacy ← Json.defaultField fs "allow_legacy" Json.asBool true
  let credentials ← Json.defaultField fs "credentials" decodeCredentials .empty
  let tls ← Json.optField fs "tls" CoordinatorIdentity.decode
  return ⟨allowLegacy, credentials, tls⟩

/-- The stored form of an entry. -/
def entryJson (e : String × Option String) : String × Json := (e.1, Json.ofOption Json.str e.2)

@[inherit_doc AuthMode.name]
def toJson (p : AuthenticationPolicy) : Json :=
  .obj [("allow_legacy", .bool p.allowLegacy),
    ("credentials", .obj (p.credentials.entries.map entryJson)),
    ("tls", Json.ofOption CoordinatorIdentity.toJson p.tls)]

variable [Tls]

/-- `AuthenticationPolicy::validate`. -/
def validate (p : AuthenticationPolicy) : Result Unit := do
  each Tls.serverConfig p.tls.toList
  bailIf (256 < p.credentials.entries.length) "authentication identity limit reached"
  validateCredentials [] p.credentials.entries

/-- `AuthenticationPolicy::parse`. -/
def parse (value : Option Json) : Result AuthenticationPolicy := do
  let policy ← context (decode (value.getD (.obj []))) "invalid authentication policy"
  policy.validate
  return policy

/-- `AuthenticationPolicy::validate_legacy_key`. -/
def validateLegacyKey (p : AuthenticationPolicy) (key : String) : Result Unit :=
  bailIf (p.credentials.entries.any fun e => e.2.any fun v => asciiLower v == asciiLower key)
    "a node credential cannot reuse the network key"

/-- The part of `summary` for one identity. -/
def identitySummary (e : String × Option String) : Json :=
  .obj [("node_id", .str e.1),
    ("state", .str (if e.2.isSome then "provisioned" else "revoked"))]

/-- `AuthenticationPolicy::summary`. -/
def summary (p : AuthenticationPolicy) : Json :=
  .obj [("allow_legacy", .bool p.allowLegacy), ("tls_configured", .bool p.tls.isSome),
    ("coordinator_fingerprint", Json.ofOption Json.str
      (p.tls.bind fun i => (Tls.certificateFingerprint i.certificate).toOption)),
    ("identities", .arr (p.credentials.entries.map identitySummary))]

/-! ## What a policy that passes says -/

omit [Tls] in
/-- A policy reads back as it was written. -/
theorem decode_toJson (p : AuthenticationPolicy) : decode p.toJson = some p := by
  obtain ⟨allowLegacy, credentials, tls⟩ := p
  have hentry : ∀ e, decodeEntry (entryJson e) = some e := by
    rintro ⟨id, _ | key⟩ <;> rfl
  have hmap : ∀ l : List (String × Option String), (l.map entryJson).mapM decodeEntry = some l := by
    intro l
    induction l with
    | nil => rfl
    | cons e l ih => simp [List.mapM_cons, hentry, ih]
  have hkeys : (credentials.entries.map entryJson).map Prod.fst
      = credentials.entries.map Prod.fst := by
    rw [List.map_map]
    rfl
  have hnodup : ((credentials.entries.map entryJson).map Prod.fst).Nodup := by
    rw [hkeys]
    exact credentials.sorted.imp ne_of_lt
  have hcredentials : decodeCredentials (.obj (credentials.entries.map entryJson))
      = some credentials := by
    rw [decodeCredentials, if_pos hnodup, hmap, Option.map_some, SortedMap.ofList_entries]
  have htls : Json.optField [("allow_legacy", Json.bool allowLegacy),
      ("credentials", .obj (credentials.entries.map entryJson)),
      ("tls", Json.ofOption CoordinatorIdentity.toJson tls)] "tls" CoordinatorIdentity.decode
      = some tls := by
    cases tls with
    | none => rfl
    | some i =>
      show (CoordinatorIdentity.decode i.toJson).map some = _
      rw [CoordinatorIdentity.decode_toJson, Option.map_some]
  simp only [toJson, decode]
  have hstruct : Json.struct ["allow_legacy", "credentials", "tls"] 0
      (.obj [("allow_legacy", Json.bool allowLegacy),
        ("credentials", .obj (credentials.entries.map entryJson)),
        ("tls", Json.ofOption CoordinatorIdentity.toJson tls)]) = some _ :=
    Json.struct_obj rfl (by decide)
  rw [hstruct]
  simp only [Option.bind_eq_bind, Option.bind_some, htls]
  simp [Json.defaultField, Assoc.lookup_cons, Json.asBool, hcredentials]

/-- Secrets of different entries differ, ignoring case. -/
def Independent (a b : String × Option String) : Prop :=
  ∀ k k', a.2 = some k → b.2 = some k' → asciiLower k ≠ asciiLower k'

instance : Std.Symm Independent where
  symm _ _ h k k' hk hk' he := h k' k hk' hk he.symm

omit [Tls] in
theorem validateCredentials_ok (entries : List (String × Option String)) :
    ∀ keys : List String, validateCredentials keys entries = .ok () →
      (∀ e ∈ entries, ∀ k, e.2 = some k → validateCredential k = .ok () ∧ asciiLower k ∉ keys) ∧
        entries.Pairwise Independent := by
  induction entries with
  | nil => exact fun _ _ => ⟨by simp, .nil⟩
  | cons e rest ih =>
    intro keys h
    obtain ⟨id, key⟩ := e
    cases key with
    | none =>
      simp only [validateCredentials, bind_ok] at h
      obtain ⟨_, -, h⟩ := h
      obtain ⟨hfresh, hpair⟩ := ih keys h
      refine ⟨fun e he k hk => ?_, .cons (fun b _ k k' hk => ?_) hpair⟩
      · rcases List.mem_cons.mp he with rfl | he
        · cases hk
        · exact hfresh e he k hk
      · cases hk
    | some key =>
      simp only [validateCredentials, bind_ok, bailIf_ok] at h
      obtain ⟨_, -, _, hvalid, _, hnew, h⟩ := h
      obtain ⟨hfresh, hpair⟩ := ih _ h
      refine ⟨fun e he k hk => ?_, .cons (fun b hb k k' hk hk' => ?_) hpair⟩
      · rcases List.mem_cons.mp he with rfl | he
        · cases hk
          exact ⟨hvalid, hnew⟩
        · obtain ⟨hv, hk⟩ := hfresh e he k hk
          exact ⟨hv, fun hmem => hk (List.mem_cons_of_mem _ hmem)⟩
      · cases hk
        intro heq
        refine (hfresh b hb k' hk').2 ?_
        rw [← heq]
        exact List.mem_cons_self ..

/-- What `validate` promises of the identities. -/
structure Valid (p : AuthenticationPolicy) : Prop where
  tls : ∀ i, p.tls = some i → Tls.serverConfig i = .ok ()
  credential : ∀ id key, p.credentials.get? id = some (some key) → validateCredential key = .ok ()
  independent : ∀ id id' key key', p.credentials.get? id = some (some key) →
    p.credentials.get? id' = some (some key') → id ≠ id' → asciiLower key ≠ asciiLower key'

theorem validate_ok {p : AuthenticationPolicy} (h : p.validate = .ok ()) : p.Valid := by
  simp only [validate, bind_ok, bailIf_ok] at h
  obtain ⟨_, htls, _, -, hcredentials⟩ := h
  obtain ⟨hkey, hpair⟩ := validateCredentials_ok _ _ hcredentials
  refine ⟨fun i hi => ?_, fun id key hid => ?_, fun id id' key key' hid hid' hne => ?_⟩
  · rw [hi] at htls
    exact each_ok.mp htls i (by simp)
  · exact (hkey _ (SortedMap.mem_of_get? hid) key rfl).1
  · have hdistinct := hpair.forall (SortedMap.mem_of_get? hid) (SortedMap.mem_of_get? hid')
      fun he => hne (congrArg Prod.fst he)
    exact hdistinct _ _ rfl rfl

theorem parse_ok {value : Option Json} {p : AuthenticationPolicy} (h : parse value = .ok p) :
    decode (value.getD (.obj [])) = some p ∧ p.validate = .ok () := by
  simp only [parse, bind_ok, context_ok, pure_ok] at h
  obtain ⟨_, hdecode, _, hvalid, rfl⟩ := h
  exact ⟨hdecode, hvalid⟩

/-- What is stored is read back. -/
theorem parse_toJson {p : AuthenticationPolicy} (h : p.validate = .ok ()) :
    parse (some p.toJson) = .ok p := by
  simp only [parse, bind_ok, context_ok, pure_ok, Option.getD_some]
  exact ⟨p, decode_toJson p, (), h, rfl⟩

end AuthenticationPolicy

end Eef.Node.Authentication
