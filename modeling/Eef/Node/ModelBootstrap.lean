import Eef.Node.Listening
import Eef.Node.ModelServer

/-!
# Bootstrap preferences

`model_bootstrap.rs`: the owner's preferences about automatic model setup, the catalog entry
they are bound to, and the version under which they are saved. A version is the policy, a
revision and the digest of both; `preserve_revision` is the hook of every save that keeps the
revision counting.
-/

namespace Eef.Node.ModelBootstrap

open Eef.Lib
open Eef.Node.Listening (assign strip)
open Eef.Node.ModelServer (Server)

/-- `Mode`. -/
inductive Mode where
  | preserve
  | off
  | prompt
  | auto
  | managed
  deriving DecidableEq, Repr

/-- Derived `Serialize`. -/
def Mode.name : Mode → String
  | .preserve => "preserve"
  | .off => "off"
  | .prompt => "prompt"
  | .auto => "auto"
  | .managed => "managed"

/-- Derived `Deserialize`. -/
def Mode.decode (j : Json) : Option Mode :=
  match j.asVariant with
  | some "preserve" => some .preserve
  | some "off" => some .off
  | some "prompt" => some .prompt
  | some "auto" => some .auto
  | some "managed" => some .managed
  | _ => none

/-- `CatalogPin`. -/
structure CatalogPin where
  schemaVersion : Nat
  modelId : String
  definitionSha256 : String
  artifactSha256 : String
  artifactBytes : Nat
  sourceUriSha256 : String
  sourcePageSha256 : String
  declaredLicense : String
  deriving DecidableEq, Repr

namespace CatalogPin

/-- `CatalogPin::validate`. -/
def validate (p : CatalogPin) : Result Unit := do
  Server.validateId p.modelId
  ensure (p.schemaVersion = 1 ∧ hexDigest p.definitionSha256 ∧ hexDigest p.artifactSha256
    ∧ hexDigest p.sourceUriSha256 ∧ hexDigest p.sourcePageSha256 ∧ 1 ≤ p.artifactBytes
    ∧ p.artifactBytes ≤ i64Max ∧ p.declaredLicense ≠ "" ∧ p.declaredLicense.utf8ByteSize ≤ 256
    ∧ isTrimmed p.declaredLicense ∧ ¬p.declaredLicense.toList.any isControl)
    "Invalid saved bootstrap catalog binding; retain configuration"

@[inherit_doc Mode.name]
def toJson (p : CatalogPin) : Json :=
  .obj [("schema_version", .nat p.schemaVersion), ("model_id", .str p.modelId),
    ("definition_sha256", .str p.definitionSha256), ("artifact_sha256", .str p.artifactSha256),
    ("artifact_bytes", .nat p.artifactBytes), ("source_uri_sha256", .str p.sourceUriSha256),
    ("source_page_sha256", .str p.sourcePageSha256), ("declared_license", .str p.declaredLicense)]

@[inherit_doc Mode.decode]
def decode (j : Json) : Option CatalogPin := do
  let fs ← j.struct ["schema_version", "model_id", "definition_sha256", "artifact_sha256",
    "artifact_bytes", "source_uri_sha256", "source_page_sha256", "declared_license"] 8
  let schemaVersion ← Json.field fs "schema_version" (Json.asUInt 32)
  let modelId ← Json.field fs "model_id" Json.asStr
  let definitionSha256 ← Json.field fs "definition_sha256" Json.asStr
  let artifactSha256 ← Json.field fs "artifact_sha256" Json.asStr
  let artifactBytes ← Json.field fs "artifact_bytes" (Json.asUInt 64)
  let sourceUriSha256 ← Json.field fs "source_uri_sha256" Json.asStr
  let sourcePageSha256 ← Json.field fs "source_page_sha256" Json.asStr
  let declaredLicense ← Json.field fs "declared_license" Json.asStr
  return ⟨schemaVersion, modelId, definitionSha256, artifactSha256, artifactBytes,
    sourceUriSha256, sourcePageSha256, declaredLicense⟩

end CatalogPin

/-- `Policy`. -/
structure Policy where
  schemaVersion : Nat
  mode : Mode
  catalog : Option CatalogPin
  automation : Bool
  restartAfterSetup : Bool
  deriving DecidableEq, Repr

namespace Policy

/-- `Policy::default`. -/
def default : Policy := ⟨1, .preserve, none, false, false⟩

/-- `Policy::validate`. -/
def validate (p : Policy) : Result Unit := do
  ensure (p.schemaVersion = 1) "Unsupported bootstrap policy schema"
  each CatalogPin.validate p.catalog.toList

/-- Derived `Serialize`; the two opt-ins are left out where they are off. -/
def toJson (p : Policy) : Json :=
  .obj ([("schema_version", .nat p.schemaVersion), ("mode", .str p.mode.name),
      ("catalog", Json.ofOption CatalogPin.toJson p.catalog)]
    ++ (if p.automation then [("automation", .bool true)] else [])
    ++ (if p.restartAfterSetup then [("restart_after_setup", .bool true)] else []))

@[inherit_doc Mode.decode]
def decode (j : Json) : Option Policy := do
  let fs ← j.struct ["schema_version", "mode", "catalog", "automation", "restart_after_setup"] 0
  let schemaVersion ← Json.defaultField fs "schema_version" (Json.asUInt 32) 1
  let mode ← Json.defaultField fs "mode" Mode.decode .preserve
  let catalog ← Json.optField fs "catalog" CatalogPin.decode
  let automation ← Json.defaultField fs "automation" Json.asBool false
  let restartAfterSetup ← Json.defaultField fs "restart_after_setup" Json.asBool false
  return ⟨schemaVersion, mode, catalog, automation, restartAfterSetup⟩

/-- `Policy::from_config`. -/
def fromConfig (config : Json) : Result Policy := do
  let policy ← context (decode ((config.get? "model_bootstrap").getD (.obj [])))
    "invalid bootstrap policy"
  policy.validate
  return policy

end Policy

/-- `Saved`: a version of the policy. -/
structure Saved where
  policy : Policy
  revision : Nat
  digest : String
  deriving DecidableEq, Repr

namespace Saved

variable [Sha256]

/-- `Saved::new`. -/
def new (policy : Policy) (revision : Nat) : Result Saved := do
  policy.validate
  return ⟨policy, revision,
    Sha256.definition (.obj [("policy", policy.toJson), ("revision", .nat revision)])⟩

/-- `Saved::validate`. -/
def validate (s : Saved) : Result Unit := do
  let version ← new s.policy s.revision
  bailIf (s ≠ version) "Unconfirmed bootstrap policy version"

/-- The revision member of a configuration. -/
def revisionFromConfig (config : Json) : Result Nat :=
  match config.get? "model_bootstrap_revision" with
  | none => .ok 0
  | some v => context (v.asUInt 64) "Invalid bootstrap policy revision; retain configuration"

/-- `Saved::from_config`. -/
def fromConfig (config : Json) : Result Saved := do
  let revision ← revisionFromConfig config
  let policy ← Policy.fromConfig config
  new policy revision

end Saved

/-! ## The hook of a save -/

/-- `u64::checked_add(1)`. -/
def checkedSucc (n : Nat) (msg : String) : Result Nat :=
  if n < u64Max then .ok (n + 1) else .error msg

/-- The revision member that is saved: the one that came in is dropped. -/
def storeRevision (key : String) (old next : Json) (revision : Nat) : Result Json :=
  if revision ≠ 0 ∨ (old.get? key).isSome then assign next key (.nat revision)
  else .ok (strip next key)

/-- A document that omits the policy keeps the old one. -/
def keepPolicy (old next : Json) : Result Json :=
  match next.get? "model_bootstrap", old.get? "model_bootstrap" with
  | none, some policy => assign next "model_bootstrap" policy
  | _, _ => .ok next

/-- A version that cannot be read is carried over. -/
def carryOver (old next : Json) : Result Json := do
  bailIf (next.get? "model_bootstrap" ≠ old.get? "model_bootstrap")
    "Unsupported bootstrap policy cannot be replaced by a generic save"
  match old.get? "model_bootstrap_revision" with
  | some revision => assign next "model_bootstrap_revision" revision
  | none => .ok (strip next "model_bootstrap_revision")

/-- A policy under which the backend sets up a model of its own accord. -/
def Policy.enabled (p : Policy) : Bool := p.automation && p.mode == .auto

/-- The revision of the policy that comes in: it counts the changes. -/
def Saved.next (previous : Saved) (incoming : Policy) : Result Nat :=
  if incoming = previous.policy then .ok previous.revision
  else checkedSucc previous.revision "Bootstrap revision exhausted; no wrap/reset"

/-- `preserve_revision`: the document that is saved for `next`. -/
def preserveRevision [Sha256] (old next : Json) (authorized : Bool) : Result Json := do
  let next ← keepPolicy old next
  match Saved.fromConfig old with
  | .error _ => carryOver old next
  | .ok previous => do
    let incoming ← Policy.fromConfig next
    bailIf (¬authorized ∧ incoming.enabled ∧ incoming ≠ previous.policy)
      "Use model-bootstrap-policy configure with current runtime and policy version to authorize automatic setup; a generic save cannot enable or retarget it"
    let revision ← previous.next incoming
    storeRevision "model_bootstrap_revision" old next revision

/-! ## What a save makes of the version -/

theorem policy_congr {c c' : Json} (h : c'.get? "model_bootstrap" = c.get? "model_bootstrap") :
    Policy.fromConfig c' = Policy.fromConfig c := by
  unfold Policy.fromConfig
  rw [h]

theorem asUInt_lt {width n : Nat} {j : Json} (h : j.asUInt width = some n) : n < 2 ^ width := by
  unfold Json.asUInt at h
  split at h
  · split at h
    · cases h
      assumption
    · cases h
  · cases h

theorem Saved.revision_le {config : Json} {revision : Nat}
    (h : Saved.revisionFromConfig config = .ok revision) : revision ≤ u64Max := by
  unfold Saved.revisionFromConfig at h
  split at h
  · cases h
    exact Nat.zero_le _
  · rw [context_ok] at h
    have := asUInt_lt h
    unfold u64Max
    omega

variable {old next saved : Json}

theorem storeRevision_get? {key : String} {revision : Nat}
    (h : storeRevision key old next revision = .ok saved) (k : String) (hk : k ≠ key) :
    saved.get? k = next.get? k := by
  unfold storeRevision at h
  split at h
  · rw [Listening.get?_assign h, if_neg hk]
  · cases h
    rw [Listening.get?_strip, if_neg hk]

/-- The member reads back as the revision, or is absent for zero. -/
theorem storeRevision_key {key : String} {revision : Nat}
    (h : storeRevision key old next revision = .ok saved) :
    saved.get? key = some (.nat revision) ∨ (saved.get? key = none ∧ revision = 0) := by
  unfold storeRevision at h
  split at h
  · rw [Listening.get?_assign h, if_pos rfl]
    exact Or.inl rfl
  · rename_i hzero
    push Not at hzero
    cases h
    rw [Listening.get?_strip, if_pos rfl]
    exact Or.inr ⟨rfl, hzero.1⟩

theorem keepPolicy_ok {mid : Json} (h : keepPolicy old next = .ok mid) :
    (∀ k, k ≠ "model_bootstrap" → mid.get? k = next.get? k) ∧
      (next.get? "model_bootstrap" = none →
        mid.get? "model_bootstrap" = old.get? "model_bootstrap") ∧
      (next.get? "model_bootstrap" ≠ none →
        mid.get? "model_bootstrap" = next.get? "model_bootstrap") := by
  unfold keepPolicy at h
  split at h
  · rename_i policy hnext hold
    refine ⟨fun k hk => ?_, fun _ => ?_, fun hne => absurd hnext hne⟩
    · rw [Listening.get?_assign h, if_neg hk]
    · rw [Listening.get?_assign h, if_pos rfl, hold]
  · rename_i hno
    cases h
    refine ⟨fun _ _ => rfl, fun hnone => ?_, fun _ => rfl⟩
    rw [hnone]
    cases hold : old.get? "model_bootstrap" with
    | none => rfl
    | some policy => exact absurd hold (hno policy hnone)

variable [Sha256]

theorem saved_congr {c c' : Json} (h : c'.get? "model_bootstrap" = c.get? "model_bootstrap")
    (hr : c'.get? "model_bootstrap_revision" = c.get? "model_bootstrap_revision") :
    Saved.fromConfig c' = Saved.fromConfig c := by
  unfold Saved.fromConfig Saved.revisionFromConfig
  rw [policy_congr h, hr]

theorem Saved.new_ok {policy : Policy} {revision : Nat} {s : Saved}
    (h : Saved.new policy revision = .ok s) :
    policy.validate = .ok () ∧ s.policy = policy ∧ s.revision = revision ∧
      s.digest = Sha256.definition (.obj [("policy", policy.toJson), ("revision", .nat revision)]) := by
  simp only [Saved.new, bind_ok, pure_ok] at h
  obtain ⟨_, hvalid, rfl⟩ := h
  exact ⟨hvalid, rfl, rfl, rfl⟩

theorem Saved.fromConfig_ok {config : Json} {s : Saved} (h : Saved.fromConfig config = .ok s) :
    Saved.revisionFromConfig config = .ok s.revision ∧ Policy.fromConfig config = .ok s.policy ∧
      s.revision ≤ u64Max := by
  simp only [Saved.fromConfig, bind_ok] at h
  obtain ⟨revision, hr, policy, hp, hnew⟩ := h
  obtain ⟨-, hpolicy, hrevision, -⟩ := Saved.new_ok hnew
  rw [hpolicy, hrevision]
  exact ⟨hr, hp, Saved.revision_le hr⟩

/-- A version is read where its policy and its revision are. -/
theorem Saved.fromConfig_of {config : Json} {policy : Policy} {revision : Nat}
    (hr : Saved.revisionFromConfig config = .ok revision)
    (hp : Policy.fromConfig config = .ok policy) :
    ∃ s, Saved.fromConfig config = .ok s ∧ s.policy = policy ∧ s.revision = revision := by
  have hvalid : policy.validate = .ok () := by
    simp only [Policy.fromConfig, bind_ok, pure_ok] at hp
    obtain ⟨_, -, _, hvalid, rfl⟩ := hp
    exact hvalid
  let digest := Sha256.definition (.obj [("policy", policy.toJson), ("revision", .nat revision)])
  refine ⟨⟨policy, revision, digest⟩, ?_, rfl, rfl⟩
  simp only [Saved.fromConfig, Saved.new, bind_ok, pure_ok]
  exact ⟨revision, hr, policy, hp, (), hvalid, rfl⟩

/-- What a save makes of a version that can be read. -/
structure Advanced (old saved : Json) (authorized : Bool) (before after : Saved) : Prop where
  read : Saved.fromConfig old = .ok before
  written : Saved.fromConfig saved = .ok after
  counted : after.revision = if after.policy = before.policy then before.revision
    else before.revision + 1
  enabled : authorized = false → after.policy.enabled → after.policy = before.policy

/-- What a save makes of one that cannot. -/
structure Carried (old saved : Json) : Prop where
  policy : saved.get? "model_bootstrap" = old.get? "model_bootstrap"
  revision : saved.get? "model_bootstrap_revision" = old.get? "model_bootstrap_revision"

/-- The hook keeps the version counting, or carries it over, and touches no other member. -/
theorem preserveRevision_ok {authorized : Bool}
    (h : preserveRevision old next authorized = .ok saved) :
    ((∃ before after, Advanced old saved authorized before after) ∨
      ((∃ msg, Saved.fromConfig old = .error msg) ∧ Carried old saved)) ∧
    ∀ k, k ≠ "model_bootstrap" → k ≠ "model_bootstrap_revision" → saved.get? k = next.get? k := by
  simp only [preserveRevision, bind_ok] at h
  obtain ⟨mid, hmid, h⟩ := h
  obtain ⟨hother, hnone, hsome⟩ := keepPolicy_ok hmid
  cases hold : Saved.fromConfig old with
  | error msg =>
    simp only [hold, carryOver, bind_ok, bailIf_ok, not_not] at h
    obtain ⟨_, hsame, h⟩ := h
    split at h
    · rename_i revision hr
      refine ⟨Or.inr ⟨⟨msg, rfl⟩, ?_, ?_⟩, fun k hk hk' => ?_⟩
      · rw [Listening.get?_assign h, if_neg (by decide), hsame]
      · rw [Listening.get?_assign h, if_pos rfl, hr]
      · rw [Listening.get?_assign h, if_neg hk', hother k hk]
    · rename_i hr
      cases h
      refine ⟨Or.inr ⟨⟨msg, rfl⟩, ?_, ?_⟩, fun k hk hk' => ?_⟩
      · rw [Listening.get?_strip, if_neg (by decide), hsame]
      · rw [Listening.get?_strip, if_pos rfl, hr]
      · rw [Listening.get?_strip, if_neg hk', hother k hk]
  | ok before =>
    simp only [hold, bind_ok, bailIf_ok, not_and, not_not] at h
    obtain ⟨incoming, hin, _, hallowed, revision, hrevision, hstore⟩ := h
    have hpolicy : Policy.fromConfig saved = .ok incoming :=
      (policy_congr (storeRevision_get? hstore _ (by decide))).trans hin
    obtain ⟨-, -, hle⟩ := Saved.fromConfig_ok hold
    have hcount : revision = (if incoming = before.policy then before.revision
        else before.revision + 1) ∧ revision < 2 ^ 64 := by
      unfold u64Max at hle
      unfold Saved.next at hrevision
      split at hrevision
      · rename_i hsame
        rw [if_pos hsame]
        cases hrevision
        exact ⟨rfl, by omega⟩
      · rename_i hne
        rw [if_neg hne]
        unfold checkedSucc u64Max at hrevision
        split at hrevision
        · cases hrevision
          exact ⟨rfl, by omega⟩
        · cases hrevision
    have hread : Saved.revisionFromConfig saved = .ok revision := by
      unfold Saved.revisionFromConfig
      rcases storeRevision_key hstore with hk | ⟨hk, rfl⟩
      · simp only [hk, Json.asUInt_nat hcount.2]
        rfl
      · simp only [hk]
    obtain ⟨after, hafter, rfl, rfl⟩ := Saved.fromConfig_of hread hpolicy
    refine ⟨Or.inl ⟨before, after, hold, hafter, hcount.1, ?_⟩, fun k hk hk' => ?_⟩
    · exact fun hno hen => hallowed (by simp [hno]) hen
    · rw [storeRevision_get? hstore k hk', hother k hk]

end Eef.Node.ModelBootstrap
