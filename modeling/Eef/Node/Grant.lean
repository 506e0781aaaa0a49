import Eef.Node.Identity

/-!
# Execution grants and their control scope

The records of `grants.rs` and `grant_stop.rs` that the ledger is about: one
exact operation an issuer allows (`ExecutionGrant`), the owner's bounds
(`GrantPolicy`), and the bounded control identity of a grant (`Scope`), which a
stop request carries instead of the grant itself.
-/

namespace Eef.Node

open Eef.Lib

/-- `MAX_DURATION_MS`. -/
def maxDurationMs : Nat := 30000

/-- `REPORT_HEADROOM`: report identity, flags and error, beside its output. -/
def reportHeadroom : Nat := 8192

/-- `context::RequestContext`. -/
structure RequestContext where
  requestId : String
  originNode : String
  originArea : List String
  deriving DecidableEq, Repr

/-- `context::validate_area`. -/
def validArea (area : List String) : Bool :=
  area.length ≤ 16 && area.all fun part =>
    part.toList.any (!isWhitespace ·) && part.utf8ByteSize ≤ 128
      && !(part.toList.contains '/') && !(part.toList.any isControl)

/-- `RequestContext::new`. -/
def RequestContext.new (requestId originNode : String) (originArea : List String) :
    Result RequestContext := do
  bailIf (requestId = "" ∨ requestId.utf8ByteSize > 128 ∨ originNode = ""
    ∨ originNode.utf8ByteSize > 128) "invalid request identity"
  ensure (validArea originArea)
    "area must have at most 16 nonempty levels without slashes or control characters"
  return { requestId, originNode, originArea }

/-- `GrantLimits`. -/
structure GrantLimits where
  maxExecutionMs : Nat
  maxResultBytes : Nat
  deriving DecidableEq, Repr

/-- `GrantPolicy`: the owner's bounds on the journal and on one grant. -/
structure GrantPolicy where
  maxReceipts : Nat
  maxJournalBytes : Nat
  maxDurationMs : Nat
  maxResultBytes : Nat
  deriving DecidableEq, Repr

/-- `GrantPolicy::validate`. -/
def GrantPolicy.validate (p : GrantPolicy) : Result Unit :=
  ensure ((1 ≤ p.maxReceipts ∧ p.maxReceipts ≤ 100000)
    ∧ (64 * 1024 ≤ p.maxJournalBytes ∧ p.maxJournalBytes ≤ 64 * 1024 * 1024)
    ∧ (1 ≤ p.maxDurationMs ∧ p.maxDurationMs ≤ Eef.Node.maxDurationMs)
    ∧ (1024 ≤ p.maxResultBytes ∧ p.maxResultBytes ≤ 1024 * 1024))
    "Invalid grant receipt/duration/result bounds"

/-- `GrantPolicy::default`. -/
def GrantPolicy.default : GrantPolicy where
  maxReceipts := 4096
  maxJournalBytes := 8 * 1024 * 1024
  maxDurationMs := Eef.Node.maxDurationMs
  maxResultBytes := 64 * 1024

theorem GrantPolicy.default_valid : GrantPolicy.default.validate = .ok () := by decide

/-- `ExecutionGrant`: one exact operation, its issuer, executor and bounds. -/
structure ExecutionGrant where
  schemaVersion : Nat
  grantId : String
  issuerId : String
  sessionId : String
  executorNode : String
  jobId : String
  taskId : String
  attempt : Nat
  planSha256 : String
  requestContext : RequestContext
  capability : String
  action : String
  params : Json
  resourceId : Option String
  modelId : Option String
  backend : Option String
  modelRole : Option String
  priority : Int
  limits : GrantLimits
  reporting : String
  issuedAtMs : Nat
  expiresAtMs : Nat
  deriving DecidableEq, Repr

/-- An integer as `serde_json` represents it. -/
def intJson : Int → Json
  | .ofNat n => .num (.posInt n)
  | .negSucc n => .num (.negInt n)

/-- Derived `Serialize` of `RequestContext`. -/
def RequestContext.toJson (c : RequestContext) : Json :=
  .obj [("request_id", .str c.requestId), ("origin_node", .str c.originNode),
    ("origin_area", .arr (c.originArea.map .str))]

/-- `json!(grant)`. -/
def ExecutionGrant.toJson (g : ExecutionGrant) : Json :=
  .obj [("schema_version", .nat g.schemaVersion), ("grant_id", .str g.grantId),
    ("issuer_id", .str g.issuerId), ("session_id", .str g.sessionId),
    ("executor_node", .str g.executorNode), ("job_id", .str g.jobId),
    ("task_id", .str g.taskId), ("attempt", .nat g.attempt),
    ("plan_sha256", .str g.planSha256), ("request_context", g.requestContext.toJson),
    ("capability", .str g.capability), ("action", .str g.action), ("params", g.params),
    ("resource_id", Json.ofOption .str g.resourceId), ("model_id", Json.ofOption .str g.modelId),
    ("backend", Json.ofOption .str g.backend), ("model_role", Json.ofOption .str g.modelRole),
    ("priority", intJson g.priority),
    ("limits", .obj [("max_execution_ms", .nat g.limits.maxExecutionMs),
      ("max_result_bytes", .nat g.limits.maxResultBytes)]),
    ("reporting", .str g.reporting), ("issued_at_ms", .nat g.issuedAtMs),
    ("expires_at_ms", .nat g.expiresAtMs)]

/-- `definition_digest(&json!(g))`. -/
def ExecutionGrant.digest [Sha256] (g : ExecutionGrant) : String := Sha256.definition g.toJson

/-- `stop::Scope`: bounded control identity only. -/
structure Scope where
  grantId : String
  grantSha256 : String
  issuerId : String
  sessionId : String
  executorNode : String
  jobId : String
  taskId : String
  attempt : Nat
  deriving DecidableEq, Repr

/-- `Scope::validate`. -/
def Scope.validate (s : Scope) : Result Unit := do
  validateUuid s.grantId
  validateUuid s.sessionId
  validateRemoteNodeId s.executorNode
  validateDraftId s.jobId
  validateDraftId s.taskId
  ensure (hexDigest s.grantSha256 ∧ hexDigest s.issuerId ∧ 1 ≤ s.attempt ∧ s.attempt ≤ 11)
    "Invalid grant-stop control scope"

/-- What a validated scope guarantees. -/
structure Scope.Valid (s : Scope) : Prop where
  grantId : uuid s.grantId = true
  sessionId : uuid s.sessionId = true
  executorNode : remoteNodeId s.executorNode = true
  jobId : draftId s.jobId = true
  taskId : draftId s.taskId = true
  grantSha256 : hexDigest s.grantSha256 = true
  issuerId : hexDigest s.issuerId = true
  attempt_pos : 1 ≤ s.attempt
  attempt_le : s.attempt ≤ 11

theorem Scope.validate_ok {s : Scope} {u : Unit} : s.validate = .ok u ↔ s.Valid := by
  simp only [Scope.validate, bind_ok, validateUuid_ok, validateRemoteNodeId_ok, validateDraftId_ok,
    ensure_ok, exists_and_left, exists_const]
  constructor
  · rintro ⟨h1, h2, h3, h4, h5, h6, h7, h8, h9⟩
    exact ⟨h1, h2, h3, h4, h5, h6, h7, h8, h9⟩
  · rintro ⟨h1, h2, h3, h4, h5, h6, h7, h8, h9⟩
    exact ⟨h1, h2, h3, h4, h5, h6, h7, h8, h9⟩

/-- `Scope::matches_session`. -/
def Scope.matchesSession (s : Scope) (issuer session node : String) : Bool :=
  s.issuerId == issuer && s.sessionId == session && s.executorNode == node

/-- The scope fields of a grant; `Scope::from_grant` validates the grant first. -/
def ExecutionGrant.scope [Sha256] (g : ExecutionGrant) : Scope where
  grantId := g.grantId
  grantSha256 := g.digest
  issuerId := g.issuerId
  sessionId := g.sessionId
  executorNode := g.executorNode
  jobId := g.jobId
  taskId := g.taskId
  attempt := g.attempt

/-! ## A grant to evaluate -/

/-- The grant the source's tests start from (`grants::tests::grant`), with fixed
identities and times. -/
def sampleGrant : ExecutionGrant where
  schemaVersion := 1
  grantId := "11111111-1111-4111-8111-111111111111"
  issuerId := "aaaaaaaaaaaaaaaaaaaaaaaaaaaaaaaaaaaaaaaaaaaaaaaaaaaaaaaaaaaaaaaa"
  sessionId := "22222222-2222-4222-8222-222222222222"
  executorNode := "owner"
  jobId := "33333333333343338333333333333333"
  taskId := "44444444444444448444444444444444"
  attempt := 1
  planSha256 := "bbbbbbbbbbbbbbbbbbbbbbbbbbbbbbbbbbbbbbbbbbbbbbbbbbbbbbbbbbbbbbbb"
  requestContext := ⟨"55555555-5555-4555-8555-555555555555", "owner", ["Room"]⟩
  capability := "system.ping"
  action := "run"
  params := .obj []
  resourceId := none
  modelId := none
  backend := none
  modelRole := none
  priority := 0
  limits := ⟨5000, 65536⟩
  reporting := "acceptance_and_completion"
  issuedAtMs := 999
  expiresAtMs := 11000

theorem sampleGrant_planSha256 : hexDigest sampleGrant.planSha256 = true := by decide

/-- Its control scope, under its SHA-256 digest. -/
def sampleScope : Scope where
  grantId := sampleGrant.grantId
  grantSha256 := "5b6404bdb5ff5aeca0ef4a1fa75782cefeed5e5729fab1c711cebc019cae863a"
  issuerId := sampleGrant.issuerId
  sessionId := sampleGrant.sessionId
  executorNode := sampleGrant.executorNode
  jobId := sampleGrant.jobId
  taskId := sampleGrant.taskId
  attempt := 1

theorem sampleScope_grantSha256 : hexDigest sampleScope.grantSha256 = true := by decide

end Eef.Node
