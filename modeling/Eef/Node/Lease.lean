import Eef.Node.Grant
import Eef.Lib.Run

/-!
# Workload leases

`workload_leases.rs` and `workload_reporting.rs`: the issuer's window, the node's
probe and proof, and the node's window with its reporting lifetime. Instants are
nanoseconds on one monotonic time base; every reading of `Instant::now()` is an
argument of the function that makes it, in the order of the source.
-/

namespace Eef.Node

open Eef.Lib

/-- `Duration::from_millis`, in nanoseconds. -/
def millis (n : Nat) : Nat := n * 1000000

/-- The last representable `Instant`: 64-bit seconds and their nanoseconds. -/
def instantMax : Nat := (2 ^ 63 - 1) * 1000000000 + 999999999

def u64Max : Nat := 2 ^ 64 - 1

/-- `MAX_SESSION_MS`. -/
def maxSessionMs : Nat := 86400000

/-- `MAX_LEASE_MS`. -/
def maxLeaseMs : Nat := 30000

/-- `PROBE_TIMEOUT`. -/
def probeTimeout : Nat := millis 2000

/-- `workload_leases::Policy`. -/
structure LeasePolicy where
  enabled : Bool
  maxSessionMs : Nat
  maxLeaseMs : Nat
  deriving DecidableEq, Repr

/-- `Policy::validate`. -/
def LeasePolicy.validate (p : LeasePolicy) : Result Unit :=
  ensure ((1 ≤ p.maxSessionMs ∧ p.maxSessionMs ≤ Eef.Node.maxSessionMs)
    ∧ (1 ≤ p.maxLeaseMs ∧ p.maxLeaseMs ≤ Eef.Node.maxLeaseMs) ∧ p.maxLeaseMs ≤ p.maxSessionMs)
    "Invalid workload lease policy"

/-- `Contract`. -/
structure Contract where
  schemaVersion : Nat
  scope : Scope
  maxSessionMs : Nat
  maxLeaseMs : Nat
  deriving DecidableEq, Repr

/-- `Contract::validate`. -/
def Contract.validate (c : Contract) : Result Unit := do
  c.scope.validate
  ensure (c.schemaVersion = 2
    ∧ (1 ≤ c.maxSessionMs ∧ c.maxSessionMs ≤ Eef.Node.maxSessionMs)
    ∧ (1 ≤ c.maxLeaseMs ∧ c.maxLeaseMs ≤ Eef.Node.maxLeaseMs) ∧ c.maxLeaseMs ≤ c.maxSessionMs)
    "Invalid workload lease contract"

/-- `json!(scope)`. -/
def Scope.toJson (s : Scope) : Json :=
  .obj [("grant_id", .str s.grantId), ("grant_sha256", .str s.grantSha256),
    ("issuer_id", .str s.issuerId), ("session_id", .str s.sessionId),
    ("executor_node", .str s.executorNode), ("job_id", .str s.jobId), ("task_id", .str s.taskId),
    ("attempt", .nat s.attempt)]

def Contract.toJson (c : Contract) : Json :=
  .obj [("schema_version", .nat c.schemaVersion), ("scope", c.scope.toJson),
    ("max_session_ms", .nat c.maxSessionMs), ("max_lease_ms", .nat c.maxLeaseMs)]

/-- `Contract::permitted`. -/
def Contract.permitted (c : Contract) (p : LeasePolicy) : Result Unit := do
  c.validate
  p.validate
  ensure (p.enabled ∧ c.maxSessionMs ≤ p.maxSessionMs ∧ c.maxLeaseMs ≤ p.maxLeaseMs)
    "Workload leases disabled or outside local bounds"

/-- `Query`. -/
structure Query where
  kind : String
  schemaVersion : Nat
  id : String
  contract : Contract
  sequence : Nat
  deriving DecidableEq, Repr

/-- `Query::validate`. -/
def Query.validate (q : Query) : Result Unit := do
  q.contract.validate
  validateUuid q.id
  ensure (q.kind = "workload_lease_probe" ∧ q.schemaVersion = 2 ∧ 0 < q.sequence)
    "Invalid workload lease probe"

/-- `Reply`. -/
structure Reply where
  kind : String
  schemaVersion : Nat
  id : String
  contractSha256 : String
  sequence : Nat
  leaseRemainingMs : Nat
  sessionRemainingMs : Nat
  deriving DecidableEq, Repr

section
variable [Sha256]

/-- `Contract::digest`. -/
def Contract.digest (c : Contract) : Result String := do
  c.validate
  return Sha256.definition c.toJson

/-! ## The issuer -/

/-- `IssuerWindow`. -/
structure IssuerWindow where
  contract : Contract
  deadline : Nat
  nextSequence : Nat
  consumed : Bool
  stopped : Bool
  deriving DecidableEq, Repr

namespace IssuerWindow

/-- `IssuerWindow::new`. -/
def new (contract : Contract) (policy : LeasePolicy) (issuedDeadline now : Nat) :
    Result IssuerWindow := do
  contract.permitted policy
  ensure (now < issuedDeadline ∧ issuedDeadline - now ≤ millis contract.maxSessionMs)
    "Issuer session exceeds recorded bounds"
  return { contract, deadline := issuedDeadline, nextSequence := 1, consumed := false,
           stopped := false }

/-- `IssuerWindow::acknowledge_consumed`. -/
def acknowledgeConsumed (w : IssuerWindow) (scope : Scope) (now : Nat) : Result IssuerWindow := do
  ensure (w.stopped = false ∧ w.consumed = false ∧ w.nextSequence = 2 ∧ now < w.deadline
    ∧ scope = w.contract.scope) "Consumed acknowledgement scope or lifecycle changed"
  return { w with consumed := true }

/-- `IssuerWindow::stop`. -/
def stop (w : IssuerWindow) : IssuerWindow := { w with stopped := true }

/-- `IssuerWindow::close_after_report`. -/
def closeAfterReport (w : IssuerWindow) (scope : Scope) (sequence now : Nat) :
    Result (IssuerWindow × Nat) := do
  ensure (w.stopped = false ∧ w.consumed = true ∧ now < w.deadline ∧ scope = w.contract.scope
    ∧ 0 < sequence ∧ sequence < w.nextSequence)
    "Completion differs from the consumed issuer or its issued lease sequence"
  return ({ w with stopped := true }, w.nextSequence - 1)

/-- `IssuerWindow::reply`: `checked` is the instant of the admission test, `read`
that of the remaining time. -/
def reply (w : IssuerWindow) (q : Query) (issuer session node : String) (checked read : Nat) :
    Result (IssuerWindow × Reply) := do
  q.validate
  let theirs ← q.contract.digest
  let ours ← w.contract.digest
  ensure (w.stopped = false ∧ checked < w.deadline
    ∧ w.contract.scope.matchesSession issuer session node ∧ theirs = ours
    ∧ q.sequence = w.nextSequence ∧ (q.sequence = 1 ∨ w.consumed = true))
    "Issuer lease scope, sequence or admission changed"
  let remainingMs := min ((w.deadline - read) / 1000000) u64Max
  let windowMs := min remainingMs w.contract.maxLeaseMs
  ensure (5 + windowMs / 100 < windowMs) "Issuer lease has no conservative budget"
  ensure (w.nextSequence < u64Max) "Issuer lease sequence exhausted"
  return ({ w with nextSequence := w.nextSequence + 1 },
    { kind := "workload_lease", schemaVersion := 2, id := q.id, contractSha256 := ours,
      sequence := q.sequence, leaseRemainingMs := windowMs, sessionRemainingMs := remainingMs })

end IssuerWindow

/-! ## The node's proof -/

/-- `Reply::matches`. -/
def Reply.matches (r : Reply) (q : Query) : Bool :=
  r.kind == "workload_lease" && r.schemaVersion == 2 && r.id == q.id && r.sequence == q.sequence
    && match q.contract.digest with
      | .ok digest => digest == r.contractSha256
      | .error _ => false

/-- `LeaseProof`. -/
structure LeaseProof where
  contractSha256 : String
  sequence : Nat
  deadline : Nat
  sessionDeadline : Nat
  deriving DecidableEq, Repr

/-- The conservative deadline of `LeaseProof::confirm`: from the send time, less
5 ms and one percent. -/
def conservativeDeadline (sent ms : Nat) : Result Nat := do
  ensure (5 + ms / 100 < ms) "No conservative workload lease budget"
  ensure (sent + millis (ms - (5 + ms / 100)) ≤ instantMax) "Workload lease time overflow"
  return sent + millis (ms - (5 + ms / 100))

/-- `LeaseProof::confirm`, with its three readings of the clock. -/
def LeaseProof.confirm (q : Query) (r : Reply) (sent arrived elapsed done : Nat) :
    Result LeaseProof := do
  q.validate
  ensure (r.matches q ∧ sent ≤ arrived ∧ elapsed - sent < probeTimeout)
    "Workload lease scope changed or challenge expired"
  ensure (0 < r.leaseRemainingMs ∧ r.leaseRemainingMs ≤ q.contract.maxLeaseMs
    ∧ r.leaseRemainingMs ≤ r.sessionRemainingMs ∧ r.sessionRemainingMs ≤ q.contract.maxSessionMs)
    "Workload lease widened its contract"
  let contractSha256 ← q.contract.digest
  let deadline ← conservativeDeadline sent r.leaseRemainingMs
  let sessionDeadline ← conservativeDeadline sent r.sessionRemainingMs
  ensure (done < min deadline sessionDeadline) "Workload lease round trip consumed its budget"
  return { contractSha256, sequence := q.sequence, deadline, sessionDeadline }

/-! ## The node's window -/

/-- `Window`. -/
structure Window where
  digest : String
  sequence : Nat
  deadline : Nat
  sessionDeadline : Nat
  deriving DecidableEq, Repr

namespace Window

/-- `Window::live` at an instant. -/
def liveAt (w : Window) (now : Nat) : Prop := now < min w.deadline w.sessionDeadline

instance (w : Window) (now : Nat) : Decidable (w.liveAt now) :=
  inferInstanceAs (Decidable (_ < _))

/-- `Window::live`. -/
def live (w : Window) (now : Nat) : Result Unit := ensure (w.liveAt now) "Workload lease expired"

/-- `Window::new`. -/
def new (contract : Contract) (policy : LeasePolicy) (proof : LeaseProof) (now : Nat) :
    Result Window := do
  contract.permitted policy
  let digest ← contract.digest
  ensure (proof.contractSha256 = digest ∧ proof.sequence = 1)
    "Initial workload lease scope changed"
  let result : Window :=
    { digest := proof.contractSha256, sequence := 1, deadline := proof.deadline,
      sessionDeadline := proof.sessionDeadline }
  result.live now
  return result

/-- `Window::advance`, up to the reporting lifetime. -/
def advance (w : Window) (proof : LeaseProof) (checked now : Nat) : Result Window := do
  w.live checked
  ensure (proof.contractSha256 = w.digest ∧ w.sequence < u64Max ∧ proof.sequence = w.sequence + 1)
    "Workload renewal scope, replay or sequence changed"
  let sessionDeadline := min w.sessionDeadline proof.sessionDeadline
  ensure (now < min proof.deadline sessionDeadline) "Workload renewal already expired"
  return { w with sequence := proof.sequence, deadline := proof.deadline, sessionDeadline }

end Window

/-! ## The reporting lifetime -/

/-- `reporting::State`. -/
structure Reporting where
  contractSha256 : String
  started : Bool
  retired : Bool
  sequence : Nat
  deadline : Option Nat
  deriving DecidableEq, Repr

/-- `Checkpoint`, less the authority it was taken from. -/
structure Checkpoint where
  contractSha256 : String
  sequence : Nat
  deadline : Nat
  deriving DecidableEq, Repr

namespace Reporting

/-- `ReportingAuthority::new`. -/
def new (contract : Contract) : Result Reporting := do
  let contractSha256 ← contract.digest
  return { contractSha256, started := false, retired := false, sequence := 0, deadline := none }

/-- `ReportingAuthority::checkpoint`. -/
def checkpoint (s : Reporting) (contract : Contract) (now : Nat) : Result Checkpoint := do
  let digest ← contract.digest
  ensure (s.contractSha256 = digest ∧ s.started = true ∧ s.retired = false)
    "Reporting runner is not active for this contract"
  let deadline ← context s.deadline "Reporting window unavailable"
  ensure (now < deadline) "Reporting lease expired"
  return { contractSha256 := digest, sequence := s.sequence, deadline }

/-- `ReportingAuthority::retire`, on drop of the guard. -/
def retire (s : Reporting) : Reporting := { s with retired := true, deadline := none }

/-- `Guard::bind`. -/
def bind (s : Reporting) (w : Window) (now : Nat) : Result Reporting := do
  ensure (s.contractSha256 = w.digest ∧ s.started = false ∧ s.retired = false)
    "Reporting lifetime cannot bind another runner"
  w.live now
  return { s with started := true, sequence := w.sequence,
                  deadline := some (min w.deadline w.sessionDeadline) }

/-- `Guard::advance`. -/
def advance (s : Reporting) (w : Window) (now : Nat) : Result Reporting := do
  ensure (s.contractSha256 = w.digest ∧ s.started = true ∧ s.retired = false
    ∧ s.sequence < u64Max ∧ s.sequence + 1 = w.sequence)
    "Reporting renewal scope or lifecycle changed"
  w.live now
  return { s with sequence := w.sequence, deadline := some (min w.deadline w.sessionDeadline) }

end Reporting

/-- `Checkpoint::check` against the authority's state. -/
def Checkpoint.check (c : Checkpoint) (s : Reporting) (contract : Contract) (now : Nat) :
    Result Unit := do
  let digest ← contract.digest
  ensure (digest = c.contractSha256) "Reporting checkpoint scope changed"
  ensure (s.contractSha256 = c.contractSha256 ∧ s.started = true ∧ s.retired = false
    ∧ c.sequence ≤ s.sequence ∧ s.deadline.any fun d => now < min d c.deadline)
    "Reporting checkpoint expired or runner retired"

/-! ## What the node can hold -/

/-- The windows a supervisor can hold: an initial proof, then renewals in order. -/
inductive Window.Issued : Window → Prop where
  | new {contract : Contract} {policy : LeasePolicy} {proof : LeaseProof} {now : Nat} {w : Window}
      (h : Window.new contract policy proof now = .ok w) : Window.Issued w
  | advance {w w' : Window} {proof : LeaseProof} {checked now : Nat} (hw : Window.Issued w)
      (h : w.advance proof checked now = .ok w') : Window.Issued w'

/-- The states a reporting authority can be in. -/
inductive Reporting.Issued : Reporting → Prop where
  | new {contract : Contract} {s : Reporting} (h : Reporting.new contract = .ok s) :
      Reporting.Issued s
  | bind {s s' : Reporting} {w : Window} {now : Nat} (hs : Reporting.Issued s) (hw : w.Issued)
      (h : s.bind w now = .ok s') : Reporting.Issued s'
  | advance {s s' : Reporting} {w : Window} {now : Nat} (hs : Reporting.Issued s) (hw : w.Issued)
      (h : s.advance w now = .ok s') : Reporting.Issued s'
  | retire {s : Reporting} (hs : Reporting.Issued s) : Reporting.Issued s.retire

theorem Window.Issued.sequence_pos {w : Window} (h : w.Issued) : 0 < w.sequence := by
  cases h with
  | new h =>
    simp only [Window.new, bind_ok, pure_ok] at h
    obtain ⟨_, _, _, _, _, _, _, _, rfl⟩ := h
    exact Nat.one_pos
  | advance hw h =>
    simp only [Window.advance, bind_ok, ensure_ok, pure_ok] at h
    obtain ⟨_, _, _, ⟨-, -, hseq⟩, _, _, rfl⟩ := h
    exact hseq ▸ Nat.succ_pos _

theorem Window.Issued.sequence_le {w : Window} (h : w.Issued) : w.sequence ≤ u64Max := by
  cases h with
  | new h =>
    simp only [Window.new, bind_ok, pure_ok] at h
    obtain ⟨_, _, _, _, _, _, _, _, rfl⟩ := h
    show 1 ≤ u64Max
    decide
  | advance hw h =>
    simp only [Window.advance, bind_ok, ensure_ok, pure_ok] at h
    obtain ⟨_, _, _, ⟨-, hlt, hseq⟩, _, _, rfl⟩ := h
    show _ ≤ u64Max
    rw [hseq]
    exact hlt

/-- A started authority is at the lease sequence of some window. -/
theorem Reporting.Issued.window {s : Reporting} (h : s.Issued) (hs : s.started = true) :
    ∃ w : Window, w.Issued ∧ s.sequence = w.sequence := by
  induction h with
  | new h =>
    simp only [Reporting.new, bind_ok, pure_ok] at h
    obtain ⟨_, _, rfl⟩ := h
    cases hs
  | bind _ hw h _ =>
    simp only [Reporting.bind, bind_ok, pure_ok] at h
    obtain ⟨_, _, _, _, rfl⟩ := h
    exact ⟨_, hw, rfl⟩
  | advance _ hw h _ =>
    simp only [Reporting.advance, bind_ok, pure_ok] at h
    obtain ⟨_, _, _, _, rfl⟩ := h
    exact ⟨_, hw, rfl⟩
  | retire _ ih => exact ih hs

end

end Eef.Node
