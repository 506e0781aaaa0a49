import Eef.Node.EventChain

/-!
# What the readers of a receipt demand

`readConsumed` and `readCore` as equivalences: each succeeds exactly when the row is
there and passes its checks, and then it returns the row's own fields. Writers use
them to know which row they are about to change, and reopening uses them the other way
round, to show that a row written earlier still reads.
-/

namespace Eef.Node

open Eef.Lib

/-- The receipt a row reads as. -/
def ReceiptRow.consumed (r : ReceiptRow) (node : String) (progress : Option PipelineProgress) :
    ConsumedReceipt where
  schemaVersion := 1
  nodeId := node
  issuerId := r.issuerId
  grantId := r.grantId
  grantSha256 := r.grantDigest
  jobId := r.jobId
  taskId := r.taskId
  attempt := r.attempt
  state := r.state
  acceptedAtMs := r.acceptedMs
  updatedAtMs := r.updatedMs
  pipelineProgress := progress

/-- The identity columns of a row are those of a scope. -/
structure ReceiptRow.Of (r : ReceiptRow) (s : Scope) : Prop where
  grantId : r.grantId = s.grantId
  grantDigest : r.grantDigest = s.grantSha256
  issuerId : r.issuerId = s.issuerId
  jobId : r.jobId = s.jobId
  taskId : r.taskId = s.taskId
  attempt : r.attempt = s.attempt

/-- A row of a valid scope with ordered times reads as a valid receipt. -/
theorem ReceiptRow.Of.consumed_validate {r : ReceiptRow} {s : Scope} (h : r.Of s) (hs : s.Valid)
    (hstate : r.state ≠ .rejected) (haccepted : 1 ≤ r.acceptedMs)
    (hupdated : r.acceptedMs ≤ r.updatedMs) (hle : r.updatedMs ≤ i64Max)
    {progress : Option PipelineProgress}
    (hprogress : ∀ p ∈ progress, p.validate = .ok () ∧ r.acceptedMs ≤ p.recordedAtMs
      ∧ p.recordedAtMs ≤ r.updatedMs) :
    (r.consumed s.executorNode progress).validate = .ok () := by
  have hid := hs.grantId
  simp only [uuid, Bool.and_eq_true, Bool.not_eq_true'] at hid
  obtain ⟨h1, h2, h3, h4, h5, h6⟩ := h
  rw [ConsumedReceipt.validate_ok]
  simp only [ConsumedReceipt.bounded, ReceiptRow.consumed, h1, h2, h3, h4, h5, h6, isOk_unit]
  exact ⟨hs.executorNode, hs.jobId, hs.taskId, hid.1, trivial, hid.2, hs.issuerId, hs.grantSha256,
    ⟨hs.attempt_pos, hs.attempt_le⟩, hstate, by omega, hupdated, hle, hprogress⟩

namespace Journal

theorem validateOwner_ok {j : Journal} {node : String} {u : Unit} :
    j.validateOwner node = .ok u ↔
      j.owner = some node ∧ (1 ≤ j.version ∧ j.version ≤ 5) ∧ j.validateSchema = .ok () := by
  simp only [validateOwner, bind_ok, context_ok, ensure_ok]
  constructor
  · rintro ⟨owner, howner, _, ⟨hv, rfl⟩, hs⟩
    exact ⟨howner, hv, hs⟩
  · rintro ⟨howner, hv, hs⟩
    exact ⟨node, howner, (), ⟨hv, rfl⟩, hs⟩

/-- The kind a row reads as, once workloads exist. -/
theorem isWorkload_ok {j : Journal} {id : String} {b : Bool} : j.isWorkload id = .ok b ↔
    j.validateSchema = .ok () ∧ ((j.version < 3 ∧ b = false)
      ∨ (3 ≤ j.version ∧ j.receipt id = none ∧ b = false)
      ∨ ∃ r, 3 ≤ j.version ∧ j.receipt id = some r
        ∧ ((r.kind = .operation ∧ r.workloadDefinition = none ∧ b = false)
          ∨ (r.kind = .workload ∧ r.workloadDefinition.isSome = true ∧ b = true))) := by
  simp only [isWorkload, bind_ok]
  constructor
  · rintro ⟨_, hs, h⟩
    refine ⟨hs, ?_⟩
    split at h
    · rename_i hv
      exact .inl ⟨hv, by cases h; rfl⟩
    · rename_i hv
      have hv : 3 ≤ j.version := by omega
      split at h
      · rename_i hnone
        exact .inr (.inl ⟨hv, hnone, by cases h; rfl⟩)
      · rename_i r hr
        refine .inr (.inr ⟨r, hv, hr, ?_⟩)
        split at h
        · rename_i hk hd
          exact .inl ⟨hk, hd, by cases h; rfl⟩
        · rename_i hk hd
          exact .inr ⟨hk, by rw [hd]; rfl, by cases h; rfl⟩
        · cases h
  · rintro ⟨hs, h⟩
    refine ⟨(), hs, ?_⟩
    rcases h with ⟨hv, rfl⟩ | ⟨hv, hnone, rfl⟩ | ⟨r, hv, hr, h⟩
    · rw [if_pos hv]
      rfl
    · rw [if_neg (by omega), hnone]
      rfl
    · rw [if_neg (by omega), hr]
      rcases h with ⟨hk, hd, rfl⟩ | ⟨hk, hd, rfl⟩
      · simp only [hk, hd]
        rfl
      · obtain ⟨raw, hraw⟩ := Option.isSome_iff_exists.mp hd
        simp only [hk, hraw]
        rfl

section
variable [F64] [Sha256]

/-- `read_consumed` succeeds exactly on a row whose owner, observation and fields pass. -/
theorem readConsumed_ok {j : Journal} {node id : String} {issuer : Option String}
    {c : ConsumedReceipt} : j.readConsumed node issuer id = .ok c ↔
      operationId id = true ∧ (∀ s ∈ issuer, hexDigest s = true) ∧ j.validateOwner node = .ok ()
        ∧ ∃ row progress, j.receipt id = some row ∧ (∀ s ∈ issuer, s = row.issuerId)
          ∧ decodeProgress (j.observation id) row.grantDigest = .ok progress
          ∧ (row.consumed node progress).validate = .ok () ∧ c = row.consumed node progress := by
  have hbail : (¬(issuer.any fun s => !hexDigest s) = true) ↔ ∀ s ∈ issuer, hexDigest s = true := by
    cases issuer <;> simp
  have hfilter : ∀ row, (j.receipt id).filter (fun r => issuer.all (· == r.issuerId)) = some row ↔
      j.receipt id = some row ∧ ∀ s ∈ issuer, s = row.issuerId := by
    intro row
    rw [Option.filter_eq_some_iff]
    cases issuer <;> simp
  simp only [readConsumed, bind_ok, bailIf_ok, context_ok, validateOperationId_ok, pure_ok, hbail,
    hfilter]
  constructor
  · rintro ⟨_, hid, _, hissuer, _, howner, row, ⟨hrow, hsame⟩, progress, hprogress, _, hvalid, rfl⟩
    have hkey := (Table.find_some hrow).2
    subst hkey
    exact ⟨hid, hissuer, howner, row, progress, hrow, hsame, hprogress, hvalid, rfl⟩
  · rintro ⟨hid, hissuer, howner, row, progress, hrow, hsame, hprogress, hvalid, rfl⟩
    have hkey := (Table.find_some hrow).2
    subst hkey
    exact ⟨(), hid, (), hissuer, (), howner, row, ⟨hrow, hsame⟩, progress, hprogress, (), hvalid, rfl⟩

/-- What `read_core` returns: the row's own receipt, definition and final report. -/
theorem readCore_ok {j : Journal} {node id : String} {issuer : Option String}
    {w : WorkloadReceipt} : j.readCore node issuer id = .ok w ↔
      j.validateOwner node = .ok () ∧ j.isWorkload id = .ok true
        ∧ j.readConsumed node issuer id = .ok w.receipt
        ∧ ∃ row raw, j.receipt id = some row ∧ row.workloadDefinition = some raw
          ∧ (1 ≤ raw.size ∧ raw.size ≤ maxWorkloadBytes) ∧ raw.parses = true
          ∧ WorkloadDefinition.fromJson raw = some w.definition ∧ w.definition.toJson = raw
          ∧ row.maxResultBytes = w.definition.events.maxTotalBytes
          ∧ j.decodeCompletion row w.receipt.state = .ok w.completion
          ∧ w = { schemaVersion := if w.completion.isSome then 3 else 2, receipt := w.receipt,
                  definition := w.definition, executionAuthorized := false,
                  restartAuthorized := false, completion := w.completion }
          ∧ w.validate = .ok () := by
  have hdecode : ∀ {raw : Json} {d : WorkloadDefinition},
      (if raw.parses = true then WorkloadDefinition.fromJson raw else none) = some d ↔
        raw.parses = true ∧ WorkloadDefinition.fromJson raw = some d := by
    intro raw d
    split <;> simp [*]
  simp only [readCore, bind_ok, ensure_ok, context_ok, pure_ok, hdecode]
  constructor
  · rintro ⟨_, howner, _, hwork, _, rfl, receipt, hread, row, hrow, raw, hraw, _, hsize, d,
      ⟨hparse, hd⟩, _, ⟨hcanon, hbytes⟩, completion, hc, _, hvalid, rfl⟩
    exact ⟨howner, hwork, hread, row, raw, hrow, hraw, hsize, hparse, hd, hcanon, hbytes, hc, rfl,
      hvalid⟩
  · rintro ⟨howner, hwork, hread, row, raw, hrow, hraw, hsize, hparse, hd, hcanon, hbytes, hc, hw,
      hvalid⟩
    exact ⟨(), howner, true, hwork, (), rfl, _, hread, row, hrow, raw, hraw, (), hsize, _,
      ⟨hparse, hd⟩, (), ⟨hcanon, hbytes⟩, _, hc, (), hw ▸ hvalid, hw.symm⟩

end

end Journal

end Eef.Node
