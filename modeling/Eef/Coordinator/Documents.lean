import Eef.Coordinator.Execution

/-!
# Plans as documents

What `serde_json` writes for a `Plan`, field by field. The journal charges a job for the
bytes of this text, definitions and reservations carry it as a snapshot, and digests are
taken over it.
-/

namespace Eef.Coordinator

open Eef.Lib Eef.Node

/-- A field that `skip_serializing_if = "Option::is_none"` leaves out. -/
def optionalField {α : Type} (key : String) (f : α → Json) (o : Option α) : List (String × Json) :=
  (o.map fun a => (key, f a)).toList

def TaskStatus.name : TaskStatus → String
  | pending => "pending"
  | running => "running"
  | completed => "completed"
  | failed => "failed"
  | skipped => "skipped"
  | cancelled => "cancelled"
  | interrupted => "interrupted"

def PlanStatus.name : PlanStatus → String
  | review => "review"
  | awaitingApproval => "awaiting_approval"
  | approved => "approved"
  | pending => "pending"
  | running => "running"
  | completed => "completed"
  | failed => "failed"
  | cancelled => "cancelled"
  | paused => "paused"
  | pausing => "pausing"
  | stopping => "stopping"
  | interrupted => "interrupted"
  | abandoned => "abandoned"

def AttemptState.name : AttemptState → String
  | issued => "issued"
  | accepted => "accepted"
  | completed => "completed"
  | rejected => "rejected"
  | unknown => "unknown"

def Actor.name : Actor → String
  | coordinatorOwner => "coordinator_owner"
  | originNode => "origin_node"

def TaskResult.toJson (r : TaskResult) : Json :=
  .obj [("task_id", .str r.taskId), ("success", .bool r.success), ("data", r.data),
    ("error", .str r.error), ("error_type", .str r.errorType), ("duration_ms", .nat r.durationMs),
    ("attempts", .nat r.attempts)]

def Assignment.toJson (a : Assignment) : Json :=
  .obj ([("attempt", .nat a.attempt), ("node_id", .str a.nodeId),
    ("resource_id", .ofOption .str a.resourceId), ("model_id", .ofOption .str a.modelId)]
    ++ optionalField "backend" .str a.backend ++ [("assigned_at_ms", .nat a.assignedAtMs)])

def Task.toJson (t : Task) : Json :=
  .obj [("request_context", .ofOption RequestContext.toJson t.requestContext),
    ("task_id", .str t.taskId), ("capability", .str t.capability), ("action", .str t.action),
    ("params", t.params), ("dependencies", .arr (t.dependencies.map .str)),
    ("timeout_ms", .nat t.timeoutMs), ("retry_count", .nat t.retryCount),
    ("retry_delay_ms", .nat t.retryDelayMs), ("constraints", t.constraints),
    ("status", .str t.status.name), ("result", .ofOption TaskResult.toJson t.result),
    ("attempts", .nat t.attempts), ("assignments", .arr (t.assignments.map Assignment.toJson))]

def Goal.toJson (g : Goal) : Json :=
  .obj [("request_context", .ofOption RequestContext.toJson g.requestContext),
    ("description", .str g.description), ("template", .str g.template), ("params", g.params),
    ("constraints", g.constraints)]

def PlanInput.toJson (i : PlanInput) : Json :=
  .obj [("schema_version", .nat i.schemaVersion), ("template", .str i.template),
    ("params", i.params), ("constraints", i.constraints)]

def PlannedBinding.toJson (b : PlannedBinding) : Json :=
  .obj [("task_id", .str b.taskId), ("node_id", .str b.nodeId),
    ("resource_id", .ofOption .str b.resourceId), ("model_id", .ofOption .str b.modelId),
    ("backend", .ofOption .str b.backend)]

def PlanningRecord.toJson (r : PlanningRecord) : Json :=
  .obj ([("schema_version", .nat r.schemaVersion), ("operation_id", .str r.operationId),
    ("source_revision", .nat r.sourceRevision), ("proposal_index", .nat r.proposalIndex),
    ("compiled_at_ms", .nat r.compiledAtMs), ("input", r.input.toJson),
    ("bindings", .arr (r.bindings.map PlannedBinding.toJson)), ("plan_sha256", .str r.planSha256)]
    ++ optionalField "preparation" id r.preparation)

def ExecuteCommand.toJson (c : ExecuteCommand) : Json :=
  .obj [("id", .str c.id), ("expected_revision", .nat c.expectedRevision),
    ("operation_id", .str c.operationId), ("approval_sha256", .str c.approvalSha256)]

def AbandonCommand.toJson (c : AbandonCommand) : Json :=
  .obj [("id", .str c.id), ("expected_revision", .nat c.expectedRevision),
    ("operation_id", .str c.operationId), ("grant_id", .str c.grantId),
    ("acknowledge_effects_may_continue", .bool c.acknowledgeEffectsMayContinue)]

def AbandonRecord.toJson (r : AbandonRecord) : Json :=
  .obj [("schema_version", .nat r.schemaVersion), ("command", r.command.toJson),
    ("actor", .str r.actor.name), ("decided_at_ms", .nat r.decidedAtMs)]

def RecoverCommand.toJson (c : RecoverCommand) : Json :=
  .obj [("id", .str c.id), ("expected_revision", .nat c.expectedRevision),
    ("operation_id", .str c.operationId), ("grant_id", .str c.grantId)]

def availabilityName : Availability → String
  | .legacyMetadataOnly => "legacy_metadata_only"
  | .noFinalCheckpoint => "no_final_checkpoint"
  | .retainedFinalReport => "retained_final_report"

def retainedJson (r : RetainedResult) : Json :=
  .obj ([("schema_version", .nat r.schemaVersion), ("receipt", consumedJson r.receipt),
    ("max_result_bytes", .nat r.maxResultBytes), ("availability", .str (availabilityName r.availability))]
    ++ optionalField "report" GrantReport.toJson r.report
    ++ optionalField "report_sha256" .str r.reportSha256)

def RecoveryRecord.toJson (r : RecoveryRecord) : Json :=
  .obj [("schema_version", .nat r.schemaVersion), ("command", r.command.toJson),
    ("actor", .str r.actor.name), ("decided_at_ms", .nat r.decidedAtMs),
    ("result", retainedJson r.result)]

def stopReportJson (r : StopReport) : Json :=
  .obj [("schema_version", .nat r.schemaVersion), ("report_type", .str r.reportType),
    ("grant_id", .str r.grantId), ("grant_sha256", .str r.grantSha256),
    ("issuer_id", .str r.issuerId), ("session_id", .str r.sessionId),
    ("executor_node", .str r.executorNode), ("job_id", .str r.jobId), ("task_id", .str r.taskId),
    ("attempt", .nat r.attempt), ("recorded_at_ms", .nat r.recordedAtMs),
    ("receipt_preexisted", .bool r.receiptPreexisted), ("reused", .bool r.reused),
    ("cancellation_signalled", .bool r.cancellationSignalled), ("persisted", .bool r.persisted),
    ("stop_requested", .bool r.stopRequested), ("execution_stopped", .bool r.executionStopped),
    ("external_effects_stopped", .bool r.externalEffectsStopped),
    ("execution_authorized", .bool r.executionAuthorized),
    ("automatically_retried", .bool r.automaticallyRetried)]

def Delivery.toJson (d : Delivery) : Json :=
  .obj [("send_attempted_at_ms", .nat d.sendAttemptedAtMs),
    ("report", .ofOption stopReportJson d.report), ("outcome_unknown", .bool d.outcomeUnknown)]

def GrantedAttempt.toJson (a : GrantedAttempt) : Json :=
  .obj ([("grant", a.grant.toJson), ("state", .str a.state.name),
    ("acknowledgement", .ofOption GrantReport.toJson a.acknowledgement),
    ("report", .ofOption GrantReport.toJson a.report)]
    ++ optionalField "recovery" RecoveryRecord.toJson a.recovery
    ++ optionalField "stop" Delivery.toJson a.stop)

def workloadReceiptJson (r : WorkloadReceipt) : Json :=
  .obj ([("schema_version", .nat r.schemaVersion), ("receipt", consumedJson r.receipt),
    ("definition", r.definition.toJson), ("execution_authorized", .bool r.executionAuthorized),
    ("restart_authorized", .bool r.restartAuthorized)]
    ++ optionalField "completion" CompletionReport.toJson r.completion)

def WorkloadExecution.toJson (w : WorkloadExecution) : Json :=
  .obj ([("definition", w.definition.toJson), ("issued_at_ms", .nat w.issuedAtMs),
    ("state", .str w.state.name), ("acknowledgement", .ofOption workloadReceiptJson w.acknowledgement)]
    ++ optionalField "completion" Completion.toJson w.completion)

def ExecutionRecord.toJson (e : ExecutionRecord) : Json :=
  .obj ([("schema_version", .nat e.schemaVersion), ("command", e.command.toJson),
    ("started_at_ms", .nat e.startedAtMs), ("attempts", .arr (e.attempts.map GrantedAttempt.toJson))]
    ++ optionalField "abandonment" AbandonRecord.toJson e.abandonment
    ++ optionalField "peer" id e.peer ++ optionalField "stop_requested_at_ms" .nat e.stopRequestedAtMs
    ++ optionalField "workload" WorkloadExecution.toJson e.workload)

/-- An approval with its digest. -/
def ApprovalRecord.document (a : ApprovalRecord) : Json :=
  a.toJson.set "approval_sha256" (.str a.approvalSha256)

def JobEvent.toJson (e : JobEvent) : Json :=
  .obj [("revision", .nat e.revision), ("at_ms", .nat e.atMs), ("message", .str e.message)]

/-- `json!(plan)`. -/
def Plan.toJson (p : Plan) : Json :=
  .obj (optionalField "execution" ExecutionRecord.toJson p.execution
    ++ optionalField "approval" ApprovalRecord.document p.approval
    ++ optionalField "planning" PlanningRecord.toJson p.planning
    ++ optionalField "request_review" DraftRecord.document p.requestReview
    ++ [("plan_id", .str p.planId), ("goal", p.goal.toJson),
      ("tasks", .arr (p.tasks.map Task.toJson)), ("status", .str p.status.name),
      ("results", .obj (p.results.map fun e => (e.1, e.2.toJson))), ("revision", .nat p.revision),
      ("updated_at_ms", .nat p.updatedAtMs), ("history", .arr (p.history.map JobEvent.toJson))])

end Eef.Coordinator
