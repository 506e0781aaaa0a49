import Eef.Lib.Assoc
import Eef.Lib.Run
import Eef.Coordinator.SetupChecks

/-!
# Workers of setup model checks

`setup_model_check_runtime.rs`: the coordinator process over the store of consents. `active` is
the map of registered workers, by node, under one lock; a `Work` is what its worker owns, with the
guard that unregisters it. `prepare` holds the lock from its first read of the store to the
registration, while cancellations, claims and checkpoints of other workers go on, so it is three
moments here: `armBegin`, `armScan` for each registered worker, and `armCommit`.

A restart loses everything but the store. The requests that workers sent are kept in `starts`,
and the reports that commands built in `reports`.
-/

namespace Eef.Coordinator.SetupChecks

open Eef.Lib Eef.Node Eef.Node.ModelVerification

/-- `Active`, with the value of its cancellation. -/
structure Active where
  operation : String
  cancel : Bool
  reason : String
  deriving DecidableEq, Repr

/-- Where a worker stands. A `prepared` work is not spawned yet; an `ended` one has yet to drop its
guard. -/
inductive Phase where
  | prepared
  | waiting
  | launched
  | started
  | finishing (outcome : Option Outcome) (expired : Bool)
  | ended
  deriving DecidableEq, Repr

/-- `Work`. -/
structure Work where
  definition : Definition
  phase : Phase
  deriving DecidableEq, Repr

/-- The check of a worker. -/
def Work.key (w : Work) : String × String := (w.definition.nodeId, w.definition.operationId)

/-- `prepare` under the lock: the nodes it has yet to look at, and those that it retires. -/
structure Preparing where
  request : Request
  definition : Definition
  todo : List String
  retired : List String
  deriving DecidableEq, Repr

/-- What a command has still to do. -/
inductive Call where
  | armed (request : Request) (definition : Definition)
  | cancelling (request : Request)
  | snapshot (request : Request) (created reused cancelled : Bool)
  deriving DecidableEq, Repr

/-- A start request for a model verification, with the runtime that sent it. -/
structure Start where
  key : String × String
  runtime : String
  deriving DecidableEq, Repr

/-- A coordinator: the store, the process, and what they told the world. -/
structure Runtime where
  rows : List Row
  runtime : String
  active : List (String × Active)
  maxActive : Nat
  closing : Bool
  preparing : Option Preparing
  works : List Work
  calls : List Call
  starts : List Start
  reports : List (Request × Report)

/-- A coordinator that has just opened a store. -/
def Runtime.opened (rows : List Row) (runtime : String) (maxActive : Nat)
    (starts : List Start) (reports : List (Request × Report)) : Runtime :=
  ⟨rows, runtime, [], maxActive, false, none, [], [], starts, reports⟩

/-- The retired workers leave the map. -/
def unregister (active : List (String × Active)) (retired : List String) :
    List (String × Active) :=
  active.filter fun e => e.1 ∉ retired

/-- `Drop` of a guard: only the entry of its own operation leaves. -/
def dropGuard (active : List (String × Active)) (w : Work) : List (String × Active) :=
  match active.lookup w.definition.nodeId with
  | some entry =>
    if entry.operation = w.definition.operationId then Assoc.erase w.definition.nodeId active
    else active
  | none => active

/-- Change the entry of a node if it is of this operation: `reason` and `cancel` of `Manager`. -/
def changeEntry (active : List (String × Active)) (node operation : String)
    (f : Active → Active) : List (String × Active) :=
  match active.lookup node with
  | some entry => if entry.operation = operation then Assoc.set node (f entry) active else active
  | none => active

/-- `snapshot`, of the record that it reads. -/
def snapshot (active : List (String × Active)) (runtime node operation : String)
    (record : Option Record) : Bool × Option String :=
  let entry := (active.lookup node).filter fun e => e.operation = operation
  let owned := record.any (fun r => r.coordinatorRuntimeId = runtime ∧ r.state.live = true) &&
    entry.isSome
  (owned, if owned && record.any (fun r => r.state = .waiting) then entry.map Active.reason
    else none)

/-- The report of `setup_model_check_command`. -/
def report (runtime : String) (request : Request) (record : Option Record) (active : Bool)
    (waitingReason : Option String) (created reused cancelled : Bool) : Report where
  schemaVersion := 1
  reportType := "coordinator_setup_model_check"
  coordinatorRuntimeId := runtime
  nodeId := request.nodeId
  operationId := request.operationId
  command := request.command
  success := true
  record := record
  effectiveState := record.map fun r => effectiveState r runtime active
  workerActive := active
  waitingReason := waitingReason
  consentCreated := created
  waitingCancelled := cancelled
  reused := reused
  automaticallyRetried := false
  resumed := false
  modelSelectionChanged := false
  modelQualityApproved := false
  currentSetupVerified := false

section

variable [F64] [Sha256]

/-- The steps of a worker `w`, which stands between the others. Where a step reads or writes the
map, nobody prepares. -/
inductive WorkerStep (s : Runtime) (pre post : List Work) (d : Definition) :
    Phase → Runtime → Prop where
  /-- The setup does not select the model yet. -/
  | notReady (reason : String)
      (hreason : reason = "waiting_for_exact_model" ∨ ∃ issue, reason = reasonOf issue)
      (hfree : s.preparing = none) :
      WorkerStep s pre post d .waiting
        { s with active := changeEntry s.active d.nodeId d.operationId ({ · with reason }) }
  /-- The worker sees its cancellation, or that its entry is gone. -/
  | cancelled (h : ∀ entry, s.active.lookup d.nodeId = some entry →
      entry.operation = d.operationId → entry.cancel = true) :
      WorkerStep s pre post d .waiting { s with works := pre ++ ⟨d, .ended⟩ :: post }
  | claim {rows : List Row} (h : launch s.rows d s.runtime = .ok (rows, true)) :
      WorkerStep s pre post d .waiting
        { s with rows, works := pre ++ ⟨d, .launched⟩ :: post }
  | lostRace {rows : List Row} (h : launch s.rows d s.runtime = .ok (rows, false)) :
      WorkerStep s pre post d .waiting { s with rows, works := pre ++ ⟨d, .ended⟩ :: post }
  /-- `infer` sends its start request. -/
  | start :
      WorkerStep s pre post d .launched
        { s with
          works := pre ++ ⟨d, .started⟩ :: post
          starts := ⟨(d.nodeId, d.operationId), s.runtime⟩ :: s.starts }
  | outcome (outcome : Outcome) (h : outcome.validate = .ok ()) :
      WorkerStep s pre post d .started
        { s with works := pre ++ ⟨d, .finishing (some outcome) false⟩ :: post }
  /-- An error, or the deadline. -/
  | give {phase : Phase} (expired : Bool)
      (hphase : phase = .waiting ∨ phase = .launched ∨ phase = .started) :
      WorkerStep s pre post d phase
        { s with works := pre ++ ⟨d, .finishing none expired⟩ :: post }
  | checkpoint {outcome : Option Outcome} {expired : Bool} {rows : List Row}
      (h : finish s.rows d s.runtime outcome expired = .ok rows) :
      WorkerStep s pre post d (.finishing outcome expired)
        { s with rows, works := pre ++ ⟨d, .ended⟩ :: post }
  /-- The checkpoint fails, or the task is aborted. -/
  | abort {phase : Phase} (hphase : phase ≠ .prepared) :
      WorkerStep s pre post d phase { s with works := pre ++ ⟨d, .ended⟩ :: post }
  /-- The guard is dropped. -/
  | retire (hfree : s.preparing = none) :
      WorkerStep s pre post d .ended
        { s with active := dropGuard s.active ⟨d, .ended⟩, works := pre ++ post }

/-- A request that the command accepts. -/
def Runtime.Accepts (s : Runtime) (request : Request) : Prop :=
  request.validate = .ok () ∧ request.expectedRuntimeId = s.runtime

/-- The steps of `prepare`. -/
inductive ArmStep : Runtime → Runtime → Prop where
  | armBegin {s : Runtime} {request : Request} {d : Definition} (hreq : s.Accepts request)
      (hdef : request.definition = .ok d) (hfree : s.preparing = none)
      (hnone : read s.rows d.nodeId d.operationId = .ok none) :
      ArmStep s { s with preparing := some ⟨request, d, s.active.map Prod.fst, []⟩ }
  | armReuse {s : Runtime} {request : Request} {d : Definition} {r : Record}
      (hreq : s.Accepts request) (hdef : request.definition = .ok d) (hfree : s.preparing = none)
      (hread : read s.rows d.nodeId d.operationId = .ok (some r)) (hsame : r.definition = d) :
      ArmStep s { s with calls := .snapshot request false true false :: s.calls }
  | armScan {s : Runtime} {p : Preparing} {node : String} {todo : List String}
      {entry : Active} {r : Record} (hp : s.preparing = some p) (htodo : p.todo = node :: todo)
      (hentry : s.active.lookup node = some entry)
      (hread : read s.rows node entry.operation = .ok (some r))
      (hruntime : r.coordinatorRuntimeId = s.runtime) :
      ArmStep s { s with
        preparing := some { p with
          todo
          retired := if r.state.live then p.retired else node :: p.retired } }
  /-- A record is missing or unreadable, or its owner changed. -/
  | armFail {s : Runtime} {p : Preparing} (hp : s.preparing = some p) :
      ArmStep s { s with preparing := none }
  /-- No capacity, or the store refuses. -/
  | armRefuse {s : Runtime} {p : Preparing} (hp : s.preparing = some p) (htodo : p.todo = []) :
      ArmStep s { s with preparing := none, active := unregister s.active p.retired }
  | armCommit {s : Runtime} {p : Preparing} {quota : Quota} {now : Nat} {rows : List Row}
      {r : Record} (hp : s.preparing = some p) (htodo : p.todo = [])
      (hclosing : s.closing = false)
      (hroom : (unregister s.active p.retired).length < s.maxActive)
      (hnode : (unregister s.active p.retired).lookup p.definition.nodeId = none)
      (h : arm s.rows p.definition s.runtime quota now = .ok (rows, r, true)) :
      ArmStep s { s with
        preparing := none
        rows
        active := (p.definition.nodeId, ⟨p.definition.operationId, false, "waiting_for_setup"⟩) ::
          unregister s.active p.retired
        works := ⟨p.definition, .prepared⟩ :: s.works
        calls := .armed p.request p.definition :: s.calls }
  | armKnown {s : Runtime} {p : Preparing} {quota : Quota} {now : Nat} {rows : List Row}
      {r : Record} (hp : s.preparing = some p) (htodo : p.todo = [])
      (h : arm s.rows p.definition s.runtime quota now = .ok (rows, r, false)) :
      ArmStep s { s with
        preparing := none
        rows
        active := unregister s.active p.retired
        calls := .snapshot p.request false true false :: s.calls }

/-- The steps of a command that stands between the others. -/
inductive CallStep (s : Runtime) (pre post : List Call) : Call → Runtime → Prop where
  | spawn {request : Request} {d : Definition} {before after : List Work}
      (hworks : s.works = before ++ ⟨d, .prepared⟩ :: after) (hclosing : s.closing = false) :
      CallStep s pre post (.armed request d)
        { s with
          works := before ++ ⟨d, .waiting⟩ :: after
          calls := pre ++ .snapshot request true false false :: post }
  /-- The tasks are owned by `close`. -/
  | refuse {request : Request} {d : Definition} {before after : List Work}
      (hworks : s.works = before ++ ⟨d, .prepared⟩ :: after) :
      CallStep s pre post (.armed request d)
        { s with works := before ++ ⟨d, .ended⟩ :: after, calls := pre ++ post }
  | cancel {request : Request} (hfree : s.preparing = none) :
      CallStep s pre post (.cancelling request)
        { s with
          active := changeEntry s.active request.nodeId request.operationId
            ({ · with cancel := true })
          calls := pre ++ .snapshot request false false true :: post }
  | snapshot {request : Request} {created reused cancelled : Bool} {record : Option Record}
      (hfree : s.preparing = none)
      (hread : read s.rows request.nodeId request.operationId = .ok record) :
      CallStep s pre post (.snapshot request created reused cancelled)
        { s with
          calls := pre ++ post
          reports :=
            let seen := SetupChecks.snapshot s.active s.runtime request.nodeId request.operationId
              record
            (request, report s.runtime request record seen.1 seen.2 created reused cancelled) ::
              s.reports }
  /-- The store cannot be read. -/
  | unread {request : Request} {created reused cancelled : Bool} (hfree : s.preparing = none) :
      CallStep s pre post (.snapshot request created reused cancelled)
        { s with calls := pre ++ post }

/-- One step of the coordinator. -/
inductive Step : Runtime → Runtime → Prop where
  | worker {s t : Runtime} {pre post : List Work} {w : Work}
      (hworks : s.works = pre ++ w :: post) (h : WorkerStep s pre post w.definition w.phase t) :
      Step s t
  | arm {s t : Runtime} (h : ArmStep s t) : Step s t
  | call {s t : Runtime} {pre post : List Call} {c : Call} (hcalls : s.calls = pre ++ c :: post)
      (h : CallStep s pre post c t) : Step s t
  /-- `CancelWait` fences the record first. -/
  | cancelWait {s : Runtime} {request : Request} {rows : List Row} {cancelled : Bool}
      (hreq : s.Accepts request) (hcommand : request.command = .cancelWait)
      (h : SetupChecks.cancelWait s.rows request.nodeId request.operationId =
        .ok (rows, cancelled)) :
      Step s { s with
        rows
        calls := (if cancelled then .cancelling request
          else .snapshot request false false false) :: s.calls }
  | inspect {s : Runtime} {request : Request} (hreq : s.Accepts request)
      (hcommand : request.command = .inspect) :
      Step s { s with calls := .snapshot request false false false :: s.calls }
  /-- `close`, before the tasks are aborted. -/
  | close {s : Runtime} : Step s { s with closing := true }
  /-- The process ends, and another one opens the store. -/
  | restart {s : Runtime} (runtime : String) (maxActive : Nat)
      (hruntime : validateUuid runtime = .ok ()) :
      Step s (.opened s.rows runtime maxActive s.starts s.reports)

end

end Eef.Coordinator.SetupChecks
