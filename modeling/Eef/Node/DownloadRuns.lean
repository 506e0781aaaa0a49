import Eef.Lib.Run
import Eef.Node.DownloadReceipts

/-!
# Model downloads of a node

The installation paths of `model_manager.rs` and `service.rs`: admissions, the task that transfers
a model, cancellations, and the journal that is opened at the start of the process or by a new
installation. `live` is the node's status of the current download, under a lock of its own, never
held together with the lock of the journal; a section under one of the two locks is a step here.

Admissions are serialized by the lock of the configuration. Everything that the file system
answers is free.
-/

namespace Eef.Node.Download

open Eef.Lib

/-- `live["download"]["state"]`. -/
inductive LiveState where
  | idle
  | unavailable
  | unknown
  | receipt (state : State)
  deriving DecidableEq, Repr

/-- `live["download"]`, as far as the operations here read it. -/
structure Live where
  id : Option String
  state : LiveState
  cancelRequested : Bool
  deriving DecidableEq, Repr

/-- `progress` of a receipt. -/
def Receipt.progress (r : Receipt) : Live := ⟨some r.id, .receipt r.state, r.cancelRequested⟩

/-- The status of a node without a receipt. -/
def Live.idle : Live := ⟨none, .idle, false⟩

/-- `unavailable`. -/
def Live.unavailable : Live := ⟨none, .unavailable, false⟩

/-- The progress document that an installation starts from. -/
def Progress.start (p : Progress) : Live := ⟨some p.id, .receipt .downloading, false⟩

/-- Where a task stands: it transfers, it has chosen the state to save, or it has saved it. -/
inductive TaskPhase where
  | transfer
  | decided (ok : Bool) (terminal : State)
  | saved (ok : Bool) (terminal : State) (kept : Bool)
  deriving DecidableEq, Repr

/-- The task of an installation. -/
structure Task where
  id : String
  phase : TaskPhase
  deriving DecidableEq, Repr

/-- A cancellation between its sections. -/
structure Cancel where
  id : String
  recorded : Bool
  deriving DecidableEq, Repr

/-- A node. `recorded` keeps the downloads that a cancellation was written to the journal for. -/
structure Host where
  journal : Journal
  live : Live
  admitting : Option (Progress × Bool)
  reopened : List Live
  tasks : List Task
  cancels : List Cancel
  recorded : List String
  deriving DecidableEq, Repr

/-- `new`: the status of a node that has just started. -/
def Host.started (journal : Journal) (found : Result (Option Receipt)) (recorded : List String) :
    Host where
  journal := journal
  live := match found with
    | .error _ => .unavailable
    | .ok none => .idle
    | .ok (some r) => r.progress
  admitting := none
  reopened := []
  tasks := []
  cancels := []
  recorded := recorded

/-- The check of `begin_model_download_checked` on the status. -/
def Live.admits (live : Live) (p : Progress) : Prop :=
  live.id ≠ some p.id ∧ live.state ≠ .receipt .downloading

/-- The state that a task chooses to save. -/
def terminalOf (ok : Bool) (live : Live) : State :=
  if ok then .installed else if live.cancelRequested then .cancelled else .error

/-- What a task publishes at its end. -/
def publish (ok kept : Bool) (live : Live) : Live :=
  if kept = false then { live with state := .unknown }
  else if ok then { live with state := .receipt .installed }
  else if live.cancelRequested then { live with state := .receipt .cancelled }
  else { live with state := .receipt .error }

section

variable [F64] [Sha256]

/-- The steps of a task, which stands between the others. -/
inductive TaskStep (s : Host) (pre post : List Task) (id : String) : TaskPhase → Host → Prop where
  /-- The transfer ends, or is cut off. -/
  | decide (ok : Bool) (hid : s.live.id = some id) :
      TaskStep s pre post id .transfer
        { s with tasks := pre ++ ⟨id, .decided ok (terminalOf ok s.live)⟩ :: post }
  | finish {ok : Bool} {terminal : State} {journal : Journal} {result : Result Unit} (now : Nat)
      (write : Db → Write)
      (h : s.journal.finish id terminal now write = (journal, result)) :
      TaskStep s pre post id (.decided ok terminal)
        { s with journal, tasks := pre ++ ⟨id, .saved ok terminal (isOk result)⟩ :: post }
  | publish {ok kept : Bool} {terminal : State} (hid : s.live.id = some id) :
      TaskStep s pre post id (.saved ok terminal kept)
        { s with live := publish ok kept s.live, tasks := pre ++ post }
  /-- The status is that of another download. -/
  | lost {phase : TaskPhase} (hphase : ∀ ok terminal, phase ≠ .decided ok terminal)
      (hid : s.live.id ≠ some id) : TaskStep s pre post id phase { s with tasks := pre ++ post }

/-- A task has chosen to save an error, and has not published it yet. -/
def Task.failing (t : Task) : Prop :=
  t.phase = .decided false .error ∨ ∃ kept, t.phase = .saved false .error kept

/-- Whatever a cancellation marks. -/
def always (_ : Host) (_ : String) : Prop := True

/-- A cancellation does not mark a download whose task has chosen to save an error. -/
def calm (s : Host) (id : String) : Prop := ∀ t ∈ s.tasks, t.id = id → ¬t.failing

variable (allow : Host → String → Prop)

/-- The steps of a cancellation, which stands between the others. `allow` says which ones may go
on to mark the status. -/
inductive CancelStep (s : Host) (pre post : List Cancel) (id : String) : Bool → Host → Prop where
  | record {journal : Journal} (now : Nat) (write : Db → Write)
      (h : s.journal.cancel id now write = (journal, .ok ())) :
      CancelStep s pre post id false
        { s with journal, cancels := pre ++ ⟨id, true⟩ :: post, recorded := id :: s.recorded }
  | refused {journal : Journal} {msg : String} (now : Nat) (write : Db → Write)
      (h : s.journal.cancel id now write = (journal, .error msg)) :
      CancelStep s pre post id false
        { s with
          journal
          cancels := pre ++ post
          recorded := if journal = s.journal then s.recorded else id :: s.recorded }
  | mark (hallow : allow s id) :
      CancelStep s pre post id true
        { s with
          live := if s.live.id = some id then { s.live with cancelRequested := true } else s.live
          cancels := pre ++ post }

/-- One step of a node. -/
inductive Step : Host → Host → Prop where
  /-- `begin_model_download_checked`: the status admits the download. -/
  | check {s : Host} (p : Progress) (hfree : s.admitting = none) (h : s.live.admits p) :
      Step s { s with admitting := some (p, false) }
  | claim {s : Host} {p : Progress} {journal : Journal} (config : Json) (opening : Opening)
      (now : Nat) (write : Db → Write) (hp : s.admitting = some (p, false))
      (h : s.journal.begin config p opening now write = (journal, .ok ())) :
      Step s { s with journal, admitting := some (p, true) }
  | refuse {s : Host} {p : Progress} {journal : Journal} {msg : String} (config : Json)
      (opening : Opening) (now : Nat) (write : Db → Write) (hp : s.admitting = some (p, false))
      (h : s.journal.begin config p opening now write = (journal, .error msg)) :
      Step s { s with journal, admitting := none }
  /-- The status, and the task that the installation spawns. -/
  | spawn {s : Host} {p : Progress} (hp : s.admitting = some (p, true)) :
      Step s { s with live := p.start, admitting := none, tasks := ⟨p.id, .transfer⟩ :: s.tasks }
  | task {s t : Host} {pre post : List Task} {id : String} {phase : TaskPhase}
      (htasks : s.tasks = pre ++ ⟨id, phase⟩ :: post) (h : TaskStep s pre post id phase t) : Step s t
  /-- `cancel` finds a download under way. -/
  | cancel {s : Host} {id : String} (hstate : s.live.state = .receipt .downloading)
      (hid : s.live.id = some id) : Step s { s with cancels := ⟨id, false⟩ :: s.cancels }
  | cancelling {s t : Host} {pre post : List Cancel} {id : String} {recorded : Bool}
      (hcancels : s.cancels = pre ++ ⟨id, recorded⟩ :: post)
      (h : CancelStep allow s pre post id recorded t) : Step s t
  /-- `reopen_for_install`. -/
  | reopen {s : Host} {journal : Journal} {found : Result (Option Receipt)} (opening : Opening)
      (now : Nat) (latest : Result Unit) (hhandle : s.journal.handle = .unavailable)
      (h : recover s.journal.file opening now latest = (journal, found))
      (hready : journal.handle = .ready) :
      Step s { s with
        journal
        reopened := (found.toOption.join.map Receipt.progress).toList ++ s.reopened }
  | reopenFail {s : Host} {journal : Journal} {found : Result (Option Receipt)} (opening : Opening)
      (now : Nat) (latest : Result Unit) (hhandle : s.journal.handle = .unavailable)
      (h : recover s.journal.file opening now latest = (journal, found))
      (hready : journal.handle ≠ .ready) :
      Step s { s with journal := ⟨.unavailable, journal.file⟩ }
  | adopt {s : Host} {pre post : List Live} {live : Live}
      (hreopened : s.reopened = pre ++ live :: post) :
      Step s { s with
        live := if s.live.state = .unavailable then live else s.live
        reopened := pre ++ post }
  /-- The process ends at any moment, and another one starts. -/
  | restart {s : Host} {journal : Journal} {found : Result (Option Receipt)} (opening : Opening)
      (now : Nat) (latest : Result Unit)
      (h : recover s.journal.file opening now latest = (journal, found)) :
      Step s (.started journal found s.recorded)

end

end Eef.Node.Download
