import Eef.Lib.Run
import Eef.Node.RepairJournal

/-!
# Repair attempts

`install_request` (`package_repair.rs`) on one installation. An attempt holds the update lock, so
there is one at a time; it may be killed anywhere, and any of its file operations may fail
without effect. Its body is a list of actions, journal steps between the effects they announce.
A journal write checks the stored journal first and then replaces it, which are two moments.

`Step` is what attempts do, and what other updates do to `current.txt` between them; `Outside`
is somebody else at the journal. The invariant `Inv` says how far the evidence and the effects of
the running attempt are.
-/

namespace Eef.Node.RepairReceipts

open Eef.Lib

/-- The actions of the body. -/
inductive Action where
  | step (s : Step)
  | rename
  | select
  | current
  deriving DecidableEq, Repr

/-- The body of `install_request`, after the admission. The download stands before `verifying`,
the verification before `staging`. -/
def body : List Action :=
  [.step .downloading, .step .verifying, .step .staging, .rename, .step .staged, .step .selecting,
    .select, .current, .step .selected]

/-- Effects on the installation, by the operation they belong to. -/
inductive Event where
  | staged (id : String)
  | selection (id : String)
  | current (id : String) (named : Option String)
  deriving DecidableEq, Repr

/-- The operation of an effect. -/
def Event.id : Event → String
  | .staged id | .selection id | .current id _ => id

/-- Where the process that holds the update lock stands. `selected` is the installed version it
found; `checked` says that the guard of the next journal write has passed. -/
inductive Proc where
  | idle
  | initializing (p : Pending) (selected : Option String)
  | leasing (p : Pending) (selected : Option String) (expected : String)
  | admitting (p : Pending) (selected : Option String) (expected : String) (checked : Bool)
  | running (a : Attempt) (selected : Option String) (done : Nat) (checked : Bool)
  | failing (a : Attempt) (checked : Bool)

/-- An installation: the journal, the lease files, the bundle directories by version and
operation, `current.txt`, the clock, and the effects of attempts so far. -/
structure Installation where
  journal : Option Text
  leases : SortedSet String
  bundles : List (String × String)
  current : Option String
  clock : Nat
  proc : Proc
  events : List Event

/-- No repair has been tried. -/
def Installation.fresh (bundles : List (String × String)) (current : Option String)
    (clock : Nat) : Installation :=
  ⟨none, .empty, bundles, current, clock, .idle, []⟩

variable [F64] [Sha256]

/-- What attempts do. -/
inductive Act : Installation → Installation → Prop where
  /-- The checks of `install_request` and `Attempt::begin`. -/
  | begin {s : Installation} {program : String} {request : RepairRequest}
      {executableSha256 runningSlot : String} {p : Pending} (hidle : s.proc = .idle)
      (hcurrent : s.current = none ∨ s.current = some request.version)
      (hdestination : (request.version, request.requestId) ∉ s.bundles)
      (h : RepairReceipts.begin program request executableSha256 runningSlot s.clock s.journal
        s.leases = .ok p) :
      Act s { s with
        proc := match p.expected with
          | none => .initializing p s.current
          | some expected => .leasing p s.current expected }
  /-- `initialize`, which never replaces a journal. -/
  | create {s : Installation} {p : Pending} {selected : Option String}
      (hproc : s.proc = .initializing p selected) (h : s.journal = none) :
      Act s { s with
        journal := some (text [])
        proc := .leasing p selected (text []).sha256 }
  /-- The lease of the record that is about to be admitted. -/
  | lease {s : Installation} {p : Pending} {selected : Option String} {expected : String}
      {r : Receipt} (hproc : s.proc = .leasing p selected expected)
      (hr : p.records[p.index]? = some r) :
      Act s { s with
        leases := s.leases.insert r.requestId
        proc := .admitting p selected expected false }
  | checkAdmission {s : Installation} {p : Pending} {selected : Option String} {expected : String}
      (hproc : s.proc = .admitting p selected expected false)
      (h : guard s.journal expected = .ok ()) :
      Act s { s with proc := .admitting p selected expected true }
  | admitted {s : Installation} {p : Pending} {selected : Option String} {expected : String}
      {t : Text} (hproc : s.proc = .admitting p selected expected true)
      (h : publish p.records = .ok t) :
      Act s { s with
        journal := some t
        proc := .running ⟨p.records, p.index, t.sha256⟩ selected 0 false }
  | checkStep {s : Installation} {a : Attempt} {selected : Option String} {done : Nat} {st : Step}
      (hproc : s.proc = .running a selected done false) (hbody : body[done]? = some (.step st))
      (h : guard s.journal a.expectedSha256 = .ok ()) :
      Act s { s with proc := .running a selected done true }
  | step {s : Installation} {a : Attempt} {selected : Option String} {done : Nat} {st : Step}
      {records : List Receipt} {t : Text} (hproc : s.proc = .running a selected done true)
      (hbody : body[done]? = some (.step st)) (h : a.step st s.clock = .ok records)
      (hpublish : publish records = .ok t) :
      Act s { s with
        journal := some t
        proc := .running ⟨records, a.index, t.sha256⟩ selected (done + 1) false }
  | rename {s : Installation} {a : Attempt} {selected : Option String} {done : Nat} {r : Receipt}
      (hproc : s.proc = .running a selected done false) (hbody : body[done]? = some .rename)
      (hr : a.records[a.index]? = some r) :
      Act s { s with
        bundles := (r.version, r.requestId) :: s.bundles
        events := .staged r.requestId :: s.events
        proc := .running a selected (done + 1) false }
  | select {s : Installation} {a : Attempt} {selected : Option String} {done : Nat} {r : Receipt}
      (hproc : s.proc = .running a selected done false) (hbody : body[done]? = some .select)
      (hr : a.records[a.index]? = some r) :
      Act s { s with
        events := .selection r.requestId :: s.events
        proc := .running a selected (done + 1) false }
  /-- `current.txt` is written where no version was installed. -/
  | current {s : Installation} {a : Attempt} {selected : Option String} {done : Nat} {r : Receipt}
      {current : Option String} (hproc : s.proc = .running a selected done false)
      (hbody : body[done]? = some .current) (hr : a.records[a.index]? = some r)
      (h : current = if selected.isNone then some r.version else s.current) :
      Act s { s with
        current
        events := .current r.requestId current :: s.events
        proc := .running a selected (done + 1) false }
  /-- Anything that goes wrong in the body: a refused guard, a failed write, the download. -/
  | refuse {s : Installation} {a : Attempt} {selected : Option String} {done : Nat}
      {checked : Bool} (hproc : s.proc = .running a selected done checked)
      (hdone : done < body.length) :
      Act s { s with proc := .failing a false }
  | checkFailure {s : Installation} {a : Attempt} (hproc : s.proc = .failing a false)
      (h : guard s.journal a.expectedSha256 = .ok ()) :
      Act s { s with proc := .failing a true }
  | fail {s : Installation} {a : Attempt} {records : List Receipt} {t : Text}
      (hproc : s.proc = .failing a true) (h : a.failed s.clock = .ok records)
      (hpublish : publish records = .ok t) :
      Act s { s with journal := some t, proc := .idle }
  /-- The process is killed, or it returns. -/
  | stop {s : Installation} (hproc : s.proc ≠ .idle) : Act s { s with proc := .idle }

/-- What happens to an installation whose journal nobody else touches. Other updates move
`current.txt` between attempts. -/
inductive Turn : Installation → Installation → Prop where
  | act {s t : Installation} (h : Act s t) : Turn s t
  | tick {s : Installation} (clock : Nat) : Turn s { s with clock }
  | update {s : Installation} (current : Option String) (hproc : s.proc = .idle) :
      Turn s { s with current }

/-- Somebody else changes or removes the journal. -/
inductive Outside : Installation → Installation → Prop where
  | journal {s : Installation} (journal : Option Text) : Outside s { s with journal }

/-- The clock reads a time that a receipt may carry. -/
def Timely (s : Installation) : Prop := 0 < s.clock ∧ s.clock ≤ i64Max

/-- A turn to a state whose clock can be written down. -/
def TimelyTurn (s t : Installation) : Prop := Turn s t ∧ Timely t

/-! ## The invariant -/

/-- The step that is durable when `done` actions of the body are. -/
def stepAt : Nat → Step
  | 0 => .admitted
  | 1 => .downloading
  | 2 => .verifying
  | 3 => .staging
  | 4 => .staging
  | 5 => .staged
  | 6 => .selecting
  | 7 => .selecting
  | 8 => .selecting
  | _ => .selected

omit [F64] [Sha256] in
theorem body_step {done : Nat} {st : Step} (h : body[done]? = some (.step st)) :
    stepAt (done + 1) = st ∧ st.ordinal = (stepAt done).ordinal + 1 ∧ done ≠ 6 ∧ done ≠ 7 ∧
      (st = .selected ↔ done = 8) := by
  match done, h with
  | 0, h | 1, h | 2, h | 4, h | 5, h | 8, h =>
    cases h
    decide
  | n + 9, h => cases h

/-- The evidence of a record does not understate the effects of its operation. -/
structure Evidence (s : Installation) (r : Receipt) : Prop where
  bundle : (r.version, r.requestId) ∈ s.bundles → Step.staging.ordinal ≤ r.step.ordinal
  staged : .staged r.requestId ∈ s.events → Step.staging.ordinal ≤ r.step.ordinal
  selection : .selection r.requestId ∈ s.events → Step.selecting.ordinal ≤ r.step.ordinal
  selected : r.step = .selected → .selection r.requestId ∈ s.events ∧
    .current r.requestId (some r.version) ∈ s.events

/-- The record that an admission is about to publish. -/
structure Admitting (s : Installation) (rs : List Receipt) (p : Pending)
    (selected : Option String) (r : Receipt) : Prop where
  records : p.records = rs ++ [r]
  index : p.index = rs.length
  room : rs.length < maxRecords
  sound : r.Sound
  sequence : r.sequence = rs.length + 1
  fresh : ∀ q ∈ rs, q.requestId ≠ r.requestId
  step : r.step = .admitted
  outcome : r.outcome = .inProgress
  bundle : (r.version, r.requestId) ∉ s.bundles
  current : s.current = selected
  version : selected = none ∨ selected = some r.version

/-- How far the running attempt is. -/
structure Running (s : Installation) (rs : List Receipt) (a : Attempt)
    (selected : Option String) (done : Nat) (r : Receipt) : Prop where
  records : a.records = rs
  found : rs[a.index]? = some r
  step : r.step = stepAt done
  outcome : done < body.length → r.outcome = .inProgress
  selection : 7 ≤ done → .selection r.requestId ∈ s.events
  named : 8 ≤ done → .current r.requestId (some r.version) ∈ s.events
  current : done ≤ 7 → s.current = selected
  version : selected = none ∨ selected = some r.version

/-- The digest of the journal as the process last knew it. -/
def Proc.expected : Proc → Option String
  | .idle | .initializing _ _ => none
  | .leasing _ _ expected | .admitting _ _ expected _ => some expected
  | .running a _ _ _ | .failing a _ => some a.expectedSha256

/-- What holds of the process. -/
def ProcOk (s : Installation) (rs : List Receipt) : Proc → Prop
  | .idle => True
  | .initializing p selected => ∃ r, Admitting s rs p selected r
  | .leasing p selected _ => ∃ r, Admitting s rs p selected r
  | .admitting p selected _ _ => ∃ r, Admitting s rs p selected r
  | .running a selected done _ => ∃ r, Running s rs a selected done r
  | .failing a _ => a.records = rs ∧ ∃ r, rs[a.index]? = some r ∧ r.outcome = .inProgress

/-- The journal holds `rs`, and they tell the truth. -/
structure Inv (s : Installation) (rs : List Receipt) : Prop where
  stored : (s.journal = none ∧ rs = []) ∨ s.journal = some (text rs)
  valid : Valid rs
  evidence : ∀ r ∈ rs, Evidence s r
  known : ∀ e ∈ s.events, ∃ r ∈ rs, r.requestId = e.id
  proc : ProcOk s rs s.proc
  expected : s.proc ≠ .idle → s.proc.expected = s.journal.map Text.sha256

theorem Inv.fresh (bundles : List (String × String)) (current : Option String) (clock : Nat) :
    Inv (.fresh bundles current clock) [] where
  stored := Or.inl ⟨rfl, rfl⟩
  valid := Valid.nil
  evidence _ h := by cases h
  known _ h := by cases h
  proc := trivial
  expected h := absurd rfl h

end Eef.Node.RepairReceipts
