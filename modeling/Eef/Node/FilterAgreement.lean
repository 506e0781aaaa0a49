import Eef.Node.StopFence

/-!
# The event filter and the event journal agree

`Filter` limits a stream over raw instants; `Event::follows` and `append` check the
same limits again over the milliseconds and bytes an event carries. A session of
`workload_runtime.rs` runs them in lockstep: each observation goes through the filter,
an emitted event is saved under a checkpoint of the current lease, and only then the
next observation is read.

`Filter.Tracks` relates the filter to the log the journal keeps. `Tracks.event` is the
step: an emitted event follows the log and fits its budget, so `append` accepts it and
the relation holds again. `filter_journal_agree` states it for whole sessions, up to the
seal that confirms what the journal has.
-/

namespace Eef.Node

open Eef.Lib

/-! ## One observation -/

namespace Filter

variable [F64] {f f' : Filter} {o : StreamObservation} {now : Nat}

/-- What an emitted event went through. -/
structure Emits (f : Filter) (o : StreamObservation) (now : Nat) (e : Event) (f' : Filter) :
    Prop where
  running : f.failed = false
  continues : f.continues o now
  required : ¬(f.lastActive = some o.active ∧ o.discontinuity = false)
  event : e = (f.advance o now).eventOf o now
  rate : ∀ previous ∈ f.lastEventAt, f.limits.minIntervalMs ≤ elapsed previous now
  count : f.events < f.limits.maxEvents
  size : e.toJson.size ≤ f.limits.maxEventBytes
  total : e.toJson.size ≤ f.limits.maxTotalBytes - f.bytes
  next : f' = (f.advance o now).emit e now

theorem observe_event {e : Event} (h : f.observe o now = (f', .ok (some e))) :
    f.Emits o now e f' := by
  unfold observe at h
  split at h
  · cases h
  rename_i hrunning
  unfold accept at h
  by_cases hc : f.continues o now
  · simp only [if_pos hc] at h
    by_cases hq : f.lastActive = some o.active ∧ o.discontinuity = false
    · simp only [if_pos hq] at h
      cases h
    · simp only [if_neg hq] at h
      cases ha : (f.advance o now).admits ((f.advance o now).eventOf o now) now with
      | error m =>
        simp only [ha] at h
        cases h
      | ok u =>
        simp only [ha] at h
        simp only [admits, bind_ok, ensure_ok] at ha
        obtain ⟨_, hrate, _, hcount, _, -, hsize, htotal⟩ := ha
        cases h
        exact ⟨by simpa using hrunning, hc, hq, rfl, hrate, hcount, hsize, htotal, rfl⟩
  · simp only [if_neg hc] at h
    cases h

theorem observe_quiet (h : f.observe o now = (f', .ok none)) :
    f.failed = false ∧ f.continues o now ∧ f.lastActive = some o.active ∧ f' = f.advance o now := by
  unfold observe at h
  split at h
  · cases h
  rename_i hrunning
  unfold accept at h
  by_cases hc : f.continues o now
  · simp only [if_pos hc] at h
    by_cases hq : f.lastActive = some o.active ∧ o.discontinuity = false
    · simp only [if_pos hq] at h
      cases h
      exact ⟨by simpa using hrunning, hc, hq.1, rfl⟩
    · simp only [if_neg hq] at h
      cases ha : (f.advance o now).admits ((f.advance o now).eventOf o now) now with
      | error m =>
        simp only [ha] at h
        cases h
      | ok u =>
        simp only [ha] at h
        cases h
  · simp only [if_neg hc] at h
    cases h

theorem observe_error {m : String} (h : f.observe o now = (f', .error m)) : f'.failed = true := by
  unfold observe at h
  split at h
  · rename_i hfailed
    cases h
    exact hfailed
  · split at h
    · cases h
    · cases h
      rfl

omit [F64] in
theorem sealEvents_ok {summary : StreamSummary} {sealed : EventSeal}
    (h : (f.sealEvents summary).2 = .ok sealed) :
    f.failed = false ∧ f.lastEvent = some sealed.last ∧ sealed.count = f.events
      ∧ sealed.bytes = f.bytes := by
  unfold sealEvents at h
  simp only at h
  split at h
  · rename_i hvalid
    cases hlast : f.lastEvent with
    | none =>
      rw [hlast] at h
      cases h
    | some last =>
      rw [hlast] at h
      cases h
      exact ⟨hvalid.1, rfl, rfl, rfl⟩
  · cases h

end Filter

/-! ## The filter tracks the log -/

section
variable [F64]

/-- The filter's own counters and times are those of the retained log. -/
structure Filter.Tracks (f : Filter) (d : WorkloadDefinition) (log : EventLog d) : Prop where
  limits : f.limits = d.events
  blockFrames : f.blockFrames = d.source.parameters.blockFrames
  maxBlocks : f.maxBlocks = d.source.parameters.maxBlocks
  maxSourceFrames : f.maxSourceFrames = d.limits.maxSourceFrames
  frames : f.lastSourceFrames = f.lastSourceSequence * f.blockFrames
  events : f.events = log.records.length
  bytes : f.bytes = log.bytes
  lastEvent : f.lastEvent = log.records.getLast?.map EventRecord.event
  lastActive : f.lastActive = f.lastEvent.map Event.active
  fresh : f.lastEvent = none → f.lastSourceSequence = 0 ∧ f.firstObservedAt = none
  timed : ∀ e ∈ f.lastEvent, e.sourceSequence ≤ f.lastSourceSequence ∧ ∃ first sent seen,
    f.firstObservedAt = some first ∧ f.lastEventAt = some sent ∧ f.lastObservedAt = some seen
      ∧ first ≤ sent ∧ sent ≤ seen ∧ e.elapsedMs = Filter.elapsed first sent

variable {f f' : Filter} {d : WorkloadDefinition} {log : EventLog d} {o : StreamObservation}
  {now : Nat}

theorem Filter.Tracks.start (d : WorkloadDefinition) :
    (Filter.start d).Tracks d (EventLog.empty d) where
  limits := rfl
  blockFrames := rfl
  maxBlocks := rfl
  maxSourceFrames := rfl
  frames := (Nat.zero_mul _).symm
  events := rfl
  bytes := rfl
  lastEvent := rfl
  lastActive := rfl
  fresh := fun _ => ⟨rfl, rfl⟩
  timed := by simp [Filter.start]

omit [F64] in
/-- The milliseconds of two consecutive spans add up to at most those of the whole. -/
theorem Filter.elapsed_add {first sent now : Nat} (h1 : first ≤ sent) (h2 : sent ≤ now) :
    Filter.elapsed first sent + Filter.elapsed sent now ≤ Filter.elapsed first now := by
  simp only [Filter.elapsed]
  omega

/-- An observation without an event keeps the relation. -/
theorem Filter.Tracks.quiet (h : f.Tracks d log) (hobs : f.observe o now = (f', .ok none)) :
    f'.Tracks d log := by
  obtain ⟨-, hc, hactive, rfl⟩ := Filter.observe_quiet hobs
  obtain ⟨hseq, -, hframes, -, -, -, -, hclock⟩ := hc
  have hsome : f.lastEvent ≠ none := by
    intro hnone
    rw [h.lastActive, hnone] at hactive
    cases hactive
  refine ⟨h.limits, h.blockFrames, h.maxBlocks, h.maxSourceFrames, ?_, h.events, h.bytes,
    h.lastEvent, h.lastActive, fun hnone => absurd hnone hsome, ?_⟩
  · show o.sourceFrames = o.sequence * f.blockFrames
    rw [hframes, hseq, h.frames, Nat.add_mul, Nat.one_mul]
  · intro e he
    obtain ⟨hsource, first, sent, seen, hfirst, hsent, hseen, h1, h2, h3⟩ := h.timed e he
    refine ⟨?_, first, sent, now, ?_, hsent, rfl, h1, ?_, h3⟩
    · show e.sourceSequence ≤ o.sequence
      omega
    · show some (f.firstObservedAt.getD now) = some first
      rw [hfirst]
      rfl
    · exact h2.trans (hclock seen hseen)

/-- An emitted event follows the log: what the filter tested over instants is what
`follows` tests over milliseconds. -/
theorem Filter.Tracks.follows (h : f.Tracks d log) (hd : d.Valid) {e : Event}
    (hobs : f.observe o now = (f', .ok (some e)))
    (hsession : Filter.elapsed (f.firstObservedAt.getD now) now ≤ d.limits.maxSessionMs) :
    e.follows d (log.records.getLast?.map EventRecord.event) = .ok () := by
  obtain ⟨-, hc, hrequired, rfl, hrate, hcount, -, -, -⟩ := Filter.observe_event hobs
  obtain ⟨hseq, hblocks, hframes, hmax, hlevel, hactive, hdisc, hclock⟩ := hc
  have hevents := h.events
  rw [h.limits] at hcount
  rw [Event.follows_ok, ← h.lastEvent]
  refine ⟨⟨rfl, Nat.succ_pos _, hcount, ?_, ?_, ?_, ?_, ?_, hlevel, hactive, hdisc⟩, ?_⟩
  · show 0 < o.sequence
    omega
  · exact h.maxBlocks ▸ hblocks
  · show o.sourceFrames = o.sequence * d.source.parameters.blockFrames
    rw [hframes, hseq, h.frames, h.blockFrames, Nat.add_mul, Nat.one_mul]
  · exact h.maxSourceFrames ▸ hmax
  · exact hsession
  · cases hlast : f.lastEvent with
    | none =>
      have hnil : log.records = [] := by
        have := h.lastEvent
        rw [hlast] at this
        rcases List.eq_nil_or_concat log.records with hnil | ⟨before, last, hcat⟩
        · exact hnil
        · rw [hcat] at this
          simp at this
      obtain ⟨hsource, hfirst⟩ := h.fresh hlast
      refine ⟨?_, ?_, ?_⟩
      · show f.events + 1 = 1
        rw [hevents, hnil]
        rfl
      · show o.sequence = 1
        omega
      · show Filter.elapsed ((some (f.firstObservedAt.getD now)).getD now) now = 0
        rw [hfirst]
        simp [Filter.elapsed]
    | some p =>
      obtain ⟨hsource, first, sent, seen, hfirst, hsent, hseen, h1, h2, h3⟩ := h.timed p hlast
      have hnow := h2.trans (hclock seen hseen)
      -- the last retained event carries the number of events so far
      have hnumber : p.sequence = f.events := by
        have hp := h.lastEvent
        rw [hlast] at hp
        rcases List.eq_nil_or_concat log.records with hnil | ⟨before, last, hcat⟩
        · rw [hnil] at hp
          cases hp
        · have hlog : log.records = before ++ [last] := by simpa using hcat
          rw [hlog, List.getLast?_concat] at hp
          cases hp
          rw [log.sequence_at hlog, hevents, hlog, List.length_append]
          rfl
      have hlimit := hd.maxEvents.2
      refine ⟨⟨?_, ?_⟩, ?_, ?_, ?_⟩
      · simp only [u64Max]
        omega
      · show f.events + 1 = _
        rw [hnumber]
      · show p.sourceSequence < o.sequence
        omega
      · have hsum := Filter.elapsed_add h1 hnow
        have hmin := hrate sent hsent
        rw [h.limits] at hmin
        show _ ≤ Filter.elapsed ((some (f.firstObservedAt.getD now)).getD now) now
        rw [hfirst]
        simp only [Option.getD_some]
        omega
      · rw [h.lastActive, hlast] at hrequired
        show o.active ≠ p.active ∨ o.discontinuity = true
        by_cases hsame : o.active = p.active
        · refine .inr ?_
          by_contra hd
          exact hrequired ⟨by rw [hsame]; rfl, by simpa using hd⟩
        · exact .inl hsame

/-- An emitted event fits the budget of the log. -/
theorem Filter.Tracks.fits (h : f.Tracks d log) {e : Event}
    (hobs : f.observe o now = (f', .ok (some e))) :
    e.toJson.size ≤ d.events.maxEventBytes
      ∧ log.bytes + e.toJson.size ≤ d.events.maxTotalBytes := by
  have he := Filter.observe_event hobs
  have hsize := he.size
  have htotal := he.total
  rw [h.limits] at hsize htotal
  rw [h.bytes] at htotal
  have hpos := e.minBytes
  exact ⟨hsize, by omega⟩

/-- Once the event is retained, the filter tracks the longer log. -/
theorem Filter.Tracks.event (h : f.Tracks d log) {e : Event}
    (hobs : f.observe o now = (f', .ok (some e))) {log' : EventLog d} {record : EventRecord}
    (hlog : log'.records = log.records ++ [record]) (hrecord : record.event = e) :
    f'.Tracks d log' := by
  have he := Filter.observe_event hobs
  obtain ⟨hseq, -, hframes, -, -, -, -, hclock⟩ := he.continues
  rw [he.next]
  refine ⟨h.limits, h.blockFrames, h.maxBlocks, h.maxSourceFrames, ?_, ?_, ?_, ?_, rfl, ?_, ?_⟩
  · show o.sourceFrames = o.sequence * f.blockFrames
    rw [hframes, hseq, h.frames, Nat.add_mul, Nat.one_mul]
  · show f.events + 1 = _
    rw [hlog, List.length_append, h.events]
    rfl
  · show f.bytes + e.toJson.size = _
    rw [EventLog.bytes, hlog, h.bytes]
    simp [EventLog.bytes, hrecord]
  · rw [hlog, List.getLast?_concat, Option.map_some, hrecord]
    rfl
  · intro hnone
    cases hnone
  · rintro _ ⟨rfl⟩
    refine ⟨?_, f.firstObservedAt.getD now, now, now, rfl, rfl, rfl, ?_, Nat.le_refl _, ?_⟩
    · rw [he.event]
      exact Nat.le_refl _
    · cases hfirst : f.firstObservedAt with
      | none => exact Nat.le_refl _
      | some first =>
        cases hlast : f.lastEvent with
        | none =>
          have := (h.fresh hlast).2
          rw [hfirst] at this
          cases this
        | some p =>
          obtain ⟨-, first', sent, seen, hfirst', -, hseen, h1, h2, -⟩ := h.timed p hlast
          rw [hfirst] at hfirst'
          cases hfirst'
          exact h1.trans (h2.trans (hclock seen hseen))
    · rw [he.event]
      rfl

end

/-! ## Sessions -/

section
variable [F64] [Sha256] [PeerAdmission]

/-- A running session: its filter, the ledger it saves to and the reporting authority
its checkpoints come from. -/
structure Session where
  filter : Filter
  ledger : Ledger
  authority : Reporting
  issued : authority.Issued

/-- One step of a session of `d`: the lease is renewed, or an observation is read, and an
event it emits is saved under a live checkpoint of the current authority. -/
inductive SessionStep (d : WorkloadDefinition) : Session → Session → Prop where
  | renew {t : Session} {w : Window} {now : Nat} {s : Reporting} (hw : w.Issued)
      (h : t.authority.advance w now = .ok s) :
      SessionStep d t ⟨t.filter, t.ledger, s, .advance t.issued hw h⟩
  | quiet {t : Session} {o : StreamObservation} {now : Nat} {f : Filter}
      (h : t.filter.observe o now = (f, .ok none)) : SessionStep d t { t with filter := f }
  | refused {t : Session} {o : StreamObservation} {now : Nat} {f : Filter} {m : String}
      (h : t.filter.observe o now = (f, .error m)) : SessionStep d t { t with filter := f }
  | event {t : Session} {o : StreamObservation} {now taken : Nat} {f : Filter} {e : Event}
      {contract : Contract} {c : Checkpoint} {r : AppendReadings}
      (h : t.filter.observe o now = (f, .ok (some e)))
      (hsession : Filter.elapsed (t.filter.firstObservedAt.getD now) now ≤ d.limits.maxSessionMs)
      (hcontract : d.leaseContract = .ok contract)
      (hc : t.authority.checkpoint contract taken = .ok c) (hlive : r.Live c d)
      (hclock : r.now ≤ i64Max) :
      SessionStep d t { t with filter := f, ledger := (t.ledger.append d e c r).1 }

/-- The last event the journal keeps of a workload. -/
def Journal.lastEvent (j : Journal) (id : String) : Option Event :=
  ((j.eventRows id).getLast?.bind fun row => EventRecord.fromJson row.data).map EventRecord.event

/-- What every step of a session keeps. -/
structure SessionInv (d : WorkloadDefinition) (t : Session) (row : ReceiptRow) (log : EventLog d) :
    Prop where
  reachable : t.ledger.Reachable
  stored : OpenRow t.ledger.journal row d log
  unstopped : t.ledger.journal.stop d.grantId = none
  tracks : t.filter.failed = false → t.filter.Tracks d log
  lease : ∀ p ∈ log.records.getLast?, p.leaseSequence ≤ t.authority.sequence

omit [F64] [PeerAdmission] in
theorem Reporting.checkpoint_sequence {s : Reporting} {contract : Contract} {now : Nat}
    {c : Checkpoint} (h : s.checkpoint contract now = .ok c) : c.sequence = s.sequence := by
  simp only [Reporting.checkpoint, bind_ok, pure_ok] at h
  obtain ⟨_, _, _, _, _, _, _, _, rfl⟩ := h
  rfl

omit [F64] [Sha256] [PeerAdmission] in
theorem Reporting.advance_sequence {s s' : Reporting} {w : Window} {now : Nat}
    (h : s.advance w now = .ok s') : s.sequence ≤ s'.sequence := by
  simp only [Reporting.advance, bind_ok, ensure_ok, pure_ok] at h
  obtain ⟨_, ⟨-, -, -, -, hnext⟩, _, -, rfl⟩ := h
  show s.sequence ≤ w.sequence
  omega

/-- An event the filter emits next is accepted by the journal. -/
theorem SessionInv.accepts {d : WorkloadDefinition} {t : Session} {row : ReceiptRow}
    {log : EventLog d} (h : SessionInv d t row log) {o : StreamObservation} {now taken : Nat}
    {f : Filter} {e : Event} (hobs : t.filter.observe o now = (f, .ok (some e)))
    (hsession : Filter.elapsed (t.filter.firstObservedAt.getD now) now ≤ d.limits.maxSessionMs)
    {contract : Contract} {c : Checkpoint} (hc : t.authority.checkpoint contract taken = .ok c)
    {r : AppendReadings} (hlive : r.Live c d) (hclock : r.now ≤ i64Max) :
    (t.ledger.append d e c r).2 = .ok
        { sequence := e.sequence, reused := false,
          dataSha256 := Sha256.raw (freshRecord row e c r).toJson }
    ∧ ∃ row' log', SessionInv d { t with filter := f, ledger := (t.ledger.append d e c r).1 }
        row' log' := by
  have htracks := h.tracks (Filter.observe_event hobs).running
  have hseq := Reporting.checkpoint_sequence hc
  have hrange := TakenCheckpoint.sequence_range ⟨c, t.authority, contract, taken, t.issued, hc⟩
  obtain ⟨hsize, htotal⟩ := htracks.fits hobs
  obtain ⟨hok, hstop, log', hlog, hopen⟩ := append_fresh h.reachable.inv h.stored hlive h.unstopped
    hclock hrange (fun p hp => hseq ▸ h.lease p hp) (htracks.follows h.stored.valid hobs hsession)
    hsize htotal
  refine ⟨hok, _, log', ?_, hopen, hstop, fun _ => htracks.event hobs hlog rfl, ?_⟩
  · exact h.reachable.step (.append d e ⟨c, t.authority, contract, taken, t.issued, hc⟩ r)
  · intro p hp
    rw [hlog, List.getLast?_concat] at hp
    cases hp
    exact Nat.le_of_eq hseq

theorem SessionInv.step {d : WorkloadDefinition} {t t' : Session} (hs : SessionStep d t t')
    (h : ∃ row log, SessionInv d t row log) : ∃ row log, SessionInv d t' row log := by
  obtain ⟨row, log, h⟩ := h
  cases hs with
  | renew hw hadvance =>
    have hle := Reporting.advance_sequence hadvance
    exact ⟨row, log, h.reachable, h.stored, h.unstopped, h.tracks,
      fun p hp => (h.lease p hp).trans hle⟩
  | quiet hobs =>
    have hrunning := (Filter.observe_quiet hobs).1
    exact ⟨row, log, h.reachable, h.stored, h.unstopped, fun _ => (h.tracks hrunning).quiet hobs,
      h.lease⟩
  | refused hobs =>
    refine ⟨row, log, h.reachable, h.stored, h.unstopped, fun hrunning => ?_, h.lease⟩
    have hfailed := Filter.observe_error hobs
    rw [show _ = false from hrunning] at hfailed
    cases hfailed
  | event hobs hsession hcontract hc hlive hclock =>
    exact (h.accepts hobs hsession hc hlive hclock).2

omit [PeerAdmission] in
/-- The journal's last event is the last one of the log. -/
theorem OpenRow.lastEvent {j : Journal} {row : ReceiptRow} {d : WorkloadDefinition}
    {log : EventLog d} (h : OpenRow j row d log) :
    j.lastEvent d.grantId = log.records.getLast?.map EventRecord.event := by
  unfold Journal.lastEvent
  rw [h.holds.events, EventLog.rows]
  rcases List.eq_nil_or_concat log.records with hnil | ⟨before, last, hcat⟩
  · rw [hnil]
    rfl
  · have hlog : log.records = before ++ [last] := by simpa using hcat
    obtain ⟨previous, hnext⟩ := log.linked.forall (P := fun r => ∃ previous, r.Next d previous)
      (fun previous _ h => ⟨previous, h⟩) last (by simp [hlog])
    have hback := EventRecord.fromJson_toJson h.valid hnext.version hnext.lease_le
      hnext.recorded_le hnext.valid
    rw [hlog, Chain.rows_append, List.getLast?_concat, Chain.rows, Chain.rows, List.getLast?_concat]
    simp [Ledger.eventRowOf, hback]

/-- A consumed workload is open, with an empty log. -/
theorem consume_open {l : Ledger} (hl : l.Reachable) {d : WorkloadDefinition} {policy : LeasePolicy}
    {initial : LeaseProof} {issuer session node : String} {r : ConsumeReadings}
    (hok : ((LedgerOp.consume d policy initial issuer session node r).run l).2 = true) :
    OpenRow ((LedgerOp.consume d policy initial issuer session node r).run l).1.journal
        (Ledger.consumedRow d (max r.now 1)) d (EventLog.empty d)
      ∧ ((LedgerOp.consume d policy initial issuer session node r).run l).1.journal.stop d.grantId =
        none := by
  have hinv := hl.inv
  cases htx : l.consumeTx d policy initial issuer session node r with
  | error e => simp [LedgerOp.run, Ledger.consume, Ledger.commit, htx, isOk] at hok
  | ok p =>
    obtain ⟨j', contract⟩ := p
    have hj : ((LedgerOp.consume d policy initial issuer session node r).run l).1.journal = j' := by
      simp only [LedgerOp.run, Ledger.consume, Ledger.commit, htx, Prod.map, id]
    rw [hj]
    have hc := Ledger.consumeTx_ok htx
    have hrow := hinv.workloads.consumed_row hinv.owner hc
    obtain ⟨_, -, -, -, -, -, -, hrows, -⟩ := hinv.workloads.consumed_tables hc
    refine ⟨{ hrow with mem := ?_, accepted := rfl }, ?_⟩
    · rw [hrows]
      exact List.mem_append_right _ (List.mem_singleton_self _)
    · obtain ⟨j₁, _, _, hup, -, -, -, -, -, rfl⟩ := hc.writes
      have hstops := (Journal.upgrade_ok hup).1.stops
      exact (stop_eq (j := l.journal) hstops d.grantId).trans hc.slot.unstopped

/-- **The filter and the journal agree.** A workload `d` is consumed and a session runs on
it. In every state of the session, an event the filter emits within the session's time
takes at least 128 bytes, follows the last event the journal keeps, and is accepted by
`append` under a live checkpoint; and if sealing the filter succeeds, the seal confirms
exactly what `completion_prefix` reads from the journal. -/
theorem filter_journal_agree {l : Ledger} (hl : l.Reachable) {d : WorkloadDefinition}
    {policy : LeasePolicy} {initial : LeaseProof} {issuer session node : String}
    {cr : ConsumeReadings}
    (hconsume : ((LedgerOp.consume d policy initial issuer session node cr).run l).2 = true)
    {f : Filter} (hf : Filter.new d = .ok f) {s : Reporting} (hs : s.Issued) {t : Session}
    (hrun : Run (SessionStep d)
      ⟨f, ((LedgerOp.consume d policy initial issuer session node cr).run l).1, s, hs⟩ t) :
    (∀ o now f' e, t.filter.observe o now = (f', .ok (some e)) →
      Filter.elapsed (t.filter.firstObservedAt.getD now) now ≤ d.limits.maxSessionMs →
        minEventBytes ≤ e.toJson.size
        ∧ e.follows d (t.ledger.journal.lastEvent d.grantId) = .ok ()
        ∧ ∀ contract taken c r, t.authority.checkpoint contract taken = .ok c → r.Live c d →
          r.now ≤ i64Max → ∃ receipt, (t.ledger.append d e c r).2 = .ok receipt
            ∧ receipt.sequence = e.sequence ∧ receipt.reused = false)
    ∧ ∀ summary sealed, (t.filter.sealEvents summary).2 = .ok sealed →
        ∃ w count bytes chain last lease,
          t.ledger.journal.readCore t.ledger.nodeId (some d.issuerId) d.grantId = .ok w
          ∧ t.ledger.journal.completionPrefix w = .ok (count, bytes, chain, last, lease)
          ∧ sealed.confirms count bytes last = true := by
  have hinv : ∃ row log, SessionInv d t row log := by
    refine @Run.invariant _ (SessionStep d) (fun t => ∃ row log, SessionInv d t row log)
      (fun _ _ h hs => SessionInv.step hs h) _ _ ?_ hrun
    obtain ⟨hopen, hstop⟩ := consume_open hl hconsume
    simp only [Filter.new, bind_ok, pure_ok] at hf
    obtain ⟨_, -, rfl⟩ := hf
    exact ⟨_, _, hl.step _, hopen, hstop, fun _ => .start d, by simp [EventLog.empty]⟩
  obtain ⟨row, log, h⟩ := hinv
  refine ⟨?_, ?_⟩
  · intro o now f' e hobs hsession
    have htracks := h.tracks (Filter.observe_event hobs).running
    refine ⟨e.minBytes, ?_, ?_⟩
    · rw [h.stored.lastEvent]
      exact htracks.follows h.stored.valid hobs hsession
    · intro contract taken c r hc hlive hclock
      exact ⟨_, (h.accepts hobs hsession hc hlive hclock).1, rfl, rfl⟩
  · intro summary sealed hseal
    obtain ⟨hrunning, hlast, hcount, hbytes⟩ := Filter.sealEvents_ok hseal
    have htracks := h.tracks hrunning
    rw [htracks.lastEvent] at hlast
    obtain ⟨record, hrecord, hevent⟩ := Option.map_eq_some_iff.mp hlast
    have hledger := h.reachable.inv
    have hnode : t.ledger.nodeId = d.executorNode :=
      Option.some.inj (hledger.owner.symm.trans h.stored.node)
    obtain ⟨hread, -⟩ := h.stored.read hledger.workloads hledger.receipts.ids
    rw [← hnode] at hread
    refine ⟨_, _, _, _, _, _, hread, h.stored.holds.completionPrefix h.stored.validate
      (h.stored.covers _ _) hrecord, ?_⟩
    simp [EventSeal.confirms, hcount, hbytes, hevent, htracks.events, htracks.bytes]

end

section
attribute [local instance] F64.bits PeerAdmission.never eventSha

/-- Three blocks of the sample stream: silence, more of it, and a voice. -/
def firstBlock : StreamObservation := ⟨1, 160, some false, some 12, false⟩

@[inherit_doc firstBlock]
def quietBlock : StreamObservation := ⟨2, 320, some false, some 15, false⟩

@[inherit_doc firstBlock]
def voiceBlock : StreamObservation := ⟨3, 480, some true, some 900, false⟩

/-- The event of the voice. -/
def voiceEvent : Event := ⟨2, .microphoneActivity, 2, 3, 480, 20, some true, some 900, false⟩

/-- The filter after each block. -/
def firstFilter : Filter :=
  ((Filter.start sampleWorkload).advance firstBlock (millis 5)).emit firstEvent (millis 5)

@[inherit_doc firstFilter]
def quietFilter : Filter := firstFilter.advance quietBlock (millis 15)

@[inherit_doc firstFilter]
def voiceFilter : Filter :=
  (quietFilter.advance voiceBlock (millis 25)).emit voiceEvent (millis 25)

/-- A session of the sample workload, right after it was consumed. -/
def openedSession : Session :=
  ⟨Filter.start sampleWorkload, (sampleConsume.run openedLedger).1, workloadAuthority,
    workloadAuthority_issued⟩

/-- The session once the first event is saved. -/
def firstSession : Session :=
  { openedSession with
    filter := firstFilter
    ledger := (openedSession.ledger.append sampleWorkload firstEvent workloadCheckpoint.value
      liveReadings).1 }

/-- The session once the second block is read. -/
def quietSession : Session := { firstSession with filter := quietFilter }

/-- The session once the second event is saved. -/
def voiceSession : Session :=
  { quietSession with
    filter := voiceFilter
    ledger := (quietSession.ledger.append sampleWorkload voiceEvent workloadCheckpoint.value
      liveReadings).1 }

/-- The filter makes an event of the first and the third block, under a lease that is live, and its
seal counts them. -/
theorem sample_filtered :
    (Filter.start sampleWorkload).observe firstBlock (millis 5)
      = (firstFilter, .ok (some firstEvent))
    ∧ firstFilter.observe quietBlock (millis 15) = (quietFilter, .ok none)
    ∧ quietFilter.observe voiceBlock (millis 25) = (voiceFilter, .ok (some voiceEvent))
    ∧ Filter.elapsed ((Filter.start sampleWorkload).firstObservedAt.getD (millis 5)) (millis 5)
      ≤ sampleWorkload.limits.maxSessionMs
    ∧ Filter.elapsed (quietFilter.firstObservedAt.getD (millis 25)) (millis 25)
      ≤ sampleWorkload.limits.maxSessionMs
    ∧ workloadAuthority.checkpoint workloadContract (millis 5) = .ok workloadCheckpoint.value
    ∧ (voiceFilter.sealEvents ⟨3, 480⟩).2
      = .ok ⟨2, firstEvent.toJson.size + voiceEvent.toJson.size, voiceEvent⟩ := by
  decide +kernel

/-- The three blocks are read, and the two events saved. -/
theorem voiceSession_run : Run (SessionStep sampleWorkload) openedSession voiceSession := by
  obtain ⟨hfirst, hquiet, hvoice, hbegun, hsession, htaken, -⟩ := sample_filtered
  have h1 : SessionStep sampleWorkload openedSession firstSession :=
    .event hfirst hbegun workloadContract_eq htaken liveReadings_live (by decide)
  have h2 : SessionStep sampleWorkload firstSession quietSession :=
    @SessionStep.quiet _ _ sampleWorkload firstSession quietBlock (millis 15) quietFilter hquiet
  have h3 : SessionStep sampleWorkload quietSession voiceSession :=
    .event hvoice hsession workloadContract_eq htaken liveReadings_live (by decide)
  exact ((Relation.ReflTransGen.single h1).tail h2).tail h3

theorem filter_journal_agree_sealed :
    (voiceSession.filter.sealEvents ⟨3, 480⟩).2
      = .ok ⟨2, firstEvent.toJson.size + voiceEvent.toJson.size, voiceEvent⟩
    ∧ ∃ w count bytes chain last lease,
      voiceSession.ledger.journal.readCore voiceSession.ledger.nodeId
        (some sampleWorkload.issuerId) sampleWorkload.grantId = .ok w
      ∧ voiceSession.ledger.journal.completionPrefix w = .ok (count, bytes, chain, last, lease)
      ∧ EventSeal.confirms ⟨2, firstEvent.toJson.size + voiceEvent.toJson.size, voiceEvent⟩
        count bytes last = true := by
  have hopen : openedLedger.Reachable :=
    ⟨4096, GrantPolicy.default, "owner", openedLedger, rfl, .refl⟩
  have hconsume : (sampleConsume.run openedLedger).2 = true := by rw [sampleConsume_run]
  have hnew : Filter.new sampleWorkload = .ok (Filter.start sampleWorkload) := by
    simp only [Filter.new, bind_ok, pure_ok]
    exact ⟨(), sampleWorkload_validate, trivial⟩
  obtain ⟨-, -, -, -, -, -, hseal⟩ := sample_filtered
  exact ⟨hseal, (filter_journal_agree hopen hconsume hnew workloadAuthority_issued
    voiceSession_run).2 ⟨3, 480⟩ _ hseal⟩

end

end Eef.Node
