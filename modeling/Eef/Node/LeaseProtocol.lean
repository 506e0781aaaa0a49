import Eef.Node.Lease
import Mathlib.Data.List.Nodup

/-!
# Lease safety across the two parties

The issuer and the node share nothing but messages and one monotonic time base.
`LeaseSystem` holds both parties, every probe and reply ever sent (so any of them
may arrive late, twice, out of order or never) and every proof the node made.
`LeaseStep` is one step of either party. Its only assumptions are physical: the
issuer's own readings do not go back, a probe is not answered before it was sent,
and a probe's identifier is a fresh UUID.

`LeaseInv` is the invariant. Every reply remembers the instant at which the issuer
read its remaining time; a proof counts from a send time no later than that, so
its deadlines stay strictly inside the issuer's own and inside one lease of that
instant. `lease_safety` collects the four consequences.
-/

namespace Eef.Node

open Eef.Lib

/-- `Pending`: a probe and the node's reading when it was sent. -/
structure Probe where
  query : Query
  sent : Nat
  deriving DecidableEq, Repr

/-- A reply in flight, with the instant at which the issuer read its remaining time. -/
structure Answer where
  reply : Reply
  read : Nat
  deriving DecidableEq, Repr

/-- Both parties and everything in flight between them. -/
structure LeaseSystem where
  issuer : IssuerWindow
  /-- The issuer's latest reading of the clock. -/
  issuerClock : Nat
  /-- When the issuer was first stopped or closed. -/
  stoppedAt : Option Nat
  /-- Every probe ever sent, and the ones still waiting. -/
  probes : List Probe
  pending : List Probe
  answers : List Answer
  proofs : List LeaseProof
  window : Option Window
  reporting : Option Reporting
  /-- How many proofs the node's window has accepted. -/
  accepted : Nat

section
variable [Sha256]

/-- Before any probe: the issuer has just recorded its offer. -/
def LeaseSystem.Initial (s : LeaseSystem) : Prop :=
  (∃ contract policy deadline,
    IssuerWindow.new contract policy deadline s.issuerClock = .ok s.issuer) ∧
  s.stoppedAt = none ∧ s.probes = [] ∧ s.pending = [] ∧ s.answers = [] ∧ s.proofs = [] ∧
  s.window = none ∧ s.accepted = 0

/-- `Window::new_with_reporting`: the window, with its reporting lifetime bound. -/
def openWindow (contract : Contract) (policy : LeasePolicy) (proof : LeaseProof)
    (reporting : Option Reporting) (now bound : Nat) : Result (Window × Option Reporting) := do
  let window ← Window.new contract policy proof now
  match reporting with
  | none => return (window, none)
  | some r => return (window, some (← r.bind window bound))

/-- `Window::advance` with its reporting lifetime. -/
def advanceWindow (w : Window) (reporting : Option Reporting) (proof : LeaseProof)
    (checked now reported : Nat) : Result (Window × Option Reporting) := do
  let window ← w.advance proof checked now
  match reporting with
  | none => return (window, none)
  | some r => return (window, some (← r.advance window reported))

/-- One step of either party. A failed call changes nothing, except that a failed
renewal ends the supervised operation and drops its window. -/
inductive LeaseStep : LeaseSystem → LeaseSystem → Prop
  /-- The issuer answers any probe that was ever sent, at readings of its own. -/
  | reply {s : LeaseSystem} {p : Probe} {issuer session node : String} {checked read : Nat}
      {w : IssuerWindow} {r : Reply} (sent : p ∈ s.probes) (order : s.issuerClock ≤ checked)
      (after : p.sent ≤ checked) (later : checked ≤ read)
      (ok : s.issuer.reply p.query issuer session node checked read = .ok (w, r)) :
      LeaseStep s { s with issuer := w, issuerClock := read, answers := ⟨r, read⟩ :: s.answers }
  | acknowledgeConsumed {s : LeaseSystem} {scope : Scope} {now : Nat} {w : IssuerWindow}
      (order : s.issuerClock ≤ now) (ok : s.issuer.acknowledgeConsumed scope now = .ok w) :
      LeaseStep s { s with issuer := w, issuerClock := now }
  | stop {s : LeaseSystem} {now : Nat} (order : s.issuerClock ≤ now) :
      LeaseStep s { s with issuer := s.issuer.stop, issuerClock := now,
                           stoppedAt := some (s.stoppedAt.getD now) }
  | closeAfterReport {s : LeaseSystem} {scope : Scope} {sequence now last : Nat} {w : IssuerWindow}
      (order : s.issuerClock ≤ now)
      (ok : s.issuer.closeAfterReport scope sequence now = .ok (w, last)) :
      LeaseStep s { s with issuer := w, issuerClock := now,
                           stoppedAt := some (s.stoppedAt.getD now) }
  /-- `Requests::request`: a probe under a fresh UUID. -/
  | probe {s : LeaseSystem} {contract : Contract} {sequence sent : Nat} {id : String}
      (fresh : ∀ p ∈ s.probes, p.query.id ≠ id)
      (ok : Query.validate ⟨"workload_lease_probe", 2, id, contract, sequence⟩ = .ok ()) :
      LeaseStep s { s with
        probes := ⟨⟨"workload_lease_probe", 2, id, contract, sequence⟩, sent⟩ :: s.probes
        pending := ⟨⟨"workload_lease_probe", 2, id, contract, sequence⟩, sent⟩ :: s.pending }
  /-- `Requests::complete`: a reply that was sent at some time settles its probe. -/
  | complete {s : LeaseSystem} {p : Probe} {a : Answer} {arrived elapsed done : Nat}
      {proof : LeaseProof} (waiting : p ∈ s.pending) (flight : a ∈ s.answers)
      (ok : LeaseProof.confirm p.query a.reply p.sent arrived elapsed done = .ok proof) :
      LeaseStep s { s with pending := s.pending.filter fun q => q.query.id ≠ p.query.id
                           proofs := proof :: s.proofs }
  /-- A probe that failed, timed out or was cancelled. -/
  | forget {s : LeaseSystem} {id : String} :
      LeaseStep s { s with pending := s.pending.filter fun q => q.query.id ≠ id }
  | start {s : LeaseSystem} {contract : Contract} {policy : LeasePolicy} {proof : LeaseProof}
      {reporting : Option Reporting} {now bound : Nat} {w : Window} {r : Option Reporting}
      (first : s.accepted = 0) (made : proof ∈ s.proofs)
      (ok : openWindow contract policy proof reporting now bound = .ok (w, r)) :
      LeaseStep s { s with window := some w, reporting := r, accepted := 1 }
  | advance {s : LeaseSystem} {w w' : Window} {proof : LeaseProof} {r : Option Reporting}
      {checked now reported : Nat} (held : s.window = some w) (made : proof ∈ s.proofs)
      (ok : advanceWindow w s.reporting proof checked now reported = .ok (w', r)) :
      LeaseStep s { s with window := some w', reporting := r, accepted := s.accepted + 1 }
  /-- The supervised operation ended; its window is gone. -/
  | drop {s : LeaseSystem} :
      LeaseStep s { s with window := none, reporting := s.reporting.map Reporting.retire }

/-! ## What each call establishes -/

theorem IssuerWindow.reply_spec {w w' : IssuerWindow} {q : Query} {issuer session node : String}
    {checked read : Nat} {r : Reply}
    (h : w.reply q issuer session node checked read = .ok (w', r)) :
    w' = { w with nextSequence := w.nextSequence + 1 } ∧ w.stopped = false ∧ r.id = q.id ∧
      r.leaseRemainingMs ≤ w.contract.maxLeaseMs ∧
      r.sessionRemainingMs ≤ (w.deadline - read) / 1000000 := by
  simp only [IssuerWindow.reply, bind_ok, ensure_ok, pure_ok, Prod.mk.injEq] at h
  obtain ⟨_, -, _, -, _, -, _, ⟨hstop, -⟩, _, -, _, -, rfl, rfl⟩ := h
  exact ⟨rfl, hstop, rfl, Nat.min_le_right _ _, Nat.min_le_left _ _⟩

omit [Sha256] in
theorem conservativeDeadline_spec {sent ms d : Nat} (h : conservativeDeadline sent ms = .ok d) :
    d < sent + millis ms := by
  simp only [conservativeDeadline, bind_ok, ensure_ok, pure_ok] at h
  obtain ⟨_, hms, _, -, rfl⟩ := h
  have : millis (ms - (5 + ms / 100)) < millis ms := by
    unfold millis
    omega
  omega

theorem LeaseProof.confirm_spec {q : Query} {r : Reply} {sent arrived elapsed done : Nat}
    {proof : LeaseProof} (h : LeaseProof.confirm q r sent arrived elapsed done = .ok proof) :
    r.id = q.id ∧ 0 < r.sessionRemainingMs ∧ proof.deadline < sent + millis r.leaseRemainingMs ∧
      proof.sessionDeadline < sent + millis r.sessionRemainingMs := by
  simp only [LeaseProof.confirm, bind_ok, ensure_ok, pure_ok] at h
  obtain ⟨_, -, _, ⟨hm, -⟩, _, ⟨hpos, -, hle, -⟩, _, -, d, hd, e, he, _, -, rfl⟩ := h
  simp only [Reply.matches, Bool.and_eq_true, beq_iff_eq] at hm
  exact ⟨hm.1.1.2, hpos.trans_le hle, conservativeDeadline_spec hd, conservativeDeadline_spec he⟩

theorem openWindow_spec {contract : Contract} {policy : LeasePolicy} {proof : LeaseProof}
    {reporting r : Option Reporting} {now bound : Nat} {w : Window}
    (h : openWindow contract policy proof reporting now bound = .ok (w, r)) :
    w.sequence = 1 ∧ w.deadline = proof.deadline ∧ w.sessionDeadline = proof.sessionDeadline := by
  simp only [openWindow, bind_ok, Window.new, ensure_ok, pure_ok] at h
  obtain ⟨w', ⟨_, -, _, -, _, -, _, -, rfl⟩, h⟩ := h
  cases reporting with
  | none =>
    simp only [pure_ok, Prod.mk.injEq] at h
    obtain ⟨rfl, -⟩ := h
    exact ⟨rfl, rfl, rfl⟩
  | some rep =>
    simp only [bind_ok, pure_ok, Prod.mk.injEq] at h
    obtain ⟨_, -, rfl, -⟩ := h
    exact ⟨rfl, rfl, rfl⟩

omit [Sha256] in
theorem advanceWindow_spec {w w' : Window} {proof : LeaseProof} {reporting r : Option Reporting}
    {checked now reported : Nat}
    (h : advanceWindow w reporting proof checked now reported = .ok (w', r)) :
    w'.sequence = w.sequence + 1 ∧ w'.deadline = proof.deadline ∧
      w'.sessionDeadline = min w.sessionDeadline proof.sessionDeadline := by
  simp only [advanceWindow, bind_ok, Window.advance, ensure_ok, pure_ok] at h
  obtain ⟨u, ⟨_, -, _, ⟨-, -, hseq⟩, _, -, rfl⟩, h⟩ := h
  cases reporting with
  | none =>
    simp only [pure_ok, Prod.mk.injEq] at h
    obtain ⟨rfl, -⟩ := h
    exact ⟨hseq, rfl, rfl⟩
  | some rep =>
    simp only [bind_ok, pure_ok, Prod.mk.injEq] at h
    obtain ⟨_, -, rfl, -⟩ := h
    exact ⟨hseq, rfl, rfl⟩

/-! ## The invariant -/

/-- An instant at which the issuer may have read its remaining time. -/
structure ReadInstant (s : LeaseSystem) (t : Nat) : Prop where
  past : t ≤ s.issuerClock
  before : ∀ stop ∈ s.stoppedAt, t ≤ stop

/-- Deadlines that lie strictly inside one lease of some reading of the issuer, and
strictly inside its session. -/
def Covered (s : LeaseSystem) (deadline sessionDeadline : Nat) : Prop :=
  ∃ t, ReadInstant s t ∧ deadline < t + millis s.issuer.contract.maxLeaseMs ∧
    sessionDeadline < s.issuer.deadline

/-- A reply is within one lease and within the session of the instant it was read
at, and its probe was sent by then. -/
def AnswerOk (s : LeaseSystem) (a : Answer) : Prop :=
  ReadInstant s a.read ∧ a.reply.leaseRemainingMs ≤ s.issuer.contract.maxLeaseMs ∧
    a.reply.sessionRemainingMs ≤ (s.issuer.deadline - a.read) / 1000000 ∧
    ∃ p ∈ s.probes, p.query.id = a.reply.id ∧ p.sent ≤ a.read

/-- The invariant of every reachable state. -/
structure LeaseInv (s : LeaseSystem) : Prop where
  stopped : s.stoppedAt = none ↔ s.issuer.stopped = false
  stopPast : ∀ stop ∈ s.stoppedAt, stop ≤ s.issuerClock
  fresh : (s.probes.map fun p => p.query.id).Nodup
  pending : ∀ p ∈ s.pending, p ∈ s.probes
  answers : ∀ a ∈ s.answers, AnswerOk s a
  proofs : ∀ p ∈ s.proofs, Covered s p.deadline p.sessionDeadline
  window : ∀ w ∈ s.window, Covered s w.deadline w.sessionDeadline ∧ w.sequence = s.accepted ∧
    0 < s.accepted

omit [Sha256] in
theorem IssuerWindow.acknowledgeConsumed_spec {w w' : IssuerWindow} {scope : Scope} {now : Nat}
    (h : w.acknowledgeConsumed scope now = .ok w') : w' = { w with consumed := true } := by
  simp only [IssuerWindow.acknowledgeConsumed, bind_ok, pure_ok] at h
  obtain ⟨_, -, rfl⟩ := h
  rfl

omit [Sha256] in
theorem IssuerWindow.closeAfterReport_spec {w w' : IssuerWindow} {scope : Scope}
    {sequence now last : Nat} (h : w.closeAfterReport scope sequence now = .ok (w', last)) :
    w' = w.stop ∧ w.stopped = false := by
  simp only [IssuerWindow.closeAfterReport, bind_ok, ensure_ok, pure_ok, Prod.mk.injEq] at h
  obtain ⟨_, ⟨hs, -⟩, rfl, -⟩ := h
  exact ⟨rfl, hs⟩

/-- What no step changes: the issuer's bounds, and every instant it has read. -/
structure LeaseFrame (s s' : LeaseSystem) : Prop where
  contract : s'.issuer.contract = s.issuer.contract
  deadline : s'.issuer.deadline = s.issuer.deadline
  stopped : ∀ stop ∈ s.stoppedAt, stop ∈ s'.stoppedAt
  reads : ∀ t, ReadInstant s t → ReadInstant s' t

omit [Sha256] in
theorem ReadInstant.later {s : LeaseSystem} {t now : Nat} (h : ReadInstant s t)
    (hnow : s.issuerClock ≤ now) {s' : LeaseSystem} (hclock : s'.issuerClock = now)
    (hstop : s'.stoppedAt = s.stoppedAt ∨ s'.stoppedAt = some (s.stoppedAt.getD now)) :
    ReadInstant s' t := by
  have hp := h.past
  refine ⟨by omega, fun stop hs => ?_⟩
  rcases hstop with hstop | hstop
  · exact h.before stop (hstop ▸ hs)
  · rw [hstop] at hs
    simp only [Option.mem_def, Option.some.injEq] at hs
    cases hst : s.stoppedAt with
    | none =>
      rw [hst, Option.getD_none] at hs
      omega
    | some T =>
      rw [hst, Option.getD_some] at hs
      exact hs ▸ h.before T (by simp [hst])

theorem LeaseStep.frame {s s' : LeaseSystem} (h : LeaseStep s s') : LeaseFrame s s' := by
  have same : ∀ {s' : LeaseSystem}, s'.issuer = s.issuer → s'.issuerClock = s.issuerClock →
      s'.stoppedAt = s.stoppedAt → LeaseFrame s s' := by
    intro s' hi hc hs
    exact ⟨by rw [hi], by rw [hi], fun _ h => hs ▸ h, fun t ht => ht.later le_rfl hc (Or.inl hs)⟩
  have stops : ∀ {now : Nat}, ∀ stop ∈ s.stoppedAt, stop ∈ some (s.stoppedAt.getD now) := by
    intro now stop hs
    simp only [Option.mem_def] at hs
    simp [hs]
  cases h with
  | reply sent order after later ok =>
    obtain ⟨rfl, -⟩ := IssuerWindow.reply_spec ok
    exact ⟨rfl, rfl, fun _ h => h, fun t ht => ht.later (order.trans later) rfl (Or.inl rfl)⟩
  | acknowledgeConsumed order ok =>
    obtain rfl := IssuerWindow.acknowledgeConsumed_spec ok
    exact ⟨rfl, rfl, fun _ h => h, fun t ht => ht.later order rfl (Or.inl rfl)⟩
  | stop order => exact ⟨rfl, rfl, stops, fun t ht => ht.later order rfl (Or.inr rfl)⟩
  | closeAfterReport order ok =>
    obtain ⟨rfl, -⟩ := IssuerWindow.closeAfterReport_spec ok
    exact ⟨rfl, rfl, stops, fun t ht => ht.later order rfl (Or.inr rfl)⟩
  | probe => exact same rfl rfl rfl
  | complete => exact same rfl rfl rfl
  | forget => exact same rfl rfl rfl
  | start => exact same rfl rfl rfl
  | advance => exact same rfl rfl rfl
  | drop => exact same rfl rfl rfl

omit [Sha256] in
theorem Covered.frame {s s' : LeaseSystem} {d e : Nat} (hf : LeaseFrame s s') (h : Covered s d e) :
    Covered s' d e := by
  obtain ⟨t, ht, hd, he⟩ := h
  exact ⟨t, hf.reads t ht, by rw [hf.contract]; exact hd, by rw [hf.deadline]; exact he⟩

/-- A confirmed reply gives a covered proof: it counts from a send time no later
than the issuer's reading. -/
theorem covered_of_confirm {s : LeaseSystem} (hi : LeaseInv s) {p : Probe} {a : Answer}
    {arrived elapsed done : Nat} {proof : LeaseProof} (hp : p ∈ s.pending) (ha : a ∈ s.answers)
    (h : LeaseProof.confirm p.query a.reply p.sent arrived elapsed done = .ok proof) :
    Covered s proof.deadline proof.sessionDeadline := by
  obtain ⟨hid, hpos, hd, he⟩ := LeaseProof.confirm_spec h
  obtain ⟨hread, hlease, hsession, q, hq, hqid, hsent⟩ := hi.answers a ha
  -- the reply answered this very probe: identifiers are never reused
  obtain rfl : q = p :=
    List.inj_on_of_nodup_map hi.fresh hq (hi.pending p hp) (hqid.trans hid)
  refine ⟨a.read, hread, ?_, ?_⟩
  · have : millis a.reply.leaseRemainingMs ≤ millis s.issuer.contract.maxLeaseMs :=
      Nat.mul_le_mul_right _ hlease
    omega
  · have : millis a.reply.sessionRemainingMs ≤ s.issuer.deadline - a.read := by
      unfold millis
      omega
    omega

theorem LeaseStep.inv {s s' : LeaseSystem} (h : LeaseStep s s') (hi : LeaseInv s) :
    LeaseInv s' := by
  have hf := h.frame
  have hproofs : ∀ p ∈ s.proofs, Covered s' p.deadline p.sessionDeadline :=
    fun p hp => (hi.proofs p hp).frame hf
  have hwindow : ∀ w ∈ s.window, Covered s' w.deadline w.sessionDeadline ∧
      w.sequence = s.accepted ∧ 0 < s.accepted :=
    fun w hw => ⟨(hi.window w hw).1.frame hf, (hi.window w hw).2⟩
  have hkeep : ∀ a ∈ s.answers, (∀ p ∈ s.probes, p ∈ s'.probes) → AnswerOk s' a := by
    intro a ha hsub
    obtain ⟨hread, hlease, hsession, p, hp, hid, hsent⟩ := hi.answers a ha
    rw [← hf.contract] at hlease
    rw [← hf.deadline] at hsession
    exact ⟨hf.reads _ hread, hlease, hsession, p, hsub p hp, hid, hsent⟩
  have hstopPast : ∀ {now : Nat}, s.issuerClock ≤ now →
      ∀ stop ∈ some (s.stoppedAt.getD now), stop ≤ now := by
    intro now order stop hs
    simp only [Option.mem_def, Option.some.injEq] at hs
    cases hst : s.stoppedAt with
    | none =>
      rw [hst, Option.getD_none] at hs
      omega
    | some T =>
      rw [hst, Option.getD_some] at hs
      have := hi.stopPast T (by simp [hst])
      omega
  cases h with
  | @reply p issuer session node checked read w r sent order after later ok =>
    obtain ⟨rfl, hstop, hid, hlease, hsession⟩ := IssuerWindow.reply_spec ok
    refine ⟨hi.stopped, fun stop hs => ?_, hi.fresh, hi.pending, ?_, hproofs, hwindow⟩
    · have := hi.stopPast stop hs
      exact this.trans (order.trans later)
    · intro a ha
      rcases List.mem_cons.mp ha with rfl | ha
      · refine ⟨⟨le_rfl, fun stop hs => ?_⟩, hlease, hsession, p, sent, hid.symm,
          after.trans later⟩
        -- a stopped issuer does not answer
        rw [hi.stopped.mpr hstop] at hs
        cases hs
      · exact hkeep a ha fun _ h => h
  | acknowledgeConsumed order ok =>
    obtain rfl := IssuerWindow.acknowledgeConsumed_spec ok
    exact ⟨hi.stopped, fun stop hs => (hi.stopPast stop hs).trans order, hi.fresh, hi.pending,
      fun a ha => hkeep a ha fun _ h => h, hproofs, hwindow⟩
  | stop order =>
    exact ⟨by simp [IssuerWindow.stop], hstopPast order, hi.fresh, hi.pending,
      fun a ha => hkeep a ha fun _ h => h, hproofs, hwindow⟩
  | closeAfterReport order ok =>
    obtain ⟨rfl, -⟩ := IssuerWindow.closeAfterReport_spec ok
    exact ⟨by simp [IssuerWindow.stop], hstopPast order, hi.fresh, hi.pending,
      fun a ha => hkeep a ha fun _ h => h, hproofs, hwindow⟩
  | probe fresh ok =>
    refine ⟨hi.stopped, hi.stopPast, ?_, ?_, ?_, hproofs, hwindow⟩
    · rw [List.map_cons, List.nodup_cons]
      refine ⟨?_, hi.fresh⟩
      intro hm
      obtain ⟨p, hp, hid⟩ := List.mem_map.mp hm
      exact fresh p hp hid
    · intro p hp
      rcases List.mem_cons.mp hp with rfl | hp
      · exact List.mem_cons_self ..
      · exact List.mem_cons_of_mem _ (hi.pending p hp)
    · exact fun a ha => hkeep a ha fun _ h => List.mem_cons_of_mem _ h
  | complete waiting flight ok =>
    refine ⟨hi.stopped, hi.stopPast, hi.fresh, ?_, fun a ha => hkeep a ha fun _ h => h, ?_, hwindow⟩
    · exact fun p hp => hi.pending p (List.mem_filter.mp hp).1
    · intro q hq
      rcases List.mem_cons.mp hq with rfl | hq
      · exact (covered_of_confirm hi waiting flight ok).frame hf
      · exact hproofs q hq
  | forget =>
    exact ⟨hi.stopped, hi.stopPast, hi.fresh, fun p hp => hi.pending p (List.mem_filter.mp hp).1,
      fun a ha => hkeep a ha fun _ h => h, hproofs, hwindow⟩
  | start first made ok =>
    obtain ⟨hseq, hd, he⟩ := openWindow_spec ok
    refine ⟨hi.stopped, hi.stopPast, hi.fresh, hi.pending, fun a ha => hkeep a ha fun _ h => h,
      hproofs, ?_⟩
    intro w hw
    obtain rfl : _ = w := by simpa using hw
    exact ⟨by rw [hd, he]; exact hproofs _ made, hseq, Nat.one_pos⟩
  | @advance w w' proof r checked now reported held made ok =>
    obtain ⟨hseq, hd, he⟩ := advanceWindow_spec ok
    refine ⟨hi.stopped, hi.stopPast, hi.fresh, hi.pending, fun a ha => hkeep a ha fun _ h => h,
      hproofs, ?_⟩
    intro w'' hw
    obtain rfl : w' = w'' := by simpa using hw
    obtain ⟨t, ht, htd, hte⟩ := hproofs _ made
    refine ⟨⟨t, ht, by rw [hd]; exact htd, ?_⟩, ?_, Nat.succ_pos _⟩
    · rw [he]
      exact lt_of_le_of_lt (Nat.min_le_right _ _) hte
    · rw [hseq, (hwindow w held).2.1]
  | drop =>
    exact ⟨hi.stopped, hi.stopPast, hi.fresh, hi.pending, fun a ha => hkeep a ha fun _ h => h,
      hproofs, by simp⟩

omit [Sha256] in
theorem LeaseSystem.Initial.inv {s : LeaseSystem} (h : s.Initial) : LeaseInv s := by
  obtain ⟨⟨contract, policy, deadline, hnew⟩, hstop, hprobes, hpending, hanswers, hproofs, hwindow, -⟩ := h
  simp only [IssuerWindow.new, bind_ok, pure_ok] at hnew
  obtain ⟨_, -, _, -, hissuer⟩ := hnew
  refine ⟨by simp [hstop, ← hissuer], by simp [hstop], by simp [hprobes], by simp [hpending],
    by simp [hanswers], by simp [hproofs], by simp [hwindow]⟩

/-! ## Lease safety -/

/-- Between two states of a run the issuer's bounds stay, and the node's session
deadline does not move later while its window lasts. -/
structure LeaseProgress (s s' : LeaseSystem) : Prop where
  contract : s'.issuer.contract = s.issuer.contract
  deadline : s'.issuer.deadline = s.issuer.deadline
  stopped : ∀ stop ∈ s.stoppedAt, stop ∈ s'.stoppedAt
  opened : s.accepted ≠ 0 → s'.accepted ≠ 0 ∧
    ∀ w' ∈ s'.window, ∃ w ∈ s.window, w'.sessionDeadline ≤ w.sessionDeadline

omit [Sha256] in
theorem LeaseProgress.refl (s : LeaseSystem) : LeaseProgress s s :=
  ⟨rfl, rfl, fun _ h => h, fun h => ⟨h, fun w hw => ⟨w, hw, le_rfl⟩⟩⟩

omit [Sha256] in
theorem LeaseProgress.trans {a b c : LeaseSystem} (h : LeaseProgress a b) (h' : LeaseProgress b c) :
    LeaseProgress a c := by
  refine ⟨h'.contract.trans h.contract, h'.deadline.trans h.deadline,
    fun stop hs => h'.stopped stop (h.stopped stop hs), fun ha => ?_⟩
  obtain ⟨hb, hab⟩ := h.opened ha
  obtain ⟨hc, hbc⟩ := h'.opened hb
  refine ⟨hc, fun w hw => ?_⟩
  obtain ⟨v, hv, hwv⟩ := hbc w hw
  obtain ⟨u, hu, hvu⟩ := hab v hv
  exact ⟨u, hu, hwv.trans hvu⟩

theorem LeaseStep.progress {s s' : LeaseSystem} (h : LeaseStep s s') : LeaseProgress s s' := by
  have hf := h.frame
  refine ⟨hf.contract, hf.deadline, hf.stopped, fun ha => ?_⟩
  have same : ∀ {s' : LeaseSystem}, s'.accepted = s.accepted → s'.window = s.window →
      s'.accepted ≠ 0 ∧ ∀ w' ∈ s'.window, ∃ w ∈ s.window,
        w'.sessionDeadline ≤ w.sessionDeadline :=
    fun hacc hw => ⟨hacc ▸ ha, fun w hm => ⟨w, hw ▸ hm, le_rfl⟩⟩
  cases h with
  | reply => exact same rfl rfl
  | acknowledgeConsumed => exact same rfl rfl
  | stop => exact same rfl rfl
  | closeAfterReport => exact same rfl rfl
  | probe => exact same rfl rfl
  | complete => exact same rfl rfl
  | forget => exact same rfl rfl
  | start first => exact absurd first ha
  | @advance w w' proof r checked now reported held made ok =>
    obtain ⟨-, -, he⟩ := advanceWindow_spec ok
    refine ⟨Nat.succ_ne_zero _, fun v hv => ⟨w, held, ?_⟩⟩
    obtain rfl : w' = v := by simpa using hv
    rw [he]
    exact Nat.min_le_left _ _
  | drop => exact ⟨ha, by simp⟩

/-- Lease safety: along every run, with messages delayed, dropped, duplicated or
reordered, a live window lies inside the issuer's session; its session deadline
never increases; its sequence counts the accepted proofs; and one lease after the
issuer was stopped or closed it is no longer live. -/
theorem lease_safety {s₀ s s' : LeaseSystem} (h₀ : s₀.Initial) (h : Run LeaseStep s₀ s)
    (h' : Run LeaseStep s s') :
    (∀ w ∈ s'.window, ∀ now, w.liveAt now → now < s₀.issuer.deadline) ∧
    (∀ w ∈ s.window, ∀ w' ∈ s'.window, w'.sessionDeadline ≤ w.sessionDeadline) ∧
    (∀ w ∈ s'.window, w.sequence = s'.accepted) ∧
    (∀ stop ∈ s.stoppedAt, ∀ w ∈ s'.window, ∀ now,
      stop + millis s₀.issuer.contract.maxLeaseMs ≤ now → ¬w.liveAt now) := by
  have step_inv : ∀ s t, LeaseInv s → LeaseStep s t → LeaseInv t := fun _ _ hi h => h.inv hi
  have prog : ∀ {s t : LeaseSystem}, LeaseInv s → Run LeaseStep s t → LeaseProgress s t := by
    intro s t hi hrun
    exact Run.monotone step_inv LeaseProgress.refl (fun _ _ _ => LeaseProgress.trans)
      (fun _ _ _ h => h.progress) hi hrun
  have hi₀ := h₀.inv
  have hi : LeaseInv s := Run.invariant step_inv hi₀ h
  have hi' : LeaseInv s' := Run.invariant step_inv hi h'
  have hp₀ := prog hi₀ (h.trans h')
  have hp := prog hi h'
  refine ⟨?_, ?_, fun w hw => (hi'.window w hw).2.1, ?_⟩
  · intro w hw now hlive
    obtain ⟨⟨t, -, -, he⟩, -⟩ := hi'.window w hw
    rw [hp₀.deadline] at he
    unfold Window.liveAt at hlive
    omega
  · intro w hw w' hw'
    obtain ⟨-, hle⟩ := hp.opened (hi.window w hw).2.2.ne'
    obtain ⟨v, hv, hvw⟩ := hle w' hw'
    obtain rfl : v = w := by
      have := hv.symm.trans hw
      simpa using this
    exact hvw
  · intro stop hs w hw now hnow hlive
    obtain ⟨⟨t, ht, hd, -⟩, -⟩ := hi'.window w hw
    rw [hp₀.contract] at hd
    have := ht.before stop (hp.stopped stop hs)
    unfold Window.liveAt at hlive
    omega

end

/-! Two probes and their replies: the first opens a window, which the issuer hears of, and the second
renews it, after which the issuer stops. -/

def sampleContract : Contract := ⟨2, sampleScope, 60000, 30000⟩

def samplePolicy : LeasePolicy := ⟨true, 3600000, 30000⟩

/-- `definition_digest` of the sample contract. -/
@[reducible]
def sampleContractSha : Sha256 :=
  .constant "dca6cdc12d8143d480e35226e46b0a16dd57b696e4d84acc40f57b250e480a07" (by decide)

/-- The two probes. -/
def sampleProbe : Probe :=
  ⟨⟨"workload_lease_probe", 2, "66666666-6666-4666-8666-666666666666", sampleContract, 1⟩,
    millis 1⟩

@[inherit_doc sampleProbe]
def renewalProbe : Probe :=
  ⟨⟨"workload_lease_probe", 2, "77777777-7777-4777-8777-777777777777", sampleContract, 2⟩,
    millis 10000⟩

/-- What the issuer answers to a probe. -/
def replyTo (probe : Probe) (sessionRemainingMs : Nat) : Reply where
  kind := "workload_lease"
  schemaVersion := 2
  id := probe.query.id
  contractSha256 := "dca6cdc12d8143d480e35226e46b0a16dd57b696e4d84acc40f57b250e480a07"
  sequence := probe.query.sequence
  leaseRemainingMs := 30000
  sessionRemainingMs := sessionRemainingMs

/-- The two replies. -/
def sampleReply : Reply := replyTo sampleProbe 59998

@[inherit_doc sampleReply]
def renewalReply : Reply := replyTo renewalProbe 49998

/-- What the node makes of the replies. -/
def sampleProof : LeaseProof where
  contractSha256 := "dca6cdc12d8143d480e35226e46b0a16dd57b696e4d84acc40f57b250e480a07"
  sequence := 1
  deadline := millis 29696
  sessionDeadline := millis 59395

@[inherit_doc sampleProof]
def renewalProof : LeaseProof where
  contractSha256 := sampleProof.contractSha256
  sequence := 2
  deadline := millis 39695
  sessionDeadline := millis 59494

def sampleWindow : Window :=
  ⟨sampleProof.contractSha256, 1, millis 29696, millis 59395⟩

/-- The renewed window keeps the session deadline it had, the earlier one. -/
def renewedWindow : Window :=
  ⟨sampleProof.contractSha256, 2, millis 39695, millis 59395⟩

/-- The issuer has recorded its offer. -/
def leaseOffered : LeaseSystem where
  issuer := ⟨sampleContract, millis 60000, 1, false, false⟩
  issuerClock := 0
  stoppedAt := none
  probes := []
  pending := []
  answers := []
  proofs := []
  window := none
  reporting := none
  accepted := 0

def leaseProbed : LeaseSystem :=
  { leaseOffered with probes := [sampleProbe], pending := [sampleProbe] }

def leaseAnswered : LeaseSystem :=
  { leaseProbed with
    issuer := ⟨sampleContract, millis 60000, 2, false, false⟩
    issuerClock := millis 2
    answers := [⟨sampleReply, millis 2⟩] }

def leaseProved : LeaseSystem := { leaseAnswered with pending := [], proofs := [sampleProof] }

/-- The node's window is open. -/
def leaseOpened : LeaseSystem := { leaseProved with window := some sampleWindow, accepted := 1 }

/-- The issuer has heard that the workload was consumed. -/
def leaseConsumed : LeaseSystem :=
  { leaseOpened with
    issuer := ⟨sampleContract, millis 60000, 2, true, false⟩
    issuerClock := millis 4 }

/-- The second probe is out. -/
def renewalProbed : LeaseSystem :=
  { leaseConsumed with probes := [renewalProbe, sampleProbe], pending := [renewalProbe] }

def renewalAnswered : LeaseSystem :=
  { renewalProbed with
    issuer := ⟨sampleContract, millis 60000, 3, true, false⟩
    issuerClock := millis 10002
    answers := [⟨renewalReply, millis 10002⟩, ⟨sampleReply, millis 2⟩] }

def renewalProved : LeaseSystem :=
  { renewalAnswered with pending := [], proofs := [renewalProof, sampleProof] }

/-- The node's window is renewed. -/
def leaseRenewed : LeaseSystem :=
  { renewalProved with window := some renewedWindow, accepted := 2 }

/-- The issuer has stopped, eleven seconds in. -/
def leaseStopped : LeaseSystem :=
  { leaseRenewed with
    issuer := ⟨sampleContract, millis 60000, 3, true, true⟩
    issuerClock := millis 11000
    stoppedAt := some (millis 11000) }

section
attribute [local instance] sampleContractSha

/-- What the two ends make of the first exchange. -/
theorem lease_checked : sampleProbe.query.validate = .ok ()
    ∧ leaseProbed.issuer.reply sampleProbe.query sampleScope.issuerId sampleScope.sessionId
        sampleScope.executorNode (millis 2) (millis 2) = .ok (leaseAnswered.issuer, sampleReply)
    ∧ LeaseProof.confirm sampleProbe.query sampleReply sampleProbe.sent (millis 3) (millis 3)
      (millis 3) = .ok sampleProof
    ∧ openWindow sampleContract samplePolicy sampleProof none (millis 3) (millis 3)
      = .ok (sampleWindow, none)
    ∧ IssuerWindow.new sampleContract samplePolicy (millis 60000) leaseOffered.issuerClock
      = .ok leaseOffered.issuer := by
  decide +kernel

/-- And of the second one. -/
theorem renewal_checked :
    leaseOpened.issuer.acknowledgeConsumed sampleScope (millis 4) = .ok leaseConsumed.issuer
    ∧ renewalProbe.query.validate = .ok ()
    ∧ renewalProbed.issuer.reply renewalProbe.query sampleScope.issuerId sampleScope.sessionId
        sampleScope.executorNode (millis 10002) (millis 10002)
      = .ok (renewalAnswered.issuer, renewalReply)
    ∧ LeaseProof.confirm renewalProbe.query renewalReply renewalProbe.sent (millis 10003)
      (millis 10003) (millis 10003) = .ok renewalProof
    ∧ advanceWindow sampleWindow none renewalProof (millis 10003) (millis 10003) (millis 10003)
      = .ok (renewedWindow, none) := by
  decide +kernel

theorem leaseOpened_run : Run LeaseStep leaseOffered leaseOpened := by
  obtain ⟨hprobe, hreply, hproof, hopen, -⟩ := lease_checked
  have h1 : LeaseStep leaseOffered leaseProbed :=
    @LeaseStep.probe _ leaseOffered sampleContract 1 (millis 1) _ (by simp [leaseOffered]) hprobe
  have h2 : LeaseStep leaseProbed leaseAnswered :=
    @LeaseStep.reply _ leaseProbed sampleProbe _ _ _ (millis 2) (millis 2) _ _
      (List.mem_cons_self ..) (by decide) (by decide) (by decide) hreply
  have h3 : LeaseStep leaseAnswered leaseProved :=
    @LeaseStep.complete _ leaseAnswered sampleProbe ⟨sampleReply, millis 2⟩ _ _ _ _
      (List.mem_cons_self ..) (List.mem_cons_self ..) hproof
  have h4 : LeaseStep leaseProved leaseOpened :=
    @LeaseStep.start _ leaseProved _ _ sampleProof _ _ _ _ _ rfl (List.mem_cons_self ..) hopen
  exact (((Relation.ReflTransGen.single h1).tail h2).tail h3).tail h4

theorem leaseStopped_run : Run LeaseStep leaseOpened leaseStopped := by
  obtain ⟨hconsumed, hprobe, hreply, hproof, hadvance⟩ := renewal_checked
  have h1 : LeaseStep leaseOpened leaseConsumed :=
    @LeaseStep.acknowledgeConsumed _ leaseOpened _ (millis 4) _ (by decide) hconsumed
  have h2 : LeaseStep leaseConsumed renewalProbed :=
    @LeaseStep.probe _ leaseConsumed sampleContract 2 (millis 10000) _ (by decide) hprobe
  have h3 : LeaseStep renewalProbed renewalAnswered :=
    @LeaseStep.reply _ renewalProbed renewalProbe _ _ _ (millis 10002) (millis 10002) _ _
      (List.mem_cons_self ..) (by decide) (by decide) (by decide) hreply
  have h4 : LeaseStep renewalAnswered renewalProved :=
    @LeaseStep.complete _ renewalAnswered renewalProbe ⟨renewalReply, millis 10002⟩ _ _ _ _
      (List.mem_cons_self ..) (List.mem_cons_self ..) hproof
  have h5 : LeaseStep renewalProved leaseRenewed :=
    @LeaseStep.advance _ renewalProved _ _ renewalProof _ _ _ _ rfl (List.mem_cons_self ..) hadvance
  have h6 : LeaseStep leaseRenewed leaseStopped :=
    @LeaseStep.stop _ leaseRenewed (millis 11000) (by decide)
  exact (((((Relation.ReflTransGen.single h1).tail h2).tail h3).tail h4).tail h5).tail h6

theorem lease_safety_stopped :
    (∀ now, renewedWindow.liveAt now → now < millis 60000)
    ∧ renewedWindow.sessionDeadline ≤ sampleWindow.sessionDeadline
    ∧ renewedWindow.sequence = leaseStopped.accepted
    ∧ ¬renewedWindow.liveAt (millis 41000) := by
  have hinit : leaseOffered.Initial :=
    ⟨⟨sampleContract, samplePolicy, millis 60000, lease_checked.2.2.2.2⟩, rfl, rfl, rfl, rfl, rfl,
      rfl, rfl⟩
  obtain ⟨hsession, hshrinks, hseq, -⟩ := lease_safety hinit leaseOpened_run leaseStopped_run
  obtain ⟨-, -, -, hstopped⟩ := lease_safety hinit (leaseOpened_run.trans leaseStopped_run) .refl
  exact ⟨hsession _ rfl, hshrinks _ rfl _ rfl, hseq _ rfl,
    hstopped (millis 11000) rfl _ rfl (millis 41000) (by decide)⟩

end

end Eef.Node
