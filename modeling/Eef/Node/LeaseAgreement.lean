import Eef.Node.LeaseProtocol

/-!
# The issuer and the node agree on a lease

The issuer's reply carries two durations, the node's proof checks both against the contract of
its own query and takes the margin of 5 ms and one percent off each. The two sides compute the
margin apart, in whole milliseconds. `Answers` is what every reply of an issuer's window is
with respect to its query, `Issuing.Inv` the invariant of a window over any order of its calls,
and `lease_reply_confirmed` says what follows: a reply the issuer counted as issued is refused by
the node for elapsed time alone.
-/

namespace Eef.Node

open Eef.Lib

/-! ## The margin -/

/-- What is left of a duration after the margin. -/
def budget (ms : Nat) : Nat := ms - (5 + ms / 100)

/-- A duration with a budget stays one when it grows. -/
theorem margin_mono {m n : Nat} (hmn : m ≤ n) (hm : 5 + m / 100 < m) : 5 + n / 100 < n := by
  omega

theorem budget_mono {m n : Nat} (hmn : m ≤ n) : budget m ≤ budget n := by
  unfold budget
  omega

theorem millis_le {m n : Nat} (hmn : m ≤ n) : millis m ≤ millis n :=
  Nat.mul_le_mul_right _ hmn

/-- What is left on a clock, in whole milliseconds, is within a bound that is. -/
theorem remaining_le {deadline read bound : Nat} (h : deadline - read ≤ millis bound) :
    (deadline - read) / 1000000 ≤ bound := by
  unfold millis at h
  omega

theorem conservativeDeadline_ok {sent ms deadline : Nat} (hms : 5 + ms / 100 < ms) :
    conservativeDeadline sent ms = .ok deadline ↔
      sent + millis (budget ms) ≤ instantMax ∧ sent + millis (budget ms) = deadline := by
  simp only [conservativeDeadline, bind_ok, ensure_ok, pure_ok, budget]
  constructor
  · rintro ⟨_, -, _, hle, heq⟩
    exact ⟨hle, heq⟩
  · intro h
    exact ⟨(), hms, (), h.1, h.2⟩

/-- An entry of a log is its last one, or was there before. -/
theorem snoc_split {α : Type} {log before after : List α} {x y : α}
    (h : log ++ [x] = before ++ y :: after) :
    (log = before ∧ x = y) ∨ ∃ rest, log = before ++ y :: rest := by
  rcases List.eq_nil_or_concat after with rfl | ⟨rest, last, rfl⟩
  · obtain ⟨hlog, hx⟩ := List.append_inj' h rfl
    exact Or.inl ⟨hlog, List.singleton_inj.1 hx⟩
  · rw [List.concat_eq_append, ← List.cons_append, ← List.append_assoc] at h
    obtain ⟨hlog, -⟩ := List.append_inj' h rfl
    exact Or.inr ⟨rest, hlog⟩

section
variable [Sha256]

/-! ## One reply -/

/-- A reply of the issuer of `contract` to a query. -/
structure Answers (contract : Contract) (q : Query) (r : Reply) : Prop where
  query : q.validate = .ok ()
  digest : Sha256.definition q.contract.toJson = Sha256.definition contract.toJson
  scope : r.matches q = true
  lease : r.leaseRemainingMs ≤ contract.maxLeaseMs
  within : r.leaseRemainingMs ≤ r.sessionRemainingMs
  session : r.sessionRemainingMs ≤ contract.maxSessionMs
  margin : 5 + r.leaseRemainingMs / 100 < r.leaseRemainingMs

theorem Contract.digest_ok {c : Contract} {d : String} :
    c.digest = .ok d ↔ c.validate = .ok () ∧ Sha256.definition c.toJson = d := by
  simp only [Contract.digest, bind_ok, pure_ok]
  constructor
  · rintro ⟨_, hvalid, hd⟩
    exact ⟨hvalid, hd⟩
  · intro ⟨hvalid, hd⟩
    exact ⟨(), hvalid, hd⟩

/-- What `reply` asks for and what it leaves. -/
theorem IssuerWindow.reply_answers {w w' : IssuerWindow} {q : Query} {issuer session node : String}
    {checked read : Nat} {r : Reply}
    (hsession : w.deadline - read ≤ millis w.contract.maxSessionMs)
    (h : w.reply q issuer session node checked read = .ok (w', r)) :
    Answers w.contract q r ∧ r.sequence = w.nextSequence
      ∧ (r.sequence = 1 ∨ w.consumed = true) := by
  simp only [IssuerWindow.reply, bind_ok, ensure_ok, pure_ok, Prod.mk.injEq] at h
  obtain ⟨_, hvalid, theirs, htheirs, ours, hours, _, ⟨-, -, -, heq, hseq, hadmitted⟩, _, hmargin, _,
    -, -, rfl⟩ := h
  obtain ⟨-, hq⟩ := Contract.digest_ok.1 htheirs
  obtain ⟨-, hw⟩ := Contract.digest_ok.1 hours
  have hremaining := remaining_le hsession
  refine ⟨⟨hvalid, ?_, ?_, Nat.min_le_right _ _, Nat.min_le_left _ _, ?_, hmargin⟩, hseq, hadmitted⟩
  · rw [hq, hw, heq]
  · simp only [Reply.matches, htheirs, heq, beq_self_eq_true, Bool.and_self]
  · show min ((w.deadline - read) / 1000000) u64Max ≤ w.contract.maxSessionMs
    omega

/-- The readings at which a node takes a reply: sent before it arrived, within the time of a
probe, with room on the clock, and with both budgets still open. -/
def Timely (r : Reply) (sent arrived elapsed done : Nat) : Prop :=
  sent ≤ arrived ∧ elapsed - sent < probeTimeout
    ∧ sent + millis (budget r.sessionRemainingMs) ≤ instantMax
    ∧ done < min (sent + millis (budget r.leaseRemainingMs))
        (sent + millis (budget r.sessionRemainingMs))

/-- The checks of `LeaseProof::confirm` that read no clock, and what is left when they pass. -/
structure Confirmable (q : Query) (r : Reply) : Prop where
  query : q.validate = .ok ()
  scope : r.matches q = true
  positive : 0 < r.leaseRemainingMs
  lease : r.leaseRemainingMs ≤ q.contract.maxLeaseMs
  within : r.leaseRemainingMs ≤ r.sessionRemainingMs
  session : r.sessionRemainingMs ≤ q.contract.maxSessionMs
  leaseBudget : 0 < budget r.leaseRemainingMs
  sessionBudget : 0 < budget r.sessionRemainingMs
  confirmed : ∀ sent arrived elapsed done,
    isOk (LeaseProof.confirm q r sent arrived elapsed done) = true
      ↔ Timely r sent arrived elapsed done

/-- A reply to a query on the issuer's own contract is refused for its time alone. -/
theorem Answers.confirmable {contract : Contract} {q : Query} {r : Reply}
    (h : Answers contract q r) (hcontract : q.contract = contract) : Confirmable q r := by
  have hlease : 5 + r.leaseRemainingMs / 100 < r.leaseRemainingMs := h.margin
  have hsession := margin_mono h.within hlease
  have hpositive : 0 < r.leaseRemainingMs := by omega
  have hmax : r.leaseRemainingMs ≤ q.contract.maxLeaseMs := hcontract ▸ h.lease
  have hbound : r.sessionRemainingMs ≤ q.contract.maxSessionMs := hcontract ▸ h.session
  have hdigest : q.contract.digest = .ok (Sha256.definition q.contract.toJson) := by
    have hquery := h.query
    simp only [Query.validate, bind_ok] at hquery
    obtain ⟨_, hvalid, -⟩ := hquery
    exact Contract.digest_ok.2 ⟨hvalid, rfl⟩
  refine ⟨h.query, h.scope, hpositive, hmax, h.within, hbound, ?_, ?_, ?_⟩
  · unfold budget
    omega
  · unfold budget
    omega
  · intro sent arrived elapsed done
    have hroom := millis_le (budget_mono h.within)
    simp only [isOk_iff, LeaseProof.confirm, bind_ok, ensure_ok, pure_ok, hdigest, Except.ok.injEq,
      conservativeDeadline_ok hlease, conservativeDeadline_ok hsession]
    constructor
    · rintro ⟨_, _, -, _, ⟨-, hsent, htime⟩, _, -, _, -, _, ⟨-, rfl⟩, _, ⟨hover, rfl⟩, _, hdone, -⟩
      exact ⟨hsent, htime, hover, hdone⟩
    · intro h
      obtain ⟨hsent, htime, hover, hdone⟩ := h
      -- the lease's deadline is no later than the session's, so it has room as well
      have hfirst : sent + millis (budget r.leaseRemainingMs) ≤ instantMax := by omega
      exact ⟨_, (), h.query, (), ⟨h.scope, hsent, htime⟩, (),
        ⟨hpositive, hmax, h.within, hbound⟩, _, rfl, _, ⟨hfirst, rfl⟩, _, ⟨hover, rfl⟩, (), hdone, rfl⟩

/-! ## A window over its calls -/

/-- A call that went through. -/
inductive IssuerEvent where
  | replied (q : Query) (r : Reply)
  | acknowledged
  | ended
  deriving DecidableEq, Repr

/-- The sequence an event replies to. -/
def IssuerEvent.sequence : IssuerEvent → Option Nat
  | .replied _ r => some r.sequence
  | _ => none

/-- A window, its last reading of the clock, and what went through so far. -/
structure Issuing where
  window : IssuerWindow
  clock : Nat
  log : List IssuerEvent

/-- One call on the window. A call that fails leaves it as it is. -/
inductive IssuerStep : Issuing → Issuing → Prop
  | reply {s : Issuing} {q : Query} {issuer session node : String} {checked read : Nat}
      {w : IssuerWindow} {r : Reply} (order : s.clock ≤ checked) (later : checked ≤ read)
      (ok : s.window.reply q issuer session node checked read = .ok (w, r)) :
      IssuerStep s ⟨w, read, s.log ++ [.replied q r]⟩
  | acknowledge {s : Issuing} {scope : Scope} {now : Nat} {w : IssuerWindow}
      (order : s.clock ≤ now) (ok : s.window.acknowledgeConsumed scope now = .ok w) :
      IssuerStep s ⟨w, now, s.log ++ [.acknowledged]⟩
  | stop {s : Issuing} {now : Nat} (order : s.clock ≤ now) :
      IssuerStep s ⟨s.window.stop, now, s.log ++ [.ended]⟩
  | close {s : Issuing} {scope : Scope} {sequence now last : Nat} {w : IssuerWindow}
      (order : s.clock ≤ now)
      (ok : s.window.closeAfterReport scope sequence now = .ok (w, last)) :
      IssuerStep s ⟨w, now, s.log ++ [.ended]⟩

/-- Every reply answers its query, the sequences replied to are the first ones in order, and a
sequence above the first has an acknowledgement before it. -/
structure Issuing.Inv (contract : Contract) (s : Issuing) : Prop where
  offer : s.window.contract = contract
  session : s.window.deadline - s.clock ≤ millis contract.maxSessionMs
  positive : 0 < s.window.nextSequence
  sequences : s.log.filterMap IssuerEvent.sequence = List.range' 1 (s.window.nextSequence - 1)
  consumed : s.window.consumed = true → .acknowledged ∈ s.log
  answers : ∀ q r, .replied q r ∈ s.log → Answers contract q r
  admitted : ∀ before q r after, s.log = before ++ .replied q r :: after → 1 < r.sequence →
    .acknowledged ∈ before

namespace Issuing

theorem Inv.new {contract : Contract} {policy : LeasePolicy} {deadline now : Nat} {w : IssuerWindow}
    (h : IssuerWindow.new contract policy deadline now = .ok w) : Inv contract ⟨w, now, []⟩ := by
  simp only [IssuerWindow.new, bind_ok, ensure_ok, pure_ok] at h
  obtain ⟨_, -, _, ⟨-, hsession⟩, rfl⟩ := h
  refine ⟨rfl, hsession, Nat.one_pos, rfl, (by intros; contradiction), (by intros; contradiction), fun before q r after hlog _ => ?_⟩
  simp at hlog

/-- A call that replies to nothing and lets the clock go on. -/
theorem Inv.quiet {contract : Contract} {s : Issuing} (h : s.Inv contract) {e : IssuerEvent}
    (he : e.sequence = none) {now : Nat} (hnow : s.clock ≤ now) {w : IssuerWindow}
    (hcontract : w.contract = s.window.contract) (hdeadline : w.deadline = s.window.deadline)
    (hnext : w.nextSequence = s.window.nextSequence)
    (hconsumed : w.consumed = true → s.window.consumed = true ∨ e = .acknowledged) :
    Inv contract ⟨w, now, s.log ++ [e]⟩ := by
  have hne : ∀ q r, e ≠ .replied q r := by
    intro q r heq
    rw [heq] at he
    cases he
  refine ⟨hcontract.trans h.offer, ?_, hnext ▸ h.positive, ?_, fun hc => ?_, fun q r hmem => ?_,
    fun before q r after hlog hlt => ?_⟩
  · show w.deadline - now ≤ _
    have := h.session
    omega
  · rw [List.filterMap_append, List.filterMap_cons_none he, List.filterMap_nil, List.append_nil,
      h.sequences, hnext]
  · rcases hconsumed hc with hold | rfl
    · exact List.mem_append_left _ (h.consumed hold)
    · exact List.mem_append_right _ (List.mem_singleton_self _)
  · rcases List.mem_append.1 hmem with hold | hnew
    · exact h.answers q r hold
    · exact absurd (List.mem_singleton.1 hnew).symm (hne q r)
  · rcases snoc_split hlog with ⟨-, hlast⟩ | ⟨rest, hold⟩
    · exact absurd hlast (hne q r)
    · exact h.admitted before q r rest hold hlt

theorem Inv.replied {contract : Contract} {s : Issuing} (h : s.Inv contract) {q : Query}
    {issuer session node : String} {checked read : Nat} {w : IssuerWindow} {r : Reply}
    (hclock : s.clock ≤ read)
    (hreply : s.window.reply q issuer session node checked read = .ok (w, r)) :
    Inv contract ⟨w, read, s.log ++ [.replied q r]⟩ := by
  have hsession : s.window.deadline - read ≤ millis s.window.contract.maxSessionMs := by
    have := h.session
    rw [h.offer]
    omega
  obtain ⟨hanswers, hsequence, hadmitted⟩ := IssuerWindow.reply_answers hsession hreply
  obtain ⟨rfl, -⟩ := IssuerWindow.reply_spec hreply
  rw [h.offer] at hanswers hsession
  have hpositive := h.positive
  refine ⟨h.offer, hsession, Nat.succ_pos _, ?_, fun hc => List.mem_append_left _ (h.consumed hc),
    fun q' r' hmem => ?_, fun before q' r' after hlog hlt => ?_⟩
  · have hnext : s.window.nextSequence + 1 - 1 = s.window.nextSequence - 1 + 1 := by omega
    have hlast : 1 + (s.window.nextSequence - 1) = r.sequence := by omega
    rw [List.filterMap_append, h.sequences, hnext, List.range'_1_concat, hlast]
    rfl
  · rcases List.mem_append.1 hmem with hold | hnew
    · exact h.answers q' r' hold
    · cases List.mem_singleton.1 hnew
      exact hanswers
  · rcases snoc_split hlog with ⟨hbefore, hlast⟩ | ⟨rest, hold⟩
    · cases hlast
      rcases hadmitted with hone | hc
      · omega
      · exact hbefore ▸ h.consumed hc
    · exact h.admitted before q' r' rest hold hlt

theorem Inv.step {contract : Contract} {s t : Issuing} (h : s.Inv contract) (hs : IssuerStep s t) :
    t.Inv contract := by
  cases hs with
  | reply order later ok => exact h.replied (order.trans later) ok
  | acknowledge order ok =>
    simp only [IssuerWindow.acknowledgeConsumed, bind_ok, pure_ok] at ok
    obtain ⟨_, -, rfl⟩ := ok
    exact h.quiet rfl order rfl rfl rfl fun _ => Or.inr rfl
  | stop order => exact h.quiet rfl order rfl rfl rfl Or.inl
  | close order ok =>
    simp only [IssuerWindow.closeAfterReport, bind_ok, pure_ok, Prod.mk.injEq] at ok
    obtain ⟨_, -, rfl, -⟩ := ok
    exact h.quiet rfl order rfl rfl rfl Or.inl

end Issuing

/-- Whatever is called on a window, in any order: a reply passes every check of the node that reads
no clock, as long as the query's contract does not collide with the issuer's, so that it is taken
exactly when it is timely; a sequence is replied to at most once, and above the first only after
the acknowledgement. -/
theorem lease_reply_confirmed {contract : Contract} {policy : LeasePolicy} {deadline now : Nat}
    {w : IssuerWindow} (hnew : IssuerWindow.new contract policy deadline now = .ok w) {s : Issuing}
    (hrun : Run IssuerStep ⟨w, now, []⟩ s) :
    (∀ q r, .replied q r ∈ s.log →
      (Sha256.definition q.contract.toJson = Sha256.definition contract.toJson →
        q.contract = contract) → Confirmable q r)
    ∧ (s.log.filterMap IssuerEvent.sequence).Nodup
    ∧ ∀ before q r after, s.log = before ++ .replied q r :: after → 1 < r.sequence →
      .acknowledged ∈ before := by
  have hinv : s.Inv contract := Run.invariant (fun _ _ hi hs => hi.step hs) (Issuing.Inv.new hnew) hrun
  refine ⟨fun q r hmem hsame => ?_, ?_, hinv.admitted⟩
  · have hanswers := hinv.answers q r hmem
    exact hanswers.confirmable (hsame hanswers.digest)
  · rw [hinv.sequences]
    exact List.nodup_range'

end

/-- The sample lease, answered: the reply is one its node confirms in time. -/
theorem lease_reply_confirmed_sample :
    @Confirmable sampleContractSha sampleProbe.query sampleReply
      ∧ @isOk LeaseProof (@LeaseProof.confirm sampleContractSha sampleProbe.query sampleReply
        sampleProbe.sent (millis 3) (millis 3) (millis 3)) = true := by
  let _ := sampleContractSha
  obtain ⟨-, hreply, hproof, -, hnew⟩ := lease_checked
  have hrun : Run IssuerStep ⟨leaseOffered.issuer, leaseOffered.issuerClock, []⟩
      ⟨⟨sampleContract, millis 60000, 2, false, false⟩, millis 2,
        [.replied sampleProbe.query sampleReply]⟩ :=
    .single (.reply (by decide) (Nat.le_refl _) hreply)
  obtain ⟨hconfirm, -⟩ := lease_reply_confirmed hnew hrun
  exact ⟨hconfirm _ _ (List.mem_singleton_self _) fun _ => rfl, isOk_iff.mpr ⟨_, hproof⟩⟩

end Eef.Node
