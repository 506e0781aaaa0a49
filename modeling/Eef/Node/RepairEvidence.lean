import Eef.Node.RepairAttempts

/-!
# Repair receipts are write-ahead evidence

Every turn of an installation keeps the invariant (`Inv.turn`), and changes the journal by one
admission or by one move of the record of the attempt that is running. So along any run the
journal decodes and only grows, and its records never understate what their attempts did. A
journal that somebody else changed stays as it is, unless the change falls between the check of
a write and the write.
-/

namespace Eef.Node.RepairReceipts

open Eef.Lib

/-- The record that the process writes. -/
def Proc.index : Proc → Option Nat
  | .running a _ _ _ | .failing a _ => some a.index
  | _ => none

/-- The records of the stored journal. -/
def Stored (s : Installation) (rs : List Receipt) : Prop :=
  match s.journal with
  | none => rs = []
  | some t => decode t = .ok rs

/-! ## The admission -/

theorem isHexDigit_toLower {c : Char} (h : isHexDigit c = true) :
    isHexDigit c.toLower = true ∧ c.utf8Size = 1 ∧ c.toLower.utf8Size = 1 := by
  have hall : ∀ n : Fin 103, isHexDigit (Char.ofNat n) = true →
      isHexDigit (Char.ofNat n).toLower = true ∧ (Char.ofNat n).utf8Size = 1 ∧
        (Char.ofNat n).toLower.utf8Size = 1 := by decide
  have hlt : c.toNat < 103 := by
    simp only [isHexDigit, Char.isDigit, Bool.or_eq_true, Bool.and_eq_true, decide_eq_true_eq,
      Char.le_def, UInt32.le_iff_toNat_le] at h
    have h9 : '9'.val.toNat = 57 := rfl
    have hf : 'f'.val.toNat = 102 := rfl
    have hF : 'F'.val.toNat = 70 := rfl
    have hc : c.toNat = c.val.toNat := rfl
    omega
  have hc := hall ⟨c.toNat, hlt⟩
  rw [Char.ofNat_toNat] at hc
  exact hc h

theorem hexDigits64_asciiLower {s : String} (h : hexDigits64 s = true) :
    hexDigits64 (asciiLower s) = true := by
  simp only [hexDigits64, Bool.and_eq_true, beq_iff_eq, List.all_eq_true] at h ⊢
  obtain ⟨hsize, hall⟩ := h
  have hutf : ∀ cs : List Char, (∀ c ∈ cs, isHexDigit c = true) →
      String.utf8Len (cs.map Char.toLower) = String.utf8Len cs := by
    intro cs hcs
    induction cs with
    | nil => rfl
    | cons c cs ih =>
      have hc := isHexDigit_toLower (hcs c (List.mem_cons_self ..))
      rw [List.map_cons, String.utf8Len_cons, String.utf8Len_cons, hc.2.1, hc.2.2,
        ih fun d hd => hcs d (List.mem_cons_of_mem _ hd)]
  constructor
  · rw [asciiLower, String.utf8ByteSize_ofList, hutf _ hall, ← String.utf8ByteSize_ofList,
      String.ofList_toList, hsize]
  · intro c hc
    rw [asciiLower, String.toList_ofList] at hc
    obtain ⟨d, hd, rfl⟩ := List.mem_map.mp hc
    exact (isHexDigit_toLower (hall d hd)).1

theorem hexDigits64_of_hexDigest {s : String} (h : hexDigest s = true) : hexDigits64 s = true := by
  simp only [hexDigest, hexDigits64, Bool.and_eq_true, List.all_eq_true] at h ⊢
  refine ⟨h.1, fun c hc => ?_⟩
  have := h.2 c hc
  simp only [isLowerHex, isHexDigit, Bool.or_eq_true] at this ⊢
  exact Or.inl this

section

variable [F64] [Sha256]

theorem publish_ok {rs : List Receipt} {t : Text} (h : publish rs = .ok t) : t = text rs := by
  simp only [publish, bind_ok, bailIf_ok, pure_ok] at h
  obtain ⟨_, -, h⟩ := h
  exact h.symm

omit [F64] in
/-- What `begin` admits: a fresh record after the ones it read. -/
theorem begin_ok {program executableSha256 runningSlot : String} {request : RepairRequest}
    {now : Nat} {journal : Option Text} {leases : SortedSet String} {p : Pending}
    (h : begin program request executableSha256 runningSlot now journal leases = .ok p)
    (hnow : 0 < now ∧ now ≤ i64Max) :
    ∃ rs r, read journal leases = .ok rs ∧ p.records = rs ++ [r] ∧ p.index = rs.length ∧
      p.expected = journal.map Text.sha256 ∧ rs.length < maxRecords ∧
      (∀ q ∈ rs, q.requestId ≠ r.requestId) ∧ r.Sound ∧ r.sequence = rs.length + 1 ∧
      r.step = .admitted ∧ r.outcome = .inProgress ∧ r.version = request.version ∧
      r.requestId = request.requestId := by
  simp only [begin, validateProgram, validateId, validateVersion, bind_ok, ensure_ok, bailIf_ok,
    pure_ok] at h
  obtain ⟨_, hprogram, _, hid, _, hversion, _, ⟨-, hsha, -, hpos, hmax⟩, original, horiginal, rs,
    hread, _, hfresh, _, hroom, _, -, rfl⟩ := h
  have hraw : original = journal := by
    cases journal with
    | none =>
      cases horiginal
      rfl
    | some t =>
      simp only [raw, bind_ok, bailIf_ok, pure_ok] at horiginal
      obtain ⟨_, -, h⟩ := horiginal
      exact h.symm
  refine ⟨rs, _, hread, rfl, rfl, by rw [hraw], Nat.not_le.mp hroom, ?_, ?_, rfl, rfl, rfl, rfl, rfl⟩
  · intro q hq heq
    exact hfresh (List.mem_map.mpr ⟨q, hq, heq⟩)
  · exact ⟨hid, hprogram, hversion, rfl, hexDigits64_of_hexDigest (Sha256.raw_digest _),
      hexDigits64_asciiLower hsha, ⟨hpos, hmax⟩, ⟨hnow.1, Nat.le_refl _, hnow.2⟩,
      by simp [admission]⟩

/-! ## One turn -/

omit [F64] [Sha256] in
theorem Evidence.frame {s t : Installation} {r : Receipt} (h : Evidence s r)
    (hbundles : t.bundles = s.bundles) (hevents : t.events = s.events) : Evidence t r := by
  refine ⟨?_, ?_, ?_, ?_⟩
  · rw [hbundles]
    exact h.bundle
  · rw [hevents]
    exact h.staged
  · rw [hevents]
    exact h.selection
  · rw [hevents]
    exact h.selected

omit [F64] [Sha256] in
theorem Admitting.frame {s t : Installation} {rs : List Receipt} {p : Pending}
    {selected : Option String} {r : Receipt} (h : Admitting s rs p selected r)
    (hbundles : t.bundles = s.bundles) (hcurrent : t.current = s.current) :
    Admitting t rs p selected r :=
  { h with
    bundle := by
      rw [hbundles]
      exact h.bundle
    current := hcurrent.trans h.current }

/-- A turn that writes no journal and has no effect keeps the invariant as far as the process
is concerned. -/
theorem Inv.frame {s t : Installation} {rs : List Receipt} (h : Inv s rs)
    (hjournal : t.journal = s.journal) (hbundles : t.bundles = s.bundles)
    (hevents : t.events = s.events) (hproc : ProcOk t rs t.proc)
    (hexpected : t.proc ≠ .idle → t.proc.expected = s.journal.map Text.sha256) : Inv t rs where
  stored := by
    rw [hjournal]
    exact h.stored
  valid := h.valid
  evidence r hr := (h.evidence r hr).frame hbundles hevents
  known := by
    rw [hevents]
    exact h.known
  proc := hproc
  expected := by
    rw [hjournal]
    exact hexpected

/-- What a turn does to the records: an admission, or a move of the record of the attempt. -/
structure Turned (s : Installation) (rs rs' : List Receipt) : Prop where
  advance : Advance rs rs'
  others : ∀ (i : Nat) (r : Receipt), rs[i]? = some r → s.proc.index ≠ some i → rs'[i]? = some r

omit [F64] [Sha256] in
theorem Turned.refl (s : Installation) (rs : List Receipt) : Turned s rs rs :=
  ⟨.none rfl, fun _ _ h _ => h⟩

theorem Inv.read {s : Installation} {rs rs' : List Receipt} (h : Inv s rs)
    (hread : read s.journal s.leases = .ok rs') : rs' = rs := by
  simp only [RepairReceipts.read, bind_ok] at hread
  rcases h.stored with ⟨hnone, hrs⟩ | hsome
  · rw [hnone] at hread
    obtain ⟨_, hraw, hread⟩ := hread
    cases hraw
    simp only [bind_ok, bailIf_ok, pure_ok] at hread
    obtain ⟨_, -, hnil⟩ := hread
    rw [← hnil, hrs]
  · rw [hsome] at hread
    obtain ⟨found, hraw, hread⟩ := hread
    simp only [raw, bind_ok, bailIf_ok, pure_ok] at hraw
    obtain ⟨_, -, rfl⟩ := hraw
    change decode (text rs) = _ at hread
    rw [decode_text h.valid] at hread
    cases hread
    rfl

theorem Inv.begin {s : Installation} {rs : List Receipt} {program executableSha256 runningSlot
    : String} {request : RepairRequest} {p : Pending} (hs : Inv s rs) (htime : Timely s)
    (hcurrent : s.current = none ∨ s.current = some request.version)
    (hdestination : (request.version, request.requestId) ∉ s.bundles)
    (h : RepairReceipts.begin program request executableSha256 runningSlot s.clock s.journal
      s.leases = .ok p) :
    Inv { s with
      proc := match p.expected with
        | none => .initializing p s.current
        | some expected => .leasing p s.current expected } rs := by
  obtain ⟨rs', r, hread, hrecords, hindex, hexpected, hroom, hfresh, hsound, hseq, hstep, hout,
    hversion, hid⟩ := begin_ok h htime
  cases hs.read hread
  have hadmit : ∀ proc, Admitting { s with proc } rs p s.current r := fun proc =>
    ⟨hrecords, hindex, hroom, hsound, hseq, hfresh, hstep, hout,
      by rw [hversion, hid]; exact hdestination, rfl, by rw [hversion]; exact hcurrent⟩
  refine hs.frame rfl rfl rfl ?_ ?_
  · cases p.expected with
    | none => exact ⟨r, hadmit _⟩
    | some expected => exact ⟨r, hadmit _⟩
  · intro _
    rw [← hexpected]
    cases p.expected with
    | none => rfl
    | some expected => rfl

theorem Inv.create {s : Installation} {rs : List Receipt} {p : Pending} {selected : Option String}
    (hs : Inv s rs) (hproc : s.proc = .initializing p selected) (h : s.journal = none) :
    Inv { s with
      journal := some (text [])
      proc := .leasing p selected (text []).sha256 } rs := by
  have hrs : rs = [] := by
    rcases hs.stored with ⟨-, hrs⟩ | hsome
    · exact hrs
    · rw [h] at hsome
      cases hsome
  have hok := hs.proc
  rw [hproc] at hok
  obtain ⟨r, hadmit⟩ := hok
  exact {
    stored := Or.inr (by rw [hrs])
    valid := hs.valid
    evidence := fun q hq => (hs.evidence q hq).frame rfl rfl
    known := hs.known
    proc := ⟨r, hadmit.frame rfl rfl⟩
    expected := fun _ => rfl }

/-- The admission becomes durable before anything is staged. -/
theorem Inv.admitted {s : Installation} {rs : List Receipt} {p : Pending} {selected : Option String}
    {expected : String} {t : Text} (hs : Inv s rs)
    (hproc : s.proc = .admitting p selected expected true) (h : publish p.records = .ok t) :
    ∃ rs', Inv { s with
      journal := some t
      proc := .running ⟨p.records, p.index, t.sha256⟩ selected 0 false } rs' ∧
      Turned s rs rs' := by
  have hok := hs.proc
  rw [hproc] at hok
  obtain ⟨r, hr⟩ := hok
  cases publish_ok h
  have hnew : ∀ e ∈ s.events, e.id ≠ r.requestId := by
    intro e he hid
    obtain ⟨q, hq, hqe⟩ := hs.known e he
    exact hr.fresh q hq (hqe.trans hid)
  refine ⟨rs ++ [r], ⟨Or.inr (by rw [hr.records]), ?_, ?_, ?_, ?_, fun _ => rfl⟩, ?_, ?_⟩
  · exact hs.valid.append hr.room hr.sound hr.sequence hr.fresh
  · intro q hq
    rcases List.mem_append.mp hq with hq | hq
    · exact (hs.evidence q hq).frame rfl rfl
    · cases List.mem_singleton.mp hq
      refine ⟨fun hb => absurd hb hr.bundle, fun he => absurd rfl (hnew _ he),
        fun he => absurd rfl (hnew _ he), fun hsel => ?_⟩
      rw [hr.step] at hsel
      cases hsel
  · intro e he
    obtain ⟨q, hq, hqe⟩ := hs.known e he
    exact ⟨q, List.mem_append_left _ hq, hqe⟩
  · refine ⟨r, hr.records, ?_, hr.step, fun _ => hr.outcome, by omega, by omega,
      fun _ => hr.current, hr.version⟩
    rw [hr.index]
    exact List.getElem?_concat_length
  · exact .admitted r rfl hr.fresh hr.step hr.outcome
  · intro i q hq _
    rw [List.getElem?_append_left (List.getElem?_eq_some_iff.mp hq).1]
    exact hq

/-- A write moves the record of the attempt. The evidence of a selection has to be there before
a write that says so. -/
theorem Inv.write {s : Installation} {rs : List Receipt} {proc : Proc} {i : Nat} {r r' : Receipt}
    (hs : Inv s rs) (hr : rs[i]? = some r) (hmove : r.Moved r') (hclock : r'.updatedAtMs ≤ i64Max)
    (hselected : r'.outcome = .selected → .selection r.requestId ∈ s.events ∧
      .current r.requestId (some r.version) ∈ s.events)
    (hindex : s.proc.index = some i)
    (hproc : ProcOk { s with journal := some (text (rs.set i r')), proc } (rs.set i r') proc)
    (hexpected : proc ≠ .idle → proc.expected = some (text (rs.set i r')).sha256) :
    Inv { s with journal := some (text (rs.set i r')), proc } (rs.set i r') ∧
      Turned s rs (rs.set i r') := by
  have hi : i < rs.length := (List.getElem?_eq_some_iff.mp hr).1
  have hvalid := hs.valid.move hr hmove hclock
  have hr' : r' ∈ rs.set i r' := List.mem_set hi r'
  have hord : r.step.ordinal ≤ r'.step.ordinal := by
    rcases hmove.moves with ⟨hstep, -⟩ | ⟨hstep, -⟩
    · omega
    · rw [hstep]
  have hold := hs.evidence r (List.mem_of_getElem? hr)
  have hsame := hmove.same
  refine ⟨⟨Or.inr rfl, hvalid, ?_, ?_, hproc, hexpected⟩, ⟨.moved i r r' hr rfl hmove, ?_⟩⟩
  · intro q hq
    rcases List.mem_or_eq_of_mem_set hq with hq | rfl
    · exact (hs.evidence q hq).frame rfl rfl
    · refine ⟨?_, ?_, ?_, ?_⟩
      · rw [hsame.id, hsame.version]
        exact fun h => Nat.le_trans (hold.bundle h) hord
      · rw [hsame.id]
        exact fun h => Nat.le_trans (hold.staged h) hord
      · rw [hsame.id]
        exact fun h => Nat.le_trans (hold.selection h) hord
      · rw [hsame.id, hsame.version]
        exact fun h => hselected ((hvalid.sound hr').outcome.mpr h)
  · intro e he
    obtain ⟨q, hq, hqe⟩ := hs.known e he
    by_cases hqr : q = r
    · exact ⟨r', hr', by rw [hsame.id, ← hqr, hqe]⟩
    · obtain ⟨j, hj⟩ := List.mem_iff_getElem?.mp hq
      have hij : i ≠ j := by
        rintro rfl
        rw [hr] at hj
        exact hqr (Option.some.inj hj).symm
      refine ⟨q, List.mem_of_getElem? (i := j) ?_, hqe⟩
      rw [List.getElem?_set_ne hij]
      exact hj
  · intro j q hq hne
    have hij : i ≠ j := by
      rintro rfl
      exact hne hindex
    rw [List.getElem?_set_ne hij]
    exact hq

omit [F64] [Sha256] in
theorem Attempt.step_ok {a : Attempt} {st : Step} {now : Nat} {records : List Receipt}
    (h : a.step st now = .ok records) :
    ∃ r, a.records[a.index]? = some r ∧ r.outcome = .inProgress ∧
      st.ordinal = r.step.ordinal + 1 ∧ records = a.records.set a.index (r.advance st now) := by
  simp only [Attempt.step, bind_ok, context_ok, bailIf_ok, pure_ok, not_or, not_not] at h
  obtain ⟨r, hr, _, ⟨hout, hord⟩, h⟩ := h
  exact ⟨r, hr, hout, hord, h.symm⟩

omit [F64] [Sha256] in
theorem Attempt.failed_ok {a : Attempt} {now : Nat} {records : List Receipt}
    (h : a.failed now = .ok records) :
    ∃ r, a.records[a.index]? = some r ∧ r.outcome = .inProgress ∧
      records = a.records.set a.index
        { r with outcome := .failed, updatedAtMs := max now r.updatedAtMs } := by
  simp only [Attempt.failed, bind_ok, context_ok, bailIf_ok, pure_ok, not_not] at h
  obtain ⟨r, hr, _, hout, h⟩ := h
  exact ⟨r, hr, hout, h.symm⟩

omit [F64] [Sha256] in
theorem Receipt.moved_advance {r : Receipt} {st : Step} (now : Nat) (hout : r.outcome = .inProgress)
    (hord : st.ordinal = r.step.ordinal + 1) : r.Moved (r.advance st now) where
  same := ⟨rfl, rfl, rfl, rfl, rfl, rfl, rfl, rfl, rfl⟩
  before := hout
  clock := Nat.le_max_right _ _
  moves := Or.inl ⟨hord, by rw [Receipt.advance, hout]⟩

omit [F64] [Sha256] in
theorem Receipt.moved_failed {r : Receipt} (now : Nat) (hout : r.outcome = .inProgress) :
    r.Moved { r with outcome := .failed, updatedAtMs := max now r.updatedAtMs } where
  same := ⟨rfl, rfl, rfl, rfl, rfl, rfl, rfl, rfl, rfl⟩
  before := hout
  clock := Nat.le_max_right _ _
  moves := Or.inr ⟨rfl, rfl⟩

theorem Inv.clock {s : Installation} {rs : List Receipt} (hs : Inv s rs) (htime : Timely s)
    {i : Nat} {r : Receipt} (hr : rs[i]? = some r) : max s.clock r.updatedAtMs ≤ i64Max :=
  Nat.max_le.mpr ⟨htime.2, (hs.valid.sound (List.mem_of_getElem? hr)).clock.2.2⟩

theorem Inv.step {s : Installation} {rs records : List Receipt} {a : Attempt}
    {selected : Option String} {done : Nat} {st : Step} {t : Text} (hs : Inv s rs)
    (htime : Timely s) (hproc : s.proc = .running a selected done true)
    (hbody : body[done]? = some (.step st)) (h : a.step st s.clock = .ok records)
    (hpublish : publish records = .ok t) :
    ∃ rs', Inv { s with
      journal := some t
      proc := .running ⟨records, a.index, t.sha256⟩ selected (done + 1) false } rs' ∧
      Turned s rs rs' := by
  cases publish_ok hpublish
  have hok := hs.proc
  rw [hproc] at hok
  obtain ⟨r, hrun⟩ := hok
  obtain ⟨r', hr', hout, hord, rfl⟩ := Attempt.step_ok h
  rw [hrun.records] at hr' ⊢
  have hr := hrun.found
  rw [hr] at hr'
  cases hr'
  obtain ⟨hat, -, h6, h7, hselected⟩ := body_step hbody
  have hi : a.index < rs.length := (List.getElem?_eq_some_iff.mp hr).1
  have hevents : (r.advance st s.clock).outcome = .selected → .selection r.requestId ∈ s.events ∧
      .current r.requestId (some r.version) ∈ s.events := by
    intro hsel
    have h8 : done = 8 := by
      by_cases hst : st = .selected
      · exact hselected.mp hst
      · rw [Receipt.advance, if_neg hst, hout] at hsel
        cases hsel
    exact ⟨hrun.selection (by omega), hrun.named (by omega)⟩
  refine ⟨_, hs.write hr (Receipt.moved_advance s.clock hout hord) (hs.clock htime hr) hevents
    (by rw [hproc]; rfl) ⟨r.advance st s.clock, rfl, List.getElem?_set_self hi, hat.symm, ?_, ?_, ?_,
      ?_, hrun.version⟩ fun _ => rfl⟩
  · intro hlt
    have hst : st ≠ .selected := by
      rintro rfl
      have := hselected.mp rfl
      subst this
      exact absurd hlt (by decide)
    rw [Receipt.advance, if_neg hst]
    exact hout
  · intro h7'
    exact hrun.selection (by omega)
  · intro h8
    exact hrun.named (by omega)
  · intro h7'
    exact hrun.current (by omega)

theorem Inv.fail {s : Installation} {rs records : List Receipt} {a : Attempt} {checked : Bool}
    {t : Text} (hs : Inv s rs) (htime : Timely s) (hproc : s.proc = .failing a checked)
    (h : a.failed s.clock = .ok records) (hpublish : publish records = .ok t) :
    ∃ rs', Inv { s with journal := some t, proc := .idle } rs' ∧ Turned s rs rs' := by
  cases publish_ok hpublish
  have hok := hs.proc
  rw [hproc] at hok
  obtain ⟨hrecords, -⟩ := hok
  obtain ⟨r, hr, hout, rfl⟩ := Attempt.failed_ok h
  rw [hrecords] at hr ⊢
  refine ⟨_, hs.write hr (Receipt.moved_failed s.clock hout) (hs.clock htime hr) ?_
    (by rw [hproc]; rfl) trivial fun hne => absurd rfl hne⟩
  intro hsel
  cases hsel

/-! ### Effects -/

/-- An effect of the running attempt. Only the evidence of its own record has to be checked. -/
theorem Inv.effect {s t : Installation} {rs : List Receipt} {a : Attempt}
    {selected : Option String} {done : Nat} {r : Receipt} (hs : Inv s rs)
    (hproc : s.proc = .running a selected done false) (hrun : Running s rs a selected done r)
    (hjournal : t.journal = s.journal)
    (hbundles : ∀ b ∈ t.bundles, b ∈ s.bundles ∨ b = (r.version, r.requestId))
    (hkeep : ∀ e ∈ s.events, e ∈ t.events)
    (hevents : ∀ e ∈ t.events, e ∈ s.events ∨ e.id = r.requestId)
    (hown : Evidence t r) (ht : t.proc = .running a selected (done + 1) false)
    (hrun' : Running t rs a selected (done + 1) r) : Inv t rs := by
  have hr := List.mem_of_getElem? hrun.found
  have hother : ∀ q ∈ rs, q ≠ r → q.requestId ≠ r.requestId := by
    intro q hq hne hid
    obtain ⟨j, hj⟩ := List.mem_iff_getElem?.mp hq
    have hij := hs.valid.unique hj hrun.found hid
    subst hij
    rw [hrun.found] at hj
    exact hne (Option.some.inj hj).symm
  refine ⟨by rw [hjournal]; exact hs.stored, hs.valid, ?_, ?_, ?_, ?_⟩
  · intro q hq
    by_cases hqr : q = r
    · rw [hqr]
      exact hown
    · have hid := hother q hq hqr
      have hq' := hs.evidence q hq
      have hback : ∀ e ∈ t.events, e.id = q.requestId → e ∈ s.events := by
        intro e he heq
        rcases hevents e he with he | he
        · exact he
        · exact absurd (heq.symm.trans he) hid
      refine ⟨fun h => ?_, fun h => hq'.staged (hback _ h rfl),
        fun h => hq'.selection (hback _ h rfl), fun h => ?_⟩
      · rcases hbundles _ h with h | h
        · exact hq'.bundle h
        · exact absurd (congrArg Prod.snd h) hid
      · exact ⟨hkeep _ (hq'.selected h).1, hkeep _ (hq'.selected h).2⟩
  · intro e he
    rcases hevents e he with he | he
    · exact hs.known e he
    · exact ⟨r, hr, he.symm⟩
  · rw [ht]
    exact ⟨r, hrun'⟩
  · intro _
    have hexpected := hs.expected (by rw [hproc]; exact fun h => nomatch h)
    rw [hproc] at hexpected
    rw [ht, hjournal]
    exact hexpected

omit [F64] [Sha256] in
theorem Running.unique {s : Installation} {rs : List Receipt} {a : Attempt}
    {selected : Option String} {done : Nat} {r r' : Receipt} (h : Running s rs a selected done r)
    (hr' : a.records[a.index]? = some r') : r' = r := by
  rw [h.records, h.found] at hr'
  exact (Option.some.inj hr').symm

/-- The bundle directory appears while `staging` is durable. -/
theorem Inv.rename {s : Installation} {rs : List Receipt} {a : Attempt} {selected : Option String}
    {done : Nat} {r : Receipt} (hs : Inv s rs) (hproc : s.proc = .running a selected done false)
    (hbody : body[done]? = some .rename) (hr : a.records[a.index]? = some r) :
    Inv { s with
      bundles := (r.version, r.requestId) :: s.bundles
      events := .staged r.requestId :: s.events
      proc := .running a selected (done + 1) false } rs := by
  have hok := hs.proc
  rw [hproc] at hok
  obtain ⟨_, hrun⟩ := hok
  cases hrun.unique hr
  have hdone : done = 3 := by
    match done, hbody with
    | 3, _ => rfl
    | n + 9, h => cases h
  subst hdone
  have hold := hs.evidence r (List.mem_of_getElem? hrun.found)
  have hstep : r.step = .staging := hrun.step
  refine hs.effect hproc hrun rfl ?_ ?_ ?_ ?_ rfl ?_
  · intro b hb
    rcases List.mem_cons.mp hb with hb | hb
    · exact Or.inr hb
    · exact Or.inl hb
  · exact fun e he => List.mem_cons_of_mem _ he
  · intro e he
    rcases List.mem_cons.mp he with he | he
    · rw [he]
      exact Or.inr rfl
    · exact Or.inl he
  · refine ⟨fun _ => by rw [hstep], fun _ => by rw [hstep], fun h => ?_, fun h => ?_⟩
    · rcases List.mem_cons.mp h with h | h
      · cases h
      · exact hold.selection h
    · rw [hstep] at h
      cases h
  · exact ⟨hrun.records, hrun.found, hstep, fun _ => hrun.outcome (by decide), by omega, by omega,
      fun _ => hrun.current (by omega), hrun.version⟩

/-- The selection is written while `selecting` is durable. -/
theorem Inv.select {s : Installation} {rs : List Receipt} {a : Attempt} {selected : Option String}
    {done : Nat} {r : Receipt} (hs : Inv s rs) (hproc : s.proc = .running a selected done false)
    (hbody : body[done]? = some .select) (hr : a.records[a.index]? = some r) :
    Inv { s with
      events := .selection r.requestId :: s.events
      proc := .running a selected (done + 1) false } rs := by
  have hok := hs.proc
  rw [hproc] at hok
  obtain ⟨_, hrun⟩ := hok
  cases hrun.unique hr
  have hdone : done = 6 := by
    match done, hbody with
    | 6, _ => rfl
    | n + 9, h => cases h
  subst hdone
  have hold := hs.evidence r (List.mem_of_getElem? hrun.found)
  have hstep : r.step = .selecting := hrun.step
  refine hs.effect hproc hrun rfl (fun _ hb => Or.inl hb) ?_ ?_ ?_ rfl ?_
  · exact fun e he => List.mem_cons_of_mem _ he
  · intro e he
    rcases List.mem_cons.mp he with he | he
    · rw [he]
      exact Or.inr rfl
    · exact Or.inl he
  · refine ⟨hold.bundle, fun h => ?_, fun _ => by rw [hstep], fun h => ?_⟩
    · rcases List.mem_cons.mp h with h | h
      · cases h
      · exact hold.staged h
    · rw [hstep] at h
      cases h
  · exact ⟨hrun.records, hrun.found, hstep, fun _ => hrun.outcome (by decide),
      fun _ => List.mem_cons_self .., by omega, fun _ => hrun.current (by omega), hrun.version⟩

/-- `current.txt` names the version afterwards: it was written, or it named it already. -/
theorem Inv.current {s : Installation} {rs : List Receipt} {a : Attempt} {selected : Option String}
    {done : Nat} {r : Receipt} {current : Option String} (hs : Inv s rs)
    (hproc : s.proc = .running a selected done false) (hbody : body[done]? = some .current)
    (hr : a.records[a.index]? = some r)
    (h : current = if selected.isNone then some r.version else s.current) :
    Inv { s with
      current
      events := .current r.requestId current :: s.events
      proc := .running a selected (done + 1) false } rs := by
  have hok := hs.proc
  rw [hproc] at hok
  obtain ⟨_, hrun⟩ := hok
  cases hrun.unique hr
  have hdone : done = 7 := by
    match done, hbody with
    | 7, _ => rfl
    | n + 9, h => cases h
  subst hdone
  have hnamed : current = some r.version := by
    rw [h]
    rcases hrun.version with hv | hv
    · rw [hv]
      rfl
    · rw [hrun.current (Nat.le_refl _), hv]
      rfl
  have hold := hs.evidence r (List.mem_of_getElem? hrun.found)
  have hstep : r.step = .selecting := hrun.step
  refine hs.effect hproc hrun rfl (fun _ hb => Or.inl hb) ?_ ?_ ?_ rfl ?_
  · exact fun e he => List.mem_cons_of_mem _ he
  · intro e he
    rcases List.mem_cons.mp he with he | he
    · rw [he]
      exact Or.inr rfl
    · exact Or.inl he
  · refine ⟨hold.bundle, fun h => ?_, fun _ => by rw [hstep], fun h => ?_⟩
    · rcases List.mem_cons.mp h with h | h
      · cases h
      · exact hold.staged h
    · rw [hstep] at h
      cases h
  · refine ⟨hrun.records, hrun.found, hstep, fun _ => hrun.outcome (by decide),
      fun _ => List.mem_cons_of_mem _ (hrun.selection (by omega)), fun _ => ?_, fun h => ?_,
      hrun.version⟩
    · rw [hnamed]
      exact List.mem_cons_self ..
    · exact absurd h (by decide)

/-! ### All turns -/

theorem Inv.act {s t : Installation} {rs : List Receipt} (hs : Inv s rs) (htime : Timely s)
    (h : Act s t) : ∃ rs', Inv t rs' ∧ Turned s rs rs' := by
  have hok := hs.proc
  have hexp := hs.expected
  cases h with
  | begin hidle hcurrent hdestination h =>
    exact ⟨rs, hs.begin htime hcurrent hdestination h, Turned.refl s rs⟩
  | create hproc h => exact ⟨rs, hs.create hproc h, Turned.refl s rs⟩
  | lease hproc =>
    rw [hproc] at hok hexp
    obtain ⟨r, hr⟩ := hok
    exact ⟨rs, hs.frame rfl rfl rfl ⟨r, hr.frame rfl rfl⟩ fun _ => hexp nofun, Turned.refl s rs⟩
  | checkAdmission hproc h =>
    rw [hproc] at hok hexp
    obtain ⟨r, hr⟩ := hok
    exact ⟨rs, hs.frame rfl rfl rfl ⟨r, hr.frame rfl rfl⟩ fun _ => hexp nofun, Turned.refl s rs⟩
  | admitted hproc h => exact hs.admitted hproc h
  | checkStep hproc hbody h =>
    rw [hproc] at hok hexp
    obtain ⟨r, hr⟩ := hok
    exact ⟨rs, hs.frame rfl rfl rfl ⟨r, { hr with }⟩ fun _ => hexp nofun, Turned.refl s rs⟩
  | step hproc hbody h hpublish => exact hs.step htime hproc hbody h hpublish
  | rename hproc hbody hr => exact ⟨rs, hs.rename hproc hbody hr, Turned.refl s rs⟩
  | select hproc hbody hr => exact ⟨rs, hs.select hproc hbody hr, Turned.refl s rs⟩
  | current hproc hbody hr h => exact ⟨rs, hs.current hproc hbody hr h, Turned.refl s rs⟩
  | refuse hproc hdone =>
    rw [hproc] at hok hexp
    obtain ⟨r, hr⟩ := hok
    exact ⟨rs, hs.frame rfl rfl rfl ⟨hr.records, r, hr.found, hr.outcome hdone⟩ fun _ => hexp nofun,
      Turned.refl s rs⟩
  | checkFailure hproc h =>
    rw [hproc] at hok hexp
    exact ⟨rs, hs.frame rfl rfl rfl hok fun _ => hexp nofun, Turned.refl s rs⟩
  | fail hproc h hpublish => exact hs.fail htime hproc h hpublish
  | stop hproc => exact ⟨rs, hs.frame rfl rfl rfl trivial fun h => absurd rfl h, Turned.refl s rs⟩

omit [F64] [Sha256] in
theorem ProcOk.clock {s : Installation} {rs : List Receipt} {proc : Proc} (clock : Nat)
    (h : ProcOk s rs proc) : ProcOk { s with clock } rs proc := by
  cases proc with
  | idle => trivial
  | initializing p selected =>
    obtain ⟨r, hr⟩ := h
    exact ⟨r, hr.frame rfl rfl⟩
  | leasing p selected expected =>
    obtain ⟨r, hr⟩ := h
    exact ⟨r, hr.frame rfl rfl⟩
  | admitting p selected expected checked =>
    obtain ⟨r, hr⟩ := h
    exact ⟨r, hr.frame rfl rfl⟩
  | running a selected done checked =>
    obtain ⟨r, hr⟩ := h
    exact ⟨r, { hr with }⟩
  | failing a checked => exact h

theorem Inv.turn {s t : Installation} {rs : List Receipt} (hs : Inv s rs) (htime : Timely s)
    (h : Turn s t) : ∃ rs', Inv t rs' ∧ Turned s rs rs' := by
  cases h with
  | act h => exact hs.act htime h
  | tick clock =>
    exact ⟨rs, hs.frame rfl rfl rfl (hs.proc.clock clock) hs.expected, Turned.refl s rs⟩
  | update current hproc =>
    refine ⟨rs, hs.frame rfl rfl rfl ?_ fun h => absurd hproc h, Turned.refl s rs⟩
    rw [hproc]
    trivial

/-- Along a run the invariant holds, with records that only grow. -/
theorem Inv.run {s t : Installation} {rs : List Receipt} (hs : Inv s rs) (htime : Timely s)
    (h : Run TimelyTurn s t) : ∃ rs', Inv t rs' ∧ Timely t ∧ Grown rs rs' := by
  induction h with
  | refl => exact ⟨rs, hs, htime, Grown.refl rs⟩
  | tail _ hlast ih =>
    obtain ⟨rs', hinv, htime', hgrown⟩ := ih
    obtain ⟨rs'', hinv', hturned⟩ := hinv.turn htime' hlast.1
    exact ⟨rs'', hinv', hlast.2, hgrown.trans hturned.advance.grown⟩

/-! ## What readers can rely on -/

/-- What the failure report of operation `id` says: nothing is unknown only where no operation of
that name was admitted, or where it staged and selected nothing, or where it is selected. -/
structure Reported (s : Installation) (rs : List Receipt) (id : String) : Prop where
  absent : (∀ r ∈ rs, r.requestId ≠ id) → ∀ e ∈ s.events, e.id ≠ id
  known : ∀ lease program, outcomeUnknown (status s.journal s.leases lease program (some id)) = false →
    ∀ r ∈ rs, r.requestId = id → r.program = program →
      (r.outcome = .selected ∧ .selection id ∈ s.events ∧ .current id (some r.version) ∈ s.events) ∨
      (.staged id ∉ s.events ∧ .selection id ∉ s.events ∧ (r.version, id) ∉ s.bundles)

/-- The journal of an installation at one moment. -/
structure WriteAhead (s : Installation) (rs : List Receipt) : Prop where
  stored : Stored s rs
  bounded : rs.length ≤ maxRecords
  sequence : ∀ (i : Nat) (r : Receipt), rs[i]? = some r → r.sequence = i + 1
  unique : ∀ (i j : Nat) (r r' : Receipt), rs[i]? = some r → rs[j]? = some r' →
    r.requestId = r'.requestId → i = j
  evidence : ∀ r ∈ rs, Evidence s r
  step : ∀ a selected done checked st now, s.proc = .running a selected done checked →
    body[done]? = some (.step st) → now < 2 ^ 64 →
    ∃ records, a.step st now = .ok records ∧ publish records = .ok (text records)
  failed : ∀ a checked now, s.proc = .failing a checked → now < 2 ^ 64 →
    ∃ records, a.failed now = .ok records ∧ publish records = .ok (text records)
  reported : ∀ id, Reported s rs id

theorem Inv.stored_records {s : Installation} {rs : List Receipt} (h : Inv s rs) :
    Stored s rs := by
  unfold Stored
  rcases h.stored with ⟨hnone, hrs⟩ | hsome
  · rw [hnone]
    exact hrs
  · rw [hsome]
    exact decode_text h.valid

/-- The quota leaves room for every later state of the records. -/
theorem Inv.publish_set {s : Installation} {rs : List Receipt} (h : Inv s rs) {i : Nat}
    {r r' : Receipt} (hr : rs[i]? = some r) (hsame : r.Same r') (hclock : r'.updatedAtMs < 2 ^ 64) :
    publish (rs.set i r') = .ok (text (rs.set i r')) := by
  refine publish_small (by rw [List.length_set]; exact h.valid.bounded) fun q hq => ?_
  have hsmall := h.valid.small
  rcases List.mem_or_eq_of_mem_set hq with hq | rfl
  · exact hsmall q hq
  · have hold := hsmall r (List.mem_of_getElem? hr)
    have hn := hold.numbers
    exact ⟨by rw [hsame.id]; exact hold.id, by rw [hsame.program]; exact hold.program,
      by rw [hsame.version]; exact hold.version, by rw [hsame.definition]; exact hold.definition,
      by rw [hsame.artifact]; exact hold.artifact, by rw [hsame.schema]; exact hn.1,
      by rw [hsame.sequence]; exact hn.2.1, by rw [hsame.size]; exact hn.2.2.1,
      by rw [hsame.admitted]; exact hn.2.2.2.1, hclock⟩

theorem Inv.updated_lt {s : Installation} {rs : List Receipt} (h : Inv s rs) {i now : Nat}
    {r : Receipt} (hr : rs[i]? = some r) (hnow : now < 2 ^ 64) :
    max now r.updatedAtMs < 2 ^ 64 :=
  Nat.max_lt.mpr ⟨hnow, (h.valid.small r (List.mem_of_getElem? hr)).numbers.2.2.2.2⟩

theorem Inv.step_published {s : Installation} {rs : List Receipt} (h : Inv s rs) {a : Attempt}
    {selected : Option String} {done : Nat} {checked : Bool} {st : Step} {now : Nat}
    (hproc : s.proc = .running a selected done checked) (hbody : body[done]? = some (.step st))
    (hnow : now < 2 ^ 64) :
    ∃ records, a.step st now = .ok records ∧ publish records = .ok (text records) := by
  have hok := h.proc
  rw [hproc] at hok
  obtain ⟨r, hrun⟩ := hok
  obtain ⟨-, hord, -⟩ := body_step hbody
  have hlt : done < body.length := (List.getElem?_eq_some_iff.mp hbody).1
  have hout := hrun.outcome hlt
  have hr := hrun.found
  refine ⟨rs.set a.index (r.advance st now), ?_, h.publish_set hr
    (Receipt.moved_advance now hout (by rw [hrun.step]; exact hord)).same (h.updated_lt hr hnow)⟩
  simp only [Attempt.step, bind_ok, context_ok, bailIf_ok, pure_ok, not_or, not_not, hrun.records]
  exact ⟨r, hr, (), ⟨hout, by rw [hrun.step]; exact hord⟩, rfl⟩

theorem Inv.failed_published {s : Installation} {rs : List Receipt} (h : Inv s rs) {a : Attempt}
    {checked : Bool} {now : Nat} (hproc : s.proc = .failing a checked) (hnow : now < 2 ^ 64) :
    ∃ records, a.failed now = .ok records ∧ publish records = .ok (text records) := by
  have hok := h.proc
  rw [hproc] at hok
  obtain ⟨hrecords, r, hr, hout⟩ := hok
  refine ⟨_, ?_, h.publish_set hr (Receipt.moved_failed now hout).same (h.updated_lt hr hnow)⟩
  simp only [Attempt.failed, bind_ok, context_ok, bailIf_ok, pure_ok, not_not, hrecords]
  exact ⟨r, hr, (), hout, rfl⟩

theorem Inv.reported {s : Installation} {rs : List Receipt} (h : Inv s rs) (id : String) :
    Reported s rs id := by
  refine ⟨fun hnone e he heq => ?_, fun lease program hknown r hr hid hprogram => ?_⟩
  · obtain ⟨q, hq, hqe⟩ := h.known e he
    exact hnone q hq (hqe.trans heq)
  · cases hstatus : status s.journal s.leases lease program (some id) with
    | error msg =>
      rw [hstatus] at hknown
      cases hknown
    | ok attempts =>
      rw [hstatus] at hknown
      simp only [status, bind_ok, pure_ok] at hstatus
      obtain ⟨_, -, _, -, records, hread, rfl⟩ := hstatus
      cases h.read hread
      -- the report takes the first record of the operation, which is the only one
      have hmem : r ∈ rs.filter fun q => q.program = program ∧ (some id).all (q.requestId = ·) := by
        simp [hr, hid, hprogram]
      cases hfilter : rs.filter fun q => q.program = program ∧ (some id).all (q.requestId = ·) with
      | nil =>
        rw [hfilter] at hmem
        cases hmem
      | cons q rest =>
        have hq : q ∈ rs.filter fun q => q.program = program ∧ (some id).all (q.requestId = ·) := by
          rw [hfilter]
          exact List.mem_cons_self ..
        simp only [List.mem_filter, Option.all_some, decide_eq_true_eq] at hq
        obtain ⟨i, hi⟩ := List.mem_iff_getElem?.mp hr
        obtain ⟨j, hj⟩ := List.mem_iff_getElem?.mp hq.1
        have hij := h.valid.unique hi hj (hid.trans (by simpa using hq.2.2.symm))
        subst hij
        rw [hi] at hj
        cases hj
        rw [hfilter] at hknown
        simp only [outcomeUnknown, List.map_cons, List.head?_cons, Option.any_some, observe,
          Bool.or_eq_false_iff, Bool.and_eq_false_iff, decide_eq_false_iff_not, Nat.not_le] at hknown
        obtain ⟨-, hstaged⟩ := hknown
        have hev := h.evidence r hr
        rw [← hid]
        rcases hstaged with hlow | hsel
        · right
          refine ⟨fun he => ?_, fun he => ?_, fun he => ?_⟩
          · exact absurd (hev.staged he) (Nat.not_le.mpr hlow)
          · exact absurd (Nat.le_trans (by decide) (hev.selection he)) (Nat.not_le.mpr hlow)
          · exact absurd (hev.bundle he) (Nat.not_le.mpr hlow)
        · left
          have hout : r.outcome = .selected := by simpa using hsel
          exact ⟨hout, hev.selected ((h.valid.sound hr).outcome.mp hout)⟩

theorem Inv.writeAhead {s : Installation} {rs : List Receipt} (h : Inv s rs) :
    WriteAhead s rs where
  stored := h.stored_records
  bounded := h.valid.bounded
  sequence _ _ hr := h.valid.sequence hr
  unique _ _ _ _ hr hr' hid := h.valid.unique hr hr' hid
  evidence := h.evidence
  step _ _ _ _ _ _ hproc hbody hnow := h.step_published hproc hbody hnow
  failed _ _ _ hproc hnow := h.failed_published hproc hnow
  reported := h.reported

/-! ## Somebody else at the journal -/

/-- The process has yet to check the journal that its next write replaces. -/
def Proc.unchecked : Proc → Prop
  | .idle => False
  | .initializing _ _ | .leasing _ _ _ => True
  | .admitting _ _ _ checked | .running _ _ _ checked | .failing _ checked => checked = false

/-- The journal is not the one that the process knows, and the process has yet to find out. -/
def Tampered (s : Installation) : Prop :=
  s.proc.unchecked ∧ s.journal.map Text.sha256 ≠ s.proc.expected

/-- A step of the process while it lasts, or of its clock. -/
inductive Own : Installation → Installation → Prop where
  | act {s t : Installation} (hproc : s.proc ≠ .idle) (h : Act s t) : Own s t
  | tick {s : Installation} (hproc : s.proc ≠ .idle) (clock : Nat) : Own s { s with clock }

omit [F64] [Sha256] in
theorem guard_ok {journal : Option Text} {expected : String}
    (h : guard journal expected = .ok ()) : journal.map Text.sha256 = some expected := by
  simp only [guard, bind_ok, context_ok, bailIf_ok, not_not] at h
  obtain ⟨found, hraw, t, rfl, hsha⟩ := h
  cases journal with
  | none => cases hraw
  | some t' =>
    simp only [raw, bind_ok, bailIf_ok, pure_ok, Option.some.injEq] at hraw
    obtain ⟨_, -, rfl⟩ := hraw
    rw [Option.map_some, hsha]

/-- The process leaves a journal alone that it does not know. -/
theorem Own.tampered {s t : Installation} (hs : Tampered s) (h : Own s t) :
    t.journal = s.journal ∧ (Tampered t ∨ t.proc = .idle) := by
  obtain ⟨hunchecked, hne⟩ := hs
  cases h with
  | tick hproc clock => exact ⟨rfl, Or.inl ⟨hunchecked, hne⟩⟩
  | act hproc h =>
    cases h with
    | begin hidle _ _ _ => exact absurd hidle hproc
    | create hproc h =>
      rw [hproc, h] at hne
      exact absurd rfl hne
    | lease hproc =>
      rw [hproc] at hne
      exact ⟨rfl, Or.inl ⟨rfl, hne⟩⟩
    | checkAdmission hproc h =>
      rw [hproc] at hne
      exact absurd (guard_ok h) hne
    | admitted hproc _ =>
      rw [hproc] at hunchecked
      cases hunchecked
    | checkStep hproc _ h =>
      rw [hproc] at hne
      exact absurd (guard_ok h) hne
    | step hproc _ _ _ =>
      rw [hproc] at hunchecked
      cases hunchecked
    | rename hproc _ _ =>
      rw [hproc] at hne
      exact ⟨rfl, Or.inl ⟨rfl, hne⟩⟩
    | select hproc _ _ =>
      rw [hproc] at hne
      exact ⟨rfl, Or.inl ⟨rfl, hne⟩⟩
    | current hproc _ _ _ =>
      rw [hproc] at hne
      exact ⟨rfl, Or.inl ⟨rfl, hne⟩⟩
    | refuse hproc _ =>
      rw [hproc] at hne
      exact ⟨rfl, Or.inl ⟨rfl, hne⟩⟩
    | checkFailure hproc h =>
      rw [hproc] at hne
      exact absurd (guard_ok h) hne
    | fail hproc _ _ =>
      rw [hproc] at hunchecked
      cases hunchecked
    | stop _ => exact ⟨rfl, Or.inr rfl⟩

theorem Tampered.run {s t : Installation} (hs : Tampered s) (h : Run Own s t) :
    t.journal = s.journal := by
  have hall : t.journal = s.journal ∧ (Tampered t ∨ t.proc = .idle) := by
    induction h with
    | refl => exact ⟨rfl, Or.inl hs⟩
    | tail _ hlast ih =>
      rcases ih.2 with htampered | hidle
      · obtain ⟨hjournal, hnext⟩ := hlast.tampered htampered
        exact ⟨hjournal.trans ih.1, hnext⟩
      · cases hlast with
        | act hproc _ => exact absurd hidle hproc
        | tick hproc _ => exact absurd hidle hproc
  exact hall.1

/-- A change of the journal while the process has yet to check it counts as tampering. -/
theorem Inv.tampered {s : Installation} {rs : List Receipt} (h : Inv s rs)
    (hunchecked : s.proc.unchecked) {journal : Option Text}
    (hne : journal.map Text.sha256 ≠ s.journal.map Text.sha256) : Tampered { s with journal } := by
  refine ⟨hunchecked, ?_⟩
  have hexpected : s.proc.expected = s.journal.map Text.sha256 := by
    refine h.expected fun hidle => ?_
    rw [hidle] at hunchecked
    exact hunchecked
  rw [← hexpected] at hne
  exact hne

/-- Repair receipts are write-ahead evidence, along every run of attempts, their crashes and their
failures. -/
theorem receipts_write_ahead {bundles : List (String × String)} {current : Option String}
    {clock : Nat} {s t : Installation} (hclock : 0 < clock ∧ clock ≤ i64Max)
    (hs : Run TimelyTurn (.fresh bundles current clock) s) (ht : Run TimelyTurn s t) :
    (∃ rs rs', WriteAhead s rs ∧ WriteAhead t rs' ∧ Grown rs rs' ∧
      ∀ u, TimelyTurn t u → ∃ rs'', WriteAhead u rs'' ∧ Turned t rs' rs'') ∧
    (t.proc.unchecked → ∀ journal, journal.map Text.sha256 ≠ t.journal.map Text.sha256 →
      Tampered { t with journal }) ∧
    ∀ u v, Tampered u → Run Own u v → v.journal = u.journal := by
  obtain ⟨rs, hinv, htime, -⟩ := (Inv.fresh bundles current clock).run hclock hs
  obtain ⟨rs', hinv', htime', hgrown⟩ := hinv.run htime ht
  refine ⟨⟨rs, rs', hinv.writeAhead, hinv'.writeAhead, hgrown, fun u hu => ?_⟩,
    fun hunchecked journal hne => hinv'.tampered hunchecked hne, fun u v hu h => hu.run h⟩
  obtain ⟨rs'', hinv'', hturned⟩ := hinv'.turn htime' hu.1
  exact ⟨rs'', hinv''.writeAhead, hturned⟩

end

/-! ## One attempt -/

/-- A repair of version 1.2.3. -/
def sampleRequest : RepairRequest where
  schemaVersion := 1
  requestId := "550e8400-e29b-41d4-a716-446655440000"
  version := "1.2.3"
  url := "https://example.invalid/a.zip"
  sha256 := String.ofList (List.replicate 64 'a')
  sizeBytes := 9
  allowPrerelease := false

/-- A hash with one value. -/
@[reducible]
def sampleSha : Sha256 := .constant (String.ofList (List.replicate 64 'b')) (by decide)

/-- A text that somebody else wrote. -/
def foreign : Text := ⟨none, 0, String.ofList (List.replicate 64 'c')⟩

section

attribute [local instance] F64.bits sampleSha

/-- The record of the repair, admitted at `now`. -/
def sampleReceipt (now : Nat) : Receipt :=
  admission "eefn" sampleRequest (String.ofList (List.replicate 64 'd')) "root" now 0

/-- The installation when the repair has checked the journal and has yet to publish its
admission. -/
def sampleState (now : Nat) (journal : Text) : Installation where
  journal := some journal
  leases := .insert .empty sampleRequest.requestId
  bundles := []
  current := none
  clock := now
  proc := .admitting ⟨[sampleReceipt now], 0, none⟩ none (text []).sha256 true
  events := []

/-- The repair is admitted over whatever journal is there by then. -/
def sampleAdmitted (now : Nat) : Installation where
  journal := some (text [sampleReceipt now])
  leases := .insert .empty sampleRequest.requestId
  bundles := []
  current := none
  clock := now
  proc := .running ⟨[sampleReceipt now], 0, (text [sampleReceipt now]).sha256⟩ none 0 false
  events := []

theorem sample_begin (now : Nat) :
    begin "eefn" sampleRequest (String.ofList (List.replicate 64 'd')) "root" now none .empty =
      .ok ⟨[sampleReceipt now], 0, none⟩ := by
  rfl

/-- What the journal of the attempt reads and writes. -/
theorem sample_checked : guard (some (text [])) (text []).sha256 = .ok ()
    ∧ publish [sampleReceipt 5] = .ok (text [sampleReceipt 5])
    ∧ publish [sampleReceipt 0] = .ok (text [sampleReceipt 0])
    ∧ decode (text [sampleReceipt 0]) =
      .error "damaged repair receipt; retained without repair" := by
  decide +kernel

theorem timelyTurn_of_act {s t : Installation} (h : Act s t) (hclock : t.clock = 5) :
    TimelyTurn s t := by
  refine ⟨.act h, ?_⟩
  rw [Timely, hclock]
  decide

theorem sample_run {R : Installation → Installation → Prop} {now : Nat}
    (hR : ∀ s t, Act s t → t.clock = now → R s t) :
    Run R (.fresh [] none now) (sampleState now (text [])) := by
  refine .tail (.tail (.tail (.single (hR _ _ (.begin rfl (Or.inl rfl) ?_ (sample_begin now)) rfl))
    (hR _ _ (.create rfl rfl) rfl)) (hR _ _ (@Act.lease _ _ _ _ _ _ (sampleReceipt now) rfl rfl) rfl))
    (hR _ _ (.checkAdmission rfl ?_) rfl)
  · exact List.not_mem_nil
  · exact sample_checked.1

theorem sample_admitted (now : Nat) (journal : Text)
    (h : publish [sampleReceipt now] = .ok (text [sampleReceipt now])) :
    Act (sampleState now journal) (sampleAdmitted now) :=
  @Act.admitted _ _ (sampleState now journal) ⟨[sampleReceipt now], 0, none⟩ none (text []).sha256
    (text [sampleReceipt now]) rfl h

/-- Somebody's journal is overwritten when it appears between the check and the write, and an
admission under a clock that reads zero does not decode. -/
theorem journal_overwritten :
    (¬∀ (_ : F64) (_ : Sha256) (bundles : List (String × String)) (current : Option String)
      (clock : Nat) (s s' t : Installation), 0 < clock ∧ clock ≤ i64Max →
      Run TimelyTurn (.fresh bundles current clock) s → s.proc ≠ .idle → Outside s s' →
      s'.journal.map Text.sha256 ≠ s.journal.map Text.sha256 → Run Own s' t →
      t.journal = s'.journal) ∧
    ¬∀ (_ : F64) (_ : Sha256) (bundles : List (String × String)) (current : Option String)
      (clock : Nat) (t : Installation), Run Turn (.fresh bundles current clock) t →
      ∃ rs, Stored t rs := by
  constructor
  · intro h
    have hrun : Run TimelyTurn (.fresh [] none 5) (sampleState 5 (text [])) := by
      exact sample_run fun s t hact hclock => timelyTurn_of_act hact hclock
    have hadmit := sample_admitted 5 foreign sample_checked.2.1
    have := h F64.bits sampleSha [] none 5 _ (sampleState 5 foreign) _ (by decide) hrun nofun
      (.journal (some foreign)) (by decide) (.single (.act nofun hadmit))
    cases this
  · intro h
    have hrun : Run Turn (.fresh [] none 0) (sampleAdmitted 0) :=
      (sample_run fun s t hact _ => .act hact).tail (.act (sample_admitted 0 _ sample_checked.2.2.1))
    obtain ⟨rs, hrs⟩ := h F64.bits sampleSha [] none 0 _ hrun
    have hbad := sample_checked.2.2.2
    change decode (text [sampleReceipt 0]) = .ok rs at hrs
    rw [hbad] at hrs
    cases hrs

/-! The attempt is carried through to its end. -/

/-- The installation amid that attempt: its record, how many actions of the body are done, whether the
next write is checked, and what they left behind. -/
def sampleRunning (r : Receipt) (done : Nat) (checked : Bool) (bundles : List (String × String))
    (current : Option String) (events : List Event) : Installation where
  journal := some (text [r])
  leases := .insert .empty sampleRequest.requestId
  bundles := bundles
  current := current
  clock := 5
  proc := .running ⟨[r], 0, (text [r]).sha256⟩ none done checked
  events := events

theorem Receipt.Small.advance {r : Receipt} (h : r.Small) (st : Step) : (r.advance st 5).Small :=
  { h with
    numbers := by
      obtain ⟨h1, h2, h3, h4, h5⟩ := h.numbers
      exact ⟨h1, h2, h3, h4, Nat.max_lt.mpr ⟨by decide, h5⟩⟩ }

/-- One step of the body: its journal is checked, and then replaced. -/
theorem step_run {r : Receipt} {st : Step} {done : Nat} {bundles : List (String × String)}
    {current : Option String} {events : List Event} (hsmall : r.Small)
    (hbody : body[done]? = some (.step st)) (hopen : r.outcome = .inProgress)
    (hnext : st.ordinal = r.step.ordinal + 1) :
    Run TimelyTurn (sampleRunning r done false bundles current events)
      (sampleRunning (r.advance st 5) (done + 1) false bundles current events) := by
  have hpublish : ∀ r : Receipt, r.Small → publish [r] = .ok (text [r]) := fun r h =>
    publish_small (Nat.le_of_lt (by decide : 1 < maxRecords)) fun q hq =>
      List.mem_singleton.mp hq ▸ h
  have hguard : guard (some (text [r])) (text [r]).sha256 = .ok () := by
    have hquota := hpublish r hsmall
    simp only [publish, bind_ok, bailIf_ok, pure_ok] at hquota
    obtain ⟨_, hquota, -⟩ := hquota
    simp only [guard, raw, bind_ok, context_ok, bailIf_ok, pure_ok, ne_eq, not_not]
    exact ⟨_, ⟨(), hquota, rfl⟩, _, rfl, rfl⟩
  have hstep : Attempt.step ⟨[r], 0, (text [r]).sha256⟩ st 5 = .ok [r.advance st 5] := by
    simp only [Attempt.step, bind_ok, context_ok, bailIf_ok, pure_ok]
    exact ⟨r, rfl, (), by simp [hopen, hnext], rfl⟩
  have h1 : TimelyTurn (sampleRunning r done false bundles current events)
      (sampleRunning r done true bundles current events) :=
    timelyTurn_of_act (.checkStep rfl hbody hguard) rfl
  have h2 : TimelyTurn (sampleRunning r done true bundles current events)
      (sampleRunning (r.advance st 5) (done + 1) false bundles current events) :=
    timelyTurn_of_act (@Act.step _ _ (sampleRunning r done true bundles current events) _ _ _ _ _ _
      rfl hbody hstep (hpublish _ (hsmall.advance st))) rfl
  exact (Relation.ReflTransGen.single h1).tail h2

/-- The record of the attempt after a list of steps. -/
def sampleAfter (steps : List Step) : Receipt :=
  steps.foldl (fun r st => r.advance st 5) (sampleReceipt 5)

theorem sampleAfter_small (steps : List Step) : (sampleAfter steps).Small := by
  have hadmitted : (sampleReceipt 5).Small := by
    refine ⟨?_, Or.inr rfl, ?_, ?_, ?_, by decide⟩
    all_goals decide +kernel
  have hall : ∀ (steps : List Step) (r : Receipt), r.Small →
      (steps.foldl (fun r st => r.advance st 5) r).Small := by
    intro steps
    induction steps with
    | nil => exact fun _ h => h
    | cons st steps ih => exact fun r h => ih _ (h.advance st)
  exact hall steps _ hadmitted

/-- The steps of an attempt that ends with its version selected. -/
def sampleSteps : List Step :=
  [.downloading, .verifying, .staging, .staged, .selecting, .selected]

/-- The installation after it. -/
def sampleSelected : Installation :=
  sampleRunning (sampleAfter sampleSteps) 9 false
    [("1.2.3", sampleRequest.requestId)] (some "1.2.3")
    [.current sampleRequest.requestId (some "1.2.3"), .selection sampleRequest.requestId,
      .staged sampleRequest.requestId]

/-- The whole body of the attempt. -/
theorem selected_run : Run TimelyTurn (sampleAdmitted 5) sampleSelected := by
  let version := "1.2.3"
  let id := sampleRequest.requestId
  let staging := sampleAfter (sampleSteps.take 3)
  let selecting := sampleAfter (sampleSteps.take 5)
  have h1 : Run TimelyTurn (sampleAdmitted 5) (sampleRunning staging 3 false [] none []) :=
    ((step_run (sampleAfter_small []) rfl rfl rfl).trans
      (step_run (sampleAfter_small (sampleSteps.take 1)) rfl rfl rfl)).trans
      (step_run (sampleAfter_small (sampleSteps.take 2)) rfl rfl rfl)
  have h2 : TimelyTurn (sampleRunning staging 3 false [] none [])
      (sampleRunning staging 4 false [(version, id)] none [.staged id]) :=
    timelyTurn_of_act (@Act.rename _ _ (sampleRunning staging 3 false [] none []) _ _ _ staging rfl
      rfl rfl) rfl
  have h3 : Run TimelyTurn (sampleRunning staging 4 false [(version, id)] none [.staged id])
      (sampleRunning selecting 6 false [(version, id)] none [.staged id]) :=
    (step_run (sampleAfter_small (sampleSteps.take 3)) rfl rfl rfl).trans
      (step_run (sampleAfter_small (sampleSteps.take 4)) rfl rfl rfl)
  have h4 : TimelyTurn (sampleRunning selecting 6 false [(version, id)] none [.staged id])
      (sampleRunning selecting 7 false [(version, id)] none [.selection id, .staged id]) :=
    timelyTurn_of_act (@Act.select _ _ (sampleRunning selecting 6 false _ _ _) _ _ _ selecting rfl
      rfl rfl) rfl
  have h5 : TimelyTurn
      (sampleRunning selecting 7 false [(version, id)] none [.selection id, .staged id])
      (sampleRunning selecting 8 false [(version, id)] (some version)
        [.current id (some version), .selection id, .staged id]) :=
    timelyTurn_of_act (@Act.current _ _ (sampleRunning selecting 7 false _ _ _) _ _ _ selecting _ rfl
      rfl rfl rfl) rfl
  have h6 : Run TimelyTurn
      (sampleRunning selecting 8 false [(version, id)] (some version)
        [.current id (some version), .selection id, .staged id]) sampleSelected :=
    step_run (sampleAfter_small (sampleSteps.take 5)) rfl rfl rfl
  exact ((((h1.tail h2).trans h3).tail h4).tail h5).trans h6

/-- The guarantees where that attempt has just been admitted, and at its end. -/
theorem receipts_write_ahead_selected :
    ∃ rs rs', WriteAhead (sampleAdmitted 5) rs ∧ WriteAhead sampleSelected rs' ∧ Grown rs rs' := by
  have hadmitted : Run TimelyTurn (.fresh [] none 5) (sampleAdmitted 5) :=
    (sample_run fun s t hact hclock => timelyTurn_of_act hact hclock).tail
      (timelyTurn_of_act (sample_admitted 5 _ sample_checked.2.1) rfl)
  obtain ⟨⟨rs, rs', hs, ht, hgrown, -⟩, -⟩ :=
    receipts_write_ahead (by decide) hadmitted selected_run
  exact ⟨rs, rs', hs, ht, hgrown⟩

end

end Eef.Node.RepairReceipts
