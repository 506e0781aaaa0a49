import Eef.Lib.Lists
import Eef.Lib.Table
import Eef.Node.RequestDrafts

/-!
# How the record of a review grows

A record is read back as it was written (`DraftRecord.fromJson_toJson`). Its validation comes apart
into bounds of the whole, one receipt for each entry, and one test for each entry that looks only at
the entries before it (`validate_iff`). A later record has the same text and begins with the same
entries (`Extends`), so the tests of the entries it had stay as they were (`Extends.proposed`,
`Extends.answered`), and an entry that is appended is a matter of that entry and of the bounds alone
(`append_answer`, `append_proposal`).
-/

namespace Eef.Node.Drafts

open Eef.Lib

/-! ## Fields that are left out -/

theorem lookup_present {α : Type} (k key : String) (f : α → Json) (o : Option α) :
    (present key f o).lookup k = if k = key then o.map f else none := by
  cases o with
  | none =>
    split
    · rfl
    · rfl
  | some a =>
    by_cases h : k = key
    · rw [if_pos h, present, List.lookup_cons, beq_iff_eq.mpr h]
      rfl
    · rw [if_neg h, present, List.lookup_cons, beq_eq_false_iff_ne.mpr h]
      rfl

theorem keys_present {α : Type} (key : String) (f : α → Json) (o : Option α) :
    ((present key f o).map Prod.fst).Sublist [key] := by
  cases o with
  | none => exact List.nil_sublist _
  | some a => exact List.Sublist.refl _

/-- A struct some of whose fields are left out. -/
theorem struct_sublist {β : Type} {known : List String} {required : Nat} {fs : Fields}
    {g : Fields → Option β} (hk : (fs.map Prod.fst).Sublist known) (hn : known.Nodup) :
    (Json.struct known required (.obj fs) >>= g) = g fs := by
  have hok : Json.struct known required (.obj fs) = some fs :=
    if_pos ⟨hn.sublist hk, fun _ h => hk.subset h⟩
  rw [hok]
  rfl

/-- An `Option` field as `present` writes it. -/
theorem optField_present {α : Type} {fs : Fields} {key : String} {f : α → Json}
    {g : Json → Option α} {o : Option α} (h : fs.lookup key = o.map f)
    (hg : ∀ a, g (f a) = some a) (hnull : ∀ a, f a ≠ .null) : Json.optField fs key g = some o := by
  rw [Json.optField, h]
  cases o with
  | none => rfl
  | some a =>
    rw [Option.map_some]
    split
    · next heq => cases heq
    · next heq => exact absurd (Option.some.inj heq) (hnull a)
    · next heq =>
      rw [← Option.some.inj heq, hg]
      rfl

/-! ## Reading back -/

theorem asU32_toNat (x : UInt32) : asU32 (.nat x.toNat) = some x := by
  rw [asU32, Json.asUInt_nat x.toNat_lt, Option.map_some, UInt32.ofNat_toNat]

theorem asU64_toNat (x : UInt64) : asU64 (.nat x.toNat) = some x := by
  rw [asU64, Json.asUInt_nat x.toNat_lt, Option.map_some, UInt64.ofNat_toNat]

theorem asStrings (xs : List String) : Json.asList Json.asStr (strings xs) = some xs :=
  Json.asList_map (f := Json.asStr) (e := Json.str) (fun _ => rfl) xs

theorem Intent.ofName_name (i : Intent) : Intent.ofName i.name = some i := by
  cases i
  all_goals rfl

theorem Workload.ofName_name (w : Workload) : Workload.ofName w.name = some w := by
  cases w
  all_goals rfl

theorem Complexity.ofName_name (c : Complexity) : Complexity.ofName c.name = some c := by
  cases c
  all_goals rfl

theorem Proposal.fromJson_toJson (p : Proposal) : fromJson p.toJson = some p := by
  have hquestion : question (.ofOption .str p.clarification) = some p.clarification := by
    cases p.clarification with
    | none => rfl
    | some q => rfl
  rw [fromJson, toJson]
  refine Eq.trans (Json.struct_bind ?_ ?_) ?_
  · rfl
  · decide
  refine (Json.field_bind rfl (asU32_toNat _)).trans ?_
  refine (Json.field_bind (a := p.intent) rfl (Intent.ofName_name _)).trans ?_
  refine (Json.field_bind (a := p.goal) rfl rfl).trans ?_
  refine (Json.field_bind rfl (asStrings _)).trans ?_
  refine (Json.field_bind rfl (asStrings _)).trans ?_
  refine (Json.field_bind rfl (asStrings _)).trans ?_
  refine (Json.field_bind (a := p.complexity) rfl (Complexity.ofName_name _)).trans ?_
  refine (Json.field_bind (a := p.workload) rfl (Workload.ofName_name _)).trans ?_
  refine (Json.field_bind (a := p.needsClarification) rfl rfl).trans ?_
  exact (Json.field_bind rfl hquestion).trans rfl

theorem ResolutionEvidence.fromJson_toJson (e : ResolutionEvidence) :
    fromJson e.toJson = some e := by
  rw [fromJson, toJson]
  refine Eq.trans (Json.struct_bind ?_ ?_) ?_
  · rfl
  · decide
  refine (Json.field_bind rfl (asU32_toNat _)).trans ?_
  refine (Json.field_bind rfl (asU64_toNat _)).trans ?_
  refine (Json.field_bind (a := e.sourceSha256) rfl rfl).trans ?_
  refine (Json.field_bind rfl (asU64_toNat _)).trans ?_
  refine (Json.field_bind rfl (asU64_toNat _)).trans ?_
  refine (Json.field_bind (a := e.backend) rfl rfl).trans ?_
  exact (Json.field_bind (a := e.modelId) rfl rfl).trans rfl

theorem AnswerSource.fromJson_toJson (s : AnswerSource) : fromJson s.toJson = some s := by
  rw [fromJson, toJson]
  refine Eq.trans (Json.struct_bind ?_ ?_) ?_
  · rfl
  · decide
  refine (Json.field_bind rfl (asU32_toNat _)).trans ?_
  refine (Json.field_bind rfl (asU64_toNat _)).trans ?_
  refine (Json.field_bind (a := s.sha256) rfl rfl).trans ?_
  refine (Json.field_bind rfl (asU64_toNat _)).trans ?_
  exact (Json.field_bind rfl (asU64_toNat _)).trans rfl

theorem ResolutionEvidence.toJson_ne_null (e : ResolutionEvidence) : e.toJson ≠ .null := by
  intro h
  cases h

theorem AnswerSource.toJson_ne_null (s : AnswerSource) : s.toJson ≠ .null := by
  intro h
  cases h

theorem obj_ne_null (fs : Fields) : Json.obj fs ≠ .null := by
  intro h
  cases h

theorem ProposalRevision.fromJson_toJson (r : ProposalRevision) : fromJson r.toJson = some r := by
  rw [fromJson, toJson]
  refine Eq.trans (struct_sublist ?_ (by decide)) ?_
  · rw [List.map_append, List.map_append]
    exact ((List.Sublist.refl _).append (keys_present ..)).append (keys_present ..)
  refine (Json.field_bind (a := r.operationId) rfl rfl).trans ?_
  refine (Json.field_bind rfl r.proposal.fromJson_toJson).trans ?_
  refine (Json.field_bind rfl (asStrings _)).trans ?_
  refine (Json.field_bind rfl (asU64_toNat _)).trans ?_
  refine (Json.optField_bind (o := r.resolution) ?_).trans ?_
  · refine optField_present ?_ ResolutionEvidence.fromJson_toJson ResolutionEvidence.toJson_ne_null
    simp [List.lookup_append, lookup_present, List.lookup_cons]
  refine (Json.optField_bind (o := r.preparation) ?_).trans rfl
  refine optField_present (f := Json.obj) ?_ (fun _ => rfl) obj_ne_null
  simp [List.lookup_append, lookup_present, List.lookup_cons]

theorem ClarificationAnswer.fromJson_toJson (a : ClarificationAnswer) :
    fromJson a.toJson = some a := by
  rw [fromJson, toJson]
  refine Eq.trans (struct_sublist ?_ (by decide)) ?_
  · rw [List.map_append]
    exact (List.Sublist.refl _).append (keys_present ..)
  refine (Json.field_bind (a := a.operationId) rfl rfl).trans ?_
  refine (Json.field_bind rfl (asU64_toNat _)).trans ?_
  refine (Json.field_bind (a := a.question) rfl rfl).trans ?_
  refine (Json.field_bind (a := a.text) rfl rfl).trans ?_
  refine (Json.field_bind rfl (asU64_toNat _)).trans ?_
  refine (Json.optField_bind (o := a.source) ?_).trans rfl
  refine optField_present ?_ AnswerSource.fromJson_toJson AnswerSource.toJson_ne_null
  simp [lookup_present, List.lookup_cons]

theorem DraftRecord.fromJson_toJson (d : DraftRecord) : fromJson d.toJson = some d := by
  have hproposals := Json.asList_map ProposalRevision.fromJson_toJson d.proposals
  have hanswers := Json.asList_map ClarificationAnswer.fromJson_toJson d.answers
  rw [fromJson, toJson]
  refine Eq.trans (struct_sublist ?_ (by decide)) ?_
  · rw [List.map_append, List.map_append, List.map_append]
    exact (((List.Sublist.refl _).append (keys_present ..)).append (keys_present ..)).append
      (List.Sublist.refl _)
  refine (Json.field_bind rfl (asU32_toNat _)).trans ?_
  refine (Json.field_bind (a := d.originalText) rfl rfl).trans ?_
  refine (Json.optField_bind (o := d.concreteInput) ?_).trans ?_
  · refine optField_present (f := Json.obj) ?_ (fun _ => rfl) obj_ne_null
    simp [List.lookup_append, lookup_present, List.lookup_cons]
  refine (Json.optField_bind (o := d.audioSource) ?_).trans ?_
  · refine optField_present (f := Json.obj) ?_ (fun _ => rfl) obj_ne_null
    simp [List.lookup_append, lookup_present, List.lookup_cons]
  refine (Json.field_bind ?_ hproposals).trans ?_
  · simp [List.lookup_append, lookup_present, List.lookup_cons]
  refine (Json.field_bind ?_ hanswers).trans rfl
  simp [List.lookup_append, lookup_present, List.lookup_cons]

/-! ## What validation says -/

namespace DraftRecord

/-- The receipts of a record, in the order they are tested. -/
def receipts (d : DraftRecord) : List String :=
  d.proposals.map (·.operationId) ++ d.answers.map (·.operationId)

section
variable [F64] [Sha256] [Choices] {d e : DraftRecord}

/-- The tests of one proposal, but that its receipt is new. -/
structure Proposed (d : DraftRecord) (i : Nat) (r : ProposalRevision) : Prop where
  receipt : validateOperationId r.operationId = .ok ()
  checked : d.checkProposal i r = .ok ()

/-- The tests of one answer, but that its receipt is new. -/
structure Answered (d : DraftRecord) (i : Nat) (a : ClarificationAnswer) : Prop where
  receipt : validateOperationId a.operationId = .ok ()
  text : validateAnswer a.text = .ok ()
  question : (d.proposals[a.proposalIndex.toNat]?.bind (·.proposal.clarification)) = some a.question
  source : ∀ s ∈ a.source, d.checkSource i a s = .ok ()

/-- What `validate` says of a record. -/
structure Valid (d : DraftRecord) : Prop where
  bounded : d.bounded
  audio : d.validateAudio = .ok ()
  input : d.validateInput = .ok ()
  receipts : d.receipts.Nodup
  proposed : ∀ i r, d.proposals[i]? = some r → d.Proposed i r
  answered : ∀ i a, d.answers[i]? = some a → d.Answered i a

theorem validateProposals_ok {rs : List ProposalRevision} : ∀ {k : Nat} {seen out : List String},
    seen.Nodup → (d.validateProposals k seen rs = .ok out ↔
      out = seen ++ rs.map (·.operationId) ∧ out.Nodup ∧
        ∀ i r, rs[i]? = some r → d.Proposed (k + i) r) := by
  induction rs with
  | nil =>
    intro k seen out hseen
    simp only [validateProposals, Except.ok.injEq, List.map_nil, List.append_nil]
    constructor
    · intro h
      exact ⟨h.symm, h ▸ hseen, fun i r hr => by simp at hr⟩
    · intro h
      exact h.1.symm
  | cons r rs ih =>
    intro k seen out hseen
    rw [Lists.forall_getElem?_cons]
    simp only [validateProposals, bind_ok, bailIf_ok]
    constructor
    · intro h
      obtain ⟨_, hid, _, hnew, _, hchecked, hrest⟩ := h
      have hnodup := Lists.nodup_append_singleton.mpr ⟨hseen, hnew⟩
      obtain ⟨hout, hout', hall⟩ := (ih hnodup).mp hrest
      rw [List.append_assoc] at hout
      exact ⟨hout, hout', ⟨hid, hchecked⟩, hall⟩
    · intro h
      obtain ⟨hout, hout', ⟨hid, hchecked⟩, hall⟩ := h
      rw [List.map_cons, List.append_cons] at hout
      have hnodup : (seen ++ [r.operationId]).Nodup := by
        rw [hout] at hout'
        exact (List.nodup_append.mp hout').1
      exact ⟨(), hid, (), (Lists.nodup_append_singleton.mp hnodup).2, (), hchecked,
        (ih hnodup).mpr ⟨hout, hout', hall⟩⟩

omit [F64] [Choices] in
theorem validateAnswers_ok {as : List ClarificationAnswer} : ∀ {k : Nat} {seen : List String},
    seen.Nodup → (d.validateAnswers k seen as = .ok () ↔
      (seen ++ as.map (·.operationId)).Nodup ∧
        ∀ i a, as[i]? = some a → d.Answered (k + i) a) := by
  induction as with
  | nil =>
    intro k seen hseen
    simp only [validateAnswers, List.map_nil, List.append_nil]
    exact ⟨fun _ => ⟨hseen, fun i r hr => by simp at hr⟩, fun _ => trivial⟩
  | cons a as ih =>
    intro k seen hseen
    rw [Lists.forall_getElem?_cons]
    simp only [validateAnswers, bind_ok, bailIf_ok, each_ok, Option.mem_toList, not_or,
      Decidable.not_not]
    constructor
    · intro h
      obtain ⟨_, hid, _, htext, _, ⟨hnew, hquestion⟩, _, hsource, hrest⟩ := h
      obtain ⟨hout, hall⟩ := (ih (Lists.nodup_append_singleton.mpr ⟨hseen, hnew⟩)).mp hrest
      rw [List.append_assoc] at hout
      exact ⟨hout, ⟨hid, htext, hquestion, hsource⟩, hall⟩
    · intro h
      obtain ⟨hout, ⟨hid, htext, hquestion, hsource⟩, hall⟩ := h
      rw [List.map_cons, List.append_cons] at hout
      have hnodup := (List.nodup_append.mp hout).1
      exact ⟨(), hid, (), htext, (), ⟨(Lists.nodup_append_singleton.mp hnodup).2, hquestion⟩, (), hsource,
        (ih hnodup).mpr ⟨hout, hall⟩⟩

theorem validate_iff : d.validate = .ok () ↔ d.Valid := by
  simp only [validate, bind_ok, ensure_ok]
  constructor
  · intro h
    obtain ⟨_, hbounded, _, haudio, _, hinput, seen, hproposals, hanswers⟩ := h
    obtain ⟨rfl, hseen, hproposed⟩ := (validateProposals_ok List.nodup_nil).mp hproposals
    obtain ⟨hreceipts, hanswered⟩ := (validateAnswers_ok hseen).mp hanswers
    simp only [Nat.zero_add] at hproposed hanswered
    exact ⟨hbounded, haudio, hinput, hreceipts, hproposed, hanswered⟩
  · intro h
    have hseen : ([] ++ d.proposals.map ProposalRevision.operationId).Nodup :=
      (List.nodup_append.mp h.receipts).1
    refine ⟨(), h.bounded, (), h.audio, (), h.input, _,
      (validateProposals_ok List.nodup_nil).mpr ⟨rfl, hseen, fun i r hr => ?_⟩,
      (validateAnswers_ok hseen).mpr ⟨h.receipts, fun i a ha => ?_⟩⟩
    · rw [Nat.zero_add]
      exact h.proposed i r hr
    · rw [Nat.zero_add]
      exact h.answered i a ha

end

/-! ## Later records -/

/-- A later record of the same review: nothing that was said is changed. -/
structure Extends (d e : DraftRecord) : Prop where
  same : e = { d with proposals := e.proposals, answers := e.answers }
  proposals : d.proposals <+: e.proposals
  answers : d.answers <+: e.answers

section
variable {d e f : DraftRecord}

theorem Extends.refl (d : DraftRecord) : d.Extends d := ⟨rfl, List.prefix_rfl, List.prefix_rfl⟩

theorem Extends.trans (h : d.Extends e) (h' : e.Extends f) : d.Extends f := by
  refine ⟨?_, h.proposals.trans h'.proposals, h.answers.trans h'.answers⟩
  rw [h'.same, h.same]

/-- A part of the record that was there can be rebuilt from a later one. -/
theorem Extends.upTo (h : d.Extends e) {i j : Nat} (hi : i ≤ d.proposals.length)
    (hj : j ≤ d.answers.length) : e.upTo i j = d.upTo i j := by
  rw [h.same]
  unfold DraftRecord.upTo
  rw [List.prefix_iff_eq_take.mp h.proposals, List.prefix_iff_eq_take.mp h.answers,
    List.take_take, List.take_take, Nat.min_eq_left hi, Nat.min_eq_left hj]

theorem upTo_self (d : DraftRecord) : d.upTo d.proposals.length d.answers.length = d := by
  unfold upTo
  rw [List.take_length, List.take_length]

/-- The record with one more answer. -/
def answer (d : DraftRecord) (a : ClarificationAnswer) : DraftRecord :=
  { d with answers := d.answers ++ [a] }

/-- The record with one more proposal. -/
def revise (d : DraftRecord) (r : ProposalRevision) : DraftRecord :=
  { d with proposals := d.proposals ++ [r] }

theorem extends_answer (d : DraftRecord) (a : ClarificationAnswer) : d.Extends (d.answer a) :=
  ⟨rfl, List.prefix_rfl, List.prefix_append ..⟩

theorem extends_revise (d : DraftRecord) (r : ProposalRevision) : d.Extends (d.revise r) :=
  ⟨rfl, List.prefix_append .., List.prefix_rfl⟩

end

section
variable [F64] [Sha256] [Choices] {d e : DraftRecord}

/-- A proposal that no prepared question is in stays as it was tested. -/
theorem Extends.proposed (h : d.Extends e) {i : Nat} {r : ProposalRevision}
    (hi : i ≤ d.proposals.length) (hr : r.preparation = none) (hd : d.Proposed i r) :
    e.Proposed i r := by
  refine ⟨hd.receipt, ?_⟩
  have hchecked := hd.checked
  have htext : e.originalText = d.originalText := by rw [h.same]
  have hexplicit : e.explicitPipeline = d.explicitPipeline := by
    unfold explicitPipeline
    rw [h.same]
  simp only [checkProposal, hr, Option.toList_none, bind_ok, each_ok, Option.mem_toList]
    at hchecked ⊢
  obtain ⟨_, hvalid, _, hresolution, -⟩ := hchecked
  rw [htext, hexplicit]
  refine ⟨(), hvalid, (), fun evidence hevidence => ?_, fun _ h => absurd h List.not_mem_nil⟩
  have hold := hresolution evidence hevidence
  simp only [checkResolution, bind_ok, bailIf_ok, ensure_ok, not_or, Nat.not_lt] at hold ⊢
  obtain ⟨_, hbounds, _, ⟨hindex, hcount⟩, hsource⟩ := hold
  refine ⟨(), hbounds, (), ⟨hindex, hcount.trans h.answers.length_le⟩, ?_⟩
  rw [h.upTo hi hcount]
  exact hsource

omit [F64] [Choices] in
/-- An answer stays as it was tested. -/
theorem Extends.answered (h : d.Extends e) {i : Nat} {a : ClarificationAnswer}
    (hi : i ≤ d.answers.length) (hd : d.Answered i a) : e.Answered i a := by
  refine ⟨hd.receipt, hd.text, ?_, fun s hs => ?_⟩
  · have hquestion := hd.question
    obtain ⟨r, hr, hclarification⟩ := Option.bind_eq_some_iff.mp hquestion
    rw [Lists.getElem?_prefix h.proposals hr]
    exact hclarification
  · have hold := hd.source s hs
    simp only [checkSource, bind_ok, bailIf_ok, ensure_ok, not_or, Nat.not_lt] at hold ⊢
    obtain ⟨_, ⟨hanswers, hproposal, hcount⟩, hsource⟩ := hold
    refine ⟨(), ⟨hanswers, hproposal, hcount.trans h.proposals.length_le⟩, ?_⟩
    rw [h.upTo hcount hi]
    exact hsource

omit [F64] [Sha256] in
/-- A typed audio source is for a record of one proposal. -/
theorem validateAudio_ok (h : d.validateAudio = .ok ()) :
    d.audioSource = none ∨ d.proposals.length = 1 ∧ d.answers = [] := by
  cases haudio : d.audioSource with
  | none => exact .inl rfl
  | some source =>
    simp only [validateAudio, haudio, Option.toList_some, each_ok, List.mem_singleton, bind_ok,
      bailIf_ok, not_or, Decidable.not_not] at h
    obtain ⟨_, -, ⟨_, _, _⟩, -, hone, hanswers, -⟩ := h source rfl
    exact .inr ⟨hone, hanswers⟩

omit [F64] [Sha256] in
theorem validateAudio_none (h : d.audioSource = none) : d.validateAudio = .ok () := by
  rw [validateAudio, h]
  rfl

omit [F64] [Sha256] in
/-- The input is compared with the first proposal. -/
theorem Extends.input (h : d.Extends e) (hne : d.proposals ≠ []) :
    e.validateInput = d.validateInput := by
  obtain ⟨rs, hrs⟩ := h.proposals
  have hhead : (e.proposals.map (·.proposal.suggestedCapabilities)).head? =
      (d.proposals.map (·.proposal.suggestedCapabilities)).head? := by
    obtain ⟨r, ps, hps⟩ := List.exists_cons_of_ne_nil hne
    rw [← hrs, hps]
    rfl
  have hinput : e.concreteInput = d.concreteInput := by rw [h.same]
  unfold validateInput
  rw [hinput, hhead]

/-- No proposal was prepared. -/
def Plain (d : DraftRecord) : Prop := ∀ r ∈ d.proposals, r.preparation = none

/-- What is left to test of an entry that is appended. -/
theorem Valid.extends (hd : d.Valid) (hplain : d.Plain) (h : d.Extends e)
    (hmore : e.proposals.length ≠ 1 ∨ e.answers ≠ [])
    (hproposed : ∀ i r, d.proposals.length ≤ i → e.proposals[i]? = some r → e.Proposed i r)
    (hanswered : ∀ i a, d.answers.length ≤ i → e.answers[i]? = some a → e.Answered i a) :
    e.validate = .ok () ↔ e.bounded ∧ d.audioSource = none ∧ e.receipts.Nodup := by
  have haudio : e.audioSource = d.audioSource := by rw [h.same]
  rw [validate_iff]
  constructor
  · intro he
    refine ⟨he.bounded, ?_, he.receipts⟩
    rcases validateAudio_ok he.audio with hnone | hone
    · rw [← haudio]
      exact hnone
    · rcases hmore with hne | hne
      · exact absurd hone.1 hne
      · exact absurd hone.2 hne
  · intro he
    obtain ⟨hbounded, hnone, hreceipts⟩ := he
    have hinput := hd.input
    rw [← h.input hd.bounded.2.1] at hinput
    refine ⟨hbounded, validateAudio_none (haudio.trans hnone), hinput, hreceipts,
      fun i r hr => ?_, fun i a ha => ?_⟩
    · by_cases hi : i < d.proposals.length
      · have hold : e.proposals[i]? = some d.proposals[i] :=
          Lists.getElem?_prefix h.proposals (List.getElem?_eq_getElem hi)
        obtain rfl : d.proposals[i] = r := Option.some.inj (hold.symm.trans hr)
        exact h.proposed hi.le (hplain _ (List.getElem_mem hi))
          (hd.proposed i _ (List.getElem?_eq_getElem hi))
      · exact hproposed i r (Nat.le_of_not_lt hi) hr
    · by_cases hi : i < d.answers.length
      · have hold : e.answers[i]? = some d.answers[i] :=
          Lists.getElem?_prefix h.answers (List.getElem?_eq_getElem hi)
        obtain rfl : d.answers[i] = a := Option.some.inj (hold.symm.trans ha)
        exact h.answered hi.le (hd.answered i _ (List.getElem?_eq_getElem hi))
      · exact hanswered i a (Nat.le_of_not_lt hi) ha

/-- **An answer spoils nothing.** A record is valid with one more answer when the answer passes its
own tests, its receipt is new, and the whole stays in its bounds. -/
theorem Valid.answer_iff (hd : d.Valid) (hplain : d.Plain) {a : ClarificationAnswer}
    (ha : d.Answered d.answers.length a) :
    (d.answer a).validate = .ok () ↔
      (d.answer a).bounded ∧ d.audioSource = none ∧ a.operationId ∉ d.receipts := by
  have hreceipts : (d.answer a).receipts = d.receipts ++ [a.operationId] := by
    unfold DraftRecord.receipts answer
    rw [List.map_append, List.append_assoc]
    rfl
  have hlength : (d.answer a).answers.length = d.answers.length + 1 := List.length_append
  have hne : (d.answer a).answers ≠ [] := List.length_pos_iff.mp (by omega)
  rw [hd.extends hplain (extends_answer d a) (.inr hne), hreceipts, Lists.nodup_append_singleton,
    and_iff_right hd.receipts]
  · intro i r hi hr
    have hlt : i < d.proposals.length := (List.getElem?_eq_some_iff.mp hr).1
    omega
  · intro i b hi hb
    obtain ⟨hlt, hb⟩ := List.getElem?_eq_some_iff.mp hb
    obtain rfl : i = d.answers.length := by omega
    obtain rfl : a = b := by
      rw [← hb]
      exact (List.getElem_concat_length rfl _).symm
    exact (extends_answer d a).answered (Nat.le_refl _) ha

/-- And so is a proposal. -/
theorem Valid.revise_iff (hd : d.Valid) (hplain : d.Plain) {r : ProposalRevision}
    (hr : d.Proposed d.proposals.length r) (hnone : r.preparation = none) :
    (d.revise r).validate = .ok () ↔
      (d.revise r).bounded ∧ d.audioSource = none ∧ r.operationId ∉ d.receipts := by
  have hreceipts : (d.revise r).receipts.Perm (d.receipts ++ [r.operationId]) := by
    unfold DraftRecord.receipts revise
    rw [List.map_append, List.append_assoc, List.append_assoc]
    exact List.perm_append_comm.append_left _
  have hlength : (d.revise r).proposals.length = d.proposals.length + 1 := List.length_append
  have hpositive := List.length_pos_iff.mpr hd.bounded.2.1
  rw [hd.extends hplain (extends_revise d r) (.inl (by omega)), hreceipts.nodup_iff,
    Lists.nodup_append_singleton, and_iff_right hd.receipts]
  · intro i q hi hq
    obtain ⟨hlt, hq⟩ := List.getElem?_eq_some_iff.mp hq
    obtain rfl : i = d.proposals.length := by omega
    obtain rfl : r = q := by
      rw [← hq]
      exact (List.getElem_concat_length rfl _).symm
    exact (extends_revise d r).proposed (Nat.le_refl _) hnone hr
  · intro i a hi ha
    have hlt : i < d.answers.length := (List.getElem?_eq_some_iff.mp ha).1
    omega

/-! ## New entries -/

/-- A proposal that was validated asks a question if and only if it needs an answer. -/
theorem Proposed.consistent {i : Nat} {r : ProposalRevision} (h : d.Proposed i r) :
    r.proposal.consistent := by
  have hchecked := h.checked
  simp only [checkProposal, validateWithCapLimit, bind_ok, context_ok, ensure_ok] at hchecked
  obtain ⟨_, ⟨_, -, _, -, _, -, p, hread, _, -, _, -, _, -, _, -, _, -, _, -, hconsistent⟩, -⟩ :=
    hchecked
  rw [Proposal.fromJson_toJson] at hread
  exact Option.some.inj hread ▸ hconsistent

/-- The proposal that a record has come to. -/
theorem Valid.current_some (hd : d.Valid) :
    ∃ r, d.proposals.getLast? = some r ∧ d.proposals[d.proposals.length - 1]? = some r ∧
      d.Proposed (d.proposals.length - 1) r := by
  have hlast := List.getLast?_eq_some_getLast hd.bounded.2.1
  have hindex := (List.getLast?_eq_getElem? (l := d.proposals)).symm.trans hlast
  exact ⟨_, hlast, hindex, hd.proposed _ _ hindex⟩

/-- What `from_draft` writes down of a record. -/
def sourceAt (d : DraftRecord) (revision : UInt64) : AnswerSource :=
  ⟨1, revision, Sha256.definition d.toJson, UInt64.ofNat d.proposals.length,
    UInt64.ofNat d.answers.length⟩

/-- The answer that is recorded to the open question. -/
def nextAnswer (d : DraftRecord) (receipt question text : String) (revision atMs : UInt64) :
    ClarificationAnswer :=
  ⟨receipt, UInt64.ofNat (d.proposals.length - 1), question, text, atMs, some (d.sourceAt revision)⟩

theorem answerSource_ok {revision : UInt64} {s : AnswerSource} :
    d.answerSource revision = .ok s ↔
      d.Valid ∧ s = d.sourceAt revision ∧ (d.sourceAt revision).confirms d := by
  simp only [answerSource, bind_ok, ensure_ok, pure_ok]
  constructor
  · intro h
    obtain ⟨_, hvalid, _, hconfirms, hs⟩ := h
    exact ⟨validate_iff.mp hvalid, hs.symm, hconfirms⟩
  · intro h
    obtain ⟨hvalid, hs, hconfirms⟩ := h
    exact ⟨(), validate_iff.mpr hvalid, (), hconfirms, hs.symm⟩

theorem Valid.proposals_toNat (hd : d.Valid) :
    (UInt64.ofNat d.proposals.length).toNat = d.proposals.length := by
  refine UInt64.toNat_ofNat_of_lt ?_
  have hle := hd.bounded.2.2.1
  exact hle.trans_lt (by decide)

theorem Valid.answers_toNat (hd : d.Valid) :
    (UInt64.ofNat d.answers.length).toNat = d.answers.length := by
  refine UInt64.toNat_ofNat_of_lt ?_
  have hle := hd.bounded.2.2.2.1
  exact hle.trans_lt (by decide)

/-- When an open question can be answered at a revision. -/
theorem Valid.confirms_iff (hd : d.Valid) {p : Proposal} {q : String} (hcurrent : d.current = some p)
    (hq : p.clarification = some q) (revision : UInt64) :
    (d.sourceAt revision).confirms d ↔ 0 < revision.toNat ∧ revision.toNat ≠ 2 ^ 64 - 1 ∧
      d.answers.length < 16 ∧ d.proposals.length + d.answers.length ≤ revision.toNat := by
  obtain ⟨r, hlast, -, hr⟩ := hd.current_some
  have hp : r.proposal = p := by
    rw [current, hlast] at hcurrent
    exact Option.some.inj hcurrent
  have hneeded : (d.proposals.getLast?.any fun r => r.proposal.needsClarification) = true := by
    rw [hlast]
    refine hr.consistent.1.trans ?_
    rw [hp, hq]
    rfl
  have hpositive := List.length_pos_iff.mpr hd.bounded.2.1
  have hmost := hd.bounded.2.2.1
  unfold AnswerSource.confirms sourceAt
  simp only [hd.proposals_toNat, hd.answers_toNat, hneeded, true_and, and_true,
    and_iff_right hpositive, and_iff_right hmost]

/-- The answer that a command records passes its tests. -/
theorem Valid.answers (hd : d.Valid) {p : Proposal} {q operation text : String}
    {revision atMs : UInt64} (hcurrent : d.current = some p) (hq : p.clarification = some q)
    (hconfirms : (d.sourceAt revision).confirms d) (hid : validateOperationId operation = .ok ())
    (htext : validateAnswer text = .ok ()) :
    d.Answered d.answers.length (d.nextAnswer operation q text revision atMs) := by
  obtain ⟨r, hlast, hindex, -⟩ := hd.current_some
  have hp : r.proposal = p := by
    rw [current, hlast] at hcurrent
    exact Option.some.inj hcurrent
  have hpositive := List.length_pos_iff.mpr hd.bounded.2.1
  have hmost := hd.bounded.2.2.1
  have hlt : (d.nextAnswer operation q text revision atMs).proposalIndex.toNat =
      d.proposals.length - 1 :=
    UInt64.toNat_ofNat_of_lt (show d.proposals.length - 1 < 2 ^ 64 by omega)
  refine ⟨hid, htext, ?_, fun s hs => ?_⟩
  · rw [hlt, hindex]
    exact (congrArg Proposal.clarification hp).trans hq
  · obtain rfl : d.sourceAt revision = s := Option.some.inj hs
    have hproposals : (d.sourceAt revision).proposalCount.toNat = d.proposals.length :=
      hd.proposals_toNat
    simp only [checkSource, bind_ok, bailIf_ok, ensure_ok, hproposals, hlt]
    refine ⟨(), ?_, ?_⟩
    · have hanswers : (d.sourceAt revision).answerCount.toNat = d.answers.length := hd.answers_toNat
      omega
    · rw [upTo_self]
      exact hconfirms

/-- And the proposal. -/
theorem Valid.revises (hd : d.Valid) (capabilities : List String) (atMs : UInt64) {p : Proposal}
    {operation : String} {resolution : Option ResolutionEvidence}
    (hp : validateProposal d.originalText p capabilities = .ok ())
    (hid : validateOperationId operation = .ok ())
    (hresolution : ∀ e ∈ resolution, e.confirmsSource d) :
    d.Proposed d.proposals.length ⟨operation, p, capabilities, atMs, resolution, none⟩ := by
  have hne : ¬(d.proposals.length = 0 ∧ d.explicitPipeline = true) := by
    intro h
    exact hd.bounded.2.1 (List.length_eq_zero_iff.mp h.1)
  refine ⟨hid, ?_⟩
  simp only [checkProposal, if_neg hne, bind_ok, each_ok, Option.mem_toList]
  refine ⟨(), hp, (), fun e he => ?_, fun _ h => Option.not_mem_none _ h |>.elim⟩
  obtain ⟨hvalid, hproposals, hanswers, hrest⟩ := hresolution e he
  simp only [checkResolution, bind_ok, bailIf_ok, ensure_ok]
  refine ⟨(), isOk_unit.mp hvalid, (), ?_, ?_⟩
  · omega
  · rw [hanswers, upTo_self]
    exact ⟨hvalid, hproposals, hanswers, hrest⟩

end

end DraftRecord

/-! ## Receipts -/

/-- What a command asks to have recorded. A revision is compared with that of an answer alone. -/
inductive Content where
  | answer (revision : UInt64) (text : String)
  | proposal (text : String) (proposal : Proposal) (resolution : Option ResolutionEvidence)
  deriving DecidableEq, Repr

def DraftCommand.content : DraftCommand → Option Content
  | get _ => none
  | answer _ revision text => some (.answer revision text)
  | revise _ _ text proposal => some (.proposal text proposal none)
  | resolve _ _ text proposal evidence => some (.proposal text proposal (some evidence))

namespace DraftRecord

/-- What a receipt was recorded with. Of an answer in an older journal it is unknown, and a prepared
question answers no command. -/
def entry (d : DraftRecord) (receipt : String) : Option Content :=
  match Table.find (·.operationId) receipt d.answers with
  | some a => a.source.map fun s => .answer s.revision a.text
  | none =>
    match Table.find (·.operationId) receipt d.proposals with
    | some r =>
      if r.preparation.isSome = true then none
      else some (.proposal d.originalText r.proposal r.resolution)
    | none => none

section
variable {d e : DraftRecord} {receipt : String}

theorem find_not_mem {α : Type} {key : α → String} {xs : List α} (h : receipt ∉ xs.map key) :
    Table.find key receipt xs = none :=
  Table.find_none.mpr fun a ha hkey => h (List.mem_map.mpr ⟨a, ha, hkey⟩)

/-- A receipt is one entry's. -/
theorem not_both (hd : d.receipts.Nodup) (h : receipt ∈ d.answers.map (·.operationId)) :
    receipt ∉ d.proposals.map (·.operationId) :=
  fun hmem => (List.nodup_append.mp hd).2.2 _ hmem _ h rfl

/-- And what it was recorded with stays. -/
theorem Extends.entry (h : d.Extends e) (he : e.receipts.Nodup) {c : Content}
    (hc : d.entry receipt = some c) : e.entry receipt = some c := by
  have htext : e.originalText = d.originalText := by rw [h.same]
  unfold DraftRecord.entry at hc ⊢
  cases ha : Table.find (·.operationId) receipt d.answers with
  | some a =>
    rw [ha] at hc
    rw [Table.find_prefix h.answers ha]
    exact hc
  | none =>
    rw [ha] at hc
    cases hr : Table.find (·.operationId) receipt d.proposals with
    | none =>
      rw [hr] at hc
      cases hc
    | some r =>
      rw [hr] at hc
      have hfound := Table.find_prefix h.proposals hr
      have hnone : Table.find (·.operationId) receipt e.answers = none :=
        find_not_mem fun hmem => not_both he hmem (Table.find_mem hfound)
      rw [hnone, hfound, htext]
      exact hc

end

end DraftRecord

end Eef.Node.Drafts
