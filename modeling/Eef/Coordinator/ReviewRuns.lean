import Eef.Coordinator.ReviewCommands

/-!
# What a review keeps

The record of a review over runs of the journal, in which any commands may come in any order as long
as those that are not draft commands leave the record alone (`ReviewTurn`; preparation, which adds
entries of its own, is not among them). One turn is `ReviewTurn.grows`, a run `review_grows`.

What rests on it: nothing that was said is changed, and every entry can still be checked against
exactly what it was made from (`review_append_only`); a receipt that was recorded settles every later
command that carries it (`receipt_settles`); what is refused, answered or recorded in any state of a
run (`review_history`). And the record never gets in its own way: an entry with a new receipt, made
for the current revision, is refused only where the record would outgrow its bounds
(`review_stays_open`).
-/

namespace Eef.Coordinator

open Eef.Lib Eef.Node

namespace Store

section
variable [F64] [PeerAdmission] [Sha256] [Planner] [Pairing] [ScopeCompiler] [Drafts.Choices]
  {s t u : Store} {p q : Plan} {d e : Drafts.DraftRecord} {id : String} {origin : RequestContext}
  {capabilities : List String} {atMs : UInt64} {now saved : Nat}

/-- A turn of the journal, as the review of one job has it. A command that is refused is none. -/
inductive ReviewTurn (id : String) (s t : Store) : Prop where
  | draft (kind : String) (payload : Json) (origin : RequestContext) (capabilities : List String)
      (atMs : UInt64) (now saved : Nat) (report : Json)
      (h : s.draftCommand kind payload origin capabilities atMs now saved = .ok (t, report))
  | other (h : s.Command t) (hkeeps : ∀ p, s.job id = some p → ∃ q, t.job id = some q ∧
      q.requestReview = p.requestReview ∧ q.goal.requestContext = p.goal.requestContext ∧
      p.revision ≤ q.revision)

theorem ReviewTurn.intact (h : ReviewTurn id s t) (hs : s.Intact) : t.Intact := by
  cases h with
  | draft kind payload origin capabilities atMs now saved report h =>
    rcases draftCommand_command h with rfl | h
    · exact hs
    · exact (h.changes hs).intact hs
  | other h hkeeps => exact (h.changes hs).intact hs

/-- How many entries a record has. -/
def reviewEntries (d : Drafts.DraftRecord) : Nat := d.proposals.length + d.answers.length

/-- From one state of the job and its record to a later one. -/
structure ReviewGrows (p q : Plan) (d e : Drafts.DraftRecord) : Prop where
  later : d.Extends e
  origin : q.goal.requestContext = p.goal.requestContext
  revision : reviewEntries e + p.revision ≤ reviewEntries d + q.revision
  valid : e = d ∨ e.Valid
  plain : d.Plain → e.Plain

omit [PeerAdmission] [Planner] [Pairing] [ScopeCompiler] in
theorem ReviewGrows.refl (p : Plan) (d : Drafts.DraftRecord) : ReviewGrows p p d d :=
  ⟨.refl d, rfl, Nat.le_refl _, .inl rfl, id⟩

omit [PeerAdmission] [Planner] [Pairing] [ScopeCompiler] in
theorem ReviewGrows.trans {r : Plan} {f : Drafts.DraftRecord} (h : ReviewGrows p q d e)
    (h' : ReviewGrows q r e f) : ReviewGrows p r d f := by
  refine ⟨h.later.trans h'.later, h'.origin.trans h.origin, ?_, ?_, h'.plain ∘ h.plain⟩
  · have h₁ := h.revision
    have h₂ := h'.revision
    omega
  · rcases h'.valid with rfl | hvalid
    · exact h.valid
    · exact .inr hvalid

omit [PeerAdmission] [Planner] [Pairing] [ScopeCompiler] in
/-- One more entry, at the next revision. -/
theorem records_grows {c : Drafts.DraftCommand} (h : Records p d e c origin)
    (history : List JobEvent) : ReviewGrows p (recorded p e saved history) d e := by
  rcases h.one with ⟨a, rfl, -⟩ | ⟨r, rfl, -, hnone⟩
  · refine ⟨Drafts.DraftRecord.extends_answer d a, rfl, ?_, .inr h.valid, fun hplain => hplain⟩
    have hlength : (d.answer a).answers.length = d.answers.length + 1 := List.length_append
    show d.proposals.length + (d.answer a).answers.length + p.revision ≤
      d.proposals.length + d.answers.length + (p.revision + 1)
    omega
  · refine ⟨Drafts.DraftRecord.extends_revise d r, rfl, ?_, .inr h.valid, fun hplain q hq => ?_⟩
    · have hlength : (d.revise r).proposals.length = d.proposals.length + 1 := List.length_append
      show (d.revise r).proposals.length + d.answers.length + p.revision ≤
        d.proposals.length + d.answers.length + (p.revision + 1)
      omega
    · rcases List.mem_append.mp hq with hq | hq
      · exact hplain q hq
      · rw [List.mem_singleton.mp hq]
        exact hnone

/-- The command of another job leaves this one as it was. -/
theorem saveDraft_other {c : Drafts.DraftCommand} {reused : Bool}
    (h : s.saveDraft c origin capabilities atMs now saved = .ok (t, q, reused)) (hid : c.id ≠ id) :
    t.job id = s.job id := by
  simp only [saveDraft, bind_ok] at h
  obtain ⟨p, hread, u, hedit, edited, happly, h⟩ := h
  cases edited with
  | none =>
    rw [editJob_none hread happly] at hedit
    cases hedit
    rw [pure_ok] at h
    cases h
    rfl
  | some p' =>
    obtain ⟨history, hupdate⟩ := editJob_some hread happly hedit
    simp only [bind_ok, pure_ok] at h
    obtain ⟨row, -, h⟩ := h
    cases h
    have hsame : p'.planId = c.id := (applyDraft_keeps p p' happly).1.trans (readJob_ok hread).2
    rw [job_update hupdate, if_neg]
    intro heq
    exact hid (hsame.symm.trans heq.symm)

/-- What an edit leaves of the review: the record as it was, or with one more entry. -/
theorem saveDraft_records {c : Drafts.DraftCommand} {reused : Bool} (hs : s.Reviewing c.id p d)
    (h : s.saveDraft c origin capabilities atMs now saved = .ok (t, q, reused)) :
    p.applyDraft c origin capabilities atMs = .ok none ∧ t = s ∧ q = p ∧ reused = true ∨
      reused = false ∧ ∃ e history, Records p d e c origin ∧ q = recorded p e saved history ∧
        t.Reviewing c.id q e := by
  have hplan : p.planId = c.id := by
    simp only [saveDraft, bind_ok] at h
    obtain ⟨p', hread, -⟩ := h
    obtain ⟨hjob, hplan⟩ := readJob_ok hread
    obtain rfl : p = p' := Option.some.inj (hs.found.symm.trans hjob)
    exact hplan
  rcases saveDraft_ok hs h with hsame | ⟨hnew, e, history, hrecords, rfl, hupdate⟩
  · exact .inl hsame
  · refine .inr ⟨hnew, e, history, hrecords, rfl, ?_, rfl⟩
    rw [job_update hupdate, if_pos (show c.id = (recorded p e saved history).planId from hplan.symm),
      hs.found]
    rfl

/-- What a draft command does to the review of a job: nothing, or one more entry. -/
theorem draftCommand_records {kind : String} {payload report : Json} (hs : s.Reviewing id p d)
    (h : s.draftCommand kind payload origin capabilities atMs now saved = .ok (t, report)) :
    t.Reviewing id p d ∨ ∃ c e history, readDraftCommand kind payload = .ok c ∧ c.id = id ∧
      Records p d e c origin ∧ t.Reviewing id (recorded p e saved history) e := by
  obtain ⟨c, -, hread, ⟨-, rfl⟩ | ⟨-, q, reused, hsave, -⟩⟩ := draftCommand_ok h
  · exact .inl hs
  · by_cases hid : c.id = id
    · subst hid
      rcases saveDraft_records hs hsave with ⟨-, rfl, -, -⟩ | ⟨-, e, history, hrecords, rfl, hnext⟩
      · exact .inl hs
      · exact .inr ⟨c, e, history, hread, rfl, hrecords, hnext⟩
    · exact .inl ⟨(saveDraft_other hsave hid).trans hs.found, hs.review⟩

theorem ReviewTurn.grows (hs : s.Reviewing id p d) (h : ReviewTurn id s t) :
    ∃ q e, t.Reviewing id q e ∧ ReviewGrows p q d e := by
  cases h with
  | draft kind payload origin capabilities atMs now saved report h =>
    rcases draftCommand_records hs h with ht | ⟨c, e, history, -, -, hrecords, ht⟩
    · exact ⟨p, d, ht, .refl p d⟩
    · exact ⟨_, e, ht, records_grows hrecords history⟩
  | other h hkeeps =>
    obtain ⟨q, hfound, hreview, horigin, hrevision⟩ := hkeeps p hs.found
    exact ⟨q, d, ⟨hfound, hreview.trans hs.review⟩, .refl d, horigin,
      Nat.add_le_add_left hrevision _, .inl rfl, fun hplain => hplain⟩

/-- A run of them. -/
theorem review_grows (hs : s.Reviewing id p d) (h : Run (ReviewTurn id) s t) :
    ∃ q e, t.Reviewing id q e ∧ ReviewGrows p q d e := by
  induction h with
  | refl => exact ⟨p, d, hs, .refl p d⟩
  | tail _ hturn ih =>
    obtain ⟨q, e, hreviewing, hgrows⟩ := ih
    obtain ⟨r, f, hreviewing', hgrows'⟩ := hturn.grows hreviewing
    exact ⟨r, f, hreviewing', hgrows.trans hgrows'⟩

/-! ## Nothing that was said is changed -/

/-- What every entry of a record can be checked against: the part of the record it was made from. -/
structure Traceable (d : Drafts.DraftRecord) : Prop where
  receipts : d.receipts.Nodup
  answers : ∀ (i : Nat) (a : Drafts.ClarificationAnswer) (source : Drafts.AnswerSource),
    d.answers[i]? = some a → a.source = some source →
    source.confirms (d.upTo (a.proposalIndex.toNat + 1) i)
  proposals : ∀ (i : Nat) (r : Drafts.ProposalRevision) (evidence : Drafts.ResolutionEvidence),
    d.proposals[i]? = some r → r.resolution = some evidence →
    evidence.confirmsSource (d.upTo i evidence.sourceAnswerCount.toNat)

omit [PeerAdmission] [Planner] [Pairing] [ScopeCompiler] in
theorem traceable (hd : d.Valid) : Traceable d := by
  refine ⟨hd.receipts, fun i a source ha hsource => ?_, fun i r evidence hr hevidence => ?_⟩
  · have hchecked := (hd.answered i a ha).source source hsource
    simp only [Drafts.DraftRecord.checkSource, bind_ok, bailIf_ok, ensure_ok, not_or,
      Decidable.not_not] at hchecked
    obtain ⟨_, ⟨-, hcount, -⟩, hconfirms⟩ := hchecked
    rw [← hcount]
    exact hconfirms
  · have hchecked := (hd.proposed i r hr).checked
    simp only [Drafts.DraftRecord.checkProposal, bind_ok, each_ok, Option.mem_toList] at hchecked
    obtain ⟨_, -, _, hresolution, -⟩ := hchecked
    have hsource := hresolution evidence hevidence
    simp only [Drafts.DraftRecord.checkResolution, bind_ok, ensure_ok] at hsource
    obtain ⟨_, -, _, -, hconfirms⟩ := hsource
    exact hconfirms

/-- **A review is append-only.** Over any run, the text and every entry stay as they were recorded,
every new entry was paid for with a revision, no receipt is used twice, and every answer and every
resolution still confirms exactly the part of the record that it was made from. Whatever command
comes next changes nothing, or was sent by the node that the request came from, for the current
revision of a job in review, and adds one entry under a new receipt. -/
theorem review_append_only (hd : d.Valid) (hs : s.Reviewing id p d)
    (hrun : Run (ReviewTurn id) s t) :
    ∃ q e, t.Reviewing id q e ∧ d.Extends e ∧ q.goal.requestContext = p.goal.requestContext ∧
      reviewEntries e + p.revision ≤ reviewEntries d + q.revision ∧ Traceable e ∧
      ∀ {u : Store} {kind : String} {payload report : Json} {origin : RequestContext}
        {capabilities : List String} {atMs : UInt64} {now saved : Nat},
        t.draftCommand kind payload origin capabilities atMs now saved = .ok (u, report) →
        u.Reviewing id q e ∨ ∃ c f r, readDraftCommand kind payload = .ok c ∧ c.id = id ∧
          Records q e f c origin ∧ u.Reviewing id r f ∧ r.revision = q.revision + 1 := by
  obtain ⟨q, e, hreviewing, hgrows⟩ := review_grows hs hrun
  have hvalid : e.Valid := by
    rcases hgrows.valid with rfl | hvalid
    · exact hd
    · exact hvalid
  refine ⟨q, e, hreviewing, hgrows.later, hgrows.origin, hgrows.revision, traceable hvalid,
    fun h => ?_⟩
  rcases draftCommand_records hreviewing h with hsame | ⟨c, f, history, hread, hid, hrecords, hnext⟩
  · exact .inl hsame
  · exact .inr ⟨c, f, _, hread, hid, hrecords, hnext, rfl⟩

/-! ## Receipts -/

omit [PeerAdmission] [Planner] [Pairing] [ScopeCompiler] in
theorem answerDraft_recorded (p : Plan) (atMs : UInt64) {receipt text : String} {revision : UInt64}
    {recorded : Drafts.Content}
    (hentry : d.entry receipt = some recorded) :
    (recorded = .answer revision text → p.answerDraft d receipt revision text atMs = .ok none) ∧
      (recorded ≠ .answer revision text →
        ∃ msg, p.answerDraft d receipt revision text atMs = .error msg) := by
  unfold Drafts.DraftRecord.entry at hentry
  unfold Plan.answerDraft
  cases hfind : Table.find (·.operationId) receipt d.answers with
  | some a =>
    rw [hfind] at hentry
    obtain ⟨source, hsource, rfl⟩ := Option.map_eq_some_iff.mp hentry
    have hany : (a.source.any fun s => s.revision != revision) = (source.revision != revision) := by
      rw [hsource]
      rfl
    dsimp only
    rw [hany]
    by_cases hsame : a.text = text ∧ source.revision = revision
    · obtain ⟨rfl, rfl⟩ := hsame
      exact ⟨fun _ => bailIf_pass (by simp), fun hne => absurd rfl hne⟩
    · have hconflict : a.text ≠ text ∨ (source.revision != revision) = true := by
        by_cases htext : a.text = text
        · exact .inr (bne_iff_ne.mpr fun hrevision => hsame ⟨htext, hrevision⟩)
        · exact .inl htext
      refine ⟨fun heq => ?_, fun _ => ⟨_, bailIf_error hconflict⟩⟩
      cases heq
      exact absurd ⟨rfl, rfl⟩ hsame
  | none =>
    rw [hfind] at hentry
    cases hproposal : Table.find (·.operationId) receipt d.proposals with
    | none =>
      rw [hproposal] at hentry
      cases hentry
    | some r =>
      rw [hproposal] at hentry
      have hne : recorded ≠ .answer revision text := by
        intro heq
        rw [heq] at hentry
        dsimp only at hentry
        split at hentry
        · cases hentry
        · cases hentry
      exact ⟨fun heq => absurd heq hne,
        fun _ => ⟨_, bailIf_error (Table.find_mem hproposal)⟩⟩

omit [PeerAdmission] [Planner] [Pairing] [ScopeCompiler] [Drafts.Choices] in
theorem reviseDraft_recorded (hd : d.receipts.Nodup) {receipt text : String} {revision : UInt64}
    {proposal : Drafts.Proposal} {resolution : Option Drafts.ResolutionEvidence}
    {recorded : Drafts.Content} (hentry : d.entry receipt = some recorded) :
    (recorded = .proposal text proposal resolution →
      p.reviseDraft d receipt capabilities revision text proposal resolution atMs = .ok none) ∧
      (recorded ≠ .proposal text proposal resolution → ∃ msg,
        p.reviseDraft d receipt capabilities revision text proposal resolution atMs =
          .error msg) := by
  unfold Drafts.DraftRecord.entry at hentry
  unfold Plan.reviseDraft
  by_cases htext : text ≠ d.originalText
  · refine ⟨fun heq => ?_, fun _ => ⟨_, bailIf_error htext⟩⟩
    rw [heq] at hentry
    split at hentry
    · obtain ⟨source, -, hcontent⟩ := Option.map_eq_some_iff.mp hentry
      cases hcontent
    · split at hentry
      · split at hentry
        · cases hentry
        · cases hentry
          exact absurd rfl htext
      · cases hentry
  · rw [bailIf_pass htext]
    obtain rfl := Decidable.not_not.mp htext
    cases hfind : Table.find (·.operationId) receipt d.answers with
    | some a =>
      rw [hfind] at hentry
      obtain ⟨source, -, rfl⟩ := Option.map_eq_some_iff.mp hentry
      have hmem := Table.find_mem hfind
      rw [Drafts.DraftRecord.find_not_mem (Drafts.DraftRecord.not_both hd hmem)]
      refine ⟨fun heq => ?_, fun _ => ⟨_, bailIf_error hmem⟩⟩
      cases heq
    | none =>
      rw [hfind] at hentry
      cases hproposal : Table.find (·.operationId) receipt d.proposals with
      | none =>
        rw [hproposal] at hentry
        cases hentry
      | some r =>
        rw [hproposal] at hentry
        dsimp only at hentry ⊢
        by_cases hprepared : r.preparation.isSome = true
        · rw [if_pos hprepared] at hentry
          cases hentry
        · rw [if_neg hprepared] at hentry
          cases hentry
          by_cases hsame : r.proposal = proposal ∧ r.resolution = resolution
          · obtain ⟨rfl, rfl⟩ := hsame
            exact ⟨fun _ => bailIf_pass (by simp [hprepared]), fun hne => absurd rfl hne⟩
          · have hconflict : r.proposal ≠ proposal ∨ r.resolution ≠ resolution
                ∨ r.preparation.isSome = true := by
              by_cases hp : r.proposal = proposal
              · exact .inr (.inl fun hr => hsame ⟨hp, hr⟩)
              · exact .inl hp
            refine ⟨fun heq => ?_, fun _ => ⟨_, bailIf_error hconflict⟩⟩
            cases heq
            exact absurd ⟨rfl, rfl⟩ hsame

omit [PeerAdmission] [Planner] [Pairing] [ScopeCompiler] in
/-- A receipt of the record is compared with its entry. -/
theorem editDraft_recorded (p : Plan) (capabilities : List String) (atMs : UInt64)
    (hd : d.receipts.Nodup) {c : Drafts.DraftCommand} {receipt : String} {recorded : Drafts.Content}
    (hentry : d.entry receipt = some recorded)
    (hwrites : c.content.isSome = true) :
    (c.content = some recorded → p.editDraft d c receipt capabilities atMs = .ok none) ∧
      (c.content ≠ some recorded →
        ∃ msg, p.editDraft d c receipt capabilities atMs = .error msg) := by
  cases c with
  | get id => cases hwrites
  | answer id revision text =>
    obtain ⟨hsame, hother⟩ := answerDraft_recorded p atMs hentry
    exact ⟨fun h => hsame (Option.some.inj h).symm, fun h => hother fun heq => h (heq ▸ rfl)⟩
  | revise id revision text proposal =>
    obtain ⟨hsame, hother⟩ := reviseDraft_recorded (p := p) hd hentry
    exact ⟨fun h => hsame (Option.some.inj h).symm, fun h => hother fun heq => h (heq ▸ rfl)⟩
  | resolve id revision text proposal evidence =>
    obtain ⟨hsame, hother⟩ := reviseDraft_recorded (p := p) hd hentry
    exact ⟨fun h => hsame (Option.some.inj h).symm, fun h => hother fun heq => h (heq ▸ rfl)⟩

omit [PeerAdmission] [Planner] [Pairing] [ScopeCompiler] in
theorem applyDraft_recorded (capabilities : List String) (atMs : UInt64) {c : Drafts.DraftCommand}
    {recorded : Drafts.Content}
    (howned : p.ownedBy origin = true) (hreview : p.requestReview = some (retainedDraft d))
    (hd : d.Valid) (hentry : d.entry origin.requestId = some recorded)
    (hwrites : c.content.isSome = true) :
    (c.content = some recorded → p.applyDraft c origin capabilities atMs = .ok none) ∧
      (c.content ≠ some recorded → ∃ msg, p.applyDraft c origin capabilities atMs = .error msg) := by
  obtain ⟨hsame, hother⟩ := editDraft_recorded p capabilities atMs hd.receipts hentry hwrites
  unfold Plan.applyDraft
  rw [ensure, if_pos howned, ok_bind, Plan.review_retained hreview, ok_bind,
    Drafts.DraftRecord.validate_iff.mpr hd, ok_bind]
  refine ⟨fun h => ?_, fun h => ?_⟩
  · rw [hsame h]
    rfl
  · obtain ⟨msg, herror⟩ := hother h
    rw [herror]
    exact ⟨msg, rfl⟩

omit [Drafts.Choices] in
theorem editJob_error {event msg : String} {f : Plan → Result (Option Plan)}
    (hread : s.readJob id = .ok p) (hf : f p = .error msg) :
    s.editJob id event none now saved f = .error msg := by
  unfold editJob
  rw [hread, ok_bind]
  show (f p >>= _) = _
  rw [hf]
  rfl

omit [Drafts.Choices] in
theorem Intact.readJob_job (hs : s.Intact) (h : s.job id = some p) : s.readJob id = .ok p := by
  obtain ⟨row, hfind, rfl⟩ := Option.map_eq_some_iff.mp h
  obtain ⟨hmem, rfl⟩ := Table.find_some hfind
  exact hs.readJob_eq hmem

omit [PeerAdmission] [Planner] [Pairing] [ScopeCompiler] in
theorem draftReport_reused (operation : String) (reused : Bool)
    (hreview : p.requestReview = some (retainedDraft d)) (hd : d.Valid) :
    ∃ report, p.draftReport operation reused = .ok report ∧
      report.index "reused" = .bool reused := by
  unfold Plan.draftReport
  rw [Plan.review_retained hreview, ok_bind, Drafts.DraftRecord.validate_iff.mpr hd, ok_bind]
  exact ⟨_, rfl, rfl⟩

theorem runDraft_writes {c : Drafts.DraftCommand} (h : c.content.isSome = true) :
    s.runDraft c origin capabilities atMs now saved =
      s.saveDraft c origin capabilities atMs now saved := by
  cases c with
  | get id => cases h
  | answer id revision text => rfl
  | revise id revision text proposal => rfl
  | resolve id revision text proposal evidence => rfl

omit [PeerAdmission] [Planner] [Pairing] [ScopeCompiler] in
theorem answerDraft_none {receipt text : String} {revision : UInt64}
    (h : p.answerDraft d receipt revision text atMs = .ok none) : receipt ∈ d.receipts := by
  unfold Plan.answerDraft at h
  cases hfind : Table.find (·.operationId) receipt d.answers with
  | some a => exact List.mem_append_right _ (Table.find_mem hfind)
  | none =>
    simp only [hfind, bind_ok, pure_ok] at h
    obtain ⟨_, -, _, -, _, -, _, -, h⟩ := h
    cases h

omit [PeerAdmission] [Planner] [Pairing] [ScopeCompiler] [Drafts.Choices] in
theorem reviseDraft_none {receipt text : String} {revision : UInt64} {proposal : Drafts.Proposal}
    {resolution : Option Drafts.ResolutionEvidence}
    (h : p.reviseDraft d receipt capabilities revision text proposal resolution atMs = .ok none) :
    receipt ∈ d.receipts := by
  unfold Plan.reviseDraft at h
  cases hfind : Table.find (·.operationId) receipt d.proposals with
  | some r => exact List.mem_append_left _ (Table.find_mem hfind)
  | none =>
    simp only [hfind, bind_ok, pure_ok] at h
    obtain ⟨_, -, _, -, _, -, _, -, _, -, h⟩ := h
    cases h

omit [PeerAdmission] [Planner] [Pairing] [ScopeCompiler] in
/-- Only a command whose receipt is in the record is answered without an entry. -/
theorem applyDraft_none {c : Drafts.DraftCommand}
    (hreview : p.requestReview = some (retainedDraft d)) (hwrites : c.content.isSome = true)
    (h : p.applyDraft c origin capabilities atMs = .ok none) : origin.requestId ∈ d.receipts := by
  simp only [Plan.applyDraft, Plan.review_retained hreview, bind_ok, Except.ok.injEq] at h
  obtain ⟨_, -, _, rfl, _, -, edited, hedit, h⟩ := h
  cases edited with
  | some e =>
    obtain ⟨_, -, h⟩ := bind_ok.mp h
    cases h
  | none =>
    cases c with
    | get id => cases hwrites
    | answer id revision text => exact answerDraft_none hedit
    | revise id revision text proposal => exact reviseDraft_none hedit
    | resolve id revision text proposal evidence => exact reviseDraft_none hedit

omit [PeerAdmission] [Planner] [Pairing] [ScopeCompiler] in
/-- A command of another node is refused, and so is one under a new receipt that was made for another
revision or comes after the review. -/
theorem applyDraft_refused (capabilities : List String) (atMs : UInt64) {c : Drafts.DraftCommand}
    (hreview : p.requestReview = some (retainedDraft d)) (hwrites : c.content.isSome = true)
    (h : p.ownedBy origin = false ∨ origin.requestId ∉ d.receipts ∧
      (p.status ≠ .review ∨ c.expectedRevision.map (·.toNat) ≠ some p.revision)) :
    ∃ msg, p.applyDraft c origin capabilities atMs = .error msg := by
  cases hresult : p.applyDraft c origin capabilities atMs with
  | error msg => exact ⟨msg, rfl⟩
  | ok edited =>
    exfalso
    cases edited with
    | none =>
      rcases h with hforeign | ⟨hfresh, -⟩
      · obtain ⟨_, howned, -⟩ := bind_ok.mp hresult
        rw [hforeign, ensure_ok] at howned
        cases howned
      · exact hfresh (applyDraft_none hreview hwrites hresult)
    | some q =>
      obtain ⟨e, hrecords, -⟩ := Plan.applyDraft_some hreview hresult
      rcases h with hforeign | ⟨-, hstatus | hstale⟩
      · rw [hrecords.owned] at hforeign
        cases hforeign
      · exact hstatus hrecords.reviewed
      · exact hstale hrecords.current

/-- What the closure refuses, the command refuses. -/
theorem Intact.draftCommand_refused (hs : s.Intact) {kind : String} {payload : Json}
    {c : Drafts.DraftCommand} (hfound : s.job c.id = some p)
    (hread : readDraftCommand kind payload = .ok c) (hwrites : c.content.isSome = true)
    (h : ∃ msg, p.applyDraft c origin capabilities atMs = .error msg) (now saved : Nat) :
    ∃ msg, s.draftCommand kind payload origin capabilities atMs now saved = .error msg := by
  obtain ⟨msg, herror⟩ := h
  have hjob := hs.readJob_job hfound
  unfold draftCommand
  cases hid : validateOperationId origin.requestId with
  | error refusal => exact ⟨refusal, rfl⟩
  | ok _ =>
    rw [ok_bind, hread, ok_bind, runDraft_writes hwrites]
    unfold saveDraft
    rw [hjob, ok_bind, editJob_error hjob herror]
    exact ⟨msg, rfl⟩

/-- What it answers from the record changes nothing. -/
theorem Intact.draftCommand_reused (hs : s.Intact) {kind : String} {payload : Json}
    {c : Drafts.DraftCommand} (hfound : s.Reviewing c.id p d) (hd : d.Valid)
    (hid : validateOperationId origin.requestId = .ok ())
    (hread : readDraftCommand kind payload = .ok c) (hwrites : c.content.isSome = true)
    (h : p.applyDraft c origin capabilities atMs = .ok none) (now saved : Nat) :
    ∃ report, s.draftCommand kind payload origin capabilities atMs now saved = .ok (s, report) ∧
      report.index "reused" = .bool true := by
  obtain ⟨report, hreport, hreused⟩ := draftReport_reused origin.requestId true hfound.review hd
  have hjob := hs.readJob_job hfound.found
  refine ⟨report, ?_, hreused⟩
  unfold draftCommand
  rw [hid, ok_bind, hread, ok_bind, runDraft_writes hwrites]
  unfold saveDraft
  rw [hjob, ok_bind, editJob_none hjob h, ok_bind, h]
  show (p.draftReport origin.requestId true >>= _) = _
  rw [hreport]
  rfl

/-- What was recorded under a receipt of a node settles every command that carries it. -/
def Settled (t : Store) (id receipt node : String) (content : Option Drafts.Content) : Prop :=
  ∀ kind payload c origin capabilities atMs now saved, readDraftCommand kind payload = .ok c →
    c.id = id → c.content.isSome = true → origin.requestId = receipt → origin.originNode = node →
    (c.content = content → ∃ report,
      t.draftCommand kind payload origin capabilities atMs now saved = .ok (t, report) ∧
        report.index "reused" = .bool true) ∧
    (c.content ≠ content → ∃ msg,
      t.draftCommand kind payload origin capabilities atMs now saved = .error msg)

theorem intact_run (hs : s.Intact) (hrun : Run (ReviewTurn id) s t) : t.Intact :=
  Run.invariant (fun _ _ hs hturn => hturn.intact hs) hs hrun

/-- An entry settles its receipt for ever after. -/
theorem records_settles {c : Drafts.DraftCommand} {history : List JobEvent}
    (h : Records p d e c origin) (hid : validateOperationId origin.requestId = .ok ())
    (hu : u.Intact) (hnext : u.Reviewing id (recorded p e saved history) e)
    (hrun : Run (ReviewTurn id) u t) :
    t.Settled id origin.requestId origin.originNode c.content := by
  intro kind payload c' origin' capabilities atMs now saved' hread hjob hwrites hreceipt hnode
  subst hjob
  obtain ⟨q, f, hreviewing, hgrows⟩ := review_grows hnext hrun
  have hvalid : f.Valid := by
    rcases hgrows.valid with rfl | hvalid
    · exact h.valid
    · exact hvalid
  have hintact := intact_run hu hrun
  -- the entry is still there, and the job still of that node
  obtain ⟨content, hcontent⟩ := Option.isSome_iff_exists.mp h.asks
  have hentry : f.entry origin'.requestId = some content := by
    rw [hreceipt]
    exact hgrows.later.entry hvalid.receipts (h.entry.trans hcontent)
  have howned : q.ownedBy origin' = true := by
    unfold Plan.ownedBy
    rw [hgrows.origin, hnode]
    exact h.owned
  rw [← hreceipt] at hid
  rw [hcontent]
  obtain ⟨hsame, hother⟩ := applyDraft_recorded capabilities atMs howned hreviewing.review hvalid
    hentry hwrites
  exact ⟨fun heq => hintact.draftCommand_reused hreviewing hvalid hid hread hwrites (hsame heq) now
      saved',
    fun hne => hintact.draftCommand_refused hreviewing.found hread hwrites (hother hne) now saved'⟩

/-- **A receipt settles what was asked with it.** Once a command changed a review, every later one of
the same node with the same receipt is answered from the entry: it is reported as reused and changes
nothing if it asks for the same, whatever happened to the job since, and is refused otherwise. -/
theorem receipt_settles (hintact : s.Intact) (hs : s.Reviewing id p d) {kind : String}
    {payload report : Json}
    (h : s.draftCommand kind payload origin capabilities atMs now saved = .ok (u, report))
    (hchanged : ¬u.Reviewing id p d) (hrun : Run (ReviewTurn id) u t) :
    ∃ c, readDraftCommand kind payload = .ok c ∧
      ∀ {kind' : String} {payload' : Json} {c' : Drafts.DraftCommand} {origin' : RequestContext}
        {capabilities' : List String} {atMs' : UInt64} {now' saved' : Nat},
        readDraftCommand kind' payload' = .ok c' → c'.id = id → c'.content.isSome = true →
        origin'.requestId = origin.requestId → origin'.originNode = origin.originNode →
        (c'.content = c.content → ∃ report',
          t.draftCommand kind' payload' origin' capabilities' atMs' now' saved' = .ok (t, report') ∧
            report'.index "reused" = .bool true) ∧
        (c'.content ≠ c.content → ∃ msg,
          t.draftCommand kind' payload' origin' capabilities' atMs' now' saved' = .error msg) := by
  rcases draftCommand_records hs h with hsame | ⟨c, e, history, hread, -, hrecords, hnext⟩
  · exact absurd hsame hchanged
  obtain ⟨_, hoperation, -⟩ := draftCommand_ok h
  have hu : u.Intact := by
    rcases draftCommand_command h with rfl | h
    · exact hintact
    · exact (h.changes hintact).intact hintact
  exact ⟨c, hread, records_settles hrecords hoperation hu hnext hrun _ _ _ _ _ _ _ _⟩

/-! ## The history of a review -/

/-- What a command that is not refused does: it is answered from the entry of its receipt, or recorded
as one more entry, at the next revision. -/
theorem draftCommand_answers {kind : String} {payload report : Json} {c : Drafts.DraftCommand}
    (hs : s.Reviewing c.id p d) (hd : d.Valid) (hread : readDraftCommand kind payload = .ok c)
    (hwrites : c.content.isSome = true)
    (h : s.draftCommand kind payload origin capabilities atMs now saved = .ok (u, report)) :
    u = s ∧ report.index "reused" = .bool true ∧ origin.requestId ∈ d.receipts ∨
      report.index "reused" = .bool false ∧ ∃ e history, Records p d e c origin ∧
        u.Reviewing c.id (recorded p e saved history) e := by
  obtain ⟨c', hid, hread', ⟨hnone, -⟩ | ⟨-, q, reused, hsave, hreport⟩⟩ := draftCommand_ok h
  all_goals obtain rfl : c = c' := Except.ok.inj (hread.symm.trans hread')
  · rw [hnone] at hwrites
    cases hwrites
  have hreports : ∀ {r : Plan} {f : Drafts.DraftRecord}, r.requestReview = some (retainedDraft f) →
      f.Valid → q = r → report.index "reused" = .bool reused := by
    intro r f hreview hf heq
    subst heq
    obtain ⟨report', hreport', hreused⟩ := draftReport_reused origin.requestId reused hreview hf
    rw [Except.ok.inj (hreport.symm.trans hreport')]
    exact hreused
  rcases saveDraft_records hs hsave with
    ⟨hnone, rfl, hsame, rfl⟩ | ⟨rfl, e, history, hrecords, hnext, hreviewing⟩
  · exact .inl ⟨rfl, hreports hs.review hd hsame, applyDraft_none hs.review hwrites hnone⟩
  · rw [hnext] at hreviewing
    exact .inr ⟨hreports (r := recorded p e saved history) rfl hrecords.valid hnext, e, history,
      hrecords, hreviewing⟩

omit [PeerAdmission] [Planner] [Pairing] [ScopeCompiler] in
/-- A command adds one entry. -/
theorem records_entries {c : Drafts.DraftCommand} (h : Records p d e c origin) :
    d.Extends e ∧ reviewEntries e = reviewEntries d + 1 := by
  rcases h.one with ⟨a, rfl, -⟩ | ⟨r, rfl, -, -⟩
  · have hlength : (d.answer a).answers.length = d.answers.length + 1 := List.length_append
    exact ⟨d.extends_answer a, congrArg (d.proposals.length + ·) hlength⟩
  · have hlength : (d.revise r).proposals.length = d.proposals.length + 1 := List.length_append
    refine ⟨d.extends_revise r, ?_⟩
    show (d.revise r).proposals.length + d.answers.length = d.proposals.length + d.answers.length + 1
    omega

/-- **The history of a review.** In every state of a run the record is valid, has everything that was
recorded before, no receipt twice, and every answer and every resolution confirms the part that it was
made from. A command about it from another node is refused, and one under a new receipt is refused too
if it is not for the current revision of a job in review. One that is not refused is answered from the
entry of its receipt and changes nothing, or adds one entry at the next revision; and from then on its
receipt settles every command that carries it. -/
theorem review_history (hintact : s.Intact) (hd : d.Valid) (hs : s.Reviewing id p d)
    (hrun : Run (ReviewTurn id) s t) :
    ∃ q e, t.Reviewing id q e ∧ d.Extends e ∧ e.validate = .ok () ∧ Traceable e ∧
      ∀ kind payload c origin capabilities atMs now saved, readDraftCommand kind payload = .ok c →
        c.id = id → c.content.isSome = true →
        (p.ownedBy origin = false ∨ origin.requestId ∉ e.receipts ∧
            (q.status ≠ .review ∨ c.expectedRevision.map (·.toNat) ≠ some q.revision) →
          ∃ msg, t.draftCommand kind payload origin capabilities atMs now saved = .error msg) ∧
        ∀ u report,
          t.draftCommand kind payload origin capabilities atMs now saved = .ok (u, report) →
          u = t ∧ report.index "reused" = .bool true ∧ origin.requestId ∈ e.receipts ∨
            report.index "reused" = .bool false ∧ ∃ r f, u.Reviewing id r f ∧
              Records q e f c origin ∧ e.Extends f ∧ reviewEntries f = reviewEntries e + 1 ∧
              r.revision = q.revision + 1 ∧ f.validate = .ok () ∧
              ∀ v, Run (ReviewTurn id) u v →
                v.Settled id origin.requestId origin.originNode c.content := by
  obtain ⟨q, e, hreviewing, hgrows⟩ := review_grows hs hrun
  have hvalid : e.Valid := by
    rcases hgrows.valid with rfl | hvalid
    · exact hd
    · exact hvalid
  have ht := intact_run hintact hrun
  refine ⟨q, e, hreviewing, hgrows.later, Drafts.DraftRecord.validate_iff.mpr hvalid,
    traceable hvalid, ?_⟩
  intro kind payload c origin capabilities atMs now saved hread hid hwrites
  subst hid
  refine ⟨fun hrefused => ?_, fun u report h => ?_⟩
  · have howned : q.ownedBy origin = p.ownedBy origin := by
      unfold Plan.ownedBy
      rw [hgrows.origin]
    rw [← howned] at hrefused
    exact ht.draftCommand_refused hreviewing.found hread hwrites
      (applyDraft_refused capabilities atMs hreviewing.review hwrites hrefused) now saved
  · rcases draftCommand_answers hreviewing hvalid hread hwrites h with
      hsame | ⟨hnew, f, history, hrecords, hnext⟩
    · exact .inl hsame
    · obtain ⟨_, hoperation, -⟩ := draftCommand_ok h
      have hu : u.Intact := by
        rcases draftCommand_command h with rfl | h
        · exact ht
        · exact (h.changes ht).intact ht
      exact .inr ⟨hnew, _, f, hnext, hrecords, (records_entries hrecords).1,
        (records_entries hrecords).2, rfl,
        Drafts.DraftRecord.validate_iff.mpr hrecords.valid,
        fun v hv => records_settles hrecords hoperation hu hnext hv⟩

/-! ## New entries -/

/-- A command of the node that the request came from, under a new receipt, for the current revision
of a job in review. -/
structure Current (p : Plan) (d : Drafts.DraftRecord) (c : Drafts.DraftCommand)
    (origin : RequestContext) (revision : UInt64) : Prop where
  owned : p.ownedBy origin = true
  receipt : validateOperationId origin.requestId = .ok ()
  fresh : origin.requestId ∉ d.receipts
  reviewed : p.status = .review
  expected : c.expectedRevision = some revision
  revision : p.revision = revision.toNat

omit [PeerAdmission] [Planner] [Pairing] [ScopeCompiler] in
/-- What a current command makes of a valid record is all that is left to validate. -/
theorem applyDraft_current {c : Drafts.DraftCommand} {revision : UInt64}
    (hc : Current p d c origin revision) (hreview : p.requestReview = some (retainedDraft d))
    (hd : d.Valid) :
    (∃ q, p.applyDraft c origin capabilities atMs = .ok (some q)) ↔ ∃ e,
      p.editDraft d c origin.requestId capabilities atMs = .ok (some e) ∧ e.validate = .ok () := by
  unfold Plan.applyDraft
  rw [ensure, if_pos hc.owned, ok_bind, Plan.review_retained hreview, ok_bind,
    Drafts.DraftRecord.validate_iff.mpr hd, ok_bind]
  constructor
  · intro h
    obtain ⟨q, h⟩ := h
    obtain ⟨edited, hedit, h⟩ := bind_ok.mp h
    cases edited with
    | none => cases h
    | some e =>
      obtain ⟨_, hvalid, -⟩ := bind_ok.mp h
      exact ⟨e, hedit, hvalid⟩
  · intro h
    obtain ⟨e, hedit, hvalid⟩ := h
    rw [hedit, ok_bind]
    refine ⟨{ p with requestReview := some (retainedDraft e) }, ?_⟩
    show (e.validate >>= _) = _
    rw [hvalid]
    rfl

omit [PeerAdmission] [Planner] [Pairing] [ScopeCompiler] in
theorem editDraft_answer {text question : String} {revision : UInt64}
    (hc : Current p d (.answer id revision text) origin revision)
    (hquestion : d.current.bind (·.clarification) = some question) (hd : d.Valid) :
    p.editDraft d (.answer id revision text) origin.requestId capabilities atMs = .ok (some e) ↔
      (d.sourceAt revision).confirms d ∧
        e = d.answer (d.nextAnswer origin.requestId question text revision atMs) := by
  have hanswers : Table.find (·.operationId) origin.requestId d.answers = none :=
    Drafts.DraftRecord.find_not_mem fun h => hc.fresh (List.mem_append_right _ h)
  have hproposals : origin.requestId ∉ d.proposals.map (·.operationId) :=
    fun h => hc.fresh (List.mem_append_left _ h)
  show p.answerDraft d origin.requestId revision text atMs = _ ↔ _
  unfold Plan.answerDraft
  simp only [hanswers, bailIf_pass hproposals, hquestion, bind_ok, bailIf_ok, context_ok, pure_ok,
    Drafts.DraftRecord.answerSource_ok, hc.reviewed, hc.revision, ne_eq, not_true_eq_false, or_self,
    not_false_eq_true, true_and, exists_const]
  constructor
  · intro h
    obtain ⟨_, hsome, _, ⟨-, rfl, hconfirms⟩, h⟩ := h
    obtain rfl := Option.some.inj hsome
    exact ⟨hconfirms, (Option.some.inj h).symm⟩
  · intro h
    obtain ⟨hconfirms, h⟩ := h
    exact ⟨question, rfl, _, ⟨hd, rfl, hconfirms⟩, congrArg some h.symm⟩

omit [PeerAdmission] [Planner] [Pairing] [ScopeCompiler] [Drafts.Choices] in
theorem reviseDraft_current {c : Drafts.DraftCommand} {revision : UInt64}
    {proposal : Drafts.Proposal} {resolution : Option Drafts.ResolutionEvidence}
    (hc : Current p d c origin revision) :
    p.reviseDraft d origin.requestId capabilities revision d.originalText proposal resolution atMs =
        .ok (some e) ↔
      (∀ evidence ∈ resolution, evidence.confirmsSource d) ∧
        Drafts.validateProposal d.originalText proposal capabilities = .ok () ∧
        e = d.revise ⟨origin.requestId, proposal, capabilities, atMs, resolution, none⟩ := by
  have hproposals : Table.find (·.operationId) origin.requestId d.proposals = none :=
    Drafts.DraftRecord.find_not_mem fun h => hc.fresh (List.mem_append_left _ h)
  have hanswers : origin.requestId ∉ d.answers.map (·.operationId) :=
    fun h => hc.fresh (List.mem_append_right _ h)
  unfold Plan.reviseDraft
  simp only [hproposals, bailIf_pass hanswers, bind_ok, bailIf_ok, each_ok, ensure_ok, pure_ok,
    Option.mem_toList, hc.reviewed, hc.revision, ne_eq, not_true_eq_false, or_self,
    not_false_eq_true, true_and, exists_const, Option.some.injEq]
  constructor
  · intro h
    obtain ⟨hresolution, _, hvalid, he⟩ := h
    exact ⟨hresolution, hvalid, he.symm⟩
  · intro h
    obtain ⟨hresolution, hvalid, he⟩ := h
    exact ⟨hresolution, (), hvalid, he.symm⟩

omit [PeerAdmission] [Planner] [Pairing] [ScopeCompiler] in
theorem editDraft_revise {c : Drafts.DraftCommand} {receipt text : String} {revision : UInt64}
    {proposal : Drafts.Proposal} {resolution : Option Drafts.ResolutionEvidence}
    (hcontent : c.content = some (.proposal text proposal resolution))
    (hexpected : c.expectedRevision = some revision) :
    p.editDraft d c receipt capabilities atMs =
      p.reviseDraft d receipt capabilities revision text proposal resolution atMs := by
  cases c with
  | get id => cases hcontent
  | answer id revision text => cases hcontent
  | revise id revision text proposal =>
    cases hcontent
    cases hexpected
    rfl
  | resolve id revision text proposal evidence =>
    cases hcontent
    cases hexpected
    rfl

/-- A review that was just opened is one that this can be said of. -/
theorem openDraft_begins {closing : Bool} {payload report : Json} {planId : String}
    (hnew : s.job planId = none)
    (h : s.openDraft closing payload origin capabilities planId atMs now saved = .ok (t, report)) :
    t = s ∨ s.Command t ∧ ∃ p d, t.Reviewing planId p d ∧ d.Valid ∧ d.Plain ∧
      reviewEntries d ≤ p.revision := by
  rcases openDraft_ok hnew h with rfl | ⟨hcommand, o, p, -, hvalid, hrevision, -, -, hreviewing⟩
  · exact .inl rfl
  · refine .inr ⟨hcommand, p, _, hreviewing, hvalid, fun r hr => ?_, ?_⟩
    · rw [List.mem_singleton.mp hr]
    · rw [hrevision]
      exact Nat.le_refl 1

/-- **A review never gets in its own way.** Whatever was recorded before, an answer to the open
question, a revision of the proposal, or a resolution that confirms the record, sent by the node that
the request came from, under a new receipt and for the current revision of a job in review, is
recorded exactly when the record stays in its bounds (and is not that of a typed audio source, which
is never changed). -/
theorem review_stays_open (hd : d.Valid) (hplain : d.Plain) (hpaid : reviewEntries d ≤ p.revision)
    (hs : s.Reviewing id p d) (hrun : Run (ReviewTurn id) s t) :
    ∃ q e, t.Reviewing id q e ∧
      ∀ {c : Drafts.DraftCommand} {origin : RequestContext} {capabilities : List String}
        {atMs revision : UInt64}, Current q e c origin revision → q.revision < u64Max →
        (∀ text question, c = .answer id revision text →
          (e.current.bind (·.clarification)) = some question → Drafts.validateAnswer text = .ok () →
          ((∃ r, q.applyDraft c origin capabilities atMs = .ok (some r)) ↔
            d.audioSource = none ∧
              (e.answer (e.nextAnswer origin.requestId question text revision atMs)).bounded)) ∧
        (∀ proposal resolution, c.content = some (.proposal e.originalText proposal resolution) →
          Drafts.validateProposal e.originalText proposal capabilities = .ok () →
          (∀ evidence ∈ resolution, evidence.confirmsSource e) →
          ((∃ r, q.applyDraft c origin capabilities atMs = .ok (some r)) ↔
            d.audioSource = none ∧
              (e.revise
                ⟨origin.requestId, proposal, capabilities, atMs, resolution, none⟩).bounded)) := by
  obtain ⟨q, e, hreviewing, hgrows⟩ := review_grows hs hrun
  have he : e.Valid := by
    rcases hgrows.valid with rfl | hvalid
    · exact hd
    · exact hvalid
  have heplain := hgrows.plain hplain
  have haudio : e.audioSource = d.audioSource := by rw [hgrows.later.same]
  refine ⟨q, e, hreviewing, ?_⟩
  intro c origin capabilities atMs revision hc hlast
  rw [← haudio, applyDraft_current hc hreviewing.review he]
  refine ⟨fun text question heq hquestion htext => ?_,
    fun proposal resolution hcontent hproposal hresolution => ?_⟩
  · subst heq
    obtain ⟨current, hcurrent, hasks⟩ := Option.bind_eq_some_iff.mp hquestion
    have hconfirms := he.confirms_iff hcurrent hasks revision
    constructor
    · intro h
      obtain ⟨f, hedit, hvalid⟩ := h
      obtain ⟨hsource, rfl⟩ := (editDraft_answer hc hquestion he).mp hedit
      obtain ⟨hbounded, hnone, -⟩ := (he.answer_iff heplain
        (he.answers hcurrent hasks hsource hc.receipt htext)).mp hvalid
      exact ⟨hnone, hbounded⟩
    · intro h
      obtain ⟨hnone, hbounded⟩ := h
      -- every entry was paid for, so the revision is past all of them
      have hpositive := List.length_pos_iff.mpr he.bounded.2.1
      have hmost := hbounded.2.2.2.1
      have hlength : (e.answer (e.nextAnswer origin.requestId question text revision
          atMs)).answers.length = e.answers.length + 1 := List.length_append
      have hrevision := hgrows.revision
      have hsource : (e.sourceAt revision).confirms e := by
        refine hconfirms.mpr ?_
        rw [hc.revision] at hrevision hlast
        unfold u64Max at hlast
        unfold reviewEntries at hpaid hrevision
        omega
      refine ⟨_, (editDraft_answer hc hquestion he).mpr ⟨hsource, rfl⟩, ?_⟩
      exact (he.answer_iff heplain (he.answers hcurrent hasks hsource hc.receipt htext)).mpr
        ⟨hbounded, hnone, hc.fresh⟩
  · have hproposed := he.revises capabilities atMs hproposal hc.receipt hresolution
    rw [editDraft_revise hcontent hc.expected]
    constructor
    · intro h
      obtain ⟨f, hedit, hvalid⟩ := h
      obtain ⟨-, -, rfl⟩ := (reviseDraft_current hc).mp hedit
      obtain ⟨hbounded, hnone, -⟩ := (he.revise_iff heplain hproposed rfl).mp hvalid
      exact ⟨hnone, hbounded⟩
    · intro h
      obtain ⟨hnone, hbounded⟩ := h
      refine ⟨_, (reviseDraft_current hc).mpr ⟨hresolution, hproposal, rfl⟩, ?_⟩
      exact (he.revise_iff heplain hproposed rfl).mpr ⟨hbounded, hnone, hc.fresh⟩

end

end Store

/-! ## A review -/

/-- A planner that compiled nothing. -/
@[reducible]
def Planner.idle : Planner where
  definition d := ensure (d.planning = none) "Damaged review state"

/-- SHA-256 on the record that the review opens with. -/
@[reducible]
def draftSha : Sha256 :=
  Sha256.constant "5cd0ce2282d918213384c22089d57a1699f76afde32a12bd3b810ad1d4a41e25" (by decide)

/-- A proposal that asks which node is meant. -/
def sampleProposal : Drafts.Proposal where
  schemaVersion := 1
  intent := .information
  goal := "Check node status"
  contextHints := []
  constraints := []
  suggestedCapabilities := ["system.ping"]
  complexity := .simple
  workload := .oneShot
  needsClarification := true
  clarification := some "Which node?"

def sampleOpening : ReviewOpening := ⟨"Check that node", sampleProposal⟩

def openingPayload : Json :=
  .obj [("schema_version", .nat 1), ("original_text", .str "Check that node"),
    ("proposal", sampleProposal.toJson)]

/-- The record that the review opens with, and the job. -/
def sampleReview : Drafts.DraftRecord :=
  sampleOpening.draft sampleGrant.requestContext ["system.ping"] 1000

def reviewJob : Plan :=
  (sampleOpening.plan sampleReview sampleGrant.requestContext sampleGrant.jobId).stamped 1000
    [⟨1, 1000, "Request review saved; no execution authorized"⟩]

/-- The node's answer. -/
def sampleAnswer : RequestContext := ⟨"66666666-6666-4666-8666-666666666666", "owner", ["Room"]⟩

def answerPayload : Json :=
  .obj [("id", .str sampleGrant.jobId), ("expected_revision", .nat 1), ("text", .str "Bedroom")]

section
attribute [local instance] F64.bits PeerAdmission.never draftSha Planner.idle Pairing.never
  ScopeCompiler.always Drafts.Choices.never

/-- The journal with the job. -/
def reviewStore : Store :=
  { Store.fresh 16 1000000 with jobs := [⟨reviewJob, reviewJob.reserve⟩] }

/-- The record with the answer, and the job. -/
def answeredReview : Drafts.DraftRecord :=
  sampleReview.answer ⟨sampleAnswer.requestId, 0, "Which node?", "Bedroom", 2000,
    some (sampleReview.sourceAt 1)⟩

def answeredJob : Plan :=
  Store.recorded reviewJob answeredReview 2000 (reviewJob.history
    ++ [⟨2, 2000, "Origin updated request review"⟩])

def answeredStore : Store :=
  { Store.fresh 16 1000000 with jobs := [⟨answeredJob, answeredJob.reserve⟩] }

/-- The run of the sample, evaluated as one: the review is opened, the record with the answer is valid,
and the answer is read and saved. -/
theorem review_computed :
    ((Store.fresh 16 1000000).openDraft false openingPayload sampleGrant.requestContext
      ["system.ping"] sampleGrant.jobId 1000 1000 1000).map Prod.fst = .ok reviewStore ∧
    answeredReview.validate = .ok () ∧
    reviewStore.saveDraft (.answer sampleGrant.jobId 1 "Bedroom") sampleAnswer [] 2000 2000 2000 =
      .ok (answeredStore, answeredJob, false) ∧
    readDraftCommand "requests.draft_answer" answerPayload =
      .ok (.answer sampleGrant.jobId 1 "Bedroom") := by
  decide +kernel

/-- The review as it is opened. -/
theorem review_opened : (Store.fresh 16 1000000).Command reviewStore ∧ sampleReview.Valid ∧
    sampleReview.Plain ∧ Store.reviewEntries sampleReview ≤ reviewJob.revision := by
  obtain ⟨hopened, -⟩ := review_computed
  cases hresult : (Store.fresh 16 1000000).openDraft false openingPayload sampleGrant.requestContext
      ["system.ping"] sampleGrant.jobId 1000 1000 1000 with
  | error msg =>
    rw [hresult] at hopened
    cases hopened
  | ok r =>
    rw [hresult] at hopened
    obtain hstore : r.1 = reviewStore := Except.ok.inj hopened
    rcases Store.openDraft_begins rfl hresult with hsame | ⟨hcommand, p, d, hreviewing, hbegins⟩
    · exact absurd (congrArg (fun s => s.jobs.length) (hstore.symm.trans hsame)) (by decide)
    · rw [hstore] at hcommand hreviewing
      obtain rfl : reviewJob = p := Option.some.inj hreviewing.found
      obtain rfl : sampleReview = d :=
        Except.ok.inj ((Plan.review_retained rfl).symm.trans (Plan.review_retained hreviewing.review))
      exact ⟨hcommand, hbegins⟩

theorem answeredReview_valid : answeredReview.Valid :=
  Drafts.DraftRecord.validate_iff.mp review_computed.2.1

theorem answer_read : readDraftCommand "requests.draft_answer" answerPayload =
    .ok (.answer sampleGrant.jobId 1 "Bedroom") := review_computed.2.2.2

theorem answer_accepted : ∃ report, reviewStore.draftCommand "requests.draft_answer" answerPayload
    sampleAnswer [] 2000 2000 2000 = .ok (answeredStore, report) := by
  obtain ⟨report, hreport, -⟩ := Store.draftReport_reused (p := answeredJob) (d := answeredReview)
    sampleAnswer.requestId false rfl answeredReview_valid
  refine ⟨report, ?_⟩
  unfold Store.draftCommand
  rw [show validateOperationId sampleAnswer.requestId = .ok () from rfl, ok_bind, answer_read,
    ok_bind, Store.runDraft_writes rfl, review_computed.2.2.1, ok_bind]
  show (answeredJob.draftReport sampleAnswer.requestId false >>= _) = _
  rw [hreport]
  rfl

/-- The record keeps the question with its answer. -/
theorem review_append_only_answered : ∃ q e, answeredStore.Reviewing sampleGrant.jobId q e ∧
    sampleReview.Extends e ∧ Store.Traceable e := by
  obtain ⟨report, h⟩ := answer_accepted
  have hs : reviewStore.Reviewing sampleGrant.jobId reviewJob sampleReview := ⟨rfl, rfl⟩
  obtain ⟨q, e, hreviewing, hlater, -, -, htraceable, -⟩ :=
    Store.review_append_only review_opened.2.1 hs (.single (.draft _ _ _ _ _ _ _ _ h))
  exact ⟨q, e, hreviewing, hlater, htraceable⟩

/-- The answer is sent once more. -/
theorem receipt_settles_repeated : ∃ report, answeredStore.draftCommand "requests.draft_answer"
    answerPayload sampleAnswer [] 9000 9000 9000 = .ok (answeredStore, report) ∧
      report.index "reused" = .bool true := by
  obtain ⟨report, h⟩ := answer_accepted
  have hfresh := (Store.fresh_sound 16 1000000).intact
  have hintact : reviewStore.Intact := (review_opened.1.changes hfresh).intact hfresh
  have hchanged : ¬answeredStore.Reviewing sampleGrant.jobId reviewJob sampleReview := by
    intro hsame
    have hjob : answeredJob = reviewJob := Option.some.inj hsame.found
    exact absurd (congrArg Plan.revision hjob) (by decide)
  have hs : reviewStore.Reviewing sampleGrant.jobId reviewJob sampleReview := ⟨rfl, rfl⟩
  obtain ⟨c, hread, hsettles⟩ := Store.receipt_settles hintact hs h hchanged .refl
  obtain rfl : _ = c := Except.ok.inj (answer_read.symm.trans hread)
  exact (hsettles hread rfl rfl rfl rfl).1 rfl

/-- The node asks with the same receipt for something else. -/
def changedPayload : Json :=
  .obj [("id", .str sampleGrant.jobId), ("expected_revision", .nat 1), ("text", .str "Kitchen")]

theorem change_read : readDraftCommand "requests.draft_answer" changedPayload =
    .ok (.answer sampleGrant.jobId 1 "Kitchen") := by
  decide +kernel

/-- The answer is recorded: sent once more it is found, with another text it is refused, and so is the
answer of another node. -/
theorem review_history_answered :
    (∃ report, answeredStore.draftCommand "requests.draft_answer" answerPayload sampleAnswer [] 9000
      9000 9000 = .ok (answeredStore, report) ∧ report.index "reused" = .bool true) ∧
    (∃ msg, answeredStore.draftCommand "requests.draft_answer" changedPayload sampleAnswer [] 9000
      9000 9000 = .error msg) ∧
    ∃ msg, reviewStore.draftCommand "requests.draft_answer" answerPayload
      { sampleAnswer with originNode := "visitor" } [] 2000 2000 2000 = .error msg := by
  obtain ⟨hopened, hvalid, -⟩ := review_opened
  have hfresh := (Store.fresh_sound 16 1000000).intact
  have hintact : reviewStore.Intact := (hopened.changes hfresh).intact hfresh
  have hs : reviewStore.Reviewing sampleGrant.jobId reviewJob sampleReview := ⟨rfl, rfl⟩
  obtain ⟨q, e, hreviewing, -, -, -, hnext⟩ := Store.review_history hintact hvalid hs .refl
  obtain rfl : reviewJob = q := Option.some.inj hreviewing.found
  obtain rfl : sampleReview = e :=
    Except.ok.inj ((Plan.review_retained rfl).symm.trans (Plan.review_retained hreviewing.review))
  obtain ⟨report, haccepted⟩ := answer_accepted
  obtain ⟨-, hanswers⟩ := hnext _ _ _ sampleAnswer [] 2000 2000 2000 answer_read rfl rfl
  rcases hanswers _ _ haccepted with ⟨-, -, hreceipt⟩ | ⟨-, r, f, -, -, -, -, -, -, hsettled⟩
  · exact absurd hreceipt (by decide)
  · have hrepeated := hsettled _ .refl _ _ _ sampleAnswer [] 9000 9000 9000 answer_read rfl rfl rfl rfl
    have hchanged := hsettled _ .refl _ _ _ sampleAnswer [] 9000 9000 9000 change_read rfl rfl rfl rfl
    exact ⟨hrepeated.1 rfl, hchanged.2 (by decide),
      (hnext _ _ _ _ [] 2000 2000 2000 answer_read rfl rfl).1 (.inl rfl)⟩

/-- The question is open, once the review is. -/
theorem review_stays_open_answered :
    ∃ r, reviewJob.applyDraft (.answer sampleGrant.jobId 1 "Bedroom") sampleAnswer [] 2000 =
      .ok (some r) := by
  obtain ⟨-, hvalid, hplain, hpaid⟩ := review_opened
  have hs : reviewStore.Reviewing sampleGrant.jobId reviewJob sampleReview := ⟨rfl, rfl⟩
  obtain ⟨q, e, hreviewing, hopen⟩ := Store.review_stays_open hvalid hplain hpaid hs .refl
  obtain rfl : reviewJob = q := Option.some.inj hreviewing.found
  obtain rfl : sampleReview = e :=
    Except.ok.inj ((Plan.review_retained rfl).symm.trans (Plan.review_retained hreviewing.review))
  have hcurrent : Store.Current reviewJob sampleReview (.answer sampleGrant.jobId 1 "Bedroom")
      sampleAnswer 1 := ⟨by decide, rfl, by decide, rfl, rfl, rfl⟩
  exact ((hopen hcurrent (by decide)).1 "Bedroom" "Which node?" rfl rfl rfl).mpr
    ⟨rfl, answeredReview_valid.bounded⟩

end

end Eef.Coordinator
