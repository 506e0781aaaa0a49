import Eef.Node.DownloadHistory
import Eef.Node.DownloadRuns

/-!
# Receipts and status of a download

What the status of a node says about its receipts, in every run. The status is written under a
lock of its own, in three sections of a task and two of a cancellation, so the invariant says where
the task stands (`TaskPhase.Sound`): what it chose to save follows from the cancellation that the
status shows, and what it saved is in the journal.

The status of a finished download is that of its receipt only as long as no cancellation marks the
status between the section in which the task chooses to save an error and the one in which it
publishes (`calm`): the last section looks at the mark again.
-/

namespace Eef.Node.Download

open Eef.Lib

variable {allow : Host → String → Prop}

/-- The cancellations that may mark the status leave a download alone that has failed. -/
def Calm (allow : Host → String → Prop) : Prop := ∀ s id, allow s id → calm s id

/-- The state that a task chose follows from the status. -/
def Chosen (quiet : Prop) (live : Live) (ok : Bool) (terminal : State) : Prop :=
  ok = true ∧ terminal = .installed ∨
    ok = false ∧ terminal = .cancelled ∧ live.cancelRequested = true ∨
    ok = false ∧ terminal = .error ∧ (quiet → live.cancelRequested = false)

/-- Where a task stands, against the status and the receipts. -/
def TaskPhase.Sound (quiet : Prop) (live : Live) (rs : List Receipt) (id : String) :
    TaskPhase → Prop
  | .transfer => True
  | .decided ok terminal => Chosen quiet live ok terminal
  | .saved ok terminal kept => Chosen quiet live ok terminal ∧
    (kept = true → ∃ r ∈ rs, r.id = id ∧ r.state = terminal)

section

variable [F64] [Sha256]

/-- What holds in every reachable state. -/
structure Inv (allow : Host → String → Prop) (s : Host) (rs : List Receipt) : Prop where
  journal : s.journal.Keeps rs
  recorded : ∀ r ∈ rs, r.cancelRequested = true → r.id ∈ s.recorded
  marked : s.live.cancelRequested = true →
    ∃ r ∈ rs, s.live.id = some r.id ∧ r.cancelRequested = true
  cancels : ∀ c ∈ s.cancels, c.recorded = true → ∃ r ∈ rs, r.id = c.id ∧ r.cancelRequested = true
  reopened : ∀ l ∈ s.reopened, ∃ r ∈ rs, l = r.progress ∧ r.state ≠ .downloading
  single : s.tasks.length ≤ 1
  busy : ∀ t ∈ s.tasks, s.live.id = some t.id ∧ s.live.state = .receipt .downloading
  free : s.admitting ≠ none → s.tasks = [] ∧ s.live.state ≠ .receipt .downloading
  phase : ∀ t ∈ s.tasks, t.phase.Sound (Calm allow) s.live rs t.id
  agrees : Calm allow → ∀ state, s.live.state = .receipt state → state ≠ .downloading →
    ∃ r ∈ rs, s.live.id = some r.id ∧ r.state = state

omit [F64] [Sha256] in
theorem Chosen.terminal {quiet : Prop} {live : Live} {ok : Bool} {terminal : State}
    (h : Chosen quiet live ok terminal) : terminal ≠ .downloading := by
  rcases h with ⟨-, rfl⟩ | ⟨-, rfl, -⟩ | ⟨-, rfl, -⟩ <;> decide

omit [F64] [Sha256] in
/-- Where a task stands does not depend on how the other receipts go on. -/
theorem TaskPhase.Sound.onward {quiet : Prop} {live : Live} {rs qs : List Receipt} {id : String}
    {phase : TaskPhase} (h : phase.Sound quiet live rs id) (honward : Onward rs qs) :
    phase.Sound quiet live qs id := by
  cases phase with
  | transfer => exact h
  | decided ok terminal => exact h
  | saved ok terminal kept =>
    refine ⟨h.1, fun hkept => ?_⟩
    obtain ⟨r, hr, hid, hstate⟩ := h.2 hkept
    exact ⟨r, honward.final hr (hstate ▸ h.1.terminal), hid, hstate⟩

omit [F64] [Sha256] in
/-- A requested cancellation stays requested. -/
theorem Onward.cancel {rs qs : List Receipt} (h : Onward rs qs) {r : Receipt} (hr : r ∈ rs)
    (hcancel : r.cancelRequested = true) : ∃ q ∈ qs, q.id = r.id ∧ q.cancelRequested = true := by
  obtain ⟨q, hq, hlater⟩ := h.mem hr
  exact ⟨q, hq, hlater.id, hlater.cancel hcancel⟩

/-- A step of the journal. -/
theorem Inv.onward {s : Host} {rs qs : List Receipt} (h : Inv allow s rs) {journal : Journal}
    {recorded : List String} (hkeeps : journal.Keeps qs) (honward : Onward rs qs)
    (hrecorded : ∀ r ∈ qs, r.cancelRequested = true → r.id ∈ recorded) :
    Inv allow { s with journal, recorded } qs where
  journal := hkeeps
  recorded := hrecorded
  marked := by
    intro hcancel
    obtain ⟨r, hr, hid, hr'⟩ := h.marked hcancel
    obtain ⟨q, hq, hqid, hq'⟩ := honward.cancel hr hr'
    exact ⟨q, hq, hqid ▸ hid, hq'⟩
  cancels := by
    intro c hc hdone
    obtain ⟨r, hr, hid, hr'⟩ := h.cancels c hc hdone
    obtain ⟨q, hq, hqid, hq'⟩ := honward.cancel hr hr'
    exact ⟨q, hq, hqid.trans hid, hq'⟩
  reopened := by
    intro l hl
    obtain ⟨r, hr, hl', hstate⟩ := h.reopened l hl
    exact ⟨r, honward.final hr hstate, hl', hstate⟩
  single := h.single
  busy := h.busy
  free := h.free
  phase := fun t ht => (h.phase t ht).onward honward
  agrees := by
    intro hcalm state hlive hstate
    obtain ⟨r, hr, hid, hr'⟩ := h.agrees hcalm state hlive hstate
    exact ⟨r, honward.final hr (hr' ▸ hstate), hid, hr'⟩

/-- The journal is the same, or it has one receipt more. -/
theorem Inv.begin {s : Host} {rs : List Receipt} (h : Inv allow s rs) {config : Json}
    {p : Progress} {opening : Opening} {now : Nat} {write : Db → Write} {journal : Journal}
    {result : Result Unit} (hbegin : s.journal.begin config p opening now write = (journal, result)) :
    ∃ qs, Inv allow { s with journal } qs ∧ Onward rs qs := by
  rcases h.journal.begin hbegin with ⟨hkeeps, -⟩ | ⟨hkeeps, -⟩
  · exact ⟨rs, h.onward hkeeps (Onward.refl rs) h.recorded, Onward.refl rs⟩
  · refine ⟨_, h.onward hkeeps (Onward.append rs _) ?_, Onward.append rs _⟩
    intro r hr hcancel
    rcases List.mem_append.mp hr with hr | hr
    · exact h.recorded r hr hcancel
    · rw [List.mem_singleton.mp hr] at hcancel
      cases hcancel

omit [F64] [Sha256] in
/-- A member of a list of at most one. -/
theorem alone {α : Type} {xs pre post : List α} {x : α} (h : xs = pre ++ x :: post)
    (hlength : xs.length ≤ 1) : pre = [] ∧ post = [] := by
  rw [h, List.length_append, List.length_cons] at hlength
  exact ⟨List.length_eq_zero_iff.mp (by omega), List.length_eq_zero_iff.mp (by omega)⟩

/-- The task goes on to another phase. -/
theorem Inv.phased {s : Host} {rs : List Receipt} (h : Inv allow s rs) {pre post : List Task}
    {id : String} {phase : TaskPhase} (htasks : s.tasks = pre ++ ⟨id, phase⟩ :: post)
    {next : TaskPhase} (hnext : next.Sound (Calm allow) s.live rs id) :
    Inv allow { s with tasks := pre ++ ⟨id, next⟩ :: post } rs := by
  obtain ⟨rfl, rfl⟩ := alone htasks h.single
  have hbusy := h.busy ⟨id, phase⟩ (htasks ▸ List.mem_singleton_self _)
  refine ⟨h.journal, h.recorded, h.marked, h.cancels, h.reopened, Nat.le_refl 1, ?_, ?_, ?_,
    h.agrees⟩
  · intro t ht
    rw [List.mem_singleton.mp ht]
    exact hbusy
  · intro hadmitting
    have := (h.free hadmitting).1
    rw [htasks] at this
    cases this
  · intro t ht
    rw [List.mem_singleton.mp ht]
    exact hnext

/-- The task ends. -/
theorem Inv.ended {s : Host} {rs : List Receipt} (h : Inv allow s rs) {pre post : List Task}
    {t : Task} (htasks : s.tasks = pre ++ t :: post) {live : Live}
    (hid : live.id = s.live.id) (hcancel : live.cancelRequested = s.live.cancelRequested)
    (hagrees : Calm allow → ∀ state, live.state = .receipt state → state ≠ .downloading →
      ∃ r ∈ rs, s.live.id = some r.id ∧ r.state = state) :
    Inv allow { s with live, tasks := pre ++ post } rs := by
  obtain ⟨rfl, rfl⟩ := alone htasks h.single
  refine ⟨h.journal, h.recorded, ?_, h.cancels, h.reopened, Nat.zero_le 1, ?_, ?_, ?_, ?_⟩
  · show live.cancelRequested = true → ∃ r ∈ rs, live.id = some r.id ∧ r.cancelRequested = true
    rw [hid, hcancel]
    exact h.marked
  · intro t ht
    exact absurd ht List.not_mem_nil
  · intro hadmitting
    have := (h.free hadmitting).1
    rw [htasks] at this
    cases this
  · intro t ht
    exact absurd ht List.not_mem_nil
  · show Calm allow → ∀ state, live.state = .receipt state → state ≠ .downloading →
      ∃ r ∈ rs, live.id = some r.id ∧ r.state = state
    rw [hid]
    exact hagrees

omit [F64] [Sha256] in
theorem mem_replace_self {r r' : Receipt} {rs : List Receipt} (hr : r ∈ rs) (hid : r.id = r'.id) :
    r' ∈ replace r' rs := by
  refine List.mem_map.mpr ⟨r, hr, ?_⟩
  rw [if_pos hid]

/-- A change of the receipt of download `id`, with the cancellations that were recorded. -/
theorem Inv.changed {s : Host} {rs : List Receipt} (h : Inv allow s rs) {journal : Journal}
    {r : Receipt} {state : Option State} {now : Nat} (recorded : List String) (hr : r ∈ rs)
    (hstate : r.state = .downloading) (hkeeps : journal.Keeps (replace (r.changed state now) rs))
    (hrecorded : ∀ id ∈ s.recorded, id ∈ recorded) (hnone : state = none → r.id ∈ recorded) :
    Inv allow { s with journal, recorded } (replace (r.changed state now) rs) ∧
      Onward rs (replace (r.changed state now) rs) := by
  have hlater := r.changed_later hstate state now
  have honward := Onward.replace h.journal.file.valid hr hlater
  refine ⟨h.onward hkeeps honward fun q hq hcancel => ?_, honward⟩
  rcases mem_replace hq with heq | ⟨hq, -⟩
  · have hid : q.id = r.id := by
      rw [heq]
      exact hlater.id
    rw [hid]
    cases state with
    | none => exact hnone rfl
    | some state =>
      refine hrecorded _ (h.recorded r hr ?_)
      rw [heq] at hcancel
      exact hcancel
  · exact hrecorded _ (h.recorded q hq hcancel)

/-- The steps of a task. -/
theorem Inv.task {s t : Host} {rs : List Receipt} (h : Inv allow s rs) {pre post : List Task}
    {id : String} {phase : TaskPhase} (htasks : s.tasks = pre ++ ⟨id, phase⟩ :: post)
    (hstep : TaskStep s pre post id phase t) : ∃ qs, Inv allow t qs ∧ Onward rs qs := by
  have hmem : (⟨id, phase⟩ : Task) ∈ s.tasks :=
    htasks ▸ List.mem_append_right _ (List.mem_cons_self ..)
  obtain ⟨hlive, hdownloading⟩ := h.busy _ hmem
  have hphase := h.phase _ hmem
  cases hstep with
  | decide ok hid =>
    refine ⟨rs, h.phased htasks ?_, Onward.refl rs⟩
    show Chosen _ s.live ok (terminalOf ok s.live)
    unfold terminalOf
    cases ok with
    | true => exact Or.inl ⟨rfl, rfl⟩
    | false =>
      by_cases hcancel : s.live.cancelRequested = true
      · exact Or.inr (Or.inl ⟨rfl, by rw [hcancel]; rfl, hcancel⟩)
      · rw [Bool.not_eq_true] at hcancel
        exact Or.inr (Or.inr ⟨rfl, by rw [hcancel]; rfl, fun _ => hcancel⟩)
  | @finish ok terminal journal result now write hfinish =>
    rcases h.journal.change hfinish with ⟨rfl, hresult⟩ | ⟨r, hr, hid, hstate, hkeeps⟩
    · have hkept : isOk result = false := by
        cases result with
        | error msg => rfl
        | ok u => exact absurd rfl hresult
      rw [hkept]
      exact ⟨rs, h.phased htasks ⟨hphase, nofun⟩, Onward.refl rs⟩
    · obtain ⟨hinv, honward⟩ := h.changed s.recorded hr hstate hkeeps (fun _ h => h) nofun
      refine ⟨_, hinv.phased htasks ⟨hphase, fun _ => ?_⟩, honward⟩
      exact ⟨_, mem_replace_self hr (r.changed_later hstate _ now).id.symm, hid, rfl⟩
  | @publish ok kept terminal hid =>
    obtain ⟨hchosen, hkept⟩ := hphase
    refine ⟨rs, h.ended htasks ?_ ?_ ?_, Onward.refl rs⟩
    · unfold publish
      split_ifs <;> rfl
    · unfold publish
      split_ifs <;> rfl
    · intro hcalm state hpublished hstate
      unfold publish at hpublished
      cases kept with
      | false => cases hpublished
      | true =>
        obtain ⟨r, hr, hrid, hrstate⟩ := hkept rfl
        refine ⟨r, hr, hrid ▸ hid, hrstate.trans ?_⟩
        rcases hchosen with ⟨rfl, rfl⟩ | ⟨rfl, rfl, hcancel⟩ | ⟨rfl, rfl, hcancel⟩
        · cases hpublished
          rfl
        · rw [hcancel] at hpublished
          cases hpublished
          rfl
        · rw [hcancel hcalm] at hpublished
          cases hpublished
          rfl
  | lost hphase hid => exact absurd hlive hid

/-- The steps of a cancellation. -/
theorem Inv.cancelling {s t : Host} {rs : List Receipt} (h : Inv allow s rs)
    {pre post : List Cancel} {id : String} {recorded : Bool}
    (hcancels : s.cancels = pre ++ ⟨id, recorded⟩ :: post)
    (hstep : CancelStep allow s pre post id recorded t) : ∃ qs, Inv allow t qs ∧ Onward rs qs := by
  -- the other cancellations stay
  have hother : ∀ c ∈ pre ++ post, c ∈ s.cancels := by
    intro c hc
    rw [hcancels]
    rcases List.mem_append.mp hc with hc | hc
    · exact List.mem_append_left _ hc
    · exact List.mem_append_right _ (List.mem_cons_of_mem _ hc)
  have hmem : (⟨id, recorded⟩ : Cancel) ∈ s.cancels :=
    hcancels ▸ List.mem_append_right _ (List.mem_cons_self ..)
  cases hstep with
  | @record journal now write hcancel =>
    rcases h.journal.change hcancel with ⟨-, hresult⟩ | ⟨r, hr, rfl, hstate, hkeeps⟩
    · exact absurd rfl hresult
    · obtain ⟨hinv, honward⟩ := h.changed (r.id :: s.recorded) hr hstate hkeeps
        (fun _ h => List.mem_cons_of_mem _ h) (fun _ => List.mem_cons_self ..)
      refine ⟨_, { hinv with cancels := ?_ }, honward⟩
      intro c hc hdone
      have hc' : c = ⟨r.id, true⟩ ∨ c ∈ pre ++ post := by
        rcases List.mem_append.mp hc with hc | hc
        · exact Or.inr (List.mem_append_left _ hc)
        · rcases List.mem_cons.mp hc with hc | hc
          · exact Or.inl hc
          · exact Or.inr (List.mem_append_right _ hc)
      rcases hc' with rfl | hc
      · exact ⟨_, mem_replace_self hr (r.changed_later hstate _ now).id.symm, rfl, rfl⟩
      · exact hinv.cancels c (hother c hc) hdone
  | @refused journal msg now write hcancel =>
    by_cases hsame : journal = s.journal
    · subst hsame
      rw [if_pos rfl]
      exact ⟨rs, { h with cancels := fun c hc => h.cancels c (hother c hc) }, Onward.refl rs⟩
    · rw [if_neg hsame]
      rcases h.journal.change hcancel with ⟨heq, -⟩ | ⟨r, hr, rfl, hstate, hkeeps⟩
      · exact absurd heq hsame
      · obtain ⟨hinv, honward⟩ := h.changed (r.id :: s.recorded) hr hstate hkeeps
          (fun _ h => List.mem_cons_of_mem _ h) (fun _ => List.mem_cons_self ..)
        exact ⟨_, { hinv with cancels := fun c hc => hinv.cancels c (hother c hc) }, honward⟩
  | mark hallow =>
    by_cases hid : s.live.id = some id
    · rw [if_pos hid]
      obtain ⟨r, hr, hrid, hrcancel⟩ := h.cancels _ hmem rfl
      refine ⟨rs, { h with
        marked := fun _ => ⟨r, hr, hrid ▸ hid, hrcancel⟩
        cancels := fun c hc => h.cancels c (hother c hc)
        phase := ?_ }, Onward.refl rs⟩
      intro task htask
      have hchosen : ∀ {ok : Bool} {terminal : State}, Chosen (Calm allow) s.live ok terminal →
          (Calm allow → ¬(ok = false ∧ terminal = .error)) →
          Chosen (Calm allow) { s.live with cancelRequested := true } ok terminal := by
        intro ok terminal hchosen hquiet
        rcases hchosen with hok | ⟨hok, hterminal, -⟩ | ⟨hok, hterminal, -⟩
        · exact Or.inl hok
        · exact Or.inr (Or.inl ⟨hok, hterminal, rfl⟩)
        · exact Or.inr (Or.inr ⟨hok, hterminal, fun hcalm => absurd ⟨hok, hterminal⟩ (hquiet hcalm)⟩)
      have hfailing : Calm allow → ¬task.failing := by
        intro hcalm
        have hlive := (h.busy task htask).1
        rw [hid] at hlive
        exact hcalm s id hallow task htask (Option.some.inj hlive).symm
      have hphase := h.phase task htask
      show task.phase.Sound _ _ _ _
      cases hp : task.phase with
      | transfer => trivial
      | decided ok terminal =>
        rw [hp] at hphase
        refine hchosen hphase fun hcalm hfailed => hfailing hcalm (Or.inl ?_)
        rw [hp, hfailed.1, hfailed.2]
      | saved ok terminal kept =>
        rw [hp] at hphase
        refine ⟨hchosen hphase.1 fun hcalm hfailed => hfailing hcalm (Or.inr ⟨kept, ?_⟩), hphase.2⟩
        rw [hp, hfailed.1, hfailed.2]
    · rw [if_neg hid]
      exact ⟨rs, { h with cancels := fun c hc => h.cancels c (hother c hc) }, Onward.refl rs⟩

omit [F64] [Sha256] in
theorem Receipt.interrupted_progress (r : Receipt) (now : Nat) :
    (r.interrupted now).id = r.id ∧ (r.interrupted now).cancelRequested = r.cancelRequested := by
  unfold interrupted
  by_cases h : r.state = .downloading
  · rw [if_pos h]
    exact ⟨rfl, rfl⟩
  · rw [if_neg h]
    exact ⟨rfl, rfl⟩

omit [F64] [Sha256] in
/-- A journal that is opened again keeps the cancellations, and goes on. -/
theorem recovered {rs qs : List Receipt} {now : Nat}
    (h : qs = rs ∨ qs = rs.map (Receipt.interrupted · now)) {recorded : List String}
    (hrecorded : ∀ r ∈ rs, r.cancelRequested = true → r.id ∈ recorded) :
    Onward rs qs ∧ ∀ r ∈ qs, r.cancelRequested = true → r.id ∈ recorded := by
  rcases h with rfl | rfl
  · exact ⟨Onward.refl _, hrecorded⟩
  · refine ⟨Onward.map fun r _ => r.interrupted_later now, fun q hq hcancel => ?_⟩
    obtain ⟨r, hr, rfl⟩ := List.mem_map.mp hq
    obtain ⟨hid, hsame⟩ := r.interrupted_progress now
    rw [hid]
    exact hrecorded r hr (hsame ▸ hcancel)

/-- A process that starts, with what it finds. -/
theorem Inv.started {file : Option Db} {rs : List Receipt} (h : FileHolds file rs)
    {recorded : List String} (hrecorded : ∀ r ∈ rs, r.cancelRequested = true → r.id ∈ recorded)
    {opening : Opening} {now : Nat} {latest : Result Unit} {journal : Journal}
    {found : Result (Option Receipt)}
    (hrecover : recover file opening now latest = (journal, found)) :
    ∃ qs, Inv allow (.started journal found recorded) qs ∧ Onward rs qs := by
  obtain ⟨qs, hkeeps, hqs, hfound⟩ := recover_keeps h hrecover
  obtain ⟨honward, hrecorded⟩ := recovered hqs hrecorded
  -- the status is that of no receipt, or that of a receipt of the journal
  have hlive : (Host.started journal found recorded).live = .unavailable ∨
      (Host.started journal found recorded).live = .idle ∨
      ∃ r ∈ qs, r.state ≠ .downloading ∧
        (Host.started journal found recorded).live = r.progress := by
    cases found with
    | error msg => exact Or.inl rfl
    | ok latest =>
      cases latest with
      | none => exact Or.inr (Or.inl rfl)
      | some r =>
        obtain ⟨hr, hstate⟩ := hfound r rfl
        exact Or.inr (Or.inr ⟨r, hr, hstate, rfl⟩)
  refine ⟨qs, ⟨hkeeps, hrecorded, fun hcancel => ?_, fun _ hc => absurd hc List.not_mem_nil,
    fun _ hl => absurd hl List.not_mem_nil, Nat.zero_le 1, fun _ ht => absurd ht List.not_mem_nil,
    fun hadmitting => absurd rfl hadmitting, fun _ ht => absurd ht List.not_mem_nil,
    fun _ state hstate _ => ?_⟩, honward⟩
  · rcases hlive with hlive | hlive | ⟨r, hr, -, hlive⟩
    · rw [hlive] at hcancel
      cases hcancel
    · rw [hlive] at hcancel
      cases hcancel
    · rw [hlive] at hcancel ⊢
      exact ⟨r, hr, rfl, hcancel⟩
  · rcases hlive with hlive | hlive | ⟨r, hr, -, hlive⟩
    · rw [hlive] at hstate
      cases hstate
    · rw [hlive] at hstate
      cases hstate
    · rw [hlive] at hstate ⊢
      cases hstate
      exact ⟨r, hr, rfl, rfl⟩

/-- Every step keeps the invariant, and the receipts go on. -/
theorem Inv.step {s t : Host} {rs : List Receipt} (h : Inv allow s rs) (hstep : Step allow s t) :
    ∃ qs, Inv allow t qs ∧ Onward rs qs := by
  cases hstep with
  | check p hfree hadmits =>
    refine ⟨rs, { h with free := fun _ => ⟨?_, hadmits.2⟩ }, Onward.refl rs⟩
    cases htasks : s.tasks with
    | nil => rfl
    | cons task tasks =>
      exact absurd (h.busy task (htasks ▸ List.mem_cons_self ..)).2 hadmits.2
  | claim config opening now write hp hbegin =>
    obtain ⟨qs, hinv, honward⟩ := h.begin hbegin
    have hfree := h.free (by rw [hp]; nofun)
    exact ⟨qs, { hinv with free := fun _ => hfree }, honward⟩
  | refuse config opening now write hp hbegin =>
    obtain ⟨qs, hinv, honward⟩ := h.begin hbegin
    exact ⟨qs, { hinv with free := fun hadmitting => absurd rfl hadmitting }, honward⟩
  | @spawn p hp =>
    have htasks := (h.free (by rw [hp]; nofun)).1
    refine ⟨rs, { h with
      marked := nofun
      single := ?_
      busy := ?_
      free := fun hadmitting => absurd rfl hadmitting
      phase := ?_
      agrees := ?_ }, Onward.refl rs⟩
    · show (⟨p.id, .transfer⟩ :: s.tasks : List Task).length ≤ 1
      rw [htasks]
      exact Nat.le_refl 1
    · intro t ht
      have ht' : t ∈ (⟨p.id, .transfer⟩ :: s.tasks : List Task) := ht
      rw [htasks, List.mem_singleton] at ht'
      rw [ht']
      exact ⟨rfl, rfl⟩
    · intro t ht
      have ht' : t ∈ (⟨p.id, .transfer⟩ :: s.tasks : List Task) := ht
      rw [htasks, List.mem_singleton] at ht'
      rw [ht']
      trivial
    · intro _ state hlive hstate
      cases hlive
      exact absurd rfl hstate
  | task htasks hstep => exact h.task htasks hstep
  | cancel hstate hid =>
    refine ⟨rs, { h with cancels := ?_ }, Onward.refl rs⟩
    intro c hc hdone
    rcases List.mem_cons.mp hc with rfl | hc
    · cases hdone
    · exact h.cancels c hc hdone
  | cancelling hcancels hstep => exact h.cancelling hcancels hstep
  | @reopen journal found opening now latest hhandle hrecover hready =>
    obtain ⟨qs, hkeeps, hqs, hfound⟩ := recover_keeps h.journal.file hrecover
    obtain ⟨honward, hrecorded⟩ := recovered hqs h.recorded
    have hinv := h.onward hkeeps honward hrecorded
    refine ⟨qs, { hinv with reopened := ?_ }, honward⟩
    intro l hl
    rcases List.mem_append.mp hl with hl | hl
    · cases found with
      | error msg => cases hl
      | ok latest =>
        cases latest with
        | none => cases hl
        | some r =>
          obtain ⟨hr, hstate⟩ := hfound r rfl
          exact ⟨r, hr, List.mem_singleton.mp hl, hstate⟩
    · exact hinv.reopened l hl
  | @reopenFail journal found opening now latest hhandle hrecover hready =>
    obtain ⟨qs, hkeeps, hqs, -⟩ := recover_keeps h.journal.file hrecover
    obtain ⟨honward, hrecorded⟩ := recovered hqs h.recorded
    exact ⟨qs, h.onward ⟨hkeeps.file, nofun, nofun⟩ honward hrecorded, honward⟩
  | @adopt pre post live hreopened =>
    have hother : ∀ l ∈ pre ++ post, l ∈ s.reopened := by
      intro l hl
      rw [hreopened]
      rcases List.mem_append.mp hl with hl | hl
      · exact List.mem_append_left _ hl
      · exact List.mem_append_right _ (List.mem_cons_of_mem _ hl)
    have hkeep : ∀ l ∈ pre ++ post, ∃ r ∈ rs, l = r.progress ∧ r.state ≠ .downloading :=
      fun l hl => h.reopened l (hother l hl)
    by_cases hunavailable : s.live.state = .unavailable
    · rw [if_pos hunavailable]
      -- no task runs while the status is unavailable
      have htasks : s.tasks = [] := by
        cases htasks : s.tasks with
        | nil => rfl
        | cons task tasks =>
          have := (h.busy task (htasks ▸ List.mem_cons_self ..)).2
          rw [hunavailable] at this
          cases this
      obtain ⟨r, hr, hlive, hstate⟩ := h.reopened live (hreopened ▸ List.mem_append_right _
        (List.mem_cons_self ..))
      subst hlive
      refine ⟨rs, { h with
        marked := fun hcancel => ⟨r, hr, rfl, hcancel⟩
        reopened := hkeep
        busy := fun t ht => ?_
        free := fun _ => ⟨htasks, fun heq => ?_⟩
        phase := fun t ht => ?_
        agrees := fun _ state hlive _ => ?_ }, Onward.refl rs⟩
      · rw [htasks] at ht
        cases ht
      · cases hr' : r.state with
        | downloading => exact hstate hr'
        | _ =>
          have : LiveState.receipt r.state = .receipt .downloading := heq
          rw [hr'] at this
          cases this
      · rw [htasks] at ht
        cases ht
      · cases hlive
        exact ⟨r, hr, rfl, rfl⟩
    · rw [if_neg hunavailable]
      exact ⟨rs, { h with reopened := hkeep }, Onward.refl rs⟩
  | restart opening now latest hrecover => exact Inv.started h.journal.file h.recorded hrecover

/-- A node that has not downloaded anything yet. -/
def Host.initial : Host := .started ⟨.empty, none⟩ (.ok none) []

theorem Inv.initial (allow : Host → String → Prop) : Inv allow .initial [] := by
  have hrecover : recover none ⟨.ok (), 0, 0, .done 0⟩ 0 (.ok ()) = (⟨.empty, none⟩, .ok none) := rfl
  have hnone : FileHolds none [] := rfl
  obtain ⟨qs, hinv, -⟩ := @Inv.started allow _ _ none [] hnone []
    (fun _ hr => absurd hr List.not_mem_nil) _ _ _ _ _ hrecover
  have hnil : qs = [] := hinv.journal.empty rfl
  exact hnil ▸ hinv

/-- A run keeps the invariant, and the receipts go on. -/
theorem Inv.run {s t : Host} {rs : List Receipt} (h : Inv allow s rs) (hrun : Run (Step allow) s t) :
    ∃ qs, Inv allow t qs ∧ Onward rs qs := by
  induction hrun with
  | refl => exact ⟨rs, h, Onward.refl rs⟩
  | tail _ hlast ih =>
    obtain ⟨qs, hinv, honward⟩ := ih
    obtain ⟨ps, hinv', honward'⟩ := hinv.step hlast
    exact ⟨ps, hinv', honward.trans honward'⟩

/-! ## The agreement -/

/-- The receipts that a reader of the journal finds. -/
def Host.receipts (s : Host) : Result (List Receipt) :=
  match s.journal.file with
  | none => .ok []
  | some db => db.records

/-- A finished download has the state of its receipt. -/
def Live.Agrees (live : Live) (rs : List Receipt) : Prop :=
  ∀ state, state = .installed ∨ state = .cancelled ∨ state = .error →
    live.state = .receipt state → ∃ r ∈ rs, live.id = some r.id ∧ r.state = state

/-- What a node with receipts `rs` guarantees. -/
structure Agreement (s : Host) (rs : List Receipt) : Prop where
  receipts : s.receipts = .ok rs
  ordinals : rs.map Receipt.sequence = List.range' 1 rs.length
  ids : (rs.map Receipt.id).Nodup
  active : ∀ r ∈ rs, ∀ q ∈ rs, r.state = .downloading → q.state = .downloading → r = q
  /-- An admission adds a receipt for a download that has none. -/
  once : ∀ config p opening now write journal,
    s.journal.begin config p opening now write = (journal, .ok ()) →
    (∀ r ∈ rs, r.id ≠ p.id) ∧
      ∃ db, journal.file = some db ∧ db.records = .ok (rs ++ [admitted p rs.length now])
  cancelled : ∀ r ∈ rs, r.state = .cancelled → r.cancelRequested = true ∧ r.id ∈ s.recorded
  marked : s.live.cancelRequested = true →
    ∃ r ∈ rs, s.live.id = some r.id ∧ r.cancelRequested = true
  live : s.live.Agrees rs
  available : s.journal.handle ≠ .unavailable → ∀ config a,
    s.journal.availability config = .ok a → a.blocker = none →
    ∀ p opening now write, Serves s.journal a.limits opening write →
      (admitted p 0 now).validate = .ok () → (∀ r ∈ rs, r.id ≠ p.id) →
      (s.journal.begin config p opening now write).2 = .ok ()
  blocked : ∀ config a, s.journal.availability config = .ok a → a.blocker ≠ none →
    ∀ p opening now write, ∃ msg,
      s.journal.begin config p opening now write = (s.journal, .error msg)
  /-- A process that starts on the file reads the receipts. -/
  reopens : ∀ db opening now pageCount, s.journal.file = some db → opening.checks = .ok () →
    opening.write = .done pageCount → now ≤ i64Max →
    ∃ db', recover (some db) opening now (.ok ()) =
        (⟨.ready, some db'⟩, .ok (rs.map (Receipt.interrupted · now)).getLast?) ∧
      db'.records = .ok (rs.map (Receipt.interrupted · now))

theorem Inv.receipts {s : Host} {rs : List Receipt} (h : Inv allow s rs) : s.receipts = .ok rs := by
  have hfile := h.journal.file
  unfold Host.receipts
  cases hdb : s.journal.file with
  | none =>
    rw [hdb] at hfile
    have hnil : rs = [] := hfile
    rw [hnil]
  | some db =>
    rw [hdb] at hfile
    exact Holds.records hfile

/-- A journal is opened on its receipts, none of them under way any more. -/
theorem Holds.recover {db : Db} {rs : List Receipt} (h : Holds db rs) {opening : Opening}
    {now pageCount : Nat} (hchecks : opening.checks = .ok ())
    (hwrite : opening.write = .done pageCount) (hnow : now ≤ i64Max) :
    ∃ db', Download.recover (some db) opening now (.ok ()) =
        (⟨.ready, some db'⟩, .ok (rs.map (Receipt.interrupted · now)).getLast?) ∧
      db'.records = .ok (rs.map (Receipt.interrupted · now)) := by
  have hloop := @Holds.interrupt _ _ now rs db [] h
  obtain ⟨new, hnew⟩ := hloop.2 hnow
  have hholds := (hloop.1 new hnew).1
  have hkept : Holds { new with pageCount } (rs.map (Receipt.interrupted · now)) :=
    ⟨hholds.rows, hholds.valid⟩
  refine ⟨{ new with pageCount }, ?_, hkept.records⟩
  simp only [Download.recover, openStore, hchecks, Option.getD_some, h.records, ok_bind, hnew,
    hwrite, Db.commit, hkept.records]

theorem Inv.agreement {s : Host} {rs : List Receipt} (h : Inv allow s rs) (hcalm : Calm allow) :
    Agreement s rs where
  receipts := h.receipts
  ordinals := h.journal.file.valid.ordinals
  ids := h.journal.file.valid.ids
  active := h.journal.file.valid.active
  once := by
    intro config p opening now write journal hbegin
    rcases h.journal.begin hbegin with ⟨-, hresult⟩ | ⟨hkeeps, hfresh⟩
    · exact absurd rfl hresult
    · refine ⟨hfresh, ?_⟩
      have hfile := hkeeps.file
      cases hdb : journal.file with
      | none =>
        rw [hdb] at hfile
        exact absurd hfile (List.append_ne_nil_of_right_ne_nil _ (List.cons_ne_nil _ _))
      | some db =>
        rw [hdb] at hfile
        exact ⟨db, rfl, Holds.records hfile⟩
  cancelled := by
    intro r hr hstate
    obtain ⟨-, -, hdamaged⟩ := Receipt.validate_ok.1 (h.journal.file.valid.checked r hr)
    simp only [Receipt.damaged, not_or, not_and, Bool.not_eq_false] at hdamaged
    obtain ⟨-, -, -, -, -, -, -, -, -, -, -, hcancel⟩ := hdamaged
    exact ⟨hcancel hstate, h.recorded r hr (hcancel hstate)⟩
  marked := h.marked
  live := by
    intro state hstate hlive
    refine h.agrees hcalm state hlive ?_
    rcases hstate with rfl | rfl | rfl <;> decide
  available := by
    intro hhandle config a hreport hfree p opening now write hserves hp hfresh
    exact available_admits h.journal hhandle hreport hfree hserves hp hfresh
  blocked := by
    intro config a hreport hblocked p opening now write
    exact blocked_refuses h.journal hreport hblocked p opening now write
  reopens := by
    intro db opening now pageCount hfile hchecks hwrite hnow
    have hholds := h.journal.file
    rw [hfile] at hholds
    exact Holds.recover hholds hchecks hwrite hnow

/-- **The receipts and the status of a node agree** in every state that a run reaches in which no
cancellation marks the status of a download between the moment its task chooses to save an error
and the moment it publishes; and the receipts of a state go on in every later one. -/
theorem calm_downloads_agree {s t : Host} (hs : Run (Step calm) .initial s)
    (ht : Run (Step calm) s t) :
    ∃ rs qs, Agreement s rs ∧ Agreement t qs ∧ Onward rs qs := by
  have hcalm : Calm calm := fun _ _ h => h
  obtain ⟨rs, hinv, -⟩ := (Inv.initial calm).run hs
  obtain ⟨qs, hinv', honward⟩ := hinv.run ht
  exact ⟨rs, qs, hinv.agreement hcalm, hinv'.agreement hcalm, honward⟩

end

/-! ## A cancellation between two sections -/

@[reducible] def sampleSha : Sha256 := .constant _ hexDigest_a

attribute [local instance] F64.bits sampleSha

def sampleProgress : Progress :=
  ⟨"11111111-1111-4111-8111-111111111111", "tiny", "llamacpp",
    String.ofList (List.replicate 64 'a'), some 1⟩

def sampleOpening : Opening := ⟨.ok (), 2, 4096, .done 2⟩

/-- The file after each write: the admission, and the cancellation. -/
def sampleBegun : Journal × Result Unit :=
  Journal.begin ⟨.empty, none⟩ (.obj []) sampleProgress sampleOpening 1 fun _ => .done 2

@[inherit_doc sampleBegun]
def sampleCancelled : Journal × Result Unit :=
  sampleBegun.1.cancel sampleProgress.id 2 fun _ => .done 2

/-- And after the end of the transfer, saved as an error or as a cancellation. -/
def sampleFinished (terminal : State) : Journal × Result Unit :=
  sampleCancelled.1.finish sampleProgress.id terminal 3 fun _ => .done 2

/-- What each write answers, and what the last one leaves. -/
theorem sample_results : sampleBegun.2 = .ok () ∧ sampleCancelled.2 = .ok () ∧
    (sampleFinished .error).2 = .ok () ∧ (sampleFinished .cancelled).2 = .ok () ∧
    ((sampleFinished .error).1.file.map fun db => db.records.toOption.map (·.map Receipt.state)) =
      some (some [.error]) := by
  decide +kernel

/-- The node on a journal, with its task, the cancellation and the mark of the status. -/
def sampleHost (journal : Journal) (marked : Bool) (tasks : List TaskPhase) (cancels : List Bool)
    (recorded : List String) : Host where
  journal := journal
  live := { sampleProgress.start with cancelRequested := marked }
  admitting := none
  reopened := []
  tasks := tasks.map (⟨sampleProgress.id, ·⟩)
  cancels := cancels.map (⟨sampleProgress.id, ·⟩)
  recorded := recorded

theorem answered_ok {r : Journal × Result Unit} (h : r.2 = .ok ()) : r = (r.1, .ok ()) :=
  Prod.ext rfl h

/-- The installation, up to its task. -/
theorem begun_run {allow : Host → String → Prop} {begun : Journal}
    (hbegin : Journal.begin ⟨.empty, none⟩ (.obj []) sampleProgress sampleOpening 1
      (fun _ => .done 2) = (begun, .ok ())) :
    Run (Step allow) .initial (sampleHost begun false [.transfer] [] []) := by
  refine Relation.ReflTransGen.head (.check sampleProgress rfl ⟨nofun, nofun⟩) ?_
  refine .head (.claim (.obj []) sampleOpening 1 (fun _ => .done 2) rfl hbegin) ?_
  exact .head (.spawn rfl) .refl

/-- The status once the transfer that was cancelled has failed. -/
def samplePublished : Live := publish false true { sampleProgress.start with cancelRequested := true }

/-- The node at the end of that transfer. -/
def samplePublishedHost (journal : Journal) : Host :=
  { sampleHost journal true [] [] [sampleProgress.id] with live := samplePublished }

/-- The transfer fails; a cancellation is recorded and marked before the failure is saved and
published. -/
theorem marked_run {begun cancelled finished : Journal}
    (hcancel : begun.cancel sampleProgress.id 2 (fun _ => .done 2) = (cancelled, .ok ()))
    (hfinish : cancelled.finish sampleProgress.id .error 3 (fun _ => .done 2)
      = (finished, .ok ())) :
    Run (Step always) (sampleHost begun false [.transfer] [] []) (samplePublishedHost finished) := by
  refine .head (@Step.task _ _ _ _ _ [] [] _ _ rfl (.decide false rfl)) ?_
  refine .head (.cancel rfl rfl) ?_
  refine .head (@Step.cancelling _ _ _ _ _ [] [] _ _ rfl (.record 2 (fun _ => .done 2) hcancel)) ?_
  refine .head (@Step.cancelling _ _ _ _ _ [] [] _ _ rfl (.mark trivial)) ?_
  refine .head (@Step.task _ _ _ _ _ [] [] _ _ rfl (.finish 3 (fun _ => .done 2) hfinish)) ?_
  exact .head (@Step.task _ _ _ _ _ [] [] _ _ rfl (.publish rfl)) .refl

/-- The same with the cancellation before the transfer fails, which is the calm order. -/
theorem calm_run {begun cancelled finished : Journal}
    (hcancel : begun.cancel sampleProgress.id 2 (fun _ => .done 2) = (cancelled, .ok ()))
    (hfinish : cancelled.finish sampleProgress.id .cancelled 3 (fun _ => .done 2)
      = (finished, .ok ())) :
    Run (Step calm) (sampleHost begun false [.transfer] [] []) (samplePublishedHost finished) := by
  refine .head (.cancel rfl rfl) ?_
  refine .head (@Step.cancelling _ _ _ _ _ [] [] _ _ rfl (.record 2 (fun _ => .done 2) hcancel)) ?_
  refine .head (@Step.cancelling _ _ _ _ _ [] [] _ _ rfl (.mark ?_)) ?_
  · intro t ht _
    obtain rfl := List.mem_singleton.mp ht
    rintro (h | ⟨_, h⟩) <;> cases h
  refine .head (@Step.task _ _ _ _ _ [] [] _ _ rfl (.decide false rfl)) ?_
  refine .head (@Step.task _ _ _ _ _ [] [] _ _ rfl (.finish 3 (fun _ => .done 2) hfinish)) ?_
  exact .head (@Step.task _ _ _ _ _ [] [] _ _ rfl (.publish rfl)) .refl

theorem published_receipts {journal : Journal} {states : List State}
    (h : (journal.file.map fun db => db.records.toOption.map (·.map Receipt.state))
      = some (some states)) :
    ∃ rs, (samplePublishedHost journal).receipts = .ok rs ∧ rs.map Receipt.state = states := by
  simp only [samplePublishedHost, sampleHost, Host.receipts]
  cases hfile : journal.file with
  | none =>
    rw [hfile] at h
    cases h
  | some db =>
    rw [hfile] at h
    cases hrecords : db.records with
    | error msg => simp [hrecords, Except.toOption] at h
    | ok rs => exact ⟨rs, hrecords, by simpa [hrecords, Except.toOption] using h⟩

/-- The status of a download is not always that of its receipt. -/
theorem marked_download_disagrees : ¬∀ s, Run (Step always) .initial s →
    ∀ rs, s.receipts = .ok rs → s.live.Agrees rs := by
  intro hall
  obtain ⟨hbegun, hcancelled, hfinished, -, hread⟩ := sample_results
  obtain ⟨rs, hreceipts, hstates⟩ := published_receipts hread
  have hrun := (@begun_run always _ (answered_ok hbegun)).trans
    (marked_run (answered_ok hcancelled) (answered_ok hfinished))
  obtain ⟨r, hr, -, hstate⟩ := hall _ hrun rs hreceipts .cancelled (Or.inr (Or.inl rfl)) rfl
  have hmem := List.mem_map_of_mem (f := Receipt.state) hr
  rw [hstates, hstate, List.mem_singleton] at hmem
  cases hmem

/-- The agreement, with a download that has been admitted and then cancelled. -/
theorem calm_downloads_agree_cancelled :
    ∃ rs qs, Agreement (sampleHost sampleBegun.1 false [.transfer] [] []) rs
      ∧ Agreement (samplePublishedHost (sampleFinished .cancelled).1) qs
      ∧ Onward rs qs ∧ ∃ r ∈ qs, r.state = .cancelled := by
  obtain ⟨hbegun, hcancelled, -, hfinished, -⟩ := sample_results
  obtain ⟨rs, qs, hadmitted, hdone, honward⟩ := calm_downloads_agree
    (begun_run (answered_ok hbegun)) (calm_run (answered_ok hcancelled) (answered_ok hfinished))
  obtain ⟨r, hr, -, hstate⟩ := hdone.live .cancelled (Or.inr (Or.inl rfl)) rfl
  exact ⟨rs, qs, hadmitted, hdone, honward, r, hr, hstate⟩

end Eef.Node.Download
