import Eef.Coordinator.JournalPacing

/-!
# The ledger of schedules

What the operations on schedules keep, whatever order they come in and whatever clocks they read.
Only a claim and the two refusal commands read the whole history again before they commit; the others
save one record and rely on the rest, and `schedule_ledger` says that they may.

A definition is quiet when every claim it ever had was found resolved, but for the one in flight
(`Quiet`). A write keeps it so (`Arranges.quiet`): a schedule waits again only when its own claim was
found resolved, a new one is armed only when all claims of the definition were, and the start ends
schedules and revives none. A claim is made by a schedule that waits, so of a definition that is quiet
(`claims_keep_apart`).
-/

namespace Eef.Coordinator

open Eef.Lib Eef.Node

section
variable [F64] [PeerAdmission] [Sha256] [Planner] [Pairing] [ScopeCompiler]

namespace Store

variable {s t : Store}

/-! ## Quiet definitions -/

/-- The trigger is a claim of a schedule of the definition. -/
def ClaimOf (s : Store) (tr : Trigger) (definition : String) : Prop :=
  ∃ row ∈ s.schedules, row.record.id = tr.scheduleId ∧ row.record.definitionId = definition

/-- Every claim of a definition with an active schedule meets `F`, but for the one in flight. -/
def Quiet (F : Trigger → Prop) (s : Store) : Prop :=
  ∀ row ∈ s.schedules, row.record.state.active = true → ∀ tr ∈ s.triggers,
    s.ClaimOf tr row.record.definitionId → row.record.activeTrigger ≠ some tr.id → F tr

omit [F64] [PeerAdmission] [Sha256] [Planner] [Pairing] [ScopeCompiler] in
theorem Quiet.of_eq {F : Trigger → Prop} (hs : Quiet F s) (hschedules : t.schedules = s.schedules)
    (htriggers : t.triggers = s.triggers) : Quiet F t := by
  unfold Quiet ClaimOf
  rw [hschedules, htriggers]
  exact hs

omit [F64] [PeerAdmission] [Sha256] [Planner] [Pairing] [ScopeCompiler] in
theorem Quiet.mono {F G : Trigger → Prop} (hs : Quiet F s) (h : ∀ tr, F tr → G tr) : Quiet G s :=
  fun row hrow hactive tr htr hclaim hnot => h tr (hs row hrow hactive tr htr hclaim hnot)

theorem Replaces.claimOf {old row : ScheduleRow} (h : s.Replaces t old row)
    (hkept : old.record.Kept row.record) {tr : Trigger} {definition : String}
    (hclaim : t.ClaimOf tr definition) : s.ClaimOf tr definition := by
  obtain ⟨e, he, hid, hdefinition⟩ := hclaim
  rcases h.mem he with rfl | he
  · refine ⟨old, (Table.find_some h.found).1, h.id ▸ hid, ?_⟩
    rw [← hdefinition, hkept.same]
  · exact ⟨e, he, hid, hdefinition⟩

/-- A definition has one active schedule. -/
theorem Intact.sole (hs : s.Intact) {row row' : ScheduleRow} (hrow : row ∈ s.schedules)
    (hrow' : row' ∈ s.schedules) (hactive : row.record.state.active = true)
    (hactive' : row'.record.state.active = true)
    (hdefinition : row'.record.definitionId = row.record.definitionId) : row' = row := by
  have hmem : ∀ e ∈ s.schedules, e.record.state.active = true → e.record ∈ s.activeSchedules :=
    fun e he hstate => List.mem_filter.mpr ⟨List.mem_map_of_mem he, hstate⟩
  have hsame := List.inj_on_of_nodup_map hs.history.active (hmem row' hrow' hactive')
    (hmem row hrow hactive) hdefinition
  exact hs.schedules.eq hrow' hrow (congrArg Schedule.id hsame)

/-- A schedule that waits has no claim in flight. -/
theorem Intact.waits (hs : s.Intact) {row : ScheduleRow} (hrow : row ∈ s.schedules)
    (hstate : row.record.state = .waiting) : row.record.activeTrigger = none := by
  obtain ⟨a, d, -, -, hvalid, -⟩ := checkSchedule_ok (hs.history.schedules row hrow)
  obtain ⟨-, -, -, -, -, -, hshape⟩ := Schedule.validateData_ok.mp hvalid
  rw [hstate] at hshape
  exact hshape.2.2.1

/-- One write keeps a definition quiet, if what is found resolved before it meets `F`. -/
theorem Arranges.quiet {F : Trigger → Prop} (h : s.Arranges t) (hs : s.Intact) (hquiet : Quiet F s)
    (hF : ∀ tr ∈ s.triggers, s.resolvedClaim tr = .ok true → F tr) : Quiet F t := by
  have ht := h.intact hs
  cases h with
  | keeps h => exact h ▸ hquiet
  | @goes old row h htriggers hgoes hrefusal hrests =>
    intro e he hactive tr htr hclaim hnot
    rw [htriggers] at htr
    have hclaim := h.claimOf hgoes.kept hclaim
    rcases h.mem he with rfl | he
    · have hold := (Table.find_some h.found).1
      by_cases hin : old.record.activeTrigger = some tr.id
      · rcases hrests _ hin with hsame | hended | ⟨u, hu, hid, hresolved⟩
        · exact absurd hsame hnot
        · rw [hended] at hactive
          cases hactive
        · obtain rfl : u = tr :=
            (hs.history.keyed (f := Trigger.id) fun tr => by simp [Trigger.identities]).eq hu htr hid
          exact hF u htr hresolved
      · refine hquiet old hold (hgoes.active hactive) tr htr ?_ hin
        rw [hgoes.kept.same] at hclaim
        exact hclaim
    · exact hquiet e he hactive tr htr hclaim hnot
  | @claims old row tr h htriggers hclaims hfresh hrequest hhistory hresolved =>
    intro e he hactive tr' htr' hclaim hnot
    have hold := (Table.find_some h.found).1
    rw [htriggers, List.mem_append, List.mem_singleton] at htr'
    rcases htr' with htr' | rfl
    · have hclaim := h.claimOf hclaims.kept hclaim
      rcases h.mem he with rfl | he
      · have hwaiting : old.record.state.active = true := by
          rw [hclaims.waiting]
          rfl
        refine hquiet old hold hwaiting tr' htr' ?_ ?_
        · rw [hclaims.kept.same] at hclaim
          exact hclaim
        · rw [hs.waits hold hclaims.waiting]
          exact Option.some_ne_none _ ∘ Eq.symm
      · exact hquiet e he hactive tr' htr' hclaim hnot
    · -- the claim itself is the one in flight
      obtain ⟨f, hf, hid, hdefinition⟩ := hclaim
      have hrow : row ∈ t.schedules := by
        rw [h.schedules, Table.mem_update]
        exact ⟨old, hold, (if_pos (beq_iff_eq.mpr h.id.symm)).symm⟩
      obtain rfl : f = row := ht.schedules.eq hf hrow (by rw [hid, hclaims.own, h.id])
      have hflying : f.record.state.active = true := by
        rw [hclaims.flying]
        rfl
      obtain rfl := ht.sole hf he hflying hactive hdefinition.symm
      exact absurd hclaims.trigger hnot
  | @arms row hunclaimed hchecked hfresh halone hresolved h =>
    subst h
    intro e he hactive tr htr hclaim hnot
    have hclaim : s.ClaimOf tr e.record.definitionId := by
      obtain ⟨f, hf, hid, hdefinition⟩ := hclaim
      rcases List.mem_append.mp hf with hf | hf
      · exact ⟨f, hf, hid, hdefinition⟩
      · -- a schedule that is new has no claims
        rw [List.mem_singleton.mp hf] at hid
        have hown : tr ∈ s.ownTriggers row.record.id := by
          rw [ownTriggers, List.mem_insertionSort, List.mem_filter, decide_eq_true_eq]
          exact ⟨htr, hid.symm⟩
        rw [ownTriggers_fresh hs.history hfresh] at hown
        exact absurd hown List.not_mem_nil
    rcases List.mem_append.mp he with he | he
    · exact hquiet e he hactive tr htr hclaim hnot
    · rw [List.mem_singleton.mp he] at hclaim
      obtain ⟨f, hf, hid, hdefinition⟩ := hclaim
      have hall := List.all_eq_true.mp (hresolved f hf hdefinition) tr
        (List.mem_filter.mpr ⟨htr, by rw [decide_eq_true_eq, hid]⟩)
      refine hF tr htr ?_
      split at hall
      · next b hresult => rw [hresult, hall]
      · cases hall

/-- The start ends schedules, and revives none. -/
theorem Interrupts.quiet {F : Trigger → Prop} (h : s.Interrupts t) (hquiet : Quiet F s) : Quiet F t := by
  obtain ⟨old, row, hreplaces, hkept, hended⟩ := h.ends
  intro e he hactive tr htr hclaim hnot
  rw [h.triggers] at htr
  rcases hreplaces.mem he with rfl | he
  · rw [hended] at hactive
    cases hactive
  · exact hquiet e he hactive tr htr (hreplaces.claimOf hkept hclaim) hnot

/-- What a command does to schedules and claims: nothing, one write, or the start. -/
theorem Command.arranged (h : Command s t) (hs : s.Intact) :
    t.schedules = s.schedules ∧ t.triggers = s.triggers ∨ s.Arranges t ∨ Run Interrupts s t := by
  have hgoverns : s.Governs t → t.schedules = s.schedules ∧ t.triggers = s.triggers :=
    fun h => ⟨by rw [h.rest], by rw [h.rest]⟩
  have hemploys : s.Employs t → t.schedules = s.schedules ∧ t.triggers = s.triggers :=
    fun h => ⟨by rw [h.rest], by rw [h.rest]⟩
  have hsettles : s.Settles t → t.schedules = s.schedules ∧ t.triggers = s.triggers :=
    fun h => ⟨by rw [h.rest], by rw [h.rest]⟩
  cases h with
  | define c origin now h => exact .inl (hgoverns (define_governs hs h))
  | remove c origin h => exact .inl (hgoverns (remove_governs hs h))
  | approve c candidate runtime now h => exact .inl (hgoverns (approve_governs hs h))
  | revoke c runtime now h => exact .inl (hgoverns (revoke_governs hs h))
  | insert p now saved h => exact .inl (hemploys (insertJob_employs hs h))
  | request p now saved h => exact .inl (hemploys (admitRequest_employs hs h))
  | edit id event gate now saved f hf h => exact .inl (hemploys (editJob_employs hs hf h))
  | removeFinished id h => exact .inl (hemploys (removeFinished_employs hs h))
  | reserve c runtime issuer now saved commit h => exact .inl (hsettles (reserve_settles hs h))
  | archive c runtime now commit h => exact .inl (hsettles (archive_settles hs h))
  | arm c runtime issuer now commit h => exact .inr (.inl (scheduleArm_arranges h))
  | claim id runtime issuer drawn now commit hfresh h =>
    exact .inr (.inl (scheduleClaimDue_arranges hfresh h))
  | stop id operation revision now h => exact .inr (.inl (scheduleStop_arranges h))
  | settle id runtime issuer now h => exact .inr (.inl (scheduleSettle_arranges h))
  | beginLaunch id runtime now commit hnow h => exact .inr (.inl (triggerBeginLaunch_arranges h))
  | recordRefusal id runtime now hnow h => exact .inr (.inl (triggerRecordRefusal_arranges h))
  | resolveRefusal id trigger hash operation revision now h =>
    exact .inr (.inl (resolveTriggerRefusal_arranges h))
  | interrupt id reason now h => exact .inr (.inl (scheduleInterruptNow_arranges h))
  | interruptTrigger id reason now h => exact .inr (.inl (triggerInterruptNow_arranges h))
  | reopen clock h => exact .inr (.inr (interruptOnOpen_interrupts hs h))
  | other h => exact .inl ⟨by rw [h], by rw [h]⟩

theorem Interrupts.run_quiet {F : Trigger → Prop} (h : Run Interrupts s t) (hquiet : Quiet F s) :
    Quiet F t ∧ t.triggers = s.triggers :=
  Run.invariant (I := fun u => Quiet F u ∧ u.triggers = s.triggers)
    (fun _ _ hs h => ⟨h.quiet hs.1, h.triggers.trans hs.2⟩) ⟨hquiet, rfl⟩ h

theorem Command.quiet {F : Trigger → Prop} (h : Command s t) (hs : s.Intact) (hquiet : Quiet F s)
    (hF : ∀ tr ∈ s.triggers, s.resolvedClaim tr = .ok true → F tr) : Quiet F t := by
  rcases h.arranged hs with ⟨hschedules, htriggers⟩ | h | h
  · exact hquiet.of_eq hschedules htriggers
  · exact h.quiet hs hquiet hF
  · exact (Interrupts.run_quiet h hquiet).1

/-- The claim was found resolved in one of the states. -/
def FoundResolved (past : List Store) (tr : Trigger) : Prop :=
  ∃ u ∈ past, tr ∈ u.triggers ∧ u.resolvedClaim tr = .ok true

/-- A run in which no definition but those with a claim in flight has one that was not found
resolved. -/
theorem trail_quiet {maxCount maxBytes : Nat} {past : List Store}
    (h : Trail Turn (fresh maxCount maxBytes) past s) : s.Sound ∧ Quiet (FoundResolved past) s := by
  induction h with
  | start => exact ⟨fresh_sound maxCount maxBytes, fun row hrow => absurd hrow List.not_mem_nil⟩
  | @turn past s t _ hturn ih =>
    obtain ⟨hs, hquiet⟩ := ih
    refine ⟨hturn.sound hs, hturn.command.quiet hs.intact (F := FoundResolved (s :: past)) ?_ ?_⟩
    · refine hquiet.mono fun tr hfound => ?_
      obtain ⟨u, hu, htr, hresolved⟩ := hfound
      exact ⟨u, List.mem_cons_of_mem _ hu, htr, hresolved⟩
    · exact fun tr htr hresolved => ⟨s, List.mem_cons_self .., htr, hresolved⟩

/-- A command adds one claim at most, of a schedule that waits for it. -/
theorem Command.claims (h : Command s t) (hs : s.Intact) :
    t.triggers = s.triggers ∨ ∃ row ∈ s.schedules, ∃ tr, t.triggers = s.triggers ++ [tr] ∧
      tr.scheduleId = row.record.id ∧ row.record.state = .waiting ∧
      s.definitionResolved row.record.definitionId = .ok true := by
  rcases h.arranged hs with ⟨-, htriggers⟩ | h | h
  · exact .inl htriggers
  · cases h with
    | keeps h => exact .inl (by rw [h])
    | goes h htriggers => exact .inl htriggers
    | @claims old row tr h htriggers hclaims hfresh hrequest hhistory hresolved =>
      exact .inr ⟨old, (Table.find_some h.found).1, tr, htriggers, hclaims.own, hclaims.waiting, hresolved⟩
    | arms hunclaimed hchecked hfresh halone hresolved h => exact .inl (by rw [h])
  · have hnone : Quiet (fun _ => True) s := fun _ _ _ _ _ _ _ => trivial
    exact .inl (Interrupts.run_quiet h hnone).2

/-! ## The pace of the claims -/

/-- A schedule is armed for less than the clock can tell. -/
theorem Intact.expires (hs : s.Intact) {row : ScheduleRow} (hrow : row ∈ s.schedules) :
    row.record.expiresAtMs ≤ u64Max := by
  obtain ⟨a, d, ha, -, hvalid, -⟩ := checkSchedule_ok (hs.history.schedules row hrow)
  obtain ⟨-, hbounded, -⟩ := Schedule.validateData_ok.mp hvalid
  simp only [Schedule.bounded] at hbounded
  obtain ⟨-, -, -, -, -, -, -, -, -, -, hexpires, -⟩ := hbounded
  obtain ⟨p, -, hcheck, rfl⟩ := policyOf_iff.mp ha
  simp only [checkPolicy, Authorization.validateFor, Authorization.validate, bind_ok, ensure_ok] at hcheck
  obtain ⟨_, -, _, ⟨_, ⟨_, -, _, -, _, -, _, -, _, hlimits, -⟩, -⟩, -⟩ := hcheck
  simp only [Authorization.bounded] at hlimits
  rw [hexpires]
  exact hlimits.2.2.2.2.2.2.1

/-- All claims of a schedule are an interval apart, and so their due times differ. -/
theorem Intact.apart (hs : s.Intact) {row : ScheduleRow} (hrow : row ∈ s.schedules)
    (hpaced : s.PacedRow row.record) : (s.ownTriggers row.record.id).Pairwise fun a b =>
      a.claimedAtMs + row.record.everyMs ≤ b.claimedAtMs ∧ a.dueAtMs < b.dueAtMs := by
  let later : Trigger → Trigger → Prop := fun a b =>
    a.claimedAtMs + row.record.everyMs ≤ b.dueAtMs ∧ b.dueAtMs ≤ b.claimedAtMs
  have htrans : IsTrans Trigger later := ⟨fun a b c hab hbc => by
    obtain ⟨hab, hb⟩ := hab
    obtain ⟨hbc, hc⟩ := hbc
    exact ⟨by omega, hc⟩⟩
  have hchain : (s.ownTriggers row.record.id).IsChain later :=
    hpaced.apart.imp_of_mem_imp fun a b _ hb hle => ⟨hle, (hs.in_time hrow hb).2.1⟩
  refine (List.isChain_iff_pairwise.mp hchain).imp_of_mem fun {a b} ha hb hlater => ?_
  obtain ⟨-, hdue, hwithin, -⟩ := hs.in_time hrow ha
  obtain ⟨hapart, hb⟩ := hlater
  exact ⟨by omega, by omega⟩

/-- **One claim at a time, an interval apart.** Over any run, whatever clocks it read: the claims of a
schedule are an interval apart and no two have one due time; each is due an interval after the
schedule was armed or later, and is made within an interval of its due time, before the schedule
ends. A command adds one claim at most, and when it does, the job of every reservation of that
definition came to an end, and every earlier claim for it was found resolved before. A launch that is
allowed is not allowed again. -/
theorem claims_keep_apart {maxCount maxBytes : Nat} {past : List Store}
    (h : Trail Turn (fresh maxCount maxBytes) past s) :
    (∀ tr ∈ s.triggers, ∃ row ∈ s.schedules, tr ∈ s.ownTriggers row.record.id) ∧
    (∀ row ∈ s.schedules,
      ((s.ownTriggers row.record.id).Pairwise fun a b =>
        a.claimedAtMs + row.record.everyMs ≤ b.claimedAtMs ∧ a.dueAtMs < b.dueAtMs) ∧
      ∀ tr ∈ s.ownTriggers row.record.id,
        row.record.armedAtMs + row.record.everyMs ≤ tr.dueAtMs ∧ tr.dueAtMs ≤ tr.claimedAtMs ∧
        tr.claimedAtMs < tr.dueAtMs + row.record.everyMs ∧ tr.claimedAtMs < row.record.expiresAtMs) ∧
    (∀ t, Turn s t → t.triggers = s.triggers ∨ ∃ row ∈ s.schedules, ∃ tr,
      t.triggers = s.triggers ++ [tr] ∧ tr.scheduleId = row.record.id ∧
      s.definitionResolved row.record.definitionId = .ok true ∧
      ∀ tr' ∈ s.triggers, s.ClaimOf tr' row.record.definitionId → FoundResolved past tr') ∧
    ∀ id runtime now commit t, s.triggerBeginLaunch id runtime now commit = .ok (t, true) →
      ∀ u, Run Turn t u → ∀ runtime' now' commit' v,
        u.triggerBeginLaunch id runtime' now' commit' ≠ .ok (v, true) := by
  obtain ⟨hs, hquiet⟩ := trail_quiet h
  have hpaced := Written.paced ⟨maxCount, maxBytes, h.run⟩
  refine ⟨fun tr htr => ?_, fun row hrow => ⟨hs.intact.apart hrow (hpaced row hrow), fun tr htr => ?_⟩,
    fun t hturn => ?_, ?_⟩
  · have hcheck := hs.intact.history.triggers tr htr
    simp only [checkTrigger, bind_ok] at hcheck
    obtain ⟨sch, hread, -⟩ := hcheck
    obtain ⟨row, hfind, -, -⟩ := scheduleOf_iff.mp hread
    obtain ⟨hrow, hid⟩ := Table.find_some hfind
    refine ⟨row, hrow, ?_⟩
    rw [ownTriggers, List.mem_insertionSort, List.mem_filter, decide_eq_true_eq]
    exact ⟨htr, hid.symm⟩
  · obtain ⟨harmed, hdue, hwithin, hexpires⟩ := hs.intact.in_time hrow htr
    have hlast := hs.intact.expires hrow
    refine ⟨?_, hdue, hwithin, hexpires⟩
    omega
  · rcases hturn.command.claims hs.intact with hsame | ⟨row, hrow, tr, htriggers, hown, hwaiting, hresolved⟩
    · exact .inl hsame
    · refine .inr ⟨row, hrow, tr, htriggers, hown, hresolved, fun tr' htr' hclaim => ?_⟩
      refine hquiet row hrow (by rw [hwaiting]; rfl) tr' htr' hclaim ?_
      rw [hs.intact.waits hrow hwaiting]
      exact Option.some_ne_none _ ∘ Eq.symm
  · intro id runtime now commit t hlaunch u hrun runtime' now' commit' v
    exact hs.intact.launches_once hlaunch hrun

/-! ## The ledger -/

/-- An operation on schedules, with what it reads of clocks and draws. -/
inductive ScheduleOperation where
  | arm (c : Arm) (runtime issuer : String) (now commit : Nat)
  | claimDue (id runtime issuer : String) (drawn : Drawn) (now commit : Nat)
  | beginLaunch (id runtime : String) (now commit : Nat)
  | recordRefusal (id runtime : String) (now : Nat)
  | resolveRefusal (id trigger hash operation : String) (revision now : Nat)
  | stop (id operation : String) (revision now : Nat)
  | settle (id runtime issuer : String) (now : Nat)
  | interruptNow (id reason : String) (now : Nat)
  | triggerInterruptNow (id reason : String) (now : Nat)
  | interruptOnOpen (clock : Nat → Nat)

/-- The journal that an operation commits. -/
def perform (s : Store) : ScheduleOperation → Result Store
  | .arm c runtime issuer now commit => (s.scheduleArm c runtime issuer now commit).map Prod.fst
  | .claimDue id runtime issuer drawn now commit =>
    (s.scheduleClaimDue id runtime issuer drawn now commit).map Prod.fst
  | .beginLaunch id runtime now commit => (s.triggerBeginLaunch id runtime now commit).map Prod.fst
  | .recordRefusal id runtime now => (s.triggerRecordRefusal id runtime now).map Prod.fst
  | .resolveRefusal id trigger hash operation revision now =>
    (s.resolveTriggerRefusal id revision trigger hash operation now).map Prod.fst
  | .stop id operation revision now => (s.scheduleStop id revision operation now).map Prod.fst
  | .settle id runtime issuer now => (s.scheduleSettle id runtime issuer now).map Prod.fst
  | .interruptNow id reason now => (s.scheduleInterruptNow id reason now).map Prod.fst
  | .triggerInterruptNow id reason now => (s.triggerInterruptNow id reason now).map Prod.fst
  | .interruptOnOpen clock => s.interruptOnOpen clock

/-- The journal after it: what a failed operation wrote is rolled back. -/
def after (s : Store) (op : ScheduleOperation) : Store :=
  match s.perform op with
  | .ok t => t
  | .error _ => s

theorem perform_claim {id runtime issuer : String} {drawn : Drawn} {now commit : Nat}
    {r : Option Trigger} (h : s.scheduleClaimDue id runtime issuer drawn now commit = .ok (t, r)) :
    s.perform (.claimDue id runtime issuer drawn now commit) = .ok t := by
  show (s.scheduleClaimDue id runtime issuer drawn now commit).map Prod.fst = _
  rw [h]
  rfl

theorem after_ok {op : ScheduleOperation} (h : s.perform op = .ok t) : s.after op = t := by
  unfold after
  rw [h]

/-- The clocks that are recorded are 64 bits wide, and a request id that is drawn is new. -/
def Typed (s : Store) : ScheduleOperation → Prop
  | .claimDue _ _ _ drawn _ _ => s.FreshRequest drawn.request
  | .beginLaunch _ _ now _ | .recordRefusal _ _ now => now ≤ u64Max
  | _ => True

theorem Arranges.authorizations (h : s.Arranges t) : t.authorizations = s.authorizations := by
  cases h with
  | keeps h => rw [h]
  | goes h htriggers hgoes hrefusal hrests => rw [h.rest]
  | claims h htriggers hclaims hfresh hrequest hhistory hresolved => rw [h.rest]
  | arms hunclaimed hchecked hfresh halone hresolved h => rw [h]

/-- An operation that commits is a command, and leaves the policies as they are. -/
theorem perform_command (hs : s.Intact) {op : ScheduleOperation} (hop : s.Typed op)
    (h : s.perform op = .ok t) : Command s t ∧ t.authorizations = s.authorizations := by
  have hfst : ∀ {α : Type} {r : Result (Store × α)}, r.map Prod.fst = .ok t → ∃ a, r = .ok (t, a) := by
    intro α r h
    cases r with
    | error msg => cases h
    | ok r =>
      cases h
      exact ⟨r.2, rfl⟩
  cases op with
  | arm c runtime issuer now commit =>
    obtain ⟨r, h⟩ := hfst h
    exact ⟨.arm c runtime issuer now commit h, (scheduleArm_arranges h).authorizations⟩
  | claimDue id runtime issuer drawn now commit =>
    obtain ⟨r, h⟩ := hfst h
    exact ⟨.claim id runtime issuer drawn now commit hop h, (scheduleClaimDue_arranges hop h).authorizations⟩
  | beginLaunch id runtime now commit =>
    obtain ⟨r, h⟩ := hfst h
    exact ⟨.beginLaunch id runtime now commit hop h, (triggerBeginLaunch_arranges h).authorizations⟩
  | recordRefusal id runtime now =>
    obtain ⟨r, h⟩ := hfst h
    exact ⟨.recordRefusal id runtime now hop h, (triggerRecordRefusal_arranges h).authorizations⟩
  | resolveRefusal id trigger hash operation revision now =>
    obtain ⟨r, h⟩ := hfst h
    exact ⟨.resolveRefusal id trigger hash operation revision now h,
      (resolveTriggerRefusal_arranges h).authorizations⟩
  | stop id operation revision now =>
    obtain ⟨r, h⟩ := hfst h
    exact ⟨.stop id operation revision now h, (scheduleStop_arranges h).authorizations⟩
  | settle id runtime issuer now =>
    obtain ⟨r, h⟩ := hfst h
    exact ⟨.settle id runtime issuer now h, (scheduleSettle_arranges h).authorizations⟩
  | interruptNow id reason now =>
    obtain ⟨r, h⟩ := hfst h
    exact ⟨.interrupt id reason now h, (scheduleInterruptNow_arranges h).authorizations⟩
  | triggerInterruptNow id reason now =>
    obtain ⟨r, h⟩ := hfst h
    exact ⟨.interruptTrigger id reason now h, (triggerInterruptNow_arranges h).authorizations⟩
  | interruptOnOpen clock =>
    exact ⟨.reopen clock h, Run.invariant (I := fun u => u.authorizations = s.authorizations)
      (fun _ _ hu h => h.authorizations.trans hu) rfl (interruptOnOpen_arranges hs h)⟩

/-- A turn of the ledger: an operation, committed or rolled back, or another turn of the journal. -/
inductive LedgerTurn (s t : Store) : Prop where
  | operation (op : ScheduleOperation) (hop : s.Typed op) (h : t = s.after op)
  | other (h : Turn s t)

theorem Written.counted (hs : s.Written) : s.authorizations.length ≤ u64Max := by
  obtain ⟨maxCount, maxBytes, hrun⟩ := hs
  cases hrun with
  | refl => exact Nat.zero_le _
  | tail _ hturn => exact hturn.counted

/-- What fails leaves the journal, and what commits is a turn of it. -/
theorem LedgerTurn.run (h : LedgerTurn s t) (hs : s.Written) : Run Turn s t := by
  cases h with
  | other h => exact .single h
  | operation op hop h =>
    subst h
    unfold after
    cases hresult : s.perform op with
    | error msg => exact .refl
    | ok t =>
      obtain ⟨hcommand, hpolicies⟩ := perform_command hs.sound.intact hop hresult
      exact .single ⟨hcommand, hpolicies ▸ hs.counted⟩

theorem Written.run (hs : s.Written) (h : Run Turn s t) : t.Written := by
  obtain ⟨maxCount, maxBytes, hrun⟩ := hs
  exact ⟨maxCount, maxBytes, hrun.trans h⟩

theorem ledger_run (hs : s.Written) (h : Run LedgerTurn s t) : t.Written ∧ Run Turn s t := by
  induction h with
  | refl => exact ⟨hs, .refl⟩
  | tail _ hturn ih =>
    obtain ⟨ht, hrun⟩ := ih
    have hlast := hturn.run ht
    exact ⟨ht.run hlast, hrun.trans hlast⟩

/-- A schedule that ended stays so. -/
theorem Sound.ended (hs : s.Sound) (h : Run Turn s t) {id : String} (hended : s.Ended id) : t.Ended id :=
  (Run.invariant (I := fun u => u.Sound ∧ u.Ended id)
    (fun _ _ hu h => ⟨h.sound hu.1, (h.step hu.1.intact).ended hu.1.scheduled hu.2⟩) ⟨hs, hended⟩ h).2

/-- **The ledger of schedules.** Whatever operations come in whatever order and whatever clocks they
read, the whole history is valid: a definition has one active schedule at most; the claims of a
schedule are numbered 1, 2, ... as it counts them, within the runs of its policy, and the one in
flight is the last; a schedule that ended never waits or claims again. An operation that fails leaves
schedules and claims as they were. -/
theorem schedule_ledger (hs : s.Written) (h : Run LedgerTurn s t) :
    t.validatedHistory = .ok () ∧
    (∀ row ∈ t.schedules, ∀ row' ∈ t.schedules, row.record.state.active = true →
      row'.record.state.active = true → row'.record.definitionId = row.record.definitionId →
      row' = row) ∧
    (∀ row ∈ t.schedules,
      (t.ownTriggers row.record.id).map (·.ordinal) = List.range' 1 row.record.claimedRuns ∧
      (∃ a, t.policyOf row.record.creation.policy = .ok a ∧
        row.record.claimedRuns ≤ a.creation.maxRuns) ∧
      ∀ id, row.record.activeTrigger = some id →
        ∃ tr, (t.ownTriggers row.record.id).getLast? = some tr ∧ tr.id = id) ∧
    (∀ row ∈ s.schedules, row.record.state.active = false →
      ∃ row' ∈ t.schedules, row'.record.id = row.record.id ∧ row'.record.state.active = false) ∧
    (t.schedules.map fun row => row.record.id).Nodup ∧
    ∀ op msg, t.perform op = .error msg →
      (t.after op).schedules = t.schedules ∧ (t.after op).triggers = t.triggers := by
  obtain ⟨ht, hrun⟩ := ledger_run hs h
  have hintact := ht.sound.intact
  refine ⟨hintact.occurrences.history, fun row hrow row' hrow' hactive hactive' hdefinition =>
    hintact.sole hrow hrow' hactive hactive' hdefinition, fun row hrow => ?_, fun row hrow hended =>
    hs.sound.ended hrun ⟨row, hrow, rfl, hended⟩, hintact.schedules, fun op msg hfailed => ?_⟩
  · obtain ⟨hordinals, hlast⟩ := hintact.numbered hrow
    refine ⟨hordinals, ?_, fun id hid => ?_⟩
    · obtain ⟨a, d, ha, -, hvalid, -⟩ := checkSchedule_ok (hintact.history.schedules row hrow)
      obtain ⟨-, hbounded, -⟩ := Schedule.validateData_ok.mp hvalid
      simp only [Schedule.bounded] at hbounded
      obtain ⟨-, -, -, -, -, -, -, -, -, -, -, -, -, -, -, -, hruns, -⟩ := hbounded
      exact ⟨a, ha, hruns⟩
    · have hown := hlast id hid
      cases hfind : (t.ownTriggers row.record.id).getLast? with
      | none =>
        rw [hfind] at hown
        cases hown
      | some tr =>
        rw [hfind, Option.any_some, beq_iff_eq] at hown
        exact ⟨tr, rfl, hown⟩
  · unfold after
    rw [hfailed]
    exact ⟨rfl, rfl⟩

end Store

end

/-! ## The claim of a schedule -/

section
attribute [local instance] F64.bits PeerAdmission.never scheduleSha schedulePlanner Pairing.never
  ScopeCompiler.always

/-- How the journal with the armed schedule came about. -/
theorem armedStore_trail :
    ∃ past, Trail Store.Turn (Store.fresh 16 (64 * maxRecordBytes)) past armedStore := by
  have hrequested := Store.requested_turn.sound (Store.fresh_sound _ _)
  have hcompiled := (Store.compiled_turn hrequested).sound hrequested
  exact ⟨_, .turn (.turn (.turn (.turn (.turn .start Store.requested_turn) (Store.compiled_turn hrequested))
    (Store.defined_turn hcompiled)) Store.approved_turn) Store.armed_turn⟩

/-- The schedule claims its first run in time, when no reservation is open, and launches it once. -/
theorem claims_keep_apart_launched :
    (∃ row ∈ armedStore.schedules, row.record.id = scheduleTrigger.scheduleId ∧
      armedStore.definitionResolved row.record.definitionId = .ok true) ∧
    scheduleTrigger ∈ claimedStore.triggers ∧
    scheduleArmed.armedAtMs + scheduleArmed.everyMs ≤ scheduleTrigger.dueAtMs ∧
    scheduleTrigger.claimedAtMs < scheduleTrigger.dueAtMs + scheduleArmed.everyMs ∧
    ∀ u, Run Store.Turn launchedStore u → ∀ now commit v,
      u.triggerBeginLaunch scheduleTrigger.id schedulePolicy.runtimeId now commit ≠ .ok (v, true) := by
  obtain ⟨past, htrail⟩ := armedStore_trail
  have htrigger : scheduleTrigger ∈ claimedStore.triggers := List.mem_singleton.mpr rfl
  obtain ⟨-, -, hclaims, -⟩ := Store.claims_keep_apart htrail
  obtain ⟨hrows, hpace, -, hlaunch⟩ := Store.claims_keep_apart (htrail.turn claimed_turn)
  refine ⟨?_, htrigger, ?_⟩
  · rcases hclaims _ claimed_turn with hnone | ⟨row, hrow, tr, htriggers, hown, hresolved, -⟩
    · cases hnone
    · obtain rfl : scheduleTrigger = tr := List.singleton_inj.mp htriggers
      exact ⟨row, hrow, hown.symm, hresolved⟩
  · obtain ⟨row, hrow, hown⟩ := hrows _ htrigger
    obtain ⟨harmed, -, hwithin, -⟩ := (hpace row hrow).2 _ hown
    obtain rfl := List.mem_singleton.mp hrow
    have hlaunched := schedule_launched claimedStore_written.sound
    exact ⟨harmed, hwithin, fun u hrun now commit v => hlaunch _ _ _ _ _ hlaunched u hrun _ now commit v⟩

/-- The schedule claims its first run; an operation that is refused then changes nothing. -/
theorem schedule_ledger_claimed :
    claimedStore.validatedHistory = .ok () ∧
    (claimedStore.ownTriggers scheduleArmed.id).map (·.ordinal) = [1] ∧
    (claimedStore.ownTriggers scheduleArmed.id).getLast? = some scheduleTrigger ∧
    (claimedStore.after (.stop scheduleArmed.id "" 2 4000)).schedules = claimedStore.schedules := by
  have hclaimed : armedStore.perform (.claimDue scheduleArmed.id schedulePolicy.runtimeId
      schedulePolicy.issuerId scheduleDrawn 3000 3000) = .ok claimedStore :=
    Store.perform_claim schedule_claimed
  have hturn : Store.LedgerTurn armedStore claimedStore :=
    .operation (.claimDue scheduleArmed.id schedulePolicy.runtimeId schedulePolicy.issuerId scheduleDrawn
      3000 3000) scheduleDrawn_fresh (Store.after_ok hclaimed).symm
  obtain ⟨hhistory, -, hclaims, -, -, hrefused⟩ := Store.schedule_ledger
    (Store.scheduleStore_written.turn Store.armed_turn) (.single hturn)
  obtain ⟨hordinals, -, hlast⟩ := hclaims _ (List.mem_singleton.mpr rfl)
  obtain ⟨tr, hown, -⟩ := hlast _ rfl
  have hown : (claimedStore.ownTriggers scheduleArmed.id).getLast? = some tr := hown
  have htr := List.mem_of_getLast? hown
  rw [Store.ownTriggers, List.mem_insertionSort, List.mem_filter] at htr
  obtain rfl := List.mem_singleton.mp htr.1
  exact ⟨hhistory, hordinals, hown, (hrefused _ _ rfl).1⟩

end

end Eef.Coordinator
