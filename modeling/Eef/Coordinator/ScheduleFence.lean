import Eef.Coordinator.ScheduleWrites

/-!
# Fencing a schedule

A stop or an interruption of a schedule is always written. Its row is charged the same before and
after, so the quota lets it through however full the journal is (`Store.quota_full`), and the record
it writes fits, since everything in a checked record has a bound (`Schedule.Bounds.size_le`). All
that remains in the way is a journal that does not read back.
-/

namespace Eef.Coordinator

open Eef.Lib Eef.Node

section
variable [F64]

/-! ## The length of a record -/

/-- The length of an object whose keys are short. -/
theorem Json.obj_size_le {fs : List (String × Json)} (h : ∀ f ∈ fs, Json.strSize f.1 ≤ 24) :
    (Json.obj fs).size ≤ 2 + ((fs.map fun f => f.2.size).sum + 26 * fs.length) := by
  have hfields : Json.fieldsSize fs ≤ (fs.map fun f => f.2.size).sum + 26 * fs.length := by
    induction fs with
    | nil => exact Nat.zero_le _
    | cons f fs ih =>
      obtain ⟨k, j⟩ := f
      rw [List.forall_mem_cons] at h
      have hk : Json.strSize k ≤ 24 := h.1
      have ih := ih h.2
      cases fs with
      | nil =>
        simp only [Json.fieldsSize, List.map_cons, List.map_nil, List.sum_cons, List.sum_nil,
          List.length_cons, List.length_nil]
        omega
      | cons g gs =>
        rw [Json.fieldsSize, List.map_cons, List.sum_cons, List.length_cons]
        · show _ + 1 + _ + 1 + _ ≤ j.size + _ + _
          omega
        · intros
          contradiction
  rw [Json.size]
  omega

theorem optionalField_size {α : Type} {key : String} {f : α → Json} {o : Option α} {n : Nat}
    (h : ∀ a ∈ o, (f a).size ≤ n) :
    ((optionalField key f o).map fun f => f.2.size).sum ≤ n ∧ (optionalField key f o).length ≤ 1 := by
  cases o with
  | none => exact ⟨Nat.zero_le _, Nat.zero_le _⟩
  | some a => exact ⟨h a rfl, Nat.le_refl 1⟩

omit [F64] in
theorem optionalField_key {α : Type} {key : String} {f : α → Json} {o : Option α}
    (h : Json.strSize key ≤ 24) : ∀ e ∈ optionalField key f o, Json.strSize e.1 ≤ 24 := by
  cases o with
  | none => exact fun _ he => absurd he List.not_mem_nil
  | some a =>
    intro e he
    rw [List.mem_singleton.mp he]
    exact h

theorem ofOption_size {α : Type} {f : α → Json} {o : Option α} {n : Nat}
    (h : ∀ a ∈ o, (f a).size ≤ n) (hn : 4 ≤ n) : (Json.ofOption f o).size ≤ n := by
  cases o with
  | none => exact hn
  | some a => exact h a rfl

theorem nat_size {n : Nat} (h : n ≤ u64Max) : (Json.nat n).size ≤ 20 := by
  rw [Json.nat, Json.size, Json.numSize]
  exact Json.natSize_le_u64 (Nat.lt_of_le_of_lt h (by decide))

theorem uuid_size {s : String} (h : uuid s = true) : (Json.str s).size ≤ 38 := by
  rw [Json.size]
  exact strSize_uuid h

theorem hexDigest_size {s : String} (h : hexDigest s = true) : (Json.str s).size ≤ 66 := by
  rw [Json.size]
  exact strSize_hexDigest h

theorem armJson_size {c : Arm} (hpolicy : uuid c.policy = true)
    (hsha : hexDigest c.policySha256 = true) (hoperation : uuid c.operationId = true) :
    (Schedule.armJson c).size ≤ 222 := by
  have h1 := uuid_size hpolicy
  have h2 := hexDigest_size hsha
  have h3 := uuid_size hoperation
  rw [Schedule.armJson]
  refine Nat.le_trans (Json.obj_size_le ?_) ?_
  · simp only [List.forall_mem_cons]
    exact ⟨by decide, by decide, by decide, nofun⟩
  · simp only [List.map_cons, List.map_nil, List.sum_cons, List.sum_nil, List.length_cons,
      List.length_nil]
    omega

theorem stopJson_size {r : StopReceipt} (hoperation : uuid r.operationId = true)
    (hrevision : r.sourceRevision ≤ u64Max) : (Schedule.stopJson r).size ≤ 112 := by
  have h1 := uuid_size hoperation
  have h2 := nat_size hrevision
  rw [Schedule.stopJson]
  refine Nat.le_trans (Json.obj_size_le ?_) ?_
  · simp only [List.forall_mem_cons]
    exact ⟨by decide, by decide, nofun⟩
  · simp only [List.map_cons, List.map_nil, List.sum_cons, List.sum_nil, List.length_cons,
      List.length_nil]
    omega

/-- A refusal in the record of a schedule. -/
structure Refusal.Bounds (r : Refusal) : Prop where
  schema : r.schemaVersion = 1
  trigger : uuid r.triggerId = true
  triggerSha256 : hexDigest r.triggerSha256 = true
  runtime : uuid r.runtimeId = true
  observed : r.observedAtMs ≤ u64Max
  phase : r.phase = "refused_before_launch"
  digest : hexDigest r.refusalSha256 = true

theorem Refusal.Bounds.size_le {r : Refusal} (h : r.Bounds) : r.toJson.size ≤ 460 := by
  have h0 : (Json.nat r.schemaVersion).size ≤ 20 := nat_size (by rw [h.schema]; decide)
  have h1 := uuid_size h.trigger
  have h2 := hexDigest_size h.triggerSha256
  have h3 := uuid_size h.runtime
  have h4 := nat_size h.observed
  have h5 : (Json.str r.phase).size ≤ 23 := by
    rw [h.phase, Json.size]
    decide
  have h6 := hexDigest_size h.digest
  rw [Refusal.toJson, Refusal.fields, List.cons_append, List.cons_append, List.cons_append,
    List.cons_append, List.cons_append, List.cons_append, List.nil_append]
  refine Nat.le_trans (Json.obj_size_le ?_) ?_
  · simp only [List.forall_mem_cons]
    exact ⟨by decide, by decide, by decide, by decide, by decide, by decide, by decide, (by intros; contradiction)⟩
  · simp only [List.map_cons, List.map_nil, List.sum_cons, List.sum_nil, List.length_cons,
      List.length_nil]
    omega

/-- Everything in the record has a bound; its refusal, if there is one, is not resolved yet. -/
structure Schedule.Bounds (s : Schedule) : Prop where
  schema : s.schemaVersion = 1
  id : uuid s.id = true
  operation : s.creation.operationId = s.id
  policy : uuid s.creation.policy = true
  policySha256 : hexDigest s.creation.policySha256 = true
  definition : uuid s.definitionId = true
  runtime : uuid s.runtimeId = true
  issuer : hexDigest s.issuerId = true
  numbers : ∀ n ∈ [s.generation, s.armedAtMs, s.expiresAtMs, s.everyMs, s.revision, s.observedAtMs,
    s.claimedRuns], n ≤ u64Max
  due : ∀ n ∈ s.nextDueMs, n ≤ u64Max
  trigger : ∀ t ∈ s.activeTrigger, uuid t = true
  launch : ∀ n ∈ s.launchStartedAtMs, n ≤ u64Max
  refusal : ∀ r ∈ s.refusal, r.Bounds
  resolution : s.refusalResolution = none
  stop : ∀ r ∈ s.stop, uuid r.operationId = true ∧ r.sourceRevision ≤ u64Max
  reason : ∀ r ∈ s.reason, Json.strSize r ≤ 24
  digest : hexDigest s.recordSha256 = true

/-- A bounded record is as short as the table wants it. -/
theorem Schedule.Bounds.size_le {s : Schedule} (h : s.Bounds) : s.toJson.size ≤ scheduleCost := by
  have hschema : (Json.nat s.schemaVersion).size ≤ 20 := nat_size (by rw [h.schema]; decide)
  have hcreation := armJson_size h.policy h.policySha256 (h.operation ▸ h.id)
  have hnumbers : ∀ n ∈ [s.generation, s.armedAtMs, s.expiresAtMs, s.everyMs, s.revision,
      s.observedAtMs, s.claimedRuns], (Json.nat n).size ≤ 20 := fun n hn => nat_size (h.numbers n hn)
  simp only [List.forall_mem_cons] at hnumbers
  obtain ⟨hgeneration, harmed, hexpires, hevery, hrevision, hobserved, hclaimed, -⟩ := hnumbers
  have hid := uuid_size h.id
  have hdefinition := uuid_size h.definition
  have hruntime := uuid_size h.runtime
  have hissuer := hexDigest_size h.issuer
  have hdigest := hexDigest_size h.digest
  have hstate : (Json.str s.state.name).size ≤ 13 := by
    rw [Json.size]
    cases s.state <;> decide
  have hdue : (Json.ofOption Json.nat s.nextDueMs).size ≤ 20 :=
    ofOption_size (fun n hn => nat_size (h.due n hn)) (by decide)
  have htrigger : (Json.ofOption Json.str s.activeTrigger).size ≤ 38 :=
    ofOption_size (fun t ht => uuid_size (h.trigger t ht)) (by decide)
  have hstop : (Json.ofOption Schedule.stopJson s.stop).size ≤ 112 :=
    ofOption_size (fun r hr => stopJson_size (h.stop r hr).1 (h.stop r hr).2) (by decide)
  have hreason : (Json.ofOption Json.str s.reason).size ≤ 24 := by
    refine ofOption_size (fun r hr => ?_) (by decide)
    rw [Json.size]
    exact h.reason r hr
  have hlaunch := @optionalField_size _ _ "launch_started_at_ms" Json.nat s.launchStartedAtMs _
    fun n hn => nat_size (h.launch n hn)
  have hrefusal := @optionalField_size _ _ "refusal" Refusal.toJson s.refusal _
    fun r hr => (h.refusal r hr).size_le
  rw [Schedule.toJson, Schedule.fields, h.resolution]
  refine Nat.le_trans (Json.obj_size_le ?_) ?_
  · simp only [List.forall_mem_append, List.forall_mem_cons]
    refine ⟨⟨⟨⟨⟨?_, optionalField_key (by decide)⟩, optionalField_key (by decide)⟩,
      optionalField_key (by decide)⟩, by decide, by decide, by decide, (by intros; contradiction)⟩, by decide, (by intros; contradiction)⟩
    exact ⟨by decide, by decide, by decide, by decide, by decide, by decide, by decide, by decide,
      by decide, by decide, by decide, by decide, by decide, by decide, by decide, (by intros; contradiction)⟩
  · simp only [List.map_append, List.sum_append, List.length_append, List.map_cons, List.map_nil,
      List.sum_cons, List.sum_nil, List.length_cons, List.length_nil, scheduleCost]
    have hnone : (optionalField "refusal_resolution" RefusalResolution.toJson none) = [] := rfl
    rw [hnone, List.map_nil, List.sum_nil, List.length_nil]
    omega

variable [PeerAdmission] [Sha256] [Planner] [Pairing] [ScopeCompiler]

/-! ## What a checked journal says about a schedule -/

omit [PeerAdmission] [Planner] [Pairing] [ScopeCompiler] in
theorem Schedule.validateData_ok {s : Schedule} {p : Authorization} {d : Definition} {u : Unit} :
    s.validateData p d = .ok u ↔
      (∀ id ∈ [s.id, s.definitionId, s.runtimeId, s.creation.policy], uuid id = true) ∧
      s.bounded p d ∧ (∀ t ∈ s.activeTrigger, uuid t = true) ∧ s.validateStop = .ok () ∧
      s.validateRefusal = .ok () ∧ s.validateResolution = .ok () ∧ s.shape s.state := by
  simp only [Schedule.validateData, bind_ok, each_ok, validateUuid_ok, ensure_ok, Option.mem_toList]
  constructor
  · rintro ⟨_, h1, _, h2, _, h3, _, h4, _, h5, _, h6, h7⟩
    exact ⟨h1, h2, h3, h4, h5, h6, h7⟩
  · rintro ⟨h1, h2, h3, h4, h5, h6, h7⟩
    exact ⟨(), h1, (), h2, (), h3, (), h4, (), h5, (), h6, h7⟩

/-- A policy that was read has the digests and the end that its validation says. -/
theorem Store.policyOf_ok {s : Store} {id : String} {p : Authorization}
    (h : s.policyOf id = .ok p) :
    hexDigest p.issuerId = true ∧ p.expiresAtMs ≤ u64Max ∧
      hexDigest p.authorizationSha256 = true ∧ p.creation.maxRuns ≤ 128 := by
  simp only [policyOf, bind_ok, context_ok] at h
  obtain ⟨found, hread, rfl⟩ := h
  unfold readPolicy at hread
  cases hfind : Table.find (fun row => row.record.id) id s.authorizations with
  | none =>
    rw [hfind] at hread
    cases hread
  | some row =>
    simp only [hfind, bind_ok, pure_ok, Option.some.injEq] at hread
    obtain ⟨_, hcheck, rfl⟩ := hread
    simp only [checkPolicy, bind_ok, Authorization.validateFor] at hcheck
    obtain ⟨d, -, _, ⟨_, hvalid, -⟩, -⟩ := hcheck
    simp only [Authorization.validate, bind_ok, ensure_ok] at hvalid
    obtain ⟨_, hcreation, _, -, _, -, ⟨duration, results⟩, -, _, hbounded, -⟩ := hvalid
    simp only [Authorization.bounded] at hbounded
    obtain ⟨-, -, -, hissuer, -, -, hexpires, -, hdigest, -⟩ := hbounded
    simp only [Approve.validate, bind_ok, ensure_ok] at hcreation
    obtain ⟨_, -, _, -, _, -, hlimits⟩ := hcreation
    refine ⟨hissuer, hexpires, ?_, hlimits.2.2.2.2.1.2⟩
    rw [← hdigest]
    exact Sha256.definition_digest _

omit [ScopeCompiler] in
/-- A definition that was read repeats within a day. -/
theorem Store.readDefinition_ok {s : Store} {id : String} {d : Definition}
    (h : s.readDefinition id = .ok d) : d.creation.everyMs ≤ 86400000 := by
  simp only [readDefinition, bind_ok, Definition.validateStored, Definition.validate, pure_ok] at h
  obtain ⟨found, -, _, ⟨_, ⟨_, hcreation, -⟩, -⟩, rfl⟩ := h
  simp only [Define.validate, bind_ok, ensure_ok] at hcreation
  obtain ⟨_, -, _, -, hlimits⟩ := hcreation
  exact hlimits.2.2.2.2.2.2.1.2

theorem Store.checkSchedule_ok {s : Store} {row : ScheduleRow} (h : s.checkSchedule row = .ok ()) :
    ∃ p d, s.policyOf row.record.creation.policy = .ok p ∧
      s.readDefinition p.creation.definition = .ok d ∧ row.record.validateData p d = .ok () ∧
      row.Full := by
  simp only [checkSchedule, bind_ok, ensure_ok] at h
  obtain ⟨p, hp, d, hd, _, hvalid, hfull⟩ := h
  exact ⟨p, d, hp, hd, hvalid, hfull⟩

theorem Store.validatedHistory_ok {s : Store} (h : s.validatedHistory = .ok ()) :
    (∀ row ∈ s.schedules, s.checkSchedule row = .ok ()) ∧
      (∀ t ∈ s.triggers, s.checkTrigger t = .ok ()) ∧
      ∀ row ∈ s.schedules, s.checkClaims row.record = .ok () := by
  simp only [validatedHistory, bind_ok, each_ok, ensure_ok] at h
  obtain ⟨_, -, _, hschedules, _, htriggers, _, -, _, -, hclaims⟩ := h
  exact ⟨hschedules, htriggers, hclaims⟩

/-- The refusal of a schedule names a claim that is there. -/
theorem Store.refusal_claim {s : Store} (h : s.validatedHistory = .ok ()) {row : ScheduleRow}
    (hrow : row ∈ s.schedules) {r : Refusal} (hr : row.record.refusal = some r) :
    hexDigest r.triggerSha256 = true := by
  obtain ⟨-, htriggers, hclaims⟩ := validatedHistory_ok h
  have hcheck := hclaims row hrow
  simp only [checkClaims, bind_ok, checkRefusal, hr, context_ok, ensure_ok] at hcheck
  obtain ⟨_, -, _, -, t, hlast, _, hsame, -⟩ := hcheck
  have ht : t ∈ s.triggers := by
    have := List.mem_of_getLast? hlast
    rw [ownTriggers, List.mem_insertionSort, List.mem_filter] at this
    exact this.1
  have hvalid := htriggers t ht
  simp only [checkTrigger, bind_ok, Trigger.validateData, ensure_ok] at hvalid
  obtain ⟨_, -, p, -, _, -, _, -, hbounded⟩ := hvalid
  simp only [Trigger.bounded] at hbounded
  rw [hsame.2, hbounded.2.2.2.2.2.2.2.2.2.2.2.1]
  exact Sha256.definition_digest _

/-! ## The fence -/

/-- A schedule that is stopped, or interrupted. -/
def Schedule.fenced (s : Schedule) (now : Nat) (state : ScheduleState) (stop : Option StopReceipt)
    (reason : String) : Schedule :=
  { s with
    revision := s.revision + 1
    observedAtMs := now
    state
    stop
    nextDueMs := none
    reason := some reason }

/-- What a stop, or an interruption, writes into a schedule. -/
def Schedule.Fence (s : Schedule) (state : ScheduleState) (stop : Option StopReceipt)
    (reason : String) : Prop :=
  (state = .stopped ∧ reason = "owner_stop" ∧
      ∃ operation, stop = some ⟨operation, s.revision⟩ ∧ uuid operation = true ∧ operation ≠ s.id) ∨
    state = .interrupted ∧ stop = none ∧ reason ∈ interruptReasons

omit [F64] [PeerAdmission] [Sha256] [Planner] [Pairing] [ScopeCompiler] in
theorem Schedule.Fence.reason_size {s : Schedule} {state : ScheduleState}
    {stop : Option StopReceipt} {reason : String} (h : s.Fence state stop reason) :
    Json.strSize reason ≤ 24 := by
  have hall : ∀ r ∈ "owner_stop" :: interruptReasons, Json.strSize r ≤ 24 := by decide
  rcases h with ⟨-, rfl, -⟩ | ⟨-, -, hreason⟩
  · exact hall _ (List.mem_cons_self ..)
  · exact hall _ (List.mem_cons_of_mem _ hreason)

omit [PeerAdmission] [Planner] [Pairing] [ScopeCompiler] in
/-- The record of a fence is bounded. -/
theorem Schedule.fenced_bounds {s : Schedule} {p : Authorization} {d : Definition}
    (hp : hexDigest p.issuerId = true ∧ p.expiresAtMs ≤ u64Max ∧
      hexDigest p.authorizationSha256 = true ∧ p.creation.maxRuns ≤ 128)
    (hd : d.creation.everyMs ≤ 86400000) (hvalid : s.validateData p d = .ok ()) (htyped : s.Typed)
    (hsha : ∀ r ∈ s.refusal, hexDigest r.triggerSha256 = true)
    (hunresolved : s.refusalResolution = none) {now : Nat} {state : ScheduleState}
    {stop : Option StopReceipt} {reason : String} (hrevision : s.revision < u64Max)
    (hnow : now ≤ u64Max) (hfence : s.Fence state stop reason) :
    (s.fenced now state stop reason).sealed.Bounds := by
  obtain ⟨hids, hbounded, htrigger, -, hrefusal, -, -⟩ := Schedule.validateData_ok.1 hvalid
  simp only [List.forall_mem_cons] at hids
  obtain ⟨hid, hdefinition, hruntime, hpolicy, -⟩ := hids
  simp only [Schedule.bounded] at hbounded
  obtain ⟨hschema, hoperation, hpolicySha, -, -, -, -, -, hissuer, -, hexpires, -, harmed, hevery,
    -, hclaimed, hruns, -⟩ := hbounded
  refine ⟨hschema, hid, hoperation, hpolicy, ?_, hdefinition, hruntime, ?_, ?_, ?_, htrigger,
    htyped.launch, ?_, hunresolved, ?_, ?_, Sha256.definition_digest _⟩
  · show hexDigest s.creation.policySha256 = true
    rw [hpolicySha]
    exact hp.2.2.1
  · show hexDigest s.issuerId = true
    rw [hissuer]
    exact hp.1
  · have hgeneration := htyped.generation
    have hmax : 86400000 ≤ u64Max := by decide
    intro n hn
    simp only [List.mem_cons, List.not_mem_nil, or_false] at hn
    rcases hn with rfl | rfl | rfl | rfl | rfl | rfl | rfl
    · exact hgeneration
    · show s.armedAtMs ≤ u64Max
      omega
    · show s.expiresAtMs ≤ u64Max
      omega
    · show s.everyMs ≤ u64Max
      omega
    · show s.revision + 1 ≤ u64Max
      omega
    · exact hnow
    · show s.claimedRuns ≤ u64Max
      omega
  · exact fun n hn => absurd hn (Option.not_mem_none _)
  · intro r hr
    have hr' : s.refusal = some r := hr
    simp only [Schedule.validateRefusal, hr', bind_ok, validateUuid_ok, ensure_ok] at hrefusal
    obtain ⟨_, htriggerId, _, hruntimeId, h1, -, -, -, -, -, h7, h8⟩ := hrefusal
    refine ⟨h1, htriggerId, hsha r hr', hruntimeId, htyped.refusal r hr', h7, ?_⟩
    rw [h8]
    exact Sha256.definition_digest _
  · intro r hr
    have hr' : stop = some r := hr
    rcases hfence with ⟨-, -, operation, hstop, hoperation, -⟩ | ⟨-, hstop, -⟩
    · rw [hstop] at hr'
      cases hr'
      exact ⟨hoperation, Nat.le_of_lt hrevision⟩
    · rw [hstop] at hr'
      cases hr'
  · intro r hr
    cases hr
    exact hfence.reason_size

omit [F64] [PeerAdmission] [Sha256] [Planner] [Pairing] [ScopeCompiler] in
/-- A schedule that is not resolved has no resolution. -/
theorem Schedule.unresolved {s : Schedule} (h : s.validateResolution = .ok ())
    (hstate : s.state ≠ .resolved) : s.refusalResolution = none := by
  unfold Schedule.validateResolution at h
  cases hresolution : s.refusalResolution with
  | none => rfl
  | some r =>
    simp only [hresolution, bind_ok, ensure_ok] at h
    obtain ⟨_, -, _, -, hresolved, -⟩ := h
    exact absurd hresolved hstate

omit [PeerAdmission] [Planner] [Pairing] [ScopeCompiler] in
/-- The record of a fence is valid. -/
theorem Schedule.fenced_valid {s : Schedule} {p : Authorization} {d : Definition}
    (hp : hexDigest p.issuerId = true ∧ p.expiresAtMs ≤ u64Max ∧
      hexDigest p.authorizationSha256 = true ∧ p.creation.maxRuns ≤ 128)
    (hd : d.creation.everyMs ≤ 86400000) (hvalid : s.validateData p d = .ok ()) (htyped : s.Typed)
    (hsha : ∀ r ∈ s.refusal, hexDigest r.triggerSha256 = true) (hstate : s.state ≠ .resolved)
    {now : Nat} {state : ScheduleState} {stop : Option StopReceipt} {reason : String}
    (hrevision : s.revision < u64Max) (hpositive : 0 < now) (hnow : now ≤ u64Max)
    (hfence : s.Fence state stop reason) :
    (s.fenced now state stop reason).sealed.validateData p d = .ok () := by
  obtain ⟨hids, hbounded, htrigger, -, hrefusal, hresolution, -⟩ := Schedule.validateData_ok.1 hvalid
  have hunresolved := Schedule.unresolved hresolution hstate
  have hsize := (Schedule.fenced_bounds hp hd hvalid htyped hsha hunresolved hrevision hnow
    hfence).size_le
  refine Schedule.validateData_ok.2 ⟨hids, ?_, htrigger, ?_, ?_, ?_, ?_⟩
  · simp only [Schedule.bounded] at hbounded ⊢
    obtain ⟨h1, h2, h3, h4, h5, h6, h7, h8, h9, h10, h11, h12, h13, h14, -, h16, h17, -⟩ := hbounded
    refine ⟨h1, h2, h3, h4, h5, h6, h7, h8, h9, h10, h11, h12, h13, h14, Nat.succ_ne_zero _, ?_, h17,
      ?_, rfl, hsize⟩
    · show s.claimedRuns * 2 ≤ s.revision + 1
      omega
    · show now ≠ 0
      omega
  · rcases hfence with ⟨rfl, -, operation, rfl, hoperation, hne⟩ | ⟨-, rfl, -⟩
    · show (do
        validateUuid operation
        ensure (operation ≠ s.id ∧ (s.refusalResolution = none → s.revision + 1 = s.revision + 1) ∧
          (s.refusalResolution.isSome → min (s.revision + 1) u64Max < s.revision + 1) ∧
          (ScheduleState.stopped = .stopped ∨ ScheduleState.stopped = .resolved))
          "Damaged schedule stop receipt" : Result Unit) = .ok ()
      simp only [bind_ok, validateUuid_ok, ensure_ok]
      refine ⟨(), hoperation, hne, fun _ => trivial, fun hsome => ?_, Or.inl trivial⟩
      rw [hunresolved] at hsome
      cases hsome
    · rfl
  · unfold Schedule.validateRefusal at hrefusal ⊢
    rw [show (s.fenced now state stop reason).sealed.refusal = s.refusal from rfl]
    cases hr : s.refusal with
    | none => rfl
    | some r =>
      simp only [hr, bind_ok, validateUuid_ok, ensure_ok] at hrefusal ⊢
      obtain ⟨_, h1, _, h2, h3, h4, h5, h6, h7, -, h9, h10⟩ := hrefusal
      refine ⟨(), h1, (), h2, h3, h4, h5, h6, h7, ?_, h9, h10⟩
      rcases hfence with ⟨rfl, -⟩ | ⟨rfl, -⟩
      · exact Or.inr (Or.inl rfl)
      · exact Or.inl rfl
  · unfold Schedule.validateResolution
    rw [show (s.fenced now state stop reason).sealed.refusalResolution = none from hunresolved]
    show bailIf (state = .resolved) _ = .ok ()
    simp only [bailIf_ok]
    rcases hfence with ⟨rfl, -⟩ | ⟨rfl, -⟩ <;> decide
  · show (s.fenced now state stop reason).sealed.shape state
    rcases hfence with ⟨rfl, rfl, operation, rfl, -⟩ | ⟨rfl, rfl, hreason⟩
    · exact ⟨rfl, rfl, rfl⟩
    · refine ⟨rfl, rfl, ?_⟩
      show interruptReasons.contains reason = true
      exact List.contains_iff_mem.mpr hreason

namespace Store

omit [PeerAdmission] [Sha256] [Planner] [Pairing] [ScopeCompiler] in
/-- A row that stays as large as it is does not need any room. -/
theorem quota_full (s : Store) {row : ScheduleRow} (hfull : row.Full) :
    s.quota false (some row.cost) scheduleCost = .ok () := by
  have hcost : scheduleCost ≤ row.cost := by
    rw [ScheduleRow.cost, hfull.2]
    have := hfull.1
    omega
  unfold quota
  simp only [bind_ok, bailIf_ok]
  refine ⟨(), fun h => Bool.false_ne_true h.1, ?_⟩
  rw [if_pos]
  exact decide_eq_true hcost

/-- The journal with another record of a schedule in its row. -/
def rewritten (s : Store) (sch : Schedule) : Store :=
  { s with
    schedules := Table.update (fun e => e.record.id == sch.id)
      (fun _ => ⟨sch, scheduleCost - sch.toJson.size⟩) s.schedules }

omit [PeerAdmission] [Sha256] [Planner] [Pairing] [ScopeCompiler] in
/-- Schedules always have room. -/
theorem Roomy.withSchedules {s : Store} (h : s.Roomy) {rows : List ScheduleRow}
    (hrows : ∀ row ∈ rows, row.Full) : Roomy { s with schedules := rows } := by
  refine ⟨h.jobs, h.definitions, h.policies, h.occurrences, h.archives, fun row hrow => ?_, h.triggers,
    h.intents, h.room⟩
  obtain ⟨hsize, hreserved⟩ := hrows row hrow
  simp only [ScheduleRow.cost, hreserved, scheduleCost, maxRecordBytes] at hsize ⊢
  omega

/-- Another valid record of a schedule is saved, whatever the journal's limits are. -/
theorem saveSchedule_full {s : Store} {sch : Schedule} {p : Authorization} {d : Definition}
    (hpolicy : s.policyOf sch.creation.policy = .ok p)
    (hdefinition : s.readDefinition p.creation.definition = .ok d)
    (hvalid : sch.sealed.validateData p d = .ok ()) {row : ScheduleRow}
    (hfind : Table.find (fun e => e.record.id) sch.id s.schedules = some row) (hfull : row.Full) :
    s.saveSchedule sch false = .ok (s.rewritten sch.sealed, sch.sealed) := by
  have hpolicy' : s.policyOf sch.sealed.creation.policy = .ok p := hpolicy
  have hprevious : (Table.find (fun e => e.record.id) sch.sealed.id s.schedules).map
      ScheduleRow.cost = some row.cost := by
    show (Table.find (fun e => e.record.id) sch.id s.schedules).map _ = _
    rw [hfind]
    rfl
  unfold saveSchedule
  simp only [hpolicy', hdefinition, hvalid, ok_bind, hprevious, quota_full s hfull]
  rfl

omit [PeerAdmission] [Sha256] [Planner] [Pairing] [ScopeCompiler] in
theorem rewritten_single {s : Store} {row : ScheduleRow} (h : s.schedules = [row]) {sch : Schedule}
    (hid : sch.id = row.record.id) :
    s.rewritten sch = { s with schedules := [⟨sch, scheduleCost - sch.toJson.size⟩] } := by
  simp [rewritten, Table.update, h, hid]

/-- A fence is saved, whatever the journal's limits are. -/
theorem save_fence {s : Store} (hs : s.Scheduled) (hhistory : s.validatedHistory = .ok ())
    {row : ScheduleRow} (hrow : row ∈ s.schedules) (hstate : row.record.state ≠ .resolved)
    {now : Nat} {state : ScheduleState} {stop : Option StopReceipt} {reason : String}
    (hrevision : row.record.revision < u64Max) (hpositive : 0 < now) (hnow : now ≤ u64Max)
    (hfence : row.record.Fence state stop reason) :
    s.saveSchedule (row.record.fenced now state stop reason) false =
      .ok (s.rewritten (row.record.fenced now state stop reason).sealed,
        (row.record.fenced now state stop reason).sealed) := by
  obtain ⟨hchecked, -, -⟩ := validatedHistory_ok hhistory
  obtain ⟨p, d, hp, hd, hvalid, hfull⟩ := checkSchedule_ok (hchecked row hrow)
  have hfind : Table.find (fun e => e.record.id) row.record.id s.schedules = some row :=
    Table.find_of_mem hs.keyed hrow
  have hnext := Schedule.fenced_valid (policyOf_ok hp) (readDefinition_ok hd) hvalid
    (hs.typed row hrow) (fun r hr => refusal_claim hhistory hrow hr) hstate hrevision hpositive hnow
    hfence
  exact saveSchedule_full hp hd hnext hfind hfull

/-- The row of a schedule is what a reader finds. -/
theorem scheduleOf_row {s : Store} (hs : s.Scheduled) (hhistory : s.validatedHistory = .ok ())
    {row : ScheduleRow} (hrow : row ∈ s.schedules) (msg : String) :
    s.scheduleOf row.record.id msg = .ok row.record := by
  have hfind : Table.find (fun e => e.record.id) row.record.id s.schedules = some row :=
    Table.find_of_mem hs.keyed hrow
  unfold scheduleOf readSchedule
  simp only [hfind, (validatedHistory_ok hhistory).1 row hrow, ok_bind]
  rfl

/-- A stop writes its receipt, and nothing else. -/
theorem stop_goes_through {s : Store} (hs : s.Scheduled) (hhistory : s.validatedHistory = .ok ())
    {row : ScheduleRow} (hrow : row ∈ s.schedules) (hstop : row.record.stop = none)
    (hstate : row.record.state ≠ .resolved) {operation : String} {now : Nat}
    (hrevision : row.record.revision < u64Max) (hpositive : 0 < now) (hnow : now ≤ u64Max)
    (hoperation : uuid operation = true) (hid : operation ≠ row.record.id)
    (hpolicy : operation ≠ row.record.creation.policy) (hfresh : s.unclaimed operation) :
    s.scheduleStop row.record.id row.record.revision operation now =
      .ok (s.rewritten (row.record.fenced now .stopped (some ⟨operation, row.record.revision⟩)
          "owner_stop").sealed,
        (row.record.fenced now .stopped (some ⟨operation, row.record.revision⟩) "owner_stop").sealed,
        false) := by
  have hfence : row.record.Fence .stopped (some ⟨operation, row.record.revision⟩) "owner_stop" :=
    Or.inl ⟨rfl, rfl, operation, rfl, hoperation, hid⟩
  have hsave := save_fence hs hhistory hrow hstate hrevision hpositive hnow hfence
  simp only [scheduleStop, bind_ok]
  refine ⟨(), validateUuid_ok.2 hoperation, (), hhistory, _, scheduleOf_row hs hhistory hrow _, ?_⟩
  simp only [hstop, bind_ok]
  exact ⟨(), ensure_ok.2 ⟨trivial, hid, hpolicy⟩, (), ensure_ok.2 hfresh, _,
    Schedule.advance_ok.2 ⟨hrevision, rfl⟩, _, hsave, rfl⟩

/-- An interruption writes its reason, and nothing else. -/
theorem interrupt_goes_through {s : Store} (hs : s.Scheduled)
    (hhistory : s.validatedHistory = .ok ()) {row : ScheduleRow} (hrow : row ∈ s.schedules)
    (hactive : row.record.state.active = true) {reason : String} {now : Nat}
    (hrevision : row.record.revision < u64Max) (hpositive : 0 < now) (hnow : now ≤ u64Max)
    (hreason : reason ∈ Schedule.interruptReasons) (hstop : row.record.stop = none) :
    s.scheduleInterruptNow row.record.id reason now =
      .ok (s.rewritten (row.record.fenced now .interrupted none reason).sealed,
        (row.record.fenced now .interrupted none reason).sealed) := by
  have hstate : row.record.state ≠ .resolved := by
    intro heq
    rw [heq] at hactive
    cases hactive
  have hsave := save_fence hs hhistory hrow hstate hrevision hpositive hnow
    (Or.inr ⟨rfl, rfl, hreason⟩)
  have hsame : row.record.fenced now .interrupted none reason =
      { row.record with
        revision := row.record.revision + 1
        observedAtMs := now
        state := .interrupted
        reason := some reason
        nextDueMs := none } := by
    rw [Schedule.fenced, ← hstop]
  simp only [scheduleInterruptNow, bind_ok]
  refine ⟨(), hhistory, _, scheduleOf_row hs hhistory hrow _, ?_⟩
  rw [if_pos hactive, bind_ok]
  exact ⟨_, Schedule.interrupted_ok.2 ⟨hrevision, rfl⟩, hsame ▸ hsave⟩

end Store

/-- The states that a stop fences. -/
def ScheduleState.stoppable (s : ScheduleState) : Prop :=
  s = .waiting ∨ s = .inFlight ∨ s = .interrupted ∨ s = .exhausted

omit [PeerAdmission] [Planner] [Pairing] [ScopeCompiler] in
theorem Schedule.stop_none {s : Schedule} {p : Authorization} {d : Definition}
    (h : s.validateData p d = .ok ()) (hstate : s.state.stoppable) : s.stop = none := by
  obtain ⟨-, -, -, -, -, -, hshape⟩ := Schedule.validateData_ok.1 h
  rcases hstate with heq | heq | heq | heq <;> rw [heq] at hshape <;> exact hshape.1

/-- **A stored schedule can always be fenced.** In every journal that is reached, whatever its
limits, each row is charged exactly `scheduleCost`. If the journal reads back, a stop of a schedule
that waits, has a claim in flight, was interrupted or is exhausted writes the stopped record with its
receipt in the schedule's row, and an interruption of an active one writes the interrupted record with
its reason; nothing else changes. If the journal does not read back, that is the failure that is
reported. -/
theorem schedule_always_fenced {s : Store} (hs : s.Reachable) :
    (∀ row ∈ s.schedules, row.record.toJson.size ≤ scheduleCost ∧
      row.record.toJson.size + row.reserved = scheduleCost) ∧
    (s.validatedHistory = .ok () → ∀ row ∈ s.schedules, row.record.revision < u64Max →
      ∀ now, 0 < now → now ≤ u64Max →
      (row.record.state.stoppable → ∀ operation, uuid operation = true →
        operation ≠ row.record.id → operation ≠ row.record.creation.policy →
        s.unclaimed operation →
        ∃ sch, sch = (row.record.fenced now .stopped (some ⟨operation, row.record.revision⟩)
            "owner_stop").sealed ∧
          s.scheduleStop row.record.id row.record.revision operation now =
            .ok (s.rewritten sch, sch, false)) ∧
      (row.record.state.active = true → ∀ reason ∈ Schedule.interruptReasons,
        ∃ sch, sch = (row.record.fenced now .interrupted none reason).sealed ∧
          s.scheduleInterruptNow row.record.id reason now = .ok (s.rewritten sch, sch))) ∧
    ∀ msg, s.validatedHistory = .error msg →
      (∀ id revision operation now, uuid operation = true →
        s.scheduleStop id revision operation now = .error msg) ∧
      ∀ id reason now, s.scheduleInterruptNow id reason now = .error msg := by
  have hscheduled := hs.scheduled
  refine ⟨fun row hrow => ?_, fun hhistory row hrow hrevision now hpositive hnow => ?_,
    fun msg hmsg => ⟨fun id revision operation now hoperation => ?_, fun id reason now => ?_⟩⟩
  · obtain ⟨hsize, hreserved⟩ := hscheduled.full row hrow
    refine ⟨hsize, ?_⟩
    omega
  · obtain ⟨p, d, -, -, hvalid, -⟩ :=
      Store.checkSchedule_ok ((Store.validatedHistory_ok hhistory).1 row hrow)
    constructor
    · intro hstate operation hoperation hid hpolicy hfresh
      refine ⟨_, rfl, Store.stop_goes_through hscheduled hhistory hrow
        (Schedule.stop_none hvalid hstate) ?_ hrevision hpositive hnow hoperation hid hpolicy hfresh⟩
      intro heq
      rw [heq] at hstate
      rcases hstate with h | h | h | h <;> cases h
    · intro hactive reason hreason
      refine ⟨_, rfl, Store.interrupt_goes_through hscheduled hhistory hrow hactive hrevision
        hpositive hnow hreason (Schedule.stop_none hvalid ?_)⟩
      cases hstate : row.record.state with
      | waiting => exact Or.inl rfl
      | inFlight => exact Or.inr (Or.inl rfl)
      | _ =>
        rw [hstate] at hactive
        cases hactive
  · have huuid : validateUuid operation = .ok () := validateUuid_ok.2 hoperation
    unfold Store.scheduleStop
    rw [huuid, ok_bind, hmsg, error_bind]
  · unfold Store.scheduleInterruptNow
    rw [hmsg, error_bind]

end

/-! ## A schedule to fence -/

/-- A request for one check, as it comes in for review. -/
def incomingJob (job request : String) : Plan where
  execution := none
  approval := none
  planning := none
  requestReview := some ⟨[request], [], [], .obj []⟩
  planId := job
  goal := ⟨some { sampleGrant.requestContext with requestId := request }, "ping", "reachability",
    .obj [], .obj []⟩
  tasks := []
  status := .review
  results := []
  revision := 0
  updatedAtMs := 0
  history := []

/-- What the compiler makes of it. -/
def compiled (p : Plan) : Plan :=
  { p with
    planning := some { samplePlanning with sourceRevision := 1 }
    tasks := [{ sampleTask with constraints := .obj [("node_id", .str sampleGrant.executorNode)] }]
    status := .awaitingApproval }

/-- The job as it is saved. -/
def openedJob (job request : String) (now : Nat) : Plan :=
  { incomingJob job request with
    revision := 1
    updatedAtMs := now
    history := [⟨1, now, "Request review saved; no execution authorized"⟩] }

/-- And as it is saved once it is compiled. -/
def compiledJob (job request : String) (now later : Nat) : Plan :=
  { compiled (openedJob job request now) with
    revision := 2
    updatedAtMs := later
    history := [⟨1, now, "Request review saved; no execution authorized"⟩,
      ⟨2, later, "Concrete plan saved"⟩] }

/-- The compiled check, before its approval. -/
def scheduleSource : Plan :=
  compiledJob sampleGrant.jobId sampleGrant.requestContext.requestId 900 950

/-- A definition that repeats it. -/
def scheduleDefinition : Definition where
  schemaVersion := 1
  id := "aaaaaaaa-aaaa-4aaa-8aaa-aaaaaaaaaaaa"
  ownerContext := sampleGrant.requestContext
  createdAtMs := 1000
  creation := ⟨"aaaaaaaa-aaaa-4aaa-8aaa-aaaaaaaaaaaa", sampleGrant.jobId, 2, sampleGrant.planSha256,
    "check", 1000, 8, 60000⟩
  sourceSha256 := sampleGrant.planSha256
  definitionSha256 := sampleGrant.planSha256
  revision := 1
  state := .disabled
  source := some scheduleSource
  removal := none

/-- A policy for it. -/
def schedulePolicy : Authorization where
  schemaVersion := 1
  id := "bbbbbbbb-bbbb-4bbb-8bbb-bbbbbbbbbbbb"
  creation := ⟨scheduleDefinition.id, 1, sampleGrant.planSha256, 0,
    "bbbbbbbb-bbbb-4bbb-8bbb-bbbbbbbbbbbb", 60000, 8, 5000, 65536, 60000, 1048576⟩
  generation := 1
  runtimeId := "cccccccc-cccc-4ccc-8ccc-cccccccccccc"
  issuerId := sampleGrant.issuerId
  approvedAtMs := 1000
  expiresAtMs := 61000
  scope := ⟨sampleGrant.requestContext, samplePlanning.input,
    [⟨sampleGrant.capability, sampleGrant.action, .obj [],
      .obj [("node_id", .str sampleGrant.executorNode)], [], 60000, sampleGrant.executorNode, none,
      none, none⟩]⟩
  scopeSha256 := sampleGrant.planSha256
  authorizationSha256 := sampleGrant.planSha256
  revision := 1
  state := .approved
  revocation := none

/-- A journal in which it can be armed. -/
def scheduleStore : Store :=
  { Store.fresh 16 (64 * maxRecordBytes) with
    jobs := [⟨scheduleSource, 1024⟩]
    definitions := [scheduleDefinition]
    authorizations := [⟨schedulePolicy, 1024⟩] }

/-- The command that arms it. -/
def scheduleCommand : Arm :=
  ⟨schedulePolicy.id, sampleGrant.planSha256, "dddddddd-dddd-4ddd-8ddd-dddddddddddd"⟩

/-- A hash with one value. -/
@[reducible]
def scheduleSha : Sha256 := .constant sampleGrant.planSha256 sampleGrant_planSha256

/-- A planner that accepts every such request, and what it is compiled to. -/
@[reducible]
def schedulePlanner : Planner where
  definition d :=
    let p := incomingJob d.planId ((d.goal.requestContext.map RequestContext.requestId).getD "")
    ensure (d = p.definition ∨ d = (compiled p).definition) "Damaged review state"

section
attribute [local instance] F64.bits PeerAdmission.never scheduleSha schedulePlanner Pairing.never
  ScopeCompiler.always

/-- The schedule it becomes. -/
def scheduleArmed : Schedule :=
  (Store.armed scheduleCommand schedulePolicy 1000 schedulePolicy.runtimeId schedulePolicy.issuerId
    2000).sealed

/-- The journal that holds it. -/
def armedStore : Store :=
  { scheduleStore with schedules := [⟨scheduleArmed, scheduleCost - scheduleArmed.toJson.size⟩] }

/-- What is checked of the documents, each by itself and against those it depends on. -/
theorem schedule_documents :
    scheduleSource.validateReview = .ok () ∧
    schedulePolicy.validateFor scheduleDefinition = .ok () ∧
    scheduleDefinition.toJson.size ≤ maxRecordBytes ∧
    PolicyRow.cost ⟨schedulePolicy, 1024⟩ ≤ maxRecordBytes ∧
    scheduleArmed.validateData schedulePolicy scheduleDefinition = .ok () ∧
    validateUuid scheduleCommand.operationId = .ok () ∧
    validateUuid scheduleCommand.policy = .ok () ∧
    validateUuid schedulePolicy.runtimeId = .ok () ∧
    (scheduleCommand.policySha256.utf8ByteSize = 64
      ∧ scheduleCommand.policySha256.toList.all fun ch => isLowerHex ch || ('A' ≤ ch && ch ≤ 'F')) ∧
    schedulePolicy.scope.runAllowance schedulePolicy.creation.limits = .ok (5000, 65536) ∧
    uuid "eeeeeeee-eeee-4eee-8eee-eeeeeeeeeeee" = true := by
  decide +kernel

theorem schedule_validateFor : schedulePolicy.validate = .ok () ∧ scheduleDefinition.validate = .ok () := by
  obtain ⟨-, hvalid, -⟩ := schedule_documents
  simp only [Authorization.validateFor, bind_ok] at hvalid
  obtain ⟨_, hpolicy, _, hdefinition, -⟩ := hvalid
  exact ⟨hpolicy, hdefinition⟩

theorem scheduleSource_size : scheduleSource.toJson.size ≤ 1024 * 1024 := by
  have hvalid := schedule_validateFor.2
  have hsource : scheduleDefinition.source = some scheduleSource := rfl
  have hremoval : scheduleDefinition.removal = none := rfl
  simp only [Definition.validate, hsource, hremoval, bind_ok, ensure_ok] at hvalid
  obtain ⟨_, -, _, -, _, -, _, -, hfits⟩ := hvalid
  simp only [Definition.sourceFits] at hfits
  exact hfits.2.2.2.2.2.2.2.2

/-! The readers are stated for every journal with these two rows, as most of the commands below are
followed by another one. -/

section
variable {s : Store}

theorem schedule_readDefinition (hd : s.definitions = [scheduleDefinition]) :
    s.readDefinition scheduleDefinition.id = .ok scheduleDefinition := by
  have hfind : Table.find Definition.id scheduleDefinition.id s.definitions
      = some scheduleDefinition := by simp [Table.find, hd]
  have hstored : scheduleDefinition.validateStored = .ok () :=
    bind_ok.mpr ⟨(), schedule_validateFor.2, bind_ok.mpr ⟨(), schedule_documents.1, rfl⟩⟩
  exact bind_ok.mpr ⟨_, context_ok.mpr hfind, bind_ok.mpr ⟨(), hstored, rfl⟩⟩

theorem schedule_checkPolicy (hd : s.definitions = [scheduleDefinition]) :
    s.checkPolicy ⟨schedulePolicy, 1024⟩ = .ok () :=
  bind_ok.mpr ⟨_, schedule_readDefinition hd, bind_ok.mpr ⟨(), schedule_documents.2.1, rfl⟩⟩

theorem schedule_readPolicy (hd : s.definitions = [scheduleDefinition])
    (hp : s.authorizations = [⟨schedulePolicy, 1024⟩]) :
    s.readPolicy schedulePolicy.id = .ok (some schedulePolicy) := by
  have hfind : Table.find (fun row : PolicyRow => row.record.id) schedulePolicy.id
      s.authorizations = some ⟨schedulePolicy, 1024⟩ := by
    simp [Table.find, hp]
  simp only [Store.readPolicy, hfind]
  exact bind_ok.mpr ⟨(), schedule_checkPolicy hd, rfl⟩

theorem schedule_policyOf (hd : s.definitions = [scheduleDefinition])
    (hp : s.authorizations = [⟨schedulePolicy, 1024⟩]) :
    s.policyOf schedulePolicy.id = .ok schedulePolicy :=
  bind_ok.mpr ⟨_, schedule_readPolicy hd hp, rfl⟩

theorem schedule_generations (hp : s.authorizations = [⟨schedulePolicy, 1024⟩]) :
    s.generations scheduleDefinition.id = [1] := by
  have hown : schedulePolicy.creation.definition = scheduleDefinition.id := rfl
  simp only [Store.generations, hp, List.map_cons, List.map_nil, hown, decide_true,
    List.filter_cons_of_pos, List.filter_nil]
  rfl

theorem schedule_policies (hd : s.definitions = [scheduleDefinition])
    (hp : s.authorizations = [⟨schedulePolicy, 1024⟩]) : s.policies = .ok [schedulePolicy] := by
  refine bind_ok.mpr ⟨(), each_ok.mpr fun row hrow => ?_, bind_ok.mpr
    ⟨(), ensure_ok.mpr fun row hrow => ?_, by rw [hp]; rfl⟩⟩
  · rw [hp] at hrow
    rw [List.mem_singleton.mp hrow]
    exact schedule_checkPolicy hd
  · rw [hp] at hrow
    have hown : row.record.creation.definition = scheduleDefinition.id := by
      rw [List.mem_singleton.mp hrow]
      rfl
    rw [hown, schedule_generations hp]
    decide

theorem schedule_latestGeneration (hp : s.authorizations = [⟨schedulePolicy, 1024⟩]) :
    s.latestGeneration scheduleDefinition.id = 1 := by
  rw [Store.latestGeneration, schedule_generations hp]
  rfl

/-- The policy is current from its approval to its end. -/
theorem schedule_currentAt {now : Nat} (hfrom : 1000 ≤ now) (hto : now < 61000) :
    schedulePolicy.currentAt schedulePolicy.runtimeId schedulePolicy.issuerId 1 scheduleDefinition now
      = true := by
  have hvalid : isOk scheduleDefinition.validate = true := isOk_unit.mpr schedule_validateFor.2
  have hpolicy : isOk schedulePolicy.validate = true := isOk_unit.mpr schedule_validateFor.1
  have hid : scheduleDefinition.id = schedulePolicy.creation.definition := rfl
  have hsha : scheduleDefinition.definitionSha256 = schedulePolicy.creation.definitionSha256 := rfl
  have happroved : schedulePolicy.approvedAtMs ≤ now := hfrom
  have hexpires : now < schedulePolicy.expiresAtMs := hto
  unfold Authorization.currentAt
  rw [hvalid, hpolicy, hid, hsha, beq_self_eq_true, beq_self_eq_true, beq_self_eq_true,
    beq_self_eq_true, decide_eq_true happroved, decide_eq_true hexpires]
  rfl

theorem schedule_current (hd : s.definitions = [scheduleDefinition])
    (hp : s.authorizations = [⟨schedulePolicy, 1024⟩]) {sch : Schedule}
    (hpolicy : sch.creation.policy = schedulePolicy.id)
    (hdefinition : sch.definitionId = scheduleDefinition.id)
    (hruntime : sch.runtimeId = schedulePolicy.runtimeId)
    (hissuer : sch.issuerId = schedulePolicy.issuerId) {now : Nat} (hfrom : 1000 ≤ now)
    (hto : now < 61000) :
    s.current sch schedulePolicy.runtimeId schedulePolicy.issuerId now = .ok true := by
  unfold Store.current
  rw [hpolicy, hdefinition, hruntime, hissuer]
  refine bind_ok.mpr ⟨_, schedule_policyOf hd hp, bind_ok.mpr ⟨_, schedule_readDefinition hd,
    bind_ok.mpr ⟨_, schedule_policies hd hp, ?_⟩⟩⟩
  rw [schedule_latestGeneration hp, schedule_currentAt hfrom hto, beq_self_eq_true,
    beq_self_eq_true]
  rfl

theorem schedule_checkSchedule (hd : s.definitions = [scheduleDefinition])
    (hp : s.authorizations = [⟨schedulePolicy, 1024⟩]) {row : ScheduleRow}
    (hpolicy : row.record.creation.policy = schedulePolicy.id)
    (hvalid : row.record.validateData schedulePolicy scheduleDefinition = .ok ())
    (hfull : row.Full) : s.checkSchedule row = .ok () := by
  refine bind_ok.mpr ⟨_, ?_, bind_ok.mpr ⟨_, schedule_readDefinition hd, bind_ok.mpr
    ⟨(), hvalid, ensure_ok.mpr hfull⟩⟩⟩
  rw [hpolicy]
  exact schedule_policyOf hd hp

/-- Nothing is spent yet. -/
theorem schedule_allowanceLeft (h : s.occurrences = []) : s.allowanceLeft schedulePolicy = .ok true := by
  obtain ⟨-, -, -, -, -, -, -, -, -, hallowance, -⟩ := schedule_documents
  unfold Store.allowanceLeft
  rw [h]
  refine bind_ok.mpr ⟨(), rfl, bind_ok.mpr ⟨_, hallowance, ?_⟩⟩
  decide

end

theorem schedule_validatedHistory : scheduleStore.validatedHistory = .ok () :=
  bind_ok.mpr ⟨_, schedule_policies rfl rfl, rfl⟩

theorem schedule_checkOccurrences : scheduleStore.checkOccurrences = .ok () :=
  bind_ok.mpr ⟨(), schedule_validatedHistory, rfl⟩

/-- There is room for what comes next. -/
theorem scheduleStore_roomy : scheduleStore.Roomy := by
  obtain ⟨-, -, hdefinition, hpolicy, -⟩ := schedule_documents
  have hnone : ∀ {α : Type} {p : α → Prop}, ∀ a ∈ ([] : List α), p a :=
    fun _ ha => absurd ha List.not_mem_nil
  refine ⟨?_, ?_, ?_, hnone, hnone, hnone, hnone, hnone, by decide⟩
  · exact List.forall_mem_singleton.mpr (Store.cost_le scheduleSource_size (by decide))
  · exact List.forall_mem_singleton.mpr hdefinition
  · exact List.forall_mem_singleton.mpr hpolicy

theorem schedule_save : scheduleStore.saveSchedule
    (Store.armed scheduleCommand schedulePolicy 1000 schedulePolicy.runtimeId schedulePolicy.issuerId
      2000) true = .ok (armedStore, scheduleArmed) := by
  have hsealed : (Store.armed scheduleCommand schedulePolicy 1000 schedulePolicy.runtimeId
      schedulePolicy.issuerId 2000).sealed = scheduleArmed := rfl
  obtain ⟨-, -, -, -, hvalid, -⟩ := schedule_documents
  unfold Store.saveSchedule
  rw [hsealed]
  refine bind_ok.mpr ⟨_, schedule_policyOf rfl rfl, bind_ok.mpr ⟨_, schedule_readDefinition rfl, ?_⟩⟩
  exact bind_ok.mpr ⟨(), hvalid, bind_ok.mpr
    ⟨(), scheduleStore_roomy.quota (by decide : 3 < 16) (by decide), rfl⟩⟩

/-- Arming it goes through. -/
theorem schedule_armed : scheduleStore.scheduleArm scheduleCommand schedulePolicy.runtimeId
    schedulePolicy.issuerId 2000 2000 = .ok (armedStore, scheduleArmed, false) := by
  obtain ⟨-, -, -, -, -, hoperation, hpolicy, hruntime, hsha, hallowance, -⟩ := schedule_documents
  have hne : scheduleCommand.operationId ≠ scheduleCommand.policy := by decide
  have hcurrent : ∀ s : Store, s.definitions = [scheduleDefinition] →
      s.authorizations = [⟨schedulePolicy, 1024⟩] →
      s.current scheduleArmed schedulePolicy.runtimeId schedulePolicy.issuerId 2000 = .ok true :=
    fun _ hd hp => schedule_current hd hp rfl rfl rfl rfl (by decide) (by decide)
  unfold Store.scheduleArm
  refine bind_ok.mpr ⟨(), hoperation, bind_ok.mpr ⟨(), hpolicy, bind_ok.mpr ⟨(), hruntime, ?_⟩⟩⟩
  refine bind_ok.mpr ⟨(), ensure_ok.mpr ⟨hne, hsha⟩, ?_⟩
  refine bind_ok.mpr ⟨(), schedule_validatedHistory, bind_ok.mpr ⟨none, rfl, ?_⟩⟩
  refine bind_ok.mpr ⟨_, schedule_readPolicy rfl rfl, bind_ok.mpr ⟨_, context_ok.mpr rfl, ?_⟩⟩
  refine bind_ok.mpr ⟨_, schedule_readDefinition rfl, bind_ok.mpr ⟨(), ensure_ok.mpr (by decide), ?_⟩⟩
  refine bind_ok.mpr ⟨true, hcurrent scheduleStore rfl rfl, bind_ok.mpr ⟨_, hallowance, ?_⟩⟩
  refine bind_ok.mpr ⟨(), ensure_ok.mpr ⟨rfl, rfl, by decide⟩, ?_⟩
  refine bind_ok.mpr ⟨(), rfl, bind_ok.mpr ⟨(), rfl, ?_⟩⟩
  refine bind_ok.mpr ⟨true, bind_ok.mpr ⟨(), schedule_checkOccurrences, rfl⟩, ?_⟩
  refine bind_ok.mpr ⟨(), rfl, ?_⟩
  refine bind_ok.mpr ⟨true, bind_ok.mpr ⟨(), schedule_checkOccurrences, schedule_allowanceLeft rfl⟩, ?_⟩
  refine bind_ok.mpr ⟨(), rfl, bind_ok.mpr ⟨_, schedule_save, ?_⟩⟩
  refine bind_ok.mpr ⟨true, hcurrent armedStore rfl rfl, ?_⟩
  exact bind_ok.mpr ⟨(), ensure_ok.mpr ⟨by decide, rfl, by decide⟩, rfl⟩

theorem armedStore_reachable : armedStore.Reachable := by
  refine ⟨16, 64 * maxRecordBytes, ?_⟩
  refine .head (.other (t := scheduleStore) rfl fun row hrow => ?_)
    (.single (.arm _ _ _ _ _ schedule_armed))
  rw [List.mem_singleton.mp hrow]
  decide

/-- The journal with the armed schedule reads back. -/
theorem armedStore_validatedHistory : armedStore.validatedHistory = .ok () := by
  obtain ⟨-, -, -, -, hvalid, -⟩ := schedule_documents
  have hfull := armedStore_reachable.scheduled.full _ (List.mem_singleton.mpr rfl)
  refine bind_ok.mpr ⟨_, schedule_policies rfl rfl, bind_ok.mpr ⟨(), each_ok.mpr fun row hrow => ?_, ?_⟩⟩
  · rw [List.mem_singleton.mp hrow]
    exact schedule_checkSchedule rfl rfl rfl hvalid hfull
  · rfl

/-- A journal with one schedule that waits: it is stopped with a receipt, and interrupted. -/
theorem schedule_always_fenced_armed :
    let stopped := (scheduleArmed.fenced 3000 .stopped
      (some ⟨"eeeeeeee-eeee-4eee-8eee-eeeeeeeeeeee", 1⟩) "owner_stop").sealed
    let interrupted := (scheduleArmed.fenced 3000 .interrupted none "shutdown").sealed
    armedStore.scheduleStop scheduleArmed.id 1 "eeeeeeee-eeee-4eee-8eee-eeeeeeeeeeee" 3000 =
        .ok (armedStore.rewritten stopped, stopped, false) ∧
      armedStore.scheduleInterruptNow scheduleArmed.id "shutdown" 3000 =
        .ok (armedStore.rewritten interrupted, interrupted) ∧
      (armedStore.rewritten stopped).schedules =
        [⟨stopped, scheduleCost - stopped.toJson.size⟩] := by
  intro stopped interrupted
  obtain ⟨-, -, -, -, -, -, -, -, -, -, hoperation⟩ := schedule_documents
  obtain ⟨-, hfence, -⟩ := schedule_always_fenced armedStore_reachable
  obtain ⟨hstop, hinterrupt⟩ := hfence armedStore_validatedHistory _ (List.mem_singleton.mpr rfl)
    (by decide : scheduleArmed.revision < u64Max) 3000 (by decide) (by decide)
  obtain ⟨_, rfl, hstopped⟩ := hstop (.inl rfl) _ hoperation (by decide) (by decide)
    fun _ h => absurd h List.not_mem_nil
  obtain ⟨_, rfl, hinterrupted⟩ := hinterrupt rfl "shutdown" (by decide)
  refine ⟨hstopped, hinterrupted, ?_⟩
  simp [Store.rewritten, Table.update, armedStore, stopped, Schedule.fenced, Schedule.sealed]

end

end Eef.Coordinator
