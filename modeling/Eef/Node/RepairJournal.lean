import Eef.Node.RepairReceipts

/-!
# What the repair journal holds

A journal that decodes (`Valid`) is read back from the text that is written for it, and its text
stays far below the byte quota whatever step its attempts take. Writers only append a fresh
admission or move the one record of their attempt (`Advance`), so earlier records stay where they
are, and finished ones stay as they are (`Grown`).
-/

namespace Eef.Node.RepairReceipts

open Eef.Lib

/-- A journal that decodes. -/
structure Valid (records : List Receipt) : Prop where
  bounded : records.length ≤ maxRecords
  checked : checkRecords [] records = .ok ()

/-- What the check of one record says. -/
structure Receipt.Sound (r : Receipt) : Prop where
  id : uuid r.requestId = true
  program : r.program = "eef" ∨ r.program = "eefn"
  version : isVersion r.version = true
  schema : r.schemaVersion = 1
  definition : hexDigits64 r.definitionSha256 = true
  artifact : hexDigits64 r.artifactSha256 = true
  size : 0 < r.artifactBytes ∧ r.artifactBytes ≤ 512 * 1024 * 1024
  clock : 0 < r.admittedAtMs ∧ r.admittedAtMs ≤ r.updatedAtMs ∧ r.updatedAtMs ≤ i64Max
  outcome : r.outcome = .selected ↔ r.step = .selected

theorem check_ok {r : Receipt} {ids : List String} :
    r.check ids = .ok () ↔ r.Sound ∧ r.sequence = ids.length + 1 ∧ r.requestId ∉ ids := by
  simp only [Receipt.check, validateId, validateProgram, validateVersion, bind_ok, ensure_ok]
  constructor
  · rintro ⟨_, hid, _, hprogram, _, hversion, hschema, hseq, hfresh, hdef, hart, hpos, hmax, hadm,
      hupd, hclock, hout⟩
    exact ⟨⟨hid, hprogram, hversion, hschema, hdef, hart, ⟨hpos, hmax⟩, ⟨hadm, hupd, hclock⟩, hout⟩,
      hseq, hfresh⟩
  · rintro ⟨h, hseq, hfresh⟩
    exact ⟨(), h.id, (), h.program, (), h.version, h.schema, hseq, hfresh, h.definition, h.artifact,
      h.size.1, h.size.2, h.clock.1, h.clock.2.1, h.clock.2.2, h.outcome⟩

theorem checkRecords_append (rs : List Receipt) (r : Receipt) :
    ∀ ids, checkRecords ids (rs ++ [r]) = .ok () ↔
      checkRecords ids rs = .ok () ∧ r.check (ids ++ rs.map Receipt.requestId) = .ok () := by
  induction rs with
  | nil =>
    intro ids
    simp only [List.nil_append, checkRecords, bind_ok, List.map_nil, List.append_nil, true_and]
    exact ⟨fun ⟨_, h, _⟩ => h, fun h => ⟨(), h, trivial⟩⟩
  | cons a rs ih =>
    intro ids
    simp only [List.cons_append, checkRecords, bind_ok, ih, List.map_cons, List.append_assoc]
    constructor
    · rintro ⟨_, ha, hrs, hr⟩
      exact ⟨⟨(), ha, hrs⟩, hr⟩
    · rintro ⟨⟨_, ha, hrs⟩, hr⟩
      exact ⟨(), ha, hrs, hr⟩

/-- Each record passes where it stands. -/
theorem checkRecords_get {rs : List Receipt} {r : Receipt} :
    ∀ {ids : List String} {i : Nat}, checkRecords ids rs = .ok () → rs[i]? = some r →
      r.check (ids ++ (rs.take i).map Receipt.requestId) = .ok () := by
  induction rs with
  | nil =>
    intro ids i _ hr
    simp at hr
  | cons a rs ih =>
    intro ids i h hr
    simp only [checkRecords, bind_ok] at h
    obtain ⟨_, ha, hrest⟩ := h
    cases i with
    | zero =>
      simp only [List.getElem?_cons_zero, Option.some.injEq] at hr
      subst hr
      simpa using ha
    | succ i =>
      rw [List.getElem?_cons_succ] at hr
      simpa using ih hrest hr

/-- A record may change as long as its own check still passes and its identity stays. -/
theorem checkRecords_set {rs : List Receipt} {r r' : Receipt} :
    ∀ {ids : List String} {i : Nat}, checkRecords ids rs = .ok () → rs[i]? = some r →
      r'.requestId = r.requestId → (∀ seen, r.check seen = .ok () → r'.check seen = .ok ()) →
      checkRecords ids (rs.set i r') = .ok () := by
  induction rs with
  | nil =>
    intro ids i _ hr
    simp at hr
  | cons a rs ih =>
    intro ids i h hr hid hcheck
    simp only [checkRecords, bind_ok] at h
    obtain ⟨_, ha, hrest⟩ := h
    cases i with
    | zero =>
      simp only [List.getElem?_cons_zero, Option.some.injEq] at hr
      subst hr
      simp only [List.set_cons_zero, checkRecords, bind_ok, hid]
      exact ⟨(), hcheck ids ha, hrest⟩
    | succ i =>
      rw [List.getElem?_cons_succ] at hr
      simp only [List.set_cons_succ, checkRecords, bind_ok]
      exact ⟨(), ha, ih hrest hr hid hcheck⟩

namespace Valid

variable {rs : List Receipt}

theorem sound (h : Valid rs) {r : Receipt} (hr : r ∈ rs) : r.Sound := by
  obtain ⟨i, hi⟩ := List.mem_iff_getElem?.mp hr
  exact (check_ok.mp (checkRecords_get h.checked hi)).1

/-- Sequences count the records. -/
theorem sequence (h : Valid rs) {i : Nat} {r : Receipt} (hr : rs[i]? = some r) :
    r.sequence = i + 1 := by
  have hi : i < rs.length := by
    obtain ⟨hi, -⟩ := List.getElem?_eq_some_iff.mp hr
    exact hi
  rw [(check_ok.mp (checkRecords_get h.checked hr)).2.1]
  simp
  omega

/-- A request has one record. -/
theorem unique (h : Valid rs) {i j : Nat} {r r' : Receipt} (hr : rs[i]? = some r)
    (hr' : rs[j]? = some r') (hid : r.requestId = r'.requestId) : i = j := by
  -- the later of two records would have seen the earlier one
  have hlt : ∀ {i j : Nat} {r r' : Receipt}, rs[i]? = some r → rs[j]? = some r' →
      r.requestId = r'.requestId → ¬i < j := by
    intro i j r r' hr hr' hid hij
    refine (check_ok.mp (checkRecords_get h.checked hr')).2.2 ?_
    rw [List.nil_append, ← hid]
    refine List.mem_map_of_mem (List.mem_iff_getElem?.mpr ⟨i, ?_⟩)
    rw [List.getElem?_take_of_lt hij]
    exact hr
  have h1 := hlt hr hr' hid
  have h2 := hlt hr' hr hid.symm
  omega

theorem nil : Valid [] := ⟨Nat.zero_le _, rfl⟩

end Valid

/-! ## Reading back -/

theorem Step.decode_name (s : Step) : Step.decode (.str s.name) = some s := by
  cases s <;> rfl

theorem Outcome.decode_name (o : Outcome) : Outcome.decode (.str o.name) = some o := by
  cases o <;> rfl

theorem Receipt.decode_toJson {r : Receipt} (h : r.Sound) (hseq : r.sequence < 2 ^ 32) :
    Receipt.decode r.toJson = some r := by
  have hsize := h.size
  have hclock := h.clock
  unfold i64Max at hclock
  rw [Receipt.toJson, Receipt.decode]
  refine Eq.trans (Json.struct_bind ?_ ?_) ?_
  · rfl
  · decide
  refine (Json.field_bind rfl (Json.asUInt_nat (by rw [h.schema]; decide))).trans ?_
  refine (Json.field_bind rfl (Json.asUInt_nat hseq)).trans ?_
  refine (Json.field_bind (a := r.requestId) rfl rfl).trans ?_
  refine (Json.field_bind (a := r.program) rfl rfl).trans ?_
  refine (Json.field_bind (a := r.version) rfl rfl).trans ?_
  refine (Json.field_bind (a := r.definitionSha256) rfl rfl).trans ?_
  refine (Json.field_bind (a := r.artifactSha256) rfl rfl).trans ?_
  refine (Json.field_bind rfl (Json.asUInt_nat (by omega))).trans ?_
  refine (Json.field_bind rfl (Json.asUInt_nat (by omega))).trans ?_
  refine (Json.field_bind rfl (Json.asUInt_nat (by omega))).trans ?_
  refine (Json.field_bind rfl (Step.decode_name r.step)).trans ?_
  refine (Json.field_bind rfl (Outcome.decode_name r.outcome)).trans ?_
  rfl

theorem decodeRecords_encode {rs : List Receipt} (h : Valid rs) :
    decodeRecords (encode rs) = some (1, rs) := by
  have hall : ∀ r ∈ rs, Receipt.decode r.toJson = some r := by
    intro r hr
    obtain ⟨i, hi⟩ := List.mem_iff_getElem?.mp hr
    have hlt : i < rs.length := (List.getElem?_eq_some_iff.mp hi).1
    have hbound := h.bounded
    unfold maxRecords at hbound
    refine Receipt.decode_toJson (h.sound hr) ?_
    rw [h.sequence hi]
    omega
  have hlist : ∀ l : List Receipt, (∀ r ∈ l, Receipt.decode r.toJson = some r) →
      (l.map Receipt.toJson).mapM Receipt.decode = some l := by
    intro l hl
    induction l with
    | nil => rfl
    | cons a l ih =>
      simp [List.mapM_cons, hl a (List.mem_cons_self ..),
        ih fun r hr => hl r (List.mem_cons_of_mem _ hr)]
  rw [encode, decodeRecords]
  refine Eq.trans (Json.struct_bind ?_ ?_) ?_
  · rfl
  · decide
  refine (Json.field_bind rfl (Json.asUInt_nat (by decide))).trans ?_
  refine (Json.field_bind (a := rs) rfl (hlist rs hall)).trans ?_
  rfl

/-- A valid journal is what its text decodes as. -/
theorem decode_text [F64] [Sha256] {rs : List Receipt} (h : Valid rs) :
    decode (text rs) = .ok rs := by
  simp only [decode, text, Option.bind_some, decodeRecords_encode h, bind_ok, context_ok, bailIf_ok,
    pure_ok]
  refine ⟨(1, rs), rfl, (), ?_, (), h.checked, rfl⟩
  have := h.bounded
  simpa using this

theorem decode_ok {t : Text} {rs : List Receipt} (h : decode t = .ok rs) : Valid rs := by
  simp only [decode, bind_ok, context_ok, bailIf_ok, pure_ok] at h
  obtain ⟨⟨version, records⟩, -, _, hbound, _, hcheck, rfl⟩ := h
  push Not at hbound
  exact ⟨hbound.2, hcheck⟩

/-! ## The quota -/

theorem strSize_hexDigits64 {s : String} (h : hexDigits64 s = true) : Json.strSize s ≤ 66 := by
  simp only [hexDigits64, Bool.and_eq_true, beq_iff_eq, List.all_eq_true] at h
  exact strSize_identifier (Nat.le_of_eq h.1) fun c hc => identifierChar_of_hexDigit (h.2 c hc)

/-- What bounds the size of a record: everything its check says but the clock. -/
structure Receipt.Small (r : Receipt) : Prop where
  id : uuid r.requestId = true
  program : r.program = "eef" ∨ r.program = "eefn"
  version : isVersion r.version = true
  definition : hexDigits64 r.definitionSha256 = true
  artifact : hexDigits64 r.artifactSha256 = true
  numbers : r.schemaVersion < 2 ^ 64 ∧ r.sequence < 2 ^ 64 ∧ r.artifactBytes < 2 ^ 64 ∧
    r.admittedAtMs < 2 ^ 64 ∧ r.updatedAtMs < 2 ^ 64

theorem Receipt.Small.size_le [F64] {r : Receipt} (h : r.Small) : r.toJson.size ≤ 700 := by
  obtain ⟨n1, n2, n3, n4, n5⟩ := h.numbers
  have h1 : Json.natSize r.schemaVersion ≤ 20 := Json.natSize_le_u64 n1
  have h2 : Json.natSize r.sequence ≤ 20 := Json.natSize_le_u64 n2
  have h3 : Json.natSize r.artifactBytes ≤ 20 := Json.natSize_le_u64 n3
  have h4 : Json.natSize r.admittedAtMs ≤ 20 := Json.natSize_le_u64 n4
  have h5 : Json.natSize r.updatedAtMs ≤ 20 := Json.natSize_le_u64 n5
  have t1 := strSize_uuid h.id
  have t2 : Json.strSize r.program ≤ 6 := by
    rcases h.program with hp | hp
    · rw [hp]
      decide
    · rw [hp]
      decide
  have t3 : Json.strSize r.version ≤ 102 := by
    have hv := h.version
    simp only [isVersion, Bool.and_eq_true, decide_eq_true_eq, List.all_eq_true] at hv
    exact strSize_identifier hv.1.2 hv.2
  have t4 := strSize_hexDigits64 h.definition
  have t5 := strSize_hexDigits64 h.artifact
  have t6 : Json.strSize r.step.name ≤ 13 := by cases r.step <;> decide
  have t7 : Json.strSize r.outcome.name ≤ 13 := by cases r.outcome <;> decide
  have k1 : Json.strSize "schema_version" = 16 := by decide
  have k2 : Json.strSize "sequence" = 10 := by decide
  have k3 : Json.strSize "request_id" = 12 := by decide
  have k4 : Json.strSize "program" = 9 := by decide
  have k5 : Json.strSize "version" = 9 := by decide
  have k6 : Json.strSize "definition_sha256" = 19 := by decide
  have k7 : Json.strSize "artifact_sha256" = 17 := by decide
  have k8 : Json.strSize "artifact_bytes" = 16 := by decide
  have k9 : Json.strSize "admitted_at_ms" = 16 := by decide
  have k10 : Json.strSize "updated_at_ms" = 15 := by decide
  have k11 : Json.strSize "step" = 6 := by decide
  have k12 : Json.strSize "outcome" = 9 := by decide
  simp only [toJson, Json.size, Json.fieldsSize, Json.nat, Json.numSize, k1, k2, k3, k4, k5, k6, k7,
    k8, k9, k10, k11, k12]
  omega

/-- A journal of small records stays below the quota. -/
theorem publish_small [F64] [Sha256] {rs : List Receipt} (hlen : rs.length ≤ maxRecords)
    (h : ∀ r ∈ rs, r.Small) : publish rs = .ok (text rs) := by
  have hitems : Json.itemsSize (rs.map Receipt.toJson) ≤ rs.length * (700 + 1) := by
    have := @Json.itemsSize_le _ 700 (rs.map Receipt.toJson) (by
      intro j hj
      obtain ⟨r, hr, rfl⟩ := List.mem_map.mp hj
      exact (h r hr).size_le)
    simpa using this
  have k1 : Json.strSize "schema_version" = 16 := by decide
  have k2 : Json.strSize "records" = 9 := by decide
  have k3 : Json.natSize 1 = 1 := by decide
  have hsize : (encode rs).size ≤ maxBytes := by
    simp only [encode, Json.size, Json.fieldsSize, Json.nat, Json.numSize, k1, k2, k3, maxBytes]
    unfold maxRecords at hlen
    omega
  simp only [publish, bind_ok, bailIf_ok, pure_ok]
  exact ⟨(), Nat.not_lt.mpr hsize, trivial⟩

theorem Receipt.Sound.small {r : Receipt} (h : r.Sound) (hseq : r.sequence ≤ maxRecords) :
    r.Small := by
  have hsize := h.size
  have hclock := h.clock
  have hschema := h.schema
  unfold i64Max at hclock
  unfold maxRecords at hseq
  refine ⟨h.id, h.program, h.version, h.definition, h.artifact, ?_⟩
  omega

theorem Valid.small {rs : List Receipt} (h : Valid rs) : ∀ r ∈ rs, r.Small := by
  intro r hr
  obtain ⟨i, hi⟩ := List.mem_iff_getElem?.mp hr
  have hlt : i < rs.length := (List.getElem?_eq_some_iff.mp hi).1
  have hbound := h.bounded
  refine (h.sound hr).small ?_
  rw [h.sequence hi]
  omega

/-! ## What a writer does -/

/-- The fields of a record that never change. -/
structure Receipt.Same (r r' : Receipt) : Prop where
  schema : r'.schemaVersion = r.schemaVersion
  sequence : r'.sequence = r.sequence
  id : r'.requestId = r.requestId
  program : r'.program = r.program
  version : r'.version = r.version
  definition : r'.definitionSha256 = r.definitionSha256
  artifact : r'.artifactSha256 = r.artifactSha256
  size : r'.artifactBytes = r.artifactBytes
  admitted : r'.admittedAtMs = r.admittedAtMs

/-- What a writer does to a record that is in progress. -/
structure Receipt.Moved (r r' : Receipt) : Prop where
  same : r.Same r'
  before : r.outcome = .inProgress
  clock : r.updatedAtMs ≤ r'.updatedAtMs
  moves : (r'.step.ordinal = r.step.ordinal + 1 ∧
      r'.outcome = if r'.step = .selected then .selected else .inProgress) ∨
    (r'.step = r.step ∧ r'.outcome = .failed)

/-- One write: nothing, a fresh admission, or the next state of one record. -/
inductive Advance (rs rs' : List Receipt) : Prop where
  | none (h : rs' = rs)
  | admitted (r : Receipt) (h : rs' = rs ++ [r]) (id : ∀ q ∈ rs, q.requestId ≠ r.requestId)
      (step : r.step = .admitted) (outcome : r.outcome = .inProgress)
  | moved (i : Nat) (r r' : Receipt) (found : rs[i]? = some r) (h : rs' = rs.set i r')
      (move : r.Moved r')

/-- What stays of the records over any number of writes: each is where it was, with the same
identity, no earlier step, and unchanged once it is finished. -/
def Grown (rs rs' : List Receipt) : Prop :=
  ∀ (i : Nat) (r : Receipt), rs[i]? = some r → ∃ r' : Receipt, rs'[i]? = some r' ∧ r.Same r' ∧
    r.step.ordinal ≤ r'.step.ordinal ∧ (r.outcome ≠ .inProgress → r' = r)

theorem Receipt.Same.refl (r : Receipt) : r.Same r :=
  ⟨rfl, rfl, rfl, rfl, rfl, rfl, rfl, rfl, rfl⟩

theorem Receipt.Same.trans {r r' r'' : Receipt} (h : r.Same r') (h' : r'.Same r'') :
    r.Same r'' :=
  ⟨h'.schema.trans h.schema, h'.sequence.trans h.sequence, h'.id.trans h.id,
    h'.program.trans h.program, h'.version.trans h.version, h'.definition.trans h.definition,
    h'.artifact.trans h.artifact, h'.size.trans h.size, h'.admitted.trans h.admitted⟩

theorem Grown.refl (rs : List Receipt) : Grown rs rs :=
  fun _ r hr => ⟨r, hr, Receipt.Same.refl r, Nat.le_refl _, fun _ => rfl⟩

theorem Grown.trans {rs rs' rs'' : List Receipt} (h : Grown rs rs') (h' : Grown rs' rs'') :
    Grown rs rs'' := by
  intro i r hr
  obtain ⟨r', hr', hsame, hle, hfinal⟩ := h i r hr
  obtain ⟨r'', hr'', hsame', hle', hfinal'⟩ := h' i r' hr'
  refine ⟨r'', hr'', hsame.trans hsame', Nat.le_trans hle hle', fun hdone => ?_⟩
  have heq := hfinal hdone
  subst heq
  exact hfinal' hdone

theorem Advance.grown {rs rs' : List Receipt} (h : Advance rs rs') : Grown rs rs' := by
  cases h with
  | none h =>
    rw [h]
    exact Grown.refl rs
  | admitted r h id step outcome =>
    rw [h]
    intro i q hq
    have hi : i < rs.length := (List.getElem?_eq_some_iff.mp hq).1
    refine ⟨q, ?_, Receipt.Same.refl q, Nat.le_refl _, fun _ => rfl⟩
    rw [List.getElem?_append_left hi]
    exact hq
  | moved i r r' found h move =>
    rw [h]
    intro j q hq
    by_cases hij : i = j
    · subst hij
      rw [found] at hq
      cases hq
      have hi : i < rs.length := (List.getElem?_eq_some_iff.mp found).1
      refine ⟨r', List.getElem?_set_self hi, move.same, ?_, fun hdone => absurd move.before hdone⟩
      rcases move.moves with ⟨hstep, -⟩ | ⟨hstep, -⟩
      · omega
      · rw [hstep]
    · refine ⟨q, ?_, Receipt.Same.refl q, Nat.le_refl _, fun _ => rfl⟩
      rw [List.getElem?_set_ne hij]
      exact hq

/-- A move keeps a valid journal valid, as long as the clock can be written. -/
theorem Valid.move {rs : List Receipt} (h : Valid rs) {i : Nat} {r r' : Receipt}
    (hr : rs[i]? = some r) (hm : r.Moved r') (hclock : r'.updatedAtMs ≤ i64Max) :
    Valid (rs.set i r') := by
  refine ⟨by rw [List.length_set]; exact h.bounded, ?_⟩
  refine checkRecords_set h.checked hr hm.same.id fun seen hcheck => ?_
  rw [check_ok] at hcheck ⊢
  obtain ⟨hsound, hseq, hfresh⟩ := hcheck
  have hs := hm.same
  refine ⟨?_, by rw [hs.sequence, hseq], by rw [hs.id]; exact hfresh⟩
  refine ⟨by rw [hs.id]; exact hsound.id, by rw [hs.program]; exact hsound.program,
    by rw [hs.version]; exact hsound.version, by rw [hs.schema]; exact hsound.schema,
    by rw [hs.definition]; exact hsound.definition, by rw [hs.artifact]; exact hsound.artifact,
    by rw [hs.size]; exact hsound.size, ?_, ?_⟩
  · have := hsound.clock
    have := hm.clock
    rw [hs.admitted]
    omega
  · rcases hm.moves with ⟨-, hout⟩ | ⟨hstep, hout⟩
    · rw [hout]
      split
      · rename_i hsel
        simp [hsel]
      · rename_i hsel
        simp [hsel]
    · have hbefore := hsound.outcome
      rw [hm.before] at hbefore
      rw [hstep, hout]
      simp only [reduceCtorEq, false_iff] at hbefore ⊢
      exact hbefore

theorem Valid.append {rs : List Receipt} (h : Valid rs) (hlen : rs.length < maxRecords)
    {r : Receipt} (hsound : r.Sound) (hseq : r.sequence = rs.length + 1)
    (hid : ∀ q ∈ rs, q.requestId ≠ r.requestId) : Valid (rs ++ [r]) := by
  refine ⟨by simp; omega, (checkRecords_append rs r []).mpr ⟨h.checked, check_ok.mpr ?_⟩⟩
  refine ⟨hsound, by simpa using hseq, ?_⟩
  simp only [List.nil_append, List.mem_map, not_exists, not_and]
  exact hid

end Eef.Node.RepairReceipts
