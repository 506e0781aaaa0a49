import Eef.Node.DownloadReceipts

/-!
# The journal of model downloads

What the operations of the journal do to its receipts. `Holds db rs` says that the file is the
rows of receipts `rs`, which satisfy `Valid`; then everything that reads the file reads `rs`
(`Holds.records`). Each operation has a lemma for the receipts that it leaves, whether the write
took place or not.
-/

namespace Eef.Node.Download

open Eef.Lib

/-- What a checked receipt guarantees. -/
theorem Receipt.validate_ok {r : Receipt} {u : Unit} : r.validate = .ok u ↔
    operationId r.id = true ∧ ModelServer.Server.validateId r.modelId = .ok () ∧ ¬r.damaged := by
  simp only [validate, bind_ok, validateOperationId_ok, bailIf_ok, exists_const]
  constructor
  · rintro ⟨h1, _, h2, h3⟩
    exact ⟨h1, h2, h3⟩
  · rintro ⟨h1, h2, h3⟩
    exact ⟨h1, (), h2, h3⟩

/-- A journal: consecutive ordinals, distinct downloads, at most one under way. -/
structure Valid (rs : List Receipt) : Prop where
  checked : ∀ r ∈ rs, r.validate = .ok ()
  ordinals : rs.map Receipt.sequence = List.range' 1 rs.length
  ids : (rs.map Receipt.id).Nodup
  active : ∀ r ∈ rs, ∀ q ∈ rs, r.state = .downloading → q.state = .downloading → r = q

theorem Valid.nil : Valid [] :=
  ⟨nofun, rfl, List.nodup_nil, nofun⟩

/-- Two receipts of one download are the same. -/
theorem Valid.eq {rs : List Receipt} (h : Valid rs) {r q : Receipt} (hr : r ∈ rs) (hq : q ∈ rs)
    (hid : r.id = q.id) : r = q := List.inj_on_of_nodup_map h.ids hr hq hid

section

variable [F64]

/-- The text of a checked receipt fits its row. -/
theorem Receipt.size_le {r : Receipt} (h : r.validate = .ok ()) :
    r.toJson.size ≤ maxRecordBytes := by
  obtain ⟨hid, hmodel, hdamaged⟩ := validate_ok.1 h
  simp only [damaged, not_or, not_not, not_and] at hdamaged
  obtain ⟨hschema, hsequence, -, hbackend, hdigest, -, haccepted, hupdated, htotal, -⟩ := hdamaged
  have h64 : ∀ {n : Nat}, n ≤ i64Max → Json.natSize n ≤ 20 := by
    intro n hn
    refine Json.natSize_le_u64 (Nat.lt_of_le_of_lt hn ?_)
    decide
  have t1 := strSize_operationId hid
  have t2 : Json.strSize r.modelId ≤ 514 := by
    simp only [ModelServer.Server.validateId, ensure_ok] at hmodel
    obtain ⟨-, hsize, -, hcontrol⟩ := hmodel
    have := Json.strSize_le_double (s := r.modelId) fun c hc => by
      by_contra hlt
      refine hcontrol (List.any_eq_true.mpr ⟨c, hc, ?_⟩)
      have : c.toNat < 32 := by omega
      simp [isControl, this]
    omega
  have t3 : Json.strSize r.backend ≤ 10 := by
    by_cases hb : r.backend = "ollama"
    · rw [hb]
      decide
    · rw [hbackend hb]
      decide
  have t4 : Json.strSize r.definitionSha256 ≤ 66 := strSize_hexDigest (by simpa using hdigest)
  have t5 : Json.strSize r.state.name ≤ 13 := by cases r.state <;> decide
  have n1 : Json.natSize r.schemaVersion ≤ 1 := by
    rw [hschema]
    decide
  have n2 : Json.natSize r.sequence ≤ 20 :=
    h64 (Nat.le_trans (show r.sequence ≤ 4096 by omega) (by decide))
  have n3 : Json.natSize r.acceptedAtMs ≤ 20 := h64 (by omega)
  have n4 : Json.natSize r.updatedAtMs ≤ 20 := h64 (by omega)
  have n5 : (Json.ofOption Json.nat r.totalBytes).size ≤ 20 := by
    cases ht : r.totalBytes with
    | none => simp [Json.ofOption, Json.size]
    | some n =>
      rw [ht] at htotal
      simp only [Option.any_some, Bool.or_eq_true, not_or, decide_eq_true_eq, not_lt] at htotal
      exact h64 htotal.2
  have n6 : (Json.bool r.cancelRequested).size ≤ 5 := by
    cases r.cancelRequested <;> simp [Json.size]
  have k1 : Json.strSize "schema_version" = 16 := by decide
  have k2 : Json.strSize "sequence" = 10 := by decide
  have k3 : Json.strSize "id" = 4 := by decide
  have k4 : Json.strSize "model_id" = 10 := by decide
  have k5 : Json.strSize "backend" = 9 := by decide
  have k6 : Json.strSize "definition_sha256" = 19 := by decide
  have k7 : Json.strSize "state" = 7 := by decide
  have k8 : Json.strSize "accepted_at_ms" = 16 := by decide
  have k9 : Json.strSize "updated_at_ms" = 15 := by decide
  have k10 : Json.strSize "total_bytes" = 13 := by decide
  have k11 : Json.strSize "cancel_requested" = 18 := by decide
  rw [toJson, Json.size]
  simp only [Json.fieldsSize, k1, k2, k3, k4, k5, k6, k7, k8, k9, k10, k11]
  simp only [Json.nat] at n5 ⊢
  simp only [Json.size, Json.numSize, maxRecordBytes] at n6 ⊢
  omega

variable [Sha256]

/-! ## Reading -/

/-- The file is the rows of valid receipts. -/
structure Holds (db : Db) (rs : List Receipt) : Prop where
  rows : db.rows = rs.map Row.of
  valid : Valid rs

theorem records_from {rs : List Receipt} : ∀ {n : Nat}, (∀ r ∈ rs, r.validate = .ok ()) →
    rs.map Receipt.sequence = List.range' (n + 1) rs.length →
    recordsFrom n (rs.map Row.of) = .ok rs := by
  induction rs with
  | nil => exact fun _ _ => rfl
  | cons r rs ih =>
    intro n hchecked hordinals
    rw [List.map_cons, List.length_cons, List.range'_succ, List.cons.injEq] at hordinals
    have hr := hchecked r (List.mem_cons_self ..)
    obtain ⟨-, -, hdamaged⟩ := Receipt.validate_ok.1 hr
    simp only [Receipt.damaged, not_or, not_not] at hdamaged
    rw [List.map_cons, recordsFrom]
    simp only [bind_ok, bailIf_ok, context_ok, pure_ok, not_lt, not_or, not_not]
    refine ⟨(), r.size_le hr, r, rfl, (), hr, (), ⟨rfl, rfl, hordinals.1, rfl⟩, (), ?_, rs,
      ih (fun q hq => hchecked q (List.mem_cons_of_mem _ hq)) hordinals.2, rfl⟩
    have := hdamaged.2.1
    omega

theorem Holds.records {db : Db} {rs : List Receipt} (h : Holds db rs) : db.records = .ok rs := by
  unfold Db.records
  rw [h.rows]
  exact records_from h.valid.checked h.valid.ordinals

/-! ## Writing -/

/-- What a receipt may become: only one under way changes, in its state, its time and its
cancellation. -/
def Receipt.Later (r r' : Receipt) : Prop :=
  r' = r ∨ r.state = .downloading ∧ (r.cancelRequested = true → r'.cancelRequested = true) ∧
    ∃ state updatedAtMs cancelRequested, r' = { r with state, updatedAtMs, cancelRequested }

omit [F64] [Sha256] in
theorem Receipt.Later.id {r r' : Receipt} (h : r.Later r') : r'.id = r.id := by
  rcases h with rfl | ⟨-, -, _, _, _, rfl⟩ <;> rfl

omit [F64] [Sha256] in
theorem Receipt.Later.sequence {r r' : Receipt} (h : r.Later r') : r'.sequence = r.sequence := by
  rcases h with rfl | ⟨-, -, _, _, _, rfl⟩ <;> rfl

omit [F64] [Sha256] in
/-- A receipt that is not under way stays as it is. -/
theorem Receipt.Later.final {r r' : Receipt} (h : r.Later r') (hr : r.state ≠ .downloading) :
    r' = r := by
  rcases h with rfl | ⟨hstate, -⟩
  · rfl
  · exact absurd hstate hr

omit [F64] [Sha256] in
theorem Receipt.Later.cancel {r r' : Receipt} (h : r.Later r') (hr : r.cancelRequested = true) :
    r'.cancelRequested = true := by
  rcases h with rfl | ⟨-, hcancel, -⟩
  · exact hr
  · exact hcancel hr

/-- The receipt takes the place of the one of its download. -/
def replace (r' : Receipt) (rs : List Receipt) : List Receipt :=
  rs.map fun r => if r.id = r'.id then r' else r

omit [F64] [Sha256] in
theorem mem_replace {r' q : Receipt} {rs : List Receipt} (h : q ∈ replace r' rs) :
    q = r' ∨ q ∈ rs ∧ q.id ≠ r'.id := by
  obtain ⟨r, hr, rfl⟩ := List.mem_map.mp h
  by_cases hid : r.id = r'.id
  · rw [if_pos hid]
    exact Or.inl rfl
  · rw [if_neg hid]
    exact Or.inr ⟨hr, hid⟩

omit [F64] [Sha256] in
/-- A valid history stays valid if one receipt goes on. -/
theorem Valid.replace {rs : List Receipt} (h : Valid rs) {r r' : Receipt} (hr : r ∈ rs)
    (hlater : r.Later r') (hchecked : r'.validate = .ok ()) : Valid (replace r' rs) := by
  have hid := hlater.id
  have hkeep : ∀ q ∈ rs, (if q.id = r'.id then r' else q).id = q.id ∧
      (if q.id = r'.id then r' else q).sequence = q.sequence := by
    intro q hq
    by_cases hsame : q.id = r'.id
    · rw [if_pos hsame, h.eq hq hr (hsame.trans hid)]
      exact ⟨hid, hlater.sequence⟩
    · rw [if_neg hsame]
      exact ⟨rfl, rfl⟩
  have hids : (Download.replace r' rs).map Receipt.id = rs.map Receipt.id := by
    rw [Download.replace, List.map_map]
    exact List.map_congr_left fun q hq => (hkeep q hq).1
  have hsequences : (Download.replace r' rs).map Receipt.sequence = rs.map Receipt.sequence := by
    rw [Download.replace, List.map_map]
    exact List.map_congr_left fun q hq => (hkeep q hq).2
  refine ⟨fun q hq => ?_, ?_, ?_, fun q hq p hp hqs hps => ?_⟩
  · rcases mem_replace hq with rfl | ⟨hq, -⟩
    · exact hchecked
    · exact h.checked q hq
  · rw [hsequences, h.ordinals, Download.replace, List.length_map]
  · rw [hids]
    exact h.ids
  · -- the replaced receipt is under way only if it was
    have hwas : r'.state = .downloading → r.state = .downloading := by
      intro hs
      rcases hlater with rfl | ⟨hstate, -⟩
      · exact hs
      · exact hstate
    have hother : ∀ {p}, p ∈ rs → p.id ≠ r'.id → r'.state = .downloading →
        p.state ≠ .downloading := by
      intro p hp hne hs hps
      have := h.active r hr p hp (hwas hs) hps
      exact hne (this ▸ hid.symm)
    rcases mem_replace hq with hq' | ⟨hq', hqne⟩
    · rcases mem_replace hp with hp' | ⟨hp', hpne⟩
      · rw [hq', hp']
      · exact absurd hps (hother hp' hpne (hq' ▸ hqs))
    · rcases mem_replace hp with hp' | ⟨hp', hpne⟩
      · exact absurd hqs (hother hq' hqne (hp' ▸ hps))
      · exact h.active q hq' p hp' hqs hps

/-- What `save` leaves when it updates. -/
theorem Holds.update {db new : Db} {rs : List Receipt} (h : Holds db rs) {r r' : Receipt}
    (hr : r ∈ rs) (hlater : r.Later r') (hnew : db.update r' = .ok new) :
    Holds new (replace r' rs) ∧ new.pageSize = db.pageSize ∧ new.pageCount = db.pageCount := by
  simp only [Db.update, bind_ok, bailIf_ok, pure_ok] at hnew
  obtain ⟨_, hchecked, _, -, _, -, rfl⟩ := hnew
  refine ⟨⟨?_, h.valid.replace hr hlater hchecked⟩, rfl, rfl⟩
  show Table.update _ _ db.rows = _
  rw [h.rows, replace, Table.update, List.map_map, List.map_map]
  refine List.map_congr_left fun q hq => ?_
  show (if decide (q.id = r'.id ∧ q.sequence = r'.sequence) = true then Row.of r' else Row.of q) =
    Row.of (if q.id = r'.id then r' else q)
  by_cases hid : q.id = r'.id
  · have hsame : q.sequence = r'.sequence := by
      rw [h.valid.eq hq hr (hid.trans hlater.id), hlater.sequence]
    rw [if_pos (decide_eq_true ⟨hid, hsame⟩), if_pos hid]
  · rw [if_neg fun hh => hid (of_decide_eq_true hh).1, if_neg hid]

/-- An update of a checked receipt goes through. -/
theorem Holds.update_ok {db : Db} {rs : List Receipt} (h : Holds db rs) {r r' : Receipt}
    (hr : r ∈ rs) (hlater : r.Later r') (hchecked : r'.validate = .ok ()) :
    ∃ new, db.update r' = .ok new := by
  simp only [Db.update, bind_ok, bailIf_ok, pure_ok, not_lt, not_not]
  refine ⟨_, (), hchecked, (), r'.size_le hchecked, (), ?_, rfl⟩
  rw [h.rows, List.filter_map, List.length_map]
  have hfilter : rs.filter ((fun row : Row => decide (row.id = r'.id ∧ row.ordinal = r'.sequence)) ∘
      Row.of) = [r] := by
    have hnodup : rs.Nodup := List.Nodup.of_map _ h.valid.ids
    have heq : ∀ q ∈ rs, ((fun row : Row => decide (row.id = r'.id ∧ row.ordinal = r'.sequence)) ∘
        Row.of) q = (q == r) := by
      intro q hq
      rw [Bool.eq_iff_iff, beq_iff_eq]
      show decide (q.id = r'.id ∧ q.sequence = r'.sequence) = true ↔ q = r
      rw [decide_eq_true_eq]
      constructor
      · intro hsame
        exact h.valid.eq hq hr (hsame.1.trans hlater.id)
      · intro heq
        rw [heq]
        exact ⟨hlater.id.symm, hlater.sequence.symm⟩
    rw [List.filter_congr heq, List.filter_beq, hnodup.count, if_pos hr]
    rfl
  rw [hfilter]
  rfl

/-- What `claim` leaves. -/
theorem Holds.claimed {db new : Db} {rs : List Receipt} (h : Holds db rs) {policy : Policy}
    {progress : Progress} {now : Nat} (hnew : db.claimed policy progress now = .ok new) :
    Holds new (rs ++ [admitted progress rs.length now]) ∧ (∀ r ∈ rs, r.id ≠ progress.id) ∧
      ∀ r ∈ rs, r.state ≠ .downloading := by
  simp only [Db.claimed, h.records, ok_bind, bind_ok, bailIf_ok, Db.insert, pure_ok, not_exists,
    not_and, not_or] at hnew
  obtain ⟨_, hfresh, _, hidle, _, -, _, hchecked, _, -, _, -, rfl⟩ := hnew
  refine ⟨⟨?_, ?_, ?_, ?_, ?_⟩, hfresh, hidle⟩
  · show db.rows ++ _ = _
    rw [h.rows, List.map_append, List.map_singleton]
  · intro r hr
    rcases List.mem_append.mp hr with hr | hr
    · exact h.valid.checked r hr
    · rw [List.mem_singleton.mp hr]
      exact hchecked
  · rw [List.map_append, List.length_append, h.valid.ordinals, List.range'_append_1.symm]
    simp [admitted, Nat.add_comm]
  · rw [List.map_append, List.nodup_append]
    refine ⟨h.valid.ids, List.nodup_singleton _, ?_⟩
    rintro a ha b hb rfl
    obtain ⟨r, hr, hra⟩ := List.mem_map.mp ha
    rw [List.map_singleton, List.mem_singleton] at hb
    exact hfresh r hr (hra.trans hb)
  · intro r hr q hq hrs hqs
    rcases List.mem_append.mp hr with hr | hr
    · exact absurd hrs (hidle r hr)
    · rcases List.mem_append.mp hq with hq | hq
      · exact absurd hqs (hidle q hq)
      · rw [List.mem_singleton.mp hr, List.mem_singleton.mp hq]

/-- The receipt that `change` saves. -/
def Receipt.changed (r : Receipt) (state : Option State) (now : Nat) : Receipt :=
  match state with
  | none => { r with cancelRequested := true, updatedAtMs := max now r.updatedAtMs }
  | some state => { r with state, updatedAtMs := max now r.updatedAtMs }

omit [F64] [Sha256] in
theorem Receipt.changed_later {r : Receipt} (h : r.state = .downloading) (state : Option State)
    (now : Nat) : r.Later (r.changed state now) := by
  refine Or.inr ⟨h, fun hcancel => ?_, ?_⟩
  · cases state with
    | none => rfl
    | some _ => exact hcancel
  · cases state with
    | none => exact ⟨r.state, _, true, rfl⟩
    | some state => exact ⟨state, _, r.cancelRequested, rfl⟩

/-- What `change` leaves. -/
theorem Holds.changed {db new : Db} {rs : List Receipt} (h : Holds db rs) {id : String}
    {state : Option State} {now : Nat} (hnew : db.changed id state now = .ok new) :
    ∃ r ∈ rs, r.id = id ∧ r.state = .downloading ∧
      Holds new (replace (r.changed state now) rs) := by
  simp only [Db.changed, Db.get, h.records, ok_bind] at hnew
  rw [bind_ok] at hnew
  obtain ⟨_, hfound, hnew⟩ := hnew
  rw [pure_ok] at hfound
  subst hfound
  rw [bind_ok] at hnew
  obtain ⟨r, hfind, hnew⟩ := hnew
  rw [context_ok] at hfind
  rw [bind_ok] at hnew
  obtain ⟨_, hstate, hnew⟩ := hnew
  rw [bailIf_ok, not_not] at hstate
  have hr : r ∈ rs := List.mem_of_find?_eq_some hfind
  have hid : r.id = id := by simpa using List.find?_some hfind
  refine ⟨r, hr, hid, hstate, (h.update hr (r.changed_later hstate state now) ?_).1⟩
  cases state with
  | none => exact hnew
  | some state =>
    simp only [bind_ok, bailIf_ok] at hnew
    obtain ⟨_, -, _, hr', hnew⟩ := hnew
    rw [pure_ok] at hr'
    subst hr'
    exact hnew

/-! ## Opening -/

omit [F64] [Sha256] in
theorem Receipt.interrupted_later (r : Receipt) (now : Nat) : r.Later (r.interrupted now) := by
  unfold interrupted
  by_cases h : r.state = .downloading
  · rw [if_pos h]
    exact Or.inr ⟨h, fun hcancel => hcancel, .interrupted, _, r.cancelRequested, rfl⟩
  · rw [if_neg h]
    exact Or.inl rfl

omit [F64] [Sha256] in
theorem Receipt.interrupted_state (r : Receipt) (now : Nat) :
    (r.interrupted now).state ≠ .downloading := by
  unfold interrupted
  by_cases h : r.state = .downloading
  · rw [if_pos h]
    simp
  · rw [if_neg h]
    exact h

omit [F64] [Sha256] in
theorem Receipt.interrupted_validate {r : Receipt} (h : r.validate = .ok ()) {now : Nat}
    (hnow : now ≤ i64Max) : (r.interrupted now).validate = .ok () := by
  obtain ⟨hid, hmodel, hdamaged⟩ := validate_ok.1 h
  unfold interrupted
  by_cases hstate : r.state = .downloading
  · rw [if_pos hstate, validate_ok]
    refine ⟨hid, hmodel, ?_⟩
    simp only [damaged, not_or] at hdamaged ⊢
    obtain ⟨h1, h2, h3, h4, h5, h6, h7, h8, h9, h10, h11, -⟩ := hdamaged
    exact ⟨h1, h2, h3, h4, h5, h6, by omega, by omega, h9, h10, h11, by simp⟩
  · rw [if_neg hstate]
    exact h

omit [F64] [Sha256] in
/-- The receipt of one place is replaced. -/
theorem replace_at {pre rest : List Receipt} {r r' : Receipt}
    (hids : ((pre ++ r :: rest).map Receipt.id).Nodup) (hid : r'.id = r.id) :
    replace r' (pre ++ r :: rest) = pre ++ r' :: rest := by
  rw [List.map_append, List.map_cons, List.nodup_append, List.nodup_cons] at hids
  obtain ⟨-, ⟨hrest, -⟩, hpre⟩ := hids
  have hkeep : ∀ qs : List Receipt, (∀ q ∈ qs, q.id ≠ r.id) →
      qs.map (fun q => if q.id = r'.id then r' else q) = qs := by
    intro qs hqs
    refine (List.map_congr_left fun q hq => ?_).trans qs.map_id
    rw [if_neg (hid ▸ hqs q hq)]
    rfl
  rw [replace, List.map_append, List.map_cons, if_pos hid.symm, hkeep pre, hkeep rest]
  · intro q hq heq
    exact hrest (heq ▸ List.mem_map_of_mem hq)
  · intro q hq heq
    exact hpre _ (List.mem_map_of_mem hq) _ (List.mem_cons_self ..) heq

/-- What the loop of `open` leaves, and when it goes through. -/
theorem Holds.interrupt {now : Nat} {rest : List Receipt} : ∀ {db : Db} {pre : List Receipt},
    Holds db (pre.map (Receipt.interrupted · now) ++ rest) →
    (∀ new, db.interrupt now rest = .ok new →
      Holds new ((pre ++ rest).map (Receipt.interrupted · now)) ∧
        new.pageSize = db.pageSize ∧ new.pageCount = db.pageCount) ∧
      (now ≤ i64Max → ∃ new, db.interrupt now rest = .ok new) := by
  induction rest with
  | nil =>
    intro db pre h
    rw [List.append_nil] at h ⊢
    refine ⟨fun new hnew => ?_, fun _ => ⟨db, rfl⟩⟩
    cases hnew
    exact ⟨h, rfl, rfl⟩
  | cons r rest ih =>
    intro db pre h
    -- the file after the first record
    have hnext : ∀ next : Db,
        Holds next (pre.map (Receipt.interrupted · now) ++ r.interrupted now :: rest) →
        Holds next ((pre ++ [r]).map (Receipt.interrupted · now) ++ rest) := by
      intro next hnext
      rw [List.map_append, List.append_assoc]
      exact hnext
    have hall : pre ++ r :: rest = pre ++ [r] ++ rest := by
      rw [List.append_assoc]
      rfl
    rw [hall]
    by_cases hstate : r.state = .downloading
    · have hr : r ∈ pre.map (Receipt.interrupted · now) ++ r :: rest :=
        List.mem_append_right _ (List.mem_cons_self ..)
      have hlater := r.interrupted_later now
      refine ⟨fun new hnew => ?_, fun hnow => ?_⟩
      · rw [Db.interrupt, if_pos hstate, bind_ok] at hnew
        obtain ⟨next, hupdate, hnew⟩ := hnew
        obtain ⟨hholds, hsize, hcount⟩ := h.update hr hlater hupdate
        rw [replace_at h.valid.ids hlater.id] at hholds
        obtain ⟨hnew, hsize', hcount'⟩ := (ih (hnext next hholds)).1 new hnew
        exact ⟨hnew, hsize'.trans hsize, hcount'.trans hcount⟩
      · obtain ⟨next, hupdate⟩ := h.update_ok hr hlater
          (r.interrupted_validate (h.valid.checked r hr) hnow)
        have hholds := (h.update hr hlater hupdate).1
        rw [replace_at h.valid.ids hlater.id] at hholds
        rw [Db.interrupt, if_pos hstate, hupdate, ok_bind]
        exact (ih (hnext next hholds)).2 hnow
    · have hsame : r.interrupted now = r := (r.interrupted_later now).final hstate
      rw [Db.interrupt, if_neg hstate]
      exact ih (hnext db (by rw [hsame]; exact h))

end

end Eef.Node.Download
