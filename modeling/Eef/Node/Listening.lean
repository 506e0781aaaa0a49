import Eef.Node.Lease

/-!
# Listening consent and its revocation

`listening.rs` decides whether ambient input may be captured. Two things are kept: a
`Gate` in memory, whose permits die when it is denied or its runtime goes, and the
consent in the configuration with a revision that counts its changes.

A permit remembers the epoch it was issued in. The epoch is 64 bits wide and saturates,
so the argument has two halves: below the top the epoch has moved on and never comes
back; at the top the gate is `Spent` — blocked or retired for good, because `allow` and
`bindRuntime` refuse there. `Dead` is the disjunction, and every operation keeps it.

For the configuration, `preserveRevision` is the only way a document is saved.
-/

namespace Eef.Node.Listening

open Eef.Lib

/-! ## The gate -/

/-- `listening::State`; its two counters are 64 bits wide. -/
structure State where
  epoch : Nat
  blocked : Bool
  runtimeGeneration : Nat
  runtimeRetired : Bool
  epoch_le : epoch ≤ u64Max
  generation_le : runtimeGeneration ≤ u64Max
  deriving DecidableEq, Repr

/-- `u64::saturating_add(1)`. -/
def saturatingSucc (n : Nat) : Nat := min (n + 1) u64Max

theorem saturatingSucc_le (n : Nat) : saturatingSucc n ≤ u64Max := Nat.min_le_right _ _

namespace State

/-- `State::default`. -/
def default : State := ⟨0, false, 0, false, Nat.zero_le _, Nat.zero_le _⟩

/-- `Gate::deny`. -/
def deny (s : State) : State :=
  if s.blocked then s
  else { s with
    epoch := saturatingSucc s.epoch
    blocked := true
    epoch_le := saturatingSucc_le _ }

/-- `Gate::retire_runtime`. -/
def retireRuntime (s : State) : State :=
  if h : s.epoch < u64Max then
    { s with
      runtimeRetired := true
      epoch := s.epoch + 1
      epoch_le := h }
  else { s with
    runtimeRetired := true
    blocked := true }

/-- `Gate::bind_runtime`: the first binding keeps the epoch. -/
def bindRuntime (s : State) : State :=
  if h : s.runtimeGeneration = u64Max ∨ s.epoch = u64Max then
    { s with
      blocked := true
      runtimeRetired := true }
  else
    { s with
      epoch := if 0 < s.runtimeGeneration then s.epoch + 1 else s.epoch
      runtimeGeneration := s.runtimeGeneration + 1
      runtimeRetired := false
      epoch_le := by
        have := s.epoch_le
        split <;> omega
      generation_le := by
        have := s.generation_le
        omega }

/-- `Gate::retire_generation`. -/
def retireGeneration (s : State) (expected : Nat) : State :=
  if s.runtimeGeneration ≠ expected ∨ s.runtimeRetired then s
  else { s with
    epoch := saturatingSucc s.epoch
    runtimeRetired := true
    epoch_le := saturatingSucc_le _ }

/-- `Gate::allow`. -/
def allow (s : State) : Result State := do
  ensure (s.epoch ≠ u64Max ∧ s.runtimeGeneration ≠ u64Max) "Listening revocation epoch exhausted"
  return { s with blocked := false }

end State

/-- `listening::Permit`, by the epoch it was issued in. -/
structure Permit where
  epoch : Nat
  deriving DecidableEq, Repr

/-- `Gate::permit`. -/
def State.permit (s : State) : Result Permit := do
  ensure (s.blocked = false ∧ s.runtimeRetired = false)
    "Listening consent revoked or runtime is retiring"
  return ⟨s.epoch⟩

/-- The permit is good: the gate is neither blocked nor retired, and in its epoch. -/
def State.live (s : State) (p : Permit) : Prop :=
  s.blocked = false ∧ s.runtimeRetired = false ∧ s.epoch = p.epoch

instance (s : State) (p : Permit) : Decidable (s.live p) := inferInstanceAs (Decidable (_ ∧ _))

/-- The operations on a gate. -/
inductive Op where
  | deny
  | allow
  | bindRuntime
  | retireRuntime
  | retireGeneration (expected : Nat)
  | permit
  deriving DecidableEq, Repr

/-- One operation; a refused one leaves the gate. -/
def Op.apply (s : State) : Op → State
  | .deny => s.deny
  | .allow => match s.allow with
    | .ok s' => s'
    | .error _ => s
  | .bindRuntime => s.bindRuntime
  | .retireRuntime => s.retireRuntime
  | .retireGeneration expected => s.retireGeneration expected
  | .permit => s

/-- A run of operations. -/
def run (s : State) (ops : List Op) : State := ops.foldl Op.apply s

/-- The operations that revoke: a denial, a retirement, the rebinding of a bound
runtime, and a retirement of the generation that is bound. -/
def Op.revokes (s : State) : Op → Prop
  | .deny => True
  | .retireRuntime => True
  | .bindRuntime => 0 < s.runtimeGeneration
  | .retireGeneration expected => s.runtimeGeneration = expected ∧ s.runtimeRetired = false
  | _ => False

/-! ## A revoked permit stays revoked -/

/-- Nothing brings the gate back: it is blocked with a counter at the top, or retired
with the epoch there. -/
def Spent (s : State) : Prop :=
  (s.blocked = true ∧ (s.epoch = u64Max ∨ s.runtimeGeneration = u64Max))
    ∨ (s.runtimeRetired = true ∧ s.epoch = u64Max)

/-- The permit can never be live again. -/
def Dead (s : State) (p : Permit) : Prop := p.epoch < s.epoch ∨ Spent s

theorem Spent.not_live {s : State} {p : Permit} (h : Spent s) : ¬s.live p := by
  intro hl
  rcases h with ⟨hb, _⟩ | ⟨hr, _⟩
  · exact absurd hb (by simp [hl.1])
  · exact absurd hr (by simp [hl.2.1])

theorem Dead.not_live {s : State} {p : Permit} (h : Dead s p) : ¬s.live p := by
  rcases h with h | h
  · intro hl
    have := hl.2.2
    omega
  · exact h.not_live

attribute [local simp] Op.apply State.deny State.retireRuntime State.bindRuntime
  State.retireGeneration State.allow

/-- The epoch never goes back. -/
theorem Op.epoch_mono (s : State) (op : Op) : s.epoch ≤ (op.apply s).epoch := by
  have hs := s.epoch_le
  cases op with
  | deny =>
    simp only [Op.apply, State.deny, saturatingSucc]
    split
    · exact Nat.le_refl _
    · show s.epoch ≤ min (s.epoch + 1) u64Max
      omega
  | allow =>
    by_cases h : s.epoch ≠ u64Max ∧ s.runtimeGeneration ≠ u64Max
    · simp [Op.apply, State.allow, ensure, h, bind, Except.bind, pure, Except.pure]
    · simp [Op.apply, State.allow, ensure, h, bind, Except.bind]
  | bindRuntime =>
    simp only [Op.apply, State.bindRuntime]
    split
    · exact Nat.le_refl _
    · show s.epoch ≤ if 0 < s.runtimeGeneration then s.epoch + 1 else s.epoch
      split <;> omega
  | retireRuntime =>
    simp only [Op.apply, State.retireRuntime]
    split
    · exact Nat.le_succ _
    · exact Nat.le_refl _
  | retireGeneration expected =>
    simp only [Op.apply, State.retireGeneration, saturatingSucc]
    split
    · exact Nat.le_refl _
    · show s.epoch ≤ min (s.epoch + 1) u64Max
      omega
  | permit => exact Nat.le_refl _

/-- At the top `allow` and `bindRuntime` refuse, so a spent gate stays spent. -/
theorem Op.spent_step {s : State} (op : Op) (h : Spent s) : Spent (op.apply s) := by
  have hs := s.epoch_le
  have hg := s.generation_le
  cases op with
  | deny =>
    simp only [Op.apply, State.deny, saturatingSucc]
    by_cases hb : s.blocked = true
    · rwa [if_pos hb]
    · rw [if_neg hb]
      rcases h with ⟨hb', _⟩ | ⟨_, he⟩
      · exact absurd hb' hb
      · refine .inl ⟨rfl, .inl ?_⟩
        show min (s.epoch + 1) u64Max = u64Max
        omega
  | allow =>
    simp only [Op.apply, State.allow]
    rcases h with ⟨hb, htop⟩ | ⟨hr, he⟩
    · have : ¬(s.epoch ≠ u64Max ∧ s.runtimeGeneration ≠ u64Max) := by tauto
      simp only [ensure, this, if_false, error_bind]
      exact .inl ⟨hb, htop⟩
    · have : ¬(s.epoch ≠ u64Max ∧ s.runtimeGeneration ≠ u64Max) := by tauto
      simp only [ensure, this, if_false, error_bind]
      exact .inr ⟨hr, he⟩
  | bindRuntime =>
    have htop : s.runtimeGeneration = u64Max ∨ s.epoch = u64Max := by
      rcases h with ⟨_, h | h⟩ | ⟨_, h⟩
      · exact .inr h
      · exact .inl h
      · exact .inr h
    simp only [Op.apply, State.bindRuntime, dif_pos htop]
    exact .inl ⟨rfl, htop.symm⟩
  | retireRuntime =>
    simp only [Op.apply, State.retireRuntime]
    by_cases he : s.epoch < u64Max
    · rw [dif_pos he]
      -- below the top of the epoch it is the generation that is spent
      rcases h with ⟨hb, htop⟩ | ⟨_, he'⟩
      · exact .inl ⟨hb, .inr (htop.resolve_left (by omega))⟩
      · omega
    · rw [dif_neg he]
      have htop : s.epoch = u64Max := by omega
      exact .inl ⟨rfl, .inl htop⟩
  | retireGeneration expected =>
    simp only [Op.apply, State.retireGeneration, saturatingSucc]
    by_cases hc : s.runtimeGeneration ≠ expected ∨ s.runtimeRetired = true
    · rwa [if_pos hc]
    · rw [if_neg hc]
      rcases h with ⟨hb, he | hgen⟩ | ⟨hr, _⟩
      · refine .inl ⟨hb, .inl ?_⟩
        show min (s.epoch + 1) u64Max = u64Max
        omega
      · exact .inl ⟨hb, .inr hgen⟩
      · exact absurd (.inr hr) hc
  | permit => exact h

/-- Step: a dead permit stays dead. -/
theorem Op.dead_step {s : State} {p : Permit} (op : Op) (h : Dead s p) : Dead (op.apply s) p := by
  rcases h with h | h
  · exact .inl (Nat.lt_of_lt_of_le h (op.epoch_mono s))
  · exact .inr (op.spent_step h)

theorem epoch_le_run (s : State) (ops : List Op) : s.epoch ≤ (run s ops).epoch := by
  induction ops generalizing s with
  | nil => exact Nat.le_refl _
  | cons op rest ih => exact Nat.le_trans (op.epoch_mono s) (ih (op.apply s))

/-- Run: a dead permit is dead at the end of every run. -/
theorem dead_run {s : State} {p : Permit} (h : Dead s p) (ops : List Op) : Dead (run s ops) p := by
  induction ops generalizing s with
  | nil => exact h
  | cons op rest ih => exact ih (op.dead_step h)

/-- What a revoking operation does to a permit that may still be live. -/
theorem Op.revokes_dead {s : State} {p : Permit} {op : Op} (hp : p.epoch ≤ s.epoch)
    (hlive : s.live p ∨ Dead s p) (h : op.revokes s) : Dead (op.apply s) p := by
  rcases hlive with hlive | hdead
  · obtain ⟨hb, hr, he⟩ := hlive
    have hs := s.epoch_le
    cases op with
    | deny =>
      simp only [Op.apply, State.deny, hb, Bool.false_eq_true, if_false]
      by_cases htop : s.epoch = u64Max
      · refine .inr (.inl ⟨rfl, .inl ?_⟩)
        show saturatingSucc s.epoch = u64Max
        unfold saturatingSucc
        omega
      · refine .inl ?_
        show p.epoch < saturatingSucc s.epoch
        unfold saturatingSucc
        omega
    | allow => exact absurd h id
    | bindRuntime =>
      have hbound : 0 < s.runtimeGeneration := h
      by_cases htop : s.runtimeGeneration = u64Max ∨ s.epoch = u64Max
      · simp only [Op.apply, State.bindRuntime, dif_pos htop]
        exact .inr (.inl ⟨rfl, htop.symm⟩)
      · simp only [Op.apply, State.bindRuntime, dif_neg htop]
        refine .inl ?_
        show p.epoch < if 0 < s.runtimeGeneration then s.epoch + 1 else s.epoch
        rw [if_pos hbound]
        omega
    | retireRuntime =>
      by_cases htop : s.epoch < u64Max
      · simp only [Op.apply, State.retireRuntime, dif_pos htop]
        exact .inl (Nat.lt_succ_of_le hp)
      · simp only [Op.apply, State.retireRuntime, dif_neg htop]
        have : s.epoch = u64Max := by omega
        exact .inr (.inl ⟨rfl, .inl this⟩)
    | retireGeneration expected =>
      obtain ⟨hgen, _⟩ := h
      have hc : ¬(s.runtimeGeneration ≠ expected ∨ s.runtimeRetired = true) := by simp [hgen, hr]
      simp only [Op.apply, State.retireGeneration, if_neg hc]
      by_cases htop : s.epoch = u64Max
      · refine .inr (.inr ⟨rfl, ?_⟩)
        show saturatingSucc s.epoch = u64Max
        unfold saturatingSucc
        omega
      · refine .inl ?_
        show p.epoch < saturatingSucc s.epoch
        unfold saturatingSucc
        omega
    | permit => exact absurd h id
  · exact op.dead_step hdead

/-- Step: a permit that is live stays live or is dead. -/
theorem Op.live_or_dead_step {s : State} {p : Permit} (op : Op) (h : s.live p ∨ Dead s p) :
    (op.apply s).live p ∨ Dead (op.apply s) p := by
  rcases h with hlive | hdead
  · by_cases hrev : op.revokes s
    · exact .inr (op.revokes_dead (Nat.le_of_eq hlive.2.2.symm) (.inl hlive) hrev)
    · obtain ⟨hb, hr, he⟩ := hlive
      cases op with
      | deny => exact absurd trivial hrev
      | retireRuntime => exact absurd trivial hrev
      | retireGeneration expected =>
        have hc : s.runtimeGeneration ≠ expected ∨ s.runtimeRetired = true :=
          .inl fun e => hrev ⟨e, hr⟩
        simp only [Op.apply, State.retireGeneration, if_pos hc]
        exact .inl ⟨hb, hr, he⟩
      | allow =>
        by_cases htop : s.epoch ≠ u64Max ∧ s.runtimeGeneration ≠ u64Max
        · simp only [Op.apply, State.allow, ensure, if_pos htop, ok_bind]
          exact .inl ⟨rfl, hr, he⟩
        · simp only [Op.apply, State.allow, ensure, if_neg htop, error_bind]
          exact .inl ⟨hb, hr, he⟩
      | bindRuntime =>
        -- the first binding, which keeps the epoch unless a counter is at the top
        have hfirst : ¬0 < s.runtimeGeneration := hrev
        by_cases htop : s.runtimeGeneration = u64Max ∨ s.epoch = u64Max
        · simp only [Op.apply, State.bindRuntime, dif_pos htop]
          exact .inr (.inr (.inl ⟨rfl, htop.symm⟩))
        · simp only [Op.apply, State.bindRuntime, dif_neg htop]
          refine .inl ⟨hb, rfl, ?_⟩
          show (if 0 < s.runtimeGeneration then s.epoch + 1 else s.epoch) = p.epoch
          rw [if_neg hfirst, he]
      | permit => exact .inl ⟨hb, hr, he⟩
  · exact .inr (op.dead_step hdead)

/-- Run: from its issue on a permit is live or dead. -/
theorem live_or_dead_run {s : State} {p : Permit} (h : s.live p ∨ Dead s p) (ops : List Op) :
    (run s ops).live p ∨ Dead (run s ops) p := by
  induction ops generalizing s with
  | nil => exact h
  | cons op rest ih => exact ih (op.live_or_dead_step h)

theorem State.permit_ok {s : State} {p : Permit} :
    s.permit = .ok p ↔ s.blocked = false ∧ s.runtimeRetired = false ∧ p = ⟨s.epoch⟩ := by
  simp only [State.permit, bind_ok, ensure_ok, pure_ok]
  constructor
  · rintro ⟨_, ⟨hb, hr⟩, rfl⟩
    exact ⟨hb, hr, rfl⟩
  · rintro ⟨hb, hr, rfl⟩
    exact ⟨(), ⟨hb, hr⟩, rfl⟩

theorem run_append (s : State) (before after : List Op) :
    run s (before ++ after) = run (run s before) after := List.foldl_append

/-- A permit is not live after a revoking operation, whatever follows. -/
theorem revoked_permit_not_live {s : State} {p : Permit} (hp : s.permit = .ok p)
    {before after : List Op} {op : Op} (h : op.revokes (run s before)) :
    ¬(run s (before ++ op :: after)).live p := by
  obtain ⟨hb, hr, rfl⟩ := State.permit_ok.mp hp
  have hmid := live_or_dead_run (p := ⟨s.epoch⟩) (.inl ⟨hb, hr, rfl⟩) before
  have hdead : Dead (op.apply (run s before)) ⟨s.epoch⟩ :=
    op.revokes_dead (epoch_le_run s before) hmid h
  rw [run_append]
  exact (dead_run hdead after).not_live

/-! ## Consent in the configuration -/

/-- `listening::Consent`. -/
structure Consent where
  enabled : Bool
  deriving DecidableEq, Repr

namespace Consent

def toJson (c : Consent) : Json := .obj [("enabled", .bool c.enabled)]

/-- The derived reader, `#[serde(default, deny_unknown_fields)]`. -/
def decode (j : Json) : Option Consent := do
  let fields ← j.struct ["enabled"] 0
  let enabled ← Json.defaultField fields "enabled" Json.asBool false
  return ⟨enabled⟩

/-- `Consent::from_config`. -/
def fromConfig (config : Json) : Result Consent :=
  context (decode ((config.get? "listening").getD (.obj []))) "invalid listening consent"

theorem decode_toJson (c : Consent) : decode c.toJson = some c := by
  obtain ⟨b⟩ := c
  simp [decode, toJson, Json.struct, Json.defaultField, Json.asBool]

end Consent

/-- `listening::revision`. -/
def revision (config : Json) : Result Nat :=
  match config.get? "listening_revision" with
  | none => .ok 0
  | some (.num n) => context ((Json.Number.asU64 n).filter (· ≤ i64Max)) "Invalid listening revision"
  | some _ => .error "Invalid listening revision"

/-- `value[key] = v`: `null` becomes an object, and anything else panics. -/
def assign (j : Json) (key : String) (v : Json) : Result Json :=
  match j with
  | .null => .ok (.obj [(key, v)])
  | .obj fields => .ok (.obj (Assoc.set key v fields))
  | _ => .error "cannot access key in JSON value"

/-- `object.remove(key)`, when it is an object. -/
def strip (j : Json) (key : String) : Json :=
  match j with
  | .obj fields => .obj (Assoc.erase key fields)
  | other => other

/-- The consent an incoming document asks for. -/
def requested (before : Consent) (next : Json) : Result Consent :=
  if (next.get? "listening").isSome then Consent.fromConfig next else .ok before

/-- The revision counts the changes of consent. -/
def counted (before after : Consent) (previous : Nat) : Result Nat :=
  if before ≠ after then
    context ((some (previous + 1)).filter (· ≤ i64Max)) "Listening revision exhausted"
  else .ok previous

/-- The consent field, once either document has it. -/
def storeConsent (old next : Json) (localEnable : Bool) (after : Consent) : Result Json :=
  if (old.get? "listening").isSome ∨ (next.get? "listening").isSome ∨ localEnable then
    assign next "listening" after.toJson
  else .ok next

/-- The revision field: the one that came in is dropped. -/
def storeRevision (old next : Json) (current : Nat) : Result Json :=
  if current ≠ 0 ∨ (old.get? "listening_revision").isSome then
    assign next "listening_revision" (.nat current)
  else .ok (strip next "listening_revision")

/-- `preserve_revision`: the document that is saved for `next`. -/
def preserveRevision (old next : Json) (localEnable : Bool) : Result Json := do
  let before ← Consent.fromConfig old
  let after ← requested before next
  ensure (after.enabled = false ∨ before.enabled = true ∨ localEnable = true)
    "Enable ambient-input consent with the local node listening command"
  let previous ← revision old
  let current ← counted before after previous
  let next ← storeConsent old next localEnable after
  storeRevision old next current

theorem get?_assign {j v saved : Json} {key : String} (h : assign j key v = .ok saved)
    (k : String) : saved.get? k = if k = key then some v else j.get? k := by
  unfold assign at h
  split at h
  · cases h
    show List.lookup k [(key, v)] = _
    rw [Assoc.lookup_cons]
    rfl
  · cases h
    simp only [Json.get?, Assoc.lookup_set]
  · cases h

theorem get?_strip (j : Json) (key k : String) :
    (strip j key).get? k = if k = key then none else j.get? k := by
  cases j with
  | obj fields => simp only [strip, Json.get?, Assoc.lookup_erase]
  | _ => simp [strip, Json.get?]

theorem fromConfig_none {config : Json} (h : config.get? "listening" = none) :
    Consent.fromConfig config = .ok ⟨false⟩ := by
  simp [Consent.fromConfig, h, Consent.decode, Json.struct, Json.defaultField, context]

theorem fromConfig_some {config : Json} {c : Consent}
    (h : config.get? "listening" = some c.toJson) : Consent.fromConfig config = .ok c := by
  simp [Consent.fromConfig, h, Consent.decode_toJson, context]

theorem revision_none {config : Json} (h : config.get? "listening_revision" = none) :
    revision config = .ok 0 := by
  simp [revision, h]

theorem revision_some {config : Json} {n : Nat} (hn : n ≤ i64Max)
    (h : config.get? "listening_revision" = some (.nat n)) : revision config = .ok n := by
  simp [revision, h, Json.nat, Json.Number.asU64, hn, context, Option.filter]

theorem revision_le {config : Json} {n : Nat} (h : revision config = .ok n) : n ≤ i64Max := by
  unfold revision at h
  split at h
  · cases h
    exact Nat.zero_le _
  · rw [context_ok, Option.filter_eq_some_iff] at h
    simpa using h.2
  · cases h

/-- What a save makes of consent and revision. -/
structure Saved (old saved : Json) (localEnable : Bool) (before after : Consent)
    (previous current : Nat) : Prop where
  consentBefore : Consent.fromConfig old = .ok before
  consentAfter : Consent.fromConfig saved = .ok after
  revisionBefore : revision old = .ok previous
  revisionAfter : revision saved = .ok current
  enabled : after.enabled = true → before.enabled = true ∨ localEnable = true
  counted : current = if before ≠ after then previous + 1 else previous

theorem counted_ok {before after : Consent} {previous current : Nat}
    (hp : previous ≤ i64Max) (h : counted before after previous = .ok current) :
    current = (if before ≠ after then previous + 1 else previous) ∧ current ≤ i64Max := by
  unfold counted at h
  by_cases hne : before ≠ after
  · rw [if_pos hne, context_ok, Option.filter_eq_some_iff] at h
    obtain ⟨he, hle⟩ := h
    cases he
    rw [if_pos hne]
    exact ⟨rfl, by simpa using hle⟩
  · rw [if_neg hne] at h
    cases h
    rw [if_neg hne]
    exact ⟨rfl, hp⟩

/-- The revision is stored beside everything else. -/
theorem storeRevision_ok {old next saved : Json} {current : Nat} (hc : current ≤ i64Max)
    (h : storeRevision old next current = .ok saved) :
    revision saved = .ok current ∧ saved.get? "listening" = next.get? "listening" := by
  unfold storeRevision at h
  split at h
  · refine ⟨revision_some hc ?_, ?_⟩
    · rw [get?_assign h, if_pos rfl]
    · rw [get?_assign h, if_neg (by decide)]
  next hzero =>
    push Not at hzero
    cases h
    rw [hzero.1]
    refine ⟨revision_none ?_, ?_⟩
    · rw [get?_strip, if_pos rfl]
    · rw [get?_strip, if_neg (by decide)]

/-- The stored consent is the one that was asked for. -/
theorem storeConsent_ok {old next mid saved : Json} {localEnable : Bool} {before after : Consent}
    (hb : Consent.fromConfig old = .ok before) (ha : requested before next = .ok after)
    (h : storeConsent old next localEnable after = .ok mid)
    (hs : saved.get? "listening" = mid.get? "listening") :
    Consent.fromConfig saved = .ok after := by
  unfold storeConsent at h
  split at h
  · refine fromConfig_some ?_
    rw [hs, get?_assign h, if_pos rfl]
  next hneither =>
    -- neither document has the field: consent is denied before and after
    push Not at hneither
    cases h
    have hold : old.get? "listening" = none := by simpa using hneither.1
    have hnext : next.get? "listening" = none := by simpa using hneither.2.1
    rw [fromConfig_none hold] at hb
    simp only [requested, hnext, Option.isSome_none, Bool.false_eq_true, if_false,
      Except.ok.injEq] at ha
    rw [fromConfig_none (hs.trans hnext), ← ha, ← Except.ok.inj hb]

/-- Step: one save. -/
theorem preserveRevision_ok {old next saved : Json} {localEnable : Bool}
    (h : preserveRevision old next localEnable = .ok saved) :
    ∃ before after previous current, Saved old saved localEnable before after previous current := by
  simp only [preserveRevision, bind_ok, ensure_ok] at h
  obtain ⟨before, hbefore, after, hafter, _, hallowed, previous, hprev, current, hcur, mid, hmid,
    hsaved⟩ := h
  obtain ⟨hcount, hle⟩ := counted_ok (revision_le hprev) hcur
  obtain ⟨hrevision, hlistening⟩ := storeRevision_ok hle hsaved
  have hconsent := storeConsent_ok hbefore hafter hmid hlistening
  refine ⟨before, after, previous, current, hbefore, hconsent, hprev, hrevision, ?_, hcount⟩
  intro hen
  rcases hallowed with h | h | h
  · rw [hen] at h
    cases h
  · exact .inl h
  · exact .inr h

/-- A save of the consent touches no other member. -/
theorem preserveRevision_get? {old next saved : Json} {localEnable : Bool}
    (h : preserveRevision old next localEnable = .ok saved) (k : String) (hk : k ≠ "listening")
    (hr : k ≠ "listening_revision") : saved.get? k = next.get? k := by
  simp only [preserveRevision, bind_ok] at h
  obtain ⟨_, -, after, -, _, -, _, -, current, -, mid, hmid, hsaved⟩ := h
  have hfirst : mid.get? k = next.get? k := by
    unfold storeConsent at hmid
    split at hmid
    · rw [get?_assign hmid, if_neg hk]
    · cases hmid
      rfl
  unfold storeRevision at hsaved
  split at hsaved
  · rw [get?_assign hsaved, if_neg hr, hfirst]
  · cases hsaved
    rw [get?_strip, if_neg hr, hfirst]

/-- One save of a configuration; a refused document is not saved. -/
def save (config : Json) (next : Json × Bool) : Json :=
  match preserveRevision config next.1 next.2 with
  | .ok saved => saved
  | .error _ => config

/-- A sequence of saves. -/
def saves (config : Json) (documents : List (Json × Bool)) : Json := documents.foldl save config

/-- Run: the revision never decreases, and stands still only while consent does. -/
theorem saves_revision (config : Json) (documents : List (Json × Bool)) :
    saves config documents = config ∨ ∃ before after previous current,
      Consent.fromConfig config = .ok before ∧ Consent.fromConfig (saves config documents) = .ok after
        ∧ revision config = .ok previous ∧ revision (saves config documents) = .ok current
        ∧ previous ≤ current ∧ (previous = current → before = after) := by
  induction documents generalizing config with
  | nil => exact .inl rfl
  | cons next rest ih =>
    show saves (save config next) rest = config ∨ _
    cases hs : preserveRevision config next.1 next.2 with
    | error msg =>
      have hsame : save config next = config := by simp [save, hs]
      have hrun : saves config (next :: rest) = saves config rest := by
        show saves (save config next) rest = _
        rw [hsame]
      rw [hsame, hrun]
      exact ih config
    | ok saved =>
      have hsaved : save config next = saved := by simp [save, hs]
      have hrun : saves config (next :: rest) = saves saved rest := by
        show saves (save config next) rest = _
        rw [hsaved]
      rw [hrun]
      obtain ⟨b, a, m, n, h⟩ := preserveRevision_ok hs
      have hmn : m ≤ n ∧ (m = n → b = a) := by
        have := h.counted
        by_cases hne : b ≠ a
        · rw [if_pos hne] at this
          exact ⟨by omega, fun e => by omega⟩
        · rw [if_neg hne] at this
          exact ⟨by omega, fun _ => not_not.mp hne⟩
      right
      rcases ih saved with hstill | ⟨b', a', m', n', hb', ha', hm', hn', hle, heq⟩
      · rw [hstill]
        exact ⟨b, a, m, n, h.consentBefore, h.consentAfter, h.revisionBefore, h.revisionAfter,
          hmn.1, hmn.2⟩
      · have hba : b' = a := Except.ok.inj (hb'.symm.trans h.consentAfter)
        have hmn' : m' = n := Except.ok.inj (hm'.symm.trans h.revisionAfter)
        subst hba hmn'
        refine ⟨b, a', m, n', h.consentBefore, ha', h.revisionBefore, hn', by omega, ?_⟩
        intro e
        have h1 : m = m' := by omega
        have h2 : m' = n' := by omega
        exact (hmn.2 h1).trans (heq h2)

/-- Revocation is final. A permit is not live after a revoking operation, whatever
follows it; and consent comes only with a local enable, its revision counting exactly
its changes. -/
theorem revocation_final :
    (∀ (s : State) (p : Permit), s.permit = .ok p → ∀ (before after : List Op) (op : Op),
      op.revokes (run s before) → ¬(run s (before ++ op :: after)).live p)
    ∧ (∀ (config : Json) (documents : List (Json × Bool)) (next : Json) (localEnable : Bool)
        (saved : Json),
      preserveRevision (saves config documents) next localEnable = .ok saved →
        ∃ before after previous current,
          Saved (saves config documents) saved localEnable before after previous current)
    ∧ (∀ (config : Json) (earlier later : List (Json × Bool)) (n : Nat),
      revision (saves config earlier) = .ok n →
      revision (saves config (earlier ++ later)) = .ok n →
        Consent.fromConfig (saves config earlier)
          = Consent.fromConfig (saves config (earlier ++ later))) := by
  refine ⟨?_, ?_, ?_⟩
  · intro s p hp before after op h
    exact revoked_permit_not_live hp h
  · intro config documents next localEnable saved h
    exact preserveRevision_ok h
  · intro config earlier later n hn hn'
    have hsplit : saves config (earlier ++ later) = saves (saves config earlier) later :=
      List.foldl_append
    rw [hsplit] at hn' ⊢
    rcases saves_revision (saves config earlier) later with h | ⟨b, a, m, k, hb, ha, hm, hk, _, heq⟩
    · rw [h]
    · rw [hb, ha, heq (Except.ok.inj (hm.symm.trans (hn.trans (hn'.symm.trans hk))))]

/-- Consent given locally, kept by a later save that does not name it; and a permit that
neither a new consent nor a rebinding brings back. -/
theorem revocation_final_consent_kept :
    ¬(run State.default [.bindRuntime, .deny, .allow, .bindRuntime]).live ⟨0⟩
    ∧ (∃ before after previous current, Saved (saves (.obj []) []) (.obj
        [("listening", .obj [("enabled", .bool true)]), ("listening_revision", .nat 1)]) true
        before after previous current)
    ∧ Consent.fromConfig (saves (.obj []) [(.obj [("listening", .obj [("enabled", .bool true)])], true)])
      = Consent.fromConfig (saves (.obj [])
        ([(.obj [("listening", .obj [("enabled", .bool true)])], true)] ++ [(.obj [], false)])) :=
  ⟨revocation_final.1 State.default ⟨0⟩ rfl [.bindRuntime] [.allow, .bindRuntime] .deny trivial,
    revocation_final.2.1 (.obj []) [] (.obj [("listening", .obj [("enabled", .bool true)])]) true _
      (by decide),
    revocation_final.2.2 (.obj []) _ _ 1 (by decide) (by decide)⟩

end Eef.Node.Listening
