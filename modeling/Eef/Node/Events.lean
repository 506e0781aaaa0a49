import Eef.Node.Workload

/-!
# Workload events and the event filter

`workload_events.rs`: the bounded metadata one reviewed source reports. `Filter`
turns stream observations into events over raw instants; `Event.follows` is the
check the journal makes over the milliseconds an event carries. The encoding lemmas
bound an event's size from below and show that stored text reads back.
-/

namespace Eef.Node

open Eef.Lib

/-- `Kind`. -/
inductive EventKind where
  | microphoneActivity
  deriving DecidableEq, Repr

/-- `Event`. -/
structure Event where
  schemaVersion : Nat
  kind : EventKind
  sequence : Nat
  sourceSequence : Nat
  sourceFrames : Nat
  elapsedMs : Nat
  active : Option Bool
  level : Option Nat
  discontinuity : Bool
  deriving DecidableEq, Repr

def EventKind.fromJson (j : Json) : Option EventKind :=
  match j.asVariant with
  | some "microphone_activity" => some .microphoneActivity
  | _ => none

/-- `serde_json::to_vec(&event)`. -/
def Event.toJson (e : Event) : Json :=
  .obj [("schema_version", .nat e.schemaVersion), ("kind", .str "microphone_activity"),
    ("sequence", .nat e.sequence), ("source_sequence", .nat e.sourceSequence),
    ("source_frames", .nat e.sourceFrames), ("elapsed_ms", .nat e.elapsedMs),
    ("active", Json.ofOption .bool e.active), ("level", Json.ofOption Json.nat e.level),
    ("discontinuity", .bool e.discontinuity)]

def Event.fromJson (j : Json) : Option Event := do
  let fs ← j.struct ["schema_version", "kind", "sequence", "source_sequence", "source_frames",
    "elapsed_ms", "active", "level", "discontinuity"] 9
  let schemaVersion ← Json.field fs "schema_version" (Json.asUInt 32)
  let kind ← Json.field fs "kind" EventKind.fromJson
  let sequence ← Json.field fs "sequence" (Json.asUInt 64)
  let sourceSequence ← Json.field fs "source_sequence" (Json.asUInt 64)
  let sourceFrames ← Json.field fs "source_frames" (Json.asUInt 64)
  let elapsedMs ← Json.field fs "elapsed_ms" (Json.asUInt 64)
  let active ← Json.optField fs "active" Json.asBool
  let level ← Json.optField fs "level" (Json.asUInt 16)
  let discontinuity ← Json.field fs "discontinuity" Json.asBool
  return { schemaVersion, kind, sequence, sourceSequence, sourceFrames, elapsedMs, active, level,
           discontinuity }

/-! ## Checks on a retained event -/

/-- `Event::validate`. -/
def Event.validate (e : Event) (d : WorkloadDefinition) : Result Unit :=
  ensure (e.schemaVersion = 2 ∧ e.kind = .microphoneActivity ∧ 0 < e.sequence
    ∧ e.sequence ≤ d.events.maxEvents ∧ 0 < e.sourceSequence
    ∧ e.sourceSequence ≤ d.source.parameters.maxBlocks
    ∧ e.sourceFrames = e.sourceSequence * d.source.parameters.blockFrames
    ∧ e.sourceFrames ≤ d.limits.maxSourceFrames ∧ e.elapsedMs ≤ d.limits.maxSessionMs
    ∧ (∀ v ∈ e.level, v ≤ 32768) ∧ (e.active = none ∨ e.level.isSome)
    ∧ (e.discontinuity = false ∨ (e.active = none ∧ e.level = none)))
    "Invalid retained workload event"

/-- `Event::follows`. -/
def Event.follows (e : Event) (d : WorkloadDefinition) (previous : Option Event) :
    Result Unit := do
  e.validate d
  match previous with
  | none =>
    ensure (e.sequence = 1 ∧ e.sourceSequence = 1 ∧ e.elapsedMs = 0)
      "Initial workload event position changed"
  | some p =>
    ensure ((p.sequence < u64Max ∧ e.sequence = p.sequence + 1)
      ∧ p.sourceSequence < e.sourceSequence
      ∧ min (p.elapsedMs + d.events.minIntervalMs) u64Max ≤ e.elapsedMs
      ∧ (e.active ≠ p.active ∨ e.discontinuity = true))
      "Workload event prefix, rate or transition changed"

/-- What a valid event guarantees. -/
structure Event.Valid (e : Event) (d : WorkloadDefinition) : Prop where
  version : e.schemaVersion = 2
  sequence_pos : 0 < e.sequence
  sequence_le : e.sequence ≤ d.events.maxEvents
  source_pos : 0 < e.sourceSequence
  source_le : e.sourceSequence ≤ d.source.parameters.maxBlocks
  frames : e.sourceFrames = e.sourceSequence * d.source.parameters.blockFrames
  frames_le : e.sourceFrames ≤ d.limits.maxSourceFrames
  elapsed_le : e.elapsedMs ≤ d.limits.maxSessionMs
  level_le : ∀ v ∈ e.level, v ≤ 32768
  active_level : e.active = none ∨ e.level.isSome = true
  discontinuity : e.discontinuity = false ∨ (e.active = none ∧ e.level = none)

theorem Event.validate_ok {e : Event} {d : WorkloadDefinition} {u : Unit} :
    e.validate d = .ok u ↔ e.Valid d := by
  rw [Event.validate, ensure_ok]
  constructor
  · rintro ⟨h1, -, h2, h3, h4, h5, h6, h7, h8, h9, h10, h11⟩
    exact ⟨h1, h2, h3, h4, h5, h6, h7, h8, h9, h10, h11⟩
  · rintro ⟨h1, h2, h3, h4, h5, h6, h7, h8, h9, h10, h11⟩
    exact ⟨h1, by cases e.kind; rfl, h2, h3, h4, h5, h6, h7, h8, h9, h10, h11⟩

/-- The position test of `Event::follows`, after validation. -/
def Event.next (e : Event) (d : WorkloadDefinition) : Option Event → Prop
  | none => e.sequence = 1 ∧ e.sourceSequence = 1 ∧ e.elapsedMs = 0
  | some p => (p.sequence < u64Max ∧ e.sequence = p.sequence + 1)
      ∧ p.sourceSequence < e.sourceSequence
      ∧ min (p.elapsedMs + d.events.minIntervalMs) u64Max ≤ e.elapsedMs
      ∧ (e.active ≠ p.active ∨ e.discontinuity = true)

theorem Event.follows_ok {e : Event} {d : WorkloadDefinition} {previous : Option Event} {u : Unit} :
    e.follows d previous = .ok u ↔ e.Valid d ∧ e.next d previous := by
  cases previous <;>
    simp only [Event.follows, Event.next, bind_ok, Event.validate_ok, ensure_ok, exists_and_left,
      exists_const]

/-! ## Encoding -/

/-- An event is its own stored text, read back. -/
theorem Event.fromJson_toJson {e : Event} {d : WorkloadDefinition} [F64] (hd : d.Valid)
    (h : e.Valid d) : Event.fromJson e.toJson = some e := by
  have hsession := hd.session.2
  have hframes := hd.frames
  have hblocks := hd.maxBlocks.2
  have hevents := hd.maxEvents.2
  have h1 := h.sequence_le
  have h2 := h.source_le
  have h3 := h.frames_le
  have h4 := h.elapsed_le
  simp only [maxSessionMs] at hsession
  have hkind : e.kind = .microphoneActivity := by cases e.kind; rfl
  have hlevel : Json.optField [("level", Json.ofOption Json.nat e.level)] "level" (Json.asUInt 16) =
      some e.level := by
    cases hl : e.level with
    | none => rfl
    | some v =>
      have hv := h.level_le v (by simp [hl])
      have : Json.asUInt 16 (Json.nat v) = some v := Json.asUInt_nat (by omega)
      show (Json.asUInt 16 (Json.nat v)).map some = _
      rw [this]
      rfl
  rw [Event.toJson, Event.fromJson]
  refine Eq.trans (Json.struct_bind ?_ ?_) ?_
  · rfl
  · decide
  refine (Json.field_bind rfl (Json.asUInt_nat (by rw [h.version]; decide))).trans ?_
  refine (Json.field_bind (a := EventKind.microphoneActivity) rfl rfl).trans ?_
  refine (Json.field_bind rfl (Json.asUInt_nat (by omega))).trans ?_
  refine (Json.field_bind rfl (Json.asUInt_nat (by omega))).trans ?_
  refine (Json.field_bind rfl (Json.asUInt_nat (by omega))).trans ?_
  refine (Json.field_bind rfl (Json.asUInt_nat (by omega))).trans ?_
  refine (Json.optField_bind (Json.optField_bool (o := e.active) rfl)).trans ?_
  refine (Json.optField_bind hlevel).trans ?_
  refine (Json.field_bind (a := e.discontinuity) rfl rfl).trans ?_
  rw [← hkind]
  rfl

section
variable [F64]

/-- Bytes of an optional value: `null` takes four. -/
theorem ofOption_size_pos {α : Type} {f : α → Json} (hf : ∀ a, 0 < (f a).size) (o : Option α) :
    0 < (Json.ofOption f o).size := by
  cases o with
  | none => simp [Json.ofOption, Json.size]
  | some a => exact hf a

/-- Every encoded event takes at least 128 bytes. -/
theorem Event.minBytes (e : Event) : 128 ≤ e.toJson.size := by
  have h1 := Json.natSize_pos e.schemaVersion
  have h2 := Json.natSize_pos e.sequence
  have h3 := Json.natSize_pos e.sourceSequence
  have h4 := Json.natSize_pos e.sourceFrames
  have h5 := Json.natSize_pos e.elapsedMs
  have h6 : 0 < (Json.ofOption Json.nat e.level).size := by
    refine ofOption_size_pos (fun n => ?_) _
    simpa [Json.nat, Json.size, Json.numSize] using Json.natSize_pos n
  have h7 : 0 < (Json.ofOption Json.bool e.active).size := by
    refine ofOption_size_pos (fun b => ?_) _
    cases b <;> simp [Json.size]
  have k1 : Json.strSize "schema_version" = 16 := by decide
  have k2 : Json.strSize "kind" = 6 := by decide
  have k3 : Json.strSize "sequence" = 10 := by decide
  have k4 : Json.strSize "source_sequence" = 17 := by decide
  have k5 : Json.strSize "source_frames" = 15 := by decide
  have k6 : Json.strSize "elapsed_ms" = 12 := by decide
  have k7 : Json.strSize "active" = 8 := by decide
  have k8 : Json.strSize "level" = 7 := by decide
  have k9 : Json.strSize "discontinuity" = 15 := by decide
  have k10 : Json.strSize "microphone_activity" = 21 := by decide
  simp only [Event.toJson, Json.size, Json.fieldsSize, Json.nat, Json.numSize, k1, k2, k3, k4, k5,
    k6, k7, k8, k9, k10] at *
  omega

end

/-! ## The filter -/

/-- `StreamObservation`. -/
structure StreamObservation where
  sequence : Nat
  sourceFrames : Nat
  active : Option Bool
  level : Option Nat
  discontinuity : Bool
  deriving DecidableEq, Repr

/-- `StreamSummary`, as far as the filter reads it. -/
structure StreamSummary where
  observations : Nat
  sourceFrames : Nat
  deriving DecidableEq, Repr

/-- `Filter`; instants are nanoseconds. -/
structure Filter where
  limits : Events
  blockFrames : Nat
  maxBlocks : Nat
  maxSourceFrames : Nat
  lastSourceSequence : Nat
  lastSourceFrames : Nat
  lastObservedAt : Option Nat
  firstObservedAt : Option Nat
  lastActive : Option (Option Bool)
  lastEventAt : Option Nat
  events : Nat
  bytes : Nat
  failed : Bool
  lastEvent : Option Event
  deriving DecidableEq, Repr

/-- `EventSeal`. -/
structure EventSeal where
  count : Nat
  bytes : Nat
  last : Event
  deriving DecidableEq, Repr

/-- `EventSeal::confirms`. -/
def EventSeal.confirms (s : EventSeal) (count bytes : Nat) (last : Event) : Bool :=
  s.count == count && s.bytes == bytes && s.last == last

namespace Filter

/-- The filter `Filter::new` starts from, after its checks. -/
def start (d : WorkloadDefinition) : Filter where
  limits := d.events
  blockFrames := d.source.parameters.blockFrames
  maxBlocks := d.source.parameters.maxBlocks
  maxSourceFrames := d.limits.maxSourceFrames
  lastSourceSequence := 0
  lastSourceFrames := 0
  lastObservedAt := none
  firstObservedAt := none
  lastActive := none
  lastEventAt := none
  events := 0
  bytes := 0
  failed := false
  lastEvent := none

/-- The first `ensure!` of `Filter::accept`. -/
def continues (f : Filter) (o : StreamObservation) (now : Nat) : Prop :=
  o.sequence = f.lastSourceSequence + 1 ∧ o.sequence ≤ f.maxBlocks
    ∧ o.sourceFrames = f.lastSourceFrames + f.blockFrames ∧ o.sourceFrames ≤ f.maxSourceFrames
    ∧ (∀ v ∈ o.level, v ≤ 32768) ∧ (o.active = none ∨ o.level.isSome)
    ∧ (o.discontinuity = false ∨ (o.active = none ∧ o.level = none))
    ∧ (∀ previous ∈ f.lastObservedAt, previous ≤ now)

instance (f : Filter) (o : StreamObservation) (now : Nat) : Decidable (f.continues o now) :=
  inferInstanceAs (Decidable (_ ∧ _))

/-- The source position and times every continued observation records. -/
def advance (f : Filter) (o : StreamObservation) (now : Nat) : Filter :=
  { f with lastSourceSequence := o.sequence, lastSourceFrames := o.sourceFrames,
           lastObservedAt := some now, firstObservedAt := some (f.firstObservedAt.getD now) }

/-- `now.duration_since(then).as_millis()`. -/
def elapsed (since now : Nat) : Nat := (now - since) / 1000000

/-- The event an observation that changes activity becomes. -/
def eventOf (f : Filter) (o : StreamObservation) (now : Nat) : Event where
  schemaVersion := 2
  kind := .microphoneActivity
  sequence := f.events + 1
  sourceSequence := o.sequence
  sourceFrames := o.sourceFrames
  elapsedMs := elapsed (f.firstObservedAt.getD now) now
  active := o.active
  level := o.level
  discontinuity := o.discontinuity

section
variable [F64]

/-- `Filter::new`. -/
def new (d : WorkloadDefinition) : Result Filter := do
  d.validate
  return start d

/-- The limits an event has to meet before it is emitted. -/
def admits (f : Filter) (e : Event) (now : Nat) : Result Unit := do
  ensure (∀ previous ∈ f.lastEventAt, f.limits.minIntervalMs ≤ elapsed previous now)
    "Workload event rate exceeded; source must stop"
  ensure (f.events < f.limits.maxEvents) "Workload event count exceeded; source must stop"
  ensure (e.elapsedMs ≤ u64Max) "out of range integral type conversion attempted"
  ensure (e.toJson.size ≤ f.limits.maxEventBytes
    ∧ e.toJson.size ≤ f.limits.maxTotalBytes - f.bytes)
    "Workload event bytes exceeded; source must stop"

/-- What emitting an event records. -/
def emit (f : Filter) (e : Event) (now : Nat) : Filter :=
  { f with events := f.events + 1, bytes := f.bytes + e.toJson.size, lastActive := some e.active,
           lastEventAt := some now, lastEvent := some e }

/-- `Filter::accept`. -/
def accept (f : Filter) (o : StreamObservation) (now : Nat) : Filter × Result (Option Event) :=
  if f.continues o now then
    let f' := f.advance o now
    if f.lastActive = some o.active ∧ o.discontinuity = false then (f', .ok none)
    else
      let e := f'.eventOf o now
      match f'.admits e now with
      | .ok () => (f'.emit e now, .ok (some e))
      | .error m => (f', .error m)
  else (f, .error "Workload source observation changed or skipped")

/-- `Filter::observe`. -/
def observe (f : Filter) (o : StreamObservation) (now : Nat) : Filter × Result (Option Event) :=
  if f.failed then (f, .error "Workload event reporting already stopped")
  else
    match f.accept o now with
    | (f', .ok event) => (f', .ok event)
    | (f', .error m) => ({ f' with failed := true }, .error m)

end

/-- `Filter::seal`. -/
def sealEvents (f : Filter) (summary : StreamSummary) : Filter × Result EventSeal :=
  let valid := f.failed = false ∧ summary.observations = f.lastSourceSequence
    ∧ summary.sourceFrames = f.lastSourceFrames ∧ 0 < f.events
  if valid then
    match f.lastEvent with
    | some last =>
      ({ f with failed := true, lastEvent := none },
        .ok { count := f.events, bytes := f.bytes, last })
    | none => ({ f with failed := true }, .error "No final filtered event")
  else ({ f with failed := true }, .error "Finished stream differs from filtered observations")

end Filter

end Eef.Node
