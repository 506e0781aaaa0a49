import Eef.Coordinator.DiscoveryPages

/-!
# Grants and revocations

The owner's commands on the saved policy (`command` of `discovery.rs`) and how a policy is read from
the configuration (`DiscoveryPolicy::parse`). A command edits the value under `discovery`; where the
rest of `edit_for_restart` fails, nothing is saved. Whatever commands an owner sends, the saved
value is one that a restart reads, and it discloses a node exactly where the last accepted word on
that pair is a grant (`discovery_commands`).
-/

namespace Eef.Coordinator.Discovery

open Eef.Lib Eef.Node

/-! ## Reading a policy -/

/-- `BTreeSet<String>`. -/
def targetsFromJson (j : Json) : Option (SortedSet String) := do
  let items ← Json.asList Json.asStr j
  return SortedSet.empty.extend items

/-- `BTreeMap<String, BTreeSet<String>>`. -/
def grantsFromJson : Json → Option (SortedMap String (SortedSet String))
  | .obj fields => do
    let entries ← fields.mapM fun e => do
      let targets ← targetsFromJson e.2
      return (e.1, targets)
    return SortedMap.ofList entries
  | _ => none

namespace DiscoveryPolicy

def fromJson (j : Json) : Option DiscoveryPolicy := do
  let fs ← j.struct ["grants", "freshness_seconds"] 0
  let grants ← Json.defaultField fs "grants" grantsFromJson .empty
  let freshnessSeconds ← Json.defaultField fs "freshness_seconds" (Json.asUInt 64) 30
  return ⟨grants, freshnessSeconds⟩

/-- `DiscoveryPolicy::parse`. -/
def parse [F64] (value : Option Json) : Result DiscoveryPolicy := do
  let policy ← context (fromJson (value.getD (.obj []))) "invalid discovery policy"
  policy.validate
  return policy

/-- `saved.grants.entry(requester).or_default().insert(target)`. -/
def grant (p : DiscoveryPolicy) (requester target : String) : DiscoveryPolicy :=
  { p with grants := p.grants.insert requester (((p.grants.get? requester).getD .empty).insert target) }

/-- `saved.grants.get_mut(requester)`: the target leaves the set, and an empty set leaves the map. -/
def revoke (p : DiscoveryPolicy) (requester target : String) : DiscoveryPolicy :=
  match p.grants.get? requester with
  | none => p
  | some targets =>
    let left := targets.retain (· ≠ target)
    { p with grants := if left.items = [] then p.grants.erase requester
                       else p.grants.insert requester left }

end DiscoveryPolicy

/-! ## Commands -/

/-- `DiscoveryCommand`. -/
inductive DiscoveryCommand where
  | showPolicy
  | grant (requester target : String)
  | revoke (requester target : String)
  deriving DecidableEq, Repr

/-- What `command` asks of the two ids. -/
def checkPair (requester target : String) : Result Unit := do
  each (fun id => do
    validateNodeId id
    bailIf (id = "*") "discovery grants require exact node IDs") [requester, target]
  bailIf (requester = target) "self visibility is implicit and cannot be granted or revoked"

/-- What `command` makes of the saved policy. -/
def DiscoveryCommand.apply [F64] (before : DiscoveryPolicy) : DiscoveryCommand → Result DiscoveryPolicy
  | .showPolicy => .ok before
  | .grant requester target => do
    checkPair requester target
    let saved := before.grant requester target
    saved.validate
    return saved
  | .revoke requester target => do
    checkPair requester target
    let saved := before.revoke requester target
    saved.validate
    return saved

/-- The report of a command. -/
structure DiscoveryReport where
  changed : Bool
  savedPolicy : DiscoveryPolicy
  appliedPolicy : DiscoveryPolicy
  restartRequired : Bool

/-- `command` on the value under `discovery`: what it leaves there, and the report. -/
def command [F64] (value : Option Json) (applied : DiscoveryPolicy) (request : DiscoveryCommand) :
    Result (Option Json × DiscoveryReport) := do
  let before ← DiscoveryPolicy.parse value
  let saved ← request.apply before
  let changed := decide (saved ≠ before)
  return (if changed then some saved.toJson else value,
    ⟨changed, saved, applied, decide (saved ≠ applied)⟩)

/-- A request, and whether the rest of `edit_for_restart` succeeds: the lock, the file, the checks
of the other sections. -/
structure Edit where
  request : DiscoveryCommand
  saves : Bool

/-- `edit_for_restart`: a command that fails, or whose change is not saved, leaves the value. -/
def edit [F64] (value : Option Json) (applied : DiscoveryPolicy) (e : Edit) :
    Option Json × Option DiscoveryReport :=
  match command value applied e.request with
  | .error _ => (value, none)
  | .ok (saved, report) =>
    if report.changed = true ∧ e.saves = false then (value, none) else (saved, some report)

/-! ## A policy is read as it was written -/

theorem targetsFromJson_texts (s : SortedSet String) : targetsFromJson (texts s.items) = some s := by
  have hitems : Json.asList Json.asStr (.arr (s.items.map .str)) = some s.items :=
    Json.asList_map (e := Json.str) (fun _ => rfl) s.items
  unfold targetsFromJson texts
  rw [hitems]
  refine congrArg some (SortedSet.ext fun k => ?_)
  rw [SortedSet.mem_extend, or_iff_right (SortedSet.not_mem_empty k), SortedSet.mem_items]

theorem grantsFromJson_entries (m : SortedMap String (SortedSet String)) :
    grantsFromJson (.obj (m.entries.map fun g => (g.1, texts g.2.items))) = some m := by
  have hall : ∀ entries : List (String × SortedSet String),
      (entries.map fun g => (g.1, texts g.2.items)).mapM (fun e => do
        let targets ← targetsFromJson e.2
        return (e.1, targets)) = some entries := by
    intro entries
    induction entries with
    | nil => rfl
    | cons g rest ih =>
      rw [List.map_cons, List.mapM_cons, ih, targetsFromJson_texts]
      rfl
  simp only [grantsFromJson, hall]
  exact congrArg some (SortedMap.ofList_entries m)

theorem fromJson_toJson {p : DiscoveryPolicy} (h : p.freshnessSeconds < 2 ^ 64) :
    DiscoveryPolicy.fromJson p.toJson = some p := by
  unfold DiscoveryPolicy.fromJson DiscoveryPolicy.toJson
  rw [Json.struct_bind (by rfl) (by decide)]
  have hgrants : ∀ fs : List (String × Json), fs.lookup "grants"
      = some (.obj (p.grants.entries.map fun g => (g.1, texts g.2.items))) →
      Json.defaultField fs "grants" grantsFromJson .empty = some p.grants := by
    intro fs hfs
    rw [Json.defaultField, hfs]
    exact grantsFromJson_entries p.grants
  have hfreshness : ∀ fs : List (String × Json), fs.lookup "freshness_seconds"
      = some (.nat p.freshnessSeconds) →
      Json.defaultField fs "freshness_seconds" (Json.asUInt 64) 30 = some p.freshnessSeconds := by
    intro fs hfs
    rw [Json.defaultField, hfs]
    exact Json.asUInt_nat h
  rw [hgrants _ rfl, hfreshness _ rfl]
  rfl

/-- A policy that is saved is read again. -/
theorem parse_toJson [F64] {p : DiscoveryPolicy} (h : p.validate = .ok ()) :
    DiscoveryPolicy.parse (some p.toJson) = .ok p := by
  have hfresh : p.freshnessSeconds < 2 ^ 64 := by
    simp only [DiscoveryPolicy.validate, bind_ok, bailIf_ok] at h
    obtain ⟨_, hbound, -⟩ := h
    have hle := (not_not.mp (not_or.mp hbound).1).2
    omega
  simp only [DiscoveryPolicy.parse, Option.getD_some, fromJson_toJson hfresh, context, ok_bind, h]
  rfl

/-! ## What a command says -/

/-- Whom a requester was granted. -/
def DiscoveryPolicy.targets (p : DiscoveryPolicy) (requester : String) : SortedSet String :=
  (p.grants.get? requester).getD .empty

/-- What a command says of a pair: a grant, a revocation, or nothing. -/
def DiscoveryCommand.word (requester target : String) : DiscoveryCommand → Option Bool
  | .showPolicy => none
  | .grant r t => if r = requester ∧ t = target then some true else none
  | .revoke r t => if r = requester ∧ t = target then some false else none

/-- The pair holds, given what was said of it and whether it held before. -/
def Holds (said : Option Bool) (before : Prop) : Prop := said = some true ∨ said = none ∧ before

theorem mem_grant {p : DiscoveryPolicy} {r t requester target : String} :
    target ∈ (p.grant r t).targets requester ↔
      Holds (DiscoveryCommand.word requester target (.grant r t)) (target ∈ p.targets requester) := by
  simp only [DiscoveryPolicy.targets, DiscoveryPolicy.grant, SortedMap.get?_insert,
    DiscoveryCommand.word, Holds]
  by_cases hr : requester = r
  · subst hr
    rw [if_pos rfl, Option.getD_some, SortedSet.mem_insert]
    by_cases ht : t = target
    · simp [ht]
    · simp [ht, Ne.symm ht]
  · rw [if_neg hr, if_neg fun h => hr h.1.symm]
    simp

theorem mem_revoke {p : DiscoveryPolicy} {r t requester target : String} :
    target ∈ (p.revoke r t).targets requester ↔
      Holds (DiscoveryCommand.word requester target (.revoke r t)) (target ∈ p.targets requester) := by
  have hword : DiscoveryCommand.word requester target (.revoke r t) = some true ↔ False := by
    simp only [DiscoveryCommand.word]
    by_cases h : r = requester ∧ t = target
    · rw [if_pos h]
      decide
    · rw [if_neg h]
      decide
  have hnone : DiscoveryCommand.word requester target (.revoke r t) = none ↔
      ¬(r = requester ∧ t = target) := by
    simp only [DiscoveryCommand.word]
    by_cases h : r = requester ∧ t = target
    · rw [if_pos h]
      exact iff_of_false (by decide) (not_not.mpr h)
    · rw [if_neg h]
      exact iff_of_true rfl h
  rw [Holds, hword, hnone, false_or]
  unfold DiscoveryPolicy.revoke DiscoveryPolicy.targets
  cases hget : p.grants.get? r with
  | none =>
    -- there is nothing to revoke
    refine (and_iff_right_of_imp ?_).symm
    intro hmem hpair
    rw [← hpair.1, hget] at hmem
    exact SortedSet.not_mem_empty _ hmem
  | some held =>
    by_cases hr : requester = r
    · subst hr
      rw [hget, Option.getD_some]
      have hleft : target ∈ held.retain (fun k => decide (k ≠ t)) ↔
          ¬(requester = requester ∧ t = target) ∧ target ∈ held := by
        rw [SortedSet.mem_retain, decide_eq_true_eq, and_comm, ne_comm, and_iff_right rfl]
      rw [← hleft]
      by_cases hempty : (held.retain fun k => decide (k ≠ t)).items = []
      · simp only [if_pos hempty, SortedMap.get?_erase, if_pos, Option.getD_none]
        refine iff_of_false (SortedSet.not_mem_empty _) ?_
        rw [← SortedSet.mem_items, hempty]
        exact List.not_mem_nil
      · simp only [if_neg hempty, SortedMap.get?_insert, if_pos, Option.getD_some]
    · have hkeep : (if (held.retain fun k => decide (k ≠ t)).items = [] then p.grants.erase r
          else p.grants.insert r (held.retain fun k => decide (k ≠ t))).get? requester
          = p.grants.get? requester := by
        split
        · rw [SortedMap.get?_erase, if_neg hr]
        · rw [SortedMap.get?_insert, if_neg hr]
      simp only [hkeep]
      exact (and_iff_right fun h => hr h.1.symm).symm

/-- One accepted command: the policy stays valid, and only the pair it is about changes. -/
theorem apply_ok [F64] {p p' : DiscoveryPolicy} {c : DiscoveryCommand} (hp : p.validate = .ok ())
    (h : c.apply p = .ok p') : p'.validate = .ok () ∧ p'.freshnessSeconds = p.freshnessSeconds ∧
      ∀ requester target, target ∈ p'.targets requester ↔
        Holds (c.word requester target) (target ∈ p.targets requester) := by
  cases c with
  | showPolicy =>
    cases h
    refine ⟨hp, rfl, fun requester target => ?_⟩
    simp [Holds, DiscoveryCommand.word]
  | grant r t =>
    simp only [DiscoveryCommand.apply, bind_ok, pure_ok] at h
    obtain ⟨_, -, _, hvalid, rfl⟩ := h
    exact ⟨hvalid, rfl, fun requester target => mem_grant⟩
  | revoke r t =>
    simp only [DiscoveryCommand.apply, bind_ok, pure_ok] at h
    obtain ⟨_, -, _, hvalid, rfl⟩ := h
    refine ⟨hvalid, ?_, fun requester target => mem_revoke⟩
    unfold DiscoveryPolicy.revoke
    cases p.grants.get? r with
    | none => rfl
    | some held => rfl

/-! ## Any commands -/

/-- What edits leave of the value under `discovery`, and the commands among them that were accepted
and saved. -/
def edits [F64] (applied : DiscoveryPolicy) (value : Option Json) :
    List Edit → Option Json × List DiscoveryCommand
  | [] => (value, [])
  | e :: es =>
    let rest := edits applied (edit value applied e).1 es
    (rest.1, (if (edit value applied e).2.isSome then [e.request] else []) ++ rest.2)

/-- The last word of some commands on a pair. -/
def lastWord (requester target : String) : List DiscoveryCommand → Option Bool
  | [] => none
  | c :: cs => (lastWord requester target cs).or (c.word requester target)

theorem lastWord_append {requester target : String} {cs cs' : List DiscoveryCommand} :
    lastWord requester target (cs ++ cs')
      = (lastWord requester target cs').or (lastWord requester target cs) := by
  induction cs with
  | nil => exact Option.or_none.symm
  | cons c cs ih =>
    show (lastWord requester target (cs ++ cs')).or _ = (_ : Option Bool).or (Option.or _ _)
    rw [ih, Option.or_assoc]

theorem holds_or {later earlier : Option Bool} {before : Prop} :
    Holds (later.or earlier) before ↔ Holds later (Holds earlier before) := by
  cases later with
  | none => simp [Holds]
  | some b => simp [Holds]

/-- One edit of a value that is read as a policy: it is read as one again, changed by the command if
that was accepted. -/
theorem edit_step [F64] {value : Option Json} {p : DiscoveryPolicy} (applied : DiscoveryPolicy)
    (hp : DiscoveryPolicy.parse value = .ok p) (e : Edit) :
    ∃ p', DiscoveryPolicy.parse (edit value applied e).1 = .ok p' ∧
      p'.freshnessSeconds = p.freshnessSeconds ∧
      ∀ requester target, target ∈ p'.targets requester ↔
        Holds (if (edit value applied e).2.isSome then e.request.word requester target else none)
          (target ∈ p.targets requester) := by
  have hvalid : p.validate = .ok () := by
    simp only [DiscoveryPolicy.parse, bind_ok, pure_ok] at hp
    obtain ⟨q, -, _, hq, rfl⟩ := hp
    exact hq
  have hsame : ∀ before : Prop, Holds none before ↔ before := by
    intro before
    simp [Holds]
  unfold edit
  cases hc : command value applied e.request with
  | error err => exact ⟨p, hp, rfl, fun requester target => (hsame _).symm⟩
  | ok result =>
    obtain ⟨saved, report⟩ := result
    simp only [command, bind_ok, pure_ok, hp, Except.ok.injEq, exists_eq_left', Prod.mk.injEq] at hc
    obtain ⟨p', happly, hsaved, hreport⟩ := hc
    obtain ⟨hvalid', hfresh, htargets⟩ := apply_ok hvalid happly
    by_cases hlost : report.changed = true ∧ e.saves = false
    · simp only [if_pos hlost]
      exact ⟨p, hp, rfl, fun requester target => (hsame _).symm⟩
    · simp only [if_neg hlost]
      refine ⟨p', ?_, hfresh, htargets⟩
      rw [← hsaved]
      by_cases hchanged : p' = p
      · rw [decide_eq_false (not_not.mpr hchanged), if_neg Bool.false_ne_true, hchanged]
        exact hp
      · rw [decide_eq_true hchanged, if_pos rfl]
        exact parse_toJson hvalid'

/-- Whatever commands an owner sends, and whichever of them are refused or cannot be saved: the
saved value is one that a restart reads, and it discloses a node to another one exactly where the
last accepted command on that pair is a grant, or there is none and it was disclosed before. -/
theorem discovery_commands [F64] {value : Option Json} {p : DiscoveryPolicy}
    (applied : DiscoveryPolicy) (hp : DiscoveryPolicy.parse value = .ok p) (es : List Edit) :
    ∃ p', DiscoveryPolicy.parse (edits applied value es).1 = .ok p' ∧
      p'.freshnessSeconds = p.freshnessSeconds ∧
      ∀ requester target, target ∈ p'.permitted requester ↔ target = requester ∨
        Holds (lastWord requester target (edits applied value es).2)
          (target ∈ p.targets requester) := by
  have hrun : ∃ p', DiscoveryPolicy.parse (edits applied value es).1 = .ok p' ∧
      p'.freshnessSeconds = p.freshnessSeconds ∧
      ∀ requester target, target ∈ p'.targets requester ↔
        Holds (lastWord requester target (edits applied value es).2)
          (target ∈ p.targets requester) := by
    induction es generalizing value p with
    | nil =>
      refine ⟨p, hp, rfl, fun requester target => ?_⟩
      simp [edits, lastWord, Holds]
    | cons e es ih =>
      obtain ⟨p₁, hp₁, hfresh₁, hstep⟩ := edit_step applied hp e
      obtain ⟨p₂, hp₂, hfresh₂, hrest⟩ := ih hp₁
      refine ⟨p₂, hp₂, hfresh₂.trans hfresh₁, fun requester target => ?_⟩
      rw [hrest requester target]
      have hword : lastWord requester target (edits applied value (e :: es)).2
          = (lastWord requester target (edits applied (edit value applied e).1 es).2).or
            (if (edit value applied e).2.isSome then e.request.word requester target else none) := by
        show lastWord requester target (_ ++ _) = _
        rw [lastWord_append]
        cases (edit value applied e).2 with
        | none => rfl
        | some report => rfl
      rw [hword, holds_or, Holds, Holds, hstep requester target]
  obtain ⟨p', hp', hfresh, htargets⟩ := hrun
  refine ⟨p', hp', hfresh, fun requester target => ?_⟩
  rw [← htargets requester target]
  exact SortedSet.mem_insert

attribute [local instance] F64.bits

/-- Two commands on a default policy; the first is refused. -/
def sampleEdits : List Edit := [⟨.grant "a" "*", true⟩, ⟨.grant "a" "b", true⟩]

theorem discovery_commands_sample :
    ∃ p', DiscoveryPolicy.parse (edits .default none sampleEdits).1 = .ok p' ∧
      "b" ∈ p'.permitted "a" := by
  have hparse : DiscoveryPolicy.parse none = .ok .default := by decide +kernel
  obtain ⟨p', hp', -, hmem⟩ := discovery_commands .default hparse sampleEdits
  refine ⟨p', hp', (hmem "a" "b").mpr (.inr (.inl ?_))⟩
  decide +kernel

end Eef.Coordinator.Discovery
