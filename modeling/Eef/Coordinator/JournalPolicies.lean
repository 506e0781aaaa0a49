import Eef.Coordinator.JournalAudit

/-!
# Definitions and policies in an intact journal

A definition that is saved or removed and a policy that is approved or revoked leave the rest of the
journal as it was (`Governs`). A removed definition keeps what its policies were checked against, a
revoked policy keeps what its schedules and reservations were, and the generations of a definition's
policies are still 1, 2, ... after another one.
-/

namespace Eef.Coordinator

open Eef.Lib Eef.Node

section
variable [F64] [PeerAdmission] [Sha256] [Planner] [Pairing] [ScopeCompiler]

namespace Store

variable {s t : Store}

/-! ## What governs the journal -/

/-- A journal whose definitions or policies changed. -/
structure Governs (s t : Store) : Prop where
  rest : t = { s with definitions := t.definitions, authorizations := t.authorizations }
  definitions : Table.Keyed Definition.id t.definitions
  policies : Table.Keyed (fun row => row.record.id) t.authorizations
  stored : ∀ d ∈ t.definitions, d.validateStored = .ok ()
  keeps : s.KeepsPolicies t
  read : ∃ as, t.policies = .ok as

theorem Intact.govern (hs : s.Intact) (h : s.Governs t) : t.Intact := by
  have hschedules : t.schedules = s.schedules := by rw [h.rest]
  have htriggers : t.triggers = s.triggers := by rw [h.rest]
  have hwork : s.SameWork t := ⟨by rw [h.rest], by rw [h.rest], by rw [h.rest],
    fun _ _ => .of_eq htriggers _, fun _ _ => .of_eq htriggers _⟩
  refine hs.sameWork (.of_policies h.keeps hschedules) hwork ⟨h.definitions, h.policies, ?_, ?_, ?_, ?_⟩
    h.stored (hs.history.keep h.keeps h.read hschedules htriggers fun _ _ => hwork.refusal htriggers)
  · rw [hschedules]
    exact hs.schedules
  · rw [h.rest]
    exact hs.jobs
  · rw [h.rest]
    exact hs.reservations
  · rw [h.rest]
    exact hs.reserved

/-! ## Definitions -/

/-- The policies stay, and are checked against definitions that are kept. -/
theorem KeepsPolicies.of_definitions (hpolicies : t.authorizations = s.authorizations)
    (h : ∀ {id : String} {d : Definition}, s.readDefinition id = .ok d →
      ∃ d', t.readDefinition id = .ok d' ∧ d.Kept d') : s.KeepsPolicies t := by
  refine ⟨h, ?_⟩
  intro id a ha
  obtain ⟨row, hfind, hcheck, rfl⟩ := policyOf_iff.mp ha
  exact ⟨_, policyOf_iff.mpr ⟨row, hpolicies ▸ hfind, checkPolicy_kept h hcheck, rfl⟩, .refl _⟩

omit [ScopeCompiler] in
/-- What `save_definition` leaves. -/
theorem saveDefinition_ok {d : Definition} {new : Bool} (h : s.saveDefinition d new = .ok t) :
    d.validateStored = .ok () ∧ t = { s with definitions := t.definitions } ∧
    (new = true → Table.find Definition.id d.id s.definitions = none) ∧
    t.definitions = if new then s.definitions ++ [d]
      else Table.update (fun e => e.id == d.id) (fun _ => d) s.definitions := by
  simp only [saveDefinition, bind_ok] at h
  obtain ⟨_, hvalid, _, -, _, -, h⟩ := h
  cases new with
  | true =>
    simp only [if_true, bind_ok, ensure_ok, pure_ok] at h
    obtain ⟨_, hfresh, rfl⟩ := h
    exact ⟨hvalid, rfl, fun _ => hfresh, rfl⟩
  | false =>
    simp only [Bool.false_eq_true, if_false, pure_ok] at h
    subst h
    exact ⟨hvalid, rfl, fun hnew => absurd hnew Bool.false_ne_true, rfl⟩

theorem Governs.refl (hs : s.Intact) : s.Governs s :=
  ⟨rfl, hs.definitions, hs.policies, hs.stored, .of_eq rfl rfl, hs.history.policies⟩

theorem insertDefinition_governs (hs : s.Intact) {d : Definition}
    (hsave : s.saveDefinition d true = .ok t) : s.Governs t := by
  obtain ⟨hvalid, ht, hfresh, hrows⟩ := saveDefinition_ok hsave
  rw [if_pos rfl] at hrows
  have hpolicies : t.authorizations = s.authorizations := by rw [ht]
  have hkeeps : s.KeepsPolicies t := by
    refine .of_definitions hpolicies ?_
    intro id e he
    obtain ⟨hfind, hstored⟩ := readDefinition_iff.mp he
    refine ⟨e, readDefinition_iff.mpr ⟨?_, hstored⟩, .refl e⟩
    rw [hrows, Table.find_insert, hfind, Option.some_or]
  refine ⟨?_, ?_, hpolicies ▸ hs.policies, ?_, hkeeps,
    policies_kept hkeeps hpolicies hs.history.policies⟩
  · rw [hpolicies]
    exact ht
  · rw [hrows]
    exact hs.definitions.insert (hfresh rfl)
  · intro e he
    rw [hrows] at he
    rcases List.mem_append.mp he with he | he
    · exact hs.stored e he
    · rw [List.mem_singleton.mp he]
      exact hvalid

theorem replaceDefinition_governs (hs : s.Intact) {id : String} {d d' : Definition}
    (hread : s.readDefinition id = .ok d) (hkept : d.Kept d')
    (hsave : s.saveDefinition d' false = .ok t) : s.Governs t := by
  obtain ⟨hvalid, ht, -, hrows⟩ := saveDefinition_ok hsave
  rw [if_neg Bool.false_ne_true] at hrows
  have hpolicies : t.authorizations = s.authorizations := by rw [ht]
  have hid : d'.id = d.id := by rw [hkept.same]
  have hkeeps : s.KeepsPolicies t := by
    refine .of_definitions hpolicies ?_
    intro id e he
    obtain ⟨hfind, hstored⟩ := readDefinition_iff.mp he
    have hreplaced := @Table.find_replace _ _ _ Definition.id d' id s.definitions
    rw [← hrows] at hreplaced
    by_cases heq : id = d'.id
    · have hsame : e = d := by
        have hmem := (Table.find_some (readDefinition_iff.mp hread).1).1
        rw [heq, hid, Table.find_of_mem hs.definitions hmem] at hfind
        exact (Option.some.inj hfind).symm
      rw [if_pos heq, hfind] at hreplaced
      exact ⟨d', readDefinition_iff.mpr ⟨hreplaced, hvalid⟩, hsame ▸ hkept⟩
    · rw [if_neg heq, hfind] at hreplaced
      exact ⟨e, readDefinition_iff.mpr ⟨hreplaced, hstored⟩, .refl e⟩
  refine ⟨?_, ?_, hpolicies ▸ hs.policies, ?_, hkeeps,
    policies_kept hkeeps hpolicies hs.history.policies⟩
  · rw [hpolicies]
    exact ht
  · rw [hrows]
    exact hs.definitions.replace d'
  · intro e he
    rw [hrows] at he
    obtain ⟨e', he', rfl⟩ := Table.mem_update.mp he
    split
    · exact hvalid
    · exact hs.stored e' he'

theorem define_governs (hs : s.Intact) {c : Define} {origin : Option String} {now : Nat}
    {r : Definition × Bool} (h : s.define c origin now = .ok (t, r)) : s.Governs t := by
  simp only [define, bind_ok] at h
  obtain ⟨_, -, _, -, h⟩ := h
  split_ifs at h with hretained
  · simp only [bind_ok, pure_ok] at h
    obtain ⟨_, -, _, -, _, -, h⟩ := h
    cases h
    exact .refl hs
  · simp only [bind_ok, pure_ok] at h
    obtain ⟨p, -, owner, -, _, -, _, -, u, hsave, h⟩ := h
    cases h
    exact insertDefinition_governs hs hsave

theorem remove_governs (hs : s.Intact) {c : Remove} {origin : Option String} {r : Definition × Bool}
    (h : s.remove c origin = .ok (t, r)) : s.Governs t := by
  simp only [remove, bind_ok] at h
  obtain ⟨_, -, _, -, d, hread, _, -, h⟩ := h
  cases hremoval : d.removal with
  | some old =>
    simp only [hremoval, bind_ok, pure_ok] at h
    obtain ⟨_, -, h⟩ := h
    cases h
    exact .refl hs
  | none =>
    simp only [hremoval, bind_ok, pure_ok] at h
    obtain ⟨_, -, u, hsave, h⟩ := h
    cases h
    exact replaceDefinition_governs hs hread ⟨rfl, .inr rfl⟩ hsave

/-! ## Policies -/

/-- What `save_authorization` leaves. -/
theorem savePolicy_ok {a : Authorization} {new : Bool} (h : s.savePolicy a new = .ok t) :
    s.checkPolicy ⟨a, a.reserve⟩ = .ok () ∧ t = { s with authorizations := t.authorizations } ∧
    (new = true → Table.find (fun row => row.record.id) a.id s.authorizations = none) ∧
    t.authorizations = if new then s.authorizations ++ [⟨a, a.reserve⟩]
      else Table.update (fun row => row.record.id == a.id) (fun _ => ⟨a, a.reserve⟩)
        s.authorizations := by
  simp only [savePolicy, bind_ok] at h
  obtain ⟨d, hd, _, hvalid, _, -, _, -, h⟩ := h
  have hcheck : s.checkPolicy ⟨a, a.reserve⟩ = .ok () := by
    simp only [checkPolicy, bind_ok, ensure_ok]
    exact ⟨d, hd, (), hvalid, trivial⟩
  cases new with
  | true =>
    simp only [if_true, bind_ok, ensure_ok, pure_ok] at h
    obtain ⟨_, hfresh, rfl⟩ := h
    exact ⟨hcheck, rfl, fun _ => hfresh, rfl⟩
  | false =>
    simp only [Bool.false_eq_true, if_false, pure_ok] at h
    subst h
    exact ⟨hcheck, rfl, fun hnew => absurd hnew Bool.false_ne_true, rfl⟩

omit [F64] [PeerAdmission] [Sha256] [Planner] [Pairing] [ScopeCompiler] in
/-- Numbers that are 1, 2, ... in some order. -/
theorem sorted_iff {l : List Nat} : l.insertionSort (· ≤ ·) = List.range' 1 l.length ↔
    l.Perm (List.range' 1 l.length) := by
  constructor
  · intro h
    rw [← h]
    exact (List.perm_insertionSort _ l).symm
  · intro h
    refine List.Perm.eq_of_pairwise (fun a b _ _ hab hba => Nat.le_antisymm hab hba)
      (List.pairwise_insertionSort (· ≤ ·) l) List.pairwise_le_range'
      ((List.perm_insertionSort _ l).trans h)

omit [F64] [PeerAdmission] [Sha256] [Planner] [Pairing] [ScopeCompiler] in
/-- The generations read two columns of the policies. -/
theorem generations_eq (definition : String) : s.generations definition =
    ((s.authorizations.map fun row => (row.record.creation.definition, row.record.generation)).filter
      fun e => e.1 = definition).map Prod.snd := by
  unfold generations
  rw [List.filter_map, List.filter_map, List.map_map, List.map_map]
  rfl

theorem insertPolicy_governs (hs : s.Intact) {a : Authorization}
    (hgeneration : a.generation = s.latestGeneration a.creation.definition + 1)
    (hsave : s.savePolicy a true = .ok t) : s.Governs t := by
  obtain ⟨hcheck, ht, hfresh, hrows⟩ := savePolicy_ok hsave
  rw [if_pos rfl] at hrows
  have hdefinitions : t.definitions = s.definitions := by rw [ht]
  have hdefinition : ∀ {id : String} {d : Definition}, s.readDefinition id = .ok d →
      ∃ d', t.readDefinition id = .ok d' ∧ d.Kept d' := by
    intro id d hd
    refine ⟨d, ?_, .refl d⟩
    rw [readDefinition_iff, hdefinitions]
    exact readDefinition_iff.mp hd
  have hkeeps : s.KeepsPolicies t := by
    refine ⟨hdefinition, ?_⟩
    intro id b hb
    obtain ⟨row, hfind, hrow, rfl⟩ := policyOf_iff.mp hb
    refine ⟨_, policyOf_iff.mpr ⟨row, ?_, checkPolicy_kept hdefinition hrow, rfl⟩, .refl _⟩
    rw [hrows, Table.find_insert, hfind, Option.some_or]
  obtain ⟨as, hread⟩ := hs.history.policies
  obtain ⟨hchecked, hsorted, -⟩ := policies_iff.mp hread
  have hgenerations : ∀ definition, t.generations definition = s.generations definition ++
      if a.creation.definition = definition then [a.generation] else [] := by
    intro definition
    unfold generations
    rw [hrows, List.map_append, List.filter_append, List.map_append]
    congr 1
    by_cases heq : a.creation.definition = definition
    · simp [heq]
    · simp [heq]
  -- the generations of a definition without a policy are none
  have hold : ∀ definition, (s.generations definition).Perm
      (List.range' 1 (s.generations definition).length) := by
    intro definition
    cases hnone : s.generations definition with
    | nil => exact .nil
    | cons g gs =>
      have hmem : g ∈ s.generations definition := hnone ▸ List.mem_cons_self ..
      obtain ⟨b, hb, rfl⟩ := List.mem_map.mp hmem
      obtain ⟨hb, heq⟩ := List.mem_filter.mp hb
      obtain ⟨row, hrow, rfl⟩ := List.mem_map.mp hb
      rw [← hnone, ← of_decide_eq_true heq]
      exact sorted_iff.mp (hsorted row hrow)
  have hnew : ∀ definition, (t.generations definition).Perm
      (List.range' 1 (t.generations definition).length) := by
    intro definition
    rw [hgenerations]
    by_cases heq : a.creation.definition = definition
    · subst heq
      have hnext : a.generation = 1 + (s.generations a.creation.definition).length := by
        rw [hgeneration, latestGeneration, Lists.largest_eq (hold _), Nat.add_comm]
      rw [if_pos rfl, List.length_append, List.length_singleton, List.range'_1_concat, hnext]
      exact (hold _).append_right _
    · rw [if_neg heq, List.append_nil]
      exact hold definition
  refine ⟨?_, hdefinitions ▸ hs.definitions, ?_, hdefinitions ▸ hs.stored, hkeeps,
    _, policies_iff.mpr ⟨fun row hrow => ?_, fun row _ => sorted_iff.mpr (hnew _), rfl⟩⟩
  · rw [hdefinitions]
    exact ht
  · rw [hrows]
    exact hs.policies.insert (hfresh rfl)
  · rw [hrows] at hrow
    rcases List.mem_append.mp hrow with hrow | hrow
    · exact checkPolicy_kept hdefinition (hchecked row hrow)
    · rw [List.mem_singleton.mp hrow]
      exact checkPolicy_kept hdefinition hcheck

theorem replacePolicy_governs (hs : s.Intact) {id : String} {a a' : Authorization}
    (hread : s.policyOf id = .ok a) (hkept : a.Kept a') (hsave : s.savePolicy a' false = .ok t) :
    s.Governs t := by
  obtain ⟨hcheck, ht, -, hrows⟩ := savePolicy_ok hsave
  rw [if_neg Bool.false_ne_true] at hrows
  have hid : a'.id = a.id := by rw [hkept.same]
  have hdefinitions : t.definitions = s.definitions := by rw [ht]
  obtain ⟨old, hfound, -, rfl⟩ := policyOf_iff.mp hread
  have hold := (Table.find_some hfound).1
  have hdefinition : ∀ {id : String} {d : Definition}, s.readDefinition id = .ok d →
      ∃ d', t.readDefinition id = .ok d' ∧ d.Kept d' := by
    intro id d hd
    refine ⟨d, ?_, .refl d⟩
    rw [readDefinition_iff, hdefinitions]
    exact readDefinition_iff.mp hd
  have hkeeps : s.KeepsPolicies t := by
    refine ⟨hdefinition, ?_⟩
    intro id b hb
    obtain ⟨row, hfind, hrow, rfl⟩ := policyOf_iff.mp hb
    have hreplaced := @Table.find_replace _ _ _ (fun row : PolicyRow => row.record.id)
      ⟨a', a'.reserve⟩ id s.authorizations
    rw [show Table.update _ _ _ = t.authorizations from hrows.symm, hfind] at hreplaced
    by_cases heq : id = a'.id
    · have hsame : row = old := by
        rw [heq, hid, Table.find_of_mem hs.policies hold] at hfind
        exact (Option.some.inj hfind).symm
      rw [if_pos (show id = a'.id from heq)] at hreplaced
      exact ⟨a', policyOf_iff.mpr ⟨_, hreplaced, checkPolicy_kept hdefinition hcheck, rfl⟩,
        hsame ▸ hkept⟩
    · rw [if_neg (show ¬id = a'.id from heq)] at hreplaced
      exact ⟨_, policyOf_iff.mpr ⟨row, hreplaced, checkPolicy_kept hdefinition hrow, rfl⟩, .refl _⟩
  obtain ⟨as, hread⟩ := hs.history.policies
  obtain ⟨hchecked, hsorted, -⟩ := policies_iff.mp hread
  -- a policy keeps its definition and its generation
  have hfixed : ∀ row ∈ s.authorizations, (row.record.id == a'.id) = true →
      row.record.creation = a'.creation ∧ row.record.generation = a'.generation := by
    intro row hrow heq
    have hsame : row = old := hs.policies.eq hrow hold ((beq_iff_eq.mp heq).trans hid)
    rw [hsame, hkept.same]
    exact ⟨rfl, rfl⟩
  have hgenerations : ∀ definition, t.generations definition = s.generations definition := by
    intro definition
    rw [generations_eq, generations_eq, hrows, Table.update, List.map_map]
    congr 2
    refine List.map_congr_left fun row hrow => ?_
    simp only [Function.comp]
    split
    · next heq =>
      obtain ⟨hcreation, hgeneration⟩ := hfixed row hrow heq
      rw [hcreation, hgeneration]
    · rfl
  refine ⟨?_, hdefinitions ▸ hs.definitions, ?_, hdefinitions ▸ hs.stored, hkeeps,
    _, policies_iff.mpr ⟨fun row hrow => ?_, fun row hrow => ?_, rfl⟩⟩
  · rw [hdefinitions]
    exact ht
  · rw [hrows]
    exact hs.policies.replace ⟨a', a'.reserve⟩
  · rw [hrows] at hrow
    obtain ⟨row', hrow', rfl⟩ := Table.mem_update.mp hrow
    split
    · exact checkPolicy_kept hdefinition hcheck
    · exact checkPolicy_kept hdefinition (hchecked row' hrow')
  · rw [hgenerations]
    rw [hrows] at hrow
    obtain ⟨row', hrow', rfl⟩ := Table.mem_update.mp hrow
    split
    · next heq =>
      rw [← (hfixed row' hrow' heq).1]
      exact hsorted row' hrow'
    · exact hsorted row' hrow'

theorem approve_governs (hs : s.Intact) {c : Approve} {candidate : Option Authorization}
    {runtime : String} {now : Nat} {r : Authorization × Bool}
    (h : s.approve c candidate runtime now = .ok (t, r)) : s.Governs t := by
  simp only [approve, bind_ok] at h
  obtain ⟨_, -, _, -, retained, -, h⟩ := h
  cases hretained : retained.find? fun a => a.id = c.operationId with
  | some old =>
    simp only [hretained, bind_ok, pure_ok] at h
    obtain ⟨_, -, h⟩ := h
    cases h
    exact .refl hs
  | none =>
    simp only [hretained, bind_ok, pure_ok, context_ok, ensure_ok] at h
    obtain ⟨a, -, d, -, _, happrovable, u, hsave, h⟩ := h
    cases h
    obtain ⟨-, -, -, -, rfl, -, hgeneration, -⟩ := happrovable
    exact insertPolicy_governs hs hgeneration hsave

theorem revoke_governs (hs : s.Intact) {c : Revoke} {runtime : String} {now : Nat}
    {r : Authorization × Bool} (h : s.revoke c runtime now = .ok (t, r)) : s.Governs t := by
  simp only [revoke, bind_ok, context_ok] at h
  obtain ⟨_, -, _, -, _, -, _, hread, a, rfl, h⟩ := h
  cases hrevocation : a.revocation with
  | some old =>
    simp only [hrevocation, bind_ok, pure_ok] at h
    obtain ⟨_, -, h⟩ := h
    cases h
    exact .refl hs
  | none =>
    simp only [hrevocation, bind_ok, pure_ok] at h
    obtain ⟨_, -, u, hsave, h⟩ := h
    cases h
    exact replacePolicy_governs hs (readPolicy_iff.mp hread) ⟨rfl, fun _ => rfl⟩ hsave

end Store

end

end Eef.Coordinator
