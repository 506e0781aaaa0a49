import Eef.Lib.Precedence
import Eef.Node.HttpTarget
import Eef.Node.Network
import Eef.Node.RepairReceipts
import Mathlib.Data.Char
import Mathlib.Data.List.Induction
import Mathlib.Data.List.TakeDrop
import Mathlib.Data.List.TakeWhile
import Mathlib.Data.Prod.Lex
import Mathlib.Data.Sum.Order
import Mathlib.Order.WithBot

/-!
# The order of update versions

`updater.rs`: which of two versions is the newer one, and what an installation selects. The
numbers of a version are read into 64 bits, and what does not fit is read as zero in the core and
as text in a pre-release. So the comparison is a strict weak order on all accepted versions
(`isNewer_strictWeak`), and it is the order of semantic versions for those whose numbers fit.
The fitting versions are also the only ones that are compared rightly with every fitting version.
-/

namespace Eef.Node.Updater

open Eef.Lib Network RepairReceipts
open Http (trim eqIgnoreAsciiCase)

/-! ## The comparison of the source -/

/-- `part.parse::<u64>()`. -/
def parseU64 (part : List Char) : Option Nat :=
  let digits := if part.head? = some '+' then part.tail else part
  if digits ≠ [] ∧ digits.all Char.isDigit ∧ decimal digits < 2 ^ 64 then some (decimal digits)
  else none

/-- `version_parts`. -/
def versionParts (version : List Char) : List Nat :=
  ((version.map fun c => if c = '-' then '.' else c).splitOn '.').map fun part =>
    (parseU64 part).getD 0

/-- `version.split_once('-')`, of which the second part may be missing. -/
def splitPre (version : String) : List Char × Option (List Char) :=
  match splitOnce '-' version with
  | some (core, pre) => (core.toList, some pre.toList)
  | none => (version.toList, none)

/-- The comparison of two identifiers of pre-releases. -/
def compareIdentifiers (a b : List Char) : Ordering :=
  match parseU64 a, parseU64 b with
  | some a, some b => ordering a b
  | some _, none => .lt
  | none, some _ => .gt
  | none, none => ordering a b

/-- `is_newer`. -/
def isNewer (latest current : String) : Bool :=
  if isVersion latest = false ∨ isVersion current = false then false
  else
    match ordering (versionParts (splitPre latest).1) (versionParts (splitPre current).1) with
    | .gt => true
    | .lt => false
    | .eq =>
      match (splitPre latest).2, (splitPre current).2 with
      | none, some _ => true
      | some _, none | none, none => false
      | some latest, some current =>
        firstDifference compareIdentifiers (latest.splitOn '.') (current.splitOn '.')

/-! ## The order of semantic versions -/

/-- The number that a component or an identifier is, when it is all digits. -/
def integer (part : List Char) : Option Nat :=
  if part ≠ [] ∧ part.all Char.isDigit then some (decimal part) else none

/-- An identifier with its number, if it has one: numbers come before texts. -/
def identifierRank (number : List Char → Option Nat) (part : List Char) : Nat ⊕ₗ List Char :=
  match number part with
  | some n => toLex (Sum.inl n)
  | none => toLex (Sum.inr part)

/-- The numbers of the core. -/
def coreNumbers (number : List Char → Option Nat) (version : String) : List Nat :=
  ((splitPre version).1.splitOn '.').map fun part => (number part).getD 0

/-- The identifiers of a pre-release, a release being above all of them. -/
def preRank (number : List Char → Option Nat) :
    Option (List Char) → WithTop (List (Nat ⊕ₗ List Char))
  | none => ⊤
  | some pre => WithTop.some ((pre.splitOn '.').map (identifierRank number))

/-- A version by its numbers and its identifiers. -/
def rankBy (number : List Char → Option Nat) (version : String) :
    List Nat ×ₗ WithTop (List (Nat ⊕ₗ List Char)) :=
  toLex (coreNumbers number version, preRank number (splitPre version).2)

/-- What the source reads of a version. -/
abbrev rank (version : String) : List Nat ×ₗ WithTop (List (Nat ⊕ₗ List Char)) :=
  rankBy parseU64 version

/-- The precedence of semantic versions, with integers of any length. -/
abbrev precedence (version : String) : List Nat ×ₗ WithTop (List (Nat ⊕ₗ List Char)) :=
  rankBy integer version

/-- The components and the identifiers of a version. -/
def fields (version : String) : List (List Char) :=
  (splitPre version).1.splitOn '.' ++ ((splitPre version).2.elim [] fun pre => pre.splitOn '.')

/-- Every number of the version fits in 64 bits. -/
def Fits (version : String) : Prop :=
  ∀ field ∈ fields version, ∀ n ∈ integer field, n < 2 ^ 64

instance (version : String) : Decidable (Fits version) :=
  inferInstanceAs (Decidable (∀ field ∈ fields version, ∀ n ∈ integer field, n < 2 ^ 64))

/-! ## The parts of an accepted version -/

/-- What follows the core. -/
def tail : Option (List Char) → List Char
  | none => []
  | some pre => '-' :: pre

/-- The core of the version, and its pre-release when there is one. -/
structure Parts (version : String) (core : List Char) (pre : Option (List Char)) : Prop where
  text : version.toList = core ++ tail pre
  first : '-' ∉ core

theorem mem_takeWhile_ne {x : Char} {cs : List Char} : x ∉ cs.takeWhile (· ≠ x) := by
  intro hx
  have := List.mem_takeWhile_imp hx
  simp at this

theorem exists_parts (version : String) : ∃ core pre, Parts version core pre := by
  cases h : version.toList.dropWhile (· ≠ '-') with
  | nil =>
    refine ⟨version.toList.takeWhile (· ≠ '-'), none, ?_, mem_takeWhile_ne⟩
    show version.toList = _ ++ []
    rw [← h, List.takeWhile_append_dropWhile]
  | cons c pre =>
    have hc : c = '-' := by
      have := List.head?_dropWhile_not (fun c => decide (c ≠ '-')) version.toList
      rw [h] at this
      simpa using this
    refine ⟨version.toList.takeWhile (· ≠ '-'), some pre, ?_, mem_takeWhile_ne⟩
    have hrest : '-' :: pre = version.toList.dropWhile (· ≠ '-') := by rw [h, hc]
    show version.toList = _ ++ '-' :: pre
    rw [hrest, List.takeWhile_append_dropWhile]

theorem takeWhile_core {core rest : List Char} (h : '-' ∉ core) (hrest : rest.head?.all (· = '-')) :
    (core ++ rest).span (· ≠ '-') = (core, rest) := by
  have hcore : ∀ c ∈ core, decide (c ≠ '-') = true := fun c hc =>
    decide_eq_true fun heq => h (heq ▸ hc)
  rw [List.span_eq_takeWhile_dropWhile, List.takeWhile_append_of_pos hcore,
    List.dropWhile_append_of_pos hcore]
  cases rest with
  | nil => rw [List.takeWhile_nil, List.dropWhile_nil, List.append_nil]
  | cons c rest =>
    have hc : c = '-' := by simpa using hrest
    simp [hc]

theorem Parts.splitPre_eq {version : String} {core : List Char} {pre : Option (List Char)}
    (h : Parts version core pre) : splitPre version = (core, pre) := by
  unfold splitPre splitOnce
  rw [h.text, takeWhile_core h.first (by cases pre <;> simp [tail])]
  cases pre with
  | none => simp [tail]
  | some pre => simp [tail]

theorem Parts.headD_splitOn {version : String} {core : List Char} {pre : Option (List Char)}
    (h : Parts version core pre) : (version.toList.splitOn '-').headD [] = core := by
  rw [h.text]
  cases pre with
  | none =>
    rw [tail, List.append_nil, List.splitOn_eq_singleton h.first]
    rfl
  | some pre =>
    rw [tail, List.splitOn_append_cons_self_of_not_mem h.first]
    rfl

/-- A text of identifier characters has a byte for each of them. -/
theorem utf8Len_identifier {cs : List Char} (h : ∀ c ∈ cs, isIdentifierChar c = true) :
    String.utf8Len cs = cs.length := by
  induction cs with
  | nil => rfl
  | cons c cs ih =>
    have hplain := isPlain_of_identifierChar (h c List.mem_cons_self)
    simp only [Json.isPlain, Bool.and_eq_true, decide_eq_true_eq] at hplain
    have hc : c.utf8Size = 1 := by
      rw [Char.utf8Size_eq_one_iff, UInt32.le_iff_toNat_le]
      show c.toNat ≤ 127
      omega
    rw [String.utf8Len_cons, hc, ih fun d hd => h d (List.mem_cons_of_mem _ hd), List.length_cons]

/-- A part of a core: a number. -/
def IsNumber (part : List Char) : Prop := part ≠ [] ∧ part.all Char.isDigit = true

theorem Parts.isVersion_iff {version : String} {core : List Char} {pre : Option (List Char)}
    (h : Parts version core pre) :
    isVersion version = true ↔ (core.splitOn '.').length = 3 ∧
      (∀ part ∈ core.splitOn '.', IsNumber part) ∧ (core ++ tail pre).length ≤ 100 ∧
      ∀ c ∈ core ++ tail pre, isIdentifierChar c = true := by
  unfold isVersion
  rw [h.headD_splitOn]
  simp only [Bool.and_eq_true, beq_iff_eq, decide_eq_true_eq, List.all_eq_true, bne_iff_ne,
    h.text, and_assoc, IsNumber]
  constructor
  · rintro ⟨hlen, hparts, hsize, hchars⟩
    refine ⟨hlen, hparts, ?_, hchars⟩
    rwa [← String.ofList_toList (s := version), String.utf8ByteSize_ofList, h.text,
      utf8Len_identifier hchars] at hsize
  · rintro ⟨hlen, hparts, hsize, hchars⟩
    refine ⟨hlen, hparts, ?_, hchars⟩
    rwa [← String.ofList_toList (s := version), String.utf8ByteSize_ofList, h.text,
      utf8Len_identifier hchars]

/-! ## Reading numbers -/

theorem decimal_append (cs : List Char) (c : Char) :
    decimal (cs ++ [c]) = decimal cs * 10 + (c.toNat - '0'.toNat) := by
  unfold decimal
  rw [List.foldl_append]
  rfl

theorem decimal_lt {cs : List Char} (h : ∀ c ∈ cs, c.isDigit = true) :
    decimal cs < 10 ^ cs.length := by
  induction cs using List.reverseRecOn with
  | nil => exact Nat.one_pos
  | append_singleton cs c ih =>
    have hcs := ih fun d hd => h d (List.mem_append_left _ hd)
    have hc := h c (List.mem_append_right _ List.mem_cons_self)
    simp only [Char.isDigit, Bool.and_eq_true, decide_eq_true_eq, UInt32.le_iff_toNat_le,
      ge_iff_le] at hc
    have hdigit : c.toNat - '0'.toNat ≤ 9 := by
      have h9 : c.toNat ≤ 57 := hc.2
      have h0 : '0'.toNat = 48 := rfl
      omega
    rw [decimal_append, List.length_append, List.length_singleton, Nat.pow_succ]
    omega

/-- Without a sign the source reads the numbers that fit. -/
theorem parseU64_eq {part : List Char} (h : '+' ∉ part) :
    parseU64 part = (integer part).filter (· < 2 ^ 64) := by
  have hhead : part.head? ≠ some '+' := fun hp => h (List.mem_of_head? hp)
  unfold parseU64 integer
  rw [if_neg hhead]
  by_cases hpart : part ≠ [] ∧ part.all Char.isDigit = true
  · by_cases hsize : decimal part < 2 ^ 64
    · rw [if_pos ⟨hpart.1, hpart.2, hsize⟩, if_pos hpart, Option.filter_some,
        if_pos (decide_eq_true hsize)]
    · rw [if_neg fun hc => hsize hc.2.2, if_pos hpart, Option.filter_some,
        if_neg fun hc => hsize (of_decide_eq_true hc)]
  · rw [if_neg fun hc => hpart ⟨hc.1, hc.2.1⟩, if_neg hpart]
    rfl

/-- A field whose number fits is read as what it is. -/
theorem parseU64_of_fits {part : List Char} (h : '+' ∉ part) (hfits : ∀ n ∈ integer part, n < 2 ^ 64) :
    parseU64 part = integer part := by
  rw [parseU64_eq h]
  cases hn : integer part with
  | none => rfl
  | some n => rw [Option.filter_some, if_pos (decide_eq_true (hfits n hn))]

/-- A field whose number does not fit is not read. -/
theorem parseU64_of_big {part : List Char} {n : Nat} (h : '+' ∉ part) (hn : integer part = some n)
    (hbig : 2 ^ 64 ≤ n) : parseU64 part = none := by
  rw [parseU64_eq h, hn, Option.filter_some,
    if_neg fun hc => absurd (of_decide_eq_true hc) (Nat.not_lt.mpr hbig)]

/-! ## The comparison reads ranks -/

theorem compareIdentifiers_eq (a b : List Char) :
    compareIdentifiers a b = cmp (identifierRank parseU64 a) (identifierRank parseU64 b) := by
  unfold compareIdentifiers identifierRank
  cases parseU64 a with
  | some m =>
    cases parseU64 b with
    | some n => exact (Sum.Lex.inl_strictMono.cmp_map_eq m n).symm
    | none => exact ((cmp_eq_lt_iff _ _).mpr (Sum.Lex.inl_lt_inr m b)).symm
  | none =>
    cases parseU64 b with
    | some n => exact ((cmp_eq_gt_iff _ _).mpr (Sum.Lex.inl_lt_inr n a)).symm
    | none => exact (Sum.Lex.inr_strictMono.cmp_map_eq a b).symm

theorem Parts.versionParts_eq {version : String} {core : List Char} {pre : Option (List Char)}
    (h : Parts version core pre) : versionParts core = coreNumbers parseU64 version := by
  have hmap : core.map (fun c => if c = '-' then '.' else c) = core := by
    refine (List.map_congr_left fun c hc => if_neg ?_).trans (List.map_id core)
    intro heq
    exact h.first (heq ▸ hc)
  unfold versionParts coreNumbers
  rw [hmap, h.splitPre_eq]

/-- On accepted versions the comparison is the order of what the source reads. -/
theorem isNewer_iff {a b : String} (ha : isVersion a = true) (hb : isVersion b = true) :
    isNewer a b = true ↔ rank b < rank a := by
  obtain ⟨coreA, preA, hpa⟩ := exists_parts a
  obtain ⟨coreB, preB, hpb⟩ := exists_parts b
  have hcond : ¬(isVersion a = false ∨ isVersion b = false) := by
    rw [ha, hb]
    decide
  unfold isNewer rank rankBy
  rw [if_neg hcond, hpa.splitPre_eq, hpb.splitPre_eq, Prod.Lex.toLex_lt_toLex]
  simp only [hpa.versionParts_eq, hpb.versionParts_eq]
  cases hcmp : ordering (coreNumbers parseU64 a) (coreNumbers parseU64 b) with
  | lt =>
    have hlt := (cmp_eq_lt_iff _ _).mp hcmp
    refine ⟨fun h => absurd h Bool.false_ne_true, fun h => ?_⟩
    rcases h with h | ⟨h, -⟩
    · exact absurd h (lt_asymm hlt)
    · exact absurd h (ne_of_gt hlt)
  | gt => exact ⟨fun _ => Or.inl ((cmp_eq_gt_iff _ _).mp hcmp), fun _ => rfl⟩
  | eq =>
    have heq := (cmp_eq_eq_iff _ _).mp hcmp
    have hright : ∀ {p : Prop}, (coreNumbers parseU64 b < coreNumbers parseU64 a
        ∨ coreNumbers parseU64 b = coreNumbers parseU64 a ∧ p) ↔ p := by
      intro p
      rw [heq]
      simp
    rw [hright]
    cases preA with
    | none =>
      cases preB with
      | none => exact ⟨fun h => absurd h Bool.false_ne_true, fun h => absurd h (lt_irrefl _)⟩
      | some q => exact ⟨fun _ => WithTop.coe_lt_top _, fun _ => rfl⟩
    | some p =>
      cases preB with
      | none => exact ⟨fun h => absurd h Bool.false_ne_true, fun h => absurd h not_top_lt⟩
      | some q =>
        refine (firstDifference_iff compareIdentifiers_eq _ _).trans ?_
        exact WithTop.coe_lt_coe.symm

/-- The comparison is a strict weak order on the accepted versions. -/
theorem isNewer_strictWeak :
    IsStrictWeakOrder { v : String // isVersion v = true } fun a b => isNewer a.1 b.1 = true := by
  have h : ∀ a b : { v : String // isVersion v = true },
      isNewer a.1 b.1 = true ↔ OrderDual.toDual (rank a.1) < OrderDual.toDual (rank b.1) :=
    fun a b => isNewer_iff a.2 b.2
  exact strictWeak_of_rank h

/-! ## Versions whose numbers fit -/

theorem Parts.fields_eq {version : String} {core : List Char} {pre : Option (List Char)}
    (h : Parts version core pre) :
    fields version = core.splitOn '.' ++ (pre.elim [] fun pre => pre.splitOn '.') := by
  unfold fields
  rw [h.splitPre_eq]

/-- The fields of an accepted version hold characters of identifiers only. -/
theorem fields_identifier {version : String} (h : isVersion version = true) :
    ∀ field ∈ fields version, ∀ c ∈ field, isIdentifierChar c = true := by
  obtain ⟨core, pre, hp⟩ := exists_parts version
  obtain ⟨-, -, -, hchars⟩ := hp.isVersion_iff.mp h
  intro field hfield c hc
  rw [hp.fields_eq] at hfield
  rcases List.mem_append.mp hfield with hfield | hfield
  · exact hchars c (List.mem_append_left _ (mem_of_mem_splitOn field hfield c hc))
  · cases pre with
    | none => exact absurd hfield List.not_mem_nil
    | some pre =>
      exact hchars c (List.mem_append_right _
        (List.mem_cons_of_mem _ (mem_of_mem_splitOn field hfield c hc)))

theorem fields_unsigned {version : String} (h : isVersion version = true) :
    ∀ field ∈ fields version, '+' ∉ field := by
  intro field hfield hplus
  exact absurd (fields_identifier h field hfield '+' hplus) (by decide)

theorem rankBy_congr {version : String} {f g : List Char → Option Nat}
    (h : ∀ field ∈ fields version, f field = g field) : rankBy f version = rankBy g version := by
  obtain ⟨core, pre, hp⟩ := exists_parts version
  rw [hp.fields_eq] at h
  have hcore : coreNumbers f version = coreNumbers g version := by
    unfold coreNumbers
    rw [hp.splitPre_eq]
    exact List.map_congr_left fun part hpart => by rw [h part (List.mem_append_left _ hpart)]
  have hpre : preRank f pre = preRank g pre := by
    cases pre with
    | none => rfl
    | some pre =>
      refine congrArg WithTop.some (List.map_congr_left fun part hpart => ?_)
      unfold identifierRank
      rw [h part (List.mem_append_right _ hpart)]
  unfold rankBy
  rw [hcore, hp.splitPre_eq, hpre]

/-- A version whose numbers fit is read as what it is. -/
theorem rank_of_fits {version : String} (h : isVersion version = true) (hfits : Fits version) :
    rank version = precedence version :=
  rankBy_congr fun field hfield =>
    parseU64_of_fits (fields_unsigned h field hfield) (hfits field hfield)

/-- The comparison of two versions says what their precedence says. -/
structure Agrees (a b : String) : Prop where
  newer : isNewer a b = true ↔ precedence b < precedence a
  older : isNewer b a = true ↔ precedence a < precedence b
  same : isNewer a b = false → isNewer b a = false →
    coreNumbers integer a = coreNumbers integer b ∧
      preRank integer (splitPre a).2 = preRank integer (splitPre b).2

theorem agrees_of_fits {a b : String} (ha : isVersion a = true) (hb : isVersion b = true)
    (hfa : Fits a) (hfb : Fits b) : Agrees a b := by
  have hab : isNewer a b = true ↔ precedence b < precedence a := by
    rw [isNewer_iff ha hb, rank_of_fits ha hfa, rank_of_fits hb hfb]
  have hba : isNewer b a = true ↔ precedence a < precedence b := by
    rw [isNewer_iff hb ha, rank_of_fits ha hfa, rank_of_fits hb hfb]
  refine ⟨hab, hba, fun h1 h2 => ?_⟩
  have heq : precedence a = precedence b := by
    refine le_antisymm (not_lt.mp fun hlt => ?_) (not_lt.mp fun hlt => ?_)
    · exact absurd (hab.mpr hlt) (by rw [h1]; decide)
    · exact absurd (hba.mpr hlt) (by rw [h2]; decide)
  exact Prod.mk.inj (toLex.injective heq)

/-! ## Versions whose numbers do not fit -/

/-- A number of which the source cannot read the value is a long one. -/
theorem big_field {field : List Char} (h : ¬∀ n ∈ integer field, n < 2 ^ 64) :
    ∃ n, integer field = some n ∧ 2 ^ 64 ≤ n ∧ IsNumber field ∧ 5 ≤ field.length := by
  obtain ⟨n, hn, hbig⟩ : ∃ n, integer field = some n ∧ 2 ^ 64 ≤ n := by
    cases hi : integer field with
    | none =>
      refine absurd (fun n hn => ?_) h
      rw [hi] at hn
      exact absurd hn.symm (Option.some_ne_none n)
    | some n =>
      refine ⟨n, rfl, Nat.not_lt.mp fun hlt => h fun m hm => ?_⟩
      rw [hi] at hm
      exact (Option.some.inj hm) ▸ hlt
  have hnumber : IsNumber field ∧ decimal field = n := by
    unfold integer at hn
    by_cases hc : field ≠ [] ∧ field.all Char.isDigit = true
    · rw [if_pos hc] at hn
      exact ⟨hc, Option.some.inj hn⟩
    · rw [if_neg hc] at hn
      exact absurd hn.symm (Option.some_ne_none n)
  refine ⟨n, hn, hbig, hnumber.1, Nat.not_lt.mp fun hshort => ?_⟩
  have hlt := decimal_lt (List.all_eq_true.mp hnumber.1.2)
  have hpow : 10 ^ field.length ≤ 10 ^ 4 := Nat.pow_le_pow_right (by decide) (by omega)
  have h64 : (10 : Nat) ^ 4 < 2 ^ 64 := by decide
  omega

theorem digit_ne_hyphen {c : Char} (h : c.isDigit = true) : '-' < c := by
  simp only [Char.isDigit, Bool.and_eq_true, decide_eq_true_eq, ge_iff_le] at h
  exact lt_of_lt_of_le (show '-' < '0' by decide) h.1

/-- The characters of a small release are those of a version core. -/
theorem release_chars {y : List Char} (h : y ⊆ ['1', '.', '0']) :
    ∀ c ∈ y, isIdentifierChar c = true ∧ c ≠ '-' := by
  intro c hc
  have hmem := h hc
  simp only [List.mem_cons, List.not_mem_nil, or_false] at hmem
  rcases hmem with rfl | rfl | rfl
  · exact ⟨rfl, by decide⟩
  · exact ⟨rfl, by decide⟩
  · exact ⟨rfl, by decide⟩

/-- A version of which a component does not fit is read as an older one than a version it
precedes. -/
theorem not_agrees_of_core {a : String} {core : List Char} {pre : Option (List Char)}
    (ha : isVersion a = true) (hp : Parts a core pre)
    (hbig : ¬∀ field ∈ core.splitOn '.', ∀ n ∈ integer field, n < 2 ^ 64) :
    ∃ b, isVersion b = true ∧ Fits b ∧ isNewer a b = false ∧ precedence b < precedence a := by
  obtain ⟨before, field, after, hsplit, hbefore, hfield⟩ := exists_first_not hbig
  obtain ⟨n, hn, hn64, -, hlen5⟩ := big_field hfield
  obtain ⟨hlen, hparts, hsize, hchars⟩ := hp.isVersion_iff.mp ha
  obtain ⟨front, hfront, hfrontLen, hfrontMem⟩ := splitOn_front hsplit
  rw [hsplit, List.length_append, List.length_cons] at hlen
  -- the component becomes a 1, and what follows it zeros
  obtain ⟨y, hy, hyLen, hyChars⟩ : ∃ y : List Char,
      y.splitOn '.' = ['1'] :: List.replicate after.length ['0'] ∧ y.length ≤ 5 ∧
      ∀ c ∈ y, isIdentifierChar c = true ∧ c ≠ '-' := by
    have hafter : after.length = 0 ∨ after.length = 1 ∨ after.length = 2 := by omega
    rcases hafter with h | h | h
    · exact ⟨['1'], by rw [h]; decide, by decide, release_chars (by simp)⟩
    · exact ⟨['1', '.', '0'], by rw [h]; decide, by decide, release_chars (by simp)⟩
    · exact ⟨['1', '.', '0', '.', '0'], by rw [h]; decide, by decide, release_chars (by simp)⟩
  have hsplitB : (front ++ y).splitOn '.' = before ++ ['1'] :: List.replicate after.length ['0'] := by
    rw [hfront, hy]
  have hpb : Parts (String.ofList (front ++ y)) (front ++ y) none := by
    refine ⟨by rw [String.toList_ofList, tail, List.append_nil], fun hc => ?_⟩
    rcases List.mem_append.mp hc with hc | hc
    · exact hp.first (hfrontMem _ hc)
    · exact (hyChars _ hc).2 rfl
  have hone : IsNumber ['1'] := ⟨by decide, by decide⟩
  have hzero : IsNumber ['0'] := ⟨by decide, by decide⟩
  have hb : isVersion (String.ofList (front ++ y)) = true := by
    refine hpb.isVersion_iff.mpr ⟨?_, ?_, ?_, ?_⟩
    · rw [hsplitB, List.length_append, List.length_cons, List.length_replicate, hlen]
    · intro part hpart
      rw [hsplitB] at hpart
      rcases List.mem_append.mp hpart with hpart | hpart
      · exact hparts part (by rw [hsplit]; exact List.mem_append_left _ hpart)
      · rcases List.mem_cons.mp hpart with hpart | hpart
        · exact hpart ▸ hone
        · exact (List.eq_of_mem_replicate hpart) ▸ hzero
    · rw [tail, List.append_nil, List.length_append]
      rw [List.length_append] at hsize
      omega
    · intro c hc
      rw [tail, List.append_nil] at hc
      rcases List.mem_append.mp hc with hc | hc
      · exact hchars c (List.mem_append_left _ (hfrontMem c hc))
      · exact (hyChars c hc).1
  have hfits : Fits (String.ofList (front ++ y)) := by
    intro part hpart m hm
    rw [hpb.fields_eq, hsplitB] at hpart
    rcases List.mem_append.mp hpart with hpart | hpart
    · rcases List.mem_append.mp hpart with hpart | hpart
      · exact hbefore part hpart m hm
      · rcases List.mem_cons.mp hpart with hpart | hpart
        · rw [hpart, show integer ['1'] = some 1 by decide] at hm
          exact (Option.some.inj hm) ▸ (by decide)
        · rw [List.eq_of_mem_replicate hpart, show integer ['0'] = some 0 by decide] at hm
          exact (Option.some.inj hm) ▸ (by decide)
    · exact absurd hpart List.not_mem_nil
  have hnumbersA : ∀ number, coreNumbers number a
      = before.map (fun part => (number part).getD 0) ++ (number field).getD 0
        :: after.map (fun part => (number part).getD 0) := by
    intro number
    unfold coreNumbers
    rw [hp.splitPre_eq, hsplit, List.map_append, List.map_cons]
  have hnumbersB : ∀ number, coreNumbers number (String.ofList (front ++ y))
      = before.map (fun part => (number part).getD 0) ++ (number ['1']).getD 0
        :: (List.replicate after.length ['0']).map (fun part => (number part).getD 0) := by
    intro number
    unfold coreNumbers
    rw [hpb.splitPre_eq, hsplitB, List.map_append, List.map_cons]
  have hunsigned : '+' ∉ field := fields_unsigned ha field (by
    rw [hp.fields_eq, hsplit]
    exact List.mem_append_left _ (List.mem_append_right _ List.mem_cons_self))
  refine ⟨_, hb, hfits, ?_, ?_⟩
  · have hlt : rank a < rank (String.ofList (front ++ y)) := by
      refine Prod.Lex.toLex_lt_toLex.mpr (Or.inl ?_)
      rw [hnumbersA, hnumbersB, parseU64_of_big hunsigned hn hn64,
        show parseU64 ['1'] = some 1 by decide]
      exact append_cons_lt _ Nat.one_pos _ _
    refine Bool.eq_false_iff.mpr fun hnewer => ?_
    exact lt_asymm hlt ((isNewer_iff ha hb).mp hnewer)
  · refine Prod.Lex.toLex_lt_toLex.mpr (Or.inl ?_)
    rw [hnumbersA, hnumbersB, hn, show integer ['1'] = some 1 by decide]
    exact append_cons_lt _ (lt_of_lt_of_le (by decide) hn64) _ _

/-- A version of which an identifier does not fit is read as a newer one than a version that
precedes it. -/
theorem not_agrees_of_pre {a : String} {core pre : List Char} (ha : isVersion a = true)
    (hp : Parts a core (some pre))
    (hcore : ∀ field ∈ core.splitOn '.', ∀ n ∈ integer field, n < 2 ^ 64)
    (hbig : ¬∀ field ∈ pre.splitOn '.', ∀ n ∈ integer field, n < 2 ^ 64) :
    ∃ b, isVersion b = true ∧ Fits b ∧ isNewer a b = true ∧ precedence a < precedence b := by
  obtain ⟨before, field, after, hsplit, hbefore, hfield⟩ := exists_first_not hbig
  obtain ⟨n, hn, hn64, hnumber, hlen5⟩ := big_field hfield
  obtain ⟨hlen, hparts, hsize, hchars⟩ := hp.isVersion_iff.mp ha
  obtain ⟨front, hfront, hfrontLen, hfrontMem⟩ := splitOn_front hsplit
  -- the identifier becomes a hyphen, a text that is below all digits
  have hsplitB : (front ++ ['-']).splitOn '.' = before ++ [['-']] := by
    rw [hfront]
    rfl
  have hpb : Parts (String.ofList (core ++ '-' :: (front ++ ['-']))) core
      (some (front ++ ['-'])) := ⟨String.toList_ofList, hp.first⟩
  have hb : isVersion (String.ofList (core ++ '-' :: (front ++ ['-']))) = true := by
    refine hpb.isVersion_iff.mpr ⟨hlen, hparts, ?_, ?_⟩
    · simp only [tail, List.length_append, List.length_cons, List.length_nil] at hsize ⊢
      omega
    · intro c hc
      rcases List.mem_append.mp hc with hc | hc
      · exact hchars c (List.mem_append_left _ hc)
      · rcases List.mem_cons.mp hc with hc | hc
        · exact hc ▸ (by decide)
        · rcases List.mem_append.mp hc with hc | hc
          · exact hchars c (List.mem_append_right _ (List.mem_cons_of_mem _ (hfrontMem c hc)))
          · exact (List.mem_singleton.mp hc) ▸ (by decide)
  have hhyphen : integer ['-'] = none := by decide
  have hfits : Fits (String.ofList (core ++ '-' :: (front ++ ['-']))) := by
    intro part hpart m hm
    rw [hpb.fields_eq] at hpart
    rcases List.mem_append.mp hpart with hpart | hpart
    · exact hcore part hpart m hm
    · rw [Option.elim_some, hsplitB] at hpart
      rcases List.mem_append.mp hpart with hpart | hpart
      · exact hbefore part hpart m hm
      · rw [List.mem_singleton.mp hpart, hhyphen] at hm
        exact absurd hm.symm (Option.some_ne_none m)
  have hcoreEq : ∀ number, coreNumbers number (String.ofList (core ++ '-' :: (front ++ ['-'])))
      = coreNumbers number a := by
    intro number
    unfold coreNumbers
    rw [hpb.splitPre_eq, hp.splitPre_eq]
  have hpreA : ∀ number, preRank number (splitPre a).2
      = WithTop.some (before.map (identifierRank number) ++ identifierRank number field
        :: after.map (identifierRank number)) := by
    intro number
    rw [hp.splitPre_eq]
    show WithTop.some ((pre.splitOn '.').map (identifierRank number)) = _
    rw [hsplit, List.map_append, List.map_cons]
  have hpreB : ∀ number,
      preRank number (splitPre (String.ofList (core ++ '-' :: (front ++ ['-'])))).2
      = WithTop.some (before.map (identifierRank number) ++ [identifierRank number ['-']]) := by
    intro number
    rw [hpb.splitPre_eq]
    show WithTop.some (((front ++ ['-']).splitOn '.').map (identifierRank number)) = _
    rw [hsplitB, List.map_append]
    rfl
  have hunsigned : '+' ∉ field := fields_unsigned ha field (by
    rw [hp.fields_eq, Option.elim_some, hsplit]
    exact List.mem_append_right _ (List.mem_append_right _ List.mem_cons_self))
  refine ⟨_, hb, hfits, (isNewer_iff ha hb).mpr ?_, ?_⟩
  · refine Prod.Lex.toLex_lt_toLex.mpr (Or.inr ⟨hcoreEq _, ?_⟩)
    rw [hpreA, hpreB, WithTop.coe_lt_coe]
    refine append_cons_lt _ ?_ _ _
    unfold identifierRank
    rw [parseU64_of_big hunsigned hn hn64, show parseU64 ['-'] = none by decide]
    refine Sum.Lex.inr_lt_inr_iff.mpr ?_
    cases field with
    | nil => exact absurd rfl hnumber.1
    | cons c cs =>
      exact List.cons_lt_cons_iff.mpr
        (Or.inl (digit_ne_hyphen (List.all_eq_true.mp hnumber.2 c List.mem_cons_self)))
  · refine Prod.Lex.toLex_lt_toLex.mpr (Or.inr ⟨(hcoreEq _).symm, ?_⟩)
    rw [hpreA, hpreB, WithTop.coe_lt_coe]
    refine append_cons_lt _ ?_ _ _
    unfold identifierRank
    rw [hn, hhyphen]
    exact Sum.Lex.inl_lt_inr _ _

/-- A version is compared rightly with all that fit exactly when it fits. -/
theorem fits_iff_agrees {a : String} (ha : isVersion a = true) :
    Fits a ↔ ∀ b, isVersion b = true → Fits b → Agrees a b := by
  refine ⟨fun hfits b hb hfb => agrees_of_fits ha hb hfits hfb, fun h => ?_⟩
  obtain ⟨core, pre, hp⟩ := exists_parts a
  have hcore : ∀ field ∈ core.splitOn '.', ∀ n ∈ integer field, n < 2 ^ 64 := by
    by_contra hbig
    obtain ⟨b, hb, hfb, hnewer, hlt⟩ := not_agrees_of_core ha hp hbig
    rw [(h b hb hfb).newer.mpr hlt] at hnewer
    exact absurd hnewer (by decide)
  intro field hfield
  rw [hp.fields_eq] at hfield
  rcases List.mem_append.mp hfield with hfield | hfield
  · exact hcore field hfield
  · cases pre with
    | none => exact absurd hfield List.not_mem_nil
    | some pre =>
      by_contra hbig
      obtain ⟨b, hb, hfb, hnewer, hlt⟩ := not_agrees_of_pre ha hp hcore fun hall =>
        hbig (hall field hfield)
      exact lt_asymm hlt ((h b hb hfb).newer.mp hnewer)

end Eef.Node.Updater
