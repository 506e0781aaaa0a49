import Eef.Lib.Result
import Eef.Lib.Assoc
import Mathlib.Data.Nat.Digits.Defs
import Mathlib.Data.String.Basic

/-!
# JSON documents, their encoded size and derived decoding

`Json` is `serde_json::Value` read as a document: an object is its fields in
order. Three things of the sources depend on the encoding and are modelled here.

* `Json.size` — the length in bytes of the compact encoding
  (`serde_json::to_vec(..).len()`), escapes included. Floating point numbers are
  carried as their 64 bits; how such a number is spelled, and how two of them
  compare, is left to the `F64` parameter.
* `Json.depth` — the nesting the parser has to enter; `serde_json` refuses text
  nested past its recursion limit (`Json.parses`).
* `Json.struct` — what a derived `Deserialize` with `deny_unknown_fields` reads:
  an object with distinct, known keys, or an array in declaration order.

A text column that only ever holds `serde_json` output is modelled by the
document that output spells.
-/

namespace Eef.Lib

/-- The floating point operations the sources use, as far as they matter:
decimal spelling, conversion from an integer, and the partial order. -/
class F64 where
  text : BitVec 64 → String
  ofInt : Int → BitVec 64
  cmp : BitVec 64 → BitVec 64 → Option Ordering

/-- Doubles as their bits: integers below `2 ^ 53` convert exactly, and two doubles
compare by sign and magnitude. For evaluating documents without fractions. -/
@[reducible]
def F64.bits : F64 where
  text _ := "0.0"
  ofInt n :=
    if n = 0 then 0#64
    else
      let e := n.natAbs.log2
      BitVec.ofNat 64
        ((if n < 0 then 2 ^ 63 else 0) + (e + 1023) * 2 ^ 52 + (n.natAbs * 2 ^ (52 - e) - 2 ^ 52))
  cmp a b :=
    let nan (x : BitVec 64) : Bool := x.toNat % 2 ^ 63 > 0x7ff * 2 ^ 52
    let key (x : BitVec 64) : Int :=
      if x.toNat < 2 ^ 63 then x.toNat else -(x.toNat - 2 ^ 63 : Int)
    if nan a || nan b then none else some (compare (key a) (key b))

/-- `serde_json::Number`. `negInt n` is the integer `-(n + 1)`. -/
inductive Number where
  | posInt (n : Nat)
  | negInt (n : Nat)
  | float (bits : BitVec 64)
  deriving DecidableEq, Repr

/-- `serde_json::Value`; an object lists its fields in order. -/
inductive Json where
  | null
  | bool (b : Bool)
  | num (n : Number)
  | str (s : String)
  | arr (items : List Json)
  | obj (fields : List (String × Json))
  deriving Repr

namespace Json

/-! ## Equality is decidable -/

mutual
/-- Structural equality test of two documents. -/
def same : Json → Json → Bool
  | .null, .null => true
  | .bool a, .bool b => a == b
  | .num a, .num b => a == b
  | .str a, .str b => a == b
  | .arr a, .arr b => sameItems a b
  | .obj a, .obj b => sameFields a b
  | _, _ => false

def sameItems : List Json → List Json → Bool
  | [], [] => true
  | a :: as, b :: bs => same a b && sameItems as bs
  | _, _ => false

def sameFields : List (String × Json) → List (String × Json) → Bool
  | [], [] => true
  | (k, a) :: as, (l, b) :: bs => k == l && (same a b && sameFields as bs)
  | _, _ => false
end

mutual
theorem same_iff : ∀ a b : Json, same a b = true ↔ a = b
  | .null, b => by cases b <;> simp [same]
  | .bool a, b => by cases b <;> simp [same]
  | .num a, b => by cases b <;> simp [same]
  | .str a, b => by cases b <;> simp [same]
  | .arr a, b => by
    cases b <;> simp only [same, Bool.false_eq_true, reduceCtorEq, Json.arr.injEq]
    exact sameItems_iff a _
  | .obj a, b => by
    cases b <;> simp only [same, Bool.false_eq_true, reduceCtorEq, Json.obj.injEq]
    exact sameFields_iff a _

theorem sameItems_iff : ∀ a b : List Json, sameItems a b = true ↔ a = b
  | [], b => by cases b <;> simp [sameItems]
  | a :: as, [] => by simp [sameItems]
  | a :: as, b :: bs => by
    simp only [sameItems, Bool.and_eq_true, same_iff a b, sameItems_iff as bs, List.cons.injEq]

theorem sameFields_iff : ∀ a b : List (String × Json), sameFields a b = true ↔ a = b
  | [], b => by cases b <;> simp [sameFields]
  | (k, a) :: as, [] => by simp [sameFields]
  | (k, a) :: as, (l, b) :: bs => by
    simp only [sameFields, Bool.and_eq_true, beq_iff_eq, same_iff a b, sameFields_iff as bs,
      List.cons.injEq, Prod.mk.injEq, and_assoc]
end

instance : DecidableEq Json := fun a b => decidable_of_iff _ (same_iff a b)

/-! ## Encoded size -/

/-- Bytes of one character inside an encoded string: the two-byte escapes, the
six-byte `\u00xx` escapes of the other control characters, else UTF-8. -/
def charSize (c : Char) : Nat :=
  if c = '"' ∨ c = '\\' ∨ c = '\n' ∨ c = '\r' ∨ c = '\t' ∨ c.toNat = 8 ∨ c.toNat = 12 then 2
  else if c.toNat < 32 then 6
  else c.utf8Size

/-- Bytes of an encoded string, quotes included. -/
def strSize (s : String) : Nat := (s.toList.map charSize).sum + 2

/-- Decimal digits of a natural number. -/
def natSize (n : Nat) : Nat := (Nat.toDigits 10 n).length

section
variable [F64]

def numSize : Number → Nat
  | .posInt n => natSize n
  | .negInt n => natSize (n + 1) + 1
  | .float bits => (F64.text bits).utf8ByteSize

mutual
/-- Bytes of the compact encoding. -/
def size : Json → Nat
  | .null => 4
  | .bool b => if b then 4 else 5
  | .num n => numSize n
  | .str s => strSize s
  | .arr items => 2 + itemsSize items
  | .obj fields => 2 + fieldsSize fields

/-- Bytes between the brackets: the items and the commas between them. -/
def itemsSize : List Json → Nat
  | [] => 0
  | [j] => size j
  | j :: js => size j + 1 + itemsSize js

/-- Bytes between the braces: `key:value` pairs and the commas between them. -/
def fieldsSize : List (String × Json) → Nat
  | [] => 0
  | [(k, j)] => strSize k + 1 + size j
  | (k, j) :: fs => strSize k + 1 + size j + 1 + fieldsSize fs
end

end

theorem natSize_pos (n : Nat) : 0 < natSize n := Nat.length_toDigits_pos

theorem natSize_le {n k : Nat} (hk : 0 < k) (h : n < 10 ^ k) : natSize n ≤ k :=
  Nat.toDigits_length 10 n k hk h

/-- A 64-bit value has at most twenty decimal digits. -/
theorem natSize_le_u64 {n : Nat} (h : n < 2 ^ 64) : natSize n ≤ 20 :=
  natSize_le (by omega) (by omega)

/-- The characters an encoded string spells as themselves, in one byte. -/
def isPlain (c : Char) : Bool := 32 ≤ c.toNat && c.toNat < 127 && c != '"' && c != '\\'

theorem charSize_plain {c : Char} (h : isPlain c = true) : charSize c = 1 := by
  simp only [isPlain, Bool.and_eq_true, decide_eq_true_eq, bne_iff_ne, ne_eq] at h
  obtain ⟨⟨⟨hlo, hhi⟩, hq⟩, hb⟩ := h
  have hn : c ≠ '\n' := by rintro rfl; revert hlo; decide
  have hr : c ≠ '\r' := by rintro rfl; revert hlo; decide
  have ht : c ≠ '\t' := by rintro rfl; revert hlo; decide
  rw [charSize, if_neg, if_neg (by omega)]
  · rw [Char.utf8Size_eq_one_iff]
    show c.val.toNat ≤ 127
    have : c.toNat = c.val.toNat := rfl
    omega
  · simp only [hq, hb, hn, hr, ht, false_or]
    omega

/-- Every character takes at least one byte. -/
theorem length_le_utf8Len : ∀ cs : List Char, cs.length ≤ String.utf8Len cs
  | [] => Nat.le_refl _
  | c :: cs => by
    have := length_le_utf8Len cs
    have := c.utf8Size_pos
    simp only [List.length_cons, String.utf8Len_cons]
    omega

/-- A string of plain characters encodes to itself between quotes. -/
theorem strSize_plain {s : String} (h : s.toList.all isPlain = true) :
    strSize s ≤ s.utf8ByteSize + 2 := by
  have hsum : (s.toList.map charSize).sum = s.toList.length := by
    have : s.toList.map charSize = s.toList.map fun _ => 1 := by
      apply List.map_congr_left
      intro c hc
      exact charSize_plain (List.all_eq_true.mp h c hc)
    rw [this]
    simp
  have hbytes : s.utf8ByteSize = String.utf8Len s.toList := by
    conv_lhs => rw [← String.ofList_toList (s := s)]
    exact String.utf8ByteSize_ofList _
  have := length_le_utf8Len s.toList
  rw [strSize, hsum, hbytes]
  omega

/-- A string without control characters at most doubles in an encoded document. -/
theorem strSize_le_double {s : String} (h : ∀ c ∈ s.toList, 32 ≤ c.toNat) :
    strSize s ≤ 2 * s.utf8ByteSize + 2 := by
  have hchar : ∀ c : Char, 32 ≤ c.toNat → charSize c ≤ 2 * c.utf8Size := by
    intro c hc
    have := c.utf8Size_pos
    unfold charSize
    split
    · omega
    · split
      · omega
      · omega
  have hsum : ∀ cs : List Char, (∀ c ∈ cs, 32 ≤ c.toNat) →
      (cs.map charSize).sum ≤ 2 * String.utf8Len cs := by
    intro cs
    induction cs with
    | nil => exact fun _ => Nat.le_refl _
    | cons c cs ih =>
      intro hcs
      have h1 := hchar c (hcs c (List.mem_cons_self ..))
      have h2 := ih fun d hd => hcs d (List.mem_cons_of_mem _ hd)
      rw [List.map_cons, List.sum_cons, String.utf8Len_cons]
      omega
  have := hsum s.toList h
  unfold strSize
  have hlen : String.utf8Len s.toList = s.utf8ByteSize := by simp
  omega

section
variable [F64]

theorem itemsSize_le {b : Nat} :
    ∀ {items : List Json}, (∀ j ∈ items, j.size ≤ b) → itemsSize items ≤ items.length * (b + 1)
  | [], _ => by simp [itemsSize]
  | [j], h => by
    have := h j (List.mem_cons_self ..)
    simp only [itemsSize, List.length_singleton]
    omega
  | j :: k :: items, h => by
    have hj := h j (List.mem_cons_self ..)
    have ih : itemsSize (k :: items) ≤ (k :: items).length * (b + 1) :=
      itemsSize_le fun i hi => h i (List.mem_cons_of_mem _ hi)
    rw [itemsSize, List.length_cons, Nat.add_mul]
    · omega
    · simp

end

/-! ## A bound on the size

The bytes of a string are read off much faster than its characters, and six times as many are enough. -/

theorem strSize_le {s : String} : strSize s ≤ 6 * s.utf8ByteSize + 2 := by
  have hchar : ∀ c : Char, charSize c ≤ 6 * c.utf8Size := by
    intro c
    have := c.utf8Size_pos
    unfold charSize
    split
    · omega
    · split
      · omega
      · omega
  have hsum : ∀ cs : List Char, (cs.map charSize).sum ≤ 6 * String.utf8Len cs := by
    intro cs
    induction cs with
    | nil => exact Nat.zero_le _
    | cons c cs ih =>
      have := hchar c
      rw [List.map_cons, List.sum_cons, String.utf8Len_cons]
      omega
  have hlen : String.utf8Len s.toList = s.utf8ByteSize := by simp
  have := hsum s.toList
  unfold strSize
  omega

section
variable [F64]

mutual
/-- At least the bytes of the compact encoding. -/
def sizeBound : Json → Nat
  | .str s => 6 * s.utf8ByteSize + 2
  | .arr items => 2 + itemsBound items
  | .obj fields => 2 + fieldsBound fields
  | .null => 4
  | .bool b => if b then 4 else 5
  | .num n => numSize n

@[inherit_doc sizeBound]
def itemsBound : List Json → Nat
  | [] => 0
  | j :: js => sizeBound j + 1 + itemsBound js

@[inherit_doc sizeBound]
def fieldsBound : List (String × Json) → Nat
  | [] => 0
  | (k, j) :: fs => 6 * k.utf8ByteSize + 4 + sizeBound j + fieldsBound fs
end

mutual
theorem size_le_bound : ∀ j : Json, j.size ≤ j.sizeBound
  | .null => Nat.le_refl _
  | .bool _ => Nat.le_refl _
  | .num _ => Nat.le_refl _
  | .str _ => strSize_le
  | .arr items => Nat.add_le_add_left (itemsSize_le_bound items) 2
  | .obj fields => Nat.add_le_add_left (fieldsSize_le_bound fields) 2

theorem itemsSize_le_bound : ∀ items : List Json, itemsSize items ≤ itemsBound items
  | [] => Nat.le_refl _
  | [j] => by
    have := size_le_bound j
    simp only [itemsSize, itemsBound]
    omega
  | j :: k :: items => by
    have hj := size_le_bound j
    have hrest := itemsSize_le_bound (k :: items)
    rw [itemsSize, itemsBound]
    · omega
    · simp

theorem fieldsSize_le_bound : ∀ fields : List (String × Json), fieldsSize fields ≤ fieldsBound fields
  | [] => Nat.le_refl _
  | [(k, j)] => by
    have hj := size_le_bound j
    have hk := strSize_le (s := k)
    simp only [fieldsSize, fieldsBound]
    omega
  | (k, j) :: f :: fields => by
    have hj := size_le_bound j
    have hk := strSize_le (s := k)
    have hrest := fieldsSize_le_bound (f :: fields)
    rw [fieldsSize, fieldsBound]
    · omega
    · simp
end

/-- Most documents are far below their limit, and the bound tells. -/
instance decSizeLe (j : Json) (n : Nat) : Decidable (j.size ≤ n) :=
  match Nat.decLe j.sizeBound n with
  | .isTrue h => .isTrue (j.size_le_bound.trans h)
  | .isFalse _ => Nat.decLe j.size n

end

/-! ## Nesting -/

mutual
/-- Levels of arrays and objects around the innermost value. -/
def depth : Json → Nat
  | .arr items => itemsDepth items + 1
  | .obj fields => fieldsDepth fields + 1
  | _ => 0

def itemsDepth : List Json → Nat
  | [] => 0
  | j :: js => max (depth j) (itemsDepth js)

def fieldsDepth : List (String × Json) → Nat
  | [] => 0
  | (_, j) :: fs => max (depth j) (fieldsDepth fs)
end

/-- `serde_json`'s recursion limit: parsing text whose nesting reaches it fails,
while writing such text does not. -/
def recursionLimit : Nat := 128

/-- `serde_json::from_str` accepts the text this document spells. -/
def parses (j : Json) : Bool := j.depth < recursionLimit

/-! ## Reading values -/

/-- `Value::get(key)`. -/
def get? (j : Json) (key : String) : Option Json :=
  match j with
  | .obj fields => fields.lookup key
  | _ => none

/-- `Value::as_bool`. -/
def asBool : Json → Option Bool
  | .bool b => some b
  | _ => none

/-- `Value::as_str`. -/
def asStr : Json → Option String
  | .str s => some s
  | _ => none

/-- `Value::is_number`. -/
def isNumber : Json → Bool
  | .num _ => true
  | _ => false

/-- `Value::is_object`. -/
def isObject : Json → Bool
  | .obj _ => true
  | _ => false

/-- `Value::is_null`. -/
def isNull : Json → Bool
  | .null => true
  | _ => false

/-- An unsigned integer of `width` bits. -/
def asUInt (width : Nat) : Json → Option Nat
  | .num (.posInt n) => if n < 2 ^ width then some n else none
  | _ => none

/-- A list, each item read by `f`. -/
def asList {α : Type} (f : Json → Option α) : Json → Option (List α)
  | .arr items => items.mapM f
  | _ => none

/-- A derived unit variant: its name, or an object naming it with a null body. -/
def asVariant : Json → Option String
  | .str s => some s
  | .obj [(s, .null)] => some s
  | _ => none

/-- The fields a derived struct with `deny_unknown_fields` is built from. In the
array form only fields with a default, past the first `required`, may be left
out. -/
def struct (known : List String) (required : Nat) : Json → Option (List (String × Json))
  | .obj fields =>
    if (fields.map Prod.fst).Nodup ∧ ∀ k ∈ fields.map Prod.fst, k ∈ known then some fields
    else none
  | .arr items =>
    if required ≤ items.length ∧ items.length ≤ known.length then some (known.zip items) else none
  | _ => none

/-- A required field. -/
def field {α : Type} (fields : List (String × Json)) (key : String) (f : Json → Option α) :
    Option α :=
  (fields.lookup key).bind f

/-- An `Option` field: absent and `null` both read as `none`. -/
def optField {α : Type} (fields : List (String × Json)) (key : String) (f : Json → Option α) :
    Option (Option α) :=
  match fields.lookup key with
  | none => some none
  | some .null => some none
  | some j => (f j).map some

/-- A field with `#[serde(default)]`. -/
def defaultField {α : Type} (fields : List (String × Json)) (key : String)
    (f : Json → Option α) (default : α) : Option α :=
  match fields.lookup key with
  | none => some default
  | some j => f j

/-- `null` for `none`, as derived `Serialize` writes an `Option`. -/
def ofOption {α : Type} (f : α → Json) : Option α → Json
  | none => .null
  | some a => f a

/-- An unsigned integer. -/
def nat (n : Nat) : Json := .num (.posInt n)

/-- `value[key]`: a missing key reads as `null`. -/
def index (j : Json) (key : String) : Json := (j.get? key).getD .null

/-- `value[key] = v` on an object. -/
def set (j : Json) (key : String) (v : Json) : Json :=
  match j with
  | .obj fields => .obj (Assoc.set key v fields)
  | other => other

/-- The keys of an object. -/
def keys : Json → List String
  | .obj fields => fields.map Prod.fst
  | _ => []

/-- `Value::as_i64`, `Value::as_u64` and `Value::as_f64` of a number. -/
def Number.asI64 : Number → Option Int
  | .posInt n => if n < 2 ^ 63 then some n else none
  | .negInt n => some (.negSucc n)
  | .float _ => none

@[inherit_doc Number.asI64]
def Number.asU64 : Number → Option Nat
  | .posInt n => some n
  | _ => none

@[inherit_doc Number.asI64]
def Number.asF64 [F64] : Number → BitVec 64
  | .posInt n => F64.ofInt n
  | .negInt n => F64.ofInt (.negSucc n)
  | .float bits => bits

/-! ## Reading back what was written -/

theorem struct_obj {known : List String} {required : Nat} {fields : List (String × Json)}
    (hk : fields.map Prod.fst = known) (hn : known.Nodup) :
    struct known required (.obj fields) = some fields := by
  simp [struct, hk, hn]

theorem asList_map {α : Type} {f : Json → Option α} {e : α → Json} (h : ∀ a, f (e a) = some a)
    (l : List α) : asList f (.arr (l.map e)) = some l := by
  simp only [asList]
  induction l with
  | nil => rfl
  | cons a l ih => simp [List.mapM_cons, h, ih]

theorem optField_str {fs : List (String × Json)} {k : String} {o : Option String}
    (h : fs.lookup k = some (ofOption .str o)) : optField fs k asStr = some o := by
  cases o <;> simp [optField, h, ofOption, asStr]

theorem optField_bool {fs : List (String × Json)} {k : String} {o : Option Bool}
    (h : fs.lookup k = some (ofOption .bool o)) : optField fs k asBool = some o := by
  cases o <;> simp [optField, h, ofOption, asBool]

theorem asUInt_nat {w n : Nat} (h : n < 2 ^ w) : asUInt w (.nat n) = some n := by
  simp [asUInt, nat, h]

theorem of_asUInt {w n : Nat} {j : Json} (h : j.asUInt w = some n) : j = .nat n := by
  unfold asUInt at h
  split at h
  · split at h
    · cases h
      rfl
    · cases h
  · cases h

theorem of_asStr {s : String} {j : Json} (h : j.asStr = some s) : j = .str s := by
  unfold asStr at h
  split at h
  · cases h
    rfl
  · cases h

/-! A derived decoder is a chain of binds, one for each field. These step through
it over what the matching encoder wrote, one field at a time. -/

section
variable {α β : Type} {fs : List (String × Json)} {k : String}

theorem struct_bind {known : List String} {required : Nat} {g : List (String × Json) → Option β}
    (hk : fs.map Prod.fst = known) (hn : known.Nodup) :
    (struct known required (.obj fs) >>= g) = g fs := by
  rw [struct_obj hk hn]
  rfl

theorem field_bind {v : Json} {f : Json → Option α} {a : α} {g : α → Option β}
    (h : fs.lookup k = some v) (hf : f v = some a) : (field fs k f >>= g) = g a := by
  simp [field, h, hf]

theorem optField_bind {f : Json → Option α} {o : Option α} {g : Option α → Option β}
    (h : optField fs k f = some o) : (optField fs k f >>= g) = g o := by
  rw [h]
  rfl

end

/-! ## RFC 6901 pointers -/

/-- One reference token, unescaped: `~1` is a slash and `~0` a tilde. -/
def unescape : List Char → List Char
  | '~' :: '1' :: cs => '/' :: unescape cs
  | '~' :: '0' :: cs => '~' :: unescape cs
  | c :: cs => c :: unescape cs
  | [] => []

/-- The reference tokens after the leading slash. -/
def tokens : List Char → List Char → List (List Char)
  | acc, [] => [acc.reverse]
  | acc, '/' :: cs => acc.reverse :: tokens [] cs
  | acc, c :: cs => tokens (c :: acc) cs

/-- An array index: decimal, no sign and no leading zero. -/
def indexOf (token : List Char) : Option Nat :=
  if token = [] ∨ (token.head? = some '0' ∧ token.length ≠ 1) ∨ !(token.all Char.isDigit) then none
  else some (token.foldl (fun n c => n * 10 + (c.toNat - 48)) 0)

def follow : Json → List (List Char) → Option Json
  | j, [] => some j
  | .obj fields, t :: ts => (fields.lookup (String.ofList (unescape t))).bind (follow · ts)
  | .arr items, t :: ts => ((indexOf t).bind (items[·]?)).bind (follow · ts)
  | _, _ :: _ => none

/-- `Value::pointer`. -/
def pointer (j : Json) (path : String) : Option Json :=
  match path.toList with
  | [] => some j
  | '/' :: cs => follow j (tokens [] cs)
  | _ => none

/-- `pipeline::encoded_bytes`: the encoded length, if it fits the limit. -/
def encodedBytes [F64] (j : Json) (limit : Nat) : Result Nat :=
  if j.size ≤ limit then .ok j.size else .error "Pipeline encoded data budget exceeded"

theorem encodedBytes_ok [F64] {j : Json} {limit n : Nat} :
    j.encodedBytes limit = .ok n ↔ j.size ≤ limit ∧ n = j.size := by
  unfold encodedBytes
  split <;> simp_all [eq_comm]

end Json

end Eef.Lib
