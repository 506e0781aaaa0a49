import Mathlib.Data.List.Basic
import Mathlib.Data.List.Induction

/-!
# Lines of a stream that arrives in chunks

A reader keeps the elements of the line that has not ended in a buffer of bounded size, hands a
line over when its last element arrives, and cuts every chunk at the ends of lines before it
looks at the space that is left. Three levels describe it.

* `readChunk` — what the code does: the parts of a chunk, each tested against the free space.
* `push` — one element at a time. Parts are only runs of elements, so the chunk borders vanish
  (`readChunks_flatten`).
* `readLines` — the specification: every line of the stream is short enough and is accepted by
  `step`, the handling of one line (`readChunks_close`).

`Lines` says what the lines of a stream are without a program that finds them; they are unique
(`Lines.eq`).
-/

namespace Eef.Lib

variable {α σ : Type}

/-! ## The lines of a stream -/

/-- `slice.split_inclusive(last)`: a part ends with the element that `last` accepts, and what
follows the last such element is a part of its own. -/
def splitInclusive (last : α → Bool) : List α → List (List α)
  | [] => []
  | a :: s =>
    if last a then [a] :: splitInclusive last s
    else
      match splitInclusive last s with
      | [] => [[a]]
      | part :: parts => (a :: part) :: parts

/-- The lines of a stream: they make up the stream, none is empty, an end of line stands nowhere
but at the end of one, and all but the last have it there. -/
structure Lines (last : α → Bool) (stream : List α) (lines : List (List α)) : Prop where
  whole : lines.flatten = stream
  nonempty : [] ∉ lines
  inner : ∀ line ∈ lines, ∀ a ∈ line.dropLast, last a = false
  ended : ∀ line ∈ lines.dropLast, ∃ a ∈ line.getLast?, last a = true

theorem splitInclusive_end {last : α → Bool} {a : α} (ha : last a = true) (s : List α) :
    splitInclusive last (a :: s) = [a] :: splitInclusive last s := by
  show (if last a then _ else _) = _
  rw [if_pos ha]

theorem splitInclusive_nil_iff {last : α → Bool} {s : List α} :
    splitInclusive last s = [] ↔ s = [] := by
  cases s with
  | nil => exact ⟨fun _ => rfl, fun _ => rfl⟩
  | cons a s =>
    unfold splitInclusive
    split
    · exact ⟨nofun, nofun⟩
    · split
      · exact ⟨nofun, nofun⟩
      · exact ⟨nofun, nofun⟩

/-- A line that goes on is a longer first part. -/
theorem splitInclusive_inner {last : α → Bool} {a b : α} {s : List α} (ha : last a = false) :
    ∃ part parts, splitInclusive last (b :: s) = part :: parts ∧
      splitInclusive last (a :: b :: s) = (a :: part) :: parts := by
  cases h : splitInclusive last (b :: s) with
  | nil => exact absurd (splitInclusive_nil_iff.mp h) (List.cons_ne_nil b s)
  | cons part parts =>
    refine ⟨part, parts, rfl, ?_⟩
    show (if last a then _ else _) = _
    rw [if_neg (by rw [ha]; exact Bool.false_ne_true), h]

theorem splitInclusive_one {last : α → Bool} {a : α} : splitInclusive last [a] = [[a]] := by
  unfold splitInclusive
  split
  · rfl
  · rfl

/-- The parts of `split_inclusive` are the lines. -/
theorem lines_splitInclusive (last : α → Bool) (s : List α) :
    Lines last s (splitInclusive last s) := by
  induction s with
  | nil => exact ⟨rfl, List.not_mem_nil, nofun, nofun⟩
  | cons a s ih =>
    by_cases ha : last a = true
    · rw [splitInclusive_end ha]
      refine ⟨?_, ?_, ?_, ?_⟩
      · rw [List.flatten_cons, ih.whole]
        rfl
      · intro hn
        rcases List.mem_cons.mp hn with h | h
        · exact List.cons_ne_nil a [] h.symm
        · exact ih.nonempty h
      · intro line hl x hx
        rcases List.mem_cons.mp hl with h | h
        · subst h
          exact absurd hx List.not_mem_nil
        · exact ih.inner line h x hx
      · intro line hl
        cases hp : splitInclusive last s with
        | nil =>
          rw [hp] at hl
          exact absurd hl List.not_mem_nil
        | cons part parts =>
          rw [hp] at hl
          rcases List.mem_cons.mp hl with h | h
          · subst h
            exact ⟨a, rfl, ha⟩
          · exact ih.ended line (by rw [hp]; exact h)
    · have ha : last a = false := Bool.not_eq_true _ ▸ ha
      cases s with
      | nil =>
        rw [splitInclusive_one]
        exact ⟨rfl, by simp, by simp, by simp⟩
      | cons b s =>
        obtain ⟨part, parts, hs, hcons⟩ := splitInclusive_inner (b := b) (s := s) ha
        rw [hs] at ih
        rw [hcons]
        have hpart : part ≠ [] := fun h => ih.nonempty (h ▸ List.mem_cons_self)
        refine ⟨?_, ?_, ?_, ?_⟩
        · show a :: (part :: parts).flatten = _
          rw [ih.whole]
        · intro hn
          rcases List.mem_cons.mp hn with h | h
          · exact List.cons_ne_nil a part h.symm
          · exact ih.nonempty (List.mem_cons_of_mem _ h)
        · intro line hl x hx
          rcases List.mem_cons.mp hl with h | h
          · subst h
            rw [List.dropLast_cons_of_ne_nil hpart] at hx
            rcases List.mem_cons.mp hx with h | h
            · exact h ▸ ha
            · exact ih.inner part List.mem_cons_self x h
          · exact ih.inner line (List.mem_cons_of_mem _ h) x hx
        · intro line hl
          cases parts with
          | nil => exact absurd hl List.not_mem_nil
          | cons next parts =>
            rcases List.mem_cons.mp hl with h | h
            · subst h
              obtain ⟨x, hx, hlast⟩ := ih.ended part List.mem_cons_self
              refine ⟨x, ?_, hlast⟩
              rw [List.getLast?_cons_of_ne_nil hpart]
              exact hx
            · exact ih.ended line (List.mem_cons_of_mem _ h)

/-- A finished line is cut off, and so is what is left at the end. -/
theorem splitInclusive_line {last : α → Bool} {line : List α} (hne : line ≠ [])
    (hin : ∀ a ∈ line.dropLast, last a = false) {s : List α}
    (hend : (∃ a ∈ line.getLast?, last a = true) ∨ s = []) :
    splitInclusive last (line ++ s) = line :: splitInclusive last s := by
  induction line with
  | nil => exact absurd rfl hne
  | cons a line ih =>
    cases line with
    | nil =>
      rcases hend with ⟨x, hx, hlast⟩ | hs
      · obtain rfl : a = x := Option.some.inj hx
        exact splitInclusive_end hlast s
      · subst hs
        exact splitInclusive_one
    | cons b line =>
      have ha : last a = false := hin a List.mem_cons_self
      have htail := ih (List.cons_ne_nil b line) (fun x hx => hin x (List.mem_cons_of_mem _ hx))
        (by rwa [List.getLast?_cons_cons] at hend)
      obtain ⟨part, parts, hs, hcons⟩ := splitInclusive_inner (b := b) (s := line ++ s) ha
      show splitInclusive last (a :: b :: (line ++ s)) = _
      rw [hcons]
      have hpart : part :: parts = (b :: line) :: splitInclusive last s := hs.symm.trans htail
      obtain ⟨rfl, rfl⟩ := List.cons.inj hpart
      rfl

/-- The elements of a line that has not ended stay together at the front of the next line. -/
theorem splitInclusive_open {last : α → Bool} {line : List α} (hne : line ≠ [])
    (hin : ∀ a ∈ line, last a = false) (s : List α) :
    ∃ rest parts, splitInclusive last (line ++ s) = (line ++ rest) :: parts := by
  induction line with
  | nil => exact absurd rfl hne
  | cons a line ih =>
    have ha : last a = false := hin a List.mem_cons_self
    cases line with
    | nil =>
      cases s with
      | nil => exact ⟨[], [], splitInclusive_one⟩
      | cons b s =>
        obtain ⟨part, parts, -, hcons⟩ := splitInclusive_inner (b := b) (s := s) ha
        exact ⟨part, parts, hcons⟩
    | cons b line =>
      obtain ⟨rest, parts, htail⟩ :=
        ih (List.cons_ne_nil b line) (fun x hx => hin x (List.mem_cons_of_mem _ hx))
      obtain ⟨part, parts', hs, hcons⟩ := splitInclusive_inner (b := b) (s := line ++ s) ha
      have hpart : part :: parts' = (b :: line ++ rest) :: parts := hs.symm.trans htail
      obtain ⟨rfl, rfl⟩ := List.cons.inj hpart
      exact ⟨rest, parts', hcons⟩

/-- A stream has one list of lines. -/
theorem Lines.eq {last : α → Bool} {s : List α} {lines : List (List α)} (h : Lines last s lines) :
    lines = splitInclusive last s := by
  induction lines generalizing s with
  | nil =>
    obtain rfl : [] = s := h.whole
    rfl
  | cons line lines ih =>
    have hrest : Lines last lines.flatten lines := by
      refine ⟨rfl, fun hn => h.nonempty (List.mem_cons_of_mem _ hn),
        fun l hl => h.inner l (List.mem_cons_of_mem _ hl), ?_⟩
      intro l hl
      cases lines with
      | nil => exact absurd hl List.not_mem_nil
      | cons next lines => exact h.ended l (List.mem_cons_of_mem _ hl)
    have hne : line ≠ [] := fun hn => h.nonempty (hn ▸ List.mem_cons_self)
    have hend : (∃ a ∈ line.getLast?, last a = true) ∨ lines.flatten = [] := by
      cases lines with
      | nil => exact Or.inr rfl
      | cons next lines => exact Or.inl (h.ended line List.mem_cons_self)
    rw [← h.whole, List.flatten_cons,
      splitInclusive_line hne (h.inner line List.mem_cons_self) hend, ← ih hrest]

/-! ## A reader with a bounded buffer -/

namespace LineReader

variable (limit : Nat) (last : α → Bool) (step : σ → List α → Option σ)

/-- One part of a chunk: it has to fit into the space that is left, and the part that ends the
line hands the line over. -/
def readPart (st : List α × σ) (part : List α) : Option (List α × σ) :=
  if limit - st.1.length < part.length then none
  else if part.getLast?.any last then (step st.2 (st.1 ++ part)).map ([], ·)
  else some (st.1 ++ part, st.2)

/-- A chunk, part by part. -/
def readChunk (st : List α × σ) (chunk : List α) : Option (List α × σ) :=
  (splitInclusive last chunk).foldlM (readPart limit last step) st

/-- One element. -/
def push (st : List α × σ) (a : α) : Option (List α × σ) :=
  if limit < st.1.length + 1 then none
  else if last a then (step st.2 (st.1 ++ [a])).map ([], ·)
  else some (st.1 ++ [a], st.2)

/-- At the end of the stream the line that has not ended is handed over. -/
def close (st : List α × σ) : Option σ :=
  if st.1 = [] then some st.2 else step st.2 st.1

/-- Every line is short enough and is accepted. -/
def readLines (s : σ) (lines : List (List α)) : Option σ :=
  lines.foldlM (fun s line => if limit < line.length then none else step s line) s

variable {limit last step}

/-- A part is its elements: the test against the free space fails for the part exactly when it
fails for one of them. -/
theorem readPart_push {part : List α} (hne : part ≠ [])
    (hin : ∀ a ∈ part.dropLast, last a = false) (st : List α × σ) :
    readPart limit last step st part = part.foldlM (push limit last step) st := by
  induction part generalizing st with
  | nil => exact absurd rfl hne
  | cons a part ih =>
    obtain ⟨buffer, s⟩ := st
    cases part with
    | nil =>
      show _ = (push limit last step (buffer, s) a >>= pure)
      rw [bind_pure]
      unfold readPart push
      simp only [List.length_cons, List.length_nil, List.getLast?_singleton, Option.any_some]
      by_cases h : limit < buffer.length + 1
      · rw [if_pos h, if_pos (by omega)]
      · rw [if_neg h, if_neg (by omega)]
        rfl
    | cons b part =>
      have ha : last a = false := hin a List.mem_cons_self
      have htail := ih (List.cons_ne_nil b part) (fun x hx => hin x (List.mem_cons_of_mem _ hx))
      rw [List.foldlM_cons]
      have hpush : push limit last step (buffer, s) a
          = if limit < buffer.length + 1 then none else some (buffer ++ [a], s) := by
        unfold push
        simp only [ha, Bool.false_eq_true, if_false]
      rw [hpush]
      by_cases h : limit < buffer.length + 1
      · rw [if_pos h]
        unfold readPart
        rw [if_pos (by simp only [List.length_cons]; omega)]
        rfl
      · rw [if_neg h]
        show _ = (b :: part).foldlM (push limit last step) (buffer ++ [a], s)
        rw [← htail]
        unfold readPart
        simp only [List.length_cons, List.length_append, List.length_nil,
          List.getLast?_cons_cons, List.append_assoc, List.singleton_append]
        by_cases hfit : limit - buffer.length < part.length + 1 + 1
        · rw [if_pos hfit, if_pos (show limit - (buffer.length + (0 + 1)) < part.length + 1 by omega)]
        · rw [if_neg hfit,
            if_neg (show ¬limit - (buffer.length + (0 + 1)) < part.length + 1 by omega)]

theorem readParts_push {parts : List (List α)} (hne : [] ∉ parts)
    (hin : ∀ part ∈ parts, ∀ a ∈ part.dropLast, last a = false) (st : List α × σ) :
    parts.foldlM (readPart limit last step) st
      = parts.flatten.foldlM (push limit last step) st := by
  induction parts generalizing st with
  | nil => rfl
  | cons part parts ih =>
    rw [List.foldlM_cons, List.flatten_cons, List.foldlM_append,
      readPart_push (fun h => hne (h ▸ List.mem_cons_self)) (hin part List.mem_cons_self)]
    refine bind_congr fun st' => ?_
    exact ih (fun h => hne (List.mem_cons_of_mem _ h))
      (fun l hl => hin l (List.mem_cons_of_mem _ hl)) st'

/-- A chunk is its elements. -/
theorem readChunk_push (st : List α × σ) (chunk : List α) :
    readChunk limit last step st chunk = chunk.foldlM (push limit last step) st := by
  have hl := lines_splitInclusive last chunk
  show (splitInclusive last chunk).foldlM _ st = _
  rw [readParts_push hl.nonempty hl.inner, hl.whole]

/-- However a stream is cut into chunks, the reader goes through its elements. -/
theorem readChunks_flatten (st : List α × σ) (chunks : List (List α)) :
    chunks.foldlM (readChunk limit last step) st
      = chunks.flatten.foldlM (push limit last step) st := by
  induction chunks generalizing st with
  | nil => rfl
  | cons chunk chunks ih =>
    rw [List.foldlM_cons, List.flatten_cons, List.foldlM_append, readChunk_push]
    exact bind_congr fun st' => ih st'

/-! ## What the reader makes of a whole stream -/

/-- From a line that has not ended on, the rest of the stream is read line by line. -/
theorem pushAll_close {buffer : List α} (hopen : ∀ a ∈ buffer, last a = false)
    (hfit : buffer.length ≤ limit) (s : σ) (stream : List α) :
    (stream.foldlM (push limit last step) (buffer, s) >>= close step)
      = readLines limit step s (splitInclusive last (buffer ++ stream)) := by
  induction stream generalizing buffer s with
  | nil =>
    rw [List.append_nil]
    show (if buffer = [] then some s else step s buffer) = _
    by_cases hb : buffer = []
    · subst hb
      rfl
    · have hlines : splitInclusive last (buffer ++ []) = buffer :: splitInclusive last [] :=
        splitInclusive_line hb (fun a ha => hopen a (List.dropLast_subset buffer ha)) (Or.inr rfl)
      rw [List.append_nil] at hlines
      rw [if_neg hb, hlines]
      show _ = ((if limit < buffer.length then none else step s buffer) >>= pure)
      rw [bind_pure, if_neg (by omega)]
  | cons a stream ih =>
    rw [List.foldlM_cons]
    have hne : buffer ++ [a] ≠ [] := fun h => List.cons_ne_nil a [] (List.append_eq_nil_iff.mp h).2
    have hcut : buffer ++ a :: stream = (buffer ++ [a]) ++ stream := by
      rw [List.append_assoc, List.singleton_append]
    rw [hcut]
    by_cases ha : last a = true
    · -- the line ends here
      rw [splitInclusive_line hne (by rwa [List.dropLast_concat])
        (Or.inl ⟨a, List.getLast?_concat, ha⟩)]
      show ((push limit last step (buffer, s) a >>= _) >>= _)
        = ((if limit < (buffer ++ [a]).length then none else step s (buffer ++ [a])) >>= _)
      unfold push
      rw [if_pos ha, List.length_append, List.length_singleton]
      by_cases h : limit < buffer.length + 1
      · rw [if_pos h, if_pos h]
        rfl
      · rw [if_neg h, if_neg h]
        show ((Option.map _ (step s (buffer ++ [a])) >>= _) >>= _) = _
        cases step s (buffer ++ [a]) with
        | none => rfl
        | some s' => exact @ih [] nofun (Nat.zero_le limit) s'
    · have ha : last a = false := Bool.not_eq_true _ ▸ ha
      have hopen' : ∀ x ∈ buffer ++ [a], last x = false := by
        intro x hx
        rcases List.mem_append.mp hx with h | h
        · exact hopen x h
        · exact List.mem_singleton.mp h ▸ ha
      unfold push
      by_cases h : limit < buffer.length + 1
      · -- the line is too long already, whatever ends it
        obtain ⟨rest, parts, hlines⟩ := splitInclusive_open hne hopen' stream
        rw [hlines, if_pos h]
        show _ = ((if limit < (buffer ++ [a] ++ rest).length then none else _) >>= _)
        rw [if_pos (by
          rw [List.length_append, List.length_append, List.length_singleton]
          omega)]
        rfl
      · rw [if_neg h, if_neg (by rw [ha]; exact Bool.false_ne_true)]
        exact ih hopen' (by rw [List.length_append, List.length_singleton]; omega) s

/-- **The answer is a function of the lines of the stream**, however it arrives. -/
theorem readChunks_close (s : σ) (chunks : List (List α)) :
    (chunks.foldlM (readChunk limit last step) ([], s) >>= close step)
      = readLines limit step s (splitInclusive last chunks.flatten) := by
  rw [readChunks_flatten]
  exact pushAll_close nofun (Nat.zero_le limit) s chunks.flatten

/-! ## Lines that are accepted by what came before them -/

theorem readLines_concat (s : σ) (lines : List (List α)) (line : List α) :
    readLines limit step s (lines ++ [line])
      = readLines limit step s lines >>= fun t =>
          if limit < line.length then none else step t line := by
  show (lines ++ [line]).foldlM _ s = _
  rw [List.foldlM_append]
  refine bind_congr fun t => ?_
  rw [List.foldlM_cons]
  exact bind_pure _

/-- An invariant of the lines read so far is one of the whole stream, and where it decides which
line comes next, the stream is accepted exactly when every line is short enough and good after the
lines before it. -/
theorem readLines_iff {I : List (List α) → σ → Prop} {good : List (List α) → List α → Prop}
    (hstep : ∀ before s line s', I before s → step s line = some s' →
      good before line ∧ I (before ++ [line]) s')
    (hgood : ∀ before s line, I before s → good before line → ∃ s', step s line = some s')
    {s : σ} (hs : I [] s) (lines : List (List α)) :
    (∀ t, readLines limit step s lines = some t → I lines t) ∧
      ((∃ t, readLines limit step s lines = some t) ↔
        (∀ line ∈ lines, line.length ≤ limit) ∧
          ∀ before line, before ++ [line] <+: lines → good before line) := by
  -- by the last line: what decides on it is the invariant of the lines before it
  induction lines using List.reverseRecOn with
  | nil =>
    refine ⟨fun t ht => Option.some.inj ht ▸ hs, fun _ => ⟨nofun, ?_⟩, fun _ => ⟨s, rfl⟩⟩
    intro before line h
    exact absurd (List.prefix_nil.mp h) (List.append_ne_nil_of_right_ne_nil before (by simp))
  | append_singleton lines last ih =>
    obtain ⟨hinv, hiff⟩ := ih
    have hread : ∀ t', readLines limit step s (lines ++ [last]) = some t' ↔
        ∃ t, readLines limit step s lines = some t ∧ last.length ≤ limit ∧
          step t last = some t' := by
      intro t'
      rw [readLines_concat]
      cases readLines limit step s lines with
      | none => exact ⟨nofun, fun ⟨t, h, _⟩ => nomatch h⟩
      | some t =>
        show (if limit < last.length then none else step t last) = some t' ↔ _
        by_cases hl : limit < last.length
        · rw [if_pos hl]
          exact ⟨nofun, fun ⟨_, _, hle, _⟩ => by omega⟩
        · rw [if_neg hl]
          constructor
          · intro h
            exact ⟨t, rfl, by omega, h⟩
          · rintro ⟨_, ⟨⟩, -, h⟩
            exact h
    constructor
    · intro t' ht'
      obtain ⟨t, ht, -, hlast⟩ := (hread t').mp ht'
      exact (hstep lines t last t' (hinv t ht) hlast).2
    · constructor
      · rintro ⟨t', ht'⟩
        obtain ⟨t, ht, hle, hlast⟩ := (hread t').mp ht'
        obtain ⟨hfit, hall⟩ := hiff.mp ⟨t, ht⟩
        refine ⟨?_, ?_⟩
        · intro line hl
          rcases List.mem_append.mp hl with h | h
          · exact hfit line h
          · exact List.mem_singleton.mp h ▸ hle
        · intro before line h
          rcases List.prefix_concat_iff.mp h with h | h
          · obtain ⟨rfl, hline⟩ := List.append_inj' h rfl
            obtain rfl := List.singleton_inj.mp hline
            exact (hstep before t line t' (hinv t ht) hlast).1
          · exact hall before line h
      · rintro ⟨hfit, hall⟩
        obtain ⟨t, ht⟩ := hiff.mpr
          ⟨fun line hl => hfit line (List.mem_append_left _ hl),
            fun before line h => hall before line (h.trans (List.prefix_append lines [last]))⟩
        obtain ⟨t', ht'⟩ := hgood lines t last (hinv t ht) (hall lines last (List.prefix_refl _))
        refine ⟨t', (hread t').mpr ⟨t, ht, hfit last ?_, ht'⟩⟩
        exact List.mem_append_right lines List.mem_cons_self

end LineReader

end Eef.Lib
