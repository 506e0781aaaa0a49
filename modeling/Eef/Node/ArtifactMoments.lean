import Eef.Node.ArtifactTransfer

/-!
# An artifact transfer while it runs

`receive_exact` says how a transfer ends. Here it is followed from attempt to attempt (`Starts`) and
from chunk to chunk (`Moment`): whatever comes, what is written fits and is hashed as it is written,
and what is appended to a partial file comes from the range that was asked for. A source that serves
the pinned file, however often it breaks off before the last attempt, is received as a whole.
-/

namespace Eef.Node.ArtifactTransfer

open Eef.Lib hiding bind_ok pure_ok bailIf bailIf_ok context context_ok
open Checked

variable {sha : Bytes → String} {artifact : GgufArtifact} {env : Nat → Attempt} {total n : Nat}
  {t t' : Transfer}

/-! ## Moments -/

/-- The transfer as it is before an attempt, or after the last one. -/
inductive Starts (sha : Bytes → String) (artifact : GgufArtifact) (env : Nat → Attempt) :
    Nat → Transfer → Prop
  | first : Starts sha artifact env 0 .empty
  | next {n : Nat} {t t' : Transfer} (hstart : Starts sha artifact env n t) (hn : n < maxAttempts)
      (hpassed : t.attempt sha artifact (env n) = (t', .ok none)) :
      Starts sha artifact env (n + 1) t'

/-- The transfer at some time: before an attempt, or after the first so many chunks of its
response. -/
inductive Moment (sha : Bytes → String) (artifact : GgufArtifact) (env : Nat → Attempt) :
    Transfer → Prop
  | start {n : Nat} {t : Transfer} (hstart : Starts sha artifact env n t) :
      Moment sha artifact env t
  | read {n status : Nat} {t : Transfer} {headers : HeaderMap} {body : List Item}
      (hstart : Starts sha artifact env n t) (hn : n < maxAttempts)
      (hspace : failure (env n).space = none) (hprogress : failure (env n).progress = none)
      (hsent : (env n).sent = .response status headers body)
      (hheaders : validateHeaders status headers t.count artifact.bytes = .ok ()) (chunks : Nat) :
      Moment sha artifact env
        (t.readBody artifact.bytes ⟨t.count, status, headers⟩ (body.take chunks)).1

/-- Every attempt begins with a part of the file, all of which is hashed. -/
theorem Starts.live (hbytes : 0 < artifact.bytes) (hlt : artifact.bytes < 2 ^ 64)
    (h : Starts sha artifact env n t) : Live artifact.bytes t ∧ t.count < artifact.bytes := by
  induction h with
  | first => exact ⟨⟨Run.empty _, rfl, rfl⟩, hbytes⟩
  | @next n t t' _ _ hpassed ih =>
    have hspec := attempt_spec sha (env n) hbytes hlt ih.1 ih.2
    rw [hpassed] at hspec
    exact hspec.live rfl

/-- One attempt begins in one way. -/
theorem Starts.unique (h : Starts sha artifact env n t) (h' : Starts sha artifact env n t') :
    t = t' := by
  induction h generalizing t' with
  | first =>
    cases h'
    rfl
  | next _ _ hpassed ih =>
    cases h' with
    | next hstart _ hpassed' =>
      rw [ih hstart, hpassed'] at hpassed
      exact (congrArg Prod.fst hpassed).symm

/-- What an attempt reads is a part of the response it asked for. -/
theorem Live.reading (h : Live total t) (status : Nat) (headers : HeaderMap) :
    Reading ⟨t.count, status, headers⟩ t.pieces := by
  refine ⟨t.pieces, [], (List.append_nil _).symm, ?_, fun q hq => absurd hq List.not_mem_nil⟩
  rw [h.run.pieces, h.count]

theorem Moment.run (hbytes : 0 < artifact.bytes) (hlt : artifact.bytes < 2 ^ 64)
    (h : Moment sha artifact env t) : Run artifact.bytes t := by
  cases h with
  | start hstart => exact (hstart.live hbytes hlt).1.run
  | @read n status t headers body hstart hn hspace hprogress hsent hheaders chunks =>
    obtain ⟨hlive, hcount⟩ := hstart.live hbytes hlt
    have hexact := (validateHeaders_ok hbytes hlt hcount.le).mp hheaders
    exact (readBody_spec hlt hlive hexact (hlive.reading status headers) _).run

/-! ## The running hash -/

/-- Every chunk that comes is written: the disk has room, and the budget does not run out. -/
def Attempt.Writes (a : Attempt) : Prop :=
  ∀ status headers body, a.sent = .response status headers body →
    ∀ bytes space write progress, Item.chunk bytes space write progress ∈ body → write = .done

theorem readBody_live {r : Response} (hexact : Exact r.status r.headers r.start total)
    {items : List Item} (hwrites : ∀ bytes space write progress,
      Item.chunk bytes space write progress ∈ items → write = .done)
    (h : Live total t) (hreading : Reading r t.pieces) :
    Live total (t.readBody total r items).1 := by
  induction items generalizing t with
  | nil => exact h
  | cons item rest ih =>
    have hrest := fun bytes space write progress hmem =>
      hwrites bytes space write progress (List.mem_cons_of_mem item hmem)
    cases item with
    | broken => exact h
    | elapsed => exact h
    | chunk bytes space write progress =>
      obtain rfl := hwrites _ _ _ _ (List.mem_cons_self ..)
      have hcount : t.count ≤ total := h.count ▸ h.run.bound
      rcases chunk_cases (r := r) hcount bytes space .done progress with
        ⟨hfit, -, -, hchunk⟩ | ⟨part, e, hpart, -⟩ | ⟨e, -, hchunk⟩
      · have htook := h.took hexact hreading hfit
        cases hprogress : failure progress with
        | some e =>
          rw [hprogress] at hchunk
          rw [readBody_error hchunk]
          exact htook
        | none =>
          rw [hprogress] at hchunk
          rw [readBody_chunk hchunk]
          exact ih hrest htook (Reading.put hreading)
      · exact absurd rfl hpart
      · rw [readBody_error hchunk]
        exact h

/-- While every chunk is written, all that is in the file is hashed. -/
theorem Moment.live (hbytes : 0 < artifact.bytes) (hlt : artifact.bytes < 2 ^ 64)
    (hwrites : ∀ n, (env n).Writes) (h : Moment sha artifact env t) : Live artifact.bytes t := by
  cases h with
  | start hstart => exact (hstart.live hbytes hlt).1
  | @read n status t headers body hstart hn hspace hprogress hsent hheaders chunks =>
    obtain ⟨hlive, hcount⟩ := hstart.live hbytes hlt
    have hexact := (validateHeaders_ok hbytes hlt hcount.le).mp hheaders
    refine readBody_live hexact ?_ hlive (hlive.reading status headers)
    intro bytes space write progress hmem
    exact hwrites n _ _ _ hsent _ _ _ _ (List.mem_of_mem_take hmem)

/-! ## The end -/

/-- An attempt ends where it began, or where it has read its response. -/
theorem attempt_moment (hstart : Starts sha artifact env n t) (hn : n < maxAttempts) :
    Moment sha artifact env (t.attempt sha artifact (env n)).1 := by
  unfold Transfer.attempt
  split
  · exact .start hstart
  cases hspace : failure (env n).space with
  | some e => exact .start hstart
  | none =>
    cases hprogress : failure (env n).progress with
    | some e => exact .start hstart
    | none =>
      cases hsent : (env n).sent with
      | failed =>
        have hpause : (t.pause (env n).slept).1 = t := by
          unfold Transfer.pause
          split <;> rfl
        show Moment sha artifact env (t.pause (env n).slept).1
        rw [hpause]
        exact .start hstart
      | elapsed => exact .start hstart
      | response status headers body =>
        cases hheaders : validateHeaders status headers t.count artifact.bytes with
        | error e =>
          simp only [hheaders]
          exact .start hstart
        | ok u =>
          have hread := Moment.read hstart hn hspace hprogress hsent hheaders body.length
          rw [List.take_length] at hread
          simp only [hheaders]
          cases hout : t.readBody artifact.bytes ⟨t.count, status, headers⟩ body with
          | mk t' fault =>
            rw [hout] at hread
            cases fault with
            | some e => exact hread
            | none =>
              have hsettle : (t'.settle sha artifact (env n).slept).1 = t' := by
                unfold Transfer.settle Transfer.pause
                split_ifs <;> rfl
              show Moment sha artifact env (t'.settle sha artifact (env n).slept).1
              rw [hsettle]
              exact hread

theorem attempts_moment {left : Nat} (hleft : n + left = maxAttempts)
    (hstart : Starts sha artifact env n t) :
    Moment sha artifact env (t.attempts sha artifact env left n).1 := by
  induction left generalizing n t with
  | zero => exact .start hstart
  | succ left ih =>
    have hn : n < maxAttempts := by omega
    have hmoment := attempt_moment hstart hn
    cases hout : t.attempt sha artifact (env n) with
    | mk t' result =>
      rw [hout] at hmoment
      cases result with
      | error e =>
        rw [attempts_error hout]
        exact hmoment
      | ok result =>
        cases result with
        | some digest =>
          rw [attempts_done hout]
          exact hmoment
        | none =>
          rw [attempts_next hout]
          exact ih (by omega) (.next hstart hn hout)

/-! ## A source that serves the file -/

/-- An attempt at a source of a file. Nothing fails but the connection: the request fails, or what
comes of the response is the file from the count on, as far as it comes. -/
structure Serves (data : Bytes) (count : Nat) (a : Attempt) : Prop where
  space : failure a.space = none
  progress : failure a.progress = none
  slept : a.slept = true
  sent : a.sent = .failed ∨ ∃ given, Gives data.length count a given ∧ given <+: data.drop count

theorem Reads.unique {count : Nat} {items : List Item} {data data' : Bytes}
    (h : Reads total count items data) (h' : Reads total count items data') : data = data' := by
  induction h generalizing data' with
  | ended =>
    cases h'
    rfl
  | broken =>
    cases h'
    rfl
  | chunk _ _ _ _ ih =>
    cases h' with
    | chunk _ _ _ hrest => rw [ih hrest]

/-- What an attempt gives is determined. -/
theorem Gives.unique {count : Nat} {a : Attempt} {data data' : Bytes}
    (h : Gives total count a data) (h' : Gives total count a data') : data = data' := by
  obtain ⟨body, ⟨-, -, status, headers, hsent, -⟩, hreads⟩ := h
  obtain ⟨body', ⟨-, -, status', headers', hsent', -⟩, hreads'⟩ := h'
  rw [hsent] at hsent'
  cases hsent'
  exact hreads.unique hreads'

/-- A partial file grows by what comes of the rest. -/
theorem drop_grows {file given data : Bytes} (hfile : file <+: data)
    (hgiven : given <+: data.drop file.length) :
    file ++ given <+: data ∧
      data.drop file.length = given ++ data.drop (file ++ given).length := by
  obtain ⟨rest, rfl⟩ := hfile
  rw [List.drop_left] at hgiven ⊢
  obtain ⟨last, rfl⟩ := hgiven
  rw [← List.append_assoc, List.drop_left]
  exact ⟨⟨last, rfl⟩, rfl⟩

/-- The attempts that are left deliver the rest of a served file, if one of them does not break. -/
theorem delivers_served {data : Bytes} (hpos : 0 < data.length) (hlt : data.length < 2 ^ 64)
    (hbytes : artifact.bytes = data.length) {left : Nat} (hleft : n + left = maxAttempts)
    (hstart : Starts sha artifact env n t) (hfile : t.file <+: data)
    (hserves : ∀ m u, m < maxAttempts → Starts sha artifact env m u → Serves data u.count (env m))
    (hends : ∃ m, n ≤ m ∧ m < maxAttempts ∧ ∀ u, Starts sha artifact env m u →
      Gives data.length u.count (env m) (data.drop u.count)) :
    Delivers data.length env left n t.count (data.drop t.count) := by
  induction left generalizing n t with
  | zero =>
    obtain ⟨m, hle, hm, -⟩ := hends
    omega
  | succ left ih =>
    have hn : n < maxAttempts := by omega
    obtain ⟨hlive, hcount⟩ := hstart.live (hbytes ▸ hpos) (hbytes ▸ hlt)
    rw [hbytes] at hcount
    have hspec := attempt_spec sha (env n) (hbytes ▸ hpos) (hbytes ▸ hlt) hlive (hbytes ▸ hcount)
    -- an attempt that passes leaves the rest to the next ones
    have hpass : ∀ given, Passes data.length t.count (env n) given →
        given <+: data.drop t.count → ¬Gives data.length t.count (env n) (data.drop t.count) →
        Delivers data.length env (left + 1) n t.count (data.drop t.count) := by
      intro given hpasses hgiven hbreaks
      obtain ⟨hgoes, hgrown⟩ := hspec.next given (hbytes ▸ hpasses)
      have hnext : Starts sha artifact env (n + 1) (t.attempt sha artifact (env n)).1 :=
        .next hstart hn (Prod.ext rfl hgoes)
      have hlater := (hnext.live (hbytes ▸ hpos) (hbytes ▸ hlt)).1
      rw [hlive.count] at hgiven ⊢
      obtain ⟨hfront, hrest⟩ := drop_grows hfile hgiven
      have hcount' : (t.attempt sha artifact (env n)).1.count = (t.file ++ given).length := by
        rw [hlater.count, hgrown]
      obtain ⟨m, hle, hm, hgives⟩ := hends
      have hne : n ≠ m := by
        rintro rfl
        exact hbreaks (hgives t hstart)
      have htail := ih (by omega) hnext (hgrown ▸ hfront) ⟨m, by omega, hm, hgives⟩
      rw [hcount', List.length_append] at htail
      rw [hrest, List.length_append]
      exact .pass (hlive.count ▸ hpasses) htail
    have hserved := hserves n t hn hstart
    rcases hserved.sent with hfailed | ⟨given, hgives, hgiven⟩
    · refine hpass [] (.refused hserved.space hserved.progress hfailed hserved.slept)
        List.nil_prefix ?_
      intro hwhole
      obtain ⟨body, ⟨-, -, status, headers, hsent, -⟩, -⟩ := hwhole
      rw [hfailed] at hsent
      cases hsent
    · have hlength := hgiven.length_le
      rw [List.length_drop] at hlength
      by_cases hwhole : t.count + given.length = data.length
      · have hall : given = data.drop t.count :=
          hgiven.eq_of_length (by rw [List.length_drop]; omega)
        exact .whole (hall ▸ hgives) (hall ▸ hwhole)
      · refine hpass given (.short hgives (by omega) hserved.slept) hgiven fun hall => hwhole ?_
        rw [hgives.unique hall, List.length_drop]
        omega

/-- The range of a response is from an offset to the last byte. -/
def Ranges (headers : HeaderMap) (offset total : Nat) : Prop :=
  ∃ start stop size : Bytes, headers.lookup "content-range"
      = some (bytesUnit ++ (start ++ 45 :: stop) ++ 47 :: size) ∧
    Digits start offset ∧ Digits stop (total - 1) ∧ Digits size total

/-- **An admitted artifact is received as it is pinned, or not at all.** Whatever the attempts come
to, a transfer succeeds only with the pinned bytes. At every moment what is written fits, is hashed
as far as it was written as a whole, and what follows the bytes of earlier attempts came unencoded
under the range that was asked for; an attempt is only made where bytes are missing, so nothing
underflows. A source that serves the file is received, if one of the attempts does not break. -/
theorem artifact_received {parse : String → Option Url} {artifact a : GgufArtifact}
    (hadmitted : GgufArtifact.fromCatalog parse artifact.entry = .ok a) (sha : Bytes → String)
    (env : Nat → Attempt) :
    (∀ digest, (receive parse sha artifact env).2 = .ok digest →
      (receive parse sha artifact env).1.file.length = artifact.bytes ∧
      sha (receive parse sha artifact env).1.file = asciiLower artifact.sha256 ∧
      digest = asciiLower artifact.sha256) ∧
    Moment sha a env (receive parse sha artifact env).1 ∧
    (∀ t, Moment sha a env t → t.file.length ≤ artifact.bytes ∧
      ((∀ n, (env n).Writes) → t.hashed = t.file ∧ t.count = t.file.length) ∧
      bytesOf t.pieces = t.file ∧
      ∀ front q back, t.pieces = front ++ q :: back → Reading q.response front ∧
        (0 < q.response.start → q.response.status = 206 ∧
          (∀ v ∈ q.response.headers.lookup "content-encoding", v = identity) ∧
          Ranges q.response.headers q.response.start artifact.bytes)) ∧
    (∀ n t, Starts sha a env n t → t.count < artifact.bytes) ∧
    (receive parse sha artifact env).2 ≠ .error .panic ∧
    ∀ data, data.length = artifact.bytes → sha data = asciiLower artifact.sha256 →
      (∀ n t, n < maxAttempts → Starts sha a env n t → Serves data t.count (env n)) →
      (∃ n < maxAttempts, ∀ t, Starts sha a env n t →
        Gives data.length t.count (env n) (data.drop t.count)) →
      (receive parse sha artifact env).2 = .ok (asciiLower artifact.sha256) ∧
      (receive parse sha artifact env).1.file = data := by
  obtain ⟨hbytes, hsha, hpos, hlt⟩ := fromCatalog_entry hadmitted
  have hpos' : 0 < a.bytes := hbytes ▸ hpos
  have hlt' : a.bytes < 2 ^ 64 := hbytes ▸ hlt
  have hreceive : receive parse sha artifact env = Transfer.empty.attempts sha a env maxAttempts 0 := by
    rw [receive, hadmitted]
  have hlive : Live a.bytes .empty := ⟨Run.empty _, rfl, rfl⟩
  obtain ⟨-, hsafe, hdeliver, hend⟩ := attempts_spec sha env hpos' hlt' maxAttempts 0 hlive hpos'
  have hwritten : ∀ data, Delivers a.bytes env maxAttempts 0 0 data → sha data = asciiLower a.sha256 →
      (receive parse sha artifact env).2 = .ok (asciiLower a.sha256) ∧
      (receive parse sha artifact env).1.file = data := by
    intro data hdata hdigest
    rw [hreceive]
    exact hdeliver data hdata hdigest
  rw [← hbytes, ← hsha]
  refine ⟨fun digest hdone => ?_, ?_, fun t ht => ?_, fun n t ht => (ht.live hpos' hlt').2, ?_, ?_⟩
  · rw [hreceive] at hdone
    obtain ⟨data, hdata, hdigest, rfl⟩ := hend digest hdone
    rw [(hwritten data hdata hdigest).2]
    exact ⟨(Nat.zero_add _).symm.trans hdata.length, hdigest, rfl⟩
  · rw [hreceive]
    exact attempts_moment (Nat.zero_add _) .first
  · have hrun := ht.run hpos' hlt'
    refine ⟨hrun.bound, fun hwrites => ?_, hrun.pieces, fun front q back hsplit => ?_⟩
    · have hlive := ht.live hpos' hlt' hwrites
      exact ⟨hlive.hashed, hlive.count⟩
    refine ⟨hrun.placed front q back hsplit, fun hstart => ?_⟩
    have hexact := hrun.exact q (hsplit ▸ List.mem_append_right _ (List.mem_cons_self ..))
    rcases hexact.range with ⟨hzero, -⟩ | ⟨hstatus, start, stop, size, hheader, -, hdigits⟩
    · omega
    · exact ⟨hstatus, hexact.plain, start, stop, size, hheader, hdigits⟩
  · rw [hreceive]
    exact hsafe
  · intro data hlength hdigest hserves hends
    obtain ⟨m, hm, hgives⟩ := hends
    refine hwritten data ?_ hdigest
    rw [← hlength]
    exact delivers_served (hlength ▸ hpos') (hlength ▸ hlt') hlength.symm (Nat.zero_add _) .first
      List.nil_prefix hserves ⟨m, Nat.zero_le m, hm, hgives⟩

/-! A model of three bytes: the first response breaks off after two of them, and the next attempt asks
for the last one. -/

def sampleUrl : Url :=
  ⟨"https", some "models.example", "", none, none, "https://models.example/tiny.gguf"⟩

def sampleArtifact : GgufArtifact :=
  ⟨1, sampleUrl.text, "66a6757151f8ee55db127716c7e3dce0be8074b64e20eda542e5c1e46ca9c41e", 3⟩

def sampleParse (text : String) : Option Url := if text = sampleUrl.text then some sampleUrl else none

def sampleSha (bytes : Bytes) : String := if bytes = [7, 8, 9] then sampleArtifact.sha256 else ""

/-- After the first attempt. -/
def sampleRest : Transfer := ⟨[7, 8], [7, 8], 2, [⟨⟨0, 200, []⟩, [7, 8]⟩]⟩

theorem sample_starts (h : Starts sampleSha sampleArtifact sampleAttempts n t) :
    (n = 0 ∧ t = .empty) ∨ (n = 1 ∧ t = sampleRest) := by
  induction h with
  | first => exact .inl ⟨rfl, rfl⟩
  | @next n t t' _ _ hpassed ih =>
    rcases ih with ⟨rfl, rfl⟩ | ⟨rfl, rfl⟩
    · exact .inr ⟨rfl, (congrArg Prod.fst hpassed).symm⟩
    · cases hpassed

theorem sample_served (h : Starts sampleSha sampleArtifact sampleAttempts n t) :
    Serves [7, 8, 9] t.count (sampleAttempts n) ∧
      (n = 1 → Gives 3 t.count (sampleAttempts n) ([7, 8, 9].drop t.count)) := by
  rcases sample_starts h with ⟨rfl, rfl⟩ | ⟨rfl, rfl⟩
  · have hexact : Exact 200 [] 0 3 := (validateHeaders_ok (by decide) (by decide) (by decide)).mp rfl
    refine ⟨⟨rfl, rfl, rfl, .inr ⟨[7, 8], ⟨_, ⟨rfl, rfl, _, _, rfl, hexact⟩, ?_⟩, by decide⟩⟩, ?_⟩
    · exact .chunk (by decide) rfl rfl (.broken _ _)
    · intro h
      cases h
  · have hexact : Exact 206 [("content-range", bytesUnit ++ [50, 45, 50, 47, 51]),
        ("content-length", [49])] 2 3 :=
      (validateHeaders_ok (by decide) (by decide) (by decide)).mp rfl
    have hgives : Gives 3 sampleRest.count (sampleAttempts 1) [9] :=
      ⟨_, ⟨rfl, rfl, _, _, rfl, hexact⟩, .chunk (by decide) rfl rfl (.ended _)⟩
    exact ⟨⟨rfl, rfl, rfl, .inr ⟨[9], hgives, by decide⟩⟩, fun _ => hgives⟩

theorem artifact_received_resumed :
    (receive sampleParse sampleSha sampleArtifact sampleAttempts).2 = .ok sampleArtifact.sha256 ∧
    (receive sampleParse sampleSha sampleArtifact sampleAttempts).1.file = [7, 8, 9] := by
  have hadmitted : GgufArtifact.fromCatalog sampleParse sampleArtifact.entry = .ok sampleArtifact := by
    decide +kernel
  obtain ⟨-, -, -, -, -, hserved⟩ := artifact_received hadmitted sampleSha sampleAttempts
  exact hserved [7, 8, 9] rfl (by decide +kernel) (fun n t _ h => (sample_served h).1)
    ⟨1, by decide, fun t h => (sample_served h).2 rfl⟩

end Eef.Node.ArtifactTransfer
