import Eef.Lib.Run
import Eef.Node.Handshake

/-!
# An authentication message is not taken twice

`verify_auth_with` (`server.rs`) accepts a message whose timestamp is within five minutes of the
local clock on either side, and keeps the pair of identity and nonce for ten minutes after it was
accepted. A message may carry a timestamp up to five minutes ahead, so ten minutes later it is
accepted still, while its receipt is kept for less than ten minutes: `elapsed() <` leaves the last
instant of the interval open.

An instant is in nanoseconds, and the wall clock is the same line read in milliseconds. A call reads
it for the timestamp, once more for the age of each receipt when it has the lock on the cache, and
for its own receipt; in between it verifies a signature and waits for the lock (`Call`). So a message
comes close to the far end of the skew not only by its timestamp, but also by the time that a later
call may take until it has the cache (`Prompt`, `Timely`). `verifyAuth_millis` is the connection with
the handshake, whose clocks are read in milliseconds. `Inv` says what is left of every message that
was accepted: a receipt that outlasts it, or a timestamp out of reach.
-/

namespace Eef.Node.AuthReplay

open Eef.Lib Handshake

/-- A call: its message, and the instants at which it reads a clock. The wall clock is read first;
under the lock `elapsed` reads it for every receipt, and last it is read for the new receipt. -/
structure Call (Key : Type) where
  crypto : Key
  auth : Json
  wall : Nat
  pruned : String × String → Nat
  inserted : Nat
  wall_le : ∀ receipt, wall ≤ pruned receipt
  pruned_le : ∀ receipt, pruned receipt ≤ inserted

/-- A call that reads the same instant every time. -/
def Call.at {Key : Type} (now : Nat) (crypto : Key) (auth : Json) : Call Key :=
  ⟨crypto, auth, now, fun _ => now, now, fun _ => Nat.le_refl now, fun _ => Nat.le_refl now⟩

/-- What a handshake reads of the clock. -/
def Call.clock {Key : Type} (c : Call Key) : Clock := ⟨c.wall, c.pruned, c.inserted⟩

variable {Key : Type} [NodeCrypto Key]

/-- `verify_auth_with`, for the message of a call. -/
def verifyAuth (c : Call Key) (receipts : Receipts) : Receipts × Result String :=
  verifyAuthWith c.clock c.crypto c.auth receipts

/-! ## What the cache is asked about -/

/-- The receipt of a message. -/
def receiptOf (auth : Json) : Option (String × String) := do
  let nodeId ← (auth.get? "node_id").bind Json.asStr
  let nonce ← (auth.get? "nonce").bind Json.asStr
  return (nodeId, nonce)

/-- The timestamp of a message. -/
def stampOf (auth : Json) : Option Int :=
  ((auth.get? "timestamp").bind Json.asStr).bind parseI64

/-- A message that comes to the cache has its receipt and a timestamp within the skew. -/
theorem claim_ok {clock : Clock} {crypto : Key} {auth : Json} {receipt : String × String}
    (h : verifyClaim clock crypto auth = .ok receipt) :
    receiptOf auth = some receipt ∧ ∃ stamp, stampOf auth = some stamp ∧
      ((localMs clock.wall : Int) - stamp).natAbs ≤ authClockSkewMs := by
  simp only [verifyClaim, bind_ok, ensure_ok, bailIf_ok, context_ok, pure_ok] at h
  obtain ⟨_, -, _, -, nodeId, hid, _, -, version, -, nonce, hnonce, timestamp, htime, _, -, _, -,
    stamp, hstamp, _, hskew, _, -, rfl⟩ := h
  refine ⟨?_, stamp, ?_, by omega⟩
  · unfold receiptOf
    rw [hid, hnonce]
    rfl
  · unfold stampOf
    rw [htime]
    exact hstamp

/-! ## Sequences of calls -/

/-- The cache, the last instant read under its lock, and every call with its answer, in the order in
which they had the lock. -/
structure State (Key : Type) where
  receipts : Receipts
  now : Nat
  log : List (Call Key × Result String)

omit [NodeCrypto Key] in
variable (Key) in
/-- `NodeServer::new`. -/
def State.new : State Key := ⟨[], 0, []⟩

/-- What a call leaves. -/
def State.after (s : State Key) (c : Call Key) : State Key :=
  let (receipts, answer) := verifyAuth c s.receipts
  ⟨receipts, c.inserted, s.log ++ [(c, answer)]⟩

omit [NodeCrypto Key] in
/-- A call has the lock after the calls before it. It may have read the wall clock before they had
it, and a call that does not come to the lock can stand anywhere. -/
def State.Follows (s : State Key) (c : Call Key) : Prop := ∀ receipt, s.now ≤ c.pruned receipt

/-- A call after those before it. -/
def Step (s t : State Key) : Prop := ∃ c : Call Key, s.Follows c ∧ t = s.after c

/-- From the wall clock to the receipts a call takes no longer than `δ` milliseconds. -/
def Prompt (δ : Nat) (c : Call Key) : Prop := ∀ receipt, c.pruned receipt ≤ c.wall + δ * 10 ^ 6

/-- The message of a call is not within `δ` milliseconds of as far ahead as a message may be. -/
def Timely (δ : Nat) (c : Call Key) : Prop :=
  ∀ stamp, stampOf c.auth = some stamp → stamp + δ < (localMs c.wall : Int) + authClockSkewMs

/-- The call of this entry was accepted. -/
def Accepted (e : Call Key × Result String) : Prop := ∃ nodeId, e.2 = .ok nodeId

/-- From this instant on, a call that comes to the receipts within `δ` milliseconds does not accept
the timestamp of the message. -/
def Past (δ now : Nat) (auth : Json) : Prop :=
  ∀ stamp, stampOf auth = some stamp → stamp + authClockSkewMs + δ < localMs now

/-- The receipt is kept until the message is past. -/
def Outlasts (δ : Nat) (seen : (String × String) × Nat) (auth : Json) : Prop :=
  receiptOf auth = some seen.1 ∧
    ∀ stamp, stampOf auth = some stamp → stamp + δ < localMs seen.2 + authClockSkewMs

/-- What holds after any calls that were timely. -/
structure Inv (δ : Nat) (s : State Key) : Prop where
  bound : s.receipts.length ≤ maxAuthNonces
  nodup : (s.receipts.map Prod.fst).Nodup
  kept : ∀ e ∈ s.log, Accepted e →
    (∃ seen ∈ s.receipts, Outlasts δ seen e.1.auth) ∨ Past δ s.now e.1.auth
  once : s.log.Pairwise fun a b => Accepted a → Accepted b → a.1.auth ≠ b.1.auth

variable {δ : Nat}

theorem localMs_mono {a b : Nat} (h : a ≤ b) : localMs a ≤ localMs b := Nat.div_le_div_right h

/-- A delay in milliseconds is that delay on the wall clock. -/
theorem localMs_delay {wall now : Nat} (h : now ≤ wall + δ * 10 ^ 6) :
    localMs now ≤ localMs wall + δ := by
  unfold localMs
  omega

theorem Past.mono {now later : Nat} {auth : Json} (h : Past δ now auth) (hle : now ≤ later) :
    Past δ later auth := by
  intro stamp hs
  have hlt := h stamp hs
  have hms := localMs_mono hle
  omega

/-- A receipt that is dropped belongs to messages that are past. -/
theorem Outlasts.past {seen : (String × String) × Nat} {auth : Json} (h : Outlasts δ seen auth)
    {now : Nat} (hold : ¬now - seen.2 < 10 * 60 * 10 ^ 9) : Past δ now auth := by
  intro stamp hs
  have hlt := h.2 stamp hs
  have hms : localMs seen.2 + 2 * authClockSkewMs ≤ localMs now := by
    unfold localMs authClockSkewMs
    omega
  omega

omit [NodeCrypto Key] in
/-- What a message accepted before is at a later call: still on record, or past when the call has
the lock. -/
theorem Inv.onRecord {s : State Key} (h : Inv δ s) {c : Call Key} (hfollows : s.Follows c)
    {e : Call Key × Result String} (he : e ∈ s.log) (ha : Accepted e) :
    (∃ seen ∈ retained c.pruned s.receipts, Outlasts δ seen e.1.auth) ∨
      ∃ receipt, Past δ (c.pruned receipt) e.1.auth := by
  rcases h.kept e he ha with ⟨seen, hseen, hout⟩ | hpast
  · by_cases hnew : c.pruned seen.1 - seen.2 < 10 * 60 * 10 ^ 9
    · exact Or.inl ⟨seen, List.mem_filter.mpr ⟨hseen, decide_eq_true hnew⟩, hout⟩
    · exact Or.inr ⟨seen.1, hout.past hnew⟩
  · exact Or.inr ⟨("", ""), hpast.mono (hfollows _)⟩

/-- How a call goes: the cache is as it was; it has lost the receipts that are too old; or the
message is new and accepted. -/
theorem verifyAuth_cases (c : Call Key) (receipts : Receipts) :
    (∃ e, verifyAuth c receipts = (receipts, .error e)) ∨
    (∃ e, verifyAuth c receipts = (retained c.pruned receipts, .error e)) ∨
    ∃ receipt, verifyAuth c receipts
        = ((receipt, c.inserted) :: retained c.pruned receipts, .ok receipt.1) ∧
      verifyClaim c.clock c.crypto c.auth = .ok receipt ∧
      receipt ∉ (retained c.pruned receipts).map Prod.fst ∧
      (retained c.pruned receipts).length < maxAuthNonces := by
  unfold verifyAuth verifyAuthWith
  cases verifyClaim c.clock c.crypto c.auth with
  | error e => exact Or.inl ⟨e, rfl⟩
  | ok receipt =>
    refine Or.inr ?_
    show (∃ e, (if receipt ∈ (retained c.pruned receipts).map Prod.fst then _ else _) = _) ∨ _
    by_cases hseen : receipt ∈ (retained c.pruned receipts).map Prod.fst
    · exact Or.inl ⟨_, if_pos hseen⟩
    · by_cases hfull : maxAuthNonces ≤ (retained c.pruned receipts).length
      · exact Or.inl ⟨_, (if_neg hseen).trans (if_pos hfull)⟩
      · exact Or.inr ⟨receipt, (if_neg hseen).trans (if_neg hfull), rfl, hseen, by omega⟩

theorem retained_sublist (pruned : String × String → Nat) (receipts : Receipts) :
    (retained pruned receipts).Sublist receipts := List.filter_sublist

/-- A message that a prompt call accepts is not one that was accepted before. -/
theorem Inv.fresh {s : State Key} (h : Inv δ s) {c : Call Key} (hfollows : s.Follows c)
    (hprompt : Prompt δ c) {receipt : String × String}
    (hclaim : verifyClaim c.clock c.crypto c.auth = .ok receipt)
    (hnew : receipt ∉ (retained c.pruned s.receipts).map Prod.fst) :
    ∀ e ∈ s.log, Accepted e → e.1.auth ≠ c.auth := by
  intro e he ha heq
  obtain ⟨hreceipt, stamp, hstamp, hskew⟩ := claim_ok hclaim
  rcases h.onRecord hfollows he ha with ⟨seen, hseen, hout, -⟩ | ⟨other, hpast⟩
  · rw [heq, hreceipt] at hout
    rw [Option.some.inj hout] at hnew
    exact hnew (List.mem_map_of_mem hseen)
  · -- the timestamp was tested at most `δ` milliseconds before the receipt was dropped
    have hlt := hpast stamp (heq ▸ hstamp)
    have hdelay := localMs_delay (hprompt other)
    have hms : localMs c.clock.wall = localMs c.wall := rfl
    omega

omit [NodeCrypto Key] in
theorem not_accepted_error (c : Call Key) (error : String) :
    ¬Accepted (c, (.error error : Result String)) := by
  rintro ⟨nodeId, h⟩
  cases h

omit [NodeCrypto Key] in
/-- What was accepted before a call, after it. -/
theorem Inv.still {s : State Key} (h : Inv δ s) {c : Call Key} (hfollows : s.Follows c)
    {e : Call Key × Result String} (he : e ∈ s.log) (ha : Accepted e) :
    (∃ seen ∈ retained c.pruned s.receipts, Outlasts δ seen e.1.auth) ∨
      Past δ c.inserted e.1.auth := by
  refine (h.onRecord hfollows he ha).imp id fun hpast => ?_
  obtain ⟨receipt, hpast⟩ := hpast
  exact hpast.mono (c.pruned_le receipt)

omit [NodeCrypto Key] in
/-- A refused call leaves everything as it was, or drops receipts. -/
theorem Inv.refuse {s : State Key} (h : Inv δ s) {c : Call Key} (hfollows : s.Follows c)
    {receipts : Receipts} (error : String)
    (hreceipts : receipts = s.receipts ∨ receipts = retained c.pruned s.receipts) :
    Inv δ (⟨receipts, c.inserted, s.log ++ [(c, .error error)]⟩ : State Key) := by
  have hsub : receipts.Sublist s.receipts := by
    rcases hreceipts with rfl | rfl
    · exact List.Sublist.refl _
    · exact retained_sublist _ _
  have hlast := not_accepted_error c error
  refine ⟨hsub.length_le.trans h.bound, (hsub.map Prod.fst).nodup h.nodup, ?_, ?_⟩
  · intro e he ha
    rcases List.mem_append.mp he with hold | hnew
    · rcases hreceipts with rfl | rfl
      · refine (h.kept e hold ha).imp id fun hpast => hpast.mono ?_
        exact (hfollows ("", "")).trans (c.pruned_le _)
      · exact h.still hfollows hold ha
    · exact absurd (List.mem_singleton.mp hnew ▸ ha) hlast
  · rw [List.pairwise_append]
    refine ⟨h.once, List.pairwise_singleton _ _, fun a _ b hb _ hacc => ?_⟩
    exact absurd (List.mem_singleton.mp hb ▸ hacc) hlast

/-- One prompt and timely call. -/
theorem Inv.after {s : State Key} (h : Inv δ s) {c : Call Key} (hfollows : s.Follows c)
    (hprompt : Prompt δ c) (ht : Timely δ c) : Inv δ (s.after c) := by
  unfold State.after
  rcases verifyAuth_cases c s.receipts with
    ⟨error, hv⟩ | ⟨error, hv⟩ | ⟨receipt, hv, hclaim, hnew, hroom⟩
  · -- refused before the cache is looked at
    rw [hv]
    exact h.refuse hfollows error (.inl rfl)
  · -- refused by the cache
    rw [hv]
    exact h.refuse hfollows error (.inr rfl)
  · rw [hv]
    obtain ⟨hreceipt, stamp, hstamp, hskew⟩ := claim_ok hclaim
    have hsub := (retained_sublist c.pruned s.receipts).map Prod.fst
    refine ⟨hroom, List.nodup_cons.mpr ⟨hnew, hsub.nodup h.nodup⟩, ?_, ?_⟩
    · intro e he ha
      rcases List.mem_append.mp he with he | he
      · rcases h.still hfollows he ha with ⟨seen, hseen, hout⟩ | hpast
        · exact Or.inl ⟨seen, List.mem_cons_of_mem _ hseen, hout⟩
        · exact Or.inr hpast
      · -- the new receipt outlasts the message, which is not near the far end of the skew
        obtain rfl := List.mem_singleton.mp he
        refine Or.inl ⟨_, List.mem_cons_self, hreceipt, fun other hother => ?_⟩
        have hlt := ht other hother
        have hms := localMs_mono ((c.wall_le receipt).trans (c.pruned_le receipt))
        show other + δ < (localMs c.inserted : Int) + authClockSkewMs
        omega
    · rw [List.pairwise_append]
      refine ⟨h.once, List.pairwise_singleton _ _, fun a ha b hb hacc _ => ?_⟩
      obtain rfl := List.mem_singleton.mp hb
      exact h.fresh hfollows hprompt hclaim hnew a ha hacc

/-- A prompt and timely call after those before it. -/
def TimelyStep (δ : Nat) (s t : State Key) : Prop :=
  ∃ c : Call Key, s.Follows c ∧ Prompt δ c ∧ Timely δ c ∧ t = s.after c

omit [NodeCrypto Key] in
theorem Inv.new : Inv δ (State.new Key) :=
  ⟨Nat.zero_le _, List.nodup_nil, fun _ he => absurd he List.not_mem_nil, List.Pairwise.nil⟩

theorem Inv.run {s : State Key} (hrun : Run (TimelyStep δ) (State.new Key) s) : Inv δ s :=
  Run.invariant (fun _ _ h hstep => by
    obtain ⟨c, hfollows, hprompt, ht, rfl⟩ := hstep
    exact h.after hfollows hprompt ht) Inv.new hrun

/-- **No message is accepted twice**, as long as none comes closer to the far end of the skew than a
call may take from the wall clock to the receipts; the cache keeps its bound, and a call that is
refused adds and refreshes no receipt and drops none whose message could be accepted again. -/
theorem auth_never_replayed {s : State Key} (hrun : Run (TimelyStep δ) (State.new Key) s) :
    (s.log.Pairwise fun a b => Accepted a → Accepted b → a.1.auth ≠ b.1.auth) ∧
    s.receipts.length ≤ maxAuthNonces ∧
    ∀ (c : Call Key) (receipts : Receipts) (error : String), s.Follows c →
      verifyAuth c s.receipts = (receipts, .error error) →
      receipts.Sublist s.receipts ∧
      ∀ seen ∈ s.receipts, seen ∉ receipts → ∀ e ∈ s.log, Accepted e →
        receiptOf e.1.auth = some seen.1 → Past δ (c.pruned seen.1) e.1.auth := by
  have h := Inv.run hrun
  refine ⟨h.once, h.bound, fun c receipts error hfollows hv => ?_⟩
  have hreceipts : receipts = s.receipts ∨ receipts = retained c.pruned s.receipts := by
    rcases verifyAuth_cases c s.receipts with ⟨_, hc⟩ | ⟨_, hc⟩ | ⟨_, hc, -⟩
    · exact Or.inl (Prod.mk.inj (hv.symm.trans hc)).1
    · exact Or.inr (Prod.mk.inj (hv.symm.trans hc)).1
    · cases (Prod.mk.inj (hv.symm.trans hc)).2
  rcases hreceipts with rfl | rfl
  · exact ⟨List.Sublist.refl _, fun seen hseen hgone => absurd hseen hgone⟩
  · refine ⟨retained_sublist c.pruned s.receipts, fun seen hseen hgone e he ha hkey => ?_⟩
    have hold : ¬c.pruned seen.1 - seen.2 < 10 * 60 * 10 ^ 9 :=
      fun hnew => hgone (List.mem_filter.mpr ⟨hseen, decide_eq_true hnew⟩)
    rcases h.kept e he ha with ⟨other, hother, hout⟩ | hpast
    · -- one receipt for each pair of identity and nonce
      have hsame : other.1 = seen.1 := Option.some.inj (hout.1.symm.trans hkey)
      obtain rfl := List.inj_on_of_nodup_map h.nodup hother hseen hsame
      exact hout.past hold
    · exact hpast.mono (hfollows _)

/-! ## The far end of the skew -/

/-- A key under which every signature holds. -/
@[reducible]
def trustingCrypto : NodeCrypto Unit where
  new _ := .ok ()
  decodeLine _ _ := .error "unused"
  verify _ _ _ := true
  parse _ := none

/-- A message stamped five minutes after 2023-11-14 22:13:20 UTC. -/
def aheadAuth : Json :=
  .obj [("type", .str "auth"), ("protocol", .nat 1), ("node_id", .str "kitchen"),
    ("version", .str "0.4.0"), ("nonce", .str "5f1d"), ("timestamp", .str "1700000300000"),
    ("signature", .str "00")]

/-- It comes at that moment. -/
def aheadCall : Call Unit := .at (1700000000000 * 10 ^ 6) () aheadAuth

/-- It comes once more, ten minutes later. -/
def aheadAgain : Call Unit := .at (1700000600000 * 10 ^ 6) () aheadAuth

/-- It comes two seconds after that moment. -/
def timelyCall : Call Unit := .at (1700000002000 * 10 ^ 6) () aheadAuth

/-- It comes once more, at the last moment at which its timestamp is accepted, and has to wait for a
second until it has the lock. -/
def timelyAgain : Call Unit where
  crypto := ()
  auth := aheadAuth
  wall := 1700000600000 * 10 ^ 6
  pruned _ := 1700000601000 * 10 ^ 6
  inserted := 1700000601000 * 10 ^ 6
  wall_le _ := by decide
  pruned_le _ := Nat.le_refl _

/-- The message is accepted at either first call; at the second one its receipt was dropped in the
one case, and refuses it in the other. -/
theorem ahead_answers :
    stampOf aheadAuth = some 1700000300000 ∧
    @verifyAuth _ trustingCrypto aheadCall []
      = ([(("kitchen", "5f1d"), aheadCall.inserted)], .ok "kitchen") ∧
    @verifyAuth _ trustingCrypto aheadAgain [(("kitchen", "5f1d"), aheadCall.inserted)]
      = ([(("kitchen", "5f1d"), aheadAgain.inserted)], .ok "kitchen") ∧
    @verifyAuth _ trustingCrypto timelyCall []
      = ([(("kitchen", "5f1d"), timelyCall.inserted)], .ok "kitchen") ∧
    @verifyAuth _ trustingCrypto timelyAgain [(("kitchen", "5f1d"), timelyCall.inserted)]
      = ([(("kitchen", "5f1d"), timelyCall.inserted)], .error "replayed auth") := by
  decide +kernel

/-- The cache of two calls, and what it is asked and says. -/
theorem after_after {Key : Type} [NodeCrypto Key] {c d : Call Key} {r r' : Receipts}
    {a b : Result String} (hc : verifyAuth c [] = (r, a)) (hd : verifyAuth d r = (r', b)) :
    ((State.new Key).after c).after d = ⟨r', d.inserted, [(c, a), (d, b)]⟩ := by
  have hfirst : (State.new Key).after c = ⟨r, c.inserted, [(c, a)]⟩ := by
    unfold State.after State.new
    rw [hc]
    rfl
  rw [hfirst]
  unfold State.after
  rw [hd]
  rfl

theorem ahead_auth_replayed :
    let _ := trustingCrypto
    ∃ s : State Unit, Run Step (State.new Unit) s ∧
      ¬s.log.Pairwise fun a b => Accepted a → Accepted b → a.1.auth ≠ b.1.auth := by
  intro _
  obtain ⟨-, hfirst, hsecond, -⟩ := ahead_answers
  refine ⟨((State.new Unit).after aheadCall).after aheadAgain, ?_, fun hp => ?_⟩
  · refine (Relation.ReflTransGen.single ⟨aheadCall, fun _ => Nat.zero_le _, rfl⟩).tail
      ⟨aheadAgain, fun _ => ?_, rfl⟩
    show 1700000000000 * 10 ^ 6 ≤ 1700000600000 * 10 ^ 6
    decide
  · rw [after_after hfirst hsecond] at hp
    exact (List.pairwise_cons.mp hp).1 _ List.mem_cons_self ⟨_, rfl⟩ ⟨_, rfl⟩ rfl

/-- With a second to spare, a message that is presented twice is accepted once. -/
theorem auth_never_replayed_timely :
    let _ := trustingCrypto
    let s := ((State.new Unit).after timelyCall).after timelyAgain
    s.log = [(timelyCall, .ok "kitchen"), (timelyAgain, .error "replayed auth")] ∧
      s.receipts.length ≤ maxAuthNonces ∧
      s.log.Pairwise fun a b => Accepted a → Accepted b → a.1.auth ≠ b.1.auth := by
  intro _ s
  obtain ⟨hstamp, -, -, hfirst, hsecond⟩ := ahead_answers
  have htimely : ∀ c : Call Unit, c.auth = aheadAuth → 1700000002000 * 10 ^ 6 ≤ c.wall →
      Timely 1000 c := by
    intro c hauth hwall stamp hs
    rw [hauth, hstamp] at hs
    obtain rfl := Option.some.inj hs
    have hms := localMs_mono hwall
    have hwall : localMs (1700000002000 * 10 ^ 6) = 1700000002000 := by decide
    rw [hwall] at hms
    unfold authClockSkewMs
    omega
  have hrun : Run (TimelyStep 1000) (State.new Unit) s :=
    (Relation.ReflTransGen.single ⟨timelyCall, fun _ => Nat.zero_le _, fun _ => Nat.le_add_right _ _,
      htimely _ rfl (by decide), rfl⟩).tail
      ⟨timelyAgain, fun _ => (by decide : timelyCall.inserted ≤ timelyAgain.inserted),
        fun _ => (by decide : timelyAgain.inserted ≤ timelyAgain.wall + 1000 * 10 ^ 6),
        htimely _ rfl (by decide), rfl⟩
  obtain ⟨honce, hbound, -⟩ := auth_never_replayed hrun
  refine ⟨?_, hbound, honce⟩
  show (((State.new Unit).after timelyCall).after timelyAgain).log = _
  rw [after_after hfirst hsecond]

end Eef.Node.AuthReplay
