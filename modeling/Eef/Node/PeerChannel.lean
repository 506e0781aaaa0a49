import Eef.Lib.Run
import Mathlib.Data.List.Basic
import Mathlib.Algebra.GroupWithZero.Nat
import Mathlib.Logic.Function.Basic

/-!
# The paired peer channel

`PeerChannel` of `peer/transport.rs`: a source sends data frames to a destination, which
acknowledges prefixes of them, over one encrypted line protocol. An endpoint runs one call
at a time and can be cancelled wherever it waits; the flag `failed` is raised before the
first wait and lowered only by a complete success.

The network may cut, repeat, reorder and invent lines. What it cannot do is make a line
that decodes to a frame no endpoint wrote: that is the premise of the two steps that
accept a frame. `Inv` ties the counters of both ends to two histories, the payloads handed
to the writer (`offered`) and those returned (`delivered`), and says of every frame
written what it stands for. An endpoint that is `Fenced` never changes again.
-/

namespace Eef.Node.PeerChannel

open Eef.Lib

/-- `scope::Role`. -/
inductive Role where
  | source
  | destination
  deriving DecidableEq, Repr

/-- `scope::Limits`, as far as the channel reads them. -/
structure Limits where
  maxWireBytes : Nat
  maxFrameBytes : Nat
  maxFrames : Nat
  maxInflightFrames : Nat
  deriving DecidableEq, Repr

/-- `transport::Body`. -/
inductive Body where
  | data (bytes : String)
  | acknowledgement (receivedFrames receivedPayloadBytes : Nat)
  deriving DecidableEq, Repr

/-- `transport::Frame`. -/
structure Frame where
  schemaVersion : Nat
  scopeSha256 : String
  role : Role
  sequence : Nat
  body : Body
  deriving DecidableEq, Repr

abbrev Payload := List UInt8

/-- The payload's encoding and the encrypted line. -/
class Wire where
  /-- `STANDARD.encode`. -/
  encode64 : Payload → String
  /-- `STANDARD.decode`. -/
  decode64 : String → Option Payload
  decode64_encode64 : ∀ v, decode64 (encode64 v) = some v
  /-- `decode_line` and the frame's derived reader. -/
  decodeLine : List UInt8 → Option Frame

/-- The calls of an endpoint. -/
inductive Call where
  | sendData (bytes : Payload)
  | receiveData
  | acknowledge
  | receiveAcknowledgement
  deriving DecidableEq, Repr

/-- The call an endpoint is suspended in: how much of its line is written, or how much of
a line it has read. -/
inductive Pending where
  | writing (call : Call) (line : List UInt8) (written : Nat)
  | reading (call : Call) (line : List UInt8)
  deriving DecidableEq, Repr

/-- `PeerChannel` with its `PeerIo`; `buffer` is what the `BufReader` holds. -/
structure Endpoint where
  role : Role
  sent : Nat
  received : Nat
  sentBytes : Nat
  receivedBytes : Nat
  ackSent : Nat
  ackReceived : Nat
  lastAckSent : Nat
  unacked : List (Nat × Nat)
  failed : Bool
  used : Nat
  buffer : List UInt8
  pending : Option Pending
  deriving DecidableEq, Repr

namespace Endpoint

/-- A channel of `PeerEndpoint::channel`. -/
def new (role : Role) : Endpoint := ⟨role, 0, 0, 0, 0, 0, 0, 0, [], false, 0, [], none⟩

/-- The checks each call makes first. -/
def admits (limits : Limits) (e : Endpoint) : Call → Prop
  | .sendData bytes => e.role = .source ∧ bytes ≠ [] ∧ bytes.length ≤ limits.maxFrameBytes
      ∧ e.sent < limits.maxFrames ∧ e.unacked.length < limits.maxInflightFrames
  | .receiveData => e.role = .destination ∧ e.received < limits.maxFrames
      ∧ e.received - e.lastAckSent < limits.maxInflightFrames
  | .acknowledge => e.role = .destination ∧ e.lastAckSent < e.received
  | .receiveAcknowledgement => e.role = .source ∧ e.unacked ≠ []

instance (limits : Limits) (e : Endpoint) (call : Call) : Decidable (e.admits limits call) := by
  cases call <;> exact inferInstanceAs (Decidable (_ ∧ _))

section
variable [Wire]

/-- The frame a call writes. -/
def frame (hash : String) (e : Endpoint) : Call → Option Frame
  | .sendData bytes => some ⟨1, hash, .source, e.sent + 1, .data (Wire.encode64 bytes)⟩
  | .acknowledge => some ⟨1, hash, .destination, e.ackSent + 1,
      .acknowledgement e.received e.receivedBytes⟩
  | _ => none

end

/-- The role and the sequence a call reads. -/
def expects (e : Endpoint) : Call → Option (Role × Nat)
  | .receiveData => some (.source, e.received + 1)
  | .receiveAcknowledgement => some (.destination, e.ackReceived + 1)
  | _ => none

/-- The header `read` accepts. -/
def accepts (hash : String) (e : Endpoint) (call : Call) (f : Frame) : Prop :=
  f.schemaVersion = 1 ∧ f.scopeSha256 = hash ∧ e.expects call = some (f.role, f.sequence)

instance (hash : String) (e : Endpoint) (call : Call) (f : Frame) :
    Decidable (e.accepts hash call f) := inferInstanceAs (Decidable (_ ∧ _))

/-- `read`'s limit of one line. -/
def lineLimit (limits : Limits) : Nat := 2 * limits.maxFrameBytes + 4096

/-- What `PeerIo::budget` allows at most; the rate may allow less. -/
def budget (limits : Limits) (e : Endpoint) (wanted : Nat) : Nat :=
  min wanted (min 16384 (limits.maxWireBytes - e.used))

/-- The flag goes up. -/
def fail (e : Endpoint) : Endpoint := { e with failed := true }

/-- A call suspends for the first time, fenced until it succeeds. -/
def suspend (e : Endpoint) (p : Pending) : Endpoint :=
  { e with
    failed := true
    pending := some p }

/-- A call is dropped or fails where it waits. -/
def abort (e : Endpoint) : Endpoint := { e with pending := none }

/-- `charged`, for `n` bytes of the line. -/
def charge (e : Endpoint) (n : Nat) (p : Pending) : Endpoint :=
  { e with
    used := e.used + n
    pending := some p }

/-- The rest of `send_data`. -/
def dataSent (e : Endpoint) (bytes : Payload) : Endpoint :=
  { e with
    failed := false
    pending := none
    sent := e.sent + 1
    sentBytes := e.sentBytes + bytes.length
    unacked := e.unacked ++ [(e.sent + 1, e.sentBytes + bytes.length)] }

/-- The rest of `acknowledge`. -/
def acknowledged (e : Endpoint) : Endpoint :=
  { e with
    failed := false
    pending := none
    ackSent := e.ackSent + 1
    lastAckSent := e.received }

/-- The rest of `receive_data`. -/
def dataReceived (e : Endpoint) (value : Payload) : Endpoint :=
  { e with
    failed := false
    pending := none
    received := e.received + 1
    receivedBytes := e.receivedBytes + value.length }

/-- The rest of `receive_acknowledgement`, for the entry at `i`. -/
def acknowledgementReceived (e : Endpoint) (i : Nat) : Endpoint :=
  { e with
    failed := false
    pending := none
    ackReceived := e.ackReceived + 1
    unacked := e.unacked.drop (i + 1) }

end Endpoint

/-- Two endpoints of one scope. The histories are the frames whose write began, the
payloads of the `send_data` calls among them, and what the two reads returned. -/
structure World where
  side : Role → Endpoint
  wrote : List Frame
  offered : List Payload
  delivered : List Payload
  confirmed : List (Nat × Nat)

/-- A new pair of channels. -/
def World.initial : World := ⟨Endpoint.new, [], [], [], []⟩

/-- One side goes on. -/
def World.set (w : World) (r : Role) (e : Endpoint) : World :=
  { w with side := Function.update w.side r e }

/-- The payload of a `send_data`. -/
def Call.payload : Call → List Payload
  | .sendData bytes => [bytes]
  | _ => []

section
variable [Wire]

/-- One step of one endpoint. -/
inductive Step (limits : Limits) (hash : String) : World → World → Prop where
  -- `check`: the lease is over
  | lapse (w : World) (r : Role) (hp : (w.side r).pending = none) :
    Step limits hash w (w.set r (w.side r).fail)
  | overrun (w : World) (r : Role) (call : Call) (f : Frame) (line : List UInt8)
    (hp : (w.side r).pending = none) (hf : (w.side r).failed = false)
    (ha : (w.side r).admits limits call) (hframe : (w.side r).frame hash call = some f)
    (hline : Wire.decodeLine line = some f)
    (hw : limits.maxWireBytes - (w.side r).used < line.length) :
    Step limits hash w (w.set r (w.side r).fail)
  | beginWrite (w : World) (r : Role) (call : Call) (f : Frame) (line : List UInt8)
    (hp : (w.side r).pending = none) (hf : (w.side r).failed = false)
    (ha : (w.side r).admits limits call) (hframe : (w.side r).frame hash call = some f)
    (hline : Wire.decodeLine line = some f)
    (hw : line.length ≤ limits.maxWireBytes - (w.side r).used) :
    Step limits hash w { w.set r ((w.side r).suspend (.writing call line 0)) with
      wrote := w.wrote ++ [f]
      offered := w.offered ++ call.payload }
  | writeSome (w : World) (r : Role) (call : Call) (line : List UInt8) (k n : Nat)
    (hp : (w.side r).pending = some (.writing call line k))
    (hn : n ≤ (w.side r).budget limits (line.length - k)) :
    Step limits hash w (w.set r ((w.side r).charge n (.writing call line (k + n))))
  | sendDone (w : World) (r : Role) (bytes : Payload) (line : List UInt8)
    (hp : (w.side r).pending = some (.writing (.sendData bytes) line line.length)) :
    Step limits hash w (w.set r ((w.side r).dataSent bytes))
  | acknowledgeDone (w : World) (r : Role) (line : List UInt8)
    (hp : (w.side r).pending = some (.writing .acknowledge line line.length)) :
    Step limits hash w (w.set r (w.side r).acknowledged)
  | beginRead (w : World) (r : Role) (call : Call) (hp : (w.side r).pending = none)
    (hf : (w.side r).failed = false) (ha : (w.side r).admits limits call)
    (hread : ((w.side r).expects call).isSome = true) :
    Step limits hash w (w.set r ((w.side r).suspend (.reading call [])))
  | readSome (w : World) (r : Role) (call : Call) (line chunk : List UInt8)
    (hp : (w.side r).pending = some (.reading call line)) (hb : (w.side r).buffer = [])
    (hn : chunk.length ≤ (w.side r).budget limits 8192) :
    Step limits hash w (w.set r { (w.side r).charge chunk.length (.reading call line) with
      buffer := chunk })
  | takeByte (w : World) (r : Role) (call : Call) (line rest : List UInt8) (b : UInt8)
    (hp : (w.side r).pending = some (.reading call line)) (hb : (w.side r).buffer = b :: rest)
    (hline : line.getLast? ≠ some 10 ∧ line.length ≤ Endpoint.lineLimit limits) :
    Step limits hash w (w.set r { (w.side r).charge 0 (.reading call (line ++ [b])) with
      buffer := rest })
  -- the frame was written by one of the two
  | deliver (w : World) (r : Role) (line : List UInt8) (f : Frame) (text : String)
    (value : Payload) (hp : (w.side r).pending = some (.reading .receiveData line))
    (hline : line.getLast? = some 10 ∧ line.length ≤ Endpoint.lineLimit limits)
    (hframe : Wire.decodeLine line = some f) (hauth : f ∈ w.wrote)
    (ha : (w.side r).accepts hash .receiveData f) (hbody : f.body = .data text)
    (hvalue : Wire.decode64 text = some value)
    (hsize : value ≠ [] ∧ value.length ≤ limits.maxFrameBytes) :
    Step limits hash w { w.set r ((w.side r).dataReceived value) with
      delivered := w.delivered ++ [value] }
  | confirm (w : World) (r : Role) (line : List UInt8) (f : Frame) (frames bytes i : Nat)
    (hp : (w.side r).pending = some (.reading .receiveAcknowledgement line))
    (hline : line.getLast? = some 10 ∧ line.length ≤ Endpoint.lineLimit limits)
    (hframe : Wire.decodeLine line = some f) (hauth : f ∈ w.wrote)
    (ha : (w.side r).accepts hash .receiveAcknowledgement f)
    (hbody : f.body = .acknowledgement frames bytes)
    (hat : (w.side r).unacked.idxOf? (frames, bytes) = some i) :
    Step limits hash w { w.set r ((w.side r).acknowledgementReceived i) with
      confirmed := w.confirmed ++ [(frames, bytes)] }
  -- an error of any kind, or the call is dropped
  | abort (w : World) (r : Role) (p : Pending) (hp : (w.side r).pending = some p) :
    Step limits hash w (w.set r (w.side r).abort)

end

/-- The bytes of some payloads. -/
def payloadBytes (l : List Payload) : Nat := (l.map List.length).sum

/-- The call that is suspended. -/
def Pending.call : Pending → Call
  | .writing call _ _ => call
  | .reading call _ => call

/-- What an endpoint keeps of the scope's limits. -/
structure Endpoint.Bounded (limits : Limits) (e : Endpoint) : Prop where
  unacked : e.unacked.length ≤ limits.maxInflightFrames
  acked : e.lastAckSent ≤ e.received
  window : e.received - e.lastAckSent ≤ limits.maxInflightFrames
  sent : e.sent ≤ limits.maxFrames
  received : e.received ≤ limits.maxFrames
  wire : e.used ≤ limits.maxWireBytes
  fenced : e.pending.isSome = true → e.failed = true
  admitted : ∀ p, e.pending = some p → e.admits limits p.call

/-- The payload of a `send_data` that is being written. -/
def Endpoint.sending (e : Endpoint) : Nat :=
  match e.pending with
  | some (.writing (.sendData _) _ _) => 1
  | _ => 0

variable {limits : Limits} {hash : String} {w v : World}

@[simp]
theorem World.set_side (w : World) (r : Role) (e : Endpoint) : (w.set r e).side r = e :=
  Function.update_self _ _ _

theorem World.set_side_of_ne (w : World) {r q : Role} (e : Endpoint) (h : q ≠ r) :
    (w.set r e).side q = w.side q := Function.update_of_ne h _ _

theorem World.set_set (w : World) (r : Role) (e e' : Endpoint) :
    (w.set r e).set r e' = w.set r e' := by
  unfold World.set
  rw [Function.update_idem]

/-! ## What each call does to an endpoint's bounds -/

namespace Endpoint

variable {e : Endpoint}

theorem Bounded.fail (h : e.Bounded limits) : e.fail.Bounded limits :=
  { h with fenced := fun _ => rfl }

theorem Bounded.suspend (h : e.Bounded limits) {p : Pending} (ha : e.admits limits p.call) :
    (e.suspend p).Bounded limits :=
  { h with
    fenced := fun _ => rfl
    admitted := by
      intro q hq
      cases hq
      cases hc : p.call <;> rw [hc] at ha <;> exact ha }

theorem Bounded.abort (h : e.Bounded limits) : e.abort.Bounded limits :=
  { h with
    fenced := fun hp => nomatch hp
    admitted := fun _ hp => nomatch hp }

/-- Bytes are charged within the budget. -/
theorem Bounded.charge (h : e.Bounded limits) {p q : Pending} (hp : e.pending = some p)
    (hcall : q.call = p.call) {n : Nat} (hn : n ≤ limits.maxWireBytes - e.used) :
    (e.charge n q).Bounded limits := by
  refine ⟨h.unacked, h.acked, h.window, h.sent, h.received, ?_, ?_, ?_⟩
  · have := h.wire
    show e.used + n ≤ limits.maxWireBytes
    omega
  · intro _
    exact h.fenced (by rw [hp]; rfl)
  · intro q' hq'
    cases hq'
    have ha := h.admitted p hp
    rw [hcall]
    cases hc : p.call <;> rw [hc] at ha <;> exact ha

theorem Bounded.buffer (h : e.Bounded limits) (b : List UInt8) :
    { e with buffer := b }.Bounded limits :=
  { h with
    admitted := by
      intro p hp
      have ha := h.admitted p hp
      cases hc : p.call <;> rw [hc] at ha <;> exact ha }

theorem Bounded.dataSent (h : e.Bounded limits) {bytes : Payload} {line : List UInt8} {k : Nat}
    (hp : e.pending = some (.writing (.sendData bytes) line k)) :
    (e.dataSent bytes).Bounded limits := by
  obtain ⟨_, _, _, hsent, hun⟩ := h.admitted _ hp
  refine ⟨?_, h.acked, h.window, ?_, h.received, h.wire, nofun, nofun⟩
  · show (e.unacked ++ [_]).length ≤ _
    rw [List.length_append, List.length_singleton]
    omega
  · show e.sent + 1 ≤ _
    omega

theorem Bounded.acknowledged (h : e.Bounded limits) : e.acknowledged.Bounded limits := by
  refine ⟨h.unacked, Nat.le_refl _, ?_, h.sent, h.received, h.wire, nofun, nofun⟩
  show e.received - e.received ≤ _
  omega

theorem Bounded.dataReceived (h : e.Bounded limits) {line : List UInt8} (value : Payload)
    (hp : e.pending = some (.reading .receiveData line)) :
    (e.dataReceived value).Bounded limits := by
  obtain ⟨_, hrec, hwin⟩ := h.admitted _ hp
  have hack := h.acked
  refine ⟨h.unacked, ?_, ?_, h.sent, ?_, h.wire, nofun, nofun⟩
  · show e.lastAckSent ≤ e.received + 1
    omega
  · show e.received + 1 - e.lastAckSent ≤ _
    omega
  · show e.received + 1 ≤ _
    omega

theorem Bounded.acknowledgementReceived (h : e.Bounded limits) (i : Nat) :
    (e.acknowledgementReceived i).Bounded limits := by
  refine ⟨?_, h.acked, h.window, h.sent, h.received, h.wire, nofun, nofun⟩
  show (e.unacked.drop (i + 1)).length ≤ _
  rw [List.length_drop]
  have := h.unacked
  omega

theorem budget_le (limits : Limits) (e : Endpoint) (wanted : Nat) :
    e.budget limits wanted ≤ limits.maxWireBytes - e.used := by
  unfold budget
  omega

end Endpoint

section
variable [Wire]

/-! ## The histories -/

/-- What a frame stands for: the payload of its sequence, or what the destination has. -/
def Written (w : World) (f : Frame) : Prop :=
  match f.role with
  | .source => ∃ k v, w.offered[k]? = some v ∧ f.sequence = k + 1
      ∧ f.body = .data (Wire.encode64 v)
  | .destination => ∃ n ≤ w.delivered.length,
      f.body = .acknowledgement n (payloadBytes (w.delivered.take n))

/-- The invariant of a pair of channels. -/
structure Inv (limits : Limits) (w : World) : Prop where
  role : ∀ r, (w.side r).role = r
  bounded : ∀ r, (w.side r).Bounded limits
  wrote : ∀ f ∈ w.wrote, Written w f
  offered : (w.side .source).failed = false ∨ (w.side .source).pending.isSome = true →
    w.offered.length = (w.side .source).sent + (w.side .source).sending
  received : (w.side .destination).received = w.delivered.length
  receivedBytes : (w.side .destination).receivedBytes = payloadBytes w.delivered
  delivered : w.delivered <+: w.offered
  confirmed : ∀ a ∈ w.confirmed, a.1 ≤ w.delivered.length
    ∧ a.2 = payloadBytes (w.delivered.take a.1)

theorem Inv.initial : Inv limits World.initial where
  role _ := rfl
  bounded _ := ⟨Nat.zero_le _, Nat.le_refl _, Nat.zero_le _, Nat.zero_le _, Nat.zero_le _,
    Nat.zero_le _, nofun, nofun⟩
  wrote _ h := nomatch h
  offered _ := rfl
  received := rfl
  receivedBytes := rfl
  delivered := List.nil_prefix
  confirmed _ h := nomatch h

/-- A step of one side that hands nothing to the writer and returns nothing. -/
theorem Inv.set (hi : Inv limits w) {r : Role} {e : Endpoint} (hrole : e.role = r)
    (hb : e.Bounded limits)
    (hoff : r = .source → e.failed = false ∨ e.pending.isSome = true →
      w.offered.length = e.sent + e.sending)
    (hrec : e.received = (w.side r).received ∧ e.receivedBytes = (w.side r).receivedBytes) :
    Inv limits (w.set r e) where
  role q := by
    by_cases hq : q = r
    · subst hq
      rwa [World.set_side]
    · rw [World.set_side_of_ne w e hq]
      exact hi.role q
  bounded q := by
    by_cases hq : q = r
    · subst hq
      rwa [World.set_side]
    · rw [World.set_side_of_ne w e hq]
      exact hi.bounded q
  wrote := hi.wrote
  offered := by
    by_cases hr : Role.source = r
    · subst hr
      rw [World.set_side]
      exact hoff rfl
    · rw [World.set_side_of_ne w e hr]
      exact hi.offered
  received := by
    by_cases hr : Role.destination = r
    · subst hr
      rw [World.set_side, hrec.1]
      exact hi.received
    · rw [World.set_side_of_ne w e hr]
      exact hi.received
  receivedBytes := by
    by_cases hr : Role.destination = r
    · subst hr
      rw [World.set_side, hrec.2]
      exact hi.receivedBytes
    · rw [World.set_side_of_ne w e hr]
      exact hi.receivedBytes
  delivered := hi.delivered
  confirmed := hi.confirmed

/-- What a frame stands for does not change as the histories grow. -/
theorem Written.mono {f : Frame} (h : Written w f) (ho : w.offered <+: v.offered)
    (hd : w.delivered <+: v.delivered) : Written v f := by
  unfold Written at h ⊢
  split at h
  · obtain ⟨k, p, hk, hseq, hbody⟩ := h
    obtain ⟨rest, hrest⟩ := ho
    refine ⟨k, p, ?_, hseq, hbody⟩
    rw [← hrest, List.getElem?_append_left (List.getElem?_eq_some_iff.mp hk).1, hk]
  · obtain ⟨n, hn, hbody⟩ := h
    obtain ⟨rest, hrest⟩ := hd
    refine ⟨n, ?_, ?_⟩
    · rw [← hrest, List.length_append]
      omega
    · rw [hbody, ← hrest, List.take_append_of_le_length hn]

/-- The step that hands a frame to the writer: its payload is the next one offered. -/
theorem Inv.beginWrite (hi : Inv limits w) {r : Role} {call : Call} {f : Frame}
    {line : List UInt8} (hp : (w.side r).pending = none) (hf : (w.side r).failed = false)
    (ha : (w.side r).admits limits call) (hframe : (w.side r).frame hash call = some f) :
    Inv limits { w.set r ((w.side r).suspend (.writing call line 0)) with
      wrote := w.wrote ++ [f]
      offered := w.offered ++ call.payload } := by
  have hset : Inv limits (w.set r (w.side r).fail) := by
    refine hi.set (hi.role r) (hi.bounded r).fail ?_ ⟨rfl, rfl⟩
    rintro rfl h
    rcases h with h | h
    · cases h
    · change (w.side .source).pending.isSome = true at h
      rw [hp] at h
      cases h
  have hbound := (hi.bounded r).suspend (p := .writing call line 0) ha
  have hside : ∀ q, q ≠ r →
      (w.set r ((w.side r).suspend (.writing call line 0))).side q = w.side q :=
    fun q hq => World.set_side_of_ne w _ hq
  have hgrow : w.offered <+: w.offered ++ call.payload := List.prefix_append _ _
  refine ⟨?_, ?_, ?_, ?_, ?_, ?_, hi.delivered.trans hgrow, hi.confirmed⟩
  · intro q
    by_cases hq : q = r
    · subst hq
      show ((w.set q _).side q).role = q
      rw [World.set_side]
      exact hi.role q
    · show ((w.set r _).side q).role = q
      rw [hside q hq]
      exact hi.role q
  · intro q
    by_cases hq : q = r
    · subst hq
      show ((w.set q _).side q).Bounded limits
      rwa [World.set_side]
    · show ((w.set r _).side q).Bounded limits
      rw [hside q hq]
      exact hi.bounded q
  · intro g hg
    rcases List.mem_append.mp hg with hg | hg
    · exact (hi.wrote g hg).mono hgrow List.prefix_rfl
    · rw [List.mem_singleton] at hg
      subst hg
      cases call with
      | sendData bytes =>
        obtain ⟨hrole, _⟩ := ha
        have hr : r = .source := (hi.role r).symm.trans hrole
        subst hr
        cases hframe
        have hlen := hi.offered (.inl hf)
        simp only [Endpoint.sending, hp, Nat.add_zero] at hlen
        refine ⟨w.offered.length, bytes, ?_, by rw [hlen], rfl⟩
        show (w.offered ++ [bytes])[w.offered.length]? = some bytes
        rw [List.getElem?_append_right (Nat.le_refl _), Nat.sub_self]
        rfl
      | acknowledge =>
        obtain ⟨hrole, _⟩ := ha
        have hr : r = .destination := (hi.role r).symm.trans hrole
        subst hr
        cases hframe
        refine ⟨w.delivered.length, Nat.le_refl _, ?_⟩
        show Body.acknowledgement _ _ = Body.acknowledgement _ (payloadBytes (w.delivered.take _))
        rw [List.take_length, hi.received, hi.receivedBytes]
      | receiveData => cases hframe
      | receiveAcknowledgement => cases hframe
  · intro hlive
    by_cases hr : Role.source = r
    · subst hr
      have hlen := hi.offered (.inl hf)
      simp only [Endpoint.sending, hp, Nat.add_zero] at hlen
      show (w.offered ++ call.payload).length
        = ((w.set .source _).side .source).sent + ((w.set .source _).side .source).sending
      rw [World.set_side, List.length_append, hlen]
      cases call <;> rfl
    · have hcall : call.payload = [] := by
        cases call with
        | sendData bytes => exact absurd (ha.1.symm.trans (hi.role r)) hr
        | _ => rfl
      have hs := hside .source hr
      change ((w.set r _).side .source).failed = false
        ∨ ((w.set r _).side .source).pending.isSome = true at hlive
      show (w.offered ++ call.payload).length
        = ((w.set r _).side .source).sent + ((w.set r _).side .source).sending
      rw [hs] at hlive ⊢
      rw [hcall, List.append_nil]
      exact hi.offered hlive
  · by_cases hr : Role.destination = r
    · subst hr
      show ((w.set .destination _).side .destination).received = _
      rw [World.set_side]
      exact hi.received
    · show ((w.set r _).side .destination).received = _
      rw [hside _ hr]
      exact hi.received
  · by_cases hr : Role.destination = r
    · subst hr
      show ((w.set .destination _).side .destination).receivedBytes = _
      rw [World.set_side]
      exact hi.receivedBytes
    · show ((w.set r _).side .destination).receivedBytes = _
      rw [hside _ hr]
      exact hi.receivedBytes

/-- An accepted data frame carries the next payload offered. -/
theorem Inv.next_payload (hi : Inv limits w) {f : Frame} {text : String} {value : Payload}
    (hauth : f ∈ w.wrote) (ha : (w.side .destination).accepts hash .receiveData f)
    (hbody : f.body = .data text) (hvalue : Wire.decode64 text = some value) :
    w.offered[w.delivered.length]? = some value := by
  obtain ⟨_, _, hexp⟩ := ha
  simp only [Endpoint.expects, Option.some.injEq, Prod.mk.injEq] at hexp
  have hw := hi.wrote f hauth
  rw [Written, ← hexp.1] at hw
  obtain ⟨k, p, hk, hseq, hb⟩ := hw
  rw [hbody, Body.data.injEq] at hb
  rw [hb, Wire.decode64_encode64, Option.some.injEq] at hvalue
  have hrec := hi.received
  have : k = w.delivered.length := by omega
  rw [← this, hk, hvalue]

/-- The step that returns a payload. -/
theorem Inv.deliver (hi : Inv limits w) {line : List UInt8} {value : Payload}
    (hp : (w.side .destination).pending = some (.reading .receiveData line))
    (hnext : w.offered[w.delivered.length]? = some value) :
    Inv limits { w.set .destination ((w.side .destination).dataReceived value) with
      delivered := w.delivered ++ [value] } := by
  have hsource : (w.set .destination ((w.side .destination).dataReceived value)).side .source
      = w.side .source := World.set_side_of_ne w _ (by decide)
  obtain ⟨rest, hrest⟩ := hi.delivered
  have hhead : rest.head? = some value := by
    rw [← hrest, List.getElem?_append_right (Nat.le_refl _), Nat.sub_self] at hnext
    rwa [List.head?_eq_getElem?]
  have hgrow : w.delivered ++ [value] <+: w.offered := by
    obtain ⟨tail, htail⟩ := List.head?_eq_some_iff.mp hhead
    exact ⟨tail, by rw [← hrest, htail, List.append_assoc]; rfl⟩
  refine ⟨?_, ?_, ?_, ?_, ?_, ?_, hgrow, ?_⟩
  · intro q
    cases q with
    | source =>
      show ((w.set .destination ((w.side .destination).dataReceived value)).side .source).role = _
      rw [hsource]
      exact hi.role _
    | destination => exact hi.role .destination
  · intro q
    cases q with
    | source =>
      show ((w.set .destination ((w.side .destination).dataReceived value)).side .source).Bounded limits
      rw [hsource]
      exact hi.bounded _
    | destination =>
      show ((w.set .destination ((w.side .destination).dataReceived value)).side .destination).Bounded limits
      rw [World.set_side]
      exact (hi.bounded _).dataReceived value hp
  · intro f hf
    exact (hi.wrote f hf).mono List.prefix_rfl (List.prefix_append _ _)
  · intro hlive
    change ((w.set .destination ((w.side .destination).dataReceived value)).side .source).failed = false
      ∨ ((w.set .destination ((w.side .destination).dataReceived value)).side .source).pending.isSome = true at hlive
    show w.offered.length = ((w.set .destination ((w.side .destination).dataReceived value)).side .source).sent + ((w.set .destination ((w.side .destination).dataReceived value)).side .source).sending
    rw [hsource] at hlive ⊢
    exact hi.offered hlive
  · show (w.side .destination).received + 1 = (w.delivered ++ [value]).length
    rw [List.length_append, List.length_singleton, hi.received]
  · show (w.side .destination).receivedBytes + value.length = payloadBytes (w.delivered ++ [value])
    rw [hi.receivedBytes]
    simp [payloadBytes]
  · intro a ha
    obtain ⟨hle, hbytes⟩ := hi.confirmed a ha
    refine ⟨?_, ?_⟩
    · show a.1 ≤ (w.delivered ++ [value]).length
      rw [List.length_append]
      omega
    · show a.2 = payloadBytes ((w.delivered ++ [value]).take a.1)
      rw [List.take_append_of_le_length hle]
      exact hbytes

/-- The step that returns an acknowledgement. -/
theorem Inv.confirm (hi : Inv limits w) {f : Frame} {frames bytes i : Nat} (hauth : f ∈ w.wrote)
    (hp : ∃ line, (w.side .source).pending = some (.reading .receiveAcknowledgement line))
    (ha : (w.side .source).accepts hash .receiveAcknowledgement f)
    (hbody : f.body = .acknowledgement frames bytes) :
    Inv limits { w.set .source ((w.side .source).acknowledgementReceived i) with
      confirmed := w.confirmed ++ [(frames, bytes)] } := by
  obtain ⟨line, hp⟩ := hp
  have hset : Inv limits (w.set .source ((w.side .source).acknowledgementReceived i)) := by
    refine hi.set (hi.role _) ((hi.bounded _).acknowledgementReceived i) ?_ ⟨rfl, rfl⟩
    intro _ _
    have hlen := hi.offered (.inr (by rw [hp]; rfl))
    simp only [Endpoint.sending, hp] at hlen
    exact hlen
  refine { hset with confirmed := ?_ }
  intro a hmem
  rcases List.mem_append.mp hmem with hmem | hmem
  · exact hi.confirmed a hmem
  · rw [List.mem_singleton] at hmem
    subst hmem
    obtain ⟨_, _, hexp⟩ := ha
    simp only [Endpoint.expects, Option.some.injEq, Prod.mk.injEq] at hexp
    have hw := hi.wrote f hauth
    rw [Written, ← hexp.1] at hw
    obtain ⟨n, hn, hb⟩ := hw
    rw [hbody, Body.acknowledgement.injEq] at hb
    obtain ⟨rfl, rfl⟩ := hb
    exact ⟨hn, rfl⟩

/-- Step: the invariant holds after every step. -/
theorem Inv.step (hi : Inv limits w) (h : Step limits hash w v) : Inv limits v := by
  cases h with
  | lapse r hp =>
    refine hi.set (hi.role r) (hi.bounded r).fail ?_ ⟨rfl, rfl⟩
    rintro rfl h
    rcases h with h | h
    · cases h
    · change (w.side .source).pending.isSome = true at h
      rw [hp] at h
      cases h
  | overrun r call f line hp hf ha hframe hline hw =>
    refine hi.set (hi.role r) (hi.bounded r).fail ?_ ⟨rfl, rfl⟩
    rintro rfl h
    rcases h with h | h
    · cases h
    · change (w.side .source).pending.isSome = true at h
      rw [hp] at h
      cases h
  | beginWrite r call f line hp hf ha hframe hline hw => exact hi.beginWrite hp hf ha hframe
  | writeSome r call line k n hp hn =>
    have hle := Nat.le_trans hn (Endpoint.budget_le limits _ _)
    refine hi.set (hi.role r) ((hi.bounded r).charge (q := .writing call line (k + n)) hp rfl hle) ?_
      ⟨rfl, rfl⟩
    rintro rfl _
    have hlen := hi.offered (.inr (by rw [hp]; rfl))
    simp only [Endpoint.sending, hp] at hlen
    cases call <;> exact hlen
  | sendDone r bytes line hp =>
    refine hi.set (hi.role r) ((hi.bounded r).dataSent hp) ?_ ⟨rfl, rfl⟩
    rintro rfl _
    have hlen := hi.offered (.inr (by rw [hp]; rfl))
    simp only [Endpoint.sending, hp] at hlen
    exact hlen
  | acknowledgeDone r line hp =>
    refine hi.set (hi.role r) (hi.bounded r).acknowledged ?_ ⟨rfl, rfl⟩
    rintro rfl _
    have hlen := hi.offered (.inr (by rw [hp]; rfl))
    simp only [Endpoint.sending, hp] at hlen
    exact hlen
  | beginRead r call hp hf ha hread =>
    refine hi.set (hi.role r) ((hi.bounded r).suspend ha) ?_ ⟨rfl, rfl⟩
    rintro rfl _
    have hlen := hi.offered (.inl hf)
    simp only [Endpoint.sending, hp] at hlen
    exact hlen
  | readSome r call line chunk hp hb hn =>
    have hle := Nat.le_trans hn (Endpoint.budget_le limits _ _)
    refine hi.set (hi.role r) (((hi.bounded r).charge hp rfl hle).buffer chunk) ?_ ⟨rfl, rfl⟩
    rintro rfl _
    have hlen := hi.offered (.inr (by rw [hp]; rfl))
    simp only [Endpoint.sending, hp] at hlen
    exact hlen
  | takeByte r call line rest b hp hb hline =>
    refine hi.set (hi.role r)
      (((hi.bounded r).charge (q := .reading call (line ++ [b])) hp rfl (Nat.zero_le _)).buffer
        rest) ?_ ⟨rfl, rfl⟩
    rintro rfl _
    have hlen := hi.offered (.inr (by rw [hp]; rfl))
    simp only [Endpoint.sending, hp] at hlen
    exact hlen
  | deliver r line f text value hp hline hframe hauth ha hbody hvalue hsize =>
    have hr : r = .destination := (hi.role r).symm.trans ((hi.bounded r).admitted _ hp).1
    subst hr
    exact hi.deliver hp (hi.next_payload hauth ha hbody hvalue)
  | confirm r line f frames bytes i hp hline hframe hauth ha hbody hat =>
    have hr : r = .source := (hi.role r).symm.trans ((hi.bounded r).admitted _ hp).1
    subst hr
    exact hi.confirm hauth ⟨line, hp⟩ ha hbody
  | abort r p hp =>
    refine hi.set (hi.role r) (hi.bounded r).abort ?_ ⟨rfl, rfl⟩
    rintro rfl h
    -- the flag that was raised before the call waited is still up
    have hfenced := (hi.bounded .source).fenced (by rw [hp]; rfl)
    rcases h with h | h
    · change (w.side .source).failed = false at h
      rw [hfenced] at h
      cases h
    · cases h

/-- Run: the invariant holds of every reachable pair. -/
theorem Inv.run (h : Run (Step limits hash) World.initial w) : Inv limits w :=
  Run.invariant (fun _ _ hi hstep => hi.step hstep) Inv.initial h

/-! ## Fencing -/

/-- The flag is up and no call is suspended that could lower it. -/
def Endpoint.Fenced (e : Endpoint) : Prop := e.failed = true ∧ e.pending = none

/-- Step: a fenced endpoint does not change. -/
theorem Step.fenced (h : Step limits hash w v) {q : Role} (hq : (w.side q).Fenced) :
    v.side q = w.side q := by
  obtain ⟨hfl, hpe⟩ := hq
  have hset : ∀ (r : Role) (e : Endpoint), (q = r → e = w.side q) → (w.set r e).side q = w.side q := by
    intro r e he
    by_cases hr : q = r
    · rw [← hr, World.set_side]
      exact he hr
    · exact World.set_side_of_ne w e hr
  have hnone : ∀ {r : Role} {p : Pending}, (w.side r).pending = some p → q ≠ r := by
    rintro r p hp rfl
    rw [hpe] at hp
    cases hp
  have hdown : ∀ {r : Role}, (w.side r).failed = false → q ≠ r := by
    rintro r hf rfl
    rw [hfl] at hf
    cases hf
  cases h with
  | lapse r hp =>
    refine hset r _ ?_
    rintro rfl
    show ({ w.side q with failed := true } : Endpoint) = w.side q
    rw [← hfl]
  | overrun r call f line hp hf ha hframe hline hw => exact hset r _ fun e => absurd e (hdown hf)
  | beginWrite r call f line hp hf ha hframe hline hw => exact hset r _ fun e => absurd e (hdown hf)
  | writeSome r call line k n hp hn => exact hset r _ fun e => absurd e (hnone hp)
  | sendDone r bytes line hp => exact hset r _ fun e => absurd e (hnone hp)
  | acknowledgeDone r line hp => exact hset r _ fun e => absurd e (hnone hp)
  | beginRead r call hp hf ha hread => exact hset r _ fun e => absurd e (hdown hf)
  | readSome r call line chunk hp hb hn => exact hset r _ fun e => absurd e (hnone hp)
  | takeByte r call line rest b hp hb hline => exact hset r _ fun e => absurd e (hnone hp)
  | deliver r line f text value hp hline hframe hauth ha hbody hvalue hsize =>
    exact hset r _ fun e => absurd e (hnone hp)
  | confirm r line f frames bytes i hp hline hframe hauth ha hbody hat =>
    exact hset r _ fun e => absurd e (hnone hp)
  | abort r p hp => exact hset r _ fun e => absurd e (hnone hp)

/-- Run: a fenced endpoint never changes again, so no call on it succeeds. -/
theorem Run.fenced (h : Run (Step limits hash) w v) {q : Role} (hq : (w.side q).Fenced) :
    v.side q = w.side q := by
  refine Run.invariant (I := fun u => u.side q = w.side q) ?_ rfl h
  intro a b ha hstep
  have hfenced : (a.side q).Fenced := by
    rw [ha]
    exact hq
  exact (hstep.fenced hfenced).trans ha

/-- The calls of an endpoint that succeeded, by kind. -/
def Endpoint.successes (e : Endpoint) : Nat × Nat × Nat × Nat :=
  (e.sent, e.received, e.ackSent, e.ackReceived)

/-- The paired peer channel. In every reachable pair the payloads returned are the first of
those handed to the writer; every acknowledgement returned is a prefix the destination
has received; the window, the frame counts and the wire bytes keep their limits; and an
endpoint whose call fails or is cancelled where it waits never succeeds again. -/
theorem channel_safe (limits : Limits) (hash : String) (w : World)
    (h : Run (Step limits hash) World.initial w) :
    w.delivered <+: w.offered
    ∧ (∀ a ∈ w.confirmed, a.1 ≤ (w.side .destination).received
      ∧ a.2 = payloadBytes (w.delivered.take a.1))
    ∧ (w.side .destination).received = w.delivered.length
    ∧ (∀ r, (w.side r).unacked.length ≤ limits.maxInflightFrames
      ∧ (w.side r).lastAckSent ≤ (w.side r).received
      ∧ (w.side r).received - (w.side r).lastAckSent ≤ limits.maxInflightFrames
      ∧ (w.side r).sent ≤ limits.maxFrames ∧ (w.side r).received ≤ limits.maxFrames
      ∧ (w.side r).used ≤ limits.maxWireBytes)
    ∧ ∀ r p, (w.side r).pending = some p → ∀ v,
      Run (Step limits hash) (w.set r (w.side r).abort) v →
        (v.side r).pending = none ∧ (v.side r).successes = (w.side r).successes := by
  have hi := Inv.run h
  refine ⟨hi.delivered, ?_, hi.received, ?_, ?_⟩
  · intro a ha
    obtain ⟨hle, hbytes⟩ := hi.confirmed a ha
    exact ⟨by rw [hi.received]; exact hle, hbytes⟩
  · intro r
    have hb := hi.bounded r
    exact ⟨hb.unacked, hb.acked, hb.window, hb.sent, hb.received, hb.wire⟩
  · intro r p hp v hv
    have hup := (hi.bounded r).fenced (by rw [hp]; rfl)
    have hfenced : ((w.set r (w.side r).abort).side r).Fenced := by
      rw [World.set_side]
      exact ⟨hup, rfl⟩
    rw [Run.fenced hv hfenced, World.set_side]
    exact ⟨rfl, rfl⟩

end

/-! ## A pair on two frames -/

/-- The payload as text: the base64 of the byte one, else a plain spelling. -/
def plainText (v : Payload) : String :=
  if v = [1] then "AQ==" else String.ofList ('-' :: v.map fun b => Char.ofNat b.toNat)

/-- Reads `plainText` back. -/
def plainBytes (s : String) : Option Payload :=
  if s = "AQ==" then some [1] else some (s.toList.tail.map fun c => UInt8.ofNat c.toNat)

theorem plainBytes_plainText (v : Payload) : plainBytes (plainText v) = some v := by
  unfold plainText
  by_cases hv : v = [1]
  · rw [if_pos hv, plainBytes, if_pos rfl, hv]
  · have hne : String.ofList ('-' :: v.map fun b => Char.ofNat b.toNat) ≠ "AQ==" := by
      intro h
      have := congrArg String.toList h
      simp at this
    have hchar : ∀ b : UInt8, UInt8.ofNat (Char.ofNat b.toNat).toNat = b := by
      intro b
      have hbyte : ∀ n < 256, UInt8.ofNat (Char.ofNat n).toNat = UInt8.ofNat n := by
        decide +kernel
      rw [hbyte b.toNat b.toNat_lt, UInt8.ofNat_toNat]
    have hmap : v.map (fun b => UInt8.ofNat (Char.ofNat b.toNat).toNat) = v :=
      (List.map_congr_left fun b _ => hchar b).trans (List.map_id v)
    rw [if_neg hv, plainBytes, if_neg hne]
    simp only [String.toList_ofList, List.tail_cons, List.map_map, Function.comp_def]
    rw [hmap]

/-- The byte one is sent, acknowledged, and sent again. -/
def firstFrame : Frame := ⟨1, "scope", .source, 1, .data "AQ=="⟩

@[inherit_doc firstFrame]
def ackFrame : Frame := ⟨1, "scope", .destination, 1, .acknowledgement 1 1⟩

@[inherit_doc firstFrame]
def secondFrame : Frame := ⟨1, "scope", .source, 2, .data "AQ=="⟩

/-- A wire that knows three lines. -/
@[reducible]
def sampleWire : Wire where
  encode64 := plainText
  decode64 := plainBytes
  decode64_encode64 := plainBytes_plainText
  decodeLine line :=
    if line = [120, 10] then some firstFrame
    else if line = [121, 10] then some ackFrame
    else if line = [122, 10] then some secondFrame
    else none

attribute [local instance] sampleWire

/-- A pair by its two endpoints. -/
def pair (source destination : Endpoint) (wrote : List Frame) (offered delivered : List Payload)
    (confirmed : List (Nat × Nat)) : World where
  side
    | .source => source
    | .destination => destination
  wrote := wrote
  offered := offered
  delivered := delivered
  confirmed := confirmed

theorem eq_pair (w : World) : w = pair (w.side .source) (w.side .destination) w.wrote w.offered
    w.delivered w.confirmed := by
  obtain ⟨side, wrote, offered, delivered, confirmed⟩ := w
  unfold pair
  congr 1
  funext r
  cases r <;> rfl

/-- The limits of the sample pair. -/
def sampleLimits : Limits := ⟨64, 16, 4, 2⟩

/-- The source after its first frame, and after the acknowledgement. -/
def sourceSent : Endpoint := ⟨.source, 1, 0, 1, 0, 0, 0, 0, [(1, 1)], false, 2, [], none⟩

@[inherit_doc sourceSent]
def sourceConfirmed : Endpoint := ⟨.source, 1, 0, 1, 0, 0, 1, 0, [], false, 4, [], none⟩

/-- The destination after the first frame, and after its acknowledgement. -/
def destinationReceived : Endpoint := ⟨.destination, 0, 1, 0, 1, 0, 0, 0, [], false, 2, [], none⟩

@[inherit_doc destinationReceived]
def destinationConfirmed : Endpoint :=
  ⟨.destination, 0, 1, 0, 1, 1, 0, 1, [], false, 4, [], none⟩

/-- The source suspended in its second `send_data`, the first one confirmed. -/
def sendingSecond : World :=
  pair (sourceConfirmed.suspend (.writing (.sendData [1]) [122, 10] 0)) destinationConfirmed
    [firstFrame, ackFrame, secondFrame] [[1], [1]] [[1]] [(1, 1)]

/-- An endpoint amid a call that reads: the line so far, what is buffered, and the bytes charged. -/
def Endpoint.amid (e : Endpoint) (call : Call) (line buffer : List UInt8) (n : Nat) : Endpoint :=
  { e with
    failed := true
    used := e.used + n
    buffer := buffer
    pending := some (.reading call line) }

/-- A line of two bytes that has come in is read to its end. -/
theorem read_run (w : World) (r : Role) (call : Call) (a : UInt8)
    (hidle : (w.side r).pending = none ∧ (w.side r).failed = false ∧ (w.side r).buffer = [])
    (ha : (w.side r).admits sampleLimits call) (hread : ((w.side r).expects call).isSome = true)
    (hline : a ≠ 10) (hused : (w.side r).used + 2 ≤ sampleLimits.maxWireBytes) :
    Run (Step sampleLimits "scope") w (w.set r ((w.side r).amid call [a, 10] [] 2)) := by
  obtain ⟨hp, hf, hb⟩ := hidle
  have hbegin : (w.side r).suspend (.reading call []) = (w.side r).amid call [] [] 0 := by
    rw [Endpoint.suspend, Endpoint.amid, hb]
    rfl
  have hbudget : [a, 10].length ≤ ((w.side r).amid call [] [] 0).budget sampleLimits 8192 := by
    simp only [Endpoint.budget, Endpoint.amid, sampleLimits, List.length_cons, List.length_nil]
      at hused ⊢
    omega
  have h1 : Step sampleLimits "scope" w (w.set r ((w.side r).amid call [] [] 0)) :=
    hbegin ▸ .beginRead w r call hp hf ha hread
  have h2 : Step sampleLimits "scope" (w.set r ((w.side r).amid call [] [] 0)) (w.set r
      ((w.side r).amid call [] [a, 10] 2)) := by
    have h := @Step.readSome _ sampleLimits "scope" (w.set r ((w.side r).amid call [] [] 0)) r call [] [a, 10]
      (by rw [World.set_side]; rfl) (by rw [World.set_side]; rfl)
      (by rw [World.set_side]; exact hbudget)
    rw [World.set_side, World.set_set] at h
    exact h
  have htake : ∀ line rest b, line.getLast? ≠ some 10 ∧ line.length ≤ 4128 →
      Step sampleLimits "scope" (w.set r ((w.side r).amid call line (b :: rest) 2)) (w.set r
        ((w.side r).amid call (line ++ [b]) rest 2)) := by
    intro line rest b hlast
    have h := @Step.takeByte _ sampleLimits "scope" (w.set r ((w.side r).amid call line (b :: rest) 2)) r call line rest b
      (by rw [World.set_side]; rfl) (by rw [World.set_side]; rfl) hlast
    rw [World.set_side, World.set_set] at h
    exact h
  have h3 := htake [] [10] a (by simp)
  have h4 := htake [a] [] 10 (by simp [hline])
  exact (((Relation.ReflTransGen.single h1).tail h2).tail h3).tail h4

/-- One more step of the sample pair, to the pair it is seen to reach. -/
theorem run_to {u w v v' : World} (h : Run (Step sampleLimits "scope") u w)
    (hs : Step sampleLimits "scope" w v) (hv : v = v') : Run (Step sampleLimits "scope") u v' :=
  h.tail (hv ▸ hs)

/-- The source sends the byte. -/
theorem sent_run : Run (Step sampleLimits "scope") World.initial
    (pair sourceSent (.new .destination) [firstFrame] [[1]] [] []) := by
  have h1 := run_to .refl (.beginWrite World.initial .source (.sendData [1]) firstFrame [120, 10] rfl
    rfl (by decide) rfl rfl (by decide)) (eq_pair _)
  have h2 := run_to h1 (.writeSome _ .source (.sendData [1]) [120, 10] 0 2 rfl (by decide))
    (eq_pair _)
  exact run_to h2 (.sendDone _ .source [1] [120, 10] rfl) (eq_pair _)

/-- The destination reads it and acknowledges it. -/
theorem received_run : Run (Step sampleLimits "scope")
    (pair sourceSent (.new .destination) [firstFrame] [[1]] [] [])
    (pair sourceSent destinationConfirmed [firstFrame, ackFrame] [[1]] [[1]] []) := by
  have h1 := read_run (pair sourceSent (.new .destination) [firstFrame] [[1]] [] []) .destination
    .receiveData 120 ⟨rfl, rfl, rfl⟩ (by decide) rfl (by decide) (by decide)
  have h2 := run_to h1 (.deliver _ .destination [120, 10] firstFrame "AQ==" [1] rfl (by decide) rfl
    (List.mem_singleton_self _) (by decide) rfl rfl (by decide)) (eq_pair _)
  have h3 := run_to h2 (.beginWrite _ .destination .acknowledge ackFrame [121, 10] rfl rfl
    (by decide) rfl rfl (by decide)) (eq_pair _)
  have h4 := run_to h3 (.writeSome _ .destination .acknowledge [121, 10] 0 2 rfl (by decide))
    (eq_pair _)
  exact run_to h4 (.acknowledgeDone _ .destination [121, 10] rfl) (eq_pair _)

/-- The source reads the acknowledgement, and begins to send another byte. -/
theorem confirmed_run : Run (Step sampleLimits "scope")
    (pair sourceSent destinationConfirmed [firstFrame, ackFrame] [[1]] [[1]] []) sendingSecond := by
  have h1 := read_run (pair sourceSent destinationConfirmed [firstFrame, ackFrame] [[1]] [[1]] [])
    .source .receiveAcknowledgement 121 ⟨rfl, rfl, rfl⟩ (by decide) rfl (by decide) (by decide)
  have h2 := run_to h1 (.confirm _ .source [121, 10] ackFrame 1 1 0 rfl (by decide) rfl
    (List.mem_cons_of_mem _ (List.mem_singleton_self _)) (by decide) rfl rfl) (eq_pair _)
  exact run_to h2 (.beginWrite _ .source (.sendData [1]) secondFrame [122, 10] rfl rfl (by decide)
    rfl rfl (by decide)) (eq_pair _)

/-- The byte that was sent is delivered and confirmed; the second call is cancelled with nothing
written, and the source never succeeds again. -/
theorem channel_safe_cancelled :
    sendingSecond.delivered <+: sendingSecond.offered
    ∧ (∀ a ∈ sendingSecond.confirmed, a.1 ≤ (sendingSecond.side .destination).received
      ∧ a.2 = payloadBytes (sendingSecond.delivered.take a.1))
    ∧ (sendingSecond.side .source).used ≤ 64
    ∧ ∀ v, Run (Step sampleLimits "scope")
        (sendingSecond.set .source (sendingSecond.side .source).abort) v →
      (v.side .source).pending = none ∧ (v.side .source).successes = (1, 0, 0, 1) := by
  obtain ⟨hdelivered, hconfirmed, -, hbounds, hfenced⟩ := channel_safe sampleLimits "scope"
    sendingSecond ((sent_run.trans received_run).trans confirmed_run)
  exact ⟨hdelivered, hconfirmed, (hbounds .source).2.2.2.2.2, hfenced .source _ rfl⟩

end Eef.Node.PeerChannel
