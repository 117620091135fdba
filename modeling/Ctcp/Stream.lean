/-
  The byte streams of a connection, seen from one end.

  `inputBytes` is what `ctcp_read` has obtained from `conn_input`, `outputBytes` what has been
  handed to `conn_output`.  A peer that sends the stream `S` puts slices of it into its segments:
  the byte at offset `off` has sequence number `1 + off`, modulo 2^32 (`IsSlice`).

  `Receives S` is what such a peer may rely on while the receiver is in `DATA_TRANSFER`: the output
  is a prefix of `S`, and `ackno` is the sequence number of the next byte.  It is kept as long as
  no segment leaves a gap, since `DATA_TRANSFER` accepts nothing older than `ackno`: what is used
  up then starts exactly there (`slice_next`).
-/
import Ctcp.Guards

set_option linter.unusedVariables false

namespace Ctcp

open Runs History

/-! ## Streams in a trace -/

/-- The data of a segment in host order, as `ctcp_output` hands them to `conn_output`. -/
def payload (segment : CtcpSegment) : List UInt8 := segment.data.take (datalen segment).toNat

/-- The payload of a data segment, on arrival. -/
theorem payload_dataSegment (seqno ackno : UInt32) {buffer : List UInt8}
    (hle : buffer.length ≤ maxSegDataSize) :
    payload (received (dataSegment seqno ackno buffer)) = buffer := by
  have hsize : maxSegDataSize = 1440 := rfl
  have hdatalen : (datalen (received (dataSegment seqno ackno buffer))).toNat = buffer.length := by
    rw [datalen_dataSegment _ _ hle, UInt32.toNat_ofNat']
    omega
  rw [payload, hdatalen, received_data, dataSegment_data, List.take_length]

/-- The bytes that `conn_input` returned with this event. -/
def Event.inputs : Event → List UInt8
  | .input (some bytes) => bytes
  | _ => []

/-- The bytes that were handed to `conn_output` with this event. -/
def Event.outputs : Event → List UInt8
  | .output segment _ => payload segment
  | _ => []

attribute [simp] Event.inputs Event.outputs

/-- All bytes obtained from `conn_input`. -/
def inputBytes (h : List Event) : List UInt8 := h.flatMap Event.inputs

/-- All bytes handed to `conn_output`. -/
def outputBytes (h : List Event) : List UInt8 := h.flatMap Event.outputs

@[simp] theorem inputBytes_append (h es : List Event) :
    inputBytes (h ++ es) = inputBytes h ++ inputBytes es := by simp [inputBytes]

@[simp] theorem outputBytes_append (h es : List Event) :
    outputBytes (h ++ es) = outputBytes h ++ outputBytes es := by simp [outputBytes]

@[simp] theorem outputBytes_nil : outputBytes [] = [] := rfl

@[simp] theorem outputBytes_cons (e : Event) (es : List Event) :
    outputBytes (e :: es) = e.outputs ++ outputBytes es := by simp [outputBytes]

@[simp] theorem inputBytes_nil : inputBytes [] = [] := rfl

@[simp] theorem inputBytes_cons (e : Event) (es : List Event) :
    inputBytes (e :: es) = e.inputs ++ inputBytes es := by simp [inputBytes]

/-! ## Slices -/

/-- The segment carries bytes of `S` from offset `off` on, and nothing else. -/
structure SliceAt (S : List UInt8) (off : Nat) (segment : CtcpSegment) : Prop where
  seqno : segment.seqno = UInt32.ofNat (1 + off)
  inside : off < S.length
  whole : (datalen segment).toNat ≤ segment.data.length
  bytes : payload segment <+: S.drop off

/-- A segment with data of the stream `S`. -/
def IsSlice (S : List UInt8) (segment : CtcpSegment) : Prop := ∃ off, SliceAt S off segment

theorem SliceAt.length {S : List UInt8} {off : Nat} {segment : CtcpSegment}
    (h : SliceAt S off segment) : (payload segment).length = (datalen segment).toNat := by
  rw [payload, List.length_take]
  have hwhole := h.whole
  omega

/-- More of the stream is sent. -/
theorem IsSlice.mono {S S' : List UInt8} {segment : CtcpSegment} (h : IsSlice S segment)
    (hS : S <+: S') : IsSlice S' segment := by
  obtain ⟨off, hslice⟩ := h
  obtain ⟨rest, rfl⟩ := hS
  have hinside := hslice.inside
  refine ⟨off, hslice.seqno, ?_, hslice.whole, ?_⟩
  · rw [List.length_append]
    omega
  · rw [List.drop_append_of_le_length (Nat.le_of_lt hinside)]
    exact hslice.bytes.trans (List.prefix_append _ _)

/-- Offsets below 2^32 have different sequence numbers. -/
theorem offset_inj {m n : Nat} (hm : m < 2 ^ 32) (hn : n < 2 ^ 32)
    (h : UInt32.ofNat (1 + m) = UInt32.ofNat (1 + n)) : m = n := by
  have hnat := congrArg UInt32.toNat h
  rw [UInt32.toNat_ofNat', UInt32.toNat_ofNat'] at hnat
  omega

/-- The sequence number after `n` more bytes. -/
theorem ofNat_next (m n : Nat) :
    UInt32.ofNat (1 + m) + UInt32.ofNat n = UInt32.ofNat (1 + (m + n)) := by
  rw [← UInt32.ofNat_add, Nat.add_assoc]

/-- **A slice that starts where the output ends** continues it. -/
theorem slice_next {S out : List UInt8} {segment : CtcpSegment} (hS : S.length < 2 ^ 32)
    (hout : out <+: S) (hslice : IsSlice S segment)
    (hseq : segment.seqno = UInt32.ofNat (1 + out.length)) :
    out ++ payload segment <+: S ∧
      segment.seqno + datalen segment
        = UInt32.ofNat (1 + (out ++ payload segment).length) := by
  obtain ⟨off, h⟩ := hslice
  have hinside := h.inside
  have hle := hout.length_le
  have hoff : off = out.length := by
    refine offset_inj (by omega) (by omega) ?_
    rw [← h.seqno, hseq]
  constructor
  · obtain ⟨rest, rfl⟩ := hout
    have hbytes := h.bytes
    rw [hoff, List.drop_left] at hbytes
    exact (List.prefix_append_right_inj out).mpr hbytes
  · rw [hseq, List.length_append, h.length, ← ofNat_next, UInt32.ofNat_toNat]

/-! ## The receiver -/

/-- The peer sends slices of the stream `S`, and its FIN after them. -/
def FromPeer (S : List UInt8) : Call → Prop
  | .receive segment len _ =>
    Valid segment len →
      if (received segment).flags &&& FIN ≠ 0 then
        (received segment).seqno = UInt32.ofNat (1 + S.length)
      else
        (received segment).len ≠ UInt16.ofNat segmentHdrSize → IsSlice S (received segment)
  | _ => True

theorem FromPeer.slice {S : List UInt8} {segment : CtcpSegment} {len : Nat} {env : Env}
    (h : FromPeer S (.receive segment len env)) (hvalid : Valid segment len)
    (hfin : (received segment).flags &&& FIN = 0)
    (hlen : (received segment).len ≠ UInt16.ofNat segmentHdrSize) :
    IsSlice S (received segment) := by
  have hpeer := h hvalid
  rw [if_neg (fun hne => hne hfin)] at hpeer
  exact hpeer hlen

theorem FromPeer.fin {S : List UInt8} {segment : CtcpSegment} {len : Nat} {env : Env}
    (h : FromPeer S (.receive segment len env)) (hvalid : Valid segment len)
    (hfin : (received segment).flags &&& FIN ≠ 0) :
    (received segment).seqno = UInt32.ofNat (1 + S.length) := by
  have hpeer := h hvalid
  rwa [if_pos hfin] at hpeer

/-- The receiver has output a prefix of `S` and expects the byte after it. -/
structure Receives (S : List UInt8) (state : CtcpState) : Prop where
  output : outputBytes state.trace <+: S
  next : state.ackno = UInt32.ofNat (1 + (outputBytes state.trace).length)
  kept : ∀ segment, state.receivedSegment = .live segment →
    IsSlice S segment ∧ state.ackno ≤ segment.seqno

theorem receives_init (S : List UInt8) (cfg : CtcpConfig) : Receives S (ctcpInit cfg) :=
  ⟨by simp [ctcpInit], by simp [ctcpInit], by simp [ctcpInit]⟩

/-- A call that outputs nothing. -/
theorem Receives.quiet {S : List UInt8} {state state' : CtcpState} {es : List Event}
    (h : Receives S state) (htrace : state'.trace = state.trace ++ es)
    (hes : outputBytes es = []) (hack : state'.ackno = state.ackno)
    (hseg : state'.receivedSegment = state.receivedSegment) : Receives S state' := by
  have hsame : outputBytes state'.trace = outputBytes state.trace := by
    rw [htrace, outputBytes_append, hes, List.append_nil]
  refine ⟨hsame ▸ h.output, ?_, ?_⟩
  · rw [hack, hsame]
    exact h.next
  · rw [hack, hseg]
    exact h.kept

theorem Receives.mono {S S' : List UInt8} {state : CtcpState} (h : Receives S state)
    (hS : S <+: S') : Receives S' state := by
  refine ⟨h.output.trans hS, h.next, fun segment hseg => ?_⟩
  obtain ⟨hslice, hge⟩ := h.kept segment hseg
  exact ⟨hslice.mono hS, hge⟩

theorem receives_output {S : List UInt8} {env : Env} {state state' : CtcpState}
    (hS : S.length < 2 ^ 32) (h : Receives S state)
    (hgap : ∀ segment, state.receivedSegment = .live segment → Consumes env state segment →
      segment.seqno ≤ state.ackno)
    (hout : OutputOutcome env state state') (hlive : state'.conn.deleteMe = false) :
    Receives S state' := by
  cases hout with
  | noRoom => exact ⟨h.output, h.next, by simp⟩
  | kept => exact h
  | empty segment hseg hroom hlen =>
    have hle := hgap segment hseg ⟨hroom, by simp [hlen], Or.inl hlen⟩
    have hseq : segment.seqno = state.ackno := UInt32.le_antisymm hle (h.kept segment hseg).2
    exact ⟨h.output, hseq.trans h.next, by simp⟩
  | failed => cases hlive
  | delivered segment hseg hroom hlen hfits hwritten =>
    have hle := hgap segment hseg ⟨hroom, hfits, Or.inr hwritten⟩
    obtain ⟨hslice, hge⟩ := h.kept segment hseg
    have hseq : segment.seqno = state.ackno := UInt32.le_antisymm hle hge
    obtain ⟨hpre, hnext⟩ := slice_next hS h.output hslice (hseq.trans h.next)
    exact ⟨by simpa using hpre, by simpa using hnext, by simp⟩
  | fault => exact h.quiet rfl (by simp) rfl rfl

/-- A segment with data arrives. -/
theorem receives_arrival {S : List UInt8} {state : CtcpState} {segment : CtcpSegment}
    (h : Receives S state) (hslice : IsSlice S segment) (hnew : state.ackno ≤ segment.seqno) :
    Receives S ({ state with receivedSegment := .live segment }.log [.receive segment]) := by
  refine ⟨by simpa using h.output, by simpa using h.next, ?_⟩
  rintro _ ⟨⟩
  exact ⟨hslice, hnew⟩

theorem receives_read {S : List UInt8} {state state' : CtcpState} {input : Option Chunk}
    {sent : Int} (h : Receives S state) (hout : ReadOutcome state input sent state') :
    Receives S state' := by
  cases hout with
  | busy => exact h
  | _ => exact h.quiet rfl (by simp) rfl rfl

theorem receives_timer {S : List UInt8} {state state' : CtcpState} (h : Receives S state)
    (hout : TimerOutcome state state') : Receives S state' := by
  cases hout with
  | expired => exact h.quiet rfl (by simp) rfl rfl
  | running _ _ hout =>
    cases hout with
    | idle => exact ⟨h.output, h.next, h.kept⟩
    | waiting => exact ⟨h.output, h.next, h.kept⟩
    | resent => exact h.quiet rfl (by simp) rfl rfl
    | givenUp => exact h.quiet rfl (by simp) rfl rfl

/-- A segment of an honest peer, as long as the connection stays in `DATA_TRANSFER`. -/
theorem receives_receive {S : List UInt8} {env : Env} {state state' : CtcpState}
    {segment : CtcpSegment} (hS : S.length < 2 ^ 32) (h : Receives S state)
    (hslice : segment.flags &&& FIN = 0 → segment.len ≠ UInt16.ofNat segmentHdrSize →
      IsSlice S segment)
    (hgap : TakesData env state segment → segment.seqno ≤ state.ackno)
    (hout : ReceiveOutcome env state segment state')
    (hlive : state'.conn.deleteMe = false) (hconn : state'.connState = .dataTransfer) :
    Receives S state' := by
  cases hout with
  | stale => exact h.quiet rfl (by simp) rfl rfl
  | passiveUnsent => cases hconn
  | passiveClose => cases hconn
  | pureAck hdata hnew hfin hack hlen =>
    have hle := hgap ⟨hdata, hnew, hfin, hack, Or.inl hlen⟩
    have hseq : segment.seqno = state.ackno := UInt32.le_antisymm hle hnew
    exact h.quiet rfl (by simp) hseq rfl
  | data hdata hnew hfin hack hlen _ hout =>
    refine receives_output hS (receives_arrival h (hslice hfin hlen) hnew) ?_ hout hlive
    rintro _ ⟨⟩ hcons
    exact hgap ⟨hdata, hnew, hfin, hack, Or.inr hcons⟩
  | unflagged => exact h.quiet rfl (by simp) rfl rfl
  | closingFinAck hconn' => cases hconn
  | closingAck hconn' => cases hconn
  | closingFin hconn' => cases hlive
  | lastFin hconn' =>
    rw [show state.connState = .dataTransfer from hconn] at hconn'
    cases hconn'
  | lastAck hconn' => cases hlive
  | ignored hconn' => exact absurd hconn hconn'

end Ctcp
