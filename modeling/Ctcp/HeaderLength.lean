/-
  The length field of an accepted segment.

  `_is_segment_valid` checks that the length field is not above the received length, and that the
  checksum over that many bytes is right.  It does not check that the field covers the header.  A
  field below 20 with a matching checksum is accepted, and `datalen` in `ctcp_output` is then a
  difference below zero, that is, a number near 2^32.

  1. **Which accepted segments are sound** (`header_fits_iff`) — all but those.
  2. **What becomes of the others** (`short_kept`) — they fit into no output buffer, so they are
     kept, and with them whatever is in the slot of the outstanding segment.
-/
import Ctcp.Reack

set_option linter.unusedVariables false

namespace Ctcp

open Runs History

/-- The length field, as the receiver reads it. -/
def headerLen (segment : CtcpSegment) : Nat := (ntohs segment.len).toNat

/-- A bare ACK: `ackno` follows the sequence number, and the slot is emptied. -/
def pureAckResult (state : CtcpState) (segment : CtcpSegment) : CtcpState :=
  { state with ackno := segment.seqno, sentSegmentAttr := none }.log [.receive segment]

/-- Data: `received_segment` is set, and `ctcp_output` is called. -/
def dataResult (env : Env) (state : CtcpState) (segment : CtcpSegment) : CtcpState :=
  ctcpOutput env ({ state with receivedSegment := .live segment }.log [.receive segment])

/-- **An accepted segment is read as it should be**: its length field lies between the size of the
    header and the received length, what `datalen` computes is the difference, and with the ACK
    flag the segment is a bare ACK exactly when it carries nothing beyond the header. -/
def HeaderFits (segment : CtcpSegment) (len : Nat) : Prop :=
  Valid segment len →
    segmentHdrSize ≤ headerLen segment ∧ headerLen segment ≤ len ∧
      segmentHdrSize + (datalen (received segment)).toNat = headerLen segment ∧
      ∀ state env, state.conn.deleteMe = false → state.connState = .dataTransfer →
        state.ackno ≤ (received segment).seqno → (received segment).flags &&& FIN = 0 →
        (received segment).flags &&& ACK ≠ 0 →
          step state (.receive segment len env)
            = if headerLen segment ≤ segmentHdrSize then pureAckResult state (received segment)
              else dataResult env state (received segment)

/-- **The length field does not cover the header**, and the checksum over that many bytes is
    right. -/
def ShortHeader (segment : CtcpSegment) (len : Nat) : Prop :=
  headerLen segment < segmentHdrSize ∧ headerLen segment ≤ len % 2 ^ 16 ∧
    cksum (({ segment with cksum := 0 } : CtcpSegment).bytes.take (headerLen segment))
      = segment.cksum

instance (segment : CtcpSegment) (len : Nat) : Decidable (ShortHeader segment len) := by
  unfold ShortHeader; infer_instance

/-! ## Which segments are accepted -/

/-- What `_is_segment_valid` checks. -/
theorem valid_iff (segment : CtcpSegment) (len : Nat) :
    Valid segment len ↔ headerLen segment ≤ len % 2 ^ 16 ∧
      cksum (({ segment with cksum := 0 } : CtcpSegment).bytes.take (headerLen segment))
        = segment.cksum := by
  have hlen : (UInt16.ofNat len).toNat = len % 2 ^ 16 := UInt16.toNat_ofNat'
  unfold Valid isSegmentValid headerLen
  by_cases hlong : ntohs segment.len > UInt16.ofNat len
  · rw [if_pos hlong]
    have hlt := UInt16.lt_iff_toNat_lt.mp hlong
    rw [hlen] at hlt
    exact iff_of_false Bool.false_ne_true (fun h => Nat.not_le.mpr hlt h.1)
  · rw [if_neg hlong]
    have hle := UInt16.le_iff_toNat_le.mp (UInt16.not_lt.mp hlong)
    rw [hlen] at hle
    constructor
    · intro hsum
      exact ⟨hle, beq_iff_eq.mp hsum⟩
    · intro h
      exact beq_iff_eq.mpr h.2

/-! ## The unsigned difference -/

/-- `datalen`, when the length field covers the header. -/
theorem toNat_datalen {segment : CtcpSegment} (h : segmentHdrSize ≤ headerLen segment) :
    segmentHdrSize + (datalen (received segment)).toNat = headerLen segment := by
  have hhdr : segmentHdrSize = 20 := rfl
  have hlt : (ntohs segment.len).toNat < 2 ^ 16 := (ntohs segment.len).toNat_lt
  have hlen : (received segment).len.toUInt32.toNat = headerLen segment :=
    UInt16.toNat_toUInt32 _
  unfold headerLen at hlen h ⊢
  rw [datalen, UInt32.toNat_sub_of_le _ _ ?_, hlen, hhdr]
  · show 20 + ((ntohs segment.len).toNat - 20) = _
    omega
  · rw [UInt32.le_iff_toNat_le, hlen]
    exact h

/-- `datalen`, when it does not: nearly 2^32. -/
theorem toNat_datalen_short {segment : CtcpSegment} (h : headerLen segment < segmentHdrSize) :
    (datalen (received segment)).toNat + segmentHdrSize = 2 ^ 32 + headerLen segment := by
  have hhdr : segmentHdrSize = 20 := rfl
  have hlen : (received segment).len.toUInt32.toNat = headerLen segment :=
    UInt16.toNat_toUInt32 _
  rw [datalen, UInt32.toNat_sub, hlen, hhdr]
  show (2 ^ 32 - 20 + headerLen segment) % 2 ^ 32 + 20 = _
  omega

/-! ## What is accepted, and how it is treated -/

/-- `DATA_TRANSFER`, a segment with the ACK flag that is not old. -/
theorem step_of_ack {env : Env} {state : CtcpState} {segment : CtcpSegment} {len : Nat}
    (hvalid : Valid segment len) (hlive : state.conn.deleteMe = false)
    (hconn : state.connState = .dataTransfer) (hnew : state.ackno ≤ (received segment).seqno)
    (hfin : (received segment).flags &&& FIN = 0)
    (hack : (received segment).flags &&& ACK ≠ 0) :
    step state (.receive segment len env)
      = if (received segment).len = UInt16.ofNat segmentHdrSize then
          pureAckResult state (received segment)
        else dataResult env state (received segment) := by
  have hold : ¬ (received segment).seqno < state.ackno := UInt32.not_lt.mpr hnew
  have hconn' : (state.log [.receive (received segment)]).connState = .dataTransfer := hconn
  have hswitch : receiveSegment env (state.log [.receive (received segment)]) (received segment)
      = receiveDataTransfer env (state.log [.receive (received segment)]) (received segment) := by
    unfold receiveSegment
    rw [hconn']
  rw [step_receive env hlive hvalid, hswitch, receiveDataTransfer, if_neg (by exact hold),
    if_neg (fun h => h hfin), if_pos hack]
  rfl

/-- The test for a bare ACK. -/
theorem len_eq_iff (segment : CtcpSegment) :
    (received segment).len = UInt16.ofNat segmentHdrSize ↔ headerLen segment = segmentHdrSize := by
  constructor
  · intro h
    show (received segment).len.toNat = _
    rw [h]
    rfl
  · intro h
    apply UInt16.toNat_inj.mp
    exact h

/-- **When an accepted segment is read as it should be**: when its length field covers the
    header. -/
theorem header_fits_iff (segment : CtcpSegment) (len : Nat) (hlen : segmentHdrSize ≤ len) :
    HeaderFits segment len ↔ ¬ ShortHeader segment len := by
  constructor
  · rintro h ⟨hshort, hle, hsum⟩
    have hcovers := (h ((valid_iff segment len).mpr ⟨hle, hsum⟩)).1
    omega
  · intro h hvalid
    obtain ⟨hle, hsum⟩ := (valid_iff segment len).mp hvalid
    have hcovers : segmentHdrSize ≤ headerLen segment := by
      apply Nat.le_of_not_lt
      intro hshort
      exact h ⟨hshort, hle, hsum⟩
    refine ⟨hcovers, Nat.le_trans hle (Nat.mod_le len _), toNat_datalen hcovers, ?_⟩
    intro state env hlive hconn hnew hfin hack
    have hbare : (received segment).len = UInt16.ofNat segmentHdrSize ↔
        headerLen segment ≤ segmentHdrSize := by
      rw [len_eq_iff]
      omega
    rw [step_of_ack hvalid hlive hconn hnew hfin hack]
    by_cases htest : (received segment).len = UInt16.ofNat segmentHdrSize
    · rw [if_pos htest, if_pos (hbare.mp htest)]
    · rw [if_neg htest, if_neg (fun h => htest (hbare.mpr h))]

/-- A bare ACK is read as a bare ACK. -/
theorem header_fits_ack : HeaderFits (ackSegment 1 1) 20 :=
  (header_fits_iff (ackSegment 1 1) 20 (by decide)).mpr (by decide)

/-- A segment that announces no bytes at all, not even its header: the checksum over nothing is
    `0xffff`. -/
def emptyHeader : CtcpSegment :=
  { seqno := htonl 1, ackno := htonl 1, len := 0, pad := 0, flags := htonl ACK, window := 0,
    cksum := 0xffff, data := [] }

/-- It is accepted, and `ctcp_output` computes 2^32 - 20 bytes of data. -/
theorem empty_header_accepted :
    Valid emptyHeader 20 ∧ headerLen emptyHeader = 0 ∧
      (datalen (received emptyHeader)).toNat = 2 ^ 32 - 20 ∧ ¬ HeaderFits emptyHeader 20 := by
  have hvalid : Valid emptyHeader 20 := by decide
  refine ⟨hvalid, by decide, by decide, ?_⟩
  intro h
  exact absurd (h hvalid).1 (by decide)

/-! ## What becomes of a short header -/

/-- While it is kept, `conn_drain` finds too little room for it, whenever it calls. -/
theorem short_kept {state : CtcpState} {segment : CtcpSegment} {envs : List Env}
    (hshort : headerLen segment < segmentHdrSize)
    (hseg : state.receivedSegment = .live (received segment))
    (hroom : ∀ env ∈ envs, env.bufspace ≠ 0) : run step state (envs.map .output) = state := by
  induction envs with
  | nil => rfl
  | cons env envs ih =>
    have hlong := toNat_datalen_short hshort
    have hbuf := env.bounded
    have hmax : maxBufSpace = 8192 := rfl
    have hhdr : segmentHdrSize = 20 := rfl
    -- 2^32 less at most 20 is more than any buffer has
    have hnofit : ¬ (datalen (received segment)).toNat ≤ env.bufspace := by omega
    have hstep : step state (.output env) = state := by
      unfold step
      split
      · rfl
      · show ctcpOutput env state = state
        unfold ctcpOutput
        rw [hseg]
        show (if env.bufspace = 0 then _ else if _ then _ else state) = state
        rw [if_neg (hroom env List.mem_cons_self), if_neg hnofit]
    rw [List.map_cons, run, hstep]
    exact ih fun env' hmem => hroom env' (List.mem_cons_of_mem env hmem)

end Ctcp
