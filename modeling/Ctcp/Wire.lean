/-
  The segments on the wire: what `_segment_send` puts there and how the receiver reads it.

  Only three kinds of segment are ever built: a bare ACK, a FIN, and data with the ACK flag.  All
  three are `buildSegment` with other arguments; the simp lemmas below read the fields of each
  after the conversion to host order, so that no later proof looks inside `buildSegment`.
-/
import Ctcp.Callbacks

set_option linter.unusedVariables false

namespace Ctcp

theorem length_bytes (segment : CtcpSegment) :
    segment.bytes.length = segment.data.length + segmentHdrSize := by
  simp [CtcpSegment.bytes, le16, le32, segmentHdrSize]

/-! ## The segments a connection sends -/

/-- A segment without data and with the ACK flag. -/
def ackSegment (seqno ackno : UInt32) : CtcpSegment :=
  buildSegment seqno ackno ACK segmentHdrSize []

/-- A FIN. -/
def finSegment (seqno ackno : UInt32) : CtcpSegment :=
  buildSegment seqno ackno FIN segmentHdrSize []

/-- A segment with the bytes `buffer`. -/
def dataSegment (seqno ackno : UInt32) (buffer : List UInt8) : CtcpSegment :=
  buildSegment seqno ackno ACK (buffer.length + segmentHdrSize) buffer

theorem dataSegment_nil (seqno ackno : UInt32) :
    dataSegment seqno ackno [] = ackSegment seqno ackno := rfl

@[simp] theorem ACK_and_FIN : ACK &&& FIN = 0 := by decide
@[simp] theorem FIN_and_ACK : FIN &&& ACK = 0 := by decide
@[simp] theorem ACK_ne_zero : ACK ≠ 0 := by decide
@[simp] theorem FIN_ne_zero : FIN ≠ 0 := by decide

/-! ## Host-order reading of the segments a connection sends -/

/-- The FIN flag of a segment in network order. -/
def isFin (segment : CtcpSegment) : Prop := ntohl segment.flags &&& FIN ≠ 0

/-- The ACK flag of a segment in network order. -/
def isAck (segment : CtcpSegment) : Prop := ntohl segment.flags &&& ACK ≠ 0

instance (segment : CtcpSegment) : Decidable (isFin segment) := by
  unfold isFin; infer_instance

instance (segment : CtcpSegment) : Decidable (isAck segment) := by
  unfold isAck; infer_instance

section Built

variable (seqno ackno flags : UInt32) (len : Nat) (data : List UInt8)

@[simp] theorem ntohl_buildSegment_seqno :
    ntohl (buildSegment seqno ackno flags len data).seqno = seqno := by
  simp only [buildSegment, segmentHton, htonl_htonl]

@[simp] theorem ntohl_buildSegment_ackno :
    ntohl (buildSegment seqno ackno flags len data).ackno = ackno := by
  simp only [buildSegment, segmentHton, htonl_htonl]

@[simp] theorem ntohl_buildSegment_flags :
    ntohl (buildSegment seqno ackno flags len data).flags = flags := by
  simp only [buildSegment, segmentHton, htonl_htonl]

@[simp] theorem ntohs_buildSegment_len :
    ntohs (buildSegment seqno ackno flags len data).len = UInt16.ofNat len := by
  simp only [buildSegment, segmentHton, htons_htons]

@[simp] theorem buildSegment_data :
    (buildSegment seqno ackno flags len data).data = data.take (len - segmentHdrSize) := by
  simp only [buildSegment, segmentHton]

end Built

section Sent

variable (seqno ackno : UInt32) (buffer : List UInt8)

@[simp] theorem ackSegment_seqno : ntohl (ackSegment seqno ackno).seqno = seqno := by
  simp [ackSegment]
@[simp] theorem ackSegment_ackno : ntohl (ackSegment seqno ackno).ackno = ackno := by
  simp [ackSegment]
@[simp] theorem ackSegment_data : (ackSegment seqno ackno).data = [] := rfl
@[simp] theorem finSegment_seqno : ntohl (finSegment seqno ackno).seqno = seqno := by
  simp [finSegment]
@[simp] theorem finSegment_ackno : ntohl (finSegment seqno ackno).ackno = ackno := by
  simp [finSegment]
@[simp] theorem finSegment_data : (finSegment seqno ackno).data = [] := rfl
@[simp] theorem dataSegment_seqno : ntohl (dataSegment seqno ackno buffer).seqno = seqno := by
  simp [dataSegment]
@[simp] theorem dataSegment_ackno : ntohl (dataSegment seqno ackno buffer).ackno = ackno := by
  simp [dataSegment]
@[simp] theorem dataSegment_data : (dataSegment seqno ackno buffer).data = buffer := by
  simp [dataSegment]

@[simp] theorem isFin_ackSegment : ¬ isFin (ackSegment seqno ackno) := by
  simp [isFin, ackSegment]
@[simp] theorem isFin_finSegment : isFin (finSegment seqno ackno) := by
  simp [isFin, finSegment]
@[simp] theorem isFin_dataSegment : ¬ isFin (dataSegment seqno ackno buffer) := by
  simp [isFin, dataSegment]
@[simp] theorem isAck_ackSegment : isAck (ackSegment seqno ackno) := by
  simp [isAck, ackSegment]
@[simp] theorem isAck_finSegment : ¬ isAck (finSegment seqno ackno) := by
  simp [isAck, finSegment]
@[simp] theorem isAck_dataSegment : isAck (dataSegment seqno ackno buffer) := by
  simp [isAck, dataSegment]

end Sent

/-! ## What the receiver sees -/

/-- The segment `ctcp_receive` works on: in host order, with the checksum cleared. -/
def received (segment : CtcpSegment) : CtcpSegment :=
  segmentNtoh { segment with cksum := 0 }

theorem received_seqno (segment : CtcpSegment) :
    (received segment).seqno = ntohl segment.seqno := rfl
theorem received_data (segment : CtcpSegment) :
    (received segment).data = segment.data := rfl

/-- The length field of a data segment, on arrival. -/
@[simp] theorem received_dataSegment_len (seqno ackno : UInt32) (buffer : List UInt8) :
    (received (dataSegment seqno ackno buffer)).len
      = UInt16.ofNat (buffer.length + segmentHdrSize) := by
  show ntohs (dataSegment seqno ackno buffer).len = _
  simp [dataSegment]

/-- The number of data bytes of a data segment, on arrival. -/
theorem datalen_dataSegment (seqno ackno : UInt32) {buffer : List UInt8}
    (hle : buffer.length ≤ maxSegDataSize) :
    datalen (received (dataSegment seqno ackno buffer)) = UInt32.ofNat buffer.length := by
  have hsize : maxSegDataSize = 1440 := rfl
  have hhdr : segmentHdrSize = 20 := rfl
  have hlen : (UInt16.ofNat (buffer.length + segmentHdrSize)).toUInt32
      = UInt32.ofNat (buffer.length + segmentHdrSize) := by
    apply UInt32.toNat_inj.mp
    rw [UInt16.toNat_toUInt32, UInt16.toNat_ofNat', UInt32.toNat_ofNat']
    omega
  rw [datalen, received_dataSegment_len, hlen, UInt32.ofNat_add, UInt32.add_sub_cancel]

/-- `ctcp_receive` goes on with the segment. -/
def Valid (segment : CtcpSegment) (len : Nat) : Prop :=
  isSegmentValid segment (UInt16.ofNat len) = true

instance (segment : CtcpSegment) (len : Nat) : Decidable (Valid segment len) :=
  inferInstanceAs (Decidable (_ = true))

/-- A segment that arrives whole is valid exactly when its checksum is right. -/
theorem valid_iff_cksum {segment : CtcpSegment} {len : Nat} (hlt : len < 2 ^ 16)
    (hlen : ntohs segment.len = UInt16.ofNat len) :
    Valid segment len ↔
      cksum (({ segment with cksum := 0 } : CtcpSegment).bytes.take len) = segment.cksum := by
  have hle : ¬ UInt16.ofNat len > UInt16.ofNat len := UInt16.lt_irrefl _
  have hnat : (UInt16.ofNat len).toNat = len := by
    rw [UInt16.toNat_ofNat']
    omega
  unfold Valid isSegmentValid
  rw [hlen, if_neg hle, hnat]
  exact beq_iff_eq

/-- **What `_segment_send` builds is valid** when it arrives whole: both ends compute the checksum
    over the same bytes, with the checksum field cleared. -/
theorem valid_buildSegment (seqno ackno flags : UInt32) {len : Nat} (data : List UInt8)
    (hlen : len < 2 ^ 16) : Valid (buildSegment seqno ackno flags len data) len := by
  rw [valid_iff_cksum hlen (ntohs_buildSegment_len ..)]
  simp only [buildSegment, segmentHton]

end Ctcp
