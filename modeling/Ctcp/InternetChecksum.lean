/-
  `cksum` is the Internet checksum.

  For every buffer that a `uint16_t` length can name: the 32-bit accumulator of the first loop is
  exact after each word, two rounds end the second loop, and the result is the complement of the
  ones' complement sum, with `0xffff` for `0` (`cksumSound`).  So a result that is stored where the
  buffer was zero makes the sum of the whole buffer `0xffff` (`verifies_stored`), which is how the
  headers that are built with it verify (`headersVerify`).
-/
import Ctcp.Checksum
import Ctcp.PacketBounds

set_option linter.unusedVariables false

namespace Ctcp

open OnesSum Packet

/-! ## The two loops -/

/-- `sum` when both loops of `cksum` are over. -/
def foldedSum (data : List UInt8) : UInt32 := cksumFold 3 (cksumLoop data 0)

/-- The sum of a buffer that holds its own checksum. -/
def Verifies (data : List UInt8) : Prop := foldedSum data = 0xffff

/-- The first loop goes on where it stands after whole words. -/
theorem cksumLoop_append {front : List UInt8} (h : front.length % 2 = 0) (back : List UInt8)
    (sum : UInt32) : cksumLoop (front ++ back) sum = cksumLoop back (cksumLoop front sum) := by
  induction front, sum using cksumLoop.induct with
  | case1 hi lo data sum ih =>
    have hrest : data.length % 2 = 0 := by
      simp only [List.length_cons] at h
      omega
    exact ih hrest
  | case2 hi sum => simp at h
  | case3 sum => rfl

theorem cksumFold_eq_zero (fuel : Nat) (sum : UInt32) :
    (cksumFold fuel sum).toNat = 0 ↔ sum.toNat = 0 := by
  induction fuel generalizing sum with
  | zero => exact Iff.rfl
  | succ fuel ih =>
    rw [cksumFold]
    split
    · rw [ih, toNat_round, fold_eq_zero]
    · exact Iff.rfl

theorem toNat_cksumLoop_zero {data : List UInt8} (h : data.length < 2 ^ 16) :
    (cksumLoop data 0).toNat = wordSum data := by
  have hle := wordSum_le data
  have hzero : (0 : UInt32).toNat = 0 := rfl
  rw [toNat_cksumLoop (by omega), hzero, Nat.zero_add]

/-- **The loops compute the ones' complement sum.** -/
theorem toNat_foldedSum {data : List UInt8} (h : data.length < 2 ^ 16) :
    (foldedSum data).toNat = onesSum data := by
  obtain ⟨hle, hmod, hzero⟩ := onesSum_spec data
  have hloop := toNat_cksumLoop_zero h
  refine eq_of_residue (cksumFold_le _) hle ?_ ?_
  · rw [foldedSum, cksumFold_mod, hloop, hmod]
  · rw [foldedSum, cksumFold_eq_zero, hloop, hzero]

/-- **The checksum, in host order.** -/
theorem toNat_ntohs_cksum {data : List UInt8} (h : data.length < 2 ^ 16) :
    (ntohs (cksum data)).toNat = 65535 - wordSum data % 65535 := by
  rw [cksum_eq h]
  show (htons (htons _)).toNat = _
  rw [htons_htons, UInt16.toNat_ofNat']
  omega

/-! ## A field that holds the checksum -/

theorem toNat_htons (x : UInt16) : (htons x).toNat = 256 * (x.toNat % 256) + x.toNat / 256 := by
  have hlt := x.toNat_lt
  have hleft : (x <<< 8).toNat = (x.toNat % 256) <<< 8 := by
    rw [UInt16.toNat_shiftLeft, Nat.shiftLeft_eq, Nat.shiftLeft_eq]
    show x.toNat * 256 % 65536 = x.toNat % 256 * 256
    omega
  have hright : (x >>> 8).toNat = x.toNat / 256 := by
    rw [UInt16.toNat_shiftRight]
    exact Nat.shiftRight_eq_div_pow x.toNat 8
  have hhigh : x.toNat / 256 < 2 ^ 8 := by omega
  rw [htons, UInt16.toNat_or, hleft, hright, ← Nat.shiftLeft_add_eq_or_of_lt hhigh,
    Nat.shiftLeft_eq]
  omega

/-- The word that a field spells. -/
theorem wordSum_le16 (x : UInt16) : wordSum (le16 x) = (ntohs x).toNat := by
  show 256 * x.toUInt8.toNat + (x >>> 8).toUInt8.toNat + 0 = _
  rw [toNat_low16, toNat_high16, toNat_htons]
  rfl

/-- A buffer with a field in it. -/
theorem wordSum_field {front : List UInt8} (heven : front.length % 2 = 0) (x : UInt16)
    (back : List UInt8) :
    wordSum (front ++ le16 x ++ back) = wordSum front + (ntohs x).toNat + wordSum back := by
  have heven' : (front ++ le16 x).length % 2 = 0 := by
    rw [List.length_append, length_le16]
    omega
  rw [wordSum_append heven', wordSum_append heven, wordSum_le16]

/-- **A stored checksum verifies**, in a field at an even offset that was zero. -/
theorem verifies_stored {front : List UInt8} (heven : front.length % 2 = 0) (back : List UInt8)
    (hlen : (front ++ le16 0 ++ back).length < 2 ^ 16) :
    Verifies (front ++ le16 (cksum (front ++ le16 0 ++ back)) ++ back) := by
  have hvalue := toNat_ntohs_cksum hlen
  have hzero : (ntohs 0).toNat = 0 := rfl
  rw [wordSum_field heven, hzero] at hvalue
  generalize cksum (front ++ le16 0 ++ back) = sum at hvalue ⊢
  have hlen' : (front ++ le16 sum ++ back).length < 2 ^ 16 := by
    simp only [List.length_append, length_le16] at hlen ⊢
    exact hlen
  obtain ⟨hle, hmod, hne⟩ := onesSum_spec (front ++ le16 sum ++ back)
  rw [wordSum_field heven, hvalue] at hmod hne
  have hfull : onesSum (front ++ le16 sum ++ back) = 65535 := by omega
  apply UInt32.toNat_inj.mp
  rw [toNat_foldedSum hlen', hfull]
  rfl

/-- What is summed over the header fields of a TCP packet (`cksum_tcp`). -/
def pseudoBytes (packet : Datagram) (len : UInt16) : List UInt8 :=
  le32 packet.ip.saddr ++ le32 packet.ip.daddr ++ [0, 6] ++ le16 (htons (tcpHdrSize + len))
    ++ packet.tcp.bytes ++ packet.payload.take len.toNat

/-- A checksum field, taken out of the bytes around it. -/
theorem verifies_field {bytes : UInt16 → List UInt8} {front back : List UInt8}
    (hbytes : ∀ sum, bytes sum = front ++ le16 sum ++ back) (heven : front.length % 2 = 0)
    (hlen : (bytes 0).length < 2 ^ 16) : Verifies (bytes (cksum (bytes 0))) := by
  rw [hbytes 0] at hlen ⊢
  rw [hbytes]
  exact verifies_stored heven back hlen

/-! ## The headers -/

/-- An IP header with the checksum of `create_datagram`. -/
theorem verifies_ip (hdr : IpHdr) :
    Verifies ({ hdr with check := cksum ({ hdr with check := 0 } : IpHdr).bytes } : IpHdr).bytes := by
  have hbytes : ∀ sum, ({ hdr with check := sum } : IpHdr).bytes
      = ([hdr.ihl ||| (hdr.version <<< 4), hdr.tos] ++ le16 hdr.totLen ++ le16 hdr.id
          ++ le16 hdr.fragOff ++ [hdr.ttl, hdr.protocol])
        ++ le16 sum ++ (le32 hdr.saddr ++ le32 hdr.daddr) := by
    intro sum
    simp only [IpHdr.bytes, List.append_assoc]
  have hlength : ({ hdr with check := 0 } : IpHdr).bytes.length < 2 ^ 16 := by
    rw [hbytes]
    simp only [List.length_append, length_le16, length_le32, List.length_cons, List.length_nil]
    omega
  have hfield := verifies_field hbytes (by simp [length_le16]) hlength
  exact hfield

/-- A TCP packet with the checksum of `cksum_tcp`. -/
theorem verifies_tcp (packet : Datagram) {len : UInt16} (hlen : len.toNat ≤ maxSegDataSize) :
    Verifies (pseudoBytes { packet with tcp.sum := cksumTcp packet.clearSum len } len) := by
  have hmax : maxSegDataSize = 1440 := rfl
  have hbytes : ∀ sum, pseudoBytes { packet with tcp.sum := sum } len
      = (le32 packet.ip.saddr ++ le32 packet.ip.daddr ++ ([0, 6] : List UInt8)
          ++ le16 (htons (tcpHdrSize + len)) ++ le16 packet.tcp.sport ++ le16 packet.tcp.dport
          ++ le32 packet.tcp.seq ++ le32 packet.tcp.ack
          ++ [packet.tcp.off <<< 4, packet.tcp.flags] ++ le16 packet.tcp.win)
        ++ le16 sum ++ (le16 packet.tcp.urp ++ packet.payload.take len.toNat) := by
    intro sum
    simp only [pseudoBytes, TcpHdr.bytes, List.append_assoc]
  have hlength : (pseudoBytes { packet with tcp.sum := 0 } len).length < 2 ^ 16 := by
    rw [hbytes]
    simp only [List.length_append, length_le16, length_le32, List.length_cons, List.length_nil,
      List.length_take]
    omega
  have hfield := verifies_field hbytes (by simp [length_le16, length_le32]) hlength
  exact hfield

/-- A segment with the checksum of `_segment_send`. -/
theorem verifies_ctcp (segment : CtcpSegment) {len : Nat} (hle : segmentHdrSize ≤ len)
    (hlt : len < 2 ^ 16) :
    Verifies (({ segment with
      cksum := cksum (({ segment with cksum := 0 } : CtcpSegment).bytes.take len) } :
        CtcpSegment).bytes.take len) := by
  have hhdr : segmentHdrSize = 20 := rfl
  have hbytes : ∀ sum, ({ segment with cksum := sum } : CtcpSegment).bytes.take len
      = (le32 segment.seqno ++ le32 segment.ackno ++ le16 segment.len ++ le16 segment.pad
          ++ le32 segment.flags ++ le16 segment.window)
        ++ le16 sum ++ segment.data.take (len - segmentHdrSize) := by
    intro sum
    rw [CtcpSegment.bytes, List.take_append, List.take_of_length_le]
    · simp [length_le16, length_le32, hhdr]
    · simp [length_le16, length_le32]
      omega
  have hlength : (({ segment with cksum := 0 } : CtcpSegment).bytes.take len).length < 2 ^ 16 := by
    rw [List.length_take]
    omega
  have hfield := verifies_field hbytes (by simp [length_le16, length_le32]) hlength
  exact hfield

/-- **The headers verify**: those of a packet without data, of a segment on its way into a packet,
    and of a segment that is sent. -/
structure HeadersVerify : Prop where
  ip : ∀ (srcIp dstIp : UInt32) (len : UInt16), Verifies (createDatagram srcIp dstIp len).ip.bytes
  tcp : ∀ (config : Config) (dst : SeqConn) (flags : UInt8),
    Verifies (pseudoBytes (createTcpSeg config dst flags).1 0)
  converted : ∀ (config : Config) (runProgram unixSocket : Bool) (dst : SeqConn)
    (segment : CtcpSegment) (len : Nat), Whole segment len → segment.cksum = rightSum segment →
    Verifies (pseudoBytes (convertToDatagram config runProgram unixSocket dst segment len)
      (UInt16.ofNat segment.data.length))
  ctcp : ∀ (seqno ackno flags : UInt32) (len : Nat) (data : List UInt8), segmentHdrSize ≤ len →
    len < 2 ^ 16 → Verifies ((buildSegment seqno ackno flags len data).bytes.take len)

theorem verifies_converted (config : Config) (runProgram unixSocket : Bool) (dst : SeqConn)
    {segment : CtcpSegment} {len : Nat} (h : Whole segment len)
    (hsum : segment.cksum = rightSum segment) :
    Verifies (pseudoBytes (convertToDatagram config runProgram unixSocket dst segment len)
      (UInt16.ofNat segment.data.length)) := by
  have hle : (UInt16.ofNat segment.data.length).toNat ≤ maxSegDataSize := by
    have hdata := h.data
    have hmax := h.le
    rw [h.toNat_dataLen]
    omega
  have hright : (convertToDatagram config runProgram unixSocket dst segment len).tcp.sum
      = cksumTcp (convertToDatagram config runProgram unixSocket dst segment len).clearSum
          (UInt16.ofNat segment.data.length) := by
    rw [← h.dataLen]
    simp only [convertToDatagram, Datagram.clearSum, h.cksum_take, hsum, UInt16.sub_self,
      UInt16.add_zero]
  generalize convertToDatagram config runProgram unixSocket dst segment len = packet at hright ⊢
  have hverifies := verifies_tcp packet hle
  rw [← hright] at hverifies
  exact hverifies

theorem headersVerify : HeadersVerify where
  ip := fun srcIp dstIp len => verifies_ip _
  tcp := by
    intro config dst flags
    exact verifies_tcp _ (by decide)
  converted := fun config runProgram unixSocket dst segment len h hsum =>
    verifies_converted config runProgram unixSocket dst h hsum
  ctcp := fun seqno ackno flags len data hle hlt => verifies_ctcp _ hle hlt

/-! ## The checksum -/

/-- **What `cksum` computes over `data`.** -/
structure CksumSound (data : List UInt8) : Prop where
  /-- After any number of rounds of the first loop, the accumulator holds the sum of the words so
      far, and the loop goes on from there. -/
  accumulator : ∀ k, wordSum (data.take (2 * k)) < 2 ^ 32 ∧
    (cksumLoop (data.take (2 * k)) 0).toNat = wordSum (data.take (2 * k)) ∧
    cksumLoop data 0 = cksumLoop (data.drop (2 * k)) (cksumLoop (data.take (2 * k)) 0)
  /-- No round of the second loop overflows. -/
  round : ∀ sum : UInt32, ((sum >>> 16) + (sum &&& 0xffff)).toNat = fold sum.toNat
  /-- It ends, with the ones' complement sum. -/
  ends : ∀ fuel, 2 ≤ fuel → cksumFold fuel (cksumLoop data 0) = foldedSum data
  folded : foldedSum data ≤ 0xffff ∧ (foldedSum data).toNat = onesSum data
  value : (ntohs (cksum data)).toNat
    = if internetSum data = 0 then 0xffff else internetSum data
  /-- Two checksums are equal when the sums have the same residue, and only then. -/
  residue : ∀ data' : List UInt8, data'.length < 2 ^ 16 →
    (cksum data = cksum data' ↔ wordSum data % 65535 = wordSum data' % 65535)
  /-- Stored in a field that was zero, it verifies. -/
  stored : ∀ front back, data = front ++ le16 0 ++ back → front.length % 2 = 0 →
    Verifies (front ++ le16 (cksum data) ++ back)

/-- The first loop, cut after `k` rounds. -/
theorem cksumLoop_take (data : List UInt8) (k : Nat) :
    cksumLoop data 0 = cksumLoop (data.drop (2 * k)) (cksumLoop (data.take (2 * k)) 0) := by
  by_cases hk : 2 * k ≤ data.length
  · have heven : (data.take (2 * k)).length % 2 = 0 := by
      rw [List.length_take]
      omega
    have hcut : data.take (2 * k) ++ data.drop (2 * k) = data := List.take_append_drop _ _
    rw [← cksumLoop_append heven, hcut]
  · -- the loop is over before
    rw [List.take_of_length_le (by omega), List.drop_of_length_le (by omega)]
    rfl

theorem toNat_cksum {data : List UInt8} (h : data.length < 2 ^ 16) :
    (ntohs (cksum data)).toNat
      = if internetSum data = 0 then 0xffff else internetSum data := by
  obtain ⟨hle, hmod, hzero⟩ := onesSum_spec data
  rw [toNat_ntohs_cksum h]
  unfold internetSum
  split <;> omega

theorem cksumSound {data : List UInt8} (h : data.length < 2 ^ 16) : CksumSound data where
  accumulator := by
    intro k
    have hlen : (data.take (2 * k)).length < 2 ^ 16 := by
      rw [List.length_take]
      omega
    have hle := wordSum_le (data.take (2 * k))
    exact ⟨by omega, toNat_cksumLoop_zero hlen, cksumLoop_take data k⟩
  round := toNat_round
  ends := by
    intro fuel hfuel
    rw [cksumFold_done hfuel]
    exact (cksumFold_done (by decide) _).symm
  folded := ⟨UInt32.le_iff_toNat_le.mpr (cksumFold_le _), toNat_foldedSum h⟩
  value := toNat_cksum h
  residue := fun data' h' => cksum_inj h h'
  stored := by
    rintro front back rfl heven
    exact verifies_stored heven back h

/-- **`cksum` is the Internet checksum, and the headers that are built with it verify.** -/
theorem cksum_internet :
    (∀ data : List UInt8, data.length < 2 ^ 16 → CksumSound data) ∧ HeadersVerify :=
  ⟨fun data h => cksumSound h, headersVerify⟩

/-- Three bytes, the last of them padded. -/
theorem cksum_internet_three :
    CksumSound [0x12, 0x34, 0x56] ∧ (ntohs (cksum [0x12, 0x34, 0x56])).toNat = 0x97cb :=
  ⟨cksum_internet.1 [0x12, 0x34, 0x56] (by decide), by decide⟩

end Ctcp
