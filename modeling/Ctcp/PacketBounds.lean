/-
  The memory that `convert_to_ctcp` touches.

  `do_loop` receives a packet into a buffer of `MAX_PACKET_SIZE` bytes and hands it to
  `convert_to_ctcp`, which takes the number of data bytes from the total length of the IP header,
  whatever the sender wrote there.  Below 40 the 16-bit difference wraps; above the size of the
  buffer the data would lie beyond its end.

  `convertToCtcpAt` and `cksumTcpAt` are `convert_to_ctcp` and `cksum_tcp` on bytes, every access
  to the three objects checked: the receive buffer, the segment of `len` bytes that is allocated,
  and the pseudo-header with its copy of the TCP segment.  In the receive buffer the function
  writes too: it clears `th_sum` before it computes the checksum.

  1. **Bounds** (`convert_in_bounds_iff`) — all accesses are inside their object if and only if the
     total length lies between the headers and the size of the buffer.
  2. **Values** (`convertToCtcpAt_bytes`) — where they are, the bytes are those of `convertToCtcp`.
-/
import Ctcp.RecvFilter
import Ctcp.Checksum
import Ctcp.Lib.Checked

set_option linter.unusedVariables false

namespace Ctcp.Packet

open Checked

/-! ## Fields at an address -/

/-- `TCP_PSEUDOHDR_SIZE`. -/
def tcpPseudohdrSize : UInt16 := 32

/-- A 16-bit field. -/
def load16 (buf : List UInt8) (off : Nat) : Option UInt16 :=
  (read buf off 2).map fun bytes => u16At bytes 0

/-- A 32-bit field. -/
def load32 (buf : List UInt8) (off : Nat) : Option UInt32 :=
  (read buf off 4).map fun bytes => u32At bytes 0

/-- An 8-bit field. -/
def load8 (buf : List UInt8) (off : Nat) : Option UInt8 :=
  (read buf off 1).map fun bytes => bytes.getD 0 0

/-- `cksum(buf, len)`. -/
def cksumAt (buf : List UInt8) (len : UInt16) : Option UInt16 :=
  (read buf 0 len.toNat).map cksum

/-! ## The functions -/

/-- `cksum_tcp`: `packet` is the receive buffer, with the TCP header at 20. -/
def cksumTcpAt (packet : List UInt8) (len : UInt16) : Option UInt16 := do
  let phdr := List.replicate (tcpPseudohdrSize.toNat + len.toNat) 0
  let saddr ← load32 packet 12
  let phdr ← write phdr 0 (le32 saddr)
  let daddr ← load32 packet 16
  let phdr ← write phdr 4 (le32 daddr)
  let phdr ← write phdr 9 [6]
  let phdr ← write phdr 10 (le16 (htons (tcpHdrSize + len)))
  let tcp ← read packet 20 (tcpHdrSize.toNat + len.toNat)
  let phdr ← write phdr 12 tcp
  cksumAt phdr (len + tcpPseudohdrSize)

/-- The fields of the segment that `convert_to_ctcp` sets from the TCP header. -/
def setFieldsAt (src : SeqConn) (datagram : List UInt8) (len : UInt16) :
    Option (List UInt8) := do
  let segment := List.replicate len.toNat 0
  let seq ← load32 datagram 24
  let segment ← write segment 0 (le32 (htonl (ntohl seq - src.theirInitSeqno)))
  let ack ← load32 datagram 28
  let segment ← write segment 4 (le32 (htonl (ntohl ack - src.initSeqno)))
  let segment ← write segment 8 (le16 (htons len))
  let flags ← load8 datagram 33
  let segment ← write segment 12 (le32 flags.toUInt32)
  let win ← load16 datagram 34
  let segment ← write segment 16 (le16 win)
  write segment 18 (le16 0)

/-- `memcpy(segment->data, payload, data_len)`. -/
def copyDataAt (datagram segment : List UInt8) (dataLen : UInt16) : Option (List UInt8) :=
  if 0 < dataLen then do
    let payload ← read datagram 40 dataLen.toNat
    write segment 20 payload
  else some segment

/-- `convert_to_ctcp`, on the receive buffer; the result is the memory of the segment. -/
def convertToCtcpAt (src : SeqConn) (datagram : List UInt8) : Option (List UInt8) := do
  let totLen ← load16 datagram 2
  let dataLen := ntohs totLen - fullHdrSize
  let len := dataLen + UInt16.ofNat segmentHdrSize
  let segment ← setFieldsAt src datagram len
  let segment ← copyDataAt datagram segment dataLen
  let right ← cksumAt segment len
  let segment ← write segment 18 (le16 right)
  let sum ← load16 datagram 36
  let datagram ← write datagram 36 (le16 0)
  let correctSum ← cksumTcpAt datagram dataLen
  let own ← load16 segment 18
  write segment 18 (le16 (own + (correctSum - sum)))

/-- The total length that the IP header announces. -/
def totalLen (datagram : List UInt8) : Nat := (ntohs (u16At datagram 2)).toNat

/-! ## Bounds -/

theorem length_le16 (x : UInt16) : (le16 x).length = 2 := rfl
theorem length_le32 (x : UInt32) : (le32 x).length = 4 := rfl

theorem ok_load16 {buf : List UInt8} {off : Nat} (h : off + 2 ≤ buf.length) :
    Ok (fun _ => True) (load16 buf off) := by
  rw [load16, read_eq h]
  exact ok_some trivial

theorem ok_load32 {buf : List UInt8} {off : Nat} (h : off + 4 ≤ buf.length) :
    Ok (fun _ => True) (load32 buf off) := by
  rw [load32, read_eq h]
  exact ok_some trivial

theorem ok_load8 {buf : List UInt8} {off : Nat} (h : off + 1 ≤ buf.length) :
    Ok (fun _ => True) (load8 buf off) := by
  rw [load8, read_eq h]
  exact ok_some trivial

theorem ok_cksumAt {buf : List UInt8} {len : UInt16} (h : len.toNat ≤ buf.length) :
    Ok (fun _ => True) (cksumAt buf len) := by
  rw [cksumAt, read_eq (by omega)]
  exact ok_some trivial

/-- `cksum_tcp` stays inside a packet that holds the headers and `len` bytes of data. -/
theorem ok_cksumTcpAt {packet : List UInt8} {len : UInt16} (h : 40 + len.toNat ≤ packet.length) :
    Ok (fun _ => True) (cksumTcpAt packet len) := by
  have hhdr : tcpHdrSize.toNat = 20 := rfl
  have hpseudo : tcpPseudohdrSize.toNat = 32 := rfl
  have hlen : (len + tcpPseudohdrSize).toNat ≤ 32 + len.toNat := by
    rw [UInt16.toNat_add, hpseudo]
    omega
  have h0 : (List.replicate (tcpPseudohdrSize.toNat + len.toNat) (0 : UInt8)).length
      = 32 + len.toNat := List.length_replicate
  unfold cksumTcpAt
  refine (ok_load32 (by omega)).bind fun saddr _ => ?_
  refine (ok_write (by rw [h0, length_le32]; omega)).bind fun phdr h1 => ?_
  refine (ok_load32 (by omega)).bind fun daddr _ => ?_
  refine (ok_write (by rw [h1, h0, length_le32]; omega)).bind fun phdr h2 => ?_
  refine (ok_write (by rw [h2, h1, h0]; show 9 + 1 ≤ _; omega)).bind fun phdr h3 => ?_
  refine (ok_write (by rw [h3, h2, h1, h0, length_le16]; omega)).bind fun phdr h4 => ?_
  refine (ok_read (by omega)).bind fun tcp htcp => ?_
  refine (ok_write (by rw [h4, h3, h2, h1, h0, htcp]; omega)).bind fun phdr h5 => ?_
  exact ok_cksumAt (by rw [h5, h4, h3, h2, h1, h0]; exact hlen)

/-- The header fields fit into a segment of at least 20 bytes. -/
theorem ok_setFieldsAt (src : SeqConn) {datagram : List UInt8} {len : UInt16}
    (h : 40 ≤ datagram.length) (hlen : 20 ≤ len.toNat) :
    Ok (fun segment : List UInt8 => segment.length = len.toNat) (setFieldsAt src datagram len) := by
  have h0 : (List.replicate len.toNat (0 : UInt8)).length = len.toNat := List.length_replicate
  unfold setFieldsAt
  refine (ok_load32 (by omega)).bind fun seq _ => ?_
  refine (ok_write (by rw [h0, length_le32]; omega)).bind fun segment h1 => ?_
  refine (ok_load32 (by omega)).bind fun ack _ => ?_
  refine (ok_write (by rw [h1, h0, length_le32]; omega)).bind fun segment h2 => ?_
  refine (ok_write (by rw [h2, h1, h0, length_le16]; omega)).bind fun segment h3 => ?_
  refine (ok_load8 (by omega)).bind fun flags _ => ?_
  refine (ok_write (by rw [h3, h2, h1, h0, length_le32]; omega)).bind fun segment h4 => ?_
  refine (ok_load16 (by omega)).bind fun win _ => ?_
  refine (ok_write (by rw [h4, h3, h2, h1, h0, length_le16]; omega)).bind fun segment h5 => ?_
  have hbound : 18 + (le16 0).length ≤ segment.length := by
    rw [h5, h4, h3, h2, h1, h0, length_le16]
    omega
  have hlast := length_of_write (write_eq hbound)
  exact ⟨_, write_eq hbound, hlast.trans (by rw [h5, h4, h3, h2, h1, h0])⟩

/-- So does the data, and it is read from the packet. -/
theorem ok_copyDataAt {datagram segment : List UInt8} {dataLen : UInt16}
    (h : 40 + dataLen.toNat ≤ datagram.length) (hlen : 20 + dataLen.toNat ≤ segment.length) :
    Ok (fun segment' : List UInt8 => segment'.length = segment.length)
      (copyDataAt datagram segment dataLen) := by
  unfold copyDataAt
  split
  · exact (ok_read h).bind fun payload hpayload => ok_write (by rw [hpayload]; exact hlen)
  · exact ok_some rfl

/-- The data lie in the packet, if they could be copied. -/
theorem le_of_copyDataAt {datagram segment : List UInt8} {dataLen : UInt16}
    (hhdr : 40 ≤ datagram.length) (h : (copyDataAt datagram segment dataLen).isSome = true) :
    40 + dataLen.toNat ≤ datagram.length := by
  unfold copyDataAt at h
  split at h
  · obtain ⟨payload, hread, -⟩ := isSome_of_bind h
    exact read_isSome_iff.mp (by rw [hread]; rfl)
  · rename_i hzero
    have hle : dataLen.toNat ≤ 0 := Nat.le_of_not_lt hzero
    omega

/-- The number of data bytes that `convert_to_ctcp` computes, for a packet that holds its
    headers. -/
theorem toNat_dataLen_eq {totLen : UInt16} (h : 40 ≤ totLen.toNat) :
    (totLen - fullHdrSize).toNat = totLen.toNat - 40 := by
  rw [UInt16.toNat_sub_of_le]
  · rfl
  · exact UInt16.le_iff_toNat_le.mpr h

/-- For one that does not, the difference wraps. -/
theorem toNat_dataLen_short {totLen : UInt16} (h : totLen.toNat < 40) :
    (totLen - fullHdrSize).toNat = 2 ^ 16 - 40 + totLen.toNat := by
  have hhdr : fullHdrSize.toNat = 40 := rfl
  rw [UInt16.toNat_sub, hhdr]
  omega

/-- The length field can be read. -/
theorem load_totalLen {datagram : List UInt8} (hbuf : 4 ≤ datagram.length) :
    load16 datagram 2 = some (u16At datagram 2) := by
  rw [load16, read_eq (by omega), Option.map_some]
  simp [u16At, List.getD_eq_getElem?_getD]

/-- What stays in bounds, announces the headers and not more than the buffer. -/
theorem range_of_convert {src : SeqConn} {datagram : List UInt8}
    (hbuf : datagram.length = maxPacketSize)
    (h : (convertToCtcpAt src datagram).isSome = true) :
    40 ≤ totalLen datagram ∧ totalLen datagram ≤ maxPacketSize := by
  have hmax : maxPacketSize = 1480 := rfl
  have hhdr : 40 ≤ datagram.length := by omega
  unfold convertToCtcpAt at h
  rw [load_totalLen (by omega)] at h
  obtain ⟨_, ⟨⟩, h⟩ := isSome_of_bind h
  obtain ⟨segment, -, h⟩ := isSome_of_bind h
  obtain ⟨segment', hcopy, -⟩ := isSome_of_bind h
  have hle := le_of_copyDataAt hhdr (by rw [hcopy]; rfl)
  unfold totalLen
  rcases Nat.lt_or_ge (ntohs (u16At datagram 2)).toNat 40 with hshort | hlong
  · rw [toNat_dataLen_short hshort] at hle
    omega
  · rw [toNat_dataLen_eq hlong] at hle
    omega

/-- **When `convert_to_ctcp` stays in bounds**: when the packet that the IP header announces holds
    the headers and fits into the buffer. -/
theorem convert_in_bounds_iff (src : SeqConn) (datagram : List UInt8)
    (hbuf : datagram.length = maxPacketSize) :
    (convertToCtcpAt src datagram).isSome = true ↔
      40 ≤ totalLen datagram ∧ totalLen datagram ≤ maxPacketSize := by
  have hmax : maxPacketSize = 1480 := rfl
  constructor
  · exact range_of_convert hbuf
  · rintro ⟨hlo, hhi⟩
    have hdata : (ntohs (u16At datagram 2) - fullHdrSize).toNat = totalLen datagram - 40 :=
      toNat_dataLen_eq hlo
    have hlen : (ntohs (u16At datagram 2) - fullHdrSize + UInt16.ofNat segmentHdrSize).toNat
        = (ntohs (u16At datagram 2) - fullHdrSize).toNat + 20 := by
      have hhdr : (UInt16.ofNat segmentHdrSize).toNat = 20 := rfl
      rw [UInt16.toNat_add, hhdr]
      omega
    have hok : Ok (fun _ => True) (convertToCtcpAt src datagram) := by
      unfold convertToCtcpAt
      rw [load_totalLen (by omega)]
      refine (ok_setFieldsAt src (by omega) (by omega)).bind fun segment h1 => ?_
      refine (ok_copyDataAt (by omega) (by omega)).bind fun segment h2 => ?_
      refine (ok_cksumAt (by omega)).bind fun right _ => ?_
      refine (ok_write (by rw [length_le16]; omega)).bind fun segment h3 => ?_
      refine (ok_load16 (by omega)).bind fun sum _ => ?_
      refine (ok_write (by rw [length_le16]; omega)).bind fun datagram h4 => ?_
      refine (ok_cksumTcpAt (by omega)).bind fun correctSum _ => ?_
      refine (ok_load16 (by omega)).bind fun own _ => ?_
      exact ⟨_, write_eq (by rw [length_le16]; omega), trivial⟩
    exact hok.isSome

/-- The bytes of a packet in the receive buffer. -/
def Datagram.bytes (datagram : Datagram) : List UInt8 :=
  datagram.ip.bytes ++ datagram.tcp.bytes ++ datagram.payload

/-- An ACK from port 8888 to port 9999, in a buffer that is zero after the headers; its IP header
    announces `totLen` bytes. -/
def ackPacket (totLen : UInt16) : Datagram :=
  { ip := ⟨5, 4, 0, htons totLen, htons 144, 0, 64, 6, 0, 0, 0⟩
    tcp := ⟨htons 8888, htons 9999, htonl 6, htonl 6, 5, thAck, 0, 0, 0⟩
    payload := List.replicate maxSegDataSize 0 }

theorem length_ackPacket (totLen : UInt16) : (ackPacket totLen).bytes.length = maxPacketSize := by
  have hpayload : (ackPacket totLen).payload.length = 1440 := List.length_replicate
  rw [Datagram.bytes, List.length_append, hpayload]
  rfl

/-- A bare ACK that announces its 40 bytes. -/
theorem convert_in_bounds_ack :
    (convertToCtcpAt (atFive 8888) (ackPacket 40).bytes).isSome = true :=
  (convert_in_bounds_iff (atFive 8888) (ackPacket 40).bytes (length_ackPacket 40)).mpr (by decide)

/-- The same ACK, announcing nothing: it is attributed to its connection, and 65496 bytes are copied
    out of a buffer of 1480. -/
theorem convert_out_of_bounds :
    recvFilter ⟨0, 9999, 1440, 1440⟩ true id [atFive 8888] 40 (ackPacket 0)
        = .attributed (atFive 8888) ∧
      (ackPacket 0).bytes.length = maxPacketSize ∧
      convertToCtcpAt (atFive 8888) (ackPacket 0).bytes = none := by
  refine ⟨by decide, length_ackPacket 0, ?_⟩
  rw [← Option.not_isSome_iff_eq_none]
  intro h
  have hrange := (range_of_convert (length_ackPacket 0) h).1
  exact absurd hrange (by decide)

/-! ## Values -/

section Values

variable (datagram : Datagram)

theorem Datagram.length_bytes :
    datagram.bytes.length = 40 + datagram.payload.length := by
  rw [Datagram.bytes, List.length_append]
  rfl

theorem load16_of_read {buf : List UInt8} {off : Nat} {x : UInt16}
    (h : read buf off 2 = some (le16 x)) : load16 buf off = some x := by
  rw [load16, h]
  exact congrArg some (ofNat_le16 x)

theorem load32_of_read {buf : List UInt8} {off : Nat} {x : UInt32}
    (h : read buf off 4 = some (le32 x)) : load32 buf off = some x := by
  rw [load32, h]
  exact congrArg some (ofNat_le32 x)

/-- A range of the headers. -/
theorem read_header {off n : Nat} (h : off + n ≤ 40) :
    read datagram.bytes off n = some ((datagram.bytes.drop off).take n) := by
  apply read_eq
  rw [datagram.length_bytes]
  omega

theorem load_totLen : load16 datagram.bytes 2 = some datagram.ip.totLen :=
  load16_of_read (read_header datagram (by decide))

theorem load_saddr : load32 datagram.bytes 12 = some datagram.ip.saddr :=
  load32_of_read (read_header datagram (by decide))

theorem load_daddr : load32 datagram.bytes 16 = some datagram.ip.daddr :=
  load32_of_read (read_header datagram (by decide))

theorem load_seq : load32 datagram.bytes 24 = some datagram.tcp.seq :=
  load32_of_read (read_header datagram (by decide))

theorem load_ack : load32 datagram.bytes 28 = some datagram.tcp.ack :=
  load32_of_read (read_header datagram (by decide))

theorem load_flags : load8 datagram.bytes 33 = some datagram.tcp.flags := by
  rw [load8, read_header datagram (by decide)]
  rfl

theorem load_win : load16 datagram.bytes 34 = some datagram.tcp.win :=
  load16_of_read (read_header datagram (by decide))

theorem load_sum : load16 datagram.bytes 36 = some datagram.tcp.sum :=
  load16_of_read (read_header datagram (by decide))

/-- `tcp_hdr->th_sum = 0`. -/
theorem write_sum : write datagram.bytes 36 (le16 0) = some datagram.clearSum.bytes := by
  rw [write_eq]
  · rfl
  · rw [datagram.length_bytes, length_le16]
    omega

/-- `cksum_tcp`. -/
theorem cksumTcpAt_bytes {len : UInt16} (hlen : len.toNat ≤ datagram.payload.length)
    (hle : len.toNat ≤ maxSegDataSize) :
    cksumTcpAt datagram.bytes len = some (cksumTcp datagram len) := by
  have hmax : maxSegDataSize = 1440 := rfl
  have hhdr : tcpHdrSize.toNat = 20 := rfl
  have hpseudo : tcpPseudohdrSize.toNat = 32 := rfl
  have htotal : (len + tcpPseudohdrSize).toNat = len.toNat + 32 := by
    rw [UInt16.toNat_add, hpseudo]
    omega
  have hread : read datagram.bytes 20 (20 + len.toNat)
      = some (datagram.tcp.bytes ++ datagram.payload.take len.toNat) := by
    rw [read_eq (by rw [datagram.length_bytes]; omega)]
    have hdrop : datagram.bytes.drop 20 = datagram.tcp.bytes ++ datagram.payload := rfl
    have htake : (datagram.tcp.bytes ++ datagram.payload).take
        (datagram.tcp.bytes.length + len.toNat)
          = datagram.tcp.bytes ++ datagram.payload.take len.toNat :=
      List.take_length_add_append len.toNat
    rw [hdrop]
    exact congrArg some htake
  have htcp : (datagram.tcp.bytes ++ datagram.payload.take len.toNat).length = 20 + len.toNat := by
    rw [List.length_append, List.length_take, Nat.min_eq_left hlen]
    rfl
  unfold cksumTcpAt cksumAt
  simp only [Option.bind_eq_bind]
  -- the pseudo-header is filled from the front; one byte before the protocol stays zero
  rw [load_saddr, Option.bind_some, hhdr, hpseudo, write_first (28 + len.toNat), Option.bind_some,
    load_daddr, Option.bind_some, write_next (24 + len.toNat), Option.bind_some,
    write_fresh 1 (22 + len.toNat), Option.bind_some, write_next (20 + len.toNat),
    Option.bind_some, hread, Option.bind_some, write_next 0, Option.bind_some, read_all,
    Option.map_some, cksumTcp]
  · simp only [List.replicate_zero, List.append_nil, List.append_assoc]
    rfl
  · -- the whole of the pseudo-header is summed
    rw [List.replicate_zero, List.append_nil, List.length_append, htcp, htotal]
    show _ = 12 + (20 + len.toNat)
    omega
  all_goals first | rfl | (simp only [length_le16, length_le32, htcp, List.length_singleton]; omega)

/-- The fields of the segment, from the TCP header. -/
def fieldsOf (src : SeqConn) (len : UInt16) : CtcpSegment :=
  { seqno := htonl (ntohl datagram.tcp.seq - src.theirInitSeqno)
    ackno := htonl (ntohl datagram.tcp.ack - src.initSeqno)
    len := htons len
    pad := 0
    flags := datagram.tcp.flags.toUInt32
    window := datagram.tcp.win
    cksum := 0
    data := [] }

/-- The header of the segment, with its data still zero. -/
theorem setFieldsAt_bytes (src : SeqConn) {len : UInt16} {n : Nat} (hlen : len.toNat = 20 + n) :
    setFieldsAt src datagram.bytes len
      = some ((fieldsOf datagram src len).bytes ++ List.replicate n 0) := by
  have hpad : List.replicate 2 (0 : UInt8) = le16 0 := by decide
  unfold setFieldsAt
  simp only [Option.bind_eq_bind]
  -- the two bytes of `pad` are the gap before the flags
  rw [load_seq, Option.bind_some, hlen, write_first (16 + n), Option.bind_some, load_ack,
    Option.bind_some, write_next (12 + n), Option.bind_some, write_next (10 + n),
    Option.bind_some, load_flags, Option.bind_some, write_fresh 2 (4 + n), Option.bind_some,
    load_win, Option.bind_some, write_next (2 + n), Option.bind_some, write_next n]
  · rw [hpad]
    simp only [fieldsOf, CtcpSegment.bytes, List.append_nil]
  all_goals first | rfl | (simp only [length_le16, length_le32]; omega)

/-- `memcpy` of the data. -/
theorem copyDataAt_bytes {header : List UInt8} {dataLen : UInt16}
    (hheader : header.length = 20) (hlen : dataLen.toNat ≤ datagram.payload.length) :
    copyDataAt datagram.bytes (header ++ List.replicate dataLen.toNat 0) dataLen
      = some (header ++ datagram.payload.take dataLen.toNat) := by
  have hread : read datagram.bytes 40 dataLen.toNat
      = some (datagram.payload.take dataLen.toNat) := by
    rw [read_eq (by rw [datagram.length_bytes]; omega)]
    rfl
  have hdata : (datagram.payload.take dataLen.toNat).length = dataLen.toNat := by
    rw [List.length_take, Nat.min_eq_left hlen]
  unfold copyDataAt
  split
  · simp only [Option.bind_eq_bind]
    rw [hread, Option.bind_some, write_next 0 0 hheader.symm hdata.symm, List.replicate_zero,
      List.append_nil]
  · rename_i hzero
    have hnil : dataLen.toNat = 0 := Nat.eq_zero_of_not_pos hzero
    rw [hnil, List.replicate_zero, List.take_zero]

/-- The bytes of a segment, around its checksum. -/
def frontBytes (segment : CtcpSegment) : List UInt8 :=
  le32 segment.seqno ++ le32 segment.ackno ++ le16 segment.len ++ le16 segment.pad
    ++ le32 segment.flags ++ le16 segment.window

theorem bytes_eq (segment : CtcpSegment) :
    segment.bytes = frontBytes segment ++ le16 segment.cksum ++ segment.data := rfl

/-- `segment->cksum = sum`. -/
theorem write_cksum (segment : CtcpSegment) (sum : UInt16) :
    write segment.bytes 18 (le16 sum)
      = some ({ segment with cksum := sum } : CtcpSegment).bytes := by
  have hmid : write (frontBytes segment ++ le16 segment.cksum ++ segment.data) 18 (le16 sum)
      = some (frontBytes segment ++ le16 sum ++ segment.data) := write_mid rfl rfl
  exact hmid

theorem load_cksum (segment : CtcpSegment) : load16 segment.bytes 18 = some segment.cksum := by
  apply load16_of_read
  rw [read_eq]
  · rfl
  · rw [length_bytes]
    show 18 + 2 ≤ segment.data.length + 20
    omega

/-- **In bounds, the bytes of the segment are those of `convertToCtcp`**, for a packet in a buffer
    of `MAX_PACKET_SIZE` bytes. -/
theorem convertToCtcpAt_bytes (src : SeqConn) (hpayload : datagram.payload.length = maxSegDataSize)
    (hlo : 40 ≤ (ntohs datagram.ip.totLen).toNat)
    (hhi : (ntohs datagram.ip.totLen).toNat ≤ maxPacketSize) :
    convertToCtcpAt src datagram.bytes = some (convertToCtcp src datagram).bytes := by
  have hmax : maxPacketSize = 1480 := rfl
  have hseg : maxSegDataSize = 1440 := rfl
  have hdata := toNat_dataLen_eq hlo
  have hlen : (ntohs datagram.ip.totLen - fullHdrSize + UInt16.ofNat segmentHdrSize).toNat
      = 20 + (ntohs datagram.ip.totLen - fullHdrSize).toNat := by
    have hhdr : (UInt16.ofNat segmentHdrSize).toNat = 20 := rfl
    rw [UInt16.toNat_add, hhdr]
    omega
  unfold convertToCtcpAt convertToCtcp
  simp only [Option.bind_eq_bind]
  rw [load_totLen, Option.bind_some]
  generalize ntohs datagram.ip.totLen - fullHdrSize = dataLen at *
  -- the segment with its data, before the checksum
  let segment : CtcpSegment := { fieldsOf datagram src (dataLen + UInt16.ofNat segmentHdrSize) with
    data := datagram.payload.take dataLen.toNat }
  have hbytes : (fieldsOf datagram src (dataLen + UInt16.ofNat segmentHdrSize)).bytes
      ++ datagram.payload.take dataLen.toNat = segment.bytes := by
    rw [bytes_eq, bytes_eq]
    show _ ++ _ ++ [] ++ _ = _
    rw [List.append_nil]
    rfl
  have hlength : (dataLen + UInt16.ofNat segmentHdrSize).toNat = segment.bytes.length := by
    rw [hlen, length_bytes]
    show _ = (datagram.payload.take dataLen.toNat).length + 20
    rw [List.length_take]
    omega
  have hpayload' : dataLen.toNat ≤ datagram.clearSum.payload.length := by
    show _ ≤ datagram.payload.length
    omega
  rw [setFieldsAt_bytes datagram src hlen, Option.bind_some,
    copyDataAt_bytes datagram rfl (by omega), hbytes, Option.bind_some, cksumAt, read_all hlength,
    Option.map_some, Option.bind_some, write_cksum, Option.bind_some, load_sum, Option.bind_some,
    write_sum, Option.bind_some, cksumTcpAt_bytes datagram.clearSum hpayload' (by omega),
    Option.bind_some, load_cksum, Option.bind_some, write_cksum]
  show _ = some ({ segment with cksum := cksum (segment.bytes.take
    (dataLen + UInt16.ofNat segmentHdrSize).toNat) + _ } : CtcpSegment).bytes
  rw [hlength, List.take_length]

end Values

end Ctcp.Packet
