/-
  Packets (`ctcp_sys_internal.c`): the handshake, and the conversions between cTCP segments and TCP
  packets.

  A cTCP segment counts sequence numbers from the start of the connection, a TCP packet from the
  random initial numbers that the two hosts exchange when they connect.  `convert_to_datagram` adds
  them, with the fields of the sender's `conn_t`; `convert_to_ctcp` takes them away, with those of
  the receiver's.  The checksums differ too: each function computes the right one of both kinds and
  carries over the difference between the sender's and the right one, so that a wrong checksum
  stays as wrong as it was.

  `Mirror` says that the two hosts agree on the numbers; `handshake_mirror` is what the SYN, SYN-ACK
  and ACK make of them.  `conversion_lossless`: between such hosts, on a Unix socket, a segment
  comes out as it went in, with its checksum, right or wrong.
-/
import Ctcp.Wire

set_option linter.unusedVariables false

namespace Ctcp.Packet

/-! ## Headers -/

/-- `IP_HDR_SIZE`, `TCP_HDR_SIZE` and `FULL_HDR_SIZE`. -/
def ipHdrSize : UInt16 := 20

/-- See `ipHdrSize`. -/
def tcpHdrSize : UInt16 := 20

/-- See `ipHdrSize`. -/
def fullHdrSize : UInt16 := ipHdrSize + tcpHdrSize

/-- The flags of a TCP header that the library sets. -/
def thSyn : UInt8 := 0x02

/-- See `thSyn`. -/
def thRst : UInt8 := 0x04

/-- See `thSyn`. -/
def thAck : UInt8 := 0x10

/-- `iphdr_t`; fields of more than a byte hold the values they have in memory. -/
structure IpHdr where
  ihl : UInt8
  version : UInt8
  tos : UInt8
  totLen : UInt16
  id : UInt16
  fragOff : UInt16
  ttl : UInt8
  protocol : UInt8
  check : UInt16
  saddr : UInt32
  daddr : UInt32
  deriving DecidableEq, Repr

/-- The bytes of the header. -/
def IpHdr.bytes (hdr : IpHdr) : List UInt8 :=
  [hdr.ihl ||| (hdr.version <<< 4), hdr.tos] ++ le16 hdr.totLen ++ le16 hdr.id ++ le16 hdr.fragOff
    ++ [hdr.ttl, hdr.protocol] ++ le16 hdr.check ++ le32 hdr.saddr ++ le32 hdr.daddr

/-- `tcphdr_t`. -/
structure TcpHdr where
  sport : UInt16
  dport : UInt16
  seq : UInt32
  ack : UInt32
  off : UInt8
  flags : UInt8
  win : UInt16
  sum : UInt16
  urp : UInt16
  deriving DecidableEq, Repr

/-- The bytes of the header; `th_off` is the high half of a byte. -/
def TcpHdr.bytes (hdr : TcpHdr) : List UInt8 :=
  le16 hdr.sport ++ le16 hdr.dport ++ le32 hdr.seq ++ le32 hdr.ack ++ [hdr.off <<< 4, hdr.flags]
    ++ le16 hdr.win ++ le16 hdr.sum ++ le16 hdr.urp

/-- A raw IP packet. -/
structure Datagram where
  ip : IpHdr
  tcp : TcpHdr
  payload : List UInt8
  deriving DecidableEq, Repr

/-! ## Hosts -/

/-- The addresses of a connection and its sequence numbers (`conn_t`). -/
structure SeqConn where
  ipAddr : UInt32
  port : UInt16
  initSeqno : UInt32
  theirInitSeqno : UInt32
  seqno : UInt32
  nextSeqno : UInt32
  ackno : UInt32
  deriving DecidableEq, Repr

/-- The fields of `config` and `ctcp_cfg` that are used here. -/
structure Config where
  ipAddr : UInt32
  port : UInt16
  recvWindow : UInt16
  sendWindow : UInt16
  deriving DecidableEq, Repr

/-- `conn_setup` of a `conn_t` from `calloc`; `rand` is what `rand()` returns. -/
def connSetup (ipAddr : UInt32) (port : UInt16) (rand : UInt32) : SeqConn :=
  { ipAddr := ipAddr
    port := port
    initSeqno := rand
    theirInitSeqno := 0
    seqno := 0
    nextSeqno := rand
    ackno := 0 }

/-! ## Creating packets -/

/-- `create_datagram`, for a payload of at least a TCP header. -/
def createDatagram (srcIp dstIp : UInt32) (len : UInt16) : Datagram :=
  let ip : IpHdr :=
    { ihl := 5
      version := 4
      tos := 0
      totLen := htons (ipHdrSize + len)
      id := htons 144
      fragOff := 0
      ttl := 64
      protocol := 6
      check := 0
      saddr := srcIp
      daddr := dstIp }
  { ip := { ip with check := cksum ip.bytes }
    tcp := ⟨0, 0, 0, 0, 0, 0, 0, 0, 0⟩
    payload := List.replicate (len - tcpHdrSize).toNat 0 }

/-- `cksum_tcp`: the checksum of the pseudo-header, the TCP header and `len` bytes of data. -/
def cksumTcp (packet : Datagram) (len : UInt16) : UInt16 :=
  cksum (le32 packet.ip.saddr ++ le32 packet.ip.daddr ++ [0, 6] ++ le16 (htons (tcpHdrSize + len))
    ++ packet.tcp.bytes ++ packet.payload.take len.toNat)

/-- `memcpy` to the start of the payload. -/
def Datagram.copy (packet : Datagram) (data : List UInt8) (len : UInt16) : Datagram :=
  { packet with payload := data.take len.toNat ++ packet.payload.drop len.toNat }

/-- `tcp_hdr->th_sum = 0`. -/
def Datagram.clearSum (packet : Datagram) : Datagram := { packet with tcp.sum := 0 }

/-- `create_tcp_seg`, without data. -/
def createTcpSeg (config : Config) (dst : SeqConn) (flags : UInt8) : Datagram × SeqConn :=
  let datagram := createDatagram config.ipAddr dst.ipAddr tcpHdrSize
  let window := if flags &&& thRst = 0 then htons config.recvWindow else 0
  let tcp : TcpHdr :=
    { sport := htons config.port
      dport := htons dst.port
      seq := htonl dst.nextSeqno
      ack := htonl dst.ackno
      off := 5
      flags := flags
      win := window
      sum := 0
      urp := 0 }
  let datagram := { datagram with tcp := tcp }
  ({ datagram with tcp.sum := cksumTcp datagram 0 }, { dst with seqno := dst.nextSeqno })

/-! ## The handshake -/

/-- `tcp_handshake`, when the answer is a SYN-ACK. -/
def SeqConn.synAcked (sconn : SeqConn) (synack : Datagram) : SeqConn :=
  { sconn with
    nextSeqno := sconn.nextSeqno + 1
    theirInitSeqno := ntohl synack.tcp.seq
    ackno := ntohl synack.tcp.seq + 1 }

/-- `tcp_handshake`, when the answer is an ACK: the connection of before goes on. -/
def SeqConn.resumed (sconn : SeqConn) (ack : Datagram) : SeqConn :=
  { sconn with
    initSeqno := ntohl ack.tcp.ack - 1
    theirInitSeqno := ntohl ack.tcp.seq - 1
    nextSeqno := ntohl ack.tcp.ack - 1 + 1
    ackno := ntohl ack.tcp.seq }

/-- `tcp_handshake`: sends a SYN, waits for an answer (`recv` is what `recv_filter` delivers), and
    sends an ACK if the answer is a SYN-ACK.  The result is the connection, and that ACK. -/
def tcpHandshake (config : Config) (sconn : SeqConn) (recv : Datagram → Option Datagram) :
    Option (Config × SeqConn × Option Datagram) :=
  let (syn, sconn) := createTcpSeg config sconn thSyn
  match recv syn with
  | none => none
  | some synack =>
    let config := { config with sendWindow := ntohs synack.tcp.win }
    if synack.tcp.flags &&& thSyn = 0 then some (config, sconn.resumed synack, none)
    else
      let (ack, sconn) := createTcpSeg config (sconn.synAcked synack) thAck
      some (config, sconn, some ack)

/-- `tcp_new_connection`, for a client that is not refused: the connection and the SYN-ACK. -/
def tcpNewConnection (config : Config) (rand : UInt32) (pkt : Datagram) :
    Config × SeqConn × Datagram :=
  let conn := connSetup (ntohl pkt.ip.saddr) (ntohs pkt.tcp.sport) rand
  let conn := { conn with theirInitSeqno := ntohl pkt.tcp.seq }
  let conn := { conn with ackno := conn.theirInitSeqno + 1 }
  let (synack, conn) := createTcpSeg config conn (thSyn ||| thAck)
  ({ config with sendWindow := ntohs pkt.tcp.win }, conn, synack)

/-- A client connects to a server: both sides of the connection, and the ACK. -/
def connect (client server : Config) (sconn : SeqConn) (rand : UInt32) :
    Option (SeqConn × SeqConn × Option Datagram) :=
  let syn := (createTcpSeg client sconn thSyn).1
  let (_, conn, _) := tcpNewConnection server rand syn
  let answer := tcpHandshake client sconn fun syn => some (tcpNewConnection server rand syn).2.2
  answer.map fun (_, sconn, ack) => (sconn, conn, ack)

/-! ## The conversions -/

/-- `convert_to_datagram`. -/
def convertToDatagram (config : Config) (runProgram unixSocket : Bool) (dst : SeqConn)
    (segment : CtcpSegment) (len : Nat) : Datagram :=
  let tcpPktLen := UInt16.ofNat len - UInt16.ofNat segmentHdrSize + tcpHdrSize
  let datagram := createDatagram config.ipAddr dst.ipAddr tcpPktLen
  let dataLen := UInt16.ofNat len - UInt16.ofNat segmentHdrSize
  let datagram := datagram.copy segment.data dataLen
  let flags := segment.flags.toUInt8
  let tcp : TcpHdr :=
    { sport := htons config.port
      dport := htons dst.port
      seq := htonl (ntohl segment.seqno + dst.initSeqno)
      ack := htonl (ntohl segment.ackno + dst.theirInitSeqno)
      off := 5
      flags := if runProgram = false ∧ unixSocket = false then flags ||| thAck else flags
      win := segment.window
      sum := 0
      urp := 0 }
  let datagram := { datagram with tcp := tcp }
  let correctSum := cksum (({ segment with cksum := 0 } : CtcpSegment).bytes.take len)
  { datagram with tcp.sum := cksumTcp datagram dataLen + (correctSum - segment.cksum) }

/-- `convert_to_ctcp`. -/
def convertToCtcp (src : SeqConn) (datagram : Datagram) : CtcpSegment :=
  let dataLen := ntohs datagram.ip.totLen - fullHdrSize
  let len := dataLen + UInt16.ofNat segmentHdrSize
  let segment : CtcpSegment :=
    { seqno := htonl (ntohl datagram.tcp.seq - src.theirInitSeqno)
      ackno := htonl (ntohl datagram.tcp.ack - src.initSeqno)
      len := htons len
      pad := 0
      flags := datagram.tcp.flags.toUInt32
      window := datagram.tcp.win
      cksum := 0
      data := datagram.payload.take dataLen.toNat }
  let correctSum := cksumTcp datagram.clearSum dataLen
  { segment with
    cksum := cksum (segment.bytes.take len.toNat) + (correctSum - datagram.tcp.sum) }

/-! ## The handshake makes mirror images -/

/-- The two sides agree on the initial sequence numbers. -/
def Mirror (a b : SeqConn) : Prop :=
  a.initSeqno = b.theirInitSeqno ∧ b.initSeqno = a.theirInitSeqno

theorem Mirror.symm {a b : SeqConn} (h : Mirror a b) : Mirror b a := ⟨h.2, h.1⟩

section Handshake

variable (config : Config) (dst : SeqConn) (flags : UInt8)

@[simp] theorem createTcpSeg_seq :
    (createTcpSeg config dst flags).1.tcp.seq = htonl dst.nextSeqno := rfl
@[simp] theorem createTcpSeg_ack :
    (createTcpSeg config dst flags).1.tcp.ack = htonl dst.ackno := rfl
@[simp] theorem createTcpSeg_flags : (createTcpSeg config dst flags).1.tcp.flags = flags := rfl
@[simp] theorem createTcpSeg_conn :
    (createTcpSeg config dst flags).2 = { dst with seqno := dst.nextSeqno } := rfl

/-- The sequence numbers of a new connection of the server. -/
theorem tcpNewConnection_conn (rand : UInt32) (pkt : Datagram) :
    (tcpNewConnection config rand pkt).2.1.initSeqno = rand ∧
      (tcpNewConnection config rand pkt).2.1.theirInitSeqno = ntohl pkt.tcp.seq := ⟨rfl, rfl⟩

/-- The SYN-ACK. -/
theorem tcpNewConnection_synack (rand : UInt32) (pkt : Datagram) :
    (tcpNewConnection config rand pkt).2.2.tcp.seq = htonl rand ∧
      (tcpNewConnection config rand pkt).2.2.tcp.flags = thSyn ||| thAck := ⟨rfl, rfl⟩

/-- `tcp_handshake`, answered by a SYN-ACK. -/
theorem tcpHandshake_synack (recv : Datagram → Option Datagram) {synack : Datagram}
    (hrecv : recv (createTcpSeg config dst thSyn).1 = some synack)
    (hsyn : synack.tcp.flags &&& thSyn ≠ 0) :
    let config' := { config with sendWindow := ntohs synack.tcp.win }
    let sent := createTcpSeg config' ((createTcpSeg config dst thSyn).2.synAcked synack) thAck
    tcpHandshake config dst recv = some (config', sent.2, some sent.1) := by
  simp only [tcpHandshake, hrecv, if_neg hsyn]

/-- The whole exchange. -/
theorem connect_eq (client server : Config) (sconn : SeqConn) (rand : UInt32) :
    let new := tcpNewConnection server rand (createTcpSeg client sconn thSyn).1
    let config := { client with sendWindow := ntohs new.2.2.tcp.win }
    let sent := createTcpSeg config ((createTcpSeg client sconn thSyn).2.synAcked new.2.2) thAck
    connect client server sconn rand = some (sent.2, new.2.1, some sent.1) := by
  have hflags : (tcpNewConnection server rand (createTcpSeg client sconn thSyn).1).2.2.tcp.flags
      &&& thSyn ≠ 0 := by
    rw [(tcpNewConnection_synack server rand _).2]
    decide
  have hshake := tcpHandshake_synack client sconn
    (fun syn => some (tcpNewConnection server rand syn).2.2) rfl hflags
  simp only [connect, hshake, Option.map_some]

end Handshake

/-- The relative numbers of a packet. -/
theorem convertToCtcp_seqno (src : SeqConn) (datagram : Datagram) :
    ntohl (convertToCtcp src datagram).seqno = ntohl datagram.tcp.seq - src.theirInitSeqno :=
  htonl_htonl _

theorem convertToCtcp_ackno (src : SeqConn) (datagram : Datagram) :
    ntohl (convertToCtcp src datagram).ackno = ntohl datagram.tcp.ack - src.initSeqno :=
  htonl_htonl _

/-- **After the handshake the two sides agree**, whatever the initial numbers, and the server
    reads the ACK as the one that `do_loop` leaves out: both its relative numbers are 1. -/
theorem handshake_mirror (client server : Config) (ipAddr : UInt32) (port : UInt16)
    (clientRand serverRand : UInt32) :
    ∃ sconn conn ack,
      connect client server (connSetup ipAddr port clientRand) serverRand
        = some (sconn, conn, some ack) ∧
      Mirror sconn conn ∧
      ntohl (convertToCtcp conn ack).seqno = 1 ∧ ntohl (convertToCtcp conn ack).ackno = 1 := by
  have hconnect := connect_eq client server (connSetup ipAddr port clientRand) serverRand
  obtain ⟨hinit, htheir⟩ := tcpNewConnection_conn server serverRand
    (createTcpSeg client (connSetup ipAddr port clientRand) thSyn).1
  obtain ⟨hseq, -⟩ := tcpNewConnection_synack server serverRand
    (createTcpSeg client (connSetup ipAddr port clientRand) thSyn).1
  rw [createTcpSeg_seq] at htheir
  refine ⟨_, _, _, hconnect, ⟨?_, ?_⟩, ?_, ?_⟩
  · rw [htheir]
    exact (htonl_htonl clientRand).symm
  · simp only [hinit, createTcpSeg_conn, SeqConn.synAcked, hseq, htonl_htonl]
  · rw [convertToCtcp_seqno, htheir, createTcpSeg_seq]
    simp only [createTcpSeg_conn, SeqConn.synAcked, htonl_htonl]
    rw [UInt32.add_comm, UInt32.add_sub_cancel]
  · rw [convertToCtcp_ackno, hinit, createTcpSeg_ack]
    simp only [SeqConn.synAcked, hseq, htonl_htonl]
    rw [UInt32.add_comm, UInt32.add_sub_cancel]

/-! ## The conversions cancel -/

/-- The checksum a segment should have. -/
def rightSum (segment : CtcpSegment) : UInt16 :=
  cksum ({ segment with cksum := 0 } : CtcpSegment).bytes

/-- A segment of `len` bytes in all, as `conn_send` gets it. -/
structure Whole (segment : CtcpSegment) (len : Nat) : Prop where
  len_eq : segment.len = htons (UInt16.ofNat len)
  pad : segment.pad = 0
  flags : segment.flags < 256
  data : segment.data.length + segmentHdrSize = len
  le : len ≤ maxSegDataSize + segmentHdrSize

section Conversion

variable {segment : CtcpSegment} {len : Nat}

/-- The checksum of `convert_to_datagram` and of `_is_segment_valid`. -/
theorem Whole.cksum_take (h : Whole segment len) :
    cksum (({ segment with cksum := 0 } : CtcpSegment).bytes.take len) = rightSum segment := by
  rw [List.take_of_length_le]
  · rfl
  · rw [length_bytes]
    exact Nat.le_of_eq h.data

/-- A difference that is carried over comes back. -/
theorem sum_cancel (right sum tcp : UInt16) :
    right + (tcp - (tcp + (right - sum))) = sum := by
  apply UInt16.toNat_inj.mp
  have hright := right.toNat_lt
  have hsum := sum.toNat_lt
  have htcp := tcp.toNat_lt
  simp only [UInt16.toNat_add, UInt16.toNat_sub]
  omega

theorem sum_eq_iff (right sum tcp : UInt16) : tcp + (right - sum) = tcp ↔ sum = right := by
  have hright := right.toNat_lt
  have hsum := sum.toNat_lt
  have htcp := tcp.toNat_lt
  rw [← UInt16.toNat_inj, ← UInt16.toNat_inj]
  simp only [UInt16.toNat_add, UInt16.toNat_sub]
  omega

/-- The number of data bytes. -/
theorem Whole.dataLen (h : Whole segment len) :
    UInt16.ofNat len - UInt16.ofNat segmentHdrSize = UInt16.ofNat segment.data.length := by
  rw [← h.data, UInt16.ofNat_add, UInt16.add_sub_cancel]

theorem Whole.toNat_dataLen (h : Whole segment len) :
    (UInt16.ofNat segment.data.length).toNat = segment.data.length := by
  have hdata := h.data
  have hle := h.le
  have hmax : maxSegDataSize = 1440 := rfl
  rw [UInt16.toNat_ofNat']
  omega

theorem Whole.toNat_len (h : Whole segment len) : (UInt16.ofNat len).toNat = len := by
  have hle := h.le
  have hmax : maxSegDataSize = 1440 := rfl
  have hhdr : segmentHdrSize = 20 := rfl
  rw [UInt16.toNat_ofNat']
  omega

/-- The packet of a segment: its length, its payload and its checksum. -/
theorem convertToDatagram_spec (config : Config) (runProgram : Bool) (dst : SeqConn)
    (h : Whole segment len) :
    let packet := convertToDatagram config runProgram true dst segment len
    ntohs packet.ip.totLen - fullHdrSize = UInt16.ofNat segment.data.length ∧
      packet.payload = segment.data ∧
      packet.tcp.sum = cksumTcp packet.clearSum (UInt16.ofNat segment.data.length)
        + (rightSum segment - segment.cksum) := by
  have hdata := h.dataLen
  refine ⟨?_, ?_, ?_⟩
  · simp only [convertToDatagram, Datagram.copy, createDatagram, htons_htons, hdata, fullHdrSize]
    rw [UInt16.add_comm ipHdrSize (_ + _), UInt16.add_assoc, UInt16.add_comm tcpHdrSize ipHdrSize,
      UInt16.add_sub_cancel]
  · simp only [convertToDatagram, Datagram.copy, createDatagram, hdata, h.toNat_dataLen,
      UInt16.add_sub_cancel]
    simp
  · simp only [convertToDatagram, Datagram.clearSum, h.cksum_take, hdata]

/-- **Lossless**: `convert_to_ctcp` undoes `convert_to_datagram`. -/
theorem convertToCtcp_convertToDatagram (config : Config) (runProgram : Bool) {dst src : SeqConn}
    (hmirror : Mirror dst src) (h : Whole segment len) :
    convertToCtcp src (convertToDatagram config runProgram true dst segment len) = segment := by
  obtain ⟨hlen, hpayload, hsum⟩ := convertToDatagram_spec config runProgram dst h
  have hseq : (convertToDatagram config runProgram true dst segment len).tcp.seq
      = htonl (ntohl segment.seqno + dst.initSeqno) := rfl
  have hack : (convertToDatagram config runProgram true dst segment len).tcp.ack
      = htonl (ntohl segment.ackno + dst.theirInitSeqno) := rfl
  have hwin : (convertToDatagram config runProgram true dst segment len).tcp.win
      = segment.window := rfl
  have hflags : (convertToDatagram config runProgram true dst segment len).tcp.flags
      = segment.flags.toUInt8 := by simp [convertToDatagram]
  generalize convertToDatagram config runProgram true dst segment len = packet at *
  have hlow : segment.flags.toUInt8.toUInt32 = segment.flags := by
    apply UInt32.toNat_inj.mp
    have hlt : segment.flags.toNat < 256 := h.flags
    rw [UInt8.toNat_toUInt32, UInt32.toNat_toUInt8, Nat.mod_eq_of_lt hlt]
  have htotal : UInt16.ofNat segment.data.length + UInt16.ofNat segmentHdrSize
      = UInt16.ofNat len := by
    rw [← UInt16.ofNat_add, h.data]
  have hcopy : segment.data.take (UInt16.ofNat segment.data.length).toNat = segment.data := by
    rw [h.toNat_dataLen, List.take_length]
  have hseqno : htonl (ntohl packet.tcp.seq - src.theirInitSeqno) = segment.seqno := by
    rw [hseq, ← hmirror.1]
    simp only [htonl_htonl, UInt32.add_sub_cancel]
  have hackno : htonl (ntohl packet.tcp.ack - src.initSeqno) = segment.ackno := by
    rw [hack, hmirror.2]
    simp only [htonl_htonl, UInt32.add_sub_cancel]
  simp only [convertToCtcp, hlen, hseqno, hackno, htotal, hflags, hlow, hwin, hpayload, hcopy,
    ← h.len_eq, h.toNat_len]
  -- the same segment without its checksum, whose sum is the right one
  have hright := h.cksum_take
  rw [h.pad] at hright
  rw [hright, hsum, sum_cancel, ← h.pad]

end Conversion

/-! ## The handshake and the conversions -/

/-- `_is_segment_valid` of a whole segment. -/
theorem valid_iff {segment : CtcpSegment} {len : Nat} (h : Whole segment len) :
    Valid segment len ↔ segment.cksum = rightSum segment := by
  have hlen : ntohs segment.len = UInt16.ofNat len := by
    rw [h.len_eq]
    exact htons_htons _
  have hle := h.le
  have hmax : maxSegDataSize = 1440 := rfl
  have hhdr : segmentHdrSize = 20 := rfl
  rw [valid_iff_cksum (by omega) hlen, h.cksum_take, eq_comm]

/-- **Conversion loses nothing after the handshake.**  Whatever the initial numbers, the handshake
    leaves mirror images; in both directions the receiver gets the segment that was sent, finds it
    valid exactly when its checksum was right, and the checksum of the packet was then the right one
    too. -/
theorem conversion_lossless (client server : Config) (ipAddr : UInt32) (port : UInt16)
    (clientRand serverRand : UInt32) {segment : CtcpSegment} {len : Nat} (h : Whole segment len) :
    ∃ sconn conn ack,
      connect client server (connSetup ipAddr port clientRand) serverRand
        = some (sconn, conn, some ack) ∧
      Mirror sconn conn ∧
      ∀ dst src, (dst = sconn ∧ src = conn) ∨ (dst = conn ∧ src = sconn) →
        ∀ (config : Config) (runProgram : Bool),
          let packet := convertToDatagram config runProgram true dst segment len
          convertToCtcp src packet = segment ∧
            (Valid (convertToCtcp src packet) len ↔ segment.cksum = rightSum segment) ∧
            (packet.tcp.sum = cksumTcp packet.clearSum (UInt16.ofNat segment.data.length) ↔
              segment.cksum = rightSum segment) := by
  obtain ⟨sconn, conn, ack, hconnect, hmirror, -, -⟩ :=
    handshake_mirror client server ipAddr port clientRand serverRand
  refine ⟨sconn, conn, ack, hconnect, hmirror, ?_⟩
  intro dst src hends config runProgram packet
  have hmirror' : Mirror dst src := by
    rcases hends with ⟨rfl, rfl⟩ | ⟨rfl, rfl⟩
    · exact hmirror
    · exact hmirror.symm
  have hsame : convertToCtcp src packet = segment :=
    convertToCtcp_convertToDatagram config runProgram hmirror' h
  obtain ⟨-, -, hsum⟩ := convertToDatagram_spec config runProgram dst h
  refine ⟨hsame, ?_, ?_⟩
  · rw [hsame]
    exact valid_iff h
  · rw [hsum]
    exact sum_eq_iff _ _ _

/-- Two bytes, with a wrong checksum. -/
theorem conversion_lossless_corrupted :
    let segment : CtcpSegment := ⟨1, 1, htons 22, 0, 0x10, 0, 7, [104, 105]⟩
    Whole segment 22 ∧
      ∃ sconn conn, Mirror sconn conn ∧
        convertToCtcp conn (convertToDatagram ⟨0, 9999, 1440, 1440⟩ false true sconn segment 22)
          = segment := by
  have hwhole : Whole ⟨1, 1, htons 22, 0, 0x10, 0, 7, [104, 105]⟩ 22 :=
    ⟨rfl, rfl, by decide, rfl, by decide⟩
  obtain ⟨sconn, conn, -, -, hmirror, hpackets⟩ :=
    conversion_lossless ⟨0, 9999, 1440, 1440⟩ ⟨0, 8888, 1440, 1440⟩ 0 8888 5 4294967295 hwhole
  exact ⟨hwhole, sconn, conn, hmirror, (hpackets sconn conn (Or.inl ⟨rfl, rfl⟩) _ false).1⟩

end Ctcp.Packet
