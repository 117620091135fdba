/-
  Which connection a packet belongs to (`recv_filter`).

  The filter looks the connection up by the sender's port and checks that the sequence numbers of
  the packet are not below the initial ones.  `convert_to_datagram` has added the initial numbers
  modulo 2^32, and the filter compares the sums: once a sum wraps, the packets of an established
  connection are dropped.

  `Established` is what the two hosts of a connection have agreed on; `established_of_connect` says
  that the handshake brings it about.  `attributed_iff` is the result: the packet of a segment is
  attributed to its connection exactly when neither sum wraps.
-/
import Ctcp.Packet

set_option linter.unusedVariables false

namespace Ctcp.Packet

/-- `MAX_PACKET_SIZE`. -/
def maxPacketSize : Nat := 1480

/-- What `recv_filter` makes of what `recv` returned. -/
inductive Filtered (α : Type) where
  /-- `recv` failed: `-1`. -/
  | failed
  /-- Not for us: `0`. -/
  | dropped
  /-- A RST ends the program. -/
  | exited
  /-- A SYN: its length, and no connection. -/
  | handshake
  /-- The length, and the connection it came on. -/
  | attributed (conn : α)
  deriving DecidableEq, Repr

/-- The test for one connection of the list. -/
def expects (unixSocket : Bool) (datagram : Datagram) (conn : SeqConn) : Bool :=
  conn.port = ntohs datagram.tcp.sport ∧
    (unixSocket = true ∨ unixSocket = false ∧ conn.ipAddr = datagram.ip.saddr) ∧
    ntohl datagram.tcp.seq ≥ conn.theirInitSeqno ∧ ntohl datagram.tcp.ack ≥ conn.initSeqno

/-- `recv_filter`, when `recv` has returned `r` and put `datagram` into the buffer. -/
def recvFilter {α : Type} (config : Config) (unixSocket : Bool) (details : α → SeqConn)
    (connections : List α) (r : Int) (datagram : Datagram) : Filtered α :=
  if r < 0 then .failed
  else if r < fullHdrSize.toNat then .dropped
  else if datagram.tcp.dport ≠ htons config.port then .dropped
  else if datagram.tcp.flags &&& thRst ≠ 0 then .exited
  else if datagram.tcp.flags &&& thSyn ≠ 0 then .handshake
  else
    match connections.find? fun conn => expects unixSocket datagram (details conn) with
    | some conn => .attributed conn
    | none => .dropped

/-- What `recv` returns for a packet: its length, up to the size of the buffer. -/
def Datagram.recvLen (datagram : Datagram) : Int :=
  (min maxPacketSize (fullHdrSize.toNat + datagram.payload.length) : Nat)

/-! ## Established connections -/

/-- `dst` is what the sender knows of the receiver, and `src` what the receiver knows of it. -/
structure Established (sender receiver : Config) (unixSocket : Bool) (dst src : SeqConn) :
    Prop where
  mirror : Mirror dst src
  dstPort : dst.port = receiver.port
  srcPort : src.port = sender.port
  srcAddr : unixSocket = true ∨ src.ipAddr = sender.ipAddr

/-- **The handshake establishes a connection**, in both directions. -/
theorem established_of_connect (client server : Config) (ipAddr : UInt32)
    (clientRand serverRand : UInt32) :
    ∃ sconn conn ack,
      connect client server (connSetup ipAddr server.port clientRand) serverRand
        = some (sconn, conn, some ack) ∧
      Established client server true sconn conn ∧ Established server client true conn sconn := by
  have hconnect := connect_eq client server (connSetup ipAddr server.port clientRand) serverRand
  obtain ⟨sconn, conn, ack, hsome, hmirror, -, -⟩ :=
    handshake_mirror client server ipAddr server.port clientRand serverRand
  obtain ⟨rfl, rfl, rfl⟩ : _ = sconn ∧ _ = conn ∧ _ = ack := by
    have heq := hconnect.symm.trans hsome
    simpa only [Option.some.injEq, Prod.mk.injEq] using heq
  have hport : (tcpNewConnection server serverRand
      (createTcpSeg client (connSetup ipAddr server.port clientRand) thSyn).1).2.1.port
        = client.port := htons_htons client.port
  exact ⟨_, _, _, hsome, ⟨hmirror, rfl, hport, Or.inl rfl⟩,
    ⟨hmirror.symm, hport, rfl, Or.inl rfl⟩⟩

/-! ## The packet of a segment -/

section Sent

variable (config : Config) (runProgram unixSocket : Bool) (dst : SeqConn) (segment : CtcpSegment)
  (len : Nat)

/-- A flag that the segment does not have, and that is not the ACK which goes to the web. -/
theorem flag_of_sent {flag : UInt8} (hack : thAck &&& flag = 0)
    (h : segment.flags.toUInt8 &&& flag = 0) :
    (convertToDatagram config runProgram unixSocket dst segment len).tcp.flags &&& flag = 0 := by
  show (if runProgram = false ∧ unixSocket = false then segment.flags.toUInt8 ||| thAck
    else segment.flags.toUInt8) &&& flag = 0
  split
  · apply UInt8.toBitVec_inj.mp
    have hbits := UInt8.toBitVec_inj.mpr h
    have hbits' := UInt8.toBitVec_inj.mpr hack
    rw [UInt8.toBitVec_and] at hbits hbits' ⊢
    rw [UInt8.toBitVec_or, BitVec.and_or_distrib_right, hbits, hbits']
    rfl
  · exact h

/-- The packet holds its headers. -/
theorem le_recvLen (datagram : Datagram) : ¬ datagram.recvLen < fullHdrSize.toNat := by
  have hhdr : fullHdrSize.toNat = 40 := rfl
  have hmax : maxPacketSize = 1480 := rfl
  unfold Datagram.recvLen
  omega

end Sent

/-- A sum is at least one of its summands exactly when it does not wrap. -/
theorem le_add_iff (init number : UInt32) :
    number + init ≥ init ↔ init.toNat + number.toNat < 2 ^ 32 := by
  have hnumber := number.toNat_lt
  have hinit := init.toNat_lt
  show init ≤ number + init ↔ _
  rw [UInt32.le_iff_toNat_le, UInt32.toNat_add]
  constructor
  · intro h
    apply Nat.lt_of_not_le
    intro hwrap
    omega
  · intro h
    omega

/-- The only connection of the list with its port is found, if the test holds. -/
theorem find_expects {connections : List SeqConn} {conn : SeqConn} (unixSocket : Bool)
    {datagram : Datagram} (hmem : conn ∈ connections)
    (hport : conn.port = ntohs datagram.tcp.sport)
    (hothers : ∀ other ∈ connections, other ≠ conn → other.port ≠ conn.port) :
    connections.find? (fun conn => expects unixSocket datagram conn)
      = if expects unixSocket datagram conn then some conn else none := by
  have honly : ∀ other ∈ connections, expects unixSocket datagram other = true → other = conn := by
    intro other hother htest
    apply Classical.byContradiction
    intro hne
    have hport' : other.port = ntohs datagram.tcp.sport := (of_decide_eq_true htest).1
    exact hothers other hother hne (hport'.trans hport.symm)
  split
  · rename_i htest
    cases hfind : connections.find? fun conn => expects unixSocket datagram conn with
    | none => exact absurd htest (List.find?_eq_none.mp hfind conn hmem)
    | some other =>
      have hother := List.mem_of_find?_eq_some hfind
      rw [honly other hother (List.find?_some hfind)]
  · rename_i htest
    apply List.find?_eq_none.mpr
    intro other hother htest'
    obtain rfl := honly other hother htest'
    exact htest htest'

/-- A packet is attributed to one of the connections, whose test it passes. -/
theorem mem_of_attributed {α : Type} {config : Config} {unixSocket : Bool} {details : α → SeqConn}
    {connections : List α} {r : Int} {datagram : Datagram} {conn : α}
    (h : recvFilter config unixSocket details connections r datagram = .attributed conn) :
    conn ∈ connections ∧ expects unixSocket datagram (details conn) = true := by
  unfold recvFilter at h
  iterate 5
    split at h
    · cases h
  split at h
  · rename_i conn' hfind
    obtain rfl := Filtered.attributed.inj h
    exact ⟨List.mem_of_find?_eq_some hfind,
      List.find?_some (p := fun conn => expects unixSocket datagram (details conn)) hfind⟩
  · cases h

/-- The packet comes from the port of the connection. -/
theorem sport_of_sent {sender receiver : Config} {unixSocket : Bool} {dst src : SeqConn}
    (hest : Established sender receiver unixSocket dst src) (runProgram : Bool)
    (segment : CtcpSegment) (len : Nat) :
    src.port = ntohs (convertToDatagram sender runProgram unixSocket dst segment len).tcp.sport := by
  show src.port = ntohs (htons sender.port)
  rw [hest.srcPort]
  exact (htons_htons _).symm

/-- **The test for the connection, on a packet of its own**: the ports and the address are right,
    and what is left are the two comparisons. -/
theorem expects_sent_iff {sender receiver : Config} {unixSocket : Bool} {dst src : SeqConn}
    (hest : Established sender receiver unixSocket dst src) (runProgram : Bool)
    (segment : CtcpSegment) (len : Nat) :
    expects unixSocket (convertToDatagram sender runProgram unixSocket dst segment len) src
        = true ↔
      dst.initSeqno.toNat + (ntohl segment.seqno).toNat < 2 ^ 32 ∧
        dst.theirInitSeqno.toNat + (ntohl segment.ackno).toNat < 2 ^ 32 := by
  have hsport := sport_of_sent hest runProgram segment len
  generalize hpacket : convertToDatagram sender runProgram unixSocket dst segment len = packet
    at hsport ⊢
  have hseq : ntohl packet.tcp.seq = ntohl segment.seqno + dst.initSeqno := by
    rw [← hpacket]
    exact htonl_htonl _
  have hack : ntohl packet.tcp.ack = ntohl segment.ackno + dst.theirInitSeqno := by
    rw [← hpacket]
    exact htonl_htonl _
  have hsource : packet.ip.saddr = sender.ipAddr := by
    rw [← hpacket]
    rfl
  have haddr : unixSocket = true ∨ unixSocket = false ∧ src.ipAddr = packet.ip.saddr := by
    rw [hsource]
    rcases hest.srcAddr with hunix | haddr
    · exact Or.inl hunix
    · cases unixSocket with
      | true => exact Or.inl rfl
      | false => exact Or.inr ⟨rfl, haddr⟩
  rw [← le_add_iff, ← le_add_iff, expects, decide_eq_true_iff, hseq, hack, ← hest.mirror.1,
    hest.mirror.2]
  exact ⟨fun h => h.2.2, fun h => ⟨hsport, haddr, h⟩⟩

/-- **When the packet of a segment is attributed to its connection**: when the two initial sequence
    numbers and the relative ones add up without a wrap. -/
theorem attributed_iff (sender receiver : Config) (runProgram unixSocket : Bool)
    (dst src : SeqConn) (connections : List SeqConn) (segment : CtcpSegment) (len : Nat)
    (hest : Established sender receiver unixSocket dst src) (hmem : src ∈ connections)
    (hothers : ∀ other ∈ connections, other ≠ src → other.port ≠ src.port)
    (hrst : segment.flags.toUInt8 &&& thRst = 0) (hsyn : segment.flags.toUInt8 &&& thSyn = 0) :
    let packet := convertToDatagram sender runProgram unixSocket dst segment len
    recvFilter receiver unixSocket id connections packet.recvLen packet = .attributed src ↔
      dst.initSeqno.toNat + (ntohl segment.seqno).toNat < 2 ^ 32 ∧
        dst.theirInitSeqno.toNat + (ntohl segment.ackno).toNat < 2 ^ 32 := by
  intro packet
  have hlen := le_recvLen packet
  have hpos : ¬ packet.recvLen < 0 := by
    have hhdr : fullHdrSize.toNat = 40 := rfl
    omega
  have hdport : packet.tcp.dport = htons receiver.port := congrArg htons hest.dstPort
  have hrst' : packet.tcp.flags &&& thRst = 0 :=
    flag_of_sent sender runProgram unixSocket dst segment len (by decide) hrst
  have hsyn' : packet.tcp.flags &&& thSyn = 0 :=
    flag_of_sent sender runProgram unixSocket dst segment len (by decide) hsyn
  have hsport := sport_of_sent hest runProgram segment len
  have hfind := find_expects unixSocket hmem hsport hothers
  -- none of the tests before the list of connections keeps the packet out
  rw [recvFilter, if_neg hpos, if_neg hlen, if_neg (fun h => h hdport), if_neg (fun h => h hrst'),
    if_neg (fun h => h hsyn')]
  simp only [id]
  rw [hfind, ← expects_sent_iff hest runProgram segment len]
  by_cases hexp : expects unixSocket packet src = true
  · rw [if_pos hexp]
    exact iff_of_true rfl hexp
  · rw [if_neg hexp]
    exact iff_of_false (by simp) hexp

/-- Two hosts on a Unix socket, both initial numbers 5. -/
def atFive (port : UInt16) : SeqConn := ⟨0, port, 5, 5, 0, 0, 0⟩

theorem established_atFive :
    Established ⟨0, 8888, 1440, 1440⟩ ⟨0, 9999, 1440, 1440⟩ true (atFive 9999) (atFive 8888) :=
  ⟨⟨rfl, rfl⟩, rfl, rfl, Or.inl rfl⟩

/-- The first segment is attributed to its connection, between two others. -/
theorem attributed_first :
    let packet := convertToDatagram ⟨0, 8888, 1440, 1440⟩ false true (atFive 9999)
      ⟨htonl 1, htonl 1, htons 20, 0, 0x10, 0, 0, []⟩ 20
    recvFilter ⟨0, 9999, 1440, 1440⟩ true id [atFive 7777, atFive 8888, atFive 6666]
      packet.recvLen packet = .attributed (atFive 8888) :=
  (attributed_iff ⟨0, 8888, 1440, 1440⟩ ⟨0, 9999, 1440, 1440⟩ false true (atFive 9999)
    (atFive 8888) [atFive 7777, atFive 8888, atFive 6666]
    ⟨htonl 1, htonl 1, htons 20, 0, 0x10, 0, 0, []⟩ 20 established_atFive (by decide) (by decide)
    (by decide) (by decide)).mpr (by decide)

/-- A segment far into the stream: its number and the initial one add up to 2^32, and the packet is
    dropped. -/
theorem dropped_after_wrap :
    let packet := convertToDatagram ⟨0, 8888, 1440, 1440⟩ false true (atFive 9999)
      ⟨htonl 4294967291, htonl 1, htons 20, 0, 0x10, 0, 0, []⟩ 20
    Established ⟨0, 8888, 1440, 1440⟩ ⟨0, 9999, 1440, 1440⟩ true (atFive 9999) (atFive 8888) ∧
      recvFilter ⟨0, 9999, 1440, 1440⟩ true id [atFive 8888] packet.recvLen packet = .dropped :=
  ⟨established_atFive, by decide⟩

end Ctcp.Packet
