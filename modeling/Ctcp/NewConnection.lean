/-
  Which segments the server keeps from `ctcp.c`: the global `new_connection`.

      /* Don't log or forward to student code if it's an ACK from a new
         connection. */

  A SYN leaves the port of its sender in `new_connection`, and a segment is taken for the ACK of
  the handshake when it comes from that port, has the ACK flag, and both its relative numbers are
  1.  There is one variable for all clients, and the length of the segment is not looked at.

  `packets_iterate` says what becomes of a packet that `recv_filter` accepts, whatever else happens
  in the iteration.  `only_handshake_acks_iff`: for clients on different ports, just the ACKs of
  their handshakes are withheld in exactly the runs in which each of these ACKs comes while
  `new_connection` is the port of its sender, and no other segment with these numbers does.
  `newConnection_of_run` is what that says about the order of arrivals: `new_connection` is the port
  of the last SYN, until a segment is withheld.
-/
import Ctcp.MainLoop
import Mathlib.Data.List.Nodup

set_option linter.unusedVariables false

namespace Ctcp.MainLoop

open Runs BackLinked Packet

/-! ## What should become of packets -/

/-- What is done with a packet: a call of `ctcp_receive`, or a segment that is withheld. -/
def Happening.ofPacket : Happening → Bool
  | .enter _ (.receive _ _ _) => true
  | .withhold _ => true
  | _ => false

/-- What has been done with packets. -/
def packetLog (log : List Happening) : List Happening := log.filter Happening.ofPacket

/-- An iteration, and whether the packet that arrives in it is the ACK of its sender's handshake. -/
structure Delivery where
  it : Iteration
  handshakeAck : Bool

/-- One iteration. -/
def deliver (setup : Setup) (s : Host) (d : Delivery) : Host := iterate setup s d.it

/-- What `recv_filter` makes of a packet. -/
def filtered (setup : Setup) (s : Host) (arrival : Arrival) : Filtered (Nat × SeqConn) :=
  recvFilter setup.net setup.unixSocket Prod.snd s.established arrival.length arrival.datagram

/-- A packet arrives that `recv_filter` attributes to a connection. -/
def Accepts (setup : Setup) (s : Host) (d : Delivery) (arrival : Arrival)
    (conn : Nat × SeqConn) : Prop :=
  s.status = .running ∧ d.it.packet = some arrival ∧ filtered setup s arrival = .attributed conn

/-- The connection that a packet is attributed to. -/
def attribution : Filtered (Nat × SeqConn) → Option (Nat × SeqConn)
  | .attributed conn => some conn
  | _ => none

theorem attribution_eq_some {filtered : Filtered (Nat × SeqConn)} {conn : Nat × SeqConn} :
    attribution filtered = some conn ↔ filtered = .attributed conn := by
  cases filtered <;> simp [attribution]

theorem forall_accepts_iff {setup : Setup} {s : Host} {d : Delivery}
    {P : Arrival → Nat × SeqConn → Prop} :
    (s.status = .running → ∀ arrival ∈ d.it.packet,
        ∀ conn ∈ attribution (filtered setup s arrival), P arrival conn) ↔
      ∀ arrival conn, Accepts setup s d arrival conn → P arrival conn := by
  constructor
  · rintro hall arrival conn ⟨hrunning, hpacket, hfiltered⟩
    exact hall hrunning arrival hpacket conn (attribution_eq_some.mpr hfiltered)
  · intro hall hrunning arrival hpacket conn hconn
    exact hall arrival conn ⟨hrunning, hpacket, attribution_eq_some.mp hconn⟩

instance (setup : Setup) (s : Host) (d : Delivery) (P : Arrival → Nat × SeqConn → Prop)
    [∀ arrival conn, Decidable (P arrival conn)] :
    Decidable (∀ arrival conn, Accepts setup s d arrival conn → P arrival conn) :=
  decidable_of_iff _ forall_accepts_iff

/-- The segment that is passed on. -/
def receives (arrival : Arrival) (conn : Nat × SeqConn) : Happening :=
  .enter conn.1 (.receive (convertToCtcp conn.2 arrival.datagram)
    (arrival.length - fullHdrSize.toNat + segmentHdrSize).toNat arrival.env)

/-- **Only the ACKs of handshakes are withheld**, and every other segment that is accepted goes to
    the connection of its sender, the only one with that port. -/
def OnlyHandshakeAcks (setup : Setup) (s : Host) (d : Delivery) : Prop :=
  ∀ arrival conn, Accepts setup s d arrival conn →
    (∀ other ∈ s.established, other.2.port = ntohs arrival.datagram.tcp.sport ↔ other = conn) ∧
      packetLog (deliver setup s d).log = packetLog s.log ++
        [if d.handshakeAck then .withhold conn.1 else receives arrival conn]

instance (setup : Setup) (s : Host) (d : Delivery) : Decidable (OnlyHandshakeAcks setup s d) :=
  inferInstanceAs (Decidable (∀ arrival conn, Accepts setup s d arrival conn → _ ∧ _))

/-- The ACK of a handshake, as the server reads it: empty, and both its numbers are 1. -/
def IsHandshakeAck (conn : SeqConn) (datagram : Datagram) : Prop :=
  datagram.payload = [] ∧ (convertToCtcp conn datagram).flags &&& thAck.toUInt32 ≠ 0 ∧
    ntohl (convertToCtcp conn datagram).seqno = 1 ∧ ntohl (convertToCtcp conn datagram).ackno = 1

instance (conn : SeqConn) (datagram : Datagram) : Decidable (IsHandshakeAck conn datagram) :=
  inferInstanceAs (Decidable (_ ∧ _))

/-- What may arrive: a SYN comes from a port that no connection has, and what is meant to be the ACK
    of a handshake is one. -/
def MayArrive (s : Host) (d : Delivery) (arrival : Arrival) : Filtered (Nat × SeqConn) → Prop
  | .handshake => ∀ conn ∈ s.established, conn.2.port ≠ ntohs arrival.datagram.tcp.sport
  | .attributed conn => d.handshakeAck = true → IsHandshakeAck conn.2 arrival.datagram
  | _ => True

instance (s : Host) (d : Delivery) (arrival : Arrival) :
    DecidablePred (MayArrive s d arrival)
  | .handshake => inferInstanceAs (Decidable (∀ conn ∈ s.established, _ ≠ _))
  | .attributed conn => inferInstanceAs (Decidable (_ → _))
  | .failed => isTrue trivial
  | .dropped => isTrue trivial
  | .exited => isTrue trivial

/-- The clients are on different ports, and the ACKs of their handshakes are such. -/
def Orderly (setup : Setup) (s : Host) (d : Delivery) : Prop :=
  ∀ arrival ∈ d.it.packet, MayArrive s d arrival (filtered setup s arrival)

instance (setup : Setup) (s : Host) (d : Delivery) : Decidable (Orderly setup s d) :=
  inferInstanceAs (Decidable (∀ arrival ∈ d.it.packet, _))

/-- The ACK of a handshake comes while `new_connection` is the port of its sender; another segment
    with the ACK flag, whose numbers are both 1, does not. -/
def GreetedInTurn (setup : Setup) (s : Host) (d : Delivery) : Prop :=
  ∀ arrival conn, Accepts setup s d arrival conn →
    (d.handshakeAck = true → arrival.datagram.tcp.sport = s.newConnection) ∧
      (d.handshakeAck = false →
        isNewAck s.newConnection arrival.datagram (convertToCtcp conn.2 arrival.datagram) = false)

instance (setup : Setup) (s : Host) (d : Delivery) : Decidable (GreetedInTurn setup s d) :=
  inferInstanceAs (Decidable (∀ arrival conn, Accepts setup s d arrival conn → _ ∧ _))

/-! ## What has nothing to do with packets -/

/-- The parts of an iteration that have nothing to do with packets. -/
structure Unseen (s t : Host) : Prop where
  same : SameTable s t
  packets : packetLog t.log = packetLog s.log

theorem frame_unseen : Frame Unseen where
  refl s := ⟨frame_sameTable.refl s, rfl⟩
  trans h h' := ⟨frame_sameTable.trans h.same h'.same, h'.packets.trans h.packets⟩

/-- A callback is a packet's only if it is `ctcp_receive`. -/
theorem packetLog_call (s : Host) (role : Role) (state : Nat) (call : Call) :
    packetLog (s.call role state call).log
      = packetLog s.log ++ packetLog [.enter state call] := by
  have hdoes : ∀ es : List Event, packetLog (es.map (Happening.does state)) = [] := by
    intro es
    refine List.filter_eq_nil_iff.mpr ?_
    intro h hin
    obtain ⟨e, -, rfl⟩ := List.mem_map.mp hin
    exact Bool.false_ne_true
  have hhappen : packetLog (s.happenings state call) = packetLog [.enter state call] := by
    unfold Host.happenings
    split
    · rfl
    · rename_i old hold
      show packetLog ([.enter state call] ++ _) = _
      rw [packetLog, List.filter_append]
      have hnil := hdoes (events old call)
      rw [packetLog] at hnil
      rw [hnil, List.append_nil]
      rfl
  rw [log_call, packetLog, List.filter_append]
  exact congrArg (packetLog s.log ++ ·) hhappen

theorem unseen_call (s : Host) (role : Role) (state : Nat) (call : Call)
    (hcall : packetLog [.enter state call] = []) : Unseen s (s.call role state call) := by
  refine ⟨sameTable_call s role state call, ?_⟩
  rw [packetLog_call, hcall, List.append_nil]

section Parts

variable (setup : Setup) (it : Iteration)

/-- Before the packet. -/
theorem unseen_before (s : Host) :
    Unseen s (readPrograms setup it (drainAll setup it (readStdin setup it s))) := by
  have hread : ∀ s state input sent, Unseen s (s.call setup.role state (.read input sent)) :=
    fun s state _ _ => unseen_call s setup.role state _ rfl
  have houtput : ∀ s state env, Unseen s (s.call setup.role state (.output env)) :=
    fun s state _ => unseen_call s setup.role state _ rfl
  have hstdin := frame_readStdin frame_unseen hread it s
  have hdrain := frame_drainAll frame_unseen houtput it (readStdin setup it s)
  have hprograms := frame_readPrograms frame_unseen hread it
    (drainAll setup it (readStdin setup it s))
  exact frame_unseen.trans (frame_unseen.trans hstdin hdrain) hprograms

theorem unseen_checkTimer (s : Host) : Unseen s (checkTimer setup it s) :=
  frame_checkTimer frame_unseen (fun s state => unseen_call s setup.role state .timer rfl)
    (fun s _ => ⟨⟨rfl, rfl, rfl⟩, rfl⟩) it s

/-- A server goes on after each of them. -/
theorem status_parts (hserver : setup.role = .server) (s : Host) :
    (readStdin setup it s).status = s.status ∧ (drainAll setup it s).status = s.status ∧
      (readPrograms setup it s).status = s.status := by
  have hcall : ∀ (s : Host) state call, (s.call setup.role state call).status = s.status :=
    fun s state call => status_server s setup.role state call hserver
  exact ⟨frame_readStdin frame_status (fun s state _ _ => hcall s state _) it s,
    frame_drainAll frame_status (fun s state _ => hcall s state _) it s,
    frame_readPrograms frame_status (fun s state _ _ => hcall s state _) it s⟩

/-- **An iteration, as packets see it**: what comes before the packet and what comes after it has
    nothing to do with packets. -/
theorem iterate_packet (hserver : setup.role = .server) {s : Host}
    (hrunning : s.status = .running) :
    ∃ t, Unseen s t ∧ t.status = .running ∧
      iterate setup s it = ((receivePacket setup it t).andThen (checkTimer setup it)).andThen
        deleteAllConnections := by
  obtain ⟨hstdin, -, -⟩ := status_parts setup it hserver s
  have hrunning₁ := hstdin.trans hrunning
  obtain ⟨-, hdrain, -⟩ := status_parts setup it hserver (readStdin setup it s)
  have hrunning₂ := hdrain.trans hrunning₁
  obtain ⟨-, -, hprograms⟩ :=
    status_parts setup it hserver (drainAll setup it (readStdin setup it s))
  have hrunning₃ := hprograms.trans hrunning₂
  refine ⟨_, unseen_before setup it s, hrunning₃, ?_⟩
  unfold iterate
  rw [andThen_running hrunning, andThen_running hrunning₁, andThen_running hrunning₂,
    andThen_running hrunning₃]

end Parts

/-! ## One packet -/

section Packet

variable {setup : Setup} {s : Host} {d : Delivery} {arrival : Arrival} {conn : Nat × SeqConn}

/-- What `recv_filter` sees after the packet, and what has been done with packets, do not change in
    the rest of the iteration. -/
theorem rest_packets (setup : Setup) (it : Iteration) (s : Host) :
    let t := (s.andThen (checkTimer setup it)).andThen deleteAllConnections
    t.established.Sublist s.established ∧ packetLog t.log = packetLog s.log ∧
      t.newConnection = s.newConnection := by
  have hdelete : ∀ u : Host,
      (u.andThen deleteAllConnections).established.Sublist u.established ∧
        packetLog (u.andThen deleteAllConnections).log = packetLog u.log ∧
        (u.andThen deleteAllConnections).newConnection = u.newConnection := by
    intro u
    unfold Host.andThen
    split
    · exact ⟨(sublist_deleteAll u).1.map _, rfl, rfl⟩
    · exact ⟨List.Sublist.refl _, rfl, rfl⟩
  have htimer := frame_andThen frame_unseen (unseen_checkTimer setup it) s
  obtain ⟨hsub, hlog, hnew⟩ := hdelete (s.andThen (checkTimer setup it))
  rw [htimer.same.established] at hsub
  exact ⟨hsub, hlog.trans htimer.packets, hnew.trans htimer.same.newConnection⟩

/-- **What becomes of a packet that is accepted.** -/
theorem packets_iterate (hserver : setup.role = .server) (h : Accepts setup s d arrival conn) :
    packetLog (deliver setup s d).log = packetLog s.log ++
      [if isNewAck s.newConnection arrival.datagram (convertToCtcp conn.2 arrival.datagram) then
        .withhold conn.1 else receives arrival conn] := by
  obtain ⟨hrunning, hpacket, hfiltered⟩ := h
  obtain ⟨t, hunseen, -, hiterate⟩ := iterate_packet setup d.it hserver hrunning
  obtain ⟨-, hlog, -⟩ := rest_packets setup d.it (receivePacket setup d.it t)
  -- what comes before the packet leaves `new_connection` and the connections as they were
  have hdispose : dispose setup t.newConnection t.established arrival
      = if isNewAck s.newConnection arrival.datagram (convertToCtcp conn.2 arrival.datagram) then
          .withheld conn.1
        else .passed conn.1 (convertToCtcp conn.2 arrival.datagram)
          (arrival.length - fullHdrSize.toNat + segmentHdrSize).toNat := by
    rw [hunseen.same.newConnection, hunseen.same.established, dispose]
    rw [filtered] at hfiltered
    rw [hfiltered]
  rw [deliver, hiterate, hlog, ← hunseen.packets]
  unfold receivePacket
  rw [hpacket]
  by_cases hnew : isNewAck s.newConnection arrival.datagram
      (convertToCtcp conn.2 arrival.datagram) = true
  · rw [if_pos hnew] at hdispose ⊢
    simp only [hdispose]
    show packetLog (t.log ++ [.withhold conn.1]) = _
    rw [packetLog, List.filter_append]
    rfl
  · rw [if_neg hnew] at hdispose ⊢
    simp only [hdispose]
    rw [packetLog_call]
    rfl

/-- The ports of the connections differ. -/
def PortsDiffer (s : Host) : Prop := (s.established.map fun conn => conn.2.port).Nodup

/-- **A client on a port of its own** is the only one that may come. -/
theorem portsDiffer_receivePacket {it : Iteration} (h : PortsDiffer s)
    (hports : ∀ arrival, it.packet = some arrival → filtered setup s arrival = .handshake →
      ∀ conn ∈ s.established, conn.2.port ≠ ntohs arrival.datagram.tcp.sport) :
    PortsDiffer (receivePacket setup it s) := by
  unfold receivePacket
  split
  · exact h
  · rename_i arrival hpacket
    split
    · exact h
    · exact h
    · rename_i hdispose
      have hfiltered : filtered setup s arrival = .handshake := by
        unfold dispose at hdispose
        split at hdispose
        case h_4 heq => exact heq
        case h_5 =>
          dsimp only at hdispose
          split at hdispose <;> cases hdispose
        all_goals cases hdispose
      show PortsDiffer (tcpNewConnection setup s arrival)
      unfold tcpNewConnection
      split
      · exact h
      · split
        · exact h
        · refine List.nodup_cons.mpr ⟨?_, h⟩
          intro hin
          obtain ⟨conn, hconn, hport⟩ := List.mem_map.mp hin
          exact hports arrival hpacket hfiltered conn hconn hport
    · exact h
    · rename_i state segment len hdispose
      unfold PortsDiffer
      rw [(sameTable_call s setup.role state _).established]
      exact h

theorem portsDiffer_deliver (hserver : setup.role = .server) (h : PortsDiffer s)
    (horderly : Orderly setup s d) : PortsDiffer (deliver setup s d) := by
  by_cases hrunning : s.status = .running
  · obtain ⟨t, hunseen, -, hiterate⟩ := iterate_packet setup d.it hserver hrunning
    have hest := hunseen.same.established
    have hdiffer : PortsDiffer (receivePacket setup d.it t) := by
      refine portsDiffer_receivePacket ?_ ?_
      · unfold PortsDiffer
        rw [hest]
        exact h
      · intro arrival hpacket hfiltered
        have hmay := horderly arrival hpacket
        unfold filtered at hfiltered hmay
        rw [hest] at hfiltered ⊢
        rw [hfiltered] at hmay
        exact hmay
    obtain ⟨hsub, -, -⟩ := rest_packets setup d.it (receivePacket setup d.it t)
    rw [deliver, hiterate]
    exact (hsub.map _).nodup hdiffer
  · rw [deliver, iterate_stopped setup d.it hrunning]
    exact h

/-- The connection of a packet is the only one with its port. -/
theorem own_connection (h : PortsDiffer s) (hfiltered : filtered setup s arrival = .attributed conn)
    (other : Nat × SeqConn) (hother : other ∈ s.established) :
    other.2.port = ntohs arrival.datagram.tcp.sport ↔ other = conn := by
  obtain ⟨hmem, htest⟩ := mem_of_attributed hfiltered
  have hport : conn.2.port = ntohs arrival.datagram.tcp.sport := (of_decide_eq_true htest).1
  constructor
  · intro hsame
    exact List.inj_on_of_nodup_map h hother hmem (hsame.trans hport.symm)
  · rintro rfl
    exact hport

/-- The test, for the ACK of a handshake. -/
theorem isNewAck_iff {newConnection : UInt16} {details : SeqConn} {datagram : Datagram}
    (hack : IsHandshakeAck details datagram) :
    isNewAck newConnection datagram (convertToCtcp details datagram) = true ↔
      datagram.tcp.sport = newConnection := by
  obtain ⟨-, hflag, hseqno, hackno⟩ := hack
  rw [isNewAck, decide_eq_true_iff]
  exact ⟨fun h => h.1, fun h => ⟨h, hflag, hseqno, hackno⟩⟩

/-- What is done with an accepted packet is what should be, if the test answers what the packet
    is. -/
theorem packets_right_iff (hserver : setup.role = .server) (h : Accepts setup s d arrival conn) :
    packetLog (deliver setup s d).log = packetLog s.log ++
        [if d.handshakeAck then .withhold conn.1 else receives arrival conn] ↔
      isNewAck s.newConnection arrival.datagram (convertToCtcp conn.2 arrival.datagram)
        = d.handshakeAck := by
  have hne : Happening.withhold conn.1 ≠ receives arrival conn := Happening.noConfusion
  rw [packets_iterate hserver h, List.append_cancel_left_eq, List.cons.injEq]
  -- withheld or passed on, and meant to be the one or the other: two of the four are right
  cases isNewAck s.newConnection arrival.datagram (convertToCtcp conn.2 arrival.datagram) with
  | true =>
    cases d.handshakeAck with
    | true => simp
    | false => simpa using hne
  | false =>
    cases d.handshakeAck with
    | true => simpa using hne.symm
    | false => simp

/-- **One iteration.** -/
theorem onlyHandshakeAcks_iff (hserver : setup.role = .server) (h : PortsDiffer s)
    (horderly : Orderly setup s d) :
    OnlyHandshakeAcks setup s d ↔ GreetedInTurn setup s d := by
  refine forall_congr' fun arrival => forall_congr' fun conn => forall_congr' fun haccepts => ?_
  rw [packets_right_iff hserver haccepts,
    and_iff_right (own_connection h haccepts.2.2)]
  cases hkind : d.handshakeAck with
  | true =>
    have hmay := horderly arrival haccepts.2.1
    rw [haccepts.2.2] at hmay
    rw [isNewAck_iff (hmay hkind)]
    simp
  | false => simp

end Packet

/-! ## The order of arrivals -/

section Order

variable {setup : Setup} {s : Host} {d : Delivery} {arrival : Arrival}

/-- No client comes, and nothing is withheld. -/
def NobodyGreeted (setup : Setup) (s : Host) (d : Delivery) : Prop :=
  ∀ arrival, d.it.packet = some arrival →
    dispose setup s.newConnection s.established arrival ≠ .newClient ∧
      ∀ state, dispose setup s.newConnection s.established arrival ≠ .withheld state

/-- `new_connection` is what the packet makes of it. -/
theorem newConnection_deliver (hserver : setup.role = .server) (hrunning : s.status = .running) :
    ∃ t, t.newConnection = s.newConnection ∧ t.established = s.established ∧
      (deliver setup s d).newConnection = (receivePacket setup d.it t).newConnection := by
  obtain ⟨t, hunseen, -, hiterate⟩ := iterate_packet setup d.it hserver hrunning
  obtain ⟨-, -, hnew⟩ := rest_packets setup d.it (receivePacket setup d.it t)
  refine ⟨t, hunseen.same.newConnection, hunseen.same.established, ?_⟩
  rw [deliver, hiterate]
  exact hnew

/-- A SYN leaves the port of its sender, also when the client is refused. -/
theorem newConnection_syn (hserver : setup.role = .server) (hrunning : s.status = .running)
    (hpacket : d.it.packet = some arrival) (hsyn : filtered setup s arrival = .handshake) :
    (deliver setup s d).newConnection = arrival.datagram.tcp.sport := by
  obtain ⟨t, hnew, hest, hdeliver⟩ := newConnection_deliver (d := d) hserver hrunning
  have hdispose : dispose setup t.newConnection t.established arrival = .newClient := by
    rw [hest, dispose]
    rw [filtered] at hsyn
    rw [hsyn]
  rw [hdeliver, receivePacket, hpacket]
  simp only [hdispose]

/-- Nothing else sets it. -/
theorem newConnection_quiet (hserver : setup.role = .server) (hquiet : NobodyGreeted setup s d) :
    (deliver setup s d).newConnection = s.newConnection := by
  by_cases hrunning : s.status = .running
  · obtain ⟨t, hnew, hest, hdeliver⟩ := newConnection_deliver (d := d) hserver hrunning
    rw [hdeliver, ← hnew]
    unfold receivePacket
    split
    · rfl
    · rename_i arrival hpacket
      have hquiet' := hquiet arrival hpacket
      rw [← hnew, ← hest] at hquiet'
      split
      · rfl
      · rfl
      · rename_i hdispose
        exact absurd hdispose hquiet'.1
      · rename_i state hdispose
        exact absurd hdispose (hquiet'.2 state)
      · exact (sameTable_call t setup.role _ _).newConnection
  · rw [deliver, iterate_stopped setup d.it hrunning]

/-- **`new_connection` is the port of the last SYN, until a segment is withheld.** -/
theorem newConnection_of_run (hserver : setup.role = .server) (hrunning : s.status = .running)
    (hpacket : d.it.packet = some arrival) (hsyn : filtered setup s arrival = .handshake)
    {ds : List Delivery}
    (hquiet : Along (deliver setup) (NobodyGreeted setup) (deliver setup s d) ds) :
    (run (deliver setup) s (d :: ds)).newConnection = arrival.datagram.tcp.sport := by
  have hset := newConnection_syn hserver hrunning hpacket hsyn
  rw [run]
  refine hquiet.invariant (I := fun t => t.newConnection = arrival.datagram.tcp.sport) ?_ hset
  intro t d' ht hd'
  exact (newConnection_quiet hserver hd').trans ht

end Order

/-! ## Whole runs -/

/-- **Only the ACKs of handshakes are withheld in exactly the runs in which each of them comes while
    `new_connection` is the port of its sender, and no other segment with these numbers does.** -/
theorem only_handshake_acks_iff (net : Packet.Config) (runProgram unixSocket : Bool)
    (intervals : CtcpConfig) (ds : List Delivery)
    (horderly : Along (deliver ⟨.server, net, runProgram, unixSocket, intervals⟩)
      (Orderly ⟨.server, net, runProgram, unixSocket, intervals⟩) Host.init ds) :
    let setup : Setup := ⟨.server, net, runProgram, unixSocket, intervals⟩
    Along (deliver setup) (OnlyHandshakeAcks setup) Host.init ds ↔
      Along (deliver setup) (GreetedInTurn setup) Host.init ds := by
  intro setup
  have hstep : ∀ s d, PortsDiffer s → Orderly setup s d ∧ OnlyHandshakeAcks setup s d →
      PortsDiffer (deliver setup s d) :=
    fun s d h hboth => portsDiffer_deliver rfl h hboth.1
  have hiff : ∀ s d, PortsDiffer s →
      (Orderly setup s d ∧ OnlyHandshakeAcks setup s d ↔
        Orderly setup s d ∧ GreetedInTurn setup s d) :=
    fun s d h => and_congr_right fun horderly => onlyHandshakeAcks_iff rfl h horderly
  have hboth : Along (deliver setup) (fun s d => Orderly setup s d ∧ OnlyHandshakeAcks setup s d)
        Host.init ds ↔
      Along (deliver setup) (fun s d => Orderly setup s d ∧ GreetedInTurn setup s d)
        Host.init ds :=
    along_iff_of_invariant hstep hiff List.nodup_nil
  constructor
  · intro honly
    exact (hboth.mp (horderly.and honly)).imp fun s d h => h.2
  · intro hturn
    exact (hboth.mpr (horderly.and hturn)).imp fun s d h => h.2

/-- A server on port 9999, on Unix sockets. -/
def unixServer : Setup := ⟨.server, ⟨0, 9999, 1440, 1440⟩, false, true, ctcpCfg⟩

/-- A packet from the client on this port.  The initial numbers are all 5. -/
def sentFrom (port : UInt16) (seq ack : UInt32) (flags : UInt8) (sum : UInt16)
    (payload : List UInt8) (handshakeAck : Bool) : Delivery :=
  ⟨.receives (packetOf port 9999 seq ack flags sum payload) Env.roomy 5, handshakeAck⟩

/-- The SYN, the ACK of the handshake, and two bytes of data. -/
def oneClient : List Delivery :=
  [sentFrom 8888 5 0 thSyn 30560 [] false, sentFrom 8888 6 6 thAck 25184 [] true,
    sentFrom 8888 6 6 thAck 63223 [104, 105] false]

/-- Nothing but the ACK is withheld from a client that is alone. -/
theorem only_handshake_acks_alone :
    Along (deliver unixServer) (OnlyHandshakeAcks unixServer) Host.init oneClient :=
  (only_handshake_acks_iff ⟨0, 9999, 1440, 1440⟩ false true ctcpCfg oneClient
    (by decide +kernel)).mpr (by decide +kernel)

/-- A second client comes before the ACK of the first. -/
def clientBetween : List Delivery :=
  [sentFrom 8888 5 0 thSyn 30560 [] false, sentFrom 7777 5 0 thSyn 52836 [] false,
    sentFrom 8888 6 6 thAck 25184 [] true]

/-- The ACK is lost, and the data come. -/
def ackLost : List Delivery :=
  [sentFrom 8888 5 0 thSyn 30560 [] false, sentFrom 8888 6 6 thAck 63223 [104, 105] false]

/-- The ACK of the first client is passed on, and the data are withheld. -/
theorem data_withheld :
    (Along (deliver unixServer) (Orderly unixServer) Host.init clientBetween ∧
      ¬ Along (deliver unixServer) (OnlyHandshakeAcks unixServer) Host.init clientBetween) ∧
    Along (deliver unixServer) (Orderly unixServer) Host.init ackLost ∧
      ¬ Along (deliver unixServer) (OnlyHandshakeAcks unixServer) Host.init ackLost := by
  decide +kernel

end Ctcp.MainLoop
