/-
  A server and its clients.

  The server runs `do_loop`, with one connection for each client; a client runs its own, with the
  connection to the server.  Packets of the clients arrive in any order and any number of times, or
  never, and in between the server reads input, drains its queues, runs its timers and removes
  connections.

  `clients_in_order`: each client gets a prefix of what the server has read for it, and the server
  outputs for each client a prefix of what that client has read, whatever the others do.  Two things
  come together: `recv_filter` attributes each packet to the connection of the client that it has
  left (`Sent.own`), because the clients have different ports; and what the loop does with one
  connection is a run of that connection alone (`Ctcp.Projection`), so that the server and one
  client are a network of two (`netOf`).

  Clients are numbered in the order in which the server accepts them: `num_connected` is the name of
  the next one.
-/
import Ctcp.PacketNet
import Ctcp.NewConnection
import Ctcp.Projection

set_option linter.unusedVariables false

namespace Ctcp.MainLoop

open Runs History Pipes Keyed Members BackLinked Packet

/-! ## An iteration of the server, as packets see it -/

/-- What is done with a packet. -/
def doneWith (arrival : Arrival) : Disposal → List Happening
  | .passed state segment len => [.enter state (.receive segment len arrival.env)]
  | .withheld state => [.withhold state]
  | _ => []

/-- The calls for one connection in an iteration. -/
def newCalls (setup : Setup) (s : Host) (it : Iteration) (state : Nat) : List Call :=
  callsOf state (entered ((iterate setup s it).log.drop s.log.length))

section Iterate

variable {setup : Setup} {s : Host} {it : Iteration} {state : Nat}

theorem packetLog_append (h h' : List Happening) :
    packetLog (h ++ h') = packetLog h ++ packetLog h' := by simp [packetLog]

theorem packetLog_receivePacket (s : Host) (it : Iteration) :
    packetLog (receivePacket setup it s).log = packetLog s.log ++
      (it.packet.map fun arrival =>
        doneWith arrival (dispose setup s.newConnection s.established arrival)).getD [] := by
  unfold receivePacket
  cases hpacket : it.packet with
  | none => exact (List.append_nil _).symm
  | some arrival =>
    simp only [Option.map_some, Option.getD_some]
    cases hdispose : dispose setup s.newConnection s.established arrival with
    | ignored => exact (List.append_nil _).symm
    | reset => exact (List.append_nil _).symm
    | newClient =>
      show packetLog (tcpNewConnection setup s arrival).log = packetLog s.log ++ []
      rw [log_tcpNewConnection, List.append_nil]
    | withheld state => exact packetLog_append s.log [.withhold state]
    | passed state segment len =>
      exact packetLog_call s setup.role state (.receive segment len arrival.env)

variable (it) in
/-- **What an iteration does with its packet**: what `dispose` says, for the connections that there
    were before. -/
theorem packetLog_iterate (hserver : setup.role = .server) (hrunning : s.status = .running) :
    packetLog (iterate setup s it).log = packetLog s.log ++
      (it.packet.map fun arrival =>
        doneWith arrival (dispose setup s.newConnection s.established arrival)).getD [] := by
  obtain ⟨t, hunseen, -, hiterate⟩ := iterate_packet setup it hserver hrunning
  obtain ⟨-, hlog, -⟩ := rest_packets setup it (receivePacket setup it t)
  rw [hiterate, hlog, packetLog_receivePacket, hunseen.packets, hunseen.same.newConnection,
    hunseen.same.established]

variable (setup s it state) in
/-- The calls of an iteration come after the earlier ones. -/
theorem callsOf_iterate :
    callsOf state (entered (iterate setup s it).log)
      = callsOf state (entered s.log) ++ newCalls setup s it state := by
  obtain ⟨new, hlog⟩ := @log_prefix_iterate setup s it
  rw [newCalls, ← hlog, List.drop_left, entered_append, callsOf_append]

/-- **A segment that is received in an iteration came in its packet.** -/
theorem received_of_newCalls (hserver : setup.role = .server) {segment : CtcpSegment} {len : Nat}
    {env : Env} (hcall : .receive segment len env ∈ newCalls setup s it state) :
    ∃ arrival, it.packet = some arrival ∧ env = arrival.env ∧
      dispose setup s.newConnection s.established arrival = .passed state segment len := by
  obtain ⟨new, hlog⟩ := @log_prefix_iterate setup s it
  rw [newCalls, ← hlog, List.drop_left] at hcall
  -- the call is in the record, and it is a packet's
  have hentered : (state, .receive segment len env) ∈ entered new := by
    obtain ⟨x, hx, hsome⟩ := List.mem_filterMap.mp hcall
    split at hsome
    · rename_i hname
      obtain ⟨name, call⟩ := x
      obtain rfl := Option.some.inj hsome
      obtain rfl : name = state := hname
      exact hx
    · cases hsome
  have hmem : .enter state (.receive segment len env) ∈ packetLog new := by
    obtain ⟨happening, hin, hsome⟩ := List.mem_filterMap.mp hentered
    refine List.mem_filter.mpr ⟨?_, rfl⟩
    cases happening with
    | enter name call =>
      obtain ⟨rfl, rfl⟩ := Prod.mk.inj (Option.some.inj hsome)
      exact hin
    | does => cases hsome
    | withhold => cases hsome
  by_cases hrunning : s.status = .running
  · have hpackets := packetLog_iterate it hserver hrunning
    rw [← hlog, packetLog_append, List.append_cancel_left_eq] at hpackets
    rw [hpackets] at hmem
    cases hpacket : it.packet with
    | none =>
      rw [hpacket] at hmem
      cases hmem
    | some arrival =>
      rw [hpacket] at hmem
      refine ⟨arrival, rfl, ?_⟩
      replace hmem : .enter state (.receive segment len env)
        ∈ doneWith arrival (dispose setup s.newConnection s.established arrival) := hmem
      cases hdispose : dispose setup s.newConnection s.established arrival with
      | passed state' segment' len' =>
        rw [hdispose] at hmem
        obtain ⟨rfl, hreceive⟩ := Happening.enter.inj (List.mem_singleton.mp hmem)
        obtain ⟨rfl, rfl, rfl⟩ := Call.receive.inj hreceive
        exact ⟨rfl, rfl⟩
      | withheld state' =>
        rw [hdispose] at hmem
        cases List.mem_singleton.mp hmem
      | _ =>
        rw [hdispose] at hmem
        cases hmem
  · rw [iterate_stopped setup it hrunning] at hlog
    have hnil : new = [] := List.append_right_eq_self.mp hlog
    rw [hnil] at hmem
    cases hmem

theorem numConnected_rest (setup : Setup) (it : Iteration) (s : Host) :
    ((s.andThen (checkTimer setup it)).andThen deleteAllConnections).numConnected
      = s.numConnected := by
  have hdelete : ∀ u : Host, (u.andThen deleteAllConnections).numConnected = u.numConnected := by
    intro u
    unfold Host.andThen
    split <;> rfl
  have htimer := frame_andThen frame_unseen (unseen_checkTimer setup it) s
  exact (hdelete _).trans htimer.same.numConnected

variable (s it) in
/-- The connections after an iteration: those there were, and perhaps a new one. -/
theorem table_iterate (hserver : setup.role = .server) :
    ((iterate setup s it).established.Sublist s.established ∧
        (iterate setup s it).numConnected = s.numConnected) ∨
      ∃ arrival, it.packet = some arrival ∧
        dispose setup s.newConnection s.established arrival = .newClient ∧
        s.numConnected < maxNumClients ∧
        (iterate setup s it).numConnected = s.numConnected + 1 ∧
        (iterate setup s it).established.Sublist
          ((s.numConnected, (Packet.tcpNewConnection setup.net arrival.rand arrival.datagram).2.1)
            :: s.established) := by
  by_cases hrunning : s.status = .running
  · obtain ⟨t, hunseen, -, hiterate⟩ := iterate_packet setup it hserver hrunning
    obtain ⟨hsub, -, -⟩ := rest_packets setup it (receivePacket setup it t)
    have hcount := numConnected_rest setup it (receivePacket setup it t)
    rw [← hiterate] at hsub hcount
    obtain ⟨hestablished, hconnected, hnew⟩ := hunseen.same
    rw [hcount, ← hestablished, ← hconnected, ← hnew]
    revert hsub
    unfold receivePacket
    cases hpacket : it.packet with
    | none => exact fun hsub => Or.inl ⟨hsub, rfl⟩
    | some arrival =>
      simp only [Option.some.injEq, exists_eq_left']
      cases hdispose : dispose setup t.newConnection t.established arrival with
      | ignored => exact fun hsub => Or.inl ⟨hsub, rfl⟩
      | reset => exact fun hsub => Or.inl ⟨hsub, rfl⟩
      | withheld state => exact fun hsub => Or.inl ⟨hsub, rfl⟩
      | passed state segment len =>
        have hsame := sameTable_call t setup.role state (.receive segment len arrival.env)
        intro hsub
        refine Or.inl ⟨?_, hsame.numConnected⟩
        rw [← hsame.established]
        exact hsub
      | newClient =>
        have hrole : ¬ setup.role = .client := by simp [hserver]
        simp only [tcpNewConnection, if_neg hrole]
        by_cases hfull : t.numConnected ≥ maxNumClients
        · simp only [if_pos hfull]
          exact fun hsub => Or.inl ⟨hsub, trivial⟩
        · simp only [if_neg hfull]
          exact fun hsub => Or.inr ⟨trivial, Nat.lt_of_not_le hfull, trivial, hsub⟩
  · rw [iterate_stopped setup it hrunning]
    exact Or.inl ⟨List.Sublist.refl _, rfl⟩

end Iterate

/-! ## The server and its clients -/

/-- The clients of a server: how client `k` and the server are connected, the client on side `a`.
    The clients have different ports. -/
structure Clients where
  setup : Setup
  wiring : Nat → Wiring
  role : setup.role = .server
  server : ∀ k, (wiring k).setup .b = setup
  ports : ∀ j k, j < maxNumClients → k < maxNumClients →
    ((wiring j).conn .b).port = ((wiring k).conn .b).port → j = k

/-- The process of the server, and the endpoints of the clients. -/
structure Party where
  server : Host
  clients : Nat → CtcpState

/-- What happens: an iteration of the server, or something in a client. -/
inductive PartyLabel where
  | serve (it : Iteration)
  | client (k : Nat) (call : PacketCall)

/-- The callback that a client makes of it.  In a client `new_connection` is 0. -/
def clientCall (w : Wiring) : PacketCall → Option Call
  | .read input sent => some (.read input sent)
  | .timer => some .timer
  | .drain env => some (.output env)
  | .packet datagram env =>
    (onDisposal 0 env
      (dispose (w.setup .a) 0 [(0, w.conn .a)] ⟨datagram.recvLen, datagram, env, 0⟩)).1

/-- One step. -/
def partyStep (c : Clients) (party : Party) : PartyLabel → Party
  | .serve it => { party with server := iterate c.setup party.server it }
  | .client k call =>
    { party with
      clients := fun j =>
        if j = k then run step (party.clients k) (clientCall (c.wiring k) call).toList
        else party.clients j }

theorem partyStep_serve (c : Clients) (party : Party) (it : Iteration) :
    (partyStep c party (.serve it)).server = iterate c.setup party.server it := by
  simp only [partyStep]

/-- Before the first client. -/
def partyInit (c : Clients) : Party :=
  ⟨.init, fun k => ctcpInit ((c.wiring k).setup .a).intervals⟩

/-- The server and client `k`, as a network of two. -/
def netOf (c : Clients) (party : Party) (k : Nat) : Net :=
  ⟨party.clients k, ownRun c.setup party.server.log k⟩

/-- A packet that has left a side, perhaps corrupted. -/
def Sent (w : Wiring) (side : Side) (state : CtcpState) (packet : Datagram) : Prop :=
  ∃ call : Sending, call.conn = w.conn side ∧ call.len = lenOf call.segment ∧
    Emitted call.segment state.trace ∧ OnWire (w.settings side) call packet

/-- A packet may come to the server: `ctcp_receive` gets only what a client has sent, and the
    connection of a client that is accepted is the one that the client has been told of. -/
def MayCome (c : Clients) (party : Party) (arrival : Arrival) : Disposal → Prop
  | .passed _ _ _ => arrival.length = arrival.datagram.recvLen ∧
      ∃ k, k < maxNumClients ∧ Sent (c.wiring k) .a (party.clients k) arrival.datagram
  | .newClient => party.server.numConnected < maxNumClients →
      (Packet.tcpNewConnection c.setup.net arrival.rand arrival.datagram).2.1
        = (c.wiring party.server.numConnected).conn .b
  | _ => True

/-- **What can happen.** -/
def CanHappen (c : Clients) (party : Party) : PartyLabel → Prop
  | .serve it => ∀ arrival, it.packet = some arrival → MayCome c party arrival
      (dispose c.setup party.server.newConnection party.server.established arrival)
  | .client k call => ∀ datagram env, call = .packet datagram env →
      Sent (c.wiring k) .b (ownRun c.setup party.server.log k) datagram

/-- The calls of the endpoints of client `k`. -/
def callsFor (c : Clients) (party : Party) (k : Nat) : PartyLabel → List (Side × Call)
  | .serve it => (newCalls c.setup party.server it k).map fun call => (.b, call)
  | .client j call =>
    if j = k then (clientCall (c.wiring k) call).toList.map fun call => (.a, call) else []

/-- Each of the calls keeps the streams in order, and below the end of the sequence space. -/
def InTurn (c : Clients) (party : Party) (l : PartyLabel) : Prop :=
  ∀ k, k < maxNumClients → Along netStep (fun net l => Below net l ∧ InPlace net l)
    (netOf c party k) (callsFor c party k l)

/-! ## What holds of the server and its clients -/

/-- Both ends are well formed. -/
def WellFormed (net : Net) : Prop := ∀ side, Wf (net.at side) ∧ Forms (net.at side).trace

theorem wellFormed_step (net : Net) (l : Side × Call) (h : WellFormed net) :
    WellFormed (netStep net l) := by
  obtain ⟨side, call⟩ := l
  intro side'
  rcases Side.eq_or_other side side' with rfl | rfl
  · rw [netStep_at]
    exact ⟨wf_step _ _ (h _).1, forms_step _ _ (h _).1 (h _).2⟩
  · rw [netStep_at_other]
    exact h _

/-- **The server holds for each client the connection that the client has been told of.** -/
structure PartyInv (c : Clients) (party : Party) : Prop where
  projected : Projected c.setup party.server
  details : ∀ conn ∈ party.server.established, conn.2 = (c.wiring conn.1).conn .b
  count : party.server.numConnected ≤ maxNumClients
  formed : ∀ k, WellFormed (netOf c party k)

section Step

variable {c : Clients} {party : Party} {k : Nat}

theorem partyInv_init : PartyInv c (partyInit c) where
  projected := projected_started (.server c.role)
  details := fun conn hconn => by cases hconn
  count := Nat.zero_le _
  formed := by
    intro k side
    cases side <;> exact ⟨wf_init _, by simp [Net.at, netOf, partyInit, ownRun, Host.init, own,
      entered, run, ctcpInit]⟩

/-- The names of the connections are below the limit. -/
theorem PartyInv.name_lt (h : PartyInv c party) {conn : Nat × SeqConn}
    (hconn : conn ∈ party.server.established) : conn.1 < maxNumClients := by
  have hname : conn.1 ∈ party.server.names := by
    rw [names_eq]
    exact List.mem_map_of_mem hconn
  rcases h.projected.names conn.1 hname with hlt | ⟨hclient, -⟩
  · exact Nat.lt_of_lt_of_le hlt h.count
  · cases c.role.symm.trans hclient

theorem run_client (x y : CtcpState) (calls : List Call) :
    run netStep ⟨x, y⟩ (calls.map fun call => (.a, call)) = ⟨run step x calls, y⟩ := by
  induction calls generalizing x with
  | nil => rfl
  | cons call calls ih => exact ih (step x call)

theorem run_server (x y : CtcpState) (calls : List Call) :
    run netStep ⟨x, y⟩ (calls.map fun call => (.b, call)) = ⟨x, run step y calls⟩ := by
  induction calls generalizing y with
  | nil => rfl
  | cons call calls ih => exact ih (step y call)

/-- **Each step is one of the network of two**, for every client. -/
theorem netOf_step (l : PartyLabel) :
    netOf c (partyStep c party l) k = run netStep (netOf c party k) (callsFor c party k l) := by
  cases l with
  | serve it =>
    have hcalls := callsOf_iterate c.setup party.server it k
    rw [callsFor, netOf, netOf, run_server, ownRun, ownRun, own, own]
    show Net.mk _ (run step _ (callsOf k (entered (iterate c.setup party.server it).log))) = _
    rw [hcalls, run_append]
    rfl
  | client j call =>
    rw [callsFor]
    by_cases hsame : j = k
    · subst hsame
      rw [if_pos rfl, netOf, netOf, run_client]
      simp [partyStep]
    · rw [if_neg hsame]
      simp [partyStep, netOf, run, Ne.symm hsame]

/-! ## What becomes of the packets -/

/-- What a packet that is passed on has been compared with. -/
theorem attributed_of_passed {setup : Setup} {newConnection : UInt16}
    {established : List (Nat × SeqConn)} {arrival : Arrival} {state : Nat} {segment : CtcpSegment}
    {len : Nat} (h : dispose setup newConnection established arrival = .passed state segment len) :
    ∃ conn ∈ established, conn.1 = state ∧
      expects setup.unixSocket arrival.datagram conn.2 = true ∧
      segment = convertToCtcp conn.2 arrival.datagram ∧
      len = (arrival.length - fullHdrSize.toNat + segmentHdrSize).toNat := by
  unfold dispose at h
  split at h
  case h_5 conn hattributed =>
    obtain ⟨hmem, hexpects⟩ := mem_of_attributed hattributed
    dsimp only at h
    split at h
    · cases h
    · obtain ⟨rfl, rfl, rfl⟩ := Disposal.passed.inj h
      exact ⟨conn, hmem, rfl, hexpects, rfl, rfl⟩
  all_goals cases h

/-- How the other side reads a packet: as a segment that has been emitted, or as one that is not
    valid. -/
theorem Sent.read {w : Wiring} {side : Side} {state : CtcpState} {packet : Datagram}
    (hforms : Forms state.trace) (h : Sent w side state packet) :
    ∃ call : Sending, call.conn = w.conn side ∧ Formed call.segment ∧
      call.len = lenOf call.segment ∧ OnWire (w.settings side) call packet ∧
      packet.recvLen - fullHdrSize.toNat + segmentHdrSize = call.len ∧
      ((Emitted (convertToCtcp (w.conn side.other) packet) state.trace ∧
          call.len = segmentHdrSize + (convertToCtcp (w.conn side.other) packet).data.length) ∨
        ¬ Valid (convertToCtcp (w.conn side.other) packet) call.len) := by
  obtain ⟨call, hconn, hlen, hemit, hwire⟩ := h
  have hformed := hforms.emitted hemit
  obtain ⟨hwhole, hvalid⟩ := hformed.whole
  rw [← hlen] at hwhole hvalid
  have hmirror : Mirror call.conn (w.conn side.other) := hconn ▸ (w.established side).mirror
  obtain ⟨hsize, hread⟩ := read_onWire (w.unix side) hmirror hwhole hvalid hwire
  refine ⟨call, hconn, hformed, hlen, hwire, hsize, ?_⟩
  rcases hread with hsame | hinvalid
  · have hdata := hwhole.data
    rw [hsame]
    exact Or.inl ⟨hemit, by omega⟩
  · exact Or.inr hinvalid

/-- A packet comes from the port of its sender. -/
theorem port_of_onWire {w : Wiring} {side : Side} {call : Sending} {packet : Datagram}
    (hwire : OnWire (w.settings side) call packet) :
    (w.conn side.other).port = ntohs packet.tcp.sport := by
  have hport : (w.conn side.other).port = ntohs (htons (w.setup side).net.port) :=
    (w.established side).srcPort.trans (htons_htons _).symm
  cases hwire with
  | asSent => exact hport
  | corrupted => exact hport

/-- A segment that changes nothing, or one that the other side has emitted. -/
def Heard (peer : CtcpState) (segment : CtcpSegment) (len : Nat) : Prop :=
  (Emitted segment peer.trace ∧ len = segmentHdrSize + segment.data.length) ∨ ¬ Valid segment len

/-- **A packet of a client is passed to its own connection**, which hears what the client has
    sent. -/
theorem PartyInv.own (h : PartyInv c party) {arrival : Arrival} {j : Nat} (hj : j < maxNumClients)
    (hlength : arrival.length = arrival.datagram.recvLen)
    (hsent : Sent (c.wiring j) .a (party.clients j) arrival.datagram) {segment : CtcpSegment}
    {len : Nat} {newConnection : UInt16}
    (hpassed : dispose c.setup newConnection party.server.established arrival
      = .passed k segment len) : Heard (party.clients k) segment len := by
  obtain ⟨conn, hmem, rfl, hexpects, rfl, rfl⟩ := attributed_of_passed hpassed
  have hforms : Forms (party.clients j).trace := (h.formed j .a).2
  obtain ⟨call, -, -, -, hwire, hsize, hread⟩ := hsent.read hforms
  -- the port of the packet is that of the client and that of the connection
  have hclient : ((c.wiring j).conn .b).port = ntohs arrival.datagram.tcp.sport :=
    port_of_onWire hwire
  have hserver : conn.2.port = ntohs arrival.datagram.tcp.sport := (of_decide_eq_true hexpects).1
  rw [h.details conn hmem] at hserver ⊢
  obtain rfl := c.ports conn.1 j (h.name_lt hmem) hj (hserver.trans hclient.symm)
  have hlen : (arrival.length - fullHdrSize.toNat + segmentHdrSize).toNat = call.len := by
    rw [hlength, hsize, Int.toNat_natCast]
  rw [hlen]
  exact hread

/-- A packet of the server, in a client. -/
theorem PartyInv.answered (h : PartyInv c party) {packet : Datagram} {env : Env}
    (hsent : Sent (c.wiring k) .b (ownRun c.setup party.server.log k) packet) {call : Call}
    (hcall : clientCall (c.wiring k) (.packet packet env) = some call) :
    ∃ segment len, call = .receive segment len env ∧
      Heard (ownRun c.setup party.server.log k) segment len := by
  have hforms : Forms (ownRun c.setup party.server.log k).trace := (h.formed k .b).2
  obtain ⟨sending, hconn, hformed, hlen, hwire, hsize, hread⟩ := hsent.read hforms
  have hdispose := dispose_cases (c.wiring k) .b hconn hformed hlen hwire 0 env
  rw [clientCall] at hcall
  replace hdispose : dispose ((c.wiring k).setup .a) 0 [(0, (c.wiring k).conn .a)]
      ⟨packet.recvLen, packet, env, 0⟩ ∈ [.ignored, .withheld 0,
        .passed 0 (convertToCtcp ((c.wiring k).conn .a) packet) sending.len] := hdispose
  generalize dispose ((c.wiring k).setup .a) 0 [(0, (c.wiring k).conn .a)]
    ⟨packet.recvLen, packet, env, 0⟩ = disposal at hdispose hcall
  simp only [List.mem_cons, List.not_mem_nil, or_false] at hdispose
  rcases hdispose with rfl | rfl | rfl
  · cases hcall
  · cases hcall
  · exact ⟨_, _, (Option.some.inj hcall).symm, hread⟩

/-! ## The simulation -/

theorem Heard.allowed {peer : CtcpState} {segment : CtcpSegment} {len : Nat}
    (h : Heard peer segment len) (env : Env) (state : CtcpState) :
    (Emitted segment peer.trace ∧ len = segmentHdrSize + segment.data.length) ∨
      step state (.receive segment len env) = state := by
  rcases h with hemit | hinvalid
  · exact Or.inl hemit
  · exact Or.inr (step_invalid hinvalid state env)

/-- **Each call is one that the network of two allows**, or one that changes nothing. -/
theorem PartyInv.allowed (h : PartyInv c party) {l : PartyLabel} (hl : CanHappen c party l) :
    Along netStep (fun net l => Traffic net l ∨ netStep net l = net) (netOf c party k)
      (callsFor c party k l) := by
  cases l with
  | serve it =>
    have hcalls : ∀ call ∈ newCalls c.setup party.server it k, ∀ y : CtcpState,
        Traffic ⟨party.clients k, y⟩ (.b, call) ∨ step y call = y := by
      intro call hcall y
      cases call with
      | receive segment len env =>
        obtain ⟨arrival, hpacket, rfl, hpassed⟩ := received_of_newCalls c.role hcall
        have hcomes := hl arrival hpacket
        rw [hpassed] at hcomes
        obtain ⟨hlength, j, hj, hsent⟩ := hcomes
        exact (h.own hj hlength hsent hpassed).allowed arrival.env y
      | _ => exact Or.inl trivial
    rw [callsFor, netOf]
    generalize ownRun c.setup party.server.log k = y
    generalize newCalls c.setup party.server it k = calls at hcalls
    induction calls generalizing y with
    | nil => trivial
    | cons call calls ih =>
      refine ⟨?_, ih _ fun call' hmem => hcalls call' (List.mem_cons_of_mem call hmem)⟩
      rcases hcalls call List.mem_cons_self y with htraffic | hsame
      · exact Or.inl htraffic
      · exact Or.inr (congrArg (fun y => (⟨party.clients k, y⟩ : Net)) hsame)
  | client j call =>
    rw [callsFor]
    split
    · rename_i hsame
      subst hsame
      cases hcall : clientCall (c.wiring j) call with
      | none => trivial
      | some made =>
        refine ⟨?_, trivial⟩
        cases call with
        | packet packet env =>
          obtain ⟨segment, len, rfl, hheard⟩ := h.answered (hl packet env rfl) hcall
          rcases hheard.allowed env (party.clients j) with htraffic | hsame
          · exact Or.inl htraffic
          · exact Or.inr (congrArg (fun x => (⟨x, ownRun c.setup party.server.log j⟩ : Net)) hsame)
        | _ =>
          obtain rfl := Option.some.inj hcall
          exact Or.inl trivial
    · trivial

/-- The connections that the server knows after an iteration. -/
theorem PartyInv.serve (h : PartyInv c party) {it : Iteration}
    (hl : CanHappen c party (.serve it)) :
    (∀ conn ∈ (iterate c.setup party.server it).established,
        conn.2 = (c.wiring conn.1).conn .b) ∧
      (iterate c.setup party.server it).numConnected ≤ maxNumClients := by
  have htable := table_iterate party.server it c.role
  generalize iterate c.setup party.server it = t at htable ⊢
  rcases htable with ⟨hsub, hcount⟩ | ⟨arrival, hpacket, hnew, hroom, hcount, hsub⟩
  · rw [hcount]
    exact ⟨fun conn hconn => h.details conn (hsub.subset hconn), h.count⟩
  · rw [hcount]
    refine ⟨fun conn hconn => ?_, hroom⟩
    rcases List.mem_cons.mp (hsub.subset hconn) with heq | hold
    · -- the client that has just been accepted
      have hcomes := hl arrival hpacket
      rw [hnew] at hcomes
      rw [heq]
      exact hcomes hroom
    · exact h.details conn hold

/-- **A step keeps the invariant.** -/
theorem partyInv_step (h : PartyInv c party) {l : PartyLabel} (hl : CanHappen c party l) :
    PartyInv c (partyStep c party l) := by
  have hformed : ∀ k, WellFormed (netOf c (partyStep c party l) k) := by
    intro k
    rw [netOf_step]
    exact run_invariant wellFormed_step (h.formed k)
  cases l with
  | client j call => exact ⟨h.projected, h.details, h.count, hformed⟩
  | serve it =>
    obtain ⟨hdetails, hcount⟩ := h.serve hl
    have hserver := partyStep_serve c party it
    refine ⟨?_, ?_, ?_, hformed⟩
    · rw [hserver]
      exact h.projected.iterate it
    · rw [hserver]
      exact hdetails
    · rw [hserver]
      exact hcount

end Step

/-- The party, and the network of the server and client `k`. -/
def Seen (c : Clients) (k : Nat) (party : Party) (net : Net) : Prop :=
  PartyInv c party ∧ netOf c party k = net

/-- **For each client, the party simulates a network of two.** -/
theorem party_simulates (c : Clients) {k : Nat} (hk : k < maxNumClients) :
    Simulates (partyStep c) (fun party l => CanHappen c party l ∧ InTurn c party l)
      netStep TrafficSound (Seen c k) := by
  refine ⟨?_⟩
  rintro party _ l ⟨hinv, rfl⟩ ⟨hl, hturn⟩
  obtain ⟨ks, hks, hrun⟩ := ((hinv.allowed (k := k) hl).and (hturn k hk)).skip
  refine ⟨ks, hks.imp fun net l hsound => ⟨hsound.1, hsound.2.1, hsound.2.2⟩,
    partyInv_step hinv hl, ?_⟩
  rw [netOf_step, hrun]

deriving instance DecidableEq for Disposal

instance (state : CtcpState) (input : Option Chunk) (sent : Int) :
    Decidable (ReadsSent state input sent) :=
  inferInstanceAs (Decidable (_ → _ → ∀ chunk ∈ input, chunk.bytes ≠ [] → 0 ≤ sent))

instance (state : CtcpState) : ∀ call, Decidable (InStep state call)
  | .read input sent => inferInstanceAs (Decidable (ReadsSent state input sent))
  | .receive _ _ _ => inferInstanceAs (Decidable (_ → _ → _ → _ → _ → _))
  | .timer => isTrue trivial
  | .output _ => isTrue trivial

instance (P : CtcpSegment → Prop) [DecidablePred P] :
    ∀ ptr, Decidable (∀ segment, ptr = SegmentPtr.live segment → P segment)
  | .live segment => decidable_of_iff (P segment)
      ⟨fun h _ heq => SegmentPtr.live.inj heq ▸ h, fun h => h segment rfl⟩
  | .null => isTrue fun _ heq => SegmentPtr.noConfusion heq
  | .freed => isTrue fun _ heq => SegmentPtr.noConfusion heq

instance (state : CtcpState) : ∀ call, Decidable (TakesInStep state call)
  | .output env => inferInstanceAs (Decidable (∀ segment, state.receivedSegment = .live segment →
      env.bufspace ≠ 0 → (datalen segment).toNat ≤ env.bufspace →
        state.connState = .dataTransfer ∧ segment.seqno ≤ state.ackno))
  | .read input sent => inferInstanceAs (Decidable (InStep state (.read input sent)))
  | .receive segment len env =>
    inferInstanceAs (Decidable (InStep state (.receive segment len env)))
  | .timer => isTrue trivial

instance (net : Net) (l : Side × Call) : Decidable (InPlace net l) :=
  inferInstanceAs (Decidable (_ → TakesInStep _ _))

instance (c : Clients) (party : Party) (l : PartyLabel) : Decidable (InTurn c party l) :=
  inferInstanceAs (Decidable (∀ k, k < maxNumClients → _))

/-- The port of client `k`. -/
def guestPort (k : Nat) : UInt16 := UInt16.ofNat (7000 + k)

/-- The SYN of client `k`, and the ACK of the SYN-ACK. -/
def guestSyn (k : Nat) : Datagram := packetOf (guestPort k) 9999 5 0 thSyn 0 []

def guestAck (k : Nat) : Datagram := packetOf (guestPort k) 9999 6 6 thAck 0 []

/-- The server, and client `k`. -/
def guestSetup (k : Nat) : Side → Setup
  | .a => ⟨.client, ⟨0, guestPort k, 1440, 1440⟩, false, true, ctcpCfg⟩
  | .b => startServer ⟨0, 9999, 1440, 1440⟩ false true ctcpCfg

/-- What each knows of the other. -/
def guestConn (k : Nat) : Side → SeqConn
  | .a => atFive 9999
  | .b => (Packet.tcpNewConnection ⟨0, 9999, 1440, 1440⟩ 5 (guestSyn k)).2.1

theorem unix_guest (k : Nat) (side : Side) : (guestSetup k side).unixSocket = true := by
  cases side <;> rfl

theorem established_guest (k : Nat) (side : Side) :
    Established (guestSetup k side).net (guestSetup k side.other).net true (guestConn k side)
      (guestConn k side.other) := by
  have hport := htons_htons (guestPort k)
  have hfive : ntohl (htonl 5) = 5 := by decide
  cases side with
  | a => exact ⟨⟨hfive.symm, rfl⟩, rfl, hport, Or.inl rfl⟩
  | b => exact ⟨⟨rfl, hfive.symm⟩, hport, rfl, Or.inl rfl⟩

/-- The ports differ. -/
theorem guestPort_inj (j k : Nat) (hj : j < maxNumClients) (hk : k < maxNumClients)
    (hsame : (guestConn j .b).port = (guestConn k .b).port) : j = k := by
  have hsame' : guestPort j = guestPort k := by
    rw [← htons_htons (guestPort j), ← htons_htons (guestPort k)]
    exact hsame
  have hnat := congrArg UInt16.toNat hsame'
  have hmax : maxNumClients = 10 := rfl
  rw [guestPort, guestPort, UInt16.toNat_ofNat', UInt16.toNat_ofNat'] at hnat
  omega

/-- Clients on the ports from 7000 on. -/
def guests : Clients where
  setup := startServer ⟨0, 9999, 1440, 1440⟩ false true ctcpCfg
  wiring k := ⟨guestSetup k, fun _ => .off, guestConn k, unix_guest k, established_guest k⟩
  role := rfl
  server _ := rfl
  ports := guestPort_inj

/-- The packet in which client `k` sends some bytes. -/
def guestData (k : Nat) (bytes : List UInt8) : Datagram :=
  datagram ((guests.wiring k).settings .a)
    (sendingOf (atFive 9999) (dataSegment 1 1 bytes) (granting 42)) (dataSegment 1 1 bytes)

/-- Both clients connect and read, and their packets arrive the other way round. -/
def guestLabels : List PartyLabel :=
  [.serve (.receives (guestSyn 0) Env.roomy 5), .serve (.receives (guestAck 0) Env.roomy 5),
    .serve (.receives (guestSyn 1) Env.roomy 5), .serve (.receives (guestAck 1) Env.roomy 5),
    .client 0 (.read (some ⟨[104, 105], by decide⟩) 22),
    .client 1 (.read (some ⟨[120, 121], by decide⟩) 22),
    .serve (.receives (guestData 1 [120, 121]) Env.roomy 5),
    .serve (.receives (guestData 0 [104, 105]) Env.roomy 5)]

/-- What becomes of packet `n` of the run. -/
def guestDisposal (n : Nat) (datagram : Datagram) : Disposal :=
  let party := run (partyStep guests) (partyInit guests) (guestLabels.take n)
  dispose guests.setup party.server.newConnection party.server.established
    ⟨datagram.recvLen, datagram, Env.roomy, 5⟩

end Ctcp.MainLoop
