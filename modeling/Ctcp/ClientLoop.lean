/-
  A client in the main loop.

  `do_loop` and `recv_filter` are the same for both roles.  A SYN passes the filter without a
  connection, and `do_loop` takes it for a new client:

      else if (tcp_hdr->th_flags & TH_SYN) {
        conn_t *conn = tcp_new_connection(buf);

  which asserts that it runs in a server.  A server that has not got the ACK of the handshake
  repeats its SYN-ACK, and the client that gets it is aborted.  `client_keeps_role_iff`: no role
  assertion fails in exactly the runs in which no SYN arrives while the client runs; and a packet
  of no established flow never changes its connection or its state.
-/
import Ctcp.Dispatch

set_option linter.unusedVariables false

namespace Ctcp.MainLoop

open Runs Keyed BackLinked Packet

/-- A client. -/
def startClient (net : Packet.Config) (unixSocket : Bool) (intervals : CtcpConfig) : Setup :=
  ⟨.client, net, false, unixSocket, intervals⟩

/-- `start_client`, before `do_loop`: `sconn` is what `tcp_handshake` has set up. -/
def Host.client (sconn : SeqConn) (intervals : CtcpConfig) : Host :=
  ⟨[⟨0, sconn, false⟩], [(0, ctcpInit intervals)], 0, 0, [], .running⟩

/-- An iteration, up to the packet. -/
def untilPacket (setup : Setup) (s : Host) (it : Iteration) : Host :=
  ((s.andThen (readStdin setup it)).andThen (drainAll setup it)).andThen (readPrograms setup it)

/-! ## What is claimed, and when it holds -/

/-- The packet belongs to no established flow. -/
def NoFlow (setup : Setup) (s : Host) (arrival : Arrival) : Prop :=
  ∀ conn, recvFilter setup.net setup.unixSocket Prod.snd s.established arrival.length
    arrival.datagram ≠ .attributed conn

/-- **No role assertion fails, and a packet of no flow changes nothing.** -/
structure KeepsRole (setup : Setup) (s : Host) (it : Iteration) : Prop where
  asserted : (iterate setup s it).status ≠ .assertFailed
  unchanged : ∀ arrival, it.packet = some arrival → NoFlow setup (untilPacket setup s it) arrival →
    (receivePacket setup it (untilPacket setup s it)).connections
        = (untilPacket setup s it).connections ∧
      (receivePacket setup it (untilPacket setup s it)).states = (untilPacket setup s it).states

/-- A SYN, or a SYN-ACK, that passes the filter. -/
structure IsSyn (setup : Setup) (arrival : Arrival) : Prop where
  length : ¬ arrival.length < fullHdrSize.toNat
  dport : arrival.datagram.tcp.dport = htons setup.net.port
  rst : arrival.datagram.tcp.flags &&& thRst = 0
  syn : arrival.datagram.tcp.flags &&& thSyn ≠ 0

/-- It arrives while the client runs: the process has not ended before, nor ends in this iteration
    because `conn_output` fails in `conn_drain`. -/
def SynArrives (setup : Setup) (s : Host) (it : Iteration) : Prop :=
  s.status = .running ∧ ¬ DrainFails it s 0 ∧
    ∃ arrival, it.packet = some arrival ∧ IsSyn setup arrival

/-! ## The packet -/

theorem handshake_iff {setup : Setup} {established : List (Nat × SeqConn)} {arrival : Arrival} :
    recvFilter setup.net setup.unixSocket Prod.snd established arrival.length arrival.datagram
        = .handshake ↔ IsSyn setup arrival := by
  have hhdr : (fullHdrSize.toNat : Int) = 40 := rfl
  unfold recvFilter
  constructor
  · intro h
    split at h
    · cases h
    split at h
    · cases h
    rename_i hlength
    split at h
    · cases h
    rename_i hdport
    split at h
    · cases h
    rename_i hrst
    split at h
    · rename_i hsyn
      exact ⟨hlength, Decidable.not_not.mp hdport, Decidable.not_not.mp hrst, hsyn⟩
    · split at h <;> cases h
  · intro h
    have hneg : ¬ arrival.length < 0 := by
      have hlength := h.length
      omega
    rw [if_neg hneg, if_neg h.length, if_neg (not_not_intro h.dport),
      if_neg (not_not_intro h.rst), if_pos h.syn]

/-- **A SYN is taken for a new client, and nothing else is.** -/
theorem newClient_iff {setup : Setup} {newConnection : UInt16}
    {established : List (Nat × SeqConn)} {arrival : Arrival} :
    dispose setup newConnection established arrival = .newClient ↔ IsSyn setup arrival := by
  rw [← @handshake_iff setup established arrival, dispose]
  cases recvFilter setup.net setup.unixSocket Prod.snd established arrival.length
    arrival.datagram with
  | failed => simp
  | dropped => simp
  | exited => simp
  | handshake => simp
  | attributed conn =>
    refine iff_of_false ?_ (by simp)
    dsimp only
    split <;> simp

/-- What becomes of a packet of no flow. -/
theorem dispose_noFlow {setup : Setup} {s : Host} {arrival : Arrival}
    (hflow : NoFlow setup s arrival) :
    dispose setup s.newConnection s.established arrival = .ignored ∨
      dispose setup s.newConnection s.established arrival = .reset ∨
      dispose setup s.newConnection s.established arrival = .newClient := by
  unfold dispose
  cases hfilter : recvFilter setup.net setup.unixSocket Prod.snd s.established arrival.length
    arrival.datagram with
  | failed => exact Or.inl rfl
  | dropped => exact Or.inl rfl
  | exited => exact Or.inr (Or.inl rfl)
  | handshake => exact Or.inr (Or.inr rfl)
  | attributed conn => exact absurd hfilter (hflow conn)

/-- A client that takes a SYN for a new client. -/
theorem receivePacket_newClient {setup : Setup} {it : Iteration} {s : Host} {arrival : Arrival}
    (hclient : setup.role = .client) (hpacket : it.packet = some arrival)
    (hnew : dispose setup s.newConnection s.established arrival = .newClient) :
    receivePacket setup it s
      = { s with status := .assertFailed, newConnection := arrival.datagram.tcp.sport } := by
  have hfails : tcpNewConnection setup s arrival = { s with status := .assertFailed } :=
    if_pos hclient
  simp only [receivePacket, hpacket, hnew, hfails]

theorem receivePacket_unchanged {setup : Setup} {it : Iteration} {s : Host}
    (hclient : setup.role = .client) {arrival : Arrival} (hpacket : it.packet = some arrival)
    (hflow : NoFlow setup s arrival) :
    (receivePacket setup it s).connections = s.connections ∧
      (receivePacket setup it s).states = s.states := by
  rcases dispose_noFlow hflow with hdispose | hdispose | hdispose
  · simp only [receivePacket, hpacket, hdispose, and_self]
  · simp only [receivePacket, hpacket, hdispose, and_self]
  · rw [receivePacket_newClient hclient hpacket hdispose]
    exact ⟨rfl, rfl⟩

/-! ## One connection -/

/-- The client has one connection, and its state. -/
structure OneConn (sconn : SeqConn) (s : Host) (old : CtcpState) : Prop where
  connections : s.connections = [⟨0, sconn, false⟩]
  states : s.states = [(0, old)]
  alive : old.conn.deleteMe = false

/-- What the loop keeps as long as no assertion fails. -/
def ClientInv (sconn : SeqConn) (s : Host) : Prop :=
  s.status ≠ .assertFailed ∧ (s.status = .running → ∃ old, OneConn sconn s old)

section Parts

variable {setup : Setup} {sconn : SeqConn} {s : Host} {old : CtcpState} {it : Iteration}

theorem OneConn.lookup (h : OneConn sconn s old) : s.states.lookup 0 = some old := by
  rw [h.states]
  rfl

theorem ClientInv.stopped (hassert : s.status ≠ .assertFailed) (hstopped : s.status ≠ .running) :
    ClientInv sconn s := ⟨hassert, fun hrunning => absurd hrunning hstopped⟩

theorem ClientInv.exited (h : s.status = .exited) : ClientInv sconn s := by
  refine ClientInv.stopped ?_ ?_ <;> rw [h] <;> exact Status.noConfusion

theorem OneConn.inv (h : OneConn sconn s old) (hrunning : s.status = .running) :
    ClientInv sconn s := by
  refine ⟨?_, fun _ => ⟨old, h⟩⟩
  rw [hrunning]
  exact Status.noConfusion

/-- **A callback**: the client ends with its connection. -/
theorem OneConn.call (h : OneConn sconn s old) (call : Call) :
    ((step old call).conn.deleteMe = true ∧ (s.call .client 0 call).status = .exited) ∨
      ((step old call).conn.deleteMe = false ∧ (s.call .client 0 call).status = s.status ∧
        OneConn sconn (s.call .client 0 call) (step old call)) := by
  rcases call_cases s .client 0 call with
    ⟨hnone, -⟩ | ⟨old', hold, ⟨hdead, hcall⟩ | ⟨hkept, hcall⟩⟩
  · cases h.lookup.symm.trans hnone
  · obtain rfl := Option.some.inj (h.lookup.symm.trans hold)
    rw [hcall]
    exact Or.inl ⟨hdead, rfl⟩
  · obtain rfl := Option.some.inj (h.lookup.symm.trans hold)
    rw [hcall]
    refine Or.inr ⟨hkept, rfl, h.connections, ?_, hkept⟩
    show (s.states.map fun x => if x.1 = 0 then (0, step old call) else x) = _
    rw [h.states]
    rfl

theorem OneConn.inv_call (h : OneConn sconn s old) (hrunning : s.status = .running) (call : Call) :
    ClientInv sconn (s.call .client 0 call) := by
  rcases h.call call with ⟨-, hexited⟩ | ⟨-, hstatus, hone⟩
  · exact ClientInv.exited hexited
  · exact hone.inv (hstatus.trans hrunning)

theorem ClientInv.andThen (h : ClientInv sconn s) {f : Host → Host}
    (hf : ∀ old, s.status = .running → OneConn sconn s old → ClientInv sconn (f s)) :
    ClientInv sconn (s.andThen f) := by
  unfold Host.andThen
  split
  · rename_i hrunning
    obtain ⟨old, hone⟩ := h.2 hrunning
    exact hf old hrunning hone
  · exact h

/-! ## Up to the packet -/

theorem OneConn.drainFails_iff (h : OneConn sconn s old) :
    DrainFails it s 0 ↔ ∃ env, it.drains 0 = some env ∧ OutputFails env old := by
  unfold DrainFails
  rw [h.lookup]
  constructor
  · rintro ⟨env, old', henv, hold, hfails⟩
    obtain rfl := Option.some.inj hold
    exact ⟨env, henv, hfails⟩
  · rintro ⟨env, henv, hfails⟩
    exact ⟨env, old, henv, rfl, hfails⟩

/-- `ctcp_read` does not end the client. -/
theorem OneConn.readStdin (h : OneConn sconn s old) (hclient : setup.role = .client)
    (it : Iteration) :
    ∃ new, OneConn sconn (readStdin setup it s) new ∧ (readStdin setup it s).status = s.status ∧
      ∀ env, OutputFails env new ↔ OutputFails env old := by
  have hsame : ∃ new, OneConn sconn s new ∧ s.status = s.status ∧
      ∀ env, OutputFails env new ↔ OutputFails env old := ⟨old, h, rfl, fun _ => Iff.rfl⟩
  unfold MainLoop.readStdin
  split
  · rename_i input sent conn rest hstdin hconns
    obtain ⟨rfl, -⟩ := List.cons.inj (h.connections.symm.trans hconns)
    split
    · rw [hclient]
      obtain ⟨hkept, -, -⟩ := read_quiet h.alive input sent
      rcases h.call (.read input sent) with ⟨hdead, -⟩ | ⟨-, hstatus, hone⟩
      · cases hkept.symm.trans hdead
      · exact ⟨_, hone, hstatus, fun env => outputFails_read h.alive env input sent⟩
    · exact hsame
  · exact hsame

/-- `conn_drain` ends it exactly when its output fails. -/
theorem OneConn.drainAll (h : OneConn sconn s old) (hclient : setup.role = .client)
    (hrunning : s.status = .running) (it : Iteration) :
    (DrainFails it s 0 ∧ (drainAll setup it s).status = .exited) ∨
      (¬ DrainFails it s 0 ∧ (drainAll setup it s).status = .running ∧
        ∃ new, OneConn sconn (drainAll setup it s) new) := by
  have hdrain : MainLoop.drainAll setup it s = connDrain setup it s 0 := by
    have hnames : s.names = [0] := congrArg (List.map ConnObj.state) h.connections
    unfold MainLoop.drainAll
    rw [hnames, run, run, andThen_running hrunning]
  have hmarked : s.marked 0 = false := by
    unfold Host.marked
    rw [h.connections]
    rfl
  rw [hdrain, h.drainFails_iff]
  unfold connDrain
  cases henv : it.drains 0 with
  | none => exact Or.inr ⟨by simp, hrunning, old, h⟩
  | some env =>
    have hiff : (∃ env', some env = some env' ∧ OutputFails env' old) ↔ OutputFails env old := by
      simp
    dsimp only
    rw [hiff, ← destroyed_output_iff h.alive, hmarked, if_neg Bool.false_ne_true, hclient]
    rcases h.call (.output env) with ⟨hdead, hexited⟩ | ⟨hkept, hstatus, hone⟩
    · exact Or.inl ⟨hdead, hexited⟩
    · exact Or.inr ⟨by simp [hkept], hstatus.trans hrunning, _, hone⟩

/-- **Up to the packet.** -/
theorem OneConn.untilPacket (h : OneConn sconn s old) (hclient : setup.role = .client)
    (hprogram : setup.runProgram = false) (hrunning : s.status = .running) (it : Iteration) :
    (DrainFails it s 0 ∧ (untilPacket setup s it).status = .exited) ∨
      (¬ DrainFails it s 0 ∧ (untilPacket setup s it).status = .running ∧
        ∃ new, OneConn sconn (untilPacket setup s it) new) := by
  obtain ⟨new, hone, hstatus, hfails⟩ := h.readStdin hclient it
  have hrunning' := hstatus.trans hrunning
  have hsame : DrainFails it (MainLoop.readStdin setup it s) 0 ↔ DrainFails it s 0 := by
    rw [hone.drainFails_iff, h.drainFails_iff]
    exact exists_congr fun env => and_congr_right fun _ => hfails env
  have hnone : ∀ t, (t : Host).andThen (readPrograms setup it) = t := by
    intro t
    unfold Host.andThen readPrograms
    rw [hprogram]
    split <;> rfl
  unfold MainLoop.untilPacket
  rw [hnone, andThen_running hrunning, andThen_running hrunning', ← hsame]
  exact hone.drainAll hclient hrunning' it

/-! ## The packet, and what follows -/

theorem OneConn.receivePacket (h : OneConn sconn s old) (hclient : setup.role = .client)
    (hrunning : s.status = .running) (it : Iteration)
    (hsyn : ¬ ∃ arrival, it.packet = some arrival ∧ IsSyn setup arrival) :
    ClientInv sconn (receivePacket setup it s) := by
  unfold MainLoop.receivePacket
  split
  · exact h.inv hrunning
  · rename_i arrival hpacket
    split
    · exact h.inv hrunning
    · exact ClientInv.stopped Status.noConfusion Status.noConfusion
    · rename_i hnew
      exact absurd ⟨arrival, hpacket, newClient_iff.mp hnew⟩ hsyn
    · exact OneConn.inv ⟨h.connections, h.states, h.alive⟩ hrunning
    · rename_i state segment len hpassed
      have hname : state = 0 := by
        have hmem := mem_of_passed hpassed
        rw [← names_eq, Host.names, h.connections] at hmem
        exact List.mem_singleton.mp hmem
      rw [hname, hclient]
      exact h.inv_call hrunning _

theorem OneConn.checkTimer (h : OneConn sconn s old) (hclient : setup.role = .client)
    (hrunning : s.status = .running) (it : Iteration) :
    ClientInv sconn (checkTimer setup it s) := by
  unfold MainLoop.checkTimer
  split
  · exact h.inv hrunning
  · rename_i fuel htimer
    rw [h.states, hclient]
    cases fuel with
    | zero => exact ClientInv.stopped Status.noConfusion Status.noConfusion
    | succ fuel =>
      refine (h.inv_call hrunning .timer).andThen fun new hrunning' hone => ?_
      -- the list has no second state
      rw [hone.states]
      cases fuel <;> exact hone.inv hrunning'

theorem OneConn.deleteAll (h : OneConn sconn s old) (hrunning : s.status = .running) :
    ClientInv sconn (deleteAllConnections s) := by
  refine OneConn.inv ⟨?_, h.states, h.alive⟩ hrunning
  unfold deleteAllConnections
  rw [h.connections]
  rfl

theorem iterate_eq (setup : Setup) (s : Host) (it : Iteration) :
    iterate setup s it
      = (((untilPacket setup s it).andThen (receivePacket setup it)).andThen
          (checkTimer setup it)).andThen deleteAllConnections := rfl

theorem andThen_stopped {s : Host} (h : s.status ≠ .running) (f : Host → Host) :
    s.andThen f = s := if_neg h

/-- The rest of the iteration. -/
theorem ClientInv.rest (h : ClientInv sconn s) (hclient : setup.role = .client) (it : Iteration) :
    ClientInv sconn ((s.andThen (MainLoop.checkTimer setup it)).andThen deleteAllConnections) :=
  (h.andThen fun old hrunning hone => hone.checkTimer hclient hrunning it).andThen
    fun old hrunning hone => hone.deleteAll hrunning

/-! ## One iteration -/

/-- No SYN arrives: the client goes on, or ends in the way it should. -/
theorem ClientInv.iterate (h : ClientInv sconn s) (hclient : setup.role = .client)
    (hprogram : setup.runProgram = false) (hsyn : ¬ SynArrives setup s it) :
    ClientInv sconn (iterate setup s it) := by
  by_cases hrunning : s.status = .running
  · obtain ⟨old, hone⟩ := h.2 hrunning
    rw [iterate_eq]
    refine ClientInv.rest ?_ hclient it
    rcases hone.untilPacket hclient hprogram hrunning it with
      ⟨-, hexited⟩ | ⟨hfails, hrunning', new, hnew⟩
    · refine (ClientInv.exited hexited).andThen fun _ hrunning' => ?_
      cases hexited.symm.trans hrunning'
    · rw [andThen_running hrunning']
      refine hnew.receivePacket hclient hrunning' it ?_
      exact fun harrives => hsyn ⟨hrunning, hfails, harrives⟩
  · rw [iterate_stopped setup it hrunning]
    exact h

/-- **A SYN arrives: the assertion fails.** -/
theorem ClientInv.assertFailed (h : ClientInv sconn s) (hclient : setup.role = .client)
    (hprogram : setup.runProgram = false) (hsyn : SynArrives setup s it) :
    (MainLoop.iterate setup s it).status = .assertFailed := by
  obtain ⟨hrunning, hfails, arrival, hpacket, hissyn⟩ := hsyn
  obtain ⟨old, hone⟩ := h.2 hrunning
  rcases hone.untilPacket hclient hprogram hrunning it with ⟨hfails', -⟩ | ⟨-, hrunning', -⟩
  · exact absurd hfails' hfails
  · rw [iterate_eq, andThen_running hrunning',
      receivePacket_newClient hclient hpacket (newClient_iff.mpr hissyn),
      andThen_stopped Status.noConfusion, andThen_stopped Status.noConfusion]

/-- **One iteration.** -/
theorem keepsRole_iff (h : ClientInv sconn s) (hclient : setup.role = .client)
    (hprogram : setup.runProgram = false) :
    KeepsRole setup s it ↔ ¬ SynArrives setup s it := by
  constructor
  · intro hkeeps hsyn
    exact hkeeps.asserted (h.assertFailed hclient hprogram hsyn)
  · intro hsyn
    exact ⟨(h.iterate hclient hprogram hsyn).1,
      fun arrival hpacket hflow => receivePacket_unchanged hclient hpacket hflow⟩

end Parts

/-! ## Whole runs -/

theorem clientInv_client (sconn : SeqConn) (intervals : CtcpConfig) :
    ClientInv sconn (Host.client sconn intervals) :=
  OneConn.inv ⟨rfl, rfl, rfl⟩ rfl

/-- **No role assertion fails in a client, and a packet of no flow changes nothing, in exactly the
    runs in which no SYN arrives while the client runs.** -/
theorem client_keeps_role_iff (net : Packet.Config) (unixSocket : Bool) (intervals : CtcpConfig)
    (sconn : SeqConn) (its : List Iteration) :
    let setup := startClient net unixSocket intervals
    Along (iterate setup) (KeepsRole setup) (Host.client sconn intervals) its ↔
      Along (iterate setup) (fun s it => ¬ SynArrives setup s it) (Host.client sconn intervals)
        its := by
  intro setup
  have hclient : setup.role = .client := rfl
  have hprogram : setup.runProgram = false := rfl
  have hiff : ∀ s it, ClientInv sconn s → (KeepsRole setup s it ↔ ¬ SynArrives setup s it) :=
    fun s it h => keepsRole_iff h hclient hprogram
  refine along_iff_of_invariant (I := ClientInv sconn) ?_ hiff (clientInv_client sconn intervals)
  intro s it h hkeeps
  exact h.iterate hclient hprogram ((hiff s it h).mp hkeeps)

/-- The SYN-ACK of a server on port 9999 to a client on port 8888. -/
def synAck : Datagram :=
  (Packet.tcpNewConnection ⟨0, 9999, 1440, 1440⟩ 5
    (createTcpSeg ⟨0, 8888, 1440, 1440⟩ (connSetup 0 9999 5) thSyn).1).2.2

/-- The client repeats nothing: the server has not got its ACK, and sends the SYN-ACK again. -/
theorem synAck_repeated :
    let client : Packet.Config := ⟨0, 8888, 1440, 1440⟩
    let setup := startClient client true ctcpCfg
    ∃ config sconn ack,
      tcpHandshake client (connSetup 0 9999 5) (fun _ => some synAck) = some (config, sconn, ack) ∧
        synAck.tcp.flags = thSyn ||| thAck ∧
        (run (iterate setup) (Host.client sconn ctcpCfg)
          [.receives synAck Env.roomy 5]).status = .assertFailed ∧
        ¬ Along (iterate setup) (KeepsRole setup) (Host.client sconn ctcpCfg)
          [.receives synAck Env.roomy 5] := by
  have hfails : ∀ sconn, (iterate (startClient ⟨0, 8888, 1440, 1440⟩ true ctcpCfg)
      (Host.client sconn ctcpCfg) (.receives synAck Env.roomy 5)).status = .assertFailed := by
    intro sconn
    refine (clientInv_client sconn ctcpCfg).assertFailed rfl rfl ⟨rfl, ?_, ?_⟩
    · rintro ⟨env, old, hdrains, -⟩
      cases hdrains
    · exact ⟨_, rfl, ⟨by decide, by decide, by decide, by decide⟩⟩
  refine ⟨_, _, _, rfl, by decide, hfails _, ?_⟩
  intro hkeeps
  exact hkeeps.1.asserted (hfails _)

end Ctcp.MainLoop
