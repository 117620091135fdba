/-
  The main loop (`do_loop` of `ctcp_sys_internal.c`), for all connections of a process.

  One iteration makes up to five kinds of calls into `ctcp.c`, in this order: `ctcp_read` for input
  from STDIN, `ctcp_output` from `conn_drain`, `ctcp_read` for the output of the programs,
  `ctcp_receive` for a packet, and `retransmission_handler` from `ctcp_timer`.  At the end it frees
  the connections that are marked.

  `connections` is `config->connections` in the order of `next`, and `states` is `state_list`, each
  state under the name that the `conn_t` knows it by.  `num_connected` is never decremented, so the
  number it has when a client comes is a name that no other connection ever has.  A state is in
  `states` from `ctcp_init` to `ctcp_destroy`: what is not there has been freed, and a callback that
  is entered with it has no defined behaviour.  The model records that it is entered, and goes on.

  What the two lists do to their pointers is the subject of `Ctcp.StateList` and `Ctcp.ConnTable`;
  `timerLoop_refines` and `deleteAllConnections_refines` connect them with the lists here.
-/
import Ctcp.Lib.Keyed
import Ctcp.StateList
import Ctcp.ConnTable
import Ctcp.RecvFilter

set_option linter.unusedVariables false

namespace Ctcp.MainLoop

open Runs Keyed BackLinked Packet

/-! ## Data -/

/-- What the process is started with. -/
structure Setup where
  role : Role
  net : Packet.Config
  runProgram : Bool
  unixSocket : Bool
  intervals : CtcpConfig

/-- A `conn_t`; `state` names `conn->state`. -/
structure ConnObj where
  state : Nat
  details : SeqConn
  deleteMe : Bool
  deriving DecidableEq, Repr

/-- What the main loop does, in order. -/
inductive Happening where
  /-- A callback is entered with this state. -/
  | enter (state : Nat) (call : Call)
  /-- The connection with this state does something. -/
  | does (state : Nat) (event : Event)
  /-- A segment for this state is taken for the ACK of a new connection. -/
  | withhold (state : Nat)
  deriving DecidableEq, Repr

/-- How far the process has come. -/
inductive Status where
  | running
  | exited
  /-- `ASSERT_SERVER_ONLY` failed. -/
  | assertFailed
  /-- `ctcp_timer` followed a null pointer. -/
  | badDeref
  /-- Still in the loop of `ctcp_timer`. -/
  | hung
  deriving DecidableEq, Repr

/-- The process, with the record of what it has done. -/
structure Host where
  connections : List ConnObj
  states : List (Nat × CtcpState)
  numConnected : Nat
  newConnection : UInt16
  log : List Happening
  status : Status

/-- Before the first client. -/
def Host.init : Host := ⟨[], [], 0, 0, [], .running⟩

/-- What `recv` returns and puts into the buffer, what the library answers in `ctcp_receive`, and
    what `rand()` returns to `tcp_new_connection`. -/
structure Arrival where
  length : Int
  datagram : Datagram
  env : Env
  rand : UInt32

/-- What one iteration finds: the events that `poll` reports, and the answers of the library. -/
structure Iteration where
  /-- Input from STDIN, and the answer of `conn_send`. -/
  stdin : Option (Option Chunk × Int)
  /-- The states whose connections write output from their queues. -/
  drains : Nat → Option Env
  /-- The states whose programs have output. -/
  programs : Nat → Option (Option Chunk × Int)
  packet : Option Arrival
  /-- Whether the timer is up; the number bounds the loop of `ctcp_timer`. -/
  timer : Option Nat

/-- An iteration in which nothing is ready. -/
def Iteration.idle : Iteration := ⟨none, fun _ => none, fun _ => none, none, none⟩

/-- A packet on a Unix socket. -/
def packetOf (sport dport : UInt16) (seq ack : UInt32) (flags : UInt8) (sum : UInt16)
    (payload : List UInt8) : Datagram where
  ip := ⟨5, 4, 0, htons (fullHdrSize + UInt16.ofNat payload.length), htons 144, 0, 64, 6, 0, 0, 0⟩
  tcp := ⟨htons sport, htons dport, htonl seq, htonl ack, 5, flags, htons 1440, sum, 0⟩
  payload := payload

/-- An iteration in which a packet arrives, and nothing else happens. -/
def Iteration.receives (datagram : Datagram) (env : Env) (rand : UInt32) : Iteration :=
  { Iteration.idle with packet := some ⟨datagram.recvLen, datagram, env, rand⟩ }

/-! ## Callbacks -/

/-- Go on, unless the process has ended. -/
def Host.andThen (s : Host) (f : Host → Host) : Host := if s.status = .running then f s else s

/-- Append to the record. -/
def Host.record (s : Host) (happenings : List Happening) : Host :=
  { s with log := s.log ++ happenings }

/-- `conn_remove`, for the connection with this state. -/
def ConnObj.remove (state : Nat) (conn : ConnObj) : ConnObj :=
  if conn.state = state then { conn with deleteMe := true } else conn

/-- `ctcp_destroy`; `end_client` ends a client. -/
def Host.destroy (s : Host) (role : Role) (state : Nat) : Host :=
  { s with
    connections := s.connections.map (ConnObj.remove state)
    states := s.states.filter fun x => x.1 ≠ state
    status := if role = .client then .exited else s.status }

/-- A state after a callback that has not destroyed it. -/
def Host.update (s : Host) (state : Nat) (new : CtcpState) : Host :=
  { s with states := s.states.map fun x => if x.1 = state then (state, new) else x }

/-- A callback is entered with `state`. -/
def Host.call (s : Host) (role : Role) (state : Nat) (call : Call) : Host :=
  let s := s.record [.enter state call]
  match s.states.lookup state with
  -- a state that has been freed: what the callback does with it is not known
  | none => s
  | some old =>
    let s := s.record ((events old call).map (Happening.does state))
    if (step old call).conn.deleteMe then s.destroy role state
    else s.update state (step old call)

/-! ## The parts of an iteration -/

/-- "Input from stdin.  Server will only send to most-recently connected client." -/
def readStdin (setup : Setup) (it : Iteration) (s : Host) : Host :=
  match it.stdin, s.connections with
  | some (input, sent), conn :: _ =>
    if setup.runProgram = false then s.call setup.role conn.state (.read input sent) else s
  | _, _ => s

/-- `conn->delete_me`, for the connection with this state. -/
def Host.marked (s : Host) (state : Nat) : Bool :=
  s.connections.any fun conn => conn.state = state ∧ conn.deleteMe = true

/-- `conn_drain`: "Output queue has space.  Call student code." -/
def connDrain (setup : Setup) (it : Iteration) (s : Host) (state : Nat) : Host :=
  match it.drains state with
  | some env => if s.marked state then s else s.call setup.role state (.output env)
  | none => s

/-- The names of the states, in the order of the connections. -/
def Host.names (s : Host) : List Nat := s.connections.map ConnObj.state

/-- "See if we can output more." -/
def drainAll (setup : Setup) (it : Iteration) (s : Host) : Host :=
  run (fun s state => s.andThen fun s => connDrain setup it s state) s s.names

/-- The output of one program. -/
def readProgram (setup : Setup) (it : Iteration) (s : Host) (state : Nat) : Host :=
  match it.programs state with
  | some (input, sent) => s.call setup.role state (.read input sent)
  | none => s

/-- "Poll for output received from running programs." -/
def readPrograms (setup : Setup) (it : Iteration) (s : Host) : Host :=
  if setup.runProgram = true then
    run (fun s state => s.andThen fun s => readProgram setup it s state) s s.names
  else s

/-- The connections as `recv_filter` sees them. -/
def Host.established (s : Host) : List (Nat × SeqConn) :=
  s.connections.map fun conn => (conn.state, conn.details)

/-- The test for the ACK of a new connection. -/
def isNewAck (newConnection : UInt16) (datagram : Datagram) (segment : CtcpSegment) : Bool :=
  datagram.tcp.sport = newConnection ∧ segment.flags &&& thAck.toUInt32 ≠ 0 ∧
    ntohl segment.seqno = 1 ∧ ntohl segment.ackno = 1

/-- What becomes of a packet. -/
inductive Disposal where
  | ignored
  | reset
  | newClient
  | withheld (state : Nat)
  /-- `ctcp_receive`, with this segment and length. -/
  | passed (state : Nat) (segment : CtcpSegment) (len : Nat)

/-- The tests of `do_loop` on a packet.  When `recv` fails, `len >= FULL_HDR_SIZE` holds, for the
    comparison is unsigned; but the buffer is zero then, and no flag is set. -/
def dispose (setup : Setup) (newConnection : UInt16) (established : List (Nat × SeqConn))
    (arrival : Arrival) : Disposal :=
  match recvFilter setup.net setup.unixSocket Prod.snd established arrival.length
      arrival.datagram with
  | .failed => .ignored
  | .dropped => .ignored
  | .exited => .reset
  | .handshake => .newClient
  | .attributed conn =>
    let segment := convertToCtcp conn.2 arrival.datagram
    let len := arrival.length - fullHdrSize.toNat + segmentHdrSize
    if isNewAck newConnection arrival.datagram segment then .withheld conn.1
    else .passed conn.1 segment len.toNat

/-- `tcp_new_connection`. -/
def tcpNewConnection (setup : Setup) (s : Host) (arrival : Arrival) : Host :=
  if setup.role = .client then { s with status := .assertFailed }
  -- `return NULL`: the SYN gets no answer
  else if s.numConnected ≥ maxNumClients then s
  else
    let (_, details, _) := Packet.tcpNewConnection setup.net arrival.rand arrival.datagram
    { s with
      connections := ⟨s.numConnected, details, false⟩ :: s.connections
      states := (s.numConnected, ctcpInit setup.intervals) :: s.states
      numConnected := s.numConnected + 1 }

/-- "Receive packet on socket from other hosts." -/
def receivePacket (setup : Setup) (it : Iteration) (s : Host) : Host :=
  match it.packet with
  | none => s
  | some arrival =>
    match dispose setup s.newConnection s.established arrival with
    | .ignored => s
    | .reset => { s with status := .exited }
    | .newClient =>
      -- `new_connection` is set also when the client has been refused
      { tcpNewConnection setup s arrival with newConnection := arrival.datagram.tcp.sport }
    | .withheld state => { s with newConnection := 0 }.record [.withhold state]
    | .passed state segment len => s.call setup.role state (.receive segment len arrival.env)

/-- The loop of `ctcp_timer`. -/
def timerLoop (role : Role) : Nat → Host → Option Nat → Host
  | _, s, none => s
  | 0, s, some _ => { s with status := .hung }
  | fuel + 1, s, some state =>
    (s.call role state .timer).andThen fun s =>
      -- `state = state_list->next`, whatever state has just been handled
      match s.states with
      | [] => { s with status := .badDeref }
      | _ :: rest => timerLoop role fuel s (first rest none)

/-- "Check if timer is up." -/
def checkTimer (setup : Setup) (it : Iteration) (s : Host) : Host :=
  match it.timer with
  | none => s
  | some fuel => timerLoop setup.role fuel s (first s.states none)

/-- `delete_all_connections`.  The head of the list is not freed without the loss of the list. -/
def deleteAllConnections (s : Host) : Host :=
  { s with
    connections :=
      match s.connections with
      | [] => []
      | conn :: rest =>
        if conn.deleteMe then [] else conn :: rest.filter fun conn => !conn.deleteMe }

/-- One iteration. -/
def iterate (setup : Setup) (s : Host) (it : Iteration) : Host :=
  ((((((s.andThen (readStdin setup it)).andThen (drainAll setup it)).andThen
    (readPrograms setup it)).andThen (receivePacket setup it)).andThen
      (checkTimer setup it)).andThen deleteAllConnections)

/-! ## What a callback leaves alone -/

section Call

variable (s : Host) (role : Role) (state : Nat) (call : Call)

/-- **What a callback does.**  It is entered; then, if its state has been freed, nothing is known;
    otherwise the connection does what `step` does, and is removed or stays. -/
theorem call_cases :
    (s.states.lookup state = none ∧ s.call role state call = s.record [.enter state call]) ∨
      ∃ old, s.states.lookup state = some old ∧
        ((step old call).conn.deleteMe = true ∧
            s.call role state call = (s.record (.enter state call ::
              (events old call).map (Happening.does state))).destroy role state ∨
          (step old call).conn.deleteMe = false ∧
            s.call role state call = (s.record (.enter state call ::
              (events old call).map (Happening.does state))).update state (step old call)) := by
  have hlog : ∀ old, (s.record [.enter state call]).record
      ((events old call).map (Happening.does state))
        = s.record (.enter state call :: (events old call).map (Happening.does state)) := by
    intro old
    simp only [Host.record, List.append_assoc, List.singleton_append]
  have hsame : (s.record [.enter state call]).states = s.states := rfl
  unfold Host.call
  simp only [hlog, hsame]
  cases hold : s.states.lookup state with
  | none => exact Or.inl ⟨rfl, rfl⟩
  | some old =>
    refine Or.inr ⟨old, rfl, ?_⟩
    by_cases hdead : (step old call).conn.deleteMe = true
    · exact Or.inl ⟨hdead, if_pos hdead⟩
    · exact Or.inr ⟨by simpa using hdead, if_neg hdead⟩

/-- Marking a connection changes neither its name nor its details. -/
theorem established_remove (connections : List ConnObj) :
    (connections.map (ConnObj.remove state)).map (fun conn => (conn.state, conn.details))
      = connections.map fun conn => (conn.state, conn.details) := by
  rw [List.map_map]
  refine List.map_congr_left ?_
  intro conn hconn
  show ((conn.remove state).state, (conn.remove state).details) = (conn.state, conn.details)
  unfold ConnObj.remove
  split <;> rfl

/-- What a callback does not touch: the counter, the port of the new connection, and what
    `recv_filter` looks at. -/
structure SameTable (s t : Host) : Prop where
  established : t.established = s.established
  numConnected : t.numConnected = s.numConnected
  newConnection : t.newConnection = s.newConnection

theorem names_eq : s.names = s.established.map Prod.fst := by
  unfold Host.names Host.established
  rw [List.map_map]
  rfl

theorem sameTable_call : SameTable s (s.call role state call) := by
  rcases call_cases s role state call with
    ⟨-, hcall⟩ | ⟨old, -, ⟨-, hcall⟩ | ⟨-, hcall⟩⟩
  · rw [hcall]
    exact ⟨rfl, rfl, rfl⟩
  · rw [hcall]
    exact ⟨established_remove state s.connections, rfl, rfl⟩
  · rw [hcall]
    exact ⟨rfl, rfl, rfl⟩

theorem status_call : (s.call role state call).status = s.status ∨
    role = .client ∧ (s.call role state call).status = .exited := by
  rcases call_cases s role state call with
    ⟨-, hcall⟩ | ⟨old, -, ⟨-, hcall⟩ | ⟨-, hcall⟩⟩
  · rw [hcall]
    exact Or.inl rfl
  · rw [hcall]
    cases role with
    | client => exact Or.inr ⟨rfl, rfl⟩
    | server => exact Or.inl rfl
  · rw [hcall]
    exact Or.inl rfl

/-- What a callback adds to the record. -/
def Host.happenings (s : Host) (state : Nat) (call : Call) : List Happening :=
  .enter state call :: match s.states.lookup state with
    | none => []
    | some old => (events old call).map (Happening.does state)

theorem log_call :
    (s.call role state call).log = s.log ++ s.happenings state call := by
  unfold Host.happenings
  rcases call_cases s role state call with
    ⟨hnone, hcall⟩ | ⟨old, hold, ⟨-, hcall⟩ | ⟨-, hcall⟩⟩
  · rw [hcall, hnone]
    rfl
  · rw [hcall, hold]
    rfl
  · rw [hcall, hold]
    rfl

/-- A callback with one state leaves the others alone. -/
theorem lookup_call {other : Nat} (hne : other ≠ state) :
    (s.call role state call).states.lookup other = s.states.lookup other := by
  rcases call_cases s role state call with
    ⟨-, hcall⟩ | ⟨old, -, ⟨-, hcall⟩ | ⟨-, hcall⟩⟩
  · rw [hcall]
    rfl
  · rw [hcall]
    exact lookup_filter s.states hne
  · rw [hcall]
    show (s.states.map _).lookup other = _
    rw [lookup_update, if_neg hne]

theorem status_server (hserver : role = .server) :
    (s.call role state call).status = s.status := by
  rcases status_call s role state call with hstatus | ⟨hclient, -⟩
  · exact hstatus
  · cases hserver.symm.trans hclient

end Call

/-! ## The end of an iteration -/

/-- Only unmarked connections are left. -/
theorem sublist_deleteAll (s : Host) :
    (deleteAllConnections s).connections.Sublist s.connections ∧
      ∀ conn ∈ (deleteAllConnections s).connections, conn.deleteMe = false := by
  simp only [deleteAllConnections]
  cases s.connections with
  | nil => exact ⟨List.Sublist.refl _, by simp⟩
  | cons conn rest =>
    by_cases hmark : conn.deleteMe = true
    · simp only [if_pos hmark]
      exact ⟨List.nil_sublist _, by simp⟩
    · simp only [if_neg hmark]
      refine ⟨List.filter_sublist.cons_cons conn, ?_⟩
      intro conn' hconn'
      rcases List.mem_cons.mp hconn' with rfl | hrest
      · simpa using hmark
      · simpa using (List.mem_filter.mp hrest).2

/-! ## What a part of an iteration does not change -/

theorem andThen_running {s : Host} (h : s.status = .running) (f : Host → Host) :
    s.andThen f = f s := if_pos h

section Frames

variable {R : Host → Host → Prop} {setup : Setup}

theorem frame_andThen (hR : Frame R) {f : Host → Host} (hf : ∀ s, R s (f s)) (s : Host) :
    R s (s.andThen f) := by
  unfold Host.andThen
  split
  · exact hf s
  · exact hR.refl s

theorem frame_readStdin (hR : Frame R)
    (hread : ∀ s state input sent, R s (s.call setup.role state (.read input sent)))
    (it : Iteration) (s : Host) : R s (readStdin setup it s) := by
  unfold readStdin
  split
  · split
    · exact hread s _ _ _
    · exact hR.refl s
  · exact hR.refl s

theorem frame_drainAll (hR : Frame R)
    (houtput : ∀ s state env, R s (s.call setup.role state (.output env)))
    (it : Iteration) (s : Host) : R s (drainAll setup it s) := by
  refine hR.run (fun s state => frame_andThen hR (fun s => ?_) s) s s.names
  unfold connDrain
  split
  · split
    · exact hR.refl s
    · exact houtput s state _
  · exact hR.refl s

theorem frame_readProgram (hR : Frame R)
    (hread : ∀ s state input sent, R s (s.call setup.role state (.read input sent)))
    (it : Iteration) (s : Host) (state : Nat) : R s (readProgram setup it s state) := by
  unfold readProgram
  split
  · exact hread s state _ _
  · exact hR.refl s

theorem frame_readPrograms (hR : Frame R)
    (hread : ∀ s state input sent, R s (s.call setup.role state (.read input sent)))
    (it : Iteration) (s : Host) : R s (readPrograms setup it s) := by
  unfold readPrograms
  split
  · refine hR.run (fun s state => frame_andThen hR (fun s => ?_) s) s s.names
    exact frame_readProgram hR hread it s state
  · exact hR.refl s

/-- The loop of `ctcp_timer` calls `retransmission_handler`, and may end the process. -/
theorem frame_timerLoop (hR : Frame R) {role : Role}
    (htimer : ∀ s state, R s (s.call role state .timer))
    (hstatus : ∀ (s : Host) status, R s { s with status := status })
    (fuel : Nat) (s : Host) (cursor : Option Nat) : R s (timerLoop role fuel s cursor) := by
  induction fuel generalizing s cursor with
  | zero =>
    cases cursor with
    | none => exact hR.refl s
    | some state => exact hstatus s .hung
  | succ fuel ih =>
    cases cursor with
    | none => exact hR.refl s
    | some state =>
      refine hR.trans (htimer s state) ?_
      refine frame_andThen hR (fun t => ?_) _
      split
      · exact hstatus t .badDeref
      · exact ih t _

theorem frame_checkTimer (hR : Frame R)
    (htimer : ∀ s state, R s (s.call setup.role state .timer))
    (hstatus : ∀ (s : Host) status, R s { s with status := status })
    (it : Iteration) (s : Host) : R s (checkTimer setup it s) := by
  unfold checkTimer
  split
  · exact hR.refl s
  · exact frame_timerLoop hR htimer hstatus _ s _

theorem frame_sameTable : Frame SameTable where
  refl s := ⟨rfl, rfl, rfl⟩
  trans h h' := ⟨h'.established.trans h.established, h'.numConnected.trans h.numConnected,
    h'.newConnection.trans h.newConnection⟩

theorem frame_status : Frame fun s t : Host => t.status = s.status :=
  ⟨fun _ => rfl, fun h h' => h'.trans h⟩

end Frames

/-! ## The record only grows -/

section Record

variable (setup : Setup) (it : Iteration)

theorem frame_log : Frame fun s t : Host => s.log <+: t.log :=
  ⟨fun s => List.prefix_refl s.log, fun h h' => h.trans h'⟩

theorem log_prefix_call (s : Host) (role : Role) (state : Nat) (call : Call) :
    s.log <+: (s.call role state call).log := by
  rw [log_call]
  exact List.prefix_append _ _

theorem log_prefix_readProgram (s : Host) (state : Nat) :
    s.log <+: (s.andThen fun s => readProgram setup it s state).log :=
  frame_andThen frame_log (fun s => frame_readProgram frame_log
    (fun s state _ _ => log_prefix_call s setup.role state _) it s state) s

theorem log_tcpNewConnection (s : Host) (arrival : Arrival) :
    (tcpNewConnection setup s arrival).log = s.log := by
  unfold tcpNewConnection
  split
  · rfl
  · split <;> rfl

theorem log_prefix_receivePacket (s : Host) : s.log <+: (receivePacket setup it s).log := by
  unfold receivePacket
  split
  · exact List.prefix_refl _
  · rename_i arrival hpacket
    split
    · exact List.prefix_refl _
    · exact List.prefix_refl _
    · show s.log <+: (tcpNewConnection setup s arrival).log
      exact log_tcpNewConnection setup s arrival ▸ List.prefix_refl s.log
    · exact List.prefix_append _ _
    · exact log_prefix_call _ _ _ _

/-- After the packet. -/
theorem log_prefix_rest (s : Host) :
    s.log <+: ((s.andThen (checkTimer setup it)).andThen deleteAllConnections).log := by
  have htimer := frame_checkTimer frame_log
    (fun s state => log_prefix_call s setup.role state .timer)
    (fun s _ => List.prefix_refl s.log) it
  have hdelete : ∀ s : Host, s.log <+: (deleteAllConnections s).log :=
    fun s => List.prefix_refl s.log
  exact (frame_andThen frame_log htimer s).trans (frame_andThen frame_log hdelete _)

theorem log_prefix_iterate (s : Host) (it : Iteration) : s.log <+: (iterate setup s it).log := by
  have hcall := fun s state call => log_prefix_call s setup.role state call
  have hstdin := frame_readStdin frame_log (fun s state _ _ => hcall s state _) it
  have hdrain := frame_drainAll frame_log (fun s state _ => hcall s state _) it
  have hprograms := frame_readPrograms frame_log (fun s state _ _ => hcall s state _) it
  have hpacket := log_prefix_receivePacket setup it
  exact ((((frame_andThen frame_log hstdin s).trans (frame_andThen frame_log hdrain _)).trans
    (frame_andThen frame_log hprograms _)).trans (frame_andThen frame_log hpacket _)).trans
      (log_prefix_rest setup it _)

theorem iterate_stopped {s : Host} (hstopped : s.status ≠ .running) : iterate setup s it = s := by
  have hstay : ∀ f : Host → Host, s.andThen f = s := fun f => if_neg hstopped
  unfold iterate
  simp only [hstay]

end Record

/-! ## The lists and the pointers -/

/-- The states that `retransmission_handler` is entered with, in order. -/
def handled (log : List Happening) : List Nat :=
  log.filterMap fun
    | .enter state .timer => some state
    | _ => none

/-- The end of a call of `ctcp_timer`, for the process. -/
def TimerEnd.status : TimerEnd → Status
  | .returned => .running
  | .exited => .exited
  | .badDeref => .badDeref
  | .outOfFuel => .hung

theorem handled_call (s : Host) (role : Role) (state : Nat) :
    handled (s.call role state .timer).log = handled s.log ++ [state] := by
  have hdoes : ∀ es : List Event, handled (es.map (Happening.does state)) = [] := by
    intro es
    simp [handled]
  have hnew : ∀ es : List Event,
      handled (s.log ++ .enter state .timer :: es.map (Happening.does state))
        = handled s.log ++ [state] := by
    intro es
    have hrest := hdoes es
    simp only [handled, List.filterMap_append, List.filterMap_cons] at hrest ⊢
    rw [hrest]
  rcases call_cases s role state .timer with
    ⟨-, hcall⟩ | ⟨old, -, ⟨-, hcall⟩ | ⟨-, hcall⟩⟩
  · rw [hcall]
    exact hnew []
  · rw [hcall]
    exact hnew _
  · rw [hcall]
    exact hnew _

/-- One round of the loop of `ctcp_timer`, here and on the pointers. -/
theorem call_refines (role : Role) {s : Host} {list : StateList} {state : Nat}
    (h : Conns list s.states) (hin : state ∈ addrs s.states) (hrunning : s.status = .running) :
    ∃ list' exits, retransmissionHandlerOn role list state = some (list', exits) ∧
      Conns list' (s.call role state .timer).states ∧
      (s.call role state .timer).status = if exits then .exited else .running := by
  obtain ⟨⟨a, v⟩, hx, rfl⟩ := List.mem_map.mp hin
  -- `handler_expired` and `handler_running` ask where in the list the state is
  obtain ⟨l₁, l₂, hsplit⟩ := List.append_of_mem hx
  have h' := h
  rw [hsplit] at h'
  have hnd := h'.rep.nodup
  have hlive : v.conn.deleteMe = false := h.live (a, v) hx
  have hlookup : s.states.lookup a = some v := by
    rw [hsplit]
    exact lookup_middle hnd
  have hstep : step v .timer = retransmissionHandler v := by simp [step, hlive]
  rcases call_cases s role a .timer with
    ⟨hnone, -⟩ | ⟨old, hold, ⟨hdead, hcall⟩ | ⟨hkept, hcall⟩⟩
  · cases hlookup.symm.trans hnone
  · obtain rfl := Option.some.inj (hlookup.symm.trans hold)
    rw [hstep] at hdead
    obtain ⟨list', hhandler, hconns⟩ :=
      handler_expired role h' ((deleteMe_of_handler hlive).mp hdead)
    refine ⟨list', _, hhandler, ?_, ?_⟩
    · rw [hcall]
      show Conns list' (s.states.filter fun x => x.1 ≠ a)
      rw [hsplit, filter_middle hnd]
      exact hconns
    · rw [hcall]
      show (if role = .client then Status.exited else s.status) = _
      rw [hrunning]
      cases role <;> rfl
  · obtain rfl := Option.some.inj (hlookup.symm.trans hold)
    rw [hstep] at hkept
    have hexp : ¬ waitExpires v := by
      intro hexp
      cases hkept.symm.trans ((deleteMe_of_handler hlive).mpr hexp)
    obtain ⟨list', hhandler, hconns⟩ := handler_running role h' hexp
    refine ⟨list', _, hhandler, ?_, ?_⟩
    · rw [hcall]
      show Conns list' (s.states.map fun x => if x.1 = a then (a, step v .timer) else x)
      rw [hsplit, update_middle hnd, hstep]
      exact hconns
    · rw [hcall]
      exact hrunning

/-- **The loop of `ctcp_timer` is the one on the pointers of `state_list`**: it handles the same
    states, ends in the same way and leaves the same connections. -/
theorem timerLoop_refines (role : Role) (fuel : Nat) {s : Host} {list : StateList}
    {cursor : Option Nat} (visited : List Nat) (h : Conns list s.states)
    (hcursor : ∀ state, cursor = some state → state ∈ addrs s.states)
    (hrunning : s.status = .running) :
    let r := Ctcp.timerLoop role fuel list visited cursor
    let t := timerLoop role fuel s cursor
    Conns r.list t.states ∧ t.status = TimerEnd.status r.ending ∧
      ∃ new, handled t.log = handled s.log ++ new ∧ r.visited = visited ++ new := by
  -- the cursor after a round is the second of what is then the list, on both sides
  induction fuel generalizing s list cursor visited with
  | zero =>
    cases cursor with
    | none => exact ⟨h, hrunning, [], by simp [timerLoop], by simp [Ctcp.timerLoop]⟩
    | some state => exact ⟨h, rfl, [], by simp [timerLoop], by simp [Ctcp.timerLoop]⟩
  | succ fuel ih =>
    cases cursor with
    | none => exact ⟨h, hrunning, [], by simp [timerLoop], by simp [Ctcp.timerLoop]⟩
    | some state =>
      obtain ⟨list', exits, hhandler, hconns, hstatus⟩ :=
        call_refines role h (hcursor state rfl) hrunning
      have hlog := handled_call s role state
      simp only [timerLoop, Host.andThen]
      generalize s.call role state .timer = s' at hconns hstatus hlog ⊢
      cases exits with
      | true =>
        rw [loop_exit hhandler, if_neg (by simp [hstatus])]
        exact ⟨hconns, hstatus, [state], hlog, rfl⟩
      | false =>
        have hgoes : s'.status = .running := hstatus
        rw [if_pos hgoes]
        cases hstates : s'.states with
        | nil =>
          rw [hstates] at hconns
          rw [loop_null hconns hhandler]
          exact ⟨hconns, rfl, [state], hlog, rfl⟩
        | cons x rest =>
          have hcons := hconns
          rw [hstates] at hcons
          rw [loop_step hcons hhandler]
          have hnext : ∀ a, first rest none = some a → a ∈ addrs s'.states := by
            intro a ha
            rw [hstates]
            cases rest with
            | nil => cases ha
            | cons y rest =>
              obtain rfl := Option.some.inj ha
              simp
          obtain ⟨hlist, hend, new, hnew, hvisited⟩ :=
            ih (visited ++ [state]) hconns hnext hgoes
          refine ⟨hlist, hend, state :: new, ?_, ?_⟩
          · rw [hnew, hlog, List.append_assoc]
            rfl
          · rw [hvisited, List.append_assoc]
            rfl

/-- The head of the list, here and in the table. -/
theorem head_of_same {server : Server} {connections : List ConnObj} (h : TableInv server)
    (hsame : server.expected.map (fun x => (x.1, x.2.deleteMe))
      = connections.map fun conn => (conn.state, conn.deleteMe)) :
    HeadStays server .deleteAll ↔ ∀ conn rest, connections = conn :: rest →
      conn.deleteMe = false := by
  obtain ⟨table, expected⟩ := server
  have hrep := h.rep
  cases expected with
  | nil =>
    obtain rfl := List.map_eq_nil_iff.mp hsame.symm
    refine iff_of_true ?_ ?_
    · intro _ conn node hconn
      rw [show table.mem.head = none from hrep.head] at hconn
      cases hconn
    · intro conn rest heq
      cases heq
  | cons x l =>
    obtain ⟨a, v⟩ := x
    obtain ⟨conn, rest, rfl, hconn, -⟩ := List.map_eq_cons_iff.mp hsame.symm
    obtain ⟨-, hmark⟩ := Prod.mk.inj hconn
    have hfirst : table.mem.head = some a := hrep.head
    have hnode : table.mem.heap a = some ⟨first l none, .head, v⟩ := hrep.seg.1
    constructor
    · intro hstays conn' rest' heq
      obtain ⟨rfl, -⟩ := List.cons.inj heq
      exact hmark.trans (hstays rfl a _ hfirst hnode)
    · intro hunmarked _ a' node' ha' hnode'
      obtain rfl := Option.some.inj (hfirst.symm.trans ha')
      obtain rfl := Option.some.inj (hnode.symm.trans hnode')
      exact hmark.symm.trans (hunmarked conn rest rfl)

/-- **`delete_all_connections` leaves the connections that `config->connections` then leads to.** -/
theorem deleteAllConnections_refines {server : Server} {s : Host} (h : TableInv server)
    (hsame : server.expected.map (fun x => (x.1, x.2.deleteMe))
      = s.connections.map fun conn => (conn.state, conn.deleteMe)) :
    let mem := (serve server .deleteAll).table.mem
    Linked mem mem.head (deleteAllConnections s).names := by
  intro mem
  -- `conn_free` of the head loses the list, so the two cases differ in more than the head
  by_cases hstays : HeadStays server .deleteAll
  · have hunmarked := (head_of_same h hsame).mp hstays
    have hkept : (deleteAllConnections s).connections
        = s.connections.filter fun conn => !conn.deleteMe := by
      unfold deleteAllConnections
      cases hconns : s.connections with
      | nil => rfl
      | cons conn rest => simp [hunmarked conn rest hconns]
    have hnames : addrs (serve server .deleteAll).expected = (deleteAllConnections s).names := by
      have hfilter := congrArg (fun l => (l.filter fun x => !x.2).map Prod.fst) hsame
      simp only [List.filter_map, List.map_map] at hfilter
      show (server.expected.filter fun x => !x.2.deleteMe).map Prod.fst = _
      rw [Host.names, hkept]
      exact hfilter
    rw [← hnames]
    exact (tableInv_deleteAll h hstays).sound.linked
  · have hhead : mem.head = none := head_deleteAll h hstays
    have hnames : (deleteAllConnections s).names = [] := by
      rw [head_of_same h hsame] at hstays
      unfold deleteAllConnections Host.names
      cases hconns : s.connections with
      | nil => rfl
      | cons conn rest =>
        have hmarked : conn.deleteMe = true := by
          cases hmark : conn.deleteMe with
          | true => rfl
          | false =>
            refine absurd ?_ hstays
            intro conn' rest' heq
            obtain ⟨rfl, -⟩ := List.cons.inj (hconns.symm.trans heq)
            exact hmark
        simp [hmarked]
    rw [hnames]
    exact hhead

end Ctcp.MainLoop
