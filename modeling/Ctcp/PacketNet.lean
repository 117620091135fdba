/-
  Two hosts that exchange packets.

  Each host hands what its endpoint sends to `conn_send`, with all of its unreliable options, and
  the packets that leave may arrive at the other host, at any later time and any number of times,
  or never.  There they go through the tests of `do_loop` (`dispose`) and `convert_to_ctcp` before
  `ctcp_receive` sees them.

  `packets_simulate`: these hosts simulate the network of `Ctcp.Drains`, in which the segments
  themselves travel.  A packet that arrives is a segment that the peer has emitted; or it is a
  corrupted one, which changes nothing; or `recv_filter` drops it, or it is withheld as the ACK of a
  new connection, and then it is a segment that got lost.  So what holds in every run of that
  network holds here: `packets_in_order`.

  The runs are those in which `conn_send` gives the answers that the endpoints have seen
  (`Answers`), in one process.
-/
import Ctcp.ConnSend
import Ctcp.MainLoop
import Ctcp.Drains

set_option linter.unusedVariables false

namespace Ctcp

/-- The segment that an event hands to `conn_send`. -/
def Event.handed : Event → Option CtcpSegment
  | .send segment _ => some segment
  | .resend segment => some segment
  | _ => none

attribute [simp] Event.handed

end Ctcp

namespace Ctcp.Packet

open Runs History Pipes MainLoop

/-! ## The segments that reach `conn_send` -/

/-- What `_segment_send` can build. -/
inductive Formed : CtcpSegment → Prop
  | fin (seqno ackno : UInt32) : Formed (finSegment seqno ackno)
  | data (seqno ackno : UInt32) (buffer : List UInt8) (hle : buffer.length ≤ maxSegDataSize) :
      Formed (dataSegment seqno ackno buffer)

theorem Formed.ack (seqno ackno : UInt32) : Formed (ackSegment seqno ackno) :=
  .data seqno ackno [] (Nat.zero_le _)

/-- The length that the segment announces, in network order. -/
def lenOf (segment : CtcpSegment) : Nat := (ntohs segment.len).toNat

/-- A segment that `_segment_send` builds, with the length it is sent with. -/
theorem whole_buildSegment (seqno ackno : UInt32) {flags : UInt32} {data : List UInt8}
    (hflags : htonl flags < 256) (hle : data.length ≤ maxSegDataSize) :
    let segment := buildSegment seqno ackno flags (data.length + segmentHdrSize) data
    lenOf segment = data.length + segmentHdrSize ∧ Whole segment (lenOf segment) ∧
      Valid segment (lenOf segment) := by
  intro segment
  have hmax : maxSegDataSize = 1440 := rfl
  have hhdr : segmentHdrSize = 20 := rfl
  have hlen : lenOf segment = data.length + segmentHdrSize := by
    rw [lenOf, ntohs_buildSegment_len, UInt16.toNat_ofNat']
    omega
  have hdata : segment.data.length + segmentHdrSize = data.length + segmentHdrSize := by
    rw [buildSegment_data, Nat.add_sub_cancel, List.take_length]
  refine ⟨hlen, ?_, ?_⟩
  · rw [hlen]
    exact ⟨rfl, rfl, hflags, hdata, by omega⟩
  · rw [hlen]
    exact valid_buildSegment seqno ackno flags data (by omega)

theorem Formed.whole {segment : CtcpSegment} (h : Formed segment) :
    Whole segment (lenOf segment) ∧ Valid segment (lenOf segment) := by
  cases h with
  | fin seqno ackno =>
    exact (@whole_buildSegment seqno ackno FIN [] (by decide) (by decide)).2
  | data seqno ackno buffer hle =>
    exact (@whole_buildSegment seqno ackno ACK buffer (by decide) hle).2

/-- In network order the flags are those of TCP. -/
theorem Formed.flags {segment : CtcpSegment} (h : Formed segment) :
    segment.flags = 0x01 ∨ segment.flags = 0x10 := by
  have hfin : htonl FIN = 0x01 := by decide
  have hack : htonl ACK = 0x10 := by decide
  cases h with
  | fin seqno ackno => exact Or.inl hfin
  | data seqno ackno buffer => exact Or.inr hack

theorem Formed.of_outstanding {seqno : UInt32} {segment : CtcpSegment}
    (h : Outstanding seqno segment) : Formed segment := by
  cases h with
  | fin start ackno => exact .fin start ackno
  | data start ackno buffer _ hle => exact .data start ackno buffer hle

/-- Everything that has been handed to `conn_send` has been built by `_segment_send`. -/
def Forms (h : List Event) : Prop := ∀ e ∈ h, ∀ segment, e.handed = some segment → Formed segment

@[simp] theorem forms_nil : Forms [] := by simp [Forms]

@[simp] theorem forms_cons {e : Event} {h : List Event} :
    Forms (e :: h) ↔ (∀ segment, e.handed = some segment → Formed segment) ∧ Forms h := by
  simp [Forms]

@[simp] theorem forms_append {h es : List Event} : Forms (h ++ es) ↔ Forms h ∧ Forms es := by
  simp only [Forms, List.mem_append, or_imp, forall_and]

theorem forms_output {env : Env} {state state' : CtcpState} (h : Forms state.trace)
    (hout : OutputOutcome env state state') : Forms state'.trace := by
  cases hout with
  | noRoom => exact h
  | kept => exact h
  | empty => exact h
  | failed => simpa using h
  | delivered => simpa [Formed.ack] using h
  | fault => simpa using h

theorem forms_receive {env : Env} {state state' : CtcpState} {segment : CtcpSegment}
    (h : Forms state.trace) (hout : ReceiveOutcome env state segment state') :
    Forms state'.trace := by
  cases hout with
  | passiveUnsent => simpa [Formed.ack, Formed.fin] using h
  | passiveClose => simpa [Formed.ack, Formed.fin] using h
  | data _ _ _ _ _ _ hout => exact forms_output (by simpa using h) hout
  | closingFin => simpa [Formed.ack] using h
  | lastFin => simpa [Formed.ack] using h
  | _ => simpa using h

theorem forms_step (state : CtcpState) (call : Call) (hwf : Wf state) (h : Forms state.trace) :
    Forms (step state call).trace := by
  have hout := step_outcome state call
  generalize step state call = state' at hout ⊢
  cases hout with
  | dead => exact h
  | read input sent _ _ hout =>
    cases hout with
    | busy => exact h
    | eofUnsent => simpa [Formed.fin] using h
    | eofSent => simpa [Formed.fin] using h
    | unsent chunk => simpa [Formed.data _ _ _ chunk.fits] using h
    | noData => simpa [Formed.ack] using h
    | data chunk => simpa [Formed.data _ _ _ chunk.fits] using h
  | invalid => exact h
  | receive _ _ _ _ _ _ hout => exact forms_receive h hout
  | output _ _ _ hout => exact forms_output h hout
  | timer _ _ hout =>
    cases hout with
    | expired => simpa using h
    | running _ _ hout =>
      cases hout with
      | idle => exact h
      | waiting => exact h
      | resent attr hattr => simpa [Formed.of_outstanding (hwf.slot attr hattr).1] using h
      | givenUp attr hattr => simpa [Formed.of_outstanding (hwf.slot attr hattr).1] using h

/-- What has left has been handed to `conn_send`. -/
theorem Forms.emitted {h : List Event} {segment : CtcpSegment} (hforms : Forms h)
    (hemit : Emitted segment h) : Formed segment := by
  obtain ⟨e, he, hemit⟩ := hemit
  refine hforms e he segment ?_
  cases e with
  | send segment' sent =>
    have hsome : (if 0 ≤ sent then some segment' else none) = some segment := hemit
    split at hsome
    · exact hsome
    · cases hsome
  | resend segment' => exact hemit
  | _ => cases hemit

/-! ## Handing segments to `conn_send` -/

/-- The call of `conn_send` for a segment. -/
def sendingOf (conn : SeqConn) (segment : CtcpSegment) (sys : Sys) : Sending :=
  ⟨conn, segment, lenOf segment, sys⟩

section Transmit

variable (host : Settings) (conn : SeqConn)

/-- The calls of `conn_send` for what a callback has done, one after the other: what the process
    remembers, and the packets. -/
def transmit : List Event → (Nat → Sys) → Memory → Memory × List Datagram
  | [], _, memory => (memory, [])
  | e :: es, sys, memory =>
    match e.handed with
    | none => transmit es sys memory
    | some segment =>
      let call := sendingOf conn segment (sys 0)
      let rest := transmit es (fun n => sys (n + 1)) (sendStep host memory call)
      (rest.1, wire host call (.caller memory.didUnreliable memory.draws) ++ rest.2)

/-- What `conn_send` returns to its caller. -/
def answer (memory : Memory) (call : Sending) : Option Int :=
  match connSend host call (.caller memory.didUnreliable memory.draws) with
  | fate :: _ => fate.result
  | [] => none

/-- One call of `conn_send` as the endpoint saw it: no second process returns from it, its answer is
    the one that `_segment_send` got, and when it reports an error no copy has left. -/
def AnsweredAs (memory : Memory) (call : Sending) : Event → Prop
  | .send _ sent =>
    ¬ Doubled host.opts call.sys memory.draws ∧ answer host memory call = some sent ∧
      (sent < 0 → wire host call (.caller memory.didUnreliable memory.draws) = [])
  | _ => ¬ Doubled host.opts call.sys memory.draws

/-- All calls of `conn_send` in a callback. -/
def Answers : List Event → (Nat → Sys) → Memory → Prop
  | [], _, _ => True
  | e :: es, sys, memory =>
    match e.handed with
    | none => Answers es sys memory
    | some segment =>
      let call := sendingOf conn segment (sys 0)
      AnsweredAs host memory call e ∧
        Answers es (fun n => sys (n + 1)) (sendStep host memory call)

variable {host conn}

/-- **Where a packet comes from**: from a segment that the callback has emitted. -/
theorem emitted_of_transmit {es : List Event} {sys : Nat → Sys} {memory : Memory}
    {packet : Datagram} (hanswers : Answers host conn es sys memory)
    (hmem : packet ∈ (transmit host conn es sys memory).2) :
    ∃ call proc, call = sendingOf conn call.segment call.sys ∧ Emitted call.segment es ∧
      packet ∈ wire host call proc := by
  induction es generalizing sys memory with
  | nil => cases hmem
  | cons e es ih =>
    have hlater : ∀ {sys memory}, Answers host conn es sys memory →
        packet ∈ (transmit host conn es sys memory).2 →
        ∃ call proc, call = sendingOf conn call.segment call.sys ∧ Emitted call.segment (e :: es) ∧
          packet ∈ wire host call proc := by
      intro sys memory ha hm
      obtain ⟨call, proc, hcall, ⟨e', he', hemit⟩, hwire⟩ := ih ha hm
      exact ⟨call, proc, hcall, ⟨e', List.mem_cons_of_mem e he', hemit⟩, hwire⟩
    simp only [Answers, transmit] at hanswers hmem
    cases hhanded : e.handed with
    | none =>
      simp only [hhanded] at hanswers hmem
      exact hlater hanswers hmem
    | some segment =>
      simp only [hhanded] at hanswers hmem
      rcases List.mem_append.mp hmem with hmem | hmem
      · refine ⟨_, _, rfl, ⟨e, List.mem_cons_self, ?_⟩, hmem⟩
        cases e with
        | send segment' sent =>
          obtain rfl : segment' = segment := Option.some.inj hhanded
          rcases Int.lt_or_le sent 0 with hneg | hpos
          · -- an error, and no copy has left
            rw [hanswers.1.2.2 hneg] at hmem
            cases hmem
          · exact if_pos hpos
        | resend segment' => exact hhanded
        | _ => cases hhanded
      · exact hlater hanswers.2 hmem

end Transmit

/-! ## The hosts -/

/-- Two hosts that have connected: what each has been started with, and its `conn_t` for the
    other. -/
structure Wiring where
  setup : Side → Setup
  opts : Side → Options
  conn : Side → SeqConn
  unix : ∀ side, (setup side).unixSocket = true
  established : ∀ side,
    Established (setup side).net (setup side.other).net true (conn side) (conn side.other)

/-- What `conn_send` reads, on one side. -/
def Wiring.settings (w : Wiring) (side : Side) : Settings :=
  ⟨(w.setup side).net, (w.setup side).runProgram, (w.setup side).unixSocket, w.opts side⟩

/-- What a host has besides its endpoint: the memory of `conn_send`, `new_connection`, and the
    packets that have left it. -/
structure Station where
  memory : Memory
  newConnection : UInt16
  sent : List Datagram

/-- The endpoints and their hosts. -/
structure PacketNet where
  net : Net
  station : Side → Station

/-- What can happen to a host: input, a tick, room in its output queue, or a packet. -/
inductive PacketCall where
  | read (input : Option Chunk) (sent : Int)
  | timer
  | drain (env : Env)
  | packet (datagram : Datagram) (env : Env)

/-- The callback for a packet, if any, and `new_connection` afterwards. -/
def onDisposal (newConnection : UInt16) (env : Env) : Disposal → Option Call × UInt16
  | .passed _ segment len => (some (.receive segment len env), newConnection)
  | .withheld _ => (none, 0)
  | .ignored => (none, newConnection)
  -- not for the packets of the peer, which have neither RST nor SYN
  | .reset => (none, newConnection)
  | .newClient => (none, newConnection)

/-- The callback that the host makes of it, if any, and `new_connection` afterwards. -/
def callback (w : Wiring) (pn : PacketNet) (side : Side) : PacketCall → Option Call × UInt16
  | .read input sent => (some (.read input sent), (pn.station side).newConnection)
  | .timer => (some .timer, (pn.station side).newConnection)
  | .drain env => (some (.output env), (pn.station side).newConnection)
  | .packet datagram env =>
    onDisposal (pn.station side).newConnection env
      (dispose (w.setup side) (pn.station side).newConnection [(0, w.conn side)]
        ⟨datagram.recvLen, datagram, env, 0⟩)

/-- What happens, on which side, and what the system answers to the calls of `conn_send`. -/
structure PacketLabel where
  side : Side
  call : PacketCall
  sys : Nat → Sys

/-- What the endpoint does. -/
def doneBy (w : Wiring) (pn : PacketNet) (l : PacketLabel) : List Event :=
  match (callback w pn l.side l.call).1 with
  | none => []
  | some call => events (pn.net.at l.side) call

/-- One step. -/
def packetStep (w : Wiring) (pn : PacketNet) (l : PacketLabel) : PacketNet :=
  let (call, newConnection) := callback w pn l.side l.call
  let old := pn.station l.side
  let (memory, packets) :=
    transmit (w.settings l.side) (w.conn l.side) (doneBy w pn l) l.sys old.memory
  { net := match call with
      | none => pn.net
      | some call => netStep pn.net (l.side, call)
    station := fun side =>
      if side = l.side then ⟨memory, newConnection, old.sent ++ packets⟩ else pn.station side }

/-- Both hosts fresh, and the server waiting for the ACK of the client's port. -/
def packetInit (cfgA cfgB : CtcpConfig) (newConnection : Side → UInt16) : PacketNet where
  net := netInit cfgA cfgB
  station side := ⟨⟨false, 0⟩, newConnection side, []⟩

/-- **What can happen**: a packet arrives that has left the other host, and `conn_send` has answered
    as the endpoint saw it. -/
structure Carried (w : Wiring) (pn : PacketNet) (l : PacketLabel) : Prop where
  flight : ∀ datagram env, l.call = .packet datagram env →
    datagram ∈ (pn.station l.side.other).sent
  answers : Answers (w.settings l.side) (w.conn l.side) (doneBy w pn l) l.sys
    (pn.station l.side).memory

/-! ## What becomes of a packet of the peer -/

/-- A host exits for a RST only, and takes no packet without a SYN for a new client. -/
theorem flags_of_recvFilter {α : Type} {config : Config} {unixSocket : Bool} {details : α → SeqConn}
    {connections : List α} {r : Int} {packet : Datagram} :
    (recvFilter config unixSocket details connections r packet = .exited →
      packet.tcp.flags &&& thRst ≠ 0) ∧
    (recvFilter config unixSocket details connections r packet = .handshake →
      packet.tcp.flags &&& thSyn ≠ 0) := by
  unfold recvFilter
  refine ⟨fun h => ?_, fun h => ?_⟩
  · iterate 3
      split at h
      · cases h
    split at h
    · assumption
    split at h
    · cases h
    split at h <;> cases h
  · iterate 4
      split at h
      · cases h
    split at h
    · assumption
    split at h <;> cases h

/-- The packets of the endpoints have neither RST nor SYN. -/
theorem flags_onWire {host : Settings} {call : Sending} {packet : Datagram}
    (hformed : Formed call.segment) (hwire : OnWire host call packet) :
    packet.tcp.flags &&& thRst = 0 ∧ packet.tcp.flags &&& thSyn = 0 := by
  have hflags : call.segment.flags.toUInt8 &&& thRst = 0 ∧
      call.segment.flags.toUInt8 &&& thSyn = 0 := by
    rcases hformed.flags with hflags | hflags
    · rw [hflags]
      decide
    · rw [hflags]
      decide
  cases hwire with
  | asSent =>
    exact ⟨flag_of_sent _ _ _ _ _ _ (by decide) hflags.1,
      flag_of_sent _ _ _ _ _ _ (by decide) hflags.2⟩
  | corrupted bit hlow hhigh =>
    obtain ⟨-, -, -, -, hsame⟩ := flip_header call.segment hlow
    rw [← hsame] at hflags
    exact ⟨flag_of_sent _ _ _ _ _ _ (by decide) hflags.1,
      flag_of_sent _ _ _ _ _ _ (by decide) hflags.2⟩

/-- **What becomes of a packet of the peer**: it is dropped, or withheld, or `ctcp_receive` gets the
    segment that it carries. -/
theorem dispose_cases (w : Wiring) (side : Side) {call : Sending} {packet : Datagram}
    (hconn : call.conn = w.conn side) (hformed : Formed call.segment)
    (hlen : call.len = lenOf call.segment) (hwire : OnWire (w.settings side) call packet)
    (newConnection : UInt16) (env : Env) :
    dispose (w.setup side.other) newConnection [(0, w.conn side.other)]
        ⟨packet.recvLen, packet, env, 0⟩
      ∈ [.ignored, .withheld 0, .passed 0 (convertToCtcp (w.conn side.other) packet) call.len] := by
  obtain ⟨hrst, hsyn⟩ := flags_onWire hformed hwire
  obtain ⟨hwhole, hvalid⟩ := hformed.whole
  rw [← hlen] at hwhole hvalid
  have hmirror : Mirror call.conn (w.conn side.other) := hconn ▸ (w.established side).mirror
  obtain ⟨hsize, -⟩ := read_onWire (w.unix side) hmirror hwhole hvalid hwire
  simp only [dispose, List.mem_cons, List.not_mem_nil, or_false]
  cases hfilter : recvFilter (w.setup side.other).net (w.setup side.other).unixSocket Prod.snd
      [(0, w.conn side.other)] packet.recvLen packet with
  | failed => exact Or.inl rfl
  | dropped => exact Or.inl rfl
  | exited => exact absurd hrst (flags_of_recvFilter.1 hfilter)
  | handshake => exact absurd hsyn (flags_of_recvFilter.2 hfilter)
  | attributed conn =>
    obtain rfl : conn = (0, w.conn side.other) :=
      List.mem_singleton.mp (mem_of_attributed hfilter).1
    simp only [hsize, Int.toNat_natCast]
    split
    · exact Or.inr (Or.inl rfl)
    · exact Or.inr (Or.inr rfl)

/-! ## The simulation -/

/-- The packets that have left a side are those of segments that its endpoint has emitted, as they
    are or corrupted. -/
def InFlight (w : Wiring) (side : Side) (state : CtcpState) (packets : List Datagram) : Prop :=
  ∀ packet ∈ packets, ∃ call : Sending,
    call.conn = w.conn side ∧ Formed call.segment ∧ call.len = lenOf call.segment ∧
      Emitted call.segment state.trace ∧ OnWire (w.settings side) call packet

/-- The hosts and the network of the segments agree. -/
structure Carries (w : Wiring) (pn : PacketNet) (net : Net) : Prop where
  same : pn.net = net
  wf : ∀ side, Wf (net.at side)
  forms : ∀ side, Forms (net.at side).trace
  flight : ∀ side, InFlight w side (net.at side) (pn.station side).sent

theorem carries_init (w : Wiring) (cfgA cfgB : CtcpConfig) (newConnection : Side → UInt16) :
    Carries w (packetInit cfgA cfgB newConnection) (netInit cfgA cfgB) where
  same := rfl
  wf side := by cases side <;> exact wf_init _
  forms side := by cases side <;> simp [Net.at, netInit, ctcpInit]
  flight side packet hmem := by cases hmem

/-- More has been emitted. -/
theorem InFlight.mono {w : Wiring} {side : Side} {state state' : CtcpState}
    {packets : List Datagram} (h : InFlight w side state packets)
    (htrace : state.trace <+: state'.trace) : InFlight w side state' packets := by
  intro packet hmem
  obtain ⟨call, hconn, hformed, hlen, hemit, hwire⟩ := h packet hmem
  obtain ⟨es, htrace⟩ := htrace
  exact ⟨call, hconn, hformed, hlen, htrace ▸ hemit.mono es, hwire⟩

/-- The packets of one callback. -/
theorem inFlight_transmit {w : Wiring} {side : Side} {state : CtcpState} {es : List Event}
    {sys : Nat → Sys} {memory : Memory} (hforms : Forms es) (hes : ∀ e ∈ es, e ∈ state.trace)
    (hanswers : Answers (w.settings side) (w.conn side) es sys memory) :
    InFlight w side state (transmit (w.settings side) (w.conn side) es sys memory).2 := by
  intro packet hmem
  obtain ⟨call, proc, hcall, hemit, hwire⟩ := emitted_of_transmit hanswers hmem
  have hformed := hforms.emitted hemit
  obtain ⟨e, he, hemit⟩ := hemit
  have hwhole := hformed.whole.1
  have hlen : call.len = lenOf call.segment := by rw [hcall]; rfl
  have hhdr : segmentHdrSize ≤ call.len := by
    have hdata := hwhole.data
    omega
  refine ⟨call, ?_, hformed, hlen, ⟨e, hes e he, hemit⟩, onWire_of_wire hhdr ?_ hwire⟩
  · rw [hcall]
    rfl
  · rw [hlen]
    exact hwhole.le

section Step

variable {w : Wiring} {pn : PacketNet} {net : Net} {l : PacketLabel}

/-- The host has nothing for its endpoint to do. -/
theorem Carries.idle (h : Carries w pn net) (hnone : (callback w pn l.side l.call).1 = none) :
    Carries w (packetStep w pn l) net := by
  have hdone : doneBy w pn l = [] := by simp only [doneBy, hnone]
  refine ⟨?_, h.wf, h.forms, ?_⟩
  · simp only [packetStep, hnone]
    exact h.same
  · intro side
    simp only [packetStep, hdone, transmit, List.append_nil]
    split
    · rename_i heq
      rw [heq]
      exact h.flight l.side
    · exact h.flight side

/-- The endpoint is called. -/
theorem Carries.called (h : Carries w pn net) {call : Call}
    (hcall : (callback w pn l.side l.call).1 = some call) (hl : Carried w pn l) :
    Carries w (packetStep w pn l) (netStep net (l.side, call)) := by
  have hdone : doneBy w pn l = events (net.at l.side) call := by
    simp only [doneBy, hcall, h.same]
  have hanswers := hl.answers
  rw [hdone] at hanswers
  have htrace := step_trace (net.at l.side) call
  have hforms := forms_step (net.at l.side) call (h.wf l.side) (h.forms l.side)
  refine ⟨?_, ?_, ?_, ?_⟩
  · simp only [packetStep, hcall, h.same]
  · intro side
    rcases Side.eq_or_other l.side side with rfl | rfl
    · rw [netStep_at]
      exact wf_step _ _ (h.wf l.side)
    · rw [netStep_at_other]
      exact h.wf l.side.other
  · intro side
    rcases Side.eq_or_other l.side side with rfl | rfl
    · rw [netStep_at]
      exact hforms
    · rw [netStep_at_other]
      exact h.forms l.side.other
  · intro side
    simp only [packetStep, hdone]
    rcases Side.eq_or_other l.side side with rfl | rfl
    · -- what was in flight, and what has just left
      rw [if_pos rfl, netStep_at]
      rw [htrace, forms_append] at hforms
      have hnew : InFlight w l.side (step (net.at l.side) call)
          (transmit (w.settings l.side) (w.conn l.side) (events (net.at l.side) call) l.sys
            (pn.station l.side).memory).2 := by
        refine inFlight_transmit hforms.2 ?_ hanswers
        intro e he
        rw [htrace]
        exact List.mem_append_right _ he
      have hold := (h.flight l.side).mono (trace_of_step (net.at l.side) call)
      intro packet hmem
      rcases List.mem_append.mp hmem with hmem | hmem
      · exact hold packet hmem
      · exact hnew packet hmem
    · have hne : l.side.other ≠ l.side := by cases l.side <;> decide
      rw [if_neg hne, netStep_at_other]
      exact h.flight l.side.other

/-- **What a packet that arrives is**: a segment that the peer has emitted, or one that changes
    nothing. -/
theorem Carries.arrives (h : Carries w pn net) {packet : Datagram} {env : Env} {call : Call}
    (hpacket : l.call = .packet packet env) (hl : Carried w pn l)
    (hcall : (callback w pn l.side l.call).1 = some call) :
    Traffic net (l.side, call) ∨ netStep net (l.side, call) = net := by
  obtain ⟨sending, hconn, hformed, hlen, hemit, hwire⟩ :=
    h.flight l.side.other packet (hl.flight packet env hpacket)
  obtain ⟨hwhole, hvalid⟩ := hformed.whole
  rw [← hlen] at hwhole hvalid
  have hdispose := dispose_cases w l.side.other hconn hformed hlen hwire
    (pn.station l.side).newConnection env
  have hmirror : Mirror sending.conn (w.conn l.side) := by
    have hest := (w.established l.side.other).mirror
    rw [Side.other_other] at hest
    rw [hconn]
    exact hest
  rw [Side.other_other] at hdispose
  rw [hpacket] at hcall
  rw [callback] at hcall
  generalize dispose (w.setup l.side) (pn.station l.side).newConnection [(0, w.conn l.side)]
    ⟨packet.recvLen, packet, env, 0⟩ = disposal at hdispose hcall
  simp only [List.mem_cons, List.not_mem_nil, or_false] at hdispose
  rcases hdispose with rfl | rfl | rfl
  · cases hcall
  · cases hcall
  · obtain rfl := Option.some.inj hcall
    obtain ⟨-, hread⟩ := read_onWire (w.unix l.side.other) hmirror hwhole hvalid hwire
    rcases hread with hsame | hinvalid
    · rw [hsame]
      refine Or.inl ⟨hemit, ?_⟩
      have hdata := hwhole.data
      omega
    · have hstep := step_invalid hinvalid (net.at l.side) env
      refine Or.inr ?_
      cases hside : l.side with
      | a =>
        rw [hside] at hstep
        exact congrArg (fun state => ({ net with a := state } : Net)) hstep
      | b =>
        rw [hside] at hstep
        exact congrArg (fun state => ({ net with b := state } : Net)) hstep

end Step

/-- A condition on the calls of the endpoints, for the callback that a host makes. -/
def OnCallback (w : Wiring) (Q : Net → Side × Call → Prop) (pn : PacketNet) (l : PacketLabel) :
    Prop :=
  ∀ call, (callback w pn l.side l.call).1 = some call → Q pn.net (l.side, call)

/-- **The hosts simulate the network of the segments**, under any condition on the callbacks. -/
theorem packets_simulate (w : Wiring) (Q : Net → Side × Call → Prop) :
    Simulates (packetStep w) (fun pn l => Carried w pn l ∧ OnCallback w Q pn l)
      netStep (fun net l => Traffic net l ∧ Q net l) (Carries w) := by
  refine ⟨?_⟩
  rintro pn net l h ⟨hl, hQ⟩
  cases hcall : (callback w pn l.side l.call).1 with
  | none => exact ⟨[], trivial, h.idle hcall⟩
  | some call =>
    have hstep := h.called hcall hl
    have hq : Q net (l.side, call) := h.same ▸ hQ call hcall
    have hnet : Traffic net (l.side, call) ∨ netStep net (l.side, call) = net := by
      cases hpacket : l.call with
      | read input sent =>
        rw [hpacket] at hcall
        obtain rfl := Option.some.inj hcall
        exact Or.inl trivial
      | timer =>
        rw [hpacket] at hcall
        obtain rfl := Option.some.inj hcall
        exact Or.inl trivial
      | drain env =>
        rw [hpacket] at hcall
        obtain rfl := Option.some.inj hcall
        exact Or.inl trivial
      | packet packet env => exact h.arrives hpacket hl hcall
    rcases hnet with hnet | hsame
    · exact ⟨[(l.side, call)], ⟨⟨hnet, hq⟩, trivial⟩, hstep⟩
    · rw [hsame] at hstep
      exact ⟨[], trivial, hstep⟩

/-! ## The streams -/

/-- The hosts simulate two reliable streams, through the network of the segments. -/
theorem packets_simulate_streams (w : Wiring) :
    Simulates (packetStep w)
      (fun pn l => Carried w pn l ∧ OnCallback w (fun net l => Below net l ∧ InPlace net l) pn l)
      Duplex.step (fun _ _ => True) (fun pn d => ∃ net, Carries w pn net ∧ Agrees net d) := by
  have hstreams : Simulates netStep (fun net l => Traffic net l ∧ Below net l ∧ InPlace net l)
      Duplex.step (fun _ _ => True) Agrees := by
    refine ⟨?_⟩
    rintro net d l hagree ⟨htraffic, hbelow, horder⟩
    exact traffic_simulates.matched net d l hagree ⟨htraffic, hbelow, horder⟩
  exact (packets_simulate w _).comp hstreams

/-- A client that duplicates everything, and a server, after a handshake. -/
def duplicating : Wiring where
  setup
    | .a => ⟨.client, ⟨0, 8888, 1440, 1440⟩, false, true, ctcpCfg⟩
    | .b => ⟨.server, ⟨0, 9999, 1440, 1440⟩, false, true, ctcpCfg⟩
  opts
    | .a => ⟨false, 0, 0, 0, 100⟩
    | .b => .off
  conn
    | .a => atFive 9999
    | .b => atFive 8888
  unix side := by cases side <;> rfl
  established side := by
    cases side with
    | a => exact established_atFive
    | b => exact ⟨⟨rfl, rfl⟩, rfl, rfl, Or.inl rfl⟩

/-- `fork` succeeds, and `sendto` takes everything. -/
def granting (length : Int) : Sys :=
  ⟨fun _ => ⟨0, by decide⟩, true, fun _ => true, fun _ => length⟩

/-- `A` reads a byte and sends it twice; both packets arrive. -/
def duplicatedByte : List PacketLabel :=
  let packet := datagram (duplicating.settings .a)
    (sendingOf (atFive 9999) (dataSegment 1 1 [7]) (granting 41)) (dataSegment 1 1 [7])
  [⟨.a, .read (some ⟨[7], by decide⟩) 21, fun _ => granting 41⟩,
    ⟨.b, .packet packet Env.roomy, fun _ => granting 40⟩,
    ⟨.b, .packet packet Env.roomy, fun _ => granting 40⟩]

/-- The states of the run. -/
def duplicatedRun (n : Nat) : PacketNet :=
  run (packetStep duplicating) (packetInit ctcpCfg ctcpCfg fun _ => 0) (duplicatedByte.take n)

instance (host : Settings) (memory : Memory) (call : Sending) :
    ∀ e, Decidable (AnsweredAs host memory call e)
  | .send _ sent => by unfold AnsweredAs Doubled; infer_instance
  | .resend _ => by unfold AnsweredAs Doubled; infer_instance
  | .input _ => by unfold AnsweredAs Doubled; infer_instance
  | .receive _ => by unfold AnsweredAs Doubled; infer_instance
  | .output _ _ => by unfold AnsweredAs Doubled; infer_instance
  | .outputEof => by unfold AnsweredAs Doubled; infer_instance
  | .acceptFin _ => by unfold AnsweredAs Doubled; infer_instance
  | .destroy => by unfold AnsweredAs Doubled; infer_instance
  | .fault => by unfold AnsweredAs Doubled; infer_instance

instance decidableAnswers (host : Settings) (conn : SeqConn) :
    ∀ es sys memory, Decidable (Answers host conn es sys memory)
  | [], _, _ => isTrue trivial
  | e :: es, sys, memory => by
    have := decidableAnswers host conn es
    unfold Answers
    split <;> infer_instance

end Ctcp.Packet
