/-
  The whole way of the bytes: from the input of one host to what the other has written.

  The hosts of `Ctcp.PacketNet`, each with the output queue of its connection (`Ctcp.Terminal`).
  The room that `ctcp_output` finds, and what `conn_output` answers, are those of the queue
  (`Plugged`), and `conn_drain` goes on to `ctcp_output` only when something was written out.

  `system_in_order`: what has been written to the STDOUT of a host is a prefix of what the other
  host has read from its STDIN, and what is missing from the bytes that the endpoint has taken is
  waiting in the queue.  The queue and the network meet in `Accounted`: in `DATA_TRANSFER` there is
  room for what is handed over and EOF has not been written, so that an answer that is no error is
  the number of bytes taken.
-/
import Ctcp.PacketNet
import Ctcp.Terminal

set_option linter.unusedVariables false

namespace Ctcp.Packet

open Runs History Pipes OutQueue

/-! ## Hosts with their queues -/

/-- The hosts, the output side of each connection, and the bit `POLLOUT` of each STDOUT. -/
structure System where
  hosts : PacketNet
  queue : Side → OutConn × Bool

/-- An endpoint with its queue. -/
def System.terminal (s : System) (side : Side) : Terminal :=
  ⟨s.hosts.net.at side, (s.queue side).1, (s.queue side).2⟩

/-- The queue of one side has changed. -/
def System.setQueue (s : System) (side : Side) (t : Terminal) : System :=
  { s with queue := fun side' => if side' = side then (t.out, t.pollOut) else s.queue side' }

/-- What happens to a host, and the answers of `write` in `conn_drain` and in `conn_output`. -/
structure SystemLabel where
  label : PacketLabel
  writes : List WriteResult
  write : WriteResult

/-- What comes before the callback: `conn_drain` writes the queue out, and goes on only when
    something was written. -/
def System.writeOut (s : System) (l : SystemLabel) : System × Bool :=
  match l.label.call with
  | .drain _ =>
    let (t, outputted) := (s.terminal l.label.side).writeOut l.writes
    (s.setQueue l.label.side t, outputted)
  | _ => (s, true)

/-- The callback. -/
def System.call (w : Wiring) (s : System) (l : SystemLabel) : System :=
  let side := l.label.side
  let s' := { s with hosts := packetStep w s.hosts l.label }
  match (callback w s.hosts side l.label.call).1 with
  | none => s'
  | some call =>
    s'.setQueue side ((s.terminal side).call (w.setup side).runProgram call l.write)

/-- One step. -/
def systemStep (w : Wiring) (s : System) (l : SystemLabel) : System :=
  if (s.writeOut l).2 then (s.writeOut l).1.call w l else (s.writeOut l).1

/-- Fresh hosts, with nothing to write. -/
def systemInit (cfgA cfgB : CtcpConfig) (newConnection : Side → UInt16) : System where
  hosts := packetInit cfgA cfgB newConnection
  queue _ := (OutConn.init, false)

/-- The environment of the callback is the queue. -/
def Plugged (w : Wiring) (s : System) (l : SystemLabel) : Prop :=
  ∀ call, (callback w s.hosts l.label.side l.label.call).1 = some call →
    (s.terminal l.label.side).Answers (w.setup l.label.side).runProgram l.write call

/-- **What can happen**, as `packets_simulate_streams` has it, with the queues for environment. -/
structure Possible (w : Wiring) (s : System) (l : SystemLabel) : Prop where
  carried : Carried w s.hosts l.label
  order : OnCallback w (fun net l => Below net l ∧ InPlace net l) s.hosts l.label
  plugged : Plugged w s l

/-- A step is asked about when it comes to its callback. -/
def Proceeds (w : Wiring) (s : System) (l : SystemLabel) : Prop :=
  (s.writeOut l).2 = true → Possible w (s.writeOut l).1 l

section Fields

variable (s : System) (side : Side) (t : Terminal) (l : SystemLabel)

@[simp] theorem setQueue_hosts : (s.setQueue side t).hosts = s.hosts := rfl

@[simp] theorem setQueue_terminal :
    (s.setQueue side t).terminal side = ⟨s.hosts.net.at side, t.out, t.pollOut⟩ := by
  simp [System.terminal, System.setQueue]

@[simp] theorem setQueue_terminal_other :
    (s.setQueue side t).terminal side.other = s.terminal side.other := by
  have hne : side.other ≠ side := by cases side <;> decide
  simp [System.terminal, System.setQueue, hne]

@[simp] theorem writeOut_hosts : (s.writeOut l).1.hosts = s.hosts := by
  unfold System.writeOut
  split
  · rfl
  · rfl

end Fields

/-! ## What is taken and what is handed over -/

/-- Everything handed over has been taken, as long as the connection is alive. -/
structure Accounted (state : CtcpState) : Prop where
  inOrder : acceptedBytes state.trace <+: outputBytes state.trace
  whole : state.conn.deleteMe = false → acceptedBytes state.trace = outputBytes state.trace

theorem accounted_init (cfg : CtcpConfig) : Accounted (ctcpInit cfg) :=
  ⟨List.prefix_refl _, fun _ => rfl⟩

/-- Nothing is taken that has not been handed over. -/
theorem accepted_of_outputs_nil {es : List Event} (h : outputBytes es = []) :
    acceptedBytes es = [] := by
  induction es with
  | nil => rfl
  | cons e es ih =>
    rw [outputBytes_cons, List.append_eq_nil_iff] at h
    rw [acceptedBytes_cons, ih h.2, List.append_nil]
    cases e with
    | output segment written =>
      rw [Event.accepts]
      split
      · exact h.1
      · rfl
    | _ => rfl

theorem outputBytes_filter (es : List Event) :
    outputBytes (es.filter Event.prints) = outputBytes es := by
  induction es with
  | nil => rfl
  | cons e es ih => cases e <;> simp [List.filter_cons, ih]

/-- Output that is in place is output in `DATA_TRANSFER`. -/
theorem outputs_in_place {state : CtcpState} {call : Call}
    (horder : state.conn.deleteMe = false → TakesInStep state call) :
    outputBytes (step state call).trace = outputBytes state.trace ∨
      state.connState = .dataTransfer := by
  have hout := step_outcome state call
  generalize step state call = state' at hout ⊢
  cases hout with
  | dead => exact Or.inl rfl
  | read input sent _ _ hout =>
    cases hout with
    | busy => exact Or.inl rfl
    | _ => exact Or.inl (by simp)
  | invalid => exact Or.inl rfl
  | receive _ _ _ _ _ _ hout => exact (outputs_of_receive hout).imp_right And.left
  | output env _ hlive hout =>
    refine (outputs_of_output hout).imp_right ?_
    rintro ⟨segment, hkept, hroom, hfits, -⟩
    exact (horder hlive segment hkept hroom hfits).1
  | timer _ _ hout =>
    cases hout with
    | expired => exact Or.inl (by simp)
    | running _ _ hout =>
      cases hout with
      | idle => exact Or.inl rfl
      | waiting => exact Or.inl rfl
      | resent => exact Or.inl (by simp)
      | givenUp => exact Or.inl (by simp)

/-- More is handed over, and all of it is taken, or it is the end of the connection. -/
theorem Accounted.append {state state' : CtcpState} {es : List Event} (h : Accounted state)
    (hlive : state.conn.deleteMe = false) (htrace : state'.trace = state.trace ++ es)
    (hes : acceptedBytes es = outputBytes es ∨
      (acceptedBytes es = [] ∧ state'.conn.deleteMe = true)) : Accounted state' := by
  have hsame := h.whole hlive
  rcases hes with hes | ⟨hnil, hdead⟩
  · have hwhole : acceptedBytes state'.trace = outputBytes state'.trace := by
      rw [htrace, acceptedBytes_append, outputBytes_append, hsame, hes]
    exact ⟨hwhole ▸ List.prefix_refl _, fun _ => hwhole⟩
  · refine ⟨?_, fun hlive' => ?_⟩
    · rw [htrace, acceptedBytes_append, outputBytes_append, hsame, hnil, List.append_nil]
      exact List.prefix_append _ _
    · rw [hdead] at hlive'
      cases hlive'

/-- Before EOF has been written, an answer that is no error is the number of bytes taken. -/
theorem outputResult_pos {runProgram : Bool} {t : Terminal} {segment : CtcpSegment}
    {write : WriteResult} {sent₀ sent₁ : Int} (hinv : TermInv t)
    (hlive : t.state.conn.deleteMe = false) (hopen : t.state.conn.wroteEof = false)
    (hwithin : Within segment) (hne : datalen segment ≠ 0)
    (hfits : (datalen segment).toNat ≤ connBufspace t.out)
    (hwritten : 0 ≤ outputResult (t.answers runProgram segment write sent₀ sent₁) t.state) :
    0 < outputResult (t.answers runProgram segment write sent₀ sent₁) t.state := by
  obtain ⟨chunks, hqueue⟩ := hinv.queue
  have hnat : (datalen segment).toNat ≠ 0 := fun hzero => hne (UInt32.toNat_inj.mp hzero)
  have hle := hwithin (Nat.le_trans hfits (connBufspace_le t.out))
  have hlen : 0 < (payload segment).length := by
    rw [payload, List.length_take]
    omega
  rw [hinv.result hlive] at hwritten ⊢
  exact connOutput_positive hqueue.holds (hinv.removed.trans hlive) (hinv.eof.trans hopen) hlen
    (by omega) hwritten

/-- **The two streams of an endpoint stay the same**, but for a last payload that could not be
    written. -/
theorem Accounted.step {runProgram : Bool} {t : Terminal} {call : Call} {write : WriteResult}
    (h : Accounted t.state) (hinv : TermInv t) (hwf : Wf t.state)
    (hanswers : t.Answers runProgram write call) (hcall : CallWithin call)
    (horder : t.state.conn.deleteMe = false → TakesInStep t.state call) :
    Accounted (step t.state call) := by
  by_cases hdead : t.state.conn.deleteMe = true
  · have hsame : Ctcp.step t.state call = t.state := by
      unfold Ctcp.step
      rw [if_pos hdead]
    rw [hsame]
    exact h
  have hlive : t.state.conn.deleteMe = false := Bool.eq_false_iff.mpr hdead
  have htrace := step_trace t.state call
  refine h.append hlive htrace ?_
  rcases outputs_in_place horder with hsame | hdata
  · -- nothing is handed over
    rw [htrace, outputBytes_append] at hsame
    have hnil : outputBytes (events t.state call) = [] := List.append_right_eq_self.mp hsame
    rw [hnil, accepted_of_outputs_nil hnil]
    exact Or.inl rfl
  · have hopen := (hwf.opened hdata).2.1
    obtain ⟨segment, sent₀, sent₁, hwithin, hprint⟩ := hinv.printing hlive hanswers hcall
    rw [← acceptedBytes_filter, ← outputBytes_filter]
    generalize (events t.state call).filter Event.prints = es at hprint
    cases hprint with
    | nothing => exact Or.inl rfl
    | eof => exact Or.inl rfl
    | output _ _ hne hfits hwritten =>
      have hpos := outputResult_pos hinv hlive hopen hwithin hne hfits hwritten
      refine Or.inl ?_
      simp [hpos]
    | failed _ hdead' _ _ hwritten =>
      refine Or.inr ⟨?_, hdead'⟩
      have hnot := Int.not_lt.mpr (Int.le_of_lt hwritten)
      simp [hnot]
    | removed => exact Or.inl rfl

/-! ## The invariant -/

/-- The hosts carry the segments of `net`, and each endpoint agrees with its queue. -/
structure SystemInv (w : Wiring) (s : System) (net : Net) : Prop where
  carries : Carries w s.hosts net
  terminal : ∀ side, TermInv (s.terminal side)
  accounted : ∀ side, Accounted (net.at side)

theorem systemInv_init (w : Wiring) (cfgA cfgB : CtcpConfig) (newConnection : Side → UInt16) :
    SystemInv w (systemInit cfgA cfgB newConnection) (netInit cfgA cfgB) where
  carries := carries_init w cfgA cfgB newConnection
  terminal side := by cases side <;> exact termInv_init _ false
  accounted side := by cases side <;> exact accounted_init _

section Step

variable {w : Wiring} {s : System} {net : Net} {l : SystemLabel}

/-- `conn_drain`, up to `ctcp_output`. -/
theorem SystemInv.writeOut (h : SystemInv w s net) : SystemInv w (s.writeOut l).1 net := by
  refine ⟨?_, ?_, h.accounted⟩
  · rw [writeOut_hosts]
    exact h.carries
  · intro side
    have hside := h.terminal side
    unfold System.writeOut
    split
    · rcases Side.eq_or_other l.label.side side with rfl | rfl
      · have hstate := (writeOut_eq false (s.terminal l.label.side) l.writes).1
        rw [setQueue_terminal, show s.hosts.net.at l.label.side = _ from hstate.symm]
        exact hside.writeOut l.writes
      · rw [setQueue_terminal_other]
        exact hside
    · exact hside

/-- **A callback is for a segment that has all its bytes**, or changes nothing. -/
theorem SystemInv.within (h : SystemInv w s net) (hl : Possible w s l) {call : Call}
    (hcall : (callback w s.hosts l.label.side l.label.call).1 = some call) :
    CallWithin call ∨ netStep net (l.label.side, call) = net := by
  cases hpacket : l.label.call with
  | read input sent =>
    rw [hpacket] at hcall
    obtain rfl := Option.some.inj hcall
    exact Or.inl trivial
  | timer =>
    rw [hpacket] at hcall
    obtain rfl := Option.some.inj hcall
    exact Or.inl trivial
  | drain env =>
    rw [hpacket] at hcall
    obtain rfl := Option.some.inj hcall
    exact Or.inl trivial
  | packet packet env =>
    refine (h.carries.arrives hpacket hl.carried hcall).imp_left ?_
    intro htraffic
    cases call with
    | receive segment len env =>
      obtain ⟨hemit, hlen⟩ := htraffic
      have hwhole := ((h.carries.forms l.label.side.other).emitted hemit).whole.1
      have hdata := hwhole.data
      have hle := hwhole.le
      have hmax : maxSegDataSize = 1440 := rfl
      have hhdr : segmentHdrSize = 20 := rfl
      exact fun hvalid => within_of_valid hvalid hlen (by omega)
    | _ => trivial

theorem call_none (hcall : (callback w s.hosts l.label.side l.label.call).1 = none) :
    s.call w l = { s with hosts := packetStep w s.hosts l.label } := by
  simp only [System.call, hcall]

theorem call_some {call : Call}
    (hcall : (callback w s.hosts l.label.side l.label.call).1 = some call) :
    s.call w l = ({ s with hosts := packetStep w s.hosts l.label } : System).setQueue l.label.side
      ((s.terminal l.label.side).call (w.setup l.label.side).runProgram call l.write) := by
  simp only [System.call, hcall]

/-- Nobody is called. -/
theorem SystemInv.idle (h : SystemInv w s net)
    (hcall : (callback w s.hosts l.label.side l.label.call).1 = none) :
    SystemInv w (s.call w l) net := by
  have hidle := h.carries.idle hcall
  rw [call_none hcall]
  refine ⟨hidle, fun side => ?_, h.accounted⟩
  have hside := h.terminal side
  unfold System.terminal at hside ⊢
  rw [h.carries.same] at hside
  rw [hidle.same]
  exact hside

/-- An endpoint is called. -/
theorem SystemInv.called (h : SystemInv w s net) (hl : Possible w s l) {call : Call}
    (hcall : (callback w s.hosts l.label.side l.label.call).1 = some call) :
    SystemInv w (s.call w l) (netStep net (l.label.side, call)) := by
  have hcalled := h.carries.called hcall hl.carried
  have hanswers := hl.plugged call hcall
  have hwithin := h.within hl hcall
  have horder := (hl.order call hcall).2
  obtain ⟨hcarries, hterminal, haccounted⟩ := h
  obtain rfl := hcarries.same
  -- the endpoint that is called, and its queue
  have hsame : netStep s.hosts.net (l.label.side, call) = s.hosts.net →
      step (s.terminal l.label.side).state call = (s.terminal l.label.side).state := by
    intro hnet
    have hat := netStep_at s.hosts.net l.label.side call
    rw [hnet] at hat
    exact hat.symm
  have hown : TermInv ((s.terminal l.label.side).call (w.setup l.label.side).runProgram call
        l.write) ∧
      Accounted (step (s.terminal l.label.side).state call) := by
    rcases hwithin with hwithin | hnet
    · exact ⟨(hterminal l.label.side).called hanswers hwithin,
        (haccounted l.label.side).step (hterminal l.label.side) (hcarries.wf l.label.side) hanswers
          hwithin horder⟩
    · rw [Terminal.call_same (hsame hnet), hsame hnet]
      exact ⟨hterminal l.label.side, haccounted l.label.side⟩
  rw [call_some hcall]
  refine ⟨hcalled, fun side => ?_, fun side => ?_⟩
  · rcases Side.eq_or_other l.label.side side with rfl | rfl
    · rw [setQueue_terminal, hcalled.same, netStep_at]
      exact hown.1
    · rw [setQueue_terminal_other]
      have hside := hterminal l.label.side.other
      unfold System.terminal at hside ⊢
      rw [hcalled.same, netStep_at_other]
      exact hside
  · rcases Side.eq_or_other l.label.side side with rfl | rfl
    · rw [netStep_at]
      exact hown.2
    · rw [netStep_at_other]
      exact haccounted l.label.side.other

end Step

/-! ## The simulation -/

/-- **The hosts with their queues simulate the hosts.** -/
theorem system_simulates (w : Wiring) :
    Simulates (systemStep w) (Proceeds w) (packetStep w)
      (fun pn l => Carried w pn l ∧ OnCallback w (fun net l => Below net l ∧ InPlace net l) pn l)
      (fun s pn => s.hosts = pn ∧ ∃ net, SystemInv w s net) := by
  refine ⟨?_⟩
  rintro s _ l ⟨rfl, net, h⟩ hl
  have hwritten := @SystemInv.writeOut w s net l h
  have hhosts := writeOut_hosts s l
  unfold systemStep
  by_cases hcalls : (s.writeOut l).2 = true
  · obtain hpossible := hl hcalls
    rw [if_pos hcalls, ← hhosts]
    refine ⟨[l.label], ⟨⟨hpossible.carried, hpossible.order⟩, trivial⟩, ?_⟩
    cases hcall : (callback w (s.writeOut l).1.hosts l.label.side l.label.call).1 with
    | none =>
      refine ⟨?_, net, hwritten.idle hcall⟩
      rw [call_none hcall]
      rfl
    | some call =>
      refine ⟨?_, _, hwritten.called hpossible hcall⟩
      rw [call_some hcall]
      rfl
  · rw [if_neg hcalls]
    exact ⟨[], trivial, hhosts, net, hwritten⟩

/-- The packet with the bytes 7, 8 and 9. -/
def threeBytes : Datagram :=
  datagram (duplicating.settings .a)
    (sendingOf (atFive 9999) (dataSegment 1 1 [7, 8, 9]) (granting 43)) (dataSegment 1 1 [7, 8, 9])

/-- `A` reads three bytes; `B` writes one of them at once, and one in `conn_drain`. -/
def writtenOut : List SystemLabel :=
  [⟨⟨.a, .read (some ⟨[7, 8, 9], by decide⟩) 23, fun _ => granting 43⟩, [], .again⟩,
    ⟨⟨.b, .packet threeBytes ⟨8192, 3, 20, 20, by decide⟩, fun _ => granting 40⟩, [], .wrote 1⟩,
    ⟨⟨.b, .drain ⟨8191, 0, 20, 20, by decide⟩, fun _ => granting 40⟩, [.wrote 1], .again⟩]

/-- The states of the run. -/
def writtenOutRun (n : Nat) : System :=
  run (systemStep duplicating) (systemInit ctcpCfg ctcpCfg fun _ => 0) (writtenOut.take n)

end Ctcp.Packet
