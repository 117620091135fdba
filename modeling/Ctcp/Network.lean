/-
  Two endpoints and a network between them.

  The network loses, repeats, delays and reorders: a segment that an endpoint has ever emitted may
  arrive at the other end, at any later time and any number of times, or never.  A segment that is
  corrupted on the way is one that never arrives.

  `Net` simulates a `Duplex`, a reliable stream in each direction: what `conn_input` returns is put
  in at one end, what is handed to `conn_output` is taken out at the other (`net_simulates`).  So
  the output of each side is a prefix of the input of the other (`streams_in_order`).  Both hold in
  the runs whose calls satisfy `Orderly`: no bytes are lost in a failed `conn_send`, and no segment
  that `DATA_TRANSFER` uses up starts beyond `ackno`.
-/
import Ctcp.Sender
import Ctcp.Lib.Pipe

set_option linter.unusedVariables false

namespace Ctcp

open Runs History Pipes

/-! ## The network -/

/-- The two endpoints. -/
structure Net where
  a : CtcpState
  b : CtcpState

/-- The endpoint on one side. -/
def Net.at (net : Net) : Side → CtcpState
  | .a => net.a
  | .b => net.b

/-- Both endpoints fresh from `ctcp_init`. -/
def netInit (cfgA cfgB : CtcpConfig) : Net := ⟨ctcpInit cfgA, ctcpInit cfgB⟩

/-- A call on one side. -/
def netStep (net : Net) : Side × Call → Net
  | (.a, call) => { net with a := step net.a call }
  | (.b, call) => { net with b := step net.b call }

@[simp] theorem netStep_at (net : Net) (side : Side) (call : Call) :
    (netStep net (side, call)).at side = step (net.at side) call := by cases side <;> rfl

@[simp] theorem netStep_at_other (net : Net) (side : Side) (call : Call) :
    (netStep net (side, call)).at side.other = net.at side.other := by cases side <;> rfl

/-- **What can happen**: reads, ticks, and the arrival of a segment that the other side has
    emitted. -/
def Network (net : Net) : Side × Call → Prop
  | (side, .receive segment len _) =>
    Emitted segment (net.at side.other).trace ∧ len = segmentHdrSize + segment.data.length
  | (_, .output _) => False
  | _ => True

/-- Both streams stay below 2^32 bytes. -/
def Below (net : Net) (l : Side × Call) : Prop :=
  ∀ side, (inputBytes ((netStep net l).at side).trace).length < 2 ^ 32

instance (segment : CtcpSegment) (h : List Event) : Decidable (Emitted segment h) := by
  unfold Emitted; infer_instance

instance : ∀ (net : Net) (l : Side × Call), Decidable (Network net l)
  | _, (_, .read _ _) => isTrue trivial
  | _, (_, .timer) => isTrue trivial
  | _, (_, .output _) => isFalse id
  | net, (side, .receive segment len _) =>
    inferInstanceAs (Decidable (Emitted segment (net.at side.other).trace ∧
      len = segmentHdrSize + segment.data.length))

instance (net : Net) (l : Side × Call) : Decidable (Below net l) :=
  decidable_of_iff' _ Side.forall_iff

/-- **A call that keeps the streams in order**: bytes that are read are sent, and a segment that is
    used up, or whose payload is handed to `conn_output`, does not start beyond `ackno`. -/
def InStep (state : CtcpState) : Call → Prop
  | .read input sent => ReadsSent state input sent
  | .receive segment len env =>
    state.connState = .dataTransfer → state.ackno ≤ (received segment).seqno →
      (received segment).flags &&& FIN = 0 → (received segment).flags &&& ACK ≠ 0 →
        ((received segment).len = UInt16.ofNat segmentHdrSize ∨
          (env.bufspace ≠ 0 ∧ (datalen (received segment)).toNat ≤ env.bufspace)) →
            (received segment).seqno ≤ state.ackno
  | _ => True

/-- `InStep`, for the endpoint that is called. -/
def Orderly (net : Net) : Side × Call → Prop
  | (side, call) => (net.at side).conn.deleteMe = false → InStep (net.at side) call

/-! ## What a call outputs -/

theorem outputs_of_output {env : Env} {state state' : CtcpState}
    (hout : OutputOutcome env state state') :
    outputBytes state'.trace = outputBytes state.trace ∨
      ∃ segment, state.receivedSegment = .live segment ∧ env.bufspace ≠ 0 ∧
        (datalen segment).toNat ≤ env.bufspace ∧
        outputBytes state'.trace = outputBytes state.trace ++ payload segment := by
  cases hout with
  | noRoom => exact Or.inl rfl
  | kept => exact Or.inl rfl
  | empty => exact Or.inl rfl
  | failed segment hlive hroom _ hfits => exact Or.inr ⟨segment, hlive, hroom, hfits, by simp⟩
  | delivered segment hlive hroom _ hfits => exact Or.inr ⟨segment, hlive, hroom, hfits, by simp⟩
  | fault => exact Or.inl (by simp)

/-- Only a data segment in `DATA_TRANSFER` is output. -/
theorem outputs_of_receive {env : Env} {state state' : CtcpState} {segment : CtcpSegment}
    (hout : ReceiveOutcome env state segment state') :
    outputBytes state'.trace = outputBytes state.trace ∨
      (state.connState = .dataTransfer ∧ state.ackno ≤ segment.seqno ∧
        segment.flags &&& FIN = 0 ∧ segment.flags &&& ACK ≠ 0 ∧
        segment.len ≠ UInt16.ofNat segmentHdrSize ∧ env.bufspace ≠ 0 ∧
        (datalen segment).toNat ≤ env.bufspace ∧
        outputBytes state'.trace = outputBytes state.trace ++ payload segment) := by
  cases hout with
  | data hconn hnew hfin hack hlen _ hout =>
    rcases outputs_of_output hout with hsame | ⟨_, ⟨⟩, hroom, hfits, hbytes⟩
    · exact Or.inl (by simpa using hsame)
    · exact Or.inr ⟨hconn, hnew, hfin, hack, hlen, hroom, hfits, by simpa using hbytes⟩
  | _ => exact Or.inl (by simp)

/-- EOF is written for a FIN of the peer only. -/
theorem wroteEof_of_step {state : CtcpState} {call : Call}
    (hwrote : (step state call).conn.wroteEof = true) :
    state.conn.wroteEof = true ∨
      ∃ segment len env, call = .receive segment len env ∧ isFin segment := by
  have hout := step_outcome state call
  generalize step state call = state' at hout hwrote
  cases hout with
  | dead => exact Or.inl hwrote
  | read _ _ _ _ hout => cases hout <;> exact Or.inl hwrote
  | invalid => exact Or.inl hwrote
  | receive segment len env _ _ _ hout =>
    cases hout with
    | passiveUnsent _ _ hfin => exact Or.inr ⟨segment, len, env, rfl, hfin⟩
    | passiveClose _ _ hfin => exact Or.inr ⟨segment, len, env, rfl, hfin⟩
    | data _ _ _ _ _ _ hout => cases hout <;> exact Or.inl hwrote
    | _ => exact Or.inl hwrote
  | output _ _ _ hout => cases hout <;> exact Or.inl hwrote
  | timer _ _ hout =>
    cases hout with
    | expired => exact Or.inl hwrote
    | running _ _ hout => cases hout <;> exact Or.inl hwrote

/-! ## The stream from `x` to `y` -/

/-- What holds of the stream that `x` sends and `y` receives. -/
structure Link (x y : CtcpState) : Prop where
  sender : Sender x
  inOrder : outputBytes y.trace <+: inputBytes x.trace
  receives : y.conn.deleteMe = false → y.connState = .dataTransfer →
    Receives (inputBytes x.trace) y
  late : x.conn.wroteEof = true → y.connState ≠ .dataTransfer

theorem link_init (cfgA cfgB : CtcpConfig) : Link (ctcpInit cfgA) (ctcpInit cfgB) where
  sender := sender_init cfgA
  inOrder := List.prefix_refl _
  receives := fun _ _ => receives_init _ cfgB
  late := by simp [ctcpInit]

/-- The input only grows. -/
theorem inputBytes_of_step (state : CtcpState) (call : Call) :
    inputBytes state.trace <+: inputBytes (step state call).trace := by
  rw [step_trace, inputBytes_append]
  exact List.prefix_append _ _

/-- **The sender is called.** -/
theorem Link.sends {x y : CtcpState} {call : Call} (h : Link x y) (hpeer : Sender y)
    (horder : x.conn.deleteMe = false → InStep x call)
    (hflight : ∀ segment len env, call = .receive segment len env → Emitted segment y.trace) :
    Link (step x call) y where
  sender := by
    refine sender_step x call h.sender ?_
    rintro hlive input sent rfl
    exact horder hlive
  inOrder := h.inOrder.trans (inputBytes_of_step x call)
  receives := fun hlive hconn => (h.receives hlive hconn).mono (inputBytes_of_step x call)
  late := by
    intro hwrote
    rcases wroteEof_of_step hwrote with hold | ⟨segment, len, env, hcall, hfin⟩
    · exact h.late hold
    · exact hpeer.fins segment (hflight segment len env hcall) hfin

/-- A segment in flight from `x`, read by `y` in `DATA_TRANSFER`, is a slice of the stream. -/
theorem Link.slice {x y : CtcpState} {segment : CtcpSegment} (h : Link x y)
    (hflight : Emitted segment x.trace) (hconn : y.connState = .dataTransfer)
    (hfin : (received segment).flags &&& FIN = 0)
    (hlen : (received segment).len ≠ UInt16.ofNat segmentHdrSize) :
    IsSlice (inputBytes x.trace) (received segment) :=
  (h.sender.built segment hflight).slice (fun hlate => h.late hlate hconn) hfin hlen

/-- **The receiver is called.** -/
theorem Link.arrives {x y : CtcpState} {call : Call} (h : Link x y)
    (hS : (inputBytes x.trace).length < 2 ^ 32)
    (hdrain : ∀ env, call ≠ .output env)
    (hflight : ∀ segment len env, call = .receive segment len env → Emitted segment x.trace)
    (horder : y.conn.deleteMe = false → InStep y call) : Link x (step y call) := by
  have hout := step_outcome y call
  generalize step y call = y' at hout ⊢
  cases hout with
  | dead => exact h
  | read input sent _ hlive hout =>
    have hsame : outputBytes y'.trace = outputBytes y.trace := by cases hout <;> simp
    refine ⟨h.sender, hsame ▸ h.inOrder, fun _ hconn => ?_, fun hw hconn => ?_⟩
    · exact receives_read (h.receives hlive (dataTransfer_of_read hout hconn)) hout
    · exact h.late hw (dataTransfer_of_read hout hconn)
  | invalid => exact h
  | receive segment len env _ hlive hvalid hout =>
    have hstep := horder hlive
    have hemit := hflight segment len env rfl
    refine ⟨h.sender, ?_, fun hlive' hconn => ?_, fun hw hconn => ?_⟩
    · rcases outputs_of_receive hout with
        hsame | ⟨hconn, hnew, hfin, hack, hlen, hroom, hfits, hadd⟩
      · rw [hsame]
        exact h.inOrder
      · -- the payload starts where the output ends
        have hle := hstep hconn hnew hfin hack (Or.inr ⟨hroom, hfits⟩)
        have hseq : (received segment).seqno = y.ackno := UInt32.le_antisymm hle hnew
        have hrec := h.receives hlive hconn
        rw [hadd]
        exact (slice_next hS hrec.output (h.slice hemit hconn hfin hlen) (hseq.trans hrec.next)).1
    · have hdata := dataTransfer_of_receive hout hconn
      refine receives_receive hS (h.receives hlive hdata) (h.slice hemit hdata) ?_ hout hlive' hconn
      rintro ⟨-, hnew, hfin, hack, hlen⟩
      refine hstep hdata hnew hfin hack ?_
      rcases hlen with hlen | hcons
      · exact Or.inl hlen
      · exact Or.inr ⟨hcons.1, hcons.2.1⟩
    · exact h.late hw (dataTransfer_of_receive hout hconn)
  | output env => exact absurd rfl (hdrain env)
  | timer _ hlive hout =>
    have hsame : outputBytes y'.trace = outputBytes y.trace := by
      cases hout with
      | expired => simp
      | running _ _ hout => cases hout <;> simp
    refine ⟨h.sender, hsame ▸ h.inOrder, fun _ hconn => ?_, fun hw hconn => ?_⟩
    · exact receives_timer (h.receives hlive (dataTransfer_of_timer hout hconn)) hout
    · exact h.late hw (dataTransfer_of_timer hout hconn)

/-! ## The two streams -/

/-- Both streams. -/
def NetInv (net : Net) : Prop := ∀ side : Side, Link (net.at side) (net.at side.other)

/-- A call that the network allows, below the end of the sequence space, and in order. -/
structure Sound (net : Net) (l : Side × Call) : Prop where
  network : Network net l
  below : Below net l
  order : Orderly net l

theorem netInv_step (net : Net) (l : Side × Call) (h : NetInv net) (hl : Sound net l) :
    NetInv (netStep net l) := by
  obtain ⟨side, call⟩ := l
  have hpeer := h side.other
  rw [Side.other_other] at hpeer
  have hflight : ∀ segment len env, call = .receive segment len env →
      Emitted segment (net.at side.other).trace := by
    rintro segment len env rfl
    exact hl.network.1
  have hdrain : ∀ env, call ≠ .output env := by
    rintro env rfl
    exact hl.network
  -- the caller sends to the other side, and receives from it
  have hsends : Link (step (net.at side) call) (net.at side.other) :=
    (h side).sends hpeer.sender hl.order hflight
  have hbelow := hl.below side.other
  rw [netStep_at_other] at hbelow
  have harrives : Link (net.at side.other) (step (net.at side) call) :=
    hpeer.arrives hbelow hdrain hflight hl.order
  intro side'
  rcases Side.eq_or_other side side' with rfl | rfl
  · simpa using hsends
  · simpa using harrives

/-! ## The simulation -/

/-- The endpoints and the streams agree: what has been read is in, what has been output is out. -/
structure Agrees (net : Net) (d : Duplex UInt8) : Prop where
  inv : NetInv net
  sent : ∀ side : Side, (d.stream side).sent = inputBytes (net.at side).trace
  delivered : ∀ side : Side, (d.stream side).delivered = outputBytes (net.at side.other).trace

theorem agrees_init (cfgA cfgB : CtcpConfig) : Agrees (netInit cfgA cfgB) Duplex.empty where
  inv := by
    intro side
    cases side with
    | a => exact link_init cfgA cfgB
    | b => exact link_init cfgB cfgA
  sent := by
    intro side
    cases side <;> rfl
  delivered := by
    intro side
    cases side <;> rfl

/-- A network that keeps `NetInv` simulates two streams.  A call that reads `xs` and outputs `ys` is
    a `push` of `xs` and a `pull` of as many bytes as `ys` has. -/
theorem simulates_of_netInv {P : Net → Side × Call → Prop}
    (hstep : ∀ net l, NetInv net → P net l → NetInv (netStep net l)) :
    Simulates netStep P Duplex.step (fun _ _ => True) Agrees := by
  refine ⟨?_⟩
  rintro net d ⟨side, call⟩ hagree hl
  have hinv := hstep net (side, call) hagree.inv hl
  have htrace := step_trace (net.at side) call
  let xs := inputBytes (events (net.at side) call)
  let ys := outputBytes (events (net.at side) call)
  have hin : inputBytes (step (net.at side) call).trace = inputBytes (net.at side).trace ++ xs := by
    rw [htrace, inputBytes_append]
  have hout : outputBytes (step (net.at side) call).trace
      = outputBytes (net.at side).trace ++ ys := by
    rw [htrace, outputBytes_append]
  -- what is output now comes next in the stream of the other side
  have hnext : (d.stream side.other).delivered ++ ys <+: (d.stream side.other).sent := by
    have hlink := (hinv side.other).inOrder
    rw [Side.other_other, netStep_at, netStep_at_other, hout] at hlink
    rw [hagree.delivered, hagree.sent, Side.other_other]
    exact hlink
  obtain ⟨hsent, hdel, hsent', hdel'⟩ := Duplex.run_push_pull d side xs hnext
  refine ⟨[(side, .push xs), (side, .pull ys.length)], ⟨trivial, trivial, trivial⟩, hinv, ?_, ?_⟩
  · intro side'
    rcases Side.eq_or_other side side' with rfl | rfl
    · rw [hsent, hagree.sent, netStep_at, hin]
    · rw [hsent', hagree.sent, netStep_at_other]
  · intro side'
    rcases Side.eq_or_other side side' with rfl | rfl
    · rw [hdel, hagree.delivered, netStep_at_other]
    · rw [hdel', hagree.delivered, Side.other_other, netStep_at, hout]

/-- **The network simulates two reliable streams.** -/
theorem net_simulates :
    Simulates netStep Sound Duplex.step (fun _ _ => True) Agrees :=
  simulates_of_netInv netInv_step

/-- **Both streams arrive in order**, in every run in which no bytes are lost in a failed
    `conn_send` and nothing is used up beyond `ackno`. -/
theorem streams_in_order (cfgA cfgB : CtcpConfig) (calls : List (Side × Call))
    (hnet : Along netStep (fun net l => Network net l ∧ Below net l) (netInit cfgA cfgB) calls)
    (horder : Along netStep Orderly (netInit cfgA cfgB) calls) :
    let net := run netStep (netInit cfgA cfgB) calls
    outputBytes net.b.trace <+: inputBytes net.a.trace ∧
      outputBytes net.a.trace <+: inputBytes net.b.trace := by
  have hsound : Along netStep Sound (netInit cfgA cfgB) calls := by
    refine (hnet.and horder).imp ?_
    rintro net l ⟨⟨hnetwork, hbelow⟩, hstep⟩
    exact ⟨hnetwork, hbelow, hstep⟩
  obtain ⟨ops, -, hagree⟩ := net_simulates.run (agrees_init cfgA cfgB) hsound
  -- a pipe delivers in order, by its type
  have hpipe := fun side => (Duplex.stream (run Duplex.step Duplex.empty ops) side).inOrder
  have ha := hpipe .a
  have hb := hpipe .b
  rw [hagree.sent, hagree.delivered] at ha hb
  exact ⟨ha, hb⟩

/-- One byte from `A` to `B`. -/
theorem streams_in_order_byte :
    let net := run netStep (netInit ctcpCfg ctcpCfg)
      [(.a, .read (some ⟨[7], by decide⟩) 21), (.b, .arrival (dataSegment 1 1 [7]))]
    outputBytes net.b.trace <+: inputBytes net.a.trace ∧
      outputBytes net.a.trace <+: inputBytes net.b.trace := by
  refine streams_in_order ctcpCfg ctcpCfg _ (by decide) ⟨fun _ => ?_, fun _ => ?_, trivial⟩
  · intro _ _ _ _ _
    decide
  · intro _ _ _ _ _
    decide

/-- The two sides send at once, and the first segment of `A` is delayed.  `A` acknowledges the byte
    of `B` with sequence number 2, and `B` takes that number for the next one it expects: the
    first byte is skipped. -/
theorem byte_skipped :
    let calls : List (Side × Call) :=
      [(.a, .read (some ⟨[7], by decide⟩) 21), (.b, .read (some ⟨[9], by decide⟩) 21),
        (.a, .arrival (dataSegment 1 1 [9])), (.b, .arrival (ackSegment 2 2)),
        (.a, .read (some ⟨[8], by decide⟩) 21), (.b, .arrival (dataSegment 2 2 [8]))]
    Along netStep (fun net l => Network net l ∧ Below net l) (netInit ctcpCfg ctcpCfg) calls ∧
      ¬ outputBytes (run netStep (netInit ctcpCfg ctcpCfg) calls).b.trace
        <+: inputBytes (run netStep (netInit ctcpCfg ctcpCfg) calls).a.trace := by
  decide

end Ctcp
