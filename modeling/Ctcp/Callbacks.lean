/-
  The functions of `ctcp.c`, for one connection.

  Each definition follows the C function of the same name, branch by branch, on the state of
  `Ctcp.State`; a call of the library takes its answer from the callback's parameters.  What
  `ctcp_init`, `ctcp_destroy` and `ctcp_timer` do with the list of connections is in
  `Ctcp.StateList`.
-/
import Ctcp.State

namespace Ctcp

/-! ## Sending -/

/-- The segment `_segment_send` builds: filled in, converted to network order, checksummed with
    the checksum field zero. -/
def buildSegment (seqno ackno flags : UInt32) (len : Nat) (data : List UInt8) : CtcpSegment :=
  let datalen := len - segmentHdrSize
  let segment : CtcpSegment :=
    { seqno := seqno
      ackno := ackno
      len := UInt16.ofNat len
      pad := 0
      flags := flags
      window := UInt16.ofNat maxSegDataSize
      cksum := 0
      data := data.take datalen }
  let segment := segmentHton segment
  { segment with cksum := cksum (segment.bytes.take len) }

/-- `_save_sent_segment`. -/
def saveSentSegment (state : CtcpState) (segment : CtcpSegment) : CtcpState :=
  { state with sentSegmentAttr := some { noOfTimes := 0, time := 0, segment := segment } }

/-- `_segment_send`, when `conn_send` answers `sent`. -/
def segmentSend (state : CtcpState) (flags : UInt32) (len : Nat) (data : List UInt8)
    (sent : Int) : CtcpState × Int :=
  let datalen := len - segmentHdrSize
  let segment := buildSegment state.seqno state.ackno flags len data
  let state := state.log [.send segment sent]
  if sent < 0 then (state, -1)
  else
    let state :=
      if flags &&& FIN ≠ 0 then
        { state with
          seqno := state.seqno + 1
          tearDownNums := some { finSeqNo := state.seqno + 1, finAckNo := state.ackno } }
      else { state with seqno := state.seqno + UInt32.ofNat datalen }
    let state :=
      if 0 < datalen ∨ flags &&& FIN ≠ 0 then saveSentSegment state segment else state
    (state, len)

/-- `_destroy_acked_segment`. -/
def destroyAckedSegment (state : CtcpState) : CtcpState :=
  { state with sentSegmentAttr := none }

/-- `ctcp_destroy`, the state list apart: `conn_remove` marks the connection for removal. -/
def ctcpDestroy (state : CtcpState) : CtcpState :=
  { state with conn.deleteMe := true }.log [.destroy]

/-! ## The callbacks -/

/-- `ctcp_read`. -/
def ctcpRead (state : CtcpState) (input : Option Chunk) (sent : Int) : CtcpState :=
  if state.sentSegmentAttr = none then
    match connInput state input with
    | (state, none) =>
      let (state, retval) := segmentSend state FIN segmentHdrSize [] sent
      if retval < 0 then state else { state with connState := .tearDown }
    | (state, some buffer) =>
      (segmentSend state ACK (buffer.length + segmentHdrSize) buffer sent).1
  else state

/-- The number of data bytes the header of a segment announces, as `ctcp_output` computes it:
    an unsigned subtraction. -/
def datalen (segment : CtcpSegment) : UInt32 :=
  segment.len.toUInt32 - UInt32.ofNat segmentHdrSize

/-- `free(state->received_segment)`; the pointer itself stays. -/
def freeReceivedSegment (state : CtcpState) : CtcpState :=
  { state with receivedSegment := .freed }

/-- `ctcp_output`. -/
def ctcpOutput (env : Env) (state : CtcpState) : CtcpState :=
  match state.receivedSegment with
  | .live segment =>
    if env.bufspace = 0 then freeReceivedSegment state
    else if (datalen segment).toNat ≤ env.bufspace then
      if datalen segment = 0 then
        let state := { state with ackno := segment.seqno }
        freeReceivedSegment (destroyAckedSegment state)
      else
        let (state, written) := connOutput env state segment
        if written < 0 then ctcpDestroy state
        else
          let state := { state with ackno := segment.seqno + datalen segment }
          let state := (segmentSend state ACK segmentHdrSize [] env.sent₀).1
          freeReceivedSegment (destroyAckedSegment state)
    else state
  | _ => state.log [.fault]

/-- `case DATA_TRANSFER` of `ctcp_receive`. -/
def receiveDataTransfer (env : Env) (state : CtcpState) (segment : CtcpSegment) : CtcpState :=
  if segment.seqno < state.ackno then state
  else if segment.flags &&& FIN ≠ 0 then
    let state := connOutputEof state
    let state := { state with ackno := segment.seqno + 1 }.log [.acceptFin segment.seqno]
    let state := (segmentSend state ACK segmentHdrSize [] env.sent₀).1
    let state := (segmentSend state FIN segmentHdrSize [] env.sent₁).1
    { state with connState := .waitLastAck }
  else if segment.flags &&& ACK ≠ 0 then
    if segment.len = UInt16.ofNat segmentHdrSize then
      destroyAckedSegment { state with ackno := segment.seqno }
    else ctcpOutput env { state with receivedSegment := .live segment }
  else state

/-- `case WAIT_LAST_FIN`. -/
def receiveWaitLastFin (env : Env) (state : CtcpState) (segment : CtcpSegment) : CtcpState :=
  if segment.flags &&& FIN ≠ 0 then
    let state := { state with ackno := segment.seqno + 1 }.log [.acceptFin segment.seqno]
    let state := (segmentSend state ACK segmentHdrSize [] env.sent₀).1
    { state with tim := 0, tdState := .waitDestroy }
  else state

/-- `case TEAR_DOWN`, which falls through to the next case without an ACK or a FIN. -/
def receiveTearDown (env : Env) (state : CtcpState) (segment : CtcpSegment) : CtcpState :=
  if segment.flags &&& ACK ≠ 0 then
    if segment.flags &&& FIN ≠ 0 then { state with connState := .waitLastAck }
    else { state with connState := .waitLastFin }
  else if segment.flags &&& FIN ≠ 0 then
    let state := { state with ackno := segment.seqno + 1 }.log [.acceptFin segment.seqno]
    ctcpDestroy (segmentSend state ACK segmentHdrSize [] env.sent₀).1
  else receiveWaitLastFin env state segment

/-- `case WAIT_LAST_ACK`. -/
def receiveWaitLastAck (state : CtcpState) (segment : CtcpSegment) : CtcpState :=
  if segment.flags &&& ACK ≠ 0 then ctcpDestroy state else state

/-- The switch of `ctcp_receive`, on a valid segment in host order. -/
def receiveSegment (env : Env) (state : CtcpState) (segment : CtcpSegment) : CtcpState :=
  match state.connState with
  | .dataTransfer => receiveDataTransfer env state segment
  | .tearDown => receiveTearDown env state segment
  | .waitLastFin => receiveWaitLastFin env state segment
  | .waitLastAck => receiveWaitLastAck state segment
  | .waitInput => state

/-- `ctcp_receive`. -/
def ctcpReceive (env : Env) (state : CtcpState) (segment : CtcpSegment) (len : Nat) :
    CtcpState :=
  if isSegmentValid segment (UInt16.ofNat len) then
    let segment := segmentNtoh { segment with cksum := 0 }
    receiveSegment env (state.log [.receive segment]) segment
  else state

/-! ## The timer -/

/-- The last part of `retransmission_handler`: the outstanding segment. -/
def retransmitSegment (state : CtcpState) : CtcpState :=
  match state.sentSegmentAttr with
  | none => state
  | some attr =>
    let attr := { attr with time := attr.time + state.timer }
    if attr.time ≥ state.rtTimeout then
      let attr := { attr with noOfTimes := attr.noOfTimes + 1 }
      let state := { state with sentSegmentAttr := some attr }.log [.resend attr.segment]
      if attr.noOfTimes ≥ (5 : UInt16) then destroyAckedSegment state else state
    else { state with sentSegmentAttr := some attr }

/-- `retransmission_handler`.  The product `rt_timeout * 50` is computed in `int`. -/
def retransmissionHandler (state : CtcpState) : CtcpState :=
  match state.tdState with
  | .waitDestroy =>
    let state := { state with tim := state.tim + state.timer }
    if state.tim.toNat ≥ state.rtTimeout.toNat * 50 then ctcpDestroy state
    else retransmitSegment state
  | .notTeardown => retransmitSegment state
  | .destroyed => retransmitSegment state

/-! ## Runs of one connection -/

/-- What the library calls a connection with: `ctcp_read`, `ctcp_receive`, `ctcp_output` (from
    `conn_drain`) and, through `ctcp_timer`, `retransmission_handler`. -/
inductive Call where
  | read (input : Option Chunk) (sent : Int)
  | receive (segment : CtcpSegment) (len : Nat) (env : Env)
  | output (env : Env)
  | timer
  deriving DecidableEq, Repr

/-- `ctcp_receive` of a whole segment, where every call of the library succeeds. -/
def Call.arrival (segment : CtcpSegment) : Call :=
  .receive segment (segmentHdrSize + segment.data.length) Env.roomy

/-- One call.  A destroyed connection is not called any more. -/
def step (state : CtcpState) (call : Call) : CtcpState :=
  if state.conn.deleteMe then state
  else
    match call with
    | .read input sent => ctcpRead state input sent
    | .receive segment len env => ctcpReceive env state segment len
    | .output env => ctcpOutput env state
    | .timer => retransmissionHandler state

end Ctcp
