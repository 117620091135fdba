/-
  The functions of `ctcp.c` with their pointers.

  The other modules look at a connection through `CtcpState`, where a pointer stands for what it
  points to.  Here the functions are written once more, with the blocks that they allocate and free:
  the state itself, its list, the segments, the attributes of the outstanding segment and the
  numbers of the FIN.  A function fails where the C code would use a block after it is freed, free
  it again, or follow a null pointer.

  What `calloc` returns is never null, and an address is not given out twice.
-/
import Ctcp.Lib.Blocks
import Ctcp.Callbacks

set_option linter.unusedVariables false

namespace Ctcp.Pointers

open Blocks

/-! ## The functions of `ctcp.c`, with pointers -/

/-- What is in a block. -/
inductive Cell where
  | segment (segment : CtcpSegment)
  | attr (noOfTimes time : UInt16) (segment : Addr)
  | nums (nums : TearDownNums)
  | list
  | state
  deriving DecidableEq, Repr

/-- `struct ctcp_state` with its pointers, and the heap.  `self` is the state's own block. -/
structure Memory where
  heap : Heap Cell
  self : Addr
  conn : Conn
  segmentsSend : Addr
  connState : ConnState
  seqno : UInt32
  ackno : UInt32
  receivedSegment : Option Addr
  sentSegmentAttr : Option Addr
  tdState : TdState
  tim : UInt16
  timer : UInt16
  rtTimeout : UInt16
  tearDownNums : Option Addr
  trace : List Event

/-- Append events to the trace. -/
def Memory.log (m : Memory) (events : List Event) : Memory :=
  { m with trace := m.trace ++ events }

/-- A segment behind a pointer. -/
def segmentAt (h : Heap Cell) (a : Addr) : Option CtcpSegment :=
  match h.read a with
  | some (.segment segment) => some segment
  | _ => none

/-- The fields of a `segment_attr`. -/
def attrAt (h : Heap Cell) (a : Addr) : Option (UInt16 × UInt16 × Addr) :=
  match h.read a with
  | some (.attr noOfTimes time segment) => some (noOfTimes, time, segment)
  | _ => none

/-- `ctcp_init`. -/
def ctcpInit (cfg : CtcpConfig) : Memory :=
  let (self, heap) := Heap.empty.alloc .state
  let (segmentsSend, heap) := heap.alloc .list
  { heap := heap
    self := self
    conn := { readEof := false, wroteEof := false, deleteMe := false }
    segmentsSend := segmentsSend
    connState := .dataTransfer
    seqno := 1
    ackno := 1
    receivedSegment := none
    sentSegmentAttr := none
    tdState := .notTeardown
    tim := 0
    timer := UInt16.ofInt cfg.timer
    rtTimeout := UInt16.ofInt cfg.rtTimeout
    tearDownNums := none
    trace := [] }

/-- `_save_sent_segment`. -/
def saveSentSegment (m : Memory) (segment : Addr) : Memory :=
  let (attr, heap) := m.heap.alloc (.attr 0 0 segment)
  { m with heap := heap, sentSegmentAttr := some attr }

/-- `_segment_send`; the block is filled before anything else is done. -/
def segmentSend (m : Memory) (flags : UInt32) (len : Nat) (data : List UInt8) (sent : Int) :
    Option (Memory × Int) := do
  let datalen := len - segmentHdrSize
  let (block, heap) := m.heap.alloc (.segment (buildSegment m.seqno m.ackno flags len data))
  let segment ← segmentAt heap block
  let m := { m with heap := heap }.log [.send segment sent]
  if sent < 0 then some (m, -1)
  else
    let m :=
      if flags &&& FIN ≠ 0 then
        let (nums, heap) := m.heap.alloc (.nums ⟨m.seqno + 1, m.ackno⟩)
        { m with heap := heap, seqno := m.seqno + 1, tearDownNums := some nums }
      else { m with seqno := m.seqno + UInt32.ofNat datalen }
    let m := if 0 < datalen ∨ flags &&& FIN ≠ 0 then saveSentSegment m block else m
    some (m, len)

/-- `_destroy_acked_segment`. -/
def destroyAckedSegment (m : Memory) : Option Memory :=
  match m.sentSegmentAttr with
  | none => some m
  | some attr => do
    let (_, _, segment) ← attrAt m.heap attr
    let heap ← m.heap.free segment
    let heap ← heap.free attr
    some { m with heap := heap, sentSegmentAttr := none }

/-- `free`, of a pointer that may be null. -/
def freePtr (h : Heap Cell) : Option Addr → Option (Heap Cell)
  | none => some h
  | some a => h.free a

/-- `ctcp_destroy`, the state list apart.  The outstanding and the received segment are not
    freed. -/
def ctcpDestroy (m : Memory) : Option Memory := do
  let m := { m with conn.deleteMe := true }.log [.destroy]
  let heap ← m.heap.free m.segmentsSend
  let heap ← freePtr heap m.tearDownNums
  let heap ← heap.free m.self
  some { m with heap := heap }

/-- `conn_input`. -/
def connInput (m : Memory) (input : Option Chunk) : Memory × Option (List UInt8) :=
  if m.conn.readEof then (m.log [.input none], none)
  else
    match input with
    | none => ({ m with conn.readEof := true }.log [.input none], none)
    | some chunk => (m.log [.input (some chunk.bytes)], some chunk.bytes)

/-- `ctcp_read`. -/
def ctcpRead (m : Memory) (input : Option Chunk) (sent : Int) : Option Memory :=
  if m.sentSegmentAttr = none then
    match connInput m input with
    | (m, none) => do
      let (m, retval) ← segmentSend m FIN segmentHdrSize [] sent
      if retval < 0 then some m else some { m with connState := .tearDown }
    | (m, some buffer) => do
      let (m, _) ← segmentSend m ACK (buffer.length + segmentHdrSize) buffer sent
      some m
  else some m

/-- What `conn_output` answers. -/
def outputResult (env : Env) (m : Memory) : Int := if m.conn.wroteEof then 0 else env.written

/-- `free(state->received_segment)`; the pointer itself stays. -/
def freeBlock (m : Memory) (block : Addr) : Option Memory := do
  let heap ← m.heap.free block
  some { m with heap := heap }

/-- `ctcp_output`. -/
def ctcpOutput (env : Env) (m : Memory) : Option Memory := do
  let block ← m.receivedSegment
  let segment ← segmentAt m.heap block
  if env.bufspace = 0 then freeBlock m block
  else if (datalen segment).toNat ≤ env.bufspace then
    if datalen segment = 0 then do
      let m ← destroyAckedSegment { m with ackno := segment.seqno }
      freeBlock m block
    else
      let written := outputResult env m
      let m := m.log [.output segment written]
      if written < 0 then ctcpDestroy m
      else do
        let m := { m with ackno := segment.seqno + datalen segment }
        let (m, _) ← segmentSend m ACK segmentHdrSize [] env.sent₀
        let m ← destroyAckedSegment m
        freeBlock m block
  else some m

/-- `case DATA_TRANSFER` of `ctcp_receive`. -/
def receiveDataTransfer (env : Env) (m : Memory) (block : Addr) : Option Memory := do
  let segment ← segmentAt m.heap block
  if segment.seqno < m.ackno then some m
  else if segment.flags &&& FIN ≠ 0 then do
    let m := { m with conn.wroteEof := true }.log [.outputEof]
    let m := { m with ackno := segment.seqno + 1 }.log [.acceptFin segment.seqno]
    let (m, _) ← segmentSend m ACK segmentHdrSize [] env.sent₀
    let (m, _) ← segmentSend m FIN segmentHdrSize [] env.sent₁
    some { m with connState := .waitLastAck }
  else if segment.flags &&& ACK ≠ 0 then
    if segment.len = UInt16.ofNat segmentHdrSize then do
      let m ← destroyAckedSegment { m with ackno := segment.seqno }
      freeBlock m block
    else ctcpOutput env { m with receivedSegment := some block }
  else some m

/-- `case WAIT_LAST_FIN`. -/
def receiveWaitLastFin (env : Env) (m : Memory) (block : Addr) : Option Memory := do
  let segment ← segmentAt m.heap block
  if segment.flags &&& FIN ≠ 0 then do
    let m := { m with ackno := segment.seqno + 1 }.log [.acceptFin segment.seqno]
    let (m, _) ← segmentSend m ACK segmentHdrSize [] env.sent₀
    some { m with tim := 0, tdState := .waitDestroy }
  else some m

/-- `case TEAR_DOWN`. -/
def receiveTearDown (env : Env) (m : Memory) (block : Addr) : Option Memory := do
  let segment ← segmentAt m.heap block
  if segment.flags &&& ACK ≠ 0 then
    if segment.flags &&& FIN ≠ 0 then some { m with connState := .waitLastAck }
    else some { m with connState := .waitLastFin }
  else if segment.flags &&& FIN ≠ 0 then do
    let m := { m with ackno := segment.seqno + 1 }.log [.acceptFin segment.seqno]
    let (m, _) ← segmentSend m ACK segmentHdrSize [] env.sent₀
    ctcpDestroy m
  else receiveWaitLastFin env m block

/-- `case WAIT_LAST_ACK`. -/
def receiveWaitLastAck (m : Memory) (block : Addr) : Option Memory := do
  let segment ← segmentAt m.heap block
  if segment.flags &&& ACK ≠ 0 then ctcpDestroy m else some m

/-- The switch of `ctcp_receive`. -/
def receiveSegment (env : Env) (m : Memory) (block : Addr) : Option Memory :=
  match m.connState with
  | .dataTransfer => receiveDataTransfer env m block
  | .tearDown => receiveTearDown env m block
  | .waitLastFin => receiveWaitLastFin env m block
  | .waitLastAck => receiveWaitLastAck m block
  | .waitInput => some m

/-- `ctcp_receive`.  `_segment_ntoh` works in place, on a segment whose checksum has been
    cleared. -/
def ctcpReceive (env : Env) (m : Memory) (block : Addr) (len : Nat) : Option Memory := do
  let segment ← segmentAt m.heap block
  if isSegmentValid segment (UInt16.ofNat len) then do
    let segment := segmentNtoh { segment with cksum := 0 }
    let heap ← m.heap.write block (.segment segment)
    receiveSegment env ({ m with heap := heap }.log [.receive segment]) block
  else some m

/-- The last part of `retransmission_handler`. -/
def retransmitSegment (m : Memory) : Option Memory :=
  match m.sentSegmentAttr with
  | none => some m
  | some attr => do
    let (noOfTimes, time, segment) ← attrAt m.heap attr
    let time := time + m.timer
    let heap ← m.heap.write attr (.attr noOfTimes time segment)
    if time ≥ m.rtTimeout then do
      let sent ← segmentAt heap segment
      let noOfTimes := noOfTimes + 1
      let heap ← heap.write attr (.attr noOfTimes time segment)
      let m := { m with heap := heap }.log [.resend sent]
      if noOfTimes ≥ (5 : UInt16) then destroyAckedSegment m else some m
    else some { m with heap := heap }

/-- `retransmission_handler`. -/
def retransmissionHandler (m : Memory) : Option Memory :=
  match m.tdState with
  | .waitDestroy =>
    let m := { m with tim := m.tim + m.timer }
    if m.tim.toNat ≥ m.rtTimeout.toNat * 50 then ctcpDestroy m else retransmitSegment m
  | .notTeardown => retransmitSegment m
  | .destroyed => retransmitSegment m

/-- One call.  The segment of `ctcp_receive` has been allocated by `convert_to_ctcp`. -/
def stepMemory (m : Memory) (call : Call) : Option Memory :=
  if m.conn.deleteMe then some m
  else
    match call with
    | .read input sent => ctcpRead m input sent
    | .receive segment len env =>
      let (block, heap) := m.heap.alloc (.segment segment)
      ctcpReceive env { m with heap := heap } block len
    | .output env => ctcpOutput env m
    | .timer => retransmissionHandler m

/-- A run, which ends where the memory fails. -/
def runMemory (m : Memory) (calls : List Call) : Option Memory := calls.foldlM stepMemory m

end Ctcp.Pointers
