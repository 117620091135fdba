/-
  The connection state of `ctcp.c` and the library it runs on.

  `CtcpState` is `struct ctcp_state`.  The pointers of the state list (`next`, `prev`) belong to
  the list module, and `segments_send`, which is created and destroyed but never used, is left
  out.  `conn` holds the flags of the `conn_t` that the calls of `ctcp.c` read or set.

  The library of `ctcp_sys.h` is the environment of a callback: what `conn_input`, `conn_send`,
  `conn_bufspace` and the write under `conn_output` answer are parameters, and every call is
  recorded in `trace`.  The trace is what an observer of the connection sees; nothing in the
  callbacks reads it.  Two of its events are marks, not calls: `receive` for a segment that
  passed `_is_segment_valid`, and `acceptFin` where `ackno` is moved past a FIN.

  `receivedSegment` is a raw pointer in the source, and `ctcp_output` frees what it points to
  without resetting it, so a pointer here is null, live or freed.
-/
import Ctcp.Segment

namespace Ctcp

/-- `enum conn_state`. -/
inductive ConnState where
  | waitInput
  | dataTransfer
  | tearDown
  | waitLastAck
  | waitLastFin
  deriving DecidableEq, Repr

/-- `enum teardown_state`. -/
inductive TdState where
  | notTeardown
  | waitDestroy
  | destroyed
  deriving DecidableEq, Repr

/-- `struct segment_attr`: the outstanding segment, in network order, and its timer. -/
structure SegmentAttr where
  noOfTimes : UInt16
  time : UInt16
  segment : CtcpSegment
  deriving DecidableEq, Repr

/-- `struct tear_down_nums`. -/
structure TearDownNums where
  finSeqNo : UInt32
  finAckNo : UInt32
  deriving DecidableEq, Repr

/-- The pointer `received_segment`. -/
inductive SegmentPtr where
  | null
  | live (segment : CtcpSegment)
  | freed
  deriving DecidableEq, Repr

/-- The flags of `conn_t` that `conn_input`, `conn_output` and `conn_remove` keep. -/
structure Conn where
  readEof : Bool
  wroteEof : Bool
  deleteMe : Bool
  deriving DecidableEq, Repr

/-- What the connection does, in order. -/
inductive Event where
  /-- `conn_input` returned these bytes, or `-1`. -/
  | input (bytes : Option (List UInt8))
  /-- `_segment_send` called `conn_send` with this segment (network order); its result. -/
  | send (segment : CtcpSegment) (sent : Int)
  /-- `retransmission_handler` called `conn_send`. -/
  | resend (segment : CtcpSegment)
  /-- `ctcp_receive` found this segment (now in host order) valid. -/
  | receive (segment : CtcpSegment)
  /-- `conn_output` of the payload of this segment; its result. -/
  | output (segment : CtcpSegment) (written : Int)
  /-- `conn_output(conn, NULL, 0)`. -/
  | outputEof
  /-- `ackno` was set to `seqno + 1` for a FIN with this `seqno`. -/
  | acceptFin (seqno : UInt32)
  /-- `ctcp_destroy`. -/
  | destroy
  /-- `ctcp_output` was entered with a null or freed `received_segment`. -/
  | fault
  deriving DecidableEq, Repr

/-- `struct ctcp_state`, with the trace of the connection. -/
structure CtcpState where
  conn : Conn
  connState : ConnState
  seqno : UInt32
  ackno : UInt32
  receivedSegment : SegmentPtr
  sentSegmentAttr : Option SegmentAttr
  tdState : TdState
  tim : UInt16
  timer : UInt16
  rtTimeout : UInt16
  tearDownNums : Option TearDownNums
  trace : List Event
  deriving DecidableEq, Repr

/-- The fields of `ctcp_config_t` that `ctcp_init` reads. -/
structure CtcpConfig where
  timer : Int
  rtTimeout : Int
  deriving DecidableEq, Repr

/-- The intervals `main` sets: `TIMER_INTERVAL` and `RT_INTERVAL`. -/
def ctcpCfg : CtcpConfig := { timer := 40, rtTimeout := 200 }

/-- `ctcp_init` with a connection, the state list apart.  The two intervals are cut to 16 bits. -/
def ctcpInit (cfg : CtcpConfig) : CtcpState where
  conn := { readEof := false, wroteEof := false, deleteMe := false }
  connState := .dataTransfer
  seqno := 1
  ackno := 1
  receivedSegment := .null
  sentSegmentAttr := none
  tdState := .notTeardown
  tim := 0
  timer := UInt16.ofInt cfg.timer
  rtTimeout := UInt16.ofInt cfg.rtTimeout
  tearDownNums := none
  trace := []

/-! ## The environment -/

/-- `MAX_BUF_SPACE` (`ctcp_sys_internal.h`). -/
def maxBufSpace : Nat := 8192

/-- What one non-blocking read into the 1440-byte `buffer_out` can return. -/
structure Chunk where
  bytes : List UInt8
  fits : bytes.length ≤ maxSegDataSize
  deriving DecidableEq, Repr

/-- The answers of the library during one `ctcp_receive` or `ctcp_output`: `conn_bufspace`, the
    result of `conn_output`, and the results of the first and the second `conn_send`. -/
structure Env where
  bufspace : Nat
  written : Int
  sent₀ : Int
  sent₁ : Int
  bounded : bufspace ≤ maxBufSpace
  deriving DecidableEq, Repr

/-- An environment with an empty output queue in which every call succeeds. -/
def Env.roomy : Env where
  bufspace := maxBufSpace
  written := 1
  sent₀ := 20
  sent₁ := 20
  bounded := Nat.le_refl _

namespace CtcpState

/-- Append events to the trace. -/
def log (state : CtcpState) (events : List Event) : CtcpState :=
  { state with trace := state.trace ++ events }

variable (state : CtcpState) (events : List Event)

@[simp] theorem log_trace : (state.log events).trace = state.trace ++ events := rfl
@[simp] theorem log_conn : (state.log events).conn = state.conn := rfl
@[simp] theorem log_connState : (state.log events).connState = state.connState := rfl
@[simp] theorem log_seqno : (state.log events).seqno = state.seqno := rfl
@[simp] theorem log_ackno : (state.log events).ackno = state.ackno := rfl
@[simp] theorem log_receivedSegment :
    (state.log events).receivedSegment = state.receivedSegment := rfl
@[simp] theorem log_sentSegmentAttr :
    (state.log events).sentSegmentAttr = state.sentSegmentAttr := rfl
@[simp] theorem log_tdState : (state.log events).tdState = state.tdState := rfl
@[simp] theorem log_tim : (state.log events).tim = state.tim := rfl
@[simp] theorem log_timer : (state.log events).timer = state.timer := rfl
@[simp] theorem log_rtTimeout : (state.log events).rtTimeout = state.rtTimeout := rfl
@[simp] theorem log_tearDownNums : (state.log events).tearDownNums = state.tearDownNums := rfl

@[simp] theorem log_log (events' : List Event) :
    (state.log events).log events' = state.log (events ++ events') := by
  simp [log]

end CtcpState

/-! ## Library calls -/

/-- `conn_input`: after the first `-1` it answers `-1` for ever (`read_eof`). -/
def connInput (state : CtcpState) (input : Option Chunk) : CtcpState × Option (List UInt8) :=
  if state.conn.readEof then (state.log [.input none], none)
  else
    match input with
    | none => ({ state with conn.readEof := true }.log [.input none], none)
    | some chunk => (state.log [.input (some chunk.bytes)], some chunk.bytes)

/-- `conn_output(conn, NULL, 0)`. -/
def connOutputEof (state : CtcpState) : CtcpState :=
  { state with conn.wroteEof := true }.log [.outputEof]

/-- What `conn_output` answers: `0` once EOF was written. -/
def outputResult (env : Env) (state : CtcpState) : Int :=
  if state.conn.wroteEof then 0 else env.written

/-- `conn_output(conn, segment->data, datalen)`. -/
def connOutput (env : Env) (state : CtcpState) (segment : CtcpSegment) : CtcpState × Int :=
  (state.log [.output segment (outputResult env state)], outputResult env state)

end Ctcp
