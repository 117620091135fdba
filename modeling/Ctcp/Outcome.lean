/-
  What one call can do: the inversion of `step`.

  Every invariant of a connection is proved from the relations of this file, never by unfolding
  a callback.  `ReadOutcome`, `OutputOutcome`, `ReceiveOutcome` and `TimerOutcome` have one
  constructor for each branch of the C function, with the guards of the branch as hypotheses and
  the state it leaves as the last index; `StepOutcome` puts them together.  The theorems
  `ctcpRead_outcome`, `ctcpOutput_outcome`, `receiveSegment_outcome`,
  `retransmissionHandler_outcome` and `step_outcome` say that the functions do one of these things.
-/
import Ctcp.Wire

set_option linter.unusedVariables false

namespace Ctcp

/-! ## Sending -/

/-- Sending a bare ACK only records the call, whatever `conn_send` answers. -/
theorem segmentSend_ack (state : CtcpState) (sent : Int) :
    (segmentSend state ACK segmentHdrSize [] sent).1
      = state.log [.send (ackSegment state.seqno state.ackno) sent] := by
  unfold segmentSend
  split
  · rfl
  · simp [CtcpState.log, ackSegment]

/-- The state after a FIN has been sent. -/
def finSent (state : CtcpState) : CtcpState :=
  { state with
    seqno := state.seqno + 1
    tearDownNums := some { finSeqNo := state.seqno + 1, finAckNo := state.ackno }
    sentSegmentAttr := some ⟨0, 0, finSegment state.seqno state.ackno⟩ }

section FinSent

variable (state : CtcpState)

@[simp] theorem finSent_conn : (finSent state).conn = state.conn := rfl
@[simp] theorem finSent_connState : (finSent state).connState = state.connState := rfl
@[simp] theorem finSent_ackno : (finSent state).ackno = state.ackno := rfl
@[simp] theorem finSent_seqno : (finSent state).seqno = state.seqno + 1 := rfl
@[simp] theorem finSent_receivedSegment :
    (finSent state).receivedSegment = state.receivedSegment := rfl
@[simp] theorem finSent_sentSegmentAttr :
    (finSent state).sentSegmentAttr
      = some ⟨0, 0, finSegment state.seqno state.ackno⟩ := rfl
@[simp] theorem finSent_tdState : (finSent state).tdState = state.tdState := rfl
@[simp] theorem finSent_tearDownNums :
    (finSent state).tearDownNums = some ⟨state.seqno + 1, state.ackno⟩ := rfl
@[simp] theorem finSent_trace : (finSent state).trace = state.trace := rfl

end FinSent

theorem segmentSend_fin_of_neg (state : CtcpState) {sent : Int} (h : sent < 0) :
    segmentSend state FIN segmentHdrSize [] sent
      = (state.log [.send (finSegment state.seqno state.ackno) sent], -1) := by
  simp [segmentSend, h, finSegment]

theorem segmentSend_fin (state : CtcpState) {sent : Int} (h : 0 ≤ sent) :
    segmentSend state FIN segmentHdrSize [] sent
      = ((finSent state).log [.send (finSegment state.seqno state.ackno) sent],
          (segmentHdrSize : Int)) := by
  have h' : ¬ sent < 0 := by omega
  simp [segmentSend, h', finSegment, finSent, saveSentSegment, CtcpState.log]

theorem segmentSend_data_of_neg (state : CtcpState) (buffer : List UInt8) {sent : Int}
    (h : sent < 0) :
    (segmentSend state ACK (buffer.length + segmentHdrSize) buffer sent).1
      = state.log [.send (dataSegment state.seqno state.ackno buffer) sent] := by
  simp [segmentSend, h, dataSegment]

/-- The state after the bytes `buffer` have been sent. -/
def dataSent (state : CtcpState) (buffer : List UInt8) : CtcpState :=
  { state with
    seqno := state.seqno + UInt32.ofNat buffer.length
    sentSegmentAttr := some ⟨0, 0, dataSegment state.seqno state.ackno buffer⟩ }

section DataSent

variable (state : CtcpState) (buffer : List UInt8)

@[simp] theorem dataSent_conn : (dataSent state buffer).conn = state.conn := rfl
@[simp] theorem dataSent_connState : (dataSent state buffer).connState = state.connState := rfl
@[simp] theorem dataSent_ackno : (dataSent state buffer).ackno = state.ackno := rfl
@[simp] theorem dataSent_seqno :
    (dataSent state buffer).seqno = state.seqno + UInt32.ofNat buffer.length := rfl
@[simp] theorem dataSent_receivedSegment :
    (dataSent state buffer).receivedSegment = state.receivedSegment := rfl
@[simp] theorem dataSent_sentSegmentAttr :
    (dataSent state buffer).sentSegmentAttr
      = some ⟨0, 0, dataSegment state.seqno state.ackno buffer⟩ := rfl
@[simp] theorem dataSent_tdState : (dataSent state buffer).tdState = state.tdState := rfl
@[simp] theorem dataSent_tearDownNums :
    (dataSent state buffer).tearDownNums = state.tearDownNums := rfl
@[simp] theorem dataSent_trace : (dataSent state buffer).trace = state.trace := rfl

end DataSent

theorem segmentSend_data (state : CtcpState) {buffer : List UInt8} {sent : Int}
    (hb : buffer ≠ []) (h : 0 ≤ sent) :
    (segmentSend state ACK (buffer.length + segmentHdrSize) buffer sent).1
      = (dataSent state buffer).log [.send (dataSegment state.seqno state.ackno buffer) sent] := by
  have h' : ¬ sent < 0 := by omega
  have hlen : 0 < buffer.length := List.length_pos_iff.mpr hb
  simp [segmentSend, h', dataSegment, dataSent, saveSentSegment, CtcpState.log, hlen]

/-! ## `ctcp_read` -/

/-- The branches of `ctcp_read`. -/
inductive ReadOutcome (state : CtcpState) (input : Option Chunk) (sent : Int) : CtcpState → Prop
  /-- A segment is outstanding. -/
  | busy (attr : SegmentAttr) (hslot : state.sentSegmentAttr = some attr) :
      ReadOutcome state input sent state
  /-- End of input, and the FIN could not be sent. -/
  | eofUnsent (hslot : state.sentSegmentAttr = none)
      (heof : state.conn.readEof = true ∨ input = none) (hsent : sent < 0) :
      ReadOutcome state input sent
        ({ state with conn.readEof := true }.log
          [.input none, .send (finSegment state.seqno state.ackno) sent])
  /-- End of input, and the FIN was sent. -/
  | eofSent (hslot : state.sentSegmentAttr = none)
      (heof : state.conn.readEof = true ∨ input = none) (hsent : 0 ≤ sent) :
      ReadOutcome state input sent
        ({ finSent state with conn.readEof := true, connState := .tearDown }.log
          [.input none, .send (finSegment state.seqno state.ackno) sent])
  /-- Bytes were read, and could not be sent. -/
  | unsent (chunk : Chunk) (hslot : state.sentSegmentAttr = none)
      (heof : state.conn.readEof = false) (hin : input = some chunk) (hsent : sent < 0) :
      ReadOutcome state input sent
        (state.log [.input (some chunk.bytes),
          .send (dataSegment state.seqno state.ackno chunk.bytes) sent])
  /-- There was nothing to read, and a bare ACK was sent. -/
  | noData (chunk : Chunk) (hslot : state.sentSegmentAttr = none)
      (heof : state.conn.readEof = false) (hin : input = some chunk) (hnil : chunk.bytes = [])
      (hsent : 0 ≤ sent) :
      ReadOutcome state input sent
        (state.log [.input (some []), .send (ackSegment state.seqno state.ackno) sent])
  /-- Bytes were read and sent. -/
  | data (chunk : Chunk) (hslot : state.sentSegmentAttr = none)
      (heof : state.conn.readEof = false) (hin : input = some chunk) (hne : chunk.bytes ≠ [])
      (hsent : 0 ≤ sent) :
      ReadOutcome state input sent
        ((dataSent state chunk.bytes).log [.input (some chunk.bytes),
          .send (dataSegment state.seqno state.ackno chunk.bytes) sent])

theorem connInput_eof (state : CtcpState) (input : Option Chunk)
    (h : state.conn.readEof = true ∨ input = none) :
    connInput state input = ({ state with conn.readEof := true }.log [.input none], none) := by
  unfold connInput
  by_cases hr : state.conn.readEof = true
  · have hs : ({ state with conn.readEof := true } : CtcpState) = state := by rw [← hr]
    rw [if_pos hr, hs]
  · rw [if_neg hr, h.resolve_left hr]

theorem connInput_bytes (state : CtcpState) (chunk : Chunk) (h : state.conn.readEof = false) :
    connInput state (some chunk)
      = (state.log [.input (some chunk.bytes)], some chunk.bytes) := by
  simp [connInput, h]

/-- **Inversion of `ctcp_read`.** -/
theorem ctcpRead_outcome (state : CtcpState) (input : Option Chunk) (sent : Int) :
    ReadOutcome state input sent (ctcpRead state input sent) := by
  unfold ctcpRead
  by_cases hslot : state.sentSegmentAttr = none
  · rw [if_pos hslot]
    by_cases heof : state.conn.readEof = true ∨ input = none
    · rw [connInput_eof state input heof]
      rcases Int.lt_or_le sent 0 with hsent | hsent
      · simpa [segmentSend_fin_of_neg _ hsent] using ReadOutcome.eofUnsent hslot heof hsent
      · have hlen : ¬ (segmentHdrSize : Int) < 0 := by decide
        simp only [segmentSend_fin _ hsent, if_neg hlen]
        simpa [finSent, CtcpState.log] using ReadOutcome.eofSent hslot heof hsent
    · obtain ⟨heof', hin⟩ := not_or.mp heof
      have hr : state.conn.readEof = false := by simpa using heof'
      obtain ⟨chunk, rfl⟩ := Option.ne_none_iff_exists'.mp hin
      rw [connInput_bytes state chunk hr]
      rcases Int.lt_or_le sent 0 with hsent | hsent
      · simpa [segmentSend_data_of_neg _ _ hsent] using
          ReadOutcome.unsent chunk hslot hr rfl hsent
      · by_cases hb : chunk.bytes = []
        · simpa [hb, segmentSend_ack] using ReadOutcome.noData chunk hslot hr rfl hb hsent
        · simpa [segmentSend_data _ hb hsent, dataSent, CtcpState.log] using
            ReadOutcome.data chunk hslot hr rfl hb hsent
  · rw [if_neg hslot]
    obtain ⟨attr, hattr⟩ := Option.ne_none_iff_exists'.mp hslot
    exact ReadOutcome.busy attr hattr

/-! ## `ctcp_output` -/

/-- The branches of `ctcp_output`. -/
inductive OutputOutcome (env : Env) (state : CtcpState) : CtcpState → Prop
  /-- No room at all: the segment is dropped. -/
  | noRoom (segment : CtcpSegment) (hlive : state.receivedSegment = .live segment)
      (hroom : env.bufspace = 0) :
      OutputOutcome env state { state with receivedSegment := .freed }
  /-- Some room, but too little: the segment is kept. -/
  | kept (segment : CtcpSegment) (hlive : state.receivedSegment = .live segment)
      (hroom : env.bufspace ≠ 0) (hlen : env.bufspace < (datalen segment).toNat) :
      OutputOutcome env state state
  /-- No data. -/
  | empty (segment : CtcpSegment) (hlive : state.receivedSegment = .live segment)
      (hroom : env.bufspace ≠ 0) (hlen : datalen segment = 0) :
      OutputOutcome env state
        { state with
          ackno := segment.seqno, sentSegmentAttr := none, receivedSegment := .freed }
  /-- `conn_output` reported an error. -/
  | failed (segment : CtcpSegment) (hlive : state.receivedSegment = .live segment)
      (hroom : env.bufspace ≠ 0) (hlen : datalen segment ≠ 0)
      (hfits : (datalen segment).toNat ≤ env.bufspace) (hwritten : outputResult env state < 0) :
      OutputOutcome env state
        ({ state with conn.deleteMe := true }.log
          [.output segment (outputResult env state), .destroy])
  /-- The payload was output and acknowledged. -/
  | delivered (segment : CtcpSegment) (hlive : state.receivedSegment = .live segment)
      (hroom : env.bufspace ≠ 0) (hlen : datalen segment ≠ 0)
      (hfits : (datalen segment).toNat ≤ env.bufspace) (hwritten : 0 ≤ outputResult env state) :
      OutputOutcome env state
        ({ state with
            ackno := segment.seqno + datalen segment
            sentSegmentAttr := none
            receivedSegment := .freed }.log
          [.output segment (outputResult env state),
            .send (ackSegment state.seqno (segment.seqno + datalen segment)) env.sent₀])
  /-- The pointer is null or freed. -/
  | fault (hdead : ∀ segment, state.receivedSegment ≠ .live segment) :
      OutputOutcome env state (state.log [.fault])

/-- **Inversion of `ctcp_output`.** -/
theorem ctcpOutput_outcome (env : Env) (state : CtcpState) :
    OutputOutcome env state (ctcpOutput env state) := by
  unfold ctcpOutput
  split
  · rename_i segment hlive
    by_cases hroom : env.bufspace = 0
    · rw [if_pos hroom]
      exact OutputOutcome.noRoom segment hlive hroom
    · rw [if_neg hroom]
      by_cases hfits : (datalen segment).toNat ≤ env.bufspace
      · rw [if_pos hfits]
        by_cases hlen : datalen segment = 0
        · rw [if_pos hlen]
          exact OutputOutcome.empty segment hlive hroom hlen
        · rw [if_neg hlen]
          rcases Int.lt_or_le (outputResult env state) 0 with hwritten | hwritten
          · simpa [connOutput, hwritten, ctcpDestroy, CtcpState.log] using
              OutputOutcome.failed segment hlive hroom hlen hfits hwritten
          · have hwritten' : ¬ outputResult env state < 0 := by omega
            simpa [connOutput, hwritten', segmentSend_ack, destroyAckedSegment,
              freeReceivedSegment, CtcpState.log] using
              OutputOutcome.delivered segment hlive hroom hlen hfits hwritten
      · rw [if_neg hfits]
        exact OutputOutcome.kept segment hlive hroom (by omega)
  · rename_i hdead
    exact OutputOutcome.fault hdead

/-! ## `ctcp_receive` -/

/-- The branches of `ctcp_receive`, on a valid segment in host order. -/
inductive ReceiveOutcome (env : Env) (state : CtcpState) (segment : CtcpSegment) :
    CtcpState → Prop
  /-- `DATA_TRANSFER`: the segment is older than `ackno`. -/
  | stale (hconn : state.connState = .dataTransfer) (hold : segment.seqno < state.ackno) :
      ReceiveOutcome env state segment (state.log [.receive segment])
  /-- `DATA_TRANSFER`: a FIN, and our own FIN could not be sent. -/
  | passiveUnsent (hconn : state.connState = .dataTransfer)
      (hnew : state.ackno ≤ segment.seqno) (hfin : segment.flags &&& FIN ≠ 0)
      (hsent : env.sent₁ < 0) :
      ReceiveOutcome env state segment
        ({ state with
            conn.wroteEof := true
            ackno := segment.seqno + 1
            connState := .waitLastAck }.log
          [.receive segment, .outputEof, .acceptFin segment.seqno,
            .send (ackSegment state.seqno (segment.seqno + 1)) env.sent₀,
            .send (finSegment state.seqno (segment.seqno + 1)) env.sent₁])
  /-- `DATA_TRANSFER`: a FIN, answered by an ACK and by our own FIN. -/
  | passiveClose (hconn : state.connState = .dataTransfer)
      (hnew : state.ackno ≤ segment.seqno) (hfin : segment.flags &&& FIN ≠ 0)
      (hsent : 0 ≤ env.sent₁) :
      ReceiveOutcome env state segment
        ({ finSent { state with ackno := segment.seqno + 1 } with
            conn.wroteEof := true
            connState := .waitLastAck }.log
          [.receive segment, .outputEof, .acceptFin segment.seqno,
            .send (ackSegment state.seqno (segment.seqno + 1)) env.sent₀,
            .send (finSegment state.seqno (segment.seqno + 1)) env.sent₁])
  /-- `DATA_TRANSFER`: a bare ACK. -/
  | pureAck (hconn : state.connState = .dataTransfer)
      (hnew : state.ackno ≤ segment.seqno) (hfin : segment.flags &&& FIN = 0)
      (hack : segment.flags &&& ACK ≠ 0) (hlen : segment.len = UInt16.ofNat segmentHdrSize) :
      ReceiveOutcome env state segment
        ({ state with ackno := segment.seqno, sentSegmentAttr := none }.log [.receive segment])
  /-- `DATA_TRANSFER`: any other segment with the ACK flag goes to `ctcp_output`. -/
  | data (hconn : state.connState = .dataTransfer)
      (hnew : state.ackno ≤ segment.seqno) (hfin : segment.flags &&& FIN = 0)
      (hack : segment.flags &&& ACK ≠ 0) (hlen : segment.len ≠ UInt16.ofNat segmentHdrSize)
      (state' : CtcpState)
      (hout : OutputOutcome env
        ({ state with receivedSegment := .live segment }.log [.receive segment]) state') :
      ReceiveOutcome env state segment state'
  /-- `DATA_TRANSFER`: neither FIN nor ACK. -/
  | unflagged (hconn : state.connState = .dataTransfer)
      (hfin : segment.flags &&& FIN = 0) (hack : segment.flags &&& ACK = 0) :
      ReceiveOutcome env state segment (state.log [.receive segment])
  /-- `TEAR_DOWN`: ACK and FIN together. -/
  | closingFinAck (hconn : state.connState = .tearDown)
      (hack : segment.flags &&& ACK ≠ 0) (hfin : segment.flags &&& FIN ≠ 0) :
      ReceiveOutcome env state segment
        ({ state with connState := .waitLastAck }.log [.receive segment])
  /-- `TEAR_DOWN`: ACK without FIN. -/
  | closingAck (hconn : state.connState = .tearDown)
      (hack : segment.flags &&& ACK ≠ 0) (hfin : segment.flags &&& FIN = 0) :
      ReceiveOutcome env state segment
        ({ state with connState := .waitLastFin }.log [.receive segment])
  /-- `TEAR_DOWN`: FIN without ACK. -/
  | closingFin (hconn : state.connState = .tearDown)
      (hack : segment.flags &&& ACK = 0) (hfin : segment.flags &&& FIN ≠ 0) :
      ReceiveOutcome env state segment
        ({ state with conn.deleteMe := true, ackno := segment.seqno + 1 }.log
          [.receive segment, .acceptFin segment.seqno,
            .send (ackSegment state.seqno (segment.seqno + 1)) env.sent₀, .destroy])
  /-- `WAIT_LAST_FIN`: a FIN. -/
  | lastFin (hconn : state.connState = .waitLastFin) (hfin : segment.flags &&& FIN ≠ 0) :
      ReceiveOutcome env state segment
        ({ state with ackno := segment.seqno + 1, tim := 0, tdState := .waitDestroy }.log
          [.receive segment, .acceptFin segment.seqno,
            .send (ackSegment state.seqno (segment.seqno + 1)) env.sent₀])
  /-- `WAIT_LAST_ACK`: an ACK. -/
  | lastAck (hconn : state.connState = .waitLastAck) (hack : segment.flags &&& ACK ≠ 0) :
      ReceiveOutcome env state segment
        ({ state with conn.deleteMe := true }.log [.receive segment, .destroy])
  /-- A closing state that does not look at the flags this segment has. -/
  | ignored (hconn : state.connState ≠ .dataTransfer)
      (htd : state.connState = .tearDown →
        segment.flags &&& ACK = 0 ∧ segment.flags &&& FIN = 0)
      (hlf : state.connState = .waitLastFin → segment.flags &&& FIN = 0)
      (hla : state.connState = .waitLastAck → segment.flags &&& ACK = 0) :
      ReceiveOutcome env state segment (state.log [.receive segment])

theorem receiveDataTransfer_outcome (env : Env) (state : CtcpState) (segment : CtcpSegment)
    (hconn : state.connState = .dataTransfer) :
    ReceiveOutcome env state segment
      (receiveDataTransfer env (state.log [.receive segment]) segment) := by
  unfold receiveDataTransfer
  by_cases hold : segment.seqno < state.ackno
  · rw [if_pos (by exact hold)]
    exact ReceiveOutcome.stale hconn hold
  · have hnew : state.ackno ≤ segment.seqno := UInt32.not_lt.mp hold
    rw [if_neg (by exact hold)]
    by_cases hfin : segment.flags &&& FIN = 0
    · rw [if_neg (fun h => h hfin)]
      by_cases hack : segment.flags &&& ACK = 0
      · rw [if_neg (fun h => h hack)]
        exact ReceiveOutcome.unflagged hconn hfin hack
      · rw [if_pos hack]
        by_cases hlen : segment.len = UInt16.ofNat segmentHdrSize
        · rw [if_pos hlen]
          exact ReceiveOutcome.pureAck hconn hnew hfin hack hlen
        · rw [if_neg hlen]
          exact ReceiveOutcome.data hconn hnew hfin hack hlen _ (ctcpOutput_outcome env _)
    · rw [if_pos hfin]
      rcases Int.lt_or_le env.sent₁ 0 with hsent | hsent
      · simpa [connOutputEof, segmentSend_ack, segmentSend_fin_of_neg _ hsent,
          CtcpState.log] using ReceiveOutcome.passiveUnsent hconn hnew hfin hsent
      · simpa [connOutputEof, segmentSend_ack, segmentSend_fin _ hsent, finSent,
          CtcpState.log] using ReceiveOutcome.passiveClose hconn hnew hfin hsent

theorem receiveWaitLastFin_outcome (env : Env) (state : CtcpState) (segment : CtcpSegment)
    (hconn : state.connState = .waitLastFin) :
    ReceiveOutcome env state segment
      (receiveWaitLastFin env (state.log [.receive segment]) segment) := by
  unfold receiveWaitLastFin
  by_cases hfin : segment.flags &&& FIN = 0
  · rw [if_neg (fun h => h hfin)]
    exact ReceiveOutcome.ignored (by simp [hconn]) (by simp [hconn]) (fun _ => hfin)
      (by simp [hconn])
  · rw [if_pos hfin]
    simpa [segmentSend_ack, CtcpState.log] using ReceiveOutcome.lastFin hconn hfin

theorem receiveTearDown_outcome (env : Env) (state : CtcpState) (segment : CtcpSegment)
    (hconn : state.connState = .tearDown) :
    ReceiveOutcome env state segment
      (receiveTearDown env (state.log [.receive segment]) segment) := by
  unfold receiveTearDown
  by_cases hack : segment.flags &&& ACK = 0
  · rw [if_neg (fun h => h hack)]
    by_cases hfin : segment.flags &&& FIN = 0
    · -- the fall-through: `case WAIT_LAST_FIN` finds no FIN either
      rw [if_neg (fun h => h hfin), receiveWaitLastFin, if_neg (fun h => h hfin)]
      exact ReceiveOutcome.ignored (by simp [hconn]) (fun _ => ⟨hack, hfin⟩) (fun _ => hfin)
        (fun _ => hack)
    · rw [if_pos hfin]
      simpa [segmentSend_ack, ctcpDestroy, CtcpState.log] using
        ReceiveOutcome.closingFin hconn hack hfin
  · rw [if_pos hack]
    by_cases hfin : segment.flags &&& FIN = 0
    · rw [if_neg (fun h => h hfin)]
      exact ReceiveOutcome.closingAck hconn hack hfin
    · rw [if_pos hfin]
      exact ReceiveOutcome.closingFinAck hconn hack hfin

/-- **Inversion of `ctcp_receive`**, once the segment is valid. -/
theorem receiveSegment_outcome (env : Env) (state : CtcpState) (segment : CtcpSegment) :
    ReceiveOutcome env state segment
      (receiveSegment env (state.log [.receive segment]) segment) := by
  unfold receiveSegment
  cases hconn : state.connState with
  | dataTransfer => simpa [hconn] using receiveDataTransfer_outcome env state segment hconn
  | tearDown => simpa [hconn] using receiveTearDown_outcome env state segment hconn
  | waitLastFin => simpa [hconn] using receiveWaitLastFin_outcome env state segment hconn
  | waitLastAck =>
    simp only [CtcpState.log_connState, hconn, receiveWaitLastAck]
    by_cases hack : segment.flags &&& ACK = 0
    · rw [if_neg (fun h => h hack)]
      exact ReceiveOutcome.ignored (by simp [hconn]) (by simp [hconn]) (by simp [hconn])
        (fun _ => hack)
    · rw [if_pos hack]
      simpa [ctcpDestroy, CtcpState.log] using ReceiveOutcome.lastAck hconn hack
  | waitInput =>
    simp only [CtcpState.log_connState, hconn]
    exact ReceiveOutcome.ignored (by simp [hconn]) (by simp [hconn]) (by simp [hconn])
      (by simp [hconn])

/-! ## `retransmission_handler` -/

/-- What the timer does with the outstanding segment. -/
inductive RetransmitOutcome (state : CtcpState) : CtcpState → Prop
  | idle (hslot : state.sentSegmentAttr = none) : RetransmitOutcome state state
  /-- The timeout has not been reached. -/
  | waiting (attr : SegmentAttr) (hslot : state.sentSegmentAttr = some attr)
      (htime : attr.time + state.timer < state.rtTimeout) :
      RetransmitOutcome state
        { state with sentSegmentAttr := some { attr with time := attr.time + state.timer } }
  /-- The segment is sent again, and kept. -/
  | resent (attr : SegmentAttr) (hslot : state.sentSegmentAttr = some attr)
      (htime : state.rtTimeout ≤ attr.time + state.timer) (hless : attr.noOfTimes + 1 < 5) :
      RetransmitOutcome state
        ({ state with
            sentSegmentAttr :=
              some ⟨attr.noOfTimes + 1, attr.time + state.timer, attr.segment⟩ }.log
          [.resend attr.segment])
  /-- The segment is sent again for the last time, and forgotten. -/
  | givenUp (attr : SegmentAttr) (hslot : state.sentSegmentAttr = some attr)
      (htime : state.rtTimeout ≤ attr.time + state.timer) (hless : 5 ≤ attr.noOfTimes + 1) :
      RetransmitOutcome state
        ({ state with sentSegmentAttr := none }.log [.resend attr.segment])

theorem retransmitSegment_outcome (state : CtcpState) :
    RetransmitOutcome state (retransmitSegment state) := by
  unfold retransmitSegment
  split
  · rename_i hslot
    exact RetransmitOutcome.idle hslot
  · rename_i attr hslot
    by_cases htime : state.rtTimeout ≤ attr.time + state.timer
    · rw [if_pos htime]
      by_cases hless : 5 ≤ attr.noOfTimes + 1
      · rw [if_pos hless]
        exact RetransmitOutcome.givenUp attr hslot htime hless
      · rw [if_neg hless]
        exact RetransmitOutcome.resent attr hslot htime (UInt16.not_le.mp hless)
    · rw [if_neg htime]
      exact RetransmitOutcome.waiting attr hslot (UInt16.not_le.mp htime)

/-- The final wait ends at this tick. -/
def waitExpires (state : CtcpState) : Prop :=
  state.tdState = .waitDestroy ∧ state.rtTimeout.toNat * 50 ≤ (state.tim + state.timer).toNat

instance (state : CtcpState) : Decidable (waitExpires state) := by
  unfold waitExpires; infer_instance

/-- The timer of the final wait after a tick. -/
def tickTim (state : CtcpState) : UInt16 :=
  if state.tdState = .waitDestroy then state.tim + state.timer else state.tim

/-- The branches of `retransmission_handler`. -/
inductive TimerOutcome (state : CtcpState) : CtcpState → Prop
  | expired (hexp : waitExpires state) :
      TimerOutcome state
        ({ state with conn.deleteMe := true, tim := tickTim state }.log [.destroy])
  | running (hexp : ¬ waitExpires state) (state' : CtcpState)
      (hout : RetransmitOutcome { state with tim := tickTim state } state') :
      TimerOutcome state state'

/-- Sending again destroys nothing. -/
theorem RetransmitOutcome.quiet {state state' : CtcpState} {es : List Event}
    (h : RetransmitOutcome state state') (htrace : state'.trace = state.trace ++ es) :
    .destroy ∉ es ∧ state'.conn.deleteMe = state.conn.deleteMe := by
  cases h with
  | idle => exact ⟨by simp [List.append_right_eq_self.mp htrace.symm], rfl⟩
  | waiting => exact ⟨by simp [List.append_right_eq_self.mp htrace.symm], rfl⟩
  | resent =>
    rw [← List.append_cancel_left htrace]
    exact ⟨by simp, rfl⟩
  | givenUp =>
    rw [← List.append_cancel_left htrace]
    exact ⟨by simp, rfl⟩

/-- **Inversion of `retransmission_handler`.** -/
theorem retransmissionHandler_outcome (state : CtcpState) :
    TimerOutcome state (retransmissionHandler state) := by
  unfold retransmissionHandler
  split
  · rename_i htd
    have htim : tickTim state = state.tim + state.timer := by simp [tickTim, htd]
    by_cases hexp : state.rtTimeout.toNat * 50 ≤ (state.tim + state.timer).toNat
    · rw [if_pos (by exact hexp), ← htim]
      exact TimerOutcome.expired ⟨htd, hexp⟩
    · rw [if_neg (by exact hexp), ← htim]
      exact TimerOutcome.running (fun h => hexp h.2) _ (retransmitSegment_outcome _)
  all_goals
    rename_i htd
    have htim : tickTim state = state.tim := by simp [tickTim, htd]
    have hrun : ({ state with tim := tickTim state } : CtcpState) = state := by rw [htim]
    refine TimerOutcome.running (by simp [waitExpires, htd]) _ ?_
    rw [hrun]
    exact retransmitSegment_outcome state

/-! ## One call -/

/-- What a call leaves behind. -/
inductive StepOutcome (state : CtcpState) : Call → CtcpState → Prop
  | dead (call : Call) (hdead : state.conn.deleteMe = true) : StepOutcome state call state
  | read (input : Option Chunk) (sent : Int) (state' : CtcpState)
      (hlive : state.conn.deleteMe = false) (hout : ReadOutcome state input sent state') :
      StepOutcome state (.read input sent) state'
  | invalid (segment : CtcpSegment) (len : Nat) (env : Env) (hvalid : ¬ Valid segment len) :
      StepOutcome state (.receive segment len env) state
  | receive (segment : CtcpSegment) (len : Nat) (env : Env) (state' : CtcpState)
      (hlive : state.conn.deleteMe = false) (hvalid : Valid segment len)
      (hout : ReceiveOutcome env state (received segment) state') :
      StepOutcome state (.receive segment len env) state'
  | output (env : Env) (state' : CtcpState) (hlive : state.conn.deleteMe = false)
      (hout : OutputOutcome env state state') : StepOutcome state (.output env) state'
  | timer (state' : CtcpState) (hlive : state.conn.deleteMe = false)
      (hout : TimerOutcome state state') : StepOutcome state .timer state'

/-- **Inversion of `step`.** -/
theorem step_outcome (state : CtcpState) (call : Call) :
    StepOutcome state call (step state call) := by
  unfold step
  cases hdead : state.conn.deleteMe with
  | true => exact StepOutcome.dead call hdead
  | false =>
    cases call with
    | read input sent =>
      exact StepOutcome.read input sent _ hdead (ctcpRead_outcome state input sent)
    | receive segment len env =>
      by_cases hvalid : Valid segment len
      · have hstep : ctcpReceive env state segment len
            = receiveSegment env (state.log [.receive (received segment)]) (received segment) :=
          if_pos hvalid
        rw [if_neg Bool.false_ne_true]
        show StepOutcome state _ (ctcpReceive env state segment len)
        rw [hstep]
        exact StepOutcome.receive segment len env _ hdead hvalid
          (receiveSegment_outcome env state (received segment))
      · have hstep : ctcpReceive env state segment len = state := if_neg hvalid
        rw [if_neg Bool.false_ne_true]
        show StepOutcome state _ (ctcpReceive env state segment len)
        rw [hstep]
        exact StepOutcome.invalid segment len env hvalid
    | output env => exact StepOutcome.output env _ hdead (ctcpOutput_outcome env state)
    | timer => exact StepOutcome.timer _ hdead (retransmissionHandler_outcome state)

end Ctcp
