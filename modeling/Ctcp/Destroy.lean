/-
  When a connection is destroyed, and when it may be.

  The comment on `ctcp_destroy` lists the conditions; `MayDestroy` is that list, read off the
  trace.  `ctcp_destroy` is called in five places, none of which checks all of it, so the law
  `destroy_documented` holds in the runs whose calls satisfy `ClosesInOrder`.

  The invariant `CloseInv` says, state by state, what is known while the connection is alive:

  * `TEAR_DOWN` — our FIN waits for its ACK: it is in the slot and nothing has answered it, or it
    was retransmitted five times and given up (`Waits`);
  * `WAIT_LAST_FIN` — everything we sent is acknowledged (`Settled`);
  * `WAIT_LAST_ACK` — the peer's FIN came after all its data (`ReceivedAll`), and either everything
    we sent is acknowledged, or our answer to that FIN still waits;
  * the final wait (`WAIT_DESTROY`) — the peer's FIN came after all its data.
-/
import Ctcp.Acknowledge

set_option linter.unusedVariables false

namespace Ctcp

open Runs History

/-! ## The documented conditions -/

/-- `conn_send` took this segment from `_segment_send`. -/
def Event.Sends (segment : CtcpSegment) : Event → Prop
  | .send segment' sent => segment' = segment ∧ 0 ≤ sent
  | _ => False

/-- The segment takes up sequence numbers. -/
def Occupies (segment : CtcpSegment) : Prop := isFin segment ∨ segment.data ≠ []

/-- A segment arrives that acknowledges all of `segment`. -/
def Event.Answers (segment : CtcpSegment) : Event → Prop
  | .receive segment' => Covers segment segment'
  | _ => False

/-- `conn_output` reported an error. -/
def Event.OutputFails : Event → Prop
  | .output _ written => written < 0
  | _ => False

attribute [simp] Event.Sends Event.Answers Event.OutputFails

/-- A FIN was received, and everything before it has been output. -/
def ReceivedAll (h : List Event) : Prop :=
  ∃ fin, .receive fin ∈ h ∧ fin.flags &&& FIN ≠ 0 ∧ Filled h fin.seqno.toNat

/-- Every segment sent has been acknowledged. -/
def Settled (h : List Event) : Prop :=
  ∀ segment, Occupies segment → Sees (Event.Sends segment) h → Sees (Event.Answers segment) h

/-- Since it was sent, `segment` has been sent again `times` times, and nothing has answered it. -/
def Unanswered (segment : CtcpSegment) (times : Nat) (h : List Event) : Prop :=
  Since (Event.Sends segment)
    (fun _ after => times ≤ after.count (.resend segment) ∧ ¬ Sees (Event.Answers segment) after) h

/-- **The conditions under which a connection may be destroyed.** -/
def MayDestroy (h : List Event) : Prop :=
  (ReceivedAll h ∧ .input none ∈ h ∧ Sees Event.SentFin h ∧ Settled h) ∨
    (∃ segment, Unanswered segment 5 h) ∨ Sees Event.OutputFails h

/-- `ctcp_destroy` is called only when it may be. -/
def DestroyDocumented (before : List Event) (e : Event) : Prop :=
  e = .destroy → MayDestroy before

theorem ReceivedAll.append {h : List Event} (hr : ReceivedAll h) (es : List Event) :
    ReceivedAll (h ++ es) := by
  obtain ⟨fin, hmem, hfin, hfilled⟩ := hr
  exact ⟨fin, List.mem_append_left _ hmem, hfin, hfilled.append es⟩

/-- Events that send nothing with sequence numbers settle nothing and unsettle nothing. -/
theorem Settled.append {h es : List Event} (hs : Settled h)
    (hes : ∀ e ∈ es, ∀ segment, e.Sends segment → ¬ Occupies segment) : Settled (h ++ es) := by
  intro segment hocc hsent
  rcases sees_append.mp hsent with hold | ⟨e, he, hnew⟩
  · exact (hs segment hocc hold).mono es
  · exact absurd hocc (hes e he segment hnew)

/-- Time passes and no answer comes. -/
theorem Unanswered.append {segment : CtcpSegment} {times times' : Nat} {h es : List Event}
    (hu : Unanswered segment times h) (hes : ∀ e ∈ es, ¬ e.Answers segment)
    (htimes : times' ≤ times + es.count (.resend segment)) :
    Unanswered segment times' (h ++ es) := by
  refine Since.append hu ?_
  rintro e after - ⟨hcount, hno⟩
  refine ⟨?_, ?_⟩
  · rw [List.count_append]
    omega
  · rw [sees_append]
    rintro (hold | ⟨e', he', hnew⟩)
    · exact hno hold
    · exact hes e' he' hnew

/-- A segment that has just been sent. -/
theorem unanswered_concat {segment : CtcpSegment} {sent : Int} (h : List Event)
    (hsent : 0 ≤ sent) : Unanswered segment 0 (h ++ [.send segment sent]) :=
  since_concat ⟨rfl, hsent⟩ ⟨Nat.zero_le _, by simp⟩

/-! ## The condition -/

/-- **The calls that close a connection in order.**  The first line is about the sequence numbers,
    which do not wrap; `NoGap` is about the data of the peer; the rest is about its ACKs. -/
def ClosesInOrder (state : CtcpState) (call : Call) : Prop :=
  state.conn.deleteMe = false →
    state.seqno.toNat + maxSegDataSize < 2 ^ 32 ∧ NoGap state call ∧
      match call with
      | .receive segment len _ =>
        Valid segment len →
          (state.connState = .tearDown →
            if (received segment).flags &&& ACK ≠ 0 then
              -- the ACK of our FIN covers it, and a FIN with it is in order
              state.seqno ≤ (received segment).ackno ∧
                ((received segment).flags &&& FIN ≠ 0 → (received segment).seqno ≤ state.ackno)
            else
              -- a FIN that acknowledges nothing comes when our own has been given up
              (received segment).flags &&& FIN ≠ 0 → state.sentSegmentAttr = none) ∧
          (state.connState = .waitLastAck → (received segment).flags &&& ACK ≠ 0 →
            state.conn.wroteEof = true →
              -- our FIN was sent, and the ACK covers it after the end of our input; or it does not
              -- cover it, and our FIN has been given up
              state.tearDownNums ≠ none ∧
                if state.seqno ≤ (received segment).ackno then state.conn.readEof = true
                else state.sentSegmentAttr = none)
      | .timer =>
        waitExpires state → state.connState = .tearDown → state.sentSegmentAttr = none
      | .output _ => False
      | .read .. => True

/-! ## The ends of the segments sent -/

@[simp] theorem endSeq_ackSegment (seqno ackno : UInt32) :
    endSeq (ackSegment seqno ackno) = seqno.toNat := by simp [endSeq]

@[simp] theorem endSeq_finSegment (seqno ackno : UInt32) :
    endSeq (finSegment seqno ackno) = seqno.toNat + 1 := by simp [endSeq]

@[simp] theorem endSeq_dataSegment (seqno ackno : UInt32) (buffer : List UInt8) :
    endSeq (dataSegment seqno ackno buffer) = seqno.toNat + buffer.length := by simp [endSeq]

theorem not_occupies_ackSegment (seqno ackno : UInt32) : ¬ Occupies (ackSegment seqno ackno) := by
  simp [Occupies]

/-- Without a wrap, the next sequence number after a FIN. -/
theorem toNat_add_one {seqno : UInt32} (h : seqno.toNat + maxSegDataSize < 2 ^ 32) :
    (seqno + 1).toNat = seqno.toNat + 1 := by
  have hsize : maxSegDataSize = 1440 := rfl
  rw [UInt32.toNat_add, UInt32.toNat_one]
  omega

/-- Without a wrap, the next sequence number after a chunk of data. -/
theorem toNat_add_length {seqno : UInt32} (h : seqno.toNat + maxSegDataSize < 2 ^ 32)
    (chunk : Chunk) :
    (seqno + UInt32.ofNat chunk.bytes.length).toNat = seqno.toNat + chunk.bytes.length := by
  have hfits := chunk.fits
  have hsize : maxSegDataSize = 1440 := rfl
  rw [UInt32.toNat_add, UInt32.toNat_ofNat']
  omega

/-- The sequence numbers of everything sent lie below `seqno`, those of the outstanding segment
    just below. -/
structure Ends (state : CtcpState) : Prop where
  sent : ∀ segment, Sees (Event.Sends segment) state.trace → endSeq segment ≤ state.seqno.toNat
  slot : ∀ attr, state.sentSegmentAttr = some attr → endSeq attr.segment = state.seqno.toNat

/-- A call that sends at most a bare ACK, and does not put a segment in the slot. -/
theorem Ends.quiet {state state' : CtcpState} {es : List Event} (h : Ends state)
    (htrace : state'.trace = state.trace ++ es) (hseq : state'.seqno = state.seqno)
    (hes : ∀ e ∈ es, ∀ segment, e.Sends segment → endSeq segment ≤ state.seqno.toNat)
    (hslot : ∀ attr', state'.sentSegmentAttr = some attr' →
      ∃ attr, state.sentSegmentAttr = some attr ∧ attr'.segment = attr.segment) : Ends state' where
  sent := by
    intro segment hsent
    rw [htrace, sees_append] at hsent
    rw [hseq]
    rcases hsent with hold | ⟨e, he, hnew⟩
    · exact h.sent segment hold
    · exact hes e he segment hnew
  slot := by
    intro attr' hattr'
    obtain ⟨attr, hattr, hseg⟩ := hslot attr' hattr'
    rw [hseq, hseg]
    exact h.slot attr hattr

/-- A call that ends with a new segment in the slot. -/
theorem Ends.sends {state state' : CtcpState} {es : List Event} {attr : SegmentAttr}
    (h : Ends state) (htrace : state'.trace = state.trace ++ es)
    (hslot : state'.sentSegmentAttr = some attr)
    (hseq : state'.seqno.toNat = endSeq attr.segment)
    (hle : state.seqno.toNat ≤ endSeq attr.segment)
    (hes : ∀ e ∈ es, ∀ segment, e.Sends segment →
      segment = attr.segment ∨ endSeq segment ≤ state.seqno.toNat) : Ends state' where
  sent := by
    intro segment hsent
    rw [htrace, sees_append] at hsent
    rw [hseq]
    rcases hsent with hold | ⟨e, he, hnew⟩
    · exact Nat.le_trans (h.sent segment hold) hle
    · rcases hes e he segment hnew with rfl | hend
      · exact Nat.le_refl _
      · exact Nat.le_trans hend hle
  slot := by
    intro attr' hattr'
    obtain rfl : attr = attr' := Option.some.inj (hslot.symm.trans hattr')
    exact hseq.symm

theorem ends_read {state state' : CtcpState} {input : Option Chunk} {sent : Int} (h : Ends state)
    (hwrap : state.seqno.toNat + maxSegDataSize < 2 ^ 32)
    (hout : ReadOutcome state input sent state') : Ends state' := by
  cases hout with
  | busy => exact h
  | eofUnsent _ _ hsent =>
    have hneg : ¬ 0 ≤ sent := by omega
    exact h.quiet rfl rfl (by simp [hneg]) (fun attr' h => ⟨attr', h, rfl⟩)
  | eofSent =>
    refine h.sends rfl rfl ?_ (by simp) (by simp)
    simpa using toNat_add_one hwrap
  | unsent chunk _ _ _ hsent =>
    have hneg : ¬ 0 ≤ sent := by omega
    exact h.quiet rfl rfl (by simp [hneg]) (fun attr' h => ⟨attr', h, rfl⟩)
  | noData => exact h.quiet rfl rfl (by simp) (fun attr' h => ⟨attr', h, rfl⟩)
  | data chunk =>
    refine h.sends rfl rfl ?_ (by simp) (by simp)
    simpa using toNat_add_length hwrap chunk

theorem ends_output {env : Env} {state state' : CtcpState} (h : Ends state)
    (hout : OutputOutcome env state state') : Ends state' := by
  cases hout with
  | noRoom => exact ⟨h.sent, h.slot⟩
  | kept => exact h
  | empty => exact ⟨h.sent, by simp⟩
  | failed => exact h.quiet rfl rfl (by simp) (fun attr' h => ⟨attr', h, rfl⟩)
  | delivered => exact h.quiet rfl rfl (by simp) (by simp)
  | fault => exact h.quiet rfl rfl (by simp) (fun attr' h => ⟨attr', h, rfl⟩)

theorem ends_receive {env : Env} {state state' : CtcpState} {segment : CtcpSegment} (h : Ends state)
    (hwrap : state.seqno.toNat + maxSegDataSize < 2 ^ 32)
    (hout : ReceiveOutcome env state segment state') : Ends state' := by
  cases hout with
  | passiveUnsent _ _ _ hsent =>
    have hneg : ¬ 0 ≤ env.sent₁ := by omega
    exact h.quiet rfl rfl (by simp [hneg]) (fun attr' h => ⟨attr', h, rfl⟩)
  | passiveClose =>
    refine h.sends rfl rfl ?_ (by simp) (by simp)
    simpa using toNat_add_one hwrap
  | pureAck => exact h.quiet rfl rfl (by simp) (by simp)
  | data _ _ _ _ _ _ hout =>
    refine ends_output ?_ hout
    exact h.quiet rfl rfl (by simp) (fun attr' h => ⟨attr', h, rfl⟩)
  | _ => exact h.quiet rfl rfl (by simp) (fun attr' h => ⟨attr', h, rfl⟩)

theorem ends_timer {state state' : CtcpState} (h : Ends state) (hout : TimerOutcome state state') :
    Ends state' := by
  cases hout with
  | expired => exact h.quiet rfl rfl (by simp) (fun attr' h => ⟨attr', h, rfl⟩)
  | running _ _ hout =>
    cases hout with
    | idle => exact ⟨h.sent, h.slot⟩
    | waiting attr hattr => exact ⟨h.sent, fun attr' h' => by cases h'; exact h.slot attr hattr⟩
    | resent attr hattr =>
      exact h.quiet rfl rfl (by simp) (fun attr' h' => by cases h'; exact ⟨attr, hattr, rfl⟩)
    | givenUp => exact h.quiet rfl rfl (by simp) (by simp)

/-! ## The invariant -/

/-- What waits for the peer: the segment in the slot, unanswered since it was sent, or, when the
    slot is empty, a segment that was given up. -/
structure Waits (state : CtcpState) : Prop where
  slot : ∀ attr, state.sentSegmentAttr = some attr →
    Unanswered attr.segment attr.noOfTimes.toNat state.trace
  empty : state.sentSegmentAttr = none →
    ∃ segment, endSeq segment = state.seqno.toNat ∧ Unanswered segment 5 state.trace

/-- What is known of a connection that is alive. -/
structure CloseInv (state : CtcpState) : Prop where
  wf : Wf state
  ack : AckInv state
  ends : Ends state
  eof : state.connState = .tearDown ∨ state.connState = .waitLastFin ∨
    state.tdState = .waitDestroy → state.conn.readEof = true ∧ state.tearDownNums ≠ none
  tearDown : state.connState = .tearDown → Waits state
  lastFin : state.connState = .waitLastFin → Settled state.trace
  lastAck : state.connState = .waitLastAck →
    ReceivedAll state.trace ∧
      ((state.conn.readEof = true ∧ state.tearDownNums ≠ none ∧ Settled state.trace) ∨
        (state.conn.wroteEof = true ∧ state.tdState ≠ .waitDestroy ∧
          (state.tearDownNums ≠ none → Waits state)))
  received : state.tdState = .waitDestroy → ReceivedAll state.trace

/-- In `DATA_TRANSFER` there is nothing more to know. -/
theorem closeInv_of_data {state : CtcpState} (hwf : Wf state) (hack : AckInv state)
    (hends : Ends state) (hconn : state.connState = .dataTransfer) : CloseInv state where
  wf := hwf
  ack := hack
  ends := hends
  eof := by
    have htd := (hwf.opened hconn).2.2
    simp [hconn, htd]
  tearDown := by simp [hconn]
  lastFin := by simp [hconn]
  lastAck := by simp [hconn]
  received := by
    have htd := (hwf.opened hconn).2.2
    simp [htd]

/-- A call in a closing state that sends at most a bare ACK and hears of no ACK. -/
structure Idle (state state' : CtcpState) (es : List Event) : Prop where
  trace : state'.trace = state.trace ++ es
  conn : state'.connState = state.connState
  wroteEof : state'.conn.wroteEof = state.conn.wroteEof
  readEof : state.conn.readEof = true → state'.conn.readEof = true
  td : state'.tdState = state.tdState
  nums : state'.tearDownNums = state.tearDownNums
  seqno : state'.seqno = state.seqno
  sends : ∀ e ∈ es, ∀ segment, e.Sends segment → ¬ Occupies segment
  answers : ∀ e ∈ es, ∀ segment, ¬ e.Answers segment

theorem CloseInv.idle {state state' : CtcpState} {es : List Event} (h : CloseInv state)
    (hidle : Idle state state' es) (hwf : Wf state') (hack : AckInv state') (hends : Ends state')
    (hwaits : Waits state → Waits state') : CloseInv state' where
  wf := hwf
  ack := hack
  ends := hends
  eof := by
    rw [hidle.conn, hidle.td, hidle.nums]
    intro hclosing
    obtain ⟨heof, hnums⟩ := h.eof hclosing
    exact ⟨hidle.readEof heof, hnums⟩
  tearDown := by
    rw [hidle.conn]
    exact fun hconn => hwaits (h.tearDown hconn)
  lastFin := by
    rw [hidle.conn, hidle.trace]
    exact fun hconn => (h.lastFin hconn).append hidle.sends
  lastAck := by
    rw [hidle.conn, hidle.trace, hidle.wroteEof, hidle.td, hidle.nums]
    intro hconn
    obtain ⟨hrec, hset⟩ := h.lastAck hconn
    refine ⟨hrec.append es, ?_⟩
    rcases hset with ⟨heof, hnums, hsettled⟩ | ⟨hwrote, htd, hwait⟩
    · exact Or.inl ⟨hidle.readEof heof, hnums, hsettled.append hidle.sends⟩
    · exact Or.inr ⟨hwrote, htd, fun hnums => hwaits (hwait hnums)⟩
  received := by
    rw [hidle.td, hidle.trace]
    exact fun htd => (h.received htd).append es

/-- The slot is left alone. -/
theorem Waits.append {state state' : CtcpState} {es : List Event} (h : Waits state)
    (htrace : state'.trace = state.trace ++ es) (hseq : state'.seqno = state.seqno)
    (hslot : state'.sentSegmentAttr = state.sentSegmentAttr)
    (hes : ∀ e ∈ es, ∀ segment, ¬ e.Answers segment) : Waits state' where
  slot := by
    rw [htrace, hslot]
    intro attr hattr
    exact (h.slot attr hattr).append (fun e he => hes e he _) (by omega)
  empty := by
    rw [htrace, hslot, hseq]
    intro hnone
    obtain ⟨segment, hend, hun⟩ := h.empty hnone
    exact ⟨segment, hend, hun.append (fun e he => hes e he _) (by omega)⟩

/-- A new segment waits. -/
theorem waits_sent {state : CtcpState} (h : List Event) {segment : CtcpSegment} {sent : Int}
    (hsent : 0 ≤ sent) (htrace : state.trace = h ++ [.send segment sent])
    (hslot : state.sentSegmentAttr = some ⟨0, 0, segment⟩) : Waits state where
  slot := by
    intro attr hattr
    obtain rfl := Option.some.inj (hslot.symm.trans hattr)
    rw [htrace]
    exact unanswered_concat h hsent
  empty := by
    intro hnone
    rw [hslot] at hnone
    cases hnone

/-! ## The invariant, callback by callback -/

theorem closeInv_read {state state' : CtcpState} {input : Option Chunk} {sent : Int}
    (h : CloseInv state) (hwrap : state.seqno.toNat + maxSegDataSize < 2 ^ 32)
    (hout : ReadOutcome state input sent state') : CloseInv state' := by
  have hwf := wf_read h.wf hout
  have hack := ackInv_read h.ack hout
  have hends := ends_read h.ends hwrap hout
  cases hout with
  | busy => exact h
  | eofUnsent hslot heof hsent =>
    have hneg : ¬ 0 ≤ sent := by omega
    refine h.idle ⟨rfl, rfl, rfl, fun _ => rfl, rfl, rfl, rfl, by simp [hneg], by simp⟩
      hwf hack hends ?_
    exact fun hwaits => hwaits.append rfl rfl rfl (by simp)
  | eofSent hslot heof hsent =>
    refine ⟨hwf, hack, hends, fun _ => ⟨rfl, by simp⟩, fun _ => ?_, by simp, by simp, ?_⟩
    · exact waits_sent (state.trace ++ [.input none]) hsent (by simp) rfl
    · exact fun htd => (h.received htd).append _
  | unsent chunk hslot heof hin hsent =>
    have hneg : ¬ 0 ≤ sent := by omega
    refine h.idle ⟨rfl, rfl, rfl, id, rfl, rfl, rfl, by simp [hneg], by simp⟩ hwf hack hends ?_
    exact fun hwaits => hwaits.append rfl rfl rfl (by simp)
  | noData chunk hslot heof hin hnil hsent =>
    refine h.idle ⟨rfl, rfl, rfl, id, rfl, rfl, rfl, ?_, by simp⟩ hwf hack hends ?_
    · simp [not_occupies_ackSegment]
    · exact fun hwaits => hwaits.append rfl rfl rfl (by simp)
  | data chunk hslot heof hin hne hsent =>
    -- the input has not ended, so this is `DATA_TRANSFER`, or `WAIT_LAST_ACK` before our end of
    -- input
    have hopen : ¬ (state.connState = .tearDown ∨ state.connState = .waitLastFin ∨
        state.tdState = .waitDestroy) := by
      intro hclosing
      have hclosed := (h.eof hclosing).1
      rw [heof] at hclosed
      cases hclosed
    obtain ⟨hdown, hlast, htd⟩ := by simpa only [not_or] using hopen
    refine ⟨hwf, hack, hends, fun hc => absurd hc hopen, fun hc => absurd hc hdown,
      fun hc => absurd hc hlast, fun hc => ?_, fun hc => absurd hc htd⟩
    obtain ⟨hrec, hset⟩ := h.lastAck hc
    refine ⟨hrec.append _, ?_⟩
    rcases hset with ⟨hclosed, -, -⟩ | ⟨hwrote, -, -⟩
    · rw [heof] at hclosed
      cases hclosed
    · refine Or.inr ⟨hwrote, htd, fun _ => ?_⟩
      exact waits_sent (state.trace ++ [.input (some chunk.bytes)]) hsent (by simp) rfl

/-- A covering ACK settles everything. -/
theorem settled_of_covering {state : CtcpState} {segment : CtcpSegment} (h : Ends state)
    (hack : segment.flags &&& ACK ≠ 0) (hcov : state.seqno ≤ segment.ackno) :
    Settled (state.trace ++ [.receive segment]) := by
  intro sent hocc hsent
  have hsent' : Sees (Event.Sends sent) state.trace := by simpa using hsent
  have hle : state.seqno.toNat ≤ segment.ackno.toNat := UInt32.le_iff_toNat_le.mp hcov
  have hanswer : Event.Answers sent (.receive segment) :=
    ⟨hack, Nat.le_trans (h.sent sent hsent') hle⟩
  exact sees_of_mem (by simp) hanswer

/-- A FIN in order comes after all the data. -/
theorem receivedAll_of_fin {state : CtcpState} {segment : CtcpSegment} (h : AckInv state)
    (hfin : segment.flags &&& FIN ≠ 0) (hseq : segment.seqno ≤ state.ackno) :
    ReceivedAll (state.trace ++ [.receive segment]) := by
  refine ⟨segment, by simp, hfin, ?_⟩
  have hle : segment.seqno.toNat ≤ state.ackno.toNat := UInt32.le_iff_toNat_le.mp hseq
  exact fun p hp hlt => (h.filled.append _) p hp (Nat.lt_of_lt_of_le hlt hle)

theorem closeInv_receive {env : Env} {state state' : CtcpState} {segment : CtcpSegment} {len : Nat}
    (h : CloseInv state) (hlive : state.conn.deleteMe = false) (hvalid : Valid segment len)
    (horder : ClosesInOrder state (.receive segment len env))
    (hout : ReceiveOutcome env state (received segment) state')
    (hlive' : state'.conn.deleteMe = false) : CloseInv state' := by
  obtain ⟨hwrap, hgap, hrule⟩ := horder hlive
  have hgap := hgap hvalid
  obtain ⟨hdown, hlast⟩ := hrule hvalid
  have hwf := wf_receive h.wf hout
  have hack := ackInv_receive h.ack hgap hout
  have hends := ends_receive h.ends hwrap hout
  cases hout with
  | stale hconn => exact closeInv_of_data hwf hack hends hconn
  | passiveUnsent hconn hnew hfin hsent =>
    have hseq := hgap (Or.inl ⟨hfin, Or.inl ⟨hconn, hnew⟩⟩)
    have hrec := receivedAll_of_fin h.ack hfin hseq
    obtain ⟨hnums, -, htd⟩ := h.wf.opened hconn
    refine ⟨hwf, hack, hends, by simp [htd], by simp, by simp, fun _ => ⟨?_, Or.inr ⟨rfl, ?_, ?_⟩⟩,
      by simp [htd]⟩
    · simpa using hrec.append _
    · simp [htd]
    · exact fun hn => absurd hnums hn
  | passiveClose hconn hnew hfin hsent =>
    have hseq := hgap (Or.inl ⟨hfin, Or.inl ⟨hconn, hnew⟩⟩)
    have hrec := receivedAll_of_fin h.ack hfin hseq
    have htd := (h.wf.opened hconn).2.2
    refine ⟨hwf, hack, hends, by simp [htd], by simp, by simp, fun _ => ⟨?_, Or.inr ⟨rfl, ?_, ?_⟩⟩,
      by simp [htd]⟩
    · simpa using hrec.append _
    · simp [htd]
    · intro _
      let es : List Event := [.receive (received segment), .outputEof,
        .acceptFin (received segment).seqno,
        .send (ackSegment state.seqno ((received segment).seqno + 1)) env.sent₀]
      exact waits_sent (state.trace ++ es) hsent (by simp [es]) rfl
  | pureAck hconn => exact closeInv_of_data hwf hack hends hconn
  | data hconn hnew hfin hackf hlen _ hout =>
    refine closeInv_of_data hwf hack hends ?_
    cases hout <;> exact hconn
  | unflagged hconn => exact closeInv_of_data hwf hack hends hconn
  | closingFinAck hconn hackf hfin =>
    have hrule := hdown hconn
    rw [if_pos hackf] at hrule
    obtain ⟨hcov, hseq⟩ := hrule
    have hset := settled_of_covering h.ends hackf hcov
    have hrec := receivedAll_of_fin h.ack hfin (hseq hfin)
    obtain ⟨heof, hnums⟩ := h.eof (Or.inl hconn)
    exact ⟨hwf, hack, hends, fun _ => ⟨heof, hnums⟩, by simp, by simp,
      fun _ => ⟨hrec, Or.inl ⟨heof, hnums, hset⟩⟩, fun _ => hrec⟩
  | closingAck hconn hackf hfin =>
    have hrule := hdown hconn
    rw [if_pos hackf] at hrule
    have hset := settled_of_covering h.ends hackf hrule.1
    exact ⟨hwf, hack, hends, fun _ => h.eof (Or.inl hconn), by simp, fun _ => hset, by simp,
      fun htd => (h.received htd).append _⟩
  | closingFin => cases hlive'
  | lastFin hconn hfin =>
    have hseq := hgap (Or.inl ⟨hfin, Or.inr (Or.inr hconn)⟩)
    have hrec := receivedAll_of_fin h.ack hfin hseq
    refine ⟨hwf, hack, hends, fun _ => h.eof (Or.inr (Or.inl hconn)), by simp [hconn],
      fun _ => ?_, by simp [hconn], fun _ => ?_⟩
    · exact (h.lastFin hconn).append (by simp [not_occupies_ackSegment])
    · simpa using hrec.append _
  | lastAck => cases hlive'
  | ignored hconn htd hlf hla =>
    by_cases hackf : (received segment).flags &&& ACK = 0
    · -- without the ACK flag it answers nothing
      have hno : ∀ e ∈ [Event.receive (received segment)], ∀ sent, ¬ e.Answers sent := by
        simp [Covers, hackf]
      refine h.idle ⟨rfl, rfl, rfl, id, rfl, rfl, rfl, by simp, hno⟩ hwf hack hends ?_
      exact fun hwaits => hwaits.append rfl rfl rfl hno
    · -- with it, only `WAIT_LAST_FIN` ignores the segment
      have hlast : state.connState = .waitLastFin := by
        cases hc : state.connState with
        | waitInput => exact absurd hc h.wf.started
        | dataTransfer => exact absurd hc hconn
        | tearDown => exact absurd (htd hc).1 hackf
        | waitLastAck => exact absurd (hla hc) hackf
        | waitLastFin => rfl
      exact ⟨hwf, hack, hends, fun _ => h.eof (Or.inr (Or.inl hlast)), by simp [hlast],
        fun _ => (h.lastFin hlast).append (by simp), by simp [hlast],
        fun htd => (h.received htd).append _⟩

theorem closeInv_timer {state state' : CtcpState} (h : CloseInv state)
    (hout : TimerOutcome state state') (hlive' : state'.conn.deleteMe = false) :
    CloseInv state' := by
  have hwf := wf_timer h.wf hout
  have hends := ends_timer h.ends hout
  have hack := ackInv_timer h.ack hout
  cases hout with
  | expired => cases hlive'
  | running _ _ hout =>
    cases hout with
    | idle =>
      refine h.idle ⟨(List.append_nil _).symm, rfl, rfl, id, rfl, rfl, rfl, by simp, by simp⟩
        hwf hack hends ?_
      exact fun hwaits => ⟨hwaits.slot, hwaits.empty⟩
    | waiting attr hattr =>
      refine h.idle ⟨(List.append_nil _).symm, rfl, rfl, id, rfl, rfl, rfl, by simp, by simp⟩
        hwf hack hends ?_
      refine fun hwaits => ⟨?_, by simp⟩
      rintro _ ⟨⟩
      exact hwaits.slot attr hattr
    | resent attr hattr _ hless =>
      refine h.idle ⟨rfl, rfl, rfl, id, rfl, rfl, rfl, by simp, by simp⟩ hwf hack hends ?_
      refine fun hwaits => ⟨?_, by simp⟩
      rintro _ ⟨⟩
      refine (hwaits.slot attr hattr).append (by simp) ?_
      have htimes := noOfTimes_succ (h.wf.slot attr hattr).2
      rw [List.count_singleton_self]
      show (attr.noOfTimes + 1).toNat ≤ attr.noOfTimes.toNat + 1
      omega
    | givenUp attr hattr _ hless =>
      refine h.idle ⟨rfl, rfl, rfl, id, rfl, rfl, rfl, by simp, by simp⟩ hwf hack hends ?_
      refine fun hwaits => ⟨by simp, fun _ => ?_⟩
      refine ⟨attr.segment, h.ends.slot attr hattr, (hwaits.slot attr hattr).append (by simp) ?_⟩
      have htimes := noOfTimes_succ (h.wf.slot attr hattr).2
      have hge : 5 ≤ (attr.noOfTimes + 1).toNat := UInt16.le_iff_toNat_le.mp hless
      rw [List.count_singleton_self]
      omega

/-! ## Every call of `ctcp_destroy` -/

/-- Events among which `ctcp_destroy` is not. -/
theorem destroyDocumented_append {h es : List Event} (hlaw : Always DestroyDocumented h)
    (hes : .destroy ∉ es) : Always DestroyDocumented (h ++ es) :=
  always_append.mpr ⟨hlaw, alwaysFrom_of_forall (fun _ e he hd => absurd (hd ▸ he) hes)⟩

/-- Events that end with a justified `ctcp_destroy`. -/
theorem destroyDocumented_concat {h es : List Event} (hlaw : Always DestroyDocumented h)
    (hes : .destroy ∉ es) (hmay : MayDestroy (h ++ es)) :
    Always DestroyDocumented (h ++ (es ++ [.destroy])) := by
  rw [← List.append_assoc]
  exact always_append.mpr ⟨destroyDocumented_append hlaw hes, fun _ => hmay, trivial⟩

theorem documented_output {env : Env} {state state' : CtcpState}
    (hlaw : Always DestroyDocumented state.trace) (hout : OutputOutcome env state state') :
    Always DestroyDocumented state'.trace := by
  cases hout with
  | noRoom => exact hlaw
  | kept => exact hlaw
  | empty => exact hlaw
  | failed segment hlive hroom hlen hfits hwritten =>
    have hmay : MayDestroy (state.trace ++ [.output segment (outputResult env state)]) :=
      Or.inr (Or.inr (by simpa using Or.inr hwritten))
    exact destroyDocumented_concat hlaw (by simp) hmay
  | delivered => exact destroyDocumented_append hlaw (by simp)
  | fault => exact destroyDocumented_append hlaw (by simp)

/-- The documented conditions hold where `ctcp_receive` destroys the connection. -/
theorem documented_receive {env : Env} {state state' : CtcpState} {segment : CtcpSegment}
    {len : Nat} (h : CloseInv state) (hlive : state.conn.deleteMe = false)
    (hvalid : Valid segment len) (horder : ClosesInOrder state (.receive segment len env))
    (hlaw : Always DestroyDocumented state.trace)
    (hout : ReceiveOutcome env state (received segment) state') :
    Always DestroyDocumented state'.trace := by
  obtain ⟨hwrap, hgap, hrule⟩ := horder hlive
  obtain ⟨hdown, hlast⟩ := hrule hvalid
  cases hout with
  | data _ _ _ _ _ _ hout =>
    exact documented_output (destroyDocumented_append hlaw (by simp)) hout
  | closingFin hconn hackf hfin =>
    -- our own FIN has been given up, and this segment is no answer to it
    have hslot : state.sentSegmentAttr = none := by
      have hrule := hdown hconn
      rw [if_neg (fun hne => hne hackf)] at hrule
      exact hrule hfin
    obtain ⟨sent, -, hun⟩ := (h.tearDown hconn).empty hslot
    let es : List Event := [.receive (received segment), .acceptFin (received segment).seqno,
      .send (ackSegment state.seqno ((received segment).seqno + 1)) env.sent₀]
    have hun' : Unanswered sent 5 (state.trace ++ es) :=
      hun.append (by simp [es, Covers, hackf]) (by omega)
    exact destroyDocumented_concat hlaw (by simp [es]) (Or.inr (Or.inl ⟨sent, hun'⟩))
  | lastAck hconn hackf =>
    have hmay : MayDestroy (state.trace ++ [.receive (received segment)]) := by
      obtain ⟨hrec, hset⟩ := h.lastAck hconn
      have hclosed : ∀ hs : Settled (state.trace ++ [.receive (received segment)]),
          state.conn.readEof = true → state.tearDownNums ≠ none →
          MayDestroy (state.trace ++ [.receive (received segment)]) := by
        intro hs heof hnums
        refine Or.inl ⟨hrec.append _, ?_, (h.wf.closed.mp hnums).mono _, hs⟩
        exact List.mem_append_left _ (h.wf.eof.mp heof)
      rcases hset with ⟨heof, hnums, hsettled⟩ | ⟨hwrote, -, hwait⟩
      · exact hclosed (hsettled.append (by simp)) heof hnums
      · obtain ⟨hnums, hrule⟩ := hlast hconn hackf hwrote
        by_cases hcov : state.seqno ≤ (received segment).ackno
        · rw [if_pos hcov] at hrule
          exact hclosed (settled_of_covering h.ends hackf hcov) hrule hnums
        · -- the ACK falls short of what was given up
          rw [if_neg hcov] at hrule
          obtain ⟨sent, hend, hun⟩ := (hwait hnums).empty hrule
          have hshort : ¬ endSeq sent ≤ (received segment).ackno.toNat := by
            rw [hend, ← UInt32.le_iff_toNat_le]
            exact hcov
          have hun' : Unanswered sent 5 (state.trace ++ [.receive (received segment)]) :=
            hun.append (by simp [Covers, hshort]) (by omega)
          exact Or.inr (Or.inl ⟨sent, hun'⟩)
    exact destroyDocumented_concat hlaw (by simp) hmay
  | _ => exact destroyDocumented_append hlaw (by simp)

/-- The documented conditions hold where the timer destroys the connection. -/
theorem documented_timer {state state' : CtcpState} (h : CloseInv state)
    (hlive : state.conn.deleteMe = false) (horder : ClosesInOrder state .timer)
    (hlaw : Always DestroyDocumented state.trace) (hout : TimerOutcome state state') :
    Always DestroyDocumented state'.trace := by
  cases hout with
  | expired hexp =>
    have htd := hexp.1
    have hmay : MayDestroy state.trace := by
      obtain ⟨heof, hnums⟩ := h.eof (Or.inr (Or.inr htd))
      have hclosed : Settled state.trace → MayDestroy state.trace := fun hs =>
        Or.inl ⟨h.received htd, h.wf.eof.mp heof, h.wf.closed.mp hnums, hs⟩
      cases hconn : state.connState with
      | waitInput => exact absurd hconn h.wf.started
      | dataTransfer =>
        rw [(h.wf.opened hconn).2.2] at htd
        cases htd
      | tearDown =>
        have hslot := (horder hlive).2.2 hexp hconn
        obtain ⟨sent, -, hun⟩ := (h.tearDown hconn).empty hslot
        exact Or.inr (Or.inl ⟨sent, hun⟩)
      | waitLastFin => exact hclosed (h.lastFin hconn)
      | waitLastAck =>
        rcases (h.lastAck hconn).2 with ⟨-, -, hs⟩ | ⟨-, htd', -⟩
        · exact hclosed hs
        · exact absurd htd htd'
    exact always_append.mpr ⟨hlaw, fun _ => hmay, trivial⟩
  | running _ _ hout =>
    cases hout with
    | idle => exact hlaw
    | waiting => exact hlaw
    | resent => exact destroyDocumented_append hlaw (by simp)
    | givenUp => exact destroyDocumented_append hlaw (by simp)

/-- The law so far, and the invariant while the connection is alive. -/
structure DestroyInv (state : CtcpState) : Prop where
  law : Always DestroyDocumented state.trace
  alive : state.conn.deleteMe = false → CloseInv state

theorem destroyInv_init (cfg : CtcpConfig) : DestroyInv (ctcpInit cfg) where
  law := trivial
  alive := fun _ => closeInv_of_data (wf_init cfg) (ackInv_init cfg)
    ⟨by simp [ctcpInit], by simp [ctcpInit]⟩ rfl

theorem destroyInv_step (state : CtcpState) (call : Call) (h : DestroyInv state)
    (horder : ClosesInOrder state call) : DestroyInv (step state call) := by
  have hout := step_outcome state call
  generalize step state call = state' at hout ⊢
  cases hout with
  | dead => exact h
  | read input sent _ hlive hout =>
    have hinv := h.alive hlive
    refine ⟨?_, fun _ => closeInv_read hinv (horder hlive).1 hout⟩
    cases hout with
    | busy => exact h.law
    | _ => exact destroyDocumented_append h.law (by simp)
  | invalid => exact h
  | receive segment len env _ hlive hvalid hout =>
    have hinv := h.alive hlive
    exact ⟨documented_receive hinv hlive hvalid horder h.law hout,
      closeInv_receive hinv hlive hvalid horder hout⟩
  | output _ _ hlive => exact (horder hlive).2.2.elim
  | timer _ hlive hout =>
    have hinv := h.alive hlive
    exact ⟨documented_timer hinv hlive horder h.law hout, closeInv_timer hinv hout⟩

/-- **A connection is destroyed only under the documented conditions**, in every run whose calls
    close it in order. -/
theorem destroy_documented (cfg : CtcpConfig) (calls : List Call)
    (horder : Along step ClosesInOrder (ctcpInit cfg) calls) :
    Always DestroyDocumented (run step (ctcpInit cfg) calls).trace :=
  (horder.invariant destroyInv_step (destroyInv_init cfg)).law

/-- The input ends but `conn_send` fails, the peer closes, and its ACK covers our FIN. -/
theorem destroy_documented_passive :
    Always DestroyDocumented (run step (ctcpInit ctcpCfg)
      [.read none (-1), .arrival (finSegment 1 1), .arrival (ackSegment 2 2)]).trace := by
  refine destroy_documented ctcpCfg _ ⟨fun _ => ⟨by decide, trivial, trivial⟩, fun _ => ?_,
    fun _ => ?_, trivial⟩
  · exact ⟨by decide, fun _ _ => by decide, fun _ => ⟨by decide, by decide⟩⟩
  · exact ⟨by decide, fun _ _ => by decide, fun _ => ⟨by decide, by decide⟩⟩

/-- Both sides close at once: the peer's FIN, which acknowledges nothing, destroys the connection
    although our FIN has not been acknowledged. -/
theorem destroyed_unacknowledged :
    ¬ Always DestroyDocumented (run step (ctcpInit ctcpCfg)
      [.read none 20, .arrival (finSegment 1 1)]).trace := by
  intro h
  have htrace : (run step (ctcpInit ctcpCfg) [.read none 20, .arrival (finSegment 1 1)]).trace
      = [.input none, .send (finSegment 1 1) 20, .receive (received (finSegment 1 1)),
          .acceptFin 1, .send (ackSegment 2 2) 20] ++ .destroy :: [] := by decide
  rcases (htrace ▸ h).at rfl with ⟨-, -, -, hset⟩ | ⟨segment, hun⟩ | hfail
  · -- the FIN takes up a sequence number, and nothing covers it
    have hanswer := hset (finSegment 1 1) (Or.inl (by decide)) (by simp)
    have hnone : ¬ Covers (finSegment 1 1) (received (finSegment 1 1)) := by decide
    simp [hnone] at hanswer
  · obtain ⟨before, e, after, heq, -, hcount, -⟩ := hun
    have hzero : after.count (.resend segment) = 0 := by
      rw [List.count_eq_zero]
      intro hmem
      have hmem' : Event.resend segment ∈ before ++ e :: after :=
        List.mem_append_right _ (List.mem_cons_of_mem _ hmem)
      rw [← heq] at hmem'
      simp at hmem'
    omega
  · simp at hfail

end Ctcp
