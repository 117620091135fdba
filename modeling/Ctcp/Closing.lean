/-
  Closing a connection: the FIN of the peer, and data after our own.

  1. **Every FIN is acknowledged** (`fin_acknowledged_iff`) — in `DATA_TRANSFER` and in
     `WAIT_LAST_FIN`.  In `WAIT_LAST_ACK`, and in `TEAR_DOWN` when the FIN carries the ACK flag,
     it is not.

  2. **Data after our FIN** (`closing_discards_data`).  In `TEAR_DOWN` and `WAIT_LAST_FIN` no
     payload is ever output, and in `TEAR_DOWN` any ACK counts as the one of our FIN.
-/
import Ctcp.Guards

set_option linter.unusedVariables false

namespace Ctcp

open Runs History

/-! ## Every FIN is acknowledged -/

/-- The call emits an ACK with this `ackno`. -/
def Acknowledges (state : CtcpState) (call : Call) (ackno : UInt32) : Prop :=
  ∃ reply sent, .send reply sent ∈ events state call ∧ isAck reply ∧ ntohl reply.ackno = ackno

theorem acknowledges_of {state : CtcpState} {call : Call} {ackno seqno : UInt32} {sent : Int}
    {es : List Event} (htrace : (step state call).trace = state.trace ++ es)
    (hmem : .send (ackSegment seqno ackno) sent ∈ es) : Acknowledges state call ackno := by
  rw [← events_eq htrace] at hmem
  exact ⟨_, sent, hmem, isAck_ackSegment _ _, ackSegment_ackno _ _⟩

theorem not_acknowledges_of {state : CtcpState} {call : Call} {ackno : UInt32} {es : List Event}
    (htrace : (step state call).trace = state.trace ++ es)
    (hno : ∀ reply sent, .send reply sent ∉ es) : ¬ Acknowledges state call ackno := by
  rintro ⟨reply, sent, hmem, -, -⟩
  rw [events_eq htrace] at hmem
  exact hno reply sent hmem

/-- **A FIN that is next in order, or has been accepted before, is acknowledged** in
    `DATA_TRANSFER` and `WAIT_LAST_FIN`, and in `TEAR_DOWN` when it comes without the ACK flag; in
    no other case. -/
theorem fin_acknowledged_iff (state : CtcpState) (segment : CtcpSegment) (len : Nat) (env : Env)
    (hreach : Reachable state) (hlive : state.conn.deleteMe = false) (hvalid : Valid segment len)
    (hfin : (received segment).flags &&& FIN ≠ 0)
    (hseq : (received segment).seqno = state.ackno ∨
      .acceptFin (received segment).seqno ∈ state.trace)
    (hsent₀ : 0 ≤ env.sent₀) (hsent₁ : 0 ≤ env.sent₁) :
    Acknowledges state (.receive segment len env) ((received segment).seqno + 1) ↔
      state.connState = .dataTransfer ∨ state.connState = .waitLastFin ∨
        (state.connState = .tearDown ∧ (received segment).flags &&& ACK = 0) := by
  have h := hreach.wf
  obtain ⟨state', hstep⟩ : ∃ state', step state (.receive segment len env) = state' := ⟨_, rfl⟩
  have hout := hstep ▸ step_outcome state (.receive segment len env)
  cases hout with
  | dead _ hdead => rw [hlive] at hdead; cases hdead
  | invalid _ _ _ hinvalid => exact absurd hvalid hinvalid
  | receive _ _ _ _ _ _ hout =>
    cases hout with
    | stale hconn hold =>
      -- neither in order nor, in `DATA_TRANSFER`, accepted before
      rcases hseq with hnext | hacc
      · rw [hnext] at hold
        exact absurd hold (UInt32.lt_irrefl _)
      · exact absurd ⟨_, hacc, trivial⟩ (h.noFin hconn).2
    | passiveUnsent _ _ _ hneg => exact absurd hsent₁ (by omega)
    | passiveClose hconn =>
      refine iff_of_true ?_ (Or.inl hconn)
      exact acknowledges_of (by rw [hstep]; rfl) (.tail _ (.tail _ (.tail _ (.head _))))
    | pureAck _ _ hnofin => exact absurd hnofin hfin
    | data _ _ hnofin => exact absurd hnofin hfin
    | unflagged _ hnofin => exact absurd hnofin hfin
    | closingFinAck hconn hack =>
      exact iff_of_false (not_acknowledges_of (by rw [hstep]; rfl) (by simp))
        (by simp [hconn, hack])
    | closingAck _ _ hnofin => exact absurd hnofin hfin
    | closingFin hconn hack =>
      refine iff_of_true ?_ (by simp [hconn, hack])
      exact acknowledges_of (by rw [hstep]; rfl) (.tail _ (.tail _ (.head _)))
    | lastFin hconn =>
      refine iff_of_true ?_ (Or.inr (Or.inl hconn))
      exact acknowledges_of (by rw [hstep]; rfl) (.tail _ (.tail _ (.head _)))
    | lastAck hconn =>
      exact iff_of_false (not_acknowledges_of (by rw [hstep]; rfl) (by simp)) (by simp [hconn])
    | ignored hconn htd hlf hla =>
      refine iff_of_false (not_acknowledges_of (by rw [hstep]; rfl) (by simp)) ?_
      rintro (hdata | hlast | ⟨hdown, -⟩)
      · exact hconn hdata
      · exact hfin (hlf hlast)
      · exact hfin (htd hdown).2

/-- The peer's FIN arrives in order while data are transferred. -/
theorem fin_acknowledged_first :
    Acknowledges (ctcpInit ctcpCfg) (.receive (finSegment 1 1) 20 Env.roomy) 2 ↔
      (ctcpInit ctcpCfg).connState = .dataTransfer ∨
        (ctcpInit ctcpCfg).connState = .waitLastFin ∨
        ((ctcpInit ctcpCfg).connState = .tearDown ∧
          (received (finSegment 1 1)).flags &&& ACK = 0) :=
  fin_acknowledged_iff (ctcpInit ctcpCfg) (finSegment 1 1) 20 Env.roomy ⟨ctcpCfg, [], rfl⟩
    (by decide) (by decide) (by decide) (Or.inl (by decide)) (by decide) (by decide)

/-- The peer's FIN comes again because our ACK of it was lost: it is not acknowledged. -/
theorem fin_not_acknowledged :
    ¬ Acknowledges (run step (ctcpInit ctcpCfg) [.arrival (finSegment 1 1)])
      (.receive (finSegment 1 1) 20 Env.roomy) 2 := by
  rintro ⟨reply, sent, hmem, -, -⟩
  have hevents : events (run step (ctcpInit ctcpCfg) [.arrival (finSegment 1 1)])
      (.receive (finSegment 1 1) 20 Env.roomy) = [.receive (received (finSegment 1 1))] := by
    decide
  rw [hevents] at hmem
  simp at hmem

/-! ## Data after our FIN -/

/-- The call outputs the payload of `segment`, in host order, and acknowledges it. -/
def Delivers (state : CtcpState) (call : Call) (segment : CtcpSegment) : Prop :=
  (∃ written, .output segment written ∈ events state call) ∧
    Acknowledges state call (segment.seqno + datalen segment)

/-- The call takes its segment for the acknowledgement of our FIN. -/
def CountsAsAck (state : CtcpState) (call : Call) : Prop :=
  state.connState = .tearDown ∧ (step state call).connState ≠ .tearDown

theorem not_delivers_of {state : CtcpState} {call : Call} {segment : CtcpSegment}
    {es : List Event} (htrace : (step state call).trace = state.trace ++ es)
    (hno : ∀ segment written, .output segment written ∉ es) : ¬ Delivers state call segment := by
  rintro ⟨⟨written, hmem⟩, -⟩
  rw [events_eq htrace] at hmem
  exact hno segment written hmem

/-- Outside `DATA_TRANSFER` no branch of `ctcp_receive` calls `conn_output` with a payload. -/
theorem noOutput_of_receive {env : Env} {state state' : CtcpState} {segment : CtcpSegment}
    (hdata : state.connState ≠ .dataTransfer) (hout : ReceiveOutcome env state segment state') :
    ∃ es, state'.trace = state.trace ++ es ∧ ∀ segment written, .output segment written ∉ es := by
  cases hout with
  | stale hconn => exact absurd hconn hdata
  | passiveUnsent hconn => exact absurd hconn hdata
  | passiveClose hconn => exact absurd hconn hdata
  | pureAck hconn => exact absurd hconn hdata
  | data hconn => exact absurd hconn hdata
  | unflagged hconn => exact absurd hconn hdata
  | closingFinAck => exact ⟨_, rfl, by simp⟩
  | closingAck => exact ⟨_, rfl, by simp⟩
  | closingFin => exact ⟨_, rfl, by simp⟩
  | lastFin => exact ⟨_, rfl, by simp⟩
  | lastAck => exact ⟨_, rfl, by simp⟩
  | ignored => exact ⟨_, rfl, by simp⟩

/-- `TEAR_DOWN` is left for the ACK flag, whatever the `ackno`. -/
theorem leaves_tearDown_iff {env : Env} {state state' : CtcpState} {segment : CtcpSegment}
    (hconn : state.connState = .tearDown) (hout : ReceiveOutcome env state segment state') :
    state'.connState ≠ .tearDown ↔ segment.flags &&& ACK ≠ 0 := by
  cases hout with
  | closingFinAck _ hack => exact iff_of_true (fun hsame => by cases hsame) hack
  | closingAck _ hack => exact iff_of_true (fun hsame => by cases hsame) hack
  | closingFin _ hack => exact iff_of_false (fun hmove => hmove hconn) (fun hne => hne hack)
  | ignored _ htd => exact iff_of_false (fun hmove => hmove hconn) (fun hne => hne (htd hconn).1)
  | stale hdata => rw [hconn] at hdata; cases hdata
  | passiveUnsent hdata => rw [hconn] at hdata; cases hdata
  | passiveClose hdata => rw [hconn] at hdata; cases hdata
  | pureAck hdata => rw [hconn] at hdata; cases hdata
  | data hdata => rw [hconn] at hdata; cases hdata
  | unflagged hdata => rw [hconn] at hdata; cases hdata
  | lastFin hlast => rw [hconn] at hlast; cases hlast
  | lastAck hlast => rw [hconn] at hlast; cases hlast

/-- **After our FIN no payload is delivered**: not in order, not with room for it, not before the
    peer's FIN either.  And in `TEAR_DOWN` any segment with the ACK flag counts as the
    acknowledgement of our FIN, whatever its `ackno`. -/
theorem closing_discards_data (state : CtcpState) (segment : CtcpSegment) (len : Nat) (env : Env)
    (hlive : state.conn.deleteMe = false)
    (hclosing : state.connState = .tearDown ∨ state.connState = .waitLastFin)
    (hvalid : Valid segment len) :
    ¬ Delivers state (.receive segment len env) (received segment) ∧
      (CountsAsAck state (.receive segment len env) ↔
        state.connState = .tearDown ∧ (received segment).flags &&& ACK ≠ 0) := by
  have hdata : state.connState ≠ .dataTransfer := by
    rcases hclosing with hconn | hconn <;> rw [hconn] <;> decide
  obtain ⟨state', hstep⟩ : ∃ state', step state (.receive segment len env) = state' := ⟨_, rfl⟩
  have hout := hstep ▸ step_outcome state (.receive segment len env)
  cases hout with
  | dead _ hdead => rw [hlive] at hdead; cases hdead
  | invalid _ _ _ hinvalid => exact absurd hvalid hinvalid
  | receive _ _ _ _ _ _ hout =>
    obtain ⟨es, htrace, hno⟩ := noOutput_of_receive hdata hout
    constructor
    · exact not_delivers_of (hstep ▸ htrace) hno
    · show state.connState = .tearDown ∧ (step state (.receive segment len env)).connState
        ≠ .tearDown ↔ _
      rw [hstep]
      exact and_congr_right (fun hconn => leaves_tearDown_iff hconn hout)

/-- Our FIN has just been sent; the peer, which has not seen it, sends one byte. -/
theorem closing_discards_byte :
    ¬ Delivers (run step (ctcpInit ctcpCfg) [.read none 20])
        (.receive (dataSegment 1 1 [9]) 21 Env.roomy) (received (dataSegment 1 1 [9])) ∧
      (CountsAsAck (run step (ctcpInit ctcpCfg) [.read none 20])
          (.receive (dataSegment 1 1 [9]) 21 Env.roomy) ↔
        (run step (ctcpInit ctcpCfg) [.read none 20]).connState = .tearDown ∧
          (received (dataSegment 1 1 [9])).flags &&& ACK ≠ 0) :=
  closing_discards_data _ _ _ _ (by decide) (Or.inl (by decide)) (by decide)

/-- The byte is in order and there is room for it, but it is neither output nor acknowledged, and
    its `ackno` 1 is taken for the acknowledgement of the FIN with sequence number 1. -/
theorem byte_after_fin_lost :
    let state := run step (ctcpInit ctcpCfg) [.read none 20]
    (received (dataSegment 1 1 [9])).seqno = state.ackno ∧
      ¬ Delivers state (.receive (dataSegment 1 1 [9]) 21 Env.roomy)
          (received (dataSegment 1 1 [9])) ∧
      CountsAsAck state (.receive (dataSegment 1 1 [9]) 21 Env.roomy) := by
  refine ⟨by decide, ?_, by decide, by decide⟩
  rintro ⟨⟨written, hmem⟩, -⟩
  have hevents : events (run step (ctcpInit ctcpCfg) [.read none 20])
      (.receive (dataSegment 1 1 [9]) 21 Env.roomy)
        = [.receive (received (dataSegment 1 1 [9]))] := by decide
  rw [hevents] at hmem
  simp at hmem

end Ctcp
