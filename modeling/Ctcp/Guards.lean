/-
  Conditions on a call, in terms of the state before it.

  Which segment a call works on, what that segment acknowledges, and which of the branches of
  `ctcp_receive` and `ctcp_output` it takes.  None of them looks at what the call computes: they
  are the vocabulary in which the results below say when the program does what it should.
-/
import Ctcp.Reach

set_option linter.unusedVariables false

namespace Ctcp

/-! ## What covers a segment -/

/-- One past the last sequence number of a segment in network order. -/
def endSeq (segment : CtcpSegment) : Nat :=
  (ntohl segment.seqno).toNat + if isFin segment then 1 else segment.data.length

/-- `segment`, received and in host order, acknowledges all of the sent segment `sent`. -/
def Covers (sent segment : CtcpSegment) : Prop :=
  segment.flags &&& ACK ≠ 0 ∧ endSeq sent ≤ segment.ackno.toNat

instance (sent segment : CtcpSegment) : Decidable (Covers sent segment) := by
  unfold Covers; infer_instance

/-- The valid segment that a call works on. -/
def processed (state : CtcpState) : Call → Option CtcpSegment
  | .receive segment len _ => if Valid segment len then some (received segment) else none
  | .output _ =>
    match state.receivedSegment with
    | .live segment => some segment
    | _ => none
  | _ => none

/-! ## Which branch is taken -/

/-- `ctcp_output` gets rid of the segment without destroying the connection. -/
def Consumes (env : Env) (state : CtcpState) (segment : CtcpSegment) : Prop :=
  env.bufspace ≠ 0 ∧ (datalen segment).toNat ≤ env.bufspace ∧
    (datalen segment = 0 ∨ 0 ≤ outputResult env state)

/-- `ctcp_receive` moves `ackno` past the FIN `segment`. -/
def AcceptsFin (state : CtcpState) (segment : CtcpSegment) : Prop :=
  segment.flags &&& FIN ≠ 0 ∧
    ((state.connState = .dataTransfer ∧ state.ackno ≤ segment.seqno) ∨
      (state.connState = .tearDown ∧ segment.flags &&& ACK = 0) ∨
      state.connState = .waitLastFin)

/-- `ctcp_receive` uses up a bare ACK or a payload. -/
def TakesData (env : Env) (state : CtcpState) (segment : CtcpSegment) : Prop :=
  state.connState = .dataTransfer ∧ state.ackno ≤ segment.seqno ∧
    segment.flags &&& FIN = 0 ∧ segment.flags &&& ACK ≠ 0 ∧
    (segment.len = UInt16.ofNat segmentHdrSize ∨ Consumes env state segment)

instance (env : Env) (state : CtcpState) (segment : CtcpSegment) :
    Decidable (Consumes env state segment) := by
  unfold Consumes; infer_instance

instance (state : CtcpState) (segment : CtcpSegment) : Decidable (AcceptsFin state segment) := by
  unfold AcceptsFin; infer_instance

instance (env : Env) (state : CtcpState) (segment : CtcpSegment) :
    Decidable (TakesData env state segment) := by
  unfold TakesData; infer_instance

end Ctcp
