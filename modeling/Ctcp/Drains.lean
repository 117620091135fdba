/-
  The network with output queues that are drained.

  `conn_drain` calls `ctcp_output` when an output queue has room again, and a segment that was kept
  is handed over then.  `Traffic` is `Network` with these calls, and `InPlace` the condition under
  which they keep the streams in order: the connection is still in `DATA_TRANSFER`, and the segment
  does not start beyond `ackno`.  `traffic_simulates` is `net_simulates` for them.
-/
import Ctcp.Network

set_option linter.unusedVariables false

namespace Ctcp

open Runs History Pipes

/-- **What can happen** when the output queues are drained, too. -/
def Traffic (net : Net) : Side × Call → Prop
  | (_, .output _) => True
  | l => Network net l

/-- A call that keeps the streams in order: as `InStep` says, and a segment that `ctcp_output` hands
    over is handed over in `DATA_TRANSFER` and does not start beyond `ackno`. -/
def TakesInStep (state : CtcpState) : Call → Prop
  | .output env =>
    ∀ segment, state.receivedSegment = .live segment → env.bufspace ≠ 0 →
      (datalen segment).toNat ≤ env.bufspace →
        state.connState = .dataTransfer ∧ segment.seqno ≤ state.ackno
  | call => InStep state call

/-- `TakesInStep`, for the endpoint that is called. -/
def InPlace (net : Net) : Side × Call → Prop
  | (side, call) => (net.at side).conn.deleteMe = false → TakesInStep (net.at side) call

/-- `InStep` asks nothing of a drain. -/
theorem TakesInStep.inStep {state : CtcpState} {call : Call} (h : TakesInStep state call) :
    InStep state call := by
  cases call with
  | output env => trivial
  | _ => exact h

/-- **The receiver's queue is drained.** -/
theorem Link.drained {x y : CtcpState} {env : Env} (h : Link x y)
    (hS : (inputBytes x.trace).length < 2 ^ 32)
    (horder : y.conn.deleteMe = false → TakesInStep y (.output env)) :
    Link x (step y (.output env)) := by
  have hout := step_outcome y (.output env)
  generalize step y (.output env) = y' at hout ⊢
  cases hout with
  | dead => exact h
  | output _ _ hlive hout =>
    have hstep := horder hlive
    have hconn : y'.connState = .dataTransfer → y.connState = .dataTransfer :=
      dataTransfer_of_output hout
    refine ⟨h.sender, ?_, fun hlive' hdata => ?_, fun hw hdata => h.late hw (hconn hdata)⟩
    · rcases outputs_of_output hout with hsame | ⟨segment, hkept, hroom, hfits, hadd⟩
      · rw [hsame]
        exact h.inOrder
      · -- the kept segment continues the output
        obtain ⟨hdata, hle⟩ := hstep segment hkept hroom hfits
        have hrec := h.receives hlive hdata
        obtain ⟨hslice, hge⟩ := hrec.kept segment hkept
        have hseq : segment.seqno = y.ackno := UInt32.le_antisymm hle hge
        rw [hadd]
        exact (slice_next hS hrec.output hslice (hseq.trans hrec.next)).1
    · refine receives_output hS (h.receives hlive (hconn hdata)) ?_ hout hlive'
      intro segment hkept hcons
      exact (hstep segment hkept hcons.1 hcons.2.1).2

/-- A call that can happen, below the end of the sequence space, and in turn. -/
structure TrafficSound (net : Net) (l : Side × Call) : Prop where
  traffic : Traffic net l
  below : Below net l
  order : InPlace net l

theorem netInv_traffic (net : Net) (l : Side × Call) (h : NetInv net) (hl : TrafficSound net l) :
    NetInv (netStep net l) := by
  obtain ⟨side, call⟩ := l
  have horder : Orderly net (side, call) := fun hlive => (hl.order hlive).inStep
  cases call with
  | output env =>
    have hpeer := h side.other
    rw [Side.other_other] at hpeer
    have hbelow := hl.below side.other
    rw [netStep_at_other] at hbelow
    have hsends : Link (step (net.at side) (.output env)) (net.at side.other) :=
      (h side).sends hpeer.sender horder (by rintro _ _ _ ⟨⟩)
    have harrives : Link (net.at side.other) (step (net.at side) (.output env)) :=
      hpeer.drained hbelow hl.order
    intro side'
    rcases Side.eq_or_other side side' with rfl | rfl
    · simpa using hsends
    · simpa using harrives
  | _ => exact netInv_step net _ h ⟨hl.traffic, hl.below, horder⟩

/-- **The network with its queues simulates two reliable streams.** -/
theorem traffic_simulates :
    Simulates netStep TrafficSound Duplex.step (fun _ _ => True) Agrees :=
  simulates_of_netInv netInv_traffic

end Ctcp
