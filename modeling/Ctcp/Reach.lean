/-
  Reachable states of a connection, and what holds in all of them.

  A connection starts in `ctcpInit cfg` and makes any calls in any order, with any answers of the
  library.  Where `conn_drain` calls `ctcp_output` on a null or freed `received_segment` the C
  program has no defined behaviour; the model records `fault` and goes on, so what is proved of
  all runs is proved of the runs without a fault.

  `Wf` is the invariant every result below starts from: what may stand in the slot of the
  outstanding segment, what `DATA_TRANSFER` excludes, and what `read_eof` and `tear_down_nums`
  record of the past.
-/
import Ctcp.Outcome
import Ctcp.Lib.History

set_option linter.unusedVariables false

namespace Ctcp

open Runs History

/-! ## Runs -/

/-- The states a connection can be in. -/
def Reachable (state : CtcpState) : Prop :=
  ∃ cfg calls, run step (ctcpInit cfg) calls = state

/-- `conn_send` took a FIN of `_segment_send`. -/
def Event.SentFin : Event → Prop
  | .send segment sent => isFin segment ∧ 0 ≤ sent
  | _ => False

/-- `ackno` was moved past a FIN. -/
def Event.AcceptedFin : Event → Prop
  | .acceptFin _ => True
  | _ => False

/-- The segment that leaves with this event, for the first time or again. -/
def Event.emitted : Event → Option CtcpSegment
  | .send segment sent => if 0 ≤ sent then some segment else none
  | .resend segment => some segment
  | _ => none

attribute [simp] Event.SentFin Event.AcceptedFin Event.emitted

/-- A destroyed connection stays as it is. -/
theorem run_dead {state : CtcpState} (hdead : state.conn.deleteMe = true) (calls : List Call) :
    run step state calls = state := by
  induction calls with
  | nil => rfl
  | cons call calls ih =>
    have hstep : step state call = state := by simp [step, hdead]
    rw [run, hstep]
    exact ih

/-! ## The trace of one call -/

theorem trace_of_output {env : Env} {state state' : CtcpState}
    (hout : OutputOutcome env state state') : state.trace <+: state'.trace := by
  cases hout with
  | noRoom => exact List.prefix_refl _
  | kept => exact List.prefix_refl _
  | empty => exact List.prefix_refl _
  | failed => exact List.prefix_append _ _
  | delivered => exact List.prefix_append _ _
  | fault => exact List.prefix_append _ _

/-- The trace only grows. -/
theorem trace_of_step (state : CtcpState) (call : Call) :
    state.trace <+: (step state call).trace := by
  have hout := step_outcome state call
  generalize step state call = state' at hout ⊢
  cases hout with
  | dead => exact List.prefix_refl _
  | read _ _ _ _ hout =>
    cases hout with
    | busy => exact List.prefix_refl _
    | _ => exact List.prefix_append _ _
  | invalid => exact List.prefix_refl _
  | receive _ _ _ _ _ _ hout =>
    cases hout with
    | data _ _ _ _ _ _ hout => exact (List.prefix_append _ _).trans (trace_of_output hout)
    | _ => exact List.prefix_append _ _
  | output _ _ _ hout => exact trace_of_output hout
  | timer _ _ hout =>
    cases hout with
    | expired => exact List.prefix_append _ _
    | running _ _ hout =>
      cases hout with
      | idle => exact List.prefix_refl _
      | waiting => exact List.prefix_refl _
      | resent => exact List.prefix_append _ _
      | givenUp => exact List.prefix_append _ _

/-- What one call adds to the trace. -/
def events (state : CtcpState) (call : Call) : List Event :=
  (step state call).trace.drop state.trace.length

theorem step_trace (state : CtcpState) (call : Call) :
    (step state call).trace = state.trace ++ events state call :=
  (List.prefix_iff_eq_append.mp (trace_of_step state call)).symm

theorem events_eq {state : CtcpState} {call : Call} {es : List Event}
    (h : (step state call).trace = state.trace ++ es) : events state call = es := by
  rw [events, h, List.drop_left]

/-! ## The invariant of every connection -/

/-- What the slot `sent_segment_attr` can hold when the next sequence number is `seqno`: a FIN, or
    between 1 and 1440 bytes of data, ending just before `seqno`. -/
inductive Outstanding (seqno : UInt32) : CtcpSegment → Prop
  | fin (start ackno : UInt32) (hend : seqno = start + 1) :
      Outstanding seqno (finSegment start ackno)
  | data (start ackno : UInt32) (buffer : List UInt8) (hne : buffer ≠ [])
      (hle : buffer.length ≤ maxSegDataSize) (hend : seqno = start + UInt32.ofNat buffer.length) :
      Outstanding seqno (dataSegment start ackno buffer)

/-- The invariant of every connection. -/
structure Wf (state : CtcpState) : Prop where
  slot : ∀ attr, state.sentSegmentAttr = some attr →
    Outstanding state.seqno attr.segment ∧ attr.noOfTimes < 5
  started : state.connState ≠ .waitInput
  opened : state.connState = .dataTransfer →
    state.tearDownNums = none ∧ state.conn.wroteEof = false ∧ state.tdState = .notTeardown
  noFin : state.connState = .dataTransfer →
    .outputEof ∉ state.trace ∧ ¬ Sees Event.AcceptedFin state.trace
  eof : state.conn.readEof = true ↔ .input none ∈ state.trace
  closed : state.tearDownNums ≠ none ↔ Sees Event.SentFin state.trace

/-- The attempt counter does not wrap. -/
theorem noOfTimes_succ {times : UInt16} (h : times < 5) : (times + 1).toNat = times.toNat + 1 := by
  have hlt : times.toNat < 5 := UInt16.lt_iff_toNat_lt.mp h
  rw [UInt16.toNat_add, UInt16.toNat_one]
  omega

theorem wf_init (cfg : CtcpConfig) : Wf (ctcpInit cfg) := by
  refine ⟨?_, ?_, ?_, ?_, ?_, ?_⟩ <;> simp [ctcpInit]

theorem wf_read {state state' : CtcpState} {input : Option Chunk} {sent : Int} (h : Wf state)
    (hout : ReadOutcome state input sent state') : Wf state' := by
  obtain ⟨hslot, hstart, hopen, hnofin, heof, hclosed⟩ := h
  cases hout with
  | busy attr => exact ⟨hslot, hstart, hopen, hnofin, heof, hclosed⟩
  | eofUnsent hnone _ hsent =>
    have hneg : ¬ 0 ≤ sent := by omega
    exact ⟨by simp [hnone], hstart, hopen, by simpa using hnofin, by simp,
      by simpa [hneg] using hclosed⟩
  | eofSent hnone _ hsent =>
    refine ⟨?_, by simp, by simp, by simp, by simp, by simp [hsent]⟩
    rintro attr ⟨⟩
    exact ⟨.fin _ _ rfl, by simp⟩
  | unsent chunk hnone _ _ hsent =>
    exact ⟨by simp [hnone], hstart, hopen, by simpa using hnofin, by simpa using heof,
      by simpa using hclosed⟩
  | noData chunk hnone =>
    exact ⟨by simp [hnone], hstart, hopen, by simpa using hnofin, by simpa using heof,
      by simpa using hclosed⟩
  | data chunk hnone _ _ hne =>
    refine ⟨?_, hstart, hopen, by simpa using hnofin, by simpa using heof, by simpa using hclosed⟩
    rintro attr ⟨⟩
    exact ⟨.data _ _ _ hne chunk.fits rfl, by simp⟩

theorem wf_output {env : Env} {state state' : CtcpState} (h : Wf state)
    (hout : OutputOutcome env state state') : Wf state' := by
  obtain ⟨hslot, hstart, hopen, hnofin, heof, hclosed⟩ := h
  cases hout with
  | noRoom segment => exact ⟨hslot, hstart, hopen, hnofin, heof, hclosed⟩
  | kept segment => exact ⟨hslot, hstart, hopen, hnofin, heof, hclosed⟩
  | empty segment => exact ⟨by simp, hstart, hopen, hnofin, heof, hclosed⟩
  | failed segment =>
    exact ⟨hslot, hstart, hopen, by simpa using hnofin, by simpa using heof, by simpa using hclosed⟩
  | delivered segment =>
    exact ⟨by simp, hstart, hopen, by simpa using hnofin, by simpa using heof,
      by simpa using hclosed⟩
  | fault =>
    exact ⟨hslot, hstart, hopen, by simpa using hnofin, by simpa using heof, by simpa using hclosed⟩

/-- A segment with data arrives. -/
theorem wf_arrival {state : CtcpState} (h : Wf state) (segment : CtcpSegment) :
    Wf ({ state with receivedSegment := .live segment }.log [.receive segment]) := by
  obtain ⟨hslot, hstart, hopen, hnofin, heof, hclosed⟩ := h
  exact ⟨hslot, hstart, hopen, by simpa using hnofin, by simpa using heof,
    by simpa using hclosed⟩

theorem wf_receive {env : Env} {state state' : CtcpState} {segment : CtcpSegment} (h : Wf state)
    (hout : ReceiveOutcome env state segment state') : Wf state' := by
  have h' := h
  obtain ⟨hslot, hstart, hopen, hnofin, heof, hclosed⟩ := h'
  cases hout with
  | stale hconn =>
    exact ⟨hslot, hstart, hopen, by simpa using hnofin, by simpa using heof, by simpa using hclosed⟩
  | passiveUnsent hconn _ _ hsent =>
    have hneg : ¬ 0 ≤ env.sent₁ := by omega
    exact ⟨hslot, by simp, by simp, by simp, by simpa using heof, by simpa [hneg] using hclosed⟩
  | passiveClose hconn _ _ hsent =>
    refine ⟨?_, by simp, by simp, by simp, by simpa using heof, by simp [hsent]⟩
    rintro attr ⟨⟩
    exact ⟨.fin _ _ rfl, by simp⟩
  | pureAck hconn =>
    exact ⟨by simp, hstart, hopen, by simpa using hnofin, by simpa using heof,
      by simpa using hclosed⟩
  | data hconn _ _ _ _ _ hout => exact wf_output (wf_arrival h _) hout
  | unflagged hconn =>
    exact ⟨hslot, hstart, hopen, by simpa using hnofin, by simpa using heof, by simpa using hclosed⟩
  | closingFinAck hconn =>
    exact ⟨hslot, by simp, by simp, by simp, by simpa using heof, by simpa using hclosed⟩
  | closingAck hconn =>
    exact ⟨hslot, by simp, by simp, by simp, by simpa using heof, by simpa using hclosed⟩
  | closingFin hconn =>
    exact ⟨hslot, hstart, hopen, by simp [hconn], by simpa using heof, by simpa using hclosed⟩
  | lastFin hconn =>
    exact ⟨hslot, hstart, by simp [hconn], by simp [hconn], by simpa using heof,
      by simpa using hclosed⟩
  | lastAck hconn =>
    exact ⟨hslot, hstart, hopen, by simpa using hnofin, by simpa using heof, by simpa using hclosed⟩
  | ignored hconn =>
    exact ⟨hslot, hstart, hopen, by simpa using hnofin, by simpa using heof, by simpa using hclosed⟩

theorem wf_timer {state state' : CtcpState} (h : Wf state) (hout : TimerOutcome state state') :
    Wf state' := by
  obtain ⟨hslot, hstart, hopen, hnofin, heof, hclosed⟩ := h
  cases hout with
  | expired =>
    exact ⟨hslot, hstart, hopen, by simpa using hnofin, by simpa using heof, by simpa using hclosed⟩
  | running _ _ hout =>
    cases hout with
    | idle => exact ⟨hslot, hstart, hopen, hnofin, heof, hclosed⟩
    | waiting attr hattr =>
      refine ⟨?_, hstart, hopen, hnofin, heof, hclosed⟩
      rintro attr' ⟨⟩
      exact hslot attr hattr
    | resent attr hattr _ hless =>
      refine ⟨?_, hstart, hopen, by simpa using hnofin, by simpa using heof, by simpa using hclosed⟩
      rintro attr' ⟨⟩
      exact ⟨(hslot attr hattr).1, hless⟩
    | givenUp =>
      exact ⟨by simp, hstart, hopen, by simpa using hnofin, by simpa using heof,
        by simpa using hclosed⟩

theorem wf_outcome {state state' : CtcpState} {call : Call} (h : Wf state)
    (hout : StepOutcome state call state') : Wf state' := by
  cases hout with
  | dead => exact h
  | read input sent _ _ hout => exact wf_read h hout
  | invalid => exact h
  | receive segment len env _ _ _ hout => exact wf_receive h hout
  | output env _ _ hout => exact wf_output h hout
  | timer _ _ hout => exact wf_timer h hout

theorem wf_step (state : CtcpState) (call : Call) (h : Wf state) : Wf (step state call) :=
  wf_outcome h (step_outcome state call)

/-- **Every reachable state is well formed.** -/
theorem Reachable.wf {state : CtcpState} (h : Reachable state) : Wf state := by
  obtain ⟨cfg, calls, rfl⟩ := h
  exact run_invariant wf_step (wf_init cfg)

/-! ## `DATA_TRANSFER` is not entered again -/

theorem dataTransfer_of_read {state state' : CtcpState} {input : Option Chunk} {sent : Int}
    (hout : ReadOutcome state input sent state') (hconn : state'.connState = .dataTransfer) :
    state.connState = .dataTransfer := by
  cases hout with
  | eofSent => cases hconn
  | _ => exact hconn

theorem dataTransfer_of_output {env : Env} {state state' : CtcpState}
    (hout : OutputOutcome env state state') (hconn : state'.connState = .dataTransfer) :
    state.connState = .dataTransfer := by
  cases hout <;> exact hconn

theorem dataTransfer_of_receive {env : Env} {state state' : CtcpState} {segment : CtcpSegment}
    (hout : ReceiveOutcome env state segment state') (hconn : state'.connState = .dataTransfer) :
    state.connState = .dataTransfer := by
  cases hout with
  | passiveUnsent => cases hconn
  | passiveClose => cases hconn
  | data hdata => exact hdata
  | closingFinAck => cases hconn
  | closingAck => cases hconn
  | _ => exact hconn

theorem dataTransfer_of_timer {state state' : CtcpState} (hout : TimerOutcome state state')
    (hconn : state'.connState = .dataTransfer) : state.connState = .dataTransfer := by
  cases hout with
  | expired => exact hconn
  | running _ _ hout => cases hout <;> exact hconn

end Ctcp
