/-
  Does `ackno` ever go back?

  `ackno` is overwritten, not maximised.  In `DATA_TRANSFER` the guard `segment->seqno <
  state->ackno` keeps old segments away from it.  The closing states have no such guard, and
  neither has `ctcp_output` when `conn_drain` calls it for a segment that was kept while newer ones
  were accepted.

  1. **Where a call leaves `ackno`** (`ackno_receive`, `ackno_output`) — one past an accepted FIN,
     at the end of what it consumed, or where it was.
  2. **One call** (`ackKept_iff`) — without a wrap, `ackno` is kept exactly when the FIN or the
     kept segment does not lie below it.
  3. **Runs** (`ackno_monotone`) — a segment that `_segment_send` emits carries the `ackno` the
     call leaves (`ackno_of_firsts`), so the emitted numbers are sorted when no call goes back.
-/
import Ctcp.Acknowledge
import Ctcp.Tiling
import Ctcp.Consume

set_option linter.unusedVariables false

namespace Ctcp

open Runs History

/-! ## The law and the condition -/

/-- **The call does not move `ackno` back.**  A call that reads a freed segment has no defined
    result. -/
def AckKept (state : CtcpState) (call : Call) : Prop :=
  .fault ∉ events state call ∧ state.ackno ≤ (step state call).ackno

/-- What the call takes in ends below 2^32. -/
def NoWrap (state : CtcpState) (call : Call) : Prop :=
  state.conn.deleteMe = false →
    match call with
    | .receive segment len env => Valid segment len →
        (AcceptsFin state (received segment) → (received segment).seqno.toNat + 1 < 2 ^ 32) ∧
          (TakesData env state (received segment) → dataEnd (received segment) < 2 ^ 32)
    | .output env => ∀ segment, state.receivedSegment = .live segment →
        Consumes env state segment → dataEnd segment < 2 ^ 32
    | _ => True

/-- **The calls that keep `ackno`**: a FIN that is accepted in a closing state does not lie below
    it, and `conn_drain` calls when a segment is kept, which does not end below it. -/
def KeepsAckno (state : CtcpState) (call : Call) : Prop :=
  state.conn.deleteMe = false →
    match call with
    | .receive segment len _ => Valid segment len → AcceptsFin state (received segment) →
        state.connState ≠ .dataTransfer →
          state.ackno.toNat ≤ (received segment).seqno.toNat + 1
    | .output env => (∃ segment, state.receivedSegment = .live segment) ∧
        ∀ segment, state.receivedSegment = .live segment → Consumes env state segment →
          state.ackno.toNat ≤ dataEnd segment
    | _ => True

/-- The acknowledgement numbers of the segments emitted for the first time are sorted. -/
def AcksSorted (h : List Event) : Prop :=
  (firsts h).Pairwise fun segment segment' => ntohl segment.ackno ≤ ntohl segment'.ackno

/-! ## Where a call leaves `ackno` -/

/-- What `ctcp_output` does to `ackno`. -/
theorem ackno_output {env : Env} {state state' : CtcpState}
    (hout : OutputOutcome env state state') :
    (∃ segment, state.receivedSegment = .live segment ∧ Consumes env state segment ∧
        state'.ackno = segment.seqno + datalen segment) ∨
      ((∀ segment, state.receivedSegment = .live segment → ¬ Consumes env state segment) ∧
        state'.ackno = state.ackno) := by
  cases hout with
  | noRoom _ _ hroom => exact Or.inr ⟨fun _ _ h => h.1 hroom, rfl⟩
  | kept segment hlive _ hlen =>
    refine Or.inr ⟨?_, rfl⟩
    intro segment' hlive' h
    obtain rfl : segment = segment' := SegmentPtr.live.inj (hlive.symm.trans hlive')
    exact Nat.not_lt.mpr h.2.1 hlen
  | empty segment hlive hroom hlen =>
    refine Or.inl ⟨segment, hlive, ⟨hroom, by simp [hlen], Or.inl hlen⟩, ?_⟩
    show segment.seqno = _
    rw [hlen, UInt32.add_zero]
  | failed segment hlive _ hlen _ hwritten =>
    refine Or.inr ⟨?_, rfl⟩
    intro segment' hlive' h
    obtain rfl : segment = segment' := SegmentPtr.live.inj (hlive.symm.trans hlive')
    rcases h.2.2 with hzero | hpos
    · exact hlen hzero
    · omega
  | delivered segment hlive hroom _ hfits hwritten =>
    exact Or.inl ⟨segment, hlive, ⟨hroom, hfits, Or.inr hwritten⟩, rfl⟩
  | fault hdead => exact Or.inr ⟨fun segment hlive => absurd hlive (hdead segment), rfl⟩

/-- A bare ACK announces no data. -/
theorem datalen_eq_zero {segment : CtcpSegment}
    (h : segment.len = UInt16.ofNat segmentHdrSize) : datalen segment = 0 := by
  rw [datalen, h]
  rfl

/-- What `ctcp_receive` does to `ackno`. -/
theorem ackno_receive {env : Env} {state state' : CtcpState} {segment : CtcpSegment}
    (hout : ReceiveOutcome env state segment state') :
    (AcceptsFin state segment ∧ state'.ackno = segment.seqno + 1) ∨
      (TakesData env state segment ∧ state'.ackno = segment.seqno + datalen segment) ∨
      (¬ AcceptsFin state segment ∧ state'.ackno = state.ackno) := by
  cases hout with
  | stale hconn hold =>
    refine Or.inr (Or.inr ⟨?_, rfl⟩)
    rintro ⟨-, ⟨-, hnew⟩ | ⟨hconn', -⟩ | hconn'⟩
    · exact UInt32.not_lt.mpr hnew hold
    · cases hconn.symm.trans hconn'
    · cases hconn.symm.trans hconn'
  | passiveUnsent hconn hnew hfin => exact Or.inl ⟨⟨hfin, Or.inl ⟨hconn, hnew⟩⟩, rfl⟩
  | passiveClose hconn hnew hfin => exact Or.inl ⟨⟨hfin, Or.inl ⟨hconn, hnew⟩⟩, rfl⟩
  | pureAck hconn hnew hfin hack hlen =>
    refine Or.inr (Or.inl ⟨⟨hconn, hnew, hfin, hack, Or.inl hlen⟩, ?_⟩)
    show segment.seqno = _
    rw [datalen_eq_zero hlen, UInt32.add_zero]
  | data hconn hnew hfin hack hlen _ hout =>
    rcases ackno_output hout with ⟨segment', hlive, hcons, hackno⟩ | ⟨-, hackno⟩
    · obtain rfl : segment = segment' := SegmentPtr.live.inj hlive
      exact Or.inr (Or.inl ⟨⟨hconn, hnew, hfin, hack, Or.inr hcons⟩, hackno⟩)
    · exact Or.inr (Or.inr ⟨fun h => h.1 hfin, hackno⟩)
  | unflagged hconn hfin => exact Or.inr (Or.inr ⟨fun h => h.1 hfin, rfl⟩)
  | closingFinAck hconn hack hfin =>
    refine Or.inr (Or.inr ⟨?_, rfl⟩)
    rintro ⟨-, ⟨hconn', -⟩ | ⟨-, hack'⟩ | hconn'⟩
    · cases hconn.symm.trans hconn'
    · exact hack hack'
    · cases hconn.symm.trans hconn'
  | closingAck hconn hack hfin => exact Or.inr (Or.inr ⟨fun h => h.1 hfin, rfl⟩)
  | closingFin hconn hack hfin => exact Or.inl ⟨⟨hfin, Or.inr (Or.inl ⟨hconn, hack⟩)⟩, rfl⟩
  | lastFin hconn hfin => exact Or.inl ⟨⟨hfin, Or.inr (Or.inr hconn)⟩, rfl⟩
  | lastAck hconn =>
    refine Or.inr (Or.inr ⟨?_, rfl⟩)
    rintro ⟨-, ⟨hconn', -⟩ | ⟨hconn', -⟩ | hconn'⟩ <;> cases hconn.symm.trans hconn'
  | ignored hconn htd hlf =>
    refine Or.inr (Or.inr ⟨?_, rfl⟩)
    rintro ⟨hfin, ⟨hconn', -⟩ | ⟨hconn', -⟩ | hconn'⟩
    · exact hconn hconn'
    · exact hfin (htd hconn').2
    · exact hfin (hlf hconn')

theorem ackno_read {state state' : CtcpState} {input : Option Chunk} {sent : Int}
    (hout : ReadOutcome state input sent state') : state'.ackno = state.ackno := by
  cases hout <;> rfl

theorem ackno_timer {state state' : CtcpState} (hout : TimerOutcome state state') :
    state'.ackno = state.ackno := by
  cases hout with
  | expired => rfl
  | running _ _ hout => cases hout <;> rfl

/-! ## A segment carries the `ackno` its call leaves -/

/-- The segment sent with this event has the acknowledgement number `ackno`. -/
def Event.Acks (ackno : UInt32) : Event → Prop
  | .send segment _ => ntohl segment.ackno = ackno
  | _ => True

attribute [simp] Event.Acks

theorem acks_output {env : Env} {state state' : CtcpState}
    (hout : OutputOutcome env state state') :
    ∃ es, state'.trace = state.trace ++ es ∧ ∀ e ∈ es, e.Acks state'.ackno := by
  cases hout with
  | noRoom => exact ⟨[], by simp, by simp⟩
  | kept => exact ⟨[], by simp, by simp⟩
  | empty => exact ⟨[], by simp, by simp⟩
  | failed => exact ⟨_, rfl, by simp⟩
  | delivered => exact ⟨_, rfl, by simp⟩
  | fault => exact ⟨_, rfl, by simp⟩

theorem acks_receive {env : Env} {state state' : CtcpState} {segment : CtcpSegment}
    (hout : ReceiveOutcome env state segment state') :
    ∃ es, state'.trace = state.trace ++ es ∧ ∀ e ∈ es, e.Acks state'.ackno := by
  cases hout with
  | data _ _ _ _ _ _ hout =>
    obtain ⟨es, htrace, hes⟩ := acks_output hout
    refine ⟨.receive segment :: es, ?_, ?_⟩
    · rw [htrace]
      simp
    · intro e he
      rcases List.mem_cons.mp he with rfl | he
      · trivial
      · exact hes e he
  | _ => exact ⟨_, rfl, by simp⟩

theorem acks_step (state : CtcpState) (call : Call) :
    ∀ e ∈ events state call, e.Acks (step state call).ackno := by
  have hex : ∃ es, (step state call).trace = state.trace ++ es ∧
      ∀ e ∈ es, e.Acks (step state call).ackno := by
    have hout := step_outcome state call
    generalize step state call = state' at hout ⊢
    cases hout with
    | dead => exact ⟨[], by simp, by simp⟩
    | read _ _ _ _ hout =>
      cases hout with
      | busy => exact ⟨[], by simp, by simp⟩
      | _ => exact ⟨_, rfl, by simp⟩
    | invalid => exact ⟨[], by simp, by simp⟩
    | receive _ _ _ _ _ _ hout => exact acks_receive hout
    | output _ _ _ hout => exact acks_output hout
    | timer _ _ hout =>
      cases hout with
      | expired => exact ⟨_, rfl, by simp⟩
      | running _ _ hout =>
        cases hout with
        | idle => exact ⟨[], by simp, by simp⟩
        | waiting => exact ⟨[], by simp, by simp⟩
        | resent => exact ⟨_, rfl, by simp⟩
        | givenUp => exact ⟨_, rfl, by simp⟩
  obtain ⟨es, htrace, hes⟩ := hex
  rw [events_eq htrace]
  exact hes

/-- **What a call emits for the first time carries the `ackno` it leaves.** -/
theorem ackno_of_firsts {state : CtcpState} {call : Call} {segment : CtcpSegment}
    (h : segment ∈ firsts (events state call)) : ntohl segment.ackno = (step state call).ackno := by
  obtain ⟨e, he, hfirst⟩ := List.mem_filterMap.mp h
  have hacks := acks_step state call e he
  cases e with
  | send segment' sent =>
    have hsegment : segment' = segment := by
      simp only [Event.first] at hfirst
      split at hfirst
      · exact Option.some.inj hfirst
      · cases hfirst
    rw [← hsegment]
    exact hacks
  | _ => cases hfirst

/-! ## One call -/

/-- `ctcp_output` works on a segment, or it reads freed memory. -/
theorem fault_of_output {env : Env} {state state' : CtcpState} {es : List Event}
    (hout : OutputOutcome env state state') (htrace : state'.trace = state.trace ++ es) :
    .fault ∈ es ↔ ∀ segment, state.receivedSegment ≠ .live segment := by
  cases hout with
  | noRoom segment hlive => simp [List.append_right_eq_self.mp htrace.symm, hlive]
  | kept segment hlive => simp [List.append_right_eq_self.mp htrace.symm, hlive]
  | empty segment hlive => simp [List.append_right_eq_self.mp htrace.symm, hlive]
  | failed segment hlive =>
    rw [← List.append_cancel_left htrace]
    simp [hlive]
  | delivered segment hlive =>
    rw [← List.append_cancel_left htrace]
    simp [hlive]
  | fault hdead =>
    rw [← List.append_cancel_left htrace]
    exact iff_of_true (by simp) hdead

/-- `ctcp_receive` never reads freed memory: it has just set the pointer. -/
theorem no_fault_of_receive {env : Env} {state state' : CtcpState} {segment : CtcpSegment}
    {es : List Event} (hout : ReceiveOutcome env state segment state')
    (htrace : state'.trace = state.trace ++ es) : .fault ∉ es := by
  cases hout with
  | data _ _ _ _ _ _ hout =>
    obtain ⟨es', htrace', -⟩ := acks_output hout
    have hes : es = .receive segment :: es' := by
      rw [htrace'] at htrace
      exact (List.append_cancel_left
        (htrace.symm.trans (List.append_assoc state.trace [.receive segment] es')))
    rw [hes, List.mem_cons, fault_of_output hout htrace']
    rintro (hreceive | hdead)
    · cases hreceive
    · exact hdead segment rfl
  | _ =>
    rw [← List.append_cancel_left htrace]
    simp

/-- The other two callbacks do not look at the segment. -/
theorem no_fault_of_read {state state' : CtcpState} {input : Option Chunk} {sent : Int}
    {es : List Event} (hout : ReadOutcome state input sent state')
    (htrace : state'.trace = state.trace ++ es) : .fault ∉ es := by
  cases hout with
  | busy => simp [List.append_right_eq_self.mp htrace.symm]
  | _ =>
    rw [← List.append_cancel_left htrace]
    simp

theorem no_fault_of_timer {state state' : CtcpState} {es : List Event}
    (hout : TimerOutcome state state') (htrace : state'.trace = state.trace ++ es) :
    .fault ∉ es := by
  cases hout with
  | expired =>
    rw [← List.append_cancel_left htrace]
    simp
  | running _ _ hout =>
    cases hout with
    | idle => simp [List.append_right_eq_self.mp htrace.symm]
    | waiting => simp [List.append_right_eq_self.mp htrace.symm]
    | _ =>
      rw [← List.append_cancel_left htrace]
      simp

/-- A call without an effect on `ackno` or on the kept segment. -/
theorem ackKept_of_quiet {state : CtcpState} {call : Call}
    (hackno : (step state call).ackno = state.ackno) (hfault : .fault ∉ events state call) :
    AckKept state call :=
  ⟨hfault, UInt32.le_of_eq hackno.symm⟩

/-- **`conn_drain`** keeps `ackno` when the kept segment does not end below it. -/
theorem ackKept_output_iff {state : CtcpState} {env : Env}
    (hlive : state.conn.deleteMe = false) (hwrap : NoWrap state (.output env))
    (hout : OutputOutcome env state (step state (.output env))) :
    AckKept state (.output env) ↔ KeepsAckno state (.output env) := by
  have hfault := fault_of_output hout (step_trace state (.output env))
  constructor
  · rintro ⟨hnofault, hle⟩ -
    have hsome : ∃ segment, state.receivedSegment = .live segment := by
      apply Classical.byContradiction
      intro hnone
      exact hnofault (hfault.mpr (not_exists.mp hnone))
    refine ⟨hsome, ?_⟩
    intro segment hseg hcons
    rcases ackno_output hout with ⟨segment', hseg', -, hackno⟩ | ⟨hnot, -⟩
    · obtain rfl : segment = segment' := SegmentPtr.live.inj (hseg.symm.trans hseg')
      have hend := toNat_dataEnd (hwrap hlive segment hseg hcons)
      rw [hackno] at hle
      have hnat := UInt32.le_iff_toNat_le.mp hle
      omega
    · exact absurd hcons (hnot segment hseg)
  · intro h
    obtain ⟨⟨segment, hseg⟩, hends⟩ := h hlive
    refine ⟨fun hmem => hfault.mp hmem segment hseg, ?_⟩
    rcases ackno_output hout with ⟨segment', hseg', hcons, hackno⟩ | ⟨-, hackno⟩
    · have hend := toNat_dataEnd (hwrap hlive segment' hseg' hcons)
      have hnat := hends segment' hseg' hcons
      rw [hackno, UInt32.le_iff_toNat_le, hend]
      exact hnat
    · exact UInt32.le_of_eq hackno.symm

/-- **`ctcp_receive`** keeps `ackno` in `DATA_TRANSFER`, and elsewhere when a FIN that is accepted
    does not lie below it. -/
theorem ackKept_receive_iff {state : CtcpState} {segment : CtcpSegment} {len : Nat} {env : Env}
    (hlive : state.conn.deleteMe = false) (hvalid : Valid segment len)
    (hwrap : NoWrap state (.receive segment len env))
    (hout : ReceiveOutcome env state (received segment)
      (step state (.receive segment len env))) :
    AckKept state (.receive segment len env) ↔ KeepsAckno state (.receive segment len env) := by
  obtain ⟨hfinWrap, hdataWrap⟩ := hwrap hlive hvalid
  have hnofault := no_fault_of_receive hout (step_trace state _)
  rcases ackno_receive hout with ⟨hfin, hackno⟩ | ⟨hdata, hackno⟩ | ⟨hnot, hackno⟩
  · have hwrapped := hfinWrap hfin
    have hnew : ((received segment).seqno + 1).toNat = (received segment).seqno.toNat + 1 := by
      rw [UInt32.toNat_add, UInt32.toNat_one]
      omega
    constructor
    · rintro ⟨-, hle⟩ - - - -
      rw [hackno, UInt32.le_iff_toNat_le, hnew] at hle
      exact hle
    · intro h
      refine ⟨hnofault, ?_⟩
      rw [hackno, UInt32.le_iff_toNat_le, hnew]
      by_cases hconn : state.connState = .dataTransfer
      · -- the guard of `DATA_TRANSFER`
        rcases hfin.2 with ⟨-, hle⟩ | ⟨hconn', -⟩ | hconn'
        · have hnat := UInt32.le_iff_toNat_le.mp hle
          omega
        · cases hconn.symm.trans hconn'
        · cases hconn.symm.trans hconn'
      · exact h hlive hvalid hfin hconn
  · -- data are taken in `DATA_TRANSFER` only, behind its guard
    have hend := toNat_dataEnd (hdataWrap hdata)
    have hle := UInt32.le_iff_toNat_le.mp hdata.2.1
    have hstart : (received segment).seqno.toNat ≤ dataEnd (received segment) :=
      Nat.le_add_right _ _
    refine iff_of_true ⟨hnofault, ?_⟩ ?_
    · rw [hackno, UInt32.le_iff_toNat_le, hend]
      exact Nat.le_trans hle hstart
    · intro _ _ hfin
      exact absurd hdata.2.2.1 hfin.1
  · refine iff_of_true (ackKept_of_quiet hackno hnofault) ?_
    intro _ _ hfin
    exact absurd hfin hnot

/-- **One call**, without a wrap. -/
theorem ackKept_iff {state : CtcpState} {call : Call} (hwrap : NoWrap state call) :
    AckKept state call ↔ KeepsAckno state call := by
  have hout := step_outcome state call
  have htrace := step_trace state call
  generalize hstep : step state call = state' at hout htrace
  cases hout with
  | dead _ hdead =>
    have hevents := List.append_right_eq_self.mp htrace.symm
    refine iff_of_true (ackKept_of_quiet (by rw [hstep]) (by simp [hevents])) ?_
    intro hlive
    cases hlive.symm.trans hdead
  | read _ _ _ _ hout =>
    have hackno := ackno_read hout
    exact iff_of_true (ackKept_of_quiet (hstep ▸ hackno) (no_fault_of_read hout htrace))
      (fun _ => trivial)
  | invalid _ _ _ hvalid =>
    have hevents := List.append_right_eq_self.mp htrace.symm
    refine iff_of_true (ackKept_of_quiet (by rw [hstep]) (by simp [hevents])) ?_
    exact fun _ h => absurd h hvalid
  | receive _ _ _ _ hlive hvalid hout =>
    exact ackKept_receive_iff hlive hvalid hwrap (hstep ▸ hout)
  | output _ _ hlive hout => exact ackKept_output_iff hlive hwrap (hstep ▸ hout)
  | timer _ _ hout =>
    have hackno := ackno_timer hout
    exact iff_of_true (ackKept_of_quiet (hstep ▸ hackno) (no_fault_of_timer hout htrace))
      (fun _ => trivial)

/-! ## Runs -/

/-- What has been emitted is sorted, and not beyond `ackno`. -/
structure AcksInv (state : CtcpState) : Prop where
  sorted : AcksSorted state.trace
  below : ∀ segment ∈ firsts state.trace, ntohl segment.ackno ≤ state.ackno

theorem acksInv_init (cfg : CtcpConfig) : AcksInv (ctcpInit cfg) where
  sorted := List.Pairwise.nil
  below := by simp [ctcpInit]

theorem acksInv_step (state : CtcpState) (call : Call) (h : AcksInv state)
    (hkept : AckKept state call) : AcksInv (step state call) := by
  have hold : ∀ segment ∈ firsts state.trace, ntohl segment.ackno ≤ (step state call).ackno :=
    fun segment hmem => UInt32.le_trans (h.below segment hmem) hkept.2
  constructor
  · rw [step_trace, AcksSorted, firsts_append]
    refine List.pairwise_append.mpr ⟨h.sorted, ?_, ?_⟩
    · -- all that one call emits carries the same number
      apply List.pairwise_of_forall_mem_list
      intro segment hmem segment' hmem'
      rw [ackno_of_firsts hmem, ackno_of_firsts hmem']
      exact UInt32.le_refl _
    · intro segment hmem segment' hmem'
      rw [ackno_of_firsts hmem']
      exact hold segment hmem
  · intro segment hmem
    rw [step_trace, firsts_append] at hmem
    rcases List.mem_append.mp hmem with hmem | hmem
    · exact hold segment hmem
    · exact UInt32.le_of_eq (ackno_of_firsts hmem)

/-- **`ackno` never goes back, and the emitted acknowledgements are sorted**, in exactly the runs
    in which no closing state accepts a FIN from below `ackno` and `conn_drain` never calls for a
    segment that ends below it. -/
theorem ackno_monotone (cfg : CtcpConfig) (calls : List Call)
    (hwrap : Along step NoWrap (ctcpInit cfg) calls) :
    (Along step AckKept (ctcpInit cfg) calls ∧
        AcksSorted (run step (ctcpInit cfg) calls).trace) ↔
      Along step KeepsAckno (ctcpInit cfg) calls := by
  constructor
  · rintro ⟨hkept, -⟩
    exact (hwrap.and hkept).imp fun state call h => (ackKept_iff h.1).mp h.2
  · intro hcond
    have hkept : Along step AckKept (ctcpInit cfg) calls :=
      (hwrap.and hcond).imp fun state call h => (ackKept_iff h.1).mpr h.2
    exact ⟨hkept, (hkept.invariant acksInv_step (acksInv_init cfg)).sorted⟩

/-- Two bytes are output, and the FIN after them is accepted. -/
theorem ackno_monotone_in_order :
    let calls : List Call := [.arrival (dataSegment 1 1 [7, 8]), .arrival (finSegment 3 1)]
    Along step AckKept (ctcpInit ctcpCfg) calls ∧
      AcksSorted (run step (ctcpInit ctcpCfg) calls).trace := by
  have hwrap : Along step NoWrap (ctcpInit ctcpCfg)
      [.arrival (dataSegment 1 1 [7, 8]), .arrival (finSegment 3 1)] :=
    ⟨fun _ _ => ⟨fun _ => by decide, fun _ => by decide⟩,
      fun _ _ => ⟨fun _ => by decide, fun _ => by decide⟩, trivial⟩
  refine (ackno_monotone ctcpCfg _ hwrap).mpr ⟨?_, ?_, trivial⟩
  · exact fun _ _ _ hconn => absurd rfl hconn
  · exact fun _ _ _ hconn => absurd (by decide) hconn

/-- Two bytes find room for one and are kept; the FIN after them is accepted; then there is room,
    and `conn_drain` moves `ackno` from 4 back to 3. -/
theorem ackno_goes_back :
    let calls : List Call := [.receive (dataSegment 1 1 [7, 8]) 22 Env.tight,
      .arrival (finSegment 3 1)]
    Along step NoWrap (ctcpInit ctcpCfg) (calls ++ [.output Env.roomy]) ∧
      (run step (ctcpInit ctcpCfg) calls).ackno = 4 ∧
      (run step (ctcpInit ctcpCfg) (calls ++ [.output Env.roomy])).ackno = 3 ∧
      ¬ Along step AckKept (ctcpInit ctcpCfg) (calls ++ [.output Env.roomy]) := by
  refine ⟨⟨?_, ?_, ?_, trivial⟩, by decide, by decide, ?_⟩
  · exact fun _ _ => ⟨fun _ => by decide, fun _ => by decide⟩
  · exact fun _ _ => ⟨fun _ => by decide, fun _ => by decide⟩
  · intro _ segment hseg _
    obtain rfl : received (dataSegment 1 1 [7, 8]) = segment := by
      apply SegmentPtr.live.inj
      rw [← hseg]
      decide
    decide
  · rintro ⟨-, -, ⟨-, hle⟩, -⟩
    exact absurd hle (by decide)

end Ctcp
