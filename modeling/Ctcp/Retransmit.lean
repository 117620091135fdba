/-
  Retransmission of acknowledged segments.

  `retransmission_handler` sends again whatever is in the slot, so nothing acknowledged is sent
  again only if every ACK that covers the outstanding segment takes it out of the slot.
  `_destroy_acked_segment` is called for bare ACKs and for payloads that are output, both in
  `DATA_TRANSFER`; a FIN there overwrites the slot, and `WAIT_LAST_ACK` ends the connection.
  Everywhere else the ACK is read and the segment stays: in `TEAR_DOWN`, where the ACK of our FIN
  arrives, in `WAIT_LAST_FIN`, with segments older than `ackno`, and with data that find no room.
-/
import Ctcp.Slot
import Ctcp.Destroy

set_option linter.unusedVariables false

namespace Ctcp

open Runs History

/-! ## The law and the condition -/

/-- **Nothing already acknowledged is sent again**: since the segment was sent by `_segment_send`
    for the last time, no arrival has covered it.  (The same segment is sent by it a second time
    only after 2^32 sequence numbers.) -/
def NotResent (before : List Event) (e : Event) : Prop :=
  ∀ segment, e = .resend segment → ∀ older sent newer,
    before = older ++ .send segment sent :: newer → 0 ≤ sent →
      ¬ Sees (Event.Sends segment) newer → ¬ Sees (Event.Answers segment) newer

/-- `ctcp_receive` takes an acknowledged segment out of the slot, or ends the connection. -/
def Retires (env : Env) (state : CtcpState) (segment : CtcpSegment) : Prop :=
  state.connState = .waitLastAck ∨
    state.connState = .dataTransfer ∧ state.ackno ≤ segment.seqno ∧
      if segment.flags &&& FIN ≠ 0 then 0 ≤ env.sent₁
      else segment.len = UInt16.ofNat segmentHdrSize ∨
        (env.bufspace ≠ 0 ∧ (datalen segment).toNat ≤ env.bufspace)

/-- An arrival that covers the outstanding segment retires it. -/
def RetiresCovered (state : CtcpState) : Call → Prop
  | .receive segment len env => Valid segment len →
      ∀ attr, state.sentSegmentAttr = some attr → Covers attr.segment (received segment) →
        Retires env state (received segment)
  | _ => True

/-! ## The invariant -/

/-- Nothing has answered the segment in the slot since it was sent. -/
def Pending (state : CtcpState) : Prop :=
  ∀ attr, state.sentSegmentAttr = some attr → Unanswered attr.segment 0 state.trace

theorem NotResent.of_unanswered {before : List Event} {segment : CtcpSegment}
    (h : Unanswered segment 0 before) : NotResent before (.resend segment) := by
  rintro _ ⟨⟩ older sent newer hsplit hsent hlast
  obtain ⟨e, after, -, ⟨-, hno⟩, hsuffix⟩ := Since.after_last h hsplit hlast
  rintro ⟨e', hmem, hanswer⟩
  exact hno (sees_of_mem (hsuffix.subset hmem) hanswer)

/-- A call that answers nothing outstanding and leaves the slot as it was, or empties it. -/
theorem Pending.quiet {state state' : CtcpState} {es : List Event} (h : Pending state)
    (htrace : state'.trace = state.trace ++ es)
    (hslot : ∀ attr', state'.sentSegmentAttr = some attr' →
      ∃ attr, state.sentSegmentAttr = some attr ∧ attr'.segment = attr.segment)
    (hes : ∀ attr, state.sentSegmentAttr = some attr → ∀ e ∈ es, ¬ e.Answers attr.segment) :
    Pending state' := by
  intro attr' hattr'
  obtain ⟨attr, hattr, hseg⟩ := hslot attr' hattr'
  rw [htrace, hseg]
  exact (h attr hattr).append (hes attr hattr) (Nat.zero_le _)

/-- A call that ends by sending the segment it puts into the slot. -/
theorem pending_of_send {state' : CtcpState} {h : List Event} {attr : SegmentAttr} {sent : Int}
    (htrace : state'.trace = h ++ [.send attr.segment sent]) (hsent : 0 ≤ sent)
    (hslot : state'.sentSegmentAttr = some attr) : Pending state' := by
  intro attr' hattr'
  obtain rfl : attr = attr' := Option.some.inj (hslot.symm.trans hattr')
  rw [htrace]
  exact unanswered_concat h hsent

theorem pending_read {state state' : CtcpState} {input : Option Chunk} {sent : Int}
    (h : Pending state) (hout : ReadOutcome state input sent state') : Pending state' := by
  cases hout with
  | busy => exact h
  | eofUnsent => exact h.quiet rfl (fun attr' h => ⟨attr', h, rfl⟩) (by simp)
  | eofSent _ _ hsent =>
    exact pending_of_send (h := state.trace ++ [.input none]) (by simp) hsent rfl
  | unsent => exact h.quiet rfl (fun attr' h => ⟨attr', h, rfl⟩) (by simp)
  | noData => exact h.quiet rfl (fun attr' h => ⟨attr', h, rfl⟩) (by simp)
  | data chunk _ _ _ _ hsent =>
    exact pending_of_send (h := state.trace ++ [.input (some chunk.bytes)]) (by simp) hsent rfl

theorem pending_output {env : Env} {state state' : CtcpState} (h : Pending state)
    (hout : OutputOutcome env state state') : Pending state' := by
  cases hout with
  | noRoom => exact h
  | kept => exact h
  | empty => rintro attr' ⟨⟩
  | failed => exact h.quiet rfl (fun attr' h => ⟨attr', h, rfl⟩) (by simp)
  | delivered => rintro attr' ⟨⟩
  | fault => exact h.quiet rfl (fun attr' h => ⟨attr', h, rfl⟩) (by simp)

/-- An arrival that leaves the slot as it was covers nothing, or ends the connection. -/
theorem pending_arrival {state state' : CtcpState} {segment : CtcpSegment} {es : List Event}
    (h : Pending state) (htrace : state'.trace = state.trace ++ .receive segment :: es)
    (hslot : state'.sentSegmentAttr = state.sentSegmentAttr)
    (hes : ∀ attr : SegmentAttr, ∀ e ∈ es, ¬ e.Answers attr.segment)
    (hcov : ∀ attr, state.sentSegmentAttr = some attr → ¬ Covers attr.segment segment) :
    Pending state' := by
  refine h.quiet htrace (fun attr' h => ⟨attr', hslot ▸ h, rfl⟩) ?_
  intro attr hattr e he
  rcases List.mem_cons.mp he with rfl | he
  · exact hcov attr hattr
  · exact hes attr e he

theorem pending_receive {env : Env} {state state' : CtcpState} {segment : CtcpSegment}
    (h : Pending state)
    (hret : ∀ attr, state.sentSegmentAttr = some attr → Covers attr.segment segment →
      Retires env state segment)
    (hout : ReceiveOutcome env state segment state') (hlive : state'.conn.deleteMe = false) :
    Pending state' := by
  cases hout with
  | stale hconn hold =>
    refine pending_arrival h rfl rfl (by simp) ?_
    intro attr hattr hcov
    have hnew : ¬ state.ackno ≤ segment.seqno := UInt32.not_le.mpr hold
    simpa [Retires, hconn, hnew] using hret attr hattr hcov
  | passiveUnsent hconn hnew hfin hsent =>
    refine pending_arrival h rfl rfl (by simp) ?_
    intro attr hattr hcov
    have hneg : ¬ 0 ≤ env.sent₁ := by omega
    simpa [Retires, hconn, hfin, hneg] using hret attr hattr hcov
  | passiveClose hconn hnew hfin hsent =>
    refine pending_of_send (h := state.trace ++ [.receive segment, .outputEof,
      .acceptFin segment.seqno, .send (ackSegment state.seqno (segment.seqno + 1)) env.sent₀])
      ?_ hsent rfl
    simp
  | pureAck => rintro attr' ⟨⟩
  | data hconn hnew hfin hack hlen state' hout =>
    cases hout with
    | noRoom _ hseg hroom =>
      refine pending_arrival h rfl rfl (by simp) ?_
      intro attr hattr hcov
      simpa [Retires, hconn, hfin, hlen, hroom] using hret attr hattr hcov
    | kept segment' hseg hroom hless =>
      obtain rfl : segment = segment' := by simpa using hseg
      refine pending_arrival h rfl rfl (by simp) ?_
      intro attr hattr hcov
      have hfits : ¬ (datalen segment).toNat ≤ env.bufspace := by omega
      simpa [Retires, hconn, hfin, hlen, hfits] using hret attr hattr hcov
    | empty => rintro attr' ⟨⟩
    | failed => cases hlive
    | delivered => rintro attr' ⟨⟩
    | fault hdead => exact absurd rfl (hdead segment)
  | unflagged hconn hfin hack =>
    exact pending_arrival h rfl rfl (by simp) (fun attr hattr hcov => hcov.1 hack)
  | closingFinAck hconn =>
    refine pending_arrival h rfl rfl (by simp) ?_
    intro attr hattr hcov
    simpa [Retires, hconn] using hret attr hattr hcov
  | closingAck hconn =>
    refine pending_arrival h rfl rfl (by simp) ?_
    intro attr hattr hcov
    simpa [Retires, hconn] using hret attr hattr hcov
  | closingFin => cases hlive
  | lastFin hconn =>
    refine pending_arrival h rfl rfl (by simp) ?_
    intro attr hattr hcov
    simpa [Retires, hconn] using hret attr hattr hcov
  | lastAck => cases hlive
  | ignored hconn htd hlf hla =>
    refine pending_arrival h rfl rfl (by simp) ?_
    intro attr hattr hcov
    -- of the states that are left only `WAIT_LAST_ACK` retires, and there the flag is missing
    rcases hret attr hattr hcov with hlast | ⟨hdata, -⟩
    · exact hcov.1 (hla hlast)
    · exact hconn hdata

theorem pending_timer {state state' : CtcpState} (h : Pending state)
    (hout : TimerOutcome state state') : Pending state' := by
  cases hout with
  | expired => exact h.quiet rfl (fun attr' h => ⟨attr', h, rfl⟩) (by simp)
  | running _ _ hout =>
    cases hout with
    | idle => exact h
    | waiting attr hattr =>
      rintro attr' ⟨⟩
      exact h attr hattr
    | resent attr hattr =>
      refine h.quiet rfl ?_ (by simp)
      rintro attr' ⟨⟩
      exact ⟨attr, hattr, rfl⟩
    | givenUp => rintro attr' ⟨⟩

/-! ## Runs -/

/-- Only the timer retransmits. -/
theorem not_resend_of_step {state : CtcpState} {call : Call} (hcall : call ≠ .timer)
    (segment : CtcpSegment) : .resend segment ∉ events state call := by
  intro hmem
  have hcount := resends_of_step state segment hcall
  rw [resends, step_trace, List.count_append] at hcount
  have hpos := List.count_pos_iff.mpr hmem
  unfold resends at hcount
  omega

/-- What the timer sends again is what waits in the slot. -/
theorem notResent_timer {state : CtcpState} (h : Pending state) :
    AlwaysFrom NotResent state.trace (events state .timer) := by
  have hout := step_outcome state .timer
  have htrace := step_trace state .timer
  generalize events state .timer = es at htrace ⊢
  generalize step state .timer = state' at hout htrace
  cases hout with
  | dead => simp_all
  | timer _ _ hout =>
    cases hout with
    | expired =>
      obtain rfl := List.append_cancel_left htrace
      exact alwaysFrom_of_forall (by simp [NotResent])
    | running _ _ hout =>
      cases hout with
      | idle => simp_all
      | waiting => simp_all
      | resent attr hattr =>
        obtain rfl := List.append_cancel_left htrace
        exact ⟨.of_unanswered (h attr hattr), trivial⟩
      | givenUp attr hattr =>
        obtain rfl := List.append_cancel_left htrace
        exact ⟨.of_unanswered (h attr hattr), trivial⟩

/-- What is known of a connection whose arrivals retire what they cover. -/
structure PendingInv (state : CtcpState) : Prop where
  pending : state.conn.deleteMe = false → Pending state
  law : Always NotResent state.trace

theorem pendingInv_init (cfg : CtcpConfig) : PendingInv (ctcpInit cfg) :=
  ⟨fun _ => by simp [Pending, ctcpInit], trivial⟩

theorem pendingInv_step (state : CtcpState) (call : Call) (h : PendingInv state)
    (hret : RetiresCovered state call) : PendingInv (step state call) := by
  by_cases hlive : state.conn.deleteMe = false
  · have hpending := h.pending hlive
    constructor
    · intro hlive'
      have hout := step_outcome state call
      generalize step state call = state' at hout hlive' ⊢
      cases hout with
      | dead => exact hpending
      | read _ _ _ _ hout => exact pending_read hpending hout
      | invalid => exact hpending
      | receive _ _ _ _ _ hvalid hout => exact pending_receive hpending (hret hvalid) hout hlive'
      | output _ _ _ hout => exact pending_output hpending hout
      | timer _ _ hout => exact pending_timer hpending hout
    · rw [step_trace]
      refine always_append.mpr ⟨h.law, ?_⟩
      by_cases hcall : call = .timer
      · subst hcall
        exact notResent_timer hpending
      · refine alwaysFrom_of_forall ?_
        rintro before _ hmem segment rfl
        exact absurd hmem (not_resend_of_step hcall segment)
  · have hdead : step state call = state := by simp [step, hlive]
    rw [hdead]
    exact h

/-- **No acknowledged segment is sent again**, in every run in which each arrival that covers the
    outstanding segment retires it. -/
theorem acknowledged_not_resent (cfg : CtcpConfig) (calls : List Call)
    (h : Along step RetiresCovered (ctcpInit cfg) calls) :
    Always NotResent (run step (ctcpInit cfg) calls).trace :=
  (h.invariant pendingInv_step (pendingInv_init cfg)).law

/-- Two bytes are sent again until their ACK arrives. -/
theorem acknowledged_not_resent_data :
    Always NotResent (run step (ctcpInit ctcpCfg)
      (.read (some ⟨[1, 2], by decide⟩) 20 :: List.replicate 5 .timer ++
        [.arrival (ackSegment 1 3), .timer])).trace := by
  refine acknowledged_not_resent ctcpCfg _ ?_
  refine ⟨trivial, trivial, trivial, trivial, trivial, trivial, ?_, trivial, trivial⟩
  intro _ _ _ _
  exact Or.inr (by decide)

/-- The ACK of our FIN moves `TEAR_DOWN` to `WAIT_LAST_FIN`, and the FIN is sent again. -/
theorem fin_resent :
    ¬ Always NotResent (run step (ctcpInit ctcpCfg)
      (.read none 20 :: .arrival (ackSegment 1 2) :: List.replicate 5 .timer)).trace := by
  intro h
  have htrace : (run step (ctcpInit ctcpCfg)
      (.read none 20 :: .arrival (ackSegment 1 2) :: List.replicate 5 .timer)).trace
        = [.input none, .send (finSegment 1 1) 20, .receive (received (ackSegment 1 2))]
          ++ .resend (finSegment 1 1) :: [] := by decide
  rw [htrace] at h
  refine h.at _ rfl [.input none] 20 [.receive (received (ackSegment 1 2))] rfl ?_ ?_ ?_
  · decide
  · simp
  · have hcov : Covers (finSegment 1 1) (received (ackSegment 1 2)) := by decide
    exact ⟨_, List.mem_cons_self, hcov⟩

end Ctcp
