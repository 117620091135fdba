/-
  The slot of the outstanding segment.

  `sent_segment_attr` holds the one segment that may still have to be sent again.  Three functions
  empty it (`_destroy_acked_segment`, called from `ctcp_receive`, from `ctcp_output` and from the
  timer) and `_segment_send` overwrites it; none of them looks at `ackno`.  Two results follow.

  1. **Which arrivals discard it** (`slotKept_iff`).  A call keeps the outstanding segment, or
     removes it for a good reason (an ACK that covers it, or the end of the connection), exactly
     when it is not one of the calls of `Discards`, or is covered all the same.  Along every run
     the two conditions agree, call by call.

  2. **Giving up** (`never_given_up`).  The fifth retransmission empties the slot and leaves the
     connection alive, so no schedule of ticks and reads retransmits a segment five times and then
     destroys the connection with the segment remembered until then.
-/
import Ctcp.Guards

set_option linter.unusedVariables false

namespace Ctcp

open Runs History

/-! ## The property and the condition -/

/-- **The call keeps the outstanding segment**, unless it works on an ACK that covers it or the
    connection ends.  The timer is not asked. -/
def SlotKept (state : CtcpState) (call : Call) : Prop :=
  ∀ attr, state.sentSegmentAttr = some attr → call ≠ .timer →
    (step state call).sentSegmentAttr = some attr ∨
      (∃ segment, processed state call = some segment ∧ Covers attr.segment segment) ∨
      (step state call).conn.deleteMe = true

/-- `ctcp_receive` answers a FIN by a FIN of its own, or uses up a segment with the ACK flag. -/
def Advances (env : Env) (state : CtcpState) (segment : CtcpSegment) : Prop :=
  (state.connState = .dataTransfer ∧ AcceptsFin state segment ∧ 0 ≤ env.sent₁) ∨
    TakesData env state segment

/-- The calls that empty or overwrite the slot. -/
def Discards (state : CtcpState) : Call → Prop
  | .receive segment len env => Valid segment len ∧ Advances env state (received segment)
  | .output env => ∃ segment, state.receivedSegment = .live segment ∧ Consumes env state segment
  | _ => False

/-- A call that discards the outstanding segment of a live connection works on an ACK of it. -/
def DiscardsCovered (state : CtcpState) (call : Call) : Prop :=
  ∀ attr, state.sentSegmentAttr = some attr → state.conn.deleteMe = false →
    Discards state call →
      ∃ segment, processed state call = some segment ∧ Covers attr.segment segment

/-! ## Which calls discard the segment -/

/-- A new FIN is not the segment that was outstanding before. -/
theorem finSegment_ne_outstanding {seqno ackno : UInt32} {segment : CtcpSegment}
    (h : Outstanding seqno segment) : finSegment seqno ackno ≠ segment := by
  cases h with
  | fin start ackno' hend =>
    intro heq
    have hseq : seqno = start := by simpa using congrArg (fun s => ntohl s.seqno) heq
    rw [hseq] at hend
    grind
  | data start ackno' buffer =>
    intro heq
    have hfin : isFin (dataSegment start ackno' buffer) := heq ▸ isFin_finSegment _ _
    exact isFin_dataSegment _ _ _ hfin

/-- What became of the outstanding segment `attr`. -/
def Lost (attr : SegmentAttr) (state' : CtcpState) : Prop :=
  state'.sentSegmentAttr ≠ some attr ∧ state'.conn.deleteMe = false

theorem output_lost_iff {env : Env} {state state' : CtcpState} {attr : SegmentAttr}
    (hattr : state.sentSegmentAttr = some attr) (hlive : state.conn.deleteMe = false)
    (hout : OutputOutcome env state state') :
    Lost attr state' ↔
      ∃ segment, state.receivedSegment = .live segment ∧ Consumes env state segment := by
  cases hout with
  | noRoom segment hseg hroom => simp [Lost, hattr, hseg, Consumes, hroom]
  | kept segment hseg hroom hlen =>
    have hlen' : ¬ (datalen segment).toNat ≤ env.bufspace := by omega
    simp [Lost, hattr, hseg, Consumes, hlen']
  | empty segment hseg hroom hlen => simp [Lost, hlive, hseg, Consumes, hroom, hlen]
  | failed segment hseg hroom hlen hfits hwritten =>
    have hwritten' : ¬ 0 ≤ outputResult env state := by omega
    simp [Lost, hseg, Consumes, hlen, hwritten']
  | delivered segment hseg hroom hlen hfits hwritten =>
    simp [Lost, hlive, hseg, Consumes, hroom, hfits, hwritten]
  | fault hdead => simp [Lost, hattr, hdead]

theorem receive_lost_iff {env : Env} {state state' : CtcpState} {segment : CtcpSegment}
    {attr : SegmentAttr} (h : Wf state) (hattr : state.sentSegmentAttr = some attr)
    (hlive : state.conn.deleteMe = false) (hout : ReceiveOutcome env state segment state') :
    Lost attr state' ↔ Advances env state segment := by
  cases hout with
  | stale hconn hold =>
    have hnew : ¬ state.ackno ≤ segment.seqno := UInt32.not_le.mpr hold
    simp [Lost, hattr, Advances, AcceptsFin, TakesData, hconn, hnew]
  | passiveUnsent hconn hnew hfin hsent =>
    have hsent' : ¬ 0 ≤ env.sent₁ := by omega
    simp [Lost, hattr, Advances, TakesData, hfin, hsent']
  | passiveClose hconn hnew hfin hsent =>
    have hne : finSegment state.seqno (segment.seqno + 1) ≠ attr.segment :=
      finSegment_ne_outstanding (h.slot attr hattr).1
    have hne' : (⟨0, 0, finSegment state.seqno (segment.seqno + 1)⟩ : SegmentAttr) ≠ attr :=
      fun heq => hne (congrArg SegmentAttr.segment heq)
    simp [Lost, hlive, Advances, AcceptsFin, hconn, hnew, hfin, hsent, hne']
  | pureAck hconn hnew hfin hack hlen =>
    simp [Lost, hlive, Advances, TakesData, hconn, hnew, hfin, hack, hlen]
  | data hconn hnew hfin hack hlen state' hout =>
    have hiff := @output_lost_iff env _ state' attr (by exact hattr) (by exact hlive) hout
    have hwrote := (h.opened hconn).2.1
    simp only [hiff, Advances, AcceptsFin, TakesData, hconn, hnew, hfin, hlen]
    simp [Consumes, outputResult, hwrote, hack]
  | unflagged hconn hfin hack => simp [Lost, hattr, Advances, AcceptsFin, TakesData, hfin, hack]
  | closingFinAck hconn => simp [Lost, hattr, Advances, TakesData, hconn]
  | closingAck hconn => simp [Lost, hattr, Advances, TakesData, hconn]
  | closingFin hconn => simp [Lost, Advances, TakesData, hconn]
  | lastFin hconn => simp [Lost, hattr, Advances, TakesData, hconn]
  | lastAck hconn => simp [Lost, Advances, TakesData, hconn]
  | ignored hconn => simp [Lost, hattr, Advances, TakesData, hconn]

/-- **What discards the outstanding segment.** -/
theorem lost_iff {state : CtcpState} {call : Call} {attr : SegmentAttr} (h : Wf state)
    (hattr : state.sentSegmentAttr = some attr) (hlive : state.conn.deleteMe = false)
    (hcall : call ≠ .timer) : Lost attr (step state call) ↔ Discards state call := by
  have hout := step_outcome state call
  generalize step state call = state' at hout
  cases hout with
  | dead _ hdead => rw [hlive] at hdead; cases hdead
  | read input sent _ _ hout =>
    cases hout with
    | busy => simp [Lost, hattr, Discards]
    | eofUnsent hnone => rw [hattr] at hnone; cases hnone
    | eofSent hnone => rw [hattr] at hnone; cases hnone
    | unsent _ hnone => rw [hattr] at hnone; cases hnone
    | noData _ hnone => rw [hattr] at hnone; cases hnone
    | data _ hnone => rw [hattr] at hnone; cases hnone
  | invalid _ _ _ hvalid => simp [Lost, hattr, Discards, hvalid]
  | receive segment len env _ _ hvalid hout =>
    rw [receive_lost_iff h hattr hlive hout]
    exact (and_iff_right hvalid).symm
  | output env _ _ hout => exact output_lost_iff hattr hlive hout
  | timer => exact absurd rfl hcall

theorem slotKept_iff_discardsCovered {state : CtcpState} {call : Call} (h : Wf state) :
    SlotKept state call ↔ DiscardsCovered state call := by
  constructor
  · intro hkept attr hattr hlive hdis
    have hcall : call ≠ .timer := by rintro rfl; exact hdis
    obtain ⟨hne, hlive'⟩ := (lost_iff h hattr hlive hcall).mpr hdis
    rcases hkept attr hattr hcall with hsame | hcov | hdead
    · exact absurd hsame hne
    · exact hcov
    · rw [hlive'] at hdead; cases hdead
  · intro hcov attr hattr hcall
    by_cases hlive : state.conn.deleteMe = false
    · by_cases hlost : Lost attr (step state call)
      · exact Or.inr (Or.inl (hcov attr hattr hlive ((lost_iff h hattr hlive hcall).mp hlost)))
      · by_cases hsame : (step state call).sentSegmentAttr = some attr
        · exact Or.inl hsame
        · exact Or.inr (Or.inr (by simpa using fun hd => hlost ⟨hsame, hd⟩))
    · -- a destroyed connection is not called any more
      have hdead : step state call = state := by simp [step, hlive]
      exact Or.inl (by rw [hdead]; exact hattr)

/-- **The outstanding segment is kept along a run exactly when every call that discards it works on
    an ACK that covers it.** -/
theorem slotKept_iff (cfg : CtcpConfig) (calls : List Call) :
    Along step SlotKept (ctcpInit cfg) calls ↔
      Along step DiscardsCovered (ctcpInit cfg) calls :=
  along_iff_of_invariant (fun state call h _ => wf_step state call h)
    (fun _ _ h => slotKept_iff_discardsCovered h) (wf_init cfg)

/-- The peer's first bytes discard ours, which the peer has not seen: its `ackno` is still 1. -/
theorem slot_lost :
    ¬ Along step SlotKept (ctcpInit ctcpCfg)
      [.read (some ⟨[1, 2, 3], by decide⟩) 20, .arrival (dataSegment 1 1 [9])] := by
  rintro ⟨-, hkept, -⟩
  have hslot := hkept ⟨0, 0, dataSegment 1 1 [1, 2, 3]⟩ (by decide) (by decide)
  rcases hslot with h | ⟨segment, hp, hc⟩ | h
  · revert h; decide
  · have hseg : some segment = some (received (dataSegment 1 1 [9])) := hp ▸ by decide
    cases hseg
    revert hc; decide
  · revert h; decide

/-! ## Giving up -/

/-- How often `segment` has been retransmitted. -/
def resends (segment : CtcpSegment) (state : CtcpState) : Nat :=
  state.trace.count (.resend segment)

/-- **Giving up, as documented**: after `calls` the connection is destroyed, the segment of `attr`
    has been retransmitted five times in all, and it has stayed in the slot until the end. -/
def GivesUp (state : CtcpState) (attr : SegmentAttr) (calls : List Call) : Prop :=
  (run step state calls).conn.deleteMe = true ∧
    attr.noOfTimes.toNat + resends attr.segment (run step state calls)
      = 5 + resends attr.segment state ∧
    ∀ before, before <+: calls → (run step state before).conn.deleteMe = false →
      ∃ attr', (run step state before).sentSegmentAttr = some attr' ∧
        attr'.segment = attr.segment

theorem slot_of_output {env : Env} {state state' : CtcpState}
    (hout : OutputOutcome env state state') :
    state'.sentSegmentAttr = none ∨ state'.sentSegmentAttr = state.sentSegmentAttr := by
  cases hout <;> simp

/-- Only the timer changes the slot in any other way than emptying it or putting a new FIN
    there. -/
theorem slot_of_step {state : CtcpState} {call : Call} {attr : SegmentAttr}
    (hattr : state.sentSegmentAttr = some attr) (hcall : call ≠ .timer) :
    (step state call).sentSegmentAttr = none ∨ (step state call).sentSegmentAttr = some attr ∨
      ∃ ackno, (step state call).sentSegmentAttr
        = some ⟨0, 0, finSegment state.seqno ackno⟩ := by
  have hout := step_outcome state call
  generalize step state call = state' at hout
  cases hout with
  | dead => exact Or.inr (Or.inl hattr)
  | read _ _ _ _ hout => cases hout <;> simp_all
  | invalid => exact Or.inr (Or.inl hattr)
  | receive _ _ _ _ _ _ hout =>
    cases hout with
    | data _ _ _ _ _ _ hout =>
      rcases slot_of_output hout with h | h
      · exact Or.inl h
      · exact Or.inr (Or.inl (h.trans hattr))
    | passiveClose => exact Or.inr (Or.inr ⟨_, rfl⟩)
    | _ => simp [hattr]
  | output _ _ _ hout =>
    rcases slot_of_output hout with h | h
    · exact Or.inl h
    · exact Or.inr (Or.inl (h.trans hattr))
  | timer => exact absurd rfl hcall

theorem resends_of_output {env : Env} {state state' : CtcpState} (segment : CtcpSegment)
    (hout : OutputOutcome env state state') : resends segment state' = resends segment state := by
  cases hout <;> simp [resends]

/-- Only the timer retransmits. -/
theorem resends_of_step (state : CtcpState) {call : Call} (segment : CtcpSegment)
    (hcall : call ≠ .timer) : resends segment (step state call) = resends segment state := by
  have hout := step_outcome state call
  generalize step state call = state' at hout
  cases hout with
  | dead => rfl
  | read _ _ _ _ hout => cases hout <;> simp [resends]
  | invalid => rfl
  | receive _ _ _ _ _ _ hout =>
    cases hout with
    | data _ _ _ _ _ _ hout =>
      rw [resends_of_output segment hout]
      simp [resends]
    | _ => simp [resends]
  | output _ _ _ hout => exact resends_of_output segment hout
  | timer => exact absurd rfl hcall

/-- A tick that destroys the connection retransmits nothing, and a tick that keeps the segment
    counts its retransmission in `no_of_times`. -/
theorem resends_of_timer {state state' : CtcpState} {attr : SegmentAttr}
    (hattr : state.sentSegmentAttr = some attr) (hless : attr.noOfTimes < 5)
    (hlive : state.conn.deleteMe = false) (hout : TimerOutcome state state') :
    (state'.conn.deleteMe = true → resends attr.segment state' = resends attr.segment state) ∧
      ∀ attr', state'.sentSegmentAttr = some attr' → state'.conn.deleteMe = false →
        attr'.noOfTimes.toNat + resends attr.segment state
          = attr.noOfTimes.toNat + resends attr.segment state' := by
  cases hout with
  | expired => exact ⟨fun _ => by simp [resends], by simp⟩
  | running _ _ hout =>
    cases hout with
    | idle hnone =>
      rw [show state.sentSegmentAttr = none from hnone] at hattr
      cases hattr
    | waiting attr' hattr' =>
      obtain rfl : attr = attr' := Option.some.inj (hattr.symm.trans hattr')
      refine ⟨fun _ => rfl, ?_⟩
      rintro _ ⟨⟩ -
      rfl
    | resent attr' hattr' _ hless' =>
      obtain rfl : attr = attr' := Option.some.inj (hattr.symm.trans hattr')
      refine ⟨fun hdead => by simp [hlive] at hdead, ?_⟩
      rintro _ ⟨⟩ -
      have hcount : resends attr.segment ({ state with
          tim := tickTim state
          sentSegmentAttr := some ⟨attr.noOfTimes + 1, attr.time + state.timer, attr.segment⟩ }.log
            [.resend attr.segment]) = resends attr.segment state + 1 := by simp [resends]
      show (attr.noOfTimes + 1).toNat + _ = _
      rw [hcount, noOfTimes_succ hless]
      omega
    | givenUp attr' hattr' => exact ⟨fun hdead => by simp [hlive] at hdead, by simp⟩

/-- **One call.**  If the connection ends, nothing was retransmitted; if the segment stays in the
    slot, `no_of_times` has grown by the number of its retransmissions. -/
theorem resends_step {state : CtcpState} {attr : SegmentAttr} (h : Wf state)
    (hattr : state.sentSegmentAttr = some attr) (hlive : state.conn.deleteMe = false)
    (call : Call) :
    ((step state call).conn.deleteMe = true →
        resends attr.segment (step state call) = resends attr.segment state) ∧
      ∀ attr', (step state call).sentSegmentAttr = some attr' → attr'.segment = attr.segment →
        (step state call).conn.deleteMe = false →
        attr'.noOfTimes.toNat + resends attr.segment state
          = attr.noOfTimes.toNat + resends attr.segment (step state call) := by
  obtain ⟨hout, hless⟩ := h.slot attr hattr
  by_cases hcall : call = .timer
  · subst hcall
    have htimer := step_outcome state .timer
    generalize step state .timer = state' at htimer ⊢
    cases htimer with
    | dead _ hdead => rw [hlive] at hdead; cases hdead
    | timer _ _ htimer =>
      obtain ⟨hend, hkept⟩ := resends_of_timer hattr hless hlive htimer
      exact ⟨hend, fun attr' hattr' _ hlive' => hkept attr' hattr' hlive'⟩
  · have hresends := resends_of_step state attr.segment hcall
    refine ⟨fun _ => hresends, ?_⟩
    intro attr' hattr' hseg hlive'
    rw [hresends]
    rcases slot_of_step hattr hcall with hnone | hsame | ⟨ackno, hfin⟩
    · rw [hnone] at hattr'; cases hattr'
    · obtain rfl : attr = attr' := Option.some.inj (hsame.symm.trans hattr')
      rfl
    · -- a new FIN is another segment
      obtain rfl := Option.some.inj (hfin.symm.trans hattr')
      exact absurd hseg (finSegment_ne_outstanding hout)

/-- **No connection gives up as documented**: from no reachable state, by no sequence of calls. -/
theorem never_given_up (state : CtcpState) (attr : SegmentAttr) (calls : List Call)
    (hreach : Reachable state) (hlive : state.conn.deleteMe = false)
    (hattr : state.sentSegmentAttr = some attr) : ¬ GivesUp state attr calls := by
  have h := hreach.wf
  clear hreach
  -- the induction carries `no_of_times`, which stays below 5, as the number of retransmissions
  induction calls generalizing state attr with
  | nil =>
    rintro ⟨hend, -, -⟩
    rw [show (run step state []) = state from rfl, hlive] at hend
    cases hend
  | cons call calls ih =>
    rintro ⟨hend, hcount, hkept⟩
    obtain ⟨hdestroyed, htimes⟩ := resends_step h hattr hlive call
    by_cases hlive' : (step state call).conn.deleteMe = false
    · obtain ⟨attr', hattr', hseg⟩ := hkept [call] (by simp) hlive'
      have hcount' := htimes attr' hattr' hseg hlive'
      refine ih (step state call) attr' hlive' hattr' (wf_step state call h) ⟨hend, ?_, ?_⟩
      · rw [hseg]
        have hall : attr.noOfTimes.toNat
            + resends attr.segment (run step (step state call) calls)
              = 5 + resends attr.segment state := hcount
        omega
      · intro before hbefore hlive''
        rw [hseg]
        exact hkept (call :: before) (List.prefix_cons_inj call |>.mpr hbefore) hlive''
    · have hdead : (step state call).conn.deleteMe = true := by simpa using hlive'
      have hstop : run step (step state call) calls = step state call :=
        run_dead hdead calls
      have hless : attr.noOfTimes.toNat < 5 := UInt16.lt_iff_toNat_lt.mp (h.slot attr hattr).2
      have hall : attr.noOfTimes.toNat + resends attr.segment (run step (step state call) calls)
          = 5 + resends attr.segment state := hcount
      rw [hstop, hdestroyed hdead] at hall
      omega

/-- The bytes 1, 2, 3 have just been sent. -/
theorem never_given_up_after_read :
    ¬ GivesUp (run step (ctcpInit ctcpCfg) [.read (some ⟨[1, 2, 3], by decide⟩) 20])
      ⟨0, 0, dataSegment 1 1 [1, 2, 3]⟩ (List.replicate 100 .timer) :=
  never_given_up _ _ _ ⟨ctcpCfg, _, rfl⟩ (by decide) (by decide)

/-- Nine ticks of the default configuration retransmit the segment five times and forget it: no
    number of ticks gives up as documented, and the next byte is sent in its place. -/
theorem forgotten_alive :
    let sent := run step (ctcpInit ctcpCfg) [.read (some ⟨[1, 2, 3], by decide⟩) 20]
    let state := run step sent (List.replicate 9 .timer)
    (¬ ∃ n, GivesUp sent ⟨0, 0, dataSegment 1 1 [1, 2, 3]⟩ (List.replicate n .timer)) ∧
      resends (dataSegment 1 1 [1, 2, 3]) state = 5 ∧ state.conn.deleteMe = false ∧
      .send (dataSegment 4 1 [4]) 20 ∈ (step state (.read (some ⟨[4], by decide⟩) 20)).trace := by
  refine ⟨?_, by decide, by decide, by decide⟩
  rintro ⟨n, hend, -, hkept⟩
  rcases Nat.lt_or_ge n 9 with hlt | hge
  · have halive : ∀ n < 9, (run step
        (run step (ctcpInit ctcpCfg) [.read (some ⟨[1, 2, 3], by decide⟩) 20])
        (List.replicate n .timer)).conn.deleteMe = false := by decide
    rw [halive n hlt] at hend
    cases hend
  · have hpre : List.replicate 9 Call.timer <+: List.replicate n .timer :=
      ⟨List.replicate (n - 9) .timer, by rw [List.replicate_append_replicate]; congr 1; omega⟩
    obtain ⟨attr, hattr, -⟩ := hkept _ hpre (by decide)
    have hempty : (run step
        (run step (ctcpInit ctcpCfg) [.read (some ⟨[1, 2, 3], by decide⟩) 20])
        (List.replicate 9 .timer)).sentSegmentAttr = none := by decide
    rw [hempty] at hattr
    cases hattr

end Ctcp
