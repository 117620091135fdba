/-
  What an endpoint acknowledges, it has delivered — as long as no segment leaves a gap.

  `ackno` is set from the sequence number of the arriving segment in six places, and the only
  check before it is that the segment is not OLDER than `ackno`.  A segment that starts BEYOND
  `ackno` moves it across bytes that never came.  `NoGap` excludes these arrivals;
  `acknowledged_delivered` is the law under it: at each segment that `_segment_send` emits, every
  position below its `ackno` has been output, or is the position of an accepted FIN.

  The invariant is the same statement about the current `ackno` (`AckInv.filled`); it is carried
  by `filled_output` for a payload and by `filled_fin` for a FIN.  Sequence numbers may wrap: what
  a wrap leaves to be shown is less, not more.
-/
import Ctcp.Guards

set_option linter.unusedVariables false

namespace Ctcp

open Runs History

/-! ## Delivered positions -/

/-- The event delivers the position `p`: as a byte of an output payload, or as an accepted FIN. -/
def Event.Fills (p : Nat) : Event → Prop
  | .output segment written =>
    segment.seqno.toNat ≤ p ∧ p < segment.seqno.toNat + (datalen segment).toNat ∧ 0 ≤ written
  | .acceptFin seqno => p = seqno.toNat
  | _ => False

instance (p : Nat) : DecidablePred (Event.Fills p) := fun e =>
  match e with
  | .output segment written =>
    inferInstanceAs (Decidable (segment.seqno.toNat ≤ p ∧
      p < segment.seqno.toNat + (datalen segment).toNat ∧ 0 ≤ written))
  | .acceptFin seqno => inferInstanceAs (Decidable (p = seqno.toNat))
  | .input _ | .send .. | .resend _ | .receive _ | .outputEof | .destroy | .fault =>
    inferInstanceAs (Decidable False)

/-- All positions from 1 up to `n` have been delivered. -/
def Filled (h : List Event) (n : Nat) : Prop :=
  ∀ p, 1 ≤ p → p < n → Sees (Event.Fills p) h

/-- A segment that is sent acknowledges only delivered positions. -/
def AcksFilled (before : List Event) : Event → Prop
  | .send segment _ => Filled before (ntohl segment.ackno).toNat
  | _ => True

theorem Filled.append {h : List Event} {n : Nat} (hf : Filled h n) (events : List Event) :
    Filled (h ++ events) n :=
  fun p hp hlt => (hf p hp hlt).mono events

/-- **A payload without a gap** fills everything up to its end. -/
theorem filled_output {h : List Event} {ackno : UInt32} {segment : CtcpSegment} {written : Int}
    (hf : Filled h ackno.toNat) (hseq : segment.seqno ≤ ackno) (hwritten : 0 ≤ written) :
    Filled (h ++ [.output segment written]) (segment.seqno + datalen segment).toNat := by
  intro p hp hlt
  have hle : segment.seqno.toNat ≤ ackno.toNat := UInt32.le_iff_toNat_le.mp hseq
  have hend : (segment.seqno + datalen segment).toNat
      ≤ segment.seqno.toNat + (datalen segment).toNat := by
    rw [UInt32.toNat_add]
    exact Nat.mod_le _ _
  rcases Nat.lt_or_ge p ackno.toNat with hold | hnew
  · exact (hf p hp hold).mono _
  · have hfills : Event.Fills p (.output segment written) :=
      ⟨by omega, by omega, hwritten⟩
    exact sees_of_mem (by simp) hfills

/-- **A FIN without a gap** fills its own position. -/
theorem filled_fin {h : List Event} {ackno seqno : UInt32} (hf : Filled h ackno.toNat)
    (hseq : seqno ≤ ackno) : Filled (h ++ [.acceptFin seqno]) (seqno + 1).toNat := by
  intro p hp hlt
  have hle : seqno.toNat ≤ ackno.toNat := UInt32.le_iff_toNat_le.mp hseq
  have hend : (seqno + 1).toNat ≤ seqno.toNat + 1 := by
    rw [UInt32.toNat_add, UInt32.toNat_one]
    exact Nat.mod_le _ _
  rcases Nat.lt_or_ge p ackno.toNat with hold | hnew
  · exact (hf p hp hold).mono _
  · have hfills : Event.Fills p (.acceptFin seqno) := show p = seqno.toNat by omega
    exact sees_of_mem (by simp) hfills

/-! ## The condition -/

/-- **A call that moves `ackno` works on a segment that does not start beyond it.** -/
def NoGap (state : CtcpState) : Call → Prop
  | .receive segment len env =>
    Valid segment len →
      AcceptsFin state (received segment) ∨ TakesData env state (received segment) →
        (received segment).seqno ≤ state.ackno
  | .output env =>
    ∀ segment, state.receivedSegment = .live segment → Consumes env state segment →
      segment.seqno ≤ state.ackno
  | _ => True

/-! ## The invariant -/

/-- Everything below `ackno` is delivered, and was at each acknowledgement sent so far. -/
structure AckInv (state : CtcpState) : Prop where
  filled : Filled state.trace state.ackno.toNat
  acked : Always AcksFilled state.trace

theorem ackInv_init (cfg : CtcpConfig) : AckInv (ctcpInit cfg) where
  filled := by
    intro p hp hlt
    have hone : (ctcpInit cfg).ackno.toNat = 1 := rfl
    omega
  acked := trivial

theorem AckInv.extend {state state' : CtcpState} {events : List Event} (h : AckInv state)
    (htrace : state'.trace = state.trace ++ events)
    (hfilled : Filled (state.trace ++ events) state'.ackno.toNat)
    (hacked : AlwaysFrom AcksFilled state.trace events) : AckInv state' where
  filled := htrace ▸ hfilled
  acked := htrace ▸ always_append.mpr ⟨h.acked, hacked⟩

/-- Events without a segment sent. -/
theorem AckInv.quiet {state state' : CtcpState} {events : List Event} (h : AckInv state)
    (htrace : state'.trace = state.trace ++ events) (hack : state'.ackno = state.ackno)
    (hevents : ∀ e ∈ events, ∀ segment sent, e ≠ .send segment sent) : AckInv state' := by
  refine h.extend htrace (hack ▸ h.filled.append events) (alwaysFrom_of_forall ?_)
  intro before e he
  cases e with
  | send segment sent => exact absurd rfl (hevents _ he segment sent)
  | _ => trivial

/-- `ctcp_read` acknowledges `ackno` again. -/
theorem AckInv.reads {state state' : CtcpState} {bytes : Option (List UInt8)}
    {segment : CtcpSegment} {sent : Int} (h : AckInv state)
    (htrace : state'.trace = state.trace ++ [.input bytes, .send segment sent])
    (hack : state'.ackno = state.ackno) (hsegment : ntohl segment.ackno = state.ackno) :
    AckInv state' := by
  refine h.extend htrace (hack ▸ h.filled.append _) ⟨trivial, ?_, trivial⟩
  show Filled _ (ntohl segment.ackno).toNat
  rw [hsegment]
  exact h.filled.append _

theorem ackInv_read {state state' : CtcpState} {input : Option Chunk} {sent : Int}
    (h : AckInv state) (hout : ReadOutcome state input sent state') : AckInv state' := by
  cases hout with
  | busy => exact h
  | eofUnsent => exact h.reads rfl rfl (by simp)
  | eofSent => exact h.reads rfl rfl (by simp)
  | unsent => exact h.reads rfl rfl (by simp)
  | noData => exact h.reads rfl rfl (by simp)
  | data => exact h.reads rfl rfl (by simp)

theorem ackInv_output {env : Env} {state state' : CtcpState} (h : AckInv state)
    (hgap : ∀ segment, state.receivedSegment = .live segment → Consumes env state segment →
      segment.seqno ≤ state.ackno)
    (hout : OutputOutcome env state state') : AckInv state' := by
  cases hout with
  | noRoom => exact ⟨h.filled, h.acked⟩
  | kept => exact h
  | empty segment hlive hroom hlen =>
    have hseq := hgap segment hlive ⟨hroom, by simp [hlen], Or.inl hlen⟩
    refine ⟨fun p hp hlt => h.filled p hp ?_, h.acked⟩
    exact Nat.lt_of_lt_of_le hlt (UInt32.le_iff_toNat_le.mp hseq)
  | failed => exact h.quiet rfl rfl (by simp)
  | delivered segment hlive hroom hlen hfits hwritten =>
    have hseq := hgap segment hlive ⟨hroom, hfits, Or.inr hwritten⟩
    have hfilled := filled_output h.filled hseq hwritten
    refine h.extend rfl ?_ ⟨trivial, ?_, trivial⟩
    · simpa using hfilled.append [.send _ env.sent₀]
    · simpa [AcksFilled, record] using hfilled
  | fault => exact h.quiet rfl rfl (by simp)

theorem ackInv_receive {env : Env} {state state' : CtcpState} {segment : CtcpSegment}
    (h : AckInv state)
    (hgap : AcceptsFin state segment ∨ TakesData env state segment → segment.seqno ≤ state.ackno)
    (hout : ReceiveOutcome env state segment state') : AckInv state' := by
  cases hout with
  | stale => exact h.quiet rfl rfl (by simp)
  | passiveUnsent hconn hnew hfin hsent =>
    have hseq := hgap (Or.inl ⟨hfin, Or.inl ⟨hconn, hnew⟩⟩)
    have hfilled := filled_fin (h.filled.append [.receive segment, .outputEof]) hseq
    refine h.extend rfl ?_ ⟨trivial, trivial, trivial, ?_, ?_, trivial⟩
    · simpa using hfilled.append _
    · simpa [AcksFilled, record] using hfilled
    · simpa [AcksFilled, record] using hfilled.append _
  | passiveClose hconn hnew hfin hsent =>
    have hseq := hgap (Or.inl ⟨hfin, Or.inl ⟨hconn, hnew⟩⟩)
    have hfilled := filled_fin (h.filled.append [.receive segment, .outputEof]) hseq
    refine h.extend rfl ?_ ⟨trivial, trivial, trivial, ?_, ?_, trivial⟩
    · simpa using hfilled.append _
    · simpa [AcksFilled, record] using hfilled
    · simpa [AcksFilled, record] using hfilled.append _
  | pureAck hconn hnew hfin hack hlen =>
    have hseq := hgap (Or.inr ⟨hconn, hnew, hfin, hack, Or.inl hlen⟩)
    have hle := UInt32.le_iff_toNat_le.mp hseq
    refine h.extend rfl ?_ ⟨trivial, trivial⟩
    exact fun p hp hlt => (h.filled.append _) p hp (Nat.lt_of_lt_of_le hlt hle)
  | data hconn hnew hfin hack hlen _ hout =>
    have hreceive : AckInv
        ({ state with receivedSegment := .live segment }.log [.receive segment]) :=
      h.quiet rfl rfl (by simp)
    refine ackInv_output hreceive ?_ hout
    rintro _ ⟨⟩ hcons
    exact hgap (Or.inr ⟨hconn, hnew, hfin, hack, Or.inr hcons⟩)
  | unflagged => exact h.quiet rfl rfl (by simp)
  | closingFinAck => exact h.quiet rfl rfl (by simp)
  | closingAck => exact h.quiet rfl rfl (by simp)
  | closingFin hconn hack hfin =>
    have hseq := hgap (Or.inl ⟨hfin, Or.inr (Or.inl ⟨hconn, hack⟩)⟩)
    have hfilled := filled_fin (h.filled.append [.receive segment]) hseq
    refine h.extend rfl ?_ ⟨trivial, trivial, ?_, trivial, trivial⟩
    · simpa using hfilled.append _
    · simpa [AcksFilled, record] using hfilled
  | lastFin hconn hfin =>
    have hseq := hgap (Or.inl ⟨hfin, Or.inr (Or.inr hconn)⟩)
    have hfilled := filled_fin (h.filled.append [.receive segment]) hseq
    refine h.extend rfl ?_ ⟨trivial, trivial, ?_, trivial⟩
    · simpa using hfilled.append _
    · simpa [AcksFilled, record] using hfilled
  | lastAck => exact h.quiet rfl rfl (by simp)
  | ignored => exact h.quiet rfl rfl (by simp)

theorem ackInv_timer {state state' : CtcpState} (h : AckInv state)
    (hout : TimerOutcome state state') : AckInv state' := by
  cases hout with
  | expired => exact h.quiet rfl rfl (by simp)
  | running _ _ hout =>
    cases hout with
    | idle => exact ⟨h.filled, h.acked⟩
    | waiting => exact ⟨h.filled, h.acked⟩
    | resent => exact h.quiet rfl rfl (by simp)
    | givenUp => exact h.quiet rfl rfl (by simp)

theorem ackInv_step (state : CtcpState) (call : Call) (h : AckInv state)
    (hgap : NoGap state call) : AckInv (step state call) := by
  have hout := step_outcome state call
  generalize step state call = state' at hout ⊢
  cases hout with
  | dead => exact h
  | read _ _ _ _ hout => exact ackInv_read h hout
  | invalid => exact h
  | receive segment len env _ _ hvalid hout => exact ackInv_receive h (hgap hvalid) hout
  | output _ _ _ hout => exact ackInv_output h hgap hout
  | timer _ _ hout => exact ackInv_timer h hout

/-- **An endpoint acknowledges only what it has delivered**, in every run in which no segment that
    moves `ackno` starts beyond it. -/
theorem acknowledged_delivered (cfg : CtcpConfig) (calls : List Call)
    (hgap : Along step NoGap (ctcpInit cfg) calls) :
    Always AcksFilled (run step (ctcpInit cfg) calls).trace :=
  (hgap.invariant ackInv_step (ackInv_init cfg)).acked

/-- Three bytes arrive in order. -/
theorem acknowledged_delivered_in_order :
    Always AcksFilled
      (run step (ctcpInit ctcpCfg) [.arrival (dataSegment 1 1 [1, 2, 3])]).trace :=
  acknowledged_delivered ctcpCfg _ ⟨fun _ _ => by decide, trivial⟩

/-- A bare ACK with sequence number 4 arrives first: the three bytes before it are acknowledged
    together with the next one. -/
theorem gap_acknowledged :
    ¬ Always AcksFilled (run step (ctcpInit ctcpCfg)
      [.arrival (ackSegment 4 1), .arrival (dataSegment 4 1 [9])]).trace := by
  intro h
  have htrace : (run step (ctcpInit ctcpCfg)
      [.arrival (ackSegment 4 1), .arrival (dataSegment 4 1 [9])]).trace
        = [.receive (received (ackSegment 4 1)), .receive (received (dataSegment 4 1 [9])),
            .output (received (dataSegment 4 1 [9])) 1] ++ .send (ackSegment 1 5) 20 :: [] := by
    decide
  have hfilled : Filled _ (ntohl (ackSegment 1 5).ackno).toNat := (htrace ▸ h).at
  exact absurd (hfilled 1 (by decide) (by decide)) (by decide)

end Ctcp
