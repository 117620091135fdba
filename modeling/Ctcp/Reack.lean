/-
  What a copy of delivered data does to the receiver.

  When an ACK is lost the sender retransmits, and the receiver sees data that it has already
  output.  `Repaired` says what would help: the copy is acknowledged again, and not output again.
  In `DATA_TRANSFER` a segment below `ackno` takes the branch `goto exit_receive` instead, without
  an answer (`stale_silent`); only a FIN in `WAIT_LAST_FIN` is acknowledged every time it comes.

  1. **One segment** (`repaired_iff`) — new data is acknowledged when it could be written; a copy
     never is.
  2. **All the retransmissions** (`copies_unanswered`) — whatever number of copies comes, nothing
     is sent.
-/
import Ctcp.AckMonotone

set_option linter.unusedVariables false

namespace Ctcp

open Runs History

/-- **The arrival repairs the loss of an ACK**: an ACK with the current `ackno` leaves, which covers
    the segment, and what was delivered before is not output again. -/
def Repaired (env : Env) (state : CtcpState) (segment : CtcpSegment) (len : Nat) : Prop :=
  (∃ reply sent, .send reply sent ∈ events state (.receive segment len env) ∧ isAck reply ∧
      ntohl reply.ackno = (step state (.receive segment len env)).ackno ∧
      (received segment).seqno + datalen (received segment) ≤ ntohl reply.ackno) ∧
    (dataEnd (received segment) ≤ state.ackno.toNat →
      ∀ segment' written, .output segment' written ∉ events state (.receive segment len env))

/-! ## One segment -/

/-- `ctcp_receive` of a valid segment, on a connection that has not been destroyed. -/
theorem step_receive (env : Env) {state : CtcpState} {segment : CtcpSegment} {len : Nat}
    (hlive : state.conn.deleteMe = false) (hvalid : Valid segment len) :
    step state (.receive segment len env)
      = receiveSegment env (state.log [.receive (received segment)]) (received segment) := by
  simp only [step, hlive, ctcpReceive]
  exact if_pos hvalid

theorem receive_outcome (env : Env) {state : CtcpState} {segment : CtcpSegment} {len : Nat}
    (hlive : state.conn.deleteMe = false) (hvalid : Valid segment len) :
    ReceiveOutcome env state (received segment) (step state (.receive segment len env)) := by
  rw [step_receive env hlive hvalid]
  exact receiveSegment_outcome env state (received segment)

/-- A segment below `ackno` is not answered, and changes nothing. -/
theorem stale_silent (env : Env) {state : CtcpState} {segment : CtcpSegment} {len : Nat}
    (hlive : state.conn.deleteMe = false) (hconn : state.connState = .dataTransfer)
    (hvalid : Valid segment len) (hold : (received segment).seqno < state.ackno) :
    step state (.receive segment len env) = state.log [.receive (received segment)] := by
  have hout := receive_outcome env hlive hvalid
  generalize step state (.receive segment len env) = state' at hout ⊢
  cases hout with
  | stale => rfl
  | passiveUnsent _ hnew => exact absurd hold (UInt32.not_lt.mpr hnew)
  | passiveClose _ hnew => exact absurd hold (UInt32.not_lt.mpr hnew)
  | pureAck _ hnew => exact absurd hold (UInt32.not_lt.mpr hnew)
  | data _ hnew => exact absurd hold (UInt32.not_lt.mpr hnew)
  | unflagged => rfl
  | closingFinAck htear => cases hconn.symm.trans htear
  | closingAck htear => cases hconn.symm.trans htear
  | closingFin htear => cases hconn.symm.trans htear
  | lastFin hlast => cases hconn.symm.trans hlast
  | lastAck hlast => cases hconn.symm.trans hlast
  | ignored hnot => exact absurd hconn hnot

/-- Data that start at or beyond `ackno`, and fit, are passed to `conn_output`. -/
theorem fresh_output {env : Env} {state : CtcpState} {segment : CtcpSegment} {len : Nat}
    (hlive : state.conn.deleteMe = false) (hconn : state.connState = .dataTransfer)
    (hvalid : Valid segment len) (hnew : state.ackno ≤ (received segment).seqno)
    (hfin : (received segment).flags &&& FIN = 0) (hack : (received segment).flags &&& ACK ≠ 0)
    (hdata : datalen (received segment) ≠ 0)
    (hfits : (datalen (received segment)).toNat ≤ env.bufspace) :
    OutputOutcome env
      ({ state with receivedSegment := .live (received segment) }.log
        [.receive (received segment)])
      (step state (.receive segment len env)) := by
  have hout := receive_outcome env hlive hvalid
  generalize step state (.receive segment len env) = state' at hout ⊢
  cases hout with
  | stale _ hold => exact absurd hold (UInt32.not_lt.mpr hnew)
  | passiveUnsent _ _ hflag => exact absurd hfin hflag
  | passiveClose _ _ hflag => exact absurd hfin hflag
  | pureAck _ _ _ _ hlen => exact absurd (datalen_eq_zero hlen) hdata
  | data _ _ _ _ _ _ hout => exact hout
  | unflagged _ _ hnot => exact absurd hnot hack
  | closingFinAck htear => cases hconn.symm.trans htear
  | closingAck htear => cases hconn.symm.trans htear
  | closingFin htear => cases hconn.symm.trans htear
  | lastFin hlast => cases hconn.symm.trans hlast
  | lastAck hlast => cases hconn.symm.trans hlast
  | ignored hnot => exact absurd hconn hnot

/-- **What new data do that fit**: they are written and acknowledged, or `conn_output` fails. -/
theorem events_fresh {env : Env} {state : CtcpState} {segment : CtcpSegment} {len : Nat}
    (hlive : state.conn.deleteMe = false) (hconn : state.connState = .dataTransfer)
    (hopen : state.conn.wroteEof = false) (hvalid : Valid segment len)
    (hnew : state.ackno ≤ (received segment).seqno) (hfin : (received segment).flags &&& FIN = 0)
    (hack : (received segment).flags &&& ACK ≠ 0) (hdata : datalen (received segment) ≠ 0)
    (hfits : (datalen (received segment)).toNat ≤ env.bufspace) :
    let ackno := (received segment).seqno + datalen (received segment)
    (0 ≤ env.written ∧ (step state (.receive segment len env)).ackno = ackno ∧
        events state (.receive segment len env) = [.receive (received segment),
          .output (received segment) env.written, .send (ackSegment state.seqno ackno) env.sent₀]) ∨
      env.written < 0 ∧ events state (.receive segment len env)
        = [.receive (received segment), .output (received segment) env.written, .destroy] := by
  intro ackno
  have hpos : 0 < (datalen (received segment)).toNat :=
    Nat.pos_of_ne_zero fun hzero => hdata (UInt32.toNat_inj.mp hzero)
  have hout := fresh_output hlive hconn hvalid hnew hfin hack hdata hfits
  have hresult : outputResult env
      ({ state with receivedSegment := .live (received segment) }.log
        [.receive (received segment)]) = env.written := by
    simp [outputResult, hopen]
  have htrace := step_trace state (.receive segment len env)
  generalize events state (.receive segment len env) = es at htrace ⊢
  generalize step state (.receive segment len env) = state' at hout htrace ⊢
  cases hout with
  | noRoom _ _ hnone => omega
  | kept segment' hseg _ hless =>
    obtain rfl : received segment = segment' := SegmentPtr.live.inj hseg
    omega
  | empty segment' hseg _ hzero =>
    obtain rfl : received segment = segment' := SegmentPtr.live.inj hseg
    exact absurd hzero hdata
  | failed segment' hseg _ _ _ hwritten =>
    obtain rfl : received segment = segment' := SegmentPtr.live.inj hseg
    have hes : es = [.receive (received segment)] ++ [.output (received segment) _, .destroy] :=
      List.append_cancel_left (htrace.symm.trans (List.append_assoc state.trace _ _))
    rw [hresult] at hwritten hes
    exact Or.inr ⟨hwritten, hes⟩
  | delivered segment' hseg _ _ _ hwritten =>
    obtain rfl : received segment = segment' := SegmentPtr.live.inj hseg
    have hes : es = [.receive (received segment)] ++ [.output (received segment) _,
        .send (ackSegment state.seqno _) env.sent₀] :=
      List.append_cancel_left (htrace.symm.trans (List.append_assoc state.trace _ _))
    rw [hresult] at hwritten hes
    exact Or.inl ⟨hwritten, rfl, hes⟩
  | fault hdead => exact absurd rfl (hdead (received segment))

/-- Without an answer nothing is repaired. -/
theorem not_repaired {env : Env} {state : CtcpState} {segment : CtcpSegment} {len : Nat}
    (hsilent : ∀ reply sent, .send reply sent ∉ events state (.receive segment len env)) :
    ¬ Repaired env state segment len := by
  rintro ⟨⟨reply, sent, hmem, -⟩, -⟩
  exact hsilent reply sent hmem

/-- **When an arrival repairs the loss of an ACK**: when it is not a copy, and is written. -/
theorem repaired_iff (env : Env) (state : CtcpState) (segment : CtcpSegment) (len : Nat)
    (hreach : Reachable state) (hlive : state.conn.deleteMe = false)
    (hconn : state.connState = .dataTransfer) (hvalid : Valid segment len)
    (hack : (received segment).flags &&& ACK ≠ 0) (hfin : (received segment).flags &&& FIN = 0)
    (hdata : datalen (received segment) ≠ 0)
    (hfits : (datalen (received segment)).toNat ≤ env.bufspace)
    (hrange : dataEnd (received segment) ≤ state.ackno.toNat ∨
      (received segment).seqno = state.ackno) :
    Repaired env state segment len ↔ (received segment).seqno = state.ackno ∧ 0 ≤ env.written := by
  have hpos : 0 < (datalen (received segment)).toNat :=
    Nat.pos_of_ne_zero fun hzero => hdata (UInt32.toNat_inj.mp hzero)
  have hopen : state.conn.wroteEof = false := (hreach.wf.opened hconn).2.1
  -- in order it goes through `ctcp_output`; below `ackno` it never gets there
  by_cases hseq : (received segment).seqno = state.ackno
  · have hnew : state.ackno ≤ (received segment).seqno := UInt32.le_of_eq hseq.symm
    rcases events_fresh hlive hconn hopen hvalid hnew hfin hack hdata hfits with
      ⟨hwritten, hackno, hevents⟩ | ⟨hfailed, hevents⟩
    · refine iff_of_true ⟨?_, ?_⟩ ⟨hseq, hwritten⟩
      · have hmem : .send (ackSegment state.seqno
            ((received segment).seqno + datalen (received segment))) env.sent₀
              ∈ events state (.receive segment len env) := by
          rw [hevents]
          simp
        refine ⟨_, _, hmem, isAck_ackSegment _ _, ?_, ?_⟩
        · rw [hackno]
          exact ackSegment_ackno _ _
        · rw [ackSegment_ackno]
          exact UInt32.le_refl _
      · -- new data has not been delivered before
        intro hbelow
        unfold dataEnd at hbelow
        rw [hseq] at hbelow
        omega
    · refine iff_of_false (not_repaired ?_) (fun h => by omega)
      intro reply sent
      rw [hevents]
      simp
  · have hbelow := hrange.resolve_right hseq
    have hold : (received segment).seqno < state.ackno := by
      rw [UInt32.lt_iff_toNat_lt]
      unfold dataEnd at hbelow
      omega
    have hsilent := stale_silent env hlive hconn hvalid hold
    have hevents : events state (.receive segment len env) = [.receive (received segment)] :=
      events_eq (by rw [hsilent]; rfl)
    refine iff_of_false (not_repaired ?_) (fun h => hseq h.1)
    intro reply sent
    rw [hevents]
    simp

/-- Three bytes arrive in order. -/
theorem repaired_in_order :
    Repaired Env.roomy (ctcpInit ctcpCfg) (dataSegment 1 1 [1, 2, 3]) 23 :=
  (repaired_iff Env.roomy (ctcpInit ctcpCfg) (dataSegment 1 1 [1, 2, 3]) 23 ⟨ctcpCfg, [], rfl⟩
    (by decide) (by decide) (by decide) (by decide) (by decide) (by decide) (by decide)
    (by decide)).mpr (by decide)

/-- Three bytes have been output and acknowledged; they arrive once more, and nothing is sent. -/
theorem copy_unanswered :
    let state := step (ctcpInit ctcpCfg) (.arrival (dataSegment 1 1 [1, 2, 3]))
    dataEnd (received (dataSegment 1 1 [1, 2, 3])) ≤ state.ackno.toNat ∧
      ¬ Repaired Env.roomy state (dataSegment 1 1 [1, 2, 3]) 23 := by
  have hevents : events (step (ctcpInit ctcpCfg) (.arrival (dataSegment 1 1 [1, 2, 3])))
      (.receive (dataSegment 1 1 [1, 2, 3]) 23 Env.roomy)
        = [.receive (received (dataSegment 1 1 [1, 2, 3]))] := by decide
  refine ⟨by decide, not_repaired ?_⟩
  intro reply sent
  rw [hevents]
  simp

/-! ## All the retransmissions -/

/-- Copies of delivered data, in any number, are never answered. -/
theorem copies_unanswered {env : Env} {state : CtcpState} {segment : CtcpSegment} {len : Nat}
    (hlive : state.conn.deleteMe = false) (hconn : state.connState = .dataTransfer)
    (hvalid : Valid segment len) (hold : (received segment).seqno < state.ackno) (n : Nat) :
    run step state (List.replicate n (.receive segment len env))
      = state.log (List.replicate n (.receive (received segment))) := by
  induction n generalizing state with
  | zero => simp [run, CtcpState.log]
  | succ n ih =>
    have hstep := stale_silent env hlive hconn hvalid hold
    have hrest : run step (state.log [.receive (received segment)])
        (List.replicate n (.receive segment len env)) = _ := ih hlive hconn hold
    rw [List.replicate_succ, run, hstep, hrest, CtcpState.log_log, List.replicate_succ]
    rfl

end Ctcp
