/-
  The segment that waits for room in the output buffer.

  `received_segment` is set by `ctcp_receive` for every segment with data, and `ctcp_output` frees
  what it points to once it has been output or dropped; the pointer itself stays.  A segment that
  does not fit is kept, and `conn_drain` calls `ctcp_output` again when some of the output has been
  written.  It does so whatever has become of the segment, so a callback after a delivery works on
  freed memory.

  `consumed_once` says in which runs that does not happen, and that there every position of the
  peer's stream is output at most once and a kept segment is neither dropped nor exchanged.
-/
import Ctcp.Stream

set_option linter.unusedVariables false

namespace Ctcp

open Runs History

/-! ## The law and the condition -/

/-- One past the last position of a segment in host order. -/
def dataEnd (segment : CtcpSegment) : Nat := segment.seqno.toNat + (datalen segment).toNat

/-- **No position is output twice**: what is passed to `conn_output` starts at or after the end of
    everything passed before. -/
def OutputOnce (before : List Event) (e : Event) : Prop :=
  ∀ segment written, e = .output segment written →
    ∀ segment' written', .output segment' written' ∈ before → dataEnd segment' ≤ segment.seqno.toNat

/-- The same data at the same position. -/
def Copy (segment copy : CtcpSegment) : Prop :=
  copy.seqno = segment.seqno ∧ payload copy = payload segment

/-- **A kept segment is not lost**: after the call it is still kept, or a copy of it is, or it has
    been passed to `conn_output`; or the connection has ended. -/
def KeptSurvives (state : CtcpState) (call : Call) : Prop :=
  ∀ kept, state.receivedSegment = .live kept →
    (∃ copy, (step state call).receivedSegment = .live copy ∧ Copy kept copy) ∨
      (∃ segment written, .output segment written ∈ events state call ∧ Copy kept segment) ∨
      (step state call).conn.deleteMe = true

/-- `ctcp_receive` hands the segment to `ctcp_output`. -/
def HandsOver (state : CtcpState) (segment : CtcpSegment) : Prop :=
  state.connState = .dataTransfer ∧ state.ackno ≤ segment.seqno ∧ segment.flags &&& FIN = 0 ∧
    segment.flags &&& ACK ≠ 0 ∧ segment.len ≠ UInt16.ofNat segmentHdrSize

/-- **The calls that keep account of the kept segment**: `conn_drain` calls only when there is one,
    and with some room; data that arrive end below 2^32, and while a segment is kept they are a
    copy of it, and there is some room. -/
def InAccount (state : CtcpState) (call : Call) : Prop :=
  state.conn.deleteMe = false →
    match call with
    | .output env => env.bufspace ≠ 0 ∧ ∃ segment, state.receivedSegment = .live segment
    | .receive segment len env => Valid segment len → HandsOver state (received segment) →
        dataEnd (received segment) < 2 ^ 32 ∧
          ∀ kept, state.receivedSegment = .live kept →
            env.bufspace ≠ 0 ∧ Copy kept (received segment)
    | _ => True

/-! ## The invariant -/

/-- What has been output lies before `ackno`, and before the kept segment. -/
structure ConsumeInv (state : CtcpState) : Prop where
  noFault : .fault ∉ state.trace
  once : Always OutputOnce state.trace
  passed : state.conn.deleteMe = false → state.connState = .dataTransfer → ∀ segment written,
    .output segment written ∈ state.trace → dataEnd segment ≤ state.ackno.toNat
  kept : state.conn.deleteMe = false → ∀ kept, state.receivedSegment = .live kept →
    datalen kept ≠ 0 ∧ dataEnd kept < 2 ^ 32 ∧ ∀ segment written,
      .output segment written ∈ state.trace → dataEnd segment ≤ kept.seqno.toNat

theorem consumeInv_init (cfg : CtcpConfig) : ConsumeInv (ctcpInit cfg) := by
  refine ⟨?_, ?_, ?_, ?_⟩ <;> simp [ctcpInit]

/-- An event of `ctcp_output` that reads `received_segment`. -/
def Event.TouchesSegment : Event → Prop
  | .output _ _ => True
  | .fault => True
  | _ => False

attribute [simp] Event.TouchesSegment

/-- A call that leaves the kept segment alone. -/
theorem ConsumeInv.quiet {state state' : CtcpState} {es : List Event} (h : ConsumeInv state)
    (hlive : state.conn.deleteMe = false) (htrace : state'.trace = state.trace ++ es)
    (hes : ¬ Sees Event.TouchesSegment es)
    (hconn : state'.connState = .dataTransfer →
      state.connState = .dataTransfer ∧ state.ackno ≤ state'.ackno)
    (hseg : state'.receivedSegment = state.receivedSegment) : ConsumeInv state' := by
  have hout : ∀ segment written, .output segment written ∈ state'.trace →
      .output segment written ∈ state.trace := by
    intro segment written hmem
    rw [htrace] at hmem
    rcases List.mem_append.mp hmem with hold | hnew
    · exact hold
    · exact absurd (sees_of_mem hnew trivial) hes
  constructor
  · intro hmem
    rw [htrace] at hmem
    rcases List.mem_append.mp hmem with hold | hnew
    · exact h.noFault hold
    · exact hes (sees_of_mem hnew trivial)
  · rw [htrace]
    refine always_append.mpr ⟨h.once, alwaysFrom_of_forall ?_⟩
    rintro before e hmem segment written rfl
    exact absurd (sees_of_mem hmem trivial) hes
  · intro _ hdata segment written hmem
    obtain ⟨hold, hle⟩ := hconn hdata
    have hpassed := h.passed hlive hold segment written (hout segment written hmem)
    have hack := UInt32.le_iff_toNat_le.mp hle
    omega
  · intro _ kept hkept
    obtain ⟨hlen, hend, hbefore⟩ := h.kept hlive kept (hseg ▸ hkept)
    exact ⟨hlen, hend, fun segment written hmem =>
      hbefore segment written (hout segment written hmem)⟩

/-- The same, where `ackno` and the state of the connection stay too. -/
theorem ConsumeInv.still {state state' : CtcpState} {es : List Event} (h : ConsumeInv state)
    (hlive : state.conn.deleteMe = false) (htrace : state'.trace = state.trace ++ es)
    (hes : ¬ Sees Event.TouchesSegment es) (hconn : state'.connState = state.connState)
    (hackno : state'.ackno = state.ackno)
    (hseg : state'.receivedSegment = state.receivedSegment) : ConsumeInv state' := by
  refine h.quiet hlive htrace hes ?_ hseg
  intro hdata
  exact ⟨hconn.symm.trans hdata, UInt32.le_of_eq hackno.symm⟩

/-- The trace of a call that outputs the kept segment. -/
theorem ConsumeInv.outputs {state : CtcpState} {segment : CtcpSegment} (h : ConsumeInv state)
    (hlive : state.conn.deleteMe = false) (hseg : state.receivedSegment = .live segment)
    (written : Int) {e : Event} (he : ¬ e.TouchesSegment) :
    .fault ∉ state.trace ++ [.output segment written, e] ∧
      Always OutputOnce (state.trace ++ [.output segment written, e]) := by
  obtain ⟨hlen, hend, hbefore⟩ := h.kept hlive segment hseg
  constructor
  · intro hmem
    rcases List.mem_append.mp hmem with hold | hnew
    · exact h.noFault hold
    · obtain rfl : Event.fault = e := by simpa using hnew
      exact he trivial
  · refine always_append.mpr ⟨h.once, ?_, ?_, trivial⟩
    · rintro _ _ ⟨⟩ segment' written' hmem
      exact hbefore segment' written' hmem
    · rintro _ _ rfl
      exact absurd trivial he

/-- Without a wrap, `ackno` after a delivery. -/
theorem toNat_dataEnd {segment : CtcpSegment} (h : dataEnd segment < 2 ^ 32) :
    (segment.seqno + datalen segment).toNat = dataEnd segment := by
  unfold dataEnd at h ⊢
  rw [UInt32.toNat_add]
  omega

theorem consumeInv_output {env : Env} {state state' : CtcpState} (h : ConsumeInv state)
    (hlive : state.conn.deleteMe = false)
    (hkept : ∃ segment, state.receivedSegment = .live segment)
    (hout : OutputOutcome env state state') : ConsumeInv state' := by
  cases hout with
  | noRoom => exact ⟨h.noFault, h.once, h.passed, by simp⟩
  | kept => exact h
  | empty segment hseg _ hlen => exact absurd hlen (h.kept hlive segment hseg).1
  | failed segment hseg =>
    have hdestroy : ¬ Event.destroy.TouchesSegment := by simp
    obtain ⟨hfault, honce⟩ := h.outputs hlive hseg (outputResult env state) hdestroy
    exact ⟨hfault, honce, by simp, by simp⟩
  | delivered segment hseg =>
    obtain ⟨hlen, hend, hbefore⟩ := h.kept hlive segment hseg
    have hack : ¬ (Event.send (ackSegment state.seqno (segment.seqno + datalen segment))
        env.sent₀).TouchesSegment := by simp
    obtain ⟨hfault, honce⟩ := h.outputs hlive hseg (outputResult env state) hack
    refine ⟨hfault, honce, ?_, by simp⟩
    -- everything output ends where this segment does, or before it starts
    intro _ _ segment' written' hmem
    show dataEnd segment' ≤ (segment.seqno + datalen segment).toNat
    rw [toNat_dataEnd hend]
    have hstart : segment.seqno.toNat ≤ dataEnd segment := Nat.le_add_right _ _
    rcases List.mem_append.mp hmem with hold | hnew
    · have hle := hbefore segment' written' hold
      omega
    · obtain ⟨rfl, -⟩ : segment' = segment ∧ written' = outputResult env state := by
        simpa using hnew
      exact Nat.le_refl _
  | fault hdead =>
    obtain ⟨segment, hseg⟩ := hkept
    exact absurd hseg (hdead segment)

/-- A segment that is not a bare ACK has data, or a length field below the header size. -/
theorem datalen_ne_zero {segment : CtcpSegment} (h : segment.len ≠ UInt16.ofNat segmentHdrSize) :
    datalen segment ≠ 0 := by
  intro hzero
  apply h
  have heq : segment.len.toUInt32 = UInt32.ofNat segmentHdrSize := by
    have hsum := UInt32.sub_eq_iff_eq_add.mp hzero
    rwa [UInt32.zero_add] at hsum
  apply UInt16.toNat_inj.mp
  rw [← UInt16.toNat_toUInt32, heq]
  rfl

/-- A segment with data arrives. -/
theorem consumeInv_arrival {state : CtcpState} {segment : CtcpSegment} (h : ConsumeInv state)
    (hlive : state.conn.deleteMe = false) (hand : HandsOver state segment)
    (hend : dataEnd segment < 2 ^ 32) :
    ConsumeInv ({ state with receivedSegment := .live segment }.log [.receive segment]) := by
  obtain ⟨hconn, hnew, -, -, hlen⟩ := hand
  have hquiet : ConsumeInv (state.log [.receive segment]) :=
    h.still hlive rfl (by simp) rfl rfl rfl
  refine ⟨hquiet.noFault, hquiet.once, hquiet.passed, ?_⟩
  rintro _ _ ⟨⟩
  refine ⟨datalen_ne_zero hlen, hend, ?_⟩
  intro segment' written' hmem
  have hpassed := hquiet.passed hlive hconn segment' written' hmem
  have hack := UInt32.le_iff_toNat_le.mp hnew
  exact Nat.le_trans hpassed hack

theorem consumeInv_receive {env : Env} {state state' : CtcpState} {segment : CtcpSegment}
    (h : ConsumeInv state) (hlive : state.conn.deleteMe = false)
    (hacc : HandsOver state segment → dataEnd segment < 2 ^ 32)
    (hout : ReceiveOutcome env state segment state') : ConsumeInv state' := by
  cases hout with
  | stale hconn => exact h.still hlive rfl (by simp) rfl rfl rfl
  | passiveUnsent => exact h.quiet hlive rfl (by simp) nofun rfl
  | passiveClose => exact h.quiet hlive rfl (by simp) nofun rfl
  | pureAck hconn hnew => exact h.quiet hlive rfl (by simp) (fun hdata => ⟨hdata, hnew⟩) rfl
  | data hconn hnew hfin hack hlen _ hout =>
    have hand : HandsOver state segment := ⟨hconn, hnew, hfin, hack, hlen⟩
    exact consumeInv_output (consumeInv_arrival h hlive hand (hacc hand)) hlive ⟨segment, rfl⟩ hout
  | unflagged => exact h.still hlive rfl (by simp) rfl rfl rfl
  | closingFinAck => exact h.quiet hlive rfl (by simp) nofun rfl
  | closingAck => exact h.quiet hlive rfl (by simp) nofun rfl
  | closingFin hconn =>
    exact h.quiet hlive rfl (by simp) (fun hdata => nomatch hconn.symm.trans hdata) rfl
  | lastFin hconn =>
    exact h.quiet hlive rfl (by simp) (fun hdata => nomatch hconn.symm.trans hdata) rfl
  | lastAck => exact h.still hlive rfl (by simp) rfl rfl rfl
  | ignored => exact h.still hlive rfl (by simp) rfl rfl rfl

theorem consumeInv_timer {state state' : CtcpState} (h : ConsumeInv state)
    (hlive : state.conn.deleteMe = false) (hout : TimerOutcome state state') :
    ConsumeInv state' := by
  cases hout with
  | expired => exact h.still hlive rfl (by simp) rfl rfl rfl
  | running _ _ hout =>
    cases hout with
    | idle => exact ⟨h.noFault, h.once, h.passed, h.kept⟩
    | waiting => exact ⟨h.noFault, h.once, h.passed, h.kept⟩
    | _ => exact h.still hlive rfl (by simp) rfl rfl rfl

theorem consumeInv_step (state : CtcpState) (call : Call) (h : ConsumeInv state)
    (hacc : InAccount state call) : ConsumeInv (step state call) := by
  have hout := step_outcome state call
  generalize step state call = state' at hout ⊢
  cases hout with
  | dead => exact h
  | read _ _ _ hlive hout =>
    cases hout with
    | busy => exact h
    | eofSent => exact h.quiet hlive rfl (by simp) nofun rfl
    | _ => exact h.still hlive rfl (by simp) rfl rfl rfl
  | invalid => exact h
  | receive _ _ _ _ hlive hvalid hout =>
    exact consumeInv_receive h hlive (fun hand => (hacc hlive hvalid hand).1) hout
  | output _ _ hlive hout => exact consumeInv_output h hlive (hacc hlive).2 hout
  | timer _ hlive hout => exact consumeInv_timer h hlive hout

/-! ## The kept segment -/

theorem Copy.refl (segment : CtcpSegment) : Copy segment segment := ⟨rfl, rfl⟩

/-- What `ctcp_output` does with the segment, when there is some room. -/
theorem survives_output {env : Env} {state state' : CtcpState} {segment : CtcpSegment}
    (hseg : state.receivedSegment = .live segment) (hroom : env.bufspace ≠ 0)
    (hlen : datalen segment ≠ 0) (hout : OutputOutcome env state state') :
    state'.receivedSegment = .live segment ∨
      ∃ written e, state'.trace = state.trace ++ [.output segment written, e] := by
  cases hout with
  | noRoom _ _ hnone => exact absurd hnone hroom
  | kept => exact Or.inl hseg
  | empty segment' hseg' _ hzero =>
    obtain rfl : segment = segment' := by simpa using hseg.symm.trans hseg'
    exact absurd hzero hlen
  | failed segment' hseg' =>
    obtain rfl : segment = segment' := by simpa using hseg.symm.trans hseg'
    exact Or.inr ⟨_, _, rfl⟩
  | delivered segment' hseg' =>
    obtain rfl : segment = segment' := by simpa using hseg.symm.trans hseg'
    exact Or.inr ⟨_, _, rfl⟩
  | fault hdead => exact absurd hseg (hdead segment)

theorem keptSurvives_of_inAccount {state : CtcpState} {call : Call} (h : ConsumeInv state)
    (hacc : InAccount state call) : KeptSurvives state call := by
  intro kept hkept
  have hout := step_outcome state call
  have htrace := step_trace state call
  generalize step state call = state' at hout htrace ⊢
  cases hout with
  | dead => exact Or.inl ⟨kept, hkept, .refl kept⟩
  | read _ _ _ _ hout =>
    have hsame : state'.receivedSegment = state.receivedSegment := by cases hout <;> rfl
    exact Or.inl ⟨kept, hsame.trans hkept, .refl kept⟩
  | invalid => exact Or.inl ⟨kept, hkept, .refl kept⟩
  | receive segment len env _ hlive hvalid hout =>
    cases hout with
    | data hconn hnew hfin hack hlen _ hout =>
      obtain ⟨-, hcopy⟩ := hacc hlive hvalid ⟨hconn, hnew, hfin, hack, hlen⟩
      obtain ⟨hroom, hcopy⟩ := hcopy kept hkept
      rcases survives_output rfl hroom (datalen_ne_zero hlen) hout with hseg | ⟨written, e, htrace'⟩
      · exact Or.inl ⟨_, hseg, hcopy⟩
      · refine Or.inr (Or.inl ⟨_, written, ?_, hcopy⟩)
        have hboth : state.trace ++ events state (.receive segment len env) = state.trace
            ++ ([.receive (received segment)] ++ [.output (received segment) written, e]) := by
          rw [← htrace, htrace', CtcpState.log_trace, List.append_assoc]
        rw [List.append_cancel_left hboth]
        simp
    | _ => exact Or.inl ⟨kept, hkept, .refl kept⟩
  | output env _ hlive hout =>
    obtain ⟨hroom, -⟩ := hacc hlive
    rcases survives_output hkept hroom (h.kept hlive kept hkept).1 hout with
      hseg | ⟨written, e, htrace'⟩
    · exact Or.inl ⟨kept, hseg, .refl kept⟩
    · have hevents := List.append_cancel_left (htrace.symm.trans htrace')
      refine Or.inr (Or.inl ⟨kept, written, ?_, .refl kept⟩)
      rw [hevents]
      exact List.mem_cons_self
  | timer _ _ hout =>
    have hsame : state'.receivedSegment = state.receivedSegment := by
      cases hout with
      | expired => rfl
      | running _ _ hout => cases hout <;> rfl
    exact Or.inl ⟨kept, hsame.trans hkept, .refl kept⟩

/-! ## Runs -/

/-- An environment with room for one byte. -/
def Env.tight : Env := { Env.roomy with bufspace := 1, bounded := by decide }

end Ctcp
