/-
  One FIN, at the end of what an endpoint sends.

  A FIN is sent by `ctcp_read` for the end of the input, and by `ctcp_receive` in answer to the
  peer's FIN.  Afterwards only the occupied slot keeps `ctcp_read` from sending more, and the
  timer empties the slot after five retransmissions.

  `FinIsLast` is the law: no FIN before the end of input, one sequence number for all FINs, no new
  data after the first.  `finIsLast_iff` says that it holds along a run exactly when every call
  satisfies `FinOnce`.  Both directions come from one theorem about a single call, `finStep`: the
  new events obey the law exactly under `FinOnce`, and `FinOnce` keeps the invariant `FinInv`.
-/
import Ctcp.Guards

set_option linter.unusedVariables false

namespace Ctcp

open Runs History

/-! ## The law and the condition -/

/-- `conn_send` took a segment with data of `_segment_send`. -/
def Event.SentData : Event → Prop
  | .send segment sent => segment.data ≠ [] ∧ 0 ≤ sent
  | _ => False

attribute [simp] Event.SentData

/-- **The FIN is the last thing sent, and there is one.** -/
def FinIsLast (before : List Event) (e : Event) : Prop :=
  (∀ segment, e.emitted = some segment → isFin segment →
    .input none ∈ before ∧
      ∀ e' ∈ before, ∀ fin, e'.emitted = some fin → isFin fin →
        ntohl fin.seqno = ntohl segment.seqno) ∧
    (e.SentData → ¬ Sees Event.SentFin before)

/-- **The calls that keep it so**: `ctcp_read` finds nothing to send after a FIN, and the peer's
    FIN is answered by ours only after the end of input. -/
def FinOnce (state : CtcpState) (call : Call) : Prop :=
  state.conn.deleteMe = false →
    match call with
    | .read input sent =>
      state.sentSegmentAttr = none → state.tearDownNums ≠ none → 0 ≤ sent →
        state.conn.readEof = false ∧ ∃ chunk, input = some chunk ∧ chunk.bytes = []
    | .receive segment len env =>
      Valid segment len → state.connState = .dataTransfer →
        AcceptsFin state (received segment) → 0 ≤ env.sent₁ → state.conn.readEof = true
    | _ => True

/-! ## The invariant -/

/-- The FINs sent so far end where the sequence space ends. -/
structure FinInv (state : CtcpState) : Prop where
  wf : Wf state
  fins : ∀ e ∈ state.trace, ∀ fin, e.emitted = some fin → isFin fin →
    state.tearDownNums ≠ none ∧ .input none ∈ state.trace ∧ ntohl fin.seqno + 1 = state.seqno
  slot : ∀ attr, state.sentSegmentAttr = some attr → isFin attr.segment →
    state.tearDownNums ≠ none

theorem finInv_init (cfg : CtcpConfig) : FinInv (ctcpInit cfg) where
  wf := wf_init cfg
  fins := by simp [ctcpInit]
  slot := by simp [ctcpInit]

/-- A FIN in the slot was sent, after the end of input. -/
theorem FinInv.input {state : CtcpState} (h : FinInv state) (hnums : state.tearDownNums ≠ none) :
    .input none ∈ state.trace := by
  obtain ⟨e, he, hsent⟩ := h.wf.closed.mp hnums
  cases e with
  | send segment sent =>
    exact (h.fins _ he segment (if_pos hsent.2) hsent.1).2.1
  | _ => exact hsent.elim

/-- Without a FIN sent, none is on record. -/
theorem FinInv.noFin {state : CtcpState} (h : FinInv state) (hnums : state.tearDownNums = none) :
    ∀ e ∈ state.trace, ∀ fin, e.emitted = some fin → ¬ isFin fin :=
  fun e he fin hemit hfin => (h.fins e he fin hemit hfin).1 hnums

/-! ## Calls that send neither a FIN nor data -/

/-- The events emit neither a FIN nor data. -/
def Quiet (es : List Event) : Prop :=
  ∀ e ∈ es, (∀ segment, e.emitted = some segment → ¬ isFin segment) ∧ ¬ e.SentData

theorem Quiet.always {before es : List Event} (hes : Quiet es) :
    AlwaysFrom FinIsLast before es := by
  refine alwaysFrom_of_forall (fun before' e he => ⟨?_, ?_⟩)
  · intro segment hemit hfin
    exact absurd hfin ((hes e he).1 segment hemit)
  · intro hdata
    exact absurd hdata (hes e he).2

/-- What a call that emits neither a FIN nor data leaves as it was. -/
structure QuietStep (state state' : CtcpState) : Prop where
  trace : ∃ es, state'.trace = state.trace ++ es ∧ Quiet es
  seqno : state'.seqno = state.seqno
  nums : state'.tearDownNums = state.tearDownNums
  slot : ∀ attr', state'.sentSegmentAttr = some attr' →
    ∃ attr, state.sentSegmentAttr = some attr ∧ attr'.segment = attr.segment

/-- A quiet step that leaves the slot alone. -/
theorem quiet_kept {state state' : CtcpState} {es : List Event}
    (htrace : state'.trace = state.trace ++ es) (hes : Quiet es)
    (hseq : state'.seqno = state.seqno) (hnums : state'.tearDownNums = state.tearDownNums)
    (hslot : state'.sentSegmentAttr = state.sentSegmentAttr) : QuietStep state state' := by
  refine ⟨⟨es, htrace, hes⟩, hseq, hnums, ?_⟩
  intro attr hattr
  exact ⟨attr, hslot ▸ hattr, rfl⟩

/-- A quiet step that empties the slot. -/
theorem quiet_emptied {state state' : CtcpState} {es : List Event}
    (htrace : state'.trace = state.trace ++ es) (hes : Quiet es)
    (hseq : state'.seqno = state.seqno) (hnums : state'.tearDownNums = state.tearDownNums)
    (hslot : state'.sentSegmentAttr = none) : QuietStep state state' := by
  refine ⟨⟨es, htrace, hes⟩, hseq, hnums, ?_⟩
  intro attr hattr
  cases hslot.symm.trans hattr

theorem FinInv.quiet {state state' : CtcpState} (h : FinInv state) (hwf : Wf state')
    (hq : QuietStep state state') : FinInv state' := by
  obtain ⟨⟨es, htrace, hes⟩, hseq, hnums, hslot⟩ := hq
  refine ⟨hwf, ?_, ?_⟩
  · intro e he fin hemit hfin
    rw [htrace, List.mem_append] at he
    rcases he with hold | hnew
    · obtain ⟨h1, h2, h3⟩ := h.fins e hold fin hemit hfin
      exact ⟨hnums ▸ h1, htrace ▸ List.mem_append_left es h2, hseq ▸ h3⟩
    · exact absurd hfin ((hes e hnew).1 fin hemit)
  · intro attr' hattr' hfin
    obtain ⟨attr, hattr, hseg⟩ := hslot attr' hattr'
    exact hnums ▸ h.slot attr hattr (hseg ▸ hfin)

theorem quiet_of_output {env : Env} {state state' : CtcpState}
    (hout : OutputOutcome env state state') : QuietStep state state' := by
  cases hout with
  | noRoom => exact quiet_kept (List.append_nil _).symm (by simp [Quiet]) rfl rfl rfl
  | kept => exact quiet_kept (List.append_nil _).symm (by simp [Quiet]) rfl rfl rfl
  | empty => exact quiet_emptied (List.append_nil _).symm (by simp [Quiet]) rfl rfl rfl
  | failed => exact quiet_kept rfl (by simp [Quiet]) rfl rfl rfl
  | delivered => exact quiet_emptied rfl (by simp [Quiet]) rfl rfl rfl
  | fault => exact quiet_kept rfl (by simp [Quiet]) rfl rfl rfl

theorem quiet_of_receive {env : Env} {state state' : CtcpState} {segment : CtcpSegment}
    (hout : ReceiveOutcome env state segment state')
    (hquiet : ¬ (state.connState = .dataTransfer ∧ AcceptsFin state segment ∧ 0 ≤ env.sent₁)) :
    QuietStep state state' := by
  cases hout with
  | passiveUnsent _ _ _ hsent =>
    have hneg : ¬ 0 ≤ env.sent₁ := by omega
    exact quiet_kept rfl (by simp [Quiet, hneg]) rfl rfl rfl
  | passiveClose hconn hnew hfin hsent =>
    exact absurd ⟨hconn, ⟨hfin, Or.inl ⟨hconn, hnew⟩⟩, hsent⟩ hquiet
  | pureAck => exact quiet_emptied rfl (by simp [Quiet]) rfl rfl rfl
  | data _ _ _ _ _ _ hout =>
    obtain ⟨⟨es, htrace, hes⟩, hseq, hnums, hslot⟩ := quiet_of_output hout
    refine ⟨⟨.receive segment :: es, by simpa using htrace, ?_⟩, hseq, hnums, hslot⟩
    intro e he
    rcases List.mem_cons.mp he with rfl | he
    · simp
    · exact hes e he
  | _ => exact quiet_kept rfl (by simp [Quiet]) rfl rfl rfl

/-! ## One call -/

/-- A FIN in the slot ends where the sequence space ends. -/
theorem Outstanding.fin_end {seqno : UInt32} {segment : CtcpSegment} (h : Outstanding seqno segment)
    (hfin : isFin segment) : ntohl segment.seqno + 1 = seqno := by
  cases h with
  | fin start ackno hend => rw [hend, finSegment_seqno]
  | data => exact absurd hfin (isFin_dataSegment _ _ _)

/-- The step theorem of the law: its new events obey it exactly under `FinOnce`, which also keeps
    the invariant. -/
def FinStep (state : CtcpState) (call : Call) : Prop :=
  (AlwaysFrom FinIsLast state.trace (events state call) ↔ FinOnce state call) ∧
    (FinOnce state call → FinInv (step state call))

theorem finStep_of_quiet {state : CtcpState} {call : Call} (h : FinInv state)
    (hq : QuietStep state (step state call)) (honce : FinOnce state call) :
    FinStep state call := by
  obtain ⟨es, htrace, hes⟩ := hq.trace
  refine ⟨iff_of_true ?_ honce, fun _ => h.quiet (wf_step state call h.wf) hq⟩
  rw [events_eq htrace]
  exact hes.always

/-- A segment sent for the first time after the events `before`. -/
theorem finIsLast_send {before : List Event} {segment : CtcpSegment} {sent : Int}
    (hsent : 0 ≤ sent) : FinIsLast before (.send segment sent) ↔
      (isFin segment → .input none ∈ before ∧
        ∀ e' ∈ before, ∀ fin, e'.emitted = some fin → isFin fin →
          ntohl fin.seqno = ntohl segment.seqno) ∧
      (segment.data ≠ [] → ¬ Sees Event.SentFin before) := by
  simp [FinIsLast, hsent]

/-- The emitted FINs all have a sequence number other than the next one. -/
theorem FinInv.old {state : CtcpState} (h : FinInv state) {e : Event} (he : e ∈ state.trace)
    {fin : CtcpSegment} (hemit : e.emitted = some fin) (hfin : isFin fin) :
    ntohl fin.seqno ≠ state.seqno := by
  intro heq
  have hend := (h.fins e he fin hemit hfin).2.2
  rw [heq] at hend
  grind

/-- A FIN has been sent exactly when `tear_down_nums` is set. -/
theorem FinInv.sees {state : CtcpState} (h : FinInv state) :
    (∃ e ∈ state.trace, ∃ fin, e.emitted = some fin ∧ isFin fin) ↔ state.tearDownNums ≠ none := by
  constructor
  · rintro ⟨e, he, fin, hemit, hfin⟩
    exact (h.fins e he fin hemit hfin).1
  · intro hnums
    obtain ⟨e, he, hsent⟩ := h.wf.closed.mp hnums
    cases e with
    | send segment sent => exact ⟨_, he, segment, if_pos hsent.2, hsent.1⟩
    | _ => exact hsent.elim

/-- **A new FIN**, sent after the events `es`, obeys the law when it is the first and the end of
    input has been seen. -/
theorem finIsLast_newFin {state : CtcpState} {ackno : UInt32} {es : List Event} {sent : Int}
    (h : FinInv state) (hes : Quiet es) (hsent : 0 ≤ sent) :
    AlwaysFrom FinIsLast state.trace (es ++ [.send (finSegment state.seqno ackno) sent]) ↔
      state.tearDownNums = none ∧ .input none ∈ state.trace ++ es := by
  rw [alwaysFrom_append, alwaysFrom_cons, finIsLast_send hsent]
  constructor
  · rintro ⟨-, ⟨hfin, -⟩, -⟩
    obtain ⟨hinput, hsame⟩ := hfin (isFin_finSegment _ _)
    refine ⟨Decidable.byContradiction fun hnums => ?_, hinput⟩
    obtain ⟨e, he, fin, hemit, hfin'⟩ := h.sees.mpr hnums
    have hseq := hsame e (List.mem_append_left _ he) fin hemit hfin'
    exact h.old he hemit hfin' (hseq.trans (finSegment_seqno _ _))
  · rintro ⟨hnums, hinput⟩
    refine ⟨hes.always, ⟨fun _ => ⟨hinput, ?_⟩, by simp⟩, trivial⟩
    intro e he fin hemit hfin
    rcases List.mem_append.mp he with hold | hnew
    · exact absurd hfin (h.noFin hnums e hold fin hemit)
    · exact absurd hfin ((hes e hnew).1 fin hemit)

theorem FinInv.newFin {state state' : CtcpState} {ackno : UInt32} {es : List Event} {sent : Int}
    (h : FinInv state) (hwf : Wf state') (hes : Quiet es) (hsent : 0 ≤ sent)
    (htrace : state'.trace = state.trace ++ (es ++ [.send (finSegment state.seqno ackno) sent]))
    (hseq : state'.seqno = state.seqno + 1) (hnums : state.tearDownNums = none)
    (hnums' : state'.tearDownNums ≠ none) (hinput : .input none ∈ state.trace ++ es) :
    FinInv state' := by
  refine ⟨hwf, ?_, fun _ _ _ => hnums'⟩
  intro e he fin hemit hfin
  have hinput' : .input none ∈ state'.trace := by
    rw [htrace, ← List.append_assoc]
    exact List.mem_append_left _ hinput
  refine ⟨hnums', hinput', ?_⟩
  rw [htrace, List.mem_append, List.mem_append, List.mem_singleton] at he
  rcases he with hold | hnew | rfl
  · exact absurd hfin (h.noFin hnums e hold fin hemit)
  · exact absurd hfin ((hes e hnew).1 fin hemit)
  · obtain rfl : finSegment state.seqno ackno = fin := by simpa [hsent] using hemit
    simp [hseq]

/-- `ctcp_read` at the end of input: the FIN obeys the law when it is the first. -/
theorem finStep_eofSent {state : CtcpState} {input : Option Chunk} {sent : Int} (h : FinInv state)
    (hlive : state.conn.deleteMe = false) (hslot : state.sentSegmentAttr = none)
    (heof : state.conn.readEof = true ∨ input = none) (hsent : 0 ≤ sent)
    (htrace : (step state (.read input sent)).trace
      = state.trace ++ ([.input none] ++ [.send (finSegment state.seqno state.ackno) sent]))
    (hseq : (step state (.read input sent)).seqno = state.seqno + 1)
    (hnums : (step state (.read input sent)).tearDownNums ≠ none) :
    FinStep state (.read input sent) := by
  have hwf := wf_step state (.read input sent) h.wf
  have honce : FinOnce state (.read input sent) ↔ state.tearDownNums = none := by
    refine ⟨fun honce => Decidable.byContradiction fun hnums => ?_,
      fun hnums _ _ hnums' => absurd hnums hnums'⟩
    obtain ⟨hopen, chunk, rfl, -⟩ := honce hlive hslot hnums hsent
    rw [hopen] at heof
    simp at heof
  have hes : Quiet [.input none] := by simp [Quiet]
  have hinput : .input none ∈ state.trace ++ [.input none] := by simp
  refine ⟨?_, fun hf => h.newFin hwf hes hsent htrace hseq (honce.mp hf) hnums hinput⟩
  rw [events_eq htrace, honce, finIsLast_newFin h hes hsent]
  exact and_iff_left hinput

/-- `ctcp_read` with data: they obey the law when no FIN has been sent. -/
theorem finStep_dataSent {state state' : CtcpState} {input : Option Chunk} {chunk : Chunk}
    {sent : Int} (h : FinInv state) (hlive : state.conn.deleteMe = false)
    (hslot : state.sentSegmentAttr = none) (hin : input = some chunk) (hne : chunk.bytes ≠ [])
    (hsent : 0 ≤ sent) (hstep : step state (.read input sent) = state')
    (htrace : state'.trace = state.trace ++ [.input (some chunk.bytes),
      .send (dataSegment state.seqno state.ackno chunk.bytes) sent])
    (hslot' : ∀ attr, state'.sentSegmentAttr = some attr →
      attr.segment = dataSegment state.seqno state.ackno chunk.bytes) :
    FinStep state (.read input sent) := by
  have hwf := wf_step state (.read input sent) h.wf
  have honce : FinOnce state (.read input sent) ↔ state.tearDownNums = none := by
    refine ⟨fun honce => Decidable.byContradiction fun hnums => ?_,
      fun hnums _ _ hnums' => absurd hnums hnums'⟩
    obtain ⟨-, chunk', hin', hnil⟩ := honce hlive hslot hnums hsent
    rw [hin] at hin'
    cases hin'
    exact hne hnil
  have hsees : ¬ Sees Event.SentFin (state.trace ++ [.input (some chunk.bytes)]) ↔
      state.tearDownNums = none := by
    rw [sees_append, ← h.wf.closed]
    simp
  refine ⟨?_, fun hf => ⟨hwf, ?_, ?_⟩⟩
  · rw [events_eq (by rw [hstep]; exact htrace), honce, ← hsees]
    constructor
    · rintro ⟨-, hdata, -⟩
      exact ((finIsLast_send hsent).mp hdata).2 (by simpa using hne)
    · intro hno
      refine ⟨by simp [FinIsLast], (finIsLast_send hsent).mpr ⟨by simp, fun _ => hno⟩, trivial⟩
  · intro e he fin hemit hfin
    rw [hstep, htrace] at he
    simp only [List.mem_append, List.mem_cons, List.not_mem_nil, or_false] at he
    rcases he with he | rfl | rfl
    · exact absurd hfin (h.noFin (honce.mp hf) e he fin hemit)
    · cases hemit
    · obtain rfl : dataSegment state.seqno state.ackno chunk.bytes = fin := by
        simpa [hsent] using hemit
      exact absurd hfin (isFin_dataSegment _ _ _)
  · intro attr hattr hfin
    rw [hstep] at hattr
    rw [hslot' attr hattr] at hfin
    exact absurd hfin (isFin_dataSegment _ _ _)

theorem finStep_read {state state' : CtcpState} {input : Option Chunk} {sent : Int}
    (h : FinInv state) (hlive : state.conn.deleteMe = false)
    (hstep : step state (.read input sent) = state') (hout : ReadOutcome state input sent state') :
    FinStep state (.read input sent) := by
  cases hout with
  | busy attr hslot =>
    refine finStep_of_quiet h ?_ (fun _ hnone => by rw [hslot] at hnone; cases hnone)
    rw [hstep]
    exact quiet_kept (List.append_nil _).symm (by simp [Quiet]) rfl rfl rfl
  | eofUnsent _ _ hsent =>
    have hneg : ¬ 0 ≤ sent := by omega
    refine finStep_of_quiet h ?_ (fun _ _ _ hpos => absurd hpos hneg)
    rw [hstep]
    exact quiet_kept rfl (by simp [Quiet, hneg]) rfl rfl rfl
  | eofSent hslot heof hsent =>
    refine finStep_eofSent h hlive hslot heof hsent ?_ ?_ ?_
    · rw [hstep]
      rfl
    · rw [hstep]
      rfl
    · rw [hstep]
      simp
  | unsent chunk _ _ _ hsent =>
    have hneg : ¬ 0 ≤ sent := by omega
    refine finStep_of_quiet h ?_ (fun _ _ _ hpos => absurd hpos hneg)
    rw [hstep]
    exact quiet_kept rfl (by simp [Quiet, hneg]) rfl rfl rfl
  | noData chunk hslot heof hin hnil =>
    refine finStep_of_quiet h ?_ (fun _ _ _ _ => ⟨heof, chunk, hin, hnil⟩)
    rw [hstep]
    exact quiet_kept rfl (by simp [Quiet]) rfl rfl rfl
  | data chunk hslot heof hin hne hsent =>
    refine finStep_dataSent h hlive hslot hin hne hsent hstep rfl ?_
    intro attr hattr
    cases hattr
    rfl

theorem finStep_receive {env : Env} {state state' : CtcpState} {segment : CtcpSegment} {len : Nat}
    (h : FinInv state) (hlive : state.conn.deleteMe = false) (hvalid : Valid segment len)
    (hstep : step state (.receive segment len env) = state')
    (hout : ReceiveOutcome env state (received segment) state') :
    FinStep state (.receive segment len env) := by
  by_cases hclose : state.connState = .dataTransfer ∧ AcceptsFin state (received segment) ∧
      0 ≤ env.sent₁
  · obtain ⟨hconn, hacc, hsent⟩ := hclose
    have hnums := (h.wf.opened hconn).1
    have hwf := wf_step state (.receive segment len env) h.wf
    have honce : FinOnce state (.receive segment len env) ↔ .input none ∈ state.trace := by
      rw [← h.wf.eof]
      exact ⟨fun honce => honce hlive hvalid hconn hacc hsent, fun heof _ _ _ _ _ => heof⟩
    cases hout with
    | stale _ hold =>
      obtain ⟨-, hnew⟩ := hacc.2.resolve_right (by simp [hconn])
      exact absurd hold (UInt32.not_lt.mpr hnew)
    | passiveUnsent _ _ _ hneg => exact absurd hsent (by omega)
    | passiveClose _ _ _ _ =>
      let es : List Event := [.receive (received segment), .outputEof,
        .acceptFin (received segment).seqno,
        .send (ackSegment state.seqno ((received segment).seqno + 1)) env.sent₀]
      have hes : Quiet es := by simp [Quiet, es]
      have hinput : .input none ∈ state.trace ++ es ↔ .input none ∈ state.trace := by simp [es]
      have hevents : events state (.receive segment len env)
          = es ++ [.send (finSegment state.seqno ((received segment).seqno + 1)) env.sent₁] :=
        events_eq (by rw [hstep]; rfl)
      refine ⟨?_, fun hf => ?_⟩
      · rw [hevents, honce, finIsLast_newFin h hes hsent, hinput]
        exact and_iff_right hnums
      · exact h.newFin hwf hes hsent (by rw [hstep]; rfl) (by rw [hstep]; rfl) hnums
          (by rw [hstep]; simp) (hinput.mpr (honce.mp hf))
    | pureAck _ _ hnofin => exact absurd hnofin hacc.1
    | data _ _ hnofin => exact absurd hnofin hacc.1
    | unflagged _ hnofin => exact absurd hnofin hacc.1
    | closingFinAck hconn' => rw [hconn] at hconn'; cases hconn'
    | closingAck hconn' => rw [hconn] at hconn'; cases hconn'
    | closingFin hconn' => rw [hconn] at hconn'; cases hconn'
    | lastFin hconn' => rw [hconn] at hconn'; cases hconn'
    | lastAck hconn' => rw [hconn] at hconn'; cases hconn'
    | ignored hconn' => exact absurd hconn hconn'
  · refine finStep_of_quiet h (hstep ▸ quiet_of_receive hout hclose) ?_
    exact fun _ _ hconn hacc hsent => absurd ⟨hconn, hacc, hsent⟩ hclose

theorem finStep_timer {state state' : CtcpState} (h : FinInv state)
    (hstep : step state .timer = state') (hout : TimerOutcome state state') :
    FinStep state .timer := by
  have hwf := wf_step state .timer h.wf
  have hquiet : QuietStep state state' → FinStep state .timer := fun hq =>
    finStep_of_quiet h (hstep ▸ hq) (fun _ => trivial)
  -- the segment in the slot, sent again: a FIN there is the FIN of the connection
  have hresend : ∀ attr, state.sentSegmentAttr = some attr →
      state'.trace = state.trace ++ [.resend attr.segment] → state'.seqno = state.seqno →
      state'.tearDownNums = state.tearDownNums →
      (∀ attr', state'.sentSegmentAttr = some attr' → attr'.segment = attr.segment) →
      FinStep state .timer := by
    intro attr hattr htrace hseq hnums hslot
    have hfinal : isFin attr.segment → state.tearDownNums ≠ none ∧ .input none ∈ state.trace ∧
        ntohl attr.segment.seqno + 1 = state.seqno := by
      intro hfin
      have hnums := h.slot attr hattr hfin
      exact ⟨hnums, h.input hnums, (h.wf.slot attr hattr).1.fin_end hfin⟩
    refine ⟨iff_of_true ?_ (fun _ => trivial), fun _ => ⟨hwf, ?_, ?_⟩⟩
    · rw [events_eq (by rw [hstep]; exact htrace)]
      refine ⟨⟨?_, by simp⟩, trivial⟩
      rintro _ ⟨⟩ hfin
      obtain ⟨-, hinput, hend⟩ := hfinal hfin
      refine ⟨hinput, fun e' he' fin hemit hfin' => ?_⟩
      have hend' := (h.fins e' he' fin hemit hfin').2.2
      exact UInt32.add_left_inj 1 |>.mp (hend'.trans hend.symm)
    · rw [hstep, htrace, hseq, hnums]
      intro e he fin hemit hfin
      rcases List.mem_append.mp he with hold | hnew
      · obtain ⟨h1, h2, h3⟩ := h.fins e hold fin hemit hfin
        exact ⟨h1, List.mem_append_left _ h2, h3⟩
      · rw [List.mem_singleton.mp hnew] at hemit
        cases hemit
        obtain ⟨h1, h2, h3⟩ := hfinal hfin
        exact ⟨h1, List.mem_append_left _ h2, h3⟩
    · rw [hstep, hnums]
      intro attr' hattr' hfin
      exact h.slot attr hattr (hslot attr' hattr' ▸ hfin)
  cases hout with
  | expired => exact hquiet (quiet_kept rfl (by simp [Quiet]) rfl rfl rfl)
  | running _ _ hout =>
    cases hout with
    | idle =>
      exact hquiet (quiet_kept (List.append_nil _).symm (by simp [Quiet]) rfl rfl rfl)
    | waiting attr hattr =>
      exact hquiet
        ⟨⟨[], by simp [Quiet]⟩, rfl, rfl, fun attr' h => by cases h; exact ⟨attr, hattr, rfl⟩⟩
    | resent attr hattr =>
      exact hresend attr hattr rfl rfl rfl (fun attr' h => by cases h; rfl)
    | givenUp attr hattr => exact hresend attr hattr rfl rfl rfl (fun attr' h => by cases h)

/-- One call. -/
theorem finStep (state : CtcpState) (call : Call) (h : FinInv state) : FinStep state call := by
  obtain ⟨state', hstep⟩ : ∃ state', step state call = state' := ⟨_, rfl⟩
  have hout := hstep ▸ step_outcome state call
  cases hout with
  | dead _ hdead =>
    refine finStep_of_quiet h ?_ (fun hlive => by rw [hdead] at hlive; cases hlive)
    rw [hstep]
    exact quiet_kept (List.append_nil _).symm (by simp [Quiet]) rfl rfl rfl
  | read _ _ _ hlive hout => exact finStep_read h hlive hstep hout
  | invalid _ _ _ hvalid =>
    refine finStep_of_quiet h ?_ (fun _ hv => absurd hv hvalid)
    rw [hstep]
    exact quiet_kept (List.append_nil _).symm (by simp [Quiet]) rfl rfl rfl
  | receive _ _ _ _ hlive hvalid hout => exact finStep_receive h hlive hvalid hstep hout
  | output _ _ _ hout =>
    exact finStep_of_quiet h (hstep ▸ quiet_of_output hout) (fun _ => trivial)
  | timer _ _ hout => exact finStep_timer h hstep hout

/-- **The FIN is the last thing an endpoint sends, and there is one**, exactly in the runs whose
    calls all satisfy `FinOnce`. -/
theorem finIsLast_iff (cfg : CtcpConfig) (calls : List Call) :
    Always FinIsLast (run step (ctcpInit cfg) calls).trace ↔
      Along step FinOnce (ctcpInit cfg) calls := by
  have hstart : Always FinIsLast (ctcpInit cfg).trace := trivial
  rw [always_run step_trace, and_iff_right hstart]
  refine along_iff_of_invariant ?_ (fun state call h => (finStep state call h).1) (finInv_init cfg)
  exact fun state call h hlaw => (finStep state call h).2 ((finStep state call h).1.mp hlaw)

/-- The peer closes first: our FIN leaves although the input has not ended. -/
theorem fin_before_eof :
    ¬ Always FinIsLast (run step (ctcpInit ctcpCfg) [.arrival (finSegment 1 1)]).trace := by
  intro h
  have htrace : (run step (ctcpInit ctcpCfg) [.arrival (finSegment 1 1)]).trace
      = [.receive (received (finSegment 1 1)), .outputEof, .acceptFin 1,
          .send (ackSegment 1 2) 20] ++ .send (finSegment 1 2) 20 :: [] := by decide +kernel
  rw [htrace] at h
  have hlaw := h.at
  obtain ⟨hinput, -⟩ := hlaw.1 (finSegment 1 2) rfl (by decide)
  revert hinput
  decide

end Ctcp
