/-
  What becomes of the bytes that `ctcp_read` has obtained.

  `conn_input` consumes the bytes, and from then on `sent_segment_attr` is the only place they can
  be sent from again.  They have to stay there until an ACK covers them (`InputKept`).  They are
  lost in three ways: `conn_send` fails, and `_segment_send` returns before it saves the segment;
  the segment is discarded by an arrival or by `conn_drain` (`Discards`); or the timer forgets it
  after the fifth retransmission.

  `inputKept_iff`: along every run, nothing is lost exactly as long as no call does one of the
  three to a segment with data that nobody has acknowledged.
-/
import Ctcp.Slot
import Ctcp.Destroy
import Ctcp.Sender

set_option linter.unusedVariables false

namespace Ctcp

open Runs History

/-! ## The law and the condition -/

/-- The slot holds this segment. -/
def Holds (state : CtcpState) (segment : CtcpSegment) : Prop :=
  ∃ attr, state.sentSegmentAttr = some attr ∧ attr.segment = segment

/-- **No input byte is lost**: while the connection is alive, all bytes that `conn_input` has
    returned were sent at once, and they stand in the slot or have been acknowledged. -/
def InputKept (state : CtcpState) : Prop :=
  state.conn.deleteMe = false → ∀ before bytes after,
    state.trace = before ++ .input (some bytes) :: after → bytes ≠ [] →
      ∃ segment sent after', after = .send segment sent :: after' ∧ 0 ≤ sent ∧
        segment.data = bytes ∧ (Holds state segment ∨ Sees (Event.Answers segment) after')

/-- This tick is the fifth timeout of the segment in the slot. -/
def Forgets (state : CtcpState) (attr : SegmentAttr) : Prop :=
  ¬ waitExpires state ∧ state.rtTimeout ≤ attr.time + state.timer ∧ 5 ≤ attr.noOfTimes + 1

/-- The call takes the segment of `attr` out of the slot. -/
def Drops (state : CtcpState) (attr : SegmentAttr) : Call → Prop
  | .timer => Forgets state attr
  | call => Discards state call

/-- Whenever the segment has been sent, an answer came later. -/
def Answered (segment : CtcpSegment) (h : List Event) : Prop :=
  ∀ before sent after, h = before ++ .send segment sent :: after → 0 ≤ sent →
    Sees (Event.Answers segment) after

/-- The segment has been acknowledged since it was sent, or is by this call. -/
def AckSeen (state : CtcpState) (segment : CtcpSegment) : Call → Prop
  | .receive segment' len _ =>
    Answered segment state.trace ∨ Valid segment' len ∧ Covers segment (received segment')
  | _ => Answered segment state.trace

/-- What a call must not do to the input. -/
def KeepsInput (state : CtcpState) (call : Call) : Prop :=
  state.conn.deleteMe = false →
    match call with
    | .read input sent => ReadsSent state input sent
    | call => ∀ attr, state.sentSegmentAttr = some attr → attr.segment.data ≠ [] →
        Drops state attr call → AckSeen state attr.segment call

/-! ## Data leave only after a read -/

/-- Data are sent with the read before them. -/
def SentAfterRead (before : List Event) (e : Event) : Prop :=
  ∀ segment sent, e = .send segment sent → segment.data ≠ [] →
    before.getLast? = some (.input (some segment.data))

/-- Events that send no data. -/
theorem sentAfterRead_of_forall {h es : List Event}
    (hes : ∀ e ∈ es, ∀ segment sent, e = .send segment sent → segment.data = []) :
    AlwaysFrom SentAfterRead h es := by
  refine alwaysFrom_of_forall ?_
  rintro before _ hmem segment sent rfl hdata
  exact absurd (hes _ hmem segment sent rfl) hdata

theorem sentAfterRead_output {env : Env} {state state' : CtcpState}
    (h : Always SentAfterRead state.trace) (hout : OutputOutcome env state state') :
    Always SentAfterRead state'.trace := by
  cases hout with
  | noRoom => exact h
  | kept => exact h
  | empty => exact h
  | _ => exact always_append.mpr ⟨h, sentAfterRead_of_forall (by simp)⟩

theorem sentAfterRead_step (state : CtcpState) (call : Call)
    (h : Always SentAfterRead state.trace) : Always SentAfterRead (step state call).trace := by
  have hout := step_outcome state call
  generalize step state call = state' at hout ⊢
  cases hout with
  | dead => exact h
  | read _ _ _ _ hout =>
    cases hout with
    | busy => exact h
    | unsent chunk => exact always_append.mpr ⟨h, by simp [SentAfterRead]⟩
    | data chunk => exact always_append.mpr ⟨h, by simp [SentAfterRead]⟩
    | _ => exact always_append.mpr ⟨h, sentAfterRead_of_forall (by simp)⟩
  | invalid => exact h
  | receive _ _ _ _ _ _ hout =>
    cases hout with
    | data _ _ _ _ _ _ hout =>
      exact sentAfterRead_output (always_append.mpr ⟨h, sentAfterRead_of_forall (by simp)⟩) hout
    | _ => exact always_append.mpr ⟨h, sentAfterRead_of_forall (by simp)⟩
  | output _ _ _ hout => exact sentAfterRead_output h hout
  | timer _ _ hout =>
    cases hout with
    | expired => exact always_append.mpr ⟨h, sentAfterRead_of_forall (by simp)⟩
    | running _ _ hout =>
      cases hout with
      | idle => exact h
      | waiting => exact h
      | _ => exact always_append.mpr ⟨h, sentAfterRead_of_forall (by simp)⟩

/-! ## One call -/

/-- What is known before a call. -/
structure InputInv (state : CtcpState) : Prop where
  wf : Wf state
  sent : Always SentAfterRead state.trace
  kept : InputKept state

theorem inputInv_init (cfg : CtcpConfig) : InputInv (ctcpInit cfg) :=
  ⟨wf_init cfg, trivial, fun _ => by simp [ctcpInit]⟩

/-- **A call** keeps the input if it puts what it reads into the slot, and what leaves the slot has
    been acknowledged. -/
theorem InputKept.extend {state state' : CtcpState} {es : List Event} (h : InputKept state)
    (hlive : state.conn.deleteMe = false) (htrace : state'.trace = state.trace ++ es)
    (hes : ∀ before bytes after, es = before ++ .input (some bytes) :: after → bytes ≠ [] →
      ∃ segment sent after', after = .send segment sent :: after' ∧ 0 ≤ sent ∧
        segment.data = bytes ∧ Holds state' segment)
    (hslot : ∀ attr, state.sentSegmentAttr = some attr → attr.segment.data ≠ [] →
      Holds state' attr.segment ∨ Answered attr.segment state.trace ∨
        Sees (Event.Answers attr.segment) es) : InputKept state' := by
  intro _ before bytes after hsplit hne
  rw [htrace] at hsplit
  rcases split_append hsplit with ⟨after', hold, rfl⟩ | ⟨before', rfl, hnew⟩
  · obtain ⟨segment, sent, rest, rfl, hsent, hdata, hkept⟩ := h hlive before bytes after' hold hne
    refine ⟨segment, sent, rest ++ es, rfl, hsent, hdata, ?_⟩
    rcases hkept with ⟨attr, hattr, rfl⟩ | hseen
    · rcases hslot attr hattr (hdata ▸ hne) with hkeep | hanswered | hnow
      · exact Or.inl hkeep
      · have hsplit' : state.trace
            = (before ++ [.input (some bytes)]) ++ .send attr.segment sent :: rest := by
          rw [hold, List.append_assoc]
          rfl
        exact Or.inr ((hanswered _ sent rest hsplit' hsent).mono es)
      · exact Or.inr (sees_append.mpr (Or.inr hnow))
    · exact Or.inr (hseen.mono es)
  · obtain ⟨segment, sent, rest, rfl, hsent, hdata, hholds⟩ := hes before' bytes after hnew hne
    exact ⟨segment, sent, rest, rfl, hsent, hdata, Or.inl hholds⟩

/-- A call that reads no bytes. -/
theorem InputKept.quiet {state state' : CtcpState} {es : List Event} (h : InputKept state)
    (hlive : state.conn.deleteMe = false) (htrace : state'.trace = state.trace ++ es)
    (hes : ∀ bytes, .input (some bytes) ∈ es → bytes = [])
    (hslot : ∀ attr, state.sentSegmentAttr = some attr → attr.segment.data ≠ [] →
      Holds state' attr.segment ∨ Answered attr.segment state.trace ∨
        Sees (Event.Answers attr.segment) es) : InputKept state' := by
  refine h.extend hlive htrace ?_ hslot
  rintro before bytes after rfl hne
  exact absurd (hes bytes (by simp)) hne

/-- The other direction: data that leave the slot of a live connection have been acknowledged. -/
theorem InputInv.answered {state state' : CtcpState} {es : List Event} {attr : SegmentAttr}
    (h : InputInv state) (hkept : InputKept state') (hlive : state'.conn.deleteMe = false)
    (htrace : state'.trace = state.trace ++ es) (hdata : attr.segment.data ≠ [])
    (hleft : ¬ Holds state' attr.segment) :
    Answered attr.segment state.trace ∨ Sees (Event.Answers attr.segment) es := by
  by_cases hnow : Sees (Event.Answers attr.segment) es
  · exact Or.inr hnow
  · left
    intro before sent after hsplit hsent
    -- the read stands right before the send
    have hread : before.getLast? = some (.input (some attr.segment.data)) := by
      have hlaw := h.sent
      rw [hsplit] at hlaw
      exact hlaw.at attr.segment sent rfl hdata
    obtain ⟨before', rfl⟩ := List.getLast?_eq_some_iff.mp hread
    have htrace' : state'.trace = before' ++ .input (some attr.segment.data) ::
        (.send attr.segment sent :: after ++ es) := by
      rw [htrace, hsplit]
      simp
    obtain ⟨segment, sent', rest, heq, -, -, hkeep⟩ := hkept hlive _ _ _ htrace' hdata
    obtain ⟨hsend, rfl⟩ := List.cons.inj heq
    obtain ⟨rfl, -⟩ := Event.send.inj hsend
    rcases hkeep with hkeep | hseen
    · exact absurd hkeep hleft
    · rcases sees_append.mp hseen with hold | hnew
      · exact hold
      · exact absurd hnew hnow

/-- **`ctcp_read`** loses what it reads exactly when `conn_send` fails. -/
theorem inputKept_read_iff {state state' : CtcpState} {input : Option Chunk} {sent : Int}
    (h : InputInv state) (hlive : state.conn.deleteMe = false)
    (hout : ReadOutcome state input sent state') :
    InputKept state' ↔ ReadsSent state input sent := by
  cases hout with
  | busy attr hattr =>
    constructor
    · intro _ hnone
      rw [hattr] at hnone
      cases hnone
    · exact fun _ => h.kept
  | eofUnsent hnone heof =>
    constructor
    · rintro - - hreof chunk rfl
      simp [hreof] at heof
    · exact fun _ => h.kept.quiet hlive rfl (by simp) (by simp [hnone])
  | eofSent hnone heof =>
    constructor
    · rintro - - hreof chunk rfl
      simp [hreof] at heof
    · exact fun _ => h.kept.quiet hlive rfl (by simp) (by simp [hnone])
  | unsent chunk hnone heof hin hsent =>
    subst hin
    have hneg : ¬ 0 ≤ sent := by omega
    constructor
    · intro hkept _ _ chunk' hin' hne
      obtain rfl := Option.some.inj hin'
      obtain ⟨segment, sent', rest, heq, hsent', -⟩ := hkept hlive state.trace chunk.bytes
        [.send (dataSegment state.seqno state.ackno chunk.bytes) sent] rfl hne
      obtain ⟨hsend, -⟩ := List.cons.inj heq
      obtain ⟨-, rfl⟩ := Event.send.inj hsend
      exact hsent'
    · intro hreads
      refine h.kept.quiet hlive rfl ?_ (by simp [hnone])
      intro bytes hmem
      have hbytes : bytes = chunk.bytes := by simpa using hmem
      rw [hbytes]
      exact Classical.byContradiction fun hne => hneg (hreads hnone heof chunk rfl hne)
  | noData chunk hnone heof hin hnil hsent =>
    constructor
    · exact fun _ _ _ _ _ _ => hsent
    · exact fun _ => h.kept.quiet hlive rfl (by simp) (by simp [hnone])
  | data chunk hnone heof hin hne hsent =>
    constructor
    · exact fun _ _ _ _ _ _ => hsent
    · intro _
      refine h.kept.extend hlive rfl ?_ (by simp [hnone])
      intro before bytes after heq hne'
      cases before with
      | nil =>
        obtain ⟨hread, rfl⟩ := List.cons.inj heq
        obtain rfl : chunk.bytes = bytes := by simpa using hread
        exact ⟨_, sent, [], rfl, hsent, dataSegment_data _ _ _, ⟨_, rfl, rfl⟩⟩
      | cons e before =>
        -- the second event is the send
        obtain ⟨-, heq'⟩ := List.cons.inj heq
        have hmem : Event.input (some bytes)
            ∈ [Event.send (dataSegment state.seqno state.ackno chunk.bytes) sent] := by
          rw [heq']
          simp
        simp at hmem

/-! ## The other calls -/

/-- `conn_input` returned bytes, or a segment arrived. -/
def Event.ComesIn : Event → Prop
  | .input bytes => bytes.isSome
  | .receive _ => True
  | _ => False

attribute [simp] Event.ComesIn

/-- What `ctcp_output` adds to the trace. -/
theorem events_of_output {env : Env} {state state' : CtcpState}
    (hout : OutputOutcome env state state') :
    ∃ es, state'.trace = state.trace ++ es ∧ ¬ Sees Event.ComesIn es := by
  cases hout with
  | noRoom => exact ⟨[], by simp⟩
  | kept => exact ⟨[], by simp⟩
  | empty => exact ⟨[], by simp⟩
  | _ => exact ⟨_, rfl, by simp⟩

/-- What `ctcp_receive` adds to the trace. -/
theorem events_of_receive {env : Env} {state state' : CtcpState} {segment : CtcpSegment}
    (hout : ReceiveOutcome env state segment state') :
    ∃ es, state'.trace = state.trace ++ .receive segment :: es ∧ ¬ Sees Event.ComesIn es := by
  cases hout with
  | data _ _ _ _ _ _ hout =>
    obtain ⟨es, htrace, hes⟩ := events_of_output hout
    exact ⟨es, by simpa using htrace, hes⟩
  | _ => exact ⟨_, rfl, by simp⟩

/-- What a tick adds to the trace. -/
theorem events_of_timer {state state' : CtcpState} (hout : TimerOutcome state state') :
    ∃ es, state'.trace = state.trace ++ es ∧ ¬ Sees Event.ComesIn es := by
  cases hout with
  | expired => exact ⟨_, rfl, by simp⟩
  | running _ _ hout =>
    cases hout with
    | idle => exact ⟨[], by simp⟩
    | waiting => exact ⟨[], by simp⟩
    | _ => exact ⟨_, rfl, by simp⟩

theorem not_answers_of_quiet {es : List Event} (hes : ¬ Sees Event.ComesIn es)
    (segment : CtcpSegment) : ¬ Sees (Event.Answers segment) es := by
  rintro ⟨e, hmem, hanswer⟩
  cases e with
  | receive segment' => exact hes (sees_of_mem hmem trivial)
  | _ => exact hanswer

theorem not_input_of_quiet {es : List Event} (hes : ¬ Sees Event.ComesIn es) (bytes : List UInt8) :
    .input (some bytes) ∉ es :=
  fun hmem => hes (sees_of_mem hmem rfl)

/-- A call that reads no bytes, by what it does to the slot. -/
theorem inputKept_iff_of_slot {state state' : CtcpState} {es : List Event} (call : Call)
    (h : InputInv state) (hlive : state.conn.deleteMe = false)
    (htrace : state'.trace = state.trace ++ es) (hes : ∀ bytes, .input (some bytes) ∉ es)
    (hseen : ∀ segment, AckSeen state segment call ↔
      Answered segment state.trace ∨ Sees (Event.Answers segment) es)
    (hslot : ∀ attr, state.sentSegmentAttr = some attr → attr.segment.data ≠ [] →
      (Drops state attr call ↔
        ¬ Holds state' attr.segment ∧ state'.conn.deleteMe = false)) :
    InputKept state' ↔
      ∀ attr, state.sentSegmentAttr = some attr → attr.segment.data ≠ [] →
        Drops state attr call → AckSeen state attr.segment call := by
  constructor
  · intro hkept attr hattr hdata hdrop
    obtain ⟨hleft, hlive'⟩ := (hslot attr hattr hdata).mp hdrop
    exact (hseen _).mpr (h.answered hkept hlive' htrace hdata hleft)
  · intro hcond hlive'
    refine h.kept.quiet hlive htrace (fun bytes hmem => absurd hmem (hes bytes)) ?_ hlive'
    intro attr hattr hdata
    by_cases hholds : Holds state' attr.segment
    · exact Or.inl hholds
    · exact Or.inr ((hseen _).mp (hcond attr hattr hdata
        ((hslot attr hattr hdata).mpr ⟨hholds, hlive'⟩)))

/-- Data that have left the slot without a tick: `Lost`, in terms of the segment alone. -/
theorem discards_iff_not_holds {state : CtcpState} {call : Call} (h : Wf state)
    (hlive : state.conn.deleteMe = false) (hcall : call ≠ .timer) :
    ∀ attr, state.sentSegmentAttr = some attr → attr.segment.data ≠ [] →
      (Discards state call ↔
        ¬ Holds (step state call) attr.segment ∧ (step state call).conn.deleteMe = false) := by
  intro attr hattr hdata
  rw [← lost_iff h hattr hlive hcall]
  refine and_congr_left' ?_
  constructor
  · rintro hne ⟨attr', hattr', hseg⟩
    rcases slot_of_step hattr hcall with hnone | hsame | ⟨ackno, hfin⟩
    · rw [hnone] at hattr'
      cases hattr'
    · exact hne hsame
    · -- a new FIN carries no data
      obtain rfl := Option.some.inj (hfin.symm.trans hattr')
      exact hdata (by rw [← hseg, finSegment_data])
  · intro hleft hsame
    exact hleft ⟨attr, hsame, rfl⟩

theorem forgets_iff_not_holds {state state' : CtcpState} {attr : SegmentAttr}
    (hattr : state.sentSegmentAttr = some attr) (hlive : state.conn.deleteMe = false)
    (hout : TimerOutcome state state') :
    Forgets state attr ↔ ¬ Holds state' attr.segment ∧ state'.conn.deleteMe = false := by
  cases hout with
  | expired hexp => simp [Forgets, hexp]
  | running hexp _ hout =>
    cases hout with
    | idle hnone =>
      rw [show state.sentSegmentAttr = none from hnone] at hattr
      cases hattr
    | waiting attr' hattr' htime =>
      obtain rfl : attr = attr' := Option.some.inj (hattr.symm.trans hattr')
      have hlate : ¬ state.rtTimeout ≤ attr.time + state.timer := UInt16.not_le.mpr htime
      simp [Forgets, Holds, hlate]
    | resent attr' hattr' htime hless =>
      obtain rfl : attr = attr' := Option.some.inj (hattr.symm.trans hattr')
      have hfirst : ¬ 5 ≤ attr.noOfTimes + 1 := UInt16.not_le.mpr hless
      simp [Forgets, Holds, hfirst]
    | givenUp attr' hattr' htime hlast =>
      obtain rfl : attr = attr' := Option.some.inj (hattr.symm.trans hattr')
      have htime' : state.rtTimeout ≤ attr.time + state.timer := htime
      simp [Forgets, Holds, hexp, htime', hlast, hlive]

theorem inputKept_step_iff {state : CtcpState} {call : Call} (h : InputInv state)
    (hlive : state.conn.deleteMe = false) :
    InputKept (step state call) ↔ KeepsInput state call := by
  have hout := step_outcome state call
  cases call with
  | read input sent =>
    generalize step state (.read input sent) = state' at hout ⊢
    cases hout with
    | dead _ hdead => rw [hlive] at hdead; cases hdead
    | read _ _ _ _ hout =>
      rw [inputKept_read_iff h hlive hout]
      exact ⟨fun hreads _ => hreads, fun hkeeps => hkeeps hlive⟩
  | receive segment len env =>
    have hcall : Call.receive segment len env ≠ .timer := by simp
    have hslot := discards_iff_not_holds h.wf hlive hcall
    generalize step state (.receive segment len env) = state' at hout hslot ⊢
    -- a segment that is not valid leaves no event, and discards nothing
    have hevents : ∃ es, state'.trace = state.trace ++ es ∧ (∀ bytes, .input (some bytes) ∉ es) ∧
        ∀ s, (Valid segment len ∧ Covers s (received segment)) ↔ Sees (Event.Answers s) es := by
      cases hout with
      | dead _ hdead => rw [hlive] at hdead; cases hdead
      | invalid _ _ _ hvalid => exact ⟨[], by simp, by simp, by simp [hvalid]⟩
      | receive _ _ _ _ _ hvalid hout =>
        obtain ⟨es, htrace, hes⟩ := events_of_receive hout
        refine ⟨_, htrace, ?_, ?_⟩
        · simpa using not_input_of_quiet hes
        · intro s
          simp [hvalid, not_answers_of_quiet hes s]
    obtain ⟨es, htrace, hin, hans⟩ := hevents
    rw [inputKept_iff_of_slot (.receive segment len env) h hlive htrace hin
      (fun s => or_congr Iff.rfl (hans s)) hslot]
    exact ⟨fun hkeeps _ => hkeeps, fun hkeeps => hkeeps hlive⟩
  | output env =>
    have hcall : Call.output env ≠ .timer := by simp
    have hslot := discards_iff_not_holds h.wf hlive hcall
    generalize step state (.output env) = state' at hout hslot ⊢
    cases hout with
    | dead _ hdead => rw [hlive] at hdead; cases hdead
    | output _ _ _ hout =>
      obtain ⟨es, htrace, hes⟩ := events_of_output hout
      have hseen : ∀ s, AckSeen state s (.output env) ↔
          Answered s state.trace ∨ Sees (Event.Answers s) es :=
        fun s => (or_iff_left (not_answers_of_quiet hes s)).symm
      rw [inputKept_iff_of_slot (.output env) h hlive htrace (not_input_of_quiet hes) hseen hslot]
      exact ⟨fun hkeeps _ => hkeeps, fun hkeeps => hkeeps hlive⟩
  | timer =>
    generalize step state .timer = state' at hout ⊢
    cases hout with
    | dead _ hdead => rw [hlive] at hdead; cases hdead
    | timer _ _ hout =>
      obtain ⟨es, htrace, hes⟩ := events_of_timer hout
      have hseen : ∀ s, AckSeen state s .timer ↔
          Answered s state.trace ∨ Sees (Event.Answers s) es :=
        fun s => (or_iff_left (not_answers_of_quiet hes s)).symm
      rw [inputKept_iff_of_slot .timer h hlive htrace (not_input_of_quiet hes) hseen
        (fun attr hattr _ => forgets_iff_not_holds hattr hlive hout)]
      exact ⟨fun hkeeps _ => hkeeps, fun hkeeps => hkeeps hlive⟩

/-! ## Runs -/

theorem inputInv_step (state : CtcpState) (call : Call) (h : InputInv state)
    (hkept : InputKept (step state call)) : InputInv (step state call) :=
  ⟨wf_step state call h.wf, sentAfterRead_step state call h.sent, hkept⟩

/-- **The input is kept along a run exactly as long as no call loses it**: no read whose `conn_send`
    fails, and no data leave the slot unacknowledged. -/
theorem inputKept_iff (cfg : CtcpConfig) (calls : List Call) :
    Along step (fun state call => InputKept (step state call)) (ctcpInit cfg) calls ↔
      Along step KeepsInput (ctcpInit cfg) calls := by
  refine along_iff_of_invariant inputInv_step ?_ (inputInv_init cfg)
  intro state call h
  by_cases hlive : state.conn.deleteMe = false
  · exact inputKept_step_iff h hlive
  · -- a destroyed connection holds no input, and is not called
    have hdead : step state call = state := by simp [step, hlive]
    rw [hdead]
    exact ⟨fun _ hlive' => absurd hlive' hlive, fun _ hlive' => absurd hlive' hlive⟩

/-- The byte is read, `conn_send` fails, and nothing is left to send it from. -/
theorem input_lost :
    ¬ Along step (fun state call => InputKept (step state call)) (ctcpInit ctcpCfg)
      [.read (some ⟨[1], by decide⟩) (-1)] := by
  rintro ⟨hkept, -⟩
  have htrace : (step (ctcpInit ctcpCfg) (.read (some ⟨[1], by decide⟩) (-1))).trace
      = [] ++ .input (some [1]) :: [.send (dataSegment 1 1 [1]) (-1)] := by decide
  obtain ⟨segment, sent, after, heq, hsent, -⟩ := hkept rfl _ _ _ htrace (by simp)
  obtain ⟨hsend, -⟩ := List.cons.inj heq
  obtain ⟨-, rfl⟩ := Event.send.inj hsend
  exact absurd hsent (by decide)

end Ctcp
