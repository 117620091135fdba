/-
  What a connection puts on the wire.

  `Sender` is the invariant of the sending side.  Every segment that has left is a FIN, a bare ACK,
  or data; data are a slice of the input stream, at the sequence number of their offset, unless
  the connection has answered a FIN of the peer (`wrote_eof`) — then our own FIN has taken up a
  sequence number and what `ctcp_read` still sends comes one too late.

  The invariant needs one thing of the environment: a read that returns bytes is followed by a
  `conn_send` that takes them (`ReadsSent`).  Where it fails the bytes are gone.
-/
import Ctcp.Stream

set_option linter.unusedVariables false

namespace Ctcp

open Runs History

/-- The segment has left, for the first time or again. -/
def Emitted (segment : CtcpSegment) (h : List Event) : Prop :=
  Sees (fun e => e.emitted = some segment) h

theorem emitted_of_send {segment : CtcpSegment} {sent : Int} {h : List Event} (hsent : 0 ≤ sent)
    (hmem : .send segment sent ∈ h) : Emitted segment h :=
  ⟨.send segment sent, hmem, if_pos hsent⟩

/-- **What leaves**: `late` stands for data sent after the answer to the peer's FIN. -/
inductive Built (S : List UInt8) (late : Prop) : CtcpSegment → Prop
  | fin (seqno ackno : UInt32) : Built S late (finSegment seqno ackno)
  | ack (seqno ackno : UInt32) : Built S late (ackSegment seqno ackno)
  | data (off : Nat) (ackno : UInt32) (buffer : List UInt8) (hne : buffer ≠ [])
      (hle : buffer.length ≤ maxSegDataSize) (hslice : buffer <+: S.drop off) :
      Built S late (dataSegment (UInt32.ofNat (1 + off)) ackno buffer)
  | late (seqno ackno : UInt32) (buffer : List UInt8) (hne : buffer ≠ [])
      (hle : buffer.length ≤ maxSegDataSize) (hlate : late) :
      Built S late (dataSegment seqno ackno buffer)

theorem Built.mono {S S' : List UInt8} {late late' : Prop} {segment : CtcpSegment}
    (h : Built S late segment) (hS : S <+: S') (hlate : late → late') : Built S' late' segment := by
  cases h with
  | fin seqno ackno => exact .fin seqno ackno
  | ack seqno ackno => exact .ack seqno ackno
  | data off ackno buffer hne hle hslice =>
    refine .data off ackno buffer hne hle ?_
    obtain ⟨rest, rfl⟩ := hS
    rcases Nat.lt_or_ge S.length off with hlt | hge
    · -- beyond the end there is nothing, and the buffer is not empty
      rw [List.drop_eq_nil_of_le (Nat.le_of_lt hlt)] at hslice
      exact absurd (List.prefix_nil.mp hslice) hne
    · rw [List.drop_append_of_le_length hge]
      exact hslice.trans (List.prefix_append _ _)
  | late seqno ackno buffer hne hle hl => exact .late seqno ackno buffer hne hle (hlate hl)

/-- The invariant of the sending side. -/
structure Sender (state : CtcpState) : Prop where
  built : ∀ segment, Emitted segment state.trace →
    Built (inputBytes state.trace) (state.conn.wroteEof = true) segment
  slot : ∀ attr, state.sentSegmentAttr = some attr → Emitted attr.segment state.trace
  fins : ∀ segment, Emitted segment state.trace → isFin segment →
    state.connState ≠ .dataTransfer
  seq : state.conn.wroteEof = false → state.conn.readEof = false →
    state.seqno = UInt32.ofNat (1 + (inputBytes state.trace).length)

theorem sender_init (cfg : CtcpConfig) : Sender (ctcpInit cfg) :=
  ⟨by simp [ctcpInit, Emitted], by simp [ctcpInit], by simp [ctcpInit, Emitted], by simp [ctcpInit]⟩

/-- Bytes that `ctcp_read` obtains are taken by `conn_send`. -/
def ReadsSent (state : CtcpState) (input : Option Chunk) (sent : Int) : Prop :=
  state.sentSegmentAttr = none → state.conn.readEof = false →
    ∀ chunk, input = some chunk → chunk.bytes ≠ [] → 0 ≤ sent

/-- A call that reads no bytes and puts nothing into the slot: what leaves has left before, or is a
    bare ACK. -/
theorem Sender.quiet {state state' : CtcpState} {es : List Event} (h : Sender state)
    (htrace : state'.trace = state.trace ++ es) (hin : inputBytes es = [])
    (hes : ∀ segment, Emitted segment es →
      (∃ seqno ackno, segment = ackSegment seqno ackno) ∨ Emitted segment state.trace)
    (hslot : ∀ attr', state'.sentSegmentAttr = some attr' →
      ∃ attr, state.sentSegmentAttr = some attr ∧ attr'.segment = attr.segment)
    (hconn : state'.connState = .dataTransfer → state.connState = .dataTransfer)
    (hwrote : state.conn.wroteEof = true → state'.conn.wroteEof = true)
    (hread : state.conn.readEof = true → state'.conn.readEof = true)
    (hseq : state'.seqno = state.seqno) : Sender state' := by
  have hsame : inputBytes state'.trace = inputBytes state.trace := by
    rw [htrace, inputBytes_append, hin, List.append_nil]
  have hold : ∀ segment, Emitted segment state'.trace →
      (∃ seqno ackno, segment = ackSegment seqno ackno) ∨ Emitted segment state.trace := by
    intro segment hemit
    rw [Emitted, htrace, sees_append] at hemit
    rcases hemit with hbefore | hnew
    · exact Or.inr hbefore
    · exact hes segment hnew
  refine ⟨?_, ?_, ?_, ?_⟩
  · intro segment hemit
    rcases hold segment hemit with ⟨seqno, ackno, rfl⟩ | hbefore
    · exact .ack seqno ackno
    · rw [hsame]
      exact (h.built segment hbefore).mono (List.prefix_refl _) hwrote
  · intro attr' hattr'
    obtain ⟨attr, hattr, hseg⟩ := hslot attr' hattr'
    rw [hseg, htrace]
    exact (h.slot attr hattr).mono es
  · intro segment hemit hfin hdata
    rcases hold segment hemit with ⟨seqno, ackno, rfl⟩ | hbefore
    · exact isFin_ackSegment _ _ hfin
    · exact h.fins segment hbefore hfin (hconn hdata)
  · intro hwrote' hread'
    rw [hsame, hseq]
    refine h.seq ?_ ?_
    · cases hw : state.conn.wroteEof with
      | false => rfl
      | true => rw [hwrote hw] at hwrote'; cases hwrote'
    · cases hr : state.conn.readEof with
      | false => rfl
      | true => rw [hread hr] at hread'; cases hread'

/-- A call that sends a new FIN, outside `DATA_TRANSFER`. -/
theorem Sender.newFin {state state' : CtcpState} {es : List Event} {attr : SegmentAttr}
    {seqno ackno : UInt32} {sent : Int} (h : Sender state) (hsent : 0 ≤ sent)
    (htrace : state'.trace = state.trace ++ (es ++ [.send (finSegment seqno ackno) sent]))
    (hin : inputBytes es = [])
    (hes : ∀ segment, Emitted segment es → ∃ seqno ackno, segment = ackSegment seqno ackno)
    (hslot : state'.sentSegmentAttr = some attr) (hattr : attr.segment = finSegment seqno ackno)
    (hconn : state'.connState ≠ .dataTransfer)
    (hwrote : state.conn.wroteEof = true → state'.conn.wroteEof = true)
    (hclosed : state'.conn.wroteEof = true ∨ state'.conn.readEof = true) : Sender state' := by
  have hsame : inputBytes state'.trace = inputBytes state.trace := by
    rw [htrace]
    simp [hin]
  have hfin : Emitted (finSegment seqno ackno) state'.trace := by
    rw [htrace]
    exact emitted_of_send hsent (by simp)
  refine ⟨?_, ?_, fun _ _ _ => hconn, ?_⟩
  · intro segment hemit
    rw [Emitted, htrace, sees_append, sees_append] at hemit
    rcases hemit with hbefore | hnew | hlast
    · rw [hsame]
      exact (h.built segment hbefore).mono (List.prefix_refl _) hwrote
    · obtain ⟨seqno', ackno', rfl⟩ := hes segment hnew
      exact .ack seqno' ackno'
    · obtain rfl : finSegment seqno ackno = segment := by simpa [hsent] using hlast
      exact .fin seqno ackno
  · intro attr' hattr'
    obtain rfl : attr = attr' := Option.some.inj (hslot.symm.trans hattr')
    rw [hattr]
    exact hfin
  · intro hw hr
    rcases hclosed with hc | hc
    · rw [hw] at hc; cases hc
    · rw [hr] at hc; cases hc

theorem sender_read {state state' : CtcpState} {input : Option Chunk} {sent : Int}
    (h : Sender state) (hreads : ReadsSent state input sent)
    (hout : ReadOutcome state input sent state') : Sender state' := by
  cases hout with
  | busy => exact h
  | eofUnsent _ _ hsent =>
    have hneg : ¬ 0 ≤ sent := by omega
    exact h.quiet rfl rfl (by simp [Emitted, hneg]) (fun attr' h => ⟨attr', h, rfl⟩) id id
      (fun _ => rfl) rfl
  | eofSent hslot heof hsent =>
    exact @Sender.newFin state _ [.input none] _ _ _ _ h hsent rfl rfl (by simp [Emitted]) rfl rfl
      (by simp) id (Or.inr rfl)
  | unsent chunk hslot heof hin hsent =>
    have hneg : ¬ 0 ≤ sent := by omega
    have hnil : chunk.bytes = [] := by
      by_cases hne : chunk.bytes = []
      · exact hne
      · exact absurd (hreads hslot heof chunk hin hne) hneg
    exact h.quiet rfl (by simp [hnil]) (by simp [Emitted, hneg]) (fun attr' h => ⟨attr', h, rfl⟩)
      id id id rfl
  | noData chunk hslot heof hin hnil hsent =>
    refine h.quiet rfl (by simp) ?_ (fun attr' h => ⟨attr', h, rfl⟩) id id id rfl
    intro segment hemit
    obtain rfl : ackSegment state.seqno state.ackno = segment := by
      simpa [Emitted, hsent] using hemit
    exact Or.inl ⟨_, _, rfl⟩
  | data chunk hslot heof hin hne hsent =>
    have hbytes : inputBytes (state.trace ++ [.input (some chunk.bytes),
        .send (dataSegment state.seqno state.ackno chunk.bytes) sent])
          = inputBytes state.trace ++ chunk.bytes := by simp
    have hnew : Built (inputBytes state.trace ++ chunk.bytes) (state.conn.wroteEof = true)
        (dataSegment state.seqno state.ackno chunk.bytes) := by
      cases hwrote : state.conn.wroteEof with
      | true => exact .late _ _ _ hne chunk.fits rfl
      | false =>
        rw [h.seq hwrote heof]
        have hdrop : (inputBytes state.trace ++ chunk.bytes).drop (inputBytes state.trace).length
            = chunk.bytes := List.drop_left
        exact .data _ _ _ hne chunk.fits (hdrop.symm ▸ List.prefix_refl _)
    refine ⟨?_, ?_, ?_, ?_⟩
    · intro segment hemit
      rw [CtcpState.log_trace, dataSent_trace, hbytes]
      rcases sees_append.mp hemit with hbefore | hlast
      · exact (h.built segment hbefore).mono (List.prefix_append _ _) id
      · obtain rfl : dataSegment state.seqno state.ackno chunk.bytes = segment := by
          simpa [hsent] using hlast
        exact hnew
    · rintro attr ⟨⟩
      exact emitted_of_send hsent (by simp)
    · intro segment hemit hfin
      rcases sees_append.mp hemit with hbefore | hlast
      · exact h.fins segment hbefore hfin
      · obtain rfl : dataSegment state.seqno state.ackno chunk.bytes = segment := by
          simpa [hsent] using hlast
        exact absurd hfin (isFin_dataSegment _ _ _)
    · intro hwrote _
      rw [CtcpState.log_trace, dataSent_trace, hbytes, List.length_append, ← ofNat_next,
        ← h.seq hwrote heof]
      rfl

theorem sender_output {env : Env} {state state' : CtcpState} (h : Sender state)
    (hout : OutputOutcome env state state') : Sender state' := by
  cases hout with
  | noRoom => exact ⟨h.built, h.slot, h.fins, h.seq⟩
  | kept => exact h
  | empty => exact ⟨h.built, by simp, h.fins, h.seq⟩
  | failed =>
    exact h.quiet rfl rfl (by simp [Emitted]) (fun attr' h => ⟨attr', h, rfl⟩) id id id rfl
  | delivered segment =>
    refine h.quiet rfl rfl ?_ (by simp) id id id rfl
    intro sent hemit
    obtain ⟨-, rfl⟩ : 0 ≤ env.sent₀ ∧ _ = sent := by simpa [Emitted] using hemit
    exact Or.inl ⟨_, _, rfl⟩
  | fault =>
    exact h.quiet rfl rfl (by simp [Emitted]) (fun attr' h => ⟨attr', h, rfl⟩) id id id rfl

theorem sender_receive {env : Env} {state state' : CtcpState} {segment : CtcpSegment}
    (h : Sender state) (hout : ReceiveOutcome env state segment state') : Sender state' := by
  cases hout with
  | passiveUnsent hconn hnew hfin hsent =>
    have hneg : ¬ 0 ≤ env.sent₁ := by omega
    refine h.quiet rfl rfl ?_ (fun attr' h => ⟨attr', h, rfl⟩) (by simp) (fun _ => rfl) id rfl
    intro sent hemit
    obtain ⟨-, rfl⟩ : 0 ≤ env.sent₀ ∧ _ = sent := by simpa [Emitted, hneg] using hemit
    exact Or.inl ⟨_, _, rfl⟩
  | passiveClose hconn hnew hfin hsent =>
    let es : List Event := [.receive segment, .outputEof, .acceptFin segment.seqno,
      .send (ackSegment state.seqno (segment.seqno + 1)) env.sent₀]
    have hacks : ∀ sent, Emitted sent es → ∃ seqno ackno, sent = ackSegment seqno ackno := by
      intro sent hemit
      obtain ⟨-, rfl⟩ : 0 ≤ env.sent₀ ∧ _ = sent := by simpa [Emitted, es] using hemit
      exact ⟨_, _, rfl⟩
    exact @Sender.newFin state _ es _ _ _ _ h hsent rfl rfl hacks rfl rfl (by simp) (fun _ => rfl)
      (Or.inl rfl)
  | pureAck => exact h.quiet rfl rfl (by simp [Emitted]) (by simp) id id id rfl
  | data _ _ _ _ _ _ hout =>
    refine sender_output ?_ hout
    exact h.quiet rfl rfl (by simp [Emitted]) (fun attr' h => ⟨attr', h, rfl⟩) id id id rfl
  | closingFinAck =>
    exact h.quiet rfl rfl (by simp [Emitted]) (fun attr' h => ⟨attr', h, rfl⟩) (by simp) id id rfl
  | closingAck =>
    exact h.quiet rfl rfl (by simp [Emitted]) (fun attr' h => ⟨attr', h, rfl⟩) (by simp) id id rfl
  | closingFin =>
    refine h.quiet rfl rfl ?_ (fun attr' h => ⟨attr', h, rfl⟩) id id id rfl
    intro sent hemit
    obtain ⟨-, rfl⟩ : 0 ≤ env.sent₀ ∧ _ = sent := by simpa [Emitted] using hemit
    exact Or.inl ⟨_, _, rfl⟩
  | lastFin =>
    refine h.quiet rfl rfl ?_ (fun attr' h => ⟨attr', h, rfl⟩) id id id rfl
    intro sent hemit
    obtain ⟨-, rfl⟩ : 0 ≤ env.sent₀ ∧ _ = sent := by simpa [Emitted] using hemit
    exact Or.inl ⟨_, _, rfl⟩
  | _ => exact h.quiet rfl rfl (by simp [Emitted]) (fun attr' h => ⟨attr', h, rfl⟩) id id id rfl

theorem sender_timer {state state' : CtcpState} (h : Sender state)
    (hout : TimerOutcome state state') : Sender state' := by
  cases hout with
  | expired =>
    exact h.quiet rfl rfl (by simp [Emitted]) (fun attr' h => ⟨attr', h, rfl⟩) id id id rfl
  | running _ _ hout =>
    cases hout with
    | idle => exact ⟨h.built, h.slot, h.fins, h.seq⟩
    | waiting attr hattr =>
      exact ⟨h.built, fun attr' h' => by cases h'; exact h.slot attr hattr, h.fins, h.seq⟩
    | resent attr hattr =>
      -- what is sent again has been sent before
      refine h.quiet rfl rfl ?_ (fun attr' h' => by cases h'; exact ⟨attr, hattr, rfl⟩) id id id rfl
      intro segment hemit
      obtain rfl : attr.segment = segment := by simpa [Emitted] using hemit
      exact Or.inr (h.slot attr hattr)
    | givenUp attr hattr =>
      refine h.quiet rfl rfl ?_ (by simp) id id id rfl
      intro segment hemit
      obtain rfl : attr.segment = segment := by simpa [Emitted] using hemit
      exact Or.inr (h.slot attr hattr)

theorem sender_step (state : CtcpState) (call : Call) (h : Sender state)
    (hreads : state.conn.deleteMe = false →
      ∀ input sent, call = .read input sent → ReadsSent state input sent) :
    Sender (step state call) := by
  have hout := step_outcome state call
  generalize step state call = state' at hout ⊢
  cases hout with
  | dead => exact h
  | read input sent _ hlive hout => exact sender_read h (hreads hlive input sent rfl) hout
  | invalid => exact h
  | receive _ _ _ _ _ _ hout => exact sender_receive h hout
  | output _ _ _ hout => exact sender_output h hout
  | timer _ _ hout => exact sender_timer h hout

/-! ## How the other side reads it -/

/-- **What arrives is a slice**: data that did not leave too late. -/
theorem Built.slice {S : List UInt8} {late : Prop} {segment : CtcpSegment}
    (h : Built S late segment) (hlate : ¬ late) (hfin : (received segment).flags &&& FIN = 0)
    (hlen : (received segment).len ≠ UInt16.ofNat segmentHdrSize) :
    IsSlice S (received segment) := by
  cases h with
  | fin seqno ackno => exact absurd hfin (isFin_finSegment seqno ackno)
  | ack seqno ackno =>
    rw [← dataSegment_nil, received_dataSegment_len] at hlen
    exact absurd (by simp) hlen
  | data off ackno buffer hne hle hslice =>
    have hsize : maxSegDataSize = 1440 := rfl
    have hdatalen : (datalen (received (dataSegment (UInt32.ofNat (1 + off)) ackno buffer))).toNat
        = buffer.length := by
      rw [datalen_dataSegment _ _ hle, UInt32.toNat_ofNat']
      omega
    have hpayload := payload_dataSegment (UInt32.ofNat (1 + off)) ackno hle
    refine ⟨off, ?_, ?_, ?_, ?_⟩
    · rw [received_seqno, dataSegment_seqno]
    · -- a buffer that is not empty starts inside the stream
      rcases Nat.lt_or_ge off S.length with hlt | hge
      · exact hlt
      · rw [List.drop_eq_nil_of_le hge] at hslice
        exact absurd (List.prefix_nil.mp hslice) hne
    · have hlength : (received (dataSegment (UInt32.ofNat (1 + off)) ackno buffer)).data.length
          = buffer.length := by rw [received_data, dataSegment_data]
      exact Nat.le_of_eq (hdatalen.trans hlength.symm)
    · rw [hpayload]
      exact hslice
  | late seqno ackno buffer hne hle hl => exact absurd hl hlate

end Ctcp
