/-
  The end of the peer's stream, as the application sees it.

  `conn_output(conn, NULL, 0)` is called in `DATA_TRANSFER` only.  A FIN that is accepted in
  another state, or that destroys the connection in `WAIT_LAST_ACK`, is reported only if the
  connection has been through `DATA_TRANSFER`'s own FIN before: `wrote_eof` says so.

  With a peer that sends the stream `S` and then its FIN, `eof_reported` says that the end is
  reported exactly once, after all of `S`, in every run whose calls satisfy `EofInOrder`.
-/
import Ctcp.Acknowledge
import Ctcp.Stream

set_option linter.unusedVariables false

namespace Ctcp

open Runs History

/-! ## The law -/

/-- **The end of the stream `S` is reported once, and at the end.**  It is reported after all of
    `S`, and not twice; where a FIN moves `ackno`, or destroys the connection, it has been
    reported. -/
def EofReported (S : List UInt8) (before : List Event) : Event → Prop
  | .outputEof => before.count .outputEof = 0 ∧ outputBytes before = S
  | .acceptFin _ => before.count .outputEof = 1
  | .destroy =>
    ∀ fin, before.getLast? = some (.receive fin) → fin.flags &&& FIN ≠ 0 →
      before.count .outputEof = 1
  | _ => True

/-- **The calls that keep it so**: data and FINs come in order, and outside `DATA_TRANSFER` a FIN
    is accepted only after the end has been reported. -/
def EofInOrder (state : CtcpState) (call : Call) : Prop :=
  NoGap state call ∧
    match call with
    | .receive segment len _ =>
      Valid segment len → (received segment).flags &&& FIN ≠ 0 →
        state.connState = .waitLastFin ∨
            (state.connState = .tearDown ∧ (received segment).flags &&& ACK = 0) ∨
            (state.connState = .waitLastAck ∧ (received segment).flags &&& ACK ≠ 0) →
          state.conn.wroteEof = true
    | _ => True

/-! ## The invariant -/

/-- What a run with the peer of `S` keeps. -/
structure EofInv (S : List UInt8) (state : CtcpState) : Prop where
  wf : Wf state
  law : Always (EofReported S) state.trace
  count : state.trace.count .outputEof = state.conn.wroteEof.toNat
  td : state.tdState = .waitDestroy → state.conn.wroteEof = true
  receives : state.conn.deleteMe = false → state.connState = .dataTransfer → Receives S state

theorem eofInv_init (S : List UInt8) (cfg : CtcpConfig) : EofInv S (ctcpInit cfg) where
  wf := wf_init cfg
  law := trivial
  count := rfl
  td := by simp [ctcpInit]
  receives := fun _ _ => receives_init S cfg

/-- Events the law says nothing about. -/
def Event.Plain (e : Event) : Prop :=
  e ≠ .outputEof ∧ e ≠ .destroy ∧ ∀ seqno, e ≠ .acceptFin seqno

attribute [simp] Event.Plain

theorem eofReported_of_plain {S : List UInt8} {h es : List Event} (hes : ∀ e ∈ es, e.Plain) :
    AlwaysFrom (EofReported S) h es := by
  refine alwaysFrom_of_forall (fun before e he => ?_)
  obtain ⟨heof, hdestroy, hfin⟩ := hes e he
  cases e with
  | outputEof => exact absurd rfl heof
  | acceptFin seqno => exact absurd rfl (hfin seqno)
  | destroy => exact absurd rfl hdestroy
  | _ => trivial

theorem count_of_plain {es : List Event} (hes : ∀ e ∈ es, e.Plain) :
    es.count .outputEof = 0 := by
  rw [List.count_eq_zero]
  exact fun hmem => (hes _ hmem).1 rfl

theorem eofReported_acceptFin {S : List UInt8} {h : List Event} {seqno : UInt32} :
    EofReported S h (.acceptFin seqno) ↔ h.count .outputEof = 1 := Iff.rfl

/-- The law does not ask for a report when the connection is not destroyed by an arrival. -/
theorem eofReported_destroy {S : List UInt8} {h : List Event} {e : Event}
    (he : ∀ fin, e ≠ .receive fin) : EofReported S (record h e) .destroy := by
  intro fin hlast
  have hsame : some e = some (.receive fin) := by simpa [record] using hlast
  exact absurd (Option.some.inj hsame) (he fin)

/-- A call that reports nothing, accepts nothing and does not destroy the connection. -/
theorem EofInv.plain {S : List UInt8} {state state' : CtcpState} {es : List Event}
    (h : EofInv S state) (hwf : Wf state') (htrace : state'.trace = state.trace ++ es)
    (hes : ∀ e ∈ es, e.Plain) (hwrote : state'.conn.wroteEof = state.conn.wroteEof)
    (htd : state'.tdState = state.tdState)
    (hrec : state'.conn.deleteMe = false → state'.connState = .dataTransfer → Receives S state') :
    EofInv S state' where
  wf := hwf
  law := htrace ▸ always_append.mpr ⟨h.law, eofReported_of_plain hes⟩
  count := by
    rw [htrace, List.count_append, count_of_plain hes, hwrote]
    exact h.count
  td := by
    rw [htd, hwrote]
    exact h.td
  receives := hrec

/-- The FIN of the peer in `DATA_TRANSFER`, after all of its stream. -/
theorem EofInv.passive {S : List UInt8} {state : CtcpState} {fin : CtcpSegment} {seqno : UInt32}
    {es : List Event} (h : EofInv S state) (hconn : state.connState = .dataTransfer)
    (hend : outputBytes state.trace = S) (hes : ∀ e ∈ es, e.Plain) :
    AlwaysFrom (EofReported S) state.trace
      (.receive fin :: .outputEof :: .acceptFin seqno :: es) := by
  have hcount : state.trace.count .outputEof = 0 := by
    rw [h.count, (h.wf.opened hconn).2.1]
    rfl
  refine ⟨trivial, ⟨?_, ?_⟩, ?_, eofReported_of_plain hes⟩
  · simpa [record] using hcount
  · simpa [record] using hend
  · rw [eofReported_acceptFin]
    simpa [record] using hcount

theorem eofInv_read {S : List UInt8} {state state' : CtcpState} {input : Option Chunk} {sent : Int}
    (h : EofInv S state) (hlive : state.conn.deleteMe = false)
    (hout : ReadOutcome state input sent state') : EofInv S state' := by
  have hwf := wf_read h.wf hout
  have hrec : state'.conn.deleteMe = false → state'.connState = .dataTransfer →
      Receives S state' := by
    intro hlive' hconn'
    exact receives_read (h.receives hlive (dataTransfer_of_read hout hconn')) hout
  cases hout with
  | busy => exact h
  | _ => exact h.plain hwf rfl (by simp) rfl rfl hrec

theorem eofInv_output {S : List UInt8} {env : Env} {state state' : CtcpState}
    (hS : S.length < 2 ^ 32) (h : EofInv S state) (hlive : state.conn.deleteMe = false)
    (hgap : ∀ segment, state.receivedSegment = .live segment → Consumes env state segment →
      segment.seqno ≤ state.ackno)
    (hout : OutputOutcome env state state') : EofInv S state' := by
  have hwf := wf_output h.wf hout
  have hrec : state'.conn.deleteMe = false → state'.connState = .dataTransfer →
      Receives S state' := by
    intro hlive' hconn'
    have hstart := h.receives hlive (dataTransfer_of_output hout hconn')
    exact receives_output hS hstart hgap hout hlive'
  cases hout with
  | noRoom => exact ⟨hwf, h.law, h.count, h.td, hrec⟩
  | kept => exact h
  | empty => exact ⟨hwf, h.law, h.count, h.td, hrec⟩
  | failed segment =>
    refine ⟨hwf, ?_, by simpa using h.count, h.td, hrec⟩
    exact always_append.mpr ⟨h.law, trivial, eofReported_destroy (by simp), trivial⟩
  | delivered => exact h.plain hwf rfl (by simp) rfl rfl hrec
  | fault => exact h.plain hwf rfl (by simp) rfl rfl hrec

theorem eofInv_timer {S : List UInt8} {state state' : CtcpState} (h : EofInv S state)
    (hlive : state.conn.deleteMe = false) (hout : TimerOutcome state state') :
    EofInv S state' := by
  have hwf := wf_timer h.wf hout
  have hrec : state'.conn.deleteMe = false → state'.connState = .dataTransfer →
      Receives S state' := by
    intro hlive' hconn'
    exact receives_timer (h.receives hlive (dataTransfer_of_timer hout hconn')) hout
  cases hout with
  | expired hexp =>
    have hwrote := h.td hexp.1
    have hcount := h.count
    rw [hwrote] at hcount
    refine ⟨hwf, ?_, by simpa using h.count, h.td, hrec⟩
    exact always_append.mpr ⟨h.law, fun _ _ _ => hcount, trivial⟩
  | running _ _ hout =>
    cases hout with
    | idle => exact ⟨hwf, h.law, h.count, h.td, hrec⟩
    | waiting => exact ⟨hwf, h.law, h.count, h.td, hrec⟩
    | resent => exact h.plain hwf rfl (by simp) rfl rfl hrec
    | givenUp => exact h.plain hwf rfl (by simp) rfl rfl hrec

theorem eofInv_receive {S : List UInt8} {env : Env} {state state' : CtcpState}
    {segment : CtcpSegment} {len : Nat} (hS : S.length < 2 ^ 32) (h : EofInv S state)
    (hlive : state.conn.deleteMe = false) (hvalid : Valid segment len)
    (hpeer : FromPeer S (.receive segment len env))
    (horder : EofInOrder state (.receive segment len env))
    (hout : ReceiveOutcome env state (received segment) state') : EofInv S state' := by
  obtain ⟨hgap, hrule⟩ := horder
  have hgap := hgap hvalid
  have hrule := hrule hvalid
  have hwf := wf_receive h.wf hout
  have hrec : state'.conn.deleteMe = false → state'.connState = .dataTransfer →
      Receives S state' := by
    intro hlive' hconn'
    have hstart := h.receives hlive (dataTransfer_of_receive hout hconn')
    exact receives_receive hS hstart (hpeer.slice hvalid) (fun ht => hgap (Or.inr ht)) hout hlive'
      hconn'
  -- in `DATA_TRANSFER` the FIN of the peer comes when all of its stream is out
  have hend : state.connState = .dataTransfer → state.ackno ≤ (received segment).seqno →
      (received segment).flags &&& FIN ≠ 0 → outputBytes state.trace = S := by
    intro hconn hnew hfin
    have hstart := h.receives hlive hconn
    have hle := hgap (Or.inl ⟨hfin, Or.inl ⟨hconn, hnew⟩⟩)
    have hseq : (received segment).seqno = state.ackno := UInt32.le_antisymm hle hnew
    have hfinal := hpeer.fin hvalid hfin
    have hle' := hstart.output.length_le
    have hlen : S.length = (outputBytes state.trace).length :=
      offset_inj hS (by omega) (hfinal.symm.trans (hseq.trans hstart.next))
    exact hstart.output.eq_of_length hlen.symm
  cases hout with
  | stale => exact h.plain hwf rfl (by simp) rfl rfl hrec
  | passiveUnsent hconn hnew hfin hsent =>
    refine ⟨hwf, ?_, ?_, by simp, hrec⟩
    · exact always_append.mpr ⟨h.law, h.passive hconn (hend hconn hnew hfin) (by simp)⟩
    · simp [h.count, (h.wf.opened hconn).2.1]
  | passiveClose hconn hnew hfin hsent =>
    refine ⟨hwf, ?_, ?_, by simp, hrec⟩
    · exact always_append.mpr ⟨h.law, h.passive hconn (hend hconn hnew hfin) (by simp)⟩
    · simp [h.count, (h.wf.opened hconn).2.1]
  | pureAck => exact h.plain hwf rfl (by simp) rfl rfl hrec
  | data hconn hnew hfin hack hlen _ hout =>
    have hslice := hpeer.slice hvalid hfin hlen
    have harrive : EofInv S
        ({ state with receivedSegment := .live (received segment) }.log
          [.receive (received segment)]) :=
      h.plain (wf_arrival h.wf _) rfl (by simp) rfl rfl
        (fun _ _ => receives_arrival (h.receives hlive hconn) hslice hnew)
    refine eofInv_output hS harrive hlive ?_ hout
    rintro _ ⟨⟩ hcons
    exact hgap (Or.inr ⟨hconn, hnew, hfin, hack, Or.inr hcons⟩)
  | unflagged => exact h.plain hwf rfl (by simp) rfl rfl hrec
  | closingFinAck => exact h.plain hwf rfl (by simp) rfl rfl hrec
  | closingAck => exact h.plain hwf rfl (by simp) rfl rfl hrec
  | closingFin hconn hack hfin =>
    have hwrote := hrule hfin (Or.inr (Or.inl ⟨hconn, hack⟩))
    have hcount : state.trace.count .outputEof = 1 := by rw [h.count, hwrote]; rfl
    refine ⟨hwf, ?_, by simpa using h.count, h.td, hrec⟩
    refine always_append.mpr ⟨h.law, trivial, ?_, trivial, eofReported_destroy (by simp), trivial⟩
    rw [eofReported_acceptFin]
    simpa [record] using hcount
  | lastFin hconn hfin =>
    have hwrote := hrule hfin (Or.inl hconn)
    have hcount : state.trace.count .outputEof = 1 := by rw [h.count, hwrote]; rfl
    refine ⟨hwf, ?_, by simpa using h.count, fun _ => hwrote, hrec⟩
    refine always_append.mpr ⟨h.law, trivial, ?_, trivial, trivial⟩
    rw [eofReported_acceptFin]
    simpa [record] using hcount
  | lastAck hconn hack =>
    refine ⟨hwf, ?_, by simpa using h.count, h.td, hrec⟩
    refine always_append.mpr ⟨h.law, trivial, ?_, trivial⟩
    intro fin hlast hfin
    obtain rfl : received segment = fin := by simpa [record] using hlast
    have hwrote := hrule hfin (Or.inr (Or.inr ⟨hconn, hack⟩))
    simp [record, h.count, hwrote]
  | ignored => exact h.plain hwf rfl (by simp) rfl rfl hrec

theorem eofInv_step {S : List UInt8} (hS : S.length < 2 ^ 32) (state : CtcpState) (call : Call)
    (h : EofInv S state) (hcall : FromPeer S call ∧ EofInOrder state call) :
    EofInv S (step state call) := by
  obtain ⟨hpeer, horder⟩ := hcall
  have hout := step_outcome state call
  generalize step state call = state' at hout ⊢
  cases hout with
  | dead => exact h
  | read _ _ _ hlive hout => exact eofInv_read h hlive hout
  | invalid => exact h
  | receive _ _ _ _ hlive hvalid hout => exact eofInv_receive hS h hlive hvalid hpeer horder hout
  | output _ _ hlive hout => exact eofInv_output hS h hlive horder.1 hout
  | timer _ hlive hout => exact eofInv_timer h hlive hout

/-- **The end of the peer's stream is reported once, and after all of it**, in every run with a
    peer that sends `S` and then its FIN, and in which each call satisfies `EofInOrder`. -/
theorem eof_reported (S : List UInt8) (hS : S.length < 2 ^ 32) (cfg : CtcpConfig)
    (calls : List Call) (hpeer : ∀ call ∈ calls, FromPeer S call)
    (horder : Along step EofInOrder (ctcpInit cfg) calls) :
    Always (EofReported S) (run step (ctcpInit cfg) calls).trace := by
  have hcalls := (along_of_forall hpeer).and horder
  exact (hcalls.invariant (eofInv_step hS) (eofInv_init S cfg)).law

/-- The peer sends one byte and its FIN. -/
theorem eof_reported_byte :
    Always (EofReported [9]) (run step (ctcpInit ctcpCfg)
      [.arrival (dataSegment 1 1 [9]), .arrival (finSegment 2 1)]).trace := by
  refine eof_reported [9] (by decide) ctcpCfg _ ?_ ?_
  · intro call hcall
    simp only [List.mem_cons, List.not_mem_nil, or_false] at hcall
    rcases hcall with rfl | rfl
    · intro _
      rw [if_neg (by decide)]
      exact fun _ => ⟨0, by decide, by decide, by decide, by decide⟩
    · intro _
      rw [if_pos (by decide)]
      decide
  · refine ⟨⟨fun _ _ => by decide, fun _ hfin => absurd (by decide) hfin⟩,
      ⟨fun _ _ => by decide, fun _ _ => by decide⟩, trivial⟩

/-- We close first: the peer's FIN is accepted in `WAIT_LAST_FIN`, and the end of its empty stream
    is not reported. -/
theorem eof_unreported :
    ¬ Always (EofReported []) (run step (ctcpInit ctcpCfg)
      [.read none 20, .arrival (ackSegment 1 2), .arrival (finSegment 1 2)]).trace := by
  intro h
  have htrace : (run step (ctcpInit ctcpCfg)
      [.read none 20, .arrival (ackSegment 1 2), .arrival (finSegment 1 2)]).trace
        = [.input none, .send (finSegment 1 1) 20, .receive (received (ackSegment 1 2)),
            .receive (received (finSegment 1 2))]
          ++ .acceptFin 1 :: [.send (ackSegment 2 2) 20] := by decide
  have hcount : List.count Event.outputEof _ = 1 := (htrace ▸ h).at
  exact absurd hcount (by decide)

end Ctcp
