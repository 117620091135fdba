/-
  An endpoint with the output queue of its connection.

  In the callbacks of `Ctcp.Callbacks` the answers of `conn_bufspace` and `conn_output` are
  parameters.  Here they are those of a queue (`Ctcp.OutQueue`): `terminalStep` runs the callback
  with them, and the queue through what the callback has done.  `conn_drain` writes the queue out
  and calls `ctcp_output`, which looks at the segment that the endpoint has kept.

  `terminal_lossless`: in every run, what has been written to the file descriptor, followed by what
  is waiting in the queue, is what the endpoint has handed over with success (`acceptedBytes`), in
  order; and the two agree on which connections have written EOF or have been removed, so that no
  assertion of `conn_output` fails.
-/
import Ctcp.OutQueue
import Ctcp.Stream
import Ctcp.HeaderLength
import Ctcp.Checksum

set_option linter.unusedVariables false

namespace Ctcp

/-- The event concerns the output side of the `conn_t`. -/
def Event.prints : Event → Bool
  | .output _ _ => true
  | .outputEof => true
  | .destroy => true
  | _ => false

/-- The bytes that `conn_output` has taken. -/
def Event.accepts : Event → List UInt8
  | .output segment written => if 0 < written then payload segment else []
  | _ => []

attribute [simp] Event.prints Event.accepts

/-- All bytes that `conn_output` has taken. -/
def acceptedBytes (h : List Event) : List UInt8 := h.flatMap Event.accepts

@[simp] theorem acceptedBytes_append (h es : List Event) :
    acceptedBytes (h ++ es) = acceptedBytes h ++ acceptedBytes es := by simp [acceptedBytes]

@[simp] theorem acceptedBytes_nil : acceptedBytes [] = [] := rfl

@[simp] theorem acceptedBytes_cons (e : Event) (es : List Event) :
    acceptedBytes (e :: es) = e.accepts ++ acceptedBytes es := by simp [acceptedBytes]

theorem acceptedBytes_filter (es : List Event) :
    acceptedBytes (es.filter Event.prints) = acceptedBytes es := by
  induction es with
  | nil => rfl
  | cons e es ih => cases e <;> simp [List.filter_cons, ih]

end Ctcp

namespace Ctcp.OutQueue

open Runs

/-! ## The endpoint and its queue -/

/-- The endpoint, the output side of its `conn_t`, and the bit `POLLOUT` of STDOUT. -/
structure Terminal where
  state : CtcpState
  out : OutConn
  pollOut : Bool

/-- A new connection. -/
def Terminal.init (cfg : CtcpConfig) (pollOut : Bool) : Terminal :=
  ⟨ctcpInit cfg, OutConn.init, pollOut⟩

theorem connBufspace_le (conn : OutConn) : connBufspace conn ≤ maxBufSpace := by
  simp only [connBufspace]
  split <;> omega

/-- The answers of the library in a callback that finds `segment` to output: the room in the queue,
    what `conn_output` returns when `write` answers `write`, and the results of `conn_send`. -/
def Terminal.answers (runProgram : Bool) (t : Terminal) (segment : CtcpSegment)
    (write : WriteResult) (sent₀ sent₁ : Int) : Env where
  bufspace := connBufspace t.out
  written := (connOutput runProgram t.out t.pollOut ⟨payload segment, write⟩).2.2
  sent₀ := sent₀
  sent₁ := sent₁
  bounded := connBufspace_le t.out

/-- What an event does to the queue. -/
def printEvent (runProgram : Bool) (write : WriteResult) (s : OutConn × Bool) :
    Event → OutConn × Bool
  | .output segment _ =>
    let (conn, pollOut, _) := handOver runProgram s.1 s.2 ⟨payload segment, write⟩
    (conn, pollOut)
  | .outputEof =>
    let (conn, pollOut, _) := handOver runProgram s.1 s.2 ⟨[], write⟩
    (conn, pollOut)
  | .destroy => ({ s.1 with deleteMe := true }, s.2)
  | _ => s

/-- A callback, and what it does to the queue. -/
def Terminal.call (runProgram : Bool) (t : Terminal) (call : Call) (write : WriteResult) :
    Terminal :=
  let (out, pollOut) := run (printEvent runProgram write) (t.out, t.pollOut) (events t.state call)
  ⟨step t.state call, out, pollOut⟩

/-- What happens to a terminal, with the answers of `write` and `conn_send`. -/
inductive TermCall where
  | read (input : Option Chunk) (sent : Int)
  | timer
  | receive (segment : CtcpSegment) (len : Nat) (write : WriteResult) (sent₀ sent₁ : Int)
  | drain (writes : List WriteResult) (write : WriteResult) (sent₀ : Int)
  deriving DecidableEq, Repr

/-- The segment that `ctcp_output` looks at. -/
def keptSegment (state : CtcpState) : CtcpSegment :=
  match state.receivedSegment with
  | .live segment => segment
  -- `ctcp_output` is entered with a pointer to nothing, and outputs nothing
  | _ => ⟨0, 0, UInt16.ofNat segmentHdrSize, 0, 0, 0, 0, []⟩

/-- `conn_drain` up to its call of `ctcp_output`, and whether it makes it. -/
def Terminal.writeOut (t : Terminal) (writes : List WriteResult) : Terminal × Bool :=
  if t.out.wroteErr then ({ t with pollOut := false }, false)
  else
    let (conn, pollOut, outputted) := drainLoop t.out false false writes
    let conn :=
      if conn.wroteEof ∧ conn.wroteErr = false ∧ conn.queue.head = none then
        { conn with wroteErr := true }
      else conn
    ({ t with out := conn, pollOut := pollOut }, outputted && !conn.deleteMe)

/-- One step. -/
def terminalStep (runProgram : Bool) (t : Terminal) : TermCall → Terminal
  | .read input sent => t.call runProgram (.read input sent) .again
  | .timer => t.call runProgram .timer .again
  | .receive segment len write sent₀ sent₁ =>
    t.call runProgram
      (.receive segment len (t.answers runProgram (received segment) write sent₀ sent₁)) write
  | .drain writes write sent₀ =>
    let (t, outputted) := t.writeOut writes
    if outputted then
      t.call runProgram
        (.output (t.answers runProgram (keptSegment t.state) write sent₀ 0)) write
    else t

/-! ## What a callback does to the output -/

/-- The other events leave the queue alone. -/
theorem run_printEvent (runProgram : Bool) (write : WriteResult) (s : OutConn × Bool)
    (es : List Event) :
    run (printEvent runProgram write) s es
      = run (printEvent runProgram write) s (es.filter Event.prints) := by
  induction es generalizing s with
  | nil => rfl
  | cons e es ih =>
    cases e with
    | output => exact ih _
    | outputEof => exact ih _
    | destroy => exact ih _
    | _ => exact ih s

/-- **What a callback does to the output**: nothing; EOF; a segment is handed over, if there is room
    for it, and the connection is removed when that fails; or the connection is removed. -/
inductive Printing (env : Env) (segment : CtcpSegment) (state state' : CtcpState) :
    List Event → Prop
  | nothing (hwrote : state'.conn.wroteEof = state.conn.wroteEof)
      (hlive : state'.conn.deleteMe = false) : Printing env segment state state' []
  | eof (hwrote : state'.conn.wroteEof = true) (hlive : state'.conn.deleteMe = false) :
      Printing env segment state state' [.outputEof]
  | output (hwrote : state'.conn.wroteEof = state.conn.wroteEof)
      (hlive : state'.conn.deleteMe = false) (hlen : datalen segment ≠ 0)
      (hfits : (datalen segment).toNat ≤ env.bufspace) (hwritten : 0 ≤ outputResult env state) :
      Printing env segment state state' [.output segment (outputResult env state)]
  | failed (hwrote : state'.conn.wroteEof = state.conn.wroteEof)
      (hdead : state'.conn.deleteMe = true) (hlen : datalen segment ≠ 0)
      (hfits : (datalen segment).toNat ≤ env.bufspace) (hwritten : outputResult env state < 0) :
      Printing env segment state state' [.output segment (outputResult env state), .destroy]
  | removed (hwrote : state'.conn.wroteEof = state.conn.wroteEof)
      (hdead : state'.conn.deleteMe = true) : Printing env segment state state' [.destroy]

/-- `ctcp_output`, on the segment that is kept. -/
theorem printing_output {env : Env} {state state' : CtcpState} {es : List Event}
    (hlive : state.conn.deleteMe = false) (hout : OutputOutcome env state state')
    (htrace : state'.trace = state.trace ++ es) :
    Printing env (keptSegment state) state state' (es.filter Event.prints) := by
  have hkept : ∀ {segment}, state.receivedSegment = .live segment →
      keptSegment state = segment := by
    intro segment hseg
    simp only [keptSegment, hseg]
  cases hout with
  | noRoom =>
    obtain rfl : es = [] := by simpa using htrace
    exact .nothing rfl hlive
  | kept =>
    obtain rfl : es = [] := by simpa using htrace
    exact .nothing rfl hlive
  | empty =>
    obtain rfl : es = [] := by simpa using htrace
    exact .nothing rfl hlive
  | failed segment hseg _ hlen hfits hwritten =>
    obtain rfl : _ = es := List.append_cancel_left htrace
    rw [hkept hseg]
    exact .failed rfl rfl hlen hfits hwritten
  | delivered segment hseg _ hlen hfits hwritten =>
    obtain rfl : _ = es := List.append_cancel_left htrace
    rw [hkept hseg]
    exact .output rfl hlive hlen hfits hwritten
  | fault =>
    obtain rfl : _ = es := List.append_cancel_left htrace
    exact .nothing rfl hlive

/-- Only `wrote_eof` matters. -/
theorem Printing.congr {env : Env} {segment : CtcpSegment} {state₁ state₂ state' : CtcpState}
    {es : List Event} (h : Printing env segment state₁ state' es)
    (hwrote : state₁.conn.wroteEof = state₂.conn.wroteEof) :
    Printing env segment state₂ state' es := by
  have hresult : outputResult env state₁ = outputResult env state₂ := by
    simp only [outputResult, hwrote]
  cases h with
  | nothing hsame hlive => exact .nothing (hsame.trans hwrote) hlive
  | eof hsame hlive => exact .eof hsame hlive
  | output hsame hlive hlen hfits hwritten =>
    rw [hresult] at hwritten ⊢
    exact .output (hsame.trans hwrote) hlive hlen hfits hwritten
  | failed hsame hdead hlen hfits hwritten =>
    rw [hresult] at hwritten ⊢
    exact .failed (hsame.trans hwrote) hdead hlen hfits hwritten
  | removed hsame hdead => exact .removed (hsame.trans hwrote) hdead

/-- `ctcp_receive`, on a segment in host order. -/
theorem printing_receive {env : Env} {state state' : CtcpState} {segment : CtcpSegment}
    {es : List Event} (hlive : state.conn.deleteMe = false)
    (hout : ReceiveOutcome env state segment state') (htrace : state'.trace = state.trace ++ es) :
    Printing env segment state state' (es.filter Event.prints) := by
  cases hout with
  | data _ _ _ _ _ _ hout =>
    obtain ⟨es', rfl⟩ : ∃ es', es = .receive segment :: es' := by
      obtain ⟨es', htail⟩ := trace_of_output hout
      refine ⟨es', List.append_cancel_left (htrace.symm.trans (htail.symm.trans ?_))⟩
      simp
    -- the segment has become the one that is kept
    have hkept : keptSegment ({ state with receivedSegment := .live segment }.log
      [.receive segment]) = segment := rfl
    have htrace' : state'.trace = state.trace ++ [.receive segment] ++ es' := by
      rw [htrace, List.append_assoc]
      rfl
    have hprint := printing_output (by exact hlive) hout htrace'
    rw [hkept] at hprint
    exact hprint.congr rfl
  | passiveUnsent =>
    obtain rfl : _ = es := List.append_cancel_left htrace
    exact .eof rfl hlive
  | passiveClose =>
    obtain rfl : _ = es := List.append_cancel_left htrace
    exact .eof rfl hlive
  | closingFin =>
    obtain rfl : _ = es := List.append_cancel_left htrace
    exact .removed rfl rfl
  | lastAck =>
    obtain rfl : _ = es := List.append_cancel_left htrace
    exact .removed rfl rfl
  | _ =>
    obtain rfl : _ = es := List.append_cancel_left htrace
    exact .nothing rfl hlive

/-- `ctcp_read` and the timer. -/
theorem printing_other {state : CtcpState} (env : Env) (segment : CtcpSegment) {call : Call}
    (hlive : state.conn.deleteMe = false)
    (hcall : call = .timer ∨ ∃ input sent, call = .read input sent) :
    Printing env segment state (step state call) ((events state call).filter Event.prints) := by
  have hout := step_outcome state call
  have htrace := step_trace state call
  generalize step state call = state' at hout htrace ⊢
  generalize events state call = es at htrace ⊢
  cases hout with
  | dead _ hdead =>
    rw [hdead] at hlive
    cases hlive
  | read input sent _ _ hout =>
    cases hout with
    | busy =>
      obtain rfl : es = [] := by simpa using htrace
      exact .nothing rfl hlive
    | _ =>
      obtain rfl : _ = es := List.append_cancel_left htrace
      exact .nothing rfl hlive
  | invalid => rcases hcall with hcall | ⟨_, _, hcall⟩ <;> cases hcall
  | receive => rcases hcall with hcall | ⟨_, _, hcall⟩ <;> cases hcall
  | output => rcases hcall with hcall | ⟨_, _, hcall⟩ <;> cases hcall
  | timer _ _ hout =>
    cases hout with
    | expired =>
      obtain rfl : _ = es := List.append_cancel_left htrace
      exact .removed rfl rfl
    | running _ _ hout =>
      cases hout with
      | idle =>
        obtain rfl : es = [] := by simpa using htrace
        exact .nothing rfl hlive
      | waiting =>
        obtain rfl : es = [] := by simpa using htrace
        exact .nothing rfl hlive
      | resent =>
        obtain rfl : _ = es := List.append_cancel_left htrace
        exact .nothing rfl hlive
      | givenUp =>
        obtain rfl : _ = es := List.append_cancel_left htrace
        exact .nothing rfl hlive

/-! ## What `conn_output` keeps -/

section Handover

variable {runProgram pollOut : Bool} {conn : OutConn} {chunks : List OutChunk}

/-- `conn_output` moves neither `handed` nor `delete_me`, and `wrote_eof` only for an empty
    buffer. -/
theorem connOutput_keeps (h : TailQueue.Holds conn.queue chunks) (hlive : conn.deleteMe = false)
    (call : OutputCall) :
    let conn' := (connOutput runProgram conn pollOut call).1
    conn'.handed = conn.handed ∧ conn'.deleteMe = false ∧
      (0 < call.buf.length → conn'.wroteEof = conn.wroteEof) ∧
      (call.buf.length = 0 → conn'.wroteEof = true) := by
  obtain ⟨chunks', houtcome⟩ := connOutput_outcome runProgram pollOut h hlive
  show (connOutput runProgram conn pollOut call).1.handed = _ ∧ _
  generalize connOutput runProgram conn pollOut call = result at houtcome
  cases houtcome with
  | closed heof => exact ⟨rfl, hlive, fun _ => rfl, fun _ => heof⟩
  | eof heof hlen => exact ⟨rfl, hlive, fun hpos => by omega, fun _ => rfl⟩
  | failedBefore heof hlen => exact ⟨rfl, hlive, fun _ => rfl, fun hnil => by omega⟩
  | full hlen => exact ⟨rfl, hlive, fun _ => rfl, fun hnil => by omega⟩
  | failed heof hlen => exact ⟨rfl, hlive, fun _ => rfl, fun hnil => by omega⟩
  | whole heof hlen => exact ⟨rfl, hlive, fun _ => rfl, fun hnil => by omega⟩
  | queued w chunk queue heof hlen => exact ⟨rfl, hlive, fun _ => rfl, fun hnil => by omega⟩

/-- With room, and EOF not written, `conn_output` fails or takes something. -/
theorem connOutput_positive (h : TailQueue.Holds conn.queue chunks) (hlive : conn.deleteMe = false)
    {call : OutputCall} (hopen : conn.wroteEof = false) (hlen : 0 < call.buf.length)
    (hroom : connBufspace conn ≠ 0) (hok : 0 ≤ (connOutput runProgram conn pollOut call).2.2) :
    0 < (connOutput runProgram conn pollOut call).2.2 := by
  obtain ⟨chunks', houtcome⟩ := connOutput_outcome runProgram pollOut h hlive
  generalize connOutput runProgram conn pollOut call = result at houtcome hok ⊢
  cases houtcome with
  | closed heof =>
    rw [hopen] at heof
    cases heof
  | eof heof hnil => omega
  | failedBefore => cases hok
  | full hlen hfull => exact absurd hfull hroom
  | failed => cases hok
  | whole =>
    show (0 : Int) < call.buf.length
    omega
  | queued =>
    show (0 : Int) < call.buf.length
    omega

/-- `handOver` is `conn_output`, and `handed` grows by what it takes. -/
theorem handOver_fields (call : OutputCall) :
    let after := (handOver runProgram conn pollOut call).1
    let result := connOutput runProgram conn pollOut call
    after.handed = result.1.handed ++ (if 0 < result.2.2 then call.buf else []) ∧
      after.deleteMe = result.1.deleteMe ∧ after.wroteEof = result.1.wroteEof := by
  simp only [handOver]
  split
  · exact ⟨rfl, rfl, rfl⟩
  · exact ⟨(List.append_nil _).symm, rfl, rfl⟩

end Handover

/-! ## The invariant -/

/-- If the output buffer can hold the payload, it is all there. -/
def Within (segment : CtcpSegment) : Prop :=
  (datalen segment).toNat ≤ maxBufSpace → (datalen segment).toNat ≤ segment.data.length

/-- This is so for the segment that is kept. -/
def KeptWithin (state : CtcpState) : Prop :=
  ∀ segment, state.receivedSegment = .live segment → Within segment

/-- The endpoint and its queue agree. -/
structure TermInv (t : Terminal) : Prop where
  queue : ∃ chunks, OutInv t.out chunks
  handed : t.out.handed = acceptedBytes t.state.trace
  eof : t.out.wroteEof = t.state.conn.wroteEof
  removed : t.out.deleteMe = t.state.conn.deleteMe
  kept : KeptWithin t.state

theorem termInv_init (cfg : CtcpConfig) (pollOut : Bool) : TermInv (.init cfg pollOut) where
  queue := ⟨[], outInv_init⟩
  handed := rfl
  eof := rfl
  removed := rfl
  kept segment hseg := by cases hseg

section Callback

variable {runProgram : Bool} {t : Terminal} {segment : CtcpSegment} {call : Call}
  {write : WriteResult} {sent₀ sent₁ : Int}

/-- The answer that the endpoint sees is that of the queue. -/
theorem TermInv.result (h : TermInv t) (hlive : t.state.conn.deleteMe = false) :
    outputResult (t.answers runProgram segment write sent₀ sent₁) t.state
      = (connOutput runProgram t.out t.pollOut ⟨payload segment, write⟩).2.2 := by
  have hdead : t.out.deleteMe = false := h.removed.trans hlive
  by_cases heof : t.state.conn.wroteEof = true
  · have hclosed : t.out.wroteEof = true := h.eof.trans heof
    simp only [outputResult, if_pos heof, connOutput, hdead, hclosed, if_true, if_false,
      Bool.false_eq_true]
  · rw [outputResult, if_neg heof]
    rfl

/-- A payload that fits is handed over, and counted when it is taken. -/
theorem TermInv.output (h : TermInv t) (hlive : t.state.conn.deleteMe = false)
    (hlen : (payload segment).length = (datalen segment).toNat) (hne : datalen segment ≠ 0)
    (hfits : (datalen segment).toNat ≤ connBufspace t.out) :
    let result := handOver runProgram t.out t.pollOut ⟨payload segment, write⟩
    (∃ chunks, OutInv result.1 chunks) ∧
      result.1.handed = acceptedBytes t.state.trace ++ acceptedBytes
        [.output segment
          (outputResult (t.answers runProgram segment write sent₀ sent₁) t.state)] ∧
      result.1.wroteEof = t.state.conn.wroteEof ∧ result.1.deleteMe = false := by
  obtain ⟨chunks, hqueue⟩ := h.queue
  have hdead : t.out.deleteMe = false := h.removed.trans hlive
  have hcall : Callable t.out ⟨payload segment, write⟩ := ⟨hdead, hlen ▸ hfits⟩
  obtain ⟨hhanded, hremoved, heof, -⟩ := @connOutput_keeps runProgram t.pollOut _ _ hqueue.holds
    hdead ⟨payload segment, write⟩
  obtain ⟨hhanded', hremoved', heof'⟩ :=
    @handOver_fields runProgram t.pollOut t.out ⟨payload segment, write⟩
  have hpos : 0 < (payload segment).length := by
    have hnat : (datalen segment).toNat ≠ 0 := fun hzero => hne (UInt32.toNat_inj.mp hzero)
    omega
  refine ⟨hqueue.handOver runProgram t.pollOut hcall, ?_, ?_, ?_⟩
  · rw [hhanded', hhanded, h.handed, h.result hlive]
    simp
  · rw [heof', heof hpos, h.eof]
  · rw [hremoved', hremoved]

/-- **A callback keeps the invariant**, when the queue answers it. -/
theorem TermInv.callback (h : TermInv t) (hlive : t.state.conn.deleteMe = false)
    (hprint : Printing (t.answers runProgram segment write sent₀ sent₁) segment t.state
      (step t.state call) ((events t.state call).filter Event.prints))
    (hwithin : Within segment) (hkept : KeptWithin (step t.state call)) :
    TermInv (t.call runProgram call write) := by
  obtain ⟨chunks, hqueue⟩ := h.queue
  have hdead : t.out.deleteMe = false := h.removed.trans hlive
  have hpayload : (datalen segment).toNat ≤ connBufspace t.out →
      (payload segment).length = (datalen segment).toNat := by
    intro hfits
    have hle := hwithin (Nat.le_trans hfits (connBufspace_le t.out))
    rw [payload, List.length_take]
    omega
  have hhanded : acceptedBytes (step t.state call).trace = acceptedBytes t.state.trace
      ++ acceptedBytes ((events t.state call).filter Event.prints) := by
    rw [step_trace, acceptedBytes_append, acceptedBytes_filter]
  unfold Terminal.call
  rw [run_printEvent]
  generalize (events t.state call).filter Event.prints = es at hprint hhanded ⊢
  cases hprint with
  | nothing hwrote hlive' =>
    refine ⟨⟨chunks, hqueue⟩, ?_, h.eof.trans hwrote.symm, hdead.trans hlive'.symm, hkept⟩
    rw [hhanded]
    exact h.handed.trans (List.append_nil _).symm
  | eof hwrote hlive' =>
    have hcall : Callable t.out ⟨[], write⟩ := ⟨hdead, Nat.zero_le _⟩
    obtain ⟨hsame, hremoved, -, heof⟩ :=
      @connOutput_keeps runProgram t.pollOut _ _ hqueue.holds hdead ⟨[], write⟩
    obtain ⟨hsame', hremoved', heof'⟩ := @handOver_fields runProgram t.pollOut t.out ⟨[], write⟩
    refine ⟨hqueue.handOver runProgram t.pollOut hcall, ?_, (heof'.trans (heof rfl)).trans
      hwrote.symm, (hremoved'.trans hremoved).trans hlive'.symm, hkept⟩
    rw [hhanded]
    show (handOver runProgram t.out t.pollOut ⟨[], write⟩).1.handed = _
    rw [hsame', hsame, h.handed]
    simp
  | output hwrote hlive' hne hfits hwritten =>
    obtain ⟨hqueue', hhanded', heof', hremoved'⟩ :=
      @TermInv.output runProgram t segment write sent₀ sent₁ h hlive (hpayload hfits) hne hfits
    exact ⟨hqueue', hhanded'.trans hhanded.symm, heof'.trans hwrote.symm,
      hremoved'.trans hlive'.symm, hkept⟩
  | failed hwrote hdead' hne hfits hwritten =>
    obtain ⟨⟨chunks', hqueue'⟩, hhanded', heof', hremoved'⟩ :=
      @TermInv.output runProgram t segment write sent₀ sent₁ h hlive (hpayload hfits) hne hfits
    refine ⟨⟨chunks', hqueue'.holds, hqueue'.bytes, hqueue'.bound, hqueue'.safe⟩, ?_,
      heof'.trans hwrote.symm, hdead'.symm, hkept⟩
    rw [hhanded]
    refine hhanded'.trans ?_
    simp
  | removed hwrote hdead' =>
    refine ⟨⟨chunks, hqueue.holds, hqueue.bytes, hqueue.bound, hqueue.safe⟩, ?_,
      h.eof.trans hwrote.symm, hdead'.symm, hkept⟩
    rw [hhanded]
    exact h.handed.trans (List.append_nil _).symm

end Callback

/-! ## A callback that the queue answers -/

/-- The environment of the callback is the queue. -/
def Terminal.Answers (runProgram : Bool) (t : Terminal) (write : WriteResult) : Call → Prop
  | .receive segment _ env =>
    env = t.answers runProgram (received segment) write env.sent₀ env.sent₁
  | .output env => env = t.answers runProgram (keptSegment t.state) write env.sent₀ env.sent₁
  | _ => True

/-- The segment that the callback is for has the bytes that it announces. -/
def CallWithin : Call → Prop
  | .receive segment len _ => Valid segment len → Within (received segment)
  | _ => True

/-- The length field of a valid segment that arrives in one piece does not go beyond its end; one
    that does not even cover the header announces nearly 2^32 bytes. -/
theorem within_of_valid {segment : CtcpSegment} {len : Nat} (hvalid : Valid segment len)
    (hlen : len = segmentHdrSize + segment.data.length) (hlt : len < 2 ^ 16) :
    Within (received segment) := by
  intro hfits
  have hmax : maxBufSpace = 8192 := rfl
  have hhdr : segmentHdrSize = 20 := rfl
  obtain ⟨hle, -⟩ := (valid_iff segment len).mp hvalid
  rw [Nat.mod_eq_of_lt hlt] at hle
  show _ ≤ segment.data.length
  rcases Nat.lt_or_ge (headerLen segment) segmentHdrSize with hshort | hcovers
  · have hlong := toNat_datalen_short hshort
    omega
  · have hexact := toNat_datalen hcovers
    omega

theorem KeptWithin.segment {state : CtcpState} (h : KeptWithin state) :
    Within (keptSegment state) := by
  unfold keptSegment
  cases hseg : state.receivedSegment with
  | live segment => exact h segment hseg
  | null => exact fun _ => Nat.le_refl 0
  | freed => exact fun _ => Nat.le_refl 0

theorem keptWithin_output {env : Env} {state state' : CtcpState} (h : KeptWithin state)
    (hout : OutputOutcome env state state') : KeptWithin state' := by
  cases hout with
  | noRoom => rintro _ ⟨⟩
  | kept => exact h
  | empty => rintro _ ⟨⟩
  | failed => exact h
  | delivered => rintro _ ⟨⟩
  | fault => exact h

theorem keptWithin_step {state : CtcpState} {call : Call} (h : KeptWithin state)
    (hcall : CallWithin call) : KeptWithin (step state call) := by
  have hout := step_outcome state call
  generalize step state call = state' at hout ⊢
  cases hout with
  | dead => exact h
  | read input sent _ _ hout =>
    cases hout with
    | busy => exact h
    | _ => exact h
  | invalid => exact h
  | receive segment _ _ _ _ hvalid hout =>
    cases hout with
    | data _ _ _ _ _ _ hout =>
      refine keptWithin_output ?_ hout
      rintro _ ⟨⟩
      exact hcall hvalid
    | _ => exact h
  | output _ _ _ hout => exact keptWithin_output h hout
  | timer _ _ hout =>
    cases hout with
    | expired => exact h
    | running _ _ hout =>
      cases hout with
      | idle => exact h
      | waiting => exact h
      | resent => exact h
      | givenUp => exact h

section Called

variable {runProgram : Bool} {t : Terminal} {call : Call} {write : WriteResult}

/-- A call that the endpoint ignores. -/
theorem events_same {state : CtcpState} (hsame : step state call = state) :
    events state call = [] := by
  refine events_eq ?_
  rw [hsame]
  exact (List.append_nil _).symm

theorem Terminal.call_same (hsame : step t.state call = t.state) :
    t.call runProgram call write = t := by
  simp only [Terminal.call, hsame, events_same hsame, run]

/-- What a callback does to the output, when the queue answers it. -/
theorem TermInv.printing (h : TermInv t) (hlive : t.state.conn.deleteMe = false)
    (hanswers : t.Answers runProgram write call) (hcall : CallWithin call) :
    ∃ segment sent₀ sent₁, Within segment ∧
      Printing (t.answers runProgram segment write sent₀ sent₁) segment t.state
        (step t.state call) ((events t.state call).filter Event.prints) := by
  cases call with
  | read input sent =>
    exact ⟨_, 0, 0, h.kept.segment, printing_other _ _ hlive (Or.inr ⟨input, sent, rfl⟩)⟩
  | timer => exact ⟨_, 0, 0, h.kept.segment, printing_other _ _ hlive (Or.inl rfl)⟩
  | receive segment len env =>
    by_cases hvalid : Valid segment len
    · have hout : ReceiveOutcome env t.state (received segment)
          (step t.state (.receive segment len env)) := by
        rw [step_receive env hlive hvalid]
        exact receiveSegment_outcome env t.state (received segment)
      have hprint := printing_receive hlive hout (step_trace _ _)
      refine ⟨_, env.sent₀, env.sent₁, hcall hvalid, ?_⟩
      rw [← show env = _ from hanswers]
      exact hprint
    · have hsame := step_invalid hvalid t.state env
      rw [events_same hsame, hsame]
      exact ⟨_, 0, 0, h.kept.segment, .nothing rfl hlive⟩
  | output env =>
    have hout : OutputOutcome env t.state (step t.state (.output env)) := by
      unfold step
      rw [if_neg (Bool.eq_false_iff.mp hlive)]
      exact ctcpOutput_outcome env t.state
    refine ⟨_, env.sent₀, env.sent₁, h.kept.segment, ?_⟩
    rw [← show env = _ from hanswers]
    exact printing_output hlive hout (step_trace _ _)

/-- **Every callback keeps the invariant.** -/
theorem TermInv.called (h : TermInv t) (hanswers : t.Answers runProgram write call)
    (hcall : CallWithin call) : TermInv (t.call runProgram call write) := by
  by_cases hdead : t.state.conn.deleteMe = true
  · have hsame : step t.state call = t.state := by
      unfold step
      rw [if_pos hdead]
    rw [Terminal.call_same hsame]
    exact h
  · have hlive : t.state.conn.deleteMe = false := Bool.eq_false_iff.mpr hdead
    obtain ⟨segment, sent₀, sent₁, hwithin, hprint⟩ := h.printing hlive hanswers hcall
    exact h.callback hlive hprint hwithin (keptWithin_step h.kept hcall)

end Called

/-! ## `conn_drain` -/

/-- What is written out before the call of `ctcp_output` is what `connDrain` writes when there is
    nothing to output. -/
theorem writeOut_eq (runProgram : Bool) (t : Terminal) (writes : List WriteResult) :
    let result := (t.writeOut writes).1
    result.state = t.state ∧
      (result.out, result.pollOut) = connDrain runProgram t.out ⟨writes, none⟩ := by
  unfold Terminal.writeOut connDrain
  split
  · exact ⟨rfl, rfl⟩
  · have hnone : ∀ conn pollOut, ctcpOutput runProgram conn pollOut none = (conn, pollOut) :=
      fun _ _ => rfl
    simp only [hnone, ite_self, and_self]

/-- `conn_drain` hands nothing over by itself. -/
theorem connDrain_keeps {conn : OutConn} {chunks : List OutChunk} (h : OutInv conn chunks)
    (runProgram : Bool) (writes : List WriteResult) :
    (connDrain runProgram conn ⟨writes, none⟩).1.handed = conn.handed ∧
      (connDrain runProgram conn ⟨writes, none⟩).1.wroteEof = conn.wroteEof ∧
      (connDrain runProgram conn ⟨writes, none⟩).1.deleteMe = conn.deleteMe := by
  by_cases herr : conn.wroteErr = true
  · rw [connDrain, if_pos herr]
    exact ⟨rfl, rfl, rfl⟩
  · obtain ⟨queue, -, heq⟩ :=
      connDrain_eq h.holds (Bool.eq_false_iff.mpr herr) runProgram ⟨writes, none⟩
    rw [heq]
    split
    · exact ⟨rfl, rfl, rfl⟩
    · exact ⟨rfl, rfl, rfl⟩

theorem TermInv.writeOut {t : Terminal} (h : TermInv t) (writes : List WriteResult) :
    TermInv (t.writeOut writes).1 := by
  obtain ⟨chunks, hqueue⟩ := h.queue
  obtain ⟨hstate, hout⟩ := writeOut_eq false t writes
  obtain ⟨hhanded, heof, hremoved⟩ := connDrain_keeps hqueue false writes
  have hinv := hqueue.connDrain false ⟨writes, none⟩
  have hout' : (t.writeOut writes).1.out = (connDrain false t.out ⟨writes, none⟩).1 :=
    congrArg Prod.fst hout
  rw [← hout'] at hhanded heof hremoved hinv
  refine ⟨hinv, ?_, ?_, ?_, ?_⟩
  · rw [hhanded, hstate]
    exact h.handed
  · rw [heof, hstate]
    exact h.eof
  · rw [hremoved, hstate]
    exact h.removed
  · rw [hstate]
    exact h.kept

/-! ## Runs -/

/-- A segment that arrives in one piece, as `do_loop` passes it on. -/
def Arrives : TermCall → Prop
  | .receive segment len _ _ _ => len = segmentHdrSize + segment.data.length ∧ len < 2 ^ 16
  | _ => True

instance : DecidablePred Arrives
  | .receive segment len _ _ _ => inferInstanceAs (Decidable (_ ∧ _))
  | .read _ _ => isTrue trivial
  | .timer => isTrue trivial
  | .drain _ _ _ => isTrue trivial

theorem termInv_step (runProgram : Bool) (t : Terminal) (l : TermCall) (h : TermInv t)
    (hl : Arrives l) : TermInv (terminalStep runProgram t l) := by
  cases l with
  | read input sent => exact h.called trivial trivial
  | timer => exact h.called trivial trivial
  | receive segment len write sent₀ sent₁ =>
    exact h.called rfl fun hvalid => within_of_valid hvalid hl.1 hl.2
  | drain writes write sent₀ =>
    have hwritten := h.writeOut writes
    simp only [terminalStep]
    split
    · exact hwritten.called rfl trivial
    · exact hwritten

/-- Three bytes arrive, and the file descriptor takes one of them; then two more, which are kept
    waiting. -/
def shortWrites : List TermCall :=
  [.receive (dataSegment 1 1 [7, 8, 9]) 23 (.wrote 1) 20 20,
    .receive (dataSegment 4 1 [10, 11]) 22 (.wrote 5) 20 20, .drain [.wrote 1] .again 20]

end Ctcp.OutQueue
