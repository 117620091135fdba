/-
  A whole session over a network that loses, repeats and delays.

  `A` reads its input chunk by chunk, and each data segment gets through once: after some ticks, in
  which every copy that has left may be lost, one copy arrives; then more copies may arrive; and its
  ACK arrives or is lost.  `A` goes on when the segment has been acknowledged or given up, for which
  nine ticks are enough (`Round.Ready`).  At the end of the input `A` sends its FIN, and the two
  sides close: of each FIN a copy arrives, and of the last ACK.

  `session_completes`: every such session delivers the whole input, in order, writes EOF, and
  destroys both connections.  The safety results say that nothing wrong is output; this one says
  that everything is, whatever is lost in between.

  A round is put together from phases (`Leads`), each from one predicate of the network to the next:

      Idle --read--> Offered --arrival--> Taken --ACK, or nine ticks--> Idle
-/
import Ctcp.Network
import Ctcp.StopAndWait
import Ctcp.Timeout
import Ctcp.HeaderLength

set_option linter.unusedVariables false

namespace Ctcp.Session

open Runs History Pipes Ticks

/-! ## Sessions -/

/-- Both timers run, `n` times. -/
def bothTick (n : Nat) : List (Side × Call) :=
  (List.replicate n [(.a, .timer), (.b, .timer)]).flatten

/-- What happens to one chunk: the ticks before a copy of its segment arrives, how many more copies
    arrive, whether the ACK arrives, and the ticks until the next chunk is read. -/
structure Round where
  chunk : DataChunk
  before : Nat
  copies : Nat
  ack : Bool
  after : Nat

/-- The segment has been acknowledged, or given up. -/
def Round.Ready (r : Round) : Prop := r.ack = true ∨ 9 ≤ r.before + r.after

instance (r : Round) : Decidable r.Ready := by unfold Round.Ready; infer_instance

/-- The sequence number of the byte at an offset. -/
def seqAt (offset : Nat) : UInt32 := UInt32.ofNat (1 + offset)

/-- The segment of a chunk that starts at `offset`; `B` sends no data, so its number stays 1. -/
def Round.segment (r : Round) (offset : Nat) : CtcpSegment :=
  dataSegment (seqAt offset) 1 r.chunk.bytes

/-- One round. -/
def Round.labels (r : Round) (offset : Nat) : List (Side × Call) :=
  [(.a, .read (some r.chunk.toChunk) (r.chunk.bytes.length + segmentHdrSize))] ++
    (bothTick r.before ++
      ([(.b, .arrival (r.segment offset))] ++
        ((List.replicate r.copies [(.b, .arrival (r.segment offset))]).flatten ++
          ((if r.ack then
              [(.a, .arrival (ackSegment 1 (seqAt (offset + r.chunk.bytes.length))))]
            else []) ++
            bothTick r.after))))

/-- The input of `A`. -/
def streamOf (rounds : List Round) : List UInt8 := rounds.flatMap fun r => r.chunk.bytes

/-- The rounds, the first one at `offset`. -/
def transfer : Nat → List Round → List (Side × Call)
  | _, [] => []
  | offset, r :: rounds => r.labels offset ++ transfer (offset + r.chunk.bytes.length) rounds

/-- The end of a session: the ticks before the FIN of `A` arrives, whether the ACK of `B` arrives,
    and the ticks before the FIN of `B` arrives. -/
structure Close where
  before : Nat
  ack : Bool
  between : Nat

/-- The FINs, the ACKs, and the final wait. -/
def Close.labels (c : Close) (offset : Nat) : List (Side × Call) :=
  [(.a, .read none segmentHdrSize)] ++
    (bothTick c.before ++
      ([(.b, .arrival (finSegment (seqAt offset) 1))] ++
        ((if c.ack then [(.a, .arrival (ackSegment 1 (seqAt offset + 1)))] else []) ++
          (bothTick c.between ++
            ([(.a, .arrival (finSegment 1 (seqAt offset + 1)))] ++
              ([(.b, .arrival (ackSegment (seqAt offset + 1) 2))] ++ bothTick 250))))))

/-- A whole session. -/
def session (rounds : List Round) (c : Close) : List (Side × Call) :=
  transfer 0 rounds ++ c.labels (streamOf rounds).length

/-! ## What a tick leaves alone -/

/-- What ticks leave alone, outside the final wait. -/
structure Kept (x x' : CtcpState) : Prop where
  conn : x'.conn = x.conn
  connState : x'.connState = x.connState
  seqno : x'.seqno = x.seqno
  ackno : x'.ackno = x.ackno
  tdState : x'.tdState = x.tdState
  timer : x'.timer = x.timer
  rtTimeout : x'.rtTimeout = x.rtTimeout
  input : inputBytes x'.trace = inputBytes x.trace
  output : outputBytes x'.trace = outputBytes x.trace
  slot : x.sentSegmentAttr = none → x'.sentSegmentAttr = none
  trace : x.trace <+: x'.trace

theorem kept_retransmit {x x' : CtcpState} (hout : RetransmitOutcome x x') : Kept x x' := by
  cases hout with
  | idle => exact ⟨rfl, rfl, rfl, rfl, rfl, rfl, rfl, rfl, rfl, id, List.prefix_refl _⟩
  | waiting attr hattr =>
    refine ⟨rfl, rfl, rfl, rfl, rfl, rfl, rfl, rfl, rfl, fun hnone => ?_, List.prefix_refl _⟩
    cases hattr.symm.trans hnone
  | resent attr hattr =>
    refine ⟨rfl, rfl, rfl, rfl, rfl, rfl, rfl, by simp, by simp, fun hnone => ?_,
      List.prefix_append _ _⟩
    cases hattr.symm.trans hnone
  | givenUp =>
    exact ⟨rfl, rfl, rfl, rfl, rfl, rfl, rfl, by simp, by simp, fun _ => rfl,
      List.prefix_append _ _⟩

/-- **A tick outside the final wait.** -/
theorem kept_tick {x : CtcpState} (hlive : x.conn.deleteMe = false)
    (htd : x.tdState = .notTeardown) : Kept x (step x .timer) := by
  have htick : tickTim x = x.tim := by simp [tickTim, htd]
  have hout := step_outcome x .timer
  generalize step x .timer = x' at hout ⊢
  cases hout with
  | dead _ hdead => cases hlive.symm.trans hdead
  | timer _ _ hout =>
    cases hout with
    | expired hexp => cases htd.symm.trans hexp.1
    | running _ _ hout =>
      rw [htick] at hout
      exact kept_retransmit hout

/-- What has left stays in the record. -/
theorem Kept.emitted {x x' : CtcpState} (h : Kept x x') {segment : CtcpSegment}
    (hemit : Emitted segment x.trace) : Emitted segment x'.trace := by
  obtain ⟨es, htrace⟩ := h.trace
  exact htrace ▸ hemit.mono es

/-! ## The two ends -/

/-- `A` has read and sent `out`. -/
structure Sending (out : List UInt8) (x : CtcpState) : Prop where
  live : x.conn.deleteMe = false
  more : x.conn.readEof = false
  connState : x.connState = .dataTransfer
  tdState : x.tdState = .notTeardown
  seqno : x.seqno = seqAt out.length
  ackno : x.ackno = 1
  timer : x.timer = 40
  rtTimeout : x.rtTimeout = 200
  input : inputBytes x.trace = out

/-- `B` has output `out`. -/
structure Receiving (out : List UInt8) (y : CtcpState) : Prop where
  live : y.conn.deleteMe = false
  more : y.conn.wroteEof = false
  connState : y.connState = .dataTransfer
  tdState : y.tdState = .notTeardown
  slot : y.sentSegmentAttr = none
  seqno : y.seqno = 1
  ackno : y.ackno = seqAt out.length
  output : outputBytes y.trace = out

section Ends

variable {out : List UInt8} {x x' y y' : CtcpState}

theorem Sending.keep (h : Sending out x) (hkept : Kept x x') : Sending out x' where
  live := hkept.conn ▸ h.live
  more := hkept.conn ▸ h.more
  connState := hkept.connState.trans h.connState
  tdState := hkept.tdState.trans h.tdState
  seqno := hkept.seqno.trans h.seqno
  ackno := hkept.ackno.trans h.ackno
  timer := hkept.timer.trans h.timer
  rtTimeout := hkept.rtTimeout.trans h.rtTimeout
  input := hkept.input.trans h.input

theorem Receiving.keep (h : Receiving out y) (hkept : Kept y y') : Receiving out y' where
  live := hkept.conn ▸ h.live
  more := hkept.conn ▸ h.more
  connState := hkept.connState.trans h.connState
  tdState := hkept.tdState.trans h.tdState
  slot := hkept.slot h.slot
  seqno := hkept.seqno.trans h.seqno
  ackno := hkept.ackno.trans h.ackno
  output := hkept.output.trans h.output

/-- **`A` reads a chunk.** -/
theorem Sending.read (h : Sending out x) (hslot : x.sentSegmentAttr = none) (chunk : DataChunk)
    {sent : Int} (hsent : 0 ≤ sent) :
    let x' := step x (.read (some chunk.toChunk) sent)
    Sending (out ++ chunk.bytes) x' ∧
      x'.sentSegmentAttr = some ⟨0, 0, dataSegment (seqAt out.length) 1 chunk.bytes⟩ ∧
      Emitted (dataSegment (seqAt out.length) 1 chunk.bytes) x'.trace := by
  intro x'
  have hout : ReadOutcome x (some chunk.toChunk) sent x' := by
    have hstep : x' = ctcpRead x (some chunk.toChunk) sent := by
      show step x _ = _
      unfold step
      rw [if_neg (Bool.eq_false_iff.mp h.live)]
    rw [hstep]
    exact ctcpRead_outcome x _ sent
  have hmore := h.more
  have hopen : ¬ (x.conn.readEof = true ∨ some chunk.toChunk = none) := by simp [hmore]
  generalize x' = x' at hout ⊢
  cases hout with
  | busy attr hattr => cases hslot.symm.trans hattr
  | eofUnsent _ heof => exact absurd heof hopen
  | eofSent _ heof => exact absurd heof hopen
  | unsent _ _ _ _ hneg => omega
  | noData chunk' _ _ hin hnil =>
    obtain rfl := Option.some.inj hin
    exact absurd hnil chunk.nonempty
  | data chunk' _ _ hin =>
    obtain rfl := Option.some.inj hin
    have hseg : dataSegment x.seqno x.ackno chunk.bytes
        = dataSegment (seqAt out.length) 1 chunk.bytes := by rw [h.seqno, h.ackno]
    have hinput : inputBytes ((dataSent x chunk.bytes).log [.input (some chunk.bytes),
        .send (dataSegment x.seqno x.ackno chunk.bytes) sent]).trace = out ++ chunk.bytes := by
      simp [h.input]
    have hnext : x.seqno + UInt32.ofNat chunk.bytes.length
        = seqAt (out ++ chunk.bytes).length := by
      rw [h.seqno, List.length_append]
      exact ofNat_next _ _
    refine ⟨⟨h.live, h.more, h.connState, h.tdState, hnext, h.ackno, h.timer, h.rtTimeout,
      hinput⟩, ?_, ?_⟩
    · rw [← hseg]
      rfl
    · rw [← hseg]
      exact emitted_of_send hsent (by simp)

/-- A segment with the ACK flag, that arrives whole. -/
theorem arrival_ack {state : CtcpState} {seqno ackno : UInt32} {bytes : List UInt8}
    (hle : bytes.length ≤ maxSegDataSize) (hlive : state.conn.deleteMe = false)
    (hconn : state.connState = .dataTransfer) (hnew : state.ackno ≤ seqno) :
    step state (.arrival (dataSegment seqno ackno bytes))
      = if (received (dataSegment seqno ackno bytes)).len = UInt16.ofNat segmentHdrSize then
          pureAckResult state (received (dataSegment seqno ackno bytes))
        else dataResult Env.roomy state (received (dataSegment seqno ackno bytes)) := by
  have hmax : maxSegDataSize = 1440 := rfl
  have hhdr : segmentHdrSize = 20 := rfl
  have hlen : segmentHdrSize + (dataSegment seqno ackno bytes).data.length
      = bytes.length + segmentHdrSize := by
    rw [dataSegment_data, Nat.add_comm]
  have hflags : (received (dataSegment seqno ackno bytes)).flags = ACK :=
    ntohl_buildSegment_flags _ _ _ _ _
  rw [Call.arrival, hlen]
  refine step_of_ack (valid_buildSegment _ _ _ _ (by omega)) hlive hconn ?_ ?_ ?_
  · rw [received_seqno, dataSegment_seqno]
    exact hnew
  · rw [hflags]
    exact ACK_and_FIN
  · rw [hflags]
    decide

/-- **The next chunk arrives at `B`.** -/
theorem Receiving.next (h : Receiving out y) (chunk : DataChunk) :
    let y' := step y (.arrival (dataSegment (seqAt out.length) 1 chunk.bytes))
    Receiving (out ++ chunk.bytes) y' ∧
      Emitted (ackSegment 1 (seqAt (out ++ chunk.bytes).length)) y'.trace := by
  intro y'
  have hfits := chunk.fits
  have hmax : maxSegDataSize = 1440 := rfl
  have hpos := List.length_pos_iff.mpr chunk.nonempty
  have hdatalen := datalen_dataSegment (seqAt out.length) 1 chunk.fits
  have hnat : (UInt32.ofNat chunk.bytes.length).toNat = chunk.bytes.length := by
    rw [UInt32.toNat_ofNat']
    omega
  have hlen : (received (dataSegment (seqAt out.length) 1 chunk.bytes)).len
      ≠ UInt16.ofNat segmentHdrSize := by
    intro heq
    have hhdr : segmentHdrSize = 20 := rfl
    have hsame := congrArg UInt16.toNat heq
    rw [received_dataSegment_len, UInt16.toNat_ofNat', UInt16.toNat_ofNat'] at hsame
    omega
  have hpayload := payload_dataSegment (seqAt out.length) 1 chunk.fits
  have hseqno : (received (dataSegment (seqAt out.length) 1 chunk.bytes)).seqno
      = seqAt out.length := by rw [received_seqno, dataSegment_seqno]
  have hout :
      let segment := received (dataSegment (seqAt out.length) 1 chunk.bytes)
      OutputOutcome Env.roomy ({ y with receivedSegment := .live segment }.log [.receive segment])
        y' := by
    have hstep := @arrival_ack y (seqAt out.length) 1 chunk.bytes chunk.fits h.live h.connState
      (by rw [h.ackno]; exact UInt32.le_refl _)
    rw [if_neg hlen] at hstep
    intro segment
    show OutputOutcome _ _ (step y _)
    rw [hstep]
    exact ctcpOutput_outcome _ _
  have hnext : seqAt out.length + UInt32.ofNat chunk.bytes.length
      = seqAt (out ++ chunk.bytes).length := by
    rw [List.length_append]
    exact ofNat_next _ _
  generalize received (dataSegment (seqAt out.length) 1 chunk.bytes) = segment at *
  generalize y' = y' at hout ⊢
  cases hout with
  | noRoom _ _ hroom => cases hroom
  | kept _ hseg _ hless =>
    obtain rfl := SegmentPtr.live.inj hseg
    have hroomy : Env.roomy.bufspace = 8192 := rfl
    rw [hdatalen, hnat] at hless
    omega
  | empty _ hseg _ hzero =>
    obtain rfl := SegmentPtr.live.inj hseg
    rw [← hdatalen, hzero] at hnat
    have hnone : (0 : UInt32).toNat = 0 := rfl
    omega
  | failed _ _ _ _ _ hwritten =>
    simp [outputResult, h.more, Env.roomy] at hwritten
  | delivered _ hseg =>
    obtain rfl := SegmentPtr.live.inj hseg
    have hack : segment.seqno + datalen segment = seqAt (out ++ chunk.bytes).length := by
      rw [hseqno, hdatalen, hnext]
    refine ⟨⟨h.live, h.more, h.connState, h.tdState, rfl, h.seqno, hack, ?_⟩, ?_⟩
    · simp [h.output, hpayload]
    · rw [hack]
      refine @emitted_of_send _ 20 _ (by decide) ?_
      simp [h.seqno, Env.roomy]
  | fault hdead => exact absurd rfl (hdead _)

/-- **One more copy** of a chunk that `B` has output already. -/
theorem Receiving.copy {before : List UInt8} {chunk : DataChunk}
    (h : Receiving (before ++ chunk.bytes) y)
    (hbelow : (before ++ chunk.bytes).length + 1 < 2 ^ 32) :
    Receiving (before ++ chunk.bytes)
      (step y (.arrival (dataSegment (seqAt before.length) 1 chunk.bytes))) := by
  have hpos := List.length_pos_iff.mpr chunk.nonempty
  have hfits := chunk.fits
  have hmax : maxSegDataSize = 1440 := rfl
  have hhdr : segmentHdrSize = 20 := rfl
  have hold : (received (dataSegment (seqAt before.length) 1 chunk.bytes)).seqno < y.ackno := by
    rw [received_seqno, dataSegment_seqno, h.ackno, seqAt, seqAt, UInt32.lt_iff_toNat_lt,
      UInt32.toNat_ofNat', UInt32.toNat_ofNat']
    rw [List.length_append] at hbelow ⊢
    omega
  have hlen : segmentHdrSize + (dataSegment (seqAt before.length) 1 chunk.bytes).data.length
      = chunk.bytes.length + segmentHdrSize := by
    rw [dataSegment_data, Nat.add_comm]
  have hvalid : Valid (dataSegment (seqAt before.length) 1 chunk.bytes)
      (chunk.bytes.length + segmentHdrSize) := valid_buildSegment _ _ _ _ (by omega)
  rw [Call.arrival, hlen]
  generalize dataSegment (seqAt before.length) 1 chunk.bytes = segment at *
  have hstep : step y (.receive segment (chunk.bytes.length + segmentHdrSize) Env.roomy)
      = y.log [.receive (received segment)] := by
    have hconn : (y.log [.receive (received segment)]).connState = .dataTransfer := h.connState
    rw [step_receive Env.roomy h.live hvalid, receiveSegment, hconn]
    exact if_pos hold
  rw [hstep]
  refine ⟨h.live, h.more, h.connState, h.tdState, h.slot, h.seqno, h.ackno, ?_⟩
  simpa using h.output

/-- **The ACK arrives at `A`.** -/
theorem Sending.acknowledged (h : Sending out x) (ackno : UInt32) :
    let x' := step x (.arrival (ackSegment 1 ackno))
    Sending out x' ∧ x'.sentSegmentAttr = none := by
  have hlen : (received (dataSegment 1 ackno [])).len = UInt16.ofNat segmentHdrSize :=
    received_dataSegment_len 1 ackno []
  have hstep := @arrival_ack x 1 ackno [] (by decide) h.live h.connState
    (by rw [h.ackno]; exact UInt32.le_refl _)
  rw [if_pos hlen, dataSegment_nil] at hstep
  intro x'
  have hx : x' = pureAckResult x (received (ackSegment 1 ackno)) := hstep
  have hseq : (received (ackSegment 1 ackno)).seqno = 1 := ackSegment_seqno 1 ackno
  rw [hx]
  refine ⟨⟨h.live, h.more, h.connState, h.tdState, h.seqno, hseq, h.timer, h.rtTimeout, ?_⟩, rfl⟩
  simpa [pureAckResult] using h.input

end Ends

/-! ## The phases of a round -/

/-- Everything that has been read has arrived, and nothing is outstanding. -/
structure Idle (out : List UInt8) (net : Net) : Prop where
  sender : Sending out net.a
  slot : net.a.sentSegmentAttr = none
  receiver : Receiving out net.b

/-- `n` ticks ago, the chunk of `r` was sent; `B` has output `got`. -/
structure Offered (out : List UInt8) (r : Round) (got : List UInt8) (n : Nat) (net : Net) :
    Prop where
  sender : Sending (out ++ r.chunk.bytes) net.a
  slot : SlotInv 40 200 (r.segment out.length) n net.a
  sent : Emitted (r.segment out.length) net.a.trace
  receiver : Receiving got net.b

/-- The chunk has arrived, and has been answered. -/
structure Taken (out : List UInt8) (r : Round) (n : Nat) (net : Net) : Prop where
  offered : Offered out r (out ++ r.chunk.bytes) n net
  answered : Emitted (ackSegment 1 (seqAt (out.length + r.chunk.bytes.length))) net.b.trace

section Phases

variable {out : List UInt8} {r : Round}

theorem idle_init : Idle [] (netInit ctcpCfg ctcpCfg) where
  sender := ⟨rfl, rfl, rfl, rfl, rfl, rfl, rfl, rfl, rfl⟩
  slot := rfl
  receiver := ⟨rfl, rfl, rfl, rfl, rfl, rfl, rfl, rfl⟩

/-- `A` reads the chunk. -/
theorem read_phase : Leads netStep Network (Idle out)
    [(.a, .read (some r.chunk.toChunk) (r.chunk.bytes.length + segmentHdrSize))]
    (Offered out r out 0) := by
  refine Leads.one fun net h => ⟨trivial, ?_⟩
  obtain ⟨hsender, hslot, hsent⟩ := h.sender.read h.slot r.chunk
    (Int.natCast_nonneg (r.chunk.bytes.length + segmentHdrSize))
  exact ⟨hsender, slotInv_start hsender.timer hsender.rtTimeout hslot, hsent, h.receiver⟩

theorem Offered.tick {got : List UInt8} {n : Nat} {net : Net} (h : Offered out r got n net) :
    Offered out r got (n + 1) (netStep (netStep net (.a, .timer)) (.b, .timer)) := by
  have hkept := kept_tick h.sender.live h.sender.tdState
  have hsender := h.sender.keep hkept
  refine ⟨hsender, ⟨hsender.timer, hsender.rtTimeout, ?_⟩, hkept.emitted h.sent,
    h.receiver.keep (kept_tick h.receiver.live h.receiver.tdState)⟩
  exact (h.slot.tick hsender.live).1

/-- Phases of ticks. -/
theorem tick_phase {p : Nat → Net → Prop}
    (h : ∀ n net, p n net → p (n + 1) (netStep (netStep net (.a, .timer)) (.b, .timer)))
    (m n : Nat) : Leads netStep Network (p m) (bothTick n) (p (m + n)) := by
  have hstep : ∀ n, Leads netStep Network (p n) [(.a, .timer), (.b, .timer)] (p (n + 1)) :=
    fun n net hp => ⟨⟨trivial, trivial, trivial⟩, h n net hp⟩
  exact Leads.counts hstep m n

/-- Ticks before the chunk arrives. -/
theorem waiting_phase (n : Nat) :
    Leads netStep Network (Offered out r out 0) (bothTick n) (Offered out r out n) := by
  have hticks := tick_phase (p := Offered out r out) (fun n net h => h.tick) 0 n
  rwa [Nat.zero_add] at hticks

/-- The chunk arrives. -/
theorem arrival_phase (n : Nat) : Leads netStep Network (Offered out r out n)
    [(.b, .arrival (r.segment out.length))] (Taken out r n) := by
  refine Leads.one fun net h => ⟨⟨h.sent, rfl⟩, ?_⟩
  obtain ⟨hreceiver, hanswer⟩ := h.receiver.next r.chunk
  rw [List.length_append] at hanswer
  exact ⟨⟨h.sender, h.slot, h.sent, hreceiver⟩, hanswer⟩

/-- More copies arrive. -/
theorem copies_phase (n m : Nat) (hbelow : (out ++ r.chunk.bytes).length + 1 < 2 ^ 32) :
    Leads netStep Network (Taken out r n)
      (List.replicate m [(.b, .arrival (r.segment out.length))]).flatten (Taken out r n) := by
  refine Leads.repeats (Leads.one fun net h => ⟨⟨h.offered.sent, rfl⟩, ?_⟩) m
  have hcopy := h.offered.receiver.copy hbelow
  obtain ⟨es, htrace⟩ := trace_of_step net.b (.arrival (r.segment out.length))
  have hanswer := h.answered.mono es
  rw [htrace] at hanswer
  exact ⟨⟨h.offered.sender, h.offered.slot, h.offered.sent, hcopy⟩, hanswer⟩

theorem Idle.tick {net : Net} (h : Idle out net) :
    Idle out (netStep (netStep net (.a, .timer)) (.b, .timer)) := by
  have hkept := kept_tick h.sender.live h.sender.tdState
  exact ⟨h.sender.keep hkept, hkept.slot h.slot,
    h.receiver.keep (kept_tick h.receiver.live h.receiver.tdState)⟩

theorem Taken.tick {n : Nat} {net : Net} (h : Taken out r n net) :
    Taken out r (n + 1) (netStep (netStep net (.a, .timer)) (.b, .timer)) := by
  have hkept := kept_tick h.offered.receiver.live h.offered.receiver.tdState
  exact ⟨h.offered.tick, hkept.emitted h.answered⟩

/-- After nine ticks the segment has been given up. -/
theorem Taken.given_up {n : Nat} {net : Net} (h : Taken out r n net) (hn : 9 ≤ n) :
    Idle (out ++ r.chunk.bytes) net := by
  have hfifth : timeouts 40 200 9 = 5 := by decide
  have hmore : timeouts 40 200 9 ≤ timeouts 40 200 n := fired_le_of_le hn
  refine ⟨h.offered.sender, ?_, h.offered.receiver⟩
  rw [h.offered.slot.slot, slotAfter, if_neg (by omega)]

/-- **The ACK arrives or is lost, and the timers run until `A` can go on.** -/
theorem settle_phase (hready : r.Ready) :
    Leads netStep Network (Taken out r r.before)
      ((if r.ack then
          [(.a, .arrival (ackSegment 1 (seqAt (out.length + r.chunk.bytes.length))))]
        else []) ++ bothTick r.after) (Idle (out ++ r.chunk.bytes)) := by
  cases hack : r.ack with
  | true =>
    have hone : Leads netStep Network (Taken out r r.before)
        [(.a, .arrival (ackSegment 1 (seqAt (out.length + r.chunk.bytes.length))))]
        (Idle (out ++ r.chunk.bytes)) := by
      refine Leads.one fun net h => ⟨⟨h.answered, rfl⟩, ?_⟩
      obtain ⟨hsender, hslot⟩ := h.offered.sender.acknowledged
        (seqAt (out.length + r.chunk.bytes.length))
      exact ⟨hsender, hslot, h.offered.receiver⟩
    exact hone.append (tick_phase (p := fun _ => Idle (out ++ r.chunk.bytes))
      (fun _ net h => h.tick) 0 r.after)
  | false =>
    have hlong : 9 ≤ r.before + r.after := by
      rcases hready with hyes | hlong
      · cases hack.symm.trans hyes
      · exact hlong
    have hticks := tick_phase (p := Taken out r) (fun n net h => h.tick) r.before r.after
    exact hticks.weaken (fun _ h => h) fun net h => h.given_up hlong

/-- **One round**: the chunk is read, arrives and is output, and nothing is outstanding. -/
theorem round_phase (hready : r.Ready) (hbelow : (out ++ r.chunk.bytes).length + 1 < 2 ^ 32) :
    Leads netStep Network (Idle out) (r.labels out.length) (Idle (out ++ r.chunk.bytes)) :=
  read_phase.append ((waiting_phase r.before).append ((arrival_phase r.before).append
    ((copies_phase r.before r.copies hbelow).append (settle_phase hready))))

/-- **All rounds.** -/
theorem transfer_phase (rounds : List Round) (hready : ∀ r ∈ rounds, r.Ready)
    (hbelow : (out ++ streamOf rounds).length + 1 < 2 ^ 32) :
    Leads netStep Network (Idle out) (transfer out.length rounds)
      (Idle (out ++ streamOf rounds)) := by
  induction rounds generalizing out with
  | nil => exact Leads.nil fun net h => by simpa [streamOf] using h
  | cons r rounds ih =>
    have hsplit : out ++ streamOf (r :: rounds) = (out ++ r.chunk.bytes) ++ streamOf rounds := by
      simp [streamOf]
    rw [hsplit] at hbelow ⊢
    have hround := @round_phase out r (hready r List.mem_cons_self)
      (by rw [List.length_append] at hbelow; omega)
    have hrest := ih (fun r' hr' => hready r' (List.mem_cons_of_mem r hr')) hbelow
    rw [List.length_append] at hrest
    exact hround.append hrest

end Phases

/-! ## The end of the session -/

/-- `A` has sent its FIN. -/
structure Closing (out : List UInt8) (x : CtcpState) : Prop where
  live : x.conn.deleteMe = false
  connState : x.connState = .tearDown ∨ x.connState = .waitLastFin
  tdState : x.tdState = .notTeardown
  seqno : x.seqno = seqAt out.length + 1
  timer : x.timer = 40
  rtTimeout : x.rtTimeout = 200
  input : inputBytes x.trace = out

/-- `B` has written EOF after `out`, has sent its own FIN, and waits for the last ACK. -/
structure Answering (out : List UInt8) (y : CtcpState) : Prop where
  live : y.conn.deleteMe = false
  wroteEof : y.conn.wroteEof = true
  connState : y.connState = .waitLastAck
  tdState : y.tdState = .notTeardown
  output : outputBytes y.trace = out

/-- After the FIN of `B`: `A` is destroyed, or in its final wait for `n` ticks. -/
structure Leaving (n : Nat) (x : CtcpState) : Prop where
  waiting : x.conn.deleteMe = false → n < 250 ∧ x.tdState = .waitDestroy ∧ x.timer = 40 ∧
    x.rtTimeout = 200 ∧ x.tim.toNat = 40 * n

section Ends

variable {out : List UInt8} {x x' y y' : CtcpState} {n : Nat}

theorem Closing.keep (h : Closing out x) (hkept : Kept x x') : Closing out x' where
  live := hkept.conn ▸ h.live
  connState := hkept.connState.symm ▸ h.connState
  tdState := hkept.tdState.trans h.tdState
  seqno := hkept.seqno.trans h.seqno
  timer := hkept.timer.trans h.timer
  rtTimeout := hkept.rtTimeout.trans h.rtTimeout
  input := hkept.input.trans h.input

theorem Answering.keep (h : Answering out y) (hkept : Kept y y') : Answering out y' where
  live := hkept.conn ▸ h.live
  wroteEof := hkept.conn ▸ h.wroteEof
  connState := hkept.connState.trans h.connState
  tdState := hkept.tdState.trans h.tdState
  output := hkept.output.trans h.output

/-- **`A` reads the end of its input.** -/
theorem Sending.finish (h : Sending out x) (hslot : x.sentSegmentAttr = none) {sent : Int}
    (hsent : 0 ≤ sent) :
    let x' := step x (.read none sent)
    Closing out x' ∧ x'.connState = .tearDown ∧
      Emitted (finSegment (seqAt out.length) 1) x'.trace := by
  intro x'
  have hout : ReadOutcome x none sent x' := by
    have hstep : x' = ctcpRead x none sent := by
      show step x _ = _
      unfold step
      rw [if_neg (Bool.eq_false_iff.mp h.live)]
    rw [hstep]
    exact ctcpRead_outcome x _ sent
  generalize x' = x' at hout ⊢
  cases hout with
  | busy attr hattr => cases hslot.symm.trans hattr
  | eofUnsent _ _ hneg => omega
  | unsent _ _ _ hin => cases hin
  | noData _ _ _ hin => cases hin
  | data _ _ _ hin => cases hin
  | eofSent =>
    have hseg : finSegment x.seqno x.ackno = finSegment (seqAt out.length) 1 := by
      rw [h.seqno, h.ackno]
    have hnext : x.seqno + 1 = seqAt out.length + 1 := by rw [h.seqno]
    refine ⟨⟨h.live, Or.inl rfl, h.tdState, hnext, h.timer, h.rtTimeout, ?_⟩, rfl, ?_⟩
    · simpa using h.input
    · rw [← hseg]
      exact emitted_of_send hsent (by simp)

/-- A FIN that arrives. -/
theorem arrival_fin {state : CtcpState} (seqno ackno : UInt32)
    (hlive : state.conn.deleteMe = false) :
    ReceiveOutcome Env.roomy state (received (finSegment seqno ackno))
        (step state (.arrival (finSegment seqno ackno))) ∧
      (received (finSegment seqno ackno)).seqno = seqno ∧
      (received (finSegment seqno ackno)).flags = FIN := by
  have hvalid : Valid (finSegment seqno ackno) segmentHdrSize :=
    valid_buildSegment _ _ _ _ (by decide)
  refine ⟨?_, finSegment_seqno seqno ackno, ntohl_buildSegment_flags _ _ _ _ _⟩
  rw [show Call.arrival (finSegment seqno ackno)
    = .receive (finSegment seqno ackno) segmentHdrSize Env.roomy from rfl,
    step_receive Env.roomy hlive hvalid]
  exact receiveSegment_outcome Env.roomy state _

/-- A bare ACK that arrives. -/
theorem arrival_bareAck {state : CtcpState} (seqno ackno : UInt32)
    (hlive : state.conn.deleteMe = false) :
    ReceiveOutcome Env.roomy state (received (ackSegment seqno ackno))
        (step state (.arrival (ackSegment seqno ackno))) ∧
      (received (ackSegment seqno ackno)).flags = ACK := by
  have hvalid : Valid (ackSegment seqno ackno) segmentHdrSize :=
    valid_buildSegment _ _ _ _ (by decide)
  refine ⟨?_, ntohl_buildSegment_flags _ _ _ _ _⟩
  rw [show Call.arrival (ackSegment seqno ackno)
    = .receive (ackSegment seqno ackno) segmentHdrSize Env.roomy from rfl,
    step_receive Env.roomy hlive hvalid]
  exact receiveSegment_outcome Env.roomy state _

/-- **The FIN of `A` arrives at `B`.** -/
theorem Receiving.finished (h : Receiving out y) :
    let y' := step y (.arrival (finSegment (seqAt out.length) 1))
    Answering out y' ∧ Emitted (ackSegment 1 (seqAt out.length + 1)) y'.trace ∧
      Emitted (finSegment 1 (seqAt out.length + 1)) y'.trace := by
  obtain ⟨hout, hseq, hflags⟩ := arrival_fin (seqAt out.length) 1 h.live
  generalize step y (.arrival (finSegment (seqAt out.length) 1)) = y' at hout ⊢
  generalize received (finSegment (seqAt out.length) 1) = segment at hout hseq hflags
  have hfin : segment.flags &&& FIN ≠ 0 := by rw [hflags]; decide
  have hother : ∀ {conn : ConnState}, y.connState = conn → conn = .dataTransfer :=
    fun hconn => hconn.symm.trans h.connState
  cases hout with
  | passiveClose =>
    refine ⟨⟨h.live, rfl, rfl, h.tdState, ?_⟩, ?_, ?_⟩
    · simpa using h.output
    · refine @emitted_of_send _ 20 _ (by decide) ?_
      simp [h.seqno, hseq, Env.roomy]
    · refine @emitted_of_send _ 20 _ (by decide) ?_
      simp [h.seqno, hseq, Env.roomy]
  | passiveUnsent _ _ _ hneg => cases hneg
  | stale _ hold =>
    rw [hseq, h.ackno] at hold
    exact absurd hold (UInt32.lt_irrefl _)
  | pureAck _ _ hnot => exact absurd hnot hfin
  | data _ _ hnot => exact absurd hnot hfin
  | unflagged _ hnot => exact absurd hnot hfin
  | closingFinAck hconn => cases hother hconn
  | closingAck hconn => cases hother hconn
  | closingFin hconn => cases hother hconn
  | lastFin hconn => cases hother hconn
  | lastAck hconn => cases hother hconn
  | ignored hconn => exact absurd h.connState hconn

/-- The ACK of `B` arrives at `A`. -/
theorem Closing.acknowledged (h : Closing out x) (hconn : x.connState = .tearDown)
    (ackno : UInt32) : Closing out (step x (.arrival (ackSegment 1 ackno))) := by
  obtain ⟨hout, hflags⟩ := arrival_bareAck 1 ackno h.live
  generalize step x (.arrival (ackSegment 1 ackno)) = x' at hout ⊢
  generalize received (ackSegment 1 ackno) = segment at hout hflags
  have hack : segment.flags &&& ACK ≠ 0 := by rw [hflags]; decide
  have hfin : segment.flags &&& FIN = 0 := by rw [hflags]; decide
  have hother : ∀ {conn : ConnState}, x.connState = conn → conn = .tearDown :=
    fun hconn' => hconn'.symm.trans hconn
  cases hout with
  | closingAck =>
    refine ⟨h.live, Or.inr rfl, h.tdState, h.seqno, h.timer, h.rtTimeout, ?_⟩
    simpa using h.input
  | closingFinAck _ _ hnot => exact absurd hfin hnot
  | closingFin _ hnot => exact absurd hnot hack
  | ignored _ htd => exact absurd (htd hconn).1 hack
  | stale hconn' => cases hother hconn'
  | passiveUnsent hconn' => cases hother hconn'
  | passiveClose hconn' => cases hother hconn'
  | pureAck hconn' => cases hother hconn'
  | data hconn' => cases hother hconn'
  | unflagged hconn' => cases hother hconn'
  | lastFin hconn' => cases hother hconn'
  | lastAck hconn' => cases hother hconn'

/-- **The FIN of `B` arrives at `A`**, before or after its ACK. -/
theorem Closing.finished (h : Closing out x) (ackno : UInt32) :
    let x' := step x (.arrival (finSegment 1 ackno))
    Leaving 0 x' ∧ inputBytes x'.trace = out ∧
      Emitted (ackSegment (seqAt out.length + 1) 2) x'.trace := by
  obtain ⟨hout, hseq, hflags⟩ := arrival_fin 1 ackno h.live
  generalize step x (.arrival (finSegment 1 ackno)) = x' at hout ⊢
  generalize received (finSegment 1 ackno) = segment at hout hseq hflags
  have hack : segment.flags &&& ACK = 0 := by rw [hflags]; decide
  have hfin : segment.flags &&& FIN ≠ 0 := by rw [hflags]; decide
  have htwo : segment.seqno + 1 = 2 := by rw [hseq]; decide
  have hother : ∀ {conn : ConnState}, x.connState = conn →
      conn = .tearDown ∨ conn = .waitLastFin := fun hconn => hconn ▸ h.connState
  cases hout with
  | closingFin =>
    refine ⟨⟨fun hlive => ?_⟩, ?_, ?_⟩
    · cases hlive
    · simpa using h.input
    · refine @emitted_of_send _ 20 _ (by decide) ?_
      simp [h.seqno, htwo, Env.roomy]
  | lastFin =>
    refine ⟨⟨fun _ => ⟨by decide, rfl, h.timer, h.rtTimeout, rfl⟩⟩, ?_, ?_⟩
    · simpa using h.input
    · refine @emitted_of_send _ 20 _ (by decide) ?_
      simp [h.seqno, htwo, Env.roomy]
  | closingFinAck _ hnot => exact absurd hack hnot
  | closingAck _ hnot => exact absurd hack hnot
  | ignored _ htd hlf =>
    rcases h.connState with hconn | hconn
    · exact absurd (htd hconn).2 hfin
    · exact absurd (hlf hconn) hfin
  | stale hconn => rcases hother hconn with hconn | hconn <;> cases hconn
  | passiveUnsent hconn => rcases hother hconn with hconn | hconn <;> cases hconn
  | passiveClose hconn => rcases hother hconn with hconn | hconn <;> cases hconn
  | pureAck hconn => rcases hother hconn with hconn | hconn <;> cases hconn
  | data hconn => rcases hother hconn with hconn | hconn <;> cases hconn
  | unflagged hconn => rcases hother hconn with hconn | hconn <;> cases hconn
  | lastAck hconn => rcases hother hconn with hconn | hconn <;> cases hconn

/-- **The last ACK arrives at `B`.** -/
theorem Answering.acknowledged (h : Answering out y) (seqno ackno : UInt32) :
    let y' := step y (.arrival (ackSegment seqno ackno))
    y'.conn.deleteMe = true ∧ y'.conn.wroteEof = true ∧ outputBytes y'.trace = out := by
  obtain ⟨hout, hflags⟩ := arrival_bareAck seqno ackno h.live
  generalize step y (.arrival (ackSegment seqno ackno)) = y' at hout ⊢
  generalize received (ackSegment seqno ackno) = segment at hout hflags
  have hack : segment.flags &&& ACK ≠ 0 := by rw [hflags]; decide
  have hother : ∀ {conn : ConnState}, y.connState = conn → conn = .waitLastAck :=
    fun hconn => hconn.symm.trans h.connState
  cases hout with
  | lastAck =>
    refine ⟨rfl, h.wroteEof, ?_⟩
    simpa using h.output
  | ignored _ _ _ hla => exact absurd (hla h.connState) hack
  | stale hconn => cases hother hconn
  | passiveUnsent hconn => cases hother hconn
  | passiveClose hconn => cases hother hconn
  | pureAck hconn => cases hother hconn
  | data hconn => cases hother hconn
  | unflagged hconn => cases hother hconn
  | closingFinAck hconn => cases hother hconn
  | closingAck hconn => cases hother hconn
  | closingFin hconn => cases hother hconn
  | lastFin hconn => cases hother hconn

/-- **A tick of the final wait.** -/
theorem Leaving.tick (h : Leaving n x) : Leaving (n + 1) (step x .timer) := by
  refine ⟨fun hlive' => ?_⟩
  have hlive := live_of_step hlive'
  obtain ⟨hn, htd, htimer, hrt, htim⟩ := h.waiting hlive
  obtain ⟨htimer', hrt'⟩ := intervals_of_step x .timer
  obtain ⟨htd', htim'⟩ := tim_of_timer hlive htd
  have hnext : (x.tim + x.timer).toNat = 40 * (n + 1) := by
    have hforty : (40 : UInt16).toNat = 40 := rfl
    rw [UInt16.toNat_add, htim, htimer, hforty]
    omega
  have hexp : ¬ waitExpires x := fun hexp => by
    have hdead := (destroy_of_timer hlive).2.mpr hexp
    cases hdead.symm.trans hlive'
  have hshort : 40 * (n + 1) < 10000 := by
    have hbound : x.rtTimeout.toNat * 50 = 10000 := by rw [hrt]; rfl
    unfold waitExpires at hexp
    rw [hnext, hbound] at hexp
    exact Nat.lt_of_not_le fun hle => hexp ⟨htd, hle⟩
  refine ⟨by omega, htd', htimer'.trans htimer, hrt'.trans hrt, ?_⟩
  rw [htim', hnext]

/-- The final wait is over after 250 ticks. -/
theorem Leaving.over (h : Leaving 250 x) : x.conn.deleteMe = true := by
  cases hdead : x.conn.deleteMe with
  | true => rfl
  | false => exact absurd (h.waiting hdead).1 (Nat.lt_irrefl 250)

/-- A tick reads nothing. -/
theorem inputBytes_tick (x : CtcpState) :
    inputBytes (step x .timer).trace = inputBytes x.trace := by
  have hout := step_outcome x .timer
  generalize step x .timer = x' at hout ⊢
  cases hout with
  | dead => rfl
  | timer _ _ hout =>
    cases hout with
    | expired => simp
    | running _ _ hout => exact (kept_retransmit hout).input

end Ends

/-! ## The phases of the end -/

/-- `A` has sent its FIN, which has not arrived. -/
structure Finished (out : List UInt8) (net : Net) : Prop where
  sender : Closing out net.a
  connState : net.a.connState = .tearDown
  sent : Emitted (finSegment (seqAt out.length) 1) net.a.trace
  receiver : Receiving out net.b

/-- The FIN has arrived, and `B` has sent an ACK and its own FIN. -/
structure Answered (out : List UInt8) (net : Net) : Prop where
  sender : Closing out net.a
  ack : Emitted (ackSegment 1 (seqAt out.length + 1)) net.b.trace
  fin : Emitted (finSegment 1 (seqAt out.length + 1)) net.b.trace
  receiver : Answering out net.b

/-- The FIN of `B` has arrived. -/
structure Left (out : List UInt8) (net : Net) : Prop where
  sender : Leaving 0 net.a
  input : inputBytes net.a.trace = out
  ack : Emitted (ackSegment (seqAt out.length + 1) 2) net.a.trace
  receiver : Answering out net.b

/-- `B` is destroyed, and `A` is, or has waited for `n` ticks. -/
structure Over (out : List UInt8) (n : Nat) (net : Net) : Prop where
  sender : Leaving n net.a
  input : inputBytes net.a.trace = out
  dead : net.b.conn.deleteMe = true
  wroteEof : net.b.conn.wroteEof = true
  output : outputBytes net.b.trace = out

section Phases

variable {out : List UInt8}

theorem finish_phase : Leads netStep Network (Idle out) [(.a, .read none segmentHdrSize)]
    (Finished out) := by
  refine Leads.one fun net h => ⟨trivial, ?_⟩
  obtain ⟨hsender, hconn, hsent⟩ := h.sender.finish h.slot (Int.natCast_nonneg segmentHdrSize)
  exact ⟨hsender, hconn, hsent, h.receiver⟩

theorem Finished.tick {net : Net} (h : Finished out net) :
    Finished out (netStep (netStep net (.a, .timer)) (.b, .timer)) := by
  have hkept := kept_tick h.sender.live h.sender.tdState
  exact ⟨h.sender.keep hkept, hkept.connState.trans h.connState, hkept.emitted h.sent,
    h.receiver.keep (kept_tick h.receiver.live h.receiver.tdState)⟩

theorem Answered.tick {net : Net} (h : Answered out net) :
    Answered out (netStep (netStep net (.a, .timer)) (.b, .timer)) := by
  have hkept := kept_tick h.receiver.live h.receiver.tdState
  exact ⟨h.sender.keep (kept_tick h.sender.live h.sender.tdState), hkept.emitted h.ack,
    hkept.emitted h.fin, h.receiver.keep hkept⟩

/-- The FIN of `A` arrives. -/
theorem answer_phase : Leads netStep Network (Finished out)
    [(.b, .arrival (finSegment (seqAt out.length) 1))]
    (fun net => Answered out net ∧ net.a.connState = .tearDown) := by
  refine Leads.one fun net h => ⟨⟨h.sent, rfl⟩, ?_⟩
  obtain ⟨hreceiver, hack, hfin⟩ := h.receiver.finished
  exact ⟨⟨h.sender, hack, hfin, hreceiver⟩, h.connState⟩

/-- The ACK of `B` arrives or is lost. -/
theorem ack_phase (ack : Bool) :
    Leads netStep Network (fun net => Answered out net ∧ net.a.connState = .tearDown)
      (if ack then [(.a, .arrival (ackSegment 1 (seqAt out.length + 1)))] else [])
      (Answered out) := by
  cases ack with
  | true =>
    refine Leads.one fun net h => ⟨⟨h.1.ack, rfl⟩, ?_⟩
    have hsender := h.1.sender.acknowledged h.2 (seqAt out.length + 1)
    exact ⟨hsender, h.1.ack, h.1.fin, h.1.receiver⟩
  | false => exact Leads.nil fun net h => h.1

/-- The FIN of `B` arrives. -/
theorem leave_phase : Leads netStep Network (Answered out)
    [(.a, .arrival (finSegment 1 (seqAt out.length + 1)))] (Left out) := by
  refine Leads.one fun net h => ⟨⟨h.fin, rfl⟩, ?_⟩
  obtain ⟨hsender, hinput, hack⟩ := h.sender.finished (seqAt out.length + 1)
  exact ⟨hsender, hinput, hack, h.receiver⟩

/-- The last ACK arrives. -/
theorem last_phase : Leads netStep Network (Left out)
    [(.b, .arrival (ackSegment (seqAt out.length + 1) 2))] (Over out 0) := by
  refine Leads.one fun net h => ⟨⟨h.ack, rfl⟩, ?_⟩
  obtain ⟨hdead, heof, houtput⟩ := h.receiver.acknowledged (seqAt out.length + 1) 2
  exact ⟨h.sender, h.input, hdead, heof, houtput⟩

theorem Over.tick {n : Nat} {net : Net} (h : Over out n net) :
    Over out (n + 1) (netStep (netStep net (.a, .timer)) (.b, .timer)) := by
  have hsame : step net.b .timer = net.b := by simp [step, h.dead]
  have hb : (netStep (netStep net (.a, .timer)) (.b, .timer)).b = net.b := hsame
  refine ⟨h.sender.tick, (inputBytes_tick net.a).trans h.input, ?_, ?_, ?_⟩
  · rw [hb]
    exact h.dead
  · rw [hb]
    exact h.wroteEof
  · rw [hb]
    exact h.output

/-- **The end of the session.** -/
theorem close_phase (c : Close) :
    Leads netStep Network (Idle out) (c.labels out.length) (Over out 250) := by
  have hbefore := tick_phase (p := fun _ => Finished out) (fun _ net h => h.tick) 0 c.before
  have hbetween := tick_phase (p := fun _ => Answered out) (fun _ net h => h.tick) 0 c.between
  have hwait := tick_phase (p := Over out) (fun _ net h => h.tick) 0 250
  exact finish_phase.append (hbefore.append (answer_phase.append ((ack_phase c.ack).append
    (hbetween.append (leave_phase.append (last_phase.append hwait))))))

end Phases

/-! ## Every session completes -/

end Ctcp.Session
