/-
  Duplicates of a stop-and-wait sender, at any length of the stream.

  The sender cuts its stream into segments of 1 to 1440 bytes and sends the next one when the last
  one has been acknowledged; until the next one is delivered, the last one may arrive again.  The
  receiver tells the two apart by `seqno < ackno`, on 32-bit numbers.  After the segment `i` has
  been delivered, `ackno` is its end modulo 2^32, so a duplicate of it is recognised exactly when
  its end lies below 2^32 (`duplicate_stale`).  In every 4 GiB one segment ends at 2^32 or
  beyond, and the duplicates of that one are output again.

  The stream is a function on indices.  What comes after the end of a finite stream never arrives.
-/
import Ctcp.Stream

set_option linter.unusedVariables false

namespace Ctcp

open Runs History

/-! ## The sender -/

/-- The bytes of one data segment. -/
structure DataChunk extends Chunk where
  nonempty : bytes ≠ []

variable (stream : Nat → DataChunk)

/-- The number of bytes before the segment `i`. -/
def offset : Nat → Nat
  | 0 => 0
  | i + 1 => offset i + (stream i).bytes.length

/-- The sequence number of the segment `i`. -/
def startSeq (i : Nat) : UInt32 := UInt32.ofNat (1 + offset stream i)

theorem startSeq_succ (i : Nat) :
    startSeq stream (i + 1) = startSeq stream i + UInt32.ofNat (stream i).bytes.length := by
  rw [startSeq, startSeq, ofNat_next]
  rfl

/-- The segment `index` arrives; its `ackno` and the answers of the library are arbitrary. -/
structure Arrival where
  index : Nat
  ackno : UInt32
  env : Env
  deriving DecidableEq, Repr

/-- The segment that arrives. -/
def Arrival.segment (a : Arrival) : CtcpSegment :=
  dataSegment (startSeq stream a.index) a.ackno (stream a.index).bytes

/-- `ctcp_receive` of it. -/
def Arrival.call (a : Arrival) : Call :=
  .receive (a.segment stream) ((stream a.index).bytes.length + segmentHdrSize) a.env

/-- The output buffer has room for the segment. -/
def Arrival.Room (a : Arrival) : Prop := (stream a.index).bytes.length ≤ a.env.bufspace

/-! ## The receiver -/

/-- The receiver, with the segments it has passed to `conn_output` and the index of the next one. -/
structure Receiver where
  state : CtcpState
  next : Nat
  passed : List Nat

/-- `ctcp_receive` passes the payload of the segment to `conn_output`. -/
def Passes (state : CtcpState) (a : Arrival) : Prop :=
  outputBytes (events state (a.call stream)) = (stream a.index).bytes

instance (state : CtcpState) (a : Arrival) : Decidable (Passes stream state a) := by
  unfold Passes; infer_instance

/-- One arrival. -/
def arrive (r : Receiver) (a : Arrival) : Receiver where
  state := step r.state (a.call stream)
  next := if Passes stream r.state a ∧ a.index = r.next then r.next + 1 else r.next
  passed := if Passes stream r.state a then r.passed ++ [a.index] else r.passed

/-- A receiver that has just been initialised. -/
def Receiver.init (cfg : CtcpConfig) : Receiver := ⟨ctcpInit cfg, 0, []⟩

/-- **Stop and wait**: the next segment arrives, or the one before it arrives again. -/
def InTurn (r : Receiver) (a : Arrival) : Prop := a.index = r.next ∨ a.index + 1 = r.next

/-- **Each segment is output at most once, and the next one is accepted** when there is room. -/
def DeliversOnce (r : Receiver) (a : Arrival) : Prop :=
  (arrive stream r a).passed.Nodup ∧
    (r.state.conn.deleteMe = false → a.index = r.next → a.Room stream → Passes stream r.state a)

/-- The segment `i` ends at or beyond 2^32. -/
def Straddles (i : Nat) : Prop :=
  2 ^ 32 ≤ (startSeq stream i).toNat + (stream i).bytes.length

/-- No segment that reaches 2^32 arrives again while there is room for it. -/
def NoStraddling (r : Receiver) (a : Arrival) : Prop :=
  r.state.conn.deleteMe = false → a.index + 1 = r.next → a.Room stream → ¬ Straddles stream a.index

/-! ## Sequence numbers -/

/-- **When a duplicate is recognised.** -/
theorem duplicate_stale (i : Nat) :
    startSeq stream i < startSeq stream (i + 1) ↔ ¬ Straddles stream i := by
  have hpos : 0 < (stream i).bytes.length := List.length_pos_iff.mpr (stream i).nonempty
  have hfits := (stream i).fits
  have hsize : maxSegDataSize = 1440 := rfl
  have hlt := (startSeq stream i).toNat_lt
  rw [startSeq_succ, UInt32.lt_iff_toNat_lt, UInt32.toNat_add, UInt32.toNat_ofNat', Straddles]
  omega

/-! ## One arrival -/

/-- A live receiver expects the segment `next`. -/
structure Sync (next : Nat) (state : CtcpState) : Prop where
  conn : state.connState = .dataTransfer
  open' : state.conn.wroteEof = false
  ackno : state.ackno = startSeq stream next

theorem Arrival.valid (a : Arrival) :
    Valid (a.segment stream) ((stream a.index).bytes.length + segmentHdrSize) := by
  have hfits := (stream a.index).fits
  have hsize : maxSegDataSize = 1440 := rfl
  have hhdr : segmentHdrSize = 20 := rfl
  exact valid_buildSegment _ _ _ _ (by omega)

/-- Data segments announce the length of their chunk. -/
theorem Arrival.datalen (a : Arrival) :
    Ctcp.datalen (received (a.segment stream)) = UInt32.ofNat (stream a.index).bytes.length :=
  datalen_dataSegment _ _ (stream a.index).fits

theorem Arrival.toNat_datalen (a : Arrival) :
    (Ctcp.datalen (received (a.segment stream))).toNat = (stream a.index).bytes.length := by
  have hfits := (stream a.index).fits
  have hsize : maxSegDataSize = 1440 := rfl
  rw [a.datalen stream, UInt32.toNat_ofNat']
  omega

/-- What `ctcp_receive` does with the segment that arrives. -/
theorem arrival_outcome {state : CtcpState} (a : Arrival) (hlive : state.conn.deleteMe = false)
    (hconn : state.connState = .dataTransfer) :
    (startSeq stream a.index < state.ackno ∧
        step state (a.call stream) = state.log [.receive (received (a.segment stream))]) ∨
      (state.ackno ≤ startSeq stream a.index ∧
        OutputOutcome a.env
          ({ state with receivedSegment := .live (received (a.segment stream)) }.log
            [.receive (received (a.segment stream))]) (step state (a.call stream))) := by
  have hseq : (received (a.segment stream)).seqno = startSeq stream a.index := by
    rw [received_seqno, Arrival.segment, dataSegment_seqno]
  have hflags : (received (a.segment stream)).flags = ACK := ntohl_buildSegment_flags _ _ _ _ _
  have hlen : (received (a.segment stream)).len ≠ UInt16.ofNat segmentHdrSize := by
    intro heq
    have hpos := List.length_pos_iff.mpr (stream a.index).nonempty
    have hdatalen := a.toNat_datalen stream
    rw [Ctcp.datalen, heq] at hdatalen
    have hzero : (UInt16.toUInt32 (UInt16.ofNat segmentHdrSize)
        - UInt32.ofNat segmentHdrSize).toNat = 0 := by decide
    omega
  have hout := step_outcome state (a.call stream)
  generalize step state (a.call stream) = state' at hout ⊢
  cases hout with
  | dead _ hdead => rw [hlive] at hdead; cases hdead
  | invalid _ _ _ hvalid => exact absurd (a.valid stream) hvalid
  | receive _ _ _ _ _ _ hout =>
    cases hout with
    | stale _ hold => exact Or.inl ⟨hseq ▸ hold, rfl⟩
    | data _ hnew _ _ _ _ hout => exact Or.inr ⟨hseq ▸ hnew, hout⟩
    | passiveUnsent _ _ hfin => exact absurd (by rw [hflags, ACK_and_FIN]) hfin
    | passiveClose _ _ hfin => exact absurd (by rw [hflags, ACK_and_FIN]) hfin
    | pureAck _ _ _ _ hbare => exact absurd hbare hlen
    | unflagged _ _ hack => exact absurd (hflags ▸ hack) (by simp)
    | closingFinAck hconn' => rw [hconn] at hconn'; cases hconn'
    | closingAck hconn' => rw [hconn] at hconn'; cases hconn'
    | closingFin hconn' => rw [hconn] at hconn'; cases hconn'
    | lastFin hconn' => rw [hconn] at hconn'; cases hconn'
    | lastAck hconn' => rw [hconn] at hconn'; cases hconn'
    | ignored hconn' => exact absurd hconn hconn'

theorem payload_arrival (a : Arrival) :
    payload (received (a.segment stream)) = (stream a.index).bytes :=
  payload_dataSegment _ _ (stream a.index).fits

/-- The segment is accepted: it is not older than `ackno`, and there is room. -/
def Accepts (state : CtcpState) (a : Arrival) : Prop :=
  state.ackno ≤ startSeq stream a.index ∧ a.Room stream

variable {stream}

/-- The segment is dropped or kept: nothing is passed, and the receiver expects what it did. -/
theorem Sync.unchanged {state state' : CtcpState} {next : Nat} {es : List Event} (a : Arrival)
    (h : Sync stream next state) (hes : outputBytes es = []) (hconn : state'.conn = state.conn)
    (hstate : state'.connState = state.connState) (hack : state'.ackno = state.ackno) :
    outputBytes es ≠ (stream a.index).bytes ∧ Sync stream next state' := by
  constructor
  · rw [hes]
    exact (stream a.index).nonempty.symm
  · exact ⟨hstate.trans h.conn, hconn ▸ h.open', hack.trans h.ackno⟩

/-- **One arrival**: an accepted segment is passed to `conn_output` and the receiver expects the
    segment after it; otherwise nothing is passed and nothing else is expected. -/
theorem arrival_cases {state : CtcpState} {next : Nat} (a : Arrival)
    (hlive : state.conn.deleteMe = false) (hsync : Sync stream next state) :
    (Accepts stream state a ∧ Passes stream state a ∧
        ((step state (a.call stream)).conn.deleteMe = false →
          Sync stream (a.index + 1) (step state (a.call stream)))) ∨
      (¬ Accepts stream state a ∧ ¬ Passes stream state a ∧
        Sync stream next (step state (a.call stream))) := by
  have hpos := List.length_pos_iff.mpr (stream a.index).nonempty
  have hdatalen := a.toNat_datalen stream
  have hpayload := payload_arrival stream a
  have htrace := step_trace state (a.call stream)
  have hcases := arrival_outcome stream a hlive hsync.conn
  unfold Passes
  generalize events state (a.call stream) = es at htrace ⊢
  generalize step state (a.call stream) = state' at htrace hcases ⊢
  rcases hcases with ⟨hold, rfl⟩ | ⟨hnew, hout⟩
  · obtain rfl := List.append_cancel_left htrace
    have hno : ¬ Accepts stream state a := fun hpass => UInt32.not_le.mpr hold hpass.1
    exact Or.inr ⟨hno, hsync.unchanged a (by simp) rfl rfl rfl⟩
  · have hno : a.env.bufspace < (stream a.index).bytes.length → ¬ Accepts stream state a :=
      fun hfull hpass => Nat.not_le.mpr hfull hpass.2
    cases hout with
    | noRoom _ _ hroom =>
      obtain rfl := List.append_cancel_left htrace
      have hfull : a.env.bufspace < (stream a.index).bytes.length := by omega
      exact Or.inr ⟨hno hfull, hsync.unchanged a (by simp) rfl rfl rfl⟩
    | kept segment hseg hroom hless =>
      obtain rfl : received (a.segment stream) = segment := by simpa using hseg
      obtain rfl := List.append_cancel_left htrace
      have hfull : a.env.bufspace < (stream a.index).bytes.length := by omega
      exact Or.inr ⟨hno hfull, hsync.unchanged a (by simp) rfl rfl rfl⟩
    | empty segment hseg _ hzero =>
      obtain rfl : received (a.segment stream) = segment := by simpa using hseg
      rw [hzero] at hdatalen
      have hnone : (stream a.index).bytes.length = 0 := hdatalen.symm
      omega
    | failed segment hseg hroom hne hfits hwritten =>
      obtain rfl : received (a.segment stream) = segment := by simpa using hseg
      simp only [CtcpState.log_trace, List.append_assoc] at htrace
      obtain rfl := List.append_cancel_left htrace
      have hroom' : a.Room stream := Nat.le_trans (Nat.le_of_eq hdatalen.symm) hfits
      refine Or.inl ⟨⟨hnew, hroom'⟩, by simpa using hpayload, ?_⟩
      intro hlive'
      cases hlive'
    | delivered segment hseg hroom hne hfits hwritten =>
      obtain rfl : received (a.segment stream) = segment := by simpa using hseg
      simp only [CtcpState.log_trace, List.append_assoc] at htrace
      obtain rfl := List.append_cancel_left htrace
      have hroom' : a.Room stream := Nat.le_trans (Nat.le_of_eq hdatalen.symm) hfits
      refine Or.inl ⟨⟨hnew, hroom'⟩, by simpa using hpayload, ?_⟩
      intro _
      refine ⟨hsync.conn, hsync.open', ?_⟩
      show (received (a.segment stream)).seqno + Ctcp.datalen (received (a.segment stream)) = _
      rw [a.datalen stream, startSeq_succ, received_seqno, Arrival.segment, dataSegment_seqno]
    | fault hdead => exact absurd rfl (hdead _)

/-! ## Runs -/

/-- The receiver has passed the segments before `next`, each once, and expects that one. -/
structure ReceiverInv (stream : Nat → DataChunk) (r : Receiver) : Prop where
  sync : r.state.conn.deleteMe = false → Sync stream r.next r.state
  passed : r.passed = List.range r.next

theorem receiverInv_init (stream : Nat → DataChunk) (cfg : CtcpConfig) :
    ReceiverInv stream (Receiver.init cfg) :=
  ⟨fun _ => ⟨rfl, rfl, rfl⟩, rfl⟩

theorem arrive_of_passes {r : Receiver} {a : Arrival} (h : Passes stream r.state a) :
    (arrive stream r a).passed = r.passed ++ [a.index] ∧
      (arrive stream r a).next = if a.index = r.next then r.next + 1 else r.next := by
  simp [arrive, h]

theorem arrive_of_not_passes {r : Receiver} {a : Arrival} (h : ¬ Passes stream r.state a) :
    (arrive stream r a).passed = r.passed ∧ (arrive stream r a).next = r.next := by
  simp [arrive, h]

/-- Nothing is passed on a connection that has ended. -/
theorem not_passes_of_dead (stream : Nat → DataChunk) {state : CtcpState} (a : Arrival)
    (hdead : state.conn.deleteMe = true) :
    step state (a.call stream) = state ∧ ¬ Passes stream state a := by
  have hstep : step state (a.call stream) = state := by simp [step, hdead]
  refine ⟨hstep, ?_⟩
  have hevents : events state (a.call stream) = [] := by simp [events, hstep]
  unfold Passes
  rw [hevents]
  exact (stream a.index).nonempty.symm

/-- A segment that is not passed changes nothing. -/
theorem ReceiverInv.stays {r : Receiver} {a : Arrival} (h : ReceiverInv stream r)
    (hno : ¬ Passes stream r.state a)
    (hsync : (step r.state (a.call stream)).conn.deleteMe = false →
      Sync stream r.next (step r.state (a.call stream))) :
    ReceiverInv stream (arrive stream r a) ∧ (arrive stream r a).passed.Nodup := by
  obtain ⟨hpassed, hsame⟩ := arrive_of_not_passes hno
  have hrange : (arrive stream r a).passed = List.range (arrive stream r a).next := by
    rw [hpassed, hsame, h.passed]
  constructor
  · refine ⟨fun hlive' => ?_, hrange⟩
    rw [hsame]
    exact hsync hlive'
  · rw [hrange]
    exact List.nodup_range

/-- Nothing is passed on a connection that has ended. -/
theorem ReceiverInv.dead {r : Receiver} (a : Arrival) (h : ReceiverInv stream r)
    (hdead : r.state.conn.deleteMe = true) :
    ReceiverInv stream (arrive stream r a) ∧ DeliversOnce stream r a := by
  obtain ⟨hstep, hno⟩ := not_passes_of_dead stream a hdead
  have hend : ∀ {p : Prop}, r.state.conn.deleteMe = false → p := by simp [hdead]
  obtain ⟨hinv, hnodup⟩ := h.stays hno (fun hlive => hend (hstep ▸ hlive))
  exact ⟨hinv, hnodup, fun hlive => hend hlive⟩

/-- The next segment: it is accepted if there is room, and counted. -/
theorem arrive_next {r : Receiver} {a : Arrival} (h : ReceiverInv stream r)
    (hnext : a.index = r.next) :
    ReceiverInv stream (arrive stream r a) ∧ DeliversOnce stream r a := by
  cases hlive : r.state.conn.deleteMe with
  | true => exact h.dead a hlive
  | false =>
    have hsync := h.sync hlive
    have hseq : r.state.ackno ≤ startSeq stream a.index := by
      rw [hsync.ackno, hnext]
      exact UInt32.le_refl _
    rcases arrival_cases a hlive hsync with ⟨hacc, hpass, hsync'⟩ | ⟨hacc, hno, hsync'⟩
    · obtain ⟨hpassed, hcount⟩ := arrive_of_passes hpass
      rw [if_pos hnext] at hcount
      have hrange : (arrive stream r a).passed = List.range (arrive stream r a).next := by
        rw [hpassed, hcount, h.passed, hnext, List.range_succ]
      refine ⟨⟨?_, hrange⟩, ?_, fun _ _ _ => hpass⟩
      · intro hlive'
        rw [hcount, ← hnext]
        exact hsync' hlive'
      · rw [hrange]
        exact List.nodup_range
    · obtain ⟨hinv, hnodup⟩ := h.stays hno (fun _ => hsync')
      exact ⟨hinv, hnodup, fun _ _ hroom => absurd ⟨hseq, hroom⟩ hacc⟩

/-- The segment before it: it is passed again exactly when it reaches 2^32 and there is room. -/
theorem arrive_again {r : Receiver} {a : Arrival} (h : ReceiverInv stream r)
    (hagain : a.index + 1 = r.next) :
    (DeliversOnce stream r a ↔ NoStraddling stream r a) ∧
      (DeliversOnce stream r a → ReceiverInv stream (arrive stream r a)) := by
  cases hlive : r.state.conn.deleteMe with
  | true =>
    obtain ⟨hinv, honce⟩ := h.dead a hlive
    have hend : NoStraddling stream r a := by simp [NoStraddling, hlive]
    exact ⟨⟨fun _ => hend, fun _ => honce⟩, fun _ => hinv⟩
  | false =>
    have hsync := h.sync hlive
    -- accepted again means not recognised as stale
    have hacc_iff : Accepts stream r.state a ↔ Straddles stream a.index ∧ a.Room stream := by
      unfold Accepts
      rw [hsync.ackno, ← hagain, ← UInt32.not_lt, duplicate_stale]
      simp
    have hnever : ¬ a.index = r.next := by omega
    rcases arrival_cases a hlive hsync with ⟨hacc, hpass, -⟩ | ⟨hacc, hno, hsync'⟩
    · have htwice : ¬ DeliversOnce stream r a := by
        rintro ⟨hnodup, -⟩
        rw [(arrive_of_passes hpass).1, h.passed] at hnodup
        have hmem : a.index ∈ List.range r.next := List.mem_range.mpr (by omega)
        exact (List.nodup_append.mp hnodup).2.2 a.index hmem a.index (by simp) rfl
      obtain ⟨hstraddle, hroom⟩ := hacc_iff.mp hacc
      constructor
      · exact ⟨fun honce => absurd honce htwice,
          fun hcond => absurd hstraddle (hcond hlive hagain hroom)⟩
      · exact fun honce => absurd honce htwice
    · obtain ⟨hinv, hnodup⟩ := h.stays hno (fun _ => hsync')
      have honce : DeliversOnce stream r a := ⟨hnodup, fun _ hnext => absurd hnext hnever⟩
      have hcond : NoStraddling stream r a := by
        intro _ _ hroom hstraddle
        exact hacc (hacc_iff.mpr ⟨hstraddle, hroom⟩)
      exact ⟨⟨fun _ => hcond, fun _ => honce⟩, fun _ => hinv⟩

/-- In every stop-and-wait run the two conditions agree, arrival by arrival. -/
theorem along_deliversOnce_iff (stream : Nat → DataChunk) (cfg : CtcpConfig) (as : List Arrival) :
    Along (arrive stream) (fun r a => InTurn r a ∧ DeliversOnce stream r a) (Receiver.init cfg) as ↔
      Along (arrive stream) (fun r a => InTurn r a ∧ NoStraddling stream r a)
        (Receiver.init cfg) as := by
  refine along_iff_of_invariant ?_ ?_ (receiverInv_init stream cfg)
  · rintro r a h ⟨hnext | hagain, honce⟩
    · exact (arrive_next h hnext).1
    · exact (arrive_again h hagain).2 honce
  · intro r a h
    refine and_congr_right ?_
    rintro (hnext | hagain)
    · have hnever : ¬ a.index + 1 = r.next := by omega
      exact ⟨fun _ _ hagain => absurd hagain hnever, fun _ => (arrive_next h hnext).2⟩
    · exact (arrive_again h hagain).1

/-- **No duplicate is delivered, and the next segment always is, exactly when no segment that
    reaches 2^32 arrives again** while there is room for it. -/
theorem deliversOnce_iff (stream : Nat → DataChunk) (cfg : CtcpConfig) (as : List Arrival)
    (hturn : Along (arrive stream) InTurn (Receiver.init cfg) as) :
    Along (arrive stream) (DeliversOnce stream) (Receiver.init cfg) as ↔
      Along (arrive stream) (NoStraddling stream) (Receiver.init cfg) as := by
  have hiff := along_deliversOnce_iff stream cfg as
  constructor
  · intro honce
    exact (hiff.mp (hturn.and honce)).imp fun _ _ => And.right
  · intro hcond
    exact (hiff.mpr (hturn.and hcond)).imp fun _ _ => And.right

instance (r : Receiver) (a : Arrival) : Decidable (InTurn r a) := by
  unfold InTurn; infer_instance

/-- A stream of segments of one byte. -/
def singleBytes (i : Nat) : DataChunk where
  bytes := [UInt8.ofNat i]
  fits := Nat.le_of_ble_eq_true rfl
  nonempty := List.cons_ne_nil _ _

/-- Two segments, the first of them twice. -/
theorem deliversOnce_iff_bytes :
    let as : List Arrival := [⟨0, 1, Env.roomy⟩, ⟨0, 1, Env.roomy⟩, ⟨1, 1, Env.roomy⟩]
    Along (arrive singleBytes) (DeliversOnce singleBytes) (Receiver.init ctcpCfg) as ↔
      Along (arrive singleBytes) (NoStraddling singleBytes) (Receiver.init ctcpCfg) as :=
  deliversOnce_iff singleBytes ctcpCfg _ (by decide)

/-! ## Four gigabytes -/

/-- The first `n` segments arrive in order. -/
def inOrder (n : Nat) : List Arrival := (List.range n).map fun i => ⟨i, 1, Env.roomy⟩

/-- As long as `conn_output` succeeds the connection goes on. -/
theorem live_of_arrival {state : CtcpState} {next : Nat} (a : Arrival)
    (hlive : state.conn.deleteMe = false) (hsync : Sync stream next state)
    (hwritten : 0 ≤ a.env.written) : (step state (a.call stream)).conn.deleteMe = false := by
  rcases arrival_outcome stream a hlive hsync.conn with ⟨-, heq⟩ | ⟨-, hout⟩
  · rw [heq]
    exact hlive
  · generalize step state (a.call stream) = state' at hout ⊢
    cases hout with
    | failed _ _ _ _ _ hfail =>
      have hresult : outputResult a.env ({ state with
          receivedSegment := .live (received (a.segment stream)) }.log
            [.receive (received (a.segment stream))]) = a.env.written := by
        simp [outputResult, hsync.open']
      omega
    | _ => exact hlive

/-- The receiver after the first `n` segments. -/
theorem inOrder_delivered (stream : Nat → DataChunk) (cfg : CtcpConfig) (n : Nat)
    (hroom : ∀ i < n, (stream i).bytes.length ≤ maxBufSpace) :
    let r := run (arrive stream) (Receiver.init cfg) (inOrder n)
    ReceiverInv stream r ∧ r.next = n ∧ r.state.conn.deleteMe = false ∧
      Along (arrive stream) (fun r a => InTurn r a ∧ DeliversOnce stream r a)
        (Receiver.init cfg) (inOrder n) := by
  induction n with
  | zero => exact ⟨receiverInv_init stream cfg, rfl, rfl, trivial⟩
  | succ n ih =>
    obtain ⟨hinv, hcount, hlive, halong⟩ := ih fun i hi => hroom i (by omega)
    have hlist : inOrder (n + 1) = inOrder n ++ [⟨n, 1, Env.roomy⟩] := by
      rw [inOrder, List.range_succ, List.map_append]
      rfl
    rw [hlist, run_append, along_append]
    generalize run (arrive stream) (Receiver.init cfg) (inOrder n) = r at hinv hcount hlive ⊢
    have hsync := hinv.sync hlive
    obtain ⟨hinv', honce⟩ := arrive_next (a := ⟨n, 1, Env.roomy⟩) hinv hcount.symm
    have hpass := honce.2 hlive hcount.symm (hroom n (by omega))
    have hnext : (arrive stream r ⟨n, 1, Env.roomy⟩).next = n + 1 := by
      rw [(arrive_of_passes hpass).2, if_pos hcount.symm, hcount]
    refine ⟨hinv', hnext, ?_, halong, ⟨Or.inl hcount.symm, honce⟩, trivial⟩
    exact live_of_arrival _ hlive hsync (show (0 : Int) ≤ 1 by decide)

/-- A segment that reaches 2^32 is delivered in its turn, and once more when it arrives again. -/
theorem delivered_twice (stream : Nat → DataChunk) (cfg : CtcpConfig) (n : Nat)
    (hroom : ∀ i, (stream i).bytes.length ≤ maxBufSpace) (hstraddle : Straddles stream n) :
    Along (arrive stream) InTurn (Receiver.init cfg) (inOrder (n + 1) ++ [⟨n, 1, Env.roomy⟩]) ∧
      ¬ Along (arrive stream) (DeliversOnce stream) (Receiver.init cfg)
        (inOrder (n + 1) ++ [⟨n, 1, Env.roomy⟩]) := by
  obtain ⟨hinv, hcount, hlive, halong⟩ := inOrder_delivered stream cfg (n + 1) fun i _ => hroom i
  rw [along_append, along_append]
  refine ⟨⟨halong.imp fun _ _ => And.left, Or.inr hcount.symm, trivial⟩, ?_⟩
  rintro ⟨-, honce, -⟩
  have hcond := (arrive_again hinv hcount.symm).1.mp honce
  exact hcond hlive hcount.symm (hroom n) hstraddle

/-- A stream of full segments. -/
def fullSegments : Nat → DataChunk := fun _ =>
  { bytes := List.replicate maxSegDataSize 0
    fits := Nat.le_of_eq List.length_replicate
    nonempty := List.ne_nil_of_length_pos (by rw [List.length_replicate]; decide) }

theorem length_fullSegments (i : Nat) : (fullSegments i).bytes.length = 1440 :=
  List.length_replicate

theorem offset_fullSegments (i : Nat) : offset fullSegments i = 1440 * i := by
  induction i with
  | zero => rfl
  | succ i ih =>
    rw [offset, ih, length_fullSegments]
    omega

theorem straddles_fullSegments {i : Nat} (h : 2 ^ 32 ≤ (1 + 1440 * i) % 2 ^ 32 + 1440) :
    Straddles fullSegments i := by
  unfold Straddles startSeq
  rw [length_fullSegments, offset_fullSegments, UInt32.toNat_ofNat']
  exact h

/-- The segment 2982616 of a stream of full segments starts at 4294967041 and ends beyond 2^32. -/
theorem straddling_delivered_twice :
    Along (arrive fullSegments) InTurn (Receiver.init ctcpCfg)
        (inOrder (2982616 + 1) ++ [⟨2982616, 1, Env.roomy⟩]) ∧
      ¬ Along (arrive fullSegments) (DeliversOnce fullSegments) (Receiver.init ctcpCfg)
        (inOrder (2982616 + 1) ++ [⟨2982616, 1, Env.roomy⟩]) := by
  have hroom : ∀ i, (fullSegments i).bytes.length ≤ maxBufSpace := by
    intro i
    rw [length_fullSegments]
    decide
  have hstraddle : Straddles fullSegments 2982616 := straddles_fullSegments (by decide)
  exact delivered_twice fullSegments ctcpCfg 2982616 hroom hstraddle

end Ctcp
