/-
  First transmissions tile the sequence space.

  All segments but the retransmissions leave through `_segment_send`, from four places: data and
  the FIN of `ctcp_read`, the ACK of `ctcp_output`, and the ACK and the FIN with which
  `ctcp_receive` answers a FIN.  All of them take their sequence number from `seqno`, and each one
  that `conn_send` took moves it by what the segment occupies.

  `Tiles start segments stop` says that the segments lie one after the other between `start` and
  `stop`, modulo 2^32; bare ACKs have length 0.  The invariant `Tiling` says that the first
  transmissions tile the space between 1 and `seqno`, that their data are the reads whose
  `conn_send` succeeded, and that the slot holds the last of them that occupies sequence numbers:
  that one the timer sends again.
-/
import Ctcp.Destroy

set_option linter.unusedVariables false

namespace Ctcp

open Runs History

/-! ## Tilings of the sequence space -/

/-- The sequence number after the segment. -/
def nextSeq (segment : CtcpSegment) : UInt32 :=
  ntohl segment.seqno + UInt32.ofNat segment.data.length + if isFin segment then 1 else 0

/-- **The segments lie one after the other**, from `start` to `stop`. -/
def Tiles : UInt32 → List CtcpSegment → UInt32 → Prop
  | start, [], stop => start = stop
  | start, segment :: segments, stop =>
    ntohl segment.seqno = start ∧ Tiles (nextSeq segment) segments stop

@[simp] theorem tiles_nil {start stop : UInt32} : Tiles start [] stop ↔ start = stop := Iff.rfl

@[simp] theorem tiles_cons {start stop : UInt32} {segment : CtcpSegment}
    {segments : List CtcpSegment} :
    Tiles start (segment :: segments) stop ↔
      ntohl segment.seqno = start ∧ Tiles (nextSeq segment) segments stop := Iff.rfl

theorem Tiles.append {start mid stop : UInt32} {segments segments' : List CtcpSegment}
    (h : Tiles start segments mid) (h' : Tiles mid segments' stop) :
    Tiles start (segments ++ segments') stop := by
  induction segments generalizing start with
  | nil =>
    obtain rfl : start = mid := h
    exact h'
  | cons segment segments ih =>
    obtain ⟨hseq, hrest⟩ := h
    exact ⟨hseq, ih hrest⟩

section NextSeq

variable (seqno ackno : UInt32) (buffer : List UInt8)

@[simp] theorem nextSeq_ackSegment : nextSeq (ackSegment seqno ackno) = seqno := by
  simp [nextSeq]

@[simp] theorem nextSeq_finSegment : nextSeq (finSegment seqno ackno) = seqno + 1 := by
  simp [nextSeq]

@[simp] theorem nextSeq_dataSegment :
    nextSeq (dataSegment seqno ackno buffer) = seqno + UInt32.ofNat buffer.length := by
  simp [nextSeq]

end NextSeq

/-! ## First transmissions in a trace -/

/-- The segment that `_segment_send` has sent with this event. -/
def Event.first : Event → Option CtcpSegment
  | .send segment sent => if 0 ≤ sent then some segment else none
  | _ => none

attribute [simp] Event.first

/-- The segments sent successfully, without the retransmissions, in the order of sending. -/
def firsts (h : List Event) : List CtcpSegment := h.filterMap Event.first

@[simp] theorem firsts_append (h es : List Event) : firsts (h ++ es) = firsts h ++ firsts es := by
  simp [firsts]

@[simp] theorem firsts_nil : firsts [] = [] := rfl

@[simp] theorem firsts_cons (e : Event) (es : List Event) :
    firsts (e :: es) = e.first.toList ++ firsts es := by
  unfold firsts
  rw [List.filterMap_cons]
  cases e.first <;> rfl

/-- The bytes of the reads whose `conn_send` succeeded: `ctcp_read` sends what it reads at once. -/
def readsSent : List Event → List UInt8
  | .input (some bytes) :: .send _ sent :: h => (if 0 ≤ sent then bytes else []) ++ readsSent h
  | _ :: h => readsSent h
  | [] => []

@[simp] theorem readsSent_nil : readsSent [] = [] := rfl

@[simp] theorem readsSent_input (bytes : List UInt8) (segment : CtcpSegment) (sent : Int)
    (h : List Event) :
    readsSent (.input (some bytes) :: .send segment sent :: h)
      = (if 0 ≤ sent then bytes else []) ++ readsSent h := rfl

@[simp] theorem readsSent_cons {e : Event} {h : List Event}
    (he : ∀ bytes, e ≠ .input (some bytes)) : readsSent (e :: h) = readsSent h := by
  rw [readsSent]
  intro bytes segment sent h' hbytes
  exact absurd hbytes (he bytes)

instance (segment : CtcpSegment) : Decidable (Occupies segment) := by
  unfold Occupies; infer_instance

/-- The last data segment or FIN among the segments. -/
def lastOccupying (segments : List CtcpSegment) : Option CtcpSegment :=
  (segments.filter (fun segment => decide (Occupies segment))).getLast?

/-- A retransmission is the last data segment or FIN that was sent. -/
def ResendsLast (before : List Event) (e : Event) : Prop :=
  ∀ segment, e = .resend segment → lastOccupying (firsts before) = some segment

/-- A read that is not followed by a send is not counted, so a history can be cut after any event
    that is not a read. -/
theorem readsSent_append {h : List Event} (es : List Event)
    (hlast : ∀ bytes, h.getLast? ≠ some (.input (some bytes))) :
    readsSent (h ++ es) = readsSent h ++ readsSent es := by
  fun_induction readsSent h with
  | case1 bytes segment sent h ih =>
    have hlast' : ∀ bytes, h.getLast? ≠ some (.input (some bytes)) := by
      intro bytes' heq
      apply hlast bytes'
      simp [List.getLast?_cons, heq]
    show (if 0 ≤ sent then bytes else []) ++ readsSent (h ++ es) = _
    rw [ih hlast', List.append_assoc]
  | case2 e h hne ih =>
    have hlast' : ∀ bytes, h.getLast? ≠ some (.input (some bytes)) := by
      intro bytes' heq
      apply hlast bytes'
      simp [List.getLast?_cons, heq]
    rw [← ih hlast', List.cons_append, readsSent]
    intro bytes segment sent h' he heq
    -- the send after the read would already stand in `h`
    cases h with
    | nil => exact hlast bytes (by rw [he]; rfl)
    | cons e' h =>
      obtain ⟨rfl, -⟩ := List.cons.inj heq
      exact hne bytes segment sent h he rfl
  | case3 => rfl

/-! ## The invariant -/

/-- What has been sent for the first time, in a state. -/
structure Tiling (state : CtcpState) : Prop where
  tiles : Tiles 1 (firsts state.trace) state.seqno
  data : (firsts state.trace).flatMap CtcpSegment.data = readsSent state.trace
  slot : ∀ attr, state.sentSegmentAttr = some attr →
    lastOccupying (firsts state.trace) = some attr.segment
  resends : Always ResendsLast state.trace
  last : ∀ bytes, state.trace.getLast? ≠ some (.input (some bytes))

theorem tiling_init (cfg : CtcpConfig) : Tiling (ctcpInit cfg) := by
  refine ⟨?_, ?_, ?_, ?_, ?_⟩ <;> simp [ctcpInit]

theorem lastOccupying_append_right {segments segments' : List CtcpSegment} {segment : CtcpSegment}
    (h : lastOccupying segments' = some segment) :
    lastOccupying (segments ++ segments') = some segment := by
  unfold lastOccupying at h ⊢
  rw [List.filter_append, List.getLast?_append, h]
  rfl

theorem lastOccupying_append_left {segments segments' : List CtcpSegment}
    (h : ∀ segment ∈ segments', ¬ Occupies segment) :
    lastOccupying (segments ++ segments') = lastOccupying segments := by
  have hnone : segments'.filter (fun segment => decide (Occupies segment)) = [] := by
    rw [List.filter_eq_nil_iff]
    intro segment hmem
    simpa using h segment hmem
  unfold lastOccupying
  rw [List.filter_append, hnone, List.append_nil]

/-- **A call that sends**: the new segments continue the tiling, and the slot holds the last of
    them that occupies sequence numbers, or what it held before. -/
theorem Tiling.extend {state state' : CtcpState} {es : List Event} (h : Tiling state)
    (htrace : state'.trace = state.trace ++ es)
    (htiles : Tiles state.seqno (firsts es) state'.seqno)
    (hdata : (firsts es).flatMap CtcpSegment.data = readsSent es)
    (hslot : ∀ attr', state'.sentSegmentAttr = some attr' →
      lastOccupying (firsts es) = some attr'.segment ∨
        (∀ segment ∈ firsts es, ¬ Occupies segment) ∧
          ∃ attr, state.sentSegmentAttr = some attr ∧ attr'.segment = attr.segment)
    (hresends : AlwaysFrom ResendsLast state.trace es)
    (hlast : ∀ bytes, es.getLast? ≠ some (.input (some bytes))) : Tiling state' where
  tiles := by
    rw [htrace, firsts_append]
    exact h.tiles.append htiles
  data := by
    rw [htrace, firsts_append, List.flatMap_append, h.data, hdata, readsSent_append es h.last]
  slot := by
    intro attr' hattr'
    rw [htrace, firsts_append]
    rcases hslot attr' hattr' with hnew | ⟨hnone, attr, hattr, hseg⟩
    · exact lastOccupying_append_right hnew
    · rw [lastOccupying_append_left hnone, hseg]
      exact h.slot attr hattr
  resends := by
    rw [htrace]
    exact always_append.mpr ⟨h.resends, hresends⟩
  last := by
    intro bytes heq
    rw [htrace, List.getLast?_append] at heq
    cases hes : es.getLast? with
    | none =>
      rw [hes] at heq
      exact h.last bytes heq
    | some e =>
      rw [hes] at heq
      exact hlast bytes (hes.trans heq)

/-- The segments of a call that sends at most bare ACKs. -/
theorem tiles_acks {seqno : UInt32} {segments : List CtcpSegment}
    (h : ∀ segment ∈ segments, segment = ackSegment seqno (ntohl segment.ackno)) :
    Tiles seqno segments seqno ∧ segments.flatMap CtcpSegment.data = [] ∧
      ∀ segment ∈ segments, ¬ Occupies segment := by
  induction segments with
  | nil => simp
  | cons segment segments ih =>
    have hack := h segment List.mem_cons_self
    obtain ⟨htiles, hdata, hocc⟩ := ih fun s hs => h s (List.mem_cons_of_mem _ hs)
    rw [hack]
    refine ⟨by simpa using htiles, by simpa using hdata, ?_⟩
    intro s hs
    rcases List.mem_cons.mp hs with rfl | hs
    · exact not_occupies_ackSegment seqno _
    · exact hocc s hs

/-- **A call that sends at most bare ACKs**, and puts nothing into the slot. -/
theorem Tiling.quiet {state state' : CtcpState} {es : List Event} (h : Tiling state)
    (htrace : state'.trace = state.trace ++ es) (hseq : state'.seqno = state.seqno)
    (hacks : ∀ segment ∈ firsts es, segment = ackSegment state.seqno (ntohl segment.ackno))
    (hread : readsSent es = [])
    (hslot : ∀ attr', state'.sentSegmentAttr = some attr' →
      ∃ attr, state.sentSegmentAttr = some attr ∧ attr'.segment = attr.segment)
    (hresends : AlwaysFrom ResendsLast state.trace es)
    (hlast : ∀ bytes, es.getLast? ≠ some (.input (some bytes))) : Tiling state' := by
  obtain ⟨htiles, hdata, hocc⟩ := tiles_acks hacks
  refine h.extend htrace ?_ (hdata.trans hread.symm) ?_ hresends hlast
  · rw [hseq]
    exact htiles
  · intro attr' hattr'
    exact Or.inr ⟨hocc, hslot attr' hattr'⟩

/-! ## Every call keeps it -/

theorem tiling_read {state state' : CtcpState} {input : Option Chunk} {sent : Int}
    (h : Tiling state) (hout : ReadOutcome state input sent state') : Tiling state' := by
  cases hout with
  | busy => exact h
  | eofUnsent _ _ hsent =>
    have hneg : ¬ 0 ≤ sent := by omega
    refine h.quiet rfl rfl ?_ ?_ (fun attr' h => ⟨attr', h, rfl⟩) ?_ ?_ <;>
      simp [hneg, ResendsLast]
  | eofSent _ _ hsent =>
    refine h.extend rfl ?_ ?_ ?_ ?_ ?_ <;>
      simp [hsent, lastOccupying, Occupies, ResendsLast]
  | unsent chunk _ _ _ hsent =>
    have hneg : ¬ 0 ≤ sent := by omega
    refine h.quiet rfl rfl ?_ ?_ (fun attr' h => ⟨attr', h, rfl⟩) ?_ ?_ <;>
      simp [hneg, ResendsLast]
  | noData chunk _ _ _ _ hsent =>
    refine h.quiet rfl rfl ?_ ?_ (fun attr' h => ⟨attr', h, rfl⟩) ?_ ?_ <;>
      simp [hsent, ResendsLast]
  | data chunk _ _ _ hne hsent =>
    refine h.extend rfl ?_ ?_ ?_ ?_ ?_ <;>
      simp [hsent, hne, lastOccupying, Occupies, ResendsLast]

theorem tiling_output {env : Env} {state state' : CtcpState} (h : Tiling state)
    (hout : OutputOutcome env state state') : Tiling state' := by
  cases hout with
  | noRoom => exact ⟨h.tiles, h.data, h.slot, h.resends, h.last⟩
  | kept => exact h
  | empty => exact ⟨h.tiles, h.data, by simp, h.resends, h.last⟩
  | failed =>
    refine h.quiet rfl rfl ?_ ?_ (fun attr' h => ⟨attr', h, rfl⟩) ?_ ?_ <;> simp [ResendsLast]
  | delivered =>
    refine h.quiet rfl rfl ?_ ?_ ?_ ?_ ?_ <;> simp [ResendsLast]
  | fault =>
    refine h.quiet rfl rfl ?_ ?_ (fun attr' h => ⟨attr', h, rfl⟩) ?_ ?_ <;> simp [ResendsLast]

theorem tiling_receive {env : Env} {state state' : CtcpState} {segment : CtcpSegment}
    (h : Tiling state) (hout : ReceiveOutcome env state segment state') : Tiling state' := by
  cases hout with
  | passiveUnsent _ _ _ hsent =>
    have hneg : ¬ 0 ≤ env.sent₁ := by omega
    refine h.quiet rfl rfl ?_ ?_ (fun attr' h => ⟨attr', h, rfl⟩) ?_ ?_ <;>
      simp [hneg, ResendsLast]
  | passiveClose _ _ _ hsent =>
    -- the ACK, if it could be sent, and the FIN after it
    by_cases hsent₀ : 0 ≤ env.sent₀
    · refine h.extend rfl ?_ ?_ ?_ ?_ ?_ <;>
        simp [hsent, hsent₀, lastOccupying, Occupies, ResendsLast]
    · refine h.extend rfl ?_ ?_ ?_ ?_ ?_ <;>
        simp [hsent, hsent₀, lastOccupying, Occupies, ResendsLast]
  | pureAck =>
    refine h.quiet rfl rfl ?_ ?_ ?_ ?_ ?_ <;> simp [ResendsLast]
  | data _ _ _ _ _ _ hout =>
    refine tiling_output ?_ hout
    refine h.quiet rfl rfl ?_ ?_ (fun attr' h => ⟨attr', h, rfl⟩) ?_ ?_ <;> simp [ResendsLast]
  | _ =>
    refine h.quiet rfl rfl ?_ ?_ (fun attr' h => ⟨attr', h, rfl⟩) ?_ ?_ <;> simp [ResendsLast]

theorem tiling_timer {state state' : CtcpState} (h : Tiling state)
    (hout : TimerOutcome state state') : Tiling state' := by
  cases hout with
  | expired =>
    refine h.quiet rfl rfl ?_ ?_ (fun attr' h => ⟨attr', h, rfl⟩) ?_ ?_ <;> simp [ResendsLast]
  | running _ _ hout =>
    cases hout with
    | idle => exact ⟨h.tiles, h.data, h.slot, h.resends, h.last⟩
    | waiting attr hattr =>
      refine ⟨h.tiles, h.data, ?_, h.resends, h.last⟩
      rintro attr' ⟨⟩
      exact h.slot attr hattr
    | resent attr hattr =>
      have hlast := h.slot attr hattr
      refine h.quiet rfl rfl ?_ ?_ ?_ ?_ ?_ <;> simp [ResendsLast, hlast]
      exact ⟨attr, hattr, rfl⟩
    | givenUp attr hattr =>
      have hlast := h.slot attr hattr
      refine h.quiet rfl rfl ?_ ?_ ?_ ?_ ?_ <;> simp [ResendsLast, hlast]

theorem tiling_step (state : CtcpState) (call : Call) (h : Tiling state) :
    Tiling (step state call) := by
  have hout := step_outcome state call
  generalize step state call = state' at hout ⊢
  cases hout with
  | dead => exact h
  | read _ _ _ _ hout => exact tiling_read h hout
  | invalid => exact h
  | receive _ _ _ _ _ _ hout => exact tiling_receive h hout
  | output _ _ _ hout => exact tiling_output h hout
  | timer _ _ hout => exact tiling_timer h hout

/-- **First transmissions tile the sequence space**, in every run: they lie one after the other
    from 1 on, they carry the reads that were sent, and the timer only repeats the last one that
    occupies sequence numbers. -/
theorem first_transmissions_tile (cfg : CtcpConfig) (calls : List Call) :
    let state := run step (ctcpInit cfg) calls
    Tiles 1 (firsts state.trace) state.seqno ∧
      (firsts state.trace).flatMap CtcpSegment.data = readsSent state.trace ∧
      Always ResendsLast state.trace := by
  intro state
  have h : Tiling state := run_invariant tiling_step (tiling_init cfg)
  exact ⟨h.tiles, h.data, h.resends⟩

/-- The read of `[3]` fails, and `[4]` takes its sequence number. -/
example :
    firsts (run step (ctcpInit ctcpCfg) [.read (some ⟨[1, 2], by decide⟩) 20,
      .arrival (ackSegment 1 3), .read (some ⟨[3], by decide⟩) (-1),
      .read (some ⟨[4], by decide⟩) 20]).trace
      = [dataSegment 1 1 [1, 2], dataSegment 3 1 [4]] := by decide

end Ctcp
