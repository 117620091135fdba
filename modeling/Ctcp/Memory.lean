/-
  The memory of a connection.

  `Holds` says what the heap of a live connection looks like: the blocks behind its pointers are all
  different, each holds what `CtcpState` has in its place, and whatever else is allocated is lost.
  Each function keeps this up and does on both levels the same; its rule is named after it.

  `memory_refines`: on every run the two levels do the same, until `conn_drain` calls `ctcp_output`
  and no segment is kept.  There the memory fails, and nowhere else.  So all that is proved about
  the runs of a connection is true of the functions with pointers, and what is `freed` in a
  `CtcpState` is a block that has been freed.

  `leaks_deliveries`: what is not freed.  A bare ACK, and a segment that could not be sent, is
  forgotten by `_segment_send` and stays allocated for ever.  So after every run at least as many
  blocks remain as segments have been delivered, also when the connection has been destroyed.
-/
import Ctcp.Pointers
import Ctcp.Reach
import Mathlib.Algebra.Order.Group.Multiset
import Mathlib.Tactic.Abel

set_option linter.unusedVariables false

namespace Ctcp.Pointers

open Blocks Checked Runs

/-! ## The two levels -/

/-- The state of `Ctcp.State`, with what the pointers lead to. -/
def Memory.view (m : Memory) (received : SegmentPtr) (attr : Option SegmentAttr)
    (nums : Option TearDownNums) : CtcpState where
  conn := m.conn
  connState := m.connState
  seqno := m.seqno
  ackno := m.ackno
  receivedSegment := received
  sentSegmentAttr := attr
  tdState := m.tdState
  tim := m.tim
  timer := m.timer
  rtTimeout := m.rtTimeout
  tearDownNums := nums
  trace := m.trace

/-- `received_segment`, followed. -/
def receivedContents (h : Heap Cell) : Option Addr → SegmentPtr
  | none => .null
  | some a =>
    match segmentAt h a with
    | some segment => .live segment
    | none => .freed

/-- `sent_segment_attr`, followed. -/
def attrContents (h : Heap Cell) (ptr : Option Addr) : Option SegmentAttr :=
  ptr.bind fun a => (attrAt h a).bind fun (noOfTimes, time, segment) =>
    (segmentAt h segment).map fun segment => ⟨noOfTimes, time, segment⟩

/-- `tear_down_nums`, followed. -/
def numsContents (h : Heap Cell) (ptr : Option Addr) : Option TearDownNums :=
  ptr.bind fun a =>
    match h.read a with
    | some (.nums nums) => some nums
    | _ => none

/-- **The state that a memory stands for.** -/
def Memory.contents (m : Memory) : CtcpState :=
  m.view (receivedContents m.heap m.receivedSegment) (attrContents m.heap m.sentSegmentAttr)
    (numsContents m.heap m.tearDownNums)

/-- What `received_segment` leads to, and the block that it owns. -/
inductive ReceivedAt (h : Heap Cell) :
    Option Addr → SegmentPtr → Multiset (Addr × Cell) → Prop
  | null : ReceivedAt h none .null 0
  | live (a : Addr) (segment : CtcpSegment) :
      ReceivedAt h (some a) (.live segment) {(a, .segment segment)}
  | freed (a : Addr) (hdead : Dead h a) : ReceivedAt h (some a) .freed 0

/-- What `sent_segment_attr` leads to, and the two blocks that it owns. -/
inductive AttrAt : Option Addr → Option SegmentAttr → Multiset (Addr × Cell) → Prop
  | null : AttrAt none none 0
  | block (a b : Addr) (attr : SegmentAttr) :
      AttrAt (some a) (some attr)
        ({(a, .attr attr.noOfTimes attr.time b)} + {(b, .segment attr.segment)})

/-- What `tear_down_nums` leads to, and the block that it owns. -/
inductive NumsAt : Option Addr → Option TearDownNums → Multiset (Addr × Cell) → Prop
  | null : NumsAt none none 0
  | block (a : Addr) (nums : TearDownNums) : NumsAt (some a) (some nums) {(a, .nums nums)}

/-- `_segment_send` keeps no pointer to this segment. -/
def abandons : Event → Bool
  | .send segment sent => sent < 0 || (segment.data.isEmpty && ntohl segment.flags &&& FIN == 0)
  | _ => false

/-- The segments that have been abandoned. -/
def abandoned (trace : List Event) : Nat := trace.countP abandons

/-- **The memory of a live connection**: the blocks of the state, of its pointers and of the caller
    are all different and hold what they should, and whatever else is allocated is lost. -/
inductive Holds (m : Memory) (locals : Multiset (Addr × Cell)) : CtcpState → Prop
  | intro (received : SegmentPtr) (attr : Option SegmentAttr) (nums : Option TearDownNums)
      (base r a n lost : Multiset (Addr × Cell))
      (hbase : base = {(m.self, .state)} + {(m.segmentsSend, .list)})
      (hreceived : ReceivedAt m.heap m.receivedSegment received r)
      (hattr : AttrAt m.sentSegmentAttr attr a) (hnums : NumsAt m.tearDownNums nums n)
      (hhas : Has m.heap (base + n + a + r + locals + lost))
      (hlost : abandoned m.trace ≤ lost.card) :
      Holds m locals (m.view received attr nums)

theorem ReceivedAt.later {h h' : Heap Cell} {ptr : Option Addr} {received : SegmentPtr}
    {r : Multiset (Addr × Cell)} (hreceived : ReceivedAt h ptr received r)
    (hlater : Outlives h h') : ReceivedAt h' ptr received r := by
  cases hreceived with
  | null => exact .null
  | live a segment => exact .live a segment
  | freed a hdead => exact .freed a (hlater a hdead)

section Functions

variable {m : Memory} {locals : Multiset (Addr × Cell)} {state : CtcpState}

theorem segmentAt_of_mem {h : Heap Cell} {a : Addr} {segment : CtcpSegment}
    {cells : Multiset (Addr × Cell)} (hhas : Has h cells) (hmem : (a, .segment segment) ∈ cells) :
    segmentAt h a = some segment := by
  rw [segmentAt, hhas.read hmem]

theorem attrAt_of_mem {h : Heap Cell} {a b : Addr} {noOfTimes time : UInt16}
    {cells : Multiset (Addr × Cell)} (hhas : Has h cells)
    (hmem : (a, .attr noOfTimes time b) ∈ cells) : attrAt h a = some (noOfTimes, time, b) := by
  rw [attrAt, hhas.read hmem]

theorem abandoned_append (trace trace' : List Event) :
    abandoned (trace ++ trace') = abandoned trace + abandoned trace' := List.countP_append

theorem Holds.exists_view (hholds : Holds m locals state) :
    ∃ received attr nums, state = m.view received attr nums := by
  obtain ⟨received, attr, nums⟩ := hholds
  exact ⟨received, attr, nums, rfl⟩

theorem Holds.conn_eq (hholds : Holds m locals state) : state.conn = m.conn := by
  obtain ⟨received, attr, nums, rfl⟩ := hholds.exists_view
  rfl

/-- Other events are no loss. -/
theorem Holds.log (hholds : Holds m locals state) {events : List Event}
    (hevents : abandoned events = 0) : Holds (m.log events) locals (state.log events) := by
  obtain ⟨received, attr, nums, base, r, a, n, lost, hbase, hreceived, hattr, hnums, hhas, hlost⟩ :=
    hholds
  refine .intro received attr nums base r a n lost hbase hreceived hattr hnums hhas ?_
  show abandoned (m.trace ++ events) ≤ _
  rw [abandoned_append, hevents]
  exact hlost

/-- An abandoned segment is a block that is lost. -/
theorem Holds.abandon {cell : Addr × Cell} (hholds : Holds m ({cell} + locals) state)
    (event : Event) : Holds (m.log [event]) locals (state.log [event]) := by
  obtain ⟨received, attr, nums, base, r, a, n, lost, hbase, hreceived, hattr, hnums, hhas, hlost⟩ :=
    hholds
  refine .intro received attr nums base r a n ({cell} + lost) hbase hreceived hattr hnums
    (hhas.of_eq (by abel)) ?_
  have hone : abandoned [event] ≤ 1 := List.countP_le_length
  show abandoned (m.trace ++ [event]) ≤ _
  rw [abandoned_append, Multiset.card_add, Multiset.card_singleton]
  omega

/-- What the caller does not free is lost. -/
theorem Holds.drop {cells : Multiset (Addr × Cell)} (hholds : Holds m (cells + locals) state) :
    Holds m locals state := by
  obtain ⟨received, attr, nums, base, r, a, n, lost, hbase, hreceived, hattr, hnums, hhas, hlost⟩ :=
    hholds
  refine .intro received attr nums base r a n (cells + lost) hbase hreceived hattr hnums
    (hhas.of_eq (by abel)) ?_
  rw [Multiset.card_add]
  exact Nat.le_add_left_of_le hlost

/-- A new block is the caller's. -/
theorem Holds.alloc (hholds : Holds m locals state) {cell : Cell} {block : Addr}
    {heap : Heap Cell} (halloc : m.heap.alloc cell = (block, heap)) :
    Holds { m with heap := heap } ({(block, cell)} + locals) state := by
  obtain ⟨received, attr, nums, base, r, a, n, lost, hbase, hreceived, hattr, hnums, hhas, hlost⟩ :=
    hholds
  obtain ⟨hhas, hlater⟩ := hhas.alloc halloc
  exact .intro received attr nums base r a n lost hbase (hreceived.later hlater) hattr hnums
    (hhas.of_eq (by abel)) hlost

/-- The caller's block is read. -/
theorem Holds.readBlock {block : Addr} {segment : CtcpSegment}
    (hholds : Holds m ({(block, .segment segment)} + locals) state) :
    segmentAt m.heap block = some segment := by
  obtain ⟨received, attr, nums, base, r, a, n, lost, hbase, hreceived, hattr, hnums, hhas, hlost⟩ :=
    hholds
  exact segmentAt_of_mem hhas (by simp)

/-- `_save_sent_segment`: the attributes of before are lost. -/
theorem Holds.save {block : Addr} {segment : CtcpSegment}
    (hholds : Holds m ({(block, .segment segment)} + locals) state) :
    Holds (saveSentSegment m block) locals (Ctcp.saveSentSegment state segment) := by
  obtain ⟨received, attr, nums, base, r, a, n, lost, hbase, hreceived, hattr, hnums, hhas, hlost⟩ :=
    hholds
  obtain ⟨block', heap, halloc⟩ : ∃ block' heap,
      m.heap.alloc (.attr 0 0 block) = (block', heap) := ⟨_, _, rfl⟩
  obtain ⟨hhas, hlater⟩ := hhas.alloc halloc
  unfold saveSentSegment
  rw [halloc]
  refine .intro received (some ⟨0, 0, segment⟩) nums base r
    ({(block', .attr 0 0 block)} + {(block, .segment segment)}) n (a + lost) hbase
    (hreceived.later hlater) (.block block' block ⟨0, 0, segment⟩) hnums
    (hhas.of_eq (by abel)) ?_
  rw [Multiset.card_add]
  exact Nat.le_add_left_of_le hlost

/-- `tear_down_nums`: those of before are lost. -/
theorem Holds.setNums (hholds : Holds m locals state) {nums : TearDownNums} {block : Addr}
    {heap : Heap Cell} (halloc : m.heap.alloc (.nums nums) = (block, heap)) (seqno : UInt32) :
    Holds { m with heap := heap, seqno := seqno, tearDownNums := some block } locals
      { state with seqno := seqno, tearDownNums := some nums } := by
  obtain ⟨received, attr, old, base, r, a, n, lost, hbase, hreceived, hattr, hnums, hhas, hlost⟩ :=
    hholds
  obtain ⟨hhas, hlater⟩ := hhas.alloc halloc
  refine .intro received attr (some nums) base r a {(block, .nums nums)} (n + lost) hbase
    (hreceived.later hlater) hattr (.block block nums) (hhas.of_eq (by abel)) ?_
  rw [Multiset.card_add]
  exact Nat.le_add_left_of_le hlost

theorem Holds.setSeqno (hholds : Holds m locals state) (seqno : UInt32) :
    Holds { m with seqno := seqno } locals { state with seqno := seqno } := by
  obtain ⟨received, attr, nums, base, r, a, n, lost, hbase, hreceived, hattr, hnums, hhas, hlost⟩ :=
    hholds
  exact .intro received attr nums base r a n lost hbase hreceived hattr hnums hhas hlost

theorem Holds.setAckno (hholds : Holds m locals state) (ackno : UInt32) :
    Holds { m with ackno := ackno } locals { state with ackno := ackno } := by
  obtain ⟨received, attr, nums, base, r, a, n, lost, hbase, hreceived, hattr, hnums, hhas, hlost⟩ :=
    hholds
  exact .intro received attr nums base r a n lost hbase hreceived hattr hnums hhas hlost

theorem Holds.setConnState (hholds : Holds m locals state) (connState : ConnState) :
    Holds { m with connState := connState } locals { state with connState := connState } := by
  obtain ⟨received, attr, nums, base, r, a, n, lost, hbase, hreceived, hattr, hnums, hhas, hlost⟩ :=
    hholds
  exact .intro received attr nums base r a n lost hbase hreceived hattr hnums hhas hlost

theorem Holds.setConn (hholds : Holds m locals state) (conn : Conn) :
    Holds { m with conn := conn } locals { state with conn := conn } := by
  obtain ⟨received, attr, nums, base, r, a, n, lost, hbase, hreceived, hattr, hnums, hhas, hlost⟩ :=
    hholds
  exact .intro received attr nums base r a n lost hbase hreceived hattr hnums hhas hlost

theorem Holds.setWait (hholds : Holds m locals state) (tim : UInt16) (tdState : TdState) :
    Holds { m with tim := tim, tdState := tdState } locals
      { state with tim := tim, tdState := tdState } := by
  obtain ⟨received, attr, nums, base, r, a, n, lost, hbase, hreceived, hattr, hnums, hhas, hlost⟩ :=
    hholds
  exact .intro received attr nums base r a n lost hbase hreceived hattr hnums hhas hlost

/-- A segment with data or a FIN is not abandoned, if it could be sent. -/
theorem abandoned_kept (seqno ackno flags : UInt32) {len : Nat} {data : List UInt8} {sent : Int}
    (hsent : ¬ sent < 0) (hdata : data.length = len - segmentHdrSize)
    (hkept : 0 < len - segmentHdrSize ∨ flags &&& FIN ≠ 0) :
    abandoned [.send (buildSegment seqno ackno flags len data) sent] = 0 := by
  have hnot : abandons (.send (buildSegment seqno ackno flags len data) sent) = false := by
    unfold abandons
    rcases hkept with hlen | hfin
    · have hne : data ≠ [] := by
        rintro rfl
        rw [List.length_nil] at hdata
        omega
      simp [hsent, ← hdata, hne]
    · simp [hsent, hfin]
  rw [abandoned, List.countP_singleton, hnot]
  rfl

/-- **`_segment_send`**: on both levels the same. -/
theorem segmentSend_spec (hholds : Holds m locals state) (flags : UInt32) (len : Nat)
    (data : List UInt8) (sent : Int) (hdata : data.length = len - segmentHdrSize) :
    Ok (fun result => Holds result.1 locals (Ctcp.segmentSend state flags len data sent).1 ∧
        result.2 = (Ctcp.segmentSend state flags len data sent).2 ∧
        result.1.receivedSegment = m.receivedSegment)
      (segmentSend m flags len data sent) := by
  obtain ⟨received, attr, nums, rfl⟩ := hholds.exists_view
  obtain ⟨block, heap, halloc⟩ : ∃ block heap,
      m.heap.alloc (.segment (buildSegment m.seqno m.ackno flags len data)) = (block, heap) :=
    ⟨_, _, rfl⟩
  have hnew := hholds.alloc halloc
  have hread : segmentAt heap block = some _ := hnew.readBlock
  unfold segmentSend Ctcp.segmentSend
  simp only [halloc, hread, Option.bind_eq_bind, Option.bind_some]
  by_cases hsent : sent < 0
  · rw [if_pos hsent, if_pos hsent]
    exact ok_some ⟨hnew.abandon _, rfl, rfl⟩
  rw [if_neg hsent, if_neg hsent]
  by_cases hfin : flags &&& FIN ≠ 0
  · -- a FIN takes a sequence number, and is outstanding
    have hsave : 0 < len - segmentHdrSize ∨ flags &&& FIN ≠ 0 := Or.inr hfin
    have hlogged := hnew.log (abandoned_kept m.seqno m.ackno flags hsent hdata hsave)
    rw [if_pos hsave, if_pos hfin, if_pos hfin, if_pos hsave]
    obtain ⟨block', heap', halloc'⟩ : ∃ block' heap',
        heap.alloc (.nums ⟨m.seqno + 1, m.ackno⟩) = (block', heap') := ⟨_, _, rfl⟩
    have hnums := hlogged.setNums halloc' (m.seqno + 1)
    refine ok_some ⟨?_, rfl, rfl⟩
    show Holds (saveSentSegment { m with
      heap := (heap.alloc (.nums ⟨m.seqno + 1, m.ackno⟩)).2
      seqno := m.seqno + 1
      tearDownNums := some (heap.alloc (.nums ⟨m.seqno + 1, m.ackno⟩)).1
      trace := m.trace ++ _ } block) locals _
    rw [halloc']
    exact hnums.save
  rw [if_neg hfin, if_neg hfin]
  by_cases hlen : 0 < len - segmentHdrSize
  · have hsave : 0 < len - segmentHdrSize ∨ flags &&& FIN ≠ 0 := Or.inl hlen
    have hlogged := hnew.log (abandoned_kept m.seqno m.ackno flags hsent hdata hsave)
    rw [if_pos hsave, if_pos hsave]
    exact ok_some
      ⟨(hlogged.setSeqno (m.seqno + UInt32.ofNat (len - segmentHdrSize))).save, rfl, rfl⟩
  · have hsave : ¬ (0 < len - segmentHdrSize ∨ flags &&& FIN ≠ 0) :=
      fun h => h.elim hlen hfin
    rw [if_neg hsave, if_neg hsave]
    exact ok_some
      ⟨(hnew.abandon _).setSeqno (m.seqno + UInt32.ofNat (len - segmentHdrSize)), rfl, rfl⟩

/-- **`_destroy_acked_segment`** frees both blocks of the outstanding segment. -/
theorem destroyAckedSegment_spec (hholds : Holds m locals state) :
    Ok (fun m' => Holds m' locals (Ctcp.destroyAckedSegment state) ∧
        m'.receivedSegment = m.receivedSegment)
      (destroyAckedSegment m) := by
  obtain ⟨received, attr, nums, base, r, a, n, lost, hbase, hreceived, hattr, hnums, hhas, hlost⟩ :=
    hholds
  unfold destroyAckedSegment
  generalize hptr : m.sentSegmentAttr = ptr at hattr
  cases hattr with
  | null =>
    refine ok_some
      ⟨.intro received none nums base r 0 n lost hbase hreceived ?_ hnums hhas hlost, rfl⟩
    exact hptr ▸ .null
  | block a b attr =>
    dsimp only
    have hread : attrAt m.heap a = some (attr.noOfTimes, attr.time, b) :=
      attrAt_of_mem hhas (by simp)
    rw [hread]
    have hsegment : Has m.heap ({(b, .segment attr.segment)} +
        ({(a, .attr attr.noOfTimes attr.time b)} + (base + n + r + locals + lost))) :=
      hhas.of_eq (by abel)
    refine hsegment.free.bind fun heap hheap => ?_
    refine hheap.1.free.bind fun heap' hheap' => ?_
    have hlater := hheap.2.1.trans hheap'.2.1
    exact ok_some ⟨.intro received none nums base r 0 n lost hbase (hreceived.later hlater) .null
      hnums (hheap'.1.of_eq (by abel)) hlost, rfl⟩

/-- The caller's block is freed. -/
theorem freeBlock_spec {block : Addr} {cell : Cell}
    (hholds : Holds m ({(block, cell)} + locals) state) :
    Ok (fun m' => Holds m' locals state) (freeBlock m block) := by
  obtain ⟨received, attr, nums, base, r, a, n, lost, hbase, hreceived, hattr, hnums, hhas, hlost⟩ :=
    hholds
  have hcell : Has m.heap ({(block, cell)} + (base + n + a + r + locals + lost)) :=
    hhas.of_eq (by abel)
  refine hcell.free.bind fun heap hheap => ?_
  exact ok_some (.intro received attr nums base r a n lost hbase (hreceived.later hheap.2.1) hattr
    hnums hheap.1 hlost)

/-- The received segment is freed, and the pointer to it stays. -/
theorem freeReceived_spec {block : Addr} {segment : CtcpSegment} (hholds : Holds m locals state)
    (hptr : m.receivedSegment = some block) (hlive : state.receivedSegment = .live segment) :
    Ok (fun m' => Holds m' locals (freeReceivedSegment state)) (freeBlock m block) := by
  obtain ⟨received, attr, nums, base, r, a, n, lost, hbase, hreceived, hattr, hnums, hhas, hlost⟩ :=
    hholds
  obtain rfl : received = .live segment := hlive
  generalize hreceivedPtr : m.receivedSegment = ptr at hreceived
  cases hreceived with
  | live block' segment =>
    obtain rfl : block' = block := Option.some.inj (hreceivedPtr.symm.trans hptr)
    have hcell : Has m.heap ({(block', .segment segment)} + (base + n + a + locals + lost)) :=
      hhas.of_eq (by abel)
    refine hcell.free.bind fun heap hheap => ?_
    refine ok_some (.intro .freed attr nums base 0 a n lost hbase ?_ hattr hnums
      (hheap.1.of_eq (by abel)) hlost)
    exact hptr ▸ .freed block' hheap.2.2

/-- After `ctcp_destroy` there is no state any more; what is left is lost. -/
structure Ended (m : Memory) (state : CtcpState) : Prop where
  dead : state.conn.deleteMe = true
  conn : m.conn = state.conn
  trace : m.trace = state.trace
  lost : abandoned m.trace ≤ m.heap.cells.length

/-- **`ctcp_destroy`** frees what it frees once. -/
theorem ctcpDestroy_spec (hholds : Holds m locals state) :
    Ok (fun m' => Ended m' (Ctcp.ctcpDestroy state)) (ctcpDestroy m) := by
  obtain ⟨received, attr, nums, base, r, a, n, lost, hbase, hreceived, hattr, hnums, hhas, hlost⟩ :=
    hholds
  have hlist : Has m.heap ({(m.segmentsSend, .list)} +
      (n + ({(m.self, .state)} + (a + r + locals + lost)))) :=
    hhas.of_eq (by rw [hbase]; abel)
  refine hlist.free.bind fun heap hheap => ?_
  have hfree : Ok (fun heap' => Has heap' ({(m.self, .state)} + (a + r + locals + lost)))
      (freePtr heap m.tearDownNums) := by
    generalize m.tearDownNums = ptr at hnums
    cases hnums with
    | null => exact ok_some (hheap.1.of_eq (by abel))
    | block b nums =>
      obtain ⟨heap', hsome, hheap', -⟩ := hheap.1.free
      exact ⟨heap', hsome, hheap'⟩
  refine hfree.bind fun heap' hheap' => ?_
  refine hheap'.free.bind fun heap'' hheap'' => ?_
  refine ok_some ⟨rfl, rfl, rfl, ?_⟩
  show abandoned (m.trace ++ [.destroy]) ≤ heap''.cells.length
  rw [hheap''.1.card, abandoned_append]
  simp only [Multiset.card_add]
  have hnone : abandoned [.destroy] = 0 := rfl
  omega

/-- A connection and its memory: live, or destroyed. -/
inductive Follows (m : Memory) (state : CtcpState) : Prop
  | live (hholds : Holds m 0 state)
  | ended (hended : Ended m state)

/-- The outstanding segment is there on both levels or on none. -/
theorem Holds.slot (hholds : Holds m locals state) :
    m.sentSegmentAttr = none ↔ state.sentSegmentAttr = none := by
  obtain ⟨received, attr, nums, base, r, a, n, lost, hbase, hreceived, hattr, hnums, hhas, hlost⟩ :=
    hholds
  show m.sentSegmentAttr = none ↔ attr = none
  generalize m.sentSegmentAttr = ptr at hattr
  cases hattr with
  | null => exact iff_of_true rfl rfl
  | block a b attr => exact iff_of_false (Option.some_ne_none a) (Option.some_ne_none attr)

theorem connInput_spec (hholds : Holds m locals state) (input : Option Chunk) :
    Holds (connInput m input).1 locals (Ctcp.connInput state input).1 ∧
      (connInput m input).2 = (Ctcp.connInput state input).2 := by
  obtain ⟨received, attr, nums, rfl⟩ := hholds.exists_view
  unfold connInput Ctcp.connInput
  by_cases heof : m.conn.readEof = true
  · rw [if_pos heof, if_pos (by exact heof)]
    exact ⟨hholds.log rfl, rfl⟩
  · rw [if_neg heof, if_neg (by exact heof)]
    cases input with
    | none => exact ⟨(hholds.setConn { m.conn with readEof := true }).log rfl, rfl⟩
    | some chunk => exact ⟨hholds.log rfl, rfl⟩

/-- At the end of the input. -/
theorem readEof_spec (hholds : Holds m locals state) (sent : Int) :
    Ok (fun m' => Holds m' locals
        (if (Ctcp.segmentSend state FIN segmentHdrSize [] sent).2 < 0
          then (Ctcp.segmentSend state FIN segmentHdrSize [] sent).1
          else { (Ctcp.segmentSend state FIN segmentHdrSize [] sent).1 with
            connState := .tearDown }))
      (segmentSend m FIN segmentHdrSize [] sent >>= fun result =>
        if result.2 < 0 then some result.1
        else some { result.1 with connState := .tearDown }) := by
  refine (segmentSend_spec hholds FIN segmentHdrSize [] sent rfl).bind ?_
  rintro ⟨m', retval⟩ ⟨hsent, hretval, -⟩
  dsimp only at hretval ⊢
  rw [hretval]
  split
  · exact ok_some hsent
  · exact ok_some (hsent.setConnState .tearDown)

/-- **`ctcp_read`.** -/
theorem ctcpRead_spec (hholds : Holds m locals state) (input : Option Chunk) (sent : Int) :
    Ok (fun m' => Holds m' locals (Ctcp.ctcpRead state input sent)) (ctcpRead m input sent) := by
  have hslot := hholds.slot
  unfold ctcpRead Ctcp.ctcpRead
  by_cases hfree : state.sentSegmentAttr = none
  · rw [if_pos hfree, if_pos (hslot.mpr hfree)]
    obtain ⟨hinput, hbytes⟩ := connInput_spec hholds input
    generalize connInput m input = result at hinput hbytes ⊢
    generalize Ctcp.connInput state input = result' at hinput hbytes ⊢
    obtain ⟨m', bytes⟩ := result
    obtain ⟨state', bytes'⟩ := result'
    obtain rfl : bytes = bytes' := hbytes
    cases bytes with
    | none => exact readEof_spec hinput sent
    | some buffer =>
      refine (segmentSend_spec hinput ACK (buffer.length + segmentHdrSize) buffer sent
        (by rw [Nat.add_sub_cancel])).bind ?_
      rintro ⟨m'', retval⟩ ⟨hsent, -⟩
      exact ok_some hsent
  · rw [if_neg hfree, if_neg (fun h => hfree (hslot.mp h))]
    exact ok_some hholds

/-- The pointers, followed. -/
theorem Holds.contents_eq (hholds : Holds m locals state) : m.contents = state := by
  obtain ⟨received, attr, nums, base, r, a, n, lost, hbase, hreceived, hattr, hnums, hhas, hlost⟩ :=
    hholds
  have hreceived' : receivedContents m.heap m.receivedSegment = received := by
    generalize m.receivedSegment = ptr at hreceived
    cases hreceived with
    | null => rfl
    | live b segment =>
      have hread : segmentAt m.heap b = some segment := segmentAt_of_mem hhas (by simp)
      simp only [receivedContents, hread]
    | freed b hdead =>
      have hread : segmentAt m.heap b = none := by rw [segmentAt, hdead.read]
      simp only [receivedContents, hread]
  have hattr' : attrContents m.heap m.sentSegmentAttr = attr := by
    generalize m.sentSegmentAttr = ptr at hattr
    cases hattr with
    | null => rfl
    | block b c attr =>
      have hread : attrAt m.heap b = some (attr.noOfTimes, attr.time, c) :=
        attrAt_of_mem hhas (by simp)
      have hread' : segmentAt m.heap c = some attr.segment := segmentAt_of_mem hhas (by simp)
      simp only [attrContents, hread, hread', Option.bind_some, Option.map_some]
  have hnums' : numsContents m.heap m.tearDownNums = nums := by
    generalize m.tearDownNums = ptr at hnums
    cases hnums with
    | null => rfl
    | block b nums =>
      have hread : m.heap.read b = some (.nums nums) := hhas.read (by simp)
      simp only [numsContents, Option.bind_some, hread]
  rw [Memory.contents, hreceived', hattr', hnums']

/-- What is behind `received_segment`. -/
theorem Holds.received {segment : CtcpSegment} (hholds : Holds m locals state)
    (hlive : state.receivedSegment = .live segment) :
    ∃ block, m.receivedSegment = some block ∧ segmentAt m.heap block = some segment := by
  obtain ⟨received, attr, nums, base, r, a, n, lost, hbase, hreceived, hattr, hnums, hhas, hlost⟩ :=
    hholds
  obtain rfl : received = .live segment := hlive
  generalize m.receivedSegment = ptr at hreceived
  cases hreceived with
  | live block segment =>
    exact ⟨block, rfl, segmentAt_of_mem hhas (by simp)⟩

/-- **`ctcp_output`** with no segment kept: the memory fails. -/
theorem ctcpOutput_fails (hholds : Holds m locals state)
    (hdead : ∀ segment, state.receivedSegment ≠ .live segment) (env : Env) :
    ctcpOutput env m = none := by
  obtain ⟨received, attr, nums, base, r, a, n, lost, hbase, hreceived, hattr, hnums, hhas, hlost⟩ :=
    hholds
  unfold ctcpOutput
  generalize m.receivedSegment = ptr at hreceived
  cases hreceived with
  | null => rfl
  | live block segment => exact absurd rfl (hdead segment)
  | freed block hgone =>
    have hread : segmentAt m.heap block = none := by rw [segmentAt, hgone.read]
    simp only [Option.bind_eq_bind, Option.bind_some, hread, Option.bind_none]

/-- **`ctcp_output`** of a kept segment. -/
theorem ctcpOutput_spec {segment : CtcpSegment} (hholds : Holds m 0 state)
    (hlive : state.receivedSegment = .live segment) (env : Env) :
    Ok (fun m' => Follows m' (Ctcp.ctcpOutput env state)) (ctcpOutput env m) := by
  obtain ⟨block, hptr, hread⟩ := hholds.received hlive
  unfold ctcpOutput Ctcp.ctcpOutput
  simp only [hlive]
  refine ok_bind hptr (ok_bind hread ?_)
  by_cases hroom : env.bufspace = 0
  · rw [if_pos hroom, if_pos hroom]
    obtain ⟨m', hsome, hfreed⟩ := freeReceived_spec hholds hptr hlive
    exact ⟨m', hsome, .live hfreed⟩
  rw [if_neg hroom, if_neg hroom]
  by_cases hfits : (datalen segment).toNat ≤ env.bufspace
  · rw [if_pos hfits, if_pos hfits]
    by_cases hlen : datalen segment = 0
    · rw [if_pos hlen, if_pos hlen]
      refine (destroyAckedSegment_spec (hholds.setAckno segment.seqno)).bind ?_
      rintro m' ⟨hacked, hsame⟩
      obtain ⟨m'', hsome, hfreed⟩ := freeReceived_spec hacked (hsame.trans hptr) hlive
      exact ⟨m'', hsome, .live hfreed⟩
    · rw [if_neg hlen, if_neg hlen]
      have hresult : Ctcp.outputResult env state = outputResult env m := by
        obtain ⟨received, attr, nums, rfl⟩ := hholds.exists_view
        rfl
      have hlogged : Holds (m.log [.output segment (outputResult env m)]) 0
          (state.log [.output segment (outputResult env m)]) := hholds.log rfl
      simp only [connOutput, hresult]
      by_cases hwritten : outputResult env m < 0
      · rw [if_pos hwritten, if_pos hwritten]
        obtain ⟨m', hsome, hended⟩ := ctcpDestroy_spec hlogged
        exact ⟨m', hsome, .ended hended⟩
      · rw [if_neg hwritten, if_neg hwritten]
        -- the ACK, and then both segments are freed
        have hackno := hlogged.setAckno (segment.seqno + datalen segment)
        refine (segmentSend_spec hackno ACK segmentHdrSize [] env.sent₀ rfl).bind ?_
        rintro ⟨m', retval⟩ ⟨hsent, -, hsame⟩
        refine (destroyAckedSegment_spec hsent).bind ?_
        rintro m'' ⟨hacked, hsame'⟩
        obtain ⟨last, hsome, hfreed⟩ := freeReceived_spec hacked
          (hsame'.trans (hsame.trans hptr)) (by rw [segmentSend_ack]; exact hlive)
        exact ⟨last, hsome, .live hfreed⟩
  · rw [if_neg hfits, if_neg hfits]
    exact ok_some (.live hholds)

/-- A segment is kept: the one of before is lost. -/
theorem Holds.setReceived {block : Addr} {segment : CtcpSegment}
    (hholds : Holds m ({(block, .segment segment)} + locals) state) :
    Holds { m with receivedSegment := some block } locals
      { state with receivedSegment := .live segment } := by
  obtain ⟨received, attr, nums, base, r, a, n, lost, hbase, hreceived, hattr, hnums, hhas, hlost⟩ :=
    hholds
  refine .intro (.live segment) attr nums base {(block, .segment segment)} a n (r + lost) hbase
    (.live block segment) hattr hnums (hhas.of_eq (by abel)) ?_
  rw [Multiset.card_add]
  exact Nat.le_add_left_of_le hlost

section Receive

variable {block : Addr} {segment : CtcpSegment}

/-- The caller's block comes to nothing, where only fields of the state change. -/
theorem Holds.follows (hholds : Holds m ({(block, .segment segment)} + 0) state) :
    Follows m state := .live hholds.drop

/-- **`case DATA_TRANSFER`.** -/
theorem receiveDataTransfer_spec (hholds : Holds m ({(block, .segment segment)} + 0) state)
    (env : Env) :
    Ok (fun m' => Follows m' (Ctcp.receiveDataTransfer env state segment))
      (receiveDataTransfer env m block) := by
  unfold receiveDataTransfer Ctcp.receiveDataTransfer
  refine ok_bind hholds.readBlock ?_
  obtain ⟨received, attr, nums, rfl⟩ := hholds.exists_view
  by_cases hold : segment.seqno < m.ackno
  · rw [if_pos hold, if_pos (by exact hold)]
    exact ok_some hholds.follows
  rw [if_neg hold, if_neg (by exact hold)]
  by_cases hfin : segment.flags &&& FIN ≠ 0
  · rw [if_pos hfin, if_pos hfin]
    have heof : Holds ({ m with conn.wroteEof := true }.log [.outputEof])
        ({(block, .segment segment)} + 0) (connOutputEof (m.view received attr nums)) :=
      (hholds.setConn { m.conn with wroteEof := true }).log rfl
    have hackno := (heof.setAckno (segment.seqno + 1)).log
      (show abandoned [.acceptFin segment.seqno] = 0 from rfl)
    refine (segmentSend_spec hackno ACK segmentHdrSize [] env.sent₀ rfl).bind ?_
    rintro ⟨m', retval⟩ ⟨hack, -, -⟩
    refine (segmentSend_spec hack FIN segmentHdrSize [] env.sent₁ rfl).bind ?_
    rintro ⟨m'', retval'⟩ ⟨hsent, -, -⟩
    exact ok_some (hsent.setConnState .waitLastAck).follows
  rw [if_neg hfin, if_neg hfin]
  by_cases hack : segment.flags &&& ACK ≠ 0
  · rw [if_pos hack, if_pos hack]
    by_cases hlen : segment.len = UInt16.ofNat segmentHdrSize
    · rw [if_pos hlen, if_pos hlen]
      refine (destroyAckedSegment_spec (hholds.setAckno segment.seqno)).bind ?_
      rintro m' ⟨hacked, -⟩
      obtain ⟨m'', hsome, hfreed⟩ := freeBlock_spec hacked
      exact ⟨m'', hsome, .live hfreed⟩
    · rw [if_neg hlen, if_neg hlen]
      exact ctcpOutput_spec hholds.setReceived rfl env
  · rw [if_neg hack, if_neg hack]
    exact ok_some hholds.follows

/-- **`case WAIT_LAST_FIN`.** -/
theorem receiveWaitLastFin_spec (hholds : Holds m ({(block, .segment segment)} + 0) state)
    (env : Env) :
    Ok (fun m' => Follows m' (Ctcp.receiveWaitLastFin env state segment))
      (receiveWaitLastFin env m block) := by
  unfold receiveWaitLastFin Ctcp.receiveWaitLastFin
  refine ok_bind hholds.readBlock ?_
  by_cases hfin : segment.flags &&& FIN ≠ 0
  · rw [if_pos hfin, if_pos hfin]
    have hackno := (hholds.setAckno (segment.seqno + 1)).log
      (show abandoned [.acceptFin segment.seqno] = 0 from rfl)
    refine (segmentSend_spec hackno ACK segmentHdrSize [] env.sent₀ rfl).bind ?_
    rintro ⟨m', retval⟩ ⟨hack, -, -⟩
    exact ok_some (hack.setWait 0 .waitDestroy).follows
  · rw [if_neg hfin, if_neg hfin]
    exact ok_some hholds.follows

/-- **`case TEAR_DOWN`.** -/
theorem receiveTearDown_spec (hholds : Holds m ({(block, .segment segment)} + 0) state)
    (env : Env) :
    Ok (fun m' => Follows m' (Ctcp.receiveTearDown env state segment))
      (receiveTearDown env m block) := by
  unfold receiveTearDown Ctcp.receiveTearDown
  refine ok_bind hholds.readBlock ?_
  by_cases hack : segment.flags &&& ACK ≠ 0
  · rw [if_pos hack, if_pos hack]
    by_cases hfin : segment.flags &&& FIN ≠ 0
    · rw [if_pos hfin, if_pos hfin]
      exact ok_some (hholds.setConnState .waitLastAck).follows
    · rw [if_neg hfin, if_neg hfin]
      exact ok_some (hholds.setConnState .waitLastFin).follows
  rw [if_neg hack, if_neg hack]
  by_cases hfin : segment.flags &&& FIN ≠ 0
  · rw [if_pos hfin, if_pos hfin]
    have hackno := (hholds.setAckno (segment.seqno + 1)).log
      (show abandoned [.acceptFin segment.seqno] = 0 from rfl)
    refine (segmentSend_spec hackno ACK segmentHdrSize [] env.sent₀ rfl).bind ?_
    rintro ⟨m', retval⟩ ⟨hsent, -, -⟩
    obtain ⟨m'', hsome, hended⟩ := ctcpDestroy_spec hsent
    exact ⟨m'', hsome, .ended hended⟩
  · rw [if_neg hfin, if_neg hfin]
    exact receiveWaitLastFin_spec hholds env

/-- **`case WAIT_LAST_ACK`.** -/
theorem receiveWaitLastAck_spec (hholds : Holds m ({(block, .segment segment)} + 0) state) :
    Ok (fun m' => Follows m' (Ctcp.receiveWaitLastAck state segment))
      (receiveWaitLastAck m block) := by
  unfold receiveWaitLastAck Ctcp.receiveWaitLastAck
  refine ok_bind hholds.readBlock ?_
  by_cases hack : segment.flags &&& ACK ≠ 0
  · rw [if_pos hack, if_pos hack]
    obtain ⟨m', hsome, hended⟩ := ctcpDestroy_spec hholds
    exact ⟨m', hsome, .ended hended⟩
  · rw [if_neg hack, if_neg hack]
    exact ok_some hholds.follows

theorem receiveSegment_spec (hholds : Holds m ({(block, .segment segment)} + 0) state)
    (env : Env) :
    Ok (fun m' => Follows m' (Ctcp.receiveSegment env state segment))
      (receiveSegment env m block) := by
  have hsame : state.connState = m.connState := by
    obtain ⟨received, attr, nums, rfl⟩ := hholds.exists_view
    rfl
  unfold receiveSegment Ctcp.receiveSegment
  rw [hsame]
  cases m.connState with
  | dataTransfer => exact receiveDataTransfer_spec hholds env
  | tearDown => exact receiveTearDown_spec hholds env
  | waitLastFin => exact receiveWaitLastFin_spec hholds env
  | waitLastAck => exact receiveWaitLastAck_spec hholds
  | waitInput => exact ok_some hholds.follows

/-- The conversion in place. -/
theorem writeBlock_spec (hholds : Holds m ({(block, .segment segment)} + 0) state)
    (segment' : CtcpSegment) :
    Ok (fun heap => Holds { m with heap := heap } ({(block, .segment segment')} + 0) state)
      (m.heap.write block (.segment segment')) := by
  obtain ⟨received, attr, nums, base, r, a, n, lost, hbase, hreceived, hattr, hnums, hhas, hlost⟩ :=
    hholds
  have hcell : Has m.heap ({(block, .segment segment)} + (base + n + a + r + lost)) :=
    hhas.of_eq (by abel)
  obtain ⟨heap, hsome, hheap, hlater⟩ := hcell.write (.segment segment')
  exact ⟨heap, hsome, .intro received attr nums base r a n lost hbase (hreceived.later hlater) hattr
    hnums (hheap.of_eq (by abel)) hlost⟩

/-- **`ctcp_receive`.** -/
theorem ctcpReceive_spec (hholds : Holds m ({(block, .segment segment)} + 0) state) (env : Env)
    (len : Nat) :
    Ok (fun m' => Follows m' (Ctcp.ctcpReceive env state segment len))
      (ctcpReceive env m block len) := by
  unfold ctcpReceive Ctcp.ctcpReceive
  refine ok_bind hholds.readBlock ?_
  by_cases hvalid : isSegmentValid segment (UInt16.ofNat len) = true
  · rw [if_pos hvalid, if_pos hvalid]
    refine (writeBlock_spec hholds _).bind fun heap hconverted => ?_
    have hlogged := hconverted.log
      (show abandoned [.receive (segmentNtoh { segment with cksum := 0 })] = 0 from rfl)
    exact receiveSegment_spec hlogged env
  · rw [if_neg hvalid, if_neg hvalid]
    exact ok_some hholds.follows

end Receive

/-- A tick, with a segment outstanding. -/
theorem retransmitSegment_some {attr : SegmentAttr} (hslot : state.sentSegmentAttr = some attr) :
    Ctcp.retransmitSegment state =
      if attr.time + state.timer ≥ state.rtTimeout then
        if attr.noOfTimes + 1 ≥ (5 : UInt16) then
          Ctcp.destroyAckedSegment ({ state with
            sentSegmentAttr :=
              some ⟨attr.noOfTimes + 1, attr.time + state.timer, attr.segment⟩ }.log
            [.resend attr.segment])
        else
          { state with
            sentSegmentAttr :=
              some ⟨attr.noOfTimes + 1, attr.time + state.timer, attr.segment⟩ }.log
            [.resend attr.segment]
      else
        { state with
          sentSegmentAttr := some ⟨attr.noOfTimes, attr.time + state.timer, attr.segment⟩ } := by
  simp only [Ctcp.retransmitSegment, hslot]

/-- **The outstanding segment at a tick.** -/
theorem retransmitSegment_spec (hholds : Holds m 0 state) :
    Ok (fun m' => Holds m' 0 (Ctcp.retransmitSegment state)) (retransmitSegment m) := by
  have hholds' := hholds
  obtain ⟨received, attr, nums, base, r, a, n, lost, hbase, hreceived, hattr, hnums, hhas, hlost⟩ :=
    hholds
  unfold retransmitSegment
  generalize hptr : m.sentSegmentAttr = ptr at hattr
  cases hattr with
  | null => exact ok_some hholds'
  | block b c attr =>
    obtain ⟨noOfTimes, time, segment⟩ := attr
    rw [retransmitSegment_some (show (m.view received _ nums).sentSegmentAttr = some _ from rfl)]
    have hread : attrAt m.heap b = some (noOfTimes, time, c) := attrAt_of_mem hhas (by simp)
    refine ok_bind hread ?_
    have hcell : Has m.heap ({(b, .attr noOfTimes time c)} +
        (base + n + {(c, .segment segment)} + r + lost)) := hhas.of_eq (by abel)
    refine (hcell.write (.attr noOfTimes (time + m.timer) c)).bind ?_
    rintro heap ⟨hticked, hlater⟩
    by_cases htime : time + m.timer ≥ m.rtTimeout
    · rw [if_pos htime, if_pos (by exact htime)]
      have hsegment : segmentAt heap c = some segment := segmentAt_of_mem hticked (by simp)
      refine ok_bind hsegment ?_
      refine (hticked.write (.attr (noOfTimes + 1) (time + m.timer) c)).bind ?_
      rintro heap' ⟨hcounted, hlater'⟩
      -- the segment is sent again, and counted
      have hcounted' : Holds { m with heap := heap', sentSegmentAttr := some b } 0
          (m.view received (some ⟨noOfTimes + 1, time + m.timer, segment⟩) nums) :=
        .intro received _ nums base r
          ({(b, .attr (noOfTimes + 1) (time + m.timer) c)} + {(c, .segment segment)}) n lost hbase
          (hreceived.later (hlater.trans hlater'))
          (.block b c ⟨noOfTimes + 1, time + m.timer, segment⟩) hnums
          (hcounted.of_eq (by abel)) hlost
      have hresent := hcounted'.log (show abandoned [.resend segment] = 0 from rfl)
      by_cases hmany : noOfTimes + 1 ≥ (5 : UInt16)
      · rw [if_pos hmany, if_pos hmany]
        obtain ⟨m', hsome, hacked, -⟩ := destroyAckedSegment_spec hresent
        exact ⟨m', hsome, hacked⟩
      · rw [if_neg hmany, if_neg hmany]
        exact ok_some hresent
    · rw [if_neg htime, if_neg (by exact htime)]
      exact ok_some (.intro received (some ⟨noOfTimes, time + m.timer, segment⟩) nums base r
        ({(b, .attr noOfTimes (time + m.timer) c)} + {(c, .segment segment)}) n lost hbase
        (hreceived.later hlater) (.block b c ⟨noOfTimes, time + m.timer, segment⟩) hnums
        (hticked.of_eq (by abel)) hlost)

/-- **`retransmission_handler`.** -/
theorem retransmissionHandler_spec (hholds : Holds m 0 state) :
    Ok (fun m' => Follows m' (Ctcp.retransmissionHandler state)) (retransmissionHandler m) := by
  have hlive : ∀ {m' : Memory} {state' : CtcpState}, Holds m' 0 state' →
      Ok (fun m'' => Follows m'' (Ctcp.retransmitSegment state')) (retransmitSegment m') := by
    intro m' state' hholds'
    obtain ⟨m'', hsome, hsent⟩ := retransmitSegment_spec hholds'
    exact ⟨m'', hsome, .live hsent⟩
  have hsame : state.tdState = m.tdState := by
    obtain ⟨received, attr, nums, rfl⟩ := hholds.exists_view
    rfl
  unfold retransmissionHandler Ctcp.retransmissionHandler
  rw [hsame]
  cases htd : m.tdState with
  | notTeardown => exact hlive hholds
  | destroyed => exact hlive hholds
  | waitDestroy =>
    obtain ⟨received, attr, nums, rfl⟩ := hholds.exists_view
    have hticked := hholds.setWait (m.tim + m.timer) .waitDestroy
    dsimp only
    by_cases hexp : (m.tim + m.timer).toNat ≥ m.rtTimeout.toNat * 50
    · rw [if_pos hexp, if_pos (by exact hexp)]
      obtain ⟨m', hsome, hended⟩ := ctcpDestroy_spec hticked
      exact ⟨m', hsome, .ended hended⟩
    · rw [if_neg hexp, if_neg (by exact hexp)]
      exact hlive hticked

end Functions

/-! ## Runs -/

section Run

variable {m : Memory} {state : CtcpState}

/-- **What `conn_drain` has to respect**: it calls `ctcp_output` only while a segment is kept. -/
def DrainsKept (state : CtcpState) (call : Call) : Prop :=
  state.conn.deleteMe = false → ∀ env, call = .output env →
    ∃ segment, state.receivedSegment = .live segment

/-- A call that respects it. -/
theorem stepMemory_follows (hfollows : Follows m state) {call : Call}
    (hkept : DrainsKept state call) :
    Ok (fun m' => Follows m' (step state call)) (stepMemory m call) := by
  unfold stepMemory step
  cases hfollows with
  | ended hended =>
    have hdead : m.conn.deleteMe = true := hended.conn.symm ▸ hended.dead
    rw [if_pos hended.dead, if_pos hdead]
    exact ok_some (.ended hended)
  | live hholds =>
    have hsame := hholds.conn_eq
    by_cases hdead : state.conn.deleteMe = true
    · rw [if_pos hdead, if_pos (hsame ▸ hdead)]
      exact ok_some (.live hholds)
    rw [if_neg hdead, if_neg (hsame ▸ hdead)]
    cases call with
    | read input sent =>
      obtain ⟨m', hsome, hread⟩ := ctcpRead_spec hholds input sent
      exact ⟨m', hsome, .live hread⟩
    | receive segment len env =>
      obtain ⟨block, heap, halloc⟩ : ∃ block heap,
          m.heap.alloc (.segment segment) = (block, heap) := ⟨_, _, rfl⟩
      dsimp only
      rw [halloc]
      exact ctcpReceive_spec (hholds.alloc halloc) env len
    | output env =>
      obtain ⟨segment, hlive⟩ := hkept (Bool.eq_false_of_not_eq_true hdead) env rfl
      exact ctcpOutput_spec hholds hlive env
    | timer => exact retransmissionHandler_spec hholds

/-- A call that does not: the memory fails. -/
theorem stepMemory_fails (hfollows : Follows m state) {call : Call}
    (hnot : ¬ DrainsKept state call) : stepMemory m call = none := by
  obtain ⟨hlive, hnot⟩ := Classical.not_imp.mp hnot
  obtain ⟨env, hnot⟩ := not_forall.mp hnot
  obtain ⟨rfl, hdead⟩ := Classical.not_imp.mp hnot
  cases hfollows with
  | ended hended => cases hended.dead.symm.trans hlive
  | live hholds =>
    unfold stepMemory
    rw [← hholds.conn_eq, hlive, if_neg Bool.false_ne_true]
    exact ctcpOutput_fails hholds (not_exists.mp hdead) env

/-- A run goes on as long as the condition holds, and the two levels stay together. -/
theorem runMemory_follows (calls : List Call) (hfollows : Follows m state) :
    (Along step DrainsKept state calls →
      Ok (fun m' => Follows m' (run step state calls)) (runMemory m calls)) ∧
    (¬ Along step DrainsKept state calls → runMemory m calls = none) := by
  induction calls generalizing m state with
  | nil => exact ⟨fun _ => ok_some hfollows, fun hnot => absurd trivial hnot⟩
  | cons call calls ih =>
    by_cases hkept : DrainsKept state call
    · obtain ⟨m', hsome, hfollows'⟩ := stepMemory_follows hfollows hkept
      have hrun : runMemory m (call :: calls) = runMemory m' calls := by
        rw [runMemory, List.foldlM_cons, hsome]
        rfl
      obtain ⟨hgood, hbad⟩ := ih hfollows'
      rw [hrun]
      exact ⟨fun hall => hgood hall.2, fun hnot => hbad fun hrest => hnot ⟨hkept, hrest⟩⟩
    · have hrun : runMemory m (call :: calls) = none := by
        rw [runMemory, List.foldlM_cons, stepMemory_fails hfollows hkept]
        rfl
      exact ⟨fun hall => absurd hall.1 hkept, fun _ => hrun⟩

/-- A new connection has two blocks. -/
theorem follows_init (cfg : CtcpConfig) : Follows (ctcpInit cfg) (Ctcp.ctcpInit cfg) := by
  have hhas : Has (ctcpInit cfg).heap ({(1, .list)} + ({(0, .state)} + 0)) := rfl
  exact .live (.intro .null none none ({(0, .state)} + {(1, .list)}) 0 0 0 0 rfl .null .null .null
    (hhas.of_eq (by abel)) (Nat.zero_le _))

/-- Room for one byte. -/
def narrow : Env where
  bufspace := 1
  written := 1
  sent₀ := 20
  sent₁ := 20
  bounded := Nat.le_of_ble_eq_true rfl

/-- `conn_output` has taken this segment. -/
def delivers : Event → Bool
  | .output _ written => 0 ≤ written
  | _ => false

/-- The segments that have been delivered. -/
def delivered (trace : List Event) : Nat := trace.countP delivers

theorem abandons_ack (seqno ackno : UInt32) (sent : Int) :
    abandons (.send (ackSegment seqno ackno) sent) = true := by
  simp [abandons, ackSegment]

/-- Each delivery in the trace has its ACK. -/
def Answered (state state' : CtcpState) : Prop :=
  ∃ es, state'.trace = state.trace ++ es ∧ delivered es ≤ abandoned es

/-- Where nothing is delivered, there is nothing to answer. -/
theorem answered_of_none {state' : CtcpState} (es : List Event)
    (htrace : state'.trace = state.trace ++ es) (hnone : delivered es = 0) :
    Answered state state' := ⟨es, htrace, hnone ▸ Nat.zero_le _⟩

theorem Answered.refl (state : CtcpState) : Answered state state :=
  answered_of_none [] (List.append_nil _).symm rfl

theorem answered_output {env : Env} {state' : CtcpState} (hout : OutputOutcome env state state') :
    Answered state state' := by
  cases hout with
  | noRoom => exact answered_of_none [] (List.append_nil _).symm rfl
  | kept => exact .refl state
  | empty => exact answered_of_none [] (List.append_nil _).symm rfl
  | failed segment _ _ _ _ hwritten =>
    refine answered_of_none _ rfl ?_
    have hnot : delivers (.output segment (Ctcp.outputResult env state)) = false :=
      decide_eq_false (Int.not_le.mpr hwritten)
    rw [delivered, List.countP_cons, hnot]
    rfl
  | delivered segment _ _ _ _ hwritten =>
    refine ⟨_, rfl, ?_⟩
    have hack : abandons
        (.send (ackSegment state.seqno (segment.seqno + datalen segment)) env.sent₀) = true :=
      abandons_ack _ _ _
    have hone : delivered [.output segment (Ctcp.outputResult env state)] ≤ 1 :=
      List.countP_le_length
    have hlost : abandoned [.output segment (Ctcp.outputResult env state),
        .send (ackSegment state.seqno (segment.seqno + datalen segment)) env.sent₀] = 1 := by
      rw [abandoned, List.countP_cons_of_neg Bool.false_ne_true, List.countP_singleton, hack]
      rfl
    rw [hlost, delivered, ← List.singleton_append, List.countP_append]
    exact hone
  | fault => exact answered_of_none [.fault] rfl rfl

theorem answered_receive {env : Env} {segment : CtcpSegment} {state' : CtcpState}
    (hout : ReceiveOutcome env state segment state') : Answered state state' := by
  cases hout with
  | data _ _ _ _ _ _ hout =>
    obtain ⟨es, htrace, hle⟩ := answered_output hout
    refine ⟨.receive segment :: es, ?_, ?_⟩
    · rw [htrace, CtcpState.log_trace, List.append_assoc, List.singleton_append]
    · rw [delivered, abandoned, List.countP_cons_of_neg Bool.false_ne_true,
        List.countP_cons_of_neg Bool.false_ne_true]
      exact hle
  | _ => exact answered_of_none _ rfl rfl

theorem answered_step (state : CtcpState) (call : Call) : Answered state (step state call) := by
  have hout := step_outcome state call
  generalize step state call = state' at hout ⊢
  cases hout with
  | dead => exact .refl state
  | invalid => exact .refl state
  | read _ _ _ _ hout =>
    cases hout with
    | busy => exact .refl state
    | _ => exact answered_of_none _ rfl rfl
  | receive _ _ _ _ _ _ hout => exact answered_receive hout
  | output _ _ _ hout => exact answered_output hout
  | timer _ _ hout =>
    cases hout with
    | expired => exact answered_of_none _ rfl rfl
    | running _ _ hout =>
      cases hout with
      | idle => exact answered_of_none [] (List.append_nil _).symm rfl
      | waiting => exact answered_of_none [] (List.append_nil _).symm rfl
      | _ => exact answered_of_none _ rfl rfl

theorem delivered_le_abandoned (cfg : CtcpConfig) (calls : List Call) :
    delivered (run step (Ctcp.ctcpInit cfg) calls).trace
      ≤ abandoned (run step (Ctcp.ctcpInit cfg) calls).trace := by
  refine run_invariant (I := fun state : CtcpState => delivered state.trace ≤ abandoned state.trace)
    (fun state call hle => ?_) (Nat.le_refl 0)
  obtain ⟨es, htrace, hes⟩ := answered_step state call
  have hadd : delivered (state.trace ++ es) = delivered state.trace + delivered es :=
    List.countP_append
  show delivered (step state call).trace ≤ abandoned (step state call).trace
  rw [htrace, hadd, abandoned_append]
  omega

/-- **What is never freed**: every segment that has been delivered leaves a block behind, the one of
    its ACK, and so does every other bare ACK and every segment that could not be sent.  This is
    so after any run, also when the connection has been destroyed. -/
theorem leaks_deliveries (cfg : CtcpConfig) (calls : List Call) (m : Memory)
    (hrun : runMemory (ctcpInit cfg) calls = some m) :
    delivered m.trace ≤ abandoned m.trace ∧ abandoned m.trace ≤ m.heap.cells.length := by
  obtain ⟨hgood, hbad⟩ := runMemory_follows calls (follows_init cfg)
  have hall : Along step DrainsKept (Ctcp.ctcpInit cfg) calls := by
    refine Classical.byContradiction fun hnot => ?_
    cases (hbad hnot).symm.trans hrun
  obtain ⟨m', hsome, hfollows⟩ := hgood hall
  obtain rfl : m' = m := Option.some.inj (hsome.symm.trans hrun)
  have hle := delivered_le_abandoned cfg calls
  generalize run step (Ctcp.ctcpInit cfg) calls = state at hfollows hle
  cases hfollows with
  | ended hended => exact ⟨hended.trace ▸ hle, hended.lost⟩
  | live hholds =>
    obtain ⟨received, attr, nums, base, r, a, n, lost, -, -, -, -, hhas, hlost⟩ := hholds
    refine ⟨hle, ?_⟩
    rw [hhas.card, Multiset.card_add]
    exact Nat.le_add_left_of_le hlost

/-- Two segments, the peer's FIN and its last ACK. -/
def closingCalls : List Call :=
  [.arrival (dataSegment 1 1 [7, 8]), .arrival (dataSegment 3 1 [9]), .arrival (finSegment 4 1),
    .arrival (ackSegment 5 2)]

/-- The connection is destroyed, and seven blocks remain: the three ACKs, the FIN and its
    attributes, and the two segments that came last. -/
theorem leaks_deliveries_two :
    ∃ m, runMemory (ctcpInit ctcpCfg) closingCalls = some m ∧ m.conn.deleteMe = true ∧
      delivered m.trace = 2 ∧ m.heap.cells.length = 7 ∧
      delivered m.trace ≤ abandoned m.trace ∧ abandoned m.trace ≤ m.heap.cells.length := by
  have hsome : (runMemory (ctcpInit ctcpCfg) closingCalls).isSome = true := by decide +kernel
  have hvalues : (runMemory (ctcpInit ctcpCfg) closingCalls).map
      (fun m => (m.conn.deleteMe, delivered m.trace, m.heap.cells.length)) = some (true, 2, 7) := by
    decide +kernel
  obtain ⟨m, hm⟩ := Option.isSome_iff_exists.mp hsome
  rw [hm] at hvalues
  obtain ⟨hdead, hdelivered, hlength⟩ : m.conn.deleteMe = true ∧ delivered m.trace = 2 ∧
      m.heap.cells.length = 7 := by
    simpa only [Option.map_some, Option.some.injEq, Prod.mk.injEq] using hvalues
  exact ⟨m, hm, hdead, hdelivered, hlength, leaks_deliveries _ _ m hm⟩

end Run

end Ctcp.Pointers
