/-
  The bit `POLLOUT` of `events[STDOUT_FILENO].events` (`ctcp_sys_internal.c`).

  Without a program the output of every connection goes to `STDOUT`, and one bit tells the main
  loop to wait until it can be written to again.  `conn_output` sets the bit when it leaves bytes
  in the queue.  `conn_drain` clears it first, and sets it again only after a write of a part of a
  chunk: not when `write` answers `EAGAIN`, and not for the connections that the same pass of
  `do_loop` has drained before.

  `armed_iff`: as long as some connection has output left the bit is set, in exactly the runs in
  which every pass that leaves output somewhere ends with a connection that sets the bit again
  (`PassRearms`).  `output_forgotten`: one `EAGAIN` is enough.
-/
import Ctcp.OutQueue

set_option linter.unusedVariables false

namespace Ctcp.OutQueue

open Runs TailQueue

/-! ## The main loop -/

/-- The connections, in the order of `next`, and the bit `POLLOUT`. -/
structure Poll where
  conns : List OutConn
  pollOut : Bool

/-- After `setup_poll`. -/
def Poll.init : Poll := ⟨[], true⟩

/-- The drain pass of `do_loop`: `conn_drain` on each connection in turn; `drains i` is what
    happens in the call for connection `i`. -/
def drainPass : List OutConn → (Nat → Drain) → Bool → List OutConn × Bool
  | [], _, pollOut => ([], pollOut)
  | conn :: conns, drains, _ =>
    let (conn, pollOut) := connDrain false conn (drains 0)
    let (conns, pollOut) := drainPass conns (fun i => drains (i + 1)) pollOut
    (conn :: conns, pollOut)

/-- What happens to the output of the connections. -/
inductive PollOp where
  /-- `conn_add`. -/
  | connect
  /-- `conn_output` on connection `i`. -/
  | output (i : Nat) (call : OutputCall)
  /-- `conn_remove` of connection `i`. -/
  | remove (i : Nat)
  | pass (drains : Nat → Drain)

/-- `conn_output` on a connection: the assertion holds, and the length is an `int`. -/
def outputOn (call : OutputCall) (conn : OutConn) (pollOut : Bool) : OutConn × Bool :=
  if conn.deleteMe = false ∧ call.buf.length < 2 ^ 31 then
    let (conn, pollOut, _) := connOutput false conn pollOut call
    (conn, pollOut)
  else (conn, pollOut)

/-- `conn_remove` of a connection. -/
def removeOn (conn : OutConn) (pollOut : Bool) : OutConn × Bool :=
  ({ conn with deleteMe := true }, pollOut)

/-- A call on connection `i`. -/
def Poll.at (s : Poll) (i : Nat) (f : OutConn → Bool → OutConn × Bool) : Poll :=
  match s.conns[i]? with
  | none => s
  | some conn =>
    let (conn, pollOut) := f conn s.pollOut
    ⟨s.conns.set i conn, pollOut⟩

/-- One operation. -/
def pollStep (s : Poll) : PollOp → Poll
  | .connect => { s with conns := OutConn.init :: s.conns }
  | .output i call => s.at i (outputOn call)
  | .remove i => s.at i removeOn
  | .pass drains =>
    let (conns, pollOut) := drainPass s.conns drains s.pollOut
    ⟨conns, pollOut⟩

/-- There is output to be written, and it can still be written. -/
def Waiting (conn : OutConn) : Prop :=
  conn.deleteMe = false ∧ conn.wroteErr = false ∧ conn.queue.head ≠ none

/-- **No output is forgotten**: while a connection waits, the bit is set. -/
def Armed (s : Poll) : Prop := (∃ conn ∈ s.conns, Waiting conn) → s.pollOut = true

/-! ## The condition -/

/-- A call of `conn_output` leaves bytes in the queue, behind `chunks`: there is room, and `write`
    does not take everything. -/
def Keeps (conn : OutConn) (chunks : List OutChunk) (call : OutputCall) : Prop :=
  conn.wroteEof = false ∧ 0 < call.buf.length ∧ (pending chunks).length < maxBufSpace ∧
    (chunks = [] → call.write ≠ .error ∧ call.write.taken call.buf.length < call.buf.length)

/-- `ctcp_output` has room for what it finds, and `conn_output` leaves bytes in the queue. -/
def Queues (conn : OutConn) (chunks : List OutChunk) (output : Option OutputCall) : Prop :=
  ∃ call, output = some call ∧ (pending chunks).length + call.buf.length ≤ maxBufSpace ∧
    Keeps conn chunks call

/-- The chunks of a connection. -/
def OutConn.chunks (conn : OutConn) : List OutChunk := conn.queue.toList maxBufSpace

/-- The first `k` answers of `write` are for whole chunks. -/
def TakesWhole (chunks : List OutChunk) (writes : List WriteResult) (k : Nat) : Prop :=
  ∀ j, j < k → ∃ chunk n, chunks[j]? = some chunk ∧ writes[j]? = some (.wrote n) ∧ chunk.left ≤ n

/-- After whole chunks `write` takes a part of one. -/
def EndsShort (chunks : List OutChunk) (writes : List WriteResult) : Prop :=
  ∃ k chunk n, TakesWhole chunks writes k ∧
    chunks[k]? = some chunk ∧ writes[k]? = some (.wrote n) ∧ n < chunk.left

/-- After `k` whole chunks `write` answers `EAGAIN`, or there is no other chunk. -/
def Pauses (chunks : List OutChunk) (writes : List WriteResult) (k : Nat) : Prop :=
  TakesWhole chunks writes k ∧ (k < chunks.length → writes[k]?.getD .again = .again)

/-- After `k` whole chunks `ctcp_output` is called, and queues new output. -/
def Refills (conn : OutConn) (drain : Drain) (k : Nat) : Prop :=
  0 < k ∧ conn.deleteMe = false ∧ Queues conn (conn.chunks.drop k) drain.output

/-- The drain of this connection sets the bit again: `write` takes a part of a chunk, or new output
    is queued. -/
def Rearms (conn : OutConn) (drain : Drain) : Prop :=
  conn.wroteErr = false ∧
    (EndsShort conn.chunks drain.writes ∨
      ∃ k, Pauses conn.chunks drain.writes k ∧ Refills conn drain k)

/-- The drain of this connection leaves output: `write` takes a part of a chunk or answers `EAGAIN`,
    or new output is queued. -/
def Leaves (conn : OutConn) (drain : Drain) : Prop :=
  conn.deleteMe = false ∧ conn.wroteErr = false ∧
    (EndsShort conn.chunks drain.writes ∨
      ∃ k, Pauses conn.chunks drain.writes k ∧
        (k < conn.chunks.length ∨ Refills conn drain k))

/-- **If the pass leaves output anywhere, its last connection sets the bit again.** -/
def PassRearms (conns : List OutConn) (drains : Nat → Drain) : Prop :=
  (∃ i conn, conns[i]? = some conn ∧ Leaves conn (drains i)) →
    ∃ conn, conns.getLast? = some conn ∧ Rearms conn (drains (conns.length - 1))

/-- The passes of a run meet the condition. -/
def PollOk (s : Poll) : PollOp → Prop
  | .pass drains => PassRearms s.conns drains
  | _ => True

/-! ## The answers of `write` -/

section Answers

variable {chunks : List OutChunk} {chunk : OutChunk} {writes : List WriteResult} {k n : Nat}

theorem TakesWhole.cons (hle : chunk.left ≤ n) (h : TakesWhole chunks writes k) :
    TakesWhole (chunk :: chunks) (.wrote n :: writes) (k + 1) := by
  intro j hj
  cases j with
  | zero => exact ⟨chunk, n, rfl, rfl, hle⟩
  | succ j => exact h j (by omega)

/-- The first chunk is written whole. -/
theorem TakesWhole.uncons (h : TakesWhole chunks writes (k + 1)) :
    ∃ chunk rest n answers, chunks = chunk :: rest ∧ writes = .wrote n :: answers ∧
      chunk.left ≤ n ∧ TakesWhole rest answers k := by
  obtain ⟨chunk, n, hchunk, hwrite, hle⟩ := h 0 (Nat.succ_pos k)
  cases chunks with
  | nil => cases hchunk
  | cons chunk' rest =>
    cases writes with
    | nil => cases hwrite
    | cons answer answers =>
      obtain rfl : chunk' = chunk := Option.some.inj hchunk
      obtain rfl : answer = .wrote n := Option.some.inj hwrite
      refine ⟨chunk', rest, n, answers, rfl, rfl, hle, ?_⟩
      intro j hj
      exact h (j + 1) (by omega)

/-- The test for a part of a chunk. -/
theorem not_short_iff :
    ¬ chunk.used + min n chunk.left < chunk.buf.length ↔ chunk.left ≤ n := by
  have hlt := chunk.lt
  unfold OutChunk.left
  omega

/-- The drain of `k` whole chunks, and no more. -/
theorem Pauses.drain (h : Pauses chunks writes k) :
    drainChunks chunks writes
      = ⟨pending (chunks.take k), chunks.drop k, if k < chunks.length then some .again else none,
          decide (0 < k)⟩ := by
  induction k generalizing chunks writes with
  | zero =>
    obtain ⟨-, hend⟩ := h
    cases chunks with
    | nil => simp [drainChunks]
    | cons chunk chunks =>
      cases writes with
      | nil => simp [drainChunks]
      | cons answer writes =>
        obtain rfl : answer = .again := hend (Nat.succ_pos _)
        simp [drainChunks]
  | succ k ih =>
    obtain ⟨hwhole, hend⟩ := h
    obtain ⟨chunk, rest, n, answers, rfl, rfl, hle, hrest⟩ := hwhole.uncons
    have hpauses : Pauses rest answers k := ⟨hrest, fun hk => hend (Nat.succ_lt_succ hk)⟩
    rw [drainChunks_whole (not_short_iff.mpr hle), ih hpauses]
    simp

/-- The drain ends with a part of a chunk. -/
theorem EndsShort.drain (h : EndsShort chunks writes) :
    (drainChunks chunks writes).short = true := by
  obtain ⟨k, chunk, n, hwhole, hchunk, hwrite, hlt⟩ := h
  induction k generalizing chunks writes with
  | zero =>
    cases chunks with
    | nil => cases hchunk
    | cons chunk' chunks =>
      cases writes with
      | nil => cases hwrite
      | cons answer writes =>
        obtain rfl : chunk' = chunk := Option.some.inj hchunk
        obtain rfl : answer = .wrote n := Option.some.inj hwrite
        have hshort : chunk'.used + min n chunk'.left < chunk'.buf.length := by
          rw [OutChunk.left] at hlt ⊢
          omega
        rw [drainChunks_short hshort]
        rfl
  | succ k ih =>
    obtain ⟨first, rest, m, answers, rfl, rfl, hle, hrest⟩ := hwhole.uncons
    rw [drainChunks_whole (not_short_iff.mpr hle)]
    exact ih hrest hchunk hwrite

/-- **Every drain** ends with a part of a chunk, with a pause, or with an error. -/
theorem drain_cases (chunks : List OutChunk) (writes : List WriteResult) :
    EndsShort chunks writes ∨ (∃ k, Pauses chunks writes k) ∨
      (drainChunks chunks writes).stop = some .error := by
  have hstart : ∀ chunks writes, TakesWhole chunks writes 0 := by
    intro chunks writes j hj
    omega
  induction chunks, writes using drainChunks.induct with
  | case1 writes => exact Or.inr (Or.inl ⟨0, hstart _ _, fun hk => absurd hk (Nat.lt_irrefl 0)⟩)
  | case2 chunk chunks => exact Or.inr (Or.inl ⟨0, hstart _ _, fun _ => rfl⟩)
  | case3 chunk chunks writes => exact Or.inr (Or.inr rfl)
  | case4 chunk chunks writes => exact Or.inr (Or.inl ⟨0, hstart _ _, fun _ => rfl⟩)
  | case5 chunk chunks n writes w h =>
    refine Or.inl ⟨0, chunk, n, hstart _ _, rfl, rfl, ?_⟩
    exact Nat.lt_of_not_le fun hle => not_short_iff.mpr hle h
  | case6 chunk chunks n writes w h ih =>
    have hle : chunk.left ≤ n := not_short_iff.mp h
    rw [drainChunks_whole h]
    rcases ih with ⟨k, chunk', m, hwhole, hchunk, hwrite, hlt⟩ | ⟨k, hwhole, hend⟩ | herror
    · exact Or.inl ⟨k + 1, chunk', m, hwhole.cons hle, hchunk, hwrite, hlt⟩
    · exact Or.inr (Or.inl ⟨k + 1, hwhole.cons hle, fun hk => hend (Nat.lt_of_succ_lt_succ hk)⟩)
    · exact Or.inr (Or.inr herror)

/-- A pause is neither a write of a part of a chunk nor an error. -/
theorem Pauses.stop (h : Pauses chunks writes k) :
    (drainChunks chunks writes).short = false ∧
      (drainChunks chunks writes).stop ≠ some .error ∧
      ((drainChunks chunks writes).stop = some .again ↔ k < chunks.length) := by
  rw [h.drain]
  by_cases hk : k < chunks.length
  · simp [Drained.short, hk]
  · simp [Drained.short, hk]

theorem endsShort_iff : EndsShort chunks writes ↔ (drainChunks chunks writes).short = true := by
  refine ⟨EndsShort.drain, ?_⟩
  intro hshort
  rcases drain_cases chunks writes with hends | ⟨k, hpauses⟩ | herror
  · exact hends
  · rw [hpauses.stop.1] at hshort
    cases hshort
  · simp [Drained.short, herror] at hshort

theorem pauses_again_iff :
    (∃ k, Pauses chunks writes k ∧ k < chunks.length) ↔
      (drainChunks chunks writes).stop = some .again := by
  constructor
  · rintro ⟨k, hpauses, hk⟩
    exact hpauses.stop.2.2.mpr hk
  · intro hagain
    rcases drain_cases chunks writes with hends | ⟨k, hpauses⟩ | herror
    · have hshort := hends.drain
      simp [Drained.short, hagain] at hshort
    · exact ⟨k, hpauses, hpauses.stop.2.2.mp hagain⟩
    · rw [hagain] at herror
      cases herror

/-- A pause after something was written, in terms of what the drain leaves. -/
theorem pauses_outputted_iff {P : List OutChunk → Prop} :
    (∃ k, Pauses chunks writes k ∧ 0 < k ∧ P (chunks.drop k)) ↔
      (drainChunks chunks writes).short = false ∧
        (drainChunks chunks writes).stop ≠ some .error ∧
        (drainChunks chunks writes).outputted = true ∧ P (drainChunks chunks writes).rest := by
  constructor
  · rintro ⟨k, hpauses, hpos, hrest⟩
    obtain ⟨hshort, herror, -⟩ := hpauses.stop
    refine ⟨hshort, herror, ?_⟩
    rw [hpauses.drain]
    exact ⟨decide_eq_true hpos, hrest⟩
  · rintro ⟨hshort, herror, hout, hrest⟩
    rcases drain_cases chunks writes with hends | ⟨k, hpauses⟩ | herror'
    · rw [hends.drain] at hshort
      cases hshort
    · rw [hpauses.drain] at hout hrest
      exact ⟨k, hpauses, of_decide_eq_true hout, hrest⟩
    · exact absurd herror' herror

end Answers

/-! ## One call -/

section Calls

variable {conn : OutConn} {chunks : List OutChunk}

theorem waiting_iff (h : Holds conn.queue chunks) :
    Waiting conn ↔ conn.deleteMe = false ∧ conn.wroteErr = false ∧ chunks ≠ [] := by
  rw [Waiting, ne_eq, h.head_eq_none]

/-- What a call of `conn_output` does to the bit, and to the output that waits. -/
theorem connOutput_effect (h : QueueInv conn chunks) (hlive : conn.deleteMe = false)
    (pollOut : Bool) (call : OutputCall) :
    let result := connOutput false conn pollOut call
    (result.2.1 = true ↔ pollOut = true ∨ conn.wroteErr = false ∧ Keeps conn chunks call) ∧
      (Waiting result.1 ↔ conn.wroteErr = false ∧ (chunks ≠ [] ∨ Keeps conn chunks call)) ∧
      (result.2.2 < 0 → ¬ Waiting result.1) ∧ ∃ chunks', QueueInv result.1 chunks' := by
  have hspace := connBufspace_eq h
  have hcount := h.count
  obtain ⟨chunks', houtcome⟩ := connOutput_outcome false pollOut h.holds hlive
  have hwaiting := waiting_iff h.holds
  generalize connOutput false conn pollOut call = result at houtcome
  cases houtcome with
  | closed heof =>
    have hnot : ¬ Keeps conn chunks call := by
      rintro ⟨hopen, -⟩
      simp [heof] at hopen
    refine ⟨by simp [hnot], by simp [hwaiting, hlive, hnot], by simp, chunks, h⟩
  | eof heof hlen =>
    have hnot : ¬ Keeps conn chunks call := by
      rintro ⟨-, hpos, -⟩
      omega
    have hsame : Waiting { conn with wroteEof := true } ↔ Waiting conn := Iff.rfl
    refine ⟨by simp [hnot], ?_, by simp, chunks, h.holds, h.count⟩
    rw [hsame, hwaiting]
    simp [hlive, hnot]
  | failedBefore heof hlen herr =>
    refine ⟨by simp [herr], by simp [hwaiting, herr], by simp [hwaiting, herr], chunks, h⟩
  | full hlen hroom =>
    have hnot : ¬ Keeps conn chunks call := by
      rintro ⟨-, -, hlt, -⟩
      omega
    refine ⟨by simp [hnot], by simp [hwaiting, hlive, hnot], by simp, chunks, h⟩
  | failed heof hlen herr hnil hwrite =>
    subst hnil
    have hnot : ¬ Keeps conn [] call := by
      rintro ⟨-, -, -, hpart⟩
      exact (hpart rfl).1 hwrite
    refine ⟨by simp [hnot], by simp [Waiting, hnot], by simp [Waiting], [], h.holds, h.count⟩
  | whole heof hlen herr hnil hwrite =>
    subst hnil
    have hnot : ¬ Keeps conn [] call := by
      rintro ⟨-, -, -, hpart⟩
      have hlt := (hpart rfl).2
      omega
    have hempty : conn.queue.head = none := h.holds.head_eq_none.mpr rfl
    refine ⟨by simp [hnot], ?_, by simp [Waiting, OutConn.accept, hempty], [], h.holds, h.count⟩
    simp [Waiting, OutConn.accept, hnot, hempty]
  | queued w chunk queue heof hlen herr hroom hwrite hrest hw hqueue =>
    have hlt : (pending chunks).length < maxBufSpace := by omega
    have hyes : Keeps conn chunks call := ⟨heof, hlen, hlt, hwrite⟩
    have hne : queue.head ≠ none := by
      rw [ne_eq, hqueue.head_eq_none]
      simp
    have hle : chunks.length ≤ (pending chunks).length := length_le_pending
    refine ⟨by simp [hyes, herr], ?_, ?_, _, hqueue, ?_⟩
    · simp [Waiting, OutConn.accept, hyes, hne, herr, hlive]
    · intro hneg
      exact absurd hneg (Int.not_lt.mpr (Int.natCast_nonneg _))
    · rw [List.length_append, List.length_singleton]
      omega

/-- The record of what was handed over changes nothing of this. -/
theorem handOver_effect (h : QueueInv conn chunks) (hlive : conn.deleteMe = false)
    (pollOut : Bool) (call : OutputCall) :
    let result := handOver false conn pollOut call
    (result.2.1 = true ↔ pollOut = true ∨ conn.wroteErr = false ∧ Keeps conn chunks call) ∧
      (Waiting result.1 ↔ conn.wroteErr = false ∧ (chunks ≠ [] ∨ Keeps conn chunks call)) ∧
      (result.2.2 < 0 → ¬ Waiting result.1) ∧ ∃ chunks', QueueInv result.1 chunks' := by
  obtain ⟨hbit, hleft, hfailed, chunks', hinv⟩ := connOutput_effect h hlive pollOut call
  unfold handOver
  generalize connOutput false conn pollOut call = result at *
  by_cases hpos : 0 < result.2.2
  · simp only [if_pos hpos]
    exact ⟨hbit, hleft, hfailed, chunks', hinv.holds, hinv.count⟩
  · simp only [if_neg hpos]
    exact ⟨hbit, hleft, hfailed, chunks', hinv⟩

/-- What `ctcp_output` does to them. -/
theorem ctcpOutput_effect (h : QueueInv conn chunks) (hlive : conn.deleteMe = false)
    (pollOut : Bool) (output : Option OutputCall) :
    let result := ctcpOutput false conn pollOut output
    (result.2 = true ↔ pollOut = true ∨ conn.wroteErr = false ∧ Queues conn chunks output) ∧
      (Waiting result.1 ↔ conn.wroteErr = false ∧ (chunks ≠ [] ∨ Queues conn chunks output)) ∧
      ∃ chunks', QueueInv result.1 chunks' := by
  have hspace := connBufspace_eq h
  rcases ctcpOutput_cases false conn pollOut output with
    ⟨hnone, heq⟩ | ⟨call, rfl, ⟨hpos, hle⟩, heq⟩
  · have hwaiting := waiting_iff h.holds
    have hnot : ¬ Queues conn chunks output := by
      rintro ⟨call, hcall, hfits, -, hpos, -⟩
      refine hnone call hcall ⟨hpos, ?_⟩
      omega
    rw [heq]
    refine ⟨by simp [hnot], by simp [hwaiting, hlive, hnot], chunks, h⟩
  · have hqueues : Queues conn chunks (some call) ↔ Keeps conn chunks call := by
      constructor
      · rintro ⟨_, ⟨⟩, -, hkeeps⟩
        exact hkeeps
      · intro hkeeps
        exact ⟨call, rfl, by omega, hkeeps⟩
    obtain ⟨hbit, hleft, hfailed, chunks', hinv⟩ := handOver_effect h hlive pollOut call
    rw [heq, hqueues]
    refine ⟨hbit, ?_, chunks', hinv.holds, hinv.count⟩
    rw [← hleft]
    by_cases hneg : (handOver false conn pollOut call).2.2 < 0
    · -- the connection is destroyed
      refine iff_of_false ?_ (hfailed hneg)
      rintro ⟨hdead, -⟩
      simp [hneg] at hdead
    · simp [hneg]

/-- **What `conn_drain` does to them.** -/
theorem connDrain_effect (h : QueueInv conn chunks) (drain : Drain) :
    ((connDrain false conn drain).2 = true ↔ Rearms conn drain) ∧
      (Waiting (connDrain false conn drain).1 ↔ Leaves conn drain) ∧
      ∃ chunks', QueueInv (connDrain false conn drain).1 chunks' := by
  by_cases herr : conn.wroteErr = true
  · rw [connDrain, if_pos herr]
    refine ⟨by simp [Rearms, herr], by simp [Leaves, Waiting, herr], chunks, h⟩
  have herr' : conn.wroteErr = false := Bool.eq_false_iff.mpr herr
  have hchunks : conn.chunks = chunks := by
    rw [OutConn.chunks, h.holds.toList h.count]
  have hrefills : (∃ k, Pauses chunks drain.writes k ∧ Refills conn drain k) ↔
      (drainChunks chunks drain.writes).short = false ∧
        (drainChunks chunks drain.writes).stop ≠ some .error ∧
        (drainChunks chunks drain.writes).outputted = true ∧ conn.deleteMe = false ∧
        Queues conn (drainChunks chunks drain.writes).rest drain.output := by
    unfold Refills
    rw [hchunks]
    exact pauses_outputted_iff (P := fun rest => conn.deleteMe = false ∧
      Queues conn rest drain.output)
  obtain ⟨queue, hholds, heq⟩ := connDrain_eq h.holds herr' false drain
  have hrest := not_congr (drainChunks_rest_nil chunks drain.writes)
  have hcount := Nat.le_trans (drainChunks_length chunks drain.writes) h.count
  have hopen : Queues conn (drainChunks chunks drain.writes).rest drain.output →
      conn.wroteEof = false := by
    rintro ⟨_, -, -, heof, -⟩
    exact heof
  rw [heq]
  simp only [Rearms, Leaves, hchunks, and_or_left, exists_or, endsShort_iff, pauses_again_iff,
    hrefills, herr', true_and]
  generalize drainChunks chunks drain.writes = drained at *
  have hinv : QueueInv (conn.drained queue drained) drained.rest := ⟨hholds, hcount⟩
  have hfail : (conn.drained queue drained).wroteErr = false ↔
      drained.stop ≠ some .error ∧ ¬ (conn.wroteEof = true ∧ drained.stop = none) := by
    simp [OutConn.drained]
  have hstop := drained.stop_cases
  by_cases hcall : drained.outputted = true ∧ conn.deleteMe = false
  · -- `ctcp_output` is called
    obtain ⟨hbit, hleft, hinv'⟩ := ctcpOutput_effect hinv hcall.2 drained.short drain.output
    have hsame : Queues (conn.drained queue drained) drained.rest drain.output ↔
        Queues conn drained.rest drain.output := Iff.rfl
    rw [if_pos hcall, hbit, hleft, hsame, hfail, ne_eq, ne_eq, hrest]
    refine ⟨?_, ?_, hinv'⟩
    · grind
    · grind
  · have hwaiting := waiting_iff hinv.holds
    have hlive : (conn.drained queue drained).deleteMe = conn.deleteMe := rfl
    rw [if_neg hcall]
    simp only [hwaiting, hlive, hfail, ne_eq, hrest]
    refine ⟨?_, ?_, drained.rest, hinv⟩
    · grind
    · grind

end Calls

/-! ## One pass -/

/-- The queues of all connections are as they should be. -/
def Sound (conns : List OutConn) : Prop := ∀ conn ∈ conns, ∃ chunks, QueueInv conn chunks

section Pass

variable {conns : List OutConn} (drains : Nat → Drain) (pollOut : Bool)

theorem drainPass_cons (conn : OutConn) :
    drainPass (conn :: conns) drains pollOut =
      let drained := connDrain false conn (drains 0)
      let rest := drainPass conns (fun i => drains (i + 1)) drained.2
      (drained.1 :: rest.1, rest.2) :=
  rfl

theorem sound_drainPass (h : Sound conns) : Sound (drainPass conns drains pollOut).1 := by
  induction conns generalizing drains pollOut with
  | nil => exact h
  | cons conn conns ih =>
    obtain ⟨hconn, hrest⟩ := List.forall_mem_cons.mp h
    obtain ⟨chunks, hinv⟩ := hconn
    exact List.forall_mem_cons.mpr ⟨(connDrain_effect hinv (drains 0)).2.2, ih _ _ hrest⟩

/-- The bit after a pass is what the last connection has made of it. -/
theorem drainPass_bit (h : Sound conns) (hne : conns ≠ []) :
    (drainPass conns drains pollOut).2 = true ↔
      ∃ conn, conns.getLast? = some conn ∧ Rearms conn (drains (conns.length - 1)) := by
  induction conns generalizing drains pollOut with
  | nil => exact absurd rfl hne
  | cons conn conns ih =>
    obtain ⟨⟨chunks, hinv⟩, hrest⟩ := List.forall_mem_cons.mp h
    cases conns with
    | nil =>
      have hbit := (connDrain_effect hinv (drains 0)).1
      simpa [drainPass] using hbit
    | cons conn' conns =>
      have hlast := ih (fun i => drains (i + 1)) (connDrain false conn (drains 0)).2 hrest
        (by simp)
      simpa [drainPass] using hlast

/-- A connection waits after a pass when its own drain leaves output. -/
theorem drainPass_waiting (h : Sound conns) :
    (∃ conn ∈ (drainPass conns drains pollOut).1, Waiting conn) ↔
      ∃ i conn, conns[i]? = some conn ∧ Leaves conn (drains i) := by
  induction conns generalizing drains pollOut with
  | nil => simp [drainPass]
  | cons conn conns ih =>
    obtain ⟨⟨chunks, hinv⟩, hrest⟩ := List.forall_mem_cons.mp h
    have hfirst := (connDrain_effect hinv (drains 0)).2.1
    have hlater := ih (fun i => drains (i + 1)) (connDrain false conn (drains 0)).2 hrest
    simp only [drainPass_cons, List.mem_cons, exists_eq_or_imp, hfirst, hlater]
    constructor
    · rintro (hleaves | ⟨i, c, hc, hleaves⟩)
      · exact ⟨0, conn, rfl, hleaves⟩
      · exact ⟨i + 1, c, hc, hleaves⟩
    · rintro ⟨i, c, hc, hleaves⟩
      cases i with
      | zero =>
        obtain rfl : conn = c := Option.some.inj hc
        exact Or.inl hleaves
      | succ i => exact Or.inr ⟨i, c, hc, hleaves⟩

theorem armed_pass_iff {s : Poll} (h : Sound s.conns) :
    Armed (pollStep s (.pass drains)) ↔ PassRearms s.conns drains := by
  show ((∃ conn ∈ (drainPass s.conns drains s.pollOut).1, Waiting conn) →
    (drainPass s.conns drains s.pollOut).2 = true) ↔ _
  rw [drainPass_waiting drains s.pollOut h]
  refine imp_congr_right ?_
  rintro ⟨i, conn, hconn, -⟩
  refine drainPass_bit drains s.pollOut h ?_
  intro hnil
  simp [hnil] at hconn

end Pass

/-! ## Runs -/

/-- What is known as long as no output has been forgotten. -/
structure PollInv (s : Poll) : Prop where
  sound : Sound s.conns
  armed : Armed s

theorem pollInv_init : PollInv Poll.init := ⟨nofun, fun h => absurd h (by simp [Poll.init])⟩

/-- A call on one connection that does not clear the bit, and leaves nothing new waiting without
    setting it. -/
theorem pollInv_at {s : Poll} {f : OutConn → Bool → OutConn × Bool} (h : PollInv s) (i : Nat)
    (hf : ∀ conn chunks, QueueInv conn chunks →
      (s.pollOut = true → (f conn s.pollOut).2 = true) ∧
        (Waiting (f conn s.pollOut).1 → Waiting conn ∨ (f conn s.pollOut).2 = true) ∧
        ∃ chunks', QueueInv (f conn s.pollOut).1 chunks') :
    PollInv (s.at i f) := by
  cases hget : s.conns[i]? with
  | none =>
    have hsame : s.at i f = s := by simp only [Poll.at, hget]
    rw [hsame]
    exact h
  | some conn =>
    have hmem : conn ∈ s.conns := List.mem_of_getElem? hget
    obtain ⟨chunks, hinv⟩ := h.sound conn hmem
    obtain ⟨hkept, hset, hinv'⟩ := hf conn chunks hinv
    have hat : s.at i f
        = ⟨s.conns.set i (f conn s.pollOut).1, (f conn s.pollOut).2⟩ := by
      simp only [Poll.at, hget]
    rw [hat]
    constructor
    · intro c hc
      rcases List.mem_or_eq_of_mem_set hc with hc | rfl
      · exact h.sound c hc
      · exact hinv'
    · rintro ⟨c, hc, hwaiting⟩
      rcases List.mem_or_eq_of_mem_set hc with hc | rfl
      · exact hkept (h.armed ⟨c, hc, hwaiting⟩)
      · rcases hset hwaiting with hbefore | hbit
        · exact hkept (h.armed ⟨conn, hmem, hbefore⟩)
        · exact hbit

theorem pollInv_output {s : Poll} (h : PollInv s) (i : Nat) (call : OutputCall) :
    PollInv (s.at i (outputOn call)) := by
  refine pollInv_at h i ?_
  intro conn chunks hinv
  by_cases hcall : conn.deleteMe = false ∧ call.buf.length < 2 ^ 31
  · obtain ⟨hbit, hleft, -, hinv'⟩ := connOutput_effect hinv hcall.1 s.pollOut call
    simp only [outputOn, if_pos hcall]
    refine ⟨fun hset => hbit.mpr (Or.inl hset), ?_, hinv'⟩
    intro hwaiting
    obtain ⟨herr, hne | hkeeps⟩ := hleft.mp hwaiting
    · exact Or.inl ((waiting_iff hinv.holds).mpr ⟨hcall.1, herr, hne⟩)
    · exact Or.inr (hbit.mpr (Or.inr ⟨herr, hkeeps⟩))
  · simp only [outputOn, if_neg hcall]
    exact ⟨id, Or.inl, chunks, hinv⟩

theorem pollInv_remove {s : Poll} (h : PollInv s) (i : Nat) : PollInv (s.at i removeOn) := by
  refine pollInv_at h i ?_
  intro conn chunks hinv
  refine ⟨id, ?_, chunks, hinv.holds, hinv.count⟩
  rintro ⟨hdead, -⟩
  cases hdead

theorem pollInv_connect {s : Poll} (h : PollInv s) : PollInv (pollStep s .connect) := by
  refine ⟨List.forall_mem_cons.mpr ⟨⟨[], outInv_init.queue⟩, h.sound⟩, ?_⟩
  rintro ⟨conn, hmem, hwaiting⟩
  rcases List.mem_cons.mp hmem with rfl | hmem
  · exact absurd rfl hwaiting.2.2
  · exact h.armed ⟨conn, hmem, hwaiting⟩

theorem pollInv_step {s : Poll} {op : PollOp} (h : PollInv s) (hok : PollOk s op) :
    PollInv (pollStep s op) := by
  cases op with
  | connect => exact pollInv_connect h
  | output i call => exact pollInv_output h i call
  | remove i => exact pollInv_remove h i
  | pass drains =>
    have hsound := sound_drainPass drains s.pollOut h.sound
    exact ⟨hsound, (armed_pass_iff drains h.sound).mpr hok⟩

theorem armed_step_iff {s : Poll} {op : PollOp} (h : PollInv s) :
    Armed (pollStep s op) ↔ PollOk s op := by
  cases op with
  | connect => exact iff_of_true (pollInv_connect h).armed trivial
  | output i call => exact iff_of_true (pollInv_output h i call).armed trivial
  | remove i => exact iff_of_true (pollInv_remove h i).armed trivial
  | pass drains => exact armed_pass_iff drains h.sound

/-- **No output is forgotten, in exactly the runs in which every pass that leaves output somewhere
    ends with a connection that sets the bit again.** -/
theorem armed_iff (ops : List PollOp) :
    Along pollStep (fun s op => Armed (pollStep s op)) Poll.init ops ↔
      Along pollStep PollOk Poll.init ops := by
  refine along_iff_of_invariant ?_ ?_ pollInv_init
  · intro s op h harmed
    exact pollInv_step h ((armed_step_iff h).mp harmed)
  · intro s op h
    exact armed_step_iff h

/-- Two bytes are output, one of them is written, and then `write` answers `EAGAIN`: the other byte
    waits, and the bit is clear. -/
theorem output_forgotten :
    let ops : List PollOp :=
      [.connect, .output 0 ⟨[1, 2], .wrote 1⟩, .pass fun _ => ⟨[.again], none⟩]
    (run pollStep Poll.init ops).pollOut = false ∧
      (run pollStep Poll.init ops).conns.map (fun conn => pending conn.chunks) = [[2]] ∧
      ¬ Along pollStep (fun s op => Armed (pollStep s op)) Poll.init ops := by
  refine ⟨by decide, by decide, ?_⟩
  rintro ⟨-, -, harmed, -⟩
  refine absurd (harmed ⟨_, List.mem_cons_self, rfl, rfl, ?_⟩) (by decide)
  decide

end Ctcp.OutQueue
