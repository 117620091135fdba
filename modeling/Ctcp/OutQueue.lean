/-
  The output queue of a connection (`ctcp_sys_internal.c`).

  `conn_output` writes at once when nothing is queued, and puts what `write` did not take into a
  chunk at the end of `out_queue`; `conn_drain` writes the chunks out, the first one first, until
  one of the writes takes less than a whole chunk.  The queue is a linked list with a pointer to
  the pointer that ends it (`Ctcp.Lib.TailQueue`).

  What `write` answers is a parameter.  `accepted` is what the file descriptor has taken, and
  `handed` what `conn_output` has answered a positive count for; no function reads them.

  `lossless_queue`: whatever the calls and the answers, `accepted` followed by the unwritten bytes
  of the chunks is `handed`, the unwritten bytes are at most `MAX_BUF_SPACE`, and the links of the
  queue are right.
-/
import Ctcp.State
import Ctcp.Lib.Runs
import Ctcp.Lib.TailQueue

set_option linter.unusedVariables false

namespace Ctcp.OutQueue

open Runs TailQueue

/-! ## Data -/

/-- What `write` answers. -/
inductive WriteResult where
  /-- It took this many bytes, or all of them if they were fewer. -/
  | wrote (n : Nat)
  /-- `-1`, with `errno == EAGAIN`. -/
  | again
  /-- `-1`, with another `errno`. -/
  | error
  deriving DecidableEq, Repr

/-- How many of `len` bytes were taken. -/
def WriteResult.taken (len : Nat) : WriteResult → Nat
  | .wrote n => min n len
  | .again => 0
  | .error => 0

theorem WriteResult.taken_le {len : Nat} (answer : WriteResult) : answer.taken len ≤ len := by
  cases answer with
  | wrote n => exact Nat.min_le_right n len
  | again => exact Nat.zero_le len
  | error => exact Nat.zero_le len

/-- `chunk_t`; `size` is the length of `buf`.  A chunk that has been written out is freed, so one
    in the queue has bytes left. -/
structure OutChunk where
  buf : List UInt8
  used : Nat
  lt : used < buf.length
  deriving DecidableEq, Repr

/-- `chunk->size - chunk->used`. -/
def OutChunk.left (chunk : OutChunk) : Nat := chunk.buf.length - chunk.used

/-- The bytes from `chunk->buf + chunk->used` on. -/
def OutChunk.unwritten (chunk : OutChunk) : List UInt8 := chunk.buf.drop chunk.used

/-- The fields of `conn_t` that output uses. -/
structure OutConn where
  queue : Mem OutChunk
  wroteEof : Bool
  wroteErr : Bool
  deleteMe : Bool
  accepted : List UInt8
  handed : List UInt8
  /-- A pointer that refers to nothing alive was followed, or an assertion failed. -/
  wild : Bool

/-- A call of `conn_output`: the buffer, and what `write` will answer. -/
structure OutputCall where
  buf : List UInt8
  write : WriteResult
  deriving DecidableEq, Repr

/-- What happens in a call of `conn_drain`: the answers of `write` (when they are used up, the
    answer is `EAGAIN`), and what `ctcp_output` finds to output afterwards. -/
structure Drain where
  writes : List WriteResult
  output : Option OutputCall
  deriving DecidableEq, Repr

/-! ## The functions -/

/-- "Count up how much output space already used." -/
def usedSpace : List OutChunk → Nat
  | [] => 0
  | chunk :: chunks => chunk.left + usedSpace chunks

/-- `conn_bufspace`; a queue within the bound has at most `MAX_BUF_SPACE` chunks. -/
def connBufspace (conn : OutConn) : Nat :=
  let used := usedSpace (conn.queue.toList maxBufSpace)
  if used > maxBufSpace then 0 else maxBufSpace - used

/-- The queue after an operation on it. -/
def OutConn.setQueue (conn : OutConn) : Option (Mem OutChunk) → OutConn
  | some queue => { conn with queue := queue }
  | none => { conn with wild := true }

/-- `write` took `bytes`. -/
def OutConn.accept (conn : OutConn) (bytes : List UInt8) : OutConn :=
  { conn with accepted := conn.accepted ++ bytes }

/-- "Put the rest in an output queue." -/
def OutConn.enqueue (conn : OutConn) (buf : List UInt8) : OutConn :=
  if h : 0 < buf.length then conn.setQueue (conn.queue.push ⟨buf, 0, h⟩) else conn

/-- `conn_output`: the connection, the bit `POLLOUT` of `events[STDOUT_FILENO].events`, and the
    result.  With a program running, the bit of another entry of `events` is set. -/
def connOutput (runProgram : Bool) (conn : OutConn) (pollOut : Bool) (call : OutputCall) :
    OutConn × Bool × Int :=
  if conn.deleteMe then ({ conn with wild := true }, pollOut, 0)
  else if conn.wroteEof then (conn, pollOut, 0)
  else if call.buf.length = 0 then ({ conn with wroteEof := true }, pollOut, 0)
  else if conn.wroteErr then (conn, pollOut, -1)
  else if connBufspace conn = 0 then (conn, pollOut, 0)
  else if conn.queue.head = none ∧ call.write = .error then
    ({ conn with wroteErr := true }, pollOut, -1)
  else
    let w := if conn.queue.head = none then call.write.taken call.buf.length else 0
    let conn := (conn.accept (call.buf.take w)).enqueue (call.buf.drop w)
    let pollOut := if conn.queue.head ≠ none ∧ runProgram = false then true else pollOut
    (conn, pollOut, call.buf.length)

/-- A call of `conn_output`, with `handed` brought up to date. -/
def handOver (runProgram : Bool) (conn : OutConn) (pollOut : Bool) (call : OutputCall) :
    OutConn × Bool × Int :=
  let (conn, pollOut, written) := connOutput runProgram conn pollOut call
  if 0 < written then ({ conn with handed := conn.handed ++ call.buf }, pollOut, written)
  else (conn, pollOut, written)

/-- `ctcp_output`: nothing is output without room for all of it, and an error destroys the
    connection. -/
def ctcpOutput (runProgram : Bool) (conn : OutConn) (pollOut : Bool) :
    Option OutputCall → OutConn × Bool
  | none => (conn, pollOut)
  | some call =>
    if connBufspace conn = 0 ∨ connBufspace conn < call.buf.length ∨ call.buf.length = 0 then
      (conn, pollOut)
    else
      let (conn, pollOut, written) := handOver runProgram conn pollOut call
      if written < 0 then ({ conn with deleteMe := true }, pollOut) else (conn, pollOut)

/-- The loop of `conn_drain`: the connection, the bit `POLLOUT`, and `outputted`. -/
def drainLoop (conn : OutConn) (pollOut outputted : Bool) :
    List WriteResult → OutConn × Bool × Bool
  | [] => (conn, pollOut, outputted)
  | answer :: answers =>
    match conn.queue.front with
    | none => (conn, pollOut, outputted)
    | some chunk =>
      match answer with
      | .error => ({ conn with wroteErr := true }, pollOut, outputted)
      | .again => (conn, pollOut, outputted)
      | .wrote n =>
        let w := min n chunk.left
        let conn := conn.accept (chunk.unwritten.take w)
        if h : chunk.used + w < chunk.buf.length then
          (conn.setQueue (conn.queue.setFront ⟨chunk.buf, chunk.used + w, h⟩), true, true)
        else drainLoop (conn.setQueue conn.queue.pop) pollOut true answers

/-- `conn_drain`; it clears the bit `POLLOUT` first. -/
def connDrain (runProgram : Bool) (conn : OutConn) (drain : Drain) : OutConn × Bool :=
  if conn.wroteErr then (conn, false)
  else
    let (conn, pollOut, outputted) := drainLoop conn false false drain.writes
    let conn :=
      if conn.wroteEof ∧ conn.wroteErr = false ∧ conn.queue.head = none then
        { conn with wroteErr := true }
      else conn
    if outputted ∧ conn.deleteMe = false then ctcpOutput runProgram conn pollOut drain.output
    else (conn, pollOut)

/-! ## Runs -/

/-- A connection with nothing to output. -/
def OutConn.init : OutConn := ⟨Mem.empty, false, false, false, [], [], false⟩

/-- What happens to the output of a connection. -/
inductive OutOp where
  | output (call : OutputCall)
  | drain (drain : Drain)
  | remove
  deriving DecidableEq, Repr

/-- A call that `ctcp.c` makes: the connection is not being removed, and there is room. -/
def Callable (conn : OutConn) (call : OutputCall) : Prop :=
  conn.deleteMe = false ∧ call.buf.length ≤ connBufspace conn

instance (conn : OutConn) (call : OutputCall) : Decidable (Callable conn call) :=
  inferInstanceAs (Decidable (_ ∧ _))

/-- One operation, on a connection and the bit `POLLOUT`. -/
def outStep (runProgram : Bool) (s : OutConn × Bool) : OutOp → OutConn × Bool
  | .output call =>
    if Callable s.1 call then
      let (conn, pollOut, _) := handOver runProgram s.1 s.2 call
      (conn, pollOut)
    else s
  | .drain drain => connDrain runProgram s.1 drain
  | .remove => ({ s.1 with deleteMe := true }, s.2)

/-! ## Unwritten bytes -/

namespace OutChunk

variable (chunk : OutChunk)

@[simp] theorem length_unwritten : chunk.unwritten.length = chunk.left := List.length_drop

theorem left_pos : 0 < chunk.left := by
  have hlt := chunk.lt
  rw [left]
  omega

end OutChunk

/-- The unwritten bytes of the chunks, in order. -/
def pending (chunks : List OutChunk) : List UInt8 := chunks.flatMap OutChunk.unwritten

section Pending

variable {chunks chunks' : List OutChunk} {chunk : OutChunk} {conn : OutConn}

@[simp] theorem pending_nil : pending [] = [] := rfl

@[simp] theorem pending_cons : pending (chunk :: chunks) = chunk.unwritten ++ pending chunks := rfl

@[simp] theorem pending_append : pending (chunks ++ chunks') = pending chunks ++ pending chunks' :=
  List.flatMap_append

theorem usedSpace_eq : usedSpace chunks = (pending chunks).length := by
  induction chunks with
  | nil => rfl
  | cons chunk chunks ih =>
    rw [usedSpace, ih, pending_cons, List.length_append, chunk.length_unwritten]

/-- Every chunk has a byte left. -/
theorem length_le_pending : chunks.length ≤ (pending chunks).length := by
  induction chunks with
  | nil => exact Nat.le_refl 0
  | cons chunk chunks ih =>
    have hpos := chunk.left_pos
    rw [pending_cons, List.length_append, List.length_cons, chunk.length_unwritten]
    omega

/-- The queue contains `chunks`, and they are not too many to be counted. -/
structure QueueInv (conn : OutConn) (chunks : List OutChunk) : Prop where
  holds : Holds conn.queue chunks
  count : chunks.length ≤ maxBufSpace

/-- What `conn_bufspace` computes. -/
theorem connBufspace_eq (h : QueueInv conn chunks) :
    connBufspace conn = maxBufSpace - (pending chunks).length := by
  simp only [connBufspace, h.holds.toList h.count, usedSpace_eq]
  split <;> omega

end Pending

/-! ## What `conn_output` can do -/

/-- The branches of `conn_output`, on a queue that contains `chunks`; the indices are what the
    queue contains afterwards, and the result. -/
inductive ConnOutputOutcome (runProgram : Bool) (conn : OutConn) (chunks : List OutChunk)
    (pollOut : Bool) (call : OutputCall) : List OutChunk → OutConn × Bool × Int → Prop
  /-- "If already wrote EOF, can't write more." -/
  | closed (heof : conn.wroteEof = true) :
      ConnOutputOutcome runProgram conn chunks pollOut call chunks (conn, pollOut, 0)
  /-- "Writing EOF." -/
  | eof (heof : conn.wroteEof = false) (hlen : call.buf.length = 0) :
      ConnOutputOutcome runProgram conn chunks pollOut call chunks
        ({ conn with wroteEof := true }, pollOut, 0)
  /-- "If already wrote out an error, can't continue writing." -/
  | failedBefore (heof : conn.wroteEof = false) (hlen : 0 < call.buf.length)
      (herr : conn.wroteErr = true) :
      ConnOutputOutcome runProgram conn chunks pollOut call chunks (conn, pollOut, -1)
  /-- There is no room. -/
  | full (hlen : 0 < call.buf.length) (hroom : connBufspace conn = 0) :
      ConnOutputOutcome runProgram conn chunks pollOut call chunks (conn, pollOut, 0)
  /-- Nothing is queued, and `write` fails. -/
  | failed (heof : conn.wroteEof = false) (hlen : 0 < call.buf.length)
      (herr : conn.wroteErr = false) (hnil : chunks = []) (hwrite : call.write = .error) :
      ConnOutputOutcome runProgram conn chunks pollOut call chunks
        ({ conn with wroteErr := true }, pollOut, -1)
  /-- Nothing is queued, and `write` takes everything. -/
  | whole (heof : conn.wroteEof = false) (hlen : 0 < call.buf.length)
      (herr : conn.wroteErr = false) (hnil : chunks = [])
      (hwrite : call.write.taken call.buf.length = call.buf.length) :
      ConnOutputOutcome runProgram conn chunks pollOut call []
        (conn.accept call.buf, pollOut, call.buf.length)
  /-- `w` bytes are written, and the rest is queued. -/
  | queued (w : Nat) (chunk : OutChunk) (queue : Mem OutChunk)
      (heof : conn.wroteEof = false) (hlen : 0 < call.buf.length) (herr : conn.wroteErr = false)
      (hroom : connBufspace conn ≠ 0)
      (hwrite : chunks = [] → call.write ≠ .error ∧
        call.write.taken call.buf.length < call.buf.length)
      (hrest : chunk.unwritten = call.buf.drop w) (hw : chunks ≠ [] → w = 0)
      (hqueue : Holds queue (chunks ++ [chunk])) :
      ConnOutputOutcome runProgram conn chunks pollOut call (chunks ++ [chunk])
        ({ conn.accept (call.buf.take w) with queue := queue },
          (if runProgram = false then true else pollOut), call.buf.length)

/-- "Put the rest in an output queue", when `w` bytes were written. -/
theorem enqueue_holds {conn : OutConn} {chunks : List OutChunk} {w : Nat} {buf : List UInt8}
    (h : Holds conn.queue chunks) (hw : w < buf.length) :
    ∃ chunk queue, (conn.accept (buf.take w)).enqueue (buf.drop w)
        = { conn.accept (buf.take w) with queue := queue } ∧
      chunk.unwritten = buf.drop w ∧ Holds queue (chunks ++ [chunk]) ∧ queue.head ≠ none := by
  have hlen : 0 < (buf.drop w).length := by
    rw [List.length_drop]
    omega
  obtain ⟨queue, hpush, hholds⟩ := h.push ⟨buf.drop w, 0, hlen⟩
  refine ⟨_, queue, ?_, rfl, hholds, ?_⟩
  · rw [OutConn.enqueue, dif_pos hlen]
    show (conn.accept (buf.take w)).setQueue (conn.queue.push _) = _
    rw [hpush]
    rfl
  · intro hhead
    have hempty := hholds.head_eq_none.mp hhead
    simp at hempty

/-- **Inversion of `conn_output`**, when the assertion holds. -/
theorem connOutput_outcome {conn : OutConn} {chunks : List OutChunk} {call : OutputCall}
    (runProgram pollOut : Bool) (h : Holds conn.queue chunks) (hlive : conn.deleteMe = false) :
    ∃ chunks', ConnOutputOutcome runProgram conn chunks pollOut call chunks'
      (connOutput runProgram conn pollOut call) := by
  have hnil := h.head_eq_none
  unfold connOutput
  rw [if_neg (by simp [hlive])]
  by_cases heof : conn.wroteEof = true
  · rw [if_pos heof]
    exact ⟨_, .closed heof⟩
  rw [if_neg heof]
  have heof' : conn.wroteEof = false := Bool.eq_false_iff.mpr heof
  by_cases hlen : call.buf.length = 0
  · rw [if_pos hlen]
    exact ⟨_, .eof heof' hlen⟩
  rw [if_neg hlen]
  have hlen' : 0 < call.buf.length := Nat.pos_of_ne_zero hlen
  by_cases herr : conn.wroteErr = true
  · rw [if_pos herr]
    exact ⟨_, .failedBefore heof' hlen' herr⟩
  rw [if_neg herr]
  have herr' : conn.wroteErr = false := Bool.eq_false_iff.mpr herr
  by_cases hroom : connBufspace conn = 0
  · rw [if_pos hroom]
    exact ⟨_, .full hlen' hroom⟩
  rw [if_neg hroom]
  by_cases hfail : conn.queue.head = none ∧ call.write = .error
  · rw [if_pos hfail]
    exact ⟨_, .failed heof' hlen' herr' (hnil.mp hfail.1) hfail.2⟩
  rw [if_neg hfail]
  by_cases hempty : conn.queue.head = none
  · -- nothing is queued: `write` is called
    obtain rfl := hnil.mp hempty
    have hok : call.write ≠ .error := fun herror => hfail ⟨hempty, herror⟩
    rw [if_pos hempty]
    by_cases hall : call.write.taken call.buf.length < call.buf.length
    · obtain ⟨chunk, queue, heq, hrest, hholds, hhead⟩ := enqueue_holds h hall
      have hqueued : ConnOutputOutcome runProgram conn [] pollOut call _ _ :=
        .queued _ chunk queue heof' hlen' herr' hroom (fun _ => ⟨hok, hall⟩) hrest
          (fun hne => absurd rfl hne) hholds
      refine ⟨[] ++ [chunk], ?_⟩
      simpa [heq, hhead] using hqueued
    · have htaken : call.write.taken call.buf.length = call.buf.length :=
        Nat.le_antisymm call.write.taken_le (by omega)
      have hwhole : ConnOutputOutcome runProgram conn [] pollOut call _ _ :=
        .whole heof' hlen' herr' rfl htaken
      refine ⟨[], ?_⟩
      simpa [htaken, OutConn.enqueue, hempty, OutConn.accept] using hwhole
  · -- the queue is not empty: nothing is written
    have hne : chunks ≠ [] := fun heq => hempty (hnil.mpr heq)
    rw [if_neg hempty]
    obtain ⟨chunk, queue, heq, hrest, hholds, hhead⟩ := enqueue_holds h hlen'
    have hqueued : ConnOutputOutcome runProgram conn chunks pollOut call _ _ :=
      .queued 0 chunk queue heof' hlen' herr' hroom (fun heq => absurd heq hne) hrest
        (fun _ => rfl) hholds
    rw [List.take_zero, List.drop_zero] at heq
    rw [List.take_zero] at hqueued
    refine ⟨chunks ++ [chunk], ?_⟩
    simpa [heq, hhead] using hqueued

/-! ## What `ctcp_output` can do -/

/-- There is something to output, and room for all of it. -/
def Fits (conn : OutConn) (call : OutputCall) : Prop :=
  0 < call.buf.length ∧ call.buf.length ≤ connBufspace conn

/-- **Inversion of `ctcp_output`**: it does nothing, or it hands over what fits, and destroys the
    connection on an error. -/
theorem ctcpOutput_cases (runProgram : Bool) (conn : OutConn) (pollOut : Bool)
    (output : Option OutputCall) :
    ((∀ call, output = some call → ¬ Fits conn call) ∧
        ctcpOutput runProgram conn pollOut output = (conn, pollOut)) ∨
      ∃ call, output = some call ∧ Fits conn call ∧
        ctcpOutput runProgram conn pollOut output
          = let result := handOver runProgram conn pollOut call
            ({ result.1 with deleteMe := result.1.deleteMe || decide (result.2.2 < 0) },
              result.2.1) := by
  cases output with
  | none => exact Or.inl ⟨nofun, rfl⟩
  | some call =>
    simp only [ctcpOutput]
    by_cases hroom : connBufspace conn = 0 ∨ connBufspace conn < call.buf.length ∨
        call.buf.length = 0
    · rw [if_pos hroom]
      refine Or.inl ⟨?_, rfl⟩
      rintro _ ⟨⟩ ⟨hpos, hle⟩
      omega
    · rw [if_neg hroom]
      refine Or.inr ⟨call, rfl, ?_, ?_⟩
      · show 0 < call.buf.length ∧ call.buf.length ≤ connBufspace conn
        omega
      · generalize handOver runProgram conn pollOut call = result
        by_cases hneg : result.2.2 < 0
        · simp [hneg]
        · simp [hneg]

/-! ## What the loop of `conn_drain` does -/

/-- What becomes of a list of chunks: the bytes that `write` takes, the chunks that remain, the
    answer that ended it (none when everything was written), and whether anything was written. -/
structure Drained where
  bytes : List UInt8
  rest : List OutChunk
  stop : Option WriteResult
  outputted : Bool

/-- Write the chunks out, the first one first, until an answer of `write` is for less than a whole
    chunk. -/
def drainChunks : List OutChunk → List WriteResult → Drained
  | [], _ => ⟨[], [], none, false⟩
  | chunk :: chunks, [] => ⟨[], chunk :: chunks, some .again, false⟩
  | chunk :: chunks, .error :: _ => ⟨[], chunk :: chunks, some .error, false⟩
  | chunk :: chunks, .again :: _ => ⟨[], chunk :: chunks, some .again, false⟩
  | chunk :: chunks, .wrote n :: answers =>
    let w := min n chunk.left
    if h : chunk.used + w < chunk.buf.length then
      ⟨chunk.unwritten.take w, ⟨chunk.buf, chunk.used + w, h⟩ :: chunks, some (.wrote n), true⟩
    else
      let drained := drainChunks chunks answers
      { drained with bytes := chunk.unwritten ++ drained.bytes, outputted := true }

/-- The drain ended with a write of a part of a chunk. -/
def Drained.short (drained : Drained) : Bool :=
  match drained.stop with
  | some (.wrote _) => true
  | _ => false

section Drain

variable {chunks : List OutChunk} {chunk : OutChunk} {answers : List WriteResult} {n : Nat}
  {conn : OutConn}

/-- A write that does not end the chunk. -/
theorem unwritten_of_short (h : chunk.used + min n chunk.left < chunk.buf.length) :
    chunk.unwritten.take (min n chunk.left)
        ++ (OutChunk.mk chunk.buf (chunk.used + min n chunk.left) h).unwritten
      = chunk.unwritten := by
  have hdrop : (OutChunk.mk chunk.buf (chunk.used + min n chunk.left) h).unwritten
      = chunk.unwritten.drop (min n chunk.left) := List.drop_drop.symm
  rw [hdrop, List.take_append_drop]

/-- A write that ends the chunk. -/
theorem take_of_whole (h : ¬ chunk.used + min n chunk.left < chunk.buf.length) :
    chunk.unwritten.take (min n chunk.left) = chunk.unwritten := by
  refine List.take_of_length_le ?_
  have hlt := chunk.lt
  rw [chunk.length_unwritten]
  rw [OutChunk.left] at h ⊢
  omega

theorem drainChunks_short (h : chunk.used + min n chunk.left < chunk.buf.length) :
    drainChunks (chunk :: chunks) (.wrote n :: answers)
      = ⟨chunk.unwritten.take (min n chunk.left),
          ⟨chunk.buf, chunk.used + min n chunk.left, h⟩ :: chunks, some (.wrote n), true⟩ :=
  dif_pos h

theorem drainChunks_whole (h : ¬ chunk.used + min n chunk.left < chunk.buf.length) :
    drainChunks (chunk :: chunks) (.wrote n :: answers)
      = { drainChunks chunks answers with
          bytes := chunk.unwritten ++ (drainChunks chunks answers).bytes, outputted := true } :=
  dif_neg h

/-- No byte is lost or written twice. -/
theorem drainChunks_bytes (chunks : List OutChunk) (answers : List WriteResult) :
    (drainChunks chunks answers).bytes ++ pending (drainChunks chunks answers).rest
      = pending chunks := by
  induction chunks, answers using drainChunks.induct with
  | case1 answers => rfl
  | case2 chunk chunks => rfl
  | case3 chunk chunks answers => rfl
  | case4 chunk chunks answers => rfl
  | case5 chunk chunks n answers w h =>
    rw [drainChunks_short h]
    simp only [pending_cons]
    rw [← List.append_assoc, unwritten_of_short h]
  | case6 chunk chunks n answers w h ih =>
    rw [drainChunks_whole h]
    simp only [pending_cons]
    rw [List.append_assoc, ih]

/-- Everything was written when no answer ended the drain, and only then. -/
theorem drainChunks_rest_nil (chunks : List OutChunk) (answers : List WriteResult) :
    (drainChunks chunks answers).rest = [] ↔ (drainChunks chunks answers).stop = none := by
  induction chunks, answers using drainChunks.induct with
  | case1 answers => simp [drainChunks]
  | case2 chunk chunks => simp [drainChunks]
  | case3 chunk chunks answers => simp [drainChunks]
  | case4 chunk chunks answers => simp [drainChunks]
  | case5 chunk chunks n answers w h =>
    rw [drainChunks_short h]
    simp
  | case6 chunk chunks n answers w h ih =>
    rw [drainChunks_whole h]
    exact ih

theorem drainChunks_length (chunks : List OutChunk) (answers : List WriteResult) :
    (drainChunks chunks answers).rest.length ≤ chunks.length := by
  induction chunks, answers using drainChunks.induct with
  | case1 answers => exact Nat.le_refl _
  | case2 chunk chunks => exact Nat.le_refl _
  | case3 chunk chunks answers => exact Nat.le_refl _
  | case4 chunk chunks answers => exact Nat.le_refl _
  | case5 chunk chunks n answers w h =>
    rw [drainChunks_short h]
    exact Nat.le_refl _
  | case6 chunk chunks n answers w h ih =>
    rw [drainChunks_whole h]
    exact Nat.le_succ_of_le ih

/-- Output is left, and can still be written, when the drain ended with `EAGAIN` or with a part of a
    chunk. -/
theorem Drained.stop_cases (drained : Drained) :
    (drained.stop ≠ none ∧ drained.stop ≠ some .error) ↔
      (drained.stop = some .again ∨ drained.short = true) := by
  unfold short
  rcases drained.stop with _ | answer
  · simp
  · cases answer <;> simp

/-- **The loop refines `drainChunks`.** -/
theorem drainLoop_eq (h : Holds conn.queue chunks) (pollOut outputted : Bool)
    (answers : List WriteResult) :
    let drained := drainChunks chunks answers
    ∃ queue, Holds queue drained.rest ∧
      drainLoop conn pollOut outputted answers
        = ({ conn with
              queue := queue
              accepted := conn.accepted ++ drained.bytes
              wroteErr := conn.wroteErr || decide (drained.stop = some .error) },
            pollOut || drained.short, outputted || drained.outputted) := by
  induction answers generalizing conn chunks pollOut outputted with
  | nil =>
    cases chunks with
    | nil => exact ⟨conn.queue, h, by simp [drainLoop, drainChunks, Drained.short]⟩
    | cons chunk chunks => exact ⟨conn.queue, h, by simp [drainLoop, drainChunks, Drained.short]⟩
  | cons answer answers ih =>
    have hfront := h.front
    cases chunks with
    | nil =>
      refine ⟨conn.queue, h, ?_⟩
      simp [drainLoop, hfront, drainChunks, Drained.short]
    | cons chunk chunks =>
      cases answer with
      | error =>
        refine ⟨conn.queue, h, ?_⟩
        simp [drainLoop, hfront, drainChunks, Drained.short]
      | again =>
        refine ⟨conn.queue, h, ?_⟩
        simp [drainLoop, hfront, drainChunks, Drained.short]
      | wrote n =>
        by_cases hshort : chunk.used + min n chunk.left < chunk.buf.length
        · -- a part of the chunk
          obtain ⟨queue, hset, hholds⟩ :=
            h.setFront ⟨chunk.buf, chunk.used + min n chunk.left, hshort⟩
          rw [drainChunks_short hshort]
          refine ⟨queue, hholds, ?_⟩
          simp [drainLoop, hfront, hshort, OutConn.accept, hset, OutConn.setQueue, Drained.short]
        · -- the whole chunk, and the loop goes on
          obtain ⟨queue, hpop, hholds⟩ := h.pop
          have hnext : Holds ({ conn.accept chunk.unwritten with queue := queue } : OutConn).queue
              chunks := hholds
          obtain ⟨queue', hholds', heq⟩ := ih hnext pollOut true
          rw [drainChunks_whole hshort]
          refine ⟨queue', hholds', ?_⟩
          have hpop' : (conn.accept chunk.unwritten).queue.pop = some queue := hpop
          simp only [drainLoop, hfront, List.head?_cons, dif_neg hshort, take_of_whole hshort,
            hpop']
          show drainLoop { conn.accept chunk.unwritten with queue := queue } _ _ _ = _
          rw [heq]
          simp [OutConn.accept, Drained.short]

end Drain

/-! ## What `conn_drain` does -/

/-- A connection after the loop of `conn_drain`, and after the test for a written EOF. -/
def OutConn.drained (conn : OutConn) (queue : Mem OutChunk) (drained : Drained) : OutConn :=
  { conn with
    queue := queue
    accepted := conn.accepted ++ drained.bytes
    wroteErr := drained.stop = some .error ∨ conn.wroteEof ∧ drained.stop = none }

/-- **`conn_drain`**, up to its call of `ctcp_output`. -/
theorem connDrain_eq {conn : OutConn} {chunks : List OutChunk} (h : Holds conn.queue chunks)
    (herr : conn.wroteErr = false) (runProgram : Bool) (drain : Drain) :
    let drained := drainChunks chunks drain.writes
    ∃ queue, Holds queue drained.rest ∧
      connDrain runProgram conn drain
        = if drained.outputted ∧ conn.deleteMe = false then
            ctcpOutput runProgram (conn.drained queue drained) drained.short drain.output
          else (conn.drained queue drained, drained.short) := by
  obtain ⟨queue, hholds, hloop⟩ := drainLoop_eq h false false drain.writes
  refine ⟨queue, hholds, ?_⟩
  have hempty : queue.head = none ↔ (drainChunks chunks drain.writes).stop = none :=
    hholds.head_eq_none.trans (drainChunks_rest_nil chunks drain.writes)
  rw [connDrain, if_neg (by simp [herr]), hloop]
  by_cases heof : conn.wroteEof = true
  · by_cases hstop : (drainChunks chunks drain.writes).stop = none
    · simp [OutConn.drained, herr, heof, hempty, hstop]
    · simp [OutConn.drained, herr, heof, hempty, hstop]
  · simp [OutConn.drained, herr, heof]

/-! ## The queue loses nothing -/

/-- **The queue is as it should be**: it contains `chunks`, what was handed over has been written or
    is waiting, and the bound is kept. -/
structure OutInv (conn : OutConn) (chunks : List OutChunk) : Prop where
  holds : Holds conn.queue chunks
  bytes : conn.accepted ++ pending chunks = conn.handed
  bound : (pending chunks).length ≤ maxBufSpace
  safe : conn.wild = false

section Lossless

variable {conn : OutConn} {chunks : List OutChunk}

theorem OutInv.queue (h : OutInv conn chunks) : QueueInv conn chunks :=
  ⟨h.holds, Nat.le_trans length_le_pending h.bound⟩

theorem outInv_init : OutInv OutConn.init [] := ⟨holds_empty, rfl, Nat.zero_le _, rfl⟩

/-- A call of `conn_output` that fits. -/
theorem OutInv.handOver (h : OutInv conn chunks) (runProgram pollOut : Bool) {call : OutputCall}
    (hcall : Callable conn call) :
    ∃ chunks', OutInv (handOver runProgram conn pollOut call).1 chunks' := by
  obtain ⟨hlive, hfits⟩ := hcall
  rw [connBufspace_eq h.queue] at hfits
  obtain ⟨chunks', houtcome⟩ := connOutput_outcome runProgram pollOut h.holds hlive
  refine ⟨chunks', ?_⟩
  unfold OutQueue.handOver
  generalize connOutput runProgram conn pollOut call = result at houtcome
  have hsome : 0 < call.buf.length → (0 : Int) < call.buf.length := fun hlen => by omega
  cases houtcome with
  | closed heof => exact ⟨h.holds, h.bytes, h.bound, h.safe⟩
  | eof heof hlen => exact ⟨h.holds, h.bytes, h.bound, h.safe⟩
  | failedBefore heof hlen herr => exact ⟨h.holds, h.bytes, h.bound, h.safe⟩
  | full hlen hroom => exact ⟨h.holds, h.bytes, h.bound, h.safe⟩
  | failed heof hlen herr hnil hwrite => exact ⟨h.holds, h.bytes, h.bound, h.safe⟩
  | whole heof hlen herr hnil hwrite =>
    subst hnil
    have hbytes : conn.accepted = conn.handed := by simpa using h.bytes
    simp only [if_pos (hsome hlen)]
    refine ⟨h.holds, ?_, h.bound, h.safe⟩
    simp [OutConn.accept, hbytes]
  | queued w chunk queue heof hlen herr hroom hwrite hrest hw hqueue =>
    simp only [if_pos (hsome hlen)]
    refine ⟨hqueue, ?_, ?_, h.safe⟩
    · -- bytes are written only when nothing is waiting
      show conn.accepted ++ call.buf.take w ++ pending (chunks ++ [chunk])
        = conn.handed ++ call.buf
      rw [← h.bytes]
      by_cases hnil : chunks = []
      · simp [hnil, hrest]
      · simp [hw hnil, hrest]
    · rw [pending_append, List.length_append, pending_cons, hrest]
      simp only [pending_nil, List.append_nil, List.length_drop]
      omega

/-- The call of `ctcp_output`. -/
theorem OutInv.ctcpOutput (h : OutInv conn chunks) (runProgram pollOut : Bool)
    (hlive : conn.deleteMe = false) (output : Option OutputCall) :
    ∃ chunks', OutInv (ctcpOutput runProgram conn pollOut output).1 chunks' := by
  rcases ctcpOutput_cases runProgram conn pollOut output with ⟨-, heq⟩ | ⟨call, -, hfits, heq⟩
  · rw [heq]
    exact ⟨chunks, h⟩
  · have hcall : Callable conn call := ⟨hlive, hfits.2⟩
    obtain ⟨chunks', h'⟩ := h.handOver runProgram pollOut hcall
    rw [heq]
    exact ⟨chunks', h'.holds, h'.bytes, h'.bound, h'.safe⟩

/-- The loop of `conn_drain`. -/
theorem OutInv.drained (h : OutInv conn chunks) {answers : List WriteResult}
    {queue : Mem OutChunk} (hholds : Holds queue (drainChunks chunks answers).rest) :
    OutInv (conn.drained queue (drainChunks chunks answers)) (drainChunks chunks answers).rest := by
  have hbytes := drainChunks_bytes chunks answers
  refine ⟨hholds, ?_, ?_, h.safe⟩
  · show conn.accepted ++ _ ++ _ = conn.handed
    rw [List.append_assoc, hbytes]
    exact h.bytes
  · have hbound := h.bound
    rw [← hbytes, List.length_append] at hbound
    omega

/-- A call of `conn_drain`. -/
theorem OutInv.connDrain (h : OutInv conn chunks) (runProgram : Bool) (drain : Drain) :
    ∃ chunks', OutInv (connDrain runProgram conn drain).1 chunks' := by
  by_cases herr : conn.wroteErr = true
  · refine ⟨chunks, ?_⟩
    rw [OutQueue.connDrain, if_pos herr]
    exact h
  · obtain ⟨queue, hholds, heq⟩ :=
      connDrain_eq h.holds (Bool.eq_false_iff.mpr herr) runProgram drain
    have h' := h.drained hholds
    rw [heq]
    by_cases hcall : (drainChunks chunks drain.writes).outputted ∧ conn.deleteMe = false
    · rw [if_pos hcall]
      exact h'.ctcpOutput runProgram _ hcall.2 drain.output
    · rw [if_neg hcall]
      exact ⟨_, h'⟩

theorem outInv_step (runProgram : Bool) (s : OutConn × Bool) (op : OutOp)
    (h : ∃ chunks, OutInv s.1 chunks) : ∃ chunks, OutInv (outStep runProgram s op).1 chunks := by
  obtain ⟨chunks, h⟩ := h
  cases op with
  | output call =>
    by_cases hcall : Callable s.1 call
    · simp only [outStep, if_pos hcall]
      exact h.handOver runProgram s.2 hcall
    · simp only [outStep, if_neg hcall]
      exact ⟨chunks, h⟩
  | drain drain => exact h.connDrain runProgram drain
  | remove => exact ⟨chunks, h.holds, h.bytes, h.bound, h.safe⟩

end Lossless

/-- **The output queue is a bounded FIFO that loses nothing**: whatever is called and whatever
    `write` answers, the chunks are linked in order with `out_queue_tail` at the end, what was
    handed over is what was written followed by what is waiting, and at most `MAX_BUF_SPACE` bytes
    wait. -/
theorem lossless_queue (runProgram pollOut : Bool) (ops : List OutOp) :
    let conn := (run (outStep runProgram) (OutConn.init, pollOut) ops).1
    ∃ l, Rep conn.queue l ∧
      conn.accepted ++ pending (l.map Prod.snd) = conn.handed ∧
      (pending (l.map Prod.snd)).length ≤ maxBufSpace ∧ conn.wild = false := by
  have hinv : ∃ chunks, OutInv (run (outStep runProgram) (OutConn.init, pollOut) ops).1 chunks :=
    run_invariant (I := fun s : OutConn × Bool => ∃ chunks, OutInv s.1 chunks)
      (outInv_step runProgram) ⟨[], outInv_init⟩
  obtain ⟨_, ⟨l, hrep, rfl⟩, hbytes, hbound, hsafe⟩ := hinv
  exact ⟨l, hrep, hbytes, hbound, hsafe⟩

end Ctcp.OutQueue
