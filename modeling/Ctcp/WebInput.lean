/-
  `conn_input` of a client that talks to a web server (no Unix socket, no program).

  In this mode a line has to end in `"\r\n"`, and a buffer that does not end in a newline is topped
  up by a second read of one byte:

      r = read(STDIN_FILENO, buf, len - 1);
      if (r > 0) {
        if (add_network_line_ending(!unix_socket, buf, r))
          r += 1;
        else
          r += read(STDIN_FILENO, buf + r, 1);
      }

  Two things go wrong.  STDIN does not block, so the second read can fail, and then `r` is one less
  than what has been read: a byte is dropped, or with one byte the result is 0 and passes for the
  end of the input.  `webInput_iff`: along every run, all bytes are returned, up to carriage returns
  before newlines, exactly as long as this does not happen.

  And `add_network_line_ending` appends two bytes, of which the call has reserved one:
  `webInput_in_bounds_iff`: all writes are inside the buffer unless the first read fills all of
  `len - 1` bytes and ends in a newline.
-/
import Ctcp.State
import Ctcp.Lib.Runs
import Ctcp.Lib.Checked

set_option linter.unusedVariables false

namespace Ctcp

open Runs Checked

/-! ## Line endings -/

/-- `'\n'`. -/
def newline : UInt8 := 10

/-- `'\r'`. -/
def carriageReturn : UInt8 := 13

/-- The second list is the first one, with carriage returns inserted before some newlines. -/
inductive Inserted : List UInt8 → List UInt8 → Prop where
  | nil : Inserted [] []
  | keep {given sent : List UInt8} (h : Inserted given sent) (b : UInt8) :
    Inserted (given ++ [b]) (sent ++ [b])
  | insert {given sent : List UInt8} (h : Inserted given sent) :
    Inserted (given ++ [newline]) (sent ++ [carriageReturn, newline])

/-- What stands after the last newline, when `line` stands before. -/
def lineTail (line bytes : List UInt8) : List UInt8 :=
  bytes.foldl (fun line b => if b = newline then [] else line ++ [b]) line

theorem Inserted.append {given sent : List UInt8} (h : Inserted given sent) (bytes : List UInt8) :
    Inserted (given ++ bytes) (sent ++ bytes) := by
  induction bytes generalizing given sent with
  | nil => rwa [List.append_nil, List.append_nil]
  | cons b rest ih =>
    rw [List.append_cons given, List.append_cons sent]
    exact ih (h.keep b)

theorem lineTail_append (line bytes bytes' : List UInt8) :
    lineTail line (bytes ++ bytes') = lineTail (lineTail line bytes) bytes' :=
  List.foldl_append

theorem lineTail_other {b : UInt8} (hb : b ≠ newline) (line : List UInt8) :
    lineTail line [b] = line ++ [b] := if_neg hb

/-- **Nothing is inserted after the last newline.** -/
theorem Inserted.lineTail_eq {given sent : List UInt8} (h : Inserted given sent) :
    lineTail [] given = lineTail [] sent := by
  induction h with
  | nil => rfl
  | keep _ b ih => rw [lineTail_append, lineTail_append, ih]
  | insert _ _ =>
    rw [lineTail_append, lineTail_append]
    rfl

/-- A byte that is dropped cannot be made up for. -/
theorem not_inserted_of_dropped {given sent : List UInt8} (h : Inserted given sent)
    (bytes : List UInt8) {b : UInt8} (hb : b ≠ newline) :
    ¬ Inserted (given ++ (bytes ++ [b])) (sent ++ bytes) := by
  intro hinserted
  have htail := hinserted.lineTail_eq
  rw [lineTail_append, lineTail_append, lineTail_append, lineTail_other hb, h.lineTail_eq] at htail
  have hlength := congrArg List.length htail
  rw [List.length_append, List.length_singleton] at hlength
  omega

/-! ## The code -/

/-- The answer of a `read` that does not block. -/
inductive ReadAnswer where
  | data (byte : UInt8) (more : List UInt8)
  | eof
  | again
  | failed
  deriving DecidableEq, Repr

/-- The bytes that a `read` of at most `n` bytes puts into the buffer. -/
def ReadAnswer.bytes (n : Nat) : ReadAnswer → List UInt8
  | .data byte more => (byte :: more).take n
  | _ => []

/-- What it returns. -/
def ReadAnswer.result (n : Nat) : ReadAnswer → Int
  | .data byte more => ((byte :: more).take n).length
  | .eof => 0
  | .again => -1
  | .failed => -1

/-- `add_network_line_ending`, on the bytes that have been read. -/
def addNetworkLineEnding (webserver : Bool) (buf : List UInt8) : List UInt8 × Bool :=
  if webserver = false ∨ buf.getLast? ≠ some newline then (buf, false)
  else (buf.dropLast ++ [carriageReturn, newline], true)

/-- A call of `conn_input`, with a buffer of `len` bytes, and the answers of the two reads. -/
structure WebCall where
  len : Nat
  fits : 2 ≤ len
  first : ReadAnswer
  second : ReadAnswer

/-- The bytes of the first read. -/
def WebCall.bytes (c : WebCall) : List UInt8 := c.first.bytes (c.len - 1)

/-- What the reads leave: the buffer, `r`, and what has been taken from STDIN. -/
structure WebRead where
  buf : List UInt8
  r : Int
  taken : List UInt8

/-- The reads of `conn_input`. -/
def webRead (c : WebCall) : WebRead :=
  let r := c.first.result (c.len - 1)
  if r > 0 then
    let ended := addNetworkLineEnding true c.bytes
    if ended.2 then ⟨ended.1, r + 1, c.bytes⟩
    else ⟨c.bytes ++ c.second.bytes 1, r + c.second.result 1, c.bytes ++ c.second.bytes 1⟩
  else ⟨c.bytes, r, c.bytes⟩

/-- `conn_input`: `read_eof`, and what is returned, or `none` for -1.  A negative `r` comes from the
    first read, and so does `errno`. -/
def connInputWeb (testMode readEof : Bool) (c : WebCall) : Bool × Option (List UInt8) :=
  if readEof then (true, none)
  else
    let w := webRead c
    if w.r = 0 ∨ (w.r < 0 ∧ c.first ≠ .again) ∨
        (testMode = true ∧ w.r > 0 ∧ w.buf.head? = some 0x1a) then (true, none)
    else if w.r < 0 then (false, some [])
    else (false, some (w.buf.take w.r.toNat))

/-! ## Runs -/

/-- `read_eof`, all that has been taken from STDIN, and all that has been returned. -/
structure Reader where
  readEof : Bool
  consumed : List UInt8
  returned : List UInt8

/-- Before the first call. -/
def Reader.start : Reader := ⟨false, [], []⟩

/-- One call. -/
def Reader.input (testMode : Bool) (s : Reader) (c : WebCall) : Reader :=
  { readEof := (connInputWeb testMode s.readEof c).1
    consumed := if s.readEof then s.consumed else s.consumed ++ (webRead c).taken
    returned := s.returned ++ (connInputWeb testMode s.readEof c).2.getD [] }

/-- The end of the input, an error, or, in tester mode, the character that stands for the end. -/
def AtEnd (testMode : Bool) (c : WebCall) : Prop :=
  c.first = .eof ∨ c.first = .failed ∨ (testMode = true ∧ c.bytes.head? = some 0x1a)

/-- **Every byte is returned**: what has been returned is what has been taken from STDIN, with
    carriage returns inserted before newlines, and -1 is returned only at the end. -/
def AllReturned (testMode : Bool) (s : Reader) (c : WebCall) : Prop :=
  if (connInputWeb testMode s.readEof c).2.isSome then
    Inserted (s.input testMode c).consumed (s.input testMode c).returned
  else s.readEof = true ∨ AtEnd testMode c

/-- The first read ends in the middle of a line, and the second one fails. -/
def SecondFails (testMode : Bool) (s : Reader) (c : WebCall) : Prop :=
  s.readEof = false ∧ c.bytes ≠ [] ∧ c.bytes.getLast? ≠ some newline ∧
    (c.second = .again ∨ c.second = .failed) ∧ ¬ AtEnd testMode c

/-! ## One call -/

section Call

variable {testMode : Bool} {s : Reader} {c : WebCall}

theorem result_of_bytes {a : ReadAnswer} {n : Nat} (h : a.bytes n ≠ []) :
    a.result n = (a.bytes n).length := by
  cases a with
  | data byte more => rfl
  | eof => exact absurd rfl h
  | again => exact absurd rfl h
  | failed => exact absurd rfl h

theorem bytes_ne_nil {front : List UInt8} {b : UInt8} (h : c.bytes = front ++ [b]) :
    c.bytes ≠ [] := by
  rw [h]
  exact List.append_ne_nil_of_right_ne_nil _ (List.cons_ne_nil _ _)

theorem bytes_pos (h : c.bytes ≠ []) : 0 < c.first.result (c.len - 1) := by
  have hpos : 0 < c.bytes.length := List.length_pos_iff.mpr h
  rw [result_of_bytes h]
  exact Int.natCast_pos.mpr hpos

/-- A buffer that ends in a newline. -/
theorem webRead_newline {front : List UInt8} (h : c.bytes = front ++ [newline]) :
    webRead c = ⟨front ++ [carriageReturn, newline], front.length + 2, c.bytes⟩ := by
  have hne := bytes_ne_nil h
  have hended : addNetworkLineEnding true c.bytes = (front ++ [carriageReturn, newline], true) := by
    simp [addNetworkLineEnding, h]
  have hr : c.first.result (c.len - 1) = front.length + 1 := by
    rw [result_of_bytes hne]
    show ((c.bytes.length : Nat) : Int) = _
    rw [h, List.length_append, List.length_singleton]
    omega
  rw [webRead, if_pos (bytes_pos hne), hended, hr]
  simp
  omega

/-- A buffer that does not: the results of the two reads are added. -/
theorem webRead_other (hne : c.bytes ≠ []) (hlast : c.bytes.getLast? ≠ some newline) :
    webRead c = ⟨c.bytes ++ c.second.bytes 1, c.bytes.length + c.second.result 1,
      c.bytes ++ c.second.bytes 1⟩ := by
  have hended : addNetworkLineEnding true c.bytes = (c.bytes, false) := if_pos (Or.inr hlast)
  have hr : c.first.result (c.len - 1) = (c.bytes.length : Nat) := result_of_bytes hne
  rw [webRead, if_pos (bytes_pos hne), hended, hr]
  exact if_neg Bool.false_ne_true

/-- Nothing has been read. -/
theorem bytes_eq_nil : c.bytes = [] ↔ c.first = .eof ∨ c.first = .again ∨ c.first = .failed := by
  have hfits := c.fits
  unfold WebCall.bytes
  cases c.first with
  | data byte more =>
    have hpos : (byte :: more).take (c.len - 1) ≠ [] := by
      rw [← List.length_pos_iff, List.length_take, List.length_cons]
      omega
    simpa [ReadAnswer.bytes] using hpos
  | eof => simp [ReadAnswer.bytes]
  | again => simp [ReadAnswer.bytes]
  | failed => simp [ReadAnswer.bytes]

theorem result_nonpos (h : c.bytes = []) : c.first.result (c.len - 1) ≤ 0 := by
  rcases bytes_eq_nil.mp h with hfirst | hfirst | hfirst <;> simp [hfirst, ReadAnswer.result]

theorem webRead_nothing (h : c.bytes = []) : webRead c = ⟨[], c.first.result (c.len - 1), []⟩ := by
  rw [webRead, if_neg (Int.not_lt.mpr (result_nonpos h)), h]

/-- A sum of 0 is the end of the input. -/
theorem connInputWeb_zero (hzero : (webRead c).r = 0) :
    connInputWeb testMode false c = (true, none) := by
  simp [connInputWeb, hzero]

/-- The reads return a positive number. -/
theorem connInputWeb_pos (hhead : (webRead c).buf.head? = some 0x1a ↔ c.bytes.head? = some 0x1a)
    (hpos : 0 < (webRead c).r) :
    connInputWeb testMode false c
      = if testMode = true ∧ c.bytes.head? = some 0x1a then (true, none)
        else (false, some ((webRead c).buf.take (webRead c).r.toNat)) := by
  have hzero : ¬ (webRead c).r = 0 := by omega
  have hneg : ¬ (webRead c).r < 0 := by omega
  simp [connInputWeb, hzero, hneg, hpos, hhead]

/-- With nothing read, only the end of the input and an error return -1. -/
theorem allReturned_nothing (hinv : Inserted s.consumed s.returned) (heof : s.readEof = false)
    (h : c.bytes = []) : AllReturned testMode s c := by
  unfold AllReturned Reader.input AtEnd connInputWeb
  rw [heof, webRead_nothing h]
  rcases bytes_eq_nil.mp h with hfirst | hfirst | hfirst
  · simp [hfirst, ReadAnswer.result]
  · simpa [hfirst, ReadAnswer.result] using hinv
  · simp [hfirst, ReadAnswer.result]

/-- Otherwise it depends on two things: whether the buffer starts with the end-of-file character,
    and what is returned if it does not. -/
theorem allReturned_pos (heof : s.readEof = false) (hne : c.bytes ≠ [])
    (hhead : (webRead c).buf.head? = some 0x1a ↔ c.bytes.head? = some 0x1a)
    (hpos : 0 < (webRead c).r) :
    AllReturned testMode s c ↔ AtEnd testMode c ∨
      Inserted (s.consumed ++ (webRead c).taken)
        (s.returned ++ (webRead c).buf.take (webRead c).r.toNat) := by
  have hfirst : ¬ c.first = .eof ∧ ¬ c.first = .failed :=
    ⟨fun h => hne (bytes_eq_nil.mpr (Or.inl h)),
      fun h => hne (bytes_eq_nil.mpr (Or.inr (Or.inr h)))⟩
  unfold AllReturned Reader.input AtEnd
  rw [heof, connInputWeb_pos hhead hpos]
  split
  · rename_i hmark
    simp [hmark]
  · rename_i hmark
    simp [hmark, hfirst]

/-- The buffer ends in a newline: the carriage return is inserted. -/
theorem allReturned_newline (hinv : Inserted s.consumed s.returned) (heof : s.readEof = false)
    {front : List UInt8} (h : c.bytes = front ++ [newline]) : AllReturned testMode s c := by
  have hread := webRead_newline h
  have hne := bytes_ne_nil h
  have hhead : (webRead c).buf.head? = some 0x1a ↔ c.bytes.head? = some 0x1a := by
    rw [hread, h]
    cases front with
    | nil => decide
    | cons b front => exact Iff.rfl
  have hall : (front ++ [carriageReturn, newline]).length ≤ ((front.length : Int) + 2).toNat := by
    rw [List.length_append, List.length_cons, List.length_singleton]
    omega
  have hr : 0 < (webRead c).r := by
    rw [hread]
    show (0 : Int) < front.length + 2
    omega
  rw [allReturned_pos heof hne hhead hr, hread]
  right
  show Inserted (s.consumed ++ c.bytes)
    (s.returned ++ (front ++ [carriageReturn, newline]).take ((front.length : Int) + 2).toNat)
  rw [List.take_of_length_le hall, h, ← List.append_assoc, ← List.append_assoc]
  exact (hinv.append front).insert

/-- It does not, and the second read does not fail. -/
theorem allReturned_other (hinv : Inserted s.consumed s.returned) (heof : s.readEof = false)
    (hne : c.bytes ≠ []) (hlast : c.bytes.getLast? ≠ some newline)
    (hsecond : c.second.result 1 = (c.second.bytes 1).length) : AllReturned testMode s c := by
  have hread := webRead_other hne hlast
  have hpos : 0 < c.bytes.length := List.length_pos_iff.mpr hne
  have hhead : (webRead c).buf.head? = some 0x1a ↔ c.bytes.head? = some 0x1a := by
    rw [hread]
    show (c.bytes ++ c.second.bytes 1).head? = _ ↔ _
    rw [List.head?_append, Option.or_of_isSome (List.isSome_head?.mpr hne)]
  have hall : (c.bytes ++ c.second.bytes 1).length
      ≤ ((c.bytes.length : Int) + c.second.result 1).toNat := by
    rw [List.length_append, hsecond]
    omega
  have hr : 0 < (webRead c).r := by
    rw [hread]
    show (0 : Int) < c.bytes.length + c.second.result 1
    omega
  rw [allReturned_pos heof hne hhead hr, hread]
  right
  show Inserted (s.consumed ++ (c.bytes ++ c.second.bytes 1))
    (s.returned ++ (c.bytes ++ c.second.bytes 1).take
      ((c.bytes.length : Int) + c.second.result 1).toNat)
  rw [List.take_of_length_le hall]
  exact hinv.append _

/-- It does not, and the second read fails: the last byte of the first read is dropped, which is
    right only at the end. -/
theorem allReturned_dropped (hinv : Inserted s.consumed s.returned) (heof : s.readEof = false)
    (hne : c.bytes ≠ []) (hlast : c.bytes.getLast? ≠ some newline)
    (hsecond : c.second = .again ∨ c.second = .failed) :
    AllReturned testMode s c ↔ AtEnd testMode c := by
  have hbytes : c.second.bytes 1 = [] ∧ c.second.result 1 = -1 := by
    rcases hsecond with hfail | hfail <;> rw [hfail] <;> exact ⟨rfl, rfl⟩
  have hread := webRead_other hne hlast
  rw [hbytes.1, hbytes.2, List.append_nil] at hread
  obtain ⟨front, b, hfront⟩ : ∃ front b, c.bytes = front ++ [b] :=
    ⟨_, _, (List.dropLast_concat_getLast hne).symm⟩
  have hb : b ≠ newline := by
    intro hb
    rw [hfront, hb] at hlast
    exact hlast List.getLast?_concat
  have hr : (webRead c).r = front.length := by
    rw [hread, hfront, List.length_append, List.length_singleton]
    show ((front.length + 1 : Nat) : Int) + -1 = front.length
    omega
  cases front with
  | nil =>
    -- one byte, and the sum is 0: the end of the input
    unfold AllReturned
    rw [heof, connInputWeb_zero hr]
    exact or_iff_right Bool.false_ne_true
  | cons b' front =>
    have hhead : (webRead c).buf.head? = some 0x1a ↔ c.bytes.head? = some 0x1a := by rw [hread]
    rw [allReturned_pos heof hne hhead (by rw [hr, List.length_cons]; omega), hr, hread, hfront,
      Int.toNat_natCast, List.take_left]
    exact or_iff_left (not_inserted_of_dropped hinv _ hb)

/-- **A call returns every byte unless the second read fails.** -/
theorem allReturned_iff (hinv : s.readEof = true ∨ Inserted s.consumed s.returned) :
    AllReturned testMode s c ↔ ¬ SecondFails testMode s c := by
  cases heof : s.readEof with
  | true =>
    have hcall : connInputWeb testMode s.readEof c = (true, none) := if_pos heof
    have hall : AllReturned testMode s c := by
      unfold AllReturned
      rw [hcall]
      exact Or.inl heof
    exact iff_of_true hall fun hfails => Bool.false_ne_true (hfails.1.symm.trans heof)
  | false =>
    have hinserted := hinv.resolve_left (by rw [heof]; exact Bool.false_ne_true)
    by_cases hne : c.bytes = []
    · exact iff_of_true (allReturned_nothing hinserted heof hne) fun hfails => hfails.2.1 hne
    by_cases hlast : c.bytes.getLast? = some newline
    · obtain ⟨front, hfront⟩ := List.getLast?_eq_some_iff.mp hlast
      exact iff_of_true (allReturned_newline hinserted heof hfront)
        fun hfails => hfails.2.2.1 hlast
    by_cases hsecond : c.second = .again ∨ c.second = .failed
    · rw [allReturned_dropped hinserted heof hne hlast hsecond]
      constructor
      · intro hend hfails
        exact hfails.2.2.2.2 hend
      · intro hfails
        exact Classical.byContradiction fun hend => hfails ⟨heof, hne, hlast, hsecond, hend⟩
    · have hresult : c.second.result 1 = (c.second.bytes 1).length := by
        cases hcase : c.second with
        | data byte more => rfl
        | eof => rfl
        | again => exact absurd (Or.inl hcase) hsecond
        | failed => exact absurd (Or.inr hcase) hsecond
      exact iff_of_true (allReturned_other hinserted heof hne hlast hresult)
        fun hfails => hsecond hfails.2.2.2.1

/-- What the calls keep, as long as they return every byte. -/
theorem inserted_input (h : AllReturned testMode s c) :
    (s.input testMode c).readEof = true ∨
      Inserted (s.input testMode c).consumed (s.input testMode c).returned := by
  unfold AllReturned at h
  split at h
  · exact Or.inr h
  · rename_i hnone
    left
    unfold connInputWeb at hnone
    show (connInputWeb testMode s.readEof c).1 = true
    unfold connInputWeb
    grind

end Call

/-- **No byte is lost, along a run, if and only if the second read never fails in the middle of a
    line.** -/
theorem webInput_iff (testMode : Bool) (calls : List WebCall) :
    Along (Reader.input testMode) (AllReturned testMode) Reader.start calls ↔
      Along (Reader.input testMode) (fun s c => ¬ SecondFails testMode s c) Reader.start calls :=
  along_iff_of_invariant (fun s c _ hall => inserted_input hall)
    (fun s c hinv => allReturned_iff hinv) (Or.inr Inserted.nil)

/-- `"ab"` without a newline, and nothing more for now. -/
def partOfLine : WebCall := ⟨maxSegDataSize, by decide, .data 97 [98], .again⟩

/-- One byte. -/
def oneByte : WebCall := ⟨maxSegDataSize, by decide, .data 97 [], .again⟩

/-- The second byte is dropped; and a single byte passes for the end of the input. -/
theorem webInput_drops :
    (Reader.start.input false partOfLine).consumed = [97, 98] ∧
      (Reader.start.input false partOfLine).returned = [97] ∧
      connInputWeb false false oneByte = (true, none) ∧
      ¬ Along (Reader.input false) (AllReturned false) Reader.start [partOfLine] ∧
      ¬ Along (Reader.input false) (AllReturned false) Reader.start [oneByte] := by
  refine ⟨by decide, by decide, by decide, ?_, ?_⟩
  · intro hall
    have hinserted : Inserted [97, 98] [97] := hall.1
    exact not_inserted_of_dropped Inserted.nil [97] (by decide) hinserted
  · intro hall
    have hend : Reader.start.readEof = true ∨ AtEnd false oneByte := hall.1
    revert hend
    unfold AtEnd
    decide

/-! ## The buffer -/

/-- `add_network_line_ending`, in memory. -/
def addNetworkLineEndingAt (webserver : Bool) (buf : List UInt8) (len : Nat) :
    Option (List UInt8 × Bool) :=
  if webserver then do
    let last ← read buf (len - 1) 1
    if last = [newline] then do
      let buf ← write buf (len - 1) [carriageReturn]
      let buf ← write buf len [newline]
      let buf ← write buf (len + 1) [0]
      some (buf, true)
    else some (buf, false)
  else some (buf, false)

/-- The reads of `conn_input`, in memory: the buffer, and `r`. -/
def webReadAt (buf : List UInt8) (c : WebCall) : Option (List UInt8 × Int) := do
  let buf ← write buf 0 c.bytes
  let r := c.first.result (c.len - 1)
  if r > 0 then do
    let ended ← addNetworkLineEndingAt true buf r.toNat
    if ended.2 then some (ended.1, r + 1)
    else do
      let buf ← write ended.1 r.toNat (c.second.bytes 1)
      some (buf, r + c.second.result 1)
  else some (buf, r)

/-- `conn_input`, in memory: the buffer, `read_eof`, and the result. -/
def connInputAt (testMode readEof : Bool) (buf : List UInt8) (c : WebCall) :
    Option (List UInt8 × Bool × Int) :=
  if readEof then some (buf, true, -1)
  else do
    let w ← webReadAt buf c
    let first ← (if testMode = true ∧ w.2 > 0 then read w.1 0 1 else some [])
    if w.2 = 0 ∨ (w.2 < 0 ∧ c.first ≠ .again) ∨ first = [0x1a] then some (w.1, true, -1)
    else if w.2 < 0 then some (w.1, false, 0)
    else some (w.1, false, w.2)

/-- All accesses are inside the buffer, and the result is at most its length. -/
def InBounds (testMode readEof : Bool) (buf : List UInt8) (c : WebCall) : Prop :=
  Ok (fun out => out.2.2 ≤ (c.len : Int)) (connInputAt testMode readEof buf c)

/-- The first read fills all of `len - 1` bytes, and ends in a newline. -/
def FillsLine (c : WebCall) : Prop :=
  c.bytes.length = c.len - 1 ∧ c.bytes.getLast? = some newline

section Buffer

variable {testMode : Bool} {buf : List UInt8} {c : WebCall}

theorem ReadAnswer.length_bytes_le (a : ReadAnswer) (n : Nat) : (a.bytes n).length ≤ n := by
  cases a with
  | data byte more => exact List.length_take_le _ _
  | eof => exact Nat.zero_le _
  | again => exact Nat.zero_le _
  | failed => exact Nat.zero_le _

theorem ReadAnswer.result_le (a : ReadAnswer) (n : Nat) : a.result n ≤ (a.bytes n).length := by
  cases a with
  | data byte more => exact Int.le_refl _
  | eof => exact Int.le_refl _
  | again => exact Int.neg_nonpos_of_nonneg (by decide)
  | failed => exact Int.neg_nonpos_of_nonneg (by decide)

theorem bytes_length_le (c : WebCall) : c.bytes.length ≤ c.len - 1 :=
  c.first.length_bytes_le (c.len - 1)

/-- A write of one byte. -/
theorem write_byte (front back : List UInt8) (old b : UInt8) {off : Nat}
    (hoff : off = front.length) :
    write (front ++ old :: back) off [b] = some (front ++ b :: back) := by
  have hmid : front ++ old :: back = front ++ [old] ++ back := List.append_cons front old back
  rw [hmid, write_mid hoff (by rfl), ← List.append_cons]

/-- The newline is rewritten, and two bytes behind it are written: the second one last. -/
theorem addNetworkLineEndingAt_newline (front rest : List UInt8) (x : UInt8) :
    addNetworkLineEndingAt true (front ++ newline :: x :: rest) (front.length + 1)
      = (write (front ++ carriageReturn :: newline :: rest) (front.length + 2) [0]).map
          (fun buf => (buf, true)) := by
  have hlast : read (front ++ newline :: x :: rest) front.length 1 = some [newline] := by
    rw [read_eq (by rw [List.length_append, List.length_cons]; omega), List.drop_left]
    rfl
  have hreturn : write (front ++ newline :: x :: rest) front.length [carriageReturn]
      = some (front ++ carriageReturn :: x :: rest) :=
    write_byte front (x :: rest) newline carriageReturn rfl
  have hnewline : write (front ++ carriageReturn :: x :: rest) (front.length + 1) [newline]
      = some (front ++ carriageReturn :: newline :: rest) := by
    rw [List.append_cons, List.append_cons front carriageReturn (newline :: rest)]
    have hoff : front.length + 1 = (front ++ [carriageReturn]).length := by
      rw [List.length_append, List.length_singleton]
    exact write_byte (front ++ [carriageReturn]) rest x newline hoff
  unfold addNetworkLineEndingAt
  rw [if_pos rfl, Nat.add_sub_cancel]
  simp only [hlast, hreturn, hnewline, Option.bind_eq_bind, Option.bind_some, if_true]
  rw [Option.map_eq_bind]
  rfl

/-- Another last byte. -/
theorem addNetworkLineEndingAt_other {bytes rest : List UInt8} (hne : bytes ≠ [])
    (hlast : bytes.getLast? ≠ some newline) :
    addNetworkLineEndingAt true (bytes ++ rest) bytes.length = some (bytes ++ rest, false) := by
  obtain ⟨front, b, rfl⟩ : ∃ front b, bytes = front ++ [b] :=
    ⟨_, _, (List.dropLast_concat_getLast hne).symm⟩
  have hread : read (front ++ [b] ++ rest) ((front ++ [b]).length - 1) 1 = some [b] := by
    rw [List.length_append, List.length_singleton, Nat.add_sub_cancel,
      read_eq (by rw [List.length_append, List.length_append, List.length_singleton]; omega),
      List.append_assoc, List.drop_left]
    rfl
  have hb : ¬ [b] = [newline] := by
    intro hb
    rw [hb] at hlast
    exact hlast List.getLast?_concat
  unfold addNetworkLineEndingAt
  rw [if_pos rfl, hread]
  exact if_neg hb

/-- What the first read leaves in the buffer. -/
theorem write_bytes (hlen : buf.length = c.len) :
    write buf 0 c.bytes = some (c.bytes ++ buf.drop c.bytes.length) := by
  have hle := bytes_length_le c
  rw [write_eq (by omega), List.take_zero, List.nil_append, Nat.zero_add]

/-- There is room behind it for one byte. -/
theorem room_behind (hlen : buf.length = c.len) :
    ∃ x rest, buf.drop c.bytes.length = x :: rest ∧ c.bytes.length + rest.length + 1 = c.len := by
  have hle := bytes_length_le c
  have hfits := c.fits
  cases hdrop : buf.drop c.bytes.length with
  | nil =>
    have hlength := List.drop_eq_nil_iff.mp hdrop
    omega
  | cons x rest =>
    have hlength := congrArg List.length hdrop
    rw [List.length_drop, List.length_cons] at hlength
    exact ⟨x, rest, rfl, by omega⟩

/-- After a first read that returned something. -/
theorem webReadAt_pos (hlen : buf.length = c.len) (hne : c.bytes ≠ []) :
    webReadAt buf c
      = (addNetworkLineEndingAt true (c.bytes ++ buf.drop c.bytes.length) c.bytes.length).bind
          fun ended =>
            if ended.2 then some (ended.1, (c.bytes.length : Int) + 1)
            else (write ended.1 c.bytes.length (c.second.bytes 1)).map
              fun buf => (buf, (c.bytes.length : Int) + c.second.result 1) := by
  have hpos := bytes_pos hne
  have hr : c.first.result (c.len - 1) = (c.bytes.length : Nat) := result_of_bytes hne
  rw [hr] at hpos
  unfold webReadAt
  rw [write_bytes hlen, hr]
  simp only [Option.bind_eq_bind, Option.bind_some, Int.toNat_natCast, Option.map_eq_bind]
  exact if_pos hpos

/-- It ends in a newline. -/
theorem webReadAt_newline {front rest : List UInt8} {x : UInt8} (hlen : buf.length = c.len)
    (hfront : c.bytes = front ++ [newline]) (hdrop : buf.drop c.bytes.length = x :: rest) :
    webReadAt buf c
      = (write (front ++ carriageReturn :: newline :: rest) (front.length + 2) [0]).map
          (fun buf => (buf, (front.length : Int) + 2)) := by
  have hne := bytes_ne_nil hfront
  have hlength : (c.bytes.length : Int) + 1 = (front.length : Int) + 2 := by
    rw [hfront, List.length_append, List.length_singleton]
    omega
  rw [webReadAt_pos hlen hne, hlength, hdrop, hfront, List.length_append, List.length_singleton,
    ← List.append_cons, addNetworkLineEndingAt_newline, Option.bind_map, Option.map_eq_bind]
  rfl

/-- It does not. -/
theorem webReadAt_other (hlen : buf.length = c.len) (hne : c.bytes ≠ [])
    (hlast : c.bytes.getLast? ≠ some newline) :
    ∃ rest, webReadAt buf c = some ((webRead c).buf ++ rest, (webRead c).r) := by
  obtain ⟨x, rest, hdrop, hroom⟩ := room_behind hlen
  rw [webReadAt_pos hlen hne, hdrop, addNetworkLineEndingAt_other hne hlast,
    webRead_other hne hlast, Option.bind_some, if_neg Bool.false_ne_true]
  have hone := c.second.length_bytes_le 1
  cases hsecond : c.second.bytes 1 with
  | nil =>
    have hwrite : write (c.bytes ++ [] ++ x :: rest) c.bytes.length []
        = some (c.bytes ++ [] ++ x :: rest) := write_mid rfl rfl
    rw [List.append_nil] at hwrite
    rw [hwrite, List.append_nil]
    exact ⟨x :: rest, rfl⟩
  | cons b more =>
    rw [hsecond, List.length_cons] at hone
    have hmore : more = [] := List.length_eq_zero_iff.mp (by omega)
    rw [hmore, write_byte c.bytes rest x b rfl, List.append_cons]
    exact ⟨rest, rfl⟩

/-- **The reads stay inside the buffer, and leave there what `webRead` says, unless the first one
    fills it with a whole line.** -/
theorem webReadAt_eq (hlen : buf.length = c.len) (h : ¬ FillsLine c) :
    ∃ rest, webReadAt buf c = some ((webRead c).buf ++ rest, (webRead c).r) := by
  by_cases hne : c.bytes = []
  · refine ⟨buf, ?_⟩
    rw [webRead_nothing hne, webReadAt, write_bytes hlen, hne]
    exact if_neg (Int.not_lt.mpr (result_nonpos hne))
  by_cases hlast : c.bytes.getLast? = some newline
  · obtain ⟨front, hfront⟩ := List.getLast?_eq_some_iff.mp hlast
    obtain ⟨x, rest, hdrop, hroom⟩ := room_behind hlen
    rw [webReadAt_newline hlen hfront hdrop, webRead_newline hfront]
    cases rest with
    | nil =>
      rw [List.length_nil] at hroom
      exact absurd ⟨by omega, hlast⟩ h
    | cons y rest =>
      have hoff : front.length + 2 = (front ++ [carriageReturn, newline]).length := by
        rw [List.length_append, List.length_cons, List.length_singleton]
      have hwrite := write_byte (front ++ [carriageReturn, newline]) rest y 0 hoff
      rw [List.append_assoc] at hwrite
      exact ⟨0 :: rest, congrArg _ hwrite⟩
  · exact webReadAt_other hlen hne hlast

/-- If it does, the terminating zero lies behind the buffer. -/
theorem webReadAt_none (hlen : buf.length = c.len) (h : FillsLine c) : webReadAt buf c = none := by
  obtain ⟨hfills, hlast⟩ := h
  obtain ⟨front, hfront⟩ := List.getLast?_eq_some_iff.mp hlast
  obtain ⟨x, rest, hdrop, hroom⟩ := room_behind hlen
  have hrest : rest = [] := List.length_eq_zero_iff.mp (by omega)
  have hbehind : ¬ front.length + 2 + [(0 : UInt8)].length
      ≤ (front ++ carriageReturn :: newline :: rest).length := by
    rw [hrest, List.length_append, List.length_singleton, List.length_cons, List.length_singleton]
    omega
  rw [webReadAt_newline hlen hfront hdrop, write, if_neg hbehind]
  rfl

/-- The sum of the two results is at most what stands in the buffer. -/
theorem webRead_r_le (c : WebCall) :
    (webRead c).r ≤ (webRead c).buf.length ∧ (webRead c).buf.length ≤ c.len := by
  have hfits := c.fits
  have hle := bytes_length_le c
  by_cases hne : c.bytes = []
  · rw [webRead_nothing hne]
    exact ⟨result_nonpos hne, Nat.zero_le _⟩
  by_cases hlast : c.bytes.getLast? = some newline
  · obtain ⟨front, hfront⟩ := List.getLast?_eq_some_iff.mp hlast
    rw [hfront, List.length_append, List.length_singleton] at hle
    rw [webRead_newline hfront]
    simp
    omega
  · have hone := c.second.length_bytes_le 1
    have hresult := c.second.result_le 1
    rw [webRead_other hne hlast]
    simp
    omega

/-- The test for the end-of-file character reads `buf[0]` only if something has been read. -/
theorem read_mark (testMode : Bool) {r : Int} {front : List UInt8} (hr : r ≤ front.length)
    (rest : List UInt8) :
    ∃ first, (if testMode = true ∧ r > 0 then read (front ++ rest) 0 1 else some []) = some first ∧
      (first = [0x1a] ↔ testMode = true ∧ r > 0 ∧ front.head? = some 0x1a) := by
  by_cases htest : testMode = true ∧ r > 0
  · rw [if_pos htest]
    cases front with
    | nil =>
      rw [List.length_nil] at hr
      omega
    | cons b front =>
      refine ⟨[b], read_eq (by rw [List.length_append, List.length_cons]; omega), ?_⟩
      simp [htest]
  · rw [if_neg htest]
    refine ⟨[], rfl, iff_of_false (List.cons_ne_nil _ _).symm fun h => htest ⟨h.1, h.2.1⟩⟩

/-- **Where the memory is not overrun, it holds what `connInputWeb` returns.** -/
theorem connInputAt_eq (testMode readEof : Bool) (hlen : buf.length = c.len)
    (h : ¬ (readEof = false ∧ FillsLine c)) :
    ∃ buf' n, connInputAt testMode readEof buf c
        = some (buf', (connInputWeb testMode readEof c).1, n) ∧ n ≤ (c.len : Int) ∧
      (connInputWeb testMode readEof c).2 = if n < 0 then none else some (buf'.take n.toNat) := by
  cases readEof with
  | true => exact ⟨buf, -1, rfl, by omega, rfl⟩
  | false =>
    obtain ⟨rest, hread⟩ := webReadAt_eq hlen fun hfills => h ⟨rfl, hfills⟩
    obtain ⟨hr, hbuf⟩ := webRead_r_le c
    obtain ⟨first, hfirst, hmark⟩ := read_mark testMode hr rest
    unfold connInputAt connInputWeb
    rw [hread]
    simp only [Option.bind_eq_bind, Option.bind_some, hfirst, hmark, Bool.false_eq_true, if_false]
    split
    · exact ⟨_, _, rfl, by omega, rfl⟩
    · split
      · exact ⟨_, _, rfl, by omega, rfl⟩
      · rename_i hneg
        refine ⟨_, _, rfl, by omega, ?_⟩
        rw [if_neg hneg, List.take_append_of_le_length (by omega)]

/-- **`conn_input` stays inside the buffer unless the first read fills it with a whole line.** -/
theorem webInput_in_bounds_iff (testMode readEof : Bool) {buf : List UInt8} {c : WebCall}
    (hlen : buf.length = c.len) :
    InBounds testMode readEof buf c ↔ ¬ (readEof = false ∧ FillsLine c) := by
  constructor
  · rintro ⟨out, hout, -⟩ ⟨rfl, hfills⟩
    unfold connInputAt at hout
    rw [webReadAt_none hlen hfills] at hout
    cases hout
  · intro h
    obtain ⟨buf', n, hcall, hn, -⟩ := connInputAt_eq testMode readEof hlen h
    exact ⟨_, hcall, hn⟩

end Buffer

/-- `buffer_out` of `ctcp_read`. -/
def bufferOut : List UInt8 := List.replicate maxSegDataSize 0

/-- A short line. -/
def shortLine : WebCall := ⟨maxSegDataSize, by decide, .data 97 [newline], .again⟩

/-- A line that fills the buffer. -/
def longLine : WebCall :=
  ⟨maxSegDataSize, by decide, .data 97 (List.replicate (maxSegDataSize - 3) 97 ++ [newline]),
    .again⟩

theorem length_bufferOut : bufferOut.length = maxSegDataSize := List.length_replicate

theorem bytes_longLine :
    longLine.bytes = 97 :: (List.replicate (maxSegDataSize - 3) 97 ++ [newline]) := by
  refine List.take_of_length_le ?_
  rw [List.length_cons, List.length_append, List.length_replicate]
  decide

/-- With `buffer_out`. -/
theorem webInput_in_bounds_iff_short :
    InBounds false false bufferOut shortLine ↔ ¬ (false = false ∧ FillsLine shortLine) :=
  webInput_in_bounds_iff false false length_bufferOut

/-- The terminating zero of a line of 1439 bytes is written behind `buffer_out`. -/
theorem longLine_overruns :
    bufferOut.length = longLine.len ∧ 2 ≤ longLine.len ∧
      ¬ InBounds false false bufferOut longLine := by
  have hfills : FillsLine longLine := by
    constructor
    · rw [bytes_longLine, List.length_cons, List.length_append, List.length_replicate]
      rfl
    · rw [bytes_longLine]
      exact List.getLast?_concat (l := 97 :: List.replicate (maxSegDataSize - 3) 97)
  refine ⟨length_bufferOut, by decide, ?_⟩
  rintro ⟨out, hout, -⟩
  unfold connInputAt at hout
  rw [webReadAt_none length_bufferOut hfills] at hout
  cases hout

/-! ## `ctcp_read` -/

theorem connInputWeb_fits (testMode readEof : Bool) (c : WebCall) :
    connInputWeb testMode readEof c = (true, none) ∨
      ∃ bytes, connInputWeb testMode readEof c = (false, some bytes) ∧ bytes.length ≤ c.len := by
  obtain ⟨hr, hbuf⟩ := webRead_r_le c
  unfold connInputWeb
  split
  · exact Or.inl rfl
  · dsimp only
    split
    · exact Or.inl rfl
    · split
      · exact Or.inr ⟨_, rfl, Nat.zero_le _⟩
      · refine Or.inr ⟨_, rfl, ?_⟩
        rw [List.length_take]
        omega

/-- **The answers to `ctcp_read` are those that `connInput` allows.** -/
theorem connInput_of_web (testMode readEof : Bool) {c : WebCall} (hlen : c.len = maxSegDataSize) :
    ∃ input : Option Chunk, ∀ state : CtcpState, state.conn.readEof = readEof →
      (connInput state input).1.conn.readEof = (connInputWeb testMode readEof c).1 ∧
        (connInput state input).2 = (connInputWeb testMode readEof c).2 := by
  rcases connInputWeb_fits testMode readEof c with hcall | ⟨bytes, hcall, hfits⟩
  · refine ⟨none, fun state heof => ?_⟩
    rw [hcall, connInput]
    split
    · rename_i hread
      exact ⟨hread, rfl⟩
    · exact ⟨rfl, rfl⟩
  · refine ⟨some ⟨bytes, hlen ▸ hfits⟩, fun state heof => ?_⟩
    cases readEof with
    | true => cases hcall
    | false =>
      rw [hcall, connInput, heof]
      exact ⟨heof, rfl⟩

end Ctcp
