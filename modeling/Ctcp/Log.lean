/-
  The log, and how the tester reads it.

  With the tester's options the library prints every segment that it sends or receives: one line of
  fields with tabs between them (`log_segment`, `format_addresses`).  `read_segments_from` of the
  tester finds these lines in what the process has printed, and reads the segments from them: this
  is all that the tests know of the segments.

  `log_read_back`: the tester reads exactly the segments that have been logged, in their order, with
  all fields right, whatever else has been printed in between.  Two things are not obvious.  The
  sequence numbers are printed as signed numbers, and come back when the tester converts them to
  `c_uint`.  And the fields are cut to a fixed size by `snprintf`: all of them fit, up to a time
  stamp of 18 digits.

  `logBuffer_fits`: with the data as a hex dump, the line fits into its buffer.
-/
import Ctcp.Lib.Numeral
import Ctcp.Packet
import Mathlib.Data.Nat.Bitwise

set_option linter.unusedVariables false

namespace Ctcp.Logging

open Numerals Packet

/-! ## `log_segment` -/

abbrev Text := List Char

/-- `LOG_SIZE`. -/
def logSize : Nat := 4 * maxSegDataSize

/-- `LOG_ENTRY_SIZE`. -/
def logEntrySize : Nat := 20

/-- `LOCALHOST_STR`. -/
def localhostStr : Text := ['l', 'o', 'c', 'a', 'l', 'h', 'o', 's', 't']

/-- `TH_FIN`. -/
def thFin : UInt8 := 0x01

/-- `snprintf`: at most `size - 1` characters. -/
def snprintf (size : Nat) (text : Text) : Text := text.take (size - 1)

/-- `%d` of a `uint32_t`. -/
def signed (n : UInt32) : Int := n.toBitVec.toInt

/-- `inet_ntop`, of an address in network order. -/
def inetNtop (ip : UInt32) : Text :=
  ['.'].intercalate ([0, 8, 16, 24].map fun shift => Nat.toDigits 10 ((ip.toNat >>> shift) % 256))

/-- What `log_segment` is called with, and what `current_time` returns. -/
structure Entry where
  time : Nat
  ipAddr : UInt32
  port : UInt16
  conn : SeqConn
  segment : CtcpSegment
  isSentSegment : Bool
  isUnixSocket : Bool
  deriving DecidableEq, Repr

/-- Fields, each with a tab behind it. -/
def tabbed (fields : List Text) : Text := fields.flatMap fun field => field ++ ['\t']

namespace Entry

variable (e : Entry)

/-- The address and the port of the logger, and those of the other. -/
def thisEnd : Text × UInt16 :=
  (if e.isUnixSocket then localhostStr else inetNtop e.ipAddr, e.port)

def otherEnd : Text × UInt16 :=
  (if e.isUnixSocket then localhostStr else inetNtop e.conn.ipAddr, e.conn.port)

/-- Where the segment comes from, and where it goes. -/
def source : Text × UInt16 := if e.isSentSegment then e.thisEnd else e.otherEnd

def dest : Text × UInt16 := if e.isSentSegment then e.otherEnd else e.thisEnd

/-- `format_addresses`. -/
def formatAddresses : Text :=
  snprintf (5 * logEntrySize) (tabbed
    [e.source.1, decimal e.source.2.toNat, e.dest.1, decimal e.dest.2.toNat])

/-- The names of the flags. -/
def flagNames : Text :=
  (if e.segment.flags &&& thSyn.toUInt32 ≠ 0 then snprintf 5 ['S', 'Y', 'N', ' '] else []) ++
    ((if e.segment.flags &&& thAck.toUInt32 ≠ 0 then snprintf 5 ['A', 'C', 'K', ' '] else []) ++
      (if e.segment.flags &&& thFin.toUInt32 ≠ 0 then snprintf 5 ['F', 'I', 'N', ' '] else []))

/-- `buf` in `log_segment`, before the data. -/
def buffer : Text :=
  snprintf logEntrySize (tabbed [decimal e.time]) ++
    (e.formatAddresses ++
      (snprintf (5 * logEntrySize) (tabbed [decimal (signed (ntohl e.segment.seqno)),
          decimal (signed (ntohl e.segment.ackno)), decimal (ntohs e.segment.len).toNat]) ++
        (e.flagNames ++
          snprintf logEntrySize ('\t' :: (decimal (ntohs e.segment.window).toNat ++
            '\t' :: '0' :: 'x' :: Nat.toDigits 16 e.segment.cksum.toNat)))))

end Entry

/-- `hex_dump`. -/
def hexDump (bytes : List UInt8) : Text :=
  snprintf 2 ['\t'] ++
    ((bytes.flatMap fun byte => snprintf 4
        [Nat.digitChar (byte.toNat / 16), Nat.digitChar (byte.toNat % 16), ' ']) ++
      snprintf 2 ['\n'])

/-- The marks of a line for the tester. -/
def marks : Text := ['!', '!', '!']

/-- The line for the tester, without its end. -/
def Entry.line (e : Entry) : Text := marks ++ (e.buffer ++ marks)

/-! ## `read_segments_from` -/

/-- `CTCP_SEGMENT`, without the data. -/
structure CtcpSegmentRepr where
  seqno : UInt32
  ackno : UInt32
  len : UInt16
  flags : UInt32
  window : UInt16
  cksum : UInt16
  deriving DecidableEq, Repr

/-- `Segment`, of the tester. -/
structure Segment where
  time : Int
  source : Text
  sourcePort : Int
  dest : Text
  destPort : Int
  seqno : Int
  ackno : Int
  length : Int
  flags : List Text
  window : Int
  checksum : Text
  string : Text
  cRepr : CtcpSegmentRepr
  deriving DecidableEq, Repr

/-- What can be raised. -/
inductive Raised where
  | indexError
  | valueError
  deriving DecidableEq, Repr

/-- `details[i]`. -/
def field (details : List Text) (i : Nat) : Except Raised Text :=
  match details[i]? with
  | some text => .ok text
  | none => .error .indexError

/-- `int(text)`. -/
def int (text : Text) : Except Raised Int :=
  match readInt text with
  | some z => .ok z
  | none => .error .valueError

/-- `int(text, 16)`. -/
def int16 (text : Text) : Except Raised Int :=
  let digits := match text with
    | '0' :: 'x' :: digits => digits
    | '0' :: 'X' :: digits => digits
    | digits => digits
  match readNumeral 16 digits with
  | some n => .ok n
  | none => .error .valueError

/-- `name in flag`. -/
def occursIn (name flag : Text) : Bool := flag.tails.any fun rest => name.isPrefixOf rest

/-- `convert_flags`. -/
def convertFlags (flags : List Text) : UInt32 :=
  flags.foldl (fun cFlags flag =>
    if occursIn ['A', 'C', 'K'] flag then cFlags ||| 0x10
    else if occursIn ['S', 'Y', 'N'] flag then cFlags ||| 0x02
    else if occursIn ['F', 'I', 'N'] flag then cFlags ||| 0x01
    else cFlags) 0

/-- The body of the loop in `read_segments_from`; the slice `[3:-3]` takes the marks off. -/
def readSegment (segmentLog : Text) : Except Raised Segment := do
  let details := ((segmentLog.drop 3).take (segmentLog.length - 6)).splitOn '\t'
  let time ← int (← field details 0)
  let source ← field details 1
  let sourcePort ← int (← field details 2)
  let dest ← field details 3
  let destPort ← int (← field details 4)
  let seqno ← int (← field details 5)
  let ackno ← int (← field details 6)
  let length ← int (← field details 7)
  let flags := (← field details 8).splitOn ' '
  let window ← int (← field details 9)
  let checksum ← field details 10
  let cksum ← int16 checksum
  return {
    time := time
    source := source
    sourcePort := sourcePort
    dest := dest
    destPort := destPort
    seqno := seqno
    ackno := ackno
    length := length
    flags := flags
    window := window
    checksum := checksum
    string := [','].intercalate details
    cRepr := ⟨UInt32.ofInt seqno, UInt32.ofInt ackno, UInt16.ofInt length, convertFlags flags,
      UInt16.ofInt window, UInt16.ofInt cksum⟩ }

/-- The loop: an `IndexError` ends it, and what has been read is returned. -/
def readSegments : List Text → Except Raised (List Segment)
  | [] => .ok []
  | segmentLog :: rest =>
    match readSegment segmentLog with
    | .ok segment => (readSegments rest).map fun segments => segment :: segments
    | .error .indexError => .ok []
    | .error .valueError => .error .valueError

/-- A line with marks at both ends. -/
def marked (line : Text) : Bool := marks.isPrefixOf line && marks.isSuffixOf line

/-- `read_segments_from`, of what the host has printed. -/
def readSegmentsFrom (log : Text) : Except Raised (List Segment) :=
  readSegments ((log.splitOn '\n').filter marked)

/-! ## The fields of a line -/

namespace Entry

variable (e : Entry)

/-- What is between the tabs. -/
def fields : List Text :=
  [decimal e.time, e.source.1, decimal e.source.2.toNat, e.dest.1, decimal e.dest.2.toNat,
    decimal (signed (ntohl e.segment.seqno)), decimal (signed (ntohl e.segment.ackno)),
    decimal (ntohs e.segment.len).toNat, e.flagNames, decimal (ntohs e.segment.window).toNat,
    '0' :: 'x' :: Nat.toDigits 16 e.segment.cksum.toNat]

/-- The segment that the tester reads. -/
def logged : Segment where
  time := e.time
  source := e.source.1
  sourcePort := e.source.2.toNat
  dest := e.dest.1
  destPort := e.dest.2.toNat
  seqno := signed (ntohl e.segment.seqno)
  ackno := signed (ntohl e.segment.ackno)
  length := (ntohs e.segment.len).toNat
  flags := e.flagNames.splitOn ' '
  window := (ntohs e.segment.window).toNat
  checksum := '0' :: 'x' :: Nat.toDigits 16 e.segment.cksum.toNat
  string := [','].intercalate e.fields
  cRepr := ⟨ntohl e.segment.seqno, ntohl e.segment.ackno, ntohs e.segment.len,
    e.segment.flags &&& 0x13, ntohs e.segment.window, e.segment.cksum⟩

end Entry

/-! ## Nothing is cut off -/

theorem snprintf_eq {size : Nat} {text : Text} (h : text.length < size) :
    snprintf size text = text :=
  List.take_of_length_le (by omega)

theorem length_decimal_lt {n k : Nat} (hk : 0 < k) (h : n < 10 ^ k) :
    (decimal (n : Int)).length ≤ k :=
  (Nat.length_toDigits_le_iff (by decide) hk).mpr h

theorem length_decimal_port (n : UInt16) : (decimal (n.toNat : Int)).length ≤ 5 := by
  have hlt := n.toNat_lt
  exact length_decimal_lt (by decide) (by omega)

/-- A signed number of 32 bits has at most ten digits and a sign. -/
theorem length_decimal_signed (n : UInt32) : (decimal (signed n)).length ≤ 11 := by
  have hlow : -(2 ^ 31 : Int) ≤ signed n := n.toBitVec.le_toInt
  have hhigh : signed n < (2 ^ 31 : Int) := n.toBitVec.toInt_lt
  revert hlow hhigh
  cases signed n with
  | ofNat m =>
    intro hlow hhigh
    have hlen : (Nat.toDigits 10 m).length ≤ 10 :=
      (Nat.length_toDigits_le_iff (by decide) (by decide)).mpr (by
        rw [Int.ofNat_eq_natCast] at hhigh
        omega)
    show (Nat.toDigits 10 m).length ≤ 11
    omega
  | negSucc m =>
    intro hlow hhigh
    have hlen : (Nat.toDigits 10 (m + 1)).length ≤ 10 :=
      (Nat.length_toDigits_le_iff (by decide) (by decide)).mpr (by omega)
    show (Nat.toDigits 10 (m + 1)).length + 1 ≤ 11
    omega

theorem length_inetNtop (ip : UInt32) : (inetNtop ip).length ≤ 15 := by
  have hlen : ∀ shift, (Nat.toDigits 10 ((ip.toNat >>> shift) % 256)).length ≤ 3 := by
    intro shift
    refine (Nat.length_toDigits_le_iff (by decide) (by decide)).mpr ?_
    omega
  have h0 := hlen 0
  have h8 := hlen 8
  have h16 := hlen 16
  have h24 := hlen 24
  simp only [inetNtop, List.map_cons, List.map_nil, List.intercalate_cons_cons,
    List.intercalate_singleton, List.length_append, List.length_singleton]
  omega

namespace Entry

variable (e : Entry)

/-- An end is the local host or an address. -/
theorem ends_of (P : Text → Prop) (hlocal : P localhostStr) (hnet : ∀ ip, P (inetNtop ip)) :
    P e.source.1 ∧ P e.dest.1 := by
  have hthis : P e.thisEnd.1 := by
    unfold thisEnd
    split
    · exact hlocal
    · exact hnet _
  have hother : P e.otherEnd.1 := by
    unfold otherEnd
    split
    · exact hlocal
    · exact hnet _
  unfold source dest
  cases e.isSentSegment with
  | true => exact ⟨hthis, hother⟩
  | false => exact ⟨hother, hthis⟩

theorem length_flagNames : e.flagNames.length ≤ 12 := by
  unfold flagNames
  split <;> split <;> split <;> decide

/-- **The line is its fields**, with the tabs between them. -/
theorem buffer_eq (htime : e.time < 10 ^ 18) : e.buffer = ['\t'].intercalate e.fields := by
  have htime' := length_decimal_lt (by decide) htime
  obtain ⟨hsource, hdest⟩ := e.ends_of (fun text => text.length ≤ 15) (by decide) length_inetNtop
  have hport := length_decimal_port e.source.2
  have hport' := length_decimal_port e.dest.2
  have hseqno := length_decimal_signed (ntohl e.segment.seqno)
  have hackno := length_decimal_signed (ntohl e.segment.ackno)
  have hlen := length_decimal_port (ntohs e.segment.len)
  have hwindow := length_decimal_port (ntohs e.segment.window)
  have hcksum : (Nat.toDigits 16 e.segment.cksum.toNat).length ≤ 4 := by
    have hlt := e.segment.cksum.toNat_lt
    exact (Nat.length_toDigits_le_iff (by decide) (by decide)).mpr (by omega)
  unfold buffer formatAddresses logEntrySize
  rw [@snprintf_eq 20 (tabbed [decimal e.time]), snprintf_eq, snprintf_eq, snprintf_eq]
  · simp only [fields, tabbed, List.flatMap_cons, List.flatMap_nil, List.append_nil,
      List.intercalate_cons_cons, List.intercalate_singleton, List.append_assoc,
      List.cons_append, List.nil_append]
  all_goals
    simp only [tabbed, List.flatMap_cons, List.flatMap_nil, List.length_append, List.length_cons,
      List.length_nil]
    omega

end Entry

/-! ## No field has a separator in it -/

theorem not_mem_inetNtop {c : Char} (hc : digitValue c = none) (hdot : c ≠ '.') (ip : UInt32) :
    c ∉ inetNtop ip := by
  have hbyte : ∀ n, c ∉ Nat.toDigits 10 n := fun n => not_mem_toDigits (by decide) (by decide) hc
  simp only [inetNtop, List.map_cons, List.map_nil, List.intercalate_cons_cons,
    List.intercalate_singleton, List.mem_append, List.mem_singleton, not_or]
  exact ⟨⟨hbyte _, hdot⟩, ⟨hbyte _, hdot⟩, ⟨hbyte _, hdot⟩, hbyte _⟩

namespace Entry

variable (e : Entry)

theorem not_mem_flagNames {c : Char} (hc : c = '\t' ∨ c = '\n') : c ∉ e.flagNames := by
  unfold flagNames
  rcases hc with rfl | rfl <;> split <;> split <;> split <;> decide

/-- Tabs are between the fields only, and a line has no end within it. -/
theorem not_mem_fields {c : Char} (hc : c = '\t' ∨ c = '\n') : ∀ text ∈ e.fields, c ∉ text := by
  have hdigit : digitValue c = none := by rcases hc with rfl | rfl <;> decide
  have hminus : c ≠ '-' := by rcases hc with rfl | rfl <;> decide
  have hdot : c ≠ '.' := by rcases hc with rfl | rfl <;> decide
  have hzero : c ≠ '0' := by rcases hc with rfl | rfl <;> decide
  have hx : c ≠ 'x' := by rcases hc with rfl | rfl <;> decide
  have hlocal : c ∉ localhostStr := by rcases hc with rfl | rfl <;> decide
  have hnumber : ∀ z, c ∉ decimal z := not_mem_decimal hdigit hminus
  have hhex : c ∉ '0' :: 'x' :: Nat.toDigits 16 e.segment.cksum.toNat := by
    simp only [List.mem_cons, not_or]
    exact ⟨hzero, hx, not_mem_toDigits (by decide) (by decide) hdigit⟩
  obtain ⟨hsource, hdest⟩ := e.ends_of (fun text => c ∉ text) hlocal
    (not_mem_inetNtop hdigit hdot)
  intro text htext
  simp only [fields, List.mem_cons, List.not_mem_nil, or_false] at htext
  rcases htext with rfl | rfl | rfl | rfl | rfl | rfl | rfl | rfl | rfl | rfl | rfl
  · exact hnumber _
  · exact hsource
  · exact hnumber _
  · exact hdest
  · exact hnumber _
  · exact hnumber _
  · exact hnumber _
  · exact hnumber _
  · exact e.not_mem_flagNames hc
  · exact hnumber _
  · exact hhex

/-- The tester finds the fields. -/
theorem splitOn_buffer (htime : e.time < 10 ^ 18) : e.buffer.splitOn '\t' = e.fields := by
  rw [e.buffer_eq htime]
  exact List.splitOn_intercalate _ (e.not_mem_fields (Or.inl rfl)) (List.cons_ne_nil _ _)

/-- A line is one line. -/
theorem not_mem_line (htime : e.time < 10 ^ 18) : '\n' ∉ e.line := by
  have hmarks : '\n' ∉ marks := by decide
  have hbuffer : '\n' ∉ e.buffer := by
    rw [e.buffer_eq htime]
    exact not_mem_intercalate (by decide) _ (e.not_mem_fields (Or.inr rfl))
  simp only [line, List.mem_append, not_or]
  exact ⟨hmarks, hbuffer, hmarks⟩

end Entry

/-! ## What the tester reads in a line -/

/-- The tester's `c_uint` takes a negative number for what it was before it was printed. -/
theorem ofInt_signed (n : UInt32) : UInt32.ofInt (signed n) = n := by
  have hlt := n.toNat_lt
  have hmod : (signed n % 2 ^ 32).toNat = n.toNat := by
    have hval : signed n = if 2 * n.toNat < 2 ^ 32 then (n.toNat : Int) else n.toNat - 2 ^ 32 :=
      BitVec.toInt_eq_toNat_cond n.toBitVec
    rw [hval]
    split <;> omega
  unfold UInt32.ofInt
  rw [hmod]
  exact UInt32.ofNat_toNat

theorem ofInt_toNat (n : UInt16) : UInt16.ofInt (n.toNat : Int) = n := by
  have hlt := n.toNat_lt
  have hmod : ((n.toNat : Int) % 2 ^ 16).toNat = n.toNat := by omega
  unfold UInt16.ofInt
  rw [hmod]
  exact UInt16.ofNat_toNat

theorem int_decimal (z : Int) : int (decimal z) = .ok z := by
  unfold int
  rw [readInt_decimal]

theorem int16_toDigits (n : Nat) : int16 ('0' :: 'x' :: Nat.toDigits 16 n) = .ok (n : Int) := by
  have hread := @readNumeral_toDigits 16 n (by decide) (by decide)
  simp only [int16, hread]

theorem flag_cases (flags bit : UInt32) (i : Nat) (hbit : bit.toNat = 2 ^ i) :
    flags &&& bit = 0 ∨ flags &&& bit = bit := by
  have hand : (flags &&& bit).toNat = (flags.toNat.testBit i).toNat * 2 ^ i := by
    rw [UInt32.toNat_and, hbit, Nat.and_two_pow]
  cases htest : flags.toNat.testBit i with
  | false => exact Or.inl (UInt32.toNat_inj.mp (by rw [hand, htest]; simp))
  | true => exact Or.inr (UInt32.toNat_inj.mp (by rw [hand, htest, hbit]; simp))

/-- The mask of the tester's three flags. -/
theorem and_flags (flags : UInt32) :
    flags &&& 0x13 =
      (flags &&& thSyn.toUInt32) |||
        ((flags &&& thAck.toUInt32) ||| (flags &&& thFin.toUInt32)) := by
  rw [← UInt32.toBitVec_inj]
  simp only [UInt32.toBitVec_and, UInt32.toBitVec_or, ← BitVec.and_or_distrib_left]
  rfl

namespace Entry

variable (e : Entry)

/-- The flags come back from their names. -/
theorem convertFlags_names : convertFlags (e.flagNames.splitOn ' ') = e.segment.flags &&& 0x13 := by
  rw [and_flags]
  unfold flagNames
  -- each flag is there or not: eight texts
  rcases flag_cases e.segment.flags thSyn.toUInt32 1 rfl with h | h <;>
    rcases flag_cases e.segment.flags thAck.toUInt32 4 rfl with h' | h' <;>
      rcases flag_cases e.segment.flags thFin.toUInt32 0 rfl with h'' | h'' <;>
        rw [h, h', h''] <;> decide

/-- Between the marks there is the buffer. -/
theorem slice_line : (e.line.drop 3).take (e.line.length - 6) = e.buffer := by
  have hlength : e.line.length - 6 = e.buffer.length := by
    simp only [line, marks, List.length_append, List.length_cons, List.length_nil]
    omega
  have hdrop : e.line.drop 3 = e.buffer ++ marks := rfl
  rw [hdrop, hlength, List.take_left]

/-- **A line is read as what has been logged.** -/
theorem readSegment_line (htime : e.time < 10 ^ 18) : readSegment e.line = .ok e.logged := by
  unfold readSegment
  rw [e.slice_line, e.splitOn_buffer htime]
  have hflags := e.convertFlags_names
  simp only [fields, field, List.getElem?_cons_zero, List.getElem?_cons_succ, int_decimal,
    int16_toDigits, bind, Except.bind, pure, Except.pure, ofInt_signed, ofInt_toNat, hflags]
  rfl

end Entry

/-! ## What the tester reads of all that is printed -/

/-- A line of what the process prints: a segment, or anything else. -/
inductive Printed where
  | segment (entry : Entry)
  | other (text : Text)
  deriving DecidableEq, Repr

namespace Printed

def text : Printed → Text
  | .segment entry => entry.line
  | .other text => text

/-- The segment that it shows. -/
def segment? : Printed → Option Segment
  | .segment entry => some entry.logged
  | .other _ => none

/-- The time stamp is not cut off; other lines are lines, and are not marked as segments. -/
def Readable : Printed → Prop
  | .segment entry => entry.time < 10 ^ 18
  | .other text => '\n' ∉ text ∧ marked text = false

end Printed

/-- All that the process has printed. -/
def output (printed : List Printed) : Text := printed.flatMap fun line => line.text ++ ['\n']

theorem marked_line (e : Entry) : marked e.line = true := by
  have hprefix : marks.isPrefixOf e.line = true :=
    List.isPrefixOf_iff_prefix.mpr (List.prefix_append _ _)
  have hsuffix : marks.isSuffixOf e.line = true :=
    List.isSuffixOf_iff_suffix.mpr ((List.suffix_append _ _).trans (List.suffix_append _ _))
  rw [marked, hprefix, hsuffix]
  rfl

/-- The lines with marks are those of the segments. -/
theorem readSegments_output (printed : List Printed) (hreadable : ∀ line ∈ printed, line.Readable) :
    readSegments ((printed.map Printed.text).filter marked) =
      .ok (printed.filterMap Printed.segment?) := by
  induction printed with
  | nil => rfl
  | cons line printed ih =>
    have hline := hreadable line List.mem_cons_self
    have hrest := ih fun other hother => hreadable other (List.mem_cons_of_mem _ hother)
    cases line with
    | segment entry =>
      have hread : readSegment (Printed.segment entry).text = .ok entry.logged :=
        entry.readSegment_line hline
      have hmarked : marked (Printed.segment entry).text = true := marked_line entry
      rw [List.map_cons, List.filter_cons_of_pos hmarked, readSegments, hread]
      dsimp only
      rw [hrest]
      rfl
    | other text =>
      have hmarked : marked (Printed.other text).text = false := hline.2
      rw [List.map_cons, List.filter_cons_of_neg (by rw [hmarked]; decide), hrest]
      rfl

/-- A segment whose sequence number is printed as `-6`. -/
def negativeEntry : Entry where
  time := 1700000000123
  ipAddr := 0x0100007f
  port := 9999
  conn := ⟨0x0200000a, 8888, 0, 0, 0, 0, 0⟩
  segment := ⟨htonl 0xfffffffa, htonl 7, htons 21, 0, thAck.toUInt32, htons 1440, 0xbeef, [65]⟩
  isSentSegment := true
  isUnixSocket := false

/-- **The tester reads what has been logged**, segment by segment, whatever else is printed. -/
theorem log_read_back (printed : List Printed) (hreadable : ∀ line ∈ printed, line.Readable) :
    readSegmentsFrom (output printed) = .ok (printed.filterMap Printed.segment?) := by
  have hlines : ∀ line ∈ printed.map Printed.text, '\n' ∉ line := by
    intro line hline
    obtain ⟨shown, hshown, rfl⟩ := List.mem_map.mp hline
    have hread := hreadable shown hshown
    cases shown with
    | segment entry => exact entry.not_mem_line hread
    | other text => exact hread.1
  have hempty : marked [] = false := by decide
  have houtput : output printed =
      (printed.map Printed.text).flatMap fun line => line ++ ['\n'] := by
    rw [List.flatMap_map]
    rfl
  rw [readSegmentsFrom, houtput, splitOn_lines _ hlines, List.filter_append,
    List.filter_cons_of_neg (by rw [hempty]; decide), List.filter_nil, List.append_nil,
    readSegments_output printed hreadable]

theorem log_read_back_negative :
    negativeEntry.line =
      "!!!1700000000123\t127.0.0.1\t9999\t10.0.0.2\t8888\t-6\t7\t21\tACK \t1440\t0xbeef!!!".toList ∧
    negativeEntry.logged.cRepr = ⟨0xfffffffa, 7, 21, 0x10, 1440, 0xbeef⟩ ∧
    readSegmentsFrom (output [.other ['a'], .segment negativeEntry, .other ['#', '#', '#']]) =
      .ok [negativeEntry.logged] := by
  refine ⟨by decide +kernel, by decide +kernel, log_read_back _ fun line hline => ?_⟩
  simp only [List.mem_cons, List.not_mem_nil, or_false] at hline
  rcases hline with rfl | rfl | rfl
  · exact ⟨by decide, by decide⟩
  · show negativeEntry.time < 10 ^ 18
    decide
  · exact ⟨by decide, by decide⟩

/-! ## The buffer -/

theorem length_snprintf (size : Nat) (text : Text) : (snprintf size text).length ≤ size - 1 := by
  rw [snprintf, List.length_take]
  exact Nat.min_le_left _ _

theorem length_hexDump (bytes : List UInt8) : (hexDump bytes).length ≤ 3 * bytes.length + 2 := by
  have hbytes : (bytes.flatMap fun byte => snprintf 4
      [Nat.digitChar (byte.toNat / 16), Nat.digitChar (byte.toNat % 16), ' ']).length =
        3 * bytes.length := by
    induction bytes with
    | nil => rfl
    | cons byte bytes ih =>
      have hone : (snprintf 4
          [Nat.digitChar (byte.toNat / 16), Nat.digitChar (byte.toNat % 16), ' ']).length = 3 := rfl
      rw [List.flatMap_cons, List.length_append, ih, hone, List.length_cons]
      omega
  have htab := length_snprintf 2 ['\t']
  have hend := length_snprintf 2 ['\n']
  rw [hexDump, List.length_append, List.length_append, hbytes]
  omega

/-- **No overflow**: the line and the dump of a full segment, with the final zero, are in `buf`. -/
theorem logBuffer_fits (e : Entry) {bytes : List UInt8} (hbytes : bytes.length ≤ maxSegDataSize) :
    (e.buffer ++ hexDump bytes).length < logSize := by
  have hdump := length_hexDump bytes
  have hflags := e.length_flagNames
  have htime := length_snprintf logEntrySize (tabbed [decimal e.time])
  have hends := length_snprintf (5 * logEntrySize) (tabbed
    [e.source.1, decimal e.source.2.toNat, e.dest.1, decimal e.dest.2.toNat])
  have hnumbers := length_snprintf (5 * logEntrySize) (tabbed
    [decimal (signed (ntohl e.segment.seqno)), decimal (signed (ntohl e.segment.ackno)),
      decimal (ntohs e.segment.len).toNat])
  have hlast := length_snprintf logEntrySize
    ('\t' :: (decimal (ntohs e.segment.window).toNat ++
      '\t' :: '0' :: 'x' :: Nat.toDigits 16 e.segment.cksum.toNat))
  unfold logEntrySize at htime hends hnumbers hlast
  unfold Entry.buffer Entry.formatAddresses logSize logEntrySize
  unfold maxSegDataSize at hbytes ⊢
  simp only [List.length_append]
  omega

end Ctcp.Logging
