/-
  The cTCP segment (`ctcp_sys.h`, `ctcp_utils.c`, and the segment helpers of `ctcp.c`).

  `CtcpSegment` is the C struct with the values its fields hold in memory.  The same struct is
  used in both byte orders: `_segment_send` fills it in host order and converts it in place with
  `_segment_hton`; a received one is in network order until `_segment_ntoh`.  The host is
  little-endian (the Makefile builds for x86-64), so `htonl` and `htons` reverse the bytes, and
  the flag constants `ACK = ntohl(TH_ACK)` and `FIN = ntohl(TH_FIN)` of `ctcp.h` are the TCP flag
  bits moved to the top byte.

  `data` is the memory after the 20-byte header up to the end of the received (or allocated)
  buffer, so it may be longer than `len` says (padding) or shorter (a truncated segment); `pad`
  is the pair of bytes the compiler leaves between `len` and `flags`, which the checksum covers.
-/
import Mathlib.Algebra.Group.Nat.Defs

namespace Ctcp

/-! ## Byte order -/

/-- `htons`/`ntohs` on a little-endian host. -/
def htons (x : UInt16) : UInt16 := (x <<< 8) ||| (x >>> 8)

/-- `htonl`/`ntohl` on a little-endian host. -/
def htonl (x : UInt32) : UInt32 :=
  let b := x.toBitVec
  ⟨b.extractLsb' 0 8 ++ b.extractLsb' 8 8 ++ b.extractLsb' 16 8 ++ b.extractLsb' 24 8⟩

/-- The conversions to and from network order are one function, as on every little-endian host. -/
abbrev ntohs : UInt16 → UInt16 := htons

/-- See `ntohs`. -/
abbrev ntohl : UInt32 → UInt32 := htonl

@[simp] theorem htons_htons (x : UInt16) : htons (htons x) = x := by
  apply UInt16.toBitVec_inj.mp
  apply BitVec.eq_of_getLsbD_eq
  intro i hi
  simp [htons]
  grind

@[simp] theorem htonl_htonl (x : UInt32) : htonl (htonl x) = x := by
  apply UInt32.toBitVec_inj.mp
  apply BitVec.eq_of_getLsbD_eq
  intro i hi
  simp only [htonl, BitVec.getLsbD_append, BitVec.getLsbD_extractLsb']
  grind

/-! ## Constants -/

/-- `MAX_SEG_DATA_SIZE` (`ctcp.h`). -/
def maxSegDataSize : Nat := 1440

/-- `SEGMENT_HDR_SIZE`, that is `sizeof(ctcp_segment_t)`. -/
def segmentHdrSize : Nat := 20

/-- `ACK`, with `TH_ACK = 0x10`. -/
def ACK : UInt32 := ntohl 0x10

/-- `FIN`, with `TH_FIN = 0x01`. -/
def FIN : UInt32 := ntohl 0x01

/-! ## The segment -/

/-- `ctcp_segment_t`. -/
structure CtcpSegment where
  seqno : UInt32
  ackno : UInt32
  len : UInt16
  pad : UInt16
  flags : UInt32
  window : UInt16
  cksum : UInt16
  data : List UInt8
  deriving DecidableEq, Repr

/-- The bytes of a 16-bit field in memory. -/
def le16 (x : UInt16) : List UInt8 := [x.toUInt8, (x >>> 8).toUInt8]

/-- The bytes of a 32-bit field in memory. -/
def le32 (x : UInt32) : List UInt8 :=
  [x.toUInt8, (x >>> 8).toUInt8, (x >>> 16).toUInt8, (x >>> 24).toUInt8]

/-- The memory image of the segment, as `cksum` reads it through its `void *` argument. -/
def CtcpSegment.bytes (segment : CtcpSegment) : List UInt8 :=
  le32 segment.seqno ++ le32 segment.ackno ++ le16 segment.len ++ le16 segment.pad
    ++ le32 segment.flags ++ le16 segment.window ++ le16 segment.cksum ++ segment.data

/-- `_segment_hton`: every field but the checksum. -/
def segmentHton (segment : CtcpSegment) : CtcpSegment :=
  { segment with
    seqno := htonl segment.seqno
    ackno := htonl segment.ackno
    len := htons segment.len
    flags := htonl segment.flags
    window := htons segment.window }

/-- `_segment_ntoh`. -/
def segmentNtoh (segment : CtcpSegment) : CtcpSegment :=
  { segment with
    seqno := ntohl segment.seqno
    ackno := ntohl segment.ackno
    len := ntohs segment.len
    flags := ntohl segment.flags
    window := ntohs segment.window }

@[simp] theorem segmentNtoh_hton (segment : CtcpSegment) :
    segmentNtoh (segmentHton segment) = segment := by
  simp only [segmentNtoh, segmentHton, htons_htons, htonl_htonl]

/-! ## The checksum -/

/-- The first loop of `cksum`: 16-bit big-endian words added into a `uint32_t`, an odd last byte
    counting as the high half of a word. -/
def cksumLoop : List UInt8 → UInt32 → UInt32
  | hi :: lo :: data, sum => cksumLoop data (sum + ((hi.toUInt32 <<< 8) ||| lo.toUInt32))
  | [hi], sum => sum + (hi.toUInt32 <<< 8)
  | [], sum => sum

/-- The second loop of `cksum`, at most `fuel` rounds of it. -/
def cksumFold : Nat → UInt32 → UInt32
  | 0, sum => sum
  | fuel + 1, sum => if sum > 0xffff then cksumFold fuel ((sum >>> 16) + (sum &&& 0xffff)) else sum

/-- `cksum`, over the `len` bytes `data`.  Three rounds bring any 32-bit sum below `2 ^ 16`. -/
def cksum (data : List UInt8) : UInt16 :=
  let sum := cksumFold 3 (cksumLoop data 0)
  let sum := htons (~~~sum).toUInt16
  if sum = 0 then 0xffff else sum

/-- `_is_segment_valid`; `true` is the result `0`.  The C function also leaves `cksum` cleared in
    the segment, which nothing reads afterwards. -/
def isSegmentValid (segment : CtcpSegment) (len : UInt16) : Bool :=
  let segmentLen := ntohs segment.len
  if segmentLen > len then false
  else
    let sum := segment.cksum
    let segment := { segment with cksum := 0 }
    cksum (segment.bytes.take segmentLen.toNat) == sum

end Ctcp
