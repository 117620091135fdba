/-
  The checksum detects every flip of one bit.

  `cksum` is the ones' complement of the ones' complement sum of the words, with `0` replaced by
  `0xffff`.  Both zeros of the sum lead to `0xffff`, so two buffers have the same checksum exactly
  when their sums have the same residue modulo `2 ^ 16 - 1` (`cksum_inj`).

  A segment goes over the wire as its bytes, and the receiver reads them in place
  (`CtcpSegment.ofBytes`).  `bit_flip_rejected`: what `_segment_send` builds arrives as it was sent,
  and with one bit flipped, wherever outside of `len`, `ctcp_receive` drops it and does nothing.
-/
import Mathlib.Data.List.GetD
import Ctcp.Wire
import Ctcp.Lib.OnesSum

set_option linter.unusedVariables false

namespace Ctcp

open OnesSum

/-! ## What `cksum` computes -/

theorem toNat_word (hi lo : UInt8) :
    ((hi.toUInt32 <<< 8) ||| lo.toUInt32).toNat = 256 * hi.toNat + lo.toNat := by
  have hhi := hi.toNat_lt
  have hlo := lo.toNat_lt
  have hshift : (hi.toUInt32 <<< 8).toNat = hi.toNat <<< 8 := by
    rw [UInt32.toNat_shiftLeft, Nat.shiftLeft_eq, Nat.shiftLeft_eq]
    simp
    omega
  rw [UInt32.toNat_or, hshift, UInt8.toNat_toUInt32, ← Nat.shiftLeft_add_eq_or_of_lt hlo,
    Nat.shiftLeft_eq]
  omega

/-- The first loop adds up the words, as long as the sum stays in 32 bits. -/
theorem toNat_cksumLoop {data : List UInt8} {sum : UInt32}
    (h : sum.toNat + wordSum data < 2 ^ 32) :
    (cksumLoop data sum).toNat = sum.toNat + wordSum data := by
  induction data, sum using cksumLoop.induct with
  | case1 hi lo data sum ih =>
    have hword := toNat_word hi lo
    simp only [wordSum] at h ⊢
    have hsum : (sum + ((hi.toUInt32 <<< 8) ||| lo.toUInt32)).toNat
        = sum.toNat + (256 * hi.toNat + lo.toNat) := by
      rw [UInt32.toNat_add, hword]
      omega
    rw [cksumLoop, ih (by omega), hsum]
    omega
  | case2 hi sum =>
    have hword := toNat_word hi 0
    have hor : (hi.toUInt32 <<< 8) ||| (0 : UInt8).toUInt32 = hi.toUInt32 <<< 8 := UInt32.or_zero
    have hzero : (0 : UInt8).toNat = 0 := rfl
    simp only [wordSum] at h ⊢
    rw [hor, hzero] at hword
    rw [cksumLoop, UInt32.toNat_add, hword]
    omega
  | case3 sum => rfl

/-- One round of the second loop. -/
theorem toNat_round (sum : UInt32) :
    ((sum >>> 16) + (sum &&& 0xffff)).toNat = fold sum.toNat := by
  have hlt := sum.toNat_lt
  have hlow : (sum &&& 0xffff).toNat = sum.toNat % 65536 := by
    rw [UInt32.toNat_and]
    exact Nat.and_two_pow_sub_one_eq_mod sum.toNat 16
  have hhigh : (sum >>> 16).toNat = sum.toNat / 65536 := by
    rw [UInt32.toNat_shiftRight]
    exact Nat.shiftRight_eq_div_pow sum.toNat 16
  rw [UInt32.toNat_add, hlow, hhigh, fold]
  omega

/-- The second loop keeps the residue. -/
theorem cksumFold_mod (fuel : Nat) (sum : UInt32) :
    (cksumFold fuel sum).toNat % 65535 = sum.toNat % 65535 := by
  induction fuel generalizing sum with
  | zero => rfl
  | succ fuel ih =>
    rw [cksumFold]
    split
    · rw [ih, toNat_round, fold_mod]
    · rfl

/-- A sum of 16 bits is left alone. -/
theorem cksumFold_small {sum : UInt32} (h : sum.toNat ≤ 65535) (fuel : Nat) :
    cksumFold fuel sum = sum := by
  have hle : ¬ sum > 0xffff := UInt32.not_lt.mpr h
  cases fuel with
  | zero => rfl
  | succ fuel => rw [cksumFold, if_neg hle]

/-- More rounds go on where the first ones stopped. -/
theorem cksumFold_add (n m : Nat) (sum : UInt32) :
    cksumFold (n + m) sum = cksumFold m (cksumFold n sum) := by
  induction n generalizing sum with
  | zero => rw [Nat.zero_add, cksumFold]
  | succ n ih =>
    rw [Nat.add_right_comm, cksumFold, cksumFold]
    split
    · exact ih _
    · rename_i hle
      exact (cksumFold_small (UInt32.not_lt.mp hle) m).symm

/-- Two rounds bring the sum below `2 ^ 16`. -/
theorem cksumFold_two_le (sum : UInt32) : (cksumFold 2 sum).toNat ≤ 65535 := by
  have hsecond := fold_fold_le (fold_le sum.toNat_lt)
  rw [← toNat_round, ← toNat_round] at hsecond
  rw [cksumFold]
  split
  · rw [cksumFold]
    split
    · exact hsecond
    · rename_i hle
      exact UInt32.not_lt.mp hle
  · rename_i hle
    exact UInt32.not_lt.mp hle

/-- There is nothing left for a third. -/
theorem cksumFold_done {fuel : Nat} (hfuel : 2 ≤ fuel) (sum : UInt32) :
    cksumFold fuel sum = cksumFold 2 sum := by
  rw [← Nat.add_sub_cancel' hfuel, cksumFold_add]
  exact cksumFold_small (cksumFold_two_le sum) _

theorem cksumFold_le (sum : UInt32) : (cksumFold 3 sum).toNat ≤ 65535 := by
  rw [cksumFold_done (by decide)]
  exact cksumFold_two_le sum

/-- **The checksum in closed form.** -/
theorem cksum_eq {data : List UInt8} (h : data.length < 2 ^ 16) :
    cksum data = htons (UInt16.ofNat (65535 - wordSum data % 65535)) := by
  have hle := wordSum_le data
  have hzero : (0 : UInt32).toNat = 0 := rfl
  have hsum : (cksumLoop data 0).toNat = wordSum data := by
    rw [toNat_cksumLoop (by omega), hzero, Nat.zero_add]
  have hmod := cksumFold_mod 3 (cksumLoop data 0)
  have hfold := cksumFold_le (cksumLoop data 0)
  rw [hsum] at hmod
  unfold cksum
  generalize cksumFold 3 (cksumLoop data 0) = sum at hmod hfold ⊢
  have hnot : (~~~sum).toUInt16 = UInt16.ofNat (65535 - sum.toNat) := by
    have hsize : UInt32.size = 2 ^ 32 := rfl
    apply UInt16.toNat_inj.mp
    rw [UInt32.toNat_toUInt16, UInt32.toNat_not, UInt16.toNat_ofNat', hsize]
    omega
  show (if htons (~~~sum).toUInt16 = 0 then 0xffff else htons (~~~sum).toUInt16) = _
  rw [hnot]
  by_cases hfull : sum.toNat = 65535
  · -- the other zero
    have hres : wordSum data % 65535 = 0 := by omega
    rw [hfull, hres]
    rfl
  · have hres : wordSum data % 65535 = sum.toNat := by omega
    have hne : htons (UInt16.ofNat (65535 - sum.toNat)) ≠ 0 := by
      intro hzero
      have hback : UInt16.ofNat (65535 - sum.toNat) = htons 0 := by
        rw [← hzero, htons_htons]
      have hnat := congrArg UInt16.toNat hback
      rw [UInt16.toNat_ofNat', show (htons 0).toNat = 0 from rfl] at hnat
      omega
    rw [if_neg hne, hres]

/-- **Two checksums are equal when the sums have the same residue, and only then.** -/
theorem cksum_inj {data data' : List UInt8} (h : data.length < 2 ^ 16)
    (h' : data'.length < 2 ^ 16) :
    cksum data = cksum data' ↔ wordSum data % 65535 = wordSum data' % 65535 := by
  rw [cksum_eq h, cksum_eq h']
  constructor
  · intro heq
    have hnat := congrArg (UInt16.toNat ∘ htons) heq
    simp only [Function.comp_apply, htons_htons, UInt16.toNat_ofNat'] at hnat
    omega
  · intro heq
    rw [heq]

/-! ## The bytes of a segment -/

/-- A 16-bit field at offset `i`, on a little-endian host. -/
def u16At (bytes : List UInt8) (i : Nat) : UInt16 :=
  UInt16.ofNat ((bytes.getD i 0).toNat + 256 * (bytes.getD (i + 1) 0).toNat)

/-- A 32-bit field at offset `i`. -/
def u32At (bytes : List UInt8) (i : Nat) : UInt32 :=
  UInt32.ofNat ((bytes.getD i 0).toNat + 256 * (bytes.getD (i + 1) 0).toNat
    + 65536 * (bytes.getD (i + 2) 0).toNat + 16777216 * (bytes.getD (i + 3) 0).toNat)

/-- A received buffer, read through a `ctcp_segment_t *`. -/
def CtcpSegment.ofBytes (bytes : List UInt8) : CtcpSegment :=
  { seqno := u32At bytes 0
    ackno := u32At bytes 4
    len := u16At bytes 8
    pad := u16At bytes 10
    flags := u32At bytes 12
    window := u16At bytes 16
    cksum := u16At bytes 18
    data := bytes.drop 20 }

/-- `flipbit`. -/
def flipbit (data : List UInt8) (bit : Nat) : List UInt8 :=
  data.set (bit / 8) (data.getD (bit / 8) 0 ^^^ (1 <<< UInt8.ofNat (bit % 8)))

/-! A field is the number that its bytes spell. -/

section Fields

variable (x : UInt16) (y : UInt32) (a b c d : UInt8)

theorem toNat_low16 : x.toUInt8.toNat = x.toNat % 256 := UInt16.toNat_toUInt8 x

theorem toNat_high16 : (x >>> 8).toUInt8.toNat = x.toNat / 256 := by
  have hlt := x.toNat_lt
  rw [UInt16.toNat_toUInt8, UInt16.toNat_shiftRight, Nat.shiftRight_eq_div_pow]
  show x.toNat / 256 % 256 = x.toNat / 256
  omega

theorem toNat_byte32 {k : UInt32} (hk : k.toNat < 32) :
    (y >>> k).toUInt8.toNat = y.toNat / 2 ^ k.toNat % 256 := by
  rw [UInt32.toNat_toUInt8, UInt32.toNat_shiftRight, Nat.mod_eq_of_lt hk,
    Nat.shiftRight_eq_div_pow]

theorem ofNat_le16 : UInt16.ofNat (x.toUInt8.toNat + 256 * (x >>> 8).toUInt8.toNat) = x := by
  apply UInt16.toNat_inj.mp
  have hlt := x.toNat_lt
  rw [UInt16.toNat_ofNat', toNat_low16, toNat_high16]
  omega

theorem ofNat_le32 :
    UInt32.ofNat (y.toUInt8.toNat + 256 * (y >>> 8).toUInt8.toNat
      + 65536 * (y >>> 16).toUInt8.toNat + 16777216 * (y >>> 24).toUInt8.toNat) = y := by
  apply UInt32.toNat_inj.mp
  have hlt := y.toNat_lt
  have h8 : (y >>> 8).toUInt8.toNat = y.toNat / 256 % 256 := toNat_byte32 y (by decide)
  have h16 : (y >>> 16).toUInt8.toNat = y.toNat / 65536 % 256 := toNat_byte32 y (by decide)
  have h24 : (y >>> 24).toUInt8.toNat = y.toNat / 16777216 % 256 := toNat_byte32 y (by decide)
  rw [UInt32.toNat_ofNat', UInt32.toNat_toUInt8, h8, h16, h24]
  omega

theorem le16_ofNat : le16 (UInt16.ofNat (a.toNat + 256 * b.toNat)) = [a, b] := by
  have ha := a.toNat_lt
  have hb := b.toNat_lt
  have hlow : (UInt16.ofNat (a.toNat + 256 * b.toNat)).toUInt8 = a := by
    apply UInt8.toNat_inj.mp
    rw [toNat_low16, UInt16.toNat_ofNat']
    omega
  have hhigh : (UInt16.ofNat (a.toNat + 256 * b.toNat) >>> 8).toUInt8 = b := by
    apply UInt8.toNat_inj.mp
    rw [toNat_high16, UInt16.toNat_ofNat']
    omega
  rw [le16, hlow, hhigh]

theorem le32_ofNat :
    le32 (UInt32.ofNat (a.toNat + 256 * b.toNat + 65536 * c.toNat + 16777216 * d.toNat))
      = [a, b, c, d] := by
  have ha := a.toNat_lt
  have hb := b.toNat_lt
  have hc := c.toNat_lt
  have hd := d.toNat_lt
  generalize hz : UInt32.ofNat (a.toNat + 256 * b.toNat + 65536 * c.toNat + 16777216 * d.toNat)
    = z
  have hnat : z.toNat
      = a.toNat + 256 * b.toNat + 65536 * c.toNat + 16777216 * d.toNat := by
    rw [← hz, UInt32.toNat_ofNat']
    omega
  have h0 : z.toUInt8 = a := by
    apply UInt8.toNat_inj.mp
    rw [UInt32.toNat_toUInt8, hnat]
    omega
  have h8 : (z >>> 8).toUInt8 = b := by
    apply UInt8.toNat_inj.mp
    rw [toNat_byte32 z (by decide), hnat]
    show _ / 256 % 256 = b.toNat
    omega
  have h16 : (z >>> 16).toUInt8 = c := by
    apply UInt8.toNat_inj.mp
    rw [toNat_byte32 z (by decide), hnat]
    show _ / 65536 % 256 = c.toNat
    omega
  have h24 : (z >>> 24).toUInt8 = d := by
    apply UInt8.toNat_inj.mp
    rw [toNat_byte32 z (by decide), hnat]
    show _ / 16777216 % 256 = d.toNat
    omega
  rw [le32, h0, h8, h16, h24]

end Fields

/-- **The receiver reads what was written.** -/
@[simp] theorem ofBytes_bytes (segment : CtcpSegment) :
    CtcpSegment.ofBytes segment.bytes = segment := by
  have hseqno : u32At segment.bytes 0 = segment.seqno := ofNat_le32 segment.seqno
  have hackno : u32At segment.bytes 4 = segment.ackno := ofNat_le32 segment.ackno
  have hlen : u16At segment.bytes 8 = segment.len := ofNat_le16 segment.len
  have hpad : u16At segment.bytes 10 = segment.pad := ofNat_le16 segment.pad
  have hflags : u32At segment.bytes 12 = segment.flags := ofNat_le32 segment.flags
  have hwindow : u16At segment.bytes 16 = segment.window := ofNat_le16 segment.window
  have hcksum : u16At segment.bytes 18 = segment.cksum := ofNat_le16 segment.cksum
  have hdata : segment.bytes.drop 20 = segment.data := rfl
  rw [CtcpSegment.ofBytes, hseqno, hackno, hlen, hpad, hflags, hwindow, hcksum, hdata]

theorem map_range_getD {bytes : List UInt8} {n : Nat} (h : n ≤ bytes.length) :
    (List.range n).map (fun i => bytes.getD i 0) = bytes.take n := by
  apply List.ext_getElem
  · rw [List.length_map, List.length_range, List.length_take_of_le h]
  · intro i hi hi'
    have hlt : i < bytes.length := by
      rw [List.length_take] at hi'
      omega
    rw [List.getElem_map, List.getElem_range, List.getElem_take, List.getD_eq_getElem _ _ hlt]

/-- Every buffer of at least a header is the image of what is read from it. -/
theorem bytes_ofBytes {bytes : List UInt8} (h : segmentHdrSize ≤ bytes.length) :
    (CtcpSegment.ofBytes bytes).bytes = bytes := by
  have h16 : ∀ i, le16 (u16At bytes i) = [bytes.getD i 0, bytes.getD (i + 1) 0] :=
    fun i => le16_ofNat _ _
  have h32 : ∀ i, le32 (u32At bytes i)
      = [bytes.getD i 0, bytes.getD (i + 1) 0, bytes.getD (i + 2) 0, bytes.getD (i + 3) 0] :=
    fun i => le32_ofNat _ _ _ _
  have hheader : (CtcpSegment.ofBytes bytes).bytes
      = (List.range segmentHdrSize).map (fun i => bytes.getD i 0) ++ bytes.drop 20 := by
    simp only [CtcpSegment.ofBytes, CtcpSegment.bytes, h16, h32]
    rfl
  rw [hheader, map_range_getD h]
  exact List.take_append_drop 20 bytes

/-! ## One bit -/

section Flip

variable {bytes : List UInt8} {bit : Nat}

/-- The bytes with the checksum field zero. -/
def cleared (bytes : List UInt8) : List UInt8 := (bytes.set 18 0).set 19 0

theorem length_cleared : (cleared bytes).length = bytes.length := by
  rw [cleared, List.length_set, List.length_set]

/-- Clearing the field and clearing its bytes are the same. -/
theorem bytes_clear (segment : CtcpSegment) :
    ({ segment with cksum := 0 } : CtcpSegment).bytes = cleared segment.bytes := by
  have hzero : le16 0 = [0, 0] := by decide
  simp only [CtcpSegment.bytes, hzero]
  rfl

theorem length_flipbit : (flipbit bytes bit).length = bytes.length := List.length_set

theorem u16At_set {i k : Nat} {b : UInt8} (hlow : i ≠ k) (hhigh : i ≠ k + 1) :
    u16At (bytes.set i b) k = u16At bytes k := by
  simp only [u16At, List.getD_eq_getElem?_getD, List.getElem?_set_ne hlow,
    List.getElem?_set_ne hhigh]

/-- When a segment fills its buffer, it is valid if the checksum over the buffer is right. -/
theorem valid_ofBytes_iff (hhdr : segmentHdrSize ≤ bytes.length) (hlt : bytes.length < 2 ^ 16)
    (hlen : ntohs (u16At bytes 8) = UInt16.ofNat bytes.length) :
    Valid (CtcpSegment.ofBytes bytes) bytes.length ↔ cksum (cleared bytes) = u16At bytes 18 := by
  have hclear : ({ CtcpSegment.ofBytes bytes with cksum := 0 } : CtcpSegment).bytes
      = cleared bytes := by
    rw [bytes_clear, bytes_ofBytes hhdr]
  have htake : (cleared bytes).take bytes.length = cleared bytes :=
    List.take_of_length_le (Nat.le_of_eq length_cleared)
  have hfield : ntohs (CtcpSegment.ofBytes bytes).len = UInt16.ofNat bytes.length := hlen
  have hvalid := valid_iff_cksum hlt hfield
  rw [hclear, htake] at hvalid
  exact hvalid

/-- The byte of the flipped bit. -/
theorem flipbit_eq (hi : bit / 8 < bytes.length) :
    flipbit bytes bit
      = bytes.set (bit / 8) (bytes[bit / 8] ^^^ (1 <<< UInt8.ofNat (bit % 8))) := by
  rw [flipbit, List.getD_eq_getElem _ _ hi]

/-- A flip is a change. -/
theorem xor_bit_ne (b : UInt8) {j : Nat} (hj : j < 8) : b ^^^ (1 <<< UInt8.ofNat j) ≠ b := by
  intro heq
  have hpos := Nat.two_pow_pos j
  have hnat := toNat_xor_bit b hj
  rw [heq] at hnat
  rcases xor_two_pow b.toNat j with hup | hdown <;> omega

/-- A flip in a field changes the field. -/
theorem u16At_flipbit_ne (hi : bit / 8 < bytes.length) {k : Nat}
    (hfield : bit / 8 = k ∨ bit / 8 = k + 1) :
    u16At (flipbit bytes bit) k ≠ u16At bytes k := by
  intro heq
  have hpair := congrArg le16 heq
  simp only [u16At, le16_ofNat] at hpair
  obtain ⟨hlow, hhigh⟩ := List.cons.inj hpair
  have hsame : (flipbit bytes bit).getD (bit / 8) 0 = bytes.getD (bit / 8) 0 := by
    rcases hfield with hk | hk
    · rw [hk]
      exact hlow
    · rw [hk]
      exact (List.cons.inj hhigh).1
  rw [flipbit_eq hi, List.getD_eq_getElem _ _ (by simpa using hi), List.getElem_set_self,
    List.getD_eq_getElem _ _ hi] at hsame
  exact xor_bit_ne _ (Nat.mod_lt bit (by decide)) hsame

/-- A flip in the checksum field is gone when the field is cleared. -/
theorem cleared_flipbit (hfield : bit / 8 = 18 ∨ bit / 8 = 19) :
    cleared (flipbit bytes bit) = cleared bytes := by
  unfold cleared flipbit
  rcases hfield with hk | hk
  · rw [hk, List.set_set]
  · rw [hk, List.set_comm _ _ (by decide), List.set_set, List.set_comm _ _ (by decide)]

/-- Another flip is a flip of the cleared bytes. -/
theorem cleared_flipbit_of_ne (hi : bit / 8 < bytes.length) (h18 : bit / 8 ≠ 18)
    (h19 : bit / 8 ≠ 19) :
    cleared (flipbit bytes bit) = flipbit (cleared bytes) bit := by
  have hbyte : (cleared bytes).getD (bit / 8) 0 = bytes.getD (bit / 8) 0 := by
    simp only [cleared, List.getD_eq_getElem?_getD, List.getElem?_set_ne (Ne.symm h18),
      List.getElem?_set_ne (Ne.symm h19)]
  rw [flipbit, flipbit, hbyte, cleared, cleared, List.set_comm _ _ h18, List.set_comm _ _ h19]

/-- **A flip of one bit is detected**, unless it is in the length field. -/
theorem flip_invalid (hhdr : segmentHdrSize ≤ bytes.length) (hlt : bytes.length < 2 ^ 16)
    (hlen : ntohs (u16At bytes 8) = UInt16.ofNat bytes.length)
    (hvalid : Valid (CtcpSegment.ofBytes bytes) bytes.length) (hbit : bit < 8 * bytes.length)
    (hlow : bit / 8 ≠ 8) (hhigh : bit / 8 ≠ 9) :
    ¬ Valid (CtcpSegment.ofBytes (flipbit bytes bit)) (flipbit bytes bit).length := by
  have hi : bit / 8 < bytes.length := by omega
  have hflipped : (flipbit bytes bit).length = bytes.length := length_flipbit
  have hsame : u16At (flipbit bytes bit) 8 = u16At bytes 8 := u16At_set hlow hhigh
  rw [valid_ofBytes_iff hhdr hlt hlen] at hvalid
  rw [valid_ofBytes_iff (by omega) (by omega) (by rw [hsame, hflipped, hlen])]
  by_cases hfield : bit / 8 = 18 ∨ bit / 8 = 19
  · -- the sum is the same, and the field is not
    rw [cleared_flipbit hfield, hvalid]
    exact (u16At_flipbit_ne hi hfield).symm
  · -- the field is the same, and the sum is not
    have h18 : bit / 8 ≠ 18 := fun heq => hfield (Or.inl heq)
    have h19 : bit / 8 ≠ 19 := fun heq => hfield (Or.inr heq)
    have hfield' : u16At (flipbit bytes bit) 18 = u16At bytes 18 := u16At_set h18 h19
    have hclear : bit / 8 < (cleared bytes).length := by
      rw [length_cleared]
      exact hi
    have hlength : (cleared bytes).length < 2 ^ 16 := by
      rw [length_cleared]
      exact hlt
    have hlength' : (flipbit (cleared bytes) bit).length < 2 ^ 16 := by
      rw [length_flipbit]
      exact hlength
    rw [cleared_flipbit_of_ne hi h18 h19, hfield', ← hvalid, cksum_inj hlength' hlength,
      flipbit_eq hclear]
    exact wordSum_flip hclear (Nat.mod_lt bit (by decide))

end Flip

/-! ## The segments on the wire -/

/-- `_segment_send` hands one segment to `conn_send`. -/
theorem segmentSend_trace (state : CtcpState) (flags : UInt32) (len : Nat) (data : List UInt8)
    (sent : Int) :
    (segmentSend state flags len data sent).1.trace
      = state.trace ++ [.send (buildSegment state.seqno state.ackno flags len data) sent] := by
  unfold segmentSend
  by_cases hsent : sent < 0
  · rw [if_pos hsent]
    rfl
  · rw [if_neg hsent]
    simp only [saveSentSegment]
    split <;> split <;> rfl

/-- `ctcp_receive` does nothing with a segment that is not valid. -/
theorem step_invalid {segment : CtcpSegment} {len : Nat} (h : ¬ Valid segment len)
    (state : CtcpState) (env : Env) : step state (.receive segment len env) = state := by
  have hreceive : ctcpReceive env state segment len = state := if_neg h
  unfold step
  split
  · rfl
  · exact hreceive

/-- **What is sent arrives, and a flipped bit does not.**  The segment that `_segment_send` puts on
    the wire is accepted with all its fields; with one bit flipped outside of `len`, in the header,
    the padding, the checksum or the data, it is dropped by `ctcp_receive`, whatever the state of
    the receiver. -/
theorem bit_flip_rejected (state : CtcpState) (flags : UInt32) (data : List UInt8) (sent : Int)
    (hlen : data.length ≤ maxSegDataSize) :
    let segment := buildSegment state.seqno state.ackno flags (data.length + segmentHdrSize) data
    let wire := segment.bytes
    (segmentSend state flags (data.length + segmentHdrSize) data sent).1.trace
        = state.trace ++ [.send segment sent] ∧
      wire.length = data.length + segmentHdrSize ∧
      Valid (CtcpSegment.ofBytes wire) wire.length ∧
      segmentNtoh (CtcpSegment.ofBytes wire) =
        { seqno := state.seqno
          ackno := state.ackno
          len := UInt16.ofNat (data.length + segmentHdrSize)
          pad := 0
          flags := flags
          window := UInt16.ofNat maxSegDataSize
          cksum := segment.cksum
          data := data } ∧
      ∀ bit, bit < 8 * wire.length → bit / 8 ≠ 8 → bit / 8 ≠ 9 →
        ∀ (receiver : CtcpState) (env : Env),
          step receiver
            (.receive (CtcpSegment.ofBytes (flipbit wire bit)) (flipbit wire bit).length env)
          = receiver := by
  have hmax : maxSegDataSize = 1440 := rfl
  have hhdr : segmentHdrSize = 20 := rfl
  intro segment wire
  have hdata : segment.data = data := by
    rw [buildSegment_data, Nat.add_sub_cancel, List.take_length]
  have hwire : wire.length = data.length + segmentHdrSize := by
    rw [length_bytes, hdata]
  have hvalid : Valid (CtcpSegment.ofBytes wire) wire.length := by
    rw [ofBytes_bytes, hwire]
    exact valid_buildSegment _ _ _ _ (by omega)
  refine ⟨segmentSend_trace state flags _ data sent, hwire, hvalid, ?_, ?_⟩
  · rw [ofBytes_bytes]
    simp only [segment, buildSegment, segmentNtoh, segmentHton, htonl_htonl, htons_htons,
      Nat.add_sub_cancel, List.take_length]
  · intro bit hbit hlow hhigh receiver env
    have hfield : ntohs (u16At wire 8) = UInt16.ofNat wire.length := by
      have hof : u16At wire 8 = segment.len := congrArg CtcpSegment.len (ofBytes_bytes segment)
      rw [hof, ntohs_buildSegment_len, hwire]
    exact step_invalid
      (flip_invalid (by omega) (by omega) hfield hvalid hbit hlow hhigh) receiver env

/-- Two bytes, and a flip of the first bit of the first of them. -/
theorem bit_flip_rejected_two_bytes :
    ([104, 105] : List UInt8).length ≤ maxSegDataSize ∧
      ∀ (receiver : CtcpState) (env : Env),
        let wire := (buildSegment 1 1 ACK 22 [104, 105]).bytes
        step receiver
          (.receive (CtcpSegment.ofBytes (flipbit wire 160)) (flipbit wire 160).length env)
        = receiver := by
  have hlen : ([104, 105] : List UInt8).length ≤ maxSegDataSize := by decide
  obtain ⟨-, hwire, -, -, hflip⟩ := bit_flip_rejected (ctcpInit ⟨40, 200⟩) ACK [104, 105] 22 hlen
  refine ⟨hlen, hflip 160 ?_ (by decide) (by decide)⟩
  rw [hwire]
  decide

end Ctcp
