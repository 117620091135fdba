/-
  Ones' complement sums of bytes.

  A checksum of this kind reads the bytes as 16-bit big-endian words, an odd last byte as the high
  half of a word, and adds them up with end-around carry.  The carry is added afterwards: as long as
  the sum is more than 16 bits long, its high part is added to its low part (`fold`).  That changes
  nothing modulo `2 ^ 16 - 1`, so what the sum says is the residue of `wordSum`:

  * `wordSum_set` — another byte in one place moves the sum by its weight;
  * `fold_mod`, `fold_le` — what folding keeps, and how far it brings the sum down;
  * `onesSum_spec` — the sum with the carry added back at each word is the same residue;
  * `wordSum_flip` — no flip of a single bit leaves the residue as it was.
-/
import Mathlib.Algebra.GroupWithZero.Nat

set_option linter.unusedVariables false

namespace OnesSum

/-! ## The sum of the words -/

/-- The sum of the 16-bit words. -/
def wordSum : List UInt8 → Nat
  | hi :: lo :: data => 256 * hi.toNat + lo.toNat + wordSum data
  | [hi] => 256 * hi.toNat
  | [] => 0

/-- What the byte at place `i` counts. -/
def weight (i : Nat) : Nat := if i % 2 = 0 then 256 else 1

theorem weight_succ_succ (i : Nat) : weight (i + 2) = weight i := by
  unfold weight
  rw [Nat.add_mod_right]

/-- **Another byte in one place.** -/
theorem wordSum_set {data : List UInt8} {i : Nat} (h : i < data.length) (b : UInt8) :
    wordSum (data.set i b) + weight i * data[i].toNat = wordSum data + weight i * b.toNat := by
  induction data using wordSum.induct generalizing i with
  | case1 hi lo data ih =>
    match i, h with
    | 0, _ =>
      show 256 * b.toNat + lo.toNat + wordSum data + 256 * hi.toNat
        = 256 * hi.toNat + lo.toNat + wordSum data + 256 * b.toNat
      omega
    | 1, _ =>
      show 256 * hi.toNat + b.toNat + wordSum data + 1 * lo.toNat
        = 256 * hi.toNat + lo.toNat + wordSum data + 1 * b.toNat
      omega
    | i + 2, h =>
      have hrest : i < data.length := by simpa using h
      have heq := ih hrest
      rw [weight_succ_succ]
      show 256 * hi.toNat + lo.toNat + wordSum (data.set i b) + weight i * data[i].toNat
        = 256 * hi.toNat + lo.toNat + wordSum data + weight i * b.toNat
      omega
  | case2 hi =>
    obtain rfl : i = 0 := by simpa using h
    show 256 * b.toNat + 256 * hi.toNat = 256 * hi.toNat + 256 * b.toNat
    omega
  | case3 => simp at h

theorem wordSum_le (data : List UInt8) : wordSum data ≤ 65535 * data.length := by
  induction data using wordSum.induct with
  | case1 hi lo data ih =>
    have hhi := hi.toNat_lt
    have hlo := lo.toNat_lt
    simp only [wordSum, List.length_cons]
    omega
  | case2 hi =>
    have hhi := hi.toNat_lt
    simp only [wordSum, List.length_cons]
    omega
  | case3 => exact Nat.zero_le _

/-- Two parts, the first of them whole words. -/
theorem wordSum_append {front : List UInt8} (h : front.length % 2 = 0) (back : List UInt8) :
    wordSum (front ++ back) = wordSum front + wordSum back := by
  induction front using wordSum.induct with
  | case1 hi lo data ih =>
    have hrest : data.length % 2 = 0 := by
      simp only [List.length_cons] at h
      omega
    show 256 * hi.toNat + lo.toNat + wordSum (data ++ back)
      = 256 * hi.toNat + lo.toNat + wordSum data + wordSum back
    rw [ih hrest]
    omega
  | case2 hi => simp at h
  | case3 =>
    show wordSum back = 0 + wordSum back
    omega

/-! ## Folding -/

/-- Add the carry to the low half. -/
def fold (n : Nat) : Nat := n / 65536 + n % 65536

theorem fold_mod (n : Nat) : fold n % 65535 = n % 65535 := by
  unfold fold
  omega

/-- The first fold of a 32-bit number. -/
theorem fold_le {n : Nat} (h : n < 2 ^ 32) : fold n ≤ 131070 := by
  unfold fold
  omega

/-- The second one. -/
theorem fold_fold_le {n : Nat} (h : n ≤ 131070) : fold n ≤ 65535 := by
  unfold fold
  omega

theorem fold_eq_zero (n : Nat) : fold n = 0 ↔ n = 0 := by
  unfold fold
  omega

/-- A sum of 16 bits is known by its residue, and by which of the two zeros it is. -/
theorem eq_of_residue {s t : Nat} (hs : s ≤ 65535) (ht : t ≤ 65535) (hmod : s % 65535 = t % 65535)
    (hzero : s = 0 ↔ t = 0) : s = t := by
  omega

/-! ## Addition with end-around carry -/

/-- The words, an odd last byte padded with zero on the right. -/
def words : List UInt8 → List Nat
  | hi :: lo :: data => (256 * hi.toNat + lo.toNat) :: words data
  | [hi] => [256 * hi.toNat]
  | [] => []

/-- Ones' complement addition of 16-bit words. -/
def carryAdd (a b : Nat) : Nat := fold (a + b)

/-- The ones' complement sum. -/
def onesSum (data : List UInt8) : Nat := (words data).foldl carryAdd 0

/-- The Internet checksum: the complement of the sum. -/
def internetSum (data : List UInt8) : Nat := 65535 - onesSum data

theorem words_le (data : List UInt8) : ∀ word ∈ words data, word ≤ 65535 := by
  induction data using words.induct with
  | case1 hi lo data ih =>
    have hhi := hi.toNat_lt
    have hlo := lo.toNat_lt
    intro word hword
    rcases List.mem_cons.mp hword with rfl | hword
    · omega
    · exact ih word hword
  | case2 hi =>
    have hhi := hi.toNat_lt
    intro word hword
    obtain rfl := List.mem_singleton.mp hword
    omega
  | case3 => exact fun word hword => absurd hword List.not_mem_nil

theorem sum_words (data : List UInt8) : (words data).sum = wordSum data := by
  induction data using words.induct with
  | case1 hi lo data ih =>
    show (256 * hi.toNat + lo.toNat) + (words data).sum = _
    rw [ih]
    rfl
  | case2 hi => rfl
  | case3 => rfl

/-- What a chain of additions keeps. -/
theorem foldl_carryAdd {ws : List Nat} (hws : ∀ word ∈ ws, word ≤ 65535) {acc : Nat}
    (hacc : acc ≤ 65535) :
    ws.foldl carryAdd acc ≤ 65535 ∧
      ws.foldl carryAdd acc % 65535 = (acc + ws.sum) % 65535 ∧
      (ws.foldl carryAdd acc = 0 ↔ acc + ws.sum = 0) := by
  induction ws generalizing acc with
  | nil => exact ⟨hacc, rfl, Iff.rfl⟩
  | cons word ws ih =>
    have hword : word ≤ 65535 := hws word List.mem_cons_self
    have hle : carryAdd acc word ≤ 65535 := by
      unfold carryAdd fold
      omega
    have hmod : carryAdd acc word % 65535 = (acc + word) % 65535 := fold_mod _
    have hzero : carryAdd acc word = 0 ↔ acc + word = 0 := fold_eq_zero _
    obtain ⟨hle', hmod', hzero'⟩ := ih (fun w hw => hws w (List.mem_cons_of_mem _ hw)) hle
    rw [List.foldl_cons, List.sum_cons]
    refine ⟨hle', ?_, ?_⟩
    · rw [hmod']
      omega
    · rw [hzero']
      omega

/-- **The ones' complement sum is known by the residue.** -/
theorem onesSum_spec (data : List UInt8) :
    onesSum data ≤ 65535 ∧ onesSum data % 65535 = wordSum data % 65535 ∧
      (onesSum data = 0 ↔ wordSum data = 0) := by
  have hspec := foldl_carryAdd (words_le data) (Nat.zero_le 65535)
  rw [sum_words, Nat.zero_add] at hspec
  exact hspec

/-! ## Flips of one bit -/

/-- Flipping a bit of a number adds its value or takes it away. -/
theorem xor_two_pow (n j : Nat) : n ^^^ 2 ^ j = n + 2 ^ j ∨ (n ^^^ 2 ^ j) + 2 ^ j = n := by
  -- the flip goes down to the last bit
  induction j generalizing n with
  | zero =>
    have hhalf : (n ^^^ 1) / 2 = n / 2 :=
      (Nat.xor_div_two_pow (n := 1)).trans (Nat.xor_zero _)
    have hbit : (n ^^^ 1) % 2 = n % 2 ^^^ 1 := Nat.xor_mod_two_pow (n := 1)
    show n ^^^ 1 = n + 1 ∨ (n ^^^ 1) + 1 = n
    rcases Nat.mod_two_eq_zero_or_one n with heven | hodd
    · rw [heven, show 0 ^^^ 1 = 1 from rfl] at hbit
      omega
    · rw [hodd, show 1 ^^^ 1 = 0 from rfl] at hbit
      omega
  | succ j ih =>
    have hpow : 2 ^ (j + 1) = 2 * 2 ^ j := Nat.pow_succ'
    have hhalf : (n ^^^ 2 ^ (j + 1)) / 2 = n / 2 ^^^ 2 ^ j := by
      have hdiv : (n ^^^ 2 ^ (j + 1)) / 2 = n / 2 ^^^ 2 ^ (j + 1) / 2 :=
        Nat.xor_div_two_pow (n := 1)
      rw [hdiv, hpow, Nat.mul_div_cancel_left _ (by decide)]
    have hbit : (n ^^^ 2 ^ (j + 1)) % 2 = n % 2 := by
      have hmod : (n ^^^ 2 ^ (j + 1)) % 2 = n % 2 ^^^ 2 ^ (j + 1) % 2 :=
        Nat.xor_mod_two_pow (n := 1)
      rw [hmod, hpow, Nat.mul_mod_right]
      exact Nat.xor_zero _
    have hrest := ih (n / 2)
    omega

theorem toNat_xor_bit (b : UInt8) {j : Nat} (hj : j < 8) :
    (b ^^^ (1 <<< UInt8.ofNat j)).toNat = b.toNat ^^^ 2 ^ j := by
  have hshift : (1 <<< UInt8.ofNat j : UInt8).toNat = 2 ^ j := by
    have hpow : 2 ^ j < 2 ^ 8 := Nat.pow_lt_pow_right (by decide) hj
    have hsmall : (UInt8.ofNat j).toNat % 8 = j := by
      rw [UInt8.toNat_ofNat']
      omega
    rw [UInt8.toNat_shiftLeft, hsmall, Nat.shiftLeft_eq]
    show 1 * 2 ^ j % 2 ^ 8 = 2 ^ j
    rw [Nat.one_mul, Nat.mod_eq_of_lt hpow]
  rw [UInt8.toNat_xor, hshift]

/-- A power of two that a byte can move the sum by is no multiple of `2 ^ 16 - 1`. -/
theorem mod_ne_of_add {m n j : Nat} (hj : j < 16) (h : m = n + 2 ^ j) :
    m % 65535 ≠ n % 65535 := by
  have hpos : 0 < 2 ^ j := Nat.two_pow_pos j
  have hle : 2 ^ j ≤ 2 ^ 15 := Nat.pow_le_pow_right (by omega) (by omega)
  omega

/-- **A flip of one bit changes the residue.** -/
theorem wordSum_flip {data : List UInt8} {i j : Nat} (hi : i < data.length) (hj : j < 8) :
    wordSum (data.set i (data[i] ^^^ (1 <<< UInt8.ofNat j))) % 65535 ≠ wordSum data % 65535 := by
  have hset := wordSum_set hi (data[i] ^^^ (1 <<< UInt8.ofNat j))
  rw [toNat_xor_bit data[i] hj] at hset
  obtain ⟨k, hk, hmoved⟩ : ∃ k < 16, weight i * 2 ^ j = 2 ^ k := by
    unfold weight
    split
    · exact ⟨8 + j, by omega, (Nat.pow_add 2 8 j).symm⟩
    · exact ⟨j, by omega, Nat.one_mul _⟩
  rcases xor_two_pow data[i].toNat j with hup | hdown
  · -- the bit was clear
    refine mod_ne_of_add hk ?_
    rw [hup, Nat.mul_add, hmoved] at hset
    omega
  · -- the bit was set
    refine (mod_ne_of_add hk ?_).symm
    have hold : weight i * data[i].toNat
        = weight i * (data[i].toNat ^^^ 2 ^ j) + 2 ^ k := by
      rw [← hmoved, ← Nat.mul_add, hdown]
    omega

end OnesSum
