/-
  Numerals and fields, written and read back.

  `Nat.toDigits` writes a number, in decimal or in hexadecimal; `readNumeral` reads one, digit by
  digit, and fails at anything that is not a digit of the base.  What is written is read back
  (`readNumeral_toDigits`), and so is a number with a sign (`readInt_decimal`).

  A numeral has digits only (`mem_toDigits`).  So it contains none of the characters that separate
  fields, and `List.splitOn` finds the fields of a line again, and the lines of a text
  (`splitOn_lines`).
-/

set_option linter.unusedVariables false

namespace Numerals

/-- The value of a digit, in a base up to 16. -/
def digitValue (c : Char) : Option Nat :=
  if '0' ≤ c ∧ c ≤ '9' then some (c.toNat - '0'.toNat)
  else if 'a' ≤ c ∧ c ≤ 'f' then some (c.toNat - 'a'.toNat + 10)
  else if 'A' ≤ c ∧ c ≤ 'F' then some (c.toNat - 'A'.toNat + 10)
  else none

/-- Further digits, after the value `n`. -/
def readDigits (b : Nat) : Nat → List Char → Option Nat
  | n, [] => some n
  | n, c :: cs =>
    match digitValue c with
    | some d => if d < b then readDigits b (b * n + d) cs else none
    | none => none

/-- A numeral has at least one digit. -/
def readNumeral (b : Nat) : List Char → Option Nat
  | [] => none
  | cs => readDigits b 0 cs

/-- A decimal number with its sign. -/
def decimal : Int → List Char
  | .ofNat n => Nat.toDigits 10 n
  | .negSucc n => '-' :: Nat.toDigits 10 (n + 1)

/-- Reads it. -/
def readInt : List Char → Option Int
  | '-' :: cs => (readNumeral 10 cs).map fun n => -(n : Int)
  | '+' :: cs => (readNumeral 10 cs).map fun n => (n : Int)
  | cs => (readNumeral 10 cs).map fun n => (n : Int)

section Digits

variable {b n : Nat}

theorem digitValue_digitChar : ∀ d, d < 16 → digitValue (Nat.digitChar d) = some d := by decide

/-- **What numerals are made of.** -/
theorem mem_toDigits (hb : 1 < b) {c : Char} (h : c ∈ Nat.toDigits b n) :
    ∃ d, d < b ∧ c = Nat.digitChar d := by
  induction n using Nat.strongRecOn with
  | ind n ih =>
    rw [Nat.toDigits_eq_if hb] at h
    split at h
    · rename_i hlt
      exact ⟨n, hlt, List.mem_singleton.mp h⟩
    · rename_i hle
      rcases List.mem_append.mp h with h | h
      · exact ih (n / b) (Nat.div_lt_self (by omega) hb) h
      · exact ⟨n % b, Nat.mod_lt n (by omega), List.mem_singleton.mp h⟩

/-- A character that is no digit is in no numeral. -/
theorem not_mem_toDigits (hb : 1 < b) (hle : b ≤ 16) {c : Char} (hc : digitValue c = none) :
    c ∉ Nat.toDigits b n := by
  intro h
  obtain ⟨d, hd, rfl⟩ := mem_toDigits hb h
  cases (digitValue_digitChar d (by omega)).symm.trans hc

theorem readDigits_append (m : Nat) (cs cs' : List Char) :
    readDigits b m (cs ++ cs') = (readDigits b m cs).bind fun n => readDigits b n cs' := by
  induction cs generalizing m with
  | nil => rfl
  | cons c cs ih =>
    simp only [List.cons_append, readDigits]
    cases digitValue c with
    | none => rfl
    | some d =>
      dsimp only
      split
      · exact ih _
      · rfl

/-- The digits of a number have its value. -/
theorem readDigits_toDigits (hb : 1 < b) (hle : b ≤ 16) :
    readDigits b 0 (Nat.toDigits b n) = some n := by
  have hone : ∀ m d, d < b → readDigits b m [Nat.digitChar d] = some (b * m + d) := by
    intro m d hd
    simp only [readDigits, digitValue_digitChar d (by omega), if_pos hd]
  induction n using Nat.strongRecOn with
  | ind n ih =>
    rw [Nat.toDigits_eq_if hb]
    split
    · rename_i hlt
      rw [hone 0 n hlt, Nat.mul_zero, Nat.zero_add]
    · rename_i hge
      rw [readDigits_append, ih (n / b) (Nat.div_lt_self (by omega) hb), Option.bind_some,
        hone _ _ (Nat.mod_lt n (by omega)), Nat.div_add_mod]

/-- **What is written is read back.** -/
theorem readNumeral_toDigits (hb : 1 < b) (hle : b ≤ 16) :
    readNumeral b (Nat.toDigits b n) = some n := by
  have hdigits := @readDigits_toDigits b n hb hle
  cases hcs : Nat.toDigits b n with
  | nil => exact absurd hcs Nat.toDigits_ne_nil
  | cons c cs =>
    rw [hcs] at hdigits
    exact hdigits

/-- A numeral starts with a digit, and not with a sign. -/
theorem readInt_toDigits (n : Nat) : readInt (Nat.toDigits 10 n) = some (n : Int) := by
  have hread := @readNumeral_toDigits 10 n (by decide) (by decide)
  have hminus := @not_mem_toDigits 10 n (by decide) (by decide) '-' (by decide)
  have hplus := @not_mem_toDigits 10 n (by decide) (by decide) '+' (by decide)
  unfold readInt
  split
  · rename_i cs heq
    rw [heq] at hminus
    exact absurd List.mem_cons_self hminus
  · rename_i cs heq
    rw [heq] at hplus
    exact absurd List.mem_cons_self hplus
  · rw [hread]
    rfl

/-- **A number with its sign is read back.** -/
theorem readInt_decimal (z : Int) : readInt (decimal z) = some z := by
  cases z with
  | ofNat n => exact readInt_toDigits n
  | negSucc n =>
    have hread := @readNumeral_toDigits 10 (n + 1) (by decide) (by decide)
    show (readNumeral 10 (Nat.toDigits 10 (n + 1))).map (fun n => -(n : Int)) = _
    rw [hread]
    rfl

/-- What decimal numbers do not contain. -/
theorem not_mem_decimal {c : Char} (hc : digitValue c = none) (hminus : c ≠ '-') (z : Int) :
    c ∉ decimal z := by
  cases z with
  | ofNat n => exact not_mem_toDigits (by decide) (by decide) hc
  | negSucc n =>
    intro h
    rcases List.mem_cons.mp h with heq | h
    · exact hminus heq
    · exact not_mem_toDigits (by decide) (by decide) hc h

end Digits

section Fields

variable {α : Type} {a : α}

/-- What is neither a separator nor in a field is not in the line. -/
theorem not_mem_intercalate {separator : List α} (hseparator : a ∉ separator) :
    ∀ fields : List (List α), (∀ field ∈ fields, a ∉ field) → a ∉ separator.intercalate fields
  | [], _ => List.not_mem_nil
  | [field], hfields => by
    rw [List.intercalate_singleton]
    exact hfields field (List.mem_singleton.mpr rfl)
  | field :: next :: rest, hfields => by
    have hrest := not_mem_intercalate hseparator (next :: rest) fun text htext =>
      hfields text (List.mem_cons_of_mem _ htext)
    rw [List.intercalate_cons_cons]
    simp only [List.mem_append, not_or]
    exact ⟨⟨hfields field List.mem_cons_self, hseparator⟩, hrest⟩

/-- Lines are found again, and nothing is behind the last of them. -/
theorem splitOn_lines [BEq α] [LawfulBEq α] (lines : List (List α))
    (hlines : ∀ line ∈ lines, a ∉ line) :
    (lines.flatMap fun line => line ++ [a]).splitOn a = lines ++ [[]] := by
  induction lines with
  | nil => rfl
  | cons line lines ih =>
    rw [List.flatMap_cons, List.append_assoc, List.singleton_append,
      List.splitOn_append_cons_self_of_not_mem (hlines line List.mem_cons_self),
      ih fun line hline => hlines line (List.mem_cons_of_mem _ hline)]
    rfl

end Fields

end Numerals
