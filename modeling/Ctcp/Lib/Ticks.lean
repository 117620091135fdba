/-
  A counter that moves by `T` at every tick, is kept modulo `M`, and is compared with a threshold.

  Without the wrap the threshold `R` is reached for the first time after `ticksFor R T` ticks.  The
  counter of a program shows `n * T % M` instead (`Due`), and two things can go wrong:

  * it wraps before the threshold is reached, and then the first tick at which it is due, if there
    is one, comes too late (`due_first_iff`);
  * a program that goes on counting from there, without a reset, is due at ticks that are not
    multiples of `ticksFor R T`, or not due at some that are (`due_iff_dvd`).

  `fired` counts the ticks at which the counter has been due.
-/
import Mathlib.Algebra.Group.Nat.Defs

namespace Ticks

variable {M T R n k : Nat}

/-- The first tick, from 1 on, with a property. -/
def FirstTick (P : Nat → Prop) (n : Nat) : Prop :=
  1 ≤ n ∧ P n ∧ ∀ k, 1 ≤ k → k < n → ¬ P k

/-- What has happened at some tick has a first one. -/
theorem exists_firstTick {P : Nat → Prop} (hn : 1 ≤ n) (hP : P n) :
    ∃ n₀, n₀ ≤ n ∧ FirstTick P n₀ := by
  induction n using Nat.strongRecOn with
  | _ n ih =>
    by_cases hbefore : ∃ k, 1 ≤ k ∧ k < n ∧ P k
    · obtain ⟨k, hk, hlt, hPk⟩ := hbefore
      obtain ⟨n₀, hle, hfirst⟩ := ih k hlt hk hPk
      exact ⟨n₀, by omega, hfirst⟩
    · exact ⟨n, Nat.le_refl n, hn, hP, fun k hk hlt hPk => hbefore ⟨k, hk, hlt, hPk⟩⟩

/-! ## How many ticks -/

/-- The number of ticks of length `T` that last at least `R`. -/
def ticksFor (R T : Nat) : Nat := (R + T - 1) / T

theorem ticksFor_le_iff (hT : 0 < T) : ticksFor R T ≤ n ↔ R ≤ n * T := by
  have hlt : ticksFor R T < n + 1 ↔ R + T - 1 < (n + 1) * T := Nat.div_lt_iff_lt_mul hT
  have hmul : (n + 1) * T = n * T + T := Nat.succ_mul n T
  omega

theorem ticksFor_pos (hT : 0 < T) (hR : 0 < R) : 0 < ticksFor R T := by
  have hle := ticksFor_le_iff (n := 0) (R := R) hT
  omega

/-- One tick less does not last so long. -/
theorem pred_ticksFor_lt (hT : 0 < T) (hR : 0 < R) : (ticksFor R T - 1) * T < R := by
  have hpos := ticksFor_pos hT hR
  have hle := ticksFor_le_iff (n := ticksFor R T - 1) (R := R) hT
  omega

/-! ## The counter and the threshold -/

/-- The counter is at or above the threshold after `n` ticks. -/
def Due (M T R n : Nat) : Prop := R ≤ n * T % M

instance : Decidable (Due M T R n) := by unfold Due; infer_instance

/-- Before the wrap the counter shows the time. -/
theorem due_iff_of_lt (h : n * T < M) : Due M T R n ↔ R ≤ n * T := by
  rw [Due, Nat.mod_eq_of_lt h]

/-- The counter never runs ahead of the time. -/
theorem le_of_due (h : Due M T R n) : R ≤ n * T := Nat.le_trans h (Nat.mod_le _ _)

/-- The time has not wrapped when it passes the threshold, if the counter shows that it has. -/
theorem lt_of_due_first (hT : T < M) (hn : 1 ≤ n) (hbefore : (n - 1) * T < R ∨ n = 1)
    (hdue : Due M T R n) : n * T < M := by
  apply Nat.lt_of_not_le
  intro hwrap
  have hmul : n * T = (n - 1) * T + T := by
    obtain ⟨j, rfl⟩ : ∃ j, n = j + 1 := ⟨n - 1, by omega⟩
    exact Nat.succ_mul j T
  rcases hbefore with hlt | rfl
  · have hM : 0 < M := by omega
    have hRM : R < M := Nat.lt_of_le_of_lt hdue (Nat.mod_lt _ hM)
    -- the counter has just lost `M`, so it is below `T`, and `T` is below the threshold
    have hmod : n * T % M = n * T - M := by
      rw [Nat.mod_eq_sub_mod hwrap, Nat.mod_eq_of_lt (by omega)]
    have hdue' : R ≤ n * T - M := hmod ▸ hdue
    omega
  · omega

/-- **Does the counter report the first time?**  It is due for the first time when the time passes
    the threshold, if and only if the time is below `M` then. -/
theorem due_first_iff (hT : 0 < T) (hTM : T < M) :
    (∀ n, (∀ k, 1 ≤ k → k ≤ n → ¬ Due M T R k) →
        (Due M T R (n + 1) ↔ FirstTick (fun k => R ≤ k * T) (n + 1))) ↔
      ∃ k, 1 ≤ k ∧ R ≤ k * T ∧ k * T < M := by
  constructor
  · intro h
    have hsome : R ≤ (R + 1) * T := by
      have hle : (R + 1) * 1 ≤ (R + 1) * T := Nat.mul_le_mul_left _ hT
      omega
    obtain ⟨n₀, -, hn₀, hR, hfirst⟩ := exists_firstTick (P := fun k => R ≤ k * T)
      (Nat.le_add_left 1 R) hsome
    obtain ⟨n, rfl⟩ : ∃ n, n₀ = n + 1 := ⟨n₀ - 1, by omega⟩
    have hquiet : ∀ k, 1 ≤ k → k ≤ n → ¬ Due M T R k := by
      intro k hk hle hdue
      exact hfirst k hk (by omega) (le_of_due hdue)
    have hdue : Due M T R (n + 1) := (h n hquiet).mpr ⟨hn₀, hR, hfirst⟩
    refine ⟨n + 1, hn₀, hR, lt_of_due_first hTM hn₀ ?_ hdue⟩
    rcases Nat.eq_zero_or_pos n with rfl | hpos
    · exact Or.inr rfl
    · exact Or.inl (Nat.lt_of_not_le (hfirst n hpos (Nat.lt_succ_self n)))
  · rintro ⟨k₀, hk₀, hR, hlt⟩ n hquiet
    -- the first due tick is at or before `k₀`, and the ticks up to it do not wrap
    have hn : n + 1 ≤ k₀ := by
      apply Nat.lt_of_not_le
      intro hle
      exact hquiet k₀ hk₀ hle ((due_iff_of_lt hlt).mpr hR)
    have hnlt : (n + 1) * T < M := Nat.lt_of_le_of_lt (Nat.mul_le_mul_right T hn) hlt
    rw [due_iff_of_lt hnlt]
    constructor
    · intro hle
      refine ⟨by omega, hle, ?_⟩
      intro k hk hkn hRk
      have hklt : k * T < M :=
        Nat.lt_of_le_of_lt (Nat.mul_le_mul_right T (Nat.le_of_lt hkn)) hnlt
      exact hquiet k hk (by omega) ((due_iff_of_lt hklt).mpr hRk)
    · exact fun h => h.2.1

/-! ## A counter that goes on -/

/-- **When the counter is due at the multiples of `ticksFor R T` and nowhere else**, for `N` rounds:
    one tick is enough each time, or the counter loses so little at each wrap that it is still at
    the threshold after `N` of them. -/
def EvenlyDue (M T R N : Nat) : Prop :=
  (ticksFor R T = 1 ∧ ∀ k, 1 ≤ k → k ≤ N → R ≤ k * T % M) ∨
    (2 ≤ ticksFor R T ∧ ticksFor R T * T < M ∧ R + N * (M - ticksFor R T * T) ≤ M)

section Rounds

variable {m d q j N : Nat}

/-- The counter at the end of round `q`, when each round loses `d`. -/
theorem counter_end_of_round (hround : m * T + d = M) (hd : 0 < d) (hq : 1 ≤ q)
    (hle : q * d ≤ M) : q * m * T % M = M - q * d := by
  have hM : 0 < q * d := Nat.mul_pos hq hd
  have htotal : q * m * T + q * d = q * M := by
    rw [← hround, Nat.mul_add, Nat.mul_assoc]
  have hpred : q * M = (q - 1) * M + M := by
    obtain ⟨r, rfl⟩ : ∃ r, q = r + 1 := ⟨q - 1, by omega⟩
    exact Nat.succ_mul r M
  have hcounter : q * m * T = (M - q * d) + (q - 1) * M := by omega
  rw [hcounter, Nat.add_mul_mod_self_right, Nat.mod_eq_of_lt (by omega)]

/-- The counter in the middle of a round. -/
theorem counter_in_round (hround : m * T + d = M) (hlo : q * d ≤ j * T) (hhi : j * T < M) :
    (q * m + j) * T % M = j * T - q * d := by
  have htotal : q * m * T + q * d = q * M := by
    rw [← hround, Nat.mul_add, Nat.mul_assoc]
  have hcounter : (q * m + j) * T = (j * T - q * d) + q * M := by
    rw [Nat.add_mul]
    omega
  rw [hcounter, Nat.add_mul_mod_self_right, Nat.mod_eq_of_lt (by omega)]

end Rounds

/-- The counter shows the end of the first round, if it is due there. -/
theorem round_lt (hT : 0 < T) (hTM : T < M) (hR : 0 < R) (hdue : Due M T R (ticksFor R T)) :
    ticksFor R T * T < M :=
  lt_of_due_first hTM (ticksFor_pos hT hR) (Or.inl (pred_ticksFor_lt hT hR)) hdue

/-- What is lost at each wrap adds up, and stays above the threshold. -/
theorem rounds_le_of_dvd {N : Nat} (hT : 0 < T) (hTM : T < M) (hR : 0 < R)
    (hm : 2 ≤ ticksFor R T) (hN : 1 ≤ N)
    (h : ∀ n, 1 ≤ n → n ≤ N * ticksFor R T → (Due M T R n ↔ ticksFor R T ∣ n)) :
    ticksFor R T * T < M ∧
      ∀ k, 1 ≤ k → k ≤ N → R + k * (M - ticksFor R T * T) ≤ M := by
  generalize hround : ticksFor R T = m at *
  have hfirst : R ≤ m * T := (ticksFor_le_iff hT).mp (Nat.le_of_eq hround)
  have hmN : m ≤ N * m := Nat.le_mul_of_pos_left m hN
  have hdue : Due M T R m := (h m (by omega) hmN).mpr (Nat.dvd_refl m)
  have hlt : m * T < M := hround ▸ round_lt hT hTM hR (hround ▸ hdue)
  refine ⟨hlt, ?_⟩
  obtain ⟨d, hd⟩ : ∃ d, m * T + d = M := ⟨M - m * T, by omega⟩
  have hdM : M - m * T = d := by omega
  rw [hdM]
  intro k
  induction k with
  | zero => omega
  | succ k ih =>
    intro _ hkN
    rcases Nat.eq_zero_or_pos k with rfl | hk
    · omega
    have hkd : R + k * d ≤ M := ih hk (by omega)
    have hsucc : (k + 1) * d = k * d + d := Nat.succ_mul k d
    -- the tick after the first round wraps, so `d` is at most one tick, and below `R`
    have hnext : M ≤ (m + 1) * T := by
      apply Nat.le_of_not_lt
      intro hbelow
      have hmN' : m + 1 ≤ N * m := by
        have htwo : 2 * m ≤ N * m := Nat.mul_le_mul_right m (by omega)
        omega
      have hsmul : (m + 1) * T = m * T + T := Nat.succ_mul m T
      have hdvd := (h (m + 1) (by omega) hmN').mp ((due_iff_of_lt hbelow).mpr (by omega))
      have hone : m ∣ 1 := (Nat.dvd_add_right (Nat.dvd_refl m)).mp hdvd
      have hle := Nat.le_of_dvd Nat.one_pos hone
      omega
    have hdT : d ≤ T := by
      have hsmul : (m + 1) * T = m * T + T := Nat.succ_mul m T
      omega
    have hTR : T < R := by
      have hpred := pred_ticksFor_lt (R := R) hT hR
      have hone : 1 * T ≤ (m - 1) * T := Nat.mul_le_mul_right T (by omega)
      rw [hround] at hpred
      omega
    have hend := counter_end_of_round (q := k + 1) hd (by omega) (by omega) (by omega)
    have hmul : (k + 1) * m ≤ N * m := Nat.mul_le_mul_right m hkN
    have hpos : 1 ≤ (k + 1) * m := Nat.mul_pos (by omega) (by omega)
    have hdue' : Due M T R ((k + 1) * m) := (h _ hpos hmul).mpr (Nat.dvd_mul_left m (k + 1))
    unfold Due at hdue'
    omega

/-- **When a counter that goes on is due at the right ticks.** -/
theorem due_iff_dvd {N : Nat} (hT : 0 < T) (hTM : T < M) (hR : 0 < R) (hN : 1 ≤ N) :
    (∀ n, 1 ≤ n → n ≤ N * ticksFor R T → (Due M T R n ↔ ticksFor R T ∣ n)) ↔
      EvenlyDue M T R N := by
  have hpos := ticksFor_pos hT hR
  constructor
  · intro h
    rcases Nat.lt_or_ge (ticksFor R T) 2 with hone | hm
    · have hm : ticksFor R T = 1 := by omega
      rw [hm] at h
      exact Or.inl ⟨hm, fun k hk hkN => (h k hk (by omega)).mpr (Nat.one_dvd k)⟩
    · obtain ⟨hlt, hrounds⟩ := rounds_le_of_dvd hT hTM hR hm hN h
      exact Or.inr ⟨hm, hlt, hrounds N hN (Nat.le_refl N)⟩
  · rintro (⟨hm, hall⟩ | ⟨hm, hlt, hrounds⟩) n hn hnN
    · rw [hm] at hnN ⊢
      exact iff_of_true (hall n hn (by omega)) (Nat.one_dvd n)
    · have hpred := pred_ticksFor_lt hT hR
      generalize ticksFor R T = m at *
      obtain ⟨d, hround⟩ : ∃ d, m * T + d = M := ⟨M - m * T, by omega⟩
      have hd : M - m * T = d := by omega
      rw [hd] at hrounds
      -- `n` is in the middle of round `q`, or at its end
      obtain ⟨q, j, hjm, rfl⟩ : ∃ q j, j < m ∧ n = q * m + j :=
        ⟨n / m, n % m, Nat.mod_lt n hpos, by rw [Nat.mul_comm]; exact (Nat.div_add_mod n m).symm⟩
      have hdvd : m ∣ q * m + j ↔ j = 0 := by
        rw [Nat.dvd_add_right (Nat.dvd_mul_left m q)]
        constructor
        · intro hj
          exact Nat.eq_zero_of_dvd_of_lt hj hjm
        · rintro rfl
          exact Nat.dvd_zero m
      have hqN : q ≤ N := Nat.le_of_mul_le_mul_right (by omega) hpos
      have hqd : q * d ≤ N * d := Nat.mul_le_mul_right d hqN
      rw [hdvd, Due]
      rcases Nat.eq_zero_or_pos j with rfl | hj
      · have hq : 1 ≤ q := by
          apply Nat.pos_of_ne_zero
          rintro rfl
          omega
        rw [Nat.add_zero, counter_end_of_round hround (by omega) hq (by omega)]
        omega
      · -- a tick is longer than all that has been lost, so the round has not reached `R` again
        have hqN' : q + 1 ≤ N := by
          apply Nat.lt_of_not_le
          intro hle
          have hmul : N * m ≤ q * m := Nat.mul_le_mul_right m hle
          omega
        have hqd' : (q + 1) * d ≤ N * d := Nat.mul_le_mul_right d hqN'
        have hsucc : (q + 1) * d = q * d + d := Nat.succ_mul q d
        have hmT : m * T = (m - 1) * T + T := by
          obtain ⟨r, rfl⟩ : ∃ r, m = r + 1 := ⟨m - 1, by omega⟩
          exact Nat.succ_mul r T
        have hjT : j * T ≤ (m - 1) * T := Nat.mul_le_mul_right T (by omega)
        have hone : 1 * T ≤ j * T := Nat.mul_le_mul_right T hj
        rw [counter_in_round hround (by omega) (by omega)]
        omega

/-! ## The ticks at which the counter has been due -/

/-- How often the counter was due in the first `n` ticks. -/
def fired (M T R : Nat) : Nat → Nat
  | 0 => 0
  | n + 1 => fired M T R n + if Due M T R (n + 1) then 1 else 0

/-- A counter that is due at the multiples of `m` has been due `n / m` times. -/
theorem fired_of_dvd {m : Nat} (hm : 0 < m)
    (h : ∀ k, 1 ≤ k → k ≤ n → (Due M T R k ↔ m ∣ k)) :
    fired M T R n * m ≤ n ∧ n < (fired M T R n + 1) * m := by
  induction n with
  | zero => exact ⟨by simp [fired], by simpa [fired] using hm⟩
  | succ n ih =>
    obtain ⟨hlo, hhi⟩ := ih fun k hk hle => h k hk (by omega)
    have hdue := h (n + 1) (Nat.le_add_left 1 n) (Nat.le_refl _)
    have hsucc : (fired M T R n + 1) * m = fired M T R n * m + m := Nat.succ_mul _ m
    by_cases hdvd : m ∣ n + 1
    · have hfired : fired M T R (n + 1) = fired M T R n + 1 := by
        rw [fired, if_pos (hdue.mpr hdvd)]
      obtain ⟨q, hq⟩ := hdvd
      have hqle : q ≤ fired M T R n + 1 := by
        apply Nat.le_of_mul_le_mul_left _ hm
        rw [← hq, Nat.mul_comm]
        omega
      have hqge : fired M T R n + 1 ≤ q := by
        apply Nat.lt_of_not_le
        intro hle
        have hmul : m * q ≤ m * fired M T R n := Nat.mul_le_mul_left m hle
        rw [Nat.mul_comm m (fired M T R n)] at hmul
        omega
      have hqeq : q = fired M T R n + 1 := by omega
      have hend : (fired M T R n + 1) * m = n + 1 := by
        rw [hq, hqeq, Nat.mul_comm]
      rw [hfired, Nat.succ_mul (fired M T R n + 1) m]
      omega
    · have hfired : fired M T R (n + 1) = fired M T R n := by
        rw [fired, if_neg fun hd => hdvd (hdue.mp hd), Nat.add_zero]
      have hne : n + 1 ≠ (fired M T R n + 1) * m := by
        intro heq
        exact hdvd ⟨_, heq.trans (Nat.mul_comm _ m)⟩
      rw [hfired]
      omega

/-- The count never goes down. -/
theorem fired_le_of_le {n' : Nat} (h : n ≤ n') : fired M T R n ≤ fired M T R n' := by
  induction h with
  | refl => exact Nat.le_refl _
  | step _ ih => exact Nat.le_trans ih (Nat.le_add_right _ _)

/-- A multiple of `m` within the first `N` rounds. -/
theorem dvd_iff_round {m N : Nat} (hm : 0 < m) (hn : 1 ≤ n) (hnN : n ≤ N * m) :
    m ∣ n ↔ ∃ k, 1 ≤ k ∧ k ≤ N ∧ n = k * m := by
  constructor
  · rintro ⟨k, hk⟩
    have hkm : n = k * m := hk.trans (Nat.mul_comm m k)
    refine ⟨k, ?_, Nat.le_of_mul_le_mul_right (hkm ▸ hnN) hm, hkm⟩
    apply Nat.pos_of_ne_zero
    rintro rfl
    omega
  · rintro ⟨k, -, -, hk⟩
    exact ⟨k, hk.trans (Nat.mul_comm k m)⟩

/-- Fewer than `N` multiples lie below the end of round `N`. -/
theorem fired_lt_of_dvd {m N : Nat} (hm : 0 < m) (hn : n < N * m)
    (h : ∀ k, 1 ≤ k → k ≤ n → (Due M T R k ↔ m ∣ k)) : fired M T R n < N := by
  obtain ⟨hlo, -⟩ := fired_of_dvd hm h
  apply Nat.lt_of_not_le
  intro hle
  have hmul : N * m ≤ fired M T R n * m := Nat.mul_le_mul_right m hle
  omega

/-- **The first `N` ticks at which the counter is due are the first `N` multiples**, if and only if
    it is due at the multiples, and nowhere else, as long as that goes on. -/
theorem fires_at_multiples_iff {m N : Nat} (hm : 0 < m) :
    (∀ n, fired M T R n < N ∧ Due M T R (n + 1) ↔ ∃ k, 1 ≤ k ∧ k ≤ N ∧ n + 1 = k * m) ↔
      ∀ n, 1 ≤ n → n ≤ N * m → (Due M T R n ↔ m ∣ n) := by
  constructor
  · intro h n
    induction n using Nat.strongRecOn with
    | _ n ih =>
      intro hn hnN
      obtain ⟨n, rfl⟩ : ∃ n', n = n' + 1 := ⟨n - 1, by omega⟩
      have hfired : fired M T R n < N :=
        fired_lt_of_dvd hm hnN fun k hk hle => ih k (by omega) hk (by omega)
      rw [dvd_iff_round hm hn hnN, ← h n]
      exact ⟨fun hdue => ⟨hfired, hdue⟩, fun hboth => hboth.2⟩
  · intro h n
    rcases Nat.lt_or_ge n (N * m) with hn | hn
    · have hfired : fired M T R n < N :=
        fired_lt_of_dvd hm hn fun k hk hle => h k hk (by omega)
      rw [h (n + 1) (by omega) hn, ← dvd_iff_round hm (by omega) hn]
      exact ⟨fun hboth => hboth.2, fun hdvd => ⟨hfired, hdvd⟩⟩
    · -- after `N` multiples the count is used up
      have hall : N ≤ fired M T R (N * m) := by
        obtain ⟨-, hhi⟩ := fired_of_dvd (n := N * m) hm h
        exact Nat.lt_succ_iff.mp (Nat.lt_of_mul_lt_mul_right hhi)
      have hle : N ≤ fired M T R n := Nat.le_trans hall (fired_le_of_le hn)
      constructor
      · rintro ⟨hlt, -⟩
        omega
      · rintro ⟨k, -, hk, heq⟩
        have hmul : k * m ≤ N * m := Nat.mul_le_mul_right m hk
        omega

end Ticks
