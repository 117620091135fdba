/-
  Two timeouts counted in ticks: the retransmission and the final wait.

  `retransmission_handler` adds `timer` to a 16-bit counter at every tick and compares the counter
  with a threshold.  `Ctcp.Lib.Ticks` says what such a counter does; here the two counters of a
  connection are shown to be of this kind, whatever else happens between the ticks.

  1. **The final wait** (`finalWait_ends_iff`) — `tim` against `50 * rt_timeout`, a product that is
     computed in `int` and may be out of reach.
  2. **Retransmissions** (`spaced_iff`) — `time` against `rt_timeout`.  `time` is not set back when
     the segment is sent again, so from the first timeout on the segment is sent again at every
     tick, until the counter wraps.
-/
import Ctcp.Guards
import Ctcp.Lib.Ticks

set_option linter.unusedVariables false

namespace Ctcp

open Runs History Ticks

/-- The number of ticks among the calls. -/
def ticks (calls : List Call) : Nat := calls.count .timer

@[simp] theorem ticks_nil : ticks [] = 0 := rfl

theorem ticks_cons (call : Call) (calls : List Call) :
    ticks (call :: calls) = (if call = .timer then 1 else 0) + ticks calls := by
  rw [ticks, List.count_cons, Nat.add_comm]
  simp [ticks]

@[simp] theorem ticks_replicate (n : Nat) : ticks (List.replicate n .timer) = n := by
  simp [ticks]

/-- What survives a run was not destroyed by its first call. -/
theorem live_of_run {state : CtcpState} {call : Call} {calls : List Call}
    (hlive : (run step state (call :: calls)).conn.deleteMe = false) :
    (step state call).conn.deleteMe = false := by
  cases hdead : (step state call).conn.deleteMe with
  | false => rfl
  | true =>
    rw [run, run_dead hdead] at hlive
    exact hdead.symm.trans hlive

/-- A call does not bring a destroyed connection back. -/
theorem live_of_step {state : CtcpState} {call : Call}
    (hlive : (step state call).conn.deleteMe = false) : state.conn.deleteMe = false := by
  cases hdead : state.conn.deleteMe with
  | false => rfl
  | true =>
    rw [show step state call = state by simp [step, hdead]] at hlive
    exact hdead.symm.trans hlive

/-! ## The intervals are fixed -/

theorem intervals_of_output {env : Env} {state state' : CtcpState}
    (hout : OutputOutcome env state state') :
    state'.timer = state.timer ∧ state'.rtTimeout = state.rtTimeout := by
  cases hout <;> exact ⟨rfl, rfl⟩

theorem intervals_of_step (state : CtcpState) (call : Call) :
    (step state call).timer = state.timer ∧ (step state call).rtTimeout = state.rtTimeout := by
  have hout := step_outcome state call
  generalize step state call = state' at hout
  cases hout with
  | dead => exact ⟨rfl, rfl⟩
  | read _ _ _ _ hout => cases hout <;> exact ⟨rfl, rfl⟩
  | invalid => exact ⟨rfl, rfl⟩
  | receive _ _ _ _ _ _ hout =>
    cases hout with
    | data _ _ _ _ _ _ hout =>
      have hkept := intervals_of_output hout
      exact hkept
    | _ => exact ⟨rfl, rfl⟩
  | output _ _ _ hout => exact intervals_of_output hout
  | timer _ _ hout =>
    cases hout with
    | expired => exact ⟨rfl, rfl⟩
    | running _ _ hout => cases hout <;> exact ⟨rfl, rfl⟩

/-! ## The final wait -/

/-- No FIN arrives with this call. -/
def NoFinArrives : Call → Prop
  | .receive segment len _ => Valid segment len → ¬ isFin segment
  | _ => True

theorem wait_of_output {env : Env} {state state' : CtcpState}
    (hout : OutputOutcome env state state') :
    state'.tdState = state.tdState ∧ state'.tim = state.tim := by
  cases hout <;> exact ⟨rfl, rfl⟩

/-- Only the timer and a FIN touch the final wait. -/
theorem wait_of_step (state : CtcpState) {call : Call} (hcall : call ≠ .timer)
    (hfin : NoFinArrives call) :
    (step state call).tdState = state.tdState ∧ (step state call).tim = state.tim := by
  have hout := step_outcome state call
  generalize step state call = state' at hout
  cases hout with
  | dead => exact ⟨rfl, rfl⟩
  | read _ _ _ _ hout => cases hout <;> exact ⟨rfl, rfl⟩
  | invalid => exact ⟨rfl, rfl⟩
  | receive _ _ _ _ _ hvalid hout =>
    cases hout with
    | data _ _ _ _ _ _ hout =>
      have hkept := wait_of_output hout
      exact hkept
    | lastFin _ hflag => exact absurd hflag (hfin hvalid)
    | _ => exact ⟨rfl, rfl⟩
  | output _ _ _ hout => exact wait_of_output hout
  | timer => exact absurd rfl hcall

/-- A tick destroys the connection when it ends the final wait, and then only. -/
theorem destroy_of_timer {state : CtcpState} (hlive : state.conn.deleteMe = false) :
    (.destroy ∈ events state .timer ↔ waitExpires state) ∧
      ((step state .timer).conn.deleteMe = true ↔ waitExpires state) := by
  have hout : TimerOutcome state (step state .timer) := by
    have hstep : step state .timer = retransmissionHandler state := by simp [step, hlive]
    rw [hstep]
    exact retransmissionHandler_outcome state
  have htrace := step_trace state .timer
  generalize events state .timer = es at htrace ⊢
  generalize step state .timer = state' at hout htrace ⊢
  cases hout with
  | expired hexp =>
    rw [← List.append_cancel_left htrace]
    exact ⟨iff_of_true (by simp) hexp, iff_of_true rfl hexp⟩
  | running hexp _ hout =>
    obtain ⟨hnot, hkept⟩ := hout.quiet htrace
    have halive : state'.conn.deleteMe = false := hkept.trans hlive
    exact ⟨iff_of_false hnot hexp, iff_of_false (by simp [halive]) hexp⟩

/-- A tick moves the timer of the final wait. -/
theorem tim_of_timer {state : CtcpState} (hlive : state.conn.deleteMe = false)
    (htd : state.tdState = .waitDestroy) :
    (step state .timer).tdState = .waitDestroy ∧
      (step state .timer).tim = state.tim + state.timer := by
  have htick : tickTim state = state.tim + state.timer := by simp [tickTim, htd]
  have hout := step_outcome state .timer
  generalize step state .timer = state' at hout ⊢
  cases hout with
  | dead _ hdead => cases hlive.symm.trans hdead
  | timer _ _ hout =>
    cases hout with
    | expired => exact ⟨htd, htick⟩
    | running _ _ hout => cases hout <;> exact ⟨htd, htick⟩

/-- In the final wait, the timer is due at tick `n`. -/
abbrev WaitDue (state : CtcpState) (n : Nat) : Prop :=
  Due (2 ^ 16) state.timer.toNat (50 * state.rtTimeout.toNat) n

/-- `n` ticks into the final wait. -/
structure WaitInv (state₀ : CtcpState) (n : Nat) (state : CtcpState) : Prop where
  timer : state.timer = state₀.timer
  rtTimeout : state.rtTimeout = state₀.rtTimeout
  waiting : state.tdState = .waitDestroy
  tim : state.tim.toNat = n * state₀.timer.toNat % 2 ^ 16
  quiet : ∀ k, 1 ≤ k → k ≤ n → ¬ WaitDue state₀ k

theorem toNat_tick {count timer : UInt16} {n : Nat} (h : count.toNat = n * timer.toNat % 2 ^ 16) :
    (count + timer).toNat = (n + 1) * timer.toNat % 2 ^ 16 := by
  rw [UInt16.toNat_add, h, Nat.succ_mul, Nat.mod_add_mod]

theorem WaitInv.expires_iff {state₀ state : CtcpState} {n : Nat} (h : WaitInv state₀ n state) :
    waitExpires state ↔ WaitDue state₀ (n + 1) := by
  have htim : (state.tim + state.timer).toNat = (n + 1) * state₀.timer.toNat % 2 ^ 16 := by
    rw [h.timer]
    exact toNat_tick h.tim
  unfold waitExpires WaitDue Due
  rw [htim, h.rtTimeout, Nat.mul_comm 50]
  exact and_iff_right h.waiting

/-- **One call of the final wait**, if the connection survives it. -/
theorem waitInv_step {state₀ state : CtcpState} {n : Nat} (h : WaitInv state₀ n state)
    (call : Call) (hfin : NoFinArrives call)
    (hlive : (step state call).conn.deleteMe = false) :
    WaitInv state₀ (n + if call = .timer then 1 else 0) (step state call) := by
  obtain ⟨htimer, hrt⟩ := intervals_of_step state call
  by_cases hcall : call = .timer
  · subst hcall
    have hlive₀ := live_of_step hlive
    obtain ⟨htd, htim⟩ := tim_of_timer hlive₀ h.waiting
    rw [if_pos rfl]
    refine ⟨htimer.trans h.timer, hrt.trans h.rtTimeout, htd, ?_, ?_⟩
    · rw [htim, h.timer]
      exact toNat_tick h.tim
    · intro k hk hle hdue
      rcases Nat.lt_or_eq_of_le hle with hlt | rfl
      · exact h.quiet k hk (Nat.lt_succ_iff.mp hlt) hdue
      · have hdead := (destroy_of_timer hlive₀).2.mpr (h.expires_iff.mpr hdue)
        cases hdead.symm.trans hlive
  · obtain ⟨htd, htim⟩ := wait_of_step state hcall hfin
    rw [if_neg hcall]
    exact ⟨htimer.trans h.timer, hrt.trans h.rtTimeout, htd.trans h.waiting, by
      rw [htim]
      exact h.tim, h.quiet⟩

theorem waitInv_run {state₀ state : CtcpState} {n : Nat} {calls : List Call}
    (h : WaitInv state₀ n state) (hfin : ∀ call ∈ calls, NoFinArrives call)
    (hlive : (run step state calls).conn.deleteMe = false) :
    WaitInv state₀ (n + ticks calls) (run step state calls) := by
  -- on the calls; only the ticks among them count
  induction calls generalizing state n with
  | nil => exact h
  | cons call calls ih =>
    have hstep := waitInv_step h call (hfin call List.mem_cons_self) (live_of_run hlive)
    have hrun := ih hstep (fun call' hmem => hfin call' (List.mem_cons_of_mem call hmem)) hlive
    rw [ticks_cons, ← Nat.add_assoc]
    exact hrun

/-- **The final wait ends in time**: some tick is the first at which 50 timeouts have passed, and
    whatever else happens, without a FIN, the timer destroys the connection at that tick and at no
    other. -/
def FinalWaitEnds (state : CtcpState) : Prop :=
  (∃ n, FirstTick (fun n => 50 * state.rtTimeout.toNat ≤ n * state.timer.toNat) n) ∧
    ∀ calls, (∀ call ∈ calls, NoFinArrives call) →
      (run step state calls).conn.deleteMe = false →
        (.destroy ∈ events (run step state calls) .timer ↔
          FirstTick (fun n => 50 * state.rtTimeout.toNat ≤ n * state.timer.toNat)
            (ticks calls + 1))

/-- The run of ticks alone. -/
theorem live_of_quiet {state₀ state : CtcpState} {m n : Nat} (h : WaitInv state₀ m state)
    (hlive : state.conn.deleteMe = false)
    (hquiet : ∀ k, 1 ≤ k → k ≤ m + n → ¬ WaitDue state₀ k) :
    (run step state (List.replicate n .timer)).conn.deleteMe = false := by
  induction n generalizing state m with
  | zero => exact hlive
  | succ n ih =>
    have hstep : (step state .timer).conn.deleteMe = false := by
      cases hdead : (step state .timer).conn.deleteMe with
      | false => rfl
      | true =>
        have hexp := (destroy_of_timer hlive).2.mp hdead
        exact absurd (h.expires_iff.mp hexp) (hquiet (m + 1) (by omega) (by omega))
    have hinv := waitInv_step h .timer trivial hstep
    exact ih hinv hstep fun k hk hle => hquiet k hk (by rw [if_pos rfl] at hle; omega)

/-- The final wait ends in time when its counter reports the first time. -/
theorem finalWaitEnds_iff_due {state : CtcpState} (hlive : state.conn.deleteMe = false)
    (htd : state.tdState = .waitDestroy) (htim : state.tim = 0)
    (htimer : 0 < state.timer.toNat) :
    FinalWaitEnds state ↔
      ∀ n, (∀ k, 1 ≤ k → k ≤ n → ¬ WaitDue state k) →
        (WaitDue state (n + 1) ↔
          FirstTick (fun n => 50 * state.rtTimeout.toNat ≤ n * state.timer.toNat) (n + 1)) := by
  have hstart : WaitInv state 0 state :=
    ⟨rfl, rfl, htd, by simp [htim], fun k hk hle => by omega⟩
  have hdestroy : ∀ {calls}, (∀ call ∈ calls, NoFinArrives call) →
      (run step state calls).conn.deleteMe = false →
      (.destroy ∈ events (run step state calls) .timer ↔ WaitDue state (ticks calls + 1)) := by
    intro calls hfin hend
    have hinv := waitInv_run hstart hfin hend
    rw [(destroy_of_timer hend).1, hinv.expires_iff, Nat.zero_add]
  constructor
  -- ticks alone already reach every count that nothing has ended before
  · rintro ⟨-, hends⟩ n hquiet
    have hend := live_of_quiet (n := n) hstart hlive (by rwa [Nat.zero_add])
    have hfin : ∀ call ∈ List.replicate n Call.timer, NoFinArrives call := by
      intro call hmem
      rw [List.eq_of_mem_replicate hmem]
      trivial
    have hboth := hends _ hfin hend
    rw [hdestroy hfin hend, ticks_replicate] at hboth
    exact hboth
  · intro hfirst
    constructor
    · have hsome : 50 * state.rtTimeout.toNat
          ≤ (50 * state.rtTimeout.toNat + 1) * state.timer.toNat := by
        have hle := Nat.mul_le_mul_left (50 * state.rtTimeout.toNat + 1) htimer
        omega
      -- in exact integers the product is reached, whatever the 16 bits do
      obtain ⟨n, -, hn⟩ := exists_firstTick
        (P := fun n => 50 * state.rtTimeout.toNat ≤ n * state.timer.toNat)
        (Nat.le_add_left 1 _) hsome
      exact ⟨n, hn⟩
    · intro calls hfin hend
      have hinv := waitInv_run hstart hfin hend
      rw [hdestroy hfin hend]
      exact hfirst _ fun k hk hle => hinv.quiet k hk (by omega)

/-- **When the final wait ends in time**: when the timer reaches 50 timeouts before it wraps. -/
theorem finalWait_ends_iff (state : CtcpState) (hlive : state.conn.deleteMe = false)
    (htd : state.tdState = .waitDestroy) (htim : state.tim = 0)
    (htimer : 0 < state.timer.toNat) :
    FinalWaitEnds state ↔
      ∃ n, 1 ≤ n ∧ 50 * state.rtTimeout.toNat ≤ n * state.timer.toNat ∧
        n * state.timer.toNat < 2 ^ 16 := by
  rw [finalWaitEnds_iff_due hlive htd htim htimer]
  exact due_first_iff htimer state.timer.toNat_lt

/-- The calls of an active close: our FIN, its ACK, and the peer's FIN. -/
def activeClose : List Call :=
  [.read none 20, .arrival (ackSegment 1 2), .arrival (finSegment 1 2)]

/-- With the intervals of `main` the final wait takes 250 ticks. -/
theorem finalWait_ends_default : FinalWaitEnds (run step (ctcpInit ctcpCfg) activeClose) :=
  (finalWait_ends_iff _ (by decide) (by decide) (by decide) (by decide)).mpr
    ⟨250, by decide, by decide, by decide⟩

/-- With a timeout of 1400 ms the wait is 70000 ms long, which 16 bits cannot count. -/
theorem finalWait_for_ever :
    ¬ FinalWaitEnds (run step (ctcpInit { ctcpCfg with rtTimeout := 1400 }) activeClose) := by
  rw [finalWaitEnds_iff_due (by decide) (by decide) (by decide) (by decide),
    due_first_iff (by decide) (by decide)]
  rintro ⟨n, -, hreach, hlt⟩
  have hrt : (run step (ctcpInit { ctcpCfg with rtTimeout := 1400 }) activeClose).rtTimeout.toNat
      = 1400 := by decide
  rw [hrt] at hreach
  exact Nat.lt_irrefl _ (Nat.lt_trans (Nat.lt_of_le_of_lt hreach hlt) (by decide))

/-! ## Retransmissions -/

/-- Nothing but the timer touches the slot: no acknowledgement, and no other segment. -/
def Unacknowledged (state : CtcpState) (call : Call) : Prop :=
  call ≠ .timer → (step state call).sentSegmentAttr = state.sentSegmentAttr

/-- **Retransmissions are a timeout apart**, for the intervals `T` and `R`: however a segment got
    into the slot, and whatever else happens, without an acknowledgement it is sent again at the
    ticks `m`, `2 * m`, …, `5 * m` and at no other, where `m` is the first number of ticks that
    last at least `R`. -/
def Spaced (T R : UInt16) : Prop :=
  ∀ state segment calls, state.timer = T → state.rtTimeout = R →
    state.sentSegmentAttr = some ⟨0, 0, segment⟩ → Along step Unacknowledged state calls →
    (step (run step state calls) .timer).conn.deleteMe = false →
      (.resend segment ∈ events (run step state calls) .timer ↔
        ∃ k, 1 ≤ k ∧ k ≤ 5 ∧ ticks calls + 1 = k * ticksFor R.toNat T.toNat)

/-- How often the timeout was reached in `n` ticks. -/
abbrev timeouts (T R : UInt16) (n : Nat) : Nat := fired (2 ^ 16) T.toNat R.toNat n

/-- The slot after `n` ticks: `time` goes on, and the fifth timeout empties it. -/
def slotAfter (T R : UInt16) (segment : CtcpSegment) (n : Nat) : Option SegmentAttr :=
  if timeouts T R n < 5 then
    some ⟨UInt16.ofNat (timeouts T R n), UInt16.ofNat (n * T.toNat), segment⟩
  else none

theorem timeouts_le_succ (T R : UInt16) (n : Nat) : timeouts T R n ≤ timeouts T R (n + 1) :=
  fired_le_of_le (Nat.le_succ n)

/-- The counter of the slot, one tick later. -/
theorem due_succ_iff (T R : UInt16) (n : Nat) :
    R ≤ UInt16.ofNat (n * T.toNat) + T ↔ Due (2 ^ 16) T.toNat R.toNat (n + 1) := by
  have hcount : (UInt16.ofNat (n * T.toNat)).toNat = n * T.toNat % 2 ^ 16 :=
    UInt16.toNat_ofNat'
  rw [UInt16.le_iff_toNat_le, toNat_tick hcount, Due]

theorem time_succ (T : UInt16) (n : Nat) :
    UInt16.ofNat (n * T.toNat) + T = UInt16.ofNat ((n + 1) * T.toNat) := by
  apply UInt16.toNat_inj.mp
  rw [toNat_tick UInt16.toNat_ofNat', UInt16.toNat_ofNat']

theorem noOfTimes_lt_iff {n : Nat} (h : n < 5) : UInt16.ofNat n + 1 < 5 ↔ n + 1 < 5 := by
  rw [UInt16.lt_iff_toNat_lt, UInt16.toNat_add, UInt16.toNat_ofNat', UInt16.toNat_one]
  show (n % 2 ^ 16 + 1) % 2 ^ 16 < 5 ↔ _
  omega

/-- **One tick of the slot.** -/
theorem slotAfter_tick {T R : UInt16} {segment : CtcpSegment} {n : Nat}
    {state state' : CtcpState} (htimer : state.timer = T) (hrt : state.rtTimeout = R)
    (hslot : state.sentSegmentAttr = slotAfter T R segment n)
    (hout : RetransmitOutcome state state') :
    state'.sentSegmentAttr = slotAfter T R segment (n + 1) ∧
      ∃ es, state'.trace = state.trace ++ es ∧
        (.resend segment ∈ es ↔
          timeouts T R n < 5 ∧ Due (2 ^ 16) T.toNat R.toNat (n + 1)) := by
  have hmono := timeouts_le_succ T R n
  have hsucc : timeouts T R (n + 1) = timeouts T R n
      + if Due (2 ^ 16) T.toNat R.toNat (n + 1) then 1 else 0 := rfl
  -- what is in the slot is the segment, with the numbers of tick `n`
  have hattr : ∀ attr, state.sentSegmentAttr = some attr → timeouts T R n < 5 ∧
      attr = ⟨UInt16.ofNat (timeouts T R n), UInt16.ofNat (n * T.toNat), segment⟩ := by
    intro attr hsome
    rw [hslot, slotAfter] at hsome
    split at hsome
    · rename_i hless
      exact ⟨hless, (Option.some.inj hsome).symm⟩
    · cases hsome
  cases hout with
  | idle hnone =>
    have hdone : ¬ timeouts T R n < 5 := by
      intro hless
      rw [hslot, slotAfter, if_pos hless] at hnone
      cases hnone
    refine ⟨?_, [], by simp, iff_of_false (by simp) (fun h => hdone h.1)⟩
    rw [hnone, slotAfter, if_neg (by omega)]
  | waiting attr hsome htime =>
    obtain ⟨hless, rfl⟩ := hattr attr hsome
    rw [htimer, hrt] at htime
    have hnot : ¬ Due (2 ^ 16) T.toNat R.toNat (n + 1) := fun hdue =>
      UInt16.not_le.mpr htime ((due_succ_iff T R n).mpr hdue)
    rw [if_neg hnot] at hsucc
    refine ⟨?_, [], by simp, iff_of_false (by simp) (fun h => hnot h.2)⟩
    show some _ = _
    rw [slotAfter, if_pos (by omega), hsucc, htimer, time_succ]
    rfl
  | resent attr hsome htime hless' =>
    obtain ⟨hless, rfl⟩ := hattr attr hsome
    rw [htimer, hrt] at htime
    have hdue := (due_succ_iff T R n).mp htime
    rw [if_pos hdue] at hsucc
    have hless'' := (noOfTimes_lt_iff hless).mp hless'
    refine ⟨?_, [.resend segment], rfl, iff_of_true (by simp) ⟨hless, hdue⟩⟩
    show some _ = _
    rw [slotAfter, if_pos (by omega), hsucc, htimer, time_succ, UInt16.ofNat_add]
    rfl
  | givenUp attr hsome htime hmore =>
    obtain ⟨hless, rfl⟩ := hattr attr hsome
    rw [htimer, hrt] at htime
    have hdue := (due_succ_iff T R n).mp htime
    rw [if_pos hdue] at hsucc
    have hlast : ¬ timeouts T R n + 1 < 5 := fun h =>
      UInt16.not_lt.mpr hmore ((noOfTimes_lt_iff hless).mpr h)
    refine ⟨?_, [.resend segment], rfl, iff_of_true (by simp) ⟨hless, hdue⟩⟩
    show none = _
    rw [slotAfter, if_neg (by omega)]

/-- `n` ticks after the segment was sent. -/
structure SlotInv (T R : UInt16) (segment : CtcpSegment) (n : Nat) (state : CtcpState) :
    Prop where
  timer : state.timer = T
  rtTimeout : state.rtTimeout = R
  slot : state.sentSegmentAttr = slotAfter T R segment n

/-- A tick that the connection survives. -/
theorem SlotInv.tick {T R : UInt16} {segment : CtcpSegment} {n : Nat} {state : CtcpState}
    (h : SlotInv T R segment n state) (hlive : (step state .timer).conn.deleteMe = false) :
    (step state .timer).sentSegmentAttr = slotAfter T R segment (n + 1) ∧
      (.resend segment ∈ events state .timer ↔
        timeouts T R n < 5 ∧ Due (2 ^ 16) T.toNat R.toNat (n + 1)) := by
  have hout := step_outcome state .timer
  have htrace := step_trace state .timer
  generalize events state .timer = es at htrace ⊢
  generalize step state .timer = state' at hlive hout htrace ⊢
  cases hout with
  | dead _ hdead => cases hlive.symm.trans hdead
  | timer _ _ hout =>
    cases hout with
    | expired => cases hlive
    | running _ _ hout =>
      have hinv : SlotInv T R segment n { state with tim := tickTim state } :=
        ⟨h.timer, h.rtTimeout, h.slot⟩
      obtain ⟨hslot, es', htrace', hes⟩ :=
        slotAfter_tick hinv.timer hinv.rtTimeout hinv.slot hout
      obtain rfl : es' = es := List.append_cancel_left (htrace'.symm.trans htrace)
      exact ⟨hslot, hes⟩

theorem slotInv_step {T R : UInt16} {segment : CtcpSegment} {n : Nat} {state : CtcpState}
    (h : SlotInv T R segment n state) (call : Call) (hcall : Unacknowledged state call)
    (hlive : (step state call).conn.deleteMe = false) :
    SlotInv T R segment (n + if call = .timer then 1 else 0) (step state call) := by
  obtain ⟨htimer, hrt⟩ := intervals_of_step state call
  -- a tick changes the slot, and no other call does, for nothing is acknowledged
  refine ⟨htimer.trans h.timer, hrt.trans h.rtTimeout, ?_⟩
  by_cases htick : call = .timer
  · subst htick
    rw [if_pos rfl]
    exact (h.tick hlive).1
  · rw [if_neg htick, hcall htick]
    exact h.slot

theorem slotInv_run {T R : UInt16} {segment : CtcpSegment} {n : Nat} {state : CtcpState}
    {calls : List Call} (h : SlotInv T R segment n state)
    (hcalls : Along step Unacknowledged state calls)
    (hlive : (run step state calls).conn.deleteMe = false) :
    SlotInv T R segment (n + ticks calls) (run step state calls) := by
  induction calls generalizing state n with
  | nil => exact h
  | cons call calls ih =>
    have hstep := slotInv_step h call hcalls.1 (live_of_run hlive)
    have hrun := ih hstep hcalls.2 hlive
    rw [ticks_cons, ← Nat.add_assoc]
    exact hrun

theorem slotInv_start {T R : UInt16} {segment : CtcpSegment} {state : CtcpState}
    (htimer : state.timer = T) (hrt : state.rtTimeout = R)
    (hslot : state.sentSegmentAttr = some ⟨0, 0, segment⟩) : SlotInv T R segment 0 state := by
  refine ⟨htimer, hrt, ?_⟩
  rw [hslot, slotAfter, if_pos (by simp [fired]), Nat.zero_mul]
  rfl

/-- Outside the final wait, ticks destroy nothing. -/
theorem live_of_ticks {state : CtcpState} (hlive : state.conn.deleteMe = false)
    (htd : state.tdState = .notTeardown) (n : Nat) :
    (run step state (List.replicate n .timer)).conn.deleteMe = false := by
  induction n generalizing state with
  | zero => exact hlive
  | succ n ih =>
    have hnot : ¬ waitExpires state := by simp [waitExpires, htd]
    have hstep : (step state .timer).conn.deleteMe = false := by
      simpa [hnot] using (destroy_of_timer hlive).2
    refine ih hstep ?_
    have hout := step_outcome state .timer
    generalize step state .timer = state' at hout
    cases hout with
    | dead => exact htd
    | timer _ _ hout =>
      cases hout with
      | expired => exact htd
      | running _ _ hout => cases hout <;> exact htd

/-- A connection with the intervals `T` and `R` that has just sent one byte. -/
def oneByteSent (T R : UInt16) : CtcpState :=
  run step (ctcpInit { timer := T.toNat, rtTimeout := R.toNat })
    [.read (some ⟨[0], by decide⟩) 21]

/-- An interval of 16 bits is not cut. -/
theorem ofInt_toNat (T : UInt16) : UInt16.ofInt (T.toNat : Int) = T := by
  have hmod : ((T.toNat : Int) % 2 ^ 16).toNat = T.toNat := by
    have hlt := T.toNat_lt
    omega
  rw [UInt16.ofInt, hmod, UInt16.ofNat_toNat]

theorem slotInv_oneByteSent (T R : UInt16) :
    SlotInv T R (dataSegment 1 1 [0]) 0 (oneByteSent T R) := by
  refine slotInv_start ?_ ?_ rfl
  · exact ofInt_toNat T
  · exact ofInt_toNat R

/-- Ticks acknowledge nothing. -/
theorem unacknowledged_ticks (state : CtcpState) (n : Nat) :
    Along step Unacknowledged state (List.replicate n .timer) := by
  induction n generalizing state with
  | zero => trivial
  | succ n ih => exact ⟨fun hcall => absurd rfl hcall, ih _⟩

/-- Retransmissions are a timeout apart when the counter is due at the right ticks. -/
theorem spaced_iff_fired {T R : UInt16} :
    Spaced T R ↔
      ∀ n, timeouts T R n < 5 ∧ Due (2 ^ 16) T.toNat R.toNat (n + 1) ↔
        ∃ k, 1 ≤ k ∧ k ≤ 5 ∧ n + 1 = k * ticksFor R.toNat T.toNat := by
  constructor
  · intro h n
    have hstart := slotInv_oneByteSent T R
    have hlive : ∀ n, (run step (oneByteSent T R) (List.replicate n .timer)).conn.deleteMe
        = false := live_of_ticks rfl rfl
    have hinv := slotInv_run hstart (unacknowledged_ticks _ n) (hlive n)
    have hend : (step (run step (oneByteSent T R) (List.replicate n .timer)) .timer).conn.deleteMe
        = false := by
      have hsucc := hlive (n + 1)
      rw [List.replicate_succ', run_append] at hsucc
      exact hsucc
    have hspaced := h (oneByteSent T R) (dataSegment 1 1 [0]) _ hstart.timer hstart.rtTimeout rfl
      (unacknowledged_ticks _ n) hend
    rw [(hinv.tick hend).2, ticks_replicate, Nat.zero_add] at hspaced
    exact hspaced
  · intro h state segment calls htimer hrt hslot hcalls hend
    have hinv := slotInv_run (slotInv_start htimer hrt hslot) hcalls (live_of_step hend)
    rw [(hinv.tick hend).2, Nat.zero_add]
    exact h (ticks calls)

/-- **When retransmissions are a timeout apart.** -/
theorem spaced_iff (T R : UInt16) (hT : 0 < T.toNat) (hR : 0 < R.toNat) :
    Spaced T R ↔ EvenlyDue (2 ^ 16) T.toNat R.toNat 5 := by
  rw [spaced_iff_fired, fires_at_multiples_iff (ticksFor_pos hT hR)]
  exact due_iff_dvd hT T.toNat_lt hR (by decide)

/-- One tick is longer than the timeout. -/
theorem spaced_long_ticks : Spaced 300 200 :=
  (spaced_iff 300 200 (by decide) (by decide)).mpr
    (Or.inl ⟨by decide, fun k hk hle => by
      show 200 ≤ k * 300 % 65536
      rw [Nat.mod_eq_of_lt (by omega)]
      omega⟩)

/-- With the intervals of `main` the second retransmission follows one tick after the first. -/
theorem not_spaced_default :
    ¬ Spaced 40 200 ∧
      .resend (dataSegment 1 1 [0]) ∈
        events (run step (oneByteSent 40 200) (List.replicate 4 .timer)) .timer ∧
      .resend (dataSegment 1 1 [0]) ∈
        events (run step (oneByteSent 40 200) (List.replicate 5 .timer)) .timer := by
  have hagain : .resend (dataSegment 1 1 [0]) ∈
      events (run step (oneByteSent 40 200) (List.replicate 5 .timer)) .timer := by decide
  refine ⟨?_, by decide, hagain⟩
  intro h
  obtain ⟨k, -, -, hk⟩ := (h (oneByteSent 40 200) (dataSegment 1 1 [0]) (List.replicate 5 .timer)
    (by decide) (by decide) (by decide) (unacknowledged_ticks _ 5) (by decide)).mp hagain
  have hticks : ticksFor (200 : UInt16).toNat (40 : UInt16).toNat = 5 := by decide
  rw [ticks_replicate, hticks] at hk
  omega

end Ctcp
