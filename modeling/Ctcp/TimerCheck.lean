/-
  When `do_loop` calls `ctcp_timer`.

  `need_timer_in` compares the seconds first, and returns 0 as soon as their difference is more than
  `interval / 1000`, whatever the nanoseconds say:

      elapsed = ts.tv_sec - last->tv_sec;
      if (elapsed > interval / 1000)
        return 0;

  With an interval of 40 ms, the first check after the clock has come to a new second finds the
  timer due, a microsecond after the last tick.  The division of a negative difference of the
  nanoseconds makes up to a millisecond more.  `timerExact_iff`: the result is right if and only if
  neither happens; and in a run in which neither happens at any check, two calls of `ctcp_timer`
  are at least `interval` ms apart.
-/
import Ctcp.Lib.Runs

set_option linter.unusedVariables false

namespace Ctcp

open Runs

/-! ## The clock -/

/-- `struct timeval`, as `gettimeofday` fills it. -/
structure Timeval where
  sec : Int
  usec : Int
  normal : 0 ≤ usec ∧ usec < 1000000

/-- `struct timespec`. -/
structure Timespec where
  sec : Int
  nsec : Int
  normal : 0 ≤ nsec ∧ nsec < 1000000000

/-- `get_time`. -/
def getTime (tv : Timeval) : Timespec :=
  { sec := tv.sec
    nsec := tv.usec * 1000
    normal := by
      have hnormal := tv.normal
      omega }

/-- Nanoseconds. -/
def Timespec.ns (ts : Timespec) : Int := ts.sec * 1000000000 + ts.nsec

/-- `need_timer_in`; `gettimeofday` answers `tv`. -/
def needTimerIn (last : Timespec) (interval : Int) (tv : Timeval) : Int :=
  let ts := getTime tv
  let elapsed := ts.sec - last.sec
  if elapsed > interval.tdiv 1000 then 0
  else
    let elapsed := elapsed * 1000 + (ts.nsec - last.nsec).tdiv 1000000
    if elapsed ≥ interval then 0 else interval - elapsed

/-! ## What it should return, and when it does -/

/-- The nanoseconds since `last`. -/
def elapsedNs (last : Timespec) (tv : Timeval) : Int := (getTime tv).ns - last.ns

/-- **The timer is due when `interval` ms have passed, and otherwise the wait is right to within a
    millisecond.** -/
structure TimerExact (last : Timespec) (interval : Int) (tv : Timeval) : Prop where
  due : needTimerIn last interval tv = 0 ↔ interval * 1000000 ≤ elapsedNs last tv
  wait : needTimerIn last interval tv ≠ 0 →
    0 < needTimerIn last interval tv ∧ needTimerIn last interval tv ≤ interval ∧
      interval * 1000000 - 1000000
        < elapsedNs last tv + needTimerIn last interval tv * 1000000 ∧
      elapsedNs last tv + needTimerIn last interval tv * 1000000
        < interval * 1000000 + 1000000

/-- The interval is not over, the nanoseconds have gone down, and either the seconds alone say that
    it is over, or less than a millisecond is missing. -/
def TicksEarly (last : Timespec) (interval : Int) (tv : Timeval) : Prop :=
  elapsedNs last tv < interval * 1000000 ∧ (getTime tv).nsec < last.nsec ∧
    (interval / 1000 < tv.sec - last.sec ∨ interval * 1000000 - 1000000 < elapsedNs last tv)

/-! ## The value -/

section Value

variable {last : Timespec} {interval : Int} {tv : Timeval}

theorem tdiv_of_neg {n : Int} (h : n < 0) (d : Int) : n.tdiv d = -((-n) / d) := by
  have hneg : n = -(-n) := (Int.neg_neg n).symm
  rw [hneg, Int.neg_tdiv, Int.tdiv_eq_ediv_of_nonneg (by omega), Int.neg_neg]

theorem needTimerIn_eq (hpos : 0 < interval) :
    needTimerIn last interval tv
      = if tv.sec - last.sec > interval / 1000 then 0
        else if (tv.sec - last.sec) * 1000
            + ((getTime tv).nsec - last.nsec).tdiv 1000000 ≥ interval then 0
          else interval - ((tv.sec - last.sec) * 1000
            + ((getTime tv).nsec - last.nsec).tdiv 1000000) := by
  rw [← Int.tdiv_eq_ediv_of_nonneg (Int.le_of_lt hpos)]
  rfl

theorem elapsedNs_eq (last : Timespec) (tv : Timeval) :
    elapsedNs last tv
      = (tv.sec - last.sec) * 1000000000 + ((getTime tv).nsec - last.nsec) := by
  show tv.sec * 1000000000 + (getTime tv).nsec - (last.sec * 1000000000 + last.nsec) = _
  omega

/-- The difference of the nanoseconds is not negative: whole milliseconds, rounded down. -/
theorem rounded_down (h : last.nsec ≤ (getTime tv).nsec) :
    ∃ ms, (tv.sec - last.sec) * 1000 + ((getTime tv).nsec - last.nsec).tdiv 1000000 = ms ∧
      ms * 1000000 ≤ elapsedNs last tv ∧ elapsedNs last tv < ms * 1000000 + 1000000 := by
  rw [Int.tdiv_eq_ediv_of_nonneg (by omega), elapsedNs_eq]
  exact ⟨_, rfl, by omega, by omega⟩

/-- It is negative: rounded up. -/
theorem rounded_up (h : (getTime tv).nsec < last.nsec) :
    ∃ ms, (tv.sec - last.sec) * 1000 + ((getTime tv).nsec - last.nsec).tdiv 1000000 = ms ∧
      ms * 1000000 - 1000000 < elapsedNs last tv ∧ elapsedNs last tv ≤ ms * 1000000 := by
  rw [tdiv_of_neg (by omega), elapsedNs_eq]
  exact ⟨_, rfl, by omega, by omega⟩

/-! ## When it is right -/

/-- The seconds alone say that the timer is due. -/
theorem exact_of_seconds (hpos : 0 < interval) (hsec : interval / 1000 < tv.sec - last.sec) :
    TimerExact last interval tv ↔ interval * 1000000 ≤ elapsedNs last tv := by
  have hvalue : needTimerIn last interval tv = 0 := by
    rw [needTimerIn_eq hpos]
    exact if_pos hsec
  constructor
  · intro h
    exact h.due.mp hvalue
  · intro hdue
    exact ⟨iff_of_true hvalue hdue, fun hne => absurd hvalue hne⟩

/-- The milliseconds decide. -/
theorem exact_of_ms (hpos : 0 < interval) (hle : 0 ≤ elapsedNs last tv) {ms : Int}
    (hsec : ¬ interval / 1000 < tv.sec - last.sec)
    (hms : (tv.sec - last.sec) * 1000 + ((getTime tv).nsec - last.nsec).tdiv 1000000 = ms)
    (hlow : ms * 1000000 - 1000000 < elapsedNs last tv)
    (hhigh : elapsedNs last tv < ms * 1000000 + 1000000) :
    TimerExact last interval tv ↔
      (interval ≤ ms ↔ interval * 1000000 ≤ elapsedNs last tv) := by
  have hvalue : needTimerIn last interval tv = if interval ≤ ms then 0 else interval - ms := by
    rw [needTimerIn_eq hpos, if_neg hsec, hms]
  have hzero : needTimerIn last interval tv = 0 ↔ interval ≤ ms := by
    rw [hvalue]
    split <;> omega
  constructor
  · intro h
    rw [← hzero]
    exact h.due
  · intro hiff
    refine ⟨hzero.trans hiff, fun hne => ?_⟩
    rw [hvalue, if_neg (fun hdue => hne (hzero.mpr hdue))]
    have hwait : ¬ interval ≤ ms := fun hdue => hne (hzero.mpr hdue)
    omega

/-- **The result is right unless the timer ticks early.** -/
theorem exact_iff (hpos : 0 < interval) (hle : last.ns ≤ (getTime tv).ns) :
    TimerExact last interval tv ↔ ¬ TicksEarly last interval tv := by
  have hlast := last.normal
  have hnow := (getTime tv).normal
  have helapsed := elapsedNs_eq last tv
  have hnonneg : 0 ≤ elapsedNs last tv := Int.sub_nonneg_of_le hle
  unfold TicksEarly
  by_cases hsec : interval / 1000 < tv.sec - last.sec
  · rw [exact_of_seconds hpos hsec]
    omega
  · by_cases hnsec : (getTime tv).nsec < last.nsec
    · obtain ⟨ms, hms, hlow, hhigh⟩ := rounded_up hnsec
      rw [exact_of_ms hpos hnonneg hsec hms hlow (by omega)]
      omega
    · obtain ⟨ms, hms, hlow, hhigh⟩ := rounded_down (Int.not_lt.mp hnsec)
      rw [exact_of_ms hpos hnonneg hsec hms (by omega) hhigh]
      omega

end Value

/-! ## `do_loop` -/

/-- What a check of `do_loop` reads from the clock: in `need_timer_in`, and after `ctcp_timer` if it
    was called. -/
structure Check where
  now : Timeval
  after : Timeval

/-- `last_timeout`, and when `ctcp_timer` was called, the last time first. -/
structure Ticker where
  lastTimeout : Timespec
  calls : List Int

/-- The check at the end of an iteration. -/
def checkTimeout (interval : Int) (t : Ticker) (c : Check) : Ticker :=
  if needTimerIn t.lastTimeout interval c.now = 0 then
    { lastTimeout := getTime c.after
      calls := (getTime c.now).ns :: t.calls }
  else t

/-- The clock does not go back. -/
def Forward (t : Ticker) (c : Check) : Prop :=
  t.lastTimeout.ns ≤ (getTime c.now).ns ∧ (getTime c.now).ns ≤ (getTime c.after).ns

/-- The calls are at least `interval` ms apart. -/
def CallsApart (interval : Int) (calls : List Int) : Prop :=
  calls.Pairwise fun later earlier => earlier + interval * 1000000 ≤ later

/-- What a run keeps: all calls are over when `last_timeout` is taken. -/
structure TickerInv (interval : Int) (t : Ticker) : Prop where
  spaced : CallsApart interval t.calls
  past : ∀ call ∈ t.calls, call ≤ t.lastTimeout.ns

theorem tickerInv_check {interval : Int} (hpos : 0 < interval) (t : Ticker) (c : Check)
    (h : TickerInv interval t)
    (hcheck : Forward t c ∧ ¬ TicksEarly t.lastTimeout interval c.now) :
    TickerInv interval (checkTimeout interval t c) := by
  obtain ⟨⟨hnow, hafter⟩, hearly⟩ := hcheck
  unfold checkTimeout
  split
  · -- `ctcp_timer` is called, and the interval is over
    rename_i hzero
    have hdue := ((exact_iff hpos hnow).mpr hearly).due.mp hzero
    have hover : t.lastTimeout.ns + interval * 1000000 ≤ (getTime c.now).ns := by
      unfold elapsedNs at hdue
      omega
    refine ⟨List.pairwise_cons.mpr ⟨fun call hcall => ?_, h.spaced⟩, fun call hcall => ?_⟩
    · have hpast := h.past call hcall
      show call + interval * 1000000 ≤ (getTime c.now).ns
      omega
    · show call ≤ (getTime c.after).ns
      rcases List.mem_cons.mp hcall with rfl | hcall
      · exact hafter
      · have hpast := h.past call hcall
        omega
  · exact h

/-- **When `need_timer_in` is right, and that the timer then ticks no faster than it should.** -/
theorem timerExact_iff {interval : Int} (hpos : 0 < interval) :
    (∀ (last : Timespec) (tv : Timeval), last.ns ≤ (getTime tv).ns →
      (TimerExact last interval tv ↔ ¬ TicksEarly last interval tv)) ∧
    ∀ (last : Timespec) (checks : List Check),
      Along (checkTimeout interval) Forward ⟨last, []⟩ checks →
      Along (checkTimeout interval) (fun t c => ¬ TicksEarly t.lastTimeout interval c.now)
        ⟨last, []⟩ checks →
      CallsApart interval (run (checkTimeout interval) ⟨last, []⟩ checks).calls := by
  refine ⟨fun last tv hle => exact_iff hpos hle, fun last checks hclock hearly => ?_⟩
  have hstart : TickerInv interval ⟨last, []⟩ :=
    ⟨List.Pairwise.nil, fun call hcall => absurd hcall List.not_mem_nil⟩
  exact ((hclock.and hearly).invariant (tickerInv_check hpos) hstart).spaced

/-- A tick shortly before a new second. -/
def lastTick : Timespec := ⟨0, 999000000, by decide⟩

/-- The new second. -/
def newSecond : Timeval := ⟨1, 0, by decide⟩

/-- Half a second later. -/
def halfSecond : Timeval := ⟨1, 499000, by decide⟩

/-- With 40 ms. -/
theorem timerExact_iff_half :
    TimerExact lastTick 40 halfSecond ↔ ¬ TicksEarly lastTick 40 halfSecond :=
  (timerExact_iff (by decide)).1 lastTick halfSecond (by decide)

/-- With 40 ms, the timer is due after one. -/
theorem ticks_at_new_second :
    lastTick.ns ≤ (getTime newSecond).ns ∧ elapsedNs lastTick newSecond = 1000000 ∧
      needTimerIn lastTick 40 newSecond = 0 ∧ ¬ TimerExact lastTick 40 newSecond := by
  refine ⟨by decide, by decide, by decide, ?_⟩
  intro hexact
  exact absurd (hexact.due.mp (by decide)) (by decide)

end Ctcp
