/-
  `conn_send` and its unreliable options.

  The library can lose, repeat, delay and corrupt what it sends.  It repeats and delays by forking:
  the copy of the process sends its segment (after a while) and exits.  `connSend` is the list of
  what becomes of the processes, the one that was called first: the packet it sends, if any, and
  the result it returns with, if it does not exit.

  * `faults_detected`: whatever the options and the random numbers, at most two packets leave per
    call, and the peer reads each of them as the segment or as one that `ctcp_receive` drops.
  * `returned_iff`: the caller returns, and a forked process returns too, into a second main loop,
    exactly when a duplicate draws a delay of its own (`Doubled`): the branch that "kills" the
    original process of a delay does not look at `am_i_forked`.
  * `tester_once`: in tester mode the option strikes in the first call and never again.
-/
import Ctcp.Checksum
import Ctcp.RecvFilter
import Ctcp.Lib.Runs

set_option linter.unusedVariables false

namespace Ctcp

/-- `flipbit` of a segment. -/
def CtcpSegment.flip (segment : CtcpSegment) (bit : Nat) : CtcpSegment :=
  CtcpSegment.ofBytes (flipbit segment.bytes bit)

end Ctcp

namespace Ctcp.Packet

open Runs

/-! ## The processes -/

/-- The options of the command line (`test_debug_on`, `opt_drop`, `opt_corrupt`, `opt_delay`,
    `opt_duplicate`). -/
structure Options where
  testDebugOn : Bool
  optDrop : Int
  optCorrupt : Int
  optDelay : Int
  optDuplicate : Int
  deriving DecidableEq, Repr

/-- All options off. -/
def Options.off : Options := ⟨false, 0, 0, 0, 0⟩

/-- A process inside `conn_send`: `fork_level`, `am_i_forked`, `tester_did_unreliable`, how many
    numbers it has drawn from `rand()`, and how long it has slept, if it is a delayed one. -/
structure Proc where
  forkLevel : Nat
  amIForked : Bool
  didUnreliable : Bool
  draws : Nat
  slept : Option Nat
  deriving DecidableEq, Repr

/-- The process that calls `conn_send`. -/
def Proc.caller (didUnreliable : Bool) (draws : Nat) : Proc :=
  ⟨0, false, didUnreliable, draws, none⟩

/-- What the system answers: the values of `rand()`, of which a forked process has its own copy,
    whether `fork` succeeds for a duplicate and in a process that delays, and what `sendto` returns
    in each process. -/
structure Sys where
  rand : Nat → Fin (2 ^ 31)
  forkDuplicate : Bool
  forkDelay : Proc → Bool
  sendto : Proc → Int

/-- What becomes of a process: its packet, if `sendto` has taken one, and the result with which it
    returns to the student code; `none` stands for `exit(0)`. -/
structure Fate where
  proc : Proc
  packet : Option Datagram
  result : Option Int
  deriving DecidableEq, Repr

/-! ## `conn_send` -/

/-- `SALT`. -/
def salt : Int := 0x14400

/-- `rand_percent`, when `rand()` returns `value`: an `int` addition, and C's remainder. -/
def randPercent (level value : Nat) : Int :=
  ((value + level * salt : Int).bmod (2 ^ 32)).tmod 100

/-- The test of an option: in tester mode the option itself, until it has struck once; otherwise a
    random percentage. -/
def strikes (opts : Options) (sys : Sys) (opt : Int) (proc : Proc) : Bool :=
  if opts.testDebugOn then !proc.didUnreliable && opt != 0
  else randPercent proc.forkLevel (sys.rand proc.draws) < opt

/-- The process after the test, which draws a number outside of tester mode. -/
def Proc.tested (opts : Options) (proc : Proc) : Proc :=
  if opts.testDebugOn then proc else { proc with draws := proc.draws + 1 }

/-- `tester_did_unreliable = true`. -/
def Proc.did (proc : Proc) : Proc := { proc with didUnreliable := true }

/-- The child of `fork()`. -/
def Proc.forked (proc : Proc) : Proc :=
  { proc with amIForked := true, forkLevel := proc.forkLevel + 1 }

/-- `rand_bit`, a `uint16_t`, when `rand()` returns `value`. -/
def randBit (len value : Nat) : Nat :=
  let dataLength := UInt16.ofNat len - UInt16.ofNat segmentHdrSize + 4
  (value % (dataLength.toNat * 8 - 1) + (segmentHdrSize - 4) * 8) % 2 ^ 16

/-- What `conn_send` reads of the host. -/
structure Settings where
  config : Config
  runProgram : Bool
  unixSocket : Bool
  opts : Options
  deriving DecidableEq, Repr

/-- The arguments of a call, and what the system answers during it. -/
structure Sending where
  conn : SeqConn
  segment : CtcpSegment
  len : Nat
  sys : Sys

section Send

variable (host : Settings) (call : Sending)

/-- The packet of a segment. -/
def datagram (segment : CtcpSegment) : Datagram :=
  convertToDatagram host.config host.runProgram host.unixSocket call.conn segment call.len

/-- The last part of `conn_send`: corruption, conversion and `send_pkt`.  The percentage and the
    bit are drawn in tester mode too. -/
def sendCopy (proc : Proc) : Fate :=
  let bit := randBit call.len (call.sys.rand (proc.draws + 1))
  let hit := strikes host.opts call.sys host.opts.optCorrupt proc
  let copy := if hit then call.segment.flip bit else call.segment
  let pkt := datagram host call copy
  let n := call.sys.sendto proc
  { proc :=
      { proc with draws := proc.draws + 2, didUnreliable := proc.didUnreliable || hit }
    packet := if n < 0 then none else some pkt
    result := if proc.amIForked then none else some (if n ≥ 20 then n - 20 else n) }

/-- The delay: a child sleeps and sends, the process itself returns. -/
def delayStage (proc : Proc) : List Fate :=
  let tested := proc.tested host.opts
  if strikes host.opts call.sys host.opts.optDelay proc then
    let original : Fate := ⟨tested.did, none, some call.len⟩
    if call.sys.forkDelay proc then
      let child := { tested.did.forked with
        draws := tested.draws + 1, slept := some ((call.sys.rand tested.draws).val % 5) }
      [original, sendCopy host call child]
    else [original]
  else [sendCopy host call tested]

/-- The duplicate: a child goes on with the same segment. -/
def duplicateStage (proc : Proc) : List Fate :=
  let tested := proc.tested host.opts
  let delay := delayStage host call
  if strikes host.opts call.sys host.opts.optDuplicate proc then
    if call.sys.forkDuplicate then delay tested.did ++ delay tested.did.forked else delay tested.did
  else delay tested

/-- `conn_send`, with parameters that are not `NULL`, on a live connection. -/
def connSend (proc : Proc) : List Fate :=
  let tested := proc.tested host.opts
  if strikes host.opts call.sys host.opts.optDrop proc then [⟨tested.did, none, some call.len⟩]
  else duplicateStage host call tested

/-- The packets that one call puts on the wire. -/
def wire (proc : Proc) : List Datagram :=
  (connSend host call proc).filterMap Fate.packet

/-! ## The stages -/

/-- A test draws a number, at most. -/
@[simp] theorem tested_amIForked (opts : Options) (proc : Proc) :
    (proc.tested opts).amIForked = proc.amIForked := by
  unfold Proc.tested
  split <;> rfl

@[simp] theorem tested_didUnreliable (opts : Options) (proc : Proc) :
    (proc.tested opts).didUnreliable = proc.didUnreliable := by
  unfold Proc.tested
  split <;> rfl

/-- The result of the process that sends: `exit(0)` for a forked one. -/
theorem sendCopy_result (proc : Proc) :
    (sendCopy host call proc).result.isSome = !proc.amIForked := by
  unfold sendCopy
  cases proc.amIForked <;> rfl

/-- **What a delay comes to**: the segment goes out now, or a child sends it later, or never. -/
theorem delayStage_cases (proc : Proc) :
    let tested := proc.tested host.opts
    let send := sendCopy host call
    let fates := delayStage host call proc
    (strikes host.opts call.sys host.opts.optDelay proc = false ∧ fates = [send tested]) ∨
      (strikes host.opts call.sys host.opts.optDelay proc = true ∧
        (fates = [⟨tested.did, none, some call.len⟩] ∨
          ∃ child, child.amIForked = true ∧
            fates = [⟨tested.did, none, some call.len⟩, send child])) := by
  intro tested send fates
  cases hdelay : strikes host.opts call.sys host.opts.optDelay proc with
  | false => exact Or.inl ⟨rfl, by simp [fates, delayStage, hdelay, send, tested]⟩
  | true =>
    refine Or.inr ⟨rfl, ?_⟩
    cases hfork : call.sys.forkDelay proc with
    | false => exact Or.inl (by simp [fates, delayStage, hdelay, hfork, tested])
    | true =>
      let child := { tested.did.forked with
        draws := tested.draws + 1, slept := some ((call.sys.rand tested.draws).val % 5) }
      refine Or.inr ⟨child, rfl, ?_⟩
      simp only [fates, delayStage, hdelay, hfork, if_true, send, tested, child]

/-- **What a duplicate comes to**: the caller goes on, and perhaps a child does the same. -/
theorem duplicateStage_cases (proc : Proc) :
    let tested := proc.tested host.opts
    let delay := delayStage host call
    let fates := duplicateStage host call proc
    (strikes host.opts call.sys host.opts.optDuplicate proc = false ∧ fates = delay tested) ∨
      (strikes host.opts call.sys host.opts.optDuplicate proc = true ∧
        ((call.sys.forkDuplicate = false ∧ fates = delay tested.did) ∨
          (call.sys.forkDuplicate = true ∧
            fates = delay tested.did ++ delay tested.did.forked))) := by
  intro tested delay fates
  cases hdup : strikes host.opts call.sys host.opts.optDuplicate proc with
  | false => exact Or.inl ⟨rfl, by simp [fates, duplicateStage, hdup, delay, tested]⟩
  | true =>
    refine Or.inr ⟨rfl, ?_⟩
    cases hfork : call.sys.forkDuplicate with
    | false =>
      exact Or.inl ⟨rfl, by simp [fates, duplicateStage, hdup, hfork, delay, tested]⟩
    | true => exact Or.inr ⟨rfl, by simp [fates, duplicateStage, hdup, hfork, delay, tested]⟩

/-- **What a call comes to**: nothing is sent, or what `duplicateStage` sends. -/
theorem connSend_cases (proc : Proc) :
    let tested := proc.tested host.opts
    let fates := connSend host call proc
    (strikes host.opts call.sys host.opts.optDrop proc = true ∧
        fates = [⟨tested.did, none, some call.len⟩]) ∨
      (strikes host.opts call.sys host.opts.optDrop proc = false ∧
        fates = duplicateStage host call tested) := by
  intro tested fates
  cases hdrop : strikes host.opts call.sys host.opts.optDrop proc with
  | true => exact Or.inl ⟨rfl, by simp [fates, connSend, hdrop, tested]⟩
  | false => exact Or.inr ⟨rfl, by simp [fates, connSend, hdrop, tested]⟩

/-! ## What goes on the wire -/

/-- The packet of the segment, or of a copy with one bit flipped, behind the flags and before the
    last bit. -/
inductive OnWire : Datagram → Prop
  | asSent : OnWire (datagram host call call.segment)
  | corrupted (bit : Nat) (hlow : 128 ≤ bit) (hhigh : bit < 8 * call.len - 1) :
      OnWire (datagram host call (call.segment.flip bit))

/-- The bit that is flipped lies behind the flags, and is not the last one. -/
theorem randBit_bounds {len : Nat} (hhdr : segmentHdrSize ≤ len)
    (hle : len ≤ maxSegDataSize + segmentHdrSize) (value : Nat) :
    128 ≤ randBit len value ∧ randBit len value < 8 * len - 1 := by
  have hsize : segmentHdrSize = 20 := rfl
  have hmax : maxSegDataSize = 1440 := rfl
  have hlength : (UInt16.ofNat len - UInt16.ofNat segmentHdrSize + 4).toNat = len - 16 := by
    rw [UInt16.toNat_add, UInt16.toNat_sub, UInt16.toNat_ofNat', UInt16.toNat_ofNat']
    have hfour : (4 : UInt16).toNat = 4 := rfl
    omega
  have hrem : value % ((len - 16) * 8 - 1) < (len - 16) * 8 - 1 := Nat.mod_lt _ (by omega)
  simp only [randBit, hlength]
  omega

variable {host call}

theorem onWire_of_sendCopy {proc : Proc} {packet : Datagram} (hhdr : segmentHdrSize ≤ call.len)
    (hle : call.len ≤ maxSegDataSize + segmentHdrSize)
    (hsent : (sendCopy host call proc).packet = some packet) : OnWire host call packet := by
  obtain ⟨hlow, hhigh⟩ := randBit_bounds hhdr hle (call.sys.rand (proc.draws + 1))
  simp only [sendCopy] at hsent
  split at hsent
  · cases hsent
  · cases hsent
    split
    · exact .corrupted _ hlow hhigh
    · exact .asSent

variable (host call) in
/-- Of the processes of a delay only the sender leaves a packet. -/
theorem wire_delayStage (proc : Proc) :
    (delayStage host call proc).filterMap Fate.packet = [] ∨
      ∃ sender, (delayStage host call proc).filterMap Fate.packet
        = (sendCopy host call sender).packet.toList := by
  rcases delayStage_cases host call proc with ⟨-, heq⟩ | ⟨-, heq | ⟨child, -, heq⟩⟩
  · refine Or.inr ⟨proc.tested host.opts, ?_⟩
    rw [heq, List.filterMap_cons]
    cases (sendCopy host call (proc.tested host.opts)).packet <;> rfl
  · exact Or.inl (by rw [heq]; rfl)
  · refine Or.inr ⟨child, ?_⟩
    rw [heq, List.filterMap_cons_none rfl, List.filterMap_cons]
    cases (sendCopy host call child).packet <;> rfl

variable (host call) in
/-- Of a call two processes at most. -/
theorem wire_connSend (proc : Proc) :
    ∃ senders : List Proc, senders.length ≤ 2 ∧
      wire host call proc
        = senders.flatMap fun sender => (sendCopy host call sender).packet.toList := by
  have hstage : ∀ p, ∃ senders : List Proc, senders.length ≤ 1 ∧
      (delayStage host call p).filterMap Fate.packet
        = senders.flatMap fun sender => (sendCopy host call sender).packet.toList := by
    intro p
    rcases wire_delayStage host call p with hnone | ⟨sender, hone⟩
    · exact ⟨[], Nat.zero_le _, hnone⟩
    · exact ⟨[sender], Nat.le_refl _, by rw [hone]; simp⟩
  rcases connSend_cases host call proc with ⟨-, heq⟩ | ⟨-, heq⟩
  · exact ⟨[], Nat.zero_le _, by rw [wire, heq]; rfl⟩
  rcases duplicateStage_cases host call (proc.tested host.opts) with
    ⟨-, hdup⟩ | ⟨-, ⟨-, hdup⟩ | ⟨-, hdup⟩⟩
  · obtain ⟨senders, hle, hwire⟩ := hstage ((proc.tested host.opts).tested host.opts)
    exact ⟨senders, by omega, by rw [wire, heq, hdup, hwire]⟩
  · obtain ⟨senders, hle, hwire⟩ := hstage ((proc.tested host.opts).tested host.opts).did
    exact ⟨senders, by omega, by rw [wire, heq, hdup, hwire]⟩
  · -- the caller and the duplicate
    obtain ⟨senders, hle, hwire⟩ := hstage ((proc.tested host.opts).tested host.opts).did
    obtain ⟨senders', hle', hwire'⟩ :=
      hstage ((proc.tested host.opts).tested host.opts).did.forked
    refine ⟨senders ++ senders', ?_, ?_⟩
    · rw [List.length_append]
      omega
    · rw [wire, heq, hdup, List.filterMap_append, hwire, hwire', List.flatMap_append]

theorem onWire_of_wire {proc : Proc} {packet : Datagram} (hhdr : segmentHdrSize ≤ call.len)
    (hle : call.len ≤ maxSegDataSize + segmentHdrSize) (hmem : packet ∈ wire host call proc) :
    OnWire host call packet := by
  obtain ⟨senders, -, hwire⟩ := wire_connSend host call proc
  rw [hwire, List.mem_flatMap] at hmem
  obtain ⟨sender, -, hsent⟩ := hmem
  exact onWire_of_sendCopy hhdr hle (Option.mem_toList.mp hsent)

theorem length_wire_le (proc : Proc) : (wire host call proc).length ≤ 2 := by
  obtain ⟨senders, hle, hwire⟩ := wire_connSend host call proc
  have hone : ∀ senders : List Proc,
      (senders.flatMap fun sender => (sendCopy host call sender).packet.toList).length
        ≤ senders.length := by
    intro senders
    induction senders with
    | nil => exact Nat.le_refl _
    | cons sender senders ih =>
      rw [List.flatMap_cons, List.length_append, List.length_cons]
      have htoList : (sendCopy host call sender).packet.toList.length ≤ 1 := by
        cases (sendCopy host call sender).packet <;> simp
      omega
  rw [hwire]
  exact Nat.le_trans (hone senders) hle

/-! ## Who returns -/

/-- A duplicate draws a delay: no drop, a duplicate that `fork` grants, and a percentage of its
    own, salted, below `opt_delay`. -/
def Doubled (opts : Options) (sys : Sys) (draws : Nat) : Prop :=
  opts.testDebugOn = false ∧ opts.optDrop ≤ randPercent 0 (sys.rand draws) ∧
    randPercent 0 (sys.rand (draws + 1)) < opts.optDuplicate ∧ sys.forkDuplicate = true ∧
    randPercent 1 (sys.rand (draws + 2)) < opts.optDelay

variable (host call) in
/-- The processes of a delay that return: the one that came to it, unless it is a fork that sends
    at once. -/
theorem returns_of_delay (proc : Proc) :
    ∃ first rest, delayStage host call proc = first :: rest ∧
      (first.result.isSome = true ↔
        proc.amIForked = false ∨ strikes host.opts call.sys host.opts.optDelay proc = true) ∧
      ∀ fate ∈ rest, fate.result = none := by
  rcases delayStage_cases host call proc with ⟨hno, heq⟩ | ⟨hyes, heq | ⟨child, hforked, heq⟩⟩
  · refine ⟨_, _, heq, ?_, by simp⟩
    rw [sendCopy_result, tested_amIForked, hno]
    simp
  · exact ⟨_, _, heq, by simp [hyes], by simp⟩
  · refine ⟨_, _, heq, by simp [hyes], ?_⟩
    intro fate hmem
    obtain rfl := List.mem_singleton.mp hmem
    have hresult := sendCopy_result host call child
    rw [hforked] at hresult
    exact Option.not_isSome_iff_eq_none.mp (by rw [hresult]; decide)

/-- The test of the delay in the duplicate, in tester mode and outside. -/
theorem strikes_delay_did (opts : Options) (sys : Sys) (opt : Int) (proc : Proc) :
    strikes opts sys opt proc.did.forked = true ↔
      opts.testDebugOn = false ∧ randPercent (proc.forkLevel + 1) (sys.rand proc.draws) < opt := by
  unfold strikes
  cases htest : opts.testDebugOn with
  | true => simp [Proc.did, Proc.forked]
  | false => exact ⟨fun h => ⟨rfl, of_decide_eq_true h⟩, fun h => decide_eq_true h.2⟩

/-- Outside of tester mode a test compares a percentage. -/
theorem strikes_random {opts : Options} (hrandom : opts.testDebugOn = false) (sys : Sys) (opt : Int)
    (proc : Proc) : strikes opts sys opt proc = true ↔
      randPercent proc.forkLevel (sys.rand proc.draws) < opt := by
  unfold strikes
  rw [hrandom]
  exact decide_eq_true_iff

theorem not_strikes_random {opts : Options} (hrandom : opts.testDebugOn = false) (sys : Sys)
    (opt : Int) (proc : Proc) : strikes opts sys opt proc = false ↔
      opt ≤ randPercent proc.forkLevel (sys.rand proc.draws) := by
  rw [← Bool.not_eq_true, strikes_random hrandom, Int.not_lt]

theorem tested_random {opts : Options} (hrandom : opts.testDebugOn = false) (proc : Proc) :
    proc.tested opts = { proc with draws := proc.draws + 1 } := by
  unfold Proc.tested
  rw [hrandom]
  rfl

/-- **The caller returns, and a forked process returns too exactly when the duplicate draws a
    delay.** -/
theorem returned_iff (host : Settings) (call : Sending) (didUnreliable : Bool) (draws : Nat) :
    ∃ first rest, connSend host call (.caller didUnreliable draws) = first :: rest ∧
      first.result.isSome = true ∧
      ((∃ fate ∈ rest, fate.result.isSome = true) ↔ Doubled host.opts call.sys draws) := by
  have hquiet : ∀ rest : List Fate, (∀ fate ∈ rest, fate.result = none) →
      ¬ ∃ fate ∈ rest, fate.result.isSome = true := by
    rintro rest hnone ⟨fate, hmem, hsome⟩
    rw [hnone fate hmem] at hsome
    cases hsome
  rcases connSend_cases host call (.caller didUnreliable draws) with ⟨hdrop, heq⟩ | ⟨hdrop, heq⟩
  · -- the segment is dropped
    refine ⟨_, _, heq, rfl, iff_of_false (hquiet [] (by simp)) ?_⟩
    rintro ⟨hrandom, hnodrop, -⟩
    have hlt := (strikes_random hrandom _ _ _).mp hdrop
    exact absurd hlt (Int.not_lt.mpr hnodrop)
  rw [heq]
  rcases duplicateStage_cases host call ((Proc.caller didUnreliable draws).tested host.opts) with
    ⟨hdup, heq⟩ | ⟨hdup, ⟨hfork, heq⟩ | ⟨hfork, heq⟩⟩
  · -- no duplicate
    rw [heq]
    obtain ⟨first, rest, hfates, hfirst, hrest⟩ := returns_of_delay host call
      (((Proc.caller didUnreliable draws).tested host.opts).tested host.opts)
    refine ⟨first, rest, hfates, hfirst.mpr (Or.inl ?_), iff_of_false (hquiet rest hrest) ?_⟩
    · simp [Proc.caller]
    · rintro ⟨hrandom, -, hpercent, -⟩
      rw [tested_random hrandom] at hdup
      have hge := (not_strikes_random hrandom _ _ _).mp hdup
      exact absurd hpercent (Int.not_lt.mpr hge)
  · -- a duplicate that `fork` refuses
    rw [heq]
    obtain ⟨first, rest, hfates, hfirst, hrest⟩ := returns_of_delay host call
      (((Proc.caller didUnreliable draws).tested host.opts).tested host.opts).did
    refine ⟨first, rest, hfates, hfirst.mpr (Or.inl ?_), iff_of_false (hquiet rest hrest) ?_⟩
    · simp [Proc.caller, Proc.did]
    · rintro ⟨-, -, -, hgranted, -⟩
      rw [hgranted] at hfork
      cases hfork
  · rw [heq]
    obtain ⟨first, rest, hfates, hfirst, hrest⟩ := returns_of_delay host call
      (((Proc.caller didUnreliable draws).tested host.opts).tested host.opts).did
    obtain ⟨first', rest', hfates', hfirst', hrest'⟩ :=
      returns_of_delay host call
        (((Proc.caller didUnreliable draws).tested host.opts).tested host.opts).did.forked
    rw [hfates, hfates']
    refine ⟨first, rest ++ first' :: rest', rfl, hfirst.mpr (Or.inl ?_), ?_⟩
    · simp [Proc.caller, Proc.did]
    -- of the other processes only the duplicate can return
    have honly : (∃ fate ∈ rest ++ first' :: rest', fate.result.isSome = true) ↔
        first'.result.isSome = true := by
      constructor
      · rintro ⟨fate, hmem, hsome⟩
        rcases List.mem_append.mp hmem with hmem | hmem
        · exact absurd ⟨fate, hmem, hsome⟩ (hquiet rest hrest)
        rcases List.mem_cons.mp hmem with rfl | hmem
        · exact hsome
        · exact absurd ⟨fate, hmem, hsome⟩ (hquiet rest' hrest')
      · intro hsome
        exact ⟨first', List.mem_append_right _ List.mem_cons_self, hsome⟩
    rw [honly, hfirst', strikes_delay_did]
    constructor
    · rintro (hcaller | ⟨hrandom, hdelay⟩)
      · exact absurd hcaller (by simp [Proc.forked])
      · simp only [tested_random hrandom] at hdup hdelay
        have hpass := (not_strikes_random hrandom _ _ _).mp hdrop
        have hcopied := (strikes_random hrandom _ _ _).mp hdup
        exact ⟨hrandom, hpass, hcopied, hfork, hdelay⟩
    · rintro ⟨hrandom, -, -, -, hdelay⟩
      refine Or.inr ⟨hrandom, ?_⟩
      simp only [tested_random hrandom]
      exact hdelay

/-! ## Reliable calls -/

/-- What a process keeps from one call to the next: `tester_did_unreliable`, and how many numbers it
    has drawn. -/
structure Memory where
  didUnreliable : Bool
  draws : Nat
  deriving DecidableEq, Repr

/-- One call, for the process that makes it. -/
def sendStep (host : Settings) (s : Memory) (call : Sending) : Memory :=
  match connSend host call (.caller s.didUnreliable s.draws) with
  | fate :: _ => ⟨fate.proc.didUnreliable, fate.proc.draws⟩
  | [] => s

/-- The call sends the segment, once and as it is, in the process that makes it. -/
def Reliable (host : Settings) (s : Memory) (call : Sending) : Prop :=
  ∃ draws n, connSend host call (.caller s.didUnreliable s.draws) =
    [{ proc := .caller s.didUnreliable draws
       packet := if n < 0 then none else some (datagram host call call.segment)
       result := some (if n ≥ 20 then n - 20 else n) }]

/-- No option is set. -/
def Options.AllOff (opts : Options) : Prop :=
  opts.optDrop = 0 ∧ opts.optDuplicate = 0 ∧ opts.optDelay = 0 ∧ opts.optCorrupt = 0

/-- In the calling process a percentage is not negative. -/
theorem randPercent_nonneg (value : Fin (2 ^ 31)) : 0 ≤ randPercent 0 value := by
  have hlt := value.isLt
  have hsame : ((value : Nat) + (0 : Nat) * salt : Int).bmod (2 ^ 32) = (value : Nat) := by
    rw [Int.natCast_zero, Int.zero_mul, Int.add_zero]
    apply Int.bmod_eq_of_le <;> omega
  rw [randPercent, hsame]
  exact Int.tmod_nonneg 100 (Int.natCast_nonneg _)

/-- A call in which no option strikes. -/
theorem reliable_of_quiet {s : Memory}
    (hquiet : ∀ opt ∈ [host.opts.optDrop, host.opts.optDuplicate, host.opts.optDelay,
      host.opts.optCorrupt],
      ∀ draws, strikes host.opts call.sys opt (.caller s.didUnreliable draws) = false) :
    Reliable host s call ∧ (sendStep host s call).didUnreliable = s.didUnreliable := by
  have htested : ∀ draws, ∃ draws', (Proc.caller s.didUnreliable draws).tested host.opts
      = .caller s.didUnreliable draws' := by
    intro draws
    unfold Proc.tested
    split
    · exact ⟨draws, rfl⟩
    · exact ⟨draws + 1, rfl⟩
  obtain ⟨draws₁, h₁⟩ := htested s.draws
  obtain ⟨draws₂, h₂⟩ := htested draws₁
  obtain ⟨draws₃, h₃⟩ := htested draws₂
  -- none of the tests strikes, and the process comes to the end of the function
  have hdrop := hquiet host.opts.optDrop (by simp) s.draws
  have hdup := hquiet host.opts.optDuplicate (by simp) draws₁
  have hdelay := hquiet host.opts.optDelay (by simp) draws₂
  have hcorrupt := hquiet host.opts.optCorrupt (by simp) draws₃
  have hend : connSend host call (.caller s.didUnreliable s.draws)
      = [sendCopy host call (.caller s.didUnreliable draws₃)] := by
    simp only [connSend, duplicateStage, delayStage, hdrop, h₁, hdup, h₂, hdelay, h₃]
    rfl
  have hcopy : sendCopy host call (.caller s.didUnreliable draws₃) =
      { proc := .caller s.didUnreliable (draws₃ + 2)
        packet := if call.sys.sendto (.caller s.didUnreliable draws₃) < 0 then none
          else some (datagram host call call.segment)
        result := some (if call.sys.sendto (.caller s.didUnreliable draws₃) ≥ 20
          then call.sys.sendto (.caller s.didUnreliable draws₃) - 20
          else call.sys.sendto (.caller s.didUnreliable draws₃)) } := by
    simp only [sendCopy, hcorrupt, Bool.or_false, Bool.false_eq_true, if_false]
    rfl
  refine ⟨⟨draws₃ + 2, call.sys.sendto (.caller s.didUnreliable draws₃), ?_⟩, ?_⟩
  · rw [hend, hcopy]
  · rw [sendStep, hend, hcopy]
    rfl

/-- **Without options a call is reliable**, in tester mode or not. -/
theorem reliable_of_off (hoff : host.opts.AllOff) (s : Memory) :
    Reliable host s call ∧ (sendStep host s call).didUnreliable = s.didUnreliable := by
  obtain ⟨hdrop, hdup, hdelay, hcorrupt⟩ := hoff
  refine reliable_of_quiet ?_
  intro opt hopt draws
  have hzero : opt = 0 := by simpa [hdrop, hdup, hdelay, hcorrupt] using hopt
  cases htest : host.opts.testDebugOn with
  | true => simp [strikes, htest, hzero]
  | false =>
    rw [not_strikes_random htest, hzero]
    exact randPercent_nonneg _

variable (call) in
/-- In tester mode, once the option has struck. -/
theorem reliable_of_did (htester : host.opts.testDebugOn = true) {s : Memory}
    (hdid : s.didUnreliable = true) :
    Reliable host s call ∧ (sendStep host s call).didUnreliable = s.didUnreliable := by
  refine reliable_of_quiet ?_
  intro opt _ draws
  simp [strikes, htester, Proc.caller, hdid]

/-- In tester mode an option strikes in a process that has not been unreliable. -/
theorem strikes_tester {opts : Options} (htester : opts.testDebugOn = true) (sys : Sys) (opt : Int)
    (proc : Proc) : strikes opts sys opt proc = true ↔ proc.didUnreliable = false ∧ opt ≠ 0 := by
  simp [strikes, htester]

variable (host call) in
/-- The first process of a delay has been unreliable, if there was cause. -/
theorem did_of_delay (htester : host.opts.testDebugOn = true) {proc : Proc}
    (hcause : proc.didUnreliable = true ∨ host.opts.optDelay ≠ 0 ∨ host.opts.optCorrupt ≠ 0) :
    ∃ first rest, delayStage host call proc = first :: rest ∧ first.proc.didUnreliable = true := by
  rcases delayStage_cases host call proc with ⟨hno, heq⟩ | ⟨-, heq | ⟨child, -, heq⟩⟩
  · refine ⟨_, _, heq, ?_⟩
    have hstrikes := strikes_tester htester call.sys host.opts.optCorrupt (proc.tested host.opts)
    have hdelay := strikes_tester htester call.sys host.opts.optDelay proc
    rw [hno] at hdelay
    simp only [tested_didUnreliable] at hstrikes
    cases hdid : proc.didUnreliable with
    | true => simp [sendCopy, hdid]
    | false =>
      -- the delay has not struck, so it is off
      have hcorrupt : host.opts.optCorrupt ≠ 0 := by
        rcases hcause with hold | hon | hon
        · rw [hdid] at hold
          cases hold
        · exact absurd (hdelay.mpr ⟨hdid, hon⟩) (by decide)
        · exact hon
      simp [sendCopy, hstrikes.mpr ⟨hdid, hcorrupt⟩]
  · exact ⟨_, _, heq, rfl⟩
  · exact ⟨_, _, heq, rfl⟩

/-- The first call in tester mode uses the option up. -/
theorem did_of_tester (htester : host.opts.testDebugOn = true) (hon : ¬ host.opts.AllOff)
    (s : Memory) : (sendStep host s call).didUnreliable = true := by
  have hgoal : ∀ {first : Fate} {rest : List Fate},
      connSend host call (.caller s.didUnreliable s.draws) = first :: rest →
        first.proc.didUnreliable = true → (sendStep host s call).didUnreliable = true := by
    intro first rest heq hdid
    rw [sendStep, heq]
    exact hdid
  have htested : ∀ proc : Proc, proc.tested host.opts = proc := by
    intro proc
    rw [Proc.tested, htester]
    rfl
  cases hold : s.didUnreliable with
  | true =>
    rw [(reliable_of_did call htester hold).2]
    exact hold
  | false =>
    rcases connSend_cases host call (.caller s.didUnreliable s.draws) with
      ⟨-, heq⟩ | ⟨hdrop, heq⟩
    · exact hgoal heq rfl
    rw [htested] at heq
    have hdropOff := strikes_tester htester call.sys host.opts.optDrop
      (.caller s.didUnreliable s.draws)
    have hmarked : ((Proc.caller s.didUnreliable s.draws).tested host.opts).did.didUnreliable
        = true := rfl
    rcases duplicateStage_cases host call (.caller s.didUnreliable s.draws) with
      ⟨hdup, hstage⟩ | ⟨-, ⟨-, hstage⟩ | ⟨-, hstage⟩⟩
    · have hdupOff := strikes_tester htester call.sys host.opts.optDuplicate
        (.caller s.didUnreliable s.draws)
      rw [hdrop] at hdropOff
      rw [hdup] at hdupOff
      have hcause : host.opts.optDelay ≠ 0 ∨ host.opts.optCorrupt ≠ 0 := by
        by_cases hdelay : host.opts.optDelay = 0
        · refine Or.inr fun hcorrupt => hon ⟨?_, ?_, hdelay, hcorrupt⟩
          · simpa [Proc.caller, hold] using hdropOff
          · simpa [Proc.caller, hold] using hdupOff
        · exact Or.inl hdelay
      obtain ⟨first, rest, hfates, hdid⟩ := did_of_delay host call htester (Or.inr hcause)
      exact hgoal (heq.trans (hstage.trans hfates)) hdid
    · obtain ⟨first, rest, hfates, hdid⟩ := did_of_delay host call htester (Or.inl hmarked)
      exact hgoal (heq.trans (hstage.trans hfates)) hdid
    · obtain ⟨first, rest, hfates, hdid⟩ := did_of_delay host call htester (Or.inl hmarked)
      exact hgoal (heq.trans (hstage.trans (congrArg (· ++ _) hfates))) hdid

/-- **In tester mode a host is unreliable once**: whatever the options and the first call, all
    calls after it send their segments as they are. -/
theorem tester_once (host : Settings) (htester : host.opts.testDebugOn = true) (s : Memory)
    (first : Sending) (calls : List Sending) :
    Along (sendStep host) (Reliable host) (sendStep host s first) calls := by
  by_cases hoff : host.opts.AllOff
  · -- nothing ever strikes
    have hall : ∀ (s : Memory) (calls : List Sending),
        Along (sendStep host) (Reliable host) s calls := by
      intro s calls
      induction calls generalizing s with
      | nil => trivial
      | cons call calls ih => exact ⟨(reliable_of_off hoff s).1, ih _⟩
    exact hall _ calls
  · have hall : ∀ (s : Memory) (calls : List Sending), s.didUnreliable = true →
        Along (sendStep host) (Reliable host) s calls := by
      intro s calls hdid
      induction calls generalizing s with
      | nil => trivial
      | cons call calls ih =>
        obtain ⟨hreliable, hkeeps⟩ := reliable_of_did call htester hdid
        exact ⟨hreliable, ih _ (hkeeps.trans hdid)⟩
    exact hall _ calls (did_of_tester htester hoff s)

end Send

/-- A call that sends two bytes to a peer whose initial number is 5 too. -/
def twoBytes : Sending where
  conn := atFive 9999
  segment := dataSegment 1 1 [104, 105]
  len := 22
  sys := ⟨fun n => Fin.ofNat _ n, true, fun _ => true, fun _ => 42⟩

/-- A tester that drops the two bytes once, and sends them afterwards. -/
theorem tester_once_two_bytes :
    let host : Settings := ⟨⟨0, 8888, 1440, 1440⟩, false, true, ⟨true, 1, 0, 0, 0⟩⟩
    wire host twoBytes (.caller false 0) = [] ∧
      Along (sendStep host) (Reliable host) (sendStep host ⟨false, 0⟩ twoBytes)
        [twoBytes, twoBytes] :=
  ⟨by decide, tester_once _ rfl ⟨false, 0⟩ twoBytes [twoBytes, twoBytes]⟩

/-! ## What the peer makes of it -/

section Flip

variable {segment : CtcpSegment} {bit len : Nat}

theorem u32At_set {bytes : List UInt8} {i k : Nat} {b : UInt8} (h : k + 4 ≤ i) :
    u32At (bytes.set i b) k = u32At bytes k := by
  have h0 : i ≠ k := by omega
  have h1 : i ≠ k + 1 := by omega
  have h2 : i ≠ k + 2 := by omega
  have h3 : i ≠ k + 3 := by omega
  simp only [u32At, List.getD_eq_getElem?_getD, List.getElem?_set_ne h0, List.getElem?_set_ne h1,
    List.getElem?_set_ne h2, List.getElem?_set_ne h3]

/-- A flip behind the flags keeps the numbers, the length and the flags. -/
theorem flip_header (segment : CtcpSegment) (hlow : 128 ≤ bit) :
    (segment.flip bit).seqno = segment.seqno ∧ (segment.flip bit).ackno = segment.ackno ∧
      (segment.flip bit).len = segment.len ∧ (segment.flip bit).pad = segment.pad ∧
      (segment.flip bit).flags = segment.flags := by
  have hbyte : 16 ≤ bit / 8 := by omega
  have hsame := ofBytes_bytes segment
  refine ⟨?_, ?_, ?_, ?_, ?_⟩
  · exact (u32At_set (by omega)).trans (congrArg CtcpSegment.seqno hsame)
  · exact (u32At_set (by omega)).trans (congrArg CtcpSegment.ackno hsame)
  · exact (u16At_set (by omega) (by omega)).trans (congrArg CtcpSegment.len hsame)
  · exact (u16At_set (by omega) (by omega)).trans (congrArg CtcpSegment.pad hsame)
  · exact (u32At_set (by omega)).trans (congrArg CtcpSegment.flags hsame)

theorem length_flip (segment : CtcpSegment) (bit : Nat) :
    (segment.flip bit).data.length = segment.data.length := by
  show ((flipbit segment.bytes bit).drop 20).length = _
  have hhdr : segmentHdrSize = 20 := rfl
  rw [List.length_drop, length_flipbit, length_bytes]
  omega

/-- A corrupted copy has the form of the segment. -/
theorem Whole.flip (h : Whole segment len) (hlow : 128 ≤ bit) : Whole (segment.flip bit) len := by
  obtain ⟨-, -, hlen, hpad, hflags⟩ := flip_header segment hlow
  exact ⟨hlen.trans h.len_eq, hpad.trans h.pad, hflags ▸ h.flags,
    (congrArg (· + segmentHdrSize) (length_flip segment bit)).trans h.data, h.le⟩

/-- The peer does not accept it. -/
theorem flip_not_valid (h : Whole segment len) (hvalid : Valid segment len) (hlow : 128 ≤ bit)
    (hhigh : bit < 8 * len - 1) : ¬ Valid (segment.flip bit) len := by
  have hmax : maxSegDataSize = 1440 := rfl
  have hhdr : segmentHdrSize = 20 := rfl
  have hle := h.le
  have hdata := h.data
  have hbytes : segment.bytes.length = len := (length_bytes segment).trans h.data
  have hsame := ofBytes_bytes segment
  have hfield : ntohs (u16At segment.bytes 8) = UInt16.ofNat segment.bytes.length := by
    rw [show u16At segment.bytes 8 = segment.len from congrArg CtcpSegment.len hsame, h.len_eq,
      hbytes]
    exact htons_htons _
  have hvalid' : Valid (CtcpSegment.ofBytes segment.bytes) segment.bytes.length := by
    rw [hsame, hbytes]
    exact hvalid
  have hinvalid : ¬ Valid (segment.flip bit) (flipbit segment.bytes bit).length :=
    flip_invalid (by omega) (by omega) hfield hvalid' (by omega) (by omega) (by omega)
  rw [length_flipbit, hbytes] at hinvalid
  exact hinvalid

end Flip

/-- The length that `do_loop` passes to `ctcp_receive`. -/
theorem recvLen_datagram (host : Settings) (call : Sending) {segment : CtcpSegment}
    (hunix : host.unixSocket = true) (h : Whole segment call.len) :
    (datagram host call segment).recvLen - fullHdrSize.toNat + segmentHdrSize = call.len := by
  have hmax : maxSegDataSize = 1440 := rfl
  have hhdr : segmentHdrSize = 20 := rfl
  have hfull : fullHdrSize.toNat = 40 := rfl
  have hpkt : maxPacketSize = 1480 := rfl
  have hle := h.le
  have hdata := h.data
  obtain ⟨-, hpayload, -⟩ := convertToDatagram_spec host.config host.runProgram call.conn h
  rw [datagram, hunix, Datagram.recvLen, hpayload]
  omega

/-- How the peer reads a packet: as the segment, or as one that is not valid. -/
theorem read_onWire {host : Settings} {call : Sending} {packet : Datagram} {src : SeqConn}
    (hunix : host.unixSocket = true) (hmirror : Mirror call.conn src)
    (hwhole : Whole call.segment call.len) (hvalid : Valid call.segment call.len)
    (hwire : OnWire host call packet) :
    packet.recvLen - fullHdrSize.toNat + segmentHdrSize = call.len ∧
      (convertToCtcp src packet = call.segment ∨
        ¬ Valid (convertToCtcp src packet) call.len) := by
  cases hwire with
  | asSent =>
    refine ⟨recvLen_datagram host call hunix hwhole, Or.inl ?_⟩
    rw [datagram, hunix]
    exact convertToCtcp_convertToDatagram host.config host.runProgram hmirror hwhole
  | corrupted bit hlow hhigh =>
    have hwhole' := hwhole.flip hlow
    refine ⟨recvLen_datagram host call hunix hwhole', Or.inr ?_⟩
    rw [datagram, hunix,
      convertToCtcp_convertToDatagram host.config host.runProgram hmirror hwhole']
    exact flip_not_valid hwhole hvalid hlow hhigh

/-- **Whatever goes wrong on the way out is detected.**  Whatever the options, the random numbers
    and the forks, at most two packets leave; the peer reads each of them as the segment, with its
    length, or as one that `ctcp_receive` drops, whatever the state of the peer. -/
theorem faults_detected (host : Settings) (call : Sending) (proc : Proc) (src : SeqConn)
    (hunix : host.unixSocket = true) (hmirror : Mirror call.conn src)
    (hwhole : Whole call.segment call.len) (hvalid : Valid call.segment call.len) :
    (wire host call proc).length ≤ 2 ∧
      ∀ packet ∈ wire host call proc,
        packet.recvLen - fullHdrSize.toNat + segmentHdrSize = call.len ∧
        (convertToCtcp src packet = call.segment ∨
          ∀ (receiver : CtcpState) (env : Env),
            step receiver (.receive (convertToCtcp src packet) call.len env) = receiver) := by
  have hhdr : segmentHdrSize ≤ call.len := by
    have hdata := hwhole.data
    omega
  refine ⟨length_wire_le proc, ?_⟩
  intro packet hmem
  obtain ⟨hlen, hread⟩ :=
    read_onWire hunix hmirror hwhole hvalid (onWire_of_wire hhdr hwhole.le hmem)
  exact ⟨hlen, hread.imp_right fun hinvalid receiver env => step_invalid hinvalid receiver env⟩

/-- A host that corrupts everything. -/
def corrupting : Settings := ⟨⟨0, 8888, 1440, 1440⟩, false, true, ⟨false, 0, 100, 0, 0⟩⟩

theorem whole_twoBytes : Whole twoBytes.segment twoBytes.len :=
  ⟨rfl, rfl, by decide, rfl, by decide⟩

/-- The two bytes, corrupted on the way out. -/
theorem faults_detected_two_bytes :
    (wire corrupting twoBytes (.caller false 0)).length ≤ 2 ∧
      ∀ packet ∈ wire corrupting twoBytes (.caller false 0),
        packet.recvLen - fullHdrSize.toNat + segmentHdrSize = twoBytes.len ∧
        (convertToCtcp (atFive 8888) packet = twoBytes.segment ∨
          ∀ (receiver : CtcpState) (env : Env),
            step receiver (.receive (convertToCtcp (atFive 8888) packet) twoBytes.len env)
              = receiver) :=
  faults_detected corrupting twoBytes (.caller false 0) (atFive 8888) rfl ⟨rfl, rfl⟩ whole_twoBytes
    (by decide)

end Ctcp.Packet
