/-
  The main loop, seen from one connection.

  `do_loop` serves all connections of a process, and what each callback does is what `step` does
  with one of them.  `loop_projects` says that this is all: the state that the loop holds for a
  connection, and what the connection has done, are those of a run of `step` from `ctcp_init`, on
  the callbacks that have been entered with it; and a state is gone from `state_list` exactly when
  this run has destroyed it.  So whatever holds in every run of one connection holds in the loop of
  a server with many, whatever the others do.

  A callback that is entered with a destroyed state does nothing in `step`, and nothing that the
  model knows in the loop (`Ctcp.MainLoop`), so no assumption about such calls is needed.
-/
import Ctcp.Lib.Members
import Ctcp.ClientLoop
import Ctcp.Stream

set_option linter.unusedVariables false

namespace Ctcp.MainLoop

open Runs Keyed Members BackLinked Packet

/-! ## The record, for one connection -/

/-- The callbacks that have been entered, with the states they are entered with. -/
def entered (log : List Happening) : List (Nat × Call) :=
  log.filterMap fun
    | .enter state call => some (state, call)
    | _ => none

/-- What the connection with this state has done. -/
def eventsOf (state : Nat) (log : List Happening) : List Event :=
  log.filterMap fun
    | .does state' e => if state' = state then some e else none
    | _ => none

/-- `ctcp_init`, and then the callbacks for this state alone. -/
def ownRun (setup : Setup) (log : List Happening) (state : Nat) : CtcpState :=
  own step (ctcpInit setup.intervals) state (entered log)

/-- The connection is being removed. -/
def removed (state : CtcpState) : Bool := state.conn.deleteMe

/-- A name that a connection has got: a server counts its clients, and a client has one
    connection. -/
def Host.Knows (s : Host) (role : Role) (state : Nat) : Prop :=
  state < s.numConnected ∨ role = .client ∧ state = 0

/-- How a process starts. -/
inductive Started (setup : Setup) : Host → Prop
  | server (hrole : setup.role = .server) : Started setup .init
  | client (sconn : SeqConn) (hrole : setup.role = .client) :
      Started setup (.client sconn setup.intervals)

section Log

variable (h h' : List Happening) (state : Nat) (es : List Event)

theorem entered_append : entered (h ++ h') = entered h ++ entered h' := by simp [entered]

theorem eventsOf_append : eventsOf state (h ++ h') = eventsOf state h ++ eventsOf state h' := by
  simp [eventsOf]

theorem entered_does : entered (es.map (Happening.does state)) = [] := by simp [entered]

theorem eventsOf_does : eventsOf state (es.map (Happening.does state)) = es := by
  simp [eventsOf, Function.comp_def]

theorem eventsOf_does_other {other : Nat} (hne : other ≠ state) :
    eventsOf other (es.map (Happening.does state)) = [] := by
  simp [eventsOf, hne.symm]

end Log

/-! ## A callback -/

section Call

variable (s : Host) (role : Role) (state : Nat) (call : Call)

/-- The states after a callback. -/
theorem states_call : (s.call role state call).states
    = callMember step removed s.states state call := by
  unfold callMember
  rcases call_cases s role state call with
    ⟨hnone, hcall⟩ | ⟨old, hold, ⟨hdead, hcall⟩ | ⟨hkept, hcall⟩⟩
  · rw [hcall, hnone]
    rfl
  · rw [hcall, hold]
    exact (if_pos hdead).symm
  · rw [hcall, hold]
    exact (if_neg (Bool.eq_false_iff.mp hkept)).symm

/-- The record after a callback. -/
theorem entered_call : entered (s.call role state call).log
    = entered s.log ++ [(state, call)] := by
  have hrest : entered (s.happenings state call) = [(state, call)] := by
    unfold Host.happenings
    cases s.states.lookup state with
    | none => rfl
    | some old =>
      show (state, call) :: entered ((events old call).map (Happening.does state)) = _
      rw [entered_does]
  rw [log_call, entered_append, hrest]

theorem eventsOf_call : eventsOf state (s.call role state call).log
    = eventsOf state s.log
      ++ ((s.states.lookup state).map fun old => events old call).getD [] := by
  have hrest : eventsOf state (s.happenings state call)
      = ((s.states.lookup state).map fun old => events old call).getD [] := by
    unfold Host.happenings
    cases s.states.lookup state with
    | none => rfl
    | some old => exact eventsOf_does state (events old call)
  rw [log_call, eventsOf_append, hrest]

theorem eventsOf_call_other {other : Nat} (hne : other ≠ state) :
    eventsOf other (s.call role state call).log = eventsOf other s.log := by
  have hrest : eventsOf other (s.happenings state call) = [] := by
    unfold Host.happenings
    cases s.states.lookup state with
    | none => rfl
    | some old => exact eventsOf_does_other state (events old call) hne
  rw [log_call, eventsOf_append, hrest, List.append_nil]

end Call

/-! ## The invariant -/

/-- **Every connection is where its own run is**, and the names of the connections are known. -/
structure Projected (setup : Setup) (s : Host) : Prop where
  held : Held step removed (ctcpInit setup.intervals) (s.Knows setup.role) (entered s.log) s.states
  traces : ∀ state, eventsOf state s.log = (ownRun setup s.log state).trace
  names : ∀ state ∈ s.names, s.Knows setup.role state

section Invariant

variable {setup : Setup} {s t : Host}

/-- Other fields do not matter. -/
theorem Projected.congr (h : Projected setup s) (hstates : t.states = s.states)
    (hlog : t.log = s.log) (hcount : t.numConnected = s.numConnected)
    (hnames : ∀ state ∈ t.names, state ∈ s.names) : Projected setup t := by
  have hknows : ∀ state, t.Knows setup.role state ↔ s.Knows setup.role state := by
    intro state
    rw [Host.Knows, Host.Knows, hcount]
  refine ⟨?_, fun state => ?_, fun state hstate => ?_⟩
  · rw [hstates, hlog, show t.Knows setup.role = s.Knows setup.role from funext fun state =>
      propext (hknows state)]
    exact h.held
  · rw [hlog]
    exact h.traces state
  · exact (hknows state).mpr (h.names state (hnames state hstate))

theorem projected_started (hstart : Started setup s) : Projected setup s := by
  cases hstart with
  | server hrole =>
    have hnone : ∀ state, ¬ Host.init.Knows setup.role state := by
      rintro state (hlt | ⟨hclient, -⟩)
      · exact Nat.not_lt_zero state hlt
      · cases hrole.symm.trans hclient
    exact ⟨⟨fun state hknows => absurd hknows (hnone state), fun _ _ => ⟨rfl, rfl⟩⟩,
      fun _ => rfl, fun state hstate => by cases hstate⟩
  | client sconn hrole =>
    have hknows : ∀ state, (Host.client sconn setup.intervals).Knows setup.role state ↔
        False ∨ state = 0 := by
      intro state
      refine or_congr (iff_false_intro (Nat.not_lt_zero state)) ?_
      exact and_iff_right hrole
    refine ⟨?_, fun _ => rfl, fun state hstate => ?_⟩
    · exact @Held.add _ _ _ _ step removed (ctcpInit setup.intervals) (fun _ => False) [] []
        held_nil rfl _ 0 id hknows
    · exact (hknows state).mpr (Or.inr (List.mem_singleton.mp hstate))

theorem Projected.call (h : Projected setup s) {state : Nat} (hknows : s.Knows setup.role state)
    (call : Call) : Projected setup (s.call setup.role state call) := by
  have hsame := sameTable_call s setup.role state call
  have hnames : (s.call setup.role state call).names = s.names := by
    rw [names_eq, names_eq, hsame.established]
  have hknown : (s.call setup.role state call).Knows setup.role = s.Knows setup.role := by
    funext name
    rw [Host.Knows, Host.Knows, hsame.numConnected]
  have hdead : ∀ (old : CtcpState) (call : Call), removed old = true → step old call = old :=
    fun old call hdead => if_pos hdead
  refine ⟨?_, fun name => ?_, fun name hname => ?_⟩
  · rw [states_call, entered_call, hknown]
    exact h.held.call hdead hknows call
  · unfold ownRun
    rw [entered_call, own]
    by_cases heq : name = state
    · subst heq
      rw [eventsOf_call, callsOf_same, run_append, h.traces]
      show _ = (step (ownRun setup s.log name) call).trace
      rw [h.held.member name hknows]
      show _ ++ ((listed removed (ownRun setup s.log name)).map fun old => events old call).getD []
        = _
      cases hlive : removed (ownRun setup s.log name) with
      | true =>
        rw [hdead _ call hlive]
        simp [listed, hlive]
      | false =>
        rw [step_trace]
        simp [listed, hlive]
    · rw [eventsOf_call_other _ _ _ _ heq, callsOf_other heq]
      exact h.traces name
  · rw [hknown]
    rw [hnames] at hname
    exact h.names name hname

end Invariant

/-! ## The parts of an iteration -/

section Parts

variable {setup : Setup} {s : Host}

theorem Projected.andThen (h : Projected setup s) {f : Host → Host}
    (hf : Projected setup (f s)) : Projected setup (s.andThen f) := by
  unfold Host.andThen
  split
  · exact hf
  · exact h

theorem Projected.readStdin (h : Projected setup s) (it : Iteration) :
    Projected setup (readStdin setup it s) := by
  unfold MainLoop.readStdin
  split
  · rename_i input sent conn rest hstdin hconns
    split
    · refine h.call (h.names conn.state ?_) _
      rw [Host.names, hconns]
      exact List.mem_cons_self
    · exact h
  · exact h

/-- A loop over the connections, with a body for the connections that are known. -/
theorem Projected.loop (h : Projected setup s) {f : Host → Nat → Host}
    (hf : ∀ t state, Projected setup t → t.Knows setup.role state →
      Projected setup (f t state) ∧ (f t state).numConnected = t.numConnected) :
    Projected setup (run (fun t state => t.andThen fun t => f t state) s s.names) := by
  -- no body makes a name unknown
  have hknows : ∀ state ∈ s.names, s.Knows setup.role state := h.names
  have hinv : Projected setup (run (fun t state => t.andThen fun t => f t state) s s.names) ∧
      (run (fun t state => t.andThen fun t => f t state) s s.names).numConnected
        = s.numConnected := by
    refine (along_of_forall hknows).invariant
      (I := fun t : Host => Projected setup t ∧ t.numConnected = s.numConnected) ?_ ⟨h, rfl⟩
    rintro t state ⟨ht, hcount⟩ hstate
    have hstate' : t.Knows setup.role state := by
      rw [Host.Knows, hcount]
      exact hstate
    unfold Host.andThen
    split
    · obtain ⟨hnext, hsame⟩ := hf t state ht hstate'
      exact ⟨hnext, hsame.trans hcount⟩
    · exact ⟨ht, hcount⟩
  exact hinv.1

theorem Projected.drainAll (h : Projected setup s) (it : Iteration) :
    Projected setup (drainAll setup it s) := by
  refine h.loop fun t state ht hstate => ?_
  unfold connDrain
  split
  · split
    · exact ⟨ht, rfl⟩
    · exact ⟨ht.call hstate _, (sameTable_call ..).numConnected⟩
  · exact ⟨ht, rfl⟩

theorem Projected.readPrograms (h : Projected setup s) (it : Iteration) :
    Projected setup (readPrograms setup it s) := by
  unfold MainLoop.readPrograms
  split
  · refine h.loop fun t state ht hstate => ?_
    unfold readProgram
    split
    · exact ⟨ht.call hstate _, (sameTable_call ..).numConnected⟩
    · exact ⟨ht, rfl⟩
  · exact h

/-- A new client gets a name that nobody has. -/
theorem Projected.tcpNewConnection (h : Projected setup s) (arrival : Arrival) :
    Projected setup (tcpNewConnection setup s arrival) := by
  unfold MainLoop.tcpNewConnection
  split
  · exact h.congr rfl rfl rfl fun _ hstate => hstate
  rename_i hserver
  split
  · exact h
  · have hnew : ¬ s.Knows setup.role s.numConnected := by
      rintro (hlt | ⟨hclient, -⟩)
      · exact Nat.lt_irrefl _ hlt
      · exact hserver hclient
    have hknown : ∀ state, (state < s.numConnected + 1 ∨ setup.role = .client ∧ state = 0) ↔
        s.Knows setup.role state ∨ state = s.numConnected := by
      intro state
      unfold Host.Knows
      constructor
      · rintro (hlt | hclient)
        · omega
        · exact Or.inl (Or.inr hclient)
      · rintro ((hlt | hclient) | heq)
        · omega
        · exact Or.inr hclient
        · omega
    refine ⟨h.held.add rfl hnew hknown, h.traces, fun state hstate => ?_⟩
    refine (hknown state).mpr ?_
    rcases List.mem_cons.mp hstate with heq | hstate
    · exact Or.inr heq
    · exact Or.inl (h.names state hstate)

theorem Projected.receivePacket (h : Projected setup s) (it : Iteration) :
    Projected setup (receivePacket setup it s) := by
  unfold MainLoop.receivePacket
  split
  · exact h
  · rename_i arrival hpacket
    split
    · exact h
    · exact h.congr rfl rfl rfl fun _ hstate => hstate
    · exact (h.tcpNewConnection arrival).congr rfl rfl rfl fun _ hstate => hstate
    · rename_i state hdispose
      refine ⟨?_, fun name => ?_, h.names⟩
      · show Held _ _ _ _ (entered (s.log ++ [.withhold state])) _
        rw [entered_append, show entered [.withhold state] = [] from rfl, List.append_nil]
        exact h.held
      · show eventsOf name (s.log ++ [.withhold state])
          = (ownRun setup (s.log ++ [.withhold state]) name).trace
        rw [ownRun, entered_append, eventsOf_append, show entered [.withhold state] = [] from rfl,
          show eventsOf name [.withhold state] = [] from rfl, List.append_nil, List.append_nil]
        exact h.traces name
    · rename_i state segment len hdispose
      have hmem := mem_of_passed hdispose
      rw [← names_eq] at hmem
      exact h.call (h.names state hmem) _

theorem Projected.timerLoop (fuel : Nat) {s : Host} {cursor : Option Nat} (h : Projected setup s)
    (hcursor : ∀ state, cursor = some state → state ∈ addrs s.states) :
    Projected setup (timerLoop setup.role fuel s cursor) := by
  induction fuel generalizing s cursor with
  | zero =>
    cases cursor with
    | none => exact h
    | some state => exact h.congr rfl rfl rfl fun _ hstate => hstate
  | succ fuel ih =>
    cases cursor with
    | none => exact h
    | some state =>
      have hcall := h.call (h.held.known_of_mem (hcursor state rfl)) .timer
      simp only [MainLoop.timerLoop]
      refine hcall.andThen ?_
      generalize s.call setup.role state .timer = t at hcall ⊢
      split
      · exact hcall.congr rfl rfl rfl fun _ hstate => hstate
      · rename_i x rest hstates
        refine ih hcall ?_
        intro name hname
        rw [hstates]
        cases rest with
        | nil => cases hname
        | cons y rest =>
          obtain rfl := Option.some.inj hname
          simp

theorem Projected.checkTimer (h : Projected setup s) (it : Iteration) :
    Projected setup (checkTimer setup it s) := by
  unfold MainLoop.checkTimer
  split
  · exact h
  · refine h.timerLoop _ ?_
    intro state hfirst
    cases hstates : s.states with
    | nil =>
      rw [hstates] at hfirst
      cases hfirst
    | cons x rest =>
      rw [hstates] at hfirst
      obtain rfl := Option.some.inj hfirst
      exact List.mem_cons_self

theorem Projected.deleteAll (h : Projected setup s) :
    Projected setup (deleteAllConnections s) :=
  h.congr rfl rfl rfl fun _ hstate =>
    ((sublist_deleteAll s).1.map ConnObj.state).subset hstate

theorem Projected.iterate (h : Projected setup s) (it : Iteration) :
    Projected setup (iterate setup s it) := by
  unfold MainLoop.iterate
  have hstdin := h.andThen (h.readStdin it)
  have hdrain := hstdin.andThen (hstdin.drainAll it)
  have hprograms := hdrain.andThen (hdrain.readPrograms it)
  have hpacket := hprograms.andThen (hprograms.receivePacket it)
  have htimer := hpacket.andThen (hpacket.checkTimer it)
  exact htimer.andThen htimer.deleteAll

end Parts

/-! ## Whole runs -/

/-- **The main loop is many runs of one connection each.**  After any iterations of a server or a
    client, whatever arrives in them: what each connection has done is what it does in `ownRun`;
    a connection that has been accepted is in the list in the state that it has in `ownRun`, until
    that has destroyed it; and no other is in the list, or has ever been called. -/
theorem loop_projects (setup : Setup) (s₀ : Host) (hstart : Started setup s₀)
    (its : List Iteration) (state : Nat) :
    let s := run (iterate setup) s₀ its
    let own := ownRun setup s.log state
    eventsOf state s.log = own.trace ∧
      (s.Knows setup.role state →
        s.states.lookup state = if own.conn.deleteMe then none else some own) ∧
      (¬ s.Knows setup.role state →
        s.states.lookup state = none ∧ callsOf state (entered s.log) = []) := by
  have hinv : Projected setup (run (iterate setup) s₀ its) :=
    run_invariant (I := Projected setup) (fun s it h => h.iterate it) (projected_started hstart)
  exact ⟨hinv.traces state, hinv.held.member state, hinv.held.unknown state⟩

/-- Two clients connect, the first one sends two bytes, and the timer runs. -/
def twoClients : List Iteration :=
  [.receives (packetOf 8888 9999 5 0 thSyn 30560 []) Env.roomy 5,
    .receives (packetOf 7777 9999 5 0 thSyn 52836 []) Env.roomy 5,
    .receives (packetOf 8888 9999 6 6 thAck 63223 [104, 105]) Env.roomy 5,
    { Iteration.idle with timer := some 5 }]

/-- The first connection has output the two bytes, and the second one has done nothing. -/
theorem loop_projects_two :
    let setup := startServer ⟨0, 9999, 1440, 1440⟩ false true ctcpCfg
    let s := run (iterate setup) Host.init twoClients
    (∀ state,
      let own := ownRun setup s.log state
      eventsOf state s.log = own.trace ∧
        (s.Knows setup.role state →
          s.states.lookup state = if own.conn.deleteMe then none else some own) ∧
        (¬ s.Knows setup.role state →
          s.states.lookup state = none ∧ callsOf state (entered s.log) = [])) ∧
    outputBytes (eventsOf 0 s.log) = [104, 105] ∧ eventsOf 1 s.log = [] ∧
    (callsOf 1 (entered s.log)).length = 1 :=
  ⟨loop_projects (startServer ⟨0, 9999, 1440, 1440⟩ false true ctcpCfg) Host.init (.server rfl)
    twoClients, by decide +kernel, by decide +kernel, by decide +kernel⟩

end Ctcp.MainLoop
