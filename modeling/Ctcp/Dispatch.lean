/-
  Which states the main loop enters its callbacks with.

  `ctcp_destroy` frees the state at once, but its `conn_t` stays in the list until the end of the
  iteration, and only `conn_drain` looks at `delete_me`.  So it matters in which part of the
  iteration a state is destroyed:

  1. `ctcp_read` destroys nothing, and `ctcp_timer` takes its states from `state_list`, where a
     destroyed one is no more.

  2. `ctcp_receive` comes after every other part that goes through the connections.

  3. **The crux**: `ctcp_output`, called from `conn_drain`, destroys the connection when
     `conn_output` fails, and the programs and the packet come after it (`marked_drainAll`).

  `destroyed_left_alone_iff`: no callback is entered with a destroyed state in exactly the runs in
  which no iteration has both, for one connection: an error in the `ctcp_output` of `conn_drain`,
  and then output of its program or a packet for it.
-/
import Ctcp.HostInv

set_option linter.unusedVariables false

namespace Ctcp.MainLoop

open Runs History Keyed BackLinked Packet

/-! ## When it holds -/

/-- `conn_drain` calls `ctcp_output` with this state, which fails. -/
def DrainFails (it : Iteration) (s : Host) (state : Nat) : Prop :=
  ∃ env old, it.drains state = some env ∧ s.states.lookup state = some old ∧ OutputFails env old

/-- A connection whose output fails has nothing else to do in this iteration: its program has no
    output, and the packet is not passed to it. -/
def LeftAlone (setup : Setup) (s : Host) (it : Iteration) : Prop :=
  s.status = .running → ∀ state ∈ s.names, DrainFails it s state →
    ¬ (setup.runProgram = true ∧ it.programs state ≠ none) ∧
      ∀ arrival segment len, it.packet = some arrival →
        dispose setup s.newConnection s.established arrival ≠ .passed state segment len

/-! ## STDIN -/

section Parts

variable {setup : Setup} {it : Iteration} {s : Host}

/-- `ctcp_read` destroys nothing, and leaves alone what `ctcp_output` depends on. -/
theorem read_quiet {old : CtcpState} (hlive : old.conn.deleteMe = false) (input : Option Chunk)
    (sent : Int) :
    (step old (.read input sent)).conn.deleteMe = false ∧
      (step old (.read input sent)).receivedSegment = old.receivedSegment ∧
      (step old (.read input sent)).conn.wroteEof = old.conn.wroteEof := by
  have hout := step_outcome old (.read input sent)
  generalize step old (.read input sent) = new at hout ⊢
  cases hout with
  | dead _ hdead => cases hlive.symm.trans hdead
  | read _ _ _ _ hout => cases hout <;> exact ⟨hlive, rfl, rfl⟩

theorem outputFails_read {old : CtcpState} (hlive : old.conn.deleteMe = false) (env : Env)
    (input : Option Chunk) (sent : Int) :
    OutputFails env (step old (.read input sent)) ↔ OutputFails env old := by
  obtain ⟨-, hsegment, heof⟩ := read_quiet hlive input sent
  unfold OutputFails outputResult
  rw [hsegment, heof]

/-- **A call of `ctcp_read`.** -/
theorem call_read (it : Iteration) (h : HostInv s) {state : Nat} (hin : state ∈ addrs s.states)
    (hserver : setup.role = .server) (input : Option Chunk) (sent : Int) :
    GoesOn s (s.call setup.role state (.read input sent)) ∧
      (∀ name, (s.call setup.role state (.read input sent)).Destroyed name ↔ s.Destroyed name) ∧
      ∀ name, DrainFails it (s.call setup.role state (.read input sent)) name ↔
        DrainFails it s name := by
  obtain ⟨old, hold, hmem⟩ := lookup_of_mem hin
  have hlive := h.alive _ hmem
  obtain ⟨hkept, -, -⟩ := read_quiet hlive input sent
  refine ⟨GoesOn.of_call h hin hserver _, ?_, ?_⟩
  · intro name
    unfold Host.Destroyed
    rw [destroyed_call_iff h hold, hkept]
    simp
  · intro name
    unfold DrainFails
    -- its own state has changed, but not in what `ctcp_output` will look at
    by_cases hname : name = state
    · subst hname
      have hnew : (s.call setup.role name (.read input sent)).states.lookup name
          = some (step old (.read input sent)) := by
        rcases call_alive h hold setup.role (.read input sent) with
          ⟨hdead, -, -⟩ | ⟨-, hstates, -⟩
        · cases hkept.symm.trans hdead
        · rw [hstates]
          show (s.states.map _).lookup name = _
          rw [lookup_update, if_pos rfl, hold]
          rfl
      rw [hnew, hold]
      constructor
      · rintro ⟨env, new, henv, hsome, hfails⟩
        obtain rfl := Option.some.inj hsome
        exact ⟨env, old, henv, rfl, (outputFails_read hlive env input sent).mp hfails⟩
      · rintro ⟨env, new, henv, hsome, hfails⟩
        obtain rfl := Option.some.inj hsome
        exact ⟨env, _, henv, rfl, (outputFails_read hlive env input sent).mpr hfails⟩
    · rw [lookup_call _ _ _ _ hname]

theorem readStdin_spec (it : Iteration) (h : HostInv s) (hserver : setup.role = .server)
    (hfresh : ∀ state ∈ s.names, ¬ s.Destroyed state) :
    GoesOn s (readStdin setup it s) ∧
      (∀ name, (readStdin setup it s).Destroyed name ↔ s.Destroyed name) ∧
      ∀ name, DrainFails it (readStdin setup it s) name ↔ DrainFails it s name := by
  have hsame : GoesOn s s ∧ (∀ name, s.Destroyed name ↔ s.Destroyed name) ∧
      ∀ name, DrainFails it s name ↔ DrainFails it s name :=
    ⟨GoesOn.refl h, fun _ => Iff.rfl, fun _ => Iff.rfl⟩
  unfold readStdin
  split
  · rename_i input sent conn rest hstdin hconns
    split
    · have hin : conn.state ∈ s.names := by simp [Host.names, hconns]
      exact call_read it h (h.has_state hin (hfresh _ hin)) hserver input sent
    · exact hsame
  · exact hsame

/-! ## `conn_drain` -/

/-- `ctcp_output` destroys exactly when `conn_output` reports an error. -/
theorem destroyed_output_iff {old : CtcpState} (hlive : old.conn.deleteMe = false) {env : Env} :
    (step old (.output env)).conn.deleteMe = true ↔ OutputFails env old := by
  have hout : OutputOutcome env old (step old (.output env)) := by
    have hstep : step old (.output env) = ctcpOutput env old := by simp [step, hlive]
    rw [hstep]
    exact ctcpOutput_outcome env old
  exact (last_output hlive hout (step_trace old _)).2

/-- `conn_drain` of a connection that has not been destroyed. -/
theorem connDrain_spec (it : Iteration) (h : HostInv s) (hserver : setup.role = .server)
    {state : Nat} (hin : state ∈ s.names) (hnot : ¬ s.Destroyed state) :
    GoesOn s (connDrain setup it s state) ∧
      (∀ name, (connDrain setup it s state).Destroyed name ↔
        s.Destroyed name ∨ name = state ∧ DrainFails it s state) ∧
      ∀ name, name ≠ state →
        (connDrain setup it s state).states.lookup name = s.states.lookup name := by
  unfold connDrain
  cases henv : it.drains state with
  | none =>
    have hnone : ¬ DrainFails it s state := by
      rintro ⟨env, old, henv', -⟩
      cases henv.symm.trans henv'
    exact ⟨GoesOn.refl h, fun name => by simp [hnone], fun _ _ => rfl⟩
  | some env =>
    have hstate := h.has_state hin hnot
    obtain ⟨old, hold, hmem⟩ := lookup_of_mem hstate
    have hlive : old.conn.deleteMe = false := h.alive _ hmem
    simp only [h.not_marked hnot, Bool.false_eq_true, if_false]
    refine ⟨GoesOn.of_call h hstate hserver _, ?_, fun name hne => lookup_call _ _ _ _ hne⟩
    intro name
    have hfails : (step old (.output env)).conn.deleteMe = true ↔ DrainFails it s state := by
      rw [destroyed_output_iff hlive]
      constructor
      · exact fun hfails => ⟨env, old, henv, hold, hfails⟩
      · rintro ⟨env', old', henv', hold', hfails⟩
        obtain rfl := Option.some.inj (henv.symm.trans henv')
        obtain rfl := Option.some.inj (hold.symm.trans hold')
        exact hfails
    unfold Host.Destroyed
    rw [destroyed_call_iff h hold, hfails]

/-- **The drain pass destroys the connections whose output fails, and no others.** -/
theorem drainLoop_spec (it : Iteration) (hserver : setup.role = .server) {names : List Nat}
    (hnd : names.Nodup) (h : HostInv s) (hrunning : s.status = .running)
    (hsub : ∀ state ∈ names, state ∈ s.names)
    (hfresh : ∀ state ∈ names, ¬ s.Destroyed state) :
    let t := run (fun s state => s.andThen fun s => connDrain setup it s state) s names
    GoesOn s t ∧
      ∀ name, t.Destroyed name ↔ s.Destroyed name ∨ name ∈ names ∧ DrainFails it s name := by
  -- along the list; what has been drained does not change what is still to be drained
  induction names generalizing s with
  | nil => exact ⟨GoesOn.refl h, fun name => by simp [run]⟩
  | cons state names ih =>
    obtain ⟨hne, hnd⟩ := List.nodup_cons.mp hnd
    obtain ⟨hgoes, hdestroyed, hothers⟩ := connDrain_spec it h hserver
      (hsub state List.mem_cons_self) (hfresh state List.mem_cons_self)
    rw [run, andThen_running hrunning]
    obtain ⟨hgoes', hdestroyed'⟩ := ih hnd hgoes.inv (hgoes.status.trans hrunning) (by
        intro name hname
        rw [hgoes.names]
        exact hsub name (List.mem_cons_of_mem state hname)) (by
        intro name hname hdead
        rcases (hdestroyed name).mp hdead with hdead | ⟨rfl, -⟩
        · exact hfresh name (List.mem_cons_of_mem state hname) hdead
        · exact hne hname)
    refine ⟨hgoes.trans hgoes', ?_⟩
    intro name
    rw [hdestroyed', hdestroyed]
    -- no name comes twice, so the later ones are as they were before this one
    have hlater : name ∈ names → (DrainFails it (connDrain setup it s state) name ↔
        DrainFails it s name) := by
      intro hname
      have hdiff : name ≠ state := fun heq => hne (heq ▸ hname)
      unfold DrainFails
      rw [hothers name hdiff]
    rw [List.mem_cons]
    constructor
    · rintro ((hdead | ⟨rfl, hfails⟩) | ⟨hname, hfails⟩)
      · exact Or.inl hdead
      · exact Or.inr ⟨Or.inl rfl, hfails⟩
      · exact Or.inr ⟨Or.inr hname, (hlater hname).mp hfails⟩
    · rintro (hdead | ⟨rfl | hname, hfails⟩)
      · exact Or.inl (Or.inl hdead)
      · exact Or.inl (Or.inr ⟨rfl, hfails⟩)
      · exact Or.inr ⟨hname, (hlater hname).mpr hfails⟩

/-! ## The programs -/

/-- The programs of connections that have not been destroyed. -/
theorem programLoop_spec (hserver : setup.role = .server) {names : List Nat} (h : HostInv s)
    (hrunning : s.status = .running) (hsub : ∀ state ∈ names, state ∈ s.names)
    (hready : ∀ state ∈ names, it.programs state ≠ none → ¬ s.Destroyed state) :
    let t := run (fun s state => s.andThen fun s => readProgram setup it s state) s names
    GoesOn s t ∧ ∀ name, t.Destroyed name ↔ s.Destroyed name := by
  induction names generalizing s with
  | nil => exact ⟨GoesOn.refl h, fun _ => Iff.rfl⟩
  | cons state names ih =>
    obtain ⟨hgoes, hsame⟩ : GoesOn s (readProgram setup it s state) ∧
        ∀ name, (readProgram setup it s state).Destroyed name ↔ s.Destroyed name := by
      unfold readProgram
      split
      · rename_i input sent hprogram
        have hin := hsub state List.mem_cons_self
        have hnot := hready state List.mem_cons_self (by simp [hprogram])
        obtain ⟨hgoes, hsame, -⟩ :=
          call_read it h (h.has_state hin hnot) hserver input sent
        exact ⟨hgoes, hsame⟩
      · exact ⟨GoesOn.refl h, fun _ => Iff.rfl⟩
    rw [run, andThen_running hrunning]
    obtain ⟨hgoes', hsame'⟩ := ih hgoes.inv (hgoes.status.trans hrunning) (by
        intro name hname
        rw [hgoes.names]
        exact hsub name (List.mem_cons_of_mem state hname)) (by
        intro name hname hprogram
        rw [hsame]
        exact hready name (List.mem_cons_of_mem state hname) hprogram)
    exact ⟨hgoes.trans hgoes', fun name => (hsame' name).trans (hsame name)⟩

theorem status_readProgram (hserver : setup.role = .server) (state : Nat) :
    (readProgram setup it s state).status = s.status :=
  frame_readProgram frame_status (fun s state _ _ => status_server s _ state _ hserver) it s state

/-- If there is no mistake, no destroyed connection has a program with output. -/
theorem ready_of_law (hserver : setup.role = .server) {names : List Nat}
    (hrunning : s.status = .running)
    (hlaw : Always NotAfterDestroy
      (run (fun s state => s.andThen fun s => readProgram setup it s state) s names).log) :
    ∀ state ∈ names, it.programs state ≠ none → ¬ s.Destroyed state := by
  induction names generalizing s with
  | nil => simp
  | cons state names ih =>
    have hstep := log_prefix_readProgram setup it s state
    rw [andThen_running hrunning] at hstep
    rw [run, andThen_running hrunning] at hlaw
    intro name hname hprogram
    -- the mistake is in the record of this call, or in what comes later
    rcases List.mem_cons.mp hname with rfl | hname
    · have hgrows := frame_log.run (log_prefix_readProgram setup it)
      have hlaw' := law_of_log (hgrows _ names) hlaw
      unfold readProgram at hlaw'
      split at hlaw'
      · exact not_destroyed_of_law hlaw'
      · rename_i hnone
        exact absurd hnone hprogram
    · intro hdead
      exact ih ((status_readProgram hserver state).trans hrunning) hlaw name hname hprogram
        (hstep.subset hdead)

/-! ## The packet -/

/-- A packet is passed to one of the connections. -/
theorem mem_of_passed {newConnection : UInt16} {established : List (Nat × SeqConn)}
    {arrival : Arrival} {state : Nat} {segment : CtcpSegment} {len : Nat}
    (h : dispose setup newConnection established arrival = .passed state segment len) :
    state ∈ established.map Prod.fst := by
  unfold dispose at h
  split at h
  case h_5 conn hattributed =>
    have hmem := (mem_of_attributed hattributed).1
    dsimp only at h
    split at h
    · cases h
    · obtain ⟨rfl, -, -⟩ := Disposal.passed.inj h
      exact List.mem_map_of_mem hmem
  all_goals cases h

/-- No packet is passed to a destroyed connection. -/
def PassedAlive (setup : Setup) (it : Iteration) (s : Host) : Prop :=
  ∀ arrival state segment len, it.packet = some arrival →
    dispose setup s.newConnection s.established arrival = .passed state segment len →
    ¬ s.Destroyed state

/-- A new client has a name of its own. -/
theorem hostInv_tcpNewConnection (h : HostInv s) (arrival : Arrival) :
    HostInv (tcpNewConnection setup s arrival) := by
  have hnew : ¬ s.numConnected < s.numConnected := Nat.lt_irrefl _
  unfold tcpNewConnection
  split
  · exact h.congr rfl rfl rfl rfl
  · split
    · exact h
    · refine ⟨⟨?_, ?_, ?_, ?_⟩, h.law, ?_, ?_⟩
      · intro state hstate hdead
        rcases List.mem_cons.mp hstate with rfl | hstate
        · exact hnew (h.named _ (Or.inr (Or.inr hdead)))
        · exact h.undestroyed state hstate hdead
      · intro x hx
        rcases List.mem_cons.mp hx with rfl | hx
        · rfl
        · exact h.alive x hx
      · intro conn hconn hunmarked
        rcases List.mem_cons.mp hconn with rfl | hconn
        · exact List.mem_cons_self
        · exact List.mem_cons_of_mem _ (h.allocated conn hconn hunmarked)
      · intro conn hconn hmarked
        rcases List.mem_cons.mp hconn with rfl | hconn
        · cases hmarked
        · exact h.removed conn hconn hmarked
      -- `num_connected` only grows, so it is nobody's name yet
      · exact List.nodup_cons.mpr ⟨fun hin => hnew (h.named _ (Or.inl hin)), h.distinct⟩
      · intro state hstate
        have hold : state = s.numConnected ∨ state < s.numConnected := by
          rcases hstate with hstate | hstate | hdead
          · exact (List.mem_cons.mp hstate).imp id fun hin => h.named state (Or.inl hin)
          · exact (List.mem_cons.mp hstate).imp id fun hin => h.named state (Or.inr (Or.inl hin))
          · exact Or.inr (h.named state (Or.inr (Or.inr hdead)))
        show state < s.numConnected + 1
        omega

theorem hostInv_withhold (h : HostInv s) (state : Nat) (newConnection : UInt16) :
    HostInv ({ s with newConnection := newConnection }.record [.withhold state]) := by
  have hsame : ∀ name : Nat, .does name .destroy ∈ s.log ++ [.withhold state] ↔
      .does name .destroy ∈ s.log := by
    intro name
    simp
  refine ⟨⟨?_, h.alive, h.allocated, ?_⟩, always_append.mpr ⟨h.law, trivial, trivial⟩, h.distinct,
    ?_⟩
  · intro name hname hdead
    exact h.undestroyed name hname ((hsame name).mp hdead)
  · intro conn hconn hmarked
    exact (hsame conn.state).mpr (h.removed conn hconn hmarked)
  · intro name hname
    exact h.named name (hname.imp id (Or.imp id (hsame name).mp))

theorem receivePacket_spec (h : HostInv s) (hpassed : PassedAlive setup it s) :
    HostInv (receivePacket setup it s) := by
  unfold receivePacket
  split
  · exact h
  · rename_i arrival hpacket
    split
    · exact h
    · exact h.congr rfl rfl rfl rfl
    · exact (hostInv_tcpNewConnection h arrival).congr rfl rfl rfl rfl
    · exact hostInv_withhold h _ 0
    · rename_i state segment len hdispose
      have hin : state ∈ s.names := by
        rw [names_eq]
        exact mem_of_passed hdispose
      exact h.call (h.has_state hin (hpassed _ _ _ _ hpacket hdispose)) _ _

theorem passedAlive_of_law (hlaw : Always NotAfterDestroy (receivePacket setup it s).log) :
    PassedAlive setup it s := by
  intro arrival state segment len hpacket hdispose
  unfold receivePacket at hlaw
  rw [hpacket] at hlaw
  simp only [hdispose] at hlaw
  exact not_destroyed_of_law hlaw

/-! ## The timer, and the end of the iteration -/

/-- `ctcp_timer` takes its states from `state_list`. -/
theorem timerLoop_spec (role : Role) (fuel : Nat) {s : Host} {cursor : Option Nat} (h : HostInv s)
    (hcursor : ∀ state, cursor = some state → state ∈ addrs s.states) :
    HostInv (timerLoop role fuel s cursor) := by
  induction fuel generalizing s cursor with
  | zero =>
    cases cursor with
    | none => exact h
    | some state => exact h.congr rfl rfl rfl rfl
  | succ fuel ih =>
    cases cursor with
    | none => exact h
    | some state =>
      have hcall := h.call (hcursor state rfl) role .timer
      simp only [timerLoop, Host.andThen]
      generalize s.call role state .timer = t at hcall ⊢
      split
      · split
        · exact hcall.congr rfl rfl rfl rfl
        · rename_i x rest hstates
          refine ih hcall ?_
          intro name hname
          rw [hstates]
          cases rest with
          | nil => cases hname
          | cons y rest =>
            obtain rfl := Option.some.inj hname
            simp
      · exact hcall

theorem checkTimer_spec (h : HostInv s) : HostInv (checkTimer setup it s) := by
  unfold checkTimer
  split
  · exact h
  · refine timerLoop_spec _ _ h ?_
    intro state hfirst
    cases hstates : s.states with
    | nil =>
      rw [hstates] at hfirst
      cases hfirst
    | cons x rest =>
      rw [hstates] at hfirst
      obtain rfl := Option.some.inj hfirst
      exact List.mem_cons_self

theorem deleteAll_spec (h : HostInv s) :
    HostInv (deleteAllConnections s) ∧
      ∀ state ∈ (deleteAllConnections s).names, ¬ (deleteAllConnections s).Destroyed state := by
  obtain ⟨hsub, hunmarked⟩ := sublist_deleteAll s
  have hallocated : ∀ conn ∈ (deleteAllConnections s).connections, conn.state ∈ addrs s.states :=
    fun conn hconn => h.allocated conn (hsub.subset hconn) (hunmarked conn hconn)
  refine ⟨⟨⟨h.undestroyed, h.alive, fun conn hconn _ => hallocated conn hconn, ?_⟩, h.law, ?_, ?_⟩,
    ?_⟩
  · intro conn hconn hmarked
    exact h.removed conn (hsub.subset hconn) hmarked
  · exact (hsub.map ConnObj.state).nodup h.distinct
  · intro state hstate
    exact h.named state (hstate.imp (fun hin => (hsub.map ConnObj.state).subset hin) id)
  · intro state hstate
    obtain ⟨conn, hconn, rfl⟩ := List.mem_map.mp hstate
    exact h.undestroyed _ (hallocated conn hconn)

end Parts

/-! ## Whole runs -/

section Whole

variable {setup : Setup} {it : Iteration} {s : Host}

/-- What is known between two iterations. -/
structure LoopInv (s : Host) : Prop where
  inv : HostInv s
  fresh : s.status = .running → ∀ state ∈ s.names, ¬ s.Destroyed state

theorem loopInv_init : LoopInv Host.init := by
  refine ⟨hostInv_init, ?_⟩
  intro hrunning state hin
  exact absurd hin List.not_mem_nil

/-- The iteration of a process that runs, up to the packet. -/
theorem iterate_running (it : Iteration) (hrunning : s.status = .running)
    (hserver : setup.role = .server) (h : LoopInv s) :
    ∃ t, (iterate setup s it) = (((t.andThen (readPrograms setup it)).andThen
        (receivePacket setup it)).andThen (checkTimer setup it)).andThen deleteAllConnections ∧
      GoesOn s t ∧ ∀ state ∈ s.names, t.Destroyed state ↔ DrainFails it s state := by
  have hfresh := h.fresh hrunning
  obtain ⟨hgoes, hsame, hdrains⟩ := readStdin_spec it h.inv hserver hfresh
  have hrunning' := hgoes.status.trans hrunning
  obtain ⟨hgoes', hdestroyed⟩ := drainLoop_spec it hserver hgoes.inv.distinct hgoes.inv
    hrunning' (fun _ hin => hin) (by
      intro state hin
      rw [hsame]
      rw [hgoes.names] at hin
      exact hfresh state hin)
  refine ⟨drainAll setup it (readStdin setup it s), ?_, hgoes.trans hgoes', ?_⟩
  · unfold iterate
    rw [andThen_running hrunning, andThen_running hrunning']
  · intro state hin
    have hin' : state ∈ (readStdin setup it s).names := by
      rw [hgoes.names]
      exact hin
    refine (hdestroyed state).trans ?_
    rw [hsame, hdrains]
    constructor
    · rintro (hdead | ⟨-, hfails⟩)
      · exact absurd hdead (hfresh state hin)
      · exact hfails
    · exact fun hfails => Or.inr ⟨hin', hfails⟩

/-- The programs that have output are those of connections that have not been destroyed. -/
def ReadyAlive (setup : Setup) (it : Iteration) (s : Host) : Prop :=
  setup.runProgram = true → ∀ state ∈ s.names, it.programs state ≠ none → ¬ s.Destroyed state

theorem readPrograms_spec (h : HostInv s) (hrunning : s.status = .running)
    (hserver : setup.role = .server) (hready : ReadyAlive setup it s) :
    GoesOn s (readPrograms setup it s) ∧
      ∀ name, (readPrograms setup it s).Destroyed name ↔ s.Destroyed name := by
  unfold readPrograms
  split
  · rename_i hrun
    exact programLoop_spec hserver h hrunning (fun _ hin => hin) (hready hrun)
  · exact ⟨GoesOn.refl h, fun _ => Iff.rfl⟩

theorem readyAlive_of_law (hrunning : s.status = .running) (hserver : setup.role = .server)
    (hlaw : Always NotAfterDestroy (readPrograms setup it s).log) : ReadyAlive setup it s := by
  intro hrun
  unfold readPrograms at hlaw
  rw [if_pos hrun] at hlaw
  exact ready_of_law hserver hrunning hlaw

/-- The condition, after the drain pass. -/
theorem leftAlone_iff {t u : Host} (hrunning : s.status = .running) (hgoes : GoesOn s t)
    (hdestroyed : ∀ state ∈ s.names, t.Destroyed state ↔ DrainFails it s state)
    (hgoes' : GoesOn t u) (hsame : ∀ name, u.Destroyed name ↔ t.Destroyed name) :
    LeftAlone setup s it ↔ ReadyAlive setup it t ∧ PassedAlive setup it u := by
  have hest : u.established = s.established := hgoes'.same.established.trans hgoes.same.established
  have hnew : u.newConnection = s.newConnection :=
    hgoes'.same.newConnection.trans hgoes.same.newConnection
  unfold PassedAlive
  rw [hest, hnew]
  constructor
  · intro hleft
    refine ⟨?_, ?_⟩
    · intro hrun state hin hprogram hdead
      rw [hgoes.names] at hin
      exact (hleft hrunning state hin ((hdestroyed state hin).mp hdead)).1 ⟨hrun, hprogram⟩
    · intro arrival state segment len hpacket hpassed hdead
      have hin : state ∈ s.names := by
        rw [names_eq]
        exact mem_of_passed hpassed
      have hfails := (hdestroyed state hin).mp ((hsame state).mp hdead)
      exact (hleft hrunning state hin hfails).2 arrival segment len hpacket hpassed
  · rintro ⟨hready, halive⟩ - state hin hfails
    have hdead := (hdestroyed state hin).mpr hfails
    refine ⟨?_, ?_⟩
    · rintro ⟨hrun, hprogram⟩
      refine hready hrun state ?_ hprogram hdead
      rw [hgoes.names]
      exact hin
    · intro arrival segment len hpacket hpassed
      exact halive arrival state segment len hpacket hpassed ((hsame state).mpr hdead)

/-- The timer and the deletion keep what is known. -/
theorem loopInv_rest (h : HostInv s) :
    LoopInv ((s.andThen (checkTimer setup it)).andThen deleteAllConnections) := by
  have htimer : HostInv (s.andThen (checkTimer setup it)) := by
    unfold Host.andThen
    split
    · exact checkTimer_spec h
    · exact h
  generalize s.andThen (checkTimer setup it) = t at htimer ⊢
  unfold Host.andThen
  split
  · obtain ⟨hinv, hfresh⟩ := deleteAll_spec htimer
    exact ⟨hinv, fun _ => hfresh⟩
  · rename_i hstopped
    exact ⟨htimer, fun hrunning => absurd hrunning hstopped⟩

/-- **One iteration.**  It obeys the law exactly when it leaves the connections alone whose output
    fails. -/
theorem iterate_spec (it : Iteration) (hrunning : s.status = .running)
    (hserver : setup.role = .server) (h : LoopInv s) :
    (LeftAlone setup s it → LoopInv (iterate setup s it)) ∧
      (Always NotAfterDestroy (iterate setup s it).log → LeftAlone setup s it) := by
  obtain ⟨t, hiterate, hgoes, hdestroyed⟩ := iterate_running it hrunning hserver h
  have hrunning' := hgoes.status.trans hrunning
  rw [hiterate, andThen_running hrunning']
  constructor
  · intro hleft
    have hready : ReadyAlive setup it t := by
      have hsame : ∀ name, t.Destroyed name ↔ t.Destroyed name := fun _ => Iff.rfl
      exact ((leftAlone_iff hrunning hgoes hdestroyed (GoesOn.refl hgoes.inv) hsame).mp hleft).1
    obtain ⟨hgoes', hsame⟩ := readPrograms_spec hgoes.inv hrunning' hserver hready
    obtain ⟨-, hpassed⟩ := (leftAlone_iff hrunning hgoes hdestroyed hgoes' hsame).mp hleft
    rw [andThen_running (hgoes'.status.trans hrunning')]
    exact loopInv_rest (receivePacket_spec hgoes'.inv hpassed)
  · intro hlaw
    have hlaw' := law_of_log (log_prefix_rest setup it _) hlaw
    have hready : ReadyAlive setup it t := by
      refine readyAlive_of_law hrunning' hserver (law_of_log ?_ hlaw')
      exact frame_andThen frame_log (log_prefix_receivePacket setup it) _
    obtain ⟨hgoes', hsame⟩ := readPrograms_spec hgoes.inv hrunning' hserver hready
    rw [andThen_running (hgoes'.status.trans hrunning')] at hlaw'
    exact (leftAlone_iff hrunning hgoes hdestroyed hgoes' hsame).mpr
      ⟨hready, passedAlive_of_law hlaw'⟩

/-- From any point between two iterations. -/
theorem law_iff (hserver : setup.role = .server) (its : List Iteration) (h : LoopInv s) :
    Always NotAfterDestroy (run (iterate setup) s its).log ↔
      Along (iterate setup) (LeftAlone setup) s its := by
  -- `LoopInv` is carried as long as the condition holds; then the mistake stays in the record
  induction its generalizing s with
  | nil => exact iff_of_true h.inv.law trivial
  | cons it its ih =>
    rw [run, Along]
    by_cases hrunning : s.status = .running
    · obtain ⟨hkeeps, hleft⟩ := iterate_spec it hrunning hserver h
      have hgrows := frame_log.run (log_prefix_iterate setup) (iterate setup s it) its
      generalize iterate setup s it = t at hkeeps hleft hgrows ⊢
      constructor
      · intro hlaw
        have hok := hleft (law_of_log hgrows hlaw)
        exact ⟨hok, (ih (hkeeps hok)).mp hlaw⟩
      · rintro ⟨hok, hrest⟩
        exact (ih (hkeeps hok)).mpr hrest
    · rw [iterate_stopped setup it hrunning]
      have hok : LeftAlone setup s it := fun hrunning' => absurd hrunning' hrunning
      exact (ih h).trans (and_iff_right hok).symm

end Whole

/-- A server. -/
def startServer (net : Packet.Config) (runProgram unixSocket : Bool) (intervals : CtcpConfig) :
    Setup := ⟨.server, net, runProgram, unixSocket, intervals⟩

/-- **No callback is entered with a destroyed state, in exactly the runs of a server in which no
    connection whose output fails in `conn_drain` is read from or given a packet later in the same
    iteration.** -/
theorem destroyed_left_alone_iff (net : Packet.Config) (runProgram unixSocket : Bool)
    (intervals : CtcpConfig) (its : List Iteration) :
    let setup := startServer net runProgram unixSocket intervals
    Always NotAfterDestroy (run (iterate setup) Host.init its).log ↔
      Along (iterate setup) (LeftAlone setup) Host.init its := by
  intro setup
  have hserver : setup.role = .server := rfl
  exact law_iff hserver its loopInv_init

/-- A client of a server on port 9999, both with the initial number 5, sends its SYN, its ACK, and
    six full segments.  STDOUT takes nothing: the first five stay in the output queue, and there is
    no room for the last one, which is kept.  Then STDOUT takes the queue, and fails when
    `ctcp_output` writes the kept segment; and in the same iteration that segment arrives again. -/
def blockedOutput : List Iteration :=
  let room (bufspace : Fin (maxBufSpace + 1)) (written : Int) : Env :=
    ⟨bufspace, written, 20, 20, Nat.le_of_lt_succ bufspace.isLt⟩
  let full (k : Nat) (sum : UInt16) : Datagram :=
    packetOf 8888 9999 (UInt32.ofNat (6 + 1440 * k)) 6 thAck sum (List.replicate 1440 7)
  [.receives (packetOf 8888 9999 5 0 thSyn 0 []) Env.roomy 5,
    .receives (packetOf 8888 9999 6 6 thAck 0 []) Env.roomy 5,
    .receives (full 0 65174) (room 8192 1440) 5,
    .receives (full 1 24209) (room 6752 1440) 5,
    .receives (full 2 48779) (room 5312 1440) 5,
    .receives (full 3 7814) (room 3872 1440) 5,
    .receives (full 4 32384) (room 2432 1440) 5,
    .receives (full 5 56954) (room 992 1440) 5,
    { Iteration.receives (full 5 56954) Env.roomy 5 with
      drains := fun state => if state = 0 then some (room 8192 (-1)) else none }]

set_option maxRecDepth 10000 in
/-- `ctcp_receive` is entered with the state that `ctcp_output` has destroyed. -/
theorem destroyed_state_entered :
    let setup := startServer ⟨0, 9999, 1440, 1440⟩ false true ctcpCfg
    ¬ Always NotAfterDestroy (run (iterate setup) Host.init blockedOutput).log := by
  decide +kernel

end Ctcp.MainLoop
