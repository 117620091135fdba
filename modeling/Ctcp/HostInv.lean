/-
  What a destroyed state is, and what is known of the process as long as none has been entered.

  `ctcp_destroy` is the last thing a callback does (`last_step`), and it takes the state out of
  `state_list` and marks the `conn_t`.  So the record and the lists agree: the states in the list
  are those that have not been destroyed, and the marked connections are those that have
  (`HostInv`).  A callback keeps the invariant when it is entered with a state of the list
  (`HostInv.call`), and when it is entered with a destroyed one the law is broken for ever
  (`not_destroyed_of_law`).
-/
import Ctcp.MainLoop

set_option linter.unusedVariables false

namespace Ctcp.MainLoop

open Runs History Keyed BackLinked Packet

/-! ## The law -/

/-- **A destroyed state is left alone**: no callback is entered with it, and its connection, whose
    calls of `conn_input`, `conn_send` and `conn_output` assert that it is not being removed, does
    nothing. -/
def NotAfterDestroy (before : List Happening) : Happening → Prop
  | .enter state _ => .does state .destroy ∉ before
  | .does state _ => .does state .destroy ∉ before
  | .withhold _ => True

instance (before : List Happening) (h : Happening) : Decidable (NotAfterDestroy before h) :=
  match h with
  | .enter state _ => inferInstanceAs (Decidable (.does state .destroy ∉ before))
  | .does state _ => inferInstanceAs (Decidable (.does state .destroy ∉ before))
  | .withhold _ => isTrue trivial

/-- `ctcp_output` has a segment to output and room for it, and `conn_output` reports an error. -/
def OutputFails (env : Env) (state : CtcpState) : Prop :=
  ∃ segment, state.receivedSegment = .live segment ∧ env.bufspace ≠ 0 ∧ datalen segment ≠ 0 ∧
    (datalen segment).toNat ≤ env.bufspace ∧ outputResult env state < 0

/-! ## A callback destroys its connection at its end -/

/-- The events of a callback: `destroy` is the last of them, if the connection is being removed
    afterwards, and else none of them. -/
inductive DestroyLast : List Event → Bool → Prop
  | removed (es : List Event) (hnot : .destroy ∉ es) : DestroyLast (es ++ [.destroy]) true
  | kept (es : List Event) (hnot : .destroy ∉ es) : DestroyLast es false

theorem DestroyLast.cons {es : List Event} {deleteMe : Bool} (h : DestroyLast es deleteMe)
    {e : Event} (he : e ≠ .destroy) : DestroyLast (e :: es) deleteMe := by
  cases h with
  | removed es hnot =>
    refine DestroyLast.removed (e :: es) ?_
    intro hin
    rcases List.mem_cons.mp hin with heq | hin
    · exact he heq.symm
    · exact hnot hin
  | kept es hnot =>
    refine DestroyLast.kept (e :: es) ?_
    intro hin
    rcases List.mem_cons.mp hin with heq | hin
    · exact he heq.symm
    · exact hnot hin

theorem DestroyLast.mem_iff {es : List Event} {deleteMe : Bool} (h : DestroyLast es deleteMe) :
    .destroy ∈ es ↔ deleteMe = true := by
  cases h with
  | removed es hnot => exact iff_of_true (by simp) rfl
  | kept es hnot => exact iff_of_false hnot (by simp)

section Last

variable {state state' : CtcpState} {es : List Event}

theorem last_read {input : Option Chunk} {sent : Int} (hlive : state.conn.deleteMe = false)
    (hout : ReadOutcome state input sent state') (htrace : state'.trace = state.trace ++ es) :
    DestroyLast es state'.conn.deleteMe ∧ state'.conn.deleteMe = false := by
  have hkept : .destroy ∉ es ∧ state'.conn.deleteMe = false := by
    cases hout with
    | busy => exact ⟨by simp [List.append_right_eq_self.mp htrace.symm], hlive⟩
    | _ =>
      rw [← List.append_cancel_left htrace]
      exact ⟨by simp, hlive⟩
  rw [hkept.2]
  exact ⟨DestroyLast.kept es hkept.1, rfl⟩

theorem last_output {env : Env} (hlive : state.conn.deleteMe = false)
    (hout : OutputOutcome env state state') (htrace : state'.trace = state.trace ++ es) :
    DestroyLast es state'.conn.deleteMe ∧
      (state'.conn.deleteMe = true ↔ OutputFails env state) := by
  cases hout with
  | noRoom segment hsegment hroom =>
    obtain rfl := List.append_right_eq_self.mp htrace.symm
    show DestroyLast [] state.conn.deleteMe ∧ (state.conn.deleteMe = true ↔ _)
    rw [hlive]
    refine ⟨DestroyLast.kept [] (by simp), iff_of_false (by simp) ?_⟩
    rintro ⟨-, -, hroom', -⟩
    exact hroom' hroom
  | kept segment hsegment hroom hlen =>
    obtain rfl := List.append_right_eq_self.mp htrace.symm
    rw [hlive]
    refine ⟨DestroyLast.kept [] (by simp), iff_of_false (by simp) ?_⟩
    rintro ⟨segment', hsegment', -, -, hfits, -⟩
    obtain rfl := SegmentPtr.live.inj (hsegment.symm.trans hsegment')
    omega
  | empty segment hsegment hroom hlen =>
    obtain rfl := List.append_right_eq_self.mp htrace.symm
    show DestroyLast [] state.conn.deleteMe ∧ (state.conn.deleteMe = true ↔ _)
    rw [hlive]
    refine ⟨DestroyLast.kept [] (by simp), iff_of_false (by simp) ?_⟩
    rintro ⟨segment', hsegment', -, hlen', -, -⟩
    obtain rfl := SegmentPtr.live.inj (hsegment.symm.trans hsegment')
    exact hlen' hlen
  | failed segment hsegment hroom hlen hfits hwritten =>
    obtain rfl := List.append_cancel_left htrace
    exact ⟨DestroyLast.removed [.output segment (outputResult env state)] (by simp),
      iff_of_true rfl ⟨segment, hsegment, hroom, hlen, hfits, hwritten⟩⟩
  | delivered segment hsegment hroom hlen hfits hwritten =>
    rw [← List.append_cancel_left htrace]
    show DestroyLast _ state.conn.deleteMe ∧ (state.conn.deleteMe = true ↔ _)
    rw [hlive]
    refine ⟨DestroyLast.kept _ (by simp), iff_of_false (by simp) ?_⟩
    rintro ⟨-, -, -, -, -, hwritten'⟩
    omega
  | fault hdead =>
    rw [← List.append_cancel_left htrace]
    show DestroyLast _ state.conn.deleteMe ∧ (state.conn.deleteMe = true ↔ _)
    rw [hlive]
    refine ⟨DestroyLast.kept _ (by simp), iff_of_false (by simp) ?_⟩
    rintro ⟨segment, hsegment, -⟩
    exact hdead segment hsegment

theorem last_receive {env : Env} {segment : CtcpSegment} (hlive : state.conn.deleteMe = false)
    (hout : ReceiveOutcome env state segment state') (htrace : state'.trace = state.trace ++ es) :
    DestroyLast es state'.conn.deleteMe := by
  cases hout with
  | data _ _ _ _ _ _ hout =>
    obtain ⟨rest, hrest⟩ := trace_of_output hout
    have hsame : state.trace ++ es = state.trace ++ .receive segment :: rest := by
      rw [← htrace, ← hrest]
      simp
    have hlive' : (({ state with receivedSegment := .live segment } : CtcpState).log
        [.receive segment]).conn.deleteMe = false := hlive
    rw [List.append_cancel_left hsame]
    exact ((last_output hlive' hout hrest.symm).1).cons (by simp)
  -- the two branches that end in `ctcp_destroy`
  | closingFin =>
    rw [← List.append_cancel_left htrace]
    exact DestroyLast.removed [_, _, _] (by simp)
  | lastAck =>
    rw [← List.append_cancel_left htrace]
    exact DestroyLast.removed [_] (by simp)
  | _ =>
    rw [← List.append_cancel_left htrace]
    show DestroyLast _ state.conn.deleteMe
    rw [hlive]
    exact DestroyLast.kept _ (by simp)

theorem last_timer (hlive : state.conn.deleteMe = false) (hout : TimerOutcome state state')
    (htrace : state'.trace = state.trace ++ es) : DestroyLast es state'.conn.deleteMe := by
  cases hout with
  | expired =>
    rw [← List.append_cancel_left htrace]
    exact DestroyLast.removed [] (by simp)
  | running hexp _ hout =>
    -- the handler itself never destroys: only the end of the final wait does
    obtain ⟨hnot, hkept⟩ := hout.quiet htrace
    have halive : state'.conn.deleteMe = false := hkept.trans hlive
    rw [halive]
    exact DestroyLast.kept es hnot

end Last

/-- **One callback.** -/
theorem last_step {state : CtcpState} (hlive : state.conn.deleteMe = false) (call : Call) :
    DestroyLast (events state call) (step state call).conn.deleteMe := by
  have htrace := step_trace state call
  have hout := step_outcome state call
  generalize events state call = es at htrace ⊢
  generalize step state call = state' at htrace hout ⊢
  cases hout with
  | dead _ hdead => cases hlive.symm.trans hdead
  | read _ _ _ _ hout => exact (last_read hlive hout htrace).1
  | invalid =>
    obtain rfl := List.append_right_eq_self.mp htrace.symm
    rw [hlive]
    exact DestroyLast.kept [] (by simp)
  | receive _ _ _ _ _ _ hout => exact last_receive hlive hout htrace
  | output _ _ _ hout => exact (last_output hlive hout htrace).1
  | timer _ _ hout => exact last_timer hlive hout htrace

/-! ## The invariant -/

/-- The lists agree with the record. -/
structure ListsAgree (s : Host) : Prop where
  undestroyed : ∀ state ∈ addrs s.states, .does state .destroy ∉ s.log
  alive : ∀ x ∈ s.states, x.2.conn.deleteMe = false
  allocated : ∀ conn ∈ s.connections, conn.deleteMe = false → conn.state ∈ addrs s.states
  removed : ∀ conn ∈ s.connections, conn.deleteMe = true → .does conn.state .destroy ∈ s.log

/-- What is known as long as no destroyed state has been entered. -/
structure HostInv (s : Host) : Prop extends ListsAgree s where
  law : Always NotAfterDestroy s.log
  distinct : s.names.Nodup
  named : ∀ state, state ∈ s.names ∨ state ∈ addrs s.states ∨ .does state .destroy ∈ s.log →
    state < s.numConnected

theorem hostInv_init : HostInv Host.init := by
  refine ⟨⟨?_, ?_, ?_, ?_⟩, trivial, List.nodup_nil, ?_⟩ <;> simp [Host.init, Host.names]

/-- The status and the port of the new connection play no part. -/
theorem HostInv.congr {s t : Host} (h : HostInv s) (hconns : t.connections = s.connections)
    (hstates : t.states = s.states) (hnumber : t.numConnected = s.numConnected)
    (hlog : t.log = s.log) : HostInv t := by
  obtain ⟨connections, states, numConnected, newConnection, log, status⟩ := t
  obtain rfl : connections = s.connections := hconns
  obtain rfl : states = s.states := hstates
  obtain rfl : numConnected = s.numConnected := hnumber
  obtain rfl : log = s.log := hlog
  exact ⟨⟨h.undestroyed, h.alive, h.allocated, h.removed⟩, h.law, h.distinct, h.named⟩

theorem mem_map_does {es : List Event} {state name : Nat} {e : Event} :
    .does name e ∈ es.map (Happening.does state) ↔ name = state ∧ e ∈ es := by
  rw [List.mem_map]
  constructor
  · rintro ⟨e', he', heq⟩
    obtain ⟨rfl, rfl⟩ := Happening.does.inj heq
    exact ⟨rfl, he'⟩
  · rintro ⟨rfl, he⟩
    exact ⟨e, he, rfl⟩

/-- The events of one callback obey the law. -/
theorem law_does {h : List Happening} {es : List Event} {state : Nat} {deleteMe : Bool}
    (hlast : DestroyLast es deleteMe) (hnot : .does state .destroy ∉ h) :
    AlwaysFrom NotAfterDestroy h (es.map (Happening.does state)) := by
  have hquiet : ∀ es : List Event, .destroy ∉ es → ∀ h : List Happening,
      .does state .destroy ∉ h →
        AlwaysFrom NotAfterDestroy h (es.map (Happening.does state)) := by
    intro es
    induction es with
    | nil => exact fun _ _ _ => trivial
    | cons e es ih =>
      intro hes h hnot
      refine alwaysFrom_cons.mpr ⟨hnot, ih (fun hin => hes (List.mem_cons_of_mem e hin)) _ ?_⟩
      intro hin
      rcases List.mem_append.mp hin with hin | hin
      · exact hnot hin
      · obtain ⟨-, rfl⟩ := Happening.does.inj (List.mem_singleton.mp hin)
        exact hes List.mem_cons_self
  -- before `destroy` the past has none; `destroy` itself sees the past without it
  cases hlast with
  | kept es hes => exact hquiet es hes h hnot
  | removed es hes =>
    rw [List.map_append]
    refine alwaysFrom_append.mpr ⟨hquiet es hes h hnot, ?_, trivial⟩
    intro hin
    rcases List.mem_append.mp hin with hin | hin
    · exact hnot hin
    · exact hes (mem_map_does.mp hin).2

section Alive

variable {s : Host} {state : Nat} {old : CtcpState}

/-- The connections that are destroyed after a callback with a state that was not. -/
theorem destroyed_call_iff (h : HostInv s) (hold : s.states.lookup state = some old) (role : Role)
    (call : Call) (name : Nat) :
    .does name .destroy ∈ (s.call role state call).log ↔
      .does name .destroy ∈ s.log ∨ name = state ∧ (step old call).conn.deleteMe = true := by
  have hlast := last_step (h.alive _ (mem_of_lookup hold)) call
  rw [log_call, Host.happenings, hold, List.mem_append, List.mem_cons, mem_map_does,
    hlast.mem_iff]
  simp

theorem addrs_update (s : Host) (state : Nat) (new : CtcpState) :
    addrs (s.update state new).states = addrs s.states := by
  show (s.states.map _).map Prod.fst = s.states.map Prod.fst
  rw [List.map_map]
  refine List.map_congr_left ?_
  intro x hx
  by_cases heq : x.1 = state
  · simp [heq]
  · simp [heq]

/-- After `ctcp_destroy`. -/
theorem mem_addrs_destroy {role : Role} {name : Nat} :
    name ∈ addrs (s.destroy role state).states ↔ name ∈ addrs s.states ∧ name ≠ state := by
  show name ∈ (s.states.filter fun x => x.1 ≠ state).map Prod.fst ↔ _
  simp [addrs]

theorem mem_connections_destroy {role : Role} {conn : ConnObj} :
    conn ∈ (s.destroy role state).connections ↔
      conn ∈ s.connections ∧ conn.state ≠ state ∨
        ∃ conn' ∈ s.connections, conn'.state = state ∧ conn = { conn' with deleteMe := true } := by
  show conn ∈ s.connections.map (ConnObj.remove state) ↔ _
  rw [List.mem_map]
  constructor
  · rintro ⟨conn', hmem, rfl⟩
    by_cases heq : conn'.state = state
    · exact Or.inr ⟨conn', hmem, heq, if_pos heq⟩
    · rw [show conn'.remove state = conn' from if_neg heq]
      exact Or.inl ⟨hmem, heq⟩
  · rintro (⟨hmem, hne⟩ | ⟨conn', hmem, heq, rfl⟩)
    · exact ⟨conn, hmem, if_neg hne⟩
    · exact ⟨conn', hmem, if_pos heq⟩

/-- What a callback that is entered with a live state leaves of the lists. -/
theorem call_alive (h : HostInv s) (hold : s.states.lookup state = some old) (role : Role)
    (call : Call) :
    ((step old call).conn.deleteMe = true ∧
        (s.call role state call).states = (s.destroy role state).states ∧
        (s.call role state call).connections = (s.destroy role state).connections) ∨
      (step old call).conn.deleteMe = false ∧
        (s.call role state call).states = (s.update state (step old call)).states ∧
        (s.call role state call).connections = s.connections := by
  rcases call_cases s role state call with
    ⟨hnone, -⟩ | ⟨old', hold', ⟨hdead, hcall⟩ | ⟨hkept, hcall⟩⟩
  · cases hold.symm.trans hnone
  · obtain rfl := Option.some.inj (hold.symm.trans hold')
    rw [hcall]
    exact Or.inl ⟨hdead, rfl, rfl⟩
  · obtain rfl := Option.some.inj (hold.symm.trans hold')
    rw [hcall]
    exact Or.inr ⟨hkept, rfl, rfl⟩

theorem call_destroyed (h : HostInv s) (hold : s.states.lookup state = some old) {role : Role}
    {call : Call} (hdead : (step old call).conn.deleteMe = true)
    (hstates : (s.call role state call).states = (s.destroy role state).states)
    (hconns : (s.call role state call).connections = (s.destroy role state).connections) :
    ListsAgree (s.call role state call) := by
  have hdestroyed := destroyed_call_iff h hold role call
  refine ⟨?_, ?_, ?_, ?_⟩
  · intro name hname hin
    rw [hstates] at hname
    obtain ⟨hname, hne⟩ := mem_addrs_destroy.mp hname
    rcases (hdestroyed name).mp hin with hin | ⟨heq, -⟩
    · exact h.undestroyed name hname hin
    · exact hne heq
  · intro x hx
    rw [hstates] at hx
    exact h.alive x (List.mem_filter.mp hx).1
  · intro conn hconn hunmarked
    rw [hconns] at hconn
    rw [hstates]
    rcases mem_connections_destroy.mp hconn with ⟨hconn, hne⟩ | ⟨conn', -, -, rfl⟩
    · exact mem_addrs_destroy.mpr ⟨h.allocated conn hconn hunmarked, hne⟩
    · cases hunmarked
  · intro conn hconn hmarked
    rw [hconns] at hconn
    rw [hdestroyed]
    rcases mem_connections_destroy.mp hconn with ⟨hconn, -⟩ | ⟨conn', -, heq, rfl⟩
    · exact Or.inl (h.removed conn hconn hmarked)
    · exact Or.inr ⟨heq, hdead⟩

theorem call_updated (h : HostInv s) (hold : s.states.lookup state = some old) {role : Role}
    {call : Call} (hkept : (step old call).conn.deleteMe = false)
    (hstates : (s.call role state call).states = (s.update state (step old call)).states)
    (hconns : (s.call role state call).connections = s.connections) :
    ListsAgree (s.call role state call) := by
  have hdestroyed : ∀ name, .does name .destroy ∈ (s.call role state call).log ↔
      .does name .destroy ∈ s.log := by
    intro name
    rw [destroyed_call_iff h hold, hkept]
    simp
  refine ⟨?_, ?_, ?_, ?_⟩
  · intro name hname
    rw [hstates, addrs_update] at hname
    rw [hdestroyed]
    exact h.undestroyed name hname
  · intro x hx
    rw [hstates] at hx
    obtain ⟨y, hy, rfl⟩ := List.mem_map.mp hx
    split
    · exact hkept
    · exact h.alive y hy
  · intro conn hconn hunmarked
    rw [hconns] at hconn
    rw [hstates, addrs_update]
    exact h.allocated conn hconn hunmarked
  · intro conn hconn hmarked
    rw [hconns] at hconn
    rw [hdestroyed]
    exact h.removed conn hconn hmarked

/-- **A callback with a state that has not been destroyed.** -/
theorem HostInv.call (h : HostInv s) (hin : state ∈ addrs s.states) (role : Role) (call : Call) :
    HostInv (s.call role state call) := by
  obtain ⟨old, hold, hmem⟩ := lookup_of_mem hin
  have hlast := last_step (h.alive _ hmem) call
  have hsame := sameTable_call s role state call
  have hnot := h.undestroyed state hin
  have hnames : (s.call role state call).names = s.names := by
    rw [names_eq, names_eq, hsame.established]
  -- a callback frees its own state or none, and allocates none
  obtain ⟨hlists, hsub⟩ : ListsAgree (s.call role state call) ∧
      ∀ name ∈ addrs (s.call role state call).states, name ∈ addrs s.states := by
    rcases call_alive h hold role call with
      ⟨hdead, hstates, hconns⟩ | ⟨hkept, hstates, hconns⟩
    · refine ⟨call_destroyed h hold hdead hstates hconns, ?_⟩
      intro name hname
      rw [hstates] at hname
      exact (mem_addrs_destroy.mp hname).1
    · refine ⟨call_updated h hold hkept hstates hconns, ?_⟩
      intro name hname
      rw [hstates, addrs_update] at hname
      exact hname
  refine ⟨hlists, ?_, ?_, ?_⟩
  · rw [log_call, Host.happenings, hold]
    refine always_append.mpr ⟨h.law, alwaysFrom_cons.mpr ⟨hnot, law_does hlast ?_⟩⟩
    simpa using hnot
  · rw [hnames]
    exact h.distinct
  · intro name hname
    rw [hsame.numConnected]
    rw [hnames, destroyed_call_iff h hold] at hname
    rcases hname with hname | hname | hname | ⟨rfl, -⟩
    · exact h.named name (Or.inl hname)
    · exact h.named name (Or.inr (Or.inl (hsub name hname)))
    · exact h.named name (Or.inr (Or.inr hname))
    · exact h.named name (Or.inr (Or.inl hin))

end Alive

/-! ## The connections and their states -/

/-- `ctcp_destroy` has been called on this state. -/
def Host.Destroyed (s : Host) (state : Nat) : Prop := .does state .destroy ∈ s.log

/-- What the parts of an iteration leave of the process, as long as all goes well. -/
structure GoesOn (s t : Host) : Prop where
  inv : HostInv t
  same : SameTable s t
  status : t.status = s.status

theorem GoesOn.refl {s : Host} (h : HostInv s) : GoesOn s s := ⟨h, frame_sameTable.refl s, rfl⟩

theorem GoesOn.trans {s t u : Host} (h : GoesOn s t) (h' : GoesOn t u) : GoesOn s u where
  inv := h'.inv
  same := frame_sameTable.trans h.same h'.same
  status := h'.status.trans h.status

theorem GoesOn.names {s t : Host} (h : GoesOn s t) : t.names = s.names := by
  rw [names_eq, names_eq, h.same.established]

section Destroyed

variable {s : Host} {state : Nat}

theorem marked_iff : s.marked state = true ↔
    ∃ conn ∈ s.connections, conn.state = state ∧ conn.deleteMe = true := by
  simp [Host.marked]

/-- A connection that is not marked has its state. -/
theorem HostInv.has_state (h : HostInv s) (hin : state ∈ s.names) (hnot : ¬ s.Destroyed state) :
    state ∈ addrs s.states := by
  obtain ⟨conn, hconn, rfl⟩ := List.mem_map.mp hin
  cases hmark : conn.deleteMe with
  | false => exact h.allocated conn hconn hmark
  | true => exact absurd (h.removed conn hconn hmark) hnot

theorem HostInv.not_marked (h : HostInv s) (hnot : ¬ s.Destroyed state) :
    s.marked state = false := by
  cases hmark : s.marked state with
  | false => rfl
  | true =>
    obtain ⟨conn, hconn, rfl, hmarked⟩ := marked_iff.mp hmark
    exact absurd (h.removed conn hconn hmarked) hnot

/-- A callback with a live state. -/
theorem GoesOn.of_call (h : HostInv s) (hin : state ∈ addrs s.states) {role : Role}
    (hserver : role = .server) (call : Call) : GoesOn s (s.call role state call) :=
  ⟨h.call hin role call, sameTable_call s role state call, status_server s role state call hserver⟩

/-- **What a mistake is**: a callback is entered with a destroyed state. -/
theorem not_destroyed_of_law {role : Role} {call : Call}
    (hlaw : Always NotAfterDestroy (s.call role state call).log) : ¬ s.Destroyed state := by
  rw [log_call, Host.happenings] at hlaw
  exact hlaw.at

/-- A mistake is not undone. -/
theorem law_of_log {h h' : List Happening} (hgrows : h <+: h')
    (hlaw : Always NotAfterDestroy h') : Always NotAfterDestroy h := by
  obtain ⟨es, rfl⟩ := hgrows
  exact (always_append.mp hlaw).1

end Destroyed

end Ctcp.MainLoop
