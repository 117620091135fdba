/-
  All connections of the process: `state_list`, and the loop of `ctcp_timer`.

  The loop takes its next node from `state_list->next`, the SECOND node of the list, and not from
  the node it has just handled:

      while (NULL != state) { retransmission_handler(state); state = state_list->next; }

  So each connection is handled once, and the loop ends, only if the first connection stays and
  every other one is destroyed as soon as it is handled (`timer_once_iff`).  Two open connections
  keep a server in the loop for ever (`timer_hangs`); a server whose only connection is destroyed
  follows the null pointer `state_list`.  In a client `ctcp_destroy` does not return: it leaves the
  process through `end_client`.  With a single connection that stays, the loop is the `timer` of
  `step` (`timer_single`).
-/
import Ctcp.Reach
import Ctcp.Lib.BackLinked

set_option linter.unusedVariables false

namespace Ctcp

open BackLinked

/-! ## The list -/

/-- Which of the two the process is: `SERVER` or not. -/
inductive Role where
  | client
  | server
  deriving DecidableEq, Repr

/-- `state_list`, and the states that are allocated. -/
abbrev StateList := Mem Nat CtcpState

/-- `ctcp_init`, with the state list. -/
def ctcpInitOn (list : StateList) (state : Nat) (cfg : CtcpConfig) : Option StateList :=
  list.pushFront state (ctcpInit cfg)

/-- `ctcp_destroy`, with the state list; `true` when the process exits. -/
def ctcpDestroyOn (role : Role) (list : StateList) (state : Nat) : Option (StateList × Bool) :=
  (list.unlink state).map fun list => (list, role = .client)

/-- `retransmission_handler`, with the state list; `true` when the process exits. -/
def retransmissionHandlerOn (role : Role) (list : StateList) (state : Nat) :
    Option (StateList × Bool) :=
  (list.heap state).bind fun node =>
    if (retransmissionHandler node.val).conn.deleteMe then ctcpDestroyOn role list state
    else (list.setVal state (retransmissionHandler node.val)).map fun list => (list, false)

/-- `state_list->next`. -/
def nextOfHead (list : StateList) : Option (Option Nat) :=
  list.head.bind fun state => (list.heap state).map Node.next

/-! ## `ctcp_timer` -/

/-- How a call of `ctcp_timer` ends. -/
inductive TimerEnd where
  | returned
  | exited
  | badDeref
  | outOfFuel
  deriving DecidableEq, Repr

/-- What a call of `ctcp_timer` leaves behind, and which states it has handled, in order. -/
structure TimerRun where
  list : StateList
  visited : List Nat
  ending : TimerEnd

/-- The loop, with fuel for one iteration each. -/
def timerLoop (role : Role) : Nat → StateList → List Nat → Option Nat → TimerRun
  | _, list, visited, none => ⟨list, visited, .returned⟩
  | 0, list, visited, some _ => ⟨list, visited, .outOfFuel⟩
  | fuel + 1, list, visited, some state =>
    match retransmissionHandlerOn role list state with
    | none => ⟨list, visited, .badDeref⟩
    | some (list, true) => ⟨list, visited ++ [state], .exited⟩
    | some (list, false) =>
      match nextOfHead list with
      | none => ⟨list, visited ++ [state], .badDeref⟩
      | some next => timerLoop role fuel list (visited ++ [state]) next

/-- `ctcp_timer`. -/
def ctcpTimer (role : Role) (fuel : Nat) (list : StateList) : TimerRun :=
  timerLoop role fuel list [] list.head

/-! ## What it should do, and when it does -/

/-- The memory holds the connections `l`, none of them destroyed. -/
structure Conns (list : StateList) (l : List (Nat × CtcpState)) : Prop where
  rep : Rep list l
  live : ∀ x ∈ l, x.2.conn.deleteMe = false

/-- The run is over, nothing was dereferenced that must not be, and each of the states `l` has been
    handled once. -/
structure Once (l : List (Nat × CtcpState)) (r : TimerRun) : Prop where
  ends : r.ending = .returned ∨ r.ending = .exited
  once : ∀ state ∈ addrs l, r.visited.count state = 1

/-- **`ctcp_timer` ends and handles each connection once.** -/
def TimerOnce (role : Role) (list : StateList) (l : List (Nat × CtcpState)) : Prop :=
  ∃ fuel, Once l (ctcpTimer role fuel list)

/-- The first connection stays and the others end; a client does not come back from the first one
    that ends. -/
def TimerSafe : Role → List CtcpState → Prop
  | _, [] => True
  | .server, state :: rest => ¬ waitExpires state ∧ ∀ other ∈ rest, waitExpires other
  | .client, [_] => True
  | .client, [state, other] => ¬ waitExpires state ∧ waitExpires other
  | .client, _ :: _ :: _ :: _ => False

/-- A new connection goes to the front of the list. -/
theorem conns_init {list : StateList} {l : List (Nat × CtcpState)} {a : Nat} (h : Conns list l)
    (hfresh : list.heap a = none) (cfg : CtcpConfig) :
    ∃ list', ctcpInitOn list a cfg = some list' ∧ Conns list' ((a, ctcpInit cfg) :: l) := by
  obtain ⟨list', hpush, hrep⟩ := h.rep.pushFront hfresh (ctcpInit cfg)
  refine ⟨list', hpush, hrep, ?_⟩
  intro x hx
  rcases List.mem_cons.mp hx with rfl | hx
  · rfl
  · exact h.live x hx

theorem conns_empty : Conns Mem.empty [] := ⟨rep_empty, by simp⟩

/-! ## One iteration -/

theorem deleteMe_of_handler {state : CtcpState} (hlive : state.conn.deleteMe = false) :
    (retransmissionHandler state).conn.deleteMe = true ↔ waitExpires state := by
  have hout := retransmissionHandler_outcome state
  generalize retransmissionHandler state = state' at hout ⊢
  cases hout with
  | expired hexp => exact iff_of_true rfl hexp
  | running hexp _ hout =>
    refine iff_of_false ?_ hexp
    cases hout <;> simp [hlive]

section Iteration

variable {role : Role} {list : StateList} {l l₁ l₂ rest : List (Nat × CtcpState)} {a b : Nat}
  {state other : CtcpState}

/-- The handler leaves the connection in the list. -/
theorem handler_running (role : Role) (h : Conns list (l₁ ++ (a, state) :: l₂))
    (hexp : ¬ waitExpires state) :
    ∃ list', retransmissionHandlerOn role list a = some (list', false) ∧
      Conns list' (l₁ ++ (a, retransmissionHandler state) :: l₂) := by
  have hlive : state.conn.deleteMe = false := h.live (a, state) (by simp)
  have hkeep : (retransmissionHandler state).conn.deleteMe = false := by
    rw [← Bool.not_eq_true, deleteMe_of_handler hlive]
    exact hexp
  obtain ⟨list', hset, hrep⟩ := h.rep.setVal (retransmissionHandler state)
  refine ⟨list', ?_, hrep, ?_⟩
  · simp [retransmissionHandlerOn, h.rep.node, hkeep, hset]
  · intro x hx
    rcases List.mem_append.mp hx with hx | hx
    · exact h.live x (List.mem_append_left _ hx)
    · rcases List.mem_cons.mp hx with rfl | hx
      · exact hkeep
      · exact h.live x (List.mem_append_right _ (List.mem_cons_of_mem _ hx))

/-- The handler destroys the connection. -/
theorem handler_expired (role : Role) (h : Conns list (l₁ ++ (a, state) :: l₂))
    (hexp : waitExpires state) :
    ∃ list', retransmissionHandlerOn role list a = some (list', decide (role = .client)) ∧
      Conns list' (l₁ ++ l₂) := by
  have hlive : state.conn.deleteMe = false := h.live (a, state) (by simp)
  obtain ⟨list', hunlink, hrep⟩ := h.rep.unlink
  refine ⟨list', ?_, hrep, ?_⟩
  · simp [retransmissionHandlerOn, h.rep.node, (deleteMe_of_handler hlive).mpr hexp,
      ctcpDestroyOn, hunlink]
  · intro x hx
    rcases List.mem_append.mp hx with hx | hx
    · exact h.live x (List.mem_append_left _ hx)
    · exact h.live x (List.mem_append_right _ (List.mem_cons_of_mem _ hx))

/-- The first connection stays. -/
theorem first_running (role : Role) (h : Conns list ((a, state) :: rest))
    (hexp : ¬ waitExpires state) :
    ∃ list', retransmissionHandlerOn role list a = some (list', false) ∧
      Conns list' ((a, retransmissionHandler state) :: rest) := by
  have hsplit : Conns list ([] ++ (a, state) :: rest) := h
  exact handler_running role hsplit hexp

/-- The first connection is destroyed. -/
theorem first_expired (role : Role) (h : Conns list ((a, state) :: rest))
    (hexp : waitExpires state) :
    ∃ list', retransmissionHandlerOn role list a = some (list', decide (role = .client)) ∧
      Conns list' rest := by
  have hsplit : Conns list ([] ++ (a, state) :: rest) := h
  exact handler_expired role hsplit hexp

/-- The second connection stays. -/
theorem second_running (role : Role) (h : Conns list ((a, state) :: (b, other) :: rest))
    (hexp : ¬ waitExpires other) :
    ∃ list', retransmissionHandlerOn role list b = some (list', false) ∧
      Conns list' ((a, state) :: (b, retransmissionHandler other) :: rest) := by
  have hsplit : Conns list ([(a, state)] ++ (b, other) :: rest) := h
  exact handler_running role hsplit hexp

/-- The second connection is destroyed. -/
theorem second_expired (role : Role) (h : Conns list ((a, state) :: (b, other) :: rest))
    (hexp : waitExpires other) :
    ∃ list', retransmissionHandlerOn role list b = some (list', decide (role = .client)) ∧
      Conns list' ((a, state) :: rest) := by
  have hsplit : Conns list ([(a, state)] ++ (b, other) :: rest) := h
  exact handler_expired role hsplit hexp

/-- `state_list->next` is the second connection. -/
theorem nextOfHead_cons (h : Conns list ((a, state) :: rest)) :
    nextOfHead list = some (first rest none) := by
  have hnode := h.rep.seg.1
  have hhead : list.head = some a := h.rep.head
  simp [nextOfHead, hhead, hnode]

/-- Without connections there is no `state_list->next`. -/
theorem nextOfHead_nil (h : Conns list []) : nextOfHead list = none := by
  have hhead : list.head = none := h.rep.head
  rw [nextOfHead, hhead]
  rfl

/-- **The loop goes on with the second connection** of the list that the handler leaves. -/
theorem loop_step {list' : StateList} (h : Conns list' ((b, other) :: rest))
    (hhandler : retransmissionHandlerOn role list a = some (list', false)) (fuel : Nat)
    (visited : List Nat) :
    timerLoop role (fuel + 1) list visited (some a)
      = timerLoop role fuel list' (visited ++ [a]) (first rest none) := by
  rw [timerLoop, hhandler]
  show (match nextOfHead list' with
    | none => (⟨list', visited ++ [a], .badDeref⟩ : TimerRun)
    | some next => timerLoop role fuel list' (visited ++ [a]) next) = _
  rw [nextOfHead_cons h]

/-- When the handler destroys the last connection, the loop follows a null pointer. -/
theorem loop_null {list' : StateList} (h : Conns list' [])
    (hhandler : retransmissionHandlerOn role list a = some (list', false)) (fuel : Nat)
    (visited : List Nat) :
    timerLoop role (fuel + 1) list visited (some a) = ⟨list', visited ++ [a], .badDeref⟩ := by
  rw [timerLoop, hhandler]
  show (match nextOfHead list' with
    | none => (⟨list', visited ++ [a], .badDeref⟩ : TimerRun)
    | some next => timerLoop role fuel list' (visited ++ [a]) next) = _
  rw [nextOfHead_nil h]

/-- `end_client` leaves the loop. -/
theorem loop_exit {list' : StateList}
    (hhandler : retransmissionHandlerOn role list a = some (list', true)) (fuel : Nat)
    (visited : List Nat) :
    timerLoop role (fuel + 1) list visited (some a) = ⟨list', visited ++ [a], .exited⟩ := by
  rw [timerLoop, hhandler]

/-- What has been visited stays visited. -/
theorem visited_mono (role : Role) (fuel : Nat) (list : StateList) (visited : List Nat)
    (cursor : Option Nat) : visited <+: (timerLoop role fuel list visited cursor).visited := by
  induction fuel generalizing list visited cursor with
  | zero => cases cursor <;> exact List.prefix_refl _
  | succ fuel ih =>
    cases cursor with
    | none => exact List.prefix_refl _
    | some a =>
      unfold timerLoop
      split
      · exact List.prefix_refl _
      · exact List.prefix_append _ _
      · split
        · exact List.prefix_append _ _
        · exact (List.prefix_append _ _).trans (ih _ _ _)

/-- The second connection is visited when the loop stands there. -/
theorem visits_second (role : Role) (h : Conns list ((a, state) :: (b, other) :: rest)) (fuel : Nat)
    (visited : List Nat) :
    visited ++ [b] <+: (timerLoop role (fuel + 1) list visited (some b)).visited := by
  by_cases hexp : waitExpires other
  · obtain ⟨list', hhandler, hconns⟩ := second_expired role h hexp
    cases role with
    | client =>
      have hrun := loop_exit hhandler fuel visited
      exact hrun ▸ List.prefix_refl _
    | server =>
      rw [loop_step hconns hhandler]
      exact visited_mono _ _ _ _ _
  · obtain ⟨list', hhandler, hconns⟩ := second_running role h hexp
    rw [loop_step hconns hhandler]
    exact visited_mono _ _ _ _ _

end Iteration

/-! ## Whole runs -/

section Runs

variable {role : Role} {list : StateList} {rest : List (Nat × CtcpState)} {a b : Nat}
  {state other : CtcpState}

/-- **Every later connection is destroyed in its turn.** -/
theorem loop_drains (h : Conns list ((a, state) :: rest))
    (hall : ∀ x ∈ rest, waitExpires x.2) (visited : List Nat) :
    ∃ list', Conns list' [(a, state)] ∧
      timerLoop .server rest.length list visited (first rest none)
        = ⟨list', visited ++ addrs rest, .returned⟩ := by
  -- each round destroys the second of the list, and the third takes its place
  induction rest generalizing list visited with
  | nil => exact ⟨list, h, by simp [timerLoop, first]⟩
  | cons x rest ih =>
    obtain ⟨b, other⟩ := x
    obtain ⟨list₁, hhandler, hconns⟩ :=
      second_expired .server h (hall (b, other) List.mem_cons_self)
    obtain ⟨list', hlast, hloop⟩ :=
      ih hconns (fun x hx => hall x (List.mem_cons_of_mem _ hx)) (visited ++ [b])
    refine ⟨list', hlast, ?_⟩
    show timerLoop .server (rest.length + 1) list visited (some b) = _
    rw [loop_step hconns hhandler, hloop]
    simp [addrs]

/-- **A later connection that stays is handled again and again.** -/
theorem loop_revisits (h : Conns list ((a, state) :: (b, other) :: rest))
    (hexp : ¬ waitExpires other) (fuel : Nat) (visited : List Nat) :
    let r := timerLoop role fuel list visited (some b)
    r.ending = .outOfFuel ∨ 2 ≤ r.visited.count b := by
  obtain ⟨list₁, hhandler, hconns⟩ := second_running role h hexp
  cases fuel with
  | zero => exact Or.inl rfl
  | succ fuel =>
    have hagain : timerLoop role (fuel + 1) list visited (some b)
        = timerLoop role fuel list₁ (visited ++ [b]) (some b) :=
      loop_step hconns hhandler fuel visited
    cases fuel with
    | zero =>
      rw [hagain]
      exact Or.inl rfl
    | succ fuel =>
      right
      have htwice := visits_second role hconns fuel (visited ++ [b])
      rw [← hagain] at htwice
      have hcount := htwice.sublist.count_le b
      rw [List.count_append, List.count_append, List.count_singleton_self] at hcount
      omega

/-- **The first connection is never handled again.** -/
theorem loop_skips_head (h : Conns list ((a, state) :: rest)) (fuel : Nat)
    (visited : List Nat) :
    (timerLoop role fuel list visited (first rest none)).visited.count a = visited.count a := by
  -- the cursor is the second of the list, and so never the head
  induction fuel generalizing list rest visited with
  | zero => cases rest <;> rfl
  | succ fuel ih =>
    cases rest with
    | nil => rfl
    | cons x rest =>
      obtain ⟨b, other⟩ := x
      have hne : b ≠ a := by
        rintro rfl
        exact (List.nodup_cons.mp h.rep.nodup).1 List.mem_cons_self
      have hcount : (visited ++ [b]).count a = visited.count a := by
        simp [List.count_append, hne]
      show (timerLoop role (fuel + 1) list visited (some b)).visited.count a = _
      by_cases hexp : waitExpires other
      · obtain ⟨list₁, hhandler, hconns⟩ := second_expired role h hexp
        cases role with
        | client =>
          rw [loop_exit hhandler]
          exact hcount
        | server =>
          rw [loop_step hconns hhandler, ← hcount]
          exact ih hconns (visited ++ [b])
      · obtain ⟨list₁, hhandler, hconns⟩ := second_running role h hexp
        rw [loop_step hconns hhandler, ← hcount]
        exact ih hconns (visited ++ [b])

/-- If the loop ends and visits nothing twice, every later connection was destroyed. -/
theorem expires_of_loop (h : Conns list ((a, state) :: rest)) (fuel : Nat) (visited : List Nat)
    (hends : (timerLoop .server fuel list visited (first rest none)).ending ≠ .outOfFuel)
    (honce : ∀ x ∈ addrs rest,
      (timerLoop .server fuel list visited (first rest none)).visited.count x ≤ 1) :
    ∀ x ∈ rest, waitExpires x.2 := by
  induction rest generalizing list fuel visited with
  | nil => simp
  | cons x rest ih =>
    obtain ⟨b, other⟩ := x
    have hexp : waitExpires other := by
      refine Decidable.byContradiction fun hexp => ?_
      rcases loop_revisits h hexp fuel visited with hout | htwice
      · exact hends hout
      · have hle := honce b List.mem_cons_self
        have hge : 2 ≤ (timerLoop .server fuel list visited (some b)).visited.count b := htwice
        have hle' : (timerLoop .server fuel list visited (some b)).visited.count b ≤ 1 := hle
        omega
    obtain ⟨list₁, hhandler, hconns⟩ := second_expired .server h hexp
    cases fuel with
    | zero => exact absurd rfl hends
    | succ fuel =>
      have hloop : timerLoop .server (fuel + 1) list visited (some b)
          = timerLoop .server fuel list₁ (visited ++ [b]) (first rest none) :=
        loop_step hconns hhandler fuel visited
      have hrest := ih hconns fuel (visited ++ [b]) (hloop ▸ hends)
        (fun x hx => hloop ▸ honce x (List.mem_cons_of_mem _ hx))
      intro x hx
      rcases List.mem_cons.mp hx with rfl | hx
      · exact hexp
      · exact hrest x hx

end Runs

/-! ## One call of `ctcp_timer` -/

section Timer

variable {role : Role} {list : StateList} {rest : List (Nat × CtcpState)} {a b : Nat}
  {state other : CtcpState}

/-- `ctcp_timer` starts at the first connection. -/
theorem timer_cons (h : Conns list ((a, state) :: rest)) (role : Role) (fuel : Nat) :
    ctcpTimer role fuel list = timerLoop role fuel list [] (some a) := by
  have hhead : list.head = some a := h.rep.head
  rw [ctcpTimer, hhead]

/-- A run that is over has used some fuel. -/
theorem fuel_of_once {l : List (Nat × CtcpState)} (h : Conns list ((a, state) :: rest))
    (honce : TimerOnce role list l) :
    ∃ fuel, Once l (timerLoop role (fuel + 1) list [] (some a)) := by
  obtain ⟨fuel, honce⟩ := honce
  rw [timer_cons h] at honce
  cases fuel with
  | zero => rcases honce.ends with hend | hend <;> cases hend
  | succ fuel => exact ⟨fuel, honce⟩

/-- Nothing to do. -/
theorem once_nil (h : Conns list []) : TimerOnce role list [] := by
  have hhead : list.head = none := h.rep.head
  refine ⟨0, ?_, by simp⟩
  rw [ctcpTimer, hhead]
  exact Or.inl rfl

/-- The first connection stays, the others end. -/
theorem once_of_drained (h : Conns list ((a, state) :: rest)) (hexp : ¬ waitExpires state)
    (hall : ∀ x ∈ rest, waitExpires x.2) : TimerOnce .server list ((a, state) :: rest) := by
  obtain ⟨list₁, hhandler, hconns⟩ := first_running .server h hexp
  obtain ⟨list', -, hloop⟩ := loop_drains hconns hall [a]
  have hrun : ctcpTimer .server (rest.length + 1) list
      = ⟨list', addrs ((a, state) :: rest), .returned⟩ := by
    rw [timer_cons h, loop_step hconns hhandler]
    exact hloop
  refine ⟨rest.length + 1, ?_, ?_⟩
  · rw [hrun]
    exact Or.inl rfl
  · intro x hx
    rw [hrun, h.rep.nodup.count, if_pos hx]

/-- **In a server**: the first connection stays and the others are destroyed. -/
theorem once_server_iff (h : Conns list ((a, state) :: rest)) :
    TimerOnce .server list ((a, state) :: rest) ↔
      ¬ waitExpires state ∧ ∀ x ∈ rest, waitExpires x.2 := by
  refine ⟨fun honce => ?_, fun ⟨hexp, hall⟩ => once_of_drained h hexp hall⟩
  obtain ⟨fuel, hends, honce⟩ := fuel_of_once h honce
  by_cases hexp : waitExpires state
  · -- the first connection is destroyed: the second one is skipped, or there is none
    exfalso
    obtain ⟨list₁, hhandler, hconns⟩ := first_expired .server h hexp
    cases rest with
    | nil =>
      rw [loop_null hconns hhandler] at hends
      rcases hends with hend | hend <;> cases hend
    | cons x rest =>
      obtain ⟨b, other⟩ := x
      have hne : a ≠ b := by
        rintro rfl
        exact (List.nodup_cons.mp h.rep.nodup).1 List.mem_cons_self
      have hcount := honce b (List.mem_cons_of_mem _ List.mem_cons_self)
      rw [loop_step hconns hhandler, loop_skips_head hconns] at hcount
      simp [hne] at hcount
  · obtain ⟨list₁, hhandler, hconns⟩ := first_running .server h hexp
    rw [loop_step hconns hhandler] at hends honce
    refine ⟨hexp, expires_of_loop hconns fuel [a] ?_ ?_⟩
    · intro hout
      rcases hends with hend | hend <;> cases hend.symm.trans hout
    · intro x hx
      exact Nat.le_of_eq (honce x (List.mem_cons_of_mem _ hx))

/-- The only connection of a client is handled once, whether the process exits or not. -/
theorem once_client_single (h : Conns list [(a, state)]) :
    TimerOnce .client list [(a, state)] := by
  refine ⟨1, ?_⟩
  rw [timer_cons h]
  by_cases hexp : waitExpires state
  · obtain ⟨list₁, hhandler, -⟩ := first_expired .client h hexp
    rw [loop_exit hhandler]
    exact ⟨Or.inr rfl, by simp⟩
  · obtain ⟨list₁, hhandler, hconns⟩ := first_running .client h hexp
    rw [loop_step hconns hhandler]
    exact ⟨Or.inl rfl, by simp [timerLoop, first]⟩

/-- Of two connections of a client, the second is destroyed and the process exits. -/
theorem once_client_pair (h : Conns list [(a, state), (b, other)]) (hexp : ¬ waitExpires state)
    (hexp' : waitExpires other) : TimerOnce .client list [(a, state), (b, other)] := by
  obtain ⟨list₁, hhandler, hconns⟩ := first_running .client h hexp
  obtain ⟨list₂, hhandler₂, -⟩ := second_expired .client hconns hexp'
  have hrun : ctcpTimer .client 2 list = ⟨list₂, [a, b], .exited⟩ := by
    rw [timer_cons h, loop_step hconns hhandler]
    exact loop_exit hhandler₂ 0 [a]
  refine ⟨2, ?_, ?_⟩
  · rw [hrun]
    exact Or.inr rfl
  · intro x hx
    rw [hrun, ← h.rep.nodup.count.trans (if_pos hx)]
    rfl

/-- A client with more connections keeps the first and destroys the second, and there is no
    third. -/
theorem safe_of_once_client (h : Conns list ((a, state) :: (b, other) :: rest))
    (honce : TimerOnce .client list ((a, state) :: (b, other) :: rest)) :
    ¬ waitExpires state ∧ waitExpires other ∧ rest = [] := by
  obtain ⟨fuel, hends, honce⟩ := fuel_of_once h honce
  have hnd := h.rep.nodup
  have hab : a ≠ b := fun heq => (List.nodup_cons.mp hnd).1 (heq ▸ List.mem_cons_self)
  by_cases hexp : waitExpires state
  · -- the process exits before the second connection
    obtain ⟨list₁, hhandler, -⟩ := first_expired .client h hexp
    rw [loop_exit hhandler] at honce
    have hcount : [a].count b = 1 := honce b (List.mem_cons_of_mem _ List.mem_cons_self)
    simp [hab] at hcount
  · obtain ⟨list₁, hhandler, hconns⟩ := first_running .client h hexp
    rw [loop_step hconns hhandler] at hends honce
    have hexp' : waitExpires other := by
      refine Decidable.byContradiction fun hexp' => ?_
      rcases loop_revisits hconns hexp' fuel [a] with hout | htwice
      · rcases hends with hend | hend <;> cases hend.symm.trans hout
      · have hone : (timerLoop .client fuel list₁ [a] (some b)).visited.count b = 1 :=
          honce b (List.mem_cons_of_mem _ List.mem_cons_self)
        omega
    refine ⟨hexp, hexp', ?_⟩
    cases fuel with
    | zero => rcases hends with hend | hend <;> cases hend
    | succ fuel =>
      obtain ⟨list₂, hhandler₂, -⟩ := second_expired .client hconns hexp'
      have hloop : timerLoop .client (fuel + 1) list₁ [a] (some b) = ⟨list₂, [a, b], .exited⟩ :=
        loop_exit hhandler₂ fuel [a]
      refine List.eq_nil_iff_forall_not_mem.mpr fun x hx => ?_
      have hmem : x.1 ∈ addrs rest := List.mem_map_of_mem hx
      have hcount : (timerLoop .client (fuel + 1) list₁ [a] (some b)).visited.count x.1 = 1 :=
        honce x.1 (List.mem_cons_of_mem _ (List.mem_cons_of_mem _ hmem))
      rw [hloop] at hcount
      obtain ⟨ha, hb⟩ := List.nodup_cons.mp hnd
      have hax : a ≠ x.1 := fun heq => ha (heq ▸ List.mem_cons_of_mem _ hmem)
      have hbx : b ≠ x.1 := fun heq => (List.nodup_cons.mp hb).1 (heq ▸ hmem)
      simp [hax, hbx] at hcount

/-- **With one connection** `ctcp_timer` is the `timer` of `step`. -/
theorem timer_single (h : Conns list [(a, state)]) (hexp : ¬ waitExpires state) :
    ∃ list', ctcpTimer role 1 list = ⟨list', [a], .returned⟩ ∧
      Conns list' [(a, step state .timer)] := by
  have hlive : state.conn.deleteMe = false := h.live (a, state) List.mem_cons_self
  have hstep : step state .timer = retransmissionHandler state := by simp [step, hlive]
  obtain ⟨list', hhandler, hconns⟩ := first_running role h hexp
  refine ⟨list', ?_, hstep ▸ hconns⟩
  rw [timer_cons h, loop_step hconns hhandler]
  rfl

end Timer

/-! ## A server with two clients -/

section Hang

variable {role : Role} {list : StateList} {rest : List (Nat × CtcpState)} {a b : Nat}
  {state other : CtcpState}

theorem tdState_of_handler (state : CtcpState) :
    (retransmissionHandler state).tdState = state.tdState := by
  have hout := retransmissionHandler_outcome state
  generalize retransmissionHandler state = state' at hout ⊢
  cases hout with
  | expired => rfl
  | running _ _ hout => cases hout <;> rfl

/-- The loop stands at a second connection that is not in its final wait. -/
theorem loop_diverges (h : Conns list ((a, state) :: (b, other) :: rest))
    (hopen : other.tdState ≠ .waitDestroy) (fuel : Nat) (visited : List Nat) :
    (timerLoop role fuel list visited (some b)).ending = .outOfFuel := by
  -- the handler leaves `td_state` alone, so the second stays where it is for ever
  induction fuel generalizing list other visited with
  | zero => rfl
  | succ fuel ih =>
    have hexp : ¬ waitExpires other := fun hexp => hopen hexp.1
    obtain ⟨list', hhandler, hconns⟩ := second_running role h hexp
    rw [loop_step hconns hhandler]
    refine ih hconns ?_ (visited ++ [b])
    rw [tdState_of_handler]
    exact hopen

/-- **With a second connection that is not in its final wait, `ctcp_timer` never returns.** -/
theorem timer_diverges (h : Conns list ((a, state) :: (b, other) :: rest))
    (hexp : ¬ waitExpires state) (hopen : other.tdState ≠ .waitDestroy) (fuel : Nat) :
    (ctcpTimer role fuel list).ending = .outOfFuel := by
  rw [timer_cons h]
  cases fuel with
  | zero => rfl
  | succ fuel =>
    obtain ⟨list', hhandler, hconns⟩ := first_running role h hexp
    rw [loop_step hconns hhandler]
    exact loop_diverges hconns hopen fuel [a]

end Hang

/-! ## When each connection is handled once -/

/-- **When `ctcp_timer` ends and handles each connection once**: in a server if and only if the
    first connection stays and all others are destroyed. -/
theorem timer_once_iff (role : Role) (list : StateList) (l : List (Nat × CtcpState))
    (h : Conns list l) : TimerOnce role list l ↔ TimerSafe role (l.map Prod.snd) := by
  cases l with
  | nil => exact iff_of_true (once_nil h) (by cases role <;> trivial)
  | cons x rest =>
    obtain ⟨a, state⟩ := x
    cases role with
    | server =>
      rw [once_server_iff h]
      show _ ↔ ¬ waitExpires state ∧ ∀ other ∈ rest.map Prod.snd, waitExpires other
      rw [List.forall_mem_map]
    | client =>
      match rest, h with
      | [], h => exact iff_of_true (once_client_single h) trivial
      | [(b, other)], h =>
        constructor
        · intro honce
          obtain ⟨hexp, hexp', -⟩ := safe_of_once_client h honce
          exact ⟨hexp, hexp'⟩
        · rintro ⟨hexp, hexp'⟩
          exact once_client_pair h hexp hexp'
      | (b, other) :: y :: rest, h =>
        refine iff_of_false (fun honce => ?_) id
        exact List.cons_ne_nil _ _ (safe_of_once_client h honce).2.2

/-- A server with one connection. -/
theorem timer_once_single :
    TimerOnce .server ((ctcpInitOn Mem.empty 0 ctcpCfg).get rfl) [(0, ctcpInit ctcpCfg)] ↔
      TimerSafe .server [ctcpInit ctcpCfg] := by
  refine timer_once_iff .server _ [(0, ctcpInit ctcpCfg)] ?_
  obtain ⟨list, hinit, hconns⟩ := conns_init conns_empty (a := 0) rfl ctcpCfg
  exact (Option.get_of_eq_some _ hinit).symm ▸ hconns

/-- Two clients have connected to the server, and nothing else has happened: the first tick of the
    timer never returns. -/
theorem timer_hangs :
    ∃ list, ((ctcpInitOn Mem.empty 0 ctcpCfg).bind fun list => ctcpInitOn list 1 ctcpCfg)
        = some list ∧
      (∀ fuel, (ctcpTimer .server fuel list).ending = .outOfFuel) ∧
      ¬ TimerOnce .server list [(1, ctcpInit ctcpCfg), (0, ctcpInit ctcpCfg)] := by
  obtain ⟨list₁, hinit₁, hconns₁⟩ := conns_init conns_empty (a := 0) rfl ctcpCfg
  have hfresh : list₁.heap 1 = none := by
    refine Decidable.byContradiction fun hne => ?_
    exact absurd (hconns₁.rep.only 1 hne) (by decide)
  obtain ⟨list, hinit, hconns⟩ := conns_init hconns₁ hfresh ctcpCfg
  have hhangs : ∀ fuel, (ctcpTimer .server fuel list).ending = .outOfFuel :=
    timer_diverges hconns (by decide) (by decide)
  refine ⟨list, ?_, hhangs, ?_⟩
  · rw [hinit₁]
    exact hinit
  · rintro ⟨fuel, hends, -⟩
    rcases hends with hend | hend <;> rw [hhangs] at hend <;> cases hend

end Ctcp
