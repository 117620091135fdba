/-
  `state_list` over the lifetimes of the connections.

  `ctcp_init` puts a new state in front of the list and `ctcp_destroy` takes one out of it, in any
  order.  `stateList_sound`: in every run of them, following `next` from `state_list` meets exactly
  the states that are alive, the most recent first; the link that `prev` points to holds the state,
  for each of them; and a destroyed state leaves the others as they were.
-/
import Ctcp.StateList
import Ctcp.Lib.Keyed

set_option linter.unusedVariables false

namespace Ctcp

open Runs Keyed BackLinked

/-! ## Runs -/

/-- What happens to the list. -/
inductive LifeOp where
  /-- `ctcp_init` with a connection; `calloc` returns this address. -/
  | init (state : Nat) (cfg : CtcpConfig)
  /-- Any other function, which leaves `next` and `prev` alone. -/
  | update (state : Nat) (fields : CtcpState)
  | destroy (state : Nat)

/-- The list, which is lost once a pointer has been followed that must not be, and the states that
    are alive, the most recent first. -/
structure Lives where
  list : Option StateList
  live : List (Nat × CtcpState)

/-- Before the first connection. -/
def Lives.start : Lives := ⟨some Mem.empty, []⟩

/-- One call. -/
def Lives.perform (role : Role) (t : Lives) : LifeOp → Lives
  | .init state cfg =>
    { list := t.list.bind fun list => ctcpInitOn list state cfg
      live := (state, ctcpInit cfg) :: t.live }
  | .update state fields =>
    { list := t.list.bind fun list => list.setVal state fields
      live := t.live.map fun x => if x.1 = state then (state, fields) else x }
  | .destroy state =>
    { list := t.list.bind fun list => (ctcpDestroyOn role list state).map Prod.fst
      live := t.live.filter fun x => x.1 ≠ state }

/-- `calloc` does not return an address that is in use, and what is called on is alive. -/
def Lives.Allowed (t : Lives) : LifeOp → Prop
  | .init state _ => (t.list.bind fun list => list.heap state) = none
  | .update state _ => state ∈ keys t.live
  | .destroy state => state ∈ keys t.live

/-! ## What the list is -/

/-- **The list holds exactly the states that are alive.** -/
structure Listed (list : StateList) (live : List (Nat × CtcpState)) : Prop where
  /-- Following `next` from `state_list`. -/
  walk : ∀ fuel, live.length ≤ fuel → list.walk fuel list.head = some live
  once : (keys live).Nodup
  /-- `prev` points to `state_list` in the head, and to `next` of the state before elsewhere, and
      there the state is found. -/
  back : ∀ before state fields after, live = before ++ (state, fields) :: after →
    ∃ node, list.heap state = some node ∧ node.val = fields ∧
      node.prev = lastLink .head before ∧ list.load node.prev = some (some state)
  /-- Every other state has been freed. -/
  freed : ∀ state, state ∉ keys live → list.heap state = none

/-- Destroying `state` takes it out of the list, and leaves the order and the fields of the others
    alone. -/
structure Removed (list list' : StateList) (live : List (Nat × CtcpState)) (state : Nat) :
    Prop where
  walk : ∀ fuel, live.length ≤ fuel →
    list'.walk fuel list'.head = some (live.filter fun x => x.1 ≠ state)
  others : ∀ other, other ≠ state →
    (list'.heap other).map Node.val = (list.heap other).map Node.val

/-! ## One call -/

section Calls

variable {role : Role} {list : StateList} {live : List (Nat × CtcpState)} {state : Nat}

theorem Listed.of_rep (h : Rep list live) : Listed list live where
  walk := fun fuel hfuel => h.walk hfuel
  once := h.nodup
  back := by
    rintro before state fields after rfl
    exact ⟨_, h.node, rfl, rfl, h.load⟩
  freed := fun state hout => Decidable.byContradiction fun hne => hout (h.only state hne)

/-- What a state holds, alive or not. -/
theorem heap_val (h : Rep list live) (other : Nat) :
    (list.heap other).map Node.val = live.lookup other := by
  by_cases hmem : other ∈ keys live
  · obtain ⟨before, fields, after, rfl⟩ := exists_middle hmem
    rw [h.node, lookup_middle h.nodup]
    rfl
  · have hnone : list.heap other = none :=
      Decidable.byContradiction fun hne => hmem (h.only other hne)
    rw [hnone, lookup_eq_none hmem]
    rfl

theorem rep_update (h : Rep list live) (hmem : state ∈ keys live) (fields : CtcpState) :
    ∃ list', list.setVal state fields = some list' ∧
      Rep list' (live.map fun x => if x.1 = state then (state, fields) else x) := by
  obtain ⟨before, old, after, rfl⟩ := exists_middle hmem
  rw [update_middle h.nodup]
  exact h.setVal fields

theorem rep_destroy (role : Role) (h : Rep list live) (hmem : state ∈ keys live) :
    ∃ list', ctcpDestroyOn role list state = some (list', decide (role = .client)) ∧
      Rep list' (live.filter fun x => x.1 ≠ state) := by
  obtain ⟨before, old, after, rfl⟩ := exists_middle hmem
  obtain ⟨list', hunlink, hrep⟩ := h.unlink
  rw [filter_middle h.nodup]
  refine ⟨list', ?_, hrep⟩
  rw [ctcpDestroyOn, hunlink]
  rfl

/-- **A destroyed state leaves the others alone.** -/
theorem removed_of_destroy {list' : StateList} (h : Rep list live)
    (h' : Rep list' (live.filter fun x => x.1 ≠ state)) : Removed list list' live state where
  walk := fun fuel hfuel => h'.walk (Nat.le_trans (List.length_filter_le _ _) hfuel)
  others := by
    intro other hne
    rw [heap_val h', heap_val h]
    exact lookup_filter live hne

/-! ## Whole runs -/

/-- The list has not been lost, and it holds the states that are alive. -/
def Lives.Inv (t : Lives) : Prop := ∃ list, t.list = some list ∧ Rep list t.live

theorem inv_start : Lives.start.Inv := ⟨Mem.empty, rfl, rep_empty⟩

/-- One call. -/
theorem Lives.Inv.perform (t : Lives) (op : LifeOp) (h : t.Inv) (hop : t.Allowed op) :
    (t.perform role op).Inv := by
  obtain ⟨list, hlist, hrep⟩ := h
  unfold Lives.Inv
  cases op with
  | init state cfg =>
    have hfresh : list.heap state = none := by
      rw [Lives.Allowed, hlist] at hop
      exact hop
    obtain ⟨list', hpush, hrep'⟩ := hrep.pushFront hfresh (ctcpInit cfg)
    refine ⟨list', ?_, hrep'⟩
    rw [Lives.perform, hlist]
    exact hpush
  | update state fields =>
    obtain ⟨list', hset, hrep'⟩ := rep_update hrep hop fields
    refine ⟨list', ?_, hrep'⟩
    rw [Lives.perform, hlist]
    exact hset
  | destroy state =>
    obtain ⟨list', hdestroy, hrep'⟩ := rep_destroy role hrep hop
    refine ⟨list', ?_, hrep'⟩
    rw [Lives.perform, hlist]
    show (ctcpDestroyOn role list state).map Prod.fst = some list'
    rw [hdestroy]
    rfl

/-- **The list holds exactly the states that are alive, after every run, and destroying any one of
    them leaves the others alone.** -/
theorem stateList_sound (role : Role) (ops : List LifeOp)
    (h : Along (Lives.perform role) Lives.Allowed Lives.start ops) :
    let t := run (Lives.perform role) Lives.start ops
    ∃ list, t.list = some list ∧ Listed list t.live ∧
      ∀ state ∈ keys t.live, ∃ list', (t.perform role (.destroy state)).list = some list' ∧
        Removed list list' t.live state := by
  intro t
  have hinv : t.Inv := h.invariant Lives.Inv.perform inv_start
  obtain ⟨list, hlist, hrep⟩ := hinv
  refine ⟨list, hlist, Listed.of_rep hrep, fun state hstate => ?_⟩
  obtain ⟨list', hdestroy, hrep'⟩ := rep_destroy role hrep hstate
  refine ⟨list', ?_, removed_of_destroy hrep hrep'⟩
  rw [Lives.perform, hlist]
  show (ctcpDestroyOn role list state).map Prod.fst = some list'
  rw [hdestroy]
  rfl

/-- Three connections, the second of them destroyed. -/
theorem stateList_sound_three :
    ∃ list, (run (Lives.perform .server) Lives.start
        [.init 1 ctcpCfg, .init 2 ctcpCfg, .init 3 ctcpCfg, .destroy 2]).list = some list ∧
      Listed list [(3, ctcpInit ctcpCfg), (1, ctcpInit ctcpCfg)] := by
  obtain ⟨list, hlist, hlisted, -⟩ := stateList_sound .server
    [.init 1 ctcpCfg, .init 2 ctcpCfg, .init 3 ctcpCfg, .destroy 2]
    ⟨rfl, rfl, rfl, (by decide : 2 ∈ [3, 2, 1]), trivial⟩
  exact ⟨list, hlist, hlisted⟩

end Calls

end Ctcp
