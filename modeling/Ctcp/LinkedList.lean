/-
  The linked lists of `ctcp_linked_list.c`.

  Four functions change a list, and each of them sets up to five pointers, with cases of their own
  for an empty list, the head and the tail.  `linkedList_sound`: in every run of them, on any heap,
  the list holds the objects that a plain list holds under append, prepend, insert-behind and
  delete; read from the head and from the tail it is the same; and `ll_find` finds the first node
  with an object.  `destroy_restores`: whatever has been done to a list, `ll_destroy` frees each of
  its nodes once and nothing else.

  `length` is an `unsigned int`, so it is the number of nodes modulo `2 ^ 32`.
-/
import Ctcp.Lib.DoublyLinked
import Ctcp.Lib.Runs

set_option linter.unusedVariables false

namespace Ctcp

open Runs Keyed DoublyLinked

variable {Obj : Type}

/-! ## The functions

An object is what a non-null `void *` points to; `none` is the null pointer.  Each function returns
the list it leaves behind and the value it returns, and fails when it follows a pointer that must
not be followed. -/

/-- `linked_list_t`, with the nodes that are allocated. -/
structure LinkedList (Obj : Type) where
  mem : Mem Nat Obj
  length : UInt32

/-- `ll_create`. -/
def llCreate (heap : Heap Nat Obj) : LinkedList Obj := ⟨Mem.create heap, 0⟩

/-- `ll_add`; `ll_create_node` returns `node`. -/
def llAdd : Option (LinkedList Obj) → Option Obj → Nat →
    Option (Option (LinkedList Obj) × Option Nat)
  | some list, some object, node =>
    (list.mem.pushBack node object).map fun mem => (some ⟨mem, list.length + 1⟩, some node)
  | list, _, _ => some (list, none)

/-- `ll_add_front`. -/
def llAddFront : Option (LinkedList Obj) → Option Obj → Nat →
    Option (Option (LinkedList Obj) × Option Nat)
  | some list, some object, node =>
    (list.mem.pushFront node object).map fun mem => (some ⟨mem, list.length + 1⟩, some node)
  | list, _, _ => some (list, none)

/-- `ll_add_after`. -/
def llAddAfter : Option (LinkedList Obj) → Option Nat → Option Obj → Nat →
    Option (Option (LinkedList Obj) × Option Nat)
  | some list, some node, some object, newNode =>
    (list.mem.insertAfter node newNode object).map fun mem =>
      (some ⟨mem, list.length + 1⟩, some newNode)
  | list, _, _, _ => some (list, none)

/-- `ll_remove`. -/
def llRemove : Option (LinkedList Obj) → Option Nat →
    Option (Option (LinkedList Obj) × Option Obj)
  | some list, some node =>
    (list.mem.heap node).bind fun old =>
      (list.mem.unlink node).map fun mem => (some ⟨mem, list.length - 1⟩, some old.val)
  | list, _ => some (list, none)

/-- The loop of `ll_find`, with fuel for one node each. -/
def llFindLoop [DecidableEq Obj] (heap : Heap Nat Obj) (object : Obj) :
    Nat → Option Nat → Option (Option Nat)
  | _, none => some none
  | 0, some _ => none
  | fuel + 1, some curr =>
    (heap curr).bind fun node =>
      if node.val = object then some (some curr) else llFindLoop heap object fuel node.next

/-- `ll_find`. -/
def llFind [DecidableEq Obj] (fuel : Nat) : Option (LinkedList Obj) → Option Obj →
    Option (Option Nat)
  | some list, some object => llFindLoop list.mem.heap object fuel list.mem.head
  | _, _ => some none

/-- `ll_front`. -/
def llFront (list : LinkedList Obj) : Option Nat := list.mem.head

/-- `ll_back`. -/
def llBack (list : LinkedList Obj) : Option Nat := list.mem.tail

/-- `ll_length`. -/
def llLength (list : LinkedList Obj) : UInt32 := list.length

/-- The loop of `ll_destroy`, with fuel for one node each. -/
def llDestroyLoop : Nat → Mem Nat Obj → Option Nat → Option (Heap Nat Obj)
  | _, mem, none => some mem.heap
  | 0, _, some _ => none
  | fuel + 1, mem, some curr =>
    (mem.heap curr).bind fun node => llDestroyLoop fuel (mem.free curr) node.next

/-- `ll_destroy`: the nodes that are left. -/
def llDestroy (fuel : Nat) : Option (LinkedList Obj) → Option (Option (Heap Nat Obj))
  | some list => (llDestroyLoop fuel list.mem list.mem.head).map some
  | none => some none

/-! ## Runs -/

/-- A call; `calloc` returns the first address, or the second of `addAfter`. -/
inductive ListOp (Obj : Type) where
  | add (node : Nat) (object : Obj)
  | addFront (node : Nat) (object : Obj)
  | addAfter (node newNode : Nat) (object : Obj)
  | remove (node : Nat)
  deriving DecidableEq, Repr

/-- The list, which is lost once a pointer has been followed that must not be, and the nodes that
    it should hold. -/
structure Tracked (Obj : Type) where
  list : Option (LinkedList Obj)
  nodes : List (Nat × Obj)

/-- After `ll_create`. -/
def Tracked.create (heap : Heap Nat Obj) : Tracked Obj := ⟨some (llCreate heap), []⟩

/-- One call, on the list and on the sequence. -/
def Tracked.perform (t : Tracked Obj) : ListOp Obj → Tracked Obj
  | .add node object =>
    { list := (llAdd t.list (some object) node).bind Prod.fst
      nodes := t.nodes ++ [(node, object)] }
  | .addFront node object =>
    { list := (llAddFront t.list (some object) node).bind Prod.fst
      nodes := (node, object) :: t.nodes }
  | .addAfter node newNode object =>
    { list := (llAddAfter t.list (some node) (some object) newNode).bind Prod.fst
      nodes := insertBehind node (newNode, object) t.nodes }
  | .remove node =>
    { list := (llRemove t.list (some node)).bind Prod.fst
      nodes := t.nodes.filter fun x => x.1 ≠ node }

/-- `calloc` does not return an address that is in use. -/
def Tracked.Fresh (t : Tracked Obj) (node : Nat) : Prop :=
  (t.list.bind fun list => list.mem.heap node) = none

/-- The nodes that are passed are in the list. -/
def Tracked.Allowed (t : Tracked Obj) : ListOp Obj → Prop
  | .add node _ => t.Fresh node
  | .addFront node _ => t.Fresh node
  | .addAfter node newNode _ => node ∈ keys t.nodes ∧ t.Fresh newNode
  | .remove node => node ∈ keys t.nodes

/-- **What the list is**, when it holds `nodes` on top of `heap`. -/
structure Represents [DecidableEq Obj] (heap : Heap Nat Obj) (list : LinkedList Obj)
    (nodes : List (Nat × Obj)) : Prop where
  /-- Following `next` from the head. -/
  forward : ∀ fuel, nodes.length ≤ fuel → list.mem.walk Node.next fuel (llFront list) = some nodes
  /-- Following `prev` from the tail. -/
  backward : ∀ fuel, nodes.length ≤ fuel →
    list.mem.walk Node.prev fuel (llBack list) = some nodes.reverse
  nodup : (keys nodes).Nodup
  empty : (llFront list = none ↔ nodes = []) ∧ (llBack list = none ↔ nodes = [])
  length : llLength list = UInt32.ofNat nodes.length
  /-- The first node with the object, if there is one. -/
  find : ∀ object fuel, nodes.length ≤ fuel →
    llFind fuel (some list) (some object)
      = some ((nodes.find? fun x => x.2 = object).map Prod.fst)
  /-- The nodes of other lists are as they were. -/
  others : ∀ node, heap node ≠ none → list.mem.heap node = heap node
  /-- Every node that is no longer in the list has been freed. -/
  freed : ∀ node, heap node = none → node ∉ keys nodes → list.mem.heap node = none

/-! ## One call -/

/-- What a run keeps. -/
structure ListInv (heap : Heap Nat Obj) (list : LinkedList Obj) (nodes : List (Nat × Obj)) :
    Prop where
  rep : Rep list.mem nodes
  length : list.length = UInt32.ofNat nodes.length
  others : ∀ node, heap node ≠ none → list.mem.heap node = heap node
  disjoint : ∀ node ∈ keys nodes, heap node = none
  only : ∀ node, heap node = none → node ∉ keys nodes → list.mem.heap node = none

section Calls

variable {heap : Heap Nat Obj} {list : LinkedList Obj} {nodes nodes' : List (Nat × Obj)}
  {mem : Mem Nat Obj} {node newNode : Nat} {object : Obj}

theorem listInv_create (heap : Heap Nat Obj) : ListInv heap (llCreate heap) [] :=
  ⟨rep_create heap, rfl, fun _ _ => rfl, fun _ h => absurd h List.not_mem_nil, fun _ h _ => h⟩

/-- One node more. -/
theorem ListInv.added (h : ListInv heap list nodes) (hfresh : list.mem.heap node = none)
    (hrep : Rep mem nodes') (hperm : nodes'.Perm ((node, object) :: nodes))
    (hsame : SameOutside (node :: keys nodes) list.mem.heap mem.heap) :
    ListInv heap ⟨mem, list.length + 1⟩ nodes' := by
  have hheap : heap node = none := by
    refine Decidable.byContradiction fun hne => hne ?_
    rw [← h.others node hne, hfresh]
  have hnew : ∀ a ∈ node :: keys nodes, heap a = none := by
    intro a ha
    rcases List.mem_cons.mp ha with rfl | hold
    · exact hheap
    · exact h.disjoint a hold
  have hmem : ∀ a, a ∈ keys nodes' ↔ a ∈ node :: keys nodes :=
    fun a => (hperm.map Prod.fst).mem_iff
  refine ⟨hrep, ?_, ?_, ?_, ?_⟩
  · show list.length + 1 = UInt32.ofNat nodes'.length
    rw [h.length, hperm.length_eq, List.length_cons, UInt32.ofNat_add]
    rfl
  · intro a ha
    exact (hsame a (fun hmem => ha (hnew a hmem))).trans (h.others a ha)
  · intro a ha
    exact hnew a ((hmem a).mp ha)
  · intro a hnone hout
    rw [hmem] at hout
    rw [hsame a hout]
    exact h.only a hnone (fun hold => hout (List.mem_cons_of_mem _ hold))

/-- `ll_add` puts the object at the end. -/
theorem llAdd_inv (h : ListInv heap list nodes) (hfresh : list.mem.heap node = none)
    (object : Obj) :
    ∃ list', llAdd (some list) (some object) node = some (some list', some node) ∧
      ListInv heap list' (nodes ++ [(node, object)]) := by
  obtain ⟨mem, hadd, hrep, hsame⟩ := h.rep.pushBack hfresh object
  refine ⟨⟨mem, list.length + 1⟩, ?_,
    h.added hfresh hrep (List.perm_append_singleton _ _) hsame⟩
  rw [llAdd, hadd]
  rfl

/-- `ll_add_front` puts it in front. -/
theorem llAddFront_inv (h : ListInv heap list nodes) (hfresh : list.mem.heap node = none)
    (object : Obj) :
    ∃ list', llAddFront (some list) (some object) node = some (some list', some node) ∧
      ListInv heap list' ((node, object) :: nodes) := by
  obtain ⟨mem, hadd, hrep, hsame⟩ := h.rep.pushFront hfresh object
  refine ⟨⟨mem, list.length + 1⟩, ?_, h.added hfresh hrep (List.Perm.refl _) hsame⟩
  rw [llAddFront, hadd]
  rfl

/-- `ll_add_after` puts it behind the node. -/
theorem llAddAfter_inv (h : ListInv heap list nodes) (hnode : node ∈ keys nodes)
    (hfresh : list.mem.heap newNode = none) (object : Obj) :
    ∃ list', llAddAfter (some list) (some node) (some object) newNode
        = some (some list', some newNode) ∧
      ListInv heap list' (insertBehind node (newNode, object) nodes) := by
  obtain ⟨mem, hadd, hrep, hsame⟩ := h.rep.insertBehind hnode hfresh object
  refine ⟨⟨mem, list.length + 1⟩, ?_,
    h.added hfresh hrep (insertBehind_perm hnode _) hsame⟩
  rw [llAddAfter, hadd]
  rfl

/-- `ll_remove` takes the node out and returns its object. -/
theorem llRemove_inv (h : ListInv heap list nodes) (hnode : node ∈ keys nodes) :
    ∃ list' object, llRemove (some list) (some node) = some (some list', some object) ∧
      (node, object) ∈ nodes ∧ ListInv heap list' (nodes.filter fun x => x.1 ≠ node) ∧
      list'.mem.heap node = none := by
  obtain ⟨old, mem, hold, hperm, hunlink, hrep, hfree, hsame⟩ := h.rep.filter hnode
  have hmem : ∀ a, a ∈ keys nodes ↔ a ∈ node :: keys (nodes.filter fun x => x.1 ≠ node) :=
    fun a => (hperm.map Prod.fst).mem_iff
  refine ⟨⟨mem, list.length - 1⟩, old.val, ?_, hperm.mem_iff.mpr List.mem_cons_self,
    ⟨hrep, ?_, ?_, ?_, ?_⟩, hfree⟩
  · rw [llRemove, hold]
    show (list.mem.unlink node).map _ = _
    rw [hunlink]
    rfl
  · show list.length - 1 = UInt32.ofNat (nodes.filter fun x => x.1 ≠ node).length
    rw [h.length, hperm.length_eq, List.length_cons, UInt32.ofNat_add]
    exact UInt32.add_sub_cancel _ _
  · intro a ha
    exact (hsame a (fun hmem => ha (h.disjoint a hmem))).trans (h.others a ha)
  · intro a ha
    exact h.disjoint a ((hmem a).mpr (List.mem_cons_of_mem _ ha))
  · intro a hnone hout
    by_cases heq : a = node
    · exact heq ▸ hfree
    · have hold : a ∉ keys nodes := by
        rw [hmem, List.mem_cons]
        exact fun hin => hin.elim heq hout
      exact (hsame a hold).trans (h.only a hnone hold)

/-- **`ll_find` goes through the nodes in order.** -/
theorem llFindLoop_eq [DecidableEq Obj] (object : Obj) {before : Option Nat}
    (h : Seg heap before nodes none) (n : Nat) :
    llFindLoop heap object (nodes.length + n) (first nodes none)
      = some ((nodes.find? fun x => x.2 = object).map Prod.fst) := by
  induction nodes generalizing before with
  | nil => cases n <;> rfl
  | cons x rest ih =>
    obtain ⟨a, v⟩ := x
    obtain ⟨hnode, hrest⟩ := h
    have hfuel : ((a, v) :: rest).length + n = rest.length + n + 1 := Nat.succ_add _ _
    rw [hfuel, first, llFindLoop, hnode]
    show (if v = object then some (some a)
      else llFindLoop heap object (rest.length + n) (first rest none)) = _
    by_cases hv : v = object
    · -- this node holds the object
      rw [if_pos hv, List.find?_cons_of_pos (by simpa using hv)]
      rfl
    · rw [if_neg hv, ih hrest, List.find?_cons_of_neg (by simpa using hv)]

theorem ListInv.represents [DecidableEq Obj] (h : ListInv heap list nodes) :
    Represents heap list nodes where
  forward := fun fuel hfuel => h.rep.walk_next hfuel
  backward := fun fuel hfuel => h.rep.walk_prev hfuel
  nodup := h.rep.nodup
  empty := h.rep.empty_iff
  length := h.length
  find := by
    intro object fuel hfuel
    rw [llFind, h.rep.head, ← Nat.add_sub_cancel' hfuel]
    exact llFindLoop_eq object h.rep.seg _
  others := h.others
  freed := h.only

end Calls

/-! ## Whole runs -/

/-- The list has not been lost, and it holds the nodes. -/
def Tracked.Inv (heap : Heap Nat Obj) (t : Tracked Obj) : Prop :=
  ∃ list, t.list = some list ∧ ListInv heap list t.nodes

/-- One call. -/
theorem inv_perform {heap : Heap Nat Obj} (t : Tracked Obj) (op : ListOp Obj) (h : t.Inv heap)
    (hop : t.Allowed op) : (t.perform op).Inv heap := by
  obtain ⟨list, hlist, hinv⟩ := h
  have hfresh : ∀ {node}, t.Fresh node → list.mem.heap node = none := by
    intro node hnode
    rw [Tracked.Fresh, hlist] at hnode
    exact hnode
  unfold Tracked.Inv
  cases op with
  | add node object =>
    obtain ⟨list', hadd, hinv'⟩ := llAdd_inv hinv (hfresh hop) object
    refine ⟨list', ?_, hinv'⟩
    rw [Tracked.perform, hlist, hadd]
    rfl
  | addFront node object =>
    obtain ⟨list', hadd, hinv'⟩ := llAddFront_inv hinv (hfresh hop) object
    refine ⟨list', ?_, hinv'⟩
    rw [Tracked.perform, hlist, hadd]
    rfl
  | addAfter node newNode object =>
    obtain ⟨list', hadd, hinv'⟩ := llAddAfter_inv hinv hop.1 (hfresh hop.2) object
    refine ⟨list', ?_, hinv'⟩
    rw [Tracked.perform, hlist, hadd]
    rfl
  | remove node =>
    obtain ⟨list', object, hremove, -, hinv', -⟩ := llRemove_inv hinv hop
    refine ⟨list', ?_, hinv'⟩
    rw [Tracked.perform, hlist, hremove]
    rfl

theorem inv_run {heap : Heap Nat Obj} {ops : List (ListOp Obj)}
    (h : Along Tracked.perform Tracked.Allowed (Tracked.create heap) ops) :
    (run Tracked.perform (Tracked.create heap) ops).Inv heap :=
  h.invariant inv_perform ⟨llCreate heap, rfl, listInv_create heap⟩

/-- **The list is the list it should be, after every run.** -/
theorem linkedList_sound [DecidableEq Obj] (heap : Heap Nat Obj) (ops : List (ListOp Obj))
    (h : Along Tracked.perform Tracked.Allowed (Tracked.create heap) ops) :
    ∃ list, (run Tracked.perform (Tracked.create heap) ops).list = some list ∧
      Represents heap list (run Tracked.perform (Tracked.create heap) ops).nodes := by
  obtain ⟨list, hlist, hinv⟩ := inv_run h
  exact ⟨list, hlist, hinv.represents⟩

/-- Four calls, one of each kind. -/
theorem linkedList_sound_mixed :
    ∃ list, (run Tracked.perform (Tracked.create fun _ => none)
        [.add 1 10, .addFront 2 20, .addAfter 2 3 30, .remove 1]).list = some list ∧
      Represents (fun _ => none) list [(2, 20), (3, 30)] :=
  linkedList_sound (fun _ => none) [.add 1 10, .addFront 2 20, .addAfter 2 3 30, .remove 1]
    ⟨rfl, rfl, ⟨(by decide : 2 ∈ [2, 1]), rfl⟩, (by decide : 1 ∈ [2, 3, 1]), trivial⟩

/-! ## The end of a list -/

/-- **`ll_destroy` frees the nodes in order**, each once, and reads none that is freed. -/
theorem llDestroyLoop_eq {nodes : List (Nat × Obj)} {mem : Mem Nat Obj} {before : Option Nat}
    (hseg : Seg mem.heap before nodes none) (hnodup : (keys nodes).Nodup) (n : Nat) :
    llDestroyLoop (nodes.length + n) mem (first nodes none)
      = some fun b => if b ∈ keys nodes then none else mem.heap b := by
  induction nodes generalizing mem before with
  | nil =>
    have hsame : (fun b => if b ∈ keys ([] : List (Nat × Obj)) then none else mem.heap b)
        = mem.heap := funext fun b => if_neg List.not_mem_nil
    rw [hsame]
    cases n <;> rfl
  | cons x rest ih =>
    obtain ⟨a, v⟩ := x
    obtain ⟨hnode, hrest⟩ := hseg
    obtain ⟨hout, hnodup'⟩ := List.nodup_cons.mp hnodup
    have hfuel : ((a, v) :: rest).length + n = rest.length + n + 1 := Nat.succ_add _ _
    -- the rest of the list is not touched by the first `free`
    have hrest' : Seg (mem.free a).heap (some a) rest none := by
      refine hrest.congr fun b hb => ?_
      have hne : b ≠ a := by
        rintro rfl
        exact hout hb
      exact if_neg hne
    rw [hfuel, first, llDestroyLoop, hnode, Option.bind_some, ih hrest' hnodup']
    refine congrArg some (funext fun b => ?_)
    have hcons : b ∈ keys ((a, v) :: rest) ↔ b = a ∨ b ∈ keys rest := List.mem_cons
    by_cases hb : b ∈ keys rest
    · rw [if_pos hb, if_pos (hcons.mpr (Or.inr hb))]
    · rw [if_neg hb]
      by_cases heq : b = a
      · rw [if_pos (hcons.mpr (Or.inl heq))]
        exact if_pos heq
      · rw [if_neg (fun hmem => (hcons.mp hmem).elim heq hb)]
        exact if_neg heq

/-- **Nothing is left of a list, and nothing else is gone**: after any run, `ll_destroy` leaves the
    nodes that were there before `ll_create`. -/
theorem destroy_restores (heap : Heap Nat Obj) (ops : List (ListOp Obj))
    (h : Along Tracked.perform Tracked.Allowed (Tracked.create heap) ops) {fuel : Nat}
    (hfuel : (run Tracked.perform (Tracked.create heap) ops).nodes.length ≤ fuel) :
    llDestroy fuel (run Tracked.perform (Tracked.create heap) ops).list = some (some heap) := by
  obtain ⟨list, hlist, hinv⟩ := inv_run h
  generalize run Tracked.perform (Tracked.create heap) ops = t at hlist hinv hfuel
  have hloop := llDestroyLoop_eq hinv.rep.seg hinv.rep.nodup (fuel - t.nodes.length)
  rw [Nat.add_sub_cancel' hfuel] at hloop
  have hheap : (fun b => if b ∈ keys t.nodes then none else list.mem.heap b) = heap := by
    funext b
    by_cases hb : b ∈ keys t.nodes
    · rw [if_pos hb, hinv.disjoint b hb]
    · rw [if_neg hb]
      cases hold : heap b with
      | none => exact hinv.only b hold hb
      | some node => exact (hinv.others b (by rw [hold]; exact Option.some_ne_none _)).trans hold
  rw [hlist, llDestroy, hinv.rep.head, hloop, hheap]
  rfl

/-- A node of another list. -/
def otherNode : Heap Nat Nat := fun node => if node = 7 then some ⟨none, none, 70⟩ else none

theorem destroy_restores_beside :
    llDestroy 2 (run Tracked.perform (Tracked.create otherNode)
      [.add 1 10, .addFront 2 20, .addAfter 2 3 30, .remove 1]).list = some (some otherNode) :=
  destroy_restores otherNode [.add 1 10, .addFront 2 20, .addAfter 2 3 30, .remove 1]
    ⟨rfl, rfl, ⟨(by decide : 2 ∈ [2, 1]), rfl⟩, (by decide : 1 ∈ [2, 3, 1]), trivial⟩
    (Nat.le_refl 2)

/-! ## The length -/

/-- `n` calls of `ll_add`. -/
def adds (n : Nat) : List (ListOp Unit) := (List.range n).map fun node => .add node ()

theorem adds_succ (n : Nat) : adds (n + 1) = adds n ++ [.add n ()] := by
  rw [adds, List.range_succ, List.map_append]
  rfl

/-- They are allowed, one after the other, and leave `n` nodes. -/
theorem allowed_adds (n : Nat) :
    Along Tracked.perform Tracked.Allowed (Tracked.create fun _ => none) (adds n) ∧
      keys (run Tracked.perform (Tracked.create fun _ => none) (adds n)).nodes
        = List.range n := by
  induction n with
  | zero => exact ⟨trivial, rfl⟩
  | succ n ih =>
    obtain ⟨hallowed, hnodes⟩ := ih
    obtain ⟨list, hlist, hinv⟩ := inv_run hallowed
    rw [adds_succ, along_append, run_append]
    generalize run Tracked.perform (Tracked.create fun _ => none) (adds n) = t at *
    refine ⟨⟨hallowed, ?_, trivial⟩, ?_⟩
    · -- the address `n` has not been used
      show (t.list.bind fun list => list.mem.heap n) = none
      rw [hlist]
      refine hinv.only n rfl ?_
      rw [hnodes, List.mem_range]
      exact Nat.lt_irrefl n
    · show keys (t.nodes ++ [(n, ())]) = List.range (n + 1)
      rw [keys_append, hnodes, List.range_succ]
      rfl

/-- After `2 ^ 32` calls of `ll_add` there are `2 ^ 32` nodes, and `ll_length` returns 0. -/
theorem length_wraps :
    Along Tracked.perform Tracked.Allowed (Tracked.create fun _ => none) (adds 4294967296) ∧
      ∃ list, (run Tracked.perform (Tracked.create fun _ => none) (adds 4294967296)).list
          = some list ∧
        list.mem.walk Node.next 4294967296 (llFront list)
          = some (run Tracked.perform (Tracked.create fun _ => none) (adds 4294967296)).nodes ∧
        (run Tracked.perform (Tracked.create fun _ => none) (adds 4294967296)).nodes.length
          = 4294967296 ∧
        (llLength list).toNat = 0 := by
  generalize hn : 4294967296 = n
  obtain ⟨hallowed, hnodes⟩ := allowed_adds n
  obtain ⟨list, hlist, hinv⟩ := inv_run hallowed
  have hlen : (run Tracked.perform (Tracked.create fun _ => none) (adds n)).nodes.length = n := by
    have hcount := congrArg List.length hnodes
    rw [List.length_map, List.length_range] at hcount
    exact hcount
  refine ⟨hallowed, list, hlist, hinv.represents.forward n (Nat.le_of_eq hlen), hlen, ?_⟩
  rw [llLength, hinv.length, hlen, ← hn]
  rfl

end Ctcp
