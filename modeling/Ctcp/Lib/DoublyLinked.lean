/-
  Doubly linked lists with a head and a tail, as C programs write them:

      struct node { struct node *next; struct node *prev; void *object; };
      struct list { struct node *head; struct node *tail; };

  A `Mem` is the two pointers of one list and a heap of nodes, which other lists may share; an
  access to a null or freed node fails.  `Rep m l` says that `m` holds the nodes of `l` in this
  order, with the links set in both directions:

  * `Rep.pushBack`, `Rep.pushFront` — a new node goes to the end, to the front;
  * `Rep.insertAfter` — a new node goes behind the last node of `l₁`, in `l₁ ++ l₂`;
  * `Rep.unlink` — taking a node out of `l₁ ++ (a, v) :: l₂` leaves `l₁ ++ l₂`, wherever it stood;
  * `Rep.insertBehind`, `Rep.filter` — the same for a node given by its address;
  * `Rep.walk_next`, `Rep.walk_prev` — the list, read from the head and from the tail.

  None of them fails on a list that is represented, and none touches a node of another list
  (`SameOutside`).
-/
import Mathlib.Data.List.Induction
import Ctcp.Lib.Keyed

set_option linter.unusedVariables false

namespace DoublyLinked

open Keyed

variable {Addr α : Type}

/-! ## Memory -/

/-- A node. -/
structure Node (Addr α : Type) where
  next : Option Addr
  prev : Option Addr
  val : α
  deriving DecidableEq, Repr

/-- The nodes that are allocated. -/
abbrev Heap (Addr α : Type) := Addr → Option (Node Addr α)

/-- The two pointers of a list, and the nodes. -/
structure Mem (Addr α : Type) where
  head : Option Addr
  tail : Option Addr
  heap : Heap Addr α

namespace Mem

/-- A list without nodes. -/
def create (heap : Heap Addr α) : Mem Addr α := ⟨none, none, heap⟩

/-- The nodes that `link` leads to, from `p` on, with fuel for one node each. -/
def walk (m : Mem Addr α) (link : Node Addr α → Option Addr) :
    Nat → Option Addr → Option (List (Addr × α))
  | _, none => some []
  | 0, some _ => none
  | fuel + 1, some a =>
    (m.heap a).bind fun node => (m.walk link fuel (link node)).map fun l => (a, node.val) :: l

variable [DecidableEq Addr]

/-- Write a whole node. -/
def write (m : Mem Addr α) (a : Addr) (node : Node Addr α) : Mem Addr α :=
  { m with heap := fun b => if b = a then some node else m.heap b }

/-- `free(node)`. -/
def free (m : Mem Addr α) (a : Addr) : Mem Addr α :=
  { m with heap := fun b => if b = a then none else m.heap b }

/-- `p->next = q`. -/
def setNext (m : Mem Addr α) (p q : Option Addr) : Option (Mem Addr α) :=
  p.bind fun a => (m.heap a).map fun node => m.write a { node with next := q }

/-- `p->prev = q`. -/
def setPrev (m : Mem Addr α) (p q : Option Addr) : Option (Mem Addr α) :=
  p.bind fun a => (m.heap a).map fun node => m.write a { node with prev := q }

/-- Put the new node `a` at the end. -/
def pushBack (m : Mem Addr α) (a : Addr) (v : α) : Option (Mem Addr α) :=
  let m := m.write a ⟨none, none, v⟩
  if m.head = none then some { m with head := some a, tail := some a }
  else
    (m.setNext m.tail (some a)).bind fun m =>
      (m.setPrev (some a) m.tail).map fun m => { m with tail := some a }

/-- Put the new node `a` in front. -/
def pushFront (m : Mem Addr α) (a : Addr) (v : α) : Option (Mem Addr α) :=
  let m := m.write a ⟨none, none, v⟩
  if m.head = none then some { m with head := some a, tail := some a }
  else
    (m.setNext (some a) m.head).bind fun m =>
      (m.setPrev m.head (some a)).map fun m => { m with head := some a }

/-- Put the new node `a` behind the node `b`. -/
def insertAfter (m : Mem Addr α) (b a : Addr) (v : α) : Option (Mem Addr α) :=
  (m.heap b).bind fun node =>
    let m := m.write a ⟨node.next, some b, v⟩
    (if node.next = none then some m else m.setPrev node.next (some a)).bind fun m =>
      (m.setNext (some b) (some a)).map fun m =>
        if m.tail = some b then { m with tail := some a } else m

/-- Take the node `a` out, and free it. -/
def unlink (m : Mem Addr α) (a : Addr) : Option (Mem Addr α) :=
  (m.heap a).bind fun node =>
    (if m.head = some a then some { m with head := node.next }
      else m.setNext node.prev node.next).bind fun m =>
    (m.heap a).bind fun node =>
      (if m.tail = some a then some { m with tail := node.prev }
        else m.setPrev node.next node.prev).map fun m => m.free a

variable {m : Mem Addr α} {a b : Addr} {node : Node Addr α} {q : Option Addr}

@[simp] theorem write_head : (m.write a node).head = m.head := rfl
@[simp] theorem write_tail : (m.write a node).tail = m.tail := rfl
@[simp] theorem write_same : (m.write a node).heap a = some node := if_pos rfl
@[simp] theorem free_same : (m.free a).heap a = none := if_pos rfl

theorem write_other (h : b ≠ a) : (m.write a node).heap b = m.heap b := if_neg h

theorem free_other (h : b ≠ a) : (m.free a).heap b = m.heap b := if_neg h

theorem setNext_eq (h : m.heap a = some node) :
    m.setNext (some a) q = some (m.write a { node with next := q }) := by
  show (m.heap a).map _ = _
  rw [h]
  rfl

theorem setPrev_eq (h : m.heap a = some node) :
    m.setPrev (some a) q = some (m.write a { node with prev := q }) := by
  show (m.heap a).map _ = _
  rw [h]
  rfl

end Mem

/-! ## Segments of a list -/

/-- The first node of `l`, or what follows. -/
def first : List (Addr × α) → Option Addr → Option Addr
  | [], after => after
  | (a, _) :: _, _ => some a

/-- The last node of `l`, or what stands before. -/
def last : Option Addr → List (Addr × α) → Option Addr
  | before, [] => before
  | _, (a, _) :: rest => last (some a) rest

/-- The nodes of `l` in this order, between `before` and `after`. -/
def Seg (heap : Heap Addr α) : Option Addr → List (Addr × α) → Option Addr → Prop
  | _, [], _ => True
  | before, (a, v) :: rest, after =>
    heap a = some ⟨first rest after, before, v⟩ ∧ Seg heap (some a) rest after

/-- Only nodes of `as` have changed. -/
def SameOutside (as : List Addr) (heap heap' : Heap Addr α) : Prop :=
  ∀ b, b ∉ as → heap' b = heap b

section Seg

variable {m m' : Mem Addr α} {heap heap' : Heap Addr α} {before after : Option Addr}
  {l l₁ l₂ : List (Addr × α)} {a b : Addr} {v : α}

@[simp] theorem first_append : first (l₁ ++ l₂) after = first l₁ (first l₂ after) := by
  cases l₁ with
  | nil => rfl
  | cons x rest => rfl

@[simp] theorem last_append : last before (l₁ ++ l₂) = last (last before l₁) l₂ := by
  induction l₁ generalizing before with
  | nil => rfl
  | cons x rest ih => exact ih

theorem first_middle : first (l₁ ++ (a, v) :: l₂) after = first l₁ (some a) := by
  rw [first_append]
  rfl

theorem last_middle : last before (l₁ ++ (a, v) :: l₂) = last (some a) l₂ := by
  rw [last_append]
  rfl

/-- What follows does not matter when there is a node. -/
theorem first_congr (hl : l ≠ []) (after after' : Option Addr) :
    first l after = first l after' := by
  cases l with
  | nil => exact absurd rfl hl
  | cons x rest => rfl

theorem last_congr (hl : l ≠ []) (before before' : Option Addr) :
    last before l = last before' l := by
  cases l with
  | nil => exact absurd rfl hl
  | cons x rest => rfl

theorem first_eq_none : first l none = none ↔ l = [] := by
  cases l with
  | nil => exact iff_of_true rfl rfl
  | cons x rest => exact iff_of_false (Option.some_ne_none _) (List.cons_ne_nil _ _)

theorem last_eq_none : last none l = none ↔ l = [] := by
  induction l using List.reverseRecOn with
  | nil => exact iff_of_true rfl rfl
  | append_singleton l x _ =>
    rw [last_append]
    exact iff_of_false (Option.some_ne_none _) (by simp)

theorem mem_of_first (h : first l none = some a) : a ∈ keys l := by
  cases l with
  | nil => cases h
  | cons x rest =>
    obtain rfl := Option.some.inj h
    exact List.mem_cons_self

theorem mem_of_last (h : last none l = some a) : a ∈ keys l := by
  rcases List.eq_nil_or_concat l with rfl | ⟨rest, x, rfl⟩
  · cases h
  · rw [List.concat_eq_append, last_append] at h
    obtain rfl := Option.some.inj h
    simp [keys]

/-- Two segments and the links between them. -/
theorem seg_append :
    Seg heap before (l₁ ++ l₂) after ↔
      Seg heap before l₁ (first l₂ after) ∧ Seg heap (last before l₁) l₂ after := by
  induction l₁ generalizing before with
  | nil => simp [Seg, last]
  | cons x rest ih => simp [Seg, last, ih, and_assoc]

/-- A segment depends on its own nodes only. -/
theorem Seg.congr (hsame : ∀ b ∈ keys l, heap' b = heap b) (h : Seg heap before l after) :
    Seg heap' before l after := by
  induction l generalizing before with
  | nil => trivial
  | cons x rest ih =>
    refine ⟨?_, ih (fun b hb => hsame b (List.mem_cons_of_mem _ hb)) h.2⟩
    rw [hsame x.1 List.mem_cons_self]
    exact h.1

/-- The last node of a segment points to what follows. -/
theorem Seg.next_of_last (h : Seg heap none l after) (hlast : last none l = some a) :
    ∃ node, heap a = some node ∧ node.next = after := by
  rcases List.eq_nil_or_concat l with rfl | ⟨rest, ⟨b, w⟩, rfl⟩
  · cases hlast
  · rw [List.concat_eq_append] at h hlast
    rw [last_append] at hlast
    obtain rfl := Option.some.inj hlast
    exact ⟨_, (seg_append.mp h).2.1, rfl⟩

/-- No node of a segment is fresh. -/
theorem Seg.not_mem (h : Seg heap before l after) (hfresh : heap a = none) : a ∉ keys l := by
  intro hmem
  obtain ⟨⟨_, w⟩, hx, rfl⟩ := List.mem_map.mp hmem
  obtain ⟨l₁, l₂, rfl⟩ := List.append_of_mem hx
  have hnode := (seg_append.mp h).2.1
  rw [hfresh] at hnode
  cases hnode

theorem SameOutside.trans {heap'' : Heap Addr α} {as : List Addr} (h : SameOutside as heap heap')
    (h' : SameOutside as heap' heap'') : SameOutside as heap heap'' :=
  fun b hb => (h' b hb).trans (h b hb)

theorem SameOutside.mono {as as' : List Addr} (h : SameOutside as heap heap') (hsub : as ⊆ as') :
    SameOutside as' heap heap' :=
  fun b hb => h b (fun hmem => hb (hsub hmem))

/-- A segment next to what has changed. -/
theorem SameOutside.seg {as : List Addr} (h : SameOutside as heap heap')
    (hdisj : (keys l).Disjoint as) (hseg : Seg heap before l after) : Seg heap' before l after :=
  hseg.congr fun b hb => h b (fun hmem => hdisj hb hmem)

/-- Only nodes of `as` have changed, and neither pointer of the list. -/
structure Touches (as : List Addr) (m m' : Mem Addr α) : Prop where
  head : m'.head = m.head
  tail : m'.tail = m.tail
  heap : SameOutside as m.heap m'.heap

variable [DecidableEq Addr]

theorem touches_write (m : Mem Addr α) (a : Addr) (node : Node Addr α) :
    Touches [a] m (m.write a node) :=
  ⟨rfl, rfl, fun _ hb => Mem.write_other (fun heq => hb (heq ▸ List.mem_cons_self))⟩

/-- `setNext` at the last node changes what follows a segment. -/
theorem Seg.setNext (h : Seg m.heap before l after) (hnd : (keys l).Nodup) (hl : l ≠ [])
    (after' : Option Addr) :
    ∃ m', m.setNext (last none l) after' = some m' ∧ Touches (keys l) m m' ∧
      Seg m'.heap before l after' := by
  rcases List.eq_nil_or_concat l with rfl | ⟨rest, ⟨a, v⟩, rfl⟩
  · exact absurd rfl hl
  · rw [List.concat_eq_append] at h hnd ⊢
    obtain ⟨hfront, hnode, -⟩ := seg_append.mp h
    have htouch := touches_write m a ⟨after', last before rest, v⟩
    have hdisj : (keys rest).Disjoint [a] := (nodup_keys_append.mp hnd).2.2
    rw [last_append]
    refine ⟨_, Mem.setNext_eq hnode, ⟨rfl, rfl, htouch.heap.mono ?_⟩,
      seg_append.mpr ⟨htouch.heap.seg hdisj hfront, Mem.write_same, trivial⟩⟩
    have hsub : keys [(a, v)] ⊆ keys (rest ++ [(a, v)]) := keys_subset_right
    exact hsub

/-- `setPrev` at the first node changes what stands before a segment. -/
theorem Seg.setPrev (h : Seg m.heap before l after) (hnd : (keys l).Nodup) (hl : l ≠ [])
    (before' : Option Addr) :
    ∃ m', m.setPrev (first l none) before' = some m' ∧ Touches (keys l) m m' ∧
      Seg m'.heap before' l after := by
  cases l with
  | nil => exact absurd rfl hl
  | cons x rest =>
    obtain ⟨a, v⟩ := x
    obtain ⟨hnode, hrest⟩ := h
    have htouch := touches_write m a ⟨first rest after, before', v⟩
    have hdisj : (keys rest).Disjoint [a] :=
      List.disjoint_singleton.mpr (List.nodup_cons.mp hnd).1
    refine ⟨_, Mem.setPrev_eq hnode, ⟨rfl, rfl, htouch.heap.mono ?_⟩, Mem.write_same,
      htouch.heap.seg hdisj hrest⟩
    exact List.cons_subset_cons _ (List.nil_subset _)

/-- The same where there may be no node. -/
theorem Seg.setPrev_or (h : Seg m.heap before l none) (hnd : (keys l).Nodup)
    (before' : Option Addr) :
    ∃ m', (if first l none = none then some m else m.setPrev (first l none) before') = some m' ∧
      Touches (keys l) m m' ∧ Seg m'.heap before' l none := by
  by_cases hl : l = []
  · subst hl
    exact ⟨m, if_pos rfl, ⟨rfl, rfl, fun _ _ => rfl⟩, trivial⟩
  · rw [if_neg (fun hnil => hl (first_eq_none.mp hnil))]
    exact h.setPrev hnd hl before'

end Seg

/-! ## Whole lists -/

/-- **The memory holds the list `l`**: its nodes in this order, linked in both directions. -/
structure Rep (m : Mem Addr α) (l : List (Addr × α)) : Prop where
  nodup : (keys l).Nodup
  head : m.head = first l none
  tail : m.tail = last none l
  seg : Seg m.heap none l none

section Rep

variable {m : Mem Addr α} {l l₁ l₂ : List (Addr × α)} {a b : Addr} {v w : α}

theorem rep_create (heap : Heap Addr α) : Rep (Mem.create heap) [] :=
  ⟨List.nodup_nil, rfl, rfl, trivial⟩

/-- The node at a place of the list. -/
theorem Rep.node (h : Rep m (l₁ ++ (a, v) :: l₂)) :
    m.heap a = some ⟨first l₂ none, last none l₁, v⟩ :=
  (seg_append.mp h.seg).2.1

variable [DecidableEq Addr]

/-- **A new node at the end.** -/
theorem Rep.pushBack (h : Rep m l) (hfresh : m.heap a = none) (v : α) :
    ∃ m', m.pushBack a v = some m' ∧ Rep m' (l ++ [(a, v)]) ∧
      SameOutside (a :: keys l) m.heap m'.heap := by
  have hnew := h.seg.not_mem hfresh
  have hdisj : (keys l).Disjoint [a] := List.disjoint_singleton.mpr hnew
  have hnd : (keys (l ++ [(a, v)])).Nodup :=
    nodup_keys_middle.mpr ⟨hnew, List.not_mem_nil, (List.append_nil l).symm ▸ h.nodup⟩
  have htouch := touches_write m a ⟨none, none, v⟩
  have hone : [a] ⊆ a :: keys l := List.cons_subset_cons _ (List.nil_subset _)
  by_cases hl : l = []
  · subst hl
    have hhead : m.head = none := h.head
    refine ⟨{ m.write a ⟨none, none, v⟩ with head := some a, tail := some a }, ?_,
      ⟨hnd, rfl, rfl, Mem.write_same, trivial⟩, htouch.heap⟩
    simp [Mem.pushBack, hhead]
  · have hhead : m.head ≠ none := by
      rw [h.head, Ne, first_eq_none]
      exact hl
    -- `list->tail->next = node`
    obtain ⟨m₁, hnext, htouch₁, hfront⟩ :=
      (htouch.heap.seg hdisj h.seg).setNext h.nodup hl (some a)
    -- `node->prev = list->tail`
    have hback : Seg m₁.heap none [(a, v)] none :=
      htouch₁.heap.seg (List.disjoint_symm hdisj) ⟨Mem.write_same, trivial⟩
    obtain ⟨m₂, hprev, htouch₂, hback⟩ :=
      hback.setPrev (List.nodup_singleton a) (List.cons_ne_nil _ _) (last none l)
    refine ⟨{ m₂ with tail := some a }, ?_, ⟨hnd, ?_, ?_, ?_⟩, ?_⟩
    · have htail₁ : m₁.tail = last none l := htouch₁.tail.trans h.tail
      have hprev' : m₁.setPrev (some a) (last none l) = some m₂ := hprev
      simp [Mem.pushBack, hhead, h.tail, hnext, htail₁, hprev']
    · calc m₂.head = m.head := htouch₂.head.trans htouch₁.head
        _ = first l none := h.head
        _ = first l (some a) := first_congr hl _ _
        _ = first (l ++ [(a, v)]) none := first_middle.symm
    · show some a = last none (l ++ [(a, v)])
      rw [last_middle]
      rfl
    · exact seg_append.mpr ⟨htouch₂.heap.seg hdisj hfront, hback⟩
    · refine (htouch.heap.mono hone).trans ?_
      exact (htouch₁.heap.mono (List.subset_cons_self _ _)).trans (htouch₂.heap.mono hone)

/-- **A new node in front.** -/
theorem Rep.pushFront (h : Rep m l) (hfresh : m.heap a = none) (v : α) :
    ∃ m', m.pushFront a v = some m' ∧ Rep m' ((a, v) :: l) ∧
      SameOutside (a :: keys l) m.heap m'.heap := by
  have hnew := h.seg.not_mem hfresh
  have hdisj : (keys l).Disjoint [a] := List.disjoint_singleton.mpr hnew
  have hnd : (keys ((a, v) :: l)).Nodup := List.nodup_cons.mpr ⟨hnew, h.nodup⟩
  have htouch := touches_write m a ⟨none, none, v⟩
  have hone : [a] ⊆ a :: keys l := List.cons_subset_cons _ (List.nil_subset _)
  by_cases hl : l = []
  · subst hl
    have hhead : m.head = none := h.head
    refine ⟨{ m.write a ⟨none, none, v⟩ with head := some a, tail := some a }, ?_,
      ⟨hnd, rfl, rfl, Mem.write_same, trivial⟩, htouch.heap⟩
    simp [Mem.pushFront, hhead]
  · have hhead : first l none ≠ none := fun hnil => hl (first_eq_none.mp hnil)
    -- `node->next = list->head`
    have hfront : Seg (m.write a ⟨none, none, v⟩).heap none [(a, v)] none :=
      ⟨Mem.write_same, trivial⟩
    obtain ⟨m₁, hnext, htouch₁, hfront⟩ :=
      hfront.setNext (List.nodup_singleton a) (List.cons_ne_nil _ _) (first l none)
    -- `list->head->prev = node`
    obtain ⟨m₂, hprev, htouch₂, hback⟩ :=
      (htouch₁.heap.seg hdisj (htouch.heap.seg hdisj h.seg)).setPrev h.nodup hl (some a)
    refine ⟨{ m₂ with head := some a }, ?_, ⟨hnd, rfl, ?_, ?_, hback⟩, ?_⟩
    · have hhead₁ : m₁.head = first l none := htouch₁.head.trans h.head
      have hnext' : (m.write a ⟨none, none, v⟩).setNext (some a) (first l none) = some m₁ := hnext
      simp [Mem.pushFront, hhead, h.head, hnext', hhead₁, hprev]
    · calc m₂.tail = m.tail := htouch₂.tail.trans htouch₁.tail
        _ = last none l := h.tail
        _ = last (some a) l := last_congr hl _ _
    · have hdisj' : (keys [(a, v)]).Disjoint (keys l) := List.disjoint_symm hdisj
      exact (htouch₂.heap.seg hdisj' hfront).1
    · refine (htouch.heap.mono hone).trans ?_
      exact (htouch₁.heap.mono hone).trans (htouch₂.heap.mono (List.subset_cons_self _ _))

/-- `if (node == list->tail) list->tail = new_node` -/
theorem tail_insert (hne : b ∉ keys l) (htail : m.tail = last (some b) l) :
    ∃ m', (if m.tail = some b then { m with tail := some a } else m) = m' ∧
      m'.head = m.head ∧ m'.heap = m.heap ∧ m'.tail = last (some a) l := by
  by_cases hl : l = []
  · subst hl
    exact ⟨_, if_pos htail, rfl, rfl, rfl⟩
  · have hother : m.tail ≠ some b := by
      rw [htail, last_congr hl (some b) none]
      exact fun heq => hne (mem_of_last heq)
    exact ⟨m, if_neg hother, rfl, rfl, htail.trans (last_congr hl _ _)⟩

/-- **A new node behind the last one of `l₁`.** -/
theorem Rep.insertAfter (h : Rep m (l₁ ++ l₂)) (hb : last none l₁ = some b)
    (hfresh : m.heap a = none) (v : α) :
    ∃ m', m.insertAfter b a v = some m' ∧ Rep m' (l₁ ++ (a, v) :: l₂) ∧
      SameOutside (a :: keys (l₁ ++ l₂)) m.heap m'.heap := by
  have hnew := h.seg.not_mem hfresh
  obtain ⟨hnd₁, hnd₂, hdisj⟩ := nodup_keys_append.mp h.nodup
  obtain ⟨hfront, hback⟩ := seg_append.mp h.seg
  obtain ⟨node, hnode, hnext₀⟩ := hfront.next_of_last hb
  have hmem : b ∈ keys l₁ := mem_of_last hb
  have hl : l₁ ≠ [] := by
    rintro rfl
    cases hb
  have hnew₁ : a ∉ keys l₁ := fun hmem => hnew (keys_subset_left hmem)
  have hnew₂ : a ∉ keys l₂ := fun hmem => hnew (keys_subset_right hmem)
  have htouch := touches_write m a ⟨first l₂ none, some b, v⟩
  -- `if (node->next != NULL) node->next->prev = new_node`
  obtain ⟨m₁, hprev, htouch₁, hback₁⟩ :=
    (htouch.heap.seg (List.disjoint_singleton.mpr hnew₂) hback).setPrev_or hnd₂ (some a)
  -- `node->next = new_node`
  have hfront₁ : Seg m₁.heap none l₁ (first l₂ none) :=
    htouch₁.heap.seg hdisj (htouch.heap.seg (List.disjoint_singleton.mpr hnew₁) hfront)
  obtain ⟨m₂, hnext, htouch₂, hfront₂⟩ := hfront₁.setNext hnd₁ hl (some a)
  have hback₂ := htouch₂.heap.seg (List.disjoint_symm hdisj) hback₁
  have ha : m₂.heap a = some ⟨first l₂ none, some b, v⟩ := by
    rw [htouch₂.heap a hnew₁, htouch₁.heap a hnew₂]
    exact Mem.write_same
  have htail : m₂.tail = last (some b) l₂ := by
    rw [htouch₂.tail, htouch₁.tail, htouch.tail, h.tail, last_append, hb]
  obtain ⟨m', hset, hhead, hheap, htail'⟩ :=
    tail_insert (a := a) (fun hmem' => hdisj hmem hmem') htail
  refine ⟨m', ?_, ⟨?_, ?_, htail'.trans last_middle.symm, ?_⟩, ?_⟩
  · rw [hb] at hnext
    simp [Mem.insertAfter, hnode, hnext₀, hprev, hnext, hset]
  · exact nodup_keys_middle.mpr ⟨hnew₁, hnew₂, h.nodup⟩
  · calc m'.head = m.head := hhead.trans (htouch₂.head.trans htouch₁.head)
      _ = first l₁ (first l₂ none) := h.head.trans first_append
      _ = first l₁ (some a) := first_congr hl _ _
      _ = first (l₁ ++ (a, v) :: l₂) none := first_middle.symm
  · rw [hheap]
    exact seg_append.mpr ⟨hfront₂, hb ▸ ha, hback₂⟩
  · rw [hheap]
    refine (htouch.heap.mono ?_).trans ((htouch₁.heap.mono ?_).trans (htouch₂.heap.mono ?_))
    · exact List.cons_subset_cons _ (List.nil_subset _)
    · exact fun b hb => List.mem_cons_of_mem _ (keys_subset_right hb)
    · exact fun b hb => List.mem_cons_of_mem _ (keys_subset_left hb)

/-- What `unlink` does to the nodes before `a`. -/
theorem Rep.relinkNext (h : Rep m (l₁ ++ (a, v) :: l₂)) :
    ∃ m', (if m.head = some a then some { m with head := first l₂ none }
        else m.setNext (last none l₁) (first l₂ none)) = some m' ∧
      m'.head = first (l₁ ++ l₂) none ∧ m'.tail = m.tail ∧
      SameOutside (keys l₁) m.heap m'.heap ∧ Seg m'.heap none l₁ (first l₂ none) := by
  obtain ⟨hne, -, hnd⟩ := nodup_keys_middle.mp h.nodup
  rw [first_append]
  by_cases hl : l₁ = []
  · subst hl
    have hhead : m.head = some a := h.head
    exact ⟨_, if_pos hhead, rfl, rfl, fun _ _ => rfl, trivial⟩
  · have hhead : m.head = first l₁ none := by
      rw [h.head, first_append]
      exact first_congr hl _ _
    have hother : m.head ≠ some a := fun heq => hne (mem_of_first (hhead ▸ heq))
    obtain ⟨m', hset, htouch, hseg⟩ :=
      (seg_append.mp h.seg).1.setNext (nodup_keys_append.mp hnd).1 hl (first l₂ none)
    refine ⟨m', (if_neg hother).trans hset, ?_, htouch.tail, htouch.heap, hseg⟩
    rw [htouch.head, hhead]
    exact first_congr hl _ _

/-- What it does to the nodes behind `a`. -/
theorem Rep.relinkPrev (h : Rep m (l₁ ++ (a, v) :: l₂)) {m₁ : Mem Addr α}
    (htail : m₁.tail = m.tail) (hsame : SameOutside (keys l₁) m.heap m₁.heap) :
    ∃ m', (if m₁.tail = some a then some { m₁ with tail := last none l₁ }
        else m₁.setPrev (first l₂ none) (last none l₁)) = some m' ∧
      m'.head = m₁.head ∧ m'.tail = last none (l₁ ++ l₂) ∧
      SameOutside (keys l₂) m₁.heap m'.heap ∧ Seg m'.heap (last none l₁) l₂ none := by
  obtain ⟨-, hne, hnd⟩ := nodup_keys_middle.mp h.nodup
  obtain ⟨-, hnd₂, hdisj⟩ := nodup_keys_append.mp hnd
  rw [last_append, htail, h.tail, last_middle]
  by_cases hl : l₂ = []
  · subst hl
    exact ⟨_, if_pos rfl, rfl, rfl, fun _ _ => rfl, trivial⟩
  · have hother : last (some a) l₂ ≠ some a := by
      rw [last_congr hl (some a) none]
      exact fun heq => hne (mem_of_last heq)
    have hback : Seg m₁.heap (some a) l₂ none :=
      hsame.seg (List.disjoint_symm hdisj) (seg_append.mp h.seg).2.2
    obtain ⟨m', hset, htouch, hseg⟩ := hback.setPrev hnd₂ hl (last none l₁)
    refine ⟨m', (if_neg hother).trans hset, htouch.head, ?_, htouch.heap, hseg⟩
    rw [htouch.tail, htail, h.tail, last_middle]
    exact last_congr hl _ _

/-- **A node is taken out**, at the front, in the middle or at the end. -/
theorem Rep.unlink (h : Rep m (l₁ ++ (a, v) :: l₂)) :
    ∃ m', m.unlink a = some m' ∧ Rep m' (l₁ ++ l₂) ∧ m'.heap a = none ∧
      SameOutside (keys (l₁ ++ (a, v) :: l₂)) m.heap m'.heap := by
  obtain ⟨hne₁, hne₂, hnd⟩ := nodup_keys_middle.mp h.nodup
  obtain ⟨-, -, hdisj⟩ := nodup_keys_append.mp hnd
  obtain ⟨m₁, hnext, hhead, htail, hsame₁, hfront⟩ := h.relinkNext
  obtain ⟨m₂, hprev, hhead₂, htail₂, hsame₂, hback⟩ := h.relinkPrev htail hsame₁
  have hnode : m₁.heap a = some ⟨first l₂ none, last none l₁, v⟩ :=
    (hsame₁ a hne₁).trans h.node
  have hfree : SameOutside [a] m₂.heap (m₂.free a).heap :=
    fun b hb => Mem.free_other (fun heq => hb (heq ▸ List.mem_cons_self))
  refine ⟨m₂.free a, ?_, ⟨hnd, hhead₂.trans hhead, htail₂, seg_append.mpr ⟨?_, ?_⟩⟩,
    Mem.free_same, ?_⟩
  · simp [Mem.unlink, h.node, hnext, hnode, hprev]
  · exact hfree.seg (List.disjoint_singleton.mpr hne₁) (hsame₂.seg hdisj hfront)
  · exact hfree.seg (List.disjoint_singleton.mpr hne₂) hback
  · refine (hsame₁.mono keys_subset_left).trans ((hsame₂.mono ?_).trans (hfree.mono ?_))
    · exact fun b hb => keys_subset_right (List.mem_cons_of_mem _ hb)
    · exact fun b hb => keys_subset_right (List.mem_singleton.mp hb ▸ List.mem_cons_self)

end Rep

/-! ## Nodes by their address -/

section ByAddress

variable [DecidableEq Addr] {m : Mem Addr α} {l l₁ l₂ : List (Addr × α)} {a b : Addr} {v w : α}

/-- **A new node behind a node of the list.** -/
theorem Rep.insertBehind (h : Rep m l) (hb : b ∈ keys l) (hfresh : m.heap a = none) (v : α) :
    ∃ m', m.insertAfter b a v = some m' ∧ Rep m' (insertBehind b (a, v) l) ∧
      SameOutside (a :: keys l) m.heap m'.heap := by
  obtain ⟨l₁, w, l₂, rfl⟩ := exists_middle hb
  obtain ⟨hne, -, -⟩ := nodup_keys_middle.mp h.nodup
  have hsplit : l₁ ++ (b, w) :: l₂ = (l₁ ++ [(b, w)]) ++ l₂ := List.append_cons _ _ _
  have hsplit' : l₁ ++ (b, w) :: (a, v) :: l₂ = (l₁ ++ [(b, w)]) ++ (a, v) :: l₂ :=
    List.append_cons _ _ _
  rw [insertBehind_middle hne, hsplit, hsplit']
  exact (hsplit ▸ h).insertAfter last_middle hfresh v

/-- **A node of the list is taken out.** -/
theorem Rep.filter (h : Rep m l) (ha : a ∈ keys l) :
    ∃ node m', m.heap a = some node ∧ l.Perm ((a, node.val) :: l.filter fun x => x.1 ≠ a) ∧
      m.unlink a = some m' ∧ Rep m' (l.filter fun x => x.1 ≠ a) ∧ m'.heap a = none ∧
      SameOutside (keys l) m.heap m'.heap := by
  obtain ⟨l₁, v, l₂, rfl⟩ := exists_middle ha
  obtain ⟨m', hunlink, hrep, hfree, hsame⟩ := h.unlink
  rw [filter_middle h.nodup]
  exact ⟨_, m', h.node, List.perm_middle, hunlink, hrep, hfree, hsame⟩

end ByAddress

/-! ## Reading the list -/

section Walk

variable {m : Mem Addr α} {l : List (Addr × α)} {before after : Option Addr}

@[simp] theorem walk_none (link : Node Addr α → Option Addr) (fuel : Nat) :
    m.walk link fuel none = some [] := by
  cases fuel <;> rfl

theorem Seg.walk_next (h : Seg m.heap before l none) (n : Nat) :
    m.walk Node.next (l.length + n) (first l none) = some l := by
  induction l generalizing before with
  | nil => exact walk_none _ _
  | cons x rest ih =>
    obtain ⟨a, v⟩ := x
    obtain ⟨hnode, hrest⟩ := h
    have hfuel : ((a, v) :: rest).length + n = rest.length + n + 1 := Nat.succ_add _ _
    rw [hfuel, first, Mem.walk, hnode]
    show (m.walk Node.next (rest.length + n) (first rest none)).map _ = _
    rw [ih hrest]
    rfl

theorem Seg.walk_prev (h : Seg m.heap none l after) (n : Nat) :
    m.walk Node.prev (l.length + n) (last none l) = some l.reverse := by
  -- the walk starts at the last node, so the induction takes nodes off the end
  induction l using List.reverseRecOn generalizing after with
  | nil => exact walk_none _ _
  | append_singleton rest x ih =>
    obtain ⟨a, v⟩ := x
    obtain ⟨hrest, hnode, -⟩ := seg_append.mp h
    have hfuel : (rest ++ [(a, v)]).length + n = rest.length + n + 1 := by
      rw [List.length_append, List.length_singleton, Nat.add_right_comm]
    rw [hfuel, last_middle, List.reverse_append]
    show m.walk Node.prev (rest.length + n + 1) (some a) = _
    rw [Mem.walk, hnode]
    show (m.walk Node.prev (rest.length + n) (last none rest)).map _ = _
    rw [ih hrest]
    rfl

/-- **From the head.** -/
theorem Rep.walk_next (h : Rep m l) {fuel : Nat} (hfuel : l.length ≤ fuel) :
    m.walk Node.next fuel m.head = some l := by
  rw [h.head, ← Nat.add_sub_cancel' hfuel]
  exact h.seg.walk_next _

/-- **From the tail.** -/
theorem Rep.walk_prev (h : Rep m l) {fuel : Nat} (hfuel : l.length ≤ fuel) :
    m.walk Node.prev fuel m.tail = some l.reverse := by
  rw [h.tail, ← Nat.add_sub_cancel' hfuel]
  exact h.seg.walk_prev _

/-- Neither pointer is set, or both are. -/
theorem Rep.empty_iff (h : Rep m l) : (m.head = none ↔ l = []) ∧ (m.tail = none ↔ l = []) := by
  rw [h.head, h.tail]
  exact ⟨first_eq_none, last_eq_none⟩

end Walk

end DoublyLinked
