/-
  Queues that keep a pointer to the pointer that ends them, as C programs write them:

      struct node { struct node *next; ... };
      struct node *head, **tail = &head;

  A new node goes in with `*tail = node; tail = &node->next`, without a case for the empty queue;
  the price is that taking out the last node has to set `tail = &head` again.

  `Rep m l` says that the queue in `m` consists of the nodes of `l`, in this order, and that `tail`
  points to the pointer that ends it:

  * `Rep.push` — a new node goes to the end;
  * `Rep.pop` — the first node is taken out;
  * `Rep.setFront` — a new value of the first node leaves the links alone;
  * `Rep.toList` — following `next` meets the values of `l`.

  `Holds m vs` forgets the addresses; its rules are those of `Rep`.
-/
import Ctcp.Lib.BackLinked

set_option linter.unusedVariables false

namespace TailQueue

open BackLinked (Link addrs first lastLink)

variable {α : Type}

/-! ## Memory -/

/-- A node. -/
structure Node (α : Type) where
  next : Option Nat
  val : α
  deriving DecidableEq, Repr

/-- The variables `head` and `tail`, and the nodes that are allocated.  Addresses are numbered in
    the order of allocation. -/
structure Mem (α : Type) where
  head : Option Nat
  tail : Link Nat
  heap : Nat → Option (Node α)
  allocated : Nat

namespace Mem

/-- The empty queue. -/
def empty : Mem α := ⟨none, .head, fun _ => none, 0⟩

/-- The value of the first node. -/
def front (m : Mem α) : Option α := m.head.bind fun a => (m.heap a).map Node.val

/-- The values met by following `next` from `p`, at most `fuel` of them. -/
def walk (m : Mem α) : Nat → Option Nat → List α
  | 0, _ => []
  | _, none => []
  | fuel + 1, some a =>
    match m.heap a with
    | none => []
    | some node => node.val :: m.walk fuel node.next

/-- The values of the queue, at most `fuel` of them. -/
def toList (m : Mem α) (fuel : Nat) : List α := m.walk fuel m.head

/-- Write a whole node. -/
def write (m : Mem α) (a : Nat) (node : Node α) : Mem α :=
  { m with heap := fun b => if b = a then some node else m.heap b }

/-- `free(node)`. -/
def free (m : Mem α) (a : Nat) : Mem α :=
  { m with heap := fun b => if b = a then none else m.heap b }

/-- Put a new node at the end: `*tail = node; tail = &node->next`. -/
def push (m : Mem α) (v : α) : Option (Mem α) :=
  let a := m.allocated
  let m := { m.write a ⟨none, v⟩ with allocated := a + 1 }
  match m.tail with
  | .head => some { m with head := some a, tail := .nextOf a }
  | .nextOf b =>
    (m.heap b).map fun node =>
      { m.write b { node with next := some a } with tail := .nextOf a }

/-- Take the first node out: `head = head->next; if (!head) tail = &head`, and free it. -/
def pop (m : Mem α) : Option (Mem α) :=
  m.head.bind fun a => (m.heap a).map fun node =>
    { m.free a with
      head := node.next
      tail := if node.next = none then .head else m.tail }

/-- Change the value of the first node. -/
def setFront (m : Mem α) (v : α) : Option (Mem α) :=
  m.head.bind fun a => (m.heap a).map fun node => m.write a { node with val := v }

variable {m : Mem α} {a b : Nat} {node : Node α}

@[simp] theorem write_same : (m.write a node).heap a = some node := if_pos rfl
@[simp] theorem free_same : (m.free a).heap a = none := if_pos rfl

theorem write_other (h : b ≠ a) : (m.write a node).heap b = m.heap b := if_neg h

theorem free_other (h : b ≠ a) : (m.free a).heap b = m.heap b := if_neg h

end Mem

/-! ## Chains -/

/-- The nodes of `l` in this order, and then `after`. -/
def Chain (m : Mem α) : List (Nat × α) → Option Nat → Prop
  | [], _ => True
  | (a, v) :: rest, after => m.heap a = some ⟨first rest after, v⟩ ∧ Chain m rest after

section Chain

variable {m m' : Mem α} {after : Option Nat} {l : List (Nat × α)}

/-- A chain depends on its own nodes only. -/
theorem Chain.congr (hsame : ∀ b ∈ addrs l, m'.heap b = m.heap b) (h : Chain m l after) :
    Chain m' l after := by
  induction l with
  | nil => trivial
  | cons x rest ih =>
    refine ⟨?_, ih (fun b hb => hsame b (List.mem_cons_of_mem _ hb)) h.2⟩
    rw [hsame x.1 List.mem_cons_self]
    exact h.1

theorem chain_append {l' : List (Nat × α)} :
    Chain m (l ++ l') after ↔ Chain m l (first l' after) ∧ Chain m l' after := by
  induction l with
  | nil => simp [Chain]
  | cons x rest ih => simp [Chain, ih, BackLinked.first_append, and_assoc]

end Chain

/-! ## Queues -/

/-- **The memory holds the nodes of `l`**, with `tail` at the end. -/
structure Rep (m : Mem α) (l : List (Nat × α)) : Prop where
  nodup : (addrs l).Nodup
  below : ∀ a ∈ addrs l, a < m.allocated
  head : m.head = first l none
  tail : m.tail = lastLink .head l
  chain : Chain m l none

section Rep

variable {m : Mem α} {l : List (Nat × α)} {a : Nat} {v : α}

theorem rep_empty : Rep (Mem.empty : Mem α) [] :=
  ⟨List.nodup_nil, fun _ h => absurd h List.not_mem_nil, rfl, rfl, trivial⟩

theorem Rep.front_nil (h : Rep m []) : m.front = none := by
  rw [Mem.front, h.head]
  rfl

theorem Rep.front_cons (h : Rep m ((a, v) :: l)) : m.front = some v := by
  have hhead : m.head = some a := h.head
  rw [Mem.front, hhead, Option.bind_some, h.chain.1]
  rfl

theorem walk_of_chain {l : List (Nat × α)} {fuel : Nat} (h : Chain m l none)
    (hfuel : l.length ≤ fuel) : m.walk fuel (first l none) = l.map Prod.snd := by
  induction l generalizing fuel with
  | nil => cases fuel <;> rfl
  | cons x rest ih =>
    obtain ⟨hnode, hrest⟩ := h
    cases fuel with
    | zero => exact absurd hfuel (Nat.not_succ_le_zero _)
    | succ fuel =>
      have hfuel' : rest.length ≤ fuel := Nat.le_of_succ_le_succ hfuel
      show m.walk (fuel + 1) (some x.1) = _
      simp only [Mem.walk, hnode, ih hrest hfuel', List.map_cons]

/-- **Following the links** meets the values of the queue. -/
theorem Rep.toList (h : Rep m l) {fuel : Nat} (hfuel : l.length ≤ fuel) :
    m.toList fuel = l.map Prod.snd := by
  rw [Mem.toList, h.head]
  exact walk_of_chain h.chain hfuel

theorem lastLink_concat {link : Link Nat} : lastLink link (l ++ [(a, v)]) = .nextOf a := by
  induction l generalizing link with
  | nil => rfl
  | cons x rest ih => exact ih

/-- **A new node at the end.** -/
theorem Rep.push (h : Rep m l) (v : α) :
    ∃ m', m.push v = some m' ∧ Rep m' (l ++ [(m.allocated, v)]) := by
  have hold : ∀ b ∈ addrs l, b ≠ m.allocated := fun b hb => Nat.ne_of_lt (h.below b hb)
  have hnd : (addrs (l ++ [(m.allocated, v)])).Nodup := by
    rw [addrs, List.map_append, List.nodup_append]
    refine ⟨h.nodup, by simp, ?_⟩
    intro b hb c hc
    obtain rfl : c = m.allocated := by simpa using hc
    exact hold b hb
  have hbelow : ∀ b ∈ addrs (l ++ [(m.allocated, v)]), b < m.allocated + 1 := by
    intro b hb
    rw [addrs, List.map_append, List.mem_append] at hb
    rcases hb with hb | hb
    · exact Nat.lt_succ_of_lt (h.below b hb)
    · obtain rfl : b = m.allocated := by simpa using hb
      exact Nat.lt_succ_self _
  rcases List.eq_nil_or_concat l with rfl | ⟨l, ⟨b, w⟩, rfl⟩
  · -- the queue was empty, and `tail` points to `head`
    have htail : m.tail = .head := h.tail
    refine ⟨{ m.write m.allocated ⟨none, v⟩ with
      allocated := m.allocated + 1, head := some m.allocated, tail := .nextOf m.allocated },
      ?_, hnd, hbelow, rfl, rfl, ?_⟩
    · simp [Mem.push, Mem.write, htail]
    · exact ⟨Mem.write_same, trivial⟩
  · -- `tail` points to the `next` field of the last node `b`
    rw [List.concat_eq_append] at h hold hnd hbelow ⊢
    have htail : m.tail = .nextOf b := by rw [h.tail, lastLink_concat]
    obtain ⟨hchain, hlast, -⟩ := chain_append.mp h.chain
    have hba : b ≠ m.allocated := hold b (by simp)
    have hfront : b ∉ addrs l := by
      intro hb
      have hnd' := h.nodup
      rw [addrs, List.map_append, List.nodup_append] at hnd'
      exact hnd'.2.2 b hb b (by simp) rfl
    refine ⟨{ (m.write m.allocated ⟨none, v⟩).write b ⟨some m.allocated, w⟩ with
      allocated := m.allocated + 1, tail := .nextOf m.allocated }, ?_, hnd, hbelow, ?_, ?_, ?_⟩
    · have hlast' : (m.write m.allocated ⟨none, v⟩).heap b = some ⟨none, w⟩ := by
        rw [Mem.write_other hba]
        exact hlast
      show (match m.tail with | .head => _ | .nextOf b => _) = _
      rw [htail]
      show ((m.write m.allocated ⟨none, v⟩).heap b).map _ = _
      rw [hlast']
      rfl
    · show m.head = _
      rw [h.head]
      cases l <;> rfl
    · exact lastLink_concat.symm
    · rw [List.append_assoc]
      refine chain_append.mpr ⟨hchain.congr ?_, Mem.write_same, ?_, trivial⟩
      · intro c hc
        have hcb : c ≠ b := fun heq => hfront (heq ▸ hc)
        have hca : c ≠ m.allocated := hold c (by simp [addrs] at hc ⊢; exact Or.inl hc)
        show ((m.write m.allocated ⟨none, v⟩).write b ⟨some m.allocated, w⟩).heap c = m.heap c
        rw [Mem.write_other hcb, Mem.write_other hca]
      · show ((m.write m.allocated ⟨none, v⟩).write b ⟨some m.allocated, w⟩).heap m.allocated = _
        rw [Mem.write_other (Ne.symm hba), Mem.write_same]
        rfl

/-- **The first node is taken out.** -/
theorem Rep.pop (h : Rep m ((a, v) :: l)) : ∃ m', m.pop = some m' ∧ Rep m' l := by
  obtain ⟨hnode, hrest⟩ := h.chain
  obtain ⟨hfresh, hnd⟩ := List.nodup_cons.mp h.nodup
  have hhead : m.head = some a := h.head
  refine ⟨{ m.free a with
    head := first l none, tail := if first l none = none then .head else m.tail }, ?_, hnd,
    fun b hb => h.below b (List.mem_cons_of_mem _ hb), rfl, ?_, ?_⟩
  · rw [Mem.pop, hhead, Option.bind_some, hnode]
    rfl
  · show (if first l none = none then Link.head else m.tail) = _
    cases l with
    | nil => rfl
    | cons x rest =>
      show m.tail = _
      rw [h.tail]
      rfl
  · refine hrest.congr ?_
    intro b hb
    exact Mem.free_other (fun heq => hfresh (heq ▸ hb))

/-- **A new value of the first node.** -/
theorem Rep.setFront (h : Rep m ((a, v) :: l)) (w : α) :
    ∃ m', m.setFront w = some m' ∧ Rep m' ((a, w) :: l) := by
  obtain ⟨hnode, hrest⟩ := h.chain
  obtain ⟨hfresh, hnd⟩ := List.nodup_cons.mp h.nodup
  have hhead : m.head = some a := h.head
  refine ⟨m.write a ⟨first l none, w⟩, ?_, h.nodup, h.below, h.head, ?_, Mem.write_same, ?_⟩
  · rw [Mem.setFront, hhead, Option.bind_some, hnode]
    rfl
  · show m.tail = _
    rw [h.tail]
    rfl
  · refine hrest.congr ?_
    intro b hb
    exact Mem.write_other (fun heq => hfresh (heq ▸ hb))

end Rep

/-! ## Contents -/

/-- **The queue contains the values `vs`**, in the nodes of some list. -/
def Holds (m : Mem α) (vs : List α) : Prop := ∃ l, Rep m l ∧ l.map Prod.snd = vs

section Holds

variable {m : Mem α} {vs : List α} {v : α}

theorem holds_empty : Holds (Mem.empty : Mem α) [] := ⟨[], rep_empty, rfl⟩

theorem Holds.toList (h : Holds m vs) {fuel : Nat} (hfuel : vs.length ≤ fuel) :
    m.toList fuel = vs := by
  obtain ⟨l, hrep, rfl⟩ := h
  rw [List.length_map] at hfuel
  exact hrep.toList hfuel

/-- `head` is null exactly when the queue is empty. -/
theorem Holds.head_eq_none (h : Holds m vs) : m.head = none ↔ vs = [] := by
  obtain ⟨l, hrep, rfl⟩ := h
  rw [hrep.head, List.map_eq_nil_iff]
  cases l <;> simp [first]

theorem Holds.front (h : Holds m vs) : m.front = vs.head? := by
  obtain ⟨l, hrep, rfl⟩ := h
  cases l with
  | nil => exact hrep.front_nil
  | cons x rest => exact hrep.front_cons

theorem Holds.push (h : Holds m vs) (v : α) :
    ∃ m', m.push v = some m' ∧ Holds m' (vs ++ [v]) := by
  obtain ⟨l, hrep, rfl⟩ := h
  obtain ⟨m', hpush, hrep'⟩ := hrep.push v
  exact ⟨m', hpush, _, hrep', by simp⟩

theorem Holds.pop (h : Holds m (v :: vs)) : ∃ m', m.pop = some m' ∧ Holds m' vs := by
  obtain ⟨l, hrep, hl⟩ := h
  obtain ⟨⟨a, w⟩, l, rfl, rfl, rfl⟩ := List.map_eq_cons_iff.mp hl
  obtain ⟨m', hpop, hrep'⟩ := hrep.pop
  exact ⟨m', hpop, l, hrep', rfl⟩

theorem Holds.setFront (h : Holds m (v :: vs)) (w : α) :
    ∃ m', m.setFront w = some m' ∧ Holds m' (w :: vs) := by
  obtain ⟨l, hrep, hl⟩ := h
  obtain ⟨⟨a, v⟩, l, rfl, rfl, rfl⟩ := List.map_eq_cons_iff.mp hl
  obtain ⟨m', hset, hrep'⟩ := hrep.setFront w
  exact ⟨m', hset, _, hrep', rfl⟩

end Holds

end TailQueue
