/-
  Intrusive lists with back links, as C programs write them:

      struct node { struct node *next; struct node **prev; ... };
      struct node *head;

  `prev` does not point to the node before but to the POINTER that holds this node: the `next` field
  of the node before, or `head`.  So a node is taken out without looking for its predecessor, and
  the first node needs no case of its own: `*node->prev = node->next`.

  A `Mem` is the variable `head` and a heap of nodes; an access to a null or freed node fails.
  `Rep m l` says that `m` holds exactly the nodes of `l`, in this order, with the links set:

  * `Rep.pushFront` — a new node goes to the front;
  * `Rep.unlink` — taking a node out of `l₁ ++ (a, v) :: l₂` leaves `l₁ ++ l₂`, wherever it stood;
  * `Rep.setVal` — a new value leaves the links alone;
  * `Rep.walk`, `Rep.load` — the list read from its head, and what each back link holds.

  None of them fails on a list that is represented.
-/

set_option linter.unusedVariables false

namespace BackLinked

variable {Addr α : Type}

/-! ## Memory -/

/-- What a `prev` field points to. -/
inductive Link (Addr : Type) where
  | head
  | nextOf (a : Addr)
  deriving DecidableEq, Repr

/-- A node. -/
structure Node (Addr α : Type) where
  next : Option Addr
  prev : Link Addr
  val : α
  deriving DecidableEq, Repr

/-- The variable `head`, and the nodes that are allocated. -/
structure Mem (Addr α : Type) where
  head : Option Addr
  heap : Addr → Option (Node Addr α)

namespace Mem

/-- No node at all. -/
def empty : Mem Addr α := ⟨none, fun _ => none⟩

/-- `*link`. -/
def load (m : Mem Addr α) : Link Addr → Option (Option Addr)
  | .head => some m.head
  | .nextOf a => (m.heap a).map Node.next

/-- The nodes that `next` leads to, from `p` on, with fuel for one node each. -/
def walk (m : Mem Addr α) : Nat → Option Addr → Option (List (Addr × α))
  | _, none => some []
  | 0, some _ => none
  | fuel + 1, some a =>
    (m.heap a).bind fun node => (m.walk fuel node.next).map fun l => (a, node.val) :: l

variable [DecidableEq Addr]

/-- Write a whole node. -/
def write (m : Mem Addr α) (a : Addr) (node : Node Addr α) : Mem Addr α :=
  { m with heap := fun b => if b = a then some node else m.heap b }

/-- `free(node)`. -/
def free (m : Mem Addr α) (a : Addr) : Mem Addr α :=
  { m with heap := fun b => if b = a then none else m.heap b }

/-- `if (p) p->prev = link`. -/
def setPrev (m : Mem Addr α) : Option Addr → Link Addr → Option (Mem Addr α)
  | none, _ => some m
  | some a, link => (m.heap a).map fun node => m.write a { node with prev := link }

/-- `*link = p`. -/
def store (m : Mem Addr α) : Link Addr → Option Addr → Option (Mem Addr α)
  | .head, p => some { m with head := p }
  | .nextOf a, p => (m.heap a).map fun node => m.write a { node with next := p }

/-- Change the value of a node. -/
def setVal (m : Mem Addr α) (a : Addr) (v : α) : Option (Mem Addr α) :=
  (m.heap a).map fun node => m.write a { node with val := v }

/-- Put the new node `a` in front. -/
def pushFront (m : Mem Addr α) (a : Addr) (v : α) : Option (Mem Addr α) :=
  ((m.write a ⟨m.head, .head, v⟩).setPrev m.head (.nextOf a)).map fun m =>
    { m with head := some a }

/-- Take the node `a` out, and free it. -/
def unlink (m : Mem Addr α) (a : Addr) : Option (Mem Addr α) :=
  (m.heap a).bind fun node =>
    (m.setPrev node.next node.prev).bind fun m =>
      (m.store node.prev node.next).map fun m => m.free a

variable {m : Mem Addr α} {a b : Addr} {node : Node Addr α}

@[simp] theorem write_head : (m.write a node).head = m.head := rfl
@[simp] theorem write_same : (m.write a node).heap a = some node := if_pos rfl
@[simp] theorem free_same : (m.free a).heap a = none := if_pos rfl

theorem write_other (h : b ≠ a) : (m.write a node).heap b = m.heap b := if_neg h

theorem free_other (h : b ≠ a) : (m.free a).heap b = m.heap b := if_neg h

theorem setPrev_head {m' : Mem Addr α} {p : Option Addr} {link : Link Addr}
    (h : m.setPrev p link = some m') : m'.head = m.head := by
  cases p with
  | none =>
    obtain rfl := Option.some.inj h
    rfl
  | some a =>
    obtain ⟨node, -, rfl⟩ := Option.map_eq_some_iff.mp h
    rfl

end Mem

/-! ## Segments of a list -/

/-- The addresses of the nodes. -/
abbrev addrs (l : List (Addr × α)) : List Addr := l.map Prod.fst

/-- The pointer to the first node of `l`, or what follows. -/
def first : List (Addr × α) → Option Addr → Option Addr
  | [], after => after
  | (a, _) :: _, _ => some a

/-- The pointer that holds what follows `l`, when `link` holds its first node. -/
def lastLink : Link Addr → List (Addr × α) → Link Addr
  | link, [] => link
  | _, (a, _) :: rest => lastLink (.nextOf a) rest

/-- The nodes of `l` in this order, the first of them held by `link`, and then `after`. -/
def Seg (m : Mem Addr α) : Link Addr → List (Addr × α) → Option Addr → Prop
  | _, [], _ => True
  | link, (a, v) :: rest, after =>
    m.heap a = some ⟨first rest after, link, v⟩ ∧ Seg m (.nextOf a) rest after

section Seg

variable {m m' : Mem Addr α} {link : Link Addr} {after : Option Addr} {l l₁ l₂ : List (Addr × α)}

theorem first_append : first (l₁ ++ l₂) after = first l₁ (first l₂ after) := by
  cases l₁ with
  | nil => rfl
  | cons x rest => rfl

theorem seg_append :
    Seg m link (l₁ ++ l₂) after ↔
      Seg m link l₁ (first l₂ after) ∧ Seg m (lastLink link l₁) l₂ after := by
  induction l₁ generalizing link with
  | nil => simp [Seg, lastLink]
  | cons x rest ih => simp [Seg, lastLink, ih, first_append, and_assoc]

/-- A segment depends on its own nodes only. -/
theorem Seg.congr (hsame : ∀ b ∈ addrs l, m'.heap b = m.heap b) (h : Seg m link l after) :
    Seg m' link l after := by
  induction l generalizing link with
  | nil => trivial
  | cons x rest ih =>
    refine ⟨?_, ih (fun b hb => hsame b (List.mem_cons_of_mem _ hb)) h.2⟩
    rw [hsame x.1 List.mem_cons_self]
    exact h.1

variable [DecidableEq Addr]

/-- `setPrev` moves a segment to another link. -/
theorem Seg.setPrev (h : Seg m link l none) (hnd : (addrs l).Nodup) (link' : Link Addr) :
    ∃ m', m.setPrev (first l none) link' = some m' ∧ m'.head = m.head ∧
      Seg m' link' l none ∧ ∀ b, b ∉ addrs l → m'.heap b = m.heap b := by
  cases l with
  | nil => exact ⟨m, rfl, rfl, trivial, fun _ _ => rfl⟩
  | cons x rest =>
    obtain ⟨a, v⟩ := x
    obtain ⟨hnode, hrest⟩ := h
    have hfresh : ∀ b ∈ addrs rest, b ≠ a := by
      rintro b hb rfl
      exact (List.nodup_cons.mp hnd).1 hb
    refine ⟨m.write a ⟨first rest none, link', v⟩, ?_, rfl, ⟨Mem.write_same, ?_⟩, ?_⟩
    · simp [first, Mem.setPrev, hnode]
    · exact hrest.congr (fun b hb => Mem.write_other (hfresh b hb))
    · intro b hb
      exact Mem.write_other (fun heq => hb (heq ▸ List.mem_cons_self))

/-- `store` through the last link changes what follows a segment. -/
theorem Seg.store {a : Addr} {v : α} (h : Seg m link ((a, v) :: l) after)
    (hnd : (addrs ((a, v) :: l)).Nodup) (after' : Option Addr) :
    ∃ m', m.store (lastLink link ((a, v) :: l)) after' = some m' ∧ m'.head = m.head ∧
      Seg m' link ((a, v) :: l) after' ∧
      ∀ b, b ∉ addrs ((a, v) :: l) → m'.heap b = m.heap b := by
  induction l generalizing link a v with
  | nil =>
    refine ⟨m.write a ⟨after', link, v⟩, ?_, rfl, ⟨Mem.write_same, trivial⟩, ?_⟩
    · simp [lastLink, Mem.store, h.1]
    · intro b hb
      exact Mem.write_other (fun heq => hb (heq ▸ List.mem_cons_self))
  | cons y rest ih =>
    obtain ⟨hnode, hrest⟩ := h
    obtain ⟨hfresh, hnd'⟩ := List.nodup_cons.mp hnd
    obtain ⟨m', hstore, hhead, hseg, hsame⟩ := ih hrest hnd'
    refine ⟨m', hstore, hhead, ⟨?_, hseg⟩, fun b hb => ?_⟩
    · -- the node in front keeps its fields
      rw [hsame a hfresh]
      exact hnode
    · exact hsame b (fun hmem => hb (List.mem_cons_of_mem _ hmem))

end Seg

/-! ## Whole lists -/

/-- **The memory holds the list `l`**: its nodes in this order, the back links of all of them set,
    and no other nodes. -/
structure Rep (m : Mem Addr α) (l : List (Addr × α)) : Prop where
  nodup : (addrs l).Nodup
  head : m.head = first l none
  seg : Seg m .head l none
  only : ∀ a, m.heap a ≠ none → a ∈ addrs l

section Rep

variable {m : Mem Addr α} {l l₁ l₂ : List (Addr × α)} {a : Addr} {v : α}

theorem rep_empty : Rep (Mem.empty : Mem Addr α) [] :=
  ⟨List.nodup_nil, rfl, trivial, fun _ h => absurd rfl h⟩

/-- The node at a place of the list. -/
theorem Rep.node (h : Rep m (l₁ ++ (a, v) :: l₂)) :
    m.heap a = some ⟨first l₂ none, lastLink .head l₁, v⟩ :=
  (seg_append.mp h.seg).2.1

/-- **The list, read from its head.** -/
theorem Seg.walk {link : Link Addr} (h : Seg m link l none) (n : Nat) :
    m.walk (l.length + n) (first l none) = some l := by
  induction l generalizing link with
  | nil => cases n <;> rfl
  | cons x rest ih =>
    obtain ⟨a, v⟩ := x
    obtain ⟨hnode, hrest⟩ := h
    have hfuel : ((a, v) :: rest).length + n = rest.length + n + 1 := Nat.succ_add _ _
    rw [hfuel, first, Mem.walk, hnode]
    show (m.walk (rest.length + n) (first rest none)).map _ = _
    rw [ih hrest]
    rfl

theorem Rep.walk (h : Rep m l) {fuel : Nat} (hfuel : l.length ≤ fuel) :
    m.walk fuel m.head = some l := by
  rw [h.head, ← Nat.add_sub_cancel' hfuel]
  exact h.seg.walk _

/-- The last link of a segment holds what follows. -/
theorem Seg.load {link : Link Addr} {after : Option Addr} (h : Seg m link l after)
    (hload : m.load link = some (first l after)) : m.load (lastLink link l) = some after := by
  induction l generalizing link with
  | nil => exact hload
  | cons x rest ih =>
    obtain ⟨a, v⟩ := x
    refine ih h.2 ?_
    show (m.heap a).map Node.next = _
    rw [h.1]
    rfl

/-- **The back link of a node holds the node.** -/
theorem Rep.load (h : Rep m (l₁ ++ (a, v) :: l₂)) :
    m.load (lastLink .head l₁) = some (some a) := by
  refine (seg_append.mp h.seg).1.load ?_
  show some m.head = _
  rw [h.head, first_append]

/-- The addresses of a list with a node in it. -/
theorem mem_addrs_middle {b : Addr} :
    b ∈ addrs (l₁ ++ (a, v) :: l₂) ↔ b ∈ addrs l₁ ∨ b = a ∨ b ∈ addrs l₂ := by
  rw [addrs, List.map_append, List.mem_append, List.map_cons, List.mem_cons]

/-- They are different. -/
theorem nodup_middle (hnd : (addrs (l₁ ++ (a, v) :: l₂)).Nodup) :
    (addrs l₁).Nodup ∧ (addrs l₂).Nodup ∧ a ∉ addrs l₁ ∧ a ∉ addrs l₂ ∧
      (∀ b ∈ addrs l₁, b ∉ addrs l₂) ∧ (addrs (l₁ ++ l₂)).Nodup := by
  simp only [addrs, List.map_append, List.map_cons, List.nodup_append, List.nodup_cons,
    List.mem_cons] at hnd ⊢
  grind

variable [DecidableEq Addr]

/-- **A new node in front.** -/
theorem Rep.pushFront (h : Rep m l) (hfresh : m.heap a = none) (v : α) :
    ∃ m', m.pushFront a v = some m' ∧ Rep m' ((a, v) :: l) := by
  have hnew : a ∉ addrs l := by
    intro hmem
    obtain ⟨⟨_, w⟩, hx, rfl⟩ := List.mem_map.mp hmem
    obtain ⟨l₁, l₂, rfl⟩ := List.append_of_mem hx
    rw [h.node] at hfresh
    cases hfresh
  have hwrite : Seg (m.write a ⟨first l none, .head, v⟩) .head l none :=
    h.seg.congr (fun b hb => Mem.write_other (fun heq => hnew (heq ▸ hb)))
  obtain ⟨m', hset, hhead, hseg, hsame⟩ := hwrite.setPrev h.nodup (.nextOf a)
  refine ⟨{ m' with head := some a }, ?_, List.nodup_cons.mpr ⟨hnew, h.nodup⟩, rfl, ⟨?_, ?_⟩, ?_⟩
  · rw [Mem.pushFront, h.head, hset]
    rfl
  · show m'.heap a = _
    rw [hsame a hnew, Mem.write_same]
  · have hheap : ∀ b ∈ addrs l, ({ m' with head := some a } : Mem Addr α).heap b = m'.heap b :=
      fun _ _ => rfl
    exact hseg.congr hheap
  · intro b hb
    by_cases hold : b ∈ addrs l
    · exact List.mem_cons_of_mem _ hold
    · have hb' : m'.heap b ≠ none := hb
      rw [hsame b hold] at hb'
      by_cases heq : b = a
      · exact heq ▸ List.mem_cons_self
      · rw [Mem.write_other heq] at hb'
        exact absurd (h.only b hb') hold

/-- **A new value.** -/
theorem Rep.setVal (h : Rep m (l₁ ++ (a, v) :: l₂)) (w : α) :
    ∃ m', m.setVal a w = some m' ∧ Rep m' (l₁ ++ (a, w) :: l₂) := by
  have hnode := h.node
  obtain ⟨hseg₁, -, hseg₂⟩ := seg_append.mp h.seg
  obtain ⟨-, -, hne₁, hne₂, -, -⟩ := nodup_middle h.nodup
  have haddrs : addrs (l₁ ++ (a, w) :: l₂) = addrs (l₁ ++ (a, v) :: l₂) := by simp [addrs]
  have hother : ∀ {l : List (Addr × α)}, a ∉ addrs l → ∀ b ∈ addrs l,
      (m.write a ⟨first l₂ none, lastLink .head l₁, w⟩).heap b = m.heap b :=
    fun hne b hb => Mem.write_other (fun heq => hne (heq ▸ hb))
  refine ⟨m.write a ⟨first l₂ none, lastLink .head l₁, w⟩, ?_, ?_, ?_, ?_, ?_⟩
  · simp [Mem.setVal, hnode]
  · rw [haddrs]
    exact h.nodup
  · rw [Mem.write_head, h.head, first_append, first_append]
    rfl
  · exact seg_append.mpr ⟨hseg₁.congr (hother hne₁), Mem.write_same, hseg₂.congr (hother hne₂)⟩
  · intro b hb
    rw [haddrs]
    by_cases heq : b = a
    · exact mem_addrs_middle.mpr (Or.inr (Or.inl heq))
    · rw [Mem.write_other heq] at hb
      exact h.only b hb

/-- **A node is taken out**, at the front, in the middle or at the end. -/
theorem Rep.unlink (h : Rep m (l₁ ++ (a, v) :: l₂)) :
    ∃ m', m.unlink a = some m' ∧ Rep m' (l₁ ++ l₂) := by
  have hnode := h.node
  obtain ⟨hseg₁, -, hseg₂⟩ := seg_append.mp h.seg
  obtain ⟨hnd₁, hnd₂, hne₁, hne₂, hdisj, hnd⟩ := nodup_middle h.nodup
  -- `if (state->next) state->next->prev = state->prev`
  obtain ⟨m₁, hset, hhead₁, hafter, hsame₁⟩ := hseg₂.setPrev hnd₂ (lastLink .head l₁)
  have hbefore : Seg m₁ .head l₁ (some a) :=
    hseg₁.congr (fun b hb => hsame₁ b (hdisj b hb))
  -- `*state->prev = state->next`
  obtain ⟨m₂, hstore, hhead₂, hseg₁', hsame₂⟩ : ∃ m₂,
      m₁.store (lastLink .head l₁) (first l₂ none) = some m₂ ∧
        m₂.head = first (l₁ ++ l₂) none ∧ Seg m₂ .head l₁ (first l₂ none) ∧
        ∀ b, b ∉ addrs l₁ → m₂.heap b = m₁.heap b := by
    cases l₁ with
    | nil => exact ⟨{ m₁ with head := first l₂ none }, rfl, rfl, trivial, fun _ _ => rfl⟩
    | cons x rest =>
      obtain ⟨m₂, hstore, hhead₂, hseg, hsame⟩ := hbefore.store hnd₁ (first l₂ none)
      refine ⟨m₂, hstore, ?_, hseg, hsame⟩
      rw [hhead₂, hhead₁, h.head]
      rfl
  have hfree : ∀ {l : List (Addr × α)}, a ∉ addrs l → ∀ b ∈ addrs l,
      (m₂.free a).heap b = m₂.heap b :=
    fun hne b hb => Mem.free_other (fun heq => hne (heq ▸ hb))
  refine ⟨m₂.free a, ?_, hnd, hhead₂, seg_append.mpr ⟨?_, ?_⟩, ?_⟩
  · simp [Mem.unlink, hnode, hset, hstore]
  · exact hseg₁'.congr (hfree hne₁)
  · refine hafter.congr (fun b hb => ?_)
    rw [hfree hne₂ b hb]
    exact hsame₂ b (fun hmem => hdisj b hmem hb)
  · intro b hb
    by_cases heq : b = a
    · rw [heq, Mem.free_same] at hb
      exact absurd rfl hb
    · rw [Mem.free_other heq] at hb
      rw [addrs, List.map_append, List.mem_append]
      by_cases hmem₁ : b ∈ addrs l₁
      · exact Or.inl hmem₁
      · by_cases hmem₂ : b ∈ addrs l₂
        · exact Or.inr hmem₂
        · -- it was there before
          rw [hsame₂ b hmem₁, hsame₁ b hmem₂] at hb
          rcases mem_addrs_middle.mp (h.only b hb) with hold | hold | hold
          · exact absurd hold hmem₁
          · exact absurd hold heq
          · exact absurd hold hmem₂

end Rep

end BackLinked
