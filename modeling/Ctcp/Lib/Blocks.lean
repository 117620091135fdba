/-
  A heap of blocks.

  `alloc` gives out a new block, `free` takes one back.  `read`, `write` and `free` fail at an
  address that is not allocated, and no address is given out twice.  So a program in `Option` that
  is built from them fails exactly where it uses a block that has been freed, or frees it again.

  `Has h cells` says what is allocated, and with what contents.  `cells` is a multiset, so `+` puts
  the blocks of several owners together, in any order: each operation has a rule that changes the
  one block it is about and leaves the rest alone (`Has.alloc`, `Has.read`, `Has.write`,
  `Has.free`).  Blocks that no pointer leads to any more stay in the multiset: they are the leak.

  `Dead h a` is an address that has been freed.  It stays dead (`Outlives`), and nothing succeeds
  there.
-/
import Ctcp.Lib.Checked
import Ctcp.Lib.Keyed
import Mathlib.Data.Multiset.AddSub

set_option linter.unusedVariables false

namespace Blocks

open Checked Keyed

abbrev Addr := Nat

variable {β : Type}

/-- The allocated blocks, and how many have been given out. -/
structure Heap (β : Type) where
  cells : List (Addr × β)
  size : Nat
  nodup : (keys cells).Nodup
  below : ∀ a ∈ keys cells, a < size

namespace Heap

theorem nodup_cons (h : Heap β) (b : β) : (keys ((h.size, b) :: h.cells)).Nodup :=
  List.nodup_cons.mpr ⟨fun hmem => Nat.lt_irrefl _ (h.below _ hmem), h.nodup⟩

theorem below_cons (h : Heap β) (b : β) :
    ∀ a ∈ keys ((h.size, b) :: h.cells), a < h.size + 1 := by
  intro a hmem
  rcases List.mem_cons.mp hmem with rfl | hold
  · exact Nat.lt_succ_self _
  · exact Nat.lt_succ_of_lt (h.below a hold)

theorem keys_update (h : Heap β) (a : Addr) (b : β) :
    keys (h.cells.map fun x => if x.1 = a then (a, b) else x) = keys h.cells := by
  rw [keys, List.map_map]
  refine List.map_congr_left fun x hx => ?_
  by_cases heq : x.1 = a
  · simp [heq]
  · simp [heq]

theorem keys_filter (h : Heap β) (a : Addr) :
    keys (h.cells.filter fun x => x.1 ≠ a) = (keys h.cells).filter fun k => k ≠ a := by
  rw [keys, keys, List.filter_map]
  rfl

theorem nodup_update (h : Heap β) (a : Addr) (b : β) :
    (keys (h.cells.map fun x => if x.1 = a then (a, b) else x)).Nodup :=
  (h.keys_update a b).symm ▸ h.nodup

theorem below_update (h : Heap β) (a : Addr) (b : β) :
    ∀ k ∈ keys (h.cells.map fun x => if x.1 = a then (a, b) else x), k < h.size :=
  (h.keys_update a b).symm ▸ h.below

theorem nodup_filter (h : Heap β) (a : Addr) :
    (keys (h.cells.filter fun x => x.1 ≠ a)).Nodup :=
  (h.keys_filter a).symm ▸ h.nodup.filter _

theorem below_filter (h : Heap β) (a : Addr) :
    ∀ k ∈ keys (h.cells.filter fun x => x.1 ≠ a), k < h.size := by
  intro k hk
  rw [h.keys_filter a] at hk
  exact h.below k (List.mem_of_mem_filter hk)

/-- A new block. -/
def alloc (h : Heap β) (b : β) : Addr × Heap β :=
  (h.size, ⟨(h.size, b) :: h.cells, h.size + 1, h.nodup_cons b, h.below_cons b⟩)

/-- What is in a block. -/
def read (h : Heap β) (a : Addr) : Option β := h.cells.lookup a

/-- A block with other contents. -/
def write (h : Heap β) (a : Addr) (b : β) : Option (Heap β) :=
  if a ∈ keys h.cells then
    some ⟨h.cells.map fun x => if x.1 = a then (a, b) else x, h.size, h.nodup_update a b,
      h.below_update a b⟩
  else none

/-- A block less. -/
def free (h : Heap β) (a : Addr) : Option (Heap β) :=
  if a ∈ keys h.cells then
    some ⟨h.cells.filter fun x => x.1 ≠ a, h.size, h.nodup_filter a, h.below_filter a⟩
  else none

/-- Nothing has been allocated. -/
def empty : Heap β := ⟨[], 0, List.nodup_nil, fun a ha => absurd ha List.not_mem_nil⟩

end Heap

/-! ## Freed blocks -/

/-- `a` has been given out, and is not allocated. -/
def Dead (h : Heap β) (a : Addr) : Prop := a < h.size ∧ a ∉ keys h.cells

section Freed

variable {h h' h'' : Heap β} {a : Addr} {b : β}

theorem Dead.read (hdead : Dead h a) : h.read a = none := lookup_eq_none hdead.2

/-- What is dead in `h` is dead in `h'`. -/
def Outlives (h h' : Heap β) : Prop := ∀ a, Dead h a → Dead h' a

theorem Outlives.refl (h : Heap β) : Outlives h h := fun _ hdead => hdead

theorem Outlives.trans (hfirst : Outlives h h') (hsecond : Outlives h' h'') : Outlives h h'' :=
  fun a hdead => hsecond a (hfirst a hdead)

theorem outlives_alloc (h : Heap β) (b : β) : Outlives h (h.alloc b).2 := by
  rintro a ⟨hlt, hnot⟩
  refine ⟨Nat.lt_succ_of_lt hlt, fun hmem => ?_⟩
  rcases List.mem_cons.mp hmem with heq | hold
  · exact Nat.ne_of_lt hlt heq
  · exact hnot hold

theorem outlives_write (hwrite : h.write a b = some h') : Outlives h h' := by
  unfold Heap.write at hwrite
  split at hwrite
  · obtain rfl := Option.some.inj hwrite
    rintro k ⟨hlt, hnot⟩
    exact ⟨hlt, (h.keys_update a b).symm ▸ hnot⟩
  · cases hwrite

theorem outlives_free (hfree : h.free a = some h') : Outlives h h' := by
  unfold Heap.free at hfree
  split at hfree
  · obtain rfl := Option.some.inj hfree
    rintro k ⟨hlt, hnot⟩
    refine ⟨hlt, fun hmem => hnot ?_⟩
    rw [h.keys_filter a] at hmem
    exact List.mem_of_mem_filter hmem
  · cases hfree

/-- A block that is freed is dead. -/
theorem dead_of_free (hfree : h.free a = some h') : Dead h' a := by
  unfold Heap.free at hfree
  split at hfree
  · rename_i hmem
    obtain rfl := Option.some.inj hfree
    refine ⟨h.below a hmem, fun hleft => ?_⟩
    rw [h.keys_filter a] at hleft
    exact absurd rfl (of_decide_eq_true (List.mem_filter.mp hleft).2)
  · cases hfree

end Freed

/-! ## What is allocated -/

/-- The allocated blocks are `cells`. -/
def Has (h : Heap β) (cells : Multiset (Addr × β)) : Prop := (h.cells : Multiset (Addr × β)) = cells

section Rules

variable {h : Heap β} {a : Addr} {b b' : β} {rest : Multiset (Addr × β)}

theorem has_empty : Has (Heap.empty : Heap β) 0 := rfl

/-- The blocks, counted. -/
theorem Has.card {cells : Multiset (Addr × β)} (hhas : Has h cells) :
    h.cells.length = cells.card := by
  rw [← hhas, Multiset.coe_card]

/-- The same blocks in another order. -/
theorem Has.of_eq {cells cells' : Multiset (Addr × β)} (hhas : Has h cells)
    (heq : cells = cells') : Has h cells' := heq ▸ hhas

/-- **A new block** changes nothing else. -/
theorem Has.alloc {h' : Heap β} {cells : Multiset (Addr × β)} (hhas : Has h cells)
    (halloc : h.alloc b = (a, h')) : Has h' ({(a, b)} + cells) ∧ Outlives h h' := by
  obtain ⟨rfl, rfl⟩ := Prod.mk.inj halloc
  refine ⟨?_, outlives_alloc h b⟩
  rw [← hhas]
  rfl

/-- The list, cut at a block. -/
theorem Has.middle (hhas : Has h ({(a, b)} + rest)) :
    ∃ l₁ l₂, h.cells = l₁ ++ (a, b) :: l₂ ∧ ((l₁ ++ l₂ : List _) : Multiset (Addr × β)) = rest := by
  have hmem : (a, b) ∈ h.cells := by
    rw [← Multiset.mem_coe, hhas]
    exact Multiset.mem_add.mpr (Or.inl (Multiset.mem_singleton_self _))
  obtain ⟨l₁, l₂, hcells⟩ := List.append_of_mem hmem
  refine ⟨l₁, l₂, hcells, ?_⟩
  have hsplit : ({(a, b)} : Multiset (Addr × β)) + ((l₁ ++ l₂ : List _) : Multiset (Addr × β))
      = {(a, b)} + rest := by
    rw [← hhas, hcells]
    have hperm : (l₁ ++ (a, b) :: l₂).Perm ((a, b) :: (l₁ ++ l₂)) := List.perm_middle
    exact Multiset.coe_eq_coe.mpr hperm.symm
  exact Multiset.add_right_inj.mp hsplit

theorem mem_keys_middle (l₁ l₂ : List (Addr × β)) : a ∈ keys (l₁ ++ (a, b) :: l₂) :=
  List.mem_map_of_mem (List.mem_append_right _ List.mem_cons_self)

/-- **Reading** a block that is there. -/
theorem Has.read {cells : Multiset (Addr × β)} (hhas : Has h cells) (hmem : (a, b) ∈ cells) :
    h.read a = some b := by
  rw [← hhas, Multiset.mem_coe] at hmem
  obtain ⟨l₁, l₂, hcells⟩ := List.append_of_mem hmem
  have hnodup := h.nodup
  rw [hcells] at hnodup
  rw [Heap.read, hcells]
  exact lookup_middle hnodup

/-- **Writing** changes this block only. -/
theorem Has.write (hhas : Has h ({(a, b)} + rest)) (b' : β) :
    Ok (fun h' : Heap β => Has h' ({(a, b')} + rest) ∧ Outlives h h') (h.write a b') := by
  obtain ⟨l₁, l₂, hcells, hrest⟩ := hhas.middle
  have hnodup := h.nodup
  have hmem : a ∈ keys h.cells := hcells ▸ mem_keys_middle l₁ l₂
  rw [hcells] at hnodup
  refine ⟨_, if_pos hmem, ?_, outlives_write (if_pos hmem)⟩
  show ((h.cells.map fun x => if x.1 = a then (a, b') else x : List _) : Multiset (Addr × β)) = _
  rw [hcells, update_middle hnodup b', ← hrest]
  exact Multiset.coe_eq_coe.mpr List.perm_middle

/-- **Freeing** takes this block only. -/
theorem Has.free (hhas : Has h ({(a, b)} + rest)) :
    Ok (fun h' : Heap β => Has h' rest ∧ Outlives h h' ∧ Dead h' a) (h.free a) := by
  obtain ⟨l₁, l₂, hcells, hrest⟩ := hhas.middle
  have hnodup := h.nodup
  have hmem : a ∈ keys h.cells := hcells ▸ mem_keys_middle l₁ l₂
  rw [hcells] at hnodup
  refine ⟨_, if_pos hmem, ?_, outlives_free (if_pos hmem), dead_of_free (if_pos hmem)⟩
  show ((h.cells.filter fun x => x.1 ≠ a : List _) : Multiset (Addr × β)) = _
  rw [hcells, filter_middle hnodup, hrest]

end Rules

end Blocks
