/-
  Lists of values under keys.

  What an intrusive list or a table holds, in its order: `l : List (κ × α)`, each key at most once.
  A value is found (`lookup`), replaced (`map`), put behind another (`insertBehind`) or taken out
  (`filter`) by its key, and each of these is known once the list is cut at the key:
  `lookup_middle`, `update_middle`, `insertBehind_middle`, `filter_middle`.
-/
import Mathlib.Data.List.Nodup

set_option linter.unusedVariables false

namespace Keyed

variable {κ α : Type} {l l₁ l₂ : List (κ × α)} {a b : κ} {v w : α}

/-- The keys, in order. -/
abbrev keys (l : List (κ × α)) : List κ := l.map Prod.fst

theorem keys_append : keys (l₁ ++ l₂) = keys l₁ ++ keys l₂ := List.map_append

theorem keys_subset_left : keys l₁ ⊆ keys (l₁ ++ l₂) := by
  rw [keys_append]
  exact List.subset_append_left _ _

theorem keys_subset_right : keys l₂ ⊆ keys (l₁ ++ l₂) := by
  rw [keys_append]
  exact List.subset_append_right _ _

theorem nodup_keys_append :
    (keys (l₁ ++ l₂)).Nodup ↔
      (keys l₁).Nodup ∧ (keys l₂).Nodup ∧ (keys l₁).Disjoint (keys l₂) := by
  rw [keys_append]
  exact List.nodup_append'

/-- The keys of a list with `a` in it. -/
theorem nodup_keys_middle :
    (keys (l₁ ++ (a, v) :: l₂)).Nodup ↔
      a ∉ keys l₁ ∧ a ∉ keys l₂ ∧ (keys (l₁ ++ l₂)).Nodup := by
  simp only [keys, List.map_append, List.map_cons, List.nodup_append, List.nodup_cons,
    List.mem_cons]
  grind

theorem exists_middle (h : a ∈ keys l) : ∃ l₁ v l₂, l = l₁ ++ (a, v) :: l₂ := by
  obtain ⟨⟨_, v⟩, hx, rfl⟩ := List.mem_map.mp h
  obtain ⟨l₁, l₂, rfl⟩ := List.append_of_mem hx
  exact ⟨l₁, v, l₂, rfl⟩

variable [DecidableEq κ]

/-! ## Finding -/

theorem lookup_of_mem (h : a ∈ keys l) : ∃ v, l.lookup a = some v ∧ (a, v) ∈ l := by
  cases hlookup : l.lookup a with
  | none =>
    obtain ⟨x, hx, rfl⟩ := List.mem_map.mp h
    exact absurd (List.lookup_eq_none_iff.mp hlookup x hx) (by simp)
  | some v =>
    obtain ⟨l₁, l₂, rfl, -⟩ := List.lookup_eq_some_iff.mp hlookup
    exact ⟨v, rfl, by simp⟩

theorem mem_of_lookup (h : l.lookup a = some v) : (a, v) ∈ l := by
  obtain ⟨l₁, l₂, rfl, -⟩ := List.lookup_eq_some_iff.mp h
  simp

theorem lookup_eq_none (hne : a ∉ keys l) : l.lookup a = none := by
  refine List.lookup_eq_none_iff.mpr ?_
  intro x hx
  have hdiff : a ≠ x.1 := by
    rintro rfl
    exact hne (List.mem_map_of_mem hx)
  simpa using hdiff

theorem lookup_middle (hnd : (keys (l₁ ++ (a, v) :: l₂)).Nodup) :
    (l₁ ++ (a, v) :: l₂).lookup a = some v := by
  have hnone : l₁.lookup a = none := lookup_eq_none (nodup_keys_middle.mp hnd).1
  rw [List.lookup_append, hnone, Option.none_or, List.lookup_cons_self]

/-! ## Taking out -/

theorem lookup_filter (l : List (κ × α)) (hne : b ≠ a) :
    (l.filter fun x => x.1 ≠ a).lookup b = l.lookup b := by
  induction l with
  | nil => rfl
  | cons x l ih =>
    by_cases heq : x.1 = a
    · have hx : (b == x.1) = false := by simpa [heq] using hne
      rw [List.filter_cons_of_neg (by simp [heq]), ih, List.lookup_cons, hx]
    · rw [List.filter_cons_of_pos (by simp [heq]), List.lookup_cons, List.lookup_cons, ih]

theorem filter_eq_self (hne : a ∉ keys l) : l.filter (fun x => x.1 ≠ a) = l := by
  refine List.filter_eq_self.mpr ?_
  intro x hx
  refine decide_eq_true ?_
  rintro rfl
  exact hne (List.mem_map_of_mem hx)

theorem filter_middle (hnd : (keys (l₁ ++ (a, v) :: l₂)).Nodup) :
    (l₁ ++ (a, v) :: l₂).filter (fun x => x.1 ≠ a) = l₁ ++ l₂ := by
  obtain ⟨hne₁, hne₂, -⟩ := nodup_keys_middle.mp hnd
  rw [List.filter_append, List.filter_cons_of_neg (by simp), filter_eq_self hne₁,
    filter_eq_self hne₂]

/-! ## Replacing -/

theorem lookup_update (l : List (κ × α)) (a b : κ) (w : α) :
    (l.map fun x => if x.1 = a then (a, w) else x).lookup b
      = if b = a then (l.lookup b).map fun _ => w else l.lookup b := by
  induction l with
  | nil => simp
  | cons x l ih =>
    rw [List.map_cons, List.lookup_cons, List.lookup_cons, ih]
    by_cases hx : x.1 = a
    · by_cases hb : b = a
      · simp [hx, hb]
      · have hba : (b == a) = false := by simpa using hb
        simp [hx, hb, hba]
    · by_cases hb : b = a
      · subst hb
        have hbx : (b == x.1) = false := by simpa using fun heq => hx (Eq.symm heq)
        simp [hx, hbx]
      · simp [hx, hb]

theorem update_eq_self (hne : a ∉ keys l) (w : α) :
    l.map (fun x => if x.1 = a then (a, w) else x) = l := by
  refine (List.map_congr_left ?_).trans (List.map_id l)
  intro x hx
  refine if_neg ?_
  rintro rfl
  exact hne (List.mem_map_of_mem hx)

theorem update_middle (hnd : (keys (l₁ ++ (a, v) :: l₂)).Nodup) (w : α) :
    (l₁ ++ (a, v) :: l₂).map (fun x => if x.1 = a then (a, w) else x)
      = l₁ ++ (a, w) :: l₂ := by
  obtain ⟨hne₁, hne₂, -⟩ := nodup_keys_middle.mp hnd
  rw [List.map_append, List.map_cons, if_pos rfl, update_eq_self hne₁, update_eq_self hne₂]

/-! ## Putting behind -/

/-- `x` behind the key `b`. -/
def insertBehind (b : κ) (x : κ × α) : List (κ × α) → List (κ × α)
  | [] => []
  | y :: rest => if y.1 = b then y :: x :: rest else y :: insertBehind b x rest

theorem insertBehind_middle (hne : b ∉ keys l₁) (x : κ × α) :
    insertBehind b x (l₁ ++ (b, w) :: l₂) = l₁ ++ (b, w) :: x :: l₂ := by
  induction l₁ with
  | nil => exact if_pos rfl
  | cons y rest ih =>
    obtain ⟨hy, hrest⟩ := List.ne_and_not_mem_of_not_mem_cons hne
    show (if y.1 = b then _ else y :: insertBehind b x (rest ++ (b, w) :: l₂)) = _
    rw [if_neg (Ne.symm hy), ih hrest]
    rfl

/-- One element more. -/
theorem insertBehind_perm (h : b ∈ keys l) (x : κ × α) :
    (insertBehind b x l).Perm (x :: l) := by
  induction l with
  | nil => exact absurd h List.not_mem_nil
  | cons y rest ih =>
    show (if y.1 = b then y :: x :: rest else y :: insertBehind b x rest).Perm _
    split
    · exact List.Perm.swap x y rest
    · rename_i hne
      have hrest : b ∈ keys rest := (List.mem_cons.mp h).resolve_left (Ne.symm hne)
      exact ((ih hrest).cons y).trans (List.Perm.swap x y rest)

end Keyed
