/-
  Machines in a table, each under its key.

  A call names the machine that it is for.  `callMember` steps that machine, and takes it out of the
  table when it has come to an end (`dead`).  The record of the calls says for each key what the
  machine has been called with, and `own` is the state of the machine run on these calls alone.

  `Held` is the invariant: the table holds, under each key that has been taken, the machine as it
  would be if it had run alone, as long as it is not dead.  So the machines do not disturb each
  other, and what holds in every run of one of them holds in the table.  `Held.call` is the rule for
  a call, `Held.add` the one for a new key.
-/
import Ctcp.Lib.Runs
import Ctcp.Lib.Keyed

set_option linter.unusedVariables false

namespace Members

open Runs Keyed

variable {κ σ ι : Type} [DecidableEq κ]

/-- The calls for `k` in a record of calls. -/
def callsOf (k : κ) (record : List (κ × ι)) : List ι :=
  record.filterMap fun x => if x.1 = k then some x.2 else none

section CallsOf

variable {k k' : κ} {i : ι} {record : List (κ × ι)}

@[simp] theorem callsOf_nil : callsOf k ([] : List (κ × ι)) = [] := rfl

theorem callsOf_append (record' : List (κ × ι)) :
    callsOf k (record ++ record') = callsOf k record ++ callsOf k record' := by
  simp [callsOf]

theorem callsOf_same : callsOf k (record ++ [(k, i)]) = callsOf k record ++ [i] := by
  simp [callsOf]

theorem callsOf_other (hne : k' ≠ k) : callsOf k' (record ++ [(k, i)]) = callsOf k' record := by
  simp [callsOf, hne.symm]

end CallsOf

section Table

variable (step : σ → ι → σ) (dead : σ → Bool) (start : σ)

/-- The machine under `k`, run alone. -/
def own (k : κ) (record : List (κ × ι)) : σ := run step start (callsOf k record)

/-- What a table holds of a machine: nothing, when it is dead. -/
def listed (s : σ) : Option σ := if dead s then none else some s

/-- A call for the machine under `k`. -/
def callMember (table : List (κ × σ)) (k : κ) (i : ι) : List (κ × σ) :=
  match table.lookup k with
  | none => table
  | some s =>
    if dead (step s i) then table.filter fun x => x.1 ≠ k
    else table.map fun x => if x.1 = k then (k, step s i) else x

/-- **The table holds each machine as if it had run alone.** -/
structure Held (known : κ → Prop) (record : List (κ × ι)) (table : List (κ × σ)) : Prop where
  member : ∀ k, known k → table.lookup k = listed dead (own step start k record)
  unknown : ∀ k, ¬ known k → table.lookup k = none ∧ callsOf k record = []

variable {step dead start} {known : κ → Prop} {record : List (κ × ι)} {table : List (κ × σ)}

/-- What is in the table is alive, and known. -/
theorem Held.own_of_lookup (h : Held step dead start known record table) {k : κ} {s : σ}
    (hs : table.lookup k = some s) :
    known k ∧ own step start k record = s ∧ dead s = false := by
  by_cases hk : known k
  · have hmember := (h.member k hk).symm.trans hs
    rw [listed] at hmember
    split at hmember
    · cases hmember
    · rename_i hlive
      obtain rfl := Option.some.inj hmember
      exact ⟨hk, rfl, Bool.eq_false_iff.mpr hlive⟩
  · cases (h.unknown k hk).1.symm.trans hs

theorem Held.known_of_mem (h : Held step dead start known record table) {k : κ}
    (hk : k ∈ keys table) : known k := by
  obtain ⟨s, hs, -⟩ := lookup_of_mem hk
  exact (h.own_of_lookup hs).1

/-- A call changes no other machine. -/
theorem lookup_callMember_other {k k' : κ} (i : ι) (hne : k' ≠ k) :
    (callMember step dead table k i).lookup k' = table.lookup k' := by
  unfold callMember
  split
  · rfl
  · split
    · exact lookup_filter table hne
    · rw [lookup_update, if_neg hne]

/-- A call changes its own machine as `step` says. -/
theorem lookup_callMember {k : κ} (i : ι) :
    (callMember step dead table k i).lookup k
      = (table.lookup k).bind fun s => listed dead (step s i) := by
  unfold callMember listed
  cases hs : table.lookup k with
  | none => exact hs
  | some s =>
    show (if dead (step s i) then _ else _ : List (κ × σ)).lookup k
      = if dead (step s i) then none else some (step s i)
    split
    · refine lookup_eq_none ?_
      simp [keys]
    · rw [lookup_update, if_pos rfl, hs]
      rfl

/-- **The rule for a call**, when nothing happens to a dead machine. -/
theorem Held.call (h : Held step dead start known record table)
    (hdead : ∀ s i, dead s = true → step s i = s) {k : κ} (hk : known k) (i : ι) :
    Held step dead start known (record ++ [(k, i)]) (callMember step dead table k i) := by
  refine ⟨fun k' hk' => ?_, fun k' hk' => ?_⟩
  · by_cases heq : k' = k
    · subst heq
      have hown : own step start k' (record ++ [(k', i)])
          = step (own step start k' record) i := by
        rw [own, callsOf_same, run_append]
        rfl
      rw [lookup_callMember, h.member k' hk', hown]
      cases hlive : dead (own step start k' record) with
      | true =>
        rw [hdead _ i hlive]
        simp [listed, hlive]
      | false => simp [listed, hlive]
    · rw [lookup_callMember_other i heq, own, callsOf_other heq]
      exact h.member k' hk'
  · have hne : k' ≠ k := by
      rintro rfl
      exact hk' hk
    rw [lookup_callMember_other i hne, callsOf_other hne]
    exact h.unknown k' hk'

/-- **The rule for a new machine.** -/
theorem Held.add (h : Held step dead start known record table) (hstart : dead start = false)
    {known' : κ → Prop} {k : κ} (hnew : ¬ known k) (hknown : ∀ k', known' k' ↔ known k' ∨ k' = k) :
    Held step dead start known' record ((k, start) :: table) := by
  refine ⟨fun k' hk' => ?_, fun k' hk' => ?_⟩
  · by_cases heq : k' = k
    · subst heq
      have hown : own step start k' record = start := by
        rw [own, (h.unknown k' hnew).2]
        rfl
      rw [List.lookup_cons_self, hown, listed, hstart]
      rfl
    · have hbeq : (k' == k) = false := by simpa using heq
      rw [List.lookup_cons, hbeq]
      exact h.member k' (((hknown k').mp hk').resolve_right heq)
  · have hne : k' ≠ k := fun heq => hk' ((hknown k').mpr (Or.inr heq))
    have hbeq : (k' == k) = false := by simpa using hne
    rw [List.lookup_cons, hbeq]
    exact h.unknown k' fun hold => hk' ((hknown k').mpr (Or.inl hold))

/-- Nobody is in an empty table. -/
theorem held_nil : Held step dead start (fun _ => False) [] ([] : List (κ × σ)) :=
  ⟨fun _ hk => hk.elim, fun _ _ => ⟨rfl, rfl⟩⟩

end Table

end Members
