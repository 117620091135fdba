/-
  Histories: finite lists of events, oldest first, that only grow at the end.

  Three ways to say something about a history, each with the rule for a history that grows:

  * `Sees P h` — some event of `h` satisfies `P`;
  * `Always R h` — each event `e` of `h` satisfies `R before e`, where `before` is the part of the
    history older than `e`.  "No `e` before a `d`", "each `e` only after a `d`" and "at each `e`
    the past looks so" are all of this form.  It is `Along` for the machine that appends events;
  * `Since P Q h` — after some event that satisfies `P`, the rest of the history satisfies `Q`.
-/
import Ctcp.Lib.Runs

namespace History

open Runs

variable {ε : Type}

/-- Some event satisfies `P`. -/
def Sees (P : ε → Prop) (h : List ε) : Prop := ∃ e ∈ h, P e

section Sees

variable {P : ε → Prop} {h h' : List ε} {e : ε}

@[simp] theorem not_sees_nil : ¬ Sees P [] := by simp [Sees]

@[simp] theorem sees_cons : Sees P (e :: h) ↔ P e ∨ Sees P h := by simp [Sees]

@[simp] theorem sees_append : Sees P (h ++ h') ↔ Sees P h ∨ Sees P h' := by
  simp [Sees, or_and_right, exists_or]

theorem Sees.mono (hs : Sees P h) (h' : List ε) : Sees P (h ++ h') := sees_append.mpr (Or.inl hs)

theorem sees_of_mem (hm : e ∈ h) (hP : P e) : Sees P h := ⟨e, hm, hP⟩

instance [DecidablePred P] : Decidable (Sees P h) := by unfold Sees; infer_instance

end Sees

/-- Append one event. -/
def record (h : List ε) (e : ε) : List ε := h ++ [e]

theorem run_record (h es : List ε) : run record h es = h ++ es := by
  induction es generalizing h with
  | nil => simp [run]
  | cons e es ih => simp [run, ih, record]

/-- Each of the events `es`, which follow `h`, stands in the relation `R` to its past. -/
abbrev AlwaysFrom (R : List ε → ε → Prop) (h es : List ε) : Prop := Along record R h es

/-- Each event stands in the relation `R` to its past. -/
abbrev Always (R : List ε → ε → Prop) (h : List ε) : Prop := AlwaysFrom R [] h

section Always

variable {R : List ε → ε → Prop} {h es : List ε}

/-- **A growing history.** -/
theorem always_append : Always R (h ++ es) ↔ Always R h ∧ AlwaysFrom R h es := by
  rw [Always, AlwaysFrom, along_append, run_record]
  simp

theorem alwaysFrom_append {es' : List ε} :
    AlwaysFrom R h (es ++ es') ↔ AlwaysFrom R h es ∧ AlwaysFrom R (h ++ es) es' := by
  rw [AlwaysFrom, along_append, run_record]

@[simp] theorem alwaysFrom_nil : AlwaysFrom R h [] ↔ True := Iff.rfl

@[simp] theorem alwaysFrom_cons {e : ε} :
    AlwaysFrom R h (e :: es) ↔ R h e ∧ AlwaysFrom R (h ++ [e]) es := Iff.rfl

/-- What `Always` says of one event. -/
theorem Always.at {before : List ε} {e : ε} {after : List ε}
    (ha : Always R (before ++ e :: after)) : R before e :=
  (alwaysFrom_cons.mp (always_append.mp ha).2).1

/-- Events that `R` says nothing about. -/
theorem alwaysFrom_of_forall (hR : ∀ before, ∀ e ∈ es, R before e) : AlwaysFrom R h es := by
  induction es generalizing h with
  | nil => trivial
  | cons e es ih =>
    refine ⟨hR h e List.mem_cons_self, ih ?_⟩
    intro before e' he'
    exact hR before e' (List.mem_cons_of_mem e he')

/-- **A machine that records what it does.**  A law of its history is a law of its steps. -/
theorem always_run {σ ι : Type} {step : σ → ι → σ} {trace : σ → List ε} {events : σ → ι → List ε}
    (htrace : ∀ s l, trace (step s l) = trace s ++ events s l) {s : σ} {ls : List ι} :
    Always R (trace (run step s ls)) ↔ Always R (trace s) ∧
      Along step (fun s l => AlwaysFrom R (trace s) (events s l)) s ls := by
  induction ls generalizing s with
  | nil => simp [run, Along]
  | cons l ls ih =>
    have hrun : run step s (l :: ls) = run step (step s l) ls := rfl
    rw [hrun, ih, htrace, always_append, and_assoc]
    rfl

end Always

/-- **Where a growing history is split**: in its old part or in its new one. -/
theorem split_append {h es before after : List ε} {e : ε} (heq : h ++ es = before ++ e :: after) :
    (∃ after', h = before ++ e :: after' ∧ after = after' ++ es) ∨
      (∃ before', before = h ++ before' ∧ es = before' ++ e :: after) := by
  rcases List.append_eq_append_iff.mp heq with ⟨mid, hbefore, hes⟩ | ⟨mid, hh, hafter⟩
  · exact Or.inr ⟨mid, hbefore, hes⟩
  · cases mid with
    | nil =>
      refine Or.inr ⟨[], ?_, ?_⟩
      · rw [hh, List.append_nil, List.append_nil]
      · exact hafter.symm
    | cons e' mid =>
      obtain ⟨rfl, rfl⟩ := List.cons.inj hafter
      exact Or.inl ⟨mid, hh, rfl⟩

/-- After some event that satisfies `P`, the rest of the history satisfies `Q`. -/
def Since (P : ε → Prop) (Q : ε → List ε → Prop) (h : List ε) : Prop :=
  ∃ before e after, h = before ++ e :: after ∧ P e ∧ Q e after

section Since

variable {P : ε → Prop} {Q Q' : ε → List ε → Prop} {h : List ε}

/-- The last event starts the wait. -/
theorem since_concat {e : ε} (hP : P e) (hQ : Q e []) : Since P Q (h ++ [e]) :=
  ⟨h, e, [], rfl, hP, hQ⟩

/-- The wait goes on over new events. -/
theorem Since.append {es : List ε} (hs : Since P Q h)
    (hQ : ∀ e after, P e → Q e after → Q' e (after ++ es)) : Since P Q' (h ++ es) := by
  obtain ⟨before, e, after, rfl, hP, hq⟩ := hs
  exact ⟨before, e, after ++ es, by simp, hP, hQ e after hP hq⟩

/-- What follows the last start of the wait is part of what follows any other. -/
theorem Since.after_last {before after : List ε} {e : ε} (hs : Since P Q h)
    (heq : h = before ++ e :: after) (hlast : ¬ Sees P after) :
    ∃ e' after', P e' ∧ Q e' after' ∧ after <:+ after' := by
  obtain ⟨before', e', after', rfl, hP, hQ⟩ := hs
  refine ⟨e', after', hP, hQ, ?_⟩
  rcases split_append heq with ⟨mid, -, rfl⟩ | ⟨mid, -, hmid⟩
  · -- here the wait would start once more after the last start
    exact absurd (sees_append.mpr (Or.inr (sees_of_mem List.mem_cons_self hP))) hlast
  · have hsuffix : e :: after <:+ e' :: after' := ⟨mid, hmid.symm⟩
    rcases List.suffix_cons_iff.mp hsuffix with heq' | hin
    · obtain ⟨-, rfl⟩ := List.cons.inj heq'
      exact List.suffix_refl _
    · exact (List.suffix_cons e after).trans hin

end Since

end History
