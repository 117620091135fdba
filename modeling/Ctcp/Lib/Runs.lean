/-
  Runs of a deterministic labelled machine, and conditions that hold ALONG a run.

  A machine is a function `step : σ → ι → σ`; a label carries everything the environment decides.
  `run step s ls` is the state after the labels `ls`, and `Along step P s ls` says that `P` holds
  of every label of `ls` at the state in which it is taken.  `Along` is used for three things:
  as the domain of a result (every label is one the environment can produce), as its hypothesis
  (no label takes the branch that goes wrong) and as its conclusion (every step is as it should
  be).  The rules below relate the three:

  * `run_invariant`, `Along.invariant` — an invariant kept by the steps holds at the end;
  * `along_iff_of_invariant` — under an invariant, two conditions that agree step by step agree
    along the run;
  * `Frame.run` — what does not change in a step does not change in a run.

  `Leads` says that a given sequence of labels can be taken from every state of a kind, and where it
  ends; its rules put the phases of a scenario together.

  `Simulates` is the forward simulation between two machines, and `Simulates.run` its run form:
  a run of the concrete machine is matched by a run of the abstract one.  `Simulates.comp` puts two
  of them together.
-/

namespace Runs

variable {σ ι τ κ : Type}

/-- The state after the labels `ls`, from `s`. -/
def run (step : σ → ι → σ) : σ → List ι → σ
  | s, [] => s
  | s, l :: ls => run step (step s l) ls

/-- `P` holds of every label at the state in which it is taken. -/
def Along (step : σ → ι → σ) (P : σ → ι → Prop) : σ → List ι → Prop
  | _, [] => True
  | s, l :: ls => P s l ∧ Along step P (step s l) ls

variable {step : σ → ι → σ} {P Q : σ → ι → Prop} {I : σ → Prop} {s : σ} {ls : List ι}

/-- A condition that can be tested at each label can be tested along a run. -/
instance decidableAlong [∀ s l, Decidable (P s l)] :
    ∀ (s : σ) (ls : List ι), Decidable (Along step P s ls)
  | _, [] => isTrue trivial
  | s, l :: ls =>
    have := decidableAlong (step s l) ls
    inferInstanceAs (Decidable (P s l ∧ Along step P (step s l) ls))

theorem run_append (s : σ) (ls ls' : List ι) :
    run step s (ls ++ ls') = run step (run step s ls) ls' := by
  induction ls generalizing s with
  | nil => rfl
  | cons l ls ih => exact ih (step s l)

theorem along_append (s : σ) (ls ls' : List ι) :
    Along step P s (ls ++ ls') ↔ Along step P s ls ∧ Along step P (run step s ls) ls' := by
  induction ls generalizing s with
  | nil => simp [Along, run]
  | cons l ls ih => simp [Along, run, ih, and_assoc]

/-- A condition on the labels alone. -/
theorem along_of_forall {A : ι → Prop} (h : ∀ l ∈ ls, A l) :
    Along step (fun _ l => A l) s ls := by
  induction ls generalizing s with
  | nil => trivial
  | cons l ls ih =>
    exact ⟨h l List.mem_cons_self, ih (fun l' hl' => h l' (List.mem_cons_of_mem l hl'))⟩

theorem Along.and (hP : Along step P s ls) (hQ : Along step Q s ls) :
    Along step (fun s l => P s l ∧ Q s l) s ls := by
  induction ls generalizing s with
  | nil => trivial
  | cons l ls ih => exact ⟨⟨hP.1, hQ.1⟩, ih hP.2 hQ.2⟩

/-- A weaker condition. -/
theorem Along.imp (himp : ∀ s l, P s l → Q s l) (h : Along step P s ls) : Along step Q s ls := by
  induction ls generalizing s with
  | nil => trivial
  | cons l ls ih => exact ⟨himp s l h.1, ih h.2⟩

/-- What every step keeps, holds at the end of the run. -/
theorem run_invariant (hstep : ∀ s l, I s → I (step s l)) (h0 : I s) : I (run step s ls) := by
  induction ls generalizing s with
  | nil => exact h0
  | cons l ls ih => exact ih (hstep s l h0)

/-- **Invariant rule.** What the steps satisfying `P` keep, holds at the end of the run. -/
theorem Along.invariant (hstep : ∀ s l, I s → P s l → I (step s l)) (h0 : I s)
    (h : Along step P s ls) : I (run step s ls) := by
  induction ls generalizing s with
  | nil => exact h0
  | cons l ls ih => exact ih (hstep s l h0 h.1) h.2

/-- Two conditions that agree at each step, under an invariant kept by the steps that satisfy the
    first, agree along every run. -/
theorem along_iff_of_invariant (hstep : ∀ s l, I s → P s l → I (step s l))
    (hiff : ∀ s l, I s → (P s l ↔ Q s l)) (h0 : I s) :
    Along step P s ls ↔ Along step Q s ls := by
  induction ls generalizing s with
  | nil => exact Iff.rfl
  | cons l ls ih =>
    constructor
    · rintro ⟨hP, hrest⟩
      exact ⟨(hiff s l h0).mp hP, (ih (hstep s l h0 hP)).mp hrest⟩
    · rintro ⟨hQ, hrest⟩
      have hP := (hiff s l h0).mpr hQ
      exact ⟨hP, (ih (hstep s l h0 hP)).mpr hrest⟩

/-- Steps that change nothing can be left out. -/
theorem Along.skip (h : Along step (fun s l => (P s l ∨ step s l = s) ∧ Q s l) s ls) :
    ∃ ks, Along step (fun s l => P s l ∧ Q s l) s ks ∧ run step s ks = run step s ls := by
  induction ls generalizing s with
  | nil => exact ⟨[], trivial, rfl⟩
  | cons l ls ih =>
    obtain ⟨⟨hP | hsame, hQ⟩, hrest⟩ := h
    · obtain ⟨ks, hks, hrun⟩ := ih hrest
      exact ⟨l :: ks, ⟨⟨hP, hQ⟩, hks⟩, hrun⟩
    · rw [hsame] at hrest
      obtain ⟨ks, hks, hrun⟩ := ih hrest
      refine ⟨ks, hks, ?_⟩
      rw [run, hsame]
      exact hrun

/-! ## Frame conditions -/

/-- A relation between a state and a later one that holds of each state and itself, and composes:
    what has not changed, or has changed in one direction only. -/
structure Frame (R : σ → σ → Prop) : Prop where
  refl : ∀ s, R s s
  trans : ∀ {s t u}, R s t → R t u → R s u

/-- **Frame rule.** What holds across each step holds across the run. -/
theorem Frame.run {R : σ → σ → Prop} (hR : Frame R) (hstep : ∀ s l, R s (step s l)) (s : σ)
    (ls : List ι) : R s (Runs.run step s ls) := by
  induction ls generalizing s with
  | nil => exact hR.refl s
  | cons l ls ih => exact hR.trans (hstep s l) (ih (step s l))

/-! ## Phases -/

/-- From every state that satisfies `p`, the labels `ls` can be taken, each allowed by `A`, and they
    end in a state that satisfies `q`. -/
def Leads (step : σ → ι → σ) (A : σ → ι → Prop) (p : σ → Prop) (ls : List ι) (q : σ → Prop) :
    Prop :=
  ∀ s, p s → Along step A s ls ∧ q (run step s ls)

section Leads

variable {A : σ → ι → Prop} {p p' q q' r : σ → Prop} {l : ι} {ls' : List ι}

theorem Leads.nil (h : ∀ s, p s → q s) : Leads step A p [] q := fun s hs => ⟨trivial, h s hs⟩

/-- One label. -/
theorem Leads.one (h : ∀ s, p s → A s l ∧ q (step s l)) : Leads step A p [l] q := by
  intro s hs
  obtain ⟨hl, hq⟩ := h s hs
  exact ⟨⟨hl, trivial⟩, hq⟩

/-- **One phase after the other.** -/
theorem Leads.append (h : Leads step A p ls q) (h' : Leads step A q ls' r) :
    Leads step A p (ls ++ ls') r := by
  intro s hs
  obtain ⟨hls, hq⟩ := h s hs
  obtain ⟨hls', hr⟩ := h' _ hq
  refine ⟨(along_append s ls ls').mpr ⟨hls, hls'⟩, ?_⟩
  rw [run_append]
  exact hr

/-- Less is known before, or asked for afterwards. -/
theorem Leads.weaken (h : Leads step A p ls q) (hp : ∀ s, p' s → p s) (hq : ∀ s, q s → q' s) :
    Leads step A p' ls q' := by
  intro s hs
  obtain ⟨hls, hend⟩ := h s (hp s hs)
  exact ⟨hls, hq _ hend⟩

/-- **A phase that comes back to where it started can be repeated.** -/
theorem Leads.repeats (h : Leads step A p ls p) (n : Nat) :
    Leads step A p (List.replicate n ls).flatten p := by
  induction n with
  | zero => exact Leads.nil fun s hs => hs
  | succ n ih =>
    rw [List.replicate_succ, List.flatten_cons]
    exact h.append ih

/-- **Phases that count.** -/
theorem Leads.counts {p : Nat → σ → Prop} (h : ∀ n, Leads step A (p n) ls (p (n + 1))) (m n : Nat) :
    Leads step A (p m) (List.replicate n ls).flatten (p (m + n)) := by
  induction n generalizing m with
  | zero => exact Leads.nil fun s hs => hs
  | succ n ih =>
    rw [List.replicate_succ, List.flatten_cons, Nat.add_comm n 1, ← Nat.add_assoc]
    exact (h m).append (ih (m + 1))

end Leads

/-! ## Forward simulation -/

/-- `R` relates concrete and abstract states so that each concrete step allowed by `P` is matched
    by a sequence of abstract steps, each of them allowed by `P'`. -/
structure Simulates (step : σ → ι → σ) (P : σ → ι → Prop) (step' : τ → κ → τ)
    (P' : τ → κ → Prop) (R : σ → τ → Prop) : Prop where
  matched : ∀ s t l, R s t → P s l →
    ∃ ks, Along step' P' t ks ∧ R (step s l) (run step' t ks)

/-- **Simulation, over runs.** -/
theorem Simulates.run {step' : τ → κ → τ} {P' : τ → κ → Prop} {R : σ → τ → Prop}
    (hsim : Simulates step P step' P' R) {t : τ} (h0 : R s t) (h : Along step P s ls) :
    ∃ ks, Along step' P' t ks ∧ R (Runs.run step s ls) (Runs.run step' t ks) := by
  induction ls generalizing s t with
  | nil => exact ⟨[], trivial, h0⟩
  | cons l ls ih =>
    obtain ⟨ks, hks, hR⟩ := hsim.matched s t l h0 h.1
    obtain ⟨ks', hks', hR'⟩ := ih hR h.2
    refine ⟨ks ++ ks', (along_append t ks ks').mpr ⟨hks, hks'⟩, ?_⟩
    rw [run_append]
    exact hR'

/-- **Simulations compose**: through the states of the machine in between. -/
theorem Simulates.comp {υ lam : Type} {step' : τ → κ → τ} {P' : τ → κ → Prop} {R : σ → τ → Prop}
    {step'' : υ → lam → υ} {P'' : υ → lam → Prop} {R' : τ → υ → Prop}
    (hsim : Simulates step P step' P' R) (hsim' : Simulates step' P' step'' P'' R') :
    Simulates step P step'' P'' fun s u => ∃ t, R s t ∧ R' t u := by
  refine ⟨?_⟩
  rintro s u l ⟨t, hR, hR'⟩ hP
  obtain ⟨ks, hks, hnext⟩ := hsim.matched s t l hR hP
  obtain ⟨js, hjs, hnext'⟩ := hsim'.run hR' hks
  exact ⟨js, hjs, _, hnext, hnext'⟩

end Runs
