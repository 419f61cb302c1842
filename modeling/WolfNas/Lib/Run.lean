import Mathlib.Data.List.Basic

/-!
# Runs of a step function

A run folds a list of inputs over a state.  What one step establishes and every step keeps
holds at the end of the run.

## Main definitions

* `Run.Along` — a condition on the state and the input holds at every step of a run.
* `Run.Sometime` — it holds at some step.
* `Run.stateAt` — the state after some steps.
* `Run.trace` — what the steps of a run record, one after another.

## Main results

* `Run.invariant` — what every step keeps holds at the end.
* `Run.of_mem` — what one input establishes, and every input keeps, holds at the end of a run
  that takes that input.
* `Run.invariant_along` — what every step keeps under a condition holds at the end of a run
  all of whose steps meet it.
* `Run.along_step_iff` — what holds in every state of a run holds after each of its steps.
* `Run.foldl_iff_along` — what each step adds a condition to.
* `Run.forall_le_iff` — what relates any two states of a run relates each step's.
* `Run.of_sometime` — what one such step establishes, and every step keeps, holds at the end.
* `Run.of_mem_along` — what one input establishes under the condition holds at the end.
* `Run.forall_log_iff` — what holds of everything a run logs holds of what each step logs.
* `Run.exists_log_iff` — a run logs what one of its steps logs.
* `Run.not_sometime_iff` — what holds at no step.
* `Run.along_forall_imp_iff` — a consequence that is the same at all steps.
* `Run.forall_trace_iff` — what holds of everything recorded holds of what each step records.
* `Run.filter_trace_eq` — two runs that stay related record the same.
* `Run.along_log_prefix` — a run adds to its log.
* `Run.filter_simulates` — a run without those of its steps that are invisible.
* `Run.along_congr` — two conditions that agree along a run.
* `Run.along_congr_of_kept` — the same where the steps that meet them keep the invariant.
-/

namespace Run

variable {σ ι : Type} {step : σ → ι → σ} (P : σ → Prop)

/-- What holds at the start and is kept by every step holds at the end. -/
theorem invariant {inputs : List ι} {s : σ} (hs : P s)
    (hstep : ∀ s, P s → ∀ i ∈ inputs, P (step s i)) : P (inputs.foldl step s) := by
  induction inputs generalizing s with
  | nil => exact hs
  | cons i inputs ih =>
    refine ih (hstep s hs i List.mem_cons_self) ?_
    intro t ht j hj
    exact hstep t ht j (List.mem_cons_of_mem i hj)

/-- What one input establishes and every later step keeps holds at the end. -/
theorem of_mem {inputs : List ι} {i : ι} {s : σ} (hi : i ∈ inputs) (hest : ∀ s, P (step s i))
    (hkeep : ∀ s j, P s → P (step s j)) : P (inputs.foldl step s) := by
  induction inputs generalizing s with
  | nil => simp at hi
  | cons j inputs ih =>
    rcases List.mem_cons.mp hi with rfl | hi
    · rw [List.foldl_cons]
      exact invariant P (hest s) fun t ht j _ => hkeep t j ht
    · exact ih hi

/-- The condition `C` holds of the state and the input at every step of the run. -/
def Along (step : σ → ι → σ) (C : σ → ι → Prop) : σ → List ι → Prop
  | _, [] => True
  | s, i :: inputs => C s i ∧ Along step C (step s i) inputs

instance decidableAlong {C : σ → ι → Prop} [∀ s i, Decidable (C s i)] :
    (s : σ) → (inputs : List ι) → Decidable (Along step C s inputs)
  | _, [] => isTrue trivial
  | s, i :: inputs =>
    have : Decidable (Along step C (step s i) inputs) := decidableAlong (step s i) inputs
    inferInstanceAs (Decidable (C s i ∧ Along step C (step s i) inputs))

/-- A condition that always holds. -/
theorem along_of_forall {C : σ → ι → Prop} (h : ∀ s i, C s i) (s : σ) (inputs : List ι) :
    Along step C s inputs := by
  induction inputs generalizing s with
  | nil => trivial
  | cons i inputs ih => exact ⟨h s i, ih (step s i)⟩

/-- A condition holds along a run of two parts where it holds along both. -/
theorem along_append {C : σ → ι → Prop} {inputs inputs' : List ι} {s : σ} :
    Along step C s (inputs ++ inputs') ↔
      Along step C s inputs ∧ Along step C (inputs.foldl step s) inputs' := by
  induction inputs generalizing s with
  | nil => simp [Along]
  | cons i inputs ih => simp only [List.cons_append, Along, List.foldl_cons, ih, and_assoc]

/-- A condition that holds along a run holds along its first steps. -/
theorem Along.take {C : σ → ι → Prop} {inputs : List ι} {s : σ} (h : Along step C s inputs)
    (n : ℕ) : Along step C s (inputs.take n) := by
  induction inputs generalizing s n with
  | nil => simpa using h
  | cons i inputs ih =>
    cases n with
    | zero => trivial
    | succ n => exact ⟨h.1, ih h.2 n⟩

/-- A weaker condition holds along the same run. -/
theorem Along.imp {C D : σ → ι → Prop} {inputs : List ι} {s : σ} (h : ∀ s i, C s i → D s i)
    (hC : Along step C s inputs) : Along step D s inputs := by
  induction inputs generalizing s with
  | nil => trivial
  | cons i inputs ih => exact ⟨h s i hC.1, ih hC.2⟩

/-- What holds of every input holds along the run. -/
theorem Along.and_mem {C : σ → ι → Prop} {D : ι → Prop} {inputs : List ι} {s : σ}
    (h : Along step C s inputs) (hD : ∀ i ∈ inputs, D i) :
    Along step (fun s i => C s i ∧ D i) s inputs := by
  induction inputs generalizing s with
  | nil => trivial
  | cons i inputs ih =>
    refine ⟨⟨h.1, hD i List.mem_cons_self⟩, ih h.2 ?_⟩
    intro j hj
    exact hD j (List.mem_cons_of_mem i hj)

/-- What holds of every input, whatever the state. -/
theorem along_of_mem {D : ι → Prop} {inputs : List ι} {s : σ} (h : ∀ i ∈ inputs, D i) :
    Along step (fun _ i => D i) s inputs := by
  induction inputs generalizing s with
  | nil => trivial
  | cons i inputs ih =>
    exact ⟨h i List.mem_cons_self, ih fun j hj => h j (List.mem_cons_of_mem i hj)⟩

/-- What a step keeps under the condition `C` holds after a run all of whose steps meet
`C`. -/
theorem invariant_along {C : σ → ι → Prop} {inputs : List ι} {s : σ} (hs : P s)
    (hC : Along step C s inputs) (hstep : ∀ s i, P s → C s i → P (step s i)) :
    P (inputs.foldl step s) := by
  induction inputs generalizing s with
  | nil => exact hs
  | cons i inputs ih => exact ih (hstep s i hs hC.1) hC.2

/-- What follows from the invariant and the condition holds at every step. -/
theorem Along.of_invariant {C D : σ → ι → Prop} {inputs : List ι} {s : σ} (hs : P s)
    (hC : Along step C s inputs) (hstep : ∀ s i, P s → C s i → P (step s i))
    (hD : ∀ s i, P s → C s i → D s i) : Along step D s inputs := by
  induction inputs generalizing s with
  | nil => trivial
  | cons i inputs ih => exact ⟨hD s i hs hC.1, ih (hstep s i hs hC.1) hC.2⟩

/-- What holds in every state that a run reaches holds at its start and after each step. -/
theorem along_step_iff {inputs : List ι} {s : σ} :
    (∀ n, P ((inputs.take n).foldl step s)) ↔
      P s ∧ Along step (fun s i => P (step s i)) s inputs := by
  induction inputs generalizing s with
  | nil => simp [Along]
  | cons i inputs ih =>
    have hnext : P s ∧ Along step (fun s i => P (step s i)) s (i :: inputs) ↔
        P s ∧ ∀ n, P ((inputs.take n).foldl step (step s i)) := and_congr_right fun _ => ih.symm
    rw [hnext]
    constructor
    · intro h
      exact ⟨h 0, fun n => h (n + 1)⟩
    · rintro ⟨hs, h⟩ n
      cases n with
      | zero => exact hs
      | succ n => exact h n

/-- The state after `n` steps. -/
def stateAt (step : σ → ι → σ) (s : σ) (inputs : List ι) (n : ℕ) : σ := (inputs.take n).foldl step s

/-- What each step adds a condition to holds at the end where it held at the start and the
conditions hold along the run. -/
theorem foldl_iff_along {D : σ → ι → Prop} (I : σ → Prop) (hI : ∀ s i, I s → I (step s i))
    (hstep : ∀ s i, I s → (P (step s i) ↔ P s ∧ D s i)) {inputs : List ι} {s : σ} (hs : I s) :
    P (inputs.foldl step s) ↔ P s ∧ Along step D s inputs := by
  induction inputs generalizing s with
  | nil => simp [Along]
  | cons i inputs ih =>
    rw [List.foldl_cons, ih (hI s i hs), hstep s i hs]
    exact and_assoc

/-- A relation that can be chained holds between any two states of a run, the earlier one first,
where every step keeps it. -/
theorem forall_le_iff {R : σ → σ → Prop} (hrefl : ∀ s, R s s)
    (htrans : ∀ s t u, R s t → R t u → R s u) {inputs : List ι} {s : σ} :
    (∀ n m, n ≤ m → R (stateAt step s inputs n) (stateAt step s inputs m)) ↔
      Along step (fun s i => R s (step s i)) s inputs := by
  induction inputs generalizing s with
  | nil => simp [stateAt, Along, hrefl]
  | cons i inputs ih =>
    constructor
    · intro h
      refine ⟨h 0 1 (by omega), ih.mp ?_⟩
      intro n m hnm
      exact h (n + 1) (m + 1) (by omega)
    · rintro ⟨hstep, hrest⟩ n m hnm
      have hlater := ih.mpr hrest
      cases n with
      | zero =>
        cases m with
        | zero => exact hrefl s
        | succ m => exact htrans _ _ _ hstep (hlater 0 m (by omega))
      | succ n =>
        obtain ⟨m, rfl⟩ : ∃ k, m = k + 1 := ⟨m - 1, by omega⟩
        exact hlater n m (by omega)

/-- Two conditions hold along a run exactly where both do at every step. -/
theorem along_and {C D : σ → ι → Prop} {inputs : List ι} {s : σ} :
    Along step (fun s i => C s i ∧ D s i) s inputs ↔
      Along step C s inputs ∧ Along step D s inputs := by
  induction inputs generalizing s with
  | nil => simp [Along]
  | cons i inputs ih =>
    simp only [Along, ih]
    exact and_and_and_comm

/-- The condition `D` holds of the state and the input at some step of the run. -/
def Sometime (step : σ → ι → σ) (D : σ → ι → Prop) : σ → List ι → Prop
  | _, [] => False
  | s, i :: inputs => D s i ∨ Sometime step D (step s i) inputs

instance decidableSometime {D : σ → ι → Prop} [∀ s i, Decidable (D s i)] :
    (s : σ) → (inputs : List ι) → Decidable (Sometime step D s inputs)
  | _, [] => isFalse id
  | s, i :: inputs =>
    have : Decidable (Sometime step D (step s i) inputs) := decidableSometime (step s i) inputs
    inferInstanceAs (Decidable (D s i ∨ Sometime step D (step s i) inputs))

theorem sometime_of_mem {inputs : List ι} {i : ι} {s : σ} (hi : i ∈ inputs) :
    Sometime step (fun _ j => j = i) s inputs := by
  induction inputs generalizing s with
  | nil => simp at hi
  | cons j inputs ih =>
    rcases List.mem_cons.mp hi with rfl | hi
    · exact .inl rfl
    · exact .inr (ih hi)

/-- A condition that holds at some step holds of one of the inputs. -/
theorem Sometime.exists_mem {D : σ → ι → Prop} {inputs : List ι} {s : σ}
    (h : Sometime step D s inputs) : ∃ i ∈ inputs, ∃ s, D s i := by
  induction inputs generalizing s with
  | nil => exact h.elim
  | cons i inputs ih =>
    rcases h with h | h
    · exact ⟨i, List.mem_cons_self, s, h⟩
    · obtain ⟨j, hj, hD⟩ := ih h
      exact ⟨j, List.mem_cons_of_mem i hj, hD⟩

/-- A condition holds at no step exactly where the opposite holds at every step. -/
theorem not_sometime_iff {D : σ → ι → Prop} {inputs : List ι} {s : σ} :
    ¬Sometime step D s inputs ↔ Along step (fun s i => ¬D s i) s inputs := by
  induction inputs generalizing s with
  | nil => simp [Along, Sometime]
  | cons i inputs ih => simp only [Along, Sometime, not_or, ih]

/-- Where the consequence does not depend on the step, it is enough that some step calls for
it. -/
theorem along_forall_imp_iff {κ : Type} {D : κ → σ → ι → Prop} {Q : κ → Prop} {inputs : List ι}
    {s : σ} : Along step (fun s i => ∀ k, D k s i → Q k) s inputs ↔
      ∀ k, Sometime step (D k) s inputs → Q k := by
  induction inputs generalizing s with
  | nil => simp [Along, Sometime]
  | cons i inputs ih =>
    simp only [Along, Sometime, ih, or_imp, forall_and]

/-- What a step of the kind `D` establishes and every step keeps, under the condition `C` and
the invariant `P`, holds at the end of a run that meets `C` and has such a step. -/
theorem of_sometime {C D : σ → ι → Prop} (Q : σ → Prop) {inputs : List ι} {s : σ} (hs : P s)
    (hC : Along step C s inputs) (hD : Sometime step D s inputs)
    (hstep : ∀ s i, P s → C s i → P (step s i))
    (hest : ∀ s i, P s → C s i → D s i → Q (step s i))
    (hkeep : ∀ s i, P s → C s i → Q s → Q (step s i)) : Q (inputs.foldl step s) := by
  induction inputs generalizing s with
  | nil => exact hD.elim
  | cons i inputs ih =>
    rcases hD with hD | hD
    · have hboth : P (step s i) ∧ Q (step s i) := ⟨hstep s i hs hC.1, hest s i hs hC.1 hD⟩
      refine (invariant_along (fun s => P s ∧ Q s) hboth hC.2 ?_).2
      intro s j h hj
      exact ⟨hstep s j h.1 hj, hkeep s j h.1 hj h.2⟩
    · exact ih (hstep s i hs hC.1) hC.2 hD

/-- What one input establishes and every step keeps, under the condition `C` and the invariant
`P`, holds at the end of a run that meets `C` and takes that input. -/
theorem of_mem_along {C : σ → ι → Prop} (Q : σ → Prop) {inputs : List ι} {i : ι} {s : σ}
    (hs : P s) (hC : Along step C s inputs) (hi : i ∈ inputs)
    (hstep : ∀ s j, P s → C s j → P (step s j)) (hest : ∀ s, P s → C s i → Q (step s i))
    (hkeep : ∀ s j, P s → C s j → Q s → Q (step s j)) : Q (inputs.foldl step s) := by
  refine of_sometime P Q hs hC (sometime_of_mem hi) hstep ?_ hkeep
  intro s j hP hj hji
  obtain rfl : j = i := hji
  exact hest s hP hj

/-- A property holds of everything a run logs exactly where it holds, at every step, of what
that step logs. -/
theorem forall_log_iff {δ : Type} (log : σ → List δ) {new : σ → ι → List δ} {Q : δ → Prop}
    (hlog : ∀ s i, log (step s i) = log s ++ new s i) {inputs : List ι} {s : σ} :
    (∀ d ∈ log (inputs.foldl step s), Q d) ↔
      (∀ d ∈ log s, Q d) ∧ Along step (fun s i => ∀ d ∈ new s i, Q d) s inputs := by
  induction inputs generalizing s with
  | nil => simp [Along]
  | cons i inputs ih =>
    rw [List.foldl_cons, ih, hlog]
    simp only [List.forall_mem_append, Along]
    exact and_assoc

/-- Something a run logs has a property exactly where, at some step, something that step logs
has it. -/
theorem exists_log_iff {δ : Type} (log : σ → List δ) {new : σ → ι → List δ} {Q : δ → Prop}
    (hlog : ∀ s i, log (step s i) = log s ++ new s i) {inputs : List ι} {s : σ} :
    (∃ d ∈ log (inputs.foldl step s), Q d) ↔
      (∃ d ∈ log s, Q d) ∨ Sometime step (fun s i => ∃ d ∈ new s i, Q d) s inputs := by
  induction inputs generalizing s with
  | nil => simp [Sometime]
  | cons i inputs ih =>
    rw [List.foldl_cons, ih, hlog]
    simp only [List.mem_append, or_and_right, exists_or, Sometime]
    exact or_assoc

/-- What the steps of a run record, where the record is no part of the state. -/
def trace {δ : Type} (step : σ → ι → σ) (new : σ → ι → List δ) : σ → List ι → List δ
  | _, [] => []
  | s, i :: inputs => new s i ++ trace step new (step s i) inputs

/-- A property holds of everything recorded along a run exactly where it holds, at every step,
of what that step records. -/
theorem forall_trace_iff {δ : Type} {new : σ → ι → List δ} {Q : δ → Prop} {inputs : List ι}
    {s : σ} :
    (∀ d ∈ trace step new s inputs, Q d) ↔
      Along step (fun s i => ∀ d ∈ new s i, Q d) s inputs := by
  induction inputs generalizing s with
  | nil => simp [trace, Along]
  | cons i inputs ih =>
    simp only [trace, List.forall_mem_append, ih, Along]

/-- Two runs that stay related record the same of what is looked at. -/
theorem filter_trace_eq {δ : Type} {new : σ → ι → List δ} (R : σ → σ → Prop) (look : δ → Bool)
    (hstep : ∀ s t i, R s t → R (step s i) (step t i))
    (hnew : ∀ s t i, R s t → (new s i).filter look = (new t i).filter look) {inputs : List ι}
    {s t : σ} (h : R s t) :
    (trace step new s inputs).filter look = (trace step new t inputs).filter look := by
  induction inputs generalizing s t with
  | nil => rfl
  | cons i inputs ih =>
    rw [trace, trace, List.filter_append, List.filter_append, hnew s t i h, ih (hstep s t i h)]

/-- What is logged after each step stands at the beginning of what the run logs. -/
theorem along_log_prefix {δ : Type} (log : σ → List δ) {new : σ → ι → List δ}
    (hlog : ∀ s i, log (step s i) = log s ++ new s i) {inputs : List ι} {s : σ} :
    log s <+: log (inputs.foldl step s) ∧
      Along step (fun s' i => log (step s' i) <+: log (inputs.foldl step s)) s inputs := by
  induction inputs generalizing s with
  | nil => exact ⟨List.prefix_refl _, trivial⟩
  | cons i inputs ih =>
    obtain ⟨hlogged, halong⟩ := ih (s := step s i)
    have hstep : log s <+: log (step s i) := by
      rw [hlog]
      exact List.prefix_append _ _
    exact ⟨hstep.trans hlogged, hlogged, halong⟩

/-- A run and one without those of its steps that the relation does not see, where the others
keep the relation on both sides. -/
theorem filter_simulates {τ : Type} {step' : τ → ι → τ} {C : σ → ι → Prop} (R : σ → τ → Prop)
    (keep : ι → Bool) (hskip : ∀ s t i, R s t → C s i → keep i = false → R (step s i) t)
    (hkeep : ∀ s t i, R s t → C s i → keep i = true → R (step s i) (step' t i)) {inputs : List ι}
    {s : σ} {t : τ} (hC : Along step C s inputs) (h : R s t) :
    R (inputs.foldl step s) ((inputs.filter keep).foldl step' t) := by
  induction inputs generalizing s t with
  | nil => exact h
  | cons i inputs ih =>
    cases hi : keep i with
    | true =>
      rw [List.filter_cons_of_pos hi]
      exact ih hC.2 (hkeep s t i h hC.1 hi)
    | false =>
      rw [List.filter_cons_of_neg (by simp [hi])]
      exact ih hC.2 (hskip s t i h hC.1 hi)

/-- Two conditions that agree at every state and input agree along a run. -/
theorem along_iff {C D : σ → ι → Prop} (h : ∀ s i, C s i ↔ D s i) {inputs : List ι} {s : σ} :
    Along step C s inputs ↔ Along step D s inputs := by
  have heq : C = D := funext fun s => funext fun i => propext (h s i)
  rw [heq]

/-- Two conditions that agree at every state and input agree at some step. -/
theorem sometime_congr {C D : σ → ι → Prop} (h : ∀ s i, C s i ↔ D s i) {inputs : List ι} {s : σ} :
    Sometime step C s inputs ↔ Sometime step D s inputs := by
  have heq : C = D := funext fun s => funext fun i => propext (h s i)
  rw [heq]

/-- Two conditions agree along a run that keeps an invariant on the state and the inputs that
are still to come. -/
theorem along_congr {C D : σ → ι → Prop} (I : σ → List ι → Prop)
    (hstep : ∀ s i inputs, I s (i :: inputs) → I (step s i) inputs)
    (h : ∀ s i inputs, I s (i :: inputs) → (C s i ↔ D s i)) {inputs : List ι} {s : σ}
    (hI : I s inputs) : Along step C s inputs ↔ Along step D s inputs := by
  induction inputs generalizing s with
  | nil => exact Iff.rfl
  | cons i inputs ih => exact and_congr (h s i inputs hI) (ih (hstep s i inputs hI))

/-- Two conditions agree along a run if they agree under an invariant that every step meeting
them keeps. -/
theorem along_congr_of_kept {C D : σ → ι → Prop} (hagree : ∀ s i, P s → (C s i ↔ D s i))
    (hkeep : ∀ s i, P s → C s i → P (step s i)) {inputs : List ι} {s : σ} (hs : P s) :
    Along step C s inputs ↔ Along step D s inputs := by
  induction inputs generalizing s with
  | nil => exact Iff.rfl
  | cons i inputs ih =>
    constructor
    · intro h
      exact ⟨(hagree s i hs).mp h.1, (ih (hkeep s i hs h.1)).mp h.2⟩
    · intro h
      have hC := (hagree s i hs).mpr h.1
      exact ⟨hC, (ih (hkeep s i hs hC)).mpr h.2⟩

end Run
