import Mathlib.Data.List.Basic

/-!
# Runs of a deterministic machine

A run folds a step function over a list of inputs. The rules pass from one step to a whole
run: what every step keeps, the run keeps, also when a step is only known to behave where
some condition on the state before it and its input holds.
-/

namespace Run

variable {σ ι : Type}

/-- The state after the inputs, in order. -/
def run (step : σ → ι → σ) (inputs : List ι) (s : σ) : σ := inputs.foldl step s

@[simp] theorem run_nil (step : σ → ι → σ) (s : σ) : run step [] s = s := rfl

@[simp] theorem run_cons (step : σ → ι → σ) (i : ι) (inputs : List ι) (s : σ) :
    run step (i :: inputs) s = run step inputs (step s i) := rfl

theorem run_append (step : σ → ι → σ) (first second : List ι) (s : σ) :
    run step (first ++ second) s = run step second (run step first s) :=
  List.foldl_append

/-- Every step of the run starts in a state, and with an input, that satisfy `cond`. -/
def Along (step : σ → ι → σ) (cond : σ → ι → Prop) : List ι → σ → Prop
  | [], _ => True
  | i :: inputs, s => cond s i ∧ Along step cond inputs (step s i)

theorem along_append (step : σ → ι → σ) (cond : σ → ι → Prop) (first second : List ι) (s : σ) :
    Along step cond (first ++ second) s ↔
      Along step cond first s ∧ Along step cond second (run step first s) := by
  induction first generalizing s with
  | nil => simp [Along]
  | cons i first ih => simp [Along, ih, and_assoc]

/-- Conditions that agree on the inputs of a run hold along the same runs. -/
theorem along_congr {step : σ → ι → σ} {cond cond' : σ → ι → Prop} {inputs : List ι}
    (agree : ∀ s, ∀ i ∈ inputs, (cond s i ↔ cond' s i)) (s : σ) :
    Along step cond inputs s ↔ Along step cond' inputs s := by
  induction inputs generalizing s with
  | nil => exact Iff.rfl
  | cons i inputs ih =>
    exact and_congr (agree s i (by simp)) (ih (fun s j member => agree s j (by simp [member])) _)

/-- Conditions that agree in the states of an invariant, which the steps that meet them keep, hold
along the same runs. -/
theorem along_iff {step : σ → ι → σ} {inv : σ → Prop} {cond cond' : σ → ι → Prop}
    (agree : ∀ s i, inv s → (cond s i ↔ cond' s i))
    (keeps : ∀ s i, inv s → cond s i → inv (step s i)) (inputs : List ι) (s : σ) (initial : inv s) :
    Along step cond inputs s ↔ Along step cond' inputs s := by
  induction inputs generalizing s with
  | nil => exact Iff.rfl
  | cons i inputs ih =>
    constructor
    · rintro ⟨here, later⟩
      have next := keeps s i initial here
      exact ⟨(agree s i initial).mp here, (ih _ next).mp later⟩
    · rintro ⟨here, later⟩
      have first := (agree s i initial).mpr here
      exact ⟨first, (ih _ (keeps s i initial first)).mpr later⟩

/-- An invariant kept by the steps that satisfy `cond` holds after a run of such steps. -/
theorem invariant (step : σ → ι → σ) (inv : σ → Prop) (cond : σ → ι → Prop)
    (keeps : ∀ s i, inv s → cond s i → inv (step s i)) (inputs : List ι) (s : σ)
    (initial : inv s) (along : Along step cond inputs s) : inv (run step inputs s) := by
  induction inputs generalizing s with
  | nil => exact initial
  | cons i inputs ih => exact ih (step s i) (keeps s i initial along.1) along.2

/-- An invariant kept by the steps with certain inputs holds after a run of such inputs. -/
theorem invariant_of_inputs (step : σ → ι → σ) (inv : σ → Prop) (allowed : ι → Prop)
    (keeps : ∀ s i, inv s → allowed i → inv (step s i)) (inputs : List ι)
    (all : ∀ i ∈ inputs, allowed i) (s : σ) (initial : inv s) : inv (run step inputs s) := by
  induction inputs generalizing s with
  | nil => exact initial
  | cons i inputs ih =>
    exact ih (fun j member => all j (by simp [member])) _ (keeps s i initial (all i (by simp)))

/-- Where a condition decides whether a step keeps the invariant, every state of the run
satisfies the invariant exactly when every step meets the condition. A side invariant may be
used as long as the invariant holds. -/
theorem invariant_iff (step : σ → ι → σ) (inv : σ → Prop) (cond : σ → ι → Prop) (side : σ → Prop)
    (keeps : ∀ s i, side s → inv s → inv (step s i) → side (step s i))
    (decides : ∀ s i, side s → inv s → (inv (step s i) ↔ cond s i)) (inputs : List ι) (s : σ)
    (outside : side s) (initial : inv s) :
    (∀ earlier, earlier <+: inputs → inv (run step earlier s)) ↔ Along step cond inputs s := by
  -- the first step decides whether the invariant reaches the state the rest starts from
  induction inputs generalizing s with
  | nil =>
    refine ⟨fun _ => trivial, fun _ earlier nothing => ?_⟩
    rw [List.prefix_nil.mp nothing]
    exact initial
  | cons i inputs ih =>
    constructor
    · intro all
      have next := all [i] (by simp)
      refine ⟨(decides s i outside initial).mp next, ?_⟩
      apply (ih (step s i) (keeps s i outside initial next) next).mp
      intro earlier part
      exact all (i :: earlier) (List.cons_prefix_cons.mpr ⟨rfl, part⟩)
    · rintro ⟨here, later⟩ earlier part
      have next := (decides s i outside initial).mpr here
      rcases earlier with _ | ⟨j, earlier⟩
      · exact initial
      · obtain ⟨rfl, rest⟩ := List.cons_prefix_cons.mp part
        exact (ih (step s j) (keeps s j outside initial next) next).mpr later earlier rest

/-- What holds after a run, and did not before, was brought about by one of its steps. -/
theorem exists_change (step : σ → ι → σ) {P : σ → Prop} {inputs : List ι} {s : σ} (before : ¬P s)
    (after : P (run step inputs s)) : ∃ earlier i later, inputs = earlier ++ i :: later ∧
      ¬P (run step earlier s) ∧ P (step (run step earlier s) i) := by
  induction inputs generalizing s with
  | nil => exact absurd after before
  | cons i inputs ih =>
    by_cases next : P (step s i)
    · exact ⟨[], i, inputs, rfl, before, next⟩
    · obtain ⟨earlier, j, later, rfl, still, changed⟩ := ih next after
      exact ⟨i :: earlier, j, later, rfl, still, changed⟩

/-! ### Steps that answer -/

/-- The answers to the inputs, in order, and the state after them. -/
def answers {α : Type} (step : ι → σ → α × σ) : List ι → σ → List α × σ
  | [], s => ([], s)
  | i :: inputs, s =>
    let (answer, s) := step i s
    let (rest, s) := answers step inputs s
    (answer :: rest, s)

/-- A simulation that keeps the answer of every step keeps the answers of a run. -/
theorem answers_simulated {τ α : Type} {concrete : ι → σ → α × σ} {abstract : ι → τ → α × τ}
    {R : σ → τ → Prop} {allowed : ι → Prop}
    (steps : ∀ i s t, allowed i → R s t →
      (concrete i s).1 = (abstract i t).1 ∧ R (concrete i s).2 (abstract i t).2)
    {inputs : List ι} (all : ∀ i ∈ inputs, allowed i) {s : σ} {t : τ} (initial : R s t) :
    (answers concrete inputs s).1 = (answers abstract inputs t).1 ∧
      R (answers concrete inputs s).2 (answers abstract inputs t).2 := by
  induction inputs generalizing s t with
  | nil => exact ⟨rfl, initial⟩
  | cons i inputs ih =>
    obtain ⟨here, next⟩ := steps i s t (all i (by simp)) initial
    obtain ⟨rest, last⟩ := ih (fun j member => all j (by simp [member])) next
    exact ⟨by simp only [answers, here, rest], last⟩

end Run
