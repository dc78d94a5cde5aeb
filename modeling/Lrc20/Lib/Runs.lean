import Mathlib.Data.List.Basic

namespace Runs

variable {σ ι : Type}

/-- The state a machine reaches from `s` on a list of inputs. The choices of the
environment are part of the inputs, so a run is a list. -/
def runFrom (step : σ → ι → σ) (s : σ) (inputs : List ι) : σ :=
  inputs.foldl step s

/-- Every input of the run meets `ok` in the state it is applied to. -/
def AllSteps (step : σ → ι → σ) (ok : σ → ι → Prop) : σ → List ι → Prop
  | _, [] => True
  | s, input :: rest => ok s input ∧ AllSteps step ok (step s input) rest

instance AllSteps.decidable (step : σ → ι → σ) (ok : σ → ι → Prop)
    [decideOk : ∀ s input, Decidable (ok s input)] :
    ∀ s inputs, Decidable (AllSteps step ok s inputs)
  | _, [] => .isTrue trivial
  | s, input :: rest =>
    match decideOk s input, AllSteps.decidable step ok (step s input) rest with
    | .isTrue first, .isTrue others => .isTrue ⟨first, others⟩
    | .isFalse first, _ => .isFalse fun all => first all.1
    | _, .isFalse others => .isFalse fun all => others all.2

section Rules

variable {step : σ → ι → σ} {ok : σ → ι → Prop} {inputs : List ι} {s : σ} {I : σ → Prop}
  {ok' : σ → ι → Prop}

@[simp] theorem runFrom_nil (s : σ) : runFrom step s [] = s := rfl

@[simp] theorem runFrom_cons (s : σ) (input : ι) (rest : List ι) :
    runFrom step s (input :: rest) = runFrom step (step s input) rest := rfl

theorem runFrom_append (s : σ) (before after : List ι) :
    runFrom step s (before ++ after) = runFrom step (runFrom step s before) after :=
  List.foldl_append

theorem allSteps_append (s : σ) (before after : List ι) :
    AllSteps step ok s (before ++ after) ↔
      AllSteps step ok s before ∧ AllSteps step ok (runFrom step s before) after := by
  induction before generalizing s with
  | nil => simp [AllSteps]
  | cons input rest ih => simp [AllSteps, ih, and_assoc]

theorem AllSteps.mono (weaker : ∀ s input, ok s input → ok' s input)
    (run : AllSteps step ok s inputs) : AllSteps step ok' s inputs := by
  induction inputs generalizing s with
  | nil => trivial
  | cons input rest ih => exact ⟨weaker s input run.1, ih run.2⟩

theorem AllSteps.and (run : AllSteps step ok s inputs) (run' : AllSteps step ok' s inputs) :
    AllSteps step (fun s input => ok s input ∧ ok' s input) s inputs := by
  induction inputs generalizing s with
  | nil => trivial
  | cons input rest ih => exact ⟨⟨run.1, run'.1⟩, ih run.2 run'.2⟩

/-- What is true of every input by itself joins the step condition. -/
theorem AllSteps.and_forall {Q : ι → Prop} (run : AllSteps step ok s inputs)
    (each : ∀ input ∈ inputs, Q input) :
    AllSteps step (fun s input => ok s input ∧ Q input) s inputs := by
  induction inputs generalizing s with
  | nil => trivial
  | cons input rest ih =>
    exact ⟨⟨run.1, each input (by simp)⟩, ih run.2 fun other mem => each other (by simp [mem])⟩

/-- What every step preserves, every run preserves. -/
theorem runFrom_invariant (preserved : ∀ s input, I s → I (step s input)) (start : I s)
    (inputs : List ι) : I (runFrom step s inputs) := by
  induction inputs generalizing s with
  | nil => exact start
  | cons input rest ih => exact ih (preserved s input start)

/-- What every admitted step preserves, every admitted run preserves. -/
theorem AllSteps.invariant (preserved : ∀ s input, I s → ok s input → I (step s input))
    (start : I s) (run : AllSteps step ok s inputs) : I (runFrom step s inputs) := by
  induction inputs generalizing s with
  | nil => exact start
  | cons input rest ih => exact ih (preserved s input start run.1) run.2

/-- A reflexive and transitive relation kept by every admitted step from an
invariant state relates the two ends of an admitted run. -/
theorem AllSteps.related {R : σ → σ → Prop} (refl : ∀ s, R s s)
    (trans : ∀ a b c, R a b → R b c → R a c)
    (preserved : ∀ s input, I s → ok s input → I (step s input) ∧ R s (step s input)) (start : I s)
    (run : AllSteps step ok s inputs) : R s (runFrom step s inputs) := by
  induction inputs generalizing s with
  | nil => exact refl s
  | cons input rest ih =>
    obtain ⟨inv, related⟩ := preserved s input start run.1
    exact trans _ _ _ related (ih inv run.2)

end Rules

end Runs
