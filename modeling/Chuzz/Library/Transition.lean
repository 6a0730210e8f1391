import Mathlib

/-! Labelled transition systems and the invariants of their runs. Restricting a
system keeps only the steps that meet a condition on the state before them, so
that "every run whose steps meet the condition" is reachability again. An
observer runs alongside a system, sees every step and never influences one. -/
namespace Library.Transition
universe u v w
variable {S : Type u} {L : Type v} {O : Type w}

inductive Reachable (init : S → Prop) (step : S → L → S → Prop) : S → Prop where
  | start : init s → Reachable init step s
  | next : Reachable init step s → step s l t → Reachable init step t

/-- Only the steps whose source state and label meet `condition`. -/
def restrict (step : S → L → S → Prop) (condition : S → L → Prop) (s : S) (l : L) (t : S) : Prop :=
  step s l t ∧ condition s l

/-- The observer's state is updated from each step and from its own past. -/
def observe (step : S → L → S → Prop) (update : O → S → L → S → O)
    (before : S × O) (l : L) (after : S × O) : Prop :=
  step before.1 l after.1 ∧ after.2 = update before.2 before.1 l after.1

/-- Every label of the list meets `condition` in the state it is performed in. -/
def Meets (perform : S → L → S) (condition : S → L → Prop) : S → List L → Prop
  | _, [] => True
  | s, l :: rest => condition s l ∧ Meets perform condition (perform s l) rest

instance decidableMeets (perform : S → L → S) (condition : S → L → Prop)
    [∀ s l, Decidable (condition s l)] : ∀ s labels, Decidable (Meets perform condition s labels)
  | _, [] => inferInstanceAs (Decidable True)
  | s, l :: rest =>
    have := decidableMeets perform condition (perform s l) rest
    inferInstanceAs (Decidable (condition s l ∧ Meets perform condition (perform s l) rest))

namespace Reachable
variable {init : S → Prop} {step : S → L → S → Prop} {P : S → Prop}

/-- What holds initially and is preserved by every step from a reachable state
holds in every reachable state. -/
theorem invariant (initial : ∀ s, init s → P s)
    (preserved : ∀ s l t, Reachable init step s → P s → step s l t → P t)
    (run : Reachable init step s) : P s := by
  induction run with
  | start first => exact initial _ first
  | next earlier stepped ih => exact preserved _ _ _ earlier ih stepped

theorem mono {wider : S → L → S → Prop} (includes : ∀ s l t, step s l t → wider s l t)
    (run : Reachable init step s) : Reachable init wider s := by
  induction run with
  | start first => exact .start first
  | next _ stepped ih => exact .next ih (includes _ _ _ stepped)

variable {condition : S → L → Prop}

theorem unrestricted (run : Reachable init (restrict step condition) s) : Reachable init step s :=
  run.mono (fun _ _ _ stepped => stepped.1)

variable {update : O → S → L → S → O}

/-- Observing adds no behavior. -/
theorem unobserved {first : O} {after : S × O}
    (run : Reachable (fun pair => init pair.1 ∧ pair.2 = first) (observe step update) after) :
    Reachable init step after.1 := by
  induction run with
  | start begins => exact .start begins.1
  | next _ stepped ih => exact .next ih stepped.1

variable {perform : S → L → S}

/-- What a deterministic system does with a list of labels is a run. -/
theorem run (labels : List L) (start : Reachable init (fun s l t => perform s l = t) s) :
    Reachable init (fun s l t => perform s l = t) (labels.foldl perform s) := by
  induction labels generalizing s with
  | nil => exact start
  | cons first rest ih => exact ih (.next start rfl)

theorem run_meeting (labels : List L)
    (start : Reachable init (restrict (fun s l t => perform s l = t) condition) s)
    (meets : Meets perform condition s labels) :
    Reachable init (restrict (fun s l t => perform s l = t) condition)
      (labels.foldl perform s) := by
  induction labels generalizing s with
  | nil => exact start
  | cons first rest ih => exact ih (.next start ⟨rfl, meets.1⟩) meets.2

/-- A run of a deterministic system with its observer. -/
theorem run_observed {first : S × O → Prop} (labels : List L) {before : S × O}
    (start : Reachable first (observe (fun s l t => perform s l = t) update) before) :
    Reachable first (observe (fun s l t => perform s l = t) update)
      (labels.foldl (fun pair l =>
        (perform pair.1 l, update pair.2 pair.1 l (perform pair.1 l))) before) := by
  induction labels generalizing before with
  | nil => exact start
  | cons label rest ih => exact ih (.next start ⟨rfl, rfl⟩)

end Reachable
end Library.Transition
