import Mathlib

/-! Programs that throw and keep the state they have reached. A triple speaks of both exits, so
that what a program leaves behind when it throws is stated together with what it does. -/
namespace Library.Throwing

/-- Started where `P` holds, the program ends where `Q` holds of its value, or throws where `E`
holds. -/
def Triple (P : σ → Prop) (program : EStateM ε σ α) (Q : α → σ → Prop) (E : σ → Prop) : Prop :=
  ∀ s, P s → match program s with
    | .ok value after => Q value after
    | .error _ after => E after

/-- What holds before the program holds after it, whichever way it ends. -/
abbrev Keeps (I : σ → Prop) (program : EStateM ε σ α) : Prop :=
  Triple I program (fun _ => I) I

/-- Runs the program only under a condition. -/
def provided (condition : Bool) (program : EStateM ε σ Unit) : EStateM ε σ Unit :=
  if condition then program else pure ()

/-- Rounds until one returns a value. When so many have not, it throws `stuck`. -/
def rounds (stuck : ε) (round : EStateM ε σ (Option α)) : Nat → EStateM ε σ α
  | 0 => throw stuck
  | left + 1 => do
    match ← round with
    | some value => return value
    | none => rounds stuck round left

/-- The state a program leaves, whichever way it ends. -/
def left (program : EStateM ε σ α) (s : σ) : σ :=
  match program s with
  | .ok _ after => after
  | .error _ after => after

/-- The part of a program that looks at the state and changes nothing. -/
def reading (check : σ → Except ε α) : EStateM ε σ α := fun s =>
  match check s with
  | .ok value => .ok value s
  | .error error => .error error s

section Runs
variable {s t : σ} {first : EStateM ε σ β} {rest : β → EStateM ε σ α} {value : β} {error : ε}

theorem bind_ok (ran : first s = .ok value t) : (first >>= rest) s = rest value t := by
  simp only [bind, EStateM.bind, ran]

theorem bind_error (ran : first s = .error error t) : (first >>= rest) s = .error error t := by
  simp only [bind, EStateM.bind, ran]

theorem get_bind {rest : σ → EStateM ε σ α} : (get >>= rest) s = rest s s := rfl

theorem modify_bind {change : σ → σ} {rest : Unit → EStateM ε σ α} :
    (modify change >>= rest) s = rest () (change s) := rfl

theorem modify_run {change : σ → σ} :
    (modify change : EStateM ε σ Unit) s = .ok () (change s) := rfl

variable {check : σ → Except ε β}

theorem reading_ok (passed : check s = .ok value) : reading check s = .ok value s := by
  unfold reading
  rw [passed]

theorem reading_bind (passed : check s = .ok value) :
    (reading check >>= rest) s = rest value s := bind_ok (reading_ok passed)

end Runs

namespace Triple
variable {P P' : σ → Prop} {Q Q' : α → σ → Prop} {E F I : σ → Prop} {program : EStateM ε σ α}

theorem weaken (holds : Triple P' program Q' F) (before : ∀ s, P s → P' s)
    (after : ∀ value s, Q' value s → Q value s) (thrown : ∀ s, F s → E s) :
    Triple P program Q E := by
  intro s start
  have ended := holds s (before s start)
  split at ended
  · exact after _ _ ended
  · exact thrown _ ended

theorem strengthen (holds : Triple P' program Q E) (before : ∀ s, P s → P' s) :
    Triple P program Q E :=
  holds.weaken before (fun _ _ => id) (fun _ => id)

theorem started (holds : Triple P program Q E) (start : P s) : Triple (· = s) program Q E :=
  holds.strengthen fun _ same => same ▸ start

/-- Two things that are known of one program are known together. -/
theorem both (first : Triple P program Q E) (second : Triple P' program Q' F) :
    Triple (fun s => P s ∧ P' s) program (fun value s => Q value s ∧ Q' value s)
      (fun s => E s ∧ F s) := by
  intro s start
  have one := first s start.1
  have two := second s start.2
  split at one <;> simp_all

/-- As many things as there may be. -/
theorem every [Nonempty ι] {Q : ι → α → σ → Prop} {E : ι → σ → Prop}
    (holds : ∀ i, Triple P program (Q i) (E i)) :
    Triple P program (fun value s => ∀ i, Q i value s) (fun s => ∀ i, E i s) := by
  intro s start
  have ended := fun i => holds i s start
  cases ran : program s <;> simp only [ran] at ended <;> exact ended

/-- The triple for every state may use what is known of the state. -/
theorem from_state (holds : ∀ s, P s → Triple (· = s) program Q E) : Triple P program Q E :=
  fun s start => holds s start s rfl

theorem returned {value : α} (holds : ∀ s, P s → Q value s) :
    Triple P (pure value : EStateM ε σ α) Q E :=
  holds

theorem thrown {error : ε} (holds : ∀ s, P s → E s) :
    Triple P (throw error : EStateM ε σ α) Q E :=
  holds

theorem modified {change : σ → σ} {Q : Unit → σ → Prop} (holds : ∀ s, P s → Q () (change s)) :
    Triple P (modify change : EStateM ε σ Unit) Q E :=
  holds

variable {rest : β → EStateM ε σ α}

theorem next {first : EStateM ε σ β} {R : β → σ → Prop}
    (start : Triple P first R E) (continues : ∀ value, Triple (R value) (rest value) Q E) :
    Triple P (first >>= rest) Q E := by
  intro s holds
  have middle := start s holds
  simp only [Bind.bind, EStateM.bind]
  cases ran : first s with
  | ok value after =>
    rw [ran] at middle
    exact continues value after middle
  | error error after =>
    rw [ran] at middle
    exact middle

/-- A program that looks at the state goes on knowing it. -/
theorem looked {rest : σ → EStateM ε σ α}
    (continues : ∀ seen, P seen → Triple (· = seen) (rest seen) Q E) :
    Triple P (get >>= rest) Q E :=
  fun s start => continues s start s rfl

/-- A program that changes the state goes on from the changed one. -/
theorem changed {change : σ → σ} {rest : Unit → EStateM ε σ α}
    (continues : Triple (· = change s) (rest ()) Q E) :
    Triple (· = s) (modify change >>= rest) Q E := by
  rintro t rfl
  exact continues (change t) rfl

theorem read {check : σ → Except ε α} (fails : ∀ error, check s = .error error → E s)
    (passes : ∀ value, check s = .ok value → Q value s) : Triple (· = s) (reading check) Q E := by
  rintro t rfl
  unfold reading
  cases checked : check t with
  | ok value => exact passes value checked
  | error error => exact fails error checked

theorem read_next {check : σ → Except ε β} (fails : ∀ error, check s = .error error → E s)
    (continues : ∀ value, check s = .ok value → Triple (· = s) (rest value) Q E) :
    Triple (· = s) (reading check >>= rest) Q E := by
  rintro t rfl
  simp only [Bind.bind, EStateM.bind, reading]
  cases checked : check t with
  | ok value => exact continues value checked t rfl
  | error error => exact fails error checked

theorem provided {condition : Bool} {step : EStateM ε σ Unit} {Q : Unit → σ → Prop}
    (runs : condition = true → Triple P step Q E) (skips : condition = false → ∀ s, P s → Q () s) :
    Triple P (provided condition step) Q E := by
  cases condition with
  | true => exact runs rfl
  | false => exact skips rfl

/-- Each round that does not return leaves what the next one needs. -/
theorem repeats {stuck : ε} {round : EStateM ε σ (Option α)}
    (holds : Triple I round (fun value s => value.elim (I s) (Q · s)) E) (ends : ∀ s, I s → E s)
    (left : Nat) : Triple I (rounds stuck round left) Q E := by
  induction left with
  | zero => exact thrown ends
  | succ left ih =>
    refine next holds fun value => ?_
    cases value with
    | none => exact ih
    | some value => exact returned fun _ => id

theorem left (holds : Triple P program Q E) (start : P s)
    (after : ∀ value s, Q value s → I s) (thrown : ∀ s, E s → I s) : I (left program s) := by
  have ended := holds s start
  unfold Throwing.left
  cases ran : program s with
  | ok value reached => exact after value reached (by rwa [ran] at ended)
  | error error reached => exact thrown reached (by rwa [ran] at ended)

/-- What is known of a program that throws nothing. -/
theorem returning (holds : Triple P program Q E)
    (returns : Triple P program (fun _ _ => True) fun _ => False) :
    Triple P program Q fun _ => False :=
  (holds.both returns).weaken (fun _ start => ⟨start, start⟩) (fun _ _ => And.left)
    fun _ => And.right

/-- A program none of whose exits is a throw returns. -/
theorem returns (holds : Triple P program Q fun _ => False) (start : P s) :
    ∃ value after, program s = .ok value after ∧ Q value after := by
  have ended := holds s start
  cases ran : program s with
  | ok value after => exact ⟨value, after, rfl, by rwa [ran] at ended⟩
  | error error after => rw [ran] at ended; exact ended.elim

end Triple

namespace Keeps
variable {I : σ → Prop}

theorem returned {value : α} : Keeps I (pure value : EStateM ε σ α) := fun _ => id

theorem thrown {error : ε} : Keeps I (throw error : EStateM ε σ α) := fun _ => id

theorem next {first : EStateM ε σ β} {rest : β → EStateM ε σ α} (start : Keeps I first)
    (continues : ∀ value, Keeps I (rest value)) : Keeps I (first >>= rest) :=
  Triple.next start continues

theorem provided {condition : Bool} {step : EStateM ε σ Unit}
    (runs : condition = true → Keeps I step) : Keeps I (provided condition step) :=
  Triple.provided runs fun _ _ => id

theorem repeats {stuck : ε} {round : EStateM ε σ (Option α)} (keeps : Keeps I round) (left : Nat) :
    Keeps I (rounds stuck round left) := by
  refine Triple.repeats (keeps.weaken (fun _ => id) (fun value s kept => ?_) fun _ => id)
    (fun _ => id) left
  cases value <;> exact kept

theorem left {program : EStateM ε σ α} (keeps : Keeps I program) (start : I s) :
    I (left program s) :=
  Triple.left keeps start (fun _ _ => id) (fun _ => id)

end Keeps
end Library.Throwing
