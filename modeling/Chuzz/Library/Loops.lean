import Mathlib

/-! Loops that go on while a condition holds. They are run for a number of rounds; what they return
does not depend on it. -/
namespace Library.Loops
variable {S : Type} {goes : S → Bool} {round : S → S} {s t : S} {I : S → Prop}

/-- What the loop returns, if that takes no more rounds than these. -/
def loop (goes : S → Bool) (round : S → S) : Nat → S → Option S
  | 0, s => if goes s then none else some s
  | rounds + 1, s => if goes s then loop goes round rounds (round s) else some s

/-- The loop ends and returns `t`. -/
def Returns (goes : S → Bool) (round : S → S) (s t : S) : Prop :=
  ∃ rounds, loop goes round rounds s = some t

theorem loop_stops (stops : goes s = false) (rounds : Nat) :
    loop goes round rounds s = some s := by
  cases rounds <;> simp [loop, stops]

theorem loop_goes (more : goes s = true) (rounds : Nat) :
    loop goes round (rounds + 1) s = loop goes round rounds (round s) := by simp [loop, more]

theorem loop_mono {rounds rounds' : Nat} (enough : rounds ≤ rounds')
    (returned : loop goes round rounds s = some t) : loop goes round rounds' s = some t := by
  induction rounds generalizing s rounds' with
  | zero =>
    cases more : goes s with
    | false => rwa [loop_stops more] at returned ⊢
    | true => simp [loop, more] at returned
  | succ rounds ih =>
    obtain ⟨rounds', rfl⟩ := Nat.exists_eq_add_of_lt enough
    cases more : goes s with
    | false => rwa [loop_stops more] at returned ⊢
    | true =>
      rw [loop_goes more] at returned ⊢
      exact ih (Nat.le_add_right_of_le (Nat.le_refl _)) returned

theorem Returns.stop (stops : goes s = false) : Returns goes round s s := ⟨0, loop_stops stops 0⟩

theorem Returns.again (more : goes s = true) (rest : Returns goes round (round s) t) :
    Returns goes round s t := by
  obtain ⟨rounds, returned⟩ := rest
  exact ⟨rounds + 1, (loop_goes more rounds).trans returned⟩

/-- What a round preserves holds when the loop ends. -/
theorem Returns.invariant (initial : I s) (preserved : ∀ s, I s → goes s = true → I (round s))
    (returns : Returns goes round s t) : I t ∧ goes t = false := by
  obtain ⟨rounds, returned⟩ := returns
  induction rounds generalizing s with
  | zero =>
    cases more : goes s with
    | false =>
      rw [loop_stops more] at returned
      cases returned
      exact ⟨initial, more⟩
    | true => simp [loop, more] at returned
  | succ rounds ih =>
    cases more : goes s with
    | false =>
      rw [loop_stops more] at returned
      cases returned
      exact ⟨initial, more⟩
    | true =>
      rw [loop_goes more] at returned
      exact ih (preserved s initial more) returned

/-- A loop whose rounds make a number smaller ends. -/
theorem returns_of_measure (measure : S → Nat) (initial : I s)
    (preserved : ∀ s, I s → goes s = true → I (round s) ∧ measure (round s) < measure s) :
    ∃ t, Returns goes round s t := by
  generalize size : measure s = n
  induction n using Nat.strong_induction_on generalizing s with
  | _ n ih =>
    cases more : goes s with
    | false => exact ⟨s, .stop more⟩
    | true =>
      obtain ⟨kept, smaller⟩ := preserved s initial more
      obtain ⟨t, returns⟩ := ih _ (size ▸ smaller) kept rfl
      exact ⟨t, returns.again more⟩

/-- A loop that keeps its condition does not end. -/
theorem loop_diverges (initial : I s) (goes_on : ∀ s, I s → goes s = true)
    (preserved : ∀ s, I s → I (round s)) (rounds : Nat) : loop goes round rounds s = none := by
  induction rounds generalizing s with
  | zero => simp [loop, goes_on s initial]
  | succ rounds ih =>
    rw [loop_goes (goes_on s initial)]
    exact ih (preserved s initial)

end Library.Loops
