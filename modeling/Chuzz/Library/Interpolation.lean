import Mathlib

/-! Going from one value to another in a straight line or along an exponential. A part of such a way
is a way of the same kind, and two ways of different kinds only agree where nothing changes. -/
namespace Library.Interpolation

/-- The value a fraction of the way, `curved` along an exponential. -/
noncomputable def path (curved : Prop) [Decidable curved] (start goal fraction : ℝ) : ℝ :=
  if curved then start * (goal / start) ^ fraction else start + (goal - start) * fraction

variable {curved curved' : Prop} [Decidable curved] [Decidable curved']
  {start goal goal' part fraction : ℝ}

theorem path_still (nonzero : curved → start ≠ 0) : path curved start start fraction = start := by
  unfold path
  split
  · next bent => rw [div_self (nonzero bent), Real.one_rpow, mul_one]
  · ring

/-- The way to a value that is passed on the way. -/
theorem path_part (positive : curved → 0 < start ∧ 0 < goal) :
    path curved start (path curved start goal part) fraction =
      path curved start goal (part * fraction) := by
  unfold path
  split
  · next bent =>
    obtain ⟨first, last⟩ := positive bent
    rw [mul_div_cancel_left₀ _ first.ne', Real.rpow_mul (div_pos last first).le]
  · ring

theorem path_pos (bent : curved) (first : 0 < start) (last : 0 < goal) :
    0 < path curved start goal part := by
  rw [path, if_pos bent]
  exact mul_pos first (Real.rpow_pos_of_pos (div_pos last first) part)

theorem curve_injective (first : 0 < start) (last : 0 < goal) (last' : 0 < goal')
    (same : start * (goal / start) ^ (1 / 2 : ℝ) = start * (goal' / start) ^ (1 / 2 : ℝ)) :
    goal = goal' := by
  have roots := mul_left_cancel₀ first.ne' same
  have ratios := Real.rpow_left_injOn (by norm_num : (1 / 2 : ℝ) ≠ 0)
    (div_pos last first).le (div_pos last' first).le roots
  field_simp at ratios
  exact ratios

/-- A line and an exponential that meet at the start, at a quarter and in the middle are still. -/
theorem line_curve (first : 0 < start) (last : 0 < goal')
    (quarter : start + (goal - start) * (1 / 4) = start * (goal' / start) ^ (1 / 4 : ℝ))
    (half : start + (goal - start) * (1 / 2) = start * (goal' / start) ^ (1 / 2 : ℝ)) :
    goal = start ∧ goal' = start := by
  set root := (goal' / start) ^ (1 / 4 : ℝ) with defined
  have square : (goal' / start) ^ (1 / 2 : ℝ) = root ^ 2 := by
    rw [defined, ← Real.rpow_natCast, ← Real.rpow_mul (div_pos last first).le]
    norm_num
  rw [square] at half
  have one : root = 1 := by
    have gap : start * (root - 1) ^ 2 = 0 := by linarith
    have := (mul_eq_zero.mp gap).resolve_left first.ne'
    nlinarith [pow_eq_zero_iff (two_ne_zero) |>.mp this]
  have still : goal = start := by
    rw [one] at quarter
    linarith
  refine ⟨still, ?_⟩
  have ratio : (goal' / start) ^ (1 / 4 : ℝ) = (1 : ℝ) ^ (1 / 4 : ℝ) := by
    rw [← defined, one, Real.one_rpow]
  have := Real.rpow_left_injOn (by norm_num : (1 / 4 : ℝ) ≠ 0) (div_pos last first).le
    (zero_le_one (α := ℝ)) ratio
  field_simp at this
  exact this

/-- Two ways from one start agree everywhere if they agree at a quarter and in the middle: they lead
to the same value, along the same curve if it is another one. -/
theorem path_eq_iff (positive : curved → 0 < start ∧ 0 < goal)
    (positive' : curved' → 0 < start ∧ 0 < goal') :
    (path curved start goal (1 / 4) = path curved' start goal' (1 / 4) ∧
      path curved start goal (1 / 2) = path curved' start goal' (1 / 2)) ↔
      goal = goal' ∧ (goal = start ∨ (curved ↔ curved')) := by
  constructor
  · rintro ⟨quarter, half⟩
    by_cases bent : curved <;> by_cases bent' : curved' <;>
      simp only [path, bent, bent', if_true, if_false] at quarter half
    · exact ⟨curve_injective (positive bent).1 (positive bent).2 (positive' bent').2 half,
        .inr ⟨fun _ => bent', fun _ => bent⟩⟩
    · obtain ⟨still', still⟩ := line_curve (positive bent).1 (positive bent).2 quarter.symm half.symm
      exact ⟨still.trans still'.symm, .inl still⟩
    · obtain ⟨still, still'⟩ := line_curve (positive' bent').1 (positive' bent').2 quarter half
      exact ⟨still.trans still'.symm, .inl still⟩
    · exact ⟨by linarith, .inr ⟨fun is => absurd is bent, fun is => absurd is bent'⟩⟩
  · rintro ⟨rfl, rfl | same⟩
    · have start := fun bent => (positive bent).1.ne'
      have start' := fun bent => (positive' bent).1.ne'
      exact ⟨(path_still start).trans (path_still start').symm,
        (path_still start).trans (path_still start').symm⟩
    · simp only [path, same, and_self]

theorem path_congr (positive : curved → 0 < start ∧ 0 < goal)
    (positive' : curved' → 0 < start ∧ 0 < goal')
    (same : goal = goal' ∧ (goal = start ∨ (curved ↔ curved'))) (fraction : ℝ) :
    path curved start goal fraction = path curved' start goal' fraction := by
  obtain ⟨rfl, rfl | same⟩ := same
  · rw [path_still fun bent => (positive bent).1.ne', path_still fun bent => (positive' bent).1.ne']
  · simp only [path, same]

end Library.Interpolation
