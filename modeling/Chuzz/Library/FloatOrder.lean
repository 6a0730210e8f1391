import Mathlib

/-! The IEEE comparison of `Float`, read through the logical model of the type.
Every number (that is, every value but NaN) has a rank in a linear order, and
the comparisons are comparisons of ranks; a comparison with NaN is false.
Arithmetic is not used: nothing here depends on rounding. -/
namespace Library.FloatOrder
open Float.Model UnpackedFloat

/-- Sign class, exponent and mantissa, both negated below zero. The two zeros
share a rank. The value at NaN is never compared. -/
def unpackedRank : UnpackedFloat → ℤ ×ₗ ℤ ×ₗ ℤ
  | .notANumber => toLex (0, toLex (0, 0))
  | .infinity .negative => toLex (-2, toLex (0, 0))
  | .finite .negative m e _ => toLex (-1, toLex (-e, -(m : ℤ)))
  | .zero _ => toLex (0, toLex (0, 0))
  | .finite .positive m e _ => toLex (1, toLex (e, (m : ℤ)))
  | .infinity .positive => toLex (2, toLex (0, 0))

theorem compare_lex {α β : Type} [LinearOrder α] [LinearOrder β] (a c : α) (b d : β) :
    compare (toLex (a, b)) (toLex (c, d)) = (compare a c).then (compare b d) := by
  rcases lt_trichotomy a c with less | rfl | more
  · rw [compare_lt_iff_lt.mpr less, compare_lt_iff_lt.mpr (Prod.Lex.toLex_lt_toLex.mpr (.inl less))]
    rfl
  · rw [compare_eq_iff_eq.mpr (rfl : a = a)]
    rcases lt_trichotomy b d with less | rfl | more
    · have below : toLex (a, b) < toLex (a, d) := by simpa [Prod.Lex.toLex_lt_toLex] using less
      rw [compare_lt_iff_lt.mpr less, compare_lt_iff_lt.mpr below]
      rfl
    · rw [compare_eq_iff_eq.mpr rfl, compare_eq_iff_eq.mpr rfl]
      rfl
    · have above : toLex (a, d) < toLex (a, b) := by simpa [Prod.Lex.toLex_lt_toLex] using more
      rw [compare_gt_iff_gt.mpr more, compare_gt_iff_gt.mpr above]
      rfl
  · rw [compare_gt_iff_gt.mpr more, compare_gt_iff_gt.mpr (Prod.Lex.toLex_lt_toLex.mpr (.inl more))]
    rfl

theorem compare_neg (a b : ℤ) : compare (-a) (-b) = (compare a b).swap := by
  rcases lt_trichotomy a b with less | rfl | more
  · rw [compare_lt_iff_lt.mpr less, compare_gt_iff_gt.mpr (by omega)]
    rfl
  · rw [compare_eq_iff_eq.mpr rfl, compare_eq_iff_eq.mpr rfl]
    rfl
  · rw [compare_gt_iff_gt.mpr more, compare_lt_iff_lt.mpr (by omega)]
    rfl

theorem compare_cast (a b : ℕ) : compare (a : ℤ) (b : ℤ) = compare a b := by
  rcases lt_trichotomy a b with less | rfl | more
  · rw [compare_lt_iff_lt.mpr less, compare_lt_iff_lt.mpr (Int.ofNat_lt.mpr less)]
  · rw [compare_eq_iff_eq.mpr rfl, compare_eq_iff_eq.mpr rfl]
  · rw [compare_gt_iff_gt.mpr more, compare_gt_iff_gt.mpr (Int.ofNat_lt.mpr more)]

theorem rank_classes (n m : ℤ) (x y : ℤ ×ₗ ℤ) (less : n < m) :
    compare (toLex (n, x)) (toLex (m, y)) = .lt ∧ compare (toLex (m, y)) (toLex (n, x)) = .gt :=
  ⟨compare_lt_iff_lt.mpr (Prod.Lex.toLex_lt_toLex.mpr (.inl less)),
    compare_gt_iff_gt.mpr (Prod.Lex.toLex_lt_toLex.mpr (.inl less))⟩

theorem compare_same_class (n : ℤ) (x y : ℤ ×ₗ ℤ) :
    compare (toLex (n, x)) (toLex (n, y)) = compare x y := by
  rw [compare_lex, compare_eq_iff_eq.mpr (rfl : n = n)]
  rfl

theorem unpacked_compare (a b : UnpackedFloat) (ha : a.isNaN = false) (hb : b.isNaN = false) :
    a.compare b = some (compare (unpackedRank a) (unpackedRank b)) := by
  cases a with
  | notANumber => contradiction
  | infinity s =>
    cases b with
    | notANumber => contradiction
    | _ t =>
      cases s <;> cases t <;> simp only [UnpackedFloat.compare, unpackedRank] <;>
        first
        | (rw [(rank_classes _ _ _ _ (by decide)).1]; rfl)
        | (rw [(rank_classes _ _ _ _ (by decide)).2]; rfl)
        | rw [(rank_classes _ _ _ _ (by decide)).1]
        | rw [(rank_classes _ _ _ _ (by decide)).2]
        | (rw [compare_eq_iff_eq.mpr rfl]; rfl)
  | zero s =>
    cases b with
    | notANumber => contradiction
    | _ t =>
      cases t <;> simp only [UnpackedFloat.compare, unpackedRank] <;>
        first
        | rw [(rank_classes _ _ _ _ (by decide)).1]
        | rw [(rank_classes _ _ _ _ (by decide)).2]
        | rw [compare_eq_iff_eq.mpr rfl]
  | finite s m e positive =>
    cases b with
    | notANumber => contradiction
    | finite t n k positive' =>
      cases s <;> cases t <;> simp only [UnpackedFloat.compare, unpackedRank]
      · rw [compare_same_class, compare_lex, compare_neg, compare_neg, compare_cast]
        cases compare e k <;> rfl
      · rw [(rank_classes _ _ _ _ (by decide)).1]
      · rw [(rank_classes _ _ _ _ (by decide)).2]
      · rw [compare_same_class, compare_lex, compare_cast]
    | _ t =>
      cases s <;> cases t <;> simp only [UnpackedFloat.compare, unpackedRank] <;>
        first
        | rw [(rank_classes _ _ _ _ (by decide)).1]
        | rw [(rank_classes _ _ _ _ (by decide)).2]

def rank (a : Float) : ℤ ×ₗ ℤ ×ₗ ℤ := unpackedRank a.toModel.unpack

variable {a b : Float}

theorem lt_iff (ha : a.isNaN = false) (hb : b.isNaN = false) : a < b ↔ rank a < rank b := by
  change decide (a.toModel < b.toModel) = true ↔ _
  rw [decide_eq_true_eq]
  change (a.toModel.unpack.compare b.toModel.unpack == some .lt) = true ↔ _
  rw [unpacked_compare _ _ ha hb]
  simp [rank, compare_lt_iff_lt]

theorem le_iff (ha : a.isNaN = false) (hb : b.isNaN = false) : a ≤ b ↔ rank a ≤ rank b := by
  change decide (a.toModel ≤ b.toModel) = true ↔ _
  rw [decide_eq_true_eq]
  change (a.toModel.unpack.compare b.toModel.unpack).any (·.isLE) = true ↔ _
  rw [unpacked_compare _ _ ha hb]
  simp [rank, Ordering.isLE_iff_ne_gt, compare_gt_iff_gt]

theorem not_lt_nan_right (hb : b.isNaN = true) : ¬ a < b := by
  change ¬ decide (a.toModel < b.toModel) = true
  rw [decide_eq_true_eq]
  change ¬ (a.toModel.unpack.compare b.toModel.unpack == some .lt) = true
  change b.toModel.unpack.isNaN = true at hb
  cases hu : b.toModel.unpack with
  | notANumber => cases a.toModel.unpack <;> simp [UnpackedFloat.compare]
  | _ => simp [hu, UnpackedFloat.isNaN] at hb

theorem not_lt_nan_left (ha : a.isNaN = true) : ¬ a < b := by
  change ¬ decide (a.toModel < b.toModel) = true
  rw [decide_eq_true_eq]
  change ¬ (a.toModel.unpack.compare b.toModel.unpack == some .lt) = true
  change a.toModel.unpack.isNaN = true at ha
  cases hu : a.toModel.unpack with
  | notANumber => simp [UnpackedFloat.compare]
  | _ => simp [hu, UnpackedFloat.isNaN] at ha

theorem lt_numbers (h : a < b) : a.isNaN = false ∧ b.isNaN = false := by
  constructor
  · cases ha : a.isNaN with
    | false => rfl
    | true => exact absurd h (not_lt_nan_left ha)
  · cases hb : b.isNaN with
    | false => rfl
    | true => exact absurd h (not_lt_nan_right hb)

theorem le_of_lt (h : a < b) : a ≤ b := by
  obtain ⟨ha, hb⟩ := lt_numbers h
  exact (le_iff ha hb).mpr ((lt_iff ha hb).mp h).le

theorem le_of_not_lt (ha : a.isNaN = false) (hb : b.isNaN = false) (h : ¬ a < b) : b ≤ a := by
  rw [lt_iff ha hb] at h
  exact (le_iff hb ha).mpr (not_lt.mp h)

theorem le_transitive {a b c : Float} (ha : a.isNaN = false) (hb : b.isNaN = false)
    (hc : c.isNaN = false) (first : a ≤ b) (second : b ≤ c) : a ≤ c :=
  (le_iff ha hc).mpr (((le_iff ha hb).mp first).trans ((le_iff hb hc).mp second))

theorem le_self {a : Float} (ha : a.isNaN = false) : a ≤ a := (le_iff ha ha).mpr le_rfl

theorem finite_number {a : Float} (h : a.isFinite = true) : a.isNaN = false := by
  change a.toModel.unpack.isFinite = true at h
  change a.toModel.unpack.isNaN = false
  cases hu : a.toModel.unpack <;> simp_all [UnpackedFloat.isFinite, UnpackedFloat.isNaN]

theorem not_lt_of_le (ha : a.isNaN = false) (hb : b.isNaN = false) (h : b ≤ a) : ¬ a < b := by
  rw [lt_iff ha hb]
  exact not_lt.mpr ((le_iff hb ha).mp h)

/-- Positive infinity is above every finite number. -/
theorem lt_infinite (ha : a.isFinite = true) (hb : b.toModel.unpack = .infinity .positive) :
    a < b := by
  have number : b.isNaN = false := by
    change b.toModel.unpack.isNaN = false
    rw [hb]
    rfl
  rw [lt_iff (finite_number ha) number]
  change a.toModel.unpack.isFinite = true at ha
  simp only [rank, hb]
  cases hu : a.toModel.unpack with
  | notANumber => simp [hu, UnpackedFloat.isFinite] at ha
  | infinity s => simp [hu, UnpackedFloat.isFinite] at ha
  | zero s => exact Prod.Lex.toLex_lt_toLex.mpr (.inl (by decide))
  | finite s m e positive =>
    cases s with
    | negative => exact Prod.Lex.toLex_lt_toLex.mpr (.inl (show (-1 : ℤ) < 2 by decide))
    | positive => exact Prod.Lex.toLex_lt_toLex.mpr (.inl (show (1 : ℤ) < 2 by decide))

/-- A number above a zero that is not finite is positive infinity. -/
theorem infinite_of_nonnegative (hb : b.toModel.unpack = .zero s) (ha : a.isNaN = false)
    (nonnegative : b ≤ a) (unbounded : a.isFinite = false) :
    a.toModel.unpack = .infinity .positive := by
  have number : b.isNaN = false := by
    change b.toModel.unpack.isNaN = false
    rw [hb]
    rfl
  rw [le_iff number ha] at nonnegative
  change a.toModel.unpack.isFinite = false at unbounded
  change a.toModel.unpack.isNaN = false at ha
  simp only [rank, hb] at nonnegative
  cases hu : a.toModel.unpack with
  | notANumber => simp [hu, UnpackedFloat.isNaN] at ha
  | infinity t =>
    cases t with
    | positive => rfl
    | negative =>
      rw [hu] at nonnegative
      exact absurd nonnegative (not_le.mpr (Prod.Lex.toLex_lt_toLex.mpr (.inl (by decide))))
  | zero t => simp [hu, UnpackedFloat.isFinite] at unbounded
  | finite t m e positive => simp [hu, UnpackedFloat.isFinite] at unbounded

end Library.FloatOrder
