import Mathlib

/-! Lines through points, by the length from their start. What a part of a line covers is said
without its points: it runs through the same places. -/
namespace Library.Polylines

/-- How long vectors are. -/
structure Size (K V : Type) [Field K] [LinearOrder K] [AddCommGroup V] [Module K V] where
  of : V → K
  nonneg : ∀ v, 0 ≤ of v
  smul : ∀ (t : K) v, of (t • v) = |t| * of v
  zero : ∀ v, of v = 0 → v = 0

variable {K V : Type} [Field K] [LinearOrder K] [IsStrictOrderedRing K] [AddCommGroup V]
  [Module K V] (size : Size K V)

/-- The length of a line. -/
def length : List V → K
  | a :: b :: rest => size.of (b - a) + length (b :: rest)
  | _ => 0

/-- The place at this length from the start. -/
def pointAt : List V → K → V
  | a :: b :: rest, s =>
    if s < size.of (b - a) then a + (s / size.of (b - a)) • (b - a)
    else pointAt (b :: rest) (s - size.of (b - a))
  | [a], _ => a
  | [], _ => 0

/-- The part of a line from `lo` to `hi`. -/
structure Covers (points : List V) (lo hi : K) (part : List V) : Prop where
  whole : length size part = hi - lo
  same : ∀ t, 0 ≤ t → t ≤ hi - lo → pointAt size part t = pointAt size points (lo + t)

variable {size} {points part front back : List V} {a b : V} {lo s step t : K}

theorem length_nonneg (size : Size K V) (points : List V) : 0 ≤ length size points := by
  induction points with
  | nil => exact le_rfl
  | cons a rest ih =>
    cases rest with
    | nil => exact le_rfl
    | cons b rest => exact add_nonneg (size.nonneg _) ih

omit [IsStrictOrderedRing K] in
theorem length_append (front : List V) (a : V) (back : List V) :
    length size (front ++ a :: back) = length size (front ++ [a]) + length size (a :: back) := by
  induction front with
  | nil => exact (zero_add _).symm
  | cons first front ih =>
    cases front with
    | nil =>
      change size.of (a - first) + length size (a :: back) = size.of (a - first) + 0 + _
      rw [add_zero]
    | cons second front =>
      change size.of (second - first) + length size (second :: front ++ a :: back) =
        size.of (second - first) + length size (second :: front ++ [a]) + _
      rw [ih, add_assoc]

omit [IsStrictOrderedRing K] in
/-- The start. -/
theorem pointAt_zero (a : V) (rest : List V) : pointAt size (a :: rest) 0 = a := by
  induction rest generalizing a with
  | nil => rfl
  | cons b rest ih =>
    unfold pointAt
    split
    · rw [zero_div, zero_smul, add_zero]
    · rename_i empty
      have none : size.of (b - a) = 0 := le_antisymm (not_lt.mp empty) (size.nonneg _)
      rw [none, sub_zero, ih, sub_eq_zero.mp (size.zero _ none)]

/-- Behind a vertex only the rest of the line counts. -/
theorem pointAt_behind (front : List V) (a : V) (back : List V) (forward : 0 ≤ t) :
    pointAt size (front ++ a :: back) (length size (front ++ [a]) + t) =
      pointAt size (a :: back) t := by
  induction front with
  | nil =>
    change pointAt size (a :: back) (0 + t) = _
    rw [zero_add]
  | cons first front ih =>
    cases front with
    | nil =>
      change pointAt size (first :: a :: back) (size.of (a - first) + 0 + t) = _
      rw [pointAt, if_neg (by linarith), add_zero, add_sub_cancel_left]
    | cons second front =>
      have rest := length_nonneg size (second :: front ++ [a])
      change pointAt size (first :: second :: (front ++ a :: back))
        (size.of (second - first) + length size (second :: front ++ [a]) + t) = _
      rw [pointAt, if_neg (by linarith), add_assoc, add_sub_cancel_left]
      exact ih

/-- Up to its end a line does not depend on what follows. -/
theorem pointAt_before (back : List V) (some : points ≠ []) (forward : 0 ≤ s)
    (inside : s ≤ length size points) : pointAt size (points ++ back) s = pointAt size points s := by
  induction points generalizing s with
  | nil => exact absurd rfl some
  | cons a rest ih =>
    cases rest with
    | nil =>
      obtain rfl := le_antisymm inside forward
      exact pointAt_zero a back
    | cons b rest =>
      change pointAt size (a :: b :: (rest ++ back)) s = pointAt size (a :: b :: rest) s
      rw [pointAt, pointAt]
      split
      · rfl
      · rename_i beyond
        refine ih (List.cons_ne_nil _ _) (sub_nonneg.mpr (not_lt.mp beyond)) ?_
        change s ≤ size.of (b - a) + length size (b :: rest) at inside
        linarith

/-- The end. -/
theorem pointAt_length (front : List V) (a : V) :
    pointAt size (front ++ [a]) (length size (front ++ [a])) = a := by
  have behind := @pointAt_behind K V _ _ _ _ _ size 0 front a [] le_rfl
  rw [add_zero] at behind
  exact behind

/-- The line between two points. -/
theorem pointAt_segment (a d : V) (unit : size.of d = 1) (forward : 0 ≤ t) (inside : t ≤ step) :
    pointAt size [a, a + step • d] t = a + t • d := by
  have long : size.of (a + step • d - a) = step := by
    rw [add_sub_cancel_left, size.smul, unit, mul_one, abs_of_nonneg (forward.trans inside)]
  rw [pointAt, long]
  split
  · rename_i before
    rw [add_sub_cancel_left, smul_smul, div_mul_cancel₀ _ (forward.trans_lt before).ne']
  · rename_i reached
    obtain rfl := le_antisymm inside (not_lt.mp reached)
    rfl

theorem length_segment (a d : V) (unit : size.of d = 1) (forward : 0 ≤ step) :
    length size [a, a + step • d] = step := by
  change size.of (a + step • d - a) + 0 = step
  rw [add_sub_cancel_left, size.smul, unit, mul_one, abs_of_nonneg forward, add_zero]

/-- A straight part. -/
theorem Covers.segment {d : V} (unit : size.of d = 1) (forward : 0 ≤ step)
    (straight : ∀ t, 0 ≤ t → t ≤ step → pointAt size points (s + t) = a + t • d) :
    Covers size points s (s + step) [a, a + step • d] := by
  refine ⟨by rw [length_segment a d unit forward, add_sub_cancel_left], fun t first last => ?_⟩
  rw [add_sub_cancel_left] at last
  rw [pointAt_segment a d unit first last, straight t first last]

/-- A part that goes on straight. -/
theorem Covers.extend {d : V} (covers : Covers size points lo s part) (some : part ≠ [])
    (unit : size.of d = 1) (forward : 0 ≤ step)
    (straight : ∀ t, 0 ≤ t → t ≤ step → pointAt size points (s + t) = a + t • d) :
    Covers size points lo (s + step) (part ++ [a + step • d]) := by
  obtain ⟨front, last, rfl⟩ := (List.eq_nil_or_concat part).resolve_left some
  rw [List.concat_eq_append] at covers ⊢
  have whole := covers.whole
  have length := length_nonneg size (front ++ [last])
  have same : last = a := by
    have ended := covers.same (s - lo) (by linarith) le_rfl
    rw [← whole, pointAt_length, whole, add_sub_cancel] at ended
    have started := straight 0 le_rfl forward
    rw [add_zero, zero_smul, add_zero] at started
    exact ended.trans started
  subst same
  refine ⟨?_, fun t first inside => ?_⟩
  · rw [List.append_assoc, List.singleton_append, length_append, length_segment _ d unit forward,
      whole]
    linarith
  · rcases le_total t (s - lo) with before | behind
    · rw [pointAt_before _ (by simp) first (by rwa [whole]), covers.same t first before]
    · have place : t = Polylines.length size (front ++ [last]) + (t - (s - lo)) := by
        linarith
      have remaining : 0 ≤ t - (s - lo) := sub_nonneg.mpr behind
      rw [place, List.append_assoc, List.singleton_append, pointAt_behind _ _ _ remaining,
        pointAt_segment _ _ unit remaining (by linarith), ← straight _ remaining (by linarith), whole]
      congr 1
      linarith

/-- An edge of a line is straight. -/
theorem pointAt_edge (front : List V) (a b : V) (back : List V) (apart : 0 < size.of (b - a))
    (forward : 0 ≤ t) (inside : t ≤ size.of (b - a)) :
    pointAt size (front ++ a :: b :: back) (length size (front ++ [a]) + t) =
      a + t • ((size.of (b - a))⁻¹ • (b - a)) := by
  rw [pointAt_behind _ _ _ forward, pointAt]
  split
  · rw [smul_smul, div_eq_mul_inv]
  · rename_i reached
    obtain rfl := le_antisymm inside (not_lt.mp reached)
    rw [sub_self, pointAt_zero, smul_smul, mul_inv_cancel₀ apart.ne', one_smul, add_sub_cancel]

theorem size_direction (apart : 0 < size.of (b - a)) :
    size.of ((size.of (b - a))⁻¹ • (b - a)) = 1 := by
  rw [size.smul, abs_of_pos (inv_pos.mpr apart), inv_mul_cancel₀ apart.ne']

end Library.Polylines
