import Mathlib

/-! Vectors that double when they are full, and how much they have allocated for what they hold. -/
namespace Library.Doubling

/-- A vector with what is allocated for it. -/
structure Growing (α : Type) where
  list : List α := []
  capacity : Nat := 0
  fits : list.length ≤ capacity := by decide

variable {α : Type}

/-- Growing to one more item: twice as much, and at least `least`. -/
def amortized (least capacity : Nat) : Nat := max least (max (capacity * 2) (capacity + 1))

def Growing.push (least : Nat) (self : Growing α) (item : α) : Growing α where
  list := self.list ++ [item]
  capacity := if self.list.length = self.capacity then amortized least self.capacity
    else self.capacity
  fits := by
    have fits := self.fits
    rw [List.length_append, List.length_singleton]
    unfold amortized
    split <;> omega

/-- What pushing `count` items has allocated: nothing, or the first of `least`, twice that, four
times that and so on where they fit. -/
def grown (least count : Nat) : Nat :=
  if count = 0 then 0 else least * 2 ^ Nat.clog 2 (count ⌈/⌉ least)

variable {least : Nat}

theorem grown_pow (positive : 0 < least) {count : Nat} (power : Nat) (above : count ≤ least * 2 ^ power)
    (below : ∀ smaller < power, least * 2 ^ smaller < count) (some : count ≠ 0) :
    grown least count = least * 2 ^ power := by
  have exact : Nat.clog 2 (count ⌈/⌉ least) = power := by
    refine Nat.le_antisymm ((Nat.clog_le_iff_le_pow (by decide)).mpr
      ((ceilDiv_le_iff_le_mul positive).mpr above)) ?_
    by_contra short
    have enough := (ceilDiv_le_iff_le_mul positive).mp
      (Nat.le_pow_clog (b := 2) (by decide) (count ⌈/⌉ least))
    have := below _ (Nat.lt_of_not_le short)
    omega
  rw [grown, if_neg some, exact]

theorem grown_power (positive : 0 < least) {count : Nat} (some : count ≠ 0) :
    ∃ power, grown least count = least * 2 ^ power ∧
      ∀ smaller < power, least * 2 ^ smaller < count := by
  refine ⟨_, if_neg some, fun smaller less => ?_⟩
  by_contra enough
  have := (Nat.clog_le_iff_le_pow (b := 2) (by decide)).mpr
    ((ceilDiv_le_iff_le_mul positive).mpr (Nat.le_of_not_lt enough))
  omega

/-- A vector that was only pushed to has allocated just that. -/
theorem Growing.push_grown (positive : 0 < least) {self : Growing α}
    (known : self.capacity = grown least self.list.length) (item : α) :
    (self.push least item).capacity = grown least (self.push least item).list.length := by
  have length : (self.push least item).list.length = self.list.length + 1 := by
    simp [push]
  rw [length]
  change (if self.list.length = self.capacity then _ else _) = _
  by_cases none : self.list.length = 0
  · have zero : self.capacity = 0 := by
      rw [known, none]
      rfl
    rw [if_pos (none.trans zero.symm), none, zero,
      grown_pow positive 0 (by omega) nofun (by decide)]
    simp only [amortized]
    omega
  · obtain ⟨power, allocated, below⟩ := grown_power positive none
    rw [allocated] at known
    have fits := self.fits
    have zero : 0 < 2 ^ power := Nat.two_pow_pos power
    split
    · next full =>
      rw [grown_pow positive (power + 1) ?_ (fun smaller less => ?_) (by omega), known,
        amortized, Nat.pow_succ, ← Nat.mul_assoc]
      · have : least * 1 ≤ least * 2 ^ power := Nat.mul_le_mul_left least zero
        omega
      · rw [Nat.pow_succ, ← Nat.mul_assoc]
        omega
      · have : least * 2 ^ smaller ≤ least * 2 ^ power :=
          Nat.mul_le_mul_left least (Nat.pow_le_pow_right (by decide) (by omega))
        omega
    · next spare =>
      rw [grown_pow positive power (by omega) (fun smaller less => ?_) (by omega), known]
      exact Nat.lt_succ_of_lt (below smaller less)

end Library.Doubling
