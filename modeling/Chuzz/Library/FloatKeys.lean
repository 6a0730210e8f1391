import Chuzz.Library.FloatOrder

/-! The order of doubles by their bits. On numbers it refines the comparison: only the two zeros,
which are equal, are told apart. -/
namespace Library.FloatKeys
open Float.Model UnpackedFloat Library.FloatOrder

/-- What the fields of a double stand for. -/
inductive Fields (sign : Sign) (exponent mantissa : ℕ) : UnpackedFloat → Prop
  | infinity : exponent = 2047 → mantissa = 0 → Fields sign exponent mantissa (.infinity sign)
  | nan : exponent = 2047 → mantissa ≠ 0 → Fields sign exponent mantissa .notANumber
  | zero : exponent = 0 → mantissa = 0 → Fields sign exponent mantissa (.zero sign)
  | subnormal (e positive) : exponent = 0 → e = -1074 →
      Fields sign exponent mantissa (.finite sign mantissa e positive)
  | normal (m e positive) : exponent ≠ 0 → exponent ≠ 2047 → m = 2 ^ 52 + mantissa →
      e = (exponent : ℤ) - 1075 → Fields sign exponent mantissa (.finite sign m e positive)

theorem unpackMantissa_toNat (bits : BitVec 64) :
    (@unpackMantissa Format.binary64 bits).toNat = bits.toNat % 2 ^ 52 := by
  unfold unpackMantissa
  simp [BitVec.extractLsb_toNat]

theorem unpackExponent_toNat (bits : BitVec 64) :
    (@unpackExponent Format.binary64 bits).toNat = bits.toNat / 2 ^ 52 % 2 ^ 11 := by
  unfold unpackExponent
  simp [BitVec.extractLsb_toNat, Nat.shiftRight_eq_div_pow]

theorem unpackSign_eq (bits : BitVec 64) :
    Sign.ofBitVec (@unpackSign Format.binary64 bits) =
      if bits.toNat < 2 ^ 63 then .positive else .negative := by
  have bit : (@unpackSign Format.binary64 bits).toNat = bits.toNat / 2 ^ 63 % 2 := by
    unfold unpackSign
    simp [BitVec.extractLsb_toNat, Nat.shiftRight_eq_div_pow]
  have same : @unpackSign Format.binary64 bits = 0#1 ↔ bits.toNat < 2 ^ 63 := by
    rw [← BitVec.toNat_inj, bit]
    change _ = 0 ↔ _
    omega
  unfold Sign.ofBitVec
  simp only [same]

theorem unpack_fields (bits : BitVec 64) :
    Fields (if bits.toNat < 2 ^ 63 then .positive else .negative) (bits.toNat / 2 ^ 52 % 2 ^ 11)
      (bits.toNat % 2 ^ 52) (UnpackedFloat.unpack Format.binary64 bits) := by
  rw [← unpackSign_eq, ← unpackExponent_toNat, ← unpackMantissa_toNat]
  unfold UnpackedFloat.unpack
  have top : @unpackExponent Format.binary64 bits = -1#11 ↔
      (@unpackExponent Format.binary64 bits).toNat = 2047 := by
    rw [← BitVec.toNat_inj]
    rfl
  have zero : @unpackExponent Format.binary64 bits = 0#11 ↔
      (@unpackExponent Format.binary64 bits).toNat = 0 := by
    rw [← BitVec.toNat_inj]
    rfl
  have none : @unpackMantissa Format.binary64 bits = 0#52 ↔
      (@unpackMantissa Format.binary64 bits).toNat = 0 := by
    rw [← BitVec.toNat_inj]
    rfl
  dsimp only
  split
  · rename_i full
    split
    · rename_i least
      exact .infinity (top.mp full) (none.mp least)
    · rename_i some
      exact .nan (top.mp full) fun least => some (none.mpr least)
  · rename_i finite
    split
    · rename_i least
      split
      · rename_i least'
        exact .zero (zero.mp least) (none.mp least')
      · refine .subnormal _ _ (zero.mp least) ?_
        rw [zero.mp least]
        rfl
    · rename_i normal
      refine .normal _ _ _ (fun least => normal (zero.mpr least)) (fun full => finite (top.mpr full))
        ?_ rfl
      rw [BitVec.toNat_append]
      change 2 ^ 52 ||| _ = _
      rw [Nat.or_comm, Nat.or_two_pow_eq_add_of_lt (BitVec.isLt _), Nat.add_comm]

/-- Class, exponent and mantissa of the absolute value. -/
def magnitude (exponent mantissa : ℕ) : ℤ × ℤ × ℤ :=
  if exponent = 2047 then (2, 0, 0)
  else if exponent = 0 then if mantissa = 0 then (0, 0, 0) else (1, -1074, mantissa)
  else (1, exponent - 1075, 2 ^ 52 + mantissa)

def signed : Sign → ℤ × ℤ × ℤ → ℤ ×ₗ ℤ ×ₗ ℤ
  | .positive, (a, b, c) => toLex (a, toLex (b, c))
  | .negative, (a, b, c) => toLex (-a, toLex (-b, -c))

theorem Fields.rank {sign : Sign} {exponent mantissa : ℕ} {x : UnpackedFloat}
    (fields : Fields sign exponent mantissa x) (number : x.isNaN = false) :
    unpackedRank x = signed sign (magnitude exponent mantissa) := by
  unfold magnitude
  cases fields with
  | infinity full least =>
    rw [if_pos full]
    cases sign <;> rfl
  | nan => cases number
  | zero least least' =>
    rw [if_neg (by omega), if_pos least, if_pos least']
    cases sign <;> rfl
  | subnormal e positive least place =>
    rw [if_neg (by omega), if_pos least, if_neg (by omega), place]
    cases sign <;> rfl
  | normal m e positive normal finite digits place =>
    rw [if_neg finite, if_neg normal]
    subst digits place
    cases sign <;> simp [unpackedRank, signed]

theorem signed_positive_le {a b c a' b' c' : ℤ} :
    signed .positive (a, b, c) ≤ signed .positive (a', b', c') ↔
      a < a' ∨ a = a' ∧ (b < b' ∨ b = b' ∧ c ≤ c') := by
  rw [signed, signed, Prod.Lex.toLex_le_toLex, Prod.Lex.toLex_le_toLex]

theorem signed_negative_le {a b c a' b' c' : ℤ} :
    signed .negative (a, b, c) ≤ signed .negative (a', b', c') ↔
      signed .positive (a', b', c') ≤ signed .positive (a, b, c) := by
  rw [signed_positive_le, signed, signed, Prod.Lex.toLex_le_toLex, Prod.Lex.toLex_le_toLex]
  omega

theorem magnitude_mono {exponent mantissa exponent' mantissa' : ℕ} (small : mantissa < 2 ^ 52)
    (small' : mantissa' < 2 ^ 52)
    (le : exponent * 2 ^ 52 + mantissa ≤ exponent' * 2 ^ 52 + mantissa') (within : exponent' < 2 ^ 11) :
    signed .positive (magnitude exponent mantissa) ≤
      signed .positive (magnitude exponent' mantissa') := by
  unfold magnitude
  split_ifs <;> rw [signed_positive_le] <;> omega

theorem magnitude_nonneg (exponent mantissa exponent' mantissa' : ℕ) :
    signed .negative (magnitude exponent mantissa) ≤
      signed .positive (magnitude exponent' mantissa') := by
  unfold magnitude
  split_ifs <;> rw [signed, signed, Prod.Lex.toLex_le_toLex, Prod.Lex.toLex_le_toLex] <;>
    dsimp only <;> omega

/-- The integer that stands for a double in the order by bits. -/
def key (a : Float) : ℤ :=
  if a.toModel.toBits.toNat < 2 ^ 63 then a.toModel.toBits.toNat
  else -1 - ((a.toModel.toBits.toNat : ℤ) - 2 ^ 63)

theorem le_of_key_le {a b : Float} (first : a.isNaN = false) (second : b.isNaN = false)
    (ordered : key a ≤ key b) : a ≤ b := by
  rw [le_iff first second]
  have fields := unpack_fields a.toModel.toBits.toBitVec
  have fields' := unpack_fields b.toModel.toBits.toBitVec
  change a.toModel.unpack.isNaN = false at first
  change b.toModel.unpack.isNaN = false at second
  unfold rank
  change Fields _ _ _ a.toModel.unpack at fields
  change Fields _ _ _ b.toModel.unpack at fields'
  change (if a.toModel.toBits.toBitVec.toNat < 2 ^ 63 then (a.toModel.toBits.toBitVec.toNat : ℤ)
    else -1 - ((a.toModel.toBits.toBitVec.toNat : ℤ) - 2 ^ 63)) ≤
    (if b.toModel.toBits.toBitVec.toNat < 2 ^ 63 then (b.toModel.toBits.toBitVec.toNat : ℤ)
    else -1 - ((b.toModel.toBits.toBitVec.toNat : ℤ) - 2 ^ 63)) at ordered
  have bound := a.toModel.toBits.toBitVec.isLt
  generalize a.toModel.toBits.toBitVec.toNat = m at *
  generalize b.toModel.toBits.toBitVec.toNat = n at *
  generalize a.toModel.unpack = x at *
  generalize b.toModel.unpack = y at *
  rw [fields.rank first, fields'.rank second]
  by_cases low : m < 2 ^ 63
  · rw [if_pos low] at ordered
    have low' : n < 2 ^ 63 := by
      by_contra high
      omega
    rw [if_pos low, if_pos low']
    exact magnitude_mono (by omega) (by omega) (by omega) (by omega)
  · rw [if_neg low] at ordered
    rw [if_neg low]
    by_cases low' : n < 2 ^ 63
    · rw [if_pos low']
      exact magnitude_nonneg ..
    · rw [if_neg low'] at ordered
      rw [if_neg low', signed_negative_le]
      exact magnitude_mono (by omega) (by omega) (by omega) (by omega)

end Library.FloatKeys
