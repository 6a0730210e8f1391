import Chuzz.Library.FloatOrder

/-! Magnitudes of doubles. A double below `2 ^ k` is finite, and so are the sums, differences and
quotients of such doubles, as long as the exponents stay far from overflow. Only magnitudes are
followed, by the position of the leading digit; nothing here says what a result is rounded to. -/
namespace Library.FloatBounds
open Float.Model UnpackedFloat Library.FloatOrder

theorem targetExponent_eq (total : ℤ) :
    Format.binary64.targetExponent total = max (total - 53) (-1074) := rfl

/-! Rounding. -/

theorem shifted_mantissa (extended : ExtendedMantissa) (amount : ℕ) :
    (extended >>> amount).mantissa = extended.mantissa / 2 ^ amount := by
  induction amount with
  | zero => exact (Nat.div_one _).symm
  | succ amount ih =>
    change (extended >>> amount).mantissa / 2 = _
    rw [ih, Nat.div_div_eq_div_mul, Nat.pow_succ]

theorem roundedMantissa_bounds (extended : ExtendedMantissa) :
    extended.mantissa ≤ extended.roundedMantissa ∧
      extended.roundedMantissa ≤ extended.mantissa + 1 := by
  unfold ExtendedMantissa.roundedMantissa
  cases extended.accuracy with
  | exact => exact ⟨le_rfl, Nat.le_succ _⟩
  | inexact order => cases order <;> simp only [Accuracy.roundToNearestEven] <;> omega

theorem log2_mono {m n : ℕ} (le : m ≤ n) : m.log2 ≤ n.log2 := by
  rw [Nat.log2_eq_log_two, Nat.log2_eq_log_two]
  exact Nat.log_mono_right le

theorem log2_succ_le (m : ℕ) : (m + 1).log2 ≤ m.log2 + 1 := by
  rcases Nat.eq_zero_or_pos m with rfl | positive
  · decide
  · have below := Nat.lt_log2_self (n := m)
    have next : m + 1 < 2 ^ (m.log2 + 1 + 1) := by
      omega
    have := (Nat.log2_lt (by omega)).mpr next
    omega

theorem log2_div_le {m amount : ℕ} (positive : m / 2 ^ amount ≠ 0) :
    (m / 2 ^ amount).log2 + amount = m.log2 := by
  have large : 2 ^ amount ≤ m := by
    by_contra small
    exact positive (Nat.div_eq_of_lt (not_le.mp small))
  rw [Nat.log2_eq_log_two, Nat.log2_eq_log_two, Nat.log_div_base_pow]
  have := Nat.le_log_of_pow_le (by decide) large
  omega

/-- The digits that a mantissa loses to its target exponent. -/
def excess (m : ℕ) (e : ℤ) : ℕ :=
  (Format.binary64.targetExponent (totalExponent m e) - e).toNat

theorem excess_eq (m : ℕ) (e : ℤ) :
    (excess m e : ℤ) = max (max (m.log2 + 1 + e - 53) (-1074) - e) 0 := by
  rw [excess, targetExponent_eq, totalExponent]
  omega

theorem ofMantissa_mantissa (m : ℕ) (accuracy : Accuracy) :
    (ExtendedMantissa.ofMantissaAndAccuracy m accuracy).mantissa = m := by
  cases accuracy with
  | exact => rfl
  | inexact order => cases order <;> rfl

/-- A rounded number: the mantissa is cut, goes up by one at most, and is cut again. -/
theorem roundWithAccuracy_cut (sign : Sign) (m : ℕ) (e : ℤ) (accuracy : Accuracy) :
    ∃ rounded first last, m / 2 ^ first ≤ rounded ∧ rounded ≤ m / 2 ^ first + 1 ∧
      first = excess m e ∧ last = excess rounded (e + first) ∧
      roundWithAccuracy Format.binary64 sign m e accuracy =
        if positive : rounded / 2 ^ last = 0 then .zero sign
        else .finite sign (rounded / 2 ^ last) (e + first + last) (Nat.pos_of_ne_zero positive) := by
  let extended := ExtendedMantissa.ofMantissaAndAccuracy m accuracy >>> excess m e
  have cut : extended.mantissa = m / 2 ^ excess m e := by
    rw [shifted_mantissa, ofMantissa_mantissa]
  obtain ⟨least, most⟩ := roundedMantissa_bounds extended
  rw [cut] at least most
  refine ⟨extended.roundedMantissa, _, _, least, most, rfl, rfl, ?_⟩
  have last (amount : ℕ) : (ExtendedMantissa.ofMantissaAndAccuracy extended.roundedMantissa .exact >>>
      amount).mantissa = extended.roundedMantissa / 2 ^ amount := by
    rw [shifted_mantissa, ofMantissa_mantissa]
  simp only [← last]
  rfl

/-- A number below `2 ^ k`, by its leading digit. -/
def Below (k : ℤ) : UnpackedFloat → Prop
  | .zero _ => True
  | .finite _ m e _ => totalExponent m e ≤ k
  | _ => False

/-- A number from `2 ^ (k - 1)` on that has all its digits. -/
def Full (k : ℤ) : UnpackedFloat → Prop
  | .finite _ m e _ => m.log2 = 52 ∧ k ≤ totalExponent m e
  | _ => False

variable {sign : Sign} {m : ℕ} {e k : ℤ}

theorem roundWithAccuracy_below {accuracy : Accuracy} (small : totalExponent m e ≤ k)
    (low : -1074 ≤ k) : Below (k + 1) (roundWithAccuracy Format.binary64 sign m e accuracy) := by
  obtain ⟨rounded, first, last, least, most, cut, cut', eq⟩ :=
    roundWithAccuracy_cut sign m e accuracy
  rw [eq]
  have amount := excess_eq m e
  split
  · exact True.intro
  · rename_i positive
    change totalExponent _ _ ≤ _
    unfold totalExponent at small ⊢
    have shorter := log2_div_le positive
    have taller := log2_mono most
    by_cases none : m / 2 ^ first = 0
    · rw [none] at taller
      have : (0 + 1).log2 = 0 := by decide
      omega
    · have := log2_succ_le (m / 2 ^ first)
      have := log2_div_le none
      omega

theorem roundWithAccuracy_full {accuracy : Accuracy} (digits : 52 ≤ m.log2)
    (large : k ≤ totalExponent m e) (high : -1021 ≤ totalExponent m e) :
    Full k (roundWithAccuracy Format.binary64 sign m e accuracy) := by
  obtain ⟨rounded, first, last, least, most, cut, cut', eq⟩ :=
    roundWithAccuracy_cut sign m e accuracy
  rw [eq]
  have amount := excess_eq m e
  have again := excess_eq rounded (e + first)
  unfold totalExponent at large high
  have some : m / 2 ^ first ≠ 0 := by
    have : 2 ^ m.log2 ≤ m := Nat.log2_self_le (by rintro rfl; exact absurd digits (by decide))
    have : 2 ^ first ≤ 2 ^ m.log2 := Nat.pow_le_pow_right (by decide) (by omega)
    exact (Nat.div_pos (by omega) (Nat.two_pow_pos _)).ne'
  have here : (m / 2 ^ first).log2 = 52 := by
    have := log2_div_le some
    omega
  have nonzero : rounded ≠ 0 := ((Nat.pos_of_ne_zero some).trans_le least).ne'
  have below : m / 2 ^ first < 2 ^ 53 := (Nat.log2_lt some).mp (by omega)
  have above : 52 ≤ rounded.log2 := here ▸ log2_mono least
  rcases Nat.lt_or_ge rounded (2 ^ 53) with small | full
  · have same : rounded.log2 = 52 := by
      have := (Nat.log2_lt nonzero).mpr small
      omega
    have last_eq : last = 0 := by omega
    rw [last_eq, Nat.pow_zero, Nat.div_one, dif_neg nonzero]
    refine ⟨same, ?_⟩
    unfold totalExponent
    omega
  · obtain rfl : rounded = 2 ^ 53 := by omega
    have same : (2 ^ 53 : ℕ).log2 = 53 := by decide
    have last_eq : last = 1 := by omega
    rw [last_eq, dif_neg (by decide)]
    refine ⟨by decide, ?_⟩
    have half : (2 ^ 53 / 2 ^ 1 : ℕ).log2 = 52 := by decide
    unfold totalExponent
    omega

theorem log2_shift (positive : m ≠ 0) (amount : ℕ) : (m <<< amount).log2 = m.log2 + amount := by
  rw [Nat.shiftLeft_eq, Nat.log2_eq_log_two, Nat.log2_eq_log_two]
  induction amount with
  | zero => rw [Nat.pow_zero, Nat.mul_one, Nat.add_zero]
  | succ amount ih =>
    have some : m * 2 ^ amount ≠ 0 := Nat.mul_ne_zero positive (Nat.two_pow_pos _).ne'
    rw [Nat.pow_succ, ← Nat.mul_assoc, Nat.log_mul_base (by decide) some, ih, Nat.add_assoc]

theorem totalExponent_shift (positive : m ≠ 0) (e : ℤ) (amount : ℕ) :
    totalExponent (m <<< amount) (e - amount) = totalExponent m e := by
  unfold totalExponent
  rw [log2_shift positive]
  omega

theorem round_below (positive : m ≠ 0) (small : totalExponent m e ≤ k) (low : -1074 ≤ k) :
    Below (k + 1) (UnpackedFloat.round Format.binary64 sign m e) :=
  roundWithAccuracy_below ((totalExponent_shift positive e _).trans_le small) low

theorem round_full (positive : m ≠ 0) (large : k ≤ totalExponent m e)
    (high : -1021 ≤ totalExponent m e) : Full k (UnpackedFloat.round Format.binary64 sign m e) := by
  have same (amount : ℕ) := totalExponent_shift positive e amount
  refine roundWithAccuracy_full ?_ (large.trans_eq (same _).symm) (high.trans_eq (same _).symm)
  rw [log2_shift positive, targetExponent_eq]
  unfold totalExponent at high ⊢
  omega

theorem normalize_below {n : ℤ} (small : n ≠ 0 → totalExponent n.natAbs e ≤ k)
    (low : -1074 ≤ k) : Below (k + 1) (UnpackedFloat.normalize Format.binary64 n e sign) := by
  unfold UnpackedFloat.normalize
  rcases lt_trichotomy n 0 with negative | rfl | positive
  · rw [compare_lt_iff_lt.mpr negative]
    have size : (-n).toNat = n.natAbs := by omega
    rw [size]
    exact round_below (by omega) (small negative.ne) low
  · exact True.intro
  · rw [compare_gt_iff_gt.mpr positive]
    have size : n.toNat = n.natAbs := by omega
    rw [size]
    exact round_below (by omega) (small positive.ne') low

theorem ofInt_below {n : ℤ} {k : ℕ} (small : n.natAbs < 2 ^ k) :
    Below (k + 1) (UnpackedFloat.ofInt Format.binary64 n) := by
  refine normalize_below (fun nonzero => ?_) (by omega)
  have := (Nat.log2_lt (Int.natAbs_ne_zero.mpr nonzero)).mpr small
  unfold totalExponent
  omega

theorem ofInt_full {n : ℤ} (positive : 0 < n) : Full 1 (UnpackedFloat.ofInt Format.binary64 n) := by
  unfold UnpackedFloat.ofInt UnpackedFloat.normalize
  rw [compare_gt_iff_gt.mpr positive]
  refine round_full (by omega) ?_ ?_ <;> unfold totalExponent <;> omega

/-! Sums and quotients. -/

variable {x : UnpackedFloat}

theorem Below.mono {k l : ℤ} (below : Below k x) (le : k ≤ l) : Below l x := by
  cases x with
  | zero => exact True.intro
  | finite sign m e positive => exact (show totalExponent m e ≤ k from below).trans le
  | notANumber => exact below
  | infinity => exact below

theorem shifted_lt {e s k : ℤ} (small : totalExponent m e ≤ k) (positive : m ≠ 0) (le : s ≤ e) :
    m <<< (e - s).toNat < 2 ^ (k - s).toNat := by
  have nonzero : m <<< (e - s).toNat ≠ 0 := by
    rw [Nat.shiftLeft_eq]
    exact Nat.mul_ne_zero positive (Nat.two_pow_pos _).ne'
  unfold totalExponent at small
  rw [← Nat.log2_lt nonzero, log2_shift positive]
  omega

/-- The exact result of an addition or a subtraction, before it is rounded. -/
theorem combined_below {m n : ℤ} {s k : ℤ} (first : m.natAbs < 2 ^ (k - s).toNat)
    (second : n.natAbs < 2 ^ (k - s).toNat) (low : 0 ≤ k) (inside : s ≤ k) :
    Below (k + 2) (UnpackedFloat.normalize Format.binary64 (m + n) s sign) := by
  refine (normalize_below (k := k + 1) (fun nonzero => ?_) (by omega)).mono (by omega)
  have sum : (m + n).natAbs < 2 ^ ((k - s).toNat + 1) := by
    omega
  have := (Nat.log2_lt (Int.natAbs_ne_zero.mpr nonzero)).mpr sum
  unfold totalExponent
  omega

theorem natAbs_apply (sign : Sign) (n : ℕ) : (sign.apply n).natAbs = n := by
  cases sign with
  | negative => exact (Int.natAbs_neg _).trans (Int.natAbs_natCast n)
  | positive => exact Int.natAbs_natCast n

theorem exponent_lt (small : totalExponent m e ≤ k) : e < k := by
  unfold totalExponent at small
  omega

variable {k : ℤ}

theorem add_sub_below {x y : UnpackedFloat} (first : Below k x) (second : Below k y)
    (low : 0 ≤ k) : Below (k + 2) (x.add Format.binary64 y) ∧
      Below (k + 2) (x.sub Format.binary64 y) := by
  cases x with
  | notANumber => exact first.elim
  | infinity => exact first.elim
  | zero s =>
    cases y with
    | notANumber => exact second.elim
    | infinity => exact second.elim
    | zero t =>
      change Below _ (if _ then _ else _) ∧ Below _ (if _ then _ else _)
      constructor <;> split <;> exact True.intro
    | finite t n f =>
      exact ⟨second.mono (by omega), (show totalExponent n f ≤ k from second).trans (by omega)⟩
  | finite s m e positive =>
    cases y with
    | notANumber => exact second.elim
    | infinity => exact second.elim
    | zero => exact ⟨first.mono (by omega), first.mono (by omega)⟩
    | finite t n f positive' =>
      have one := (natAbs_apply s _).trans_lt (shifted_lt first positive.ne' (min_le_left e f))
      have other := (natAbs_apply t _).trans_lt (shifted_lt second positive'.ne' (min_le_right e f))
      have inside := (min_le_left e f).trans (exponent_lt first).le
      refine ⟨combined_below one other low inside, ?_⟩
      exact combined_below one ((Int.natAbs_neg _).trans_lt other) low inside

theorem log2_quotient {m n : ℕ} (positive : m / n ≠ 0) : (m / n).log2 + n.log2 ≤ m.log2 := by
  have some : n ≠ 0 := by
    rintro rfl
    exact positive (Nat.div_zero m)
  have whole : 2 ^ ((m / n).log2 + n.log2) ≤ m := by
    rw [Nat.pow_add]
    exact (Nat.mul_le_mul (Nat.log2_self_le positive) (Nat.log2_self_le some)).trans
      (Nat.div_mul_le_self m n)
  exact (Nat.le_log2 (by have := Nat.two_pow_pos ((m / n).log2 + n.log2); omega)).mpr whole

/-- A quotient by a number that is not below one. -/
theorem div_below {x y : UnpackedFloat} (first : Below k x) (second : Full 1 y)
    (low : 0 ≤ k) : Below (k + 1) (x.div Format.binary64 y) := by
  cases y with
  | notANumber => exact second.elim
  | infinity => exact second.elim
  | zero => exact second.elim
  | finite t n f positive' =>
    cases x with
    | notANumber => exact first.elim
    | infinity => exact first.elim
    | zero => exact True.intro
    | finite s m e positive =>
      refine roundWithAccuracy_below ?_ (by omega)
      have least : 1 ≤ totalExponent n f := second.2
      have most : totalExponent m e ≤ k := first
      rw [targetExponent_eq]
      generalize span : min (e - f) (max (totalExponent m e - totalExponent n f - 53) (-1074)) = t
      unfold totalExponent at *
      by_cases none : m <<< (e - f - t).toNat / n = 0
      · rw [none]
        have : (0 : ℕ).log2 = 0 := by decide
        omega
      · have digits := log2_quotient none
        rw [log2_shift positive.ne'] at digits
        omega

/-! Packing. -/

/-- The mantissa of a normal number, with the digit that is not stored. -/
theorem log2_append (mantissa : BitVec 52) : (1#1 ++ mantissa).toNat.log2 = 52 := by
  have most : (1#1 ++ mantissa).toNat < 2 ^ 53 := (1#1 ++ mantissa).isLt
  have least : 2 ^ 52 ≤ (1#1 ++ mantissa).toNat := by
    exact Nat.left_le_or
  rw [Nat.log2_eq_iff (by omega)]
  exact ⟨least, most⟩

theorem unpacked_full {exponent : BitVec 11} {mantissa : BitVec 52} (finite : exponent ≠ -1#11)
    (normal : exponent ≠ 0#11) : ∃ m positive, m.log2 = 52 ∧ UnpackedFloat.unpack Format.binary64
        (packComponents Format.binary64 sign exponent mantissa) =
      .finite (Sign.ofBitVec (unpackSign (packComponents Format.binary64 sign exponent mantissa))) m
        (exponent.toNat - 1075) positive := by
  refine ⟨(1#1 ++ mantissa).toNat, ?_, log2_append mantissa, ?_⟩
  · have := log2_append mantissa
    refine Nat.pos_of_ne_zero fun none => ?_
    rw [none] at this
    exact absurd this (by decide)
  · unfold UnpackedFloat.unpack
    simp only [unpackExponent_packComponents, unpackMantissa_packComponents]
    rw [if_neg finite, if_neg normal]
    rfl

theorem unpacked_below {exponent : BitVec 11} {mantissa : BitVec 52} (finite : exponent ≠ -1#11) :
    Below (max (-1021) (exponent.toNat - 1022))
      (UnpackedFloat.unpack Format.binary64
        (packComponents Format.binary64 sign exponent mantissa)) := by
  by_cases least : exponent = 0#11
  · unfold UnpackedFloat.unpack
    simp only [unpackExponent_packComponents, unpackMantissa_packComponents]
    rw [if_neg finite, if_pos least]
    split
    · exact True.intro
    · rename_i some
      change totalExponent mantissa.toNat (exponent.toNat - 1075 + 1) ≤ _
      have digits := (Nat.log2_lt (n := mantissa.toNat) (k := 52) fun none =>
        some (BitVec.eq_of_toNat_eq none)).mpr mantissa.isLt
      unfold totalExponent
      omega
  · obtain ⟨m, positive, digits, eq⟩ := @unpacked_full sign exponent mantissa finite least
    rw [eq]
    change totalExponent m _ ≤ _
    unfold totalExponent
    omega

/-- Where a number is packed: a normal number keeps its mantissa's place, a smaller one gets the
least exponent. -/
theorem pack_finite {e : ℤ} (positive : 0 < m) (small : e ≤ 900) :
    ∃ (exponent : BitVec 11) (mantissa : BitVec 52), exponent ≠ -1#11 ∧
      UnpackedFloat.pack Format.binary64 (.finite sign m e positive) =
        packComponents Format.binary64 sign exponent mantissa ∧
      (m.log2 = 52 → exponent.toNat = (e + 1075).toNat) ∧
      (m.log2 ≠ 52 → exponent.toNat = 0) := by
  have bias : (e + Format.binary64.exponentBias + Format.binary64.mantissaBitsWithoutImplicit).toNat =
      (e + 1075).toNat := by
    change (e + 1023 + 52).toNat = _
    congr 1
    omega
  have fits : (BitVec.ofNat 11 (e + 1075).toNat).toNat = (e + 1075).toNat := by
    rw [BitVec.toNat_ofNat]
    omega
  unfold UnpackedFloat.pack
  rw [bias, if_neg (by change ¬ 2048 ≤ _; omega)]
  by_cases full : m.log2 = 52
  · rw [if_pos (by rw [full]; rfl)]
    refine ⟨_, _, fun top => ?_, rfl, fun _ => fits, fun other => absurd full other⟩
    have := congrArg BitVec.toNat top
    rw [fits] at this
    change _ = 2047 at this
    omega
  · have short : ¬ m.log2 + 1 = Format.binary64.mantissaBits := fun digits =>
      full (Nat.succ.inj digits)
    rw [if_neg short]
    exact ⟨0#11, _, by decide, rfl, fun other => absurd other full, fun _ => rfl⟩

theorem unpack_pack_below (below : Below k x) (low : 0 ≤ k)
    (high : k ≤ 900) : Below k (pack x).unpack := by
  change Below k (UnpackedFloat.unpack Format.binary64 (UnpackedFloat.pack Format.binary64 x))
  cases x with
  | notANumber => exact below.elim
  | infinity => exact below.elim
  | zero sign =>
    refine (@unpacked_below sign 0 0 (by decide)).mono ?_
    change max (-1021) (0 - 1022) ≤ k
    omega
  | finite sign m e positive =>
    have small : totalExponent m e ≤ k := below
    obtain ⟨exponent, mantissa, finite, packed, full, rest⟩ :=
      pack_finite (e := e) positive (by have := exponent_lt small; omega)
    rw [packed]
    refine (unpacked_below finite).mono ?_
    unfold totalExponent at small
    by_cases digits : m.log2 = 52
    · have := full digits
      omega
    · have := rest digits
      omega

theorem unpack_pack_full (full : Full 1 x) (below : Below k x)
    (high : k ≤ 900) : Full 1 (pack x).unpack := by
  change Full 1 (UnpackedFloat.unpack Format.binary64 (UnpackedFloat.pack Format.binary64 x))
  cases x with
  | notANumber => exact below.elim
  | infinity => exact below.elim
  | zero sign => exact full.elim
  | finite sign m e positive =>
    have small : totalExponent m e ≤ k := below
    obtain ⟨digits, large⟩ := full
    obtain ⟨exponent, mantissa, finite, packed, normal, _⟩ :=
      pack_finite (e := e) positive (by have := exponent_lt small; omega)
    have place := normal digits
    unfold totalExponent at large
    rw [packed]
    obtain ⟨m', positive', digits', eq⟩ := @unpacked_full sign exponent mantissa finite
      (fun least => by rw [least] at place; change 0 = _ at place; omega)
    rw [eq]
    refine ⟨digits', ?_⟩
    unfold totalExponent
    omega

/-! Doubles. -/

/-- A finite double below `2 ^ k` in magnitude. -/
def Bounded (k : ℤ) (a : Float) : Prop := Below k a.toModel.unpack

namespace Bounded
variable {k : ℤ} {a b : Float}

theorem finite (bounded : Bounded k a) : a.isFinite = true := by
  change a.toModel.unpack.isFinite = true
  unfold Bounded at bounded
  cases read : a.toModel.unpack with
  | zero | finite => rfl
  | notANumber | infinity =>
    rw [read] at bounded
    exact bounded.elim

theorem number (bounded : Bounded k a) : a.isNaN = false := finite_number bounded.finite

theorem mono {l : ℤ} (bounded : Bounded k a) (le : k ≤ l) : Bounded l a := Below.mono bounded le

theorem add (first : Bounded k a) (second : Bounded k b) (low : 0 ≤ k) (high : k ≤ 800) :
    Bounded (k + 2) (a + b) :=
  unpack_pack_below (add_sub_below first second low).1 (by omega) (by omega)

theorem sub (first : Bounded k a) (second : Bounded k b) (low : 0 ≤ k) (high : k ≤ 800) :
    Bounded (k + 2) (a - b) :=
  unpack_pack_below (add_sub_below first second low).2 (by omega) (by omega)

theorem div (first : Bounded k a) (second : Full 1 b.toModel.unpack) (low : 0 ≤ k)
    (high : k ≤ 800) : Bounded (k + 1) (a / b) :=
  unpack_pack_below (div_below first second low) (by omega) (by omega)

theorem ofInt {n : ℤ} {k : ℕ} (small : n.natAbs < 2 ^ k) (high : k ≤ 800) :
    Bounded (k + 1) (.ofModel (.ofInt n)) :=
  unpack_pack_below (ofInt_below small) (by omega) (by omega)

end Bounded

/-- A positive integer is a divisor that makes nothing larger. -/
theorem full_ofInt {n : ℤ} {k : ℕ} (positive : 0 < n) (small : n.natAbs < 2 ^ k)
    (high : k ≤ 800) : Full 1 (Float.ofModel (.ofInt n)).toModel.unpack :=
  unpack_pack_full (ofInt_full positive) (ofInt_below small) (by omega)

end Library.FloatBounds
