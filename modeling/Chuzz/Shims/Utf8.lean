import Chuzz.Forms.Encoding

/-! `TextEncoder` and `TextDecoder` beside the encoder of the standard and its decoder, a machine
that looks at one byte after the other. -/
namespace Chuzz.Shims.Utf8
open Forms List

def Paired (high low : UInt16) : Prop :=
  (0xd800 ≤ high.toNat ∧ high.toNat ≤ 0xdbff) ∧ 0xdc00 ≤ low.toNat ∧ low.toNat ≤ 0xdfff

instance (high low : UInt16) : Decidable (Paired high low) := inferInstanceAs (Decidable (_ ∧ _))

def paired (high low : UInt16) : Nat :=
  0x10000 + (high.toNat - 0xd800) * 0x400 + (low.toNat - 0xdc00)

/-- A surrogate that is no half of a pair cannot be represented. -/
def alone (unit : UInt16) : Nat :=
  if 0xd800 ≤ unit.toNat ∧ unit.toNat ≤ 0xdfff then 0xfffd else unit.toNat

/-- The code points that `encode` goes through. -/
def codes : List UInt16 → Text
  | [] => []
  | [unit] => [Char.ofNat (alone unit)]
  | unit :: low :: rest =>
    if Paired unit low then Char.ofNat (paired unit low) :: codes rest
    else Char.ofNat (alone unit) :: codes (low :: rest)

/-- The code units of a string, with a replacement for each lone surrogate. -/
def replaced : List UInt16 → List Nat
  | [] => []
  | [unit] => [alone unit]
  | unit :: low :: rest =>
    if Paired unit low then unit.toNat :: low.toNat :: replaced rest
    else alone unit :: replaced (low :: rest)

/-- `String.fromCharCode` for a code point. -/
def units (c : Char) : List Nat :=
  if c.toNat ≤ 0xffff then [c.toNat]
  else [0xd800 + (c.toNat - 0x10000) / 1024, 0xdc00 + (c.toNat - 0x10000) % 1024]

structure Machine where
  code : Nat := 0
  needed : Nat := 0
  lower : Nat := 0x80
  upper : Nat := 0xbf

def Machine.first (byte : Nat) : Machine × Text :=
  if byte < 0x80 then ({}, [Char.ofNat byte])
  else if 0xc2 ≤ byte ∧ byte ≤ 0xdf then ({ code := byte % 32, needed := 1 }, [])
  else if 0xe0 ≤ byte ∧ byte ≤ 0xef then
    (⟨byte % 16, 2, if byte = 0xe0 then 0xa0 else 0x80, if byte = 0xed then 0x9f else 0xbf⟩, [])
  else if 0xf0 ≤ byte ∧ byte ≤ 0xf4 then
    (⟨byte % 8, 3, if byte = 0xf0 then 0x90 else 0x80, if byte = 0xf4 then 0x8f else 0xbf⟩, [])
  else ({}, [replacement])

/-- A byte that is out of bounds is looked at again. -/
def Machine.handle (machine : Machine) (byte : Nat) : Machine × Text :=
  if machine.needed = 0 then first byte
  else if byte < machine.lower ∨ machine.upper < byte then
    ((first byte).1, replacement :: (first byte).2)
  else
    let code := machine.code * 64 + byte % 64
    if machine.needed = 1 then ({}, [Char.ofNat code]) else ({ code, needed := machine.needed - 1 }, [])

def Machine.run (machine : Machine) : List UInt8 → Text
  | [] => if machine.needed = 0 then [] else [replacement]
  | byte :: rest => (machine.handle byte.toNat).2 ++ (machine.handle byte.toNat).1.run rest

/-- What a byte string stands for; a byte-order mark in front is left out. -/
def standard (ignoreBOM : Bool) (bytes : List UInt8) : Text :=
  Machine.run {} (match ignoreBOM, bytes with
    | false, 0xef :: 0xbb :: 0xbf :: rest => rest
    | _, bytes => bytes)

/-- No byte follows that would make the sequence overlong, a surrogate or too large. -/
def Fits (first second : UInt8) : Prop :=
  ¬ ((0x80 ≤ second.toNat ∧ second.toNat ≤ 0xbf) ∧
    (first.toNat = 0xe0 ∧ second.toNat < 0xa0 ∨ first.toNat = 0xed ∧ 0x9f < second.toNat ∨
      first.toNat = 0xf0 ∧ second.toNat < 0x90 ∨ first.toNat = 0xf4 ∧ 0x8f < second.toNat))

section Following
variable {count code result : Nat} {bytes : List UInt8}

/-- The code that is read lies in the part that its first bits leave. -/
theorem trailing_bounds (read : (trailing count code bytes).1 = some result) :
    code * 64 ^ count ≤ result ∧ result < (code + 1) * 64 ^ count := by
  fun_induction trailing count code bytes with
  | case1 code bytes =>
    obtain rfl := Option.some.inj read
    omega
  | case2 | case4 => cases read
  | case3 count code next bytes inside ih =>
    obtain ⟨low, high⟩ := ih read
    have first := Nat.mul_le_mul_right (64 ^ count)
      (show code * 64 ≤ code * 64 + next.toNat % 64 by omega)
    have last := Nat.mul_le_mul_right (64 ^ count)
      (show code * 64 + next.toNat % 64 + 1 ≤ (code + 1) * 64 by omega)
    rw [Nat.pow_succ, Nat.mul_comm (64 ^ count), ← Nat.mul_assoc, ← Nat.mul_assoc]
    exact ⟨first.trans low, high.trans_le last⟩

variable {byte : UInt8}

theorem run_outside {machine : Machine} (needed : machine.needed ≠ 0)
    (outside : byte.toNat < machine.lower ∨ machine.upper < byte.toNat) (rest : List UInt8) :
    machine.run (byte :: rest) = replacement :: Machine.run {} (byte :: rest) := by
  rw [Machine.run, Machine.handle, if_neg needed, if_pos outside]
  rfl

theorem run_continuation (inside : ¬ (byte.toNat < 0x80 ∨ 0xbf < byte.toNat))
    (rest : List UInt8) : Machine.run {} (byte :: rest) = replacement :: Machine.run {} rest := by
  have wrong : Machine.first byte.toNat = ({}, [replacement]) := by
    rw [Machine.first, if_neg (by omega), if_neg (by omega), if_neg (by omega), if_neg (by omega)]
  rw [Machine.run, Machine.handle, if_pos rfl, wrong]
  rfl

theorem isChain_single (rest : List UInt8) (other : ∀ second, Fits byte second) :
    (byte :: rest).IsChain Fits ↔ rest.IsChain Fits := by
  cases rest with
  | nil => simp
  | cons second rest => rw [isChain_cons_cons, and_iff_right (other second)]

/-- The bytes that follow are errors by themselves. -/
theorem trailing_skips (count code : Nat) (bytes : List UInt8) :
    (∃ skipped, Machine.run {} bytes =
      List.replicate skipped replacement ++ Machine.run {} (trailing count code bytes).2) ∧
    (bytes.IsChain Fits ↔ (trailing count code bytes).2.IsChain Fits) := by
  fun_induction trailing count code bytes with
  | case1 | case2 | case4 => exact ⟨⟨0, rfl⟩, Iff.rfl⟩
  | case3 count code next bytes inside ih =>
    obtain ⟨⟨skipped, run⟩, chain⟩ := ih
    refine ⟨⟨skipped + 1, ?_⟩, (isChain_single bytes fun second => ?_).trans chain⟩
    · rw [run_continuation inside, run]
      rfl
    · rw [Fits]
      omega

/-- The machine behind a second byte. -/
theorem run_trailing (count code : Nat) (bytes : List UInt8) :
    Machine.run { code, needed := count + 1 } bytes =
      ((trailing (count + 1) code bytes).1.map Char.ofNat).getD replacement ::
        Machine.run {} (trailing (count + 1) code bytes).2 := by
  induction count generalizing code bytes with
  | zero =>
    cases bytes with
    | nil => rfl
    | cons next bytes =>
      rw [Machine.run, Machine.handle, if_neg (by simp), trailing]
      split
      next => rfl
      next => simp [trailing]
  | succ count ih =>
    cases bytes with
    | nil => rfl
    | cons next bytes =>
      rw [Machine.run, Machine.handle, if_neg (by simp), trailing]
      split
      next => rfl
      next =>
        exact ih _ bytes

end Following

/-- What a first byte asks of the bytes behind it. -/
structure Leads (byte : UInt8) (code count lower upper : Nat) : Prop where
  first : Machine.first byte.toNat = (⟨code, count + 1, lower, upper⟩, [])
  within : 0x80 ≤ lower ∧ upper ≤ 0xbf
  fits : ∀ second : UInt8, 0x80 ≤ second.toNat → second.toNat ≤ 0xbf →
    (Fits byte second ↔ lower ≤ second.toNat ∧ second.toNat ≤ upper)
  valid : ∀ (second : UInt8) result, 0x80 ≤ second.toNat → second.toNat ≤ 0xbf →
    (code * 64 + second.toNat % 64) * 64 ^ count ≤ result →
    result < (code * 64 + second.toNat % 64 + 1) * 64 ^ count →
    (wellFormed (count + 1) result = true ↔ Fits byte second)

theorem low_bits {second : Nat} (low : 0x80 ≤ second) (high : second ≤ 0xbf) :
    second % 64 = second - 0x80 := by omega

theorem lead_leads {byte : UInt8} {code count : Nat} (read : lead byte.toNat = some (count, code)) :
    ∃ more lower upper, count = more + 1 ∧ Leads byte code more lower upper := by
  rw [lead] at read
  split at read
  next two =>
    obtain ⟨rfl, rfl⟩ := Prod.mk.inj (Option.some.inj read)
    refine ⟨0, 0x80, 0xbf, rfl, ?_, by decide, fun second low high => ?_,
      fun second result low high => ?_⟩
    · rw [Machine.first, if_neg (by omega), if_pos two]
    · rw [Fits]
      omega
    · simp [wellFormed, Fits]
      omega
  next =>
    split at read
    next three =>
      obtain ⟨rfl, rfl⟩ := Prod.mk.inj (Option.some.inj read)
      refine ⟨1, if byte.toNat = 0xe0 then 0xa0 else 0x80, if byte.toNat = 0xed then 0x9f else 0xbf,
        rfl, ?_, ?_, fun second low high => ?_, fun second result low high => ?_⟩
      · rw [Machine.first, if_neg (by omega), if_neg (by omega), if_pos three]
      · constructor <;> split <;> decide
      · rw [Fits]
        split <;> split <;> omega
      · rw [low_bits low high]
        simp [wellFormed, Fits, low, high]
        omega
    next =>
      split at read
      next large =>
        obtain ⟨rfl, rfl⟩ := Prod.mk.inj (Option.some.inj read)
        refine ⟨2, if byte.toNat = 0xf0 then 0x90 else 0x80, if byte.toNat = 0xf4 then 0x8f else 0xbf,
          rfl, ?_, ?_, fun second low high => ?_, fun second result low high => ?_⟩
        · rw [Machine.first, if_neg (by omega), if_neg (by omega), if_neg (by omega), if_pos large]
        · constructor <;> split <;> decide
        · rw [Fits]
          split <;> split <;> omega
        · rw [low_bits low high]
          simp [wellFormed, Fits, low, high]
          omega
      next => cases read

/-- Either the machine tells the same, or the second byte does not fit and it tells more. -/
def Compared (bytes : List UInt8) (c : Char) (left : List UInt8) : Prop :=
  ((bytes.IsChain Fits ↔ left.IsChain Fits) ∧ Machine.run {} bytes = c :: Machine.run {} left) ∨
  ¬ bytes.IsChain Fits ∧ c = replacement ∧ ∃ count, Machine.run {} bytes =
    List.replicate (count + 2) replacement ++ Machine.run {} left

/-- What is told of a first byte and those behind it. -/
def told (count : Nat) : Option Nat → Char
  | some code => if wellFormed count code then Char.ofNat code else replacement
  | none => replacement

theorem lead_compared {byte : UInt8} {code count : Nat} (rest : List UInt8)
    (found : lead byte.toNat = some (count, code)) : Compared (byte :: rest)
      (told count (trailing count code rest).1) (trailing count code rest).2 := by
  obtain ⟨more, lower, upper, rfl, leads⟩ := lead_leads found
  have run : Machine.run {} (byte :: rest) = Machine.run ⟨code, more + 1, lower, upper⟩ rest := by
    rw [Machine.run, Machine.handle, if_pos rfl, leads.first]
    rfl
  rw [Compared, run]
  cases rest with
  | nil => exact .inl ⟨by simp [trailing], rfl⟩
  | cons second rest =>
    have chain := (trailing_skips (more + 1) code (second :: rest)).2
    have within := leads.within
    rw [isChain_cons_cons, chain]
    by_cases outside : second.toNat < 0x80 ∨ 0xbf < second.toNat
    · have beyond : second.toNat < lower ∨ upper < second.toNat := by omega
      rw [trailing, if_pos outside, run_outside (Nat.succ_ne_zero more) beyond]
      exact .inl ⟨and_iff_right fun unfit => by omega, rfl⟩
    have low : 0x80 ≤ second.toNat := by omega
    have high : second.toNat ≤ 0xbf := by omega
    have value : ∀ result, (trailing (more + 1) code (second :: rest)).1 = some result →
        (wellFormed (more + 1) result = true ↔ Fits byte second) := by
      intro result found
      rw [trailing, if_neg outside] at found
      obtain ⟨least, most⟩ := trailing_bounds found
      exact leads.valid second result low high least most
    by_cases fits : Fits byte second
    · obtain ⟨above, below⟩ := (leads.fits second low high).mp fits
      have same : Machine.run ⟨code, more + 1, lower, upper⟩ (second :: rest) =
          Machine.run { code, needed := more + 1 } (second :: rest) := by
        have inner : ¬ (second.toNat < lower ∨ upper < second.toNat) := by omega
        simp only [Machine.run, Machine.handle, inner, outside, if_false]
      refine .inl ⟨and_iff_right fits, ?_⟩
      rw [same, run_trailing]
      cases found : (trailing (more + 1) code (second :: rest)).1 with
      | none => rfl
      | some result =>
        rw [told, if_pos ((value result found).mpr fits)]
        rfl
    · have beyond : second.toNat < lower ∨ upper < second.toNat := by
        rw [leads.fits second low high] at fits
        omega
      obtain ⟨count, skipped⟩ := (trailing_skips more (code * 64 + second.toNat % 64) rest).1
      refine .inr ⟨fun both => fits both.1, ?_, count, ?_⟩
      · cases found : (trailing (more + 1) code (second :: rest)).1 with
        | none => rfl
        | some result => rw [told, if_neg (mt (value result found).mp fits)]
      · rw [run_outside (Nat.succ_ne_zero more) beyond, run_continuation outside, trailing,
          if_neg outside, skipped]
        rfl

/-- What is decoded, beside what the machine tells. -/
structure Beside (bytes : List UInt8) (out told : Text) : Prop where
  same : bytes.IsChain Fits → out = told
  more : ¬ bytes.IsChain Fits → out.length < told.length
  marks : out.count '\uFEFF' = told.count '\uFEFF'

theorem Beside.step {bytes left : List UInt8} {out : Text} {c : Char}
    (beside : Beside left out (Machine.run {} left)) (compared : Compared bytes c left) :
    Beside bytes (c :: out) (Machine.run {} bytes) := by
  obtain ⟨chain, told⟩ | ⟨broken, rfl, count, told⟩ := compared
  · rw [told]
    refine ⟨fun fits => by rw [beside.same (chain.mp fits)], fun broken => ?_, ?_⟩
    · exact Nat.succ_lt_succ (beside.more (mt chain.mpr broken))
    · rw [count_cons, count_cons, beside.marks]
  · have length : out.length ≤ (Machine.run {} left).length := by
      by_cases fits : left.IsChain Fits
      · rw [beside.same fits]
      · exact (beside.more fits).le
    rw [told]
    refine ⟨fun fits => absurd fits broken, fun _ => ?_, ?_⟩
    · simp only [length_append, length_replicate, length_cons]
      omega
    · rw [count_append, count_cons, beside.marks, count_replicate, Nat.add_comm]
      rfl

theorem decode_beside (bytes : List UInt8) : Beside bytes (decode bytes) (Machine.run {} bytes) := by
  fun_induction decode bytes with
  | case1 => exact ⟨fun _ => rfl, fun broken => absurd .nil broken, rfl⟩
  | case2 byte rest small ih =>
    refine ih.step (.inl ⟨isChain_single rest fun second unfit => by omega, ?_⟩)
    rw [Machine.run, Machine.handle, if_pos rfl, Machine.first, if_pos small]
    rfl
  | case3 byte rest large found ih =>
    rw [lead] at found
    refine ih.step (.inl ⟨isChain_single rest fun second unfit => ?_, ?_⟩)
    · grind
    · have wrong : Machine.first byte.toNat = ({}, [replacement]) := by
        rw [Machine.first]
        grind
      rw [Machine.run, Machine.handle, if_pos rfl, wrong]
      rfl
  | case4 byte rest large count code found ih => exact ih.step (lead_compared rest found)

theorem decode_standard_iff (ignoreBOM : Bool) (bytes : List UInt8) :
    decode bytes = standard ignoreBOM bytes ↔
      bytes.IsChain Fits ∧ (ignoreBOM = true ∨ ∀ rest, bytes ≠ 0xef :: 0xbb :: 0xbf :: rest) := by
  have beside := decode_beside bytes
  have whole : decode bytes = Machine.run {} bytes ↔ bytes.IsChain Fits := by
    refine ⟨fun same => ?_, beside.same⟩
    by_contra broken
    have more := beside.more broken
    rw [same] at more
    exact lt_irrefl _ more
  unfold standard
  split
  next rest =>
    refine iff_of_false (fun same => ?_) fun both => both.2.elim nofun fun other => other rest rfl
    have marks := beside.marks
    rw [same, show Machine.run {} (0xef :: 0xbb :: 0xbf :: rest) = '\uFEFF' :: Machine.run {} rest
      from rfl, count_cons_self] at marks
    omega
  next plain =>
    rw [whole]
    refine (and_iff_left ?_).symm
    cases ignoreBOM with
    | true => exact .inl rfl
    | false => exact .inr fun rest same => plain rest rfl same

section Encoding
variable {unit high low : UInt16}

theorem alone_code (unit : UInt16) : (Char.ofNat (alone unit)).toNat = alone unit ∧
    alone unit ≤ 0xffff := by
  have small := unit.toNat_lt
  have valid : (alone unit).isValidChar ∧ alone unit ≤ 0xffff := by
    rw [alone, Nat.isValidChar]
    split <;> omega
  rw [Char.ofNat, dif_pos valid.1]
  exact ⟨rfl, valid.2⟩

theorem units_paired (pair : Paired high low) :
    units (Char.ofNat (paired high low)) = [high.toNat, low.toNat] := by
  have value : paired high low =
    0x10000 + (high.toNat - 0xd800) * 0x400 + (low.toNat - 0xdc00) := rfl
  generalize paired high low = code at value ⊢
  obtain ⟨first, second⟩ := pair
  have valid : code.isValidChar := .inr (by omega)
  have same : (Char.ofNat code).toNat = code := by
    rw [Char.ofNat, dif_pos valid]
    rfl
  rw [units, same, if_neg (by omega), show 0xd800 + (code - 0x10000) / 1024 = high.toNat by omega,
    show 0xdc00 + (code - 0x10000) % 1024 = low.toNat by omega]

theorem codes_units (text : List UInt16) : (codes text).flatMap units = replaced text := by
  have single : ∀ unit, units (Char.ofNat (alone unit)) = [alone unit] := by
    intro unit
    obtain ⟨same, small⟩ := alone_code unit
    rw [units, same, if_pos small]
  fun_induction codes text with
  | case1 => rfl
  | case2 unit => rw [flatMap_singleton, single, replaced]
  | case3 unit low rest pair ih =>
    rw [replaced, if_pos pair, flatMap_cons, ih, units_paired pair]
    rfl
  | case4 unit low rest other ih =>
    rw [replaced, if_neg other, flatMap_cons, ih, single]
    rfl

theorem encodeChar_utf8 (c : Char) : encodeChar c = String.utf8EncodeChar c := by
  have same : c.val.toNat = c.toNat := rfl
  rw [encodeChar, String.utf8EncodeChar, same]
  grind

end Encoding

/-- The encoder is that of the standard, and the decoder on these bytes and no others. -/
theorem utf8_iff (text : List UInt16) (ignoreBOM : Bool) (bytes : List UInt8) :
    (encode (codes text) = (codes text).flatMap String.utf8EncodeChar ∧
      decode (encode (codes text)) = codes text ∧ (codes text).flatMap units = replaced text) ∧
    (decode bytes = standard ignoreBOM bytes ↔
      bytes.IsChain Fits ∧ (ignoreBOM = true ∨ ∀ rest, bytes ≠ 0xef :: 0xbb :: 0xbf :: rest)) := by
  refine ⟨⟨?_, decode_encode _, codes_units text⟩, decode_standard_iff ignoreBOM bytes⟩
  rw [encode, funext encodeChar_utf8]

/-- Three bytes of which the second makes the sequence overlong. -/
theorem decode_overlong : ¬ ∀ ignoreBOM bytes, decode bytes = standard ignoreBOM bytes := by
  intro same
  have fits := ((decode_standard_iff true [0xe0, 0x80, 0x80]).mp (same _ _)).1
  rw [isChain_cons_cons] at fits
  exact fits.1 (by decide)

end Chuzz.Shims.Utf8
