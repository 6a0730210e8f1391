import Chuzz.Library.Ascii
import Chuzz.Languages.Tags

/-! Upper and lower case of ASCII letters. Neither changes the kind of a subtag. -/
namespace Chuzz.Languages
open Library.Ascii List
open Webrtc (Text text)
open Webrtc.Text (isAsciiDigit isAsciiAlphanumeric toAsciiLowercase eqIgnoreAsciiCase)

def lowerChar (c : Char) : Char :=
  if 'A' ≤ c && c ≤ 'Z' then Char.ofNat (c.toNat + 32) else c

/-- What holds of the ASCII characters, and of those that have no case. -/
theorem char_cases {P : Char → Prop} (ascii : ∀ n < 128, P (Char.ofNat n))
    (other : ∀ c, 128 ≤ c.toNat → lowerChar c = c → upperChar c = c → P c) (c : Char) : P c := by
  rcases Nat.lt_or_ge c.toNat 128 with small | large
  · exact ascii_cases ascii small
  · have upper : ('Z' : Char).val.toNat = 90 := rfl
    have lower : ('z' : Char).val.toNat = 122 := rfl
    change 128 ≤ c.val.toNat at large
    refine other c large (if_neg ?_) (if_neg ?_)
    · simp only [Bool.and_eq_true, decide_eq_true_eq, Char.le_def, UInt32.le_iff_toNat_le]
      omega
    · simp only [Bool.and_eq_true, decide_eq_true_eq, Char.le_def, UInt32.le_iff_toNat_le]
      omega

/-- Of a character, the cases agree on this. -/
structure Cases (c : Char) : Prop where
  lower_ascii : isAscii (lowerChar c) = isAscii c
  lower_letter : isAsciiAlphabetic (lowerChar c) = isAsciiAlphabetic c
  upper_letter : isAsciiAlphabetic (upperChar c) = isAsciiAlphabetic c
  lower_digit : isAsciiDigit (lowerChar c) = isAsciiDigit c
  lower_alphanumeric : isAsciiAlphanumeric (lowerChar c) = isAsciiAlphanumeric c
  lower_lower : lowerChar (lowerChar c) = lowerChar c
  lower_upper : lowerChar (upperChar c) = lowerChar c
  upper_upper : upperChar (upperChar c) = upperChar c
  lower_x : lowerChar c = 'x' ↔ c = 'x' ∨ c = 'X'
  lower_hyphen : lowerChar c = '-' ↔ c = '-'
  upper_hyphen : upperChar c = '-' ↔ c = '-'

instance (c : Char) : Decidable (Cases c) :=
  decidable_of_iff
    (isAscii (lowerChar c) = isAscii c ∧ isAsciiAlphabetic (lowerChar c) = isAsciiAlphabetic c ∧
      isAsciiAlphabetic (upperChar c) = isAsciiAlphabetic c ∧
      isAsciiDigit (lowerChar c) = isAsciiDigit c ∧
      isAsciiAlphanumeric (lowerChar c) = isAsciiAlphanumeric c ∧
      lowerChar (lowerChar c) = lowerChar c ∧ lowerChar (upperChar c) = lowerChar c ∧
      upperChar (upperChar c) = upperChar c ∧ (lowerChar c = 'x' ↔ c = 'x' ∨ c = 'X') ∧
      (lowerChar c = '-' ↔ c = '-') ∧ (upperChar c = '-' ↔ c = '-'))
    ⟨fun ⟨a, b, c, d, e, f, g, h, i, j, k⟩ => ⟨a, b, c, d, e, f, g, h, i, j, k⟩,
      fun ⟨a, b, c, d, e, f, g, h, i, j, k⟩ => ⟨a, b, c, d, e, f, g, h, i, j, k⟩⟩

theorem cases_agree : ∀ c, Cases c := by
  refine char_cases (by decide +kernel) fun c large lower upper => ?_
  have none (d : Char) (small : d.toNat < 128) : c ≠ d := by
    rintro rfl
    exact absurd large (Nat.not_le.mpr small)
  have x := none 'x' (by decide)
  have big := none 'X' (by decide)
  constructor <;> simp [lower, upper, x, big]

/-! Subtags. -/

section
variable (part : Text)
include part

theorem lowercase_eq : toAsciiLowercase part = part.map lowerChar := rfl

theorem lowercase_lowercase : toAsciiLowercase (toAsciiLowercase part) = toAsciiLowercase part := by
  rw [lowercase_eq, lowercase_eq, map_map]
  exact map_congr_left fun c _ => (cases_agree c).lower_lower

theorem lowercase_uppercase : toAsciiLowercase (toAsciiUppercase part) = toAsciiLowercase part := by
  rw [lowercase_eq, lowercase_eq, toAsciiUppercase, map_map]
  exact map_congr_left fun c _ => (cases_agree c).lower_upper

theorem lowercase_title : toAsciiLowercase (titleCase part) = toAsciiLowercase part := by
  cases part with
  | nil => rfl
  | cons c part =>
    change lowerChar (upperChar c) :: toAsciiLowercase (toAsciiLowercase part) = _
    rw [(cases_agree c).lower_upper, lowercase_lowercase]
    rfl

theorem lowercase_region : toAsciiLowercase (canonicalRegion part) = toAsciiLowercase part := by
  unfold canonicalRegion
  split
  · exact lowercase_uppercase part
  · rfl

theorem title_title : titleCase (titleCase part) = titleCase part := by
  cases part with
  | nil => rfl
  | cons c part =>
    change upperChar (upperChar c) :: toAsciiLowercase (toAsciiLowercase part) = _
    rw [(cases_agree c).upper_upper, lowercase_lowercase]
    rfl

theorem region_region : canonicalRegion (canonicalRegion part) = canonicalRegion part := by
  unfold canonicalRegion
  split
  · rename_i short
    have same : (toAsciiUppercase part).length = 2 := (length_map _).trans short
    rw [if_pos same, toAsciiUppercase, toAsciiUppercase, map_map]
    exact map_congr_left fun c _ => (cases_agree c).upper_upper
  · rfl

end

section Kinds
variable {part : Text} {least most : Nat}

theorem Letters.lowercase (letters : Letters least most part) :
    Letters least most (toAsciiLowercase part) := by
  refine ⟨letters.1.trans_eq (length_map _).symm, (length_map _).trans_le letters.2.1,
    fun c member => ?_⟩
  obtain ⟨d, inside, rfl⟩ := mem_map.mp member
  exact (cases_agree d).lower_letter.trans (letters.2.2 d inside)

theorem Letters.uppercase (letters : Letters least most part) :
    Letters least most (toAsciiUppercase part) := by
  refine ⟨letters.1.trans_eq (length_map _).symm, (length_map _).trans_le letters.2.1,
    fun c member => ?_⟩
  obtain ⟨d, inside, rfl⟩ := mem_map.mp member
  exact (cases_agree d).upper_letter.trans (letters.2.2 d inside)

theorem Letters.title (letters : Letters least most part) :
    Letters least most (titleCase part) := by
  cases part with
  | nil => exact letters
  | cons c part =>
    obtain ⟨first, rest⟩ := forall_mem_cons.mp letters.2.2
    have lowered : ∀ d ∈ toAsciiLowercase part, isAsciiAlphabetic d = true := by
      intro d member
      obtain ⟨e, inside, rfl⟩ := mem_map.mp member
      exact (cases_agree e).lower_letter.trans (rest e inside)
    have length : (titleCase (c :: part)).length = (c :: part).length :=
      congrArg Nat.succ (length_map _)
    exact ⟨letters.1.trans_eq length.symm, length.trans_le letters.2.1,
      forall_mem_cons.mpr ⟨(cases_agree c).upper_letter.trans first, lowered⟩⟩

theorem Alphanumerics.lowercase (alphanumerics : Alphanumerics least most part) :
    Alphanumerics least most (toAsciiLowercase part) := by
  refine ⟨alphanumerics.1.trans_eq (length_map _).symm,
    (length_map _).trans_le alphanumerics.2.1, fun c member => ?_⟩
  obtain ⟨d, inside, rfl⟩ := mem_map.mp member
  exact (cases_agree d).lower_alphanumeric.trans (alphanumerics.2.2 d inside)

theorem Region.canonical (region : Region part) : Region (canonicalRegion part) := by
  unfold canonicalRegion
  split
  · rcases region with letters | ⟨long, _⟩
    · exact .inl letters.uppercase
    · omega
  · exact region

theorem Variant.lowercase (variant : Variant part) : Variant (toAsciiLowercase part) := by
  rcases variant with long | ⟨digit, rest, rfl, first, others⟩
  · exact .inl long.lowercase
  · exact .inr ⟨lowerChar digit, toAsciiLowercase rest, rfl,
      (cases_agree digit).lower_digit.trans first, others.lowercase⟩

theorem Singleton.lowercase (singleton : Singleton part) : Singleton (toAsciiLowercase part) := by
  obtain ⟨c, rfl, alphanumeric, small, big⟩ := singleton
  refine ⟨lowerChar c, rfl, (cases_agree c).lower_alphanumeric.trans alphanumeric, fun x => ?_,
    fun x => ?_⟩
  · exact ((cases_agree c).lower_x.mp x).elim small big
  · have again := (cases_agree c).lower_lower
    rw [x] at again
    cases again

theorem Extension.lowercase {extension : Text × List Text} (valid : Extension extension) :
    Extension (toAsciiLowercase extension.1, extension.2.map toAsciiLowercase) := by
  refine ⟨valid.singleton.lowercase, fun none => valid.some (map_eq_nil_iff.mp none),
    fun part member => ?_⟩
  obtain ⟨other, inside, rfl⟩ := mem_map.mp member
  exact (valid.body other inside).lowercase

theorem PrivateParts.lowercase {parts : List Text} (valid : PrivateParts parts) :
    PrivateParts (parts.map toAsciiLowercase) := by
  refine ⟨.inl ?_, ?_, fun part member => ?_⟩
  · rw [head?_map]
    rcases valid.first with x | x
    · rw [x]
      rfl
    · rw [x]
      rfl
  · rw [← map_tail]
    exact fun none => valid.some (map_eq_nil_iff.mp none)
  · rw [← map_tail] at member
    obtain ⟨other, inside, rfl⟩ := mem_map.mp member
    exact (valid.body other inside).lowercase

theorem lowercase_x : eqIgnoreAsciiCase part (text "x") = true ↔ part = ['x'] ∨ part = ['X'] := by
  unfold eqIgnoreAsciiCase
  rw [decide_eq_true_eq]
  change part.map lowerChar = ['x'] ↔ _
  match part with
  | [] => simp
  | [c] => simp [(cases_agree c).lower_x]
  | _ :: _ :: _ => simp

end Kinds

end Chuzz.Languages
