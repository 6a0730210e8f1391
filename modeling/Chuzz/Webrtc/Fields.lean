import Chuzz.Webrtc.Outline

/-! Fields of a line and numbers in it: what was written is read again. -/
namespace Chuzz.Webrtc
open Library List Option Bool

namespace Text

/-- A field of a line. -/
structure Word (value : Text) : Prop where
  more : value ≠ []
  black : ∀ c ∈ value, isWhitespace c = false

theorem word_splitWhitespace {value piece : Text} (member : piece ∈ value.splitWhitespace) :
    Word piece := by
  obtain ⟨split, more⟩ := mem_filter.mp member
  exact ⟨of_decide_eq_true more, not_mem_splitOnP split⟩

theorem word_ofNat (number : Nat) : Word (ofNat number) := by
  refine ⟨Nat.toDigits_ne_nil, fun c member => ?_⟩
  have digit := Nat.isDigit_of_mem_toDigits (by decide) (by decide) member
  have digits : ∀ n < 128, (Char.ofNat n).isDigit → isWhitespace (Char.ofNat n) = false := by decide
  rw [Char.isDigit, and_eq_true, decide_eq_true_eq, decide_eq_true_eq] at digit
  have small : c.toNat < 128 := lt_of_le_of_lt digit.2 (by decide)
  have here := digits c.toNat small
  rw [Char.ofNat_toNat] at here
  exact here (by rw [Char.isDigit, decide_eq_true digit.1, decide_eq_true digit.2]; rfl)

variable {word : Text}

theorem splitWhitespace_word (plain : Word word) : splitWhitespace word = [word] := by
  rw [splitWhitespace, splitOnP_eq_singleton plain.black]
  exact filter_cons_of_pos (decide_eq_true plain.more)

theorem splitWhitespace_cons (plain : Word word) (rest : Text) :
    splitWhitespace (word ++ ' ' :: rest) = word :: splitWhitespace rest := by
  rw [splitWhitespace, splitOnP_append_cons_of_forall_mem plain.black ' ' (by decide)]
  exact filter_cons_of_pos (decide_eq_true plain.more)

theorem splitWhitespace_fields {words : List Text} (plain : Word word)
    (others : ∀ other ∈ words, Word other) :
    splitWhitespace (word ++ words.flatMap (' ' :: ·)) = word :: words := by
  induction words generalizing word with
  | nil =>
    rw [flatMap_nil, append_nil, splitWhitespace_word plain]
  | cons next rest ih =>
    obtain ⟨here, later⟩ := forall_mem_cons.mp others
    rw [flatMap_cons, cons_append, splitWhitespace_cons plain, ih here later]

theorem digit_of_isDigit {c : Char} (numeral : c.isDigit) : digit 10 c = some (c.toNat - 48) := by
  rw [Char.isDigit, and_eq_true, decide_eq_true_eq, decide_eq_true_eq] at numeral
  have high : c.toNat ≤ 57 := numeral.2
  have ascii : isAsciiDigit c := by
    rw [isAsciiDigit, and_eq_true, decide_eq_true_eq, decide_eq_true_eq]
    exact numeral
  unfold digit
  rw [if_pos ascii, filter_some, if_pos (decide_eq_true (by omega))]

theorem digits_fold {digits : Text} (all : ∀ c ∈ digits, c.isDigit) (total : Nat) :
    digits.foldlM (fun total c => (digit 10 c).map (total * 10 + ·)) total =
      some (Nat.ofDigitChars 10 digits total) := by
  induction digits generalizing total with
  | nil => rw [Nat.ofDigitChars_nil]; rfl
  | cons c rest ih =>
    obtain ⟨here, later⟩ := forall_mem_cons.mp all
    rw [foldlM_cons, digit_of_isDigit here, map_some, bind_eq_bind,
      bind_some, ih later, Nat.ofDigitChars_cons, Nat.mul_comm total]
    rfl

theorem fromRadix_ofNat (number limit : Nat) :
    fromRadix 10 limit (ofNat number) = if number ≤ limit then some number else none := by
  have all : ∀ c ∈ ofNat number, c.isDigit := fun c member =>
    Nat.isDigit_of_mem_toDigits (by decide) (by decide) member
  have unsigned : ∀ rest, ofNat number ≠ '+' :: rest := by
    intro rest same
    rw [same] at all
    exact absurd (all '+' mem_cons_self) (by decide)
  have more : ofNat number ≠ [] := Nat.toDigits_ne_nil
  have value : Nat.ofDigitChars 10 (ofNat number) 0 = number :=
    Nat.ofDigitChars_toDigits (by decide) (by decide)
  unfold fromRadix
  split
  · rename_i rest same
    exact absurd same (unsigned rest)
  · rw [if_neg more, digits_fold all, value, filter_some]
    simp only [decide_eq_true_eq]

end Text

theorem payload_ofNat {number found : Nat} (read : payload (Text.ofNat number) = .ok found) :
    found = number := by
  unfold payload at read
  rw [Text.fromRadix_ofNat] at read
  split at read
  · rename_i kept
    cases read
    obtain ⟨inside, _⟩ := filter_eq_some_iff.mp kept
    split_ifs at inside
    exact (Option.some.inj inside).symm
  · cases read

theorem payloads_ofNat {numbers found : List Nat}
    (read : (numbers.map Text.ofNat).mapM payload = .ok found) : found = numbers := by
  induction numbers generalizing found with
  | nil =>
    cases read
    rfl
  | cons number rest ih =>
    rw [map_cons, mapM_cons] at read
    obtain ⟨first, here, read⟩ := Fallible.bind_ok read
    obtain ⟨later, there, read⟩ := Fallible.bind_ok read
    cases read
    rw [payload_ofNat here, ih there]

namespace Text

theorem black_of_digit {radix value : Nat} {c : Char} (read : digit radix c = some value) :
    isWhitespace c = false := by
  have bounds : 48 ≤ c.toNat ∧ c.toNat ≤ 122 := by
    unfold digit at read
    obtain ⟨inside, _⟩ := filter_eq_some_iff.mp read
    split_ifs at inside with numeral lower upper
    · rw [isAsciiDigit, and_eq_true, decide_eq_true_eq, decide_eq_true_eq] at numeral
      exact ⟨numeral.1, le_trans numeral.2 (by decide)⟩
    · rw [and_eq_true, decide_eq_true_eq, decide_eq_true_eq] at lower
      exact ⟨le_trans (by decide) lower.1, lower.2⟩
    · rw [and_eq_true, decide_eq_true_eq, decide_eq_true_eq] at upper
      exact ⟨le_trans (by decide) upper.1, le_trans upper.2 (by decide)⟩
  unfold isWhitespace
  simp only [or_eq_false_iff, and_eq_false_iff, decide_eq_false_iff_not]
  omega

theorem black_of_fold {radix : Nat} {digits : Text} {total value : Nat}
    (read : digits.foldlM (fun total c => (digit radix c).map (total * radix + ·)) total =
      some value) : ∀ c ∈ digits, isWhitespace c = false := by
  induction digits generalizing total with
  | nil => exact fun _ member => absurd member not_mem_nil
  | cons c rest ih =>
    obtain ⟨next, here, later⟩ := bind_eq_some_iff.mp read
    obtain ⟨_, found, _⟩ := map_eq_some_iff.mp here
    exact forall_mem_cons.mpr ⟨black_of_digit found, ih later⟩

theorem word_of_fromRadix {radix limit number : Nat} {value : Text}
    (read : value.fromRadix radix limit = some number) : Word value := by
  unfold fromRadix at read
  dsimp only at read
  split at read
  · rename_i rest
    split_ifs at read
    obtain ⟨folded, _⟩ := filter_eq_some_iff.mp read
    exact ⟨cons_ne_nil _ _, forall_mem_cons.mpr ⟨by decide, black_of_fold folded⟩⟩
  · split_ifs at read with none
    obtain ⟨folded, _⟩ := filter_eq_some_iff.mp read
    exact ⟨none, black_of_fold folded⟩

end Text

theorem word_of_payload {value : Text} {number : Nat} (read : payload value = .ok number) :
    value.Word := by
  unfold payload at read
  split at read
  · rename_i kept
    exact Text.word_of_fromRadix (filter_eq_some_iff.mp kept).1
  · cases read

theorem splitOnce_some {separator : Char} {value before after : Text}
    (split : Text.splitOnce separator value = some (before, after)) :
    value = before ++ separator :: after := by
  induction value generalizing before with
  | nil => cases split
  | cons c rest ih =>
    unfold Text.splitOnce at split
    split_ifs at split with here
    · cases split
      rw [here]
      rfl
    · obtain ⟨⟨first, last⟩, later, same⟩ := map_eq_some_iff.mp split
      cases same
      rw [ih later]
      rfl

end Chuzz.Webrtc
