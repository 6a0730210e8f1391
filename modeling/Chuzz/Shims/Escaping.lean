import Mathlib

/-! `escape` and `unescape`, on strings of UTF-16 code units. -/
namespace Chuzz.Shims
open List

/-- The code units of an ASCII text. -/
def units (text : String) : List UInt16 := text.toList.map fun character => .ofNat character.toNat

namespace Escaping

/-- The unreserved set Annex B names. -/
def keep : List UInt16 :=
  units "ABCDEFGHIJKLMNOPQRSTUVWXYZabcdefghijklmnopqrstuvwxyz0123456789@*_+-./"

def percent : UInt16 := 37

def wideMark : UInt16 := 117

/-- An upper-case hexadecimal digit. -/
def digit (value : Nat) : UInt16 := .ofNat (if value < 10 then 48 + value else 55 + value)

def toString16 (code : Nat) : List UInt16 :=
  if code < 16 then [digit code] else toString16 (code / 16) ++ [digit (code % 16)]

def padded (hex : List UInt16) : List UInt16 := List.replicate (4 - hex.length) (digit 0) ++ hex

def escapeUnit (character : UInt16) : List UInt16 :=
  if character ∈ keep then [character]
  else
    let code := character.toNat
    if code < 256 then percent :: ((if code < 16 then [digit 0] else []) ++ toString16 code)
    else percent :: wideMark :: padded (toString16 code)

def escape (text : List UInt16) : List UInt16 := text.flatMap escapeUnit

def isHex (character : UInt16) : Bool :=
  let code := character.toNat
  48 ≤ code && code ≤ 57 || 65 ≤ code && code ≤ 70 || 97 ≤ code && code ≤ 102

def hexValue (character : UInt16) : Nat :=
  let code := character.toNat
  if code ≤ 57 then code - 48 else if code ≤ 70 then code - 55 else code - 87

def parseInt16 (digits : List UInt16) : Nat :=
  digits.foldl (fun value digit => value * 16 + hexValue digit) 0

/-- So many hexadecimal digits and nothing else. -/
def hexOf (length : Nat) (text : List UInt16) : Bool := text.length == length && text.all isHex

def unescape : List UInt16 → List UInt16
  | [] => []
  | character :: rest =>
    let wide := (rest.drop 1).take 4
    let narrow := rest.take 2
    if character = percent ∧ rest.head? = some wideMark ∧ hexOf 4 wide then
      .ofNat (parseInt16 wide) :: unescape (rest.drop 5)
    else if character = percent ∧ hexOf 2 narrow then
      .ofNat (parseInt16 narrow) :: unescape (rest.drop 2)
    else character :: unescape rest
termination_by text => text.length
decreasing_by all_goals simp only [List.length_cons, List.length_drop]; omega

/-- Where a percent sign is followed so, it begins a valid sequence. -/
def Begins (rest : List UInt16) : Prop :=
  (∃ digits tail, rest = wideMark :: (digits ++ tail) ∧ hexOf 4 digits) ∨
    ∃ digits tail, rest = digits ++ tail ∧ hexOf 2 digits

variable {digits rest : List UInt16}

theorem hexOf_length {length : Nat} (hex : hexOf length digits) : digits.length = length := by
  simp only [hexOf, Bool.and_eq_true, beq_iff_eq] at hex
  exact hex.1

theorem hexOf_digit {length : Nat} (hex : hexOf length digits) {character : UInt16}
    (member : character ∈ digits) : isHex character = true := by
  simp only [hexOf, Bool.and_eq_true, all_eq_true] at hex
  exact hex.2 character member

theorem unescape_wide (hex : hexOf 4 digits) :
    unescape (percent :: wideMark :: (digits ++ rest)) =
      .ofNat (parseInt16 digits) :: unescape rest := by
  have taken : (digits ++ rest).take 4 = digits := take_left' (hexOf_length hex)
  have dropped : (digits ++ rest).drop 4 = rest := drop_left' (hexOf_length hex)
  rw [unescape]
  simp only [drop_succ_cons, drop_zero, taken, dropped, head?_cons]
  rw [if_pos ⟨trivial, trivial, hex⟩]

theorem unescape_narrow (hex : hexOf 2 digits) :
    unescape (percent :: (digits ++ rest)) = .ofNat (parseInt16 digits) :: unescape rest := by
  have taken : (digits ++ rest).take 2 = digits := take_left' (hexOf_length hex)
  have dropped : (digits ++ rest).drop 2 = rest := drop_left' (hexOf_length hex)
  have length := hexOf_length hex
  rw [unescape]
  simp only [taken, dropped]
  rw [if_neg, if_pos ⟨trivial, hex⟩]
  rintro ⟨_, marked, _⟩
  cases digits with
  | nil => cases length
  | cons first later =>
    obtain rfl := Option.some.inj marked
    exact absurd (hexOf_digit hex (.head _)) (by decide)

theorem unescape_other {character : UInt16} (other : ¬ (character = percent ∧ Begins rest)) :
    unescape (character :: rest) = character :: unescape rest := by
  rw [unescape, if_neg, if_neg]
  · rintro ⟨same, hex⟩
    exact other ⟨same, .inr ⟨_, _, (take_append_drop 2 rest).symm, hex⟩⟩
  · rintro ⟨same, marked, hex⟩
    obtain ⟨tail, rfl⟩ := head?_eq_some_iff.mp marked
    exact other ⟨same, .inl ⟨_, _, congrArg _ (take_append_drop 4 tail).symm, hex⟩⟩

theorem digit_hex : ∀ value < 16, isHex (digit value) = true ∧ hexValue (digit value) = value := by
  decide

theorem keep_literal : percent ∉ keep := by decide

theorem narrow_digits {code : Nat} (small : code < 256) :
    (if code < 16 then [digit 0] else []) ++ toString16 code =
      [digit (code / 16), digit (code % 16)] := by
  rw [toString16]
  split
  next single => rw [Nat.div_eq_of_lt single, Nat.mod_eq_of_lt single, singleton_append]
  next => rw [toString16, if_pos (by omega), nil_append, singleton_append]

theorem wide_digits {code : Nat} (large : 256 ≤ code) (small : code < 65536) :
    padded (toString16 code) = [digit (code / 4096), digit (code / 256 % 16),
      digit (code / 16 % 16), digit (code % 16)] := by
  have halves : code / 16 / 16 = code / 256 := Nat.div_div_eq_div_mul ..
  have thirds : code / 256 / 16 = code / 4096 := Nat.div_div_eq_div_mul ..
  rw [toString16, if_neg (by omega), toString16, if_neg (by omega), halves, toString16]
  split
  next three =>
    rw [Nat.mod_eq_of_lt three, show code / 4096 = 0 by omega]
    rfl
  next => rw [thirds, toString16, if_pos (by omega)]; rfl

theorem unescape_unit (character : UInt16) :
    unescape (escapeUnit character ++ rest) = character :: unescape rest := by
  rw [escapeUnit]
  dsimp only
  have bound : character.toNat < 65536 := character.toNat_lt
  split
  next literal =>
    exact unescape_other fun same => keep_literal (same.1 ▸ literal)
  split
  next small =>
    have high := digit_hex (character.toNat / 16) (by omega)
    have low := digit_hex (character.toNat % 16) (by omega)
    rw [narrow_digits small, cons_append, unescape_narrow]
    · simp only [parseInt16, foldl_cons, foldl_nil, high.2, low.2]
      rw [show (0 * 16 + character.toNat / 16) * 16 + character.toNat % 16 = character.toNat by omega,
        UInt16.ofNat_toNat]
    · simp [hexOf, high.1, low.1]
  next large =>
    have first := digit_hex (character.toNat / 4096) (by omega)
    have second := digit_hex (character.toNat / 256 % 16) (by omega)
    have third := digit_hex (character.toNat / 16 % 16) (by omega)
    have fourth := digit_hex (character.toNat % 16) (by omega)
    rw [wide_digits (by omega) bound, cons_append, cons_append, unescape_wide]
    · simp only [parseInt16, foldl_cons, foldl_nil, first.2, second.2, third.2, fourth.2]
      rw [show (((0 * 16 + character.toNat / 4096) * 16 + character.toNat / 256 % 16) * 16 +
        character.toNat / 16 % 16) * 16 + character.toNat % 16 = character.toNat by omega,
        UInt16.ofNat_toNat]
    · simp [hexOf, first.1, second.1, third.1, fourth.1]

theorem unescape_escape (text : List UInt16) : unescape (escape text) = text := by
  induction text with
  | nil => rw [escape, flatMap_nil, unescape]
  | cons character later ih => rw [escape, flatMap_cons, unescape_unit, ← escape, ih]

theorem begins_percent {before : List UInt16} (begins : Begins (before ++ percent :: rest)) :
    Begins before := by
  have inside : ∀ (length : Nat) (first digits tail : List UInt16),
      first ++ percent :: rest = digits ++ tail → hexOf length digits →
        ∃ tail, first = digits ++ tail := by
    intro length first digits tail same hex
    rcases append_eq_append_iff.mp same with ⟨middle, longer, tail'⟩ | ⟨middle, shorter, _⟩
    · cases middle with
      | nil => exact ⟨[], by rw [longer, append_nil, append_nil]⟩
      | cons next later =>
        obtain rfl : percent = next := (List.cons.inj tail').1
        exact absurd (hexOf_digit hex (longer ▸ mem_append_right _ (.head _))) (by decide)
    · exact ⟨middle, shorter⟩
  rcases begins with ⟨digits, tail, same, hex⟩ | ⟨digits, tail, same, hex⟩
  · cases before with
    | nil => cases same
    | cons first later =>
      obtain ⟨rfl, after⟩ := List.cons.inj same
      obtain ⟨tail, rfl⟩ := inside 4 later digits tail after hex
      exact .inl ⟨digits, tail, rfl, hex⟩
  · obtain ⟨tail, rfl⟩ := inside 2 before digits tail same hex
    exact .inr ⟨digits, tail, rfl, hex⟩

theorem unescape_append (before : List UInt16) :
    unescape (before ++ percent :: rest) = unescape before ++ unescape (percent :: rest) := by
  induction length : before.length using Nat.strongRecOn generalizing before with
  | ind length ih =>
    subst length
    cases before with
    | nil => rw [unescape.eq_1, nil_append, nil_append]
    | cons character later =>
      by_cases begins : character = percent ∧ Begins later
      case neg =>
        rw [cons_append, unescape_other begins,
          unescape_other fun both => begins ⟨both.1, begins_percent both.2⟩,
          ih later.length (by simp) later rfl, cons_append]
      case pos =>
        obtain ⟨rfl, ⟨digits, tail, rfl, hex⟩ | ⟨digits, tail, rfl, hex⟩⟩ := begins
        · rw [cons_append, cons_append, append_assoc, unescape_wide hex,
            unescape_wide hex, ih tail.length (by simp <;> omega) tail rfl, cons_append]
        · have length := hexOf_length hex
          rw [cons_append, append_assoc, unescape_narrow hex, unescape_narrow hex,
            ih tail.length (by simp <;> omega) tail rfl, cons_append]

/-- What was escaped is read back, and a percent sign that begins no sequence stays. -/
theorem escaping : (∀ text, unescape (escape text) = text) ∧
    ∀ before rest, ¬ Begins rest →
      unescape (before ++ percent :: rest) = unescape before ++ percent :: unescape rest := by
  refine ⟨unescape_escape, fun before rest literal => ?_⟩
  rw [unescape_append, unescape_other fun both => literal both.2]

theorem escaping_discount :
    unescape (units "100" ++ percent :: units " off") =
      unescape (units "100") ++ percent :: unescape (units " off") := by
  apply escaping.2
  rintro (⟨digits, tail, same, _⟩ | ⟨digits, tail, same, hex⟩)
  · exact absurd (List.cons.inj same).1 (by decide)
  · cases digits with
    | nil => cases hexOf_length hex
    | cons first later =>
      obtain rfl : (32 : UInt16) = first := (List.cons.inj same).1
      exact absurd (hexOf_digit hex (.head _)) (by decide)

end Escaping
end Chuzz.Shims
