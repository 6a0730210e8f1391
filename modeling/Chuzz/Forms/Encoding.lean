import Mathlib

/-! `TextEncoder` and `TextDecoder` as the page's shim has them, for strings without lone
surrogates, and strings that hold one byte in each character. -/
namespace Chuzz.Forms
open List

abbrev Text := List Char

def encodeChar (c : Char) : List UInt8 :=
  let code := c.toNat
  if code < 0x80 then [.ofNat code]
  else if code < 0x800 then [.ofNat (0xC0 + code / 64), .ofNat (0x80 + code % 64)]
  else if code < 0x10000 then
    [.ofNat (0xE0 + code / 4096), .ofNat (0x80 + code / 64 % 64), .ofNat (0x80 + code % 64)]
  else
    [.ofNat (0xF0 + code / 262144), .ofNat (0x80 + code / 4096 % 64),
      .ofNat (0x80 + code / 64 % 64), .ofNat (0x80 + code % 64)]

/-- `TextEncoder.encode` -/
def encode (text : Text) : List UInt8 := text.flatMap encodeChar

/-- The trailing bytes of a character, up to the first that is none. -/
def trailing : Nat → Nat → List UInt8 → Option Nat × List UInt8
  | 0, code, bytes => (some code, bytes)
  | count + 1, code, next :: bytes =>
    if next.toNat < 0x80 ∨ 0xBF < next.toNat then (none, next :: bytes)
    else trailing count (code * 64 + next.toNat % 64) bytes
  | _ + 1, _, [] => (none, [])

theorem trailing_length (count code : Nat) (bytes : List UInt8) :
    (trailing count code bytes).2.length ≤ bytes.length := by
  induction count generalizing code bytes with
  | zero => exact Nat.le_refl _
  | succ count ih =>
    cases bytes with
    | nil => exact Nat.le_refl _
    | cons next bytes =>
      rw [trailing]
      split
      · exact Nat.le_refl _
      · exact (ih _ _).trans (Nat.le_succ _)

def replacement : Char := Char.ofNat 0xFFFD

/-- How many bytes a lead announces, and the bits that it holds. -/
def lead (byte : Nat) : Option (Nat × Nat) :=
  if 0xC2 ≤ byte ∧ byte ≤ 0xDF then some (1, byte % 32)
  else if 0xE0 ≤ byte ∧ byte ≤ 0xEF then some (2, byte % 16)
  else if 0xF0 ≤ byte ∧ byte ≤ 0xF4 then some (3, byte % 8)
  else none

/-- Overlong forms and surrogates are no characters. -/
def wellFormed (count code : Nat) : Bool :=
  !(0x10FFFF < code || (0xD800 ≤ code && code ≤ 0xDFFF) || (count = 2 && code < 0x800) ||
    (count = 3 && code < 0x10000))

/-- `TextDecoder.decode` -/
def decode : List UInt8 → Text
  | [] => []
  | byte :: bytes =>
    if byte.toNat < 0x80 then Char.ofNat byte.toNat :: decode bytes
    else
      match lead byte.toNat with
      | none => replacement :: decode bytes
      | some (count, bits) =>
        (match (trailing count bits bytes).1 with
          | some code => if wellFormed count code then Char.ofNat code else replacement
          | none => replacement) :: decode (trailing count bits bytes).2
termination_by bytes => bytes.length
decreasing_by
  · simp
  · simp
  · exact Nat.lt_succ_of_le (trailing_length _ _ _)

/-- `String.fromCharCode` of every byte. -/
def binary (bytes : List UInt8) : Text := bytes.map fun byte => Char.ofNat byte.toNat

/-- `charCodeAt` of every character, in an array of bytes. -/
def charCodes (text : Text) : List UInt8 := text.map fun c => .ofNat c.toNat

theorem decode_ascii {byte : UInt8} (ascii : byte.toNat < 0x80) (bytes : List UInt8) :
    decode (byte :: bytes) = Char.ofNat byte.toNat :: decode bytes := by
  rw [decode, if_pos ascii]

theorem decode_lead {byte : UInt8} {count bits code : Nat} {bytes rest : List UInt8}
    (above : ¬ byte.toNat < 0x80) (leads : lead byte.toNat = some (count, bits))
    (follows : trailing count bits bytes = (some code, rest))
    (formed : wellFormed count code = true) :
    decode (byte :: bytes) = Char.ofNat code :: decode rest := by
  rw [decode, if_neg above, leads]
  simp only [follows, if_pos formed]

theorem trailing_next {count code : Nat} {next : UInt8} {bytes : List UInt8}
    (inside : 0x80 ≤ next.toNat ∧ next.toNat ≤ 0xBF) :
    trailing (count + 1) code (next :: bytes) =
      trailing count (code * 64 + next.toNat % 64) bytes := by
  rw [trailing, if_neg (by omega)]

theorem toNat_ofNat {code : Nat} (small : code < 256) : (UInt8.ofNat code).toNat = code := by
  simp only [UInt8.toNat_ofNat']
  omega

theorem valid (c : Char) : c.toNat < 0xD800 ∨ 0xDFFF < c.toNat ∧ c.toNat ≤ 0x10FFFF := by
  have valid : c.toNat.isValidChar := c.valid
  rcases valid with below | above
  · exact .inl below
  · exact .inr ⟨above.1, by omega⟩

theorem decode_encodeChar (c : Char) (bytes : List UInt8) :
    decode (encodeChar c ++ bytes) = c :: decode bytes := by
  have valid := valid c
  have back := Char.ofNat_toNat c
  rw [encodeChar]
  split
  · rename_i one
    have byte : (UInt8.ofNat c.toNat).toNat = c.toNat := toNat_ofNat (by omega)
    rw [singleton_append, decode_ascii (by omega), byte, back]
  · split
    · have first : (UInt8.ofNat (0xC0 + c.toNat / 64)).toNat = 0xC0 + c.toNat / 64 :=
        toNat_ofNat (by omega)
      have second : (UInt8.ofNat (0x80 + c.toNat % 64)).toNat = 0x80 + c.toNat % 64 :=
        toNat_ofNat (by omega)
      have whole : (0xC0 + c.toNat / 64) % 32 * 64 + (0x80 + c.toNat % 64) % 64 = c.toNat := by
        omega
      rw [cons_append, singleton_append]
      rw [decode_lead (by omega) (by rw [lead, first, if_pos (by omega)])
        (by rw [trailing_next (by omega), trailing, second, whole]), back]
      simp [wellFormed]
      omega
    · split
      · have first : (UInt8.ofNat (0xE0 + c.toNat / 4096)).toNat = 0xE0 + c.toNat / 4096 :=
          toNat_ofNat (by omega)
        have second : (UInt8.ofNat (0x80 + c.toNat / 64 % 64)).toNat =
            0x80 + c.toNat / 64 % 64 := toNat_ofNat (by omega)
        have third : (UInt8.ofNat (0x80 + c.toNat % 64)).toNat = 0x80 + c.toNat % 64 :=
          toNat_ofNat (by omega)
        have whole : ((0xE0 + c.toNat / 4096) % 16 * 64 + (0x80 + c.toNat / 64 % 64) % 64) * 64 +
            (0x80 + c.toNat % 64) % 64 = c.toNat := by omega
        rw [cons_append, cons_append, singleton_append]
        rw [decode_lead (by omega)
          (by rw [lead, first, if_neg (by omega), if_pos (by omega)])
          (by rw [trailing_next (by omega), trailing_next (by omega), trailing, second, third,
            whole]), back]
        simp [wellFormed]
        omega
      · have first : (UInt8.ofNat (0xF0 + c.toNat / 262144)).toNat = 0xF0 + c.toNat / 262144 :=
          toNat_ofNat (by omega)
        have second : (UInt8.ofNat (0x80 + c.toNat / 4096 % 64)).toNat =
            0x80 + c.toNat / 4096 % 64 := toNat_ofNat (by omega)
        have third : (UInt8.ofNat (0x80 + c.toNat / 64 % 64)).toNat =
            0x80 + c.toNat / 64 % 64 := toNat_ofNat (by omega)
        have fourth : (UInt8.ofNat (0x80 + c.toNat % 64)).toNat = 0x80 + c.toNat % 64 :=
          toNat_ofNat (by omega)
        have whole : (((0xF0 + c.toNat / 262144) % 8 * 64 + (0x80 + c.toNat / 4096 % 64) % 64) * 64 +
            (0x80 + c.toNat / 64 % 64) % 64) * 64 + (0x80 + c.toNat % 64) % 64 = c.toNat := by
          omega
        rw [cons_append, cons_append, cons_append, singleton_append]
        rw [decode_lead (by omega)
          (by rw [lead, first, if_neg (by omega), if_neg (by omega), if_pos (by omega)])
          (by rw [trailing_next (by omega), trailing_next (by omega), trailing_next (by omega),
            trailing, second, third, fourth, whole]), back]
        simp [wellFormed]
        omega

theorem decode_encode (text : Text) : decode (encode text) = text := by
  induction text with
  | nil => simp [encode, decode]
  | cons c rest ih =>
    rw [encode, flatMap_cons, decode_encodeChar, ← encode, ih]

theorem ofNat_code {code : Nat} (small : code < 0xD800) : (Char.ofNat code).toNat = code := by
  have valid : code.isValidChar := .inl small
  rw [Char.ofNat, dif_pos valid]
  rfl

theorem charCodes_binary (bytes : List UInt8) : charCodes (binary bytes) = bytes := by
  rw [charCodes, binary, map_map]
  conv_rhs => rw [← map_id bytes]
  apply map_congr_left
  intro byte _
  have small : byte.toNat < 256 := byte.toNat_lt
  have code : (Char.ofNat byte.toNat).toNat = byte.toNat := ofNat_code (by omega)
  simp [code]

end Chuzz.Forms
