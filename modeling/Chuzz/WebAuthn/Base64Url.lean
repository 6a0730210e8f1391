import Chuzz.Shims.Base64

/-! The base64url text of credentials, on strings of UTF-16 code units. -/
namespace Chuzz.WebAuthn.Base64Url
open List
open Library.Base64 (sextets octets Whole octets_sextets sextets_octets sextets_small octets_small
  sextets_length)
open Shims (units)
open Shims.Base64 (DOMException shift_or low_byte low_bits chunk_groups accumulate accumulate_octets)

def alphabet : List UInt16 :=
  units "ABCDEFGHIJKLMNOPQRSTUVWXYZabcdefghijklmnopqrstuvwxyz0123456789-_"

def letter (value : Nat) : UInt16 := alphabet.getD value 0

def encodeBytes : List UInt8 → List UInt16
  | [] => []
  | first :: rest =>
    let count := min 3 (rest.length + 1)
    let word := (first.toNat <<< 16) ||| (rest.head?.elim 0 UInt8.toNat <<< 8) |||
      rest.tail.head?.elim 0 UInt8.toNat
    letter ((word >>> 18) &&& 63) :: letter ((word >>> 12) &&& 63) ::
      ((if 1 < count then [letter ((word >>> 6) &&& 63)] else []) ++
        (if 2 < count then [letter (word &&& 63)] else []) ++ encodeBytes rest.tail.tail)
termination_by bytes => bytes.length
decreasing_by simp only [List.length_cons, List.length_tail]; omega

/-- `[A-Za-z0-9_-]` -/
def permitted (character : UInt16) : Bool :=
  (65 ≤ character && character ≤ 90) || (97 ≤ character && character ≤ 122) ||
    (48 ≤ character && character ≤ 57) || character = 95 || character = 45

/-- The characters of a permitted text. The word has 32 bits, of which the upper ones are lost. -/
def decodeFrom : List UInt16 → List UInt8 → Nat → Nat → List UInt8
  | [], bytes, _, _ => bytes
  | character :: rest, bytes, word, bits =>
    let word := ((word <<< 6) % 2 ^ 32) ||| alphabet.idxOf character
    let bits := bits + 6
    if 8 ≤ bits then
      let bits := bits - 8
      decodeFrom rest (bytes ++ [.ofNat ((word >>> bits) &&& 255)]) word bits
    else decodeFrom rest bytes word bits

/-- A value that is no string is `none`. -/
def decodeBytes (value : Option (List UInt16)) (label : String) : Except DOMException (List UInt8) :=
  match value with
  | none => .error ⟨label ++ " is not base64url", "EncodingError"⟩
  | some text =>
    if !text.all permitted || text.length % 4 = 1 then
      .error ⟨label ++ " is not base64url", "EncodingError"⟩
    else
      let bytes := decodeFrom text [] 0 0
      if encodeBytes bytes ≠ text then
        .error ⟨label ++ " is not canonical base64url", "EncodingError"⟩
      else .ok bytes

/-- The unpadded encoding: a character for every six bits. -/
def encoding (bytes : List UInt8) : List UInt16 :=
  (sextets (bytes.map UInt8.toNat)).map letter

theorem encodeBytes_cons (first : UInt8) (rest : List UInt8) :
    let b := rest.head?.elim 0 UInt8.toNat
    let c := rest.tail.head?.elim 0 UInt8.toNat
    encodeBytes (first :: rest) = letter (first.toNat / 4) :: letter (first.toNat % 4 * 16 + b / 16) ::
      ((if 1 < min 3 (rest.length + 1) then [letter (b % 16 * 4 + c / 64)] else []) ++
        (if 2 < min 3 (rest.length + 1) then [letter (c % 64)] else []) ++
          encodeBytes rest.tail.tail) := by
  have small (byte : Option UInt8) : byte.elim 0 UInt8.toNat < 256 := by
    cases byte with
    | none => decide
    | some byte => exact byte.toNat_lt
  obtain ⟨w, x, y, z⟩ := chunk_groups first.toNat_lt (small rest.head?) (small rest.tail.head?)
  rw [encodeBytes]
  rw [w, x, y, z]

theorem encodeBytes_eq : ∀ bytes : List UInt8, encodeBytes bytes = encoding bytes
  | [] => by simp [encodeBytes, encoding, sextets]
  | [a] => by simp [encodeBytes_cons, encodeBytes, encoding, sextets]
  | [a, b] => by simp [encodeBytes_cons, encodeBytes, encoding, sextets]
  | a :: b :: c :: rest => by
    have later := encodeBytes_eq rest
    simp [encodeBytes_cons, encoding, sextets, later]

theorem letter_index : ∀ value < 64, alphabet.idxOf (letter value) = value ∧
    letter value ∈ alphabet := by decide

theorem index_letter : ∀ character ∈ alphabet, letter (alphabet.idxOf character) = character ∧
    alphabet.idxOf character < 64 := @of_decide_eq_true _ (decidableBAll _ _) rfl

example : encodeBytes [255, 254] = units "__4" := by decide +kernel

theorem permitted_iff {character : UInt16} : permitted character ↔ character ∈ alphabet := by
  have all : ∀ n < 128, permitted (.ofNat n) → .ofNat n ∈ alphabet := by decide +kernel
  constructor
  · intro here
    have ascii : character.toNat < 128 := by
      simp [permitted, UInt16.le_iff_toNat_le, ← UInt16.toNat_inj] at here
      omega
    exact UInt16.ofNat_toNat (x := character) ▸ all _ ascii (UInt16.ofNat_toNat ▸ here)
  · exact @of_decide_eq_true _ (decidableBAll (permitted ·) alphabet) rfl character

theorem byte_of_unit (n : Nat) : UInt8.ofNat (UInt16.ofNat n).toNat = .ofNat n := by
  rw [← UInt8.toNat_inj, UInt8.toNat_ofNat', UInt8.toNat_ofNat', UInt16.toNat_ofNat']
  omega

/-- The bits that are left over are those that a loop without upper bits keeps. -/
theorem decodeFrom_accumulate (text : List UInt16) (out : List UInt16) (word bits : Nat)
    (inside : ∀ character ∈ text, character ∈ alphabet) (few : bits < 8) :
    decodeFrom text (out.map fun unit => .ofNat unit.toNat) word bits =
      (accumulate (text.map alphabet.idxOf) out (word % 2 ^ bits) bits).map
        fun unit => .ofNat unit.toNat := by
  induction text generalizing out word bits with
  | nil => rfl
  | cons character rest ih =>
    obtain ⟨here, later⟩ := forall_mem_cons.mp inside
    have small := (index_letter character here).2
    have shifted : (word <<< 6) % 2 ^ 32 = (word % 2 ^ 26) <<< 6 := by
      omega
    rw [decodeFrom, map_cons, accumulate, shifted, shift_or 6 small, shift_or 6 small]
    generalize alphabet.idxOf character = digit at small ⊢
    by_cases enough : 8 ≤ bits + 6
    · have byte : (word % 2 ^ 26 * 2 ^ 6 + digit) / 2 ^ (bits - 2) % 256 =
          (word % 2 ^ bits * 2 ^ 6 + digit) / 2 ^ (bits - 2) % 256 := by
        interval_cases bits <;> omega
      have kept : (word % 2 ^ 26 * 2 ^ 6 + digit) % 2 ^ (bits - 2) =
          (word % 2 ^ bits * 2 ^ 6 + digit) % 2 ^ (bits - 2) := by
        interval_cases bits <;> omega
      have less : bits + 6 - 8 = bits - 2 := by omega
      have next := ih (out ++ [.ofNat ((word % 2 ^ bits * 2 ^ 6 + digit) / 2 ^ (bits - 2) % 256)])
        (word % 2 ^ 26 * 2 ^ 6 + digit) (bits - 2) later (by omega)
      rw [map_append, map_singleton, byte_of_unit, kept] at next
      simp only [enough, less, low_byte, low_bits, byte, if_true]
      exact next
    · have kept : (word % 2 ^ 26 * 2 ^ 6 + digit) % 2 ^ (bits + 6) = word % 2 ^ bits * 2 ^ 6 + digit := by
        interval_cases bits <;> omega
      rw [if_neg enough, if_neg enough, ← kept]
      exact ih out _ _ later (by omega)

theorem decodeFrom_octets {text : List UInt16} (inside : ∀ character ∈ text, character ∈ alphabet) :
    decodeFrom text [] 0 0 = (octets (text.map alphabet.idxOf)).map .ofNat := by
  have small : ∀ digit ∈ text.map alphabet.idxOf, digit < 64 :=
    forall_mem_map.mpr fun character member => (index_letter character (inside _ member)).2
  have decoded := decodeFrom_accumulate text [] 0 0 inside (by decide)
  rw [Nat.zero_mod, accumulate_octets _ [] small, nil_append, map_map] at decoded
  exact decoded.trans (map_congr_left fun byte _ => byte_of_unit byte)

section
variable (bytes : List UInt8)

theorem bytes_small : ∀ value ∈ bytes.map UInt8.toNat, value < 256 :=
  forall_mem_map.mpr fun byte _ => byte.toNat_lt

theorem encoding_inside : ∀ character ∈ encoding bytes, character ∈ alphabet :=
  forall_mem_map.mpr fun value member =>
    (letter_index value (sextets_small _ (bytes_small bytes) value member)).2

theorem encoding_values :
    (encoding bytes).map alphabet.idxOf = sextets (bytes.map UInt8.toNat) := by
  rw [encoding, map_map]
  exact (map_congr_left fun value member => (letter_index value
    (sextets_small _ (bytes_small bytes) value member)).1).trans (map_id _)

end

theorem decodeBytes_ok {text : List UInt16} {label : String} {bytes : List UInt8} :
    decodeBytes (some text) label = .ok bytes ↔ text = encoding bytes := by
  constructor
  · intro decoded
    dsimp only [decodeBytes] at decoded
    split at decoded
    · cases decoded
    · by_cases same : encodeBytes (decodeFrom text [] 0 0) = text
      · rw [if_neg (not_not.mpr same)] at decoded
        cases decoded
        exact same.symm.trans (encodeBytes_eq _)
      · rw [if_pos same] at decoded
        cases decoded
  · rintro rfl
    have inside := encoding_inside bytes
    have permits : (encoding bytes).all permitted :=
      all_eq_true.mpr fun character member => permitted_iff.mpr (inside character member)
    have length : (encoding bytes).length % 4 ≠ 1 := by
      rw [encoding, length_map]
      exact (sextets_length _).2
    have decoded : decodeFrom (encoding bytes) [] 0 0 = bytes := by
      rw [decodeFrom_octets inside, encoding_values, octets_sextets _ (bytes_small bytes),
        map_map]
      exact map_id'' (fun byte => UInt8.ofNat_toNat) bytes
    simp [decodeBytes, permits, length, decoded, encodeBytes_eq]

example : decodeBytes (some (units "__5")) "id" ≠ .ok [255, 254] := by decide +kernel

theorem encoding_iff {text : List UInt16} : (∃ bytes, text = encoding bytes) ↔
    (∀ character ∈ text, character ∈ alphabet) ∧ Whole (text.map alphabet.idxOf) := by
  constructor
  · rintro ⟨bytes, rfl⟩
    have small := sextets_small _ (bytes_small bytes)
    refine ⟨encoding_inside bytes, ?_⟩
    rw [encoding_values, ← sextets_octets _ small, octets_sextets _ (bytes_small bytes)]
  · rintro ⟨inside, whole⟩
    have small : ∀ value ∈ text.map alphabet.idxOf, value < 64 :=
      forall_mem_map.mpr fun character member => (index_letter character (inside _ member)).2
    have bytes : ((octets (text.map alphabet.idxOf)).map UInt8.ofNat).map UInt8.toNat =
        octets (text.map alphabet.idxOf) := by
      rw [map_map]
      exact (map_congr_left fun byte member =>
        UInt8.toNat_ofNat_of_lt' (octets_small _ small byte member)).trans (map_id _)
    refine ⟨(octets (text.map alphabet.idxOf)).map .ofNat, ?_⟩
    rw [encoding, bytes, (sextets_octets _ small).mpr whole, map_map]
    exact ((map_congr_left fun character member =>
      (index_letter character (inside character member)).1).trans (map_id _)).symm

/-- The texts that are accepted are those that some bytes are encoded as, and no two of them name
the same bytes. -/
theorem base64url :
    (∀ bytes label, decodeBytes (some (encodeBytes bytes)) label = .ok bytes) ∧
    (∀ text label, (∃ bytes, decodeBytes (some text) label = .ok bytes) ↔
      ∃ bytes, text = encoding bytes) ∧
    (∀ text, (∃ bytes, text = encoding bytes) ↔
      (∀ character ∈ text, character ∈ alphabet) ∧ Whole (text.map alphabet.idxOf)) ∧
    ∀ text label bytes, decodeBytes (some text) label = .ok bytes → encodeBytes bytes = text :=
  ⟨fun bytes _ => decodeBytes_ok.mpr (encodeBytes_eq bytes),
    fun _ _ => exists_congr fun _ => decodeBytes_ok, fun _ => encoding_iff,
    fun _ _ bytes decoded => (encodeBytes_eq bytes).trans (decodeBytes_ok.mp decoded).symm⟩

theorem base64url_three : encodeBytes [255, 254, 1] = units "__4B" :=
  base64url.2.2.2 _ "id" _ (decodeBytes_ok.mpr (by decide))

end Chuzz.WebAuthn.Base64Url
