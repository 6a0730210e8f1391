import Chuzz.Library.Base64
import Chuzz.Shims.Escaping

/-! `atob` and `btoa`, on strings of UTF-16 code units. -/
namespace Chuzz.Shims.Base64
open Library.Base64 List Option

structure DOMException where
  message : String
  name : String
deriving DecidableEq

def base64 : List UInt16 :=
  units "ABCDEFGHIJKLMNOPQRSTUVWXYZabcdefghijklmnopqrstuvwxyz0123456789+/"

def invalid : DOMException := ⟨"invalid base64", "InvalidCharacterError"⟩

/-- The digits one after the other, with the bits that no character has been made of yet. -/
def decodeFrom : List UInt16 → List UInt16 → Nat → Nat → Except DOMException (List UInt16)
  | [], out, _, _ => .ok out
  | character :: rest, out, buffer, bits =>
    match base64.idxOf? character with
    | none => .error invalid
    | some digit =>
      let buffer := (buffer <<< 6) ||| digit
      let bits := bits + 6
      if 8 ≤ bits then
        let bits := bits - 8
        decodeFrom rest (out ++ [.ofNat ((buffer >>> bits) &&& 0xff)])
          (buffer &&& ((1 <<< bits) - 1)) bits
      else decodeFrom rest out buffer bits

def atob (input : List UInt16) : Except DOMException (List UInt16) :=
  let text := (input.filter (!isSpace ·)).rdropWhile (· == padMark)
  if text.length % 4 = 1 then .error invalid else decodeFrom text [] 0 0

def charAt (value : Nat) : UInt16 := base64.getD value 0

/-- `charCodeAt` past the end is not a number, which no comparison holds of. -/
def above (code : Option UInt16) : Bool := code.any (0xff < ·.toNat)

def btoa : List UInt16 → Except DOMException (List UInt16)
  | [] => .ok []
  | first :: rest =>
    let second := rest.head?
    let third := rest.tail.head?
    if 0xff < first.toNat ∨ above second ∨ above third then
      .error ⟨"not a byte string", "InvalidCharacterError"⟩
    else
      let chunk := (first.toNat <<< 16) ||| ((second.elim 0 UInt16.toNat) <<< 8) |||
        third.elim 0 UInt16.toNat
      (btoa rest.tail.tail).map fun out =>
        charAt ((chunk >>> 18) &&& 0x3f) :: charAt ((chunk >>> 12) &&& 0x3f) ::
          (if second.isNone then padMark else charAt ((chunk >>> 6) &&& 0x3f)) ::
          (if third.isNone then padMark else charAt (chunk &&& 0x3f)) :: out
termination_by text => text.length
decreasing_by simp only [List.length_cons, List.length_tail]; omega

theorem base64_alphabet : base64 = alphabet := rfl

theorem shift_or {high low : Nat} (k : Nat) (small : low < 2 ^ k) :
    (high <<< k) ||| low = high * 2 ^ k + low := by
  rw [← Nat.shiftLeft_add_eq_or_of_lt small, Nat.shiftLeft_eq]

theorem low_bits (value k : Nat) : value &&& ((1 <<< k) - 1) = value % 2 ^ k := by
  rw [Nat.one_shiftLeft, Nat.and_two_pow_sub_one_eq_mod]

theorem low_byte (value k : Nat) : (value >>> k) &&& 0xff = value / 2 ^ k % 256 := by
  rw [Nat.shiftRight_eq_div_pow]
  exact Nat.and_two_pow_sub_one_eq_mod _ 8

theorem low_sextet (value k : Nat) : (value >>> k) &&& 0x3f = value / 2 ^ k % 64 := by
  rw [Nat.shiftRight_eq_div_pow]
  exact Nat.and_two_pow_sub_one_eq_mod _ 6

/-- The loop on digits that have been looked up. -/
def accumulate : List Nat → List UInt16 → Nat → Nat → List UInt16
  | [], out, _, _ => out
  | digit :: rest, out, buffer, bits =>
    let buffer := (buffer <<< 6) ||| digit
    if 8 ≤ bits + 6 then
      accumulate rest (out ++ [.ofNat ((buffer >>> (bits - 2)) &&& 0xff)])
        (buffer &&& ((1 <<< (bits - 2)) - 1)) (bits - 2)
    else accumulate rest out buffer (bits + 6)

theorem decodeFrom_eq (text out : List UInt16) (buffer bits : Nat) :
    decodeFrom text out buffer bits = (text.mapM alphabet.idxOf?).elim (.error invalid)
      fun digits => .ok (accumulate digits out buffer bits) := by
  induction text generalizing out buffer bits with
  | nil => rfl
  | cons character rest ih =>
    rw [decodeFrom, mapM_cons, base64_alphabet]
    cases alphabet.idxOf? character with
    | none => rfl
    | some digit =>
      have less : bits + 6 - 8 = bits - 2 := by omega
      dsimp only
      rw [ih, ih, less]
      cases rest.mapM alphabet.idxOf? with
      | none => split <;> rfl
      | some digits =>
        change _ = Except.ok (accumulate (digit :: digits) out buffer bits)
        rw [accumulate]
        split <;> rfl

section
variable {rest : List Nat} {out : List UInt16} {held digit : Nat}

theorem accumulate_first : accumulate (digit :: rest) out 0 0 = accumulate rest out digit 6 := by
  rw [accumulate, Nat.zero_shiftLeft, Nat.zero_or]
  rfl

theorem accumulate_second (left : held < 64) (small : digit < 64) :
    accumulate (digit :: rest) out held 6 =
      accumulate rest (out ++ [.ofNat (held * 4 + digit / 16)]) (digit % 16) 4 := by
  rw [accumulate, shift_or 6 small, low_byte, low_bits]
  have byte : (held * 2 ^ 6 + digit) / 2 ^ (6 - 2) % 256 = held * 4 + digit / 16 := by omega
  have kept : (held * 2 ^ 6 + digit) % 2 ^ (6 - 2) = digit % 16 := by omega
  rw [byte, kept]
  rfl

theorem accumulate_third (left : held < 16) (small : digit < 64) :
    accumulate (digit :: rest) out held 4 =
      accumulate rest (out ++ [.ofNat (held * 16 + digit / 4)]) (digit % 4) 2 := by
  rw [accumulate, shift_or 6 small, low_byte, low_bits]
  have byte : (held * 2 ^ 6 + digit) / 2 ^ (4 - 2) % 256 = held * 16 + digit / 4 := by omega
  have kept : (held * 2 ^ 6 + digit) % 2 ^ (4 - 2) = digit % 4 := by omega
  rw [byte, kept]
  rfl

theorem accumulate_fourth (left : held < 4) (small : digit < 64) :
    accumulate (digit :: rest) out held 2 =
      accumulate rest (out ++ [.ofNat (held * 64 + digit)]) 0 0 := by
  rw [accumulate, shift_or 6 small, low_byte, low_bits]
  have byte : (held * 2 ^ 6 + digit) / 2 ^ (2 - 2) % 256 = held * 64 + digit := by omega
  have kept : (held * 2 ^ 6 + digit) % 2 ^ (2 - 2) = 0 := by omega
  rw [byte, kept]
  rfl

end

theorem accumulate_octets : ∀ (digits : List Nat) (out : List UInt16),
    (∀ digit ∈ digits, digit < 64) →
      accumulate digits out 0 0 = out ++ (octets digits).map .ofNat
  | [], out, _ => (append_nil out).symm
  | [a], out, _ => by
    rw [accumulate_first]
    exact (append_nil out).symm
  | [a, b], out, small => by
    simp only [forall_mem_cons] at small
    obtain ⟨first, second, _⟩ := small
    rw [accumulate_first, accumulate_second first second]
    rfl
  | [a, b, c], out, small => by
    simp only [forall_mem_cons] at small
    obtain ⟨first, second, third, _⟩ := small
    rw [accumulate_first, accumulate_second first second, accumulate_third (by omega) third]
    exact append_assoc ..
  | a :: b :: c :: d :: rest, out, small => by
    simp only [forall_mem_cons] at small
    obtain ⟨first, second, third, fourth, later⟩ := small
    rw [accumulate_first, accumulate_second first second, accumulate_third (by omega) third,
      accumulate_fourth (by omega) fourth, accumulate_octets rest _ later, octets]
    simp only [append_assoc, map_cons, cons_append, nil_append]

theorem digits_small {text : List UInt16} {digits : List Nat}
    (found : text.mapM alphabet.idxOf? = some digits) : ∀ digit ∈ digits, digit < 64 := by
  induction text generalizing digits with
  | nil =>
    obtain rfl := Option.some.inj found
    exact fun _ => nofun
  | cons character rest ih =>
    rw [mapM_cons, bind_eq_bind, bind_eq_some_iff] at found
    obtain ⟨first, here, found⟩ := found
    obtain ⟨later, there, same⟩ := bind_eq_some_iff.mp found
    obtain rfl := Option.some.inj same
    intro digit member
    rcases mem_cons.mp member with rfl | member
    · exact (idxOf?_eq_some_iff.mp here).1
    · exact ih there digit member

/-- What `atob` makes of a text whose padding has been taken off. -/
theorem decode_unpadded (body : List UInt16) :
    (if body.length % 4 = 1 then (.error invalid : Except DOMException (List UInt16))
      else decodeFrom body [] 0 0).toOption = (unpadded body).map (·.map .ofNat) := by
  rw [unpadded, decodeFrom_eq]
  split
  · rfl
  · cases found : body.mapM alphabet.idxOf? with
    | none => rfl
    | some digits =>
      simp only [Option.elim, Except.toOption, map_some]
      rw [accumulate_octets digits [] (digits_small found), nil_append]

/-- What follows the last character of a text, where that is no padding. -/
theorem rdropWhile_replicate {body : List UInt16} (last : body.getLast? ≠ some padMark)
    (count : Nat) : (body ++ List.replicate count padMark).rdropWhile (· == padMark) = body := by
  induction count with
  | zero =>
    rw [replicate_zero, append_nil, rdropWhile_eq_self_iff]
    intro some same
    rw [beq_iff_eq] at same
    exact last (by rw [getLast?_eq_some_getLast some, same])
  | succ count ih =>
    rw [replicate_succ', ← append_assoc, rdropWhile_concat_pos _ _ _ (by rfl), ih]

/-- A text is what stands before the padding at its end, and the padding. -/
theorem exists_padded (text : List UInt16) : ∃ body count,
    text = body ++ List.replicate count padMark ∧ body.getLast? ≠ some padMark := by
  induction text using reverseRecOn with
  | nil => exact ⟨[], 0, rfl, nofun⟩
  | append_singleton text character ih =>
    by_cases same : character = padMark
    case pos =>
      obtain ⟨body, count, rfl, last⟩ := ih
      refine ⟨body, count + 1, ?_, last⟩
      rw [replicate_succ', same, append_assoc]
    case neg =>
      refine ⟨text ++ [character], 0, (append_nil _).symm, ?_⟩
      rw [getLast?_concat]
      exact fun marked => same (Option.some.inj marked)

/-- A text that the standard decodes, or whose padding is not what makes the difference. -/
def Tolerated (input : List UInt16) : Prop :=
  let data := input.filter (!isSpace ·)
  let body := data.rdropWhile (· == padMark)
  body.length = data.length ∨ (data.length % 4 = 0 ∧ data.length ≤ body.length + 2) ∨
    body.length % 4 = 1 ∨ ∃ character ∈ body, character ∉ base64

instance (input : List UInt16) : Decidable (Tolerated input) :=
  inferInstanceAs (Decidable (_ ∨ _))

theorem unpadded_marked {body : List UInt16} {count : Nat} (some : 0 < count) :
    unpadded (body ++ List.replicate count padMark) = none := by
  rw [← not_isSome_iff_eq_none, unpadded_isSome]
  rintro ⟨_, letters⟩
  refine padMark_not_mem (letters padMark (mem_append_right _ ?_))
  rw [mem_replicate]
  exact ⟨some.ne', rfl⟩

/-- `atob` is the standard's decoding exactly on these texts. -/
theorem atob_iff (input : List UInt16) :
    (atob input).toOption = (forgiving input).map (·.map .ofNat) ↔ Tolerated input := by
  obtain ⟨body, count, data, last⟩ := exists_padded (input.filter (!isSpace ·))
  simp only [atob, forgiving, Tolerated]
  rw [data, rdropWhile_replicate last, decode_unpadded, unpad_replicate last, length_append,
    length_replicate, base64_alphabet]
  have rejects : unpadded body = none ↔
      body.length % 4 = 1 ∨ ∃ character ∈ body, character ∉ alphabet := by
    rw [← not_isSome_iff_eq_none, unpadded_isSome]
    push Not
    by_cases one : body.length % 4 = 1 <;> simp [one]
  by_cases stripped : count = 0 ∨ ((body.length + count) % 4 = 0 ∧ count ≤ 2)
  case pos =>
    refine iff_of_true ?_ (by omega)
    split
    next => rw [show count - 2 = 0 by omega, replicate_zero, append_nil]
    next other => rw [show count = 0 by omega, replicate_zero, append_nil]
  case neg =>
    have refused : unpadded (if (body.length + count) % 4 = 0 then
        body ++ List.replicate (count - 2) padMark
        else body ++ List.replicate count padMark) = none := by
      split
      next => exact unpadded_marked (by omega)
      next => exact unpadded_marked (by omega)
    rw [refused, map_none, map_eq_none_iff, rejects]
    constructor
    · exact fun rejected => .inr (.inr rejected)
    · rintro (none | some | rejected)
      · omega
      · omega
      · exact rejected

theorem charAt_letter : ∀ value < 64, alphabet.idxOf? (charAt value) = some value ∧
    charAt value ≠ padMark ∧ isSpace (charAt value) = false := by decide

theorem mapM_charAt {values : List Nat} (small : ∀ value ∈ values, value < 64) :
    (values.map charAt).mapM alphabet.idxOf? = some values := by
  induction values with
  | nil => rfl
  | cons value rest ih =>
    rw [map_cons, mapM_cons, (charAt_letter value (small value (.head _))).1,
      ih fun other member => small other (.tail _ member)]
    rfl

theorem chunk_groups {a b c : Nat} (first : a < 256) (second : b < 256) (third : c < 256) :
    let chunk := (a <<< 16) ||| (b <<< 8) ||| c
    (chunk >>> 18) &&& 0x3f = a / 4 ∧ (chunk >>> 12) &&& 0x3f = a % 4 * 16 + b / 16 ∧
      (chunk >>> 6) &&& 0x3f = b % 16 * 4 + c / 64 ∧ chunk &&& 0x3f = c % 64 := by
  have chunk : (a <<< 16) ||| (b <<< 8) ||| c = a * 65536 + b * 256 + c := by
    have high : (a <<< 16) ||| (b <<< 8) = (a * 256 + b) <<< 8 := by
      rw [Nat.shiftLeft_eq b, shift_or 16 (by omega), Nat.shiftLeft_eq]
      omega
    rw [high, shift_or 8 third]
    omega
  dsimp only
  rw [low_sextet, low_sextet, low_sextet, Nat.and_two_pow_sub_one_eq_mod _ 6]
  omega

theorem elim_small (code : Option UInt16) (small : ∀ byte ∈ code, byte.toNat < 256) :
    above code = false ∧ code.elim 0 UInt16.toNat < 256 := by
  cases code with
  | none => exact ⟨rfl, by decide⟩
  | some byte =>
    have bound := small byte rfl
    exact ⟨by simp [above]; omega, bound⟩

/-- One turn of `btoa`, where no character is above a byte. -/
theorem btoa_cons {first : UInt16} {rest : List UInt16}
    (small : ∀ byte ∈ first :: rest, byte.toNat < 256) :
    let b := rest.head?.elim 0 UInt16.toNat
    let c := rest.tail.head?.elim 0 UInt16.toNat
    btoa (first :: rest) = (btoa rest.tail.tail).map fun out =>
      charAt (first.toNat / 4) :: charAt (first.toNat % 4 * 16 + b / 16) ::
        (if rest.head?.isNone then padMark else charAt (b % 16 * 4 + c / 64)) ::
        (if rest.tail.head?.isNone then padMark else charAt (c % 64)) :: out := by
  have one := small first (.head _)
  obtain ⟨low, second⟩ := elim_small rest.head? fun byte member =>
    small byte (.tail _ (mem_of_mem_head? member))
  obtain ⟨low', third⟩ := elim_small rest.tail.head? fun byte member =>
    small byte (.tail _ (mem_of_mem_tail (mem_of_mem_head? member)))
  obtain ⟨w, x, y, z⟩ := chunk_groups one second third
  rw [btoa]
  dsimp only
  rw [if_neg (by rw [low, low']; simp; omega), w, x, y, z]

/-- What `btoa` makes of bytes: their groups, and the padding. -/
theorem btoa_bytes : ∀ bytes : List UInt16, (∀ byte ∈ bytes, byte.toNat < 256) →
    btoa bytes = .ok ((sextets (bytes.map UInt16.toNat)).map charAt ++
      List.replicate (padding bytes.length) padMark)
  | [], _ => by
    rw [btoa]
    rfl
  | [_], small => by
    rw [btoa_cons small, tail_nil, tail_nil, btoa]
    rfl
  | [_, _], small => by
    rw [btoa_cons small, tail_cons, tail_nil, btoa]
    rfl
  | a :: b :: c :: rest, small => by
    have later := btoa_bytes rest fun byte member => small byte (by simp [member])
    have whole : padding (a :: b :: c :: rest).length = padding rest.length := by
      simp only [padding, length_cons]
      omega
    rw [btoa_cons small, tail_cons, tail_cons, later, whole]
    rfl

/-- What `btoa` writes, `atob` reads back. -/
theorem atob_btoa (bytes : List UInt16) (small : ∀ byte ∈ bytes, byte.toNat < 256) :
    btoa bytes >>= atob = .ok bytes := by
  have small' : ∀ value ∈ bytes.map UInt16.toNat, value < 256 := by
    intro value member
    obtain ⟨byte, there, rfl⟩ := List.mem_map.mp member
    exact small byte there
  have groups := sextets_small _ small'
  rw [btoa_bytes bytes small]
  change atob _ = _
  have text : ((sextets (bytes.map UInt16.toNat)).map charAt ++
      List.replicate (padding bytes.length) padMark).filter (!isSpace ·) =
      (sextets (bytes.map UInt16.toNat)).map charAt ++
        List.replicate (padding bytes.length) padMark := by
    rw [List.filter_eq_self]
    intro character member
    rcases List.mem_append.mp member with member | member
    · obtain ⟨value, there, rfl⟩ := List.mem_map.mp member
      rw [(charAt_letter value (groups value there)).2.2]
      rfl
    · obtain rfl := List.eq_of_mem_replicate member
      rfl
  have last : ((sextets (bytes.map UInt16.toNat)).map charAt).getLast? ≠ some padMark := by
    intro ends
    obtain ⟨value, there, same⟩ := List.mem_map.mp (List.mem_of_getLast? ends)
    exact (charAt_letter value (groups value there)).2.1 same
  rw [atob, text]
  rw [rdropWhile_replicate last, List.length_map,
    if_neg (sextets_length (bytes.map UInt16.toNat)).2, decodeFrom_eq, mapM_charAt groups]
  change Except.ok (accumulate _ [] 0 0) = _
  rw [accumulate_octets _ [] groups, octets_sextets _ small', List.nil_append, List.map_map]
  exact congrArg Except.ok (List.map_id'' (fun byte => UInt16.ofNat_toNat) bytes)

/-- `atob` undoes `btoa`, and decodes as the standard does exactly what it should tolerate. -/
theorem base64_iff (bytes input : List UInt16) :
    ((∀ byte ∈ bytes, byte.toNat < 256) → btoa bytes >>= atob = .ok bytes) ∧
    ((atob input).toOption = (forgiving input).map (·.map .ofNat) ↔ Tolerated input) :=
  ⟨atob_btoa bytes, atob_iff input⟩

theorem base64_iff_bytes :
    btoa (units "any carnal pleasure.") >>= atob = .ok (units "any carnal pleasure.") :=
  (base64_iff _ []).1 (by simp [units])

/-- One padding character after two digits. -/
theorem atob_padding : ¬ ∀ input,
    (atob input).toOption = (forgiving input).map (·.map .ofNat) := by
  intro agrees
  have here := agrees (units "YQ=")
  revert here
  decide

end Chuzz.Shims.Base64
