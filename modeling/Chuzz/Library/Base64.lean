import Mathlib

/-! Base64: bytes as groups of six bits, and the forgiving decoding of a string of code units. -/
namespace Library.Base64
open List

/-- Three bytes are four groups of six bits. -/
def sextets : List Nat → List Nat
  | a :: b :: c :: rest =>
    a / 4 :: (a % 4 * 16 + b / 16) :: (b % 16 * 4 + c / 64) :: c % 64 :: sextets rest
  | [a, b] => [a / 4, a % 4 * 16 + b / 16, b % 16 * 4]
  | [a] => [a / 4, a % 4 * 16]
  | [] => []

/-- Four groups of six bits are three bytes. The bits of a byte that is not whole are dropped. -/
def octets : List Nat → List Nat
  | a :: b :: c :: d :: rest =>
    (a * 4 + b / 16) :: (b % 16 * 16 + c / 4) :: (c % 4 * 64 + d) :: octets rest
  | [a, b, c] => [a * 4 + b / 16, b % 16 * 16 + c / 4]
  | [a, b] => [a * 4 + b / 16]
  | _ => []

example : octets (sextets [1, 2, 3, 4]) = [1, 2, 3, 4] := by simp [sextets, octets]

theorem octets_sextets : ∀ bytes : List Nat, (∀ byte ∈ bytes, byte < 256) →
    octets (sextets bytes) = bytes
  | [], _ => rfl
  | [a], small => by
    have first := small a (by simp)
    simp only [sextets, octets, List.cons.injEq, and_true]
    omega
  | [a, b], small => by
    have first := small a (by simp)
    have second := small b (by simp)
    simp only [sextets, octets, List.cons.injEq, and_true]
    omega
  | a :: b :: c :: rest, small => by
    have first := small a (by simp)
    have second := small b (by simp)
    have third := small c (by simp)
    rw [sextets, octets, octets_sextets rest fun byte member => small byte (by simp [member])]
    simp only [List.cons.injEq, and_true]
    omega

theorem sextets_small : ∀ bytes : List Nat, (∀ byte ∈ bytes, byte < 256) →
    ∀ value ∈ sextets bytes, value < 64
  | [], _ => by simp [sextets]
  | [a], small => by
    have first := small a (by simp)
    simp only [sextets, forall_mem_cons]
    refine ⟨?_, ?_, by simp⟩ <;> omega
  | [a, b], small => by
    have first := small a (by simp)
    have second := small b (by simp)
    simp only [sextets, forall_mem_cons]
    refine ⟨?_, ?_, ?_, by simp⟩ <;> omega
  | a :: b :: c :: rest, small => by
    have first := small a (by simp)
    have second := small b (by simp)
    have third := small c (by simp)
    have later := sextets_small rest fun byte member => small byte (by simp [member])
    simp only [sextets, forall_mem_cons]
    refine ⟨?_, ?_, ?_, ?_, later⟩ <;> omega

/-- The groups are those of whole bytes, and the bits that are left over are zero. -/
def Whole (values : List Nat) : Prop :=
  values.length % 4 ≠ 1 ∧
    (values.length % 4 = 2 → ∀ last ∈ values.getLast?, last % 16 = 0) ∧
    (values.length % 4 = 3 → ∀ last ∈ values.getLast?, last % 4 = 0)

theorem sextets_octets : ∀ values : List Nat, (∀ value ∈ values, value < 64) →
    (sextets (octets values) = values ↔ Whole values)
  | [], _ => by simp [octets, sextets, Whole]
  | [_], _ => by simp [octets, sextets, Whole]
  | [a, b], small => by
    simp only [forall_mem_cons] at small
    simp [octets, sextets, Whole]
    omega
  | [a, b, c], small => by
    simp only [forall_mem_cons] at small
    simp [octets, sextets, Whole]
    omega
  | a :: b :: c :: d :: rest, small => by
    simp only [forall_mem_cons] at small
    obtain ⟨first, second, third, fourth, later⟩ := small
    have groups : sextets (octets (a :: b :: c :: d :: rest)) =
        a :: b :: c :: d :: sextets (octets rest) := by
      simp only [octets, sextets, List.cons.injEq, and_true]
      omega
    have whole : Whole (a :: b :: c :: d :: rest) ↔ Whole rest := by
      cases rest with
      | nil => simp [Whole]
      | cons e rest =>
        have length : (rest.length + 5) % 4 = (rest.length + 1) % 4 := by omega
        simp [Whole, Nat.add_assoc, length]
    rw [groups, whole, ← sextets_octets rest later]
    simp only [List.cons.injEq, true_and]

theorem octets_small : ∀ values : List Nat, (∀ value ∈ values, value < 64) →
    ∀ byte ∈ octets values, byte < 256
  | [], _ => nofun
  | [_], _ => nofun
  | [a, b], small => by
    simp only [forall_mem_cons] at small
    simp only [octets, forall_mem_singleton]
    omega
  | [a, b, c], small => by
    simp only [forall_mem_cons] at small
    simp only [octets, forall_mem_cons]
    exact ⟨by omega, by omega, nofun⟩
  | a :: b :: c :: d :: rest, small => by
    simp only [forall_mem_cons] at small
    obtain ⟨first, second, third, fourth, later⟩ := small
    simp only [octets, forall_mem_cons]
    exact ⟨by omega, by omega, by omega, octets_small rest later⟩

/-- As many padding characters as make whole groups of four. -/
def padding (length : Nat) : Nat := (3 - length % 3) % 3

theorem sextets_length : ∀ bytes : List Nat,
    ((sextets bytes).length + padding bytes.length) % 4 = 0 ∧ (sextets bytes).length % 4 ≠ 1
  | [] => by decide
  | [_] => by simp [sextets, padding]
  | [_, _] => by simp [sextets, padding]
  | _ :: _ :: _ :: rest => by
    have later := sextets_length rest
    simp only [sextets, padding, length_cons] at later ⊢
    omega

/-- The characters of the values below 64. -/
def alphabet : List UInt16 :=
  "ABCDEFGHIJKLMNOPQRSTUVWXYZabcdefghijklmnopqrstuvwxyz0123456789+/".toList.map
    fun character => .ofNat character.toNat

def padMark : UInt16 := 61

def isSpace (character : UInt16) : Bool := character ∈ ([9, 10, 12, 13, 32] : List UInt16)

/-- Where the length is a multiple of four, one or two padding characters at the end go. -/
def unpad (data : List UInt16) : List UInt16 :=
  if data.length % 4 ≠ 0 ∨ data.getLast? ≠ some padMark then data
  else if data.dropLast.getLast? = some padMark then data.dropLast.dropLast
  else data.dropLast

/-- What comes after the padding has been taken off. -/
def unpadded (data : List UInt16) : Option (List Nat) :=
  if data.length % 4 = 1 then none else (data.mapM alphabet.idxOf?).map octets

def forgiving (text : List UInt16) : Option (List Nat) :=
  unpadded (unpad (text.filter (!isSpace ·)))

theorem padMark_not_mem : padMark ∉ alphabet := by decide

theorem mapM_idxOf?_isSome {data : List UInt16} :
    (data.mapM alphabet.idxOf?).isSome ↔ ∀ character ∈ data, character ∈ alphabet := by
  induction data with
  | nil => simp
  | cons first rest ih =>
    rw [mapM_cons, forall_mem_cons, ← ih]
    cases found : alphabet.idxOf? first with
    | none =>
      have absent : first ∉ alphabet := idxOf?_eq_none_iff.mp found
      simp [absent]
    | some value =>
      have present : first ∈ alphabet := by
        by_contra absent
        rw [idxOf?_eq_none_iff.mpr absent] at found
        cases found
      cases rest.mapM alphabet.idxOf? <;> simp [present]

theorem unpadded_isSome {data : List UInt16} : (unpadded data).isSome ↔
    data.length % 4 ≠ 1 ∧ ∀ character ∈ data, character ∈ alphabet := by
  rw [unpadded, ← mapM_idxOf?_isSome]
  split
  next one => simp [one]
  next other => simp [other]

/-- A text that ends with padding: what is left of it. -/
theorem unpad_replicate {body : List UInt16} (last : body.getLast? ≠ some padMark) (count : Nat) :
    unpad (body ++ List.replicate count padMark) =
      if (body.length + count) % 4 = 0 then body ++ List.replicate (count - 2) padMark
      else body ++ List.replicate count padMark := by
  rw [unpad, length_append, length_replicate]
  by_cases whole : (body.length + count) % 4 = 0
  case neg => rw [if_pos (.inl whole), if_neg whole]
  case pos =>
    rw [if_pos whole]
    match count with
    | 0 => rw [replicate_zero, append_nil, if_pos (.inr last)]
    | 1 => simp [whole, last]
    | count + 2 =>
      have tail : body ++ List.replicate (count + 2) padMark =
          (body ++ List.replicate count padMark) ++ [padMark] ++ [padMark] := by
        rw [replicate_succ', replicate_succ']
        simp only [append_assoc]
      rw [tail]
      simp [whole]

end Library.Base64
