import Mathlib

/-! The string operations of the description reader, on lists of characters. A length is
the number of UTF-8 bytes, and white space is Unicode's. -/
namespace Chuzz.Webrtc

abbrev Text := List Char

def text (literal : String) : Text := literal.toList

namespace Text

/-- `len` -/
def bytes (value : Text) : Nat := (value.map Char.utf8Size).sum

def isWhitespace (c : Char) : Bool :=
  let code := c.toNat
  (9 ≤ code && code ≤ 13) || code = 0x20 || code = 0x85 || code = 0xA0 || code = 0x1680 ||
    (0x2000 ≤ code && code ≤ 0x200A) || code = 0x2028 || code = 0x2029 || code = 0x202F ||
    code = 0x205F || code = 0x3000

def isAsciiDigit (c : Char) : Bool := '0' ≤ c && c ≤ '9'

def isAsciiAlphanumeric (c : Char) : Bool :=
  isAsciiDigit c || ('a' ≤ c && c ≤ 'z') || ('A' ≤ c && c ≤ 'Z')

def toAsciiLowercase (value : Text) : Text :=
  value.map fun c => if 'A' ≤ c && c ≤ 'Z' then Char.ofNat (c.toNat + 32) else c

def eqIgnoreAsciiCase (first second : Text) : Bool :=
  first.toAsciiLowercase = second.toAsciiLowercase

def trimEndMatches (c : Char) (value : Text) : Text :=
  (value.reverse.dropWhile (· = c)).reverse

def trim (value : Text) : Text :=
  ((value.dropWhile isWhitespace).reverse.dropWhile isWhitespace).reverse

def startsWith (value : Text) (start : String) : Bool := start.toList.isPrefixOf value

def stripPrefix (value : Text) (start : String) : Option Text :=
  if value.startsWith start then some (value.drop start.toList.length) else none

def splitWhitespace (value : Text) : List Text :=
  (value.splitOnP isWhitespace).filter (· ≠ [])

def splitOnce (separator : Char) : Text → Option (Text × Text)
  | [] => none
  | c :: rest =>
    if c = separator then some ([], rest)
    else (splitOnce separator rest).map fun (before, after) => (c :: before, after)

/-- The pieces between line feeds, each without the carriage return before its feed;
nothing follows the last feed of a terminated text. -/
def lines (value : Text) : List Text :=
  let pieces := value.splitOn '\n'
  let terminated := pieces.dropLast.map fun line =>
    if line.getLast? = some '\r' then line.dropLast else line
  match pieces.getLast? with
  | none | some [] => terminated
  | some last => terminated ++ [last]

/-- The text before an offset and from there on. A slice panics where the offset is past the end or
inside a character. -/
def splitAt (value : Text) (offset : Nat) : Option (Text × Text) :=
  if offset = 0 then some ([], value)
  else
    match value with
    | [] => none
    | c :: rest =>
      if offset < c.utf8Size then none
      else (splitAt rest (offset - c.utf8Size)).map fun (before, after) => (c :: before, after)

theorem bytes_cons (c : Char) (rest : Text) : Text.bytes (c :: rest) = c.utf8Size + Text.bytes rest :=
  List.sum_cons

theorem splitAt_append (before after : Text) :
    splitAt (before ++ after) before.bytes = some (before, after) := by
  induction before with
  | nil => cases after <;> rfl
  | cons c before ih =>
    have wide := c.utf8Size_pos
    rw [List.cons_append, splitAt, bytes_cons, if_neg (by omega), if_neg (by omega),
      Nat.add_sub_cancel_left, ih]
    rfl

theorem splitAt_some {value before after : Text} {offset : Nat}
    (split : splitAt value offset = some (before, after)) :
    value = before ++ after ∧ before.bytes = offset := by
  induction value generalizing offset before with
  | nil =>
    unfold splitAt at split
    split at split
    · next zero =>
      cases split
      exact ⟨rfl, zero.symm⟩
    · cases split
  | cons c rest ih =>
    unfold splitAt at split
    split at split
    · next zero =>
      cases split
      exact ⟨rfl, zero.symm⟩
    · dsimp only at split
      split at split
      · cases split
      · obtain ⟨⟨before, after⟩, found, same⟩ := Option.map_eq_some_iff.mp split
        cases same
        obtain ⟨rfl, length⟩ := ih found
        refine ⟨rfl, ?_⟩
        rw [bytes_cons, length]
        omega

def digit (radix : Nat) (c : Char) : Option Nat :=
  let value :=
    if isAsciiDigit c then some (c.toNat - 48)
    else if 'a' ≤ c && c ≤ 'z' then some (c.toNat - 87)
    else if 'A' ≤ c && c ≤ 'Z' then some (c.toNat - 55)
    else none
  value.filter (· < radix)

/-- `from_str_radix` of an unsigned type that ends at `limit`: a plus sign is allowed. -/
def fromRadix (radix limit : Nat) (value : Text) : Option Nat :=
  let digits := match value with
    | '+' :: rest => rest
    | _ => value
  if digits = [] then none
  else
    (digits.foldlM (fun total c => (digit radix c).map (total * radix + ·)) 0).filter (· ≤ limit)

def ofNat (value : Nat) : Text := Nat.toDigits 10 value

end Text
end Chuzz.Webrtc
