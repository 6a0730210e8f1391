import Mathlib

/-! MP4 boxes and big-endian fields of the Media Source byte stream. Offsets
and sizes are natural numbers; sums of `usize` values bounded by the length of
an actual byte vector cannot overflow and are not checked again. -/
namespace Chuzz.Video

abbrev Bytes := List UInt8

structure MediaError where
  code : Nat
  message : String
deriving DecidableEq, Repr

namespace MediaError

def network (message : String) : MediaError := ⟨2, message⟩
def decode (message : String) : MediaError := ⟨3, message⟩
def unsupported (message : String) : MediaError := ⟨4, message⟩

end MediaError

def maxBox : Nat := 16 * 1024 * 1024
def maxSamples : Nat := 1000000

def bad (message : String) : MediaError := .decode message

/-- A four-character box type as its bytes. -/
def fourCC (a b c d : Char) : Bytes := [a.toUInt8, b.toUInt8, c.toUInt8, d.toUInt8]

def bigEndian (bytes : Bytes) : Nat := bytes.foldl (fun value byte => value * 256 + byte.toNat) 0

/-- `bytes[start..stop]`. -/
def slice (bytes : Bytes) (start stop : Nat) : Bytes := (bytes.drop start).take (stop - start)

structure Reader where
  bytes : Bytes
  position : Nat

namespace Reader

def new (bytes : Bytes) : Reader := ⟨bytes, 0⟩

def take (count : Nat) (self : Reader) : Except MediaError (Bytes × Reader) :=
  let stop := self.position + count
  if stop ≤ self.bytes.length then
    .ok (slice self.bytes self.position stop, { self with position := stop })
  else .error (bad "truncated MP4 field")

def u32 (self : Reader) : Except MediaError (Nat × Reader) := do
  let (bytes, self) ← self.take 4
  return (bigEndian bytes, self)

def u64 (self : Reader) : Except MediaError (Nat × Reader) := do
  let (bytes, self) ← self.take 8
  return (bigEndian bytes, self)

def finish (self : Reader) : Except MediaError Unit :=
  if self.position = self.bytes.length then .ok () else .error (bad "unexpected MP4 fields")

end Reader

structure BoxRef where
  kind : Bytes
  start : Nat
  header : Nat
  stop : Nat
deriving DecidableEq, Repr

def BoxRef.body (self : BoxRef) (bytes : Bytes) : Bytes :=
  slice bytes (self.start + self.header) self.stop

/-- The box at `start`, or none while its header or its end has not arrived. -/
def boxAt (bytes : Bytes) (start : Nat) : Except MediaError (Option BoxRef) := do
  let head := bytes.drop start
  if head.length < 8 then
    return none
  let (size, reader) ← (Reader.new head).u32
  let (kind, reader) ← reader.take 4
  if size = 0 then
    throw (bad "size-zero boxes are invalid in the MSE byte stream")
  if size = 1 ∧ head.length < 16 then
    return none
  let (size, header) ← if size = 1 then do
      let (size, _) ← reader.u64
      pure (size, 16)
    else pure (size, 8)
  if size < header ∨ size > maxBox then
    throw (bad "invalid or oversized MSE MP4 box")
  let stop := start + size
  if stop > bytes.length then
    return none
  return some { kind, start, header, stop }

/-- Child boxes from `start` on, at most `budget` of them. -/
def boxesFrom (bytes : Bytes) : (budget : Nat) → (start : Nat) → Except MediaError (List BoxRef)
  | 0, start =>
    if start < bytes.length then .error (bad "too many MP4 child boxes") else .ok []
  | budget + 1, start =>
    if start < bytes.length then do
      match ← boxAt bytes start with
      | none => throw (bad "truncated MP4 child box")
      | some item => return item :: (← boxesFrom bytes budget item.stop)
    else .ok []

def boxes (bytes : Bytes) : Except MediaError (List BoxRef) := boxesFrom bytes 4096 0

end Chuzz.Video
