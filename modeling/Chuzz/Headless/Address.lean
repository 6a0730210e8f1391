import Chuzz.Webrtc.Text

/-! IP addresses as the standard library reads and classifies them, and the blocks that
are assigned to special purposes. -/
namespace Chuzz.Headless
open Webrtc (Text)

structure Ipv4Addr where
  first : UInt8
  second : UInt8
  third : UInt8
  fourth : UInt8
deriving DecidableEq, Repr

/-- The segments of an address, first to last. -/
structure Ipv6Addr where
  s0 : UInt16
  s1 : UInt16
  s2 : UInt16
  s3 : UInt16
  s4 : UInt16
  s5 : UInt16
  s6 : UInt16
  s7 : UInt16
deriving DecidableEq, Repr

inductive IpAddr where
  | v4 (address : Ipv4Addr)
  | v6 (address : Ipv6Addr)
deriving DecidableEq, Repr

namespace Ipv4Addr

def ofSegments (high low : UInt16) : Ipv4Addr :=
  ⟨(high >>> 8).toUInt8, high.toUInt8, (low >>> 8).toUInt8, low.toUInt8⟩

def bits (address : Ipv4Addr) : Nat :=
  ((address.first.toNat * 256 + address.second.toNat) * 256 + address.third.toNat) * 256 +
    address.fourth.toNat

/-- 10.0.0.0/8, 172.16.0.0/12, 192.168.0.0/16 -/
def isPrivate (address : Ipv4Addr) : Bool :=
  address.first == 10 ||
    (address.first == 172 && 16 ≤ address.second && address.second ≤ 31) ||
    (address.first == 192 && address.second == 168)

def isLoopback (address : Ipv4Addr) : Bool := address.first == 127

def isMulticast (address : Ipv4Addr) : Bool := 224 ≤ address.first && address.first ≤ 239

def broadcast : Ipv4Addr := ⟨255, 255, 255, 255⟩

end Ipv4Addr

namespace Ipv6Addr

def segments (address : Ipv6Addr) : List UInt16 :=
  [address.s0, address.s1, address.s2, address.s3, address.s4, address.s5, address.s6, address.s7]

def bits (address : Ipv6Addr) : Nat :=
  address.segments.foldl (fun total segment => total * 65536 + segment.toNat) 0

/-- `to_ipv4`, of a compatible or mapped address. -/
def toIpv4 (address : Ipv6Addr) : Option Ipv4Addr :=
  if address.s0 = 0 ∧ address.s1 = 0 ∧ address.s2 = 0 ∧ address.s3 = 0 ∧ address.s4 = 0 ∧
      (address.s5 = 0 ∨ address.s5 = 0xffff) then
    some (.ofSegments address.s6 address.s7)
  else none

def isLoopback (address : Ipv6Addr) : Bool := address.bits == 1

def isUnspecified (address : Ipv6Addr) : Bool := address.bits == 0

def isUniqueLocal (address : Ipv6Addr) : Bool := address.s0 &&& 0xfe00 == 0xfc00

def isUnicastLinkLocal (address : Ipv6Addr) : Bool := address.s0 &&& 0xffc0 == 0xfe80

def isMulticast (address : Ipv6Addr) : Bool := address.s0 &&& 0xff00 == 0xff00

end Ipv6Addr

def isPublicIpv4 (address : Ipv4Addr) : Bool :=
  let ⟨first, second, third, _⟩ := address
  let shared := first == 100 && (64 ≤ second && second ≤ 127)
  let documentation := (first == 192 && second == 0 && third == 2) ||
    (first == 198 && second == 51 && third == 100) ||
    (first == 203 && second == 0 && third == 113)
  let specialPurpose := first == 0 || first == 10 || first == 127 || shared ||
    (first == 169 && second == 254) ||
    (first == 172 && (16 ≤ second && second ≤ 31)) ||
    (first == 192 && second == 168) ||
    (first == 192 && second == 0 && third == 0) ||
    (first == 192 && second == 88 && third == 99) ||
    (first == 198 && (18 ≤ second && second ≤ 19)) ||
    documentation || 224 ≤ first || address == .broadcast
  !(specialPurpose || address.isPrivate || address.isLoopback || address.isMulticast)

def isPublicAddress : IpAddr → Bool
  | .v4 address => isPublicIpv4 address
  | .v6 address =>
    match address.toIpv4 with
    | some mapped => isPublicIpv4 mapped
    | none =>
      let specialPurpose :=
        (address.s0 == 0x2001 && (address.s1 == 0x0000 || address.s1 == 0x0db8)) ||
          address.s0 == 0x2002 || (address.s0 == 0x0064 && address.s1 == 0xff9b)
      !(address.isLoopback || address.isUniqueLocal || address.isUnicastLinkLocal ||
        address.isUnspecified || address.isMulticast || specialPurpose)

/-- The parser of the standard library: what it read and the rest, `none` where the text
does not match and nothing is read. -/
abbrev Reader (α : Type) := Text → Option (α × Text)

namespace Reader
variable {α : Type}

def givenChar (c : Char) : Reader Unit
  | first :: rest => if first = c then some ((), rest) else none
  | [] => none

/-- `read_number` of at most `digits` digits, below `limit`. -/
def number (radix digits limit : Nat) (zeroFirst : Bool) : Reader Nat := fun text =>
  let read := (text.takeWhile fun c => (Webrtc.Text.digit radix c).isSome)
  if read = [] ∨ digits < read.length then none
  else if zeroFirst = false ∧ read.head? = some '0' ∧ 1 < read.length then none
  else (Webrtc.Text.fromRadix radix limit read).map fun value => (value, text.drop read.length)

/-- `read_separator`: nothing stands before the first of several. -/
def separator (c : Char) (index : Nat) (inner : Reader α) : Reader α := fun text =>
  if index = 0 then inner text
  else (givenChar c text).bind fun (_, rest) => inner rest

def ipv4Addr : Reader Ipv4Addr := fun text => do
  let octet (index : Nat) := separator '.' index (number 10 3 255 false)
  let (first, text) ← octet 0 text
  let (second, text) ← octet 1 text
  let (third, text) ← octet 2 text
  let (fourth, text) ← octet 3 text
  some (⟨.ofNat first, .ofNat second, .ofNat third, .ofNat fourth⟩, text)

/-- `read_groups`: the groups from number `index` to the limit, and whether an embedded
address ended them. -/
def groups : (left index : Nat) → Text → List UInt16 × Bool × Text
  | 0, _, text => ([], false, text)
  | left + 1, index, text =>
    let embedded := if left = 0 then none else separator ':' index ipv4Addr text
    match embedded with
    | some (address, rest) =>
      ([.ofNat (address.first.toNat * 256 + address.second.toNat),
        .ofNat (address.third.toNat * 256 + address.fourth.toNat)], true, rest)
    | none =>
      match separator ':' index (number 16 4 0xffff true) text with
      | some (group, rest) =>
        let (more, ended, rest) := groups left (index + 1) rest
        (.ofNat group :: more, ended, rest)
      | none => ([], false, text)

def ofGroups : List UInt16 → Option Ipv6Addr
  | [s0, s1, s2, s3, s4, s5, s6, s7] => some ⟨s0, s1, s2, s3, s4, s5, s6, s7⟩
  | _ => none

def ipv6Addr : Reader Ipv6Addr := fun text => do
  let (head, embedded, text) := groups 8 0 text
  if head.length = 8 then (ofGroups head).map (·, text)
  else if embedded then none
  else
    let (_, text) ← givenChar ':' text
    let (_, text) ← givenChar ':' text
    let (tail, _, text) := groups (8 - (head.length + 1)) 0 text
    let zeros := List.replicate (8 - head.length - tail.length) 0
    (ofGroups (head ++ zeros ++ tail)).map (·, text)

end Reader

/-- `parse::<IpAddr>`, which reads the text to its end. -/
def parseIpAddr (text : Text) : Option IpAddr :=
  let read := ((Reader.ipv4Addr text).map fun (address, rest) => (IpAddr.v4 address, rest)) <|>
    (Reader.ipv6Addr text).map fun (address, rest) => (IpAddr.v6 address, rest)
  match read with
  | some (address, []) => some address
  | _ => none

example : parseIpAddr (Webrtc.text "2001:db8::192.0.2.33") =
    some (.v6 ⟨0x2001, 0xdb8, 0, 0, 0, 0, 0xc000, 0x221⟩) := by decide

inductive Purpose where
  | unspecified
  | loopback
  | privateUse
  | linkLocal
  | uniqueLocal
  | shared
  | documentation
  | benchmarking
  | multicast
  | reserved
deriving DecidableEq, Repr

/-- An address block: its first address, the number of bits that its addresses share, and
what it is for. -/
structure Block (A : Type) where
  purpose : Purpose
  start : A
  length : Nat
deriving DecidableEq, Repr

def Ipv4Addr.In (address : Ipv4Addr) (block : Block Ipv4Addr) : Prop :=
  address.bits / 2 ^ (32 - block.length) = block.start.bits / 2 ^ (32 - block.length)

def Ipv6Addr.In (address : Ipv6Addr) (block : Block Ipv6Addr) : Prop :=
  address.bits / 2 ^ (128 - block.length) = block.start.bits / 2 ^ (128 - block.length)

instance (address : Ipv4Addr) (block : Block Ipv4Addr) : Decidable (address.In block) :=
  inferInstanceAs (Decidable (_ = _))

instance (address : Ipv6Addr) (block : Block Ipv6Addr) : Decidable (address.In block) :=
  inferInstanceAs (Decidable (_ = _))

def Ipv4Addr.blocks : List (Block Ipv4Addr) :=
  [⟨.unspecified, ⟨0, 0, 0, 0⟩, 8⟩, ⟨.privateUse, ⟨10, 0, 0, 0⟩, 8⟩,
    ⟨.loopback, ⟨127, 0, 0, 0⟩, 8⟩, ⟨.shared, ⟨100, 64, 0, 0⟩, 10⟩,
    ⟨.linkLocal, ⟨169, 254, 0, 0⟩, 16⟩, ⟨.privateUse, ⟨172, 16, 0, 0⟩, 12⟩,
    ⟨.privateUse, ⟨192, 168, 0, 0⟩, 16⟩, ⟨.reserved, ⟨192, 0, 0, 0⟩, 24⟩,
    ⟨.reserved, ⟨192, 88, 99, 0⟩, 24⟩, ⟨.benchmarking, ⟨198, 18, 0, 0⟩, 15⟩,
    ⟨.documentation, ⟨192, 0, 2, 0⟩, 24⟩, ⟨.documentation, ⟨198, 51, 100, 0⟩, 24⟩,
    ⟨.documentation, ⟨203, 0, 113, 0⟩, 24⟩, ⟨.multicast, ⟨224, 0, 0, 0⟩, 4⟩,
    ⟨.reserved, ⟨240, 0, 0, 0⟩, 4⟩]

/-- The blocks that `isPublicAddress` excludes. -/
def Ipv6Addr.excludedBlocks : List (Block Ipv6Addr) :=
  [⟨.unspecified, ⟨0, 0, 0, 0, 0, 0, 0, 0⟩, 128⟩, ⟨.loopback, ⟨0, 0, 0, 0, 0, 0, 0, 1⟩, 128⟩,
    ⟨.linkLocal, ⟨0xfe80, 0, 0, 0, 0, 0, 0, 0⟩, 10⟩,
    ⟨.uniqueLocal, ⟨0xfc00, 0, 0, 0, 0, 0, 0, 0⟩, 7⟩,
    ⟨.documentation, ⟨0x2001, 0xdb8, 0, 0, 0, 0, 0, 0⟩, 32⟩,
    ⟨.multicast, ⟨0xff00, 0, 0, 0, 0, 0, 0, 0⟩, 8⟩]

/-- The blocks that it does not know: those for benchmarking and for long documentation
examples, and what the address space holds in reserve. -/
def Ipv6Addr.unknownBlocks : List (Block Ipv6Addr) :=
  [⟨.benchmarking, ⟨0x2001, 2, 0, 0, 0, 0, 0, 0⟩, 48⟩,
    ⟨.documentation, ⟨0x3fff, 0, 0, 0, 0, 0, 0, 0⟩, 20⟩] ++
  ([(0, 8), (0x0100, 8), (0x0200, 7), (0x0400, 6), (0x0800, 5), (0x1000, 4), (0x4000, 3),
    (0x6000, 3), (0x8000, 3), (0xa000, 3), (0xc000, 3), (0xe000, 4), (0xf000, 5), (0xf800, 6),
    (0xfe00, 9), (0xfec0, 10)].map fun (first, length) =>
      ⟨.reserved, ⟨first, 0, 0, 0, 0, 0, 0, 0⟩, length⟩)

/-- The addresses that a mapped, compatible, 6to4, Teredo or NAT64 address carries. -/
def Ipv6Addr.embedded (address : Ipv6Addr) : List Ipv4Addr :=
  if address.toIpv4.isSome ∨ address.s0 = 0x64 ∧ address.s1 = 0xff9b ∧ address.s2 = 0 ∧
      address.s3 = 0 ∧ address.s4 = 0 ∧ address.s5 = 0 then
    [.ofSegments address.s6 address.s7]
  else if address.s0 = 0x2002 then [.ofSegments address.s1 address.s2]
  else if address.s0 = 0x2001 ∧ address.s1 = 0 then
    [.ofSegments address.s2 address.s3, .ofSegments (~~~address.s6) (~~~address.s7)]
  else []

def Ipv4Addr.Special (address : Ipv4Addr) : Prop := ∃ block ∈ blocks, address.In block

/-- In a block for some purpose, or embedding an address that is. -/
def IpAddr.Special : IpAddr → Prop
  | .v4 address => address.Special
  | .v6 address =>
    if address.embedded = [] then
      ∃ block ∈ Ipv6Addr.excludedBlocks ++ Ipv6Addr.unknownBlocks, address.In block
    else ∃ inner ∈ address.embedded, inner.Special

/-- An address of a block that the classification does not know. -/
def IpAddr.Unknown : IpAddr → Prop
  | .v4 _ => False
  | .v6 address => address.embedded = [] ∧ ∃ block ∈ Ipv6Addr.unknownBlocks, address.In block

namespace Ipv4Addr
variable {address : Ipv4Addr} {purpose : Purpose} {a b c : UInt8}

theorem in_octet : address.In ⟨purpose, ⟨a, 0, 0, 0⟩, 8⟩ ↔ address.first = a := by
  have h1 := address.second.toNat_lt
  have h2 := address.third.toNat_lt
  have h3 := address.fourth.toNat_lt
  simp only [In, bits, ← UInt8.toNat_inj, UInt8.toNat_zero]
  omega

theorem in_two_octets : address.In ⟨purpose, ⟨a, b, 0, 0⟩, 16⟩ ↔
    address.first = a ∧ address.second = b := by
  have h1 := address.second.toNat_lt
  have h2 := address.third.toNat_lt
  have h3 := address.fourth.toNat_lt
  have h4 := b.toNat_lt
  simp only [In, bits, ← UInt8.toNat_inj, UInt8.toNat_zero]
  omega

theorem in_three_octets : address.In ⟨purpose, ⟨a, b, c, 0⟩, 24⟩ ↔
    address.first = a ∧ address.second = b ∧ address.third = c := by
  have h1 := address.second.toNat_lt
  have h2 := address.third.toNat_lt
  have h3 := address.fourth.toNat_lt
  have h4 := b.toNat_lt
  have h5 := c.toNat_lt
  simp only [In, bits, ← UInt8.toNat_inj, UInt8.toNat_zero]
  omega

theorem in_second {length : Nat} (within : 8 ≤ length) (inside : length ≤ 16) :
    address.In ⟨purpose, ⟨a, b, 0, 0⟩, length⟩ ↔ address.first = a ∧
      address.second.toNat / 2 ^ (16 - length) = b.toNat / 2 ^ (16 - length) := by
  have h1 := address.second.toNat_lt
  have h2 := address.third.toNat_lt
  have h3 := address.fourth.toNat_lt
  have h4 := b.toNat_lt
  simp only [In, bits, ← UInt8.toNat_inj, UInt8.toNat_zero]
  interval_cases length <;> omega

theorem in_first {length : Nat} (inside : length ≤ 8) :
    address.In ⟨purpose, ⟨a, 0, 0, 0⟩, length⟩ ↔
      address.first.toNat / 2 ^ (8 - length) = a.toNat / 2 ^ (8 - length) := by
  have h1 := address.second.toNat_lt
  have h2 := address.third.toNat_lt
  have h3 := address.fourth.toNat_lt
  simp only [In, bits, UInt8.toNat_zero]
  interval_cases length <;> omega

theorem special_iff : address.Special ↔
    address.first = 0 ∨ address.first = 10 ∨ address.first = 127 ∨
    (address.first = 100 ∧ 64 ≤ address.second ∧ address.second ≤ 127) ∨
    (address.first = 169 ∧ address.second = 254) ∨
    (address.first = 172 ∧ 16 ≤ address.second ∧ address.second ≤ 31) ∨
    (address.first = 192 ∧ address.second = 168) ∨
    (address.first = 192 ∧ address.second = 0 ∧ address.third = 0) ∨
    (address.first = 192 ∧ address.second = 88 ∧ address.third = 99) ∨
    (address.first = 198 ∧ 18 ≤ address.second ∧ address.second ≤ 19) ∨
    (address.first = 192 ∧ address.second = 0 ∧ address.third = 2) ∨
    (address.first = 198 ∧ address.second = 51 ∧ address.third = 100) ∨
    (address.first = 203 ∧ address.second = 0 ∧ address.third = 113) ∨ 224 ≤ address.first := by
  have h12 : address.second.toNat / 2 ^ (16 - 12) = (16 : UInt8).toNat / 2 ^ (16 - 12) ↔
      16 ≤ address.second ∧ address.second ≤ 31 := by
    simp only [UInt8.le_iff_toNat_le, UInt8.reduceToNat]
    omega
  have h10 : address.second.toNat / 2 ^ (16 - 10) = (64 : UInt8).toNat / 2 ^ (16 - 10) ↔
      64 ≤ address.second ∧ address.second ≤ 127 := by
    simp only [UInt8.le_iff_toNat_le, UInt8.reduceToNat]
    omega
  have h15 : address.second.toNat / 2 ^ (16 - 15) = (18 : UInt8).toNat / 2 ^ (16 - 15) ↔
      18 ≤ address.second ∧ address.second ≤ 19 := by
    simp only [UInt8.le_iff_toNat_le, UInt8.reduceToNat]
    omega
  have h4 : address.first.toNat / 2 ^ (8 - 4) = (224 : UInt8).toNat / 2 ^ (8 - 4) ∨
      address.first.toNat / 2 ^ (8 - 4) = (240 : UInt8).toNat / 2 ^ (8 - 4) ↔
      224 ≤ address.first := by
    have below := address.first.toNat_lt
    simp only [UInt8.le_iff_toNat_le, UInt8.reduceToNat]
    omega
  simp only [Special, blocks, List.mem_cons, List.not_mem_nil, or_false, exists_eq_or_imp,
    exists_eq_left, in_octet, in_two_octets, in_three_octets]
  rw [in_second (by decide) (by decide), in_second (by decide) (by decide),
    in_second (by decide) (by decide), in_first (by decide), in_first (by decide), h10, h12, h15, h4]

end Ipv4Addr

theorem isPublicIpv4_iff (address : Ipv4Addr) :
    isPublicIpv4 address = true ↔ ¬ address.Special := by
  rw [isPublicIpv4, Bool.not_eq_true', ← Bool.not_eq_true]
  apply not_congr
  simp only [Ipv4Addr.isPrivate, Ipv4Addr.isLoopback, Ipv4Addr.isMulticast, Bool.or_eq_true,
    Bool.and_eq_true, beq_iff_eq, decide_eq_true_eq]
  -- the calls at the end exclude nothing more
  rw [or_iff_left_of_imp, or_iff_left_of_imp, or_iff_left_of_imp, or_iff_left_of_imp,
    Ipv4Addr.special_iff]
  · simp only [or_assoc, and_assoc]
  · intro all
    have last : address.first = 255 := congrArg (·.first) all
    rw [last]
    exact .inr (by decide)
  · rintro ((ten | ⟨⟨first, low⟩, high⟩) | two)
    · simp [ten]
    · simp [first, low, high]
    · simp [two]
  · intro loopback
    simp [loopback]
  · rintro ⟨low, _⟩
    simp [low]

namespace Ipv6Addr
variable {address : Ipv6Addr} {purpose : Purpose} {a b : UInt16}

theorem bits_eq (address : Ipv6Addr) : ∃ rest < 2 ^ 96,
    address.bits = (address.s0.toNat * 65536 + address.s1.toNat) * 2 ^ 96 + rest := by
  have h2 := address.s2.toNat_lt
  have h3 := address.s3.toNat_lt
  have h4 := address.s4.toNat_lt
  have h5 := address.s5.toNat_lt
  have h6 := address.s6.toNat_lt
  have h7 := address.s7.toNat_lt
  refine ⟨address.bits - (address.s0.toNat * 65536 + address.s1.toNat) * 2 ^ 96, ?_, ?_⟩
  · simp only [bits, segments, List.foldl_cons, List.foldl_nil]
    omega
  · simp only [bits, segments, List.foldl_cons, List.foldl_nil]
    omega

theorem in_first {length : Nat} (inside : length ≤ 16) :
    address.In ⟨purpose, ⟨a, 0, 0, 0, 0, 0, 0, 0⟩, length⟩ ↔
      address.s0.toNat / 2 ^ (16 - length) = a.toNat / 2 ^ (16 - length) := by
  have high : ∀ address : Ipv6Addr, address.bits / 2 ^ (128 - length) =
      address.s0.toNat / 2 ^ (16 - length) := by
    intro address
    obtain ⟨rest, below, bits⟩ := bits_eq address
    have h1 := address.s1.toNat_lt
    have cut : address.bits / 2 ^ 112 = address.s0.toNat := by
      omega
    rw [show 128 - length = 112 + (16 - length) by omega, Nat.pow_add, ← Nat.div_div_eq_div_mul,
      cut]
  rw [In, high, high]

theorem in_two_segments : address.In ⟨purpose, ⟨a, b, 0, 0, 0, 0, 0, 0⟩, 32⟩ ↔
    address.s0 = a ∧ address.s1 = b := by
  have high : ∀ address : Ipv6Addr, address.bits / 2 ^ (128 - 32) =
      address.s0.toNat * 65536 + address.s1.toNat := by
    intro address
    obtain ⟨rest, below, bits⟩ := bits_eq address
    omega
  have h1 := address.s1.toNat_lt
  have hb := b.toNat_lt
  rw [In, high, high, ← UInt16.toNat_inj, ← UInt16.toNat_inj]
  dsimp only
  omega

theorem masked (mask : UInt16) (low : Nat) {segment start : UInt16}
    (within : ∀ rest < 2 ^ low, (start.toNat + rest) &&& mask.toNat = start.toNat)
    (aligned : 2 ^ low ∣ start.toNat)
    (same : segment.toNat / 2 ^ low = start.toNat / 2 ^ low) : segment &&& mask = start := by
  have split : start.toNat + segment.toNat % 2 ^ low = segment.toNat := by
    have divided := Nat.div_add_mod segment.toNat (2 ^ low)
    rwa [same, Nat.mul_div_cancel' aligned] at divided
  have inside := within (segment.toNat % 2 ^ low) (Nat.mod_lt _ (Nat.two_pow_pos low))
  rw [split, ← UInt16.toNat_and] at inside
  exact UInt16.toNat_inj.mp inside

end Ipv6Addr

/-- An address that passes is special only where the classification does not know it. -/
theorem isPublicAddress_special {address : IpAddr} (accepted : isPublicAddress address = true) :
    address.Special ↔ address.Unknown := by
  cases address with
  | v4 address => exact iff_of_false ((isPublicIpv4_iff address).mp accepted) id
  | v6 address =>
    rw [isPublicAddress] at accepted
    cases carried : address.toIpv4 with
    | some inner =>
      rw [carried] at accepted
      have embedded : address.embedded = [inner] := by
        have same : Ipv4Addr.ofSegments address.s6 address.s7 = inner := by
          rw [Ipv6Addr.toIpv4] at carried
          split at carried
          · exact Option.some.inj carried
          · contradiction
        rw [Ipv6Addr.embedded, carried, if_pos (.inl rfl), same]
      rw [IpAddr.Special, IpAddr.Unknown, embedded]
      have plain := (isPublicIpv4_iff inner).mp accepted
      simp [plain]
    | none =>
      rw [carried] at accepted
      simp only [Bool.not_eq_true', Bool.or_eq_false_iff, Bool.and_eq_false_iff,
        beq_eq_false_iff_ne] at accepted
      obtain ⟨⟨⟨⟨⟨loopback, uniqueLocal⟩, linkLocal⟩, unspecified⟩, multicast⟩, special⟩ := accepted
      obtain ⟨⟨assigned, relay⟩, translated⟩ := special
      have embedded : address.embedded = [] := by
        have teredo : ¬ (address.s0 = 0x2001 ∧ address.s1 = 0) := by
          rintro ⟨first, second⟩
          simp [first, second] at assigned
        have nat64 : ¬ (address.s0 = 0x64 ∧ address.s1 = 0xff9b ∧ address.s2 = 0 ∧
            address.s3 = 0 ∧ address.s4 = 0 ∧ address.s5 = 0) := by
          rintro ⟨first, second, _⟩
          simp [first, second] at translated
        rw [Ipv6Addr.embedded, carried, if_neg (by simpa using nat64), if_neg relay, if_neg teredo]
      have none : ¬ ∃ block ∈ Ipv6Addr.excludedBlocks, address.In block := by
        simp only [Ipv6Addr.excludedBlocks, List.mem_cons, List.not_mem_nil, or_false,
          exists_eq_or_imp, exists_eq_left, Ipv6Addr.in_two_segments]
        rintro (zero | one | link | unique | example_ | multi)
        · have zero : address.bits / 1 = 0 := zero
          simp [Ipv6Addr.isUnspecified, Nat.div_one _ ▸ zero] at unspecified
        · have one : address.bits / 1 = 1 := one
          simp [Ipv6Addr.isLoopback, Nat.div_one _ ▸ one] at loopback
        · have same := Ipv6Addr.masked 0xffc0 6 (by decide) (by decide)
            ((Ipv6Addr.in_first (by decide)).mp link)
          simp [Ipv6Addr.isUnicastLinkLocal, same] at linkLocal
        · have same := Ipv6Addr.masked 0xfe00 9 (by decide +kernel) (by decide)
            ((Ipv6Addr.in_first (by decide)).mp unique)
          simp [Ipv6Addr.isUniqueLocal, same] at uniqueLocal
        · simp [example_.1, example_.2] at assigned
        · have same := Ipv6Addr.masked 0xff00 8 (by decide +kernel) (by decide)
            ((Ipv6Addr.in_first (by decide)).mp multi)
          simp [Ipv6Addr.isMulticast, same] at multicast
      rw [IpAddr.Special, IpAddr.Unknown, if_pos embedded]
      simp only [List.mem_append, or_and_right, exists_or, none, false_or, embedded, true_and]

end Chuzz.Headless
