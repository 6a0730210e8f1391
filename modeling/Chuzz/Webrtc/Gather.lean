import Chuzz.Headless.Policy

/-! The reflexive address read from a binding response, and the responses that carry one. -/
namespace Chuzz.Webrtc.Gather
abbrev Transaction := Vector UInt8 12

open List
open Headless (Ipv4Addr Ipv6Addr IpAddr SocketAddr)

def cookie : List UInt8 := [0x21, 0x12, 0xa4, 0x42]

/-- `u16::from_be_bytes` -/
def fromBeBytes (high low : UInt8) : Nat := high.toNat * 256 + low.toNat

def v4FromOctets : List UInt8 → Option IpAddr
  | [a, b, c, d] => some (.v4 ⟨a, b, c, d⟩)
  | _ => none

def segment (high low : UInt8) : UInt16 := .ofNat (fromBeBytes high low)

def v6FromOctets : List UInt8 → Option IpAddr
  | [a, b, c, d, e, f, g, h, i, j, k, l, m, n, o, p] =>
    some (.v6 ⟨segment a b, segment c d, segment e f, segment g h, segment i j, segment k l,
      segment m n, segment o p⟩)
  | _ => none

def isUnspecified : IpAddr → Bool
  | .v4 address => address.bits == 0
  | .v6 address => address.isUnspecified

def isMulticast : IpAddr → Bool
  | .v4 address => address.isMulticast
  | .v6 address => address.isMulticast

/-- The test before `mapped` returns an address. -/
def usable (address : SocketAddr) : Bool :=
  address.port != 0 && !isUnspecified address.ip && !isMulticast address.ip

/-- What the walk does after an attribute. -/
inductive Step where
  | stop (result : Option SocketAddr)
  | next

/-- The address behind the mask: the cookie and, from the fifth octet on, the transaction. -/
def unmask (transaction : Transaction) (family : UInt8) (octets : List UInt8) : Option IpAddr :=
  let ip := zipWith (· ^^^ ·) octets (cookie ++ transaction.toList)
  if family = 1 ∧ octets.length = 4 then v4FromOctets ip
  else if family = 2 ∧ octets.length = 16 then v6FromOctets ip
  else none

/-- The body of the loop -/
def step (transaction : Transaction) (kind : Nat) : List UInt8 → Step
  | reserved :: family :: high :: low :: octets =>
    if kind = 0x0020 ∧ reserved = 0 then
      let port := fromBeBytes high low ^^^ 0x2112
      match unmask transaction family octets with
      | none => .stop none
      | some ip => if usable ⟨ip, port⟩ then .stop (some ⟨ip, port⟩) else .next
    else .next
  | _ => .next

/-- `u16::from_be_bytes` of two indexed bytes; none where an index is out of range. -/
def readU16 (bytes : List UInt8) (index : Nat) : Option Nat := do
  some (fromBeBytes (← bytes[index]?) (← bytes[index + 1]?))

/-- `get` of a range -/
def slice (bytes : List UInt8) (start stop : Nat) : Option (List UInt8) :=
  if start ≤ stop ∧ stop ≤ bytes.length then some ((bytes.drop start).take (stop - start)) else none

/-- The loop over the attributes; none where an index is out of range. The additions that
are checked in the source stay below 2^64: the cursor is at most the length of a slice. -/
def walk (bytes : List UInt8) (transaction : Transaction) (cursor : Nat) :
    Option (Option SocketAddr) :=
  if cursor + 4 ≤ bytes.length then
    (readU16 bytes cursor).bind fun kind =>
      (readU16 bytes (cursor + 2)).bind fun length =>
        match slice bytes (cursor + 4) (cursor + 4 + length) with
        | none => some none
        | some value =>
          match step transaction kind value with
          | .stop result => some result
          | .next => walk bytes transaction (cursor + 4 + (length + 3) / 4 * 4)
  else some none
termination_by bytes.length - cursor

def mapped (bytes : List UInt8) (transaction : Transaction) : Option (Option SocketAddr) :=
  if bytes.length < 20 then some none
  else do
    let start ← slice bytes 0 2
    let magic ← slice bytes 4 8
    let id ← slice bytes 8 20
    if start ≠ [1, 1] ∨ magic ≠ cookie ∨ id ≠ transaction.toList then some none
    else
      let length ← readU16 bytes 2
      if length % 4 ≠ 0 ∨ length + 20 ≠ bytes.length then some none
      else walk bytes transaction 20

/-! ### Responses -/

def toBeBytes (value : Nat) : List UInt8 := [.ofNat (value / 256), .ofNat value]

/-- An attribute of a message, with any bytes up to the next multiple of four. -/
structure Attribute where
  kind : Nat
  value : List UInt8
  padding : List UInt8
  kind_fits : kind < 65536
  value_fits : value.length < 65536
  padded : value.length + padding.length = (value.length + 3) / 4 * 4

def Attribute.bytes (part : Attribute) : List UInt8 :=
  toBeBytes part.kind ++ toBeBytes part.value.length ++ part.value ++
    part.padding

def header (transaction : Transaction) (length : Nat) : List UInt8 :=
  [1, 1] ++ (toBeBytes length ++ (cookie ++ transaction.toList))

/-- A binding success response with the given attributes. -/
def response (transaction : Transaction) (attributes : List UInt8) : List UInt8 :=
  header transaction attributes.length ++ attributes

def family : IpAddr → UInt8
  | .v4 _ => 1
  | .v6 _ => 2

def octets : IpAddr → List UInt8
  | .v4 address => [address.first, address.second, address.third, address.fourth]
  | .v6 address => address.segments.flatMap fun segment => toBeBytes segment.toNat

/-- The standard value of an XOR-MAPPED-ADDRESS. -/
def xorMapped (transaction : Transaction) (address : SocketAddr) : List UInt8 :=
  0 :: family address.ip :: toBeBytes (address.port ^^^ 0x2112) ++
    zipWith (· ^^^ ·) (octets address.ip) (cookie ++ transaction.toList)

section
variable {transaction : Transaction} {address : SocketAddr}

/-- An attribute that carries an address. -/
structure Attribute.Carries (part : Attribute) (transaction : Transaction)
    (address : SocketAddr) : Prop where
  kind : part.kind = 0x0020
  value : part.value = xorMapped transaction address
  port : address.port < 65536

/-- An attribute of another type, one with less than four bytes or that does not start
with a zero, or an address that is of no use. -/
def Attribute.PassedOver (part : Attribute) (transaction : Transaction) : Prop :=
  (part.kind = 0x0020 → ∀ family high low octets,
    part.value ≠ 0 :: family :: high :: low :: octets) ∨
  ∃ address, part.Carries transaction address ∧ usable address = false

/-- The attributes hold a usable address behind others that are passed over. -/
inductive Reaches (transaction : Transaction) (address : SocketAddr) : List UInt8 → Prop
  | here (found : Attribute) (rest : List UInt8) (carries : found.Carries transaction address)
      (use : usable address) : Reaches transaction address (found.bytes ++ rest)
  | later (before : Attribute) (rest : List UInt8) (passed : before.PassedOver transaction)
      (reaches : Reaches transaction address rest) : Reaches transaction address (before.bytes ++ rest)

/-! ### Bytes and masks -/

theorem fromBeBytes_toBeBytes {value : Nat} (fits : value < 65536) :
    fromBeBytes (.ofNat (value / 256)) (.ofNat value) = value := by
  simp only [fromBeBytes, UInt8.toNat_ofNat']
  omega

theorem fromBeBytes_fits (high low : UInt8) : fromBeBytes high low < 65536 := by
  have first := high.toNat_lt
  have second := low.toNat_lt
  unfold fromBeBytes
  omega

theorem toBeBytes_fromBeBytes (high low : UInt8) : toBeBytes (fromBeBytes high low) = [high, low] := by
  have first := high.toNat_lt
  have second := low.toNat_lt
  simp only [toBeBytes, fromBeBytes, cons.injEq, ← UInt8.toNat_inj, UInt8.toNat_ofNat', and_true]
  omega

theorem segment_octets (value : UInt16) :
    segment (.ofNat (value.toNat / 256)) (.ofNat value.toNat) = value := by
  rw [segment, fromBeBytes_toBeBytes value.toNat_lt, UInt16.ofNat_toNat]

theorem octets_segment (high low : UInt8) : toBeBytes (segment high low).toNat = [high, low] := by
  rw [segment, UInt16.toNat_ofNat', Nat.mod_eq_of_lt (fromBeBytes_fits high low),
    toBeBytes_fromBeBytes]

theorem mask_twice {value mask : List UInt8} (long : value.length ≤ mask.length) :
    zipWith (· ^^^ ·) (zipWith (· ^^^ ·) value mask) mask = value := by
  induction value generalizing mask with
  | nil => simp
  | cons byte value ih =>
    cases mask with
    | nil => cases long
    | cons other mask =>
      simp [ih (Nat.le_of_succ_le_succ long), UInt8.xor_assoc]

variable {bytes : List UInt8} {ip : IpAddr}


theorem v4FromOctets_some (read : v4FromOctets bytes = some ip) :
    family ip = 1 ∧ octets ip = bytes := by
  unfold v4FromOctets at read
  split at read
  · cases read
    exact ⟨rfl, rfl⟩
  · cases read

theorem v6FromOctets_some (read : v6FromOctets bytes = some ip) :
    family ip = 2 ∧ octets ip = bytes := by
  unfold v6FromOctets at read
  split at read
  · cases read
    refine ⟨rfl, ?_⟩
    simp [octets, Ipv6Addr.segments, octets_segment]
  · cases read

theorem v6FromOctets_octets (ip : Ipv6Addr) : v6FromOctets (octets (.v6 ip)) = some (.v6 ip) := by
  simp only [octets, Ipv6Addr.segments, toBeBytes, flatMap_cons, flatMap_nil, cons_append,
    nil_append, v6FromOctets, segment_octets]

theorem octets_short (ip : IpAddr) : (octets ip).length ≤ (cookie ++ transaction.toList).length := by
  have whole : (cookie ++ transaction.toList).length = 16 := by simp [cookie]
  rw [whole]
  cases ip with
  | v4 => exact Nat.le_of_ble_eq_true rfl
  | v6 => exact le_rfl

/-- Reading an address inverts writing it. -/
theorem unmask_some {kind : UInt8} : unmask transaction kind bytes = some ip ↔
      kind = family ip ∧ bytes = zipWith (· ^^^ ·) (octets ip) (cookie ++ transaction.toList) := by
  have whole : (cookie ++ transaction.toList).length = 16 := by simp [cookie]
  constructor
  · intro read
    simp only [unmask] at read
    split at read
    · next first =>
      obtain ⟨same, plain⟩ := v4FromOctets_some read
      exact ⟨first.1.trans same.symm, by rw [plain, mask_twice (by omega)]⟩
    · split at read
      · next second =>
        obtain ⟨same, plain⟩ := v6FromOctets_some read
        exact ⟨second.1.trans same.symm, by rw [plain, mask_twice (by omega)]⟩
      · cases read
  · rintro ⟨rfl, rfl⟩
    have length : (zipWith (· ^^^ ·) (octets ip) (cookie ++ transaction.toList)).length =
        (octets ip).length := by
      rw [length_zipWith, Nat.min_eq_left (octets_short ip)]
    simp only [unmask, mask_twice (octets_short ip), length]
    cases ip with
    | v4 ip => rfl
    | v6 ip => exact v6FromOctets_octets ip

/-! ### Attributes -/

theorem port_twice (port : Nat) : (port ^^^ 0x2112) ^^^ 0x2112 = port := by
  rw [Nat.xor_assoc, Nat.xor_self, Nat.xor_zero]

theorem port_fits {port : Nat} (fits : port < 65536) : port ^^^ 0x2112 < 65536 :=
  Nat.xor_lt_two_pow (n := 16) fits (by decide)

theorem step_carries {part : Attribute} (carries : part.Carries transaction address) :
    step transaction part.kind part.value =
      if usable address then .stop (some address) else .next := by
  have read : unmask transaction (family address.ip) _ = _ := unmask_some.mpr ⟨rfl, rfl⟩
  rw [carries.kind, carries.value]
  simp only [xorMapped, toBeBytes, cons_append, nil_append, step, and_self, if_true, read,
    fromBeBytes_toBeBytes (port_fits carries.port), port_twice]

theorem step_passedOver {part : Attribute} (passed : part.PassedOver transaction) :
    step transaction part.kind part.value = .next := by
  obtain other | ⟨address, carries, useless⟩ := passed
  · unfold step
    split
    · next shape =>
      exact if_neg fun ⟨kind, zero⟩ => other kind _ _ _ _ (zero ▸ shape)
    · rfl
  · rw [step_carries carries, useless]
    rfl

/-- The walk goes on only over what is passed over, and returns only what is carried. -/
theorem step_cases (transaction : Transaction) (part : Attribute) :
    (part.PassedOver transaction ∧ step transaction part.kind part.value = .next) ∨
    (∃ address, part.Carries transaction address ∧ usable address ∧
      step transaction part.kind part.value = .stop (some address)) ∨
    step transaction part.kind part.value = .stop none := by
  by_cases passed : part.PassedOver transaction
  · exact .inl ⟨passed, step_passedOver passed⟩
  right
  obtain ⟨other, useless⟩ := not_or.mp passed
  push Not at other useless
  obtain ⟨kind, family, high, low, octets, shape⟩ := other
  cases read : unmask transaction family octets with
  | none =>
    right
    simp [kind, shape, step, read]
  | some ip =>
    obtain ⟨rfl, written⟩ := unmask_some.mp read
    have carries : part.Carries transaction ⟨ip, fromBeBytes high low ^^^ 0x2112⟩ := by
      refine ⟨kind, ?_, port_fits (fromBeBytes_fits high low)⟩
      rw [shape, xorMapped, port_twice, toBeBytes_fromBeBytes, ← written]
      rfl
    have use := Bool.eq_true_of_not_eq_false (useless _ carries)
    exact .inl ⟨_, carries, use, (step_carries carries).trans (if_pos use)⟩


/-! ### The walk -/

theorem readU16_append (front rest : List UInt8) (high low : UInt8) :
    readU16 (front ++ high :: low :: rest) front.length = some (fromBeBytes high low) := by
  simp [readU16]

theorem slice_append (front value rest : List UInt8) :
    slice (front ++ (value ++ rest)) front.length (front.length + value.length) = some value := by
  unfold slice
  rw [if_pos (by simp), drop_left, Nat.add_sub_cancel_left, take_left]

/-- One round of the loop, at an attribute of the message. -/
theorem walk_append (front rest : List UInt8) (part : Attribute) :
    walk (front ++ (part.bytes ++ rest)) transaction front.length =
      match step transaction part.kind part.value with
      | .stop result => some result
      | .next => walk (front ++ (part.bytes ++ rest)) transaction (front ++ part.bytes).length := by
  have kind := readU16_append front (toBeBytes part.value.length ++ part.value ++ part.padding ++ rest)
    (.ofNat (part.kind / 256)) (.ofNat part.kind)
  have length := readU16_append (front ++ toBeBytes part.kind)
    (part.value ++ part.padding ++ rest) (.ofNat (part.value.length / 256)) (.ofNat part.value.length)
  have value := slice_append (front ++ toBeBytes part.kind ++ toBeBytes part.value.length) part.value
    (part.padding ++ rest)
  rw [fromBeBytes_toBeBytes part.kind_fits] at kind
  rw [fromBeBytes_toBeBytes part.value_fits] at length
  have stop : (front ++ part.bytes).length = front.length + 4 + (part.value.length + 3) / 4 * 4 := by
    have padded := part.padded
    simp only [Attribute.bytes, toBeBytes, length_append, length_cons, length_nil]
    omega
  rw [walk, if_pos (by rw [← append_assoc, length_append, stop]; omega), stop]
  simp only [Attribute.bytes, toBeBytes, append_assoc, cons_append, nil_append, length_append,
    length_cons, length_nil] at kind length value ⊢
  rw [kind, Option.bind_some, length, Option.bind_some, value]

/-- Four bytes and a value that is there, in a message of whole words, are an attribute. -/
theorem attribute_head (a b c d : UInt8) (tail : List UInt8) (aligned : tail.length % 4 = 0)
    (there : fromBeBytes c d ≤ tail.length) :
    ∃ part : Attribute, ∃ rest, a :: b :: c :: d :: tail = part.bytes ++ rest ∧
      rest.length % 4 = 0 ∧ rest.length ≤ tail.length := by
  have value : (tail.take (fromBeBytes c d)).length = fromBeBytes c d :=
    length_take_of_le there
  let part : Attribute := {
    kind := fromBeBytes a b
    value := tail.take (fromBeBytes c d)
    padding := (tail.drop (fromBeBytes c d)).take
      ((fromBeBytes c d + 3) / 4 * 4 - fromBeBytes c d)
    kind_fits := fromBeBytes_fits a b
    value_fits := value.trans_lt (fromBeBytes_fits c d)
    padded := by
      rw [value, length_take_of_le (by rw [length_drop]; omega)]
      omega }
  refine ⟨part, tail.drop ((fromBeBytes c d + 3) / 4 * 4), ?_, ?_, ?_⟩
  · simp only [part, Attribute.bytes, value, toBeBytes_fromBeBytes, append_assoc, cons_append,
      nil_append, cons.injEq, true_and]
    rw [← append_assoc, ← take_add, Nat.add_sub_of_le (by omega), take_append_drop]
  · rw [length_drop]
    omega
  · rw [length_drop]
    exact Nat.sub_le _ _

/-- The walk ends without an index out of range, and what it finds is reached. -/
theorem walk_sound (front rest : List UInt8) (aligned : rest.length % 4 = 0) :
    ∃ result, walk (front ++ rest) transaction front.length = some result ∧
      ∀ address, result = some address → Reaches transaction address rest := by
  induction size : rest.length using Nat.strongRecOn generalizing front rest with | _ size ih
  match rest, aligned with
  | [], _ =>
    refine ⟨none, ?_, fun _ found => by cases found⟩
    rw [walk, if_neg (by simp)]
  | a :: b :: c :: d :: tail, aligned =>
    have words : tail.length % 4 = 0 := by
      simp only [length_cons] at aligned
      omega
    by_cases there : fromBeBytes c d ≤ tail.length
    · obtain ⟨part, rest, same, whole, short⟩ := attribute_head a b c d tail words there
      simp only [same, walk_append]
      obtain ⟨passed, goes⟩ | ⟨address, carries, use, stops⟩ | stops :=
        step_cases transaction part
      · obtain ⟨result, found, reached⟩ := ih rest.length
          (by simp only [← size, length_cons]; omega) (front ++ part.bytes) rest whole rfl
        rw [goes, ← append_assoc]
        exact ⟨result, found, fun address same => .later part rest passed (reached address same)⟩
      · rw [stops]
        refine ⟨_, rfl, fun _ same => ?_⟩
        cases same
        exact .here part rest carries use
      · rw [stops]
        exact ⟨_, rfl, fun _ same => by cases same⟩
    · have kind := readU16_append front (c :: d :: tail) a b
      have length : readU16 (front ++ a :: b :: c :: d :: tail) (front.length + 2) =
          some (fromBeBytes c d) := by
        simpa using readU16_append (front ++ [a, b]) tail c d
      refine ⟨none, ?_, fun _ found => by cases found⟩
      rw [walk, if_pos (by simp), kind, Option.bind_some, length, Option.bind_some, slice,
        if_neg (by simp; omega)]

theorem walk_reaches {rest : List UInt8} (reaches : Reaches transaction address rest)
    (front : List UInt8) : walk (front ++ rest) transaction front.length = some (some address) := by
  induction reaches generalizing front with
  | here found rest carries use => rw [walk_append, step_carries carries, if_pos use]
  | later before rest passed _ ih =>
    rw [walk_append, step_passedOver passed, ← append_assoc]
    exact ih _


/-! ### The datagram -/

theorem mapped_cons (a b c d e f g h : UInt8) (tail : List UInt8) :
    mapped (a :: b :: c :: d :: e :: f :: g :: h :: tail) transaction =
      if tail.length < 12 then some none
      else if [a, b] ≠ [1, 1] ∨ [e, f, g, h] ≠ cookie ∨ tail.take 12 ≠ transaction.toList then
        some none
      else if fromBeBytes c d % 4 ≠ 0 ∨ fromBeBytes c d ≠ tail.length - 12 then some none
      else walk (a :: b :: c :: d :: e :: f :: g :: h :: tail) transaction 20 := by
  by_cases short : tail.length < 12
  · rw [mapped, if_pos (by simp; omega), if_pos short]
  have word : (fromBeBytes c d ≠ tail.length - 12) ↔
      fromBeBytes c d + 20 ≠ tail.length + 8 := by omega
  have long : 12 ≤ tail.length := by omega
  simp [mapped, slice, readU16, short, long, word, Option.bind_eq_bind]

theorem mapped_response {attributes : List UInt8} (fits : attributes.length < 65536)
    (words : attributes.length % 4 = 0) :
    mapped (response transaction attributes) transaction =
      walk (response transaction attributes) transaction
        (header transaction attributes.length).length := by
  have start : (header transaction attributes.length).length = 20 := by
    simp [header, toBeBytes, cookie]
  have length := fromBeBytes_toBeBytes fits
  have tail : (transaction.toList ++ attributes).length = attributes.length + 12 := by
    rw [length_append, Vector.length_toList, Nat.add_comm]
  have front : (transaction.toList ++ attributes).take 12 = transaction.toList :=
    take_left' transaction.length_toList
  refine (mapped_cons _ _ _ _ _ _ _ _ (transaction.toList ++ attributes)).trans ?_
  rw [if_neg (by omega), if_neg (by simp [front, cookie]), length, if_neg (by omega),
    start]
  rfl

theorem mapped_read (bytes : List UInt8) (transaction : Transaction) :
    mapped bytes transaction = some none ∨ ∃ attributes, attributes.length < 65536 ∧
      attributes.length % 4 = 0 ∧ bytes = response transaction attributes := by
  by_cases short : bytes.length < 20
  · exact .inl (if_pos short)
  obtain ⟨front, tail, rfl, eight⟩ : ∃ front tail, bytes = front ++ tail ∧ front.length = 8 :=
    ⟨bytes.take 8, bytes.drop 8, (take_append_drop 8 bytes).symm, length_take_of_le (by omega)⟩
  match front, eight with
  | [a, b, c, d, e, f, g, h], _ =>
    have read := @mapped_cons transaction a b c d e f g h tail
    simp only [cons_append, nil_append, length_cons] at short ⊢
    rw [if_neg (by omega)] at read
    split at read
    · exact .inl read
    · next same =>
      split at read
      · exact .inl read
      · next fits =>
        push Not at same fits
        obtain ⟨start, magic, id⟩ := same
        have length : (tail.drop 12).length = fromBeBytes c d := by
          rw [length_drop]
          exact fits.2.symm
        refine .inr ⟨tail.drop 12, length ▸ fromBeBytes_fits c d, length ▸ fits.1, ?_⟩
        simp only [response, header, length, toBeBytes_fromBeBytes, ← start, ← magic, ← id,
          append_assoc, take_append_drop]
        rfl


/-! ### Messages of attributes -/

theorem bytes_words (parts : List Attribute) :
    (parts.flatMap Attribute.bytes).length % 4 = 0 := by
  induction parts with
  | nil => rfl
  | cons part parts ih =>
    have padded := part.padded
    simp only [flatMap_cons, Attribute.bytes, toBeBytes, length_append, length_cons, length_nil]
    omega

theorem reaches_behind {before : List Attribute} {rest : List UInt8}
    (passed : ∀ part ∈ before, part.PassedOver transaction)
    (reaches : Reaches transaction address rest) :
    Reaches transaction address (before.flatMap Attribute.bytes ++ rest) := by
  induction before with
  | nil => exact reaches
  | cons part before ih =>
    rw [flatMap_cons, append_assoc]
    exact .later part _ (passed part mem_cons_self)
      (ih fun part member => passed part (mem_cons_of_mem _ member))

/-- No index is out of range. An address is returned exactly from a binding success
response to the transaction whose attributes reach it. A usable address that is sent in
the standard encoding behind attributes that are passed over is read back. -/
theorem mapped_iff (bytes : List UInt8) (transaction : Transaction) :
    (∃ result, mapped bytes transaction = some result) ∧
    (∀ address, mapped bytes transaction = some (some address) ↔
      ∃ attributes, attributes.length < 65536 ∧ attributes.length % 4 = 0 ∧
        bytes = response transaction attributes ∧ Reaches transaction address attributes) ∧
    ∀ before found after address, (∀ part ∈ before, Attribute.PassedOver part transaction) →
      Attribute.Carries found transaction address → usable address →
      let message := (before ++ found :: after).flatMap Attribute.bytes
      message.length < 65536 →
      mapped (response transaction message) transaction = some (some address) := by
  have found {attributes address} (fits : attributes.length < 65536)
      (words : attributes.length % 4 = 0) (reaches : Reaches transaction address attributes) :
      mapped (response transaction attributes) transaction = some (some address) := by
    rw [mapped_response fits words]
    exact walk_reaches reaches _
  refine ⟨?_, fun address => ⟨fun returned => ?_, ?_⟩, ?_⟩
  · obtain refused | ⟨attributes, fits, words, rfl⟩ := mapped_read bytes transaction
    · exact ⟨none, refused⟩
    · obtain ⟨result, walked, _⟩ := walk_sound (header transaction attributes.length) attributes words
      exact ⟨result, (mapped_response fits words).trans walked⟩
  · obtain refused | ⟨attributes, fits, words, rfl⟩ := mapped_read bytes transaction
    · cases refused.symm.trans returned
    · obtain ⟨result, walked, reached⟩ :=
        walk_sound (header transaction attributes.length) attributes words
      rw [mapped_response fits words] at returned
      exact ⟨attributes, fits, words, rfl,
        reached address (Option.some.inj (walked.symm.trans returned))⟩
  · rintro ⟨attributes, fits, words, rfl, reaches⟩
    exact found fits words reaches
  · intro before part after address passed carries use message fits
    refine found fits (bytes_words _) ?_
    simp only [message, flatMap_append, flatMap_cons]
    exact reaches_behind passed (.here _ _ carries use)

def unnumbered : SocketAddr := ⟨.v4 ⟨192, 0, 2, 1⟩, 0⟩

/-- The standard encoding of an address without a port. -/
def sent : Attribute where
  kind := 0x0020
  value := xorMapped (.replicate 12 7) unnumbered
  padding := []
  kind_fits := by decide
  value_fits := by decide
  padded := by decide

theorem mapped_unnumbered :
    sent.Carries (.replicate 12 7) unnumbered ∧
      mapped (response (.replicate 12 7) sent.bytes) (.replicate 12 7) = some none := by
  have carries : sent.Carries (.replicate 12 7) unnumbered := ⟨rfl, rfl, by decide⟩
  have walked := @walk_append (.replicate 12 7) (header (.replicate 12 7) 12) [] sent
  rw [step_carries carries, if_neg (by decide), append_nil] at walked
  refine ⟨carries, (mapped_response (by decide) (by decide)).trans (walked.trans ?_)⟩
  rw [walk, if_neg (by decide)]

end
end Chuzz.Webrtc.Gather
