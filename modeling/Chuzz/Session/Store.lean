import Mathlib

/-! The native session store of one document and the sealed bucket that its pairs
sleep in. A text and a table keep their capacities, which is what quotas charge. A
page's string reports a size of its own choosing before it is read, a table's
capacity grows by a rule of the allocator, and the fixed part of a bucket has a
size of its own: these are parameters. -/
namespace Chuzz.Session

structure Platform where
  /-- The upper size hint of a page string's iterator. -/
  hint : List UInt16 → Option Nat
  /-- The next capacity of a full table. -/
  grow : Nat → Nat
  grows : ∀ capacity, capacity < grow capacity
  /-- The size of a bucket and of its two counters, without its pairs. -/
  bucketSize : Nat

structure Text where
  units : List UInt16
  capacity : Nat
  fits : units.length ≤ capacity

namespace Text

def capture (hint : Option Nat) (units : List UInt16) (limit : Nat) : Option Text :=
  let capacity := min (hint.getD (limit / 2)) (limit / 2)
  if fits : units.length ≤ capacity then some { units, capacity, fits } else none

def allocatedBytes (self : Text) : Nat := self.capacity * 2

end Text

structure SessionPair where
  key : Text
  value : Text

def SessionPair.allocatedBytes (self : SessionPair) : Nat :=
  self.key.allocatedBytes + self.value.allocatedBytes

def SessionPair.content (self : SessionPair) : List UInt16 × List UInt16 :=
  (self.key.units, self.value.units)

/-- `size_of::<SessionPair>()`, two vectors of three words. -/
def pairSize : Nat := 48

theorem no_pairs : ([] : List SessionPair).length ≤ 0 := Nat.le.refl

/-- A growable table of pairs. -/
structure Pairs where
  list : List SessionPair := []
  capacity : Nat := 0
  fits : list.length ≤ capacity := by exact no_pairs

namespace Pairs

def push (platform : Platform) (self : Pairs) (pair : SessionPair) : Pairs where
  list := self.list ++ [pair]
  capacity := if self.list.length = self.capacity then platform.grow self.capacity
    else self.capacity
  fits := by
    have fits := self.fits
    have grows := platform.grows self.capacity
    rw [List.length_append, List.length_singleton]
    split <;> omega

def replace (self : Pairs) (index : Nat) (pair : SessionPair) : Pairs where
  list := self.list.set index pair
  capacity := self.capacity
  fits := by rw [List.length_set]; exact self.fits

def retain (self : Pairs) (keep : SessionPair → Bool) : Pairs where
  list := self.list.filter keep
  capacity := self.capacity
  fits := (List.length_filter_le _ _).trans self.fits

def clear (self : Pairs) : Pairs where
  capacity := self.capacity
  fits := Nat.zero_le _

/-- Collecting pairs allocates exactly what they need. -/
def collect (list : List SessionPair) : Pairs where
  list := list
  capacity := list.length
  fits := Nat.le_refl _

def contents (self : Pairs) : List (List UInt16 × List UInt16) :=
  self.list.map SessionPair.content

/-- `SessionBucket::allocated_bytes` -/
def allocatedBytes (self : Pairs) : Nat :=
  self.capacity * pairSize + (self.list.map SessionPair.allocatedBytes).sum

end Pairs

inductive Origin where
  | opaqueOrigin (id : Nat)
  | tuple (scheme host : String) (port : Nat)
deriving DecidableEq, Repr

def Origin.isTuple : Origin → Bool
  | .tuple .. => true
  | .opaqueOrigin _ => false

structure SleepingBudget where
  used : Nat
  cap : Nat

/-- The budget and what it charged. -/
def SleepingBudget.reserve (self : SleepingBudget) (bytes : Nat) :
    Except String SleepingBudget :=
  if self.used + bytes ≤ self.cap then .ok { self with used := self.used + bytes }
  else .error "sleeping-tab-budget"

/-- Every bucket has passed the checks of `seal`. -/
structure SessionBucket where
  origin : Origin
  pairs : Pairs
  count : pairs.list.length ≤ 256
  bounded : ∀ pair ∈ pairs.list,
    pair.key.allocatedBytes ≤ 2048 ∧ pair.value.allocatedBytes ≤ 8 * 1024

def SessionBucket.seal (platform : Platform) (budget : SleepingBudget) (origin : Origin)
    (pairs : Pairs) : Except String (SleepingBudget × SessionBucket) :=
  if checked : origin.isTuple = true ∧ pairs.list.length ≤ 256 ∧ ∀ pair ∈ pairs.list,
      pair.key.allocatedBytes ≤ 2048 ∧ pair.value.allocatedBytes ≤ 8 * 1024 then
    if pairs.allocatedBytes > 32 * 1024 then .error "stash-session-budget"
    else do
      let budget ← budget.reserve (pairs.allocatedBytes + platform.bucketSize)
      return (budget, { origin, pairs, count := checked.2.1, bounded := checked.2.2 })
  else .error "stash-session-budget"

structure Store where
  origin : Origin
  backing : Option SessionBucket := none
  entries : Pairs := {}
  sensitive : List Text := []
  noStash : Bool := false

inductive Call where
  | setItem (key value : List UInt16)
  | removeItem (key : List UInt16)
  | clear
  | markSensitive (key : List UInt16)
deriving DecidableEq, Repr

namespace Store

def pairs (self : Store) : List SessionPair :=
  match self.backing with
  | some bucket => bucket.pairs.list
  | none => self.entries.list

/-- A copy of a text of a shared bucket; too long a text panics. -/
def copyPair (pair : SessionPair) : Option SessionPair := do
  let key ← Text.capture (some pair.key.units.length) pair.key.units 2048
  let value ← Text.capture (some pair.value.units.length) pair.value.units 8192
  return { key, value }

/-- `make_mut`; `shared` tells whether another owner holds the bucket. None is the
panic of a text that is not bounded. -/
def makeMut (self : Store) (shared : Bool) : Option Store :=
  match self.backing with
  | none => some self
  | some bucket =>
    if shared then do
      let list ← bucket.pairs.list.mapM copyPair
      return { self with backing := none, entries := .collect list }
    else some { self with backing := none, entries := bucket.pairs }

def isSensitive (self : Store) (pair : SessionPair) : Bool :=
  self.sensitive.any fun key => key.units = pair.key.units

/-- What `setItem` does with a key and a value that are short enough. -/
def set (platform : Platform) (self : Store) (key value : Text) : Store × Except String Unit :=
  let others := self.entries.list.filter (·.key.units ≠ key.units)
  let bytes := (others.map SessionPair.allocatedBytes).sum
  let replacing := self.entries.list.findIdx? (·.key.units = key.units)
  if bytes + key.allocatedBytes + value.allocatedBytes > 24 * 1024 ∨
      replacing.isNone ∧ self.entries.list.length ≥ 256 then
    (self, .error "RangeError: sessionStorage quota exceeded")
  else
    match replacing with
    | some index => ({ self with entries := self.entries.replace index { key, value } }, .ok ())
    | none => ({ self with entries := self.entries.push platform { key, value } }, .ok ())

/-- `session`, for the calls that change the store. None is a panic. -/
def call (platform : Platform) (self : Store) (shared : Bool) :
    Call → Option (Store × Except String Unit)
  | .clear => some ({ self with backing := none, entries := self.entries.clear }, .ok ())
  | .markSensitive key =>
    match Text.capture (platform.hint key) key 2048 with
    | none => some (self, .error "RangeError: sessionStorage quota exceeded")
    | some key =>
      if self.sensitive.any (·.units = key.units) then some (self, .ok ())
      else if self.sensitive.length ≥ 256 then some ({ self with noStash := true }, .ok ())
      else some ({ self with sensitive := self.sensitive ++ [key] }, .ok ())
  | .removeItem key =>
    match Text.capture (platform.hint key) key 2048 with
    | none => some (self, .error "RangeError: sessionStorage quota exceeded")
    | some key => do
      let store ← self.makeMut shared
      return ({ store with entries := store.entries.retain (·.key.units ≠ key.units) }, .ok ())
  | .setItem key value =>
    match Text.capture (platform.hint key) key 2048,
      Text.capture (platform.hint value) value 8192 with
    | some key, some value => do
      let store ← self.makeMut shared
      return store.set platform key value
    | _, _ => some (self, .error "RangeError: sessionStorage quota exceeded")

/-- The table that `capture` seals: the store's own pairs, less the sensitive ones. -/
def retained (self : Store) (shared : Bool) : Option Pairs := do
  let store ← self.makeMut shared
  return store.entries.retain fun pair => !store.isSensitive pair

/-- `capture`: the store that is left, the budget and the bucket, if there is one. -/
def capture (platform : Platform) (self : Store) (shared : Bool) (budget : SleepingBudget) :
    Option (Store × SleepingBudget × Option SessionBucket) :=
  if self.noStash then
    some ({ self with backing := none, entries := self.entries.clear }, budget, none)
  else if self.sensitive.isEmpty && self.backing.isSome then
    some ({ self with backing := none }, budget, self.backing)
  else do
    let pairs ← self.retained shared
    let left := { self with backing := none, entries := {} }
    match SessionBucket.seal platform budget self.origin pairs with
    | .ok (budget, bucket) => return (left, budget, some bucket)
    | .error _ => return (left, budget, none)

end Store
end Chuzz.Session
