import Chuzz.Library.Transition
import Chuzz.Library.TreeMapValues

/-! The byte table of a WebGPU document. A block is staged by the page or by a
reply, claimed by a command, and active while the command that took it runs; its
bytes are charged once, wherever it is. Every method is one critical section; a
lease discards its handles in one section each and is gone after the last. -/
namespace Chuzz.Gpu
open Std Library.TreeMapValues

def tableBytesLimit : Nat := 512 * 1024 * 1024
def allocationLimit : Nat := 64 * 1024 * 1024
def resourceLimit : Nat := 8192
def maxId : Nat := 9007199254740991

inductive Block where
  | buffer (bytes : List UInt8)
  | image (pixels : List UInt8)

def Block.data : Block → List UInt8
  | .buffer bytes => bytes
  | .image pixels => pixels

structure Entry where
  block : Block
  input : Bool
  claimed : Bool

def Entry.size (self : Entry) : Nat := self.block.data.length

/-- `allocated` is a `u64`. -/
structure Entries where
  nextId : Nat := 0
  allocated : Nat := 0
  closed : Bool := false
  values : ExtTreeMap Nat Entry := ∅
  active : ExtTreeMap Nat Nat := ∅

inductive GpuError where
  | internal (message : String)
  | outOfMemory (message : String)
  | validation (message : String)
deriving DecidableEq, Repr

/-- The byte handles of a `source` argument and its kind. -/
structure Source where
  kind : Option String
  data : Option Nat

/-- A command with the arguments that can carry byte handles, decoded. -/
structure Command where
  op : String
  data : Option Nat := none
  ranges : List (Option Nat) := []
  source : Option Source := none

def Command.byteIds (self : Command) : List Nat :=
  if self.op ∈ ["writeBuffer", "writeTexture"] then self.data.toList
  else if self.op = "unmap" then self.ranges.filterMap id
  else if self.op ∈ ["createImageBitmap", "copyExternalImageToTexture", "paintImage"] then
    match self.source with
    | some source => if source.kind ∈ [some "pixels", some "encoded"] then source.data.toList else []
    | none => []
  else []

namespace Entries

/-- `allocated -= size` on `u64`. -/
def refund (self : Entries) (size : Nat) : Entries :=
  { self with allocated := (self.allocated + (2 ^ 64 - size)) % 2 ^ 64 }

def count (self : Entries) : Nat :=
  (Library.TreeMapValues.values self.values).length +
    (Library.TreeMapValues.values self.active).length

def reserve (self : Entries) (size : Nat) : Except GpuError (Entries × Nat) :=
  if self.closed then .error (.internal "byte document was destroyed")
  else if size > allocationLimit ∨ self.allocated + size > tableBytesLimit ∨
      self.count ≥ resourceLimit ∨ self.nextId ≥ maxId then
    .error (.outOfMemory "WebGPU transfer limit reached in chuzz")
  else .ok ({ self with nextId := self.nextId + 1, allocated := self.allocated + size },
    self.nextId + 1)

def insert (self : Entries) (block : Block) (input : Bool) : Except GpuError (Entries × Nat) :=
  match self.reserve block.data.length with
  | .error error => .error error
  | .ok (entries, id) =>
    .ok ({ entries with values := entries.values.insert id { block, input, claimed := false } }, id)

def upload (self : Entries) (bytes : List UInt8) : Except GpuError (Entries × Nat) :=
  self.insert (.buffer bytes) true

def remove (self : Entries) (id : Nat) : Entries :=
  match self.values[id]? with
  | none => self
  | some entry => { self with values := self.values.erase id }.refund entry.size

def discard (self : Entries) (id : Nat) : Entries :=
  let self := self.remove id
  match self.active[id]? with
  | none => self
  | some size => { self with active := self.active.erase id }.refund size

/-- `entries.values.get(&id).is_some_and(|entry| ..)` -/
def has (self : Entries) (id : Nat) (test : Entry → Bool) : Bool := self.values[id]?.any test

def releaseStaged (self : Entries) (id : Nat) : Entries :=
  if self.has id (!·.claimed) then self.remove id else self

def claimable (entry : Entry) : Bool := entry.input && !entry.claimed

/-- Marks one handle as claimed. -/
def mark (self : Entries) (id : Nat) : Entries :=
  match self.values[id]? with
  | none => self
  | some entry => { self with values := self.values.insert id { entry with claimed := true } }

/-- The claim of a command: its handles are all marked, or all released. -/
def claim (self : Entries) (command : Command) : Entries × Except GpuError (List Nat) :=
  let ids := command.byteIds
  if ids.Nodup ∧ ids.all (self.has · claimable) then (ids.foldl mark self, .ok ids)
  else
    (ids.foldl (fun self id => if self.has id claimable then self.remove id else self) self,
      .error (.validation "invalid or reused WebGPU byte handle"))

def takeInput (self : Entries) (id : Nat) : Entries × Except GpuError (List UInt8) :=
  match self.values[id]? with
  | none => (self, .error (.validation "invalid or consumed WebGPU byte handle"))
  | some entry =>
    if entry.input && entry.claimed then
      let taken := { self with values := self.values.erase id }
      match entry.block with
      | .image _ => (taken.refund entry.size, .error (.validation "invalid WebGPU upload"))
      | .buffer bytes => ({ taken with active := taken.active.insert id entry.size }, .ok bytes)
    else (self, .error (.validation "invalid or consumed WebGPU byte handle"))

def takeOutput (self : Entries) (id : Nat) : Entries × Except GpuError Block :=
  match self.values[id]? with
  | none => (self, .error (.validation "invalid or consumed WebGPU readback"))
  | some entry =>
    if entry.input then (self, .error (.validation "invalid or consumed WebGPU readback"))
    else (self.remove id, .ok entry.block)

def close (self : Entries) : Entries :=
  { self with closed := true, values := ∅, active := ∅, allocated := 0 }

end Entries

/-- A document: its table and its command leases, each with the handles that it
has not discarded yet. `issued` and `handed` are ghosts: the handles returned so
far, and those whose bytes `take_input` has handed out. -/
structure Document where
  entries : Entries := {}
  leases : List (List Nat) := []
  issued : List Nat := []
  handed : List Nat := []

inductive Op where
  | upload (bytes : List UInt8)
  | insert (block : Block) (input : Bool)
  | claim (command : Command)
  | takeInput (id : Nat)
  | takeOutput (id : Nat)
  | releaseStaged (id : Nat)
  | releaseReply (id : Nat)
  | discardNext (lease : Nat)
  | close

namespace Document

def issue (self : Document) : Except GpuError (Entries × Nat) → Document
  | .error _ => self
  | .ok (entries, id) => { self with entries, issued := id :: self.issued }

/-- One step in the drop of a lease: the next handle is discarded, or the lease
is gone. -/
def discardNext (self : Document) (lease : Nat) : Document :=
  match self.leases[lease]? with
  | none => self
  | some [] => { self with leases := self.leases.eraseIdx lease }
  | some (id :: rest) =>
    { self with entries := self.entries.discard id, leases := self.leases.set lease rest }

def perform (self : Document) : Op → Document
  | .upload bytes => self.issue (self.entries.upload bytes)
  | .insert block input => self.issue (self.entries.insert block input)
  | .claim command =>
    match self.entries.claim command with
    | (entries, .ok ids) => { self with entries, leases := ids :: self.leases }
    | (entries, .error _) => { self with entries }
  | .takeInput id =>
    match self.entries.takeInput id with
    | (entries, .ok _) => { self with entries, handed := id :: self.handed }
    | (entries, .error _) => { self with entries }
  | .takeOutput id => { self with entries := (self.entries.takeOutput id).1 }
  | .releaseStaged id => { self with entries := self.entries.releaseStaged id }
  | .releaseReply id => { self with entries := self.entries.discard id }
  | .discardNext lease => self.discardNext lease
  | .close => { self with entries := self.entries.close }

def step (before : Document) (op : Op) (after : Document) : Prop := before.perform op = after

abbrev Reached : Document → Prop :=
  Library.Transition.Reachable (fun document => document = {}) step

end Document
end Chuzz.Gpu
