import Chuzz.Library.Transition

/-! The cookie persistence worker. Publishers and the writer meet under one lock;
what the writer does outside it (a write of the table, a flush, a timeout) is a
step of its own, so a run interleaves them freely. The table's answers come from
outside: each write and each flush reports an error or none. Notifications may
arrive at any time. -/
namespace Chuzz.Cookies
open Library.Transition

def requestLimit : Nat := 128
def generationLimit : Nat := 2 ^ 64

/-- A snapshot of the durable jar; `number` is the generation that it was enqueued
with and tells equal texts apart. -/
structure Snapshot where
  number : Nat
  text : String
deriving DecidableEq, Repr

/-- `newest` is a ghost: the last snapshot enqueued when the command was made. -/
structure Command where
  snapshot : Option Snapshot
  close : Bool
  newest : Option Snapshot
deriving DecidableEq, Repr

structure Pending where
  queue : List Command := []
  snapshot : Option Snapshot := none
  generation : Nat := 0
  isOpen : Bool := true
deriving DecidableEq, Repr

inductive Action where
  | command (command : Command)
  | snapshot (snapshot : Snapshot)
  | debounce (generation : Nat)
  | wait
  | close
deriving DecidableEq, Repr

/-- Where `run_persistence` is: before the lock, or in what an action does after it.
A command is recorded first and answered then. -/
inductive Writer where
  | choosing
  | acting (action : Action)
  | answering (command : Command)
  | stopped
deriving DecidableEq, Repr

structure Written where
  snapshot : Snapshot
  error : Option String
deriving DecidableEq, Repr

structure Answer where
  command : Command
  result : Except String Unit
  written : List Written

/-- `written`, `enqueued` and `answers` are histories; the writer and the publishers
read none of them. -/
structure Persistence where
  pending : Pending := {}
  writer : Writer := .choosing
  firstError : Option String := none
  dueGeneration : Option Nat := none
  enqueued : List Snapshot := []
  written : List Written := []
  answers : List Answer := []

inductive Event where
  | enqueue (text : String)
  | request (close : Bool)
  | drop
  | choose
  | record (error : Option String)
  | answer (result : Except String Unit)
  | debounced (timedOut : Bool)
  | woken
  | closed

namespace Persistence

/-- A generation that is exhausted panics before anything is changed. -/
def enqueue (self : Persistence) (text : String) : Except String Persistence :=
  if self.pending.isOpen = false then .error "cookie persistence worker stopped"
  else if self.pending.generation + 1 = generationLimit then
    .error "cookie snapshot generation exhausted"
  else
    let snapshot := { number := self.pending.generation + 1, text }
    .ok { self with
      pending := { self.pending with
        generation := self.pending.generation + 1
        snapshot := some snapshot }
      enqueued := self.enqueued ++ [snapshot] }

def request (self : Persistence) (close : Bool) : Except String Persistence :=
  if self.pending.isOpen = false then .error "cookie persistence worker stopped"
  else if self.pending.queue.length = requestLimit then
    .error "cookie persistence request queue is full"
  else
    let command :=
      { snapshot := self.pending.snapshot, close, newest := self.enqueued.getLast? }
    .ok { self with
      pending := { self.pending with
        queue := self.pending.queue ++ [command]
        snapshot := none
        isOpen := self.pending.isOpen && !close } }

/-- The choice of `run_persistence`, made under the lock. -/
def action (pending : Pending) (dueGeneration : Option Nat) : Pending × Action :=
  match pending.queue with
  | command :: queue => ({ pending with queue }, .command command)
  | [] =>
    match pending.snapshot with
    | some snapshot =>
      if pending.isOpen = false ∨ dueGeneration = some pending.generation then
        ({ pending with snapshot := none }, .snapshot snapshot)
      else (pending, .debounce pending.generation)
    | none => (pending, if pending.isOpen then .wait else .close)

/-- `record_durable_snapshot`, with the outcome of `apply_durable_snapshot`. -/
def recordDurableSnapshot (self : Persistence) (snapshot : Option Snapshot)
    (error : Option String) : Persistence :=
  match snapshot with
  | none => self
  | some snapshot =>
    { self with
      firstError := if self.firstError.isNone then error else self.firstError
      written := self.written ++ [{ snapshot, error }] }

def answer (self : Persistence) (command : Command) (result : Except String Unit) :
    Persistence :=
  let result := match self.firstError with
    | none => result
    | some error => .error error
  { self with
    writer := if command.close then .stopped else .choosing
    dueGeneration := none
    answers := self.answers ++ [{ command, result, written := self.written }] }

/-- A call that fails, and an event that the writer does not wait for, change nothing. -/
def perform (self : Persistence) : Event → Persistence
  | .enqueue text => (self.enqueue text).toOption.getD self
  | .request close => (self.request close).toOption.getD self
  | .drop => { self with pending := { self.pending with isOpen := false } }
  | .choose =>
    match self.writer with
    | .choosing =>
      let (pending, action) := action self.pending self.dueGeneration
      { self with pending, writer := .acting action }
    | _ => self
  | .record error =>
    match self.writer with
    | .acting (.command command) =>
      { self.recordDurableSnapshot command.snapshot error with writer := .answering command }
    | .acting (.snapshot snapshot) =>
      { self.recordDurableSnapshot (some snapshot) error with
        writer := .choosing
        dueGeneration := none }
    | _ => self
  | .answer result =>
    match self.writer with
    | .answering command => self.answer command result
    | _ => self
  | .debounced timedOut =>
    match self.writer with
    | .acting (.debounce generation) =>
      { self with
        writer := .choosing
        dueGeneration := if timedOut then some generation else none }
    | _ => self
  | .woken =>
    match self.writer with
    | .acting .wait => { self with writer := .choosing }
    | _ => self
  | .closed =>
    match self.writer with
    | .acting .close => { self with writer := .stopped }
    | _ => self

end Persistence
end Chuzz.Cookies
