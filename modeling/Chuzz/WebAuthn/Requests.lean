import Chuzz.Library.Transition
import Chuzz.Library.TreeMapValues

/-! The table of credential requests and the completion rings that deliver them. Each
step is one section under one lock: the table's, a job's result's or a ring's. A
compaction holds its ring while it looks at one old entry after the other, and a status
holds the table between its two looks at a job; what other threads can do meanwhile are
steps in between. Deadlines may pass at any time. -/
namespace Chuzz.WebAuthn
open Std

def requestLimit : Nat := 64
def ringLimit : Nat := 128

inductive Outcome where
  | ok (value : String)
  | error (name : String)
deriving DecidableEq, Repr

def denied : Outcome := .error "NotAllowedError"

/-- How far the worker or the deadline task of a job is. `idle` is before it is spawned;
a task that completes the job goes through the last four. -/
inductive Task where
  | idle
  | running
  | completing (outcome : Outcome)
  | enqueueing
  | compacting
  | finished
deriving DecidableEq, Repr

inductive Party where
  | worker
  | timer
deriving DecidableEq, Repr

/-- `notifications` names the ring of the job's document. -/
structure Job where
  owner : Nat
  notifications : Nat
  discarded : Bool := false
  result : Option Outcome := none
  worker : Task := .idle
  timer : Task := .idle
deriving DecidableEq, Repr

def Job.task (self : Job) : Party → Task
  | .worker => self.worker
  | .timer => self.timer

def Job.setTask (self : Job) (party : Party) (task : Task) : Job :=
  match party with
  | .worker => { self with worker := task }
  | .timer => { self with timer := task }

def Job.setResult (self : Job) (outcome : Outcome) : Job := { self with result := some outcome }

/-- What stands for a job that was never made; nothing can happen to it. -/
def Job.absent : Job :=
  { owner := 0, notifications := 0, discarded := true, worker := .finished, timer := .finished }

/-- A compaction in progress, for the job that found the ring full. -/
structure Compaction where
  job : Nat
  party : Party
  live : List Nat := []
deriving DecidableEq, Repr

structure Ring where
  queue : List Nat := []
  closed : Bool := false
  compaction : Option Compaction := none
deriving DecidableEq, Repr

/-- `checking` is a status that holds the table, `taken` the entries that `take` has
drained and not looked up yet. `answers` is a history of who was told the end of which
request; a status that finds no request of its caller refuses and ends none. -/
structure Requests where
  nextId : Nat := 1
  active : Option Nat := none
  jobs : List Nat := []
  heap : ExtTreeMap Nat Job := ∅
  rings : ExtTreeMap Nat Ring := ∅
  checking : Option (Nat × Nat) := none
  taken : List (Nat × List Nat) := []
  answers : List (Nat × Nat) := []
  violated : Bool := false

inductive Step where
  | begin (owner notifications : Nat)
  | launch (id : Nat) (spawned : Bool)
  | finish (id : Nat) (outcome : Outcome)
  | expire (id : Nat)
  | notified (id : Nat)
  | complete (id : Nat) (party : Party) (upgraded : Bool)
  | enqueue (id : Nat) (party : Party)
  | inspect (ring : Nat)
  | settle (ring : Nat)
  | status (owner id : Nat)
  | statusEnds (late : Bool)
  | abort (owner id : Nat)
  | releaseRealm (owner : Nat)
  | drain (owner ring : Nat)
  | collect
  | close (ring : Nat)
deriving DecidableEq, Repr

namespace Requests

def job (self : Requests) (id : Nat) : Job := (self.heap[id]?).getD .absent

def setJob (self : Requests) (id : Nat) (job : Job) : Requests :=
  { self with heap := self.heap.insert id job }

def ring (self : Requests) (id : Nat) : Ring := (self.rings[id]?).getD {}

def setRing (self : Requests) (id : Nat) (ring : Ring) : Requests :=
  { self with rings := self.rings.insert id ring }

/-- The request ends: it leaves the table, and `recipient` is told. -/
def answer (self : Requests) (id recipient : Nat) (job : Job) : Requests :=
  { self.setJob id job with
    jobs := self.jobs.erase id
    answers := self.answers ++ [(id, recipient)] }

def begin (self : Requests) (owner notifications : Nat) : Requests :=
  if self.active.isSome ∨ self.jobs.length ≥ requestLimit then self
  else
    { self.setJob self.nextId { owner, notifications } with
      nextId := self.nextId + 1
      active := some self.nextId
      jobs := self.nextId :: self.jobs }

def clear (self : Requests) (id : Nat) : Option Nat :=
  if self.active = some id then none else self.active

/-- Both tasks are spawned, or the request is undone. -/
def launch (self : Requests) (id : Nat) (spawned : Bool) : Requests :=
  let job := self.job id
  if job.worker ≠ .idle then self
  else if spawned then self.setJob id { job with worker := .running, timer := .running }
  else
    { self.setJob id { job with worker := .finished, timer := .finished } with
      active := self.clear id
      jobs := self.jobs.erase id }

/-- The worker is back from the authenticator. -/
def finish (self : Requests) (id : Nat) (outcome : Outcome) : Requests :=
  let job := self.job id
  if job.worker ≠ .running then self
  else
    { self.setJob id { job with worker := .completing outcome } with
      active := self.clear id
      jobs := if job.discarded then self.jobs.erase id else self.jobs }

/-- The first section of `complete`; `upgraded` tells whether the document still has
its ring. -/
def complete (self : Requests) (id : Nat) (party : Party) (upgraded : Bool) : Requests :=
  let job := self.job id
  match job.task party with
  | .completing outcome =>
    if job.result.isSome ∨ job.discarded then self.setJob id (job.setTask party .finished)
    else
      let task := if upgraded then .enqueueing else .finished
      self.setJob id ((job.setResult outcome).setTask party task)
  | _ => self

/-- `Notifications::enqueue`, up to a full ring. -/
def enqueue (self : Requests) (id : Nat) (party : Party) : Requests :=
  let job := self.job id
  let ring := self.ring job.notifications
  if job.task party ≠ .enqueueing ∨ ring.compaction.isSome then self
  else if ring.closed then self.setJob id (job.setTask party .finished)
  else if ring.queue.length < ringLimit then
    (self.setRing job.notifications { ring with queue := ring.queue ++ [id] }).setJob id
      (job.setTask party .finished)
  else
    (self.setRing job.notifications { ring with compaction := some { job := id, party } }).setJob id
      (job.setTask party .compacting)

def isLive (self : Requests) (id : Nat) : Bool :=
  !(self.job id).discarded && (self.job id).result.isSome

/-- One turn of the loop over the old entries. -/
def inspect (self : Requests) (id : Nat) : Requests :=
  let ring := self.ring id
  match ring.compaction, ring.queue with
  | some compaction, old :: queue =>
    let live := if self.isLive old then compaction.live ++ [old] else compaction.live
    self.setRing id { ring with queue, compaction := some { compaction with live } }
  | _, _ => self

/-- The live entries and the new one go back. There may be too many, which panics. -/
def settle (self : Requests) (id : Nat) : Requests :=
  let ring := self.ring id
  match ring.compaction, ring.queue with
  | some compaction, [] =>
    let done := (self.job compaction.job).setTask compaction.party .finished
    if compaction.live.length < ringLimit then
      (self.setRing id
        { ring with queue := compaction.live ++ [compaction.job], compaction := none }).setJob
          compaction.job done
    else
      { (self.setRing id { ring with queue := compaction.live, compaction := none }).setJob
          compaction.job done with violated := true }
  | _, _ => self

/-- `status`, up to a job without a result. -/
def status (self : Requests) (owner id : Nat) : Requests :=
  let job := self.job id
  if id ∉ self.jobs ∨ job.owner ≠ owner then self
  else if job.result.isSome then self.answer id owner { job with result := none }
  else { self with checking := some (owner, id) }

def statusEnds (self : Requests) (late : Bool) : Requests :=
  match self.checking with
  | none => self
  | some (owner, id) =>
    if late then { self.answer id owner { self.job id with discarded := true } with checking := none }
    else { self with checking := none }

def discard (self : Requests) (id : Nat) : Requests :=
  { self.setJob id { self.job id with discarded := true } with jobs := self.jobs.erase id }

def abort (self : Requests) (owner id : Nat) : Requests :=
  if id ∈ self.jobs ∧ (self.job id).owner = owner then self.discard id else self

def releaseRealm (self : Requests) (owner : Nat) : Requests :=
  (self.jobs.filter fun id => (self.job id).owner = owner).foldl discard self

/-- One entry of `take`. -/
def takeOne (owner : Nat) (self : Requests) (id : Nat) : Requests :=
  let job := self.job id
  if job.owner = owner ∧ id ∈ self.jobs ∧ job.result.isSome then
    self.answer id owner { job with result := none }
  else self

def collect (self : Requests) : Requests :=
  match self.taken with
  | [] => self
  | (owner, ids) :: taken => ids.foldl (takeOne owner) { self with taken }

/-- Sections of the table wait for the status that holds it. -/
def locked (self : Requests) (after : Requests) : Requests :=
  if self.checking.isSome then self else after

def perform (self : Requests) : Step → Requests
  | .begin owner notifications => self.locked (self.begin owner notifications)
  | .launch id spawned =>
    if spawned then self.launch id true else self.locked (self.launch id false)
  | .finish id outcome => self.locked (self.finish id outcome)
  | .expire id =>
    let job := self.job id
    if job.timer = .running then self.setJob id { job with timer := .completing denied } else self
  | .notified id =>
    let job := self.job id
    if job.timer = .running then self.setJob id { job with timer := .finished } else self
  | .complete id party upgraded => self.complete id party upgraded
  | .enqueue id party => self.enqueue id party
  | .inspect id => self.inspect id
  | .settle id => self.settle id
  | .status owner id => self.locked (self.status owner id)
  | .statusEnds late => self.statusEnds late
  | .abort owner id => self.locked (self.abort owner id)
  | .releaseRealm owner => self.locked (self.releaseRealm owner)
  | .drain owner id =>
    let ring := self.ring id
    if ring.compaction.isSome then self
    else
      { self.setRing id { ring with queue := [] } with
        taken := self.taken ++ [(owner, ring.queue)] }
  | .collect => self.locked self.collect
  | .close id =>
    let ring := self.ring id
    if ring.compaction.isSome then self
    else self.setRing id { ring with queue := [], closed := true }

end Requests
end Chuzz.WebAuthn
