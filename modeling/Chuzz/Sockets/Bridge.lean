import Chuzz.Library.Transition
import Chuzz.Library.TreeMapValues

/-! The page's `WebSocket` objects and the native bridge below them. Commands go down
through a queue, which may also lose one; connection tasks post events, which the
document takes in batches and delivers one at a time. The page runs between any two
steps, so what a handler does during a delivery is a call right after it. Which close
codes can be sent is the transport's own rule, a parameter. -/
namespace Chuzz.Sockets
open Std

inductive Event where
  | opened (protocol : String)
  | message (data : String)
  | error (message : String)
  | closed (code : Nat) (reason : String)
deriving DecidableEq, Repr

inductive Command where
  | connect (id : Nat) (url : String) (protocols : List String)
  | send (id : Nat) (data : String)
  | close (id : Nat) (code : Nat)
deriving DecidableEq, Repr

/-- A page's socket. `registered` says whether `sockets[id]` still names it; `early`
is a ghost, set by a `close` that finds it connecting. -/
structure Socket where
  readyState : Nat := 0
  protocol : String := ""
  registered : Bool := true
  early : Bool := false
deriving DecidableEq, Repr

inductive Frame where
  | text (data : String)
  | close (code : Nat)
deriving DecidableEq, Repr

inductive Phase where
  | connecting
  | running
  | finished
deriving DecidableEq, Repr

/-- A connection task with its outbox; `reachable` while `senders` has it. -/
structure Connection where
  phase : Phase := .connecting
  outbox : List Frame := []
  reachable : Bool := true
deriving DecidableEq, Repr

/-- What `connection.read` gives, and what follows when it does not end the loop. -/
inductive Received where
  | text (data : String)
  | close (code : Nat) (reason : String)
  | pongFailed (error : String)
  | failed (error : String)
  | ended
deriving DecidableEq, Repr

/-- What the page can observe of one socket. -/
inductive Moment where
  | state (value : Nat)
  | closing
  | sent (data : String)
  | fired (event : Event)
deriving DecidableEq, Repr

structure Bridge where
  nextId : Nat := 1
  sockets : ExtTreeMap Nat Socket := ∅
  log : List (Nat × Moment) := []
  commands : List Command := []
  connections : ExtTreeMap Nat Connection := ∅
  events : List (Nat × Event) := []
  delivering : List (Nat × Event) := []
  aborted : Bool := false

inductive Step where
  | construct (url : String) (protocols : List String)
  | send (id : Nat) (data : String)
  | close (id : Nat) (code : Option Nat)
  | lose
  | handle
  | connected (id : Nat) (protocol : String)
  | refused (id : Nat) (error : String)
  | write (id : Nat) (error : Option String)
  | receive (id : Nat) (received : Received)
  | forget (id : Nat)
  | retire
  | drain
  | deliver
deriving DecidableEq, Repr

namespace Bridge

/-- The socket as it is now, and what the page could observe of the change. -/
def update (self : Bridge) (id : Nat) (socket : Socket) (moments : List Moment) : Bridge :=
  { self with
    sockets := self.sockets.insert id socket
    log := self.log ++ moments.map (id, ·) }

def construct (self : Bridge) (url : String) (protocols : List String) : Bridge :=
  let id := self.nextId
  { self.update id {} [.state 0] with
    nextId := id + 1
    commands := self.commands ++ [.connect id url protocols] }

/-- `send` throws while connecting and does nothing unless the socket is open. -/
def send (self : Bridge) (id : Nat) (data : String) : Bridge :=
  match self.sockets[id]? with
  | none => self
  | some socket =>
    if socket.readyState = 1 then
      { self with
        log := self.log ++ [(id, .sent data)]
        commands := self.commands ++ [.send id data] }
    else self

def close (self : Bridge) (id : Nat) (code : Option Nat) : Bridge :=
  match self.sockets[id]? with
  | none => self
  | some socket =>
    if socket.readyState = 3 then { self with log := self.log ++ [(id, .closing)] }
    else
      let early := socket.early || socket.readyState = 0
      { self.update id { socket with readyState := 2, early } [.closing, .state 2] with
        commands := self.commands ++ [.close id (code.getD 1000)] }

/-- `__chuzzWsEvent` and `__deliver`. -/
def deliverTo (self : Bridge) (id : Nat) (event : Event) : Bridge :=
  match self.sockets[id]? with
  | none => self
  | some socket =>
    if socket.registered = false then self
    else
      match event with
      | .opened protocol =>
        self.update id { socket with readyState := 1, protocol } [.state 1, .fired event]
      | .closed _ _ =>
        self.update id { socket with readyState := 3, registered := false }
          [.state 3, .fired event]
      | _ => { self with log := self.log ++ [(id, .fired event)] }

/-- One turn of the loop of `drain_into`. -/
def deliver (self : Bridge) : Bridge :=
  match self.delivering with
  | [] => self
  | (id, event) :: delivering => { self with delivering }.deliverTo id event

def post (self : Bridge) (id : Nat) (events : List Event) : Bridge :=
  if self.aborted then self else { self with events := self.events ++ events.map (id, ·) }

def failed (error reason : String) : List Event := [.error error, .closed 1006 reason]

/-- A frame for the connection, if a sender still leads to it. -/
def push (self : Bridge) (id : Nat) (frame : Frame) : Bridge :=
  match self.connections[id]? with
  | none => self
  | some connection =>
    if connection.reachable then
      let connection := { connection with outbox := connection.outbox ++ [frame] }
      { self with connections := self.connections.insert id connection }
    else self

/-- `Bridge::handle`, for the oldest command. -/
def handle (sendable : Nat → Bool) (self : Bridge) : Bridge :=
  match self.commands with
  | [] => self
  | .connect id _ _ :: commands =>
    { self with commands, connections := self.connections.insert id {} }
  | .send id data :: commands => { self with commands }.push id (.text data)
  | .close id code :: commands =>
    let self := { self with commands }
    if ((self.connections[id]?).any (·.reachable)) && !sendable code then
      self.post id [.error "bad close code"]
    else self.push id (.close code)

/-- What one connection task does when it is in `phase`. -/
def progress (self : Bridge) (id : Nat) (phase : Phase)
    (act : Connection → Connection × List Event) : Bridge :=
  match self.connections[id]? with
  | none => self
  | some connection =>
    if connection.phase = phase then
      let (connection, events) := act connection
      { self with connections := self.connections.insert id connection }.post id events
    else self

/-- The oldest message of the outbox is written, or its write fails. -/
def write (connection : Connection) (error : Option String) : Connection × List Event :=
  match connection.outbox, error with
  | [], _ => (connection, [])
  | _ :: outbox, some error =>
    ({ connection with outbox, phase := .finished }, failed error "send")
  | .close code :: outbox, none =>
    ({ connection with outbox, phase := .finished }, [.closed code ""])
  | .text _ :: outbox, none => ({ connection with outbox }, [])

def receive (connection : Connection) : Received → Connection × List Event
  | .text data => (connection, [.message data])
  | .close code reason => ({ connection with phase := .finished }, [.closed code reason])
  | .pongFailed error => ({ connection with phase := .finished }, failed error "pong")
  | .failed error => ({ connection with phase := .finished }, failed error "stream")
  | .ended => ({ connection with phase := .finished }, [.closed 1006 "eof"])

def perform (sendable : Nat → Bool) (self : Bridge) : Step → Bridge
  | .construct url protocols => self.construct url protocols
  | .send id data => self.send id data
  | .close id code => self.close id code
  | .lose => { self with commands := self.commands.tail }
  | .handle => self.handle sendable
  | .connected id protocol =>
    self.progress id .connecting fun connection =>
      ({ connection with phase := .running }, [.opened protocol])
  | .refused id error =>
    self.progress id .connecting fun connection =>
      ({ connection with phase := .finished }, failed error "connect")
  | .write id error => self.progress id .running (write · error)
  | .receive id received => self.progress id .running (receive · received)
  | .forget id =>
    self.progress id .finished fun connection => ({ connection with reachable := false }, [])
  | .retire =>
    { self with
      aborted := true
      connections := self.connections.map fun _ connection =>
        { connection with reachable := false }
      events := [] }
  | .drain => { self with delivering := self.delivering ++ self.events, events := [] }
  | .deliver => self.deliver

end Bridge
end Chuzz.Sockets
