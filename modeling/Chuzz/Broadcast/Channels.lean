import Chuzz.Library.Transition

/-! Broadcast channels: the table of the process, which routes a message under its lock, and
the pages that poll it. A page takes at most 64 messages of each channel at a time and
dispatches them one after another, while the handlers may open, post to and close channels. -/
namespace Chuzz.Broadcast
open Library.Transition

abbrev Text := List Char

/-- The serialization of the origin of a URL that has a scheme, a host and a port. -/
structure TupleOrigin where
  text : Text
  scheme : "://".toList <:+: text

inductive UrlOrigin
  | opaque_
  | tuple (origin : TupleOrigin)

def publicOrigin : Option UrlOrigin → Text
  | some (.tuple origin) => origin.text
  | some .opaque_ | none => "null".toList

/-- The origin under which `install_context` files a realm. -/
def realmOrigin (id : Nat) (url : Option UrlOrigin) : Text :=
  if publicOrigin url = "null".toList then "opaque:".toList ++ Nat.toDigits 10 id
  else publicOrigin url

variable {Wire : Type}

structure Channel (Wire : Type) where
  owner : Nat
  origin : Text
  name : Text
  incoming : List Wire := []
deriving DecidableEq, Repr

/-- A realm and its page: the channels it holds open, with their names, its timer, and the
deliveries of the read it is in the middle of. -/
structure Realm (Wire : Type) where
  url : Option UrlOrigin
  origin : Text
  channels : List (Nat × Text) := []
  timer : Bool := false
  deliveries : List (Nat × Wire) := []
  reads : Nat := 0

/-- Realms and channels draw their numbers from one counter. What a channel ought to be sent
and what its page has dispatched on it are kept beside. -/
structure System (Wire : Type) where
  nextId : Nat := 1
  channels : Nat → Option (Channel Wire) := fun _ => none
  realms : Nat → Option (Realm Wire) := fun _ => none
  owed : Nat → List Wire := fun _ => []
  dispatched : Nat → List Wire := fun _ => []

inductive Step (Wire : Type)
  | install (url : Option UrlOrigin)
  | create (realm : Nat) (name : Text)
  | post (realm id : Nat) (wire : Wire)
  | close (realm id : Nat)
  /-- The timer fires, and the table is read in this order. -/
  | read (realm : Nat) (order : List Nat)
  | dispatch (realm : Nat)
  | drop (realm : Nat)

/-- The same origin in the sense of the web: that of a URL, or the realm's own. -/
def sameOrigin (first second : Nat) : (one other : Option UrlOrigin) → Bool
  | some (.tuple one), some (.tuple other) => one.text = other.text
  | some (.tuple _), some .opaque_ | some (.tuple _), none => false
  | some .opaque_, some (.tuple _) | none, some (.tuple _) => false
  | some .opaque_, some .opaque_ | some .opaque_, none | none, some .opaque_ | none, none =>
    first = second

/-- What a page is still to dispatch on a channel. -/
def Realm.pending (realm : Realm Wire) (id : Nat) : List Wire :=
  (realm.deliveries.filter (·.1 = id)).map (·.2)

namespace System

def setRealm (system : System Wire) (id : Nat) (realm : Option (Realm Wire)) : System Wire :=
  { system with realms := fun other => if other = id then realm else system.realms other }

def setChannel (system : System Wire) (id : Nat) (channel : Option (Channel Wire)) :
    System Wire :=
  { system with channels := fun other => if other = id then channel else system.channels other }

/-- The number for a new realm or channel. -/
def install (system : System Wire) (url : Option UrlOrigin) : System Wire :=
  { system.setRealm system.nextId (some { url, origin := realmOrigin system.nextId url }) with
    nextId := system.nextId + 1 }

/-- The constructor of `BroadcastChannel` and `BroadcastOpen`. -/
def create (system : System Wire) (id : Nat) (realm : Realm Wire) (name : Text) : System Wire :=
  let opened := system.setChannel system.nextId (some { owner := id, origin := realm.origin, name })
  { opened.setRealm id (some { realm with
      channels := realm.channels ++ [(system.nextId, name)], timer := true }) with
    nextId := system.nextId + 1 }

/-- `BroadcastPost`. -/
def route (system : System Wire) (owner : Nat) (realm : Realm Wire) (id : Nat) (wire : Wire) :
    Nat → Option (Channel Wire) :=
  match system.channels id with
  | none => system.channels
  | some sender =>
    if sender.owner = owner then fun other =>
      (system.channels other).map fun channel =>
        if other ≠ id ∧ channel.origin = realm.origin ∧ channel.name = sender.name then
          { channel with incoming := channel.incoming ++ [wire] }
        else channel
    else system.channels

/-- The page of some realm of the sender's origin holds this channel open under this name. -/
def hears (system : System Wire) (owner : Nat) (realm : Realm Wire) (name : Text) (id : Nat) :
    Bool :=
  (List.range system.nextId).any fun other =>
    match system.realms other with
    | none => false
    | some page =>
      sameOrigin owner other realm.url page.url && page.channels.contains (id, name)

/-- `postMessage` of an open channel. -/
def post (system : System Wire) (owner : Nat) (realm : Realm Wire) (id : Nat) (name : Text)
    (wire : Wire) : System Wire :=
  { system with
    channels := system.route owner realm id wire
    owed := fun other =>
      if other ≠ id && system.hears owner realm name other then system.owed other ++ [wire]
      else system.owed other }

/-- `BroadcastClose`. -/
def release (system : System Wire) (owner id : Nat) : System Wire :=
  match system.channels id with
  | none => system
  | some channel => if channel.owner = owner then system.setChannel id none else system

def close (system : System Wire) (owner : Nat) (realm : Realm Wire) (id : Nat) : System Wire :=
  let channels := realm.channels.filter (·.1 ≠ id)
  (system.release owner id).setRealm owner (some { realm with
    channels, timer := if channels = [] then false else realm.timer })

def owned (system : System Wire) (owner : Nat) : List Nat :=
  (List.range system.nextId).filter fun id =>
    match system.channels id with
    | none => false
    | some channel => channel.owner = owner

def incoming (system : System Wire) (id : Nat) : List Wire :=
  match system.channels id with
  | none => []
  | some channel => channel.incoming

/-- What a read returns, channel by channel. -/
def batch (system : System Wire) (order : List Nat) : List (Nat × Wire) :=
  order.flatMap fun id => ((system.incoming id).take 64).map (id, ·)

/-- `BroadcastRead`, and the page about to go through what it returned. -/
def read (system : System Wire) (owner : Nat) (realm : Realm Wire) (order : List Nat) :
    System Wire :=
  { system.setRealm owner (some { realm with
      deliveries := system.batch order, reads := realm.reads + 1 }) with
    channels := fun id => (system.channels id).map fun channel =>
      if channel.owner = owner then { channel with incoming := channel.incoming.drop 64 }
      else channel }

/-- One turn of the loop of `readBroadcasts`; a channel that was closed meanwhile is passed
over. -/
def dispatch (system : System Wire) (owner : Nat) (realm : Realm Wire) : System Wire :=
  match realm.deliveries with
  | [] => system
  | (id, wire) :: deliveries =>
    { system.setRealm owner (some { realm with deliveries }) with
      dispatched := fun other =>
        if other = id && realm.channels.any (·.1 = id) then system.dispatched other ++ [wire]
        else system.dispatched other }

/-- `Realm::drop`. -/
def drop (system : System Wire) (owner : Nat) : System Wire :=
  { system.setRealm owner none with
    channels := fun id => (system.channels id).filter (·.owner ≠ owner) }

/-- A step that the page is not ready for changes nothing. -/
def perform (system : System Wire) : Step Wire → System Wire
  | .install url => system.install url
  | .create owner name =>
    match system.realms owner with
    | none => system
    | some realm => system.create owner realm name
  | .post owner id wire =>
    match system.realms owner with
    | none => system
    | some realm =>
      match realm.channels.find? (·.1 = id) with
      | none => system
      | some channel => system.post owner realm id channel.2 wire
  | .close owner id =>
    match system.realms owner with
    | none => system
    | some realm =>
      if realm.channels.any (·.1 = id) then system.close owner realm id else system
  | .read owner order =>
    match system.realms owner with
    | none => system
    | some realm =>
      if realm.timer ∧ realm.deliveries.isEmpty ∧ order.Perm (system.owned owner) then
        system.read owner realm order
      else system
  | .dispatch owner =>
    match system.realms owner with
    | none => system
    | some realm => system.dispatch owner realm
  | .drop owner => system.drop owner

abbrev Reached : System Wire → Prop :=
  Reachable (· = {}) fun before step after => before.perform step = after

/-- The page of this realm holds this channel open. -/
def Open (system : System Wire) (owner id : Nat) : Prop :=
  ∃ realm, system.realms owner = some realm ∧ ∃ name, (id, name) ∈ realm.channels

/-- How many times the page of a realm has read. -/
def reads (system : System Wire) (owner : Nat) : Nat :=
  match system.realms owner with
  | none => 0
  | some realm => realm.reads

end System

section Origins
variable {first second : Nat} {one other : Option UrlOrigin}

theorem TupleOrigin.mem_slash (origin : TupleOrigin) : '/' ∈ origin.text :=
  origin.scheme.subset (by decide)

theorem TupleOrigin.ne_null (origin : TupleOrigin) : origin.text ≠ "null".toList := by
  intro same
  have slash := origin.mem_slash
  rw [same] at slash
  revert slash
  decide

theorem TupleOrigin.ne_opaque (origin : TupleOrigin) (id : Nat) :
    origin.text ≠ "opaque:".toList ++ Nat.toDigits 10 id := by
  intro same
  have slash := origin.mem_slash
  rw [same, List.mem_append] at slash
  rcases slash with label | digits
  · revert label
    decide
  · have := Nat.isDigit_of_mem_toDigits (by decide) (by decide) digits
    revert this
    decide

theorem opaque_inj : "opaque:".toList ++ Nat.toDigits 10 first =
    "opaque:".toList ++ Nat.toDigits 10 second ↔ first = second := by
  constructor
  · intro same
    have digits := List.append_cancel_left same
    rw [← Nat.ofDigitChars_ten_toDigits (n := first), digits, Nat.ofDigitChars_ten_toDigits]
  · rintro rfl
    rfl

/-- The texts that realms are filed under tell origins apart, each opaque one from every
other. -/
theorem realmOrigin_eq_iff :
    realmOrigin first one = realmOrigin second other ↔ sameOrigin first second one other := by
  have tuple : ∀ (id : Nat) (origin : TupleOrigin),
      realmOrigin id (some (.tuple origin)) = origin.text := fun _ origin => if_neg origin.ne_null
  rcases one with _ | _ | one <;> rcases other with _ | _ | other <;>
    simp only [tuple, sameOrigin, decide_eq_true_eq, Bool.false_eq_true, iff_false]
  all_goals first
    | exact opaque_inj
    | exact TupleOrigin.ne_opaque _ _
    | exact fun same => TupleOrigin.ne_opaque _ _ same.symm

end Origins
end Chuzz.Broadcast
