import Chuzz.Library.FirstMatch
import Chuzz.Webrtc.Sdp

/-! The peer's description state and its commands. str0m is outside: what it answers
during a command comes with the command, and a call of it that fails changes nothing
here. A MID is modelled by its text, which the reader keeps within what str0m's type
holds. Gathering notices and the snapshot of a reply are functions of this state. -/
namespace Chuzz.Webrtc
open Library
local instance lawfulCommand : LawfulBEq (List Char) := inferInstance

abbrev Mid := Text

/-- An `SdpPendingOffer`, by its identity. -/
abbrev Pending := Nat

structure Track where
  id : Nat
  kind : Kind
deriving DecidableEq, Repr

structure Slot where
  id : Nat
  kind : Kind
  mid : Option Mid := none
  direction : Text
  current : Option Text := none
  stream : Option Text := none
  track : Option Track := none
  input : Option Nat := none
  output : Option Nat := none
  receiver : Option Track := none
  remote : Option Section := none
  active : Bool := true
  preferences : List Text
  codecs : List AudioCodec := []
deriving DecidableEq, Repr

inductive Signaling where
  | stable
  | haveLocalOffer
  | haveRemoteOffer
deriving DecidableEq, Repr

structure Engine where
  slots : List Slot := []
  pending : Option Pending := none
  generatedOffer : Option Description := none
  generatedAnswer : Option Description := none
  pendingLocal : Option Description := none
  pendingRemote : Option Description := none
  currentLocal : Option Description := none
  currentRemote : Option Description := none
  signaling : Signaling := .stable
  restart : Bool := false
deriving DecidableEq, Repr

/-- What str0m answers during one command. `addMedia` gives the MID for the slot of an
id, `rehearse` is `accept_offer` of the disposable core. -/
structure Str0m where
  addMedia : Nat → Mid := fun _ => []
  hasChanges : Bool := true
  apply : Option (Text × Pending) := none
  parseOffer : Text → Except String Unit := fun _ => .ok ()
  parseAnswer : Text → Except String Unit := fun _ => .ok ()
  parseCandidate : Text → Except String Unit := fun _ => .ok ()
  rehearse : Text → Except String Unit := fun _ => .ok ()
  acceptOffer : Text → Except String Text := fun _ => throw "OperationError"
  acceptAnswer : Pending → Text → Except String Unit := fun _ _ => .ok ()

/-- A transition that may fail after it has changed the engine. -/
abbrev Outcome (α : Type) := Engine × Except String α

def slotId (value : Option Nat) : Except String Nat :=
  match value.filter fun id => 0 < id ∧ id ≤ slotLimit with
  | some id => .ok id
  | none => throw "TypeError: invalid transceiver slot"

def defaultPreferences : Kind → List Text
  | .video => [text "h264"]
  | .audio => [text "opus", text "pcmu"]

def negotiable (kind : Kind) (name : Text) : Bool :=
  match kind with
  | .video => name = text "h264"
  | .audio => name ∈ [text "opus", text "pcmu"]

def slotOfMid (slots : List Slot) (mid : Text) : Option Slot :=
  slots.find? fun slot => slot.mid = some mid

def modifyMid (slots : List Slot) (mid : Text) (change : Slot → Slot) : Option (List Slot) :=
  FirstMatch.modifyFirst? (fun slot => slot.mid = some mid) change slots

def modifyId (slots : List Slot) (id : Nat) (change : Slot → Slot) : Option (List Slot) :=
  FirstMatch.modifyFirst? (fun slot => slot.id = id) change slots

namespace Engine

/-- `local_sdp` -/
def localSdp (engine : Engine) (description : Description) : Except String Description := do
  let parts ← sections description
  let preferences ← parts.mapM fun part =>
    match slotOfMid engine.slots part.mid with
    | some slot => .ok slot.preferences
    | none => throw "OperationError: missing local codec slot"
  localPolicy description preferences

/-- The negotiated codecs in the answer's order, under the remote receiver's formats. -/
def negotiated (part remote : Section) : List AudioCodec :=
  part.codecs.map fun codec =>
    (remote.codecs.find? fun other =>
      other.payloadType = codec.payloadType ∧ other.name = codec.name).getD codec

/-- The loop of `commit_codecs`: slots changed before a failure stay changed. -/
def commitSections (remotes : List Section) :
    List Section → List Slot → List Slot × Except String Unit
  | [], slots => (slots, .ok ())
  | part :: rest, slots =>
    match remotes.find? fun remote => remote.mid = part.mid with
    | none => (slots, throw "OperationError: missing remote codec section")
    | some remote =>
      match modifyMid slots part.mid ({ · with codecs := negotiated part remote }) with
      | none => (slots, throw "OperationError: missing negotiated codec slot")
      | some slots => commitSections remotes rest slots

/-- The answer's sections and the remote ones, as `commit_codecs` reads them. -/
def committed (engine : Engine) : Except String (List Section × List Section) := do
  let some mine := engine.currentLocal | throw "OperationError: missing local SDP"
  let some remote := engine.currentRemote | throw "OperationError: missing remote SDP"
  let answers ← sections (if mine.type = text "answer" then mine else remote)
  let remotes ← sections remote
  return (answers, remotes)

def commitCodecs (engine : Engine) : Outcome Unit :=
  match engine.committed with
  | .error error => (engine, .error error)
  | .ok (answers, remotes) =>
    let (slots, result) := commitSections remotes answers engine.slots
    ({ engine with slots }, result)

/-- `local_candidates`, of which only the reading can fail. -/
def localCandidates (description : Description) : Except String Unit := do
  let _ ← sections description

def preflight (engine : Engine) (rtc : Str0m) (description : Description) :
    Except String (List Section) := do
  let parts ← sections description
  rtc.parseOffer description.sdp
  rtc.rehearse description.sdp
  if let some current := engine.currentRemote then
    let previous ← sections current
    if parts.length < previous.length ||
        (previous.zip parts).any fun (old, new) => old.mid ≠ new.mid ∨ old.kind ≠ new.kind then
      throw "OperationError: established MID identity and m-line order are immutable"
    if !(previous.headD {}).fingerprint.eqIgnoreAsciiCase (parts.headD {}).fingerprint then
      throw "OperationError: established DTLS fingerprint changed"
    if description.type = text "answer" && !engine.restart &&
        ((previous.headD {}).ufrag ≠ (parts.headD {}).ufrag ||
          (previous.headD {}).password ≠ (parts.headD {}).password) then
      throw "OperationError: unsolicited ICE restart in answer"
  return parts

/-- The loop of `offer` over the slots: it stops at an unknown direction, and MIDs given
before that stay given. -/
def requestMedia (rtc : Str0m) : List Slot → List Slot × Except String Unit
  | [] => ([], .ok ())
  | slot :: rest =>
    match direction slot.direction with
    | .error error => (slot :: rest, .error error)
    | .ok () =>
      let (rest, result) := requestMedia rtc rest
      ({ slot with mid := slot.mid.or (some (rtc.addMedia slot.id)) } :: rest, result)

/-- The direction of the first slot is toggled when nothing else has changed. -/
def toggle (engine : Engine) (rtc : Str0m) : Except String Unit :=
  match rtc.hasChanges, engine.slots with
  | false, slot :: _ => do
    if slot.mid.isNone then throw "OperationError: missing negotiated MID"
    direction slot.direction
    direction (if slot.direction = text "inactive" then text "sendrecv" else text "inactive")
  | _, _ => .ok ()

/-- The rest of `offer`, once its MIDs are given. -/
def draft (engine : Engine) (rtc : Str0m) : Except String (Description × Pending) := do
  engine.toggle rtc
  let some (offer, pending) := rtc.apply | throw "OperationError: str0m did not produce an offer"
  let description ← engine.localSdp { type := text "offer", sdp := offer }
  let _ ← sections description
  return (description, pending)

def offer (engine : Engine) (rtc : Str0m) : Outcome Description :=
  if engine.signaling = .haveRemoteOffer then
    (engine, throw "InvalidStateError: cannot create an offer in this signaling state")
  else if engine.slots = [] then
    (engine, throw "OperationError: add a media transceiver before creating an offer")
  else
    let (slots, requested) := requestMedia rtc engine.slots
    let engine := { engine with slots, pending := none }
    match requested with
    | .error error => (engine, .error error)
    | .ok () =>
      match engine.draft rtc with
      | .error error => (engine, .error error)
      | .ok (description, pending) =>
        ({ engine with pending := some pending, generatedOffer := some description },
          .ok description)

/-- Direction, stream and track of each section of the answer. -/
def identities (engine : Engine) (parts : List Section) : Except String (List Identity) :=
  parts.mapM fun part => do
    let some slot := slotOfMid engine.slots part.mid
      | throw "OperationError: answer section has no slot"
    let some remote := slot.remote | throw "OperationError: missing remote slot"
    return (intersect slot.direction remote.direction, slot.stream,
      slot.track.map fun track => text "chuzz-track-" ++ Text.ofNat track.id)

def answer (engine : Engine) (rtc : Str0m) : Outcome Description :=
  let result : Except String Description := do
    if engine.signaling ≠ .haveRemoteOffer then
      throw "InvalidStateError: createAnswer requires a remote offer"
    let some generated := engine.generatedAnswer
      | throw "OperationError: missing generated answer"
    let parts ← sections generated
    let identities ← engine.identities parts
    identities.forM fun identity => direction identity.1
    let description ← engine.localSdp
      { type := text "answer", sdp := answerText generated.sdp identities }
    let _ ← sections description
    rtc.parseAnswer description.sdp
    return description
  match result with
  | .error error => (engine, .error error)
  | .ok description => ({ engine with generatedAnswer := some description }, .ok description)

/-- The direction of every slot that has a remote section. -/
def settle (slots : List Slot) : List Slot :=
  slots.map fun slot => match slot.remote with
    | some remote => { slot with current := some (intersect slot.direction remote.direction) }
    | none => slot

def setLocal (engine : Engine) (value : Description) : Outcome Unit :=
  if value.type = text "offer" ∧ engine.signaling ≠ .haveRemoteOffer then
    if engine.generatedOffer ≠ some value ∨ engine.pending = none then
      (engine, throw "OperationError: local offer must be the current generated offer")
    else
      ({ engine with pendingLocal := some value, signaling := .haveLocalOffer },
        localCandidates value)
  else if value.type = text "answer" ∧ engine.signaling = .haveRemoteOffer then
    if engine.generatedAnswer ≠ some value then
      (engine, throw "OperationError: local answer must be the current generated answer")
    else
      let (engine, result) := commitCodecs { engine with
        currentLocal := some value, currentRemote := engine.pendingRemote, pendingRemote := none,
        pendingLocal := none, signaling := .stable, slots := settle engine.slots }
      (engine, result >>= fun () => localCandidates value)
  else (engine, throw "InvalidStateError: invalid local-description transition")

/-- The slot a section of a remote offer takes, if one is there for it. -/
def matching (slots : List Slot) (used : List Nat) (part : Section) : Option Slot :=
  (slotOfMid slots part.mid).or (slots.find? fun slot =>
    slot.mid = none ∧ slot.kind = part.kind ∧ slot.id ∉ used)

/-- The slots for the sections of a remote offer, after those already assigned. -/
def assign (slots : List Slot) :
    List Section → List (Section × Nat) → Except String (List (Section × Nat))
  | [], assigned => .ok assigned
  | part :: rest, assigned =>
    let used := assigned.map (·.2)
    let id := match matching slots used part with
      | some slot => slot.id
      | none => slots.length +
        (assigned.filter fun earlier => !slots.any (·.id = earlier.2)).length + 1
    if id > slotLimit ∨ id ∈ used then throw "OperationError: remote transceiver limit reached"
    else assign slots rest (assigned ++ [(part, id)])

def remoteSlot (part : Section) (id : Nat) : Slot :=
  { id, kind := part.kind, mid := some part.mid, direction := text "recvonly",
    remote := some part, preferences := defaultPreferences part.kind }

/-- The slot of the id takes the section, or a new one is added. -/
def occupy (slots : List Slot) (assigned : Section × Nat) : List Slot :=
  match modifyId slots assigned.2
    ({ · with mid := some assigned.1.mid, remote := some assigned.1 }) with
  | none => slots ++ [remoteSlot assigned.1 assigned.2]
  | some slots => slots

def setRemoteOffer (engine : Engine) (rtc : Str0m) (value : Description) : Outcome Unit :=
  let checked : Except String (List (Section × Nat) × Text) := do
    let parts ← engine.preflight rtc value
    let assigned ← assign engine.slots parts []
    rtc.parseOffer value.sdp
    let answer ← rtc.acceptOffer value.sdp
    return (assigned, answer)
  match checked with
  | .error error => (engine, .error error)
  | .ok (assigned, answer) =>
    ({ engine with
        slots := assigned.foldl occupy engine.slots,
        generatedAnswer := some { type := text "answer", sdp := answer },
        pendingRemote := some value, signaling := .haveRemoteOffer }, .ok ())

def compatible (answer offer : Section) : Bool :=
  answer.mid = offer.mid && answer.kind = offer.kind &&
    (answer.codecs.all fun codec => offer.codecs.any fun offered =>
      offered.payloadType = codec.payloadType && offered.name = codec.name) &&
    (!sends answer.direction || receives offer.direction) &&
    (!receives answer.direction || sends offer.direction)

/-- The checks of a remote answer before the pending offer is taken. -/
def checkAnswer (engine : Engine) (rtc : Str0m) (value : Description) :
    Except String (List Section) := do
  let parts ← engine.preflight rtc value
  let some mine := engine.pendingLocal | throw "OperationError: missing local offer"
  let offered ← sections mine
  if parts.length ≠ offered.length || !(parts.zip offered).all fun (part, offer) =>
      compatible part offer then
    throw "OperationError: answer does not match the offered slot table"
  rtc.parseAnswer value.sdp
  return parts

/-- The slots' own part of a remote answer; slots changed before a failure stay changed. -/
def settleRemote : List Section → List Slot → List Slot × Except String Unit
  | [], slots => (slots, .ok ())
  | part :: rest, slots =>
    match modifyMid slots part.mid fun slot => { slot with
      current := some (intersect slot.direction part.direction), remote := some part } with
    | none => (slots, throw "OperationError: missing answer slot")
    | some slots => settleRemote rest slots

def setRemoteAnswer (engine : Engine) (rtc : Str0m) (value : Description) : Outcome Unit :=
  match engine.checkAnswer rtc value with
  | .error error => (engine, .error error)
  | .ok parts =>
    match engine.pending with
    | none => (engine, throw "OperationError: missing pending str0m offer")
    | some pending =>
      let engine := { engine with pending := none }
      match rtc.acceptAnswer pending value.sdp with
      | .error error => (engine, .error error)
      | .ok () =>
        let (slots, settled) := settleRemote parts engine.slots
        let engine := { engine with slots }
        match settled with
        | .error error => (engine, .error error)
        | .ok () => commitCodecs { engine with
            currentLocal := engine.pendingLocal, pendingLocal := none,
            currentRemote := some value, pendingRemote := none, generatedOffer := none,
            restart := false, signaling := .stable }

def setRemote (engine : Engine) (rtc : Str0m) (value : Description) : Outcome Unit :=
  if value.type = text "offer" ∧ engine.signaling = .stable then
    engine.setRemoteOffer rtc value
  else if value.type = text "answer" ∧ engine.signaling = .haveLocalOffer then
    engine.setRemoteAnswer rtc value
  else (engine, throw "InvalidStateError: invalid remote-description transition")

/-- `slot(id)?` followed by a change of the slot that checks it first. -/
def changeSlot (engine : Engine) (id : Option Nat) (check : Slot → Except String Unit)
    (change : Slot → Slot) : Outcome Unit :=
  let changed : Except String (List Slot) := do
    let id ← slotId id
    let some slot := engine.slots.find? (·.id = id)
      | throw "InvalidAccessError: unknown transceiver"
    check slot
    return (modifyId engine.slots id change).getD engine.slots
  match changed with
  | .error error => (engine, .error error)
  | .ok slots => ({ engine with slots }, .ok ())

def add (engine : Engine) (id : Option Nat) (kind : Option Kind) (slot : Nat → Kind → Slot) :
    Outcome Unit :=
  let added : Except String Slot := do
    let id ← slotId id
    if engine.slots.any (·.id = id) ∨ engine.slots.length ≥ slotLimit then
      throw "InvalidAccessError: duplicate or excessive transceiver"
    let some kind := kind | throw "TypeError: invalid transceiver kind"
    return slot id kind
  match added with
  | .error error => (engine, .error error)
  | .ok slot => ({ engine with slots := engine.slots ++ [slot] }, .ok ())

def preferenceList (kind : Kind) (values : List (Option Text)) : Except String (List Text) := do
  let names ← values.foldlM (fun names value => do
    let some name := value | throw "TypeError: invalid codec preference"
    if !negotiable kind name || name ∈ names then
      throw "NotSupportedError: invalid media codec preference"
    return names ++ [name]) []
  return if names = [] then defaultPreferences kind else names

structure CandidateData where
  candidate : Option Text
  mid : Option Text
  index : Option Nat
  ufrag : Option Text

def candidate (engine : Engine) (rtc : Str0m) (value : CandidateData) : Except String Unit := do
  if value.candidate = some [] then return
  let some remote := engine.pendingRemote.or engine.currentRemote
    | throw "InvalidStateError: set a remote description before adding candidates"
  let parts ← sections remote
  let found : Option Section := match value.mid with
    | some mid => parts.find? fun part => part.mid = mid
    | none => value.index.bind (parts[·]?)
  let some part := found
    | throw "OperationError: candidate does not identify a remote section"
  if (value.index.any fun index => !(parts[index]?).any (·.mid = part.mid)) ||
      value.ufrag.any (· ≠ part.ufrag) then
    throw "OperationError: candidate belongs to another ICE generation or MID"
  let some text := value.candidate | throw "TypeError: candidate text is required"
  rtc.parseCandidate text

end Engine

/-- The media that `add`, `bind` and `replace` hand to a slot. -/
structure Media where
  stream : Option Text := none
  track : Option Track := none
  input : Option Nat := none
  output : Option Nat := none
  receiver : Option Track := none

/-- A description is `none` where it does not decode, a candidate where it is null.
`settings` is what the range checks of the encoder's own settings say. -/
inductive Command where
  | add (slot : Option Nat) (kind : Option Kind) (direction : Option Text) (media : Media)
  | bind (slot : Option Nat) (media : Media)
  | direction (slot : Option Nat) (direction : Option Text)
  | replace (slot : Option Nat) (media : Media)
  | active (slot : Option Nat) (active : Option Bool)
  | parameters (slot : Option Nat) (active : Option Bool) (settings : Kind → Except String Unit)
  | preferences (slot : Option Nat) (codecs : Option (List (Option Text)))
  | createOffer
  | createAnswer
  | setLocal (description : Option Description)
  | setRemote (description : Option Description)
  | restart
  | candidate (value : Option Engine.CandidateData)

namespace Engine

def changePreferences (engine : Engine) (id : Option Nat) (codecs : Option (List (Option Text))) :
    Outcome Unit :=
  let read : Except String (List Text) := do
    if engine.signaling ≠ .stable then
      throw "InvalidStateError: change codec preferences in stable signaling"
    let some values := codecs | throw "TypeError: codec preferences must be an array"
    let some slot := engine.slots.find? (·.id = (← slotId id))
      | throw "InvalidAccessError: unknown transceiver"
    preferenceList slot.kind values
  match read with
  | .error error => (engine, .error error)
  | .ok preferences => engine.changeSlot id (fun _ => .ok ()) ({ · with preferences })

/-- A reply without a description. -/
def silent (outcome : Outcome Unit) : Outcome (Option Description) :=
  (outcome.1, outcome.2.map fun _ => none)

def describing (outcome : Outcome Description) : Outcome (Option Description) :=
  (outcome.1, outcome.2.map some)

/-- `command`, with the reply's description. -/
def command (engine : Engine) (rtc : Str0m) : Command → Outcome (Option Description)
  | .add id kind direction media => silent <| engine.add id kind fun id kind =>
    { id, kind, direction := direction.getD (text "sendrecv"), stream := media.stream,
      track := media.track, input := media.input, output := media.output,
      receiver := media.receiver, preferences := defaultPreferences kind }
  | .bind id media => silent <| engine.changeSlot id
    (fun slot => if media.receiver.any (·.kind = slot.kind) then .ok ()
      else throw "InvalidAccessError: receiver kind does not match its slot")
    ({ · with output := media.output, receiver := media.receiver })
  | .direction _ none => (engine, throw "TypeError: direction is required")
  | .direction id (some direction) =>
    silent <| engine.changeSlot id (fun _ => .ok ()) ({ · with direction })
  | .replace id media => silent <| engine.changeSlot id
    (fun slot => if media.track.any (·.kind ≠ slot.kind) then
      throw "InvalidModificationError: replacement track kind changed" else .ok ())
    ({ · with track := media.track, input := media.input })
  | .active _ none => (engine, throw "TypeError: active must be boolean")
  | .active id (some active) =>
    silent <| engine.changeSlot id (fun _ => .ok ()) ({ · with active })
  | .parameters id active settings => silent <| engine.changeSlot id
    (fun slot => if active.isSome then settings slot.kind
      else throw "TypeError: active must be boolean")
    fun slot => { slot with active := active.getD slot.active }
  | .preferences id codecs => silent (engine.changePreferences id codecs)
  | .createOffer => describing (engine.offer rtc)
  | .createAnswer => describing (engine.answer rtc)
  | .setLocal none | .setRemote none =>
    (engine, throw "TypeError: invalid session description")
  | .setLocal (some value) => silent (engine.setLocal value)
  | .setRemote (some value) => silent (engine.setRemote rtc value)
  | .restart => ({ engine with restart := true }, .ok none)
  | .candidate value =>
    (engine, (value.elim (.ok ()) (engine.candidate rtc)).map fun _ => none)

end Engine
end Chuzz.Webrtc
