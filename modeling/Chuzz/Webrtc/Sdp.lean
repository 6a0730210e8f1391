import Chuzz.Library.Fallible
import Chuzz.Webrtc.Text

/-! The supported profile of session descriptions: what `sections` reads from a text, and
how `local` and `answer` rewrite one. -/
namespace Chuzz.Webrtc
open Library
local instance lawfulText : LawfulBEq (List Char) := inferInstance

def slotLimit : Nat := 32

/-- The constrained baseline profile of the encoder. -/
def profile : Text := text "42e01f"

inductive Kind where
  | audio
  | video
deriving DecidableEq, Repr

structure Description where
  type : Text
  sdp : Text
deriving DecidableEq, Repr

structure AudioCodec where
  payloadType : Nat
  opus : Bool := false
  h264 : Bool := false
  stereo : Bool := false
  fec : Bool := false
  cbr : Bool := false
  bitrate : Option Nat := none
  fmtp : Text
deriving DecidableEq, Repr

def AudioCodec.name (codec : AudioCodec) : Text :=
  if codec.h264 then text "h264" else if codec.opus then text "opus" else text "pcmu"

structure Section where
  kind : Kind := .audio
  mid : Text := []
  direction : Text := text "sendrecv"
  stream : Option Text := none
  track : Option Text := none
  ufrag : Text := []
  password : Text := []
  fingerprint : Text := []
  setup : Text := []
  codecs : List AudioCodec := []
deriving DecidableEq, Repr

structure Mapping where
  payloads : List Nat := []
  names : List (Nat × Text) := []
  formats : List (Nat × Text) := []

def payload (value : Text) : Except String Nat :=
  match (value.fromRadix 10 255).filter (· ≤ 127) with
  | some number => .ok number
  | none => throw "OperationError: invalid audio payload type"

def insertNew (table : List (Nat × Text)) (number : Nat) (value : Text) :
    Except String (List (Nat × Text)) :=
  if (table.lookup number).isSome then throw "OperationError: duplicate audio codec attribute"
  else .ok ((number, value) :: table)

def mappingAttribute (mapping : Mapping) (line : Text) : Except String Mapping :=
  let read (value : Text) : Except String (Nat × Text) := do
    let some (number, value) := value.splitOnce ' '
      | throw "OperationError: incomplete audio codec attribute"
    return (← payload number, value.trim)
  match line.stripPrefix "a=rtpmap:", line.stripPrefix "a=fmtp:" with
  | some value, _ => do
    let (number, value) ← read value
    return { mapping with names := ← insertNew mapping.names number value }
  | none, some value => do
    let (number, value) ← read value
    return { mapping with formats := ← insertNew mapping.formats number value }
  | none, none => return mapping

def entries (fmtp : Text) : List Text :=
  ((fmtp.splitOn ';').map Text.trim).filter (· ≠ [])

/-- One parameter of an Opus format, after the keys already read. -/
def opusParameter (state : List Text × AudioCodec) (entry : Text) :
    Except String (List Text × AudioCodec) := do
  let (keys, codec) := state
  let some (key, value) := Text.splitOnce '=' entry
    | throw "OperationError: incomplete Opus format parameter"
  let key := key.trim.toAsciiLowercase
  let value := value.trim
  if key ∈ keys then throw "OperationError: duplicate Opus format parameter"
  let keys := key :: keys
  if key ∈ [text "stereo", text "useinbandfec", text "cbr"] then
    let enabled ← if value = text "0" then pure false else if value = text "1" then pure true
      else throw "OperationError: invalid Opus boolean parameter"
    return (keys, if key = text "stereo" then { codec with stereo := enabled }
      else if key = text "useinbandfec" then { codec with fec := enabled }
      else { codec with cbr := enabled })
  if key = text "maxaveragebitrate" then
    match (value.fromRadix 10 (2 ^ 32 - 1)).filter fun rate => 6000 ≤ rate ∧ rate ≤ 510000 with
    | some rate => return (keys, { codec with bitrate := some rate })
    | none => throw "OperationError: invalid Opus bitrate"
  if key = text "minptime" then
    match value.fromRadix 10 (2 ^ 32 - 1) with
    | some minimum =>
      if minimum > 20 then throw "NotSupportedError: Opus sender uses 20 ms packets"
    | none => throw "OperationError: invalid Opus minptime"
  return (keys, codec)

def audioCodec (mapping : Mapping) (number : Nat) : Except String (Option AudioCodec) := do
  let name := mapping.names.lookup number
  let pcmu := number = 0 && name.all fun name =>
    name.eqIgnoreAsciiCase (text "PCMU/8000") || name.eqIgnoreAsciiCase (text "PCMU/8000/1")
  if number = 0 && !pcmu then
    throw "OperationError: payload type zero must be mono PCMU at 8000 Hz"
  let opus := name.any fun name => name.eqIgnoreAsciiCase (text "opus/48000/2")
  if !pcmu && !opus then return none
  let codec : AudioCodec :=
    { payloadType := number, opus, fmtp := (mapping.formats.lookup number).getD [] }
  if opus then
    let (_, codec) ← (entries codec.fmtp).foldlM opusParameter ([], codec)
    return some codec
  return some codec

def audioCodecs (mapping : Mapping) : Except String (List AudioCodec) := do
  let codecs := (← mapping.payloads.mapM (audioCodec mapping)).filterMap id
  if codecs = [] then
    throw "NotSupportedError: audio must offer Opus at 48000 Hz or mono PCMU"
  return codecs

def videoParameter (parameters : List (Text × Text)) (entry : Text) :
    Except String (List (Text × Text)) := do
  let some (key, value) := Text.splitOnce '=' entry
    | throw "OperationError: incomplete H.264 format parameter"
  let key := key.trim.toAsciiLowercase
  if (parameters.lookup key).isSome then
    throw "OperationError: duplicate H.264 format parameter"
  return (key, value.trim) :: parameters

def videoCodec (mapping : Mapping) (number : Nat) : Except String (Option AudioCodec) := do
  if !(mapping.names.lookup number).any fun name => name.eqIgnoreAsciiCase (text "H264/90000") then
    return none
  let fmtp := (mapping.formats.lookup number).getD []
  let parameters ← (entries fmtp).foldlM videoParameter []
  if parameters.lookup (text "packetization-mode") ≠ some (text "1") ||
      !(parameters.lookup (text "profile-level-id")).any (Text.eqIgnoreAsciiCase · profile) then
    return none
  if (parameters.lookup (text "level-asymmetry-allowed")).any fun value =>
      value ∉ [text "0", text "1"] then
    throw "OperationError: invalid H.264 level asymmetry parameter"
  return some { payloadType := number, h264 := true, fmtp }

def videoCodecs (mapping : Mapping) : Except String (List AudioCodec) := do
  let codecs := (← mapping.payloads.mapM (videoCodec mapping)).filterMap id
  if codecs = [] then
    throw "NotSupportedError: video requires H.264 mode 1 constrained baseline level 3.1"
  return codecs

/-- The words that `direction` accepts. -/
def directions : List Text :=
  [text "sendrecv", text "sendonly", text "recvonly", text "inactive"]

def direction (value : Text) : Except String Unit :=
  if value ∈ directions then .ok () else throw "TypeError: invalid transceiver direction"

def sends (value : Text) : Bool := value ∈ [text "sendrecv", text "sendonly"]

def receives (value : Text) : Bool := value ∈ [text "sendrecv", text "recvonly"]

def intersect (mine remote : Text) : Text :=
  match sends mine && receives remote, receives mine && sends remote with
  | true, true => text "sendrecv"
  | true, false => text "sendonly"
  | false, true => text "recvonly"
  | false, false => text "inactive"

def attributes (part : Section) (line : Text) : Except String Section :=
  match line.stripPrefix "a=mid:", line.stripPrefix "a=ice-ufrag:",
    line.stripPrefix "a=ice-pwd:", line.stripPrefix "a=fingerprint:",
    line.stripPrefix "a=setup:", line.stripPrefix "a=msid:", line.stripPrefix "a=" with
  | some value, _, _, _, _, _, _ =>
    if part.mid ≠ [] then throw "OperationError: duplicate MID attribute"
    else .ok { part with mid := value }
  | none, some value, _, _, _, _, _ => .ok { part with ufrag := value }
  | none, none, some value, _, _, _, _ => .ok { part with password := value }
  | none, none, none, some value, _, _, _ => .ok { part with fingerprint := value }
  | none, none, none, none, some value, _, _ => .ok { part with setup := value }
  | none, none, none, none, none, some value, _ =>
    match value.splitWhitespace, part.track with
    | [stream, track], none =>
      .ok { part with
        stream := if stream ≠ text "-" then some stream else none, track := some track }
    | _, _ => throw "NotSupportedError: one MSID per media section is supported"
  | none, none, none, none, none, none, some value =>
    .ok (if value ∈ directions then { part with direction := value } else part)
  | none, none, none, none, none, none, none => .ok part

/-- What `sections` has read of a text so far. -/
structure Reading where
  defaults : Section := {}
  media : List (Section × Mapping) := []
  bundle : Option (List Text) := none

/-- The section and the payloads of an m-line after `count` others. -/
def mediaLine (defaults : Section) (count : Nat) (line : Text) :
    Except String (Section × Mapping) := do
  let unsupported := "NotSupportedError: active DTLS audio or video sections are required"
  match line.splitWhitespace with
  | kind :: port :: protocol :: format :: formats =>
    if kind ∉ [text "m=audio", text "m=video"] || port = text "0" ||
        protocol ≠ text "UDP/TLS/RTP/SAVPF" then throw unsupported
    if count = slotLimit then throw "OperationError: too many SDP sections"
    let payloads ← (format :: formats).mapM payload
    if ¬ payloads.Nodup then throw "OperationError: duplicate m-line payload type"
    return ({ defaults with kind := if kind = text "m=video" then .video else .audio },
      { payloads })
  | _ => throw unsupported

/-- An attribute of the last section, or of them all before the first. -/
def readAttribute (reading : Reading) (line : Text) : Except String Reading :=
  match reading.media.getLast? with
  | none => do return { reading with defaults := ← attributes reading.defaults line }
  | some (part, mapping) => do
    let part ← attributes part line
    let mapping ← mappingAttribute mapping line
    return { reading with media := reading.media.dropLast ++ [(part, mapping)] }

def readLine (reading : Reading) (line : Text) : Except String Reading := do
  let line := line.trimEndMatches '\r'
  if let some value := line.stripPrefix "a=group:BUNDLE " then
    if reading.bundle.isSome then throw "OperationError: duplicate BUNDLE group"
    return { reading with bundle := some value.splitWhitespace }
  if line.startsWith "m=" then
    let added ← mediaLine reading.defaults reading.media.length line
    return { reading with media := reading.media ++ [added] }
  let reading ← readAttribute reading line
  if line.startsWith "a=sctp-" || line.startsWith "a=simulcast:" then
    throw "NotSupportedError: SCTP and simulcast are not enabled"
  return reading

def codecsOf (part : Section) (mapping : Mapping) : Except String Section := do
  let codecs ← match part.kind with
    | .video => videoCodecs mapping
    | .audio => audioCodecs mapping
  return { part with codecs }

def validFingerprint (bytes : List Text) : Bool :=
  bytes.length = 32 && bytes.all fun byte => byte.bytes = 2 && (byte.fromRadix 16 255).isSome

def credential (value : Text) : Bool :=
  value.all fun c => Text.isAsciiAlphanumeric c || c = '+' || c = '/'

/-- The checks of one section against the first one and the MIDs before it. -/
def checkSection (type : Text) (first : Section) (mids : List Text) (part : Section) :
    Except String (List Text) := do
  if part.mid = [] || part.mid.bytes > 16 || !part.mid.all Text.isAsciiAlphanumeric ||
      part.mid ∈ mids then
    throw "OperationError: missing, duplicate or unsupported MID"
  if part.ufrag.bytes < 4 || part.password.bytes < 22 ||
      !(credential part.ufrag && credential part.password) then
    throw "OperationError: invalid ICE credentials"
  let some fingerprint := part.fingerprint.stripPrefix "sha-256 "
    | throw "NotSupportedError: SHA-256 DTLS fingerprints are required"
  if !validFingerprint (fingerprint.splitOn ':') then
    throw "OperationError: invalid DTLS fingerprint"
  if !(part.setup ∈ [text "active", text "passive"] ||
      type = text "offer" && part.setup = text "actpass") then
    throw "OperationError: invalid DTLS setup role"
  if part.ufrag ≠ first.ufrag || part.password ≠ first.password ||
      !part.fingerprint.eqIgnoreAsciiCase first.fingerprint then
    throw "NotSupportedError: all sections must share one BUNDLE transport"
  return part.mid :: mids

def sections (description : Description) : Except String (List Section) := do
  if description.type ∉ [text "offer", text "answer"] then
    throw "NotSupportedError: only offer and answer descriptions are supported"
  if description.sdp.bytes > 128 * 1024 then throw "OperationError: SDP exceeds 128 KiB"
  let reading ← description.sdp.lines.foldlM readLine {}
  let parts ← reading.media.mapM fun (part, mapping) => codecsOf part mapping
  match parts with
  | [] => throw "OperationError: SDP has no media sections"
  | first :: _ =>
    let _ ← parts.foldlM (checkSection description.type first) []
    if reading.bundle ≠ some (parts.map (·.mid)) then
      throw "OperationError: BUNDLE must preserve all MID identities and m-line order"
    return parts

/-- A line of a local description: `none` where it is dropped. -/
def localLine (selected : List (List AudioCodec)) (index : Option Nat) (line : Text) :
    Except String (Option Nat × Text) := do
  let crlf := text "\r\n"
  if line.startsWith "m=" then
    let index := index.elim 0 (· + 1)
    let codecs := selected.getD index []
    let fields := List.intercalate [' '] (line.splitWhitespace.take 3)
    return (some index, fields ++ codecs.flatMap (fun codec => ' ' :: Text.ofNat codec.payloadType)
      ++ crlf)
  let kept := (index, line ++ crlf)
  let some codecs := index.map (selected.getD · []) | return kept
  let some value := (line.stripPrefix "a=rtpmap:").or
    ((line.stripPrefix "a=fmtp:").or (line.stripPrefix "a=rtcp-fb:")) | return kept
  let number := value.splitWhitespace.headD []
  if number = text "*" then return kept
  let number ← payload number
  let some codec := codecs.find? (·.payloadType = number) | return (index, [])
  if codec.opus && line.startsWith "a=fmtp:" then return (index, [])
  if codec.opus && line.startsWith "a=rtpmap:" then
    return (index, line ++ crlf ++ text "a=fmtp:" ++ Text.ofNat number ++
      text " minptime=10;useinbandfec=1;stereo=1;cbr=0\r\n")
  return kept

/-- `sdp::local`: the codec policy of this side applied to a generated description. -/
def localPolicy (description : Description) (preferences : List (List Text)) :
    Except String Description := do
  let parts ← sections description
  if parts.length ≠ preferences.length then throw "OperationError: missing local codec policy"
  let selected := (parts.zip preferences).map fun (part, preferences) =>
    preferences.flatMap fun name => part.codecs.filter (·.name = name)
  if selected.any List.isEmpty then
    throw "NotSupportedError: codec preferences have no negotiated media codec"
  let (_, sdp) ← description.sdp.lines.foldlM (fun (index, result) line => do
    let (index, line) ← localLine selected index (line.trimEndMatches '\r')
    return (index, result ++ line)) ((none : Option Nat), ([] : Text))
  let description := { description with sdp }
  let _ ← sections description
  return description

/-- The direction, the stream and the track of an answer's section. -/
abbrev Identity := Text × Option Text × Option Text

def answerLine (entries : List Identity) (index : Option Nat) (line : Text) : Option Nat × Text :=
  let crlf := text "\r\n"
  let index := if line.startsWith "m=" then some (index.elim 0 (· + 1)) else index
  match index.bind (entries[·]?) with
  | none => (index, line ++ crlf)
  | some (direction, stream, track) =>
    if line ∈ directions.map (text "a=" ++ ·) then
      let identity := match sends direction, track with
        | true, some track => text "a=msid:" ++ stream.getD (text "-") ++ ' ' :: track ++ crlf
        | _, _ => []
      (index, text "a=" ++ direction ++ crlf ++ identity)
    else if line.startsWith "a=msid:" then (index, [])
    else (index, line ++ crlf)

/-- `sdp::answer` -/
def answerText (original : Text) (entries : List Identity) : Text :=
  (original.lines.foldl (fun (state : Option Nat × Text) line =>
    let (index, line) := answerLine entries state.1 (line.trimEndMatches '\r')
    (index, state.2 ++ line)) (none, [])).2

theorem checkSection_ok {part first : Section} {mids after : List Text}
    (checked : checkSection type first mids part = .ok after) :
    part.mid ∉ mids ∧ after = part.mid :: mids := by
  obtain ⟨named, checked⟩ := Fallible.guard_ok checked
  obtain ⟨_, checked⟩ := Fallible.guard_ok checked
  split at checked
  · obtain ⟨_, checked⟩ := Fallible.guard_ok checked
    obtain ⟨_, checked⟩ := Fallible.guard_ok checked
    obtain ⟨_, checked⟩ := Fallible.guard_ok checked
    cases checked
    simp only [Bool.or_eq_true, decide_eq_true_eq, not_or] at named
    exact ⟨named.2, rfl⟩
  · contradiction

theorem checkSections_nodup {parts : List Section} {mids after : List Text}
    (checked : parts.foldlM (checkSection type first) mids = .ok after) :
    (parts.map (·.mid)).Nodup ∧ ∀ part ∈ parts, part.mid ∉ mids := by
  induction parts generalizing mids with
  | nil => simp
  | cons part rest ih =>
    obtain ⟨seen, here, later⟩ := Fallible.bind_ok checked
    obtain ⟨fresh, rfl⟩ := checkSection_ok here
    obtain ⟨distinct, outside⟩ := ih later
    simp only [List.map_cons, List.nodup_cons, List.mem_map, not_exists, not_and,
      List.mem_cons, forall_eq_or_imp]
    refine ⟨⟨?_, distinct⟩, fresh, ?_⟩
    · intro other member same
      exact outside other member (by rw [same]; exact List.mem_cons_self)
    · intro other member inside
      exact outside other member (List.mem_cons_of_mem _ inside)

theorem sections_ok {description : Description} {parts : List Section}
    (read : sections description = .ok parts) : parts ≠ [] ∧ (parts.map (·.mid)).Nodup := by
  obtain ⟨_, read⟩ := Fallible.guard_ok read
  obtain ⟨_, read⟩ := Fallible.guard_ok read
  obtain ⟨reading, _, read⟩ := Fallible.bind_ok read
  obtain ⟨found, _, read⟩ := Fallible.bind_ok read
  cases found with
  | nil => contradiction
  | cons first rest =>
    obtain ⟨_, checked, read⟩ := Fallible.bind_ok read
    obtain ⟨_, read⟩ := Fallible.guard_ok read
    cases read
    exact ⟨List.cons_ne_nil _ _, (checkSections_nodup checked).1⟩

theorem localPolicy_ok {description result : Description} {preferences : List (List Text)}
    (applied : localPolicy description preferences = .ok result) :
    result.type = description.type ∧ ∃ parts, sections result = .ok parts := by
  obtain ⟨parts, _, applied⟩ := Fallible.bind_ok applied
  obtain ⟨_, applied⟩ := Fallible.guard_ok applied
  obtain ⟨_, applied⟩ := Fallible.guard_ok applied
  obtain ⟨⟨_, sdp⟩, _, applied⟩ := Fallible.bind_ok applied
  obtain ⟨again, read, applied⟩ := Fallible.bind_ok applied
  cases applied
  exact ⟨rfl, again, read⟩

end Chuzz.Webrtc
