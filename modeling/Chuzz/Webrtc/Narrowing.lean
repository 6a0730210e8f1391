import Chuzz.Webrtc.Fields

/-! The lines that the codec policy writes for a line, and what the reader makes of both: the same
sections, with the codec attributes that the policy leaves of them. -/
namespace Chuzz.Webrtc
open Library List

/-! Codecs that were chosen. -/

/-- The Opus format of this side. -/
def opusFormat : Text := text "minptime=10;useinbandfec=1;stereo=1;cbr=0"

/-- A codec as the policy's own description says it. -/
def AudioCodec.renew (codec : AudioCodec) : AudioCodec :=
  if codec.opus then
    { codec with stereo := true, fec := true, cbr := false, bitrate := none, fmtp := opusFormat }
  else codec

def choose (codecs : List AudioCodec) (preferences : List Text) : List AudioCodec :=
  preferences.flatMap fun name => codecs.filter (·.name = name)

def Section.chosen (part : Section) (preferences : List Text) : Section :=
  { part with codecs := (choose part.codecs preferences).map AudioCodec.renew }

/-- The codec that a payload type stands for. -/
def numbered (codecs : List AudioCodec) (number : Nat) : Option AudioCodec :=
  codecs.find? (·.payloadType = number)

/-! The lines that the policy writes. -/

def mediaText (line : Text) (codecs : List AudioCodec) : Text :=
  List.intercalate [' '] (line.splitWhitespace.take 3) ++
    codecs.flatMap fun codec => ' ' :: Text.ofNat codec.payloadType

def formatText (number : Nat) : Text :=
  text "a=fmtp:" ++ (Text.ofNat number ++ ' ' :: opusFormat)

/-- The payload type that a codec attribute begins with. -/
def attributed (value : Text) : Text := value.splitWhitespace.headD []

/-- The lines that stand for a line, and the section that they are in. -/
inductive Rewritten (selected : List (List AudioCodec)) (index : Option Nat) (line : Text) :
    Option Nat → List Text → Prop where
  | media : line.startsWith "m=" → Rewritten selected index line (some (index.elim 0 (· + 1)))
      [mediaText line (selected.getD (index.elim 0 (· + 1)) [])]
  | kept : line.startsWith "m=" = false →
      localLine selected index line = .ok (index, line ++ Text.crlf) →
      (∀ place, index = some place → ∀ value,
        (line.stripPrefix "a=rtpmap:").or (line.stripPrefix "a=fmtp:") = some value →
        attributed value = text "*" ∨ ∃ number codec, payload (attributed value) = .ok number ∧
          numbered (selected.getD place []) number = some codec ∧ codec.opus = false) →
      Rewritten selected index line index [line]
  | mapping {place number value codec} : index = some place →
      line.stripPrefix "a=rtpmap:" = some value → payload (attributed value) = .ok number →
      numbered (selected.getD place []) number = some codec → codec.opus →
      localLine selected index line = .ok (index, [line, formatText number].flatMap (· ++ Text.crlf)) →
      Rewritten selected index line index [line, formatText number]
  | dropped {place number value} : index = some place →
      (line.stripPrefix "a=rtpmap:").or ((line.stripPrefix "a=fmtp:").or
        (line.stripPrefix "a=rtcp-fb:")) = some value → payload (attributed value) = .ok number →
      (∀ codec, numbered (selected.getD place []) number = some codec →
        codec.opus ∧ line.startsWith "a=fmtp:") → Rewritten selected index line index []

theorem startsWith_of_stripPrefix {line rest : Text} {start : String}
    (stripped : line.stripPrefix start = some rest) : line.startsWith start := by
  unfold Text.stripPrefix at stripped
  split at stripped
  · assumption
  · cases stripped

variable {line : Text}

theorem stripPrefix_of_startsWith {start : String} (starts : line.startsWith start) :
    ∃ rest, line.stripPrefix start = some rest :=
  ⟨_, if_pos starts⟩

theorem formatText_chunk (line : Text) (number : Nat) :
    line ++ text "\r\n" ++ text "a=fmtp:" ++ Text.ofNat number ++
        text " minptime=10;useinbandfec=1;stereo=1;cbr=0\r\n" =
      [line, formatText number].flatMap (· ++ Text.crlf) := by
  have written : text " minptime=10;useinbandfec=1;stereo=1;cbr=0\r\n" =
      ' ' :: opusFormat ++ Text.crlf := by decide
  rw [written, flatMap_cons, flatMap_singleton, formatText]
  simp only [append_assoc, cons_append]
  rfl

theorem localLine_rewritten {selected : List (List AudioCodec)} {index next : Option Nat}
    {line chunk : Text} (done : localLine selected index line = .ok (next, chunk)) :
    ∃ ls, Rewritten selected index line next ls ∧ chunk = ls.flatMap (· ++ Text.crlf) := by
  have alone (line : Text) : line ++ text "\r\n" = [line].flatMap (· ++ Text.crlf) :=
    (append_nil _).symm
  have whole := done
  unfold localLine at done
  split at done
  · rename_i media
    cases done
    exact ⟨_, .media media, alone _⟩
  · rename_i other
    have other := Bool.eq_false_iff.mpr other
    cases index with
    | none =>
      cases done
      exact ⟨_, .kept other whole nofun, alone _⟩
    | some place =>
      dsimp only [Option.map_some] at done
      split at done
      · rename_i value read
        have mapped : ∀ value', (line.stripPrefix "a=rtpmap:").or (line.stripPrefix "a=fmtp:") =
            some value' → value' = value := by
          intro value' found
          rw [← Option.or_assoc, found] at read
          exact Option.some.inj read
        split at done
        · rename_i every
          cases done
          refine ⟨_, .kept other whole fun _ _ value' found => .inl ?_, alone _⟩
          rw [mapped value' found]
          exact every
        · obtain ⟨number, numeral, done⟩ := Fallible.bind_ok done
          split at done
          · rename_i codec found
            split at done
            · rename_i own
              cases done
              rw [Bool.and_eq_true] at own
              refine ⟨[], .dropped rfl read numeral fun codec' found' => ?_, rfl⟩
              obtain rfl : codec = codec' := Option.some.inj (found.symm.trans found')
              exact own
            · rename_i foreign
              split at done
              · rename_i own
                cases done
                rw [Bool.and_eq_true] at own
                obtain ⟨rest, stripped⟩ := stripPrefix_of_startsWith own.2
                obtain rfl : rest = value := mapped rest (by rw [stripped]; rfl)
                rw [formatText_chunk line number] at whole
                exact ⟨_, .mapping rfl stripped numeral found own.1 whole,
                  formatText_chunk line number⟩
              · rename_i foreign'
                cases done
                refine ⟨_, .kept other whole fun place' same value' found' => .inr ?_, alone _⟩
                cases same
                rw [mapped value' found']
                refine ⟨number, codec, numeral, found, Bool.eq_false_iff.mpr fun opus => ?_⟩
                rcases Option.or_eq_some_iff.mp found' with mapping | ⟨_, format⟩
                · exact foreign' (by rw [opus, startsWith_of_stripPrefix mapping]; rfl)
                · exact foreign (by rw [opus, startsWith_of_stripPrefix format]; rfl)
          · rename_i unknown
            cases done
            refine ⟨[], .dropped rfl read numeral fun codec found => ?_, rfl⟩
            exact absurd found (unknown codec)
      · rename_i unread
        cases done
        refine ⟨_, .kept other whole fun _ _ value found => ?_, alone _⟩
        rw [← Option.or_assoc, found] at unread
        exact (unread value rfl).elim

/-! What the reader makes of these lines. -/

/-- The payload type of a codec attribute, and what is said of it. -/
def assigned (value : Text) : Except String (Nat × Text) := do
  let some (number, value) := value.splitOnce ' '
    | throw "OperationError: incomplete audio codec attribute"
  return (← payload number, value.trim)

theorem assigned_ok {value rest : Text} {number : Nat}
    (read : assigned value = .ok (number, rest)) :
    ∃ first after : Text, value = first ++ ' ' :: after ∧ payload first = .ok number ∧
      rest = after.trim ∧ attributed value = first := by
  unfold assigned at read
  split at read
  · rename_i first after split
    obtain ⟨found, numeral, read⟩ := Fallible.bind_ok read
    cases read
    have parts := splitOnce_some split
    refine ⟨first, after, parts, numeral, rfl, ?_⟩
    rw [attributed, parts, Text.splitWhitespace_cons (word_of_payload numeral)]
    rfl
  · cases read

/-- What a line adds to the codecs of its section. -/
inductive Mapped (mapping : Mapping) (line : Text) : Mapping → Prop where
  | name {value number rest} : line.stripPrefix "a=rtpmap:" = some value →
      assigned value = .ok (number, rest) →
      Mapped mapping line { mapping with names := (number, rest) :: mapping.names }
  | format {value number rest} : line.stripPrefix "a=rtpmap:" = none →
      line.stripPrefix "a=fmtp:" = some value → assigned value = .ok (number, rest) →
      Mapped mapping line { mapping with formats := (number, rest) :: mapping.formats }
  | other : line.stripPrefix "a=rtpmap:" = none → line.stripPrefix "a=fmtp:" = none →
      Mapped mapping line mapping

theorem insertNew_ok {table after : List (Nat × Text)} {number : Nat} {value : Text}
    (added : insertNew table number value = .ok after) : after = (number, value) :: table := by
  unfold insertNew at added
  split at added
  · cases added
  · exact (Except.ok.inj added).symm

theorem mappingAttribute_mapped {mapping after : Mapping}
    (read : mappingAttribute mapping line = .ok after) : Mapped mapping line after := by
  unfold mappingAttribute at read
  split at read
  · rename_i value named
    obtain ⟨⟨number, rest⟩, said, read⟩ := Fallible.bind_ok read
    obtain ⟨names, added, read⟩ := Fallible.bind_ok read
    cases read
    rw [insertNew_ok added]
    exact .name named said
  · rename_i value unnamed formed
    obtain ⟨⟨number, rest⟩, said, read⟩ := Fallible.bind_ok read
    obtain ⟨formats, added, read⟩ := Fallible.bind_ok read
    cases read
    rw [insertNew_ok added]
    exact .format unnamed formed said
  · rename_i unnamed unformed
    cases read
    exact .other unnamed unformed

/-- What the reader does with one line. -/
inductive Read (reading : Reading) (line : Text) : Reading → Prop where
  | bundle {value} : line.stripPrefix "a=group:BUNDLE " = some value →
      Read reading line { reading with bundle := some value.splitWhitespace }
  | media {added} : line.startsWith "m=" →
      mediaLine reading.defaults reading.media.length line = .ok added →
      Read reading line { reading with media := reading.media ++ [added] }
  | session {defaults} : line.stripPrefix "a=group:BUNDLE " = none →
      line.startsWith "m=" = false → reading.media = [] →
      attributes reading.defaults line = .ok defaults → Read reading line { reading with defaults }
  | part {before part mapping part' mapping'} : line.stripPrefix "a=group:BUNDLE " = none →
      line.startsWith "m=" = false → reading.media = before ++ [(part, mapping)] →
      attributes part line = .ok part' → Mapped mapping line mapping' →
      Read reading line { reading with media := before ++ [(part', mapping')] }

theorem readLine_read {reading after : Reading} (read : readLine reading line = .ok after) :
    Read reading (line.trimEndMatches '\r') after := by
  unfold readLine at read
  generalize line.trimEndMatches '\r' = line at read ⊢
  dsimp only at read
  split at read
  · rename_i value stripped
    obtain ⟨_, read⟩ := Fallible.guard_ok read
    cases read
    exact .bundle stripped
  · rename_i unbundled
    have unbundled := Option.eq_none_iff_forall_not_mem.mpr unbundled
    split at read
    · rename_i media
      obtain ⟨added, here, read⟩ := Fallible.bind_ok read
      cases read
      exact .media media here
    · rename_i media
      have media := Bool.eq_false_iff.mpr media
      obtain ⟨next, here, read⟩ := Fallible.bind_ok read
      obtain ⟨_, read⟩ := Fallible.guard_ok read
      cases read
      unfold readAttribute at here
      cases last : reading.media.getLast? with
      | none =>
        rw [last] at here
        obtain ⟨defaults, said, here⟩ := Fallible.bind_ok here
        cases here
        exact .session unbundled media (getLast?_eq_none_iff.mp last) said
      | some item =>
        obtain ⟨part, mapping⟩ := item
        rw [last] at here
        obtain ⟨part', said, here⟩ := Fallible.bind_ok here
        obtain ⟨mapping', mapped, here⟩ := Fallible.bind_ok here
        cases here
        obtain ⟨before, shape⟩ := getLast?_eq_some_iff.mp last
        rw [shape, dropLast_concat]
        exact .part unbundled media shape said (mappingAttribute_mapped mapped)

/-- A codec attribute says nothing else. -/
structure Codecs (line : Text) : Prop where
  bundle : line.stripPrefix "a=group:BUNDLE " = none
  media : line.startsWith "m=" = false
  attributes : ∀ part, attributes part line = .ok part

theorem codecs_attribute {start rest : Text}
    (known : start ∈ [text "a=rtpmap:", text "a=fmtp:", text "a=rtcp-fb:"]) :
    Codecs (start ++ rest) := by
  have three : start = text "a=rtpmap:" ∨ start = text "a=fmtp:" ∨ start = text "a=rtcp-fb:" := by
    simpa only [mem_cons, not_mem_nil, or_false] using known
  rcases three with rfl | rfl | rfl
  · exact ⟨rfl, rfl, fun _ => rfl⟩
  · exact ⟨rfl, rfl, fun _ => rfl⟩
  · exact ⟨rfl, rfl, fun _ => rfl⟩

theorem codecs_of_format {line value : Text}
    (found : (line.stripPrefix "a=rtpmap:").or ((line.stripPrefix "a=fmtp:").or
      (line.stripPrefix "a=rtcp-fb:")) = some value) : Codecs line := by
  rcases Option.or_eq_some_iff.mp found with mapping | ⟨_, found⟩
  · rw [Text.stripPrefix_some mapping]
    exact codecs_attribute (by decide)
  · rcases Option.or_eq_some_iff.mp found with format | ⟨_, feedback⟩
    · rw [Text.stripPrefix_some format]
      exact codecs_attribute (by decide)
    · rw [Text.stripPrefix_some feedback]
      exact codecs_attribute (by decide)

theorem mediaLine_ok {defaults part : Section} {count : Nat} {mapping : Mapping}
    (read : mediaLine defaults count line = .ok (part, mapping)) :
    ∃ kind port protocol formats, line.splitWhitespace = kind :: port :: protocol :: formats ∧
      kind ∈ [text "m=audio", text "m=video"] ∧
      part = { defaults with kind := if kind = text "m=video" then .video else .audio } ∧
      formats.mapM payload = .ok mapping.payloads ∧ mapping.payloads.Nodup ∧
      mapping = { payloads := mapping.payloads } := by
  unfold mediaLine at read
  split at read
  · rename_i kind port protocol format formats fields
    obtain ⟨valid, read⟩ := Fallible.guard_ok read
    obtain ⟨_, read⟩ := Fallible.guard_ok read
    obtain ⟨payloads, numerals, read⟩ := Fallible.bind_ok read
    obtain ⟨distinct, read⟩ := Fallible.guard_ok read
    cases read
    rw [Bool.or_eq_true, Bool.or_eq_true, not_or, not_or, decide_eq_true_eq, not_not] at valid
    exact ⟨kind, port, protocol, _, fields, valid.1.1, rfl, numerals, not_not.mp distinct, rfl⟩
  · cases read

/-- A line as the readers take it. -/
structure Clean (line : Text) : Prop where
  whole : '\n' ∉ line
  trimmed : line.trimEndMatches '\r' = line

theorem Text.Word.whole {word : Text} (plain : word.Word) : '\n' ∉ word := by
  intro inside
  exact absurd (plain.black '\n' inside) (by decide)

theorem trimEndMatches_word {word : Text} (plain : word.Word) (start : Text) :
    (start ++ word).trimEndMatches '\r' = start ++ word := by
  rcases eq_nil_or_concat' word with rfl | ⟨init, last, rfl⟩
  · exact absurd rfl plain.more
  · have black := plain.black last (mem_append_right _ (mem_singleton_self _))
    have other : last ≠ '\r' := by
      rintro rfl
      exact absurd black (by decide)
    have kept (rest : Text) : (last :: rest).dropWhile (· = '\r') = last :: rest :=
      dropWhile_cons_of_neg (by simpa using other)
    rw [Text.trimEndMatches, ← append_assoc, reverse_concat, kept, reverse_cons,
      reverse_reverse]

section
variable {word : Text} {words : List Text} (plain : word.Word)
  (others : ∀ other ∈ words, other.Word)
include plain others

theorem fields_trimmed :
    (word ++ words.flatMap (' ' :: ·)).trimEndMatches '\r' = word ++ words.flatMap (' ' :: ·) := by
  rcases eq_nil_or_concat' words with rfl | ⟨init, last, rfl⟩
  · rw [flatMap_nil, append_nil]
    exact trimEndMatches_word plain []
  · have shape : word ++ (init ++ [last]).flatMap (' ' :: ·) =
        (word ++ init.flatMap (' ' :: ·) ++ [' ']) ++ last := by
      rw [flatMap_append, flatMap_singleton]
      simp only [append_assoc, singleton_append]
    rw [shape]
    exact trimEndMatches_word (others last (mem_append_right _ (mem_singleton_self _))) _

theorem fields_whole : '\n' ∉ word ++ words.flatMap (' ' :: ·) := by
  intro inside
  rcases mem_append.mp inside with first | later
  · exact plain.whole first
  · obtain ⟨other, member, inside⟩ := mem_flatMap.mp later
    rcases mem_cons.mp inside with blank | there
    · exact absurd blank (by decide)
    · exact (others other member).whole there

end

theorem formatText_trimmed (number : Nat) :
    (formatText number).trimEndMatches '\r' = formatText number := by
  have word : Text.Word opusFormat := ⟨by decide, by simp [opusFormat, text]; decide⟩
  have shape : formatText number = (text "a=fmtp:" ++ (Text.ofNat number ++ [' '])) ++ opusFormat := by
    rw [formatText]
    simp only [append_assoc, singleton_append]
  rw [shape, trimEndMatches_word word]

/-- The fields of an m-line with other payload types. -/
structure MediaText (line : Text) (codecs : List AudioCodec) (kind port protocol : Text) : Prop where
  known : kind ∈ [text "m=audio", text "m=video"]
  fields : (mediaText line codecs).splitWhitespace =
    kind :: port :: protocol :: codecs.map fun codec => Text.ofNat codec.payloadType
  clean : Clean (mediaText line codecs)
  starts : (mediaText line codecs).startsWith "m="

theorem mediaText_fields {line kind port protocol : Text} {formats : List Text}
    (codecs : List AudioCodec) (fields : line.splitWhitespace = kind :: port :: protocol :: formats)
    (known : kind ∈ [text "m=audio", text "m=video"]) :
    MediaText line codecs kind port protocol := by
  have words : ∀ word ∈ line.splitWhitespace, word.Word := fun _ => Text.word_splitWhitespace
  rw [fields] at words
  have shape : mediaText line codecs = kind ++ (port :: protocol ::
      codecs.map fun codec => Text.ofNat codec.payloadType).flatMap (' ' :: ·) := by
    rw [mediaText, fields]
    change List.intercalate [' '] [kind, port, protocol] ++ _ = _
    rw [intercalate_cons_cons, intercalate_cons_cons, intercalate_singleton,
      flatMap_cons, flatMap_cons, flatMap_map]
    simp only [append_assoc, cons_append, nil_append]
  have plain : kind.Word := words kind mem_cons_self
  have others : ∀ word ∈ port :: protocol ::
      codecs.map fun codec => Text.ofNat codec.payloadType, word.Word := by
    refine forall_mem_cons.mpr ⟨words port (by simp), forall_mem_cons.mpr
      ⟨words protocol (by simp), fun word member => ?_⟩⟩
    obtain ⟨codec, _, rfl⟩ := mem_map.mp member
    exact Text.word_ofNat _
  refine ⟨known, ?_, ?_, ?_⟩
  · rw [shape, Text.splitWhitespace_fields plain others]
  · rw [shape]
    exact ⟨fields_whole plain others, fields_trimmed plain others⟩
  · rw [shape]
    have two : kind = text "m=audio" ∨ kind = text "m=video" := by
      simpa only [mem_cons, not_mem_nil, or_false] using known
    rcases two with rfl | rfl <;> rfl

/-! The two readings, side by side. -/

/-- The codec attributes of a section beside those that the policy leaves of them. -/
structure Narrowed (codecs : List AudioCodec) (mapping narrow : Mapping) : Prop where
  payloads : narrow.payloads = codecs.map (·.payloadType)
  distinct : narrow.payloads.Nodup
  names : ∀ number, narrow.names.lookup number =
    (numbered codecs number).bind fun _ => mapping.names.lookup number
  formats : ∀ number, narrow.formats.lookup number = (numbered codecs number).bind fun codec =>
    if codec.opus then (mapping.names.lookup number).map fun _ => opusFormat
    else mapping.formats.lookup number

theorem lookup_insert (table : List (Nat × Text)) (number other : Nat) (value : Text) :
    ((number, value) :: table).lookup other =
      if other = number then some value else table.lookup other := by
  by_cases same : other = number
  · rw [if_pos same, same, lookup_cons_self]
  · rw [if_neg same, lookup_cons, beq_eq_false_iff_ne.mpr same]

namespace Narrowed
variable {codecs : List AudioCodec} {mapping narrow : Mapping} {number : Nat} {value : Text}

theorem changed {mapping' narrow' : Mapping} (narrowed : Narrowed codecs mapping narrow)
    (number : Nat)
    (payloads : narrow'.payloads = narrow.payloads)
    (others : ∀ other ≠ number, mapping'.names.lookup other = mapping.names.lookup other ∧
      mapping'.formats.lookup other = mapping.formats.lookup other ∧
      narrow'.names.lookup other = narrow.names.lookup other ∧
      narrow'.formats.lookup other = narrow.formats.lookup other)
    (names : narrow'.names.lookup number =
      (numbered codecs number).bind fun _ => mapping'.names.lookup number)
    (formats : narrow'.formats.lookup number = (numbered codecs number).bind fun codec =>
      if codec.opus then (mapping'.names.lookup number).map fun _ => opusFormat
      else mapping'.formats.lookup number) : Narrowed codecs mapping' narrow' := by
  refine ⟨payloads.trans narrowed.payloads, payloads ▸ narrowed.distinct, fun other => ?_,
    fun other => ?_⟩
  · by_cases same : other = number
    · rw [same]
      exact names
    · obtain ⟨one, _, three, _⟩ := others other same
      rw [three, one]
      exact narrowed.names other
  · by_cases same : other = number
    · rw [same]
      exact formats
    · obtain ⟨one, two, _, four⟩ := others other same
      rw [four, one, two]
      exact narrowed.formats other

variable {codec : AudioCodec}

section
variable (narrowed : Narrowed codecs mapping narrow)
include narrowed

theorem name (found : numbered codecs number = some codec) (foreign : codec.opus = false) :
    Narrowed codecs { mapping with names := (number, value) :: mapping.names }
      { narrow with names := (number, value) :: narrow.names } := by
  refine narrowed.changed number rfl (fun other differs => ?_) ?_ ?_
  · simp only [lookup_insert, if_neg differs, and_self]
  · simp only [lookup_insert, if_true, found, Option.bind_some]
  · rw [narrowed.formats number, found, Option.bind_some, Option.bind_some, foreign]
    rfl

theorem format (found : numbered codecs number = some codec) (foreign : codec.opus = false) :
    Narrowed codecs { mapping with formats := (number, value) :: mapping.formats }
      { narrow with formats := (number, value) :: narrow.formats } := by
  refine narrowed.changed number rfl (fun other differs => ?_) (narrowed.names number) ?_
  · simp only [lookup_insert, if_neg differs, and_self]
  · simp only [lookup_insert, if_true, found, Option.bind_some, foreign, Bool.false_eq_true,
      if_false]

theorem opus (found : numbered codecs number = some codec) (own : codec.opus) :
    Narrowed codecs { mapping with names := (number, value) :: mapping.names }
      { narrow with
        names := (number, value) :: narrow.names
        formats := (number, opusFormat) :: narrow.formats } := by
  refine narrowed.changed number rfl (fun other differs => ?_) ?_ ?_
  · simp only [lookup_insert, if_neg differs, and_self]
  · simp only [lookup_insert, if_true, found, Option.bind_some]
  · simp only [lookup_insert, if_true, found, Option.bind_some, own, Option.map_some]

theorem unnamed (unknown : numbered codecs number = none) :
    Narrowed codecs { mapping with names := (number, value) :: mapping.names } narrow := by
  refine narrowed.changed number rfl (fun other differs => ?_) ?_ ?_
  · simp only [lookup_insert, if_neg differs, and_self]
  · rw [narrowed.names number, unknown]
    rfl
  · rw [narrowed.formats number, unknown]
    rfl

theorem unformatted (replaced : ∀ codec, numbered codecs number = some codec → codec.opus) :
    Narrowed codecs { mapping with formats := (number, value) :: mapping.formats } narrow := by
  refine narrowed.changed number rfl (fun other differs => ?_) (narrowed.names number) ?_
  · simp only [lookup_insert, if_neg differs, and_self]
  · rw [narrowed.formats number]
    cases found : numbered codecs number with
    | none => rfl
    | some codec => rw [Option.bind_some, Option.bind_some, replaced codec found]; rfl

/-- A codec attribute that is kept speaks of a chosen codec, and of no Opus one. -/
theorem kept {line : Text} {after after' : Mapping}
    (mapped : Mapped mapping line after) (mapped' : Mapped narrow line after')
    (spares : ∀ value,
      (line.stripPrefix "a=rtpmap:").or (line.stripPrefix "a=fmtp:") = some value →
      attributed value = text "*" ∨ ∃ number codec, payload (attributed value) = .ok number ∧
        numbered codecs number = some codec ∧ codec.opus = false) :
    Narrowed codecs after after' := by
  have chosen {value rest : Text} {number : Nat} (said : assigned value = .ok (number, rest))
      (found : (line.stripPrefix "a=rtpmap:").or (line.stripPrefix "a=fmtp:") = some value) :
      ∃ codec, numbered codecs number = some codec ∧ codec.opus = false := by
    obtain ⟨first, _, _, numeral, _, begins⟩ := assigned_ok said
    rcases spares value found with every | ⟨number', codec, numeral', known, other⟩
    · rw [begins] at every
      have unread : payload (text "*") = throw "OperationError: invalid audio payload type" := rfl
      rw [every, unread] at numeral
      cases numeral
    · rw [begins, numeral] at numeral'
      cases numeral'
      exact ⟨codec, known, other⟩
  cases mapped with
  | name stripped said =>
    obtain ⟨codec, known, other⟩ := chosen said (by rw [stripped]; rfl)
    cases mapped' with
    | name stripped' said' =>
      rw [stripped] at stripped'
      cases stripped'
      rw [said] at said'
      cases said'
      exact narrowed.name known other
    | format none => rw [none] at stripped; cases stripped
    | other none => rw [none] at stripped; cases stripped
  | format unnamed stripped said =>
    obtain ⟨codec, known, other⟩ := chosen said (by rw [unnamed, stripped]; rfl)
    cases mapped' with
    | name stripped' => rw [unnamed] at stripped'; cases stripped'
    | other _ none => rw [none] at stripped; cases stripped
    | format _ stripped' said' =>
      rw [stripped] at stripped'
      cases stripped'
      rw [said] at said'
      cases said'
      exact narrowed.format known other
  | other unnamed unformed =>
    cases mapped' with
    | name stripped' => rw [unnamed] at stripped'; cases stripped'
    | format _ stripped' => rw [unformed] at stripped'; cases stripped'
    | other => exact narrowed

/-- A codec attribute that is dropped speaks of no chosen codec, or is an Opus format. -/
theorem dropped {line value : Text} {after : Mapping} (mapped : Mapped mapping line after)
    (read : (line.stripPrefix "a=rtpmap:").or ((line.stripPrefix "a=fmtp:").or
      (line.stripPrefix "a=rtcp-fb:")) = some value) (numeral : payload (attributed value) = .ok number)
    (replaced : ∀ codec, numbered codecs number = some codec →
      codec.opus ∧ line.startsWith "a=fmtp:") : Narrowed codecs after narrow := by
  cases mapped with
  | @name value' number' rest stripped said =>
    obtain rfl : value' = value := by
      rw [stripped] at read
      exact Option.some.inj read
    obtain ⟨first, _, _, numeral', _, begins⟩ := assigned_ok said
    rw [begins, numeral'] at numeral
    cases numeral
    refine narrowed.unnamed (Option.eq_none_iff_forall_not_mem.mpr fun codec found => ?_)
    have format := (replaced codec found).2
    rw [Text.stripPrefix_some stripped] at format
    cases format
  | @format value' number' rest unnamed stripped said =>
    obtain rfl : value' = value := by
      rw [unnamed, stripped] at read
      exact Option.some.inj read
    obtain ⟨first, _, _, numeral', _, begins⟩ := assigned_ok said
    rw [begins, numeral'] at numeral
    cases numeral
    exact narrowed.unformatted fun codec found => (replaced codec found).1
  | other => exact narrowed

theorem mapped {line value : Text}
    {after middle after' : Mapping} (stripped : line.stripPrefix "a=rtpmap:" = some value)
    (numeral : payload (attributed value) = .ok number)
    (found : numbered codecs number = some codec) (own : codec.opus)
    (mapped : Mapped mapping line after) (first : Mapped narrow line middle)
    (second : Mapped middle (formatText number) after') : Narrowed codecs after after' := by
  have format : (formatText number).stripPrefix "a=fmtp:" =
      some (Text.ofNat number ++ ' ' :: opusFormat) := rfl
  cases mapped with
  | format none => rw [none] at stripped; cases stripped
  | other none => rw [none] at stripped; cases stripped
  | @name value' number' rest stripped' said =>
    rw [stripped] at stripped'
    cases stripped'
    obtain ⟨_, _, _, numeral', _, begins⟩ := assigned_ok said
    rw [begins, numeral'] at numeral
    cases numeral
    cases first with
    | format none => rw [none] at stripped; cases stripped
    | other none => rw [none] at stripped; cases stripped
    | name stripped' said' =>
      rw [stripped] at stripped'
      cases stripped'
      rw [said] at said'
      cases said'
      cases second with
      | name named => cases named
      | other _ none => rw [format] at none; cases none
      | @format value'' number'' rest'' _ formed written =>
        rw [format] at formed
        cases formed
        obtain ⟨one, two, parts, numeral'', shown, begins'⟩ := assigned_ok written
        rw [attributed, Text.splitWhitespace_cons (Text.word_ofNat number)] at begins'
        obtain rfl : Text.ofNat number = one := begins'
        obtain rfl := payload_ofNat numeral''
        obtain rfl : opusFormat = two := (List.cons.inj (append_cancel_left parts)).2
        have trimmed : opusFormat.trim = opusFormat := by decide
        rw [shown, trimmed]
        exact narrowed.opus found own

end

end Narrowed

/-- Sections that were read alike, with their codec attributes. -/
def Linked (selected : List (List AudioCodec)) (media narrow : List (Section × Mapping)) : Prop :=
  narrow.length = media.length ∧ ∀ place whole part, media[place]? = some whole →
    narrow[place]? = some part → part.1 = whole.1 ∧
      Narrowed (selected.getD place []) whole.2 part.2

theorem linked_concat {selected : List (List AudioCodec)} {media narrow : List (Section × Mapping)}
    {whole part : Section × Mapping} :
    Linked selected (media ++ [whole]) (narrow ++ [part]) ↔ Linked selected media narrow ∧
      part.1 = whole.1 ∧ Narrowed (selected.getD media.length []) whole.2 part.2 := by
  constructor
  · rintro ⟨sizes, each⟩
    have size : narrow.length = media.length := by
      simpa only [length_append, length_singleton, Nat.add_right_cancel_iff] using sizes
    refine ⟨⟨size, fun place whole' part' found found' => ?_⟩, ?_⟩
    · refine each place whole' part' ?_ ?_
      · rwa [List.getElem?_append_left (List.getElem?_eq_some_iff.mp found).1]
      · rwa [List.getElem?_append_left (List.getElem?_eq_some_iff.mp found').1]
    · refine each media.length whole part getElem?_concat_length ?_
      rw [← size]
      exact getElem?_concat_length
  · rintro ⟨⟨size, each⟩, same, narrowed⟩
    refine ⟨by simp only [length_append, length_singleton, size], ?_⟩
    intro place whole' part' found found'
    rcases Nat.lt_trichotomy place media.length with early | rfl | late
    · rw [getElem?_append_left early] at found
      rw [getElem?_append_left (size ▸ early)] at found'
      exact each place whole' part' found found'
    · rw [getElem?_concat_length] at found
      rw [← size, getElem?_concat_length] at found'
      cases found
      cases found'
      exact ⟨same, narrowed⟩
    · rw [getElem?_eq_none (by simp only [length_append, length_singleton]; omega)]
        at found
      cases found

structure Followed (selected : List (List AudioCodec)) (index : Option Nat)
    (reading narrow : Reading) : Prop where
  defaults : narrow.defaults = reading.defaults
  bundle : narrow.bundle = reading.bundle
  index : index.elim 0 (· + 1) = reading.media.length
  linked : Linked selected reading.media narrow.media

namespace Followed
variable {selected : List (List AudioCodec)} {index : Option Nat} {reading narrow : Reading}

section
variable (followed : Followed selected index reading narrow)
include followed

theorem empty (none : reading.media = []) : narrow.media = [] ∧ index = Option.none := by
  refine ⟨eq_nil_of_length_eq_zero ?_, ?_⟩
  · rw [followed.linked.1, none]
    rfl
  · have place := followed.index
    rw [none] at place
    cases index with
    | none => rfl
    | some place' => cases place

theorem last {before : List (Section × Mapping)} {part : Section} {mapping : Mapping}
    (shape : reading.media = before ++ [(part, mapping)]) :
    ∃ before' mapping', narrow.media = before' ++ [(part, mapping')] ∧
      Linked selected before before' ∧ Narrowed (selected.getD before.length []) mapping mapping' ∧
        index = some before.length := by
  have linked := followed.linked
  have place := followed.index
  rw [shape] at linked place
  rcases eq_nil_or_concat' narrow.media with none | ⟨before', ⟨part', mapping'⟩, shape'⟩
  · rw [none] at linked
    have size := linked.1
    simp at size
  · rw [shape', linked_concat] at linked
    obtain ⟨linked, same, narrowed⟩ := linked
    subst same
    refine ⟨before', mapping', shape', linked, narrowed, ?_⟩
    rw [length_append, length_singleton] at place
    cases index with
    | none => cases place
    | some place' => rw [Nat.succ_inj.mp place]

theorem kept {line : Text}
    {after after' : Reading} (media : line.startsWith "m=" = false) (read : Read reading line after)
    (again : Read narrow line after')
    (spares : ∀ place, index = some place → ∀ value,
      (line.stripPrefix "a=rtpmap:").or (line.stripPrefix "a=fmtp:") = some value →
      attributed value = text "*" ∨ ∃ number codec, payload (attributed value) = .ok number ∧
        numbered (selected.getD place []) number = some codec ∧ codec.opus = false) :
    Followed selected index after after' := by
  cases read with
  | media starts =>
    rw [media] at starts
    cases starts
  | bundle stripped =>
    cases again with
    | media starts =>
      rw [media] at starts
      cases starts
    | session unbundled =>
      rw [unbundled] at stripped
      cases stripped
    | part unbundled =>
      rw [unbundled] at stripped
      cases stripped
    | bundle stripped' =>
      rw [stripped] at stripped'
      cases stripped'
      exact ⟨followed.defaults, rfl, followed.index, followed.linked⟩
  | session unbundled _ none said =>
    obtain ⟨none', _⟩ := followed.empty none
    cases again with
    | media starts =>
      rw [media] at starts
      cases starts
    | bundle stripped =>
      rw [unbundled] at stripped
      cases stripped
    | part _ _ shape =>
      rw [none'] at shape
      exact absurd shape.symm (by simp)
    | session _ _ _ said' =>
      rw [followed.defaults, said] at said'
      cases said'
      exact ⟨rfl, followed.bundle, followed.index, followed.linked⟩
  | @part before part mapping part' mapping' unbundled _ shape said mapped =>
    obtain ⟨before', narrow', shape', linked, narrowed, rfl⟩ := followed.last shape
    cases again with
    | media starts =>
      rw [media] at starts
      cases starts
    | bundle stripped =>
      rw [unbundled] at stripped
      cases stripped
    | session _ _ none =>
      rw [none] at shape'
      exact absurd shape'.symm (by simp)
    | @part _ _ _ _ narrow'' _ _ there said' mapped' =>
      rw [shape'] at there
      obtain ⟨rfl, same⟩ := append_inj' there rfl
      cases same
      rw [said] at said'
      cases said'
      refine ⟨followed.defaults, followed.bundle, ?_, linked_concat.mpr ⟨linked, rfl, ?_⟩⟩
      · rw [length_append]
        rfl
      · exact narrowed.kept mapped mapped' (spares before.length rfl)

end

theorem codecs {line : Text} {after : Reading} {place : Nat} (plain : Codecs line)
    (followed : Followed selected (some place) reading narrow) (read : Read reading line after) :
    ∃ before part mapping mapping', reading.media = before ++ [(part, mapping)] ∧
      Mapped mapping line mapping' ∧
      after = { reading with media := before ++ [(part, mapping')] } ∧ place = before.length := by
  cases read with
  | bundle stripped => rw [plain.bundle] at stripped; cases stripped
  | media starts => rw [plain.media] at starts; cases starts
  | session _ _ none => cases (followed.empty none).2
  | @part before part mapping part' mapping' _ _ shape said mapped =>
    rw [plain.attributes] at said
    cases said
    obtain ⟨_, _, _, _, _, same⟩ := followed.last shape
    exact ⟨before, part, mapping, mapping', shape, mapped, rfl, Option.some.inj same⟩

theorem dropped {line value : Text} {after : Reading} {place number : Nat}
    (followed : Followed selected (some place) reading narrow) (read : Read reading line after)
    (found : (line.stripPrefix "a=rtpmap:").or ((line.stripPrefix "a=fmtp:").or
      (line.stripPrefix "a=rtcp-fb:")) = some value) (numeral : payload (attributed value) = .ok number)
    (replaced : ∀ codec, numbered (selected.getD place []) number = some codec →
      codec.opus ∧ line.startsWith "a=fmtp:") :
    Followed selected (some place) after narrow := by
  obtain ⟨before, part, mapping, mapping', shape, mapped, rfl, rfl⟩ :=
    followed.codecs (codecs_of_format found) read
  obtain ⟨before', narrow', shape', linked, narrowed, _⟩ := followed.last shape
  refine ⟨followed.defaults, followed.bundle, ?_, ?_⟩
  · rw [length_append]
    rfl
  · rw [shape']
    exact linked_concat.mpr ⟨linked, rfl, narrowed.dropped mapped found numeral replaced⟩

theorem mapping {line value : Text} {after middle after' : Reading} {place number : Nat}
    {codec : AudioCodec} (followed : Followed selected (some place) reading narrow)
    (read : Read reading line after) (stripped : line.stripPrefix "a=rtpmap:" = some value)
    (numeral : payload (attributed value) = .ok number)
    (found : numbered (selected.getD place []) number = some codec) (own : codec.opus)
    (first : Read narrow line middle) (second : Read middle (formatText number) after') :
    Followed selected (some place) after after' := by
  have plain : Codecs line := codecs_of_format (by rw [stripped]; rfl)
  have format : Codecs (formatText number) := codecs_attribute (by decide)
  obtain ⟨before, part, mapping, mapping', shape, mapped, rfl, rfl⟩ := followed.codecs plain read
  obtain ⟨before', narrow', shape', linked, narrowed, _⟩ := followed.last shape
  cases first with
  | bundle stripped => rw [plain.bundle] at stripped; cases stripped
  | media starts => rw [plain.media] at starts; cases starts
  | session _ _ none => rw [none] at shape'; exact absurd shape'.symm (by simp)
  | part _ _ there said mapped' =>
    rw [shape'] at there
    obtain ⟨rfl, same⟩ := append_inj' there rfl
    cases same
    rw [plain.attributes] at said
    cases said
    cases second with
    | bundle stripped => rw [format.bundle] at stripped; cases stripped
    | media starts => rw [format.media] at starts; cases starts
    | session _ _ none => exact absurd none (by simp)
    | part _ _ there said mapped'' =>
      obtain ⟨rfl, same⟩ := append_inj' there rfl
      cases same
      cases said
      refine ⟨followed.defaults, followed.bundle, ?_, linked_concat.mpr ⟨linked, rfl, ?_⟩⟩
      · rw [length_append]
        rfl
      · exact narrowed.mapped stripped numeral found own mapped mapped' mapped''

theorem media {line : Text} {after after' : Reading} (starts : line.startsWith "m=")
    (followed : Followed selected index reading narrow) (read : Read reading line after)
    (again : readLine narrow (mediaText line (selected.getD (index.elim 0 (· + 1)) [])) = .ok after') :
    Followed selected (some (index.elim 0 (· + 1))) after after' := by
  have unbundled {line : Text} (starts : line.startsWith "m=") {value : Text} :
      line.stripPrefix "a=group:BUNDLE " ≠ some value := by
    intro stripped
    rw [Text.stripPrefix_some stripped] at starts
    cases starts
  have count : reading.media.length = index.elim 0 (· + 1) := followed.index.symm
  cases read with
  | bundle stripped => exact absurd stripped (unbundled starts)
  | session _ other => rw [other] at starts; cases starts
  | part _ other => rw [other] at starts; cases starts
  | @media added _ here =>
    obtain ⟨part, mapping⟩ := added
    obtain ⟨kind, port, protocol, formats, fields, known, rfl, _, _, fresh⟩ := mediaLine_ok here
    have written := mediaText_fields (selected.getD (index.elim 0 (· + 1)) []) fields known
    have again := readLine_read again
    rw [written.clean.trimmed] at again
    cases again with
    | bundle stripped => exact absurd stripped (unbundled written.starts)
    | session _ other => have starts := written.starts; rw [other] at starts; cases starts
    | part _ other => have starts := written.starts; rw [other] at starts; cases starts
    | @media added _ there =>
      obtain ⟨part', mapping'⟩ := added
      obtain ⟨kind', port', protocol', formats', fields', _, rfl, numerals, distinct, fresh'⟩ :=
        mediaLine_ok there
      rw [written.fields] at fields'
      obtain ⟨rfl, rest⟩ := List.cons.inj fields'
      have formats := (List.cons.inj (List.cons.inj rest).2).2
      rw [← formats, ← Function.comp_def, ← map_map] at numerals
      refine ⟨followed.defaults, followed.bundle, ?_, linked_concat.mpr ⟨followed.linked, ?_, ?_⟩⟩
      · rw [length_append, count]
        rfl
      · rw [followed.defaults]
      · rw [count, fresh, fresh']
        refine ⟨payloads_ofNat numerals, distinct, fun number => ?_, fun number => ?_⟩
        · cases numbered (selected.getD (index.elim 0 (· + 1)) []) number <;> rfl
        · cases numbered (selected.getD (index.elim 0 (· + 1)) []) number with
          | none => rfl
          | some codec => cases own : codec.opus <;> simp

end Followed

end Chuzz.Webrtc
