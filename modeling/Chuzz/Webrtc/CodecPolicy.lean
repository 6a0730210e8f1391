import Chuzz.Webrtc.Narrowing

/-! What the codec policy makes of a description: the same sections with the chosen codecs, in a
text that the policy leaves as it is. -/
namespace Chuzz.Webrtc
open Library List Option

/-! Whole texts. -/

variable {line : Text}

theorem clean_mediaText (codecs : List AudioCodec) (fields : MediaFields line)
    (starts : line.startsWith "m=") : Clean (mediaText line codecs) := by
  obtain ⟨kind, port, protocol, rest, split, known⟩ := fields starts
  exact (mediaText_fields codecs split known).clean

theorem clean_formatText (number : Nat) : Clean (formatText number) := by
  refine ⟨?_, formatText_trimmed number⟩
  rw [formatText, mem_append, mem_append, not_or, not_or]
  exact ⟨by decide, (Text.word_ofNat number).whole, by decide⟩

theorem Rewritten.clean {selected : List (List AudioCodec)} {index next : Option Nat}
    {ls : List Text} (rewritten : Rewritten selected index line next ls) (clean : Clean line)
    (fields : MediaFields line) : ∀ one ∈ ls, Clean one := by
  cases rewritten with
  | media starts => exact forall_mem_singleton.mpr (clean_mediaText _ fields starts)
  | kept => exact forall_mem_singleton.mpr clean
  | mapping =>
    exact forall_mem_cons.mpr ⟨clean, forall_mem_singleton.mpr (clean_formatText _)⟩
  | dropped => exact fun _ member => absurd member not_mem_nil

/-- The lines that stand for many lines, one after the other. -/
inductive Rewriting (selected : List (List AudioCodec)) :
    Option Nat → List Text → Option Nat → List Text → Prop where
  | nil {index} : Rewriting selected index [] index []
  | cons {index middle next line rest ls out} : Rewritten selected index line middle ls →
      Rewriting selected middle rest next out →
      Rewriting selected index (line :: rest) next (ls ++ out)

variable {selected : List (List AudioCodec)} {index next : Option Nat} {codec : AudioCodec}
  {preferences : List Text} {ls : List Text}

/-- One line of `sdp::local`, with what was written before it. -/
def writeLine (selected : List (List AudioCodec)) (state : Option Nat × Text) (line : Text) :
    Except String (Option Nat × Text) := do
  let (index, line) ← localLine selected state.1 (line.trimEndMatches '\r')
  return (index, state.2 ++ line)

theorem writeLines_rewriting {written result : Text}
    (done : ls.foldlM (writeLine selected) (index, written) = .ok (next, result)) :
    ∃ out, Rewriting selected index (ls.map (Text.trimEndMatches '\r')) next out ∧
      result = written ++ out.flatMap (· ++ Text.crlf) := by
  induction ls generalizing index written with
  | nil =>
    cases done
    exact ⟨[], .nil, (append_nil _).symm⟩
  | cons line rest ih =>
    obtain ⟨⟨middle, text⟩, first, done⟩ := Fallible.bind_ok done
    obtain ⟨⟨after, chunk⟩, rewritten, first⟩ := Fallible.bind_ok first
    cases first
    obtain ⟨lines, here, rfl⟩ := localLine_rewritten rewritten
    obtain ⟨out, later, rfl⟩ := ih done
    refine ⟨lines ++ out, .cons here later, ?_⟩
    rw [flatMap_append, append_assoc]

variable {ls out : List Text}

theorem Rewriting.clean (rewriting : Rewriting selected index ls next out)
    (clean : ∀ line ∈ ls, Clean line) (fields : ∀ line ∈ ls, MediaFields line) :
    ∀ line ∈ out, Clean line := by
  induction rewriting with
  | nil => exact clean
  | cons here _ ih =>
    obtain ⟨first, clean⟩ := forall_mem_cons.mp clean
    obtain ⟨own, fields⟩ := forall_mem_cons.mp fields
    exact forall_mem_append.mpr ⟨here.clean first own, ih clean fields⟩

variable {reading narrow after after' : Reading}

/-- One line: the reading of what stands for it follows the reading of the line. -/
theorem Rewritten.followed (rewritten : Rewritten selected index line next ls) (clean : Clean line)
    (followed : Followed selected index reading narrow) (read : readLine reading line = .ok after)
    (again : ls.foldlM readLine narrow = .ok after') : Followed selected next after after' := by
  have read := readLine_read read
  rw [clean.trimmed] at read
  cases rewritten with
  | media starts =>
    obtain ⟨middle, again, rest⟩ := Fallible.bind_ok again
    cases rest
    exact followed.media starts read again
  | kept media _ spares =>
    obtain ⟨middle, again, rest⟩ := Fallible.bind_ok again
    cases rest
    have again := readLine_read again
    rw [clean.trimmed] at again
    exact followed.kept media read again spares
  | mapping same stripped numeral found own =>
    subst same
    obtain ⟨middle, first, again⟩ := Fallible.bind_ok again
    obtain ⟨last, second, rest⟩ := Fallible.bind_ok again
    cases rest
    have first := readLine_read first
    have second := readLine_read second
    rw [clean.trimmed] at first
    rw [formatText_trimmed] at second
    exact followed.mapping read stripped numeral found own first second
  | dropped same found numeral replaced =>
    subst same
    cases again
    exact followed.dropped read found numeral replaced

theorem Rewriting.followed
    (rewriting : Rewriting selected index ls next out) (clean : ∀ line ∈ ls, Clean line)
    (followed : Followed selected index reading narrow)
    (read : ls.foldlM readLine reading = .ok after)
    (again : out.foldlM readLine narrow = .ok after') : Followed selected next after after' := by
  induction rewriting generalizing reading narrow with
  | nil =>
    cases read
    cases again
    exact followed
  | cons here _ ih =>
    obtain ⟨first, clean⟩ := forall_mem_cons.mp clean
    obtain ⟨middle, one, read⟩ := Fallible.bind_ok read
    rw [foldlM_append] at again
    obtain ⟨middle', two, again⟩ := Fallible.bind_ok again
    exact ih clean (here.followed first followed one two) read again

theorem mediaText_mediaText (codecs : List AudioCodec) (fields : MediaFields line)
    (starts : line.startsWith "m=") :
    mediaText (mediaText line codecs) codecs = mediaText line codecs := by
  obtain ⟨kind, port, protocol, rest, split, known⟩ := fields starts
  have again := (mediaText_fields codecs split known).fields
  rw [mediaText, again]
  change _ = List.intercalate [' '] (line.splitWhitespace.take 3) ++ _
  rw [split]
  rfl

theorem payload_ok {value : Text} {number : Nat} (read : payload value = .ok number) :
    payload (Text.ofNat number) = .ok number := by
  have small : number ≤ 127 := by
    unfold payload at read
    split at read
    · rename_i kept
      cases read
      exact of_decide_eq_true (filter_eq_some_iff.mp kept).2
    · cases read
  unfold payload
  rw [Text.fromRadix_ofNat, if_pos (by omega), filter_some, if_pos (decide_eq_true small)]

theorem localLine_formatText {place number : Nat} {value : Text}
    (numeral : payload value = .ok number)
    (found : numbered (selected.getD place []) number = some codec) (own : codec.opus) :
    localLine selected (some place) (formatText number) = .ok (some place, []) := by
  have first : (Text.ofNat number ++ ' ' :: opusFormat).splitWhitespace.headD [] =
      Text.ofNat number := by
    rw [Text.splitWhitespace_cons (Text.word_ofNat number)]
    rfl
  have numbered' : Text.ofNat number ≠ text "*" := by
    intro same
    have digit : '*'.isDigit := Nat.isDigit_of_mem_toDigits (by decide) (by decide)
      (same ▸ mem_singleton_self '*' : '*' ∈ Text.ofNat number)
    exact absurd digit (by decide)
  have media : ¬ (formatText number).startsWith "m=" = true := Bool.false_ne_true
  have read : ((formatText number).stripPrefix "a=rtpmap:").or
      (((formatText number).stripPrefix "a=fmtp:").or
        ((formatText number).stripPrefix "a=rtcp-fb:")) =
      some (Text.ofNat number ++ ' ' :: opusFormat) := rfl
  have found : (selected.getD place []).find? (·.payloadType = number) = some codec := found
  have format : (codec.opus && (formatText number).startsWith "a=fmtp:") = true := by
    rw [own]
    rfl
  unfold localLine
  dsimp only [map_some]
  rw [if_neg media, read]
  dsimp only
  rw [first, if_neg numbered', payload_ok numeral]
  dsimp only [bind, Except.bind]
  rw [found]
  dsimp only
  rw [if_pos format]
  rfl

theorem Rewritten.again (rewritten : Rewritten selected index line next ls)
    (clean : Clean line) (fields : MediaFields line) (written : Text) :
    ls.foldlM (writeLine selected) (index, written) =
      .ok (next, written ++ ls.flatMap (· ++ Text.crlf)) := by
  cases rewritten with
  | media starts =>
    obtain ⟨kind, port, protocol, rest, split, known⟩ := fields starts
    have text := mediaText_fields (selected.getD (index.elim 0 (· + 1)) []) split known
    have step : localLine selected index (mediaText line (selected.getD (index.elim 0 (· + 1)) [])) =
        .ok (some (index.elim 0 (· + 1)),
          mediaText line (selected.getD (index.elim 0 (· + 1)) []) ++ Text.crlf) := by
      unfold localLine
      rw [if_pos text.starts]
      change Except.ok (_, mediaText (mediaText line _) _ ++ _) = _
      rw [mediaText_mediaText _ fields starts]
      rfl
    rw [foldlM_cons, writeLine, text.clean.trimmed, step, flatMap_singleton]
    rfl
  | kept _ whole =>
    rw [foldlM_cons, writeLine, clean.trimmed, whole, flatMap_singleton]
    rfl
  | mapping same stripped numeral found own whole =>
    subst same
    have second := localLine_formatText numeral found own
    rw [foldlM_cons, writeLine, clean.trimmed, whole]
    change foldlM (writeLine selected) _ [_] = _
    rw [foldlM_cons, writeLine, formatText_trimmed, second]
    change Except.ok (_, _ ++ []) = _
    rw [append_nil]
  | dropped =>
    rw [flatMap_nil, append_nil]
    rfl

theorem Rewriting.again (rewriting : Rewriting selected index ls next out)
    (clean : ∀ line ∈ ls, Clean line) (fields : ∀ line ∈ ls, MediaFields line) (written : Text) :
    out.foldlM (writeLine selected) (index, written) =
      .ok (next, written ++ out.flatMap (· ++ Text.crlf)) := by
  induction rewriting generalizing written with
  | nil =>
    rw [flatMap_nil, append_nil]
    rfl
  | cons here _ ih =>
    obtain ⟨first, clean⟩ := forall_mem_cons.mp clean
    obtain ⟨own, fields⟩ := forall_mem_cons.mp fields
    rw [foldlM_append, here.again first own]
    change foldlM (writeLine selected) _ _ = _
    rw [ih clean fields, flatMap_append, append_assoc]

/-! The codecs of the two readings. -/

@[simp] theorem AudioCodec.renew_payloadType (codec : AudioCodec) :
    codec.renew.payloadType = codec.payloadType := by
  unfold AudioCodec.renew
  split <;> rfl

@[simp] theorem AudioCodec.renew_opus (codec : AudioCodec) : codec.renew.opus = codec.opus := by
  unfold AudioCodec.renew
  split <;> rfl

@[simp] theorem AudioCodec.renew_name (codec : AudioCodec) : codec.renew.name = codec.name := by
  unfold AudioCodec.renew
  split <;> rfl

theorem AudioCodec.renew_foreign (other : codec.opus = false) : codec.renew = codec := by
  rw [AudioCodec.renew, other]
  rfl

theorem numbered_renew (codecs : List AudioCodec) (number : Nat) :
    numbered (codecs.map AudioCodec.renew) number =
      (numbered codecs number).map AudioCodec.renew := by
  rw [numbered, find?_map]
  have same : (fun codec : AudioCodec => decide (codec.payloadType = number)) ∘ AudioCodec.renew =
      fun codec => decide (codec.payloadType = number) := by
    funext codec
    rw [Function.comp_apply, AudioCodec.renew_payloadType]
  rw [same]
  rfl

/-- The policy looks at payload types only, and at which of them are Opus. -/
theorem localLine_renew (selected : List (List AudioCodec)) (index : Option Nat) (line : Text) :
    localLine (selected.map (·.map AudioCodec.renew)) index line = localLine selected index line := by
  have each (place : Nat) : (selected.map (·.map AudioCodec.renew)).getD place [] =
      (selected.getD place []).map AudioCodec.renew := by
    rw [getD_eq_getElem?_getD, getD_eq_getElem?_getD, getElem?_map]
    cases selected[place]? <;> rfl
  have find (place number : Nat) :
      ((selected.map (·.map AudioCodec.renew)).getD place []).find? (·.payloadType = number) =
        ((selected.getD place []).find? (·.payloadType = number)).map AudioCodec.renew := by
    rw [each]
    exact numbered_renew _ _
  unfold localLine
  dsimp only
  by_cases media : line.startsWith "m="
  · rw [if_pos media, if_pos media, each, flatMap_map]
    simp only [AudioCodec.renew_payloadType]
  · rw [if_neg media, if_neg media]
    cases index with
    | none => rfl
    | some place =>
      dsimp only [map_some]
      split
      · rename_i value read
        by_cases every : value.splitWhitespace.headD [] = text "*"
        · rw [if_pos every, if_pos every]
        · rw [if_neg every, if_neg every]
          cases payload (value.splitWhitespace.headD []) with
          | error error => rfl
          | ok number =>
            dsimp only [bind, Except.bind]
            rw [find]
            cases (selected.getD place []).find? (·.payloadType = number) with
            | none => rfl
            | some codec =>
              dsimp only [map_some]
              rw [AudioCodec.renew_opus]
      · rfl

theorem choose_renew (codecs : List AudioCodec) (preferences : List Text) :
    choose (codecs.map AudioCodec.renew) preferences =
      (choose codecs preferences).map AudioCodec.renew := by
  unfold choose
  rw [List.map_flatMap]
  refine List.flatMap_congr fun name _ => ?_
  rw [List.filter_map]
  refine congrArg _ (List.filter_congr fun codec _ => ?_)
  rw [Function.comp_apply, AudioCodec.renew_name]

theorem choose_again {codecs : List AudioCodec} (distinct : (choose codecs preferences).Nodup) :
    choose (choose codecs preferences) preferences = choose codecs preferences := by
  have each : ∀ name ∈ preferences, (choose codecs preferences).filter (·.name = name) =
      codecs.filter (·.name = name) := by
    induction preferences with
    | nil => exact fun _ member => absurd member not_mem_nil
    | cons first rest ih =>
      intro name member
      have shape : choose codecs (first :: rest) =
          codecs.filter (·.name = first) ++ choose codecs rest := rfl
      rw [shape, nodup_append'] at distinct
      obtain ⟨_, later, apart⟩ := distinct
      rw [shape, filter_append]
      by_cases same : name = first
      · subst same
        have none : (choose codecs rest).filter (·.name = name) = [] := by
          refine filter_eq_nil_iff.mpr fun codec inside named => ?_
          obtain ⟨_, _, held⟩ := mem_flatMap.mp inside
          exact apart (mem_filter.mpr ⟨(mem_filter.mp held).1, named⟩) inside
        rw [none, List.append_nil, List.filter_filter]
        simp only [Bool.and_self]
      · have none : (codecs.filter (·.name = first)).filter (·.name = name) = [] := by
          refine filter_eq_nil_iff.mpr fun codec inside named => ?_
          have other := (mem_filter.mp inside).2
          rw [decide_eq_true_eq] at other named
          exact same (named.symm.trans other)
        rw [none, nil_append, ih later name (mem_of_ne_of_mem same member)]
  exact flatMap_congr each

/-- The codec of a payload type, by the kind of its section. -/
def kindCodec : Kind → Mapping → Nat → Except String (Option AudioCodec)
  | .audio => audioCodec
  | .video => videoCodec

theorem codecsOf_ok {part after : Section} {mapping : Mapping}
    (read : codecsOf part mapping = .ok after) :
    ∃ found, mapping.payloads.mapM (kindCodec part.kind mapping) = .ok found ∧
      after = { part with codecs := found.filterMap id } := by
  unfold codecsOf at read
  cases kind : part.kind with
  | audio =>
    rw [kind] at read
    obtain ⟨codecs, there, read⟩ := Fallible.bind_ok read
    obtain ⟨found, mapped, there⟩ := Fallible.bind_ok there
    obtain ⟨_, there⟩ := Fallible.guard_ok there
    cases there
    cases read
    exact ⟨found, mapped, rfl⟩
  | video =>
    rw [kind] at read
    obtain ⟨codecs, there, read⟩ := Fallible.bind_ok read
    obtain ⟨found, mapped, there⟩ := Fallible.bind_ok there
    obtain ⟨_, there⟩ := Fallible.guard_ok there
    cases there
    cases read
    exact ⟨found, mapped, rfl⟩

/-- What a format says leaves the identity of its codec. -/
structure SameCodec (before after : AudioCodec) : Prop where
  payloadType : after.payloadType = before.payloadType
  opus : after.opus = before.opus
  h264 : after.h264 = before.h264

variable {state after : List Text × AudioCodec}

theorem opusParameter_ok {entry : Text}
    (read : opusParameter state entry = .ok after) : SameCodec state.2 after.2 := by
  obtain ⟨keys, codec⟩ := state
  unfold opusParameter at read
  dsimp only at read
  split at read
  · rename_i key value _
    obtain ⟨_, read⟩ := Fallible.guard_ok read
    split at read
    · split at read
      · cases read
        split_ifs <;> exact ⟨rfl, rfl, rfl⟩
      · split at read
        · cases read
          split_ifs <;> exact ⟨rfl, rfl, rfl⟩
        · cases read
    · split at read
      · split at read
        · cases read
          exact ⟨rfl, rfl, rfl⟩
        · cases read
      · split at read
        · split at read
          · obtain ⟨_, read⟩ := Fallible.guard_ok read
            cases read
            exact ⟨rfl, rfl, rfl⟩
          · cases read
        · cases read
          exact ⟨rfl, rfl, rfl⟩
  · cases read

theorem opusParameters_ok {entries : List Text}
    (read : entries.foldlM opusParameter state = .ok after) : SameCodec state.2 after.2 := by
  induction entries generalizing state with
  | nil =>
    cases read
    exact ⟨rfl, rfl, rfl⟩
  | cons entry rest ih =>
    obtain ⟨middle, here, read⟩ := Fallible.bind_ok read
    have one := opusParameter_ok here
    have two := ih read
    exact ⟨two.payloadType.trans one.payloadType, two.opus.trans one.opus,
      two.h264.trans one.h264⟩

theorem opusFormat_read (codec : AudioCodec) :
    ∃ keys, (entries opusFormat).foldlM opusParameter ([], codec) =
      .ok (keys, { codec with stereo := true, fec := true, cbr := false }) := by
  have parts : entries opusFormat = [text "minptime=10", text "useinbandfec=1", text "stereo=1",
      text "cbr=0"] := by decide
  exact ⟨_, rfl⟩

section
variable {codecs : List AudioCodec} {mapping narrow : Mapping} {number : Nat}
  (narrowed : Narrowed codecs mapping narrow) (chosen : numbered codecs number = some codec)
include narrowed chosen

theorem Narrowed.lookup_name : narrow.names.lookup number = mapping.names.lookup number := by
  rw [narrowed.names, chosen]
  rfl

theorem Narrowed.lookup_format (other : codec.opus = false) :
    narrow.formats.lookup number = mapping.formats.lookup number := by
  rw [narrowed.formats, chosen, bind_some, other]
  rfl

end

/-- A payload type that the policy kept stands for the same codec, by the format of this side where
it is Opus. -/
def Stands (codecs : List AudioCodec) (mapping narrow : Mapping)
    (read : Mapping → Nat → Except String (Option AudioCodec)) : Prop :=
  ∀ number codec, read mapping number = .ok (some codec) → codec.payloadType = number ∧
    (numbered codecs number = some codec → read narrow number = .ok (some codec.renew))

section
variable {codecs : List AudioCodec} {mapping narrow : Mapping}

theorem audioCodec_stands (narrowed : Narrowed codecs mapping narrow) : Stands codecs mapping narrow audioCodec := by
  intro number codec read
  unfold audioCodec at read
  dsimp only at read
  obtain ⟨zero, read⟩ := Fallible.guard_ok read
  split at read
  · cases read
  · rename_i known
    split at read
    · rename_i opus
      obtain ⟨⟨keys, found⟩, folded, read⟩ := Fallible.bind_ok read
      cases read
      have same := opusParameters_ok folded
      refine ⟨same.payloadType, fun chosen => ?_⟩
      have own : found.opus := same.opus.trans opus
      have formats : narrow.formats.lookup number = some opusFormat := by
        rw [narrowed.formats, chosen, bind_some, if_pos own]
        cases named : mapping.names.lookup number with
        | none =>
          rw [named] at opus
          cases opus
        | some name => rfl
      unfold audioCodec
      rw [narrowed.lookup_name chosen, formats, if_neg zero]
      dsimp only [pure, bind, Except.pure, Except.bind]
      rw [if_neg known, if_pos opus, getD_some]
      obtain ⟨keys', ran⟩ := opusFormat_read
        { payloadType := number
          opus := (mapping.names.lookup number).any fun name =>
            name.eqIgnoreAsciiCase (text "opus/48000/2")
          fmtp := opusFormat }
      rw [ran]
      rw [AudioCodec.renew, if_pos own, same.payloadType, same.opus, same.h264]
    · rename_i foreign
      cases read
      refine ⟨rfl, fun chosen => ?_⟩
      have other := Bool.eq_false_iff.mpr foreign
      unfold audioCodec
      rw [narrowed.lookup_name chosen, narrowed.lookup_format chosen other, if_neg zero]
      dsimp only [pure, bind, Except.pure, Except.bind]
      rw [if_neg known, if_neg foreign, AudioCodec.renew_foreign other]

theorem videoCodec_stands (narrowed : Narrowed codecs mapping narrow) : Stands codecs mapping narrow videoCodec := by
  intro number codec read
  have kept := read
  unfold videoCodec at read
  split at read
  · cases read
  · obtain ⟨parameters, folded, read⟩ := Fallible.bind_ok read
    split at read
    · cases read
    · obtain ⟨_, read⟩ := Fallible.guard_ok read
      cases read
      refine ⟨rfl, fun chosen => ?_⟩
      unfold videoCodec at kept ⊢
      rw [narrowed.lookup_name chosen, narrowed.lookup_format chosen rfl, kept]
      rfl

theorem kindCodec_stands (kind : Kind) (narrowed : Narrowed codecs mapping narrow) :
    Stands codecs mapping narrow (kindCodec kind) := by
  cases kind with
  | audio => exact audioCodec_stands narrowed
  | video => exact videoCodec_stands narrowed

end

theorem mapM_renew {codecs : List AudioCodec} {read : Nat → Except String (Option AudioCodec)}
    (each : ∀ codec ∈ codecs, read codec.payloadType = .ok (some codec.renew)) :
    (codecs.map (·.payloadType)).mapM read =
      .ok (codecs.map fun codec => some codec.renew) := by
  induction codecs with
  | nil => rfl
  | cons codec rest ih =>
    obtain ⟨here, later⟩ := forall_mem_cons.mp each
    rw [map_cons, mapM_cons, here, ih later]
    rfl

theorem mem_choose {codecs : List AudioCodec} (member : codec ∈ choose codecs preferences) :
    codec ∈ codecs := by
  obtain ⟨_, _, inside⟩ := mem_flatMap.mp member
  exact (mem_filter.mp inside).1

theorem codecsOf_chosen {part whole again : Section} {mapping narrow : Mapping}
    (read : codecsOf part mapping = .ok whole)
    (narrowed : Narrowed (choose whole.codecs preferences) mapping narrow)
    (reread : codecsOf part narrow = .ok again) : again = whole.chosen preferences := by
  obtain ⟨found, mapped, rfl⟩ := codecsOf_ok read
  obtain ⟨found', mapped', rfl⟩ := codecsOf_ok reread
  have stands := kindCodec_stands part.kind narrowed
  have known : ∀ codec ∈ found.filterMap id,
      kindCodec part.kind mapping codec.payloadType = .ok (some codec) := by
    intro codec member
    obtain ⟨_, inside, rfl⟩ := mem_filterMap.mp member
    obtain ⟨number, _, here⟩ := Fallible.mapM_mem mapped _ inside
    rw [(stands number codec here).1]
    exact here
  have each : ∀ codec ∈ choose (found.filterMap id) preferences,
      kindCodec part.kind narrow codec.payloadType = .ok (some codec.renew) := by
    intro codec member
    have here := known codec (mem_choose member)
    refine (stands _ codec here).2 ?_
    cases search : numbered (choose (found.filterMap id) preferences) codec.payloadType with
    | none => exact absurd (find?_eq_none.mp search codec member) (by simp)
    | some other =>
      have there := known other (mem_choose (mem_of_find?_eq_some search))
      have same : other.payloadType = codec.payloadType := by
        simpa using find?_some search
      rw [same, here] at there
      cases there
      rfl
  rw [narrowed.payloads, mapM_renew each] at mapped'
  cases mapped'
  have codecs : (choose (found.filterMap id) preferences).filterMap
      (id ∘ fun codec => some codec.renew) =
      (choose (found.filterMap id) preferences).map AudioCodec.renew :=
    congrFun filterMap_eq_map' _
  rw [Section.chosen, filterMap_map, codecs]

/-! The policy. -/

theorem readLine_trimmed (reading : Reading) (line : Text) :
    readLine reading (line.trimEndMatches '\r') = readLine reading line := by
  unfold readLine
  rw [Text.trimEndMatches_idem]

theorem readLines_trimmed (ls : List Text) (reading : Reading) :
    (ls.map (Text.trimEndMatches '\r')).foldlM readLine reading = ls.foldlM readLine reading := by
  rw [foldlM_map]
  simp only [readLine_trimmed]

theorem sections_reading {description : Description} {parts : List Section}
    (read : sections description = .ok parts) :
    ∃ reading, description.sdp.lines.foldlM readLine {} = .ok reading ∧
      reading.media.mapM (fun (part, mapping) => codecsOf part mapping) = .ok parts := by
  obtain ⟨_, read⟩ := Fallible.guard_ok read
  obtain ⟨_, read⟩ := Fallible.guard_ok read
  obtain ⟨reading, lines, read⟩ := Fallible.bind_ok read
  obtain ⟨found, codecs, read⟩ := Fallible.bind_ok read
  cases found with
  | nil => contradiction
  | cons first rest =>
    obtain ⟨_, _, read⟩ := Fallible.bind_ok read
    obtain ⟨_, read⟩ := Fallible.guard_ok read
    cases read
    exact ⟨reading, lines, codecs⟩

theorem mapM_each {A B : Type} {items : List A} {step : A → Except String B} {results : List B}
    (mapped : items.mapM step = .ok results) :
    List.Forall₂ (fun item result => step item = .ok result) items results := by
  induction items generalizing results with
  | nil =>
    cases mapped
    exact .nil
  | cons item rest ih =>
    rw [mapM_cons] at mapped
    obtain ⟨first, here, mapped⟩ := Fallible.bind_ok mapped
    obtain ⟨later, there, mapped⟩ := Fallible.bind_ok mapped
    cases mapped
    exact .cons here (ih there)

/-- What was chosen for each section. -/
def selection (parts : List Section) (preferences : List (List Text)) : List (List AudioCodec) :=
  List.zipWith (fun part names => choose part.codecs names) parts preferences

variable {preferences : List (List Text)}

theorem Linked.chosen {parts again : List Section}
    {media narrow : List (Section × Mapping)} (sizes : parts.length = preferences.length)
    (linked : Linked (selection parts preferences) media narrow)
    (read : List.Forall₂ (fun item part => codecsOf item.1 item.2 = .ok part) media parts)
    (reread : List.Forall₂ (fun item part => codecsOf item.1 item.2 = .ok part) narrow again) :
    again = zipWith Section.chosen parts preferences ∧
      ∀ codecs ∈ selection parts preferences, codecs.Nodup := by
  have one := read.length_eq
  have two := linked.1
  have three := reread.length_eq
  have each (place : Nat) (inside : place < parts.length) (inside' : place < again.length)
      (named : place < preferences.length) :
      again[place] = parts[place].chosen preferences[place] ∧
        (choose parts[place].codecs preferences[place]).Nodup := by
    have here := read.get (by omega : place < media.length) inside
    have there := reread.get (by omega : place < narrow.length) inside'
    obtain ⟨same, narrowed⟩ := linked.2 place _ _
      (getElem?_eq_getElem (by omega : place < media.length))
      (getElem?_eq_getElem (by omega : place < narrow.length))
    have chosen : (selection parts preferences).getD place [] =
        choose parts[place].codecs preferences[place] := by
      rw [getD_eq_getElem?_getD, selection, getElem?_zipWith,
        getElem?_eq_getElem inside, getElem?_eq_getElem named]
      rfl
    rw [chosen] at narrowed
    rw [get_eq_getElem, get_eq_getElem] at here there
    rw [same] at there
    refine ⟨codecsOf_chosen here narrowed there, ?_⟩
    have distinct := narrowed.distinct
    rw [narrowed.payloads] at distinct
    exact distinct.of_map _
  constructor
  · refine ext_getElem ?_ fun place inside' inside => ?_
    · rw [length_zipWith]
      omega
    · rw [length_zipWith] at inside
      rw [getElem_zipWith]
      exact (each place (by omega) inside' (by omega)).1
  · intro codecs member
    obtain ⟨place, inside, rfl⟩ := mem_iff_getElem.mp member
    rw [selection, length_zipWith] at inside
    simp only [selection, getElem_zipWith]
    exact (each place (by omega) (by omega) (by omega)).2

theorem selection_again {parts : List Section}
    (distinct : ∀ codecs ∈ selection parts preferences, codecs.Nodup) :
    selection (zipWith Section.chosen parts preferences) preferences =
      (selection parts preferences).map (·.map AudioCodec.renew) := by
  induction parts generalizing preferences with
  | nil => rfl
  | cons part parts ih =>
    cases preferences with
    | nil => rfl
    | cons names preferences =>
      obtain ⟨here, later⟩ := forall_mem_cons.mp distinct
      have first : choose (part.chosen names).codecs names =
          (choose part.codecs names).map AudioCodec.renew := by
        rw [Section.chosen, choose_renew, choose_again here]
      change choose (part.chosen names).codecs names :: selection _ _ = _ :: _
      rw [first, ih later]
      rfl

/-- The codecs that `local` selects are those of `selection`. -/
theorem selected_eq (parts : List Section) (preferences : List (List Text)) :
    (parts.zip preferences).map (fun (part, names) =>
      names.flatMap fun name => part.codecs.filter (·.name = name)) =
        selection parts preferences :=
  map_zip_eq_zipWith

theorem localPolicy_eq (description : Description) (preferences : List (List Text)) :
    localPolicy description preferences = (do
      let parts ← sections description
      if parts.length ≠ preferences.length then throw "OperationError: missing local codec policy"
      if (selection parts preferences).any isEmpty then
        throw "NotSupportedError: codec preferences have no negotiated media codec"
      let (_, sdp) ← description.sdp.lines.foldlM (writeLine (selection parts preferences))
        ((none : Option Nat), ([] : Text))
      let _ ← sections { description with sdp }
      return { description with sdp }) := by
  unfold localPolicy
  simp only [selected_eq]
  rfl

/-- The policy keeps the sections, with the chosen codecs, and has nothing more to do. -/
theorem localPolicy_again {description result : Description} {preferences : List (List Text)}
    (applied : localPolicy description preferences = .ok result) :
    ∃ parts, sections description = .ok parts ∧
      sections result = .ok (zipWith Section.chosen parts preferences) ∧
      localPolicy result preferences = .ok result := by
  rw [localPolicy_eq] at applied
  obtain ⟨parts, read, applied⟩ := Fallible.bind_ok applied
  obtain ⟨sizes, applied⟩ := Fallible.guard_ok applied
  obtain ⟨some, applied⟩ := Fallible.guard_ok applied
  obtain ⟨⟨next, sdp⟩, written, applied⟩ := Fallible.bind_ok applied
  obtain ⟨again, reread, applied⟩ := Fallible.bind_ok applied
  cases applied
  have sizes := not_not.mp sizes
  have clean : ∀ line ∈ description.sdp.trimmedLines, Clean line := by
    intro line member
    obtain ⟨whole, inside, rfl⟩ := mem_map.mp member
    exact ⟨fun held => Text.not_mem_lines inside (Text.mem_trimEndMatches held),
      Text.trimEndMatches_idem _ _⟩
  have fields := (sections_outline read).2
  obtain ⟨out, rewriting, rfl⟩ := writeLines_rewriting written
  rw [nil_append] at reread ⊢
  have lines : Text.lines (out.flatMap (· ++ Text.crlf)) = out :=
    Text.lines_flatMap fun line member => (rewriting.clean clean fields line member).whole
  obtain ⟨reading, one, media⟩ := sections_reading read
  obtain ⟨narrow, two, remedia⟩ := sections_reading reread
  rw [← readLines_trimmed] at one
  rw [lines] at two
  have start : Followed (selection parts preferences) none {} {} :=
    ⟨rfl, rfl, rfl, rfl, fun _ _ _ found => by cases found⟩
  have followed := rewriting.followed clean start one two
  obtain ⟨same, distinct⟩ :=
    followed.linked.chosen sizes (mapM_each media) (mapM_each remedia)
  subst same
  refine ⟨parts, read, reread, ?_⟩
  have unchanged : writeLine ((selection parts preferences).map (·.map AudioCodec.renew)) =
      writeLine (selection parts preferences) := by
    funext state line
    rw [writeLine, writeLine, localLine_renew]
  have none : ((selection parts preferences).map (·.map AudioCodec.renew)).any isEmpty =
      (selection parts preferences).any isEmpty := by
    rw [List.any_map]
    refine congrArg _ (funext fun codecs => ?_)
    rw [Function.comp_apply, isEmpty_map]
  have sizes' : ¬ (zipWith Section.chosen parts preferences).length ≠ preferences.length := by
    rw [not_not, length_zipWith]
    omega
  rw [localPolicy_eq, reread]
  dsimp only [bind, Except.bind]
  rw [if_neg sizes', selection_again distinct, unchanged, none, if_neg some, lines,
    rewriting.again clean fields, nil_append]
  dsimp only
  rw [reread]
  rfl

def fingerprintText : Text :=
  text "a=fingerprint:sha-256 " ++ List.intercalate [':'] (List.replicate 32 (text "AB"))

/-- An offer of PCMU, of Opus with a format of its own and of a codec that is not supported. -/
def offered : Description where
  type := text "offer"
  sdp := text "a=group:BUNDLE 0\n" ++ [text "m=audio 9 UDP/TLS/RTP/SAVPF 0 111 8", text "a=mid:0",
    text "a=ice-ufrag:abcd", text "a=ice-pwd:abcdefghijklmnopqrstuv", fingerprintText,
    text "a=setup:actpass", text "a=fmtp:111 minptime=20", text "a=rtpmap:111 opus/48000/2",
    text "a=rtcp-fb:* nack", text "a=rtpmap:8 PCMA/8000", text "a=rtcp-fb:8 nack"].flatMap
      (· ++ Text.crlf) ++ text "a=sendonly"

/-- The same with the codecs that were preferred. -/
def preferred : Description where
  type := text "offer"
  sdp := [text "a=group:BUNDLE 0", text "m=audio 9 UDP/TLS/RTP/SAVPF 111 0", text "a=mid:0",
    text "a=ice-ufrag:abcd", text "a=ice-pwd:abcdefghijklmnopqrstuv", fingerprintText,
    text "a=setup:actpass", text "a=rtpmap:111 opus/48000/2",
    text "a=fmtp:111 minptime=10;useinbandfec=1;stereo=1;cbr=0", text "a=rtcp-fb:* nack",
    text "a=sendonly"].flatMap (· ++ Text.crlf)

theorem localPolicy_again_offered :
    ∃ parts, sections offered = .ok parts ∧
      sections preferred =
        .ok (zipWith Section.chosen parts [[text "opus", text "pcmu"]]) ∧
      localPolicy preferred [[text "opus", text "pcmu"]] = .ok preferred := by
  have applied : localPolicy offered [[text "opus", text "pcmu"]] = .ok preferred := by
    decide +kernel
  exact localPolicy_again applied

end Chuzz.Webrtc
