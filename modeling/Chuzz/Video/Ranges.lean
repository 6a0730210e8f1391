import Chuzz.Video.AnnexB
import Chuzz.Webrtc.Text

/-! Bounded range reads of a media resource. The network is outside: it answers each request with
a reply of its own. An answer `outOfRange` stands for arithmetic or a slice that leaves its range,
whatever a build makes of it. -/
namespace Chuzz.Video
open Library.Fallible Library.Transition Chuzz.Webrtc

def chunkBytes : Nat := 512 * 1024
def maxCompleteBytes : Nat := 128 * 1024 * 1024
def maxReadBytes : Nat := 16 * 1024 * 1024

/-- The values of `u64`. -/
def maxU64 : Nat := 2 ^ 64 - 1

/-- `HeaderValue::to_str` -/
def headerText (value : Bytes) : Option Text :=
  if value.all fun byte => (32 ≤ byte.toNat && byte.toNat < 127) || byte = 9 then
    some (value.map fun byte => Char.ofNat byte.toNat)
  else none

structure FetchResponse where
  status : Nat
  /-- The status as it is displayed, with its reason. -/
  reason : String := ""
  url : Text
  contentEncoding : Option Bytes := none
  etag : Option Bytes := none
  lastModified : Option Bytes := none
  contentRange : Option Bytes := none
  body : Bytes
deriving DecidableEq

/-- What becomes of a request. -/
inductive Reply where
  | cancelled
  | timedOut
  | failed (error : String)
  | response (response : FetchResponse)

structure RangeRequest where
  url : Text
  range : Text
  ifRange : Option Text

/-- Why a read ends without bytes. -/
inductive ReadFault where
  | media (error : MediaError)
  | outOfRange
deriving DecidableEq

namespace FetchResponse

def validator (response : FetchResponse) : Option Text :=
  ((response.etag.bind headerText).filter fun value => !value.startsWith "W/").or
    (response.lastModified.bind headerText)

/-- The interval and the total of a `Content-Range`. -/
def parsedRange (value : Text) : Option (Nat × Nat × Nat) := do
  let (interval, total) ← Text.splitOnce '/' (← value.stripPrefix "bytes ")
  let (first, last) ← Text.splitOnce '-' interval
  return (← first.fromRadix 10 maxU64, ← last.fromRadix 10 maxU64, ← total.fromRadix 10 maxU64)

def declared (response : FetchResponse) : Option (Nat × Nat × Nat) :=
  (response.contentRange.bind headerText).bind parsedRange

/-- The length of the resource, where the response answers the request for a range. -/
def checkTotal (response : FetchResponse) (start stop : Nat) : Except MediaError Nat :=
  if response.status = 200 then
    if maxCompleteBytes < response.body.length then
      throw (.unsupported "the complete media response exceeds 128 MiB")
    else .ok response.body.length
  else if response.status = 206 then do
    let some value := response.contentRange.bind headerText
      | throw (.network "partial media has no Content-Range")
    let some (first, last, total) := parsedRange value
      | throw (.network "invalid partial media response")
    if total = 0 ∨ first ≠ start ∨ last < first ∨ last ≠ min stop (total - 1) ∨ total ≤ last ∨
        last - first + 1 ≠ response.body.length ∨ chunkBytes < response.body.length then
      throw (.network "invalid partial media response")
    return total
  else throw (.network ("media request returned HTTP " ++ response.reason))

end FetchResponse

/-- The request for the bytes from `start` to `stop`, both included. -/
def rangeRequest (url : Text) (start stop : Nat) (previous : Option Text) :
    Except MediaError RangeRequest := do
  if previous.any fun value => !value.all fun c => (' ' ≤ c && c ≤ '~') || c = '\t' then
    throw (.network "invalid media validator")
  return {
    url
    range := text "bytes=" ++ Text.ofNat start ++ text "-" ++ Text.ofNat stop
    ifRange := previous }

def fetch (net : RangeRequest → Reply) (url : Text) (start stop : Nat) (previous : Option Text) :
    Except MediaError (FetchResponse × Nat) := do
  let request ← rangeRequest url start stop previous
  match net request with
  | .cancelled => throw (.network "media loading was cancelled")
  | .timedOut => throw (.network "media fetch timed out")
  | .failed error => throw (.network ("media fetch failed: " ++ error))
  | .response response =>
    if response.contentEncoding.any (· ≠ (text "identity").map Char.toUInt8) then
      throw (.network "encoded media cannot be addressed by byte range")
    if previous.isSome ∧ response.validator ≠ previous then
      throw (.network "the media resource changed during playback")
    let total ← response.checkTotal start stop
    return (response, total)

variable {response : FetchResponse}

theorem checkTotal_ok {start stop total : Nat}
    (checked : response.checkTotal start stop = .ok total) :
    (response.status = 200 ∧ total = response.body.length) ∨
      response.status = 206 ∧ ∃ last, response.declared = some (start, last, total) ∧
        last = min stop (total - 1) ∧ start ≤ last ∧ last < total ∧
          start + response.body.length = last + 1 := by
  unfold FetchResponse.checkTotal at checked
  split at checked
  · rename_i complete
    obtain ⟨_, checked⟩ := guard_ok checked
    cases checked
    exact .inl ⟨complete, rfl⟩
  · split at checked
    · rename_i partly
      split at checked
      · rename_i value written
        split at checked
        · rename_i first last found parsed
          obtain ⟨valid, checked⟩ := guard_ok checked
          cases checked
          simp only [not_or, not_not, not_lt, not_le] at valid
          obtain ⟨_, rfl, ordered, stops, inside, sized, _⟩ := valid
          refine .inr ⟨partly, last, ?_, stops, ordered, inside, by omega⟩
          rw [FetchResponse.declared, written]
          exact parsed
        · cases checked
      · cases checked
    · cases checked

section
variable {net : RangeRequest → Reply} {url : Text} {start stop total : Nat} {previous : Option Text}
  (fetched : fetch net url start stop previous = .ok (response, total))
include fetched

theorem fetch_ok : (∃ request, net request = .response response) ∧
      response.checkTotal start stop = .ok total := by
  obtain ⟨request, _, fetched⟩ := bind_ok fetched
  split at fetched
  · cases fetched
  · cases fetched
  · cases fetched
  · rename_i answer answered
    obtain ⟨_, fetched⟩ := guard_ok fetched
    obtain ⟨_, fetched⟩ := guard_ok fetched
    obtain ⟨found, checked, fetched⟩ := bind_ok fetched
    cases fetched
    exact ⟨⟨request, answered⟩, checked⟩

theorem fetch_part (partly : response.status ≠ 200) : 0 < response.body.length := by
  rcases checkTotal_ok (fetch_ok fetched).2 with ⟨whole, _⟩ | ⟨_, last, _, _, ordered, _, sized⟩
  · exact absurd whole partly
  · omega

end

structure Source where
  url : Text
  validator : Option Text
  complete : Option Bytes
  length : Nat
deriving DecidableEq

/-- `body.slice(start..stop)` -/
def bodySlice (body : Bytes) (start stop : Nat) : Except ReadFault Bytes :=
  match getRange body start stop with
  | some bytes => .ok bytes
  | none => .error .outOfRange

namespace Source

/-- `Source::open` -/
def «open» (net : RangeRequest → Reply) (url : Text) : Except MediaError Source := do
  let (response, length) ← fetch net url 0 31 none
  if length < 8 then throw (.unsupported "the media source is not an MP4")
  return {
    url := response.url
    validator := response.validator
    complete := if response.status = 200 then some response.body else none
    length }

/-- The last byte of the request at `position`, of a read that ends before `stop`. -/
def requestEnd (position stop : Nat) : Nat := min (position + chunkBytes) stop - 1

/-- The loop of `read` from its request number `n` on. -/
def readFrom (net : Nat → RangeRequest → Reply) (n : Nat) (source : Source)
    (offset length position : Nat) (joined : Bytes) : Source × Except ReadFault Bytes :=
  if position < offset + length then
    if maxU64 < position + chunkBytes then (source, .error .outOfRange)
    else
      match _fetched : fetch (net n) source.url position (requestEnd position (offset + length))
          source.validator with
      | .error error => (source, .error (.media error))
      | .ok (response, total) =>
        if total ≠ source.length then
          (source, .error (.media (.network "the media resource changed during playback")))
        else
          let source := { source with url := response.url }
          if _whole : response.status = 200 then
            match bodySlice response.body offset (offset + length) with
            | .error fault => (source, .error fault)
            | .ok selected => ({ source with complete := some response.body }, .ok selected)
          else if position = offset ∧ response.body.length = length then
            (source, .ok response.body)
          else if maxU64 < position + response.body.length then (source, .error .outOfRange)
          else readFrom net (n + 1) source offset length (position + response.body.length)
            (joined ++ response.body)
  else (source, .ok joined)
termination_by offset + length - position
decreasing_by
  exact Nat.sub_lt_sub_left ‹_› (Nat.lt_add_of_pos_right (fetch_part _fetched _whole))

def read (net : Nat → RangeRequest → Reply) (source : Source) (offset length : Nat) :
    Source × Except ReadFault Bytes :=
  if ¬ (offset + length ≤ maxU64 ∧ offset + length ≤ source.length) then
    (source, .error (.media (.decode "a media sample exceeds the resource")))
  else if maxReadBytes < length then
    (source, .error (.media (.unsupported "a media read exceeds 16 MiB")))
  else if length = 0 then (source, .ok [])
  else
    match source.complete with
    | some body => (source, bodySlice body offset (offset + length))
    | none => readFrom net 0 source offset length offset []

end Source

/-- The bytes that a server has, of which responses are parts. -/
structure Resource where
  length : Nat
  byte : Nat → UInt8

namespace Resource

/-- The bytes from `start` up to `stop`. -/
def range (resource : Resource) (start stop : Nat) : Bytes :=
  (List.range' start (stop - start)).map resource.byte

theorem range_length (resource : Resource) (start stop : Nat) :
    (resource.range start stop).length = stop - start := by
  simp [range]

theorem range_append (resource : Resource) {start middle stop : Nat} (one : start ≤ middle)
    (two : middle ≤ stop) :
    resource.range start middle ++ resource.range middle stop = resource.range start stop := by
  obtain ⟨m, rfl⟩ := Nat.exists_eq_add_of_le one
  obtain ⟨n, rfl⟩ := Nat.exists_eq_add_of_le two
  have whole : start + m + n - start = m + n := by omega
  rw [range, range, range, ← List.map_append, Nat.add_sub_cancel_left, Nat.add_sub_cancel_left,
    whole]
  exact congrArg _ List.range'_append_1

theorem slice_range (resource : Resource) {start stop length : Nat} (ordered : start ≤ stop)
    (within : stop ≤ length) : slice (resource.range 0 length) start stop =
      resource.range start stop := by
  have split := (resource.range_append (Nat.zero_le start) (ordered.trans within)).symm
  rw [← resource.range_append ordered within] at split
  rw [split, slice, List.drop_left' (by rw [range_length, Nat.sub_zero]),
    List.take_left' (range_length ..)]

end Resource

/-- A response with the bytes that it declares to have. -/
structure Faithful (resource : Resource) (response : FetchResponse) : Prop where
  whole : response.status = 200 → response.body = resource.range 0 resource.length
  part : ∀ first last total, response.status = 206 →
    response.declared = some (first, last, total) → response.body = resource.range first (last + 1)

/-- A network all of whose responses are faithful. -/
def Serves (resource : Resource) (net : RangeRequest → Reply) : Prop :=
  ∀ request response, net request = .response response → Faithful resource response

/-- No request for the bytes starts so high that the end of its chunk is no `u64`. -/
def Fits (offset length : Nat) : Prop :=
  offset + (length + chunkBytes - 1) / chunkBytes * chunkBytes ≤ maxU64

instance (offset length : Nat) : Decidable (Fits offset length) :=
  inferInstanceAs (Decidable (_ ≤ _))

theorem chunkBytes_eq : chunkBytes = 524288 := rfl

variable {position stop : Nat}

theorem Fits.chunk (fits : Fits position (stop - position))
    (more : position < stop) : position + chunkBytes ≤ maxU64 := by
  unfold Fits at *
  rw [chunkBytes_eq] at *
  omega

theorem requestEnd_bounds (more : position < stop) :
    position ≤ Source.requestEnd position stop ∧ Source.requestEnd position stop < stop := by
  unfold Source.requestEnd
  rw [chunkBytes_eq]
  omega

theorem Fits.next (fits : Fits position (stop - position))
    (more : position < stop) : Fits (Source.requestEnd position stop + 1)
      (stop - (Source.requestEnd position stop + 1)) := by
  unfold Source.requestEnd
  unfold Fits at *
  rw [chunkBytes_eq] at *
  omega

namespace Source

/-- A cached body is the whole resource. -/
structure Sound (resource : Resource) (source : Source) : Prop where
  cached : ∀ body ∈ source.complete, body = resource.range 0 source.length
  bounded : source.length ≤ maxU64

/-- What a read may come to: the bytes that were asked for, or an error of the media. -/
def Answered (resource : Resource) (offset length : Nat) : Except ReadFault Bytes → Prop
  | .ok bytes => bytes = resource.range offset (offset + length)
  | .error (.media _) => True
  | .error .outOfRange => False

theorem bodySlice_answered (resource : Resource) {offset length total : Nat}
    (within : offset + length ≤ total) :
    Answered resource offset length
      (bodySlice (resource.range 0 total) offset (offset + length)) := by
  unfold bodySlice getRange
  rw [if_pos ⟨Nat.le_add_right _ _, by rw [resource.range_length]; omega⟩]
  exact resource.slice_range (Nat.le_add_right _ _) within

variable {resource : Resource} {source : Source} {net : Nat → RangeRequest → Reply}

theorem readFrom_answered (serves : ∀ n, Serves resource (net n))
    (n : Nat) {offset length position : Nat} {joined : Bytes} (sound : source.Sound resource)
    (within : offset + length ≤ source.length) (fits : Fits position (offset + length - position))
    (start : offset ≤ position) (inside : position ≤ offset + length)
    (so : joined = resource.range offset position) :
    Answered resource offset length (source.readFrom net n offset length position joined).2 ∧
      (source.readFrom net n offset length position joined).1.Sound resource ∧
      (source.readFrom net n offset length position joined).1.length = source.length := by
  induction left : offset + length - position using Nat.strongRecOn
    generalizing n source position joined with
  | _ rest ih =>
    unfold readFrom
    by_cases more : position < offset + length
    · have room := fits.chunk more
      rw [if_pos more, if_neg (by omega)]
      split
      · exact ⟨trivial, sound, rfl⟩
      · rename_i response total fetched
        obtain ⟨⟨request, answered⟩, checked⟩ := fetch_ok fetched
        have faithful := serves n request response answered
        split
        · exact ⟨trivial, sound, rfl⟩
        · rename_i same
          obtain rfl : total = source.length := not_not.mp same
          by_cases whole : response.status = 200
          · rw [dif_pos whole]
            rcases checkTotal_ok checked with ⟨_, total⟩ | ⟨partly, _⟩
            · have body := faithful.whole whole
              have size : resource.length = source.length := by
                rw [total, body, resource.range_length, Nat.sub_zero]
              rw [size] at body
              have answer := bodySlice_answered resource within
              rw [← body] at answer
              split
              · rename_i fault sliced
                rw [sliced] at answer
                exact ⟨answer, ⟨sound.cached, sound.bounded⟩, rfl⟩
              · rename_i selected sliced
                rw [sliced] at answer
                exact ⟨answer, ⟨fun cached held => by cases held; exact body, sound.bounded⟩, rfl⟩
            · rw [whole] at partly
              cases partly
          · rw [dif_neg whole]
            rcases checkTotal_ok checked with ⟨done, _⟩ | ⟨partly, last, declared, stops, _, _, sized'⟩
            · contradiction
            · have body := faithful.part _ _ _ partly declared
              obtain ⟨here, before⟩ := requestEnd_bounds more
              have next := fits.next more
              generalize requestEnd position (offset + length) = reached at *
              obtain rfl : last = reached := by omega
              have sound' : Sound resource { source with url := response.url } :=
                ⟨sound.cached, sound.bounded⟩
              split
              · rename_i single
                refine ⟨?_, sound', rfl⟩
                obtain ⟨rfl, sized⟩ := single
                change response.body = _
                rw [body, ← sized, sized']
              · have bounded := sound.bounded
                rw [if_neg (by omega), sized']
                refine ih (offset + length - (last + 1)) (by omega) (n + 1) sound' within next
                  (by omega) (by omega) ?_ rfl
                rw [so, body]
                exact resource.range_append start (by omega)
    · rw [if_neg more]
      obtain rfl : position = offset + length := by omega
      exact ⟨so, sound, rfl⟩

/-- The read is refused or needs no request, or none of its requests starts too high. -/
def Fitting (source : Source) (offset length : Nat) : Prop :=
  source.complete ≠ none ∨ source.length < offset + length ∨ maxReadBytes < length ∨
    Fits offset length

instance (source : Source) (offset length : Nat) : Decidable (source.Fitting offset length) :=
  inferInstanceAs (Decidable (_ ∨ _ ∨ _ ∨ Fits offset length))

theorem read_answered (serves : ∀ n, Serves resource (net n))
    (sound : source.Sound resource) {offset length : Nat} (fitting : source.Fitting offset length) :
    Answered resource offset length (source.read net offset length).2 ∧
      (source.read net offset length).1.Sound resource := by
  unfold read
  by_cases inside : offset + length ≤ maxU64 ∧ offset + length ≤ source.length
  · rw [if_neg (not_not.mpr inside)]
    by_cases long : maxReadBytes < length
    · rw [if_pos long]
      exact ⟨trivial, sound⟩
    · rw [if_neg long]
      by_cases none : length = 0
      · rw [if_pos none, none]
        refine ⟨?_, sound⟩
        change [] = resource.range offset (offset + 0)
        simp [Resource.range]
      · rw [if_neg none]
        cases held : source.complete with
        | some body =>
          rw [sound.cached body held]
          exact ⟨bodySlice_answered _ inside.2, sound⟩
        | none =>
          have fits : Fits offset length := by
            rcases fitting with cached | beyond | past | fits
            · exact absurd held cached
            · omega
            · contradiction
            · exact fits
          have loop := readFrom_answered serves 0 sound inside.2
            (by rwa [Nat.add_sub_cancel_left]) le_rfl (Nat.le_add_right _ _)
            (show [] = resource.range offset offset by simp [Resource.range])
          exact ⟨loop.1, loop.2.1⟩
  · rw [if_pos inside]
    exact ⟨trivial, sound⟩

theorem fromRadix_le {radix limit number : Nat} {value : Text}
    (read : value.fromRadix radix limit = some number) : number ≤ limit := by
  unfold Text.fromRadix at read
  dsimp only at read
  split_ifs at read
  exact of_decide_eq_true (Option.filter_eq_some_iff.mp read).2

theorem parsedRange_le {value : Text} {first last total : Nat}
    (parsed : FetchResponse.parsedRange value = some (first, last, total)) : total ≤ maxU64 := by
  unfold FetchResponse.parsedRange at parsed
  simp only [Option.bind_eq_bind, Option.bind_eq_some_iff, Option.pure_def, Option.some.injEq,
    Prod.mk.injEq] at parsed
  obtain ⟨_, _, _, _, _, _, _, _, _, _, _, number, _, _, rfl⟩ := parsed
  exact fromRadix_le number

theorem open_sound {net : RangeRequest → Reply} (serves : Serves resource net) {url : Text}
    (opened : Source.«open» net url = .ok source) : source.Sound resource := by
  obtain ⟨⟨response, length⟩, fetched, opened⟩ := bind_ok opened
  obtain ⟨_, opened⟩ := guard_ok opened
  cases opened
  obtain ⟨⟨request, answered⟩, checked⟩ := fetch_ok fetched
  have faithful := serves request response answered
  rcases checkTotal_ok checked with ⟨whole, rfl⟩ | ⟨partly, last, declared, -⟩
  · have body := faithful.whole whole
    have size : resource.length = response.body.length := by
      rw [body, resource.range_length, Nat.sub_zero]
    refine ⟨fun cached held => ?_, ?_⟩
    · rw [if_pos whole] at held
      cases held
      rw [← size, ← body]
    · unfold FetchResponse.checkTotal at checked
      rw [if_pos whole] at checked
      have small := (guard_ok checked).1
      have : maxCompleteBytes ≤ maxU64 := by decide
      dsimp only
      omega
  · refine ⟨fun cached held => ?_, ?_⟩
    · rw [if_neg (by rw [partly]; decide)] at held
      cases held
    · obtain ⟨value, _, parsed⟩ := Option.bind_eq_some_iff.mp declared
      exact parsedRange_le parsed

/-- A read with what the network answers to each of its requests. -/
structure Read where
  net : Nat → RangeRequest → Reply
  offset : Nat
  length : Nat

/-- The runs of a source over faithful networks, whose reads all fit. -/
abbrev Reached (resource : Resource) : Source → Prop :=
  Reachable
    (fun source => ∃ net url, Serves resource net ∧ Source.«open» net url = .ok source)
    (restrict (fun before (call : Read) after =>
        (before.read call.net call.offset call.length).1 = after)
      fun source call =>
        (∀ n, Serves resource (call.net n)) ∧ source.Fitting call.offset call.length)

theorem Reached.sound (reached : Reached resource source) : source.Sound resource := by
  apply Reachable.invariant _ _ reached
  · rintro source ⟨net, url, serves, opened⟩
    exact open_sound serves opened
  · rintro before call after - sound ⟨rfl, serves, fitting⟩
    exact (read_answered serves sound fitting).2

/-- Every read of a run ends with the bytes that were asked for or with an error of the media, and
nothing leaves its range. -/
theorem reached_reads {resource : Resource} {source : Source} (reached : Reached resource source)
    {call : Read} (serves : ∀ n, Serves resource (call.net n))
    (fitting : source.Fitting call.offset call.length) :
    Answered resource call.offset call.length
      (source.read call.net call.offset call.length).2 :=
  (read_answered serves reached.sound fitting).1

/-- A response to the first request, from a resource of the greatest length. -/
def vast : FetchResponse where
  status := 206
  url := text "http://a/"
  contentRange := some ((text "bytes 0-31/18446744073709551615").map Char.toUInt8)
  body := List.replicate 32 0

def vastSource : Source where
  url := text "http://a/"
  validator := none
  complete := none
  length := maxU64

theorem vast_opens : Source.«open» (fun _ => .response vast) (text "http://a/") = .ok vastSource := by
  decide

theorem vast_serves : Serves ⟨maxU64, fun _ => 0⟩ fun _ => .response vast := by
  rintro request response ⟨⟩
  refine ⟨by decide, fun first last total _ declared => ?_⟩
  have known : vast.declared = some (0, 31, maxU64) := by decide
  cases declared
  decide

theorem reached_reads_vast :
    Answered ⟨maxU64, fun _ => 0⟩ 0 32 (vastSource.read (fun _ _ => .response vast) 0 32).2 :=
  let call : Read := ⟨fun _ _ => .response vast, 0, 32⟩
  have served : ∀ n, Serves ⟨maxU64, fun _ => 0⟩ (call.net n) := fun _ => vast_serves
  have fitting : vastSource.Fitting call.offset call.length := .inr (.inr (.inr (by decide)))
  reached_reads (.start ⟨_, _, vast_serves, vast_opens⟩) served fitting

/-- A request for the last bytes of the resource looks beyond the greatest number. -/
theorem read_overflows :
    ∃ source, Source.«open» (fun _ => .response vast) (text "http://a/") = .ok source ∧
      (2 ^ 64 - 100) + 50 ≤ source.length ∧
      (source.read (fun _ _ => .response vast) (2 ^ 64 - 100) 50).2 = .error .outOfRange := by
  refine ⟨vastSource, vast_opens, by decide, ?_⟩
  unfold read readFrom
  decide

end Source
end Chuzz.Video
