import Chuzz.Library.Fallible
import Chuzz.Video.Host
import Chuzz.Video.Timeline

/-! The SourceBuffer with its rounded times is the timeline over them: what is said of a timeline with
any kind of number is said of the buffer's own code. -/
namespace Chuzz.Video
open Library.Intervals Library.Fallible Library.TreeMapValues List

def Encoded.packet (self : Encoded) : Timeline.Packet Float where
  track := self.track
  pts := self.sample.pts
  duration := self.sample.duration
  sync := self.sample.sync
  decodeTime := self.decodeTime

def Range.interval (self : Range) : Span Float := ⟨self.start, self.stop⟩

def Buffer.timeline (self : Buffer) : Timeline.Buffer Float where
  mime := self.mime
  tracks := self.parser.tracks
  video := self.video.map Encoded.packet
  audio := self.audio.map Encoded.packet
  offset := self.offset
  needSync := self.needSync

def Kept.timeline (self : Kept) : Timeline.Kept Float where
  needSync := self.needSync
  video := self.video.map Encoded.packet
  audio := self.audio.map Encoded.packet

def Request.timeline (self : Request) : Timeline.Request Float where
  timestampOffset := self.timestampOffset
  appendWindowStart := self.appendWindowStart
  appendWindowEnd := self.appendWindowEnd
  sequence := self.sequence

theorem mergeNext_interval (result : List Range) (range : Range) :
    (mergeNext result range).map Range.interval =
      Timeline.mergeNext (result.map Range.interval) range.interval := by
  unfold mergeNext Timeline.mergeNext
  rw [getLast?_map]
  cases result.getLast? with
  | none => rfl
  | some last =>
    change _ = if range.start ≤ last.stop + 0.000001 then
      (result.map Range.interval).dropLast ++ [⟨last.start, fmax last.stop range.stop⟩]
      else result.map Range.interval ++ [range.interval]
    simp only [← map_dropLast]
    split <;> simp [Range.interval]

theorem merge_interval (ranges : List Range) :
    (merge ranges).map Range.interval = Timeline.merge (ranges.map Range.interval) := by
  have folded (next found : List Range) : (next.foldl mergeNext found).map Range.interval =
      (next.map Range.interval).foldl Timeline.mergeNext (found.map Range.interval) := by
    induction next generalizing found with
    | nil => rfl
    | cons range next ih => rw [foldl_cons, ih, mergeNext_interval]; rfl
  have kept : (ranges.map Range.interval).filter (fun range => Timeline.Time.isFinite range.start &&
        Timeline.Time.isFinite range.stop && decide (range.start < range.stop)) =
      (ranges.filter fun range => range.start.isFinite ∧ range.stop.isFinite ∧
        range.stop > range.start).map Range.interval := by
    rw [filter_map]
    refine congrArg _ (filter_congr fun range _ => ?_)
    simp [Range.interval, Timeline.Time.isFinite, Bool.and_assoc]
    rfl
  unfold merge Timeline.merge
  simp only [kept, folded]
  rw [map_insertionSort _ fun left right : Span Float =>
    Timeline.Time.ordered left.start right.start = true]
  · rfl
  · intro left _ right _
    exact decide_eq_true_iff.symm

theorem intersection_interval (left right : List Range) :
    (intersection left right).map Range.interval =
      Timeline.intersection (left.map Range.interval) (right.map Range.interval) := by
  fun_induction intersection left right with
  | case1 right => simp [Timeline.intersection]
  | case2 left => cases left <;> simp [Timeline.intersection]
  | case3 a as b bs start stop rest some ih ih' =>
    simp only [map_cons]
    rw [Timeline.intersection]
    change _ = if start < stop then Span.mk start stop :: (if a.stop < b.stop then _ else _) else _
    have joined : rest.map Range.interval = _ := apply_ite (List.map Range.interval) _ _ _
    rw [if_pos some, joined, ih, ih']
    rfl
  | case4 a as b bs start stop rest none ih ih' =>
    rw [map_cons, map_cons, Timeline.intersection]
    change _ = if start < stop then _ else (if a.stop < b.stop then _ else _)
    have joined : rest.map Range.interval = _ := apply_ite (List.map Range.interval) _ _ _
    rw [if_neg none, joined, ih, ih']
    rfl

theorem retainVideo_packet (start stop : Float) (dependent : Bool) (packets : List Encoded) :
    (retainVideo start stop dependent packets).map Encoded.packet =
      Timeline.retainVideo start stop dependent (packets.map Encoded.packet) := by
  have same (packet : Encoded) : decide (packet.sample.pts < stop ∧ packet.sample.endTime > start) =
      Timeline.overlaps packet.packet start stop := by
    simp [Timeline.overlaps, Encoded.packet, Timeline.Packet.endTime, Sample.endTime]
    rfl
  have restarts (packet : Encoded) : decide (packet.sample.sync = true ∧ packet.sample.pts ≥ stop) =
      (packet.packet.sync && decide (stop ≤ packet.packet.pts)) := by
    simp [Encoded.packet]
    rfl
  induction packets generalizing dependent with
  | nil => rfl
  | cons packet packets ih =>
    rw [map_cons, retainVideo, Timeline.retainVideo]
    simp only [same, restarts]
    split
    · exact ih _
    · exact congrArg (packet.packet :: ·) (ih _)

theorem shift_timeline (request : Request) (packets : List Encoded) :
    request.timeline.shift (packets.map Encoded.packet) = request.shift packets := by
  have times : (packets.map Encoded.packet).map (·.pts) = packets.map (·.sample.pts) := by
    simp [Encoded.packet]
  unfold Timeline.Request.shift Request.shift
  rw [times]
  cases packets.map (·.sample.pts) <;> rfl

theorem outside_timeline (request : Request) (packet : Encoded) :
    request.timeline.outside packet.packet = request.outside packet := rfl

theorem accept_timeline (request : Request) (tracks : List Track) (shift : Float) (needSync : Bool)
    (emitted : Nat) (packets : List Encoded) :
    (accept request tracks shift needSync emitted packets).map Kept.timeline =
      Timeline.accept request.timeline tracks shift needSync (packets.map Encoded.packet) := by
  induction packets generalizing needSync emitted with
  | nil => rfl
  | cons packet packets ih =>
    rw [accept, List.map_cons, Timeline.accept, show packet.packet.track = packet.track from rfl]
    cases tracks.find? (·.id = packet.track) with
    | none => rfl
    | some track =>
      have moved : (packet.shift shift).packet = packet.packet.shift shift := rfl
      simp only [← moved, outside_timeline, map_ite, ih, map_bind, map_pure]
      rw [← ih false (emitted + 1), ← ih needSync emitted, bind_map, bind_map]
      rfl

namespace Buffer

theorem count_timeline (self : Buffer) : self.timeline.count = self.count := by
  simp [count, timeline, Timeline.Buffer.count]

theorem remove_timeline (self : Buffer) (start stop : Float) :
    ((self.remove start stop).1.timeline, (self.remove start stop).2) =
      self.timeline.remove start stop := by
  have after : (self.remove start stop).1.timeline = (self.timeline.remove start stop).1 := by
    have audio : (self.audio.filter fun packet => packet.sample.pts ≥ stop ∨
        packet.sample.endTime ≤ start).map Encoded.packet =
        Timeline.retainAudio start stop (self.audio.map Encoded.packet) := by
      unfold Timeline.retainAudio
      rw [filter_map]
      refine congrArg _ (filter_congr fun packet _ => ?_)
      simp [Encoded.packet, Timeline.Packet.endTime, Sample.endTime]
      rfl
    unfold remove timeline Timeline.Buffer.remove
    simp only [retainVideo_packet, audio]
  refine Prod.ext after ?_
  change decide (self.count ≠ (self.remove start stop).1.count) =
    decide (self.timeline.count ≠ (self.timeline.remove start stop).1.count)
  rw [← after, count_timeline, count_timeline]

theorem overwrite_timeline (self : Buffer) (kept : Kept) :
    ((self.overwrite kept).1.timeline, (self.overwrite kept).2) =
      self.timeline.overwrite kept.timeline := by
  have folded (ranges : List Range) (state : Buffer × Bool) :
      ((ranges.foldl makeRoom state).1.timeline, (ranges.foldl makeRoom state).2) =
        (ranges.map Range.interval).foldl Timeline.Buffer.makeRoom (state.1.timeline, state.2) := by
    induction ranges generalizing state with
    | nil => rfl
    | cons range ranges ih =>
      rw [foldl_cons, ih, map_cons, foldl_cons]
      refine congrArg (fun state => (ranges.map Range.interval).foldl _ state) ?_
      have removed := remove_timeline state.1 range.start range.stop
      change _ = ((state.1.timeline.remove range.start range.stop).1,
        state.2 || (state.1.timeline.remove range.start range.stop).2)
      rw [← removed]
      rfl
  unfold overwrite Timeline.Buffer.overwrite
  rw [folded, merge_interval]
  refine congrArg (fun ranges => List.foldl _ _ (Timeline.merge ranges)) ?_
  simp [Kept.timeline, Function.comp_def, Encoded.range, Range.interval, Encoded.packet,
    Timeline.Packet.range, Timeline.Packet.endTime, Sample.endTime]

theorem store_timeline (self : Buffer) (kept : Kept) :
    (self.store kept).timeline = self.timeline.store kept.timeline := by
  have sorted (old new : List Encoded) :
      ((old ++ new).insertionSort decodeOrder).map Encoded.packet =
        (old.map Encoded.packet ++ new.map Encoded.packet).insertionSort Timeline.decodeOrder := by
    rw [map_insertionSort _ Timeline.decodeOrder, map_append]
    intro left _ right _
    exact decide_eq_true_iff.symm
  unfold store timeline Timeline.Buffer.store
  simp only [sorted]
  rfl

theorem stage_timeline (readMp4 : ReadMp4) (self : Buffer) (bytes : Block) (request : Request) :
    (self.stage readMp4 bytes request).map (fun (staged, kept) => (staged.timeline, kept.timeline)) =
      self.timeline.stage ((self.parser.append readMp4 bytes).map fun (parser, packets) =>
        (parser.tracks, packets.map Encoded.packet)) request.timeline := by
  change Except.map _ (if request.invalidAppend then _ else _) =
    if request.invalidAppend then _ else _
  rw [map_ite]
  refine if_congr Iff.rfl rfl ?_
  cases self.parser.append readMp4 bytes with
  | error failure => rfl
  | ok parsed =>
    obtain ⟨parser, packets⟩ := parsed
    change Except.map _ (if parser.tracks ≠ [] ∧ ¬ tracksMatch self.mime parser.tracks then _
      else _) = if parser.tracks ≠ [] ∧ ¬ tracksMatch self.mime parser.tracks then _ else _
    rw [map_ite]
    refine if_congr Iff.rfl rfl ?_
    change Except.map _ (accept request parser.tracks (request.shift packets)
      (self.needSync || request.timestampOffset != self.offset) self.emitted packets >>= _) =
      Timeline.accept request.timeline parser.tracks
        (request.timeline.shift (packets.map Encoded.packet))
        (self.needSync || request.timestampOffset != self.offset) (packets.map Encoded.packet) >>= _
    rw [map_bind, shift_timeline, ← accept_timeline _ _ _ _ self.emitted, bind_map]
    rfl

theorem startsBefore_packet (new old : List Encoded) :
    Timeline.startsBefore (new.map Encoded.packet) (old.map Encoded.packet) =
      startsBefore new old := by
  unfold Timeline.startsBefore startsBefore
  rw [head?_map, getLast?_map]
  cases new.head? <;> cases old.getLast? <;> rfl

theorem nextOffset_timeline (request : Request) (kept : Kept) :
    Timeline.Buffer.nextOffset request.timeline kept.timeline = nextOffset request kept := by
  have times : (kept.timeline.video ++ kept.timeline.audio).map Timeline.Packet.endTime =
      (kept.video ++ kept.audio).map (·.sample.endTime) := by
    simp [Kept.timeline, Function.comp_def, Encoded.packet, Timeline.Packet.endTime, Sample.endTime]
  unfold Timeline.Buffer.nextOffset nextOffset
  rw [times]
  cases (kept.video ++ kept.audio).map (·.sample.endTime) <;> rfl

theorem append_timeline (readMp4 : ReadMp4) (self : Buffer) (bytes : Block) (request : Request) :
    (self.append readMp4 bytes request).map (fun (after, changed) => (after.timeline, changed)) =
      self.timeline.append ((self.parser.append readMp4 bytes).map fun (parser, packets) =>
        (parser.tracks, packets.map Encoded.packet)) request.timeline := by
  unfold append Timeline.Buffer.append
  rw [map_bind, ← stage_timeline, bind_map]
  refine congrArg _ (funext fun (staged, kept) => ?_)
  have overwritten := overwrite_timeline staged kept
  have stored := store_timeline (staged.overwrite kept).1 kept
  have size := count_timeline ((staged.overwrite kept).1.store kept)
  simp only [← overwritten, ← stored, size, map_ite]
  refine if_congr Iff.rfl rfl ?_
  have changed : Timeline.startsBefore kept.timeline.video (staged.overwrite kept).1.timeline.video =
        startsBefore kept.video (staged.overwrite kept).1.video ∧
      Timeline.startsBefore kept.timeline.audio (staged.overwrite kept).1.timeline.audio =
        startsBefore kept.audio (staged.overwrite kept).1.audio :=
    ⟨startsBefore_packet _ _, startsBefore_packet _ _⟩
  rw [changed.1, changed.2, nextOffset_timeline]
  rfl

theorem endTime_timeline (self : Buffer) : self.timeline.endTime = self.endTime := by
  simp [timeline, Timeline.Buffer.endTime, endTime, Function.comp_def, Encoded.packet,
    Timeline.Packet.endTime, Sample.endTime]
  rfl

theorem rangesOf_interval (ended : Option Float) (packets : List Encoded) :
    (rangesOf ended packets).map Range.interval =
      Timeline.Buffer.rangesOf ended (packets.map Encoded.packet) := by
  have merged : (merge (packets.map fun packet =>
      ⟨fmax packet.sample.pts 0, packet.sample.endTime⟩)).map Range.interval =
      Timeline.Buffer.covered (packets.map Encoded.packet) := by
    rw [merge_interval, Timeline.Buffer.covered]
    simp only [map_map]
    rfl
  unfold rangesOf Timeline.Buffer.rangesOf
  simp only [← merged, getLast?_map]
  cases ended with
  | none => rfl
  | some stop =>
    cases (merge (packets.map fun packet =>
        ⟨fmax packet.sample.pts 0, packet.sample.endTime⟩)).getLast? with
    | none => rfl
    | some last =>
      simp only [Option.map_some, ← map_dropLast, map_append]
      rfl

theorem ranges_timeline (self : Buffer) (ended : Option Float) :
    (self.ranges ended).map Range.interval = self.timeline.ranges ended := by
  unfold ranges Timeline.Buffer.ranges
  simp only [timeline, ← rangesOf_interval]
  cases self.mime.video <;> cases self.mime.audio <;>
    simp only [map_nil, intersection_interval]

end Buffer

namespace Presentation

def timeline (self : Presentation) : Timeline.Presentation Float where
  buffers := (values self.buffers).map Buffer.timeline
  ended := self.ended

theorem ranges_timeline (self : Presentation) :
    self.ranges.map Range.interval = self.timeline.ranges := by
  have ended : self.timeline.endTime = self.endTime := by
    simp only [Timeline.Presentation.endTime, timeline, map_map]
    exact congrArg (fun ends => List.foldl fmax 0 ends)
      (map_congr_left fun buffer _ => buffer.endTime_timeline)
  have folded (first : List Range) (rest : List (List Range)) :
      (rest.foldl intersection first).map Range.interval =
        (rest.map (List.map Range.interval)).foldl Timeline.intersection
          (first.map Range.interval) := by
    induction rest generalizing first with
    | nil => rfl
    | cons next rest ih => rw [foldl_cons, ih, intersection_interval]; rfl
  unfold ranges Timeline.Presentation.ranges endedAt
  rw [ended]
  have shown : self.timeline.buffers = (values self.buffers).map Buffer.timeline := rfl
  rw [shown]
  cases values self.buffers with
  | nil => rfl
  | cons first rest =>
    simp only [map_cons, folded, Buffer.ranges_timeline, map_map]
    exact congrArg (fun ranges => List.foldl _ _ ranges)
      (map_congr_left fun buffer _ => buffer.ranges_timeline _)

end Presentation
end Chuzz.Video
