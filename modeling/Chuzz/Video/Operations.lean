import Chuzz.Library.Fallible
import Chuzz.Video.Host

/-! What one call can do to the store, to a presentation and to a buffer, and
the induction rules that follow: an invariant of buffers or of presentations
is proved once for each operation and then holds in every reached store. -/
namespace Chuzz.Video
open Std Library.TreeMapValues Library.Transition Library.Fallible ExtTreeMap

namespace Buffer

theorem append_ok {self staged : Buffer} {bytes : Block} {changed : Bool}
    (appended : self.append readMp4 bytes request = .ok (staged, changed)) :
    ∃ parsed kept,
      self.stage readMp4 bytes request = .ok (parsed, kept) ∧
      staged = { (parsed.overwrite kept).1.store kept with offset := nextOffset request kept } ∧
      changed = ((parsed.overwrite kept).2 || startsBefore kept.video (parsed.overwrite kept).1.video ||
        startsBefore kept.audio (parsed.overwrite kept).1.audio) ∧
      ((parsed.overwrite kept).1.store kept).count ≤ 1000000 := by
  obtain ⟨⟨parsed, kept⟩, chosen, rest⟩ := bind_ok appended
  simp only at rest
  split at rest
  · contradiction
  · rename_i within
    injection rest with same
    obtain ⟨rfl, rfl⟩ := Prod.mk.inj same
    exact ⟨parsed, kept, chosen, rfl, rfl, Nat.le_of_not_gt within⟩

section
variable {self parsed : Buffer} {bytes : Block} {kept : Kept}
  (chosen : self.stage readMp4 bytes request = .ok (parsed, kept))
include chosen

theorem append_of_stage (within : ((parsed.overwrite kept).1.store kept).count ≤ 1000000) :
    self.append readMp4 bytes request =
      .ok ({ (parsed.overwrite kept).1.store kept with offset := nextOffset request kept },
        (parsed.overwrite kept).2 || startsBefore kept.video (parsed.overwrite kept).1.video ||
          startsBefore kept.audio (parsed.overwrite kept).1.audio) := by
  simp only [append, chosen, bind, Except.bind, if_neg (Nat.not_lt.mpr within)]
  rfl

theorem stage_ok : ∃ parser packets, request.invalidAppend = false ∧
      self.parser.append readMp4 bytes = .ok (parser, packets) ∧
      accept request parser.tracks (request.shift packets)
        (self.needSync || request.timestampOffset != self.offset) self.emitted packets = .ok kept ∧
      parsed = { self with parser, needSync := kept.needSync, emitted := kept.emitted } := by
  simp only [stage] at chosen
  split at chosen
  · contradiction
  · rename_i valid
    obtain ⟨⟨parser, packets⟩, read, chosen⟩ := bind_ok chosen
    split at chosen
    · contradiction
    · obtain ⟨kept', accepted, chosen⟩ := bind_ok chosen
      injection chosen with same
      obtain ⟨rfl, rfl⟩ := Prod.mk.inj same
      exact ⟨parser, packets, by simpa using valid, mapError_ok read, accepted, rfl⟩

end

theorem overwrite_induct {P : Buffer → Prop} {self : Buffer} (initial : P self)
    (removed : ∀ buffer start stop, P buffer → P (buffer.remove start stop).1) (kept : Kept) :
    P (self.overwrite kept).1 := by
  simp only [overwrite]
  generalize merge ((kept.video ++ kept.audio).map Encoded.range) = ranges
  generalize false = changed
  induction ranges generalizing self changed with
  | nil => exact initial
  | cons range rest ih => exact ih (removed _ _ _ initial) _

end Buffer

namespace Presentation

@[simp] theorem setBuffer_buffers (self : Presentation) (k : Nat) (buffer : Buffer) :
    (self.setBuffer k buffer).buffers = self.buffers.insert k buffer := rfl

@[simp] theorem setBuffer_epoch (self : Presentation) (k : Nat) (buffer : Buffer) :
    (self.setBuffer k buffer).epoch = self.epoch := rfl

@[simp] theorem setBuffer_duration (self : Presentation) (k : Nat) (buffer : Buffer) :
    (self.setBuffer k buffer).duration = self.duration := rfl

theorem setBuffer_restore {self : Presentation} {k : Nat} {old : Buffer}
    (found : self.buffers[k]? = some old) (buffer : Buffer) :
    (self.setBuffer k buffer).setBuffer k old = self := by
  simp only [setBuffer, insert_restore found]

@[simp] theorem bump_buffers (self : Presentation) : self.bump.buffers = self.buffers := rfl
@[simp] theorem bump_duration (self : Presentation) : self.bump.duration = self.duration := rfl
@[simp] theorem bump_ended (self : Presentation) : self.bump.ended = self.ended := rfl
@[simp] theorem bump_ready (self : Presentation) : self.bump.ready = self.ready := rfl
@[simp] theorem bump_endTime (self : Presentation) : self.bump.endTime = self.endTime := rfl
@[simp] theorem bump_memory (self : Presentation) : self.bump.memory = self.memory := rfl

theorem bump_epoch_ne (self : Presentation) : self.bump.epoch ≠ self.epoch := by
  simp only [bump, wrappingAdd]
  omega

@[simp] theorem extendDuration_buffers (self : Presentation) :
    self.extendDuration.buffers = self.buffers := by
  unfold extendDuration
  repeat' split
  all_goals rfl

@[simp] theorem extendDuration_epoch (self : Presentation) :
    self.extendDuration.epoch = self.epoch := by
  unfold extendDuration
  repeat' split
  all_goals rfl

/-- Every way in which an operation can end. -/
inductive Operated (readMp4 : ReadMp4) (self : Presentation) (bytes : Option Block)
    (request : Request) : Result → Prop where
  | refused (error) : Operated readMp4 self bytes request (self, .error error)
  | unchanged : Operated readMp4 self bytes request (self, .ok ())
  | added (mime) : request.op = .add → request.buffer ∉ self.buffers →
      Operated readMp4 self bytes request
        ((self.setBuffer request.buffer { mime }).bump, .ok ())
  | deleted : request.op = .delete → request.buffer ∈ self.buffers →
      Operated readMp4 self bytes request
        ({ self with buffers := self.buffers.erase request.buffer }.bump, .ok ())
  | reopened : Operated readMp4 self bytes request ({ self with ended := false }.bump, .ok ())
  | appended (block old staged changed) : request.op = .append → self.ended = false →
      bytes = some block → self.buffers[request.buffer]? = some old →
      old.append readMp4 block request = .ok (staged, changed) →
      (self.setBuffer request.buffer staged).memory ≤ sourceLimit →
      Operated readMp4 self bytes request
        ((if changed then (self.setBuffer request.buffer staged).bump
          else self.setBuffer request.buffer staged).extendDuration, .ok ())
  | aborted (old) : self.buffers[request.buffer]? = some old →
      Operated readMp4 self bytes request
        (self.setBuffer request.buffer { old with parser := old.parser.abort }, .ok ())
  | removed (old stop) : self.buffers[request.buffer]? = some old →
      Operated readMp4 self bytes request
        (if (old.remove request.start stop).2 then
            (self.setBuffer request.buffer (old.remove request.start stop).1).bump
          else self.setBuffer request.buffer (old.remove request.start stop).1, .ok ())
  | resized (duration) : request.op = .duration → duration = request.value.getD infinity →
      ¬ duration < 0 → duration.isNaN = false → self.ended = false →
      Operated readMp4 self bytes request
        ({ (if duration < self.duration then self.truncate duration else self) with duration },
          .ok ())
  | lived (live) : Operated readMp4 self bytes request ({ self with live }, .ok ())
  | ended (error) : self.ready = true →
      Operated readMp4 self bytes request
        ({ self with ended := true, duration := self.endTime, error }, .ok ())
  | misended (error) : request.op = .end → self.ended = false → self.ready = true →
      self.incomplete = false → endOfStreamError request.error = .error error →
      Operated readMp4 self bytes request
        ({ self with ended := true, duration := self.endTime }, .error error)

variable {self : Presentation} {bytes : Option Block} {request : Request}

theorem add_operated (op : request.op = .add) :
    Operated readMp4 self bytes request (self.add request) := by
  simp only [add, fail]
  split
  · exact .refused _
  · split
    · exact .refused _
    · rename_i permitted
      split
      · exact .refused _
      · exact .added _ op fun present => permitted (.inr (.inr present))

theorem append_operated (op : request.op = .append) :
    Operated readMp4 self bytes request (self.append readMp4 bytes request) := by
  simp only [append, fail]
  split
  · exact .refused _
  · rename_i notEnded
    split
    · exact .refused _
    · split
      · exact .refused _
      · rename_i old found
        split
        · exact .refused _
        · rename_i success
          split
          · rw [setBuffer_restore found]
            exact .refused _
          · rename_i within
            exact .appended _ old _ _ op (by simpa using notEnded) rfl found success
              (Nat.le_of_not_gt within)

theorem endOfStream_operated (op : request.op = .end) :
    Operated readMp4 self bytes request (self.endOfStream request) := by
  simp only [endOfStream, fail]
  split
  · exact .refused _
  · rename_i permitted
    simp only [not_or, Bool.not_eq_true, Bool.not_eq_false] at permitted
    obtain ⟨notEnded, ready, complete⟩ := permitted
    cases checked : endOfStreamError request.error with
    | ok error => exact .ended error ready
    | error error => exact .misended error op notEnded ready complete checked

theorem operated (readMp4 : ReadMp4) (self : Presentation) (bytes : Option Block)
    (request : Request) :
    Operated readMp4 self bytes request (self.operate readMp4 bytes request) := by
  simp only [operate]
  split
  case h_1 => exact .unchanged
  case h_2 op => exact add_operated op
  case h_3 op =>
    simp only [delete, fail]
    split
    · exact .deleted op ‹_›
    · exact .refused _
  case h_4 =>
    simp only [reopen]
    split
    · exact .reopened
    · exact .unchanged
  case h_5 op => exact append_operated op
  case h_6 =>
    simp only [abort, fail]
    split
    · exact .refused _
    · exact .aborted _ ‹_›
  case h_7 =>
    simp only [remove, fail]
    split
    · exact .refused _
    · split
      · exact .refused _
      · exact .removed _ _ ‹_›
  case h_8 op =>
    simp only [setDuration, fail]
    split
    · exact .refused _
    · rename_i permitted
      simp only [not_or, Bool.not_eq_true] at permitted
      exact .resized _ op rfl permitted.1 permitted.2.1 permitted.2.2
  case h_9 =>
    simp only [setLive, fail]
    split
    · exact .refused _
    · split
      · exact .refused _
      · exact .lived _
  case h_10 => exact .lived none
  case h_11 op => exact endOfStream_operated op
  all_goals exact .refused _

/-- An operation only creates buffers, appends to them, aborts or removes. -/
theorem operate_buffers {P : Buffer → Prop} (all : ∀ (k : Nat) b, self.buffers[k]? = some b → P b)
    (new : ∀ mime, P { mime })
    (appended : request.op = .append → self.ended = false → ∀ block b staged changed,
      bytes = some block → self.buffers[request.buffer]? = some b → P b →
      b.append readMp4 block request = .ok (staged, changed) → P staged)
    (aborted : ∀ b : Buffer, P b → P { b with parser := b.parser.abort })
    (removed : ∀ b start stop, P b → P (b.remove start stop).1) (k : Nat) (b : Buffer)
    (present : (self.operate readMp4 bytes request).1.buffers[k]? = some b) : P b := by
  have inserted {new : Buffer} (fresh : P new)
      (present : (self.buffers.insert request.buffer new)[k]? = some b) : P b := by
    rw [getElem?_insert] at present
    split at present
    · exact Option.some.inj present ▸ fresh
    · exact all k b present
  generalize result : self.operate readMp4 bytes request = final at present
  have outcome := operated readMp4 self bytes request
  rw [result] at outcome
  cases outcome with
  | added mime => exact inserted (new mime) present
  | deleted =>
    simp only [bump_buffers, getElem?_erase] at present
    split at present
    · contradiction
    · exact all k b present
  | appended block old staged changed op notEnded given found success =>
    have kept := appended op notEnded block old staged changed given found (all _ _ found) success
    simp only [extendDuration_buffers] at present
    split at present <;> exact inserted kept present
  | aborted old found => exact inserted (aborted _ (all _ _ found)) present
  | removed old stop found =>
    have kept := removed old request.start stop (all _ _ found)
    split at present <;> exact inserted kept present
  | resized duration =>
    split at present
    · simp only [truncate, bump_buffers, getElem?_map, Option.map_eq_some_iff] at present
      obtain ⟨old, found, rfl⟩ := present
      exact removed _ _ _ (all _ _ found)
    · exact all k b present
  | refused | unchanged | reopened | lived | ended | misended => exact all k b present

end Presentation

namespace Store

@[simp] theorem consume_sources (self : Store) (handle : Option Nat) :
    (self.consume handle).sources = self.sources := by
  cases handle <;> rfl

@[simp] theorem consume_nextUpload (self : Store) (handle : Option Nat) :
    (self.consume handle).nextUpload = self.nextUpload := by
  cases handle <;> rfl

/-- Every way in which a request can end, after its upload is consumed. -/
inductive Controlled (readMp4 : ReadMp4) (self : Store) (request : Request) :
    Store × Except Error Value → Prop where
  | refused (error) : Controlled readMp4 self request (self.consume request.handle, .error error)
  | opened : request.source ∉ self.sources →
      Controlled readMp4 self request
        ({ self.consume request.handle with
            sources := self.sources.insert request.source {} }, .ok .empty)
  | closed : Controlled readMp4 self request
      ({ self.consume request.handle with sources := self.sources.erase request.source },
        .ok .empty)
  | operated (source) : self.sources[request.source]? = some source →
      Controlled readMp4 self request
        ({ self.consume request.handle with
            sources := self.sources.insert request.source
              (source.operate readMp4 (self.staged request.handle) request).1 },
          (source.operate readMp4 (self.staged request.handle) request).2.map fun _ =>
            (source.operate readMp4 (self.staged request.handle) request).1.reply request.buffer)

theorem controlled (readMp4 : ReadMp4) (self : Store) (request : Request) :
    Controlled readMp4 self request (self.control readMp4 request) := by
  simp only [control]
  split
  · simp only [openSource, consume_sources]
    split
    · exact .refused _
    · rename_i permitted
      split
      · exact .refused _
      · exact .opened fun present => permitted (.inr (.inr present))
  · simp only [closeSource, consume_sources]
    exact .closed
  · simp only [consume_sources]
    split
    · exact .refused _
    · exact .operated _ ‹_›

@[simp] theorem call_put (self : Store) (bytes : Bytes) (offset length : Nat) :
    (self.call readMp4 (.put bytes offset length)).1 = (self.put bytes offset length).1 := by
  simp only [call]
  split <;> rename_i result <;> rw [result]

@[simp] theorem call_release (self : Store) (id : Nat) :
    (self.call readMp4 (.release id)).1 = self.release id := rfl

@[simp] theorem call_control (self : Store) (request : Request) :
    (self.call readMp4 (.control request)).1 = (self.control readMp4 request).1 := by
  simp only [call]
  split <;> rename_i result <;> rw [result]

theorem put_cases (self : Store) (bytes : Bytes) (offset length : Nat) :
    (self.put bytes offset length).1 = self ∨
    offset + length ≤ bytes.length ∧ length ≤ uploadLimit ∧
      self.memory + length ≤ documentLimit ∧
      (self.put bytes offset length).1 =
        { self with
          nextUpload := self.nextUpload + 1
          uploads := self.uploads.insert (self.nextUpload + 1)
            (slice bytes offset (offset + length)) } := by
  simp only [put]
  split
  · exact .inl rfl
  · rename_i inside
    split
    · exact .inl rfl
    · rename_i permitted
      simp only [not_or] at permitted
      obtain ⟨short, _, fits, _⟩ := permitted
      exact .inr ⟨Nat.le_of_not_gt inside, Nat.le_of_not_gt short, Nat.le_of_not_gt fits, rfl⟩

theorem run_reached (readMp4 : ReadMp4) (calls : List Call) {self : Store}
    (start : Reached readMp4 self) : Reached readMp4 (self.run readMp4 calls) := by
  induction calls generalizing self with
  | nil => exact start
  | cons first rest ih => exact ih (.next start rfl)

variable {condition : Store → Call → Prop}

theorem run_restricted {readMp4 : ReadMp4} {calls : List Call}
    (met : ∀ call ∈ calls, ∀ store, condition store call) {self : Store}
    (start : Reachable Fresh (restrict (step readMp4) condition) self) :
    Reachable Fresh (restrict (step readMp4) condition) (self.run readMp4 calls) := by
  induction calls generalizing self with
  | nil => exact start
  | cons first rest ih =>
    exact ih (fun call member => met call (List.mem_cons_of_mem _ member))
      (.next start ⟨rfl, met first List.mem_cons_self self⟩)

variable {P : Presentation → Prop}

/-- What holds of a new presentation and survives every operation on it holds of
every presentation in every reached store. -/
theorem sources_invariant (fresh : P {})
    (operated : ∀ (store : Store) request source, Reached readMp4 store → P source →
      store.sources[request.source]? = some source → condition store (.control request) →
      P (source.operate readMp4 (store.staged request.handle) request).1)
    {store : Store} (run : Reachable Fresh (restrict (step readMp4) condition) store) (id : Nat)
    (source : Presentation) (present : store.sources[id]? = some source) : P source := by
  induction run generalizing id source with
  | start first =>
    rw [show _ = _ from first] at present
    simp at present
  | @next before label after earlier stepped ih =>
    obtain ⟨called, met⟩ := stepped
    rw [← show _ = after from called] at present
    cases label with
    | put bytes offset length =>
      rw [call_put] at present
      rcases put_cases before bytes offset length with same | ⟨_, _, _, staged⟩
      · exact ih id source (same ▸ present)
      · exact ih id source (by rwa [staged] at present)
    | release handle => exact ih id source present
    | control request =>
      rw [call_control] at present
      generalize result : before.control readMp4 request = final at present
      have outcome := controlled readMp4 before request
      rw [result] at outcome
      cases outcome with
      | refused error => exact ih id source (by simpa using present)
      | opened absent =>
        simp only [getElem?_insert] at present
        split at present
        · exact Option.some.inj present ▸ fresh
        · exact ih id source present
      | closed =>
        simp only [getElem?_erase] at present
        split at present
        · contradiction
        · exact ih id source present
      | operated old found =>
        simp only [getElem?_insert] at present
        split at present
        · exact Option.some.inj present ▸ operated before request old earlier.unrestricted
            (ih _ _ found) found met
        · exact ih id source present

theorem sources_always (fresh : P {})
    (operated : ∀ (store : Store) request source, Reached readMp4 store → P source →
      store.sources[request.source]? = some source →
      P (source.operate readMp4 (store.staged request.handle) request).1)
    {store : Store} (run : Reached readMp4 store) (id : Nat) (source : Presentation)
    (present : store.sources[id]? = some source) : P source := by
  have every : Reachable Fresh (restrict (step readMp4) fun _ _ => True) store :=
    run.mono fun _ _ _ stepped => ⟨stepped, trivial⟩
  exact sources_invariant fresh (fun store request source reached holds found _ =>
    operated store request source reached holds found) every id source present

end Store
end Chuzz.Video
