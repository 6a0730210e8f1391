import Chuzz.Media.Capture

/-! While the page's track is live, the status that the host has published is the one that the
page holds. Every pass and every call keeps this as long as what is remembered is what was
reported, and it is all that the next pass needs. -/
namespace Chuzz.Media
open List Bool
namespace Capture

/-- What holds of the page's object by itself. -/
structure Recorded (capture : Capture) : Prop where
  onward : capture.history.Pairwise fun earlier later => earlier = true → later = true
  current : capture.history.getLast? = some capture.data.ended
  once : capture.endings = if capture.data.ended && !capture.stopped then 1 else 0
  listed : capture.listed = !capture.data.ended
  stopped : capture.stopped = true → capture.data.ended = true

/-- The part of the invariant that a new value of `enabled` leaves alone. -/
structure Agreed (capture : Capture) : Prop extends Recorded capture where
  finished : capture.data.ended = true → capture.native.ended = true
  kept : capture.data.ended = false → capture.kept = true
  published : capture.data.ended = false → capture.published = some capture.data

structure Consistent (capture : Capture) : Prop extends Agreed capture where
  enabled : capture.data.ended = false → capture.native.enabled = capture.data.enabled

theorem pairwise_assigned {history : List Bool} {last : Bool} (ended : Bool)
    (onward : history.Pairwise fun earlier later => earlier = true → later = true)
    (current : history.getLast? = some last) (kept : last = true → ended = true) :
    (history ++ [ended]).Pairwise fun earlier later => earlier = true → later = true := by
  obtain ⟨front, rfl⟩ := getLast?_eq_some_iff.mp current
  apply pairwise_append.mpr
  constructor
  · exact onward
  constructor
  · exact pairwise_singleton _ _
  · intro earlier member later final set
    rw [mem_singleton.mp final]
    rcases mem_append.mp member with before | atEnd
    · exact kept ((pairwise_append.mp onward).2.2 _ before _ (mem_singleton_self _) set)
    · exact kept (mem_singleton.mp atEnd ▸ set)

theorem opened_consistent (enabled muted : Bool) : (opened enabled muted).Consistent where
  onward := pairwise_singleton _ _
  current := rfl
  once := rfl
  listed := rfl
  stopped := fun set => absurd set false_ne_true
  finished := fun set => absurd set false_ne_true
  kept := fun _ => rfl
  published := fun _ => rfl
  enabled := fun _ => rfl

section Readings
variable (native : Status) (published : Option Status) (pass : Pass)

theorem readings_enabled : (readings native published pass).native.enabled = native.enabled := by
  simp only [readings]
  split <;> simp

theorem readings_ended (ended : native.ended = true) :
    (readings native published pass).native.ended = true := by
  simp only [readings]
  split
  · exact Status.read_native_ended _ _ (Status.read_native_ended _ _ ended)
  · exact Status.read_native_ended _ _
      (Status.read_native_ended _ _ (Status.read_native_ended _ _ ended))

theorem readings_compared :
    (readings native published pass).compared = (native.read pass.compared).1 := by
  simp only [readings]
  split <;> rfl

theorem readings_started (ended : native.ended = true) :
    (readings native published pass).compared.ended = true := by
  rw [readings_compared]
  exact Status.read_native_ended _ _ ended

theorem readings_unchanged (unreported : (readings native published pass).described = none) :
    published = some (readings native published pass).compared := by
  simp only [readings] at unreported ⊢
  split at unreported
  · rename_i same
    rw [if_pos same]
    exact same
  · cases unreported

/-- What the pass reads it reads in order, and a track that has ended stays ended. -/
theorem readings_described (reported : (readings native published pass).described = some status) :
    status.enabled = native.enabled ∧
      ((readings native published pass).compared.ended = true → status.ended = true) ∧
      (status.ended = true → (readings native published pass).remembered.ended = true) := by
  simp only [readings] at reported ⊢
  split at reported
  · cases reported
  · rename_i differs
    rw [if_neg differs]
    cases reported
    refine ⟨?_, ?_, ?_⟩
    · simp
    · exact fun ended => Status.read_native_ended _ _ ended
    · exact fun ended => Status.read_native_ended _ _ ended

theorem readings_remembered :
    (readings native published pass).remembered.enabled = native.enabled ∧
      ((readings native published pass).compared.ended = true →
        (readings native published pass).remembered.ended = true) ∧
      ((readings native published pass).remembered.ended = true →
        (readings native published pass).native.ended = true) := by
  simp only [readings]
  split
  · refine ⟨by simp, ?_, id⟩
    exact fun ended => Status.read_native_ended _ _ ended
  · refine ⟨by simp, ?_, id⟩
    exact fun ended => Status.read_native_ended _ _ (Status.read_native_ended _ _ ended)

end Readings

variable {capture : Capture}

/-- What the page makes of a descriptor of a track that it has as live. -/
structure Described (before : Capture) (descriptor : Status) (after : Capture) : Prop where
  data : after.data = descriptor
  listed : after.listed = !descriptor.ended
  history : after.history = before.history ++ [descriptor.ended]
  endings : after.endings = before.endings + if descriptor.ended then 1 else 0
  native : after.native = before.native
  kept : after.kept = before.kept
  published : after.published = before.published
  stopped : after.stopped = before.stopped

theorem update_described (capture : Capture) (listed : capture.listed = true)
    (live : capture.data.ended = false) (descriptor : Status) :
    Described capture descriptor (capture.update (some descriptor)) := by
  simp only [update, listed, live, ↓reduceIte, Bool.not_false, Bool.true_and]
  cases ended : descriptor.ended with
  | true =>
    constructor <;> simp [assign, endings, ended, count_append, Nat.add_assoc]
  | false =>
    rw [if_neg Bool.false_ne_true]
    split
    · constructor <;> simp [assign, endings, ended, listed, count_append]
      split <;> rfl
    · constructor <;> simp [assign, endings, ended, listed]

theorem Recorded.described {before after : Capture} (recorded : before.Recorded)
    (live : before.data.ended = false) (described : Described before descriptor after) :
    after.Recorded where
  onward := by
    rw [described.history]
    exact pairwise_assigned _ recorded.onward recorded.current (by simp [live])
  current := by rw [described.history, described.data, getLast?_concat]
  once := by
    rw [described.endings, recorded.once, described.data, described.stopped]
    have unstopped : before.stopped = false := by
      apply eq_false_iff.mpr
      intro stopped
      rw [recorded.stopped stopped] at live
      cases live
    simp [live, unstopped]
  listed := by rw [described.listed, described.data]
  stopped := by
    intro stopped
    rw [described.stopped] at stopped
    rw [recorded.stopped stopped] at live
    cases live

theorem Recorded.hosted {before after : Capture} (recorded : before.Recorded)
    (same : after = { before with
      native := after.native, kept := after.kept, published := after.published }) :
    after.Recorded := by
  rw [same]
  exact { recorded with }

theorem pass_kept (kept : capture.kept = true) (pass : Pass) :
    capture.pass pass =
      (capture.remember (readings capture.native capture.published pass)).update
        (readings capture.native capture.published pass).described := by
  simp only [Capture.pass, updates, kept, ↓reduceIte]

theorem pass_let_go (gone : capture.kept = false) (pass : Pass) : capture.pass pass = capture := by
  simp only [Capture.pass, updates, gone, false_eq_true, ↓reduceIte, update]

theorem update_unlisted (listed : capture.listed = false) (descriptor : Option Status) :
    capture.update descriptor = capture := by
  cases descriptor with
  | none => rfl
  | some descriptor => simp only [update, listed, false_eq_true, ↓reduceIte]

section
variable (agreed : capture.Agreed)
include agreed

theorem pass_ended (ended : capture.data.ended = true) (pass : Pass) :
    (capture.pass pass).Agreed ∧ (capture.pass pass).data = capture.data ∧
      (capture.pass pass).native.ended = true := by
  cases kept : capture.kept with
  | false =>
    rw [pass_let_go kept]
    exact ⟨agreed, rfl, agreed.finished ended⟩
  | true =>
    have unlisted : capture.listed = false := by rw [agreed.listed, ended]; rfl
    have finished := readings_ended capture.native capture.published pass (agreed.finished ended)
    rw [pass_kept kept, update_unlisted (by exact unlisted)]
    refine ⟨?_, rfl, finished⟩
    constructor
    · exact agreed.toRecorded.hosted rfl
    · exact fun _ => finished
    · exact fun live => Bool.noConfusion (ended.symm.trans live)
    · exact fun live => Bool.noConfusion (ended.symm.trans live)

theorem pass_live (live : capture.data.ended = false) (pass : Pass) :
    let seen := readings capture.native capture.published pass
    let after := capture.pass pass
    after.Recorded ∧ after.native = seen.native ∧
      after.kept = !seen.compared.ended ∧
      after.published = (if seen.compared.ended then none else some seen.remembered) ∧
      after.data = seen.described.getD seen.compared := by
  have listed : capture.listed = true := by rw [agreed.listed, live]; rfl
  rw [pass_kept (agreed.kept live)]
  cases reported : (readings capture.native capture.published pass).described with
  | none =>
    have same := (agreed.published live).symm.trans (readings_unchanged _ _ _ reported)
    refine ⟨agreed.toRecorded.hosted rfl, rfl, rfl, rfl, ?_⟩
    simp only [reported, Option.getD_none]
    exact Option.some.inj same
  | some descriptor =>
    have recorded : (capture.remember (readings capture.native capture.published pass)).Recorded :=
      agreed.toRecorded.hosted rfl
    have described : Described (capture.remember (readings capture.native capture.published pass))
        descriptor ((capture.remember (readings capture.native capture.published pass)).update
          (some descriptor)) := update_described
            (capture.remember (readings capture.native capture.published pass)) listed live
            descriptor
    refine ⟨recorded.described live described, described.native, described.kept,
      described.published, ?_⟩
    simp only [reported, Option.getD_some]
    exact described.data

theorem pass_enabled (pass : Pass) :
    (capture.pass pass).native.enabled = capture.native.enabled := by
  cases kept : capture.kept with
  | false => rw [pass_let_go kept]
  | true =>
    cases live : capture.data.ended with
    | true =>
      have unlisted : capture.listed = false := by rw [agreed.listed, live]; rfl
      rw [pass_kept kept, update_unlisted (by exact unlisted)]
      exact readings_enabled ..
    | false =>
      rw [(pass_live agreed live pass).2.1]
      exact readings_enabled ..

theorem pass_ends (live : capture.data.ended = false) (pass : Pass)
    (ended : (readings capture.native capture.published pass).compared.ended = true) :
    (capture.pass pass).data.ended = true ∧ (capture.pass pass).native.ended = true := by
  obtain ⟨_, native, _, _, data⟩ := pass_live agreed live pass
  have remembered := readings_remembered capture.native capture.published pass
  constructor
  · rw [data]
    cases reported : (readings capture.native capture.published pass).described with
    | none => exact ended
    | some descriptor => exact (readings_described _ _ _ reported).2.1 ended
  · rw [native]
    exact remembered.2.2 (remembered.2.1 ended)

/-- A pass that remembers what it reports leaves host and page in agreement. -/
theorem pass_consistent (pass : Pass) (told : capture.Told pass) :
    (capture.pass pass).Consistent := by
  cases live : capture.data.ended with
  | true =>
    obtain ⟨after, data, _⟩ := pass_ended agreed live pass
    rw [← data] at live
    exact ⟨after, fun ongoing => Bool.noConfusion (live.symm.trans ongoing)⟩
  | false =>
    obtain ⟨recorded, native, kept, published, data⟩ := pass_live agreed live pass
    have remembered := readings_remembered capture.native capture.published pass
    have same : (capture.pass pass).data.ended = false →
        (readings capture.native capture.published pass).compared.ended = false ∧
          (readings capture.native capture.published pass).remembered =
            (capture.pass pass).data := by
      intro ongoing
      rcases told (agreed.kept live) with ended | same
      · exact Bool.noConfusion ((pass_ends agreed live pass ended).1.symm.trans ongoing)
      · constructor
        · apply eq_false_iff.mpr
          intro ended
          exact Bool.noConfusion ((pass_ends agreed live pass ended).1.symm.trans ongoing)
        · rw [same, data]
    refine ⟨⟨recorded, ?_, ?_, ?_⟩, ?_⟩
    · intro final
      rw [native]
      rcases told (agreed.kept live) with ended | same
      · exact remembered.2.2 (remembered.2.1 ended)
      · apply remembered.2.2
        rw [same, ← data]
        exact final
    · intro ongoing
      rw [kept, (same ongoing).1]
      rfl
    · intro ongoing
      rw [published, (same ongoing).1, (same ongoing).2]
      rfl
    · intro ongoing
      rw [native, readings_enabled, ← (same ongoing).2, remembered.1]

end

theorem consistent_change (consistent : capture.Consistent) (change : Change) :
    { capture with native := capture.native.change change }.Consistent where
  toRecorded := consistent.toRecorded.hosted rfl
  finished := by
    intro ended
    exact Status.after_ended capture.native [change] (consistent.finished ended)
  kept := consistent.kept
  published := consistent.published
  enabled := by
    intro live
    exact (Status.after_enabled capture.native [change]).trans (consistent.enabled live)

theorem agreed_read (agreed : capture.Agreed) (moment : Moment) :
    { capture with native := (capture.native.read moment).2 }.Agreed where
  toRecorded := agreed.toRecorded.hosted rfl
  finished := fun ended => Status.read_native_ended _ _ (agreed.finished ended)
  kept := agreed.kept
  published := agreed.published

theorem agreed_enabled (agreed : capture.Agreed) (value : Bool) :
    { capture with native := { capture.native with enabled := value } }.Agreed where
  toRecorded := agreed.toRecorded.hosted rfl
  finished := agreed.finished
  kept := agreed.kept
  published := agreed.published

theorem Recorded.assign (recorded : capture.Recorded) (data : Status)
    (same : data.ended = capture.data.ended) : (capture.assign data).Recorded where
  onward := pairwise_assigned _ recorded.onward recorded.current (fun ended => same.trans ended)
  current := getLast?_concat
  once := by
    apply recorded.once.trans
    rw [← same]
    rfl
  listed := by
    apply recorded.listed.trans
    rw [← same]
    rfl
  stopped := fun stopped => same.trans (recorded.stopped stopped)

theorem answered_consistent (agreed : capture.Agreed) (live : capture.data.ended = false)
    (reply : Moment) (pass : Pass) (answered : capture.Answered reply pass) :
    (({ capture with native := (capture.native.read reply).2 }.pass pass).assign
      (capture.native.read reply).1).Consistent := by
  have reading := agreed_read agreed reply
  obtain ⟨recorded, native, kept, published, data⟩ := pass_live reading live pass
  have remembered :=
    readings_remembered (capture.native.read reply).2 capture.published pass
  cases ended : (readings (capture.native.read reply).2 capture.published pass).compared.ended with
  | true =>
    have told := pass_ends reading live pass ended
    have replied : (capture.native.read reply).1.ended = true := by
      rcases answered with both | same
      · exact both.2
      · exact (congrArg Status.ended same).symm.trans (remembered.2.1 ended)
    refine ⟨⟨recorded.assign _ (replied.trans told.1.symm), fun _ => told.2, ?_, ?_⟩, ?_⟩
    · exact fun ongoing => Bool.noConfusion (replied.symm.trans ongoing)
    · exact fun ongoing => Bool.noConfusion (replied.symm.trans ongoing)
    · exact fun ongoing => Bool.noConfusion (replied.symm.trans ongoing)
  | false =>
    have same : (readings (capture.native.read reply).2 capture.published pass).remembered =
        (capture.native.read reply).1 := by
      rcases answered with both | same
      · exact Bool.noConfusion (ended.symm.trans both.1)
      · exact same
    have ongoing : (capture.native.read reply).1.ended = false := by
      apply eq_false_iff.mpr
      intro replied
      exact Bool.noConfusion (ended.symm.trans (readings_started _ _ _ replied))
    have continued :
        ({ capture with native := (capture.native.read reply).2 }.pass pass).data.ended =
          false := by
      rw [data]
      cases reported :
          (readings (capture.native.read reply).2 capture.published pass).described with
      | none => exact ended
      | some descriptor =>
        apply eq_false_iff.mpr
        intro final
        have last := (readings_described _ _ _ reported).2.2 final
        rw [same, ongoing] at last
        cases last
    refine ⟨⟨recorded.assign _ (ongoing.trans continued.symm), ?_, ?_, ?_⟩, ?_⟩
    · exact fun final => Bool.noConfusion (ongoing.symm.trans final)
    · intro _
      exact kept.trans (by rw [ended]; rfl)
    · intro _
      exact published.trans (by rw [ended, same]; rfl)
    · intro _
      apply (congrArg Status.enabled native).trans
      rw [readings_enabled]
      exact (Status.read_native_enabled ..).trans (Status.read_enabled ..).symm

section
variable (consistent : capture.Consistent)
include consistent

theorem ask_consistent (accepted : Bool) (reply : Moment)
    (pass : Pass) (timely : capture.Timely (.ask accepted reply pass)) :
    (capture.ask accepted reply pass).Consistent := by
  cases live : capture.data.ended with
  | true =>
    rw [ask, if_pos live]
    exact consistent
  | false =>
    simp only [Timely, ask, live, false_eq_true, ↓reduceIte] at timely ⊢
    cases replied : capture.kept && accepted with
    | false =>
      simp only [replied, false_eq_true, ↓reduceIte] at timely ⊢
      exact pass_consistent consistent.toAgreed pass timely
    | true =>
      simp only [replied, ↓reduceIte] at timely ⊢
      exact answered_consistent consistent.toAgreed live reply pass timely

theorem consistent_enabled (value : Bool)
    (same : capture.data.ended = false → capture.data.enabled = value) :
    { capture with data := { capture.data with enabled := value } }.Consistent where
  onward := consistent.onward
  current := consistent.current
  once := consistent.once
  listed := consistent.listed
  stopped := consistent.stopped
  finished := consistent.finished
  kept := consistent.kept
  published := by
    intro live
    have live : capture.data.ended = false := live
    rw [← same live]
    exact consistent.published live
  enabled := by
    intro live
    exact (consistent.enabled live).trans (same live)

theorem setEnabled_consistent (value : Bool) (pass : Pass)
    (timely : capture.Timely (.setEnabled value pass)) :
    (capture.setEnabled value pass).Consistent := by
  cases live : capture.data.ended with
  | true =>
    rw [setEnabled, if_pos live]
    exact consistent_enabled consistent value
      (fun ongoing => Bool.noConfusion (live.symm.trans ongoing))
  | false =>
    have agreed := agreed_enabled consistent.toAgreed value
    have called := pass_consistent agreed pass timely
    rw [setEnabled, if_neg (eq_false_iff.mp live), if_pos (consistent.kept live)]
    apply consistent_enabled called value
    intro ongoing
    exact (called.enabled ongoing).symm.trans (pass_enabled agreed pass)

theorem stop_consistent : capture.stop.Consistent := by
  cases live : capture.data.ended with
  | true =>
    rw [stop, if_pos live]
    exact consistent
  | false =>
    have unended := consistent.once
    simp only [live, Bool.false_and, Bool.false_eq_true, ↓reduceIte] at unended
    simp only [stop, live, false_eq_true, ↓reduceIte, assign, consistent.kept live]
    refine ⟨⟨⟨?_, ?_, unended, rfl, fun _ => rfl⟩, fun _ => rfl, ?_, ?_⟩, ?_⟩
    · exact pairwise_assigned _ consistent.onward consistent.current (fun _ => rfl)
    · exact getLast?_concat
    · exact fun ongoing => Bool.noConfusion ongoing
    · exact fun ongoing => Bool.noConfusion ongoing
    · exact fun ongoing => Bool.noConfusion ongoing

end

theorem deliver_endings (capture : Capture) : capture.deliver.endings = capture.endings := by
  unfold deliver
  split
  · rfl
  · rename_i event rest queue
    simp only [endings, queue, append_assoc, singleton_append]

theorem deliver_consistent (consistent : capture.Consistent) : capture.deliver.Consistent := by
  have endings := deliver_endings capture
  unfold deliver at endings ⊢
  split
  · exact consistent
  · rename_i event rest queue
    simp only [queue] at endings
    exact ⟨⟨⟨consistent.onward, consistent.current, endings.trans consistent.once,
      consistent.listed, consistent.stopped⟩, consistent.finished, consistent.kept,
      consistent.published⟩, consistent.enabled⟩

theorem perform_consistent (consistent : capture.Consistent) (label : Label)
    (timely : capture.Timely label) : (capture.perform label).Consistent := by
  cases label with
  | change change => exact consistent_change consistent change
  | updates pass => exact pass_consistent consistent.toAgreed pass timely
  | ask accepted reply pass => exact ask_consistent consistent accepted reply pass timely
  | setEnabled value pass => exact setEnabled_consistent consistent value pass timely
  | stop => exact stop_consistent consistent
  | deliver => exact deliver_consistent consistent

/-- Once every queued event has been delivered, what has been fired is all there was. -/
theorem delivered_fired (capture : Capture) :
    let after := (List.replicate capture.queued.length Label.deliver).foldl perform capture
    after.fired = capture.fired ++ capture.queued ∧ after.data = capture.data ∧
      after.native = capture.native := by
  induction queue : capture.queued generalizing capture with
  | nil => simp
  | cons event rest ih =>
    simp only [length_cons, replicate_succ, foldl_cons, perform]
    have next : capture.deliver =
        { capture with queued := rest, fired := capture.fired ++ [event] } := by
      simp only [deliver, queue]
    obtain ⟨fired, data, native⟩ := ih capture.deliver (by rw [next])
    rw [fired, data, native, next]
    simp

theorem readings_quiet (native : Status) (published : Option Status) :
    readings native published {} =
      ⟨native, if published = some native then none else some native, native, native⟩ := by
  by_cases same : published = some native
  · simp [readings, same]
  · simp [readings, same]

theorem pass_quiet (consistent : capture.Consistent) :
    (capture.pass {}).data.ended = capture.native.ended ∧
      (capture.native.ended = false → (capture.pass {}).data.muted = capture.native.muted) := by
  cases live : capture.data.ended with
  | true =>
    have finished := consistent.finished live
    have data := (pass_ended consistent.toAgreed live {}).2.1
    constructor
    · rw [data, live, finished]
    · exact fun ongoing => Bool.noConfusion (finished.symm.trans ongoing)
  | false =>
    have data : (capture.pass {}).data = capture.native := by
      rw [(pass_live consistent.toAgreed live {}).2.2.2.2, readings_quiet]
      split <;> rfl
    rw [data]
    exact ⟨rfl, fun _ => rfl⟩

theorem update_stopped (capture : Capture) (descriptor : Option Status) :
    (capture.update descriptor).stopped = capture.stopped := by
  cases descriptor with
  | none => rfl
  | some descriptor =>
    cases listed : capture.listed with
    | false => rw [update_unlisted listed]
    | true =>
      simp only [update, listed, ↓reduceIte]
      split
      · rfl
      split <;> rfl

theorem pass_stopped (capture : Capture) (pass : Pass) :
    (capture.pass pass).stopped = capture.stopped := by
  cases kept : capture.kept with
  | false => rw [pass_let_go kept]
  | true =>
    rw [pass_kept kept]
    exact update_stopped ..

theorem pass_quiet_told (capture : Capture) : capture.Told {} := by
  intro kept
  right
  rw [readings_quiet]
  split <;> rfl

theorem Consistent.faithful (consistent : capture.Consistent) : capture.Faithful := by
  have quiet := pass_quiet consistent
  have told := pass_consistent consistent.toAgreed {} (pass_quiet_told capture)
  obtain ⟨fired, data, _⟩ := delivered_fired (capture.pass {})
  refine ⟨consistent.onward, consistent.current, consistent.once, ?_, ?_, ?_⟩
  · exact (congrArg Status.ended data).trans quiet.1
  · exact fun live => (congrArg Status.muted data).trans (quiet.2 live)
  · apply (congrArg (List.count Event.ended) fired).trans
    rw [← quiet.1, ← pass_stopped capture {}]
    exact told.once

/-- An end that falls between the comparison and what the pass remembers is never told. -/
example :
    let lost := (opened true false).pass { remembered := { preceding := [.finish] } }
    lost.native.ended = true ∧ lost.settled.data.ended = false := by decide

end Capture
end Chuzz.Media
