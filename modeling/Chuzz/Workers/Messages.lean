import Chuzz.Workers.Page

/-! What every run of a page and its workers keeps: the order of the messages, the end of
a worker that was terminated, and the notice of a worker that has ended. -/
namespace Chuzz.Workers
open Library.Transition
variable {W : Type} {page after : Page W} {id : Nat}

namespace Page

structure Sound (page : Page W) : Prop where
  numbered : 0 < page.nextId
  linked : ∀ id, page.Linked id
  plain : ∀ id output, page.decoding = some (id, output) → output ≠ .closed

/-- What a step can do to one worker's history. -/
inductive Fate (before after : Page W) (id : Nat) : Prop where
  | kept (delivered : (after.endpoints id).delivered = (before.endpoints id).delivered)
      (terminated : (after.endpoints id).terminated = (before.endpoints id).terminated)
  | terminated (delivered : (after.endpoints id).delivered = (before.endpoints id).delivered)
      (returned : (after.endpoints id).terminated = true)
  | delivered (output : Output W) (plain : output ≠ .closed) (listed : id ∈ before.shim)
      (more : (after.endpoints id).delivered = (before.endpoints id).delivered ++ [output])
  | closed (native : before.native = .idle) (last : .closed ∈ before.queue id)
      (running : (before.endpoints id).canceled = false) (gone : id ∉ after.workers)
      (more : (after.endpoints id).delivered = (before.endpoints id).delivered ++ [.closed])

theorem Fate.frame (same : after.endpoints id = page.endpoints id) : Fate page after id :=
  .kept (by rw [same]) (by rw [same])

variable {other : Nat}

theorem Fate.modify (id : Nat) (change : Endpoint W → Endpoint W)
    (ends : after.endpoints = (page.modify id change).endpoints)
    (delivered : (change (page.endpoints id)).delivered = (page.endpoints id).delivered)
    (terminated : (change (page.endpoints id)).terminated = (page.endpoints id).terminated) :
    Fate page after other := by
  have endpoint := congrFun ends other
  by_cases same : other = id
  · subst same
    rw [modify_self] at endpoint
    exact .kept (by rw [endpoint, delivered]) (by rw [endpoint, terminated])
  · rw [modify_other same] at endpoint
    exact .frame endpoint

theorem act_fate (page : Page W) (act : Act W) (other : Nat) :
    Fate page (page.act id act) other := by
  have history := Endpoint.act_history (page.endpoints id) act
  simp only [Endpoint.history, Prod.mk.injEq] at history
  exact .modify id (·.act act) rfl history.2.2.1 history.2.2.2

theorem create_fate (page : Page W) (known : page.Known id) : Fate page page.create id :=
  .frame (Function.update_of_ne (Nat.ne_of_lt known.2) ..)

theorem returned_fate (page : Page W) (id other : Nat) : Fate page (page.returned id) other := by
  by_cases same : other = id
  · subst same
    have endpoint := modify_self page other ({ · with terminated := true })
    exact .terminated (congrArg (·.delivered) endpoint) (congrArg (·.terminated) endpoint)
  · exact .frame (modify_other same ({ · with terminated := true }))

theorem terminate_fate (page : Page W) (id other : Nat) : Fate page (page.terminate id) other := by
  rw [Page.terminate]
  split
  · exact .frame rfl
  · exact returned_fate page id other

theorem resume_fate (page : Page W) (other : Nat) : Fate page page.resume other := by
  unfold Page.resume
  split
  · exact .frame rfl
  · rename_i id wire _
    exact .modify id (fun endpoint => { endpoint with
      inbox := endpoint.inbox ++ [.message wire], sent := endpoint.sent ++ [wire] }) rfl rfl rfl
  · rename_i id _
    exact .modify id ({ · with canceled := true }) rfl rfl rfl
  · rename_i id _
    by_cases same : other = id
    · subst same
      have cleared : (page.clear other).endpoints other = { page.endpoints other with inbox := [] } :=
        modify_self page other ({ · with inbox := [] })
      have endpoint := modify_self (page.clear other) other ({ · with terminated := true })
      rw [cleared] at endpoint
      exact .terminated (congrArg (·.delivered) endpoint) (congrArg (·.terminated) endpoint)
    · exact .frame ((modify_other same ({ · with terminated := true })).trans
        (modify_other same ({ · with inbox := [] })))

theorem next_fate (native : page.native = .idle) (other : Nat) : Fate page page.next other := by
  unfold Page.next
  split
  · rename_i id output batch decoding head
    split
    · exact .frame rfl
    · rename_i running
      split
      · by_cases same : other = id
        · subst same
          have endpoint := modify_self page other fun endpoint => { endpoint with
            delivered := endpoint.delivered ++ [.closed] }
          apply Fate.closed native
          · simp [queue, inFlight, decoding, head]
          · simpa using running
          · simp [Page.close, Page.deliver, Page.remove, Page.modify]
          · exact congrArg (·.delivered) endpoint
        · exact .frame (modify_other same fun endpoint => { endpoint with
            delivered := endpoint.delivered ++ [.closed] })
      · exact .frame rfl
  · exact .frame rfl

theorem decoded_fate (plain : ∀ id output, page.decoding = some (id, output) → output ≠ .closed)
    (other : Nat) : Fate page page.decoded other := by
  unfold Page.decoded
  split
  · rename_i id output decoding
    dsimp only
    split
    · rename_i listed
      by_cases same : other = id
      · subst same
        have endpoint := modify_self page other fun endpoint => { endpoint with
          delivered := endpoint.delivered ++ [output] }
        exact .delivered output (plain other output decoding) listed
          (congrArg (·.delivered) endpoint)
      · exact .frame (modify_other same fun endpoint => { endpoint with
          delivered := endpoint.delivered ++ [output] })
    · exact .frame rfl
  · exact .frame rfl

theorem Linked.post (linked : page.Linked other) (id : Nat) (wire : W) :
    (page.post id wire).Linked other := by
  rw [Page.post]
  split
  · exact linked.frame ⟨rfl, rfl, rfl, .rfl, .rfl, .rfl⟩ rfl rfl
  · exact linked

theorem Linked.terminate (linked : ∀ id, page.Linked id)
    (idle : page.native = .idle) (known : page.Known id) : (page.terminate id).Linked other := by
  rw [Page.terminate]
  split
  · rename_i listed
    exact (linked other).takeOut idle listed
  · rename_i gone
    apply (linked other).returned (.inl idle)
    rintro -
    rcases (linked id).gone known gone with canceled | closed | removed
    · exact .inl canceled
    · exact .inr closed
    · rw [idle] at removed
      contradiction

theorem next_plain (plain : ∀ id output, page.decoding = some (id, output) → output ≠ .closed) :
    ∀ id output, page.next.decoding = some (id, output) → output ≠ .closed := by
  unfold Page.next
  split
  · rename_i decoding _
    split
    · exact plain
    · split
      · exact plain
      · rename_i open_
        intro id output here
        obtain ⟨rfl, rfl⟩ := Prod.mk.inj (Option.some.inj here)
        exact open_
  · exact plain

/-- A step that runs no native code to its end leaves what is being decoded, and the
numbers of the workers. -/
theorem Sound.rest (sound : page.Sound) (linked : ∀ id, after.Linked id)
    (numbers : after.nextId = page.nextId) (decoding : after.decoding = page.decoding) :
    after.Sound :=
  ⟨numbers ▸ sound.numbered, linked, decoding ▸ sound.plain⟩

theorem Sound.resume (sound : page.Sound) : page.resume.Sound := by
  apply sound.rest fun _ => Linked.resume sound.linked
  · unfold Page.resume
    split <;> rfl
  · unfold Page.resume
    split <;> rfl

theorem Sound.next (sound : page.Sound) (idle : page.native = .idle) : page.next.Sound := by
  refine ⟨?_, fun id => (sound.linked id).next idle, next_plain sound.plain⟩
  have numbers : page.next.nextId = page.nextId := by
    unfold Page.next
    split
    · split
      · rfl
      · split <;> rfl
    · rfl
  exact numbers ▸ sound.numbered

theorem Sound.decoded (sound : page.Sound) : page.decoded.Sound := by
  refine ⟨?_, fun _ => Linked.decoded sound.linked sound.plain, ?_⟩
  · unfold Page.decoded
    split
    · dsimp only
      split <;> exact sound.numbered
    · exact sound.numbered
  · unfold Page.decoded
    split
    · dsimp only
      split <;> exact fun _ _ here => by cases here
    · exact sound.plain

section
variable [DecidableEq W]

theorem Linked.encoded {other : Nat} (linked : page.Linked other) (idle : page.native = .idle)
    (call : Nat × W) : (page.encoded call).Linked other := by
  rw [Page.encoded]
  split
  · have beside : Beside page { page with
        encoding := page.encoding.erase call
        native := if (page.endpoints call.1).stopped || (page.endpoints call.1).closing then .idle
          else .posting call.1 call.2 } other := by
      refine ⟨rfl, rfl, rfl, .rfl, ?_, ?_⟩
      all_goals
        rw [idle]
        split <;> simp
    exact linked.frame beside rfl rfl
  · exact linked

theorem fetched_linked {other : Nat} (linked : page.Linked other) (id : Nat) :
    (page.perform (.fetched id)).Linked other := by
  apply linked.modify (fun endpoint => { endpoint with inbox := endpoint.inbox ++ [.fetch] })
    rfl rfl _ rfl ⟨rfl, rfl, rfl, .rfl, .rfl, .rfl⟩
  intro orderly
  have received := orderly.receive .fetch
  rwa [show Endpoint.wires [Input.fetch] = ([] : List W) from rfl, List.append_nil] at received

theorem Sound.perform (sound : page.Sound) (step : Step W) : (page.perform step).Sound := by
  cases step with
  | act id act =>
    rw [Page.perform]
    split
    · rename_i known
      exact sound.rest (fun other => (sound.linked other).act known act) rfl rfl
    · exact sound
  | fetched id => exact sound.rest (fun other => fetched_linked (sound.linked other) id) rfl rfl
  | resume => exact sound.resume
  | create =>
    rw [Page.perform]
    split
    · rename_i idle
      exact ⟨Nat.succ_pos _, fun id => (sound.linked id).create idle sound.numbered, sound.plain⟩
    · exact sound
  | post id wire =>
    rw [Page.perform]
    split
    · apply sound.rest fun other => (sound.linked other).post id wire
      · simp only [Page.post]
        split <;> rfl
      · simp only [Page.post]
        split <;> rfl
    · exact sound
  | encoded call =>
    rw [Page.perform]
    split
    · rename_i idle
      apply sound.rest fun other => (sound.linked other).encoded idle call
      · simp only [Page.encoded]
        split <;> rfl
      · simp only [Page.encoded]
        split <;> rfl
    · exact sound
  | terminate id =>
    rw [Page.perform]
    split
    · rename_i idle
      split
      · rename_i known
        apply sound.rest fun _ => Linked.terminate sound.linked idle known
        · simp only [Page.terminate]
          split <;> rfl
        · simp only [Page.terminate]
          split <;> rfl
      · exact sound
    · exact sound
  | poll =>
    rw [Page.perform]
    split
    · apply sound.rest fun other => (sound.linked other).poll
      · simp only [Page.poll]
        split <;> rfl
      · simp only [Page.poll]
        split <;> rfl
    · exact sound
  | next =>
    rw [Page.perform]
    split
    · exact sound.next ‹_›
    · exact sound
  | decoded =>
    rw [show page.perform .decoded = if page.native = .idle then page.decoded else page from rfl]
    split
    · exact sound.decoded
    · exact sound

omit [DecidableEq W] in
theorem start_sound : ({} : Page W).Sound :=
  ⟨Nat.one_pos, start_linked, fun _ _ here => by cases here⟩

theorem reached_sound (run : page.Reached) : page.Sound := by
  apply Reachable.invariant _ _ run
  · rintro _ rfl
    exact start_sound
  · rintro before step _ _ sound rfl
    exact sound.perform step

theorem Sound.fate (sound : page.Sound) (known : page.Known id) (step : Step W) :
    Fate page (page.perform step) id := by
  -- a call that comes while native code is running is left for later
  have later : Fate page page id := .frame rfl
  cases step with
  | act number act =>
    rw [Page.perform]
    split
    · exact act_fate page act id
    · exact later
  | fetched number =>
    exact .modify number (fun endpoint => { endpoint with
      inbox := endpoint.inbox ++ [.fetch] }) rfl rfl rfl
  | resume => exact resume_fate page id
  | create =>
    rw [Page.perform]
    split
    · exact create_fate page known
    · exact later
  | post number wire =>
    rw [Page.perform]
    split
    · apply Fate.frame
      rw [Page.post]
      split <;> rfl
    · exact later
  | encoded call =>
    rw [Page.perform]
    split
    · apply Fate.frame
      rw [Page.encoded]
      split <;> rfl
    · exact later
  | terminate number =>
    rw [Page.perform]
    split
    · split
      · exact terminate_fate page number id
      · exact later
    · exact later
  | poll =>
    rw [Page.perform]
    split
    · apply Fate.frame
      rw [Page.poll]
      split <;> rfl
    · exact later
  | next =>
    rw [Page.perform]
    split
    · exact next_fate ‹_› id
    · exact later
  | decoded =>
    rw [show page.perform .decoded = if page.native = .idle then page.decoded else page from rfl]
    split
    · exact decoded_fate sound.plain id
    · exact later

theorem perform_numbers (page : Page W) (step : Step W) :
    page.nextId ≤ (page.perform step).nextId := by
  cases step with
  | act id act =>
    simp only [Page.perform]
    split <;> exact Nat.le_refl _
  | fetched id => exact Nat.le_refl _
  | resume =>
    simp only [Page.perform, Page.resume]
    split <;> exact Nat.le_refl _
  | _ =>
    simp only [Page.perform]
    split
    · simp only [Page.create, Page.post, Page.encoded, Page.terminate, Page.poll, Page.next,
        Page.decoded]
      repeat' split
      all_goals first | exact Nat.le_refl _ | exact Nat.le_succ _
    · exact Nat.le_refl _

theorem perform_known (known : page.Known id) (step : Step W) : (page.perform step).Known id :=
  ⟨known.1, Nat.lt_of_lt_of_le known.2 (page.perform_numbers step)⟩

theorem Sound.silent (sound : page.Sound) (known : page.Known id)
    (terminated : (page.endpoints id).terminated = true) (step : Step W) :
    ((page.perform step).endpoints id).terminated = true ∧
      ((page.perform step).endpoints id).delivered = (page.endpoints id).delivered := by
  have linked := sound.linked id
  have forgotten := linked.terminated terminated
  cases sound.fate known step with
  | kept delivered same => exact ⟨same.trans terminated, delivered⟩
  | terminated delivered returned => exact ⟨returned, delivered⟩
  | delivered output plain listed more => exact absurd listed forgotten
  | closed native last running gone more =>
    rcases linked.forgotten known forgotten with canceled | closed
    · rw [running] at canceled
      contradiction
    · rw [linked.drained closed] at last
      contradiction

theorem Sound.quiet (sound : page.Sound) (known : page.Known id)
    (terminated : (page.endpoints id).terminated = true) (steps : List (Step W)) :
    ((steps.foldl Page.perform page).endpoints id).delivered = (page.endpoints id).delivered := by
  induction steps generalizing page with
  | nil => rfl
  | cons step rest ih =>
    obtain ⟨still, same⟩ := sound.silent known terminated step
    exact (ih (sound.perform step) (perform_known known step) still).trans same

/-- The step that delivers the last output finds the worker's entry and removes it. -/
theorem Sound.closing (sound : page.Sound) (known : page.Known id) (step : Step W)
    (open_ : .closed ∉ (page.endpoints id).delivered)
    (closed : .closed ∈ ((page.perform step).endpoints id).delivered) :
    id ∈ page.workers ∧ id ∉ (page.perform step).workers := by
  cases sound.fate known step with
  | kept delivered same => exact absurd (delivered ▸ closed) open_
  | terminated delivered returned => exact absurd (delivered ▸ closed) open_
  | delivered output plain listed more =>
    rw [more, List.mem_append, List.mem_singleton] at closed
    rcases closed with earlier | here
    · exact absurd earlier open_
    · exact absurd here.symm plain
  | closed native last running gone more =>
    refine ⟨?_, gone⟩
    by_contra outside
    rcases (sound.linked id).gone known outside with canceled | earlier | removed
    · rw [running] at canceled
      contradiction
    · exact open_ earlier
    · rw [native] at removed
      contradiction

end

end Page

open Page in
/-- Messages reach a worker, and its outputs the page, at most once and in the order they
were posted in. Once a call of `terminate` has returned nothing more is delivered. The
notice of the worker's end comes after all else that it posted, and the step that delivers
it takes the worker out of the table, which happens to no worker twice. -/
theorem reached_messages [DecidableEq W] (reached : page.Reached) (known : page.Known id) :
    (page.endpoints id).dispatched.Sublist (page.endpoints id).sent ∧
    (page.endpoints id).delivered.Sublist (page.endpoints id).posted ∧
    ((page.endpoints id).terminated = true → ∀ steps : List (Step W),
      ((steps.foldl Page.perform page).endpoints id).delivered = (page.endpoints id).delivered) ∧
    (.closed ∈ (page.endpoints id).delivered →
      (page.endpoints id).delivered = (page.endpoints id).posted ∧
      (∃ others, (page.endpoints id).delivered = others ++ [.closed] ∧ .closed ∉ others) ∧
      id ∉ page.workers ∧ page.removals.count id = 1) ∧
    page.removals.count id ≤ 1 ∧
    ∀ step, .closed ∉ (page.endpoints id).delivered →
      .closed ∈ ((page.perform step).endpoints id).delivered →
      id ∈ page.workers ∧ id ∉ (page.perform step).workers := by
  have sound := reached_sound reached
  have linked := sound.linked id
  have counted := linked.counted known
  refine ⟨?_, ?_, sound.quiet known, ?_, by omega, sound.closing known⟩
  · exact (List.sublist_append_left _ _).trans linked.orderly.inward
  · exact (List.sublist_append_left _ _).trans linked.flow
  · intro closed
    obtain ⟨running, gone, _⟩ := linked.closed closed
    have whole := linked.whole running
    rw [linked.drained closed, List.append_nil] at whole
    obtain ⟨_, _, others, last, fresh⟩ := linked.orderly.ended (whole ▸ closed)
    have none := List.count_eq_zero.mpr gone
    exact ⟨whole, ⟨others, whole.trans last, fresh⟩, gone, by omega⟩

/-- A module worker that is sent a message while it starts, answers it and ends. -/
def sampleSteps : List (Step Nat) :=
  [.create, .act 1 .start, .act 1 (.evaluated true false), .post 1 7, .encoded (1, 7), .resume,
    .act 1 .loop, .act 1 (.settle .pending), .act 1 .recv, .act 1 .handle, .act 1 .pass,
    .act 1 .returned, .act 1 .loop, .act 1 (.settle .fulfilled), .act 1 (.post 8), .act 1 .push,
    .act 1 .close, .act 1 .returned, .act 1 .loop, .act 1 .finish, .act 1 .clear, .act 1 .notify,
    .act 1 .push, .poll, .next, .decoded, .next]

theorem reached_messages_closed :
    ((sampleSteps.foldl Page.perform {}).endpoints 1).dispatched = [7] ∧
    ((sampleSteps.foldl Page.perform {}).endpoints 1).delivered = [.message 8, .closed] ∧
    (sampleSteps.foldl Page.perform {}).removals.count 1 = 1 := by
  have reached : (sampleSteps.foldl Page.perform {}).Reached := Reachable.run sampleSteps (.start rfl)
  have known : (sampleSteps.foldl Page.perform {}).Known 1 := by decide
  have messages := reached_messages reached known
  exact ⟨by decide, by decide, (messages.2.2.2.1 (by decide)).2.2.2⟩

end Chuzz.Workers
