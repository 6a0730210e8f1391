import Chuzz.Gpu.Quiescence

/-! What becomes of the requests of a bridge, whatever the worker, the start-ups and the passes over
late requests do, and in whatever order. -/
namespace Chuzz.Gpu
open Std Library.Threads Library.Transition List

theorem Moves.fewer {state after : State} {thread moved : Thread}
    (moves : Moves state thread after moved) : after.inFlight.size ≤ state.inFlight.size := by
  cases moves with
  | complete completes =>
    cases completes with
    | take => exact ExtTreeMap.size_erase_le
    | _ => exact le_rfl
  | skip | refuse =>
    unfold State.reject
    split <;> exact le_rfl
  | _ => exact le_rfl

theorem Enters.bounded {before after : Bridge} {request : Request}
    (enters : Enters before request after) (bounded : before.state.inFlight.size ≤ requestLimit) :
    after.state.inFlight.size ≤ requestLimit := by
  cases enters with
  | busy => exact bounded
  | refused | uncaptured =>
    change (before.state.reject request Bridge.limitReached).inFlight.size ≤ requestLimit
    unfold State.reject
    split <;> exact bounded
  | spawn _ room | queue _ room | awaken _ room => exact ExtTreeMap.size_insert_le.trans room

theorem Turns.bounded {before after : Bridge} (turns : Turns before after)
    (bounded : before.state.inFlight.size ≤ requestLimit) :
    after.state.inFlight.size ≤ requestLimit := by
  cases turns with
  | prepare _ enters | submit _ _ enters => exact enters.bounded bounded
  | move _ moves => exact moves.fewer.trans bounded
  | _ => exact bounded

namespace Bridge

/-- What the page, and whoever waits for a slot, gets for a request whose id is its own: a reply, or
for a fire command a reply or a report if it fails and nothing if it succeeds. -/
structure Accounted (bridge : Bridge) (request : Request) : Prop where
  reply : request.deliversReply → request.fireDevice = none →
    bridge.owed request.id + (bridge.state.replies request.id).length = 1
  fire : request.fireDevice.isSome →
    bridge.owed request.id + (bridge.state.replies request.id).length +
        (bridge.state.closings request.id).length = 1 ∧
      (∀ reply ∈ bridge.state.replies request.id, ¬ reply.succeeded) ∧
      ∀ closing ∈ bridge.state.closings request.id, closing = .success ∨ closing = .report
  object : request.id ∈ bridge.state.adapters ∨ request.id ∈ bridge.state.devices →
    0 < bridge.owed request.id ∨ ∃ value, bridge.state.replies request.id = [.ok value]

/-- The slot of a request is finished once, or twice for a capture that was cut off. -/
structure Finished (bridge : Bridge) (request : Request) : Prop where
  finishes : bridge.unfinished request.place + (bridge.state.slots request.place).finishes =
    1 + bridge.state.cutOff.count request.place
  cuts : bridge.state.cutOff.count request.place ≤ 1
  capture : request.place ∈ bridge.state.cutOff → request.body = .capture

variable {bridge : Bridge} {request : Request}

theorem Reached.settled (reached : Reached bridge) (key : Nat) :
    bridge.state.asked key ≤ 1 → bridge.Settled key := by
  have both : bridge.Sound ∧ (bridge.state.asked key ≤ 1 → bridge.Settled key) := by
    refine Reached.invariant
      (P := fun bridge => bridge.Sound ∧ (bridge.state.asked key ≤ 1 → bridge.Settled key)) reached
      ⟨sound_new, fun _ => ⟨by simp [new], by simp [new, State.replies]⟩⟩ ?_
    exact fun before after kept turns => ⟨turns.sound kept.1, turns.settled kept.1 kept.2⟩
  exact both.2

theorem mem_replies {reply : Reply} (member : reply ∈ bridge.state.replies request.id) :
    (request.id, reply) ∈ bridge.state.delivered ++ bridge.state.ready := by
  obtain ⟨⟨id, _⟩, here, rfl⟩ := mem_map.mp member
  obtain ⟨here, same⟩ := mem_filter.mp here
  obtain rfl : id = request.id := of_decide_eq_true same
  exact here

theorem mem_closings {closing : Closing} (member : closing ∈ bridge.state.closings request.id) :
    (request.id, closing) ∈ bridge.state.closed := by
  obtain ⟨⟨id, _⟩, here, rfl⟩ := mem_map.mp member
  obtain ⟨here, same⟩ := mem_filter.mp here
  obtain rfl : id = request.id := of_decide_eq_true same
  exact here

theorem vouched_of_alone {P : Request → Prop} (made : request ∈ bridge.state.issued)
    (alone : bridge.state.asked request.id = 1) (vouched : Vouched bridge.state.issued request.id P) :
    P request := by
  obtain ⟨other, made', same, holds⟩ := vouched
  exact made_unique made rfl made' same alone.le ▸ holds

theorem fire_delivers (fire : request.fireDevice.isSome) : request.deliversReply := by
  unfold Request.fireDevice at fire
  unfold Request.deliversReply
  split at fire <;> simp_all

theorem startup_answered (startup : request.startup) :
    request.deliversReply ∧ request.fireDevice = none := by
  unfold Request.startup at startup
  unfold Request.deliversReply Request.fireDevice
  split at startup <;> simp_all

theorem Reached.accounted (reached : Reached bridge) (made : request ∈ bridge.state.issued)
    (alone : bridge.state.asked request.id = 1) : bridge.Accounted request := by
  have sound := reached.sound
  have tokens := sound.tokens request.id
  rw [tokens_owed, alone] at tokens
  have closes : ∀ closing ∈ bridge.state.closings request.id, closing.Closes request :=
    fun closing member => vouched_of_alone made alone
      (sound.attested.state.closed _ (mem_closings member))
  have answers : ∀ reply ∈ bridge.state.replies request.id, reply.Answers request :=
    fun reply member => vouched_of_alone made alone
      (sound.attested.state.replies _ (mem_replies member))
  have reply : request.deliversReply → request.fireDevice = none →
      bridge.owed request.id + (bridge.state.replies request.id).length = 1 := by
    intro delivers awaited
    have none : bridge.state.closings request.id = [] := by
      rw [eq_nil_iff_forall_not_mem]
      intro closing member
      have closes := closes closing member
      cases closing with
      | capture => exact closes delivers
      | success | report => simp [Closing.Closes, awaited] at closes
    rwa [none] at tokens
  refine ⟨reply, fun fire => ⟨tokens, fun reply member succeeded => ?_, fun closing member => ?_⟩,
    fun held => ?_⟩
  · rw [(answers reply member).2 succeeded] at fire
    contradiction
  · have closes := closes closing member
    cases closing with
    | capture => exact absurd (fire_delivers fire) closes
    | success => exact .inl rfl
    | report => exact .inr rfl
  · have startup := vouched_of_alone made alone (sound.attested.state.objects _ held)
    have settled := (reached.settled _ alone.le).replies
    have one := reply (startup_answered startup).1 (startup_answered startup).2
    rcases Nat.eq_zero_or_pos (bridge.owed request.id) with paid | owed
    · right
      rw [paid, Nat.zero_add] at one
      obtain ⟨reply, only⟩ := length_eq_one_iff.mp one
      rcases settled reply (only ▸ .head _) with succeeded | barren
      · cases reply with
        | ok value => exact ⟨value, only⟩
        | error => contradiction
      · have none := barren.held
        have some := State.held_iff.mpr held
        omega
    · exact .inl owed

theorem placed_unique {other : Request} (attested : bridge.state.Attested)
    (made : request ∈ bridge.state.issued) (made' : other ∈ bridge.state.issued)
    (same : other.place = request.place) : other = request := by
  obtain ⟨i, at_i⟩ := mem_iff_getElem?.mp made
  obtain ⟨j, at_j⟩ := mem_iff_getElem?.mp made'
  have places := attested.places i request at_i
  have places' := attested.places j other at_j
  obtain rfl : j = i := by omega
  exact Option.some.inj (at_j.symm.trans at_i)

theorem slotsAsked_of_made (attested : bridge.state.Attested) (made : request ∈ bridge.state.issued)
    (direct : request.direct) : bridge.state.slotsAsked request.place = 1 := by
  have places : bridge.state.issued.map Request.place = List.range bridge.state.issued.length := by
    refine ext_getElem (by simp) fun place inside _ => ?_
    rw [getElem_map, getElem_range]
    exact attested.places place _ (getElem?_eq_getElem _)
  have most : bridge.state.slotsAsked request.place ≤
      (bridge.state.issued.map Request.place).count request.place := by
    rw [count_eq_countP, countP_map]
    refine countP_mono_left fun other _ slot => ?_
    simpa using (Bool.and_eq_true_iff.mp slot).2
  have once := nodup_iff_count_le_one.mp (nodup_range (n := bridge.state.issued.length))
    request.place
  have some : 0 < bridge.state.slotsAsked request.place :=
    countP_pos_iff.mpr ⟨request, made, by simp [Request.hasSlot, direct]⟩
  rw [places] at most
  omega

theorem Reached.finished (reached : Reached bridge) (made : request ∈ bridge.state.issued)
    (direct : request.direct) : bridge.Finished request := by
  have sound := reached.sound
  obtain ⟨finishes, cuts⟩ := sound.slots request.place
  rw [slotsAsked_of_made sound.attested.state made direct] at finishes cuts
  refine ⟨finishes, (Nat.le_add_left _ _).trans cuts, fun cut => ?_⟩
  obtain ⟨other, made', same, capture⟩ := sound.attested.state.cutOff _ cut
  exact placed_unique sound.attested.state made made' same ▸ capture

theorem Quiet.owed (quiet : bridge.Quiet) (key : Nat) : bridge.owed key = 0 := by
  have none : total (Thread.owes key) bridge.threads = 0 :=
    total_eq_zero fun thread member => quiet.threads thread member ▸ rfl
  simp [Bridge.owed, quiet.incoming, State.flying, quiet.inFlight key, none]

theorem Quiet.unfinished (quiet : bridge.Quiet) (place : Nat) : bridge.unfinished place = 0 := by
  have none : total (Thread.unfinished place) bridge.threads = 0 :=
    total_eq_zero fun thread member => quiet.threads thread member ▸ rfl
  simp [Bridge.unfinished, State.queued, quiet.incoming, quiet.requests, none]

/-- Whatever happens, what is in flight is bounded, every request with an id of its own is accounted
for, every slot is finished, and nothing has to wait for ever. -/
theorem completed (reached : Reached bridge) :
    bridge.state.inFlight.size ≤ requestLimit ∧
      (∀ request ∈ bridge.state.issued, bridge.state.asked request.id = 1 →
        bridge.Accounted request) ∧
      (∀ request ∈ bridge.state.issued, request.direct → bridge.Finished request) ∧
      ∃ after, Continues bridge after ∧ (∀ key, after.owed key = 0) ∧
        ∀ place, after.unfinished place = 0 := by
  refine ⟨reached.invariant (Nat.zero_le _) fun _ _ bounded turns => turns.bounded bounded,
    fun _ made alone => reached.accounted made alone,
    fun _ made direct => reached.finished made direct, ?_⟩
  obtain ⟨after, continues, quiet⟩ := settles reached
  exact ⟨after, continues, quiet.owed, quiet.unfinished⟩

/-- A capture is cut off; its caller takes what the guard has left and the worker finishes the slot
again. -/
def captured : Bridge :=
  [.submit 1 .capture, .advance 0 .proceed, .advance 0 .proceed, .advance 0 (.cut {}), .take 0,
    .advance 0 .proceed].foldl perform new

theorem completed_captured :
    captured.state.inFlight.size ≤ requestLimit ∧
      (∀ request ∈ captured.state.issued, captured.state.asked request.id = 1 →
        captured.Accounted request) ∧
      (∀ request ∈ captured.state.issued, request.direct → captured.Finished request) ∧
      ∃ after, Continues captured after ∧ (∀ key, after.owed key = 0) ∧
        ∀ place, after.unfinished place = 0 :=
  completed (Reachable.run _ (.start rfl))

/-- An adapter is there just before its deadline. The answer of its start-up comes just after. -/
def adapted : Bridge :=
  [.handle 1 (.adapter none) none, .prepare false, .advance 0 .proceed, .advance 0 .proceed,
    .elapse 999, .advance 0 .insert, .elapse 1, .advance 0 .proceed].foldl perform new

/-- A slot can be finished twice, and an object can outlive its flight for a moment. -/
theorem capture_finished_twice :
    (¬ ∀ bridge, Reached bridge → ∀ request ∈ bridge.state.issued, request.direct →
      bridge.unfinished request.place = 0 → (bridge.state.slots request.place).finishes = 1) ∧
    ¬ ∀ bridge, Reached bridge → ∀ request ∈ bridge.state.issued,
      bridge.state.asked request.id = 1 → request.id ∈ bridge.state.adapters →
        request.id ∉ bridge.state.inFlight →
          ∃ value, bridge.state.replies request.id = [.ok value] := by
  constructor
  · intro claim
    have reached : Reached captured := Reachable.run _ (.start rfl)
    have once := claim captured reached ⟨0, 1, .capture⟩ (.head _) rfl (by decide)
    exact absurd once (by decide)
  · intro claim
    have reached : Reached adapted := Reachable.run _ (.start rfl)
    obtain ⟨value, answered⟩ := claim adapted reached ⟨0, 1, .adapter none⟩ (.head _)
      (by decide) (by decide) (by decide)
    have none : adapted.state.replies 1 = [] := by decide
    contradiction

end Bridge
end Chuzz.Gpu
