import Chuzz.Library.Transition
import Chuzz.Webrtc.Turns

/-! The lookahead of a receiver over its whole life: packets in order, a limit to their number, and
which of them has to go when there is no room for another one. -/
namespace Chuzz.Webrtc
open Library.Transition List

/-- What is done with a receiver. -/
inductive ReceiverEvent where
  | enqueue (timestamp : ℕ) (bytes : List UInt8)
  | render (epoch now : ℕ) (opened : Except String Unit) (answers : ℕ → Answer)

namespace Receiver

def timestamps (receiver : Receiver) : List ℕ := receiver.packets.map (·.timestamp)

/-- The packets are in order, each timestamp once, and within the limit. -/
structure Ordered (packets : List Packet) : Prop where
  sorted : packets.Pairwise fun earlier later => earlier.timestamp < later.timestamp
  limited : packets.length ≤ packetLimit

theorem Ordered.sublist {packets fewer : List Packet} (ordered : Ordered packets)
    (sublist : fewer.Sublist packets) : Ordered fewer where
  sorted := ordered.sorted.sublist sublist
  limited := le_trans sublist.length_le ordered.limited

theorem behind {packets rest : List Packet} {packet : Packet} {before : Packet → Bool}
    (first : packets.dropWhile before = packet :: rest) : rest.Sublist packets :=
  (sublist_cons_self packet rest).trans (first ▸ (dropWhile_suffix _).sublist)

/-- The packet among the others, behind those that are not later. -/
def placed (packets : List Packet) (packet : Packet) : List Packet :=
  packets.takeWhile (·.timestamp ≤ packet.timestamp) ++
    packet :: packets.dropWhile (·.timestamp ≤ packet.timestamp)

theorem placed_perm (packets : List Packet) (packet : Packet) :
    (placed packets packet).Perm (packet :: packets) := by
  have whole := takeWhile_append_dropWhile (p := (·.timestamp ≤ packet.timestamp)) (l := packets)
  refine perm_middle.trans (.cons _ ?_)
  rw [whole]

theorem placed_sorted {packets : List Packet} {packet : Packet}
    (sorted : packets.Pairwise fun earlier later => earlier.timestamp < later.timestamp)
    (new : ∀ other ∈ packets, other.timestamp ≠ packet.timestamp) :
    (placed packets packet).Pairwise fun earlier later => earlier.timestamp < later.timestamp := by
  induction packets with
  | nil => exact pairwise_singleton _ _
  | cons first rest ih =>
    obtain ⟨before, sorted⟩ := pairwise_cons.mp sorted
    obtain ⟨other, new⟩ := forall_mem_cons.mp new
    unfold placed
    by_cases earlier : first.timestamp ≤ packet.timestamp
    · rw [takeWhile_cons_of_pos (by simpa using earlier),
        dropWhile_cons_of_pos (by simpa using earlier)]
      refine pairwise_cons.mpr ⟨fun later member => ?_, ih sorted new⟩
      rcases mem_cons.mp ((placed_perm rest packet).mem_iff.mp member) with rfl | held
      · exact lt_of_le_of_ne earlier other
      · exact before later held
    · rw [takeWhile_cons_of_neg (by simpa using earlier),
        dropWhile_cons_of_neg (by simpa using earlier)]
      have ahead : packet.timestamp < first.timestamp := Nat.lt_of_not_le earlier
      refine pairwise_cons.mpr ⟨forall_mem_cons.mpr ⟨ahead, fun later held => ?_⟩,
        pairwise_cons.mpr ⟨before, sorted⟩⟩
      exact ahead.trans (before later held)

/-- A packet that comes too late, or at a timestamp that is there already. -/
def Passed (receiver : Receiver) (timestamp : ℕ) : Prop :=
  receiver.expected.any (timestamp < ·) = true ∨
    receiver.packets.any (·.timestamp = timestamp) = true

/-- The packets that stay when another one is stored. -/
def kept (receiver : Receiver) : List Packet :=
  if receiver.packets.length = packetLimit then receiver.packets.drop 1 else receiver.packets

theorem kept_sublist (receiver : Receiver) : receiver.kept.Sublist receiver.packets := by
  unfold kept
  split
  · exact drop_sublist _ _
  · exact .refl _

instance (receiver : Receiver) (timestamp : ℕ) : Decidable (receiver.Passed timestamp) :=
  inferInstanceAs (Decidable (_ ∨ _))

/-- The packet that a call stores. -/
def stored (receiver : Receiver) (timestamp : ℕ) (bytes : List UInt8) : Option Packet :=
  match sized : packetFrames bytes with
  | .error _ => none
  | .ok frames =>
    if receiver.Passed timestamp then none else some ⟨timestamp, frames, bytes, sized⟩

variable {timestamp : ℕ} {bytes : List UInt8} {receiver after : Receiver}

theorem enqueue_cases (taken : receiver.enqueue timestamp bytes = .ok after) :
    (receiver.Passed timestamp ∧ receiver.stored timestamp bytes = none ∧ after = receiver) ∨
      ¬ receiver.Passed timestamp ∧ ∃ packet, receiver.stored timestamp bytes = some packet ∧
        packet.timestamp = timestamp ∧
          after = { receiver with packets := placed receiver.kept packet } := by
  unfold enqueue at taken
  split at taken
  · cases taken
  · rename_i frames sized
    have found : receiver.stored timestamp bytes =
        if receiver.Passed timestamp then none else some ⟨timestamp, frames, bytes, sized⟩ := by
      unfold stored
      split
      · rename_i failed
        rw [sized] at failed
        cases failed
      · rename_i other same
        cases sized.symm.trans same
        rfl
    split at taken
    · rename_i passed
      cases taken
      exact .inl ⟨passed, found.trans (if_pos passed), rfl⟩
    · rename_i passed
      cases taken
      exact .inr ⟨passed, _, found.trans (if_neg passed), rfl, rfl⟩

theorem stored_error {receiver : Receiver} {error : String}
    (refused : receiver.enqueue timestamp bytes = .error error) :
    receiver.stored timestamp bytes = none := by
  unfold enqueue at refused
  unfold stored
  split
  · rfl
  · rename_i frames sized
    split at refused
    · rename_i failed
      rw [sized] at failed
      cases failed
    · split at refused <;> cases refused

theorem Ordered.enqueue
    (ordered : Ordered receiver.packets) (taken : receiver.enqueue timestamp bytes = .ok after) :
    Ordered after.packets := by
  rcases enqueue_cases taken with ⟨-, -, rfl⟩ | ⟨fresh, packet, -, rfl, rfl⟩
  · exact ordered
  · have fewer := receiver.kept_sublist
    refine ⟨placed_sorted (ordered.sorted.sublist fewer) fun other member same => ?_, ?_⟩
    · refine fresh (.inr (any_eq_true.mpr ⟨other, fewer.subset member, ?_⟩))
      exact decide_eq_true same
    · have limited := ordered.limited
      have room : receiver.kept.length < packetLimit := by
        unfold kept
        split
        · rw [length_drop]
          have : 0 < packetLimit := by decide
          omega
        · omega
      rw [(placed_perm _ _).length_eq, length_cons]
      exact room

section Life
variable {σ : Type} (emit : σ → Decoded → σ × Option Fault)

theorem ordered_kept : Kept fun receiver _ => Ordered receiver.packets where
  trimmed ordered fewer := ordered.sublist fewer.sublist
  ended ordered := ordered
  ready _ ordered first _ _ _ := ordered.sublist (behind first)
  missing ordered _ _ _ _ := ordered

theorem Ordered.render {receiver : Receiver} (ordered : Ordered receiver.packets)
    (epoch now : ℕ) (opened : Except String Unit) (answers : ℕ → Answer) (state : σ) :
    Ordered (receiver.render emit epoch now opened answers state).1.packets := by
  unfold Receiver.render
  generalize turnLimit = n
  have run (first : Receiver) (ordered : Ordered first.packets) :
      Ordered (turns emit now answers n first state).1.packets :=
    @Kept.turns _ emit _ ordered_kept now answers n first [] ordered state
  split
  · exact run receiver ordered
  · exact ordered
  · split
    · exact ordered
    · exact run _ ordered

/-- A receiver and the state of what takes its blocks, after an event. -/
def perform (life : Receiver × σ) : ReceiverEvent → Receiver × σ
  | .enqueue timestamp bytes =>
    match life.1.enqueue timestamp bytes with
    | .ok receiver => (receiver, life.2)
    | .error _ => life
  | .render epoch now opened answers =>
    let (receiver, state, _) := life.1.render emit epoch now opened answers life.2
    (receiver, state)

/-- `Receiver::new` -/
def New (life : Receiver × σ) : Prop := ∃ position fec, life.1 = { position, fec }

abbrev Reached (life : Receiver × σ) : Prop :=
  Reachable New (fun before event after => perform emit before event = after) life

theorem Reached.ordered {life : Receiver × σ} (reached : Reached emit life) :
    Ordered life.1.packets := by
  change (fun life : Receiver × σ => Ordered life.1.packets) life
  apply Reachable.invariant _ _ reached
  · rintro ⟨_, _⟩ ⟨position, fec, rfl⟩
    exact ⟨List.Pairwise.nil, Nat.zero_le _⟩
  · rintro before event after - ordered rfl
    cases event with
    | enqueue timestamp bytes =>
      cases taken : before.1.enqueue timestamp bytes with
      | error error => simpa only [perform, taken] using ordered
      | ok receiver => simpa only [perform, taken] using ordered.enqueue taken
    | render epoch now opened answers => exact ordered.render emit epoch now opened answers _

end Life

/-- A packet that is stored into a full buffer, or passed over. -/
structure Call where
  before : Receiver
  timestamp : ℕ
  after : Receiver

namespace Call

/-- Of the stored packets and the new one, what is gone was older than all that stay. -/
def DropsOldest (call : Call) : Prop :=
  ∀ gone ∈ call.timestamp :: call.before.timestamps, gone ∉ call.after.timestamps →
    ∀ stays ∈ call.after.timestamps, gone < stays

/-- A new packet is too late exactly if it is older than all that are stored. -/
def Fair (call : Call) : Prop :=
  call.timestamp ∈ call.before.timestamps ∨
    (call.before.expected.any (call.timestamp < ·) = true ↔
      ∀ stored ∈ call.before.timestamps, call.timestamp < stored)

instance (call : Call) : Decidable call.Fair := inferInstanceAs (Decidable (_ ∨ _))

instance (call : Call) : Decidable call.DropsOldest :=
  inferInstanceAs (Decidable (∀ gone ∈ _, _ → _))

/-- The call was accepted and found the buffer full. -/
structure Made (call : Call) : Prop where
  full : call.before.packets.length = packetLimit
  taken : ∃ bytes, call.before.enqueue call.timestamp bytes = .ok call.after

end Call

theorem mem_timestamps {receiver : Receiver} :
    receiver.packets.any (·.timestamp = timestamp) = true ↔ timestamp ∈ receiver.timestamps := by
  simp [timestamps]

/-- Where the first packet makes room, it is the oldest unless the new one is older still. -/
theorem displaces_iff {before : Receiver} {first packet : Packet} {rest : List Packet}
    (ahead : ∀ later ∈ rest, first.timestamp < later.timestamp)
    (stored : before.packets = first :: rest) (new : packet.timestamp ∉ before.timestamps) :
    (∀ gone ∈ packet.timestamp :: before.timestamps,
        gone ∉ timestamps { before with packets := placed rest packet } →
        ∀ stays ∈ timestamps { before with packets := placed rest packet }, gone < stays) ↔
      ¬ ∀ stored ∈ before.timestamps, packet.timestamp < stored := by
  have old : before.timestamps = first.timestamp :: rest.map (·.timestamp) := by
    rw [timestamps, stored, map_cons]
  have after : ∀ timestamp, timestamp ∈ timestamps { before with packets := placed rest packet } ↔
      timestamp = packet.timestamp ∨ timestamp ∈ rest.map (·.timestamp) := by
    intro timestamp
    rw [timestamps, ((placed_perm rest packet).map _).mem_iff, map_cons, mem_cons]
  have behind : ∀ timestamp ∈ rest.map (·.timestamp), first.timestamp < timestamp := by
    rw [forall_mem_map]
    exact ahead
  rw [old, mem_cons, not_or] at new
  simp only [old, forall_mem_cons, after]
  constructor
  · rintro ⟨-, drops, -⟩ ⟨older, -⟩
    refine absurd (drops (not_or.mpr ⟨Ne.symm new.1, fun inside => ?_⟩) _ (.inl rfl)) older.asymm
    exact lt_irrefl _ (behind _ inside)
  · intro notOlder
    have newer : first.timestamp < packet.timestamp := by
      by_contra before
      have older : packet.timestamp < first.timestamp := lt_of_le_of_ne (not_lt.mp before) new.1
      exact notOlder ⟨older, fun later member => older.trans (behind later member)⟩
    refine ⟨fun absent => absurd (.inl trivial) absent, fun _ stays kept => ?_,
      fun later member absent => absurd (.inr member) absent⟩
    rcases kept with rfl | member
    · exact newer
    · exact behind stays member

theorem Call.Made.dropsOldest_iff {call : Call} (made : call.Made)
    (ordered : Ordered call.before.packets) : call.DropsOldest ↔ call.Fair := by
  obtain ⟨before, timestamp, after⟩ := call
  obtain ⟨full, bytes, taken⟩ := made
  unfold DropsOldest Fair
  dsimp only at full taken ordered ⊢
  by_cases held : timestamp ∈ before.timestamps
  · -- A repeated packet changes nothing.
    have passed : before.Passed timestamp := .inr (mem_timestamps.mpr held)
    rcases enqueue_cases taken with ⟨-, -, rfl⟩ | ⟨fresh, -⟩
    · refine iff_of_true ?_ (.inl held)
      intro gone member absent
      rcases mem_cons.mp member with rfl | stored
      · exact absurd held absent
      · exact absurd stored absent
    · exact absurd passed fresh
  · rw [or_iff_right held]
    rcases enqueue_cases taken with ⟨passed, -, rfl⟩ | ⟨fresh, packet, -, rfl, rfl⟩
    · have late : after.expected.any (timestamp < ·) = true :=
        passed.resolve_right fun stored => held (mem_timestamps.mp stored)
      rw [iff_true_left late]
      constructor
      · intro drops stays member
        exact drops timestamp mem_cons_self held stays member
      · intro older gone member absent stays kept
        rcases mem_cons.mp member with rfl | stored
        · exact older stays kept
        · exact absurd stored absent
    · have late : ¬ before.expected.any (packet.timestamp < ·) = true := fun late => fresh (.inl late)
      rw [iff_false_left late]
      rcases stored : before.packets with _ | ⟨first, rest⟩
      · rw [stored] at full
        cases full
      have left : before.kept = rest := by
        rw [kept, if_pos full, stored]
        rfl
      rw [stored] at ordered
      rw [left]
      exact displaces_iff (pairwise_cons.mp ordered.sorted).1 stored held

section Calls
variable {σ : Type} (emit : σ → Decoded → σ × Option Fault)

/-- The calls that were accepted with a full buffer, after one more event. -/
def recorded (calls : List Call) (before : Receiver × σ) (event : ReceiverEvent)
    (_ : Receiver × σ) : List Call :=
  match event with
  | .enqueue timestamp bytes =>
    match before.1.enqueue timestamp bytes with
    | .ok after =>
      if before.1.packets.length = packetLimit then calls ++ [⟨before.1, timestamp, after⟩]
      else calls
    | .error _ => calls
  | .render .. => calls

/-- The lives of a receiver with their calls on a full buffer. -/
abbrev Called : (Receiver × σ) × List Call → Prop :=
  Reachable (fun life => New life.1 ∧ life.2 = [])
    (observe (fun before event after => perform emit before event = after) recorded)

theorem Called.made {life : (Receiver × σ) × List Call} (called : Called emit life) :
    ∀ call ∈ life.2, call.Made ∧ Ordered call.before.packets := by
  apply Reachable.invariant _ _ called
  · rintro ⟨_, _⟩ ⟨-, rfl⟩
    exact nofun
  · rintro ⟨before, calls⟩ event ⟨after, more⟩ earlier made ⟨-, grown⟩
    have ordered := Reached.ordered emit (Reachable.unobserved earlier)
    change more = recorded calls before event after at grown
    rw [grown]
    cases event with
    | render epoch now opened answers => exact made
    | enqueue timestamp bytes =>
      dsimp only [recorded]
      split
      · rename_i receiver taken
        split
        · rename_i full
          intro call member
          rcases mem_append.mp member with earlier | new
          · exact made call earlier
          · rw [mem_singleton.mp new]
            exact ⟨⟨full, bytes, taken⟩, ordered⟩
        · exact made
      · exact made

/-- The lookahead stays in order, without repetition and within its limit. Every packet that has
to go is the oldest exactly where each call on a full buffer is fair. -/
theorem reached_lookahead {life : (Receiver × σ) × List Call} (called : Called emit life) :
    Ordered life.1.1.packets ∧
      ((∀ call ∈ life.2, call.DropsOldest) ↔ ∀ call ∈ life.2, call.Fair) := by
  refine ⟨Reached.ordered emit (Reachable.unobserved called), forall₂_congr fun call member => ?_⟩
  obtain ⟨made, ordered⟩ := called.made emit call member
  exact made.dropsOldest_iff ordered

/-- A life that is only made of packets of one frame of 20 ms. -/
def receiving (timestamps : List ℕ) : (Receiver × Unit) × List Call :=
  (timestamps.map fun timestamp => .enqueue timestamp [248, 0]).foldl
    (fun life event => (perform (fun _ _ => ((), none)) life.1 event,
      recorded life.2 life.1 event (perform (fun _ _ => ((), none)) life.1 event)))
    (({ position := 0, fec := false }, ()), [])

theorem called_receiving (timestamps : List ℕ) :
    Called (fun _ _ => ((), none)) (receiving timestamps) :=
  Reachable.run_observed _ (.start ⟨⟨0, false, rfl⟩, rfl⟩)

/-- A frame more than there is room for, in order. -/
def inOrder : List ℕ := (List.range 13).map (· * frameSize)

/-- The first frame comes last. -/
def belated : List ℕ := (List.range 12).map (fun n => (n + 1) * frameSize) ++ [0]

theorem reached_lookahead_inOrder :
    (receiving inOrder).2.map (·.timestamp) = [11520] ∧ Ordered (receiving inOrder).1.1.packets ∧
      ((∀ call ∈ (receiving inOrder).2, call.DropsOldest) ↔
        ∀ call ∈ (receiving inOrder).2, call.Fair) :=
  ⟨by decide, reached_lookahead _ (called_receiving inOrder)⟩

/-- The belated frame takes the place of a newer one. -/
theorem belated_displaces :
    ∃ life, Called (fun (_ : Unit) _ => ((), none)) life ∧ ∃ call ∈ life.2,
      call.before.timestamps = (List.range 12).map (fun n => (n + 1) * frameSize) ∧
        call.timestamp = 0 ∧ frameSize ∉ call.after.timestamps ∧ 0 ∈ call.after.timestamps ∧
          ¬ call.DropsOldest :=
  ⟨_, called_receiving belated, by decide⟩

end Calls
end Receiver
end Chuzz.Webrtc
