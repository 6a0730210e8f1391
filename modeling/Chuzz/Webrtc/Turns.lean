import Chuzz.Webrtc.Receiver

/-! What one turn of the receiver's loop can do, and what a call of `render` emits, each block with
the timestamp that it stands for and with the packet that was ready for it. -/
namespace Chuzz.Webrtc

/-- A block that was emitted and taken. -/
structure Emission where
  decoded : Decoded
  timestamp : ℕ
  /-- The packet that starts at the timestamp, if it was there. -/
  ready : Option Packet
  concealed : Bool

namespace Emission

def position (emission : Emission) : ℕ := emission.decoded.position

def frames (emission : Emission) : ℕ := emission.decoded.samples / 2

def stop (emission : Emission) : ℕ := emission.position + emission.frames

/-- The packet that was decoded normally. -/
def played (emission : Emission) : Option Packet :=
  if emission.concealed then none else emission.ready

end Emission

namespace Receiver

/-- What a turn of a receiver comes to. -/
inductive Turned (receiver : Receiver) : Turn → Prop where
  | rested : Turned receiver (.rest receiver)
  | ended (packets : List Packet) (fewer : packets <:+ receiver.packets) :
      Turned receiver (.rest { receiver with packets, expected := none, due := none })
  | failed (fault : Fault) (packets : List Packet) (fewer : packets <:+ receiver.packets) :
      Turned receiver (.fault fault { receiver with packets })
  /-- The packet of the moment is decoded, or concealed where the decoder rejects it. -/
  | ready (packet : Packet) (packets : List Packet) (decoded : Decoded) (concealed : Bool)
      (first : receiver.packets.dropWhile (·.timestamp < packet.timestamp) = packet :: packets)
      (expects : receiver.expected = some packet.timestamp)
      (here : decoded.position = receiver.position) (sized : decoded.samples = packet.frames * 2) :
      Turned receiver (.emit decoded concealed { receiver with packets })
  /-- The packet of the moment is missing. -/
  | missing (expected : ℕ) (packets : List Packet) (decoded : Decoded)
      (left : receiver.packets.dropWhile (·.timestamp < expected) = packets)
      (later : ∀ packet ∈ packets.head?, packet.timestamp ≠ expected)
      (expects : receiver.expected = some expected) (limited : receiver.lost < maxLoss)
      (here : decoded.position = receiver.position) (sized : decoded.samples / 2 ≤ frameSize) :
      Turned receiver (.emit decoded true { receiver with packets })

theorem choose_ready {receiver : Receiver} {packet : Packet} {rest : List Packet}
    (first : receiver.packets = packet :: rest) (perFrame : ℕ) :
    receiver.choose packet.timestamp perFrame = (packet.frames, false, rest) := by
  unfold choose
  rw [first]
  exact if_pos rfl

theorem choose_missing {receiver : Receiver} {expected : ℕ}
    (later : ∀ packet ∈ receiver.packets.head?, packet.timestamp ≠ expected) (perFrame : ℕ) :
    (receiver.choose expected perFrame).1 ≤ frameSize ∧
      (receiver.choose expected perFrame).2.2 = receiver.packets := by
  unfold choose
  cases found : receiver.packets with
  | nil => exact ⟨min_le_right _ _, rfl⟩
  | cons next rest =>
    rw [found] at later
    dsimp only
    rw [if_neg (later next rfl)]
    exact ⟨le_trans (min_le_left _ _) (min_le_right _ _), rfl⟩

theorem turn_turned (receiver : Receiver) (now : ℕ) (answer : Answer) :
    Turned receiver (receiver.turn now answer) := by
  obtain ⟨stored, expected, due, position, frame, lost, redundant⟩ := receiver
  cases expected with
  | none => exact .rested
  | some expected =>
  cases due with
  | none => exact .rested
  | some due =>
  unfold turn
  dsimp only
  by_cases early : now < due
  · rw [if_pos early]
    exact .rested
  rw [if_neg early]
  generalize left : stored.dropWhile (·.timestamp < expected) = kept
  have fewer : kept <:+ stored := left ▸ List.dropWhile_suffix _
  cases normal : kept.head?.any (·.timestamp = expected) with
  | false =>
    have later : ∀ packet ∈ kept.head?, packet.timestamp ≠ expected := by
      intro packet first same
      rw [Option.mem_def.mp first] at normal
      simp [same] at normal
    have chosen :=
      @choose_missing ⟨kept, some expected, some due, position, frame, lost, redundant⟩ expected
        later answer.perFrame
    by_cases limited : maxLoss ≤ lost
    · rw [if_pos ⟨rfl, limited⟩]
      exact .ended kept fewer
    rw [if_neg fun both => limited both.2]
    generalize choose _ expected answer.perFrame = choice at chosen ⊢
    obtain ⟨frames, fec, others⟩ := choice
    obtain ⟨short, rfl⟩ := chosen
    split
    · exact .ended others fewer
    · split
      · exact .failed _ others fewer
      · split
        · exact .failed _ others fewer
        · refine .missing expected others _ left later rfl (Nat.lt_of_not_le limited) rfl ?_
          rw [Nat.mul_div_cancel _ (by decide)]
          exact short
  | true =>
    rw [if_neg (by simp)]
    cases kept with
    | nil => cases normal
    | cons packet rest =>
      obtain rfl : packet.timestamp = expected := by simpa using normal
      rw [choose_ready rfl answer.perFrame]
      have fewer : rest <:+ stored := (List.suffix_cons packet rest).trans fewer
      split
      · exact .ended rest fewer
      · split
        · exact .failed _ rest fewer
        · split
          · exact .failed _ rest fewer
          · exact .ready packet rest _ _ left rfl rfl rfl

/-- The packet that starts at the timestamp, if it is there. -/
def readyAt (receiver : Receiver) (expected : ℕ) : Option Packet :=
  (receiver.packets.dropWhile (·.timestamp < expected)).head?.filter (·.timestamp = expected)

/-- The block that a turn of the receiver emits. -/
def emission (receiver : Receiver) (decoded : Decoded) (concealed : Bool) : Emission where
  decoded
  timestamp := receiver.expected.getD 0
  ready := receiver.readyAt (receiver.expected.getD 0)
  concealed

section Rendering
variable {σ : Type} (emit : σ → Decoded → σ × Option Fault)

/-- The blocks that `turns` emits. -/
def emissions (now : ℕ) (answers : ℕ → Answer) : ℕ → Receiver → σ → List Emission
  | 0, _, _ => []
  | n + 1, receiver, state =>
    match receiver.turn now (answers n) with
    | .rest _ => []
    | .fault _ _ => []
    | .emit decoded concealed waiting =>
      match emit state decoded with
      | (_, some _) => []
      | (state, none) =>
        receiver.emission decoded concealed ::
          emissions now answers n (waiting.played (decoded.samples / 2) concealed) state

/-- What a property of a receiver and of the blocks emitted so far has to keep. -/
structure Kept (P : Receiver → List Emission → Prop) : Prop where
  trimmed : ∀ {receiver log packets}, P receiver log → packets <:+ receiver.packets →
    P { receiver with packets } log
  ended : ∀ {receiver log}, P receiver log →
    P { receiver with expected := none, due := none } log
  ready : ∀ {receiver log packet packets decoded} (concealed : Bool), P receiver log →
    receiver.packets.dropWhile (·.timestamp < packet.timestamp) = packet :: packets →
    receiver.expected = some packet.timestamp → decoded.position = receiver.position →
    decoded.samples = packet.frames * 2 →
    P (played { receiver with packets } packet.frames concealed)
      (log ++ [⟨decoded, packet.timestamp, some packet, concealed⟩])
  missing : ∀ {receiver log expected decoded}, P receiver log →
    receiver.expected = some expected → receiver.lost < maxLoss →
    decoded.position = receiver.position → decoded.samples / 2 ≤ frameSize →
    P (receiver.played (decoded.samples / 2) true) (log ++ [⟨decoded, expected, none, true⟩])

theorem Kept.turns {P : Receiver → List Emission → Prop} (kept : Kept P) (now : ℕ)
    (answers : ℕ → Answer) (n : ℕ) {receiver : Receiver} {log : List Emission}
    (holds : P receiver log) (state : σ) :
    P (turns emit now answers n receiver state).1
      (log ++ emissions emit now answers n receiver state) := by
  induction n generalizing receiver log state with
  | zero => simpa [Receiver.turns, emissions] using holds
  | succ n ih =>
    have turned := turn_turned receiver now (answers n)
    unfold Receiver.turns emissions
    generalize receiver.turn now (answers n) = outcome at turned ⊢
    cases turned with
    | rested => simpa using holds
    | ended packets fewer => simpa using kept.ended (kept.trimmed holds fewer)
    | failed fault packets fewer => simpa using kept.trimmed holds fewer
    | ready packet packets decoded concealed first expects here sized =>
      have half : decoded.samples / 2 = packet.frames := by omega
      have present : receiver.readyAt packet.timestamp = some packet := by
        rw [readyAt, first]
        exact if_pos (decide_eq_true rfl)
      rcases sent : emit state decoded with ⟨after, fault⟩
      cases fault with
      | some fault =>
        have fewer : packets <:+ receiver.packets :=
          (List.suffix_cons packet packets).trans (first ▸ List.dropWhile_suffix _)
        simpa [sent] using kept.trimmed holds fewer
      | none =>
        have next := ih (kept.ready concealed holds first expects here sized) after
        simpa [sent, half, emission, expects, present] using next
    | missing expected packets decoded left later expects limited here sized =>
      have fewer : packets <:+ receiver.packets := left ▸ List.dropWhile_suffix _
      have absent : receiver.readyAt expected = none := by
        rw [readyAt, left, Option.filter_eq_none_iff]
        intro packet first
        simpa using later packet first
      rcases sent : emit state decoded with ⟨after, fault⟩
      cases fault with
      | some fault => simpa [sent] using kept.trimmed holds fewer
      | none =>
        have next := ih (kept.missing (kept.trimmed holds fewer) expects limited here sized) after
        simpa [sent, emission, expects, absent] using next

end Rendering
end Receiver
end Chuzz.Webrtc
