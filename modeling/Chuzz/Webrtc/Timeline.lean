import Chuzz.Library.Monitor
import Chuzz.Webrtc.Lookahead

/-! What a receiver emits over its whole life. A run of blocks lasts while a timestamp is expected:
its blocks follow each other without a gap, on the clock of the track as on that of the packets. -/
namespace Chuzz.Webrtc
open Library.Transition Library.Preceding List

/-- The number of frames in all of the blocks. -/
def total (blocks : List Emission) : ℕ := (blocks.map (·.frames)).sum

/-- How many frames were concealed since a packet was last decoded. -/
def streak (blocks : List Emission) : ℕ := total (blocks.reverse.takeWhile (·.concealed))

/-- The blocks from one anchor on. -/
structure Run where
  start : ℕ
  first : ℕ
  blocks : List Emission

/-- What has been stored and emitted. -/
structure History where
  stored : List Packet := []
  runs : List Run := []

@[simp] theorem total_nil : total [] = 0 := rfl

@[simp] theorem total_append (first second : List Emission) :
    total (first ++ second) = total first + total second := by
  simp [total]

@[simp] theorem total_cons (block : Emission) (blocks : List Emission) :
    total (block :: blocks) = block.frames + total blocks := rfl

theorem streak_concat (blocks : List Emission) (block : Emission) :
    streak (blocks ++ [block]) = if block.concealed then streak blocks + block.frames else 0 := by
  unfold streak
  rw [reverse_append, reverse_singleton, singleton_append]
  cases concealed : block.concealed with
  | false => rw [takeWhile_cons_of_neg (by simp [concealed])]; rfl
  | true =>
    rw [takeWhile_cons_of_pos concealed, total_cons, Nat.add_comm]
    rfl

theorem total_le_streak (before : List Emission) {stretch : List Emission}
    (concealed : ∀ block ∈ stretch, block.concealed = true) :
    total stretch ≤ streak (before ++ stretch) := by
  unfold streak
  rw [reverse_append, takeWhile_append_of_pos (by simpa using concealed), total_append]
  refine le_trans (le_of_eq ?_) (Nat.le_add_right _ _)
  simp [total, sum_reverse]

namespace Run

def stop (run : Run) : ℕ := run.start + total run.blocks

/-- Each block starts where those before it end, on both clocks. -/
def Contiguous (run : Run) : Prop :=
  Each (fun before block => block.position = run.start + total before ∧
    block.timestamp = run.first + total before) run.blocks

/-- A block without a packet comes while little was concealed, and is short. -/
def Spare (run : Run) : Prop :=
  Each (fun before block => block.ready = none → streak before < maxLoss ∧
    block.frames ≤ frameSize) run.blocks

/-- A packet that was ready starts where its block does. -/
def Timely (run : Run) : Prop :=
  ∀ block ∈ run.blocks, ∀ packet ∈ block.ready, packet.timestamp = block.timestamp

/-- The packets that were decoded normally. -/
def played (run : Run) : List Packet := run.blocks.filterMap (·.played)

end Run

namespace History

/-- Blocks at the end of the last run. -/
def extend (history : History) (blocks : List Emission) : History :=
  match history.runs.getLast? with
  | none => history
  | some run =>
    { history with
      runs := history.runs.dropLast ++ [{ run with blocks := run.blocks ++ blocks }] }

def played (history : History) : List Packet := history.runs.flatMap (·.played)

/-- The history after an event. -/
def grown {σ : Type} (emit : σ → Decoded → σ × Option Fault) (history : History)
    (before : Receiver × σ) (event : ReceiverEvent) (_ : Receiver × σ) : History :=
  match event with
  | .enqueue timestamp bytes =>
    { history with stored := history.stored ++ (before.1.stored timestamp bytes).toList }
  | .render epoch now opened answers =>
    match before.1.expected, before.1.packets with
    | some _, _ =>
      history.extend
        (Receiver.emissions emit now answers Receiver.turnLimit before.1 before.2)
    | none, [] => history
    | none, packet :: _ =>
      match opened with
      | .error _ => history
      | .ok () =>
        let anchored := before.1.anchor epoch now packet
        { history with
          runs := history.runs ++ [{
            start := anchored.position
            first := packet.timestamp
            blocks := Receiver.emissions emit now answers Receiver.turnLimit anchored before.2 }] }

/-- What holds of a receiver with what it has stored and emitted. -/
structure Sound (receiver : Receiver) (history : History) : Prop where
  contiguous : ∀ run ∈ history.runs, run.Contiguous
  spare : ∀ run ∈ history.runs, run.Spare
  timely : ∀ run ∈ history.runs, run.Timely
  apart : history.runs.Pairwise fun earlier later => earlier.stop ≤ later.start
  behind : ∀ run ∈ history.runs, run.stop ≤ receiver.position
  current : ∀ expected ∈ receiver.expected, ∃ run, history.runs.getLast? = some run ∧
    run.stop = receiver.position ∧ run.first + total run.blocks = expected ∧
      streak run.blocks = receiver.lost
  accounted : (history.played ++ receiver.packets).Subperm history.stored

section Sound
variable {receiver : Receiver} {stored : List Packet} {past : List Run} {start first : ℕ}
  {log : List Emission}

theorem played_concat (block : Emission) :
    played ⟨stored, past ++ [⟨start, first, log ++ [block]⟩]⟩ =
      played ⟨stored, past ++ [⟨start, first, log⟩]⟩ ++ block.played.toList := by
  simp only [played, Run.played, flatMap_append, flatMap_singleton,
    filterMap_append, append_assoc]
  congr 2

theorem Sound.push {expected : ℕ} {packets : List Packet}
    (sound : Sound receiver ⟨stored, past ++ [⟨start, first, log⟩]⟩) (block : Emission)
    (expects : receiver.expected = some expected) (here : block.position = receiver.position)
    (time : block.timestamp = expected)
    (spare : block.ready = none → receiver.lost < maxLoss ∧ block.frames ≤ frameSize)
    (timely : ∀ packet ∈ block.ready, packet.timestamp = expected)
    (fewer : (block.played.toList ++ packets).Sublist receiver.packets) :
    Sound (Receiver.played { receiver with packets } block.frames block.concealed)
      ⟨stored, past ++ [⟨start, first, log ++ [block]⟩]⟩ := by
  obtain ⟨run, last, stop, clock, lost⟩ := sound.current expected expects
  obtain rfl : (⟨start, first, log⟩ : Run) = run := by simpa using last
  dsimp only [Run.stop] at stop clock lost
  have grown : total (log ++ [block]) = total log + block.frames := by
    rw [total_append, total_cons, total_nil, Nat.add_zero]
  have contiguous := forall_mem_append.mp sound.contiguous
  have spares := forall_mem_append.mp sound.spare
  have times := forall_mem_append.mp sound.timely
  have behind := forall_mem_append.mp sound.behind
  rw [forall_mem_singleton] at contiguous spares times
  refine
    { contiguous := forall_mem_append.mpr ⟨contiguous.1, forall_mem_singleton.mpr ?_⟩
      spare := forall_mem_append.mpr ⟨spares.1, forall_mem_singleton.mpr ?_⟩
      timely := forall_mem_append.mpr ⟨times.1, forall_mem_singleton.mpr ?_⟩
      apart := ?_
      behind := forall_mem_append.mpr ⟨?_, forall_mem_singleton.mpr ?_⟩
      current := ?_
      accounted := ?_ }
  · exact each_concat.mpr ⟨contiguous.2, here.trans stop.symm, time.trans clock.symm⟩
  · refine each_concat.mpr ⟨spares.2, fun absent => ?_⟩
    rw [lost]
    exact spare absent
  · refine forall_mem_append.mpr ⟨times.2, forall_mem_singleton.mpr ?_⟩
    intro packet ready
    rw [time]
    exact timely packet ready
  · have apart := pairwise_append.mp sound.apart
    refine pairwise_append.mpr ⟨apart.1, pairwise_singleton _ _, ?_⟩
    intro earlier held later member
    rw [mem_singleton.mp member]
    exact apart.2.2 earlier held ⟨start, first, log⟩ mem_cons_self
  · exact fun run member => le_trans (behind.1 run member) (Nat.le_add_right _ _)
  · dsimp only [Run.stop, Receiver.played]
    omega
  · intro later same
    dsimp only [Receiver.played] at same
    rw [expects, Option.map_some] at same
    cases same
    refine ⟨_, getLast?_concat .., ?_, ?_, ?_⟩
    · dsimp only [Run.stop, Receiver.played]
      omega
    · dsimp only
      omega
    · dsimp only [Receiver.played]
      rw [streak_concat, lost]
  · rw [played_concat, append_assoc]
    refine List.Subperm.trans ?_ sound.accounted
    exact (fewer.append_left _).subperm

theorem kept (stored : List Packet) (past : List Run) (start first : ℕ) :
    Receiver.Kept fun receiver log => Sound receiver ⟨stored, past ++ [⟨start, first, log⟩]⟩ where
  trimmed sound fewer :=
    { sound with accounted := (fewer.sublist.append_left _).subperm.trans sound.accounted }
  ended sound := { sound with current := fun _ none => by cases none }
  ready {receiver log packet packets decoded} concealed sound first expects here sized := by
    have half : decoded.samples / 2 = packet.frames := by omega
    rw [← half]
    refine sound.push ⟨decoded, packet.timestamp, some packet, concealed⟩ expects here rfl
      (fun absent => by cases absent) (fun other same => by cases same; rfl) ?_
    refine List.Sublist.trans ?_ (first ▸ (dropWhile_suffix _).sublist)
    cases concealed with
    | true => exact sublist_cons_self _ _
    | false => exact .refl _
  missing {receiver log expected decoded} sound expects limited here short :=
    sound.push ⟨decoded, expected, none, true⟩ expects here rfl (fun _ => ⟨limited, short⟩)
      (fun _ absent => by cases absent) (.refl _)

theorem Sound.anchor {history : History} (sound : Sound receiver history) (epoch now : ℕ)
    (packet : Packet) :
    Sound (receiver.anchor epoch now packet) ⟨history.stored, history.runs ++
      [⟨(receiver.anchor epoch now packet).position, packet.timestamp, []⟩]⟩ := by
  have later : receiver.position ≤ (receiver.anchor epoch now packet).position :=
    le_max_left _ _
  refine
    { contiguous := forall_mem_append.mpr
        ⟨sound.contiguous, forall_mem_singleton.mpr each_nil⟩
      spare := forall_mem_append.mpr ⟨sound.spare, forall_mem_singleton.mpr each_nil⟩
      timely := forall_mem_append.mpr ⟨sound.timely, forall_mem_singleton.mpr nofun⟩
      apart := pairwise_append.mpr ⟨sound.apart, pairwise_singleton _ _, ?_⟩
      behind := forall_mem_append.mpr ⟨?_, forall_mem_singleton.mpr (le_refl _)⟩
      current := ?_
      accounted := ?_ }
  · intro run held fresh member
    rw [mem_singleton.mp member]
    exact le_trans (sound.behind run held) later
  · exact fun run held => le_trans (sound.behind run held) later
  · intro expected same
    cases same
    exact ⟨_, getLast?_concat .., rfl, rfl, rfl⟩
  · have same : played ⟨history.stored, history.runs ++
        [⟨(receiver.anchor epoch now packet).position, packet.timestamp, []⟩]⟩ = history.played := by
      simp [played, Run.played]
    rw [same]
    exact sound.accounted

theorem Sound.enqueue {history : History} {after : Receiver} {timestamp : ℕ} {bytes : List UInt8}
    (sound : Sound receiver history) (taken : receiver.enqueue timestamp bytes = .ok after) :
    Sound after { history with
      stored := history.stored ++ (receiver.stored timestamp bytes).toList } := by
  rcases Receiver.enqueue_cases taken with ⟨-, none, rfl⟩ | ⟨-, packet, new, -, rfl⟩
  · rw [none, Option.toList_none, append_nil]
    exact sound
  · refine { sound with accounted := ?_ }
    rw [new, Option.toList_some]
    refine List.Subperm.trans ?_ ((subperm_append_right [packet]).mpr sound.accounted)
    rw [append_assoc]
    refine (subperm_append_left _).mpr ?_
    have moved := (Receiver.placed_perm receiver.kept packet).trans
      (perm_append_singleton packet _).symm
    exact moved.subperm.trans (receiver.kept_sublist.append_right [packet]).subperm

end Sound

section Life
variable {σ : Type} (emit : σ → Decoded → σ × Option Fault)

theorem Sound.render {receiver : Receiver} {history : History} (sound : Sound receiver history)
    (epoch now : ℕ) (opened : Except String Unit) (answers : ℕ → Answer) (state : σ)
    (after : Receiver × σ) :
    Sound (receiver.render emit epoch now opened answers state).1
      (history.grown emit (receiver, state) (.render epoch now opened answers) after) := by
  unfold Receiver.render grown
  generalize Receiver.turnLimit = n
  cases expects : receiver.expected with
  | some expected =>
    obtain ⟨run, last, -⟩ := sound.current expected expects
    obtain ⟨past, whole⟩ := getLast?_eq_some_iff.mp last
    have same : history = ⟨history.stored, past ++ [⟨run.start, run.first, run.blocks⟩]⟩ := by
      rw [← whole]
    unfold extend
    rw [last, whole, dropLast_concat]
    rw [same] at sound
    exact (kept history.stored past run.start run.first).turns emit now answers n sound state
  | none =>
    cases stored : receiver.packets with
    | nil => exact sound
    | cons packet rest =>
      cases opened with
      | error error => exact sound
      | ok _ =>
        have turned := (kept history.stored history.runs _ _).turns emit now answers n
          (sound.anchor epoch now packet) state
        rw [nil_append] at turned
        exact turned

theorem Sound.perform {history : History} {before : Receiver × σ} (sound : Sound before.1 history)
    (event : ReceiverEvent) :
    Sound (Receiver.perform emit before event).1
      (history.grown emit before event (Receiver.perform emit before event)) := by
  cases event with
  | enqueue timestamp bytes =>
    cases taken : before.1.enqueue timestamp bytes with
    | error error =>
      simp only [Receiver.perform, grown, taken, Receiver.stored_error taken, Option.toList_none,
        append_nil]
      exact sound
    | ok after =>
      simp only [Receiver.perform, grown, taken]
      exact sound.enqueue taken
  | render epoch now opened answers =>
    exact sound.render emit epoch now opened answers before.2 _

/-- The lives of a receiver with their histories. -/
abbrev Lived : (Receiver × σ) × History → Prop :=
  Reachable (fun life => Receiver.New life.1 ∧ life.2 = {})
    (observe (fun before event after => Receiver.perform emit before event = after) (grown emit))

theorem Lived.sound {life : (Receiver × σ) × History} (lived : Lived emit life) :
    Sound life.1.1 life.2 := by
  change (fun life : (Receiver × σ) × History => Sound life.1.1 life.2) life
  apply Reachable.invariant _ _ lived
  · rintro ⟨⟨_, _⟩, _⟩ ⟨⟨position, fec, rfl⟩, rfl⟩
    exact
      { contiguous := nofun, spare := nofun, timely := nofun, apart := .nil, behind := nofun
        current := fun _ none => by cases none
        accounted := .refl _ }
  · rintro ⟨before, history⟩ event ⟨after, more⟩ - sound ⟨rfl, grows⟩
    change more = history.grown emit before event _ at grows
    rw [grows]
    exact sound.perform emit event

end Life
end History

namespace Run
variable {run : Run}

theorem Contiguous.pairwise (contiguous : run.Contiguous) :
    run.blocks.Pairwise fun earlier later => earlier.stop ≤ later.position := by
  apply each_pairwise.mp
  intro before later after split earlier member
  obtain ⟨front, back, rfl⟩ := append_of_mem member
  have here := (contiguous _ _ _ split).1
  have there := (contiguous front earlier (back ++ later :: after)
    (by rw [split, append_assoc, cons_append])).1
  rw [total_append, total_cons] at here
  unfold Emission.stop
  omega

theorem Contiguous.inside (contiguous : run.Contiguous) {block : Emission}
    (member : block ∈ run.blocks) : run.start ≤ block.position ∧ block.stop ≤ run.stop := by
  obtain ⟨before, after, split⟩ := append_of_mem member
  have here := (contiguous before block after split).1
  unfold Emission.stop Run.stop
  rw [split, total_append, total_cons]
  omega

end Run

namespace History
variable {σ : Type} (emit : σ → Decoded → σ × Option Fault)

/-- The blocks of a life follow each other, without a gap within a run; timestamps go with
positions; each stored packet is decoded at most once, where it belongs; and what is concealed up
to a block without a packet is bounded. -/
theorem reached_timeline {life : (Receiver × σ) × History} (lived : Lived emit life) :
    (life.2.runs.flatMap (·.blocks)).Pairwise (fun earlier later =>
      earlier.stop ≤ later.position) ∧
    (∀ run ∈ life.2.runs, ∀ before block after, run.blocks = before ++ block :: after →
      block.position = run.start + total before ∧
        block.timestamp = run.first + total before) ∧
    (∀ expected ∈ life.1.1.expected, ∃ run, life.2.runs.getLast? = some run ∧
      life.1.1.position = run.start + total run.blocks ∧
        expected = run.first + total run.blocks) ∧
    (∀ run ∈ life.2.runs, ∀ block ∈ run.blocks, ∀ packet ∈ block.played,
      packet.timestamp = block.timestamp) ∧
    life.2.played.Subperm life.2.stored ∧
    ∀ run ∈ life.2.runs, ∀ before stretch block after,
      run.blocks = before ++ stretch ++ block :: after →
      (∀ concealed ∈ stretch, concealed.concealed = true) → block.ready = none →
      total stretch + block.frames ≤ maxLoss + frameSize := by
  have sound := lived.sound
  refine ⟨pairwise_flatMap.mpr ⟨fun run member => (sound.contiguous run member).pairwise, ?_⟩,
    sound.contiguous, ?_, ?_, ?_, ?_⟩
  · refine sound.apart.imp_of_mem fun {first second} one two apart earlier held later member => ?_
    have ends := ((sound.contiguous first one).inside held).2
    have starts := ((sound.contiguous second two).inside member).1
    omega
  · intro expected expects
    obtain ⟨run, last, stop, clock, -⟩ := sound.current expected expects
    exact ⟨run, last, stop.symm, clock.symm⟩
  · intro run member block inside packet played
    refine sound.timely run member block inside packet ?_
    unfold Emission.played at played
    split at played
    · cases played
    · exact played
  · exact (sublist_append_left _ _).subperm.trans sound.accounted
  · intro run member before stretch block after split concealed absent
    obtain ⟨few, short⟩ := sound.spare run member _ block after split absent
    have := total_le_streak before concealed
    omega

section Samples

/-- What was stored and emitted when the events had happened to a new receiver. -/
def lived (events : List ReceiverEvent) : (Receiver × Unit) × History :=
  events.foldl (fun life event => (Receiver.perform (fun _ _ => ((), none)) life.1 event,
      life.2.grown (fun _ _ => ((), none)) life.1 event
        (Receiver.perform (fun _ _ => ((), none)) life.1 event)))
    (({ position := 0, fec := false }, ()), {})

theorem lived_lived (events : List ReceiverEvent) : Lived (fun _ _ => ((), none)) (lived events) :=
  Reachable.run_observed events (.start ⟨⟨0, false, rfl⟩, rfl⟩)

/-- Three packets of 120 ms, rendered after a second. -/
def longPackets (answers : ℕ → Answer) : List ReceiverEvent :=
  [0, 5760, 11520].map (fun timestamp => .enqueue timestamp [25, 0]) ++
    [.render 0 0 (.ok ()) answers, .render 0 1000000000 (.ok ()) answers]

theorem reached_timeline_long :
    (lived (longPackets fun _ => { result := .ok 5760 })).2.played.map (·.timestamp) =
      [0, 5760, 11520] ∧
    (lived (longPackets fun _ => { result := .ok 5760 })).2.played.Subperm
      (lived (longPackets fun _ => { result := .ok 5760 })).2.stored :=
  ⟨by decide +kernel, (reached_timeline _ (lived_lived _)).2.2.2.2.1⟩

/-- Packets that the decoder rejects are concealed one after another. -/
theorem rejected_packets_exceed :
    ∃ life, Lived (fun (_ : Unit) _ => ((), none)) life ∧ ∃ run ∈ life.2.runs,
      (∀ block ∈ run.blocks, block.concealed = true) ∧
        maxLoss + frameSize < total run.blocks :=
  ⟨_, lived_lived (longPackets fun _ => { result := .error "", concealed := .ok 5760 }),
    by decide +kernel⟩

end Samples
end History
end Chuzz.Webrtc
