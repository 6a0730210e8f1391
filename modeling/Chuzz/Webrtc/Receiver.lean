import Chuzz.Audio.Pcm

/-! The Opus receiver: a bounded lookahead of packets and the clock that it renders them on.
The codec is outside: what it answers during a turn comes with the turn. The pool of output
buffers is left out, for a leased buffer is never taken from it. -/
namespace Chuzz.Webrtc
open Library.Binary64 Chuzz.Audio

def rate : ℕ := 48000
def frameSize : ℕ := 960
def maxFrames : ℕ := 5760
def maxPacket : ℕ := 1275 * 48 + 2
def packetLimit : ℕ := 12
def maxLoss : ℕ := frameSize * 10
def decodeLead : ℕ := 20000000
def playoutDelay : ℕ := 80000000

/-- Why a peer ends during playout. -/
inductive Fault where
  | pcm (error : PcmError)
  | opus (error : String)
  | frame
deriving DecidableEq, Repr

def Fault.message : Fault → String
  | pcm error => error.message
  | opus error => "OperationError: Opus: " ++ error
  | frame => "OperationError: invalid Opus decoded frame"

/-- The number of samples that the table of contents of a packet promises. -/
def packetFrames (packet : List UInt8) : Except String ℕ :=
  match packet with
  | [] => throw "OperationError: invalid Opus packet length"
  | toc :: rest =>
    if maxPacket < rest.length + 1 then throw "OperationError: invalid Opus packet length"
    else
      let config := (toc >>> 3).toNat
      let frame :=
        if 16 ≤ config then 120 <<< (config % 4)
        else if 12 ≤ config then 480 <<< (config % 2)
        else if config % 4 = 3 then 2880
        else 480 <<< (config % 4)
      let counted : Except String ℕ := match (toc &&& 3).toNat with
        | 0 => .ok 1
        | 1 | 2 => .ok 2
        | _ => match rest with
          | [] => throw "OperationError: truncated Opus frame count"
          | second :: _ => .ok (second &&& 63).toNat
      match counted with
      | .error error => throw error
      | .ok count =>
        if count = 0 ∨ 48 < count ∨ maxFrames < frame * count then
          throw "OperationError: Opus packet exceeds 120 ms"
        else .ok (frame * count)

theorem packetFrames_le (packet : List UInt8) (frames : ℕ)
    (counted : packetFrames packet = .ok frames) : frames ≤ maxFrames := by
  unfold packetFrames at counted
  cases packet with
  | nil => cases counted
  | cons toc rest =>
    dsimp only at counted
    split_ifs at counted with long
    all_goals
      split at counted
      · cases counted
      · split_ifs at counted with excess
        cases counted
        omega

structure Packet where
  timestamp : ℕ
  frames : ℕ
  bytes : List UInt8
  sized : packetFrames bytes = .ok frames

/-- The samples are interleaved over two channels. -/
structure Decoded where
  position : ℕ
  samples : ℕ
  finite : Bool := true
  concealedFrames : ℕ := 0
  fecAttempts : ℕ := 0
  errors : ℕ := 0
deriving DecidableEq, Repr

structure Receiver where
  packets : List Packet := []
  expected : Option ℕ := none
  due : Option ℕ := none
  position : ℕ
  frame : ℕ := frameSize
  lost : ℕ := 0
  fec : Bool

/-- What the codec answers in one turn: to the first call, to the concealment after an error
of it, whether every sample is finite, and how long the frames of the next packet are. -/
structure Answer where
  result : Except String ℕ
  concealed : Except String ℕ := .error ""
  finite : Bool := true
  perFrame : ℕ := 0

/-- The sample that is to play at a time, after the playout delay. -/
def positionAt (epoch now : ℕ) : ℕ :=
  min ⌊nearest (asSecs (now - epoch + playoutDelay) * rate)⌋.toNat (2 ^ 64 - 1)

/-- What a turn comes to. A block is emitted by a receiver that waits for it to be taken. -/
inductive Turn where
  | rest (receiver : Receiver)
  | fault (fault : Fault) (receiver : Receiver)
  | emit (decoded : Decoded) (concealed : Bool) (waiting : Receiver)

def Turn.Standing (position : ℕ) : Turn → Prop
  | .rest after => after.position = position
  | .fault cause _ => ∀ error, cause ≠ .pcm error
  | .emit decoded _ waiting => decoded.position = position ∧
      decoded.samples / 2 ≤ maxFrames ∧ waiting.position = position

namespace Receiver

def enqueue (receiver : Receiver) (timestamp : ℕ) (bytes : List UInt8) :
    Except String Receiver :=
  match sized : packetFrames bytes with
  | .error error => throw error
  | .ok frames =>
    if receiver.expected.any (timestamp < ·) ∨
        receiver.packets.any (·.timestamp = timestamp) then .ok receiver
    else
      let kept := if receiver.packets.length = packetLimit then receiver.packets.drop 1
        else receiver.packets
      .ok { receiver with
        packets := kept.takeWhile (·.timestamp ≤ timestamp) ++
          { timestamp, frames, bytes, sized } :: kept.dropWhile (·.timestamp ≤ timestamp) }

/-- `render` before its loop: the first packet anchors both clocks. -/
def anchor (receiver : Receiver) (epoch now : ℕ) (first : Packet) : Receiver :=
  let position := max receiver.position (positionAt epoch now)
  { receiver with
    expected := some first.timestamp, frame := first.frames, position
    due := some (epoch + fromSecs (seconds position rate) - decodeLead), lost := 0 }

/-- The length of the next block, whether it is tried from the redundancy of the packet
after it, and the packets that are left. -/
def choose (receiver : Receiver) (expected perFrame : ℕ) : ℕ × Bool × List Packet :=
  match receiver.packets with
  | [] => (min receiver.frame frameSize, false, [])
  | next :: rest =>
    if next.timestamp = expected then (next.frames, false, rest)
    else
      let gap := next.timestamp - expected
      let frames := min (min receiver.frame frameSize) (min gap maxFrames)
      let fec := receiver.fec ∧ 480 ≤ frames ∧ frames ≤ frameSize ∧ gap = frames ∧
        (next.bytes.headD 0) &&& 4 = 0 ∧ perFrame = frames
      (frames, fec, next :: rest)

/-- The loop of `render` once, up to the call of `emit`. -/
def turn (receiver : Receiver) (now : ℕ) (answer : Answer) : Turn :=
  match receiver.expected, receiver.due with
  | some expected, some due =>
    if now < due then .rest receiver
    else
      let receiver := { receiver with
        packets := receiver.packets.dropWhile (·.timestamp < expected) }
      let normal : Bool := receiver.packets.head?.any (·.timestamp = expected)
      let paused := { receiver with expected := none, due := none }
      if normal = false ∧ maxLoss ≤ receiver.lost then .rest paused
      else
        let (frames, fec, packets) := receiver.choose expected answer.perFrame
        let waiting := { receiver with packets }
        if frames = 0 ∨ frames % 120 ≠ 0 then
          .rest { waiting with expected := none, due := none }
        else
          let errors := match answer.result with | .ok _ => 0 | .error _ => 1
          let concealed := !normal || errors = 1
          let decoded : Except String ℕ := match answer.result with
            | .ok decoded => .ok decoded
            | .error _ => answer.concealed
          match decoded with
          | .error error => .fault (.opus error) waiting
          | .ok decoded =>
            if decoded ≠ frames ∨ answer.finite = false then .fault .frame waiting
            else .emit
              { position := receiver.position
                samples := frames * 2
                concealedFrames := if concealed then frames else 0
                fecAttempts := if fec then 1 else 0
                errors } concealed waiting
  | _, _ => .rest receiver

/-- The rest of the loop, once `frames` samples were taken. -/
def played (receiver : Receiver) (frames : ℕ) (concealed : Bool) : Receiver :=
  { receiver with
    position := receiver.position + frames
    expected := receiver.expected.map (· + frames)
    due := receiver.due.map (· + fromSecs (seconds frames rate))
    lost := if concealed then receiver.lost + frames else 0
    frame := if concealed then receiver.frame else frames }

section Rendering
variable {σ : Type} (emit : σ → Decoded → σ × Option Fault)

/-- The loop of `render`, with the number of turns that are left. -/
def turns (now : ℕ) (answers : ℕ → Answer) :
    ℕ → Receiver → σ → Receiver × σ × Option Fault
  | 0, receiver, state => (receiver, state, none)
  | n + 1, receiver, state =>
    match receiver.turn now (answers n) with
    | .rest receiver => (receiver, state, none)
    | .fault fault receiver => (receiver, state, some fault)
    | .emit decoded concealed waiting =>
      match emit state decoded with
      | (state, some fault) => (waiting, state, some fault)
      | (state, none) =>
        turns now answers n (waiting.played (decoded.samples / 2) concealed) state

def turnLimit : ℕ := 8

/-- `opened` is what the codec answers to its reset, which only an anchor asks for. -/
def render (receiver : Receiver) (epoch now : ℕ) (opened : Except String Unit)
    (answers : ℕ → Answer) (state : σ) : Receiver × σ × Option Fault :=
  match receiver.expected, receiver.packets with
  | some _, _ => turns emit now answers turnLimit receiver state
  | none, [] => (receiver, state, none)
  | none, first :: _ =>
    match opened with
    | .error error => (receiver, state, some (.opus error))
    | .ok () => turns emit now answers turnLimit (receiver.anchor epoch now first) state

end Rendering

theorem enqueue_position {receiver after : Receiver} {timestamp : ℕ} {bytes : List UInt8}
    (taken : receiver.enqueue timestamp bytes = .ok after) :
    after.position = receiver.position := by
  unfold enqueue at taken
  split at taken
  · cases taken
  · split_ifs at taken <;> cases taken <;> rfl

theorem choose_le (receiver : Receiver) (expected perFrame : ℕ) :
    (receiver.choose expected perFrame).1 ≤ maxFrames := by
  have short : frameSize ≤ maxFrames := by decide
  unfold choose
  split
  · exact le_trans (min_le_right _ _) short
  · split_ifs
    · exact packetFrames_le _ _ (Packet.sized _)
    · exact le_trans (min_le_left _ _) (le_trans (min_le_right _ _) short)

/-- A turn leaves the clock alone, faults only through the codec, and emits a block that
starts where the clock stands. -/
theorem turn_standing (receiver : Receiver) (now : ℕ) (answer : Answer) :
    (receiver.turn now answer).Standing receiver.position := by
  unfold turn
  rcases expects : receiver.expected with _ | expected
  · exact (rfl : receiver.position = receiver.position)
  rcases deadline : receiver.due with _ | due
  · exact (rfl : receiver.position = receiver.position)
  dsimp only
  by_cases early : now < due
  · rw [if_pos early]
    exact (rfl : receiver.position = receiver.position)
  · rw [if_neg early]
    have bound := choose_le { receiver with
      packets := receiver.packets.dropWhile (·.timestamp < expected) } expected answer.perFrame
    rw [expects, deadline] at bound
    generalize choose _ expected answer.perFrame = choice at bound ⊢
    obtain ⟨frames, fec, packets⟩ := choice
    split
    · exact (rfl : receiver.position = receiver.position)
    · split
      · exact (rfl : receiver.position = receiver.position)
      · generalize (match answer.result with
          | .ok decoded => Except.ok decoded
          | .error _ => answer.concealed) = decoded
        rcases decoded with error | decoded
        · exact fun _ h => by cases h
        · dsimp only
          split
          · exact fun _ h => by cases h
          · have halved : frames * 2 / 2 ≤ maxFrames := by
              rw [Nat.mul_div_cancel _ (by decide)]
              exact bound
            exact ⟨rfl, halved, rfl⟩

section Rules
variable {σ : Type} {emit : σ → Decoded → σ × Option Fault} {limit : ℕ}
  {Until : σ → ℕ → Prop} {Ended : σ → Fault → Prop}

/-- `Until` holds of the state and of the clock that it was rendered up to, or `Ended` of the
state and of the fault that ended the loop. -/
def Carried (Until : σ → ℕ → Prop) (Ended : σ → Fault → Prop) :
    Receiver × σ × Option Fault → Prop
  | (after, state, none) => Until state after.position
  | (_, state, some fault) => Ended state fault

/-- What the callback has to do with a block that starts at the clock. -/
def Takes (emit : σ → Decoded → σ × Option Fault) (limit : ℕ) (Until : σ → ℕ → Prop)
    (Ended : σ → Fault → Prop) : Prop :=
  ∀ state decoded, Until state decoded.position → decoded.samples / 2 ≤ maxFrames →
    decoded.position + maxFrames ≤ limit →
    ∀ after, (emit state decoded = (after, none) →
        Until after (decoded.position + decoded.samples / 2)) ∧
      ∀ fault, emit state decoded = (after, some fault) → Ended after fault

section
variable (takes : Takes emit limit Until Ended)
  (failed : ∀ s position fault, Until s position → (∀ error, fault ≠ .pcm error) → Ended s fault)
include takes failed

theorem turns_rule (now : ℕ) (answers : ℕ → Answer) (n : ℕ) (receiver : Receiver) (s : σ)
    (start : Until s receiver.position) (room : receiver.position + n * maxFrames ≤ limit) :
    Carried Until Ended (turns emit now answers n receiver s) := by
  induction n generalizing receiver s with
  | zero => exact start
  | succ n ih =>
    have standing := turn_standing receiver now (answers n)
    unfold turns
    cases turned : receiver.turn now (answers n) with
    | rest after =>
      rw [turned] at standing
      have still : after.position = receiver.position := standing
      change Until s after.position
      rwa [still]
    | fault fault after =>
      rw [turned] at standing
      exact failed s _ fault start standing
    | emit decoded concealed waiting =>
      rw [turned] at standing
      obtain ⟨here, short, still⟩ := standing
      rw [Nat.succ_mul] at room
      rcases sent : emit s decoded with ⟨after, fault⟩
      obtain ⟨took, ended⟩ := takes s decoded (here ▸ start) short (by omega) after
      cases fault with
      | some fault =>
        dsimp only
        rw [sent]
        exact ended fault sent
      | none =>
        have moved : (waiting.played (decoded.samples / 2) concealed).position =
            decoded.position + decoded.samples / 2 := by
          rw [here, ← still]
          rfl
        dsimp only
        rw [sent]
        apply ih
        · rw [moved]
          exact took sent
        · rw [moved]
          omega

theorem render_rule (later : ∀ s position more, Until s position → position ≤ more → Until s more)
    (receiver : Receiver) (epoch now : ℕ) (opened : Except String Unit) (answers : ℕ → Answer)
    (s : σ) (start : Until s receiver.position)
    (room : max receiver.position (positionAt epoch now) + turnLimit * maxFrames ≤ limit) :
    Carried Until Ended (render emit receiver epoch now opened answers s) := by
  have here := le_max_left receiver.position (positionAt epoch now)
  unfold render
  -- An unknown number of turns keeps the loop from being run in the comparison of goals.
  generalize turnLimit = n at room ⊢
  cases expects : receiver.expected with
  | some expected => exact turns_rule takes failed now answers n receiver s start (by omega)
  | none =>
    cases received : receiver.packets with
    | nil => exact start
    | cons first rest =>
      cases opened with
      | error error => exact failed s _ _ start (fun _ h => by cases h)
      | ok _ =>
        exact turns_rule takes failed now answers n (receiver.anchor epoch now first) s
          (later s _ _ start here) room

end

end Rules
end Receiver
end Chuzz.Webrtc
