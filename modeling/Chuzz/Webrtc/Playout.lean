import Chuzz.Library.Transition
import Chuzz.Webrtc.Engine
import Chuzz.Webrtc.Receiver

/-! Audio playout of one slot of the peer. Opus packets wait in a receiver with a clock of its
own; PCMU packets are written when they come. Both write into the track that is bound, and the
peer ends when the track refuses a block. -/
namespace Chuzz.Webrtc
open Library.Transition Chuzz.Audio

/-- The samples of a block: where it starts and how many there are. -/
structure Block where
  position : ℕ
  frames : ℕ
deriving DecidableEq, Repr

def Block.stop (block : Block) : ℕ := block.position + block.frames

/-- What `push` borrows of the slot; `pushed` is the history of its calls. -/
structure Sink where
  next : ℕ
  output : Buffer
  pushed : List Block
deriving DecidableEq, Repr

def Sink.push (generation : ℕ) (sink : Sink) (decoded : Decoded) : Sink × Option Fault :=
  let sink := { sink with pushed := sink.pushed ++ [⟨decoded.position, decoded.samples / 2⟩] }
  match Pcm.new rate 2 decoded.position generation decoded.samples decoded.finite with
  | .error error => (sink, some (.pcm error))
  | .ok pcm =>
    match sink.output.push generation pcm with
    | .error error => (sink, some (.pcm error))
    | .ok output => ({ sink with output, next := decoded.position + pcm.frames }, none)

namespace Sink

def Ordered (pushed : List Block) : Prop :=
  pushed.Pairwise fun earlier later => earlier.stop ≤ later.position

/-- Everything that was written ends before `position`, and nothing was taken back since
`base` was the end of it. -/
structure Ready (base : ℕ) (sink : Sink) (position : ℕ) : Prop where
  ordered : Ordered sink.pushed
  ended : ∀ block ∈ sink.pushed, block.stop ≤ sink.next
  within : sink.output.Within sink.next
  base : base ≤ sink.next
  ahead : sink.next ≤ position

/-- What is left of it when a fault has ended playout. -/
structure Over (base : ℕ) (sink : Sink) (fault : Fault) : Prop where
  ordered : Ordered sink.pushed
  within : sink.output.Within sink.next
  base : base ≤ sink.next
  accepted : fault ≠ .pcm .overlap

variable {base position : ℕ} {sink : Sink} {decoded : Decoded}

theorem Ready.later {more : ℕ} (ready : sink.Ready base position) (least : position ≤ more) :
    sink.Ready base more :=
  { ready with ahead := le_trans ready.ahead least }

theorem Ready.past {fault : Fault} (ready : sink.Ready base position)
    (outside : ∀ error, fault ≠ .pcm error) : sink.Over base fault :=
  { ready with accepted := outside _ }

theorem Ready.ordered_push (ready : sink.Ready base decoded.position) :
    Ordered (sink.pushed ++ [⟨decoded.position, decoded.samples / 2⟩]) := by
  apply List.pairwise_append.mpr
  refine ⟨ready.ordered, List.pairwise_singleton _ _, fun earlier held later new => ?_⟩
  rw [List.mem_singleton.mp new]
  exact le_trans (ready.ended earlier held) ready.ahead

/-- A block at or after the end of what was written is taken, or refused for another reason
than an overlap. -/
theorem push_spec (generation : ℕ) (ready : sink.Ready base decoded.position)
    (small : decoded.position ≤ clockLimit) (after : Sink) :
    (sink.push generation decoded = (after, none) →
        after.Ready base (decoded.position + decoded.samples / 2)) ∧
      ∀ fault, sink.push generation decoded = (after, some fault) → after.Over base fault := by
  unfold push
  cases built : Pcm.new rate 2 decoded.position generation decoded.samples decoded.finite with
  | error error =>
    refine ⟨(fun h => by cases h), fun fault h => ?_⟩
    cases h
    refine ⟨ready.ordered_push, ready.within, ready.base, fun overlap => ?_⟩
    rw [(Fault.pcm.injEq _ _).mp overlap] at built
    exact Pcm.new_not_overlap built
  | ok pcm =>
    obtain ⟨same, -, first, frames, -⟩ := Pcm.new_spec built
    have more : sink.next ≤ pcm.firstFrame := first.symm ▸ ready.ahead
    cases pushed : sink.output.push generation pcm with
    | error error =>
      dsimp only
      rw [pushed]
      refine ⟨(fun h => by cases h), fun fault h => ?_⟩
      cases h
      refine ⟨ready.ordered_push, ready.within, ready.base, fun overlap => ?_⟩
      rw [(Fault.pcm.injEq _ _).mp overlap] at pushed
      exact Buffer.push_not_overlap ready.within more same (first.symm ▸ small) pushed
    | ok output =>
      dsimp only
      rw [pushed]
      refine ⟨fun h => ?_, (fun fault h => by cases h)⟩
      cases h
      have stop : decoded.position + pcm.frames = pcm.firstFrame + pcm.frames := by rw [first]
      refine
        { ordered := ready.ordered_push
          ended := fun block held => ?_
          within := stop ▸ ready.within.push more same pushed
          base := ?_
          ahead := by rw [frames] }
      · rcases List.mem_append.mp held with old | new
        · have := ready.ended block old
          dsimp only
          omega
        · rw [List.mem_singleton.mp new, frames]
          exact le_refl _
      · have := ready.base
        dsimp only
        omega

theorem push_takes (base generation : ℕ) :
    Receiver.Takes (Sink.push generation) clockLimit (fun sink position => sink.Ready base position)
      (fun sink fault => sink.Over base fault) :=
  fun _ _ ready _ room after => push_spec generation ready (by omega) after

end Sink

/-- A receiver's track, with the buffer that is its own. -/
structure Output where
  buffer : Buffer := {}
  stopped : Bool := false
deriving DecidableEq, Repr

/-- Data that str0m hands over. The timestamp counts at 48 kHz. -/
structure MediaData where
  payload : ℕ
  opus : Bool
  timestamp : ℕ
  networkTime : ℕ
  bytes : List UInt8

/-- What playout reads and writes of the peer and of one of its slots. The outputs are those
that the page may bind to the slot; none is bound to another. -/
structure Player where
  epoch : ℕ
  generation : ℕ := 1
  connected : Bool := false
  /-- Whether the current direction receives. -/
  receiving : Bool := false
  codecs : List AudioCodec := []
  outputs : ℕ → Output := fun _ => {}
  bound : Option ℕ := none
  next : ℕ := 0
  receive : Option Receiver := none
  pushed : List Block := []
  closed : Bool := false
  failure : Option Fault := none

inductive PlayerEvent where
  | connect
  | settle (receiving : Bool)
  /-- `commit_codecs` with the slot's section of the answer and the remote one. -/
  | commit (part remote : Section)
  | bind (output : ℕ)
  | stop (output : ℕ)
  | endSource (output : ℕ)
  /-- `opened` is what the codec answers where a receiver has to be made. -/
  | media (data : MediaData) (opened : Except String Unit)
  | playout (now : ℕ) (opened : Except String Unit) (answers : ℕ → Answer)
  | close

namespace Player

def opusPayload (codecs : List AudioCodec) : Option ℕ :=
  (codecs.find? (·.opus)).map (·.payloadType)

def commitCodecs (player : Player) (part remote : Section) : Player :=
  let codecs := Engine.negotiated part remote
  { player with
    codecs
    receive := if opusPayload player.codecs ≠ opusPayload codecs then none else player.receive }

def modifyOutput (player : Player) (output : ℕ) (change : Output → Output) : Player :=
  { player with
    outputs := Function.update player.outputs output (change (player.outputs output)) }

def sink (player : Player) (output : ℕ) : Sink :=
  { next := player.next, output := (player.outputs output).buffer, pushed := player.pushed }

/-- The slot once a sink over one of its outputs has been used. -/
def flush (player : Player) (output : ℕ) (sink : Sink) (failure : Option Fault) : Player :=
  { player.modifyOutput output ({ · with buffer := sink.output }) with
    next := sink.next, pushed := sink.pushed, failure }

/-- The codec and the output of data that is played, if it is. -/
def admitted (player : Player) (data : MediaData) : Option (AudioCodec × ℕ) :=
  if player.receiving then
    match player.codecs.find? fun codec =>
        data.payload = codec.payloadType ∧ codec.opus = data.opus, player.bound with
    | some codec, some output =>
      if (player.outputs output).stopped then none else some (codec, output)
    | _, _ => none
  else none

/-- The receiver that is held, or else a new one. -/
def receiver (player : Player) (opened : Except String Unit) : Except String Receiver :=
  match player.receive, opened with
  | some receiver, _ => .ok receiver
  | none, .error error => .error error
  | none, .ok () => .ok { position := player.next, fec := true }

def opus (player : Player) (data : MediaData) (opened : Except String Unit) : Player :=
  match player.receiver opened with
  | .error error => { player with failure := some (.opus error) }
  | .ok receiver =>
    match receiver.enqueue data.timestamp data.bytes with
    | .error _ => { player with receive := some receiver }
    | .ok receiver => { player with receive := some receiver }

/-- The block of a PCMU packet, a sample a byte, resampled from 8 kHz. -/
def pcmuBlock (player : Player) (data : MediaData) : Block where
  position := max (positionAt player.epoch data.networkTime) player.next
  frames := data.bytes.length * rate / 8000

/-- What `resample_block` makes of the decoded packet. -/
def resampled (player : Player) (data : MediaData) (pcm : Pcm) : Decoded where
  position := (player.pcmuBlock data).position
  samples := pcm.frames * rate / pcm.sampleRate * 2

def pcmuLimit : ℕ := 2000

def pcmu (player : Player) (data : MediaData) (output : ℕ) : Player :=
  if data.bytes = [] ∨ pcmuLimit < data.bytes.length then player
  else
    match Pcm.new 8000 1 0 player.generation data.bytes.length true with
    | .error error => { player with failure := some (.pcm error) }
    | .ok pcm =>
      let (sink, failure) :=
        (player.sink output).push player.generation (player.resampled data pcm)
      player.flush output sink failure

def media (player : Player) (data : MediaData) (opened : Except String Unit) : Player :=
  match player.admitted data with
  | none => player
  | some (codec, output) =>
    if codec.opus then player.opus data opened else player.pcmu data output

def playout (player : Player) (now : ℕ) (opened : Except String Unit) (answers : ℕ → Answer) :
    Player :=
  match player.receive, player.bound with
  | some receiver, some output =>
    if player.connected ∧ player.receiving ∧ ¬ (player.outputs output).stopped then
      let (receiver, sink, failure) := receiver.render (Sink.push player.generation)
        player.epoch now opened answers (player.sink output)
      { player.flush output sink failure with receive := some receiver }
    else player
  | _, _ => player

def step (player : Player) (event : PlayerEvent) : Player :=
  if player.closed ∨ player.failure.isSome then player
  else match event with
    | .connect => { player with connected := true }
    | .settle receiving => { player with receiving }
    | .commit part remote => player.commitCodecs part remote
    | .bind output => { player with bound := some output }
    | .stop output => player.modifyOutput output ({ · with stopped := true })
    | .endSource output =>
      player.modifyOutput output fun held => { held with buffer := held.buffer.close }
    | .media data opened => player.media data opened
    | .playout now opened answers => player.playout now opened answers
    | .close => { player with closed := true, generation := player.generation + 1 }

/-- A PCMU block is written only where it ends before the clock of a receiver that is held,
and no block ends past the limit of the clock. -/
def apart (player : Player) : PlayerEvent → Bool
  | .media data _ =>
    match player.admitted data with
    | some (codec, _) =>
      codec.opus || (player.pcmuBlock data).stop ≤ clockLimit &&
        player.receive.all ((player.pcmuBlock data).stop ≤ ·.position)
    | none => true
  | .playout now _ _ => player.receive.all fun receiver =>
      max receiver.position (positionAt player.epoch now) +
        Receiver.turnLimit * maxFrames ≤ clockLimit
  | _ => true

/-- Every block, in the history or in a buffer, ends where the slot's next one may start, and
the clock of a receiver that is held has not fallen behind. -/
structure Sound (player : Player) : Prop where
  ordered : Sink.Ordered player.pushed
  ended : player.failure = none → ∀ block ∈ player.pushed, block.stop ≤ player.next
  within : ∀ output, (player.outputs output).buffer.Within player.next
  ahead : player.failure = none → ∀ receiver ∈ player.receive, player.next ≤ receiver.position
  accepted : player.failure ≠ some (.pcm .overlap)

section Preservation
variable {player : Player} {output : ℕ} {after : Sink}

section
variable (sound : player.Sound)
include sound

theorem Sound.ready (output : ℕ) (running : player.failure = none) {position : ℕ}
    (ahead : player.next ≤ position) :
    (player.sink output).Ready player.next position where
  ordered := sound.ordered
  ended := sound.ended running
  within := sound.within output
  base := le_refl _
  ahead := ahead

theorem Sound.within_flush (base : player.next ≤ after.next)
    (within : after.output.Within after.next) (failure : Option Fault) (any : ℕ) :
    ((player.flush output after failure).outputs any).buffer.Within after.next := by
  change (Function.update player.outputs output _ any).buffer.Within _
  rcases eq_or_ne any output with rfl | other
  · rw [Function.update_self]
    exact within
  · rw [Function.update_of_ne other]
    exact (sound.within any).mono base

theorem Sound.flush_ready {position : ℕ}
    (ready : after.Ready player.next position) (receive : Option Receiver)
    (ahead : ∀ receiver ∈ receive, after.next ≤ receiver.position) :
    Sound { player.flush output after none with receive } where
  ordered := ready.ordered
  ended := fun _ => ready.ended
  within := sound.within_flush ready.base ready.within none
  ahead := fun _ => ahead
  accepted := fun h => by cases h

theorem Sound.flush_over {fault : Fault}
    (past : after.Over player.next fault) (receive : Option Receiver) :
    Sound { player.flush output after (some fault) with receive } where
  ordered := past.ordered
  ended := fun h => by cases h
  within := sound.within_flush past.base past.within (some fault)
  ahead := fun h => by cases h
  accepted := fun overlap => past.accepted (Option.some.inj overlap)

theorem Sound.modifyOutput (change : Output → Output)
    (kept : ∀ held limit, held.buffer.Within limit → (change held).buffer.Within limit) :
    (player.modifyOutput output change).Sound := by
  refine { sound with within := fun any => ?_ }
  change (Function.update player.outputs output _ any).buffer.Within _
  rcases eq_or_ne any output with rfl | other
  · rw [Function.update_self]
    exact kept _ _ (sound.within any)
  · rw [Function.update_of_ne other]
    exact sound.within any

theorem Sound.receive {receive : Option Receiver}
    (ahead : player.failure = none → ∀ receiver ∈ receive, player.next ≤ receiver.position) :
    Sound { player with receive } :=
  { sound with ahead }

theorem Sound.fail (fault : Fault) (outside : fault ≠ .pcm .overlap) :
    Sound { player with failure := some fault } :=
  { sound with
    ended := fun h => by cases h
    ahead := fun h => by cases h
    accepted := fun overlap => outside (Option.some.inj overlap) }

theorem Sound.commitCodecs (part remote : Section) : (player.commitCodecs part remote).Sound := by
  refine { sound with ahead := fun running receiver held => ?_ }
  change receiver ∈ (if _ then none else player.receive) at held
  split at held
  · cases held
  · exact sound.ahead running receiver held

variable {opened : Except String Unit}

theorem Sound.receiver (running : player.failure = none) {receiver : Receiver}
    (made : player.receiver opened = .ok receiver) : player.next ≤ receiver.position := by
  unfold Player.receiver at made
  split at made
  · rename_i held
    cases made
    exact sound.ahead running receiver held
  · cases made
  · cases made
    exact le_refl _

theorem Sound.opus (running : player.failure = none) (data : MediaData)
    (opened : Except String Unit) : (player.opus data opened).Sound := by
  unfold Player.opus
  cases made : player.receiver opened with
  | error error => exact sound.fail (.opus error) (fun h => by cases h)
  | ok receiver =>
    have ahead := sound.receiver running made
    cases taken : receiver.enqueue data.timestamp data.bytes with
    | error error =>
      dsimp only
      rw [taken]
      refine sound.receive fun _ held same => ?_
      rwa [← Option.some.inj same]
    | ok after =>
      dsimp only
      rw [taken]
      refine sound.receive fun _ held same => ?_
      rwa [← Option.some.inj same, Receiver.enqueue_position taken]

theorem Sound.pcmu (running : player.failure = none) {data : MediaData}
    (small : (player.pcmuBlock data).stop ≤ clockLimit)
    (ahead : ∀ receiver ∈ player.receive, (player.pcmuBlock data).stop ≤ receiver.position) :
    (player.pcmu data output).Sound := by
  unfold Player.pcmu
  split
  · exact sound
  · cases built : Pcm.new 8000 1 0 player.generation data.bytes.length true with
    | error error =>
      refine sound.fail (.pcm error) fun overlap => ?_
      rw [(Fault.pcm.injEq _ _).mp overlap] at built
      exact Pcm.new_not_overlap built
    | ok pcm =>
      obtain ⟨same, -, -, frames, -⟩ := Pcm.new_spec built
      rw [Nat.div_one] at frames
      have start : player.next ≤ (player.pcmuBlock data).position := le_max_right _ _
      have early : (player.pcmuBlock data).position ≤ clockLimit :=
        le_trans (Nat.le_add_right _ _) small
      have counted : (player.resampled data pcm).samples / 2 = (player.pcmuBlock data).frames := by
        rw [resampled, Nat.mul_div_cancel _ (by decide), same, frames]
        rfl
      have position : (player.resampled data pcm).position = (player.pcmuBlock data).position :=
        rfl
      dsimp only
      generalize player.resampled data pcm = decoded at counted position ⊢
      rw [← position] at start early
      rcases sent : (player.sink output).push player.generation decoded with ⟨after, fault⟩
      have spec := Sink.push_spec player.generation (sound.ready output running start) early after
      cases fault with
      | none =>
        have ready := spec.1 sent
        rw [position, counted] at ready
        exact sound.flush_ready ready player.receive
          fun receiver held => le_trans ready.ahead (ahead receiver held)
      | some fault => exact sound.flush_over (spec.2 fault sent) player.receive

theorem Sound.playout (running : player.failure = none) (now : ℕ)
    (opened : Except String Unit) (answers : ℕ → Answer)
    (room : ∀ receiver ∈ player.receive, max receiver.position (positionAt player.epoch now) +
      Receiver.turnLimit * maxFrames ≤ clockLimit) :
    (player.playout now opened answers).Sound := by
  unfold Player.playout
  cases held : player.receive with
  | none => exact sound
  | some receiver =>
    cases bound : player.bound with
    | none => exact sound
    | some output =>
      dsimp only
      split
      · have carried := Receiver.render_rule
          (Sink.push_takes player.next player.generation)
          (fun _ _ _ ready outside => ready.past outside)
          (fun _ _ _ ready least => ready.later least)
          receiver player.epoch now opened answers (player.sink output)
          (sound.ready output running (sound.ahead running receiver held)) (room receiver held)
        generalize receiver.render _ _ now opened answers _ = result at carried ⊢
        obtain ⟨after, sink, fault⟩ := result
        cases fault with
        | none =>
          have ready : sink.Ready player.next after.position := carried
          refine sound.flush_ready ready (some after) fun last same => ?_
          rw [← Option.some.inj same]
          exact ready.ahead
        | some fault => exact sound.flush_over carried (some after)
      · exact sound

theorem Sound.media (running : player.failure = none) {data : MediaData}
    (apart : player.apart (.media data opened)) :
    (player.media data opened).Sound := by
  unfold Player.apart at apart
  unfold Player.media
  dsimp only at apart
  cases plays : player.admitted data with
  | none => exact sound
  | some played =>
    obtain ⟨codec, output⟩ := played
    rw [plays] at apart
    dsimp only at apart ⊢
    split
    · exact sound.opus running data opened
    · rename_i other
      rw [Bool.eq_false_iff.mpr other, Bool.false_or, Bool.and_eq_true, decide_eq_true_eq,
        Option.all_eq_true] at apart
      exact sound.pcmu running apart.1 fun receiver held =>
        of_decide_eq_true (apart.2 receiver held)

theorem Sound.step (event : PlayerEvent) (apart : player.apart event) :
    (player.step event).Sound := by
  unfold Player.step
  split
  · exact sound
  · rename_i going
    have running : player.failure = none := by
      rw [not_or] at going
      exact Option.not_isSome_iff_eq_none.mp going.2
    cases event with
    | connect => exact { sound with }
    | settle receiving => exact { sound with }
    | commit part remote => exact sound.commitCodecs part remote
    | bind output => exact { sound with }
    | stop output => exact sound.modifyOutput _ fun _ _ within => within
    | endSource output => exact sound.modifyOutput _ fun _ _ _ => Buffer.Within.close
    | media data opened => exact sound.media running apart
    | playout now opened answers =>
      apply sound.playout running now opened answers
      intro receiver held
      unfold Player.apart at apart
      rw [Option.all_eq_true] at apart
      exact of_decide_eq_true (apart receiver held)
    | close => exact { sound with }

end

end Preservation

theorem sound_start (epoch : ℕ) : Sound { epoch } where
  ordered := List.Pairwise.nil
  ended := fun _ _ held => absurd held List.not_mem_nil
  within := fun _ _ held => absurd held List.not_mem_nil
  ahead := fun _ _ held => by cases held
  accepted := fun h => by cases h

/-- Every run of a slot that is apart in each of its steps. -/
abbrev Reached : Player → Prop :=
  Reachable (fun player => ∃ epoch, player = { epoch })
    (restrict (fun player event after => player.step event = after)
      fun player event => player.apart event)

theorem Reached.sound {player : Player} (reached : Reached player) : player.Sound := by
  apply Reachable.invariant _ _ reached
  · rintro _ ⟨epoch, rfl⟩
    exact sound_start epoch
  · rintro before event _ - sound ⟨rfl, apart⟩
    exact sound.step event apart

/-- Each block starts at or after the end of every earlier one, and none is refused for
overlapping another. -/
theorem reached_playout {player : Player} (reached : Reached player) :
    Sink.Ordered player.pushed ∧ player.failure ≠ some (.pcm .overlap) :=
  ⟨reached.sound.ordered, reached.sound.accepted⟩

section Samples

def opusCodec : AudioCodec := { payloadType := 111, opus := true, fmtp := [] }

def pcmuCodec : AudioCodec := { payloadType := 0, fmtp := [] }

def speaking (codecs : List AudioCodec) : PlayerEvent := .commit { codecs } { codecs }

/-- Twenty milliseconds in one frame. -/
def opusPacket (timestamp networkTime : ℕ) : PlayerEvent :=
  .media ⟨111, true, timestamp, networkTime, [248, 0]⟩ (.ok ())

def pcmuPacket (networkTime : ℕ) : PlayerEvent :=
  .media ⟨0, false, 0, networkTime, List.replicate 160 255⟩ (.ok ())

def rendering (now : ℕ) : PlayerEvent := .playout now (.ok ()) fun _ => { result := .ok 960 }

def opening (codecs : List AudioCodec) : List PlayerEvent :=
  [.connect, .settle true, .bind 0, speaking codecs, opusPacket 0 0, rendering 0,
    rendering 60000000]

/-- The codec is renegotiated before its packets come, and back again. -/
def renegotiated : List PlayerEvent :=
  opening [opusCodec] ++ [speaking [pcmuCodec], pcmuPacket 60000000, speaking [opusCodec],
    opusPacket 9600 200000000, rendering 200000000, rendering 260000000]

example : (step { epoch := 0 } (rendering 0)).pushed = [] := by decide +kernel

/-- Both codecs are negotiated, and the sender changes over. -/
def changedOver : List PlayerEvent :=
  opening [opusCodec, pcmuCodec] ++ [pcmuPacket 60000000, rendering 80000000]

theorem reached_playout_renegotiated :
    Sink.Ordered (renegotiated.foldl step { epoch := 0 }).pushed ∧
      (renegotiated.foldl step { epoch := 0 }).failure ≠ some (.pcm .overlap) := by
  apply reached_playout
  apply Reachable.run_meeting renegotiated (.start ⟨0, rfl⟩)
  decide +kernel

/-- The receiver conceals on from its own clock, behind the PCMU block. -/
theorem not_ordered_changedOver :
    ∃ player : Player, Reachable (fun player => ∃ epoch, player = { epoch })
        (fun player event after => player.step event = after) player ∧
      player.pushed = [⟨3840, 960⟩, ⟨6720, 960⟩, ⟨4800, 960⟩] ∧
      ¬ Sink.Ordered player.pushed ∧ player.failure = some (.pcm .overlap) := by
  have pushed : (changedOver.foldl step { epoch := 0 }).pushed =
      [⟨3840, 960⟩, ⟨6720, 960⟩, ⟨4800, 960⟩] := by decide +kernel
  refine ⟨_, Reachable.run changedOver (.start ⟨0, rfl⟩), pushed, ?_, by decide +kernel⟩
  rw [pushed, Sink.Ordered]
  decide

end Samples

end Player
end Chuzz.Webrtc
