import Chuzz.Library.Binary64

/-! Shared PCM blocks and the bounded buffer of an audio track. A time is a number of
nanoseconds; seconds are doubles, as exact rationals rounded where the code rounds. Samples
are present only through their number and whether all of them are finite. -/
namespace Chuzz.Audio
open Library.Binary64

/-- What a refused block is refused for, with the text that is reported. -/
inductive PcmError where
  | block
  | position
  | clock
  | format
  | generation
  | ended
  | overlap
deriving DecidableEq, Repr

def PcmError.message : PcmError → String
  | block => "InvalidStateError: invalid shared PCM block"
  | position => "InvalidStateError: PCM sample position overflow"
  | clock => "InvalidStateError: PCM timestamp exceeds the media clock"
  | format => "NotSupportedError: PCM format changed"
  | generation => "InvalidStateError: PCM generation ended"
  | ended => "InvalidStateError: PCM source ended"
  | overlap => "InvalidStateError: PCM timestamps overlap"

/-- `Duration::from_secs_f64` -/
def fromSecs (seconds : ℚ) : ℕ := (roundEven (seconds * 10 ^ 9)).toNat

/-- `Duration::as_secs_f64` -/
def asSecs (duration : ℕ) : ℚ :=
  nearest (nearest (duration / 10 ^ 9 : ℕ) + nearest ((duration % 10 ^ 9 : ℕ) / 10 ^ 9))

/-- `MediaTime::seconds` of nonnegative ticks -/
def seconds (ticks rate : ℕ) : ℚ := nearest (nearest ticks / rate)

def maxBlockFrames : ℕ := 12000

structure Pcm where
  sampleRate : ℕ
  channels : ℕ
  firstFrame : ℕ
  frames : ℕ
  generation : ℕ
  filled : 0 < frames
  bounded : frames ≤ maxBlockFrames
deriving DecidableEq, Repr

namespace Pcm

/-- `Pcm::new` of `samples` interleaved samples. -/
def new (sampleRate channels firstFrame generation samples : ℕ) (finite : Bool) :
    Except PcmError Pcm :=
  if invalid : ¬ (8000 ≤ sampleRate ∧ sampleRate ≤ 192000) ∨ ¬ (1 ≤ channels ∧ channels ≤ 32) ∨
      samples = 0 ∨ samples % channels ≠ 0 ∨ samples / channels > maxBlockFrames ∨ finite = false
  then throw .block
  else if 2 ^ 64 ≤ firstFrame + samples / channels then throw .position
  else if 2 ^ 63 ≤ firstFrame then throw .clock
  else .ok
    { sampleRate, channels, firstFrame, generation
      frames := samples / channels
      filled := by
        push Not at invalid
        exact Nat.div_pos (Nat.le_of_dvd (by omega) (Nat.dvd_of_mod_eq_zero invalid.2.2.2.1))
          invalid.2.1.1
      bounded := by
        push Not at invalid
        exact invalid.2.2.2.2.1 }

def start (pcm : Pcm) : ℕ := fromSecs (seconds pcm.firstFrame pcm.sampleRate)

def stop (pcm : Pcm) : ℕ := pcm.start + fromSecs (seconds pcm.frames pcm.sampleRate)

variable {sampleRate channels firstFrame generation samples : ℕ}

theorem new_spec {finite : Bool} {pcm : Pcm}
    (built : new sampleRate channels firstFrame generation samples finite = .ok pcm) :
    pcm.sampleRate = sampleRate ∧ pcm.channels = channels ∧ pcm.firstFrame = firstFrame ∧
      pcm.frames = samples / channels ∧ pcm.generation = generation := by
  unfold new at built
  split_ifs at built
  cases built
  exact ⟨rfl, rfl, rfl, rfl, rfl⟩

theorem new_not_overlap {finite : Bool} :
    new sampleRate channels firstFrame generation samples finite ≠ .error .overlap := by
  unfold new
  split_ifs <;> exact fun h => by cases h

end Pcm

/-- The last sample position whose clock is exact enough to tell neighbouring blocks apart. -/
def clockLimit : ℕ := 2 ^ 47

theorem fromSecs_seconds (ticks : ℕ) (small : ticks ≤ clockLimit) :
    (ticks : ℚ) * (62500 / 3) ≤ fromSecs (seconds ticks 48000) + 327 ∧
      (fromSecs (seconds ticks 48000) : ℚ) ≤ ticks * (62500 / 3) + 327 := by
  have limit : (ticks : ℚ) ≤ 2 ^ 47 := by exact_mod_cast small
  have exact : nearest (ticks : ℚ) = ticks :=
    nearest_natCast ticks (lt_of_le_of_lt small (by norm_num [clockLimit]))
  have nonneg : (0 : ℚ) ≤ ticks / (48000 : ℕ) := by positivity
  have rounded : |seconds ticks 48000 - ticks / (48000 : ℕ)| ≤ ticks / (48000 : ℕ) / 2 ^ 53 := by
    rw [seconds, exact]
    exact nearest_error nonneg
  have positive : 0 ≤ seconds ticks 48000 := by
    rw [seconds, exact]
    exact nearest_nonneg nonneg
  have whole := roundEven_error (seconds ticks 48000 * 10 ^ 9)
  rw [fromSecs]
  generalize roundEven (seconds ticks 48000 * 10 ^ 9) = nanos at whole ⊢
  generalize seconds ticks 48000 = time at rounded positive whole
  rw [abs_le] at rounded whole
  have counted : (0 : ℤ) ≤ nanos := by
    have above : (-1 : ℚ) < nanos := by linarith [whole.1]
    have : (-1 : ℤ) < nanos := by exact_mod_cast above
    omega
  have cast : (nanos.toNat : ℚ) = nanos := by
    rw [← Int.cast_natCast, Int.toNat_of_nonneg counted]
  constructor <;> linarith [rounded.1, rounded.2, whole.1, whole.2]

structure Buffer where
  sampleRate : ℕ := 48000
  channels : ℕ := 2
  ended : Bool := false
  blocks : List Pcm := []
deriving DecidableEq, Repr

namespace Buffer

def blockLimit : ℕ := 64

/-- `generation` is the current one. -/
def push (buffer : Buffer) (generation : ℕ) (pcm : Pcm) : Except PcmError Buffer :=
  if pcm.sampleRate ≠ buffer.sampleRate ∨ pcm.channels ≠ buffer.channels then throw .format
  else if pcm.generation ≠ generation then throw .generation
  else if buffer.ended then throw .ended
  else if buffer.blocks.getLast?.any fun previous =>
      pcm.start ≤ previous.start ∨ pcm.start + 1000 < previous.stop then throw .overlap
  else
    let kept := if buffer.blocks.length = blockLimit then buffer.blocks.drop 1 else buffer.blocks
    .ok { buffer with blocks := kept ++ [pcm] }

def close (buffer : Buffer) : Buffer := { buffer with blocks := [], ended := true }

/-- Every block is one of the receive clock and ends at `limit` or before. -/
def Within (buffer : Buffer) (limit : ℕ) : Prop :=
  ∀ pcm ∈ buffer.blocks, pcm.sampleRate = 48000 ∧ pcm.firstFrame + pcm.frames ≤ limit

variable {buffer : Buffer}

theorem Within.mono {limit later : ℕ} (within : buffer.Within limit)
    (more : limit ≤ later) : buffer.Within later :=
  fun pcm held => ⟨(within pcm held).1, le_trans (within pcm held).2 more⟩

theorem Within.close {limit : ℕ} : buffer.close.Within limit :=
  fun _ held => absurd held List.not_mem_nil

theorem Within.push {buffer after : Buffer} {limit generation : ℕ} {pcm : Pcm}
    (within : buffer.Within limit) (more : limit ≤ pcm.firstFrame) (rate : pcm.sampleRate = 48000)
    (pushed : buffer.push generation pcm = .ok after) :
    after.Within (pcm.firstFrame + pcm.frames) := by
  unfold Buffer.push at pushed
  split_ifs at pushed
  all_goals
    cases pushed
    intro block held
    rcases List.mem_append.mp held with old | new
    · have known := within block (by first | exact List.mem_of_mem_drop old | exact old)
      exact ⟨known.1, by omega⟩
    · rw [List.mem_singleton.mp new]
      exact ⟨rate, le_refl _⟩

/-- A block that starts where the last one ends, or later, is not refused as overlapping. -/
theorem push_not_overlap {limit generation : ℕ} {pcm : Pcm}
    (within : buffer.Within limit) (more : limit ≤ pcm.firstFrame) (rate : pcm.sampleRate = 48000)
    (small : pcm.firstFrame ≤ clockLimit) :
    buffer.push generation pcm ≠ .error .overlap := by
  have clear : ¬ (buffer.blocks.getLast?.any fun previous =>
      decide (pcm.start ≤ previous.start ∨ pcm.start + 1000 < previous.stop)) = true := by
    cases last : buffer.blocks.getLast? with
    | none => exact Bool.false_ne_true
    | some previous =>
      obtain ⟨same, ends⟩ := within previous (List.mem_of_getLast? last)
      have filled := previous.filled
      have bounded := previous.bounded
      rw [maxBlockFrames] at bounded
      have here := fromSecs_seconds pcm.firstFrame small
      have there := fromSecs_seconds previous.firstFrame (by omega)
      have long := fromSecs_seconds previous.frames (by unfold clockLimit; omega)
      have order : (previous.firstFrame : ℚ) + previous.frames ≤ pcm.firstFrame := by
        exact_mod_cast le_trans ends more
      have some : (1 : ℚ) ≤ previous.frames := by exact_mod_cast filled
      have later : previous.start < pcm.start := by
        rw [Pcm.start, Pcm.start, rate, same]
        have : (fromSecs (seconds previous.firstFrame 48000) : ℚ) <
            fromSecs (seconds pcm.firstFrame 48000) := by linarith [here.1, there.2]
        exact_mod_cast this
      have apart : previous.stop ≤ pcm.start + 1000 := by
        rw [Pcm.stop, Pcm.start, Pcm.start, rate, same]
        have : (fromSecs (seconds previous.firstFrame 48000) : ℚ) +
            fromSecs (seconds previous.frames 48000) ≤
              fromSecs (seconds pcm.firstFrame 48000) + 1000 := by
          linarith [here.1, there.2, long.2]
        exact_mod_cast this
      simp only [Option.any_some, decide_eq_true_eq]
      omega
  unfold Buffer.push
  split_ifs <;> exact fun h => by cases h

end Buffer
end Chuzz.Audio
