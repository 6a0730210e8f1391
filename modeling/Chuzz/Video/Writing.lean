import Chuzz.Video.BoxReading
import Chuzz.Video.Host

/-! Writing boxes and fragments, the inverse of reading them, and the
initialization segment of the repository's quality-assurance clip. -/
namespace Chuzz.Video

/-- The `count` low bytes of `value`, the highest first. -/
def be : (count : Nat) → (value : Nat) → Bytes
  | 0, _ => []
  | count + 1, value => (value / 256 ^ count).toUInt8 :: be count value

@[simp] theorem be_length (count value : Nat) : (be count value).length = count := by
  induction count with
  | zero => rfl
  | succ count ih => simp [be, ih]

theorem bigEndian_be (count value : Nat) : bigEndian (be count value) = value % 256 ^ count := by
  induction count with
  | zero => simp [be, bigEndian, Nat.mod_one]
  | succ count ih =>
    have byte : (value / 256 ^ count).toUInt8.toNat = value / 256 ^ count % 256 := by simp
    rw [be, bigEndian_cons, byte, be_length, ih, Nat.pow_succ, Nat.mod_mul, Nat.add_comm,
      Nat.mul_comm]

def box (kind body : Bytes) : Bytes := be 4 (8 + body.length) ++ kind ++ body

theorem announced_box {kind : Bytes} (four : kind.length = 4) (size : Nat) (least : 8 ≤ size)
    (limit : size ≤ maxBox) (rest : Bytes) :
    announced (be 4 size ++ kind ++ rest) = .size size 8 kind := by
  have value : bigEndian (slice (be 4 size ++ kind ++ rest) 0 4) = size := by
    rw [List.append_assoc, slice_append _ _ (by simp)]
    have whole : slice (be 4 size) 0 4 = be 4 size := by simp [slice, List.take_of_length_le]
    rw [whole, bigEndian_be, Nat.mod_eq_of_lt]
    simp only [maxBox] at limit
    omega
  have name : slice (be 4 size ++ kind ++ rest) 4 8 = kind := by
    rw [slice_append _ _ (by simp [four])]
    simp [slice, List.take_of_length_le (Nat.le_of_eq four)]
  have long : ¬ (be 4 size ++ kind ++ rest).length < 8 := by
    simp [four]
    omega
  simp only [announced, if_neg long, value, name]
  rw [if_neg (by omega), if_neg (by omega), if_neg (by omega)]

theorem boxAt_box {kind : Bytes} (four : kind.length = 4) (before body rest : Bytes)
    (limit : 8 + body.length ≤ maxBox) :
    boxAt (before ++ (box kind body ++ rest)) before.length =
      .ok (some { kind, start := before.length, header := 8,
                  stop := before.length + (8 + body.length) }) := by
  rw [boxAt_announced, List.drop_left, box, List.append_assoc, announced_box four _ (by omega) limit]
  simp only
  rw [if_neg (by simp [four]; omega)]

/-- A `moof` with one run for one track, each sample `delta` long, and its `mdat`.
A frame is its payload and whether it is a sync sample. -/
def fragment (track dts delta : Nat) (frames : List (Bytes × Bool)) : Bytes :=
  let tfhd := box (fourCC 't' 'f' 'h' 'd') (be 4 0x020000 ++ be 4 track)
  let tfdt := box (fourCC 't' 'f' 'd' 't') (be 4 0x01000000 ++ be 8 dts)
  let trun := box (fourCC 't' 'r' 'u' 'n')
    (be 4 0x701 ++ be 4 frames.length ++ be 4 (80 + 12 * frames.length) ++
      frames.flatMap fun (data, sync) =>
        be 4 delta ++ be 4 data.length ++ be 4 (if sync then 0 else 0x10000))
  box (fourCC 'm' 'o' 'o' 'f') (box (fourCC 't' 'r' 'a' 'f') (tfhd ++ tfdt ++ trun)) ++
    box (fourCC 'm' 'd' 'a' 't') (frames.flatMap Prod.fst)

/-- `qa/clip/init.mp4`: H.264 video in track 1 and AAC-LC audio in track 2. -/
def clipInit : Bytes :=
  [(45, 0x0000001c6674797069736f350000000169736f6d69736f35686c7366000004516d6f6f760000006c6d76686400),
    (45, 0x000000e6ef0caae6ef0caa0000bb80000000000001000001000000000000000000000000010000000000000000),
    (45, 0x000000000000000100000000000000000000000000004000000000000000000000000000000000000000000000),
    (45, 0x000000000000000003000001e97472616b0000005c746b686400000001e6ef0caae6ef0caa0000000100000000),
    (45, 0x000000000000000000000000000000000000000000010000000000000000000000000000000100000000000000),
    (45, 0x00000000000000400000000140000000b40000000001856d646961000000206d64686400000000e6ef0caae6ef),
    (45, 0x0caa000002580000000055c400000000003168646c720000000000000000766964650000000000000000000000),
    (45, 0x00436f7265204d6564696120566964656f000000012c6d696e6600000014766d68640000000100000000000000),
    (45, 0x000000002464696e660000001c6472656600000000000000010000000c75726c2000000001000000ec7374626c),
    (45, 0x000000a07374736400000000000000010000009061766331000000000000000100000000000000000000000000),
    (45, 0x000000014000b40048000000480000000000000001000000000000000000000000000000000000000000000000),
    (45, 0x00000000000000000018ffff00000026617663430164000dffe1000b2764000dac56281419f9d001000428ee3c),
    (45, 0xb0fdf8f8000000000a6669656c01000000000a6368726d00000000001073747473000000000000000000000010),
    (45, 0x737473630000000000000000000000147374737a000000000000000000000000000000107374636f0000000000),
    (45, 0x000000000001ac7472616b0000005c746b686400000001e6ef0caae6ef0caa0000000200000000000000000000),
    (45, 0x000000000000000000000100000000010000000000000000000000000000000100000000000000000000000000),
    (45, 0x00400000000000000000000000000001486d646961000000206d64686400000000e6ef0caae6ef0caa0000bb80),
    (45, 0x0000000055c400000000003168646c720000000000000000736f756e000000000000000000000000436f726520),
    (45, 0x4d6564696120417564696f00000000ef6d696e6600000010736d686400000000000000000000002464696e6600),
    (45, 0x00001c6472656600000000000000010000000c75726c2000000001000000b37374626c00000067737473640000),
    (45, 0x000000000001000000576d703461000000000000000100000000000000000002001000000000bb800000000000),
    (45, 0x3365736473000000000380808022000000048080801440140018000000fa000000fa0005808080021188068080),
    (45, 0x8001020000001073747473000000000000000000000010737473630000000000000000000000147374737a0000),
    (45, 0x00000000000000000000000000107374636f0000000000000000000000486d7665780000002074726578000000),
    (45, 0x000000000100000001000000000000000000000000000000207472657800000000000000020000000100000000),
    (8, 0x0000000000000000)].flatMap fun (count, value) => be count value

/-- The same segment without its audio track. -/
def clipVideoInit : Bytes :=
  clipInit.take 28 ++ box (fourCC 'm' 'o' 'o' 'v') (slice clipInit 36 633 ++
    box (fourCC 'm' 'v' 'e' 'x') (slice clipInit 1069 1101))

def clipVideoTrack : Mp4Track where
  trackType := .video
  trackId := some 1
  timescale := some 600
  stsd := some [.video
    { protectionInfo := 0
      avcConfig := some (be 30 0x0164000dffe1000b2764000dac56281419f9d001000428ee3cb0fdf8f800)
      width := 320
      height := 180 }]

def clipAudioTrack : Mp4Track where
  trackType := .audio
  trackId := some 2
  timescale := some 48000
  stsd := some [.audio
    { protectionInfo := 0
      esds := some
        { audioObjectType := some 2
          extendedAudioObjectType := none
          decoderSpecificData := [0x11, 0x88]
          audioSampleRate := some 48000 } }]

/-- What the reader reports for the two initialization segments. -/
def readClip : ReadMp4 := fun bytes =>
  if bytes = clipInit then .ok { mvex := true, tracks := [clipVideoTrack, clipAudioTrack] }
  else if bytes = clipVideoInit then .ok { mvex := true, tracks := [clipVideoTrack] }
  else .error "InvalidData"

/-- A page attaches a source and gives it one buffer for the clip. -/
def attachClip : List Call :=
  [.control { op := .open, source := 1 },
    .control { op := .add, source := 1, buffer := 1,
               mime := "video/mp4; codecs=\"avc1.64000d, mp4a.40.2\"" }]

/-- A page stages bytes under the next `handle` and appends them. -/
def appendClip (handle : Nat) (bytes : Bytes) : List Call :=
  [.put bytes 0 bytes.length,
    .control { op := .append, source := 1, buffer := 1, handle := some handle }]

end Chuzz.Video
