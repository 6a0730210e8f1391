import Chuzz.Webrtc.Sdp

/-! What a description says of the MIDs and directions of its sections, line by line, and that
the two rewritings of a text keep it: `answer` writes a direction over every direction line,
and `local` touches neither. -/
namespace Chuzz.Webrtc
open Library List
local instance lawfulLine : LawfulBEq (List Char) := inferInstance

namespace Text

theorem trimEndMatches_idem (c : Char) (value : Text) :
    trimEndMatches c (trimEndMatches c value) = trimEndMatches c value := by
  unfold trimEndMatches
  rw [reverse_reverse, dropWhile_idempotent]

theorem mem_trimEndMatches {c d : Char} {value : Text} (member : d ∈ trimEndMatches c value) :
    d ∈ value := by
  rw [trimEndMatches, mem_reverse] at member
  exact mem_reverse.mp ((dropWhile_sublist _).mem member)

theorem not_mem_splitOnP {selects : Char → Bool} {value piece : Text}
    (member : piece ∈ value.splitOnP selects) : ∀ c ∈ piece, selects c = false := by
  induction value generalizing piece with
  | nil =>
    rw [splitOnP_nil, mem_singleton] at member
    rw [member]
    exact fun _ inside => absurd inside not_mem_nil
  | cons first rest ih =>
    rw [splitOnP_cons_eq_if_modifyHead] at member
    split at member
    · rcases mem_cons.mp member with rfl | later
      · exact fun _ inside => absurd inside not_mem_nil
      · exact ih later
    · rename_i other
      cases pieces : rest.splitOnP selects with
      | nil => exact absurd pieces (splitOnP_ne_nil _ _)
      | cons head tail =>
        rw [pieces, modifyHead_cons] at member
        rcases mem_cons.mp member with rfl | later
        · exact forall_mem_cons.mpr
            ⟨Bool.eq_false_iff.mpr other, ih (pieces ▸ mem_cons_self)⟩
        · exact ih (pieces ▸ mem_cons_of_mem _ later)

theorem not_mem_splitOn {a : Char} {value piece : Text} (member : piece ∈ value.splitOn a) :
    a ∉ piece := by
  intro inside
  have := not_mem_splitOnP member a inside
  rw [beq_self_eq_true] at this
  cases this

theorem not_mem_lines {value line : Text} (member : line ∈ value.lines) : '\n' ∉ line := by
  have terminated : ∀ piece ∈ (value.splitOn '\n').dropLast.map fun line =>
      if line.getLast? = some '\r' then line.dropLast else line, '\n' ∉ piece := by
    intro piece held
    obtain ⟨whole, there, rfl⟩ := mem_map.mp held
    have clear := not_mem_splitOn ((dropLast_sublist _).mem there)
    split
    · exact fun inside => clear ((dropLast_sublist _).mem inside)
    · exact clear
  unfold lines at member
  cases last : (value.splitOn '\n').getLast? with
  | none => exact terminated line (by simpa only [last] using member)
  | some piece =>
    cases piece with
    | nil => exact terminated line (by simpa only [last] using member)
    | cons first rest =>
      simp only [last] at member
      rcases mem_append.mp member with held | final
      · exact terminated line held
      · rw [mem_singleton.mp final]
        exact not_mem_splitOn (mem_of_getLast? last)

def crlf : Text := text "\r\n"

theorem lines_flatMap {ls : List Text} (whole : ∀ line ∈ ls, '\n' ∉ line) :
    lines (ls.flatMap (· ++ crlf)) = ls := by
  have pieces : (ls.flatMap (· ++ crlf)).splitOn '\n' = ls.map (· ++ ['\r']) ++ [[]] := by
    induction ls with
    | nil => rfl
    | cons line rest ih =>
      have clear : '\n' ∉ line ++ ['\r'] := by
        rw [mem_append, not_or]
        exact ⟨whole line mem_cons_self, by decide⟩
      have shape : (line :: rest).flatMap (· ++ crlf) =
          (line ++ ['\r']) ++ '\n' :: rest.flatMap (· ++ crlf) := by
        rw [flatMap_cons, append_assoc, append_assoc]
        rfl
      rw [shape, splitOn_append_cons_self_of_not_mem clear,
        ih fun later member => whole later (mem_cons_of_mem _ member)]
      rfl
  unfold lines
  rw [pieces]
  simp only [dropLast_concat, getLast?_concat, map_map]
  rw [map_congr_left (g := id)]
  · rw [map_id]
  · intro line _
    simp

end Text
theorem Text.stripPrefix_some {line rest : Text} {start : String}
    (stripped : line.stripPrefix start = some rest) : line = text start ++ rest := by
  unfold Text.stripPrefix at stripped
  split at stripped
  · rename_i starts
    obtain ⟨found, rfl⟩ := isPrefixOf_iff_prefix.mp starts
    cases stripped
    rw [drop_left]
    rfl
  · cases stripped

/-- What a section has said so far. -/
structure Outline where
  mid : Text
  direction : Text
deriving DecidableEq, Repr

def Section.outline (part : Section) : Outline := ⟨part.mid, part.direction⟩

def directionLines : List Text := directions.map (text "a=" ++ ·)

def Outline.read (outline : Outline) (line : Text) : Outline :=
  match line.stripPrefix "a=mid:" with
  | some mid => { outline with mid }
  | none => if line ∈ directionLines then { outline with direction := line.drop 2 } else outline

/-- The outline before the first section, and those of the sections, the latest first. -/
structure Scan where
  defaults : Outline
  parts : List Outline
deriving DecidableEq, Repr

namespace Scan

def start : Scan := ⟨({} : Section).outline, []⟩

def line (scan : Scan) (line : Text) : Scan :=
  if line.startsWith "m=" then { scan with parts := scan.defaults :: scan.parts }
  else match scan.parts with
    | [] => { scan with defaults := scan.defaults.read line }
    | part :: rest => { scan with parts := part.read line :: rest }

def lines (scan : Scan) (ls : List Text) : Scan := ls.foldl Scan.line scan

def of (reading : Reading) : Scan :=
  ⟨reading.defaults.outline, (reading.media.map (·.1.outline)).reverse⟩

end Scan

/-- A line that says nothing of MIDs or directions and starts no section. -/
structure Neutral (line : Text) : Prop where
  media : line.startsWith "m=" = false
  mid : line.stripPrefix "a=mid:" = none
  direction : line ∉ directionLines

variable {line : Text}

theorem Neutral.read (neutral : Neutral line) (outline : Outline) :
    outline.read line = outline := by
  rw [Outline.read, neutral.mid]
  exact if_neg neutral.direction

theorem Neutral.scan (neutral : Neutral line) (scan : Scan) : scan.line line = scan := by
  unfold Scan.line
  rw [if_neg (by rw [neutral.media]; exact Bool.false_ne_true)]
  obtain ⟨defaults, parts⟩ := scan
  cases parts with
  | nil => dsimp only; rw [neutral.read]
  | cons part rest => dsimp only; rw [neutral.read]

theorem directionLines_letter (member : line ∈ directionLines) :
    (line)[3]? = some 'e' ∨ (line)[3]? = some 'n' := by
  have all : ∀ other ∈ directionLines, other[3]? = some 'e' ∨ other[3]? = some 'n' := by decide
  exact all line member

theorem Neutral.of_letter (media : line.startsWith "m=" = false)
    (mid : line.stripPrefix "a=mid:" = none) {letter : Char} (third : (line)[3]? = some letter)
    (other : letter ≠ 'e' ∧ letter ≠ 'n') : Neutral line := by
  refine ⟨media, mid, fun member => ?_⟩
  rcases directionLines_letter member with same | same
  · exact other.1 (Option.some.inj (third.symm.trans same))
  · exact other.2 (Option.some.inj (third.symm.trans same))

theorem neutral_bundle (rest : Text) : Neutral (text "a=group:BUNDLE " ++ rest) :=
  .of_letter rfl rfl (rfl : _ = some 'r') (by decide)

theorem attributes_outline {part after : Section}
    (read : attributes part line = .ok after) : after.outline = part.outline.read line := by
  by_cases direct : line ∈ directionLines
  · have written : ∀ value ∈ directions, line = text "a=" ++ value →
        after.outline = part.outline.read line := by
      intro value member same
      rw [same] at read ⊢
      have four : value = text "sendrecv" ∨ value = text "sendonly" ∨ value = text "recvonly" ∨
          value = text "inactive" := by
        simpa only [directions, mem_cons, not_mem_nil, or_false] using member
      rcases four with rfl | rfl | rfl | rfl <;>
        · cases read
          rfl
    obtain ⟨value, member, same⟩ := mem_map.mp direct
    exact written value member same.symm
  · have plain : line.stripPrefix "a=mid:" = none → part.outline.read line = part.outline := by
      intro unnamed
      rw [Outline.read, unnamed]
      exact if_neg direct
    unfold attributes at read
    split at read
    case h_1 =>
      rename_i value named
      obtain ⟨_, read⟩ := Fallible.guard_ok read
      cases read
      rw [Outline.read, named]
      rfl
    case h_6 =>
      rw [plain ‹_›]
      split at read
      · cases read
        rfl
      · cases read
    case h_7 =>
      rename_i value _ _ _ _ _ _ stripped
      rw [plain ‹_›]
      have other : value ∉ directions := fun member =>
        direct (mem_map.mpr ⟨value, member, (Text.stripPrefix_some stripped).symm⟩)
      rw [if_neg other] at read
      cases read
      rfl
    all_goals
      rw [plain ‹_›]
      cases read
      rfl

theorem mediaLine_outline {defaults : Section} {count : Nat}
    {added : Section × Mapping} (read : mediaLine defaults count line = .ok added) :
    added.1.outline = defaults.outline ∧ ∃ kind port protocol rest,
      line.splitWhitespace = kind :: port :: protocol :: rest ∧
        kind ∈ [text "m=audio", text "m=video"] := by
  unfold mediaLine at read
  split at read
  · rename_i kind port protocol format formats fields
    obtain ⟨valid, read⟩ := Fallible.guard_ok read
    obtain ⟨_, read⟩ := Fallible.guard_ok read
    obtain ⟨payloads, _, read⟩ := Fallible.bind_ok read
    obtain ⟨_, read⟩ := Fallible.guard_ok read
    cases read
    rw [Bool.or_eq_true, Bool.or_eq_true, not_or, not_or, decide_eq_true_eq, not_not] at valid
    exact ⟨rfl, kind, port, protocol, _, fields, valid.1.1⟩
  · cases read

variable {reading after : Reading}

theorem readAttribute_scan (media : line.startsWith "m=" = false)
    (read : readAttribute reading line = .ok after) :
    Scan.of after = (Scan.of reading).line line := by
  unfold Scan.line
  rw [if_neg (by rw [media]; exact Bool.false_ne_true)]
  unfold readAttribute at read
  cases last : reading.media.getLast? with
  | none =>
    rw [last] at read
    obtain ⟨defaults, here, read⟩ := Fallible.bind_ok read
    cases read
    rw [getLast?_eq_none_iff] at last
    unfold Scan.of
    rw [last, attributes_outline here]
    rfl
  | some item =>
    obtain ⟨part, mapping⟩ := item
    rw [last] at read
    obtain ⟨part', here, read⟩ := Fallible.bind_ok read
    obtain ⟨mapping', _, read⟩ := Fallible.bind_ok read
    cases read
    obtain ⟨before, shape⟩ := getLast?_eq_some_iff.mp last
    unfold Scan.of
    rw [shape]
    simp [attributes_outline here]

theorem readLine_scan (read : readLine reading line = .ok after) :
    Scan.of after = (Scan.of reading).line (line.trimEndMatches '\r') := by
  unfold readLine at read
  generalize line.trimEndMatches '\r' = line at read ⊢
  dsimp only at read
  split at read
  · rename_i value stripped
    rw [Text.stripPrefix_some stripped, (neutral_bundle value).scan]
    obtain ⟨_, read⟩ := Fallible.guard_ok read
    cases read
    rfl
  · split at read
    · rename_i media
      obtain ⟨added, here, read⟩ := Fallible.bind_ok read
      cases read
      unfold Scan.line Scan.of
      rw [if_pos media]
      simp [(mediaLine_outline here).1]
    · rename_i media
      obtain ⟨next, here, read⟩ := Fallible.bind_ok read
      obtain ⟨_, read⟩ := Fallible.guard_ok read
      cases read
      exact readAttribute_scan (Bool.eq_false_iff.mpr media) here

/-- The fields of a line that starts a section. -/
def MediaFields (line : Text) : Prop :=
  line.startsWith "m=" → ∃ kind port protocol rest,
    line.splitWhitespace = kind :: port :: protocol :: rest ∧
      kind ∈ [text "m=audio", text "m=video"]

theorem readLine_fields (read : readLine reading line = .ok after) :
    MediaFields (line.trimEndMatches '\r') := by
  unfold readLine at read
  generalize line.trimEndMatches '\r' = line at read ⊢
  dsimp only at read
  intro media
  split at read
  · rename_i value stripped
    rw [Text.stripPrefix_some stripped, (neutral_bundle value).media] at media
    cases media
  · rw [if_pos media] at read
    obtain ⟨added, here, _⟩ := Fallible.bind_ok read
    exact (mediaLine_outline here).2

/-- The lines of a text as the readers take them. -/
def Text.trimmedLines (value : Text) : List Text := value.lines.map (Text.trimEndMatches '\r')

theorem readLines_scan {ls : List Text} (read : ls.foldlM readLine reading = .ok after) :
    Scan.of after = (Scan.of reading).lines (ls.map (Text.trimEndMatches '\r')) ∧
      ∀ line ∈ ls.map (Text.trimEndMatches '\r'), MediaFields line := by
  induction ls generalizing reading with
  | nil =>
    cases read
    exact ⟨rfl, fun _ member => absurd member not_mem_nil⟩
  | cons line rest ih =>
    obtain ⟨next, here, later⟩ := Fallible.bind_ok read
    obtain ⟨scanned, fields⟩ := ih later
    refine ⟨?_, forall_mem_cons.mpr ⟨readLine_fields here, fields⟩⟩
    rw [scanned, readLine_scan here]
    rfl

theorem codecsOf_outline {part after : Section} {mapping : Mapping}
    (read : codecsOf part mapping = .ok after) : after.outline = part.outline := by
  unfold codecsOf at read
  split at read <;>
    · obtain ⟨codecs, _, read⟩ := Fallible.bind_ok read
      cases read
      rfl

theorem codecsOf_outlines {media : List (Section × Mapping)} {parts : List Section}
    (read : media.mapM (fun (part, mapping) => codecsOf part mapping) = .ok parts) :
    parts.map Section.outline = media.map (·.1.outline) := by
  induction media generalizing parts with
  | nil =>
    cases read
    rfl
  | cons item rest ih =>
    rw [mapM_cons] at read
    obtain ⟨part, here, read⟩ := Fallible.bind_ok read
    obtain ⟨later, there, read⟩ := Fallible.bind_ok read
    cases read
    rw [map_cons, map_cons, ih there, codecsOf_outline here]

/-- What `sections` reads of MIDs and directions is what the lines say. -/
theorem sections_outline {description : Description} {parts : List Section}
    (read : sections description = .ok parts) :
    parts.map Section.outline =
        (Scan.start.lines description.sdp.trimmedLines).parts.reverse ∧
      ∀ line ∈ description.sdp.trimmedLines, MediaFields line := by
  obtain ⟨_, read⟩ := Fallible.guard_ok read
  obtain ⟨_, read⟩ := Fallible.guard_ok read
  obtain ⟨reading, lines, read⟩ := Fallible.bind_ok read
  obtain ⟨found, codecs, read⟩ := Fallible.bind_ok read
  obtain ⟨scanned, fields⟩ := readLines_scan lines
  have same : found = parts := by
    cases found with
    | nil => contradiction
    | cons first rest =>
      obtain ⟨_, _, read⟩ := Fallible.bind_ok read
      obtain ⟨_, read⟩ := Fallible.guard_ok read
      cases read
      rfl
  refine ⟨?_, fields⟩
  rw [← same, codecsOf_outlines codecs, Text.trimmedLines, Scan.start]
  change _ = (Scan.lines (Scan.of {}) _).parts.reverse
  rw [← scanned, Scan.of, reverse_reverse]

end Chuzz.Webrtc
