import Chuzz.Library.Ascii
import Chuzz.Library.Trimming
import Chuzz.Video.Host

/-! The two readings of a content type, one in the page and one behind it, against one grammar in
which the class of white space and the form of a bare list are left open. -/
namespace Chuzz.Video
open Library.Ascii Library.Trimming List
local instance lawfulType : LawfulBEq (List Char) := inferInstance

/-- The white space and the line terminators of JavaScript. -/
def isSpace (c : Char) : Bool := (isWhitespace c && c.toNat ≠ 0x85) || c.toNat = 0xfeff

/-- What a character may become in lower case. Outside of ASCII only the Kelvin sign becomes
ASCII. -/
def Lowered (c : Char) (piece : List Char) : Prop :=
  if c.toNat < 128 ∨ isSpace c then piece = [c.toLower]
  else piece = ['k'] ∨ ∃ d ∈ piece, ¬ d.toNat < 128 ∧ isSpace d = false

/-- The `toLowerCase` of an engine, whose tables are its own. -/
structure Lowering where
  toLowerCase : List Char → List Char
  pieces : ∀ text, ∃ pieces, List.Forall₂ Lowered text pieces ∧ toLowerCase text = pieces.flatten

/-- What `text` holds after `start`. -/
def after? (start text : List Char) : Option (List Char) :=
  if start <+: text then some (text.drop start.length) else none

/-- `"([^"]+)"\s*$`, behind its first quote. -/
def quotedMatch (text : List Char) : Option (List Char) := do
  let (list, rest) ← splitOnce '"' text
  if list ≠ [] ∧ rest.all isSpace then some list else none

/-- `([^"\s]+)\s*$` -/
def bareMatch (text : List Char) : Option (List Char) :=
  let list := text.takeWhile fun c => c ≠ '"' && !isSpace c
  if list ≠ [] ∧ (text.dropWhile fun c => c ≠ '"' && !isSpace c).all isSpace then some list
  else none

/-- `/^\s*codecs\s*=\s*(?:"([^"]+)"|([^"\s]+))\s*$/`, whose parts leave no choice. -/
def codecsMatch (field : List Char) : Option (List Char) := do
  let rest ← after? "codecs".toList (field.dropWhile isSpace)
  let rest ← after? ['='] (rest.dropWhile isSpace)
  match rest.dropWhile isSpace with
  | '"' :: rest => quotedMatch rest
  | rest => bareMatch rest

/-- `/^avc1\.(42|4d|64)[0-9a-f]{4}$/` -/
def avcMatch (codec : List Char) : Bool :=
  match after? "avc1.".toList codec with
  | none => false
  | some profile =>
    profile.take 2 ∈ ["42".toList, "4d".toList, "64".toList] ∧ (profile.drop 2).length = 4 ∧
      (profile.drop 2).all fun c => c.isDigit || ('a' ≤ c && c ≤ 'f')

/-- The flags after one more codec. -/
def supportedCodec (audioContainer : Bool) (found : Mime) (codec : List Char) : Option Mime :=
  if codec = "mp4a.40.2".toList ∧ ¬ found.audio then some { found with audio := true }
  else if avcMatch codec ∧ ¬ audioContainer ∧ ¬ found.video then some { found with video := true }
  else none

/-- `supported` for a text in lower case, with the flags that it has come to where it accepts. -/
def supportedText (value : List Char) : Option (Option Mime) :=
  match value.splitOn ';' with
  | [] => none
  | container :: fields =>
    let container := trimBy isSpace container
    if container ∉ ["video/mp4".toList, "audio/mp4".toList] then none
    else
      match fields with
      | [] => some none
      | [field] => do
        let list ← codecsMatch field
        let found ← ((list.splitOn ',').map (trimBy isSpace)).foldlM
          (supportedCodec (container = "audio/mp4".toList)) { video := false, audio := false }
        if found.video ∨ found.audio then some (some found) else none
      | _ => none

def supported (videoSupported : Bool) (lowering : Lowering) (type : String) :
    Option (Option Mime) :=
  if videoSupported then supportedText (lowering.toLowerCase type.toList) else none

/-! The grammar. -/

def containers : List (List Char) := ["video/mp4".toList, "audio/mp4".toList]

/-- What a container holds where nothing is said of codecs. -/
def whole (container : List Char) : Mime where
  video := container = "video/mp4".toList
  audio := container = "audio/mp4".toList

/-- The flags of a list of codecs. -/
def listed (space : Char → Bool) (container list : List Char) : Option Mime := do
  let result ← ((list.splitOn ',').map (trimBy space)).foldlM
    (mimeCodec (container = "audio/mp4".toList)) { video := false, audio := false }
  if result.video ∨ result.audio then some result else none

/-- A list in quotes, or a bare one; where bare lists are `tight`, they hold no white space. -/
def Enclosed (space : Char → Bool) (tight : Bool) (list value : List Char) : Prop :=
  value = '"' :: (list ++ ['"']) ∨ value = list ∧ (tight → ∀ c ∈ list, space c = false)

/-- A content type with its container and, where it has the parameter, with its codecs. -/
def Written (space : Char → Bool) (tight : Bool) (text container : List Char) :
    Option Mime → Prop
  | none => container ∈ containers ∧ trimBy space text = container
  | some found => container ∈ containers ∧ ∃ padded key value list,
      text = padded ++ ';' :: (key ++ '=' :: value) ∧ trimBy space padded = container ∧
        trimBy space key = "codecs".toList ∧ Enclosed space tight list (trimBy space value) ∧
          listed space container list = some found

/-! Characters of a content type. -/

def codecChar (c : Char) : Bool := c ∈ ",.mp4avc".toList || isHexDigit c

/-- A character that both halves read alike. -/
def plain (c : Char) : Bool := c.toNat < 128 && c ≠ 'k'

variable {space : Char → Bool} {text container : List Char} {flags : Option Mime} {tight : Bool}
  {found : Mime} {c : Char} {audioContainer : Bool}

theorem ascii_of_codecChar (held : codecChar c) : c.toNat < 128 := by
  rw [codecChar, Bool.or_eq_true, decide_eq_true_eq] at held
  rcases held with letter | digit
  · have all : ∀ c ∈ ",.mp4avc".toList, c.toNat < 128 := by simp
    exact all c letter
  · simp only [isHexDigit, Char.isDigit, Bool.or_eq_true, Bool.and_eq_true, decide_eq_true_eq] at digit
    rcases digit with (⟨_, high⟩ | ⟨_, high⟩) | ⟨_, high⟩
    · exact lt_of_le_of_lt high (by decide)
    · exact lt_of_le_of_lt high (by decide)
    · exact lt_of_le_of_lt high (by decide)

theorem codecChar_apart (held : codecChar c) : plain c ∧ c ≠ ';' ∧ c ≠ '"' ∧ c ≠ '=' :=
  ascii_cases (P := fun c => codecChar c → plain c ∧ c ≠ ';' ∧ c ≠ '"' ∧ c ≠ '=')
    (by decide) (ascii_of_codecChar held) held

variable {codec : List Char}

theorem mimeCodec_chars {result result' : Mime}
    (accepted : mimeCodec audioContainer result codec = some result') :
    ∀ c ∈ codec, codecChar c := by
  unfold mimeCodec at accepted
  split_ifs at accepted with audio video
  · rw [audio.1]
    simp [codecChar]; decide
  · obtain ⟨profile, rfl⟩ := video
    have start : "avc1.".toList.length = 5 := by decide
    have literal : ∀ c ∈ "avc1.".toList, codecChar c := by simp [codecChar]; decide
    dsimp only at accepted
    split_ifs at accepted with bad
    simp only [not_or, not_not] at bad
    intro c member
    rcases mem_append.mp member with before | after
    · exact literal c before
    · rw [codecChar, all_eq_true.mp bad.2.2.2.1 c after, Bool.or_true]

theorem foldlM_accepts {A B : Type} {step : B → A → Option B} {P : A → Prop}
    (accepts : ∀ b a b', step b a = some b' → P a) :
    ∀ {items : List A} {b b' : B}, items.foldlM step b = some b' → ∀ a ∈ items, P a
  | [], _, _, _, _, member => absurd member not_mem_nil
  | first :: rest, b, b', run, a, member => by
    rw [foldlM_cons, Option.bind_eq_bind, Option.bind_eq_some_iff] at run
    obtain ⟨middle, one, run⟩ := run
    rcases mem_cons.mp member with rfl | later
    · exact accepts _ _ _ one
    · exact foldlM_accepts accepts run a later

theorem foldlM_imp {A B : Type} {f g : B → A → Option B} :
    ∀ {items : List A} {b b' : B},
      (∀ a ∈ items, ∀ b b', f b a = some b' → g b a = some b') →
      items.foldlM f b = some b' → items.foldlM g b = some b'
  | [], _, _, _, run => run
  | first :: rest, b, b', imp, run => by
    obtain ⟨here, later⟩ := forall_mem_cons.mp imp
    rw [foldlM_cons, Option.bind_eq_bind, Option.bind_eq_some_iff] at run ⊢
    obtain ⟨middle, one, run⟩ := run
    exact ⟨middle, here _ _ one, foldlM_imp later run⟩

variable {container list : List Char}

theorem listed_chars
    (accepted : listed space container list = some found) : ∀ c ∈ list, space c ∨ codecChar c := by
  intro c member
  obtain ⟨result, run, _⟩ := Option.bind_eq_some_iff.mp accepted
  have chars := foldlM_accepts (fun _ _ _ accepted => mimeCodec_chars accepted) run
  rcases mem_splitOn ',' member with rfl | ⟨piece, held, inside⟩
  · exact .inr (by decide)
  · refine (selected_or_mem_trimBy _ inside).imp_right fun kept => ?_
    exact chars _ (mem_map_of_mem held) c kept

variable {space space' : Char → Bool}

theorem listed_congr (agree : ∀ c ∈ list, space c = space' c) :
    listed space container list = listed space' container list := by
  have items : (list.splitOn ',').map (trimBy space) = (list.splitOn ',').map (trimBy space') := by
    refine map_congr_left fun item held => trimBy_congr fun c inside => agree c ?_
    exact mem_of_mem_splitOn held inside
  rw [listed, listed, items]

theorem Enclosed.list_subset {list value : List Char} (enclosed : Enclosed space tight list value)
    (member : c ∈ list) : c ∈ value := by
  rcases enclosed with rfl | ⟨rfl, _⟩
  · exact mem_cons_of_mem _ (mem_append_left _ member)
  · exact member

theorem container_plain {container : List Char} (held : container ∈ containers) :
    ∀ c ∈ container, plain c := by
  have all : ∀ container ∈ containers, ∀ c ∈ container, plain c := by simp [containers, plain]
  exact all container held

theorem Written.chars {found : Option Mime} (written : Written space tight text container found) :
    ∀ c ∈ text, space c ∨ plain c := by
  intro c member
  cases found with
  | none =>
    obtain ⟨known, trimmed⟩ := written
    refine (selected_or_mem_trimBy _ member).imp_right fun kept => ?_
    exact container_plain known c (trimmed ▸ kept)
  | some found =>
    obtain ⟨known, padded, key, value, list, rfl, trimmed, named, enclosed, accepted⟩ := written
    rcases mem_append.mp member with inside | inside
    · refine (selected_or_mem_trimBy _ inside).imp_right fun kept => ?_
      exact container_plain known c (trimmed ▸ kept)
    · rcases mem_cons.mp inside with rfl | inside
      · exact .inr (by decide)
      · rcases mem_append.mp inside with inside | inside
        · refine (selected_or_mem_trimBy _ inside).imp_right fun kept => ?_
          have all : ∀ c ∈ "codecs".toList, plain c := by simp [plain]
          exact all c (named ▸ kept)
        · rcases mem_cons.mp inside with rfl | inside
          · exact .inr (by decide)
          · rcases selected_or_mem_trimBy _ inside with spaced | kept
            · exact .inl spaced
            · have chars : ∀ c ∈ list, space c ∨ plain c := fun c inside =>
                (listed_chars accepted c inside).imp_right fun held => (codecChar_apart held).1
              rcases enclosed with quoted | ⟨bare, _⟩
              · rw [quoted, mem_cons, mem_append, mem_singleton] at kept
                rcases kept with rfl | inside | rfl
                · exact .inr (by decide)
                · exact chars c inside
                · exact .inr (by decide)
              · exact chars c (bare ▸ kept)

theorem Written.congr {found : Option Mime}
    (agree : ∀ c ∈ text, space c = space' c) (written : Written space tight text container found) :
    Written space' tight text container found := by
  cases found with
  | none =>
    rw [Written, trimBy_congr agree] at written
    exact written
  | some found =>
    obtain ⟨known, padded, key, value, list, rfl, trimmed, named, enclosed, accepted⟩ := written
    have inPadded : ∀ c ∈ padded, space c = space' c := fun c inside =>
      agree c (mem_append_left _ inside)
    have inField : ∀ c ∈ key ++ '=' :: value, space c = space' c := fun c inside =>
      agree c (mem_append_right _ (mem_cons_of_mem _ inside))
    have inKey : ∀ c ∈ key, space c = space' c := fun c inside =>
      inField c (mem_append_left _ inside)
    have inValue : ∀ c ∈ value, space c = space' c := fun c inside =>
      inField c (mem_append_right _ (mem_cons_of_mem _ inside))
    have inList : ∀ c ∈ list, space c = space' c := fun c inside =>
      inValue c (mem_of_mem_trimBy (enclosed.list_subset inside))
    rw [trimBy_congr inPadded] at trimmed
    rw [trimBy_congr inKey] at named
    rw [trimBy_congr inValue] at enclosed
    rw [listed_congr inList] at accepted
    refine ⟨known, padded, key, value, list, rfl, trimmed, named, ?_, accepted⟩
    refine enclosed.imp_right fun ⟨bare, free⟩ => ⟨bare, fun tightly c inside => ?_⟩
    rw [← inList c inside]
    exact free tightly c inside

theorem Written.loosen {found : Option Mime} (written : Written space tight text container found) :
    Written space false text container found := by
  cases found with
  | none => exact written
  | some found =>
    obtain ⟨known, padded, key, value, list, so, trimmed, named, enclosed, accepted⟩ := written
    refine ⟨known, padded, key, value, list, so, trimmed, named, ?_, accepted⟩
    exact enclosed.imp_right fun ⟨bare, _⟩ => ⟨bare, nofun⟩

/-! The reading behind the page. -/

theorem splitOnce_some {separator : Char} {text key value : List Char}
    (split : splitOnce separator text = some (key, value)) : text = key ++ separator :: value := by
  unfold splitOnce at split
  cases rest : text.dropWhile (· ≠ separator) with
  | nil => simp only [rest, reduceCtorEq] at split
  | cons c tail =>
    simp only [rest, Option.some.injEq, Prod.mk.injEq] at split
    obtain ⟨rfl, rfl⟩ := split
    have stops := head?_dropWhile_not (fun c => decide (c ≠ separator)) text
    rw [rest] at stops
    obtain rfl : c = separator := by simpa using stops
    have parts := takeWhile_append_dropWhile (p := (· ≠ c)) (l := text)
    rw [rest] at parts
    exact parts.symm

theorem splitOnce_of_not_mem {separator : Char} {key : List Char} (free : separator ∉ key)
    (value : List Char) :
    splitOnce separator (key ++ separator :: value) = some (key, value) := by
  have passes : ∀ c ∈ key, decide (c ≠ separator) = true := fun c member =>
    decide_eq_true fun same => free (same ▸ member)
  have whole : (separator :: value).dropWhile (· ≠ separator) = separator :: value :=
    dropWhile_cons_of_neg (by simp)
  have none : (separator :: value).takeWhile (· ≠ separator) = [] :=
    takeWhile_cons_of_neg (by simp)
  rw [splitOnce, dropWhile_append_selected passes, whole]
  rw [takeWhile_append_of_pos passes, none, append_nil]

theorem unquote_iff {list value : List Char} (free : '"' ∉ list) :
    unquote value = some list ↔ Enclosed isWhitespace false list value := by
  unfold unquote
  constructor
  · intro read
    split_ifs at read with quoted broken
    · have ⟨first, last, _⟩ := quoted
      cases value with
      | nil => cases first
      | cons c rest =>
        obtain rfl : c = '"' := Option.some.inj first
        rw [drop_one, tail_cons, Option.some.injEq] at read
        have some : rest ≠ [] := by
          rintro rfl
          exact absurd quoted.2.2 (by decide)
        rw [getLast?_cons_of_ne_nil some] at last
        refine .inl ?_
        rw [← read, dropLast_append_getLast? _ last]
    · exact .inr ⟨Option.some.inj read, nofun⟩
  · rintro (rfl | ⟨rfl, _⟩)
    · have last : ('"' :: (list ++ ['"'])).getLast? = some '"' := by
        rw [← cons_append, getLast?_concat]
      rw [if_pos ⟨rfl, last, by simp⟩, drop_one, tail_cons, dropLast_concat]
    · rw [if_neg, if_neg free]
      rintro ⟨first, _⟩
      exact free (mem_of_head? first)

theorem mimeField_iff {field list : List Char} (free : '"' ∉ list) :
    mimeField none field = some (some list) ↔ ∃ key value, field = key ++ '=' :: value ∧
      trimBy isWhitespace key = "codecs".toList ∧
        Enclosed isWhitespace false list (trimBy isWhitespace value) := by
  have bare : ¬ isWhitespace '=' := by decide
  unfold mimeField
  constructor
  · intro read
    obtain ⟨⟨key, value⟩, split, read⟩ := Option.bind_eq_some_iff.mp read
    dsimp only at read
    split_ifs at read with bad
    obtain ⟨found, unquoted, same⟩ := Option.bind_eq_some_iff.mp read
    obtain rfl : found = list := by simpa using same
    have named : trimBy isWhitespace key = "codecs".toList := not_not.mp (not_or.mp bad).1
    obtain ⟨left, right, before, behind, parts⟩ := trimBy_parts isWhitespace field
    have inner : trimBy isWhitespace field = key ++ '=' :: value := splitOnce_some split
    refine ⟨left ++ key, value ++ right, ?_, ?_, ?_⟩
    · rw [parts, inner]
      simp
    · rw [trimBy_left before]
      exact named
    · rw [trimBy_right behind]
      exact (unquote_iff free).mp unquoted
  · rintro ⟨key, value, rfl, named, enclosed⟩
    obtain ⟨key', value', trimmed, sameKey, sameValue, keeps⟩ := trimBy_separated bare key value
    have apart : '=' ∉ key := by
      intro member
      rcases selected_or_mem_trimBy _ member with spaced | kept
      · exact bare spaced
      · rw [named] at kept
        exact absurd kept (by decide)
    have split : splitOnce '=' (trim (key ++ '=' :: value)) = some (key', value') := by
      change splitOnce '=' (trimBy isWhitespace (key ++ '=' :: value)) = _
      rw [trimmed, splitOnce_of_not_mem fun member => apart (keeps member)]
    rw [split]
    have key'Named : trim key' = "codecs".toList := sameKey.trans named
    have read : unquote (trim value') = some list := by
      rw [unquote_iff free]
      change Enclosed _ _ _ (trimBy isWhitespace value')
      rw [sameValue]
      exact enclosed
    simp [key'Named, read]

theorem mimeField_again {list field : List Char} : mimeField (some list) field = none := by
  unfold mimeField
  cases splitOnce '=' (trim field) <;> simp

theorem free_of_listed (sane : ∀ c, c.toNat < 128 → space c = isWhitespace c)
    (accepted : listed space container list = some found) : ';' ∉ list ∧ '"' ∉ list := by
  have apart {c : Char} (ascii : c.toNat < 128) (bare : isWhitespace c = false)
      (other : codecChar c = false) : c ∉ list := by
    intro member
    rcases listed_chars accepted c member with spaced | held
    · rw [sane c ascii, bare] at spaced
      cases spaced
    · rw [other] at held
      cases held
  exact ⟨apart (by decide) (by decide) (by decide), apart (by decide) (by decide) (by decide)⟩

theorem splitOn_written (sane : ∀ c, c.toNat < 128 → space c = isWhitespace c)
    {padded key value list container : List Char} (known : container ∈ containers)
    (trimmed : trimBy space padded = container) (named : trimBy space key = "codecs".toList)
    (enclosed : Enclosed space tight list (trimBy space value))
    (accepted : listed space container list = some found) :
    (padded ++ ';' :: (key ++ '=' :: value)).splitOn ';' = [padded, key ++ '=' :: value] := by
  have bare : ¬ space ';' := by
    rw [sane ';' (by decide)]
    decide
  have kept {text : List Char} (free : ';' ∉ trimBy space text) : ';' ∉ text := fun member =>
    (selected_or_mem_trimBy _ member).elim bare free
  have names : ∀ container ∈ containers, ';' ∉ container := by decide
  have inList := (free_of_listed sane accepted).1
  refine splitOn_pair (kept (trimmed ▸ names container known)) ?_
  rw [mem_append, mem_cons, not_or, not_or]
  refine ⟨kept ?_, by decide, kept ?_⟩
  · rw [named]
    decide
  · rcases enclosed with quoted | ⟨bare, _⟩
    · rw [quoted]
      simp [inList]
    · rw [bare]
      exact inList

theorem splitOn_alone (sane : ∀ c, c.toNat < 128 → space c = isWhitespace c)
    (known : container ∈ containers) (trimmed : trimBy space text = container) :
    text.splitOn ';' = [text] := by
  refine splitOn_eq_singleton fun member => ?_
  have names : ∀ container ∈ containers, ';' ∉ container := by decide
  rcases selected_or_mem_trimBy space member with spaced | kept
  · rw [sane ';' (by decide)] at spaced
    exact absurd spaced (by decide)
  · exact names container known (trimmed ▸ kept)

theorem splitOn_fields {text padded : List Char} {fields : List (List Char)}
    (split : text.splitOn ';' = padded :: fields) :
    (fields = [] → text = padded) ∧ ∀ field, fields = [field] → text = padded ++ ';' :: field := by
  have join : [';'].intercalate (text.splitOn ';') = text := intercalate_splitOn ';'
  rw [split] at join
  constructor
  · rintro rfl
    rw [← join, intercalate_singleton]
  · rintro field rfl
    rw [← join, intercalate_cons_cons, intercalate_singleton, append_assoc,
      singleton_append]

theorem mime_iff {value : String} : mime value = some found ↔ ∃ container flags,
      Written isWhitespace false (value.toList.map Char.toLower) container flags ∧
        found = flags.getD (whole container) := by
  have sane : ∀ c, c.toNat < 128 → isWhitespace c = isWhitespace c := fun _ _ => rfl
  unfold mime
  generalize value.toList.map Char.toLower = text
  constructor
  · intro read
    cases split : text.splitOn ';' with
    | nil => exact absurd split (splitOn_ne_nil _ _)
    | cons padded fields =>
      obtain ⟨alone, two⟩ := splitOn_fields split
      rw [split] at read
      dsimp only at read
      split_ifs at read with unknown
      have known : trim padded ∈ containers := unknown
      obtain ⟨codecs, folded, read⟩ := Option.bind_eq_some_iff.mp read
      cases fields with
      | nil =>
        refine ⟨trim padded, none, ⟨known, ?_⟩, (Option.some.inj read).symm⟩
        rw [alone rfl]
        rfl
      | cons field others =>
        obtain ⟨first, here, folded⟩ := Option.bind_eq_some_iff.mp folded
        have ⟨list, so⟩ : ∃ list, first = some list := by
          obtain ⟨⟨key, value⟩, _, here⟩ := Option.bind_eq_some_iff.mp here
          dsimp only at here
          split_ifs at here
          obtain ⟨list, _, same⟩ := Option.bind_eq_some_iff.mp here
          exact ⟨list, (Option.some.inj same).symm⟩
        subst so
        cases others with
        | cons second _ =>
          rw [foldlM_cons, mimeField_again] at folded
          cases folded
        | nil =>
          obtain rfl : some list = codecs := Option.some.inj folded
          have accepted : listed isWhitespace (trim padded) list = some found := read
          obtain ⟨key, value, so, named, enclosed⟩ :=
            (mimeField_iff (free_of_listed sane accepted).2).mp here
          refine ⟨trim padded, some found, ⟨known, padded, key, value, list, ?_, rfl, named,
            enclosed, accepted⟩, rfl⟩
          rw [two field rfl, so]
  · rintro ⟨container, flags, written, rfl⟩
    cases flags with
    | none =>
      obtain ⟨known, trimmed⟩ := written
      rw [splitOn_alone sane known trimmed]
      have so : trim text = container := trimmed
      dsimp only
      rw [so, if_neg fun other => other known]
      rfl
    | some found =>
      obtain ⟨known, padded, key, value, list, rfl, trimmed, named, enclosed, accepted⟩ := written
      rw [splitOn_written sane known trimmed named enclosed accepted]
      have so : trim padded = container := trimmed
      have field := (mimeField_iff (free_of_listed sane accepted).2).mpr
        ⟨key, value, rfl, named, enclosed⟩
      dsimp only
      rw [so, if_neg fun other => other known, foldlM_cons, field]
      exact accepted

/-! The reading in the page. -/

theorem after?_iff {start text rest : List Char} :
    after? start text = some rest ↔ text = start ++ rest := by
  unfold after?
  constructor
  · intro read
    split_ifs at read with found
    obtain ⟨tail, rfl⟩ := found
    rw [drop_left, Option.some.injEq] at read
    rw [read]
  · rintro rfl
    rw [if_pos (prefix_append _ _), drop_left]

theorem takeWhile_selected {selects : Char → Bool} (text : List Char) :
    ∀ c ∈ text.takeWhile selects, selects c := fun _ => mem_takeWhile_imp

theorem codecsMatch_sound {field list : List Char} (read : codecsMatch field = some list) :
    ∃ key value, field = key ++ '=' :: value ∧ trimBy isSpace key = "codecs".toList ∧
      Enclosed isSpace true list (trimBy isSpace value) := by
  unfold codecsMatch at read
  obtain ⟨rest, named, read⟩ := Option.bind_eq_some_iff.mp read
  obtain ⟨value, equals, read⟩ := Option.bind_eq_some_iff.mp read
  have before := takeWhile_append_dropWhile (p := isSpace) (l := field)
  have between := takeWhile_append_dropWhile (p := isSpace) (l := rest)
  have opening := takeWhile_append_dropWhile (p := isSpace) (l := value)
  rw [after?_iff.mp named] at before
  rw [after?_iff.mp equals] at between
  refine ⟨field.takeWhile isSpace ++ ("codecs".toList ++ rest.takeWhile isSpace), value, ?_, ?_, ?_⟩
  · conv_lhs => rw [← before, ← between]
    simp only [append_assoc, singleton_append]
  · rw [trimBy_left (takeWhile_selected _), trimBy_right (takeWhile_selected _)]
    decide
  · rw [← opening, trimBy_left (takeWhile_selected _)]
    split at read
    · rename_i rest' quoted
      obtain ⟨⟨inner, rest''⟩, closed, read⟩ := Option.bind_eq_some_iff.mp read
      dsimp only at read
      split_ifs at read with accepted
      obtain rfl : inner = list := Option.some.inj read
      rw [quoted, splitOnce_some closed]
      refine .inl ?_
      have parts : '"' :: (inner ++ '"' :: rest'') = '"' :: (inner ++ ['"']) ++ rest'' := by simp
      rw [parts, trimBy_right (all_eq_true.mp accepted.2),
        trimBy_enclosed (by decide) (by decide)]
    · unfold bareMatch at read
      dsimp only at read
      split_ifs at read with accepted
      generalize value.dropWhile isSpace = text at *
      have parts := takeWhile_append_dropWhile (p := fun c => c ≠ '"' && !isSpace c) (l := text)
      rw [Option.some.inj read] at parts
      have bare : ∀ c ∈ list, isSpace c = false := by
        rw [← Option.some.inj read]
        intro c member
        have := takeWhile_selected _ c member
        rw [Bool.and_eq_true, Bool.not_eq_true'] at this
        exact this.2
      refine .inr ⟨?_, fun _ => bare⟩
      rw [← parts, trimBy_right (all_eq_true.mp accepted.2)]
      exact trimBy_bare fun c member => Bool.eq_false_iff.mp (bare c member)

theorem bareMatch_complete {list right : List Char} (free : '"' ∉ list) (more : list ≠ [])
    (bare : ∀ c ∈ list, isSpace c = false) (behind : ∀ c ∈ right, isSpace c) :
    bareMatch (list ++ right) = some list := by
  have passes : ∀ c ∈ list, (c ≠ '"' && !isSpace c) = true := by
    intro c member
    rw [bare c member, Bool.not_false, Bool.and_true, decide_eq_true_eq]
    rintro rfl
    exact free member
  have stops : ∀ c ∈ right, ¬ (c ≠ '"' && !isSpace c) = true := by
    intro c member
    rw [behind c member, Bool.not_true, Bool.and_false]
    exact Bool.false_ne_true
  have taken : right.takeWhile (fun c => c ≠ '"' && !isSpace c) = [] := by
    cases right with
    | nil => rfl
    | cons c rest => exact takeWhile_cons_of_neg (stops c mem_cons_self)
  have dropped : right.dropWhile (fun c => c ≠ '"' && !isSpace c) = right := by
    cases right with
    | nil => rfl
    | cons c rest => exact dropWhile_cons_of_neg (stops c mem_cons_self)
  unfold bareMatch
  rw [takeWhile_append_of_pos passes, taken, append_nil,
    dropWhile_append_selected passes, dropped, if_pos ⟨more, all_eq_true.mpr behind⟩]

theorem codecsMatch_complete {key value list : List Char}
    (named : trimBy isSpace key = "codecs".toList)
    (enclosed : Enclosed isSpace true list (trimBy isSpace value)) (free : '"' ∉ list)
    (more : list ≠ []) : codecsMatch (key ++ '=' :: value) = some list := by
  obtain ⟨left, right, before, behind, keyParts⟩ := trimBy_parts isSpace key
  obtain ⟨left', right', before', behind', valueParts⟩ := trimBy_parts isSpace value
  rw [named] at keyParts
  have start : (key ++ '=' :: value).dropWhile isSpace =
      "codecs".toList ++ (right ++ '=' :: value) := by
    rw [keyParts, append_assoc, append_assoc, dropWhile_append_selected before]
    exact dropWhile_cons_of_neg (by decide)
  have equals : (right ++ '=' :: value).dropWhile isSpace = ['='] ++ value := by
    rw [dropWhile_append_selected behind]
    exact dropWhile_cons_of_neg (by decide)
  unfold codecsMatch
  rw [start, after?_iff.mpr rfl, Option.bind_eq_bind, Option.bind_some, equals, after?_iff.mpr rfl,
    Option.bind_some, valueParts, append_assoc,
    dropWhile_append_selected before']
  rcases enclosed with quoted | ⟨bare, tight⟩
  · have opening : (trimBy isSpace value ++ right').dropWhile isSpace =
        '"' :: (list ++ '"' :: right') := by
      rw [quoted, cons_append, append_assoc]
      exact dropWhile_cons_of_neg (by decide)
    rw [opening]
    change quotedMatch _ = _
    rw [quotedMatch, splitOnce_of_not_mem free]
    exact if_pos ⟨more, all_eq_true.mpr behind'⟩
  · rw [bare]
    obtain ⟨c, rest, rfl⟩ := exists_cons_of_ne_nil more
    have first : isSpace c = false := tight rfl c mem_cons_self
    have whole : (c :: rest ++ right').dropWhile isSpace = c :: rest ++ right' :=
      dropWhile_cons_of_neg (Bool.eq_false_iff.mp first)
    rw [whole]
    split
    · rename_i rest' quoted
      obtain rfl : c = '"' := (List.cons.inj quoted).1
      exact absurd mem_cons_self free
    · exact bareMatch_complete free more (tight rfl) behind'

theorem profile_hex {profile : List Char}
    (known : profile.take 2 ∈ ["42".toList, "4d".toList, "64".toList]) :
    ∀ c ∈ profile.take 2, isHexDigit c := by
  have all : ∀ start ∈ ["42".toList, "4d".toList, "64".toList], ∀ c ∈ start, isHexDigit c := by
    simp; decide
  exact all _ known

theorem mimeCodec_of_supportedCodec {found found' : Mime}
    (accepted : supportedCodec audioContainer found codec = some found') :
    mimeCodec audioContainer found codec = some found' := by
  unfold supportedCodec at accepted
  unfold mimeCodec
  split_ifs at accepted with audio video
  · rw [if_pos audio]
    exact accepted
  · rw [if_neg audio]
    obtain ⟨avc, noAudio, once⟩ := video
    unfold avcMatch at avc
    split at avc
    · cases avc
    · rename_i profile after
      obtain rfl := after?_iff.mp after
      rw [decide_eq_true_eq, length_drop] at avc
      obtain ⟨known, size, hex⟩ := avc
      have start : "avc1.".toList.length = 5 := by decide
      have digits : profile.all isHexDigit := by
        rw [all_eq_true]
        intro c member
        rw [← take_append_drop 2 profile] at member
        rcases mem_append.mp member with early | late
        · exact profile_hex known c early
        · rw [isHexDigit, all_eq_true.mp hex c late, Bool.true_or]
      rw [if_pos (prefix_append _ _), ← start, drop_left]
      rw [if_neg]
      · exact accepted
      · rintro (twice | inAudio | short | broken | other)
        · exact once twice
        · exact noAudio inAudio
        · exact short (by omega)
        · exact broken digits
        · exact other known

theorem supportedCodec_of_mimeCodec {found found' : Mime} (low : ∀ c ∈ codec, ¬ c.isUpper)
    (accepted : mimeCodec audioContainer found codec = some found') :
    supportedCodec audioContainer found codec = some found' := by
  unfold mimeCodec at accepted
  unfold supportedCodec
  split_ifs at accepted with audio video
  · rw [if_pos audio]
    exact accepted
  · rw [if_neg audio]
    obtain ⟨profile, rfl⟩ := video
    have start : "avc1.".toList.length = 5 := by decide
    rw [← start, drop_left] at accepted
    dsimp only at accepted
    split_ifs at accepted with bad
    simp only [not_or, not_not] at bad
    obtain ⟨once, noAudio, size, digits, known⟩ := bad
    have avc : avcMatch ("avc1.".toList ++ profile) := by
      rw [avcMatch, after?_iff.mpr rfl]
      rw [decide_eq_true_eq, length_drop, all_eq_true]
      refine ⟨known, by omega, fun c member => ?_⟩
      have inside := mem_of_mem_drop member
      have hex := all_eq_true.mp digits c inside
      have ascii := ascii_of_codecChar (by rw [codecChar, hex, Bool.or_true])
      exact ascii_cases (P := fun c => isHexDigit c → ¬ c.isUpper →
        (c.isDigit || ('a' ≤ c && c ≤ 'f')) = true) (by decide) ascii hex
          (low c (mem_append_right _ inside))
    rw [if_pos ⟨avc, noAudio, once⟩]
    exact accepted

theorem listed_ne_nil {container : List Char} : listed space container [] ≠ some found := by
  rw [listed, splitOn_nil, map_singleton, foldlM_cons]
  have none : mimeCodec (container = "audio/mp4".toList) ⟨false, false⟩ (trimBy space []) = none :=
    rfl
  nofun

theorem sane_isSpace : ∀ c : Char, c.toNat < 128 → isSpace c = isWhitespace c := by
  intro c ascii
  rw [isSpace, decide_eq_true (by omega : c.toNat ≠ 0x85),
    decide_eq_false (by omega : ¬ c.toNat = 0xfeff), Bool.and_true, Bool.or_false]

variable {text : List Char}

theorem supportedText_sound (read : supportedText text = some flags) :
    ∃ container, Written isSpace true text container flags := by
  unfold supportedText at read
  cases split : text.splitOn ';' with
  | nil => exact absurd split (splitOn_ne_nil _ _)
  | cons padded fields =>
    obtain ⟨alone, two⟩ := splitOn_fields split
    rw [split] at read
    dsimp only at read
    split_ifs at read with unknown
    have known : trimBy isSpace padded ∈ containers := unknown
    split at read
    · obtain rfl : none = flags := Option.some.inj read
      refine ⟨trimBy isSpace padded, known, ?_⟩
      rw [alone rfl]
    · rename_i field
      obtain ⟨list, matched, read⟩ := Option.bind_eq_some_iff.mp read
      obtain ⟨found, folded, read⟩ := Option.bind_eq_some_iff.mp read
      obtain ⟨key, value, so, named, enclosed⟩ := codecsMatch_sound matched
      split_ifs at read with any
      obtain rfl : _ = flags := Option.some.inj read
      refine ⟨trimBy isSpace padded, known, padded, key, value, list, ?_, rfl, named, enclosed, ?_⟩
      · rw [two field rfl, so]
      · have run := foldlM_imp (fun _ _ _ _ => mimeCodec_of_supportedCodec) folded
        rw [listed, run]
        exact if_pos any
    · cases read

theorem supportedText_complete (low : ∀ c ∈ text, ¬ c.isUpper)
    (written : Written isSpace true text container flags) : supportedText text = some flags := by
  unfold supportedText
  cases flags with
  | none =>
    obtain ⟨known, trimmed⟩ := written
    rw [splitOn_alone sane_isSpace known trimmed]
    dsimp only
    rw [trimmed, if_neg fun other => other known]
  | some found =>
    obtain ⟨known, padded, key, value, list, rfl, trimmed, named, enclosed, accepted⟩ := written
    have free := (free_of_listed sane_isSpace accepted).2
    have more : list ≠ [] := by
      rintro rfl
      exact listed_ne_nil accepted
    have inList : ∀ c ∈ list, ¬ c.isUpper := fun c member =>
      low c (mem_append_right _ (mem_cons_of_mem _ (mem_append_right _
        (mem_cons_of_mem _ (mem_of_mem_trimBy (enclosed.list_subset member))))))
    obtain ⟨result, folded, final⟩ := Option.bind_eq_some_iff.mp accepted
    rw [splitOn_written sane_isSpace known trimmed named enclosed accepted]
    dsimp only
    rw [trimmed, if_neg fun other => other known, codecsMatch_complete named enclosed free more]
    have run : ((list.splitOn ',').map (trimBy isSpace)).foldlM
        (supportedCodec (container = "audio/mp4".toList)) ⟨false, false⟩ = some result := by
      refine foldlM_imp (fun item held found found' one => ?_) folded
      refine supportedCodec_of_mimeCodec (fun c member => ?_) one
      obtain ⟨field, inside, rfl⟩ := mem_map.mp held
      exact inList c (mem_of_mem_splitOn inside (mem_of_mem_trimBy member))
    rw [Option.bind_eq_bind, Option.bind_some, run, Option.bind_eq_bind, Option.bind_some]
    split_ifs at final with any
    rw [if_pos any, Option.some.inj final]

/-! The two halves. -/

theorem ascii_of_isUpper (upper : c.isUpper) : c.toNat < 128 := by
  rw [Char.isUpper, decide_eq_true_eq] at upper
  exact lt_of_le_of_lt upper.2 (by decide)

theorem toLower_of_not_isUpper (other : ¬ c.isUpper) : c.toLower = c := by
  rw [Char.isUpper, decide_eq_true_eq] at other
  exact dif_neg other

theorem not_isUpper_toLower (c : Char) : ¬ c.toLower.isUpper := by
  by_cases upper : c.isUpper
  · exact ascii_cases (P := fun c => ¬ c.toLower.isUpper) (by decide) (ascii_of_isUpper upper)
  · rwa [toLower_of_not_isUpper upper]

theorem toLower_plain : (c.toLower.toNat < 128 ∨ isSpace c.toLower) →
    c.toNat < 128 ∨ isSpace c := by
  intro held
  by_cases upper : c.isUpper
  · exact .inl (ascii_of_isUpper upper)
  · rwa [toLower_of_not_isUpper upper] at held

theorem Lowering.known (lowering : Lowering) (known : ∀ c ∈ text, c.toNat < 128 ∨ isSpace c) :
    lowering.toLowerCase text = text.map Char.toLower := by
  obtain ⟨pieces, lowered, so⟩ := lowering.pieces text
  rw [so]
  clear so
  induction lowered with
  | nil => rfl
  | cons piece _ ih =>
    obtain ⟨here, later⟩ := forall_mem_cons.mp known
    rw [Lowered, if_pos here] at piece
    rw [piece, flatten_cons, ih later, map_cons, singleton_append]

/-- A lower case of plain characters and white space is that of a text of ASCII and white space. -/
theorem Lowering.plain (lowering : Lowering)
    (known : ∀ c ∈ lowering.toLowerCase text, isSpace c ∨ Video.plain c) :
    ∀ c ∈ text, c.toNat < 128 ∨ isSpace c := by
  obtain ⟨pieces, lowered, so⟩ := lowering.pieces text
  rw [so] at known
  clear so
  induction lowered with
  | nil => exact fun c member => absurd member not_mem_nil
  | @cons c _ text _ piece _ ih =>
    rw [flatten_cons, forall_mem_append] at known
    refine forall_mem_cons.mpr ⟨?_, ih known.2⟩
    by_contra other
    rw [Lowered, if_neg other] at piece
    rcases piece with rfl | ⟨d, inside, wide, bare⟩
    · exact absurd (known.1 'k' mem_cons_self) (by decide)
    · rcases known.1 d inside with spaced | plain
      · rw [bare] at spaced
        cases spaced
      · rw [Video.plain, Bool.and_eq_true, decide_eq_true_eq] at plain
        exact wide plain.1

/-- A type in ASCII lower case. -/
def lowered (type : String) : List Char := type.toList.map Char.toLower

variable {type : String}

theorem supported_iff {lowering : Lowering} : supported true lowering type = some flags ↔
      ∃ container, Written isSpace true (lowered type) container flags := by
  constructor
  · intro read
    obtain ⟨container, written⟩ := supportedText_sound read
    rw [lowering.known (lowering.plain written.chars)] at written
    exact ⟨container, written⟩
  · rintro ⟨container, written⟩
    have known : ∀ c ∈ type.toList, c.toNat < 128 ∨ isSpace c := by
      intro c member
      refine toLower_plain ?_
      rcases written.chars _ (mem_map_of_mem member) with spaced | plain
      · exact .inr spaced
      · rw [Video.plain, Bool.and_eq_true, decide_eq_true_eq] at plain
        exact .inl plain.1
    change supportedText (lowering.toLowerCase type.toList) = _
    rw [lowering.known known]
    refine supportedText_complete (fun c member => ?_) written
    obtain ⟨c, _, rfl⟩ := mem_map.mp member
    exact not_isUpper_toLower c

/-- White space of either half. -/
def anySpace (c : Char) : Bool := isWhitespace c || isSpace c

/-- A content type, with white space of either half and, unless `tight`, also in a bare list. -/
def ContentType (tight : Bool) (text : List Char) : Prop :=
  ∃ container flags, Written anySpace tight text container flags

/-- One half's grammar is the common one without the white space that is the other half's own. -/
theorem Written.own {own : Char} (differs : ∀ c, space c = (anySpace c && c ≠ own))
    (strange : plain own = false) : Written space tight text container flags ↔
      Written anySpace tight text container flags ∧ own ∉ text := by
  constructor
  · intro written
    have free : own ∉ text := by
      intro member
      rcases written.chars own member with spaced | plainly
      · simp [differs own] at spaced
      · rw [strange] at plainly
        cases plainly
    refine ⟨written.congr fun c member => ?_, free⟩
    have other : c ≠ own := fun same => free (same ▸ member)
    simp [differs c, other]
  · rintro ⟨written, free⟩
    refine written.congr fun c member => ?_
    have other : c ≠ own := fun same => free (same ▸ member)
    simp [differs c, other]

theorem toNat_ne {c d : Char} (other : c ≠ d) : c.toNat ≠ d.toNat := fun same =>
  other (Char.toNat_inj.mp same)

theorem isWhitespace_own (c : Char) : isWhitespace c = (anySpace c && c ≠ '\ufeff') := by
  by_cases same : c = '\ufeff'
  · subst same
    decide
  · have apart : ¬ c.toNat = 0xfeff := toNat_ne same
    simp only [anySpace, isSpace, same, apart, ne_eq, not_false_eq_true, decide_true, decide_false,
      Bool.or_false, Bool.and_true]
    cases isWhitespace c <;> simp

theorem isSpace_own (c : Char) : isSpace c = (anySpace c && c ≠ '\u0085') := by
  by_cases same : c = '\u0085'
  · subst same
    decide
  · have apart : c.toNat ≠ 0x85 := toNat_ne same
    simp only [anySpace, isSpace, same, apart, ne_eq, not_false_eq_true, decide_true,
      Bool.and_true]
    cases isWhitespace c <;> simp

/-- `MediaSource.prototype.addSourceBuffer` -/
def addSourceBuffer (readMp4 : ReadMp4) (videoSupported : Bool) (lowering : Lowering)
    (opened : Bool) (store : Store) (source buffer : Nat) (type : String) :
    Store × Except Error Value :=
  if ¬ opened then (store, .error (.state "MediaSource is closed or ended"))
  else if (supported videoSupported lowering type).isNone then
    (store, .error ⟨"NotSupportedError", "Unsupported MSE content type"⟩)
  else store.control readMp4 { op := .add, source, buffer, mime := type }

/-- A call is refused for the type that it names. -/
def Refused (result : Store × Except Error Value) : Prop :=
  ∃ message, result.2 = .error ⟨"NotSupportedError", message⟩

/-- The two halves agree on a type. -/
structure Agree (lowering : Lowering) (type : String) : Prop where
  sound : ∀ flags, supported true lowering type = some flags →
    ∃ found, mime type = some found ∧ ∀ declared ∈ flags, found = declared
  complete : (mime type).isSome → (supported true lowering type).isSome
  added : ∀ readMp4 store source buffer, (supported true lowering type).isSome ↔
    ¬ Refused (addSourceBuffer readMp4 true lowering true store source buffer type)

theorem add_refused {presentation : Presentation} {request : Request} {error : Error}
    (refused : (presentation.add request).2 = .error error)
    (named : error.name = "NotSupportedError") : mime request.mime = none := by
  cases read : mime request.mime with
  | none => rfl
  | some found =>
    simp only [Presentation.add, read] at refused
    split_ifs at refused
    · cases refused
      exact absurd named (by decide)
    · cases refused
      exact absurd named (by decide)

theorem control_refused {readMp4 : ReadMp4} {store : Store} {source buffer : Nat}
    (refused : Refused (store.control readMp4 { op := .add, source, buffer, mime := type })) :
    mime type = none := by
  obtain ⟨message, refused⟩ := refused
  unfold Store.control at refused
  dsimp only at refused
  split at refused
  · have named : "InvalidStateError" = "NotSupportedError" :=
      congrArg Error.name (Except.error.inj refused)
    exact absurd named (by decide)
  · rename_i presentation _
    have added : (presentation.add { op := .add, source, buffer, mime := type }).2 =
        .error ⟨"NotSupportedError", message⟩ := by
      cases result : (presentation.add { op := .add, source, buffer, mime := type }).2 with
      | ok _ =>
        change Except.map _ (presentation.add _).2 = _ at refused
        rw [result] at refused
        cases refused
      | error error =>
        change Except.map _ (presentation.add _).2 = _ at refused
        rw [result] at refused
        rw [Except.error.inj refused]
    exact add_refused added rfl

theorem supported_isSome (lowering : Lowering) (type : String) :
    (supported true lowering type).isSome ↔
      ContentType true (lowered type) ∧ '\u0085' ∉ lowered type := by
  rw [Option.isSome_iff_exists]
  constructor
  · rintro ⟨flags, read⟩
    obtain ⟨container, written⟩ := supported_iff.mp read
    obtain ⟨common, free⟩ := (Written.own isSpace_own (by decide)).mp written
    exact ⟨⟨container, flags, common⟩, free⟩
  · rintro ⟨⟨container, flags, common⟩, free⟩
    refine ⟨flags, supported_iff.mpr ⟨container, ?_⟩⟩
    exact (Written.own isSpace_own (by decide)).mpr ⟨common, free⟩

theorem mime_isSome (type : String) :
    (mime type).isSome ↔ ContentType false (lowered type) ∧ '\ufeff' ∉ lowered type := by
  rw [Option.isSome_iff_exists]
  constructor
  · rintro ⟨found, read⟩
    obtain ⟨container, flags, written, _⟩ := mime_iff.mp read
    obtain ⟨common, free⟩ := (Written.own isWhitespace_own (by decide)).mp written
    exact ⟨⟨container, flags, common⟩, free⟩
  · rintro ⟨⟨container, flags, common⟩, free⟩
    refine ⟨_, mime_iff.mpr ⟨container, flags, ?_, rfl⟩⟩
    exact (Written.own isWhitespace_own (by decide)).mpr ⟨common, free⟩

theorem mime_of_supported {lowering : Lowering}
    (page : supported true lowering type = some flags) (behind : (mime type).isSome) :
    ∃ found, mime type = some found ∧ ∀ declared ∈ flags, found = declared := by
  obtain ⟨container, written⟩ := supported_iff.mp page
  obtain ⟨common, _⟩ := (Written.own isSpace_own (by decide)).mp written
  have free := ((mime_isSome type).mp behind).2
  have own := (Written.own isWhitespace_own (by decide)).mpr ⟨common.loosen, free⟩
  refine ⟨_, mime_iff.mpr ⟨container, flags, own, rfl⟩, ?_⟩
  rintro declared ⟨⟩
  rfl

theorem halves_iff {common tight here there : Prop} (tightly : tight → common) :
    (tight ∧ ¬ there ↔ common ∧ ¬ here) ↔ (common → (here ↔ there ∨ ¬ tight)) := by
  tauto

/-- The halves agree on what is no content type for either of them. On a content type they do where
U+FEFF, which only the page trims, stands in it exactly if something stands in it that only the
other half accepts: U+0085, or white space within a bare list. -/
theorem agree_iff (lowering : Lowering) (type : String) :
    Agree lowering type ↔ (ContentType false (lowered type) →
      ('\ufeff' ∈ lowered type ↔
        '\u0085' ∈ lowered type ∨ ¬ ContentType true (lowered type))) := by
  have tightly : ContentType true (lowered type) → ContentType false (lowered type) :=
    fun ⟨container, flags, written⟩ => ⟨container, flags, written.loosen⟩
  have page := supported_isSome lowering type
  have behind := mime_isSome type
  have same : Agree lowering type ↔
      ((supported true lowering type).isSome ↔ (mime type).isSome) := by
    constructor
    · intro agree
      refine ⟨fun accepted => ?_, agree.complete⟩
      obtain ⟨flags, read⟩ := Option.isSome_iff_exists.mp accepted
      obtain ⟨found, so, _⟩ := agree.sound flags read
      rw [so]
      rfl
    · intro both
      refine ⟨fun flags read => ?_, both.mpr, fun readMp4 store source buffer => ?_⟩
      · exact mime_of_supported read (both.mp (by rw [read]; rfl))
      · constructor
        · rintro accepted ⟨message, refused⟩
          have known : (supported true lowering type).isNone = false := by
            rw [← Option.not_isSome, accepted]
            rfl
          unfold addSourceBuffer at refused
          rw [if_neg (by decide), known, if_neg Bool.false_ne_true] at refused
          have none := control_refused ⟨message, refused⟩
          rw [both, none] at accepted
          cases accepted
        · intro admitted
          by_contra other
          have unknown : (supported true lowering type).isNone := by
            rw [← Option.not_isSome, Bool.eq_false_iff.mpr other]
            rfl
          refine admitted ⟨"Unsupported MSE content type", ?_⟩
          unfold addSourceBuffer
          rw [if_neg (by decide), if_pos unknown]
  rw [same, page, behind]
  exact halves_iff tightly

theorem lowered_toLower (c : Char) : Lowered c [c.toLower] := by
  unfold Lowered
  split_ifs with known
  · rfl
  · obtain ⟨wide, bare⟩ := not_or.mp known
    have same : c.toLower = c := toLower_of_not_isUpper fun upper => wide (ascii_of_isUpper upper)
    rw [same]
    exact .inr ⟨c, mem_singleton_self c, wide, Bool.eq_false_iff.mpr bare⟩

/-- An engine that knows the lower case of ASCII. -/
def asciiLowering : Lowering where
  toLowerCase text := text.map Char.toLower
  pieces text := by
    refine ⟨text.map fun c => [c.toLower], ?_, ?_⟩
    · rw [List.forall₂_map_right_iff, List.forall₂_same]
      exact fun c _ => lowered_toLower c
    · induction text with
      | nil => rfl
      | cons c text ih => rw [List.map_cons, List.map_cons, List.flatten_cons, ← ih]; rfl

/-- A bare list with a space behind its comma, and the two characters that one half trims. -/
theorem halves_disagree :
    ¬ Agree asciiLowering "video/mp4; codecs=avc1.42001e, mp4a.40.2" ∧
      ¬ Agree asciiLowering "video/mp4\u0085" ∧ ¬ Agree asciiLowering "video/mp4\ufeff" := by
  refine ⟨fun agree => ?_, fun agree => ?_, fun agree => ?_⟩
  · have accepted : mime "video/mp4; codecs=avc1.42001e, mp4a.40.2" = some ⟨true, true⟩ := by
      decide
    have admitted := agree.complete (by rw [accepted]; rfl)
    exact absurd admitted (by decide)
  · have accepted : mime "video/mp4\u0085" = some ⟨true, false⟩ := by decide
    have admitted := agree.complete (by rw [accepted]; rfl)
    exact absurd admitted (by decide)
  · have accepted : supported true asciiLowering "video/mp4\ufeff" = some none := by decide
    obtain ⟨found, read, _⟩ := agree.sound _ accepted
    have refused : mime "video/mp4\ufeff" = none := by decide
    cases read

end Chuzz.Video
