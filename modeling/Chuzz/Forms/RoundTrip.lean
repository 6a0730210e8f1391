import Chuzz.Forms.Reading

/-! An entry comes back as it was sent unless its names hold what the writer escapes, or a
backslash, which only the reader takes for an escape. -/
namespace Chuzz.Forms
open List

/-- A boundary stands in what an entry holds. -/
def Occurs (boundary : Text) : Value → Prop
  | .text value => boundary <:+: value
  | .file file => boundary <:+: binary file.bytes

theorem infix_behind {c : Char} {start first second : Text} (none : c ∉ first)
    (inside : c :: start <:+: first ++ second) : c :: start <:+: second := by
  induction first with
  | nil => exact inside
  | cons d first ih =>
    rcases infix_cons_iff.mp inside with here | later
    · obtain rfl := (cons_prefix_cons.mp here).1
      exact absurd mem_cons_self none
    · exact ih (fun inside => none (mem_cons_of_mem d inside)) later

variable {start text : Text} {name : Text}

theorem prefix_latin (ascii : ∀ c ∈ start, Ascii c) (begins : start <+: latin text) :
    start <+: text := by
  induction start generalizing text with
  | nil => exact nil_prefix
  | cons c start ih =>
    cases text with
    | nil => exact absurd (prefix_nil.mp begins) (by simp)
    | cons d text =>
      have here := ascii c mem_cons_self
      by_cases other : Ascii d
      · rw [latin_cons other, cons_prefix_cons] at begins
        exact cons_prefix_cons.mpr ⟨begins.1,
          ih (fun c inside => ascii c (mem_cons_of_mem _ inside)) begins.2⟩
      · obtain ⟨some, wide⟩ := latin_wide other
        rw [latin_step] at begins
        cases bytes : latin [d] with
        | nil => exact absurd bytes some
        | cons first more =>
          rw [bytes, cons_append, cons_prefix_cons] at begins
          exact absurd (begins.1 ▸ here) (wide first (by simp [bytes]))

theorem infix_latin {c : Char} (ascii : ∀ d ∈ c :: start, Ascii d)
    (inside : c :: start <:+: latin text) : c :: start <:+: text := by
  induction text with
  | nil => exact absurd (infix_nil.mp inside) (by simp)
  | cons d text ih =>
    by_cases other : Ascii d
    · rw [latin_cons other, infix_cons_iff, ← latin_cons other] at inside
      rcases inside with here | later
      · exact (prefix_latin ascii here).isInfix
      · exact (ih later).trans (suffix_cons d text).isInfix
    · rw [latin_step] at inside
      have apart : c ∉ latin [d] :=
        fun here => (latin_wide other).2 c here (ascii c mem_cons_self)
      exact (ih (infix_behind apart inside)).trans (suffix_cons d text).isInfix

theorem prefix_newline (carriage : '\r' ∉ start) (feed : '\n' ∉ start)
    (begins : start <+: newline text) : start <+: text := by
  induction start generalizing text with
  | nil => exact nil_prefix
  | cons c start ih =>
    have first : '\r' ≠ c := fun same => carriage (same ▸ mem_cons_self)
    have later : '\r' ∉ start ∧ '\n' ∉ start :=
      ⟨fun inside => carriage (mem_cons_of_mem c inside),
        fun inside => feed (mem_cons_of_mem c inside)⟩
    cases text with
    | nil => exact absurd (prefix_nil.mp begins) (by simp)
    | cons d text =>
      by_cases ends : d = '\r' ∨ d = '\n'
      · have starts : ∃ rest, newline (d :: text) = '\r' :: rest := by
          rcases ends with rfl | rfl
          · rw [newline.eq_def]
            cases text with
            | nil => exact ⟨_, rfl⟩
            | cons e text =>
              by_cases pair : e = '\n'
              · subst pair
                exact ⟨_, rfl⟩
              · simp [pair]
          · exact ⟨_, by rw [newline]⟩
        obtain ⟨rest, starts⟩ := starts
        rw [starts, cons_prefix_cons] at begins
        exact absurd begins.1.symm first
      · rw [not_or] at ends
        rw [newline_other ends.1 ends.2, cons_prefix_cons] at begins
        exact cons_prefix_cons.mpr ⟨begins.1, ih later.1 later.2 begins.2⟩

theorem infix_newline {c : Char} (carriage : '\r' ∉ c :: start) (feed : '\n' ∉ c :: start)
    (inside : c :: start <:+: newline text) : c :: start <:+: text := by
  have apart : c ∉ ['\r', '\n'] := by
    intro same
    rcases mem_cons.mp same with rfl | same
    · exact carriage mem_cons_self
    · obtain rfl := mem_singleton.mp same
      exact feed mem_cons_self
  induction text using newline.induct with
  | case1 rest ih =>
    have later := ih (infix_behind apart inside)
    exact later.trans (suffix_append ['\r', '\n'] rest).isInfix
  | case2 rest single ih =>
    rw [newline] at inside
    · have later := ih (infix_behind apart inside)
      exact later.trans (suffix_cons '\r' rest).isInfix
    · exact single
  | case3 rest ih =>
    have later := ih (infix_behind apart inside)
    exact later.trans (suffix_cons '\n' rest).isInfix
  | case4 d rest _ first second ih =>
    rw [newline_other first second, infix_cons_iff, ← newline_other first second] at inside
    rcases inside with here | later
    · exact (prefix_newline carriage feed here).isInfix
    · exact (ih later).trans (suffix_cons d rest).isInfix
  | case5 => exact absurd (infix_nil.mp inside) (by simp)

theorem boundary_clean (random : List UInt8) : ∀ c ∈ boundary random,
    Ascii c ∧ c ∉ ['\r', '\n', ';'] ∧ space c = false := by
  have digits : ∀ value < 16, Ascii (hexDigit value) ∧ hexDigit value ∉ ['\r', '\n', ';'] ∧
      space (hexDigit value) = false := by decide
  have start : ∀ c ∈ "----chuzz".toList, Ascii c ∧ c ∉ ['\r', '\n', ';'] ∧ space c = false :=
    forall_text (by decide)
  intro c inside
  rcases mem_append.mp inside with inside | inside
  · exact start c inside
  · obtain ⟨value, _, digit⟩ := mem_flatMap.mp inside
    have small : value.toNat < 256 := value.toNat_lt
    simp only [mem_cons, not_mem_nil, or_false] at digit
    rcases digit with rfl | rfl
    · exact digits _ (by omega)
    · exact digits _ (by omega)

theorem boundaryOf_type (random : List UInt8) :
    boundaryOf ("multipart/form-data; boundary=".toList ++ boundary random) =
      some (boundary random) := by
  have start : boundaryOf ("multipart/form-data; boundary=".toList ++ boundary random) =
      (boundaryValue (boundary random) <|>
        boundaryAfter 'b' ("oundary=".toList ++ boundary random)) := rfl
  have all : (boundary random).takeWhile (fun c => c ≠ ';' && !space c) = boundary random := by
    rw [takeWhile_eq_self_iff]
    intro c inside
    obtain ⟨_, apart, solid⟩ := boundary_clean random c inside
    have semicolon : c ≠ ';' := fun same => apart (by simp [same])
    simp [semicolon, solid]
  obtain ⟨rest, same⟩ : ∃ rest, boundary random = '-' :: rest := ⟨_, rfl⟩
  have value : boundaryValue (boundary random) = some (boundary random) := by
    rw [boundaryValue, all, same]
    · rfl
    · rw [same]
      exact fun _ quote => by cases quote
  rw [start, value]
  rfl

theorem parseForm_multipart (search : Text → List (Text × Text)) {random : List UInt8}
    {form : Form} {bytes : List UInt8} {type : Text}
    (sent : multipart random form = .ok (bytes, type))
    (clear : ∀ entry ∈ form, ¬ Occurs (boundary random) entry.2) :
    parseForm search bytes type = form.mapM back := by
  have clean := boundary_clean random
  unfold multipart at sent
  dsimp only at sent
  split at sent
  · cases sent
  · cases sent
    have dashes : ∀ c ∈ "--".toList, Ascii c := forall_text (by decide)
    have ascii : ∀ c ∈ "--".toList ++ boundary random, Ascii c := by
      intro c inside
      rcases mem_append.mp inside with inside | inside
      · exact dashes c inside
      · exact (clean c inside).1
    have single : '\r' ∉ "--".toList ++ boundary random := by
      rw [mem_append]
      rintro (inside | inside)
      · exact absurd inside (by decide)
      · exact (clean _ inside).2.1 (by decide)
    have other : urlencoded ("multipart/form-data; boundary=".toList ++ boundary random) = false :=
      rfl
    have first : breakOn ("--".toList ++ boundary random) ("--".toList ++ boundary random ++
        following ("--".toList ++ boundary random) form) =
        some ([], following ("--".toList ++ boundary random) form) := breakOn_here _
    have apart : ∀ entry ∈ form, ¬ '\r' :: '\n' :: ("--".toList ++ boundary random) <:+:
        binary (payload entry.2) := by
      intro entry member inside
      apply clear entry member
      have shorter : boundary random <:+: binary (payload entry.2) :=
        (suffix_append ('\r' :: '\n' :: "--".toList) (boundary random)).isInfix.trans inside
      obtain ⟨name, value | file⟩ := entry
      · obtain ⟨rest, same⟩ : ∃ rest, boundary random = '-' :: rest := ⟨_, rfl⟩
        rw [Occurs, same]
        rw [same] at shorter clean
        apply infix_newline
        · exact fun inside => (clean _ inside).2.1 (by decide)
        · exact fun inside => (clean _ inside).2.1 (by decide)
        · exact infix_latin (fun c inside => (clean c inside).1) shorter
      · exact shorter
    unfold parseForm
    rw [other, boundaryOf_type]
    dsimp only
    rw [binary_written ascii, first]
    dsimp only
    rw [parts_following single form [] apart]
    cases form.mapM back <;> rfl

/-- The entry that was sent, and what it should come back as. -/
def Same : Entry → Entry → Prop
  | (name, .text value), (name', .text value') =>
    newline name' = newline name ∧ newline value' = newline value
  | (name, .file file), (name', .file file') =>
    newline name' = newline name ∧ file'.name = file.name ∧ file'.bytes = file.bytes ∧
      file'.type = sentType file
  | _, _ => False

/-- Nothing of a name is escaped, and no header with it is refused. -/
def Tame (name : Text) : Prop := '"' ∉ name ∧ '\r' ∉ name ∧ '\n' ∉ name ∧ '\x00' ∉ name

def Survives : Entry → Prop
  | (name, .text _) => Tame name ∧ '\\' ∉ name.dropLast
  | (name, .file file) =>
    Tame name ∧ '\\' ∉ name ∧ Tame file.name ∧ '\\' ∉ file.name.dropLast ∧
      (hides (latin name) = true → file.name = "; filename=".toList) ∧
      trimmed file.type = file.type

theorem quoted_plain (tame : Tame name) : quoted name = name :=
  quoted_eq_self tame.1 tame.2.1 tame.2.2.1

/-- A name that comes back through its quotation has none of what the writer escapes. -/
theorem quoted_back (same : plain (quoted name) = newline name) :
    ('"' ∉ name ∧ '\r' ∉ name ∧ '\n' ∉ name) ∧ '\\' ∉ name.dropLast := by
  obtain ⟨quote, carriage, feed⟩ := quoted_clean name
  have none : '\r' ∉ newline name := same ▸ fun inside => carriage (plain_subset _ inside)
  obtain ⟨carriage', feed'⟩ := newline_none none
  rw [newline_eq_self carriage' feed'] at same
  have quote' : '"' ∉ name := same ▸ fun inside => quote (plain_subset _ inside)
  rw [quoted_eq_self quote' carriage' feed', plain_eq_self] at same
  exact ⟨⟨quote', carriage', feed'⟩, same⟩

theorem dangling_slash (inner : '\\' ∉ name.dropLast) (slash : '\\' ∈ name) :
    dangling (latin name) = true := by
  rcases eq_nil_or_concat name with rfl | ⟨front, c, rfl⟩
  · cases slash
  · rw [concat_eq_append] at inner slash ⊢
    rw [dropLast_concat] at inner
    have last : c = '\\' := by
      rcases mem_append.mp slash with inside | inside
      · exact absurd inside inner
      · exact (mem_singleton.mp inside).symm
    rw [last, latin_append, latin_single (by decide)]
    apply dangling_last
    rwa [mem_latin (by decide)]

theorem back_text (name value : Text) :
    (∃ read, back (name, .text value) = .ok read ∧ Same (name, .text value) read) ↔
      Survives (name, .text value) := by
  rw [back]
  constructor
  · rintro ⟨read, here, same⟩
    by_cases bad : '\x00' ∈ name
    · rw [if_pos bad] at here
      cases here
    · rw [if_neg bad] at here
      cases here
      obtain ⟨_, carriage, feed⟩ := quoted_clean name
      have first : newline (plain (quoted name)) = newline name := same.1
      rw [newline_eq_self (fun inside => carriage (plain_subset _ inside))
        fun inside => feed (plain_subset _ inside)] at first
      obtain ⟨⟨quote, carriage, feed⟩, inner⟩ := quoted_back first
      exact ⟨⟨quote, carriage, feed, bad⟩, inner⟩
  · rintro ⟨tame, inner⟩
    refine ⟨_, if_neg tame.2.2.2, ?_, newline_newline value⟩
    rw [quoted_plain tame, (plain_eq_self name).mpr inner]

theorem fileName_unslashed (none : '/' ∉ name) : fileName name = name := by
  rw [fileName, usv_text]
  conv_rhs => rw [← map_id name]
  apply map_congr_left
  intro c inside
  have apart : c ≠ '/' := by
    rintro rfl
    exact none inside
  rw [if_neg apart]
  rfl

theorem unslashed (file : File) : '/' ∉ file.name := by
  rw [← file.named]
  intro inside
  obtain ⟨c, _, same⟩ := mem_map.mp inside
  by_cases slash : c = '/'
  · rw [if_pos slash] at same
    exact absurd same (by decide)
  · rw [if_neg slash] at same
    exact slash same

theorem readFilename_unslashed (name : Text) (file : File) :
    '/' ∉ plain (readFilename name file) := by
  intro inside
  have inside := plain_subset _ inside
  rw [readFilename] at inside
  split at inside
  · exact absurd inside (by decide)
  · rw [mem_quoted (by decide) (by decide) (by decide) (by decide)] at inside
    exact unslashed file inside

theorem blobType_subset {type part : Text} (fits : blobType type = type) (within : part ⊆ type) :
    blobType part = part := by
  have all := lower_blank fits
  have whole : type.all printable = true := all_eq_true.mpr all
  rw [blobType, if_pos whole] at fits
  have fixed : ∀ c ∈ type, lower c = c := by
    exact map_inj_left.mp (by simpa using fits)
  rw [blobType, if_pos (all_eq_true.mpr fun c inside => all c (within inside))]
  conv_rhs => rw [← map_id part]
  exact map_congr_left fun c inside => fixed c (within inside)

theorem readType_back (file : File) :
    blobType (readType file) = sentType file ↔ trimmed file.type = file.type := by
  by_cases empty : file.type = []
  · have sent : sentType file = "application/octet-stream".toList := if_pos empty
    have read : readType file = "application/octet-stream".toList := by
      rw [readType, sent]
      rfl
    rw [read, sent, empty]
    exact ⟨fun _ => rfl, fun _ => rfl⟩
  · have sent : sentType file = file.type := if_neg empty
    have part := blobType_subset file.typed (trimmed_sublist file.type)
    rw [readType, sent]
    cases trims : trimmed file.type with
    | nil =>
      refine ⟨fun same => ?_, fun same => absurd same.symm empty⟩
      have plain : trimmed file.type = "text/plain".toList := by
        rw [← same]
        rfl
      rw [trims] at plain
      cases plain
    | cons c rest =>
      rw [trims] at part
      rw [part]

theorem readName_back (same : plain (readName name) = newline name) :
    dangling (latin (quoted name)) = false := by
  by_contra hidden
  have hidden : dangling (latin (quoted name)) = true := by simpa using hidden
  obtain ⟨carriage, feed⟩ := readName_line name
  have none : '\r' ∉ newline name := same ▸ fun inside => carriage (plain_subset _ inside)
  obtain ⟨carriage', feed'⟩ := newline_none none
  have read : readName name = quoted name ++ "\"; filename=".toList := if_pos hidden
  -- the name ends as the parameter does, and so not in a backslash
  have last : name.getLast? = some '=' := by
    rw [← newline_eq_self carriage' feed', ← same, getLast?_plain, read]
    rw [getLast?_append]
    rfl
  have last' : (quoted name).getLast? = some '=' := by
    rw [quoted, newline_eq_self carriage' feed']
    exact getLast?_replaceAll (getLast?_replaceAll (getLast?_replaceAll last (by decide))
      (by decide)) (by decide)
  have slash := getLast?_dangling hidden
  obtain ⟨front, ends⟩ := getLast?_eq_some_iff.mp last'
  rw [ends, latin_append, latin_single (by decide), getLast?_concat] at slash
  cases slash

theorem back_file (name : Text) (file : File) :
    (∃ read, back (name, .file file) = .ok read ∧ Same (name, .file file) read) ↔
      Survives (name, .file file) := by
  have made : newFile file.bytes (plain (readFilename name file)) (readType file) = .ok
      { name := fileName (plain (readFilename name file)), type := blobType (readType file)
        bytes := file.bytes, named := fileName_fileName _, typed := blobType_blobType _
        small := file.small } := dif_pos file.small
  have unslashed := fileName_unslashed (readFilename_unslashed name file)
  rw [back, made]
  constructor
  · rintro ⟨read, here, same⟩
    by_cases bad : '\x00' ∈ name ∨ '\x00' ∈ file.name
    · rw [if_pos bad] at here
      cases here
    · rw [if_neg bad] at here
      cases here
      rw [not_or] at bad
      obtain ⟨named, filed, _, typed⟩ : newline (plain (readName name)) = newline name ∧
        fileName (plain (readFilename name file)) = file.name ∧ file.bytes = file.bytes ∧
        blobType (readType file) = sentType file := same
      obtain ⟨carriage, feed⟩ := readName_line name
      rw [newline_eq_self (fun inside => carriage (plain_subset _ inside))
        fun inside => feed (plain_subset _ inside)] at named
      have open_ := readName_back named
      have whole : readName name = quoted name := if_neg (by simp [open_])
      rw [whole] at named
      obtain ⟨⟨quote, carriage', feed'⟩, inner⟩ := quoted_back named
      have tame : Tame name := ⟨quote, carriage', feed', bad.1⟩
      rw [quoted_plain tame] at open_
      have slash : '\\' ∉ name := by
        intro slash
        rw [dangling_slash inner slash] at open_
        cases open_
      rw [unslashed] at filed
      have shown : Tame file.name ∧ '\\' ∉ file.name.dropLast ∧
          (hides (latin name) = true → file.name = "; filename=".toList) := by
        rw [readFilename, quoted_plain tame] at filed
        split at filed
        · have fixed : plain "; filename=".toList = "; filename=".toList := by decide
          rw [← filed]
          exact ⟨⟨by decide, by decide, by decide, by decide⟩, by decide, fun _ => rfl⟩
        · rename_i apart
          obtain ⟨_, carriage, feed⟩ := quoted_clean file.name
          have lines : newline file.name = file.name := newline_eq_self
            (filed ▸ fun inside => carriage (plain_subset _ inside))
            (filed ▸ fun inside => feed (plain_subset _ inside))
          obtain ⟨⟨quote, carriage, feed⟩, inner⟩ := quoted_back (filed.trans lines.symm)
          exact ⟨⟨quote, carriage, feed, bad.2⟩, inner, fun hidden => absurd hidden apart⟩
      exact ⟨tame, slash, shown.1, shown.2.1, shown.2.2, (readType_back file).mp typed⟩
  · rintro ⟨tame, slash, tame', inner', hidden, trims⟩
    have bad : ¬ ('\x00' ∈ name ∨ '\x00' ∈ file.name) :=
      not_or.mpr ⟨tame.2.2.2, tame'.2.2.2⟩
    have open_ : dangling (latin name) = false :=
      dangling_none fun inside => slash ((mem_latin (by decide) name).mp inside)
    have whole : readName name = name := by
      rw [readName, quoted_plain tame, if_neg (by simp [open_])]
    have shown : plain (readFilename name file) = file.name := by
      rw [readFilename, quoted_plain tame, quoted_plain tame']
      split
      · rename_i hides
        rw [hidden hides]
        decide
      · exact (plain_eq_self file.name).mpr inner'
    refine ⟨_, if_neg bad, ?_, unslashed.trans shown, rfl, (readType_back file).mpr trims⟩
    rw [whole, (plain_eq_self name).mpr fun inside => slash (dropLast_subset name inside)]

theorem mapM_back (form : Form) :
    (∃ read, form.mapM back = .ok read ∧ List.Forall₂ Same form read) ↔
      ∀ entry ∈ form, Survives entry := by
  have single : ∀ entry, (∃ read, back entry = .ok read ∧ Same entry read) ↔ Survives entry := by
    rintro ⟨name, value | file⟩
    · exact back_text name value
    · exact back_file name file
  induction form with
  | nil => exact ⟨fun _ _ none => (by cases none), fun _ => ⟨[], rfl, .nil⟩⟩
  | cons entry rest ih =>
    refine Iff.trans ?_ ((and_congr (single entry) ih).trans forall_mem_cons.symm)
    rw [mapM_cons]
    cases here : back entry with
    | error exception =>
      constructor
      · rintro ⟨read, fails, _⟩
        cases fails
      · rintro ⟨⟨read, fails, _⟩, _⟩
        cases fails
    | ok first =>
      change (∃ read, (rest.mapM back >>= fun rest => pure (first :: rest)) = .ok read ∧ _) ↔ _
      cases later : rest.mapM back with
      | error exception =>
        constructor
        · rintro ⟨read, fails, _⟩
          cases fails
        · rintro ⟨_, read, fails, _⟩
          cases fails
      | ok others =>
        constructor
        · rintro ⟨read, same, alike⟩
          cases same
          obtain ⟨head, tail⟩ := List.forall₂_cons.mp alike
          exact ⟨⟨first, rfl, head⟩, others, rfl, tail⟩
        · rintro ⟨⟨_, same, head⟩, _, same', tail⟩
          cases same
          cases same'
          exact ⟨_, rfl, .cons head tail⟩

theorem parseForm_survives (search : Text → List (Text × Text)) {random : List UInt8}
    {form : Form} {bytes : List UInt8} {type : Text}
    (sent : multipart random form = .ok (bytes, type))
    (clear : ∀ entry ∈ form, ¬ Occurs (boundary random) entry.2) :
    (∃ read, parseForm search bytes type = .ok read ∧ List.Forall₂ Same form read) ↔
      ∀ entry ∈ form, Survives entry := by
  rw [parseForm_multipart search sent clear, mapM_back]

theorem multipart_small (random : List UInt8) (form : Form)
    (small : (form.flatMap (written ("--".toList ++ boundary random)) ++
      encode ("--".toList ++ boundary random ++ "--\r\n".toList)).length ≤ allocationLimit) :
    ∃ bytes type, multipart random form = .ok (bytes, type) :=
  ⟨_, _, if_neg (Nat.not_lt.mpr small)⟩

example : newline "a\r\nb\rc".toList = "a\r\nb\r\nc".toList := by decide +kernel

def sampleRandom : List UInt8 := List.replicate 16 7

def sampleForm : Form := [("a".toList, .text "b\nc".toList)]

theorem parseForm_survives_sample : ∃ bytes type,
    multipart sampleRandom sampleForm = .ok (bytes, type) ∧
      ∃ read, parseForm (fun _ => []) bytes type = .ok read ∧ List.Forall₂ Same sampleForm read := by
  obtain ⟨bytes, type, sent⟩ := multipart_small sampleRandom sampleForm (by decide +kernel)
  refine ⟨bytes, type, sent, (parseForm_survives _ sent ?_).mpr ?_⟩
  · intro entry member
    obtain rfl := mem_singleton.mp member
    exact fun inside => absurd inside.length_le (by decide)
  · intro entry member
    obtain rfl := mem_singleton.mp member
    exact ⟨⟨by decide, by decide, by decide, by decide⟩, by decide⟩

def quoteForm : Form := [("a\"b".toList, .text [])]

/-- The quote is written as `%22`, which the reader leaves. -/
theorem not_parseForm_quote : ¬ ∀ (search : Text → List (Text × Text)) (random : List UInt8)
    (form : Form) (bytes : List UInt8) (type : Text),
    multipart random form = .ok (bytes, type) →
      (∀ entry ∈ form, ¬ Occurs (boundary random) entry.2) →
        ∃ read, parseForm search bytes type = .ok read ∧ List.Forall₂ Same form read := by
  intro all
  obtain ⟨bytes, type, sent⟩ := multipart_small sampleRandom quoteForm (by decide +kernel)
  have clear : ∀ entry ∈ quoteForm, ¬ Occurs (boundary sampleRandom) entry.2 := by
    intro entry member
    obtain rfl := mem_singleton.mp member
    exact fun inside => absurd inside.length_le (by decide)
  have read := all (fun _ => []) _ _ _ _ sent clear
  rw [parseForm_multipart _ sent clear, mapM_back] at read
  exact (read _ mem_cons_self).1.1 (by decide)

end Chuzz.Forms
