import Chuzz.Forms.Patterns

/-! A body that the writer has made is read part by part: where its headers and its data end,
and what its entry comes back as. -/
namespace Chuzz.Forms
open List

variable {text : Text} {c : Char}

example : newline text = [] ↔ text = [] := by
  induction text using newline.induct <;> simp [newline]

theorem newline_other (carriage : c ≠ '\r') (feed : c ≠ '\n') (text : Text) :
    newline (c :: text) = c :: newline text := by
  rw [newline]
  · exact fun _ same _ => carriage same
  · exact carriage
  · exact feed

theorem mem_newline (carriage : c ≠ '\r') (feed : c ≠ '\n') (text : Text) :
    c ∈ newline text ↔ c ∈ text := by
  induction text using newline.induct with
  | case1 rest ih => simp [newline, ih, carriage, feed]
  | case2 rest apart ih => simp [newline, ih, carriage, feed]
  | case3 rest ih => simp [newline, ih, carriage, feed]
  | case4 d rest _ first second ih => rw [newline_other first second, mem_cons, ih, mem_cons]
  | case5 => simp [newline]

theorem newline_newline (text : Text) : newline (newline text) = newline text := by
  induction text using newline.induct with
  | case1 rest ih => simp [newline, ih]
  | case2 rest apart ih => simp [newline, ih]
  | case3 rest ih => simp [newline, ih]
  | case4 d rest _ first second ih =>
    rw [newline_other first second, newline_other first second, ih]
  | case5 => simp [newline]

theorem newline_eq_self (carriage : '\r' ∉ text) (feed : '\n' ∉ text) : newline text = text := by
  induction text with
  | nil => rfl
  | cons c rest ih =>
    have here := ih (fun inside => carriage (mem_cons_of_mem c inside))
      fun inside => feed (mem_cons_of_mem c inside)
    have first : c ≠ '\r' := fun same => carriage (by simp [same])
    have second : c ≠ '\n' := fun same => feed (by simp [same])
    rw [newline_other first second, here]

theorem newline_none (none : '\r' ∉ newline text) : '\r' ∉ text ∧ '\n' ∉ text := by
  induction text using newline.induct with
  | case1 rest ih => exact absurd (by simp [newline]) none
  | case2 rest apart ih => exact absurd (by simp [newline]) none
  | case3 rest ih => exact absurd (by simp [newline]) none
  | case4 d rest _ first second ih =>
    rw [newline_other first second] at none
    have here := ih fun inside => none (mem_cons_of_mem d inside)
    simp [here, Ne.symm (show d ≠ '\r' from first), Ne.symm (show d ≠ '\n' from second)]
  | case5 => simp

variable {by_ : String}

theorem mem_replaceAll {c d : Char} :
    d ∈ replaceAll c by_ text ↔ d ∈ text ∧ d ≠ c ∨ c ∈ text ∧ d ∈ by_.toList := by
  rw [replaceAll, mem_flatMap]
  constructor
  · rintro ⟨e, inside, here⟩
    by_cases same : e = c
    · rw [if_pos same] at here
      exact .inr ⟨same ▸ inside, here⟩
    · rw [if_neg same] at here
      obtain rfl := mem_singleton.mp here
      exact .inl ⟨inside, same⟩
  · rintro (⟨inside, apart⟩ | ⟨inside, here⟩)
    · exact ⟨d, inside, by simp [apart]⟩
    · exact ⟨c, inside, by simpa using here⟩

theorem replaceAll_eq_self (none : c ∉ text) : replaceAll c by_ text = text := by
  induction text with
  | nil => rfl
  | cons d rest ih =>
    have apart : d ≠ c := by
      rintro rfl
      exact none mem_cons_self
    have here := ih fun inside => none (mem_cons_of_mem d inside)
    rw [replaceAll] at here ⊢
    rw [flatMap_cons, here, if_neg apart, singleton_append]

theorem getLast?_replaceAll {c d : Char} (last : text.getLast? = some d)
    (apart : d ≠ c) : (replaceAll c by_ text).getLast? = some d := by
  obtain ⟨front, rfl⟩ := getLast?_eq_some_iff.mp last
  rw [replaceAll, flatMap_append, flatMap_singleton, if_neg apart]
  simp

theorem quoted_clean (text : Text) :
    '"' ∉ quoted text ∧ '\r' ∉ quoted text ∧ '\n' ∉ quoted text := by
  simp [quoted, mem_replaceAll]

theorem mem_quoted (carriage : c ≠ '\r') (feed : c ≠ '\n') (quote : c ≠ '"')
    (apart : c ∉ ['%', '0', 'D', 'A', '2']) (text : Text) : c ∈ quoted text ↔ c ∈ text := by
  simp only [mem_cons, not_or] at apart
  simp [quoted, mem_replaceAll, mem_newline carriage feed, carriage, feed, quote, apart]

theorem quoted_eq_self (quote : '"' ∉ text) (carriage : '\r' ∉ text) (feed : '\n' ∉ text) :
    quoted text = text := by
  rw [quoted, newline_eq_self carriage feed, replaceAll_eq_self carriage, replaceAll_eq_self feed,
    replaceAll_eq_self quote]

theorem breakOn_pass {needle text : Text} (none : c ∉ text) (rest : Text) :
    breakOn (c :: needle) (text ++ rest) =
      (breakOn (c :: needle) rest).map fun (before, after) => (text ++ before, after) := by
  induction text with
  | nil =>
    rw [nil_append]
    cases breakOn (c :: needle) rest <;> rfl
  | cons d text ih =>
    have apart : c ≠ d := fun same => none (by simp [same])
    rw [cons_append, breakOn, if_neg (by simp [apart]),
      ih fun inside => none (mem_cons_of_mem d inside)]
    cases breakOn (c :: needle) rest <;> rfl

theorem breakOn_here {needle : Text} (rest : Text) :
    breakOn (c :: needle) (c :: needle ++ rest) = some ([], rest) := by
  rw [cons_append, breakOn, if_pos (by simp)]
  simp

theorem lines_single (none : '\r' ∉ text) : lines text = [text] := by
  induction text with
  | nil => rfl
  | cons c text ih =>
    have apart : c ≠ '\r' := fun same => none (by simp [same])
    rw [lines, ih fun inside => none (mem_cons_of_mem c inside)]
    exact fun _ same _ => apart same

theorem lines_pass (none : '\r' ∉ text) (rest : Text) :
    lines (text ++ '\r' :: '\n' :: rest) = text :: lines rest := by
  induction text with
  | nil => rfl
  | cons c text ih =>
    have apart : c ≠ '\r' := fun same => none (by simp [same])
    rw [cons_append, lines, ih fun inside => none (mem_cons_of_mem c inside)]
    exact fun _ same _ => apart same

/-- The next marker on a line of its own is the one behind the data, as a line end stands in
no marker. -/
theorem bodyEnd_data {marker data : Text} (none : '\r' ∉ marker)
    (clear : ¬ '\r' :: '\n' :: marker <:+: data) {tail : Text}
    (ends : tail.take 2 = "--".toList ∨ tail.take 2 = "\r\n".toList) :
    bodyEnd marker (data ++ '\r' :: '\n' :: (marker ++ tail)) = some (data, tail) := by
  induction data with
  | nil =>
    have behind : ('\r' :: '\n' :: (marker ++ tail)).drop (marker.length + 2) = tail := by
      simp
    have here : ("\r\n".toList ++ marker).isPrefixOf ('\r' :: '\n' :: (marker ++ tail)) = true :=
      isPrefixOf_iff_prefix.mpr (prefix_append ('\r' :: '\n' :: marker) tail)
    rw [nil_append, bodyEnd]
    rw [behind, if_pos ⟨here, ends⟩]
  | cons c data ih =>
    have later := ih fun inside => clear (inside.trans (suffix_cons c data).isInfix)
    rw [cons_append, bodyEnd, later]
    rw [if_neg]
    · rfl
    · rintro ⟨here, _⟩
      have here : '\r' :: '\n' :: marker <+: c :: data ++ '\r' :: '\n' :: (marker ++ tail) :=
        isPrefixOf_iff_prefix.mp here
      rcases prefix_or_prefix_of_prefix here (prefix_append _ _) with inside | past
      · exact clear inside.isInfix
      · -- the line end behind the data would stand in the marker
        obtain ⟨more, same⟩ := past
        rw [← same, prefix_append_right_inj] at here
        have inner : data ++ more = '\n' :: marker := (List.cons.inj same).2
        cases more with
        | nil =>
          rw [append_nil] at same
          exact clear (same ▸ infix_rfl)
        | cons d more =>
          obtain rfl : d = '\r' := (cons_prefix_cons.mp here).1
          have stands : '\r' ∈ '\n' :: marker := inner ▸ by simp
          simp [none] at stands

theorem trimmed_inner (first : ∀ c, text.head? = some c → blank c = false)
    (last : ∀ c, text.getLast? = some c → blank c = false) : trimmed (' ' :: text) = text := by
  have front : (' ' :: text).dropWhile blank = text := by
    rw [dropWhile_cons_of_pos (by decide)]
    cases text with
    | nil => rfl
    | cons c rest => rw [dropWhile_cons_of_neg (by simp [first c rfl])]
  rw [trimmed, front]
  rcases eq_nil_or_concat text with rfl | ⟨rest, c, rfl⟩
  · rfl
  · rw [concat_eq_append] at last ⊢
    simp [last c (by simp)]

theorem headerValue_clean {value : Text} (carriage : '\r' ∉ trimmed value)
    (feed : '\n' ∉ trimmed value) (small : ∀ c ∈ trimmed value, c.toNat < 0x100) :
    headerValue value =
      if '\x00' ∈ trimmed value then .error (.typeError "Invalid header value")
      else .ok (trimmed value) := by
  rw [headerValue]
  congr 1
  rw [any_eq_true]
  apply propext
  constructor
  · rintro ⟨c, inside, bad⟩
    have small := small c inside
    simp only [Bool.or_eq_true, decide_eq_true_eq] at bad
    rcases bad with ((rfl | rfl) | rfl) | wide
    · exact absurd inside carriage
    · exact absurd inside feed
    · exact inside
    · omega
  · exact fun inside => ⟨_, inside, by simp⟩

theorem parseLine_disposition (text : Text) :
    parseLine [] ("Content-Disposition: ".toList ++ text) =
      (headerValue (' ' :: text)).map fun value => [("content-disposition".toList, value)] := by
  have here : parseLine [] ("Content-Disposition: ".toList ++ text) =
      Headers.append [] "Content-Disposition".toList (' ' :: text) := rfl
  have name : headerName "Content-Disposition".toList = .ok "content-disposition".toList := rfl
  rw [here, Headers.append, name]
  cases headerValue (' ' :: text) <;> rfl

theorem parseLine_type (headers : Headers) (text : Text) :
    parseLine headers ("Content-Type: ".toList ++ text) =
      (headerValue (' ' :: text)).map fun value => headers ++ [("content-type".toList, value)] := by
  have here : parseLine headers ("Content-Type: ".toList ++ text) =
      headers.append "Content-Type".toList (' ' :: text) := rfl
  have name : headerName "Content-Type".toList = .ok "content-type".toList := rfl
  rw [here, Headers.append, name]
  cases headerValue (' ' :: text) <;> rfl

theorem parameter_name {text value : Text} (reads : quotation text = some value) :
    parameter "name" ("form-data; name=\"".toList ++ text) = some value := by
  have start : parameter "name" ("form-data; name=\"".toList ++ text) =
      (quotation text <|> parameterAfter "name" (" name=\"".toList ++ text)) := rfl
  rw [start, reads]
  rfl

theorem parameter_filename (text : Text) :
    parameter "filename" ("form-data; name=\"".toList ++ text) =
      parameterAfter "filename" text := rfl

theorem formData_disposition (text : Text) :
    formData ("form-data; name=\"".toList ++ text) = true := rfl

/-- The reader's name of a part with a file: a backslash at its end takes the file name's
parameter with it. -/
def readName (name : Text) : Text :=
  if dangling (latin (quoted name)) = true then quoted name ++ "\"; filename=".toList
  else quoted name

def readFilename (name : Text) (file : File) : Text :=
  if hides (latin (quoted name)) = true then "; filename=".toList else quoted file.name

def readType (file : File) : Text :=
  match trimmed (sentType file) with
  | [] => "text/plain".toList
  | type => type

def invalidValue : Exception := .typeError "Invalid header value"

/-- What is read of an entry. -/
def back : Entry → Except Exception Entry
  | (name, .text value) =>
    if '\x00' ∈ name then .error invalidValue
    else .ok (plain (quoted name), .text (newline value))
  | (name, .file file) =>
    if '\x00' ∈ name ∨ '\x00' ∈ file.name then .error invalidValue
    else
      (newFile file.bytes (plain (readFilename name file)) (readType file)).map fun file =>
        (plain (readName name), .file file)

theorem latin_clean (name : Text) : '"' ∉ latin (quoted name) ∧
    ∀ c ∈ latin (quoted name), lineTerminator c = false := by
  obtain ⟨quote, carriage, feed⟩ := quoted_clean name
  refine ⟨?_, latin_line carriage feed⟩
  rwa [mem_latin (by decide)]

theorem disposition_text (name value : Text) : disposition name (.text value) =
    "form-data; name=\"".toList ++ quoted name ++ ['"'] := rfl

theorem disposition_file (name : Text) (file : File) : disposition name (.file file) =
    "form-data; name=\"".toList ++ quoted name ++ "\"; filename=\"".toList ++
      quoted file.name ++ ['"'] := rfl

/-- What neither the writer's own text holds nor its escapes stands in a disposition only where
it stands in a name. -/
theorem mem_disposition (first : c ∉ "form-data; name=\"".toList)
    (second : c ∉ "\"; filename=\"".toList) (name : Text) (value : Value) :
    c ∈ disposition name value ↔
      c ∈ quoted name ∨ ∃ file, value = .file file ∧ c ∈ quoted file.name := by
  have third : c ∉ ['"'] := by
    rw [mem_singleton]
    rintro rfl
    exact first (by decide)
  cases value with
  | text value =>
    rw [disposition_text, mem_append, mem_append]
    constructor
    · rintro ((inside | inside) | inside)
      · exact absurd inside first
      · exact .inl inside
      · exact absurd inside third
    · rintro (inside | ⟨_, none, _⟩)
      · exact .inl (.inr inside)
      · cases none
  | file file =>
    rw [disposition_file, mem_append, mem_append, mem_append, mem_append]
    constructor
    · rintro ((((inside | inside) | inside) | inside) | inside)
      · exact absurd inside first
      · exact .inl inside
      · exact absurd inside second
      · exact .inr ⟨file, rfl, inside⟩
      · exact absurd inside third
    · rintro (inside | ⟨_, same, inside⟩)
      · exact .inl (.inl (.inl (.inr inside)))
      · cases same
        exact .inl (.inr inside)

theorem disposition_line (name : Text) (value : Value) :
    '\r' ∉ disposition name value ∧ '\n' ∉ disposition name value := by
  rw [mem_disposition (by decide) (by decide), mem_disposition (by decide) (by decide)]
  constructor
  · rintro (inside | ⟨file, _, inside⟩)
    · exact (quoted_clean name).2.1 inside
    · exact (quoted_clean file.name).2.1 inside
  · rintro (inside | ⟨file, _, inside⟩)
    · exact (quoted_clean name).2.2 inside
    · exact (quoted_clean file.name).2.2 inside

theorem null_disposition (name : Text) (value : Value) :
    '\x00' ∈ disposition name value ↔
      '\x00' ∈ name ∨ ∃ file, value = .file file ∧ '\x00' ∈ file.name := by
  have same : ∀ text, '\x00' ∈ quoted text ↔ '\x00' ∈ text :=
    mem_quoted (by decide) (by decide) (by decide) (by decide)
  rw [mem_disposition (by decide) (by decide), same]
  constructor
  · rintro (inside | ⟨file, here, inside⟩)
    · exact .inl inside
    · exact .inr ⟨file, here, (same file.name).mp inside⟩
  · rintro (inside | ⟨file, here, inside⟩)
    · exact .inl inside
    · exact .inr ⟨file, here, (same file.name).mpr inside⟩

theorem headerValue_disposition (name : Text) (value : Value) :
    headerValue (' ' :: latin (disposition name value)) =
      if '\x00' ∈ disposition name value then .error invalidValue
      else .ok (latin (disposition name value)) := by
  obtain ⟨carriage, feed⟩ := disposition_line name value
  have first : ∃ rest, disposition name value = 'f' :: rest := by
    cases value <;> exact ⟨_, rfl⟩
  have last : ∃ front, disposition name value = front ++ ['"'] := by
    cases value <;> exact ⟨_, rfl⟩
  have inner : trimmed (' ' :: latin (disposition name value)) =
      latin (disposition name value) := by
    apply trimmed_inner
    · obtain ⟨rest, same⟩ := first
      rw [same, latin_cons (by decide)]
      rintro c head
      cases head
      decide
    · obtain ⟨front, same⟩ := last
      rw [same, latin_append, latin_single (by decide)]
      intro c head
      rw [getLast?_concat] at head
      cases head
      decide
  rw [headerValue_clean, inner]
  · simp only [mem_latin (show Ascii '\x00' by decide)]
    rfl
  · rwa [inner, mem_latin (by decide)]
  · rwa [inner, mem_latin (by decide)]
  · rw [inner]
    exact latin_small _

theorem lower_blank (fits : blobType text = text) : ∀ c ∈ text, printable c = true := by
  intro c inside
  rw [blobType] at fits
  split at fits
  · exact all_eq_true.mp ‹_› c inside
  · rw [← fits] at inside
    cases inside

theorem sentType_printable (file : File) : ∀ c ∈ sentType file, printable c = true := by
  rw [sentType]
  split
  · exact all_eq_true.mp (by decide)
  · exact lower_blank file.typed

theorem trimmed_sublist (text : Text) : trimmed text ⊆ text := by
  intro c inside
  exact (dropWhile_sublist blank).subset ((List.rdropWhile_prefix blank _).subset inside)

theorem headerValue_type (file : File) :
    headerValue (' ' :: sentType file) = .ok (trimmed (sentType file)) := by
  have inner : trimmed (' ' :: sentType file) = trimmed (sentType file) := by
    rw [trimmed, dropWhile_cons_of_pos (by decide), ← trimmed]
  have all : ∀ c ∈ trimmed (sentType file), printable c = true :=
    fun c inside => sentType_printable file c (trimmed_sublist _ inside)
  rw [headerValue_clean, inner, if_neg]
  · exact fun inside => absurd (all _ inside) (by decide)
  · rw [inner]
    exact fun inside => absurd (all _ inside) (by decide)
  · rw [inner]
    exact fun inside => absurd (all _ inside) (by decide)
  · rw [inner]
    intro c inside
    have small := all c inside
    simp only [printable, Bool.and_eq_true, decide_eq_true_eq] at small
    omega

theorem latin_disposition_text (name value : Text) : latin (disposition name (.text value)) =
    "form-data; name=\"".toList ++ (latin (quoted name) ++ ['"']) := by
  rw [disposition_text, latin_append, latin_append, latin_ascii (forall_text (by decide)),
    latin_single (by decide), append_assoc]

theorem latin_disposition_file (name : Text) (file : File) :
    latin (disposition name (.file file)) = "form-data; name=\"".toList ++ (latin (quoted name) ++
      '"' :: ("; filename=".toList ++ '"' :: (latin (quoted file.name) ++ ['"']))) := by
  have start : latin "form-data; name=\"".toList = "form-data; name=\"".toList :=
    latin_ascii (forall_text (by decide))
  have next : latin "\"; filename=\"".toList = '"' :: ("; filename=".toList ++ ['"']) :=
    latin_ascii (forall_text (by decide))
  rw [disposition_file, latin_append, latin_append, latin_append, latin_append, start, next,
    latin_single (by decide)]
  simp only [append_assoc, cons_append, nil_append]

theorem parseHead_ok {text disposition name : Text} {headers : Headers}
    (read : (lines text).foldlM parseLine [] = .ok headers)
    (get : headers.get "content-disposition" = some disposition)
    (data : formData disposition = true) (named : parameter "name" disposition = some name) :
    parseHead text = .ok { headers, name, filename := parameter "filename" disposition } := by
  unfold parseHead
  rw [read]
  dsimp only [Bind.bind, Except.bind]
  rw [get, Option.getD_some, data, named]
  rfl

theorem parseHead_error {exception : Exception}
    (read : (lines text).foldlM parseLine [] = .error exception) :
    parseHead text = .error exception := by
  unfold parseHead
  rw [read]
  rfl

theorem get_first (name : String) (text : Text) {rest : Headers}
    (others : ∀ entry ∈ rest, entry.1 ≠ name.toList) :
    Headers.get ((name.toList, text) :: rest) name = some text := by
  have none : rest.filter (·.1 = name.toList) = [] := by
    simpa using others
  simp [Headers.get, none, List.intercalate]

theorem get_skip {name : String} {entry : Text × Text} (apart : entry.1 ≠ name.toList)
    (rest : Headers) : Headers.get (entry :: rest) name = rest.get name := by
  simp [Headers.get, apart]

theorem quotation_name (name : Text) :
    quotation (latin (quoted name) ++ ['"']) = some (latin (quoted name)) := by
  obtain ⟨unquoted, lines⟩ := latin_clean name
  rw [quotation_quote unquoted lines]
  split <;> rfl

theorem quotation_filename (text : Text) :
    quotation ("; filename=".toList ++ '"' :: text) = some "; filename=".toList := by
  have lines : ∀ c ∈ "; filename=".toList, lineTerminator c = false := forall_text (by decide)
  rw [quotation_quote (by decide) lines, if_neg (by decide)]

theorem header_line (name : Text) (value : Value) :
    '\r' ∉ "Content-Disposition: ".toList ++ latin (disposition name value) := by
  rw [mem_append, mem_latin (by decide)]
  rintro (inside | inside)
  · exact absurd inside (by decide)
  · exact (disposition_line name value).1 inside

theorem type_line (file : File) : '\r' ∉ "Content-Type: ".toList ++ sentType file := by
  rw [mem_append]
  rintro (inside | inside)
  · exact absurd inside (by decide)
  · exact absurd (sentType_printable file _ inside) (by decide)

theorem latin_header_text (name value : Text) : latin (header (name, .text value)) =
    "Content-Disposition: ".toList ++ latin (disposition name (.text value)) := by
  have same : header (name, .text value) =
    "Content-Disposition: ".toList ++ disposition name (.text value) := rfl
  rw [same, latin_append, latin_ascii (forall_text (by decide))]

theorem latin_header_file (name : Text) (file : File) : latin (header (name, .file file)) =
    "Content-Disposition: ".toList ++ latin (disposition name (.file file)) ++
      '\r' :: '\n' :: ("Content-Type: ".toList ++ sentType file) := by
  have same : header (name, .file file) = "Content-Disposition: ".toList ++
      disposition name (.file file) ++ '\r' :: '\n' :: ("Content-Type: ".toList ++ sentType file) :=
    append_assoc _ _ _
  have ascii : ∀ c ∈ '\r' :: '\n' :: ("Content-Type: ".toList ++ sentType file), Ascii c := by
    intro c inside
    rw [← cons_append, ← cons_append, mem_append] at inside
    rcases inside with inside | inside
    · exact forall_text (by decide) c inside
    · have all := sentType_printable file c inside
      simp only [printable, Bool.and_eq_true, decide_eq_true_eq] at all
      exact Nat.lt_of_le_of_lt all.2 (by decide)
  rw [same, latin_append, latin_append, latin_ascii ascii, latin_ascii (forall_text (by decide))]

theorem parseHead_text (name value : Text) :
    parseHead (latin (header (name, .text value))) =
      if '\x00' ∈ name then .error invalidValue
      else .ok
        { headers := [("content-disposition".toList, latin (disposition name (.text value)))]
          name := latin (quoted name), filename := none } := by
  have null : '\x00' ∈ disposition name (.text value) ↔ '\x00' ∈ name := by
    rw [null_disposition]
    constructor
    · rintro (inside | ⟨_, none, _⟩)
      · exact inside
      · cases none
    · exact .inl
  have value_ := headerValue_disposition name (.text value)
  simp only [null] at value_
  have single := header_line name (.text value)
  rw [latin_header_text]
  by_cases bad : '\x00' ∈ name
  · rw [if_pos bad] at value_ ⊢
    apply parseHead_error
    rw [lines_single single, foldlM_cons, parseLine_disposition, value_]
    rfl
  · rw [if_neg bad] at value_ ⊢
    have text := latin_disposition_text name value
    have filename : parameter "filename" (latin (disposition name (.text value))) = none := by
      rw [text, parameter_filename, parameterAfter_quote (latin_clean name).1, if_neg]
      · rfl
      · exact fun both => absurd both.2 (by decide)
    rw [← filename]
    apply parseHead_ok
    · rw [lines_single single, foldlM_cons, parseLine_disposition, value_]
      rfl
    · exact get_first _ _ fun _ none => by cases none
    · rw [text]
      exact formData_disposition _
    · rw [text]
      exact parameter_name (quotation_name name)

/-- The headers of a part with a file. -/
def fileHeaders (name : Text) (file : File) : Headers :=
  [("content-disposition".toList, latin (disposition name (.file file))),
    ("content-type".toList, trimmed (sentType file))]

theorem header_file_lines (name : Text) (file : File) :
    lines (latin (header (name, .file file))) =
      ["Content-Disposition: ".toList ++ latin (disposition name (.file file)),
        "Content-Type: ".toList ++ sentType file] := by
  rw [latin_header_file, lines_pass (header_line name _), lines_single (type_line file)]

theorem parseHead_file (name : Text) (file : File) :
    parseHead (latin (header (name, .file file))) =
      if '\x00' ∈ name ∨ '\x00' ∈ file.name then .error invalidValue
      else .ok
        { headers := fileHeaders name file, name := latin (readName name)
          filename := some (latin (readFilename name file)) } := by
  have null : '\x00' ∈ disposition name (.file file) ↔ '\x00' ∈ name ∨ '\x00' ∈ file.name := by
    rw [null_disposition]
    constructor
    · rintro (inside | ⟨_, same, inside⟩)
      · exact .inl inside
      · cases same
        exact .inr inside
    · exact Or.imp id fun inside => ⟨file, rfl, inside⟩
  have value_ := headerValue_disposition name (.file file)
  simp only [null] at value_
  by_cases bad : '\x00' ∈ name ∨ '\x00' ∈ file.name
  · rw [if_pos bad] at value_ ⊢
    apply parseHead_error
    rw [header_file_lines, foldlM_cons, parseLine_disposition, value_]
    rfl
  · rw [if_neg bad] at value_ ⊢
    obtain ⟨unquoted, plain⟩ := latin_clean name
    have text := latin_disposition_file name file
    have named : quotation (latin (quoted name) ++
        '"' :: ("; filename=".toList ++ '"' :: (latin (quoted file.name) ++ ['"']))) =
        some (latin (readName name)) := by
      rw [quotation_quote unquoted plain, quotation_filename, readName]
      split
      · have next : latin "\"; filename=".toList = '"' :: "; filename=".toList :=
          latin_ascii (forall_text (by decide))
        rw [latin_append, next]
      · rfl
    have filename : parameter "filename" (latin (disposition name (.file file))) =
        some (latin (readFilename name file)) := by
      have behind : parameterAfter "filename" ("; filename=".toList ++
          '"' :: (latin (quoted file.name) ++ ['"'])) =
          (quotation (latin (quoted file.name) ++ ['"']) <|>
            parameterAfter "filename" (" filename=\"".toList ++
              (latin (quoted file.name) ++ ['"']))) := rfl
      rw [text, parameter_filename, parameterAfter_quote unquoted, quotation_filename, behind,
        quotation_name, readFilename]
      split
      · rename_i both
        rw [if_pos both.1]
        exact congrArg some (latin_ascii (forall_text (by decide))).symm
      · rename_i neither
        rw [if_neg fun hidden => neither ⟨hidden, rfl⟩]
        rfl
    rw [← filename]
    apply parseHead_ok
    · rw [header_file_lines, foldlM_cons, parseLine_disposition, value_]
      change foldlM parseLine [_] [_] = _
      rw [foldlM_cons, parseLine_type, headerValue_type]
      rfl
    · apply get_first
      rintro entry inside
      obtain rfl := mem_singleton.mp inside
      intro same
      have apart : "content-type".toList ≠ "content-disposition".toList := by decide
      exact apart same
    · rw [text]
      exact formData_disposition _
    · rw [text]
      exact parameter_name named

theorem newFile_file (file : File) : newFile file.bytes file.name file.type = .ok file := by
  rw [newFile, dif_pos file.small]
  cases file
  simp_all

theorem data_raw {head : Head} (plain : head.headers.get "content-transfer-encoding" = none)
    (bytes : List UInt8) : head.data (binary bytes) = .ok bytes := by
  have apart : ((Option.getD none []).map lower : Text) ≠ "base64".toList := by decide
  rw [Head.data, plain, if_neg apart, charCodes_binary]

theorem plain_line (carriage : '\r' ∉ text) (feed : '\n' ∉ text) :
    decode (charCodes (unescaped (latin text))) = plain text := by
  rw [unescaped_latin carriage feed, decode_latin]

theorem append_text (form : Form) (name value : Text) :
    append form name (.text value) = .ok (form ++ [(name, .text value)]) := by
  rw [append, formValue, usv_text, usv_text]
  rfl

theorem append_file (form : Form) (name : Text) (file : File) :
    append form name (.file file) = .ok (form ++ [(name, .file file)]) := by
  rw [append, formValue, newFile_file, usv_text]
  rfl

theorem readName_line (name : Text) : '\r' ∉ readName name ∧ '\n' ∉ readName name := by
  obtain ⟨_, carriage, feed⟩ := quoted_clean name
  rw [readName]
  split
  · rw [mem_append, mem_append, not_or, not_or]
    exact ⟨⟨carriage, by decide⟩, feed, by decide⟩
  · exact ⟨carriage, feed⟩

theorem readFilename_line (name : Text) (file : File) :
    '\r' ∉ readFilename name file ∧ '\n' ∉ readFilename name file := by
  rw [readFilename]
  split
  · decide
  · exact (quoted_clean file.name).2

theorem readPart (entry : Entry) (form : Form) :
    (match parseHead (latin (header entry)) with
      | .error exception => .error exception
      | .ok head => head.entry (binary (payload entry.2)) form) =
      (back entry).map (form ++ [·]) := by
  obtain ⟨name, value | file⟩ := entry
  · rw [parseHead_text, back]
    by_cases bad : '\x00' ∈ name
    · rw [if_pos bad, if_pos bad]
      rfl
    · rw [if_neg bad, if_neg bad]
      have apart : "content-disposition".toList ≠ "content-transfer-encoding".toList := by decide
      obtain ⟨_, carriage, feed⟩ := quoted_clean name
      dsimp only
      have raw : Headers.get [("content-disposition".toList, latin (disposition name (.text value)))]
          "content-transfer-encoding" = none := get_skip apart []
      rw [Head.entry, data_raw raw]
      change append form (decode (charCodes (unescaped (latin (quoted name)))))
        (.text (decode (encode (newline value)))) = _
      rw [plain_line carriage feed, decode_encode, append_text]
      rfl
  · rw [parseHead_file, back]
    by_cases bad : '\x00' ∈ name ∨ '\x00' ∈ file.name
    · rw [if_pos bad, if_pos bad]
      rfl
    · rw [if_neg bad, if_neg bad]
      have apart : "content-disposition".toList ≠ "content-transfer-encoding".toList := by decide
      have apart' : "content-type".toList ≠ "content-transfer-encoding".toList := by decide
      have raw : (fileHeaders name file).get "content-transfer-encoding" = none := by
        rfl
      have type : (fileHeaders name file).get "content-type" = some (trimmed (sentType file)) := by
        have other : "content-disposition".toList ≠ "content-type".toList := by decide
        rw [fileHeaders, get_skip other]
        exact get_first _ _ fun _ none => by cases none
      obtain ⟨carriage, feed⟩ := readName_line name
      obtain ⟨carriage', feed'⟩ := readFilename_line name file
      dsimp only
      rw [Head.entry, data_raw raw]
      change (newFile file.bytes (decode (charCodes (unescaped (latin (readFilename name file)))))
        (Head.type _) >>= fun file =>
          append form (decode (charCodes (unescaped (latin (readName name))))) (.file file)) = _
      have read : (Head.type
          { headers := fileHeaders name file, name := latin (readName name)
            filename := some (latin (readFilename name file)) }) = readType file := by
        rw [Head.type, type, readType]
        cases trimmed (sentType file) <;> rfl
      rw [plain_line carriage feed, plain_line carriage' feed', read]
      cases newFile file.bytes (plain (readFilename name file)) (readType file) with
      | error exception => rfl
      | ok file => exact append_file form _ file

/-- What stands behind the first marker of a body. -/
def following (marker : Text) : Form → Text
  | [] => "--\r\n".toList
  | entry :: rest =>
    '\r' :: '\n' :: (latin (header entry) ++ ("\r\n\r\n".toList ++ (binary (payload entry.2) ++
      '\r' :: '\n' :: (marker ++ following marker rest))))

theorem binary_append (first second : List UInt8) :
    binary (first ++ second) = binary first ++ binary second := map_append

variable {marker : Text}

theorem binary_written (ascii : ∀ c ∈ marker, Ascii c) (form : Form) :
    binary (form.flatMap (written marker) ++ encode (marker ++ "--\r\n".toList)) =
      marker ++ following marker form := by
  induction form with
  | nil =>
    have last : latin (marker ++ "--\r\n".toList) = marker ++ "--\r\n".toList := by
      rw [latin_append, latin_ascii ascii, latin_ascii (forall_text (by decide))]
    exact last
  | cons entry rest ih =>
    have sent : binary (written marker entry) = marker ++ ('\r' :: '\n' :: (latin (header entry) ++
        ("\r\n\r\n".toList ++ (binary (payload entry.2) ++ ['\r', '\n'])))) := by
      have end_ : binary (encode "\r\n".toList) = ['\r', '\n'] := latin_ascii (forall_text (by decide))
      have start : latin "\r\n".toList = ['\r', '\n'] := latin_ascii (forall_text (by decide))
      have blank : latin "\r\n\r\n".toList = "\r\n\r\n".toList := latin_ascii (forall_text (by decide))
      rw [written, binary_append, binary_append, end_, ← latin, latin_append, latin_append,
        latin_append, latin_ascii ascii, start, blank]
      simp only [append_assoc, cons_append, nil_append]
    rw [flatMap_cons, append_assoc, binary_append, ih, sent, following]
    simp only [append_assoc, cons_append, nil_append]

theorem breakOn_line {text rest before after : Text} (none : '\r' ∉ text)
    (here : breakOn "\r\n\r\n".toList rest = some (before, after)) :
    breakOn "\r\n\r\n".toList (text ++ rest) = some (text ++ before, after) := by
  have blank : "\r\n\r\n".toList = '\r' :: "\n\r\n".toList := rfl
  rw [blank] at here ⊢
  rw [breakOn_pass none, here]
  rfl

theorem breakOn_header (entry : Entry) (body : Text) :
    breakOn "\r\n\r\n".toList (latin (header entry) ++ ("\r\n\r\n".toList ++ body)) =
      some (latin (header entry), body) := by
  have here : breakOn "\r\n\r\n".toList ("\r\n\r\n".toList ++ body) = some ([], body) :=
    breakOn_here body
  obtain ⟨name, value | file⟩ := entry
  · rw [latin_header_text]
    have found := breakOn_line (header_line name (.text value)) here
    rwa [append_nil] at found
  · have found := breakOn_line (type_line file) here
    rw [append_nil] at found
    -- the line end between the headers is followed by a letter
    have between : breakOn "\r\n\r\n".toList ('\r' :: '\n' :: ("Content-Type: ".toList ++
        sentType file ++ ("\r\n\r\n".toList ++ body))) =
        some ('\r' :: '\n' :: ("Content-Type: ".toList ++ sentType file), body) := by
      rw [breakOn, if_neg (by simp), breakOn, if_neg (by simp), found]
      rfl
    rw [latin_header_file, append_assoc]
    exact breakOn_line (header_line name (.file file)) between

theorem following_ends (marker : Text) (form : Form) :
    (following marker form).take 2 = "--".toList ∨ (following marker form).take 2 = "\r\n".toList := by
  cases form with
  | nil => exact .inl rfl
  | cons entry rest => exact .inr rfl

theorem parts_cons (none : '\r' ∉ marker) (entry : Entry) (rest read : Form)
    (clear : ¬ '\r' :: '\n' :: marker <:+: binary (payload entry.2)) :
    parts marker (following marker (entry :: rest)) read =
      match back entry with
      | .error exception => .error exception
      | .ok entry => parts marker (following marker rest) (read ++ [entry]) := by
  have part := readPart entry read
  have ends := bodyEnd_data none clear (following_ends marker rest)
  rw [following, parts]
  split
  · rename_i missing
    rw [breakOn_header] at missing
    cases missing
  · rename_i head body found
    rw [breakOn_header] at found
    cases found
    cases heads : parseHead (latin (header entry)) with
    | error exception =>
      rw [heads] at part
      cases backs : back entry with
      | error other =>
        rw [backs] at part
        exact part
      | ok _ =>
        rw [backs] at part
        cases part
    | ok head =>
      rw [heads] at part
      dsimp only at part ⊢
      split
      · rename_i missing
        rw [ends] at missing
        cases missing
      · rename_i raw behind found
        rw [ends] at found
        cases found
        rw [part]
        cases back entry <;> rfl

theorem parts_following (none : '\r' ∉ marker) (form read : Form)
    (clear : ∀ entry ∈ form, ¬ '\r' :: '\n' :: marker <:+: binary (payload entry.2)) :
    parts marker (following marker form) read = (form.mapM back).map (read ++ ·) := by
  induction form generalizing read with
  | nil =>
    change parts marker ('-' :: '-' :: "\r\n".toList) read = _
    rw [parts]
    exact congrArg Except.ok (append_nil read).symm
  | cons entry rest ih =>
    rw [parts_cons none entry rest read (clear entry mem_cons_self), mapM_cons]
    cases back entry with
    | error exception => rfl
    | ok first =>
      dsimp only
      rw [ih _ fun entry inside => clear entry (mem_cons_of_mem _ inside)]
      change _ = Except.map (read ++ ·) (rest.mapM back >>= fun rest => pure (first :: rest))
      cases rest.mapM back with
      | error exception => rfl
      | ok rest => exact congrArg Except.ok (append_assoc read [first] rest)

end Chuzz.Forms
