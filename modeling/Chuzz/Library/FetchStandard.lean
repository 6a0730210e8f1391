import Mathlib

/-! What the Fetch standard says of the headers of a request and of the responses that
cross-origin script may see. Values hold one character for each byte. -/
namespace Library.Fetch

abbrev Text := List Char

/-- A header as a name in lower case and a value. -/
abbrev Field := Text × Text

def texts (names : List String) : List Text := names.map String.toList

def space (c : Char) : Bool := c = ' ' || c = '\t' || c = '\n' || c = '\r'

def strip (text : Text) : Text := (text.dropWhile space).rdropWhile space

def lower (text : Text) : Text := text.map Char.toLower

/-- The pieces between commas. -/
def pieces : Text → List Text
  | [] => [[]]
  | c :: rest =>
    if c = ',' then [] :: pieces rest
    else
      match pieces rest with
      | [] => [[c]]
      | piece :: others => (c :: piece) :: others

/-- The pieces between commas that stand outside quoted strings. -/
def quotedPieces : Bool → Text → List Text
  | _, [] => [[]]
  | quoted, c :: rest =>
    if c = ',' && !quoted then [] :: quotedPieces false rest
    else
      match quotedPieces (if c = '"' then !quoted else quoted) rest with
      | [] => [[c]]
      | piece :: others => (c :: piece) :: others

section Safelist

def controlByte (c : Char) : Bool := (c.toNat < 0x20 && c ≠ '\t') || c.toNat = 0x7F

def delimiter (c : Char) : Bool := "\"():<>?@[\\]\x7b\x7d".toList.contains c

def unsafeByte (c : Char) : Bool := controlByte c || delimiter c

def languageByte (c : Char) : Bool := c.isAlphanum || " *,-.;=".toList.contains c

def formTypes : List Text :=
  texts ["application/x-www-form-urlencoded", "multipart/form-data", "text/plain"]

/-- The essence of a media type, when it is one of `formTypes`. -/
def essence (value : Text) : Text := lower (strip (value.takeWhile (· ≠ ';')))

def number (digits : Text) : Nat := digits.foldl (fun n c => 10 * n + (c.toNat - '0'.toNat)) 0

/-- A single range that has a start. -/
def simpleRange (value : Text) : Bool :=
  "bytes=".toList.isPrefixOf value &&
    let range := value.drop "bytes=".length
    let start := range.takeWhile Char.isDigit
    match range.dropWhile Char.isDigit with
    | '-' :: stop => start ≠ [] && stop.all Char.isDigit &&
      (stop = [] || number start ≤ number stop)
    | _ => false

/-- A CORS-safelisted request-header. -/
def safelisted (field : Field) : Bool :=
  field.2.length ≤ 128 &&
    (if field.1 = "accept".toList then !field.2.any unsafeByte
    else if field.1 = "accept-language".toList || field.1 = "content-language".toList then
      field.2.all languageByte
    else if field.1 = "content-type".toList then
      !field.2.any unsafeByte && formTypes.contains (essence field.2)
    else if field.1 = "range".toList then simpleRange field.2
    else false)

/-- The bytes in the values of the safelisted headers. -/
def safelistSize (fields : List Field) : Nat :=
  ((fields.filter safelisted).map fun field => field.2.length).sum

/-- The CORS-unsafe request-header names of some headers. -/
def unsafeNames (fields : List Field) : List Text :=
  (fields.filter fun field => !safelisted field || 1024 < safelistSize fields).map Prod.fst

theorem unsafeNames_nil {fields : List Field} :
    unsafeNames fields = [] ↔
      (∀ field ∈ fields, safelisted field = true) ∧
        (fields = [] ∨ safelistSize fields ≤ 1024) := by
  simp only [unsafeNames, List.map_eq_nil_iff, List.filter_eq_nil_iff, Bool.or_eq_true,
    Bool.not_eq_true', decide_eq_true_eq, not_or, Bool.not_eq_false, not_lt]
  constructor
  · intro listed
    refine ⟨fun field member => (listed field member).1, ?_⟩
    cases fields with
    | nil => exact .inl rfl
    | cons field rest => exact .inr (listed field List.mem_cons_self).2
  · rintro ⟨listed, small⟩ field member
    refine ⟨listed field member, ?_⟩
    rcases small with rfl | small
    · cases member
    · exact small

theorem mem_unsafeNames {fields : List Field} {name : Text} :
    name ∈ unsafeNames fields ↔
      ∃ field ∈ fields, field.1 = name ∧
        (safelisted field = false ∨ 1024 < safelistSize fields) := by
  simp only [unsafeNames, List.mem_map, List.mem_filter, Bool.or_eq_true, Bool.not_eq_true',
    decide_eq_true_eq]
  constructor
  · rintro ⟨field, ⟨member, listed⟩, same⟩
    exact ⟨field, member, same, listed⟩
  · rintro ⟨field, member, same, listed⟩
    exact ⟨field, ⟨member, listed⟩, same⟩

end Safelist

section Forbidden

def forbiddenNames : List Text :=
  texts ["accept-charset", "accept-encoding", "access-control-request-headers",
    "access-control-request-method", "connection", "content-length", "cookie", "cookie2", "date",
    "dnt", "expect", "host", "keep-alive", "origin", "referer", "set-cookie", "te", "trailer",
    "transfer-encoding", "upgrade", "via"]

def forbiddenMethods : List Text := texts ["connect", "trace", "track"]

/-- The header asks for a forbidden method in place of the request's. -/
def overridesMethod (field : Field) : Bool :=
  (texts ["x-http-method", "x-http-method-override", "x-method-override"]).contains field.1 &&
    (quotedPieces false field.2).any fun piece => forbiddenMethods.contains (lower (strip piece))

/-- A forbidden request-header. -/
def forbidden (field : Field) : Bool :=
  forbiddenNames.contains field.1 || "proxy-".toList.isPrefixOf field.1 ||
    "sec-".toList.isPrefixOf field.1 || overridesMethod field

end Forbidden

section Responses

def values (fields : List Field) (name : Text) : List Text :=
  (fields.filter fun field => field.1 = name).map Prod.snd

/-- All values of a header, as one. -/
def combined (fields : List Field) (name : Text) : Option Text :=
  match values fields name with
  | [] => none
  | first :: rest => some (rest.foldl (fun text value => text ++ ", ".toList ++ value) first)

def tokens (fields : List Field) (name : Text) : List Text :=
  (values fields name).flatMap fun value => (pieces value).map strip

def star : Text := "*".toList

/-- The response passes the CORS check for the serialized origin of the request. -/
def Permits (fields : List Field) (origin : Text) (credentials : Bool) : Prop :=
  let allowed := combined fields "access-control-allow-origin".toList
  (credentials = false ∧ allowed = some star) ∨
    (allowed = some origin ∧ (credentials = true →
      combined fields "access-control-allow-credentials".toList = some "true".toList))

def simpleMethods : List Text := texts ["GET", "HEAD", "POST"]

/-- Methods are compared as they are spelled. -/
def AllowsMethod (fields : List Field) (method : Text) (credentials : Bool) : Prop :=
  method ∈ simpleMethods ∨ method ∈ tokens fields "access-control-allow-methods".toList ∨
    (credentials = false ∧ star ∈ tokens fields "access-control-allow-methods".toList)

/-- The names of headers have no case. -/
def AllowsHeader (fields : List Field) (credentials : Bool) (name : Text) : Prop :=
  name ∈ (tokens fields "access-control-allow-headers".toList).map lower ∨
    (credentials = false ∧ name ≠ "authorization".toList ∧
      star ∈ tokens fields "access-control-allow-headers".toList)

def exposedAlways : List Text :=
  texts ["cache-control", "content-language", "content-length", "content-type", "expires",
    "last-modified", "pragma"]

/-- A header that script of another origin may read. -/
def Exposed (fields : List Field) (credentials : Bool) (name : Text) : Prop :=
  name ∈ exposedAlways ∨
    name ∈ (tokens fields "access-control-expose-headers".toList).map lower ∨
    (credentials = false ∧ star ∈ tokens fields "access-control-expose-headers".toList)

end Responses

section Combining
variable {fields : List Field} {name value : Text} {rest : List Text}

/-- More than one value makes the combined value longer than the first. -/
theorem joined_first (rest : List Text) (first : Text) :
    ∃ tail, rest.foldl (fun text value => text ++ ", ".toList ++ value) first = first ++ tail ∧
      (tail = [] ↔ rest = []) := by
  induction rest generalizing first with
  | nil => exact ⟨[], by simp⟩
  | cons next rest ih =>
    obtain ⟨tail, same, _⟩ := ih (first ++ ", ".toList ++ next)
    refine ⟨", ".toList ++ next ++ tail, ?_, ?_⟩
    · rw [List.foldl_cons, same]
      simp only [List.append_assoc]
    · simp

theorem combined_longer (listed : values fields name = value :: rest) {whole : Text}
    (joined : combined fields name = some whole) : value <+: whole := by
  obtain ⟨tail, same, _⟩ := joined_first rest value
  rw [combined, listed] at joined
  rw [← Option.some.inj joined, same]
  exact List.prefix_append _ _

theorem combined_first (listed : values fields name = value :: rest) :
    combined fields name = some value ↔ (values fields name).length ≤ 1 := by
  obtain ⟨tail, same, empty⟩ := joined_first rest value
  have joined : combined fields name = some (value ++ tail) := by
    rw [combined, listed]
    exact congrArg some same
  rw [joined, listed]
  simp [empty]

end Combining
end Library.Fetch
