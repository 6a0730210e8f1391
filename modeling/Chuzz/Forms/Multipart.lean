import Chuzz.Forms.Encoding

/-! The multipart form of `FormData`: its writer, and the reader with the patterns that it
matches headers by, on the body as a string of bytes. -/
namespace Chuzz.Forms

inductive Exception where
  | typeError (message : String)
  | rangeError (message : String)
  | dom (name message : String)
deriving DecidableEq, Repr

def lower (c : Char) : Char := if 'A' ≤ c ∧ c ≤ 'Z' then Char.ofNat (c.toNat + 32) else c

/-- `[\x20-\x7e]` -/
def printable (c : Char) : Bool := 0x20 ≤ c.toNat && c.toNat ≤ 0x7E

/-- `64 * 1024 * 1024` -/
def allocationLimit : Nat := 67108864

def usv (text : Text) : Text := decode (encode text)

def fileName (name : Text) : Text := (usv name).map fun c => if c = '/' then ':' else c

/-- The `type` of a blob. -/
def blobType (type : Text) : Text := if type.all printable then type.map lower else []

/-- Its name and its type are as the constructor makes them. -/
structure File where
  name : Text
  type : Text
  bytes : List UInt8
  named : fileName name = name
  typed : blobType type = type
  small : bytes.length ≤ allocationLimit

inductive Value where
  | text (value : Text)
  | file (file : File)

abbrev Entry := Text × Value

abbrev Form := List Entry

theorem usv_text (text : Text) : usv text = text := decode_encode text

theorem fileName_fileName (name : Text) : fileName (fileName name) = fileName name := by
  rw [fileName, fileName, usv_text, List.map_map]
  apply List.map_congr_left
  intro c _
  by_cases slash : c = '/' <;> simp [slash]

theorem lower_printable {c : Char} (here : printable c = true) : printable (lower c) = true := by
  rw [lower]
  split
  · rename_i upper
    have below : c.toNat ≤ 90 := upper.2
    rw [printable, ofNat_code (by omega)]
    simp
    omega
  · exact here

theorem lower_lower (c : Char) : lower (lower c) = lower c := by
  by_cases upper : 'A' ≤ c ∧ c ≤ 'Z'
  · have above : 65 ≤ c.toNat := upper.1
    have below : c.toNat ≤ 90 := upper.2
    have code : (Char.ofNat (c.toNat + 32)).toNat = c.toNat + 32 := ofNat_code (by omega)
    have beyond : ¬ Char.ofNat (c.toNat + 32) ≤ 'Z' := by
      intro inside
      have inside : (Char.ofNat (c.toNat + 32)).toNat ≤ 90 := inside
      omega
    have same : lower c = Char.ofNat (c.toNat + 32) := if_pos upper
    rw [same, lower, if_neg fun inside => beyond inside.2]
  · have same : lower c = c := if_neg upper
    rw [same, same]

theorem blobType_blobType (type : Text) : blobType (blobType type) = blobType type := by
  by_cases all : type.all printable = true
  · have lowered : (type.map lower).all printable = true := by
      rw [List.all_map, List.all_eq_true]
      exact fun c inside => lower_printable (List.all_eq_true.mp all c inside)
    rw [blobType, blobType, if_pos all, if_pos lowered, List.map_map]
    exact List.map_congr_left fun c _ => lower_lower c
  · rw [blobType, blobType, if_neg all]
    rfl

/-- `new File([bytes], name, { type })` -/
def newFile (bytes : List UInt8) (name type : Text) : Except Exception File :=
  if small : bytes.length ≤ allocationLimit then
    .ok
      { name := fileName name, type := blobType type, bytes
        named := fileName_fileName name, typed := blobType_blobType type, small }
  else .error (.rangeError "Blob allocation limit reached in chuzz")

def formValue : Value → Except Exception Value
  | .file file => (newFile file.bytes file.name file.type).map .file
  | .text value => .ok (.text (usv value))

def append (form : Form) (name : Text) (value : Value) : Except Exception Form :=
  (formValue value).map fun value => form ++ [(usv name, value)]

/-- `/\r\n|\r|\n/g` -/
def newline : Text → Text
  | '\r' :: '\n' :: rest => '\r' :: '\n' :: newline rest
  | '\r' :: rest => '\r' :: '\n' :: newline rest
  | '\n' :: rest => '\r' :: '\n' :: newline rest
  | c :: rest => c :: newline rest
  | [] => []

def replaceAll (c : Char) (by_ : String) (text : Text) : Text :=
  text.flatMap fun d => if d = c then by_.toList else [d]

def quoted (text : Text) : Text :=
  replaceAll '"' "%22" (replaceAll '\n' "%0A" (replaceAll '\r' "%0D" (newline text)))

def hexDigit (value : Nat) : Char := Char.ofNat (if value < 10 then 48 + value else 87 + value)

def boundary (random : List UInt8) : Text :=
  "----chuzz".toList ++ random.flatMap fun value =>
    [hexDigit (value.toNat / 16), hexDigit (value.toNat % 16)]

def disposition (name : Text) : Value → Text
  | .text _ => "form-data; name=\"".toList ++ quoted name ++ ['"']
  | .file file =>
    "form-data; name=\"".toList ++ quoted name ++ "\"; filename=\"".toList ++ quoted file.name ++ ['"']

def sentType (file : File) : Text :=
  if file.type = [] then "application/octet-stream".toList else file.type

def header : Entry → Text
  | (name, .text value) =>
    "Content-Disposition: ".toList ++ disposition name (.text value)
  | (name, .file file) =>
    "Content-Disposition: ".toList ++ disposition name (.file file) ++
      "\r\nContent-Type: ".toList ++ sentType file

def payload : Value → List UInt8
  | .text value => encode (newline value)
  | .file file => file.bytes

def written (marker : Text) (entry : Entry) : List UInt8 :=
  encode (marker ++ "\r\n".toList ++ header entry ++ "\r\n\r\n".toList) ++ payload entry.2 ++
    encode "\r\n".toList

/-- The body, with the random bytes of its boundary, and its content type. -/
def multipart (random : List UInt8) (form : Form) : Except Exception (List UInt8 × Text) :=
  let marker := "--".toList ++ boundary random
  let bytes := form.flatMap (written marker) ++ encode (marker ++ "--\r\n".toList)
  if allocationLimit < bytes.length then .error (.rangeError "Body allocation limit exceeded")
  else .ok (bytes, "multipart/form-data; boundary=".toList ++ boundary random)

/-- `\s` -/
def space (c : Char) : Bool :=
  let code := c.toNat
  (9 ≤ code && code ≤ 13) || code = 0x20 || code = 0xA0 || code = 0x1680 ||
    (0x2000 ≤ code && code ≤ 0x200A) || code = 0x2028 || code = 0x2029 || code = 0x202F ||
    code = 0x205F || code = 0x3000 || code = 0xFEFF

/-- What `.` does not match. -/
def lineTerminator (c : Char) : Bool :=
  c = '\n' || c = '\r' || c.toNat = 0x2028 || c.toNat = 0x2029

/-- What a word boundary stands beside. -/
def word (c : Char) : Bool :=
  ('a' ≤ c && c ≤ 'z') || ('A' ≤ c && c ≤ 'Z') || ('0' ≤ c && c ≤ '9') || c = '_'

/-- What follows a literal of a pattern that ignores case. -/
def literal : Text → Text → Option Text
  | [], text => some text
  | _ :: _, [] => none
  | s :: start, c :: text => if lower s = lower c then literal start text else none

/-- `((?:\\.|[^"])*)"` -/
def quotation : Text → Option Text
  | [] => none
  | [c] => if c = '"' then some [] else none
  | c :: d :: rest =>
    (if c = '\\' ∧ lineTerminator d = false then (quotation rest).map (c :: d :: ·) else none) <|>
      if c = '"' then some [] else (quotation (d :: rest)).map (c :: ·)

/-- `\s*` and the name of a parameter, with its value. -/
def parameterHere (name : String) (text : Text) : Option Text :=
  (literal (name.toList ++ "=\"".toList) (text.dropWhile space)).bind quotation

def parameterAfter (name : String) : Text → Option Text
  | [] => none
  | c :: rest =>
    (if c = ';' then parameterHere name rest else none) <|> parameterAfter name rest

/-- `/(?:^|;)\s*name="((?:\\.|[^"])*)"/i` -/
def parameter (name : String) (text : Text) : Option Text :=
  parameterHere name text <|> parameterAfter name text

/-- `replace(/\\(.)/g, "$1")` -/
def unescaped : Text → Text
  | c :: d :: rest =>
    if c = '\\' ∧ lineTerminator d = false then d :: unescaped rest else c :: unescaped (d :: rest)
  | text => text

abbrev Headers := List (Text × Text)

def token (c : Char) : Bool :=
  ('a' ≤ c && c ≤ 'z') || ('0' ≤ c && c ≤ '9') || "!#$%&'*+.^_`|~-".toList.contains c

def headerName (value : Text) : Except Exception Text :=
  let value := value.map lower
  if value ≠ [] ∧ value.all token = true then .ok value
  else .error (.typeError "Invalid header name")

/-- `[\t ]` -/
def blank (c : Char) : Bool := c = '\t' || c = ' '

def trimmed (value : Text) : Text := (value.dropWhile blank).rdropWhile blank

def headerValue (value : Text) : Except Exception Text :=
  let value := trimmed value
  if value.any (fun c => c = '\r' || c = '\n' || c = '\x00' || 0xFF < c.toNat) then
    .error (.typeError "Invalid header value")
  else .ok value

def Headers.append (headers : Headers) (name value : Text) : Except Exception Headers := do
  let name ← headerName name
  let value ← headerValue value
  return headers ++ [(name, value)]

def Headers.get (headers : Headers) (name : String) : Option Text :=
  match (headers.filter (·.1 = name.toList)).map (·.2) with
  | [] => none
  | values => some (", ".toList.intercalate values)

/-- What stands before a text's first occurrence, and what stands behind it. -/
def breakOn (needle : Text) : Text → Option (Text × Text)
  | [] => if needle = [] then some ([], []) else none
  | c :: rest =>
    if needle.isPrefixOf (c :: rest) then some ([], (c :: rest).drop needle.length)
    else (breakOn needle rest).map fun (before, after) => (c :: before, after)

/-- `split("\r\n")` -/
def lines : Text → List Text
  | '\r' :: '\n' :: rest => [] :: lines rest
  | c :: rest =>
    match lines rest with
    | [] => [[c]]
    | first :: more => (c :: first) :: more
  | [] => [[]]

def parseLine (headers : Headers) (line : Text) : Except Exception Headers :=
  match line.takeWhile (· ≠ ':'), line.dropWhile (· ≠ ':') with
  | c :: name, _ :: value => headers.append (c :: name) value
  | _, _ => .error (.typeError "Invalid multipart header")

/-- The headers of a part, the name and the file name as they stand in its disposition. -/
structure Head where
  headers : Headers
  name : Text
  filename : Option Text

/-- `/^form-data(?:;|$)/i` -/
def formData (disposition : Text) : Bool :=
  match literal "form-data".toList disposition with
  | some rest => rest.head? = none || rest.head? = some ';'
  | none => false

def parseHead (text : Text) : Except Exception Head := do
  let headers ← (lines text).foldlM parseLine []
  let disposition := (headers.get "content-disposition").getD []
  match formData disposition, parameter "name" disposition with
  | true, some name => return { headers, name, filename := parameter "filename" disposition }
  | _, _ => .error (.typeError "Invalid form disposition")

/-- The data before the next marker that stands on a line of its own, or ends the body, and
what stands behind the marker. -/
def bodyEnd (marker : Text) : Text → Option (Text × Text)
  | [] => none
  | c :: rest =>
    let behind := (c :: rest).drop (marker.length + 2)
    if ("\r\n".toList ++ marker).isPrefixOf (c :: rest) ∧
        (behind.take 2 = "--".toList ∨ behind.take 2 = "\r\n".toList) then
      some ([], behind)
    else (bodyEnd marker rest).map fun (before, after) => (c :: before, after)

def base64 : Text :=
  "ABCDEFGHIJKLMNOPQRSTUVWXYZabcdefghijklmnopqrstuvwxyz0123456789+/".toList

def atobDigits : Text → Nat → Nat → Except Exception Text
  | [], _, _ => .ok []
  | c :: rest, buffer, bits =>
    if c ∉ base64 then .error (.dom "InvalidCharacterError" "invalid base64")
    else
      let buffer := buffer * 64 + base64.idxOf c
      if 8 ≤ bits + 6 then
        (atobDigits rest (buffer % 2 ^ (bits + 6 - 8)) (bits + 6 - 8)).map
          (Char.ofNat (buffer / 2 ^ (bits + 6 - 8) % 256) :: ·)
      else atobDigits rest buffer (bits + 6)

def atob (input : Text) : Except Exception Text :=
  let text := (input.filter (!" \t\n\x0C\r".toList.contains ·)).rdropWhile (· = '=')
  if text.length % 4 = 1 then .error (.dom "InvalidCharacterError" "invalid base64")
  else atobDigits text 0 0

def Head.data (head : Head) (raw : Text) : Except Exception (List UInt8) :=
  if ((head.headers.get "content-transfer-encoding").getD []).map lower = "base64".toList then
    (atob raw).map charCodes
  else .ok (charCodes raw)

/-- `headers.get("content-type") || "text/plain"` -/
def Head.type (head : Head) : Text :=
  match head.headers.get "content-type" with
  | none | some [] => "text/plain".toList
  | some type => type

def Head.entry (head : Head) (raw : Text) (form : Form) : Except Exception Form := do
  let data ← head.data raw
  let key := decode (charCodes (unescaped head.name))
  match head.filename with
  | some filename =>
    let file ← newFile data (decode (charCodes (unescaped filename))) head.type
    append form key (.file file)
  | none => append form key (.text (decode data))

theorem breakOn_length {needle text before after : Text}
    (found : breakOn needle text = some (before, after)) : after.length ≤ text.length := by
  induction text generalizing before after with
  | nil =>
    rw [breakOn] at found
    split at found
    · cases found
      exact Nat.le_refl _
    · cases found
  | cons c rest ih =>
    rw [breakOn] at found
    split at found
    · cases found
      simp
    · obtain ⟨pair, inner, same⟩ := Option.map_eq_some_iff.mp found
      cases same
      exact (ih inner).trans (Nat.le_succ _)

theorem bodyEnd_length {marker text before after : Text}
    (found : bodyEnd marker text = some (before, after)) : after.length ≤ text.length := by
  induction text generalizing before after with
  | nil => cases found
  | cons c rest ih =>
    rw [bodyEnd] at found
    split at found
    · cases found
      rw [List.length_drop]
      exact Nat.sub_le _ _
    · obtain ⟨pair, inner, same⟩ := Option.map_eq_some_iff.mp found
      cases same
      exact (ih inner).trans (Nat.le_succ _)

/-- The parts of a body, behind a marker. -/
def parts (marker : Text) : Text → Form → Except Exception Form
  | '-' :: '-' :: _, form => .ok form
  | '\r' :: '\n' :: text, form =>
    match _found : breakOn "\r\n\r\n".toList text with
    | none => .error (.typeError "Invalid multipart headers")
    | some (head, body) =>
      match parseHead head with
      | .error exception => .error exception
      | .ok head =>
        match _ends : bodyEnd marker body with
        | none => .error (.typeError "Unterminated multipart body")
        | some (raw, behind) =>
          match head.entry raw form with
          | .error exception => .error exception
          | .ok form => parts marker behind form
  | _, _ => .error (.typeError "Invalid multipart delimiter")
termination_by text => text.length
decreasing_by
  have first := breakOn_length _found
  have second := bodyEnd_length _ends
  simp only [List.length_cons]
  omega

/-- `/^application\/x-www-form-urlencoded(?:;|$)/i` -/
def urlencoded (type : Text) : Bool :=
  match literal "application/x-www-form-urlencoded".toList type with
  | some rest => rest.head? = none || rest.head? = some ';'
  | none => false

/-- `"([^"]+)"|([^;\s]+)` -/
def boundaryValue (text : Text) : Option Text :=
  let plain := text.takeWhile fun c => c ≠ ';' && !space c
  let unquoted := if plain = [] then none else some plain
  match text with
  | '"' :: rest =>
    let inner := rest.takeWhile (· ≠ '"')
    if inner ≠ [] ∧ (rest.drop inner.length).head? = some '"' then some inner else unquoted
  | _ => unquoted

/-- `[\s\S]*?\bboundary=`, behind a character. -/
def boundaryAfter (before : Char) : Text → Option Text
  | [] => none
  | c :: rest =>
    (if word before then none else (literal "boundary=".toList (c :: rest)).bind boundaryValue) <|>
      boundaryAfter c rest

/-- `/^multipart\/form-data\s*;[\s\S]*?\bboundary=(?:"([^"]+)"|([^;\s]+))/i` -/
def boundaryOf (type : Text) : Option Text :=
  match (literal "multipart/form-data".toList type).map (·.dropWhile space) with
  | some (';' :: rest) => boundaryAfter ';' rest
  | _ => none

/-- `search` reads the pairs of a query, as `URLSearchParams` does. -/
def parseForm (search : Text → List (Text × Text)) (bytes : List UInt8) (type : Text) :
    Except Exception Form :=
  if urlencoded type then
    (search (decode bytes)).foldlM (fun form (name, value) => append form name (.text value)) []
  else
    match boundaryOf type with
    | none => .error (.typeError "Body is not encoded form data")
    | some boundary =>
      let marker := "--".toList ++ boundary
      match breakOn marker (binary bytes) with
      | none => .error (.typeError "Missing multipart boundary")
      | some (_, text) => parts marker text []

end Chuzz.Forms
