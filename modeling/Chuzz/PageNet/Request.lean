import Chuzz.Forms.Patterns
import Chuzz.Library.FetchStandard

/-! `ScriptHost::perform_inner`: one `fetch` or `XMLHttpRequest` of a page, from the page's
request to what the provider is given and what the page gets back. The URL library, the telemetry
filter and the values of the browser's own headers are parameters. -/
namespace Chuzz.PageNet
open Library.Fetch

inductive OriginScheme
  | http
  | https
  | ws
  | wss
  | ftp
deriving DecidableEq, Repr

/-- A tuple origin. Other origins are equal to none, themselves included. -/
structure Origin where
  scheme : OriginScheme
  host : Text
  port : Nat
deriving DecidableEq, Repr

def OriginScheme.text : OriginScheme → Text
  | .http => "http".toList
  | .https => "https".toList
  | .ws => "ws".toList
  | .wss => "wss".toList
  | .ftp => "ftp".toList

def OriginScheme.defaultPort : OriginScheme → Nat
  | .http | .ws => 80
  | .https | .wss => 443
  | .ftp => 21

def Origin.asciiSerialization (origin : Origin) : Text :=
  origin.scheme.text ++ "://".toList ++ origin.host ++
    if origin.port = origin.scheme.defaultPort then []
    else ':' :: (toString origin.port).toList

inductive Credentials
  | sameOrigin
  | included
  | omitted
deriving DecidableEq, Repr

structure NetRequest where
  url : Text
  method : Text := "GET".toList
  headers : List (Text × Text) := []
  body : Option (List UInt8) := none
  credentials : Text := "same-origin".toList
deriving Repr

structure Header where
  name : Text
  value : Text
  /-- The page has supplied it. -/
  page : Bool
deriving DecidableEq, Repr

def Header.field (header : Header) : Field := (header.name, header.value)

variable {Url : Type}

structure FetchRequest (Url : Type) where
  url : Url
  method : Text
  headers : List Header
  credentials : Credentials
  body : Option (List UInt8) := none

structure FetchResponse (Url : Type) where
  status : Nat
  url : Url
  headers : List Field
  body : List UInt8

/-- What the page is told of a response. -/
structure Reply (Url : Type) where
  status : Nat
  statusText : Text
  url : Url
  headers : List Field
  body : Text
  bytes : List UInt8

structure ScriptHost (Url : Type) where
  base : Option Url
  parse : Option Url → Text → Except String Url
  scheme : Url → Text
  username : Url → Text
  password : Url → Option Text
  origin : Url → Option Origin
  dropFragment : Url → Url
  /-- Without user name, password and fragment. -/
  bare : Url → Url
  href : Url → Text
  /-- The diagnostic of a URL that telemetry blocks. -/
  blocked : Url → Option String
  acceptLanguage : Text
  /-- What `stamp_request_headers` adds to a request, unless it is there. -/
  stamps : Url → List Field
  canonicalReason : Nat → Option Text
  decodeBody : List UInt8 → Text

section Headers

def droppedNames : List Text :=
  texts ["accept-charset", "accept-encoding", "access-control-request-headers",
    "access-control-request-method", "connection", "content-length", "cookie", "cookie2", "date",
    "dnt", "expect", "host", "keep-alive", "origin", "referer", "te", "trailer",
    "transfer-encoding", "upgrade", "via"]

def forbiddenHeader (name : Text) : Bool :=
  droppedNames.contains name || "proxy-".toList.isPrefixOf name || "sec-".toList.isPrefixOf name

def tokenChar (c : Char) : Bool := c.isAlphanum || "!#$%&'*+-.^_`|~".toList.contains c

/-- `HeaderName::from_bytes` -/
def headerName (name : Text) : Except String Text :=
  if name ≠ [] ∧ name.all tokenChar ∧ name.length < 2 ^ 16 then .ok (lower name)
  else .error "invalid HTTP header name"

def valueByte (c : Char) : Bool := c = '\t' || (0x20 ≤ c.toNat && c.toNat ≠ 0x7F)

/-- `HeaderValue::from_str`, of the text's bytes. -/
def headerValue (value : Text) : Except String Text :=
  if (Forms.latin value).all valueByte then .ok (Forms.latin value)
  else .error "failed to parse header value"

def visible (c : Char) : Bool := c = '\t' || (0x20 ≤ c.toNat && c.toNat < 0x7F)

/-- `HeaderValue::to_str` -/
def toStr (value : Text) : Option Text := if value.all visible then some value else none

/-- `Method::from_bytes` -/
def parseMethod (method : Text) : Except String Text :=
  if method ≠ [] ∧ method.all tokenChar then .ok method else .error "invalid HTTP method"

def formType (value : Text) : Bool :=
  match toStr value with
  | some value => formTypes.contains (strip (value.takeWhile (· ≠ ';')))
  | none => false

/-- The headers that the code takes for safelisted. -/
def safelistedHeader (field : Field) : Bool :=
  if (texts ["accept", "accept-language", "content-language"]).contains field.1 then
    field.2.length ≤ 128 && !field.2.any controlByte
  else if field.1 = "content-type".toList then formType field.2
  else false

/-- The page's headers that are kept, in their order. -/
def keep : List (Text × Text) → Except String (List Field)
  | [] => .ok []
  | (name, value) :: rest => do
    let name ← headerName name
    if forbiddenHeader name then keep rest
    else
      let value ← headerValue value
      let kept ← keep rest
      pure ((name, value) :: kept)

def insert (headers : List Header) (name value : Text) : List Header :=
  headers.filter (·.name ≠ name) ++ [⟨name, value, false⟩]

def orInsert (headers : List Header) (field : Field) : List Header :=
  if headers.any (·.name = field.1) then headers else headers ++ [⟨field.1, field.2, false⟩]

end Headers

section Responses

/-- The first value of a header. -/
def get (fields : List Field) (name : String) : Option Text :=
  ((values fields name.toList).head?).bind toStr

def corsAllowed (response : FetchResponse Url) (origin credentials : Text) : Bool :=
  let allowed := get response.headers "access-control-allow-origin"
  (allowed = some origin || (allowed = some star && credentials ≠ "include".toList)) &&
    (credentials ≠ "include".toList ||
      get response.headers "access-control-allow-credentials" = some "true".toList)

def headerTokens (response : FetchResponse Url) (name : String) : List Text :=
  ((values response.headers name.toList).filterMap toStr).flatMap fun value =>
    (pieces value).map fun piece => lower (strip piece)

def isSuccess (status : Nat) : Bool := 200 ≤ status && status < 300

def withoutPreflight (method : Text) : Bool := (texts ["GET", "HEAD", "POST"]).contains method

/-- What the code asks of the response to a preflight. -/
def preflightAccepted (response : FetchResponse Url) (origin credentials method : Text)
    (unsafeHeaders : List Text) : Bool :=
  let methods := headerTokens response "access-control-allow-methods"
  let headers := headerTokens response "access-control-allow-headers"
  isSuccess response.status && corsAllowed response origin credentials &&
    (withoutPreflight method || methods.contains (lower method) ||
      (methods.contains star && credentials ≠ "include".toList)) &&
    unsafeHeaders.all fun name => headers.contains name ||
      (headers.contains star && credentials ≠ "include".toList && name ≠ "authorization".toList)

end Responses

namespace ScriptHost
variable (host : ScriptHost Url)

def httpScheme (url : Url) : Bool := (texts ["http", "https"]).contains (host.scheme url)

def sameOrigin (first second : Url) : Bool :=
  match host.origin first, host.origin second with
  | some first, some second => first = second
  | _, _ => false

/-- `http` or `https`, and of another origin than the document. -/
def crossOrigin (url : Url) : Bool :=
  host.httpScheme url && host.base.all fun base => !host.sameOrigin base url

/-- The serialized origin of the document. -/
def requestOrigin : Text :=
  ((host.base.bind host.origin).map Origin.asciiSerialization).getD "null".toList

def defaultReferrer (document target : Url) : Option Text :=
  if !host.httpScheme document ||
      (host.scheme document = "https".toList && host.scheme target = "http".toList) then none
  else if host.sameOrigin document target then some (host.href (host.bare document))
  else some (((host.origin document).map Origin.asciiSerialization).getD "null".toList ++ ['/'])

/-- A request that has passed every check in front of the network. -/
structure Prepared (Url : Type) where
  kept : List Field
  wire : FetchRequest Url

def insertReferrer (url : Url) (headers : List Header) : List Header :=
  match host.base.bind fun base => host.defaultReferrer base url with
  | some referrer =>
    match headerValue referrer with
    | .ok value => insert headers "referer".toList value
    | .error _ => headers
  | none => headers

def wireHeaders (url : Url) (kept : List Field) : List Header :=
  let supplied := kept.map fun field => ⟨field.1, field.2, true⟩
  let languages := orInsert supplied ("accept-language".toList, host.acceptLanguage)
  (host.stamps url).foldl orInsert (host.insertReferrer url languages)

def parseCredentials (credentials : Text) : Except String Credentials :=
  if credentials = "same-origin".toList then .ok .sameOrigin
  else if credentials = "include".toList then .ok .included
  else if credentials = "omit".toList then .ok .omitted
  else .error "invalid credentials mode"

/-- The URL that the request goes to. -/
def requestUrl (text : Text) : Except String Url := do
  let url ← host.parse host.base text
  if !(texts ["http", "https", "file", "data"]).contains (host.scheme url) then
    throw "unsupported request scheme"
  if host.username url ≠ [] ∨ host.password url ≠ none then
    throw "request URL cannot contain credentials"
  match host.blocked (host.dropFragment url) with
  | some diagnostic => throw diagnostic
  | none => pure (host.dropFragment url)

def requestMethod (text : Text) : Except String Text := do
  let method ← parseMethod text
  if (texts ["CONNECT", "TRACE", "TRACK"]).contains method then
    throw "forbidden request method"
  pure method

def prepare (request : NetRequest) : Except String (Prepared Url) := do
  let url ← host.requestUrl request.url
  let method ← requestMethod request.method
  let credentials ← parseCredentials request.credentials
  let kept ← keep request.headers
  let headers := host.wireHeaders url kept
  let body := if (texts ["GET", "HEAD"]).contains method then none else request.body
  if host.crossOrigin url then
    let origin ← headerValue host.requestOrigin
    pure ⟨kept, url, method, insert headers "origin".toList origin, credentials, body⟩
  else
    pure ⟨kept, url, method, headers, credentials, body⟩

namespace Prepared
variable (prepared : Prepared Url)

def unsafeHeaders : List Text :=
  (prepared.kept.filter fun field => !safelistedHeader field).map Prod.fst

def needsPreflight : Bool :=
  host.crossOrigin prepared.wire.url &&
    (!withoutPreflight prepared.wire.method || prepared.unsafeHeaders ≠ [])

def sortedUnsafe : List Text :=
  (prepared.unsafeHeaders.insertionSort fun first second => first ≤ second).dedup

def preflight : FetchRequest Url :=
  let headers := insert [] "origin".toList (Forms.latin host.requestOrigin)
  let headers := insert headers "access-control-request-method".toList prepared.wire.method
  let headers :=
    if prepared.sortedUnsafe = [] then headers
    else insert headers "access-control-request-headers".toList
      (", ".toList.intercalate prepared.sortedUnsafe)
  { url := prepared.wire.url
    method := "OPTIONS".toList
    headers := orInsert headers ("accept-language".toList, host.acceptLanguage)
    credentials := .omitted }

end Prepared

/-- The requests that the provider is given, and what `perform_inner` returns. -/
structure Exchange (Url : Type) where
  preflight : Option (FetchRequest Url)
  wire : Option (FetchRequest Url)
  result : Except String (Reply Url)

def replyHeaders (response : FetchResponse Url) (credentials : Text) : List Field :=
  let exposed := headerTokens response "access-control-expose-headers"
  let shown := response.headers.filter fun field =>
    !(texts ["set-cookie", "set-cookie2"]).contains field.1 &&
      (!host.crossOrigin response.url || exposedAlways.contains field.1 ||
        exposed.contains field.1 ||
        (credentials ≠ "include".toList && exposed.contains star))
  shown.filterMap fun field => (toStr field.2).map fun value => (field.1, value)

def reply (response : FetchResponse Url) (credentials : Text) : Except String (Reply Url) :=
  if host.crossOrigin response.url && !corsAllowed response host.requestOrigin credentials then
    .error "CORS response rejected"
  else .ok {
    status := response.status
    statusText := (host.canonicalReason response.status).getD []
    url := response.url
    headers := host.replyHeaders response credentials
    body := host.decodeBody response.body
    bytes := response.body }

/-- The provider's answer to each request it is given. -/
abbrev Network (Url : Type) := Nat → FetchRequest Url → Except String (FetchResponse Url)

def send (network : Network Url) (request : NetRequest) (prepared : Prepared Url)
    (preflight : Option (FetchRequest Url)) : Exchange Url :=
  { preflight
    wire := some prepared.wire
    result := network preflight.toList.length prepared.wire >>= fun response =>
      host.reply response request.credentials }

def performInner (network : Network Url) (request : NetRequest) : Exchange Url :=
  match host.prepare request with
  | .error error => ⟨none, none, .error error⟩
  | .ok prepared =>
    if prepared.needsPreflight host then
      let preflight := prepared.preflight host
      match network 0 preflight with
      | .error error => ⟨some preflight, none, .error error⟩
      | .ok response =>
        if preflightAccepted response host.requestOrigin request.credentials
            prepared.wire.method prepared.unsafeHeaders then
          host.send network request prepared (some preflight)
        else ⟨some preflight, none, .error "CORS preflight rejected"⟩
    else host.send network request prepared none

end ScriptHost
end Chuzz.PageNet
