import Chuzz.PageServer.Confinement

/-! The two front ends of the page server: what each sends for a request, up to the status line, the
headers that they share and the framing. -/
namespace Chuzz.PageServer
open Library.SymbolicLinks
local instance lawfulTarget : LawfulBEq (List UInt8) := inferInstance

/-- A file can be read, or says why not. -/
abbrev Files := Tree Name (Except String Bytes)

/-- What the decoders of compressed bodies and the display of paths give. -/
structure Platform where
  gunzip : Bytes → Option Bytes
  brotli : Bytes → Option Bytes
  display : Path → Bytes

namespace FrontEnds
variable (platform : Platform) (tree : Files) (links : Nat)

/-- `std::fs::read` -/
def readFile (path : Path) : Except String Bytes :=
  match (canonicalize tree links path).bind tree with
  | some (.file contents) => contents
  | some .directory => .error "Is a directory (os error 21)"
  | _ => .error "No such file or directory (os error 2)"

/-! Bodies. -/

def isUtf8 (body : Bytes) : Bool := (ByteArray.mk body.toArray).validateUTF8

/-- `Utf8Error::valid_up_to` -/
def validUpTo (body : Bytes) : Nat :=
  ((List.range (body.length + 1)).reverse.find? fun count => isUtf8 (body.take count)).getD 0

def looksLikeText (body : Bytes) : Bool :=
  let window := body.take 512
  if isUtf8 window then 0 ∉ window else window.length - 4 ≤ validUpTo window

def isGzip (body : Bytes) : Bool := 2 < body.length && body.take 2 = [0x1F, 0x8B]

/-- `decode_body_if_compressed` -/
def decompress (body : Bytes) : Option Bytes :=
  if body = [] || looksLikeText body then none
  else if isGzip body then platform.gunzip body
  else (platform.brotli body).filter (· ≠ [])

def decoded (contentType : String) (body : Bytes) : Bytes :=
  let isText := decide ("text/".toList <+: contentType.toList) ||
    decide ("application/json".toList <+: contentType.toList) ||
      decide ("javascript".toList <:+: contentType.toList)
  if !isText then body else (decompress platform body).getD body

def contentTypes : List (List String × String) :=
  [(["html", "htm"], "text/html; charset=utf-8"),
    (["css", "mcss", "scss", "sass", "less"], "text/css; charset=utf-8"),
    (["js", "mjs"], "text/javascript; charset=utf-8"),
    (["json", "map"], "application/json; charset=utf-8"),
    (["svg"], "image/svg+xml"), (["png"], "image/png"), (["jpg", "jpeg"], "image/jpeg"),
    (["gif"], "image/gif"), (["webp"], "image/webp"), (["avif"], "image/avif"),
    (["ico"], "image/x-icon"), (["woff2"], "font/woff2"), (["woff"], "font/woff"),
    (["ttf"], "font/ttf"), (["wasm"], "application/wasm"),
    (["txt"], "text/plain; charset=utf-8"), (["xml"], "application/xml")]

def contentType (path : Path) : String :=
  let extension := (extension path).getD []
  match contentTypes.find? fun row => row.1.any fun name => bytes name = extension with
  | some (_, type) => type
  | none => "application/octet-stream"

/-! Responses. -/

structure Response where
  status : Nat
  contentType : String
  contentLength : Nat
  /-- The bytes that are sent behind the head. -/
  body : Bytes
deriving DecidableEq

def respond (status : Nat) (contentType : String) (body : Bytes) (headOnly : Bool) : Response :=
  ⟨status, contentType, body.length, if headOnly then [] else body⟩

def couldNotRead (path : Path) (error : String) : Bytes :=
  bytes "could not read " ++ platform.display path ++ bytes ": " ++ bytes error

/-- `answer`, behind the request line. -/
def answer (root : Path) (method target : Bytes) : Response :=
  if method ∉ [bytes "GET", bytes "HEAD"] then
    respond 405 "text/plain" (bytes "method not allowed") false
  else
    match resolve tree links root target with
    | some path =>
      match readFile tree links path with
      | .ok body =>
        let body := decoded platform (contentType path) body
        respond 200 (contentType path) body (method = bytes "HEAD")
      | .error error => respond 500 "text/plain" (couldNotRead platform path error) false
    | none => respond 404 "text/plain" (bytes "not found") false

/-- `Uri::path_and_query` -/
def pathAndQuery (target : Bytes) : Bytes :=
  let target := target.takeWhile (· ≠ 0x23)
  if target = [] then bytes "/" else target

/-- `answer_h2`. The body is sent in frames behind the head, unless the head ends the stream. -/
def answerH2 (root : Path) (method target : Bytes) : Response :=
  let headOnly : Bool := method = bytes "HEAD"
  let supportedMethod := headOnly || method = bytes "GET"
  let (status, responseType, body) :=
    if !supportedMethod then (405, "text/plain", bytes "method not allowed")
    else
      match resolve tree links root (pathAndQuery target) with
      | some path =>
        match readFile tree links path with
        | .ok body =>
          let responseType := contentType path
          (200, responseType, decoded platform responseType body)
        | .error error => (500, "text/plain", couldNotRead platform path error)
      | none => (404, "text/plain", bytes "not found")
  let endStream := headOnly || body = []
  ⟨status, responseType, body.length, if endStream then [] else body⟩

end FrontEnds
end Chuzz.PageServer
