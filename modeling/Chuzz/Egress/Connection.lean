import Chuzz.Headless.Policy

/-! A connection to the egress filter, up to its tunnel. The URL parser is a parameter, and
so is what the resolver answers and which of the connection's attempts succeed. -/
namespace Chuzz.Egress
open Headless
open Webrtc (Text text)

def isAsciiWhitespace (c : Char) : Bool :=
  c = ' ' || c = '\t' || c = '\n' || c = '\x0c' || c = '\r'

def splitAsciiWhitespace (value : Text) : List Text :=
  (value.splitOnP isAsciiWhitespace).filter (· ≠ [])

/-- `proxy_connect_url` -/
def proxyConnectUrl (parse : Text → Option Url) (requestHead : Text) : Option Url := do
  let firstLine ← requestHead.lines.head?
  match splitAsciiWhitespace firstLine with
  | connect :: authority :: _ =>
    if connect = text "CONNECT" then parse (text "https://" ++ authority ++ text "/") else none
  | _ => none

inductive Reply where
  | forbidden
  | badGateway
  | established
deriving DecidableEq, Repr

/-- What a connection comes to: the addresses that were dialled in turn, the calls of the
resolver so far, and what the client is told. -/
structure Connection where
  dialled : List SocketAddr := []
  calls : Nat
  reply : Option Reply := none
deriving DecidableEq, Repr

/-- Dials in turn until an attempt succeeds. -/
def dial (connects : Nat → Bool) : Nat → List SocketAddr → List SocketAddr × Bool
  | _, [] => ([], false)
  | attempt, address :: rest =>
    if connects attempt then ([address], true)
    else
      let (more, upstream) := dial connects (attempt + 1) rest
      (address :: more, upstream)

/-- `handle_connection`, for a request head that `read_head` may not get whole. -/
def handleConnection (parse : Text → Option Url) (policy : HeadlessPolicy) (resolver : Resolver)
    (connects : Nat → Bool) (calls : Nat) (head : Option Text) : Connection :=
  match head with
  | none => { calls }
  | some head =>
    match proxyConnectUrl parse head with
    | none => { calls, reply := some .forbidden }
    | some url =>
      match policy.resolvePublicAddresses resolver calls url with
      | (.error _, calls) => { calls, reply := some .forbidden }
      | (.ok addresses, calls) =>
        let (dialled, upstream) := dial connects 0 addresses
        { dialled, calls, reply := some (if upstream then .established else .badGateway) }

theorem dial_subset (connects : Nat → Bool) (attempt : Nat) (addresses : List SocketAddr) :
    (dial connects attempt addresses).1 ⊆ addresses := by
  induction addresses generalizing attempt with
  | nil => exact List.Subset.refl _
  | cons address rest ih =>
    rw [dial]
    split
    · exact List.cons_subset_cons address (List.nil_subset rest)
    · exact List.cons_subset_cons address (ih (attempt + 1))

theorem dial_failing (attempt : Nat) (addresses : List SocketAddr) :
    (dial (fun _ => false) attempt addresses).1 = addresses := by
  induction addresses generalizing attempt with
  | nil => rfl
  | cons address rest ih =>
    exact congrArg (address :: ·) (ih (attempt + 1))

/-- Every dialled address is one that the resolution of the request's URL has accepted. -/
theorem dialled_accepted {parse : Text → Option Url} {policy : HeadlessPolicy}
    {resolver : Resolver} {connects : Nat → Bool} {calls : Nat} {head : Option Text}
    {address : SocketAddr}
    (dialled : address ∈ (handleConnection parse policy resolver connects calls head).dialled) :
    ∃ line url addresses after, head = some line ∧ proxyConnectUrl parse line = some url ∧
      policy.resolvePublicAddresses resolver calls url = (.ok addresses, after) ∧
      address ∈ addresses ∧
      (handleConnection parse policy resolver connects calls head).calls = after := by
  unfold handleConnection at dialled ⊢
  split at dialled
  · simp at dialled
  · rename_i line
    split at dialled
    · simp at dialled
    · rename_i url requested
      split at dialled
      · simp at dialled
      · rename_i addresses after resolved
        refine ⟨line, url, addresses, after, rfl, requested, resolved, ?_, ?_⟩
        · exact dial_subset connects 0 addresses dialled
        · rfl

/-- Whatever is dialled for a request was returned by the one resolution of its URL, which
the policy admits, and lies in no block for a special purpose. -/
def Guarded (parse : Text → Option Url) (policy : HeadlessPolicy) (resolver : Resolver)
    (calls : Nat) (head : Option Text) : Prop :=
  ∀ connects, ∀ address ∈ (handleConnection parse policy resolver connects calls head).dialled,
    (∃ line url host port, head = some line ∧ proxyConnectUrl parse line = some url ∧
      Admits policy url host ∧
      ((parseIpAddr (normalizedHost host) = some address.ip ∧ address.port = port ∧
          (handleConnection parse policy resolver connects calls head).calls = calls) ∨
        ∃ answer, resolver calls (normalizedHost host) port = some answer ∧ address ∈ answer ∧
          (handleConnection parse policy resolver connects calls head).calls = calls + 1)) ∧
    ¬ address.ip.Special

/-- An address for benchmarking, which a resolver may give for any name. -/
def benchmarkAddress : SocketAddr := ⟨.v6 ⟨0x2001, 2, 0, 0, 0, 0, 0, 1⟩, 443⟩

def sampleParse (source : Text) : Option Url :=
  if source = text "https://example.com:443/" then
    some { scheme := text "https", host := some (text "example.com") }
  else none

end Chuzz.Egress
