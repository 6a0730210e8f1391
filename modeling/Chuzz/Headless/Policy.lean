import Chuzz.Headless.Address

/-! The policy of the bot child: which URLs it may load, and the addresses that they
resolve to. A resolver may answer every call differently. -/
namespace Chuzz.Headless
open List
open Webrtc (Text text)

structure SocketAddr where
  ip : IpAddr
  port : Nat
deriving DecidableEq, Repr

/-- What the policy reads of a parsed URL. -/
structure Url where
  scheme : Text
  username : Text := []
  password : Option Text := none
  host : Option Text := none
  port : Option Nat := none
deriving DecidableEq, Repr

def Url.portOrKnownDefault (url : Url) : Option Nat :=
  url.port <|>
    if url.scheme = text "https" ∨ url.scheme = text "wss" then some 443
    else if url.scheme = text "http" ∨ url.scheme = text "ws" then some 80
    else if url.scheme = text "ftp" then some 21
    else none

/-- The answers of the system's resolver to its calls, by their number. -/
abbrev Resolver := Nat → Text → Nat → Option (List SocketAddr)

structure HeadlessPolicy where
  botChild : Bool := true
  allowedDomains : List Text := []
  allowFormSubmit : Bool := false
deriving DecidableEq, Repr

def endsWith (host : Text) (ending : String) : Bool := ending.toList.isSuffixOf host

def isLocalHostname (host : Text) : Bool :=
  host = text "localhost" || endsWith host ".localhost" || endsWith host ".local" ||
    endsWith host ".internal" || endsWith host ".lan"

def stripSuffix (host domain : Text) : Option Text :=
  if domain.isSuffixOf host then some (host.take (host.length - domain.length)) else none

def domainIsAllowed (host : Text) (allowedDomains : List Text) : Bool :=
  allowedDomains.isEmpty || allowedDomains.any fun domain =>
    host = domain || (stripSuffix host domain).any fun front => front.getLast? = some '.'

/-- The host without dots at its end, in lower case. -/
def normalizedHost (host : Text) : Text := (host.trimEndMatches '.').toAsciiLowercase

namespace HeadlessPolicy

/-- The last component counts the calls of the resolver. -/
def resolvePublicAddresses (policy : HeadlessPolicy) (resolver : Resolver) (calls : Nat)
    (url : Url) : Except String (List SocketAddr) × Nat :=
  if url.scheme ≠ text "https" then (.error "only HTTPS navigation is allowed in bot mode", calls)
  else if url.username ≠ [] ∨ url.password.isSome then
    (.error "URLs with credentials are not allowed in bot mode", calls)
  else
    match url.host with
    | none => (.error "the URL has no host", calls)
    | some host =>
      let name := normalizedHost host
      if name = [] ∨ isLocalHostname name then
        (.error "local hostnames are not allowed in bot mode", calls)
      else if domainIsAllowed name policy.allowedDomains = false then
        (.error "the URL host is outside the configured allowlist", calls)
      else
        match url.portOrKnownDefault with
        | none => (.error "the URL has no known port", calls)
        | some port =>
          match parseIpAddr name with
          | some address =>
            if isPublicAddress address then (.ok [⟨address, port⟩], calls)
            else (.error "local and non-public IP addresses are not allowed", calls)
          | none =>
            match resolver calls name port with
            | none => (.error "the URL host could not be resolved", calls + 1)
            | some addresses =>
              if addresses = [] ∨ addresses.any fun address => !isPublicAddress address.ip then
                (.error "the URL host does not resolve exclusively to public IP addresses",
                  calls + 1)
              else (.ok addresses, calls + 1)

def validateUrl (policy : HeadlessPolicy) (resolver : Resolver) (calls : Nat) (url : Url) :
    Except String Unit × Nat :=
  if policy.botChild = false then (.ok (), calls)
  else
    match policy.resolvePublicAddresses resolver calls url with
    | (.ok _, calls) => (.ok (), calls)
    | (.error error, calls) => (.error error, calls)

end HeadlessPolicy

/-- The name is `top` or stands below it. -/
def Within (host top : Text) : Prop := host = top ∨ ∃ front, host = front ++ '.' :: top

def LocalName (host : Text) : Prop :=
  host = text "localhost" ∨
    ∃ top ∈ ["localhost", "local", "internal", "lan"].map text, ∃ front, host = front ++ '.' :: top

variable {host : Text}

theorem endsWith_iff {ending : String} :
    endsWith host ending = true ↔ ∃ front, host = front ++ ending.toList := by
  rw [endsWith, isSuffixOf_iff_suffix]
  exact ⟨fun ⟨front, same⟩ => ⟨front, same.symm⟩, fun ⟨front, same⟩ => ⟨front, same.symm⟩⟩

theorem isLocalHostname_iff : isLocalHostname host = true ↔ LocalName host := by
  simp only [isLocalHostname, LocalName, Bool.or_eq_true, decide_eq_true_eq, endsWith_iff,
    map_cons, map_nil, mem_cons, not_mem_nil, or_false, exists_eq_or_imp,
    exists_eq_left, or_assoc]
  rfl

theorem stripSuffix_dot {host domain : Text} :
    ((stripSuffix host domain).any fun front => front.getLast? = some '.') = true ↔
      ∃ front, host = front ++ '.' :: domain := by
  constructor
  · intro stripped
    rw [stripSuffix] at stripped
    split at stripped
    · rename_i ends
      obtain ⟨front, rfl⟩ := isSuffixOf_iff_suffix.mp ends
      have last : front.getLast? = some '.' := by simpa using stripped
      obtain ⟨inner, rfl⟩ := getLast?_eq_some_iff.mp last
      exact ⟨inner, by simp⟩
    · simp at stripped
  · rintro ⟨front, rfl⟩
    have ends : domain.isSuffixOf (front ++ '.' :: domain) = true :=
      isSuffixOf_iff_suffix.mpr ⟨front ++ ['.'], by simp⟩
    have rest : (front ++ '.' :: domain).take ((front ++ '.' :: domain).length - domain.length) =
        front ++ ['.'] := by
      rw [show front ++ '.' :: domain = (front ++ ['.']) ++ domain by simp]
      apply take_left'
      simp only [length_append, length_cons, length_nil]
      omega
    rw [stripSuffix, if_pos ends, rest]
    simp

theorem domainIsAllowed_iff {allowedDomains : List Text} :
    domainIsAllowed host allowedDomains = true ↔
      allowedDomains = [] ∨ ∃ domain ∈ allowedDomains, Within host domain := by
  simp only [domainIsAllowed, Bool.or_eq_true, List.isEmpty_iff, List.any_eq_true,
    decide_eq_true_eq, stripSuffix_dot, Within]

/-- What the policy asks of a URL, besides the addresses of its host. -/
structure Admits (policy : HeadlessPolicy) (url : Url) (host : Text) : Prop where
  scheme : url.scheme = text "https"
  username : url.username = []
  password : url.password = none
  hosted : url.host = some host
  remote : ¬ LocalName (normalizedHost host)
  allowed : policy.allowedDomains ≠ [] →
    ∃ domain ∈ policy.allowedDomains, Within (normalizedHost host) domain

/-- Addresses that are accepted are the resolver's answer to one call, or the address that
the URL's host spells. -/
theorem HeadlessPolicy.resolve_ok {policy : HeadlessPolicy} {resolver : Resolver}
    {calls after : Nat} {url : Url} {addresses : List SocketAddr}
    (resolved : policy.resolvePublicAddresses resolver calls url = (.ok addresses, after)) :
    (∀ address ∈ addresses, isPublicAddress address.ip = true) ∧
      ∃ host port, Admits policy url host ∧ url.portOrKnownDefault = some port ∧
        ((∃ address, parseIpAddr (normalizedHost host) = some address ∧
            addresses = [⟨address, port⟩] ∧ after = calls) ∨
          (resolver calls (normalizedHost host) port = some addresses ∧ after = calls + 1)) := by
  unfold resolvePublicAddresses at resolved
  split at resolved
  · simp at resolved
  rename_i scheme
  split at resolved
  · simp at resolved
  rename_i credentials
  split at resolved
  · simp at resolved
  rename_i host hosted
  dsimp only at resolved
  split at resolved
  · simp at resolved
  rename_i remote
  split at resolved
  · simp at resolved
  rename_i allowed
  split at resolved
  · simp at resolved
  rename_i port ported
  have admits : Admits policy url host := by
    rw [not_or] at credentials remote
    constructor
    · simpa using scheme
    · simpa using credentials.1
    · simpa using credentials.2
    · exact hosted
    · exact fun near => remote.2 (isLocalHostname_iff.mpr near)
    · intro listed
      have covered := domainIsAllowed_iff.mp (by simpa using allowed)
      exact covered.resolve_left listed
  split at resolved
  · rename_i address parsed
    split at resolved
    · rename_i public_
      obtain ⟨same, rfl⟩ := Prod.mk.inj resolved
      obtain rfl := Except.ok.inj same
      refine ⟨?_, host, port, admits, ported, .inl ⟨address, parsed, rfl, rfl⟩⟩
      intro other member
      rw [mem_singleton.mp member]
      exact public_
    · simp at resolved
  · split at resolved
    · simp at resolved
    · rename_i answer answered
      split at resolved
      · simp at resolved
      · rename_i only
        obtain ⟨same, rfl⟩ := Prod.mk.inj resolved
        obtain rfl := Except.ok.inj same
        refine ⟨?_, host, port, admits, ported, .inr ⟨answered, rfl⟩⟩
        intro address member
        have passed : ¬ (answer.any fun address => !isPublicAddress address.ip) = true :=
          fun some => only (.inr some)
        simpa using fun refused => passed (any_eq_true.mpr ⟨address, member, refused⟩)

end Chuzz.Headless
