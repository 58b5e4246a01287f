import Rankuno.Python.Urllib

/-!
# The guard in front of every fetch

`UrlSafetyPolicy` of `core/url_safety.py`: an untrusted text becomes a
`SafeUrl` or is refused, with the checks in the order the source makes them.
Name resolution is an argument, since each call may be answered differently.
-/

namespace Rankuno

open Python Python.Text

/-- `UnsafeUrlError`. -/
structure UnsafeUrlError where
  url : Text
  reason : Text
  deriving DecidableEq

namespace UnsafeUrlError

/-- `str` of the error. -/
def message (e : UnsafeUrlError) : Text :=
  "Refused to fetch '".toList ++ e.url ++ "': ".toList ++ e.reason

end UnsafeUrlError

/-- How a call of the policy ends without a URL: refused, or by an exception
its callers do not expect. -/
inductive UrlPolicyError where
  | unsafeUrl (e : UnsafeUrlError)
  | escaped (message : Text)
  deriving DecidableEq

/-- What a hostname resolves to when it is looked up. -/
abbrev Resolver := Text → Except UrlPolicyError (List Text)

/-- A URL that passed every check. -/
structure SafeUrl where
  original : Text
  url : Text
  scheme : Text
  host : Text
  port : Nat
  resolvedIps : List Text
  deriving DecidableEq

def blockedHostSuffixes : List Text :=
  [".localhost", ".local", ".internal", ".intranet", ".corp", ".home", ".lan",
    "metadata.google.internal", "metadata.goog"].map String.toList

def blockedExactHosts : List Text :=
  ["localhost", "metadata", "instance-data"].map String.toList

def defaultPortForScheme (scheme : Text) : Option Nat :=
  if scheme = "http".toList then some 80 else if scheme = "https".toList then some 443 else none

def firstReason (checks : List (Bool × String)) : Option Text :=
  (checks.find? fun check => check.1).map fun check => check.2.toList

/-- The checks `describe_ip_block` makes of an address that is not unwrapped. -/
def blockReasonV4 (ip : BitVec 32) : Option Text :=
  firstReason
    [(IPv4.isUnspecified ip, "unspecified address"), (IPv4.isLoopback ip, "loopback address"),
      (IPv4.isLinkLocal ip, "link-local address (cloud instance metadata range)"),
      (IPv4.isMulticast ip, "multicast address"),
      (IPv4.isReserved ip, "reserved address"),
      (IPv4.isPrivate ip, "private address (RFC1918 / unique-local)")]

def blockReasonV6 (ip : BitVec 128) : Option Text :=
  firstReason
    [(IPv6.isUnspecified ip, "unspecified address"), (IPv6.isLoopback ip, "loopback address"),
      (IPv6.isLinkLocal ip, "link-local address (cloud instance metadata range)"),
      (IPv6.isMulticast ip, "multicast address"),
      (IPv6.isReserved ip, "reserved address"),
      (IPv6.isPrivate ip, "private address (RFC1918 / unique-local)")]

/-- The IPv4 address an IPv6 one wraps, looked for in the source's order. -/
def unwrapped (ip : BitVec 128) : Option (BitVec 32) :=
  IPv6.ipv4Mapped ip <|> IPv6.sixtofour ip <|> (IPv6.teredo ip).map Prod.snd

/-- `describe_ip_block` of a parsed address. The source describes the text of
the wrapped address, which parses back to it. -/
def blockReason : IPAddress → Option Text
  | .v4 ip => blockReasonV4 ip
  | .v6 ip _ =>
    match unwrapped ip with
    | some inner => blockReasonV4 inner
    | none => blockReasonV6 ip

/-- `describe_ip_block`. -/
def describeIpBlock (unicode : UnicodeData) (address : Text) : Option Text :=
  match ipAddress unicode address with
  | .error _ => some ("'".toList ++ address ++ "' is not a valid IP address".toList)
  | .ok ip => blockReason ip

/-- The settings of a policy. The sets are listed in the order the messages
print them. -/
structure UrlSafetyPolicy where
  schemes : List Text := ["http", "https"].map String.toList
  ports : List Nat := [80, 443, 8080, 8443]
  allowPrivate : Bool := false

namespace UrlSafetyPolicy

variable (policy : UrlSafetyPolicy) (unicode : UnicodeData)

def refuse {α : Type} (url reason : Text) : Except UrlPolicyError α :=
  .error (.unsafeUrl ⟨url, reason⟩)

/-- `_extract_host`. -/
def extractHost (url : Text) (hostname : Option Text) : Except UrlPolicyError Text :=
  let host := rstrip (· = '.') (unicode.lower (hostname.getD []))
  if hostname.getD [] = [] ∨ host = [] then refuse url "URL has no host".toList
  else if isAscii host then .ok host
  else
    match unicode.idna host with
    | .ok host => .ok host
    | .error reason =>
      refuse url ("hostname is not encodable as IDNA (".toList ++ reason ++ [')'])

/-- `_extract_port`. A scheme without a default port is a missing key. -/
def extractPort (url : Text) (parts : SplitResult) (scheme : Text) : Except UrlPolicyError Nat :=
  match parts.port unicode with
  | .error reason => refuse url ("invalid port (".toList ++ reason ++ [')'])
  | .ok explicit =>
    match explicit <|> defaultPortForScheme scheme with
    | none => .error (.escaped (unicode.repr scheme))
    | some port =>
      if port ∈ policy.ports then .ok port
      else
        refuse url ("port ".toList ++ ofNat port ++ " is not permitted (allowed: ".toList ++
          join ", ".toList (policy.ports.map ofNat) ++ [')'])

/-- `_reject_internal_names`. -/
def rejectInternalNames (url host : Text) : Except UrlPolicyError Unit :=
  if policy.allowPrivate then .ok ()
  else if blockedExactHosts.contains host then
    refuse url ("'".toList ++ host ++ "' names an internal host".toList)
  else
    match blockedHostSuffixes.find? fun suffix => suffix.isSuffixOf host with
    | none => .ok ()
    | some suffix =>
      refuse url ("'".toList ++ host ++ "' matches blocked suffix '".toList ++ suffix ++ ['\''])

/-- The addresses of a host: its own, if it is a literal. -/
def addressesOf (resolve : Resolver) (host : Text) : Except UrlPolicyError (List Text) :=
  match ipAddress unicode (strip (fun c => c = '[' ∨ c = ']') host) with
  | .ok literal => .ok [literal.toText]
  | .error _ => resolve host

/-- `_validate_addresses`. -/
def validateAddresses (resolve : Resolver) (url host : Text) : Except UrlPolicyError (List Text) :=
  match addressesOf unicode resolve host with
  | .error e => .error e
  | .ok [] => refuse url "hostname resolved to no addresses".toList
  | .ok addresses =>
    if policy.allowPrivate then .ok addresses
    else
      match addresses.findSome? fun address =>
          (describeIpBlock unicode address).map fun reason => (address, reason) with
      | none => .ok addresses
      | some (address, reason) =>
        refuse url ("host resolves to ".toList ++ address ++ " — ".toList ++ reason)

/-- `_normalize`: the default port is left out, a missing path is `/` and the
fragment is dropped. -/
def normalize (parts : SplitResult) (scheme host : Text) (port : Nat) : Text :=
  Urllib.urlunsplit {
    scheme := scheme
    netloc := if some port = defaultPortForScheme scheme then host else host ++ ':' :: ofNat port
    path := if parts.path = [] then ['/'] else parts.path
    query := parts.query
    fragment := [] }

/-- The checks `validate` makes once the URL is split. -/
def validateParts (resolve : Resolver) (url : Text) (parts : SplitResult) :
    Except UrlPolicyError SafeUrl := do
  let scheme := unicode.lower parts.scheme
  if !policy.schemes.contains scheme then
    refuse url ("scheme '".toList ++ parts.scheme ++ "' is not permitted (allowed: ".toList ++
      join ", ".toList policy.schemes ++ [')'])
  else if parts.username ≠ none ∨ parts.password ≠ none then
    refuse url "embedded credentials are not permitted".toList
  else
    let host ← extractHost unicode url (parts.hostname unicode)
    let port ← policy.extractPort unicode url parts scheme
    policy.rejectInternalNames url host
    let resolved ← policy.validateAddresses unicode resolve url host
    return {
      original := url
      url := normalize parts scheme host port
      scheme := scheme
      host := host
      port := port
      resolvedIps := resolved }

/-- `validate`. -/
def validate (resolve : Resolver) (url : Text) : Except UrlPolicyError SafeUrl :=
  let candidate := strip isSpace url
  if candidate = [] then refuse url "empty URL".toList
  else if candidate.any fun c => c = '\r' ∨ c = '\n' ∨ c = '\t' ∨ c = '\x00' then
    refuse url "URL contains a control character".toList
  else
    match Urllib.urlsplit unicode candidate with
    | .error reason => refuse url ("URL is unparseable (".toList ++ reason ++ [')'])
    | .ok parts => policy.validateParts unicode resolve url parts

end UrlSafetyPolicy

end Rankuno
