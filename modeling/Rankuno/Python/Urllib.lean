import Rankuno.Python.Ipaddress

/-!
# Python's `urlsplit` and `urlunsplit`

`urllib.parse` as Python 3.11 has it: the split of a URL into five texts, the
host, port and credentials read lazily from the network location, and the text
rebuilt from the five. An error is the text of the `ValueError`.
-/

namespace Rankuno.Python

open Text

/-- What `urlsplit` returns. -/
structure SplitResult where
  scheme : Text
  netloc : Text
  path : Text
  query : Text
  fragment : Text
  deriving DecidableEq

namespace Urllib

/-- `_WHATWG_C0_CONTROL_OR_SPACE`. -/
def isC0ControlOrSpace (c : Char) : Bool := c.toNat ≤ 32

/-- `_UNSAFE_URL_BYTES_TO_REMOVE`. -/
def isUnsafeUrlByte (c : Char) : Bool := c = '\t' || c = '\r' || c = '\n'

/-- `scheme_chars`. -/
def isSchemeChar (c : Char) : Bool :=
  isAsciiAlpha c || isAsciiDigit c || c = '+' || c = '-' || c = '.'

/-- `str.lower` of ASCII text. -/
def lowerAscii (s : Text) : Text := s.map Char.toLower

/-- The scheme of a URL, lowered, and what follows its colon. -/
def splitScheme (url : Text) : Text × Text :=
  match partition ':' url with
  | (_, none) => ([], url)
  | (scheme, some rest) =>
    if scheme.head?.any isAsciiAlpha && scheme.all isSchemeChar then
      (lowerAscii scheme, rest)
    else ([], url)

/-- `_splitnetloc`, once the `//` is gone. -/
def splitNetloc (url : Text) : Text × Text :=
  url.span fun c => c ≠ '/' ∧ c ≠ '?' ∧ c ≠ '#'

/-- `\Av[a-fA-F0-9]+\..+\Z`, for a text that starts with `v`. The dot of a
pattern matches no line feed. -/
def isIPvFuture (hostname : Text) : Bool :=
  match partition '.' hostname.tail with
  | (version, some address) =>
    version ≠ [] && version.all (fun c => (hexDigit? c).isSome) && address ≠ [] &&
      address.all (· ≠ '\n')
  | (_, none) => false

/-- `_check_bracketed_host`. -/
def checkBracketedHost (unicode : UnicodeData) (hostname : Text) : Except Text Unit :=
  if hostname.head? = some 'v' then
    if isIPvFuture hostname then .ok () else .error "IPvFuture address is invalid".toList
  else
    match ipAddress unicode hostname with
    | .error message => .error message
    | .ok (.v4 _) => .error "An IPv4 address cannot be in brackets".toList
    | .ok (.v6 _ _) => .ok ()

/-- The check `urlsplit` makes of the brackets of a network location. -/
def checkBrackets (unicode : UnicodeData) (netloc : Text) : Except Text Unit :=
  if '[' ∈ netloc ∧ ']' ∉ netloc ∨ ']' ∈ netloc ∧ '[' ∉ netloc then
    .error "Invalid IPv6 URL".toList
  else
    match partition '[' netloc with
    | (_, none) => .ok ()
    | (_, some bracketed) => checkBracketedHost unicode (partition ']' bracketed).1

/-- `_checknetloc`: no character may turn into a delimiter under NFKC. -/
def checkNetloc (unicode : UnicodeData) (netloc : Text) : Except Text Unit :=
  let n := netloc.filter fun c => c ≠ '@' ∧ c ≠ ':' ∧ c ≠ '#' ∧ c ≠ '?'
  if isAscii netloc ∨ n = unicode.nfkc n then .ok ()
  else if "/?#@:".toList.any fun c => c ∈ unicode.nfkc n then
    .error ("netloc '".toList ++ netloc ++
      "' contains invalid characters under NFKC normalization".toList)
  else .ok ()

/-- `urlsplit`. -/
def urlsplit (unicode : UnicodeData) (url : Text) : Except Text SplitResult := do
  let url := (lstrip isC0ControlOrSpace url).filter fun c => !isUnsafeUrlByte c
  let (scheme, url) := splitScheme url
  let (netloc, url) ←
    if url.take 2 = ['/', '/'] then
      let (netloc, rest) := splitNetloc (url.drop 2)
      (checkBrackets unicode netloc).map fun _ => (netloc, rest)
    else .ok ([], url)
  let (url, fragment) := partition '#' url
  let (path, query) := partition '?' url
  checkNetloc unicode netloc
  return {
    scheme := scheme
    netloc := netloc
    path := path
    query := query.getD []
    fragment := fragment.getD [] }

/-- `uses_netloc`. -/
def usesNetloc : List Text :=
  ["", "ftp", "http", "gopher", "nntp", "telnet", "imap", "wais", "file", "mms", "https",
    "shttp", "snews", "prospero", "rtsp", "rtsps", "rtspu", "rsync", "svn", "svn+ssh", "sftp",
    "nfs", "git", "git+ssh", "ws", "wss"].map String.toList

/-- `urlunsplit`. -/
def urlunsplit (parts : SplitResult) : Text :=
  let url :=
    if parts.netloc ≠ [] ∨ (parts.scheme ≠ [] ∧ parts.scheme ∈ usesNetloc) ∨
        parts.path.take 2 = ['/', '/'] then
      let path :=
        if parts.path ≠ [] ∧ parts.path.head? ≠ some '/' then '/' :: parts.path else parts.path
      ['/', '/'] ++ parts.netloc ++ path
    else parts.path
  let url := if parts.scheme ≠ [] then parts.scheme ++ ':' :: url else url
  let url := if parts.query ≠ [] then url ++ '?' :: parts.query else url
  if parts.fragment ≠ [] then url ++ '#' :: parts.fragment else url

end Urllib

namespace SplitResult

open Urllib

/-- `_userinfo`: the username and the password. -/
def userinfo (parts : SplitResult) : Option Text × Option Text :=
  match rpartition '@' parts.netloc with
  | (none, _) => (none, none)
  | (some userinfo, _) => ((partition ':' userinfo).1, (partition ':' userinfo).2)

def username (parts : SplitResult) : Option Text := parts.userinfo.1

def password (parts : SplitResult) : Option Text := parts.userinfo.2

/-- `_hostinfo`: the host as written, and the port as written. -/
def hostinfo (parts : SplitResult) : Text × Option Text :=
  let hostinfo := (rpartition '@' parts.netloc).2
  let (hostname, port) :=
    match partition '[' hostinfo with
    | (_, some bracketed) =>
      ((partition ']' bracketed).1, (partition ':' ((partition ']' bracketed).2.getD [])).2)
    | (_, none) => partition ':' hostinfo
  (hostname, if port = some [] then none else port)

/-- `hostname`: lowered, but for the zone of a scoped address. -/
def hostname (unicode : UnicodeData) (parts : SplitResult) : Option Text :=
  if parts.hostinfo.1 = [] then none
  else
    match partition '%' parts.hostinfo.1 with
    | (host, none) => some (unicode.lower host)
    | (host, some zone) => some (unicode.lower host ++ '%' :: zone)

/-- `port`, which is checked only when it is read. -/
def port (unicode : UnicodeData) (parts : SplitResult) : Except Text (Option Nat) :=
  match parts.hostinfo.2 with
  | none => .ok none
  | some port =>
    if ¬port.all isAsciiDigit then
      .error ("Port could not be cast to integer value as ".toList ++ unicode.repr port)
    else if 65535 < decimal port then .error "Port out of range 0-65535".toList
    else .ok (some (decimal port))

end SplitResult

end Rankuno.Python
