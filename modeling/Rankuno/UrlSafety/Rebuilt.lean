import Rankuno.Python.Lower
import Rankuno.Python.UrlRebuild
import Rankuno.UrlSafety.Policy

/-!
# What was checked is what is fetched

The guard checks the parts of a URL and hands on a text it rebuilds from them.
The fetcher splits that text again, so the checks count only if it finds the same
parts. It does, and the guard accepts its own result unchanged, exactly when the
host can stand in a network location as it is and the rebuilt text does not end
in a blank, `Rebuilds`. A literal IPv6 host cannot, since its brackets are gone.
-/

namespace Rankuno

open Python Python.Text

namespace UrlSafetyPolicy

section Checks

variable {policy : UrlSafetyPolicy} {unicode : UnicodeData} {resolve : Resolver}
variable {url host hostname scheme : Text} {parts : SplitResult} {port : Nat} {ips : List Text}

theorem extractHost_eq_ok : extractHost unicode url (some hostname) = .ok host ↔
    hostname ≠ [] ∧ rstrip (· = '.') (unicode.lower hostname) ≠ [] ∧
      (isAscii (rstrip (· = '.') (unicode.lower hostname)) = true ∧
          rstrip (· = '.') (unicode.lower hostname) = host ∨
        isAscii (rstrip (· = '.') (unicode.lower hostname)) = false ∧
          unicode.idna (rstrip (· = '.') (unicode.lower hostname)) = .ok host) := by
  rw [extractHost, Option.getD_some]
  generalize rstrip (· = '.') (unicode.lower hostname) = name
  by_cases empty : hostname = [] ∨ name = []
  · rw [if_pos empty]
    refine iff_of_false (fun h => by cases h) ?_
    rintro ⟨filled, named, -⟩
    exact empty.elim filled named
  · rw [if_neg empty]
    rw [not_or] at empty
    rw [and_iff_right empty.1, and_iff_right empty.2]
    cases ascii : isAscii name with
    | true => simp
    | false =>
      simp only [Bool.false_eq_true, if_false, false_and, true_and, false_or]
      cases unicode.idna name with
      | ok encoded =>
        constructor
        · intro h
          cases h
          rfl
        · intro h
          cases h
          rfl
      | error reason =>
        refine iff_of_false (fun h => by cases h) fun h => by cases h

theorem extractPort_eq_ok : policy.extractPort unicode url parts scheme = .ok port ↔
    (∃ explicit, parts.port unicode = .ok explicit ∧
      (explicit <|> defaultPortForScheme scheme) = some port) ∧ port ∈ policy.ports := by
  rw [extractPort]
  cases parts.port unicode with
  | error reason =>
    refine iff_of_false (fun h => by cases h) ?_
    rintro ⟨⟨explicit, h, -⟩, -⟩
    cases h
  | ok explicit =>
    dsimp only
    cases found : explicit <|> defaultPortForScheme scheme with
    | none =>
      refine iff_of_false (fun h => by cases h) ?_
      rintro ⟨⟨explicit', h, some⟩, -⟩
      cases h
      rw [found] at some
      cases some
    | some port' =>
      dsimp only
      constructor
      · intro h
        split at h
        · next allowed =>
          cases h
          exact ⟨⟨explicit, rfl, found⟩, allowed⟩
        · cases h
      · rintro ⟨⟨explicit', h, some⟩, allowed⟩
        cases h
        rw [found] at some
        cases some
        rw [if_pos allowed]

/-- The name is not one of internal infrastructure. -/
def IsExternal (host : Text) : Prop :=
  host ∉ blockedExactHosts ∧ ∀ suffix ∈ blockedHostSuffixes, ¬suffix <:+ host

theorem rejectInternalNames_eq_ok (strict : policy.allowPrivate = false) :
    policy.rejectInternalNames url host = .ok () ↔ IsExternal host := by
  rw [rejectInternalNames, strict, if_neg Bool.false_ne_true, IsExternal]
  by_cases exact_ : host ∈ blockedExactHosts
  · rw [if_pos (List.contains_iff_mem.mpr exact_)]
    refine iff_of_false (fun h => by cases h) fun h => h.1 exact_
  · rw [if_neg (fun h => exact_ (List.contains_iff_mem.mp h)), and_iff_right exact_]
    cases found : blockedHostSuffixes.find? fun suffix => suffix.isSuffixOf host with
    | none =>
      rw [List.find?_eq_none] at found
      refine iff_of_true rfl fun suffix mem ends => found suffix mem ?_
      exact List.isSuffixOf_iff_suffix.mpr ends
    | some suffix =>
      have ends : suffix.isSuffixOf host = true := by simpa using List.find?_some found
      refine iff_of_false (fun h => by cases h) fun h => ?_
      exact h suffix (List.mem_of_find?_eq_some found) (List.isSuffixOf_iff_suffix.mp ends)

theorem validateAddresses_eq_ok (strict : policy.allowPrivate = false) :
    policy.validateAddresses unicode resolve url host = .ok ips ↔
      addressesOf unicode resolve host = .ok ips ∧ ips ≠ [] ∧
        ∀ address ∈ ips, describeIpBlock unicode address = none := by
  rw [validateAddresses]
  cases addressesOf unicode resolve host with
  | error e =>
    refine iff_of_false (fun h => by cases h) fun h => ?_
    cases h.1
  | ok addresses =>
    cases addresses with
    | nil =>
      refine iff_of_false (fun h => by cases h) ?_
      rintro ⟨h, some, -⟩
      cases h
      exact some rfl
    | cons a as =>
      dsimp only
      rw [strict, if_neg Bool.false_ne_true]
      cases found : (a :: as).findSome? fun address =>
          (describeIpBlock unicode address).map fun reason => (address, reason) with
      | none =>
        rw [List.findSome?_eq_none_iff] at found
        constructor
        · intro h
          cases h
          refine ⟨rfl, List.cons_ne_nil a as, fun address mem => ?_⟩
          exact Option.map_eq_none_iff.mp (found address mem)
        · rintro ⟨h, -, -⟩
          cases h
          rfl
      | some blocked =>
        refine iff_of_false (fun h => by cases h) ?_
        rintro ⟨h, -, passed⟩
        cases h
        obtain ⟨address, mem, described⟩ := List.exists_of_findSome?_eq_some found
        rw [passed address mem] at described
        cases described

end Checks

/-- A URL that passes every check of `validate`, split into its parts. -/
structure Passes (policy : UrlSafetyPolicy) (unicode : UnicodeData) (resolve : Resolver)
    (url : Text) (parts : SplitResult) (s : SafeUrl) : Prop where
  filled : strip isSpace url ≠ []
  printable : ∀ c ∈ strip isSpace url, ¬(c = '\r' ∨ c = '\n' ∨ c = '\t' ∨ c = '\x00')
  split : Urllib.urlsplit unicode (strip isSpace url) = .ok parts
  scheme : s.scheme = unicode.lower parts.scheme
  allowed : s.scheme ∈ policy.schemes
  username : parts.username = none
  password : parts.password = none
  host : extractHost unicode url (parts.hostname unicode) = .ok s.host
  port : policy.extractPort unicode url parts s.scheme = .ok s.port
  names : policy.rejectInternalNames url s.host = .ok ()
  addresses : policy.validateAddresses unicode resolve url s.host = .ok s.resolvedIps
  original : s.original = url
  rebuilt : s.url = normalize parts s.scheme s.host s.port

section Validate

variable {policy : UrlSafetyPolicy} {unicode : UnicodeData} {resolve : Resolver} {url : Text}
variable {parts : SplitResult} {s : SafeUrl}

theorem passes_of_validateParts (filled : strip isSpace url ≠ [])
    (printable : ∀ c ∈ strip isSpace url, ¬(c = '\r' ∨ c = '\n' ∨ c = '\t' ∨ c = '\x00'))
    (split : Urllib.urlsplit unicode (strip isSpace url) = .ok parts)
    (h : policy.validateParts unicode resolve url parts = .ok s) :
    Passes policy unicode resolve url parts s := by
  rw [validateParts] at h
  split at h
  · cases h
  · next allowed =>
    split at h
    · cases h
    · next anonymous =>
      obtain ⟨host, hhost, h⟩ := bind_eq_ok.mp h
      obtain ⟨port, hport, h⟩ := bind_eq_ok.mp h
      obtain ⟨⟨⟩, names, h⟩ := bind_eq_ok.mp h
      obtain ⟨resolved, addresses, h⟩ := bind_eq_ok.mp h
      cases h
      rw [not_or, not_ne_iff, not_ne_iff] at anonymous
      exact {
        filled, printable, split, names, addresses
        scheme := rfl
        allowed := by simpa using allowed
        username := anonymous.1
        password := anonymous.2
        host := hhost
        port := hport
        original := rfl
        rebuilt := rfl }

theorem validate_eq_ok : policy.validate unicode resolve url = .ok s ↔
      ∃ parts, Passes policy unicode resolve url parts s := by
  rw [validate]
  constructor
  · intro h
    split at h
    · cases h
    · next filled =>
      split at h
      · cases h
      · next printable =>
        split at h
        · cases h
        · next parts split =>
          refine ⟨parts, passes_of_validateParts filled ?_ split h⟩
          simpa using printable
  · rintro ⟨parts, h⟩
    have printable : ((strip isSpace url).any fun c =>
        c = '\r' ∨ c = '\n' ∨ c = '\t' ∨ c = '\x00') = false := by
      simpa using h.printable
    rw [if_neg h.filled, printable, h.split]
    simp only [Bool.false_eq_true, if_false]
    have allowed : policy.schemes.contains s.scheme = true := List.contains_iff_mem.mpr h.allowed
    rw [validateParts, ← h.scheme, allowed, h.username, h.password, h.host]
    simp only [Bool.not_true, Bool.false_eq_true, ne_eq, not_true_eq_false, or_self, if_false]
    have whole : s = ⟨url, normalize parts s.scheme s.host s.port, s.scheme, s.host, s.port,
        s.resolvedIps⟩ := by
      rw [← h.rebuilt, ← h.original]
    refine bind_eq_ok.mpr ⟨s.host, rfl, bind_eq_ok.mpr ⟨s.port, h.port, ?_⟩⟩
    refine bind_eq_ok.mpr ⟨(), h.names, bind_eq_ok.mpr ⟨s.resolvedIps, h.addresses, ?_⟩⟩
    rw [← whole]
    rfl

end Validate

/-- The characters that mean something to a network location, or that no URL
may have. -/
def breaksHost (c : Char) : Bool :=
  "/?#@:[]\t\r\n\x00".toList.contains c

/-- The host can be written into a URL as it is. -/
structure StandsAlone (host : Text) : Prop where
  plain : ∀ c ∈ host, breaksHost c = false
  undotted : host.getLast? ≠ some '.'

/-- What follows the first slash of the rebuilt URL: the rest of the path, and the
query. -/
def tailOf (parts : SplitResult) : Text := parts.path.tail ++ Urllib.queryText parts.query

/-- The guard's reading of the host can stand in the rebuilt URL, and what is kept
of the URL does not end in a blank. -/
structure Rebuilds (unicode : UnicodeData) (url : Text) : Prop where
  host : ∀ parts host, Urllib.urlsplit unicode (strip isSpace url) = .ok parts →
    extractHost unicode url (parts.hostname unicode) = .ok host → StandsAlone host
  tail : ∀ parts c, Urllib.urlsplit unicode (strip isSpace url) = .ok parts →
    (tailOf parts).getLast? = some c → isSpace c = false

/-- What the guard promises of a URL it hands on. -/
structure Faithful (unicode : UnicodeData) (resolve : Resolver) (s : SafeUrl) : Prop where
  parsed : ∃ parts, Urllib.urlsplit unicode s.url = .ok parts ∧ parts.scheme = s.scheme ∧
    parts.hostname unicode = some s.host ∧
    (∃ explicit, parts.port unicode = .ok explicit ∧
      (explicit <|> defaultPortForScheme s.scheme) = some s.port) ∧
    parts.username = none ∧ parts.password = none
  external : IsExternal (rstrip (· = '.') s.host)
  addresses : s.resolvedIps ≠ [] ∧ ∀ address ∈ s.resolvedIps, describeIpBlock unicode address = none
  again : ∃ s', ({} : UrlSafetyPolicy).validate unicode resolve s.url = .ok s' ∧
    s'.url = s.url ∧ s'.scheme = s.scheme ∧ s'.host = s.host ∧ s'.port = s.port

def netlocOf (s : SafeUrl) : Text :=
  if some s.port = defaultPortForScheme s.scheme then s.host else s.host ++ ':' :: ofNat s.port

section Facts

variable {unicode : UnicodeData} {resolve : Resolver} {url : Text} {parts : SplitResult}
variable {s : SafeUrl}

theorem Passes.web (h : Passes {} unicode resolve url parts s) : Urllib.IsWebScheme s.scheme := by
  have allowed : s.scheme ∈ ["http", "https"].map String.toList := h.allowed
  simpa [Urllib.IsWebScheme] using allowed

theorem Passes.port_mem (h : Passes {} unicode resolve url parts s) :
    s.port ∈ [80, 443, 8080, 8443] := (extractPort_eq_ok.mp h.port).2

theorem Passes.hostname (h : Passes {} unicode resolve url parts s) :
    ∃ hostname, parts.hostname unicode = some hostname ∧
      extractHost unicode url (some hostname) = .ok s.host := by
  have hhost := h.host
  cases found : parts.hostname unicode with
  | none =>
    rw [found, extractHost, Option.getD_none, if_pos (Or.inl rfl)] at hhost
    cases hhost
  | some hostname =>
    rw [found] at hhost
    exact ⟨hostname, rfl, hhost⟩

theorem Passes.host_lower (lawful : unicode.Lawful) (h : Passes {} unicode resolve url parts s) :
    s.host ≠ [] ∧ isAscii s.host = true ∧ ∀ c ∈ s.host, c.toLower = c := by
  obtain ⟨hostname, -, hhost⟩ := h.hostname
  obtain ⟨-, filled, ⟨ascii, same⟩ | ⟨-, encoded⟩⟩ := extractHost_eq_ok.mp hhost
  · rw [← same]
    exact ⟨filled, ascii, fun c mem => lawful.lowered hostname c (mem_of_mem_rstrip mem)⟩
  · refine lawful.idna _ _ filled (fun c mem => ?_) encoded
    exact lawful.lowered hostname c (mem_of_mem_rstrip mem)

theorem Passes.rooted (h : Passes {} unicode resolve url parts s) :
    parts.path = [] ∨ parts.path.head? = some '/' := by
  refine (Urllib.splitsFrom_of_urlsplit h.split).rooted fun empty => ?_
  obtain ⟨hostname, found, -⟩ := h.hostname
  have inside := (SplitResult.hostinfo_fst (SplitResult.username_eq_none.mp h.username)).1
  rw [SplitResult.hostname] at found
  split at found
  · cases found
  · next filled =>
    refine filled (List.eq_nil_iff_forall_not_mem.mpr fun c mem => ?_)
    have inside := inside c mem
    rw [empty] at inside
    cases inside

theorem Passes.url_eq (h : Passes {} unicode resolve url parts s) :
    s.url = s.scheme ++ ':' :: '/' :: '/' :: (netlocOf s ++ '/' :: tailOf parts) := by
  have rooted : (if parts.path = [] then ['/'] else parts.path) = '/' :: parts.path.tail := by
    obtain empty | slash := h.rooted
    · rw [empty]
      rfl
    · obtain ⟨tail, whole⟩ := List.head?_eq_some_iff.mp slash
      rw [whole]
      rfl
  rw [h.rebuilt, normalize, rooted, ← netlocOf, Urllib.urlunsplit_web h.web rfl,
    Urllib.rebuilt, tailOf, List.cons_append]

theorem eq_of_toLower_breaksHost {c d : Char} (breaks : breaksHost c = true)
    (lowered : d.toLower = c) : d = c := by
  by_cases capital : d.val ≥ 'A'.val ∧ d.val ≤ 'Z'.val
  · have harmless : breaksHost d.toLower = false :=
      of_capital (P := fun d => breaksHost d.toLower = false) capital (by decide)
    rw [lowered, breaks] at harmless
    cases harmless
  · rw [← lowered, toLower_of_not_capital capital]

variable {c : Char} {found : SplitResult}

theorem Passes.mem_netlocOf (h : Passes {} unicode resolve url parts s)
    (mem : c ∈ netlocOf s) : c ∈ s.host ∨ c = ':' ∨ isAsciiDigit c = true := by
  have digits : ∀ port ∈ [80, 443, 8080, 8443], ∀ c ∈ ofNat port, isAsciiDigit c = true := by
    have digits : [80, 443, 8080, 8443].all fun port => (ofNat port).all isAsciiDigit := by
      decide
    simpa only [List.all_eq_true] using digits
  rw [netlocOf] at mem
  split at mem
  · exact Or.inl mem
  · rw [List.mem_append, List.mem_cons] at mem
    exact mem.imp_right fun mem => mem.imp_right fun mem => digits s.port h.port_mem c mem

theorem Passes.isAscii_netlocOf (lawful : unicode.Lawful)
    (h : Passes {} unicode resolve url parts s) : isAscii (netlocOf s) = true := by
  obtain ⟨-, ascii, -⟩ := h.host_lower lawful
  refine List.all_eq_true.mpr fun c mem => ?_
  obtain mem | rfl | digit := h.mem_netlocOf mem
  · exact List.all_eq_true.mp ascii c mem
  · rfl
  · rw [isAsciiDigit, Bool.and_eq_true] at digit
    simp at digit ⊢
    omega

theorem plain_iff : breaksHost c = false ↔
    Urllib.isUnsafeUrlByte c = false ∧ Urllib.isNetlocChar c = true ∧ c ≠ '@' ∧ c ≠ ':' ∧
      c ≠ '[' ∧ c ≠ ']' ∧ c ≠ '\x00' := by
  simp [breaksHost, Urllib.isUnsafeUrlByte, Urllib.isNetlocChar]
  tauto

theorem plain_of_digit (digit : isAsciiDigit c = true) : breaksHost c = false := by
  have digits : ∀ n ∈ List.range 10, breaksHost (Char.ofNat (48 + n)) = false := by decide
  rw [isAsciiDigit, Bool.and_eq_true, decide_eq_true_iff, decide_eq_true_iff] at digit
  have plain := digits (c.toNat - 48) (List.mem_range.mpr (by omega))
  rwa [Nat.add_sub_cancel' digit.1, Char.ofNat_toNat] at plain

theorem Passes.netlocOf_plain (h : Passes {} unicode resolve url parts s)
    (plain : ∀ c ∈ s.host, breaksHost c = false) (mem : c ∈ netlocOf s) :
    Urllib.isUnsafeUrlByte c = false ∧ Urllib.isNetlocChar c = true ∧ c ≠ '@' ∧ c ≠ '[' ∧
      c ≠ ']' ∧ c ≠ '\x00' := by
  obtain mem | rfl | digit := h.mem_netlocOf mem
  · obtain ⟨safe, inside, at_, -, opens, closes, null⟩ := plain_iff.mp (plain c mem)
    exact ⟨safe, inside, at_, opens, closes, null⟩
  · decide
  · obtain ⟨safe, inside, at_, -, opens, closes, null⟩ := plain_iff.mp (plain_of_digit digit)
    exact ⟨safe, inside, at_, opens, closes, null⟩

theorem Passes.split_url (lawful : unicode.Lawful) (h : Passes {} unicode resolve url parts s)
    (plain : ∀ c ∈ s.host, breaksHost c = false) :
    Urllib.urlsplit unicode s.url =
      .ok ⟨s.scheme, netlocOf s, '/' :: parts.path.tail, parts.query, []⟩ := by
  have source := Urllib.splitsFrom_of_urlsplit h.split
  have brackets : Urllib.checkBrackets unicode (netlocOf s) = .ok () := by
    have opens : '[' ∉ netlocOf s := fun mem => (h.netlocOf_plain plain mem).2.2.2.1 rfl
    have closes : ']' ∉ netlocOf s := fun mem => (h.netlocOf_plain plain mem).2.2.2.2.1 rfl
    simp [Urllib.checkBrackets, opens, closes, partition_of_notMem opens]
  have nfkc : Urllib.checkNetloc unicode (netlocOf s) = .ok () := by
    simp [Urllib.checkNetloc, h.isAscii_netlocOf lawful]
  have path_chars : ∀ c ∈ '/' :: parts.path.tail,
      Urllib.isUnsafeUrlByte c = false ∧ c ≠ '?' ∧ c ≠ '#' := by
    intro c mem
    obtain rfl | mem := List.mem_cons.mp mem
    · decide
    · exact (source.path c (List.mem_of_mem_tail mem)).2
  have netloc_chars : ∀ c ∈ netlocOf s,
      Urllib.isUnsafeUrlByte c = false ∧ Urllib.isNetlocChar c = true := fun c mem =>
    ⟨(h.netlocOf_plain plain mem).1, (h.netlocOf_plain plain mem).2.1⟩
  have url_eq : s.url =
      Urllib.rebuilt s.scheme (netlocOf s) ('/' :: parts.path.tail) parts.query := by
    rw [h.url_eq, tailOf, Urllib.rebuilt, List.cons_append]
  rw [url_eq]
  exact Urllib.urlsplit_rebuilt h.web netloc_chars rfl path_chars
    (fun c mem => (source.query c mem).2) brackets nfkc

theorem Passes.located (h : Passes {} unicode resolve url parts s)
    (plain : ∀ c ∈ s.host, breaksHost c = false) (netloc : found.netloc = netlocOf s) :
    found.hostinfo = (s.host,
      if some s.port = defaultPortForScheme s.scheme then none else some (ofNat s.port)) := by
  have at_ : '@' ∉ netlocOf s := fun mem => (h.netlocOf_plain plain mem).2.2.1 rfl
  have opens : '[' ∉ netlocOf s := fun mem => (h.netlocOf_plain plain mem).2.2.2.1 rfl
  have colon : ':' ∉ s.host := fun mem => (plain_iff.mp (plain _ mem)).2.2.2.1 rfl
  have filled : ∀ port ∈ [80, 443, 8080, 8443], ofNat port ≠ [] := by decide
  rw [netlocOf] at netloc at_ opens
  split at netloc
  · next default =>
    rw [if_pos default] at at_ opens ⊢
    exact SplitResult.hostinfo_of_host netloc at_ opens colon
  · next other =>
    rw [if_neg other] at at_ opens ⊢
    exact SplitResult.hostinfo_of_port netloc at_ opens colon (filled s.port h.port_mem)

theorem Passes.port_found (h : Passes {} unicode resolve url parts s)
    (plain : ∀ c ∈ s.host, breaksHost c = false) (netloc : found.netloc = netlocOf s) :
    ∃ explicit, found.port unicode = .ok explicit ∧
      (explicit <|> defaultPortForScheme s.scheme) = some s.port := by
  have digits : ∀ port ∈ [80, 443, 8080, 8443], (ofNat port).all isAsciiDigit = true ∧
      decimal (ofNat port) = port ∧ port ≤ 65535 := by
    decide
  obtain ⟨all, value, small⟩ := digits s.port h.port_mem
  rw [SplitResult.port, h.located plain netloc]
  by_cases default : some s.port = defaultPortForScheme s.scheme
  · rw [if_pos default]
    exact ⟨none, rfl, default.symm⟩
  · rw [if_neg default]
    refine ⟨some s.port, ?_, rfl⟩
    dsimp only
    rw [if_neg (not_not.mpr all), value, if_neg (Nat.not_lt.mpr small)]

theorem Passes.parsed (lawful : unicode.Lawful) (h : Passes {} unicode resolve url parts s)
    (plain : ∀ c ∈ s.host, breaksHost c = false) (netloc : found.netloc = netlocOf s) :
    found.hostname unicode = some s.host ∧ found.username = none ∧ found.password = none := by
  obtain ⟨filled, ascii, lowered⟩ := h.host_lower lawful
  have at_ : '@' ∉ found.netloc := by
    rw [netloc]
    exact fun mem => (h.netlocOf_plain plain mem).2.2.1 rfl
  refine ⟨?_, SplitResult.username_eq_none.mpr at_, SplitResult.password_eq_none at_⟩
  exact SplitResult.hostname_eq_some lawful (by rw [h.located plain netloc]) filled ascii lowered

theorem Passes.extractHost_again (lawful : unicode.Lawful)
    (h : Passes {} unicode resolve url parts s) (alone : StandsAlone s.host) :
    extractHost unicode s.url (some s.host) = .ok s.host := by
  obtain ⟨filled, ascii, lowered⟩ := h.host_lower lawful
  have same : rstrip (· = '.') (unicode.lower s.host) = s.host := by
    rw [lawful.lower_eq_self ascii lowered]
    refine rstrip_eq_self fun c last => decide_eq_false ?_
    rintro rfl
    exact alone.undotted last
  rw [extractHost_eq_ok, same]
  exact ⟨filled, filled, Or.inl ⟨ascii, rfl⟩⟩

theorem Passes.printable_url (h : Passes {} unicode resolve url parts s)
    (plain : ∀ c ∈ s.host, breaksHost c = false) :
    ∀ c ∈ s.url, ¬(c = '\r' ∨ c = '\n' ∨ c = '\t' ∨ c = '\x00') := by
  have source := Urllib.splitsFrom_of_urlsplit h.split
  have web : ∀ c ∈ s.scheme, ¬(c = '\r' ∨ c = '\n' ∨ c = '\t' ∨ c = '\x00') := by
    obtain web | web := h.web <;> rw [web] <;> simp
  intro c mem
  rw [h.url_eq, tailOf] at mem
  simp only [List.mem_append, List.mem_cons] at mem
  obtain mem | rfl | rfl | rfl | mem | rfl | mem | mem := mem
  · exact web c mem
  · decide
  · decide
  · decide
  · obtain ⟨safe, -, -, -, -, null⟩ := h.netlocOf_plain plain mem
    rintro (rfl | rfl | rfl | rfl)
    · cases safe
    · cases safe
    · cases safe
    · exact null rfl
  · decide
  · exact h.printable c (source.path c (List.mem_of_mem_tail mem)).1
  · rw [Urllib.queryText] at mem
    split at mem
    · cases mem
    · obtain rfl | mem := List.mem_cons.mp mem
      · decide
      · exact h.printable c (source.query c mem).1

theorem Passes.again (lawful : unicode.Lawful) (h : Passes {} unicode resolve url parts s)
    (alone : StandsAlone s.host) (kept : strip isSpace s.url = s.url) :
    Passes {} unicode resolve s.url ⟨s.scheme, netlocOf s, '/' :: parts.path.tail, parts.query, []⟩
      { s with original := s.url } where
  filled := by
    rw [kept, h.url_eq]
    obtain web | web := h.web <;> rw [web] <;> exact List.cons_ne_nil _ _
  printable := by
    rw [kept]
    exact h.printable_url alone.plain
  split := by rw [kept, h.split_url lawful alone.plain]
  scheme := by
    refine (lawful.lower_eq_self ?_ ?_).symm
    · obtain web | web := h.web <;> rw [web] <;> rfl
    · obtain web | web := h.web <;> rw [web] <;> simp
  allowed := h.allowed
  username := (h.parsed lawful alone.plain rfl).2.1
  password := (h.parsed lawful alone.plain rfl).2.2
  host := by
    rw [(h.parsed lawful alone.plain rfl).1]
    exact h.extractHost_again lawful alone
  port := extractPort_eq_ok.mpr ⟨h.port_found alone.plain rfl, (extractPort_eq_ok.mp h.port).2⟩
  names := (rejectInternalNames_eq_ok rfl).mpr ((rejectInternalNames_eq_ok rfl).mp h.names)
  addresses := (validateAddresses_eq_ok rfl).mpr ((validateAddresses_eq_ok rfl).mp h.addresses)
  original := rfl
  rebuilt := by
    rw [normalize, if_neg (List.cons_ne_nil _ _), ← netlocOf, Urllib.urlunsplit_web h.web rfl,
      Urllib.rebuilt, List.cons_append, h.url_eq, tailOf]
    rfl

theorem Passes.strip_url (h : Passes {} unicode resolve url parts s) :
    strip isSpace s.url = s.scheme ++ ':' :: '/' :: '/' ::
      (netlocOf s ++ '/' :: rstrip isSpace (tailOf parts)) := by
  have kept : lstrip isSpace s.url = s.url := by
    rw [h.url_eq]
    obtain web | web := h.web <;> rw [web] <;> rfl
  have whole : s.url = (s.scheme ++ ':' :: '/' :: '/' :: netlocOf s) ++ '/' :: tailOf parts := by
    rw [h.url_eq, List.append_assoc, List.cons_append, List.cons_append, List.cons_append]
  rw [strip, kept, whole, rstrip_append_cons rfl, List.append_assoc, List.cons_append,
    List.cons_append, List.cons_append]

theorem Passes.faithful (lawful : unicode.Lawful) (h : Passes {} unicode resolve url parts s)
    (alone : StandsAlone s.host)
    (tail : ∀ c, (tailOf parts).getLast? = some c → isSpace c = false) :
    Faithful unicode resolve s := by
  have kept : strip isSpace s.url = s.url := by
    rw [h.strip_url, rstrip_eq_self tail, ← h.url_eq]
  obtain ⟨-, addresses⟩ := (validateAddresses_eq_ok rfl).mp h.addresses
  have undotted : rstrip (· = '.') s.host = s.host := by
    refine rstrip_eq_self fun c last => decide_eq_false ?_
    rintro rfl
    exact alone.undotted last
  refine ⟨⟨_, h.split_url lawful alone.plain, rfl, (h.parsed lawful alone.plain rfl).1,
    h.port_found alone.plain rfl, (h.parsed lawful alone.plain rfl).2⟩, ?_, addresses, ?_⟩
  · rw [undotted]
    exact (rejectInternalNames_eq_ok rfl).mp h.names
  · exact ⟨_, validate_eq_ok.mpr ⟨_, h.again lawful alone kept⟩, rfl, rfl, rfl, rfl⟩

theorem Passes.mem_host (h : Passes {} unicode resolve url parts s)
    (mem : c ∈ netlocOf s) (breaks : breaksHost c = true) (colon : c ≠ ':') : c ∈ s.host := by
  obtain mem | rfl | digit := h.mem_netlocOf mem
  · exact mem
  · exact absurd rfl colon
  · rw [plain_of_digit digit] at breaks
    cases breaks

theorem Passes.plain_of_parsed (lawful : unicode.Lawful)
    (h : Passes {} unicode resolve url parts s)
    (split : Urllib.urlsplit unicode s.url = .ok found)
    (hostname : found.hostname unicode = some s.host) (username : found.username = none)
    (mem : c ∈ s.host) (breaks : breaksHost c = true) : c = '\x00' := by
  have url_eq := h.url_eq
  rw [url_eq] at split
  obtain ⟨netloc, brackets⟩ := Urllib.netloc_of_urlsplit h.web split
  have at_ : '@' ∉ found.netloc := SplitResult.username_eq_none.mp username
  obtain ⟨inside, closing, colon⟩ := SplitResult.hostinfo_fst at_
  have written : ∀ d ∈ found.netloc, d ∈ netlocOf s ∧ Urllib.isUnsafeUrlByte d = false ∧
      Urllib.isNetlocChar d = true := by
    intro d hd
    rw [netloc] at hd
    have filtered := (List.takeWhile_sublist _).subset hd
    rw [Urllib.withoutUnsafe, List.mem_filter] at filtered
    exact ⟨filtered.1, by simpa using filtered.2, List.mem_takeWhile_imp hd⟩
  have ascii : isAscii found.hostinfo.1 = true := List.all_eq_true.mpr fun d hd =>
    List.all_eq_true.mp (h.isAscii_netlocOf lawful) d (written d (inside d hd)).1
  have read : ∀ d ∈ s.host, breaksHost d = true → d ∈ found.hostinfo.1 := fun d hd hbreaks =>
    SplitResult.mem_hostinfo_of_mem_hostname lawful ascii hostname hd fun e lowered =>
      eq_of_toLower_breaksHost hbreaks lowered
  -- A closing bracket is not read as part of a host that begins with an opening one.
  have closes : ']' ∉ s.host := by
    intro mem
    have hread := read _ mem rfl
    have opens : '[' ∉ found.netloc := fun opens => closing opens hread
    simp [Urllib.checkBrackets, opens, inside _ hread] at brackets
  have opens : '[' ∉ s.host := by
    intro mem
    have opens := inside _ (read _ mem rfl)
    by_cases shut : ']' ∈ found.netloc
    · exact closes (h.mem_host (written _ shut).1 rfl (by decide))
    · simp [Urllib.checkBrackets, opens, shut] at brackets
  have hread := read c mem breaks
  obtain ⟨-, safe, part⟩ := written c (inside c hread)
  by_contra null
  rw [← Bool.not_eq_false, plain_iff] at breaks
  refine breaks ⟨safe, part, ?_, ?_, ?_, ?_, null⟩
  · rintro rfl
    exact at_ (inside _ hread)
  · rintro rfl
    refine colon (fun bracket => opens ?_) hread
    exact h.mem_host (written _ bracket).1 rfl (by decide)
  · rintro rfl
    exact opens mem
  · rintro rfl
    exact closes mem

theorem Passes.safe_tail (h : Passes {} unicode resolve url parts s) :
    ∀ c ∈ tailOf parts, Urllib.isUnsafeUrlByte c = false := by
  have source := Urllib.splitsFrom_of_urlsplit h.split
  intro c mem
  rw [tailOf, List.mem_append, Urllib.queryText] at mem
  obtain mem | mem := mem
  · exact (source.path c (List.mem_of_mem_tail mem)).2.1
  · split at mem
    · cases mem
    · obtain rfl | mem := List.mem_cons.mp mem
      · rfl
      · exact (source.query c mem).2.1

theorem Passes.plain_of_faithful (lawful : unicode.Lawful)
    (h : Passes {} unicode resolve url parts s) (faithful : Faithful unicode resolve s) :
    ∀ c ∈ s.host, breaksHost c = false := by
  obtain ⟨found, split, -, hostname, -, username, -⟩ := faithful.parsed
  intro c mem
  by_contra breaks
  rw [Bool.not_eq_false] at breaks
  obtain rfl := h.plain_of_parsed lawful split hostname username mem breaks
  -- A null byte is found again, but the guard does not let it pass.
  obtain ⟨s', again, -⟩ := faithful.again
  obtain ⟨parts', h'⟩ := validate_eq_ok.mp again
  have written : '\x00' ∈ netlocOf s := by
    rw [netlocOf]
    split
    · exact mem
    · exact List.mem_append_left _ mem
  have inside : '\x00' ∈ s.url := by
    rw [h.url_eq]
    simp [written]
  exact h'.printable '\x00' (mem_strip inside rfl) (Or.inr (Or.inr (Or.inr rfl)))

theorem Passes.standsAlone (lawful : unicode.Lawful)
    (h : Passes {} unicode resolve url parts s) (faithful : Faithful unicode resolve s) :
    StandsAlone s.host := by
  have plain := h.plain_of_faithful lawful faithful
  refine ⟨plain, fun dotted => ?_⟩
  obtain ⟨-, ascii, lowered⟩ := h.host_lower lawful
  obtain ⟨s', again, -, -, host, -⟩ := faithful.again
  obtain ⟨parts', h'⟩ := validate_eq_ok.mp again
  have split := h'.split
  rw [h.strip_url] at split
  have netloc : parts'.netloc = netlocOf s := by
    rw [(Urllib.netloc_of_urlsplit h.web split).1,
      Urllib.withoutUnsafe_eq_self fun c mem => (h.netlocOf_plain plain mem).1,
      List.takeWhile_eq_self_iff]
    exact fun c mem => (h.netlocOf_plain plain mem).2.1
  have hhost := h'.host
  rw [(h.parsed lawful plain netloc).1, extractHost_eq_ok, lawful.lower_eq_self ascii lowered,
    host] at hhost
  obtain ⟨-, -, ⟨-, same⟩ | ⟨unicode, -⟩⟩ := hhost
  · rw [← same] at dotted
    cases getLast?_rstrip dotted
  · refine Bool.eq_false_iff.mp unicode (List.all_eq_true.mpr fun c mem => ?_)
    exact List.all_eq_true.mp ascii c (mem_of_mem_rstrip mem)

theorem Passes.tail_of_faithful (lawful : unicode.Lawful)
    (h : Passes {} unicode resolve url parts s) (faithful : Faithful unicode resolve s)
    (last : (tailOf parts).getLast? = some c) : isSpace c = false := by
  have plain := h.plain_of_faithful lawful faithful
  obtain ⟨s', again, same, scheme, host, port⟩ := faithful.again
  obtain ⟨parts', h'⟩ := validate_eq_ok.mp again
  have split := h'.split
  rw [h.strip_url] at split
  obtain ⟨path, query⟩ := Urllib.tail_of_urlsplit h.web
    (fun c mem => ⟨(h.netlocOf_plain plain mem).1, (h.netlocOf_plain plain mem).2.1⟩)
    (fun c mem => h.safe_tail c (mem_of_mem_rstrip mem)) split
  have netloc : netlocOf s' = netlocOf s := by
    rw [netlocOf, netlocOf, scheme, host, port]
  have tails : tailOf parts' = tailOf parts := by
    have url_eq := h'.url_eq
    rw [same, h.url_eq, scheme, netloc] at url_eq
    simpa using url_eq.symm
  -- What the second pass keeps of the tail is a part of what the first strip left.
  have kept : tailOf parts <+: rstrip isSpace (tailOf parts) := by
    have cut := Urllib.pathOf_append_queryText_prefix ('/' :: rstrip isSpace (tailOf parts))
    have slash : parts'.path = '/' :: Urllib.pathOf (rstrip isSpace (tailOf parts)) := path
    rw [← path, ← query, slash, List.cons_append, List.cons_prefix_cons] at cut
    have shorter : tailOf parts' <+: rstrip isSpace (tailOf parts) := by
      rw [tailOf, slash, List.tail_cons]
      exact cut.2
    rwa [tails] at shorter
  have whole : rstrip isSpace (tailOf parts) = tailOf parts :=
    (List.rdropWhile_prefix _ _).eq_of_length_le kept.length_le
  rw [← whole] at last
  exact getLast?_rstrip last

end Facts

/-- **When what was checked is what is fetched.** For every text and every
resolver, each URL the default policy hands on is split into the scheme, host and
port that were checked, names nothing internal, resolved to public addresses and
passes the policy again unchanged, exactly when the host can stand in the rebuilt
URL as it is and what follows it does not end in a blank. -/
theorem faithful_iff_rebuilds {unicode : UnicodeData} (lawful : unicode.Lawful)
    (resolve : Resolver) (url : Text) :
    (∀ s, ({} : UrlSafetyPolicy).validate unicode resolve url = .ok s →
        Faithful unicode resolve s) ↔
      ∀ s, ({} : UrlSafetyPolicy).validate unicode resolve url = .ok s → Rebuilds unicode url := by
  refine forall_congr' fun s => imp_congr_right fun hvalid => ?_
  obtain ⟨parts, h⟩ := validate_eq_ok.mp hvalid
  constructor
  · intro faithful
    constructor
    · intro parts' host split hhost
      obtain rfl := Except.ok.inj (split.symm.trans h.split)
      obtain rfl := Except.ok.inj (hhost.symm.trans h.host)
      exact h.standsAlone lawful faithful
    · intro parts' c split last
      obtain rfl := Except.ok.inj (split.symm.trans h.split)
      exact h.tail_of_faithful lawful faithful last
  · intro rebuilds
    exact h.faithful lawful (rebuilds.host parts s.host h.split h.host)
      fun c last => rebuilds.tail parts c h.split last

section Sample

/-- The Unicode database on ASCII text, which the codec is never asked about. -/
def asciiData : UnicodeData where
  lower := fun s => s.map Char.toLower
  nfkc := fun s => s
  idna := fun _ => .error "not ASCII".toList
  repr := fun s => '\'' :: s ++ ['\'']

theorem asciiData_lawful : asciiData.Lawful where
  lower_ascii := fun _ _ => rfl
  lowered := fun s c mem => by
    obtain ⟨d, -, rfl⟩ := List.mem_map.mp mem
    exact toLower_toLower d
  idna := fun s t _ _ h => by cases h

def publicResolver : Resolver := fun _ => .ok ["8.8.8.8".toList]

/-- A URL that is rebuilt as it should be. -/
theorem faithful_sample : ∃ s, ({} : UrlSafetyPolicy).validate asciiData publicResolver
        "HTTPS://Example.com:443?a#b".toList = .ok s ∧
      s.url = "https://example.com/?a".toList ∧ Faithful asciiData publicResolver s := by
  have split : Urllib.urlsplit asciiData
      (strip isSpace "HTTPS://Example.com:443?a#b".toList) =
        .ok ⟨"https".toList, "Example.com:443".toList, [], "a".toList, "b".toList⟩ := by
    decide
  have valid : ({} : UrlSafetyPolicy).validate asciiData publicResolver
      "HTTPS://Example.com:443?a#b".toList =
        .ok ⟨"HTTPS://Example.com:443?a#b".toList, "https://example.com/?a".toList,
          "https".toList, "example.com".toList, 443, ["8.8.8.8".toList]⟩ := by
    decide
  refine ⟨_, valid, rfl, ?_⟩
  refine (faithful_iff_rebuilds asciiData_lawful publicResolver _).mpr (fun s _ => ?_) _ valid
  constructor
  · intro parts host hsplit hhost
    obtain rfl := Except.ok.inj (split.symm.trans hsplit)
    have read : extractHost asciiData "HTTPS://Example.com:443?a#b".toList
        (some "example.com".toList) = .ok "example.com".toList := by
      decide
    obtain rfl := Except.ok.inj (read.symm.trans hhost)
    have plain : "example.com".toList.all fun c => !breaksHost c := by decide
    exact ⟨by simpa using plain, by decide⟩
  · intro parts c hsplit last
    obtain rfl := Except.ok.inj (split.symm.trans hsplit)
    obtain rfl := Option.some.inj last
    rfl

/-- A literal IPv6 host loses its brackets, and a URL that was cut at its fragment
is stripped of the blank before it the second time. -/
theorem rebuilds_another_url : ¬(∀ s, ({} : UrlSafetyPolicy).validate asciiData publicResolver
        "http://[2606:4700::1111]/".toList = .ok s → Faithful asciiData publicResolver s) ∧
      ¬(∀ s, ({} : UrlSafetyPolicy).validate asciiData publicResolver
        "http://a.io/ #x".toList = .ok s → Faithful asciiData publicResolver s) := by
  constructor
  · intro all
    have valid : ({} : UrlSafetyPolicy).validate asciiData publicResolver
        "http://[2606:4700::1111]/".toList =
          .ok ⟨"http://[2606:4700::1111]/".toList, "http://2606:4700::1111/".toList,
            "http".toList, "2606:4700::1111".toList, 80, ["2606:4700::1111".toList]⟩ := by
      decide
    obtain ⟨parts, split, -, hostname, -⟩ := (all _ valid).parsed
    have found : Urllib.urlsplit asciiData "http://2606:4700::1111/".toList =
        .ok ⟨"http".toList, "2606:4700::1111".toList, "/".toList, [], []⟩ := by
      decide
    obtain rfl := Except.ok.inj (found.symm.trans split)
    revert hostname
    decide
  · intro all
    have valid : ({} : UrlSafetyPolicy).validate asciiData publicResolver
        "http://a.io/ #x".toList =
          .ok ⟨"http://a.io/ #x".toList, "http://a.io/ ".toList, "http".toList, "a.io".toList, 80,
            ["8.8.8.8".toList]⟩ := by
      decide
    obtain ⟨s', again, same, -⟩ := (all _ valid).again
    have second : ({} : UrlSafetyPolicy).validate asciiData publicResolver
        "http://a.io/ ".toList =
          .ok ⟨"http://a.io/ ".toList, "http://a.io/".toList, "http".toList, "a.io".toList, 80,
            ["8.8.8.8".toList]⟩ := by
      decide
    obtain rfl := Except.ok.inj (second.symm.trans again)
    revert same
    decide

end Sample

end UrlSafetyPolicy

end Rankuno
