import Mathlib.Data.Char
import Mathlib.Data.List.Lex
import Mathlib.Data.List.Sort
import Rankuno.Python.Lower
import Rankuno.Python.Quote
import Rankuno.Python.UrlRebuild
import Rankuno.UrlKeys.Hosts

/-!
# The key of an address

`normalize_url` and what it rests on: escapes that carry no structural meaning
are decoded, segments are trimmed, tracking parameters are dropped and the rest
sorted, the `www.` label and the web scheme are folded. `UrlIdentity` folds the
path's case on top.

Whatever is done to the path and the query, the network location of a key is read
back from the key as it was put there, `rawNetloc`.
-/

namespace Rankuno.UrlKeys

open Python Python.Text Python.Urllib

/-- `TRACKING_PARAMS`. -/
def trackingParams : List Text :=
  ["gclid", "fbclid", "msclkid", "dclid", "gclsrc", "mc_cid", "mc_eid", "igshid", "ref", "referrer",
    "source", "qid", "sr", "th", "psc", "_ga", "_gl", "yclid", "twclid", "ttclid", "si", "trk",
    "sessionid", "session_id", "phpsessid", "jsessionid"].map String.toList

def trackingParamPrefixes : List Text :=
  ["utm_", "pf_rd_", "pd_rd_", "_encoding", "spm_", "hsa_", "vero_"].map String.toList

/-- `is_tracking_param`. -/
def isTrackingParam (unicode : UnicodeData) (name : Text) : Bool :=
  let lowered := unicode.lower name
  lowered ∈ trackingParams || trackingParamPrefixes.any fun lead => lead.isPrefixOf lowered

/-- `STRUCTURAL_ESCAPES`, as the two digits of each. -/
def structuralEscapes : List (Char × Char) :=
  [('2', 'F'), ('3', 'F'), ('2', '3'), ('2', '5'), ('5', 'C')]

/-- `str.upper` of a hexadecimal digit. -/
def upperDigit (c : Char) : Char :=
  if 97 ≤ c.toNat ∧ c.toNat ≤ 102 then Char.ofNat (c.toNat - 32) else c

/-- `_decode`: consecutive escapes are one UTF-8 sequence, or stay. -/
def decodeEscapes (escapes : List (Char × Char)) : Text :=
  let joined := escapes.flatMap fun escape => ['%', escape.1, escape.2]
  match Utf8.decode (unquoteToBytes joined) with
  | some decoded => decoded
  | none => escapes.flatMap fun escape => ['%', upperDigit escape.1, upperDigit escape.2]

/-- `decode_percent_escapes`, with the escapes read and not decoded yet. -/
def decodeRun (waiting : List (Char × Char)) : Text → Text
  | '%' :: a :: b :: s =>
    if (hexDigit? a).isSome && (hexDigit? b).isSome then
      if (upperDigit a, upperDigit b) ∈ structuralEscapes then
        decodeEscapes waiting ++ '%' :: upperDigit a :: upperDigit b :: decodeRun [] s
      else decodeRun (waiting ++ [(a, b)]) s
    else decodeEscapes waiting ++ '%' :: decodeRun [] (a :: b :: s)
  | c :: s => decodeEscapes waiting ++ c :: decodeRun [] s
  | [] => decodeEscapes waiting

/-- `decode_percent_escapes`. -/
def decodePercentEscapes (path : Text) : Text := decodeRun [] path

/-- `normalize_path`. -/
def normalizePath (path : Text) : Text :=
  let kept := ((split '/' (decodePercentEscapes path)).map (strip isSpace)).filter (· ≠ [])
  if kept = [] then ['/'] else '/' :: (join ['/'] kept ++ ['/'])

/-- `sorted` of pairs of texts. -/
def sortPairs (pairs : List (Text × Text)) : List (Text × Text) :=
  pairs.insertionSort fun a b => a.1 < b.1 ∨ a.1 = b.1 ∧ a.2 ≤ b.2

/-- The query without tracking parameters, in a stable order. -/
def queryKey (unicode : UnicodeData) (query : Text) : Text :=
  urlencode (sortPairs ((parseQsl query).filter fun pair => !isTrackingParam unicode pair.1))

/-- A path, or the root where there is none: `parts.path or "/"`. -/
def orRoot (path : Text) : Text := if path = [] then ['/'] else path

/-- `normalize_url`. -/
def normalizeUrl (unicode : UnicodeData) (url : Text) : Text :=
  match safeSplit unicode url with
  | none => strip isSpace url
  | some parts =>
    let scheme := lowerAscii parts.scheme
    urlunsplit {
      scheme :=
        if scheme = "http".toList ∨ scheme = "https".toList then "https".toList else scheme
      netloc := dropLeading www (unicode.lower parts.netloc)
      path := normalizePath (orRoot parts.path)
      query := queryKey unicode parts.query
      fragment := [] }

/-- `_fold_path`. -/
def foldPath (unicode : UnicodeData) (key : Text) : Text :=
  match safeSplit unicode key with
  | none => key
  | some parts => urlunsplit { parts with path := unicode.lower parts.path, fragment := [] }

/-- A scheme as `urlsplit` reads it. -/
def IsScheme (scheme : Text) : Prop :=
  scheme.head?.any isAsciiAlpha = true ∧ scheme.all isSchemeChar = true ∧ lowerAscii scheme = scheme

def schemeText (scheme : Text) : Text := if scheme = [] then [] else scheme ++ [':']

/-- The network location of a text, as it stands in it. -/
def rawNetloc (s : Text) : Text :=
  let rest := (splitScheme s).2
  if rest.take 2 = ['/', '/'] then (rest.drop 2).takeWhile isNetlocChar else []

/-- Parts that are found again in the text they are put together to. -/
structure Rooted (parts : SplitResult) : Prop where
  scheme : parts.scheme = [] ∨ IsScheme parts.scheme
  netloc : ∀ c ∈ parts.netloc, isUnsafeUrlByte c = false ∧ isNetlocChar c = true
  path : ∃ tail, parts.path = '/' :: tail
  fragment : parts.fragment = []

/-- Not even the removal of bytes makes a second slash the first of the path's
tail. -/
structure Settled (parts : SplitResult) : Prop extends Rooted parts where
  single : ∀ c tail, parts.path = '/' :: c :: tail → isUnsafeUrlByte c = false ∧ c ≠ '/'

section Schemes

variable {scheme rest : Text}

theorem IsScheme.colon (h : IsScheme scheme) : ':' ∉ scheme := fun mem =>
  absurd (List.all_eq_true.mp h.2.1 ':' mem) (by decide)

theorem splitScheme_of_isScheme (h : IsScheme scheme) (rest : Text) :
    splitScheme (scheme ++ ':' :: rest) = (scheme, rest) := by
  rw [splitScheme, partition_append_cons h.colon]
  simp only [h.1, h.2.1, h.2.2, Bool.and_self, if_true]

theorem splitScheme_slash (rest : Text) : splitScheme ('/' :: rest) = ([], '/' :: rest) := by
  have parts : partition ':' ('/' :: rest) =
      ('/' :: (partition ':' rest).1, (partition ':' rest).2) := if_neg (by decide)
  rw [splitScheme, parts]
  cases (partition ':' rest).2 with
  | none => rfl
  | some after => rfl

theorem splitScheme_schemeText (h : scheme = [] ∨ IsScheme scheme) (rest : Text) :
    splitScheme (schemeText scheme ++ '/' :: rest) = (scheme, '/' :: rest) := by
  obtain rfl | valid := h
  · exact splitScheme_slash rest
  · have filled : scheme ≠ [] := by
      rintro rfl
      exact absurd valid.1 (by decide)
    rw [schemeText, if_neg filled, List.append_assoc]
    exact splitScheme_of_isScheme valid ('/' :: rest)

theorem isScheme_of_splitScheme (s : Text) :
    (splitScheme s).1 = [] ∨ IsScheme (splitScheme s).1 := by
  rw [splitScheme]
  split
  · exact Or.inl rfl
  · split
    · next valid =>
      rw [Bool.and_eq_true] at valid
      refine Or.inr ⟨?_, ?_, lowerAscii_lowerAscii _⟩
      · rw [head?_lowerAscii]
        exact valid.1
      · rw [all_lowerAscii]
        exact valid.2
    · exact Or.inl rfl

/-- What `urlsplit` reads in a text. -/
def cleaned (url : Text) : Text := withoutUnsafe (lstrip isC0ControlOrSpace url)

/-- What follows the scheme and the network location of a text. -/
def rawTail (s : Text) : Text :=
  let rest := (splitScheme s).2
  if rest.take 2 = ['/', '/'] then (rest.drop 2).dropWhile isNetlocChar else rest

theorem urlsplit_eq (unicode : UnicodeData) (url : Text) : urlsplit unicode url = (do
      checkBrackets unicode (rawNetloc (cleaned url))
      checkNetloc unicode (rawNetloc (cleaned url))
      return {
        scheme := (splitScheme (cleaned url)).1
        netloc := rawNetloc (cleaned url)
        path := pathOf (rawTail (cleaned url))
        query := queryOf (rawTail (cleaned url))
        fragment := (partition '#' (rawTail (cleaned url))).2.getD [] }) := by
  rw [urlsplit, rawNetloc, rawTail, cleaned, withoutUnsafe]
  generalize (lstrip isC0ControlOrSpace url).filter (fun c => !isUnsafeUrlByte c) = clean
  generalize splitScheme clean = split
  obtain ⟨scheme, after⟩ := split
  dsimp only
  by_cases located : after.take 2 = ['/', '/']
  · rw [if_pos located, if_pos located, if_pos located, splitNetloc_eq]
    cases checkBrackets unicode ((after.drop 2).takeWhile isNetlocChar) with
    | error e => rfl
    | ok u => rfl
  · rw [if_neg located, if_neg located, if_neg located]
    rfl

theorem parts_of_urlsplit {unicode : UnicodeData} {url : Text} {parts : SplitResult}
    (h : urlsplit unicode url = .ok parts) :
    parts.scheme = (splitScheme (cleaned url)).1 ∧ parts.netloc = rawNetloc (cleaned url) ∧
      parts.path = pathOf (rawTail (cleaned url)) := by
  rw [urlsplit_eq] at h
  obtain ⟨-, -, h⟩ := bind_eq_ok.mp h
  obtain ⟨-, -, h⟩ := bind_eq_ok.mp h
  cases h
  exact ⟨rfl, rfl, rfl⟩

end Schemes

section Keys

variable {unicode : UnicodeData} {parts : SplitResult}

theorem Rooted.urlunsplit_eq (h : Rooted parts) : ∃ authority, urlunsplit parts =
        schemeText parts.scheme ++ (authority ++ (parts.path ++ queryText parts.query)) ∧
      (authority = '/' :: '/' :: parts.netloc ∨
        authority = [] ∧ parts.netloc = [] ∧ parts.path.take 2 ≠ ['/', '/']) := by
  obtain ⟨tail, rooted⟩ := h.path
  have slash : ¬(parts.path ≠ [] ∧ parts.path.head? ≠ some '/') := by
    rw [rooted]
    exact fun unrooted => unrooted.2 rfl
  have whole : ∀ body, (if parts.query ≠ [] then
      (if parts.scheme ≠ [] then parts.scheme ++ ':' :: body else body) ++ '?' :: parts.query
      else if parts.scheme ≠ [] then parts.scheme ++ ':' :: body else body) =
        schemeText parts.scheme ++ (body ++ queryText parts.query) := by
    intro body
    rw [schemeText, queryText]
    by_cases noScheme : parts.scheme = []
    · by_cases noQuery : parts.query = []
      · simp [noScheme, noQuery]
      · simp [noScheme, noQuery]
    · by_cases noQuery : parts.query = []
      · simp [noScheme, noQuery]
      · simp [noScheme, noQuery]
  have unfragmented : ¬parts.fragment ≠ [] := fun some => some h.fragment
  by_cases located : parts.netloc ≠ [] ∨ (parts.scheme ≠ [] ∧ parts.scheme ∈ usesNetloc) ∨
      parts.path.take 2 = ['/', '/']
  · refine ⟨'/' :: '/' :: parts.netloc, ?_, Or.inl rfl⟩
    rw [urlunsplit]
    simp only [if_pos located, if_neg slash, if_neg unfragmented]
    rw [whole, List.append_assoc, List.append_assoc]
    rfl
  · refine ⟨[], ?_, Or.inr ⟨rfl, ?_⟩⟩
    · rw [urlunsplit]
      simp only [if_neg located, if_neg unfragmented]
      rw [whole]
      rfl
    · rw [not_or, not_or, not_not] at located
      exact ⟨located.1, located.2.2⟩

theorem Rooted.rawNetloc_urlunsplit (h : Rooted parts) :
    rawNetloc (urlunsplit parts) = parts.netloc := by
  obtain ⟨authority, whole, located⟩ := h.urlunsplit_eq
  obtain ⟨tail, rooted⟩ := h.path
  rw [whole, rooted]
  obtain rfl | ⟨rfl, empty, single⟩ := located
  · have cut : (parts.netloc ++ ('/' :: tail ++ queryText parts.query)).takeWhile isNetlocChar =
        parts.netloc := by
      rw [List.cons_append, takeWhile_append_cons_of_neg rfl]
      exact List.takeWhile_eq_self_iff.mpr fun c mem => (h.netloc c mem).2
    rw [rawNetloc, List.cons_append, splitScheme_schemeText h.scheme]
    exact cut
  · have unlocated : ('/' :: tail ++ queryText parts.query).take 2 ≠ ['/', '/'] := by
      rw [rooted] at single
      cases tail with
      | nil =>
        rw [queryText]
        split
        · decide
        · rintro ⟨⟩
      | cons c tail => exact single
    rw [rawNetloc, List.nil_append, List.cons_append, splitScheme_schemeText h.scheme]
    exact (if_neg unlocated).trans empty.symm

theorem Rooted.first (h : Rooted parts) {authority : Text}
    (located : authority = '/' :: '/' :: parts.netloc ∨ authority = []) (tail : Text) :
    ∃ c rest, schemeText parts.scheme ++ (authority ++ '/' :: tail) = c :: rest ∧
      isSpace c = false ∧ isC0ControlOrSpace c = false := by
  obtain empty | valid := h.scheme
  · rw [schemeText, if_pos empty, List.nil_append]
    obtain rfl | rfl := located
    · exact ⟨'/', _, rfl, by decide, by decide⟩
    · exact ⟨'/', _, rfl, by decide, by decide⟩
  · cases filled : parts.scheme with
    | nil =>
      rw [filled] at valid
      exact absurd valid.1 (by decide)
    | cons c rest =>
      rw [filled] at valid
      have letter : isAsciiAlpha c = true := valid.1
      refine ⟨c, _, rfl, ?_, ?_⟩
      · simp only [isAsciiAlpha, Bool.or_eq_true, Bool.and_eq_true, decide_eq_true_eq] at letter
        simp only [isSpace, Bool.or_eq_false_iff, Bool.and_eq_false_imp, decide_eq_true_eq,
          decide_eq_false_iff_not]
        omega
      · simp only [isAsciiAlpha, Bool.or_eq_true, Bool.and_eq_true, decide_eq_true_eq] at letter
        simp only [isC0ControlOrSpace, decide_eq_false_iff_not]
        omega

theorem lstrip_of_first {p : Char → Bool} {s rest : Text} {c : Char} (h : s = c :: rest)
    (stays : p c = false) : lstrip p s = s := by
  subst h
  exact List.dropWhile_cons_of_neg (Bool.eq_false_iff.mp stays)

theorem Rooted.cleaned_strip (h : Rooted parts) {authority : Text}
    (located : authority = '/' :: '/' :: parts.netloc ∨ authority = []) (tail : Text) :
    cleaned (strip isSpace (schemeText parts.scheme ++ (authority ++ '/' :: tail))) =
      schemeText parts.scheme ++ (authority ++ '/' :: withoutUnsafe (rstrip isSpace tail)) := by
  obtain ⟨c, rest, first, space, control⟩ := h.first located tail
  obtain ⟨c', rest', first', space', control'⟩ := h.first located (rstrip isSpace tail)
  have trimmed : strip isSpace (schemeText parts.scheme ++ (authority ++ '/' :: tail)) =
      schemeText parts.scheme ++ (authority ++ '/' :: rstrip isSpace tail) := by
    rw [strip, lstrip_of_first first space, ← List.append_assoc,
      rstrip_append_cons (by decide), List.append_assoc]
  have scheme_safe : ∀ c ∈ schemeText parts.scheme, isUnsafeUrlByte c = false := by
    intro c mem
    rw [schemeText] at mem
    split at mem
    · cases mem
    · next filled =>
      obtain mem | rfl := (List.mem_append.mp mem).imp_right List.mem_singleton.mp
      · have valid := List.all_eq_true.mp (h.scheme.resolve_left filled).2.1 c mem
        rw [Bool.eq_false_iff]
        intro unsafe_
        rw [isUnsafeUrlByte, Bool.or_eq_true, Bool.or_eq_true, decide_eq_true_eq,
          decide_eq_true_eq, decide_eq_true_eq] at unsafe_
        obtain (rfl | rfl) | rfl := unsafe_
        · exact absurd valid (by decide)
        · exact absurd valid (by decide)
        · exact absurd valid (by decide)
      · decide
  have authority_safe : ∀ c ∈ authority, isUnsafeUrlByte c = false := by
    intro c mem
    obtain rfl | rfl := located
    · obtain rfl | rfl | mem := (List.mem_cons.mp mem).imp_right List.mem_cons.mp
      · decide
      · decide
      · exact (h.netloc c mem).1
    · cases mem
  rw [trimmed, cleaned, lstrip_of_first first' control', withoutUnsafe, List.filter_append,
    List.filter_append, ← withoutUnsafe, ← withoutUnsafe, withoutUnsafe_eq_self scheme_safe,
    withoutUnsafe_eq_self authority_safe, List.filter_cons_of_pos (by decide), ← withoutUnsafe]

theorem pathOf_slash (tail : Text) : ∃ rest, pathOf ('/' :: tail) = '/' :: rest := by
  have hash : partition '#' ('/' :: tail) =
      ('/' :: (partition '#' tail).1, (partition '#' tail).2) := if_neg (by decide)
  have question : ∀ s, partition '?' ('/' :: s) =
      ('/' :: (partition '?' s).1, (partition '?' s).2) := fun s => if_neg (by decide)
  rw [pathOf, hash, question]
  exact ⟨_, rfl⟩

theorem Settled.single_tail (h : Settled parts) {tail : Text} (rooted : parts.path = '/' :: tail) :
    ('/' :: withoutUnsafe (rstrip isSpace (tail ++ queryText parts.query))).take 2 ≠
      ['/', '/'] := by
  have first : ∀ c rest, tail ++ queryText parts.query = c :: rest →
      isUnsafeUrlByte c = false ∧ c ≠ '/' := by
    intro c rest starts
    cases tail with
    | nil =>
      rw [List.nil_append, queryText] at starts
      split at starts
      · cases starts
      · cases starts
        decide
    | cons d tail =>
      cases starts
      exact h.single _ _ rooted
  cases kept : rstrip isSpace (tail ++ queryText parts.query) with
  | nil => decide
  | cons c rest =>
    obtain ⟨lost, whole⟩ : c :: rest <+: tail ++ queryText parts.query :=
      kept ▸ List.rdropWhile_prefix isSpace _
    obtain ⟨safe, other⟩ := first c (rest ++ lost) whole.symm
    rw [withoutUnsafe, List.filter_cons_of_pos (by rw [safe]; rfl)]
    intro slashes
    exact other (List.cons.inj (List.cons.inj slashes).2).1

theorem urlsplit_of_safeSplit {url : Text} (h : safeSplit unicode url = some parts) :
    urlsplit unicode (strip isSpace url) = .ok parts := by
  rw [safeSplit] at h
  cases result : urlsplit unicode (strip isSpace url) with
  | error e =>
    rw [result] at h
    cases h
  | ok parts =>
    rw [result] at h
    cases h
    rfl

theorem Settled.read (h : Settled parts) {tail : Text} (rooted : parts.path = '/' :: tail) :
    (splitScheme (cleaned (strip isSpace (urlunsplit parts)))).1 = parts.scheme ∧
      rawNetloc (cleaned (strip isSpace (urlunsplit parts))) = parts.netloc ∧
      rawTail (cleaned (strip isSpace (urlunsplit parts))) =
        '/' :: withoutUnsafe (rstrip isSpace (tail ++ queryText parts.query)) := by
  obtain ⟨authority, whole, located⟩ := h.urlunsplit_eq
  have single := h.single_tail rooted
  rw [whole, rooted, List.cons_append, h.cleaned_strip (located.imp_right And.left)]
  generalize withoutUnsafe (rstrip isSpace (tail ++ queryText parts.query)) = rest at single ⊢
  obtain rfl | ⟨rfl, empty, -⟩ := located
  · have cut : (parts.netloc ++ '/' :: rest).takeWhile isNetlocChar = parts.netloc := by
      rw [takeWhile_append_cons_of_neg rfl]
      exact List.takeWhile_eq_self_iff.mpr fun c mem => (h.netloc c mem).2
    have left : (parts.netloc ++ '/' :: rest).dropWhile isNetlocChar = '/' :: rest := by
      rw [List.dropWhile_append_of_pos fun c mem => (h.netloc c mem).2]
      rfl
    rw [List.cons_append, rawNetloc, rawTail, splitScheme_schemeText h.scheme]
    exact ⟨rfl, cut, left⟩
  · rw [List.nil_append, rawNetloc, rawTail, splitScheme_schemeText h.scheme]
    exact ⟨rfl, (if_neg single).trans empty.symm, if_neg single⟩

theorem Settled.rooted_of_safeSplit (h : Settled parts) {again : SplitResult}
    (hsplit : safeSplit unicode (urlunsplit parts) = some again) :
    Rooted { again with fragment := [] } ∧ again.netloc = parts.netloc := by
  obtain ⟨tail, rooted⟩ := h.path
  obtain ⟨scheme, netloc, rest⟩ := h.read rooted
  obtain ⟨hscheme, hnetloc, hpath⟩ := parts_of_urlsplit (urlsplit_of_safeSplit hsplit)
  have same : again.netloc = parts.netloc := hnetloc.trans netloc
  obtain ⟨shown, hshown⟩ := pathOf_slash
    (withoutUnsafe (rstrip isSpace (tail ++ queryText parts.query)))
  refine ⟨⟨?_, same ▸ h.netloc, ⟨shown, ?_⟩, rfl⟩, same⟩
  · exact (hscheme.trans scheme) ▸ h.scheme
  · exact (hpath.trans (congrArg pathOf rest)).trans hshown

end Keys

/-- What the documentation promises of `str.lower`: it changes letters to letters,
and a slash is none. -/
structure LowersLetters (unicode : UnicodeData) : Prop where
  slash : ∀ s, unicode.lower ('/' :: s) = '/' :: unicode.lower s
  letters : ∀ s, ∀ c ∈ unicode.lower s, c ∈ s ∨ isAsciiAlpha c = true ∨ 128 ≤ c.toNat

theorem lowersLetters_of_map {unicode : UnicodeData}
    (lower : ∀ s, unicode.lower s = s.map Char.toLower) : LowersLetters unicode where
  slash s := by rw [lower, lower]; rfl
  letters s c mem := by
    rw [lower] at mem
    obtain ⟨d, found, rfl⟩ := List.mem_map.mp mem
    by_cases capital : d.val ≥ 'A'.val ∧ d.val ≤ 'Z'.val
    · exact Or.inr (Or.inl
        (of_capital (P := fun c => isAsciiAlpha c.toLower = true) capital (by decide)))
    · rw [toLower_of_not_capital capital]
      exact Or.inl found

section Host

variable {unicode : UnicodeData} {parts : SplitResult} {url : Text}

theorem Settled.rawNetloc_foldPath (lowers : LowersLetters unicode) (h : Settled parts) :
    rawNetloc (foldPath unicode (urlunsplit parts)) = parts.netloc := by
  rw [foldPath]
  split
  · exact h.rawNetloc_urlunsplit
  · next again hsplit =>
    obtain ⟨rooted, same⟩ := h.rooted_of_safeSplit hsplit
    obtain ⟨tail, hpath⟩ := rooted.path
    have lowered : Rooted { again with path := unicode.lower again.path, fragment := [] } :=
      { scheme := rooted.scheme
        netloc := rooted.netloc
        path := ⟨unicode.lower tail, by rw [← lowers.slash]; exact congrArg _ hpath⟩
        fragment := rfl }
    exact lowered.rawNetloc_urlunsplit.trans same

/-- The parts `normalize_url` puts together. -/
def keyParts (unicode : UnicodeData) (parts : SplitResult) : SplitResult :=
  let scheme := lowerAscii parts.scheme
  { scheme := if scheme = "http".toList ∨ scheme = "https".toList then "https".toList else scheme
    netloc := dropLeading www (unicode.lower parts.netloc)
    path := normalizePath (orRoot parts.path)
    query := queryKey unicode parts.query
    fragment := [] }

theorem normalizeUrl_of_safeSplit (h : safeSplit unicode url = some parts) :
    normalizeUrl unicode url = urlunsplit (keyParts unicode parts) := by
  rw [normalizeUrl, h]
  rfl

theorem normalizeUrl_of_none (h : safeSplit unicode url = none) :
    normalizeUrl unicode url = strip isSpace url := by
  rw [normalizeUrl, h]

theorem notMem_of_mem_split {sep : Char} {s part : Text} (h : part ∈ split sep s) : sep ∉ part := by
  induction s generalizing part with
  | nil =>
    rw [split, List.mem_singleton] at h
    rw [h]
    exact List.not_mem_nil
  | cons c s ih =>
    rw [split] at h
    split at h
    · next empty => exact absurd empty (split_ne_nil sep s)
    · next first more same =>
      have parted : ∀ other ∈ first :: more, sep ∉ other := fun other mem => ih (same ▸ mem)
      split at h
      · obtain rfl | mem := List.mem_cons.mp h
        · exact List.not_mem_nil
        · exact parted part mem
      · next other =>
        obtain rfl | mem := List.mem_cons.mp h
        · rw [List.mem_cons, not_or]
          exact ⟨Ne.symm other, parted first List.mem_cons_self⟩
        · exact parted part (List.mem_cons_of_mem first mem)

theorem isUnsafeUrlByte_of_not_isSpace {c : Char} (h : isSpace c = false) :
    isUnsafeUrlByte c = false := by
  rw [Bool.eq_false_iff]
  intro unsafe_
  rw [isUnsafeUrlByte, Bool.or_eq_true, Bool.or_eq_true, decide_eq_true_eq, decide_eq_true_eq,
    decide_eq_true_eq] at unsafe_
  obtain (rfl | rfl) | rfl := unsafe_
  · exact absurd h (by decide)
  · exact absurd h (by decide)
  · exact absurd h (by decide)

theorem normalizePath_settled (path : Text) : ∃ tail, normalizePath path = '/' :: tail ∧
    ∀ c rest, tail = c :: rest → isUnsafeUrlByte c = false ∧ c ≠ '/' := by
  rw [normalizePath]
  generalize hkept : ((split '/' (decodePercentEscapes path)).map (strip isSpace)).filter (· ≠ [])
    = kept
  cases kept with
  | nil => exact ⟨[], rfl, by rintro c rest ⟨⟩⟩
  | cons segment more =>
    rw [if_neg (List.cons_ne_nil segment more)]
    refine ⟨_, rfl, fun c rest starts => ?_⟩
    have mem : segment ∈ ((split '/' (decodePercentEscapes path)).map (strip isSpace)).filter
        (· ≠ []) := hkept ▸ List.mem_cons_self
    obtain ⟨mem, filled⟩ := List.mem_filter.mp mem
    obtain ⟨part, parted, rfl⟩ := List.mem_map.mp mem
    have first : ∃ rest, strip isSpace part = c :: rest := by
      cases hsegment : strip isSpace part with
      | nil =>
        rw [hsegment] at filled
        cases filled
      | cons d segment =>
        rw [hsegment] at starts
        cases more with
        | nil =>
          cases starts
          exact ⟨segment, rfl⟩
        | cons next more =>
          cases starts
          exact ⟨segment, rfl⟩
    obtain ⟨rest', first⟩ := first
    obtain ⟨space, inside⟩ := first_strip first
    refine ⟨isUnsafeUrlByte_of_not_isSpace space, ?_⟩
    rintro rfl
    exact notMem_of_mem_split parted inside

theorem isNetlocChar_of_letter {c : Char} (h : isAsciiAlpha c = true ∨ 128 ≤ c.toNat) :
    isUnsafeUrlByte c = false ∧ isNetlocChar c = true := by
  have other : ∀ d : Char, isAsciiAlpha d = false → d.toNat < 128 → c ≠ d := by
    rintro d letter low rfl
    obtain h | h := h
    · rw [letter] at h
      cases h
    · omega
  rw [isUnsafeUrlByte, isNetlocChar, Bool.or_eq_false_iff, Bool.or_eq_false_iff,
    decide_eq_false_iff_not, decide_eq_false_iff_not, decide_eq_false_iff_not, decide_eq_true_eq]
  exact ⟨⟨⟨other _ rfl (by decide), other _ rfl (by decide)⟩, other _ rfl (by decide)⟩,
    other _ rfl (by decide), other _ rfl (by decide), other _ rfl (by decide)⟩

theorem mem_of_mem_dropLeading {lead s : Text} {c : Char} (h : c ∈ dropLeading lead s) : c ∈ s := by
  rw [dropLeading] at h
  split at h
  · exact List.mem_of_mem_drop h
  · exact h

theorem keyParts_settled (lowers : LowersLetters unicode) (h : safeSplit unicode url = some parts) :
    Settled (keyParts unicode parts) := by
  have split := urlsplit_of_safeSplit h
  obtain ⟨tail, rooted, single⟩ := normalizePath_settled (orRoot parts.path)
  refine { scheme := ?_, netloc := ?_, path := ⟨tail, rooted⟩, fragment := rfl, single := ?_ }
  · have valid : parts.scheme = [] ∨ IsScheme parts.scheme := by
      rw [(parts_of_urlsplit split).1]
      exact isScheme_of_splitScheme _
    have lowered : lowerAscii parts.scheme = parts.scheme := by
      obtain empty | valid := valid
      · rw [empty]
        rfl
      · exact valid.2.2
    rw [keyParts]
    dsimp only
    split
    · exact Or.inr ⟨by decide, by decide, by decide⟩
    · rw [lowered]
      exact valid
  · intro c mem
    obtain kept | gained := lowers.letters _ c (mem_of_mem_dropLeading mem)
    · exact ((splitsFrom_of_urlsplit split).netloc c kept).2
    · exact isNetlocChar_of_letter gained
  · intro c rest whole
    exact single c rest (List.cons.inj (rooted.symm.trans whole)).2

theorem rawNetloc_normalizeUrl (lowers : LowersLetters unicode)
    (h : safeSplit unicode url = some parts) :
    rawNetloc (normalizeUrl unicode url) = dropLeading www (unicode.lower parts.netloc) ∧
      rawNetloc (foldPath unicode (normalizeUrl unicode url)) =
        dropLeading www (unicode.lower parts.netloc) := by
  have settled := keyParts_settled lowers h
  rw [normalizeUrl_of_safeSplit h]
  exact ⟨settled.rawNetloc_urlunsplit, settled.rawNetloc_foldPath lowers⟩

/-- A network location with a bracket right after its `www.` -/
def BracketedWww (unicode : UnicodeData) (netloc : Text) : Prop :=
  "www.[".toList <+: unicode.lower netloc

theorem dropLeading_cases (lead s : Text) :
    s = lead ++ dropLeading lead s ∨ lead.isPrefixOf s = false ∧ dropLeading lead s = s := by
  rw [dropLeading]
  cases leads : lead.isPrefixOf s with
  | false => exact Or.inr ⟨rfl, rfl⟩
  | true => exact Or.inl (List.prefix_iff_eq_append.mp (List.isPrefixOf_iff_prefix.mp leads)).symm

theorem hostOfLowered_eq {a b : Text} (same : dropLeading www a = dropLeading www b)
    (plain_a : ¬"www.[".toList <+: a) (plain_b : ¬"www.[".toList <+: b) :
    hostOfLowered a = hostOfLowered b := by
  have unbracketed : ∀ s, ¬"www.[".toList <+: www ++ s → s.head? ≠ some '[' := by
    intro s plain bracket
    obtain ⟨rest, rfl⟩ := List.head?_eq_some_iff.mp bracket
    exact plain ⟨rest, rfl⟩
  obtain ha | ⟨bare_a, ha⟩ := dropLeading_cases www a
  · obtain hb | ⟨bare_b, hb⟩ := dropLeading_cases www b
    · rw [ha, hb, same]
    · rw [same, hb] at ha
      rw [ha] at plain_a ⊢
      exact hostOfLowered_www (unbracketed b plain_a) bare_b
  · obtain hb | ⟨-, hb⟩ := dropLeading_cases www b
    · rw [← same, ha] at hb
      rw [hb] at plain_b ⊢
      exact (hostOfLowered_www (unbracketed a plain_b) bare_a).symm
    · rw [← ha, ← hb, same]

/-- **A key tells the host.** Addresses with one key, or with keys that differ in
the case of the path, have one host. -/
theorem siteHost_eq_of_key_eq (lowers : LowersLetters unicode) {other : Text}
    {parts' : SplitResult} (h : safeSplit unicode url = some parts)
    (h' : safeSplit unicode other = some parts')
    (plain : ¬BracketedWww unicode parts.netloc) (plain' : ¬BracketedWww unicode parts'.netloc)
    (same : normalizeUrl unicode url = normalizeUrl unicode other ∨
      foldPath unicode (normalizeUrl unicode url) = foldPath unicode (normalizeUrl unicode other)) :
    siteHost unicode parts.netloc = siteHost unicode parts'.netloc := by
  obtain ⟨raw, folded⟩ := rawNetloc_normalizeUrl lowers h
  obtain ⟨raw', folded'⟩ := rawNetloc_normalizeUrl lowers h'
  refine hostOfLowered_eq ?_ plain plain'
  obtain same | same := same
  · rw [← raw, ← raw', same]
  · rw [← folded, ← folded', same]

end Host

end Rankuno.UrlKeys
