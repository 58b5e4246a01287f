import Mathlib.Data.List.TakeDrop
import Rankuno.Python.Partition
import Rankuno.Python.Urllib
import Rankuno.Python.Values

/-!
# A URL taken apart and put together again

What the parts of a split URL can contain, what `urlsplit` makes of a text that
starts with a web scheme, and when it finds in a rebuilt URL the parts the URL
was rebuilt from.
-/

namespace Rankuno.Python.Urllib

open Text

/-- The schemes a browser fetches, as `urlsplit` reads them. -/
def IsWebScheme (scheme : Text) : Prop := scheme = "http".toList ∨ scheme = "https".toList

/-- A character that does not end a network location. -/
def isNetlocChar (c : Char) : Bool := c ≠ '/' ∧ c ≠ '?' ∧ c ≠ '#'

theorem splitNetloc_eq (rest : Text) :
    splitNetloc rest = (rest.takeWhile isNetlocChar, rest.dropWhile isNetlocChar) :=
  List.span_eq_takeWhile_dropWhile _ rest

/-- What is left of a text once the bytes no URL may have are removed. -/
def withoutUnsafe (s : Text) : Text := s.filter fun c => !isUnsafeUrlByte c

theorem withoutUnsafe_eq_self {s : Text} (h : ∀ c ∈ s, isUnsafeUrlByte c = false) :
    withoutUnsafe s = s := by
  rw [withoutUnsafe, List.filter_eq_self]
  intro c mem
  rw [h c mem]
  rfl

theorem splitScheme_web {scheme : Text} (web : IsWebScheme scheme) (rest : Text) :
    splitScheme (scheme ++ ':' :: rest) = (scheme, rest) := by
  have apart : ':' ∉ scheme := by
    obtain rfl | rfl := web <;> decide
  have lowered : lowerAscii scheme = scheme := by
    obtain rfl | rfl := web <;> decide
  have named : (scheme.head?.any isAsciiAlpha && scheme.all isSchemeChar) = true := by
    obtain rfl | rfl := web <;> decide
  rw [splitScheme, partition_append_cons apart]
  simp only [named, if_true, lowered]

/-- The end of `urlsplit`, once the scheme and the `//` are read. -/
def splitRest (unicode : UnicodeData) (scheme rest : Text) : Except Text SplitResult := do
  checkBrackets unicode (rest.takeWhile isNetlocChar)
  let tail := rest.dropWhile isNetlocChar
  checkNetloc unicode (rest.takeWhile isNetlocChar)
  return {
    scheme := scheme
    netloc := rest.takeWhile isNetlocChar
    path := (partition '?' (partition '#' tail).1).1
    query := (partition '?' (partition '#' tail).1).2.getD []
    fragment := (partition '#' tail).2.getD [] }

theorem urlsplit_web {scheme : Text} (web : IsWebScheme scheme) (unicode : UnicodeData)
    (rest : Text) :
    urlsplit unicode (scheme ++ ':' :: '/' :: '/' :: rest) =
      splitRest unicode scheme (withoutUnsafe rest) := by
  have cleaned : (lstrip isC0ControlOrSpace (scheme ++ ':' :: '/' :: '/' :: rest)).filter
      (fun c => !isUnsafeUrlByte c) = scheme ++ ':' :: '/' :: '/' :: withoutUnsafe rest := by
    obtain rfl | rfl := web <;> rfl
  rw [urlsplit, cleaned, splitScheme_web web]
  simp only [List.take_succ_cons, List.take_zero, List.drop_succ_cons, List.drop_zero, if_true,
    splitNetloc_eq, splitRest]
  cases checkBrackets unicode ((withoutUnsafe rest).takeWhile isNetlocChar) with
  | error e => rfl
  | ok u => rfl

section Parts

variable {unicode : UnicodeData} {url tail : Text} {parts : SplitResult} {c : Char}

/-- The path and the query that stand in what follows the network location. -/
def pathOf (tail : Text) : Text := (partition '?' (partition '#' tail).1).1

def queryOf (tail : Text) : Text := (partition '?' (partition '#' tail).1).2.getD []

theorem mem_pathOf (h : c ∈ pathOf tail) : c ∈ tail ∧ c ≠ '?' ∧ c ≠ '#' := by
  have before := mem_of_mem_partition_fst h
  refine ⟨mem_of_mem_partition_fst before, ?_, ?_⟩
  · rintro rfl
    exact notMem_partition_fst _ _ h
  · rintro rfl
    exact notMem_partition_fst _ _ before

theorem mem_queryOf (h : c ∈ queryOf tail) : c ∈ tail ∧ c ≠ '#' := by
  rw [queryOf] at h
  cases found : (partition '?' (partition '#' tail).1).2 with
  | none =>
    rw [found] at h
    cases h
  | some query =>
    rw [found] at h
    have before := mem_of_mem_partition_snd found h
    refine ⟨mem_of_mem_partition_fst before, ?_⟩
    rintro rfl
    exact notMem_partition_fst _ _ before

theorem pathOf_dropWhile (rest : Text) : pathOf (rest.dropWhile isNetlocChar) = [] ∨
      (pathOf (rest.dropWhile isNetlocChar)).head? = some '/' := by
  cases h : rest.dropWhile isNetlocChar with
  | nil => exact Or.inl rfl
  | cons c tail =>
    have ends : isNetlocChar c = false := by
      have some : rest.dropWhile isNetlocChar ≠ [] := by
        rw [h]
        exact List.cons_ne_nil c tail
      simpa [h] using List.head_dropWhile_not isNetlocChar some
    by_cases slash : c = '/'
    · subst slash
      exact Or.inr rfl
    · left
      by_cases question : c = '?'
      · subst question
        rfl
      · have hash : c = '#' := by
          by_contra hash
          simp [isNetlocChar, slash, question, hash] at ends
        subst hash
        rfl

/-- Where the parts of a split URL come from. -/
structure SplitsFrom (url : Text) (parts : SplitResult) : Prop where
  netloc : ∀ c ∈ parts.netloc, c ∈ url ∧ isUnsafeUrlByte c = false ∧ isNetlocChar c = true
  path : ∀ c ∈ parts.path, c ∈ url ∧ isUnsafeUrlByte c = false ∧ c ≠ '?' ∧ c ≠ '#'
  query : ∀ c ∈ parts.query, c ∈ url ∧ isUnsafeUrlByte c = false ∧ c ≠ '#'
  rooted : parts.netloc ≠ [] → parts.path = [] ∨ parts.path.head? = some '/'

theorem mem_of_mem_splitScheme (h : c ∈ (splitScheme url).2) : c ∈ url := by
  rw [splitScheme] at h
  split at h
  · exact h
  · next scheme rest parts =>
    split at h
    · exact mem_of_mem_partition_snd (by rw [parts]) h
    · exact h

theorem SplitsFrom.of_tail {scheme netloc fragment : Text}
    (netloc_from : ∀ c ∈ netloc, c ∈ url ∧ isUnsafeUrlByte c = false ∧ isNetlocChar c = true)
    (tail_from : ∀ c ∈ tail, c ∈ url ∧ isUnsafeUrlByte c = false)
    (rooted : netloc ≠ [] → pathOf tail = [] ∨ (pathOf tail).head? = some '/') :
    SplitsFrom url ⟨scheme, netloc, pathOf tail, queryOf tail, fragment⟩ where
  netloc := netloc_from
  path := fun c mem => by
    obtain ⟨mem, question, hash⟩ := mem_pathOf mem
    exact ⟨(tail_from c mem).1, (tail_from c mem).2, question, hash⟩
  query := fun c mem => by
    obtain ⟨mem, hash⟩ := mem_queryOf mem
    exact ⟨(tail_from c mem).1, (tail_from c mem).2, hash⟩
  rooted := rooted

theorem splitsFrom_of_urlsplit (h : urlsplit unicode url = .ok parts) : SplitsFrom url parts := by
  rw [urlsplit] at h
  generalize hclean : (lstrip isC0ControlOrSpace url).filter (fun c => !isUnsafeUrlByte c) = clean
    at h
  have cleaned : ∀ c ∈ (splitScheme clean).2, c ∈ url ∧ isUnsafeUrlByte c = false := by
    intro c mem
    have mem := mem_of_mem_splitScheme mem
    rw [← hclean, List.mem_filter] at mem
    exact ⟨(List.dropWhile_sublist _).subset mem.1, by simpa using mem.2⟩
  generalize splitScheme clean = split at h cleaned
  obtain ⟨scheme, after⟩ := split
  dsimp only at h cleaned
  split at h
  · obtain ⟨⟨netloc, tail⟩, located, h⟩ := bind_eq_ok.mp h
    obtain ⟨-, -, h⟩ := bind_eq_ok.mp h
    cases h
    have rest_from : ∀ c ∈ after.drop 2, c ∈ url ∧ isUnsafeUrlByte c = false :=
      fun c mem => cleaned c (List.mem_of_mem_drop mem)
    rw [splitNetloc_eq] at located
    cases brackets : checkBrackets unicode ((after.drop 2).takeWhile isNetlocChar) with
    | error e =>
      rw [brackets] at located
      cases located
    | ok u =>
      rw [brackets] at located
      cases located
      refine .of_tail (fun c mem => ?_) (fun c mem => ?_) fun _ => pathOf_dropWhile _
      · obtain ⟨found, safe⟩ := rest_from c ((List.takeWhile_sublist _).subset mem)
        exact ⟨found, safe, List.mem_takeWhile_imp mem⟩
      · exact rest_from c ((List.dropWhile_sublist _).subset mem)
  · obtain ⟨-, -, h⟩ := bind_eq_ok.mp h
    cases h
    exact .of_tail (fun c mem => absurd mem List.not_mem_nil) cleaned fun some => absurd rfl some

end Parts

section Rebuilt

variable {unicode : UnicodeData} {scheme netloc path query : Text} {parts : SplitResult}

/-- A query with the question mark before it, if there is one. -/
def queryText (query : Text) : Text := if query = [] then [] else '?' :: query

/-- The text of a web URL with these parts. -/
def rebuilt (scheme netloc path query : Text) : Text :=
  scheme ++ ':' :: '/' :: '/' :: (netloc ++ (path ++ queryText query))

theorem urlunsplit_web (web : IsWebScheme scheme) (rooted : path.head? = some '/') :
    urlunsplit ⟨scheme, netloc, path, query, []⟩ = rebuilt scheme netloc path query := by
  have known : scheme ≠ [] ∧ scheme ∈ usesNetloc := by
    obtain rfl | rfl := web <;> decide
  simp only [urlunsplit, known.1, known.2, rooted, ne_eq, not_false_eq_true, true_and, true_or,
    or_true, not_true_eq_false, and_false, if_true, if_false, rebuilt, queryText]
  split
  · simp
  · next none => simp [not_not.mp none]

theorem takeWhile_append_cons_of_neg {p : Char → Bool} {c : Char} (stops : p c = false)
    (s t : Text) : (s ++ c :: t).takeWhile p = s.takeWhile p := by
  induction s with
  | nil => exact List.takeWhile_cons_of_neg (Bool.eq_false_iff.mp stops)
  | cons d s ih =>
    rw [List.cons_append]
    cases hd : p d with
    | true => rw [List.takeWhile_cons_of_pos hd, List.takeWhile_cons_of_pos hd, ih]
    | false =>
      rw [List.takeWhile_cons_of_neg (Bool.eq_false_iff.mp hd),
        List.takeWhile_cons_of_neg (Bool.eq_false_iff.mp hd)]

theorem netloc_of_urlsplit {rest : Text} (web : IsWebScheme scheme)
    (h : urlsplit unicode (scheme ++ ':' :: '/' :: '/' :: (netloc ++ '/' :: rest)) = .ok parts) :
    parts.netloc = (withoutUnsafe netloc).takeWhile isNetlocChar ∧
      checkBrackets unicode parts.netloc = .ok () := by
  rw [urlsplit_web web, splitRest] at h
  obtain ⟨⟨⟩, brackets, h⟩ := bind_eq_ok.mp h
  obtain ⟨-, -, h⟩ := bind_eq_ok.mp h
  have cut : (withoutUnsafe (netloc ++ '/' :: rest)).takeWhile isNetlocChar =
      (withoutUnsafe netloc).takeWhile isNetlocChar := by
    rw [withoutUnsafe, List.filter_append]
    exact takeWhile_append_cons_of_neg rfl _ _
  cases h
  exact ⟨cut, brackets⟩

theorem tail_of_urlsplit {rest : Text} (web : IsWebScheme scheme)
    (netloc_chars : ∀ c ∈ netloc, isUnsafeUrlByte c = false ∧ isNetlocChar c = true)
    (rest_chars : ∀ c ∈ rest, isUnsafeUrlByte c = false)
    (h : urlsplit unicode (scheme ++ ':' :: '/' :: '/' :: (netloc ++ '/' :: rest)) = .ok parts) :
    parts.path = pathOf ('/' :: rest) ∧ parts.query = queryOf ('/' :: rest) := by
  have safe : ∀ c ∈ netloc ++ '/' :: rest, isUnsafeUrlByte c = false := by
    intro c mem
    rw [List.mem_append, List.mem_cons] at mem
    obtain mem | rfl | mem := mem
    · exact (netloc_chars c mem).1
    · rfl
    · exact rest_chars c mem
  have tail : (netloc ++ '/' :: rest).dropWhile isNetlocChar = '/' :: rest := by
    rw [List.dropWhile_append_of_pos fun c mem => (netloc_chars c mem).2]
    rfl
  rw [urlsplit_web web, withoutUnsafe_eq_self safe, splitRest] at h
  obtain ⟨⟨⟩, -, h⟩ := bind_eq_ok.mp h
  obtain ⟨-, -, h⟩ := bind_eq_ok.mp h
  rw [tail] at h
  cases h
  exact ⟨rfl, rfl⟩

theorem pathOf_append_queryText_prefix (tail : Text) :
    pathOf tail ++ queryText (queryOf tail) <+: tail := by
  have unhashed : (partition '#' tail).1 <+: tail := partition_fst_prefix
  refine List.IsPrefix.trans ?_ unhashed
  rw [pathOf, queryOf]
  by_cases question : '?' ∈ (partition '#' tail).1
  · obtain ⟨path, query, -, whole, cut⟩ := exists_partition question
    rw [cut, whole, queryText]
    split
    · next empty =>
      rw [List.append_nil]
      exact List.prefix_append path _
    · exact List.prefix_refl _
  · rw [partition_of_notMem question]
    simp [queryText]

theorem urlsplit_rebuilt (web : IsWebScheme scheme)
    (netloc_chars : ∀ c ∈ netloc, isUnsafeUrlByte c = false ∧ isNetlocChar c = true)
    (rooted : path.head? = some '/')
    (path_chars : ∀ c ∈ path, isUnsafeUrlByte c = false ∧ c ≠ '?' ∧ c ≠ '#')
    (query_chars : ∀ c ∈ query, isUnsafeUrlByte c = false ∧ c ≠ '#')
    (brackets : checkBrackets unicode netloc = .ok ())
    (nfkc : checkNetloc unicode netloc = .ok ()) :
    urlsplit unicode (rebuilt scheme netloc path query) = .ok ⟨scheme, netloc, path, query, []⟩ := by
  have queryText_chars : ∀ c ∈ queryText query, isUnsafeUrlByte c = false ∧ c ≠ '#' := by
    intro c mem
    rw [queryText] at mem
    split at mem
    · cases mem
    · obtain rfl | mem := List.mem_cons.mp mem
      · decide
      · exact query_chars c mem
  have safe : ∀ c ∈ netloc ++ (path ++ queryText query), isUnsafeUrlByte c = false := by
    intro c mem
    rw [List.mem_append, List.mem_append] at mem
    obtain mem | mem | mem := mem
    · exact (netloc_chars c mem).1
    · exact (path_chars c mem).1
    · exact (queryText_chars c mem).1
  obtain ⟨tail, rfl⟩ : ∃ tail, path = '/' :: tail := List.head?_eq_some_iff.mp rooted
  have whole : netloc.takeWhile isNetlocChar = netloc :=
    List.takeWhile_eq_self_iff.mpr fun c mem => (netloc_chars c mem).2
  have cut : (netloc ++ ('/' :: tail ++ queryText query)).takeWhile isNetlocChar = netloc := by
    rw [List.cons_append, takeWhile_append_cons_of_neg rfl, whole]
  have rest : (netloc ++ ('/' :: tail ++ queryText query)).dropWhile isNetlocChar =
      '/' :: tail ++ queryText query := by
    rw [List.dropWhile_append_of_pos fun c mem => (netloc_chars c mem).2]
    rfl
  have no_fragment : partition '#' ('/' :: tail ++ queryText query) =
      ('/' :: tail ++ queryText query, none) := by
    refine partition_of_notMem fun mem => ?_
    obtain mem | mem := List.mem_append.mp mem
    · exact (path_chars _ mem).2.2 rfl
    · exact (queryText_chars _ mem).2 rfl
  have no_question : '?' ∉ '/' :: tail := fun mem => (path_chars _ mem).2.1 rfl
  have parted : (partition '?' ('/' :: tail ++ queryText query)).1 = '/' :: tail ∧
      (partition '?' ('/' :: tail ++ queryText query)).2.getD [] = query := by
    rw [queryText]
    split
    · next none =>
      rw [List.append_nil, partition_of_notMem no_question, none]
      exact ⟨rfl, rfl⟩
    · rw [partition_append_cons no_question]
      exact ⟨rfl, rfl⟩
  rw [rebuilt, urlsplit_web web, withoutUnsafe_eq_self safe, splitRest, cut, rest, brackets]
  simp only [nfkc, no_fragment, parted]
  rfl

end Rebuilt

end Rankuno.Python.Urllib

namespace Rankuno.Python

open Text

/-- What the documentation promises of `str.lower` and of the `idna` codec. The
codec encodes a name label by label, folding the case of what it encodes, and
refuses an empty label. -/
structure UnicodeData.Lawful (unicode : UnicodeData) : Prop where
  lower_ascii : ∀ s, isAscii s = true → unicode.lower s = s.map Char.toLower
  lowered : ∀ s, ∀ c ∈ unicode.lower s, c.toLower = c
  idna : ∀ s t, s ≠ [] → (∀ c ∈ s, c.toLower = c) → unicode.idna s = .ok t →
    t ≠ [] ∧ isAscii t = true ∧ ∀ c ∈ t, c.toLower = c

theorem UnicodeData.Lawful.lower_eq_self {unicode : UnicodeData} (lawful : unicode.Lawful)
    {s : Text} (ascii : isAscii s = true) (lowered : ∀ c ∈ s, c.toLower = c) :
    unicode.lower s = s := by
  rw [lawful.lower_ascii s ascii]
  exact (List.map_congr_left lowered).trans (List.map_id' s)

namespace SplitResult

variable {unicode : UnicodeData} {parts : SplitResult} {host port : Text} {c : Char}

theorem username_eq_none : parts.username = none ↔ '@' ∉ parts.netloc := by
  constructor
  · intro h
    refine notMem_of_rpartition_fst ?_
    rw [username, userinfo] at h
    split at h
    · next first => rw [first]
    · cases h
  · intro h
    rw [username, userinfo, rpartition_of_notMem h]

theorem password_eq_none (h : '@' ∉ parts.netloc) : parts.password = none := by
  rw [password, userinfo, rpartition_of_notMem h]

theorem hostinfo_fst (plain : '@' ∉ parts.netloc) : (∀ c ∈ parts.hostinfo.1, c ∈ parts.netloc) ∧
      ('[' ∈ parts.netloc → ']' ∉ parts.hostinfo.1) ∧
      ('[' ∉ parts.netloc → ':' ∉ parts.hostinfo.1) := by
  rw [hostinfo, rpartition_of_notMem plain]
  by_cases bracket : '[' ∈ parts.netloc
  · obtain ⟨before, bracketed, -, whole, cut⟩ := exists_partition bracket
    simp only [cut]
    refine ⟨fun c mem => ?_, fun _ => notMem_partition_fst _ _, fun none => absurd bracket none⟩
    rw [whole]
    exact List.mem_append_right _ (List.mem_cons_of_mem _ (mem_of_mem_partition_fst mem))
  · simp only [partition_of_notMem bracket]
    exact ⟨fun c mem => mem_of_mem_partition_fst mem, fun some => absurd some bracket,
      fun _ => notMem_partition_fst _ _⟩

theorem hostinfo_of_host (h : parts.netloc = host) (at_ : '@' ∉ host) (bracket : '[' ∉ host)
    (colon : ':' ∉ host) : parts.hostinfo = (host, none) := by
  simp [hostinfo, h, rpartition_of_notMem at_, partition_of_notMem bracket,
    partition_of_notMem colon]

theorem hostinfo_of_port (h : parts.netloc = host ++ ':' :: port)
    (at_ : '@' ∉ host ++ ':' :: port) (bracket : '[' ∉ host ++ ':' :: port) (colon : ':' ∉ host)
    (filled : port ≠ []) : parts.hostinfo = (host, some port) := by
  simp [hostinfo, h, rpartition_of_notMem at_, partition_of_notMem bracket,
    partition_append_cons colon, filled]

theorem hostname_eq_some (lawful : unicode.Lawful) (h : parts.hostinfo.1 = host)
    (filled : host ≠ [])
    (ascii : isAscii host = true) (lowered : ∀ c ∈ host, c.toLower = c) :
    parts.hostname unicode = some host := by
  rw [hostname, h, if_neg filled]
  by_cases zone : '%' ∈ host
  · obtain ⟨a, b, -, rfl, cut⟩ := exists_partition zone
    rw [cut]
    have whole : unicode.lower a = a := by
      refine lawful.lower_eq_self ?_ fun c mem => lowered c (List.mem_append_left _ mem)
      rw [isAscii, List.all_append, Bool.and_eq_true] at ascii
      exact ascii.1
    simp only [whole]
  · rw [partition_of_notMem zone]
    simp only [lawful.lower_eq_self ascii lowered]

theorem mem_hostinfo_of_mem_hostname (lawful : unicode.Lawful)
    (ascii : isAscii parts.hostinfo.1 = true) (h : parts.hostname unicode = some host)
    (mem : c ∈ host) (plain : ∀ d : Char, d.toLower = c → d = c) : c ∈ parts.hostinfo.1 := by
  have lower_mem : ∀ s, (∀ d ∈ s, d ∈ parts.hostinfo.1) → c ∈ unicode.lower s →
      c ∈ parts.hostinfo.1 := by
    intro s sub mem
    have ascii : isAscii s = true :=
      List.all_eq_true.mpr fun d hd => List.all_eq_true.mp ascii d (sub d hd)
    rw [lawful.lower_ascii s ascii] at mem
    obtain ⟨d, hd, same⟩ := List.mem_map.mp mem
    rw [← plain d same]
    exact sub d hd
  rw [hostname] at h
  split at h
  · cases h
  · by_cases zone : '%' ∈ parts.hostinfo.1
    · obtain ⟨a, b, -, whole, cut⟩ := exists_partition zone
      rw [cut] at h
      cases h
      obtain mem | mem := List.mem_append.mp mem
      · refine lower_mem a (fun d hd => ?_) mem
        rw [whole]
        exact List.mem_append_left _ hd
      · rw [whole]
        exact List.mem_append_right _ mem
    · rw [partition_of_notMem zone] at h
      cases h
      exact lower_mem _ (fun _ => id) mem

end SplitResult

end Rankuno.Python
