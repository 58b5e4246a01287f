import Rankuno.Foundation.LastByKey
import Rankuno.Python.Lower
import Rankuno.Python.Partition

/-!
# The `Link` header

`parse_link_header` of `discovery_parsers.py` against what RFC 8288 encodes: a list of
links, each a URL with relation types and other parameters in quotes. The parser cuts
the header at every comma and each part at every semicolon, quoted or not, and takes the
text of a `rel` as one type. What is left of a link after the cuts is `Link.recovered`;
the header is decoded exactly if the last of these readings under each name is right.
-/

namespace Rankuno.LinkHeader

open Python Python.Text

section Parser

variable (unicode : UnicodeData)

/-- The relation type a piece of a part is read as, if it is a `rel`. -/
def relOf (piece : Text) : Option Text :=
  let (name, raw) := partition '=' piece
  if unicode.lower (strip isSpace name) ≠ "rel".toList then none
  else
    let rel := unicode.lower (strip (fun c => c = '\'')
      (strip (fun c => c = '"') (strip isSpace (raw.getD []))))
    if rel ≠ [] then some rel else none

/-- One piece of a part: a `rel` sets its URL. -/
def readAttribute (url : Text) (links : Dict Text Text) (piece : Text) : Dict Text Text :=
  match relOf unicode piece with
  | none => links
  | some rel => if url ≠ [] then links.alter rel url fun _ => url else links

/-- One part of the header. A part that does not start with a URL in brackets is
passed over. -/
def readPart (links : Dict Text Text) (part : Text) : Dict Text Text :=
  match split ';' part with
  | [] => links
  | first :: pieces =>
    let target := strip isSpace first
    if target.head? = some '<' ∧ target.getLast? = some '>' then
      let url := strip isSpace (target.drop 1).dropLast
      pieces.foldl (readAttribute unicode url) links
    else links

/-- `parse_link_header`. -/
def parseLinkHeader (value : Text) : Dict Text Text :=
  if value = [] then .empty else (split ',' value).foldl (readPart unicode) .empty

end Parser

/-! ## Links and their encoding -/

/-- A link of a header: its URL, its relation types, and its other parameters. -/
structure Link (unicode : UnicodeData) where
  url : Text
  types : List Text
  params : List (Text × Text)
  url_bare : '<' ∉ url ∧ '>' ∉ url
  types_bare : ∀ t ∈ types, t ≠ [] ∧ '"' ∉ t ∧ ∀ c ∈ t, isSpace c = false
  names_bare : ∀ param ∈ params, unicode.lower param.1 ≠ "rel".toList ∧
    ',' ∉ param.1 ∧ ';' ∉ param.1 ∧ '=' ∉ param.1 ∧ ∀ c ∈ param.1, isSpace c = false
  values_bare : ∀ param ∈ params, '"' ∉ param.2

namespace Link

variable {unicode : UnicodeData}

/-- `name="value"`. -/
def quoted (name value : Text) : Text := name ++ "=\"".toList ++ value ++ ['"']

/-- The parameters of a link, each after a semicolon. -/
def paramsText (params : List (Text × Text)) : Text :=
  params.flatMap fun param => "; ".toList ++ quoted param.1 param.2

/-- What stands behind the URL. -/
def tail (link : Link unicode) : Text :=
  paramsText (("rel".toList, join [' '] link.types) :: link.params)

/-- `<url>; rel="t1 t2"; p="v"`. -/
def text (link : Link unicode) : Text := '<' :: link.url ++ '>' :: link.tail

end Link

section Encoding

variable {unicode : UnicodeData}

def render (links : List (Link unicode)) : Text :=
  join ", ".toList (links.map Link.text)

/-- One of the links has the URL and, up to case, the relation type. -/
def Given (links : List (Link unicode)) (rel url : Text) : Prop :=
  ∃ link ∈ links, link.url = url ∧ ∃ t ∈ link.types, unicode.lower t = rel

/-- The header is read as its links say: each relation type has a URL that is given
with it, and nothing else has one. -/
def Decodes (links : List (Link unicode)) : Prop :=
  (∀ link ∈ links, ∀ t ∈ link.types,
    ((parseLinkHeader unicode (render links)).get (unicode.lower t)).isSome) ∧
  ∀ rel url, (parseLinkHeader unicode (render links)).get rel = some url → Given links rel url

/-! ## What the cuts leave -/

/-- The relation types the pieces of a part are read as, with its URL. -/
def attributeReadings (unicode : UnicodeData) (url : Text) (pieces : List Text) :
    List (Text × Text) :=
  if url ≠ [] then (pieces.filterMap (relOf unicode)).map fun rel => (rel, url) else []

/-- What a part between two commas is read as. -/
def partReadings (unicode : UnicodeData) (part : Text) : List (Text × Text) :=
  match split ';' part with
  | [] => []
  | first :: pieces =>
    let target := strip isSpace first
    if target.head? = some '<' ∧ target.getLast? = some '>' then
      attributeReadings unicode (strip isSpace (target.drop 1).dropLast) pieces
    else []

/-- What a link is read as. Its own pieces are those before the first comma, and
lost where its URL has a comma or a semicolon; what follows a comma between quotes is
read as a link of its own. -/
def Link.recovered (link : Link unicode) : List (Text × Text) :=
  let parts := split ',' link.tail
  (if ',' ∉ link.url ∧ ';' ∉ link.url then
    attributeReadings unicode (strip isSpace link.url)
      ((split ';' (parts.head?.getD [])).drop 1)
  else []) ++ (parts.drop 1).flatMap (partReadings unicode)

/-- Each relation type is recovered, and the last reading of each name is one that the
links give. -/
def Recovers (links : List (Link unicode)) : Prop :=
  (∀ link ∈ links, ∀ t ∈ link.types,
    ∃ reading ∈ links.flatMap Link.recovered, reading.1 = unicode.lower t) ∧
  ∀ before reading after, links.flatMap Link.recovered = before ++ reading :: after →
    (∀ later ∈ after, later.1 ≠ reading.1) → Given links reading.1 reading.2

end Encoding

section Cuts

variable {unicode : UnicodeData} {url part rest : Text} {links : Dict Text Text}

theorem foldl_readAttribute (pieces : List Text) : pieces.foldl (readAttribute unicode url) links =
      (attributeReadings unicode url pieces).foldl
        (fun links reading => links.alter reading.1 reading.2 fun _ => reading.2) links := by
  induction pieces generalizing links with
  | nil =>
    rw [attributeReadings]
    split
    · rfl
    · rfl
  | cons piece pieces ih =>
    rw [List.foldl_cons, ih, readAttribute]
    by_cases filled : url ≠ []
    · simp only [attributeReadings, if_pos filled, List.filterMap_cons]
      cases relOf unicode piece with
      | none => rfl
      | some rel => rfl
    · simp only [attributeReadings, if_neg filled, List.foldl_nil]
      cases relOf unicode piece with
      | none => rfl
      | some rel => rfl

theorem readPart_eq (part : Text) : readPart unicode links part = (partReadings unicode part).foldl
      (fun links reading => links.alter reading.1 reading.2 fun _ => reading.2) links := by
  rw [readPart, partReadings]
  split
  · rfl
  · dsimp only
    split
    · exact foldl_readAttribute _
    · rfl

theorem parseLinkHeader_eq (value : Text) : parseLinkHeader unicode value =
    ((split ',' value).flatMap (partReadings unicode)).foldl
      (fun links reading => links.alter reading.1 reading.2 fun _ => reading.2) .empty := by
  have folded : ∀ (parts : List Text) (links : Dict Text Text),
      parts.foldl (readPart unicode) links = (parts.flatMap (partReadings unicode)).foldl
          (fun links reading => links.alter reading.1 reading.2 fun _ => reading.2) links := by
    intro parts
    induction parts with
    | nil =>
      intro links
      rfl
    | cons part parts ih =>
      intro links
      rw [List.foldl_cons, ih, readPart_eq, List.flatMap_cons, List.foldl_append]
  rw [parseLinkHeader]
  split
  · next empty =>
    cases empty
    rfl
  · exact folded _ _

theorem get_parseLinkHeader (value rel : Text) : (parseLinkHeader unicode value).get rel =
    ((LastByKey.byKey Prod.fst ((split ',' value).flatMap (partReadings unicode))).get rel).map
      Prod.snd := by
  rw [parseLinkHeader_eq]
  generalize (split ',' value).flatMap (partReadings unicode) = readings
  induction readings using List.reverseRecOn with
  | nil => rfl
  | append_singleton readings reading ih =>
    rw [List.foldl_append, List.foldl_cons, List.foldl_nil, Dict.get_alter, ih,
      LastByKey.byKey_append_singleton, Dict.get_alter]
    split
    · rfl
    · rfl

theorem partReadings_of_cut {first : Text} {pieces : List Text}
    (cut : split ';' part = first :: pieces) (unclosed : '>' ∉ first) :
    partReadings unicode part = [] := by
  rw [partReadings, cut]
  exact if_neg fun bracketed =>
    unclosed (mem_of_mem_strip (List.mem_of_getLast? bracketed.2))

theorem partReadings_of_notMem (unclosed : '>' ∉ part) : partReadings unicode part = [] := by
  cases cut : split ';' part with
  | nil => exact absurd cut (split_ne_nil ';' part)
  | cons first pieces =>
    exact partReadings_of_cut cut fun mem =>
      unclosed (mem_of_mem_split (cut ▸ List.mem_cons_self) mem)

theorem partReadings_of_closing (bare : '<' ∉ url) :
    partReadings unicode (url ++ '>' :: rest) = [] := by
  rw [partReadings]
  split
  · rfl
  · next first pieces cut =>
    refine if_neg fun bracketed => ?_
    obtain ⟨blanks, left, whole, blank⟩ := exists_of_head?_strip bracketed.1
    obtain ⟨more, begins⟩ := split_head_prefix cut
    rw [whole, List.append_assoc] at begins
    -- The opening bracket stands behind the closing one, which is no blank.
    have passed : '>' ∈ blanks := by
      rcases List.append_eq_append_iff.mp begins with ⟨between, same, tail⟩ | ⟨between, same, tail⟩
      · cases between with
        | nil => cases tail
        | cons c between =>
          obtain rfl := (List.cons.inj tail).1
          exact absurd (same ▸ List.mem_append_right _ List.mem_cons_self) bare
      · cases between with
        | nil => cases tail
        | cons c between =>
          obtain rfl := (List.cons.inj tail).1
          exact same ▸ List.mem_append_right _ List.mem_cons_self
    have := blank '>' passed
    cases this

theorem partReadings_link (whole : ';' ∉ url) :
    partReadings unicode ('<' :: url ++ '>' :: ';' :: rest) =
      attributeReadings unicode (strip isSpace url) (split ';' rest) := by
  have first : ';' ∉ '<' :: url ++ ['>'] := by
    simp [whole]
  have cut : split ';' ('<' :: url ++ '>' :: ';' :: rest) =
      ('<' :: url ++ ['>']) :: split ';' rest := by
    have := split_append_cons first rest
    simpa using this
  have kept : strip isSpace ('<' :: url ++ ['>']) = '<' :: url ++ ['>'] := by
    refine strip_eq_self ?_ ?_
    · intro c head
      cases head
      rfl
    · intro c last
      rw [List.getLast?_append] at last
      cases last
      rfl
  have last : ('<' :: url ++ ['>']).getLast? = some '>' := by
    rw [List.getLast?_append]
    rfl
  have inner : (('<' :: url ++ ['>']).drop 1).dropLast = url := by
    rw [List.cons_append, List.drop_one, List.tail_cons, List.dropLast_concat]
  rw [partReadings, cut]
  dsimp only
  rw [kept, if_pos ⟨rfl, last⟩, inner]

theorem readings_closing (url rest : Text) (bare : '<' ∉ url ∧ '>' ∉ url) :
    (split ',' (url ++ '>' :: rest)).flatMap (partReadings unicode) =
      ((split ',' rest).drop 1).flatMap (partReadings unicode) := by
  by_cases comma : ',' ∈ url
  · obtain ⟨a, b, shape, first⟩ := List.eq_append_cons_of_mem comma
    rw [shape] at bare
    simp only [List.mem_append, List.mem_cons, not_or] at bare
    rw [shape, List.append_assoc, List.cons_append, split_append_cons first, List.flatMap_cons,
      partReadings_of_notMem bare.2.1, List.nil_append]
    exact readings_closing b rest ⟨bare.1.2.2, bare.2.2.2⟩
  · have whole : ',' ∉ url ++ ['>'] := by simp [comma]
    obtain ⟨part, parts, cut, whole⟩ := split_append_of_notMem whole rest
    rw [List.append_assoc, List.singleton_append] at whole
    rw [whole, cut, List.flatMap_cons, List.append_assoc, List.singleton_append,
      partReadings_of_closing bare.1, List.nil_append]
    rfl
termination_by url.length
decreasing_by
  rw [shape, List.length_append, List.length_cons]
  omega

/-- **What a link is read as.** -/
theorem readings_text (link : Link unicode) :
    (split ',' link.text).flatMap (partReadings unicode) = link.recovered := by
  obtain ⟨behind, tail⟩ : ∃ behind, link.tail = ';' :: behind := ⟨_, rfl⟩
  rw [Link.text, Link.recovered]
  by_cases comma : ',' ∈ link.url
  · obtain ⟨a, b, url, first⟩ := List.eq_append_cons_of_mem comma
    have bare := link.url_bare
    rw [url] at bare
    simp only [List.mem_append, List.mem_cons, not_or] at bare
    have before : ',' ∉ '<' :: a := by simp [first]
    have opening : '>' ∉ '<' :: a := by simp [bare.2.1]
    have cut := split_append_cons before (b ++ '>' :: link.tail)
    simp only [List.cons_append] at cut
    rw [if_neg fun whole => whole.1 comma, List.nil_append, url, List.cons_append,
      List.append_assoc, List.cons_append, cut, List.flatMap_cons, partReadings_of_notMem opening,
      List.nil_append]
    exact readings_closing b link.tail ⟨bare.1.2.2, bare.2.2.2⟩
  · have before : ',' ∉ '<' :: link.url ++ ['>'] := by simp [comma]
    obtain ⟨part, parts, cut, whole⟩ := split_append_of_notMem before link.tail
    rw [List.append_assoc, List.singleton_append] at whole
    rw [whole, cut, List.flatMap_cons]
    congr 1
    have begins : ∃ own, part = ';' :: own := by
      have apart : ',' ∉ [';'] := by simp
      obtain ⟨own, _, -, cutTail⟩ := split_append_of_notMem apart behind
      rw [tail] at cut
      have same := cut.symm.trans cutTail
      exact ⟨own, (List.cons.inj same).1⟩
    obtain ⟨own, rfl⟩ := begins
    by_cases semicolon : ';' ∈ link.url
    · obtain ⟨a, b, url, first⟩ := List.eq_append_cons_of_mem semicolon
      have bare := link.url_bare.2
      rw [url] at bare
      simp only [List.mem_append, not_or] at bare
      have before : ';' ∉ '<' :: a := by simp [first]
      have opening : '>' ∉ '<' :: a := by simp [bare.1]
      have cut : split ';' ('<' :: (a ++ ';' :: b) ++ ['>'] ++ ';' :: own) =
          ('<' :: a) :: split ';' (b ++ '>' :: ';' :: own) := by
        simpa using split_append_cons before (b ++ '>' :: ';' :: own)
      rw [if_neg fun whole => whole.2 semicolon, url]
      exact partReadings_of_cut cut opening
    · rw [if_pos ⟨comma, semicolon⟩]
      have pieces : split ';' (';' :: own) = [] :: split ';' own :=
        split_append_cons List.not_mem_nil own
      rw [List.head?_cons, Option.getD_some, pieces, List.drop_one, List.tail_cons,
        ← partReadings_link semicolon]
      simp

theorem partReadings_blank (part : Text) :
    partReadings unicode (' ' :: part) = partReadings unicode part := by
  have apart : ';' ∉ [' '] := by simp
  obtain ⟨first, pieces, cut, whole⟩ := split_append_of_notMem apart part
  rw [List.singleton_append] at whole
  rw [partReadings, partReadings, cut, whole]
  rfl

theorem readings_blank (rest : Text) : (split ',' (' ' :: rest)).flatMap (partReadings unicode) =
      (split ',' rest).flatMap (partReadings unicode) := by
  have apart : ',' ∉ [' '] := by simp
  obtain ⟨part, parts, cut, whole⟩ := split_append_of_notMem apart rest
  rw [List.singleton_append] at whole
  rw [cut, whole, List.flatMap_cons, List.flatMap_cons, List.singleton_append, partReadings_blank]

theorem readings_render (links : List (Link unicode)) :
    (split ',' (render links)).flatMap (partReadings unicode) = links.flatMap Link.recovered := by
  induction links with
  | nil => rfl
  | cons link links ih =>
    cases links with
    | nil =>
      have single : render [link] = link.text := by
        rw [render, List.map_singleton, join, List.intercalate_singleton]
      rw [single, readings_text, List.flatMap_singleton]
    | cons next links =>
      have apart : render (link :: next :: links) =
          link.text ++ ',' :: ' ' :: render (next :: links) := by
        rw [render, List.map_cons, List.map_cons, join, List.intercalate_cons_cons]
        simp [render, join]
      rw [apart, split_append_sep, List.flatMap_append, readings_text, readings_blank, ih]
      rfl

end Cuts

section Decoding

variable {unicode : UnicodeData} {links : List (Link unicode)}

theorem get_render (rel : Text) : (parseLinkHeader unicode (render links)).get rel =
    ((LastByKey.byKey Prod.fst (links.flatMap Link.recovered)).get rel).map Prod.snd := by
  rw [get_parseLinkHeader, readings_render]

theorem nextAndLast_url : '<' ∉ "https://a.test/p?after=9".toList ∧
    '>' ∉ "https://a.test/p?after=9".toList := by decide

theorem nextAndLast_types : ∀ t ∈ ["next".toList, "last".toList],
    t ≠ [] ∧ '"' ∉ t ∧ ∀ c ∈ t, isSpace c = false := by simp [isSpace]

/-- A link to the next and the last page of a list. -/
def nextAndLast : Link UnicodeData.ascii where
  url := "https://a.test/p?after=9".toList
  types := ["next".toList, "last".toList]
  params := []
  url_bare := nextAndLast_url
  types_bare := nextAndLast_types
  names_bare := List.forall_mem_nil _
  values_bare := List.forall_mem_nil _

theorem commaCursor_url : '<' ∉ "https://a.test/p?ids=1,2".toList ∧
    '>' ∉ "https://a.test/p?ids=1,2".toList := by decide

theorem commaCursor_types : ∀ t ∈ ["next".toList],
    t ≠ [] ∧ '"' ∉ t ∧ ∀ c ∈ t, isSpace c = false := by simp [isSpace]

/-- A cursor with a comma. -/
def commaCursor : Link UnicodeData.ascii where
  url := "https://a.test/p?ids=1,2".toList
  types := ["next".toList]
  params := []
  url_bare := commaCursor_url
  types_bare := commaCursor_types
  names_bare := List.forall_mem_nil _
  values_bare := List.forall_mem_nil _

end Decoding

end Rankuno.LinkHeader
