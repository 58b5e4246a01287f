import Rankuno.NavMenu.BuildTree
import Rankuno.UrlKeys.Normalize

/-!
# The links of a job bundle

`job_bundle.py`: a bundle that is imported is walked for the URLs that are rendered, and is
refused if one of them is not a link to the web. The scheme is read as a browser reads it.
-/

namespace Rankuno.JobBundle

open Python Python.Text Python.Urllib

/-- The URLs of a classified page. -/
structure FullPageIntelligenceProfile where
  url : Text
  canonicalUrl : Text
  breadcrumbParentUrl : Text := []
  finalUrl : Text := []
  redirectChain : List Text := []
  navParentUrl : Option Text := none

structure PageClassificationInput where
  baseUrl : Text
  seedUrls : List Text := []
  excludeUrls : List Text := []

/-- The URLs of a crawl's output: its own, that of its discovery, those of its pages and those
of its menu. -/
structure PageClassificationOutput where
  baseUrl : Text
  discoveryBaseUrl : Text
  pages : List FullPageIntelligenceProfile := []
  roots : Forest NavMenu.NavNode := .nil

structure JobImportBundle where
  request : PageClassificationInput
  result : PageClassificationOutput

section Code

/-- `_ALLOWED_SCHEMES`. -/
def allowedSchemes : List Text := ["http".toList, "https".toList]

def isAllowed (scheme : Text) : Bool := allowedSchemes.any fun allowed => allowed = scheme

/-- `_TAB_OR_NEWLINE.sub("", value.strip(_C0_AND_SPACE))`. -/
def cleaned (value : Text) : Text :=
  (strip isC0ControlOrSpace value).filter fun c => !isUnsafeUrlByte c

/-- `_SCHEME`. -/
def isScheme (head : Text) : Bool := head.head?.any isAsciiAlpha && head.all isSchemeChar

/-- `url_scheme`. -/
def urlScheme (value : Text) : Option Text :=
  match partition ':' (cleaned value) with
  | (_, none) => none
  | (head, some _) => if isScheme head then some (lowerAscii head) else none

variable (unicode : UnicodeData)

/-- `_strict_ok`. -/
def strictOk (value : Text) : Bool :=
  (urlScheme value).any isAllowed &&
    match urlsplit unicode (cleaned value) with
    | .error _ => false
    | .ok parts => (parts.hostname unicode).any fun host => !host.isEmpty

/-- `_canonical_ok`. -/
def canonicalOk (value : Text) : Bool :=
  match urlScheme value with
  | none => true
  | some scheme => isAllowed scheme || scheme.any fun c => c = '.'

/-- `f"{at}[{i}]"` for each of some values, with the check they have to pass. -/
def numbered (check : Text → Bool) (place : Text) (values : List Text) :
    List (Text × Text × (Text → Bool)) :=
  values.zipIdx.map fun value => (place ++ '[' :: ofNat value.2 ++ [']'], value.1, check)

/-- The values of one page. -/
def pageValues (place : Text) (page : FullPageIntelligenceProfile) :
    List (Text × Text × (Text → Bool)) :=
  [(place ++ ".url".toList, page.url, strictOk unicode),
    (place ++ ".canonical_url".toList, page.canonicalUrl, canonicalOk)] ++
  (if page.breadcrumbParentUrl.isEmpty then []
    else [(place ++ ".breadcrumb_parent_url".toList, page.breadcrumbParentUrl, canonicalOk)]) ++
  (if page.finalUrl.isEmpty then []
    else [(place ++ ".final_url".toList, page.finalUrl, strictOk unicode)]) ++
  numbered (strictOk unicode) (place ++ ".redirect_chain".toList) page.redirectChain ++
  page.navParentUrl.toList.map fun url =>
    (place ++ ".nav_parent_url".toList, url, strictOk unicode)

/-- `f"{at}.children[{i}]"`. -/
def childPlace (place : Text) (i : Nat) : Text :=
  place ++ ".children[".toList ++ ofNat i ++ [']']

/-- `f"result.navigation.roots[{i}]"`. -/
def rootPlace (i : Nat) : Text := "result.navigation.roots[".toList ++ ofNat i ++ [']']

/-- The nodes of the menu in the order in which the stack gives them up. -/
def navigationNodes (roots : Forest NavMenu.NavNode) : List (Text × NavMenu.NavNode) :=
  Forest.popped childPlace roots.size (roots.trees rootPlace 0).reverse

/-- `_url_values`. -/
def urlValues (bundle : JobImportBundle) : List (Text × Text × (Text → Bool)) :=
  ("request.base_url".toList, bundle.request.baseUrl, strictOk unicode) ::
    (numbered (strictOk unicode) "request.seed_urls".toList bundle.request.seedUrls ++
      numbered (strictOk unicode) "request.exclude_urls".toList bundle.request.excludeUrls ++
      [("result.base_url".toList, bundle.result.baseUrl, strictOk unicode),
        ("result.discovery.base_url".toList, bundle.result.discoveryBaseUrl, strictOk unicode)] ++
      (bundle.result.pages.zipIdx.flatMap fun page =>
        pageValues unicode ("result.pages[".toList ++ ofNat page.2 ++ [']']) page.1) ++
      (navigationNodes bundle.result.roots).flatMap fun node =>
        node.2.url.toList.map fun url => (node.1 ++ ".url".toList, url, strictOk unicode))

/-- `audit_url_schemes`. -/
def auditUrlSchemes (bundle : JobImportBundle) : List Text :=
  ((urlValues unicode bundle).filter fun value => !value.2.2 value.2.1).map Prod.fst

end Code

section Browser

/-- The text between the first and the last character above the blank. -/
def trimmed (value : Text) : Text :=
  ((value.dropWhile isC0ControlOrSpace).reverse.dropWhile isC0ControlOrSpace).reverse

/-- The state of a browser that reads a scheme, with the letters read so far. -/
def readScheme (buffer : Text) : Text → Option Text
  | [] => none
  | c :: rest =>
    if c = ':' then some buffer
    else if isSchemeChar c then readScheme (buffer ++ [c.toLower]) rest
    else none

/-- The scheme that a browser reads: controls and blanks at both ends are left out, as are tabs
and line ends, and the first character has to be a letter. -/
def browserScheme (value : Text) : Option Text :=
  match (trimmed value).filter fun c => c ≠ '\t' && c ≠ '\n' && c ≠ '\r' with
  | [] => none
  | c :: rest => if isAsciiAlpha c then readScheme [c.toLower] rest else none

/-- The host of an authority: after the user, in brackets if there are any, else up to the
port. -/
def authorityHost (authority : Text) : Text :=
  let hostPort := (authority.reverse.takeWhile fun c => c ≠ '@').reverse
  match partition '[' hostPort with
  | (_, some bracketed) => bracketed.takeWhile fun c => c ≠ ']'
  | (_, none) => hostPort.takeWhile fun c => c ≠ ':'

/-- After the scheme comes an authority with a host. -/
def HasHost (value : Text) : Prop :=
  ∃ scheme authority rest, (trimmed value).filter (fun c => c ≠ '\t' && c ≠ '\n' && c ≠ '\r') =
      scheme ++ ':' :: '/' :: '/' :: (authority ++ rest) ∧
    scheme.all isSchemeChar = true ∧
    (authority.all fun c => c ≠ '/' && c ≠ '?' && c ≠ '#') = true ∧
    (rest.head?.all fun c => c = '/' || c = '?' || c = '#') = true ∧
    authorityHost authority ≠ []

/-- A link that a browser follows to a host of the web. -/
structure WebLink (value : Text) : Prop where
  scheme : browserScheme value = some "http".toList ∨ browserScheme value = some "https".toList
  host : HasHost value

/-- A value without a scheme, with a scheme of the web, or with one that has a dot. -/
def DeclaredLink (value : Text) : Prop :=
  browserScheme value = none ∨ browserScheme value = some "http".toList ∨
    browserScheme value = some "https".toList ∨
    ∃ scheme, browserScheme value = some scheme ∧ '.' ∈ scheme

/-- Every URL of the bundle that is rendered as a link is one to the web. -/
structure LinksToTheWeb (bundle : JobImportBundle) : Prop where
  request : ∀ url ∈ bundle.request.baseUrl :: bundle.request.seedUrls ++ bundle.request.excludeUrls,
    WebLink url
  result : WebLink bundle.result.baseUrl ∧ WebLink bundle.result.discoveryBaseUrl
  page : ∀ page ∈ bundle.result.pages, WebLink page.url ∧
    (page.finalUrl ≠ [] → WebLink page.finalUrl) ∧ (∀ hop ∈ page.redirectChain, WebLink hop) ∧
      ∀ parent, page.navParentUrl = some parent → WebLink parent
  declared : ∀ page ∈ bundle.result.pages, DeclaredLink page.canonicalUrl ∧
    DeclaredLink page.breadcrumbParentUrl
  navigation : ∀ node ∈ bundle.result.roots.preorder, ∀ url, node.url = some url → WebLink url

end Browser

section Scheme

variable {value head rest : Text}

theorem takeWhile_partition (sep : Char) (s : Text) :
    (partition sep s).1 = s.takeWhile fun c => c ≠ sep := by
  induction s with
  | nil => rfl
  | cons c s ih =>
    rw [partition]
    by_cases same : c = sep
    · rw [if_pos same, List.takeWhile_cons_of_neg]
      rw [same]
      simp
    · rw [if_neg same, List.takeWhile_cons_of_pos, ← ih]
      exact decide_eq_true same

theorem takeWhile_rpartition (sep : Char) (s : Text) :
    (rpartition sep s).2 = (s.reverse.takeWhile fun c => c ≠ sep).reverse := by
  rw [← takeWhile_partition, rpartition]
  split
  · next found =>
    by_cases mem : sep ∈ s.reverse
    · obtain ⟨before, after, -, -, cut⟩ := exists_partition mem
      rw [cut] at found
      cases found
    · rw [partition_of_notMem mem, List.reverse_reverse]
  · next after before found => rw [found]

theorem cleaned_eq (value : Text) :
    cleaned value = (trimmed value).filter fun c => c ≠ '\t' && c ≠ '\n' && c ≠ '\r' := by
  rw [cleaned]
  refine congrArg (fun p => List.filter p (trimmed value)) (funext fun c => ?_)
  rw [isUnsafeUrlByte, Bool.not_or, Bool.not_or, Bool.and_assoc, Bool.and_assoc,
    Bool.and_comm (!decide (c = '\r')), decide_not, decide_not, decide_not]

theorem readScheme_eq (buffer s : Text) : readScheme buffer s =
    match partition ':' s with
    | (_, none) => none
    | (head, some _) =>
      if head.all isSchemeChar then some (buffer ++ lowerAscii head) else none := by
  induction s generalizing buffer with
  | nil => rfl
  | cons c s ih =>
    rw [readScheme, partition]
    by_cases colon : c = ':'
    · rw [if_pos colon, if_pos colon]
      exact congrArg some (List.append_nil buffer).symm
    · rw [if_neg colon, if_neg colon, ih]
      generalize partition ':' s = parts
      obtain ⟨head, after⟩ := parts
      by_cases letter : isSchemeChar c
      · rw [if_pos letter]
        cases after with
        | none => rfl
        | some after =>
          simp only [List.all_cons, letter, Bool.true_and, lowerAscii, List.map_cons,
            List.append_assoc, List.singleton_append]
      · rw [if_neg letter]
        cases after with
        | none => rfl
        | some after => simp only [List.all_cons, letter, Bool.false_and, if_false,
            Bool.false_eq_true]

theorem isSchemeChar_of_isAsciiAlpha {c : Char} (letter : isAsciiAlpha c = true) :
    isSchemeChar c = true := by
  rw [isSchemeChar, letter]
  rfl

theorem urlScheme_eq (value : Text) : urlScheme value = browserScheme value := by
  rw [urlScheme, browserScheme, cleaned_eq]
  generalize (trimmed value).filter _ = clean
  cases clean with
  | nil => rfl
  | cons c rest =>
    dsimp only
    rw [readScheme_eq, partition]
    by_cases colon : c = ':'
    · subst colon
      rfl
    · rw [if_neg colon]
      generalize partition ':' rest = parts
      obtain ⟨head, after⟩ := parts
      cases after with
      | none =>
        dsimp only
        rw [ite_self]
      | some after =>
        by_cases letter : isAsciiAlpha c
        · simp only [isScheme, List.head?_cons, Option.any_some, letter, List.all_cons,
            isSchemeChar_of_isAsciiAlpha letter, Bool.true_and, lowerAscii, List.map_cons,
            List.singleton_append, if_true]
        · simp only [isScheme, List.head?_cons, Option.any_some, letter, Bool.false_and,
            Bool.false_eq_true, if_false]

theorem exists_of_urlScheme {scheme : Text} (read : urlScheme value = some scheme) :
    ∃ head rest, cleaned value = head ++ ':' :: rest ∧ ':' ∉ head ∧ isScheme head = true ∧
      lowerAscii head = scheme := by
  rw [urlScheme] at read
  by_cases colon : ':' ∈ cleaned value
  · obtain ⟨head, rest, apart, whole, cut⟩ := exists_partition colon
    rw [cut] at read
    dsimp only at read
    split at read
    · next named => exact ⟨head, rest, whole, apart, named, Option.some.inj read⟩
    · cases read
  · rw [partition_of_notMem colon] at read
    cases read

theorem cleaned_cleaned (whole : cleaned value = head ++ ':' :: rest)
    (named : isScheme head = true) : UrlKeys.cleaned (cleaned value) = cleaned value := by
  have first : lstrip isC0ControlOrSpace (cleaned value) = cleaned value := by
    rw [whole]
    cases head with
    | nil => cases named
    | cons c head =>
      have letter : isAsciiAlpha c = true := (Bool.and_eq_true _ _ ▸ named).1
      refine List.dropWhile_cons_of_neg fun blank => ?_
      rw [isC0ControlOrSpace, decide_eq_true_eq] at blank
      rw [isAsciiAlpha, Bool.or_eq_true, Bool.and_eq_true, Bool.and_eq_true,
        decide_eq_true_eq, decide_eq_true_eq, decide_eq_true_eq] at letter
      omega
  rw [UrlKeys.cleaned, first, cleaned, withoutUnsafe, List.filter_filter]
  refine congrArg (fun p => List.filter p (strip isC0ControlOrSpace value)) (funext fun c => ?_)
  exact Bool.and_self _

end Scheme

section Host

variable {unicode : UnicodeData} {value : Text} {parts : SplitResult}

theorem hostinfo_eq_authorityHost (parts : SplitResult) :
    parts.hostinfo.1 = authorityHost parts.netloc := by
  rw [SplitResult.hostinfo, authorityHost, ← takeWhile_rpartition]
  dsimp only
  generalize partition '[' (rpartition '@' parts.netloc).2 = cut
  obtain ⟨before, bracketed⟩ := cut
  cases bracketed with
  | none => exact takeWhile_partition ':' _
  | some bracketed => exact takeWhile_partition ']' _

theorem hostinfo_ne_nil {host : Text} (named : parts.hostname unicode = some host) :
    parts.hostinfo.1 ≠ [] := by
  intro empty
  rw [SplitResult.hostname, if_pos empty] at named
  cases named

theorem exists_authority {rest host : Text} (netloc : parts.netloc =
      if rest.take 2 = ['/', '/'] then (rest.drop 2).takeWhile isNetlocChar else [])
    (named : parts.hostname unicode = some host) :
    ∃ authority after, rest = '/' :: '/' :: (authority ++ after) ∧
      (authority.all fun c => c ≠ '/' && c ≠ '?' && c ≠ '#') = true ∧
      (after.head?.all fun c => c = '/' || c = '?' || c = '#') = true ∧
      authorityHost authority ≠ [] := by
  have filled := hostinfo_ne_nil named
  rw [hostinfo_eq_authorityHost, netloc] at filled
  by_cases slashes : rest.take 2 = ['/', '/']
  · rw [if_pos slashes] at filled
    refine ⟨(rest.drop 2).takeWhile isNetlocChar, (rest.drop 2).dropWhile isNetlocChar, ?_, ?_,
      ?_, filled⟩
    · rw [List.takeWhile_append_dropWhile]
      exact (List.take_append_drop 2 rest).symm.trans (congrArg (· ++ rest.drop 2) slashes)
    · rw [List.all_eq_true]
      intro c mem
      have inside := List.mem_takeWhile_imp mem
      rw [isNetlocChar, decide_eq_true_eq] at inside
      simp [inside.1, inside.2.1, inside.2.2]
    · cases first : (rest.drop 2).dropWhile isNetlocChar with
      | nil => rfl
      | cons c after =>
        have stops := List.head?_dropWhile_not isNetlocChar (rest.drop 2)
        rw [first] at stops
        simp only [List.head?_cons, Option.all_some, isNetlocChar] at stops ⊢
        grind
  · rw [if_neg slashes] at filled
    exact absurd rfl filled

theorem isAllowed_iff {scheme : Text} :
    isAllowed scheme = true ↔ scheme = "http".toList ∨ scheme = "https".toList := by
  rw [isAllowed, allowedSchemes, List.any_cons, List.any_cons, List.any_nil, Bool.or_false,
    Bool.or_eq_true, decide_eq_true_eq, decide_eq_true_eq, eq_comm, @eq_comm _ "https".toList]

theorem webLink_of_strictOk (ok : strictOk unicode value = true) : WebLink value := by
  rw [strictOk, Bool.and_eq_true, Option.any_eq_true] at ok
  obtain ⟨⟨scheme, read, allowed⟩, hosted⟩ := ok
  obtain ⟨head, rest, whole, apart, named, lowered⟩ := exists_of_urlScheme read
  refine ⟨?_, ?_⟩
  · rw [← urlScheme_eq, read]
    exact (isAllowed_iff.mp allowed).imp (congrArg some) (congrArg some)
  · split at hosted
    · cases hosted
    · next parts cut =>
      rw [Option.any_eq_true] at hosted
      obtain ⟨host, found, -⟩ := hosted
      obtain ⟨-, netloc, -⟩ := UrlKeys.parts_of_urlsplit cut
      have tail : (splitScheme (cleaned value)).2 = rest := by
        rw [splitScheme, whole, partition_append_cons apart]
        dsimp only
        rw [← isScheme, if_pos named]
      rw [cleaned_cleaned whole named, UrlKeys.rawNetloc, tail] at netloc
      obtain ⟨authority, after, slashes, inside, stops, filled⟩ := exists_authority netloc found
      refine ⟨head, authority, after, ?_, ?_, inside, stops, filled⟩
      · rw [← cleaned_eq, whole, slashes]
      · exact (Bool.and_eq_true _ _ ▸ named).2

theorem declaredLink_of_canonicalOk (ok : canonicalOk value = true) : DeclaredLink value := by
  rw [canonicalOk, urlScheme_eq] at ok
  rw [DeclaredLink]
  split at ok
  · next none => exact Or.inl none
  · next scheme read =>
    rw [Bool.or_eq_true, isAllowed_iff, List.any_eq_true] at ok
    obtain (rfl | rfl) | ⟨c, mem, dot⟩ := ok
    · exact Or.inr (Or.inl read)
    · exact Or.inr (Or.inr (Or.inl read))
    · rw [decide_eq_true_eq] at dot
      exact Or.inr (Or.inr (Or.inr ⟨scheme, read, dot ▸ mem⟩))

end Host

section Audit

variable {unicode : UnicodeData} {bundle : JobImportBundle} {value : Text}

theorem mem_numbered {values : List Text} (check : Text → Bool) (place : Text)
    (mem : value ∈ values) : (value, check) ∈ (numbered check place values).map Prod.snd := by
  obtain ⟨i, inside, same⟩ := List.getElem_of_mem mem
  rw [numbered, List.map_map, List.mem_map]
  exact ⟨(value, i), List.mem_zipIdx_iff_getElem?.mpr (List.getElem?_eq_some_iff.mpr
    ⟨inside, same⟩), rfl⟩

theorem navigationNodes_perm (roots : Forest NavMenu.NavNode) :
    ((navigationNodes roots).map Prod.snd).Perm roots.preorder := by
  have all : (Forest.stacked (roots.trees rootPlace 0).reverse).Perm roots.preorder := by
    have pushed : (Forest.stacked ((roots.trees rootPlace 0).reverse ++ [])).Perm
        (roots.preorder ++ []) := Forest.stacked_push rootPlace []
    rwa [List.append_nil, List.append_nil] at pushed
  exact (Forest.popped_perm childPlace all.length_eq.le).trans all

theorem check_of_passed {check : Text → Bool} (passed : auditUrlSchemes unicode bundle = [])
    (mem : (value, check) ∈ (urlValues unicode bundle).map Prod.snd) : check value = true := by
  rw [auditUrlSchemes, List.map_eq_nil_iff, List.filter_eq_nil_iff] at passed
  obtain ⟨⟨place, pair⟩, found, same⟩ := List.mem_map.mp mem
  have held := passed _ found
  rw [Bool.not_eq_true', Bool.not_eq_false] at held
  cases same
  exact held

variable {page : FullPageIntelligenceProfile}

theorem mem_urlValues_page {check : Text → Bool}
    (mem : page ∈ bundle.result.pages)
    (checked : ∀ place, (value, check) ∈ (pageValues unicode place page).map Prod.snd) :
    (value, check) ∈ (urlValues unicode bundle).map Prod.snd := by
  obtain ⟨i, inside, same⟩ := List.getElem_of_mem mem
  obtain ⟨entry, found, read⟩ := List.mem_map.mp
    (checked ("result.pages[".toList ++ ofNat i ++ [']']))
  refine List.mem_map.mpr ⟨entry, List.mem_cons_of_mem _ (List.mem_append_left _
    (List.mem_append_right _ (List.mem_flatMap.mpr ⟨(page, i), ?_, found⟩))), read⟩
  exact List.mem_zipIdx_iff_getElem?.mpr (List.getElem?_eq_some_iff.mpr ⟨inside, same⟩)

theorem mem_urlValues_node {node : NavMenu.NavNode} (mem : node ∈ bundle.result.roots.preorder)
    (linked : node.url = some value) :
    (value, strictOk unicode) ∈ (urlValues unicode bundle).map Prod.snd := by
  rw [← (navigationNodes_perm bundle.result.roots).mem_iff] at mem
  obtain ⟨⟨place, found⟩, taken, rfl⟩ := List.mem_map.mp mem
  refine List.mem_map.mpr ⟨(place ++ ".url".toList, value, strictOk unicode),
    List.mem_cons_of_mem _ (List.mem_append_right _ (List.mem_flatMap.mpr
      ⟨(place, found), taken, ?_⟩)), rfl⟩
  dsimp only at linked ⊢
  rw [linked]
  exact List.mem_cons_self

variable (unicode bundle) in
theorem mem_urlValues_request
    (mem : value ∈ bundle.request.baseUrl :: bundle.request.seedUrls ++ bundle.request.excludeUrls ∨
      value = bundle.result.baseUrl ∨ value = bundle.result.discoveryBaseUrl) :
    (value, strictOk unicode) ∈ (urlValues unicode bundle).map Prod.snd := by
  have seeds := @mem_numbered value bundle.request.seedUrls (strictOk unicode)
    "request.seed_urls".toList
  have excludes := @mem_numbered value bundle.request.excludeUrls (strictOk unicode)
    "request.exclude_urls".toList
  rw [urlValues, List.map_cons, List.map_append, List.map_append, List.map_append, List.map_append]
  simp only [List.mem_append, List.mem_cons, List.map_cons, List.map_nil, Prod.mk.injEq,
    and_true] at mem ⊢
  obtain ((rfl | seed) | excluded) | rfl | rfl := mem
  · exact Or.inl rfl
  · exact Or.inr (Or.inl (Or.inl (Or.inl (Or.inl (seeds seed)))))
  · exact Or.inr (Or.inl (Or.inl (Or.inl (Or.inr (excludes excluded)))))
  · exact Or.inr (Or.inl (Or.inl (Or.inr (Or.inl rfl))))
  · exact Or.inr (Or.inl (Or.inl (Or.inr (Or.inr (Or.inl rfl)))))

theorem strict_pageValues (place : Text)
    (named : value = page.url ∨ value = page.finalUrl ∧ page.finalUrl ≠ [] ∨
      value ∈ page.redirectChain ∨ page.navParentUrl = some value) :
    (value, strictOk unicode) ∈ (pageValues unicode place page).map Prod.snd := by
  have hops := @mem_numbered value page.redirectChain (strictOk unicode)
    (place ++ ".redirect_chain".toList)
  simp only [pageValues, List.map_append, List.mem_append]
  obtain rfl | ⟨rfl, filled⟩ | hop | parent := named
  · exact Or.inl (Or.inl (Or.inl (Or.inl List.mem_cons_self)))
  · refine Or.inl (Or.inl (Or.inr ?_))
    rw [List.isEmpty_eq_false_iff.mpr filled]
    exact List.mem_cons_self
  · exact Or.inl (Or.inr (hops hop))
  · rw [parent]
    exact Or.inr List.mem_cons_self

theorem canonical_pageValues (place : Text)
    (named : value = page.canonicalUrl ∨
      value = page.breadcrumbParentUrl ∧ page.breadcrumbParentUrl ≠ []) :
    (value, canonicalOk) ∈ (pageValues unicode place page).map Prod.snd := by
  simp only [pageValues, List.map_append, List.mem_append]
  obtain rfl | ⟨rfl, filled⟩ := named
  · exact Or.inl (Or.inl (Or.inl (Or.inl (List.mem_cons_of_mem _ List.mem_cons_self))))
  · refine Or.inl (Or.inl (Or.inl (Or.inr ?_)))
    rw [List.isEmpty_eq_false_iff.mpr filled]
    exact List.mem_cons_self

/-- No link of a bundle that passes the audit leads a browser anywhere but to the web. -/
theorem linksToTheWeb_of_passed (unicode : UnicodeData) (bundle : JobImportBundle)
    (passed : auditUrlSchemes unicode bundle = []) : LinksToTheWeb bundle := by
  have link {value} (mem : (value, strictOk unicode) ∈ (urlValues unicode bundle).map Prod.snd) :
      WebLink value := webLink_of_strictOk (check_of_passed passed mem)
  have declared {page} (mem : page ∈ bundle.result.pages) {value}
      (named : value = page.canonicalUrl ∨
        value = page.breadcrumbParentUrl ∧ page.breadcrumbParentUrl ≠ []) : DeclaredLink value :=
    declaredLink_of_canonicalOk (check_of_passed passed
      (mem_urlValues_page mem fun place => canonical_pageValues place named))
  have rendered {page} (mem : page ∈ bundle.result.pages) {value}
      (named : value = page.url ∨ value = page.finalUrl ∧ page.finalUrl ≠ [] ∨
        value ∈ page.redirectChain ∨ page.navParentUrl = some value) : WebLink value :=
    link (mem_urlValues_page mem fun place => strict_pageValues place named)
  refine ⟨fun url mem => ?_, ⟨?_, ?_⟩, fun page mem => ⟨?_, ?_, ?_, ?_⟩, fun page mem => ⟨?_, ?_⟩,
    fun node mem url linked => link (mem_urlValues_node mem linked)⟩
  · exact link (mem_urlValues_request unicode bundle (Or.inl mem))
  · exact link (mem_urlValues_request unicode bundle (Or.inr (Or.inl rfl)))
  · exact link (mem_urlValues_request unicode bundle (Or.inr (Or.inr rfl)))
  · exact rendered mem (Or.inl rfl)
  · exact fun filled => rendered mem (Or.inr (Or.inl ⟨rfl, filled⟩))
  · exact fun hop found => rendered mem (Or.inr (Or.inr (Or.inl found)))
  · exact fun parent named => rendered mem (Or.inr (Or.inr (Or.inr named)))
  · exact declared mem (Or.inl rfl)
  · by_cases empty : page.breadcrumbParentUrl = []
    · rw [empty]
      exact Or.inl rfl
    · exact declared mem (Or.inr ⟨rfl, empty⟩)

/-- A crawl with a page, two levels of menu, and a canonical with a broken host. -/
def sampleBundle : JobImportBundle where
  request := { baseUrl := " hTTp\t://a.io".toList, seedUrls := ["https://u@[::1]:8/x".toList] }
  result := {
    baseUrl := "http://a.io/".toList
    discoveryBaseUrl := "http://a.io/".toList
    pages := [{
      url := "http://a.io/p".toList
      canonicalUrl := "www.http://a.io".toList
      navParentUrl := some "http://a.io/".toList }]
    roots := .cons { label := "A".toList, url := none }
      (.cons { label := "B".toList, url := some "http://a.io/p".toList } .nil .nil) .nil }

theorem linksToTheWeb_sampleBundle : LinksToTheWeb sampleBundle :=
  linksToTheWeb_of_passed UnicodeData.ascii sampleBundle (by decide)

end Audit

end Rankuno.JobBundle
