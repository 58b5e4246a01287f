import Mathlib.Data.List.Perm.Subperm
import Rankuno.Foundation.TiedChoices
import Rankuno.Performance.UrlIdentity

/-!
# Resolution and the order of the profiles

An index is built over one copy of each page, the first of the best-placed ones, and
answers with the page that is the first to claim an address. Reordering the profiles
reorders the pages, which no claim looks at, and picks other copies, whose aliases may
differ. The answer stands apart from the order exactly when it is settled among the
best-placed copies, whichever are picked.
-/

namespace Rankuno.Performance

open Python Python.Text UrlKeys TieredIndex TiedChoices

section Copies

variable (unicode : UnicodeData) (profiles : List FullPageIntelligenceProfile)

/-- No copy of the page is placed better. -/
def BestPlaced (page : FullPageIntelligenceProfile) : Prop :=
  page ∈ profiles ∧ ∀ copy ∈ profiles, pageKey unicode copy = pageKey unicode page →
    placementDepth copy.breadcrumbPath ≤ placementDepth page.breadcrumbPath

/-- One of the best-placed copies of each page. -/
abbrev Picks (pages : List FullPageIntelligenceProfile) : Prop :=
  Selects (pageKey unicode) (BestPlaced unicode profiles) pages

variable {unicode profiles} {held : Deduped unicode} {page : FullPageIntelligenceProfile}

theorem rows_keepBest_of_held {copy : FullPageIntelligenceProfile} (mem : copy ∈ held.1.rows)
    (same : pageKey unicode copy = pageKey unicode page) :
    (keepBest held page).1.rows = held.1.rows.map fun row =>
      if row = copy ∧ placementDepth copy.breadcrumbPath < placementDepth page.breadcrumbPath
      then page else row := by
  have taken : held.1.insert? page = none := by
    rw [Table.insert?_eq_none, ← same, Table.find?_key mem]
    rfl
  have rows : (keepBest held page).1.rows = held.1.rows.map fun row =>
      if decide (placementDepth row.breadcrumbPath < placementDepth page.breadcrumbPath) = true then
        if pageKey unicode row = pageKey unicode page then page else row
      else row := by
    rw [keepBest, taken]
    rfl
  rw [rows]
  refine List.map_congr_left fun row listed => ?_
  have own : pageKey unicode row = pageKey unicode page ↔ row = copy :=
    ⟨fun equal => List.inj_on_of_nodup_map held.1.keys_nodup listed mem (equal.trans same.symm),
      fun equal => equal ▸ same⟩
  simp only [own, decide_eq_true_eq]
  by_cases equal : row = copy
  · subst equal
    simp
  · simp [equal]

theorem rows_keepBest_of_placed {copy : FullPageIntelligenceProfile} (mem : copy ∈ held.1.rows)
    (same : pageKey unicode copy = pageKey unicode page)
    (placed : placementDepth page.breadcrumbPath ≤ placementDepth copy.breadcrumbPath) :
    (keepBest held page).1.rows = held.1.rows := by
  rw [rows_keepBest_of_held mem same]
  refine (List.map_congr_left fun row listed => ?_).trans (List.map_id _)
  exact if_neg fun worse => Nat.not_lt_of_le placed worse.2

theorem mem_keepBest_of_worse {copy row : FullPageIntelligenceProfile}
    (mem : copy ∈ held.1.rows) (same : pageKey unicode copy = pageKey unicode page)
    (worse : placementDepth copy.breadcrumbPath < placementDepth page.breadcrumbPath) :
    row ∈ (keepBest held page).1.rows ↔ row = page ∨ row ∈ held.1.rows ∧ row ≠ copy := by
  rw [rows_keepBest_of_held mem same, List.mem_map]
  constructor
  · rintro ⟨other, listed, rfl⟩
    by_cases equal : other = copy
    · rw [if_pos ⟨equal, worse⟩]
      exact Or.inl rfl
    · rw [if_neg fun both => equal both.1]
      exact Or.inr ⟨listed, equal⟩
  · rintro (rfl | ⟨listed, other⟩)
    · exact ⟨copy, mem, if_pos ⟨rfl, worse⟩⟩
    · exact ⟨row, listed, if_neg fun both => other both.1⟩

/-- The pages held are from the list, and none of it is placed better than its copy. -/
structure Covers (profiles pages : List FullPageIntelligenceProfile) (unicode : UnicodeData) :
    Prop where
  own : ∀ page ∈ pages, page ∈ profiles
  covers : ∀ page ∈ profiles, ∃ copy ∈ pages, pageKey unicode copy = pageKey unicode page ∧
    placementDepth page.breadcrumbPath ≤ placementDepth copy.breadcrumbPath

theorem Covers.keepBest (h : Covers profiles held.1.rows unicode) :
    Covers (profiles ++ [page]) (Performance.keepBest held page).1.rows unicode := by
  cases inserted : held.1.insert? page with
  | some pages =>
    obtain ⟨-, rows⟩ := Table.insert?_eq_some.mp inserted
    have kept : (Performance.keepBest held page).1.rows = held.1.rows ++ [page] := by
      rw [Performance.keepBest, inserted]
      exact rows
    rw [kept]
    constructor
    · intro row mem
      rw [List.mem_append] at mem ⊢
      exact mem.imp_left (h.own row)
    · intro row mem
      rcases List.mem_append.mp mem with mem | mem
      · obtain ⟨copy, listed, same⟩ := h.covers row mem
        exact ⟨copy, List.mem_append_left _ listed, same⟩
      · obtain rfl := List.mem_singleton.mp mem
        exact ⟨row, List.mem_append_right _ mem, rfl, Nat.le_refl _⟩
  | none =>
    obtain ⟨copy, found⟩ := Option.isSome_iff_exists.mp (Table.insert?_eq_none.mp inserted)
    obtain ⟨listed, same⟩ := Table.find?_eq_some.mp found
    by_cases placed : placementDepth page.breadcrumbPath ≤ placementDepth copy.breadcrumbPath
    · rw [rows_keepBest_of_placed listed same placed]
      refine ⟨fun row mem => List.mem_append_left _ (h.own row mem), fun row mem => ?_⟩
      rcases List.mem_append.mp mem with mem | mem
      · exact h.covers row mem
      · obtain rfl := List.mem_singleton.mp mem
        exact ⟨copy, listed, same, placed⟩
    · have worse := Nat.lt_of_not_le placed
      refine ⟨fun row mem => ?_, fun row mem => ?_⟩
      · rw [List.mem_append, List.mem_singleton]
        rcases (mem_keepBest_of_worse listed same worse).mp mem with rfl | ⟨mem, -⟩
        · exact Or.inr rfl
        · exact Or.inl (h.own row mem)
      · have here := (mem_keepBest_of_worse listed same worse).mpr (Or.inl rfl)
        rcases List.mem_append.mp mem with mem | mem
        · obtain ⟨kept, inside, equal, above⟩ := h.covers row mem
          by_cases replaced : kept = copy
          · subst replaced
            exact ⟨page, here, same.symm.trans equal, above.trans worse.le⟩
          · exact ⟨kept, (mem_keepBest_of_worse listed same worse).mpr
              (Or.inr ⟨inside, replaced⟩), equal, above⟩
        · obtain rfl := List.mem_singleton.mp mem
          exact ⟨row, here, rfl, Nat.le_refl _⟩

variable (unicode profiles) in
theorem covers_pages : Covers profiles (dedupeProfiles unicode profiles).1.rows unicode := by
  induction profiles using List.reverseRecOn with
  | nil => exact ⟨List.forall_mem_nil _, List.forall_mem_nil _⟩
  | append_singleton profiles page ih =>
    rw [dedupeProfiles, List.foldl_append]
    exact ih.keepBest

variable (unicode profiles) in
theorem picks_pages : Picks unicode profiles (dedupeProfiles unicode profiles).1.rows := by
  have covers := covers_pages unicode profiles
  have nodup := (dedupeProfiles unicode profiles).1.keys_nodup
  refine ⟨nodup, fun page mem => ⟨covers.own page mem, fun copy listed same => ?_⟩,
    fun page best => ?_⟩
  · obtain ⟨kept, inside, equal, above⟩ := covers.covers copy listed
    obtain rfl := List.inj_on_of_nodup_map nodup inside mem (equal.trans same)
    exact above
  · obtain ⟨kept, inside, equal, -⟩ := covers.covers page best.1
    exact ⟨kept, inside, equal⟩

theorem rows_dedupe_of_nodup {pages : List FullPageIntelligenceProfile}
    (nodup : (pages.map (pageKey unicode)).Nodup) :
    (dedupeProfiles unicode pages).1.rows = pages := by
  induction pages using List.reverseRecOn with
  | nil => rfl
  | append_singleton pages page ih =>
    rw [List.map_append, List.nodup_append] at nodup
    obtain ⟨nodup, -, apart⟩ := nodup
    have held := ih nodup
    rw [dedupeProfiles, List.foldl_append, ← dedupeProfiles, List.foldl_cons, List.foldl_nil]
    cases inserted : (dedupeProfiles unicode pages).1.insert? page with
    | some kept =>
      obtain ⟨-, rows⟩ := Table.insert?_eq_some.mp inserted
      rw [keepBest, inserted]
      exact rows.trans (by rw [held])
    | none =>
      obtain ⟨copy, found⟩ := Option.isSome_iff_exists.mp (Table.insert?_eq_none.mp inserted)
      obtain ⟨listed, same⟩ := Table.find?_eq_some.mp found
      rw [held] at listed
      exact absurd same (apart _ (List.mem_map_of_mem listed) _ List.mem_cons_self)

/-- **Whatever is picked is kept in some order of the profiles.** -/
theorem exists_perm_pages {pages : List FullPageIntelligenceProfile}
    (picks : Picks unicode profiles pages) :
    ∃ profiles', profiles'.Perm profiles ∧ (dedupeProfiles unicode profiles').1.rows = pages := by
  obtain ⟨same, perm, sub⟩ :=
    List.subperm_of_subset picks.distinct fun page mem => (picks.own page mem).1
  obtain ⟨rest, whole⟩ := sub.exists_perm_append
  refine ⟨pages ++ rest, (perm.symm.append_right rest).trans whole.symm, ?_⟩
  have among : ∀ page ∈ rest, page ∈ profiles := fun page mem =>
    whole.mem_iff.mpr (List.mem_append_right _ mem)
  clear whole
  induction rest using List.reverseRecOn with
  | nil => rw [List.append_nil, rows_dedupe_of_nodup picks.nodup]
  | append_singleton rest page ih =>
    have held := ih fun page mem => among page (List.mem_append_left _ mem)
    obtain ⟨kept, inside, equal, -⟩ := (covers_pages unicode profiles).covers page
      (among page (List.mem_append_right _ List.mem_cons_self))
    obtain ⟨copy, mem, same⟩ := picks.total kept ((picks_pages unicode profiles).own kept inside)
    have placed := (picks.own copy mem).2 page
      (among page (List.mem_append_right _ List.mem_cons_self)) (same.trans equal).symm
    rw [dedupeProfiles, ← List.append_assoc, List.foldl_append, ← dedupeProfiles]
    exact (rows_keepBest_of_placed (held.symm ▸ mem) (same.trans equal) placed).trans held

end Copies

/-- A look at one source of aliases, and the tier its matches are reported under. -/
structure Look where
  step : Step
  field : FullPageIntelligenceProfile → Text
  label : MatchTier

/-- The page has an alias with the key of the address. -/
def Look.claims (unicode : UnicodeData) (url : Text) (look : Look)
    (page : FullPageIntelligenceProfile) : Bool :=
  look.field page ≠ [] ∧ (look.step.key unicode url).isSome ∧
    look.step.key unicode (look.field page) = look.step.key unicode url

def looksOf (step : Step) (via : MatchTier → MatchTier) : List Look :=
  sources.map fun source => ⟨step, source.1, via source.2⟩

/-- The looks at a level: the keys as they are, then the folded ones. -/
def looksAt (level : Level) (via : MatchTier → MatchTier) : List Look :=
  looksOf ⟨level, false⟩ via ++ looksOf ⟨level, true⟩ fun _ => .caseFolded

/-- The looks with the host of the address. -/
def absoluteLooks : List Look := looksAt .absolute fun tier => tier

/-- The looks without it. -/
def pathLooks : List Look := (looksAt .path fun tier => tier) ++ looksAt .bare fun _ => .barePath

/-- What the pages claim of an address. -/
abbrev claimed (unicode : UnicodeData) (url : Text) (pages : List FullPageIntelligenceProfile)
    (looks : List Look) : TieredIndex.Verdict FullPageIntelligenceProfile MatchTier :=
  decided (Look.claims unicode url) Look.label pages looks

/-- The answer of a verdict, or of what is tried where it has none. -/
def Resolution.ofVerdict (googleUrl : Text) (next : Resolution) :
    TieredIndex.Verdict FullPageIntelligenceProfile MatchTier → Resolution
  | .unknown => next
  | .ambiguous => .failed ⟨googleUrl, .ambiguous⟩
  | .owned page tier => .found ⟨googleUrl, page.url, tier⟩

/-- `resolve` over the pages of an index. -/
def resolveIn (unicode : HostData) (pages : List FullPageIntelligenceProfile) (googleUrl : Text) :
    Resolution :=
  match safeSplit unicode.toUnicodeData googleUrl with
  | none => .failed ⟨googleUrl, .unparseable⟩
  | some parts =>
    let host := hostOf unicode.toUnicodeData googleUrl
    let hosts := hostsOf unicode.toUnicodeData pages
    let byPath := Resolution.ofVerdict googleUrl (.failed ⟨googleUrl, .notCrawled⟩)
      (claimed unicode.toUnicodeData googleUrl pages pathLooks)
    if parts.netloc = [] ∧ parts.path.head? ≠ some '/' then .failed ⟨googleUrl, .unparseable⟩
    else if parts.netloc = [] then byPath
    else
      Resolution.ofVerdict googleUrl
        (if host ∈ hosts then byPath
        else if registrableDomain unicode host ∈ hosts.map (registrableDomain unicode) then
          .failed ⟨googleUrl, .otherSubdomain⟩
        else .failed ⟨googleUrl, .offSite⟩)
        (claimed unicode.toUnicodeData googleUrl pages absoluteLooks)

section Looks

variable {unicode : UnicodeData} {pages : List FullPageIntelligenceProfile} {url key : Text}
  {next : Resolution} {via : MatchTier → MatchTier}

theorem Resolution.ofVerdict_orElse
    {a b : TieredIndex.Verdict FullPageIntelligenceProfile MatchTier} :
    ofVerdict url next (a.orElse b) = ofVerdict url (ofVerdict url next b) a := by
  cases a with
  | unknown => rfl
  | ambiguous => rfl
  | owned page tier => rfl

theorem claimed_append {looks more : List Look} : claimed unicode url pages (looks ++ more) =
    (claimed unicode url pages looks).orElse (claimed unicode url pages more) := decided_append

/-- The claims of one source of aliases at a step. -/
def claimsOf (unicode : UnicodeData) (pages : List FullPageIntelligenceProfile) (step : Step)
    (field : FullPageIntelligenceProfile → Text) : List (Text × Text) :=
  (live field pages).filterMap fun pair => (step.key unicode pair.1).map fun key => (key, pair.2)

theorem stepClaims_eq (step : Step) : step.claims unicode pages =
    sources.map fun source => (claimsOf unicode pages step source.1, source.2) := by
  obtain ⟨level, folded⟩ := step
  cases folded with
  | false =>
    refine List.map_congr_left fun source _ => ?_
    simp [claimsOf, Step.key]
  | true =>
    refine (List.map_map).trans (List.map_congr_left fun source _ => ?_)
    simp [claimsOf, Step.key, List.map_filterMap, Function.comp_def]

theorem claimants_singleton {step : Step} (hkey : step.key unicode url = some key)
    (field : FullPageIntelligenceProfile → Text) (label : MatchTier)
    (page : FullPageIntelligenceProfile) :
    claimants (claimsOf unicode [page] step field) key =
      if Look.claims unicode url ⟨step, field, label⟩ page then [page.url] else [] := by
  by_cases filled : field page = []
  · simp [claimsOf, live, claimants, Look.claims, filled]
  · cases known : step.key unicode (field page) with
    | none => simp [claimsOf, live, claimants, Look.claims, filled, known, hkey]
    | some own =>
      by_cases same : own = key
      · simp [claimsOf, live, claimants, Look.claims, filled, known, hkey, same]
      · simp [claimsOf, live, claimants, Look.claims, filled, known, hkey, same]

theorem claimants_claimsOf {step : Step} (hkey : step.key unicode url = some key)
    (field : FullPageIntelligenceProfile → Text) (label : MatchTier) :
    claimants (claimsOf unicode pages step field) key =
      (pages.filter (Look.claims unicode url ⟨step, field, label⟩)).map
        FullPageIntelligenceProfile.url := by
  induction pages with
  | nil => rfl
  | cons page pages ih =>
    have more : claimsOf unicode (page :: pages) step field =
        claimsOf unicode [page] step field ++ claimsOf unicode pages step field := by
      rw [claimsOf, claimsOf, claimsOf, ← List.filterMap_append, live, live, live,
        ← List.filter_append]
      rfl
    rw [more, claimants, List.filter_append, List.map_append, ← claimants, ← claimants, ih,
      claimants_singleton hkey field label, List.filter_cons]
    split
    · rfl
    · rfl

/-- What `lookUp` makes of an index's verdict. -/
def Resolution.ofIndex (googleUrl : Text) (via : MatchTier → MatchTier) (next : Resolution) :
    TieredIndex.Verdict Text MatchTier → Resolution
  | .ambiguous => .failed ⟨googleUrl, .ambiguous⟩
  | .owned owner tier => .found ⟨googleUrl, owner, via tier⟩
  | .unknown => next

theorem ofIndex_verdictOf {step : Step} (hkey : step.key unicode url = some key) :
    Resolution.ofIndex url via next (verdictOf key (step.claims unicode pages)) =
      Resolution.ofVerdict url next (claimed unicode url pages (looksOf step via)) := by
  rw [stepClaims_eq, looksOf]
  induction sources with
  | nil => rfl
  | cons source sources ih =>
    rw [List.map_cons, List.map_cons, verdictOf, claimed, decided,
      claimants_claimsOf hkey source.1 (via source.2)]
    cases pages.filter (Look.claims unicode url ⟨step, source.1, via source.2⟩) with
    | nil => exact ih
    | cons page more =>
      cases more with
      | nil => rfl
      | cons _ _ => rfl

theorem lookUp_eq {unicode : HostData} {profiles : List FullPageIntelligenceProfile}
    {level : Level} (hkey : levelKey unicode.toUnicodeData url level = some key) :
    (UrlResolutionIndex.build unicode profiles).lookUp unicode.toUnicodeData url level key via
        next =
      Resolution.ofVerdict url next
        (claimed unicode.toUnicodeData url (pagesOf unicode profiles) (looksAt level via)) := by
  have exact_ : Step.key unicode.toUnicodeData url ⟨level, false⟩ = some key := by
    rw [Step.key, hkey]
    rfl
  have folded : Step.key unicode.toUnicodeData url ⟨level, true⟩ =
      some (foldPath unicode.toUnicodeData key) := by
    rw [Step.key, hkey]
    rfl
  rw [looksAt, claimed_append, Resolution.ofVerdict_orElse, ← ofIndex_verdictOf folded,
    ← ofIndex_verdictOf exact_]
  have first : ((UrlResolutionIndex.build unicode profiles).exact level).verdict key =
      verdictOf key (Step.claims unicode.toUnicodeData (pagesOf unicode profiles) ⟨level, false⟩) :=
    Index.verdict_merge _
  have second : ((UrlResolutionIndex.build unicode profiles).folded level).verdict
        (foldPath unicode.toUnicodeData key) =
      verdictOf (foldPath unicode.toUnicodeData key)
        (Step.claims unicode.toUnicodeData (pagesOf unicode profiles) ⟨level, true⟩) :=
    Index.verdict_merge _
  rw [← first, ← second, UrlResolutionIndex.lookUp]
  cases ((UrlResolutionIndex.build unicode profiles).exact level).verdict key with
  | ambiguous => rfl
  | owned owner tier => rfl
  | unknown =>
    cases ((UrlResolutionIndex.build unicode profiles).folded level).verdict
        (foldPath unicode.toUnicodeData key) with
    | ambiguous => rfl
    | owned owner tier => rfl
    | unknown => rfl

/-- **`resolve` answers as the pages of its index claim.** -/
theorem resolve_eq_resolveIn (unicode : HostData) (profiles : List FullPageIntelligenceProfile)
    (url : Text) :
    UrlResolutionIndex.resolve unicode (UrlResolutionIndex.build unicode profiles) url =
      resolveIn unicode (pagesOf unicode profiles) url := by
  rw [UrlResolutionIndex.resolve, resolveIn]
  cases split : safeSplit unicode.toUnicodeData url with
  | none => rfl
  | some parts =>
    have path : levelKey unicode.toUnicodeData url .path =
        some (pathKey unicode.toUnicodeData parts) := by
      rw [levelKey, split]
      rfl
    have bare : levelKey unicode.toUnicodeData url .bare =
        some (normalizePath (orRoot parts.path)) := by
      rw [levelKey, split]
      rfl
    have byPath : (UrlResolutionIndex.build unicode profiles).byPath unicode.toUnicodeData url
        parts = Resolution.ofVerdict url (.failed ⟨url, .notCrawled⟩)
          (claimed unicode.toUnicodeData url (pagesOf unicode profiles) pathLooks) := by
      rw [UrlResolutionIndex.byPath, lookUp_eq path, lookUp_eq bare, pathLooks,
        claimed_append, Resolution.ofVerdict_orElse]
    have absolute (next : Resolution) :
        (UrlResolutionIndex.build unicode profiles).lookUp unicode.toUnicodeData url .absolute
            (normalizeUrl unicode.toUnicodeData url) (fun tier => tier) next =
          Resolution.ofVerdict url next
            (claimed unicode.toUnicodeData url (pagesOf unicode profiles) absoluteLooks) :=
      lookUp_eq rfl
    simp only [byPath, absolute]
    rfl

end Looks

/-- What a resolution says: the tier and the key of the page, or the reason. -/
def Resolution.outcome (unicode : UnicodeData) : Resolution → Except MatchFailure (MatchTier × Text)
  | .found answer => .ok (answer.via, normalizeUrl unicode answer.pageUrl)
  | .failed failure => .error failure.reason

section Statement

variable (unicode : HostData) (profiles : List FullPageIntelligenceProfile) (url : Text)

/-- One page of the index claims the address at the look, and none does at a look at a stronger
source. -/
def SoleClaim (pages : List FullPageIntelligenceProfile) (step : Step) (answer : UrlMatch) : Prop :=
  ∃ stronger field weaker, sources = stronger ++ (field, answer.via) :: weaker ∧
    (∀ source ∈ stronger, ∀ page ∈ pages,
      Look.claims unicode.toUnicodeData url ⟨step, source.1, source.2⟩ page = false) ∧
    ∃ page ∈ pages, page.url = answer.pageUrl ∧ ∀ other ∈ pages,
      Look.claims unicode.toUnicodeData url ⟨step, field, answer.via⟩ other = true ↔ other = page

/-- Resolution does not look at the order of the profiles, and never guesses. -/
structure ResolvesSoundly : Prop where
  any_order : ∀ profiles', profiles'.Perm profiles → ∀ url,
    (UrlResolutionIndex.resolve unicode (UrlResolutionIndex.build unicode profiles') url).outcome
        unicode.toUnicodeData =
      (UrlResolutionIndex.resolve unicode (UrlResolutionIndex.build unicode profiles) url).outcome
        unicode.toUnicodeData
  never_guesses : ∀ url answer,
    UrlResolutionIndex.resolve unicode (UrlResolutionIndex.build unicode profiles) url =
      .found answer →
    answer.via ∈ [.crawledUrl, .redirectTarget, .canonicalTag] →
    ∃ level ∈ [Level.absolute, Level.path],
      SoleClaim unicode url (pagesOf unicode profiles) ⟨level, false⟩ answer

/-- What the best-placed copies claim of an address is settled, whichever are picked. -/
abbrev ClaimsSettled (looks : List Look) : Prop :=
  Settled (Look.claims unicode.toUnicodeData url) Look.label (pageKey unicode.toUnicodeData)
    (BestPlaced unicode.toUnicodeData profiles) looks

/-- The page claims the address with its host, or is on that host. -/
def Near (page : FullPageIntelligenceProfile) : Prop :=
  (∃ look ∈ absoluteLooks, look.claims unicode.toUnicodeData url page = true) ∨
    hostOf unicode.toUnicodeData page.url = hostOf unicode.toUnicodeData url ∧
      hostOf unicode.toUnicodeData url ≠ []

/-- The page is on a host of the same domain. -/
def SameDomain (page : FullPageIntelligenceProfile) : Prop :=
  hostOf unicode.toUnicodeData page.url ≠ [] ∧
    registrableDomain unicode (hostOf unicode.toUnicodeData page.url) =
      registrableDomain unicode (hostOf unicode.toUnicodeData url)

/-- All best-placed copies of some page have a property. -/
def SomePage (P : FullPageIntelligenceProfile → Prop) : Prop :=
  ∃ page, BestPlaced unicode.toUnicodeData profiles page ∧
    ∀ copy, BestPlaced unicode.toUnicodeData profiles copy →
      pageKey unicode.toUnicodeData copy = pageKey unicode.toUnicodeData page → P copy

/-- Whichever best-placed copies are picked, an absolute address is near a page, and what they
claim of it is settled; or it is near none, and so is whether its domain was crawled. -/
def AbsoluteSettled : Prop :=
  SomePage unicode profiles (Near unicode url) ∧
      ClaimsSettled unicode profiles url (absoluteLooks ++ pathLooks) ∨
    (∀ page, BestPlaced unicode.toUnicodeData profiles page → ¬Near unicode url page) ∧
      (SomePage unicode profiles (SameDomain unicode url) ∨
        ∀ page, BestPlaced unicode.toUnicodeData profiles page → ¬SameDomain unicode url page)

/-- The answer for the address is settled, whichever best-placed copies are picked. -/
def AnswerSettled : Prop :=
  ∀ parts, safeSplit unicode.toUnicodeData url = some parts →
    (parts.netloc ≠ [] → AbsoluteSettled unicode profiles url) ∧
      (parts.netloc = [] → parts.path.head? = some '/' →
        ClaimsSettled unicode profiles url pathLooks)

end Statement

section Order

variable {unicode : HostData} {profiles : List FullPageIntelligenceProfile} {url : Text}
  {pages : List FullPageIntelligenceProfile} {parts : SplitResult}

/-- The outcome of a verdict on keys. -/
def outcomeOf (next : MatchFailure) :
    TieredIndex.Verdict Text MatchTier → Except MatchFailure (MatchTier × Text)
  | .unknown => .error next
  | .ambiguous => .error .ambiguous
  | .owned key tier => .ok (tier, key)

theorem outcome_ofVerdict (url : Text) (failure : UrlFailure)
    {verdict : TieredIndex.Verdict FullPageIntelligenceProfile MatchTier} :
    (Resolution.ofVerdict url (.failed failure) verdict).outcome unicode.toUnicodeData =
      outcomeOf failure.reason (keyed (pageKey unicode.toUnicodeData) verdict) := by
  cases verdict with
  | unknown => rfl
  | ambiguous => rfl
  | owned page tier => rfl

theorem outcomeOf_injective {a b : TieredIndex.Verdict Text MatchTier}
    (same : outcomeOf .notCrawled a = outcomeOf .notCrawled b) : a = b := by
  cases a with
  | unknown =>
    cases b with
    | unknown => rfl
    | ambiguous => cases same
    | owned key tier => cases same
  | ambiguous =>
    cases b with
    | unknown => cases same
    | ambiguous => rfl
    | owned key tier => cases same
  | owned key tier =>
    cases b with
    | unknown => cases same
    | ambiguous => cases same
    | owned key' tier' =>
      cases same
      rfl

theorem outcomeOf_ne {verdict : TieredIndex.Verdict Text MatchTier}
    (h : outcomeOf .notCrawled verdict = .error .otherSubdomain ∨
      outcomeOf .notCrawled verdict = .error .offSite) : False := by
  cases verdict with
  | unknown => rcases h with h | h <;> cases h
  | ambiguous => rcases h with h | h <;> cases h
  | owned key tier => rcases h with h | h <;> cases h

theorem bestPlaced_of_perm {profiles' : List FullPageIntelligenceProfile}
    (same : profiles'.Perm profiles) :
    BestPlaced unicode.toUnicodeData profiles' = BestPlaced unicode.toUnicodeData profiles := by
  funext page
  rw [BestPlaced, BestPlaced, same.mem_iff]
  refine propext (and_congr_right fun _ => forall_congr' fun copy => ?_)
  rw [same.mem_iff]

theorem anyOrder_iff : (∀ profiles', profiles'.Perm profiles → ∀ url,
      (UrlResolutionIndex.resolve unicode (UrlResolutionIndex.build unicode profiles') url).outcome
          unicode.toUnicodeData =
        (UrlResolutionIndex.resolve unicode (UrlResolutionIndex.build unicode profiles) url).outcome
          unicode.toUnicodeData) ↔
      ∀ url, ∃ outcome, ∀ pages, Picks unicode.toUnicodeData profiles pages →
        (resolveIn unicode pages url).outcome unicode.toUnicodeData = outcome := by
  simp only [resolve_eq_resolveIn]
  constructor
  · intro h url
    refine ⟨(resolveIn unicode (pagesOf unicode profiles) url).outcome unicode.toUnicodeData,
      fun pages picks => ?_⟩
    obtain ⟨profiles', same, rfl⟩ := exists_perm_pages picks
    exact h profiles' same url
  · intro h profiles' same url
    obtain ⟨outcome, constant⟩ := h url
    have picks := picks_pages unicode.toUnicodeData profiles'
    rw [Picks, bestPlaced_of_perm same] at picks
    exact (constant _ picks).trans (constant _ (picks_pages unicode.toUnicodeData profiles)).symm

theorem mem_hostsOf {host : Text} : host ∈ hostsOf unicode.toUnicodeData pages ↔
    ∃ page ∈ pages, hostOf unicode.toUnicodeData page.url = host ∧ host ≠ [] := by
  rw [hostsOf, List.mem_filter, List.mem_map]
  constructor
  · rintro ⟨⟨page, mem, rfl⟩, filled⟩
    exact ⟨page, mem, rfl, of_decide_eq_true filled⟩
  · rintro ⟨page, mem, rfl, filled⟩
    exact ⟨⟨page, mem, rfl⟩, decide_eq_true filled⟩

theorem outcome_of_near (split : safeSplit unicode.toUnicodeData url = some parts)
    (absolute : parts.netloc ≠ []) (near : ∃ page ∈ pages, Near unicode url page) :
    (resolveIn unicode pages url).outcome unicode.toUnicodeData =
      outcomeOf .notCrawled (keyed (pageKey unicode.toUnicodeData)
        (claimed unicode.toUnicodeData url pages (absoluteLooks ++ pathLooks))) := by
  have unrooted : ¬(parts.netloc = [] ∧ parts.path.head? ≠ some '/') := fun both =>
    absolute both.1
  refine Eq.trans ?_ (outcome_ofVerdict url ⟨url, .notCrawled⟩)
  rw [claimed_append, Resolution.ofVerdict_orElse, resolveIn, split]
  simp only [if_neg unrooted, if_neg absolute]
  by_cases onSite : hostOf unicode.toUnicodeData url ∈ hostsOf unicode.toUnicodeData pages
  · rw [if_pos onSite]
  · have known : claimed unicode.toUnicodeData url pages absoluteLooks ≠ .unknown := by
      obtain ⟨page, mem, claims | onHost⟩ := near
      · exact decided_ne_unknown.mpr ⟨page, mem, claims⟩
      · exact absurd (mem_hostsOf.mpr ⟨page, mem, onHost⟩) onSite
    cases verdict : claimed unicode.toUnicodeData url pages absoluteLooks with
    | unknown => exact absurd verdict known
    | ambiguous => rfl
    | owned page tier => rfl

theorem outcome_of_far (split : safeSplit unicode.toUnicodeData url = some parts)
    (absolute : parts.netloc ≠ []) (far : ∀ page ∈ pages, ¬Near unicode url page) :
    ((∃ page ∈ pages, SameDomain unicode url page) →
      (resolveIn unicode pages url).outcome unicode.toUnicodeData = .error .otherSubdomain) ∧
    ((∀ page ∈ pages, ¬SameDomain unicode url page) →
      (resolveIn unicode pages url).outcome unicode.toUnicodeData = .error .offSite) := by
  have unrooted : ¬(parts.netloc = [] ∧ parts.path.head? ≠ some '/') := fun both =>
    absolute both.1
  have unknown : claimed unicode.toUnicodeData url pages absoluteLooks = .unknown := by
    by_contra known
    obtain ⟨page, mem, claims⟩ := decided_ne_unknown.mp known
    exact far page mem (Or.inl claims)
  have offSite : hostOf unicode.toUnicodeData url ∉ hostsOf unicode.toUnicodeData pages := by
    intro onSite
    obtain ⟨page, mem, onHost⟩ := mem_hostsOf.mp onSite
    exact far page mem (Or.inr onHost)
  have domain : registrableDomain unicode (hostOf unicode.toUnicodeData url) ∈
      (hostsOf unicode.toUnicodeData pages).map (registrableDomain unicode) ↔
      ∃ page ∈ pages, SameDomain unicode url page := by
    simp only [List.mem_map, mem_hostsOf, SameDomain]
    constructor
    · rintro ⟨host, ⟨page, mem, rfl, filled⟩, same⟩
      exact ⟨page, mem, filled, same⟩
    · rintro ⟨page, mem, filled, same⟩
      exact ⟨_, ⟨page, mem, rfl, filled⟩, same⟩
  rw [resolveIn, split]
  simp only [if_neg unrooted, if_neg absolute, unknown, if_neg offSite]
  constructor
  · intro crawled
    rw [if_pos (domain.mpr crawled)]
    rfl
  · intro uncrawled
    rw [if_neg]
    · rfl
    · intro crawled
      obtain ⟨page, mem, same⟩ := domain.mp crawled
      exact uncrawled page mem same

theorem absolute_settled_iff (split : safeSplit unicode.toUnicodeData url = some parts)
    (absolute : parts.netloc ≠ []) :
    (∃ outcome, ∀ pages, Picks unicode.toUnicodeData profiles pages →
      (resolveIn unicode pages url).outcome unicode.toUnicodeData = outcome) ↔
      AbsoluteSettled unicode profiles url := by
  have finite : ∀ page, BestPlaced unicode.toUnicodeData profiles page → page ∈ profiles :=
    fun page best => best.1
  constructor
  · rintro ⟨outcome, constant⟩
    by_cases near : ∀ pages, Picks unicode.toUnicodeData profiles pages →
        ∃ page ∈ pages, Near unicode url page
    · refine Or.inl ⟨(forall_selects_exists finite _).mp near, ?_⟩
      obtain ⟨verdict, same⟩ : ∃ verdict, outcome = outcomeOf .notCrawled verdict := by
        have picks := picks_pages unicode.toUnicodeData profiles
        exact ⟨_, (constant _ picks).symm.trans (outcome_of_near split absolute (near _ picks))⟩
      have keys : ∀ pages, Picks unicode.toUnicodeData profiles pages →
          keyed (pageKey unicode.toUnicodeData)
            (claimed unicode.toUnicodeData url pages (absoluteLooks ++ pathLooks)) = verdict := by
        intro pages picks
        refine outcomeOf_injective ?_
        rw [← outcome_of_near split absolute (near pages picks), constant pages picks, same]
      exact settled_of_constant finite keys
    · push Not at near
      obtain ⟨first, picks, far⟩ := near
      obtain ⟨inside, outside⟩ := outcome_of_far split absolute far
      have unnamed : outcome = .error .otherSubdomain ∨ outcome = .error .offSite := by
        rw [← constant first picks]
        by_cases crawled : ∃ page ∈ first, SameDomain unicode url page
        · exact Or.inl (inside crawled)
        · exact Or.inr (outside fun page mem same => crawled ⟨page, mem, same⟩)
      have apart : ∀ pages, Picks unicode.toUnicodeData profiles pages →
          ∀ page ∈ pages, ¬Near unicode url page := by
        intro pages picks page mem near
        have named := outcome_of_near split absolute ⟨page, mem, near⟩
        rw [constant pages picks] at named
        rw [named] at unnamed
        exact outcomeOf_ne unnamed
      refine Or.inr ⟨(forall_selects_forall finite _).mp apart, ?_⟩
      by_cases crawled : ∀ pages, Picks unicode.toUnicodeData profiles pages →
          ∃ page ∈ pages, SameDomain unicode url page
      · exact Or.inl ((forall_selects_exists finite _).mp crawled)
      · push Not at crawled
        obtain ⟨other, picks', uncrawled⟩ := crawled
        have named := (outcome_of_far split absolute (apart other picks')).2 uncrawled
        have nowhere : ∀ pages, Picks unicode.toUnicodeData profiles pages →
            ∀ page ∈ pages, ¬SameDomain unicode url page := by
          intro pages picks page mem same
          have here := (outcome_of_far split absolute (apart pages picks)).1 ⟨page, mem, same⟩
          rw [constant pages picks] at here
          rw [constant other picks', here] at named
          cases named
        exact Or.inr ((forall_selects_forall finite _).mp nowhere)
  · rintro (⟨near, settled⟩ | ⟨far, domain | domain⟩)
    · obtain ⟨verdict, constant⟩ := settled.exists_verdict
      refine ⟨outcomeOf .notCrawled verdict, fun pages picks => ?_⟩
      rw [outcome_of_near split absolute ((forall_selects_exists finite _).mpr near pages picks),
        constant pages picks]
    · refine ⟨.error .otherSubdomain, fun pages picks => ?_⟩
      exact (outcome_of_far split absolute ((forall_selects_forall finite _).mpr far pages picks)).1
        ((forall_selects_exists finite _).mpr domain pages picks)
    · refine ⟨.error .offSite, fun pages picks => ?_⟩
      exact (outcome_of_far split absolute ((forall_selects_forall finite _).mpr far pages picks)).2
        ((forall_selects_forall finite _).mpr domain pages picks)

theorem constant_iff_answerSettled :
    (∃ outcome, ∀ pages, Picks unicode.toUnicodeData profiles pages →
      (resolveIn unicode pages url).outcome unicode.toUnicodeData = outcome) ↔
      AnswerSettled unicode profiles url := by
  have finite : ∀ page, BestPlaced unicode.toUnicodeData profiles page → page ∈ profiles :=
    fun page best => best.1
  cases split : safeSplit unicode.toUnicodeData url with
  | none =>
    refine iff_of_true ⟨.error .unparseable, fun pages _ => ?_⟩ fun parts found => ?_
    · rw [resolveIn, split]
      rfl
    · rw [split] at found
      cases found
  | some parts =>
    have only : AnswerSettled unicode profiles url ↔
        (parts.netloc ≠ [] → AbsoluteSettled unicode profiles url) ∧
          (parts.netloc = [] → parts.path.head? = some '/' →
            ClaimsSettled unicode profiles url pathLooks) := by
      simp [AnswerSettled, split]
    rw [only]
    by_cases absolute : parts.netloc = []
    · simp only [absolute, ne_eq, not_true_eq_false, false_implies, true_and, true_implies]
      by_cases rooted : parts.path.head? = some '/'
      · have byPath (pages : List FullPageIntelligenceProfile) :
            (resolveIn unicode pages url).outcome unicode.toUnicodeData =
              outcomeOf .notCrawled (keyed (pageKey unicode.toUnicodeData)
                (claimed unicode.toUnicodeData url pages pathLooks)) := by
          refine Eq.trans ?_ (outcome_ofVerdict url ⟨url, .notCrawled⟩)
          rw [resolveIn, split]
          simp only [absolute, rooted, ne_eq, not_true_eq_false, and_false, if_false, if_true]
        simp only [byPath, rooted, true_implies]
        constructor
        · rintro ⟨outcome, constant⟩
          have own := constant _ (picks_pages unicode.toUnicodeData profiles)
          have keys : ∀ pages, Picks unicode.toUnicodeData profiles pages →
              keyed (pageKey unicode.toUnicodeData)
                  (claimed unicode.toUnicodeData url pages pathLooks) =
                keyed (pageKey unicode.toUnicodeData)
                  (claimed unicode.toUnicodeData url (pagesOf unicode profiles) pathLooks) :=
            fun pages picks => outcomeOf_injective ((constant pages picks).trans own.symm)
          exact settled_of_constant finite keys
        · intro settled
          obtain ⟨verdict, constant⟩ := settled.exists_verdict
          exact ⟨_, fun pages picks => congrArg _ (constant pages picks)⟩
      · refine iff_of_true ⟨.error .unparseable, fun pages _ => ?_⟩ fun path =>
          absurd path rooted
        rw [resolveIn, split]
        exact congrArg _ (if_pos ⟨absolute, rooted⟩)
    · rw [absolute_settled_iff split absolute]
      simp [absolute]

end Order

section Guesses

variable {unicode : HostData} {profiles : List FullPageIntelligenceProfile} {url : Text}
  {pages : List FullPageIntelligenceProfile} {answer : UrlMatch}

/-- The tiers a source of aliases is reported under. -/
def sourceTiers : List MatchTier := [.crawledUrl, .redirectTarget, .canonicalTag]

theorem caseFolded_notMem : MatchTier.caseFolded ∉ sourceTiers := by decide

theorem barePath_notMem : MatchTier.barePath ∉ sourceTiers := by decide

theorem ofVerdict_eq_found {verdict : TieredIndex.Verdict FullPageIntelligenceProfile MatchTier}
    {next : Resolution} (h : Resolution.ofVerdict url next verdict = .found answer) :
    (∃ page, verdict = .owned page answer.via ∧ page.url = answer.pageUrl) ∨
      next = .found answer := by
  cases verdict with
  | unknown => exact Or.inr h
  | ambiguous => cases h
  | owned page tier =>
    cases h
    exact Or.inl ⟨page, rfl, rfl⟩

theorem soleClaim_of_claimed {level : Level} {others : List Look}
    {page : FullPageIntelligenceProfile} (other : ∀ look ∈ others, look.label ∉ sourceTiers)
    (tier : answer.via ∈ sourceTiers)
    (h : claimed unicode.toUnicodeData url pages
      (looksOf ⟨level, false⟩ (fun tier => tier) ++ others) = .owned page answer.via)
    (named : page.url = answer.pageUrl) : SoleClaim unicode url pages ⟨level, false⟩ answer := by
  have exact_ : claimed unicode.toUnicodeData url pages
      (looksOf ⟨level, false⟩ fun tier => tier) = .owned page answer.via := by
    rw [claimed_append] at h
    cases verdict : claimed unicode.toUnicodeData url pages
        (looksOf ⟨level, false⟩ fun tier => tier) with
    | unknown =>
      rw [verdict] at h
      obtain ⟨before, look, after, rfl, -, -, label⟩ := exists_look_of_decided h
      exact absurd (label ▸ tier) (other look (by simp))
    | ambiguous =>
      rw [verdict] at h
      cases h
    | owned first label =>
      rw [verdict] at h
      exact h
  obtain ⟨before, look, after, split, unclaimed, sole, label⟩ := exists_look_of_decided exact_
  obtain ⟨stronger, weaker, hsources, rfl, hlook⟩ := List.map_eq_append_iff.mp split
  obtain ⟨⟨field, own⟩, later, rfl, rfl, -⟩ := List.map_eq_cons_iff.mp hlook
  obtain rfl : own = answer.via := label
  have only (other : FullPageIntelligenceProfile) : other ∈ pages ∧
      Look.claims unicode.toUnicodeData url ⟨⟨level, false⟩, field, answer.via⟩ other = true ↔
        other = page := by
    rw [← List.mem_filter]
    refine (iff_of_eq (congrArg _ sole)).trans List.mem_singleton
  exact ⟨stronger, field, later, hsources, fun source mem page listed =>
    unclaimed _ (List.mem_map_of_mem mem) page listed, page, ((only page).mpr rfl).1, named,
    fun other listed => ⟨fun claims => (only other).mp ⟨listed, claims⟩,
      fun same => ((only other).mpr same).2⟩⟩

variable (unicode profiles) in
theorem never_guesses
    (h : UrlResolutionIndex.resolve unicode (UrlResolutionIndex.build unicode profiles) url =
      .found answer) (tier : answer.via ∈ sourceTiers) :
    ∃ level ∈ [Level.absolute, Level.path],
      SoleClaim unicode url (pagesOf unicode profiles) ⟨level, false⟩ answer := by
  have folded {level : Level} : ∀ look ∈ looksOf ⟨level, true⟩ fun _ => .caseFolded,
      look.label ∉ sourceTiers := by
    intro look mem
    obtain ⟨source, -, rfl⟩ := List.mem_map.mp mem
    exact caseFolded_notMem
  have bare : ∀ look ∈ looksAt .bare fun _ => .barePath, look.label ∉ sourceTiers := by
    intro look mem
    rcases List.mem_append.mp mem with mem | mem
    · obtain ⟨source, -, rfl⟩ := List.mem_map.mp mem
      exact barePath_notMem
    · exact folded look mem
  have byPath : Resolution.ofVerdict url (.failed ⟨url, .notCrawled⟩)
      (claimed unicode.toUnicodeData url (pagesOf unicode profiles) pathLooks) = .found answer →
      SoleClaim unicode url (pagesOf unicode profiles) ⟨.path, false⟩ answer := by
    intro found
    obtain ⟨page, owned, named⟩ | found := ofVerdict_eq_found found
    · rw [pathLooks, looksAt, List.append_assoc] at owned
      refine soleClaim_of_claimed (fun look mem => ?_) tier owned named
      exact (List.mem_append.mp mem).elim (folded look) (bare look)
    · cases found
  rw [resolve_eq_resolveIn, resolveIn] at h
  split at h
  · cases h
  · next parts split =>
    dsimp only at h
    split at h
    · cases h
    · split at h
      · exact ⟨.path, by decide, byPath h⟩
      · obtain ⟨page, owned, named⟩ | found := ofVerdict_eq_found h
        · exact ⟨.absolute, by decide, soleClaim_of_claimed folded tier owned named⟩
        · split at found
          · exact ⟨.path, by decide, byPath found⟩
          · split at found
            · cases found
            · cases found

end Guesses

/-- **Resolution is sound exactly where the tied copies settle every answer.** -/
theorem resolvesSoundly_iff_answerSettled (unicode : HostData)
    (profiles : List FullPageIntelligenceProfile) :
    ResolvesSoundly unicode profiles ↔ ∀ url, AnswerSettled unicode profiles url := by
  constructor
  · intro h url
    exact constant_iff_answerSettled.mp (anyOrder_iff.mp h.any_order url)
  · intro settled
    exact ⟨anyOrder_iff.mpr fun url => constant_iff_answerSettled.mpr (settled url),
      fun url answer => never_guesses unicode profiles⟩

section Sample

/-- A copy of a page that was fetched, and was redirected. -/
def fetchedCopy : FullPageIntelligenceProfile where
  url := "https://a.io/x".toList
  canonicalUrl := "https://a.io/x".toList
  finalUrl := "https://a.io/y".toList

/-- A copy of the same page that was not. -/
def listedCopy : FullPageIntelligenceProfile where
  url := "https://a.io/x?ref=nav".toList
  canonicalUrl := "https://a.io/x".toList

/-- Which of two copies comes first decides whether an address is resolved. -/
theorem tied_copies_disagree : ¬ResolvesSoundly asciiHosts [fetchedCopy, listedCopy] := by
  intro sound
  have same := sound.any_order [listedCopy, fetchedCopy] (.swap _ _ _) "https://a.io/y".toList
  revert same
  decide

end Sample

end Rankuno.Performance
