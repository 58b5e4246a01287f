import Rankuno.PageClassifier.Consensus
import Rankuno.PageClassifier.Signals

/-!
# The cascade

`cascading_pipeline.py` goes through its layers twice: `needs_llm_escalation` decides which
pages are paid for, before the model is called, and `classify_page` decides whether the
answer is taken. Both stop at the first layer that is sure enough. What may keep them from
an answer is a signal or a profile that does not pass its own contract: a profile bounds
some of the texts that the evidence carries without a bound.
-/

namespace Rankuno.PageClassifier

open Python Python.Text UrlKeys
open Placement (PrimaryPageType)
open FrogMerge (ConsensusMethod llmFallbackConfidenceThreshold)

inductive SearchIntent where
  | informational
  | commercialInvestigation
  | transactional
  | navigational
  deriving DecidableEq

inductive ConversionRole where
  | directSale
  | leadGeneration
  | brandAwareness
  | informationalSupport
  | none
  deriving DecidableEq

def inferSearchIntent (level : HierarchyLevel) : PrimaryPageType → SearchIntent
  | .productDetailPage => .transactional
  | .commercialLeadGen => .transactional
  | .productCategoryHub => .commercialInvestigation
  | .serviceCategoryHub => .commercialInvestigation
  | .serviceDetailPage => .commercialInvestigation
  | .caseStudy => .commercialInvestigation
  | .toolApplication => .commercialInvestigation
  | .homepage => .navigational
  | .companyAbout => .navigational
  | _ => if level = .utilityPage then .navigational else .informational

def inferConversionRole : PrimaryPageType → ConversionRole
  | .productDetailPage => .directSale
  | .commercialLeadGen => .leadGeneration
  | .serviceDetailPage => .leadGeneration
  | .toolApplication => .leadGeneration
  | .caseStudy => .brandAwareness
  | .companyAbout => .brandAwareness
  | .blogArticle => .informationalSupport
  | .blogHub => .informationalSupport
  | _ => .none

/-- The fields of a profile that a crawl sets. -/
structure FullPageIntelligenceProfile where
  url : Text
  canonicalUrl : Text
  finalUrl : Text
  redirectChain : List Text
  httpStatus : Option Int
  firstRedirectStatus : Option Int
  fetchOutcome : Option Text
  canonicalDeclared : Option Bool
  canonicalLinkCount : Option Nat
  bodyLinkCount : Option Nat
  breadcrumbParentUrl : Option Text
  uniqueContentInlinks : Option Nat
  indexability : Indexability
  indexabilityReason : Text
  normalizedPath : Text
  hierarchyLevel : HierarchyLevel
  primaryPageType : PrimaryPageType
  depthFromL0 : Option Nat
  breadcrumbPath : List Text
  ownBreadcrumb : List Text
  searchIntent : SearchIntent
  conversionRole : ConversionRole
  inboundInternalLinksCount : Nat
  outboundInternalLinksCount : Nat
  discoverySources : DiscoverySource
  sitemapSource : Option Text
  pageTitle : Text
  pageTitleCount : Nat
  pageTitleOutsideHead : Bool
  metaDescription : Text
  metaDescriptionCount : Nat
  metaDescriptionOutsideHead : Bool
  h1Text : Text
  h1Count : Nat
  signalsEvaluated : List SignalScore
  finalConfidenceScore : ℚ
  consensusMethod : ConsensusMethod

namespace FullPageIntelligenceProfile

/-- The bounds of the fields, with the fields they are on. -/
def checks (profile : FullPageIntelligenceProfile) : List (Text × Bool) := [
  ("url".toList, profile.url ≠ []),
  ("canonical_url".toList, profile.canonicalUrl ≠ []),
  ("normalized_path".toList, profile.normalizedPath ≠ []),
  ("depth_from_l0".toList, profile.depthFromL0.all fun depth => depth ≤ maxCrawlDepth),
  ("sitemap_source".toList, profile.sitemapSource.all fun source => source.length ≤ 200),
  ("signals_evaluated".toList, profile.signalsEvaluated.length ≠ 0),
  ("final_confidence_score".toList,
    0 ≤ profile.finalConfidenceScore ∧ profile.finalConfidenceScore ≤ 1),
  ("indexability_reason".toList, profile.indexabilityReason.length ≤ 400),
  ("page_title".toList, profile.pageTitle.length ≤ 500),
  ("meta_description".toList, profile.metaDescription.length ≤ 500),
  ("h1_text".toList, profile.h1Text.length ≤ 1000),
  ("http_status".toList, profile.httpStatus.all fun status => 100 ≤ status ∧ status ≤ 599),
  ("first_redirect_status".toList,
    profile.firstRedirectStatus.all fun status => 300 ≤ status ∧ status ≤ 399),
  ("fetch_outcome".toList, profile.fetchOutcome.all fun outcome => outcome.length ≤ 40),
  ("breadcrumb_parent_url".toList, profile.breadcrumbParentUrl.all fun url => url.length ≤ 2048)]

/-- `FullPageIntelligenceProfile(...)`: the fields, then `_check_taxonomy_pair`. -/
def validate (profile : FullPageIntelligenceProfile) : Except Raised FullPageIntelligenceProfile :=
  let failed := profile.checks.filter fun check => !check.2
  if failed ≠ [] then .error (.validation (failed.map Prod.fst))
  else if isValidTaxonomyPair profile.hierarchyLevel profile.primaryPageType then .ok profile
  else .error (.incoherentPair profile.hierarchyLevel profile.primaryPageType)

/-- `escalated_to_llm`. -/
def escalatedToLlm (profile : FullPageIntelligenceProfile) : Bool :=
  profile.consensusMethod = .layer3LlmFallback

end FullPageIntelligenceProfile

/-! ### The layers -/

theorem fast_path_bounds : (0 : ℚ) ≤ 97 / 100 ∧ (97 / 100 : ℚ) ≤ 1 := by norm_num

/-- `_layer0`. -/
def layer0 (unicode : UnicodeData) (evidence : PageEvidence) : Option ConsensusOutcome :=
  (urlFastPath unicode evidence.url).map fun decided => {
    source := .sitemapIndex
    suggestedLevel := decided.1
    suggestedPageType := decided.2
    confidence := 97 / 100
    notes := "resolved by URL rules before fetch".toList
    method := .layer0FastPath
    confidence_nonneg := fast_path_bounds.1
    confidence_le_one := fast_path_bounds.2 }

/-- `_needs_escalation`. -/
def needsEscalation (outcome : Option ConsensusOutcome) : Bool :=
  outcome.all fun outcome => outcome.confidence < llmFallbackConfidenceThreshold

theorem zero_nonneg : (0 : ℚ) ≤ 0 := le_refl 0

theorem zero_le_unit : (0 : ℚ) ≤ 1 := zero_le_one

/-- `_unresolved`. -/
def unresolved : ConsensusOutcome where
  source := .llmZeroShot
  suggestedLevel := .l3LeafPage
  suggestedPageType := .unknown
  confidence := 0
  notes := "no layer produced a classification".toList
  confidence_nonneg := zero_nonneg
  confidence_le_one := zero_le_unit

/-- `_coerce_valid_pair`. -/
def coerceValidPair (pair : HierarchyLevel × PrimaryPageType) : HierarchyLevel × PrimaryPageType :=
  if isValidTaxonomyPair pair.1 pair.2 then pair
  else if pair.1 = .l0Homepage then (pair.1, .homepage)
  else if pair.2 = .homepage then (.l0Homepage, pair.2)
  else if pair.2 = .facetedFilter ∨ pair.2 = .utilityLegal then (.utilityPage, pair.2)
  else (pair.1, .unknown)

/-- A signal that settles the page by itself. -/
def ConsensusOutcome.ofSignal (signal : SignalScore) (source : SignalSource)
    (method : ConsensusMethod) : ConsensusOutcome where
  source := source
  suggestedLevel := signal.suggestedLevel
  suggestedPageType := signal.suggestedPageType
  confidence := signal.confidence
  notes := signal.notes
  method := method
  confidence_nonneg := signal.confidence_nonneg
  confidence_le_one := signal.confidence_le_one

/-- What is settled so far, and the signals it was settled by. -/
structure Settling where
  outcome : Option ConsensusOutcome
  signals : List SignalScore

/-- A consensus above the threshold is the structural layer's. -/
def asStructural (outcome : ConsensusOutcome) : ConsensusOutcome :=
  if llmFallbackConfidenceThreshold ≤ outcome.confidence then
    { outcome with method := .layer1Structural }
  else outcome

/-- A classifier of the second layer. -/
abbrev ZeroShotClassifier := PageEvidence → Option SignalScore

/-- The suggestion of the classifier, if there is one and it does not abstain. -/
def suggestion (localClassifier : Option ZeroShotClassifier) (evidence : PageEvidence) :
    Option SignalScore :=
  localClassifier.bind fun classify => classify evidence

/-- The second layer. -/
def layer2 (localClassifier : Option ZeroShotClassifier) (evidence : PageEvidence)
    (settling : Settling) : Settling :=
  if needsEscalation settling.outcome then
    match suggestion localClassifier evidence with
    | some score =>
      ⟨some (.ofSignal score score.source .layer2LocalMl), settling.signals ++ [score]⟩
    | none => settling
  else settling

/-- The third layer. -/
def layer3 (llmSignal : Option SignalScore) (settling : Settling) : Settling :=
  if needsEscalation settling.outcome then
    match llmSignal with
    | some score =>
      ⟨some (.ofSignal score .llmZeroShot .layer3LlmFallback), settling.signals ++ [score]⟩
    | none => settling
  else settling

/-- An outcome as one signal's opinion. -/
def ConsensusOutcome.opinion (outcome : ConsensusOutcome)
    (pair : HierarchyLevel × PrimaryPageType) : Opinion :=
  ⟨outcome.source, pair.1, pair.2, outcome.confidence, outcome.notes⟩

/-- `_as_signal`. -/
def asSignal (outcome : ConsensusOutcome) (pair : HierarchyLevel × PrimaryPageType) :
    Except Raised SignalScore :=
  SignalScore.build (outcome.opinion pair)

/-- The profile of a page, before it is validated. -/
def profileOf (evidence : PageEvidence) (outcome : ConsensusOutcome)
    (evaluated : List SignalScore) : FullPageIntelligenceProfile where
  url := evidence.url
  canonicalUrl := if evidence.canonicalUrl = [] then evidence.url else evidence.canonicalUrl
  finalUrl := evidence.finalUrl
  redirectChain := evidence.redirectChain
  httpStatus := evidence.httpStatus
  firstRedirectStatus := evidence.firstRedirectStatus
  fetchOutcome := evidence.fetchOutcome
  canonicalDeclared := evidence.canonicalDeclared
  canonicalLinkCount := evidence.canonicalLinkCount
  bodyLinkCount := evidence.bodyLinkCount
  breadcrumbParentUrl := evidence.breadcrumbParentUrl
  uniqueContentInlinks := evidence.uniqueContentInlinks
  indexability := evidence.indexability
  indexabilityReason := evidence.indexabilityReason
  normalizedPath := evidence.normalizedPath
  hierarchyLevel := (coerceValidPair outcome.pair).1
  primaryPageType := (coerceValidPair outcome.pair).2
  depthFromL0 := evidence.depth.map fun depth => min depth maxCrawlDepth
  breadcrumbPath := evidence.breadcrumbPath
  ownBreadcrumb := evidence.breadcrumbPath
  searchIntent := inferSearchIntent (coerceValidPair outcome.pair).1
    (coerceValidPair outcome.pair).2
  conversionRole := inferConversionRole (coerceValidPair outcome.pair).2
  inboundInternalLinksCount := evidence.inboundInternalLinks
  outboundInternalLinksCount := evidence.outboundInternalLinks
  discoverySources := evidence.discoverySources
  sitemapSource := evidence.sitemapSource
  pageTitle := evidence.pageTitle
  pageTitleCount := evidence.pageTitleCount
  pageTitleOutsideHead := evidence.pageTitleOutsideHead
  metaDescription := evidence.metaDescription
  metaDescriptionCount := evidence.metaDescriptionCount
  metaDescriptionOutsideHead := evidence.metaDescriptionOutsideHead
  h1Text := evidence.h1Text
  h1Count := evidence.h1Count
  signalsEvaluated := evaluated
  finalConfidenceScore := outcome.confidence
  consensusMethod := outcome.method

section Cascade

variable (unicode : UnicodeData) (reader : BlockReader)

/-- The first two layers of `classify_page`. -/
def freeLayers (weights : Dict SignalSource ℚ) (evidence : PageEvidence) : Except Raised Settling :=
  match layer0 unicode evidence with
  | some outcome => .ok ⟨some outcome, []⟩
  | none => do
      let signals ← collectStructuralSignals unicode reader evidence
      .ok ⟨(resolveConsensus signals (some weights)).map asStructural, signals⟩

/-- The end of `classify_page`: a page without signals has its outcome for one. -/
def concluded (evidence : PageEvidence) (settling : Settling) :
    Except Raised FullPageIntelligenceProfile := do
  let outcome := settling.outcome.getD unresolved
  let evaluated ←
    if settling.signals.length ≠ 0 then .ok settling.signals
    else (asSignal outcome (coerceValidPair outcome.pair)).map fun signal => [signal]
  (profileOf evidence outcome evaluated).validate

/-- `classify_page`. -/
def classifyPage (evidence : PageEvidence) (siteProfile : Option SiteProfile)
    (localClassifier : Option ZeroShotClassifier) (llmSignal : Option SignalScore)
    (weightsOverride : Option (Dict SignalSource ℚ)) :
    Except Raised FullPageIntelligenceProfile := do
  let settling ← freeLayers unicode reader
    (weightsOverride.getD (getWeightProfile siteProfile)) evidence
  concluded evidence (layer3 llmSignal (layer2 localClassifier evidence settling))

/-- `needs_llm_escalation`. -/
def needsLlmEscalation (evidence : PageEvidence) (siteProfile : Option SiteProfile)
    (localClassifier : Option ZeroShotClassifier) : Except Raised Bool := do
  let outcome ← match layer0 unicode evidence with
    | some outcome => Except.ok (some outcome)
    | none => do
        let signals ← collectStructuralSignals unicode reader evidence
        .ok (resolveConsensus signals (some (getWeightProfile siteProfile)))
  if needsEscalation outcome then
    match suggestion localClassifier evidence with
    | some score => .ok (score.confidence < llmFallbackConfidenceThreshold)
    | none => .ok (needsEscalation outcome)
  else .ok (needsEscalation outcome)

end Cascade

/-! ### Every pair is permitted -/

theorem coerceValidPair_valid (pair : HierarchyLevel × PrimaryPageType) :
    isValidTaxonomyPair (coerceValidPair pair).1 (coerceValidPair pair).2 = true := by
  obtain ⟨level, pageType⟩ := pair
  cases level <;> cases pageType <;> rfl

/-! ### When a profile is built -/

/-- The bounds of a profile that its evidence has to keep by itself. -/
structure FieldsFit (evidence : PageEvidence) : Prop where
  sitemapSource : ∀ source ∈ evidence.sitemapSource, source.length ≤ 200
  indexabilityReason : evidence.indexabilityReason.length ≤ 400
  pageTitle : evidence.pageTitle.length ≤ 500
  metaDescription : evidence.metaDescription.length ≤ 500
  h1Text : evidence.h1Text.length ≤ 1000
  httpStatus : ∀ status ∈ evidence.httpStatus, 100 ≤ status ∧ status ≤ 599
  firstRedirectStatus : ∀ status ∈ evidence.firstRedirectStatus, 300 ≤ status ∧ status ≤ 399
  fetchOutcome : ∀ outcome ∈ evidence.fetchOutcome, outcome.length ≤ 40
  breadcrumbParentUrl : ∀ url ∈ evidence.breadcrumbParentUrl, url.length ≤ 2048

section Profiles

variable {evidence : PageEvidence} {outcome : ConsensusOutcome} {evaluated : List SignalScore}
  {profile : FullPageIntelligenceProfile} {settling : Settling} {score : SignalScore}

variable (outcome) in
theorem checks_profileOf (audited : evaluated ≠ []) :
    (profileOf evidence outcome evaluated).checks.filter (fun check => !check.2) = [] ↔
      FieldsFit evidence := by
  have canonical : (profileOf evidence outcome evaluated).canonicalUrl ≠ [] := by
    simp only [profileOf]
    split
    · exact evidence.url_ne
    · next declared => exact declared
  have depth : ∀ depth ∈ (profileOf evidence outcome evaluated).depthFromL0,
      depth ≤ maxCrawlDepth := by
    intro depth mem
    obtain ⟨clicks, -, rfl⟩ := Option.map_eq_some_iff.mp mem
    exact Nat.min_le_right ..
  have sure : 0 ≤ outcome.confidence ∧ outcome.confidence ≤ 1 :=
    ⟨outcome.confidence_nonneg, outcome.confidence_le_one⟩
  rw [List.filter_eq_nil_iff]
  simp only [FullPageIntelligenceProfile.checks, List.forall_mem_cons, List.not_mem_nil,
    false_implies, implies_true, and_true, Bool.not_eq_true', Bool.not_eq_false,
    decide_eq_true_eq, Option.all_eq_true]
  constructor
  · rintro ⟨-, -, -, -, source, -, -, reason, title, description, heading, status, first, fetched,
      parent⟩
    exact ⟨source, reason, title, description, heading, status, first, fetched, parent⟩
  · intro fit
    exact ⟨evidence.url_ne, canonical, evidence.normalizedPath_ne, depth, fit.sitemapSource,
      fun empty => audited (List.eq_nil_of_length_eq_zero empty), sure, fit.indexabilityReason,
      fit.pageTitle, fit.metaDescription, fit.h1Text, fit.httpStatus, fit.firstRedirectStatus,
      fit.fetchOutcome, fit.breadcrumbParentUrl⟩

/-- **A profile is built exactly where the fields of the evidence fit.** -/
theorem validate_profileOf (audited : evaluated ≠ []) :
    (profileOf evidence outcome evaluated).validate = .ok profile ↔
      FieldsFit evidence ∧ profile = profileOf evidence outcome evaluated := by
  have valid : isValidTaxonomyPair (profileOf evidence outcome evaluated).hierarchyLevel
      (profileOf evidence outcome evaluated).primaryPageType = true :=
    coerceValidPair_valid outcome.pair
  rw [← checks_profileOf outcome audited, FullPageIntelligenceProfile.validate]
  rw [if_pos valid]
  split
  · next failed =>
    refine iff_of_false (fun h => ?_) fun fits => failed fits.1
    cases h
  · next passed =>
    rw [not_not] at passed
    rw [Except.ok.injEq]
    exact ⟨fun same => ⟨passed, same.symm⟩, fun fits => fits.2.symm⟩

end Profiles

/-! ### One cascade -/

/-- An outcome without signals has a note that fits one. -/
def Settling.Noted (settling : Settling) : Prop :=
  settling.signals = [] → ∀ outcome ∈ settling.outcome, outcome.notes.length ≤ 500

/-- No layer before the third has settled the page in its name. -/
def Settling.Unpaid (settling : Settling) : Prop :=
  ∀ outcome ∈ settling.outcome, outcome.method ≠ .layer3LlmFallback

section Layers

variable {unicode : UnicodeData} {reader : BlockReader} {weights : Dict SignalSource ℚ}
  {evidence : PageEvidence} {site : Option SiteProfile}
  {localClassifier : Option ZeroShotClassifier} {llmSignal : Option SignalScore}
  {settling : Settling} {outcome : ConsensusOutcome} {signals : List SignalScore}
  {profile : FullPageIntelligenceProfile} {score : SignalScore}

theorem method_resolveConsensus {weights : Option (Dict SignalSource ℚ)}
    (h : resolveConsensus signals weights = some outcome) :
    outcome.method = .weightedConsensus := by
  unfold resolveConsensus consensusUnder at h
  split at h
  · cases h
  · split at h
    · cases h
    · split at h
      · cases h
      · obtain rfl := Option.some.inj h
        rfl

theorem needsEscalation_asStructural {outcome : Option ConsensusOutcome} :
    needsEscalation (outcome.map asStructural) = needsEscalation outcome := by
  cases outcome with
  | none => rfl
  | some outcome =>
    rw [Option.map_some, asStructural]
    split
    · rfl
    · rfl

theorem freeLayers_noted (h : freeLayers unicode reader weights evidence = .ok settling) :
    settling.Noted := by
  intro bare outcome mem
  rw [freeLayers] at h
  split at h
  · next decided found =>
    obtain rfl := Except.ok.inj h
    obtain rfl := Option.some.inj mem
    obtain ⟨pair, -, rfl⟩ := Option.map_eq_some_iff.mp found
    simp
  · obtain ⟨signals, -, same⟩ := bind_eq_ok.mp h
    obtain rfl := Except.ok.inj same
    obtain rfl : signals = [] := bare
    cases mem

theorem freeLayers_unpaid (h : freeLayers unicode reader weights evidence = .ok settling) :
    settling.Unpaid := by
  intro outcome mem
  rw [freeLayers] at h
  split at h
  · next decided found =>
    obtain rfl := Except.ok.inj h
    obtain rfl := Option.some.inj mem
    obtain ⟨pair, -, rfl⟩ := Option.map_eq_some_iff.mp found
    exact ConsensusMethod.noConfusion
  · obtain ⟨signals, -, same⟩ := bind_eq_ok.mp h
    obtain rfl := Except.ok.inj same
    obtain ⟨resolved, found, rfl⟩ := Option.map_eq_some_iff.mp mem
    rw [asStructural]
    split
    · exact ConsensusMethod.noConfusion
    · rw [method_resolveConsensus found]
      exact ConsensusMethod.noConfusion

theorem layer2_noted (h : settling.Noted) : (layer2 localClassifier evidence settling).Noted := by
  rw [layer2]
  split
  · split
    · intro bare
      simp at bare
    · exact h
  · exact h

theorem layer2_unpaid (h : settling.Unpaid) :
    (layer2 localClassifier evidence settling).Unpaid := by
  rw [layer2]
  split
  · split
    · intro outcome mem
      obtain rfl := Option.some.inj mem
      exact ConsensusMethod.noConfusion
    · exact h
  · exact h

theorem layer3_noted (h : settling.Noted) : (layer3 llmSignal settling).Noted := by
  unfold layer3
  split
  · split
    · intro bare
      simp at bare
    · exact h
  · exact h

theorem layer3_none : layer3 none settling = settling := by
  unfold layer3
  split
  · rfl
  · rfl

theorem layer3_of_escalating (weak : needsEscalation settling.outcome = true) :
    layer3 (some score) settling =
      ⟨some (.ofSignal score .llmZeroShot .layer3LlmFallback), settling.signals ++ [score]⟩ := by
  rw [layer3, if_pos weak]

theorem layer3_of_settled (sure : needsEscalation settling.outcome = false) :
    layer3 llmSignal settling = settling := by
  unfold layer3
  rw [if_neg (by rw [sure]; exact Bool.false_ne_true)]

theorem needsLlmEscalation_eq : needsLlmEscalation unicode reader evidence site localClassifier =
      (freeLayers unicode reader (getWeightProfile site) evidence).map fun settling =>
        needsEscalation (layer2 localClassifier evidence settling).outcome := by
  have suggested (outcome outcome' : Option ConsensusOutcome) (signals : List SignalScore)
      (same : needsEscalation outcome' = needsEscalation outcome) :
      (if needsEscalation outcome then
        match suggestion localClassifier evidence with
        | some score => .ok (score.confidence < llmFallbackConfidenceThreshold)
        | none => .ok (needsEscalation outcome)
      else .ok (needsEscalation outcome) : Except Raised Bool) =
        .ok (needsEscalation (layer2 localClassifier evidence ⟨outcome', signals⟩).outcome) := by
    rw [layer2]
    by_cases weak : needsEscalation outcome = true
    · rw [if_pos weak, if_pos (same.trans weak)]
      cases suggestion localClassifier evidence with
      | none => exact congrArg _ same.symm
      | some score => rfl
    · rw [if_neg weak, if_neg (same ▸ weak)]
      exact congrArg _ same.symm
  rw [needsLlmEscalation, freeLayers]
  cases layer0 unicode evidence with
  | some outcome => exact suggested (some outcome) (some outcome) [] rfl
  | none =>
    cases collectStructuralSignals unicode reader evidence with
    | error raised => rfl
    | ok signals => exact suggested _ _ signals needsEscalation_asStructural

theorem exists_concluded (noted : settling.Noted) : ∃ evaluated, evaluated ≠ [] ∧
    concluded evidence settling =
      (profileOf evidence (settling.outcome.getD unresolved) evaluated).validate := by
  by_cases bare : settling.signals = []
  · have short : (settling.outcome.getD unresolved).notes.length ≤ 500 := by
      cases settled : settling.outcome with
      | none => simp [unresolved]
      | some outcome => exact noted bare outcome settled
    have sure : ((settling.outcome.getD unresolved).opinion
        (coerceValidPair (settling.outcome.getD unresolved).pair)).Sure :=
      ⟨(settling.outcome.getD unresolved).confidence_nonneg,
        (settling.outcome.getD unresolved).confidence_le_one⟩
    obtain ⟨signal, built⟩ := (exists_build sure).mpr short
    refine ⟨[signal], List.cons_ne_nil _ _, ?_⟩
    rw [concluded, if_neg (by simp [bare]), asSignal, built]
    rfl
  · refine ⟨settling.signals, bare, ?_⟩
    rw [concluded, if_pos (by simpa using bare)]
    rfl

variable (localClassifier llmSignal) in
theorem exists_classifyPage
    (free : freeLayers unicode reader (getWeightProfile site) evidence = .ok settling)
    (fit : FieldsFit evidence) :
    ∃ evaluated, classifyPage unicode reader evidence site localClassifier llmSignal none =
      .ok (profileOf evidence ((layer3 llmSignal
        (layer2 localClassifier evidence settling)).outcome.getD unresolved) evaluated) := by
  have noted : (layer3 llmSignal (layer2 localClassifier evidence settling)).Noted :=
    layer3_noted (layer2_noted (freeLayers_noted free))
  obtain ⟨evaluated, audited, same⟩ := exists_concluded noted
  exact ⟨evaluated, bind_eq_ok.mpr ⟨settling, free,
    same.trans ((validate_profileOf audited).mpr ⟨fit, rfl⟩)⟩⟩

theorem fits_of_classifyPage
    (h : classifyPage unicode reader evidence site localClassifier llmSignal none = .ok profile) :
    FieldsFit evidence ∧
      ∃ settling, freeLayers unicode reader (getWeightProfile site) evidence = .ok settling := by
  obtain ⟨settling, free, ended⟩ := bind_eq_ok.mp h
  have noted : (layer3 llmSignal (layer2 localClassifier evidence settling)).Noted :=
    layer3_noted (layer2_noted (freeLayers_noted free))
  obtain ⟨evaluated, audited, same⟩ := exists_concluded noted
  rw [same, validate_profileOf audited] at ended
  exact ⟨ended.1, settling, free⟩

variable (weights) in
theorem exists_freeLayers (short : ∀ source ∈ evidence.sitemapSource, source.length ≤ 200) :
    (∃ settling, freeLayers unicode reader weights evidence = .ok settling) ↔
      (urlFastPath unicode evidence.url = none → SignalsFit unicode reader evidence) := by
  rw [freeLayers, layer0]
  cases urlFastPath unicode evidence.url with
  | some pair => exact iff_of_true ⟨_, rfl⟩ fun fetched => by cases fetched
  | none =>
    simp only [Option.map_none, true_implies, ← exists_collectStructuralSignals short]
    constructor
    · rintro ⟨settling, free⟩
      obtain ⟨signals, collected, -⟩ := bind_eq_ok.mp free
      exact ⟨signals, collected⟩
    · rintro ⟨signals, collected⟩
      exact ⟨_, bind_eq_ok.mpr ⟨signals, collected, rfl⟩⟩

end Layers

/-! ### Who pays -/

section Pays

variable (unicode : UnicodeData) (reader : BlockReader) (evidence : PageEvidence)
  (site : Option SiteProfile) (localClassifier : Option ZeroShotClassifier)

/-- The page is put into the paid batch exactly when the model's answer is taken, and the answer
is ignored otherwise. -/
def PaysForWhatItTakes : Prop :=
  ∃ escalates, needsLlmEscalation unicode reader evidence site localClassifier = .ok escalates ∧
    ∀ llmSignal, ∃ profile,
      classifyPage unicode reader evidence site localClassifier (some llmSignal) none =
          .ok profile ∧
        (escalates = true ↔ profile.escalatedToLlm = true) ∧
        (escalates = true → profile.finalConfidenceScore = llmSignal.confidence ∧
          (profile.hierarchyLevel, profile.primaryPageType) = coerceValidPair llmSignal.pair) ∧
        (escalates = false →
          classifyPage unicode reader evidence site localClassifier none none = .ok profile)

/-- Whatever the model says, there is a profile with a permitted pair and a confidence. -/
def AlwaysClassifies : Prop :=
  ∀ llmSignal, ∃ profile,
    classifyPage unicode reader evidence site localClassifier llmSignal none = .ok profile ∧
      isValidTaxonomyPair profile.hierarchyLevel profile.primaryPageType = true ∧
      0 ≤ profile.finalConfidenceScore ∧ profile.finalConfidenceScore ≤ 1

variable {unicode reader evidence site localClassifier}

theorem paysForWhatItTakes {settling : Settling}
    (free : freeLayers unicode reader (getWeightProfile site) evidence = .ok settling)
    (fit : FieldsFit evidence) :
    PaysForWhatItTakes unicode reader evidence site localClassifier := by
  refine ⟨needsEscalation (layer2 localClassifier evidence settling).outcome, ?_,
    fun llmSignal => ?_⟩
  · rw [needsLlmEscalation_eq, free]
    rfl
  obtain ⟨evaluated, classified⟩ := exists_classifyPage localClassifier (some llmSignal) free fit
  refine ⟨_, classified, ?_⟩
  cases weak : needsEscalation (layer2 localClassifier evidence settling).outcome with
  | true =>
    rw [layer3_of_escalating weak]
    refine ⟨iff_of_true rfl rfl, fun _ => ⟨rfl, rfl⟩, fun sure => ?_⟩
    cases sure
  | false =>
    rw [layer3_of_settled weak] at classified ⊢
    refine ⟨iff_of_false Bool.false_ne_true fun paid => ?_, fun escalated => ?_, fun _ => ?_⟩
    · have unpaid : (layer2 localClassifier evidence settling).Unpaid :=
        layer2_unpaid (freeLayers_unpaid free)
      have taken := of_decide_eq_true paid
      cases settled : (layer2 localClassifier evidence settling).outcome with
      | none =>
        rw [settled] at taken
        cases taken
      | some outcome =>
        rw [settled] at taken
        exact unpaid outcome settled taken
    · cases escalated
    · have same : classifyPage unicode reader evidence site localClassifier none none =
          classifyPage unicode reader evidence site localClassifier (some llmSignal) none := by
        rw [classifyPage, classifyPage]
        simp only [Option.getD_none, free]
        change concluded evidence (layer3 none _) = concluded evidence (layer3 (some llmSignal) _)
        rw [layer3_none, layer3_of_settled weak]
      exact same.trans classified

theorem alwaysClassifies {settling : Settling}
    (free : freeLayers unicode reader (getWeightProfile site) evidence = .ok settling)
    (fit : FieldsFit evidence) :
    AlwaysClassifies unicode reader evidence site localClassifier := by
  intro llmSignal
  obtain ⟨evaluated, classified⟩ := exists_classifyPage localClassifier llmSignal free fit
  exact ⟨_, classified, coerceValidPair_valid _, ConsensusOutcome.confidence_nonneg _,
    ConsensusOutcome.confidence_le_one _⟩

end Pays

/-- **Batching and classifying agree, and every page is classified, exactly where the evidence
fits the contracts it is copied into.** -/
theorem cascades_agree_iff_fits (unicode : UnicodeData) (reader : BlockReader)
    (evidence : PageEvidence) :
    (∀ site localClassifier, PaysForWhatItTakes unicode reader evidence site localClassifier ∧
        AlwaysClassifies unicode reader evidence site localClassifier) ↔
      FieldsFit evidence ∧
        (urlFastPath unicode evidence.url = none → SignalsFit unicode reader evidence) := by
  constructor
  · intro agree
    obtain ⟨profile, classified, -⟩ := (agree none none).2 none
    obtain ⟨fit, free⟩ := fits_of_classifyPage classified
    exact ⟨fit, (exists_freeLayers _ fit.sitemapSource).mp free⟩
  · rintro ⟨fit, signals⟩ site localClassifier
    obtain ⟨settling, free⟩ :=
      (exists_freeLayers (getWeightProfile site) fit.sitemapSource).mpr signals
    exact ⟨paysForWhatItTakes free fit, alwaysClassifies free fit⟩

/-- The canonical that a page declares, within the length that is recorded. -/
def longCanonical : Text := "https://example.com/".toList ++ List.replicate 401 'a'

/-- What the crawl knows of the page: `indexability_of` quotes the canonical in its reason. -/
def canonicalisedPage : PageEvidence where
  url := "https://example.com/a".toList
  canonicalUrl := longCanonical
  indexability := .canonicalisedAway
  indexabilityReason := "Names ".toList ++ longCanonical ++
    (" as its canonical, asking Google to index that instead. " ++
      "A request, not a rule — Google may index this page anyway.").toList
  normalizedPath := "https://example.com/a/".toList
  url_ne := List.cons_ne_nil _ _
  normalizedPath_ne := List.cons_ne_nil _ _

def noBlocks : BlockReader := ⟨fun _ => [], fun _ => .broken, 1000⟩

theorem length_quoted (before host after : Text) (n : Nat) :
    n ≤ (before ++ (host ++ List.replicate n 'a') ++ after).length := by
  simp only [List.length_append, List.length_replicate]
  omega

theorem canonicalised_too_long : ¬canonicalisedPage.indexabilityReason.length ≤ 400 := by
  have long : 401 ≤ canonicalisedPage.indexabilityReason.length := length_quoted _ _ _ 401
  exact Nat.not_le_of_lt long

theorem canonicalised_unsettled : urlFastPath .ascii canonicalisedPage.url = none := by decide

theorem canonicalised_escalates :
    needsLlmEscalation .ascii noBlocks canonicalisedPage none none = .ok true := by
  rw [needsLlmEscalation_eq, freeLayers, layer0, canonicalised_unsettled]
  rfl

/-- The page is put into the paid batch, and whatever the model answers, classifying it raises. -/
theorem long_canonical_raises :
    needsLlmEscalation .ascii noBlocks canonicalisedPage none none = .ok true ∧
      (∀ llmSignal profile, classifyPage .ascii noBlocks canonicalisedPage none none llmSignal none ≠
        .ok profile) ∧
      ¬∀ site localClassifier,
        PaysForWhatItTakes .ascii noBlocks canonicalisedPage site localClassifier ∧
          AlwaysClassifies .ascii noBlocks canonicalisedPage site localClassifier := by
  refine ⟨canonicalised_escalates, fun llmSignal profile classified => ?_, fun agree => ?_⟩
  · exact canonicalised_too_long (fits_of_classifyPage classified).1.indexabilityReason
  · obtain ⟨profile, classified, -⟩ := (agree none none).2 none
    exact canonicalised_too_long (fits_of_classifyPage classified).1.indexabilityReason

end Rankuno.PageClassifier
