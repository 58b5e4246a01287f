import Mathlib.Tactic.NormNum
import Rankuno.ScreamingFrog.Merge

/-!
# The taxonomy and the weights of its signals

`schemas.py` and `weights.py`: where a page sits and what it is for, the opinions of the
signals on both, and how much each signal weighs.
-/

namespace Rankuno.PageClassifier

open Python
open Placement (PrimaryPageType)

inductive HierarchyLevel where
  | l0Homepage
  | l1PrimaryNavHub
  | l2SubNavHub
  | l3LeafPage
  | utilityPage
  deriving DecidableEq

inductive SignalSource where
  | ariaNavTree
  | cmsApiEndpoint
  | sitemapIndex
  | schemaJsonld
  | linkInDegree
  | llmZeroShot
  deriving DecidableEq

def typeRestrictedToLevels : PrimaryPageType → Option (List HierarchyLevel)
  | .homepage => some [.l0Homepage]
  | .facetedFilter => some [.utilityPage]
  | .utilityLegal => some [.utilityPage]
  | _ => none

def isValidTaxonomyPair (level : HierarchyLevel) (pageType : PrimaryPageType) : Bool :=
  ((typeRestrictedToLevels pageType).all fun allowed => level ∈ allowed) &&
    !(level = .l0Homepage && pageType ≠ .homepage)

/-- One signal's opinion about a page. -/
structure SignalScore where
  source : SignalSource
  suggestedLevel : HierarchyLevel
  suggestedPageType : PrimaryPageType
  confidence : ℚ
  notes : Text
  confidence_nonneg : 0 ≤ confidence
  confidence_le_one : confidence ≤ 1
  notes_length : notes.length ≤ 500

def SignalScore.pair (signal : SignalScore) : HierarchyLevel × PrimaryPageType :=
  (signal.suggestedLevel, signal.suggestedPageType)

/-! ### Weights -/

inductive CmsFamily where
  | wordpress
  | shopify
  | headless
  | unknown
  deriving DecidableEq

/-- What the weights are chosen by. -/
structure SiteProfile where
  cmsFamily : CmsFamily := .unknown
  rendersClientSide : Bool := false

theorem structural_nodup : [SignalSource.cmsApiEndpoint, .ariaNavTree, .sitemapIndex,
    .schemaJsonld, .linkInDegree].Nodup := by decide

/-- `SIGNAL_WEIGHTS`: no weight for the escalation, which replaces the consensus. -/
def signalWeights : Dict SignalSource ℚ where
  rows := [(.cmsApiEndpoint, 30 / 100), (.ariaNavTree, 20 / 100), (.sitemapIndex, 20 / 100),
    (.schemaJsonld, 20 / 100), (.linkInDegree, 10 / 100)]
  keys_nodup := structural_nodup

/-- `_profile`, over the structural signals. -/
def profile (cms aria sitemap schema inDegree : ℚ) : Dict SignalSource ℚ where
  rows := [(.cmsApiEndpoint, cms), (.ariaNavTree, aria), (.sitemapIndex, sitemap),
    (.schemaJsonld, schema), (.linkInDegree, inDegree)]
  keys_nodup := structural_nodup

inductive WeightProfile where
  | default
  | wordpress
  | shopify
  | headless
  deriving DecidableEq

/-- `WEIGHT_PROFILES`. -/
def weightProfiles : WeightProfile → Dict SignalSource ℚ
  | .default => signalWeights
  | .wordpress => profile (38 / 100) (20 / 100) (24 / 100) (12 / 100) (6 / 100)
  | .shopify => profile (42 / 100) (15 / 100) (18 / 100) (20 / 100) (5 / 100)
  | .headless => profile 0 (40 / 100) (26 / 100) (22 / 100) (12 / 100)

/-- `resolve_profile_name`. -/
def resolveProfileName : Option SiteProfile → WeightProfile
  | none => .default
  | some site =>
    if site.rendersClientSide && site.cmsFamily = .unknown then .headless
    else
      match site.cmsFamily with
      | .wordpress => .wordpress
      | .shopify => .shopify
      | .headless => .headless
      | .unknown => .default

def adaptiveWeightsEnabled : Bool := false

def getWeightProfile (site : Option SiteProfile) : Dict SignalSource ℚ :=
  if !adaptiveWeightsEnabled then weightProfiles .default
  else weightProfiles (resolveProfileName site)

end Rankuno.PageClassifier
