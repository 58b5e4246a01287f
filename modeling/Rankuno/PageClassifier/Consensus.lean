import Rankuno.Foundation.WeightedVotes
import Rankuno.PageClassifier.Taxonomy

/-!
# The consensus of the structural signals

`resolve_consensus`: each signal votes for a pair of level and page type, as sure as it is
and as heavy as its source. The pair with the greatest sum wins, and the confidence is that
sum over the weight that took part: a weighted mean. A further signal for the winner that
is less sure than the mean lowers it, and pairs that tie are told apart by the order of the
signals.
-/

namespace Rankuno.PageClassifier

open Python Python.Text
open Placement (PrimaryPageType)
open FrogMerge (ConsensusMethod)

/-- A resolved classification and the layer that settled it. The notes of a consensus are two
counters of a list in memory, far below their limit. -/
structure ConsensusOutcome where
  source : SignalSource
  suggestedLevel : HierarchyLevel
  suggestedPageType : PrimaryPageType
  confidence : ℚ
  notes : Text
  method : ConsensusMethod := .weightedConsensus
  confidence_nonneg : 0 ≤ confidence
  confidence_le_one : confidence ≤ 1

def ConsensusOutcome.pair (outcome : ConsensusOutcome) : HierarchyLevel × PrimaryPageType :=
  (outcome.suggestedLevel, outcome.suggestedPageType)

/-- The tally and the weight of the votes so far. -/
structure Count where
  tally : Dict (HierarchyLevel × PrimaryPageType) ℚ := Table.empty
  participatingWeight : ℚ := 0

section Weights

variable (active : Dict SignalSource ℚ)

/-- `active.get(source, 0.0)`. -/
def weightOf (signal : SignalScore) : ℚ := (Dict.get active signal.source).getD 0

/-- One round of the loop over the signals. -/
def Count.add (count : Count) (signal : SignalScore) : Count :=
  if weightOf active signal ≤ 0 then count
  else {
    tally := Dict.alter count.tally signal.pair 0 (· + signal.confidence * weightOf active signal)
    participatingWeight := count.participatingWeight + weightOf active signal }

/-- The loop over the signals. -/
def countSignals (signals : List SignalScore) : Count := signals.foldl (Count.add active) {}

def voteOf (signal : SignalScore) : Vote (HierarchyLevel × PrimaryPageType) ℚ :=
  ⟨signal.pair, signal.confidence, weightOf active signal⟩

def votesOf (signals : List SignalScore) : List (Vote (HierarchyLevel × PrimaryPageType) ℚ) :=
  signals.map (voteOf active)

def supporters (signals : List SignalScore) (pair : HierarchyLevel × PrimaryPageType) : Nat :=
  signals.countP fun signal => signal.pair = pair && 0 < weightOf active signal

end Weights

section Votes

variable {active : Dict SignalSource ℚ} {signals signals' : List SignalScore}
  {signal : SignalScore}

theorem votesOf_append :
    votesOf active (signals ++ signals') = votesOf active signals ++ votesOf active signals' :=
  List.map_append

theorem votesOf_perm (h : signals.Perm signals') :
    (votesOf active signals).Perm (votesOf active signals') := h.map _

theorem confidence_votesOf :
    ∀ vote ∈ votesOf active signals, 0 ≤ vote.confidence ∧ vote.confidence ≤ 1 := by
  intro vote mem
  obtain ⟨signal, -, rfl⟩ := List.mem_map.mp mem
  exact ⟨signal.confidence_nonneg, signal.confidence_le_one⟩

variable (active signals) in
theorem countSignals_eq : countSignals active signals =
    ⟨WeightedVotes.standing (votesOf active signals),
      WeightedVotes.turnout (votesOf active signals)⟩ := by
  induction signals using List.reverseRecOn with
  | nil => rfl
  | append_singleton signals signal ih =>
    rw [countSignals, List.foldl_append, ← countSignals, ih, votesOf_append, List.foldl_cons,
      List.foldl_nil, Count.add]
    have last : votesOf active [signal] = [voteOf active signal] := rfl
    by_cases light : weightOf active signal ≤ 0
    · have light' : ¬0 < (voteOf active signal).weight := not_lt.mpr light
      rw [if_pos light, last, WeightedVotes.standing, WeightedVotes.standing,
        WeightedVotes.turnout, WeightedVotes.turnout,
        WeightedVotes.counted_append_of_not light']
    · have weighs : 0 < (voteOf active signal).weight := not_le.mp light
      rw [if_neg light, last, WeightedVotes.standing_append weighs,
        WeightedVotes.turnout_append weighs]
      rfl

theorem score_nonneg {pair : HierarchyLevel × PrimaryPageType} {score : ℚ}
    (won : (countSignals active signals).tally.rows.argmax Prod.snd = some (pair, score)) :
    0 ≤ score := by
  rw [countSignals_eq] at won
  obtain ⟨-, rfl⟩ := WeightedVotes.leads_of_winner won
  exact WeightedVotes.support_nonneg fun vote mem => (confidence_votesOf vote mem).1

theorem consensus_nonneg {pair : HierarchyLevel × PrimaryPageType} {score : ℚ}
    (won : (countSignals active signals).tally.rows.argmax Prod.snd = some (pair, score))
    (weighs : ¬((countSignals active signals).tally.rows.isEmpty ∨
      (countSignals active signals).participatingWeight ≤ 0)) :
    0 ≤ min 1 (score / (countSignals active signals).participatingWeight) :=
  le_min zero_le_one (div_nonneg (score_nonneg won) (not_le.mp (not_or.mp weighs).2).le)

end Votes

/-- `resolve_consensus` under the weights it settles on. -/
def consensusUnder (active : Dict SignalSource ℚ) (signals : List SignalScore) :
    Option ConsensusOutcome :=
  if signals.isEmpty then none
  else if weighs : (countSignals active signals).tally.rows.isEmpty ∨
      (countSignals active signals).participatingWeight ≤ 0 then none
  else
    match won : (countSignals active signals).tally.rows.argmax Prod.snd with
    | none => none
    | some ((level, pageType), score) =>
      some {
        source := if supporters active signals (level, pageType) ≠ 0 then .cmsApiEndpoint
          else .sitemapIndex
        suggestedLevel := level
        suggestedPageType := pageType
        confidence := min 1 (score / (countSignals active signals).participatingWeight)
        notes := ofNat (supporters active signals (level, pageType)) ++ " of ".toList ++
          ofNat signals.length ++ " signals agreed".toList
        confidence_nonneg := consensus_nonneg won weighs
        confidence_le_one := min_le_left _ _ }

/-- The weights given, or those of the seam. -/
def activeWeights (weights : Option (Dict SignalSource ℚ)) : Dict SignalSource ℚ :=
  weights.getD (getWeightProfile none)

def resolveConsensus (signals : List SignalScore) (weights : Option (Dict SignalSource ℚ)) :
    Option ConsensusOutcome :=
  consensusUnder (activeWeights weights) signals

/-- What the weights of the signals make of them. -/
abbrev ballots (weights : Option (Dict SignalSource ℚ)) (signals : List SignalScore) :
    List (Vote (HierarchyLevel × PrimaryPageType) ℚ) :=
  votesOf (activeWeights weights) signals

def ConsensusOutcome.verdict (outcome : ConsensusOutcome) :
    (HierarchyLevel × PrimaryPageType) × ℚ := (outcome.pair, outcome.confidence)

section Resolve

variable {weights : Option (Dict SignalSource ℚ)} {signals signals' : List SignalScore}
  {extra : SignalScore} {outcome : ConsensusOutcome}

theorem ballots_append : ballots weights (signals ++ [extra]) =
    ballots weights signals ++ [voteOf (activeWeights weights) extra] := votesOf_append

variable (weights signals) in
/-- **The consensus is the winner of the votes, at its margin.** -/
theorem verdict_resolveConsensus : (resolveConsensus signals weights).map ConsensusOutcome.verdict =
    (WeightedVotes.winner? (ballots weights signals)).map fun won =>
      (won.1, WeightedVotes.margin (ballots weights signals) won.2) := by
  have count := countSignals_eq (activeWeights weights) signals
  cases won : WeightedVotes.winner? (ballots weights signals) with
  | none =>
    unfold resolveConsensus consensusUnder
    split
    · rfl
    · split
      · rfl
      · split
        · rfl
        · next level pageType score found =>
          rw [count] at found
          rw [WeightedVotes.winner?, found] at won
          cases won
  | some pair =>
    have present : WeightedVotes.counted (ballots weights signals) ≠ [] := by
      rw [Ne, ← WeightedVotes.winner?_eq_none, won]
      exact Option.some_ne_none pair
    unfold resolveConsensus consensusUnder
    split
    · next empty =>
      rw [List.isEmpty_iff.mp empty] at present
      exact absurd rfl present
    · split
      · next light =>
        rw [count] at light
        rcases light with bare | light
        · rw [WeightedVotes.winner?, List.isEmpty_iff.mp bare] at won
          cases won
        · exact absurd (WeightedVotes.turnout_pos present) (not_lt.mpr light)
      · split
        · next found =>
          rw [count] at found
          rw [WeightedVotes.winner?, found] at won
          cases won
        · next level pageType score found =>
          rw [count] at found
          rw [WeightedVotes.winner?, found] at won
          cases won
          simp only [Option.map_some, ConsensusOutcome.verdict, ConsensusOutcome.pair, count]
          rfl

theorem winner_of_resolveConsensus (h : resolveConsensus signals weights = some outcome) :
    WeightedVotes.winner? (ballots weights signals) =
        some (outcome.pair, WeightedVotes.support (ballots weights signals) outcome.pair) ∧
      outcome.confidence = WeightedVotes.margin (ballots weights signals)
        (WeightedVotes.support (ballots weights signals) outcome.pair) := by
  have same := verdict_resolveConsensus weights signals
  rw [h, Option.map_some] at same
  obtain ⟨⟨pair, score⟩, won, verdict⟩ := Option.map_eq_some_iff.mp same.symm
  obtain ⟨named, margin⟩ := Prod.mk.inj verdict
  obtain ⟨-, rfl⟩ := WeightedVotes.leads_of_winner won
  rw [← named]
  exact ⟨won, margin.symm⟩

theorem counted_of_resolveConsensus (h : resolveConsensus signals weights = some outcome) :
    WeightedVotes.counted (ballots weights signals) ≠ [] := by
  rw [Ne, ← WeightedVotes.winner?_eq_none, (winner_of_resolveConsensus h).1]
  exact Option.some_ne_none _

theorem confidence_eq (h : resolveConsensus signals weights = some outcome) :
    outcome.confidence = WeightedVotes.support (ballots weights signals) outcome.pair /
      WeightedVotes.turnout (ballots weights signals) :=
  (winner_of_resolveConsensus h).2.trans (WeightedVotes.margin_eq
    (fun vote mem => (confidence_votesOf vote mem).2) (counted_of_resolveConsensus h))

theorem exists_resolveConsensus_append (h : resolveConsensus signals weights = some outcome)
    (weighs : 0 < weightOf (activeWeights weights) extra)
    (agrees : extra.pair = outcome.pair) :
    ∃ outcome', resolveConsensus (signals ++ [extra]) weights = some outcome' ∧
      outcome'.pair = outcome.pair := by
  have won := (winner_of_resolveConsensus h).1
  rw [← agrees] at won
  have still := WeightedVotes.winner?_append (voteOf (activeWeights weights) extra) won weighs
    extra.confidence_nonneg
  have same := verdict_resolveConsensus weights (signals ++ [extra])
  rw [ballots_append, still, Option.map_some] at same
  obtain ⟨outcome', resolved, verdict⟩ := Option.map_eq_some_iff.mp same
  exact ⟨outcome', resolved, (Prod.mk.inj verdict).1.trans agrees⟩

end Resolve

/-! ### Agreement -/

/-- Nothing has more support than the pair returned, in whatever order the signals come, and one
more signal for it keeps it the winner at no less confidence. -/
structure AgreementHelps (weights : Option (Dict SignalSource ℚ)) (signals : List SignalScore)
    (extra : SignalScore) (outcome : ConsensusOutcome) : Prop where
  greatest : ∀ pair, WeightedVotes.support (ballots weights signals) pair ≤
    WeightedVotes.support (ballots weights signals) outcome.pair
  confidence_nonneg : 0 ≤ outcome.confidence
  confidence_le_one : outcome.confidence ≤ 1
  permuted : ∀ signals', signals.Perm signals' →
    (resolveConsensus signals' weights).map ConsensusOutcome.verdict = some outcome.verdict
  agreeing : 0 < weightOf (activeWeights weights) extra → extra.pair = outcome.pair →
    ∃ outcome', resolveConsensus (signals ++ [extra]) weights = some outcome' ∧
      outcome'.pair = outcome.pair ∧ outcome.confidence ≤ outcome'.confidence

section Agreement

variable {weights : Option (Dict SignalSource ℚ)} {signals signals' : List SignalScore}
  {extra : SignalScore} {outcome : ConsensusOutcome}

theorem support_le_of_resolveConsensus (h : resolveConsensus signals weights = some outcome)
    (pair : HierarchyLevel × PrimaryPageType) :
    WeightedVotes.support (ballots weights signals) pair ≤
      WeightedVotes.support (ballots weights signals) outcome.pair := by
  obtain ⟨leads, -⟩ := WeightedVotes.leads_of_winner (winner_of_resolveConsensus h).1
  by_cases named : ∃ vote ∈ WeightedVotes.counted (ballots weights signals), vote.candidate = pair
  · obtain ⟨vote, mem, rfl⟩ := named
    exact leads.greatest vote mem
  · rw [WeightedVotes.support_of_not_named named]
    exact WeightedVotes.support_nonneg fun vote mem => (confidence_votesOf vote mem).1

theorem permuted_iff (h : resolveConsensus signals weights = some outcome) :
    (∀ signals', signals.Perm signals' →
      (resolveConsensus signals' weights).map ConsensusOutcome.verdict = some outcome.verdict) ↔
    WeightedVotes.SoleLeader (ballots weights signals) := by
  have own := verdict_resolveConsensus weights signals
  rw [h, Option.map_some] at own
  rw [← WeightedVotes.forall_perm_winner_iff]
  constructor
  · intro same votes' moved
    obtain ⟨signals', moved', rfl⟩ := WeightedVotes.exists_perm_map moved
    have there := same signals' moved'
    rw [verdict_resolveConsensus] at there
    obtain ⟨⟨pair, score⟩, won, verdict⟩ := Option.map_eq_some_iff.mp there
    obtain rfl : pair = outcome.pair := (Prod.mk.inj verdict).1
    obtain ⟨-, rfl⟩ := WeightedVotes.leads_of_winner won
    rw [(winner_of_resolveConsensus h).1, WeightedVotes.support_perm moved]
    exact won
  · intro same signals' moved
    rw [verdict_resolveConsensus, own, same _ (votesOf_perm moved)]
    simp only [WeightedVotes.margin, WeightedVotes.turnout_perm (votesOf_perm moved)]

/-- **Agreement helps, whatever the order, exactly where one pair leads alone and the further
signal, if it votes for a leader, is at least as sure of it as the mean.** -/
theorem agreementHelps_iff (weights : Option (Dict SignalSource ℚ)) (signals : List SignalScore)
    (extra : SignalScore) :
    (∀ outcome, resolveConsensus signals weights = some outcome →
      AgreementHelps weights signals extra outcome) ↔
    WeightedVotes.SoleLeader (ballots weights signals) ∧
      (0 < weightOf (activeWeights weights) extra →
        WeightedVotes.Leads (ballots weights signals) extra.pair →
        WeightedVotes.support (ballots weights signals) extra.pair ≤
          extra.confidence * WeightedVotes.turnout (ballots weights signals)) := by
  have resolved {pair : HierarchyLevel × PrimaryPageType}
      (leads : WeightedVotes.Leads (ballots weights signals) pair) :
      ∃ outcome, resolveConsensus signals weights = some outcome := by
    obtain ⟨won, score, found⟩ := WeightedVotes.exists_winner leads
    have same := verdict_resolveConsensus weights signals
    rw [found, Option.map_some] at same
    obtain ⟨outcome, h, -⟩ := Option.map_eq_some_iff.mp same
    exact ⟨outcome, h⟩
  have compared {outcome outcome' : ConsensusOutcome}
      (h : resolveConsensus signals weights = some outcome)
      (h' : resolveConsensus (signals ++ [extra]) weights = some outcome')
      (weighs : 0 < weightOf (activeWeights weights) extra)
      (agrees : extra.pair = outcome.pair) (kept : outcome'.pair = outcome.pair) :
      outcome.confidence ≤ outcome'.confidence ↔
        WeightedVotes.support (ballots weights signals) extra.pair ≤
          extra.confidence * WeightedVotes.turnout (ballots weights signals) := by
    rw [confidence_eq h, confidence_eq h', kept, ← agrees, ballots_append]
    exact WeightedVotes.div_le_div_append_iff (voteOf (activeWeights weights) extra) weighs
      (counted_of_resolveConsensus h)
  constructor
  · intro helps
    constructor
    · intro c d hc hd
      obtain ⟨outcome, h⟩ := resolved hc
      exact (permuted_iff h).mp (helps outcome h).permuted c d hc hd
    · intro weighs leads
      obtain ⟨outcome, h⟩ := resolved leads
      have sole := (permuted_iff h).mp (helps outcome h).permuted
      have agrees := sole _ _ leads (WeightedVotes.leads_of_winner
        (winner_of_resolveConsensus h).1).1
      obtain ⟨outcome', h', kept, raised⟩ := (helps outcome h).agreeing weighs agrees
      exact (compared h h' weighs agrees kept).mp raised
  · rintro ⟨sole, sure⟩ outcome h
    refine ⟨support_le_of_resolveConsensus h, outcome.confidence_nonneg,
      outcome.confidence_le_one, (permuted_iff h).mpr sole, fun weighs agrees => ?_⟩
    obtain ⟨outcome', h', kept⟩ := exists_resolveConsensus_append h weighs agrees
    have leads := (WeightedVotes.leads_of_winner (winner_of_resolveConsensus h).1).1
    exact ⟨outcome', h', kept,
      (compared h h' weighs agrees kept).mpr (sure weighs (agrees ▸ leads))⟩

end Agreement

theorem sureness_bounds : (0 : ℚ) ≤ 88 / 100 ∧ (88 / 100 : ℚ) ≤ 1 ∧ (0 : ℚ) ≤ 75 / 100 ∧
    (75 / 100 : ℚ) ≤ 1 := by norm_num

/-- What the CMS says of a post whose parent it does not resolve. -/
def cmsPost : SignalScore where
  source := .cmsApiEndpoint
  suggestedLevel := .l3LeafPage
  suggestedPageType := .blogArticle
  confidence := 88 / 100
  notes := []
  confidence_nonneg := sureness_bounds.1
  confidence_le_one := sureness_bounds.2.1
  notes_length := Nat.zero_le _

/-- What the sitemap of the blog says of it. -/
def blogSitemap : SignalScore where
  source := .sitemapIndex
  suggestedLevel := .l3LeafPage
  suggestedPageType := .blogArticle
  confidence := 75 / 100
  notes := []
  confidence_nonneg := sureness_bounds.2.2.1
  confidence_le_one := sureness_bounds.2.2.2
  notes_length := Nat.zero_le _

/-- The sitemap agrees with the CMS, and the page drops below the threshold of the paid layer. -/
theorem agreeing_sitemap_lowers : (resolveConsensus [cmsPost] none).map ConsensusOutcome.verdict =
        some ((.l3LeafPage, .blogArticle), 88 / 100) ∧
      (resolveConsensus [cmsPost, blogSitemap] none).map ConsensusOutcome.verdict =
        some ((.l3LeafPage, .blogArticle), 828 / 1000) ∧
      (828 / 1000 < FrogMerge.llmFallbackConfidenceThreshold ∧
        FrogMerge.llmFallbackConfidenceThreshold ≤ 88 / 100) ∧
      ¬∀ outcome, resolveConsensus [cmsPost] none = some outcome →
        AgreementHelps none [cmsPost] blogSitemap outcome := by
  have cms : voteOf (activeWeights none) cmsPost =
      ⟨(.l3LeafPage, .blogArticle), 88 / 100, 30 / 100⟩ := rfl
  have sitemap : voteOf (activeWeights none) blogSitemap =
      ⟨(.l3LeafPage, .blogArticle), 75 / 100, 20 / 100⟩ := rfl
  have first : 0 < (voteOf (activeWeights none) cmsPost).weight := by norm_num [cms]
  have second : 0 < (voteOf (activeWeights none) blogSitemap).weight := by norm_num [sitemap]
  have one := WeightedVotes.winner?_singleton first
  have two := WeightedVotes.winner?_append (voteOf (activeWeights none) blogSitemap) one second
    blogSitemap.confidence_nonneg
  have alone : (resolveConsensus [cmsPost] none).map ConsensusOutcome.verdict =
      some ((.l3LeafPage, .blogArticle), 88 / 100) := by
    rw [verdict_resolveConsensus, ballots, votesOf, List.map_singleton, one, Option.map_some,
      WeightedVotes.margin, WeightedVotes.turnout_singleton first]
    norm_num [cms]
  have both : (resolveConsensus [cmsPost, blogSitemap] none).map ConsensusOutcome.verdict =
      some ((.l3LeafPage, .blogArticle), 828 / 1000) := by
    rw [verdict_resolveConsensus, ballots, votesOf, List.map_cons, List.map_singleton,
      ← List.singleton_append, two, Option.map_some, WeightedVotes.margin,
      WeightedVotes.turnout_append second, WeightedVotes.turnout_singleton first]
    norm_num [cms, sitemap]
  refine ⟨alone, both, by norm_num [FrogMerge.llmFallbackConfidenceThreshold], fun helps => ?_⟩
  obtain ⟨outcome, h, verdict⟩ := Option.map_eq_some_iff.mp alone
  obtain ⟨pair, confidence⟩ := Prod.mk.inj verdict
  obtain ⟨outcome', h', -, raised⟩ := (helps outcome h).agreeing second pair.symm
  rw [List.singleton_append] at h'
  rw [h', Option.map_some] at both
  have lower := (Prod.mk.inj (Option.some.inj both)).2
  rw [confidence, lower] at raised
  norm_num at raised

end Rankuno.PageClassifier
