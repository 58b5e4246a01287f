import Rankuno.Foundation.SortedScan
import Rankuno.Placement.LogicalHierarchy

/-!
# Which entry of the menu a page is matched to

Pages and entries are compared by the path of their `normalize_url` keys, the host and the
query cut off, and the entries with the longest paths are tried first. A page is matched to
the first entry of the menu at its own path, and without one to the longest path that its
segments start with. The first entry at a path may have another query or host than the page.
-/

namespace Rankuno.Placement

open Python Python.Text UrlKeys
open Performance (othersLabel)

section Menu

variable (unicode : UnicodeData) (tree : NavigationTree) (url : Text)

/-- The linked entries of the menu, without the root of the site, in its order. -/
def linkedEntries : List NavEntry := NavNode.entriesOfAll unicode [] tree.roots

def segmentsOf (path : Text) : List Text := (split '/' path).dropLast

/-- The address of the entry has the key of the page. -/
def NavEntry.Same (entry : NavEntry) : Prop :=
  normalizeUrl unicode entry.url = normalizeUrl unicode url

/-- The segments of the page's path go on where those of the entry's end. -/
def NavEntry.Above (entry : NavEntry) : Prop :=
  segmentsOf entry.key <+: segmentsOf (matchKey unicode url) ∧
    segmentsOf entry.key ≠ segmentsOf (matchKey unicode url)

/-- The page is assigned to an entry with its own key if there is one, else to one with the longest
path above it, else to `OTHERS`; and exactly only where an entry has its key. -/
structure RightlyAssigned (assignment : NavAssignment) : Prop where
  same : (∃ entry ∈ linkedEntries unicode tree, entry.Same unicode url) →
    assignment.matchedExactly = true ∧
      ∃ entry ∈ linkedEntries unicode tree, entry.Same unicode url ∧
        assignment.navParentUrl = some entry.url ∧ assignment.navPath = entry.labels
  inherited : (¬∃ entry ∈ linkedEntries unicode tree, entry.Same unicode url) →
    (∃ entry ∈ linkedEntries unicode tree, entry.Above unicode url) →
    assignment.matchedExactly = false ∧
      ∃ entry ∈ linkedEntries unicode tree, entry.Above unicode url ∧
        (∀ other ∈ linkedEntries unicode tree, other.Above unicode url →
          (segmentsOf other.key).length ≤ (segmentsOf entry.key).length) ∧
        assignment.navParentUrl = some entry.url ∧ assignment.navPath = entry.labels
  others : (¬∃ entry ∈ linkedEntries unicode tree, entry.Same unicode url) →
    (¬∃ entry ∈ linkedEntries unicode tree, entry.Above unicode url) →
    assignment.matchedExactly = false ∧ assignment.navParentUrl = none ∧
      assignment.group = othersLabel
  exactly : assignment.matchedExactly = true →
    ∃ entry ∈ linkedEntries unicode tree, entry.Same unicode url ∧
      assignment.navParentUrl = some entry.url

/-- The first entry of the menu at the page's path, if there is one, has the page's key. -/
def FirstAtPathIsSame : Prop :=
  ∀ first, ((linkedEntries unicode tree).filter fun entry =>
      entry.key = matchKey unicode url).head? = some first → first.Same unicode url

end Menu

section Keys

variable {unicode : UnicodeData} {tree : NavigationTree} {url url' a b : Text}
  {entry : NavEntry}

theorem getLast?_closed (path : Text) :
    (if path.getLast? = some '/' then path else path ++ ['/']).getLast? = some '/' := by
  split
  · next slash => exact slash
  · exact List.getLast?_concat

theorem getLast?_matchKey : (matchKey unicode url).getLast? = some '/' := getLast?_closed _

theorem matchKey_congr (same : normalizeUrl unicode url = normalizeUrl unicode url') :
    matchKey unicode url = matchKey unicode url' := by
  rw [matchKey, matchKey, same]

mutual

theorem key_entries (ancestry : List Text) :
    ∀ node : NavNode, ∀ entry ∈ node.entries unicode ancestry,
      entry.key = matchKey unicode entry.url
  | .node label url children => by
      intro entry mem
      rw [NavNode.entries] at mem
      rcases List.mem_append.mp mem with own | below
      · obtain ⟨-, own⟩ := List.mem_ite_nil_left.mp own
        rw [List.mem_singleton.mp own]
      · exact key_entriesOfAll _ children entry below

theorem key_entriesOfAll (path : List Text) :
    ∀ nodes : List NavNode, ∀ entry ∈ NavNode.entriesOfAll unicode path nodes,
      entry.key = matchKey unicode entry.url
  | [] => by
      intro entry mem
      rw [NavNode.entriesOfAll] at mem
      cases mem
  | node :: nodes => by
      intro entry mem
      rw [NavNode.entriesOfAll] at mem
      rcases List.mem_append.mp mem with first | rest
      · exact key_entries path node entry first
      · exact key_entriesOfAll path nodes entry rest

end

theorem key_linkedEntries (listed : entry ∈ linkedEntries unicode tree) :
    entry.key = matchKey unicode entry.url := key_entriesOfAll [] tree.roots entry listed

theorem prefix_iff_segments (ha : a.getLast? = some '/') (hb : b.getLast? = some '/') :
    a <+: b ↔ segmentsOf a <+: segmentsOf b := by
  obtain ⟨s, rfl⟩ := List.getLast?_eq_some_iff.mp ha
  obtain ⟨t, rfl⟩ := List.getLast?_eq_some_iff.mp hb
  have cut (text : Text) : segmentsOf (text ++ ['/']) = split '/' text := by
    rw [segmentsOf, split_append_sep]
    exact List.dropLast_concat
  rw [cut, cut, split_prefix_split]
  constructor
  · rintro ⟨rest, whole⟩
    cases rest using List.reverseRecOn with
    | nil =>
      rw [List.append_nil] at whole
      exact Or.inl (List.append_cancel_right whole)
    | append_singleton rest last =>
      rw [← List.append_assoc] at whole
      exact Or.inr ⟨rest, (List.append_inj' whole rfl).1⟩
  · rintro (rfl | below)
    · exact List.prefix_refl _
    · exact below.trans (List.prefix_append _ _)

theorem getLast?_key (listed : entry ∈ linkedEntries unicode tree) :
    entry.key.getLast? = some '/' := by
  rw [key_linkedEntries listed]
  exact getLast?_matchKey

theorem above_iff (listed : entry ∈ linkedEntries unicode tree) : entry.Above unicode url ↔
      entry.key <+: matchKey unicode url ∧ entry.key ≠ matchKey unicode url := by
  have key := getLast?_key listed
  have page : (matchKey unicode url).getLast? = some '/' := getLast?_matchKey
  rw [NavEntry.Above, prefix_iff_segments key page]
  refine and_congr_right fun below => not_congr ⟨fun same => ?_, fun same => by rw [same]⟩
  have other : matchKey unicode url <+: entry.key := by
    refine (prefix_iff_segments page key).mpr ⟨[], ?_⟩
    rw [List.append_nil, same]
  exact ((prefix_iff_segments key page).mpr below).eq_of_length_le other.length_le

theorem Same.key (listed : entry ∈ linkedEntries unicode tree) (same : entry.Same unicode url) :
    entry.key = matchKey unicode url := (key_linkedEntries listed).trans (matchKey_congr same)

end Keys

/-! ### The scan -/

section Scan

variable {unicode : UnicodeData} {tree : NavigationTree} {url key : Text}
  {pageType : PrimaryPageType} {entry : NavEntry} {entries : List NavEntry}
  {assignment : NavAssignment}

/-- What a page is assigned by the entry it is matched to. -/
def NavEntry.assigned (entry : NavEntry) (url key : Text) : NavAssignment where
  url := url
  navPath := entry.labels
  navParentUrl := some entry.url
  matchedExactly := decide (key = entry.key)
  group := entry.labels.head?.getD othersLabel

theorem assigned_exactly : (entry.assigned url key).matchedExactly = true ↔ key = entry.key :=
  decide_eq_true_iff

theorem assignOne_of_find?
    (h : entries.find? (fun entry => entry.key.isPrefixOf key) = some entry) :
    assignOne url pageType key entries = entry.assigned url key := by
  induction entries with
  | nil => cases h
  | cons first entries ih =>
    rw [List.find?_cons] at h
    rw [assignOne]
    cases hit : first.key.isPrefixOf key with
    | true =>
      rw [hit] at h
      obtain rfl := Option.some.inj h
      rw [if_pos (Or.inr rfl)]
      rfl
    | false =>
      rw [hit] at h
      have missed : ¬(key = first.key ∨ false = true) := by
        rintro (same | never)
        · rw [same, List.isPrefixOf_iff_prefix.mpr (List.prefix_refl _)] at hit
          cases hit
        · cases never
      rw [if_neg missed]
      exact ih h

theorem assignOne_of_find?_none (h : entries.find? (fun entry => entry.key.isPrefixOf key) = none) :
    assignOne url pageType key entries = { url, navPath := [othersLabel, pageType.value] } := by
  induction entries with
  | nil => rfl
  | cons first entries ih =>
    rw [List.find?_eq_none, List.forall_mem_cons] at h
    have missed : ¬(key = first.key ∨ first.key.isPrefixOf key = true) := by
      rintro (same | hit)
      · exact h.1 (List.isPrefixOf_iff_prefix.mpr (same ▸ List.prefix_refl _))
      · exact h.1 hit
    rw [assignOne, if_neg missed]
    exact ih (List.find?_eq_none.mpr h.2)

variable (unicode tree url) in
/-- What the scan of the sorted entries meets. -/
def hit? : Option NavEntry :=
  (navEntries unicode tree).find? fun entry => entry.key.isPrefixOf (matchKey unicode url)

theorem hit?_eq : hit? unicode tree url =
    (SortedScan.longestFirst (fun entry => entry.key.length) (linkedEntries unicode tree)).find?
      fun entry => entry.key.isPrefixOf (matchKey unicode url) := rfl

theorem mem_of_hit? (h : hit? unicode tree url = some entry) :
    entry ∈ linkedEntries unicode tree ∧ entry.key <+: matchKey unicode url := by
  rw [hit?_eq] at h
  obtain ⟨hit, -⟩ := List.find?_eq_some_iff_append.mp h
  exact ⟨(SortedScan.mem_longestFirst _).mp (List.mem_of_find?_eq_some h),
    List.isPrefixOf_iff_prefix.mp hit⟩

theorem hit?_longest {other : NavEntry} (h : hit? unicode tree url = some entry)
    (listed : other ∈ linkedEntries unicode tree) (start : other.key <+: matchKey unicode url) :
    other.key <+: entry.key := by
  have below := (mem_of_hit? h).2
  rw [hit?_eq] at h
  have hits : other.key.isPrefixOf (matchKey unicode url) = true :=
    List.isPrefixOf_iff_prefix.mpr start
  have shorter := SortedScan.le_of_find? (fun entry : NavEntry => entry.key.length)
    (fun entry => entry.key.isPrefixOf (matchKey unicode url)) h listed hits
  exact List.prefix_of_prefix_length_le start below shorter

theorem hit?_eq_none (h : hit? unicode tree url = none)
    (listed : entry ∈ linkedEntries unicode tree) : ¬entry.key <+: matchKey unicode url :=
  fun start => List.find?_eq_none.mp h entry ((SortedScan.mem_longestFirst _).mpr listed)
    (List.isPrefixOf_iff_prefix.mpr start)

theorem hit?_key {other : NavEntry} (h : hit? unicode tree url = some entry)
    (listed : other ∈ linkedEntries unicode tree) (own : other.key = matchKey unicode url) :
    entry.key = matchKey unicode url :=
  (mem_of_hit? h).2.eq_of_length_le
    (own ▸ (hit?_longest h listed (own ▸ List.prefix_refl _)).length_le)

theorem hit?_first (h : hit? unicode tree url = some entry)
    (own : entry.key = matchKey unicode url) :
    ((linkedEntries unicode tree).filter fun entry =>
      entry.key = matchKey unicode url).head? = some entry := by
  refine SortedScan.head?_filter_of_find? (fun entry : NavEntry => entry.key.length)
    (fun entry => entry.key.isPrefixOf (matchKey unicode url))
    (fun entry => decide (entry.key = matchKey unicode url)) h (decide_eq_true own)
    (fun other at_ => ?_) fun other _ at_ => ?_
  · rw [of_decide_eq_true at_]
    exact List.isPrefixOf_iff_prefix.mpr (List.prefix_refl _)
  · rw [of_decide_eq_true at_, own]

theorem matchedExactly_iff :
    (assignOne url pageType (matchKey unicode url) (navEntries unicode tree)).matchedExactly =
        true ↔ ∃ entry ∈ linkedEntries unicode tree, entry.key = matchKey unicode url := by
  cases found : hit? unicode tree url with
  | none =>
    rw [assignOne_of_find?_none found]
    refine iff_of_false Bool.false_ne_true fun ⟨entry, listed, own⟩ => ?_
    exact hit?_eq_none found listed (own ▸ List.prefix_refl _)
  | some entry =>
    rw [assignOne_of_find? found]
    constructor
    · intro exact_
      exact ⟨entry, (mem_of_hit? found).1, (assigned_exactly.mp exact_).symm⟩
    · rintro ⟨other, listed, own⟩
      exact assigned_exactly.mpr (hit?_key found listed own).symm

theorem rightlyAssigned_of_none (found : hit? unicode tree url = none) :
    RightlyAssigned unicode tree url
      (assignOne url pageType (matchKey unicode url) (navEntries unicode tree)) := by
  have unmatched (entry : NavEntry) (listed : entry ∈ linkedEntries unicode tree) :
      ¬entry.Same unicode url := fun same =>
    hit?_eq_none found listed (Same.key listed same ▸ List.prefix_refl _)
  rw [assignOne_of_find?_none found]
  constructor
  · rintro ⟨entry, listed, same⟩
    exact absurd same (unmatched entry listed)
  · rintro - ⟨entry, listed, above⟩
    exact absurd ((above_iff listed).mp above).1 (hit?_eq_none found listed)
  · intro _ _
    exact ⟨rfl, rfl, rfl⟩
  · intro exact_
    cases exact_

theorem rightlyAssigned_of_some (found : hit? unicode tree url = some entry)
    (right : entry.key = matchKey unicode url → entry.Same unicode url) :
    RightlyAssigned unicode tree url
      (assignOne url pageType (matchKey unicode url) (navEntries unicode tree)) := by
  obtain ⟨listed, start⟩ := mem_of_hit? found
  rw [assignOne_of_find? found]
  by_cases own : entry.key = matchKey unicode url
  · have same := right own
    constructor
    · intro _
      exact ⟨assigned_exactly.mpr own.symm, entry, listed, same, rfl, rfl⟩
    · intro unmatched
      exact absurd ⟨entry, listed, same⟩ unmatched
    · intro unmatched
      exact absurd ⟨entry, listed, same⟩ unmatched
    · intro _
      exact ⟨entry, listed, same, rfl⟩
  · have unmatched : ¬∃ entry ∈ linkedEntries unicode tree, entry.Same unicode url :=
      fun ⟨other, listed', same⟩ => own (hit?_key found listed' (Same.key listed' same))
    have above : entry.Above unicode url := (above_iff listed).mpr ⟨start, own⟩
    have inexact : (entry.assigned url (matchKey unicode url)).matchedExactly = false :=
      Bool.eq_false_iff.mpr fun exact_ => own (assigned_exactly.mp exact_).symm
    constructor
    · intro same
      exact absurd same unmatched
    · intro _ _
      refine ⟨inexact, entry, listed, above, ?_, rfl, rfl⟩
      intro other listed' above'
      have below := hit?_longest found listed' ((above_iff listed').mp above').1
      exact ((prefix_iff_segments (getLast?_key listed') (getLast?_key listed)).mp
        below).length_le
    · intro _ none_
      exact absurd ⟨entry, listed, above⟩ none_
    · intro exact_
      exact absurd (exact_.symm.trans inexact).symm Bool.false_ne_true

variable (pageType) in
/-- **A page is rightly assigned exactly where the first entry at its path has its key.** -/
theorem rightlyAssigned_assignOne_iff : RightlyAssigned unicode tree url
        (assignOne url pageType (matchKey unicode url) (navEntries unicode tree)) ↔
      FirstAtPathIsSame unicode tree url := by
  cases found : hit? unicode tree url with
  | none =>
    refine iff_of_true (rightlyAssigned_of_none found) fun first head => ?_
    obtain ⟨listed, own⟩ := List.mem_filter.mp (List.mem_of_head? head)
    exact absurd (of_decide_eq_true own ▸ List.prefix_refl _) (hit?_eq_none found listed)
  | some entry =>
    constructor
    · intro right first head
      obtain ⟨listed, own⟩ := List.mem_filter.mp (List.mem_of_head? head)
      have own := of_decide_eq_true own
      have here := hit?_key found listed own
      obtain rfl := Option.some.inj ((hit?_first found here).symm.trans head)
      obtain ⟨other, -, same, parent⟩ := right.exactly (matchedExactly_iff.mpr ⟨_, listed, own⟩)
      rw [assignOne_of_find? found] at parent
      rw [NavEntry.Same, ← Option.some.inj parent] at same
      exact same
    · intro first
      exact rightlyAssigned_of_some found fun own => first entry (hit?_first found own)

end Scan

section Pages

variable {ρ : Type} {unicode : UnicodeData} {tree : NavigationTree}
  {pages : List (FullPageIntelligenceProfile ρ)} {page : FullPageIntelligenceProfile ρ}
  {assignment : NavAssignment}

theorem exists_assignOne
    (h : (assignNavigation unicode tree pages).1.get page.url = some assignment) :
    ∃ pageType, assignment =
      assignOne page.url pageType (matchKey unicode page.url) (navEntries unicode tree) := by
  obtain ⟨mem, url⟩ := LastByKey.mem_of_get h
  obtain ⟨other, -, rfl⟩ := List.mem_map.mp mem
  rw [assignOne_url] at url
  exact ⟨other.primaryPageType, by rw [url]⟩

/-- **The pages are rightly assigned exactly where, for each, the first entry of the menu at its
path has its key.** -/
theorem rightlyAssigned_iff_firstAtPathIsSame (unicode : UnicodeData) (tree : NavigationTree)
    (pages : List (FullPageIntelligenceProfile ρ)) :
    (∀ page ∈ pages, ∃ assignment,
        (assignNavigation unicode tree pages).1.get page.url = some assignment ∧
          RightlyAssigned unicode tree page.url assignment) ↔
      ∀ page ∈ pages, FirstAtPathIsSame unicode tree page.url := by
  refine forall₂_congr fun page listed => ?_
  obtain ⟨assignment, found⟩ : ∃ assignment,
      (assignNavigation unicode tree pages).1.get page.url = some assignment :=
    exists_get_assignNavigation listed
  obtain ⟨pageType, rfl⟩ := exists_assignOne found
  rw [found, ← rightlyAssigned_assignOne_iff pageType]
  constructor
  · rintro ⟨assignment, same, right⟩
    rwa [Option.some.inj same]
  · intro right
    exact ⟨_, rfl, right⟩

end Pages

/-- A menu that lists one path under two queries. -/
def resourcesMenu : NavigationTree where
  roots := [.node "Resources".toList (some "https://e.com/resources/".toList)
    [.node "Templates".toList (some "https://e.com/resources/?ps=templates".toList) []]]

/-- The page of the second entry. -/
def templatesPage : FullPageIntelligenceProfile Unit where
  url := "https://e.com/resources/?ps=templates".toList
  primaryPageType := .blogHub
  facts := ()

/-- What the page is assigned. -/
def templatesAssignment : NavAssignment where
  url := templatesPage.url
  navPath := ["Resources".toList]
  navParentUrl := some "https://e.com/resources/".toList
  matchedExactly := true
  group := "Resources".toList

theorem templates_get :
    (assignNavigation .ascii resourcesMenu [templatesPage]).1.get templatesPage.url =
      some templatesAssignment := by decide

theorem resources_other_key : normalizeUrl .ascii "https://e.com/resources/".toList ≠
    normalizeUrl .ascii templatesPage.url := by decide

/-- The page is an entry of the menu and is assigned exactly to another. -/
theorem templates_assigned_to_resources :
    (∃ entry ∈ linkedEntries .ascii resourcesMenu, entry.Same .ascii templatesPage.url) ∧
      (∃ assignment, (assignNavigation .ascii resourcesMenu [templatesPage]).1.get
          templatesPage.url = some assignment ∧ assignment.matchedExactly = true ∧
        assignment.navParentUrl = some "https://e.com/resources/".toList) ∧
      ¬∀ page ∈ [templatesPage], ∃ assignment,
        (assignNavigation .ascii resourcesMenu [templatesPage]).1.get page.url = some assignment ∧
          RightlyAssigned .ascii resourcesMenu page.url assignment := by
  refine ⟨?_, ⟨templatesAssignment, templates_get, rfl, rfl⟩, fun right => ?_⟩
  · exact ⟨⟨"/resources/".toList, ["Resources".toList, "Templates".toList], templatesPage.url⟩,
      by decide, rfl⟩
  · obtain ⟨assignment, found, assigned⟩ := right templatesPage List.mem_cons_self
    obtain rfl := Option.some.inj (templates_get.symm.trans found)
    obtain ⟨entry, -, same, parent⟩ := assigned.exactly rfl
    rw [NavEntry.Same, ← Option.some.inj parent] at same
    exact resources_other_key same

end Rankuno.Placement
