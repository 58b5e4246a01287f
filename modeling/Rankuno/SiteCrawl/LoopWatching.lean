import Mathlib.Data.Finset.Card
import Mathlib.Data.List.Sort
import Rankuno.SiteCrawl.Graph
import Rankuno.UrlKeys.Hosts

/-!
# Relative-link loops: the watcher against the whole corpus

`find_relative_loops` reads all the URLs of a crawl at once: a tail is a loop when
enough URLs end in it, at enough depths. `LoopWatcher` decides while the crawl
runs. It files one entry for each time it is asked, so a URL that many pages link
to counts many times, and it names what is to be taken out by its key, which a URL
with another tail may have as well. The two agree exactly where neither changes
what is decided, `CountsAlike`.
-/

namespace Rankuno

open Python Python.Text UrlKeys

section WholeCorpus

/-- `TAIL_SEGMENTS`. -/
def tailSegments : Nat := 3

/-- `_tail_of`. -/
def tailOf (unicode : UnicodeData) (url : String) : Option (String × Nat) :=
  match safeSplit unicode url.toList with
  | none => none
  | some parts =>
    let segments := (split '/' parts.path).filter fun segment => segment ≠ []
    if segments.length < tailSegments then none
    else
      some (String.ofList (join ['/'] (segments.drop (segments.length - tailSegments))),
        segments.length)

structure LoopSignature where
  tail : String
  urlCount : Nat
  depthCount : Nat
  deriving DecidableEq

structure LoopReport where
  signatures : List LoopSignature := []
  urls : List String := []
  deriving DecidableEq

variable (rules : UrlRules)

/-- `by_tail[tail]`. -/
def UrlRules.byTail (urls : List String) (tail : String) : List String :=
  urls.filter fun url => (rules.tailOf url).any fun found => found.1 = tail

/-- `depths[tail]`. -/
def UrlRules.depthsUnder (urls : List String) (tail : String) : List Nat :=
  ((rules.byTail urls tail).filterMap fun url => (rules.tailOf url).map Prod.snd).dedup

/-- The URLs are enough of a loop under a tail: many, at many depths. -/
def UrlRules.Loops (urls : List String) (tail : String) : Prop :=
  minLoopUrls ≤ (rules.byTail urls tail).length ∧
    minDepthSpread ≤ (rules.depthsUnder urls tail).length

instance (urls : List String) (tail : String) : Decidable (rules.Loops urls tail) :=
  inferInstanceAs (Decidable (_ ∧ _))

/-- `find_relative_loops`. -/
def findRelativeLoops (urls : List String) : LoopReport :=
  let tails := (urls.filterMap fun url => (rules.tailOf url).map Prod.fst).eraseDups
  let loops := tails.filter fun tail => rules.Loops urls tail
  let signatures := loops.map fun tail =>
    ⟨tail, (rules.byTail urls tail).length, (rules.depthsUnder urls tail).length⟩
  { signatures := signatures.insertionSort fun a b => b.urlCount ≤ a.urlCount
    urls := (loops.flatMap fun tail => rules.byTail urls tail).insertionSort (· ≤ ·) }

/-- The URL ends in a tail under which the URLs are a loop. -/
def UrlRules.InLoop (urls : List String) (url : String) : Prop :=
  ∃ found ∈ rules.tailOf url, rules.Loops urls found.1

end WholeCorpus

section Offers

/-- One call of `add`. -/
structure Offer where
  url : String
  domLink : Bool := true
  deriving DecidableEq

variable {rules : UrlRules}

/-- A URL the watcher is asked about: no root, no media, no trap, not malformed. -/
def UrlRules.watched (rules : UrlRules) (settings : CrawlSettings) (url : String) : Bool :=
  url ≠ settings.baseUrl && rules.isCrawlableUrl url && !rules.isSpiderTrap url &&
    !rules.isMalformedUrl url

/-- The URLs among the offers that the watcher is asked about, as often as it is. -/
def UrlRules.heard (rules : UrlRules) (settings : CrawlSettings) (offers : List Offer) :
    List String :=
  (offers.map Offer.url).filter fun url => rules.watched settings url

namespace SiteGraph

/-- What the watcher answers when the URL is added. -/
def judge (g : SiteGraph rules) (settings : CrawlSettings) (url : String) : LoopVerdict :=
  if rules.watched settings url then
    g.loops.observe (rules.tailOf url) (rules.normalizeUrl url)
  else ⟨false, [], g.loops⟩

/-- Add the URL, and keep whether another one's last word from the watcher was that
it is part of a loop. -/
def offer (settings : CrawlSettings) (url : String) (s : SiteGraph rules × Bool) (o : Offer) :
    SiteGraph rules × Bool :=
  let verdict := s.1.judge settings o.url
  ((s.1.add settings o.domLink o.url).1,
    if rules.normalizeUrl url ∈ verdict.evict then true
    else if o.url = url then verdict.refuse
    else s.2)

end SiteGraph

/-- The URL ends refused or evicted as the member of a loop. -/
def UrlRules.endsLooped (rules : UrlRules) (settings : CrawlSettings) (offers : List Offer)
    (url : String) : Bool :=
  (offers.foldl (SiteGraph.offer settings url) (({} : SiteGraph rules), false)).2

/-- The watcher's decisions are the rule's, on the set of the URLs offered. -/
def UrlRules.FollowsCorpus (rules : UrlRules) (settings : CrawlSettings) (offers : List Offer) :
    Prop :=
  ∀ url ∈ offers.map Offer.url, rules.watched settings url → (rules.endsLooped settings offers url ↔
      url ∈ (findRelativeLoops rules (offers.map Offer.url).dedup).urls)

/-- The last offer completes a loop that has a member under the key. -/
def UrlRules.Completes (rules : UrlRules) (settings : CrawlSettings) (offers : List Offer)
    (o : Offer) (key : String) : Prop :=
  rules.watched settings o.url ∧ ∃ found ∈ rules.tailOf o.url,
    ¬rules.Loops (rules.heard settings offers) found.1 ∧
      rules.Loops (rules.heard settings (offers ++ [o])) found.1 ∧
        ∃ url ∈ rules.byTail (rules.heard settings (offers ++ [o])) found.1,
          rules.normalizeUrl url = key

/-- After the last offer of the URL, a loop is completed that has a member under its
key. -/
def UrlRules.KeySwept (rules : UrlRules) (settings : CrawlSettings) (offers : List Offer)
    (url : String) : Prop :=
  ∃ before o after, offers = before ++ o :: after ∧ url ∉ (o :: after).map Offer.url ∧
    rules.Completes settings before o (rules.normalizeUrl url)

/-- For every URL the watcher is asked about, the offers make a loop of its tail, or
of one with a member under its key later on, exactly where the distinct URLs make a
loop of its tail. -/
def UrlRules.CountsAlike (rules : UrlRules) (settings : CrawlSettings) (offers : List Offer) :
    Prop :=
  ∀ url ∈ offers.map Offer.url, rules.watched settings url →
    (rules.InLoop (rules.heard settings offers) url ∨ rules.KeySwept settings offers url ↔
      rules.InLoop (offers.map Offer.url).dedup url)

end Offers

section Lemmas

variable {rules : UrlRules} {urls : List String} {url tail : String}

theorem UrlRules.mem_byTail : url ∈ rules.byTail urls tail ↔
    url ∈ urls ∧ ∃ depth, rules.tailOf url = some (tail, depth) := by
  rw [byTail, List.mem_filter, Option.any_eq_true]
  refine and_congr_right fun _ => ⟨?_, ?_⟩
  · rintro ⟨found, there, same⟩
    exact ⟨found.2, by rw [there, ← of_decide_eq_true same]⟩
  · rintro ⟨depth, there⟩
    exact ⟨(tail, depth), there, decide_eq_true rfl⟩

theorem mem_urls_findRelativeLoops :
    url ∈ (findRelativeLoops rules urls).urls ↔ url ∈ urls ∧ rules.InLoop urls url := by
  rw [findRelativeLoops, (List.perm_insertionSort _ _).mem_iff, List.mem_flatMap]
  constructor
  · rintro ⟨tail, among, mem⟩
    obtain ⟨there, depth, found⟩ := UrlRules.mem_byTail.mp mem
    exact ⟨there, (tail, depth), found, of_decide_eq_true (List.mem_filter.mp among).2⟩
  · rintro ⟨there, found, tails, loops⟩
    refine ⟨found.1, List.mem_filter.mpr ⟨?_, decide_eq_true loops⟩,
      UrlRules.mem_byTail.mpr ⟨there, found.2, tails⟩⟩
    rw [List.mem_eraseDups, List.mem_filterMap]
    exact ⟨url, there, by rw [tails]; rfl⟩

namespace UrlRules

theorem byTail_append (others : List String) :
    rules.byTail (urls ++ others) tail = rules.byTail urls tail ++ rules.byTail others tail :=
  List.filter_append _ _

theorem Loops.append (h : rules.Loops urls tail) (others : List String) :
    rules.Loops (urls ++ others) tail := by
  constructor
  · rw [byTail_append, List.length_append]
    exact Nat.le_add_right_of_le h.1
  · refine Nat.le_trans h.2 ?_
    simp only [depthsUnder, ← List.card_toFinset, byTail_append, List.filterMap_append,
      List.toFinset_append]
    exact Finset.card_le_card Finset.subset_union_left

/-- What the watcher files for a URL. -/
def member? (rules : UrlRules) (url : String) : Option LoopMember :=
  (rules.tailOf url).map fun found => ⟨found.1, found.2, rules.normalizeUrl url⟩

/-- What it files under a tail before that is confirmed. -/
def membersUnder (rules : UrlRules) (urls : List String) (tail : String) : List LoopMember :=
  (rules.byTail urls tail).filterMap rules.member?

theorem membersUnder_append (others : List String) : rules.membersUnder (urls ++ others) tail =
      rules.membersUnder urls tail ++ rules.membersUnder others tail := by
  rw [membersUnder, byTail_append, List.filterMap_append]
  rfl

theorem membersUnder_of_found {depth : Nat} (found : rules.tailOf url = some (tail, depth)) :
    rules.membersUnder [url] tail = [⟨tail, depth, rules.normalizeUrl url⟩] := by
  have filed : rules.byTail [url] tail = [url] := by
    rw [byTail, List.filter_cons_of_pos (by simp [found]), List.filter_nil]
  rw [membersUnder, filed]
  simp [member?, found]

theorem byTail_of_other (other : ∀ depth, rules.tailOf url ≠ some (tail, depth)) :
    rules.byTail [url] tail = [] := by
  refine List.eq_nil_iff_forall_not_mem.mpr fun also mem => ?_
  obtain ⟨same, depth, found⟩ := mem_byTail.mp mem
  rw [List.mem_singleton.mp same] at found
  exact other depth found

theorem membersUnder_of_other (other : ∀ depth, rules.tailOf url ≠ some (tail, depth)) :
    rules.membersUnder [url] tail = [] := by
  rw [membersUnder, byTail_of_other other, List.filterMap_nil]

theorem loops_append_of_other (other : ∀ depth, rules.tailOf url ≠ some (tail, depth)) :
    rules.Loops (urls ++ [url]) tail ↔ rules.Loops urls tail := by
  rw [Loops, Loops, depthsUnder, depthsUnder, byTail_append, byTail_of_other other, List.append_nil]

theorem isLoop_membersUnder :
    LoopWatcher.isLoop (rules.membersUnder urls tail) = true ↔ rules.Loops urls tail := by
  have lengths : (rules.membersUnder urls tail).length = (rules.byTail urls tail).length := by
    refine Nat.le_antisymm (List.length_filterMap_le _ _) (Nat.not_lt.mp fun fewer => ?_)
    obtain ⟨url, mem, unfiled⟩ := List.length_filterMap_lt_length_iff_exists.mp fewer
    obtain ⟨-, depth, found⟩ := mem_byTail.mp mem
    rw [member?, found] at unfiled
    cases unfiled
  have depths : ((rules.membersUnder urls tail).map LoopMember.depth).dedup =
      rules.depthsUnder urls tail := by
    rw [depthsUnder, membersUnder, List.map_filterMap]
    congr 2
    funext url
    rw [member?, Option.map_map]
    rfl
  rw [LoopWatcher.isLoop, Bool.and_eq_true, decide_eq_true_eq, decide_eq_true_eq, lengths, depths,
    Loops]

end UrlRules

/-- What a watcher that was asked about the URLs holds: the loops among their tails,
and the members of the other ones. -/
structure LoopWatcher.Heard (rules : UrlRules) (urls : List String) (w : LoopWatcher) : Prop where
  confirmed : ∀ tail, tail ∈ w.confirmed ↔ rules.Loops urls tail
  members : ∀ tail, ¬rules.Loops urls tail →
    (w.members.filter fun m => m.tail = tail) = rules.membersUnder urls tail

namespace LoopWatcher

variable {w : LoopWatcher}

/-- The URL completes a loop that has a member under the key. -/
def Takes (rules : UrlRules) (urls : List String) (url key : String) : Prop :=
  ∃ found ∈ rules.tailOf url, ¬rules.Loops urls found.1 ∧ rules.Loops (urls ++ [url]) found.1 ∧
    ∃ other ∈ rules.byTail (urls ++ [url]) found.1, rules.normalizeUrl other = key

/-- What `observe` answers on a URL, after those it was asked about before. -/
structure Answers (rules : UrlRules) (urls : List String) (url : String) (v : LoopVerdict) :
    Prop where
  heard : v.watcher.Heard rules (urls ++ [url])
  refuse : v.refuse = true ↔ rules.InLoop (urls ++ [url]) url
  evict : ∀ key, key ∈ v.evict ↔ Takes rules urls url key

theorem Heard.members_of_other (h : w.Heard rules urls)
    (other : ∀ depth, rules.tailOf url ≠ some (tail, depth))
    (unconfirmed : ¬rules.Loops (urls ++ [url]) tail) :
    (w.members.filter fun m => m.tail = tail) = rules.membersUnder (urls ++ [url]) tail := by
  rw [UrlRules.loops_append_of_other other] at unconfirmed
  rw [h.members tail unconfirmed, UrlRules.membersUnder_append,
    UrlRules.membersUnder_of_other other, List.append_nil]

theorem Heard.answers_of_none (h : w.Heard rules urls) (tailless : rules.tailOf url = none)
    (key : String) : Answers rules urls url (w.observe (rules.tailOf url) key) := by
  have other : ∀ tail depth, rules.tailOf url ≠ some (tail, depth) := by
    intro tail depth found
    rw [tailless] at found
    cases found
  rw [tailless, observe]
  constructor
  · exact ⟨fun tail => (h.confirmed tail).trans (UrlRules.loops_append_of_other (other tail)).symm,
      fun tail => h.members_of_other (other tail)⟩
  · refine iff_of_false Bool.false_ne_true ?_
    rintro ⟨found, there, -⟩
    exact other found.1 found.2 there
  · refine fun key => iff_of_false List.not_mem_nil ?_
    rintro ⟨found, there, -⟩
    exact other found.1 found.2 there

theorem Heard.answers_of_confirmed (h : w.Heard rules urls) {depth : Nat}
    (found : rules.tailOf url = some (tail, depth)) (loops : rules.Loops urls tail)
    (key : String) : Answers rules urls url (w.observe (rules.tailOf url) key) := by
  have unchanged : ∀ t, rules.Loops (urls ++ [url]) t ↔ rules.Loops urls t := by
    intro t
    by_cases same : t = tail
    · rw [same]
      exact iff_of_true (loops.append [url]) loops
    · refine UrlRules.loops_append_of_other fun d there => ?_
      rw [found, Option.some.injEq, Prod.mk.injEq] at there
      exact same there.1.symm
  rw [found, observe, if_pos ((h.confirmed tail).mpr loops)]
  constructor
  · refine ⟨fun t => (h.confirmed t).trans (unchanged t).symm, fun t unconfirmed => ?_⟩
    refine h.members_of_other (fun d there => unconfirmed ?_) unconfirmed
    rw [found, Option.some.injEq, Prod.mk.injEq] at there
    rw [← there.1]
    exact loops.append [url]
  · have inLoop : rules.InLoop (urls ++ [url]) url := ⟨(tail, depth), found, loops.append [url]⟩
    exact iff_of_true rfl inLoop
  · refine fun key => iff_of_false List.not_mem_nil ?_
    rintro ⟨other, there, fresh, -⟩
    rw [found, Option.mem_some_iff] at there
    rw [← there] at fresh
    exact fresh loops

theorem Heard.answers_of_open (h : w.Heard rules urls) {depth : Nat}
    (found : rules.tailOf url = some (tail, depth)) (fresh : ¬rules.Loops urls tail) :
    Answers rules urls url (w.observe (rules.tailOf url) (rules.normalizeUrl url)) := by
  have mine : ((w.members ++ [(⟨tail, depth, rules.normalizeUrl url⟩ : LoopMember)]).filter
      fun m => m.tail = tail) = rules.membersUnder (urls ++ [url]) tail := by
    rw [List.filter_append, h.members tail fresh, UrlRules.membersUnder_append,
      UrlRules.membersUnder_of_found found, List.filter_cons_of_pos (by simp), List.filter_nil]
  have other : ∀ {t}, t ≠ tail → ∀ d, rules.tailOf url ≠ some (t, d) := by
    intro t apart d there
    rw [found, Option.some.injEq, Prod.mk.injEq] at there
    exact apart there.1.symm
  rw [found, observe, if_neg (mt (h.confirmed tail).mp fresh)]
  simp only [List.partition_eq_filter_filter, mine]
  split
  · next loop =>
    have loops := UrlRules.isLoop_membersUnder.mp loop
    have inLoop : rules.InLoop (urls ++ [url]) url := ⟨(tail, depth), found, loops⟩
    constructor
    · constructor
      · intro t
        rw [List.mem_cons, h.confirmed t]
        by_cases same : t = tail
        · exact iff_of_true (.inl same) (same ▸ loops)
        · rw [UrlRules.loops_append_of_other (other same), or_iff_right same]
      · intro t unconfirmed
        have apart : t ≠ tail := fun same => unconfirmed (same ▸ loops)
        rw [List.filter_filter, ← h.members_of_other (other apart) unconfirmed,
          List.filter_append, List.filter_cons_of_neg (by simp [apart.symm]), List.filter_nil,
          List.append_nil]
        refine List.filter_congr fun m _ => ?_
        by_cases there : m.tail = t
        · simp [there, apart]
        · simp [there]
    · exact iff_of_true rfl inLoop
    · intro key
      rw [List.mem_map]
      constructor
      · rintro ⟨m, mem, rfl⟩
        obtain ⟨also, filed, isMember⟩ := List.mem_filterMap.mp mem
        refine ⟨(tail, depth), found, fresh, loops, also, filed, ?_⟩
        obtain ⟨-, d, there⟩ := UrlRules.mem_byTail.mp filed
        rw [UrlRules.member?, there, Option.map_some, Option.some.injEq] at isMember
        rw [← isMember]
      · rintro ⟨its, there, -, -, also, filed, rfl⟩
        rw [found, Option.mem_some_iff] at there
        rw [← there] at filed
        obtain ⟨-, d, tails⟩ := UrlRules.mem_byTail.mp filed
        refine ⟨⟨tail, d, rules.normalizeUrl also⟩, List.mem_filterMap.mpr ⟨also, filed, ?_⟩, rfl⟩
        rw [UrlRules.member?, tails]
        rfl
  · next short =>
    have unconfirmed := mt UrlRules.isLoop_membersUnder.mpr short
    constructor
    · constructor
      · intro t
        rw [h.confirmed t]
        by_cases same : t = tail
        · rw [same]
          exact iff_of_false fresh unconfirmed
        · exact (UrlRules.loops_append_of_other (other same)).symm
      · intro t still
        by_cases same : t = tail
        · rw [same]
          exact mine
        · rw [List.filter_append, List.filter_cons_of_neg (by simp [Ne.symm same]),
            List.filter_nil, List.append_nil]
          exact h.members_of_other (other same) still
    · refine iff_of_false Bool.false_ne_true ?_
      rintro ⟨its, there, loops⟩
      rw [found, Option.mem_some_iff] at there
      rw [← there] at loops
      exact unconfirmed loops
    · refine fun key => iff_of_false List.not_mem_nil ?_
      rintro ⟨its, there, -, loops, -⟩
      rw [found, Option.mem_some_iff] at there
      rw [← there] at loops
      exact unconfirmed loops

theorem Heard.answers (h : w.Heard rules urls) (url : String) :
    Answers rules urls url (w.observe (rules.tailOf url) (rules.normalizeUrl url)) := by
  cases found : rules.tailOf url with
  | none => exact found ▸ h.answers_of_none found _
  | some its =>
    by_cases loops : rules.Loops urls its.1
    · exact found ▸ h.answers_of_confirmed found loops _
    · exact found ▸ h.answers_of_open found loops

theorem Heard.empty : Heard rules [] {} where
  confirmed tail := iff_of_false List.not_mem_nil fun loops => by cases loops.1
  members _ _ := rfl

end LoopWatcher

section Runs

variable {settings : CrawlSettings} {g : SiteGraph rules} {offers : List Offer} {o : Offer}

theorem SiteGraph.loops_add {domLink : Bool} :
    (g.add settings domLink url).1.loops = (g.judge settings url).watcher := by
  have insert : ∀ g : SiteGraph rules, (g.insertNode settings domLink url).1.loops = g.loops := by
    intro g
    rw [insertNode]
    split
    · rfl
    · split <;> rfl
  rw [add, judge]
  split
  · next root => rw [insert, UrlRules.watched, if_neg (by simp [root])]
  · next leaf =>
    split
    · next refused =>
      have unheard : ¬rules.watched settings url := by
        rw [UrlRules.watched]
        grind
      rw [if_neg unheard]
    · next passes =>
      have heard : rules.watched settings url := by
        rw [UrlRules.watched]
        grind
      rw [if_pos heard]
      simp only
      split
      · rfl
      · split
        · rfl
        · rw [insert]

theorem UrlRules.heard_append : rules.heard settings (offers ++ [o]) =
    rules.heard settings offers ++ if rules.watched settings o.url then [o.url] else [] := by
  rw [heard, heard, List.map_append, List.filter_append, List.map_singleton,
    List.filter_cons, List.filter_nil]

theorem SiteGraph.judge_answers (h : g.loops.Heard rules (rules.heard settings offers)) :
    (g.judge settings o.url).watcher.Heard rules (rules.heard settings (offers ++ [o])) ∧
      (rules.watched settings o.url → ((g.judge settings o.url).refuse = true ↔
        rules.InLoop (rules.heard settings (offers ++ [o])) o.url)) ∧
      ∀ key, key ∈ (g.judge settings o.url).evict ↔ rules.Completes settings offers o key := by
  rw [judge]
  split
  · next watched =>
    have answers := h.answers o.url
    have now : rules.heard settings (offers ++ [o]) = rules.heard settings offers ++ [o.url] := by
      rw [UrlRules.heard_append, if_pos watched]
    rw [now]
    refine ⟨answers.heard, fun _ => answers.refuse, fun key => (answers.evict key).trans ?_⟩
    rw [UrlRules.Completes, now, LoopWatcher.Takes]
    exact (and_iff_right watched).symm
  · next unheard =>
    rw [UrlRules.heard_append, if_neg unheard, List.append_nil]
    refine ⟨h, fun watched => absurd watched unheard, fun key => ?_⟩
    exact iff_of_false List.not_mem_nil fun completes => unheard completes.1

theorem SiteGraph.heard_offers (settings : CrawlSettings) (url : String) (offers : List Offer) :
    (offers.foldl (SiteGraph.offer settings url)
      (({} : SiteGraph rules), false)).1.loops.Heard rules (rules.heard settings offers) := by
  induction offers using List.reverseRecOn with
  | nil => exact LoopWatcher.Heard.empty
  | append_singleton offers o ih =>
    rw [List.foldl_append, List.foldl_cons, List.foldl_nil, offer, loops_add]
    exact (judge_answers ih).1

theorem UrlRules.keySwept_append : rules.KeySwept settings (offers ++ [o]) url ↔
    o.url ≠ url ∧ (rules.Completes settings offers o (rules.normalizeUrl url) ∨
      rules.KeySwept settings offers url) := by
  constructor
  · rintro ⟨before, last, after, split, unoffered, completes⟩
    induction after using List.reverseRecOn with
    | nil =>
      obtain ⟨rfl, same⟩ := List.append_inj' split rfl
      rw [List.singleton_inj.mp same] at *
      exact ⟨fun same => unoffered (by simp [same]), .inl completes⟩
    | append_singleton after also _ =>
      rw [← List.cons_append, ← List.append_assoc] at split
      obtain ⟨rfl, same⟩ := List.append_inj' split rfl
      rw [List.singleton_inj.mp same]
      simp only [List.map_cons, List.map_append, List.mem_cons, List.mem_append, not_or]
        at unoffered
      refine ⟨fun same => unoffered.2.2.1 same.symm, .inr ⟨before, last, after, rfl, ?_, completes⟩⟩
      simp only [List.map_cons, List.mem_cons, not_or]
      exact ⟨unoffered.1, unoffered.2.1⟩
  · rintro ⟨other, completes | ⟨before, last, after, rfl, unoffered, completes⟩⟩
    · exact ⟨offers, o, [], rfl, by simpa using other.symm, completes⟩
    · refine ⟨before, last, after ++ [o], by simp, ?_, completes⟩
      rw [← List.cons_append, List.map_append, List.mem_append, not_or]
      exact ⟨unoffered, by simpa using other.symm⟩

theorem UrlRules.completes_of_inLoop (watched : rules.watched settings url)
    (offered : url ∈ offers.map Offer.url)
    (before : ¬rules.InLoop (rules.heard settings offers) url)
    (now : rules.InLoop (rules.heard settings (offers ++ [o])) url) :
    rules.Completes settings offers o (rules.normalizeUrl url) := by
  obtain ⟨⟨tail, depth⟩, found, loops⟩ := now
  have fresh : ¬rules.Loops (rules.heard settings offers) tail := by
    intro already
    exact before ⟨(tail, depth), found, already⟩
  have heard : url ∈ rules.heard settings (offers ++ [o]) := by
    rw [UrlRules.heard, List.map_append]
    exact List.mem_filter.mpr ⟨List.mem_append_left _ offered, watched⟩
  have asked : rules.watched settings o.url := by
    by_contra unheard
    rw [UrlRules.heard_append, if_neg unheard, List.append_nil] at loops
    exact fresh loops
  have shares : ∃ d, rules.tailOf o.url = some (tail, d) := by
    by_contra none
    rw [UrlRules.heard_append, if_pos asked, loops_append_of_other (not_exists.mp none)] at loops
    exact fresh loops
  obtain ⟨d, shares⟩ := shares
  exact ⟨asked, (tail, d), shares, fresh, loops, url, mem_byTail.mpr ⟨heard, depth, found⟩, rfl⟩

theorem UrlRules.endsLooped_append_of_completes
    (completes : rules.Completes settings offers o (rules.normalizeUrl url)) :
    rules.endsLooped settings (offers ++ [o]) url = true := by
  obtain ⟨-, -, evict⟩ :=
    SiteGraph.judge_answers (o := o) (SiteGraph.heard_offers settings url offers)
  rw [endsLooped, List.foldl_append, List.foldl_cons, List.foldl_nil, SiteGraph.offer]
  exact if_pos ((evict _).mpr completes)

theorem UrlRules.endsLooped_append_of_spared
    (spared : ¬rules.Completes settings offers o (rules.normalizeUrl url))
    (watched : rules.watched settings url) :
    rules.endsLooped settings (offers ++ [o]) url = true ↔
      if o.url = url then rules.InLoop (rules.heard settings (offers ++ [o])) url
      else rules.endsLooped settings offers url = true := by
  obtain ⟨-, refuse, evict⟩ :=
    SiteGraph.judge_answers (o := o) (SiteGraph.heard_offers settings url offers)
  rw [endsLooped, List.foldl_append, List.foldl_cons, List.foldl_nil, SiteGraph.offer]
  simp only [if_neg (mt (evict _).mp spared)]
  split
  · next same =>
    rw [← same] at watched
    exact (refuse watched).trans (by rw [same])
  · rfl

theorem UrlRules.endsLooped_iff (watched : rules.watched settings url)
    (offered : url ∈ offers.map Offer.url) :
    rules.endsLooped settings offers url = true ↔
      rules.InLoop (rules.heard settings offers) url ∨ rules.KeySwept settings offers url := by
  induction offers using List.reverseRecOn with
  | nil => exact absurd offered List.not_mem_nil
  | append_singleton offers o ih =>
    rw [keySwept_append]
    by_cases completes : rules.Completes settings offers o (rules.normalizeUrl url)
    · refine iff_of_true (endsLooped_append_of_completes completes) ?_
      by_cases same : o.url = url
      · obtain ⟨-, found, shares, -, loops, -⟩ := completes
        rw [same] at shares
        exact .inl ⟨found, shares, loops⟩
      · exact .inr ⟨same, .inl completes⟩
    · rw [endsLooped_append_of_spared completes watched]
      by_cases same : o.url = url
      · rw [if_pos same]
        exact ⟨.inl, fun h => h.resolve_right fun swept => swept.1 same⟩
      · have before : url ∈ offers.map Offer.url := by
          rw [List.map_append, List.mem_append] at offered
          exact offered.resolve_right (by simpa using Ne.symm same)
        rw [if_neg same, ih before]
        constructor
        · rintro (⟨found, shares, loops⟩ | swept)
          · refine .inl ⟨found, shares, ?_⟩
            rw [heard_append]
            exact loops.append _
          · exact .inr ⟨same, .inr swept⟩
        · rintro (loops | ⟨-, swept⟩)
          · exact .inl (by_contra fun fresh =>
              completes (completes_of_inLoop watched before fresh loops))
          · exact .inr (swept.resolve_left completes)

end Runs

end Lemmas

section Sample

/-- The Unicode database on the addresses of the sample below. -/
def plainAddresses : UnicodeData where
  lower := Urllib.lowerAscii
  nfkc := id
  idna := .ok
  repr := fun s => ['\''] ++ s ++ ['\'']

/-- What the rules answer on them: each is its own key, and a page. -/
def loopRules : UrlRules where
  normalizeUrl := id
  isCrawlableUrl := fun _ => true
  isSpiderTrap := fun _ => false
  isMalformedUrl := fun _ => false
  isFacetedFilter := fun _ => false
  tailOf := tailOf plainAddresses

def loopSettings : CrawlSettings where
  baseUrl := "https://a.io/"
  maxPages := 100
  preCrawlBudget := 50

/-- Four pages end in one tail, and twenty-two pages link to the first of them. -/
def manyLinks : List Offer :=
  List.replicate 22 ⟨"https://a.io/docs/x/y/z", true⟩ ++
    [⟨"https://a.io/docs/b/x/y/z", true⟩, ⟨"https://a.io/docs/b/c/x/y/z", true⟩,
      ⟨"https://a.io/docs/b/c/d/x/y/z", true⟩]

end Sample

end Rankuno
