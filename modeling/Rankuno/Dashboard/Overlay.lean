import Mathlib.Algebra.Group.Pi.Lemmas
import Mathlib.Algebra.Group.Prod
import Rankuno.Dashboard.DashModel

/-!
# The overlay of the tree

`buildTreeOverlay` and `summariseRoots` of `treeOverlay.ts`: what a cross-check and Search Console
say about the pages, added up along the parents of the nodes. A row of the cross-check marks the
pages with its URL or, if there are none, those whose URL has the same loose form.
-/

namespace Rankuno.Dashboard

open Python GroupedSums

inductive CrossCheckMark where
  | none
  | missed
  | added
  deriving DecidableEq

/-- The fields of a profile that only the overlay reads. Older results lack them. -/
structure OverlayFields where
  /-- The values of `discovery_sources`. -/
  discoverySources : Option (List Bool) := none
  /-- `gsc_clicks`, which is null within `some`. -/
  gscClicks : Option (Option Nat) := none
  gscImpressions : Option (Option Nat) := none

/-- `addedFromFrog`. -/
def addedFromFrog (fields : OverlayFields) : Bool :=
  fields.discoverySources.any fun flags => !flags.isEmpty && flags.all (! ·)

/-- A row of `engine_only`. -/
structure EngineOnlyRow where
  url : Text
  reason : Text

/-- The array of the nodes, which is in preorder: each names the node above it. -/
def parentArray (nodes : Forest DashNode) : Parents where
  parent j := ((nodes.visits [] 0)[j]?.bind (·.1.head?)).map Prod.fst
  before {j p} named := by
    obtain ⟨node, above, rfl⟩ := Option.map_eq_some_iff.mp named
    obtain ⟨visit, found, first⟩ := Option.bind_eq_some_iff.mp above
    have lower := Forest.lt_of_mem_visit found (List.mem_of_head? first)
    rwa [Nat.zero_add, or_iff_right List.not_mem_nil] at lower

/-- `mark` and `reason`. -/
structure OverlayMarks where
  mark : Nat → CrossCheckMark
  reason : Nat → Option Text

/-- The arrays `missedCnt`, `addedCnt`, `clicks`, `impressions` and `gscPages`. -/
inductive Figure where
  | missed
  | added
  | clicks
  | impressions
  | gscPages
  deriving DecidableEq

/-- A model, and the rows of its cross-check: none where it is not there or cannot be read. -/
structure OverlaySource where
  nodes : Forest DashNode
  fields : Nat → OverlayFields
  /-- The roots in the order they are drawn. -/
  roots : List Nat
  roots_perm : roots.Perm
    ((List.range nodes.size).filter fun j => (parentArray nodes).parent j = none)
  engineOnly : List EngineOnlyRow
  loose : Text → Text

namespace OverlaySource

variable (o : OverlaySource)

def tree : Parents := parentArray o.nodes

def profile (j : Nat) : Option PageProfile := o.nodes.preorder[j]?.bind DashNode.profile

/-- The page has the URL of the row, in some form of both. -/
def hit (form : Text → Text) (row : EngineOnlyRow) (j : Nat) : Bool :=
  (o.profile j).any fun profile => form profile.url = form row.url

def lay (form : Text → Text) (marks : OverlayMarks) (row : EngineOnlyRow) : OverlayMarks where
  mark j := if o.hit form row j then .missed else marks.mark j
  reason j := if o.hit form row j then some row.reason else marks.reason j

def residue : List EngineOnlyRow :=
  o.engineOnly.filter fun row => (List.range o.nodes.size).all fun j => !o.hit id row j

/-- What the rows mark. -/
def laid : OverlayMarks :=
  o.residue.foldl (o.lay o.loose) (o.engineOnly.foldl (o.lay id) ⟨fun _ => .none, fun _ => none⟩)

def mark (j : Nat) : CrossCheckMark :=
  if o.laid.mark j = .none && (o.profile j).any fun _ => addedFromFrog (o.fields j) then .added
  else o.laid.mark j

/-- A missed node whose reason is not hidden; where it has none, it has this one. -/
def counted (unknown : Text) (hiddenReasons : Text → Bool) (j : Nat) : Bool :=
  o.mark j = .missed && !hiddenReasons ((o.laid.reason j).getD unknown)

/-- What a node has by itself. -/
def own (hiddenReasons : Text → Bool) (j : Nat) : Figure → Nat
  | .missed => if o.counted [] hiddenReasons j then 1 else 0
  | .added => if o.mark j = .added then 1 else 0
  | .clicks => (o.profile j).elim 0 fun _ => (o.fields j).gscClicks.join.getD 0
  | .impressions => (o.profile j).elim 0 fun _ => (o.fields j).gscImpressions.join.getD 0
  | .gscPages => (o.profile j).elim 0 fun _ =>
    if (o.fields j).gscClicks.join ≠ none ∨ (o.fields j).gscImpressions.join ≠ none then 1 else 0

def label (j : Nat) : Text := o.nodes.preorder[j]?.elim [] DashNode.label

/-- The label of the child of OTHERS that a node is, or is below. -/
def bucketOf (j : Nat) : Option Text :=
  match _h : o.tree.parent j with
  | none => none
  | some p => if o.label p = othersLabel then some (o.label j) else bucketOf p
termination_by j
decreasing_by exact o.tree.before ‹_›

/-- The pages in the lane of OTHERS. -/
def othersPages : List Nat := (List.range o.nodes.size).filter fun j =>
  o.nodes.preorder[j]?.any (·.lv = othersLane) && (o.profile j).isSome

/-- What a page adds to its bucket. A field that is not there is not null here. -/
def othersOwn (hiddenReasons : Text → Bool) (j : Nat) : Figure → Nat
  | .gscPages =>
    if (o.fields j).gscClicks ≠ some none ∨ (o.fields j).gscImpressions ≠ some none then 1 else 0
  | kind => o.own hiddenReasons j kind

end OverlaySource

structure RootSummary where
  i : Nat
  figure : Figure → Nat
  missedByReason : Dict Text Nat

/-- The pages of OTHERS are counted beside their figures. -/
structure OthersSummary where
  total : Nat × (Figure → Nat)
  buckets : Dict Text (Nat × (Figure → Nat))
  byRoot : Dict Nat (Nat × (Figure → Nat))

structure TreeOverlay where
  marks : OverlayMarks
  figure : Figure → Nat → Nat
  roots : List RootSummary
  others : OthersSummary
  unmatched : Nat

/-- `summariseRoots`. -/
def summariseRoots (o : OverlaySource) (hiddenReasons : Text → Bool)
    (figure : Figure → Nat → Nat) : List RootSummary :=
  let unknown := "UNKNOWN".toList
  let rootOf := o.tree.rootTable o.nodes.size
  o.roots.map fun i => {
    i
    figure := (figure · i)
    missedByReason := tally <| ((List.range o.nodes.size).filter fun j =>
      o.counted unknown hiddenReasons j && rootOf j = i).map fun j =>
        ((o.laid.reason j).getD unknown, 1) }

/-- `summariseOthers`. -/
def summariseOthers (o : OverlaySource) (hiddenReasons : Text → Bool) : OthersSummary :=
  let entry j : Nat × (Figure → Nat) := (1, o.othersOwn hiddenReasons j)
  let type j := (o.profile j).elim [] PageProfile.primaryPageType
  { total := (o.othersPages.map entry).sum
    buckets := tally (o.othersPages.map fun j => ((o.bucketOf j).getD (type j), entry j))
    byRoot := tally (o.othersPages.map fun j => (o.tree.rootTable o.nodes.size j, entry j)) }

def buildTreeOverlay (o : OverlaySource) (hiddenReasons : Text → Bool) : TreeOverlay :=
  let figure kind := o.tree.foldUp o.nodes.size fun j => o.own hiddenReasons j kind
  { marks := { o.laid with mark := o.mark }
    figure
    roots := summariseRoots o hiddenReasons figure
    others := summariseOthers o hiddenReasons
    unmatched := o.residue.countP fun row =>
      (List.range o.nodes.size).all fun j => !o.hit o.loose row j }

section Totals

open OverlaySource

variable {o : OverlaySource} {form : Text → Text} {marks : OverlayMarks} {j : Nat}
  {hiddenReasons : Text → Bool}

theorem mark_foldl_lay (rows : List EngineOnlyRow) :
    (rows.foldl (o.lay form) marks).mark j = .missed ↔
      marks.mark j = .missed ∨ ∃ row ∈ rows, o.hit form row j := by
  induction rows generalizing marks with
  | nil => simp
  | cons row rows ih =>
    rw [List.foldl_cons, ih]
    by_cases hit : o.hit form row j <;> simp [lay, hit]

theorem mark_eq_missed_iff : o.mark j = .missed ↔ o.laid.mark j = .missed := by
  rw [mark]
  by_cases missed : o.laid.mark j = .missed
  · simp [missed]
  · split <;> simp [missed]

def OverlayMarks.Explained (marks : OverlayMarks) : Prop :=
  ∀ j, marks.mark j = .missed → ∃ reason, marks.reason j = some reason

theorem OverlayMarks.Explained.lay (h : marks.Explained) (row : EngineOnlyRow) :
    (o.lay form marks row).Explained := by
  intro j missed
  by_cases hit : o.hit form row j
  · simp [OverlaySource.lay, hit]
  · simpa [OverlaySource.lay, hit] using h j (by simpa [OverlaySource.lay, hit] using missed)

theorem exists_reason (missed : o.mark j = .missed) : ∃ reason, o.laid.reason j = some reason := by
  have explained : o.laid.Explained :=
    List.foldlRecOn _ _ (List.foldlRecOn _ _ (fun _ missed => by cases missed)
      fun _ h row _ => h.lay row) fun _ h row _ => h.lay row
  exact explained j (mark_eq_missed_iff.mp missed)

/-- A missed node has a reason, so that what stands for none is not asked. -/
theorem counted_eq (unknown : Text) :
    o.counted unknown hiddenReasons = o.counted [] hiddenReasons := by
  funext j
  by_cases missed : o.mark j = .missed
  · obtain ⟨reason, known⟩ := exists_reason missed
    simp [counted, known]
  · simp [counted, missed]

/-- A page is missed if a row has its URL, or one with the URL of no page has its loose form; the
rows that mark no page are counted; and each figure of a node is the sum of what the nodes at or
below it have by themselves. -/
theorem figure_buildTreeOverlay (o : OverlaySource) (hiddenReasons : Text → Bool)
    (j : Fin o.nodes.size) :
    ((buildTreeOverlay o hiddenReasons).marks.mark j = .missed ↔
      (∃ row ∈ o.engineOnly, o.hit id row j) ∨ ∃ row ∈ o.residue, o.hit o.loose row j) ∧
    (buildTreeOverlay o hiddenReasons).unmatched = (o.engineOnly.countP fun row =>
      ∀ k < o.nodes.size, ¬o.hit id row k ∧ ¬o.hit o.loose row k) ∧
    ∀ kind, (buildTreeOverlay o hiddenReasons).figure kind j =
      ((o.tree.subtree o.nodes.size j).map fun k => o.own hiddenReasons k kind).sum := by
  refine ⟨?_, ?_, fun kind => Parents.foldUp_of_lt j.isLt⟩
  · refine mark_eq_missed_iff.trans ((mark_foldl_lay _).trans (or_congr_left ?_))
    exact (mark_foldl_lay _).trans (or_iff_right fun missed => by cases missed)
  · refine List.countP_filter.trans (List.countP_congr fun row _ => ?_)
    simp [and_comm, forall_and]

/-- A further hidden reason takes the nodes with that reason from each count of missed ones, and
changes no mark and no other figure. -/
theorem hide_buildTreeOverlay (o : OverlaySource) (hiddenReasons : Text → Bool) (reason : Text)
    (kind : Figure) (j : Fin o.nodes.size) :
    let more := fun other => hiddenReasons other || other = reason
    (buildTreeOverlay o more).marks = (buildTreeOverlay o hiddenReasons).marks ∧
    (buildTreeOverlay o hiddenReasons).figure kind j = (buildTreeOverlay o more).figure kind j +
      if kind = .missed ∧ hiddenReasons reason = false then
        ((o.tree.subtree o.nodes.size j).filter fun k =>
          o.mark k = .missed ∧ o.laid.reason k = some reason).length
      else 0 := by
  intro more
  refine ⟨rfl, (Parents.foldUp_of_lt j.isLt).trans
    (Eq.trans ?_ (congrArg (· + _) (Parents.foldUp_of_lt j.isLt).symm))⟩
  cases kind
  case missed =>
    have lost (k : Nat) : o.own hiddenReasons k .missed = o.own more k .missed +
        if (o.mark k = .missed ∧ o.laid.reason k = some reason) ∧ hiddenReasons reason = false
          then 1 else 0 := by
      by_cases missed : o.mark k = .missed
      · obtain ⟨known, named⟩ := exists_reason missed
        by_cases same : known = reason
        · cases hidden : hiddenReasons reason <;>
            simp [own, counted, more, missed, named, same, hidden]
        · simp [own, counted, more, missed, named, same]
      · simp [own, counted, missed]
    simp only [lost, List.sum_map_add]
    congr 1
    cases hidden : hiddenReasons reason
    · simp [← sum_map_filter]
    · simp
  all_goals exact (Nat.add_zero _).symm

/-- A page without figures of Search Console lacks a field that would be null otherwise. -/
def OverlaySource.lacks (o : OverlaySource) (j : Nat) : Bool :=
  (o.fields j).gscClicks.join.isNone && (o.fields j).gscImpressions.join.isNone &&
    ((o.fields j).gscClicks.isNone || (o.fields j).gscImpressions.isNone)

theorem othersOwn_gscPages (hiddenReasons : Text → Bool) (page : j ∈ o.othersPages) :
    o.othersOwn hiddenReasons j .gscPages =
      o.own hiddenReasons j .gscPages + if o.lacks j then 1 else 0 := by
  obtain ⟨-, isPage⟩ := Bool.and_eq_true_iff.mp (List.mem_filter.mp page).2
  obtain ⟨profile, held⟩ := Option.isSome_iff_exists.mp isPage
  rcases clicks : (o.fields j).gscClicks with _ | _ | _ <;>
    rcases impressions : (o.fields j).gscImpressions with _ | _ | _ <;>
      simp [othersOwn, own, lacks, held, clicks, impressions]

/-- The buckets and the roots of OTHERS add up to its pages, with the figures that these have in
the tree; but pages are counted as reached that lack a field and have no figure in the other. -/
theorem others_buildTreeOverlay (o : OverlaySource) (hiddenReasons : Text → Bool) :
    let others := (buildTreeOverlay o hiddenReasons).others
    (others.buckets.rows.map Prod.snd).sum = others.total ∧
    (others.byRoot.rows.map Prod.snd).sum = others.total ∧
    others.total.1 = o.othersPages.length ∧
    ∀ kind, others.total.2 kind = (o.othersPages.map fun j => o.own hiddenReasons j kind).sum +
      if kind = .gscPages then (o.othersPages.filter o.lacks).length else 0 := by
  refine ⟨(sum_tally _).trans (congrArg List.sum List.map_map),
    (sum_tally _).trans (congrArg List.sum List.map_map), ?_, fun kind => ?_⟩
  · refine (map_list_sum (AddMonoidHom.fst Nat (Figure → Nat)) _).trans ?_
    simp [Function.comp_def]
  · refine (map_list_sum ((Pi.evalAddMonoidHom (fun _ : Figure => Nat) kind).comp
      (AddMonoidHom.snd Nat (Figure → Nat))) _).trans ?_
    rw [List.map_map]
    cases kind
    case gscPages =>
      refine (congrArg List.sum (List.map_congr_left fun j page =>
        othersOwn_gscPages hiddenReasons page)).trans ?_
      simp [List.sum_map_add, ← sum_map_filter]
    all_goals rfl

end Totals

end Rankuno.Dashboard
