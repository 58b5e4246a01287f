import Rankuno.UrlKeys.Escapes
import Rankuno.UrlKeys.Locales

/-!
# A key used as an address again

`normalize_url` of a key is the key unless the second pass finds something that the first
brought forth: a second `www.`, an escape made of what was decoded, a tab or a line end in
a segment, a locale that was not the first.
-/

namespace Rankuno.UrlKeys

open Python Python.Text Python.Urllib

section Segments

variable {sep : Char} {f : Text → Text} {s : Text}

theorem split_of_apart (cuts : ∀ a t, sep ∉ a → f (a ++ sep :: t) = f a ++ sep :: f t)
    (stays : ∀ a, sep ∉ a → sep ∉ f a) (s : Text) : split sep (f s) = (split sep s).map f := by
  by_cases inside : sep ∈ s
  · obtain ⟨a, t, apart, whole, -⟩ := exists_partition inside
    rw [whole, cuts a t apart, split_append_cons (stays a apart), split_append_cons apart,
      List.map_cons, split_of_apart cuts stays t]
  · rw [split_of_notMem inside, split_of_notMem (stays s inside), List.map_singleton]
termination_by s.length
decreasing_by
  rw [whole, List.length_append, List.length_cons]
  omega

theorem notMem_decode {c : Char} (cuts : c ∈ cutting) (apart : c ∉ s) :
    c ∉ decodePercentEscapes s := fun mem => apart (mem_of_mem_decodeRun .nil cuts mem)

theorem split_decode (s : Text) :
    split '/' (decodePercentEscapes s) = (split '/' s).map decodePercentEscapes :=
  split_of_apart (fun a t _ => decodeRun_append (by decide) (by decide) [] a t)
    (fun _ apart => notMem_decode (by decide) apart) s

theorem split_withoutUnsafe (s : Text) :
    split '/' (withoutUnsafe s) = (split '/' s).map withoutUnsafe := by
  refine split_of_apart (fun a t _ => ?_) (fun a apart mem => ?_) s
  · rw [withoutUnsafe, List.filter_append, List.filter_cons_of_pos (by decide)]
    rfl
  · exact apart (List.mem_of_mem_filter mem)

theorem length_decode_le (s : Text) : (decodePercentEscapes s).length ≤ s.length :=
  (length_decodeRun .nil).trans (Nat.zero_add _).le

theorem strip_sublist (p : Char → Bool) (s : Text) : List.Sublist (strip p s) s :=
  (List.rdropWhile_prefix p _).sublist.trans (List.dropWhile_sublist p)

theorem strip_eq_of_length {p : Char → Bool} (h : s.length ≤ (strip p s).length) : strip p s = s :=
  (strip_sublist p s).eq_of_length_le h

theorem withoutUnsafe_eq_of_length (h : s.length ≤ (withoutUnsafe s).length) :
    withoutUnsafe s = s :=
  List.filter_sublist.eq_of_length_le h

/-- A segment of a normalised path. -/
structure IsSegment (segment : Text) : Prop where
  filled : segment ≠ []
  stripped : strip isSpace segment = segment
  whole : '/' ∉ segment

theorem IsSegment.parted {segment : Text} (h : IsSegment segment) : segment ≠ [] ∧ '/' ∉ segment :=
  ⟨h.filled, h.whole⟩

theorem isSegment_of_mem {path segment : Text} (h : segment ∈ pathSegments path) :
    IsSegment segment := by
  obtain ⟨mem, filled⟩ := List.mem_filter.mp h
  obtain ⟨part, parted, rfl⟩ := List.mem_map.mp mem
  refine ⟨of_decide_eq_true filled, strip_strip isSpace part, fun slash => ?_⟩
  exact notMem_of_mem_split parted ((strip_sublist isSpace part).subset slash)

variable {segments : List Text}

theorem join_append_nil (filled : segments ≠ []) :
    join ['/'] (segments ++ [[]]) = join ['/'] segments ++ ['/'] := by
  induction segments with
  | nil => exact absurd rfl filled
  | cons first more ih =>
    cases more with
    | nil =>
      have pair : join ['/'] [first, []] = first ++ ['/'] ++ join ['/'] [[]] :=
        List.intercalate_cons_cons
      have alone : join ['/'] [first] = first := List.intercalate_singleton
      have empty : join ['/'] [[]] = [] := List.intercalate_singleton
      rw [List.singleton_append, pair, empty, alone, List.append_nil]
    | cons next more =>
      have longer : join ['/'] (first :: next :: more) =
          first ++ ['/'] ++ join ['/'] (next :: more) := List.intercalate_cons_cons
      have longest : join ['/'] (first :: next :: more ++ [[]]) =
          first ++ ['/'] ++ join ['/'] (next :: more ++ [[]]) := List.intercalate_cons_cons
      rw [longest, ih (List.cons_ne_nil _ _), longer, List.append_assoc, List.append_assoc,
        List.append_assoc]

theorem split_rootedText (h : ∀ segment ∈ segments, '/' ∉ segment) :
    split '/' (rootedText segments) = [] :: (segments ++ [[]]) := by
  have whole : rootedText segments = join ['/'] ([] :: (segments ++ [[]])) := by
    rw [rootedText]
    cases segments with
    | nil => rfl
    | cons first more =>
      have rooted : join ['/'] ([] :: (first :: more ++ [[]])) =
          [] ++ ['/'] ++ join ['/'] (first :: more ++ [[]]) := List.intercalate_cons_cons
      rw [if_neg (List.cons_ne_nil first more), rooted,
        join_append_nil (List.cons_ne_nil first more)]
      rfl
  rw [whole]
  refine split_join (List.cons_ne_nil _ _) fun part mem => ?_
  rw [List.mem_cons, List.mem_append, List.mem_singleton] at mem
  obtain rfl | mem | rfl := mem
  · exact List.not_mem_nil
  · exact h part mem
  · exact List.not_mem_nil

theorem filledParts_rootedText (h : ∀ segment ∈ segments, segment ≠ [] ∧ '/' ∉ segment) :
    filledParts (rootedText segments) = segments := by
  rw [filledParts, split_rootedText fun segment mem => (h segment mem).2,
    List.filter_cons_of_neg (by decide), List.filter_append,
    List.filter_eq_self.mpr fun segment mem => decide_eq_true (h segment mem).1,
    List.filter_cons_of_neg (by decide), List.filter_nil, List.append_nil]

theorem rootedText_inj {others : List Text} (h : ∀ segment ∈ segments, segment ≠ [] ∧ '/' ∉ segment)
    (h' : ∀ segment ∈ others, segment ≠ [] ∧ '/' ∉ segment)
    (same : rootedText segments = rootedText others) :
    segments = others := by
  rw [← filledParts_rootedText h, same, filledParts_rootedText h']

/-- A segment that a second pass leaves as it is. -/
def Stays (segment : Text) : Prop :=
  decodePercentEscapes segment = segment ∧ ∀ c ∈ segment, isUnsafeUrlByte c = false

instance : DecidablePred Stays := fun segment =>
  @instDecidableAnd (decodePercentEscapes segment = segment) _ _
    (List.decidableBAll (fun c => isUnsafeUrlByte c = false) segment)

theorem length_pathSegments_le (path : Text) :
    (pathSegments path).length ≤ (filledParts path).length := by
  rw [pathSegments, filledParts, split_decode, List.map_map]
  generalize split '/' path = parts
  induction parts with
  | nil => exact le_rfl
  | cons part parts ih =>
    cases part with
    | nil => exact ih
    | cons c part =>
      have keeps : ((c :: part) :: parts).filter (fun part => part ≠ []) =
          (c :: part) :: parts.filter fun part => part ≠ [] := rfl
      rw [keeps, List.map_cons, List.filter_cons]
      split
      · exact Nat.succ_le_succ ih
      · exact ih.trans (Nat.le_succ _)

theorem withoutUnsafe_ne_nil {segment : Text} (h : IsSegment segment) :
    withoutUnsafe segment ≠ [] := by
  cases segment with
  | nil => exact absurd rfl h.filled
  | cons c rest =>
    have safe := isUnsafeUrlByte_of_not_isSpace (first_strip h.stripped).1
    rw [withoutUnsafe, List.filter_cons_of_pos (by rw [safe]; rfl)]
    exact List.cons_ne_nil _ _

theorem withoutUnsafe_eq_self_iff : withoutUnsafe s = s ↔ ∀ c ∈ s, isUnsafeUrlByte c = false := by
  rw [withoutUnsafe, List.filter_eq_self]
  simp only [Bool.not_eq_true']

variable (unicode : UnicodeData) (folding : LocaleFolding)

theorem rootedText_concat (segments : List Text) : ∃ s, rootedText segments = s ++ ['/'] := by
  rw [rootedText]
  split
  · exact ⟨[], rfl⟩
  · exact ⟨'/' :: join ['/'] segments, rfl⟩

theorem split_cleaned (h : ∀ segment ∈ segments, IsSegment segment) :
    split '/' (withoutUnsafe (rootedText segments)) =
      [] :: (segments.map withoutUnsafe ++ [[]]) := by
  rw [split_withoutUnsafe, split_rootedText fun segment mem => (h segment mem).whole,
    List.map_cons, List.map_append]
  rfl

theorem filledParts_cleaned (h : ∀ segment ∈ segments, IsSegment segment) :
    filledParts (withoutUnsafe (rootedText segments)) = segments.map withoutUnsafe := by
  have filled : ∀ part ∈ segments.map withoutUnsafe, decide (part ≠ []) = true := by
    intro part mem
    obtain ⟨segment, found, rfl⟩ := List.mem_map.mp mem
    exact decide_eq_true (withoutUnsafe_ne_nil (h segment found))
  rw [filledParts, split_cleaned h, List.filter_cons_of_neg (by decide), List.filter_append,
    List.filter_eq_self.mpr filled, List.filter_cons_of_neg (by decide), List.filter_nil,
    List.append_nil]

theorem pathSegments_cleaned (h : ∀ segment ∈ segments, IsSegment segment) :
    pathSegments (withoutUnsafe (rootedText segments)) = (segments.map fun segment =>
        strip isSpace (decodePercentEscapes (withoutUnsafe segment))).filter (· ≠ []) := by
  rw [pathSegments, split_decode, split_cleaned h]
  simp only [List.map_cons, List.map_append, List.map_map, List.map_nil]
  rw [List.filter_cons_of_neg (by decide), List.filter_append, List.filter_cons_of_neg (by decide),
    List.filter_nil, List.append_nil]
  rfl

theorem folded_cases (h : ∀ segment ∈ segments, IsSegment segment) :
    ((∃ first, segments.head? = some first ∧ folding.stripLocale = true ∧
        isLocaleSegment unicode folding.knownLocales (withoutUnsafe first) = true) ∧
      (pathSegments (folding.path unicode (withoutUnsafe (rootedText segments)))).length <
        segments.length) ∨
    (folding.stripLocale = true → ∀ first ∈ segments.head?,
        isLocaleSegment unicode folding.knownLocales (withoutUnsafe first) = false) ∧
      folding.path unicode (withoutUnsafe (rootedText segments)) =
        withoutUnsafe (rootedText segments) := by
  obtain ⟨body, ends⟩ := rootedText_concat segments
  have closed : withoutUnsafe (rootedText segments) = withoutUnsafe body ++ ['/'] := by
    rw [ends, withoutUnsafe, List.filter_append]
    rfl
  have filled : orRoot (withoutUnsafe (rootedText segments)) =
      withoutUnsafe (rootedText segments) := by
    rw [closed, orRoot, if_neg (List.append_ne_nil_of_right_ne_nil _ (List.cons_ne_nil _ _))]
  have parts := filledParts_cleaned h
  rw [LocaleFolding.path]
  cases fold : folding.stripLocale with
  | false => exact Or.inr ⟨fun on => absurd on Bool.false_ne_true, if_neg Bool.false_ne_true⟩
  | true =>
    rw [if_pos rfl, stripLocalePrefix, parts]
    cases segments with
    | nil => exact Or.inr ⟨fun _ first mem => absurd mem (by simp), filled⟩
    | cons first more =>
      rw [List.map_cons]
      dsimp only
      cases isLocale : isLocaleSegment unicode folding.knownLocales (withoutUnsafe first) with
      | false =>
        refine Or.inr ⟨fun _ other mem => ?_, ?_⟩
        · obtain rfl := Option.some.inj mem
          exact isLocale
        · rw [if_neg Bool.false_ne_true]
          exact filled
      | true =>
        refine Or.inl ⟨⟨first, rfl, rfl, isLocale⟩, ?_⟩
        have rest : ∀ segment ∈ more.map withoutUnsafe, segment ≠ [] ∧ '/' ∉ segment := by
          intro part mem
          obtain ⟨segment, found, rfl⟩ := List.mem_map.mp mem
          have valid := h segment (List.mem_cons_of_mem first found)
          exact ⟨withoutUnsafe_ne_nil valid, fun slash =>
            valid.whole (List.mem_of_mem_filter slash)⟩
        have shorter : (pathSegments (rootedText (more.map withoutUnsafe))).length <
            (first :: more).length := by
          refine (length_pathSegments_le _).trans_lt ?_
          rw [filledParts_rootedText rest, List.length_map]
          exact Nat.lt_succ_self _
        have last : (withoutUnsafe (rootedText (first :: more))).getLast? = some '/' := by
          rw [closed, List.getLast?_concat]
        rw [if_pos rfl, if_pos last]
        rw [rootedText] at shorter
        split
        · next empty =>
          rw [if_pos empty] at shorter
          exact shorter
        · next filled =>
          rw [if_neg filled] at shorter
          exact shorter

theorem pathSegments_again_iff (h : ∀ segment ∈ segments, IsSegment segment) :
    pathSegments (folding.path unicode (withoutUnsafe (rootedText segments))) = segments ↔
      (∀ segment ∈ segments, Stays segment) ∧ (folding.stripLocale = true →
        ∀ first ∈ segments.head?, isLocaleSegment unicode folding.knownLocales first = false) := by
  constructor
  · intro same
    obtain ⟨-, fewer⟩ | ⟨foreign, kept⟩ := folded_cases unicode folding h
    · rw [same] at fewer
      exact absurd fewer (lt_irrefl _)
    · rw [kept, pathSegments_cleaned h] at same
      have all : ∀ part ∈ segments.map fun segment =>
          strip isSpace (decodePercentEscapes (withoutUnsafe segment)),
          decide (part ≠ []) = true := by
        refine List.length_filter_eq_length_iff.mp ?_
        rw [same, List.length_map]
      rw [List.filter_eq_self.mpr all] at same
      have each : ∀ segment ∈ segments,
          strip isSpace (decodePercentEscapes (withoutUnsafe segment)) = segment :=
        List.map_inj_left.mp (same.trans (List.map_id' segments).symm)
      have stays : ∀ segment ∈ segments, withoutUnsafe segment = segment ∧
          decodePercentEscapes segment = segment := by
        intro segment mem
        have one := congrArg List.length (each segment mem)
        have stripped := (strip_sublist isSpace
          (decodePercentEscapes (withoutUnsafe segment))).length_le
        have decoded := length_decode_le (withoutUnsafe segment)
        have safe : withoutUnsafe segment = segment := withoutUnsafe_eq_of_length (by omega)
        have same := each segment mem
        rw [safe] at same one decoded stripped
        refine ⟨safe, ?_⟩
        rw [← strip_eq_of_length (p := isSpace) (s := decodePercentEscapes segment) (by omega),
          same]
      refine ⟨fun segment mem => ⟨(stays segment mem).2,
        withoutUnsafe_eq_self_iff.mp (stays segment mem).1⟩, fun fold first mem => ?_⟩
      have clean := foreign fold first mem
      rwa [(stays first (List.mem_of_mem_head? mem)).1] at clean
  · rintro ⟨stays, foreign⟩
    have clean : ∀ segment ∈ segments, withoutUnsafe segment = segment := fun segment mem =>
      withoutUnsafe_eq_self_iff.mpr (stays segment mem).2
    obtain ⟨⟨first, leads, fold, isLocale⟩, -⟩ | ⟨-, kept⟩ := folded_cases unicode folding h
    · rw [clean first (List.mem_of_mem_head? leads), foreign fold first leads] at isLocale
      cases isLocale
    · have each : ∀ segment ∈ segments,
          strip isSpace (decodePercentEscapes (withoutUnsafe segment)) = segment := by
        intro segment mem
        rw [clean segment mem, (stays segment mem).1, (h segment mem).stripped]
      rw [kept, pathSegments_cleaned h, List.map_congr_left each, List.map_id']
      exact List.filter_eq_self.mpr fun segment mem => decide_eq_true (h segment mem).filled

end Segments

section Query

variable (unicode : UnicodeData)

theorem pairwise_sortPairs (pairs : List (Text × Text)) :
    (sortPairs pairs).Pairwise fun a b => a.1 < b.1 ∨ a.1 = b.1 ∧ a.2 ≤ b.2 := by
  let before (a b : Text × Text) : Prop := a.1 < b.1 ∨ a.1 = b.1 ∧ a.2 ≤ b.2
  have total : Std.Total before := ⟨fun a b => by
    obtain less | same | more := lt_trichotomy a.1 b.1
    · exact Or.inl (Or.inl less)
    · exact (le_total a.2 b.2).imp (fun le => Or.inr ⟨same, le⟩) fun le => Or.inr ⟨same.symm, le⟩
    · exact Or.inr (Or.inl more)⟩
  have transitive : IsTrans (Text × Text) before := ⟨fun a b c => by
    rintro (less | ⟨same, le⟩) (less' | ⟨same', le'⟩)
    · exact Or.inl (less.trans less')
    · exact Or.inl (same' ▸ less)
    · exact Or.inl (same ▸ less')
    · exact Or.inr ⟨same.trans same', le.trans le'⟩⟩
  exact List.pairwise_insertionSort before pairs

theorem queryKey_queryKey (query : Text) :
    queryKey unicode (queryKey unicode query) = queryKey unicode query := by
  have kept : ∀ pair ∈ sortPairs ((parseQsl query).filter fun pair =>
      !isTrackingParam unicode pair.1), (!isTrackingParam unicode pair.1) = true := by
    intro pair mem
    exact (List.mem_filter.mp ((List.mem_insertionSort _).mp mem)).2
  have sorted := pairwise_sortPairs ((parseQsl query).filter fun pair =>
    !isTrackingParam unicode pair.1)
  rw [queryKey, queryKey, parseQsl_urlencode, List.filter_eq_self.mpr kept]
  exact congrArg urlencode (List.Pairwise.insertionSort_eq sorted)

end Query

section Keys

variable {unicode : UnicodeData} {parts : SplitResult} {url : Text}

/-- `urlsplit` takes the network location. -/
def NetlocAccepted (unicode : UnicodeData) (netloc : Text) : Prop :=
  checkBrackets unicode netloc = .ok () ∧ checkNetloc unicode netloc = .ok ()

variable {c : Char}

theorem plain_of_mem_urlencode {pairs : List (Text × Text)}
    (mem : c ∈ urlencode pairs) : isSpace c = false ∧ isUnsafeUrlByte c = false ∧ c ≠ '#' := by
  have quoted : ∀ s, c ∈ quotePlus s → isSpace c = false ∧ isUnsafeUrlByte c = false ∧ c ≠ '#' := by
    intro s inside
    obtain ⟨space, safe, other⟩ := plain_of_isQuotedChar (isQuotedChar_quotePlus s c inside)
    refine ⟨space, safe, ?_⟩
    rintro rfl
    exact other (by decide)
  obtain rfl | ⟨text, found, inside⟩ := mem_join mem
  · decide
  · obtain ⟨pair, -, rfl⟩ := List.mem_map.mp found
    obtain first | inside := List.mem_append.mp inside
    · exact quoted _ first
    · obtain rfl | second := List.mem_cons.mp inside
      · decide
      · exact quoted _ second

theorem mem_rootedText {segments : List Text} (mem : c ∈ rootedText segments) :
    c = '/' ∨ ∃ segment ∈ segments, c ∈ segment := by
  rw [rootedText] at mem
  split at mem
  · exact Or.inl (List.mem_singleton.mp mem)
  · rw [List.mem_cons, List.mem_append, List.mem_singleton] at mem
    obtain same | inside | same := mem
    · exact Or.inl same
    · exact mem_join inside
    · exact Or.inl same

theorem mem_of_mem_split {sep c : Char} {s part : Text} (h : part ∈ split sep s) (mem : c ∈ part) :
    c ∈ s := by
  by_cases inside : sep ∈ s
  · obtain ⟨a, t, apart, whole, -⟩ := exists_partition inside
    rw [whole, split_append_cons apart, List.mem_cons] at h
    rw [whole, List.mem_append, List.mem_cons]
    obtain rfl | later := h
    · exact Or.inl mem
    · exact Or.inr (Or.inr (mem_of_mem_split later mem))
  · rw [split_of_notMem inside, List.mem_singleton] at h
    rwa [← h]
termination_by s.length
decreasing_by
  rw [whole, List.length_append, List.length_cons]
  omega

theorem mem_of_mem_normalizePath {path : Text} (cuts : c ∈ cutting) (other : c ≠ '/')
    (mem : c ∈ normalizePath path) : c ∈ path := by
  obtain ⟨segment, found, inside⟩ := (mem_rootedText mem).resolve_left other
  obtain ⟨part, parted, rfl⟩ := List.mem_map.mp (List.mem_filter.mp found).1
  have decoded := mem_of_mem_split parted ((strip_sublist isSpace part).subset inside)
  exact mem_of_mem_decodeRun .nil cuts decoded

theorem mem_of_mem_path {path : Text} (folding : LocaleFolding) (other : c ≠ '/')
    (mem : c ∈ folding.path unicode (orRoot path)) : c ∈ path := by
  have rooted : ∀ path : Text, c ∈ orRoot path → c ∈ path := by
    intro path mem
    rw [orRoot] at mem
    split at mem
    · exact absurd (List.mem_singleton.mp mem) other
    · exact mem
  rw [LocaleFolding.path] at mem
  split at mem
  · rw [stripLocalePrefix] at mem
    split at mem
    · exact rooted _ (rooted _ mem)
    · next first remainder parts =>
      split at mem
      · split at mem
        · exact absurd (List.mem_singleton.mp mem) other
        · rw [List.cons_append, List.mem_cons, List.mem_append] at mem
          obtain same | inside | last := mem
          · exact absurd same other
          · obtain ⟨part, found, inside⟩ := (mem_join inside).resolve_left other
            have parted : part ∈ filledParts (orRoot path) :=
              parts ▸ List.mem_cons_of_mem first found
            exact rooted _ (mem_of_mem_split (List.mem_filter.mp parted).1 inside)
          · split at last
            · exact absurd (List.mem_singleton.mp last) other
            · cases last
      · exact rooted _ (rooted _ mem)
  · exact rooted _ mem

/-- The parts of a key: settled, with the path and the query of a key. -/
structure KeyParts (parts : SplitResult) : Prop extends Settled parts where
  segments : ∃ segments, (∀ segment ∈ segments, IsSegment segment) ∧
    parts.path = rootedText segments
  path_plain : ∀ c ∈ parts.path, c ≠ '?' ∧ c ≠ '#'
  query_plain : ∀ c ∈ parts.query, isSpace c = false ∧ isUnsafeUrlByte c = false ∧ c ≠ '#'

variable (folding : LocaleFolding)

theorem keyParts_of_safeSplit (lowers : LowersLetters unicode)
    (h : safeSplit unicode url = some parts) : KeyParts (folding.keyParts unicode parts) := by
  have settled := keyParts_settled lowers h
  obtain ⟨tail, rooted, single⟩ :=
    normalizePath_settled (folding.path unicode (orRoot parts.path))
  have raw := (splitsFrom_of_urlsplit (urlsplit_of_safeSplit h)).path
  refine { scheme := settled.scheme, netloc := settled.netloc, path := ⟨tail, rooted⟩,
           fragment := rfl, single := ?_, segments := ?_, path_plain := ?_, query_plain := ?_ }
  · intro c rest whole
    exact single c rest (List.cons.inj (rooted.symm.trans whole)).2
  · exact ⟨_, fun segment mem => isSegment_of_mem mem, normalizePath_eq _⟩
  · intro c mem
    constructor
    · rintro rfl
      exact (raw _ (mem_of_mem_path folding (by decide)
        (mem_of_mem_normalizePath (by decide) (by decide) mem))).2.2.1 rfl
    · rintro rfl
      exact (raw _ (mem_of_mem_path folding (by decide)
        (mem_of_mem_normalizePath (by decide) (by decide) mem))).2.2.2 rfl
  · exact fun c mem => plain_of_mem_urlencode mem

theorem parts_of_tail {path query : Text} (path_plain : ∀ c ∈ path, c ≠ '?' ∧ c ≠ '#')
    (query_plain : '#' ∉ query) :
    pathOf (path ++ queryText query) = path ∧ queryOf (path ++ queryText query) = query ∧
      (partition '#' (path ++ queryText query)).2 = none := by
  have question : '?' ∉ path := fun mem => (path_plain _ mem).1 rfl
  have hash : '#' ∉ path ++ queryText query := by
    rw [List.mem_append, not_or]
    refine ⟨fun mem => (path_plain _ mem).2 rfl, fun mem => ?_⟩
    rw [queryText] at mem
    split at mem
    · cases mem
    · obtain same | mem := List.mem_cons.mp mem
      · cases same
      · exact query_plain mem
  rw [pathOf, queryOf, partition_of_notMem hash, queryText]
  split
  · next empty =>
    rw [List.append_nil, partition_of_notMem question, empty]
    exact ⟨rfl, rfl, rfl⟩
  · rw [partition_append_cons question]
    exact ⟨rfl, rfl, rfl⟩

theorem KeyParts.rstrip_tail (h : KeyParts parts) {tail : Text}
    (rooted : parts.path = '/' :: tail) :
    rstrip isSpace (tail ++ queryText parts.query) = tail ++ queryText parts.query := by
  refine rstrip_eq_self fun c last => ?_
  rw [queryText] at last
  split at last
  · obtain ⟨segments, -, whole⟩ := h.segments
    obtain ⟨body, ends⟩ := rootedText_concat segments
    rw [List.append_nil] at last
    have path : (parts.path).getLast? = some '/' := by
      rw [whole, ends, List.getLast?_concat]
    rw [rooted, List.getLast?_cons, last] at path
    cases path
    decide
  · next filled =>
    have inside : c ∈ parts.query := by
      rw [List.getLast?_append, List.getLast?_cons, List.getLast?_eq_some_getLast filled] at last
      cases last
      exact List.getLast_mem filled
    exact (h.query_plain c inside).1

theorem KeyParts.safeSplit_eq (h : KeyParts parts) :
    (NetlocAccepted unicode parts.netloc → safeSplit unicode (urlunsplit parts) =
      some { parts with path := withoutUnsafe parts.path }) ∧
    (¬NetlocAccepted unicode parts.netloc → safeSplit unicode (urlunsplit parts) = none) := by
  obtain ⟨tail, rooted⟩ := h.path
  obtain ⟨scheme, netloc, rest⟩ := h.toSettled.read rooted
  have query_safe : withoutUnsafe (queryText parts.query) = queryText parts.query := by
    refine withoutUnsafe_eq_self fun c mem => ?_
    rw [queryText] at mem
    split at mem
    · cases mem
    · obtain rfl | mem := List.mem_cons.mp mem
      · decide
      · exact (h.query_plain c mem).2.1
  have cleanedTail : '/' :: withoutUnsafe (tail ++ queryText parts.query) =
      withoutUnsafe parts.path ++ queryText parts.query := by
    rw [withoutUnsafe, List.filter_append, ← withoutUnsafe, ← withoutUnsafe, query_safe, rooted,
      withoutUnsafe, withoutUnsafe, List.filter_cons_of_pos (by decide)]
    rfl
  rw [h.rstrip_tail rooted, cleanedTail] at rest
  have path_plain : ∀ c ∈ withoutUnsafe parts.path, c ≠ '?' ∧ c ≠ '#' := fun c mem =>
    h.path_plain c (List.mem_of_mem_filter mem)
  obtain ⟨path, query, fragment⟩ := parts_of_tail path_plain
    (fun mem => (h.query_plain _ mem).2.2 rfl)
  rw [safeSplit, urlsplit_eq, scheme, netloc, rest, path, query, fragment, Option.getD_none]
  constructor
  · rintro ⟨brackets, nfkc⟩
    rw [brackets, nfkc, ← h.fragment]
    rfl
  · intro refused
    cases brackets : checkBrackets unicode parts.netloc with
    | error e => rfl
    | ok u =>
      cases nfkc : checkNetloc unicode parts.netloc with
      | error e => rfl
      | ok u => exact absurd ⟨brackets, nfkc⟩ refused

theorem KeyParts.strip_urlunsplit (h : KeyParts parts) :
    strip isSpace (urlunsplit parts) = urlunsplit parts := by
  obtain ⟨tail, rooted⟩ := h.path
  obtain ⟨authority, whole, located⟩ := h.urlunsplit_eq
  obtain ⟨c, rest, first, space, -⟩ :=
    h.toRooted.first (located.imp_right And.left) (tail ++ queryText parts.query)
  rw [whole, rooted, List.cons_append, strip, lstrip_of_first first space, ← List.append_assoc,
    rstrip_append_cons (by decide), h.rstrip_tail rooted]

theorem Rooted.eq_of_urlunsplit_eq {others : SplitResult} (h : Rooted parts) (h' : Rooted others)
    (scheme : parts.scheme = others.scheme) (query : parts.query = others.query)
    (same : urlunsplit parts = urlunsplit others) :
    parts.netloc = others.netloc ∧ parts.path = others.path := by
  have netloc : parts.netloc = others.netloc := by
    rw [← h.rawNetloc_urlunsplit, same, h'.rawNetloc_urlunsplit]
  refine ⟨netloc, ?_⟩
  obtain ⟨authority, whole, located⟩ := h.urlunsplit_eq
  obtain ⟨authority', whole', located'⟩ := h'.urlunsplit_eq
  rw [whole, whole', scheme, query, List.append_cancel_left_eq, ← List.append_assoc,
    ← List.append_assoc, List.append_cancel_right_eq] at same
  obtain rfl | ⟨rfl, -, single⟩ := located
  · obtain rfl | ⟨rfl, -, single⟩ := located'
    · rwa [netloc, List.append_cancel_left_eq] at same
    · rw [List.nil_append] at same
      rw [← same] at single
      exact absurd rfl single
  · obtain rfl | ⟨rfl, -, -⟩ := located'
    · rw [List.nil_append] at same
      rw [same] at single
      exact absurd rfl single
    · exact same

/-- What the documentation promises of `str.lower`: it changes letters to letters, and
leaves nothing that it would change again. -/
structure LowersOnce (unicode : UnicodeData) : Prop extends LowersLetters unicode where
  again : ∀ s t, (∀ c ∈ t, c ∈ unicode.lower s) → unicode.lower t = t

/-- The key of an address is its own key: unless `urlsplit` refuses its network location,
there is no second `www.`, each segment of the path stays as it is, and where locales are
folded the first segment is none. -/
structure LocaleFolding.Repeats (folding : LocaleFolding) (unicode : UnicodeData)
    (parts : SplitResult) : Prop where
  netloc : ¬"www.www.".toList <+: unicode.lower parts.netloc
  segments : ∀ segment ∈ pathSegments (folding.path unicode (orRoot parts.path)), Stays segment
  locale : folding.stripLocale = true →
    ∀ first ∈ (pathSegments (folding.path unicode (orRoot parts.path))).head?,
      isLocaleSegment unicode folding.knownLocales first = false

theorem dropLeading_append (lead s : Text) : dropLeading lead (lead ++ s) = s := by
  rw [dropLeading, List.isPrefixOf_iff_prefix.mpr (List.prefix_append lead s), if_pos rfl,
    List.drop_left]

theorem dropLeading_www_again (s : Text) :
    dropLeading www (dropLeading www s) = dropLeading www s ↔ ¬"www.www.".toList <+: s := by
  constructor
  · rintro same ⟨rest, rfl⟩
    have first : dropLeading www ("www.www.".toList ++ rest) = www ++ rest :=
      dropLeading_append www (www ++ rest)
    rw [first, dropLeading_append] at same
    have longer := congrArg List.length same
    rw [List.length_append] at longer
    have four : www.length = 4 := by decide
    omega
  · intro single
    obtain whole | ⟨-, same⟩ := dropLeading_cases www s
    · obtain twice | ⟨-, same⟩ := dropLeading_cases www (dropLeading www s)
      · rw [twice] at whole
        exact absurd ⟨_, whole.symm⟩ single
      · exact same
    · rw [same, same]

theorem keyParts_again (folding : LocaleFolding) (lowers : LowersOnce unicode)
    (parts : SplitResult) :
    folding.keyParts unicode
        { folding.keyParts unicode parts with
          path := withoutUnsafe (folding.keyParts unicode parts).path } =
      { folding.keyParts unicode parts with
        netloc := dropLeading www (folding.keyParts unicode parts).netloc
        path := normalizePath (folding.path unicode
          (withoutUnsafe (folding.keyParts unicode parts).path)) } := by
  have netloc : unicode.lower (folding.keyParts unicode parts).netloc =
      (folding.keyParts unicode parts).netloc :=
    lowers.again parts.netloc _ fun c mem => mem_of_mem_dropLeading mem
  have scheme : (keyParts unicode (folding.keyParts unicode parts)).scheme =
      (folding.keyParts unicode parts).scheme := by
    rw [LocaleFolding.keyParts, keyParts, keyParts]
    dsimp only
    by_cases web : lowerAscii parts.scheme = "http".toList ∨ lowerAscii parts.scheme = "https".toList
    · rw [if_pos web]
      rfl
    · rw [if_neg web, lowerAscii_lowerAscii, if_neg web]
  have rooted : orRoot (withoutUnsafe (folding.keyParts unicode parts).path) =
      withoutUnsafe (folding.keyParts unicode parts).path := by
    obtain ⟨tail, path, -⟩ := normalizePath_settled (folding.path unicode (orRoot parts.path))
    have filled : withoutUnsafe (folding.keyParts unicode parts).path ≠ [] := by
      rw [LocaleFolding.keyParts, path]
      exact List.cons_ne_nil _ _
    exact if_neg filled
  have query : (keyParts unicode (folding.keyParts unicode parts)).query =
      (folding.keyParts unicode parts).query := by
    rw [LocaleFolding.keyParts, keyParts, keyParts]
    dsimp only
    exact queryKey_queryKey unicode parts.query
  rw [LocaleFolding.keyParts, SplitResult.mk.injEq]
  exact ⟨scheme, congrArg (dropLeading www) netloc,
    congrArg (fun path => normalizePath (folding.path unicode path)) rooted, query, rfl⟩

/-- A key is its own key just when the second pass finds nothing to change. -/
theorem normalizeUrl_again_iff (lowers : LowersOnce unicode) (folding : LocaleFolding)
    (url : Text) :
    folding.normalizeUrl unicode (folding.normalizeUrl unicode url) =
        folding.normalizeUrl unicode url ↔
      ∀ parts, safeSplit unicode url = some parts →
        NetlocAccepted unicode (dropLeading www (unicode.lower parts.netloc)) →
          folding.Repeats unicode parts := by
  cases split : safeSplit unicode url with
  | none =>
    have again : safeSplit unicode (strip isSpace url) = none := by
      rwa [safeSplit, strip_strip]
    have once : folding.normalizeUrl unicode url = strip isSpace url := by
      rw [LocaleFolding.normalizeUrl, split]
    rw [once, LocaleFolding.normalizeUrl, again]
    exact iff_of_true (strip_strip isSpace url) fun parts impossible => by cases impossible
  | some parts =>
    have key := keyParts_of_safeSplit folding lowers.toLowersLetters split
    have once : folding.normalizeUrl unicode url = urlunsplit (folding.keyParts unicode parts) := by
      rw [LocaleFolding.normalizeUrl, split]
    rw [once]
    by_cases accepted : NetlocAccepted unicode (folding.keyParts unicode parts).netloc
    · have again := key.safeSplit_eq.1 accepted
      have twice := (keyParts_of_safeSplit folding lowers.toLowersLetters again).toRooted
      rw [keyParts_again folding lowers] at twice
      rw [LocaleFolding.normalizeUrl, again]
      dsimp only
      rw [keyParts_again folding lowers]
      have segments : ∀ segment ∈ pathSegments (folding.path unicode (orRoot parts.path)),
          IsSegment segment := fun segment mem => isSegment_of_mem mem
      constructor
      · intro same other found _
        obtain rfl := Option.some.inj found
        obtain ⟨netloc, path⟩ := twice.eq_of_urlunsplit_eq key.toRooted rfl rfl same
        have found := rootedText_inj
          (fun segment mem => (isSegment_of_mem mem).parted)
          (fun segment mem => (segments segment mem).parted) path
        obtain ⟨stays, locale⟩ := (pathSegments_again_iff unicode folding segments).mp found
        exact ⟨(dropLeading_www_again _).mp netloc, stays, locale⟩
      · intro repeats
        obtain ⟨netloc, stays, locale⟩ := repeats parts rfl accepted
        have found := (pathSegments_again_iff unicode folding segments).mpr ⟨stays, locale⟩
        have path : normalizePath (folding.path unicode (withoutUnsafe
            (folding.keyParts unicode parts).path)) = (folding.keyParts unicode parts).path :=
          congrArg rootedText found
        rw [path]
        exact congrArg (fun netloc => urlunsplit { folding.keyParts unicode parts with netloc })
          ((dropLeading_www_again _).mpr netloc)
    · rw [LocaleFolding.normalizeUrl, key.safeSplit_eq.2 accepted]
      refine iff_of_true key.strip_urlunsplit fun other found accepted' => ?_
      obtain rfl := Option.some.inj found
      exact absurd accepted' accepted

end Keys

section Sample

/-- The Unicode database on ASCII text. -/
def keyData : UnicodeData where
  lower s := s.map Char.toLower
  nfkc s := s
  idna s := .ok s
  repr s := s

theorem keyData_lowersOnce : LowersOnce keyData where
  toLowersLetters := lowersLetters_of_map fun _ => rfl
  again s t kept := by
    refine (List.map_congr_left fun c mem => ?_).trans (List.map_id' t)
    obtain ⟨d, -, rfl⟩ := List.mem_map.mp (kept c mem)
    exact toLower_toLower d

/-- An address whose key is its own key, with its locale folded. -/
theorem normalizeUrl_again_sample : ({ stripLocale := true } : LocaleFolding).normalizeUrl keyData
        (({ stripLocale := true } : LocaleFolding).normalizeUrl keyData
          "HTTP://www.a.io/de/x%2fy/?b=1&a=%20".toList) =
      ({ stripLocale := true } : LocaleFolding).normalizeUrl keyData
        "HTTP://www.a.io/de/x%2fy/?b=1&a=%20".toList := by
  refine (normalizeUrl_again_iff keyData_lowersOnce _ _).mpr fun parts split _ => ?_
  have read : safeSplit keyData "HTTP://www.a.io/de/x%2fy/?b=1&a=%20".toList =
      some ⟨"http".toList, "www.a.io".toList, "/de/x%2fy/".toList, "b=1&a=%20".toList, []⟩ := by
    decide
  obtain rfl := Option.some.inj (read.symm.trans split)
  exact ⟨by decide, by decide, by decide⟩

/-- A line feed that was percent-encoded is lost only when its key is read again. -/
theorem lineFeed_changes_key : ¬∀ (folding : LocaleFolding) (url : Text),
    folding.normalizeUrl keyData (folding.normalizeUrl keyData url) =
      folding.normalizeUrl keyData url := by
  intro same
  have once : ({} : LocaleFolding).normalizeUrl keyData "http://a.io/a%0Ab".toList =
      "https://a.io/a\nb/".toList := by decide
  have twice : ({} : LocaleFolding).normalizeUrl keyData "https://a.io/a\nb/".toList =
      "https://a.io/ab/".toList := by decide
  have again := same {} "http://a.io/a%0Ab".toList
  rw [once, twice] at again
  exact absurd again (by decide)

end Sample

end Rankuno.UrlKeys
