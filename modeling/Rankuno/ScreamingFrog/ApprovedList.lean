import Mathlib.Data.List.Nodup
import Rankuno.ScreamingFrog.UrlList
import Rankuno.UrlKeys.Normalize
import Rankuno.UrlSafety.Rebuilt

/-!
# What is approved and what is fetched

An approved list holds a URL for each line the worker reads from it. A line end inside a
URL, which `urlsplit` removes before any check, makes two lines of it.
-/

namespace Rankuno

open Python Python.Text Python.Urllib UrlKeys

section Filtering

variable {α β : Type}

variable {round : List α × β → α → List α × β}

theorem length_foldl_add (dropped : β → Nat)
    (step : ∀ s a, (round s a).1.length + dropped (round s a).2 =
      s.1.length + dropped s.2 + 1) (xs : List α) (s : List α × β) :
    (xs.foldl round s).1.length + dropped (xs.foldl round s).2 =
      s.1.length + dropped s.2 + xs.length := by
  induction xs generalizing s with
  | nil => rfl
  | cons a xs ih =>
    rw [List.foldl_cons, ih, step, List.length_cons]
    omega

theorem foldl_unchanged {γ : Type} (count : β → γ)
    (step : ∀ s a, count (round s a).2 = count s.2) (xs : List α) (s : List α × β) :
    count (xs.foldl round s).2 = count s.2 := by
  induction xs generalizing s with
  | nil => rfl
  | cons a xs ih => rw [List.foldl_cons, ih, step]

theorem foldl_eq_filter {passes : α → Bool}
    (step : ∀ s a, (round s a).1 = if passes a = true then s.1 ++ [a] else s.1) (xs : List α)
    (s : List α × β) : (xs.foldl round s).1 = s.1 ++ xs.filter passes := by
  induction xs generalizing s with
  | nil => exact (List.append_nil s.1).symm
  | cons a xs ih =>
    rw [List.foldl_cons, ih, step, List.filter_cons]
    split
    · rw [List.append_assoc, List.singleton_append]
    · rfl

end Filtering

section Stages

variable (unicode : HostData)

theorem dedupeRow_length (s : List Text × UrlListCounts) (raw : Text) :
    (dedupeRow s raw).1.length + (dedupeRow s raw).2.duplicatesDropped =
      s.1.length + s.2.duplicatesDropped + 1 := by
  rw [dedupeRow]
  dsimp only
  split
  · rfl
  · rw [List.length_append, List.length_singleton]
    exact Nat.add_right_comm _ _ _

theorem dedupeRow_sourceRows (s : List Text × UrlListCounts) (raw : Text) :
    (dedupeRow s raw).2.sourceRows = s.2.sourceRows + 1 := by
  rw [dedupeRow]
  dsimp only
  split <;> rfl

theorem dedupeRow_others (s : List Text × UrlListCounts) (raw : Text) :
    ((dedupeRow s raw).2.nonHttpDropped, (dedupeRow s raw).2.offDomainDropped,
      (dedupeRow s raw).2.unsafeHostDropped) =
    (s.2.nonHttpDropped, s.2.offDomainDropped, s.2.unsafeHostDropped) := by
  rw [dedupeRow]
  dsimp only
  split <;> rfl

theorem scopeRow_length (domain : Text) (s : List Text × UrlListCounts) (url : Text) :
    (scopeRow unicode domain s url).1.length + ((scopeRow unicode domain s url).2.nonHttpDropped +
          (scopeRow unicode domain s url).2.offDomainDropped) =
      s.1.length + (s.2.nonHttpDropped + s.2.offDomainDropped) + 1 := by
  rw [scopeRow]
  cases scopeOf unicode domain url with
  | nonHttp =>
    dsimp only
    omega
  | offDomain => rfl
  | inScope =>
    dsimp only
    rw [List.length_append, List.length_singleton]
    exact Nat.add_right_comm _ _ _

theorem scopeRow_others (domain : Text) (s : List Text × UrlListCounts) (url : Text) :
    ((scopeRow unicode domain s url).2.sourceRows,
      (scopeRow unicode domain s url).2.duplicatesDropped,
      (scopeRow unicode domain s url).2.unsafeHostDropped) =
    (s.2.sourceRows, s.2.duplicatesDropped, s.2.unsafeHostDropped) := by
  rw [scopeRow]
  cases scopeOf unicode domain url <;> rfl

theorem keepRow_length (allowed : List Text) (s : List Text × UrlListCounts) (url : Text) :
    (keepRow unicode allowed s url).1.length + (keepRow unicode allowed s url).2.unsafeHostDropped =
      s.1.length + s.2.unsafeHostDropped + 1 := by
  rw [keepRow]
  split
  · rw [List.length_append, List.length_singleton]
    exact Nat.add_right_comm _ _ _
  · rfl

theorem keepRow_others (allowed : List Text) (s : List Text × UrlListCounts) (url : Text) :
    ((keepRow unicode allowed s url).2.sourceRows,
      (keepRow unicode allowed s url).2.duplicatesDropped,
      (keepRow unicode allowed s url).2.nonHttpDropped,
      (keepRow unicode allowed s url).2.offDomainDropped) =
    (s.2.sourceRows, s.2.duplicatesDropped, s.2.nonHttpDropped, s.2.offDomainDropped) := by
  rw [keepRow]
  split <;> rfl

theorem find?_dedupe {p : Text → Bool} (blank : p [] = false) (rows : List Text)
    (s : List Text × UrlListCounts) :
    (rows.foldl dedupeRow s).1.find? p = (s.1 ++ rows.map stripFragment).find? p := by
  induction rows generalizing s with
  | nil => rw [List.map_nil, List.append_nil, List.foldl_nil]
  | cons raw rows ih =>
    rw [List.foldl_cons, ih, dedupeRow, List.map_cons]
    dsimp only
    split
    · next dropped =>
      rw [List.find?_append, List.find?_append, List.find?_cons]
      obtain empty | seen := dropped
      · rw [empty, blank]
      · cases hit : p (stripFragment raw) with
        | false => rfl
        | true =>
          have found : (s.1.find? p).isSome = true :=
            List.find?_isSome.mpr ⟨_, seen, hit⟩
          obtain ⟨first, same⟩ := Option.isSome_iff_exists.mp found
          rw [same]
          rfl
    · rw [List.append_assoc, List.singleton_append]

theorem nodup_dedupe (rows : List Text) (s : List Text × UrlListCounts) (h : s.1.Nodup) :
    (rows.foldl dedupeRow s).1.Nodup := by
  induction rows generalizing s with
  | nil => exact h
  | cons raw rows ih =>
    refine ih _ ?_
    rw [dedupeRow]
    dsimp only
    split
    · exact h
    · next new =>
      refine List.nodup_append.mpr ⟨h, List.nodup_singleton _, ?_⟩
      rintro url mem other one rfl
      exact new (Or.inr (List.mem_singleton.mp one ▸ mem))

theorem mem_dedupe {url : Text} (rows : List Text) (s : List Text × UrlListCounts) :
    url ∈ (rows.foldl dedupeRow s).1 ↔ url ∈ s.1 ∨ url ≠ [] ∧ url ∈ rows.map stripFragment := by
  induction rows generalizing s with
  | nil => simp only [List.foldl_nil, List.map_nil, List.not_mem_nil, and_false, or_false]
  | cons raw rows ih =>
    rw [List.foldl_cons, ih, dedupeRow, List.map_cons, List.mem_cons]
    dsimp only
    split
    · next dropped =>
      constructor
      · rintro (old | ⟨filled, later⟩)
        · exact Or.inl old
        · exact Or.inr ⟨filled, Or.inr later⟩
      · rintro (old | ⟨filled, rfl | later⟩)
        · exact Or.inl old
        · exact Or.inl (dropped.resolve_left filled)
        · exact Or.inr ⟨filled, later⟩
    · next new =>
      rw [List.mem_append, List.mem_singleton]
      constructor
      · rintro ((old | rfl) | ⟨filled, later⟩)
        · exact Or.inl old
        · exact Or.inr ⟨fun empty => new (Or.inl empty), Or.inl rfl⟩
        · exact Or.inr ⟨filled, Or.inr later⟩
      · rintro (old | ⟨filled, rfl | later⟩)
        · exact Or.inl (Or.inl old)
        · exact Or.inl (Or.inr rfl)
        · exact Or.inr ⟨filled, later⟩

theorem scopeRow_fst (domain : Text) (s : List Text × UrlListCounts) (url : Text) :
    (scopeRow unicode domain s url).1 =
      if (scopeOf unicode domain url == .inScope) = true then s.1 ++ [url] else s.1 := by
  rw [scopeRow]
  cases scopeOf unicode domain url <;> rfl

theorem keepRow_fst (allowed : List Text) (s : List Text × UrlListCounts) (url : Text) :
    (keepRow unicode allowed s url).1 =
      if ((netlocOf unicode url).any fun netloc => netloc ∈ allowed) = true then s.1 ++ [url]
      else s.1 := by
  rw [keepRow]
  split <;> rfl

end Stages

section Approval

variable (unicode : HostData) (policy : UrlSafetyPolicy) (resolve : Resolver)

/-- The policy accepts the URL's own scheme and network location. -/
def hostAccepted (url : Text) : Bool :=
  match policy.validate unicode.toUnicodeData resolve (originOf unicode url) with
  | .ok _ => true
  | .error _ => false

theorem safeHosts_new {url netloc : Text} {urls checked allowed result : List Text}
    (located : netlocOf unicode url = some netloc) (new : netloc ∉ checked)
    (h : safeHosts unicode policy resolve (url :: urls) checked allowed = .ok result) :
    safeHosts unicode policy resolve urls (netloc :: checked)
      (if hostAccepted unicode policy resolve url then netloc :: allowed else allowed) =
        .ok result := by
  rw [safeHosts, located] at h
  dsimp only at h
  rw [if_neg new] at h
  rw [hostAccepted]
  cases asked : policy.validate unicode.toUnicodeData resolve (originOf unicode url) with
  | ok safe =>
    rw [asked] at h
    exact h
  | error e =>
    rw [asked] at h
    cases e with
    | unsafeUrl e => exact h
    | escaped message => cases h

theorem mem_safeHosts {urls checked allowed result : List Text}
    (h : safeHosts unicode policy resolve urls checked allowed = .ok result) (netloc : Text) :
    netloc ∈ result ↔ netloc ∈ allowed ∨ netloc ∉ checked ∧
      ∃ asked, urls.find? (fun url => netlocOf unicode url == some netloc) = some asked ∧
        hostAccepted unicode policy resolve asked = true := by
  induction urls generalizing checked allowed with
  | nil =>
    cases h
    simp only [List.find?_nil, reduceCtorEq, false_and, exists_false, and_false, or_false]
  | cons url urls ih =>
    cases located : netlocOf unicode url with
    | none =>
      rw [safeHosts, located] at h
      rw [ih h, List.find?_cons, located]
      rfl
    | some other =>
      by_cases seen : other ∈ checked
      · rw [safeHosts, located] at h
        dsimp only at h
        rw [if_pos seen] at h
        rw [ih h, List.find?_cons, located]
        by_cases same : other = netloc
        · subst same
          simp only [seen, not_true_eq_false, false_and]
        · rw [beq_eq_false_iff_ne.mpr fun both => same (Option.some.inj both)]
      · rw [ih (safeHosts_new unicode policy resolve located seen h), List.find?_cons, located]
        by_cases same : other = netloc
        · subst same
          rw [beq_self_eq_true]
          simp only [List.mem_cons, not_true_eq_false, false_and, or_false,
            seen, not_false_eq_true, true_and, Option.some.injEq, exists_eq_left']
          split
          · next accepted => simp only [List.mem_cons, accepted, true_or, or_true]
          · next refused => simp only [refused, Bool.false_eq_true, or_false]
        · rw [beq_eq_false_iff_ne.mpr fun both => same (Option.some.inj both)]
          have apart : netloc ∉ other :: checked ↔ netloc ∉ checked := by
            rw [List.mem_cons, not_or]
            exact and_iff_right (Ne.symm same)
          rw [apart]
          split
          · rw [List.mem_cons, or_iff_right (Ne.symm same)]
          · rfl

variable (request : UrlListRequest)

def UrlListRequest.covers (url : Text) : Bool :=
  scopeOf unicode (scopeDomain unicode request.baseUrl) url == .inScope

/-- The first row in scope with a network location: the one whose scheme the policy is
asked about. -/
def UrlListRequest.askedFor (netloc : Text) : Option Text :=
  (request.urls.map stripFragment).find? fun url =>
    request.covers unicode url && netlocOf unicode url == some netloc

/-- A row in scope whose network location was accepted under the scheme it first came up
with. -/
def UrlListRequest.LetsThrough (url : Text) : Prop :=
  url ∈ request.urls.map stripFragment ∧ request.covers unicode url = true ∧
    ∃ netloc asked, netlocOf unicode url = some netloc ∧
      request.askedFor unicode netloc = some asked ∧
        hostAccepted unicode policy resolve asked = true

theorem web_of_covers {url : Text} (h : request.covers unicode url = true) :
    ∃ parts host, safeSplit unicode.toUnicodeData url = some parts ∧
      (unicode.lower parts.scheme = "http".toList ∨ unicode.lower parts.scheme = "https".toList) ∧
      hostOf unicode url = some host ∧ (scopeDomain unicode request.baseUrl = [] ∨
          registrableDomain unicode host = scopeDomain unicode request.baseUrl) := by
  rw [UrlListRequest.covers, beq_iff_eq, scopeOf] at h
  cases split : safeSplit unicode.toUnicodeData url with
  | none =>
    rw [split] at h
    cases h
  | some parts =>
    rw [split] at h
    dsimp only at h
    by_cases web : unicode.lower parts.scheme ∉ ["http".toList, "https".toList]
    · rw [if_pos web] at h
      cases h
    · rw [if_neg web] at h
      rw [not_not, List.mem_cons, List.mem_singleton] at web
      cases named : hostOf unicode url with
      | none =>
        rw [named] at h
        cases h
      | some host =>
        rw [named] at h
        dsimp only at h
        refine ⟨parts, host, rfl, web, rfl, ?_⟩
        by_contra outside
        rw [not_or] at outside
        rw [if_pos outside] at h
        cases h

theorem covers_nil (lower_nil : unicode.lower [] = []) : request.covers unicode [] = false := by
  rw [Bool.eq_false_iff]
  intro h
  obtain ⟨parts, host, split, web, -⟩ := web_of_covers unicode request h
  have plain : safeSplit unicode.toUnicodeData [] = some ⟨[], [], [], [], []⟩ := rfl
  rw [plain] at split
  cases split
  rw [lower_nil] at web
  exact absurd web (by decide)

theorem scheme_of_byteOrderMark {rest : Text} {parts : SplitResult}
    (stripped : strip isSpace ('\ufeff' :: rest) = '\ufeff' :: rest)
    (h : safeSplit unicode.toUnicodeData ('\ufeff' :: rest) = some parts) : parts.scheme = [] := by
  have split := urlsplit_of_safeSplit h
  rw [stripped] at split
  have clean : cleaned ('\ufeff' :: rest) = '\ufeff' :: withoutUnsafe rest := rfl
  rw [(parts_of_urlsplit split).1, clean, splitScheme]
  cases colon : partition ':' ('\ufeff' :: withoutUnsafe rest) with
  | mk scheme after =>
    cases after with
    | none => rfl
    | some after =>
      have first : scheme = '\ufeff' :: (partition ':' (withoutUnsafe rest)).1 :=
        (congrArg Prod.fst colon).symm
      rw [first]
      rfl

/-- The texts that are kept, with what the request says of them. -/
structure UrlListRequest.Keeps (kept : List Text) : Prop where
  filled : kept ≠ []
  nodup : kept.Nodup
  mem : ∀ url, url ∈ kept ↔ request.LetsThrough unicode policy resolve url

/-- What a preview that succeeds has made. -/
structure UrlListRequest.Makes (kept : List Text) (manifest : UrlListManifest) (body : Bytes) :
    Prop where
  keeps : request.Keeps unicode policy resolve kept
  body : body = renderUrlList kept
  url_count : manifest.urlCount = kept.length
  domain : manifest.registrableDomain = scopeDomain unicode request.baseUrl
  sample : manifest.sample = kept.take sampleSize
  counts : manifest.counts.sourceRows = manifest.counts.duplicatesDropped +
    manifest.counts.nonHttpDropped + manifest.counts.offDomainDropped +
    manifest.counts.unsafeHostDropped + manifest.counts.kept

variable {wire : DispatchWire} {manifest : UrlListManifest} {body : Bytes}

theorem mem_inScope (url : Text) : url ∈ (request.inScope unicode).1 ↔
    url ≠ [] ∧ url ∈ request.urls.map stripFragment ∧ request.covers unicode url = true := by
  rw [UrlListRequest.inScope, foldl_eq_filter (scopeRow_fst unicode _), List.nil_append, List.mem_filter, mem_dedupe]
  simp only [List.not_mem_nil, false_or, and_assoc]
  rfl

theorem find?_inScope (lower_nil : unicode.lower [] = []) (netloc : Text) :
    (request.inScope unicode).1.find? (fun url => netlocOf unicode url == some netloc) =
      request.askedFor unicode netloc := by
  rw [UrlListRequest.inScope, foldl_eq_filter (scopeRow_fst unicode _), List.nil_append, List.find?_filter]
  have blank : (request.covers unicode [] && netlocOf unicode [] == some netloc) = false := by
    rw [covers_nil unicode request lower_nil, Bool.false_and]
  simp only [Bool.decide_and, Bool.decide_eq_true]
  rw [find?_dedupe blank, List.nil_append]
  rfl

theorem counts_dedupe (rows : List Text) : (rows.foldl dedupeRow ([], {})).2.sourceRows =
      (rows.foldl dedupeRow ([], {})).1.length +
        (rows.foldl dedupeRow ([], {})).2.duplicatesDropped := by
  have read : ∀ s : List Text × UrlListCounts,
      (rows.foldl dedupeRow s).2.sourceRows = s.2.sourceRows + rows.length := by
    intro s
    induction rows generalizing s with
    | nil => rfl
    | cons raw rows ih =>
      rw [List.foldl_cons, ih, dedupeRow_sourceRows, List.length_cons]
      omega
  rw [read, length_foldl_add UrlListCounts.duplicatesDropped dedupeRow_length]
  rfl

theorem counts_inScope : (request.inScope unicode).2.sourceRows =
    (request.inScope unicode).2.duplicatesDropped + (request.inScope unicode).2.nonHttpDropped +
      (request.inScope unicode).2.offDomainDropped + (request.inScope unicode).1.length ∧
        (request.inScope unicode).2.unsafeHostDropped = 0 := by
  have first := counts_dedupe request.urls
  have untouched := foldl_unchanged (fun counts : UrlListCounts =>
    (counts.nonHttpDropped, counts.offDomainDropped, counts.unsafeHostDropped))
    dedupeRow_others request.urls ([], {})
  rw [UrlListRequest.inScope]
  generalize request.urls.foldl dedupeRow ([], {}) = deduped at first untouched ⊢
  have second := length_foldl_add
    (fun counts : UrlListCounts => counts.nonHttpDropped + counts.offDomainDropped)
    (scopeRow_length unicode (scopeDomain unicode request.baseUrl)) deduped.1 ([], deduped.2)
  have others := foldl_unchanged (fun counts : UrlListCounts =>
    (counts.sourceRows, counts.duplicatesDropped, counts.unsafeHostDropped))
    (scopeRow_others unicode (scopeDomain unicode request.baseUrl)) deduped.1 ([], deduped.2)
  simp only [Prod.mk.injEq] at others untouched
  dsimp only [List.length_nil] at second others
  omega

theorem makes_of_buildUrlList (lower_nil : unicode.lower [] = [])
    (h : buildUrlList unicode policy resolve wire request = .ok (manifest, body)) :
    ∃ kept, request.Makes unicode policy resolve kept manifest body := by
  rw [buildUrlList] at h
  obtain ⟨allowed, checked, h⟩ := bind_eq_ok.mp h
  dsimp only at h
  have list := foldl_eq_filter (keepRow_fst unicode allowed) (request.inScope unicode).1
    ([], (request.inScope unicode).2)
  have total := length_foldl_add UrlListCounts.unsafeHostDropped
    (keepRow_length unicode allowed) (request.inScope unicode).1 ([], (request.inScope unicode).2)
  have others := foldl_unchanged (fun counts : UrlListCounts => (counts.sourceRows,
    counts.duplicatesDropped, counts.nonHttpDropped, counts.offDomainDropped))
    (keepRow_others unicode allowed) (request.inScope unicode).1 ([], (request.inScope unicode).2)
  generalize (request.inScope unicode).1.foldl (keepRow unicode allowed)
    ([], (request.inScope unicode).2) = filtered at h list total others
  obtain ⟨kept, counts⟩ := filtered
  dsimp only at h list total others
  split at h
  · cases h
  · next filled =>
    split at h
    · cases h
    · split at h
      · cases h
        simp only [Prod.mk.injEq] at others
        obtain ⟨row, safe⟩ := counts_inScope unicode request
        refine ⟨kept, ⟨filled, ?_, fun url => ?_⟩, rfl, rfl, rfl, rfl, ?_⟩
        · rw [list, List.nil_append]
          refine List.Nodup.filter _ ?_
          rw [UrlListRequest.inScope, foldl_eq_filter (scopeRow_fst unicode _), List.nil_append]
          exact List.Nodup.filter _ (nodup_dedupe request.urls _ List.nodup_nil)
        · rw [list, List.nil_append, List.mem_filter, mem_inScope, Option.any_eq_true]
          constructor
          · rintro ⟨⟨-, row, covered⟩, netloc, located, accepted⟩
            obtain impossible | ⟨-, asked, found, accepted⟩ :=
              (mem_safeHosts unicode policy resolve checked netloc).mp (of_decide_eq_true accepted)
            · cases impossible
            · rw [find?_inScope unicode request lower_nil] at found
              exact ⟨row, covered, netloc, asked, located, found, accepted⟩
          · rintro ⟨row, covered, netloc, asked, located, found, accepted⟩
            refine ⟨⟨?_, row, covered⟩, netloc, located, decide_eq_true ?_⟩
            · rintro rfl
              rw [covers_nil unicode request lower_nil] at covered
              cases covered
            · rw [mem_safeHosts unicode policy resolve checked,
                find?_inScope unicode request lower_nil]
              exact Or.inr ⟨List.not_mem_nil, asked, found, accepted⟩
        · rw [List.length_nil] at total
          dsimp only
          omega
      · cases h

/-- The bytes of a list hold what was approved. -/
structure UrlListManifest.Describes (wire : DispatchWire) (manifest : UrlListManifest)
    (body : Bytes) : Prop where
  length : (readUrlListFile wire body).length = manifest.urlCount
  nodup : (readUrlListFile wire body).Nodup
  checked : ∀ url ∈ readUrlListFile wire body,
    ∃ parts host, safeSplit unicode.toUnicodeData url = some parts ∧
      (unicode.lower parts.scheme = "http".toList ∨ unicode.lower parts.scheme = "https".toList) ∧
      hostOf unicode url = some host ∧
      (manifest.registrableDomain ≠ [] →
        UrlKeys.registrableDomain unicode host = manifest.registrableDomain) ∧
      hostAccepted unicode policy resolve url = true
  sample : manifest.sample <+: readUrlListFile wire body
  counts : manifest.counts.sourceRows = manifest.counts.duplicatesDropped +
    manifest.counts.nonHttpDropped + manifest.counts.offDomainDropped +
    manifest.counts.unsafeHostDropped + manifest.counts.kept

/-- A wire that decodes UTF-8 as Python does. -/
def DispatchWire.readingUtf8 (wire : DispatchWire) : DispatchWire :=
  { wire with decodeUtf8 := Utf8.decodeReplacing }

variable {unicode policy resolve request} {kept : List Text}

theorem UrlListRequest.LetsThrough.trimmed {url : Text}
    (h : request.LetsThrough unicode policy resolve url) (lower_nil : unicode.lower [] = []) :
    url ≠ [] ∧ strip isSpace url = url ∧ url.head? ≠ some '\ufeff' := by
  obtain ⟨row, covered, -⟩ := h
  have stripped : strip isSpace url = url := by
    obtain ⟨raw, -, rfl⟩ := List.mem_map.mp row
    exact strip_strip isSpace _
  refine ⟨?_, stripped, fun mark => ?_⟩
  · rintro rfl
    rw [covers_nil unicode request lower_nil] at covered
    cases covered
  · obtain ⟨rest, rfl⟩ := List.head?_eq_some_iff.mp mark
    obtain ⟨parts, host, split, web, -⟩ := web_of_covers unicode request covered
    rw [scheme_of_byteOrderMark unicode stripped split, lower_nil] at web
    exact absurd web (by decide)

theorem UrlListRequest.Keeps.readUrlListFile_eq (h : request.Keeps unicode policy resolve kept)
    (lower_nil : unicode.lower [] = []) (wire : DispatchWire) :
    readUrlListFile wire.readingUtf8 (renderUrlList kept) =
      filledLines (kept.flatMap fun url => url ++ crlf) := by
  have decoded : wire.readingUtf8.decodeUtf8 (renderUrlList kept) =
      kept.flatMap fun url => url ++ crlf := Utf8.decodeReplacing_encode _
  have unmarked : lstrip (fun c => c.toNat = 0xfeff) (kept.flatMap fun url => url ++ crlf) =
      kept.flatMap fun url => url ++ crlf := by
    cases kept with
    | nil => exact absurd rfl h.filled
    | cons url urls =>
      obtain ⟨filled, -, mark⟩ := ((h.mem url).mp List.mem_cons_self).trimmed lower_nil
      cases url with
      | nil => exact absurd rfl filled
      | cons c rest =>
        refine List.dropWhile_cons_of_neg fun marked => mark ?_
        rw [decide_eq_true_eq] at marked
        rw [List.head?_cons, ← c.ofNat_toNat, marked]
  rw [readUrlListFile, decoded, unmarked]
  rfl

/-- The bytes hold what was approved just if no URL that is let through has a line end in
it, and the policy accepts each with its own scheme. -/
theorem describes_iff_oneLine (lower_nil : unicode.lower [] = [])
    (built : buildUrlList unicode policy resolve wire request = .ok (manifest, body)) :
    manifest.Describes unicode policy resolve wire.readingUtf8 body ↔
      ∀ url, request.LetsThrough unicode policy resolve url →
        OneLine url ∧ hostAccepted unicode policy resolve url = true := by
  obtain ⟨kept, made⟩ := makes_of_buildUrlList unicode policy resolve request lower_nil built
  have read := made.keeps.readUrlListFile_eq lower_nil wire
  have trimmed : ∀ url ∈ kept, url ≠ [] ∧ strip isSpace url = url := fun url mem =>
    have whole := ((made.keeps.mem url).mp mem).trimmed lower_nil
    ⟨whole.1, whole.2.1⟩
  rw [← made.body] at read
  constructor
  · intro describes
    have same := describes.length
    rw [read, made.url_count] at same
    have lines := oneLine_of_length_filledLines trimmed same.le
    intro url through
    have mem := (made.keeps.mem url).mpr through
    refine ⟨lines url mem, ?_⟩
    rw [filledLines_eq fun url mem => ⟨lines url mem, trimmed url mem⟩] at read
    obtain ⟨-, -, -, -, -, -, accepted⟩ := describes.checked url (read ▸ mem)
    exact accepted
  · intro plain
    have whole : readUrlListFile wire.readingUtf8 body = kept := by
      rw [read]
      exact filledLines_eq fun url mem =>
        ⟨(plain url ((made.keeps.mem url).mp mem)).1, trimmed url mem⟩
    refine ⟨?_, ?_, fun url mem => ?_, ?_, made.counts⟩
    · rw [whole, made.url_count]
    · rw [whole]
      exact made.keeps.nodup
    · rw [whole] at mem
      have through := (made.keeps.mem url).mp mem
      obtain ⟨parts, host, split, web, named, scope⟩ :=
        web_of_covers unicode request through.2.1
      refine ⟨parts, host, split, web, named, fun limited => ?_, (plain url through).2⟩
      rw [made.domain] at limited ⊢
      exact scope.resolve_left limited
    · rw [whole, made.sample]
      exact List.take_prefix _ _

end Approval

section Sample

open UrlSafetyPolicy (asciiData publicResolver)

/-- The Unicode database on ASCII text. -/
def plainHosts : HostData where
  toUnicodeData := asciiData
  isDigit := isAsciiDigit

/-- The libraries as they answer on the lists below. -/
def listWire (digest : String) : DispatchWire where
  jsonDumps _ := []
  jsonLoads _ := none
  claimsDumpJson _ := []
  claimsValidateJson _ := none
  hmacSha256 _ _ := []
  sha256Hex _ := digest
  decodeUtf8 _ := []

/-- Pasted addresses for the site `http://a.io/`. -/
def pasted (urls : List Text) : UrlListRequest where
  urls := urls
  source := .pasted
  sourceJobId := []
  sourceLabel := "a paste".toList
  baseUrl := "http://a.io/".toList
  maxUrls := 10

/-- A list of one page that is fetched as it was approved. -/
theorem onePage_describes : ∃ manifest body, buildUrlList plainHosts {} publicResolver
    (listWire "600fa15afa62202ff51369de57f13ff899f6a33dab11b0e9b5c392e44877df33")
    (pasted ["http://a.io/x#top".toList]) = .ok (manifest, body) ∧
      manifest.Describes plainHosts {} publicResolver (listWire
        "600fa15afa62202ff51369de57f13ff899f6a33dab11b0e9b5c392e44877df33").readingUtf8 body := by
  have ok : (buildUrlList plainHosts {} publicResolver
      (listWire "600fa15afa62202ff51369de57f13ff899f6a33dab11b0e9b5c392e44877df33")
      (pasted ["http://a.io/x#top".toList])).toOption.isSome = true := by decide
  cases built : buildUrlList plainHosts {} publicResolver
      (listWire "600fa15afa62202ff51369de57f13ff899f6a33dab11b0e9b5c392e44877df33")
      (pasted ["http://a.io/x#top".toList]) with
  | error e =>
    rw [built] at ok
    cases ok
  | ok made =>
    refine ⟨made.1, made.2, rfl, (describes_iff_oneLine rfl built).mpr ?_⟩
    rintro url ⟨row, -⟩
    obtain rfl := List.mem_singleton.mp row
    decide

/-- A pasted address with a line feed in it is approved as one page of the site, and the
worker reads two addresses, the second on a site that nobody looked at. -/
theorem lineFeed_smuggles : ¬∀ manifest body, buildUrlList plainHosts {} publicResolver
    (listWire "33c790c20558746c07fba6d7373db6b547cb8779d7d3dd6d521c6b9907e91b78")
    (pasted ["http://a.io/\nhttp://x.io/".toList]) = .ok (manifest, body) →
      manifest.Describes plainHosts {} publicResolver (listWire
        "33c790c20558746c07fba6d7373db6b547cb8779d7d3dd6d521c6b9907e91b78").readingUtf8 body := by
  have run : (buildUrlList plainHosts {} publicResolver
      (listWire "33c790c20558746c07fba6d7373db6b547cb8779d7d3dd6d521c6b9907e91b78")
      (pasted ["http://a.io/\nhttp://x.io/".toList])).toOption.map (fun built =>
        (built.1.urlCount, readUrlListFile (listWire
          "33c790c20558746c07fba6d7373db6b547cb8779d7d3dd6d521c6b9907e91b78").readingUtf8
            built.2)) =
      some (1, ["http://a.io/".toList, "http://x.io/".toList]) := by decide
  intro always
  cases built : buildUrlList plainHosts {} publicResolver
      (listWire "33c790c20558746c07fba6d7373db6b547cb8779d7d3dd6d521c6b9907e91b78")
      (pasted ["http://a.io/\nhttp://x.io/".toList]) with
  | error e =>
    rw [built] at run
    cases run
  | ok made =>
    rw [built] at run
    obtain ⟨count, lines⟩ := Prod.mk.inj (Option.some.inj run)
    have same := (always made.1 made.2 built).length
    rw [count, lines] at same
    cases same

end Sample

end Rankuno
