import Mathlib.Data.List.Perm.Subperm
import Mathlib.Data.List.Sort
import Rankuno.UrlKeys.Hosts
import Rankuno.WorkerDispatch.Routes

/-!
# The bundle of a finished crawl

The worker packs the exports of a crawl and uploads them (`worker_daemon.py`), and the
cloud reads them out of the archive it receives (`upload_manifest.py`,
`worker_routes.py`). Both apply the same size cap: the worker to the archive, the cloud
to the archive and to what comes out of it.

Reading and writing archives is `zipfile`'s, a parameter.
-/

namespace Rankuno

open Python Python.Text
open scoped UrlKeys

def issueSourceFilenames : List String :=
  [ "canonicalised_inlinks.csv", "canonicals_canonical_is_relative.csv",
    "canonicals_canonicalised.csv", "canonicals_missing.csv", "canonicals_multiple.csv",
    "canonicals_multiple_conflicting.csv", "canonicals_nonindexable_canonical.csv",
    "canonicals_outside_head.csv", "canonicals_unlinked.csv", "content_exact_duplicates.csv",
    "content_grammar_errors.csv", "content_lorem_ipsum_placeholder.csv",
    "content_low_content_pages.csv", "content_near_duplicates.csv", "content_soft_404_pages.csv",
    "content_spelling_errors.csv", "directives_nofollow.csv", "directives_noindex.csv",
    "form_url_insecure.csv", "h1_duplicate.csv", "h1_missing.csv", "h1_multiple.csv",
    "h1_over_70_characters.csv", "hreflang_inconsistent_language_region_return_links.csv",
    "hreflang_incorrect_language_region_codes.csv", "hreflang_missing.csv",
    "hreflang_missing_return_links.csv", "hreflang_missing_self_reference.csv",
    "hreflang_missing_xdefault.csv", "hreflang_multiple_entries.csv",
    "hreflang_noindex_return_links.csv", "hreflang_non200_hreflang_urls.csv",
    "hreflang_noncanonical_return_links.csv", "hreflang_not_using_canonical.csv",
    "hreflang_outside_head.csv", "hreflang_unlinked_hreflang_urls.csv", "http_urls_inlinks.csv",
    "internal_blocked_by_robots_txt_inlinks.csv", "internal_blocked_resource_inlinks.csv",
    "internal_client_error_(4xx)_inlinks.csv", "internal_no_response_inlinks.csv",
    "internal_redirection_(3xx)_inlinks.csv", "internal_server_error_(5xx)_inlinks.csv",
    "meta_description_below_400_pixels.csv", "meta_description_duplicate.csv",
    "meta_description_missing.csv", "meta_description_multiple.csv",
    "meta_description_outside_head.csv", "meta_description_over_985_pixels.csv",
    "nonindexable_canonical_inlinks.csv", "page_titles_below_200_pixels.csv",
    "page_titles_duplicate.csv", "page_titles_missing.csv", "page_titles_multiple.csv",
    "page_titles_outside_head.csv", "page_titles_over_561_pixels.csv",
    "page_titles_same_as_h1.csv", "pagination_multiple_pagination_urls.csv",
    "pagination_nonindexable.csv", "pagination_pagination_loop.csv",
    "pagination_pagination_url_not_in_anchor_tag.csv", "pagination_sequence_error.csv",
    "pagination_unlinked_pagination_urls.csv", "protocolrelative_outlinks.csv",
    "response_codes_internal_blocked_by_robots_txt.csv",
    "response_codes_internal_client_error_(4xx).csv", "response_codes_internal_no_response.csv",
    "response_codes_internal_redirect_chain.csv", "response_codes_internal_redirect_loop.csv",
    "response_codes_internal_redirection_(3xx).csv",
    "response_codes_internal_server_error_(5xx).csv", "security_bad_content_type.csv",
    "security_form_on_http_url.csv", "security_http_urls.csv",
    "security_missing_contentsecuritypolicy_header.csv", "security_missing_hsts_header.csv",
    "security_missing_secure_referrerpolicy_header.csv",
    "security_missing_xcontenttypeoptions_header.csv",
    "security_missing_xframeoptions_header.csv", "security_mixed_content.csv",
    "sitemaps_nonindexable_urls_in_sitemap.csv", "sitemaps_orphan_urls.csv",
    "sitemaps_urls_not_in_sitemap.csv", "sitemaps_xml_sitemap_with_over_50k_urls.csv",
    "structured_data_missing.csv", "structured_data_parse_errors.csv",
    "structured_data_validation_errors.csv", "structured_data_validation_warnings.csv",
    "unsafe_crossorigin_links.csv", "url_contains_space.csv", "url_multiple_slashes.csv",
    "url_parameters.csv", "url_repetitive_path.csv", "url_underscores.csv", "url_uppercase.csv"]

def allowedBundleFilenames : List Text :=
  (spineFilename :: issueSourceFilenames).map String.toList

/-- `MAX_ZIP_MEMBERS`. -/
def maxZipMembers : Nat := 200

/-- `MAX_MEMBER_BYTES`. -/
def maxMemberBytes : Nat := 200 * 1024 * 1024

/-- `zipfile.ZipInfo`, with what reading the member gives. -/
structure ZipInfo where
  filename : Text
  externalAttr : Nat
  flagBits : Nat
  compressType : Nat
  content : Except Text (List UInt8)
  deriving DecidableEq

/-- `info.is_dir()`. -/
def ZipInfo.isDir (info : ZipInfo) : Bool := info.filename.getLast? = some '/'

/-- `zipfile`: the bytes of an archive with the members written to it, and the members
of an archive, or the text of what opening it raises. -/
structure Zipfile where
  pack : List ZipInfo → List UInt8
  unpack : List UInt8 → Except Text (List ZipInfo)

/-- Reading gives back what was written. -/
def Zipfile.Faithful (zipfile : Zipfile) (infos : List ZipInfo) : Prop :=
  zipfile.unpack (zipfile.pack infos) = .ok infos

section Worker

/-- What a directory holds under a name, with links followed: the mode of `os.stat` and
the bytes of a file. -/
structure BundleEntry where
  name : Text
  mode : Nat
  content : List UInt8
  followed : mode &&& 0o170000 ≠ 0o120000
  deriving DecidableEq

namespace BundleEntry

/-- `stat.S_ISDIR`. -/
def isDir (entry : BundleEntry) : Bool := entry.mode &&& 0o170000 = 0o040000

/-- It matches `*.csv`. -/
def isCsv (entry : BundleEntry) : Bool := ".csv".toList.isSuffixOf entry.name

def isAllowed (entry : BundleEntry) : Bool := entry.name ∈ allowedBundleFilenames

/-- `archive.write(path, arcname=path.name)`. -/
def written (entry : BundleEntry) : ZipInfo :=
  if entry.isDir then ⟨entry.name ++ ['/'], (entry.mode &&& 0xffff) <<< 16 ||| 0x10, 0, 0, .ok []⟩
  else ⟨entry.name, (entry.mode &&& 0xffff) <<< 16, 0, 8, .ok entry.content⟩

end BundleEntry

structure BundleDir where
  entries : List BundleEntry
  names_nodup : (entries.map BundleEntry.name).Nodup

namespace BundleDir

variable (dir : BundleDir)

/-- `sorted(Path(bundle_dir).glob("*.csv"))`. -/
def csvFiles : List BundleEntry :=
  (dir.entries.filter BundleEntry.isCsv).insertionSort fun f g =>
    String.ofList f.name ≤ String.ofList g.name

def included : List BundleEntry := dir.csvFiles.filter BundleEntry.isAllowed

def skipped : List BundleEntry := dir.csvFiles.filter fun entry => !entry.isAllowed

end BundleDir

/-- What the worker tells the cloud. -/
inductive BundleReport where
  | failed (error : String)
  | uploaded (archive : List UInt8)
  deriving DecidableEq

/-- `_empty_bundle_error`. -/
def BundleReport.emptyBundleError (skipped : Nat) : String :=
  if 0 < skipped then
    "The crawl wrote " ++ toString skipped ++ " file(s), but none of them are export files " ++
      "this engine recognises, so nothing could be uploaded. This is a " ++
      "configuration problem, not a crawl problem — report it."
  else
    "The crawl produced no export files. Screaming Frog writes its exports only " ++
      "when a crawl finishes, so a run that was stopped, killed, or crashed before " ++
      "the end leaves an empty output folder. Start the crawl again."

/-- `_upload_bundle`. -/
def uploadBundle (zipfile : Zipfile) (dir : BundleDir) (maxBytes : Nat) : BundleReport :=
  let archive := zipfile.pack (dir.included.map BundleEntry.written)
  if dir.included = [] then .failed (BundleReport.emptyBundleError dir.skipped.length)
  else if maxBytes < archive.length then
    .failed ("bundle exceeds the " ++ toString (maxBytes / (1024 * 1024)) ++ " MB upload limit")
  else .uploaded archive

end Worker

section Cloud

/-- `_check_member_name`, with the text of its `BundleUploadError`. -/
def checkMemberName (name : Text) : Except Text Unit :=
  if name = [] then .error "empty member name in uploaded bundle".toList
  else if '\\' ∈ name ∨ name.any fun c => c.toNat < 0x20 || c.toNat = 0x7f then
    .error ("member name '".toList ++ name ++ "' contains a forbidden character".toList)
  else if name.head? = some '/' ∨ (name.head?.any isAsciiAlpha ∧ name[1]? = some ':') then
    .error ("member name '".toList ++ name ++ "' is an absolute path".toList)
  else if ['.', '.'] ∈ split '/' name then
    .error ("member name '".toList ++ name ++ "' attempts path traversal".toList)
  else .ok ()

/-- `PurePosixPath(name).name`. -/
def posixName (name : Text) : Text :=
  let parts := (split '/' name).filter fun part => part ≠ [] ∧ part ≠ ['.']
  parts.getLast?.getD []

/-- `extracted` and `total_bytes`. -/
structure Extraction where
  extracted : Dict Text (List UInt8) := .empty
  totalBytes : Nat := 0

/-- One member. -/
def Extraction.member (maxTotalBytes : Nat) (s : Extraction) (info : ZipInfo) :
    Except Text Extraction := do
  if info.isDir then return s
  checkMemberName info.filename
  if info.externalAttr >>> 16 &&& 0o170000 = 0o120000 then
    .error ("member '".toList ++ info.filename ++ "' is a symlink".toList)
  else if info.flagBits &&& 1 ≠ 0 then
    .error ("member '".toList ++ info.filename ++ "' is encrypted".toList)
  else if info.compressType ∉ [0, 8] then
    .error ("member '".toList ++ info.filename ++ "' uses unsupported compression".toList)
  else if posixName info.filename ∉ allowedBundleFilenames then
    .error "a bundle member is not an expected export file".toList
  else if (s.extracted.get (posixName info.filename)).isSome then
    .error ("duplicate member basename '".toList ++ posixName info.filename ++ "'".toList)
  else
    match info.content with
    | .error e => .error ("failed to read member '".toList ++ info.filename ++ "': ".toList ++ e)
    | .ok raw =>
      if maxMemberBytes < raw.length then
        .error ("member '".toList ++ info.filename ++ "' exceeds the per-file size cap".toList)
      else if maxTotalBytes < s.totalBytes + raw.length then
        .error "bundle exceeds the total size cap".toList
      else
        return ⟨s.extracted.put (posixName info.filename, raw), s.totalBytes + raw.length⟩

/-- `validate_and_extract_bundle`. -/
def validateAndExtractBundle (zipfile : Zipfile) (data : List UInt8) (maxTotalBytes : Nat) :
    Except Text (Dict Text (List UInt8)) :=
  match zipfile.unpack data with
  | .error e => .error ("not a valid zip archive: ".toList ++ e)
  | .ok infos =>
    if maxZipMembers < infos.length then
      .error ("bundle has too many members (".toList ++ ofNat infos.length ++ ")".toList)
    else do
      let s ← infos.foldlM (Extraction.member maxTotalBytes) {}
      return s.extracted

/-- `rebuild_zip`. -/
def rebuildZip (zipfile : Zipfile) (members : Dict Text (List UInt8)) : List UInt8 :=
  let sorted := members.rows.insertionSort fun a b => String.ofList a.1 ≤ String.ofList b.1
  zipfile.pack (sorted.map fun entry => ⟨entry.1, 0o600 <<< 16, 0, 8, .ok entry.2⟩)

/-- How the upload route answers: a refusal with its detail, or what it then tells the
store. -/
inductive UploadReply where
  | tooLarge
  | badRequest (detail : Text)
  | report (report : WorkerReport)

/-- The route `upload_bundle`, on a body it may read. -/
def receiveBundle (zipfile : Zipfile) (maxBytes : Nat) (body : List UInt8) : UploadReply :=
  if maxBytes < body.length then .tooLarge
  else if body = [] then .badRequest "empty upload body".toList
  else
    match validateAndExtractBundle zipfile body maxBytes with
    | .error e => .badRequest e
    | .ok members =>
      if members.rows = [] then .report .emptyUpload
      else
        .report (.upload (rebuildZip zipfile members).length
          (members.get spineFilename.toList).isSome)

end Cloud

section Agreement

/-- How the names on the list are spelt. -/
def isExportName (name : Text) : Bool :=
  ['.', 'c', 's', 'v'].isSuffixOf name &&
    name.all fun c => isSlugChar c || c = '(' || c = ')' || c = '.'

theorem forall_allowed {P : Text → Prop} (h : ∀ name, isExportName name = true → P name) :
    ∀ name ∈ allowedBundleFilenames, P name := by
  have spelt : ∀ name ∈ spineFilename :: issueSourceFilenames,
      ∃ chars, name = String.ofList chars ∧ isExportName chars = true := by
    iterate 96 refine List.forall_mem_cons.mpr ⟨⟨_, rfl, by decide⟩, ?_⟩
    exact List.forall_mem_nil _
  intro name mem
  obtain ⟨literal, listed, rfl⟩ := List.mem_map.mp mem
  obtain ⟨chars, rfl, exports⟩ := spelt literal listed
  rw [String.toList_ofList]
  exact h chars exports

variable {name : Text}

theorem csv_of_isExportName (h : isExportName name = true) :
    ".csv".toList.isSuffixOf name = true := (Bool.and_eq_true_iff.mp h).1

theorem notMem_of_isExportName (h : isExportName name = true) {c : Char}
    (other : (isSlugChar c || c = '(' || c = ')' || c = '.') = false) : c ∉ name := by
  intro mem
  have all := List.all_eq_true.mp (Bool.and_eq_true_iff.mp h).2 c mem
  rw [other] at all
  cases all

theorem length_of_isExportName (h : isExportName name = true) : 4 ≤ name.length := by
  have suffix := List.isSuffixOf_iff_suffix.mp (Bool.and_eq_true_iff.mp h).1
  exact suffix.length_le

theorem split_of_isExportName (h : isExportName name = true) : split '/' name = [name] :=
  split_of_notMem (notMem_of_isExportName h (by decide))

theorem printable_of_isExportName (h : isExportName name = true) {c : Char} (mem : c ∈ name) :
    0x20 ≤ c.toNat ∧ c.toNat ≠ 0x7f := by
  have spelt := List.all_eq_true.mp (Bool.and_eq_true_iff.mp h).2 c mem
  simp only [isSlugChar, isAsciiDigit, Bool.or_eq_true, Bool.and_eq_true, decide_eq_true_eq]
    at spelt
  rcases spelt with (((((small | digit) | rfl) | rfl) | rfl) | rfl) | rfl
  · omega
  · omega
  all_goals decide

theorem checkMemberName_of_isExportName (h : isExportName name = true) :
    checkMemberName name = .ok () := by
  have long := length_of_isExportName h
  have nonempty : name ≠ [] := List.ne_nil_of_length_pos (by omega)
  have noControl : ¬('\\' ∈ name ∨ (name.any fun c => c.toNat < 0x20 || c.toNat = 0x7f) = true) := by
    rintro (backslash | control)
    · exact notMem_of_isExportName h (by decide) backslash
    · obtain ⟨c, mem, isControl⟩ := List.any_eq_true.mp control
      obtain ⟨low, del⟩ := printable_of_isExportName h mem
      simp only [Bool.or_eq_true, decide_eq_true_eq] at isControl
      omega
  have relative : ¬(name.head? = some '/' ∨
      ((name.head?.any isAsciiAlpha) = true ∧ name[1]? = some ':')) := by
    rintro (root | ⟨-, drive⟩)
    · exact notMem_of_isExportName h (by decide) (List.mem_of_mem_head? root)
    · exact notMem_of_isExportName h (by decide) (List.mem_of_getElem? drive)
  have within : ['.', '.'] ∉ split '/' name := by
    rw [split_of_isExportName h, List.mem_singleton]
    rintro rfl
    simp at long
  rw [checkMemberName, if_neg nonempty, if_neg noControl, if_neg relative, if_neg within]

theorem posixName_of_isExportName (h : isExportName name = true) : posixName name = name := by
  have long := length_of_isExportName h
  have nonempty : name ≠ [] := List.ne_nil_of_length_pos (by omega)
  have notHere : name ≠ ['.'] := by
    rintro rfl
    simp at long
  simp [posixName, split_of_isExportName h, nonempty, notHere]

theorem isExportName_of_isAllowed {entry : BundleEntry} (allowed : entry.isAllowed = true) :
    isExportName entry.name = true :=
  forall_allowed (fun _ exports => exports) _ (of_decide_eq_true allowed)

namespace BundleDir

variable {dir : BundleDir} {entry : BundleEntry}

theorem mem_included : entry ∈ dir.included ↔ entry ∈ dir.entries ∧ entry.isAllowed = true := by
  rw [included, csvFiles, List.mem_filter, List.mem_insertionSort, List.mem_filter]
  constructor
  · rintro ⟨⟨mem, -⟩, allowed⟩
    exact ⟨mem, allowed⟩
  · rintro ⟨mem, allowed⟩
    exact ⟨⟨mem, csv_of_isExportName (isExportName_of_isAllowed allowed)⟩, allowed⟩

theorem nodup_included : (dir.included.map BundleEntry.name).Nodup := by
  have sublist : (dir.included.map BundleEntry.name).Sublist
      (dir.csvFiles.map BundleEntry.name) := List.filter_sublist.map _
  refine sublist.nodup ?_
  rw [csvFiles, ((List.perm_insertionSort _ _).map BundleEntry.name).nodup_iff]
  exact (List.filter_sublist.map _).nodup dir.names_nodup

theorem length_included : dir.included.length ≤ maxZipMembers := by
  have allowed : dir.included.map BundleEntry.name ⊆ allowedBundleFilenames := by
    intro name mem
    obtain ⟨entry, packed, rfl⟩ := List.mem_map.mp mem
    exact of_decide_eq_true (mem_included.mp packed).2
  have few := (List.subperm_of_subset nodup_included allowed).length_le
  rw [List.length_map] at few
  exact few.trans (by decide)

end BundleDir

theorem member_of_isDir {entry : BundleEntry} (maxTotalBytes : Nat) (s : Extraction)
    (isDir : entry.isDir = true) : s.member maxTotalBytes entry.written = .ok s := by
  have ends : entry.written.isDir = true := by
    rw [BundleEntry.written, if_pos isDir]
    simp [ZipInfo.isDir]
  rw [Extraction.member, if_pos ends]
  rfl

theorem member_of_not_isDir {entry : BundleEntry} {maxTotalBytes : Nat} {s : Extraction}
    (allowed : entry.isAllowed = true) (isFile : entry.isDir = false)
    (small : entry.content.length ≤ maxMemberBytes) (new : s.extracted.get entry.name = none) :
    s.member maxTotalBytes entry.written =
      if maxTotalBytes < s.totalBytes + entry.content.length then
        .error "bundle exceeds the total size cap".toList
      else
        .ok ⟨s.extracted.put (entry.name, entry.content), s.totalBytes + entry.content.length⟩ := by
  have exports := isExportName_of_isAllowed allowed
  have written : entry.written =
      ⟨entry.name, (entry.mode &&& 0xffff) <<< 16, 0, 8, .ok entry.content⟩ := by
    rw [BundleEntry.written, isFile]
    rfl
  have ends : entry.written.isDir = false := by
    rw [written]
    refine decide_eq_false fun slash => ?_
    exact notMem_of_isExportName exports (by decide) (List.mem_of_getLast? slash)
  have notLink : ¬(entry.mode &&& 0xffff) <<< 16 >>> 16 &&& 0o170000 = 0o120000 := by
    rw [Nat.shiftLeft_shiftRight, Nat.and_assoc]
    exact entry.followed
  have listed : entry.name ∈ allowedBundleFilenames := of_decide_eq_true allowed
  rw [Extraction.member, ends]
  simp only [written, checkMemberName_of_isExportName exports,
    posixName_of_isExportName exports, new]
  rw [if_neg notLink, if_neg (by decide), if_neg (by decide), if_neg (not_not.mpr listed),
    if_neg (by decide), if_neg (not_lt.mpr small)]
  rfl

/-- How many bytes come out of the members of some entries. -/
def exportedBytes : List BundleEntry → Nat
  | [] => 0
  | entry :: entries => (if entry.isDir then 0 else entry.content.length) + exportedBytes entries

/-- The entries are ones the worker packs, and new to the cloud. -/
structure Packable (s : Extraction) (entries : List BundleEntry) : Prop where
  allowed : ∀ entry ∈ entries, entry.isAllowed = true
  small : ∀ entry ∈ entries, entry.isDir = false → entry.content.length ≤ maxMemberBytes
  nodup : (entries.map BundleEntry.name).Nodup
  new : ∀ entry ∈ entries, s.extracted.get entry.name = none

variable {maxTotalBytes : Nat} {s : Extraction} {entry : BundleEntry} {entries : List BundleEntry}

theorem Packable.tail {t : Extraction} (h : Packable s (entry :: entries))
    (same : ∀ name, name ≠ entry.name → t.extracted.get name = s.extracted.get name) :
    Packable t entries where
  allowed := fun other mem => h.allowed other (List.mem_cons_of_mem _ mem)
  small := fun other mem => h.small other (List.mem_cons_of_mem _ mem)
  nodup := (List.nodup_cons.mp h.nodup).2
  new := by
    intro other mem
    have differs : other.name ≠ entry.name := by
      intro equal
      exact (List.nodup_cons.mp h.nodup).1 (equal ▸ List.mem_map_of_mem mem)
    rw [same _ differs]
    exact h.new other (List.mem_cons_of_mem _ mem)

theorem extract_fits (h : Packable s entries)
    (fits : s.totalBytes + exportedBytes entries ≤ maxTotalBytes) :
    ∃ t, (entries.map BundleEntry.written).foldlM (Extraction.member maxTotalBytes) s = .ok t ∧
      ∀ name bytes, t.extracted.get name = some bytes ↔ s.extracted.get name = some bytes ∨
        ∃ entry ∈ entries, entry.isDir = false ∧ entry.name = name ∧ entry.content = bytes := by
  induction entries generalizing s with
  | nil => exact ⟨s, rfl, by simp⟩
  | cons entry entries ih =>
    rw [List.map_cons, List.foldlM_cons]
    cases kind : entry.isDir with
    | true =>
      rw [exportedBytes, if_pos kind, Nat.zero_add] at fits
      obtain ⟨t, ran, holds⟩ := ih (h.tail fun _ _ => rfl) fits
      rw [member_of_isDir maxTotalBytes s kind]
      refine ⟨t, ran, fun name bytes => ?_⟩
      rw [holds]
      simp [kind]
    | false =>
      have isFile : ¬entry.isDir = true := by simp [kind]
      rw [exportedBytes, if_neg isFile] at fits
      have new := h.new entry List.mem_cons_self
      rw [member_of_not_isDir (h.allowed entry List.mem_cons_self) kind
        (h.small entry List.mem_cons_self kind) new, if_neg (by omega)]
      obtain ⟨t, ran, holds⟩ := ih (s := ⟨s.extracted.put (entry.name, entry.content),
        s.totalBytes + entry.content.length⟩)
        (h.tail fun name other => Dict.get_put.trans (if_neg other.symm))
        (by rw [Nat.add_assoc]; exact fits)
      refine ⟨t, ran, fun name bytes => ?_⟩
      rw [holds, Dict.get_put, List.exists_mem_cons_iff]
      split
      · next same =>
        cases same
        rw [new]
        simp [kind]
      · next differs => simp [differs]

theorem extract_exceeds (h : Packable s entries) (within : s.totalBytes ≤ maxTotalBytes)
    (exceeds : maxTotalBytes < s.totalBytes + exportedBytes entries) :
    (entries.map BundleEntry.written).foldlM (Extraction.member maxTotalBytes) s =
      .error "bundle exceeds the total size cap".toList := by
  induction entries generalizing s with
  | nil =>
    rw [exportedBytes] at exceeds
    omega
  | cons entry entries ih =>
    rw [List.map_cons, List.foldlM_cons]
    cases kind : entry.isDir with
    | true =>
      rw [exportedBytes, if_pos kind, Nat.zero_add] at exceeds
      rw [member_of_isDir maxTotalBytes s kind]
      exact ih (h.tail fun _ _ => rfl) within exceeds
    | false =>
      have isFile : ¬entry.isDir = true := by simp [kind]
      rw [exportedBytes, if_neg isFile] at exceeds
      rw [member_of_not_isDir (h.allowed entry List.mem_cons_self) kind
        (h.small entry List.mem_cons_self kind) (h.new entry List.mem_cons_self)]
      split
      · rfl
      · exact ih (h.tail fun name other => Dict.get_put.trans (if_neg other.symm))
          (by dsimp only; omega) (by dsimp only; omega)

/-- The cloud returned the files of a directory that are on the list, with their bytes. -/
def ReturnsExports (dir : BundleDir) (members : Dict Text (List UInt8)) : Prop :=
  ∀ name bytes, members.get name = some bytes ↔ ∃ entry ∈ dir.entries,
    entry.isAllowed = true ∧ entry.isDir = false ∧ entry.name = name ∧ entry.content = bytes

theorem eq_pack_of_uploaded {zipfile : Zipfile} {dir : BundleDir} {maxBytes : Nat}
    {archive : List UInt8} (uploads : uploadBundle zipfile dir maxBytes = .uploaded archive) :
    archive = zipfile.pack (dir.included.map BundleEntry.written) ∧ archive.length ≤ maxBytes := by
  simp only [uploadBundle] at uploads
  split at uploads
  · cases uploads
  · split at uploads
    · cases uploads
    · next fits =>
      cases uploads
      exact ⟨rfl, Nat.le_of_not_lt fits⟩

section Bundles

variable {zipfile : Zipfile} {dir : BundleDir} {maxBytes : Nat}

theorem packable_included (small : ∀ entry ∈ dir.entries, entry.isDir = false →
    entry.content.length ≤ maxMemberBytes) : Packable {} dir.included where
  allowed := fun _ mem => (BundleDir.mem_included.mp mem).2
  small := fun _ mem => small _ (BundleDir.mem_included.mp mem).1
  nodup := BundleDir.nodup_included
  new := fun _ _ => Dict.get_empty

theorem validate_pack (faithful : zipfile.Faithful (dir.included.map BundleEntry.written)) :
    validateAndExtractBundle zipfile (zipfile.pack (dir.included.map BundleEntry.written))
        maxBytes =
      Except.map Extraction.extracted
        ((dir.included.map BundleEntry.written).foldlM (Extraction.member maxBytes) {}) := by
  have few : ¬maxZipMembers < (dir.included.map BundleEntry.written).length := by
    rw [List.length_map]
    exact not_lt.mpr BundleDir.length_included
  rw [validateAndExtractBundle, faithful]
  simp only [if_neg few]
  cases (dir.included.map BundleEntry.written).foldlM (Extraction.member maxBytes) {} with
  | error e => rfl
  | ok s => rfl

theorem validate_pack_exceeds (faithful : zipfile.Faithful (dir.included.map BundleEntry.written))
    (small : ∀ entry ∈ dir.entries, entry.isDir = false → entry.content.length ≤ maxMemberBytes)
    (exceeds : maxBytes < exportedBytes dir.included) :
    validateAndExtractBundle zipfile (zipfile.pack (dir.included.map BundleEntry.written))
      maxBytes = .error "bundle exceeds the total size cap".toList := by
  rw [validate_pack faithful, extract_exceeds (packable_included small) (Nat.zero_le _)
    (by simpa using exceeds)]
  rfl

theorem validate_pack_fits (faithful : zipfile.Faithful (dir.included.map BundleEntry.written))
    (small : ∀ entry ∈ dir.entries, entry.isDir = false → entry.content.length ≤ maxMemberBytes)
    (fits : exportedBytes dir.included ≤ maxBytes) :
    ∃ members, validateAndExtractBundle zipfile
        (zipfile.pack (dir.included.map BundleEntry.written)) maxBytes = .ok members ∧
      ReturnsExports dir members := by
  obtain ⟨t, ran, holds⟩ := extract_fits (packable_included small) (by simpa using fits)
  rw [validate_pack faithful, ran]
  refine ⟨t.extracted, rfl, fun name bytes => ?_⟩
  rw [holds]
  simp [BundleDir.mem_included, and_assoc]

end Bundles

/-- What the worker uploads the cloud takes exactly when the exports together fit the size
cap on the archive. -/
theorem cloud_takes_iff (zipfile : Zipfile) (dir : BundleDir) (maxBytes : Nat)
    (archive : List UInt8) (uploads : uploadBundle zipfile dir maxBytes = .uploaded archive)
    (faithful : zipfile.Faithful (dir.included.map BundleEntry.written))
    (small : ∀ entry ∈ dir.entries, entry.isDir = false → entry.content.length ≤ maxMemberBytes) :
    (∃ members, validateAndExtractBundle zipfile archive maxBytes = .ok members ∧
        ReturnsExports dir members) ↔
      exportedBytes dir.included ≤ maxBytes := by
  obtain ⟨rfl, -⟩ := eq_pack_of_uploaded uploads
  constructor
  · rintro ⟨members, taken, -⟩
    by_contra exceeds
    rw [validate_pack_exceeds faithful small (not_le.mp exceeds)] at taken
    cases taken
  · exact validate_pack_fits faithful small

section Sample

/-- An export of 300 equal bytes. -/
def sampleExport : BundleEntry where
  name := "internal_all.csv".toList
  mode := 0o100644
  content := List.replicate 300 97
  followed := by decide

def sampleBundle : BundleDir where
  entries := [sampleExport]
  names_nodup := List.nodup_singleton _

/-- The archive of it, of 137 bytes. -/
def sampleArchive : List UInt8 :=
  [80, 75, 3, 4, 20, 0, 0, 0, 8, 0, 170, 177, 110, 87, 9, 25, 151, 137, 7, 0, 0, 0, 44, 1, 0, 0,
    16, 0, 0, 0, 105, 110, 116, 101, 114, 110, 97, 108, 95, 97, 108, 108, 46, 99, 115, 118, 75,
    76, 28, 5, 196, 2, 0, 80, 75, 1, 2, 20, 3, 20, 0, 0, 0, 8, 0, 170, 177, 110, 87, 9, 25, 151,
    137, 7, 0, 0, 0, 44, 1, 0, 0, 16, 0, 0, 0, 0, 0, 0, 0, 0, 0, 0, 0, 164, 129, 0, 0, 0, 0, 105,
    110, 116, 101, 114, 110, 97, 108, 95, 97, 108, 108, 46, 99, 115, 118, 80, 75, 5, 6, 0, 0, 0,
    0, 1, 0, 1, 0, 62, 0, 0, 0, 53, 0, 0, 0, 0, 0]

/-- `zipfile` on it. -/
def sampleZipfile : Zipfile where
  pack infos := if infos = [sampleExport.written] then sampleArchive else []
  unpack data :=
    if data = sampleArchive then .ok [sampleExport.written]
    else .error "File is not a zip file".toList

theorem included_sampleBundle : sampleBundle.included = [sampleExport] := by decide +kernel

theorem faithful_sampleZipfile :
    sampleZipfile.Faithful (sampleBundle.included.map BundleEntry.written) := by
  rw [included_sampleBundle, Zipfile.Faithful]
  decide +kernel

theorem sampleBundle_is_taken :
    ∃ members, validateAndExtractBundle sampleZipfile sampleArchive 300 = .ok members ∧
      ReturnsExports sampleBundle members :=
  (cloud_takes_iff sampleZipfile sampleBundle 300 sampleArchive (by decide +kernel)
    faithful_sampleZipfile (by decide +kernel)).mpr (by decide +kernel)

/-- The worker uploads what the cloud refuses. -/
theorem uploaded_and_refused :
    uploadBundle sampleZipfile sampleBundle 200 = .uploaded sampleArchive ∧
      sampleZipfile.Faithful (sampleBundle.included.map BundleEntry.written) ∧
      (∀ entry ∈ sampleBundle.entries, entry.content.length ≤ maxMemberBytes) ∧
      validateAndExtractBundle sampleZipfile sampleArchive 200 =
        .error "bundle exceeds the total size cap".toList := by
  have uploads : uploadBundle sampleZipfile sampleBundle 200 = .uploaded sampleArchive := by
    decide +kernel
  have small : ∀ entry ∈ sampleBundle.entries, entry.content.length ≤ maxMemberBytes := by
    decide +kernel
  refine ⟨uploads, faithful_sampleZipfile, small, ?_⟩
  rw [(eq_pack_of_uploaded uploads).1]
  exact validate_pack_exceeds faithful_sampleZipfile (fun entry mem _ => small entry mem)
    (by decide +kernel)

end Sample

end Agreement

end Rankuno
