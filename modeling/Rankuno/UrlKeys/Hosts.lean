import Rankuno.Python.Partition
import Rankuno.Python.Urllib

/-!
# Which host, and whose

`safe_split`, `site_host` and `registrable_domain` of the URL helpers that the
crawler and the desktop worker share.
-/

namespace Rankuno.UrlKeys

open Python Python.Text Python.Urllib

scoped instance lawfulBEqText : LawfulBEq Text := inferInstanceAs (LawfulBEq (List Char))

/-- The Unicode database as far as the helpers look at it. -/
structure HostData extends UnicodeData where
  /-- `str.isdigit` of one character. -/
  isDigit : Char → Bool

/-- `safe_split`. -/
def safeSplit (unicode : UnicodeData) (url : Text) : Option SplitResult :=
  (urlsplit unicode (strip isSpace url)).toOption

def dropLeading (lead s : Text) : Text := if lead.isPrefixOf s then s.drop lead.length else s

def www : Text := "www.".toList

/-- `site_host` of a network location in lower case. -/
def hostOfLowered (netloc : Text) : Text :=
  let host := (rpartition '@' netloc).2
  let host :=
    if host.head? = some '[' then
      match partition ']' host with
      | (literal, some _) => literal ++ [']']
      | (_, none) => host
    else (partition ':' host).1
  dropLeading www host

/-- `site_host`. -/
def siteHost (unicode : UnicodeData) (netloc : Text) : Text :=
  hostOfLowered (unicode.lower netloc)

/-- `_SECOND_LEVEL`. -/
def secondLevel : List Text :=
  ["co", "com", "org", "net", "ac", "gov", "edu", "gob", "or", "ne"].map String.toList

/-- `registrable_domain`. -/
def registrableDomain (unicode : HostData) (host : Text) : Text :=
  let lowered := strip (fun c => c = '.') (unicode.lower host)
  if lowered = [] ∨ lowered.head? = some '[' then lowered
  else
    let labels := split '.' lowered
    if labels.length < 3 then lowered
    else if labels.all fun label => label ≠ [] && label.all unicode.isDigit then lowered
    else if (labels.drop (labels.length - 2)).head?.any fun label => label ∈ secondLevel then
      join ['.'] (labels.drop (labels.length - 3))
    else join ['.'] (labels.drop (labels.length - 2))

theorem hostOfLowered_www {netloc : Text} (plain : netloc.head? ≠ some '[')
    (bare : www.isPrefixOf netloc = false) :
    hostOfLowered (www ++ netloc) = hostOfLowered netloc := by
  by_cases credentials : '@' ∈ netloc
  · simp only [hostOfLowered, rpartition_append_snd credentials]
  · have apart : '@' ∉ www ++ netloc := by
      rw [List.mem_append, not_or]
      exact ⟨by decide, credentials⟩
    have first : (www ++ netloc).head? ≠ some '[' := by rintro ⟨⟩
    have named : (partition ':' (www ++ netloc)).1 = www ++ (partition ':' netloc).1 :=
      partition_append_fst (by decide) netloc
    have prefixed : www.isPrefixOf (www ++ (partition ':' netloc).1) = true :=
      List.isPrefixOf_iff_prefix.mpr (List.prefix_append _ _)
    have unprefixed : www.isPrefixOf (partition ':' netloc).1 = false := by
      rw [Bool.eq_false_iff, ne_eq, List.isPrefixOf_iff_prefix] at bare ⊢
      exact fun longer => bare (longer.trans partition_fst_prefix)
    simp only [hostOfLowered, rpartition_of_notMem apart, rpartition_of_notMem credentials,
      if_neg first, if_neg plain, named, dropLeading, prefixed, unprefixed, if_true,
      List.drop_left]
    rfl

end Rankuno.UrlKeys
