import Mathlib.Algebra.Group.Nat.Defs
import Rankuno.Python.Lower
import Rankuno.UrlSafety.Policy

/-!
# Which addresses the filter lets through

`describe_ip_block` against the IANA registries of special-purpose addresses. Networks are
aligned blocks, so two of them are apart or one covers the other, and a question about all
addresses comes down to one about the bases of finitely many blocks.
-/

namespace Rankuno

namespace Python.IPNetwork

variable {w : Nat} {net big small : IPNetwork w} {ip : BitVec w}

theorem contains_base (shorter : big.prefixLen ≤ small.prefixLen) (fits : small.prefixLen ≤ w)
    (inSmall : small.contains ip = true) (inBig : big.contains ip = true) :
    big.contains small.base = true := by
  rw [contains, decide_eq_true_eq] at *
  have parts : w - big.prefixLen =
      (w - small.prefixLen) + (small.prefixLen - big.prefixLen) := by omega
  rw [parts, BitVec.shiftRight_add] at inBig ⊢
  rw [← inSmall, inBig]

theorem contains_of_base (shorter : big.prefixLen ≤ small.prefixLen) (fits : small.prefixLen ≤ w)
    (inSmall : small.contains ip = true) (covered : big.contains small.base = true) :
    big.contains ip = true := by
  rw [contains, decide_eq_true_eq] at *
  have parts : w - big.prefixLen =
      (w - small.prefixLen) + (small.prefixLen - big.prefixLen) := by omega
  rw [parts, BitVec.shiftRight_add] at covered ⊢
  rw [inSmall, covered]

/-- Whether one block covers another. -/
def Covers (big small : IPNetwork w) : Prop :=
  big.prefixLen ≤ small.prefixLen ∧ small.prefixLen ≤ w ∧ big.contains small.base = true

instance (big small : IPNetwork w) : Decidable (Covers big small) :=
  inferInstanceAs (Decidable (_ ∧ _ ∧ _))

theorem Covers.contains (h : Covers big small) (inSmall : small.contains ip = true) :
    big.contains ip = true :=
  contains_of_base h.1 h.2.1 inSmall h.2.2

theorem not_contains_of_apart (bigFits : big.prefixLen ≤ w) (smallFits : small.prefixLen ≤ w)
    (apart : ¬Covers big small ∧ ¬Covers small big) (inSmall : small.contains ip = true) :
    big.contains ip = false := by
  refine Bool.eq_false_iff.mpr fun inBig => ?_
  rcases Nat.le_total big.prefixLen small.prefixLen with shorter | shorter
  · exact apart.1 ⟨shorter, smallFits, contains_base shorter smallFits inSmall inBig⟩
  · exact apart.2 ⟨shorter, bigFits, contains_base shorter bigFits inBig inSmall⟩

end Python.IPNetwork

open Python Python.Text

/-- An entry of a registry of special-purpose addresses. -/
structure SpecialPurpose (w : Nat) where
  net : IPNetwork w
  globallyReachable : Bool
  deriving DecidableEq

/-- The IANA IPv4 registry, where it says whether a block is globally reachable. -/
def ianaIPv4SpecialRegistry : List (SpecialPurpose 32) :=
  [⟨.v4 0 0 0 0 8, false⟩, ⟨.v4 0 0 0 0 32, false⟩, ⟨.v4 10 0 0 0 8, false⟩,
    ⟨.v4 100 64 0 0 10, false⟩, ⟨.v4 127 0 0 0 8, false⟩, ⟨.v4 169 254 0 0 16, false⟩,
    ⟨.v4 172 16 0 0 12, false⟩, ⟨.v4 192 0 0 0 24, false⟩, ⟨.v4 192 0 0 0 29, false⟩,
    ⟨.v4 192 0 0 8 32, false⟩, ⟨.v4 192 0 0 9 32, true⟩, ⟨.v4 192 0 0 10 32, true⟩,
    ⟨.v4 192 0 0 170 32, false⟩, ⟨.v4 192 0 0 171 32, false⟩, ⟨.v4 192 0 2 0 24, false⟩,
    ⟨.v4 192 31 196 0 24, true⟩, ⟨.v4 192 52 193 0 24, true⟩, ⟨.v4 192 88 99 2 32, false⟩,
    ⟨.v4 192 168 0 0 16, false⟩, ⟨.v4 192 175 48 0 24, true⟩, ⟨.v4 198 18 0 0 15, false⟩,
    ⟨.v4 198 51 100 0 24, false⟩, ⟨.v4 203 0 113 0 24, false⟩, ⟨.v4 240 0 0 0 4, false⟩,
    ⟨.v4 255 255 255 255 32, false⟩]

/-- The IANA IPv6 registry. -/
def ianaIPv6SpecialRegistry : List (SpecialPurpose 128) :=
  [⟨.v6 0 0 0 0 1 128, false⟩, ⟨.v6 0 0 0 0 0 128, false⟩, ⟨.v6 0 0 0 0 0xffff00000000 96, false⟩,
    ⟨.v6 0x64 0xff9b 0 0 0 96, true⟩, ⟨.v6 0x64 0xff9b 1 0 0 48, false⟩,
    ⟨.v6 0x100 0 0 0 0 64, false⟩, ⟨.v6 0x100 0 0 1 0 64, false⟩, ⟨.v6 0x2001 0 0 0 0 23, false⟩,
    ⟨.v6 0x2001 1 0 0 1 128, true⟩, ⟨.v6 0x2001 1 0 0 2 128, true⟩,
    ⟨.v6 0x2001 1 0 0 3 128, true⟩, ⟨.v6 0x2001 2 0 0 0 48, false⟩, ⟨.v6 0x2001 3 0 0 0 32, true⟩,
    ⟨.v6 0x2001 4 0x112 0 0 48, true⟩, ⟨.v6 0x2001 0x20 0 0 0 28, true⟩,
    ⟨.v6 0x2001 0x30 0 0 0 28, true⟩, ⟨.v6 0x2001 0xdb8 0 0 0 32, false⟩,
    ⟨.v6 0x2620 0x4f 0x8000 0 0 48, true⟩, ⟨.v6 0x3fff 0 0 0 0 20, false⟩,
    ⟨.v6 0x5f00 0 0 0 0 16, false⟩, ⟨.v6 0xfc00 0 0 0 0 7, false⟩, ⟨.v6 0xfe80 0 0 0 0 10, false⟩]

/-- No block that is not globally reachable covers the address, but for a block in it that
is. -/
def GloballyReachable {w : Nat} (registry : List (SpecialPurpose w)) (ip : BitVec w) : Prop :=
  ∀ entry ∈ registry, entry.globallyReachable = false → entry.net.contains ip = true →
    ∃ inner ∈ registry, inner.globallyReachable = true ∧ inner.net.contains ip = true ∧
      entry.net.prefixLen < inner.net.prefixLen

section Registry

variable {w : Nat}

/-- A registry read off lists such as Python's: each block that is not reachable lies in a
refused one, and the exceptions are reachable blocks with none of those inside them. -/
structure Tallies (registry : List (SpecialPurpose w)) (refused exceptions : List (IPNetwork w)) :
    Prop where
  fits : ∀ entry ∈ registry, entry.net.prefixLen ≤ w
  refuses : ∀ entry ∈ registry, entry.globallyReachable = false →
    ∃ net ∈ refused, net.Covers entry.net
  reachable : ∀ net ∈ exceptions, ∃ inner ∈ registry, inner.globallyReachable = true ∧
    inner.net = net
  outermost : ∀ net ∈ exceptions, ∀ entry ∈ registry, entry.globallyReachable = false →
    ¬net.Covers entry.net

variable {registry : List (SpecialPurpose w)} {refused exceptions : List (IPNetwork w)}
  {ip : BitVec w}

theorem Tallies.globallyReachable (tallies : Tallies registry refused exceptions)
    (passes : (∀ net ∈ refused, net.contains ip = false) ∨
      ∃ net ∈ exceptions, net.contains ip = true) : GloballyReachable registry ip := by
  intro entry listed unreachable inEntry
  rcases passes with passes | ⟨net, excepted, inNet⟩
  · obtain ⟨net, isRefused, covers⟩ := tallies.refuses entry listed unreachable
    have := passes net isRefused
    simp only [covers.contains inEntry, Bool.true_eq_false] at this
  · obtain ⟨inner, known, reachable, rfl⟩ := tallies.reachable net excepted
    refine ⟨inner, known, reachable, inNet, ?_⟩
    rcases Nat.lt_or_ge entry.net.prefixLen inner.net.prefixLen with narrower | wider
    · exact narrower
    · have fits := tallies.fits entry listed
      have covers : inner.net.Covers entry.net :=
        ⟨wider, fits, IPNetwork.contains_base wider fits inEntry inNet⟩
      exact absurd covers (tallies.outermost _ excepted entry listed unreachable)

theorem not_globallyReachable {small : IPNetwork w}
    (listed : (⟨small, false⟩ : SpecialPurpose w) ∈ registry) (fits : small.prefixLen ≤ w)
    (apart : ∀ inner ∈ registry, inner.globallyReachable = true →
      inner.net.prefixLen ≤ w ∧ ¬inner.net.Covers small ∧ ¬small.Covers inner.net)
    (inSmall : small.contains ip = true) : ¬GloballyReachable registry ip := fun reachable => by
  obtain ⟨inner, known, isReachable, inInner, -⟩ := reachable _ listed rfl inSmall
  obtain ⟨innerFits, apart⟩ := apart inner known isReachable
  have := IPNetwork.not_contains_of_apart innerFits fits apart inSmall
  exact absurd inInner (Bool.eq_false_iff.mp this)

end Registry

/-- The block that IANA hands out global unicast addresses from. -/
def globalUnicast : IPNetwork 128 := .v6 0x2000 0 0 0 0 3

/-- A globally reachable unicast address. -/
def IsPublic : IPAddress → Prop
  | .v4 ip => (IPNetwork.v4 224 0 0 0 4).contains ip = false ∧
      GloballyReachable ianaIPv4SpecialRegistry ip
  | .v6 ip _ => globalUnicast.contains ip = true ∧ GloballyReachable ianaIPv6SpecialRegistry ip

/-- The address that an IPv4-mapped, 6to4 or Teredo address stands for. An IPv4 address
wraps no other. -/
def innermost : IPAddress → IPAddress
  | .v4 ip => .v4 ip
  | .v6 ip scopeId =>
    match unwrapped ip with
    | some inner => .v4 inner
    | none => .v6 ip scopeId

/-- The shared address space of RFC 6598. -/
def sharedSpace : IPNetwork 32 := .v4 100 64 0 0 10

/-- The relay of RFC 6751, which `ipaddress` does not list as private. -/
def relayAnycast : IPNetwork 32 := .v4 192 88 99 2 32

/-- The site-local addresses that RFC 3879 deprecates. -/
def siteLocal : IPNetwork 128 := .v6 0xfec0 0 0 0 0 10

/-- The addresses that the filter misses. -/
def Missed : IPAddress → Prop
  | .v4 ip => sharedSpace.contains ip = true ∨ relayAnycast.contains ip = true
  | .v6 ip _ => siteLocal.contains ip = true

theorem firstReason_eq_none {checks : List (Bool × String)} :
    firstReason checks = none ↔ ∀ check ∈ checks, check.1 = false := by
  rw [firstReason, Option.map_eq_none_iff, List.find?_eq_none]
  exact forall₂_congr fun _ _ => Iff.of_eq (Bool.not_eq_true _)

section V4

variable {ip : BitVec 32}

theorem blockReasonV4_eq_none : blockReasonV4 ip = none ↔
    IPv4.isUnspecified ip = false ∧ IPv4.isLoopback ip = false ∧ IPv4.isLinkLocal ip = false ∧
      IPv4.isMulticast ip = false ∧ IPv4.isReserved ip = false ∧ IPv4.isPrivate ip = false := by
  simp only [blockReasonV4, firstReason_eq_none, List.forall_mem_cons, List.not_mem_nil,
    false_implies, implies_true, and_true]

theorem v4_tallies : Tallies ianaIPv4SpecialRegistry
    (sharedSpace :: relayAnycast :: IPv4.privateNetworks) IPv4.privateNetworksExceptions where
  fits := by decide
  refuses := by decide
  reachable := by decide
  outermost := by decide

theorem forall_contains_eq_false {w : Nat} {nets : List (IPNetwork w)} {small : IPNetwork w}
    {ip : BitVec w} (fits : small.prefixLen ≤ w)
    (apart : ∀ net ∈ nets, net.prefixLen ≤ w ∧ ¬net.Covers small ∧ ¬small.Covers net)
    (inSmall : small.contains ip = true) : ∀ net ∈ nets, net.contains ip = false := by
  intro net listed
  exact IPNetwork.not_contains_of_apart (apart net listed).1 fits (apart net listed).2 inSmall

theorem isPrivate_eq_false : IPv4.isPrivate ip = false ↔
    (∀ net ∈ IPv4.privateNetworks, net.contains ip = false) ∨
      ∃ net ∈ IPv4.privateNetworksExceptions, net.contains ip = true := by
  rw [IPv4.isPrivate, Bool.and_eq_false_iff, List.any_eq_false, List.all_eq_false]
  simp only [Bool.not_eq_true, Bool.not_eq_true', Bool.not_eq_false]

theorem blockReasonV4_isPublic (passes : blockReasonV4 ip = none)
    (kept : ¬Missed (.v4 ip)) : IsPublic (.v4 ip) := by
  obtain ⟨-, -, -, unicast, -, notPrivate⟩ := blockReasonV4_eq_none.mp passes
  refine ⟨unicast, v4_tallies.globallyReachable ?_⟩
  obtain ⟨notShared, notRelay⟩ := not_or.mp kept
  refine (isPrivate_eq_false.mp notPrivate).imp_left fun outside net listed => ?_
  rcases List.mem_cons.mp listed with rfl | listed
  · exact Bool.eq_false_iff.mpr notShared
  · rcases List.mem_cons.mp listed with rfl | listed
    · exact Bool.eq_false_iff.mpr notRelay
    · exact outside net listed

theorem blockReasonV4_none_of_outside (unicast : IPv4.isMulticast ip = false)
    (outside : ∀ net ∈ IPv4.privateNetworks, net.contains ip = false) :
    blockReasonV4 ip = none := by
  refine blockReasonV4_eq_none.mpr ⟨?_, outside _ (by decide), outside _ (by decide), unicast,
    outside _ (by decide), isPrivate_eq_false.mpr (.inl outside)⟩
  -- The unspecified address lies in the first private block.
  have := outside (.v4 0 0 0 0 8) (by decide)
  refine decide_eq_false fun unspecified => ?_
  rw [unspecified] at this
  exact absurd this (by decide)

theorem blockReasonV4_missed (missed : Missed (.v4 ip)) : blockReasonV4 ip = none := by
  have outside : ∀ net ∈ .v4 224 0 0 0 4 :: IPv4.privateNetworks, net.contains ip = false := by
    rcases missed with shared | relay
    · exact forall_contains_eq_false (by decide) (by decide) shared
    · exact forall_contains_eq_false (by decide) (by decide) relay
  exact blockReasonV4_none_of_outside (outside _ List.mem_cons_self)
    fun net listed => outside net (List.mem_cons_of_mem _ listed)

theorem not_isPublic_of_missedV4 (missed : Missed (.v4 ip)) : ¬IsPublic (.v4 ip) := by
  refine fun isPublic => absurd isPublic.2 ?_
  rcases missed with shared | relay
  · exact not_globallyReachable (by decide) (by decide) (by decide) shared
  · exact not_globallyReachable (by decide) (by decide) (by decide) relay

end V4

section V6

variable {ip : BitVec 128}

theorem blockReasonV6_eq_none : blockReasonV6 ip = none ↔
    IPv6.isUnspecified ip = false ∧ IPv6.isLoopback ip = false ∧ IPv6.isLinkLocal ip = false ∧
      IPv6.isMulticast ip = false ∧ IPv6.isReserved ip = false ∧ IPv6.isPrivate ip = false := by
  simp only [blockReasonV6, firstReason_eq_none, List.forall_mem_cons, List.not_mem_nil,
    false_implies, implies_true, and_true]

theorem v6_tallies : Tallies ianaIPv6SpecialRegistry
    (IPv6.reservedNetworks ++ IPv6.privateNetworks) IPv6.privateNetworksExceptions where
  fits := by decide
  refuses := by decide
  reachable := by decide
  outermost := by decide

theorem contains_eq_leading {net : IPNetwork 128} (short : net.prefixLen ≤ 10) : net.contains ip =
      decide ((ip >>> 118) >>> (10 - net.prefixLen) = net.base >>> (128 - net.prefixLen)) := by
  have parts : 128 - net.prefixLen = 118 + (10 - net.prefixLen) := by omega
  rw [IPNetwork.contains, parts, BitVec.shiftRight_add]

/-- The blocks that, with the global unicast one, leave no address over. -/
def nonGlobalBlocks : List (IPNetwork 128) :=
  [siteLocal, .v6 0xff00 0 0 0 0 8, .v6 0xfc00 0 0 0 0 7, .v6 0xfe80 0 0 0 0 10] ++
    IPv6.reservedNetworks

/-- The values of the first ten bits that fall in a block: how many they are, and
which multiple of that is the first of them. -/
def leadingBlock (net : IPNetwork 128) : Nat × Nat :=
  (2 ^ (10 - net.prefixLen), (net.base >>> (128 - net.prefixLen)).toNat)

theorem leadingBlocks : (globalUnicast :: nonGlobalBlocks).map leadingBlock =
    [(128, 1), (1, 1019), (4, 255), (8, 126), (1, 1018), (4, 0), (4, 1), (8, 1), (16, 1), (32, 1),
      (64, 1), (128, 2), (128, 3), (128, 4), (128, 5), (128, 6), (64, 14), (32, 30), (16, 62),
      (2, 508)] := by
  decide

theorem prefixLen_le_ten : ∀ net ∈ globalUnicast :: nonGlobalBlocks, net.prefixLen ≤ 10 := by
  decide

theorem exists_leadingBlock {leading : Nat} (bound : leading < 1024) :
    ∃ tile ∈ (globalUnicast :: nonGlobalBlocks).map leadingBlock, leading / tile.1 = tile.2 := by
  simp only [leadingBlocks, List.mem_cons, List.not_mem_nil, or_false, exists_eq_or_imp,
    exists_eq_left]
  omega

theorem globalUnicast_or (ip : BitVec 128) :
    ∃ net ∈ globalUnicast :: nonGlobalBlocks, net.contains ip = true := by
  have bound : (ip >>> 118).toNat < 1024 := by
    rw [BitVec.toNat_ushiftRight, Nat.shiftRight_eq_div_pow]
    exact Nat.div_lt_of_lt_mul ip.isLt
  obtain ⟨tile, tiled, agree⟩ := exists_leadingBlock bound
  obtain ⟨net, listed, rfl⟩ := List.mem_map.mp tiled
  refine ⟨net, listed, (contains_eq_leading (prefixLen_le_ten net listed)).trans
    (decide_eq_true (BitVec.eq_of_toNat_eq ?_))⟩
  rw [BitVec.toNat_ushiftRight, Nat.shiftRight_eq_div_pow]
  exact agree

theorem ipv4Mapped_of_unwrapped (bare : unwrapped ip = none) : IPv6.ipv4Mapped ip = none := by
  cases mapped : IPv6.ipv4Mapped ip with
  | none => rfl
  | some inner =>
    rw [unwrapped, mapped] at bare
    cases bare

theorem isPrivateV6_eq_false (bare : unwrapped ip = none) : IPv6.isPrivate ip = false ↔
    (∀ net ∈ IPv6.privateNetworks, net.contains ip = false) ∨
      ∃ net ∈ IPv6.privateNetworksExceptions, net.contains ip = true := by
  rw [IPv6.isPrivate, ipv4Mapped_of_unwrapped bare]
  simp only [Bool.and_eq_false_iff, List.any_eq_false, List.all_eq_false, Bool.not_eq_true,
    Bool.not_eq_true', Bool.not_eq_false]

theorem isReserved_eq_false :
    IPv6.isReserved ip = false ↔ ∀ net ∈ IPv6.reservedNetworks, net.contains ip = false := by
  simp only [IPv6.isReserved, List.any_eq_false, Bool.not_eq_true]

theorem blockReasonV6_isPublic (bare : unwrapped ip = none) (passes : blockReasonV6 ip = none)
    (scopeId : Option Text) (kept : ¬Missed (.v6 ip scopeId)) : IsPublic (.v6 ip scopeId) := by
  obtain ⟨-, -, notLinkLocal, unicast, notReserved, notPrivate⟩ := blockReasonV6_eq_none.mp passes
  have unreserved := isReserved_eq_false.mp notReserved
  have cleared := (isPrivateV6_eq_false bare).mp notPrivate
  refine ⟨?_, v6_tallies.globallyReachable (cleared.imp_left fun outside net listed =>
    (List.mem_append.mp listed).elim (unreserved net) (outside net))⟩
  rcases cleared with outside | ⟨net, excepted, inNet⟩
  · obtain ⟨net, listed, inNet⟩ := globalUnicast_or ip
    rcases List.mem_cons.mp listed with rfl | listed
    · exact inNet
    · have apart : ∀ net ∈ nonGlobalBlocks, net.contains ip = false := by
        simp only [nonGlobalBlocks, List.forall_mem_append, List.forall_mem_cons]
        exact ⟨⟨Bool.eq_false_iff.mpr kept, unicast, outside _ (by decide), notLinkLocal,
          List.forall_mem_nil _⟩, unreserved⟩
      rw [apart net listed] at inNet
      cases inNet
  · have covers : ∀ net ∈ IPv6.privateNetworksExceptions, globalUnicast.Covers net := by
      decide
    exact (covers net excepted).contains inNet

theorem blockReasonV6_missed (bare : unwrapped ip = none) {scopeId : Option Text}
    (missed : Missed (.v6 ip scopeId)) : blockReasonV6 ip = none := by
  have outside : ∀ net ∈ .v6 0xff00 0 0 0 0 8 :: IPv6.privateNetworks ++ IPv6.reservedNetworks,
      net.contains ip = false :=
    forall_contains_eq_false (by decide) (by decide) missed
  refine blockReasonV6_eq_none.mpr ⟨?_, ?_, outside _ (by decide), outside _ (by decide),
    isReserved_eq_false.mpr fun net listed => outside net (List.mem_append_right _ listed),
    (isPrivateV6_eq_false bare).mpr (.inl fun net listed => outside net
      (List.mem_append_left _ (List.mem_cons_of_mem _ listed)))⟩
  · refine decide_eq_false fun unspecified => ?_
    have inSmall : siteLocal.contains 0 = true := unspecified ▸ missed
    exact absurd inSmall (by decide)
  · refine decide_eq_false fun loopback => ?_
    have inSmall : siteLocal.contains 1 = true := loopback ▸ missed
    exact absurd inSmall (by decide)

theorem not_isPublic_of_missedV6 {scopeId : Option Text} (missed : Missed (.v6 ip scopeId)) :
    ¬IsPublic (.v6 ip scopeId) := fun isPublic => by
  have apart : globalUnicast.contains ip = false :=
    IPNetwork.not_contains_of_apart (by decide) (by decide) (by decide) missed
  exact absurd isPublic.1 (Bool.eq_false_iff.mp apart)

end V6

variable {ip : IPAddress}

theorem isPublic_or_missed (passes : blockReason ip = none) :
    IsPublic (innermost ip) ∨ Missed (innermost ip) := by
  by_cases missed : Missed (innermost ip)
  · exact .inr missed
  · refine .inl ?_
    cases ip with
    | v4 ip => exact blockReasonV4_isPublic passes missed
    | v6 ip scopeId =>
      cases inner : unwrapped ip with
      | none =>
        simp only [innermost, blockReason, inner] at missed passes ⊢
        exact blockReasonV6_isPublic inner passes scopeId missed
      | some wrapped =>
        simp only [innermost, blockReason, inner] at missed passes ⊢
        exact blockReasonV4_isPublic passes missed

theorem passes_of_missed (missed : Missed (innermost ip)) :
    blockReason ip = none ∧ ¬IsPublic (innermost ip) := by
  cases ip with
  | v4 ip => exact ⟨blockReasonV4_missed missed, not_isPublic_of_missedV4 missed⟩
  | v6 ip scopeId =>
    cases inner : unwrapped ip with
    | none =>
      simp only [innermost, blockReason, inner] at missed ⊢
      exact ⟨blockReasonV6_missed inner missed, not_isPublic_of_missedV6 missed⟩
    | some wrapped =>
      simp only [innermost, blockReason, inner] at missed ⊢
      exact ⟨blockReasonV4_missed missed, not_isPublic_of_missedV4 missed⟩

/-- `describe_ip_block` passes only an address that is public once unwrapped, if and only if
the address does not unwrap to shared or site-local space or to the relay. -/
theorem describeIpBlock_denies_iff (unicode : UnicodeData) (address : Text) :
    (describeIpBlock unicode address = none →
        ∃ ip, ipAddress unicode address = .ok ip ∧ IsPublic (innermost ip)) ↔
      ¬∃ ip, ipAddress unicode address = .ok ip ∧ Missed (innermost ip) := by
  rw [describeIpBlock]
  cases ipAddress unicode address with
  | error reason =>
    refine iff_of_true (fun passes => ?_) fun ⟨ip, parsed, _⟩ => ?_
    · cases passes
    · cases parsed
  | ok ip =>
    constructor
    · rintro denies ⟨_, parsed, missed⟩
      obtain rfl := Except.ok.inj parsed
      obtain ⟨passes, notPublic⟩ := passes_of_missed missed
      obtain ⟨_, parsed, isPublic⟩ := denies passes
      obtain rfl := Except.ok.inj parsed
      exact notPublic isPublic
    · intro kept passes
      rcases isPublic_or_missed passes with isPublic | missed
      · exact ⟨ip, rfl, isPublic⟩
      · exact absurd ⟨ip, rfl, missed⟩ kept

/-- A carrier's shared address is let through. -/
theorem shared_space_passes : ¬∀ unicode address, describeIpBlock unicode address = none →
      ∃ ip, ipAddress unicode address = .ok ip ∧ IsPublic (innermost ip) := fun denies => by
  obtain ⟨ip, parsed, isPublic⟩ := denies .ascii "100.64.0.1".toList (by decide)
  have parses : IPv4.parse "100.64.0.1".toList = some 0x64400001 := by decide
  have known : ipAddress .ascii "100.64.0.1".toList = .ok (.v4 0x64400001) := by
    rw [ipAddress, parses]
  obtain rfl := Except.ok.inj (known.symm.trans parsed)
  exact not_isPublic_of_missedV4 (.inl (by decide)) isPublic

end Rankuno
