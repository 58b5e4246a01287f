import Rankuno.Python.Utf8Canonical

/-!
# The words of a text that is read in pieces

A scan looks for words at every place of a text that is decoded from bytes. If the bytes come
in pieces, each decoded and scanned alone, then what is found are the words that stand in one
piece: wherever the pieces are cut, the decoder adds no word and loses no other one.
-/

namespace Rankuno.Python

open Utf8

/-- What a scan reads at a place of a text: a word, which begins with a character of ASCII that
it does not have again, and the value of it. -/
structure WordReader (ν : Type) where
  initial : Char
  ascii : initial.toNat < 0x80
  read : Text → Option (Text × ν)
  isPrefix : ∀ {s m v}, read s = some (m, v) → m <+: s
  stable : ∀ {s m v}, read s = some (m, v) → ∀ t, read (m ++ t) = some (m, v)
  once : ∀ {s m v}, read s = some (m, v) → ∃ rest, m = initial :: rest ∧ initial ∉ rest
  unmarked : ∀ {s m v}, read s = some (m, v) → Char.ofNat 0xfffd ∉ m

/-- The bytes from `start` to before `stop` are a word. -/
structure Span (ν : Type) where
  start : Nat
  stop : Nat
  value : ν

namespace WordReader

variable {ν : Type} (reader : WordReader ν)

/-- `finditer`: after a word the scan goes on behind it. -/
def finditer : Nat → Text → List ν
  | _, [] => []
  | skip + 1, _ :: s => finditer skip s
  | 0, c :: s =>
    match reader.read (c :: s) with
    | none => finditer 0 s
    | some (m, v) => v :: finditer (m.length - 1) s

/-- The values of the words that begin anywhere in a text. -/
def words : Text → List ν
  | [] => []
  | c :: s => ((reader.read (c :: s)).map Prod.snd).toList ++ words s

/-- The words of the text of some bytes, of which the first has the number `i`. -/
def spans : Nat → List UInt8 → List (Span ν)
  | _, [] => []
  | i, b :: bs =>
    ((reader.read (decodeReplacing (b :: bs))).map fun word =>
      { start := i, stop := i + (encode word.1).length, value := word.2 }).toList ++
      spans (i + 1) bs

end WordReader

/-- Where each piece ends, if the first begins at `i`. -/
def cutsFrom : Nat → List (List UInt8) → List Nat
  | _, [] => []
  | i, piece :: pieces => (i + piece.length) :: cutsFrom (i + piece.length) pieces

/-- No cut is inside. -/
def Span.uncut {ν : Type} (cuts : List Nat) (span : Span ν) : Bool :=
  cuts.all fun cut => cut ≤ span.start || span.stop ≤ cut

namespace WordReader

variable {ν : Type} {reader : WordReader ν} {s m : Text} {v : ν} {c : Char}

theorem read_cons_of_ne (other : c ≠ reader.initial) : reader.read (c :: s) = none := by
  cases found : reader.read (c :: s) with
  | none => rfl
  | some word =>
    obtain ⟨m, v⟩ := word
    obtain ⟨rest, rfl, -⟩ := reader.once found
    obtain ⟨after, whole⟩ := reader.isPrefix found
    exact absurd (List.cons.inj whole).1.symm other

theorem words_cons_of_ne (other : c ≠ reader.initial) : reader.words (c :: s) = reader.words s := by
  rw [words, read_cons_of_ne other]
  rfl

theorem finditer_eq_words {skip : Nat} (passed : reader.initial ∉ s.take skip) :
    reader.finditer skip s = reader.words s := by
  induction s generalizing skip with
  | nil => cases skip <;> rfl
  | cons c s ih =>
    cases skip with
    | zero =>
      rw [finditer, words]
      cases found : reader.read (c :: s) with
      | none => exact ih List.not_mem_nil
      | some word =>
        obtain ⟨m, v⟩ := word
        obtain ⟨rest, rfl, once⟩ := reader.once found
        obtain ⟨after, whole⟩ := reader.isPrefix found
        have tail : rest ++ after = s := (List.cons.inj whole).2
        refine congrArg (List.cons v) (ih ?_)
        rw [← tail, List.length_cons, Nat.add_sub_cancel, List.take_left]
        exact once
    | succ skip =>
      rw [List.take_succ_cons, List.mem_cons, not_or] at passed
      rw [finditer, words_cons_of_ne (Ne.symm passed.1)]
      exact ih passed.2

theorem read_of_high {b : UInt8} (high : 0x80 ≤ b.toNat) (bs : List UInt8) :
    reader.read (decodeReplacing (b :: bs)) = none := by
  cases found : reader.read (decodeReplacing (b :: bs)) with
  | none => rfl
  | some word =>
    obtain ⟨m, v⟩ := word
    obtain ⟨after, whole, -⟩ := eq_encode_append (reader.isPrefix found) (reader.unmarked found)
    obtain ⟨rest, rfl, -⟩ := reader.once found
    have small := reader.ascii
    rw [encode, List.flatMap_cons, utf8EncodeChar_ascii small] at whole
    obtain ⟨rfl, -⟩ := List.cons.inj whole
    rw [toNat_ofNat (Nat.lt_trans small (by decide))] at high
    omega

theorem spans_of_high {b : UInt8} (high : 0x80 ≤ b.toNat) (i : Nat) (bs : List UInt8) :
    reader.spans i (b :: bs) = reader.spans (i + 1) bs := by
  rw [spans, read_of_high high]
  rfl

/-- A text whose malformed sequences are marked. -/
abbrev marked (decoded : List (Option Char)) : Text :=
  decoded.map fun c => c.getD (Char.ofNat 0xfffd)

theorem words_marked_none (decoded : List (Option Char)) :
    reader.words (marked (none :: decoded)) = reader.words (marked decoded) := by
  refine words_cons_of_ne fun same => ?_
  have small := reader.ascii
  rw [← same] at small
  exact absurd small (by decide)

theorem words_marked_wide {read : List UInt8} {b : UInt8} (filled : read ≠ [])
    (wide : String.utf8EncodeChar c = read ++ [b]) (decoded : List (Option Char)) :
    reader.words (marked (some c :: decoded)) = reader.words (marked decoded) := by
  refine words_cons_of_ne fun same => ?_
  dsimp only [Option.getD_some] at same
  rw [utf8EncodeChar_ascii (same ▸ reader.ascii)] at wide
  cases read with
  | nil => exact filled rfl
  | cons a read => cases read <;> cases wide

theorem words_decodeFrom (bs : List UInt8) :
    (∀ i, reader.words (marked (decodeFrom none bs)) = (reader.spans i bs).map Span.value) ∧
    ∀ (first : Owing) (read : List UInt8), first.Begun read → read ≠ [] → ∀ i,
      reader.words (marked (decodeFrom (some first) bs)) = (reader.spans i bs).map Span.value := by
  induction bs with
  | nil => exact ⟨fun i => rfl, fun first read _ _ i => words_marked_none []⟩
  | cons b bs ih =>
    have between (i : Nat) : reader.words (marked (decodeFrom none (b :: bs))) =
        (reader.spans i (b :: bs)).map Span.value := by
      by_cases ascii : b.toNat < 0x80
      · rw [spans, List.map_append, ← ih.1 (i + 1), decodeReplacing, decodeFrom_ascii ascii,
          marked, List.map_cons, words]
        cases reader.read _ <;> rfl
      · rw [spans_of_high (Nat.le_of_not_lt ascii)]
        cases begins : lead b.toNat with
        | none =>
          rw [decodeFrom, begins]
          exact (words_marked_none _).trans (ih.1 _)
        | some first =>
          obtain ⟨small, -⟩ | wide := lead_cases begins
          · exact absurd small ascii
          · rw [decodeFrom_lead begins wide.owes]
            exact ih.2 first [b] (begun_lead begins wide.owes) (List.cons_ne_nil b []) _
    refine ⟨between, fun first read begun filled i => ?_⟩
    by_cases fits : first.low ≤ b.toNat ∧ b.toNat ≤ first.high
    · rw [spans_of_high (Nat.le_trans begun.bounds.1 fits.1)]
      by_cases owes : first.owed = 1
      · rw [decodeFrom_last fits owes, words_marked_wide filled (begun.last fits owes)]
        exact ih.1 _
      · have more : 1 < first.owed := by
          have owes' := begun.owes
          omega
        rw [decodeFrom_more fits more]
        exact ih.2 _ _ (begun.more fits more)
          (List.append_ne_nil_of_right_ne_nil read (List.cons_ne_nil b [])) _
    · rw [decodeFrom_outside fits, words_marked_none]
      exact between i

theorem words_decodeReplacing (i : Nat) (bs : List UInt8) :
    reader.words (decodeReplacing bs) = (reader.spans i bs).map Span.value :=
  (words_decodeFrom bs).1 i

end WordReader

section Literals

/-- The beginning of a text that has to be one word. -/
def readLiteral (word s : Text) : Option (Text × Unit) :=
  if word.isPrefixOf s then some (word, ()) else none

theorem readLiteral_eq_some {word s m : Text} {v : Unit} :
    readLiteral word s = some (m, v) ↔ word = m ∧ word <+: s := by
  rw [readLiteral]
  split
  · next here =>
    rw [Option.some.injEq, Prod.mk.injEq, ← List.isPrefixOf_iff_prefix]
    simp [here]
  · next away =>
    rw [← List.isPrefixOf_iff_prefix]
    simp [away]

/-- A word of ASCII that has its first character once. -/
structure IsLiteral (initial : Char) (rest : Text) : Prop where
  ascii : initial.toNat < 0x80
  once : initial ∉ rest
  unmarked : Char.ofNat 0xfffd ∉ rest

namespace IsLiteral

variable {initial : Char} {rest s m : Text} {v : Unit}

theorem isPrefix (found : readLiteral (initial :: rest) s = some (m, v)) : m <+: s := by
  obtain ⟨rfl, here⟩ := readLiteral_eq_some.mp found
  exact here

theorem stable (found : readLiteral (initial :: rest) s = some (m, v)) (t : Text) :
    readLiteral (initial :: rest) (m ++ t) = some (m, v) := by
  obtain ⟨rfl, -⟩ := readLiteral_eq_some.mp found
  exact readLiteral_eq_some.mpr ⟨rfl, List.prefix_append _ t⟩

theorem has_once (literal : IsLiteral initial rest)
    (found : readLiteral (initial :: rest) s = some (m, v)) :
    ∃ rest, m = initial :: rest ∧ initial ∉ rest := by
  obtain ⟨rfl, -⟩ := readLiteral_eq_some.mp found
  exact ⟨rest, rfl, literal.once⟩

theorem has_no_mark (literal : IsLiteral initial rest)
    (found : readLiteral (initial :: rest) s = some (m, v)) : Char.ofNat 0xfffd ∉ m := by
  obtain ⟨rfl, -⟩ := readLiteral_eq_some.mp found
  rw [List.mem_cons, not_or]
  refine ⟨fun same => ?_, literal.unmarked⟩
  have small := literal.ascii
  rw [← same] at small
  exact absurd small (by decide)

/-- The scan for one word. -/
def reader (literal : IsLiteral initial rest) : WordReader Unit where
  initial := initial
  ascii := literal.ascii
  read := readLiteral (initial :: rest)
  isPrefix := isPrefix
  stable := stable
  once := has_once literal
  unmarked := has_no_mark literal

theorem words_ne_nil_iff (literal : IsLiteral initial rest) :
    literal.reader.words s ≠ [] ↔ ∃ before after, s = before ++ (initial :: rest) ++ after := by
  induction s with
  | nil => simp [WordReader.words]
  | cons c s ih =>
    rw [WordReader.words, ← List.length_pos_iff, List.length_append, Nat.add_pos_iff_pos_or_pos,
      List.length_pos_iff, List.length_pos_iff, ih]
    constructor
    · rintro (here | ⟨before, after, rfl⟩)
      · cases found : literal.reader.read (c :: s) with
        | none =>
          rw [found] at here
          exact absurd rfl here
        | some word =>
          obtain ⟨-, after, whole⟩ := readLiteral_eq_some.mp found
          exact ⟨[], after, whole.symm⟩
      · exact ⟨c :: before, after, rfl⟩
    · rintro ⟨before, after, whole⟩
      cases before with
      | nil =>
        left
        have found : literal.reader.read (c :: s) = some (initial :: rest, ()) :=
          readLiteral_eq_some.mpr ⟨rfl, after, whole.symm⟩
        rw [found]
        exact List.cons_ne_nil _ _
      | cons d before => exact Or.inr ⟨before, after, (List.cons.inj whole).2⟩

end IsLiteral

end Literals

section Cuts

open WordReader

variable {ν : Type} {reader : WordReader ν} {m : Text} {v : ν} {i : Nat} {bs tail : List UInt8}
  {piece : List UInt8} {pieces : List (List UInt8)} {cuts : List Nat}

variable (tail) in
theorem WordReader.read_append (found : reader.read (decodeReplacing bs) = some (m, v)) :
    reader.read (decodeReplacing (bs ++ tail)) = some (m, v) ∧ (encode m).length ≤ bs.length := by
  obtain ⟨after, rfl, -⟩ := eq_encode_append (reader.isPrefix found) (reader.unmarked found)
  refine ⟨?_, ?_⟩
  · rw [List.append_assoc, decodeReplacing_encode_append]
    exact reader.stable found _
  · rw [List.length_append]
    exact Nat.le_add_right _ _

theorem WordReader.read_of_append (found : reader.read (decodeReplacing (bs ++ tail)) = some (m, v))
    (short : (encode m).length ≤ bs.length) :
    reader.read (decodeReplacing bs) = some (m, v) := by
  obtain ⟨after, whole, -⟩ := eq_encode_append (reader.isPrefix found) (reader.unmarked found)
  have inside : encode m <+: bs :=
    List.prefix_of_prefix_length_le ⟨after, whole.symm⟩ (List.prefix_append bs tail) short
  obtain ⟨rest, rfl⟩ := inside
  rw [decodeReplacing_encode_append]
  exact reader.stable found _

theorem WordReader.le_start {span : Span ν} (own : span ∈ reader.spans i bs) : i ≤ span.start := by
  induction bs generalizing i with
  | nil => cases own
  | cons b bs ih =>
    rw [spans, List.mem_append, Option.mem_toList, Option.map_eq_some_iff] at own
    obtain ⟨word, -, rfl⟩ | later := own
    · exact Nat.le_refl i
    · exact Nat.le_of_succ_le (ih later)

theorem WordReader.exists_of_mem_spans {span : Span ν} (own : span ∈ reader.spans i bs) :
    ∃ before m after, bs = before ++ encode m ++ after ∧
      reader.read (decodeReplacing (encode m ++ after)) = some (m, span.value) := by
  induction bs generalizing i with
  | nil => cases own
  | cons b bs ih =>
    rw [spans, List.mem_append, Option.mem_toList, Option.map_eq_some_iff] at own
    obtain ⟨⟨m, v⟩, found, rfl⟩ | later := own
    · obtain ⟨after, whole, -⟩ :=
        eq_encode_append (reader.isPrefix found) (reader.unmarked found)
      rw [whole] at found
      exact ⟨[], m, after, whole, found⟩
    · obtain ⟨before, m, after, rfl, found⟩ := ih later
      exact ⟨b :: before, m, after, rfl, found⟩

theorem WordReader.spans_ne_nil {before after : List UInt8}
    (found : reader.read (decodeReplacing (encode m ++ after)) = some (m, v)) :
    reader.spans i (before ++ encode m ++ after) ≠ [] := by
  induction before generalizing i with
  | nil =>
    obtain ⟨rest, rfl, -⟩ := reader.once found
    rw [List.nil_append]
    cases whole : encode (reader.initial :: rest) ++ after with
    | nil =>
      rw [encode, List.flatMap_cons, utf8EncodeChar_ascii reader.ascii] at whole
      cases whole
    | cons b bs =>
      rw [whole] at found
      rw [spans, found]
      exact List.cons_ne_nil _ _
  | cons b before ih =>
    rw [List.cons_append, List.cons_append, spans]
    exact List.append_ne_nil_of_right_ne_nil _ ih

theorem le_of_mem_cutsFrom {cut : Nat} (own : cut ∈ cutsFrom i pieces) : i ≤ cut := by
  induction pieces generalizing i with
  | nil => cases own
  | cons piece pieces ih =>
    obtain rfl | later := List.mem_cons.mp own
    · exact Nat.le_add_right _ _
    · exact Nat.le_trans (Nat.le_add_right _ _) (ih later)

theorem WordReader.filter_spans_append (after : ∀ cut ∈ cuts, i + piece.length ≤ cut) :
    (reader.spans i (piece ++ tail)).filter (Span.uncut ((i + piece.length) :: cuts)) =
      reader.spans i piece ++ (reader.spans (i + piece.length) tail).filter (Span.uncut cuts) := by
  induction piece generalizing i with
  | nil =>
    refine List.filter_congr fun span own => ?_
    have start := le_start own
    rw [Span.uncut, List.all_cons, Span.uncut, List.length_nil, Nat.add_zero,
      decide_eq_true start, Bool.true_or, Bool.true_and]
  | cons b piece ih =>
    rw [List.length_cons, ← Nat.add_assoc, Nat.add_right_comm] at after ⊢
    rw [List.cons_append, spans, spans, List.filter_append, ih after, List.append_assoc]
    refine congrArg (· ++ _) ?_
    cases whole : reader.read (decodeReplacing (b :: (piece ++ tail))) with
    | none =>
      cases part : reader.read (decodeReplacing (b :: piece)) with
      | none => rfl
      | some word =>
        have more := (read_append tail part).1
        rw [List.cons_append, whole] at more
        cases more
    | some word =>
      obtain ⟨m, v⟩ := word
      by_cases short : (encode m).length ≤ (b :: piece).length
      · rw [read_of_append whole short]
        rw [Option.map_some, Option.toList_some, List.filter_cons, if_pos]
        · rfl
        · rw [List.length_cons] at short
          refine List.all_eq_true.mpr fun cut own => ?_
          rw [Bool.or_eq_true, decide_eq_true_eq, decide_eq_true_eq]
          right
          dsimp only
          obtain rfl | later := List.mem_cons.mp own
          · omega
          · have low := after cut later
            omega
      · cases part : reader.read (decodeReplacing (b :: piece)) with
        | none =>
          rw [Option.map_some, Option.toList_some, List.filter_cons, if_neg]
          · rfl
          · rw [List.length_cons] at short
            rw [Span.uncut, List.all_cons, Bool.and_eq_true, Bool.or_eq_true,
              decide_eq_true_eq, decide_eq_true_eq]
            dsimp only
            omega
        | some word =>
          obtain ⟨more, fits⟩ := read_append tail part
          rw [List.cons_append, whole] at more
          cases more
          exact absurd fits short

theorem WordReader.words_pieces (reader : WordReader ν) (i : Nat) (pieces : List (List UInt8)) :
    pieces.flatMap (fun piece => reader.words (decodeReplacing piece)) =
      ((reader.spans i pieces.flatten).filter (Span.uncut (cutsFrom i pieces))).map Span.value := by
  induction pieces generalizing i with
  | nil => rfl
  | cons piece pieces ih =>
    rw [List.flatMap_cons, List.flatten_cons, cutsFrom,
      filter_spans_append fun cut => le_of_mem_cutsFrom, List.map_append, ← ih,
      words_decodeReplacing i]

end Cuts

end Rankuno.Python
