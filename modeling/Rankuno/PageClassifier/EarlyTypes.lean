import Rankuno.PageClassifier.Signals

/-!
# Types read at fetch time

`extract_schema_types` keeps the recognised types of a page when it is fetched, so that Signal 4
can run once the body is gone. Both paths read the same blocks. They differ in what they make of
one that is nested deeper than the stack: the early path skips it, the late one raises.
-/

namespace Rankuno.PageClassifier

open Python

/-- `MAX_SCHEMA_TYPES`. -/
def maxSchemaTypes : Nat := 8

section Paths

variable (unicode : UnicodeData) (reader : BlockReader)

/-- Signal 4 recognises the type. -/
def isRecognised (declared : Text) : Bool := (recognised unicode declared).isSome

/-- `tuple(_iter_schema_types(...))` of a block: one that raises is skipped as a whole. -/
def wholeTypes (types : List (Option Text)) : List Text :=
  if none ∈ types then [] else types.reduceOption

/-- The loop over the declared types, with those that are kept already. -/
def keepTypes (kept : List Text) : List Text → List Text
  | [] => kept
  | name :: rest =>
    if isRecognised unicode name ∧ kept.all fun other => other ≠ name then
      if kept.length + 1 = maxSchemaTypes then kept ++ [name]
      else keepTypes (kept ++ [name]) rest
    else keepTypes kept rest

/-- The types of each block of a page, as far as they can be walked. -/
def blockTypes (html : Text) : List (List (Option Text)) :=
  (reader.blocks html).map fun block => (reader.loads block).schemaTypes reader.stack

/-- `extract_schema_types`. -/
def extractSchemaTypes (html : Text) : List Text :=
  keepTypes unicode [] ((blockTypes reader html).flatMap wholeTypes)

/-- The opinion of `parse_jsonld_signal`. -/
def jsonldOpinion (evidence : PageEvidence) : Except Raised (Option Opinion) :=
  firstRecognised unicode (typesOf reader evidence)

/-- `parse_jsonld_signal`. -/
def parseJsonldSignal (evidence : PageEvidence) : Except Raised (Option SignalScore) :=
  runParser evidence (jsonldOpinion unicode reader)

end Paths

def PageEvidence.withBody (evidence : PageEvidence) (html : Text) : PageEvidence :=
  { evidence with html := some html, jsonldTypes := [] }

/-- Evidence without the document, and the types that were read from it. -/
def PageEvidence.withTypes (evidence : PageEvidence) (types : List Text) : PageEvidence :=
  { evidence with html := none, jsonldTypes := types }

/-- Signal 4 says the same of a document as of the types read from it, and does not raise. -/
structure ReadsAlike (unicode : UnicodeData) (reader : BlockReader) (evidence : PageEvidence)
    (html : Text) : Prop where
  returns : ∃ score, parseJsonldSignal unicode reader (evidence.withBody html) = .ok score
  same : parseJsonldSignal unicode reader
      (evidence.withTypes (extractSchemaTypes unicode reader html)) =
    parseJsonldSignal unicode reader (evidence.withBody html)

section Answers

variable (unicode : UnicodeData)

/-- A walk ends at a type that is recognised, and where the stack does. -/
def endsWalk (type : Option Text) : Bool := type.all (isRecognised unicode)

/-- The signal of a type. -/
def typeOpinion (declared : Text) : Option Opinion :=
  (recognised unicode declared).map fun known =>
    ⟨.schemaJsonld, known.1, known.2, 80 / 100, "schema.org @type '".toList ++ declared ++ ['\'']⟩

/-- What a walk that ends at a type answers. -/
def answerAt : Option (Option Text) → Except Raised (Option Opinion)
  | none => .ok none
  | some none => .error .recursion
  | some (some declared) => .ok (typeOpinion unicode declared)

/-- The first block that overflows or declares a recognised type does not overflow, or what it
declares first is also the first type the blocks after it declare that do not. -/
def FirstIsWhole : List (List (Option Text)) → Prop
  | [] => True
  | types :: rest =>
    match types.find? (endsWalk unicode) with
    | none => FirstIsWhole rest
    | some none => False
    | some (some declared) =>
      none ∈ types → (rest.flatMap wholeTypes).find? (isRecognised unicode) = some declared

variable {unicode}

theorem firstRecognised_eq (types : List (Option Text)) :
    firstRecognised unicode types = answerAt unicode (types.find? (endsWalk unicode)) := by
  induction types with
  | nil => rfl
  | cons type types ih =>
    cases type with
    | none => rfl
    | some declared =>
      rw [firstRecognised, List.find?_cons]
      cases known : recognised unicode declared with
      | none =>
        have goesOn : endsWalk unicode (some declared) = false := by
          simp [endsWalk, isRecognised, known]
        rw [goesOn]
        exact ih
      | some answer =>
        have ends : endsWalk unicode (some declared) = true := by
          simp [endsWalk, isRecognised, known]
        rw [ends]
        simp [answerAt, typeOpinion, known]

theorem find?_map_some (names : List Text) : (names.map some).find? (endsWalk unicode) =
    (names.find? (isRecognised unicode)).map some := by
  rw [List.find?_map]
  rfl

theorem find?_keepTypes {kept : List Text} (known : ∀ name ∈ kept, isRecognised unicode name)
    (names : List Text) : (keepTypes unicode kept names).find? (isRecognised unicode) =
      (kept ++ names).find? (isRecognised unicode) := by
  induction names generalizing kept with
  | nil => rw [keepTypes, List.append_nil]
  | cons name rest ih =>
    have grown (new : isRecognised unicode name) :
        ∀ other ∈ kept ++ [name], isRecognised unicode other := by
      intro other mem
      obtain mem | mem := List.mem_append.mp mem
      · exact known other mem
      · rwa [List.mem_singleton.mp mem]
    rw [keepTypes]
    split
    · next new =>
      have split : kept ++ name :: rest = kept ++ [name] ++ rest := by simp
      split
      · rw [split, @List.find?_append _ _ (kept ++ [name]) rest]
        exact (Option.or_of_isSome (List.find?_isSome.mpr
          ⟨name, List.mem_append_right _ (List.mem_singleton_self name), new.1⟩)).symm
      · rw [ih (grown new.1), split]
    · next old =>
      rw [ih known, List.find?_append, List.find?_append, List.find?_cons]
      cases new : isRecognised unicode name with
      | false => rfl
      | true =>
        have mem : name ∈ kept := by
          by_contra out
          exact old ⟨new, List.all_eq_true.mpr fun other mem =>
            decide_eq_true fun same => out (same ▸ mem)⟩
        obtain ⟨first, found⟩ := Option.isSome_iff_exists.mp (List.find?_isSome.mpr ⟨name, mem, new⟩)
        rw [found]
        rfl

theorem find?_wholeTypes {types : List (Option Text)} (whole : none ∉ types) :
    ((wholeTypes types).find? (isRecognised unicode)).map some =
      types.find? (endsWalk unicode) := by
  rw [wholeTypes, if_neg whole, ← find?_map_some]
  congr 1
  induction types with
  | nil => rfl
  | cons type types ih =>
    cases type with
    | none => exact absurd List.mem_cons_self whole
    | some name =>
      have rest := ih fun mem => whole (List.mem_cons_of_mem _ mem)
      exact congrArg (some name :: ·) rest

theorem firstIsWhole_iff (blocks : List (List (Option Text))) : FirstIsWhole unicode blocks ↔
    blocks.flatten.find? (endsWalk unicode) =
      ((blocks.flatMap wholeTypes).find? (isRecognised unicode)).map some := by
  induction blocks with
  | nil => exact iff_of_true trivial rfl
  | cons types rest ih =>
    rw [FirstIsWhole, List.flatten_cons, List.flatMap_cons, List.find?_append, List.find?_append]
    cases ended : types.find? (endsWalk unicode) with
    | none =>
      have whole : none ∉ types := fun mem =>
        absurd rfl (List.find?_eq_none.mp ended none mem)
      have quiet := (find?_wholeTypes whole).trans ended
      rw [Option.map_eq_none_iff.mp quiet]
      exact ih
    | some ending =>
      cases ending with
      | none =>
        refine iff_of_false id fun same => ?_
        obtain ⟨name, -, same⟩ := Option.map_eq_some_iff.mp same.symm
        cases same
      | some declared =>
        by_cases deep : none ∈ types
        · rw [wholeTypes, if_pos deep]
          simp only [deep, true_implies, List.find?_nil, Option.none_or, Option.some_or]
          exact eq_comm.trans (Option.map_injective (Option.some_injective _)).eq_iff.symm
        · refine iff_of_true (fun mem => absurd mem deep) ?_
          have same := (@find?_wholeTypes unicode types deep).trans ended
          obtain ⟨name, found, named⟩ := Option.map_eq_some_iff.mp same
          rw [found, ← named]
          rfl

end Answers

section Agreement

variable {unicode : UnicodeData} {reader : BlockReader} {evidence : PageEvidence} {html : Text}

theorem build_notes {opinion : Opinion} {signal : SignalScore}
    (made : SignalScore.build opinion = .ok signal) : signal.notes = opinion.notes := by
  rw [SignalScore.build] at made
  split at made
  · split at made
    · rw [← Except.ok.inj made]
    · cases made
  · cases made

theorem runParser_congr {other : PageEvidence}
    {parser : PageEvidence → Except Raised (Option Opinion)}
    (same : parser evidence = parser other) :
    runParser evidence parser = runParser other parser := by
  rw [runParser, runParser, same]

theorem runParser_answerAt {parser : PageEvidence → Except Raised (Option Opinion)}
    {ending : Option Text} (reached : parser evidence = answerAt unicode (ending.map some))
    (known : ∀ declared ∈ ending, isRecognised unicode declared) :
    ∃ score, runParser evidence parser = .ok score ∧
      score.map SignalScore.notes = ending.map fun declared =>
        "schema.org @type '".toList ++ declared ++ ['\''] := by
  cases ending with
  | none => exact ⟨none, by rw [runParser, reached]; rfl, rfl⟩
  | some declared =>
    obtain ⟨answer, map⟩ := Option.isSome_iff_exists.mp (known declared rfl)
    have opinion : typeOpinion unicode declared = some ⟨.schemaJsonld, answer.1, answer.2, 80 / 100,
        "schema.org @type '".toList ++ declared ++ ['\'']⟩ := by
      rw [typeOpinion, map]
      rfl
    have walk : firstRecognised unicode [some declared] = .ok (typeOpinion unicode declared) := by
      simp [firstRecognised, typeOpinion, map]
    rw [opinion] at walk
    have fits := firstRecognised_noted walk
    obtain ⟨signal, made⟩ := (exists_build fits.1).mpr fits.2
    rw [Option.map_some, answerAt, opinion] at reached
    refine ⟨some signal, ?_, congrArg some (build_notes made)⟩
    rw [runParser, reached]
    exact congrArg (Except.map some) made

/-- The two paths agree on a document exactly when its first block that overflows or declares a
recognised type does not overflow, or overflows where that makes no difference. -/
theorem readsAlike_iff (unicode : UnicodeData) {reader : BlockReader}
    (silent : reader.blocks [] = []) (evidence : PageEvidence) (html : Text) :
    ReadsAlike unicode reader evidence html ↔ FirstIsWhole unicode (blockTypes reader html) := by
  have late : jsonldOpinion unicode reader (evidence.withBody html) =
      answerAt unicode ((blockTypes reader html).flatten.find? (endsWalk unicode)) := by
    rw [jsonldOpinion, firstRecognised_eq]
    by_cases empty : html = []
    · subst empty
      rw [blockTypes, silent]
      rfl
    · have body : typesOf reader (evidence.withBody html) = iterDeclaredTypes reader html := by
        rw [typesOf, PageEvidence.withBody, Option.filter, if_pos (decide_eq_true empty)]
      rw [body, iterDeclaredTypes, blockTypes, List.flatMap_def]
  have early : jsonldOpinion unicode reader
        (evidence.withTypes (extractSchemaTypes unicode reader html)) =
      answerAt unicode ((((blockTypes reader html).flatMap wholeTypes).find?
        (isRecognised unicode)).map some) := by
    rw [jsonldOpinion, firstRecognised_eq, typesOf, PageEvidence.withTypes]
    dsimp only [Option.filter]
    rw [find?_map_some, extractSchemaTypes,
      find?_keepTypes (fun name mem => absurd mem (List.not_mem_nil)), List.nil_append]
  rw [firstIsWhole_iff]
  constructor
  · rintro ⟨⟨score, returned⟩, same⟩
    obtain ⟨ending, ended⟩ : ∃ ending : Option Text,
        (blockTypes reader html).flatten.find? (endsWalk unicode) = ending.map some := by
      cases ended : (blockTypes reader html).flatten.find? (endsWalk unicode) with
      | none => exact ⟨none, rfl⟩
      | some ending =>
        cases ending with
        | none =>
          rw [ended] at late
          rw [parseJsonldSignal, runParser, late] at returned
          cases returned
        | some declared => exact ⟨some declared, rfl⟩
    rw [ended] at late ⊢
    obtain ⟨_, keeps, kept⟩ := runParser_answerAt early fun declared found => List.find?_some found
    obtain ⟨_, makes, made⟩ := runParser_answerAt late fun declared named => by
      obtain rfl := named
      exact List.find?_some (p := endsWalk unicode) ended
    obtain rfl := Except.ok.inj ((keeps.symm.trans same).trans makes)
    have apart : Function.Injective fun declared : Text =>
        "schema.org @type '".toList ++ declared ++ ['\''] := fun a b alike =>
      List.append_cancel_left (List.append_cancel_right alike)
    exact congrArg (Option.map some) (Option.map_injective apart (made.symm.trans kept))
  · intro whole
    rw [whole] at late
    obtain ⟨score, returned, -⟩ := runParser_answerAt late
      fun declared found => List.find?_some found
    exact ⟨⟨score, returned⟩, runParser_congr (early.trans late.symm)⟩

end Agreement

section Sample

/-- A document is one block, and what it decodes to is given. -/
def oneBlock (loaded : Loaded) : BlockReader :=
  ⟨fun html => if html = [] then [] else [html], fun _ => loaded, 1000⟩

def typedPage : PageEvidence where
  url := "https://a.io/".toList
  normalizedPath := ['/']
  url_ne := by decide
  normalizedPath_ne := by decide

theorem readsAlike_product : ReadsAlike .ascii
    (oneBlock (.value (.object [(atType, .string "Product".toList)]))) typedPage "<p>".toList :=
  (readsAlike_iff .ascii rfl typedPage _).mpr ((firstIsWhole_iff _).mpr (by decide +kernel))

/-- A block that `json.loads` cannot descend into. -/
theorem not_readsAlike_deep : ¬ ReadsAlike .ascii (oneBlock .tooDeep) typedPage "<p>".toList := by
  rintro ⟨⟨score, returned⟩, -⟩
  cases returned

end Sample

end Rankuno.PageClassifier
