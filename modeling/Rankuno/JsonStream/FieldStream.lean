import Rankuno.JsonStream.Opener

/-!
# Streaming and decoding

On a document that `json.dumps` wrote, the stream gives the field of each element of the
array, whatever chunks the file is read in and wherever it is cut off, exactly as long as
no chunk ends at the point or in the exponent of a number among the elements that has
something to be given behind it (`iterArrayObjectField_iff`). The opener of the array has to
be the first in the text, and to be carried over where a chunk ends in it.
-/

namespace Rankuno.JsonStream

open Python Python.Text

section Place

variable {style : JsonStyle} {arrayKey : Text}

/-- The items of an array or an object, without the brackets. -/
def joined (style : JsonStyle) (level : Nat) : List Text → Text
  | [] => []
  | text :: texts => text ++ style.following level texts

/-- An array in a text: behind its opener stand its elements. -/
def PlacedIn (style : JsonStyle) (arrayKey : Text) (place : ArrayPlace) (text : Text) : Prop :=
  ∃ start body after,
    place.before = start ++ (style.quoted arrayKey ++ (style.keySeparator ++ ['['])) ∧
    style.dumps place.level (.array place.elements) = '[' :: body ∧
    text = place.before ++ (body ++ after)

theorem PlacedIn.within {place : ArrayPlace} {text : Text}
    (h : PlacedIn style arrayKey place text) (first : Text) :
    PlacedIn style arrayKey (place.within first) (first ++ text) := by
  obtain ⟨start, body, after, opener, written, rfl⟩ := h
  refine ⟨first ++ start, body, after, ?_, written, ?_⟩
  · rw [ArrayPlace.within, opener, List.append_assoc]
  · rw [ArrayPlace.within, List.append_assoc]

theorem PlacedIn.append {place : ArrayPlace} {text : Text}
    (h : PlacedIn style arrayKey place text) (last : Text) :
    PlacedIn style arrayKey place (text ++ last) := by
  obtain ⟨start, body, after, opener, written, rfl⟩ := h
  refine ⟨start, body, after ++ last, opener, written, ?_⟩
  simp only [List.append_assoc]

theorem bracketed_of_joined {level : Nat} {opening closing : Char} {texts : List Text}
    (some_texts : texts ≠ []) :
    style.bracketed level opening closing texts = (opening :: style.newlineIndent (level + 1)) ++
        (joined style (level + 1) texts ++ (style.newlineIndent level ++ [closing])) := by
  cases texts with
  | nil => exact absurd rfl some_texts
  | cons text texts =>
    rw [JsonStyle.bracketed, joined]
    simp only [List.append_assoc, List.cons_append]

theorem joined_cons {level : Nat} {text : Text} {texts : List Text} (some_texts : texts ≠ []) :
    joined style level (text :: texts) =
      text ++ (style.itemSeparator ++ style.newlineIndent level) ++ joined style level texts := by
  cases texts with
  | nil => exact absurd rfl some_texts
  | cons next texts =>
    rw [joined, following_cons, joined]
    simp only [List.append_assoc]

theorem arrayUnder_eq_some {key : Text} {value : Json} {elements : List Json}
    (h : arrayUnder arrayKey key value = some elements) :
    key = arrayKey ∧ value = .array elements := by
  cases value with
  | array values =>
    rw [arrayUnder] at h
    split at h
    · next same =>
      cases h
      exact ⟨same, rfl⟩
    · cases h
  | _ => cases h

mutual

theorem placed_locateArray (value : Json) (level : Nat) (place : ArrayPlace)
    (found : locateArray style arrayKey level value = some place) :
    PlacedIn style arrayKey place (style.dumps level value) := by
  cases value with
  | constant constant => cases found
  | number literal => cases found
  | string text => cases found
  | array values =>
    rw [locateArray] at found
    obtain ⟨inner, located, rfl⟩ := Option.map_eq_some_iff.mp found
    have placed := placed_locateInValues values (level + 1) inner located
    have some_texts : style.dumpsValues (level + 1) values ≠ [] := by
      cases values with
      | nil => cases located
      | cons value values => exact List.cons_ne_nil _ _
    rw [JsonStyle.dumps, bracketed_of_joined some_texts]
    exact (placed.append _).within _
  | object members =>
    rw [locateArray] at found
    obtain ⟨inner, located, rfl⟩ := Option.map_eq_some_iff.mp found
    have placed := placed_locateInMembers members (level + 1) inner located
    have some_texts : style.dumpsMembers (level + 1) members ≠ [] := by
      cases members with
      | nil => cases located
      | cons member members => exact List.cons_ne_nil _ _
    rw [JsonStyle.dumps, bracketed_of_joined some_texts]
    exact (placed.append _).within _

theorem placed_locateInValues (values : List Json) (level : Nat) (place : ArrayPlace)
    (found : locateInValues style arrayKey level values = some place) :
    PlacedIn style arrayKey place (joined style level (style.dumpsValues level values)) := by
  cases values with
  | nil => cases found
  | cons value values =>
    rw [locateInValues] at found
    rw [JsonStyle.dumpsValues]
    cases here : locateArray style arrayKey level value with
    | some place' =>
      rw [here] at found
      cases found
      exact (placed_locateArray value level place here).append _
    | none =>
      rw [here] at found
      obtain ⟨inner, located, rfl⟩ := Option.map_eq_some_iff.mp found
      have placed := placed_locateInValues values level inner located
      have some_texts : style.dumpsValues level values ≠ [] := by
        cases values with
        | nil => cases located
        | cons value values => exact List.cons_ne_nil _ _
      rw [joined_cons some_texts]
      exact placed.within _

theorem placed_locateInMembers (members : List (Text × Json)) (level : Nat) (place : ArrayPlace)
    (found : locateInMembers style arrayKey level members = some place) :
    PlacedIn style arrayKey place (joined style level (style.dumpsMembers level members)) := by
  match members with
  | [] => cases found
  | (key, value) :: members =>
    rw [locateInMembers] at found
    rw [JsonStyle.dumpsMembers]
    cases own : arrayUnder arrayKey key value with
    | some elements =>
      rw [own] at found
      cases found
      obtain ⟨rfl, rfl⟩ := arrayUnder_eq_some own
      obtain ⟨body, written⟩ := bracketed_eq_cons style level '[' ']'
        (style.dumpsValues (level + 1) elements)
      rw [← JsonStyle.dumps] at written
      refine ⟨[], body, style.following level (style.dumpsMembers level members), rfl, written, ?_⟩
      rw [joined, written]
      simp only [List.append_assoc, List.cons_append, List.nil_append]
    | none =>
      rw [own] at found
      dsimp only at found
      cases here : locateArray style arrayKey level value with
      | some place' =>
        rw [here] at found
        cases found
        exact ((placed_locateArray value level place' here).within _).append _
      | none =>
        rw [here] at found
        obtain ⟨inner, located, rfl⟩ := Option.map_eq_some_iff.mp found
        have placed := placed_locateInMembers members level inner located
        have some_texts : style.dumpsMembers level members ≠ [] := by
          cases members with
          | nil => cases located
          | cons member members => exact List.cons_ne_nil _ _
        have later := placed.within (style.quoted key ++ (style.keySeparator ++
          (style.dumps level value ++ (style.itemSeparator ++ style.newlineIndent level))))
        rw [joined_cons some_texts]
        simpa only [List.append_assoc] using later

end

end Place

section Stream

variable {style : JsonStyle} {arrayKey field : Text} {windowChars : Nat} {place : ArrayPlace}

def fieldsOf (field : Text) (items : List (Nat × Json)) : List Text :=
  items.filterMap fun item => stringField field item.2

/-- No number that a chunk end breaks has something to be given behind it. -/
def LosesNothing (windowChars : Nat) (field : Text) (items : List (Nat × Json)) : Prop :=
  ∀ before item after, items = before ++ item :: after → ¬Survives windowChars item →
    fieldsOf field after = []

theorem fieldsOf_append (first second : List (Nat × Json)) :
    fieldsOf field (first ++ second) = fieldsOf field first ++ fieldsOf field second :=
  List.filterMap_append

theorem fieldsOf_placeElements (level start : Nat) (elements : List Json) :
    fieldsOf field (placeElements style level start elements) =
      elements.filterMap (stringField field) := by
  induction elements generalizing start with
  | nil => rfl
  | cons element elements ih =>
    rw [placeElements, List.filterMap_cons, fieldsOf, List.filterMap_cons, ← ih, fieldsOf]

theorem fieldsOf_broken {item : Nat × Json} (broken : ¬Survives windowChars item) :
    fieldsOf field [item] = [] := by
  obtain ⟨start, element⟩ := item
  cases element with
  | number literal => rfl
  | _ =>
    refine absurd (fun literal same => ?_) broken
    cases same

theorem losesNothing_iff (field : Text) {kept dropped : List (Nat × Json)}
    (survive : ∀ item ∈ kept, Survives windowChars item)
    (broken : ∀ item ∈ dropped.head?, ¬Survives windowChars item) :
    fieldsOf field kept = fieldsOf field (kept ++ dropped) ↔
      LosesNothing windowChars field (kept ++ dropped) := by
  rw [fieldsOf_append, List.self_eq_append_right]
  constructor
  · intro nothing before item after same lost
    rcases List.append_eq_append_iff.mp same with ⟨more, -, rfl⟩ | ⟨more, rfl, tail⟩
    · rw [fieldsOf_append, ← List.singleton_append, fieldsOf_append] at nothing
      exact (List.append_eq_nil_iff.mp (List.append_eq_nil_iff.mp nothing).2).2
    · cases more with
      | nil =>
        rw [List.nil_append] at tail
        rw [← tail, ← List.singleton_append, fieldsOf_append] at nothing
        exact (List.append_eq_nil_iff.mp nothing).2
      | cons other more =>
        obtain ⟨rfl, -⟩ := List.cons.inj tail
        exact absurd (survive item (List.mem_append_right _ List.mem_cons_self)) lost
  · intro nothing
    cases dropped with
    | nil => rfl
    | cons item after =>
      have lost := broken item rfl
      rw [← List.singleton_append, fieldsOf_append, fieldsOf_broken lost,
        nothing kept item after rfl lost]
      rfl

theorem runs_document (field : Text) (positive : 0 < windowChars)
    (opens : OpensFirst windowChars style arrayKey place.before) {start body after text : Text}
    (opener : place.before = start ++ (style.quoted arrayKey ++ (style.keySeparator ++ ['['])))
    (written : style.dumps place.level (.array place.elements) = '[' :: body)
    (ahead : text <+: body ++ after) :
    ∃ kept dropped, place.placed style = kept ++ dropped ∧
      iterArrayObjectField windowChars arrayKey field (place.before ++ text) = fieldsOf field kept ∧
      (text = body ++ after → (∀ item ∈ kept, Survives windowChars item) ∧
        ∀ item ∈ dropped.head?, ¬Survives windowChars item) := by
  have all : [] ++ ([] ++ (place.before ++ text)) = place.before ++ text := rfl
  obtain ⟨window, unread, found, rest, reading⟩ := seekArray_found positive opens opener all
    (Nat.zero_le _) (fun _ => Nat.dvd_zero windowChars)
    (fun k _ inside => absurd inside (Nat.not_lt_zero k))
  rw [← rest] at ahead
  have runs : Runs windowChars field (place.placed style) window unread (body ++ after) :=
    runs_elements positive place.elements written ahead reading
  obtain ⟨kept, dropped, items, gives, whole⟩ := runs
  refine ⟨kept, dropped, items, ?_, fun same => whole (rest.trans same)⟩
  rw [iterArrayObjectField, found]
  exact gives

/-- **Streaming equals decoding as long as no number breaks.** The opener is the first of
the text and carried; then the fields of all elements are given, and a beginning of them
where the file is cut off, if and only if nothing is to be given behind a broken number. -/
theorem iterArrayObjectField_iff {doc : Json} (positive : 0 < windowChars)
    (located : locateArray style arrayKey 0 doc = some place)
    (opens : OpensFirst windowChars style arrayKey place.before) :
    iterArrayObjectField windowChars arrayKey field (style.dumps 0 doc) =
          place.elements.filterMap (stringField field) ∧
        (∀ cut, iterArrayObjectField windowChars arrayKey field ((style.dumps 0 doc).take cut) <+:
          place.elements.filterMap (stringField field)) ↔
      LosesNothing windowChars field (place.placed style) := by
  obtain ⟨start, body, after, opener, written, document⟩ :=
    placed_locateArray doc 0 place located
  have fields : fieldsOf field (place.placed style) =
      place.elements.filterMap (stringField field) := fieldsOf_placeElements _ _ _
  rw [document, ← fields]
  obtain ⟨kept, dropped, items, gives, whole⟩ := runs_document field positive opens
    opener written (List.prefix_refl (body ++ after))
  obtain ⟨survive, broken⟩ := whole rfl
  have exact_iff := losesNothing_iff field survive broken
  rw [← items, ← gives] at exact_iff
  rw [← exact_iff]
  refine and_iff_left fun cut => ?_
  rcases Nat.lt_or_ge cut place.before.length with early | late
  · have nothing : iterArrayObjectField windowChars arrayKey field
        ((place.before ++ (body ++ after)).take cut) = [] := by
      rw [List.take_append_of_le_length (Nat.le_of_lt early)]
      have part : place.before.dropLast = place.before.take cut ++ place.before.dropLast.drop cut := by
        have same : place.before.dropLast.take cut = place.before.take cut := by
          rw [List.dropLast_eq_take, List.take_take, Nat.min_eq_left (by omega)]
        rw [← same, List.take_append_drop]
      have nowhere := opens.first
      rw [part, ← List.nil_append (place.before.take cut), List.append_assoc] at nowhere
      have begun : searchOpener arrayKey ([] ++ place.before.take cut) = none :=
        searchOpener_part nowhere
      rw [iterArrayObjectField, seekArray_nowhere begun]
    rw [nothing]
    exact List.nil_prefix
  · obtain ⟨more, rfl⟩ := Nat.exists_eq_add_of_le late
    rw [List.take_append, List.take_of_length_le (Nat.le_add_right _ _), Nat.add_sub_cancel_left]
    obtain ⟨kept, dropped, items, gives, -⟩ := runs_document field positive opens
      opener written (List.take_prefix more (body ++ after))
    rw [gives, items, fieldsOf_append]
    exact List.prefix_append _ _

end Stream

/-- `json.dumps` without arguments. -/
def plainStyle : JsonStyle where
  blank := by decide

theorem unsigned : ([] : Text) = [] ∨ ([] : Text) = ['-'] := .inl rfl

theorem one_leads : (['1'] : Text) = ['0'] ∨ (['1'] : Text).head? ≠ some '0' := .inr (by decide)

/-- The number 1.5. -/
def threeHalves : NumberLiteral where
  sign := []
  whole := ['1']
  fraction := ['.', '5']
  exponent := []
  sign_shape := unsigned
  whole_shape := .cons rfl rfl
  no_leading_zero := one_leads
  fraction_shape := .point (.cons rfl rfl)
  exponent_shape := .none

/-- The document `{"a": [1.5, {"u": "x"}]}`. -/
def pointDocument : Json :=
  .object [(['a'], .array [.number threeHalves, .object [(['u'], .string ['x'])]])]

/-- Where the array stands in it. -/
def pointPlace : ArrayPlace where
  before := ['{', '"', 'a', '"', ':', ' ', '[']
  level := 1
  elements := [.number threeHalves, .object [(['u'], .string ['x'])]]

/-- Read ten characters at a time, the number is in one chunk. -/
theorem point_in_chunk :
    iterArrayObjectField 10 ['a'] ['u'] (plainStyle.dumps 0 pointDocument) = [['x']] ∧
      ∀ cut, iterArrayObjectField 10 ['a'] ['u'] ((plainStyle.dumps 0 pointDocument).take cut) <+:
        [['x']] := by
  have located : locateArray plainStyle ['a'] 0 pointDocument = some pointPlace := rfl
  have opens : OpensFirst 10 plainStyle ['a'] pointPlace.before := by
    refine ⟨rfl, by decide, fun place _ early => ?_⟩
    have before_length : pointPlace.before.length = 7 := rfl
    have separator_length : plainStyle.keySeparator.length = 2 := rfl
    omega
  have survive : ∀ item ∈ pointPlace.placed plainStyle, Survives 10 item := by
    intro item listed literal number
    have items : pointPlace.placed plainStyle =
        [(7, .number threeHalves), (12, .object [(['u'], .string ['x'])])] := rfl
    rw [items] at listed
    rcases List.mem_cons.mp listed with rfl | listed
    · cases number
      intro before after same some_before some_after divides
      have lengths : 3 = before.length + after.length := by
        rw [← List.length_append, ← same]
        rfl
      have first := List.length_pos_iff.mpr some_before
      have second := List.length_pos_iff.mpr some_after
      dsimp only at divides
      omega
    · rw [List.mem_singleton.mp listed] at number
      cases number
  refine (iterArrayObjectField_iff (by decide) located opens).mpr ?_
  intro before item after same broken
  exact absurd (survive item (same ▸ List.mem_append_right _ List.mem_cons_self)) broken

/-- Read eight at a time, it is cut at its point, and the field behind it is lost. -/
theorem point_cut : (locateArray plainStyle ['a'] 0 pointDocument).map
        (fun place => place.elements.filterMap (stringField ['u'])) = some [['x']] ∧
      iterArrayObjectField 8 ['a'] ['u'] (plainStyle.dumps 0 pointDocument) = [] := by
  refine ⟨rfl, ?_⟩
  have text : plainStyle.dumps 0 pointDocument = "\x7b\"a\": [1.5, \x7b\"u\": \"x\"\x7d]\x7d".toList := by
    decide
  have none_yet : searchOpener ['a'] [] = none := rfl
  have opened : searchOpener ['a'] "\x7b\"a\": [1".toList = some ['1'] := by decide
  have broken : Broken ['1'] ['.', '5'] :=
    (Digits.cons rfl rfl).numeral.broken_before ⟨'.', rfl, .inl rfl⟩
  have sought : seekArray 8 ['a'] [] (plainStyle.dumps 0 pointDocument) =
      some (['1'], ".5, \x7b\"u\": \"x\"\x7d]\x7d".toList) := by
    rw [text, seekArray_of_none none_yet]
    exact seekArray_of_some opened
  have ahead : ".5, \x7b\"u\": \"x\"\x7d]\x7d".toList <+:
      ['.', '5'] ++ ", \x7b\"u\": \"x\"\x7d]\x7d".toList := by decide
  rw [iterArrayObjectField, sought]
  exact iterElements_broken broken ahead

end Rankuno.JsonStream
