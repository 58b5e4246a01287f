import Rankuno.Python.JsonNumerals

/-!
# One field of a streamed array

`json_stream.py`: the values of a field in the objects of an array, read from a handle in
chunks. The handle is the text still unread; the window is the text that was read and not
yet consumed.
-/

namespace Rankuno.JsonStream

open Python Python.Text

/-- `_SEPARATORS` matches these. -/
def isSeparator (c : Char) : Bool := isSpace c || c = ','

/-- A match of `_array_opener` at the start of a text: what stands after it. -/
def openerAt (arrayKey text : Text) : Option Text :=
  if ('"' :: (arrayKey ++ ['"'])).isPrefixOf text then
    match (text.drop (arrayKey.length + 2)).dropWhile isSpace with
    | [] => none
    | colon :: rest =>
      if colon = ':' then
        match rest.dropWhile isSpace with
        | [] => none
        | bracket :: rest => if bracket = '[' then some rest else none
      else none
  else none

/-- `opener.search`: what stands after the first match. -/
def searchOpener (arrayKey : Text) : Text → Option Text
  | [] => none
  | c :: text =>
    match openerAt arrayKey (c :: text) with
    | some rest => some rest
    | none => searchOpener arrayKey text

theorem length_drop_lt {n : Nat} {text : Text} (read : text.take n ≠ []) :
    (text.drop n).length < text.length := by
  rw [Ne, List.take_eq_nil_iff, not_or] at read
  have := List.length_pos_iff.mpr read.2
  have := Nat.pos_of_ne_zero read.1
  rw [List.length_drop]
  omega

/-- `_seek_array`: what is left of the window after the opener, and of the handle. -/
def seekArray (windowChars : Nat) (arrayKey window unread : Text) : Option (Text × Text) :=
  match searchOpener arrayKey window with
  | some rest => some (rest, unread)
  | none =>
    if _read : unread.take windowChars = [] then none
    else
      seekArray windowChars arrayKey
        (window.drop (window.length - (arrayKey.length + 16)) ++ unread.take windowChars)
        (unread.drop windowChars)
termination_by unread.length
decreasing_by exact length_drop_lt _read

/-- `element.get(field)`, where it is a string. Of members with one key the last counts. -/
def stringField (field : Text) : Json → Option Text
  | .object members =>
    match (members.filter fun member => member.1 = field).getLast? with
    | some (_, .string text) => some text
    | _ => none
  | _ => none

/-- `_iter_elements`. Dropping what was decoded from the window makes no difference here. -/
def iterElements (windowChars : Nat) (field window unread : Text) : List Text :=
  match _shown : window.dropWhile isSeparator with
  | [] =>
    if _read : unread.take windowChars = [] then []
    else iterElements windowChars field (unread.take windowChars) (unread.drop windowChars)
  | c :: rest =>
    if c = ']' then []
    else
      match _decoded : rawDecode (c :: rest) with
      | none =>
        -- The next turn skips nothing: the window still begins with `c`.
        if _read : unread.take windowChars = [] then []
        else
          iterElements windowChars field (c :: rest ++ unread.take windowChars)
            (unread.drop windowChars)
      | some (element, rest) =>
        (stringField field element).toList ++ iterElements windowChars field rest unread
termination_by (unread.length, window.length)
decreasing_by
  · exact .left _ _ (length_drop_lt _read)
  · exact .left _ _ (length_drop_lt _read)
  · refine .right _ (Nat.lt_of_lt_of_le (rawDecode_consumes _ _ _ _decoded) ?_)
    rw [← _shown]
    exact (List.dropWhile_sublist _).length_le

/-- `iter_array_object_field`, of a file with this text. -/
def iterArrayObjectField (windowChars : Nat) (arrayKey field text : Text) : List Text :=
  match seekArray windowChars arrayKey [] text with
  | none => []
  | some (window, unread) => iterElements windowChars field window unread

/-! ## Where the array stands -/

/-- An array in a document: the text up to its bracket, its depth and its elements. -/
structure ArrayPlace where
  before : Text
  level : Nat
  elements : List Json

def ArrayPlace.within (text : Text) (place : ArrayPlace) : ArrayPlace :=
  { place with before := text ++ place.before }

/-- The elements of an array that a member with the key holds. -/
def arrayUnder (arrayKey key : Text) : Json → Option (List Json)
  | .array elements => if key = arrayKey then some elements else none
  | _ => none

mutual

/-- The first array, in document order, that the key holds. -/
def locateArray (style : JsonStyle) (arrayKey : Text) (level : Nat) : Json → Option ArrayPlace
  | .array values =>
    (locateInValues style arrayKey (level + 1) values).map
      (.within ('[' :: style.newlineIndent (level + 1)))
  | .object members =>
    (locateInMembers style arrayKey (level + 1) members).map
      (.within ('\x7b' :: style.newlineIndent (level + 1)))
  | _ => none

def locateInValues (style : JsonStyle) (arrayKey : Text) (level : Nat) :
    List Json → Option ArrayPlace
  | [] => none
  | value :: values =>
    match locateArray style arrayKey level value with
    | some place => some place
    | none =>
      (locateInValues style arrayKey level values).map
        (.within (style.dumps level value ++ (style.itemSeparator ++ style.newlineIndent level)))

def locateInMembers (style : JsonStyle) (arrayKey : Text) (level : Nat) :
    List (Text × Json) → Option ArrayPlace
  | [] => none
  | (key, value) :: members =>
    match arrayUnder arrayKey key value with
    | some elements => some ⟨style.quoted key ++ (style.keySeparator ++ ['[']), level, elements⟩
    | none =>
      match locateArray style arrayKey level value with
      | some place => some (place.within (style.quoted key ++ style.keySeparator))
      | none =>
        (locateInMembers style arrayKey level members).map
          (.within (style.quoted key ++ (style.keySeparator ++ (style.dumps level value ++
            (style.itemSeparator ++ style.newlineIndent level)))))

end

/-- Each element with the place where it is written. -/
def placeElements (style : JsonStyle) (level : Nat) : Nat → List Json → List (Nat × Json)
  | _, [] => []
  | start, element :: elements =>
    (start, element) :: placeElements style level
      (start + ((style.dumps level element).length +
        (style.itemSeparator ++ style.newlineIndent level).length)) elements

/-- The elements of the array, where they stand in the document. -/
def ArrayPlace.placed (style : JsonStyle) (place : ArrayPlace) : List (Nat × Json) :=
  placeElements style (place.level + 1)
    (place.before.length + (style.newlineIndent (place.level + 1)).length) place.elements

end Rankuno.JsonStream
