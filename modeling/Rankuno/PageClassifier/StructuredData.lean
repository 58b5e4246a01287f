import Rankuno.Foundation.Table
import Rankuno.Python.Json
import Rankuno.UrlKeys.Hosts

/-!
# Structured data of a page

The JSON-LD blocks of a page: what a regular expression finds between their tags and what
`json.loads` makes of it are parameters, with the one answer of `json.loads` that nobody
expects, a document nested deeper than the interpreter's stack. What is done with a
document is modelled.
-/

namespace Rankuno.PageClassifier

open Python

/-- What `json.loads` answers. -/
inductive Loaded where
  | value (parsed : Json)
  /-- `ValueError`, of which `JSONDecodeError` is one. -/
  | broken
  /-- `RecursionError`. -/
  | tooDeep

/-- The standard library as far as reading the blocks goes. -/
structure BlockReader where
  /-- `_JSONLD_BLOCK_RE.findall`. -/
  blocks : Text → List Text
  /-- `json.loads(block.strip())`. -/
  loads : Text → Loaded
  /-- The frames that are left on the stack. -/
  stack : Nat

/-- The `dict` of an object's members: a key keeps its first place and its last value. -/
def dictOf (members : List (Text × Json)) : Dict Text Json :=
  members.foldl (fun d member => Dict.alter d member.1 member.2 fun _ => member.2) Table.empty

def atType : Text := "@type".toList

/-- The text of a value that is one. -/
def Json.string? : Json → Option Text
  | .string text => some text
  | _ => none

/-- The types that a `@type` declares. -/
def declaredTypes : Option Json → List Text
  | some (.string name) => [name]
  | some (.array items) => items.filterMap Json.string?
  | _ => []

/-- `_iter_schema_types`, a frame of the stack for each level; `none` where there is none left. -/
def iterSchemaTypes : Nat → Json → List (Option Text)
  | 0, _ => [none]
  | stack + 1, .object members =>
    (declaredTypes (Dict.get (dictOf members) atType)).map some ++
      (dictOf members).rows.flatMap fun member => iterSchemaTypes stack member.2
  | stack + 1, .array items => items.flatMap (iterSchemaTypes stack)
  | _ + 1, _ => []

/-- The types of one block: a broken one is skipped. -/
def Loaded.schemaTypes (stack : Nat) : Loaded → List (Option Text)
  | .value parsed => iterSchemaTypes stack parsed
  | .broken => []
  | .tooDeep => [none]

/-- `_iter_declared_types`. -/
def iterDeclaredTypes (reader : BlockReader) (html : Text) : List (Option Text) :=
  (reader.blocks html).flatMap fun block => (reader.loads block).schemaTypes reader.stack

end Rankuno.PageClassifier
