import HostView.Json.Document

/-!
# Structures as documents

A structure is stored as an object with its fields by name. It may also be given as an array with
its fields in order. Either way fields may be missing, and it is for the structure to say whether
one has a default. Members of other names are passed over, but a field may be given only once.
-/

namespace HostView.Json

/-- The one member of the given name, if there is one; two are an error. -/
def single? (members : List (ScriptString × Json)) (name : String) : Option (Option Json) :=
  match members.filter fun m => m.1 = .text name with
  | [] => some none
  | [(_, j)] => some (some j)
  | _ => none

/-- Every name is text. -/
def namesAreText (members : List (ScriptString × Json)) : Bool :=
  members.all fun
    | (.text _, _) => true
    | (.illFormed _, _) => false

/-- The fields of a structure, in order. -/
def fields? (names : List String) : Json → Option (List (Option Json))
  | .object members =>
    if namesAreText members then names.mapM (single? members) else none
  | .array items =>
    if items.length ≤ names.length then
      some (items.map some ++ List.replicate (names.length - items.length) none)
    else none
  | _ => none

/-- The document of a structure. -/
def ofFields (fields : List (String × Json)) : Json :=
  .object (fields.map fun (name, j) => (.text name, j))

end HostView.Json
