import MetricFormula.Json.Number

/-!
# Reading records

What documents stand for: texts, truth values, positions, choices by name, and records. A record
is an object with known fields, each at most once among members that are ignored, or an array of
the field values in their order, of which the last ones may be missing.
-/

namespace MetricFormula.Json

namespace Document

/-- A truth value. -/
def toBool? : Document → Option Bool
  | .boolean value => some value
  | _ => none

/-- A position: an integer from `0` up to below `2 ^ 64`. -/
def toIndex? : Document → Option Nat
  | .number literal => literal.toIndex?
  | _ => none

/-- A text of exactly one character. -/
def toChar? (document : Document) : Option Char := do
  match (← document.toText?).toList with
  | [c] => return c
  | _ => none

/-- What `null` and a missing value stand for is nothing; other values are read. -/
def toOptional? {α : Type} (read : Document → Option α) : Option Document → Option (Option α)
  | none => some none
  | some .null => some none
  | some value => (read value).map some

/-- The member names of an object, if all of them are texts. -/
def names? (members : List (Option String × Document)) : Option (List String) :=
  members.mapM Prod.fst

/-- The values of the members with the given name. -/
def valuesOf (name : String) (members : List (Option String × Document)) : List Document :=
  members.filterMap fun (key, value) => if key = some name then some value else none

/-- The value of the only member with the given name, or nothing if there is none; fails if there
are several. -/
def uniqueValue? (members : List (Option String × Document)) (name : String) :
    Option (Option Document) :=
  match valuesOf name members with
  | [] => some none
  | [value] => some (some value)
  | _ => none

/-- The values of the named fields in the members of an object. -/
def fieldsOfMembers? (fields : List String) (members : List (Option String × Document)) :
    Option (List (Option Document)) := do
  let _ ← names? members
  fields.mapM (uniqueValue? members)

/-- The values of the named fields in the items of an array. -/
def fieldsOfItems? (fields : List String) (items : List Document) :
    Option (List (Option Document)) :=
  if items.length ≤ fields.length then
    some (items.map some ++ List.replicate (fields.length - items.length) none)
  else none

/-- The values of the named fields of a record, each nothing where it is missing. -/
def fields? (fields : List String) : Document → Option (List (Option Document))
  | .object members => fieldsOfMembers? fields members
  | .array items => fieldsOfItems? fields items
  | _ => none

mutual

/-- Every string is a text and every number a finite one. -/
def isWellFormed : Document → Bool
  | .null => true
  | .boolean _ => true
  | .number literal => literal.value?.isSome
  | .string value => value.isSome
  | .array items => areItemsWellFormed items
  | .object members => areMembersWellFormed members

/-- All items are well formed. -/
def areItemsWellFormed : List Document → Bool
  | [] => true
  | item :: items => item.isWellFormed && areItemsWellFormed items

/-- All members are well formed, names included. -/
def areMembersWellFormed : List (Option String × Document) → Bool
  | [] => true
  | (name, value) :: members =>
    name.isSome && value.isWellFormed && areMembersWellFormed members

end

end Document

/-- The deepest nesting of arrays and objects that is read where documents may nest. -/
def depthLimit : Nat := 127

end MetricFormula.Json
