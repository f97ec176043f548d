import MetricFormula.Json.Document

/-!
# Printing JSON

A document has two printed forms: compact, without any white space, and indented, with one item or
member to a line. Both keep the order of members.
-/

namespace MetricFormula.Json

/-- The lower-case hexadecimal digits of `n`, filled up to four. -/
def hexDigits (n : Nat) : List Char :=
  let digits := Nat.toDigits 16 n
  List.replicate (4 - digits.length) '0' ++ digits

/-- A character inside a string literal. Quotes, backslashes and control characters are escaped,
the common ones by a letter. -/
def escape (c : Char) : List Char :=
  if c = '"' then ['\\', '"']
  else if c = '\\' then ['\\', '\\']
  else if c = '\n' then ['\\', 'n']
  else if c = '\r' then ['\\', 'r']
  else if c = '\t' then ['\\', 't']
  else if c.toNat = 0x8 then ['\\', 'b']
  else if c.toNat = 0xC then ['\\', 'f']
  else if c.toNat < 0x20 then '\\' :: 'u' :: hexDigits c.toNat
  else [c]

/-- The string literal of a text. -/
def quote (text : List Char) : List Char :=
  '"' :: text.flatMap escape ++ ['"']

/-- The literal of a string value; a value without text is written as one lone surrogate. -/
def stringLiteral : Option String → List Char
  | some text => quote text.toList
  | none => "\"\\ud800\"".toList

namespace Document

mutual

/-- The compact form. -/
def compact : Document → List Char
  | .null => "null".toList
  | .boolean value => if value then "true".toList else "false".toList
  | .number literal => literal.text
  | .string value => stringLiteral value
  | .array items => '[' :: compactItems items ++ [']']
  | .object members => '{' :: compactMembers members ++ ['}']

/-- Array items in compact form, separated by commas. -/
def compactItems : List Document → List Char
  | [] => []
  | [item] => item.compact
  | item :: next :: items => item.compact ++ ',' :: compactItems (next :: items)

/-- Object members in compact form, separated by commas. -/
def compactMembers : List (Option String × Document) → List Char
  | [] => []
  | [(name, value)] => stringLiteral name ++ ':' :: value.compact
  | (name, value) :: next :: members =>
    stringLiteral name ++ ':' :: value.compact ++ ',' :: compactMembers (next :: members)

end

/-- A line end and the indentation of the given level, two blanks to a level. -/
def newLine (level : Nat) : List Char :=
  '\n' :: List.replicate (2 * level) ' '

mutual

/-- The indented form, as part of a line at the given level. Only arrays with items and objects
with members take more than that line. -/
def indentedAt (level : Nat) : Document → List Char
  | .array (item :: items) =>
    '[' :: newLine (level + 1) ++ item.indentedAt (level + 1) ++
      indentedItems (level + 1) items ++ newLine level ++ [']']
  | .object ((name, value) :: members) =>
    '{' :: newLine (level + 1) ++
      stringLiteral name ++ ':' :: ' ' :: value.indentedAt (level + 1) ++
      indentedMembers (level + 1) members ++ newLine level ++ ['}']
  | document => document.compact

/-- The further items of an array, each on a line of its own. -/
def indentedItems (level : Nat) : List Document → List Char
  | [] => []
  | item :: items => ',' :: newLine level ++ item.indentedAt level ++ indentedItems level items

/-- The further members of an object, each on a line of its own. -/
def indentedMembers (level : Nat) : List (Option String × Document) → List Char
  | [] => []
  | (name, value) :: members =>
    ',' :: newLine level ++ stringLiteral name ++ ':' :: ' ' :: value.indentedAt level ++
      indentedMembers level members

end

/-- The indented form. -/
def indented (document : Document) : List Char :=
  document.indentedAt 0

end Document

end MetricFormula.Json
