/-!
# Blank characters

A text is handled as the list of its characters, so a position in it is an index of that list.
This module holds membership in a table of code point ranges, the characters with the
`White_Space` property, and trimming them from the ends of a text.
-/

namespace MetricFormula.Text

/-- A table of characters: inclusive ranges of code points. -/
abbrev RangeTable := List (Nat × Nat)

/-- The code point of `c` lies in one of the ranges of the table. -/
def RangeTable.contains (table : RangeTable) (c : Char) : Bool :=
  table.any fun (low, high) => decide (low ≤ c.toNat) && decide (c.toNat ≤ high)

/-- The characters with the `White_Space` property. -/
def blanks : RangeTable :=
  [(0x9, 0xD), (0x20, 0x20), (0x85, 0x85), (0xA0, 0xA0), (0x1680, 0x1680), (0x2000, 0x200A),
    (0x2028, 0x2029), (0x202F, 0x202F), (0x205F, 0x205F), (0x3000, 0x3000)]

/-- `c` is white space. -/
def isBlank (c : Char) : Bool :=
  blanks.contains c

/-- The text without the blanks at its start. -/
def trimStart (text : List Char) : List Char :=
  text.dropWhile isBlank

/-- The text without the blanks at its end. -/
def trimEnd (text : List Char) : List Char :=
  (text.reverse.dropWhile isBlank).reverse

/-- The text without the blanks at both ends. -/
def trim (text : List Char) : List Char :=
  trimEnd (trimStart text)

/-- The text holds nothing but blanks. -/
def isBlankText (text : List Char) : Bool :=
  text.all isBlank

end MetricFormula.Text
