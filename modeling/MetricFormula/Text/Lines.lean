/-!
# Lines

Splitting into lines, of characters as well as of bytes. A line ends at a line feed, and a carriage
return right before the line feed belongs to the line end; one that stands elsewhere does not end a
line. What follows the last line feed is a line too, unless it is empty.
-/

namespace MetricFormula.Text

variable {α : Type} [DecidableEq α]

/-- A line in reverse, without the carriage return at its end. -/
def dropReturn (carriageReturn : α) : List α → List α
  | [] => []
  | c :: reversed => if c = carriageReturn then reversed else c :: reversed

/-- The lines of the rest of a text, after the start of a line in reverse. -/
def linesFrom (lineFeed carriageReturn : α) (reversed : List α) : List α → List (List α)
  | [] => if reversed.isEmpty then [] else [reversed.reverse]
  | c :: rest =>
    if c = lineFeed then
      (dropReturn carriageReturn reversed).reverse :: linesFrom lineFeed carriageReturn [] rest
    else linesFrom lineFeed carriageReturn (c :: reversed) rest

/-- The lines of a text. -/
def lines (text : List Char) : List (List Char) :=
  linesFrom '\n' '\r' [] text

/-- The lines of a sequence of bytes. -/
def byteLines (bytes : List UInt8) : List (List UInt8) :=
  linesFrom 0x0A 0x0D [] bytes

/-- Lines joined by line feeds. -/
def joinLines : List (List Char) → List Char
  | [] => []
  | [line] => line
  | line :: next :: rest => line ++ '\n' :: joinLines (next :: rest)

end MetricFormula.Text
