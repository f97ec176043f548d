/-!
# JSON documents

The content of a JSON text, kept so that nothing a reader may ask about is lost: number literals
keep their digits, objects keep the order and the repetitions of their members, and a string
literal with an unpaired surrogate escape, which stands for no text, is still a string literal.
-/

namespace MetricFormula.Json

/-- A number as it is written: an optional minus sign, an integer part, the digits after the
decimal point (none if there is no point), and an optional power of ten. -/
structure NumberLiteral where
  /-- There is a minus sign. -/
  negative : Bool
  /-- The integer part. -/
  whole : Nat
  /-- The digits after the decimal point; empty exactly if there is no point. -/
  fraction : List Char
  /-- The power of ten, if one is written. -/
  exponent : Option Int
deriving DecidableEq, Repr

namespace NumberLiteral

/-- The literal of a natural number. -/
def ofNat (n : Nat) : NumberLiteral :=
  ⟨false, n, [], none⟩

/-- The literal of an integer. -/
def ofInt (n : Int) : NumberLiteral :=
  ⟨decide (n < 0), n.natAbs, [], none⟩

/-- The literal has neither a decimal point nor a power of ten. -/
def isInteger (n : NumberLiteral) : Bool :=
  n.fraction.isEmpty && n.exponent.isNone

/-- The natural number below `2 ^ 64` that an integer literal without a sign writes. -/
def toIndex? (n : NumberLiteral) : Option Nat :=
  if n.isInteger && !n.negative && decide (n.whole < UInt64.size) then some n.whole else none

/-- The literal as text. -/
def text (n : NumberLiteral) : List Char :=
  (if n.negative then ['-'] else []) ++
    Nat.toDigits 10 n.whole ++
    (if n.fraction.isEmpty then [] else '.' :: n.fraction) ++
    match n.exponent with
    | none => []
    | some (.ofNat k) => 'e' :: '+' :: Nat.toDigits 10 k
    | some (.negSucc k) => 'e' :: '-' :: Nat.toDigits 10 (k + 1)

end NumberLiteral

/-- A JSON value. Strings and member names are nothing when the literal holds an unpaired
surrogate escape. -/
inductive Document
  /-- The literal `null`. -/
  | null
  /-- The literals `true` and `false`. -/
  | boolean (value : Bool)
  /-- A number. -/
  | number (literal : NumberLiteral)
  /-- A string. -/
  | string (value : Option String)
  /-- An array. -/
  | array (items : List Document)
  /-- An object: its members in order. -/
  | object (members : List (Option String × Document))

namespace Document

/-- A string value. -/
def text (value : String) : Document :=
  .string (some value)

/-- A natural number. -/
def nat (n : Nat) : Document :=
  .number (.ofNat n)

/-- An object with the given members. -/
def record (members : List (String × Document)) : Document :=
  .object (members.map fun (name, value) => (some name, value))

/-- The text of a string value. -/
def toText? : Document → Option String
  | .string value => value
  | _ => none

mutual

/-- How many arrays and objects enclose the innermost value. -/
def depth : Document → Nat
  | .array items => depthOfItems items + 1
  | .object members => depthOfMembers members + 1
  | _ => 0

/-- The greatest depth among array items. -/
def depthOfItems : List Document → Nat
  | [] => 0
  | item :: items => max item.depth (depthOfItems items)

/-- The greatest depth among object members. -/
def depthOfMembers : List (Option String × Document) → Nat
  | [] => 0
  | (_, value) :: members => max value.depth (depthOfMembers members)

end

end Document

end MetricFormula.Json
