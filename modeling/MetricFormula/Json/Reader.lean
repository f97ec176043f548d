import MetricFormula.Json.Document

/-!
# Reading JSON

A strict reader of JSON texts: no comments, no trailing commas, no control characters in strings,
nothing after the value. Blanks are the space, the tab, the line feed and the carriage return.
Every value is at least one character long, so the length of a text bounds the depth of the
recursion that reads it.
-/

namespace MetricFormula.Json

/-- `c` may stand between the parts of a document. -/
def isGap (c : Char) : Bool :=
  c == ' ' || c == '\t' || c == '\n' || c == '\r'

/-- The text without the gaps at its start. -/
def skipGaps (text : List Char) : List Char :=
  text.dropWhile isGap

/-- A part of a string literal: a character, or a surrogate code that an escape writes. -/
inductive StringPart
  /-- A character, as itself or escaped. -/
  | char (c : Char)
  /-- A surrogate code. -/
  | surrogate (code : Nat)
deriving DecidableEq

/-- The value of a hexadecimal digit. -/
def hexValue? (c : Char) : Option Nat :=
  if c.isDigit then some (c.toNat - '0'.toNat)
  else if 'a' ≤ c ∧ c ≤ 'f' then some (c.toNat - 'a'.toNat + 10)
  else if 'A' ≤ c ∧ c ≤ 'F' then some (c.toNat - 'A'.toNat + 10)
  else none

/-- The part of a string that four hexadecimal digits write. -/
def hexPart? (a b c d : Char) : Option StringPart := do
  let high := (← hexValue? a) * 16 + (← hexValue? b)
  let low := (← hexValue? c) * 16 + (← hexValue? d)
  let code := high * 0x100 + low
  return if 0xD800 ≤ code ∧ code ≤ 0xDFFF then .surrogate code else .char (Char.ofNat code)

/-- The character that a one-letter escape writes. -/
def letterEscape? : Char → Option Char
  | '"' => some '"'
  | '\\' => some '\\'
  | '/' => some '/'
  | 'b' => some (Char.ofNat 0x8)
  | 'f' => some (Char.ofNat 0xC)
  | 'n' => some '\n'
  | 'r' => some '\r'
  | 't' => some '\t'
  | _ => none

/-- Read the rest of a string literal, up to and with the closing quote. -/
def readParts : List Char → Option (List StringPart × List Char)
  | [] => none
  | '"' :: rest => some ([], rest)
  | '\\' :: 'u' :: a :: b :: c :: d :: rest => do
    let part ← hexPart? a b c d
    let (parts, rest) ← readParts rest
    return (part :: parts, rest)
  | '\\' :: c :: rest => do
    let c ← letterEscape? c
    let (parts, rest) ← readParts rest
    return (.char c :: parts, rest)
  | c :: rest =>
    if c.toNat < 0x20 ∨ c = '\\' then none
    else do
      let (parts, rest) ← readParts rest
      return (.char c :: parts, rest)

/-- The character that a surrogate pair stands for. -/
def pairChar (high low : Nat) : Char :=
  Char.ofNat (0x10000 + (high - 0xD800) * 0x400 + (low - 0xDC00))

/-- The characters of a string literal, or nothing if a surrogate is unpaired. -/
def charsOfParts? : List StringPart → Option (List Char)
  | [] => some []
  | .char c :: parts => (charsOfParts? parts).map (c :: ·)
  | .surrogate high :: .surrogate low :: parts =>
    if high < 0xDC00 ∧ 0xDC00 ≤ low then (charsOfParts? parts).map (pairChar high low :: ·)
    else none
  | .surrogate _ :: _ => none

/-- Read a string literal after its opening quote. -/
def readString (text : List Char) : Option (Option String × List Char) := do
  let (parts, rest) ← readParts text
  return ((charsOfParts? parts).map String.ofList, rest)

/-- Read a run of digits, at least one. -/
def readDigits (text : List Char) : Option (List Char × List Char) :=
  let digits := text.takeWhile Char.isDigit
  if digits.isEmpty then none else some (digits, text.dropWhile Char.isDigit)

/-- Read an integer part: a zero alone, or digits that do not begin with a zero. -/
def readWhole (text : List Char) : Option (Nat × List Char) := do
  let (digits, rest) ← readDigits text
  if digits.head? = some '0' ∧ digits.length ≠ 1 then none
  else return (Nat.ofDigitChars 10 digits 0, rest)

/-- Read a decimal point and digits, if there is a point. -/
def readFraction : List Char → Option (List Char × List Char)
  | '.' :: rest => readDigits rest
  | rest => some ([], rest)

/-- Read the sign and the digits of a power of ten. -/
def readPower (text : List Char) : Option (Int × List Char) := do
  let (negative, text) :=
    match text with
    | '-' :: text => (true, text)
    | '+' :: text => (false, text)
    | text => (false, text)
  let (digits, rest) ← readDigits text
  let n : Int := Nat.ofDigitChars 10 digits 0
  return (if negative then -n else n, rest)

/-- Read a power of ten, if there is one. -/
def readExponent : List Char → Option (Option Int × List Char)
  | 'e' :: rest => (readPower rest).map fun (n, rest) => (some n, rest)
  | 'E' :: rest => (readPower rest).map fun (n, rest) => (some n, rest)
  | rest => some (none, rest)

/-- Read a number literal. -/
def readNumber (text : List Char) : Option (NumberLiteral × List Char) := do
  let (negative, text) :=
    match text with
    | '-' :: text => (true, text)
    | text => (false, text)
  let (whole, rest) ← readWhole text
  let (fraction, rest) ← readFraction rest
  let (exponent, rest) ← readExponent rest
  return (⟨negative, whole, fraction, exponent⟩, rest)

mutual

/-- Read a value after gaps. -/
def readValue : Nat → List Char → Option (Document × List Char)
  | 0, _ => none
  | fuel + 1, text =>
    match skipGaps text with
    | '{' :: rest =>
      match skipGaps rest with
      | '}' :: rest => some (.object [], rest)
      | rest => (readMembers fuel rest).map fun (members, rest) => (.object members, rest)
    | '[' :: rest =>
      match skipGaps rest with
      | ']' :: rest => some (.array [], rest)
      | rest => (readItems fuel rest).map fun (items, rest) => (.array items, rest)
    | '"' :: rest => (readString rest).map fun (value, rest) => (.string value, rest)
    | 'n' :: 'u' :: 'l' :: 'l' :: rest => some (.null, rest)
    | 't' :: 'r' :: 'u' :: 'e' :: rest => some (.boolean true, rest)
    | 'f' :: 'a' :: 'l' :: 's' :: 'e' :: rest => some (.boolean false, rest)
    | rest => (readNumber rest).map fun (literal, rest) => (.number literal, rest)

/-- Read array items up to and with the closing bracket. -/
def readItems : Nat → List Char → Option (List Document × List Char)
  | 0, _ => none
  | fuel + 1, text => do
    let (item, rest) ← readValue fuel text
    match skipGaps rest with
    | ']' :: rest => return ([item], rest)
    | ',' :: rest =>
      let (items, rest) ← readItems fuel rest
      return (item :: items, rest)
    | _ => none

/-- Read object members up to and with the closing brace. -/
def readMembers : Nat → List Char → Option (List (Option String × Document) × List Char)
  | 0, _ => none
  | fuel + 1, text => do
    let '"' :: rest := skipGaps text | none
    let (name, rest) ← readString rest
    let ':' :: rest := skipGaps rest | none
    let (value, rest) ← readValue fuel rest
    match skipGaps rest with
    | '}' :: rest => return ([(name, value)], rest)
    | ',' :: rest =>
      let (members, rest) ← readMembers fuel rest
      return ((name, value) :: members, rest)
    | _ => none

end

/-- Read a whole text as one document. -/
def Document.parse? (text : List Char) : Option Document := do
  let (document, rest) ← readValue (text.length + 1) text
  if (skipGaps rest).isEmpty then return document else none

end MetricFormula.Json
