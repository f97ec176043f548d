import MetricFormula.Text.Blank

/-!
# Metric tokens

In the text of a formula a metric is written as a token: an opening brace and everything up to
the next closing brace. Tokens do not nest, since an opening brace inside an open token is an
ordinary character, and a brace that is never closed opens no token. All positions are indices of
the list of characters.
-/

namespace MetricFormula

/-- The place of a metric token in a text. -/
structure MetricToken where
  /-- The index of the opening brace. -/
  opening : Nat
  /-- The index of the closing brace. -/
  closing : Nat
deriving DecidableEq, Repr

/-- The character that opens a metric token. -/
def openingBrace : Char := '{'

/-- The character that closes a metric token. -/
def closingBrace : Char := '}'

/-- `c` delimits metric tokens. -/
def isBrace (c : Char) : Bool :=
  c == openingBrace || c == closingBrace

namespace MetricToken

/-- An edit at `position` would split the token. Its two ends are not inside. -/
def contains (token : MetricToken) (position : Nat) : Bool :=
  decide (token.opening < position) && decide (position ≤ token.closing)

/-- The position right after the closing brace. -/
def after (token : MetricToken) : Nat :=
  token.closing + 1

/-- The number of characters, braces included. -/
def length (token : MetricToken) : Nat :=
  token.closing - token.opening + 1

/-- The characters of the token, braces included. -/
def text (token : MetricToken) (formula : List Char) : List Char :=
  (formula.drop token.opening).take token.length

/-- What the token says: its text without the braces at its ends and without the blanks next to
them. -/
def body (token : MetricToken) (formula : List Char) : List Char :=
  let inner := (token.text formula).dropWhile (· == openingBrace)
  Text.trim (inner.reverse.dropWhile (· == closingBrace)).reverse

/-- The tokens of `rest`, the text from `position` on, where `opened` is the position of an opening
brace that waits for its closing brace. -/
def scanFrom (position : Nat) (opened : Option Nat) : List Char → List MetricToken
  | [] => []
  | c :: rest =>
    match opened with
    | none => scanFrom (position + 1) (if c = openingBrace then some position else none) rest
    | some opening =>
      if c = closingBrace then ⟨opening, position⟩ :: scanFrom (position + 1) none rest
      else scanFrom (position + 1) opened rest

/-- The metric tokens of a formula, from left to right. -/
def scan (formula : List Char) : List MetricToken :=
  scanFrom 0 none formula

/-- The token that a position is inside of. -/
def containing? (tokens : List MetricToken) (position : Nat) : Option MetricToken :=
  tokens.find? (·.contains position)

/-- The token that ends right before a position. -/
def endingAt? (tokens : List MetricToken) (position : Nat) : Option MetricToken :=
  tokens.find? (·.after == position)

/-- The token that starts at a position. -/
def startingAt? (tokens : List MetricToken) (position : Nat) : Option MetricToken :=
  tokens.find? (·.opening == position)

end MetricToken

end MetricFormula
