import MetricFormula.Number.Binary64

/-!
# The shortest decimal that reads back

For every number of digits from one to seventeen there are two neighbours of a value on the grid
of decimals with that many digits. The shortest decimal is the first of them, counting digits
upward, that reads back as the value; of two with the same number of digits it is the nearer one.
-/

namespace MetricFormula

/-- Which of two equally near decimals is taken. -/
inductive Tie
  /-- The larger one. -/
  | up
  /-- The one with an even last digit. -/
  | even
deriving DecidableEq, Repr

/-- The decimal that follows `d` on the grid of decimals with `count` digits. Nines alone are
followed by a power of ten, whose coefficient is one. -/
def Decimal.next (count : Nat) (d : Decimal) : Decimal :=
  if d.coefficient + 1 = 10 ^ count then ⟨1, d.exponent + count⟩
  else ⟨d.coefficient + 1, d.exponent⟩

/-- Of two neighbours on a grid of width `step`, the one that reads back. If both do, it is the one
that is nearer to a value at half of `twice` above the lower one. -/
def Decimal.nearer? (tie : Tie) (reads : Decimal → Bool) (below above : Decimal)
    (twice step : Nat) : Option Decimal :=
  match reads below, reads above with
  | false, false => none
  | true, false => some below
  | false, true => some above
  | true, true =>
    if twice < step then some below
    else if step < twice then some above
    else match tie with
      | .up => some above
      | .even => if below.coefficient % 2 = 0 then some below else some above

namespace Magnitude

/-- The decimal is read as the value. -/
def isReadFrom (x : Magnitude) (d : Decimal) : Bool :=
  ofDecimal? d == some x

/-- The neighbour of `x` on the grid of decimals with `count` digits, of the `length` digits that
its exact expansion has, if one reads back; the nearer one, if both do. -/
def neighbour? (tie : Tie) (x : Magnitude) (length count : Nat) : Option Decimal :=
  let exact := x.exactDecimal
  let dropped := length - count
  let step := 10 ^ dropped
  let below : Decimal := ⟨exact.coefficient / step, exact.exponent + dropped⟩
  Decimal.nearer? tie x.isReadFrom below (below.next count) (2 * (exact.coefficient % step)) step

/-- The shortest decimal that reads back as `x`, the nearest one of that length. -/
def shortest (tie : Tie) (x : Magnitude) : Decimal :=
  let exact := x.exactDecimal
  let length := (Nat.toDigits 10 exact.coefficient).length
  ((List.range 17).findSome? fun i => x.neighbour? tie length (i + 1)).getD exact

end Magnitude

namespace Binary64

/-- The number in digits, never with an exponent: the shortest decimal that reads back, without a
fraction if it is integral. The sign of zero is kept. -/
def display : Binary64 → List Char
  | nan => "NaN".toList
  | infinity negative => if negative then "-inf".toList else "inf".toList
  | finite negative x =>
    let digits := if x.isZero then ['0'] else (x.shortest .up).positional
    if negative then '-' :: digits else digits

end Binary64

end MetricFormula
