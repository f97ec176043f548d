import MetricFormula.Number.Binary64

/-!
# Reading a number from text

The full notation of a binary64 number: an optional sign, then digits with at most one decimal
point and an optional power of ten, or the name of an infinity or of NaN in any case.
-/

namespace MetricFormula

namespace Binary64

/-- The number nearest to a decimal with any exponent. More than 310 digits before the decimal
point overflow and more than 330 zeros after it vanish, whatever the digits are. -/
def ofScientific (negative : Bool) (d : Decimal) : Binary64 :=
  if d.coefficient = 0 then finite negative .zero
  else
    let position := d.exponent + (Nat.toDigits 10 d.coefficient).length
    if 310 < position then infinity negative
    else if position < -330 then finite negative .zero
    else ofDecimal negative d

/-- Read the exponent of a number: an optional sign and digits. -/
def exponentOf? (text : List Char) : Option Int :=
  let (negative, digits) :=
    match text with
    | '-' :: digits => (true, digits)
    | '+' :: digits => (false, digits)
    | digits => (false, digits)
  if !digits.isEmpty && digits.all Char.isDigit then
    let n : Int := Nat.ofDigitChars 10 digits 0
    some (if negative then -n else n)
  else none

/-- Read a number without its sign. -/
def ofUnsigned? (negative : Bool) (text : List Char) : Option Binary64 :=
  let name := text.map Char.toLower
  if name = "inf".toList || name = "infinity".toList then some (infinity negative)
  else if name = "nan".toList then some nan
  else
    let isMark := fun c => c == 'e' || c == 'E'
    let mantissa := text.takeWhile fun c => !isMark c
    match text.dropWhile fun c => !isMark c with
    | [] => (Decimal.ofPositional? mantissa).map (ofDecimal negative)
    | _ :: power => do
      let d ← Decimal.ofPositional? mantissa
      let exponent ← exponentOf? power
      return ofScientific negative ⟨d.coefficient, d.exponent + exponent⟩

/-- Read a number; nothing if the text is not one. -/
def ofText? : List Char → Option Binary64
  | '-' :: text => ofUnsigned? true text
  | '+' :: text => ofUnsigned? false text
  | text => ofUnsigned? false text

end Binary64

end MetricFormula
