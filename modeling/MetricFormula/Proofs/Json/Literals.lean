import MetricFormula.Json.Printer
import MetricFormula.Json.Reader
import MetricFormula.Proofs.Number.ReadBack

/-!
# Reading back the literals of JSON

A string or a number that was written is read back as it was, and so is the text behind it. A string
literal ends at its quote. A number literal ends where no digit, point or power of ten follows, so
what stands behind it has to begin with something else.

## Main definitions

* `StartsWithout`: the text does not begin with a character of a class;
* `NumberLiteral.HasDigits`: the fraction of the literal consists of digits.

## Main results

* `readString_stringLiteral`: string literals are read back, those without a text included;
* `readNumber_text`: number literals are read back with all their digits.
-/

namespace MetricFormula.Json

/-! ## Strings -/

section Strings

variable {rest tail : List Char} {parts : List StringPart}

/-- A character that is no quote, no backslash and no control character stands for itself. -/
theorem readParts_plain {c : Char} (hquote : c ≠ '"') (hbackslash : c ≠ '\\')
    (hcontrol : 0x20 ≤ c.toNat) (h : readParts rest = some (parts, tail)) :
    readParts (c :: rest) = some (.char c :: parts, tail) := by
  have hplain : ¬(c.toNat < 0x20 ∨ c = '\\') := by
    rintro (hlt | heq)
    · exact Nat.not_lt.2 hcontrol hlt
    · exact hbackslash heq
  rw [readParts.eq_5 c rest hquote (fun _ _ _ _ _ hc => absurd hc hbackslash)
    (fun _ _ hc => absurd hc hbackslash), if_neg hplain, h]
  rfl

/-- A backslash and a letter stand for the character of the escape, unless the letter announces a
code. -/
theorem readParts_letter {letter c : Char} (hletter : letter ≠ 'u')
    (hescape : letterEscape? letter = some c) (h : readParts rest = some (parts, tail)) :
    readParts ('\\' :: letter :: rest) = some (.char c :: parts, tail) := by
  rw [readParts.eq_4 letter rest (fun _ _ _ _ _ hc => absurd hc hletter), hescape, h]
  rfl

/-- The part of a string that a list of four hexadecimal digits writes. -/
def partOfDigits? : List Char → Option StringPart
  | [a, b, c, d] => hexPart? a b c d
  | _ => none

/-- A backslash, a `u` and four digits stand for the part with that code. -/
theorem readParts_digits {digits : List Char} {part : StringPart}
    (hpart : partOfDigits? digits = some part) (h : readParts rest = some (parts, tail)) :
    readParts ('\\' :: 'u' :: (digits ++ rest)) = some (part :: parts, tail) := by
  unfold partOfDigits? at hpart
  split at hpart
  next a b c d =>
    show readParts ('\\' :: 'u' :: a :: b :: c :: d :: rest) = _
    rw [readParts.eq_3, hpart, h]
    rfl
  next => cases hpart

/-- Control characters are read back from their code. -/
theorem partOfDigits?_hexDigits {n : Nat} (h : n < 0x20) :
    partOfDigits? (hexDigits n) = some (.char (Char.ofNat n)) := by
  -- There are few of them.
  have hall : ∀ n ∈ List.range 0x20,
      partOfDigits? (hexDigits n) = some (.char (Char.ofNat n)) := by
    decide
  exact hall n (List.mem_range.2 h)

/-- What is written for a character is read back as the character. -/
theorem readParts_escape (c : Char) (h : readParts rest = some (parts, tail)) :
    readParts (escape c ++ rest) = some (.char c :: parts, tail) := by
  have hcode : ∀ {n}, c.toNat = n → Char.ofNat n = c := by
    rintro n rfl
    exact Char.ofNat_toNat c
  -- The cases are in the order in which the printer tries its escapes.
  unfold escape
  iterate 5
    split
    next hc =>
      rw [hc]
      exact readParts_letter (by decide) rfl h
  -- Backspace and form feed are compared by their codes.
  iterate 2
    split
    next hc => exact readParts_letter (by decide) (congrArg some (hcode hc)) h
  split
  next hc =>
    have hpart := partOfDigits?_hexDigits hc
    rw [Char.ofNat_toNat] at hpart
    exact readParts_digits hpart h
  next hquote hbackslash _ _ _ _ _ hcontrol =>
    exact readParts_plain hquote hbackslash (Nat.not_lt.1 hcontrol) h

/-- The escaped characters of a text are read back up to the closing quote. -/
theorem readParts_flatMap_escape (text rest : List Char) :
    readParts (text.flatMap escape ++ '"' :: rest) = some (text.map .char, rest) := by
  induction text with
  | nil => exact readParts.eq_2 rest
  | cons c text ih =>
    rw [List.flatMap_cons, List.append_assoc]
    exact readParts_escape c ih

/-- Where there are no surrogates, the parts of a string are its characters. -/
theorem charsOfParts?_map_char (text : List Char) :
    charsOfParts? (text.map .char) = some text := by
  induction text with
  | nil => rfl
  | cons c text ih =>
    rw [List.map_cons, charsOfParts?, ih]
    rfl

/-- A string literal is a quote and what is read back behind it, also if the string is no text. -/
theorem readString_stringLiteral (value : Option String) (rest : List Char) :
    ∃ body, stringLiteral value = '"' :: body ∧ readString (body ++ rest) = some (value, rest) := by
  cases value with
  | none =>
    refine ⟨['\\', 'u', 'd', '8', '0', '0', '"'], by decide, ?_⟩
    have hsurrogate : hexPart? 'd' '8' '0' '0' = some (.surrogate 0xD800) := by decide
    have hparts : readParts ('\\' :: 'u' :: 'd' :: '8' :: '0' :: '0' :: '"' :: rest) =
        some ([.surrogate 0xD800], rest) := by
      rw [readParts.eq_3, hsurrogate, readParts.eq_2]
      rfl
    rw [readString]
    simp only [List.cons_append, List.nil_append, hparts]
    rfl
  | some text =>
    refine ⟨text.toList.flatMap escape ++ ['"'], rfl, ?_⟩
    have hparts := readParts_flatMap_escape text.toList rest
    rw [readString, List.append_assoc, List.singleton_append, hparts]
    show some (Option.map String.ofList (charsOfParts? (text.toList.map .char)), rest) = _
    rw [charsOfParts?_map_char, Option.map_some, String.ofList_toList]

end Strings

/-! ## Numbers -/

/-- The text does not begin with a character of the class. -/
def StartsWithout (P : Char → Bool) (text : List Char) : Prop :=
  ∀ c ∈ text.head?, P c = false

/-- The end of the text is no character of any class. -/
theorem startsWithout_nil (P : Char → Bool) : StartsWithout P [] := by
  simp [StartsWithout]

/-- Only the first character of a text has to be looked at. -/
theorem startsWithout_cons {P : Char → Bool} {c : Char} (h : P c = false) (text : List Char) :
    StartsWithout P (c :: text) := by
  simp [StartsWithout, h]

/-- A number literal goes on with `c`. -/
def continuesNumber (c : Char) : Bool :=
  c.isDigit || c == '.' || c == 'e' || c == 'E'

/-- A text that does not begin with a character of a class does not begin with one of a smaller
class. -/
theorem StartsWithout.mono {P Q : Char → Bool} {text : List Char} (h : StartsWithout P text)
    (hsubset : ∀ c, Q c → P c) : StartsWithout Q text := by
  intro c hc
  rw [Bool.eq_false_iff]
  intro hQ
  exact Bool.false_ne_true ((h c hc).symm.trans (hsubset c hQ))

/-- A run of digits is read as a whole, up to the first character that is no digit. -/
theorem readDigits_append {digits rest : List Char} (hne : digits ≠ [])
    (hdigits : ∀ c ∈ digits, c.isDigit) (hrest : StartsWithout Char.isDigit rest) :
    readDigits (digits ++ rest) = some (digits, rest) := by
  -- Nothing of the rest belongs to the run.
  have hnone : rest.takeWhile Char.isDigit = [] ∧ rest.dropWhile Char.isDigit = rest := by
    cases rest with
    | nil => exact ⟨rfl, rfl⟩
    | cons c rest =>
      have hc : ¬c.isDigit := by simp [hrest c rfl]
      exact ⟨List.takeWhile_cons_of_neg hc, List.dropWhile_cons_of_neg hc⟩
  have htake := @List.takeWhile_append_of_pos _ Char.isDigit digits rest hdigits
  have hdrop := @List.dropWhile_append_of_pos _ Char.isDigit digits rest hdigits
  rw [hnone.1, List.append_nil] at htake
  rw [hnone.2] at hdrop
  rw [readDigits, htake, hdrop]
  exact if_neg (by simpa using hne)

/-- Only zero is written with a zero in front. -/
theorem head?_toDigits {n : Nat} (hn : n ≠ 0) : (Nat.toDigits 10 n).head? ≠ some '0' := by
  induction n using Nat.strongRecOn with
  | _ n ih =>
    -- The first digit is that of `n / 10` unless `n` is a digit itself.
    by_cases hlt : n < 10
    · rw [Nat.toDigits_of_lt_base hlt]
      simpa using hn
    · have hle : 10 ≤ n := Nat.not_lt.1 hlt
      have hih := ih (n / 10) (by omega) (by omega)
      obtain ⟨c, digits, hdigits⟩ := List.exists_cons_of_ne_nil
        (Nat.toDigits_ne_nil (n := n / 10) (b := 10))
      rw [Nat.toDigits_of_base_le (by decide) hle, hdigits]
      rwa [hdigits] at hih

/-- The digits of a natural number are read back as the number, since they have no zero in front of
them. -/
theorem readWhole_toDigits (n : Nat) {rest : List Char} (hrest : StartsWithout Char.isDigit rest) :
    readWhole (Nat.toDigits 10 n ++ rest) = some (n, rest) := by
  have hread := readDigits_append Nat.toDigits_ne_nil
    (Decimal.isDigit_of_mem_toDigits (n := n)) hrest
  -- Leading zeros are refused, and only the digit zero has one.
  have hzero : ¬((Nat.toDigits 10 n).head? = some '0' ∧ (Nat.toDigits 10 n).length ≠ 1) := by
    rintro ⟨hhead, hlength⟩
    by_cases hn : n = 0
    · exact hlength (by rw [hn, Nat.toDigits_zero, List.length_singleton])
    · exact head?_toDigits hn hhead
  rw [readWhole, hread]
  show (if _ then none else some (Nat.ofDigitChars 10 (Nat.toDigits 10 n) 0, rest)) = _
  rw [if_neg hzero, Nat.ofDigitChars_ten_toDigits]

namespace NumberLiteral

/-- The fraction consists of digits. -/
def HasDigits (literal : NumberLiteral) : Prop :=
  ∀ c ∈ literal.fraction, c.isDigit

/-- The decimal point and the digits behind it. -/
def fractionText (fraction : List Char) : List Char :=
  if fraction.isEmpty then [] else '.' :: fraction

/-- The power of ten. -/
def exponentText : Option Int → List Char
  | none => []
  | some (.ofNat k) => 'e' :: '+' :: Nat.toDigits 10 k
  | some (.negSucc k) => 'e' :: '-' :: Nat.toDigits 10 (k + 1)

/-- A number literal is a sign, an integer part, a fraction and a power of ten, some of which may be
missing. -/
theorem text_eq (literal : NumberLiteral) :
    literal.text = (if literal.negative then ['-'] else []) ++
      (Nat.toDigits 10 literal.whole ++
        (fractionText literal.fraction ++ exponentText literal.exponent)) := by
  obtain ⟨negative, whole, fraction, exponent⟩ := literal
  rw [← List.append_assoc, ← List.append_assoc]
  rcases exponent with _ | k | k <;> rfl

end NumberLiteral

open NumberLiteral

/-- A power of ten is read back. If there is none, the text behind it must not look like one. -/
theorem readExponent_exponentText (exponent : Option Int) {rest : List Char}
    (hrest : StartsWithout continuesNumber rest) :
    readExponent (exponentText exponent ++ rest) = some (exponent, rest) := by
  have hdigit : StartsWithout Char.isDigit rest :=
    hrest.mono fun c hc => by simp [continuesNumber, hc]
  have hread : ∀ n, readDigits (Nat.toDigits 10 n ++ rest) = some (Nat.toDigits 10 n, rest) :=
    fun n => readDigits_append Nat.toDigits_ne_nil Decimal.isDigit_of_mem_toDigits hdigit
  cases exponent with
  | none =>
    -- What follows does not begin like a power.
    have hmark : ∀ {tail}, rest ≠ 'e' :: tail ∧ rest ≠ 'E' :: tail := by
      intro tail
      constructor <;> rintro rfl <;> exact absurd (hrest _ rfl) (by decide)
    exact readExponent.eq_3 rest (fun _ h => hmark.1 h) fun _ h => hmark.2 h
  | some power =>
    cases power with
    | ofNat k =>
      have hpower : readPower ('+' :: (Nat.toDigits 10 k ++ rest)) = some (Int.ofNat k, rest) := by
        simp only [readPower, hread, Option.bind_eq_bind, Option.bind_some,
          Nat.ofDigitChars_ten_toDigits]
        rfl
      show (readPower ('+' :: (Nat.toDigits 10 k ++ rest))).map _ = _
      rw [hpower]
      rfl
    | negSucc k =>
      have hpower : readPower ('-' :: (Nat.toDigits 10 (k + 1) ++ rest)) =
          some (Int.negSucc k, rest) := by
        simp only [readPower, hread, Option.bind_eq_bind, Option.bind_some,
          Nat.ofDigitChars_ten_toDigits]
        rfl
      show (readPower ('-' :: (Nat.toDigits 10 (k + 1) ++ rest))).map _ = _
      rw [hpower]
      rfl

/-- A fraction is read back. If there is none, no point must follow. -/
theorem readFraction_fractionText {fraction rest : List Char} (hdigits : ∀ c ∈ fraction, c.isDigit)
    (hdigit : StartsWithout Char.isDigit rest) (hpoint : StartsWithout (· == '.') rest) :
    readFraction (fractionText fraction ++ rest) = some (fraction, rest) := by
  cases fraction with
  | nil =>
    refine readFraction.eq_2 rest fun tail htail => ?_
    subst htail
    exact absurd (hpoint _ rfl) (by decide)
  | cons c fraction => exact readDigits_append (List.cons_ne_nil c fraction) hdigits hdigit

/-- A power of ten begins with no digit and no point. -/
theorem startsWithout_exponentText {P : Char → Bool} (hP : P 'e' = false) (exponent : Option Int)
    {rest : List Char} (hrest : StartsWithout P rest) :
    StartsWithout P (exponentText exponent ++ rest) := by
  rcases exponent with _ | k | k
  · exact hrest
  · exact startsWithout_cons hP _
  · exact startsWithout_cons hP _

/-- A fraction begins with its point. -/
theorem startsWithout_fractionText {P : Char → Bool} (hP : P '.' = false) (fraction : List Char)
    {rest : List Char} (hrest : StartsWithout P rest) :
    StartsWithout P (fractionText fraction ++ rest) := by
  cases fraction with
  | nil => exact hrest
  | cons c fraction => exact startsWithout_cons hP _

/-- Read a number literal behind its sign. -/
def readUnsigned (negative : Bool) (text : List Char) : Option (NumberLiteral × List Char) := do
  let (whole, rest) ← readWhole text
  let (fraction, rest) ← readFraction rest
  let (exponent, rest) ← readExponent rest
  return (⟨negative, whole, fraction, exponent⟩, rest)

/-- A minus sign makes the number behind it negative. -/
theorem readNumber_minus (text : List Char) : readNumber ('-' :: text) = readUnsigned true text :=
  rfl

/-- Without a minus sign a number is not negative. -/
theorem readNumber_of_ne {text : List Char} (h : ∀ tail, text ≠ '-' :: tail) :
    readNumber text = readUnsigned false text := by
  cases text with
  | nil => rfl
  | cons c text =>
    unfold readNumber
    split
    next heq =>
      split at heq
      next htext => exact absurd htext (h _)
      next =>
        cases heq
        rfl

/-- A number literal is read back with all its digits if nothing follows that it would go on
with. -/
theorem readNumber_text {literal : NumberLiteral} (hdigits : literal.HasDigits) {rest : List Char}
    (hrest : StartsWithout continuesNumber rest) :
    readNumber (literal.text ++ rest) = some (literal, rest) := by
  obtain ⟨negative, whole, fraction, exponent⟩ := literal
  have hdigit : StartsWithout Char.isDigit (exponentText exponent ++ rest) :=
    startsWithout_exponentText (by decide) exponent
      (hrest.mono fun c hc => by simp [continuesNumber, hc])
  have hpoint : StartsWithout (· == '.') (exponentText exponent ++ rest) :=
    startsWithout_exponentText (by decide) exponent
      (hrest.mono fun c hc => by simp_all [continuesNumber])
  -- The parts are read one after the other, each up to the beginning of the next one.
  have hwhole := readWhole_toDigits whole (startsWithout_fractionText (by decide) fraction hdigit)
  have hfraction : readFraction (fractionText fraction ++ (exponentText exponent ++ rest)) = _ :=
    readFraction_fractionText hdigits hdigit hpoint
  have hexponent := readExponent_exponentText exponent hrest
  have hunsigned : ∀ negative, readUnsigned negative (Nat.toDigits 10 whole ++
      (fractionText fraction ++ (exponentText exponent ++ rest))) =
        some (⟨negative, whole, fraction, exponent⟩, rest) := by
    intro negative
    simp only [readUnsigned, hwhole, hfraction, hexponent, Option.bind_eq_bind, Option.bind_some]
    rfl
  rw [text_eq]
  simp only [List.append_assoc]
  cases negative with
  | true => exact (readNumber_minus _).trans (hunsigned true)
  | false =>
    -- A digit stands where a sign might be.
    refine (readNumber_of_ne fun tail heq => ?_).trans (hunsigned false)
    obtain ⟨c, digits, hcons⟩ := List.exists_cons_of_ne_nil
      (Nat.toDigits_ne_nil (n := whole) (b := 10))
    have hc : c.isDigit := Decimal.isDigit_of_mem_toDigits c (hcons ▸ List.mem_cons_self)
    simp only [hcons, Bool.false_eq_true, ↓reduceIte, List.nil_append, List.cons_append,
      List.cons.injEq] at heq
    rw [heq.1] at hc
    exact absurd hc (by decide)

end MetricFormula.Json
