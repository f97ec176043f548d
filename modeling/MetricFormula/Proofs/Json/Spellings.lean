import MetricFormula.Proofs.Json.Literals
import MetricFormula.Proofs.Text.Lines

/-!
# Spellings of literals

Strings and numbers can be written in many ways: with escapes or without, with leading zeros in a
power of ten, and so on. Whichever way it is, reading takes a part without control characters from
the text, and which value it gets does not depend on what stands behind that part, except that a
number must not go on there. What is printed for a literal is one of these ways.

## Main definitions

* `IsPlain`: there are no control characters in the text;
* `Takes`: a reader gets a value from a part of the text, whatever stands behind it.

## Main results

* `IsPlain.isLine`: a text without control characters is a line;
* `takes_stringLiteral`, `takes_text`: what reading a printed literal takes;
* `exists_takes_readString`, `exists_takes_readNumber`: what reading any literal takes.
-/

namespace MetricFormula.Json

/-! ## Texts without control characters -/

/-- There are no control characters in the text. -/
def IsPlain (text : List Char) : Prop :=
  ∀ c ∈ text, 0x20 ≤ c.toNat

instance (text : List Char) : Decidable (IsPlain text) :=
  decidable_of_iff (text.all fun c => decide (0x20 ≤ c.toNat)) (by simp [IsPlain])

theorem isPlain_nil : IsPlain [] :=
  List.forall_mem_nil _

/-- A text has no control characters if its parts have none. -/
theorem isPlain_append {u v : List Char} : IsPlain (u ++ v) ↔ IsPlain u ∧ IsPlain v :=
  List.forall_mem_append

/-- A text has no control characters if neither its first character is one nor any other. -/
theorem isPlain_cons {c : Char} {text : List Char} :
    IsPlain (c :: text) ↔ 0x20 ≤ c.toNat ∧ IsPlain text :=
  List.forall_mem_cons

/-- A text between two characters. -/
theorem isPlain_enclosed {text : List Char} (h : IsPlain text) {first last : Char}
    (hfirst : 0x20 ≤ first.toNat) (hlast : 0x20 ≤ last.toNat) :
    IsPlain (first :: text ++ [last]) :=
  isPlain_cons.2 ⟨hfirst, isPlain_append.2 ⟨h, List.forall_mem_singleton.2 hlast⟩⟩

/-- Line ends are control characters. -/
theorem IsPlain.isLine {text : List Char} (h : IsPlain text) : Text.IsLine text :=
  ⟨fun hmem => absurd (h _ hmem) (by decide), fun hmem => absurd (h _ hmem) (by decide)⟩

/-! ## Printed literals -/

/-- Control characters are escaped by others. -/
theorem isPlain_escape (c : Char) : IsPlain (escape c) := by
  have hhex : ∀ n ∈ List.range 0x20, IsPlain ('\\' :: 'u' :: hexDigits n) := by
    decide
  unfold escape
  iterate 7
    split
    · decide
  split
  next hcontrol => exact hhex _ (List.mem_range.2 hcontrol)
  next hplain => exact List.forall_mem_singleton.2 (Nat.not_lt.1 hplain)

/-- The literal of a string has no control characters, whatever the string says. -/
theorem isPlain_stringLiteral (value : Option String) : IsPlain (stringLiteral value) := by
  cases value with
  | none => decide
  | some text =>
    refine isPlain_enclosed (fun c hc => ?_) (by decide) (by decide)
    obtain ⟨d, -, hd⟩ := List.mem_flatMap.1 hc
    exact isPlain_escape d c hd

/-- Digits are no control characters. -/
theorem isPlain_of_digits {digits : List Char} (h : ∀ c ∈ digits, c.isDigit) : IsPlain digits := by
  intro c hc
  have hbounds := Char.isDigit_iff_toNat.1 (h c hc)
  have hzero : '0'.toNat = 0x30 := rfl
  omega

theorem isPlain_toDigits (n : Nat) : IsPlain (Nat.toDigits 10 n) :=
  isPlain_of_digits Decimal.isDigit_of_mem_toDigits

/-- A fraction is written as a point and digits. -/
theorem isPlain_fractionText {fraction : List Char} (h : ∀ c ∈ fraction, c.isDigit) :
    IsPlain (NumberLiteral.fractionText fraction) := by
  rw [NumberLiteral.fractionText]
  split
  · exact isPlain_nil
  · exact isPlain_cons.2 ⟨by decide, isPlain_of_digits h⟩

/-- A number is written with digits, signs, a point and the letter of its power. -/
theorem isPlain_text {literal : NumberLiteral} (h : literal.HasDigits) : IsPlain literal.text := by
  rw [NumberLiteral.text_eq]
  -- What is left are the sign and the power.
  refine isPlain_append.2 ⟨?_, isPlain_append.2 ⟨isPlain_toDigits _,
    isPlain_append.2 ⟨isPlain_fractionText h, ?_⟩⟩⟩
  · cases literal.negative
    · exact isPlain_nil
    · exact List.forall_mem_singleton.2 (by decide)
  · rcases literal.exponent with _ | power | power
    · exact isPlain_nil
    · exact isPlain_cons.2 ⟨by decide, isPlain_cons.2 ⟨by decide, isPlain_toDigits _⟩⟩
    · exact isPlain_cons.2 ⟨by decide, isPlain_cons.2 ⟨by decide, isPlain_toDigits _⟩⟩

/-- A number begins with a minus sign or a digit. -/
theorem exists_text_eq_cons (literal : NumberLiteral) :
    ∃ c rest, literal.text = c :: rest ∧ (c = '-' ∨ c.isDigit) := by
  obtain ⟨c, digits, hdigits⟩ := List.exists_cons_of_ne_nil
    (Nat.toDigits_ne_nil (n := literal.whole) (b := 10))
  have hc : c.isDigit := Decimal.isDigit_of_mem_toDigits c (hdigits ▸ List.mem_cons_self)
  rw [NumberLiteral.text_eq, hdigits]
  cases literal.negative with
  | true => exact ⟨'-', _, rfl, .inl rfl⟩
  | false => exact ⟨c, _, rfl, .inr hc⟩

/-! ## Parts that are read -/

/-- The reader gets the value from the part, which has no control characters, and leaves what stands
behind it, if that does not begin with a character of the class. -/
structure Takes {α : Type} (read : List Char → Option (α × List Char)) (P : Char → Bool)
    (part : List Char) (value : α) : Prop where
  /-- There are no control characters in the part. -/
  isPlain : IsPlain part
  /-- The reader leaves the rest. -/
  read_append : ∀ rest, StartsWithout P rest → read (part ++ rest) = some (value, rest)

/-- What is printed for a string is read as the string. -/
theorem takes_stringLiteral (value : Option String) :
    ∃ body, stringLiteral value = '"' :: body ∧
      Takes readString (fun _ => false) body value := by
  obtain ⟨body, hbody, -⟩ := readString_stringLiteral value []
  have hplain := isPlain_stringLiteral value
  rw [hbody] at hplain
  refine ⟨body, hbody, (isPlain_cons.1 hplain).2, fun rest _ => ?_⟩
  obtain ⟨body', hbody', hread⟩ := readString_stringLiteral value rest
  rwa [← (List.cons.inj (hbody.symm.trans hbody')).2] at hread

/-- What is printed for a number is read as the number. -/
theorem takes_text {literal : NumberLiteral} (h : literal.HasDigits) :
    Takes readNumber continuesNumber literal.text literal :=
  ⟨isPlain_text h, fun _ hrest => readNumber_text h hrest⟩

/-! ## Reading strings -/

section Strings

variable {text rest : List Char} {parts : List StringPart}

/-- Hexadecimal digits are no control characters. -/
theorem isPlain_of_hexValue? {c : Char} {n : Nat} (h : hexValue? c = some n) : 0x20 ≤ c.toNat := by
  unfold hexValue? at h
  split at h
  next hdigit => exact isPlain_of_digits (List.forall_mem_singleton.2 hdigit) c List.mem_cons_self
  split at h
  next hlower => exact Nat.le_trans (by decide) hlower.1
  split at h
  next hupper => exact Nat.le_trans (by decide) hupper.1
  next => cases h

/-- A code is written with four hexadecimal digits. -/
theorem isPlain_of_hexPart? {a b c d : Char} {part : StringPart}
    (h : hexPart? a b c d = some part) : IsPlain [a, b, c, d] := by
  unfold hexPart? at h
  obtain ⟨_, ha, h⟩ := Option.bind_eq_some_iff.1 h
  obtain ⟨_, hb, h⟩ := Option.bind_eq_some_iff.1 h
  obtain ⟨_, hc, h⟩ := Option.bind_eq_some_iff.1 h
  obtain ⟨_, hd, -⟩ := Option.bind_eq_some_iff.1 h
  simp only [IsPlain, List.forall_mem_cons]
  exact ⟨isPlain_of_hexValue? ha, isPlain_of_hexValue? hb, isPlain_of_hexValue? hc,
    isPlain_of_hexValue? hd, List.forall_mem_nil _⟩

/-- The letters of escapes are no control characters. -/
theorem isPlain_of_letterEscape? {letter c : Char} (h : letterEscape? letter = some c) :
    0x20 ≤ letter.toNat := by
  unfold letterEscape? at h
  split at h <;> first | decide | cases h

/-- Reading takes a string literal up to and with the closing quote. -/
theorem exists_takes_readParts (h : readParts text = some (parts, rest)) :
    ∃ part, text = part ++ rest ∧ Takes readParts (fun _ => false) part parts := by
  fun_induction readParts text generalizing parts with
  | case1 => cases h
  | case2 =>
    -- The closing quote.
    cases h
    exact ⟨['"'], rfl, by decide, fun rest _ => readParts.eq_2 rest⟩
  | case3 a b c d tail ih =>
    -- The code of a character or of a surrogate.
    obtain ⟨first, hfirst, h⟩ := Option.bind_eq_some_iff.1 h
    obtain ⟨⟨others, last⟩, hothers, h⟩ := Option.bind_eq_some_iff.1 h
    cases h
    obtain ⟨part, rfl, hpart⟩ := ih hothers
    have hplain := isPlain_append.2 ⟨isPlain_of_hexPart? hfirst, hpart.isPlain⟩
    refine ⟨'\\' :: 'u' :: ([a, b, c, d] ++ part), rfl,
      isPlain_cons.2 ⟨by decide, isPlain_cons.2 ⟨by decide, hplain⟩⟩, fun rest hrest => ?_⟩
    rw [List.cons_append, List.cons_append, List.append_assoc]
    exact readParts_digits hfirst (hpart.read_append rest hrest)
  | case4 letter tail _ ih =>
    -- An escape of one letter, which is not that of a code.
    obtain ⟨c, hc, h⟩ := Option.bind_eq_some_iff.1 h
    obtain ⟨⟨others, last⟩, hothers, h⟩ := Option.bind_eq_some_iff.1 h
    cases h
    obtain ⟨part, rfl, hpart⟩ := ih hothers
    have hletter : letter ≠ 'u' := by
      rintro rfl
      cases hc
    refine ⟨'\\' :: letter :: part, rfl,
      isPlain_cons.2 ⟨by decide, isPlain_cons.2 ⟨isPlain_of_letterEscape? hc, hpart.isPlain⟩⟩,
      fun rest hrest => readParts_letter hletter hc (hpart.read_append rest hrest)⟩
  | case5 => cases h
  | case6 c tail hquote _ _ hplain ih =>
    -- A character as itself.
    obtain ⟨⟨others, last⟩, hothers, h⟩ := Option.bind_eq_some_iff.1 h
    cases h
    obtain ⟨part, rfl, hpart⟩ := ih hothers
    obtain ⟨hcontrol, hbackslash⟩ := not_or.1 hplain
    exact ⟨c :: part, rfl, isPlain_cons.2 ⟨Nat.not_lt.1 hcontrol, hpart.isPlain⟩,
      fun rest hrest => readParts_plain hquote hbackslash (Nat.not_lt.1 hcontrol)
        (hpart.read_append rest hrest)⟩

/-- Reading takes a string, and its value depends on the part up to the closing quote alone. -/
theorem exists_takes_readString {value : Option String}
    (h : readString text = some (value, rest)) :
    ∃ part, text = part ++ rest ∧ Takes readString (fun _ => false) part value := by
  obtain ⟨⟨parts, last⟩, hparts, h⟩ := Option.bind_eq_some_iff.1 h
  cases h
  obtain ⟨part, rfl, hpart⟩ := exists_takes_readParts hparts
  refine ⟨part, rfl, hpart.isPlain, fun rest hrest => ?_⟩
  rw [readString, hpart.read_append rest hrest]
  rfl

end Strings

/-! ## Reading numbers -/

section Numbers

variable {text rest : List Char}

/-- Reading takes a run of digits. -/
theorem readDigits_cases {digits : List Char} (h : readDigits text = some (digits, rest)) :
    text = digits ++ rest ∧ digits ≠ [] ∧ ∀ c ∈ digits, c.isDigit := by
  unfold readDigits at h
  dsimp only at h
  split at h
  next => cases h
  next hne =>
    cases h
    exact ⟨List.takeWhile_append_dropWhile.symm, by simpa using hne,
      List.all_eq_true.1 List.all_takeWhile⟩

/-- Digits are taken as a whole where no digit follows. -/
theorem takes_readDigits {digits : List Char} (hne : digits ≠ []) (h : ∀ c ∈ digits, c.isDigit) :
    Takes readDigits Char.isDigit digits digits :=
  ⟨isPlain_of_digits h, fun _ hrest => readDigits_append hne h hrest⟩

/-- Reading takes an integer part, which begins with a digit. -/
theorem exists_takes_readWhole {n : Nat} (h : readWhole text = some (n, rest)) :
    ∃ c part, text = c :: part ++ rest ∧ c.isDigit ∧
      Takes readWhole Char.isDigit (c :: part) n := by
  obtain ⟨⟨digits, last⟩, hdigits, h⟩ := Option.bind_eq_some_iff.1 h
  dsimp only at h
  split at h
  next => cases h
  next hzero =>
    -- Whether there is a zero in front does not depend on what stands behind the digits.
    cases h
    obtain ⟨rfl, hne, hall⟩ := readDigits_cases hdigits
    have htakes := takes_readDigits hne hall
    obtain ⟨c, part, rfl⟩ := List.exists_cons_of_ne_nil hne
    refine ⟨c, part, rfl, hall c List.mem_cons_self, htakes.isPlain, fun rest hrest => ?_⟩
    rw [readWhole, htakes.read_append rest hrest]
    exact if_neg hzero

/-- Reading takes the decimal point and the digits behind it. -/
theorem readFraction_cases {fraction : List Char} (h : readFraction text = some (fraction, rest)) :
    text = NumberLiteral.fractionText fraction ++ rest ∧ ∀ c ∈ fraction, c.isDigit := by
  unfold readFraction at h
  split at h
  next tail =>
    obtain ⟨rfl, hne, hall⟩ := readDigits_cases h
    obtain ⟨c, part, rfl⟩ := List.exists_cons_of_ne_nil hne
    exact ⟨rfl, hall⟩
  next =>
    cases h
    exact ⟨rfl, List.forall_mem_nil _⟩

/-- Read the digits of a power of ten, whose sign comes first. -/
def readPowerDigits (negative : Bool) (text : List Char) : Option (Int × List Char) := do
  let (digits, rest) ← readDigits text
  let n : Int := Nat.ofDigitChars 10 digits 0
  return (if negative then -n else n, rest)

/-- A minus sign makes the power behind it negative. -/
theorem readPower_minus (text : List Char) : readPower ('-' :: text) = readPowerDigits true text :=
  rfl

/-- A plus sign may stand in front of a power. -/
theorem readPower_plus (text : List Char) : readPower ('+' :: text) = readPowerDigits false text :=
  rfl

/-- A power may stand without a sign. -/
theorem readPower_of_ne {text : List Char} (hminus : ∀ tail, text ≠ '-' :: tail)
    (hplus : ∀ tail, text ≠ '+' :: tail) : readPower text = readPowerDigits false text := by
  unfold readPower
  split
  next heq =>
    split at heq
    next => exact absurd rfl (hminus _)
    next => exact absurd rfl (hplus _)
    next =>
      cases heq
      rfl

/-- Behind its sign, a power is taken up to its last digit. -/
theorem exists_takes_readPowerDigits {negative : Bool} {n : Int}
    (h : readPowerDigits negative text = some (n, rest)) :
    ∃ c part, text = c :: part ++ rest ∧ c.isDigit ∧
      Takes (readPowerDigits negative) Char.isDigit (c :: part) n := by
  obtain ⟨⟨digits, last⟩, hdigits, h⟩ := Option.bind_eq_some_iff.1 h
  cases h
  obtain ⟨rfl, hne, hall⟩ := readDigits_cases hdigits
  have htakes := takes_readDigits hne hall
  obtain ⟨c, part, rfl⟩ := List.exists_cons_of_ne_nil hne
  refine ⟨c, part, rfl, hall c List.mem_cons_self, htakes.isPlain, fun rest hrest => ?_⟩
  rw [readPowerDigits, htakes.read_append rest hrest]
  rfl

/-- What begins with a digit begins with no sign. -/
theorem ne_cons_of_isDigit {c d : Char} (hc : c.isDigit) (hd : d.isDigit = false)
    (part tail : List Char) : c :: part ≠ d :: tail := by
  intro heq
  rw [(List.cons.inj heq).1, hd] at hc
  cases hc

/-- Reading takes a power with its sign, if it has one. -/
theorem exists_takes_readPower {n : Int} (h : readPower text = some (n, rest)) :
    ∃ part, text = part ++ rest ∧ Takes readPower Char.isDigit part n := by
  -- There may be a sign.
  by_cases hminus : ∃ tail, text = '-' :: tail
  · obtain ⟨tail, rfl⟩ := hminus
    rw [readPower_minus] at h
    obtain ⟨c, part, rfl, -, hpart⟩ := exists_takes_readPowerDigits h
    exact ⟨'-' :: c :: part, rfl, isPlain_cons.2 ⟨by decide, hpart.isPlain⟩,
      fun rest hrest => (readPower_minus _).trans (hpart.read_append rest hrest)⟩
  by_cases hplus : ∃ tail, text = '+' :: tail
  · obtain ⟨tail, rfl⟩ := hplus
    rw [readPower_plus] at h
    obtain ⟨c, part, rfl, -, hpart⟩ := exists_takes_readPowerDigits h
    exact ⟨'+' :: c :: part, rfl, isPlain_cons.2 ⟨by decide, hpart.isPlain⟩,
      fun rest hrest => (readPower_plus _).trans (hpart.read_append rest hrest)⟩
  rw [readPower_of_ne (not_exists.1 hminus) (not_exists.1 hplus)] at h
  obtain ⟨c, part, rfl, hc, hpart⟩ := exists_takes_readPowerDigits h
  refine ⟨c :: part, rfl, hpart.isPlain, fun rest hrest => ?_⟩
  rw [List.cons_append, readPower_of_ne (ne_cons_of_isDigit hc (by decide) _)
    (ne_cons_of_isDigit hc (by decide) _)]
  exact hpart.read_append rest hrest

/-- Reading takes a power of ten, behind which no number goes on. -/
theorem exists_takes_readExponent {exponent : Option Int}
    (h : readExponent text = some (exponent, rest)) :
    ∃ part, text = part ++ rest ∧ Takes readExponent continuesNumber part exponent ∧
      (part = [] ∨ ∃ c tail, part = c :: tail ∧ (c = 'e' ∨ c = 'E')) := by
  have hdigit : ∀ {rest}, StartsWithout continuesNumber rest → StartsWithout Char.isDigit rest :=
    fun hrest => hrest.mono fun c hc => by simp [continuesNumber, hc]
  unfold readExponent at h
  split at h
  next tail =>
    obtain ⟨⟨power, last⟩, hpower, heq⟩ := Option.map_eq_some_iff.1 h
    cases heq
    obtain ⟨part, rfl, hpart⟩ := exists_takes_readPower hpower
    refine ⟨'e' :: part, rfl, ⟨isPlain_cons.2 ⟨by decide, hpart.isPlain⟩, fun rest hrest => ?_⟩,
      .inr ⟨'e', part, rfl, .inl rfl⟩⟩
    rw [List.cons_append, readExponent, hpart.read_append rest (hdigit hrest), Option.map_some]
  next tail =>
    obtain ⟨⟨power, last⟩, hpower, heq⟩ := Option.map_eq_some_iff.1 h
    cases heq
    obtain ⟨part, rfl, hpart⟩ := exists_takes_readPower hpower
    refine ⟨'E' :: part, rfl, ⟨isPlain_cons.2 ⟨by decide, hpart.isPlain⟩, fun rest hrest => ?_⟩,
      .inr ⟨'E', part, rfl, .inr rfl⟩⟩
    rw [List.cons_append, readExponent, hpart.read_append rest (hdigit hrest), Option.map_some]
  next =>
    cases h
    exact ⟨[], rfl, ⟨isPlain_nil, fun rest hrest => readExponent_exponentText none hrest⟩, .inl rfl⟩

/-- Behind its sign, a number is taken part by part, each of which ends where the next begins. -/
theorem exists_takes_readUnsigned {negative : Bool} {literal : NumberLiteral}
    (h : readUnsigned negative text = some (literal, rest)) :
    ∃ c part, text = c :: part ++ rest ∧ c.isDigit ∧
      Takes (readUnsigned negative) continuesNumber (c :: part) literal := by
  obtain ⟨⟨n, afterWhole⟩, hreadWhole, h⟩ := Option.bind_eq_some_iff.1 h
  obtain ⟨⟨fraction, afterFraction⟩, hfraction, h⟩ := Option.bind_eq_some_iff.1 h
  obtain ⟨⟨exponent, last⟩, hexponent, h⟩ := Option.bind_eq_some_iff.1 h
  cases h
  obtain ⟨c, whole, rfl, hc, hwhole⟩ := exists_takes_readWhole hreadWhole
  obtain ⟨rfl, hdigits⟩ := readFraction_cases hfraction
  obtain ⟨power, rfl, hpower, hbegin⟩ := exists_takes_readExponent hexponent
  refine ⟨c, whole ++ (NumberLiteral.fractionText fraction ++ power), ?_, hc, ?_, ?_⟩
  · simp only [List.cons_append, List.append_assoc]
  · rw [← List.cons_append, isPlain_append, isPlain_append]
    exact ⟨hwhole.isPlain, isPlain_fractionText hdigits, hpower.isPlain⟩
  intro rest hrest
  -- What stands behind a part begins with the mark of a later part or with the rest.
  have hlater : ∀ {P : Char → Bool}, P 'e' = false → P 'E' = false →
      (∀ c, P c → continuesNumber c) → StartsWithout P (power ++ rest) := by
    intro P hlower hupper hP
    rcases hbegin with rfl | ⟨c, tail, rfl, rfl | rfl⟩
    · exact hrest.mono hP
    · exact startsWithout_cons hlower _
    · exact startsWithout_cons hupper _
  have hdigit : StartsWithout Char.isDigit (power ++ rest) :=
    hlater (by decide) (by decide) fun c hc => by simp [continuesNumber, hc]
  have hpoint : StartsWithout (· == '.') (power ++ rest) :=
    hlater (by decide) (by decide) fun c hc => by simp_all [continuesNumber]
  have hread := hwhole.read_append _ (startsWithout_fractionText (by decide) fraction hdigit)
  have hassoc : c :: (whole ++ (NumberLiteral.fractionText fraction ++ power)) ++ rest =
      c :: whole ++ (NumberLiteral.fractionText fraction ++ (power ++ rest)) := by
    simp only [List.cons_append, List.append_assoc]
  rw [readUnsigned, hassoc, hread]
  simp only [Option.bind_eq_bind, Option.bind_some,
    readFraction_fractionText hdigits hdigit hpoint, hpower.read_append rest hrest]
  rfl

/-- Reading takes a number, which begins with a minus sign or a digit. -/
theorem exists_takes_readNumber {literal : NumberLiteral}
    (h : readNumber text = some (literal, rest)) :
    ∃ c part, text = c :: part ++ rest ∧ (c = '-' ∨ c.isDigit) ∧
      Takes readNumber continuesNumber (c :: part) literal := by
  by_cases hminus : ∃ tail, text = '-' :: tail
  · obtain ⟨tail, rfl⟩ := hminus
    rw [readNumber_minus] at h
    obtain ⟨c, part, rfl, -, hpart⟩ := exists_takes_readUnsigned h
    exact ⟨'-', c :: part, rfl, .inl rfl, isPlain_cons.2 ⟨by decide, hpart.isPlain⟩,
      fun rest hrest => (readNumber_minus _).trans (hpart.read_append rest hrest)⟩
  rw [readNumber_of_ne (not_exists.1 hminus)] at h
  obtain ⟨c, part, rfl, hc, hpart⟩ := exists_takes_readUnsigned h
  refine ⟨c, part, rfl, .inr hc, hpart.isPlain, fun rest hrest => ?_⟩
  rw [List.cons_append, readNumber_of_ne (ne_cons_of_isDigit hc (by decide) _)]
  exact hpart.read_append rest hrest

end Numbers

end MetricFormula.Json
