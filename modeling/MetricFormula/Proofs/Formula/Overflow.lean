import MetricFormula.Proofs.Calculation.Leaves
import MetricFormula.Proofs.Calculation.Wire
import MetricFormula.Proofs.Expression.Splitting
import MetricFormula.Proofs.Formula.Compiling
import MetricFormula.Proofs.Number.Overflow

/-!
# Formulas with numbers that overflow

Scanning takes a number for the nearest value, and a number that is too large for infinity. No rule
of a formula speaks of that, so a formula with such a number is valid, while its calculation cannot
be written. There is no other way to an infinite constant: negation is a product with minus one, and
nothing is calculated.

## Main definitions

* `Formula.Overflows`: a number of the formula is too large for a finite value.

## Main results

* `Formula.isFinite_or_eq_infinity_of_compile`: the constants of a formula that compiles;
* `Formula.infinity_mem_constants`: an infinity that is scanned is one of them;
* `Formula.not_overflows_of_countP`: formulas with few digits.
-/

namespace MetricFormula

namespace Formula

/-- A number of the formula is too large for a finite value. -/
def Overflows (formula : List Char) : Prop :=
  ∃ words, Lexeme.scan (formula.filter (!isBrace ·)) = .ok words ∧
    ∃ d : Decimal, d.Overflows ∧ .number (.ofDecimal false d) ∈ words

variable {policy : UnknownFunctions} {formula : List Char} {t : Calculation}

/-- A number that overflows is scanned as infinity. -/
theorem overflows_iff :
    Overflows formula ↔ ∃ words, Lexeme.scan (formula.filter (!isBrace ·)) = .ok words ∧
      .number (.infinity false) ∈ words := by
  refine exists_congr fun words => and_congr_right fun hscan => ⟨?_, fun hmem => ?_⟩
  · rintro ⟨d, hoverflows, hmem⟩
    rwa [(Binary64.ofDecimal_eq_infinity_iff false d).2 hoverflows] at hmem
  · obtain ⟨d, hd⟩ := Lexeme.isScanned_of_scan hscan _ hmem
    exact ⟨d, (Binary64.ofDecimal_eq_infinity_iff false d).1 hd.symm, hd ▸ hmem⟩

/-- A formula with at most 308 digits has no number that overflows. -/
theorem not_overflows_of_countP (h : formula.countP Char.isDigit ≤ 308) :
    ¬Overflows formula := by
  rintro ⟨words, hscan, d, hoverflows, hmem⟩
  obtain ⟨run, d', hpart, hread, heq⟩ :=
    (Lexeme.splits_of_scan hscan).exists_infix_of_number_mem hmem
  -- The digits in front of the point are some of all digits.
  have hlength : (run.takeWhile Char.isDigit).length ≤ 308 := by
    have hsublist := (List.takeWhile_sublist Char.isDigit).trans
      (hpart.sublist.trans List.filter_sublist)
    have hdigits : ∀ c ∈ run.takeWhile Char.isDigit, c.isDigit :=
      List.all_eq_true.1 List.all_takeWhile
    rw [← List.countP_eq_length.2 hdigits]
    exact Nat.le_trans hsublist.countP_le h
  have hinfinity := (Binary64.ofDecimal_eq_infinity_iff false d).2 hoverflows
  rw [heq, Binary64.ofDecimal_eq_infinity_iff] at hinfinity
  exact Decimal.not_overflows_of_ofPositional? hread hlength hinfinity

/-- The constants of a formula that compiles are finite, or infinite because of a number that
overflows. -/
theorem isFinite_or_eq_infinity_of_compile (h : compile policy formula = .ok t) :
    ∀ value ∈ t.constants, value.isFinite ∨ value = .infinity false ∧ Overflows formula := by
  intro value hvalue
  obtain ⟨words, e, hscan, hspells, hbuild⟩ := exists_spells_of_compile h
  have hleaf := Calculation.leaves_subset_of_ofExpression hbuild
    (Calculation.mem_constants_iff.1 hvalue)
  rcases List.mem_cons.1 hleaf with heq | hleaf
  · -- The minus one of a negation is finite.
    rw [Lexeme.number.inj heq, Binary64.ofInt_neg_one]
    exact .inl rfl
  · have hmem : .number value ∈ words := hspells.number_mem_iff.2 (by simpa using hleaf)
    obtain ⟨d, hd⟩ := Lexeme.isScanned_of_scan hscan _ hmem
    rw [hd] at hmem ⊢
    by_cases hoverflows : d.Overflows
    · exact .inr ⟨(Binary64.ofDecimal_eq_infinity_iff false d).2 hoverflows,
        words, hscan, d, hoverflows, hmem⟩
    · exact .inl ((Binary64.isFinite_ofDecimal_iff false d).2 hoverflows)

/-- A number that overflows becomes an infinite constant, unless it is left out together with a call
without meaning. -/
theorem infinity_mem_constants (h : compile policy formula = .ok t)
    (hplaceholder : t.hasPlaceholder = false) (hoverflows : Overflows formula) :
    .infinity false ∈ t.constants := by
  obtain ⟨words, e, hscan, hspells, hbuild⟩ := exists_spells_of_compile h
  obtain ⟨words', hscan', hmem⟩ := overflows_iff.1 hoverflows
  obtain rfl := Except.ok.inj (hscan.symm.trans hscan')
  have hleaf : .number (.infinity false) ∈ e.leaves := by
    simpa using hspells.number_mem_iff.1 hmem
  have hmeans := Calculation.means_of_ofExpression hbuild (.inr hplaceholder)
  exact Calculation.mem_constants_iff.2 (hmeans.leaves_subset hleaf)

/-- An infinite constant comes from a number that overflows. -/
theorem overflows_of_infinity_mem (h : compile policy formula = .ok t)
    (hmem : .infinity false ∈ t.constants) : Overflows formula :=
  ((isFinite_or_eq_infinity_of_compile h _ hmem).resolve_left nofun).2

/-- The calculation of a formula is written unless it has an infinite constant. -/
theorem exists_toDocument_of_notMem (h : compile policy formula = .ok t)
    (hmem : .infinity false ∉ t.constants) : ∃ document, t.toDocument = .ok document := by
  refine Calculation.exists_toDocument fun value hvalue => ?_
  refine (isFinite_or_eq_infinity_of_compile h value hvalue).resolve_right ?_
  rintro ⟨rfl, -⟩
  exact hmem hvalue

/-- A calculation with an infinite constant is refused for being infinite. -/
theorem toDocument_of_infinity_mem (h : compile policy formula = .ok t)
    (hmem : .infinity false ∈ t.constants) :
    t.toDocument = .error (.nonFinite (.infinity false)) := by
  rcases hdocument : t.toDocument with error | document
  · obtain ⟨value, hvalue, hinfinite, rfl⟩ :=
      Calculation.exists_mem_constants_of_toDocument hdocument
    rcases isFinite_or_eq_infinity_of_compile h value hvalue with hfinite | ⟨rfl, -⟩
    · rw [hinfinite] at hfinite
      cases hfinite
    · rfl
  · cases Calculation.isFinite_of_toDocument hdocument _ hmem

end Formula

end MetricFormula
