import MetricFormula.Proofs.Command.Format
import MetricFormula.Proofs.Formula.Reformatting

/-!
# Formatting what is received

A calculation in JSON may name its metrics by any text, and formatting writes such a text between
braces as it is. An id that is an identifier comes back from the formula. Any other id is taken
apart there: blanks and braces around it are lost, and signs, parentheses and commas in it become
parts of the formula, which may be well formed and mean something else. So what is received and what
its formula means are the same calculation, up to the sign of constants, exactly if all of its ids
are identifiers.

## Main results

* `Calculation.eq_normalized_iff`: when a formula means the calculation that it was written for;
* `Command.runFormat_of_received`: the formula that is printed for what is received;
* `Command.runFormat_of_call_in_id`: an id that is no identifier.
-/

namespace MetricFormula

namespace Calculation

variable {t : Calculation}

/-- What the formula of a calculation means is the normal form of the calculation exactly if all
metric ids are identifiers. -/
theorem eq_normalized_iff (hplaceholder : t.hasPlaceholder = false) {policy : UnknownFunctions}
    {e : Expression} {t' : Calculation} (hparse : Formula.parse t.formula = .ok e)
    (hbuild : ofExpression policy e = .ok t') :
    t' = t.normalized ↔ ∀ id ∈ t.metricIds, Text.isIdentifier id.toList := by
  constructor
  · rintro rfl
    -- The metrics of what is parsed are names of the text, and names are identifiers.
    have hmeans : e.Means t.normalized :=
      ofExpression_eq_ok_iff.1 ⟨hbuild, (hasPlaceholder_normalized t).trans hplaceholder⟩
    intro id hid
    have hname := t.metricIds_subset_normalized hid
    rw [hmeans.metricIds_eq, Expression.mem_names_iff] at hname
    exact Formula.isScanned_of_parse hparse _ hname
  · intro hids
    obtain ⟨words, e', -, hnormalized, hwithin, hbeyond⟩ :=
      exists_parse_formula t hplaceholder hids
    by_cases hlimits : Lexeme.IsWithinLimits words
    · obtain rfl : e = e' := Except.ok.inj (hparse.symm.trans (hwithin hlimits))
      exact Except.ok.inj (hbuild.symm.trans (hnormalized policy))
    · -- Beyond the limits the formula would not parse.
      obtain ⟨error, herror⟩ := hbeyond hlimits
      cases hparse.symm.trans herror

end Calculation

namespace Command

/-- Formatting prints the formula of whatever is received, which has no placeholders and only finite
constants. If the formula parses and has a calculation, then this is the normal form of what was
received exactly if all metric ids are identifiers, and with such ids the formula parses and has a
calculation within the limits of parsing. -/
theorem runFormat_of_received {text : List Char} {t : Calculation}
    (hread : Calculation.ofJson? text = some t) :
    (∀ input argument, readArgument input argument = .ok text →
      runFormat input argument = .ok (outputLine t.formula)) ∧
    t.hasPlaceholder = false ∧ (∀ value ∈ t.constants, value.isFinite) ∧
    (∀ policy e t', Formula.parse t.formula = .ok e → Calculation.ofExpression policy e = .ok t' →
      (t' = t.normalized ↔ ∀ id ∈ t.metricIds, Text.isIdentifier id.toList)) ∧
    ((∀ id ∈ t.metricIds, Text.isIdentifier id.toList) → Formula.IsWithinLimits t.formula →
      ∃ e, Formula.parse t.formula = .ok e ∧
        ∀ policy, Calculation.ofExpression policy e = .ok t.normalized) := by
  have hreadable := Calculation.isReadable_of_ofJson? hread
  have hplaceholder := Calculation.hasPlaceholder_of_isReadable hreadable
  refine ⟨fun input argument hargument => ?_, hplaceholder,
    Calculation.isFinite_of_isReadable hreadable,
    fun policy e t' => Calculation.eq_normalized_iff hplaceholder, fun hids hlimits => ?_⟩
  · exact (runFormat_of_readArgument hargument).1 t hread hplaceholder
  · obtain ⟨words, e, hscan, hbuild, hwithin, -⟩ :=
      Calculation.exists_parse_formula t hplaceholder hids
    obtain ⟨words', hwords', hlimits⟩ := hlimits
    obtain rfl : words = words' := Except.ok.inj (hscan.symm.trans hwords')
    exact ⟨e, hwithin hlimits, hbuild⟩

/-- A difference with a negative constant is received, and its formula means the difference with the
negation of a constant. -/
theorem runFormat_of_received_difference :
    let argument := "\x7b\"subtract\":[\x7b\"sum\":\"a\"\x7d,\x7b\"constant\":-2\x7d]\x7d"
    let t := Calculation.arithmetic .subtract (.aggregate .sum "a") (.constant (.ofInt (-2)))
    let t' := Calculation.arithmetic .subtract (.aggregate .sum "a")
      (.negation (.constant (.ofInt 2)))
    Calculation.ofJson? argument.toList = some t ∧
      runFormat .empty argument = .ok (outputLine t.formula) ∧
      ∃ e, Formula.parse t.formula = .ok e ∧ Calculation.ofExpression .reject e = .ok t' := by
  intro argument t t'
  have hread : Calculation.ofJson? argument.toList = some t := by decide +kernel
  have hids : ∀ id ∈ t.metricIds, Text.isIdentifier id.toList := by decide
  have hscan : Lexeme.scan (Formula.withoutBraces t.formula) = .ok [.name "Sum", .opening,
      .name "a", .closing, .minus, .minus, .number (.ofInt 2)] := by
    decide +kernel
  have hnormalized : t.normalized = t' := by decide +kernel
  obtain ⟨hprinted, -, -, -, hwithin⟩ := runFormat_of_received hread
  obtain ⟨e, hparse, hbuild⟩ := hwithin hids ⟨_, hscan, by decide⟩
  exact ⟨hread, hprinted .empty argument rfl, e, hparse, hnormalized ▸ hbuild .reject⟩

/-- A sum of one metric whose id closes and opens a call is printed as the valid formula of the sums
of two metrics. -/
theorem runFormat_of_call_in_id :
    let argument := "\x7b\"sum\":\"a) + Sum(b\"\x7d"
    let t := Calculation.aggregate .sum "a) + Sum(b"
    let t' := Calculation.arithmetic .add (.aggregate .sum "a") (.aggregate .sum "b")
    Calculation.ofJson? argument.toList = some t ∧
      runFormat .empty argument = .ok (outputLine t.formula) ∧
      Formula.compile .reject t.formula = .ok t' ∧ t'.equals t.normalized = false := by
  decide +kernel

end Command

end MetricFormula
