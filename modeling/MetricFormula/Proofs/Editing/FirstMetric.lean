import MetricFormula.Proofs.Editing.Typing

/-!
# The first metric of a formula

What may be the id of a metric is decided in two places. The editor looks at the whole id before it
puts a token in, and the parser makes words of the characters one by one. They agree: an id that the
editor takes is one word, which the parser reads back from the token, so a formula that consists of
the token alone is valid and means the metric.

## Main results

* `Lexeme.scan_eq_name_iff`: the ids that are scanned as one word;
* `Session.IsWritten.shows_of_means`: what a session shows by the words of its formula;
* `Session.insertMetric_agrees_with_scan`: inserting a metric into a session without a formula.
-/

namespace MetricFormula

/-! ## Ids as words -/

/-- An id is scanned as the name that it is exactly if it is an identifier. -/
theorem Lexeme.scan_eq_name_iff {id : String} :
    scan id.toList = .ok [.name id] ↔ Text.isIdentifier id.toList := by
  constructor
  · exact fun hscan => isScanned_of_scan hscan (.name id) List.mem_cons_self
  · intro hid
    rw [scan_identifier hid, String.ofList_toList]

/-! ## What a session shows -/

/-- Where nothing is written, the cursor is at the end. -/
theorem Editor.Reachable.endsWith_nil {editor : Editor} (hreach : editor.Reachable)
    (htext : editor.text = []) : editor.EndsWith [] := by
  have hcursor := hreach.isStop.1
  rw [htext] at hcursor
  refine ⟨hreach.tokens_eq, ?_, ?_, ?_⟩
  · rw [htext]
    exact Nat.le_zero.1 hcursor
  · rw [htext]
    rfl
  · rw [htext]
    rfl

namespace Session

variable {session : Session}

/-- The editor of a session is edited like any other. -/
theorem Reachable.editor (hreach : session.Reachable) : session.editor.Reachable := by
  induction hreach with
  | empty options policy => exact .empty options
  | ofFormula formula options policy => exact .ofText formula options
  | @apply session edit _ ih =>
    rw [(session.apply_editor_policy edit).1]
    exact .apply edit ih

/-- A session without a formula counts as written by edits, whatever its formula was before. -/
theorem Reachable.isWritten (hreach : session.Reachable) (hempty : session.formula = []) :
    session.IsWritten session.policy :=
  ⟨hreach, rfl, hreach.editor.tokens_eq, [], List.forall_mem_nil _, hempty⟩

/-- A formula that is written by edits alone means what its words mean, and is valid if there is a
metric among them. -/
theorem IsWritten.shows_of_means {policy : UnknownFunctions} (h : session.IsWritten policy)
    {words : List Lexeme} (hends : session.editor.EndsWith words) {e : Expression}
    (hwords : Expression.ofLexemes words = .ok e) {t : Calculation} (hmeans : e.Means t)
    (hmetric : t.metricIds ≠ []) :
    session.calculation? = some t ∧ session.validate = .ok () := by
  have hne : words ≠ [] := by
    rintro rfl
    cases hwords
  have hscan : Lexeme.scan (Formula.withoutBraces session.formula) = .ok words :=
    (Lexeme.scan_withoutBraces session.formula).trans hends.scan_eq
  have hparse : Formula.parse session.formula = .ok e := by
    rw [Formula.parse_eq_of_scan hscan hne, hwords]
    rfl
  have hnames : e.names ≠ [] := hmeans.metricIds_eq ▸ hmetric
  -- The calculation is that of the words alone, and validation counts the braces as well.
  constructor
  · exact h.reachable.isCurrent.calculation?_eq_some_iff.2 ⟨e, hparse, hmeans.ofExpression_eq _⟩
  · exact Formula.validate_eq_ok_iff.2 ⟨t, Formula.compile_eq_ok_iff_braces.2
      ⟨h.openCount?_formula, e, hparse, hnames, hmeans.ofExpression_eq _⟩⟩

end Session

/-! ## Sessions without a formula -/

/-- The words of a token make its expression. -/
theorem InsertedMetric.ofLexemes_words (metric : InsertedMetric) :
    Expression.ofLexemes metric.use.words = .ok metric.expression := by
  obtain ⟨id, _ | kind, hid⟩ := metric <;> rfl

namespace Session

variable {session : Session}

/-- A metric that is inserted into a session without a formula is all that the formula means. -/
theorem Reachable.apply_insertMetric (hreach : session.Reachable) (hempty : session.formula = [])
    (metric : InsertedMetric) :
    (session.apply metric.edit).1 = .applied ∧
      (session.apply metric.edit).2.calculation? = some metric.calculation ∧
      (session.apply metric.edit).2.validate = .ok () := by
  obtain ⟨edited, hrun, hends, -⟩ := (hreach.editor.endsWith_nil hempty).insertMetric metric
  -- Behind nothing, the words are those of the token.
  obtain ⟨happlied, rfl⟩ := apply_of_run hrun
  have hwritten := (hreach.isWritten hempty).apply metric.edit
  exact ⟨happlied, hwritten.shows_of_means hends metric.ofLexemes_words metric.means
    metric.metricIds_calculation_ne_nil⟩

/-- The beginning of an empty text is where the cursor is. -/
theorem Reachable.apply_insertMetric_at (hreach : session.Reachable)
    (hempty : session.formula = []) {position : Option Nat} (hposition : position ∈ [none, some 0])
    (id : String) (aggregate : Option Aggregate) :
    session.apply (.insertMetric position id aggregate) =
      session.apply (.insertMetric none id aggregate) := by
  have hcursor : session.editor.cursor = 0 :=
    (hreach.editor.endsWith_nil hempty).cursor_eq.trans (congrArg List.length hempty)
  have hplace : position.getD session.editor.cursor = session.editor.cursor := by
    rw [hcursor]
    rcases List.mem_pair.1 hposition with rfl | rfl <;> rfl
  have hrun : session.editor.run (.insertMetric position id aggregate) =
      session.editor.run (.insertMetric none id aggregate) :=
    congrArg (session.editor.insertMetric · id aggregate) hplace
  rw [Session.apply, Session.apply, Editor.apply, Editor.apply, hrun]

/-- An id is an identifier exactly if it is scanned as the one name that it is, and exactly if it
can be inserted as a metric into a session without a formula, whatever the choices of the host and
whatever becomes of unknown functions. The session then shows the metric, or the aggregate of it,
and its formula is valid. -/
theorem insertMetric_agrees_with_scan (id : String) :
    (Text.isIdentifier id.toList ↔ Lexeme.scan id.toList = .ok [.name id]) ∧
    ∀ session : Session, session.Reachable → session.formula = [] →
      ∀ position ∈ [none, some 0], ∀ aggregate : Option Aggregate,
        let attempt := session.apply (.insertMetric position id aggregate)
        (attempt.1 = .applied ↔ Text.isIdentifier id.toList) ∧
          (attempt.1 = .applied → attempt.2.validate = .ok () ∧ attempt.2.calculation? =
            some (aggregate.elim (.metric id) fun kind => .aggregate kind id)) := by
  refine ⟨Lexeme.scan_eq_name_iff.symm, ?_⟩
  intro session hreach hempty position hposition aggregate attempt
  have hattempt : attempt = session.apply (.insertMetric none id aggregate) :=
    hreach.apply_insertMetric_at hempty hposition id aggregate
  rw [hattempt]
  by_cases hid : Text.isIdentifier id.toList
  · let metric : InsertedMetric := ⟨id, aggregate, hid⟩
    obtain ⟨happlied, hcalculation, hvalid⟩ := hreach.apply_insertMetric hempty metric
    refine ⟨iff_of_true happlied hid, fun _ => ⟨hvalid, hcalculation.trans ?_⟩⟩
    cases aggregate <;> rfl
  · -- The editor refuses the id before it looks at anything else.
    have hrun : session.editor.run (.insertMetric none id aggregate) = .error .invalidMetricId :=
      if_neg hid
    have hrefused : (session.apply (.insertMetric none id aggregate)).1 ≠ .applied := by
      rw [apply_fst, Editor.apply_of_run_error hrun]
      exact nofun
    exact ⟨iff_of_false hrefused hid, fun happlied => absurd happlied hrefused⟩

/-- After a formula is cleared, a metric with letters outside ASCII is inserted, and none that
begins with a numeral. -/
theorem insertMetric_agrees_with_scan_after_clear :
    let session := ((ofFormula "1 + \x7b".toList {} .placeholder).apply .clear).2
    let inserted := session.apply (.insertMetric (some 0) "größe_2" (some .sum))
    let refused := session.apply (.insertMetric none "2größe" none)
    session.Reachable ∧ session.formula = [] ∧ inserted.1 = .applied ∧
      inserted.2.validate = .ok () ∧
      inserted.2.calculation? = some (.aggregate .sum "größe_2") ∧ refused.1 ≠ .applied := by
  intro session inserted refused
  have hreach : session.Reachable := .apply _ (.ofFormula _ _ _)
  have hempty : session.formula = [] := rfl
  have hword : Text.isIdentifier "größe_2".toList := by decide
  have hnumeral : ¬Text.isIdentifier "2größe".toList := by decide
  obtain ⟨hinserted, hshown⟩ := (insertMetric_agrees_with_scan "größe_2").2 session hreach hempty
    (some 0) (by decide) (some .sum)
  obtain ⟨hrefused, -⟩ := (insertMetric_agrees_with_scan "2größe").2 session hreach hempty
    none (by decide) none
  have happlied := hinserted.2 hword
  obtain ⟨hvalid, hcalculation⟩ := hshown happlied
  exact ⟨hreach, hempty, happlied, hvalid, hcalculation, fun h => hnumeral (hrefused.1 h)⟩

end Session

end MetricFormula
