import MetricFormula.Proofs.Editing.Session

/-!
# What a session shows

While a formula is edited, the host shows its calculation or the reason why it has none. Since both
are worked out anew only when the text changes, it is the text alone that decides between them:
there is a calculation, or a reason, or a formula in which nothing is written yet, and never two of
these at the same time.

## Main definitions

* `Formula.IsVacant`: nothing is written in a formula but blanks and braces.

## Main results

* `Formula.parse_eq_empty_iff`: the formulas that are empty to the parser;
* `Session.apply_eq_self`: an edit that is refused changes nothing;
* `Session.Reachable.shows_one`: after every run of edits, exactly one of the three is the case.
-/

namespace MetricFormula

/-! ## Formulas without text -/

namespace Formula

/-- The formula is made of blanks and braces. -/
def IsVacant (formula : List Char) : Prop :=
  ∀ c ∈ formula, Text.isBlank c ∨ isBrace c

instance (formula : List Char) : Decidable (IsVacant formula) :=
  List.decidableBAll _ formula

variable {formula : List Char}

/-- Trimming takes away blanks only, so what is left without braces is as blank as the whole. -/
theorem isBlankText_withoutBraces_iff :
    Text.isBlankText (withoutBraces formula) ↔ IsVacant formula := by
  obtain ⟨before, after, hbefore, hafter, heq⟩ := Text.exists_blanks_trim formula
  have hplain : Text.isBlankText (withoutBraces formula) ↔
      ∀ c ∈ Text.trim formula, Text.isBlank c ∨ isBrace c := by
    simp only [Text.isBlankText, withoutBraces, List.all_eq_true, List.mem_filter]
    refine forall_congr' fun c => ?_
    -- A character that is no brace has to be blank.
    cases isBrace c <;> simp
  rw [hplain]
  constructor
  · intro htrimmed c hc
    rw [heq, List.mem_append, List.mem_append] at hc
    rcases hc with (hc | hc) | hc
    · exact .inl (hbefore c hc)
    · exact htrimmed c hc
    · exact .inl (hafter c hc)
  · intro hvacant c hc
    refine hvacant c ?_
    rw [heq]
    exact List.mem_append_left after (List.mem_append_right before hc)

/-- A formula is empty to the parser exactly if nothing is written in it. -/
theorem parse_eq_empty_iff : parse formula = .error .empty ↔ IsVacant formula := by
  rw [← isBlankText_withoutBraces_iff, parse]
  constructor
  · intro h
    by_contra hblank
    -- The words that are there would be refused for another reason.
    rw [if_neg hblank] at h
    obtain ⟨error, -, herror⟩ := mapError_eq_error h
    cases herror
  · exact fun hblank => if_pos hblank

end Formula

namespace Session

variable {session : Session}

/-- An edit that is refused changes nothing. -/
theorem apply_eq_self {edit : Edit} {reason : Refusal}
    (h : (session.apply edit).1 = .refused reason) : (session.apply edit).2 = session := by
  unfold Session.apply Editor.apply at h ⊢
  cases hrun : session.editor.run edit with
  | error reason => rfl
  | ok edited =>
    simp only [hrun] at h
    split at h <;> cases h

/-- A current session shows a calculation, a reason for there being none, or nothing, the last one
exactly if nothing is written. -/
theorem IsCurrent.calculation_or_error (h : session.IsCurrent) :
    (session.calculation?.isSome ∧ session.error? = none ∧ ¬Formula.IsVacant session.formula) ∨
      (session.calculation? = none ∧ session.error?.isSome ∧
        ¬Formula.IsVacant session.formula) ∨
      (session.calculation? = none ∧ session.error? = none ∧
        Formula.IsVacant session.formula) := by
  rw [calculation?, error?, h.built_eq, h.parsed_eq, ← Formula.parse_eq_empty_iff]
  -- What is shown depends on how far the text gets: to no words, to no tree, or to its meaning.
  rcases Formula.parse session.formula with error | expression
  · cases error with
    | empty => exact .inr (.inr ⟨rfl, rfl, rfl⟩)
    | syntactic error => exact .inr (.inl ⟨rfl, rfl, by simp⟩)
  · rcases hbuild : Calculation.ofExpression session.policy expression with error | t
    · exact .inr (.inl (by simp [build, hbuild]))
    · exact .inl (by simp [build, hbuild])

/-- After every run of edits, the expression of a session is that of its text and its calculation is
that of the expression, an edit that is refused leaves the session as it is, and exactly one of
three is the case: there is a calculation, there is a reason for there being none, or nothing is
written but blanks and braces. -/
theorem Reachable.shows_one (hreach : Reachable session) :
    (session.parsed = Formula.parse session.formula ∧
      session.built = build session.policy (Formula.parse session.formula)) ∧
    (∀ edit reason, (session.apply edit).1 = .refused reason →
      (session.apply edit).2 = session) ∧
    ((session.calculation?.isSome ∧ session.error? = none ∧
        ¬Formula.IsVacant session.formula) ∨
      (session.calculation? = none ∧ session.error?.isSome ∧
        ¬Formula.IsVacant session.formula) ∨
      (session.calculation? = none ∧ session.error? = none ∧
        Formula.IsVacant session.formula)) := by
  obtain ⟨hparsed, hbuilt⟩ := hreach.isCurrent
  refine ⟨⟨hparsed, hparsed ▸ hbuilt⟩, fun edit reason hrefused => apply_eq_self hrefused, ?_⟩
  exact hreach.isCurrent.calculation_or_error

/-- A formula that ends with a sign has no calculation and a reason for it, also after a second sign
was refused. -/
theorem shows_one_after_refused_sign :
    let typed := ((ofFormula "\x7b a \x7d ".toList {} .reject).apply (.insertChar none '+')).2
    let session := (typed.apply (.insertChar none '-')).2
    Reachable session ∧ session = typed ∧ session.calculation? = none ∧ session.error?.isSome := by
  intro typed session
  have htyped : Reachable typed := .apply _ (.ofFormula _ _ _)
  have hsession : Reachable session := .apply _ htyped
  have hrefused : (typed.apply (.insertChar none '-')).1 = .refused .adjacentOperator := by decide
  have hcalculation : session.calculation? = none := by decide +kernel
  have hwritten : ¬Formula.IsVacant session.formula := by decide
  refine ⟨hsession, htyped.shows_one.2.1 _ _ hrefused, hcalculation, ?_⟩
  -- Of the three cases only one goes with a text that has no calculation.
  rcases hsession.shows_one.2.2 with ⟨hshown, -⟩ | ⟨-, herror, -⟩ | ⟨-, -, hvacant⟩
  · rw [hcalculation] at hshown
    cases hshown
  · exact herror
  · exact absurd hvacant hwritten

end Session

end MetricFormula
