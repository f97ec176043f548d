import MetricFormula.Proofs.Command.Format

/-!
# What can be read

The calculations that JSON texts hold, whoever wrote them: no metric stands alone in them, nothing
is left open, constants are finite, and at most 63 operations are on top of each other. There is no
other way to write a calculation than as one member with one value, so a text has no room for
anything else, and the limit of nesting is a limit of operations. Each of these calculations is
written again, as a text that holds an equal one if its numbers are read back, and every calculation
of this kind whose numbers are read back is held by some text.

## Main results

* `Command.status_of_runFormat`: how formatting fails;
* `Calculation.image_ofJson?`: which calculations texts hold, and that these are written and read
  again.
-/

namespace MetricFormula

open Json (Document)

/-- Formatting fails for input that is no text or holds no calculation. What it reads has no
placeholder, so it never fails for one. -/
theorem Command.status_of_runFormat {input : ByteArray} {argument : String} {failure : Failure}
    (h : runFormat input argument = .error failure) :
    failure.status = .inputOutput ∨ failure.status = .usage := by
  rcases hargument : readArgument input argument with failure' | text
  · rw [runFormat, hargument] at h
    cases h
    left
    unfold readArgument at hargument
    split at hargument
    · split at hargument <;> cases hargument
      rfl
    · cases hargument
  · obtain ⟨hok, herror⟩ := runFormat_of_readArgument hargument
    rcases hread : Calculation.ofJson? text with _ | t
    · right
      rw [herror hread] at h
      cases h
      rfl
    · have hreadable := Calculation.isReadable_of_ofJson? hread
      rw [hok t hread (Calculation.hasPlaceholder_of_isReadable hreadable)] at h
      cases h

namespace Calculation

/-- A calculation that a text holds can be read and has at most 63 operations on top of each other;
it is written, and what is written holds an equal calculation exactly if all of its numbers are read
back. So formatting never meets a placeholder. Conversely, some text holds a calculation that equals
a given one of this kind, as long as its numbers are read back. -/
theorem image_ofJson? :
    (∀ text t, ofJson? text = some t →
      t.isReadable ∧ t.height ≤ 63 ∧ t.wireForm.equals t ∧ ∃ document,
        t.toDocument = .ok document ∧ ∀ print ∈ [Document.compact, Document.indented],
          (ofJson? (print document) = some t.wireForm ↔
            ∀ value ∈ t.constants, value.IsReadBack)) ∧
    (∀ input argument failure, Command.runFormat input argument = .error failure →
      failure.status ≠ .failure) ∧
    ∀ t : Calculation, t.isReadable → t.height ≤ 63 →
      (∀ value ∈ t.constants, value.IsReadBack) →
      ∃ text, ofJson? text = some t.wireForm ∧ t.wireForm.equals t := by
  refine ⟨fun text t hread => ?_, fun input argument failure h => ?_,
    fun t hreadable hheight hnumbers => ?_⟩
  · have hreadable := isReadable_of_ofJson? hread
    have hheight := height_le_of_ofJson? hread
    obtain ⟨document, hdocument⟩ := exists_toDocument (isFinite_of_isReadable hreadable)
    refine ⟨hreadable, hheight, equals_wireForm hreadable, document, hdocument, ?_⟩
    intro print hprint
    rw [ofJson?_print hdocument print hprint, if_pos hheight]
    exact ofDocument?_eq_some_iff hdocument (hasPlaceholder_of_isReadable hreadable)
  · rcases Command.status_of_runFormat h with hstatus | hstatus <;> rw [hstatus] <;> decide
  · obtain ⟨document, -, -, hprint⟩ := exists_toDocument_ofJson?
      (hasPlaceholder_of_isReadable hreadable) (isFinite_of_isReadable hreadable) hnumbers
    refine ⟨document.compact, ?_, equals_wireForm hreadable⟩
    rw [hprint Document.compact List.mem_cons_self, if_pos hheight]

/-- A text with blanks and a negative zero holds a quotient that is written and read again, and an
empty object is refused as no calculation. -/
theorem image_ofJson?_of_negative_zero :
    let text := "\x7b \"divide\" : [ \x7b\"avg\":\"x\"\x7d, \x7b\"add\":[\x7b\"constant\":-0\x7d,
      \x7b\"constant\":0.5\x7d]\x7d ] \x7d".toList
    let half := Binary64.ofDecimal false ⟨5, -1⟩
    let t := arithmetic .divide (aggregate .average "x")
      (arithmetic .add (constant (.finite true .zero)) (constant half))
    let refusal := Failure.because .usage "invalid tree: not a calculation"
    ofJson? text = some t ∧ (t.isReadable ∧ t.height ≤ 63) ∧
      (∀ value ∈ t.constants, value.IsReadBack) ∧
      (∃ document, t.toDocument = .ok document ∧ ofJson? document.compact = some t.wireForm) ∧
      (Command.runFormat .empty "\x7b\x7d" = .error refusal ∧ refusal.status ≠ .failure) ∧
      ∃ text, ofJson? text = some t.wireForm ∧ t.wireForm.equals t := by
  intro text half t refusal
  have hread : ofJson? text = some t := by decide +kernel
  have hnumbers : ∀ value ∈ t.constants, value.IsReadBack := by decide +kernel
  have hrefusal : Command.runFormat .empty "\x7b\x7d" = .error refusal := by decide +kernel
  obtain ⟨hreceived, hfailure, hheld⟩ := image_ofJson?
  obtain ⟨hreadable, hheight, -, document, hdocument, hprint⟩ := hreceived text t hread
  exact ⟨hread, ⟨hreadable, hheight⟩, hnumbers,
    ⟨document, hdocument, (hprint Document.compact List.mem_cons_self).2 hnumbers⟩,
    ⟨hrefusal, hfailure .empty _ refusal hrefusal⟩, hheld t hreadable hheight hnumbers⟩

end Calculation

end MetricFormula
