import MetricFormula.Proofs.Editing.Shown
import MetricFormula.Proofs.Editing.Typing

/-!
# Blanks around tokens

Whether an editor puts blanks around the tokens that it inserts is a matter of looks. A token has a
blank inside each of its braces, so without the braces what it says stands between blanks anyway,
and more blanks there make no other words. Nor do they change where a token can be inserted, which
the text before decides. So the formula means the same, or is refused for the same reason, whatever
characters the token is put between.

## Main results

* `Editor.scan_append_paddedToken_append`: the words around an inserted token and its own;
* `Editor.parse_paddedToken_eq`: what a formula with an inserted token is parsed to;
* `Editor.apply_insertMetric_padding`: inserting with blanks and without them.
-/

namespace MetricFormula

/-- Text between blanks is scanned on its own, however many blanks there are. -/
theorem Lexeme.scan_between_blanks {before after : List Char}
    (hbefore : ∀ c ∈ before, Text.isBlank c) (hafter : ∀ c ∈ after, Text.isBlank c)
    (u content v : List Char) :
    scan (u ++ (before ++ ' ' :: (content ++ ' ' :: after) ++ v)) =
      joined (scan u) [] (joined (scan content) [] (scan v)) := by
  have hblank : separator? ' ' = some [] := by decide
  have hsplit : u ++ (before ++ ' ' :: (content ++ ' ' :: after) ++ v) =
      (u ++ before) ++ ' ' :: (content ++ ' ' :: (after ++ v)) := by simp
  rw [hsplit, scan_separator hblank, scan_append_blanks hbefore, scan_separator hblank,
    scan_blanks_append hafter]

/-- A formula in which something is written is parsed by its words. -/
theorem Formula.parse_of_not_isVacant {formula : List Char} (h : ¬IsVacant formula) :
    parse formula =
      (Lexeme.scan (formula.filter (!isBrace ·)) >>= Expression.ofLexemes).mapError .syntactic := by
  rw [parse, if_neg (mt isBlankText_withoutBraces_iff.1 h), Expression.parse,
    Lexeme.scan_withoutBraces]

namespace Editor

open MetricToken

variable {id : String} {aggregate : Option Aggregate}

/-- The words of a formula with an inserted token are those in front of the token, those of what it
says and those behind it. -/
theorem scan_append_paddedToken_append (hid : Text.isIdentifier id.toList)
    (aggregate : Option Aggregate) (editor : Editor) (position : Nat) (u v : List Char) :
    Lexeme.scan ((u ++ (editor.paddedToken position (tokenContent id aggregate) ++ v)).filter
        (!isBrace ·)) =
      Lexeme.joined (Lexeme.scan (u.filter (!isBrace ·))) []
        (Lexeme.joined (Lexeme.scan (tokenContent id aggregate)) []
          (Lexeme.scan (v.filter (!isBrace ·)))) := by
  obtain ⟨before, after, hbefore, hafter, hfilter⟩ :=
    exists_filter_paddedToken hid aggregate editor position
  rw [List.filter_append, List.filter_append, hfilter]
  exact Lexeme.scan_between_blanks hbefore hafter _ _ _

/-- Something is written in a formula with an inserted token. -/
theorem not_isVacant_paddedToken (hid : Text.isIdentifier id.toList)
    (aggregate : Option Aggregate) (editor : Editor) (position : Nat) (u v : List Char) :
    ¬Formula.IsVacant (u ++ (editor.paddedToken position (tokenContent id aggregate) ++ v)) := by
  intro hvacant
  obtain ⟨c, rest, hcontent, -⟩ := exists_tokenContent_eq hid aggregate
  have hmem : c ∈ tokenContent id aggregate := hcontent ▸ List.mem_cons_self
  have hblank := isBlank_of_mem_tokenContent hid aggregate c hmem
  have hbrace := isBrace_of_mem_tokenContent hid aggregate c hmem
  -- The first character of what the token says is neither blank nor a brace.
  rcases hvacant c (by simp [paddedToken, tokenText, hmem]) with h | h
  · rw [hblank] at h
    cases h
  · rw [h] at hbrace
    cases hbrace

/-- What a formula with an inserted token is parsed to does not depend on the editor that inserts
it. -/
theorem parse_paddedToken_eq (hid : Text.isIdentifier id.toList) (aggregate : Option Aggregate)
    (editor other : Editor) (position : Nat) (u v : List Char) :
    Formula.parse (u ++ (editor.paddedToken position (tokenContent id aggregate) ++ v)) =
      Formula.parse (u ++ (other.paddedToken position (tokenContent id aggregate) ++ v)) := by
  rw [Formula.parse_of_not_isVacant (editor.not_isVacant_paddedToken hid aggregate position u v),
    Formula.parse_of_not_isVacant (other.not_isVacant_paddedToken hid aggregate position u v),
    editor.scan_append_paddedToken_append hid, other.scan_append_paddedToken_append hid]

/-- Two editors of one text both insert a metric, and what they get is parsed to the same, or both
refuse it for the same reason. -/
theorem insertMetric_congr {editor other : Editor} (hscanned : editor.IsScanned)
    (hother : other.IsScanned) (htext : editor.text = other.text) (position : Nat) (id : String)
    (aggregate : Option Aggregate) :
    (∃ edited edited', editor.insertMetric position id aggregate = .ok edited ∧
        other.insertMetric position id aggregate = .ok edited' ∧
        Formula.parse edited.text = Formula.parse edited'.text) ∨
      ∃ reason, editor.insertMetric position id aggregate = .error reason ∧
        other.insertMetric position id aggregate = .error reason := by
  have hedited := insertMetric_eq hscanned position id aggregate
  have hedited' := insertMetric_eq hother position id aggregate
  rw [← htext] at hedited'
  -- The two texts are the same, so one of the reasons is the first one for both, or there is none.
  split_ifs at hedited hedited' with hid hlength hinside hunclosed
  · exact .inr ⟨_, hedited, hedited'⟩
  · exact .inr ⟨_, hedited, hedited'⟩
  · exact .inr ⟨_, hedited, hedited'⟩
  · obtain ⟨u, v, hparts, rfl⟩ := exists_append_of_le (Nat.le_of_not_lt hlength)
    refine .inl ⟨_, _, hedited, hedited', ?_⟩
    rw [withText_text, withText_text, hparts, insertAt_append, insertAt_append]
    exact parse_paddedToken_eq hid aggregate editor other u.length u v
  · exact .inr ⟨_, hedited, hedited'⟩

/-- Whether a metric is inserted or refused, and for which reason, does not depend on whether the
host wants blanks around tokens, and neither does what the text is parsed to: the same expression,
or the same error. -/
theorem apply_insertMetric_padding (text : List Char) (options : EditorOptions)
    (position : Option Nat) (id : String) (aggregate : Option Aggregate) :
    let attempt (padTokens : Bool) :=
      (ofText text { options with padTokens }).apply (.insertMetric position id aggregate)
    (attempt true).1 = (attempt false).1 ∧
      Formula.parse (attempt true).2.text = Formula.parse (attempt false).2.text := by
  intro attempt
  have hscanned (padTokens : Bool) : (ofText text { options with padTokens }).IsScanned := rfl
  -- Where the position is missing, the cursor is at the end of the same text.
  rcases insertMetric_congr (hscanned true) (hscanned false) rfl (position.getD text.length) id
      aggregate with ⟨padded, plain, hpadded, hplain, hparse⟩ | ⟨reason, hpadded, hplain⟩
  · have htrue : attempt true = (.applied, padded) := apply_of_run_ok hpadded
    have hfalse : attempt false = (.applied, plain) := apply_of_run_ok hplain
    rw [htrue, hfalse]
    exact ⟨rfl, hparse⟩
  · have htrue : attempt true = (.refused reason, _) := apply_of_run_error hpadded
    have hfalse : attempt false = (.refused reason, _) := apply_of_run_error hplain
    rw [htrue, hfalse]
    exact ⟨rfl, rfl⟩

end Editor

end MetricFormula
