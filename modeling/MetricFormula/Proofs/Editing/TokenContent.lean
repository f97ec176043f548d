import MetricFormula.Proofs.Calculation.Printing
import MetricFormula.Proofs.Editing.Atomicity
import MetricFormula.Proofs.Expression.Splitting

/-!
# What metric tokens say

A token that is inserted says the id of a metric or the call of an aggregate function, with a blank
at each end. Neither has blanks or braces inside, so what the token says can be read back from the
text, and with it the metric.

## Main definitions

* `MetricToken.metricId`: the metric that a token names;
* `MetricToken.isCalled`: an opening parenthesis follows a token.

## Main results

* `MetricToken.body_eq`: what a token says is what was inserted;
* `MetricToken.metricId_eq`: the metric that a token names is the one that was inserted.
-/

namespace MetricFormula

/-- Where a text without blanks begins, there are no blanks to drop. -/
theorem Text.dropWhile_isBlank_append {text : List Char} (h : ∀ c ∈ text, isBlank c = false)
    (hne : text ≠ []) (rest : List Char) : (text ++ rest).dropWhile isBlank = text ++ rest := by
  cases text with
  | nil => exact absurd rfl hne
  | cons c text =>
    exact List.dropWhile_cons_of_neg (ne_true_of_eq_false (h c List.mem_cons_self))

/-- Trimming takes away the blanks around a text without blanks. -/
theorem Text.trim_padded {text : List Char} (h : ∀ c ∈ text, isBlank c = false) :
    trim (' ' :: (text ++ [' '])) = text := by
  by_cases hne : text = []
  · rw [hne]
    rfl
  · have hstart : trimStart (' ' :: (text ++ [' '])) = text ++ [' '] :=
      dropWhile_isBlank_append h hne [' ']
    have hend : (text ++ [' ']).reverse.dropWhile isBlank = text.reverse := by
      have hreverse : ∀ c ∈ text.reverse, isBlank c = false := by simpa using h
      have hdrop := dropWhile_isBlank_append hreverse (by simpa using hne) []
      rw [List.append_nil] at hdrop
      rw [List.reverse_concat]
      exact hdrop
    rw [trim, trimEnd, hstart, hend, List.reverse_reverse]

namespace Editor

/-- No blank stands in the content of a metric token. -/
theorem isBlank_of_mem_tokenContent {id : String} (hid : Text.isIdentifier id.toList)
    (aggregate : Option Aggregate) :
    ∀ c ∈ tokenContent id aggregate, Text.isBlank c = false :=
  forall_mem_tokenContent (fun _ => Text.isBlank_of_isIdentifierPart) (by decide) (by decide) hid
    aggregate

/-- No brace stands in the content of a token. -/
theorem isBrace_of_mem_tokenContent {id : String} (hid : Text.isIdentifier id.toList)
    (aggregate : Option Aggregate) : ∀ c ∈ tokenContent id aggregate, !isBrace c :=
  forall_mem_tokenContent
    (fun _ hpart => Calculation.isBrace_of_isNoBracket (isNoBracket_of_isIdentifierPart hpart))
    (by decide) (by decide) hid aggregate

/-- The content of a token begins with a name. -/
theorem exists_tokenContent_eq {id : String} (hid : Text.isIdentifier id.toList)
    (aggregate : Option Aggregate) :
    ∃ c rest, tokenContent id aggregate = c :: rest ∧ Text.isIdentifierStart c := by
  have hname : ∀ {text : List Char} (tail : List Char), Text.isIdentifier text →
      ∃ c rest, text ++ tail = c :: rest ∧ Text.isIdentifierStart c := by
    intro text tail htext
    cases text with
    | nil => cases htext
    | cons c text => exact ⟨c, text ++ tail, rfl, (Bool.and_eq_true_iff.1 htext).1⟩
  cases aggregate with
  | none =>
    have hcontent := hname [] hid
    rwa [List.append_nil] at hcontent
  | some kind =>
    have hcontent := hname ('(' :: (id.toList ++ [')'])) (Calculation.isIdentifier_function kind)
    rwa [← List.cons_append, ← List.append_assoc] at hcontent

end Editor

namespace MetricToken

/-- The metric that a token names: what it says between parentheses, or else all that it says. -/
def metricId (token : MetricToken) (formula : List Char) : String :=
  let said := token.body formula
  String.ofList (if '(' ∈ said then ((said.dropWhile (· != '(')).drop 1).dropLast else said)

/-- The token is called: an opening parenthesis follows it, apart from blanks. -/
def isCalled (token : MetricToken) (formula : List Char) : Bool :=
  Text.opensParenthesis (formula.drop token.after)

/-- What a token says that is written between blanks. -/
theorem body_eq {formula content : List Char} {token : MetricToken}
    (hcontent : ∀ c ∈ content, Text.isBlank c = false)
    (htext : token.text formula = tokenText content) : token.body formula = content := by
  have hopening : (tokenText content).dropWhile (· == openingBrace) =
      ' ' :: content ++ [' ', closingBrace] := rfl
  have hclosing : (' ' :: content ++ [' ', closingBrace]).reverse.dropWhile (· == closingBrace) =
      (' ' :: (content ++ [' '])).reverse := by
    simp [closingBrace]
  rw [body, htext, hopening, hclosing, List.reverse_reverse]
  exact Text.trim_padded hcontent

/-- The metric that a token of a metric or of an aggregate names. -/
theorem metricId_eq {formula : List Char} {token : MetricToken} {id : String}
    (hid : Text.isIdentifier id.toList) {aggregate : Option Aggregate}
    (htext : token.text formula = tokenText (Editor.tokenContent id aggregate)) :
    token.metricId formula = id := by
  have hname : ∀ {text : List Char}, Text.isIdentifier text → ∀ c ∈ text, c != '(' := by
    intro text htext c hc
    rw [bne_iff_ne]
    rintro rfl
    cases Text.isIdentifierPart_of_mem htext _ hc
  rw [metricId, body_eq (Editor.isBlank_of_mem_tokenContent hid aggregate) htext]
  cases aggregate with
  | none =>
    have hnot : '(' ∉ Editor.tokenContent id none := fun hmem => by cases hname hid _ hmem
    rw [if_neg hnot]
    exact String.ofList_toList
  | some kind =>
    have hmem : '(' ∈ Editor.tokenContent id (some kind) := by
      simp [Editor.tokenContent, Aggregate.call]
    have hdrop : (Editor.tokenContent id (some kind)).dropWhile (· != '(') =
        '(' :: (id.toList ++ [')']) := by
      rw [Editor.tokenContent, Aggregate.call, List.append_assoc,
        List.dropWhile_append_of_pos (hname (Calculation.isIdentifier_function kind))]
      rfl
    rw [if_pos hmem, hdrop, List.drop_one, List.tail_cons, List.dropLast_concat]
    exact String.ofList_toList

end MetricToken

end MetricFormula
