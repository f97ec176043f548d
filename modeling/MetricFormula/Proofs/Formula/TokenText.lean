import MetricFormula.Proofs.Expression.Words
import MetricFormula.Proofs.Formula.MetricToken

/-!
# What the text of a token says

The text of a token is an opening brace, the content of the token, in which no closing brace stands,
and a closing brace. What the token says is its content without the blanks at the ends; but if the
content begins with opening braces, they are dropped with the one in front of it, although inside a
token they are ordinary characters. An opening brace behind a blank or another character is kept.

## Main definitions

* `MetricToken.content`: the characters between the braces of a token.

## Main results

* `Text.trim_dropWhile_eq_iff`: dropping a character from the front changes a trimmed text if it
  stands there;
* `MetricToken.span_of_mem_scan`: a token spans its text, and this is the content in braces;
* `MetricToken.body_eq_trim_content_iff`: what a token says, and when that is all of its content.
-/

namespace MetricFormula

namespace Text

variable {c : Char}

/-- Trimming takes away blanks only. -/
theorem count_trim (h : isBlank c = false) (text : List Char) :
    (trim text).count c = text.count c := by
  obtain ⟨before, after, hbefore, hafter, heq⟩ := exists_blanks_trim text
  have hnot : ∀ {blanks : List Char}, (∀ d ∈ blanks, isBlank d) → blanks.count c = 0 := by
    intro blanks hblanks
    refine List.count_eq_zero.2 fun hmem => ?_
    rw [hblanks c hmem] at h
    cases h
  conv => rhs; rw [heq]
  rw [List.count_append, List.count_append, hnot hbefore, hnot hafter, Nat.zero_add, Nat.add_zero]

/-- Dropping a character that is no blank from the front makes a difference to the trimmed text
exactly if the text begins with it. -/
theorem trim_dropWhile_eq_iff (h : isBlank c = false) (text : List Char) :
    trim (text.dropWhile (· == c)) = trim text ↔ text.head? ≠ some c := by
  cases text with
  | nil => exact iff_of_true rfl nofun
  | cons d text =>
    rw [List.head?_cons, Ne, Option.some_inj]
    by_cases hd : d = c
    · subst hd
      refine iff_of_false (fun heq => ?_) (not_not_intro rfl)
      -- The trimmed text has lost the character once at least.
      have hdrop : (d :: text).dropWhile (· == d) = text.dropWhile (· == d) :=
        List.dropWhile_cons_of_pos (beq_self_eq_true d)
      have hle := (List.dropWhile_sublist (l := text) (· == d)).count_le d
      have hcount := congrArg (List.count d) heq
      rw [hdrop, count_trim h, count_trim h, List.count_cons_self] at hcount
      omega
    · refine iff_of_true ?_ hd
      rw [List.dropWhile_cons_of_neg (by simpa using hd)]

end Text

namespace MetricToken

variable {formula : List Char} {token : MetricToken}

/-- The characters of the token strictly between its braces. -/
def content (token : MetricToken) (formula : List Char) : List Char :=
  (formula.drop (token.opening + 1)).take (token.closing - (token.opening + 1))

/-- A token spans its text in the formula, from the position of its opening brace to that of its
closing brace, and the text is the content in these braces. -/
theorem span_of_mem_scan (h : token ∈ scan formula) :
    (∃ before after, formula = before ++ (token.text formula ++ after) ∧
      before.length = token.opening ∧
      before.length + (token.text formula).length = token.closing + 1) ∧
    token.text formula = openingBrace :: (token.content formula ++ [closingBrace]) ∧
    closingBrace ∉ token.content formula := by
  obtain ⟨u, w, v, rfl, hw, -, rfl⟩ := exists_of_mem_scan h
  have hformula : u ++ openingBrace :: (w ++ closingBrace :: v) =
      u ++ (openingBrace :: (w ++ [closingBrace]) ++ v) := by simp
  have htext : text ⟨u.length, u.length + w.length + 1⟩
      (u ++ openingBrace :: (w ++ closingBrace :: v)) = openingBrace :: (w ++ [closingBrace]) := by
    rw [hformula]
    refine text_eq_of_span rfl ?_
    simp only [length, List.length_cons, List.length_append, List.length_nil]
    omega
  have hcontent : content ⟨u.length, u.length + w.length + 1⟩
      (u ++ openingBrace :: (w ++ closingBrace :: v)) = w := by
    have hlength : u.length + w.length + 1 - (u.length + 1) = w.length := by omega
    rw [content, hlength, ← List.drop_drop, List.drop_left, List.drop_one, List.tail_cons,
      List.take_left]
  rw [htext, hcontent]
  refine ⟨⟨u, v, hformula, rfl, ?_⟩, rfl, hw⟩
  simp only [List.length_cons, List.length_append, List.length_nil]
  omega

/-- What a token says, from the characters between its braces. -/
theorem body_eq_trim_dropWhile {inside : List Char} (hclosing : closingBrace ∉ inside)
    (htext : token.text formula = openingBrace :: (inside ++ [closingBrace])) :
    token.body formula = Text.trim (inside.dropWhile (· == openingBrace)) := by
  -- The closing brace ends the run that is dropped in front, and it is all that is dropped behind.
  have hfront : (openingBrace :: (inside ++ [closingBrace])).dropWhile (· == openingBrace) =
      inside.dropWhile (· == openingBrace) ++ [closingBrace] := by
    rw [List.dropWhile_cons_of_pos (by rfl), List.dropWhile_append]
    split
    next hempty =>
      rw [List.isEmpty_iff.1 hempty]
      rfl
    next => rfl
  have hbehind : ∀ rest : List Char, closingBrace ∉ rest →
      (rest ++ [closingBrace]).reverse.dropWhile (· == closingBrace) = rest.reverse := by
    intro rest hrest
    rw [List.reverse_concat, List.dropWhile_cons_of_pos (by rfl)]
    rcases hreverse : rest.reverse with _ | ⟨c, chars⟩
    · rfl
    · refine List.dropWhile_cons_of_neg fun hc => hrest ?_
      rw [← beq_iff_eq.1 hc, ← List.mem_reverse, hreverse]
      exact List.mem_cons_self
  have hkept : closingBrace ∉ inside.dropWhile (· == openingBrace) := fun hmem =>
    hclosing ((List.dropWhile_sublist _).subset hmem)
  rw [body, htext, hfront, hbehind _ hkept, List.reverse_reverse]

/-- The text of a token is what stands from its opening brace to its closing brace. The token says
its content without the opening braces at the front and then without the blanks at the ends, and
that is the trimmed content exactly if this does not begin with an opening brace. -/
theorem body_eq_trim_content_iff (h : token ∈ scan formula) :
    (∃ before after, formula = before ++ (token.text formula ++ after) ∧
      before.length = token.opening ∧
      before.length + (token.text formula).length = token.closing + 1) ∧
    token.text formula = openingBrace :: (token.content formula ++ [closingBrace]) ∧
    closingBrace ∉ token.content formula ∧
    token.body formula =
      Text.trim ((token.content formula).dropWhile (· == openingBrace)) ∧
    (token.body formula = Text.trim (token.content formula) ↔
      (token.content formula).head? ≠ some openingBrace) := by
  obtain ⟨hspan, htext, hclosing⟩ := span_of_mem_scan h
  have hbody := body_eq_trim_dropWhile hclosing htext
  have hbrace : Text.isBlank openingBrace = false := by decide
  refine ⟨hspan, htext, hclosing, hbody, ?_⟩
  rw [hbody]
  exact Text.trim_dropWhile_eq_iff hbrace _

/-- An opening brace behind a blank is kept in what a token says. -/
theorem body_eq_trim_content_behind_blank :
    (⟨0, 4⟩ : MetricToken) ∈ scan "\x7b \x7ba\x7d".toList ∧
      content ⟨0, 4⟩ "\x7b \x7ba\x7d".toList = " \x7ba".toList ∧
      body ⟨0, 4⟩ "\x7b \x7ba\x7d".toList = Text.trim (content ⟨0, 4⟩ "\x7b \x7ba\x7d".toList) ∧
      body ⟨0, 4⟩ "\x7b \x7ba\x7d".toList = "\x7ba".toList := by
  have hmem : (⟨0, 4⟩ : MetricToken) ∈ scan "\x7b \x7ba\x7d".toList := by decide
  obtain ⟨-, -, -, -, hiff⟩ := body_eq_trim_content_iff hmem
  exact ⟨hmem, by decide, hiff.2 (by decide), by decide⟩

/-- An opening brace right behind the one that opens the token is lost, so what a token says is not
always its trimmed content. -/
theorem body_ne_trim_content_of_adjacent_braces :
    (⟨0, 3⟩ : MetricToken) ∈ scan "\x7b\x7ba\x7d".toList ∧
      Text.trim (content ⟨0, 3⟩ "\x7b\x7ba\x7d".toList) = "\x7ba".toList ∧
      body ⟨0, 3⟩ "\x7b\x7ba\x7d".toList = "a".toList ∧
      ¬ ∀ (formula : List Char) (token : MetricToken), token ∈ scan formula →
        token.body formula = Text.trim (token.content formula) := by
  refine ⟨by decide, by decide, by decide, fun hall => ?_⟩
  have hbody := hall "\x7b\x7ba\x7d".toList ⟨0, 3⟩ (by decide)
  revert hbody
  decide

end MetricToken

end MetricFormula
