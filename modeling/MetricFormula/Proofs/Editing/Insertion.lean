import Mathlib.Tactic.SplitIfs
import MetricFormula.Proofs.Editing.Cursor

/-!
# Where tokens are inserted

A token that is inserted has to be one of the tokens of the new text, which is seen only after the
text was scanned again. In the text before, this is the same as that no brace is open at the
position: a brace that is open there would take the closing brace of the new token for its own. So
whether a metric is inserted can be told from the id, the position and the text before.

## Main definitions

* `Editor.HasUnclosedBrace`: a brace in front of a position is never closed;
* `Editor.IsPadding`: a blank that is put in where it is wanted.

## Main results

* `Editor.scan_paddedToken`: what is put in is one token;
* `Editor.insertToken_eq_ok_iff`: a token is inserted exactly where no brace is open;
* `Editor.hasUnclosedBrace_append_iff`: the open braces that are never closed;
* `Editor.apply_insertMetric_eq`: when a metric is refused, and for which reason, and what is
  inserted otherwise.
-/

namespace MetricFormula

namespace Editor

open MetricToken

variable {editor edited : Editor} {position : Nat} {content : List Char}

/-- What is put in for a token is a brace, text without a closing brace, and a closing brace,
between the paddings. -/
theorem exists_paddedToken_eq (editor : Editor) (position : Nat)
    (hcontent : closingBrace ∉ content) :
    ∃ inner, editor.paddedToken position content = editor.paddingBefore position ++
        (openingBrace :: (inner ++ [closingBrace]) ++ editor.paddingAfter position) ∧
      closingBrace ∉ inner ∧ inner.length = content.length + 2 := by
  refine ⟨' ' :: content ++ [' '], ?_, ?_, by simp⟩
  · simp [paddedToken, tokenText]
  · simpa [closingBrace] using hcontent

/-- What is put in for a token is one token. -/
theorem scan_paddedToken (editor : Editor) (position : Nat) (hcontent : closingBrace ∉ content) :
    scan (editor.paddedToken position content) =
      [⟨(editor.paddingBefore position).length,
        (editor.paddingBefore position).length + content.length + 3⟩] := by
  obtain ⟨hleft, hright⟩ := padding_eq editor position
  obtain ⟨inner, hpadded, hinner, hlength⟩ := editor.exists_paddedToken_eq position hcontent
  rw [hpadded, scan_padded ⟨notMem_padding (by decide) hleft, notMem_padding (by decide) hleft⟩
    hinner (notMem_padding (by decide) hright), hlength]
  rfl

/-- Between two parts of the text, a token is inserted exactly if the first part leaves no brace
open. -/
theorem insertToken_eq_ok_iff (hscanned : editor.IsScanned) (hcontent : closingBrace ∉ content)
    {u v : List Char} (htext : editor.text = u ++ v) :
    editor.insertToken u.length content = .ok edited ↔
      openAfter 0 none u = none ∧
        edited = editor.withText (u ++ (editor.paddedToken u.length content ++ v))
          (u.length + (editor.paddedToken u.length content).length) := by
  have hinserted : insertAt editor.text u.length (editor.paddedToken u.length content) =
      u ++ (editor.paddedToken u.length content ++ v) := by
    rw [htext, insertAt_append]
  constructor
  · intro h
    obtain ⟨hcheck, rfl, hmem⟩ := insertToken_eq_ok h
    obtain ⟨inner, hpadded, hinner, -⟩ := editor.exists_paddedToken_eq u.length hcontent
    obtain ⟨hleft, hright⟩ := padding_eq editor u.length
    have hstop := (checkPosition_eq_ok_iff_isStop hscanned).1 hcheck
    rw [htext] at hstop
    rw [withText_tokens, hinserted, hpadded] at hmem
    exact ⟨openAfter_eq_none_of_mem hstop.2 (notMem_padding (by decide) hleft) hinner
      (notMem_padding (by decide) hright) hmem, by rw [hinserted]⟩
  · rintro ⟨hopen, rfl⟩
    have hcheck : editor.checkPosition u.length = .ok () := by
      rw [checkPosition_eq_ok_iff_isStop hscanned, htext]
      exact isStop_append_iff.2 (.inl hopen)
    -- The new token is found where it was put.
    have hmem : ⟨u.length + (editor.paddingBefore u.length).length,
        u.length + (editor.paddingBefore u.length).length + content.length + 3⟩ ∈
          scan (u ++ (editor.paddedToken u.length content ++ v)) := by
      rw [scan_insert_single hopen (openAfter_paddedToken hcontent _ 0)
        (editor.scan_paddedToken u.length hcontent)]
      refine List.mem_append_right _ (List.mem_cons.2 (.inl ?_))
      simp only [shift, MetricToken.mk.injEq]
      omega
    have hunfold : editor.insertToken u.length content = (do
        editor.checkPosition u.length
        let edited := editor.withText
          (insertAt editor.text u.length (editor.paddedToken u.length content))
          (u.length + (editor.paddedToken u.length content).length)
        if edited.tokens.contains ⟨u.length + (editor.paddingBefore u.length).length,
            u.length + (editor.paddingBefore u.length).length + content.length + 3⟩ then
          return edited
        else throw .unclosedToken) := rfl
    rw [hunfold, hcheck, hinserted]
    exact if_pos (List.contains_iff_mem.2 hmem)

/-! ## Refusals -/

/-- A position that is refused is refused for a token as well. -/
theorem insertToken_of_checkPosition {reason : Refusal}
    (h : editor.checkPosition position = .error reason) :
    editor.insertToken position content = .error reason := by
  rw [insertToken, h]
  rfl

/-- A position is not refused for a brace. -/
theorem checkPosition_ne_unclosedToken :
    editor.checkPosition position ≠ .error .unclosedToken := by
  unfold checkPosition
  split
  next => exact fun h => by cases h
  next =>
    split
    next => exact fun h => by cases h
    next => exact fun h => by cases h

/-- At a position that is taken, a token is refused for a brace only. -/
theorem insertToken_eq_error (hcheck : editor.checkPosition position = .ok ()) {reason : Refusal}
    (h : editor.insertToken position content = .error reason) : reason = .unclosedToken := by
  unfold insertToken at h
  simp only [hcheck, bind, Except.bind, pure, Except.pure] at h
  split at h
  · cases h
  · cases h
    rfl

/-- Some opening brace in front of the position has no closing brace anywhere behind it. -/
def HasUnclosedBrace (text : List Char) (position : Nat) : Prop :=
  ∃ index < position, text[index]? = some openingBrace ∧ closingBrace ∉ text.drop (index + 1)

instance (text : List Char) (position : Nat) : Decidable (HasUnclosedBrace text position) :=
  inferInstanceAs (Decidable (∃ index < position, _))

/-- Between two parts of a text, a brace is never closed if the first part leaves one open and the
second part has no closing brace. -/
theorem hasUnclosedBrace_append_iff {u v : List Char} :
    HasUnclosedBrace (u ++ v) u.length ↔ openAfter 0 none u ≠ none ∧ closingBrace ∉ v := by
  have hdrop (before after : List Char) :
      (before ++ openingBrace :: after ++ v).drop (before.length + 1) = after ++ v := by
    rw [List.append_assoc, List.drop_length_add_append, List.cons_append, List.drop_one,
      List.tail_cons]
  rw [openAfter_ne_none_iff]
  constructor
  · rintro ⟨index, hlt, hbrace, hnever⟩
    rw [List.getElem?_append_left hlt] at hbrace
    obtain ⟨before, after, rfl, rfl⟩ := exists_append_cons hbrace
    rw [hdrop, List.mem_append, not_or] at hnever
    exact ⟨⟨before, after, rfl, hnever.1⟩, hnever.2⟩
  · rintro ⟨⟨before, after, rfl, hafter⟩, hv⟩
    refine ⟨before.length, by simp, by simp, ?_⟩
    rw [hdrop]
    exact List.not_mem_append hafter hv

/-- A position is refused if it is past the end, or else if it is inside a token. -/
theorem checkPosition_eq (hscanned : editor.IsScanned) (position : Nat) :
    editor.checkPosition position =
      if editor.text.length < position then .error .outOfBounds
      else if ∃ token ∈ scan editor.text, token.opening < position ∧ position ≤ token.closing then
        .error .insideToken
      else .ok () := by
  have hinside : (containing? editor.tokens position).isSome ↔
      ∃ token ∈ scan editor.text, token.opening < position ∧ position ≤ token.closing := by
    rw [hscanned, containing?, List.find?_isSome]
    simp [contains]
  simp only [checkPosition, length, hinside]

/-- At a stop, a token is refused if a brace in front of it is never closed, and inserted
otherwise. -/
theorem insertToken_eq (hscanned : editor.IsScanned) (hcontent : closingBrace ∉ content)
    (hstop : IsStop editor.text position) :
    editor.insertToken position content =
      if HasUnclosedBrace editor.text position then .error .unclosedToken
      else .ok (editor.withText
        (insertAt editor.text position (editor.paddedToken position content))
        (position + (editor.paddedToken position content).length)) := by
  have hcheck := (checkPosition_eq_ok_iff_isStop hscanned).2 hstop
  obtain ⟨u, v, htext, rfl⟩ := exists_append_of_le hstop.1
  rw [htext] at hstop
  rw [htext, insertAt_append]
  by_cases hopen : openAfter 0 none u = none
  · rw [if_neg fun hunclosed => (hasUnclosedBrace_append_iff.1 hunclosed).1 hopen]
    exact (insertToken_eq_ok_iff hscanned hcontent htext).2 ⟨hopen, rfl⟩
  · have hnever := (isStop_append_iff.1 hstop).resolve_left hopen
    rw [if_pos (hasUnclosedBrace_append_iff.2 ⟨hopen, hnever⟩)]
    rcases hinsert : editor.insertToken u.length content with reason | edited
    · rw [insertToken_eq_error hcheck hinsert]
    · exact absurd ((insertToken_eq_ok_iff hscanned hcontent htext).1 hinsert).1 hopen

/-! ## Metrics -/

/-- A metric is inserted where nothing is wrong with the id, the position or the braces in front of
it, and otherwise refused for the first of these. -/
theorem insertMetric_eq (hscanned : editor.IsScanned) (position : Nat) (id : String)
    (aggregate : Option Aggregate) :
    editor.insertMetric position id aggregate =
      if ¬Text.isIdentifier id.toList then .error .invalidMetricId
      else if editor.text.length < position then .error .outOfBounds
      else if ∃ token ∈ scan editor.text, token.opening < position ∧ position ≤ token.closing then
        .error .insideToken
      else if HasUnclosedBrace editor.text position then .error .unclosedToken
      else .ok (editor.withText
        (insertAt editor.text position (editor.paddedToken position (tokenContent id aggregate)))
        (position + (editor.paddedToken position (tokenContent id aggregate)).length)) := by
  by_cases hid : Text.isIdentifier id.toList
  · rw [insertMetric, if_pos hid, if_neg (not_not_intro hid)]
    have hcheck := checkPosition_eq hscanned position
    by_cases hlength : editor.text.length < position
    · rw [if_pos hlength] at hcheck ⊢
      exact insertToken_of_checkPosition hcheck
    rw [if_neg hlength] at hcheck ⊢
    by_cases hinside : ∃ token ∈ scan editor.text,
        token.opening < position ∧ position ≤ token.closing
    · rw [if_pos hinside] at hcheck ⊢
      exact insertToken_of_checkPosition hcheck
    -- What is left are the stops.
    rw [if_neg hinside] at hcheck ⊢
    exact insertToken_eq hscanned (notMem_tokenContent hid aggregate)
      ((checkPosition_eq_ok_iff_isStop hscanned).1 hcheck)
  · rw [insertMetric, if_neg hid, if_pos hid]

/-- One blank if it is wanted, and nothing otherwise. -/
def IsPadding (padding : List Char) (wanted : Prop) : Prop :=
  (wanted ∧ padding = [' ']) ∨ (¬wanted ∧ padding = [])

/-- A blank in front of a token is wanted behind a character that is not blank. -/
theorem isPadding_paddingBefore (editor : Editor) (position : Nat) :
    IsPadding (editor.paddingBefore position) (editor.options.padTokens ∧
      ∃ c, charBefore? editor.text position = some c ∧ ¬Text.isBlank c) := by
  unfold paddingBefore
  split
  next hwanted => exact .inl ⟨by simpa [Option.any_eq_true] using hwanted, rfl⟩
  next hwanted => exact .inr ⟨by simpa [Option.any_eq_true] using hwanted, rfl⟩

/-- A blank behind a token is wanted unless a blank follows, so also at the end. -/
theorem isPadding_paddingAfter (editor : Editor) (position : Nat) :
    IsPadding (editor.paddingAfter position) (editor.options.padTokens ∧
      ∀ c, editor.text[position]? = some c → ¬Text.isBlank c) := by
  unfold paddingAfter
  split
  next hwanted => exact .inl ⟨by simpa [Option.any_eq_false] using hwanted, rfl⟩
  next hwanted => exact .inr ⟨by simpa [Option.any_eq_true] using hwanted, rfl⟩

/-- A metric is refused exactly if its id is no identifier, or else the position is past the end, or
else the position is inside a token, or else a brace in front of it is never closed. Otherwise its
token is put in at the position, with a blank on each side on which the host wants one and none
stands, and the cursor goes behind what was put in. -/
theorem apply_insertMetric_eq (hreach : Reachable editor) (position : Option Nat) (id : String)
    (aggregate : Option Aggregate) :
    let place := position.getD editor.cursor
    let attempt := editor.apply (.insertMetric position id aggregate)
    attempt.1 =
      (if ¬Text.isIdentifier id.toList then .refused .invalidMetricId
      else if editor.text.length < place then .refused .outOfBounds
      else if ∃ token ∈ scan editor.text, token.opening < place ∧ place ≤ token.closing then
        .refused .insideToken
      else if HasUnclosedBrace editor.text place then .refused .unclosedToken
      else .applied) ∧
    (attempt.1 = .applied → ∃ left right,
      IsPadding left (editor.options.padTokens ∧
        ∃ c, charBefore? editor.text place = some c ∧ ¬Text.isBlank c) ∧
      IsPadding right (editor.options.padTokens ∧
        ∀ c, editor.text[place]? = some c → ¬Text.isBlank c) ∧
      attempt.2.text = editor.text.take place ++
        (left ++ tokenText (tokenContent id aggregate) ++ right) ++ editor.text.drop place ∧
      attempt.2.cursor =
        place + (left ++ tokenText (tokenContent id aggregate) ++ right).length) := by
  intro place attempt
  refine ⟨?_, fun happlied => ?_⟩
  · have hrun : editor.run (.insertMetric position id aggregate) = _ :=
      insertMetric_eq hreach.tokens_eq place id aggregate
    -- The reasons are looked for in the same order, and what is not refused is carried out.
    rcases hinsert : editor.run (.insertMetric position id aggregate) with reason | edited
    · have hattempt : attempt.1 = .refused reason := congrArg Prod.fst (apply_of_run_error hinsert)
      rw [hinsert] at hrun
      rw [hattempt]
      split_ifs at hrun ⊢ <;> cases hrun <;> rfl
    · have hattempt : attempt.1 = .applied := congrArg Prod.fst (apply_of_run_ok hinsert)
      rw [hinsert] at hrun
      rw [hattempt]
      split_ifs at hrun ⊢
      rfl
  · obtain ⟨-, hinsert⟩ := insertMetric_eq_ok_iff.1 (run_of_applied happlied)
    obtain ⟨-, hedited, -⟩ := insertToken_eq_ok hinsert
    have htext := congrArg Editor.text hedited
    have hcursor := congrArg Editor.cursor hedited
    exact ⟨_, _, editor.isPadding_paddingBefore place, editor.isPadding_paddingAfter place, htext,
      hcursor⟩

/-- Between a token and a brace that is never closed, a metric goes in with a blank on both sides,
and behind that brace none goes in. -/
theorem apply_insertMetric_before_unclosed_brace :
    let editor := ofText "\x7d \x7b a \x7d\x7b b".toList {}
    let attempt := editor.apply (.insertMetric (some 7) "c" none)
    Reachable editor ∧ attempt.1 = .applied ∧
      attempt.2.text = "\x7d \x7b a \x7d \x7b c \x7d \x7b b".toList ∧
      (editor.apply (.insertMetric none "c" none)).1 = .refused .unclosedToken := by
  intro editor attempt
  have hreach : Reachable editor := .ofText _ _
  have happlied : attempt.1 = .applied :=
    (apply_insertMetric_eq hreach (some 7) "c" none).1.trans (by decide)
  obtain ⟨left, right, hleft, hright, htext, -⟩ :=
    (apply_insertMetric_eq hreach (some 7) "c" none).2 happlied
  -- Neither the brace in front of the place nor the one behind it is blank.
  have hprevious : charBefore? editor.text 7 = some closingBrace := by decide
  have hnext : editor.text[7]? = some openingBrace := by decide
  have hbefore : left = [' '] :=
    (hleft.resolve_right fun h => h.1 ⟨rfl, closingBrace, hprevious, by decide⟩).2
  have hafter : right = [' '] := by
    refine (hright.resolve_right fun h => h.1 ⟨rfl, fun c hc => ?_⟩).2
    rw [← Option.some.inj (hnext.symm.trans hc)]
    decide
  refine ⟨hreach, happlied, ?_, (apply_insertMetric_eq hreach none "c" none).1.trans (by decide)⟩
  rw [hbefore, hafter] at htext
  exact htext

end Editor

end MetricFormula
