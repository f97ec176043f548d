import MetricFormula.Proofs.Editing.Typing

/-!
# Taking back an insertion

What was inserted is taken back by deleting backward at the cursor, once for a character and once
for a token and for each of the blanks around it. A deletion looks at the tokens of the whole text,
so this needs that what was inserted is recognized as what it is among any other characters: a
character that was typed ends no token, and a token that was inserted is one of the tokens of the
text also after the blank behind it was deleted.

## Main results

* `Editor.deleteBackward_char`, `Editor.deleteBackward_token`: deleting what stands between two
  parts of a text;
* `Editor.run_deleteBackward_of_insertChar`: a character that was typed;
* `Editor.runAll_deleteBackward_padded`: deleting a token and the blanks around it;
* `Editor.runAll_deleteBackward_of_insertToken`: a token that was inserted;
* `Editor.Reachable.backspaces_restore`: both, in every state that an editor gets into.
-/

namespace MetricFormula

namespace Editor

open MetricToken

variable {editor edited : Editor} {position : Nat} {u v : List Char}

/-! ## Deleting between two parts of a text -/

/-- What stands between two parts of the text is removed. -/
theorem remove_between {removed : List Char} (htext : editor.text = u ++ (removed ++ v)) :
    editor.remove u.length (u.length + removed.length) = editor.withText (u ++ v) u.length := by
  have htake : editor.text.take u.length = u := by rw [htext, List.take_left]
  have hdrop : editor.text.drop (u.length + removed.length) = v := by
    rw [htext, ← List.drop_drop, List.drop_left, List.drop_left]
  rw [remove, htake, hdrop]

/-- Where no token ends, the character in front of a stop is deleted. -/
theorem deleteBackward_char {c : Char} (hscanned : editor.IsScanned)
    (htext : editor.text = u ++ ([c] ++ v)) (hstop : IsStop editor.text (u.length + 1))
    (hending : endingAt? editor.tokens (u.length + 1) = none) :
    editor.deleteBackward (u.length + 1) = .ok (editor.withText (u ++ v) u.length) := by
  have hinside : containing? editor.tokens (u.length + 1) = none := hscanned ▸ hstop.2
  have hremoved : editor.remove u.length (u.length + [c].length) =
      editor.withText (u ++ v) u.length := remove_between htext
  exact deleteBackward_eq_ok_iff.2
    ⟨hstop.1, Nat.succ_pos _, .inr ⟨hending, hinside, hremoved.symm⟩⟩

/-- A token is deleted as a whole from behind. -/
theorem deleteBackward_token {inner : List Char} (hscanned : editor.IsScanned)
    (htext : editor.text = u ++ (openingBrace :: (inner ++ [closingBrace]) ++ v))
    (hopen : openAfter 0 none u = none) (hinner : closingBrace ∉ inner) :
    editor.deleteBackward (u.length + (openingBrace :: (inner ++ [closingBrace])).length) =
      .ok (editor.withText (u ++ v) u.length) := by
  let token : MetricToken := ⟨u.length, u.length + inner.length + 1⟩
  have hlength : (openingBrace :: (inner ++ [closingBrace])).length = inner.length + 2 := by simp
  have hmem : token ∈ scan editor.text := by
    rw [htext, scan_insert_single hopen (openAfter_token hinner 0) (scan_token hinner)]
    refine List.mem_append_right _ (List.mem_cons.2 (.inl ?_))
    simp only [token, shift, MetricToken.mk.injEq]
    omega
  have hafter : token.after = u.length + (openingBrace :: (inner ++ [closingBrace])).length := by
    rw [after, hlength, Nat.add_assoc, Nat.add_assoc]
  -- The token is found by its end, and the cursor may stand there.
  have hending := endingAt?_after hmem
  have hstop := isStop_after hmem
  have hremoved := remove_between htext
  rw [← hscanned] at hending
  rw [← hafter] at hremoved ⊢
  exact deleteBackward_eq_ok_iff.2
    ⟨hstop.1, Nat.succ_pos _, .inl ⟨token, hending, hremoved.symm⟩⟩

/-- A character in front of the cursor is deleted alone unless it is a closing brace. -/
theorem run_deleteBackward_char (editor : Editor) {c : Char} (hc : c ≠ closingBrace)
    (hstop : IsStop (u ++ ([c] ++ v)) (u.length + 1)) :
    (editor.withText (u ++ ([c] ++ v)) (u.length + 1)).run (.deleteBackward none) =
      .ok (editor.withText (u ++ v) u.length) := by
  refine deleteBackward_char rfl rfl hstop (List.find?_eq_none.2 fun token hmem hafter => hc ?_)
  -- A token that ended there would end with this character.
  have hclosing : token.closing = u.length := Nat.succ.inj (beq_iff_eq.1 hafter)
  have hbrace := getElem?_closing hmem
  rw [hclosing, List.getElem?_append_right (Nat.le_refl _), Nat.sub_self] at hbrace
  exact Option.some.inj hbrace

/-- The blank around a token is deleted if there is one. -/
theorem runAll_deleteBackward_padding (editor : Editor) {padding : List Char}
    (hpadding : padding = [] ∨ padding = [' ']) (hopen : openAfter 0 none u = none)
    (v : List Char) :
    (editor.withText (u ++ (padding ++ v)) (u.length + padding.length)).runAll
        (List.replicate padding.length (.deleteBackward none)) =
      .ok (editor.withText (u ++ v) u.length) := by
  rcases hpadding with rfl | rfl
  · rfl
  · have hblank : openAfter 0 none (u ++ [' ']) = none := by
      rw [openAfter_append, hopen, openAfter_none (by decide)]
    have hstop : IsStop ((u ++ [' ']) ++ v) (u ++ [' ']).length :=
      isStop_append_iff.2 (.inl hblank)
    rw [List.append_assoc, List.length_append] at hstop
    exact runAll_cons (run_deleteBackward_char editor (by decide) hstop) []

/-- A token with blanks around it is deleted by one deletion for each of them, the one for the blank
behind it first. -/
theorem runAll_deleteBackward_padded (editor : Editor) {left inner right : List Char}
    (hleft : left = [] ∨ left = [' ']) (hinner : closingBrace ∉ inner)
    (hright : right = [] ∨ right = [' ']) (hopen : openAfter 0 none u = none) (v : List Char) :
    let inserted := left ++ (openingBrace :: (inner ++ [closingBrace]) ++ right)
    (editor.withText (u ++ (inserted ++ v)) (u.length + inserted.length)).runAll
        (List.replicate (left.length + right.length + 1) (.deleteBackward none)) =
      .ok (editor.withText (u ++ v) u.length) := by
  intro inserted
  let token := openingBrace :: (inner ++ [closingBrace])
  have hopenLeft : openAfter 0 none (u ++ left) = none := by
    rw [openAfter_append, hopen, openAfter_none (notMem_padding (by decide) hleft)]
  have hopenToken : openAfter 0 none (u ++ left ++ token) = none := by
    rw [openAfter_append, hopenLeft, openAfter_token hinner]
  -- Each deletion leaves the text in front of what it deletes, and no brace is open behind that.
  have hlast := runAll_deleteBackward_padding editor hright hopenToken v
  have htoken : (editor.withText (u ++ left ++ (token ++ v))
      ((u ++ left).length + token.length)).run (.deleteBackward none) =
        .ok (editor.withText (u ++ left ++ v) (u ++ left).length) :=
    deleteBackward_token rfl rfl hopenLeft hinner
  have hfirst := runAll_deleteBackward_padding editor hleft hopen v
  rw [← List.append_assoc u left v, ← List.length_append] at hfirst
  rw [← List.append_assoc (u ++ left) token v, ← List.length_append] at htoken
  have htext : u ++ (inserted ++ v) = u ++ left ++ token ++ (right ++ v) := by
    simp [inserted, token]
  have hcursor : u.length + inserted.length = (u ++ left ++ token).length + right.length := by
    simp only [inserted, token, List.length_append, List.length_cons, List.length_nil]
    omega
  have hedits : List.replicate (left.length + right.length + 1) (Edit.deleteBackward none) =
      List.replicate right.length (.deleteBackward none) ++
        .deleteBackward none :: List.replicate left.length (.deleteBackward none) := by
    rw [← List.replicate_succ, List.replicate_append_replicate]
    congr 1
    omega
  rw [htext, hcursor, hedits, runAll_append hlast, runAll_cons htoken, hfirst]

/-! ## What was inserted -/

/-- An editor that has its text again is the editor before, apart from the cursor. -/
theorem IsScanned.withText_text (hscanned : editor.IsScanned) (cursor : Nat) :
    editor.withText editor.text cursor = { editor with cursor } := by
  rw [withText, ← hscanned]

/-- A character that was typed is deleted again. -/
theorem run_deleteBackward_of_insertChar {c : Char} (hscanned : editor.IsScanned)
    (h : editor.insertChar position c = .ok edited) :
    edited.run (.deleteBackward none) = .ok { editor with cursor := position } := by
  have hstop := isStop_of_insertChar hscanned h
  obtain ⟨hcheck, hallowed, -, rfl⟩ := insertChar_eq_ok_iff.1 h
  obtain ⟨u, v, htext, rfl⟩ := exists_append_of_le (checkPosition_eq_ok_iff.1 hcheck).1
  have hinserted : insertAt editor.text u.length [c] = u ++ ([c] ++ v) := by
    rw [htext, insertAt_append]
  rw [hinserted] at hstop ⊢
  rw [← hscanned.withText_text, htext]
  exact run_deleteBackward_char editor (ne_brace_of_allows hallowed).2.symm hstop

/-- A token that was inserted is deleted again, with the blanks that were put around it. -/
theorem runAll_deleteBackward_of_insertToken {content : List Char} (hscanned : editor.IsScanned)
    (hcontent : closingBrace ∉ content)
    (h : editor.insertToken position content = .ok edited) :
    edited.runAll (List.replicate ((editor.paddingBefore position).length +
        (editor.paddingAfter position).length + 1) (.deleteBackward none)) =
      .ok { editor with cursor := position } := by
  obtain ⟨hcheck, -, -⟩ := insertToken_eq_ok h
  obtain ⟨u, v, htext, rfl⟩ := exists_append_of_le (checkPosition_eq_ok_iff.1 hcheck).1
  obtain ⟨hopen, rfl⟩ := (insertToken_eq_ok_iff hscanned hcontent htext).1 h
  obtain ⟨inner, hpadded, hinner, -⟩ := editor.exists_paddedToken_eq u.length hcontent
  obtain ⟨hleft, hright⟩ := padding_eq editor u.length
  rw [hpadded, ← hscanned.withText_text, htext]
  exact runAll_deleteBackward_padded editor hleft hinner hright hopen v

/-- In every state that an editor gets into and at every position, a character that is typed is
deleted again by deleting backward once, and a metric that is inserted by deleting backward once for
the token and once for each of the blanks that were put around it. None of these deletions is
refused, and they leave the text and the tokens as they were, with the cursor at the position. -/
theorem Reachable.backspaces_restore (hreach : Reachable editor) (position : Option Nat) :
    (∀ c, (editor.apply (.insertChar position c)).1 = .applied →
      (editor.apply (.insertChar position c)).2.apply (.deleteBackward none) =
        (.applied, { editor with cursor := position.getD editor.cursor })) ∧
    ∀ id aggregate, (editor.apply (.insertMetric position id aggregate)).1 = .applied →
      ∃ left right, (left = [] ∨ left = [' ']) ∧ (right = [] ∨ right = [' ']) ∧
        (editor.apply (.insertMetric position id aggregate)).2.text =
          insertAt editor.text (position.getD editor.cursor)
            (left ++ tokenText (tokenContent id aggregate) ++ right) ∧
        (editor.apply (.insertMetric position id aggregate)).2.runAll
            (List.replicate (left.length + right.length + 1) (.deleteBackward none)) =
          .ok { editor with cursor := position.getD editor.cursor } := by
  refine ⟨fun c happlied => ?_, fun id aggregate happlied => ?_⟩
  · exact apply_of_run_ok (run_deleteBackward_of_insertChar hreach.tokens_eq
      (run_of_applied happlied))
  · obtain ⟨hid, hinsert⟩ := insertMetric_eq_ok_iff.1 (run_of_applied happlied)
    obtain ⟨-, hedited, -⟩ := insertToken_eq_ok hinsert
    obtain ⟨hleft, hright⟩ := padding_eq editor (position.getD editor.cursor)
    exact ⟨_, _, hleft, hright, congrArg Editor.text hedited,
      runAll_deleteBackward_of_insertToken hreach.tokens_eq (notMem_tokenContent hid aggregate)
        hinsert⟩

/-- Between a token and a number, behind a stray brace and in front of one that is never closed, a
digit and a metric with a blank on both sides are inserted and deleted again. -/
theorem backspaces_restore_before_number :
    let editor := ofText "\x7d \x7b b \x7d1 \x7b 2".toList {}
    let inserted := (editor.apply (.insertMetric (some 7) "c" (some .average))).2
    Reachable editor ∧ (editor.apply (.insertChar (some 7) '0')).1 = .applied ∧
      (editor.apply (.insertChar (some 7) '0')).2.apply (.deleteBackward none) =
        (.applied, { editor with cursor := 7 }) ∧
      (editor.apply (.insertMetric (some 7) "c" (some .average))).1 = .applied ∧
      inserted.text = "\x7d \x7b b \x7d \x7b Avg(c) \x7d 1 \x7b 2".toList ∧
      inserted.runAll (List.replicate 3 (.deleteBackward none)) =
        .ok { editor with cursor := 7 } := by
  intro editor inserted
  have hreach : Reachable editor := .ofText _ _
  obtain ⟨hchar, hmetric⟩ := hreach.backspaces_restore (some 7)
  have htyped : (editor.apply (.insertChar (some 7) '0')).1 = .applied := by decide
  have happlied : (editor.apply (.insertMetric (some 7) "c" (some .average))).1 = .applied := by
    decide
  have htext : inserted.text = "\x7d \x7b b \x7d \x7b Avg(c) \x7d 1 \x7b 2".toList := by decide
  obtain ⟨left, right, -, -, hinserted, hrun⟩ := hmetric "c" (some .average) happlied
  -- The text got longer by the token and two blanks.
  have hcount : left.length + right.length = 2 := by
    have hlength := congrArg List.length (htext.symm.trans hinserted)
    rw [insertAt, List.length_append, List.length_append, List.length_append,
      List.length_append] at hlength
    have hfront : (editor.text.take 7).length = 7 := by decide
    have htoken : (tokenText (tokenContent "c" (some .average))).length = 10 := by decide
    have hback : (editor.text.drop 7).length = 5 := by decide
    have hwhole : "\x7d \x7b b \x7d \x7b Avg(c) \x7d 1 \x7b 2".toList.length = 24 := by decide
    rw [htoken, hwhole, Option.getD_some, hfront, hback] at hlength
    omega
  rw [hcount] at hrun
  exact ⟨hreach, htyped, hchar '0' htyped, happlied, htext, hrun⟩

end Editor

end MetricFormula
