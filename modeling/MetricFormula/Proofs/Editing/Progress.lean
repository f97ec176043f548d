import MetricFormula.Proofs.Editing.Undo

/-!
# Editing at the cursor

An edit that names no position is made at the cursor, and the cursor is never where an edit is
refused for its position. So deleting at the cursor goes on until nothing is left on that side. What
stands in front of the cursor are units, tokens and characters that lie in no token, and each
deletion takes the last of them and leaves the others as they were, whatever braces stand among
them.

## Main definitions

* `Edit.IsAtCursor`: an edit that names no position;
* `Editor.unitsBefore`: the number of units in front of a position.

## Main results

* `Editor.unitsBefore_append`: the units in front of a stop are those of the text in front of it;
* `Editor.exists_deleteBackward`: deleting backward at a stop takes one unit;
* `Editor.exists_run_deleteBackward`: so does one deletion at the cursor;
* `Editor.exists_runAll_deleteBackward`: as many deletions as there are units take all of them;
* `Editor.refusal_ne_of_isAtCursor`: at the cursor no edit is refused for its position;
* `Editor.Reachable.never_stuck`: editing at the cursor in every state that an editor gets into.
-/

namespace MetricFormula

open MetricToken

/-- The edit names no position, and is made at the cursor if it needs one. -/
def Edit.IsAtCursor : Edit → Prop
  | .insertChar position _ | .deleteBackward position | .deleteForward position
  | .insertMetric position _ _ => position = none
  | .moveCursor _ => False
  | .moveLeft | .moveRight | .clear => True

namespace Editor

variable {editor : Editor} {position : Nat}

/-! ## Units in front of a position -/

/-- The character at the index lies in none of the tokens. -/
def IsOutside (tokens : List MetricToken) (index : Nat) : Prop :=
  ∀ token ∈ tokens, index < token.opening ∨ token.closing < index

instance (tokens : List MetricToken) (index : Nat) : Decidable (IsOutside tokens index) :=
  inferInstanceAs (Decidable (∀ token ∈ tokens, _))

/-- The number of tokens that end before a position and of characters before it that lie in no
token. -/
def unitsBefore (text : List Char) (position : Nat) : Nat :=
  (scan text).countP (fun token => token.closing < position) +
    (List.range position).countP (fun index => IsOutside (scan text) index)

/-- Nothing stands in front of the beginning. -/
theorem unitsBefore_zero (text : List Char) : unitsBefore text 0 = 0 := by
  simp [unitsBefore]

/-- In front of the end of a text, the units are all of its tokens and the characters outside. -/
theorem unitsBefore_length (text : List Char) :
    unitsBefore text text.length = (scan text).length +
      (List.range text.length).countP (fun index => IsOutside (scan text) index) := by
  have hall : (scan text).countP (fun token => token.closing < text.length) = (scan text).length :=
    List.countP_eq_length.2 fun token hmem => decide_eq_true (bounds_of_mem_scan hmem).2
  rw [unitsBefore, hall]

/-- Tokens that begin at a position or behind it do not matter to the characters in front of it. -/
theorem countP_isOutside_append {tokens later : List MetricToken}
    (hlater : ∀ token ∈ later, position ≤ token.opening) :
    (List.range position).countP (fun index => IsOutside (tokens ++ later) index) =
      (List.range position).countP (fun index => IsOutside tokens index) := by
  refine List.countP_congr fun index hindex => ?_
  rw [decide_eq_true_iff, decide_eq_true_iff, IsOutside, List.forall_mem_append]
  refine and_iff_left fun token hmem => .inl ?_
  exact Nat.lt_of_lt_of_le (List.mem_range.1 hindex) (hlater token hmem)

/-- The units in front of a stop do not depend on the text behind it. -/
theorem unitsBefore_append {u v : List Char} (hstop : IsStop (u ++ v) u.length) :
    unitsBefore (u ++ v) u.length = unitsBefore u u.length := by
  obtain ⟨later, hscan, hlater⟩ := exists_scan_append hstop.2
  have hnone : later.countP (fun token => token.closing < u.length) = 0 := by
    refine List.countP_eq_zero.2 fun token hmem hclosing => ?_
    have hopening := hlater token hmem
    have hbounds := bounds_of_mem_scan (hscan ▸ List.mem_append_right _ hmem)
    rw [decide_eq_true_iff] at hclosing
    omega
  rw [unitsBefore, unitsBefore, hscan, List.countP_append, hnone, Nat.add_zero,
    countP_isOutside_append hlater]

/-- A token is one unit more. -/
theorem unitsBefore_append_token {u inner : List Char} (hopen : openAfter 0 none u = none)
    (hinner : closingBrace ∉ inner) :
    unitsBefore (u ++ openingBrace :: (inner ++ [closingBrace]))
        (u ++ openingBrace :: (inner ++ [closingBrace])).length =
      unitsBefore u u.length + 1 := by
  have hscan : scan (u ++ openingBrace :: (inner ++ [closingBrace])) =
      scan u ++ [⟨u.length, u.length + inner.length + 1⟩] := by
    rw [scan_append hopen, scan_token hinner, List.map_singleton, shift, Nat.zero_add, Nat.add_comm,
      Nat.add_assoc]
  have hlength : (u ++ openingBrace :: (inner ++ [closingBrace])).length =
      u.length + (inner.length + 2) := by simp
  -- All of its characters lie in it, so it counts once.
  have hinside : ((List.range (inner.length + 2)).map (u.length + ·)).countP
      (fun index => IsOutside (scan u ++ [⟨u.length, u.length + inner.length + 1⟩]) index) = 0 := by
    refine List.countP_eq_zero.2 fun index hmem houtside => ?_
    obtain ⟨offset, hoffset, rfl⟩ := List.mem_map.1 hmem
    have htoken := of_decide_eq_true houtside _
      (List.mem_append_right _ (List.mem_singleton_self _))
    rw [List.mem_range] at hoffset
    simp only at htoken
    omega
  rw [unitsBefore_length, unitsBefore_length, hscan, hlength, List.range_add, List.countP_append,
    hinside, countP_isOutside_append (by simp), List.length_append, List.length_singleton]
  omega

/-- So is a character that is no end of a token. -/
theorem unitsBefore_append_char {u : List Char} {c : Char} (hscan : scan (u ++ [c]) = scan u) :
    unitsBefore (u ++ [c]) (u ++ [c]).length = unitsBefore u u.length + 1 := by
  have houtside : IsOutside (scan u) u.length := fun token hmem =>
    .inr (bounds_of_mem_scan hmem).2
  rw [unitsBefore_length, unitsBefore_length, hscan, List.length_append, List.length_singleton,
    List.range_succ, List.countP_append, List.countP_singleton, decide_eq_true houtside, if_pos rfl,
    Nat.add_assoc]

/-! ## One deletion -/

/-- Between two parts of a text, a character that lies in no token has no part in the tokens in
front of it. -/
theorem scan_append_char {u v : List Char} {c : Char}
    (houtside : IsOutside (scan (u ++ ([c] ++ v))) u.length) : scan (u ++ [c]) = scan u := by
  have hboundary : IsBoundary (u ++ ([c] ++ v)) u.length :=
    isBoundary_iff_forall.2 fun token hmem => (houtside token hmem).imp_left Nat.le_of_lt
  rcases isBoundary_iff.1 hboundary with hopen | hnever
  · have hsingle : scan [c] = [] := by simp [scan, scanFrom]
    rw [scan_append hopen, hsingle, List.map_nil, List.append_nil]
  · exact scan_append_of_notMem u fun hmem => hnever (List.mem_append_left v hmem)

/-- Behind the beginning, deleting backward at a stop is not refused, and takes the last unit in
front of it. -/
theorem exists_deleteBackward (hscanned : editor.IsScanned) (hstop : IsStop editor.text position)
    (hpos : 0 < position) :
    ∃ u w v, editor.text = u ++ (w ++ v) ∧ (u ++ w).length = position ∧
      editor.deleteBackward position = .ok (editor.withText (u ++ v) u.length) ∧
      unitsBefore (u ++ w) (u ++ w).length = unitsBefore u u.length + 1 := by
  rcases hending : endingAt? editor.tokens position with _ | token
  · -- No token ends here, so the character in front lies in none.
    have hinside : containing? editor.tokens position = none := hscanned ▸ hstop.2
    obtain ⟨index, rfl⟩ : ∃ index, position = index + 1 := ⟨position - 1, by omega⟩
    have houtside := outside_of_endingAt?_eq_none hending hinside
    obtain ⟨c, hc⟩ : ∃ c, editor.text[index]? = some c := ⟨_, List.getElem?_eq_getElem hstop.1⟩
    obtain ⟨u, v, htext, rfl⟩ := exists_append_cons hc
    rw [hscanned, htext] at houtside
    exact ⟨u, [c], v, htext, List.length_append, deleteBackward_char hscanned htext hstop hending,
      unitsBefore_append_char (scan_append_char houtside)⟩
  · -- The token that ends here stands behind a text that leaves no brace open.
    have hmem : token ∈ scan editor.text := hscanned ▸ List.mem_of_find?_eq_some hending
    have hafter := List.find?_some hending
    rw [beq_iff_eq] at hafter
    obtain ⟨u, inner, v, htext, hinner, hopen, rfl⟩ := exists_of_mem_scan hmem
    let w := openingBrace :: (inner ++ [closingBrace])
    have hparts : editor.text = u ++ (w ++ v) := by simp [w, htext]
    have hlength : (u ++ w).length = position := by simp [w, ← hafter, after, Nat.add_assoc]
    have hdelete := deleteBackward_token hscanned hparts hopen hinner
    rw [← List.length_append, hlength] at hdelete
    exact ⟨u, w, v, hparts, hlength, hdelete, unitsBefore_append_token hopen hinner⟩

/-- At the beginning there is nothing to delete backward. -/
theorem deleteBackward_zero (editor : Editor) :
    editor.deleteBackward 0 = .error .nothingToDelete := by
  rw [deleteBackward, if_neg (Nat.not_lt_zero _), if_pos rfl]

/-- At a stop, deleting backward is refused only at the beginning. -/
theorem deleteBackward_eq_error_iff (hscanned : editor.IsScanned)
    (hstop : IsStop editor.text position) {reason : Refusal} :
    editor.deleteBackward position = .error reason ↔ position = 0 ∧ reason = .nothingToDelete := by
  rcases Nat.eq_zero_or_pos position with rfl | hpos
  · rw [deleteBackward_zero, Except.error.injEq, eq_comm, and_iff_right rfl]
  · obtain ⟨u, w, v, -, -, hdelete, -⟩ := exists_deleteBackward hscanned hstop hpos
    rw [hdelete]
    exact iff_of_false (fun h => by cases h) fun h => Nat.ne_of_gt hpos h.1

/-- At a stop, deleting forward is refused only at the end. -/
theorem deleteForward_eq_error_iff (hscanned : editor.IsScanned)
    (hstop : IsStop editor.text position) {reason : Refusal} :
    editor.deleteForward position = .error reason ↔
      position = editor.text.length ∧ reason = .nothingToDelete := by
  have hcheck := (checkPosition_eq_ok_iff_isStop hscanned).2 hstop
  rcases Nat.eq_or_lt_of_le hstop.1 with hend | hlt
  · have hdelete : editor.deleteForward position = .error .nothingToDelete := by
      rw [deleteForward, hcheck]
      exact if_pos hend
    rw [hdelete, Except.error.injEq, eq_comm, and_iff_right hend]
  · -- Either a token begins here, or the character behind the position lies in none.
    obtain ⟨edited, hdelete⟩ : ∃ edited, editor.deleteForward position = .ok edited := by
      rcases hstarting : startingAt? editor.tokens position with _ | token
      · exact ⟨_, deleteForward_eq_ok_iff.2 ⟨hcheck, hlt, .inr ⟨hstarting, rfl⟩⟩⟩
      · exact ⟨_, deleteForward_eq_ok_iff.2 ⟨hcheck, hlt, .inl ⟨token, hstarting, rfl⟩⟩⟩
    rw [hdelete]
    exact iff_of_false (fun h => by cases h) fun h => Nat.ne_of_lt hlt h.1

/-! ## Runs of deletions -/

/-- One deletion at the cursor leaves one unit less in front of it and the text behind it. -/
theorem exists_run_deleteBackward (hscanned : editor.IsScanned)
    (hstop : IsStop editor.text editor.cursor) (hpos : 0 < editor.cursor) :
    ∃ edited, editor.run (.deleteBackward none) = .ok edited ∧
      unitsBefore editor.text editor.cursor = unitsBefore edited.text edited.cursor + 1 ∧
      edited.text.drop edited.cursor = editor.text.drop editor.cursor := by
  obtain ⟨u, w, v, htext, hlength, hdelete, hunits⟩ := exists_deleteBackward hscanned hstop hpos
  have hrun : editor.run (.deleteBackward none) = .ok (editor.withText (u ++ v) u.length) := hdelete
  -- The cursor is at a stop of both texts, so only the text in front of it counts.
  have hnext : IsStop (u ++ v) u.length := isStop_of_run hscanned hstop hrun
  rw [← hlength, htext, ← List.append_assoc] at hstop
  refine ⟨_, hrun, ?_, ?_⟩
  · calc unitsBefore editor.text editor.cursor
        = unitsBefore ((u ++ w) ++ v) (u ++ w).length := by
          rw [htext, ← hlength, List.append_assoc]
      _ = unitsBefore u u.length + 1 := by rw [unitsBefore_append hstop, hunits]
      _ = unitsBefore (u ++ v) u.length + 1 := by rw [unitsBefore_append hnext]
  · rw [htext, ← hlength, ← List.append_assoc, List.drop_left]
    exact List.drop_left

/-- As many deletions at the cursor as there are units in front of it are carried out, and leave the
text behind it. -/
theorem exists_runAll_deleteBackward {count : Nat} (hscanned : editor.IsScanned)
    (hstop : IsStop editor.text editor.cursor)
    (hcount : unitsBefore editor.text editor.cursor = count) :
    ∃ edited, editor.runAll (List.replicate count (.deleteBackward none)) = .ok edited ∧
      edited.cursor = 0 ∧ edited.text = editor.text.drop editor.cursor := by
  -- By induction on the number of units, since each deletion takes one of them.
  induction count generalizing editor with
  | zero =>
    have hcursor : editor.cursor = 0 := by
      by_contra hne
      obtain ⟨edited, -, hunits, -⟩ :=
        exists_run_deleteBackward hscanned hstop (Nat.pos_of_ne_zero hne)
      omega
    exact ⟨editor, rfl, hcursor, by rw [hcursor, List.drop_zero]⟩
  | succ count ih =>
    have hpos : 0 < editor.cursor := by
      refine Nat.pos_of_ne_zero fun hcursor => ?_
      rw [hcursor, unitsBefore_zero] at hcount
      omega
    obtain ⟨next, hrun, hunits, hbehind⟩ := exists_run_deleteBackward hscanned hstop hpos
    obtain ⟨edited, hedits, hcursor, htext⟩ :=
      ih (hscanned.run hrun) (isStop_of_run hscanned hstop hrun) (by omega)
    exact ⟨edited, (runAll_cons hrun _).trans hedits, hcursor, htext.trans hbehind⟩

/-! ## Editing at the cursor -/

/-- At a position that is taken, a character is refused for what it is or for its neighbours. -/
theorem insertChar_eq_error {c : Char} (hcheck : editor.checkPosition position = .ok ())
    {reason : Refusal} (h : editor.insertChar position c = .error reason) :
    reason = .disallowedCharacter ∨ reason = .adjacentOperator := by
  unfold insertChar at h
  simp only [hcheck, bind, Except.bind, pure, Except.pure] at h
  split at h
  · cases h
    exact .inl rfl
  · split at h
    · cases h
      exact .inr rfl
    · cases h

/-- At a position that is taken, a metric is refused for its id or for an open brace. -/
theorem insertMetric_eq_error {id : String} {aggregate : Option Aggregate}
    (hcheck : editor.checkPosition position = .ok ()) {reason : Refusal}
    (h : editor.insertMetric position id aggregate = .error reason) :
    reason = .invalidMetricId ∨ reason = .unclosedToken := by
  unfold insertMetric at h
  split at h
  · exact .inr (insertToken_eq_error hcheck h)
  · cases h
    exact .inl rfl

/-- At a stop, an edit that names no position is not refused for its position. -/
theorem refusal_ne_of_isAtCursor (hscanned : editor.IsScanned)
    (hstop : IsStop editor.text editor.cursor) {edit : Edit} (hat : edit.IsAtCursor)
    {reason : Refusal} (h : editor.run edit = .error reason) :
    reason ≠ .outOfBounds ∧ reason ≠ .insideToken := by
  have hcheck := (checkPosition_eq_ok_iff_isStop hscanned).2 hstop
  cases edit with
  | insertChar position c =>
    cases hat
    rcases insertChar_eq_error hcheck h with rfl | rfl <;> decide
  | deleteBackward position =>
    cases hat
    obtain ⟨-, rfl⟩ := (deleteBackward_eq_error_iff hscanned hstop).1 h
    decide
  | deleteForward position =>
    cases hat
    obtain ⟨-, rfl⟩ := (deleteForward_eq_error_iff hscanned hstop).1 h
    decide
  | insertMetric position id aggregate =>
    cases hat
    rcases insertMetric_eq_error hcheck h with rfl | rfl <;> decide
  | moveCursor position => exact hat.elim
  | moveLeft => cases h
  | moveRight => cases h
  | clear => cases h

/-- An edit that is refused in one case and for one reason is carried out in all others. -/
theorem apply_eq_applied_iff {edit : Edit} {p : Prop} {refusal : Refusal}
    (hrefused : ∀ reason, editor.run edit = .error reason ↔ p ∧ reason = refusal) :
    (editor.apply edit).1 = .applied ↔ ¬p := by
  rcases hrun : editor.run edit with reason | edited
  · have hp := ((hrefused reason).1 hrun).1
    rw [apply_of_run_error hrun]
    exact iff_of_false (fun h => by cases h) (not_not_intro hp)
  · have hp : ¬p := fun hp => by
      cases hrun.symm.trans ((hrefused refusal).2 ⟨hp, rfl⟩)
    rw [apply_of_run_ok hrun]
    exact iff_of_true rfl hp

/-- In every state that an editor gets into, an edit that names no position is not refused for its
position, and deleting at the cursor is refused only where nothing is left on that side. As many
deletions backward as there are units in front of the cursor are carried out one after the other.
They leave what stands behind the cursor, with the cursor in front of it, and one more deletion is
refused. -/
theorem Reachable.never_stuck (hreach : Reachable editor) :
    (∀ edit : Edit, edit.IsAtCursor →
      (editor.apply edit).1 ≠ .refused .outOfBounds ∧
        (editor.apply edit).1 ≠ .refused .insideToken) ∧
    ((editor.apply (.deleteBackward none)).1 = .applied ↔ 0 < editor.cursor) ∧
    ((editor.apply (.deleteForward none)).1 = .applied ↔ editor.cursor < editor.text.length) ∧
    ∃ edited, editor.runAll (List.replicate (unitsBefore editor.text editor.cursor)
        (.deleteBackward none)) = .ok edited ∧
      edited.cursor = 0 ∧ edited.text = editor.text.drop editor.cursor ∧
      edited.apply (.deleteBackward none) = (.refused .nothingToDelete, edited) := by
  have hscanned : editor.IsScanned := hreach.tokens_eq
  have hstop := hreach.isStop
  refine ⟨fun edit hat => ?_, ?_, ?_, ?_⟩
  · rcases hrun : editor.run edit with reason | edited
    · obtain ⟨hbounds, hinside⟩ := refusal_ne_of_isAtCursor hscanned hstop hat hrun
      rw [apply_of_run_error hrun]
      exact ⟨fun h => hbounds (Outcome.refused.inj h), fun h => hinside (Outcome.refused.inj h)⟩
    · rw [apply_of_run_ok hrun]
      exact ⟨(fun h => by cases h), (fun h => by cases h)⟩
  · rw [Nat.pos_iff_ne_zero]
    exact apply_eq_applied_iff fun _ => deleteBackward_eq_error_iff hscanned hstop
  · rw [Nat.lt_iff_le_and_ne, and_iff_right hstop.1]
    exact apply_eq_applied_iff fun _ => deleteForward_eq_error_iff hscanned hstop
  · obtain ⟨edited, hedits, hcursor, htext⟩ := exists_runAll_deleteBackward hscanned hstop rfl
    have hrun : edited.run (.deleteBackward none) = .error .nothingToDelete := by
      show edited.deleteBackward edited.cursor = _
      rw [hcursor, deleteBackward_zero]
    exact ⟨edited, hedits, hcursor, htext, apply_of_run_error hrun⟩

/-- Behind a token between two stray braces and in front of one that is never closed, five deletions
take everything up to the brace that is never closed. -/
theorem never_stuck_behind_stray_braces :
    let editor := ((ofText "\x7d \x7b a \x7d\x7d+ \x7b 1".toList {}).apply (.moveCursor 9)).2
    Reachable editor ∧ editor.cursor = 9 ∧ unitsBefore editor.text editor.cursor = 5 ∧
      ∃ edited, editor.runAll (List.replicate 5 (.deleteBackward none)) = .ok edited ∧
        edited.cursor = 0 ∧ edited.text = " \x7b 1".toList ∧
        edited.apply (.deleteBackward none) = (.refused .nothingToDelete, edited) := by
  intro editor
  have hreach : Reachable editor := .apply _ (.ofText _ _)
  have hunits : unitsBefore editor.text editor.cursor = 5 := by decide
  obtain ⟨-, -, -, edited, hedits, hcursor, htext, hend⟩ := hreach.never_stuck
  rw [hunits] at hedits
  exact ⟨hreach, by decide, hunits, edited, hedits, hcursor, htext, hend⟩

end Editor

end MetricFormula
