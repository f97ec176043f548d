import MetricFormula.Proofs.Editing.Atomicity

/-!
# The cursor stands outside tokens

Edits place the cursor by the positions of the text before them, while the tokens are those of the
text after them. Still no edit leaves the cursor inside a token. What an edit inserts or removes
lies between two parts of the text, and whether the cursor between such parts is inside a token
depends on them only through the brace that the first part leaves open and the closing braces of the
second one.

## Main definitions

* `Editor.IsStop`: the cursor may stand at a position of a text.

## Main results

* `Editor.isStop_append_iff`: when the cursor may stand between two parts of a text;
* `Editor.isStop_opening`, `Editor.isStop_after`: it may stand at both ends of every token;
* `Editor.isStop_of_run`: edits that are carried out leave it at a stop;
* `Editor.Reachable.cursor_outside_tokens`: so do all runs of edits.
-/

namespace MetricFormula

namespace Editor

open MetricToken

/-! ## Stops -/

/-- The cursor may stand at the position: it is not past the end and no token is around it. -/
def IsStop (text : List Char) (position : Nat) : Prop :=
  position ≤ text.length ∧ IsBoundary text position

/-- The cursor may stand between two parts of a text unless the first one leaves a brace open that
the second one closes. -/
theorem isStop_append_iff {u v : List Char} :
    IsStop (u ++ v) u.length ↔ openAfter 0 none u = none ∨ closingBrace ∉ v := by
  have hle : u.length ≤ (u ++ v).length := by
    rw [List.length_append]
    exact Nat.le_add_right _ _
  rw [IsStop, isBoundary_iff, and_iff_right hle]

/-- The cursor may stand at the end of a text. -/
theorem isStop_length (text : List Char) : IsStop text text.length := by
  have hstop : IsStop (text ++ []) text.length := isStop_append_iff.2 (.inr List.not_mem_nil)
  rwa [List.append_nil] at hstop

/-- The cursor may stand in front of a token. -/
theorem isStop_opening {text : List Char} {token : MetricToken} (hmem : token ∈ scan text) :
    IsStop text token.opening := by
  obtain ⟨u, w, v, rfl, -, hopen, rfl⟩ := exists_of_mem_scan hmem
  exact isStop_append_iff.2 (.inl hopen)

/-- The cursor may stand behind a token. -/
theorem isStop_after {text : List Char} {token : MetricToken} (hmem : token ∈ scan text) :
    IsStop text token.after := by
  obtain ⟨u, w, v, rfl, hclosing, hopen, rfl⟩ := exists_of_mem_scan hmem
  -- The closing brace leaves nothing open, whatever follows it.
  have hclosed : openAfter 0 none (u ++ openingBrace :: (w ++ [closingBrace])) = none := by
    rw [openAfter_append, hopen, openAfter_token hclosing]
  have hstop := isStop_append_iff (v := v) |>.2 (.inl hclosed)
  have hafter : (u ++ openingBrace :: (w ++ [closingBrace])).length =
      (⟨u.length, u.length + w.length + 1⟩ : MetricToken).after := by
    simp only [List.length_append, List.length_cons, List.length_nil, after]
    omega
  rw [hafter] at hstop
  simpa using hstop

variable {editor edited : Editor} {position : Nat}

/-- The positions at which an editor inserts are the stops of its text. -/
theorem checkPosition_eq_ok_iff_isStop (hscanned : editor.IsScanned) :
    editor.checkPosition position = .ok () ↔ IsStop editor.text position := by
  rw [checkPosition_eq_ok_iff, hscanned]
  rfl

/-! ## One edit at a time -/

/-- The cursor may stand behind what is inserted at a stop and leaves no brace open. -/
theorem IsStop.insertAt {text inserted : List Char} (h : IsStop text position)
    (hinserted : ∀ start, openAfter start none inserted = none) :
    IsStop (insertAt text position inserted) (position + inserted.length) := by
  obtain ⟨u, v, rfl, rfl⟩ := exists_append_of_le h.1
  -- What is inserted joins the first part, and what follows is as before.
  rw [insertAt_append, ← List.append_assoc, ← List.length_append]
  refine isStop_append_iff.2 ((isStop_append_iff.1 h).imp_left fun hopen => ?_)
  rw [openAfter_append, hopen]
  exact hinserted _

theorem isStop_of_insertChar {c : Char} (hscanned : editor.IsScanned)
    (h : editor.insertChar position c = .ok edited) : IsStop edited.text edited.cursor := by
  obtain ⟨hcheck, hallowed, -, rfl⟩ := insertChar_eq_ok_iff.1 h
  refine IsStop.insertAt ((checkPosition_eq_ok_iff_isStop hscanned).1 hcheck) fun start => ?_
  exact openAfter_none (by simpa using (ne_brace_of_allows hallowed).1) start

theorem isStop_of_insertToken {content : List Char} (hscanned : editor.IsScanned)
    (hcontent : closingBrace ∉ content)
    (h : editor.insertToken position content = .ok edited) :
    IsStop edited.text edited.cursor := by
  obtain ⟨hcheck, rfl, -⟩ := insertToken_eq_ok h
  exact IsStop.insertAt ((checkPosition_eq_ok_iff_isStop hscanned).1 hcheck)
    (openAfter_paddedToken hcontent position)

/-- The cursor may stand where a token was removed. -/
theorem isStop_remove_token (hscanned : editor.IsScanned) {token : MetricToken}
    (hmem : token ∈ editor.tokens) :
    IsStop (editor.remove token.opening token.after).text token.opening := by
  rw [hscanned] at hmem
  obtain ⟨u, w, v, htext, -, hopen, rfl⟩ := exists_of_mem_scan hmem
  -- What is left are the parts in front of the token and behind it.
  have hsplit : editor.text = u ++ (openingBrace :: (w ++ [closingBrace]) ++ v) := by simp [htext]
  have hafter : (⟨u.length, u.length + w.length + 1⟩ : MetricToken).after =
      u.length + (openingBrace :: (w ++ [closingBrace])).length := by
    simp only [after, List.length_cons, List.length_append, List.length_nil]
    omega
  rw [remove_text, hafter, hsplit, List.take_left, ← List.drop_drop, List.drop_left,
    List.drop_left]
  exact isStop_append_iff.2 (.inl hopen)

/-- The cursor may stand where a character was removed that lay in no token. -/
theorem isStop_eraseIdx {text : List Char} (hlt : position < text.length)
    (houtside : ∀ token ∈ scan text, position < token.opening ∨ token.closing < position) :
    IsStop (text.eraseIdx position) position := by
  obtain ⟨u, v, rfl, rfl⟩ := exists_append_of_le (Nat.le_of_lt hlt)
  cases v with
  | nil => simp at hlt
  | cons c v =>
    -- Without `c` there are no more closing braces behind the cursor than before.
    have hboundary : IsBoundary (u ++ c :: v) u.length :=
      isBoundary_iff_forall.2 fun token hmem => (houtside token hmem).imp_left Nat.le_of_lt
    rw [List.eraseIdx_append_of_length_le (Nat.le_refl _), Nat.sub_self, List.eraseIdx_cons_zero]
    exact isStop_append_iff.2 <|
      (isBoundary_iff.1 hboundary).imp_right fun hnever hmem => hnever (List.mem_cons_of_mem c hmem)

theorem isStop_remove_char (hscanned : editor.IsScanned) (hlt : position < editor.text.length)
    (houtside : ∀ token ∈ editor.tokens, position < token.opening ∨ token.closing < position) :
    IsStop (editor.remove position (position + 1)).text position := by
  rw [hscanned] at houtside
  rw [remove_text, ← List.eraseIdx_eq_take_drop_succ]
  exact isStop_eraseIdx hlt houtside

theorem isStop_of_deleteBackward (hscanned : editor.IsScanned)
    (h : editor.deleteBackward position = .ok edited) : IsStop edited.text edited.cursor := by
  obtain ⟨hle, hpos, ⟨token, htoken, rfl⟩ | ⟨hending, hinside, rfl⟩⟩ := deleteBackward_eq_ok_iff.1 h
  · exact isStop_remove_token hscanned (List.mem_of_find?_eq_some htoken)
  · obtain ⟨index, rfl⟩ : ∃ index, position = index + 1 := ⟨position - 1, by omega⟩
    exact isStop_remove_char hscanned (by omega) (outside_of_endingAt?_eq_none hending hinside)

theorem isStop_of_deleteForward (hscanned : editor.IsScanned)
    (h : editor.deleteForward position = .ok edited) : IsStop edited.text edited.cursor := by
  obtain ⟨hcheck, hlt, ⟨token, htoken, rfl⟩ | ⟨hstarting, rfl⟩⟩ := deleteForward_eq_ok_iff.1 h
  · have hopening := List.find?_some htoken
    rw [beq_iff_eq] at hopening
    subst hopening
    exact isStop_remove_token hscanned (List.mem_of_find?_eq_some htoken)
  · exact isStop_remove_char hscanned hlt
      (outside_of_startingAt?_eq_none hstarting (checkPosition_eq_ok_iff.1 hcheck).2)

/-- Placing the cursor inside a token places it at one of the ends. -/
theorem isStop_setCursor (hscanned : editor.IsScanned) (position : Nat) :
    IsStop (editor.setCursor position).text (editor.setCursor position).cursor := by
  show IsStop editor.text (snap editor.tokens (min position editor.length))
  rw [hscanned, snap]
  split
  next token htoken =>
    -- Both ends of a token are stops, so it does not matter which one is nearer.
    have hmem := List.mem_of_find?_eq_some htoken
    split
    · exact isStop_opening hmem
    · exact isStop_after hmem
  next hnone => exact ⟨Nat.min_le_right _ _, hnone⟩

/-- From a stop, one step to the left is over a token or over a character that lies in no token. -/
theorem isStop_moveLeft (hscanned : editor.IsScanned) (hstop : IsStop editor.text editor.cursor) :
    IsStop editor.moveLeft.text editor.moveLeft.cursor := by
  rcases Nat.eq_zero_or_pos editor.cursor with hcursor | hcursor
  · rw [moveLeft_of_eq hcursor]
    exact hstop
  rcases moveLeft_of_pos hcursor with ⟨token, htoken, hmove⟩ | ⟨hending, hmove⟩
  · rw [hmove]
    exact isStop_opening (hscanned ▸ List.mem_of_find?_eq_some htoken)
  · rw [hmove]
    -- The character in front of the cursor lies in no token, so none is around its position.
    obtain ⟨hle, hinside⟩ := hstop
    obtain ⟨index, hindex⟩ : ∃ index, editor.cursor = index + 1 :=
      Nat.exists_eq_succ_of_ne_zero (Nat.ne_of_gt hcursor)
    rw [hscanned, hindex] at hending
    rw [hindex] at hle hinside
    show IsStop editor.text (editor.cursor - 1)
    rw [hindex]
    refine ⟨Nat.le_of_succ_le hle, isBoundary_iff_forall.2 fun token hmem => ?_⟩
    exact (outside_of_endingAt?_eq_none hending hinside token hmem).imp_left Nat.le_of_lt

/-- From a stop, one step to the right is over a token or over a character that lies in no token. -/
theorem isStop_moveRight (hscanned : editor.IsScanned)
    (hstop : IsStop editor.text editor.cursor) :
    IsStop editor.moveRight.text editor.moveRight.cursor := by
  rcases Nat.lt_or_ge editor.cursor editor.text.length with hcursor | hcursor
  · rcases moveRight_of_lt hcursor with ⟨token, htoken, hmove⟩ | ⟨hstarting, hmove⟩
    · rw [hmove]
      exact isStop_after (hscanned ▸ List.mem_of_find?_eq_some htoken)
    · rw [hmove]
      rw [hscanned] at hstarting
      refine ⟨hcursor, isBoundary_iff_forall.2 fun token hmem => ?_⟩
      exact (outside_of_startingAt?_eq_none hstarting hstop.2 token hmem).imp Nat.succ_le_of_lt
        Nat.lt_succ_of_lt
  · rw [moveRight_of_le hcursor]
    exact hstop

/-! ## Runs of edits -/

/-- Every edit that is carried out leaves the cursor at a stop of the new text. -/
theorem isStop_of_run {edit : Edit} (hscanned : editor.IsScanned)
    (hstop : IsStop editor.text editor.cursor) (h : editor.run edit = .ok edited) :
    IsStop edited.text edited.cursor := by
  cases edit with
  | insertChar position c => exact isStop_of_insertChar hscanned h
  | deleteBackward position => exact isStop_of_deleteBackward hscanned h
  | deleteForward position => exact isStop_of_deleteForward hscanned h
  | insertMetric position id aggregate =>
    obtain ⟨hid, hinsert⟩ := insertMetric_eq_ok_iff.1 h
    exact isStop_of_insertToken hscanned (notMem_tokenContent hid aggregate) hinsert
  | moveCursor position =>
    cases h
    exact isStop_setCursor hscanned position
  | moveLeft =>
    cases h
    exact isStop_moveLeft hscanned hstop
  | moveRight =>
    cases h
    exact isStop_moveRight hscanned hstop
  | clear =>
    cases h
    exact isStop_length []

/-- Whatever edits and new texts an editor is given, its cursor is at a stop. -/
theorem Reachable.isStop (hreach : Reachable editor) : IsStop editor.text editor.cursor := by
  induction hreach with
  | empty options => exact isStop_length []
  | ofText text options => exact isStop_length text
  | setText text _ _ => exact isStop_length text
  | apply edit hreach ih =>
    unfold Editor.apply
    split
    next edited h => exact isStop_of_run hreach.tokens_eq ih h
    next => exact ih

/-- In every state that an editor gets into, its tokens are those of its text, and the cursor is in
the text and not inside any of them. -/
theorem Reachable.cursor_outside_tokens (hreach : Reachable editor) :
    editor.tokens = scan editor.text ∧ editor.cursor ≤ editor.text.length ∧
      ∀ token ∈ editor.tokens,
        ¬(token.opening < editor.cursor ∧ editor.cursor ≤ token.closing) := by
  obtain ⟨hle, hboundary⟩ := hreach.isStop
  refine ⟨hreach.tokens_eq, hle, fun token hmem => ?_⟩
  have hcases := isBoundary_iff_forall.1 hboundary token (hreach.tokens_eq ▸ hmem)
  omega

/-- A cursor placed inside a token goes to its end, and to where the token stood when the token is
deleted. -/
theorem cursor_outside_tokens_after_deletion :
    let placed := ((ofText "\x7d \x7b a \x7b \x7d + \x7b 1".toList {}).apply (.moveCursor 7)).2
    let edited := (placed.apply (.deleteBackward none)).2
    placed.cursor = 9 ∧ edited.cursor = 2 ∧ Reachable edited ∧
      edited.tokens = scan edited.text ∧ edited.cursor ≤ edited.text.length ∧
      ∀ token ∈ edited.tokens,
        ¬(token.opening < edited.cursor ∧ edited.cursor ≤ token.closing) := by
  intro placed edited
  have hreach : Reachable edited := .apply _ (.apply _ (.ofText _ _))
  exact ⟨by decide, by decide, hreach, hreach.cursor_outside_tokens⟩

end Editor

end MetricFormula
