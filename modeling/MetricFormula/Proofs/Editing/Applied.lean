import MetricFormula.Editing.Editor

/-!
# What an applied edit does

For every edit that can be refused: when it is not, and which editor comes of it. Later results
about edits cite these and do not look into the edits again.

## Main results

* `Editor.run_of_applied`: an edit that is carried out, and what it leaves;
* `Editor.moveLeft_of_pos`, `Editor.moveRight_of_lt`: where a step of the cursor goes;
* `Editor.moveLeft_text_tokens` and its companions: the cursor moves alone;
* `Editor.checkPosition_eq_ok_iff`: the positions that are not refused;
* `Editor.insertChar_eq_ok_iff`: typing a character;
* `Editor.deleteBackward_eq_ok_iff` and `Editor.deleteForward_eq_ok_iff`: deleting a token or a
  character;
* `Editor.insertToken_eq_ok` and `Editor.insertMetric_eq_ok_iff`: inserting a token;
* `Editor.options_apply`: no edit changes the choices of the host.
-/

namespace MetricFormula

namespace Editor

variable {editor edited : Editor} {position : Nat}

/-! ## Edits that are carried out or refused -/

/-- An edit is carried out. -/
theorem apply_of_run_ok {edit : Edit} (h : editor.run edit = .ok edited) :
    editor.apply edit = (.applied, edited) := by
  rw [apply, h]

/-- An edit is refused. -/
theorem apply_of_run_error {edit : Edit} {reason : Refusal} (h : editor.run edit = .error reason) :
    editor.apply edit = (.refused reason, editor) := by
  rw [apply, h]

/-- What an edit leaves that is not refused. -/
theorem run_of_applied {edit : Edit} (h : (editor.apply edit).1 = .applied) :
    editor.run edit = .ok (editor.apply edit).2 := by
  rcases hrun : editor.run edit with reason | edited
  · rw [apply_of_run_error hrun] at h
    cases h
  · rw [apply_of_run_ok hrun]

/-! ## Each kind of edit -/

/-- Replacing the text recomputes the tokens. -/
@[simp]
theorem withText_tokens (editor : Editor) (text : List Char) (cursor : Nat) :
    (editor.withText text cursor).tokens = MetricToken.scan text := rfl

@[simp]
theorem withText_text (editor : Editor) (text : List Char) (cursor : Nat) :
    (editor.withText text cursor).text = text := rfl

@[simp]
theorem remove_text (editor : Editor) (first last : Nat) :
    (editor.remove first last).text = editor.text.take first ++ editor.text.drop last := rfl

@[simp]
theorem remove_tokens (editor : Editor) (first last : Nat) :
    (editor.remove first last).tokens =
      MetricToken.scan (editor.text.take first ++ editor.text.drop last) := rfl

/-- Placing the cursor changes nothing else. -/
theorem setCursor_text_tokens (editor : Editor) (position : Nat) :
    (editor.setCursor position).text = editor.text ∧
      (editor.setCursor position).tokens = editor.tokens := ⟨rfl, rfl⟩

/-- At the beginning there is nothing on the left. -/
theorem moveLeft_of_eq (h : editor.cursor = 0) : editor.moveLeft = editor :=
  if_pos h

/-- Anywhere else, the cursor moves before the token that ends at it or else before the character in
front of it. -/
theorem moveLeft_of_pos (h : 0 < editor.cursor) :
    (∃ token, MetricToken.endingAt? editor.tokens editor.cursor = some token ∧
        editor.moveLeft = { editor with cursor := token.opening }) ∨
      MetricToken.endingAt? editor.tokens editor.cursor = none ∧
        editor.moveLeft = { editor with cursor := editor.cursor - 1 } := by
  rw [moveLeft, if_neg (Nat.ne_of_gt h)]
  rcases MetricToken.endingAt? editor.tokens editor.cursor with _ | token
  · exact .inr ⟨rfl, rfl⟩
  · exact .inl ⟨token, rfl, rfl⟩

/-- At the end there is nothing on the right. -/
theorem moveRight_of_le (h : editor.text.length ≤ editor.cursor) : editor.moveRight = editor :=
  if_pos h

/-- Anywhere else, the cursor moves behind the token that starts at it or else behind the character
after it. -/
theorem moveRight_of_lt (h : editor.cursor < editor.text.length) :
    (∃ token, MetricToken.startingAt? editor.tokens editor.cursor = some token ∧
        editor.moveRight = { editor with cursor := token.after }) ∨
      MetricToken.startingAt? editor.tokens editor.cursor = none ∧
        editor.moveRight = { editor with cursor := editor.cursor + 1 } := by
  have hnot : ¬editor.length ≤ editor.cursor := Nat.not_le_of_lt h
  rw [moveRight, if_neg hnot]
  rcases MetricToken.startingAt? editor.tokens editor.cursor with _ | token
  · exact .inr ⟨rfl, rfl⟩
  · exact .inl ⟨token, rfl, rfl⟩

/-- Moving the cursor changes the cursor. -/
theorem exists_moveLeft_eq (editor : Editor) :
    ∃ cursor, editor.moveLeft = { editor with cursor } := by
  rcases Nat.eq_zero_or_pos editor.cursor with hcursor | hcursor
  · exact ⟨_, moveLeft_of_eq hcursor⟩
  · rcases moveLeft_of_pos hcursor with ⟨token, -, hmove⟩ | ⟨-, hmove⟩ <;> exact ⟨_, hmove⟩

/-- Moving the cursor changes the cursor. -/
theorem exists_moveRight_eq (editor : Editor) :
    ∃ cursor, editor.moveRight = { editor with cursor } := by
  rcases Nat.lt_or_ge editor.cursor editor.text.length with hcursor | hcursor
  · rcases moveRight_of_lt hcursor with ⟨token, -, hmove⟩ | ⟨-, hmove⟩ <;> exact ⟨_, hmove⟩
  · exact ⟨_, moveRight_of_le hcursor⟩

/-- Moving the cursor changes nothing else. -/
theorem moveLeft_text_tokens (editor : Editor) :
    editor.moveLeft.text = editor.text ∧ editor.moveLeft.tokens = editor.tokens := by
  obtain ⟨cursor, hmove⟩ := exists_moveLeft_eq editor
  rw [hmove]
  exact ⟨rfl, rfl⟩

/-- Moving the cursor changes nothing else. -/
theorem moveRight_text_tokens (editor : Editor) :
    editor.moveRight.text = editor.text ∧ editor.moveRight.tokens = editor.tokens := by
  obtain ⟨cursor, hmove⟩ := exists_moveRight_eq editor
  rw [hmove]
  exact ⟨rfl, rfl⟩

/-- A position is taken if it is not past the end and not inside a token. -/
theorem checkPosition_eq_ok_iff :
    editor.checkPosition position = .ok () ↔
      position ≤ editor.text.length ∧ MetricToken.containing? editor.tokens position = none := by
  unfold checkPosition length
  split
  · simp only [reduceCtorEq, false_iff, not_and]
    omega
  · split
    next hinside => simp [Option.isSome_iff_ne_none.1 hinside]
    next hinside =>
      simp only [Option.not_isSome_iff_eq_none] at hinside
      simp only [hinside, and_true, true_iff]
      omega

/-- A character is typed at a position that is taken, if it is allowed there. -/
theorem insertChar_eq_ok_iff {c : Char} :
    editor.insertChar position c = .ok edited ↔
      editor.checkPosition position = .ok () ∧ editor.options.allows c = true ∧
        (editor.options.rejectAdjacentOperators && isOperatorChar c &&
          editor.hasOperatorAt position) = false ∧
        edited = editor.withText (insertAt editor.text position [c]) (position + 1) := by
  unfold insertChar
  rcases editor.checkPosition position with reason | ⟨⟩
  · simp [bind, Except.bind]
  · -- With the position taken, the two other tests decide.
    rcases editor.options.allows c with _ | _ <;>
      rcases editor.options.rejectAdjacentOperators && isOperatorChar c &&
        editor.hasOperatorAt position with _ | _ <;>
      simp [bind, Except.bind, pure, Except.pure, throw, throwThe, MonadExceptOf.throw, eq_comm]

/-- Deleting backward removes the token that ends at the position or else the character in front of
it. -/
theorem deleteBackward_eq_ok_iff :
    editor.deleteBackward position = .ok edited ↔
      position ≤ editor.text.length ∧ 0 < position ∧
        ((∃ token, MetricToken.endingAt? editor.tokens position = some token ∧
            edited = editor.remove token.opening token.after) ∨
          MetricToken.endingAt? editor.tokens position = none ∧
            MetricToken.containing? editor.tokens position = none ∧
            edited = editor.remove (position - 1) position) := by
  unfold deleteBackward length
  constructor
  · intro h
    split at h
    · simp at h
    · split at h
      · simp at h
      · refine ⟨by omega, by omega, ?_⟩
        split at h
        next token htoken => exact Or.inl ⟨token, htoken, by simpa using h.symm⟩
        next hnone =>
          split at h
          · simp at h
          next hinside => exact Or.inr ⟨hnone, by simpa using hinside, by simpa using h.symm⟩
  · rintro ⟨hle, hpos, hcases⟩
    rw [if_neg (Nat.not_lt_of_le hle), if_neg (Nat.ne_of_gt hpos)]
    rcases hcases with ⟨token, htoken, rfl⟩ | ⟨hnone, hinside, rfl⟩
    · rw [htoken]
    · simp [hnone, hinside]

/-- Deleting forward removes the token that starts at the position or else the character behind
it. -/
theorem deleteForward_eq_ok_iff :
    editor.deleteForward position = .ok edited ↔
      editor.checkPosition position = .ok () ∧ position < editor.text.length ∧
        ((∃ token, MetricToken.startingAt? editor.tokens position = some token ∧
            edited = editor.remove position token.after) ∨
          MetricToken.startingAt? editor.tokens position = none ∧
            edited = editor.remove position (position + 1)) := by
  unfold deleteForward
  rcases hcheck : editor.checkPosition position with reason | ⟨⟩
  · simp [bind, Except.bind]
  · have hle := (checkPosition_eq_ok_iff.1 hcheck).1
    simp only [bind, Except.bind, pure, Except.pure, true_and]
    -- Nothing can be deleted at the end.
    by_cases hend : position = editor.length
    · have hnot : ¬position < editor.text.length := Nat.not_lt_of_le (Nat.le_of_eq hend.symm)
      rw [if_pos hend]
      exact iff_of_false (fun h => by cases h) fun h => hnot h.1
    · have hlt : position < editor.text.length := Nat.lt_of_le_of_ne hle hend
      rw [if_neg hend, and_iff_right hlt]
      cases MetricToken.startingAt? editor.tokens position <;> simp [eq_comm]

/-- The text that is put in for a token. -/
def paddedToken (editor : Editor) (position : Nat) (content : List Char) : List Char :=
  editor.paddingBefore position ++ tokenText content ++ editor.paddingAfter position

/-- A token is inserted at a position that is taken, if it is a token there. -/
theorem insertToken_eq_ok {content : List Char}
    (h : editor.insertToken position content = .ok edited) :
    editor.checkPosition position = .ok () ∧
      edited = editor.withText (insertAt editor.text position (editor.paddedToken position content))
        (position + (editor.paddedToken position content).length) ∧
      ⟨position + (editor.paddingBefore position).length,
        position + (editor.paddingBefore position).length + content.length + 3⟩ ∈
          edited.tokens := by
  unfold insertToken at h
  rcases hcheck : editor.checkPosition position with reason | ⟨⟩
  · simp [hcheck, bind, Except.bind] at h
  · simp only [hcheck, bind, Except.bind, pure, Except.pure] at h
    split at h
    next hmem =>
      simp only [Except.ok.injEq] at h
      subst h
      exact ⟨rfl, rfl, by simpa using hmem⟩
    next => simp [throw, throwThe, MonadExceptOf.throw] at h

/-- A metric is inserted as a token if its id is an identifier. -/
theorem insertMetric_eq_ok_iff {id : String} {aggregate : Option Aggregate} :
    editor.insertMetric position id aggregate = .ok edited ↔
      Text.isIdentifier id.toList = true ∧
        editor.insertToken position (tokenContent id aggregate) = .ok edited := by
  unfold insertMetric
  split
  next hid => simp [hid]
  next hid => simp [hid]

/-- No edit changes the choices of the host. -/
theorem options_of_run {edit : Edit} (h : editor.run edit = .ok edited) :
    edited.options = editor.options := by
  cases edit with
  | insertChar position c =>
    obtain ⟨_, _, _, rfl⟩ := insertChar_eq_ok_iff.1 h
    rfl
  | deleteBackward position =>
    obtain ⟨_, _, ⟨_, _, rfl⟩ | ⟨_, _, rfl⟩⟩ := deleteBackward_eq_ok_iff.1 h <;> rfl
  | deleteForward position =>
    obtain ⟨_, _, ⟨_, _, rfl⟩ | ⟨_, rfl⟩⟩ := deleteForward_eq_ok_iff.1 h <;> rfl
  | insertMetric position id aggregate =>
    obtain ⟨_, rfl, _⟩ := insertToken_eq_ok (insertMetric_eq_ok_iff.1 h).2
    rfl
  | moveCursor position =>
    cases h
    rfl
  | moveLeft =>
    cases h
    obtain ⟨cursor, hmove⟩ := exists_moveLeft_eq editor
    rw [hmove]
  | moveRight =>
    cases h
    obtain ⟨cursor, hmove⟩ := exists_moveRight_eq editor
    rw [hmove]
  | clear =>
    cases h
    rfl

theorem options_apply (editor : Editor) (edit : Edit) :
    (editor.apply edit).2.options = editor.options := by
  rcases hrun : editor.run edit with reason | edited
  · rw [apply_of_run_error hrun]
  · rw [apply_of_run_ok hrun]
    exact options_of_run hrun

end Editor

end MetricFormula
