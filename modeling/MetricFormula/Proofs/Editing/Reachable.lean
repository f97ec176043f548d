import MetricFormula.Proofs.Editing.Applied

/-!
# Reachable editors

The states that an editor gets into, and what holds of all of them.

## Main results

* `Editor.Reachable.tokens_eq`: the stored tokens are always those of the text.
-/

namespace MetricFormula

namespace Editor

/-- The states of an editor that starts without text or with any text, and is edited and given new
texts in any order. -/
inductive Reachable : Editor → Prop
  /-- An editor without text. -/
  | empty (options : EditorOptions) : Reachable (Editor.empty options)
  /-- An editor of an existing text. -/
  | ofText (text : List Char) (options : EditorOptions) : Reachable (Editor.ofText text options)
  /-- A new text. -/
  | setText {editor : Editor} (text : List Char) :
      Reachable editor → Reachable (editor.setText text)
  /-- An edit, whether it is refused or not. -/
  | apply {editor : Editor} (edit : Edit) : Reachable editor → Reachable (editor.apply edit).2

/-- The stored tokens are those of the text. -/
def IsScanned (editor : Editor) : Prop :=
  editor.tokens = MetricToken.scan editor.text

/-- An edit that is carried out leaves the tokens of the new text. -/
theorem IsScanned.run {editor edited : Editor} {edit : Edit} (hscanned : editor.IsScanned)
    (h : editor.run edit = .ok edited) : edited.IsScanned := by
  cases edit with
  | insertChar position c =>
    obtain ⟨_, _, _, rfl⟩ := insertChar_eq_ok_iff.1 h
    rfl
  | deleteBackward position =>
    obtain ⟨_, _, ⟨_, _, rfl⟩ | ⟨_, _, rfl⟩⟩ := deleteBackward_eq_ok_iff.1 h <;> rfl
  | deleteForward position =>
    obtain ⟨_, _, ⟨_, _, rfl⟩ | ⟨_, rfl⟩⟩ := deleteForward_eq_ok_iff.1 h <;> rfl
  | insertMetric position id aggregate =>
    obtain ⟨_, rfl, _⟩ := insertToken_eq_ok (insertMetric_eq_ok_iff.1 h).2
    rfl
  | moveCursor position =>
    cases h
    exact hscanned
  | moveLeft =>
    cases h
    rw [IsScanned, (moveLeft_text_tokens editor).1, (moveLeft_text_tokens editor).2, hscanned]
  | moveRight =>
    cases h
    rw [IsScanned, (moveRight_text_tokens editor).1, (moveRight_text_tokens editor).2, hscanned]
  | clear =>
    cases h
    rfl

/-- Whatever comes of an edit, the tokens are those of the text. -/
theorem IsScanned.apply {editor : Editor} (hscanned : editor.IsScanned) (edit : Edit) :
    (editor.apply edit).2.IsScanned := by
  unfold Editor.apply
  split
  next edited h => exact hscanned.run h
  next => exact hscanned

/-- In every state that an editor gets into, the tokens are those of the text. -/
theorem Reachable.tokens_eq {editor : Editor} (hreach : Reachable editor) :
    editor.tokens = MetricToken.scan editor.text := by
  induction hreach with
  | empty options => rfl
  | ofText text options => rfl
  | setText text _ _ => rfl
  | apply edit _ ih => exact IsScanned.apply ih edit

end Editor

end MetricFormula
