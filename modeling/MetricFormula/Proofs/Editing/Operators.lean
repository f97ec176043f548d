import Mathlib.Data.List.Chain
import MetricFormula.Proofs.Editing.WrittenText

/-!
# Operators next to each other

If the host wants it, an operator is refused next to another one. That is a check of one character
between its two neighbours, but it keeps operators apart in every text that is written by typing and
inserting, at whatever positions: a character that is no operator only takes two neighbours apart,
and no operator stands in what is put in for a token. Only a deletion can bring two operators
together.

## Main definitions

* `Edit.isDeletion`: the edits that take something out of the text;
* `HasSeparateOperators`: no operator of a text stands next to another one.

## Main results

* `HasSeparateOperators.insert`, `HasSeparateOperators.insert_plain`: what may be put into a text;
* `Editor.hasSeparateOperators_of_run`: edits that are carried out and are no deletions;
* `Editor.hasSeparateOperators_applyAll`: runs of edits without deletions;
* `Editor.separate_operators_without_deletions`: both, for all editors that refuse an operator next
  to another one.
-/

namespace MetricFormula

/-- The edit takes something out of the text. -/
def Edit.isDeletion : Edit → Bool
  | .deleteBackward _ | .deleteForward _ => true
  | .insertChar _ _ | .insertMetric _ _ _ | .moveCursor _ | .moveLeft | .moveRight | .clear => false

/-- No operator of the text stands next to another one. -/
def HasSeparateOperators (text : List Char) : Prop :=
  text.IsChain fun c next => ¬(isOperatorChar c ∧ isOperatorChar next)

instance decidableHasSeparateOperators (text : List Char) :
    Decidable (HasSeparateOperators text) :=
  inferInstanceAs (Decidable (text.IsChain _))

/-- Operators are separate in both parts of a text and at the cut. -/
theorem hasSeparateOperators_append_iff {u v : List Char} :
    HasSeparateOperators (u ++ v) ↔ HasSeparateOperators u ∧ HasSeparateOperators v ∧
      ∀ c ∈ u.getLast?, ∀ next ∈ v.head?, ¬(isOperatorChar c ∧ isOperatorChar next) :=
  List.isChain_append

/-- A character joins a text with separate operators if it is none, or stands next to none. -/
theorem HasSeparateOperators.insert {u v : List Char} {c : Char}
    (h : HasSeparateOperators (u ++ v))
    (hc : isOperatorChar c = false ∨
      u.getLast?.any isOperatorChar = false ∧ v.head?.any isOperatorChar = false) :
    HasSeparateOperators (u ++ c :: v) := by
  obtain ⟨hu, hv, -⟩ := hasSeparateOperators_append_iff.1 h
  -- The pairs that are new are those of the character with its two neighbours.
  have hleft : ∀ last ∈ u.getLast?, ¬(isOperatorChar last ∧ isOperatorChar c) := by
    rintro last hlast ⟨hother, hoperator⟩
    rcases hc with hc | ⟨hc, -⟩
    · exact Bool.eq_false_iff.1 hc hoperator
    · exact Bool.eq_false_iff.1 ((Option.any_eq_false _ _).1 hc last hlast) hother
  have hright : ∀ next ∈ v.head?, ¬(isOperatorChar c ∧ isOperatorChar next) := by
    rintro next hnext ⟨hoperator, hother⟩
    rcases hc with hc | ⟨-, hc⟩
    · exact Bool.eq_false_iff.1 hc hoperator
    · exact Bool.eq_false_iff.1 ((Option.any_eq_false _ _).1 hc next hnext) hother
  refine hasSeparateOperators_append_iff.2 ⟨hu, List.isChain_cons.2 ⟨hright, hv⟩, ?_⟩
  intro last hlast next hnext
  rw [← Option.mem_some.1 hnext]
  exact hleft last hlast

/-- Text without operators joins a text anywhere. -/
theorem HasSeparateOperators.insert_plain {u v inserted : List Char}
    (h : HasSeparateOperators (u ++ v)) (hinserted : ∀ c ∈ inserted, isOperatorChar c = false) :
    HasSeparateOperators (u ++ (inserted ++ v)) := by
  induction inserted with
  | nil => exact h
  | cons c inserted ih =>
    obtain ⟨hc, hinserted⟩ := List.forall_mem_cons.1 hinserted
    exact (ih hinserted).insert (.inl hc)

/-- Identifiers hold no operators. -/
theorem isOperatorChar_of_isIdentifierPart {c : Char} (h : Text.isIdentifierPart c) :
    isOperatorChar c = false := by
  rw [Bool.eq_false_iff]
  intro hoperator
  simp only [isOperatorChar, Bool.or_eq_true, beq_iff_eq] at hoperator
  -- None of the five is in the table of the characters of identifiers.
  rcases hoperator with (((rfl | rfl) | rfl) | rfl) | rfl <;> cases h

namespace Editor

variable {editor edited : Editor} {position : Nat}

/-! ## One edit at a time -/

/-- An operator is typed between two characters that are none. -/
theorem hasSeparateOperators_of_insertChar {c : Char}
    (hreject : editor.options.rejectAdjacentOperators)
    (hseparate : HasSeparateOperators editor.text)
    (h : editor.insertChar position c = .ok edited) : HasSeparateOperators edited.text := by
  obtain ⟨hcheck, -, hadjacent, rfl⟩ := insertChar_eq_ok_iff.1 h
  obtain ⟨u, v, htext, rfl⟩ := exists_append_of_le (checkPosition_eq_ok_iff.1 hcheck).1
  -- The check looks at the character in front of the cut and at the one behind it.
  rw [hreject, Bool.true_and, Bool.and_eq_false_iff, hasOperatorAt_append htext,
    Bool.or_eq_false_iff] at hadjacent
  rw [htext] at hseparate
  rw [withText_text, htext, insertAt_append]
  exact hseparate.insert hadjacent

/-- What is put in for a token holds no operator. -/
theorem isOperatorChar_of_mem_paddedToken {id : String} (hid : Text.isIdentifier id.toList)
    (aggregate : Option Aggregate) :
    ∀ c ∈ editor.paddedToken position (tokenContent id aggregate), isOperatorChar c = false := by
  obtain ⟨hbefore, hafter⟩ := padding_eq editor position
  have hpadding : ∀ padding : List Char, padding = [] ∨ padding = [' '] →
      ∀ c ∈ padding, isOperatorChar c = false := by
    rintro _ (rfl | rfl)
    · exact List.forall_mem_nil _
    · exact List.forall_mem_singleton.2 (by decide)
  have hcontent := forall_mem_tokenContent (P := (isOperatorChar · = false))
    (fun _ => isOperatorChar_of_isIdentifierPart) (by decide) (by decide) hid aggregate
  have hend : ∀ c ∈ [' ', closingBrace], isOperatorChar c = false :=
    List.forall_mem_cons.2 ⟨by decide, List.forall_mem_singleton.2 (by decide)⟩
  have htoken : ∀ c ∈ tokenText (tokenContent id aggregate), isOperatorChar c = false :=
    List.forall_mem_cons.2 ⟨by decide, List.forall_mem_cons.2 ⟨by decide,
      List.forall_mem_append.2 ⟨hcontent, hend⟩⟩⟩
  exact List.forall_mem_append.2
    ⟨List.forall_mem_append.2 ⟨hpadding _ hbefore, htoken⟩, hpadding _ hafter⟩

/-- A token stands between any two characters. -/
theorem hasSeparateOperators_of_insertMetric {id : String} {aggregate : Option Aggregate}
    (hseparate : HasSeparateOperators editor.text)
    (h : editor.insertMetric position id aggregate = .ok edited) :
    HasSeparateOperators edited.text := by
  obtain ⟨hid, hinsert⟩ := insertMetric_eq_ok_iff.1 h
  obtain ⟨hcheck, rfl, -⟩ := insertToken_eq_ok hinsert
  obtain ⟨u, v, htext, rfl⟩ := exists_append_of_le (checkPosition_eq_ok_iff.1 hcheck).1
  rw [htext] at hseparate
  rw [withText_text, htext, insertAt_append]
  exact hseparate.insert_plain (isOperatorChar_of_mem_paddedToken hid aggregate)

/-- An edit that is carried out and is no deletion brings no operators together. -/
theorem hasSeparateOperators_of_run {edit : Edit} (hedit : edit.isDeletion = false)
    (hreject : editor.options.rejectAdjacentOperators)
    (hseparate : HasSeparateOperators editor.text)
    (h : editor.run edit = .ok edited) : HasSeparateOperators edited.text := by
  cases edit with
  | insertChar position c => exact hasSeparateOperators_of_insertChar hreject hseparate h
  | deleteBackward position => cases hedit
  | deleteForward position => cases hedit
  | insertMetric position id aggregate => exact hasSeparateOperators_of_insertMetric hseparate h
  | moveCursor position =>
    cases h
    exact hseparate
  | moveLeft =>
    cases h
    rwa [(moveLeft_text_tokens editor).1]
  | moveRight =>
    cases h
    rwa [(moveRight_text_tokens editor).1]
  | clear =>
    cases h
    exact List.isChain_nil

/-- Nor does one that is refused. -/
theorem hasSeparateOperators_apply {edit : Edit} (hedit : edit.isDeletion = false)
    (hreject : editor.options.rejectAdjacentOperators)
    (hseparate : HasSeparateOperators editor.text) :
    HasSeparateOperators (editor.apply edit).2.text := by
  rcases hrun : editor.run edit with reason | edited
  · rwa [apply_of_run_error hrun]
  · rw [apply_of_run_ok hrun]
    exact hasSeparateOperators_of_run hedit hreject hseparate hrun

/-! ## Runs of edits -/

/-- No run of edits without deletions brings operators together. -/
theorem hasSeparateOperators_applyAll {edits : List Edit}
    (hedits : ∀ edit ∈ edits, edit.isDeletion = false)
    (hreject : editor.options.rejectAdjacentOperators)
    (hseparate : HasSeparateOperators editor.text) :
    HasSeparateOperators (editor.applyAll edits).text := by
  induction edits generalizing editor with
  | nil => exact hseparate
  | cons edit edits ih =>
    obtain ⟨hedit, hedits⟩ := List.forall_mem_cons.1 hedits
    exact ih hedits (by rwa [options_apply]) (hasSeparateOperators_apply hedit hreject hseparate)

/-- With the check turned on and whatever else the host wants, an edit that is no deletion leaves
the operators of a text separate, whatever state the editor is in. So they are separate after every
run of edits without deletions that starts without text. -/
theorem separate_operators_without_deletions :
    (∀ (editor : Editor) (edit : Edit), editor.options.rejectAdjacentOperators →
      edit.isDeletion = false → HasSeparateOperators editor.text →
        HasSeparateOperators (editor.apply edit).2.text) ∧
    ∀ (options : EditorOptions) (edits : List Edit), options.rejectAdjacentOperators →
      (∀ edit ∈ edits, edit.isDeletion = false) →
        HasSeparateOperators ((empty options).applyAll edits).text := by
  constructor
  · intro editor edit hreject hedit hseparate
    exact hasSeparateOperators_apply hedit hreject hseparate
  · intro options edits hreject hedits
    have hempty : HasSeparateOperators (empty options).text := List.isChain_nil
    exact hasSeparateOperators_applyAll hedits hreject hempty

/-- A sign behind a sign is refused, and a metric goes between two of them; when the metric is
deleted, they stand next to each other. -/
theorem separate_operators_around_token :
    let edits : List Edit := [.insertChar none '+', .insertMetric none "a" none,
      .insertChar none '-', .insertChar (some 7) '*']
    let editor := (empty { padTokens := false }).applyAll edits
    (∀ edit ∈ edits, edit.isDeletion = false) ∧ editor.text = "+\x7b a \x7d-".toList ∧
      HasSeparateOperators editor.text ∧
      HasSeparateOperators (editor.apply (.insertMetric (some 1) "b" (some .sum))).2.text ∧
      ¬HasSeparateOperators (editor.apply (.deleteForward (some 1))).2.text := by
  intro edits editor
  obtain ⟨hstep, hrun⟩ := separate_operators_without_deletions
  have hedits : ∀ edit ∈ edits, edit.isDeletion = false := by decide
  have hseparate : HasSeparateOperators editor.text := hrun { padTokens := false } edits rfl hedits
  have hreject : editor.options.rejectAdjacentOperators := by decide
  exact ⟨hedits, by decide, hseparate, hstep editor _ hreject rfl hseparate, by decide⟩

end Editor

end MetricFormula
