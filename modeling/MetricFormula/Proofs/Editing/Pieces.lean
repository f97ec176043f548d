import MetricFormula.Proofs.Editing.Cursor

/-!
# Formulas in pieces

A formula that is written by edits alone is made of pieces: characters that may be typed and tokens
of metrics whose ids are identifiers. Every position at which an edit inserts or removes lies
between two pieces, so each edit leaves pieces, and no edit can make a token that was not inserted
as one.

## Main definitions

* `Piece`: what one edit puts in;
* `Editor.IsComposed`: the text of an editor is made of pieces.

## Main results

* `Piece.exists_append_of_isStop`: a stop lies between two pieces;
* `Editor.IsComposed.run`: edits that are carried out leave pieces.
-/

namespace MetricFormula

open MetricToken

/-- A part of a formula that is put in as a whole. -/
inductive Piece
  /-- A character. -/
  | char (c : Char)
  /-- The token of a metric, or of an aggregate of it. -/
  | token (id : String) (aggregate : Option Aggregate)
deriving DecidableEq

namespace Piece

/-- The text of a piece. -/
def text : Piece → List Char
  | char c => [c]
  | token id aggregate => tokenText (Editor.tokenContent id aggregate)

/-- The text of pieces. -/
def textOf (pieces : List Piece) : List Char :=
  pieces.flatMap text

/-- The piece is one that edits put in: a character that may be typed or the token of an
identifier. -/
def IsAllowed (options : EditorOptions) : Piece → Prop
  | char c => options.allows c
  | token id _ => Text.isIdentifier id.toList

theorem textOf_append (pieces others : List Piece) :
    textOf (pieces ++ others) = textOf pieces ++ textOf others :=
  List.flatMap_append

theorem textOf_map_char (chars : List Char) : textOf (chars.map char) = chars := by
  rw [textOf, List.flatMap_map]
  exact List.flatMap_singleton' chars

/-! ## Tokens of pieces -/

variable {options : EditorOptions} {piece : Piece} {pieces : List Piece}

/-- The text of a token is what stands between its two braces and the braces. -/
theorem exists_tokenText_eq {id : String} (hid : Text.isIdentifier id.toList)
    (aggregate : Option Aggregate) :
    ∃ inner, tokenText (Editor.tokenContent id aggregate) =
        openingBrace :: (inner ++ [closingBrace]) ∧ closingBrace ∉ inner := by
  refine ⟨' ' :: Editor.tokenContent id aggregate ++ [' '], by simp [tokenText], ?_⟩
  have hcontent := Editor.notMem_tokenContent hid aggregate
  simpa [closingBrace] using hcontent

/-- A character that may be typed is no token. -/
theorem scan_char {c : Char} (hc : options.allows c) : scan [c] = [] :=
  scanFrom_eq_nil (by simpa using (Editor.ne_brace_of_allows hc).2) 0 none

/-- The token of an identifier is one token. -/
theorem scan_tokenText {id : String} (hid : Text.isIdentifier id.toList)
    (aggregate : Option Aggregate) :
    scan (tokenText (Editor.tokenContent id aggregate)) =
      [⟨0, (tokenText (Editor.tokenContent id aggregate)).length - 1⟩] := by
  obtain ⟨inner, heq, hclosing⟩ := exists_tokenText_eq hid aggregate
  rw [heq, scan_token hclosing]
  simp

/-- No piece leaves a brace open. -/
theorem openAfter_text (h : piece.IsAllowed options) (start : Nat) :
    openAfter start none piece.text = none := by
  cases piece with
  | char c =>
    have hopening : openingBrace ∉ [c] := by simpa using (Editor.ne_brace_of_allows h).1
    exact openAfter_none hopening start
  | token id aggregate =>
    obtain ⟨inner, heq, hclosing⟩ := exists_tokenText_eq h aggregate
    rw [text, heq]
    exact openAfter_token hclosing start

/-- No pieces leave a brace open. -/
theorem openAfter_textOf (hallowed : ∀ piece ∈ pieces, piece.IsAllowed options) (start : Nat) :
    openAfter start none (textOf pieces) = none := by
  induction pieces generalizing start with
  | nil => rfl
  | cons piece pieces ih =>
    obtain ⟨hpiece, hallowed⟩ := List.forall_mem_cons.1 hallowed
    rw [textOf, List.flatMap_cons, ← textOf, openAfter_append, openAfter_text hpiece]
    exact ih hallowed _

/-! ## Stops between pieces -/

/-- Behind a text that leaves no brace open, the stops are those of the text that follows. -/
theorem isStop_of_append {u v : List Char} (hopen : openAfter 0 none u = none) {position : Nat}
    (h : Editor.IsStop (u ++ v) (u.length + position)) : Editor.IsStop v position := by
  obtain ⟨hle, hboundary⟩ := h
  rw [List.length_append] at hle
  refine ⟨by omega, isBoundary_iff_forall.2 fun token hmem => ?_⟩
  have hshifted : token.shift u.length ∈ scan (u ++ v) := by
    rw [scan_append hopen]
    exact List.mem_append_right _ (List.mem_map_of_mem hmem)
  have hcases := isBoundary_iff_forall.1 hboundary _ hshifted
  simp only [shift] at hcases
  omega

/-- A stop behind the beginning of a piece is behind the piece. -/
theorem length_text_le_of_isStop (h : piece.IsAllowed options) {v : List Char} {position : Nat}
    (hstop : Editor.IsStop (piece.text ++ v) position) (hpos : 0 < position) :
    piece.text.length ≤ position := by
  cases piece with
  | char c => exact hpos
  | token id aggregate =>
    have hmem : ⟨0, (tokenText (Editor.tokenContent id aggregate)).length - 1⟩ ∈
        scan ((token id aggregate).text ++ v) := by
      rw [scan_append (openAfter_text h 0), text, scan_tokenText h]
      exact List.mem_append_left _ (List.mem_singleton_self _)
    have hcases := isBoundary_iff_forall.1 hstop.2 _ hmem
    rw [text]
    simp only at hcases
    omega

/-- A stop lies between two pieces. -/
theorem exists_append_of_isStop (hallowed : ∀ piece ∈ pieces, piece.IsAllowed options)
    {position : Nat} (hstop : Editor.IsStop (textOf pieces) position) :
    ∃ before after, pieces = before ++ after ∧ (textOf before).length = position := by
  induction pieces generalizing position with
  | nil => exact ⟨[], [], rfl, (Nat.le_zero.1 hstop.1).symm⟩
  | cons piece pieces ih =>
    obtain ⟨hpiece, hallowed⟩ := List.forall_mem_cons.1 hallowed
    rw [textOf, List.flatMap_cons, ← textOf] at hstop
    rcases Nat.eq_zero_or_pos position with rfl | hpos
    · exact ⟨[], piece :: pieces, rfl, rfl⟩
    · -- The piece stands in front of the stop, which is a stop of the others.
      obtain ⟨rest, rfl⟩ := Nat.exists_eq_add_of_le (length_text_le_of_isStop hpiece hstop hpos)
      have hrest := isStop_of_append (openAfter_text hpiece 0) hstop
      obtain ⟨before, after, rfl, rfl⟩ := ih hallowed hrest
      refine ⟨piece :: before, after, rfl, ?_⟩
      rw [textOf, List.flatMap_cons, List.length_append, ← textOf]

end Piece

namespace Editor

open Piece (textOf textOf_append textOf_map_char)

variable {editor edited : Editor} {pieces : List Piece} {position : Nat}

/-- The text of the editor is made of pieces that edits put in. -/
structure IsComposed (editor : Editor) (pieces : List Piece) : Prop where
  /-- The pieces are such as edits put in. -/
  allowed : ∀ piece ∈ pieces, piece.IsAllowed editor.options
  /-- The text is theirs. -/
  text_eq : editor.text = textOf pieces

/-- Pieces that are inserted at a stop stand between two pieces. -/
theorem IsComposed.insertAt (h : editor.IsComposed pieces) (hstop : IsStop editor.text position)
    {inserted : List Piece} (hallowed : ∀ piece ∈ inserted, piece.IsAllowed editor.options)
    (cursor : Nat) :
    ∃ others,
      (editor.withText (insertAt editor.text position (textOf inserted)) cursor).IsComposed
        others := by
  rw [h.text_eq] at hstop ⊢
  obtain ⟨before, after, rfl, rfl⟩ := Piece.exists_append_of_isStop h.allowed hstop
  obtain ⟨hbefore, hafter⟩ := List.forall_mem_append.1 h.allowed
  refine ⟨before ++ (inserted ++ after), List.forall_mem_append.2
    ⟨hbefore, List.forall_mem_append.2 ⟨hallowed, hafter⟩⟩, ?_⟩
  rw [withText_text, textOf_append, insertAt_append, textOf_append, textOf_append]

/-- What is removed between two stops are pieces. -/
theorem IsComposed.remove (h : editor.IsComposed pieces) {first last : Nat}
    (hfirst : IsStop editor.text first) (hlast : IsStop editor.text last) :
    ∃ others, (editor.remove first last).IsComposed others := by
  rw [h.text_eq] at hfirst hlast
  obtain ⟨before, rest, hpieces, rfl⟩ := Piece.exists_append_of_isStop h.allowed hfirst
  obtain ⟨removed, after, hpieces', rfl⟩ := Piece.exists_append_of_isStop h.allowed hlast
  have hbefore := (List.forall_mem_append.1 (hpieces ▸ h.allowed)).1
  have hafter := (List.forall_mem_append.1 (hpieces' ▸ h.allowed)).2
  refine ⟨before ++ after, List.forall_mem_append.2 ⟨hbefore, hafter⟩, ?_⟩
  have htake : editor.text.take (textOf before).length = textOf before := by
    rw [h.text_eq, hpieces, textOf_append, List.take_left]
  have hdrop : editor.text.drop (textOf removed).length = textOf after := by
    rw [h.text_eq, hpieces', textOf_append, List.drop_left]
  rw [remove_text, htake, hdrop, textOf_append]

/-- A token is removed between its two ends. -/
theorem IsComposed.remove_token (h : editor.IsComposed pieces) (hscanned : editor.IsScanned)
    {token : MetricToken} (hmem : token ∈ editor.tokens) :
    ∃ others, (editor.remove token.opening token.after).IsComposed others := by
  rw [hscanned] at hmem
  exact h.remove (isStop_opening hmem) (isStop_after hmem)

/-- A character that lies in no token is removed between two stops. -/
theorem IsComposed.remove_char (h : editor.IsComposed pieces) (hscanned : editor.IsScanned)
    (hlt : position < editor.text.length)
    (houtside : ∀ token ∈ editor.tokens, position < token.opening ∨ token.closing < position) :
    ∃ others, (editor.remove position (position + 1)).IsComposed others := by
  rw [hscanned] at houtside
  refine h.remove ⟨Nat.le_of_lt hlt, isBoundary_iff_forall.2 fun token hmem => ?_⟩
    ⟨hlt, isBoundary_iff_forall.2 fun token hmem => ?_⟩
  · exact (houtside token hmem).imp_left Nat.le_of_lt
  · exact (houtside token hmem).imp Nat.succ_le_of_lt Nat.lt_succ_of_lt

/-- A token is put in as a piece between blanks. -/
theorem IsComposed.insertToken (h : editor.IsComposed pieces) (hscanned : editor.IsScanned)
    {id : String} (hid : Text.isIdentifier id.toList) {aggregate : Option Aggregate}
    (hinsert : editor.insertToken position (tokenContent id aggregate) = .ok edited) :
    ∃ others, edited.IsComposed others := by
  obtain ⟨hcheck, rfl, -⟩ := insertToken_eq_ok hinsert
  obtain ⟨hbefore, hafter⟩ := padding_eq editor position
  have hblank : ∀ padding : List Char, padding = [] ∨ padding = [' '] →
      ∀ piece ∈ padding.map Piece.char, piece.IsAllowed editor.options := by
    rintro _ (rfl | rfl)
    · exact List.forall_mem_nil _
    · exact List.forall_mem_singleton.2 rfl
  have hpadded : editor.paddedToken position (tokenContent id aggregate) =
      textOf ((editor.paddingBefore position).map .char ++ ([.token id aggregate] ++
        (editor.paddingAfter position).map .char)) := by
    rw [textOf_append, textOf_append, textOf_map_char, textOf_map_char, paddedToken,
      List.append_assoc]
    simp [textOf, Piece.text]
  rw [hpadded]
  refine h.insertAt ((checkPosition_eq_ok_iff_isStop hscanned).1 hcheck) ?_ _
  exact List.forall_mem_append.2 ⟨hblank _ hbefore,
    List.forall_mem_append.2 ⟨List.forall_mem_singleton.2 hid, hblank _ hafter⟩⟩

/-- Every edit that is carried out on pieces leaves pieces. -/
theorem IsComposed.run (h : editor.IsComposed pieces) (hscanned : editor.IsScanned) {edit : Edit}
    (hrun : editor.run edit = .ok edited) : ∃ others, edited.IsComposed others := by
  cases edit with
  | insertChar position c =>
    obtain ⟨hcheck, hallowed, -, rfl⟩ := insertChar_eq_ok_iff.1 hrun
    have hchar : ∀ piece ∈ [Piece.char c], piece.IsAllowed editor.options :=
      List.forall_mem_singleton.2 hallowed
    exact h.insertAt ((checkPosition_eq_ok_iff_isStop hscanned).1 hcheck) hchar _
  | deleteBackward position =>
    obtain ⟨hle, hpos, ⟨token, htoken, rfl⟩ | ⟨hending, hinside, rfl⟩⟩ :=
      deleteBackward_eq_ok_iff.1 hrun
    · exact h.remove_token hscanned (List.mem_of_find?_eq_some htoken)
    · obtain ⟨index, hindex⟩ : ∃ index, position.getD editor.cursor = index + 1 :=
        ⟨position.getD editor.cursor - 1, by omega⟩
      rw [hindex] at hle hending hinside ⊢
      -- No token ends here and none holds the position, so the character is a piece of its own.
      exact h.remove_char hscanned (by omega) (outside_of_endingAt?_eq_none hending hinside)
  | deleteForward position =>
    obtain ⟨hcheck, hlt, ⟨token, htoken, rfl⟩ | ⟨hstarting, rfl⟩⟩ := deleteForward_eq_ok_iff.1 hrun
    · have hopening := List.find?_some htoken
      rw [beq_iff_eq] at hopening
      rw [← hopening]
      exact h.remove_token hscanned (List.mem_of_find?_eq_some htoken)
    · exact h.remove_char hscanned hlt
        (outside_of_startingAt?_eq_none hstarting (checkPosition_eq_ok_iff.1 hcheck).2)
  | insertMetric position id aggregate =>
    obtain ⟨hid, hinsert⟩ := insertMetric_eq_ok_iff.1 hrun
    exact h.insertToken hscanned hid hinsert
  | moveCursor position =>
    -- Moves leave the text and the options as they are.
    cases hrun
    exact ⟨pieces, h.allowed, h.text_eq⟩
  | moveLeft =>
    cases hrun
    obtain ⟨cursor, heq⟩ := exists_moveLeft_eq editor
    exact ⟨pieces, heq ▸ ⟨h.allowed, h.text_eq⟩⟩
  | moveRight =>
    cases hrun
    obtain ⟨cursor, heq⟩ := exists_moveRight_eq editor
    exact ⟨pieces, heq ▸ ⟨h.allowed, h.text_eq⟩⟩
  | clear =>
    cases hrun
    exact ⟨[], List.forall_mem_nil _, rfl⟩

end Editor

end MetricFormula
