import MetricFormula.Proofs.Editing.Reachable
import MetricFormula.Proofs.Formula.Brackets
import MetricFormula.Proofs.Formula.MetricToken

/-!
# Tokens are units

No edit splits, merges, adds or loses a metric token other than the one it is about. The texts of
reachable editors may hold stray, nested and unclosed braces, and tokens are found by reading the
whole text again, so this is a statement about the scanner: a splice at a boundary of tokens
changes the tokens next to it in the way that is seen, and no others.

## Main definitions

* `Editor.Typed`, `Editor.LostChar`, `Editor.LostToken`, `Editor.GainedToken`: what an edit does to
  the text and to the tokens;
* `Editor.Atomic`: the one of these that each edit is allowed to do.

## Main results

* `Editor.apply_atomic`: every edit of a reachable editor is atomic or refused without any effect.
-/

namespace MetricFormula

namespace Editor

open MetricToken

/-- A character was typed: no token came or went, the ones from the position on moved by one, and
each says what it said. -/
structure Typed (before after : Editor) (position : Nat) (c : Char) : Prop where
  /-- The character stands at the position. -/
  text_eq : after.text = insertAt before.text position [c]
  /-- The tokens are the same ones. -/
  tokens_eq : after.tokens = before.tokens.map (shiftFrom position 1)
  /-- Every token has its characters. -/
  kept : ∀ token ∈ before.tokens,
    (token.shiftFrom position 1).text after.text = token.text before.text

/-- One character that lies in no token was deleted: the tokens behind it moved by one, and each
says what it said. -/
structure LostChar (before after : Editor) (index : Nat) : Prop where
  /-- There was a character. -/
  index_lt : index < before.text.length
  /-- It lay in no token. -/
  outside : ∀ token ∈ before.tokens, index < token.opening ∨ token.closing < index
  /-- It is gone, and nothing else. -/
  text_eq : after.text = before.text.eraseIdx index
  /-- The tokens are the same ones. -/
  tokens_eq : after.tokens = before.tokens.map (shiftBack index 1)
  /-- Every token has its characters. -/
  kept : ∀ token ∈ before.tokens,
    (token.shiftBack index 1).text after.text = token.text before.text

/-- One whole token was deleted: the tokens behind it moved by its length, and each other token says
what it said. -/
structure LostToken (before after : Editor) (token : MetricToken) : Prop where
  /-- Its characters are gone, and nothing else. -/
  text_eq : after.text = before.text.take token.opening ++ before.text.drop token.after
  /-- The tokens are the other ones, which have their characters. -/
  tokens_eq : ∃ earlier later, before.tokens = earlier ++ token :: later ∧
    after.tokens = (earlier ++ later).map (shiftBack token.opening token.length) ∧
    ∀ other ∈ earlier ++ later,
      (other.shiftBack token.opening token.length).text after.text = other.text before.text

/-- One token that says `content` was inserted, with `left` and `right` around it: the tokens from
the position on moved by the length of what was inserted, and each says what it said. -/
structure GainedToken (before after : Editor) (position : Nat) (content left right : List Char) :
    Prop where
  /-- At most a blank was put in on each side. -/
  padding : (left = [] ∨ left = [' ']) ∧ (right = [] ∨ right = [' '])
  /-- The token stands at the position. -/
  text_eq : after.text = insertAt before.text position (left ++ tokenText content ++ right)
  /-- The tokens are the same ones and the new one, which says `content`. -/
  tokens_eq : ∃ token earlier later, before.tokens = earlier ++ later ∧
    after.tokens =
      earlier.map (shiftFrom position (left ++ tokenText content ++ right).length) ++
        token :: later.map (shiftFrom position (left ++ tokenText content ++ right).length) ∧
    token.text after.text = tokenText content
  /-- Every earlier token has its characters. -/
  kept : ∀ token ∈ before.tokens,
    (token.shiftFrom position (left ++ tokenText content ++ right).length).text after.text =
      token.text before.text

/-- What an edit that is carried out may do. -/
def Atomic (before after : Editor) : Edit → Prop
  | .insertChar position c => Typed before after (position.getD before.cursor) c
  | .deleteBackward position =>
    (∃ index, index + 1 = position.getD before.cursor ∧ LostChar before after index) ∨
      ∃ token, token.after = position.getD before.cursor ∧ LostToken before after token
  | .deleteForward position =>
    LostChar before after (position.getD before.cursor) ∨
      ∃ token, token.opening = position.getD before.cursor ∧ LostToken before after token
  | .insertMetric position id aggregate =>
    ∃ left right, GainedToken before after (position.getD before.cursor)
      (tokenContent id aggregate) left right
  | .moveCursor _ | .moveLeft | .moveRight =>
    after.text = before.text ∧ after.tokens = before.tokens
  | .clear => after.text = [] ∧ after.tokens = []

/-! ## Cutting a text at a position -/

/-- A text up to a position and from it on. -/
theorem exists_append_of_le {text : List Char} {position : Nat} (hle : position ≤ text.length) :
    ∃ u v, text = u ++ v ∧ u.length = position :=
  ⟨text.take position, text.drop position, (List.take_append_drop _ _).symm,
    List.length_take_of_le hle⟩

/-- Inserting between two parts of a text. -/
theorem insertAt_append (u v inserted : List Char) :
    insertAt (u ++ v) u.length inserted = u ++ (inserted ++ v) := by
  simp [insertAt]

/-- The character in front of a cut is the last one of the first part. -/
theorem charBefore?_append (u v : List Char) : charBefore? (u ++ v) u.length = u.getLast? := by
  cases hlength : u.length with
  | zero =>
    rw [List.length_eq_zero_iff.1 hlength]
    rfl
  | succ index =>
    rw [charBefore?, List.getElem?_append_left (hlength ▸ Nat.lt_succ_self index),
      List.getLast?_eq_getElem?, hlength]
    rfl

/-- The character behind a cut is the first one of the second part. -/
theorem getElem?_length_append (u v : List Char) : (u ++ v)[u.length]? = v.head? := by
  rw [List.getElem?_append_right (Nat.le_refl _), Nat.sub_self, List.head?_eq_getElem?]

/-- The neighbours of a cut are the last character of the first part and the first one of the
second. -/
theorem hasOperatorAt_append {editor : Editor} {u v : List Char} (htext : editor.text = u ++ v) :
    editor.hasOperatorAt u.length =
      (u.getLast?.any isOperatorChar || v.head?.any isOperatorChar) := by
  rw [hasOperatorAt, htext, charBefore?_append, getElem?_length_append]

/-- A position that is taken cuts the text at a boundary of its tokens. -/
theorem exists_boundary {editor : Editor} {position : Nat} (hscanned : editor.IsScanned)
    (hcheck : editor.checkPosition position = .ok ()) :
    ∃ u v, editor.text = u ++ v ∧ u.length = position ∧ IsBoundary (u ++ v) u.length := by
  obtain ⟨hle, hinside⟩ := checkPosition_eq_ok_iff.1 hcheck
  obtain ⟨u, v, htext, hlength⟩ := exists_append_of_le hle
  refine ⟨u, v, htext, hlength, ?_⟩
  rwa [IsBoundary, ← htext, hlength, ← hscanned]

/-! ## One edit at a time -/

variable {editor edited : Editor} {position : Nat}

/-- Braces are not typed. -/
theorem ne_brace_of_allows {options : EditorOptions} {c : Char} (h : options.allows c = true) :
    openingBrace ≠ c ∧ closingBrace ≠ c := by
  constructor <;> rintro rfl <;> cases h

/-- Typing a character leaves all tokens whole. -/
theorem typed_of_insertChar {c : Char} (hscanned : editor.IsScanned)
    (h : editor.insertChar position c = .ok edited) : Typed editor edited position c := by
  obtain ⟨hcheck, hallowed, _, rfl⟩ := insertChar_eq_ok_iff.1 h
  obtain ⟨u, v, htext, rfl, hboundary⟩ := exists_boundary hscanned hcheck
  obtain ⟨hopening, hclosing⟩ := ne_brace_of_allows hallowed
  rw [IsScanned, htext] at hscanned
  constructor
  · rfl
  · rw [withText_tokens, htext, insertAt_append, hscanned]
    exact scan_insert_plain hboundary (by simpa using hopening) (by simpa using hclosing)
  · intro token hmem
    rw [withText_text, htext, insertAt_append]
    exact text_shiftFrom hboundary [c] (hscanned ▸ hmem)

/-- Removing a character that lies in no token leaves all tokens whole. -/
theorem lostChar_remove (hscanned : editor.IsScanned) (hlt : position < editor.text.length)
    (houtside : ∀ token ∈ editor.tokens, position < token.opening ∨ token.closing < position) :
    LostChar editor (editor.remove position (position + 1)) position := by
  -- The character that goes stands between the two parts of the text that stay.
  obtain ⟨c, hc⟩ : ∃ c, editor.text[position]? = some c := ⟨_, List.getElem?_eq_getElem hlt⟩
  obtain ⟨u, v, htext, rfl⟩ := exists_append_cons hc
  have hremoved : editor.text.take u.length ++ editor.text.drop (u.length + 1) = u ++ v := by
    rw [htext, List.take_left, ← List.drop_drop, List.drop_left, List.drop_one, List.tail_cons]
  rw [IsScanned, htext] at hscanned
  refine ⟨hlt, houtside, ?_, ?_, ?_⟩
  · rw [remove_text, List.eraseIdx_eq_take_drop_succ]
  · rw [remove_tokens, hremoved, hscanned]
    exact scan_remove_char (hscanned ▸ houtside)
  · intro token hmem
    rw [remove_text, hremoved, htext]
    refine text_shiftBack (w := [c]) (hscanned ▸ hmem) ?_
    exact (houtside token hmem).imp_left Nat.succ_le_of_lt

/-- Removing a token leaves all other tokens whole. -/
theorem lostToken_remove (hscanned : editor.IsScanned) {token : MetricToken}
    (hmem : token ∈ editor.tokens) :
    LostToken editor (editor.remove token.opening token.after) token := by
  rw [IsScanned] at hscanned
  rw [hscanned] at hmem
  obtain ⟨earlier, later, htokens, hremoved, hkept⟩ := exists_scan_remove hmem
  exact ⟨rfl, earlier, later, hscanned.trans htokens, hremoved, hkept⟩

/-- Deleting backward takes the character or the token in front of the position. -/
theorem lost_of_deleteBackward (hscanned : editor.IsScanned)
    (h : editor.deleteBackward position = .ok edited) :
    (∃ index, index + 1 = position ∧ LostChar editor edited index) ∨
      ∃ token, token.after = position ∧ LostToken editor edited token := by
  obtain ⟨hle, hpos, ⟨token, htoken, rfl⟩ | ⟨hending, hinside, rfl⟩⟩ := deleteBackward_eq_ok_iff.1 h
  · right
    have hafter := List.find?_some htoken
    rw [beq_iff_eq] at hafter
    exact ⟨token, hafter, lostToken_remove hscanned (List.mem_of_find?_eq_some htoken)⟩
  · left
    obtain ⟨index, rfl⟩ : ∃ index, position = index + 1 := ⟨position - 1, by omega⟩
    exact ⟨index, rfl, lostChar_remove hscanned (by omega)
      (outside_of_endingAt?_eq_none hending hinside)⟩

/-- Deleting forward takes the character or the token behind the position. -/
theorem lost_of_deleteForward (hscanned : editor.IsScanned)
    (h : editor.deleteForward position = .ok edited) :
    LostChar editor edited position ∨
      ∃ token, token.opening = position ∧ LostToken editor edited token := by
  obtain ⟨hcheck, hlt, ⟨token, htoken, rfl⟩ | ⟨hstarting, rfl⟩⟩ := deleteForward_eq_ok_iff.1 h
  · right
    have hopening := List.find?_some htoken
    rw [beq_iff_eq] at hopening
    subst hopening
    exact ⟨token, rfl, lostToken_remove hscanned (List.mem_of_find?_eq_some htoken)⟩
  · left
    exact lostChar_remove hscanned hlt
      (outside_of_startingAt?_eq_none hstarting (checkPosition_eq_ok_iff.1 hcheck).2)

/-- What stands around an inserted token is at most a blank on each side. -/
theorem padding_eq (editor : Editor) (position : Nat) :
    (editor.paddingBefore position = [] ∨ editor.paddingBefore position = [' ']) ∧
      (editor.paddingAfter position = [] ∨ editor.paddingAfter position = [' ']) := by
  unfold paddingBefore paddingAfter
  constructor <;> split <;> simp

/-- A blank is no brace. -/
theorem notMem_padding {c : Char} (hc : c ≠ ' ') {padding : List Char}
    (hpadding : padding = [] ∨ padding = [' ']) : c ∉ padding := by
  rcases hpadding with rfl | rfl <;> simp [hc]

/-- What holds of parentheses and of the characters of identifiers holds of all that stands in the
content of a metric token. -/
theorem forall_mem_tokenContent {P : Char → Prop} (hpart : ∀ c, Text.isIdentifierPart c → P c)
    (hopening : P '(') (hclosing : P ')') {id : String} (hid : Text.isIdentifier id.toList)
    (aggregate : Option Aggregate) : ∀ c ∈ tokenContent id aggregate, P c := by
  have hname : ∀ c ∈ id.toList, P c := fun c hc => hpart c (Text.isIdentifierPart_of_mem hid c hc)
  cases aggregate with
  | none => exact hname
  | some kind =>
    have hfunction : ∀ c ∈ kind.function.toList, Text.isIdentifierPart c :=
      List.all_eq_true.1 (by cases kind <;> decide)
    refine List.forall_mem_append.2 ⟨List.forall_mem_append.2 ⟨?_, ?_⟩, ?_⟩
    · exact fun c hc => hpart c (hfunction c hc)
    · exact List.forall_mem_cons.2 ⟨hopening, hname⟩
    · exact List.forall_mem_singleton.2 hclosing

/-- The content of a metric token holds no closing brace. -/
theorem notMem_tokenContent {id : String} (hid : Text.isIdentifier id.toList)
    (aggregate : Option Aggregate) : closingBrace ∉ tokenContent id aggregate := by
  have hbrace : Text.isIdentifierPart closingBrace = false := by decide
  refine fun hmem => forall_mem_tokenContent (P := (· ≠ closingBrace)) ?_ (by decide) (by decide)
    hid aggregate closingBrace hmem rfl
  rintro c hpart rfl
  rw [hbrace] at hpart
  cases hpart

/-- A padded token leaves no brace open. -/
theorem openAfter_paddedToken {content : List Char} (hcontent : closingBrace ∉ content)
    (position start : Nat) : openAfter start none (editor.paddedToken position content) = none := by
  obtain ⟨hleft, hright⟩ := padding_eq editor position
  have hinner : closingBrace ∉ ' ' :: content ++ [' '] := by
    simpa [closingBrace] using hcontent
  have hpadded : editor.paddedToken position content = editor.paddingBefore position ++
      (openingBrace :: (' ' :: content ++ [' '] ++ [closingBrace]) ++
        editor.paddingAfter position) := by
    simp [paddedToken, tokenText]
  rw [hpadded]
  exact openAfter_padded (notMem_padding (by decide) hleft) hinner
    (notMem_padding (by decide) hright) start

/-- Inserting a token adds that token and leaves all others whole. -/
theorem gainedToken_of_insertToken {content : List Char} (hscanned : editor.IsScanned)
    (hcontent : closingBrace ∉ content)
    (h : editor.insertToken position content = .ok edited) :
    GainedToken editor edited position content (editor.paddingBefore position)
      (editor.paddingAfter position) := by
  obtain ⟨hcheck, rfl, hmem⟩ := insertToken_eq_ok h
  obtain ⟨hleft, hright⟩ := padding_eq editor position
  obtain ⟨u, v, htext, rfl, hboundary⟩ := exists_boundary hscanned hcheck
  rw [withText_tokens] at hmem
  have hpadded := paddedToken.eq_1 editor u.length content
  have hclosed : openAfter 0 none (editor.paddedToken u.length content) = none :=
    openAfter_paddedToken hcontent u.length 0
  -- From here on it only matters that each padding is empty or a blank.
  revert hmem hleft hright hpadded hclosed
  generalize editor.paddingBefore u.length = left, editor.paddingAfter u.length = right,
    editor.paddedToken u.length content = inserted
  intro hmem hleft hright hpadded hclosed
  -- The new token is a brace, text without a closing brace, and a closing brace.
  let inner := ' ' :: content ++ [' ']
  have hinner : closingBrace ∉ inner := by simpa [inner, closingBrace] using hcontent
  have htoken : tokenText content = openingBrace :: (inner ++ [closingBrace]) := by
    simp [tokenText, inner]
  have hinserted : inserted = left ++ (openingBrace :: (inner ++ [closingBrace]) ++ right) := by
    rw [hpadded, htoken, List.append_assoc]
  rw [IsScanned, htext] at hscanned
  rw [htext, insertAt_append, hinserted] at hmem
  -- Scanning found the new token where it was put, so no brace is open there.
  have hopen : openAfter 0 none u = none :=
    openAfter_eq_none_of_mem hboundary (notMem_padding (by decide) hleft) hinner
      (notMem_padding (by decide) hright) hmem
  have hscan : scan inserted = [⟨left.length, left.length + inner.length + 1⟩] := by
    rw [hinserted]
    exact scan_padded ⟨notMem_padding (by decide) hleft, notMem_padding (by decide) hleft⟩ hinner
      (notMem_padding (by decide) hright)
  refine ⟨⟨hleft, hright⟩, ?_, ?_, ?_⟩
  · rw [withText_text, hpadded]
  · refine ⟨shift u.length ⟨left.length, left.length + inner.length + 1⟩, scan u,
      (scan v).map (shift u.length), hscanned.trans (scan_append hopen v), ?_, ?_⟩
    · rw [withText_tokens, ← hpadded, htext, insertAt_append,
        scan_insert_single hopen hclosed hscan, map_shiftFrom_scan]
    · rw [withText_text, htext, insertAt_append, hinserted, ← htoken]
      have hsplit : u ++ (left ++ (tokenText content ++ right) ++ v) =
          (u ++ left) ++ (tokenText content ++ (right ++ v)) := by simp
      rw [hsplit]
      refine text_eq_of_span ?_ ?_
      · simp [shift, Nat.add_comm]
      · simp only [MetricToken.length, shift, htoken, List.length_cons, List.length_append,
          List.length_nil]
        omega
  · intro token hmem
    rw [withText_text, ← hpadded, htext, insertAt_append]
    exact text_shiftFrom hboundary inserted (hscanned ▸ hmem)

/-- Every edit that is carried out is atomic. -/
theorem atomic_of_run {edit : Edit} (hscanned : editor.IsScanned)
    (h : editor.run edit = .ok edited) : Atomic editor edited edit := by
  cases edit with
  | insertChar position c => exact typed_of_insertChar hscanned h
  | deleteBackward position => exact lost_of_deleteBackward hscanned h
  | deleteForward position => exact lost_of_deleteForward hscanned h
  | insertMetric position id aggregate =>
    obtain ⟨hid, hinsert⟩ := insertMetric_eq_ok_iff.1 h
    exact ⟨_, _, gainedToken_of_insertToken hscanned (notMem_tokenContent hid aggregate) hinsert⟩
  | moveCursor position =>
    cases h
    exact setCursor_text_tokens editor position
  | moveLeft =>
    cases h
    exact moveLeft_text_tokens editor
  | moveRight =>
    cases h
    exact moveRight_text_tokens editor
  | clear =>
    cases h
    exact ⟨rfl, rfl⟩

/-- Every edit of a reachable editor is refused and changes nothing, or is carried out and handles
metric tokens as units. -/
theorem apply_atomic {editor : Editor} (hreach : Reachable editor) (edit : Edit) :
    (∀ reason, (editor.apply edit).1 = .refused reason → (editor.apply edit).2 = editor) ∧
      ((editor.apply edit).1 = .applied → Atomic editor (editor.apply edit).2 edit) := by
  unfold apply
  split
  next edited h =>
    exact ⟨fun _ hrefused => (nomatch hrefused), fun _ => atomic_of_run hreach.tokens_eq h⟩
  next => exact ⟨fun _ _ => rfl, fun happlied => (nomatch happlied)⟩

/-- The token of a text with stray and unclosed braces is deleted as one unit. -/
theorem apply_atomic_among_stray_braces :
    let editor := ofText "\x7d \x7b a \x7b \x7d + \x7b 1".toList {}
    let edit := Edit.deleteBackward (some 9)
    Reachable editor ∧ (editor.apply edit).1 = .applied ∧
      Atomic editor (editor.apply edit).2 edit ∧
      (editor.apply edit).2.text = "\x7d  + \x7b 1".toList := by
  have hreach : Reachable (ofText "\x7d \x7b a \x7b \x7d + \x7b 1".toList {}) := .ofText _ _
  have happlied : ((ofText "\x7d \x7b a \x7b \x7d + \x7b 1".toList {}).apply
      (.deleteBackward (some 9))).1 = .applied := by decide
  exact ⟨hreach, happlied, (apply_atomic hreach _).2 happlied, by decide⟩

end Editor

end MetricFormula
