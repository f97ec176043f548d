import MetricFormula.Proofs.Editing.Insertion
import MetricFormula.Proofs.Editing.Metrics
import MetricFormula.Proofs.Expression.Errors
import MetricFormula.Proofs.Formula.Delimiters
import MetricFormula.Proofs.Formula.Reformatting

/-!
# Texts that are written by edits

An editor that starts without text can be edited in any order and at any positions, and every edit
may be refused or not: its text is always made of single characters that can be typed and of whole
tokens of identifiers. Much of what can be wrong with a formula cannot be wrong with such a text.
Its braces are balanced and none opens inside a token, so a metric is never refused for a brace in
front of it, and no character is unknown to the parser.

## Main definitions

* `Editor.applyAll`: an editor after a run of edits;
* `Editor.typedCharacters`: all characters that can be typed.

## Main results

* `Editor.exists_isComposed_applyAll`: the text of an editor after a run of edits is in pieces;
* `Piece.openCount?_textOf`, `Piece.isUnnested_textOf`: the braces of pieces;
* `Editor.IsComposed.insertMetric_ne_unclosedToken`: metrics go in between pieces;
* `Piece.isKnown_scan_textOf`: the characters of pieces are known;
* `Editor.text_of_applyAll`: the text of an editor that starts without text.
-/

namespace MetricFormula

open MetricToken

/-! ## Runs of edits -/

namespace Editor

/-- The editor after a run of edits, each of which may be refused. -/
def applyAll (editor : Editor) (edits : List Edit) : Editor :=
  edits.foldl (fun editor edit => (editor.apply edit).2) editor

variable {editor : Editor} {pieces : List Piece}

/-- An edit leaves pieces, whether it is refused or not. -/
theorem IsComposed.apply (h : editor.IsComposed pieces) (hscanned : editor.IsScanned)
    (edit : Edit) : ∃ others, (editor.apply edit).2.IsComposed others := by
  unfold Editor.apply
  split
  next edited hrun => exact h.run hscanned hrun
  next => exact ⟨pieces, h⟩

/-- So does every run of edits, and the stored tokens stay those of the text. -/
theorem IsComposed.applyAll (h : editor.IsComposed pieces) (hscanned : editor.IsScanned)
    (edits : List Edit) :
    (editor.applyAll edits).IsScanned ∧ ∃ others, (editor.applyAll edits).IsComposed others := by
  induction edits generalizing editor pieces with
  | nil => exact ⟨hscanned, pieces, h⟩
  | cons edit edits ih =>
    obtain ⟨others, hothers⟩ := h.apply hscanned edit
    exact ih hothers (hscanned.apply edit)

/-- Whatever is done to an editor without text, its text is in pieces. -/
theorem exists_isComposed_applyAll (options : EditorOptions) (edits : List Edit) :
    ((empty options).applyAll edits).IsScanned ∧
      ∃ pieces, ((empty options).applyAll edits).IsComposed pieces := by
  have hempty : (empty options).IsComposed [] := ⟨List.forall_mem_nil _, rfl⟩
  exact hempty.applyAll rfl edits

end Editor

/-! ## Braces -/

/-- The characters of a token by their places in the formula. -/
theorem MetricToken.getElem?_text {formula : List Char} {token : MetricToken} {index : Nat}
    (hopening : token.opening ≤ index) (hclosing : index ≤ token.closing) :
    (token.text formula)[index - token.opening]? = formula[index]? := by
  have hlt : index - token.opening < token.length := by
    rw [MetricToken.length]
    omega
  rw [MetricToken.text, List.getElem?_take_of_lt hlt, List.getElem?_drop,
    Nat.add_sub_cancel' hopening]

/-- The first character of a token is its only opening brace. -/
theorem getElem?_tokenText_ne {content : List Char} (hcontent : openingBrace ∉ content)
    {index : Nat} (hpos : 0 < index) : (tokenText content)[index]? ≠ some openingBrace := by
  obtain ⟨index, rfl⟩ := Nat.exists_eq_succ_of_ne_zero (Nat.ne_of_gt hpos)
  intro hbrace
  rw [tokenText, List.cons_append, List.cons_append, List.getElem?_cons_succ] at hbrace
  have hmem := List.mem_of_getElem? hbrace
  simp only [List.mem_cons, List.mem_append, List.not_mem_nil, or_false] at hmem
  rcases hmem with heq | hmem | heq | heq
  · cases heq
  · exact hcontent hmem
  · cases heq
  · cases heq

namespace Piece

variable {options : EditorOptions} {piece : Piece} {pieces : List Piece}

/-- A piece leaves as many braces open as it finds. -/
theorem openCount?_text (h : piece.IsAllowed options) (count : Nat) :
    openCount? openingBrace closingBrace count piece.text = some count := by
  cases piece with
  | char c =>
    obtain ⟨hopening, hclosing⟩ := Editor.ne_brace_of_allows h
    rw [text, openCount?_cons, openStep?, if_neg hopening.symm, if_neg hclosing.symm]
    rfl
  | token id aggregate =>
    have hcontent : IsNeutral (Editor.tokenContent id aggregate) := by
      cases aggregate with
      | none => exact isNeutral_of_isNoBracket (isNoBracket_of_isIdentifier h)
      | some kind => exact Calculation.isNeutral_call kind h
    have hbraces : (openingBrace, closingBrace) ∈ bracketPairs := by decide
    exact Calculation.isNeutral_tokenText hcontent _ hbraces count

/-- The braces of pieces are balanced. -/
theorem openCount?_textOf (hallowed : ∀ piece ∈ pieces, piece.IsAllowed options) (count : Nat) :
    openCount? openingBrace closingBrace count (textOf pieces) = some count := by
  induction pieces with
  | nil => rfl
  | cons piece pieces ih =>
    obtain ⟨hpiece, hallowed⟩ := List.forall_mem_cons.1 hallowed
    rw [textOf, List.flatMap_cons, ← textOf, openCount?_append, openCount?_text hpiece]
    exact ih hallowed

/-- No brace opens in a token among pieces. -/
theorem isUnnested_textOf (hallowed : ∀ piece ∈ pieces, piece.IsAllowed options) :
    Formula.IsUnnested (textOf pieces) := by
  intro token hmem index hclosing hopening
  obtain ⟨use, -, hdescribes⟩ := exists_describes (forall₂_describes hallowed) token hmem
  -- The token is written as one that was inserted, with an identifier between its braces.
  rw [← MetricToken.getElem?_text (Nat.le_of_lt hopening) (Nat.le_of_lt hclosing),
    hdescribes.text_eq]
  refine getElem?_tokenText_ne (fun hbrace => ?_) (Nat.sub_pos_of_lt hopening)
  cases Editor.isBrace_of_mem_tokenContent hdescribes.isIdentifier use.aggregate _ hbrace

end Piece

/-! ## Metrics between pieces -/

/-- A metric that is inserted among pieces is not refused for a brace in front of it. -/
theorem Editor.IsComposed.insertMetric_ne_unclosedToken {editor : Editor} {pieces : List Piece}
    (h : editor.IsComposed pieces) (hscanned : editor.IsScanned) (position : Nat) (id : String)
    (aggregate : Option Aggregate) :
    editor.insertMetric position id aggregate ≠ .error .unclosedToken := by
  intro hrefused
  unfold insertMetric at hrefused
  split at hrefused
  next hid =>
    rcases hcheck : editor.checkPosition position with reason | ⟨⟩
    · rw [insertToken_of_checkPosition hcheck] at hrefused
      exact checkPosition_ne_unclosedToken (hcheck.trans (congrArg _ (Except.error.inj hrefused)))
    · -- The position lies between two pieces, and those in front of it leave no brace open.
      have hstop := (checkPosition_eq_ok_iff_isStop hscanned).1 hcheck
      rw [h.text_eq] at hstop
      obtain ⟨before, after, rfl, rfl⟩ := Piece.exists_append_of_isStop h.allowed hstop
      have hopen := Piece.openAfter_textOf (List.forall_mem_append.1 h.allowed).1 0
      have htext := h.text_eq.trans (Piece.textOf_append before after)
      have hinserted := (insertToken_eq_ok_iff hscanned (notMem_tokenContent hid aggregate)
        htext).2 ⟨hopen, rfl⟩
      cases hinserted.symm.trans hrefused
  next => cases hrefused

/-! ## Known characters -/

namespace Lexeme

/-- There is no character that belongs to no word. -/
def IsKnown (result : Except SyntaxError (List Lexeme)) : Prop :=
  ∀ c, result ≠ .error (.unexpectedCharacter c)

theorem isKnown_ok (words : List Lexeme) : IsKnown (.ok words) :=
  fun _ h => by cases h

/-- A pending word has only known characters. -/
theorem isKnown_finish (pending : Pending) : IsKnown pending.finish := by
  intro c h
  unfold Pending.finish at h
  split at h
  next => cases h
  next => split at h <;> cases h
  next => cases h

/-- Two texts with a separator between them. -/
theorem IsKnown.joined {left right : Except SyntaxError (List Lexeme)} (hleft : IsKnown left)
    (words : List Lexeme) (hright : IsKnown right) : IsKnown (joined left words right) := by
  intro c h
  rcases bind_eq_error h with h | ⟨before, -, h⟩
  · exact hleft c h
  · rcases bind_eq_error h with h | ⟨after, -, h⟩
    · exact hright c h
    · cases h

/-- Characters each of which may begin a word or stand between words are known. -/
theorem isKnown_scanFrom {text : List Char} (h : ∀ c ∈ text, (start c).isOk) (pending : Pending) :
    IsKnown (scanFrom pending text) := by
  induction text generalizing pending with
  | nil => exact isKnown_finish pending
  | cons c text ih =>
    obtain ⟨hc, htext⟩ := List.forall_mem_cons.1 h
    rw [scanFrom]
    split
    next extended _ => exact ih htext extended
    next =>
      intro d hd
      -- The pending word ends, `c` begins the next one, and the rest follows.
      rcases bind_eq_error hd with hd | ⟨finished, -, hd⟩
      · exact isKnown_finish pending d hd
      · rcases bind_eq_error hd with hd | ⟨⟨single, next⟩, -, hd⟩
        · rw [hd] at hc
          cases hc
        · rcases bind_eq_error hd with hd | ⟨lexemes, -, hd⟩
          · exact ih htext next d hd
          · cases hd

end Lexeme

namespace Piece

variable {options : EditorOptions} {pieces : List Piece}

/-- What is typed may begin a word or stand between words. -/
theorem isOk_start_of_allows {c : Char} (h : options.allows c) : (Lexeme.start c).isOk :=
  Text.RangeTable.forall_of_codes (P := fun c => (Lexeme.start c).isOk) (by decide)
    (contains_typable h)

/-- The characters of pieces behind typed characters are known: those of a token are an identifier
or the call of a function, kept apart by blanks. -/
theorem isKnown_scan_textOf (hallowed : ∀ piece ∈ pieces, piece.IsAllowed options)
    {typed : List Char} (htyped : ∀ c ∈ typed, options.allows c) :
    Lexeme.IsKnown (Lexeme.scan (typed ++ (textOf pieces).filter (!isBrace ·))) := by
  have hplain : ∀ {u : List Char}, (∀ c ∈ u, options.allows c) → Lexeme.IsKnown (Lexeme.scan u) :=
    fun hu => Lexeme.isKnown_scanFrom (fun c hc => isOk_start_of_allows (hu c hc)) .nothing
  induction pieces generalizing typed with
  | nil =>
    rw [textOf, List.flatMap_nil, List.filter_nil, List.append_nil]
    exact hplain htyped
  | cons piece rest ih =>
    obtain ⟨hpiece, hrest⟩ := List.forall_mem_cons.1 hallowed
    rw [textOf, List.flatMap_cons, List.filter_append, ← textOf]
    cases piece with
    | char c =>
      rw [text, filter_char hpiece, ← List.append_assoc]
      exact ih hrest (List.forall_mem_append.2 ⟨htyped, List.forall_mem_singleton.2 hpiece⟩)
    | token id aggregate =>
      have hblank : Lexeme.separator? ' ' = some [] := by decide
      have hcontent := scan_tokenContent ⟨id, aggregate, false⟩ hpiece
      rw [filter_token hpiece, List.cons_append, List.append_assoc, List.singleton_append,
        Lexeme.scan_separator hblank, Lexeme.scan_separator hblank, hcontent]
      have hafter := ih hrest (List.forall_mem_nil _)
      exact (hplain htyped).joined [] ((Lexeme.isKnown_ok _).joined [] hafter)

end Piece

/-! ## Texts of editors -/

namespace Editor

/-- All characters that can be typed. -/
def typedCharacters : List Char :=
  "0123456789+-*/.() ".toList

theorem mem_typedCharacters {options : EditorOptions} {c : Char} (h : options.allows c) :
    c ∈ typedCharacters :=
  Text.RangeTable.forall_of_codes (P := (· ∈ typedCharacters)) (by decide)
    (Piece.contains_typable h)

/-- Whatever is done to an editor that starts without text, its text is a sequence of typed
characters and of whole tokens of identifiers. So its braces are balanced and are the ends of the
tokens, no token has a brace inside, no metric is refused for a brace that is not closed, and the
text is not refused for a character that belongs to no word. -/
theorem text_of_applyAll (options : EditorOptions) (edits : List Edit) :
    let editor := (empty options).applyAll edits
    (∃ pieces, editor.text = Piece.textOf pieces ∧
      (∀ c, .char c ∈ pieces → c ∈ typedCharacters) ∧
      ∀ id aggregate, .token id aggregate ∈ pieces → Text.isIdentifier id.toList) ∧
    openCount? openingBrace closingBrace 0 editor.text = some 0 ∧
    Formula.IsDelimited editor.text ∧ Formula.IsUnnested editor.text ∧
    (∀ position id aggregate,
      (editor.apply (.insertMetric position id aggregate)).1 ≠ .refused .unclosedToken) ∧
    ∀ c, Formula.parse editor.text ≠ .error (.syntactic (.unexpectedCharacter c)) := by
  intro editor
  obtain ⟨hscanned, pieces, hcomposed⟩ := exists_isComposed_applyAll options edits
  obtain ⟨hallowed, htext⟩ := hcomposed
  have hbalanced : openCount? openingBrace closingBrace 0 editor.text = some 0 :=
    htext ▸ Piece.openCount?_textOf hallowed 0
  have hunnested : Formula.IsUnnested editor.text := htext ▸ Piece.isUnnested_textOf hallowed
  refine ⟨⟨pieces, htext, fun c hc => mem_typedCharacters (hallowed _ hc),
    fun id aggregate hid => hallowed _ hid⟩, hbalanced,
    (Formula.isDelimited_iff_isUnnested hbalanced).2 hunnested, hunnested, ?_, ?_⟩
  · intro position id aggregate hrefused
    rw [Editor.apply] at hrefused
    split at hrefused
    next => cases hrefused
    next reason hrun =>
      cases hrefused
      exact IsComposed.insertMetric_ne_unclosedToken ⟨hallowed, htext⟩ hscanned _ id aggregate hrun
  · intro c hparse
    -- Only the scanner refuses a character, and it knows all that can be typed or inserted.
    have hscan := Formula.scan_of_parse_eq_error hparse rfl
    have hknown := Piece.isKnown_scan_textOf hallowed (List.forall_mem_nil _)
    rw [List.nil_append, ← htext] at hknown
    exact hknown c hscan

end Editor

end MetricFormula
