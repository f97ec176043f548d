import MetricFormula.Proofs.Editing.Pieces
import MetricFormula.Proofs.Editing.Session
import MetricFormula.Proofs.Editing.TokenContent

/-!
# Metrics of edited formulas

In a formula that is written by edits alone all names come from the tokens, since no letter can be
typed. Its words are put together from those of its pieces, and the blanks of a token keep them
apart from what stands next to it. What remains possible is that a parenthesis is typed behind a
token. Then its metric is read as a function, which has a meaning only if the metric is named like
an aggregate function. All other tokens are the metrics of the calculation, in their order.

## Main definitions

* `TokenUse`: how a token is used in a formula;
* `Piece.tokenUses`: the uses of the tokens among pieces;
* `Session.applyAll`: a session after a run of edits.

## Main results

* `Piece.forall₂_describes`: the tokens of a text in pieces;
* `Piece.nameUses_of_scan`: the names in the words of pieces;
* `Piece.metricIds_of_parse`: the metrics of what pieces mean;
* `Session.metricIds_of_applyAll`: the metrics of a session that starts without a formula.
-/

namespace MetricFormula

open MetricToken (scan)

/-! ## Uses of tokens -/

/-- How a token is used in a formula. -/
structure TokenUse where
  /-- The metric. -/
  id : String
  /-- The aggregate, if there is one. -/
  aggregate : Option Aggregate
  /-- An opening parenthesis follows the token. -/
  isCalled : Bool

namespace TokenUse

/-- The words of the token. -/
def words (use : TokenUse) : List Lexeme :=
  match use.aggregate with
  | none => [.name use.id]
  | some kind => [.name kind.function, .opening, .name use.id, .closing]

/-- The names among the words of the token, each with whether it is called. -/
def nameUses (use : TokenUse) : List (String × Bool) :=
  match use.aggregate with
  | none => [(use.id, use.isCalled)]
  | some kind => [(kind.function, true), (use.id, false)]

/-- The token of a formula is used so. -/
structure Describes (use : TokenUse) (formula : List Char) (token : MetricToken) : Prop where
  /-- The metric is an identifier. -/
  isIdentifier : Text.isIdentifier use.id.toList
  /-- The token is written as one that is inserted. -/
  text_eq : token.text formula = tokenText (Editor.tokenContent use.id use.aggregate)
  /-- What follows the token. -/
  isCalled_eq : token.isCalled formula = use.isCalled

/-- What a use says of a token does not depend on the text in front of it. -/
theorem Describes.shift {use : TokenUse} {v : List Char} {token : MetricToken}
    (h : use.Describes v token) (u : List Char) :
    use.Describes (u ++ v) (token.shift u.length) := by
  have hdrop : (u ++ v).drop (token.shift u.length).after = v.drop token.after := by
    have hafter : (token.shift u.length).after = u.length + token.after := by
      simp only [MetricToken.after, MetricToken.shift]
      omega
    rw [hafter, ← List.drop_drop, List.drop_left]
  refine ⟨h.isIdentifier, ?_, ?_⟩
  · rw [MetricToken.text_shift_append, h.text_eq]
  · rw [MetricToken.isCalled, hdrop]
    exact h.isCalled_eq

theorem comma_notMem_words (use : TokenUse) : Lexeme.comma ∉ use.words := by
  obtain ⟨id, aggregate, isCalled⟩ := use
  cases aggregate <;> simp [words]

/-- The names in the words of the token and the words behind it. -/
theorem nameUses_words_append (use : TokenUse) {after : List Lexeme}
    (h : use.isCalled = (after.head? == some .opening)) :
    Lexeme.nameUses (use.words ++ after) = use.nameUses ++ Lexeme.nameUses after := by
  obtain ⟨id, aggregate, isCalled⟩ := use
  obtain rfl : isCalled = _ := h
  cases aggregate <;> rfl

/-- Where operands do not touch, the token of an aggregate is not called. -/
theorem isCalled_eq_false (use : TokenUse) {after : List Lexeme}
    (h : use.isCalled = (after.head? == some .opening))
    (hchain : (use.words ++ after).IsChain Lexeme.MayPrecede) (haggregate : use.aggregate.isSome) :
    use.isCalled = false := by
  obtain ⟨id, aggregate, isCalled⟩ := use
  cases aggregate with
  | none => cases haggregate
  | some kind =>
    rw [h, beq_eq_false_iff_ne]
    intro hopening
    -- A parenthesis closes the token, and none opens right behind it.
    have hclosing : (Lexeme.closing :: after).IsChain Lexeme.MayPrecede := hchain.tail.tail.tail
    cases ((List.isChain_cons.1 hclosing).1 _ hopening rfl rfl).1

end TokenUse

namespace Piece

variable {options : EditorOptions} {pieces : List Piece}

/-- The uses of the tokens among pieces. -/
def tokenUses : List Piece → List TokenUse
  | [] => []
  | .char _ :: rest => tokenUses rest
  | .token id aggregate :: rest =>
    ⟨id, aggregate, Text.opensParenthesis (textOf rest)⟩ :: tokenUses rest

/-- The tokens of a text in pieces are used as the pieces say. -/
theorem forall₂_describes (hallowed : ∀ piece ∈ pieces, piece.IsAllowed options) :
    List.Forall₂ (fun token use => use.Describes (textOf pieces) token) (scan (textOf pieces))
      (tokenUses pieces) := by
  induction pieces with
  | nil => exact .nil
  | cons piece rest ih =>
    obtain ⟨hpiece, hallowed⟩ := List.forall_mem_cons.1 hallowed
    -- The tokens of the other pieces are further to the right.
    have hrest : List.Forall₂ (fun token use => use.Describes (textOf (piece :: rest)) token)
        ((scan (textOf rest)).map (MetricToken.shift piece.text.length)) (tokenUses rest) :=
      List.forall₂_map_left_iff.2 ((ih hallowed).imp fun token use h => h.shift piece.text)
    have hscan : scan (textOf (piece :: rest)) =
        scan piece.text ++ (scan (textOf rest)).map (MetricToken.shift piece.text.length) :=
      MetricToken.scan_append (openAfter_text hpiece 0) (textOf rest)
    rw [hscan]
    cases piece with
    | char c =>
      rw [text, scan_char hpiece]
      exact hrest
    | token id aggregate =>
      rw [text, scan_tokenText hpiece]
      have hlength : 0 < (tokenText (Editor.tokenContent id aggregate)).length := by
        simp [tokenText]
      refine .cons ⟨hpiece, ?_, ?_⟩ hrest
      · have hspan : (⟨0, (tokenText (Editor.tokenContent id aggregate)).length - 1⟩ :
            MetricToken).length = (tokenText (Editor.tokenContent id aggregate)).length :=
          Nat.sub_add_cancel hlength
        have hopening : (⟨0, (tokenText (Editor.tokenContent id aggregate)).length - 1⟩ :
            MetricToken).opening = ([] : List Char).length := rfl
        exact MetricToken.text_eq_of_span hopening hspan
      · have hafter : (textOf (token id aggregate :: rest)).drop
            (tokenText (Editor.tokenContent id aggregate)).length = textOf rest := List.drop_left
        rw [MetricToken.isCalled, MetricToken.after, Nat.sub_add_cancel hlength, hafter]

/-! ## Words of pieces -/

/-- The characters that editors let through, at most. -/
def typable : Text.RangeTable :=
  [(0x20, 0x20), (0x28, 0x2B), (0x2D, 0x39)]

theorem contains_typable {c : Char} (h : options.allows c) : typable.contains c := by
  rw [EditorOptions.allows] at h
  split at h
  next hpoint =>
    subst hpoint
    decide
  next =>
    simp only [isOperatorChar, Bool.or_eq_true, beq_iff_eq, Char.isDigit_iff_toNat] at h
    rcases h with (((⟨hlow, hhigh⟩ | hsign) | rfl) | rfl) | rfl
    · rw [Text.RangeTable.contains, List.any_eq_true]
      refine ⟨(0x2D, 0x39), by decide, ?_⟩
      rw [Bool.and_eq_true, decide_eq_true_iff, decide_eq_true_iff]
      exact ⟨Nat.le_trans (by decide) hlow, hhigh⟩
    · rcases hsign with (((rfl | rfl) | rfl) | rfl) | rfl <;> decide
    all_goals decide

/-- What is typed begins no name and is neither a comma nor a brace. -/
theorem typed_of_allows {c : Char} (h : options.allows c) :
    (Text.isIdentifierStart c = false ∧ c ≠ ',') ∧ isBrace c = false :=
  Text.RangeTable.forall_of_codes
    (P := fun c => (Text.isIdentifierStart c = false ∧ c ≠ ',') ∧ isBrace c = false)
    (by decide) (contains_typable h)

/-- The words of the content of a token. -/
theorem scan_tokenContent (use : TokenUse) (hid : Text.isIdentifier use.id.toList) :
    Lexeme.scan (Editor.tokenContent use.id use.aggregate) = .ok use.words := by
  obtain ⟨id, aggregate, isCalled⟩ := use
  cases aggregate with
  | none =>
    have hscan := Lexeme.scan_identifier hid
    rw [String.ofList_toList] at hscan
    exact hscan
  | some kind => exact Calculation.scan_call kind hid

theorem filter_char {c : Char} (h : options.allows c) : [c].filter (!isBrace ·) = [c] := by
  simp [(typed_of_allows h).2]

/-- Without its braces a token is its content between blanks. -/
theorem filter_token {id : String} (hid : Text.isIdentifier id.toList)
    (aggregate : Option Aggregate) :
    (token id aggregate).text.filter (!isBrace ·) =
      ' ' :: (Editor.tokenContent id aggregate ++ [' ']) :=
  Calculation.filter_tokenText (Editor.isBrace_of_mem_tokenContent hid aggregate)

/-- Without their braces, pieces open a parenthesis exactly if they do with them. -/
theorem opensParenthesis_filter (hallowed : ∀ piece ∈ pieces, piece.IsAllowed options) :
    Text.opensParenthesis ((textOf pieces).filter (!isBrace ·)) =
      Text.opensParenthesis (textOf pieces) := by
  induction pieces with
  | nil => rfl
  | cons piece rest ih =>
    obtain ⟨hpiece, hrest⟩ := List.forall_mem_cons.1 hallowed
    rw [textOf, List.flatMap_cons, List.filter_append, ← textOf]
    cases piece with
    | char c =>
      rw [text, filter_char hpiece, List.singleton_append, List.singleton_append,
        Text.opensParenthesis_cons, Text.opensParenthesis_cons, ih hrest]
    | token id aggregate =>
      -- A token begins with a brace, and without it with a blank and a name.
      obtain ⟨c, content, hcontent, hc⟩ := Editor.exists_tokenContent_eq hpiece aggregate
      rw [filter_token hpiece, hcontent, List.cons_append, List.cons_append, List.cons_append,
        Text.opensParenthesis_cons, if_pos (by decide),
        Text.opensParenthesis_of_isIdentifierStart hc]
      rfl

/-- The names in the words of pieces behind typed characters are those of the tokens among the
pieces, each called as its token is, there are no commas, and no aggregate is called where operands
do not touch. -/
theorem nameUses_of_scan (hallowed : ∀ piece ∈ pieces, piece.IsAllowed options)
    {typed : List Char} (htyped : ∀ c ∈ typed, options.allows c) {words : List Lexeme}
    (hscan : Lexeme.scan (typed ++ (textOf pieces).filter (!isBrace ·)) = .ok words) :
    Lexeme.nameUses words = (tokenUses pieces).flatMap TokenUse.nameUses ∧
      Lexeme.comma ∉ words ∧
      (words.IsChain Lexeme.MayPrecede →
        ∀ use ∈ tokenUses pieces, use.aggregate.isSome → use.isCalled = false) := by
  have hplain : ∀ {u : List Char} {left : List Lexeme}, (∀ c ∈ u, options.allows c) →
      Lexeme.scan u = .ok left → ∀ word ∈ left, word.isName = false ∧ word ≠ .comma :=
    fun hu hleft => (Lexeme.splits_of_scan hleft).forall_of_typed fun c hc =>
      (typed_of_allows (hu c hc)).1
  induction pieces generalizing typed words with
  | nil =>
    rw [textOf, List.flatMap_nil, List.filter_nil, List.append_nil] at hscan
    have hwords := hplain htyped hscan
    have huses := Lexeme.nameUses_append_of_not_isName (fun word hword => (hwords word hword).1) []
    rw [List.append_nil] at huses
    exact ⟨huses, fun hmem => (hwords _ hmem).2 rfl, fun _ => List.forall_mem_nil _⟩
  | cons piece rest ih =>
    obtain ⟨hpiece, hrest⟩ := List.forall_mem_cons.1 hallowed
    rw [textOf, List.flatMap_cons, List.filter_append, ← textOf] at hscan
    cases piece with
    | char c =>
      rw [text, filter_char hpiece, ← List.append_assoc] at hscan
      exact ih hrest (List.forall_mem_append.2 ⟨htyped, List.forall_mem_singleton.2 hpiece⟩) hscan
    | token id aggregate =>
      -- The blanks of the token separate its content from what stands around it.
      have hblank : Lexeme.separator? ' ' = some [] := by decide
      rw [filter_token hpiece, List.cons_append, List.append_assoc, List.singleton_append] at hscan
      obtain ⟨before, _, hbefore, hinside, rfl⟩ := Lexeme.exists_of_scan_separator hblank hscan
      obtain ⟨inner, after, hinner, hafter, rfl⟩ := Lexeme.exists_of_scan_separator hblank hinside
      let use : TokenUse := ⟨id, aggregate, Text.opensParenthesis (textOf rest)⟩
      obtain rfl : use.words = inner :=
        Except.ok.inj ((scan_tokenContent use hpiece).symm.trans hinner)
      have hwords := hplain htyped hbefore
      obtain ⟨huses, hcomma, hcalled⟩ := ih hrest (List.forall_mem_nil _) hafter
      -- The token is called if the words behind it open a parenthesis.
      have huse : use.isCalled = (after.head? == some .opening) := by
        have hiff := (Lexeme.splits_of_scan hafter).head?_eq_opening_iff
        rw [opensParenthesis_filter hrest] at hiff
        exact Bool.eq_iff_iff.2 (hiff.symm.trans beq_iff_eq.symm)
      rw [List.append_nil, List.append_nil]
      refine ⟨?_, ?_, fun hchain => ?_⟩
      · rw [Lexeme.nameUses_append_of_not_isName fun word hword => (hwords word hword).1,
          use.nameUses_words_append huse, huses]
        rfl
      · exact List.not_mem_append (fun hmem => (hwords _ hmem).2 rfl)
          (List.not_mem_append use.comma_notMem_words hcomma)
      · have hchain := (List.isChain_append.1 hchain).2.1
        exact List.forall_mem_cons.2 ⟨use.isCalled_eq_false huse hchain,
          hcalled (List.isChain_append.1 hchain).2.1⟩

end Piece

/-! ## The metrics of tokens that are used -/

open Lexeme (uncalled uncalled_append)

/-- If no aggregate is called, the names that are not called are the metrics of the tokens that are
not. -/
theorem uncalled_nameUses {uses : List TokenUse}
    (h : ∀ use ∈ uses, use.aggregate.isSome → use.isCalled = false) :
    uncalled (uses.flatMap TokenUse.nameUses) = (uses.filter (!·.isCalled)).map (·.id) := by
  induction uses with
  | nil => rfl
  | cons use uses ih =>
    obtain ⟨huse, huses⟩ := List.forall_mem_cons.1 h
    rw [List.flatMap_cons, uncalled_append, ih huses, List.filter_cons]
    obtain ⟨id, aggregate, isCalled⟩ := use
    cases aggregate with
    | none => cases isCalled <;> rfl
    | some kind =>
      obtain rfl : isCalled = false := huse rfl
      rfl

/-- The metrics of what pieces mean are those of the tokens that are not called, and only tokens of
bare metrics that are named like an aggregate function are called. -/
theorem Piece.metricIds_of_parse {options : EditorOptions} {pieces : List Piece}
    (hallowed : ∀ piece ∈ pieces, piece.IsAllowed options) {e : Expression} {t : Calculation}
    (hparse : Formula.parse (textOf pieces) = .ok e) (hmeans : e.Means t) :
    t.metricIds = ((tokenUses pieces).filter (!·.isCalled)).map (·.id) ∧
      ∀ use ∈ tokenUses pieces, use.isCalled →
        use.aggregate = none ∧ (Aggregate.ofFunction? use.id).isSome := by
  obtain ⟨words, hscan, hspells⟩ := Formula.exists_spells_of_parse hparse
  -- Nothing is typed in front of the pieces.
  obtain ⟨huses, hcomma, hcalled⟩ := nameUses_of_scan hallowed (List.forall_mem_nil _) hscan
  have hcalled := hcalled hspells.isChain
  constructor
  · rw [← uncalled_nameUses hcalled, ← huses, ← hspells.names_eq, hmeans.metricIds_eq,
      List.flatMap_singleton]
  · intro use huse hopening
    rcases haggregate : use.aggregate with _ | kind
    · -- The call is one of the expression, and without commas only aggregates are called.
      refine ⟨rfl, hspells.isSome_ofFunction? hcomma (List.forall_mem_singleton.2 ⟨t, hmeans⟩) ?_⟩
      rw [huses]
      exact List.mem_flatMap.2 ⟨use, huse, by simp [TokenUse.nameUses, haggregate, hopening]⟩
    · have hnot := hcalled use huse (by rw [haggregate]; rfl)
      cases hopening.symm.trans hnot

/-- Tokens that are not called are those whose uses are not, and name the same metrics. -/
theorem map_metricId_filter {formula : List Char} {tokens : List MetricToken}
    {uses : List TokenUse}
    (h : List.Forall₂ (fun token use => use.Describes formula token) tokens uses) :
    (tokens.filter (!·.isCalled formula)).map (·.metricId formula) =
      (uses.filter (!·.isCalled)).map (·.id) := by
  induction h with
  | nil => rfl
  | cons huse _ ih =>
    rw [List.filter_cons, List.filter_cons, huse.isCalled_eq]
    split
    · rw [List.map_cons, List.map_cons, ih, MetricToken.metricId_eq huse.isIdentifier huse.text_eq]
    · exact ih

/-- Leaving out elements leaves out nothing only if there are none to leave out. -/
theorem map_filter_eq_map_iff {α β : Type} {p : α → Bool} {f : α → β} {elements : List α} :
    (elements.filter p).map f = elements.map f ↔ ∀ x ∈ elements, p x := by
  rw [← List.filter_eq_self]
  refine ⟨fun heq => ?_, congrArg (List.map f)⟩
  have hlength := congrArg List.length heq
  rw [List.length_map, List.length_map] at hlength
  exact List.filter_sublist.eq_of_length hlength

/-- Every token is used in some way. -/
theorem exists_describes {formula : List Char} {tokens : List MetricToken} {uses : List TokenUse}
    (h : List.Forall₂ (fun token use => use.Describes formula token) tokens uses) :
    ∀ token ∈ tokens, ∃ use ∈ uses, use.Describes formula token := by
  induction h with
  | nil => exact List.forall_mem_nil _
  | cons huse _ ih =>
    refine List.forall_mem_cons.2 ⟨⟨_, List.mem_cons_self, huse⟩, fun token htoken => ?_⟩
    obtain ⟨use, hmem, huse⟩ := ih token htoken
    exact ⟨use, List.mem_cons_of_mem _ hmem, huse⟩

namespace Session

/-! ## Runs of edits -/

/-- The session after a run of edits, each of which may be refused. -/
def applyAll (session : Session) (edits : List Edit) : Session :=
  edits.foldl (fun session edit => (session.apply edit).2) session

/-- An edit of a session is carried out or refused by its editor. -/
theorem apply_fst (session : Session) (edit : Edit) :
    (session.apply edit).1 = (session.editor.apply edit).1 := by
  unfold Session.apply
  rcases session.editor.apply edit with ⟨outcome, edited⟩
  dsimp only
  split <;> rfl

/-- The editor of a session carries out the edits of the session, whose policy stays. -/
theorem apply_editor_policy (session : Session) (edit : Edit) :
    (session.apply edit).2.editor = (session.editor.apply edit).2 ∧
      (session.apply edit).2.policy = session.policy := by
  unfold Session.apply
  rcases session.editor.apply edit with ⟨outcome, edited⟩
  dsimp only
  split <;> exact ⟨rfl, rfl⟩

/-- A session whose formula is written by edits alone. -/
structure IsWritten (session : Session) (policy : UnknownFunctions) : Prop where
  /-- The session is one that is edited. -/
  reachable : session.Reachable
  /-- Its policy. -/
  policy_eq : session.policy = policy
  /-- The stored tokens are those of the text. -/
  isScanned : session.editor.IsScanned
  /-- The text is made of pieces. -/
  isComposed : ∃ pieces, session.editor.IsComposed pieces

theorem isWritten_empty (options : EditorOptions) (policy : UnknownFunctions) :
    (empty options policy).IsWritten policy :=
  ⟨.empty options policy, rfl, rfl, [], List.forall_mem_nil _, rfl⟩

/-- An edit leaves a formula that is written by edits, whether it is refused or not. -/
theorem IsWritten.apply {session : Session} {policy : UnknownFunctions}
    (h : session.IsWritten policy) (edit : Edit) : (session.apply edit).2.IsWritten policy := by
  obtain ⟨heditor, hpolicy⟩ := session.apply_editor_policy edit
  obtain ⟨pieces, hpieces⟩ := h.isComposed
  refine ⟨.apply edit h.reachable, hpolicy.trans h.policy_eq, heditor ▸ h.isScanned.apply edit,
    heditor ▸ ?_⟩
  unfold Editor.apply
  split
  next edited hrun => exact hpieces.run h.isScanned hrun
  next => exact ⟨pieces, hpieces⟩

/-- So does every run of edits. -/
theorem IsWritten.applyAll {session : Session} {policy : UnknownFunctions}
    (h : session.IsWritten policy) (edits : List Edit) :
    (session.applyAll edits).IsWritten policy := by
  induction edits generalizing session with
  | nil => exact h
  | cons edit edits ih => exact ih (h.apply edit)

/-! ## Metrics -/

/-- In a session that starts without a formula and refuses unknown functions, every token is written
as it was inserted, and only tokens of bare metrics that are named like an aggregate function are
called. When there is a calculation, its metrics are those of the tokens that are not called, in
their order, so they are those of all tokens exactly if none is called. -/
theorem metricIds_of_applyAll (options : EditorOptions) (edits : List Edit) {t : Calculation} :
    let session := (empty options .reject).applyAll edits
    let tokens := session.editor.tokens
    let metricId := fun token : MetricToken => token.metricId session.formula
    let isCalled := fun token : MetricToken => token.isCalled session.formula
    session.calculation? = some t →
      (∀ token ∈ tokens, Text.isIdentifier (metricId token).toList ∧
        ∃ aggregate,
          token.text session.formula = tokenText (Editor.tokenContent (metricId token) aggregate) ∧
          (isCalled token → aggregate = none ∧ (Aggregate.ofFunction? (metricId token)).isSome)) ∧
      t.metricIds = (tokens.filter (!isCalled ·)).map metricId ∧
      (t.metricIds = tokens.map metricId ↔ ∀ token ∈ tokens, isCalled token = false) := by
  intro session tokens metricId isCalled hcalculation
  have hwritten : session.IsWritten .reject := (isWritten_empty options .reject).applyAll edits
  obtain ⟨pieces, hallowed, htext⟩ := hwritten.isComposed
  obtain ⟨e, hparse, hbuild⟩ :=
    hwritten.reachable.isCurrent.calculation?_eq_some_iff.1 hcalculation
  rw [hwritten.policy_eq] at hbuild
  have hformula : session.formula = Piece.textOf pieces := htext
  rw [hformula] at hparse
  obtain ⟨hmetrics, hcalled⟩ :=
    Piece.metricIds_of_parse hallowed hparse (Calculation.means_of_ofExpression hbuild (.inl rfl))
  -- Token by token, the pieces say what the scan finds in the text.
  have hdescribes : List.Forall₂ (fun token use => use.Describes session.formula token) tokens
      (Piece.tokenUses pieces) := by
    have htokens : tokens = scan (Piece.textOf pieces) := htext ▸ hwritten.isScanned
    rw [htokens, hformula]
    exact Piece.forall₂_describes hallowed
  rw [← map_metricId_filter hdescribes] at hmetrics
  refine ⟨fun token htoken => ?_, hmetrics, ?_⟩
  · obtain ⟨use, huse, hdescribed⟩ := exists_describes hdescribes token htoken
    have hid : metricId token = use.id :=
      MetricToken.metricId_eq hdescribed.isIdentifier hdescribed.text_eq
    rw [hid]
    refine ⟨hdescribed.isIdentifier, use.aggregate, hdescribed.text_eq, fun hopening => ?_⟩
    exact hcalled use huse (hdescribed.isCalled_eq.symm.trans hopening)
  · rw [hmetrics, map_filter_eq_map_iff]
    simp only [Bool.not_eq_true']
    exact Iff.rfl

/-- A quotient that is edited has the metrics of all its tokens, although one of them is named like
an aggregate function. -/
theorem metricIds_of_applyAll_quotient :
    let edits := [.insertMetric none "Sum" none, .insertChar none '/', .insertChar none '(',
      .insertMetric none "b" (some .count), .insertChar none '-', .insertChar none '1',
      .insertChar none ')']
    let session := (empty {} .reject).applyAll edits
    let t := Calculation.arithmetic .divide (.metric "Sum")
      (.arithmetic .subtract (.aggregate .count "b") (.constant (.ofInt 1)))
    session.calculation? = some t ∧
      t.metricIds = session.editor.tokens.map (·.metricId session.formula) := by
  intro edits session t
  have hcalculation : session.calculation? = some t := by decide +kernel
  have hcalled : ∀ token ∈ session.editor.tokens, token.isCalled session.formula = false := by
    decide +kernel
  exact ⟨hcalculation, (metricIds_of_applyAll {} edits hcalculation).2.2.2 hcalled⟩

/-- A metric named like an aggregate function is lost when a parenthesis is typed behind it: it is
read as the function, and the calculation has one metric where the formula has two tokens. -/
theorem metricIds_of_called_token :
    let edits := [.insertMetric none "Sum" none, .insertChar none '(', .insertMetric none "a" none,
      .insertChar none ')']
    let session := (empty {} .reject).applyAll edits
    session.calculation? = some (.aggregate .sum "a") ∧
      session.editor.tokens.map (·.metricId session.formula) = ["Sum", "a"] := by
  decide +kernel

end Session

end MetricFormula
