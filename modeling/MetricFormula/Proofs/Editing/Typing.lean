import MetricFormula.Proofs.Calculation.Grouping
import MetricFormula.Proofs.Editing.WrittenText

/-!
# Typing a formula from left to right

A formula is mostly written without looking back: a metric, a sign, a metric, and so on, each at the
cursor. None of these edits is refused. The cursor is always at the end of the text, where no brace
is open and, after a metric, no operator stands, whatever blanks the editor puts around the tokens.
The words of the text are those of the metrics and signs, so the formula means their only grouping
without parentheses.

## Main definitions

* `InsertedMetric`: a metric whose token can be inserted;
* `TypedFormula`: metrics with operations between them;
* `Editor.EndsWith`: the cursor is behind a text with given words;
* `Editor.runAll`, `Session.outcomes`: runs of edits.

## Main results

* `Editor.EndsWith.insertMetric`, `Editor.EndsWith.insertSign`: one more metric or sign;
* `TypedFormula.exists_runAll_edits`: all edits of a typed formula are carried out;
* `TypedFormula.means_ofLexemes`: what the words of a typed formula mean;
* `Session.calculation?_of_typed`: what a session shows after a formula is typed.
-/

namespace MetricFormula

open MetricToken

/-! ## Typed formulas -/

/-- A metric that is inserted, alone or with an aggregate. -/
structure InsertedMetric where
  /-- The metric. -/
  id : String
  /-- The aggregate, if there is one. -/
  aggregate : Option Aggregate
  /-- The metric is an identifier. -/
  isIdentifier : Text.isIdentifier id.toList

namespace InsertedMetric

/-- The edit that inserts the metric at the cursor. -/
def edit (metric : InsertedMetric) : Edit :=
  .insertMetric none metric.id metric.aggregate

/-- The number of words of the token. -/
def wordCount (metric : InsertedMetric) : Nat :=
  match metric.aggregate with
  | none => 1
  | some _ => 4

/-- What the token means. -/
def calculation (metric : InsertedMetric) : Calculation :=
  match metric.aggregate with
  | none => .metric metric.id
  | some kind => .aggregate kind metric.id

/-- The token, with nothing behind it. -/
def use (metric : InsertedMetric) : TokenUse :=
  ⟨metric.id, metric.aggregate, false⟩

/-- The expression of the token. -/
def expression (metric : InsertedMetric) : Expression :=
  match metric.aggregate with
  | none => .name metric.id
  | some kind => .call kind.function [.name metric.id]

/-- A token of a metric is one word, and that of an aggregate function is a call of four. -/
theorem length_words (metric : InsertedMetric) : metric.use.words.length = metric.wordCount := by
  obtain ⟨id, _ | kind, hid⟩ := metric <;> rfl

/-- The words of a token mean the metric or the aggregate that was inserted. -/
theorem means (metric : InsertedMetric) : metric.expression.Means metric.calculation := by
  obtain ⟨id, _ | kind, hid⟩ := metric
  · exact .name id
  · have hkind : Aggregate.ofFunction? kind.function = some kind := by cases kind <;> decide
    exact .aggregate hkind id

theorem metricIds_calculation_ne_nil (metric : InsertedMetric) :
    metric.calculation.metricIds ≠ [] := by
  obtain ⟨id, _ | kind, hid⟩ := metric <;> exact List.cons_ne_nil _ _

/-- A token is an operand with at most one level of nesting inside. -/
theorem exists_operand (metric : InsertedMetric) :
    ∃ operand : Grammar.Operand 2, Grammar.Operand.words 2 operand = metric.use.words ∧
      Grammar.Operand.expression 2 operand = metric.expression := by
  obtain ⟨id, _ | kind, hid⟩ := metric
  · exact ⟨Grammar.OperandForm.name id, rfl, rfl⟩
  · let argument : Grammar.Operand 1 := Grammar.OperandForm.name id
    exact ⟨Grammar.OperandForm.call kind.function [⟨⟨argument, []⟩, []⟩], rfl, rfl⟩

end InsertedMetric

/-- Metrics with operations between them: a first metric and any number of others, each with the
operation in front of it. -/
structure TypedFormula where
  /-- The first metric. -/
  first : InsertedMetric
  /-- The other metrics with their operations. -/
  others : List (Arithmetic × InsertedMetric)

namespace TypedFormula

/-- The edits that insert the metrics and type the signs, each at the cursor. -/
def edits (typed : TypedFormula) : List Edit :=
  typed.first.edit ::
    typed.others.flatMap fun other => [.insertChar none other.1.sign, other.2.edit]

/-- The number of words of the tokens and signs. -/
def wordCount (typed : TypedFormula) : Nat :=
  typed.others.foldr (fun other count => 1 + other.2.wordCount + count) typed.first.wordCount

/-- The words of the tokens and signs. -/
def words (typed : TypedFormula) : List Lexeme :=
  typed.first.use.words ++ typed.others.flatMap fun other => other.1.lexeme :: other.2.use.words

/-- The metrics grouped to the one sum of products with the operations between them, and the
operations applied from left to right. -/
def calculation (typed : TypedFormula) : Calculation :=
  (Grammar.group typed.first typed.others).calculation InsertedMetric.calculation

theorem length_words (typed : TypedFormula) : typed.words.length = typed.wordCount := by
  have hothers : ∀ (others : List (Arithmetic × InsertedMetric)) (count : Nat),
      count + (others.flatMap fun other => other.1.lexeme :: other.2.use.words).length =
        others.foldr (fun other count => 1 + other.2.wordCount + count) count := by
    intro others count
    induction others with
    | nil => rfl
    | cons other others ih =>
      rw [List.foldr_cons, ← ih, List.flatMap_cons, List.length_append, List.length_cons,
        other.2.length_words]
      omega
  rw [words, List.length_append, typed.first.length_words]
  exact hothers typed.others typed.first.wordCount

theorem metricIds_calculation_ne_nil (typed : TypedFormula) :
    typed.calculation.metricIds ≠ [] := by
  rw [calculation, Grammar.Sum.calculation, Grammar.Chain.metricIds_calculation,
    Grammar.Chain.metricIds_calculation]
  exact List.append_ne_nil_of_left_ne_nil
    (List.append_ne_nil_of_left_ne_nil (InsertedMetric.metricIds_calculation_ne_nil _) _) _

/-- The words of a typed formula are derived from a sum of products of operands. -/
theorem exists_derivation (typed : TypedFormula) :
    ∃ tree : Grammar.Sum (Grammar.Operand 2),
      Grammar.Sum.words (Grammar.Operand.words 2) tree = typed.words ∧
      Grammar.Sum.expression (Grammar.Operand.expression 2) tree =
        (Grammar.group typed.first typed.others).expression InsertedMetric.expression := by
  have hcopied : Grammar.Copied (fun metric : InsertedMetric => metric.use.words)
      InsertedMetric.expression (fun _ => []) (Grammar.Operand.words 2)
      (Grammar.Operand.expression 2) 2 :=
    fun metric _ => metric.exists_operand
  obtain ⟨tree, hwords, hexpression⟩ := hcopied.chain.chain
    (Grammar.group typed.first typed.others)
    (Grammar.Chain.forall_nestings (Grammar.Chain.forall_nestings fun _ _ => nofun) _)
  refine ⟨tree, hwords.trans ?_, hexpression⟩
  have heq := (Grammar.group typed.first typed.others).words_eq fun metric => metric.use.words
  rwa [Grammar.flatten_group] at heq

/-- A typed formula nests at most one level deep, so only the number of its words is limited. -/
theorem isWithinLimits (typed : TypedFormula) (hcount : typed.wordCount ≤ lexemeLimit) :
    Lexeme.IsWithinLimits typed.words := by
  obtain ⟨tree, hwords, -⟩ := typed.exists_derivation
  refine ⟨typed.length_words ▸ hcount, fun n hn => ?_⟩
  rw [← hwords, Grammar.nestings_words] at hn
  have hbounds := Grammar.Chain.forall_nestings
    (Grammar.Chain.forall_nestings (Grammar.nestings_operand_bounds 2 0)) tree n hn
  rw [nestingLimit]
  omega

/-- Up to the limit, the words of a typed formula make an expression that means its calculation. -/
theorem means_ofLexemes (typed : TypedFormula) (hcount : typed.wordCount ≤ lexemeLimit) :
    ∃ e, Expression.ofLexemes typed.words = .ok e ∧ e.Means typed.calculation := by
  obtain ⟨tree, hwords, hexpression⟩ := typed.exists_derivation
  have hlimits := typed.isWithinLimits hcount
  rw [← hwords] at hlimits ⊢
  refine ⟨_, (Expression.ofLexemes_of_derivation tree).1 hlimits, ?_⟩
  rw [hexpression]
  exact Grammar.Sum.means InsertedMetric.means _

end TypedFormula

/-! ## Typing at the end -/

theorem Lexeme.scan_append_sign {text : List Char} {words : List Lexeme}
    (h : scan text = .ok words) (op : Arithmetic) :
    scan (text ++ [op.sign]) = .ok (words ++ [op.lexeme]) := by
  have hsign : separator? op.sign = some [op.lexeme] := by cases op <;> decide
  have hnothing : scan [] = .ok [] := rfl
  rw [scan_separator_ok hsign h hnothing, List.append_nil]

namespace Editor

variable {editor : Editor} {words : List Lexeme}

/-- The text has the words, and something may be put in behind it at the cursor. -/
structure EndsWith (editor : Editor) (words : List Lexeme) : Prop where
  /-- The stored tokens are those of the text. -/
  isScanned : editor.IsScanned
  /-- The cursor is at the end. -/
  cursor_eq : editor.cursor = editor.text.length
  /-- No brace is open there. -/
  openAfter_eq : openAfter 0 none editor.text = none
  /-- The words of the text. -/
  scan_eq : Lexeme.scan (editor.text.filter (!isBrace ·)) = .ok words

/-- The text ends with an operator. -/
def endsWithOperator (editor : Editor) : Bool :=
  editor.text.getLast?.any isOperatorChar

theorem endsWith_empty (options : EditorOptions) : (empty options).EndsWith [] :=
  ⟨rfl, rfl, rfl, rfl⟩

/-- Behind a text that does not end with an operator, a sign can be typed. -/
theorem EndsWith.insertSign (h : editor.EndsWith words) (hlast : editor.endsWithOperator = false)
    (op : Arithmetic) :
    ∃ edited, editor.run (.insertChar none op.sign) = .ok edited ∧
      edited.EndsWith (words ++ [op.lexeme]) := by
  have hcheck : editor.checkPosition editor.text.length = .ok () :=
    (checkPosition_eq_ok_iff_isStop h.isScanned).2 (isStop_length editor.text)
  have hallowed : editor.options.allows op.sign := by cases op <;> rfl
  have hoperator : editor.hasOperatorAt editor.text.length = false := by
    have hoperators := hasOperatorAt_append (List.append_nil editor.text).symm
    rw [hoperators, ← endsWithOperator, hlast]
    rfl
  have htext : insertAt editor.text editor.text.length [op.sign] = editor.text ++ [op.sign] := by
    simp [insertAt]
  refine ⟨editor.withText (editor.text ++ [op.sign]) (editor.text.length + 1), ?_,
    ⟨rfl, ?_, ?_, ?_⟩⟩
  · show editor.insertChar editor.cursor op.sign = _
    rw [h.cursor_eq, ← htext]
    exact insertChar_eq_ok_iff.2 ⟨hcheck, hallowed, by rw [hoperator, Bool.and_false], rfl⟩
  · rw [withText_text, List.length_append]
    rfl
  · have hopening : openingBrace ∉ [op.sign] := by cases op <;> decide
    rw [withText_text, openAfter_append, h.openAfter_eq, openAfter_none hopening]
  · have hsign : [op.sign].filter (!isBrace ·) = [op.sign] := by cases op <;> rfl
    rw [withText_text, List.filter_append, hsign]
    exact Lexeme.scan_append_sign h.scan_eq op

/-- Without its braces, what is put in for a token is the content of the token between blanks. -/
theorem exists_filter_paddedToken {id : String} (hid : Text.isIdentifier id.toList)
    (aggregate : Option Aggregate) (editor : Editor) (position : Nat) :
    ∃ before after, (∀ c ∈ before, Text.isBlank c) ∧ (∀ c ∈ after, Text.isBlank c) ∧
      (editor.paddedToken position (tokenContent id aggregate)).filter (!isBrace ·) =
        before ++ ' ' :: (tokenContent id aggregate ++ ' ' :: after) := by
  obtain ⟨hbefore, hafter⟩ := padding_eq editor position
  have hblank : ∀ padding : List Char, padding = [] ∨ padding = [' '] →
      (∀ c ∈ padding, Text.isBlank c) ∧ padding.filter (!isBrace ·) = padding := by
    rintro _ (rfl | rfl)
    · exact ⟨List.forall_mem_nil _, rfl⟩
    · exact ⟨List.forall_mem_singleton.2 rfl, rfl⟩
  refine ⟨_, _, (hblank _ hbefore).1, (hblank _ hafter).1, ?_⟩
  rw [paddedToken, List.filter_append, List.filter_append, (hblank _ hbefore).2,
    (hblank _ hafter).2,
    Calculation.filter_tokenText (isBrace_of_mem_tokenContent hid aggregate)]
  simp

/-- Behind a text, the words of what is put in for a token are those of the token. -/
theorem scan_append_paddedToken {text : List Char} (h : Lexeme.scan text = .ok words)
    (metric : InsertedMetric) (editor : Editor) (position : Nat) :
    Lexeme.scan (text ++ (editor.paddedToken position
      (tokenContent metric.id metric.aggregate)).filter (!isBrace ·)) =
        .ok (words ++ metric.use.words) := by
  obtain ⟨before, after, hbefore, hafter, hfilter⟩ :=
    editor.exists_filter_paddedToken metric.isIdentifier metric.aggregate position
  have hblank : Lexeme.separator? ' ' = some [] := by decide
  have hspace : Text.isBlank ' ' := by decide
  have hfirst := Lexeme.scan_append_blanks hbefore text
  rw [h] at hfirst
  have hcontent := Piece.scan_tokenContent metric.use metric.isIdentifier
  have hrest := Lexeme.scan_append_blanks (List.forall_mem_cons.2 ⟨hspace, hafter⟩)
    (tokenContent metric.id metric.aggregate)
  rw [hfilter, ← List.append_assoc, Lexeme.scan_separator_ok hblank hfirst (hrest.trans hcontent),
    List.append_nil]

/-- What is put in for a token does not end with an operator. -/
theorem getLast?_append_paddedToken (text : List Char) (editor : Editor) (position : Nat)
    (content : List Char) :
    (text ++ editor.paddedToken position content).getLast?.any isOperatorChar = false := by
  obtain ⟨-, hafter⟩ := padding_eq editor position
  -- The last character is the closing brace or the blank behind it.
  obtain ⟨front, c, heq, hc⟩ : ∃ front c, editor.paddedToken position content = front ++ [c] ∧
      isOperatorChar c = false := by
    rcases hafter with hafter | hafter
    · exact ⟨editor.paddingBefore position ++ openingBrace :: ' ' :: content ++ [' '],
        closingBrace, by simp [paddedToken, tokenText, hafter], rfl⟩
    · exact ⟨editor.paddingBefore position ++ tokenText content, ' ',
        by rw [paddedToken, hafter], rfl⟩
  rw [heq, ← List.append_assoc, List.getLast?_concat, Option.any_some, hc]

/-- Behind any text that leaves no brace open, a metric can be inserted. -/
theorem EndsWith.insertMetric (h : editor.EndsWith words) (metric : InsertedMetric) :
    ∃ edited, editor.run metric.edit = .ok edited ∧
      edited.EndsWith (words ++ metric.use.words) ∧ edited.endsWithOperator = false := by
  have hcontent := notMem_tokenContent metric.isIdentifier metric.aggregate
  have hinsert := (insertToken_eq_ok_iff h.isScanned hcontent
    (List.append_nil editor.text).symm).2 ⟨h.openAfter_eq, rfl⟩
  rw [List.append_nil] at hinsert
  let inserted := editor.paddedToken editor.text.length (tokenContent metric.id metric.aggregate)
  refine ⟨editor.withText (editor.text ++ inserted) (editor.text.length + inserted.length), ?_,
    ⟨rfl, ?_, ?_, ?_⟩, ?_⟩
  · show editor.insertMetric editor.cursor metric.id metric.aggregate = _
    rw [h.cursor_eq]
    exact insertMetric_eq_ok_iff.2 ⟨metric.isIdentifier, hinsert⟩
  · exact List.length_append.symm
  · rw [withText_text, openAfter_append, h.openAfter_eq, openAfter_paddedToken hcontent]
  · rw [withText_text, List.filter_append]
    exact editor.scan_append_paddedToken h.scan_eq metric _
  · exact editor.getLast?_append_paddedToken editor.text _ _

end Editor

/-! ## Runs of edits -/

namespace Editor

/-- Carry out a run of edits, none of which may be refused. -/
def runAll (editor : Editor) (edits : List Edit) : Except Refusal Editor :=
  edits.foldlM run editor

/-- The first of several edits is run first. -/
theorem runAll_cons {editor edited : Editor} {edit : Edit} (h : editor.run edit = .ok edited)
    (edits : List Edit) : editor.runAll (edit :: edits) = edited.runAll edits := by
  rw [runAll, List.foldlM_cons, h]
  rfl

/-- Several edits are run one part after the other. -/
theorem runAll_append {editor edited : Editor} {edits : List Edit}
    (h : editor.runAll edits = .ok edited) (others : List Edit) :
    editor.runAll (edits ++ others) = edited.runAll others := by
  rw [runAll, List.foldlM_append, ← runAll, h]
  rfl

end Editor

namespace TypedFormula

/-- Signs and metrics can be typed behind a text that does not end with an operator. -/
theorem exists_runAll_others {editor : Editor} {words : List Lexeme} (h : editor.EndsWith words)
    (hlast : editor.endsWithOperator = false) (others : List (Arithmetic × InsertedMetric)) :
    ∃ edited, editor.runAll (others.flatMap fun other =>
        [.insertChar none other.1.sign, other.2.edit]) = .ok edited ∧
      edited.EndsWith
        (words ++ others.flatMap fun other => other.1.lexeme :: other.2.use.words) := by
  induction others generalizing editor words with
  | nil =>
    refine ⟨editor, rfl, ?_⟩
    rwa [List.flatMap_nil, List.append_nil]
  | cons other others ih =>
    obtain ⟨op, metric⟩ := other
    -- The sign is typed, the metric is inserted behind it, and the others follow.
    obtain ⟨signed, hsign, hsigned⟩ := h.insertSign hlast op
    obtain ⟨edited, hmetric, hedited, hlast⟩ := hsigned.insertMetric metric
    obtain ⟨last, hothers, hends⟩ := ih hedited hlast
    refine ⟨last, ?_, by simpa using hends⟩
    rw [List.flatMap_cons, List.cons_append, List.cons_append, List.nil_append,
      Editor.runAll_cons hsign, Editor.runAll_cons hmetric]
    exact hothers

/-- All edits of a typed formula are carried out in an editor without text, and leave its words. -/
theorem exists_runAll_edits (typed : TypedFormula) (options : EditorOptions) :
    ∃ edited, (Editor.empty options).runAll typed.edits = .ok edited ∧
      edited.EndsWith typed.words := by
  obtain ⟨editor, hfirst, hends, hlast⟩ :=
    (Editor.endsWith_empty options).insertMetric typed.first
  obtain ⟨edited, hothers, hends⟩ := exists_runAll_others hends hlast typed.others
  refine ⟨edited, ?_, hends⟩
  rw [edits, Editor.runAll_cons hfirst]
  exact hothers

end TypedFormula

namespace Session

/-- What comes of each edit of a run. -/
def outcomes (session : Session) : List Edit → List Outcome
  | [] => []
  | edit :: edits => (session.apply edit).1 :: outcomes (session.apply edit).2 edits

/-- An edit of a session is carried out if its editor carries it out. -/
theorem apply_of_run {session : Session} {edit : Edit} {edited : Editor}
    (h : session.editor.run edit = .ok edited) :
    (session.apply edit).1 = .applied ∧ (session.apply edit).2.editor = edited := by
  have happly : session.editor.apply edit = (.applied, edited) := by rw [Editor.apply, h]
  exact ⟨(session.apply_fst edit).trans (congrArg Prod.fst happly),
    (session.apply_editor_policy edit).1.trans (congrArg Prod.snd happly)⟩

/-- So is each edit of a run, and the session ends with the editor that the run leads to. -/
theorem outcomes_of_runAll (session : Session) {edits : List Edit} {edited : Editor}
    (h : session.editor.runAll edits = .ok edited) :
    (∀ outcome ∈ session.outcomes edits, outcome = .applied) ∧
      (session.applyAll edits).editor = edited := by
  induction edits generalizing session with
  | nil => exact ⟨List.forall_mem_nil _, Except.ok.inj h⟩
  | cons edit edits ih =>
    obtain ⟨next, hrun, hrest⟩ := bind_eq_ok h
    obtain ⟨happlied, heditor⟩ := apply_of_run hrun
    obtain ⟨houtcomes, hlast⟩ := ih (session.apply edit).2 (by rwa [heditor])
    exact ⟨List.forall_mem_cons.2 ⟨happlied, houtcomes⟩, hlast⟩

/-- The braces of a formula that is written by edits alone are balanced. -/
theorem IsWritten.openCount?_formula {session : Session} {policy : UnknownFunctions}
    (h : session.IsWritten policy) :
    openCount? openingBrace closingBrace 0 session.formula = some 0 := by
  obtain ⟨pieces, hallowed, htext⟩ := h.isComposed
  rw [formula, htext]
  exact Piece.openCount?_textOf hallowed 0

/-- When metrics and signs are typed alternately into a session without a formula, with any choices
of the host, no edit is refused. If there are not too many words, the session shows the metrics
grouped to sums of products, with the operations applied from left to right, and the formula is
valid. Otherwise the formula is refused for the number of its words. -/
theorem calculation?_of_typed (options : EditorOptions) (policy : UnknownFunctions)
    (typed : TypedFormula) :
    let session := (empty options policy).applyAll typed.edits
    (∀ outcome ∈ (empty options policy).outcomes typed.edits, outcome = .applied) ∧
      (typed.wordCount ≤ lexemeLimit →
        session.calculation? = some typed.calculation ∧ session.validate = .ok ()) ∧
      (lexemeLimit < typed.wordCount →
        session.parsed = .error (.syntactic (.tooLong typed.wordCount))) := by
  intro session
  obtain ⟨edited, hrun, hends⟩ := typed.exists_runAll_edits options
  obtain ⟨houtcomes, heditor⟩ := outcomes_of_runAll (empty options policy) hrun
  have hwritten : session.IsWritten policy := (isWritten_empty options policy).applyAll typed.edits
  have hcurrent := hwritten.reachable.isCurrent
  -- The text has the words of the typed formula.
  have hscan : Lexeme.scan (Formula.withoutBraces session.formula) = .ok typed.words := by
    rw [Lexeme.scan_withoutBraces, formula, heditor]
    exact hends.scan_eq
  have hne : typed.words ≠ [] := by
    obtain ⟨⟨id, _ | kind, hid⟩, others⟩ := typed <;> exact List.cons_ne_nil _ _
  have hparse := Formula.parse_eq_of_scan hscan hne
  refine ⟨houtcomes, fun hcount => ?_, fun hcount => ?_⟩
  · obtain ⟨e, hwords, hmeans⟩ := typed.means_ofLexemes hcount
    rw [hwords] at hparse
    refine ⟨hcurrent.calculation?_eq_some_iff.2 ⟨e, hparse, hmeans.ofExpression_eq _⟩, ?_⟩
    -- Validation counts the braces, and looks for a metric.
    have hnames : e.names ≠ [] := hmeans.metricIds_eq ▸ typed.metricIds_calculation_ne_nil
    exact Formula.validate_eq_ok_iff.2 ⟨typed.calculation, Formula.compile_eq_ok_iff_braces.2
      ⟨hwritten.openCount?_formula, e, hparse, hnames, hmeans.ofExpression_eq _⟩⟩
  · rw [← typed.length_words] at hcount ⊢
    rw [hcurrent.parsed_eq, hparse, Expression.ofLexemes_of_lexemeLimit_lt hcount]
    rfl

/-- A product is grouped before the differences around it, and these from the left. A sum of a
metric 513 times has one word too many. -/
theorem calculation?_of_typed_differences :
    let typed : TypedFormula := ⟨⟨"a", none, by decide⟩, [(.subtract, ⟨"b", some .sum, by decide⟩),
      (.multiply, ⟨"c", none, by decide⟩), (.subtract, ⟨"d", some .average, by decide⟩)]⟩
    let session := (empty {} .reject).applyAll typed.edits
    let product := Calculation.arithmetic .multiply (.aggregate .sum "b") (.metric "c")
    let metric : InsertedMetric := ⟨"a", none, by decide⟩
    let long : TypedFormula := ⟨metric, List.replicate 512 (.add, metric)⟩
    (typed.wordCount = 13 ∧ session.validate = .ok () ∧ session.calculation? =
      some (.arithmetic .subtract (.arithmetic .subtract (.metric "a") product)
        (.aggregate .average "d"))) ∧
      long.wordCount = 1025 ∧ ((empty {} .reject).applyAll long.edits).parsed =
        .error (.syntactic (.tooLong 1025)) := by
  intro typed session product metric long
  have hcount : typed.wordCount = 13 := rfl
  have hlimit : typed.wordCount ≤ lexemeLimit := by decide
  obtain ⟨-, hwithin, -⟩ := calculation?_of_typed {} .reject typed
  obtain ⟨hcalculation, hvalid⟩ := hwithin hlimit
  have hlong : long.wordCount = 1025 := by decide +kernel
  have hbeyond : lexemeLimit < long.wordCount := by rw [hlong]; decide
  obtain ⟨-, -, hrefused⟩ := calculation?_of_typed {} .reject long
  exact ⟨⟨hcount, hvalid, hcalculation⟩, hlong, hlong ▸ hrefused hbeyond⟩

end Session

end MetricFormula
