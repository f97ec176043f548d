import Mathlib.Logic.Relation
import MetricFormula.Proofs.Expression.Words
import MetricFormula.Proofs.Json.LineEnds
import MetricFormula.Settings

/-!
# Comments in settings

Comment lines may stand anywhere between the lines of settings, also in front of the first and
behind the last one, without a difference to what is read. Where there are none, nothing is lost: in
a JSON text, a line begins between two tokens, so its first character that is not blank is no slash,
and strings with slashes in them are safe. Only the line ends of such a text change.

## Main definitions

* `Settings.InsertsComment`: a comment line is put into a text;
* `Settings.hasSlashLine`: a line begins with a slash.

## Main results

* `Settings.parse?_of_insertsComment`: comment lines make no difference;
* `Settings.keptLines_of_parse?`: no line of a JSON text is a comment;
* `Settings.parse?_stripComments`: a JSON text without its comments holds the same document.
-/

namespace MetricFormula.Settings

open Json (Document Token StartsWith IsGapText IsPlain beginsToken)
open Text (EndsLine dropReturn)

/-! ## Kept lines -/

/-- The lines that are no comments. -/
def keptLines (text : List Char) : List (List Char) :=
  (Text.lines text).filter (!isComment ·)

variable {text before after line comment : List Char}

/-- The kept lines of a text are those of its parts, if a line begins behind the first part. -/
theorem keptLines_append (h : EndsLine before) :
    keptLines (before ++ after) = keptLines before ++ keptLines after := by
  rw [keptLines, Text.lines_append h, List.filter_append, keptLines, keptLines]

/-- A blank behind a line is no matter. -/
theorem isComment_append_blank (line : List Char) {c : Char} (hc : Text.isBlank c) :
    isComment (line ++ [c]) = isComment line := by
  have htrim : Text.trim (line ++ [c]) = Text.trim line := by
    rw [Text.trim, Text.trimStart, List.dropWhile_append]
    split
    next hempty =>
      rw [List.dropWhile_cons_of_pos hc, Text.trim, Text.trimStart, List.isEmpty_iff.1 hempty,
        List.dropWhile_nil]
    next =>
      rw [Text.trimEnd, List.reverse_append, List.reverse_singleton, List.singleton_append,
        List.dropWhile_cons_of_pos hc, Text.trim, Text.trimStart, Text.trimEnd]
  rw [isComment, htrim, isComment]

/-- The carriage return of a line end is no matter. -/
theorem isComment_dropReturn (line : List Char) :
    isComment (dropReturn '\r' line.reverse).reverse = isComment line := by
  rcases Text.reverse_eq_or '\r' line.reverse with heq | heq
  · rw [← heq, List.reverse_reverse]
  · rw [List.reverse_reverse] at heq
    conv => rhs; rw [heq]
    rw [isComment_append_blank _ (by decide)]

/-! ## Inserting comments -/

/-- The text is a line and a comment; a carriage return at its end belongs to the line end. -/
structure IsCommentLine (line : List Char) : Prop where
  /-- There is no line feed. -/
  not_mem : '\n' ∉ line
  /-- The line is a comment. -/
  isComment : isComment line

/-- The second text is the first one with one more line, which is a comment. -/
inductive InsertsComment : List Char → List Char → Prop
  /-- The comment stands in front of another line or behind the last line end. -/
  | above {before comment : List Char} (after : List Char) :
      EndsLine before → IsCommentLine comment →
      InsertsComment (before ++ after) (before ++ (comment ++ '\n' :: after))
  /-- The comment stands behind the last line end and has no line end. -/
  | last {text comment : List Char} :
      EndsLine text → IsCommentLine comment → InsertsComment text (text ++ comment)
  /-- The comment stands behind a line that has had no line end. -/
  | below {text lineEnd comment ending : List Char} :
      ¬EndsLine text → lineEnd ∈ [['\n'], ['\r', '\n']] → IsCommentLine comment →
      ending ∈ [[], ['\n']] → InsertsComment text (text ++ lineEnd ++ (comment ++ ending))

/-- A single line that is a comment is not kept. -/
theorem keptLines_eq_nil (hlines : Text.lines text = [line]) (h : isComment line) :
    keptLines text = [] := by
  rw [keptLines, hlines, List.filter_cons_of_neg (by rw [h]; decide), List.filter_nil]

/-- A single line that is no comment is kept. -/
theorem keptLines_eq_singleton (hlines : Text.lines text = [line]) (h : isComment line = false) :
    keptLines text = [line] := by
  rw [keptLines, hlines, List.filter_cons_of_pos (by rw [h]; decide), List.filter_nil]

/-- Nothing is kept of a comment line without its line end. -/
theorem IsCommentLine.keptLines_eq (h : IsCommentLine comment) : keptLines comment = [] := by
  have hne : comment ≠ [] := by
    rintro rfl
    exact absurd h.isComment (by decide)
  exact keptLines_eq_nil (Text.lines_singleton h.not_mem hne) h.isComment

/-- Nor is anything kept of it with a line feed. -/
theorem IsCommentLine.keptLines_append_lineFeed (h : IsCommentLine comment) :
    keptLines (comment ++ ['\n']) = [] :=
  keptLines_eq_nil (Text.lines_append_lineFeed h.not_mem)
    ((isComment_dropReturn comment).trans h.isComment)

/-- What stands at the end of the last line stands at the end of the lines that are joined. -/
theorem joinLines_append (all : List (List Char)) (line ending : List Char) :
    Text.joinLines (all ++ [line ++ ending]) = Text.joinLines (all ++ [line]) ++ ending := by
  induction all with
  | nil => rfl
  | cons first all ih =>
    cases all with
    | nil => simp [Text.joinLines]
    | cons next all =>
      simp only [List.cons_append, Text.joinLines] at ih ⊢
      rw [ih, List.append_assoc, List.cons_append]

/-- A line end behind the last line is no matter. -/
theorem parse?_append_lineEnd (h : ¬EndsLine text) {lineEnd : List Char}
    (hend : lineEnd ∈ [['\n'], ['\r', '\n']]) : parse? (text ++ lineEnd) = parse? text := by
  obtain ⟨before, line, rfl, hbefore, hline⟩ := Text.exists_last_line text
  have hne : line ≠ [] := by
    rintro rfl
    exact h (by rwa [List.append_nil])
  have hlines := Text.lines_singleton hline hne
  suffices hread : Document.parse? (stripComments (before ++ line ++ lineEnd)) =
      Document.parse? (stripComments (before ++ line)) by
    rw [parse?, hread, parse?]
  have hstrip : ∀ line, stripComments (before ++ line) =
      Text.joinLines (keptLines before ++ keptLines line) :=
    fun line => congrArg Text.joinLines (keptLines_append hbefore)
  rw [List.append_assoc, hstrip, hstrip]
  simp only [List.mem_cons, List.not_mem_nil, or_false] at hend
  rcases hend with rfl | rfl
  · -- The line loses a carriage return if there is one at its end.
    have hlinesEnd := Text.lines_append_lineFeed hline
    cases hcomment : isComment line with
    | true =>
      have hcommentEnd := (isComment_dropReturn line).trans hcomment
      rw [keptLines_eq_nil hlines hcomment, keptLines_eq_nil hlinesEnd hcommentEnd]
    | false =>
      have hcommentEnd := (isComment_dropReturn line).trans hcomment
      rw [keptLines_eq_singleton hlines hcomment, keptLines_eq_singleton hlinesEnd hcommentEnd]
      rcases Text.reverse_eq_or '\r' line.reverse with heq | heq
      · rw [← heq, List.reverse_reverse]
      · rw [List.reverse_reverse] at heq
        conv => rhs; rw [heq, joinLines_append]
        rw [Document.parse?_append_return]
  · -- The carriage return belongs to the line end.
    have hreturn : dropReturn '\r' (line ++ ['\r']).reverse = line.reverse := by
      rw [List.reverse_append, List.reverse_singleton, List.singleton_append, dropReturn,
        if_pos rfl]
    have hlinesEnd : Text.lines (line ++ ['\r', '\n']) = [line] := by
      have hlineReturn : '\n' ∉ line ++ ['\r'] := by simp [hline]
      have hfeed := Text.lines_append_lineFeed hlineReturn
      rwa [hreturn, List.reverse_reverse, List.append_assoc] at hfeed
    have hkept : keptLines (line ++ ['\r', '\n']) = keptLines line := by
      rw [keptLines, hlinesEnd, ← hlines, keptLines]
    rw [hkept]

/-- What is read depends on the kept lines alone. -/
theorem parse?_of_keptLines {text' : List Char} (h : keptLines text' = keptLines text) :
    parse? text' = parse? text :=
  congrArg (fun all => (Document.parse? (Text.joinLines all)).bind ofDocument?) h

/-- One comment line makes no difference. -/
theorem InsertsComment.parse?_eq {text' : List Char} (h : InsertsComment text text') :
    parse? text' = parse? text := by
  cases h with
  | @above before comment after hbefore hcomment =>
    apply parse?_of_keptLines
    have hline : EndsLine (comment ++ ['\n']) := Text.endsLine_append_lineFeed comment
    have hassoc : comment ++ '\n' :: after = comment ++ ['\n'] ++ after := by
      rw [List.append_assoc, List.singleton_append]
    rw [hassoc, keptLines_append hbefore, keptLines_append hline,
      hcomment.keptLines_append_lineFeed, List.nil_append, keptLines_append hbefore]
  | last hends hcomment =>
    apply parse?_of_keptLines
    rw [keptLines_append hends, hcomment.keptLines_eq, List.append_nil]
  | @below text lineEnd comment ending hends hlineEnd hcomment hending =>
    -- Behind the line end, the comment is one of the other cases.
    have hline : EndsLine (text ++ lineEnd) := by
      simp only [List.mem_cons, List.not_mem_nil, or_false] at hlineEnd
      rcases hlineEnd with rfl | rfl
      · exact Text.endsLine_append_lineFeed text
      · have hfeed := Text.endsLine_append_lineFeed (text ++ ['\r'])
        rwa [List.append_assoc] at hfeed
    rw [← parse?_append_lineEnd hends hlineEnd]
    apply parse?_of_keptLines
    rw [keptLines_append hline]
    simp only [List.mem_cons, List.not_mem_nil, or_false] at hending
    rcases hending with rfl | rfl
    · rw [List.append_nil, hcomment.keptLines_eq, List.append_nil]
    · rw [hcomment.keptLines_append_lineFeed, List.append_nil]

/-- Comment lines make no difference. -/
theorem parse?_of_insertsComment {text' : List Char}
    (h : Relation.ReflTransGen InsertsComment text text') : parse? text' = parse? text := by
  induction h with
  | refl => rfl
  | tail _ hinsert ih => rw [hinsert.parse?_eq, ih]

/-! ## Lines of JSON texts -/

/-- Some line begins with a slash behind blanks. On the first line, there is nothing but blanks in
front of the text if it is fresh. -/
def hasSlashLine (fresh : Bool) : List Char → Bool
  | [] => false
  | c :: text =>
    if c = '\n' then hasSlashLine true text
    else fresh && c == '/' || hasSlashLine (fresh && Text.isBlank c) text

/-- There is no slash in a gap, so it adds no such line. -/
theorem hasSlashLine_gap_append {gap : List Char} (hgap : IsGapText gap)
    (h : ∀ fresh, hasSlashLine fresh text = false) (fresh : Bool) :
    hasSlashLine fresh (gap ++ text) = false := by
  induction gap generalizing fresh with
  | nil => exact h fresh
  | cons c gap ih =>
    obtain ⟨hc, hgap⟩ := List.forall_mem_cons.1 hgap
    have hslash : (c == '/') = false := by
      rw [beq_eq_false_iff_ne]
      rintro rfl
      cases hc
    rw [List.cons_append, hasSlashLine, hslash, Bool.and_false, Bool.false_or]
    split
    next => exact ih hgap _
    next => exact ih hgap _

/-- Where a line has begun already, a slash is no matter. -/
theorem hasSlashLine_plain_append {part : List Char} (hpart : IsPlain part) (text : List Char) :
    hasSlashLine false (part ++ text) = hasSlashLine false text := by
  induction part with
  | nil => rfl
  | cons c part ih =>
    obtain ⟨hc, hpart⟩ := Json.isPlain_cons.1 hpart
    have hfeed : c ≠ '\n' := by
      rintro rfl
      exact absurd hc (by decide)
    rw [List.cons_append, hasSlashLine, if_neg hfeed, Bool.false_and, Bool.false_or, Bool.false_and,
      ih hpart]

/-- No token begins with a blank or with a slash. -/
theorem isBlank_of_beginsToken {c : Char} (h : beginsToken c) :
    Text.isBlank c = false ∧ c ≠ '/' := by
  rw [← Bool.not_eq_true', ← bne_iff_ne, ← Bool.and_eq_true]
  refine Json.beginsToken_induction (P := fun c => !Text.isBlank c && c != '/') (fun c hc => ?_)
    (by decide) h
  rw [Bool.and_eq_true, Bool.not_eq_true', bne_iff_ne]
  constructor
  · rw [Bool.eq_false_iff]
    intro hblank
    have hnumber := Text.isNumberPart_of_isBlank hblank
    rw [Lexeme.isNumberPart, hc] at hnumber
    cases hnumber
  · rintro rfl
    cases hc

/-- Behind a token, the line is no longer fresh. -/
theorem hasSlashLine_token_append {token : Token} {part : List Char} (h : token.IsText part)
    (fresh : Bool) (text : List Char) :
    hasSlashLine fresh (part ++ text) = hasSlashLine false text := by
  have hplain := h.isPlain
  obtain ⟨c, part, rfl, hc⟩ := h.exists_eq_cons
  obtain ⟨hblank, hslash⟩ := isBlank_of_beginsToken hc
  obtain ⟨hcontrol, hpart⟩ := Json.isPlain_cons.1 hplain
  have hfeed : c ≠ '\n' := by
    rintro rfl
    exact absurd hcontrol (by decide)
  rw [List.cons_append, hasSlashLine, if_neg hfeed, hblank, beq_eq_false_iff_ne.2 hslash,
    Bool.and_false, Bool.false_or, hasSlashLine_plain_append hpart]

/-- No line of a row of tokens begins with a slash. -/
theorem hasSlashLine_of_startsWith {tokens : List Token} {rest : List Char}
    (h : StartsWith tokens text rest) (hrest : IsGapText rest) (fresh : Bool) :
    hasSlashLine fresh text = false := by
  induction h generalizing fresh with
  | nil rest =>
    have hgap := hasSlashLine_gap_append hrest (fun _ => hasSlashLine.eq_1 _) fresh
    rwa [List.append_nil] at hgap
  | cons hgap htext _ _ ih =>
    refine hasSlashLine_gap_append hgap (fun fresh => ?_) fresh
    rw [hasSlashLine_token_append htext, ih hrest]

/-- Blanks at the beginning of a line hide no slash. -/
theorem hasSlashLine_blanks_append {blanks : List Char} (hblanks : ∀ c ∈ blanks, Text.isBlank c)
    (h : hasSlashLine true text) : hasSlashLine true (blanks ++ text) := by
  induction blanks with
  | nil => exact h
  | cons c blanks ih =>
    obtain ⟨hc, hblanks⟩ := List.forall_mem_cons.1 hblanks
    rw [List.cons_append, hasSlashLine, hc]
    split
    next => exact ih hblanks
    next => exact Bool.or_eq_true_iff.2 (.inr (ih hblanks))

/-- A comment begins with a slash. -/
theorem hasSlashLine_of_isComment (h : isComment line) (after : List Char) :
    hasSlashLine true (line ++ after) := by
  obtain ⟨tail, htail⟩ := List.isPrefixOf_iff_prefix.1 h
  obtain ⟨first, last, hfirst, -, heq⟩ := Text.exists_blanks_trim line
  rw [heq, ← htail]
  simp only [List.append_assoc, List.cons_append]
  exact hasSlashLine_blanks_append hfirst rfl

/-- A line that begins with a slash counts behind any line feed. -/
theorem hasSlashLine_append_lineFeed (fresh : Bool) (before : List Char)
    (h : hasSlashLine true after) : hasSlashLine fresh (before ++ '\n' :: after) := by
  induction before generalizing fresh with
  | nil => exact h
  | cons c before ih =>
    rw [List.cons_append, hasSlashLine]
    split
    next => exact ih true
    next => exact Bool.or_eq_true_iff.2 (.inr (ih _))

/-- So it does wherever a line begins. -/
theorem hasSlashLine_append (hbefore : EndsLine before) (h : hasSlashLine true after) :
    hasSlashLine true (before ++ after) := by
  rcases hbefore with rfl | ⟨before, rfl⟩
  · exact h
  · rw [List.append_assoc]
    exact hasSlashLine_append_lineFeed true before h

/-- No line of a JSON text is a comment. -/
theorem keptLines_of_parse? {document : Document} (h : Document.parse? text = some document) :
    keptLines text = Text.lines text := by
  obtain ⟨tokens, rest, -, hstart, hrest⟩ := Document.parse?_eq_some_iff.1 h
  refine List.filter_eq_self.2 fun line hline => ?_
  obtain ⟨before, after, rfl, hbefore⟩ := Text.exists_of_mem_lines hline
  have hslash := hasSlashLine_of_startsWith hstart hrest true
  cases hcomment : isComment line with
  | false => rfl
  | true =>
    rw [hasSlashLine_append hbefore (hasSlashLine_of_isComment hcomment after)] at hslash
    cases hslash

/-- A JSON text without its comments holds the same document. -/
theorem parse?_stripComments {document : Document} (h : Document.parse? text = some document) :
    Document.parse? (stripComments text) = some document := by
  have hkept : stripComments text = Text.joinLines (Text.lines text) :=
    congrArg Text.joinLines (keptLines_of_parse? h)
  rw [hkept]
  exact Document.parse?_of_dropsLineEnds h (.joinLines_lines text)

/-- Comment lines make no difference, wherever they stand. Without them, what is read from a text is
what it holds as a JSON text: none of its lines is dropped, and the document stays the same. -/
theorem comments_are_transparent :
    (∀ text text', Relation.ReflTransGen InsertsComment text text' → parse? text' = parse? text) ∧
    (∀ text document, Document.parse? text = some document →
      keptLines text = Text.lines text ∧
        Document.parse? (stripComments text) = some document) ∧
    ∀ text settings, (Document.parse? text).bind ofDocument? = some settings →
      parse? text = some settings := by
  refine ⟨fun text text' h => parse?_of_insertsComment h,
    fun text document h => ⟨keptLines_of_parse? h, parse?_stripComments h⟩,
    fun text settings h => ?_⟩
  obtain ⟨document, hdocument, hsettings⟩ := Option.bind_eq_some_iff.1 h
  rw [parse?, parse?_stripComments hdocument]
  exact hsettings

/-- Comments in front of settings, between their lines, which end in different ways, and behind
them. -/
theorem comments_are_transparent_around_path :
    parse? "// a\r\n\x7b\r\n  //b\n\"catalog.path\":\"//x\"\x7d\n//c".toList =
      some { catalogPath := some "//x" } := by
  obtain ⟨hinsert, -, hread⟩ := comments_are_transparent
  have hsettings := hread ("\x7b\r\n".toList ++ "\"catalog.path\":\"//x\"\x7d".toList)
    { catalogPath := some "//x" } (by decide +kernel)
  -- One comment after the other is inserted.
  have hbrace : EndsLine "\x7b\r\n".toList := .inr ⟨"\x7b\r".toList, by decide⟩
  have hbetween : IsCommentLine "  //b".toList := ⟨by decide, by decide⟩
  have hfront : IsCommentLine "// a\r".toList := ⟨by decide, by decide⟩
  have hbehind : IsCommentLine "//c".toList := ⟨by decide, by decide⟩
  have hfirst := InsertsComment.above "\"catalog.path\":\"//x\"\x7d".toList hbrace hbetween
  have hsecond := InsertsComment.above ("\x7b\r\n".toList ++
    ("  //b".toList ++ '\n' :: "\"catalog.path\":\"//x\"\x7d".toList)) (.inl rfl) hfront
  have hopen : ¬EndsLine ([] ++ ("// a\r".toList ++ '\n' :: ("\x7b\r\n".toList ++
      ("  //b".toList ++ '\n' :: "\"catalog.path\":\"//x\"\x7d".toList)))) := by
    rintro (h | ⟨before, h⟩)
    · exact absurd h (by decide)
    · have hlast := congrArg List.getLast? h
      rw [List.getLast?_concat] at hlast
      exact absurd hlast (by decide)
  have hthird := InsertsComment.below hopen List.mem_cons_self hbehind List.mem_cons_self
  have hall := hinsert _ _ (((Relation.ReflTransGen.single hfirst).tail hsecond).tail hthird)
  exact hall.trans hsettings

end MetricFormula.Settings
