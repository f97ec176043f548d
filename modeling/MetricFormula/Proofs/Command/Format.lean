import MetricFormula.Command.Run
import MetricFormula.Proofs.Calculation.Meaning
import MetricFormula.Proofs.Calculation.Wire
import MetricFormula.Proofs.Formula.Compiling
import MetricFormula.Proofs.Text.Lines

/-!
# Formatting what was built

The output of the command that builds a calculation is an input of the command that formats one. The
two do not have the same limits. A chain of operators nests nothing, so a formula may have hundreds
of them, while each makes the calculation one operation higher and its text two levels deeper, and
reading ends at 63 operations.

## Main results

* `Command.readArgument_printDocument`: a printed object is read from standard input as it was;
* `Command.runBuild_of_compile`: what is printed for a formula that compiles;
* `Command.runFormat_of_compile`: which formulas can be built and formatted again;
* `Command.runFormat_of_chain`: a formula of which the calculation that is built cannot be read.
-/

namespace MetricFormula

open Json (Document)

namespace Command

/-! ## Standard input -/

/-- The line end of a line that does not end in a carriage return. -/
theorem dropLineEnd_outputLine {text : List Char} {c : Char} (hc : c ≠ '\r') :
    dropLineEnd (outputLine (text ++ [c])) = text ++ [c] := by
  have hreverse : (outputLine (text ++ [c])).reverse = '\n' :: c :: text.reverse := by
    simp [outputLine]
  rw [dropLineEnd, hreverse]
  -- Of the two ends that are dropped only the shorter one can match.
  split
  next heq => exact absurd (List.cons.inj (List.cons.inj heq).2).1 hc
  next heq =>
    rw [← (List.cons.inj heq).2]
    simp
  next hne => exact absurd rfl (hne _)

/-- Objects are printed with a brace at the end. -/
theorem exists_print_object (members : List (Option String × Document)) :
    ∀ print ∈ [Document.compact, Document.indented],
      ∃ text, print (.object members) = text ++ ['\x7d'] := by
  simp only [List.mem_cons, List.not_mem_nil, or_false, forall_eq_or_imp, forall_eq]
  refine ⟨⟨_, rfl⟩, ?_⟩
  rcases members with _ | ⟨⟨name, value⟩, members⟩
  · exact ⟨['\x7b'], rfl⟩
  · exact ⟨_, rfl⟩

/-- The two ways to print a document. -/
theorem exists_printDocument (pretty : Bool) :
    ∃ print ∈ [Document.compact, Document.indented],
      ∀ document, printDocument pretty document = outputLine (print document) := by
  cases pretty with
  | false => exact ⟨Document.compact, List.mem_cons_self, fun _ => rfl⟩
  | true => exact ⟨Document.indented, List.mem_cons_of_mem _ List.mem_cons_self, fun _ => rfl⟩

/-- A printed document is read back, the line end behind it being a gap. -/
theorem parse?_printDocument (pretty : Bool) {document : Document}
    (h : Document.HasDigits document.literals) :
    Document.parse? (printDocument pretty document) = some document := by
  obtain ⟨print, hprint, hdocument⟩ := exists_printDocument pretty
  rw [hdocument]
  exact Document.parse?_print_append document h (List.forall_mem_singleton.2 (by decide)) print
    hprint

/-- A printed object is read from standard input without the line end behind it. -/
theorem readArgument_printDocument (pretty : Bool) (members : List (Option String × Document)) :
    ∃ print ∈ [Document.compact, Document.indented],
      readArgument (String.ofList (printDocument pretty (.object members))).toUTF8 "-" =
        .ok (print (.object members)) := by
  obtain ⟨print, hprint, hdocument⟩ := exists_printDocument pretty
  obtain ⟨text, htext⟩ := exists_print_object members print hprint
  refine ⟨print, hprint, ?_⟩
  rw [readArgument, if_pos rfl, Text.fromUTF8?_toUTF8, hdocument, htext]
  show Except.ok (dropLineEnd (String.ofList (outputLine _)).toList) = _
  rw [String.toList_ofList, dropLineEnd_outputLine (by decide)]

/-- Formatting prints the formula of the calculation that is read, if there is one. -/
theorem runFormat_of_readArgument {input : ByteArray} {argument : String} {text : List Char}
    (hargument : readArgument input argument = .ok text) :
    (∀ t, Calculation.ofJson? text = some t → t.hasPlaceholder = false →
      runFormat input argument = .ok (outputLine t.formula)) ∧
    (Calculation.ofJson? text = none →
      runFormat input argument = .error (.because .usage "invalid tree: not a calculation")) := by
  rw [runFormat, hargument]
  constructor
  · intro t hread hplaceholder
    simp only [bind, Except.bind, hread, hplaceholder]
    rfl
  · intro hread
    simp only [bind, Except.bind, hread]
    rfl

/-! ## Building and formatting -/

variable {formula : List Char} {t : Calculation} {document : Document}

theorem hasPlaceholder_of_compile (h : Formula.compile .reject formula = .ok t) :
    t.hasPlaceholder = false := by
  obtain ⟨-, expression, -, -, hbuild⟩ := Formula.compile_eq_ok_iff.1 h
  exact (Calculation.means_of_ofExpression hbuild (.inl rfl)).hasPlaceholder_eq_false

theorem hasPlaceholder_wireForm (t : Calculation) :
    t.wireForm.hasPlaceholder = t.hasPlaceholder := by
  induction t with
  | arithmetic op left right ihleft ihright =>
    rw [Calculation.wireForm, Calculation.hasPlaceholder, Calculation.hasPlaceholder, ihleft,
      ihright]
  | _ => rfl

/-- Building prints the calculation of the formula, once the catalog has been checked. -/
theorem runBuild_of_compile {m : Type → Type} [Monad m] [LawfulMonad m] [MonadFiles m]
    {settings : Settings} {input : ByteArray} {argument : String}
    (hargument : readArgument input argument = .ok formula)
    (hcompile : Formula.compile settings.unknownFunctions formula = .ok t)
    (hdocument : t.toDocument = .ok document) (pretty : Bool) (catalog : Option String) :
    (runBuild settings pretty input argument catalog : ExceptT Failure m (List Char)) =
      checkCatalog settings catalog t >>= fun _ => pure (printDocument pretty document) := by
  rw [runBuild, hargument]
  show (pure formula >>= _) = _
  rw [pure_bind, hcompile]
  show (pure t >>= _) = _
  rw [pure_bind, hdocument]
  show (checkCatalog settings catalog t >>= fun _ => pure document >>= _) = _
  simp only [pure_bind]

/-- The calculation of a formula is read from either of its texts, with sums in place of the metrics
that stand alone, exactly if no path of it has more than 63 operations and its numbers are read
back. Then formatting the output of building prints its formula, and beyond 63 operations the output
is refused. -/
theorem runFormat_of_compile (hcompile : Formula.compile .reject formula = .ok t)
    (hdocument : t.toDocument = .ok document) :
    (∀ print ∈ [Document.compact, Document.indented],
      (Calculation.ofJson? (print document) = some t.wireForm ↔
        t.height ≤ 63 ∧ ∀ value ∈ t.constants, value.IsReadBack) ∧
      (63 < t.height → Calculation.ofJson? (print document) = none)) ∧
    ∀ pretty,
      let output := printDocument pretty document
      let piped := (String.ofList output).toUTF8
      (∀ {m : Type → Type} [Monad m] [LawfulMonad m] [MonadFiles m] (settings : Settings)
        (input : ByteArray) (argument : String) (catalog : Option String),
        settings.unknownFunctions = .reject → readArgument input argument = .ok formula →
        (runBuild settings pretty input argument catalog : ExceptT Failure m (List Char)) =
          checkCatalog settings catalog t >>= fun _ => pure output) ∧
      (t.height ≤ 63 → (∀ value ∈ t.constants, value.IsReadBack) →
        runFormat piped "-" = .ok (outputLine t.wireForm.formula)) ∧
      (63 < t.height →
        runFormat piped "-" = .error (.because .usage "invalid tree: not a calculation")) := by
  have hplaceholder := hasPlaceholder_of_compile hcompile
  have hread : ∀ print ∈ [Document.compact, Document.indented],
      (Calculation.ofJson? (print document) = some t.wireForm ↔
        t.height ≤ 63 ∧ ∀ value ∈ t.constants, value.IsReadBack) ∧
      (63 < t.height → Calculation.ofJson? (print document) = none) := by
    intro print hprint
    rw [Calculation.ofJson?_print hdocument print hprint,
      ← Calculation.ofDocument?_eq_some_iff hdocument hplaceholder]
    by_cases hheight : t.height ≤ 63
    · rw [if_pos hheight]
      exact ⟨(and_iff_right hheight).symm, fun h => absurd hheight (Nat.not_le.2 h)⟩
    · rw [if_neg hheight]
      exact ⟨iff_of_false nofun fun h => hheight h.1, fun _ => rfl⟩
  refine ⟨hread, fun pretty => ⟨?_, ?_⟩⟩
  · intro m _ _ _ settings input argument catalog hpolicy hargument
    rw [← hpolicy] at hcompile
    exact runBuild_of_compile hargument hcompile hdocument pretty catalog
  · -- The output is one of the two printed forms with a line end, which reading drops.
    obtain ⟨members, rfl⟩ := Calculation.exists_toDocument_eq_object hdocument
    obtain ⟨print, hprint, hargument⟩ := readArgument_printDocument pretty members
    obtain ⟨hiff, hnone⟩ := hread print hprint
    obtain ⟨hok, herror⟩ := runFormat_of_readArgument hargument
    refine ⟨fun hheight hnumbers => ?_, fun hheight => herror (hnone hheight)⟩
    exact hok t.wireForm (hiff.2 ⟨hheight, hnumbers⟩)
      ((hasPlaceholder_wireForm t).trans hplaceholder)

/-- A metric, a fraction and an average are built and read again, the metric as a sum. -/
theorem runFormat_of_compile_fraction :
    let formula := "\x7b a \x7d * 0.5 + Avg(\x7b b \x7d)".toList
    let half := Calculation.constant (.ofDecimal false ⟨5, -1⟩)
    let t := Calculation.arithmetic .add (.arithmetic .multiply (.metric "a") half)
      (.aggregate .average "b")
    let read := Calculation.arithmetic .add (.arithmetic .multiply (.aggregate .sum "a") half)
      (.aggregate .average "b")
    Formula.compile .reject formula = .ok t ∧ ∃ document, t.toDocument = .ok document ∧
      Calculation.ofJson? document.compact = some read := by
  intro formula half t read
  have hcompile : Formula.compile .reject formula = .ok t := by decide +kernel
  have hfinite : ∀ value ∈ t.constants, value.isFinite := by decide +kernel
  have hnumbers : ∀ value ∈ t.constants, value.IsReadBack := by decide +kernel
  have hheight : t.height ≤ 63 := by decide +kernel
  have hwire : t.wireForm = read := by decide +kernel
  obtain ⟨document, hdocument⟩ := Calculation.exists_toDocument hfinite
  have hread := (runFormat_of_compile hcompile hdocument).1 Document.compact List.mem_cons_self
  rw [hwire] at hread
  exact ⟨hcompile, document, hdocument, hread.1.2 ⟨hheight, hnumbers⟩⟩

/-- A chain of 64 additions is built and cannot be formatted. -/
theorem runFormat_of_chain :
    let formula := "\x7b a \x7d".toList ++ (List.replicate 64 "+1".toList).flatten
    let increment := fun left => Calculation.arithmetic .add left (.constant (.ofInt 1))
    let t := Nat.repeat increment 64 (.metric "a")
    Formula.compile .reject formula = .ok t ∧ ∃ document, t.toDocument = .ok document ∧
      Calculation.ofJson? document.compact = none ∧
      runFormat (String.ofList (printDocument false document)).toUTF8 "-" =
        .error (.because .usage "invalid tree: not a calculation") := by
  intro formula increment t
  have hcompile : Formula.compile .reject formula = .ok t := by decide +kernel
  have hfinite : ∀ value ∈ t.constants, value.isFinite := by decide +kernel
  have hheight : ¬t.height ≤ 63 := by decide +kernel
  obtain ⟨document, hdocument⟩ := Calculation.exists_toDocument hfinite
  have hnone : ∀ print ∈ [Document.compact, Document.indented],
      Calculation.ofJson? (print document) = none := by
    intro print hprint
    rw [Calculation.ofJson?_print hdocument print hprint, if_neg hheight]
  obtain ⟨members, rfl⟩ := Calculation.exists_toDocument_eq_object hdocument
  obtain ⟨print, hprint, hargument⟩ := readArgument_printDocument false members
  exact ⟨hcompile, _, hdocument, hnone Document.compact List.mem_cons_self,
    (runFormat_of_readArgument hargument).2 (hnone print hprint)⟩

end Command

end MetricFormula
