import MetricFormula.Proofs.Command.Format
import MetricFormula.Proofs.Formula.Overflow
import MetricFormula.Storage.FileTree

/-!
# Submitting what is valid

Checking a formula and building its calculation apply the same rules, and building then writes the
calculation. So without a catalog the two commands end alike, apart from formulas that are valid
although a number in them overflows: these are checked with success, and what is built of them
cannot be written.

## Main definitions

* `Command.builtText`: what building prints without a catalog.

## Main results

* `Command.exitCode_runValidate`: how checking ends;
* `Command.runBuild_eq_builtText`: building without a catalog uses no files;
* `Command.exitCode_builtText`: how building ends;
* `Command.exitCode_validate_build`: which valid formulas are written, and how both commands end.
-/

namespace MetricFormula

open MonadExcept (ofExcept)

namespace Command

variable {formula : List Char} {settings : Settings} {input : ByteArray} {argument : String}
variable {policy : UnknownFunctions}

/-! ## Checking -/

/-- How checking ends does not depend on the form of its output. -/
theorem exitCode_runValidate (hargument : readArgument input argument = .ok formula)
    (pretty json : Bool) :
    (runValidate settings pretty input argument json).exitCode =
      match Formula.compile settings.unknownFunctions formula with
      | .error _ => 3
      | .ok _ => 0 := by
  rw [runValidate, hargument]
  cases json with
  | true =>
    show (validateInJson settings pretty formula).exitCode = _
    rw [validateInJson, Formula.validate]
    rcases Formula.compile settings.unknownFunctions formula with violation | t <;> rfl
  | false =>
    show (validateInWords settings formula).exitCode = _
    rw [validateInWords, Formula.validate]
    rcases Formula.compile settings.unknownFunctions formula with violation | t <;> rfl

/-! ## Building -/

/-- What building prints without a catalog. -/
def builtText (policy : UnknownFunctions) (pretty : Bool) (formula : List Char) :
    Except Failure (List Char) := do
  let calculation ← (Formula.compile policy formula).mapError violationFailure
  let document ← calculation.toDocument.mapError outputFailure
  return printDocument pretty document

section Files

variable {m : Type → Type} [Monad m] [LawfulMonad m]

/-- Steps that need no files may be taken one after the other or all at once. -/
theorem ofExcept_bind {ε α β : Type} (x : Except ε α) (f : α → Except ε β) :
    (ofExcept (x >>= f) : ExceptT ε m β) = ofExcept x >>= fun value => ofExcept (f value) := by
  rcases x with error | value
  · refine ExceptT.ext ?_
    rw [ExceptT.run_bind]
    show pure (Except.error error) = pure (Except.error error) >>= _
    rw [pure_bind]
  · show ofExcept (f value) = pure value >>= _
    rw [pure_bind]

/-- What is changed without files may be changed later. -/
theorem ofExcept_map_bind {ε α β γ : Type} (x : Except ε α) (f : α → β) (g : β → ExceptT ε m γ) :
    ofExcept (x.map f) >>= g = ofExcept x >>= fun value => g (f value) := by
  cases x with
  | error error =>
    refine ExceptT.ext ?_
    rw [ExceptT.run_bind, ExceptT.run_bind]
    show pure (Except.error error) >>= _ = pure (Except.error error) >>= _
    rw [pure_bind, pure_bind]
  | ok value =>
    show pure (f value) >>= g = pure value >>= _
    rw [pure_bind, pure_bind]

variable [MonadFiles m]

theorem checkCatalog_none (hcatalog : settings.catalogPath = none) (t : Calculation) :
    (checkCatalog settings none t : ExceptT Failure m Unit) = pure () := by
  rw [checkCatalog, chosenCatalog, hcatalog]
  show (pure none >>= _) = _
  rw [pure_bind]

/-- Without a catalog building uses no files. -/
theorem runBuild_eq_builtText (hcatalog : settings.catalogPath = none)
    (hargument : readArgument input argument = .ok formula) (pretty : Bool) :
    (runBuild settings pretty input argument none : ExceptT Failure m (List Char)) =
      ofExcept (builtText settings.unknownFunctions pretty formula) := by
  rw [runBuild, hargument, builtText, ofExcept_bind]
  show (pure formula >>= _) = _
  simp only [pure_bind, checkCatalog_none hcatalog, ofExcept_bind]
  rfl

/-- Without a catalog neither checking nor building uses files. -/
theorem run_validate_build (hcatalog : settings.catalogPath = none)
    (hargument : readArgument input argument = .ok formula) (pretty json : Bool) (path : String) :
    (run settings pretty path input (.validate argument json) : m Report) =
        pure (runValidate settings pretty input argument json) ∧
      (run settings pretty path input (.build argument none) : m Report) =
        pure (.ofResult (builtText settings.unknownFunctions pretty formula)) := by
  refine ⟨rfl, ?_⟩
  have hrun : ∀ result : Except Failure (List Char),
      (ofExcept result : ExceptT Failure m (List Char)).run = pure result := by
    rintro (failure | text) <;> rfl
  rw [run, runBuild_eq_builtText hcatalog hargument, hrun, pure_bind]

end Files

/-- What is refused by building is refused for the rule that it breaks or for an infinite number. -/
theorem exitCode_builtText (pretty : Bool) :
    (Report.ofResult (builtText policy pretty formula)).exitCode =
      match Formula.compile policy formula with
      | .error _ => 3
      | .ok t => if .infinity false ∈ t.constants then 1 else 0 := by
  rw [builtText]
  rcases hcompile : Formula.compile policy formula with violation | t
  · rfl
  · show (Report.ofResult (t.toDocument.mapError outputFailure >>= _)).exitCode = if _ then _ else _
    by_cases hmem : .infinity false ∈ t.constants
    · rw [if_pos hmem, Formula.toDocument_of_infinity_mem hcompile hmem]
      rfl
    · obtain ⟨document, hdocument⟩ := Formula.exists_toDocument_of_notMem hcompile hmem
      rw [if_neg hmem, hdocument]
      rfl

/-! ## Both commands -/

/-- The calculation of a valid formula is written unless it has an infinite constant, which comes
from a number that overflows, and every such number is one if no call was left out. Checking a
formula and building it without a catalog end alike if no number in it overflows. In general both
end with 3 for a formula that breaks a rule, and for one that is valid checking ends with 0 and
building with 0 or, for an infinite constant, with 1. -/
theorem exitCode_validate_build (policy : UnknownFunctions) (formula : List Char) :
    (Formula.validate policy formula = .ok () → ∃ t, Formula.compile policy formula = .ok t ∧
      (.infinity false ∉ t.constants → ∃ document, t.toDocument = .ok document) ∧
      (.infinity false ∈ t.constants →
        Formula.Overflows formula ∧ t.toDocument = .error (.nonFinite (.infinity false))) ∧
      (Formula.Overflows formula → t.hasPlaceholder = false → .infinity false ∈ t.constants)) ∧
    ∀ {m : Type → Type} [Monad m] [LawfulMonad m] [MonadFiles m] (settings : Settings)
      (pretty json : Bool) (path : String) (input : ByteArray) (argument : String),
      settings.unknownFunctions = policy → settings.catalogPath = none →
      readArgument input argument = .ok formula →
      ∃ checked built : Report,
        run settings pretty path input (.validate argument json) = (pure checked : m Report) ∧
        run settings pretty path input (.build argument none) = (pure built : m Report) ∧
        (¬Formula.Overflows formula → (checked.exitCode = 0 ↔ built.exitCode = 0)) ∧
        (∀ violation, Formula.compile policy formula = .error violation →
          checked.exitCode = 3 ∧ built.exitCode = 3) ∧
        (∀ t, Formula.compile policy formula = .ok t → checked.exitCode = 0 ∧
          built.exitCode = if .infinity false ∈ t.constants then 1 else 0) := by
  refine ⟨fun hvalid => ?_, ?_⟩
  · obtain ⟨t, hcompile⟩ := Formula.validate_eq_ok_iff.1 hvalid
    refine ⟨t, hcompile, Formula.exists_toDocument_of_notMem hcompile, fun hmem => ⟨?_, ?_⟩, ?_⟩
    · exact Formula.overflows_of_infinity_mem hcompile hmem
    · exact Formula.toDocument_of_infinity_mem hcompile hmem
    · exact fun hoverflows hplaceholder =>
        Formula.infinity_mem_constants hcompile hplaceholder hoverflows
  · rintro m _ _ _ settings pretty json path input argument rfl hcatalog hargument
    obtain ⟨hvalidate, hbuild⟩ :=
      run_validate_build (m := m) hcatalog hargument pretty json path
    refine ⟨_, _, hvalidate, hbuild, ?_⟩
    rw [exitCode_runValidate hargument, exitCode_builtText]
    -- Past a violation, building can only fail for an infinite constant.
    rcases hcompile : Formula.compile settings.unknownFunctions formula with violation | t
    · exact ⟨fun _ => Iff.rfl, fun _ _ => ⟨rfl, rfl⟩, nofun⟩
    · refine ⟨fun hoverflows => iff_of_true rfl ?_, nofun, fun _ ht => ?_⟩
      · exact if_neg fun hmem => hoverflows (Formula.overflows_of_infinity_mem hcompile hmem)
      · cases ht
        exact ⟨rfl, rfl⟩

/-- A quotient of an average and a fraction is valid and can be submitted. -/
theorem exitCode_validate_build_of_quotient :
    let argument := "\x7b Avg(a) \x7d / 12.5"
    Formula.validate .reject argument.toList = .ok () ∧ ¬Formula.Overflows argument.toList ∧
      ∃ checked built : Report,
        run (m := StateM FileTree) {} false "" .empty (.validate argument false) = pure checked ∧
        run (m := StateM FileTree) {} false "" .empty (.build argument none) = pure built ∧
        checked.exitCode = 0 ∧ built.exitCode = 0 := by
  intro argument
  have hvalid : Formula.validate .reject argument.toList = .ok () := by decide +kernel
  have hoverflows : ¬Formula.Overflows argument.toList :=
    Formula.not_overflows_of_countP (by decide)
  obtain ⟨t, hcompile, -⟩ := (exitCode_validate_build .reject argument.toList).1 hvalid
  obtain ⟨checked, built, hchecked, hbuilt, hiff, -, hok⟩ :=
    (exitCode_validate_build .reject argument.toList).2 (m := StateM FileTree) {} false false ""
      .empty argument rfl rfl rfl
  obtain ⟨hzero, -⟩ := hok t hcompile
  exact ⟨hvalid, hoverflows, checked, built, hchecked, hbuilt, hzero, (hiff hoverflows).1 hzero⟩

/-- A sum with a number of 310 digits is valid, and its calculation cannot be written. -/
theorem exitCode_build_of_overflow :
    let formula := "\x7b a \x7d + 1".toList ++ List.replicate 309 '0'
    let argument := String.ofList formula
    let t := Calculation.arithmetic .add (.metric "a") (.constant (.infinity false))
    Formula.validate .reject formula = .ok () ∧ Formula.compile .reject formula = .ok t ∧
      t.toDocument = .error (.nonFinite (.infinity false)) ∧
      ∃ checked built : Report,
        run (m := StateM FileTree) {} false "" .empty (.validate argument false) = pure checked ∧
        run (m := StateM FileTree) {} false "" .empty (.build argument none) = pure built ∧
        checked.exitCode = 0 ∧ built.exitCode = 1 := by
  intro formula argument t
  have hcompile : Formula.compile .reject formula = .ok t := by decide +kernel
  have htext : argument.toList = formula := String.toList_ofList
  have hdash : argument ≠ "-" := fun heq => by
    have hlength : formula ≠ ['-'] := by decide
    exact hlength (htext.symm.trans (congrArg String.toList heq))
  have hargument : readArgument .empty argument = .ok formula := by
    rw [readArgument, if_neg hdash, htext]
  have hcatalog : ({} : Settings).catalogPath = none := rfl
  obtain ⟨hvalidate, hbuild⟩ :=
    run_validate_build (m := StateM FileTree) hcatalog hargument false false ""
  refine ⟨Formula.validate_eq_ok_iff.2 ⟨t, hcompile⟩, hcompile, rfl, _, _, hvalidate, hbuild, ?_⟩
  rw [exitCode_runValidate hargument, exitCode_builtText, hcompile]
  exact ⟨rfl, rfl⟩

end Command

end MetricFormula
