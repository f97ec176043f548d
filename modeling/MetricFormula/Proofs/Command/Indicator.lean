import MetricFormula.Proofs.Command.Submission
import MetricFormula.Proofs.Expression.Words

/-!
# Building and storing

Building a calculation and making the entity of an indicator are two commands with the same steps:
the formula is read, compiled, checked against the catalog and written. They fail for the same
reasons in the same order, and what they write has the same calculation. An indicator also has a
name, which must not be blank.

## Main definitions

* `Indicator.entity`: the entity of an indicator, given the document of its calculation;
* `Command.submit`: the steps of both commands;
* `Command.outcome`: what steps with files come to;
* `Command.chosen`: the catalog that is chosen, as it is found in the files;
* `Command.submittedText`: what is printed, given the chosen catalog;
* `Command.submissionCode`: the exit code of both commands, given the chosen catalog.

## Main results

* `Command.runBuild_eq_submit` and `Command.runIndicator_eq_submit`: both commands take these steps;
* `Command.outcome_submit`: the steps come to what is printed for the chosen catalog;
* `Command.submittedText_cases`: when something is printed, and how the steps fail otherwise;
* `Command.exitCode_build_indicator`: both commands end alike and print the same calculation.
-/

namespace MetricFormula

open Json (Document)
open MonadExcept (ofExcept)

namespace Indicator

/-- The attributes of an indicator, given the document of its calculation. -/
def attributes (indicator : Indicator) (expression : Document) : Document :=
  .record
    [("name", .text indicator.name), ("expression", expression),
      ("clientId", .text indicator.scope.clientId), ("type", .text typeName),
      ("departmentId", .text indicator.scope.departmentId),
      ("groupId", .text indicator.scope.departmentId),
      ("expressionString", .text indicator.formula), ("flip", .boolean indicator.flip)]

/-- The entity of an indicator, given the document of its calculation. -/
def entity (indicator : Indicator) (expression : Document) : Document :=
  .record
    [("type", .text typeName), ("departmentId", .text indicator.scope.departmentId),
      ("groupId", .text indicator.scope.departmentId), ("clientId", .text indicator.scope.clientId),
      ("attributes", indicator.attributes expression)]

/-- Writing an indicator fails only if its calculation cannot be written. -/
theorem toDocument_eq (indicator : Indicator) :
    indicator.toDocument =
      indicator.calculation.toDocument >>= fun expression => .ok (indicator.entity expression) :=
  rfl

/-- The numbers in an entity are those of the calculation. -/
theorem hasDigits_entity (indicator : Indicator) {expression : Document}
    (h : Document.HasDigits expression.literals) :
    Document.HasDigits (indicator.entity expression).literals := by
  have htext : ∀ text : String, Document.HasDigits (Document.text text).literals := fun _ =>
    List.forall_mem_nil _
  have hattributes : Document.HasDigits (indicator.attributes expression).literals := by
    refine Document.hasDigits_record ?_
    simp only [List.forall_mem_cons]
    exact ⟨htext _, h, htext _, htext _, htext _, htext _, htext _, List.forall_mem_nil _,
      List.forall_mem_nil _⟩
  refine Document.hasDigits_record ?_
  simp only [List.forall_mem_cons]
  exact ⟨htext _, htext _, htext _, htext _, hattributes, List.forall_mem_nil _⟩

end Indicator

namespace Command

/-! ## The steps of both commands -/

section Steps

variable {m : Type → Type} [Monad m] [LawfulMonad m] [MonadFiles m]

/-- Compile a formula, check its calculation against the catalog and print a document with it. -/
def submit (settings : Settings) (formula : List Char) (catalog : Option String)
    (wrap : Calculation → Document → Document) (pretty : Bool) : ExceptT Failure m (List Char) := do
  let calculation ← ofExcept <|
    (Formula.compile settings.unknownFunctions formula).mapError violationFailure
  checkCatalog settings catalog calculation
  let document ← ofExcept (calculation.toDocument.mapError outputFailure)
  return printDocument pretty (wrap calculation document)

variable {settings : Settings} {input : ByteArray} {formula : List Char}

/-- Building takes these steps. -/
theorem runBuild_eq_submit {argument : String}
    (hargument : readArgument input argument = .ok formula) (pretty : Bool)
    (catalog : Option String) :
    (runBuild settings pretty input argument catalog : ExceptT Failure m (List Char)) =
      submit settings formula catalog (fun _ => id) pretty := by
  rw [runBuild, hargument]
  show (pure formula >>= _) = _
  rw [pure_bind]
  rfl

/-- The indicator with a calculation. -/
def indicatorOf (arguments : IndicatorArguments) (formula : List Char) (t : Calculation) :
    Indicator :=
  ⟨String.ofList (Text.trim arguments.name.toList), t, String.ofList formula,
    ⟨arguments.client, arguments.department⟩, arguments.flip⟩

/-- A draft with a name makes an indicator if its formula compiles. -/
theorem mapError_toIndicator {arguments : IndicatorArguments}
    (hname : Text.isBlankText arguments.name.toList = false) (policy : UnknownFunctions) :
    ((IndicatorDraft.mk arguments.name (String.ofList formula) arguments.flip).toIndicator policy
        ⟨arguments.client, arguments.department⟩).mapError draftFailure =
      ((Formula.compile policy formula).mapError violationFailure).map
        (indicatorOf arguments formula) := by
  have hempty : ¬(Text.trim arguments.name.toList).isEmpty := fun hempty =>
    Text.trim_ne_nil hname (List.isEmpty_iff.1 hempty)
  unfold IndicatorDraft.toIndicator
  simp only [if_neg hempty, String.toList_ofList]
  cases Formula.compile policy formula <;> rfl

/-- Making the entity of an indicator with a name takes the same steps, of which the last one prints
the entity. -/
theorem runIndicator_eq_submit {arguments : IndicatorArguments}
    (hargument : readArgument input arguments.formula = .ok formula)
    (hname : Text.isBlankText arguments.name.toList = false) (pretty : Bool)
    (catalog : Option String) :
    (runIndicator settings pretty input arguments catalog : ExceptT Failure m (List Char)) =
      submit settings formula catalog (fun t => (indicatorOf arguments formula t).entity)
        pretty := by
  rw [runIndicator, hargument]
  show (pure formula >>= _) = _
  rw [pure_bind]
  dsimp only
  rw [mapError_toIndicator hname, ofExcept_map_bind]
  simp only [Indicator.toDocument_eq, mapError_bind_ok, ofExcept_map_bind]
  rfl

end Steps

/-! ## What the steps come to -/

section Files

variable {σ α β : Type}

/-- What an action with files comes to. -/
def outcome (x : ExceptT Failure (StateM σ) α) (files : σ) : Except Failure α :=
  (x.run.run files).1

theorem outcome_ofExcept (x : Except Failure α) (files : σ) :
    outcome (ofExcept x : ExceptT Failure (StateM σ) α) files = x := by
  cases x <;> rfl

/-- A step without files comes first. -/
theorem outcome_ofExcept_bind (x : Except Failure α) (f : α → ExceptT Failure (StateM σ) β)
    (files : σ) :
    outcome (ofExcept x >>= f) files = x >>= fun value => outcome (f value) files := by
  cases x <;> rfl

/-- A step that cannot fail comes first. -/
theorem outcome_lift_bind (x : StateM σ α) (f : α → ExceptT Failure (StateM σ) β) (files : σ) :
    outcome ((liftM x : ExceptT Failure (StateM σ) α) >>= f) files =
      outcome (f (x.run files).1) (x.run files).2 :=
  rfl

variable [MonadFiles (StateM σ)]

/-- The catalog that is chosen, if one is, or why it cannot be read. -/
def chosen (settings : Settings) (catalog : Option String) (files : σ) :
    Option (Except CatalogError Catalog) :=
  (catalog <|> settings.catalogPath).map fun path =>
    ((loadCatalog path : StateM σ (Except CatalogError Catalog)).run files).1

/-- A catalog that cannot be read is a failure of input. -/
theorem status_of_chosen {settings : Settings} {catalog : Option String} {files : σ}
    {error : CatalogError} (h : chosen settings catalog files = some (.error error)) :
    (catalogFailure error).status = .inputOutput := by
  obtain ⟨path, -, hload⟩ := Option.map_eq_some_iff.1 h
  rw [loadCatalog, StateT.run_bind] at hload
  dsimp only [bind] at hload
  split at hload
  · cases hload
    rfl
  · split at hload <;> cases hload
    rfl

/-- Check a calculation against a catalog, if there is one that can be read. -/
def checkLoaded (loaded : Option (Except CatalogError Catalog)) (t : Calculation) :
    Except Failure Unit :=
  match loaded with
  | none => .ok ()
  | some loaded => (loaded >>= fun catalog => catalog.check t).mapError catalogFailure

/-- What follows the check of the catalog and needs no files comes to the same for all files. -/
theorem outcome_checkCatalog_bind (settings : Settings) (catalog : Option String) (t : Calculation)
    (x : Except Failure α) (files : σ) :
    outcome (checkCatalog settings catalog t >>= fun _ => ofExcept x) files =
      checkLoaded (chosen settings catalog files) t >>= fun _ => x := by
  rw [checkCatalog, chosenCatalog, chosen]
  cases catalog <|> settings.catalogPath with
  | none => exact outcome_ofExcept x files
  | some path =>
    simp only [bind_assoc]
    rw [outcome_lift_bind, Option.map_some, checkLoaded]
    cases ((loadCatalog path : StateM σ (Except CatalogError Catalog)).run files).1 with
    | error error => rfl
    | ok catalog =>
      show outcome (ofExcept ((catalog.check t).mapError catalogFailure) >>= fun _ => ofExcept x)
        _ = (catalog.check t).mapError catalogFailure >>= fun _ => x
      simp only [outcome_ofExcept_bind, outcome_ofExcept]

/-- What is printed, given the chosen catalog. -/
def submittedText (policy : UnknownFunctions) (formula : List Char)
    (loaded : Option (Except CatalogError Catalog)) (wrap : Calculation → Document → Document)
    (pretty : Bool) : Except Failure (List Char) := do
  let calculation ← (Formula.compile policy formula).mapError violationFailure
  checkLoaded loaded calculation
  (calculation.toDocument.mapError outputFailure).map fun document =>
    printDocument pretty (wrap calculation document)

/-- The steps come to what is printed for the catalog that is chosen. -/
theorem outcome_submit (settings : Settings) (formula : List Char) (catalog : Option String)
    (wrap : Calculation → Document → Document) (pretty : Bool) (files : σ) :
    outcome (submit settings formula catalog wrap pretty) files =
      submittedText settings.unknownFunctions formula (chosen settings catalog files) wrap
        pretty := by
  rw [submit, outcome_ofExcept_bind, submittedText]
  refine congrArg _ (funext fun t => ?_)
  have hprint : (ofExcept (t.toDocument.mapError outputFailure) >>= fun document =>
        pure (printDocument pretty (wrap t document)) : ExceptT Failure (StateM σ) (List Char)) =
      ofExcept ((t.toDocument.mapError outputFailure).map fun document =>
        printDocument pretty (wrap t document)) := by
    rw [← ofExcept_map_bind, bind_pure]
  rw [hprint, outcome_checkCatalog_bind]

end Files

/-! ## How both commands end -/

/-- The exit code of a command that writes a calculation. -/
def writingCode (t : Calculation) : Nat :=
  match t.toDocument with
  | .error _ => 1
  | .ok _ => 0

/-- The exit code for a formula, given the chosen catalog. -/
def submissionCode (policy : UnknownFunctions) (formula : List Char)
    (loaded : Option (Except CatalogError Catalog)) : Nat :=
  match Formula.compile policy formula with
  | .error _ => 3
  | .ok t =>
    match loaded with
    | none => writingCode t
    | some (.error _) => 5
    | some (.ok catalog) =>
      match catalog.check t with
      | .error _ => 4
      | .ok () => writingCode t

/-- A formula is read from standard input if that is text, and from an argument always. -/
theorem exists_readArgument {input : ByteArray} {argument : String}
    (hinput : argument = "-" → (String.fromUTF8? input).isSome) :
    ∃ formula, readArgument input argument = .ok formula := by
  unfold readArgument
  split
  next hdash =>
    obtain ⟨text, htext⟩ := Option.isSome_iff_exists.1 (hinput hdash)
    rw [htext]
    exact ⟨_, rfl⟩
  next => exact ⟨_, rfl⟩

variable {policy : UnknownFunctions} {formula : List Char}
variable {loaded : Option (Except CatalogError Catalog)} {t : Calculation}

/-- A catalog refuses a calculation for its metrics alone. -/
theorem status_of_check {catalog : Catalog} {error : CatalogError}
    (h : catalog.check t = .error error) : (catalogFailure error).status = .unknownMetric := by
  unfold Catalog.check at h
  split at h <;> cases h
  rfl

/-- What the check of the catalog means for the exit code. -/
theorem submissionCode_of_checkLoaded (hcompile : Formula.compile policy formula = .ok t)
    (hloaded : ∀ error, loaded = some (.error error) →
      (catalogFailure error).status = .inputOutput) :
    (∀ failure, checkLoaded loaded t = .error failure →
      submissionCode policy formula loaded = failure.status.code ∧ failure.status ≠ .success) ∧
    (checkLoaded loaded t = .ok () → submissionCode policy formula loaded = writingCode t) := by
  unfold submissionCode checkLoaded
  rw [hcompile]
  rcases loaded with _ | error | catalog
  · exact ⟨nofun, fun _ => rfl⟩
  · refine ⟨?_, nofun⟩
    rintro failure ⟨⟩
    rw [hloaded error rfl]
    exact ⟨rfl, nofun⟩
  · show (∀ failure, (catalog.check t).mapError catalogFailure = .error failure → _) ∧
      ((catalog.check t).mapError catalogFailure = .ok () → _)
    dsimp only
    rcases hcheck : catalog.check t with error | ⟨⟩
    · refine ⟨?_, nofun⟩
      rintro failure ⟨⟩
      rw [status_of_check hcheck]
      exact ⟨rfl, nofun⟩
    · exact ⟨nofun, fun _ => rfl⟩

/-- Whatever is printed around the document of the calculation, the steps come to the same failure
or to that document. -/
theorem submittedText_cases (policy : UnknownFunctions) (formula : List Char)
    (hloaded : ∀ error, loaded = some (.error error) →
      (catalogFailure error).status = .inputOutput) :
    (∃ failure : Failure, failure.status ≠ .success ∧
      submissionCode policy formula loaded = failure.status.code ∧
      ∀ wrap pretty, submittedText policy formula loaded wrap pretty = .error failure) ∨
    ∃ t expression, Formula.compile policy formula = .ok t ∧ t.toDocument = .ok expression ∧
      submissionCode policy formula loaded = 0 ∧
      ∀ wrap pretty, submittedText policy formula loaded wrap pretty =
        .ok (printDocument pretty (wrap t expression)) := by
  unfold submittedText
  rcases hcompile : Formula.compile policy formula with violation | t
  · refine .inl ⟨violationFailure violation, nofun, ?_, fun _ _ => rfl⟩
    rw [submissionCode, hcompile]
    rfl
  -- The catalog is checked first, the document is written only after that.
  obtain ⟨hrefused, hpassed⟩ := submissionCode_of_checkLoaded hcompile hloaded
  rcases hcheck : checkLoaded loaded t with failure | ⟨⟩
  · obtain ⟨hcode, hstatus⟩ := hrefused failure hcheck
    refine .inl ⟨failure, hstatus, hcode, fun _ _ => ?_⟩
    show (checkLoaded loaded t >>= _) = _
    rw [hcheck]
    rfl
  rw [hpassed hcheck, writingCode]
  rcases hdocument : t.toDocument with error | expression
  · refine .inl ⟨outputFailure error, nofun, rfl, fun _ _ => ?_⟩
    show (checkLoaded loaded t >>= _) = _
    rw [hcheck]
    show (t.toDocument.mapError outputFailure).map _ = _
    rw [hdocument]
    rfl
  · refine .inr ⟨t, expression, rfl, hdocument, rfl, fun wrap pretty => ?_⟩
    show (checkLoaded loaded t >>= _) = _
    rw [hcheck]
    show (t.toDocument.mapError outputFailure).map _ = _
    rw [hdocument]
    rfl

/-- Building a formula and making the entity of an indicator from it end alike, for all files, a
name that is not blank and a formula that can be read. Both end with 3 for a formula that breaks a
rule, else with 5 for a catalog that is chosen and cannot be read, else with 4 for metrics that it
does not offer, else with 1 for a calculation that cannot be written, and else with 0. Then the
attributes of the entity hold the document that building prints and the formula, from which the
same calculation is compiled; otherwise nothing is printed. -/
theorem exitCode_build_indicator {σ : Type} [MonadFiles (StateM σ)] (files : σ)
    (settings : Settings) (pretty pretty' : Bool) (path : String) (input : ByteArray)
    (arguments : IndicatorArguments) (catalog : Option String)
    (hinput : arguments.formula = "-" → (String.fromUTF8? input).isSome)
    (hname : Text.isBlankText arguments.name.toList = false) :
    let built := ((run settings pretty path input (.build arguments.formula catalog) :
      StateM σ Report).run files).1
    let stored := ((run settings pretty' path input (.indicator arguments catalog) :
      StateM σ Report).run files).1
    ∃ formula, readArgument input arguments.formula = .ok formula ∧
      built.exitCode =
        submissionCode settings.unknownFunctions formula (chosen settings catalog files) ∧
      stored.exitCode = built.exitCode ∧ stored.failure = built.failure ∧
      (built.exitCode ≠ 0 → built.output = [] ∧ stored.output = []) ∧
      (built.exitCode = 0 → ∃ t expression entity attributes text,
        Formula.compile settings.unknownFunctions formula = .ok t ∧
        t.toDocument = .ok expression ∧
        Document.parse? built.output = some expression ∧
        Document.parse? stored.output = some entity ∧
        entity.fields? ["attributes"] = some [some attributes] ∧
        attributes.fields? ["expression", "expressionString"] =
          some [some expression, some (.text text)] ∧
        text.toList = formula ∧
        Formula.compile settings.unknownFunctions text.toList = .ok t) := by
  intro built stored
  obtain ⟨formula, hargument⟩ := exists_readArgument hinput
  -- Both commands submit the same formula and differ only in what they wrap the expression in.
  have hbuilt : built = .ofResult (submittedText settings.unknownFunctions formula
      (chosen settings catalog files) (fun _ => id) pretty) := by
    rw [← outcome_submit, ← runBuild_eq_submit hargument]
    rfl
  have hstored : stored = .ofResult (submittedText settings.unknownFunctions formula
      (chosen settings catalog files) (fun t => (indicatorOf arguments formula t).entity)
        pretty') := by
    rw [← outcome_submit, ← runIndicator_eq_submit hargument hname]
    rfl
  refine ⟨formula, hargument, ?_⟩
  have hloaded : ∀ error, chosen settings catalog files = some (.error error) →
      (catalogFailure error).status = .inputOutput := fun _ => status_of_chosen
  rcases submittedText_cases settings.unknownFunctions formula hloaded with
    ⟨failure, hstatus, hcode, htext⟩ | ⟨t, expression, hcompile, hdocument, hcode, htext⟩
  · rw [hbuilt, hstored, htext, htext, hcode]
    have hne : failure.status.code ≠ 0 := by
      cases hfailure : failure.status <;> first | exact absurd hfailure hstatus | decide
    exact ⟨rfl, rfl, rfl, fun _ => ⟨rfl, rfl⟩, fun hzero => absurd hzero hne⟩
  · rw [hbuilt, hstored, htext, htext, hcode]
    have hdigits := Calculation.hasDigits_toDocument hdocument
    refine ⟨rfl, rfl, rfl, fun hne => absurd rfl hne, fun _ => ?_⟩
    refine ⟨t, expression, (indicatorOf arguments formula t).entity expression,
      (indicatorOf arguments formula t).attributes expression, String.ofList formula, hcompile,
      hdocument, parse?_printDocument pretty hdigits,
      parse?_printDocument pretty' (Indicator.hasDigits_entity _ hdigits), rfl, rfl,
      String.toList_ofList, ?_⟩
    rw [String.toList_ofList, hcompile]

/-- A formula on standard input is built and stored without a catalog. With a catalog that is not
there both commands end with 5. -/
theorem exitCode_build_indicator_of_missing_catalog :
    let files : FileTree := ⟨[], []⟩
    let input := "\x7b sales \x7d * 0.5\n".toUTF8
    let arguments : IndicatorArguments := ⟨" Profit ", "-", "client", "department", false⟩
    let built := fun catalog => ((run {} false "" input (.build arguments.formula catalog) :
      StateM FileTree Report).run files).1
    let stored := fun catalog => ((run {} true "" input (.indicator arguments catalog) :
      StateM FileTree Report).run files).1
    (arguments.formula = "-" → (String.fromUTF8? input).isSome) ∧
      Text.isBlankText arguments.name.toList = false ∧
      ((built none).exitCode = 0 ∧ (stored none).exitCode = 0 ∧
        ∃ expression entity attributes text,
          Document.parse? (built none).output = some expression ∧
          Document.parse? (stored none).output = some entity ∧
          entity.fields? ["attributes"] = some [some attributes] ∧
          attributes.fields? ["expression", "expressionString"] =
            some [some expression, some (.text text)]) ∧
      (built (some "missing.json")).exitCode = 5 ∧ (stored (some "missing.json")).exitCode = 5 := by
  intro files input arguments built stored
  have hinput : arguments.formula = "-" → (String.fromUTF8? input).isSome := fun _ => by
    rw [Text.fromUTF8?_toUTF8]
    rfl
  have hname : Text.isBlankText arguments.name.toList = false := by decide
  have hargument : readArgument input arguments.formula =
      .ok (dropLineEnd "\x7b sales \x7d * 0.5\n".toList) := by
    rw [readArgument, if_pos rfl, Text.fromUTF8?_toUTF8]
  obtain ⟨formula, hread, hcode, hstored, -, -, hzero⟩ :=
    exitCode_build_indicator files {} false true "" input arguments none hinput hname
  obtain ⟨formula', hread', hcode', hstored', -⟩ :=
    exitCode_build_indicator files {} false true "" input arguments (some "missing.json") hinput
      hname
  cases hargument.symm.trans hread
  cases hargument.symm.trans hread'
  have hbuilt : (built none).exitCode = 0 := hcode.trans (by decide +kernel)
  have hbuilt' : (built (some "missing.json")).exitCode = 5 := hcode'.trans (by decide +kernel)
  obtain ⟨t, expression, entity, attributes, text, -, -, hexpression, hentity, hattributes,
    hfields, -⟩ := hzero hbuilt
  exact ⟨hinput, hname, ⟨hbuilt, hstored.trans hbuilt, expression, entity, attributes, text,
    hexpression, hentity, hattributes, hfields⟩, hbuilt', hstored'.trans hbuilt'⟩

end Command

end MetricFormula
