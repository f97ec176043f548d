import MetricFormula.Proofs.Outcome
import MetricFormula.Proofs.Settings
import MetricFormula.Storage.SettingsFile

/-!
# Settings files as a store

Files are modelled as a map from paths to bytes. Whoever writes to it, be it other programs, saved
settings or the text of the defaults, loading finds what the last successful write to the path has
left there.

## Main definitions

* `FileMap`: files as a map, in which operations may be refused;
* `Settings.ofBytes`: the settings that loading finds in the bytes of a file;
* `Settings.Step`: what may happen to a settings file;
* `Settings.lastWrite?`: the last successful step at a path.

## Main results

* `Settings.load_eq`: loading reads the bytes at the path and changes nothing;
* `Settings.Step.run_cases`: a step fails and changes nothing, or it puts its bytes at its path;
* `Settings.bytes?_of_steps`: what is at a path after a run of steps;
* `Settings.load_of_steps`: what is loaded after a run of steps.
-/

namespace MetricFormula

/-! ## Files as a map -/

/-- Files as a map from paths to bytes. Directories are not kept. Making a directory or writing a
file may be refused, for any reason. -/
structure FileMap where
  /-- The bytes of each file. -/
  bytes? : String → Option ByteArray
  /-- Why a directory is not made. -/
  directoryRefusal? : (String → Option ByteArray) → String → Option FileError
  /-- Why a file is not written. -/
  writeRefusal? : (String → Option ByteArray) → String → Option FileError

namespace FileMap

/-- The files with bytes put at a path. -/
def put (files : FileMap) (path : String) (bytes : ByteArray) : FileMap :=
  { files with bytes? := fun other => if other = path then some bytes else files.bytes? other }

@[simp]
theorem bytes?_put (files : FileMap) (path : String) (bytes : ByteArray) (other : String) :
    (files.put path bytes).bytes? other =
      if other = path then some bytes else files.bytes? other :=
  rfl

instance : MonadFiles (StateM FileMap) where
  isPresent path := do return ((← get).bytes? path).isSome
  isDirectory _ := return false
  readFile path := do return ((← get).bytes? path).elim (.error .notFound) .ok
  writeFile path bytes := fun files =>
    match files.writeRefusal? files.bytes? path with
    | some error => (.error error, files)
    | none => (.ok (), files.put path bytes)
  makeDirectory path := fun files =>
    ((files.directoryRefusal? files.bytes? path).elim (.ok ()) .error, files)

variable {α β : Type} {files : FileMap}

/-- A path is present if there are bytes at it. -/
theorem run_isPresent (path : String) :
    (MonadFiles.isPresent path : StateM FileMap Bool).run files =
      ((files.bytes? path).isSome, files) :=
  rfl

/-- Reading a file gives its bytes, or else it is not found. -/
theorem run_readFile (path : String) :
    (MonadFiles.readFile path : StateM FileMap (Except FileError ByteArray)).run files =
      ((files.bytes? path).elim (.error .notFound) .ok, files) :=
  rfl

/-- Writing a file puts the bytes at the path unless it is refused. -/
theorem run_writeFile (path : String) (bytes : ByteArray) :
    (MonadFiles.writeFile path bytes : StateM FileMap (Except FileError Unit)).run files =
      match files.writeRefusal? files.bytes? path with
      | some error => (.error error, files)
      | none => (.ok (), files.put path bytes) :=
  rfl

/-- The text of a file is read from its bytes. -/
theorem run_readText (path : String) :
    (MonadFiles.readText path : StateM FileMap (Except FileError String)).run files =
      ((files.bytes? path).elim (.error .notFound) fun bytes =>
        (String.fromUTF8? bytes).elim (.error .invalidText) .ok, files) := by
  rw [MonadFiles.readText, StateT.run_bind, run_readFile]
  cases files.bytes? path with
  | none => rfl
  | some bytes =>
    dsimp only [bind, Option.elim_some]
    cases String.fromUTF8? bytes <;> rfl

/-! ### Actions that change nothing -/

/-- The action changes no file. -/
def ChangesNothing (x : StateM FileMap α) : Prop :=
  ∀ files, (x.run files).2 = files

theorem changesNothing_pure (value : α) : ChangesNothing (pure value) :=
  fun _ => rfl

/-- Two actions that change nothing, one after the other, change nothing. -/
theorem ChangesNothing.bind {x : StateM FileMap α} {f : α → StateM FileMap β}
    (hx : ChangesNothing x) (hf : ∀ value, ChangesNothing (f value)) :
    ChangesNothing (x >>= f) := by
  intro files
  rw [StateT.run_bind]
  exact (hf _ _).trans (hx files)

/-- Directories are not kept, so making one changes no file. -/
theorem changesNothing_makeDirectory (path : String) :
    ChangesNothing (MonadFiles.makeDirectory path) :=
  fun _ => rfl

/-- Neither does looking for a directory. -/
theorem changesNothing_unlessDirectory (path : String) (result : Except FileError Unit) :
    ChangesNothing (MonadFiles.unlessDirectory path result) := by
  unfold MonadFiles.unlessDirectory
  split <;> exact fun _ => rfl

/-- Making directories changes no file. -/
theorem changesNothing_makeFirst (paths : List String) :
    ChangesNothing (MonadFiles.makeFirst paths) := by
  induction paths with
  | nil => exact changesNothing_pure _
  | cons path above ih =>
    rw [MonadFiles.makeFirst]
    refine (changesNothing_makeDirectory path).bind fun result => ?_
    -- Where a directory above is missing, it is made first.
    split
    · refine ih.bind fun result => ?_
      split
      · exact changesNothing_pure _
      · exact (changesNothing_makeDirectory path).bind fun _ => changesNothing_unlessDirectory _ _
    · exact changesNothing_unlessDirectory _ _

/-! ### Actions that write a file -/

variable {ε ε' : Type} {path : String} {bytes : ByteArray}

/-- The action fails and changes nothing, or it puts the bytes at the path. -/
def Puts (path : String) (bytes : ByteArray) (x : StateM FileMap (Except ε Unit)) : Prop :=
  ∀ files, (∃ error, x.run files = (.error error, files)) ∨
    x.run files = (.ok (), files.put path bytes)

/-- Writing a file is refused or puts the bytes. -/
theorem puts_writeFile (path : String) (bytes : ByteArray) :
    Puts path bytes (MonadFiles.writeFile path bytes) := by
  intro files
  rw [run_writeFile]
  cases files.writeRefusal? files.bytes? path with
  | none => exact .inr rfl
  | some error => exact .inl ⟨error, rfl⟩

theorem puts_error (path : String) (bytes : ByteArray) (error : ε) :
    Puts path bytes (pure (.error error)) :=
  fun _ => .inl ⟨error, rfl⟩

/-- An error may be told in another way. -/
theorem Puts.mapError {x : StateM FileMap (Except ε Unit)} (hx : Puts path bytes x) (f : ε → ε') :
    Puts path bytes (do return (← x).mapError f) := by
  intro files
  rw [StateT.run_bind]
  rcases hx files with ⟨error, hrun⟩ | hrun
  · exact .inl ⟨f error, by rw [hrun]; rfl⟩
  · exact .inr (by rw [hrun]; rfl)

/-- An action that is told to have failed has changed nothing. -/
theorem Puts.run_toBool {x : StateM FileMap (Except ε Unit)} (hx : Puts path bytes x)
    (files : FileMap) :
    StateT.run (do return (← x).toBool : StateM FileMap Bool) files = (false, files) ∨
      StateT.run (do return (← x).toBool : StateM FileMap Bool) files =
        (true, files.put path bytes) := by
  rw [StateT.run_bind]
  rcases hx files with ⟨error, hrun⟩ | hrun
  · exact .inl (by rw [hrun]; rfl)
  · exact .inr (by rw [hrun]; rfl)

/-- An action that changes nothing may come before. -/
theorem ChangesNothing.puts {x : StateM FileMap α} {f : α → StateM FileMap (Except ε Unit)}
    (hx : ChangesNothing x) (hf : ∀ value, Puts path bytes (f value)) :
    Puts path bytes (x >>= f) := by
  intro files
  have hrun : (x >>= f).run files = (f (x.run files).1).run (x.run files).2 :=
    StateT.run_bind x f files
  rw [hrun, hx files]
  exact hf _ files

end FileMap

namespace Settings

open FileMap

theorem changesNothing_makeParent (path : String) :
    ChangesNothing (makeParent path) := by
  unfold makeParent
  split
  · exact changesNothing_makeFirst _
  · exact changesNothing_pure _

/-- Saving writes the indented form of the settings. -/
theorem puts_save (settings : Settings) (path : String) :
    Puts path (String.ofList settings.toDocument.indented).toUTF8 (settings.save path) := by
  rw [save]
  refine (changesNothing_makeParent path).puts fun result => ?_
  split
  · exact puts_error _ _ _
  · exact (puts_writeFile _ _).mapError _

/-- Documenting the defaults writes their text, unless something is there already. -/
theorem puts_createDefault (path : String) (force : Bool) :
    Puts path defaultText.toUTF8 (createDefault path force) := by
  rw [createDefault]
  refine ChangesNothing.puts (fun _ => rfl) fun present => ?_
  split
  · exact puts_error _ _ _
  · refine (changesNothing_makeParent path).puts fun result => ?_
    split
    · exact puts_error _ _ _
    · refine Puts.mapError ?_ _
      rw [MonadFiles.writeText, String.ofList_toList]
      exact puts_writeFile _ _

/-! ## Loading -/

/-- The settings that loading finds in the bytes of a file. -/
def ofBytes (bytes : ByteArray) : Settings :=
  ((String.fromUTF8? bytes).bind fun text => parse? text.toList).getD {}

/-- Loading reads the bytes at the path and changes nothing. -/
theorem load_eq (files : FileMap) (path : String) :
    (load path : StateM FileMap Settings).run files =
      (((files.bytes? path).map ofBytes).getD {}, files) := by
  rw [load, StateT.run_bind, run_isPresent]
  cases hbytes : files.bytes? path with
  | none => rfl
  | some bytes =>
    show StateT.run (MonadFiles.readText path >>= _) files = _
    rw [StateT.run_bind, run_readText, hbytes]
    dsimp only [bind, Option.elim_some, Option.map_some, Option.getD_some, ofBytes]
    cases String.fromUTF8? bytes <;> rfl

/-! ## Steps -/

/-- What may happen to a settings file. -/
inductive Step
  /-- Any bytes are written. -/
  | write (path : String) (bytes : ByteArray)
  /-- Settings are saved. -/
  | save (settings : Settings) (path : String)
  /-- A file is made that documents the defaults. -/
  | createDefault (path : String) (force : Bool)

namespace Step

/-- The path of the step. -/
def path : Step → String
  | write path _ => path
  | save _ path => path
  | createDefault path _ => path

/-- What the step is to write. -/
def bytes : Step → ByteArray
  | write _ bytes => bytes
  | save settings _ => (String.ofList settings.toDocument.indented).toUTF8
  | createDefault _ _ => defaultText.toUTF8

/-- What is to be loaded after the step. -/
def settings : Step → Settings
  | write _ bytes => ofBytes bytes
  | save settings _ => settings
  | createDefault _ _ => {}

/-- Take the step; it is told whether it succeeds. -/
def run : Step → StateM FileMap Bool
  | write path bytes => do return (← MonadFiles.writeFile path bytes).toBool
  | save settings path => do return (← settings.save path).toBool
  | createDefault path force => do return (← Settings.createDefault path force).toBool

/-- The settings of a step are those in its bytes. -/
theorem ofBytes_bytes (step : Step) : ofBytes step.bytes = step.settings := by
  cases step with
  | write path bytes => rfl
  | save settings path =>
    rw [bytes, ofBytes, Text.fromUTF8?_toUTF8, Option.bind_some, String.toList_ofList,
      parse?_indented]
    rfl
  | createDefault path force =>
    rw [bytes, ofBytes, Text.fromUTF8?_toUTF8, Option.bind_some, parse?_defaultText]
    rfl

/-- A step fails and changes nothing, or it puts its bytes at its path. -/
theorem run_cases (step : Step) (files : FileMap) :
    step.run.run files = (false, files) ∨
      step.run.run files = (true, files.put step.path step.bytes) := by
  cases step with
  | write path bytes => exact (puts_writeFile path bytes).run_toBool files
  | save settings path => exact (puts_save settings path).run_toBool files
  | createDefault path force => exact (puts_createDefault path force).run_toBool files

end Step

/-! ## Runs of steps -/

/-- The step, of which is told whether it succeeds, has written the file at the path. -/
def hasWritten (path : String) (taken : Step × Bool) : Bool :=
  taken.2 && taken.1.path == path

/-- The last of the steps that has written the file at the path. -/
def lastWrite? (path : String) (steps : List Step) (succeeded : List Bool) : Option Step :=
  ((steps.zip succeeded).filter (hasWritten path)).getLast?.map Prod.fst

/-- A first step counts if none of the later ones does. -/
theorem lastWrite?_cons (path : String) (step : Step) (steps : List Step) (done : Bool)
    (succeeded : List Bool) :
    lastWrite? path (step :: steps) (done :: succeeded) =
      (lastWrite? path steps succeeded).or
        (if hasWritten path (step, done) then some step else none) := by
  rw [lastWrite?, lastWrite?, List.zip_cons_cons]
  by_cases hstep : hasWritten path (step, done)
  · rw [List.filter_cons_of_pos hstep, if_pos hstep, List.getLast?_cons]
    cases ((steps.zip succeeded).filter (hasWritten path)).getLast? <;> rfl
  · rw [List.filter_cons_of_neg hstep, if_neg hstep, Option.or_none]

/-- What is at a path after a run of steps is what the last successful step has put there. -/
theorem bytes?_of_steps (files : FileMap) (steps : List Step) (path : String) :
    let result := (steps.mapM Step.run).run files
    result.2.bytes? path =
      ((lastWrite? path steps result.1).map Step.bytes).or (files.bytes? path) := by
  induction steps generalizing files with
  | nil => rfl
  | cons step steps ih =>
    simp only [List.mapM_cons, StateT.run_bind, StateT.run_pure]
    -- A step that fails leaves the files as they are, and one that succeeds has put its bytes.
    rcases step.run_cases files with hrun | hrun
    · rw [hrun]
      exact ih files
    · rw [hrun]
      dsimp only [bind, pure]
      rw [lastWrite?_cons, Option.map_or, Option.or_assoc, ih, bytes?_put]
      by_cases hpath : path = step.path
      · simp [hasWritten, hpath]
      · simp [hasWritten, hpath, Ne.symm hpath]

/-- A file that is there is not replaced by the defaults without force. -/
theorem createDefault_of_isSome {files : FileMap} {path : String}
    (h : (files.bytes? path).isSome) :
    (createDefault path false : StateM FileMap (Except SettingsFileError Unit)).run files =
      (.error (.alreadyExists path), files) := by
  rw [createDefault, StateT.run_bind, run_isPresent, h]
  rfl

/-- A step changes no other file. -/
theorem Step.bytes?_run_of_ne (files : FileMap) {step : Step} {path : String}
    (h : path ≠ step.path) : (step.run.run files).2.bytes? path = files.bytes? path := by
  rcases step.run_cases files with hrun | hrun
  · rw [hrun]
  · rw [hrun, bytes?_put, if_neg h]

/-- After any writes, saved settings and files of the defaults, each of which may fail, loading from
a path gives the settings of the last of them that succeeded there: those that were saved, the
defaults, or what is read from the bytes that were written. If there is none it gives what is read
from the file that was there before, or else the defaults. A file that is there is not replaced by
the defaults without force, and no step changes another file. -/
theorem load_of_steps (files : FileMap) :
    (∀ (steps : List Step) (path : String),
      let result := (steps.mapM Step.run).run files
      (load path : StateM FileMap Settings).run result.2 =
        (((lastWrite? path steps result.1).map Step.settings).getD
          (((files.bytes? path).map ofBytes).getD {}), result.2)) ∧
    (∀ path : String, (files.bytes? path).isSome →
      (createDefault path false : StateM FileMap (Except SettingsFileError Unit)).run files =
        (.error (.alreadyExists path), files)) ∧
    ∀ (step : Step) (path : String), path ≠ step.path →
      (step.run.run files).2.bytes? path = files.bytes? path := by
  refine ⟨fun steps path => ?_, fun path h => createDefault_of_isSome h,
    fun step path h => step.bytes?_run_of_ne files h⟩
  intro result
  rw [load_eq, bytes?_of_steps]
  cases lastWrite? path steps result.1 with
  | none => rfl
  | some step =>
    show (ofBytes step.bytes, result.2) = (step.settings, result.2)
    rw [step.ofBytes_bytes]

/-- A catalog with quotes, a line end and slashes in its name is loaded as it was saved. The file
was there before, so that making one of the defaults failed. -/
theorem load_of_steps_of_catalog :
    let path := "settings.json"
    let settings : Settings := { catalogPath := some "\"kpi\"\n// a.json" }
    let files : FileMap :=
      ⟨fun other => if other = path then some "[]".toUTF8 else none, fun _ _ => none,
        fun _ _ => none⟩
    let steps := [.createDefault path false, .save settings path, .write "a.json" "[]".toUTF8]
    let result := (steps.mapM Step.run).run files
    result.1 = [false, true, true] ∧
      ((load path : StateM FileMap Settings).run result.2).1 = settings ∧
      (createDefault path false : StateM FileMap (Except SettingsFileError Unit)).run files =
        (.error (.alreadyExists path), files) ∧
      "a.json" ≠ path ∧ ((Step.save settings path).run.run files).2.bytes? "a.json" = none := by
  intro path settings files steps result
  have hdone : result.1 = [false, true, true] := by decide +kernel
  have hlast : lastWrite? path steps result.1 = some (.save settings path) := by
    rw [hdone]
    rfl
  have hother : "a.json" ≠ path := by decide
  obtain ⟨hload, hdefault, hne⟩ := load_of_steps files
  have hloaded : ((load path : StateM FileMap Settings).run result.2).1 =
      ((lastWrite? path steps result.1).map Step.settings).getD
        (((files.bytes? path).map ofBytes).getD {}) :=
    congrArg Prod.fst (hload steps path)
  rw [hlast] at hloaded
  exact ⟨hdone, hloaded, hdefault path rfl, hother, hne (.save settings path) "a.json" hother⟩

end Settings

end MetricFormula
