import MetricFormula.Proofs.Json.Tokens

/-!
# Line ends in JSON texts

Line ends stand between the tokens of a JSON text and not inside of them, so a document does not
depend on how the lines of its text end: a carriage return in front of a line feed, and line ends at
the end of the text, may be dropped.

## Main results

* `Document.parse?_of_dropsLineEnds`: such line ends do not count;
* `Document.parse?_append_return`: a carriage return at the end does not count.
-/

namespace MetricFormula.Json

open Text (DropsLineEnds IsLine)

variable {tokens : List Token} {text kept behind rest gap : List Char}

/-! ## Dropping line ends -/

/-- What is kept of a gap is a gap. -/
theorem IsGapText.of_dropsLineEnds (h : IsGapText text) (hdrop : DropsLineEnds text kept) :
    IsGapText kept :=
  fun c hc => h c (hdrop.sublist.subset hc)

/-- No number goes on with a line end. -/
theorem StartsWithout.of_dropsLineEnds (h : StartsWithout continuesNumber text)
    (hdrop : DropsLineEnds text kept) : StartsWithout continuesNumber kept := by
  induction hdrop with
  | nil => exact startsWithout_nil _
  | keep c _ _ => exact startsWithout_cons (h c rfl) _
  | drop _ hnext _ ih =>
    refine ih fun d hd => ?_
    rcases hnext d hd with rfl | rfl <;> decide

/-- A token may still stand in front of what is kept. -/
theorem Token.StandsBefore.of_dropsLineEnds {token : Token} (h : token.StandsBefore text)
    (hdrop : DropsLineEnds text kept) : token.StandsBefore kept := by
  cases token with
  | number => exact StartsWithout.of_dropsLineEnds h hdrop
  | _ => trivial

/-- What is dropped stands in the gaps between tokens. -/
theorem StartsWith.of_dropsLineEnds (h : StartsWith tokens text rest)
    (hdrop : DropsLineEnds text kept) :
    ∃ last, StartsWith tokens kept last ∧ DropsLineEnds rest last := by
  induction h generalizing kept with
  | nil => exact ⟨kept, .nil kept, hdrop⟩
  | cons hgap htext hbefore _ ih =>
    obtain ⟨gap, kept, rfl, hsublist, hdrop⟩ := hdrop.exists_of_append
    obtain ⟨behind, rfl, hbehind⟩ := hdrop.exists_of_append_line htext.isPlain.isLine
    obtain ⟨last, hstart, hlast⟩ := ih hbehind
    exact ⟨last, .cons (fun c hc => hgap c (hsublist.subset hc)) htext
      (hbefore.of_dropsLineEnds hbehind) hstart, hlast⟩

/-- A document does not depend on the line ends that are dropped. -/
theorem Document.parse?_of_dropsLineEnds {document : Document} (h : parse? text = some document)
    (hdrop : DropsLineEnds text kept) : parse? kept = some document := by
  refine parse?_of_startsWith h fun tokens rest hstart hrest => ?_
  obtain ⟨last, hstart, hlast⟩ := hstart.of_dropsLineEnds hdrop
  exact ⟨last, hstart, hrest.of_dropsLineEnds hlast⟩

/-! ## Adding gaps -/

/-- A token may still stand in front of a text with a gap behind it. -/
theorem Token.StandsBefore.append_gap {token : Token} (h : token.StandsBefore text)
    (hgap : IsGapText gap) : token.StandsBefore (text ++ gap) := by
  cases token with
  | number =>
    cases text with
    | nil => exact hgap.startsWithout
    | cons c text => exact startsWithout_cons (h c rfl) _
  | _ => trivial

/-- A gap at the end of a text belongs to what is left of it. -/
theorem StartsWith.append_gap (h : StartsWith tokens text rest) (hgap : IsGapText gap) :
    StartsWith tokens (text ++ gap) (rest ++ gap) := by
  induction h with
  | nil rest => exact .nil _
  | cons hbefore htext hstands _ ih =>
    rw [List.append_assoc, List.append_assoc]
    exact .cons hbefore htext (hstands.append_gap hgap) ih

/-- A carriage return at the end makes no difference. -/
theorem Document.parse?_append_return (text : List Char) :
    parse? (text ++ ['\r']) = parse? text := by
  have hgap : IsGapText ['\r'] := List.forall_mem_singleton.2 (by decide)
  have hdrop : DropsLineEnds (text ++ ['\r']) text := by
    have hreturn : DropsLineEnds ['\r'] [] := .drop (.inr rfl) (fun _ hc => nomatch hc) .nil
    have happend := hreturn.append_left text
    rwa [List.append_nil] at happend
  refine Option.ext fun document => ⟨fun h => parse?_of_dropsLineEnds h hdrop, fun h => ?_⟩
  exact parse?_of_startsWith h fun tokens rest hstart hrest =>
    ⟨rest ++ ['\r'], hstart.append_gap hgap, List.forall_mem_append.2 ⟨hrest, hgap⟩⟩

end MetricFormula.Json
