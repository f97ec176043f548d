import MetricFormula.Proofs.Json.RoundTrip
import MetricFormula.Proofs.Settings.Comments

/-!
# Reading back settings

Settings that are written are read back, whatever the file of the catalog is called: there are no
comments among the lines that are written. The text that documents the defaults is read as the
defaults, its comments being dropped.

## Main results

* `Settings.ofDocument?_toDocument`: settings are read back from their document;
* `Settings.parse?_indented` and `Settings.parse?_defaultText`: what written settings and the text
  of the defaults are read as.
-/

namespace MetricFormula.Settings

open Json (Document)

/-- Settings are read back from their document. -/
theorem ofDocument?_toDocument (settings : Settings) :
    ofDocument? settings.toDocument = some settings := by
  obtain ⟨⟨pad, adjacent, decimal⟩, unknown, pretty, catalog⟩ := settings
  cases unknown <;> cases catalog <;> rfl

/-- There are no numbers in settings. -/
theorem hasDigits_toDocument (settings : Settings) :
    Document.HasDigits settings.toDocument.literals := by
  obtain ⟨options, unknown, pretty, catalog⟩ := settings
  cases catalog <;> exact List.forall_mem_nil _

/-- Written settings are read back. -/
theorem parse?_indented (settings : Settings) :
    parse? settings.toDocument.indented = some settings := by
  have hread := Document.parse?_print settings.toDocument (hasDigits_toDocument settings)
    Document.indented (List.mem_cons_of_mem _ List.mem_cons_self)
  rw [parse?, parse?_stripComments hread]
  exact ofDocument?_toDocument settings

set_option maxRecDepth 4000 in
/-- The text of the defaults is read as the defaults. -/
theorem parse?_defaultText : parse? defaultText.toList = some {} := by
  -- Reading runs on the characters of the text; decoding its bytes would be much slower.
  obtain ⟨text, htext, hparse⟩ :
      ∃ text, defaultText = String.ofList text ∧ parse? text = some {} := by
    refine ⟨_, rfl, ?_⟩
    decide +kernel
  rw [htext, String.toList_ofList, hparse]

end MetricFormula.Settings
