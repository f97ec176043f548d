import Mathlib.Data.List.Basic
import Mathlib.Data.List.Induction
import MetricFormula.Catalog
import MetricFormula.Proofs.Outcome

/-!
# Metrics that a catalog does not offer

A catalog lists its metrics in any order, an id may stand there more than once, and an entry for
pickers stands for none. All that counts is which ids stand there. The check of a calculation goes
through its metrics from left to right and takes down each id that the catalog does not offer, where
it sees it first.

## Main definitions

* `Catalog.Offers`: a metric with the id can be selected;
* `Catalog.Collects`: a list of the unknown ids among some ids.

## Main results

* `Catalog.contains_iff_offers`: looking up the first entry of an id is enough;
* `Catalog.Collects.addUnknown`, `Catalog.collects_foldl`: what one more id and what all ids add;
* `Catalog.check_reports_unknown`: what the check of a calculation says.
-/

namespace MetricFormula

namespace Catalog

/-! ## Offers -/

/-- The id is that of an entry, and not the one that selects nothing. -/
def Offers (catalog : Catalog) (id : String) : Prop :=
  id ∈ catalog.metrics.map Metric.id ∧ id ≠ Metric.placeholderId

instance (catalog : Catalog) (id : String) : Decidable (catalog.Offers id) :=
  inferInstanceAs (Decidable (_ ∧ _))

variable {catalog other : Catalog} {id : String}

/-- Entries of one id can all be selected or none of them can, so the first one decides. -/
theorem contains_iff_offers : catalog.contains id ↔ catalog.Offers id := by
  rw [contains, get?, Offers, List.mem_map]
  rcases hfind : catalog.metrics.find? (·.id == id) with _ | metric
  · rw [hfind]
    refine iff_of_false Bool.false_ne_true ?_
    rintro ⟨⟨metric, hmem, hid⟩, -⟩
    exact List.find?_eq_none.1 hfind metric hmem (beq_iff_eq.2 hid)
  · have hmatch := List.find?_some hfind
    have hid : metric.id = id := beq_iff_eq.1 hmatch
    rw [hfind, Option.any_some, Metric.isSelectable, bne_iff_ne, hid]
    exact (and_iff_right ⟨metric, List.mem_of_find?_eq_some hfind, hid⟩).symm

/-- The ids that are offered are those of the entries that can be selected. -/
theorem mem_selectable_iff_offers : id ∈ catalog.selectable.map Metric.id ↔ catalog.Offers id := by
  simp only [selectable, Offers, List.mem_map, List.mem_filter, Metric.isSelectable, bne_iff_ne]
  constructor
  · rintro ⟨metric, ⟨hmem, hne⟩, rfl⟩
    exact ⟨⟨metric, hmem, rfl⟩, hne⟩
  · rintro ⟨⟨metric, hmem, rfl⟩, hne⟩
    exact ⟨metric, ⟨hmem, hne⟩, rfl⟩

/-! ## Unknown ids -/

/-- A list of all ids among `ids` that the catalog does not offer, each once, in the order in which
they occur first. -/
structure Collects (catalog : Catalog) (ids unknown : List String) : Prop where
  /-- Exactly these ids are listed. -/
  mem_iff : ∀ id, id ∈ unknown ↔ id ∈ ids ∧ ¬catalog.Offers id
  /-- They are listed by their first occurrence. -/
  inOrder : unknown.Pairwise fun first second => ids.idxOf first < ids.idxOf second

/-- No id is listed twice. -/
theorem Collects.nodup {ids unknown : List String} (h : catalog.Collects ids unknown) :
    unknown.Nodup := by
  refine h.inOrder.imp ?_
  rintro first second hlt rfl
  exact Nat.lt_irrefl _ hlt

/-- One more id is listed at the end unless it is offered or listed already. -/
theorem Collects.addUnknown {ids unknown : List String} (h : catalog.Collects ids unknown)
    (id : String) : catalog.Collects (ids ++ [id]) (catalog.addUnknown unknown id) := by
  -- What is listed occurs among the ids before, and so at the same place.
  have hold : unknown.Pairwise fun first second =>
      (ids ++ [id]).idxOf first < (ids ++ [id]).idxOf second := by
    refine h.inOrder.imp_of_mem fun {first second} hfirst hsecond hlt => ?_
    rwa [List.idxOf_append_of_mem ((h.mem_iff first).1 hfirst).1,
      List.idxOf_append_of_mem ((h.mem_iff second).1 hsecond).1]
  rw [Catalog.addUnknown]
  split
  next hknown =>
    rw [Bool.or_eq_true, contains_iff_offers, List.contains_iff_mem, h.mem_iff] at hknown
    refine ⟨fun id' => ?_, hold⟩
    rw [h.mem_iff, List.mem_append, List.mem_singleton]
    constructor
    · exact fun ⟨hmem, hnot⟩ => ⟨.inl hmem, hnot⟩
    · rintro ⟨hmem | rfl, hnot⟩
      · exact ⟨hmem, hnot⟩
      · exact hknown.resolve_left hnot
  next hunknown =>
    rw [Bool.or_eq_true, contains_iff_offers, List.contains_iff_mem, not_or] at hunknown
    obtain ⟨hnot, hlisted⟩ := hunknown
    have hnew : id ∉ ids := fun hmem => hlisted ((h.mem_iff id).2 ⟨hmem, hnot⟩)
    refine ⟨fun id' => ?_, List.pairwise_append.2 ⟨hold, List.pairwise_singleton _ _, ?_⟩⟩
    · rw [List.mem_append, List.mem_append, List.mem_singleton, h.mem_iff]
      constructor
      · rintro (⟨hmem, hnot'⟩ | rfl)
        · exact ⟨.inl hmem, hnot'⟩
        · exact ⟨.inr rfl, hnot⟩
      · rintro ⟨hmem | rfl, hnot'⟩
        · exact .inl ⟨hmem, hnot'⟩
        · exact .inr rfl
    · -- The new id occurs behind everything that occurred before.
      intro first hfirst second hsecond
      obtain rfl := List.mem_singleton.1 hsecond
      have hmem := ((h.mem_iff first).1 hfirst).1
      rw [List.idxOf_append_of_mem hmem, List.idxOf_append_of_notMem hnew]
      exact Nat.lt_of_lt_of_le (List.idxOf_lt_length_of_mem hmem) (Nat.le_add_right _ _)

/-- Going through ids from left to right lists the unknown ones. -/
theorem collects_foldl (catalog : Catalog) (ids : List String) :
    catalog.Collects ids (ids.foldl catalog.addUnknown []) := by
  induction ids using List.reverseRecOn with
  | nil => exact ⟨by simp, .nil⟩
  | append_singleton ids id ih =>
    rw [List.foldl_append]
    exact ih.addUnknown id

/-- The check of a calculation passes if no id is unknown, and otherwise tells the unknown ones. -/
theorem check_eq (catalog : Catalog) (t : Calculation) :
    catalog.check t =
      if catalog.unknownIds t = [] then .ok ()
      else .error (.unknownMetrics (catalog.unknownIds t)) := by
  rw [check]
  split
  next hnil => rw [if_pos hnil]
  next hne => rw [if_neg hne]

/-- A calculation passes exactly if the catalog offers all its metrics. -/
theorem check_eq_ok_iff {t : Calculation} :
    catalog.check t = .ok () ↔ ∀ id ∈ t.metricIds, catalog.Offers id := by
  have hcollects := catalog.collects_foldl t.metricIds
  rw [check_eq]
  split
  next hnil =>
    refine iff_of_true rfl fun id hid => ?_
    by_contra hnot
    have hmem : id ∈ catalog.unknownIds t := (hcollects.mem_iff id).2 ⟨hid, hnot⟩
    rw [hnil] at hmem
    exact List.not_mem_nil hmem
  next hne =>
    refine iff_of_false nofun fun hall => ?_
    obtain ⟨id, hid⟩ := List.exists_mem_of_ne_nil _ hne
    obtain ⟨hmem, hnot⟩ := (hcollects.mem_iff id).1 hid
    exact hnot (hall id hmem)

/-- Whether ids are offered depends on the set of the ids of a catalog, and so does what it
lists. -/
theorem unknownIds_congr
    (h : ∀ id, id ∈ catalog.metrics.map Metric.id ↔ id ∈ other.metrics.map Metric.id)
    (t : Calculation) : catalog.unknownIds t = other.unknownIds t := by
  have hcontains : catalog.contains = other.contains := by
    funext id
    rw [Bool.eq_iff_iff, contains_iff_offers, contains_iff_offers]
    exact and_congr_left' (h id)
  have hadd : catalog.addUnknown = other.addUnknown := by
    funext unknown id
    rw [Catalog.addUnknown, Catalog.addUnknown, hcontains]
  rw [unknownIds, unknownIds, hadd]

/-- The check of a calculation passes exactly if each of its metrics is the id of an entry other
than the one that selects nothing. Otherwise it tells the ids of which this is not true, each once,
in the order in which they occur first. An id is found exactly if it is that of an entry that can be
selected, and catalogs with the same set of ids give the same answer. -/
theorem check_reports_unknown (catalog : Catalog) (t : Calculation) :
    (catalog.check t = .ok () ↔ ∀ id ∈ t.metricIds, catalog.Offers id) ∧
    (catalog.check t ≠ .ok () → ∃ unknown, catalog.check t = .error (.unknownMetrics unknown) ∧
      unknown.Nodup ∧ (∀ id, id ∈ unknown ↔ id ∈ t.metricIds ∧ ¬catalog.Offers id) ∧
      unknown.Pairwise fun first second =>
        t.metricIds.idxOf first < t.metricIds.idxOf second) ∧
    (∀ id, catalog.contains id ↔ id ∈ catalog.selectable.map Metric.id) ∧
    ∀ other : Catalog,
      (∀ id, id ∈ catalog.metrics.map Metric.id ↔ id ∈ other.metrics.map Metric.id) →
      catalog.check t = other.check t := by
  refine ⟨check_eq_ok_iff, fun hrefused => ?_, fun id => ?_, fun other hids => ?_⟩
  · have hcollects := catalog.collects_foldl t.metricIds
    refine ⟨catalog.unknownIds t, ?_, hcollects.nodup, hcollects.mem_iff, hcollects.inOrder⟩
    rw [check_eq] at hrefused ⊢
    exact if_neg fun hnil => hrefused (if_pos hnil)
  · exact contains_iff_offers.trans mem_selectable_iff_offers.symm
  · rw [check_eq, check_eq, unknownIds_congr hids]

/-- An unknown metric is told once, and the entry that selects nothing is unknown too, whether the
catalog lists an id twice or in another order. -/
theorem check_reports_unknown_placeholder :
    let catalog : Catalog := ⟨[⟨"-1", "Select"⟩, ⟨"calls", "Calls"⟩, ⟨"calls", "Handled"⟩]⟩
    let other : Catalog := ⟨[⟨"calls", "Calls"⟩, ⟨"-1", "None"⟩]⟩
    let t := Calculation.arithmetic .add
      (.arithmetic .divide (.metric "churn") (.aggregate .count "calls"))
      (.arithmetic .multiply (.aggregate .average "-1") (.aggregate .sum "churn"))
    (∃ unknown, catalog.check t = .error (.unknownMetrics unknown) ∧ unknown.Nodup ∧
      "churn" ∈ unknown ∧ "-1" ∈ unknown ∧ "calls" ∉ unknown) ∧
      other.check t = .error (.unknownMetrics ["churn", "-1"]) := by
  intro catalog other t
  have hids : ∀ id, id ∈ catalog.metrics.map Metric.id ↔ id ∈ other.metrics.map Metric.id := by
    simp [catalog, other, or_comm]
  have hcheck : catalog.check t = .error (.unknownMetrics ["churn", "-1"]) := by decide
  have hrefused : catalog.check t ≠ .ok () := by decide
  obtain ⟨unknown, htold, hnodup, hmem, -⟩ := (check_reports_unknown catalog t).2.1 hrefused
  refine ⟨⟨unknown, htold, hnodup, ?_, ?_, ?_⟩, ?_⟩
  · exact (hmem "churn").2 (by decide)
  · exact (hmem "-1").2 (by decide)
  · exact fun hcalls => ((hmem "calls").1 hcalls).2 (by decide)
  · exact ((check_reports_unknown catalog t).2.2.2 other hids).symm.trans hcheck

end Catalog

end MetricFormula
