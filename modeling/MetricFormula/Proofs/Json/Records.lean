import Mathlib.Data.List.Basic
import MetricFormula.Json.Record
import MetricFormula.Proofs.Json.Numbers
import MetricFormula.Proofs.Number.Overflow

/-!
# Members of records

A record is looked up by the names of its fields, so what it says does not depend on the order of
its members, nor on members of other names. These members count only where a document is read as a
whole: then all of its strings have to be texts, all of its numbers finite, and its depth limited,
and an object is like that if each of its members is.

## Main definitions

* `Document.isReadable`: what documents are read as a whole.

## Main results

* `Document.isReadable_object_iff`: the objects that are read as a whole;
* `Document.uniqueValue?_perm`, `Document.uniqueValue?_append`: the only value of a name;
* `Document.fieldsOfMembers?_congr`: what the fields of a record depend on;
* `NumberLiteral.value?_ofNat`: an index is a finite number.
-/

namespace MetricFormula.Json

/-! ## Indices -/

namespace NumberLiteral

/-- An index is a finite number. -/
theorem value?_ofNat {n : Nat} (h : n < UInt64.size) : (ofNat n).value?.isSome := by
  rw [ofNat, value?_of_lt_size false h, Option.isSome_map, Option.isSome_iff_ne_none,
    Magnitude.ofNat?, ne_eq, Magnitude.ofRatio?_eq_none_iff Nat.one_pos, Nat.mul_one, Nat.not_le]
  have hthreshold : UInt64.size ≤ overflowThreshold := by decide +kernel
  exact Nat.lt_of_lt_of_le h hthreshold

/-- A number below `2 ^ 64` is read as an index. -/
theorem toIndex?_ofNat {n : Nat} (h : n < UInt64.size) : (ofNat n).toIndex? = some n :=
  if_pos (decide_eq_true h)

end NumberLiteral

namespace Document

/-! ## Documents that are read as a whole -/

/-- Strings are texts, numbers are finite, and the depth is within the limit. -/
def isReadable (document : Document) : Bool :=
  document.isWellFormed && decide (document.depth ≤ depthLimit)

/-- The value may stand in an object that is read as a whole. -/
def IsReadableInside (value : Document) : Prop :=
  value.isWellFormed ∧ value.depth < depthLimit

theorem depthLimit_pos : 0 < depthLimit := by
  decide

/-- A text may stand in an object that is read as a whole. -/
theorem isReadableInside_text (value : String) : IsReadableInside (text value) :=
  ⟨rfl, depthLimit_pos⟩

/-- So may an index. -/
theorem isReadableInside_nat {n : Nat} (h : n < UInt64.size) : IsReadableInside (nat n) := by
  refine ⟨?_, depthLimit_pos⟩
  rw [nat, isWellFormed, NumberLiteral.value?_ofNat h]

variable {members others : List (Option String × Document)}

/-- Members are well-formed if each name is a text and each value is well-formed. -/
theorem areMembersWellFormed_iff :
    areMembersWellFormed members ↔ ∀ member ∈ members, member.1.isSome ∧ member.2.isWellFormed := by
  induction members with
  | nil => exact iff_of_true rfl (List.forall_mem_nil _)
  | cons member members ih =>
    rw [areMembersWellFormed, Bool.and_eq_true, Bool.and_eq_true, ih, List.forall_mem_cons]

/-- Members nest below a bound if each value does. -/
theorem depthOfMembers_lt_iff {n : Nat} (hn : 0 < n) :
    depthOfMembers members < n ↔ ∀ member ∈ members, member.2.depth < n := by
  induction members with
  | nil => exact iff_of_true hn (List.forall_mem_nil _)
  | cons member members ih => rw [depthOfMembers, Nat.max_lt, ih, List.forall_mem_cons]

/-- An object is read as a whole if each of its members is. -/
theorem isReadable_object_iff :
    (object members).isReadable ↔
      ∀ member ∈ members, member.1.isSome ∧ IsReadableInside member.2 := by
  rw [isReadable, Bool.and_eq_true, decide_eq_true_iff, isWellFormed, areMembersWellFormed_iff,
    depth, Nat.succ_le_iff, depthOfMembers_lt_iff depthLimit_pos, ← forall₂_and]
  simp only [IsReadableInside, and_assoc]

/-- The names of a record are texts, so only its values matter. -/
theorem isReadable_record {members : List (String × Document)}
    (h : ∀ member ∈ members, IsReadableInside member.2) :
    (record members).isReadable := by
  refine isReadable_object_iff.2 fun member hmember => ?_
  obtain ⟨written, hwritten, rfl⟩ := List.mem_map.1 hmember
  exact ⟨rfl, h written hwritten⟩

/-- The order of members does not matter for that. -/
theorem isReadable_object_perm (h : members.Perm others) :
    (object members).isReadable = (object others).isReadable := by
  rw [Bool.eq_iff_iff, isReadable_object_iff, isReadable_object_iff]
  exact forall_congr' fun member => imp_congr_left h.mem_iff

/-- An object is read as a whole if the objects of its parts are. -/
theorem isReadable_object_append :
    (object (members ++ others)).isReadable ↔
      (object members).isReadable ∧ (object others).isReadable := by
  rw [isReadable_object_iff, isReadable_object_iff, isReadable_object_iff, List.forall_mem_append]

/-- The names of the members of such an object are texts. -/
theorem exists_names? (h : (object members).isReadable) : ∃ names, names? members = some names := by
  rw [isReadable_object_iff] at h
  induction members with
  | nil => exact ⟨[], rfl⟩
  | cons member members ih =>
    obtain ⟨hmember, hmembers⟩ := List.forall_mem_cons.1 h
    obtain ⟨name, hname⟩ := Option.isSome_iff_exists.1 hmember.1
    obtain ⟨names, hnames⟩ := ih hmembers
    refine ⟨name :: names, ?_⟩
    rw [names?] at hnames
    rw [names?, List.mapM_cons, hname, hnames]
    rfl

/-! ## Members by name -/

/-- The values of a name are those in one part and those in the other. -/
theorem valuesOf_append (name : String) :
    valuesOf name (members ++ others) = valuesOf name members ++ valuesOf name others :=
  List.filterMap_append

/-- A name that no member has is without values. -/
theorem valuesOf_eq_nil {name : String} (h : ∀ member ∈ members, member.1 ≠ some name) :
    valuesOf name members = [] :=
  List.filterMap_eq_nil_iff.2 fun member hmember => if_neg (h member hmember)

/-- The only value of a name does not depend on the order of members. -/
theorem uniqueValue?_perm (h : members.Perm others) (name : String) :
    uniqueValue? members name = uniqueValue? others name := by
  have hvalues : (valuesOf name members).Perm (valuesOf name others) := h.filterMap _
  unfold uniqueValue?
  rcases hmembers : valuesOf name members with _ | ⟨value, _ | ⟨next, rest⟩⟩
  · rw [hmembers] at hvalues
    rw [List.nil_perm.1 hvalues]
  · rw [hmembers] at hvalues
    rw [List.singleton_perm.1 hvalues]
  · -- Several values are several values in any order.
    rw [hmembers] at hvalues
    rcases hothers : valuesOf name others with _ | ⟨value', _ | ⟨next', rest'⟩⟩
    · rw [hothers] at hvalues
      cases hvalues.eq_nil
    · rw [hothers] at hvalues
      cases hvalues.eq_singleton
    · rfl

/-- Members of other names do not count. -/
theorem uniqueValue?_append {name : String} (h : ∀ member ∈ others, member.1 ≠ some name) :
    uniqueValue? (members ++ others) name = uniqueValue? members name := by
  rw [uniqueValue?, valuesOf_append, valuesOf_eq_nil h, List.append_nil, uniqueValue?]

/-- The fields of a record depend on the only values of their names. -/
theorem fieldsOfMembers?_congr {fields : List String} (hmembers : (object members).isReadable)
    (hothers : (object others).isReadable)
    (h : ∀ field ∈ fields, uniqueValue? members field = uniqueValue? others field) :
    fieldsOfMembers? fields members = fieldsOfMembers? fields others := by
  obtain ⟨names, hnames⟩ := exists_names? hmembers
  obtain ⟨names', hnames'⟩ := exists_names? hothers
  rw [fieldsOfMembers?, fieldsOfMembers?, hnames, hnames']
  show fields.mapM (uniqueValue? members) = fields.mapM (uniqueValue? others)
  induction fields with
  | nil => rfl
  | cons field fields ih =>
    obtain ⟨hfield, hfields⟩ := List.forall_mem_cons.1 h
    rw [List.mapM_cons, List.mapM_cons, hfield, ih hfields]

end Document

end MetricFormula.Json
