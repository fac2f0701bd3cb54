import LogicalPlan.Proofs.Derivation.Joins
import LogicalPlan.Proofs.Value.Key

/-!
# Columns of divisions

A division keeps the columns of its left input whose names its right input lacks. It is accepted if
the names of the right input are some of the left ones, but not all of them, so some column is left.
Pairs of rows that are divided by the names of their second components have the columns of the first
ones.

## Implementation notes

Names are compared as values, whatever their aliases and however often they occur, while columns are
kept or dropped one by one. Hence the laws are stated of the names that occur, `Schema.hasName`.
-/

namespace LogicalPlan

open Outcome

variable {span : Option SourceSpan}

/-- Names are properly contained in others if all of them are there, and one of the others is not
among them. -/
theorem properlyContained_iff {names others : List Value} :
    properlyContained names others = true ↔
      (∀ name ∈ names, Schema.hasName others name = true) ∧
        ∃ name ∈ others, Schema.hasName names name = false := by
  simp [properlyContained]

namespace Schema

/-- The columns of the first schema whose names the second one lacks. -/
def quotient (s t : Schema) : Schema :=
  ⟨s.columns.filter fun col => !hasName t.names col.name⟩

@[simp] theorem names_quotient (s t : Schema) :
    (s.quotient t).names = s.names.filter fun name => !hasName t.names name := by
  simp [quotient, names, List.filter_map, Function.comp_def]

/-- A division has a schema exactly if the names can be keys and those of the divisor are properly
contained in those of the dividend. -/
theorem derive_division_eq_ok_iff {s t u : Schema} :
    BinaryOp.division.derive span s t = .ok u ↔
      (t.names.all Value.isHashable && s.names.all Value.isHashable) = true ∧
        properlyContained t.names s.names = true ∧ u = s.quotient t := by
  rw [BinaryOp.derive]
  cases t.names.all Value.isHashable && s.names.all Value.isHashable with
  | false => simp [wrongType]
  | true => cases properlyContained t.names s.names <;> simp [quotient, eq_comm]

/-- What is properly contained leaves a column. -/
theorem quotient_ne_nil {s t : Schema} (h : properlyContained t.names s.names = true) :
    (s.quotient t).columns ≠ [] := by
  obtain ⟨-, name, hname, hlacks⟩ := properlyContained_iff.mp h
  have kept : name ∈ (s.quotient t).names := by simp [hname, hlacks]
  obtain ⟨col, hcol, -⟩ := List.mem_map.mp kept
  exact List.ne_nil_of_mem hcol

/-- Names that count as keys stay keys in whatever form they occur. -/
theorem isHashable_of_hasName {names : List Value} (h : names.all Value.isHashable = true)
    {name : Value} (hname : hasName names name = true) : name.isHashable = true := by
  obtain ⟨other, hother, hsame⟩ := List.any_eq_true.mp hname
  rw [← Value.isHashable_congr hsame]
  exact List.all_eq_true.mp h other hother

section Product

variable {s t v : Schema} (hapart : ∀ name ∈ s.names, hasName t.names name = false)
  (hnames : ∀ name, hasName t.names name = hasName v.names name)

include hapart hnames

/-- The columns of the second factor go, and those of the first one stay. -/
theorem quotient_append : quotient ⟨s.columns ++ t.columns⟩ v = s := by
  have stay : s.columns.filter (fun col => !hasName v.names col.name) = s.columns := by
    apply List.filter_eq_self.mpr
    intro col hcol
    rw [← hnames, hapart col.name (List.mem_map_of_mem hcol)]
    rfl
  have go : t.columns.filter (fun col => !hasName v.names col.name) = [] := by
    apply List.filter_eq_nil_iff.mpr
    intro col hcol
    rw [← hnames, hasName_names_of_mem hcol]
    decide
  rw [quotient, List.filter_append, stay, go, List.append_nil]

/-- The names of the second factor are properly contained in those of the product. -/
theorem properlyContained_append (hs : s.columns ≠ []) :
    properlyContained v.names (names ⟨s.columns ++ t.columns⟩) = true := by
  have parts : names ⟨s.columns ++ t.columns⟩ = s.names ++ t.names := List.map_append
  rw [parts, properlyContained_iff]
  constructor
  · intro name hname
    rw [hasName_append, hnames, hasName_of_mem hname, Bool.or_true]
  · obtain ⟨col, hcol⟩ := List.exists_mem_of_ne_nil s.columns hs
    have first : col.name ∈ s.names := List.mem_map_of_mem hcol
    exact ⟨col.name, List.mem_append_left _ first, by rw [← hnames, hapart col.name first]⟩

/-- A product that passes the check is divided by the names of its second factor. -/
theorem derive_division_concat {u : Schema} (hs : s.columns ≠ []) {at₁ at₂ : Option SourceSpan}
    (h : s.concat t at₁ = .ok u) : BinaryOp.division.derive at₂ u v = .ok s := by
  obtain ⟨rfl, keyed, -⟩ := concat_eq_ok_iff.mp h
  have right : t.names.all Value.isHashable = true :=
    (keyed.sublist (List.sublist_append_right _ _)).names
  have divisor : v.names.all Value.isHashable = true := by
    refine List.all_eq_true.mpr fun name hname => isHashable_of_hasName right ?_
    rw [hnames, hasName_of_mem hname]
  refine derive_division_eq_ok_iff.mpr ⟨?_, ?_, (quotient_append hapart hnames).symm⟩
  · rw [divisor, keyed.names]
    rfl
  · exact properlyContained_append hapart hnames hs

end Product

end Schema

namespace Plan

/-- If no name of the first factor of a cross join occurs in the second one, dividing the join by
an input with the names of the second factor gives the schema of the first one. Whatever a division
leaves, it leaves some column, and its names are those of the left input, in their order, that do
not occur in the right one. -/
theorem division_cross :
    (∀ (p q r : Plan) (s t v : Schema) (outer inner : Notes),
      p.schema = .ok s → q.schema = .ok t → r.schema = .ok v →
      s.columns ≠ [] → (∀ name ∈ s.names, Schema.hasName t.names name = false) →
      (∀ name, Schema.hasName t.names name = Schema.hasName v.names name) →
      (binary inner .cross p q).Derives →
        (binary outer .division (binary inner .cross p q) r).schema = .ok s) ∧
    ∀ (left right : Plan) (notes : Notes) (u : Schema),
      (binary notes .division left right).schema = .ok u →
        ∃ s t, left.schema = .ok s ∧ right.schema = .ok t ∧ u.columns ≠ [] ∧
          u.names = s.names.filter fun name => !Schema.hasName t.names name := by
  constructor
  · rintro p q r s t v outer inner hp hq hr hs hapart hnames ⟨u, hu⟩
    obtain ⟨s', t', hp', hq', hconcat⟩ := schema_binary_eq_ok_iff.mp hu
    cases hp.symm.trans hp'
    cases hq.symm.trans hq'
    apply schema_binary_eq_ok_iff.mpr
    exact ⟨u, v, hu, hr, Schema.derive_division_concat hapart hnames hs hconcat⟩
  · intro left right notes u h
    obtain ⟨s, t, hs, ht, h⟩ := schema_binary_eq_ok_iff.mp h
    obtain ⟨-, contained, rfl⟩ := Schema.derive_division_eq_ok_iff.mp h
    exact ⟨s, t, hs, ht, Schema.quotient_ne_nil contained, Schema.names_quotient s t⟩

namespace Sample

/-- The relation of the given name with its column renamed to `b`. -/
def relabelled (name : String) : Plan :=
  .unary {} (.renameColumns [⟨.string "b", ⟨.string "a", .null⟩⟩]) (relation name)

/-- Pairs of rows, with the columns `R.a` and `S.b`. -/
def product : Plan :=
  .binary {} .cross (relation "R") (relabelled "S")

/-- A divisor that has the name `b` twice, in the columns `T.b` and `U.b`. -/
def divisor : Plan :=
  .binary {} .cross (relabelled "T") (relabelled "U")

/-- The pairs are divided by both columns `b` at once, and the column `R.a` is left. -/
theorem division_cross_repeated :
    product.Derives ∧ ∃ s, (relation "R").schema = .ok s ∧
      (binary {} .division product divisor).schema = .ok s ∧ s.columns ≠ [] := by
  have derives : product.Derives := ⟨_, rfl⟩
  have divided := division_cross.1 (relation "R") (relabelled "S") divisor _ _ _ {} {} rfl rfl rfl
    (by decide) (by decide)
    (fun name => by simp [Schema.hasName, Schema.names, SchemaColumn.renamed]) derives
  obtain ⟨_, _, -, -, nonempty, -⟩ := division_cross.2 product divisor {} _ divided
  exact ⟨derives, _, rfl, divided, nonempty⟩

end Sample

end Plan

end LogicalPlan
