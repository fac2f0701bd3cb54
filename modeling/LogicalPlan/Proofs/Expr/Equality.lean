import LogicalPlan.Expr.Basic
import LogicalPlan.Proofs.Value.Key
import LogicalPlan.Schema

/-!
# Equality of schemas and expressions

Positions, columns, schemas and expressions are equal part by part. Normal forms decide this as they
do for values, and what tells expressions apart as keys is determined by their normal forms.
-/

namespace LogicalPlan

/-! ### Deciding equality -/

/-- Normal forms decide the equality of proper things. -/
def Decides {α : Type} (normal : α → α) (proper : α → Prop) (equals : α → α → Prop) : Prop :=
  ∀ a b, proper a → proper b → (normal a = normal b ↔ equals a b)

namespace Decides

variable {α : Type} {normal : α → α} {proper : α → Prop} {equals : α → α → Prop}

theorem list (h : Decides normal proper equals) :
    Decides (List.map normal) (fun as => ∀ a ∈ as, proper a) (List.Forall₂ equals) := by
  intro as bs has hbs
  induction as generalizing bs with
  | nil => cases bs <;> simp
  | cons a as ih =>
      cases bs with
      | nil => simp
      | cons b bs =>
          rw [List.forall_mem_cons] at has hbs
          rw [List.map_cons, List.map_cons, List.cons.injEq, List.forall₂_cons,
            h a b has.1 hbs.1, ih bs has.2 hbs.2]

theorem option (h : Decides normal proper equals) :
    Decides (Option.map normal) (fun a => ∀ x ∈ a, proper x) (Option.Rel equals) := by
  intro a b ha hb
  cases a with
  | none => cases b <;> simp
  | some a =>
      cases b with
      | none => simp
      | some b => simp [h a b (ha a rfl) (hb b rfl)]

end Decides

theorem Value.decides : Decides normal IsProper Equals :=
  fun _ _ => normal_eq_iff

/-! ### Positions -/

namespace SourcePoint

/-- All values in the point are proper. -/
def IsProper (p : SourcePoint) : Prop :=
  p.offset.IsProper ∧ p.line.IsProper ∧ p.column.IsProper

/-- The points are equal part by part. -/
def Equals (p q : SourcePoint) : Prop :=
  p.offset.Equals q.offset ∧ p.line.Equals q.line ∧ p.column.Equals q.column

theorem decides : Decides normal IsProper Equals := by
  rintro p q ⟨hoffset, hline, hcolumn⟩ ⟨hoffset', hline', hcolumn'⟩
  rw [normal, normal, mk.injEq, Value.normal_eq_iff hoffset hoffset',
    Value.normal_eq_iff hline hline', Value.normal_eq_iff hcolumn hcolumn', Equals]

end SourcePoint

namespace SourceSpan

/-- All values in the span are proper. -/
def IsProper (s : SourceSpan) : Prop :=
  s.text.IsProper ∧ s.start.IsProper ∧ s.stop.IsProper

/-- The spans are equal part by part. -/
def Equals (s t : SourceSpan) : Prop :=
  s.text.Equals t.text ∧ s.start.Equals t.start ∧ s.stop.Equals t.stop

theorem decides : Decides normal IsProper Equals := by
  rintro s t ⟨htext, hstart, hstop⟩ ⟨htext', hstart', hstop'⟩
  rw [normal, normal, mk.injEq, Value.normal_eq_iff htext htext',
    SourcePoint.decides _ _ hstart hstart', SourcePoint.decides _ _ hstop hstop', Equals]

end SourceSpan

namespace Origin

/-- All values in the origin are proper. -/
def IsProper (o : Origin) : Prop :=
  ∀ s ∈ o.span, s.IsProper

/-- The origins are equal part by part. -/
def Equals (o o' : Origin) : Prop :=
  Option.Rel SourceSpan.Equals o.span o'.span ∧ o.parenthesized = o'.parenthesized

theorem decides : Decides normal IsProper Equals := by
  intro o o' h h'
  rw [normal, normal, mk.injEq, SourceSpan.decides.option _ _ h h', Equals]

end Origin

/-! ### Columns -/

namespace Column

/-- Name and alias are proper. -/
def IsProper (c : Column) : Prop :=
  c.name.IsProper ∧ c.relAlias.IsProper

/-- Names and aliases are equal. -/
def Equals (c d : Column) : Prop :=
  c.name.Equals d.name ∧ c.relAlias.Equals d.relAlias

theorem decides : Decides normal IsProper Equals := by
  rintro c d ⟨hname, halias⟩ ⟨hname', halias'⟩
  rw [normal, normal, mk.injEq, Value.normal_eq_iff hname hname',
    Value.normal_eq_iff halias halias', Equals]

end Column

namespace SchemaColumn

/-- Name, alias and type are proper. -/
def IsProper (c : SchemaColumn) : Prop :=
  c.name.IsProper ∧ c.relAlias.IsProper ∧ c.type.IsProper

/-- Names, aliases and types are equal. -/
def Equals (c d : SchemaColumn) : Prop :=
  c.name.Equals d.name ∧ c.relAlias.Equals d.relAlias ∧ c.type.Equals d.type

theorem decides : Decides normal IsProper Equals := by
  rintro c d ⟨hname, halias, htype⟩ ⟨hname', halias', htype'⟩
  rw [normal, normal, mk.injEq, Value.normal_eq_iff hname hname',
    Value.normal_eq_iff halias halias', Value.normal_eq_iff htype htype', Equals]

end SchemaColumn

namespace Schema

/-- All columns are proper. -/
def IsProper (s : Schema) : Prop :=
  ∀ c ∈ s.columns, c.IsProper

/-- The columns are equal one by one. -/
def Equals (s t : Schema) : Prop :=
  List.Forall₂ SchemaColumn.Equals s.columns t.columns

theorem decides : Decides normal IsProper Equals := by
  intro s t h h'
  rw [normal, normal, mk.injEq, SchemaColumn.decides.list _ _ h h', Equals]

end Schema

/-! ### Expressions -/

namespace Expr

mutual

/-- All values in the expression are proper. -/
def IsProper : Expr → Prop
  | .column origin c => origin.IsProper ∧ c.IsProper
  | .apply origin datatype func args =>
    origin.IsProper ∧ datatype.IsProper ∧ func.IsProper ∧ AreProper args

/-- All values in the argument are proper. -/
def IsProperArgument : Argument → Prop
  | .literal v => v.IsProper
  | .nested e => IsProper e

/-- All values in the arguments are proper. -/
def AreProper : List Argument → Prop
  | [] => True
  | a :: as => IsProperArgument a ∧ AreProper as

end

mutual

/-- The expressions are of one kind and equal part by part, with positions and parentheses. -/
def Equals : Expr → Expr → Prop
  | .column origin c, .column origin' c' => origin.Equals origin' ∧ c.Equals c'
  | .apply origin datatype func args, .apply origin' datatype' func' args' =>
    origin.Equals origin' ∧ datatype.Equals datatype' ∧ func.Equals func' ∧ AreEqual args args'
  | _, _ => False

/-- The arguments are equal literals or equal expressions. -/
def EqualsArgument : Argument → Argument → Prop
  | .literal v, .literal w => v.Equals w
  | .nested e, .nested f => Equals e f
  | _, _ => False

/-- The arguments are equal one by one. -/
def AreEqual : List Argument → List Argument → Prop
  | [], [] => True
  | a :: as, b :: bs => EqualsArgument a b ∧ AreEqual as bs
  | _, _ => False

end

mutual

theorem normal_eq_iff : ∀ {e f : Expr}, e.IsProper → f.IsProper →
    (e.normal = f.normal ↔ e.Equals f)
  | .column origin c, .column origin' c', he, hf => by
      rw [normal, normal, Equals, column.injEq, Origin.decides _ _ he.1 hf.1,
        Column.decides _ _ he.2 hf.2]
  | .apply origin datatype func args, .apply origin' datatype' func' args', he, hf => by
      obtain ⟨horigin, hdatatype, hfunc, hargs⟩ := he
      obtain ⟨horigin', hdatatype', hfunc', hargs'⟩ := hf
      rw [normal, normal, Equals, apply.injEq, Origin.decides _ _ horigin horigin',
        Value.normal_eq_iff hdatatype hdatatype', Value.normal_eq_iff hfunc hfunc',
        normalArguments_eq_iff hargs hargs']
  | .column _ _, .apply _ _ _ _, _, _ => by simp [normal, Equals]
  | .apply _ _ _ _, .column _ _, _, _ => by simp [normal, Equals]

theorem normalArgument_eq_iff : ∀ {a b : Argument}, IsProperArgument a → IsProperArgument b →
    (normalArgument a = normalArgument b ↔ EqualsArgument a b)
  | .literal v, .literal w, ha, hb => by
      rw [normalArgument, normalArgument, EqualsArgument, Argument.literal.injEq,
        Value.normal_eq_iff ha hb]
  | .nested e, .nested f, ha, hb => by
      rw [normalArgument, normalArgument, EqualsArgument, Argument.nested.injEq,
        normal_eq_iff ha hb]
  | .literal _, .nested _, _, _ => by simp [normalArgument, EqualsArgument]
  | .nested _, .literal _, _, _ => by simp [normalArgument, EqualsArgument]

theorem normalArguments_eq_iff : ∀ {as bs : List Argument}, AreProper as → AreProper bs →
    (normalArguments as = normalArguments bs ↔ AreEqual as bs)
  | [], [], _, _ => by simp [normalArguments, AreEqual]
  | [], _ :: _, _, _ => by simp [normalArguments, AreEqual]
  | _ :: _, [], _, _ => by simp [normalArguments, AreEqual]
  | _ :: _, _ :: _, has, hbs => by
      rw [normalArguments, normalArguments, AreEqual, List.cons.injEq,
        normalArgument_eq_iff has.1 hbs.1, normalArguments_eq_iff has.2 hbs.2]

end

theorem decides : Decides normal IsProper Equals :=
  fun _ _ => normal_eq_iff

end Expr

end LogicalPlan
