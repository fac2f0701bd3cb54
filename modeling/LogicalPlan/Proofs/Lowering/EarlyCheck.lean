import LogicalPlan.Proofs.Derivation.Placement
import LogicalPlan.Proofs.Lowering.Shape
import LogicalPlan.Proofs.Query.WellFormed

/-!
# Early checks

Checking schemas during the lowering of SQL only rejects faulty queries earlier. A plan that passes
with checks is the plan made without them, and a plan that has a schema in the end passes all checks
on the way: every plan that was checked is an input of the finished one, up to the notes at its
root.
-/

namespace LogicalPlan

open Outcome

/-- The settings with the schema checks turned on or off. -/
def Settings.checking (settings : Settings) (on : Bool) : Settings :=
  { settings with checkSchemas := on }

namespace Query

/-- The first outcome differs from the second one at most by rejecting plans without a schema. -/
def Earlier (checked unchecked : Outcome Plan) : Prop :=
  (∀ p, checked = .ok p → unchecked = .ok p) ∧
    ∀ p, unchecked = .ok p → p.Derives → checked = .ok p

theorem Earlier.refl (x : Outcome Plan) : Earlier x x :=
  ⟨fun _ h => h, fun _ h _ => h⟩

/-- Rejecting earlier is kept by all later steps that need a schema below for a schema above. -/
theorem Earlier.bind {x y : Outcome Plan} {f g : Plan → Outcome Plan} (h : Earlier x y)
    (hf : ∀ p, Earlier (f p) (g p)) (hg : ∀ p q, g p = .ok q → q.Derives → p.Derives) :
    Earlier (x >>= f) (y >>= g) := by
  constructor
  · intro q hq
    obtain ⟨p, hp, hq⟩ := bind_eq_ok.mp hq
    exact bind_eq_ok.mpr ⟨p, h.1 p hp, (hf p).1 q hq⟩
  · intro q hq hd
    obtain ⟨p, hp, hq⟩ := bind_eq_ok.mp hq
    exact bind_eq_ok.mpr ⟨p, h.2 p hp (hg p q hq hd), (hf p).2 q hq hd⟩

theorem Earlier.after {α : Type} (z : Outcome α) {f g : α → Outcome Plan}
    (h : ∀ a, Earlier (f a) (g a)) : Earlier (z >>= f) (z >>= g) := by
  cases z with
  | error fault => exact .refl _
  | ok a => exact h a

/-- A check rejects earlier what comes after it, if it asks for a schema that is needed anyway. -/
theorem Earlier.check {p : Plan} {x y : Outcome Plan} (h : Earlier x y)
    (hy : ∀ q, y = .ok q → q.Derives → p.Derives) : Earlier (p.check >>= fun _ => x) y := by
  constructor
  · intro q hq
    obtain ⟨_, -, hq⟩ := bind_eq_ok.mp hq
    exact h.1 q hq
  · intro q hq hd
    exact bind_eq_ok.mpr ⟨(), Plan.check_eq_ok.mpr (hy q hq hd), h.2 q hq hd⟩

theorem derives_of_annotate {p q : Plan} {kind : String} {origin : Origin} {metadata : Members}
    (h : p.annotate kind origin metadata none = .ok q) : q.Derives ↔ p.Derives := by
  obtain ⟨span, -, h⟩ := bind_eq_ok.mp h
  cases h
  exact Plan.derives_withNotes

/-- Stages need a schema of the plan that they get. -/
theorem Applied.derives {stages : List Stage} {p q : Plan} (h : Applied stages p q)
    (hq : q.Derives) : p.Derives := by
  induction h with
  | nil p => exact hq
  | keep hmade rest ih => exact ih hq
  | put hmade hspan rest ih => exact (Plan.derives_withNotes.mp (ih hq)).input

theorem Stage.derives_of_run {settings : Settings} {p q : Plan} {stage : Stage}
    (h : stage.run settings p = .ok q) (hq : q.Derives) : p.Derives := by
  have single : [stage].foldlM (Stage.run settings) p = .ok q := by
    rw [List.foldlM_cons, h]
    rfl
  exact (applied_of_foldlM single).derives hq

variable (settings : Settings)

/-- With checks a stage rejects earlier, and changes nothing else. -/
theorem Stage.run_earlier (p : Plan) (stage : Stage) :
    Earlier (stage.run (settings.checking true) p) (stage.run (settings.checking false) p) := by
  have unchecked : stage.check (settings.checking false) p = .ok () := stage.check_eq_ok rfl p
  have eq_unchecked : stage.run (settings.checking true) p =
      stage.check (settings.checking true) p >>=
        fun _ => stage.run (settings.checking false) p := by
    unfold Stage.run
    rw [unchecked, ok_bind]
    rfl
  rw [eq_unchecked]
  cases h : stage.checked with
  | false =>
      simp only [Stage.check, h, Bool.false_eq_true, if_false, ok_bind]
      exact .refl _
  | true =>
      simp only [Stage.check, h, if_true]
      exact (Earlier.refl _).check fun q => Stage.derives_of_run

theorem Stage.foldlM_earlier (p : Plan) (stages : List Stage) :
    Earlier (stages.foldlM (Stage.run (settings.checking true)) p)
      (stages.foldlM (Stage.run (settings.checking false)) p) := by
  induction stages generalizing p with
  | nil => exact .refl _
  | cons stage stages ih =>
      exact (stage.run_earlier settings p).bind ih fun _ _ h => (applied_of_foldlM h).derives

/-- A statement has a schema only over a FROM clause that has one. -/
theorem Clauses.derives_of_lower {clauses : Clauses} {origin : Origin} {source q : Plan}
    (h : (clauses.lower origin settings source).result = .ok q) (hq : q.Derives) :
    source.Derives := by
  obtain ⟨plan, happlied, rfl⟩ := clauses.applied_of_lower h
  refine happlied.derives ?_
  unfold advise at hq
  split at hq
  · exact hq
  · exact Plan.derives_withNotes.mp hq

/-- With checks a statement rejects earlier, and changes nothing else. -/
theorem Clauses.lower_earlier (clauses : Clauses) (origin : Origin) (source : Plan) :
    Earlier (clauses.lower origin (settings.checking true) source).result
      (clauses.lower origin (settings.checking false) source).result := by
  have needed (q : Plan)
      (h : (clauses.lower origin (settings.checking false) source).result = .ok q) :
      q.Derives → source.Derives :=
    clauses.derives_of_lower _ h
  rw [result_lower] at needed ⊢
  rw [result_lower]
  refine Earlier.check ?_ needed
  refine .after _ ?_
  intro _
  apply (Stage.foldlM_earlier settings source _).bind (fun _ => .refl _)
  intro p q h hq
  cases h
  split at hq
  · exact hq
  · exact Plan.derives_withNotes.mp hq

/-- Two runs of one unary node that lower its input alike, up to earlier rejection. -/
theorem SqlUnary.lower_earlier {op : SqlUnary} {origin : Origin} {x y : Traced Plan}
    (h : Earlier x.result y.result) :
    Earlier (op.lower x origin (settings.checking true)).result
      (op.lower y origin (settings.checking false)).result := by
  by_cases hmade : ∃ made, op.operator origin settings.verbose = .ok made
  · obtain ⟨made, hmade⟩ := hmade
    have checked : op.operator origin (settings.checking true).verbose = .ok made := hmade
    have unchecked : op.operator origin (settings.checking false).verbose = .ok made := hmade
    rw [SqlUnary.result_lower checked, SqlUnary.result_lower unchecked, map_eq_bind, map_eq_bind]
    apply h.bind (fun _ => .refl _)
    intro p q hq hd
    cases hq
    exact hd.input
  · constructor
    · intro p hp
      exact absurd (exists_operator hp) hmade
    · intro p hp _
      exact absurd (exists_operator hp) hmade

/-- Two runs of one binary node that lower its inputs alike, up to earlier rejection. -/
theorem SqlBinary.lower_earlier {op : SqlBinary} {origin : Origin} {x x' y y' : Traced Plan}
    (h : Earlier x.result y.result) (h' : Earlier x'.result y'.result) :
    Earlier (op.lower x x' origin).result (op.lower y y' origin).result := by
  by_cases hmade : ∃ made, op.operator = .ok made
  · obtain ⟨made, hmade⟩ := hmade
    rw [SqlBinary.result_lower hmade, SqlBinary.result_lower hmade]
    apply h.bind
    · intro p
      rw [map_eq_bind, map_eq_bind]
      apply h'.bind (fun _ => .refl _)
      intro q r hr hd
      cases hr
      exact hd.inputs.2
    · intro p r hr hd
      obtain ⟨q, -, rfl⟩ := map_eq_ok.mp hr
      exact hd.inputs.1
  · constructor
    · intro p hp
      exact absurd (exists_operator hp) hmade
    · intro p hp _
      exact absurd (exists_operator hp) hmade

/-- With checks a query is rejected earlier, and nothing else changes. -/
theorem Sql.lower_earlier (q : Sql) (catalog : Catalog) :
    Earlier (q.lower catalog (settings.checking true)).result
      (q.lower catalog (settings.checking false)).result := by
  have annotated {kind : String} {origin : Origin} {x y : Traced Plan}
      (h : Earlier x.result y.result) :
      Earlier (x >>= fun p => liftM (p.annotate kind origin [] none)).result
        (y >>= fun p => liftM (p.annotate kind origin [] none)).result := by
    simp only [Traced.result_bind, Traced.result_lift]
    exact h.bind (fun _ => .refl _) fun p q hq => (derives_of_annotate hq).mp
  induction q with
  | relation origin name relAlias => exact .refl _
  | statement origin clauses source ih =>
      simp only [Sql.lower, Traced.result_bind (source.lower _ _)]
      refine ih.bind (fun p => annotated (clauses.lower_earlier settings origin p)) ?_
      intro p q hq hd
      simp only [Traced.result_bind, Traced.result_lift] at hq
      obtain ⟨plan, hplan, hq⟩ := bind_eq_ok.mp hq
      exact clauses.derives_of_lower _ hplan ((derives_of_annotate hq).mp hd)
  | unary origin op child ih => exact annotated (op.lower_earlier settings ih)
  | binary origin op left right ihl ihr => exact annotated (op.lower_earlier ihl ihr)

/-- Schema checks only reject earlier. A plan that is made with them is the one made without them,
and a plan made without them that has a schema is also made with them. -/
theorem Sql.compile_checking (q : Sql) (catalog : Catalog) :
    (∀ p, (q.compile catalog (settings.checking true)).result = .ok p →
      (q.compile catalog (settings.checking false)).result = .ok p) ∧
    ∀ p s, (q.compile catalog (settings.checking false)).result = .ok p → p.schema = .ok s →
      (q.compile catalog (settings.checking true)).result = .ok p := by
  have earlier : Earlier (q.compile catalog (settings.checking true)).result
      (q.compile catalog (settings.checking false)).result := by
    simp only [Sql.compile, Traced.result_bind, Traced.result_lift]
    apply (q.lower_earlier settings catalog).bind (fun _ => .refl _)
    intro p r hr hd
    rw [Plan.eq_of_verifiedIf hr]
    exact hd
  exact ⟨earlier.1, fun p s hp hs => earlier.2 p hp ⟨s, hs⟩⟩

/-- The plan of a statement that renames a column has a schema, so it passes the checks. -/
theorem Sample.compile_checking_renamed :
    ∃ p s, ((statement renamed).compile catalog (Settings.checking {} false)).result = .ok p ∧
      p.schema = .ok s ∧
      ((statement renamed).compile catalog (Settings.checking {} true)).result = .ok p := by
  obtain ⟨p, s, hp, hs⟩ : ∃ p s, ((statement renamed).compile catalog
      (Settings.checking {} false)).result = .ok p ∧ p.schema = .ok s := ⟨_, _, rfl, rfl⟩
  exact ⟨p, s, hp, hs, (Sql.compile_checking {} (statement renamed) catalog).2 p s hp hs⟩

end Query

end LogicalPlan
