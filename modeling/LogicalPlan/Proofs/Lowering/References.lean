import LogicalPlan.Proofs.Lowering.Verification

/-!
# References to relations

The leaves of a query refer to base relations. A query whose parts can be lowered is compiled
exactly if the catalog has all relations that it refers to. Otherwise the first missing one from the
left is reported, at the position of its reference.

## Implementation notes

Some nodes lower their own parts before their inputs and some after them. Since these parts can be
lowered whatever the inputs are, only the order of the inputs decides which fault comes first. A
lowering is therefore described by the list of all reports of missing relations: `Reports` says that
it fails with the first one of them.
-/

namespace LogicalPlan

open Outcome

namespace Catalog

/-- The catalog has a relation of the name. -/
def Contains (catalog : Catalog) (name : Value) : Prop :=
  ∃ entry ∈ catalog, name = .string entry.1

instance (catalog : Catalog) (name : Value) : Decidable (catalog.Contains name) :=
  inferInstanceAs (Decidable (∃ entry ∈ catalog, name = .string entry.1))

theorem find?_eq_none_iff {catalog : Catalog} {name : Value} :
    catalog.find? name = none ↔ ¬catalog.Contains name := by
  cases name with
  | string text =>
      rw [find?, Option.map_eq_none_iff, List.lookup_eq_none_iff, Contains, not_exists]
      refine forall_congr' fun entry => ?_
      simp
  | _ => simp [find?, Contains]

end Catalog

namespace Outcome

variable {α β : Type}

/-- The outcome is the first one of the faults, or a value if there is none. -/
def Reports (faults : List Fault) (x : Outcome α) : Prop :=
  match faults with
  | [] => ∃ a, x = .ok a
  | fault :: _ => x = .error fault

theorem Reports.exists_ok_iff {faults : List Fault} {x : Outcome α} (h : Reports faults x) :
    (∃ a, x = .ok a) ↔ faults = [] := by
  cases faults with
  | nil => exact iff_of_true h rfl
  | cons fault faults =>
      obtain rfl : x = .error fault := h
      simp

theorem Reports.exists_error_iff {faults : List Fault} {x : Outcome α}
    (h : Reports faults x) : (∃ fault, x = .error fault) ↔ faults ≠ [] := by
  cases faults with
  | nil =>
      obtain ⟨a, rfl⟩ := h
      simp
  | cons fault faults =>
      obtain rfl : x = .error fault := h
      simp

theorem Reports.bind {faults later : List Fault} {x : Outcome α} {f : α → Outcome β}
    (hx : Reports faults x) (hf : ∀ a, x = .ok a → Reports later (f a)) :
    Reports (faults ++ later) (x >>= f) := by
  cases faults with
  | nil =>
      obtain ⟨a, rfl⟩ := hx
      exact hf a rfl
  | cons fault faults =>
      obtain rfl : x = .error fault := hx
      rfl

/-- What follows without faults reports nothing more. -/
theorem Reports.followed {faults : List Fault} {x : Outcome α} {f : α → Outcome β}
    (hx : Reports faults x) (hf : ∀ a, x = .ok a → ∃ b, f a = .ok b) :
    Reports faults (x >>= f) := by
  have followed : Reports (faults ++ []) (x >>= f) := hx.bind hf
  rwa [List.append_nil] at followed

/-- A traversal reports what its steps report, in order. -/
theorem Reports.mapM {faults : α → List Fault} {x : α → Outcome β} {as : List α}
    (h : ∀ a ∈ as, Reports (faults a) (x a)) : Reports (as.flatMap faults) (as.mapM x) := by
  induction as with
  | nil => exact ⟨[], rfl⟩
  | cons a as ih =>
      obtain ⟨ha, has⟩ := List.forall_mem_cons.mp h
      rw [List.flatMap_cons, List.mapM_cons]
      refine ha.bind fun b _ => (ih has).followed fun bs _ => ?_
      exact ⟨b :: bs, rfl⟩

end Outcome

namespace Query

/-- A reference to a base relation by its name. -/
structure RelationRef where
  name : Value
  span : Option SourceSpan
  deriving DecidableEq

namespace RelationRef

/-- The report that there is no such relation. -/
def report (r : RelationRef) : Fault :=
  .query Message.relationNotFound (Members.ofFields [("name", r.name)]) r.span

/-- The reports of those references that are missing from the catalog. -/
def missing (catalog : Catalog) (refs : List RelationRef) : List Fault :=
  (refs.filter fun r => !decide (catalog.Contains r.name)).map report

variable {catalog : Catalog}

@[simp] theorem missing_append (refs refs' : List RelationRef) :
    missing catalog (refs ++ refs') = missing catalog refs ++ missing catalog refs' := by
  simp [missing]

theorem missing_eq_nil_iff {refs : List RelationRef} :
    missing catalog refs = [] ↔ ∀ r ∈ refs, catalog.Contains r.name := by
  simp [missing]

theorem missing_cons {r : RelationRef} (h : ¬catalog.Contains r.name) (refs : List RelationRef) :
    missing catalog (r :: refs) = r.report :: missing catalog refs := by
  simp [missing, h]

/-- What reports the missing references has a value exactly if there is none, and fails with the
first one otherwise. -/
theorem eq_of_reports_missing {α : Type} {refs : List RelationRef} {x : Outcome α}
    (h : Reports (missing catalog refs) x) :
    ((∃ a, x = .ok a) ↔ ∀ r ∈ refs, catalog.Contains r.name) ∧
    ∀ found r rest, refs = found ++ r :: rest → (∀ r' ∈ found, catalog.Contains r'.name) →
      ¬catalog.Contains r.name → x = .error r.report := by
  refine ⟨h.exists_ok_iff.trans missing_eq_nil_iff, ?_⟩
  rintro found r rest rfl hfound hr
  rw [missing_append, missing_eq_nil_iff.mpr hfound, List.nil_append, missing_cons hr] at h
  exact h

end RelationRef

/-- The references of a SQL query to relations, from left to right. -/
def Sql.references : Sql → List RelationRef
  | .relation origin name _ => [⟨name, origin.span⟩]
  | .statement _ _ source => source.references
  | .unary _ _ child => child.references
  | .binary _ _ left right => left.references ++ right.references

/-- The references of an algebra query to relations, from left to right. Inline relations are no
references. -/
def Algebra.references : Algebra → List RelationRef
  | .relation header name => [⟨name, header.origin.span⟩]
  | .table _ _ => []
  | .unary _ _ child => child.references
  | .binary _ _ left right => left.references ++ right.references

variable {catalog : Catalog} {settings : Settings} {s : Standard} [s.IsStrict]

/-! ### Operators and clauses -/

theorem exists_annotate {origin : Origin} (h : s.origin origin = true) (p : Plan) (kind : String)
    (metadata : Members) : ∃ q, p.annotate kind origin metadata none = .ok q := by
  obtain ⟨span, hspan⟩ := Option.isSome_iff_exists.mp (Standard.IsStrict.origin h)
  exact ⟨_, Plan.annotate_eq_ok.mpr ⟨span, hspan, rfl⟩⟩

theorem exists_aliased {origin : Origin} (h : s.origin origin = true)
    (relAlias : Value) (p : Plan) :
    ∃ q, aliased origin relAlias p = .ok q := by
  obtain ⟨span, hspan⟩ := Option.isSome_iff_exists.mp (Standard.IsStrict.origin h)
  unfold aliased
  split
  · simp [Origin.require, hspan]
  · exact ⟨p, rfl⟩

section Nodes

variable {origin : Origin} {faults later : List Fault} {x y : Outcome Plan}

theorem unary_reports (horigin : s.origin origin = true) (hx : Reports faults x) (op : UnaryOp)
    (kind : String) (metadata : Members) :
    Reports faults
      (x.map (Plan.unary {} op) >>= fun p => p.annotate kind origin metadata none) := by
  rw [map_eq_bind, bind_assoc]
  apply hx.followed
  intro p _
  exact exists_annotate horigin (.unary {} op p) kind metadata

/-- The left input is lowered before the right one. -/
theorem binary_reports (horigin : s.origin origin = true) (hx : Reports faults x)
    (hy : Reports later y) (notes : Notes) (op : BinaryOp) (kind : String) (metadata : Members) :
    Reports (faults ++ later)
      ((x >>= fun p => y.map (Plan.binary notes op p)) >>= fun p =>
        p.annotate kind origin metadata none) := by
  rw [bind_assoc]
  apply hx.bind
  intro p _
  rw [map_eq_bind, bind_assoc]
  apply hy.followed
  intro q _
  exact exists_annotate horigin (.binary notes op p q) kind metadata

end Nodes

/-- Without checks, a stage whose operator can be made has a plan. -/
theorem Stage.exists_run (hcheck : settings.checkSchemas = false) {stage : Stage}
    (h : stage.IsSound fun _ => True) (p : Plan) : ∃ q, stage.run settings p = .ok q := by
  obtain ⟨made, hmade, hop⟩ := gives_iff.mp h
  cases made with
  | none => exact ⟨p, Stage.run_eq_ok hcheck hmade p⟩
  | some op =>
      obtain ⟨hsound, span, hspan, -⟩ := hop op rfl
      rw [Stage.run_eq_annotate hcheck hmade hsound.labelled]
      exact ⟨_, Plan.annotate_eq_ok.mpr ⟨span, hspan, rfl⟩⟩

/-- Without checks, the clauses of a statement can be lowered over any plan that can be reported. -/
theorem Clauses.exists_lower {clauses : Clauses} (h : clauses.meets s = true)
    (hcheck : settings.checkSchemas = false) {origin : Origin} (horigin : s.origin origin = true)
    {source : Plan} (hlabel : settings.verbose = true → source.HasLabel) :
    ∃ p, (clauses.lower origin settings source).result = .ok p := by
  have placed : IsPlaced (fun _ => True) origin.span := isPlaced_of_meets horigin fun _ _ => trivial
  have admitted : Admits (fun _ => True) clauses.origins := fun _ _ _ _ => trivial
  have staged :
      Gives (fun _ => True) ((clauses.stages origin).foldlM (Stage.run settings) source) :=
    Yields.foldlM trivial fun stage hstage p _ => by
      obtain ⟨q, hq⟩ := stage.exists_run hcheck (isSound_of_mem_stages h admitted placed hstage) p
      exact gives_iff.mpr ⟨q, hq, trivial⟩
  obtain ⟨p, hp⟩ := staged.exists_ok
  simp only [result_lower, checkIf, hcheck, logged_eq_ok settings hlabel, hp]
  exact ⟨_, rfl⟩

/-! ### Queries -/

theorem relationNamed_reports {name : Value} (hname : name.isText = true)
    (span : Option SourceSpan) :
    Reports (RelationRef.missing catalog [⟨name, span⟩]) (relationNamed catalog name span) := by
  unfold relationNamed
  rw [Value.isHashable_of_isText hname]
  cases hfind : catalog.find? name with
  | none =>
      have absent := Catalog.find?_eq_none_iff.mp hfind
      simp [RelationRef.missing, absent, Reports, RelationRef.report]
  | some p =>
      have present : catalog.Contains name := by
        by_contra absent
        rw [Catalog.find?_eq_none_iff.mpr absent] at hfind
        cases hfind
      simp [RelationRef.missing, present, Reports]

/-- Without checks, lowering a SQL query reports the relations that are missing. -/
theorem Sql.lower_reports {q : Sql} (h : q.meets s = true) (hcheck : settings.checkSchemas = false)
    (hlog : settings.verbose = true → catalog.isWellTyped = true) :
    Reports (RelationRef.missing catalog q.references) (q.lower catalog settings).result := by
  induction q with
  | relation origin name relAlias =>
      simp only [meets, Bool.and_eq_true] at h
      simp only [lower, Traced.result_bind, Traced.result_lift, result_lookUp]
      apply (relationNamed_reports h.1.2 origin.span).followed
      intro p _
      obtain ⟨renamed, hrenamed⟩ := exists_aliased h.1.1 relAlias p
      rw [hrenamed, ok_bind]
      exact exists_annotate h.1.1 renamed _ _
  | statement origin clauses source ih =>
      simp only [meets, Bool.and_eq_true] at h
      simp only [lower, Traced.result_bind, Traced.result_lift]
      apply (ih h.2).followed
      intro p hp
      have label (hverbose : settings.verbose = true) : p.HasLabel :=
        (lowered_of_lower hp).hasLabel s.isTyped (hlog hverbose) h.2
      obtain ⟨plan, hplan⟩ := clauses.exists_lower h.1.2 hcheck h.1.1 label
      rw [hplan, ok_bind]
      exact exists_annotate h.1.1 plan _ _
  | unary origin op child ih =>
      simp only [meets, Bool.and_eq_true] at h
      have placed : IsPlaced (fun _ => True) origin.span :=
        isPlaced_of_meets h.1.1 fun _ _ => trivial
      obtain ⟨made, hmade⟩ := (op.operator_gives h.1.2 placed settings.verbose).exists_ok
      simp only [lower, Traced.result_bind, Traced.result_lift]
      rw [op.result_lower hmade]
      exact unary_reports h.1.1 (ih h.2) made _ _
  | binary origin op left right ihl ihr =>
      simp only [meets, Bool.and_eq_true] at h
      have admitted : Admits (fun _ => True) op.origins := fun _ _ _ _ => trivial
      obtain ⟨made, hmade⟩ := (op.operator_gives h.1.1.2 admitted).exists_ok
      simp only [lower, Traced.result_bind, Traced.result_lift]
      rw [op.result_lower hmade, references, RelationRef.missing_append]
      exact binary_reports h.1.1.1 (ihl h.1.2) (ihr h.2) _ made _ _

/-- Lowering an algebra query reports the relations that are missing. -/
theorem Algebra.lower_reports {q : Algebra} (h : q.meets s = true) (verbose : Bool) :
    Reports (RelationRef.missing catalog q.references) (q.lower catalog verbose).result := by
  induction q with
  | relation header name =>
      simp only [meets, Bool.and_eq_true] at h
      simp only [lower, Header.annotate, Traced.result_bind, Traced.result_lift, result_lookUp]
      apply (relationNamed_reports h.2 header.origin.span).followed
      intro p _
      exact exists_annotate h.1 p _ _
  | table header inline =>
      simp only [meets, Bool.and_eq_true] at h
      obtain ⟨base, hbase⟩ := (inline.relation_gives h.2).exists_ok
      obtain ⟨span, hspan⟩ := Option.isSome_iff_exists.mp (Standard.IsStrict.origin h.1)
      simp only [lower, Header.annotate, Traced.result_bind, Traced.result_lift,
        inline.result_lower, hbase, Origin.require, hspan, ok_bind]
      exact exists_annotate h.1 _ _ _
  | unary header op child ih =>
      simp only [meets, Bool.and_eq_true] at h
      have admitted : Admits (fun _ => True) op.origins := fun _ _ _ _ => trivial
      obtain ⟨made, hmade⟩ := (op.operator_gives h.1.2 admitted).exists_ok
      simp only [lower, Header.annotate, Traced.result_bind, Traced.result_lift]
      rw [op.result_lower hmade]
      exact unary_reports h.1.1 (ih h.2) made _ _
  | binary header op left right ihl ihr =>
      simp only [meets, Bool.and_eq_true] at h
      have admitted : Admits (fun _ => True) op.origins := fun _ _ _ _ => trivial
      obtain ⟨made, hmade⟩ := (op.operator_gives h.1.1.2 admitted).exists_ok
      simp only [lower, Header.annotate, Traced.result_bind, Traced.result_lift]
      rw [op.result_lower hmade, references, RelationRef.missing_append]
      exact binary_reports h.1.1.1 (ihl h.1.2) (ihr h.2) _ made _ _

/-! ### Verified plans -/

/-- Expressions that can be lowered have positions throughout. -/
theorem Term.isPositioned_of_isLowerable {t : Term} (h : t.isLowerable = true) :
    t.IsPositioned := by
  have admitted : Admits (fun _ => True) t.origins := fun _ _ _ _ => trivial
  obtain ⟨e, he, placed⟩ := gives_iff.mp (Term.lower_gives h admitted)
  exact (isPositioned_of_lower he).mp placed.isPositioned

/-- Plans that cover positioned expressions pass the verification. -/
theorem Covers.exists_verified {typed : Prop} {p : Plan} {ts : List Term} (h : Covers typed p ts)
    (hts : ∀ t ∈ ts, s.term t = true) (wanted : Bool) : ∃ q, p.verifiedIf wanted = .ok q := by
  have positioned : ∀ t ∈ ts, t.IsPositioned :=
    fun t ht => Term.isPositioned_of_isLowerable (Standard.IsStrict.term (hts t ht))
  have verified : p.verifyPositions = .ok () :=
    Plan.verifyPositions_eq_ok.mpr ⟨h.positioned, h.mirrors.mpr positioned⟩
  exact ⟨p, Plan.verifiedIf_eq_ok.mpr ⟨fun _ => verified, rfl⟩⟩

end Query

namespace LoadedQuery

/-- All parts of the query have positions and names, and its expressions can be lowered. -/
def isLowerable : LoadedQuery → Bool
  | .sql q => q.meets .lowerable
  | .algebra q => q.meets .lowerable

/-- The references of the query to relations, from left to right. -/
def references : LoadedQuery → List Query.RelationRef
  | .sql q => q.references
  | .algebra q => q.references

variable {q : LoadedQuery} {catalog : Catalog} {settings : Settings}

/-- Compiling a query reports the relations that are missing. -/
theorem compile_reports (h : q.isLowerable = true)
    (hcheck : q.grammar = .sql → settings.checkSchemas = false)
    (hlog : q.grammar = .sql → settings.verbose = true → catalog.isWellTyped = true)
    (isNode : Bool) :
    Reports (Query.RelationRef.missing catalog q.references)
      (q.grammar.compile isNode catalog settings q).result := by
  cases q with
  | sql q =>
      simp only [grammar, Grammar.compile, Query.Sql.compile, Traced.result_bind,
        Traced.result_lift]
      apply (q.lower_reports h (hcheck rfl) (hlog rfl)).followed
      intro p hp
      have covered := (Query.Sql.lowered_of_lower hp).covers False.elim
      exact covered.exists_verified (q.term_of_mem_terms h) _
  | algebra q =>
      simp only [grammar, Grammar.compile, Query.Algebra.compile, Traced.result_bind,
        Traced.result_lift]
      apply (q.lower_reports h settings.verbose).followed
      intro p hp
      have covered := (Query.Algebra.lowered_of_lower hp).covers False.elim
      exact covered.exists_verified (q.term_of_mem_terms h) _

/-- A query whose parts can be lowered is compiled, without checks of schemas on the way, exactly if
the catalog has all relations that it refers to. Otherwise the first missing relation from the left
is reported, with its name and at the position of the reference. Where plans are reported in the
log, the names of the relations in the catalog have to be texts. -/
theorem compile_references (h : q.isLowerable = true)
    (hcheck : q.grammar = .sql → settings.checkSchemas = false)
    (hlog : q.grammar = .sql → settings.verbose = true → catalog.isWellTyped = true)
    (isNode : Bool) :
    ((∃ p, (q.grammar.compile isNode catalog settings q).result = .ok p) ↔
      ∀ r ∈ q.references, catalog.Contains r.name) ∧
    ∀ found r rest, q.references = found ++ r :: rest →
      (∀ r' ∈ found, catalog.Contains r'.name) → ¬catalog.Contains r.name →
        (q.grammar.compile isNode catalog settings q).result =
          .error (.query Message.relationNotFound (Members.ofFields [("name", r.name)]) r.span) :=
  Query.RelationRef.eq_of_reports_missing (compile_reports h hcheck hlog isNode)

end LoadedQuery

namespace Query.Sample

/-- The position of a relation's name. -/
def place (name : String) : Origin :=
  { span := some (SourceSpan.ofText name) }

/-- A statement over `R` next to the join of `S` and `T`, the last one under the name `R`. -/
def scattered : LoadedQuery :=
  .sql (.binary origin .cross (statement [.column origin (.string "a") .null .null])
    (.binary origin .natural (.relation (place "S") (.string "S") .null)
      (.relation (place "T") (.string "T") (.string "R"))))

/-- Of the two missing relations the left one is reported. -/
theorem compile_references_scattered :
    (¬∃ p, (scattered.grammar.compile false catalog { checkSchemas := false } scattered).result =
        .ok p) ∧
      (scattered.grammar.compile false catalog { checkSchemas := false } scattered).result =
        .error (.query Message.relationNotFound (Members.ofFields [("name", .string "S")])
          (place "S").span) := by
  have reported := @LoadedQuery.compile_references scattered catalog { checkSchemas := false }
    (by decide) (fun _ => rfl) nofun false
  constructor
  · rw [reported.1]
    decide
  · exact reported.2 [⟨.string "R", origin.span⟩] ⟨.string "S", (place "S").span⟩
      [⟨.string "T", (place "T").span⟩] rfl (by decide) (by decide)

end Query.Sample

end LogicalPlan
