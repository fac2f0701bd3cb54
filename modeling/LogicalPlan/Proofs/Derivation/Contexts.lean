import LogicalPlan.Lowering.Sql
import LogicalPlan.Proofs.Derivation.Placement
import LogicalPlan.Proofs.Plan.Walk

/-!
# Plans in contexts

A context is a plan with a hole, so it says where a node of a plan stands. The derivation of a
filled context looks at the plan in the hole only through the outcome of its derivation. Hence plans
with one schema can stand for each other everywhere, and a projection to all columns can be left
out.
-/

namespace LogicalPlan

open Outcome

/-- The reference to all columns of the input. -/
def Column.everything : Column := ⟨.string "*", .null⟩

/-- A plan with a hole in the place of one of its nodes. -/
inductive Context where
  | hole
  | unary (notes : Notes) (op : UnaryOp) (input : Context)
  | inLeft (notes : Notes) (op : BinaryOp) (left : Context) (right : Plan)
  | inRight (notes : Notes) (op : BinaryOp) (left : Plan) (right : Context)

namespace Context

/-- The plan that has the given plan in the place of the hole. -/
def fill : Context → Plan → Plan
  | .hole, p => p
  | .unary notes op input, p => .unary notes op (input.fill p)
  | .inLeft notes op left right, p => .binary notes op (left.fill p) right
  | .inRight notes op left right, p => .binary notes op left (right.fill p)

/-- The nodes of a plan are what its contexts can be filled with. -/
theorem mem_walk_iff {p node : Plan} : node ∈ p.walk ↔ ∃ C : Context, C.fill node = p := by
  constructor
  · intro h
    induction p with
    | relation notes base => exact ⟨.hole, List.mem_singleton.mp h⟩
    | unary notes op input ih =>
        rcases List.mem_cons.mp h with rfl | h
        · exact ⟨.hole, rfl⟩
        · obtain ⟨C, rfl⟩ := ih h
          exact ⟨.unary notes op C, rfl⟩
    | binary notes op left right ihl ihr =>
        rcases List.mem_cons.mp h with rfl | h
        · exact ⟨.hole, rfl⟩
        rcases List.mem_append.mp h with h | h
        · obtain ⟨C, rfl⟩ := ihl h
          exact ⟨.inLeft notes op C right, rfl⟩
        · obtain ⟨C, rfl⟩ := ihr h
          exact ⟨.inRight notes op left C, rfl⟩
  · rintro ⟨C, rfl⟩
    induction C with
    | hole => exact Plan.mem_walk_self node
    | unary notes op input ih => exact List.mem_cons_of_mem _ ih
    | inLeft notes op left right ih =>
        exact List.mem_cons_of_mem _ (List.mem_append_left _ ih)
    | inRight notes op left right ih =>
        exact List.mem_cons_of_mem _ (List.mem_append_right _ ih)

variable {t u : Plan}

/-- A context shows nothing of the plan in its hole but the outcome of its derivation. -/
theorem schema_fill_congr (C : Context) (h : t.schema = u.schema) :
    (C.fill t).schema = (C.fill u).schema := by
  induction C with
  | hole => exact h
  | unary notes op input ih => rw [fill, fill, Plan.schema, Plan.schema, ih]
  | inLeft notes op left right ih => rw [fill, fill, Plan.schema, Plan.schema, ih]
  | inRight notes op left right ih => rw [fill, fill, Plan.schema, Plan.schema, ih]

/-- A projection to all columns keeps them as they are: names, aliases, types, order and
repetitions. -/
theorem schema_everything (notes : Notes) (t : Plan) :
    (Plan.unary notes (.projection [.column .everything]) t).schema = t.schema := by
  rw [Plan.schema]
  cases t.schema with
  | error fault => rfl
  | ok s =>
      have expanded : ProjectionItem.columnsIn (.column .everything) s notes.span = .ok s.columns :=
        rfl
      simp [UnaryOp.derive, expanded]

/-- In every context, a projection to all columns of a plan and any plan that derives alike can
stand for the plan: the filled context has the same schema, or its derivation fails with the same
fault. -/
theorem schema_fill (C : Context) (t : Plan) :
    (∀ notes, (C.fill (.unary notes (.projection [.column .everything]) t)).schema =
      (C.fill t).schema) ∧
    ∀ u, u.schema = t.schema → (C.fill u).schema = (C.fill t).schema := by
  constructor
  · intro notes
    exact C.schema_fill_congr (schema_everything notes t)
  · intro u hu
    exact C.schema_fill_congr hu

namespace Sample

/-- A relation with one column, which is called `a`. -/
def single (name : String) : Plan :=
  .relation {}
    { name := .string name
      schema := some ⟨[⟨.string "a", .string name, .string "number"⟩]⟩ }

/-- The relation `S` under the name of `R` has the schema of `R`. -/
def posing : Plan :=
  .unary {} (.renameRelation (.string "R")) (single "S")

/-- A selection above the product of the hole with the relation `R`. -/
def paired : Context :=
  .unary {} (.selection (.column {} ⟨.string "a", .null⟩))
    (.inLeft {} .cross .hole (single "R"))

/-- The product of the hole with the relation `S`. -/
def beside : Context :=
  .inLeft {} .cross .hole (single "S")

/-- Whatever has the schema of `R` cannot be paired with `R`, for one and the same reason. Beside
`S` it can stand, and so can a projection of `R` to all columns. -/
theorem schema_fill_paired :
    (single "R").schema = posing.schema ∧
    (paired.fill posing).schema = (paired.fill (single "R")).schema ∧
    (∃ fault, (paired.fill (single "R")).schema = .error fault) ∧
    ∃ s : Schema, (beside.fill (single "R")).schema = .ok s ∧
      (beside.fill posing).schema = .ok s ∧
      (beside.fill (.unary {} (.projection [.column .everything]) (single "R"))).schema = .ok s ∧
      s.columns.map SchemaColumn.relAlias = [.string "R", .string "S"] := by
  obtain ⟨-, unpaired⟩ := schema_fill paired (single "R")
  obtain ⟨everything, exchanged⟩ := schema_fill beside (single "R")
  refine ⟨rfl, unpaired posing rfl, ⟨_, rfl⟩, ?_⟩
  have product : (beside.fill (single "R")).schema =
      .ok ⟨[⟨.string "a", .string "R", .string "number"⟩,
        ⟨.string "a", .string "S", .string "number"⟩]⟩ := rfl
  exact ⟨_, product, (exchanged posing rfl).trans product, (everything {}).trans product, rfl⟩

end Sample

end Context

namespace Query

/-- A SELECT list that keeps everything projects to all columns. -/
theorem SelectItem.mapM_lower_of_isEverything {items : List SelectItem}
    (h : isEverything items = true) :
    items.mapM lower = .ok [.column .everything] := by
  unfold isEverything at h
  split at h
  case h_1 item =>
    cases item with
    | column origin name relAlias label =>
        obtain ⟨rfl, rfl⟩ : name = .string "*" ∧ relAlias = .null := by
          simpa [isWildcard] using h
        rfl
    | aggregate call => cases h
    | computed column => cases h
  case h_2 => cases h

/-- The projection that is left out for such a SELECT list would change no schema in any context. -/
theorem SelectItem.schema_fill_of_isEverything {items : List SelectItem}
    (h : isEverything items = true) :
    ∃ columns, items.mapM lower = .ok columns ∧ ∀ (C : Context) notes t,
      (C.fill (.unary notes (.projection columns) t)).schema = (C.fill t).schema := by
  refine ⟨_, mapM_lower_of_isEverything h, ?_⟩
  intro C notes t
  exact C.schema_fill_congr (Context.schema_everything notes t)

end Query

end LogicalPlan
