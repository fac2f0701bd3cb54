import Mathlib.Data.List.Induction
import LogicalPlan.Proofs.Outcome
import LogicalPlan.Store

/-!
# Rows of base relations

Rows are appended one by one until one of them does not fit. An append that fails therefore leaves
the rows in front of the misfit behind, but it touches nothing else of the store. Appending keeps
the rows of a relation as wide as its schema; only another schema can break this, and it does so
exactly if it has another width and meets rows.

## Implementation notes

`Relation.Appends` lists the ways in which an append can end, so everything about appends is read
off it. Stores are reached by requests; one lemma says what a request does to the fit of all rows,
and runs go by induction from their ends.
-/

namespace LogicalPlan

open Outcome

/-- The item lists the cells of a row of the schema: one value for each column. -/
def Schema.IsRow (schema : Schema) (item : Value) (cells : List Value) : Prop :=
  item.items = .ok cells ∧ cells.length = schema.size

namespace Relation

variable {r : Relation} {rows : Value}

/-! ### Appending -/

/-- The item is no row of the relation, and this is how it is reported: it cannot be listed, or it
has another width than the schema. -/
def Refuses (r : Relation) (schema : Schema) (item : Value) (fault : Fault) : Prop :=
  item.items = .error fault ∨
    ∃ cells, item.items = .ok cells ∧ cells.length ≠ schema.size ∧
      fault = .argument (.rowWidth cells schema.text r.name)

/-- How an append to a relation ends: with which rows behind the old ones, and with which outcome.
-/
inductive Appends (r : Relation) (rows : Value) : List (List Value) → Outcome Unit → Prop where
  | noSchema (missing : r.schema = none) : Appends r rows [] (.error (.noSchema r.name))
  | notListed {schema : Schema} {fault : Fault} (present : r.schema = some schema)
      (unlisted : rows.items = .error fault) : Appends r rows [] (.error fault)
  | stopped {schema : Schema} {before after : List Value} {bad : Value}
      {cells : List (List Value)} {fault : Fault} (present : r.schema = some schema)
      (listed : rows.items = .ok (before ++ bad :: after))
      (fit : List.Forall₂ schema.IsRow before cells) (refused : r.Refuses schema bad fault) :
      Appends r rows cells (.error fault)
  | finished {schema : Schema} {items : List Value} {cells : List (List Value)}
      (present : r.schema = some schema) (listed : rows.items = .ok items)
      (fit : List.Forall₂ schema.IsRow items cells) : Appends r rows cells (.ok ())

/-- A row that fits is appended before the rows behind it. -/
theorem appendRows_cons {schema : Schema} {item : Value} {cells : List Value}
    (h : schema.IsRow item cells) (rest : List Value) :
    r.appendRows schema (item :: rest) =
      appendRows { r with rows := r.rows ++ [cells] } schema rest := by
  rw [appendRows, h.1]
  exact if_pos h.2

/-- An item that is no row ends the append. -/
theorem appendRows_refused {schema : Schema} {item : Value} {fault : Fault}
    (h : r.Refuses schema item fault) (rest : List Value) :
    r.appendRows schema (item :: rest) = (r, .error fault) := by
  rcases h with unlisted | ⟨cells, listed, width, rfl⟩
  · rw [appendRows, unlisted]
  · rw [appendRows, listed]
    exact if_neg width

/-- An item is a row of the schema, or it is refused. -/
theorem isRow_or_refuses (r : Relation) (schema : Schema) (item : Value) :
    (∃ cells, schema.IsRow item cells) ∨ ∃ fault, r.Refuses schema item fault := by
  cases listed : item.items with
  | error fault => exact .inr ⟨fault, .inl listed⟩
  | ok cells =>
      by_cases width : cells.length = schema.size
      · exact .inl ⟨cells, listed, width⟩
      · exact .inr ⟨_, .inr ⟨cells, listed, width, rfl⟩⟩

/-- Either all items are rows and end up behind the old ones, or those in front of the first one
that is none do. -/
theorem exists_appendRows (r : Relation) (schema : Schema) (items : List Value) :
    ∃ cells, (List.Forall₂ schema.IsRow items cells ∧
        r.appendRows schema items = ({ r with rows := r.rows ++ cells }, .ok ())) ∨
      ∃ before bad after fault, items = before ++ bad :: after ∧
        List.Forall₂ schema.IsRow before cells ∧ r.Refuses schema bad fault ∧
        r.appendRows schema items = ({ r with rows := r.rows ++ cells }, .error fault) := by
  induction items generalizing r with
  | nil =>
      refine ⟨[], .inl ⟨.nil, ?_⟩⟩
      rw [appendRows, List.append_nil]
  | cons item rest ih =>
      rcases isRow_or_refuses r schema item with ⟨first, hfirst⟩ | ⟨fault, hfault⟩
      · rw [appendRows_cons hfirst]
        obtain ⟨cells, ⟨fit, happend⟩ | ⟨before, bad, after, fault, rfl, fit, refused, happend⟩⟩ :=
          ih { r with rows := r.rows ++ [first] }
        · refine ⟨first :: cells, .inl ⟨.cons hfirst fit, ?_⟩⟩
          rw [happend, List.append_assoc, List.singleton_append]
        · refine ⟨first :: cells, .inr ⟨item :: before, bad, after, fault, rfl, .cons hfirst fit,
            refused, ?_⟩⟩
          rw [happend, List.append_assoc, List.singleton_append]
      · refine ⟨[], .inr ⟨[], item, rest, fault, rfl, .nil, hfault, ?_⟩⟩
        rw [appendRows_refused hfault, List.append_nil]

/-- Rows that can be listed are appended one by one. -/
theorem addRows_of_listed {schema : Schema} {items : List Value} (present : r.schema = some schema)
    (listed : rows.items = .ok items) : r.addRows rows = r.appendRows schema items := by
  simp only [addRows, present, listed]

/-- An append ends in one of the listed ways, and changes nothing but the rows. -/
theorem exists_addRows (r : Relation) (rows : Value) :
    ∃ cells, r.Appends rows cells (r.addRows rows).2 ∧
      (r.addRows rows).1 = { r with rows := r.rows ++ cells } := by
  rcases Option.eq_none_or_eq_some r.schema with present | ⟨schema, present⟩
  · have unchanged : r.addRows rows = (r, .error (.noSchema r.name)) := by
      simp only [addRows, present]
    rw [unchanged]
    exact ⟨[], .noSchema present, by rw [List.append_nil]⟩
  cases listed : rows.items with
  | error fault =>
      have unchanged : r.addRows rows = (r, .error fault) := by
        simp only [addRows, present, listed]
      rw [unchanged]
      exact ⟨[], .notListed present listed, by rw [List.append_nil]⟩
  | ok items =>
      rw [addRows_of_listed present listed]
      obtain ⟨cells, ⟨fit, happend⟩ | ⟨before, bad, after, fault, rfl, fit, refused, happend⟩⟩ :=
        r.exists_appendRows schema items
      · rw [happend]
        exact ⟨cells, .finished present listed fit, rfl⟩
      · rw [happend]
        exact ⟨cells, .stopped present listed fit refused, rfl⟩

/-! ### Fitting rows -/

/-- Rows need a schema, and every row has one value for each of its columns. -/
def RowsFit (r : Relation) : Prop :=
  r.rows ≠ [] → ∃ schema, r.schema = some schema ∧ ∀ row ∈ r.rows, row.length = schema.size

theorem RowsFit.length_eq (h : r.RowsFit) {schema : Schema} (present : r.schema = some schema)
    {row : List Value} (hrow : row ∈ r.rows) : row.length = schema.size := by
  obtain ⟨found, hfound, fit⟩ := h (List.ne_nil_of_mem hrow)
  rw [present, Option.some.injEq] at hfound
  rw [hfound]
  exact fit row hrow

/-- Rows need a schema. -/
def HasSchema (r : Relation) : Prop :=
  r.rows ≠ [] → ∃ schema, r.schema = some schema

theorem RowsFit.hasSchema (h : r.RowsFit) : r.HasSchema := by
  intro hrows
  obtain ⟨schema, present, -⟩ := h hrows
  exact ⟨schema, present⟩

/-- Rows that are read off items have the width of the schema. -/
theorem length_of_isRow {schema : Schema} {items : List Value} {cells : List (List Value)}
    (h : List.Forall₂ schema.IsRow items cells) : ∀ row ∈ cells, row.length = schema.size := by
  induction h with
  | nil => simp
  | cons first _ ih => exact List.forall_mem_cons.mpr ⟨first.2, ih⟩

/-- Whether an append fails or not, what it adds has the width of the schema. -/
theorem Appends.rows_eq_nil_or {cells : List (List Value)} {outcome : Outcome Unit}
    (h : r.Appends rows cells outcome) :
    cells = [] ∨ ∃ schema, r.schema = some schema ∧ ∀ row ∈ cells, row.length = schema.size := by
  cases h with
  | noSchema missing => exact .inl rfl
  | notListed present unlisted => exact .inl rfl
  | stopped present listed fit refused => exact .inr ⟨_, present, length_of_isRow fit⟩
  | finished present listed fit => exact .inr ⟨_, present, length_of_isRow fit⟩

/-- Appending keeps rows fitting, also if it fails. -/
theorem RowsFit.addRows (h : r.RowsFit) (rows : Value) : (r.addRows rows).1.RowsFit := by
  obtain ⟨cells, happends, happend⟩ := r.exists_addRows rows
  rw [happend]
  rcases happends.rows_eq_nil_or with rfl | ⟨schema, present, fit⟩
  · rwa [List.append_nil]
  · intro _
    refine ⟨schema, present, ?_⟩
    intro row hrow
    rcases List.mem_append.mp hrow with hold | hnew
    · exact h.length_eq present hold
    · exact fit row hnew

/-- Rows are appended to relations with a schema only. -/
theorem HasSchema.addRows (h : r.HasSchema) (rows : Value) : (r.addRows rows).1.HasSchema := by
  obtain ⟨cells, happends, happend⟩ := r.exists_addRows rows
  rw [happend]
  rcases happends.rows_eq_nil_or with rfl | ⟨schema, present, -⟩
  · rwa [List.append_nil]
  · exact fun _ => ⟨schema, present⟩

/-- The rows of a new relation fit. -/
theorem rowsFit_of_make {name : Value} {schema : Option Schema} {rows : Option Value}
    (h : make name schema rows = .ok r) : r.RowsFit := by
  have bare : (Relation.mk name schema []).RowsFit := fun hrows => absurd rfl hrows
  cases rows with
  | none =>
      cases h
      exact bare
  | some rows =>
      obtain ⟨-, -, rfl⟩ := map_eq_ok.mp h
      exact bare.addRows rows

/-- Another schema fits the rows exactly if there are none or it is as wide as the present one. -/
theorem RowsFit.setSchema_iff (h : r.RowsFit) (schema : Schema) (adoptName : Bool) :
    (r.setSchema schema adoptName).RowsFit ↔
      (r.rows ≠ [] → ∀ present, r.schema = some present → schema.size = present.size) := by
  have width : (Schema.mk (schema.columns.map fun col =>
      if adoptName && !col.relAlias.isTruthy then col.withAlias r.name else col)).size =
        schema.size := List.length_map _
  constructor
  · intro fit hrows present hpresent
    obtain ⟨row, hrow⟩ := List.exists_mem_of_ne_nil _ hrows
    calc
      schema.size = row.length := (width.symm.trans (fit.length_eq rfl hrow).symm)
      _ = present.size := h.length_eq hpresent hrow
  · intro kept hrows
    obtain ⟨present, hpresent, fit⟩ := h hrows
    refine ⟨_, rfl, ?_⟩
    intro row hrow
    calc
      row.length = present.size := fit row hrow
      _ = schema.size := (kept hrows present hpresent).symm
      _ = _ := width.symm

end Relation

/-! ### Stores -/

/-- A request that concerns base relations of a store. -/
inductive RelationRequest where
  /-- A new relation, possibly with a schema and rows. -/
  | create (name : Value) (schema : Option Schema) (rows : Option Value)
  | addRows (id : NodeId) (rows : Value)
  | setSchema (id : NodeId) (schema : Schema) (adoptName : Bool)
  | copy (id : NodeId)

namespace Store

variable {s : Store} {id : NodeId} {base : Relation}

theorem relation_eq_ok :
    s.relation id = .ok base ↔ ∃ notes, s.nodes[id]? = some ⟨notes, .relation base⟩ := by
  unfold relation node
  cases hnode : s.nodes[id]? with
  | none => simp
  | some found =>
      obtain ⟨notes, shape⟩ := found
      cases shape <;> simp [noAttribute]

theorem setRelation_eq {notes : Notes} (h : s.nodes[id]? = some ⟨notes, .relation base⟩)
    (other : Relation) :
    s.setRelation id other = { s with nodes := s.nodes.set id ⟨notes, .relation other⟩ } := by
  obtain ⟨hid, hget⟩ := List.getElem?_eq_some_iff.mp h
  rw [setRelation, List.modify_eq_set_getElem?, h]
  rfl

theorem addRows_eq (h : s.relation id = .ok base) (rows : Value) :
    s.addRows id rows = (s.setRelation id (base.addRows rows).1, (base.addRows rows).2) := by
  simp only [addRows, h]

/-! ### Appending -/

/-- Appending to a stored relation changes nothing but its rows. It ends in one of the listed ways;
if it fails, nothing is changed at all exactly if nothing was added before the failure. -/
theorem addRows_appends {notes : Notes} (h : s.nodes[id]? = some ⟨notes, .relation base⟩)
    (rows : Value) :
    ∃ cells, base.Appends rows cells (s.addRows id rows).2 ∧
      (s.addRows id rows).1 = { s with
        nodes := s.nodes.set id ⟨notes, .relation { base with rows := base.rows ++ cells }⟩ } ∧
      ((s.addRows id rows).1 = s ↔ cells = []) := by
  obtain ⟨cells, happends, happend⟩ := base.exists_addRows rows
  have changed : (s.addRows id rows).1 = { s with
      nodes := s.nodes.set id ⟨notes, .relation { base with rows := base.rows ++ cells }⟩ } := by
    rw [addRows_eq (relation_eq_ok.mpr ⟨notes, h⟩), happend, setRelation_eq h]
  refine ⟨cells, ?_, changed, ?_⟩
  · rw [addRows_eq (relation_eq_ok.mpr ⟨notes, h⟩)]
    exact happends
  · rw [changed]
    obtain ⟨hid, hget⟩ := List.getElem?_eq_some_iff.mp h
    constructor
    · intro hs
      have kept := congrArg (fun t : Store => t.nodes[id]?) hs
      simp only [List.getElem?_set_self hid, h, Option.some.injEq, StoredNode.mk.injEq, true_and,
        StoredShape.relation.injEq] at kept
      simpa using congrArg Relation.rows kept
    · rintro rfl
      rw [List.append_nil, ← hget, List.set_getElem_self]

namespace Sample

/-- A relation `R(a)` with one row. -/
def single : Relation where
  name := .string "R"
  schema := some ⟨[⟨.string "a", .string "R", .string "number"⟩]⟩
  rows := [[.int 0]]

/-- A store of this relation. -/
def stored : Store where
  nodes := [⟨{}, .relation single⟩]

/-- A row for `R`, followed by one that is too wide. -/
def mixed : Value :=
  .list [.list [.int 1], .list [.int 2, .int 3]]

/-- The append ends at its second row, behind the first one, so the store is not what it was. -/
theorem addRows_appends_mixed :
    stored.nodes[0]? = some ⟨{}, .relation single⟩ ∧
    ∃ cells, single.Appends mixed cells (stored.addRows 0 mixed).2 ∧ cells = [[.int 1]] ∧
      (stored.addRows 0 mixed).1 = { stored with
        nodes := stored.nodes.set 0 ⟨{}, .relation { single with rows := single.rows ++ cells }⟩ } ∧
      (stored.addRows 0 mixed).1 ≠ stored := by
  refine ⟨rfl, ?_⟩
  obtain ⟨cells, appends, changed, unchanged⟩ := @addRows_appends stored 0 single {} rfl mixed
  have grown : (stored.addRows 0 mixed).1.relation 0 =
      .ok { single with rows := single.rows ++ [[.int 1]] } := by decide
  have rows : cells = [[.int 1]] := by
    rw [changed] at grown
    exact List.append_cancel_left (congrArg Relation.rows (Except.ok.inj grown))
  refine ⟨cells, appends, rows, changed, ?_⟩
  rw [Ne, unchanged, rows]
  exact List.cons_ne_nil _ _

/-- The append fails, but the first of its rows stays in the relation. -/
theorem addRows_leaves_row :
    (stored.addRows 0 mixed).2 =
      .error (.argument (.rowWidth [.int 2, .int 3] "[R.a]" (.string "R"))) ∧
    (stored.addRows 0 mixed).1.relation 0 = .ok { single with rows := [[.int 0], [.int 1]] } := by
  decide

end Sample

/-! ### Requests -/

/-- All base relations of the store have the property. -/
def Each (P : Relation → Prop) (s : Store) : Prop :=
  ∀ id base, s.relation id = .ok base → P base

theorem Each.setRelation_iff {P : Relation → Prop} (h : s.Each P) (hbase : s.relation id = .ok base)
    (other : Relation) : (s.setRelation id other).Each P ↔ P other := by
  obtain ⟨notes, hnode⟩ := relation_eq_ok.mp hbase
  obtain ⟨hid, -⟩ := List.getElem?_eq_some_iff.mp hnode
  rw [setRelation_eq hnode]
  constructor
  · intro each
    apply each id
    exact relation_eq_ok.mpr ⟨notes, by simp [hid]⟩
  · intro hother i found hfound
    obtain ⟨notes', hnode'⟩ := relation_eq_ok.mp hfound
    rw [List.getElem?_set] at hnode'
    split at hnode'
    · cases hnode'
      exact hother
    · exact h i found (relation_eq_ok.mpr ⟨notes', hnode'⟩)

theorem Each.add_iff {P : Relation → Prop} (h : s.Each P) (notes : Notes) :
    (s.add ⟨notes, .relation base⟩).2.Each P ↔ P base := by
  constructor
  · intro each
    apply each s.nodes.length
    exact relation_eq_ok.mpr ⟨notes, by simp [add]⟩
  · intro hbase i found hfound
    obtain ⟨notes', hnode⟩ := relation_eq_ok.mp hfound
    rw [add, List.getElem?_append] at hnode
    split at hnode
    · exact h i found (relation_eq_ok.mpr ⟨notes', hnode⟩)
    · have last := List.mem_singleton.mp (List.mem_of_getElem? hnode)
      cases last
      exact hbase

/-- The store after a request. A request that is refused changes nothing, but rows in front of one
that does not fit are added. -/
def perform (s : Store) : RelationRequest → Store
  | .create name schema rows =>
    match Relation.make name schema rows with
    | .ok base => (s.add ⟨{}, .relation base⟩).2
    | .error _ => s
  | .addRows id rows => (s.addRows id rows).1
  | .setSchema id schema adoptName =>
    match s.setSchema id (some schema) adoptName with
    | .ok changed => changed
    | .error _ => s
  | .copy id =>
    match s.copy id with
    | .ok (_, grown) => grown
    | .error _ => s

/-- The store that requests lead to. -/
def run (requests : List RelationRequest) : Store :=
  requests.foldl perform {}

end Store

/-- The request gives no relation with rows a schema of another width. -/
def RelationRequest.KeepsWidth (s : Store) (request : RelationRequest) : Prop :=
  ∀ id schema adoptName base present, request = .setSchema id schema adoptName →
    s.relation id = .ok base → base.rows ≠ [] → base.schema = some present →
    schema.size = present.size

namespace Store

variable {s : Store} {P : Relation → Prop}

/-- What new relations have and appending keeps holds of all relations after a request exactly if
it holds of the relation that gets another schema, if one does. -/
theorem Each.perform_iff
    (made : ∀ name schema rows base, Relation.make name schema rows = .ok base → P base)
    (appended : ∀ base rows, P base → P (base.addRows rows).1) (h : s.Each P)
    (request : RelationRequest) :
    (s.perform request).Each P ↔ ∀ id schema adoptName base,
      request = .setSchema id schema adoptName → s.relation id = .ok base →
      P (base.setSchema schema adoptName) := by
  cases request with
  | create name schema rows =>
      refine iff_of_true ?_ (by rintro _ _ _ _ ⟨⟩)
      rw [perform]
      cases hmake : Relation.make name schema rows with
      | error fault => exact h
      | ok base => exact (h.add_iff {}).mpr (made _ _ _ _ hmake)
  | addRows id rows =>
      refine iff_of_true ?_ (by rintro _ _ _ _ ⟨⟩)
      rw [perform]
      cases hbase : s.relation id with
      | error fault => simpa only [addRows, hbase] using h
      | ok base =>
          rw [addRows_eq hbase]
          exact (h.setRelation_iff hbase _).mpr (appended base rows (h id base hbase))
  | setSchema id schema adoptName =>
      rw [perform]
      cases hbase : s.relation id with
      | error fault =>
          refine iff_of_true ?_ ?_
          · simpa only [setSchema, hbase, error_bind] using h
          · rintro _ _ _ base ⟨⟩ hfound
            cases hbase.symm.trans hfound
      | ok base =>
          simp only [setSchema, hbase, ok_bind]
          refine (h.setRelation_iff hbase _).trans ?_
          constructor
          · rintro kept _ _ _ found ⟨⟩ hfound
            cases hbase.symm.trans hfound
            exact kept
          · intro kept
            exact kept id schema adoptName base rfl hbase
  | copy id =>
      refine iff_of_true ?_ (by rintro _ _ _ _ ⟨⟩)
      rw [perform]
      cases hcopy : s.copy id with
      | error fault => exact h
      | ok copied =>
          obtain ⟨node, hnode, hcopied⟩ := bind_eq_ok.mp hcopy
          obtain ⟨base, hbase, hadd⟩ := bind_eq_ok.mp hcopied
          cases hadd
          obtain ⟨notes, hfound⟩ := relation_eq_ok.mp hbase
          simp only [Store.node, hfound] at hnode
          cases hnode
          exact (h.add_iff notes).mpr (h id base hbase)

/-- A request keeps rows fitting exactly if it keeps the width of schemas over rows. -/
theorem Each.rowsFit_perform_iff (h : s.Each Relation.RowsFit) (request : RelationRequest) :
    (s.perform request).Each Relation.RowsFit ↔ request.KeepsWidth s := by
  refine (h.perform_iff (fun _ _ _ _ => Relation.rowsFit_of_make)
    (fun _ rows fit => fit.addRows rows) request).trans ?_
  constructor
  · intro fit id schema adoptName base present hrequest hbase hrows hpresent
    have replaced := fit id schema adoptName base hrequest hbase
    exact ((h id base hbase).setSchema_iff schema adoptName).mp replaced hrows present hpresent
  · intro kept id schema adoptName base hrequest hbase
    apply ((h id base hbase).setSchema_iff schema adoptName).mpr
    intro hrows present hpresent
    exact kept id schema adoptName base present hrequest hbase hrows hpresent

theorem run_concat (requests : List RelationRequest) (request : RelationRequest) :
    run (requests ++ [request]) = (run requests).perform request := by
  rw [run, List.foldl_append]
  rfl

theorem each_run_nil : (run []).Each P := by
  intro id base hbase
  obtain ⟨notes, hnode⟩ := relation_eq_ok.mp hbase
  cases hnode

/-- Relations with rows have a schema after all requests. -/
theorem each_run_hasSchema (requests : List RelationRequest) :
    (run requests).Each Relation.HasSchema := by
  induction requests using List.reverseRecOn with
  | nil => exact each_run_nil
  | append_singleton before request ih =>
      rw [run_concat]
      apply (ih.perform_iff ?_ ?_ request).mpr
      · intro _ schema _ base _ _ _
        exact ⟨_, rfl⟩
      · intro _ _ _ base hmake
        exact (Relation.rowsFit_of_make hmake).hasSchema
      · intro base rows hbase
        exact hbase.addRows rows

/-- Relations with rows have a schema at all times. The rows of all relations fit at all times
exactly if no request gives a relation with rows a schema of another width. -/
theorem rowsFit_run_iff (requests : List RelationRequest) :
    (run requests).Each Relation.HasSchema ∧
    ((∀ reached, reached <+: requests → (run reached).Each Relation.RowsFit) ↔
      ∀ before request, before ++ [request] <+: requests → request.KeepsWidth (run before)) := by
  refine ⟨each_run_hasSchema requests, ?_⟩
  constructor
  · intro fit before request hprefix
    have after := fit _ hprefix
    rw [run_concat] at after
    exact ((fit before ((List.prefix_append _ _).trans hprefix)).rowsFit_perform_iff request).mp
      after
  · intro kept reached
    induction reached using List.reverseRecOn with
    | nil =>
        intro _
        exact each_run_nil
    | append_singleton before request ih =>
        intro hprefix
        rw [run_concat]
        have fit := ih ((List.prefix_append _ _).trans hprefix)
        exact (fit.rowsFit_perform_iff request).mpr (kept before request hprefix)

namespace Sample

/-- A schema with columns of the given names. -/
def schemaOf (names : List String) : Schema :=
  ⟨names.map fun name => ⟨.string name, .string "R", .string "number"⟩⟩

/-- A relation with a row of two values gets a schema with one column. -/
def narrowing : List RelationRequest :=
  [.create (.string "R") (some (schemaOf ["a", "b"])) (some (.list [.list [.int 1, .int 2]])),
    .setSchema 0 (schemaOf ["a"]) false]

/-- The row stays as it is and does not fit the new schema. -/
theorem rowsFit_run_narrowing : ¬(run narrowing).Each Relation.RowsFit := by
  intro fit
  have reached : (run narrowing).relation 0 =
      .ok ⟨.string "R", some (schemaOf ["a"]), [[.int 1, .int 2]]⟩ := by decide
  have width := (fit 0 _ reached).length_eq rfl (List.mem_singleton_self _)
  exact absurd width (by decide)

/-- A relation with a row gets another one from an append that fails, then a schema with other
names, and is copied. -/
def renamed : List RelationRequest :=
  [.create (.string "R") (some (schemaOf ["a", "b"])) (some (.list [.list [.int 1, .int 2]])),
    .addRows 0 (.list [.list [.int 3, .int 4], .list [.int 5]]),
    .setSchema 0 (schemaOf ["c", "d"]) true, .copy 0]

/-- The new schema is as wide as the old one, so the rows fit at all times, also in the copy. -/
theorem rowsFit_run_renamed :
    (run renamed).relation 1 = .ok ⟨.string "R", some (schemaOf ["c", "d"]),
      [[.int 1, .int 2], [.int 3, .int 4]]⟩ ∧
    ∀ reached, reached <+: renamed → (run reached).Each Relation.RowsFit := by
  refine ⟨by decide, (rowsFit_run_iff renamed).2.mpr ?_⟩
  rintro before request hprefix id schema adoptName base present rfl hbase - hpresent
  obtain ⟨after, hrequests⟩ := hprefix
  rw [List.append_assoc, List.singleton_append] at hrequests
  -- The third request is the only one that replaces a schema.
  rcases before with - | ⟨first, - | ⟨second, - | ⟨third, - | ⟨fourth, rest⟩⟩⟩⟩
  case cons.cons.nil =>
    cases hrequests
    cases hbase
    cases hpresent
    rfl
  case cons.cons.cons.cons => cases rest <;> cases hrequests
  all_goals cases hrequests

end Sample

end Store

end LogicalPlan
