import LogicalPlan.Proofs.Document.Printer
import LogicalPlan.Proofs.Outcome
import LogicalPlan.Proofs.Query.WellFormed

/-!
# Loading canonical documents

Loading the canonical document of a query gives the query back, in every style of writing it. Lemmas
about lookups tell what is found in the members that a style writes down; every loader is then shown
to read back the part that its printer wrote, up to whole queries by induction.
-/

namespace LogicalPlan

open Outcome

namespace Query

/-- The argument is a literal. -/
def TermArgument.isLiteral : TermArgument → Bool
  | .literal _ => true
  | .nested _ => false

namespace Term

mutual

/-- Literals stand where they are read as literals: a function of literals has no nested arguments,
and among other arguments no literal is an object. -/
def isReadable : Term → Bool
  | .mk _ _ func args =>
    if takesLiterals func then args.all TermArgument.isLiteral else areReadable args

/-- The arguments of a function of nested expressions are read as what they are. -/
def areReadable : List TermArgument → Bool
  | [] => true
  | .literal (.object _) :: _ => false
  | .literal _ :: as => areReadable as
  | .nested t :: as => isReadable t && areReadable as

end

end Term

end Query

namespace Document

open Query

/-- What is read back from every printed item is the list of the items. -/
theorem mapM_map_eq_ok {α : Type} {load : Value → Outcome α} {write : α → Value} {items : List α}
    (h : ∀ a ∈ items, load (write a) = .ok a) : (items.map write).mapM load = .ok items :=
  mapM_eq_ok.mpr (List.forall₂_map_left_iff.mpr (List.forall₂_same.mpr h))

/-! ### Lookups -/

theorem require_of_get? {members : Members} {key : String} {v : Value}
    (h : members.get? key = some v) :
    require members key = .ok ⟨v, Members.weight_of_get? h⟩ := by
  unfold require
  split
  case h_1 found hfound =>
    rw [hfound] at h
    cases h
    rfl
  case h_2 hfound =>
    rw [hfound] at h
    cases h

theorem requireValue_eq (members : Members) (key : String) :
    requireValue members key =
      (members.get? key).elim (.error (.document (.missingAttribute key members))) .ok := by
  unfold requireValue require
  split
  case h_1 found hfound =>
    simp only [hfound]
    rfl
  case h_2 hfound =>
    simp only [hfound]
    rfl

namespace Style

variable (style : Style)

/-- What a lookup finds of an attribute. -/
def written (a : Attribute) : Option Value :=
  if style.shows a then some a.value else none

section Lookup

variable {key other : String} {v missing : Value} {rest : List Attribute}

@[simp] theorem get?_nil : (style.members []).get? key = none := by
  simp [members, Members.get?]

theorem get?_cons (a : Attribute) :
    (style.members (a :: rest)).get? key =
      if key = a.key then (style.written a).or ((style.members rest).get? key)
      else (style.members rest).get? key := by
  by_cases hshown : style.shows a = true
  · simp [members, written, hshown, Members.get?_cons]
  · simp [members, written, hshown]

@[simp] theorem get?_required :
    (style.members (.required key v :: rest)).get? key = some v := by
  simp [get?_cons, written, shows, Attribute.required]

@[simp] theorem get?_required_of_ne (h : key ≠ other) :
    (style.members (.required other v :: rest)).get? key = (style.members rest).get? key := by
  simp [get?_cons, Attribute.required, h]

@[simp] theorem get?_optional (h : (style.members rest).get? key = none) :
    (style.members (.optional key v missing :: rest)).get? key =
      style.written (.optional key v missing) := by
  simp [get?_cons, Attribute.optional, h]

@[simp] theorem get?_optional_of_ne (h : key ≠ other) :
    (style.members (.optional other v missing :: rest)).get? key =
      (style.members rest).get? key := by
  simp [get?_cons, Attribute.optional, h]

/-- An attribute that is not written down has its default value. -/
@[simp] theorem getD_written : (style.written (.optional key v missing)).getD missing = v := by
  unfold written shows Attribute.optional
  by_cases h : missing = v <;> cases style.omits key <;> simp [h]

@[simp] theorem flag_written {b d : Bool} :
    ((style.written (.optional key (.bool b) (.bool d))).map Value.isTruthy).getD d = b := by
  have found : (style.written (.optional key (.bool b) (.bool d))).getD (.bool d) = .bool b :=
    style.getD_written
  cases h : style.written (.optional key (.bool b) (.bool d)) with
  | none =>
      rw [h] at found
      exact Value.bool.inj found
  | some w =>
      rw [h] at found
      cases found
      rfl

end Lookup

/-! ### Parts that both grammars share -/

theorem loadPoint_point (p : SourcePoint) : loadPoint (style.point p) = .ok p := by
  simp [loadPoint, point, object, Document.node]

/-- Both end points are found in an object that has them. -/
theorem endPoints_of_get? {attributes : List Attribute} {s : SourceSpan}
    (hstart : (style.members attributes).get? "start" = some (style.point s.start))
    (hstop : (style.members attributes).get? "end" = some (style.point s.stop)) :
    Document.endPoints (style.object attributes) =
      .ok (some (style.point s.start, style.point s.stop)) := by
  simp [Document.endPoints, object, hstart, hstop]

/-- The end points of a position may stand in a location or beside its text. -/
theorem loadSpan_of_endPoints {attributes : List Attribute} {s : SourceSpan}
    (hshown : (style.members attributes).isEmpty = false)
    (hlocation : Document.endPoints
      (((style.members attributes).get? "location").getD (style.object attributes)) =
        .ok (some (style.point s.start, style.point s.stop)))
    (htext : ((style.members attributes).get? "text").getD (.string "") = s.text) :
    loadSpan (style.object attributes) = .ok (some s) := by
  unfold object at hlocation
  unfold loadSpan object
  simp only [Value.isTruthy, hshown, Bool.not_false, Bool.not_true, Bool.false_eq_true, if_false,
    Document.node, ok_bind, hlocation, loadPoint_point, htext]

theorem loadSpan_span (s : SourceSpan) : loadSpan (style.span s) = .ok (some s) := by
  unfold span
  dsimp only
  split
  · apply loadSpan_of_endPoints
    · simp [members, shows, Attribute.required, Attribute.optional]
    · rw [get?_optional_of_ne _ (by decide), get?_required]
      exact style.endPoints_of_get? (by simp [endPoints]) (by simp [endPoints])
    · simp
  · apply loadSpan_of_endPoints
    · simp [members, endPoints, shows, Attribute.required, Attribute.optional]
    · rw [show (style.members (_ :: style.endPoints s)).get? "location" = none by simp [endPoints]]
      exact style.endPoints_of_get? (by simp [endPoints]) (by simp [endPoints])
    · simp [endPoints]

theorem loadSpan_optional (s : Option SourceSpan) :
    loadSpan ((s.map style.span).getD .null) = .ok s := by
  cases s with
  | none => rfl
  | some s => exact style.loadSpan_span s

@[simp] theorem get?_origin {key : String} {o : Origin} (hspan : key ≠ "codeInfo")
    (hflag : key ≠ "wrappedInParentheses") : (style.members (style.origin o)).get? key = none := by
  simp [origin, hspan, hflag]

@[simp] theorem loadOrigin_origin (o : Origin) :
    loadOrigin (style.members (style.origin o)) = .ok o := by
  simp [loadOrigin, attributeOf, flag, origin, loadSpan_optional]

section Origin

variable {other : String} {v missing : Value} {rest : List Attribute}

@[simp] theorem loadOrigin_required (hspan : other ≠ "codeInfo")
    (hflag : other ≠ "wrappedInParentheses") :
    loadOrigin (style.members (.required other v :: rest)) = loadOrigin (style.members rest) := by
  simp [loadOrigin, attributeOf, flag, hspan.symm, hflag.symm]

@[simp] theorem loadOrigin_optional (hspan : other ≠ "codeInfo")
    (hflag : other ≠ "wrappedInParentheses") :
    loadOrigin (style.members (.optional other v missing :: rest)) =
      loadOrigin (style.members rest) := by
  simp [loadOrigin, attributeOf, flag, hspan.symm, hflag.symm]

end Origin

/-! #### Value expressions -/

theorem map_literal_arguments {args : List TermArgument}
    (h : args.all TermArgument.isLiteral = true) :
    (style.arguments args).map TermArgument.literal = args := by
  induction args with
  | nil => rfl
  | cons a as ih =>
      simp only [List.all_cons, Bool.and_eq_true] at h
      cases a with
      | literal v => rw [arguments, argument, List.map_cons, ih h.2]
      | nested t => cases h.1

/-- An expression is read off its four attributes. -/
theorem loadTerm_of_get? {members : Members} {o : Origin} {datatype func : Value}
    {items : List Value} {args : List TermArgument}
    (hfunc : members.get? "func" = some func)
    (hitems : (members.get? "args").getD (.list []) = .list items)
    (hargs : (if Term.takesLiterals func then .ok (items.map TermArgument.literal)
      else loadArguments items) = .ok args)
    (hdatatype : members.get? "datatype" = some datatype) (ho : loadOrigin members = .ok o) :
    loadTerm (.object members) = .ok (.mk o datatype func args) := by
  rw [loadTerm]
  simp only [membersOf, ok_bind, requireValue_eq, hfunc, hdatatype, Option.elim_some, ho]
  split
  case h_1 hmissing =>
    -- Without the attribute there are no arguments, of whichever kind.
    rw [hmissing] at hitems
    cases hitems
    have none : args = [] := by
      split at hargs
      · exact (Except.ok.inj hargs).symm
      · rw [loadArguments] at hargs
        exact (Except.ok.inj hargs).symm
    rw [none]
  case h_2 found hfound =>
    rw [hfound] at hitems
    cases hitems
    split at hargs
    case isTrue hfunc =>
      cases hargs
      rw [if_pos hfunc]
    case isFalse hfunc => rw [if_neg hfunc, hargs, ok_bind]
  case h_3 raw hother hfound =>
    rw [hfound] at hitems
    exact absurd hitems (hother items)

mutual

/-- Loading reads back a value expression. -/
theorem loadTerm_term : ∀ {t : Term}, t.isReadable = true → loadTerm (style.term t) = .ok t
  | .mk o datatype func args, h => by
    unfold term node object
    have hitems : ((style.members ([.required "type" (.string "valueExpr"),
        .required "datatype" datatype, .required "func" func,
        .optional "args" (.list (style.arguments args)) (.list [])] ++ style.origin o)).get?
          "args").getD (.list []) = .list (style.arguments args) := by
      simp
    apply loadTerm_of_get? ?_ hitems
    · unfold Term.isReadable at h
      split at h
      case isTrue hfunc => rw [if_pos hfunc, style.map_literal_arguments h]
      case isFalse hfunc => rw [if_neg hfunc, loadArguments_arguments h]
    · simp
    · simp
    · simp

/-- Loading reads back the arguments of a function of nested expressions. -/
theorem loadArguments_arguments : ∀ {args : List TermArgument}, Term.areReadable args = true →
    loadArguments (style.arguments args) = .ok args
  | [], _ => by rw [arguments, loadArguments]
  | .literal v :: as, h => by
    have rest : Term.areReadable as = true := by
      cases v <;> simp_all [Term.areReadable]
    cases v with
    | object members => simp [Term.areReadable] at h
    | _ => simp only [arguments, argument, loadArguments, loadArguments_arguments rest, ok_bind]
  | .nested t :: as, h => by
    simp only [Term.areReadable, Bool.and_eq_true] at h
    have first := loadTerm_term h.1
    cases t with
    | mk o datatype func args =>
        rw [arguments, argument, term, node, object, loadArguments]
        rw [term, node, object] at first
        rw [first, ok_bind, loadArguments_arguments h.2, ok_bind]

end

/-! #### Columns, aggregates, orderings and qualifiers -/

theorem loadColumn_column (c : Option ColumnRef) : loadColumn (style.column c) = .ok c := by
  cases c with
  | none => rfl
  | some c => simp [column, node, object, loadColumn, nodeWith, requireValue_eq, attributeOf]

theorem mapM_loadColumn (columns : List (Option ColumnRef)) :
    (columns.map style.column).mapM loadColumn = .ok columns :=
  mapM_map_eq_ok fun c _ => style.loadColumn_column c

theorem loadComputedColumn_computed (type : String) {c : ComputedColumn}
    (h : c.child.isReadable = true) :
    loadComputedColumn (style.members (.required "type" (.string type) ::
      .required "name" c.name :: .optional "relAlias" c.relAlias .null ::
      .required "child" (style.term c.child) :: style.origin c.origin)) = .ok c := by
  simp [loadComputedColumn, requireValue_eq, attributeOf, style.loadTerm_term h]

theorem loadAggregate_aggregate (call : AggregateCall) :
    loadAggregate (style.aggregate call) = .ok call := by
  simp [aggregate, node, object, loadAggregate, nodeWith, requireValue_eq, attributeOf,
    loadColumn_column]

theorem loadOrderEntry_orderEntry (entry : OrderEntry) :
    loadOrderEntry (style.orderEntry entry) = .ok entry := by
  simp [orderEntry, object, loadOrderEntry, nodeWith, requireValue_eq, flag, loadColumn_column]

/-- The entries of an ordering are found inside and outside of an object. -/
theorem loadOrderEntries_order (entries : List OrderEntry) :
    loadOrderEntries (style.order entries) = .ok entries := by
  have read : (entries.map style.orderEntry).mapM loadOrderEntry = .ok entries :=
    mapM_map_eq_ok fun entry _ => style.loadOrderEntry_orderEntry entry
  unfold order
  dsimp only
  split <;> simp [loadOrderEntries, object, Value.items, read]

theorem loadQualifier_qualifier {q : JoinQualifier} (h : ∀ t ∈ q.terms, t.isReadable = true) :
    loadQualifier (style.qualifier q) = .ok q := by
  cases q with
  | absent => rfl
  | columns names => rfl
  | condition t =>
      have read := style.loadTerm_term (h t (by simp [JoinQualifier.terms]))
      cases t with
      | mk o datatype func args =>
          unfold qualifier
          unfold term node object at read ⊢
          simp only [loadQualifier, read, ok_bind]

/-! ### SQL -/

theorem loadSelectItem_selectItem {item : SelectItem} (h : ∀ t ∈ item.terms, t.isReadable = true) :
    loadSelectItem (style.selectItem item) = .ok item := by
  cases item with
  | column o name relAlias label =>
      simp [selectItem, node, object, loadSelectItem, Document.node, requireValue_eq, attributeOf]
  | aggregate call =>
      have read := style.loadAggregate_aggregate call
      unfold aggregate node object at read
      simp only [selectItem, aggregate, node, object, loadSelectItem, Document.node, ok_bind,
        List.cons_append, attributeOf, get?_required, Option.getD_some] at read ⊢
      rw [read]
      rfl
  | computed c =>
      have read := style.loadComputedColumn_computed "namedColumnExpr"
        (h c.child (by simp [SelectItem.terms]))
      simp [selectItem, computed, node, object, loadSelectItem, Document.node, attributeOf, read,
        Except.map]

theorem loadSelect_select (clause : SelectClause)
    (h : ∀ t ∈ clause.items.flatMap SelectItem.terms, t.isReadable = true) :
    loadSelect (style.select clause) = .ok clause := by
  have read : (clause.items.map style.selectItem).mapM loadSelectItem = .ok clause.items := by
    refine mapM_map_eq_ok fun item hitem => style.loadSelectItem_selectItem ?_
    exact fun t ht => h t (List.mem_flatMap.mpr ⟨item, hitem, ht⟩)
  simp [select, object, loadSelect, nodeWith, requireValue_eq, flag, Value.items, read]

theorem loadClause_condition (clause : Option ConditionClause)
    (h : ∀ t ∈ Clauses.conditions clause, t.isReadable = true) :
    loadClause (style.condition clause) = .ok clause := by
  cases clause with
  | none => rfl
  | some clause =>
      have read := style.loadTerm_term (h clause.condition (by simp [Clauses.conditions]))
      simp [condition, object, loadClause, nodeWith, requireValue_eq, read]

theorem loadGroupBy_groupBy (columns : Option (List (Option ColumnRef))) :
    loadGroupBy (style.groupBy columns) = .ok columns := by
  cases columns with
  | none => rfl
  | some columns =>
      simp only [groupBy, loadGroupBy, Value.items, ok_bind, mapM_loadColumn]
      rfl

end Style

/-- A statement is read off its clauses. -/
theorem loadSql_statement {members : Members} {select input : Value} {c : Clauses} {source : Sql}
    {o : Origin} (htype : members.get? "type" = some (.string "statement"))
    (hgroupBy : loadGroupBy (attributeOf members "groupBy") = .ok c.groupBy)
    (hselect : members.get? "select" = some select) (hclause : loadSelect select = .ok c.select)
    (hinput : members.get? "from" = some input) (hsource : loadSql input = .ok source)
    (hfilter : loadClause (attributeOf members "where") = .ok c.filter)
    (hhaving : loadClause (attributeOf members "having") = .ok c.having)
    (hcount : (members.get? "numAggregationColumns").getD (.int 0) = c.aggregateCount)
    (ho : loadOrigin members = .ok o) :
    loadSql (.object members) = .ok (.statement o c source) := by
  rw [loadSql]
  simp [membersOf, requireValue_eq, htype, Value.isHashable, sqlBinary?, sqlUnary?, hgroupBy,
    hselect, hclause, require_of_get? hinput, hsource, hfilter, hhaving, hcount, ho]

/-- A binary SQL node is read off its type tag, its two inputs and its own attributes. -/
theorem loadSql_binary {members : Members} {type : String} {load : Members → Outcome SqlBinary}
    {first second : Value} {left right : Sql} {op : SqlBinary} {o : Origin}
    (htype : members.get? "type" = some (.string type))
    (hload : sqlBinary? (.string type) = some load)
    (hfirst : members.get? "child" = some first) (hleft : loadSql first = .ok left)
    (hsecond : members.get? "child2" = some second) (hright : loadSql second = .ok right)
    (hop : load members = .ok op) (ho : loadOrigin members = .ok o) :
    loadSql (.object members) = .ok (.binary o op left right) := by
  rw [loadSql]
  simp [membersOf, requireValue_eq, htype, Value.isHashable, hload, require_of_get? hfirst,
    require_of_get? hsecond, hleft, hright, hop, ho]

/-- A unary SQL node is read off its type tag, its input and its own attributes. -/
theorem loadSql_unary {members : Members} {type key : String} {load : Members → Outcome SqlUnary}
    {input : Value} {child : Sql} {op : SqlUnary} {o : Origin}
    (htype : members.get? "type" = some (.string type))
    (hbinary : sqlBinary? (.string type) = none)
    (hload : sqlUnary? (.string type) = some (key, load))
    (hinput : members.get? key = some input) (hchild : loadSql input = .ok child)
    (hop : load members = .ok op) (ho : loadOrigin members = .ok o) :
    loadSql (.object members) = .ok (.unary o op child) := by
  rw [loadSql]
  simp [membersOf, requireValue_eq, htype, Value.isHashable, hbinary, hload, require_of_get? hinput,
    hchild, hop, ho]

namespace Style

variable (style : Style)

/-- The type tag of every unary SQL node tells where its input is and how its operator is read. -/
theorem loadSql_sqlUnary (op : SqlUnary) {o : Origin} {input : Value} {child : Sql}
    (hchild : loadSql input = .ok child) :
    loadSql (style.node (style.sqlUnary op).1
      (.required (style.sqlUnary op).2.1 input :: (style.sqlUnary op).2.2) o) =
      .ok (.unary o op child) := by
  have found {load : Members → Outcome SqlUnary}
      (hbinary : sqlBinary? (.string (style.sqlUnary op).1) = none)
      (hload : sqlUnary? (.string (style.sqlUnary op).1) = some ((style.sqlUnary op).2.1, load))
      (hop : load (style.members (.required "type" (.string (style.sqlUnary op).1) ::
        .required (style.sqlUnary op).2.1 input :: (style.sqlUnary op).2.2 ++ style.origin o)) =
          .ok op) :
      loadSql (style.node (style.sqlUnary op).1
        (.required (style.sqlUnary op).2.1 input :: (style.sqlUnary op).2.2) o) =
        .ok (.unary o op child) := by
    refine loadSql_unary (by simp) hbinary hload ?_ hchild hop ?_
    · cases op <;> simp [sqlUnary]
    · cases op <;> simp [sqlUnary]
  cases op with
  | renameRelation relAlias =>
      exact found rfl rfl (by simp [sqlUnary, requireValue_eq, Except.map])
  | subquery relAlias => exact found rfl rfl (by simp [sqlUnary, requireValue_eq, Except.map])
  | orderBy entries =>
      have read := style.loadOrderEntries_order entries
      exact found rfl rfl (by simp [sqlUnary, requireValue_eq, read, Except.map])
  | limit count offset => exact found rfl rfl (by simp [sqlUnary, requireValue_eq])

/-- The type tag of every binary SQL node tells how its operator is read. -/
theorem loadSql_sqlBinary {op : SqlBinary} (h : ∀ t ∈ op.terms, t.isReadable = true) {o : Origin}
    {first second : Value} {left right : Sql} (hleft : loadSql first = .ok left)
    (hright : loadSql second = .ok right) :
    loadSql (style.node (style.sqlBinary op).1
      (.required "child" first :: .required "child2" second :: (style.sqlBinary op).2) o) =
      .ok (.binary o op left right) := by
  have found {load : Members → Outcome SqlBinary}
      (hload : sqlBinary? (.string (style.sqlBinary op).1) = some load)
      (hop : load (style.members (.required "type" (.string (style.sqlBinary op).1) ::
        .required "child" first :: .required "child2" second :: (style.sqlBinary op).2 ++
          style.origin o)) = .ok op) :
      loadSql (style.node (style.sqlBinary op).1
        (.required "child" first :: .required "child2" second :: (style.sqlBinary op).2) o) =
        .ok (.binary o op left right) := by
    apply loadSql_binary (by simp) hload (by simp) hleft (by simp) hright hop
    rcases op with ⟨_ | _ | _ | _, _⟩ | _ | _ | ⟨_ | _ | _, _⟩ <;> simp [sqlBinary]
  cases op with
  | join kind q =>
      have read := style.loadQualifier_qualifier h
      cases kind <;> exact found rfl (by simp [sqlBinary, loadJoin, attributeOf, read, Except.map])
  | cross => exact found rfl rfl
  | natural => exact found rfl rfl
  | set operation keepsAll =>
      cases operation <;> exact found rfl (by simp [sqlBinary, loadSetOperation, flag])

/-- Loading reads back the canonical document of a SQL query. -/
theorem loadSql_sql {q : Sql} (h : ∀ t ∈ q.terms, t.isReadable = true) :
    loadSql (style.sql q) = .ok q := by
  induction q with
  | relation o name relAlias =>
      unfold sql node object
      rw [loadSql]
      simp [membersOf, requireValue_eq, Value.isHashable, sqlBinary?, sqlUnary?, attributeOf]
  | statement o c source ih =>
      have hsource := ih fun t ht => h t (by simp [Sql.terms, ht])
      have hclauses (t : Term) (ht : t ∈ c.terms) : t.isReadable = true :=
        h t (by simp [Sql.terms, ht])
      have hselect := style.loadSelect_select c.select
        fun t ht => hclauses t (by simp only [Clauses.terms, List.mem_append, ht, or_true])
      have hfilter := style.loadClause_condition c.filter
        fun t ht => hclauses t (by simp only [Clauses.terms, List.mem_append, ht, true_or])
      have hhaving := style.loadClause_condition c.having
        fun t ht => hclauses t (by simp only [Clauses.terms, List.mem_append, ht, or_true, true_or])
      refine loadSql_statement ?_ ?_ ?_ hselect ?_ hsource ?_ ?_ ?_ ?_
      · simp
      · simp [clauses, attributeOf, loadGroupBy_groupBy]
      · simp [clauses]
      · simp [clauses]
      · simp [clauses, attributeOf, hfilter]
      · simp [clauses, attributeOf, hhaving]
      · simp [clauses]
      · simp [clauses]
  | unary o op child ih => exact style.loadSql_sqlUnary op (ih h)
  | binary o op left right ihl ihr =>
      apply style.loadSql_sqlBinary
      · exact fun t ht => h t (by simp [Sql.terms, ht])
      · exact ihl fun t ht => h t (by simp [Sql.terms, ht])
      · exact ihr fun t ht => h t (by simp [Sql.terms, ht])

/-! ### Relational algebra -/

/-- The metadata of a node are an object, and there are none if they are missing. -/
@[simp] theorem toMembers_written {metadata : Members} :
    ((style.written (.optional "metaData" (.object metadata) (.object []))).getD .null).toMembers =
      .ok metadata := by
  have found : (style.written (.optional "metaData" (.object metadata) (.object []))).getD
      (.object []) = .object metadata :=
    style.getD_written
  cases h : style.written (.optional "metaData" (.object metadata) (.object [])) with
  | none =>
      rw [h] at found
      cases found
      rfl
  | some w =>
      rw [h] at found
      cases found
      rfl

theorem loadTableColumn_tableColumn (c : TableColumn) :
    loadTableColumn (style.tableColumn c) = .ok c := by
  simp [tableColumn, object, loadTableColumn, nodeWith, requireValue_eq, attributeOf]

theorem loadProjectionEntry_projectionEntry {entry : ProjectionEntry}
    (h : ∀ t ∈ entry.terms, t.isReadable = true) :
    loadProjectionEntry (style.projectionEntry entry) = .ok entry := by
  cases entry with
  | column ref =>
      simp [projectionEntry, column, node, object, loadProjectionEntry, Document.node,
        requireValue_eq, attributeOf]
  | computed c =>
      have read := style.loadComputedColumn_computed "namedColumnExpr"
        (h c.child (by simp [ProjectionEntry.terms]))
      simp [projectionEntry, computed, node, object, loadProjectionEntry, Document.node,
        attributeOf, read, Except.map]

theorem loadRenaming_columnRenaming (r : ColumnRenaming) :
    loadRenaming (style.columnRenaming r) = .ok r := by
  simp [columnRenaming, object, loadRenaming, nodeWith, requireValue_eq, loadColumn_column]

end Style

/-- A binary algebra node is read off its type tag, its two inputs and its own attributes. -/
theorem loadAlgebra_binary {members : Members} {type : String}
    {load : Members → Outcome AlgebraBinary} {first second : Value} {left right : Algebra}
    {op : AlgebraBinary} {header : Header} (htype : members.get? "type" = some (.string type))
    (hload : algebraBinary? (.string type) = some load)
    (hfirst : members.get? "child" = some first) (hleft : loadAlgebra first = .ok left)
    (hsecond : members.get? "child2" = some second) (hright : loadAlgebra second = .ok right)
    (hop : load members = .ok op) (hheader : loadHeader members = .ok header) :
    loadAlgebra (.object members) = .ok (.binary header op left right) := by
  rw [loadAlgebra]
  simp [membersOf, requireValue_eq, htype, Value.isHashable, hload, require_of_get? hfirst,
    require_of_get? hsecond, hleft, hright, hop, hheader]

/-- A unary algebra node is read off its type tag, its input and its own attributes, whichever of
these is read first. -/
theorem loadAlgebra_unary {members : Members} {type : String}
    {load : Members → Outcome AlgebraUnary} {input : Value} {child : Algebra} {op : AlgebraUnary}
    {header : Header} (htype : members.get? "type" = some (.string type))
    (hbinary : algebraBinary? (.string type) = none)
    (hload : (algebraUnaryFirst? (.string type)).or (algebraUnaryLast? (.string type)) = some load)
    (hinput : members.get? "child" = some input) (hchild : loadAlgebra input = .ok child)
    (hop : load members = .ok op) (hheader : loadHeader members = .ok header) :
    loadAlgebra (.object members) = .ok (.unary header op child) := by
  rw [loadAlgebra]
  cases hfirst : algebraUnaryFirst? (.string type) with
  | some first =>
      rw [hfirst, Option.some_or] at hload
      cases hload
      simp [membersOf, requireValue_eq, htype, Value.isHashable, hbinary, hfirst, hop,
        require_of_get? hinput, hchild, hheader]
  | none =>
      rw [hfirst, Option.none_or] at hload
      simp [membersOf, requireValue_eq, htype, Value.isHashable, hbinary, hfirst, hload,
        require_of_get? hinput, hchild, hop, hheader]

namespace Style

variable (style : Style)

/-- The type tag of every unary algebra node tells how its operator is read. -/
theorem loadAlgebra_algebraUnary {op : AlgebraUnary} (h : ∀ t ∈ op.terms, t.isReadable = true)
    {header : Header} {input : Value} {child : Algebra} (hchild : loadAlgebra input = .ok child) :
    loadAlgebra (style.algebraNode (style.algebraUnary op).1
      (.required "child" input :: (style.algebraUnary op).2) header) =
      .ok (.unary header op child) := by
  have found {load : Members → Outcome AlgebraUnary}
      (hbinary : algebraBinary? (.string (style.algebraUnary op).1) = none)
      (hload : (algebraUnaryFirst? (.string (style.algebraUnary op).1)).or
        (algebraUnaryLast? (.string (style.algebraUnary op).1)) = some load)
      (hop : load (style.members (.required "type" (.string (style.algebraUnary op).1) ::
        .optional "metaData" (.object header.metadata) (.object []) :: .required "child" input ::
        (style.algebraUnary op).2 ++ style.origin header.origin)) = .ok op) :
      loadAlgebra (style.algebraNode (style.algebraUnary op).1
        (.required "child" input :: (style.algebraUnary op).2) header) =
        .ok (.unary header op child) := by
    apply loadAlgebra_unary (by simp) hbinary hload (by simp) hchild hop
    cases op <;> simp [algebraUnary, loadHeader, attributeOf]
  cases op with
  | selection t =>
      have read := style.loadTerm_term (h t (by simp [AlgebraUnary.terms]))
      exact found rfl rfl (by simp [algebraUnary, requireValue_eq, read, Except.map])
  | projection entries =>
      have read : (entries.map style.projectionEntry).mapM loadProjectionEntry = .ok entries := by
        refine mapM_map_eq_ok fun entry hentry => style.loadProjectionEntry_projectionEntry ?_
        exact fun t ht => h t (List.mem_flatMap.mpr ⟨entry, hentry, ht⟩)
      exact found rfl rfl (by simp [algebraUnary, requireValue_eq, Value.items, read, Except.map])
  | orderBy entries =>
      have read := style.loadOrderEntries_order entries
      exact found rfl rfl (by simp [algebraUnary, requireValue_eq, read, Except.map])
  | groupBy groups aggregates =>
      have readGroups := style.mapM_loadColumn groups
      have readAggregates : (aggregates.map style.aggregate).mapM loadAggregate = .ok aggregates :=
        mapM_map_eq_ok fun call _ => style.loadAggregate_aggregate call
      exact found rfl rfl
        (by simp [algebraUnary, loadItems, Value.items, readGroups, readAggregates])
  | renameColumns renamings =>
      have read : (renamings.map style.columnRenaming).mapM loadRenaming = .ok renamings :=
        mapM_map_eq_ok fun r _ => style.loadRenaming_columnRenaming r
      exact found rfl rfl (by simp [algebraUnary, requireValue_eq, Value.items, read, Except.map])
  | renameRelation relAlias =>
      exact found rfl rfl (by simp [algebraUnary, requireValue_eq, Except.map])

/-- The type tag of every binary algebra node tells how its operator is read. -/
theorem loadAlgebra_algebraBinary {op : AlgebraBinary} (h : ∀ t ∈ op.terms, t.isReadable = true)
    {header : Header} {first second : Value} {left right : Algebra}
    (hleft : loadAlgebra first = .ok left) (hright : loadAlgebra second = .ok right) :
    loadAlgebra (style.algebraNode (style.algebraBinary op).1
      (.required "child" first :: .required "child2" second :: (style.algebraBinary op).2) header) =
      .ok (.binary header op left right) := by
  have found {load : Members → Outcome AlgebraBinary}
      (hload : algebraBinary? (.string (style.algebraBinary op).1) = some load)
      (hop : load (style.members (.required "type" (.string (style.algebraBinary op).1) ::
        .optional "metaData" (.object header.metadata) (.object []) :: .required "child" first ::
        .required "child2" second :: (style.algebraBinary op).2 ++ style.origin header.origin)) =
          .ok op) :
      loadAlgebra (style.algebraNode (style.algebraBinary op).1
        (.required "child" first :: .required "child2" second :: (style.algebraBinary op).2)
        header) = .ok (.binary header op left right) := by
    apply loadAlgebra_binary (by simp) hload (by simp) hleft (by simp) hright hop
    rcases op with _ | _ | _ | _ | _ | _ | _ | _ | _ | _ | ⟨_ | _ | _, _⟩ <;>
      simp [algebraBinary, loadHeader, attributeOf]
  cases op with
  | theta t =>
      have read := style.loadTerm_term (h t (by simp [AlgebraBinary.terms]))
      exact found rfl (by simp [algebraBinary, requireValue_eq, read, Except.map])
  | outer side q =>
      have read := style.loadQualifier_qualifier h
      cases side <;>
        exact found rfl (by simp [algebraBinary, loadOuterJoin, attributeOf, read, Except.map])
  | _ => exact found rfl rfl

/-- Loading reads back the canonical document of an algebra query. -/
theorem loadAlgebra_algebra {q : Algebra} (h : ∀ t ∈ q.terms, t.isReadable = true) :
    loadAlgebra (style.algebra q) = .ok q := by
  induction q with
  | relation header name =>
      unfold algebra algebraNode node object
      rw [loadAlgebra]
      simp [membersOf, requireValue_eq, Value.isHashable, algebraBinary?, algebraUnaryFirst?,
        algebraUnaryLast?, loadHeader, attributeOf]
  | table header inline =>
      have readColumns : (inline.columns.map style.tableColumn).mapM loadTableColumn =
          .ok inline.columns :=
        mapM_map_eq_ok fun c _ => style.loadTableColumn_tableColumn c
      have readRows : (inline.rows.map Value.list).mapM Value.items = .ok inline.rows :=
        mapM_map_eq_ok fun _ _ => rfl
      unfold algebra algebraNode node object
      rw [loadAlgebra]
      simp [membersOf, requireValue_eq, Value.isHashable, algebraBinary?, algebraUnaryFirst?,
        algebraUnaryLast?, loadTable, table, loadHeader, attributeOf, Value.items, readColumns,
        readRows]
  | unary header op child ih =>
      apply style.loadAlgebra_algebraUnary
      · exact fun t ht => h t (by simp [Algebra.terms, ht])
      · exact ih fun t ht => h t (by simp [Algebra.terms, ht])
  | binary header op left right ihl ihr =>
      apply style.loadAlgebra_algebraBinary
      · exact fun t ht => h t (by simp [Algebra.terms, ht])
      · exact ihl fun t ht => h t (by simp [Algebra.terms, ht])
      · exact ihr fun t ht => h t (by simp [Algebra.terms, ht])

/-- Both loaders give back the query whose canonical document they get, in every style of writing
it. -/
theorem load_document :
    (∀ q : Sql, (∀ t ∈ q.terms, t.isReadable = true) → loadSql (style.sql q) = .ok q) ∧
      ∀ q : Algebra, (∀ t ∈ q.terms, t.isReadable = true) → loadAlgebra (style.algebra q) = .ok q :=
  ⟨fun _ h => style.loadSql_sql h, fun _ h => style.loadAlgebra_algebra h⟩

end Style

namespace Sample

/-- The style that nests, wraps and leaves out whatever it can. -/
def style : Style :=
  ⟨fun _ => true, fun _ => true, fun _ => true⟩

/-- The condition `a = constant(...)` with an object as the literal. -/
def dated : Term :=
  .mk Query.Sample.origin (.string "boolean") (.string "=")
    [.nested (.mk {} (.string "null") Term.columnName [.literal (.string "a")]),
      .nested (.mk {} (.string "date") Expr.constantName
        [.literal (.object [(.string "year", .int 2020)])])]

/-- A sorted statement with a condition. -/
def sorted : Sql :=
  .unary {} (.orderBy [⟨{}, some ⟨{}, .string "a", .null⟩, true⟩])
    (.statement {} { Query.Sample.clauses Query.Sample.renamed with filter := some ⟨{}, dated⟩ }
      Query.Sample.source)

/-- A selection with metadata over an inline relation. -/
def selected : Algebra :=
  .unary { metadata := [(.string "hint", .int 1)] } (.selection dated)
    (.table {} ⟨.string "T", [⟨.string "a", .null, .string "date"⟩], [[.null]]⟩)

end Sample

/-- A sorted statement and a selection are read back from their shortest documents. -/
theorem Sample.load_document_shortest :
    (∀ t ∈ sorted.terms, t.isReadable = true) ∧ (∀ t ∈ selected.terms, t.isReadable = true) ∧
      loadSql (style.sql sorted) = .ok sorted ∧
      loadAlgebra (style.algebra selected) = .ok selected := by
  have hsorted : ∀ t ∈ sorted.terms, t.isReadable = true := by decide
  have hselected : ∀ t ∈ selected.terms, t.isReadable = true := by decide
  exact ⟨hsorted, hselected, (Style.load_document style).1 sorted hsorted,
    (Style.load_document style).2 selected hselected⟩

end Document

end LogicalPlan
