import LogicalPlan.Graph
import LogicalPlan.Lowering.Annotate
import LogicalPlan.Plan.Derivation
import LogicalPlan.Value.Path

/-!
# Node stores

A node store keeps the nodes of plans under numbers, so that several nodes can have the same node as
input and a change of a base relation shows in everything built over it. The plan of a node is its
unfolding; the tree test of a node looks at the sharing that the unfolding hides.

## Implementation notes

A node is stored after its inputs, so inputs have smaller numbers and every unfolding ends.
-/

namespace LogicalPlan

/-- The number of a stored node. -/
abbrev NodeId := Nat

/-- The operator of a stored node and its inputs. -/
inductive StoredShape where
  | relation (base : Relation)
  | unary (op : UnaryOp) (input : NodeId)
  | binary (op : BinaryOp) (left right : NodeId)
  deriving DecidableEq, Inhabited

/-- A stored node with its notes. -/
structure StoredNode where
  notes : Notes := {}
  shape : StoredShape
  deriving DecidableEq, Inhabited

/-- The stored nodes, and the base relations that queries can refer to. -/
structure Store where
  nodes : List StoredNode := []
  registered : List (String × NodeId) := []
  deriving DecidableEq, Inhabited

/-- The inputs of a stored node from left to right. -/
def StoredNode.children (node : StoredNode) : List NodeId :=
  match node.shape with
  | .relation _ => []
  | .unary _ input => [input]
  | .binary _ left right => [left, right]

/-- The name of the operator of a stored node. -/
def StoredNode.typeName (node : StoredNode) : String :=
  match node.shape with
  | .relation _ => "Relation"
  | .unary op _ => op.name
  | .binary op _ _ => op.name

/-- The node is a join that compares shared columns. Only qualified joins can be asked. -/
def StoredNode.isNatural (node : StoredNode) : Outcome Bool :=
  match node.shape with
  | .binary (.join _ (.natural _)) _ _ => .ok true
  | .binary (.join _ _) _ _ => .ok false
  | _ => noAttribute

/-- The label of a stored node. -/
def StoredNode.label (node : StoredNode) : Outcome String :=
  match node.shape with
  | .relation base => base.name.asText
  | .unary op _ => op.label
  | .binary op _ _ => op.label

namespace Store

/-- The node of a number. -/
def node (s : Store) (id : NodeId) : Outcome StoredNode :=
  match s.nodes[id]? with
  | some node => .ok node
  | none => .error (.illTyped .noKey)

/-- Store one more node. -/
def add (s : Store) (node : StoredNode) : NodeId × Store :=
  (s.nodes.length, { s with nodes := s.nodes ++ [node] })

/-- Store all nodes of a plan. Nothing is shared among them. -/
def insert (s : Store) (p : Plan) : NodeId × Store :=
  match p with
  | .relation notes base => s.add ⟨notes, .relation base⟩
  | .unary notes op input =>
    let (input, s) := s.insert input
    s.add ⟨notes, .unary op input⟩
  | .binary notes op left right =>
    let (left, s) := s.insert left
    let (right, s) := s.insert right
    s.add ⟨notes, .binary op left right⟩

/-- Store other notes for a node. -/
def setNotes (s : Store) (id : NodeId) (notes : Notes) : Store :=
  { s with nodes := s.nodes.modify id fun node => { node with notes } }

/-- Store another base relation for a node. -/
def setRelation (s : Store) (id : NodeId) (base : Relation) : Store :=
  { s with nodes := s.nodes.modify id fun node => { node with shape := .relation base } }

/-- The plan that a node unfolds to. -/
def plan? (s : Store) (id : NodeId) : Option Plan :=
  match s.nodes[id]? with
  | none => none
  | some ⟨notes, .relation base⟩ => some (.relation notes base)
  | some ⟨notes, .unary op input⟩ =>
    if _h : input < id then (s.plan? input).map fun p => .unary notes op p else none
  | some ⟨notes, .binary op left right⟩ =>
    if h : left < id ∧ right < id then
      have := h.1
      have := h.2
      (s.plan? left).bind fun p => (s.plan? right).map fun q => .binary notes op p q
    else none
termination_by id

/-- The plan of a node. -/
def plan (s : Store) (id : NodeId) : Outcome Plan :=
  match s.plan? id with
  | some p => .ok p
  | none => .error (.illTyped .noKey)

/-- The base relation of a node. Operators have none. -/
def relation (s : Store) (id : NodeId) : Outcome Relation := do
  let node ← s.node id
  match node.shape with
  | .relation base => .ok base
  | _ => noAttribute

/-- Append rows to a base relation. Rows before a bad one stay. -/
def addRows (s : Store) (id : NodeId) (rows : Value) : Store × Outcome Unit :=
  match s.relation id with
  | .error fault => (s, .error fault)
  | .ok base =>
    let (base, outcome) := base.addRows rows
    (s.setRelation id base, outcome)

/-- Give a base relation another schema, or none. -/
def setSchema (s : Store) (id : NodeId) (schema : Option Schema) (adoptName : Bool) :
    Outcome Store := do
  let base ← s.relation id
  match schema with
  | some schema => .ok (s.setRelation id (base.setSchema schema adoptName))
  | none =>
    if adoptName then wrongType else .ok (s.setRelation id { base with schema := none })

/-- Store a copy of a base relation with its notes. -/
def copy (s : Store) (id : NodeId) : Outcome (NodeId × Store) := do
  let node ← s.node id
  let _ ← s.relation id
  .ok (s.add node)

/-- Let queries refer to a base relation, by its own name unless another one is given. -/
def register (s : Store) (id : NodeId) (name : Option Value) : Outcome Store := do
  let base ← s.relation id
  let name := (name.getD base.name).text
  .ok { s with registered := (s.registered.filter (·.1 ≠ name)) ++ [(name, id)] }

/-- The base relations that queries can refer to, as they are now. -/
def catalog (s : Store) : Catalog :=
  s.registered.filterMap fun (name, id) =>
    match s.nodes[id]? with
    | some ⟨notes, .relation base⟩ => some (name, notes, base)
    | _ => none

/-- The node below a node at the end of a path of input positions. -/
def descend (s : Store) (id : NodeId) : List Value → Outcome NodeId
  | [] => .ok id
  | position :: path => do
    let node ← s.node id
    match position.toInt? with
    | none => wrongType
    | some i =>
      match node.children[← positionIn node.children.length i]? with
      | some child => s.descend child path
      | none => .error (.illTyped .noIndex)

/-- Which nodes have which inputs. -/
def references (s : Store) : References NodeId :=
  s.nodes.mapIdx fun id node => (id, node.children)

/-- The nodes below a node form a tree: none of them is shared. -/
def isTree (s : Store) (id : NodeId) : Bool :=
  (s.references.explore id).isTree

/-- A node passes the check if the nodes below it form a tree and its schema can be derived. -/
def check (s : Store) (id : NodeId) : Outcome Unit := do
  let node ← s.node id
  if s.isTree id then (← s.plan id).check
  else do
    let label ← node.label
    .error (.violation (.notATree label) node.notes.span)

end Store

end LogicalPlan
