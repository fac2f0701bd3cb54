/-!
# Object graphs

Objects that refer to each other form a directed graph. Exploring it from a root yields one edge for
every reference that a reachable object holds, so an object that refers to another one twice has two
parallel edges. The tree test tells whether the references form a rooted tree.

## Implementation notes

The references of an object are dropped once they are followed. An object that is met again has no
references left, so no record of visited objects is needed and cycles end.
-/

namespace LogicalPlan

/-- The references of objects: each object with the objects that it refers to, in order. An object
that is not listed refers to nothing. -/
abbrev References (α : Type) := List (α × List α)

/-- A directed graph, possibly with parallel edges. -/
structure Graph (α : Type) where
  nodes : List α
  edges : List (α × α)
  deriving DecidableEq

namespace References

variable {α : Type} [DecidableEq α]

/-- The objects that an object refers to. -/
def children (refs : References α) (u : α) : List α :=
  (List.lookup u refs).getD []

/-- The references of all other objects. -/
def without (refs : References α) (u : α) : References α :=
  refs.filter fun entry => decide (entry.1 ≠ u)

theorem length_without_lt {refs : References α} {u : α} {cs : List α}
    (h : List.lookup u refs = some cs) : (refs.without u).length < refs.length := by
  obtain ⟨before, after, rfl, _⟩ := List.lookup_eq_some_iff.mp h
  exact List.length_filter_lt_length_iff_exists.mpr ⟨(u, cs), by simp, by simp⟩

/-- The edges that are met when references are followed breadth first from waiting objects. -/
def edgesFrom (refs : References α) (waiting : List α) : List (α × α) :=
  match waiting with
  | [] => []
  | u :: rest =>
    match h : List.lookup u refs with
    | none => edgesFrom refs rest
    | some cs =>
      have := length_without_lt h
      cs.map (fun c => (u, c)) ++ edgesFrom (refs.without u) (rest ++ cs)
termination_by (refs.length, waiting.length)
decreasing_by
  · exact Prod.Lex.right _ (by simp)
  · exact Prod.Lex.left _ _ this

/-- The graph of all objects that can be reached from a root. -/
def explore (refs : References α) (root : α) : Graph α :=
  let edges := refs.edgesFrom [root]
  ⟨(root :: edges.map Prod.snd).eraseDups, edges⟩

end References

namespace Graph

variable {α : Type} [DecidableEq α]

/-- The number of edges that lead to a node. -/
def inDegree (g : Graph α) (u : α) : Nat :=
  (g.edges.filter fun e => decide (e.2 = u)).length

/-- One end of an edge is among the nodes. -/
def touches (nodes : List α) (e : α × α) : Bool :=
  decide (e.1 ∈ nodes) || decide (e.2 ∈ nodes)

/-- The edges without an end among the nodes. -/
def apart (nodes : List α) (edges : List (α × α)) : List (α × α) :=
  edges.filter fun e => !touches nodes e

theorem length_apart_lt {nodes : List α} {edges : List (α × α)}
    (h : edges.any (touches nodes) = true) : (apart nodes edges).length < edges.length := by
  obtain ⟨e, he, ht⟩ := List.any_eq_true.mp h
  exact List.length_filter_lt_length_iff_exists.mpr ⟨e, he, by simp [ht]⟩

/-- The ends of the edges with an end among the nodes. -/
def endsMet (nodes : List α) (edges : List (α × α)) : List α :=
  (edges.filter (touches nodes)).flatMap fun e => [e.1, e.2]

/-- The nodes that edges connect to the given ones, whatever way the edges point. A node is listed
once for every edge that meets it. -/
def component (edges : List (α × α)) (nodes : List α) : List α :=
  if h : edges.any (touches nodes) = true then
    have := length_apart_lt h
    nodes ++ component (apart nodes edges) (endsMet nodes edges)
  else nodes
termination_by edges.length

/-- Any two nodes are connected if the direction of edges is ignored. -/
def isConnected (g : Graph α) : Bool :=
  match g.nodes with
  | [] => false
  | u :: us =>
    let connected := component g.edges [u]
    us.all fun v => decide (v ∈ connected)

/-- The graph is a rooted tree whose edges point away from the root: it has one edge less than
nodes, no node has two edges that lead to it, and it is connected. A graph without nodes is none. -/
def isTree (g : Graph α) : Bool :=
  g.edges.length + 1 == g.nodes.length && g.nodes.all (fun u => g.inDegree u ≤ 1)
    && g.isConnected

end Graph

end LogicalPlan
