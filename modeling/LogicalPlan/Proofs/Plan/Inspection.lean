import LogicalPlan.Plan.Label
import LogicalPlan.Proofs.Outcome
import LogicalPlan.Proofs.Plan.Walk

/-!
# Lines of inspection texts

The inspection text of a plan has one line for each node in preorder, which shows how deep the node
stands and its label. If no label goes over several lines, the text determines the labelled tree.

## Implementation notes

A label can start with blanks or with an arrow itself. Below the root the margin of a line is found
nevertheless, as its blanks end at its own arrow. The tree is read back from the depths: what
follows the nodes of a plan in preorder does not stand below its root.
-/

namespace LogicalPlan

open Outcome

/-! ### Lines of a text -/

/-- The lines of a text. -/
def textLines (text : String) : List String :=
  (text.toList.splitOn '\n').map String.ofList

theorem textLines_of_not_mem {line : String} (h : '\n' ∉ line.toList) :
    textLines line = [line] := by
  rw [textLines, List.splitOn_eq_singleton h, List.map_singleton, String.ofList_toList]

theorem textLines_append {line : String} (h : '\n' ∉ line.toList) (rest : String) :
    textLines (line ++ "\n" ++ rest) = line :: textLines rest := by
  have chars : (line ++ "\n" ++ rest).toList = line.toList ++ '\n' :: rest.toList := by simp
  rw [textLines, chars, List.splitOn_append_cons_self_of_not_mem h, List.map_cons,
    String.ofList_toList, textLines]

/-- Joined lines are found again. -/
theorem textLines_joinTexts {lines : List String} (hlines : lines ≠ [])
    (h : ∀ line ∈ lines, '\n' ∉ line.toList) : textLines (joinTexts "\n" lines) = lines := by
  induction lines with
  | nil => exact absurd rfl hlines
  | cons line rest ih =>
      obtain ⟨hline, hrest⟩ := List.forall_mem_cons.mp h
      cases rest with
      | nil => exact textLines_of_not_mem hline
      | cons next rest =>
          rw [joinTexts, textLines_append hline, ih (List.cons_ne_nil next rest) hrest]

namespace Plan

/-! ### Depths -/

/-- How many nodes stand above each node, in preorder. -/
def depths : Plan → List Nat
  | .relation _ _ => [0]
  | .unary _ _ input => 0 :: input.depths.map (· + 1)
  | .binary _ _ left right => 0 :: (left.depths ++ right.depths).map (· + 1)

@[simp] theorem length_depths (p : Plan) : p.depths.length = p.walk.length := by
  induction p with
  | relation notes base => rfl
  | unary notes op input ih => simp [depths, walk, ih]
  | binary notes op left right ihl ihr => simp [depths, walk, ihl, ihr]

/-- The depths and labels of all nodes in preorder, counted from a depth on. -/
def placed (depth : Nat) (p : Plan) : List (Nat × Outcome String) :=
  (p.depths.map (depth + ·)).zip (p.walk.map label)

@[simp] theorem length_placed (depth : Nat) (p : Plan) :
    (p.placed depth).length = p.walk.length := by
  simp [placed]

theorem placed_eq (depth : Nat) (p : Plan) :
    p.placed depth = (depth, p.label) :: p.children.flatMap (placed (depth + 1)) := by
  have deeper : (depth + ·) ∘ (· + 1) = (depth + 1 + ·) := by
    funext n
    simp only [Function.comp_apply]
    omega
  cases p with
  | relation notes base => rfl
  | unary notes op input => simp [placed, depths, walk, children, deeper]
  | binary notes op left right =>
      simp [placed, depths, walk, children, deeper, List.zip_append]

theorem getElem?_placed {p : Plan} {k : Nat} {node : Plan} (h : p.walk[k]? = some node) :
    ∃ depth, p.depths[k]? = some depth ∧ (p.placed 0)[k]? = some (depth, node.label) := by
  have bound : k < p.depths.length := by
    rw [length_depths]
    exact (List.getElem?_eq_some_iff.mp h).1
  refine ⟨p.depths[k], List.getElem?_eq_getElem bound, ?_⟩
  simp [placed, List.getElem?_zip_eq_some, h]

theorem le_of_mem_placed {depth : Nat} {p : Plan} {e : Nat × Outcome String}
    (h : e ∈ p.placed depth) : depth ≤ e.1 := by
  obtain ⟨n, -, hn⟩ := List.mem_map.mp (List.of_mem_zip h).1
  omega

/-! ### Lines -/

/-- The line of a node with the given depth and label. -/
def line (e : Nat × Outcome String) : Outcome String :=
  e.2.map (margin e.1 ++ ·)

theorem inspectLines_eq (depth : Nat) (p : Plan) :
    p.inspectLines depth = (p.placed depth).mapM line := by
  induction p generalizing depth with
  | relation notes base =>
      rw [placed_eq]
      simp [inspectLines, children, line, map_eq_bind]
  | unary notes op input ih =>
      rw [placed_eq]
      simp [inspectLines, children, line, map_eq_bind, ih]
  | binary notes op left right ihl ihr =>
      rw [placed_eq]
      simp [inspectLines, children, line, map_eq_bind, ihl, ihr]

/-- Blanks in front of another character are told apart by their number. -/
theorem eq_of_replicate_append {m n : Nat} {a b : Char} (hb : b ≠ a) {cs ds : List Char}
    (h : List.replicate m a ++ b :: cs = List.replicate n a ++ b :: ds) : m = n ∧ cs = ds := by
  induction m generalizing n with
  | zero =>
      cases n with
      | zero => exact ⟨rfl, (List.cons.inj h).2⟩
      | succ n => exact absurd (List.cons.inj h).1 hb
  | succ m ih =>
      cases n with
      | zero => exact absurd (List.cons.inj h).1.symm hb
      | succ n =>
          obtain ⟨hmn, hrest⟩ := ih (List.cons.inj h).2
          exact ⟨congrArg (· + 1) hmn, hrest⟩

/-- Below the root, a line tells depth and label, even if the label starts like a margin. -/
theorem eq_of_margin {depth depth' : Nat} (hpos : 0 < depth) (hpos' : 0 < depth')
    {label label' : String} (h : margin depth ++ label = margin depth' ++ label') :
    depth = depth' ∧ label = label' := by
  have chars : List.replicate (2 * depth) ' ' ++ '<' :: '-' :: ' ' :: label.toList =
      List.replicate (2 * depth') ' ' ++ '<' :: '-' :: ' ' :: label'.toList := by
    have := congrArg String.toList h
    rw [margin, margin, if_neg (Nat.ne_of_gt hpos), if_neg (Nat.ne_of_gt hpos')] at this
    simpa using this
  obtain ⟨hdepth, hlabel⟩ := eq_of_replicate_append (by decide) chars
  refine ⟨by omega, String.toList_inj.mp ?_⟩
  simpa using hlabel

theorem eq_of_line {e e' : Nat × Outcome String} (hpos : 0 < e.1) (hpos' : 0 < e'.1) {text : String}
    (h : line e = .ok text) (h' : line e' = .ok text) : e = e' := by
  obtain ⟨depth, outcome⟩ := e
  obtain ⟨depth', outcome'⟩ := e'
  obtain ⟨label, rfl, rfl⟩ := map_eq_ok.mp h
  obtain ⟨label', rfl, heq⟩ := map_eq_ok.mp h'
  obtain ⟨rfl, rfl⟩ := eq_of_margin hpos' hpos heq
  rfl

theorem eq_of_lines {es fs : List (Nat × Outcome String)} (hes : ∀ e ∈ es, 0 < e.1)
    (hfs : ∀ f ∈ fs, 0 < f.1) {texts : List String} (he : es.mapM line = .ok texts)
    (hf : fs.mapM line = .ok texts) : es = fs := by
  rw [mapM_eq_ok] at he hf
  induction he generalizing fs with
  | nil =>
      cases hf
      rfl
  | cons h _ ih =>
      obtain ⟨f, fs, hfirst, hrest, rfl⟩ := List.forall₂_cons_right_iff.mp hf
      obtain ⟨hpos, hes⟩ := List.forall_mem_cons.mp hes
      obtain ⟨hpos', hfs⟩ := List.forall_mem_cons.mp hfs
      rw [eq_of_line hpos hpos' h hfirst, ih hes hfs hrest]

/-- The first line has no margin, and all others tell depth and label of their nodes. -/
theorem placed_eq_of_inspectLines {p q : Plan} {texts : List String}
    (hp : p.inspectLines 0 = .ok texts) (hq : q.inspectLines 0 = .ok texts) :
    p.placed 0 = q.placed 0 := by
  have below {r : Plan} : ∀ e ∈ r.children.flatMap (placed 1), 0 < e.1 := by
    intro e he
    obtain ⟨input, -, he⟩ := List.mem_flatMap.mp he
    exact le_of_mem_placed he
  rw [inspectLines_eq, placed_eq, List.mapM_cons] at hp hq
  obtain ⟨first, hfirst, hp⟩ := bind_eq_ok.mp hp
  obtain ⟨rest, hrest, hp⟩ := bind_eq_ok.mp hp
  obtain ⟨first', hfirst', hq⟩ := bind_eq_ok.mp hq
  obtain ⟨rest', hrest', hq⟩ := bind_eq_ok.mp hq
  cases hp
  cases hq
  obtain ⟨label, hlabel, rfl⟩ := map_eq_ok.mp hfirst
  obtain ⟨label', hlabel', heq⟩ := map_eq_ok.mp hfirst'
  obtain rfl : label' = label := by simpa [margin] using heq
  have root : p.label = q.label := hlabel.trans hlabel'.symm
  rw [placed_eq, placed_eq 0 q, root, eq_of_lines below below hrest hrest']

/-! ### Trees of labels -/

/-- The plans have the same labels in the same places: the labels of their roots agree, and as many
inputs have the same labels, one by one. -/
inductive Resembles : Plan → Plan → Prop
  | intro {p q : Plan} (label : p.label = q.label)
      (inputs : List.Forall₂ Resembles p.children q.children) : Resembles p q

/-- What stands next does not stand below the given depth. -/
def EndsAt (depth : Nat) (es : List (Nat × Outcome String)) : Prop :=
  ∀ e ∈ es.head?, e.1 ≤ depth

theorem endsAt_nil (depth : Nat) : EndsAt depth [] := by
  rintro _ ⟨⟩

/-- A further input stands below the depth of the plan that it belongs to. -/
theorem not_endsAt_flatMap_cons {depth : Nat} (p : Plan) (ps : List Plan)
    (es : List (Nat × Outcome String)) :
    ¬ EndsAt depth ((p :: ps).flatMap (placed (depth + 1)) ++ es) := by
  intro ends
  have : depth + 1 ≤ depth := ends (depth + 1, p.label) (by simp [placed_eq])
  omega

/-- An input ends where the next one starts, or where the plan ends that it belongs to. -/
theorem EndsAt.flatMap {depth : Nat} {es : List (Nat × Outcome String)} (hes : EndsAt depth es)
    (ps : List Plan) : EndsAt (depth + 1) (ps.flatMap (placed (depth + 1)) ++ es) := by
  intro e he
  cases ps with
  | nil => exact Nat.le_succ_of_le (hes e he)
  | cons p ps =>
      rw [List.flatMap_cons, placed_eq] at he
      cases he
      exact Nat.le_refl _

/-- The depths and labels of the nodes tell the tree of labels, and where it ends. -/
def IsDetermined (depth : Nat) (p : Plan) : Prop :=
  ∀ ⦃q : Plan⦄ ⦃es fs : List (Nat × Outcome String)⦄, EndsAt depth es → EndsAt depth fs →
    p.placed depth ++ es = q.placed depth ++ fs → Resembles p q ∧ es = fs

/-- Inputs are read back one by one. -/
theorem forall₂_of_flatMap_placed {depth : Nat} {ps qs : List Plan}
    (hps : ∀ p ∈ ps, IsDetermined (depth + 1) p) {es fs : List (Nat × Outcome String)}
    (hes : EndsAt depth es) (hfs : EndsAt depth fs)
    (h : ps.flatMap (placed (depth + 1)) ++ es = qs.flatMap (placed (depth + 1)) ++ fs) :
    List.Forall₂ Resembles ps qs ∧ es = fs := by
  induction ps generalizing qs with
  | nil =>
      cases qs with
      | nil => exact ⟨.nil, h⟩
      | cons q qs =>
          have ends : EndsAt depth ((q :: qs).flatMap (placed (depth + 1)) ++ fs) := h ▸ hes
          exact absurd ends (not_endsAt_flatMap_cons q qs fs)
  | cons p ps ih =>
      cases qs with
      | nil =>
          have ends : EndsAt depth ((p :: ps).flatMap (placed (depth + 1)) ++ es) := h ▸ hfs
          exact absurd ends (not_endsAt_flatMap_cons p ps es)
      | cons q qs =>
          obtain ⟨hp, hps⟩ := List.forall_mem_cons.mp hps
          simp only [List.flatMap_cons, List.append_assoc] at h
          obtain ⟨first, hrest⟩ := hp (hes.flatMap ps) (hfs.flatMap qs) h
          obtain ⟨rest, heq⟩ := ih hps hrest
          exact ⟨.cons first rest, heq⟩

theorem isDetermined (p : Plan) (depth : Nat) : IsDetermined depth p := by
  induction p using children_induction generalizing depth with
  | step p ih =>
      intro q es fs hes hfs h
      rw [placed_eq, placed_eq depth q, List.cons_append, List.cons_append, List.cons.injEq] at h
      obtain ⟨hroot, hbelow⟩ := h
      obtain ⟨inputs, heq⟩ :=
        forall₂_of_flatMap_placed (fun input hinput => ih input hinput (depth + 1)) hes hfs hbelow
      exact ⟨.intro (Prod.mk.inj hroot).2 inputs, heq⟩

/-- Plans with the same labels in the same places have the same lines. -/
theorem Resembles.placed_eq {p q : Plan} (h : Resembles p q) (depth : Nat) :
    p.placed depth = q.placed depth := by
  induction p using children_induction generalizing q depth with
  | step p ih =>
      obtain ⟨hlabel, hinputs⟩ := h
      have alike : List.Forall₂ (fun r r' => r.placed (depth + 1) = r'.placed (depth + 1))
          p.children q.children := by
        apply ((List.forall₂_and_left _ _).mpr ⟨ih, hinputs⟩).imp
        rintro r r' ⟨hr, h⟩
        exact hr h (depth + 1)
      have below : p.children.map (placed (depth + 1)) = q.children.map (placed (depth + 1)) := by
        rwa [← List.forall₂_eq_eq_eq, List.forall₂_map_left_iff, List.forall₂_map_right_iff]
      rw [Plan.placed_eq, Plan.placed_eq depth q, hlabel, List.flatMap_def, List.flatMap_def, below]

/-! ### Texts -/

/-- The label of the root is one line. -/
def HasLine (p : Plan) : Prop :=
  Gives (fun label => '\n' ∉ label.toList) p.label

instance (p : Plan) : Decidable p.HasLine :=
  match h : p.label with
  | .ok label => decidable_of_iff ('\n' ∉ label.toList) (by simp [HasLine, h])
  | .error fault => isFalse (by simp [HasLine, h, not_isLocated_nowhere])

theorem margin_append (depth : Nat) (label : String) :
    margin depth ++ label = String.ofList (List.replicate (2 * depth) ' ') ++
      (if 0 < depth then "<- " else "") ++ label := by
  cases depth with
  | zero => rfl
  | succ depth => simp [margin]

/-- If all labels are single lines, so are the lines of the nodes. -/
theorem inspectLines_gives {p : Plan} (hp : ∀ node ∈ p.walk, node.HasLine) :
    Gives (fun lines => ∀ line ∈ lines, '\n' ∉ line.toList) (p.inspectLines 0) := by
  rw [inspectLines_eq]
  apply Yields.mapM
  intro e he
  obtain ⟨node, hnode, hlabel⟩ := List.mem_map.mp (List.of_mem_zip he).2
  rw [line, ← hlabel]
  apply (hp node hnode).map
  intro label hlabel
  rw [margin_append]
  split <;> simp [hlabel]

/-- The lines of the nodes are the lines of the text. -/
theorem exists_inspect {p : Plan} (hp : ∀ node ∈ p.walk, node.HasLine) :
    ∃ text, p.inspect = .ok text ∧ p.inspectLines 0 = .ok (textLines text) := by
  obtain ⟨lines, hlines, single⟩ := gives_iff.mp (inspectLines_gives hp)
  have nonempty : lines ≠ [] := by
    rintro rfl
    have := (mapM_eq_ok.mp (inspectLines_eq 0 p ▸ hlines)).length_eq
    rw [placed_eq] at this
    cases this
  refine ⟨joinTexts "\n" lines, map_eq_ok.mpr ⟨lines, hlines, rfl⟩, ?_⟩
  rw [textLines_joinTexts nonempty single, hlines]

/-- If all labels are single lines, the inspection text has one line for each node: in preorder, two
blanks for each level, an arrow below the root, and the label. The texts of two such plans are equal
exactly if the plans have the same labels in the same places. -/
theorem inspect_determines {p : Plan} (hp : ∀ node ∈ p.walk, node.HasLine) :
    (∃ text, p.inspect = .ok text ∧ (textLines text).length = p.walk.length ∧
      ∀ (k : Nat) (node : Plan), p.walk[k]? = some node → ∃ depth label,
        p.depths[k]? = some depth ∧ node.label = .ok label ∧
          (textLines text)[k]? = some (String.ofList (List.replicate (2 * depth) ' ') ++
            (if 0 < depth then "<- " else "") ++ label)) ∧
    ∀ q : Plan, (∀ node ∈ q.walk, node.HasLine) → (p.inspect = q.inspect ↔ Resembles p q) := by
  obtain ⟨text, htext, hlines⟩ := exists_inspect hp
  have written : (p.placed 0).mapM line = .ok (textLines text) := inspectLines_eq 0 p ▸ hlines
  constructor
  · refine ⟨text, htext, ?_, fun k node hnode => ?_⟩
    · rw [← (mapM_eq_ok.mp written).length_eq, length_placed]
    · obtain ⟨depth, hdepth, hplaced⟩ := getElem?_placed hnode
      obtain ⟨_, hk, hline⟩ := getElem?_of_mapM_eq_ok written hplaced
      obtain ⟨label, hlabel, rfl⟩ := map_eq_ok.mp hline
      exact ⟨depth, label, hdepth, hlabel, by rw [hk, margin_append]⟩
  · intro q hq
    obtain ⟨text', htext', hlines'⟩ := exists_inspect hq
    constructor
    · intro h
      obtain rfl : text = text' := by
        rw [htext, htext'] at h
        exact Except.ok.inj h
      have same : p.placed 0 ++ [] = q.placed 0 ++ [] :=
        congrArg (· ++ []) (placed_eq_of_inspectLines hlines hlines')
      exact (p.isDetermined 0 (endsAt_nil 0) (endsAt_nil 0) same).1
    · intro h
      rw [inspect, inspect, inspectLines_eq, inspectLines_eq, h.placed_eq]

namespace Sample

/-- A base relation of the given name. -/
def leaf (name : String) : Plan :=
  .relation {} { name := .string name }

/-- Nested on the left, over relations that are called like an operator and like a line. -/
def nestedLeft : Plan :=
  .binary {} .cross (.binary {} .cross (leaf "⨯") (leaf "⨯")) (leaf "  <- R")

/-- Nested on the right, with the same labels in preorder. -/
def nestedRight : Plan :=
  .binary {} .cross (leaf "⨯") (.binary {} .cross (leaf "⨯") (leaf "  <- R"))

/-- The last relation stands in the last line, and the text tells how the operators are nested. -/
theorem inspect_determines_nested :
    (∀ node ∈ nestedLeft.walk, node.HasLine) ∧ (∀ node ∈ nestedRight.walk, node.HasLine) ∧
      nestedLeft.walk.map label = nestedRight.walk.map label ∧
      (∃ text, nestedLeft.inspect = .ok text ∧ (textLines text)[4]? = some "  <-   <- R") ∧
      nestedLeft.inspect ≠ nestedRight.inspect := by
  have left : ∀ node ∈ nestedLeft.walk, node.HasLine := by decide
  have right : ∀ node ∈ nestedRight.walk, node.HasLine := by decide
  obtain ⟨⟨text, htext, -, lines⟩, shape⟩ := inspect_determines left
  refine ⟨left, right, rfl, ⟨text, htext, ?_⟩, fun h => ?_⟩
  · obtain ⟨depth, label, hdepth, hlabel, hline⟩ := lines 4 (leaf "  <- R") rfl
    cases hdepth
    cases hlabel
    exact hline
  · -- The first inputs have two inputs and none.
    obtain ⟨-, inputs⟩ := (shape nestedRight right).mp h
    obtain ⟨⟨-, inputs⟩, -⟩ := List.forall₂_cons.mp inputs
    cases inputs

end Sample

end Plan

end LogicalPlan
