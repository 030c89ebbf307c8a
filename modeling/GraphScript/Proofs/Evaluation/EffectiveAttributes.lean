import GraphScript.Graph.Analysis
import GraphScript.Proofs.Evaluation.Paths

namespace GraphScript

/-!
# Attributes laid over defaults

A node or an edge has its own attributes and, for all other keys, the defaults of
its graph. The effective attributes, the look-up of a single attribute, a path
with the name of a key, and the test for weights are four ways to read them, and
they agree on every key.
-/

namespace Graph

variable
  {graph : Graph}
  {node : String}
  {own : Attributes}

/-- An attribute of a node is looked up as its effective attributes have it. -/
theorem nodeAttribute?_eq
    (graph : Graph)
    (node key : String) :
    graph.nodeAttribute? node key =
      (graph.effectiveNodeAttributes? node).bind (·.get? key) := by
  unfold nodeAttribute? effectiveNodeAttributes?
  cases graph.nodes.get? node with
  | none =>
      rfl
  | some own =>
      exact (NameMap.get?_merge graph.nodeDefaults own key).symm

/-- A graph is weighted if a weight is among the effective attributes of an edge. -/
theorem isWeighted_iff_effective
    (graph : Graph) :
    graph.isWeighted = true ↔
      ∃ edge ∈ graph.edges,
        (graph.effectiveEdgeAttributes edge).contains weightKey = true := by
  have holds (edge : Edge) :=
    (NameMap.laidOver_merge graph.edgeDefaults edge.attributes).holds weightKey
  simp only [effectiveEdgeAttributes, holds, isWeighted, Bool.and_eq_true,
    Bool.not_eq_true', List.isEmpty_eq_false_iff, Bool.or_eq_true,
    List.any_eq_true]
  constructor
  · rintro ⟨nonempty, byDefault | ⟨edge, member, hasOwn⟩⟩
    · obtain ⟨edge, rest, areEdges⟩ := List.exists_cons_of_ne_nil nonempty
      exact ⟨edge, areEdges ▸ List.mem_cons_self, .inr byDefault⟩
    · exact ⟨edge, member, .inl hasOwn⟩
  · rintro ⟨edge, member, hasOwn | byDefault⟩
    · exact ⟨List.ne_nil_of_mem member, .inr ⟨edge, member, hasOwn⟩⟩
    · exact ⟨List.ne_nil_of_mem member, .inl byDefault⟩

end Graph

namespace Resolved

variable
  {environment : Environment}
  {model : Model}
  {graph : Graph}
  {id node : String}
  {own : Attributes}

theorem root?_of_unhidden
    (named : model.NamedByKey)
    (unhidden : environment.get? id = none)
    (isGraph : model.get? id = some graph) :
    root? environment model id = some (.graph id) := by
  rw [root?, unhidden, isGraph, Option.map_some, named id graph isGraph]

theorem narrow?_to_node
    (isGraph : model.get? id = some graph)
    (hasOwn : graph.nodes.get? node = some own) :
    (Resolved.graph id).narrow? environment model node =
      some (.node id node own) := by
  have isNode : graph.hasNode node = true := by
    rw [Graph.hasNode, NameMap.contains, hasOwn, Option.isSome_some]
  exact (narrow?_graph_eq_some_iff isGraph).mpr
    ⟨node, .named isNode, own, hasOwn, rfl⟩

theorem narrow?_to_attribute
    (isGraph : model.get? id = some graph)
    (hasOwn : graph.nodes.get? node = some own)
    (key : String) :
    (Resolved.node id node own).narrow? environment model key =
      ((graph.nodeDefaults.merge own).get? key).map .scalar := by
  apply Option.ext
  intro next
  rw [narrow?_node_eq_some_iff isGraph hasOwn, Option.map_eq_some_iff]
  simp only [Graph.effectiveNodeAttributes?, hasOwn, Option.map_some,
    Option.some.injEq, exists_eq_left']

/-- A path from a graph over a node to a key leads to the effective attribute. -/
theorem ofPath_to_attribute
    (named : model.NamedByKey)
    (unhidden : environment.get? id = none)
    (isGraph : model.get? id = some graph)
    (hasOwn : graph.nodes.get? node = some own)
    {path : Path}
    {root middle key : Identifier}
    (areSegments : path.segments = [root, middle, key])
    (isRoot : root.name = id)
    (isMiddle : middle.name = node) :
    ofPath environment model path =
      match (graph.nodeDefaults.merge own).get? key.name with
      | some value => .ok (.scalar value)
      | none => .error (.pathResolution path.names key.name key.span) := by
  subst isRoot isMiddle
  simp only [ofPath, areSegments, root?_of_unhidden named unhidden isGraph,
    narrowAll, narrow?_to_node isGraph hasOwn,
    narrow?_to_attribute isGraph hasOwn]
  cases (graph.nodeDefaults.merge own).get? key.name with
  | some value =>
      rfl
  | none =>
      rfl

end Resolved

/--
All ways to read an attribute of a node agree with its effective attributes.

A path can name the graph as long as no variable hides it.
-/
structure Model.ReadsAlike
    (model : Model)
    (id node : String)
    (effective : Attributes) :
    Prop where
  lookedUp : ∀ key, model.nodeAttribute? id node key = effective.get? key
  resolved :
    model.NamedByKey →
    ∀ (environment : Environment) (path : Path) (root middle key : Identifier),
      environment.get? id = none →
      path.segments = [root, middle, key] →
      root.name = id →
      middle.name = node →
      Resolved.ofPath environment model path =
        match effective.get? key.name with
        | some value => .ok (.scalar value)
        | none => .error (.pathResolution path.names key.name key.span)

/--
Defaults are read the same way everywhere.

The effective attributes of a node or an edge are its own ones laid over the
defaults. Every look-up of an attribute of a node has their value, what is no node
has no attributes, and a graph is weighted if some edge effectively has a weight.
-/
theorem Model.defaults_are_read_alike
    {model : Model}
    {id : String}
    {graph : Graph}
    (isGraph : model.get? id = some graph) :
    (∀ node own,
      graph.nodes.get? node = some own →
      ∃ effective,
        graph.effectiveNodeAttributes? node = some effective ∧
          NameMap.LaidOver graph.nodeDefaults own effective ∧
          model.ReadsAlike id node effective) ∧
      (∀ node,
        graph.nodes.get? node = none →
        graph.effectiveNodeAttributes? node = none ∧
          ∀ key, model.nodeAttribute? id node key = none) ∧
      (∀ edge,
        NameMap.LaidOver graph.edgeDefaults edge.attributes
          (graph.effectiveEdgeAttributes edge)) ∧
      (graph.isWeighted = true ↔
        ∃ edge ∈ graph.edges,
          (graph.effectiveEdgeAttributes edge).contains Graph.weightKey =
            true) := by
  have lookedUp (node key : String) :
      model.nodeAttribute? id node key =
        (graph.effectiveNodeAttributes? node).bind (·.get? key) := by
    rw [Model.nodeAttribute?, isGraph, Option.bind_some,
      Graph.nodeAttribute?_eq]
  refine ⟨?_, ?_, fun edge => NameMap.laidOver_merge _ _,
    graph.isWeighted_iff_effective⟩
  · intro node own hasOwn
    have isEffective :
        graph.effectiveNodeAttributes? node =
          some (graph.nodeDefaults.merge own) := by
      rw [Graph.effectiveNodeAttributes?, hasOwn, Option.map_some]
    refine ⟨_, isEffective, NameMap.laidOver_merge _ _, ?_, ?_⟩
    · intro key
      rw [lookedUp, isEffective, Option.bind_some]
    · intro named environment path root middle key unhidden areSegments isRoot
        isMiddle
      exact Resolved.ofPath_to_attribute named unhidden isGraph hasOwn
        areSegments isRoot isMiddle
  · intro node noNode
    have noneEffective : graph.effectiveNodeAttributes? node = none := by
      rw [Graph.effectiveNodeAttributes?, noNode, Option.map_none]
    refine ⟨noneEffective, fun key => ?_⟩
    rw [lookedUp, noneEffective, Option.bind_none]

/-- A node with a value over a default, and an edge with a weight by default. -/
theorem Model.defaults_are_read_alike_of_shapes :
    let own : Attributes :=
      NameMap.ofList [("label", .word "first"), ("shape", .word "circle")]
    let defaults : Attributes :=
      NameMap.ofList [("shape", .word "box"), ("color", .word "red")]
    let weights : Attributes := NameMap.ofList [("weight", .number 2)]
    let edge : Edge := .between "a" .forward "b" .empty
    let graph : Graph :=
      ((((Graph.empty "g" true).decorate "a" own).mention "b").addDefaults
        .node defaults).addDefaults .edge weights |>.appendEdge edge
    let model := Model.empty.add graph
    let path (key : String) : Path :=
      ⟨["g", "a", key].map fun name => ⟨name, default⟩, default⟩
    model.get? "g" = some graph ∧
      (∃ effective,
        graph.effectiveNodeAttributes? "a" = some effective ∧
          effective.keys = ["shape", "color", "label"] ∧
          effective.get? "shape" = some (.word "circle") ∧
          model.nodeAttribute? "g" "a" "color" = effective.get? "color" ∧
          Resolved.ofPath .empty model (path "shape") =
            .ok (.scalar (.word "circle")) ∧
          Resolved.ofPath .empty model (path "size") =
            .error (.pathResolution ["g", "a", "size"] "size" default)) ∧
      model.nodeAttribute? "g" "c" "color" = none ∧
      (graph.effectiveEdgeAttributes edge).contains "weight" = true ∧
      graph.isWeighted = true := by
  intro own defaults weights edge graph model path
  have isGraph : model.get? "g" = some graph := rfl
  have named : model.NamedByKey := Model.NamedByKey.empty.add graph
  obtain ⟨ofNodes, ofOthers, ofEdges, weighted⟩ :=
    defaults_are_read_alike isGraph
  obtain ⟨effective, isEffective, laidOver, alike⟩ := ofNodes "a" own rfl
  have isShape : effective.get? "shape" = some (.word "circle") :=
    laidOver.ownWins "shape" _ rfl
  have noSize : effective.get? "size" = none :=
    laidOver.otherwise "size" rfl
  have hasWeight :
      (graph.effectiveEdgeAttributes edge).contains "weight" = true :=
    ((ofEdges edge).holds "weight").mpr (.inr rfl)
  have resolved (key : String) :=
    alike.resolved named .empty (path key) _ _ ⟨key, default⟩ rfl rfl rfl rfl
  refine ⟨isGraph, ⟨effective, isEffective, laidOver.keys, isShape,
    alike.lookedUp "color", ?_, ?_⟩, (ofOthers "c" rfl).2 "color", hasWeight,
    weighted.mpr ⟨edge, List.mem_singleton_self edge, hasWeight⟩⟩
  · have followed := resolved "shape"
    simp only [isShape] at followed
    exact followed
  · have stopped := resolved "size"
    simp only [noSize] at stopped
    exact stopped

end GraphScript
