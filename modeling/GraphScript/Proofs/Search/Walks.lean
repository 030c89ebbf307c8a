import GraphScript.Graph.Arc
import Mathlib.Logic.Relation

namespace GraphScript

/-!
# Walks along edges

An edge can be followed from its source to its target and, if edges have no
direction, back as well. The nodes next to a node are read off the edges in
their order; the arcs that a search prepares from the edges give the same ones.
-/

/-- An edge can be followed from one node to another. -/
def Edge.Leads
    (directed : Bool)
    (edge : Edge)
    (source target : String) :
    Prop :=
  edge.source = source ∧ edge.target = target ∨
    directed = false ∧ edge.target = source ∧ edge.source = target

/-- Where an edge leads from a node. Without directions a loop counts twice. -/
def Edge.ahead
    (directed : Bool)
    (node : String)
    (edge : Edge) :
    List String :=
  (if edge.source = node then [edge.target] else []) ++
    (if directed = false ∧ edge.target = node then [edge.source] else [])

theorem Edge.mem_ahead_iff
    {directed : Bool}
    {node other : String}
    {edge : Edge} :
    other ∈ edge.ahead directed node ↔ edge.Leads directed node other := by
  unfold ahead Leads
  by_cases forward : edge.source = node <;>
    by_cases backward : directed = false ∧ edge.target = node
  · simp [forward, backward, eq_comm]
  · rw [not_and] at backward
    simp [forward, eq_comm]
    grind
  · simp [forward, backward, eq_comm]
  · rw [not_and] at backward
    simp [forward, eq_comm]
    grind

namespace Graph

/-- The nodes next to a node, in the order of the edges. -/
def nextNodes
    (graph : Graph)
    (node : String) :
    List String :=
  graph.edges.flatMap (Edge.ahead graph.directed node)

/-- An edge of the graph can be followed from one node to another. -/
def Adjoins
    (graph : Graph)
    (source target : String) :
    Prop :=
  ∃ edge ∈ graph.edges, edge.Leads graph.directed source target

/-- A walk along the edges goes from one node to another. -/
def Reaches
    (graph : Graph) :
    String → String → Prop :=
  Relation.ReflTransGen graph.Adjoins

variable {graph : Graph} {node other : String}

/-- Nothing is left of a target that is a node, when nodes are taken out. -/
theorem filter_not_hasNode
    {target : Option String}
    (targetIsNode : ∀ node, target = some node → graph.hasNode node = true) :
    target.filter (fun node => !graph.hasNode node) = none := by
  rw [Option.filter_eq_none_iff]
  intro node isTarget
  simp [targetIsNode node isTarget]

/-- The next nodes are the ones that an edge leads to. -/
theorem mem_nextNodes_iff :
    other ∈ graph.nextNodes node ↔ graph.Adjoins node other := by
  simp only [nextNodes, Adjoins, List.mem_flatMap, Edge.mem_ahead_iff]

end Graph

namespace Arc

variable {Label : Type}

/-- The arcs of an edge are the ways in which it leads, with its label. -/
theorem mem_ofEdge_iff
    {directed : Bool}
    {edge : Edge}
    {label : Label}
    {arc : Arc Label} :
    arc ∈ ofEdge directed edge label ↔
      edge.Leads directed arc.source arc.target ∧ arc.label = label := by
  rcases arc with ⟨source, target, own⟩
  unfold ofEdge Edge.Leads
  cases directed with
  | true =>
      simp
      grind
  | false =>
      simp
      grind

/-- An arc leaves the node that it starts at. -/
theorem mem_leaving_iff
    {arcs : List (Arc Label)}
    {node target : String}
    {label : Label} :
    (target, label) ∈ leaving arcs node ↔ ⟨node, target, label⟩ ∈ arcs := by
  simp only [leaving, List.mem_map, List.mem_filter, decide_eq_true_eq,
    Prod.mk.injEq]
  constructor
  · rintro ⟨arc, ⟨isArc, rfl⟩, rfl, rfl⟩
    exact isArc
  · intro isArc
    exact ⟨_, ⟨isArc, rfl⟩, rfl, rfl⟩

theorem successors_append
    (left right : List (Arc Label))
    (node : String) :
    successors (left ++ right) node =
      successors left node ++ successors right node := by
  simp [successors, leaving]

/-- An edge makes the nodes successors that it leads to. -/
theorem successors_ofEdge
    (directed : Bool)
    (edge : Edge)
    (label : Label)
    (node : String) :
    successors (ofEdge directed edge label) node =
      edge.ahead directed node := by
  cases directed <;>
    by_cases forward : edge.source = node <;>
    by_cases backward : edge.target = node <;>
    simp [successors, leaving, ofEdge, Edge.ahead, forward, backward]

end Arc

/-- A search finds the nodes next to a node, and in the order of the edges. -/
theorem Graph.successors_arcs
    (graph : Graph)
    (node : String) :
    Arc.successors graph.arcs node = graph.nextNodes node := by
  unfold arcs nextNodes
  induction graph.edges with
  | nil =>
      rfl
  | cons edge rest inductionHypothesis =>
      rw [List.flatMap_cons, List.flatMap_cons, Arc.successors_append,
        Arc.successors_ofEdge, inductionHypothesis]

end GraphScript
