import GraphScript.Declaration
import GraphScript.Graph.Basic

namespace GraphScript

/-!
# Graphs in the making

A draft is a graph together with the scopes in which its body is evaluated. The
items of the body change it one after another, up to the first that fails.
-/

namespace Graph

/-- The direction of a graph's edges. -/
def direction
    (graph : Graph) :
    Direction :=
  if graph.directed then .directed else .undirected

/--
Add an edge whose operator goes with the direction of the graph.

Missing ends become nodes in the order in which they were written.
-/
def addEdge
    (graph : Graph)
    (edge : Edge)
    (span : Span) :
    Except EvaluationError Graph :=
  if edge.operator.isDirected = graph.directed then
    let (first, second) := edge.writtenEnds
    .ok (((graph.mention first).mention second).appendEdge edge)
  else
    .error
      (.directionMismatch graph.id graph.direction edge.operator span)

/-- Add edges one after another. -/
def addEdges
    (graph : Graph)
    (edges : List Edge)
    (span : Span) :
    Except EvaluationError Graph :=
  edges.foldlM (fun built edge => built.addEdge edge span) graph

/-- Lay attributes over those of several nodes. -/
def decorateAll
    (graph : Graph)
    (nodes : List String)
    (attributes : Attributes) :
    Graph :=
  nodes.foldl (fun built node => built.decorate node attributes) graph

end Graph

/-- A graph in the making, and the scopes that its body sees. -/
structure Draft where
  environment : Environment
  graph : Graph

namespace Draft

/-- Evaluate a default attribute declaration. -/
def applyDefaults
    (draft : Draft)
    (declaration : DefaultDeclaration) :
    Except EvaluationError Draft := do
  let attributes ← draft.environment.attributesOf declaration.source
  return { draft with
    graph := draft.graph.addDefaults declaration.target attributes }

/--
The graph after a node statement.

A reference may name nodes, which get the attributes, or edges, which are added
with the attributes laid over their own.
-/
def afterNode
    (draft : Draft)
    (statement : NodeStatement) :
    Except EvaluationError Graph := do
  let attributes ←
    draft.environment.optionalAttributes statement.attributes
  match statement.target with
  | .list names =>
      let nodes := names.flatMap draft.environment.nodesOf
      return draft.graph.decorateAll nodes attributes
  | .reference name =>
      let found ← draft.environment.lookup name
      match found.value with
      | .nodeReference node =>
          return draft.graph.decorateAll [node] attributes
      | .nodeList nodes =>
          return draft.graph.decorateAll nodes attributes
      | .edgeList edges =>
          draft.graph.addEdges (edges.map (·.overlay attributes))
            statement.span
      | .attributeList _ =>
          throw
            (.typeMismatch name.name .nodesOrEdges .attributeList name.span)

/-- Evaluate a statement of a graph's body. -/
def applyStatement
    (draft : Draft) :
    Statement →
    Except EvaluationError Draft
  | .binding declaration => do
      let environment ← draft.environment.declareVariable declaration
      return { draft with environment }
  | .node statement => do
      let graph ← draft.afterNode statement
      return { draft with graph }
  | .edge statement => do
      let edge ← draft.environment.edgeOf statement
      let graph ← draft.graph.addEdge edge statement.span
      return { draft with graph }

/-- Apply items up to the first that fails, and give the draft reached by then. -/
def applyAll
    {Part : Type}
    (apply : Draft → Part → Except EvaluationError Draft) :
    Draft →
    List Part →
    Except EvaluationError Unit × Draft
  | draft, [] =>
      (.ok (), draft)
  | draft, item :: rest =>
      match apply draft item with
      | .ok next =>
          applyAll apply next rest
      | .error error =>
          (.error error, draft)

/-- Evaluate a body: its default declarations first, then its other items. -/
def complete
    (draft : Draft)
    (declaration : GraphDeclaration) :
    Except EvaluationError Unit × Draft :=
  match applyAll applyDefaults draft declaration.defaults with
  | (.ok (), next) =>
      applyAll applyStatement next declaration.statements
  | (.error error, next) =>
      (.error error, next)

end Draft

end GraphScript
