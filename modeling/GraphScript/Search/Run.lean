import GraphScript.Search.Requirements
import GraphScript.Search.ShortestPaths

namespace GraphScript.Search

/-!
# Records of runs

A run is recorded as one step for each node that is visited, between a first
and a last step. The colours of a step tell which nodes wait, which one is
visited, which ones have been visited, and which ones form the path that was
found.
-/

/-- The colours of nodes in a step. -/
inductive Color where
  | yellow
  | red
  | green
  | blue
  deriving DecidableEq, Repr

namespace Color

/-- The word for a colour. -/
def text :
    Color →
    String
  | .yellow => "yellow"
  | .red => "red"
  | .green => "green"
  | .blue => "blue"

/-- Visited nodes are green, the current one red, and waiting ones yellow. -/
def assign
    (visited : List String)
    (current : Option String)
    (waiting : List String) :
    NameMap Color :=
  let visitedGreen := NameMap.ofList (visited.map fun node => (node, green))
  let currentRed :=
    match current with
    | some node => visitedGreen.insert node red
    | none => visitedGreen
  currentRed.insertAll
    ((waiting.filter fun node => node ∉ visited).map fun node =>
      (node, yellow))

end Color

/-- The state of a run after one step. -/
structure Step where
  /-- The place of the step in its run, counted from zero. -/
  number : Nat
  description : String
  current : Option String
  /-- The visited nodes in the order of their visits. -/
  visited : List String
  /-- The nodes of the queue, of the stack, or waiting to be settled. -/
  frontier : List String
  colors : NameMap Color
  /-- The distances found so far, where the algorithm computes any. -/
  distances : Option (NameMap (Option Float))

namespace Step

/-- The step before the first visit. -/
def first
    (description start : String)
    (distances : Option (NameMap (Option Float))) :
    Step :=
  { number := 0
    description
    current := some start
    visited := []
    frontier := [start]
    colors := .ofList [(start, .yellow)]
    distances }

/-- The step of a visit. Its number is the count of the nodes visited by then. -/
def visit
    (description node : String)
    (visited frontier : List String)
    (distances : Option (NameMap (Option Float))) :
    Step :=
  { number := visited.length
    description
    current := some node
    visited
    frontier
    colors := Color.assign visited (some node) frontier
    distances }

/-- The step after the last visit, with the nodes of a path in blue. -/
def last
    (description : String)
    (visited path : List String)
    (distances : Option (NameMap (Option Float))) :
    Step :=
  { number := visited.length + 1
    description
    current := none
    visited
    frontier := []
    colors :=
      (Color.assign visited none []).insertAll
        (path.map fun node => (node, .blue))
    distances }

end Step

/-- What a run has found. -/
inductive Finding where
  | traversal (visitOrder : List String)
  | shortestPath
      (distances : NameMap (Option Float))
      (path : List String)
      (length : Option Float)

/-- The record of a run. -/
structure Run where
  algorithm : Algorithm
  graph : String
  start : String
  steps : List Step
  finding : Finding

namespace Discipline

/-- The algorithm that explores with a discipline. -/
def algorithm :
    Discipline →
    Algorithm
  | .queue => .breadthFirst
  | .stack => .depthFirst

/-- The name of the algorithm in descriptions. -/
def title :
    Discipline →
    String
  | .queue => "BFS"
  | .stack => "DFS"

/-- What the frontier is called. -/
def text :
    Discipline →
    String
  | .queue => "queue"
  | .stack => "stack"

end Discipline

/-- Explore a graph from a node of it. -/
def traverse
    (discipline : Discipline)
    (graph : Graph)
    (start : String) :
    Except Failure Run :=
  if graph.nodes.isEmpty then
    .error .emptyGraph
  else if !graph.hasNode start then
    .error (.startNotFound start)
  else
    let visits := explore graph.arcs discipline start
    let order := visits.map (·.node)
    let initial :=
      Step.first s!"Initialize {discipline.title} from node {start}" start
        none
    let steps := visits.map fun visit =>
      Step.visit
        s!"Visit node {visit.node}, add neighbors to {discipline.text}"
        visit.node visit.visited visit.frontier none
    let final := Step.last s!"{discipline.title} completed" order [] none
    .ok
      { algorithm := discipline.algorithm
        graph := graph.id
        start
        steps := initial :: steps ++ [final]
        finding := .traversal order }

/-- The step of a search for shortest paths that has settled a node. -/
def Settled.step
    (settled : Settled Float) :
    Step :=
  let distance := Decimal.plainText settled.distance
  Step.visit s!"Process node {settled.node} (distance: {distance})"
    settled.node settled.visited settled.waiting (some settled.distances)

/-- Search a graph for the shortest paths from a node, and for one to a target. -/
def dijkstra
    (graph : Graph)
    (start : String)
    (target : Option String) :
    Except Failure Run :=
  (shortestPaths graph start target).map fun search =>
    let distances := search.final.distances
    let visited := search.settled.map (·.node)
    let path := (target.map search.final.pathTo).getD []
    let initial :=
      Step.first s!"Initialize Dijkstra from node {start}" start
        (some search.initial.distances)
    let final :=
      Step.last "Dijkstra completed" visited path (some distances)
    { algorithm := .dijkstra
      graph := graph.id
      start
      steps := initial :: search.settled.map Settled.step ++ [final]
      finding :=
        .shortestPath distances path (target.bind search.final.distance?) }

namespace Algorithm

/-- Check the requirements and run. Only shortest paths have a target. -/
def run
    (algorithm : Algorithm)
    (graph : Graph)
    (start : String)
    (target : Option String) :
    Except Failure Run := do
  algorithm.requirements.check graph
  match algorithm with
  | .breadthFirst => traverse .queue graph start
  | .depthFirst => traverse .stack graph start
  | .dijkstra => Search.dijkstra graph start target

end Algorithm

end GraphScript.Search
