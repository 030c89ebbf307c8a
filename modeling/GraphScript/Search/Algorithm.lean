namespace GraphScript.Search

/-!
# Search algorithms and their names
-/

/-- The algorithms that can run on a graph. -/
inductive Algorithm where
  | breadthFirst
  | depthFirst
  | dijkstra
  deriving DecidableEq, Repr

namespace Algorithm

/-- The name under which an algorithm is listed. -/
def text :
    Algorithm →
    String
  | .breadthFirst => "bfs"
  | .depthFirst => "dfs"
  | .dijkstra => "dijkstra"

/-- The long form of the name. -/
def longText :
    Algorithm →
    String
  | .breadthFirst => "breadth_first"
  | .depthFirst => "depth_first"
  | .dijkstra => "shortest_path"

/-- All algorithms in the order in which they are listed. -/
def all :
    List Algorithm :=
  [.breadthFirst, .depthFirst, .dijkstra]

/-- The algorithm with a given name. Capital ASCII letters count as small ones. -/
def ofName?
    (name : String) :
    Option Algorithm :=
  let lower := String.ofList (name.toList.map Char.toLower)
  all.find? fun algorithm =>
    algorithm.text = lower || algorithm.longText = lower

end Algorithm

end GraphScript.Search
