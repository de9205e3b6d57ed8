/-
  Conform.Dependency.Order

  The order in which the fields of an object are worked on: depth first along
  the dependencies, so that each field comes after all it depends on. A
  dependency need not be a field; it is ordered all the same.
-/

import Conform.Failure

namespace Conform

/-- A graph of dependencies: its nodes in the order they are first named, and
    the edges from a node to what it depends on. -/
structure DependencyGraph where
  nodes : List String
  edges : List (String × String)

namespace DependencyGraph

/-- Adds a node unless it is there. -/
def addNode (nodes : List String) (node : String) : List String :=
  if nodes.contains node then nodes else nodes ++ [node]

/-- The graph of fields with their dependencies, without the excluded edges. -/
def ofFields (fields : List (String × List String)) (excluded : List (String × String)) :
    DependencyGraph :=
  { nodes := fields.foldl (fun nodes field => field.2.foldl addNode (addNode nodes field.1)) []
    edges := fields.flatMap fun field =>
      (field.2.filter fun dep => !excluded.contains (field.1, dep)).map fun dep => (field.1, dep) }

/-- The nodes that a node depends on, in the order of the edges. -/
def dependencies (g : DependencyGraph) (node : String) : List String :=
  (g.edges.filter fun edge => edge.1 == node).map Prod.snd

/-! ## Search -/

/-- What a search has found: the nodes it has entered, and those it has left, in
    the order of leaving. -/
structure Search where
  entered : List String
  order : List String

/-- Visits a node below the nodes of `stack`. A node that is entered again from
    below itself closes a cycle, and so does a stack with more nodes than there
    are; the fuel counts these. -/
def visit (g : DependencyGraph) (fuel : Nat) (stack : List String) (search : Search)
    (node : String) : Except String Search :=
  match fuel with
  | 0 => .error node
  | fuel + 1 =>
    if stack.contains node then .error node
    else if search.entered.contains node then .ok search
    else do
      let below ← (g.dependencies node).foldlM (visit g fuel (node :: stack))
        { search with entered := node :: search.entered }
      return { below with order := below.order ++ [node] }

/-- All nodes, each after those it depends on, or a node on a cycle. -/
def order (g : DependencyGraph) : Except String (List String) := do
  let search ← g.nodes.foldlM (visit g (g.nodes.length + 1) []) ⟨[], []⟩
  return search.order

end DependencyGraph

end Conform
