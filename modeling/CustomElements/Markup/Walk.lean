import CustomElements.Markup.Node

/-!
# Walking a tree

A walk shows every node to a visitor before the node's children. The visitor answers with a node to
put in its place, and says whether the walk goes on inside that node or leaves it as it is. The
visitor may keep state, and it may fail, which ends the walk.

The answer may be any node, also one deeper than the node it replaces, so a walk has a limit on how
deep it goes; below the limit the answers stay as they are. A visitor that keeps the children of the
nodes it visits never reaches a limit of the height of the forest.
-/

namespace CustomElements

/-- What a visitor answers. -/
inductive Visit where
  /-- Put the node here and visit its children. -/
  | descend (node : Node)
  /-- Put the node here with all that it holds. -/
  | keep (node : Node)

/--
Visits a node, and its descendants down to `depth` levels. Only elements have children to visit.
-/
def Node.walk {m : Type → Type} [Monad m] (visit : Node → m Visit) : (depth : Nat) → Node → m Node
  | depth, node => do
    match ← visit node with
    | .keep n => pure n
    | .descend (.element tag children) =>
      match depth with
      | 0 => pure (.element tag children)
      | depth + 1 => do
        let children ← children.mapM (Node.walk visit depth)
        pure (.element tag children)
    | .descend leaf => pure leaf

/-- Visits the nodes of a forest in order. -/
def Node.walkForest {m : Type → Type} [Monad m] (visit : Node → m Visit) (depth : Nat)
    (nodes : List Node) : m (List Node) :=
  nodes.mapM (Node.walk visit depth)

mutual

/-- The number of levels of elements below and including a node. -/
def Node.height : Node → Nat
  | .element _ children => Node.heightForest children + 1
  | _ => 0

/-- The height of the highest node. -/
def Node.heightForest : List Node → Nat
  | [] => 0
  | n :: rest => max n.height (Node.heightForest rest)

end

end CustomElements
