import CustomElements.Markup.Node
import Mathlib.Data.List.Forall2

/-!
# Places in a forest

A *place* is a node together with where it stands: the child numbers on the way down to it, and the
tags of the elements that it is inside. What is said of "every element that is not inside such an
element" is said of the places of a forest, which are listed in document order (`Node.places`), and
not of the way in which some function happens to go through it.

Two forests whose places agree one by one (`List.Forall₂`) have the same shape, since the positions
are among what agrees.
-/

namespace CustomElements

/-- A node of a forest and where it stands. -/
structure Place where
  /-- The child numbers on the way down to the node. -/
  position : List Nat
  /-- The tags of the elements that it is inside, outermost first. -/
  around : List Tag
  node : Node

mutual

/-- The places in a node that stands at `position`, in document order. -/
def Node.placesIn (position : List Nat) (around : List Tag) : Node → List Place
  | .element tag children =>
    ⟨position, around, .element tag children⟩ ::
      Node.placesFrom position (around ++ [tag]) 0 children
  | n => [⟨position, around, n⟩]

/-- The places in nodes that stand side by side, the first of them as child number `i`. -/
def Node.placesFrom (position : List Nat) (around : List Tag) (i : Nat) : List Node → List Place
  | [] => []
  | n :: rest =>
    n.placesIn (position ++ [i]) around ++ Node.placesFrom position around (i + 1) rest

end

/-- All places of a forest in document order. -/
def Node.places (nodes : List Node) : List Place := Node.placesFrom [] [] 0 nodes

mutual

/-- Every place in a node is inside all that the node is inside. -/
theorem Node.subset_around_placesIn (position : List Nat) (around : List Tag) :
    (n : Node) → ∀ x ∈ n.placesIn position around, around ⊆ x.around
  | .text _, x, h => by rw [List.mem_singleton.mp h]; exact List.Subset.refl _
  | .style _ _, x, h => by rw [List.mem_singleton.mp h]; exact List.Subset.refl _
  | .styleText _, x, h => by rw [List.mem_singleton.mp h]; exact List.Subset.refl _
  | .element tag children, x, h => by
      rcases List.mem_cons.mp h with rfl | h
      · exact List.Subset.refl _
      · exact List.Subset.trans (List.subset_append_left _ _)
          (subset_around_placesFrom position (around ++ [tag]) 0 children x h)

theorem Node.subset_around_placesFrom (position : List Nat) (around : List Tag) (i : Nat) :
    (nodes : List Node) → ∀ x ∈ Node.placesFrom position around i nodes, around ⊆ x.around
  | [], _, h => absurd h List.not_mem_nil
  | n :: rest, x, h => (List.mem_append.mp h).elim
      (subset_around_placesIn (position ++ [i]) around n x)
      (subset_around_placesFrom position around (i + 1) rest x)

end

section Forall₂

variable {R : Place → Place → Prop} {a b : List Tag}

mutual

/-- A node compared with itself, in two surroundings. -/
theorem Node.forall₂_placesIn
    (h : ∀ position more n, R ⟨position, a ++ more, n⟩ ⟨position, b ++ more, n⟩)
    (position : List Nat) (more : List Tag) : (n : Node) →
      List.Forall₂ R (n.placesIn position (a ++ more)) (n.placesIn position (b ++ more))
  | .text _ => .cons (h _ _ _) .nil
  | .style _ _ => .cons (h _ _ _) .nil
  | .styleText _ => .cons (h _ _ _) .nil
  | .element tag children => by
      have hinside := forall₂_placesFrom h position (more ++ [tag]) 0 children
      rw [← List.append_assoc, ← List.append_assoc] at hinside
      exact .cons (h _ _ _) hinside

theorem Node.forall₂_placesFrom
    (h : ∀ position more n, R ⟨position, a ++ more, n⟩ ⟨position, b ++ more, n⟩)
    (position : List Nat) (more : List Tag) (i : Nat) : (nodes : List Node) →
      List.Forall₂ R (Node.placesFrom position (a ++ more) i nodes)
        (Node.placesFrom position (b ++ more) i nodes)
  | [] => .nil
  | n :: rest => List.rel_append (forall₂_placesIn h (position ++ [i]) more n)
      (forall₂_placesFrom h position more (i + 1) rest)

end

end Forall₂

end CustomElements
