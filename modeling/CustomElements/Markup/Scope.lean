import CustomElements.Markup.Node

/-!
# Scoping markup

A component's own elements receive its scoping classes. A nested component's host is the
component's own element too, but what is inside the host belongs to the nested component, and an
expanded element is finished.
-/

namespace CustomElements

mutual

/-- Adds classes to the elements of a node that belong to the component. -/
def Node.addClasses (classes : List String) (isCustom : String → Bool) : Node → Node
  | .element tag children =>
    if tag.expanded then .element tag children
    else if isCustom tag.name then .element (tag.withClasses classes) children
    else .element (tag.withClasses classes) (Node.addClassesForest classes isCustom children)
  | n => n

/-- Adds classes to the elements of a forest that belong to the component. -/
def Node.addClassesForest (classes : List String) (isCustom : String → Bool) :
    List Node → List Node
  | [] => []
  | n :: rest => n.addClasses classes isCustom :: Node.addClassesForest classes isCustom rest

end

/-- The forest with the classes on the component's own elements; no classes change nothing. -/
def scopeMarkup (nodes : List Node) (classes : List String) (isCustom : String → Bool) :
    List Node :=
  if classes.isEmpty then nodes else Node.addClassesForest classes isCustom nodes

end CustomElements
