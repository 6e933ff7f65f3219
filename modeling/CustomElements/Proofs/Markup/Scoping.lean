import CustomElements.Markup.Scope

/-!
# The elements that receive scoping classes

A component's *own* elements are those of its markup that are neither expanded nor inside an
element that is expanded or custom. They receive the scoping classes, and no element becomes or
ceases to be one of them by that (`ownTags_scopeMarkup`).
-/

namespace CustomElements

mutual

/-- The tags of the component's own elements in a node of its markup, in document order. -/
def Node.ownTags (isCustom : String → Bool) : Node → List Tag
  | .element tag children =>
    if tag.expanded then []
    else tag :: if isCustom tag.name then [] else Node.ownTagsForest isCustom children
  | _ => []

def Node.ownTagsForest (isCustom : String → Bool) : List Node → List Tag
  | [] => []
  | n :: rest => n.ownTags isCustom ++ Node.ownTagsForest isCustom rest

end

@[simp] theorem Tag.name_withClasses (t : Tag) (classes : List String) :
    (t.withClasses classes).name = t.name := by
  unfold withClasses
  split <;> rfl

@[simp] theorem Tag.expanded_withClasses (t : Tag) (classes : List String) :
    (t.withClasses classes).expanded = t.expanded := by
  unfold withClasses
  split <;> rfl

theorem Tag.withClasses_nil (t : Tag) : t.withClasses [] = t := rfl

variable (classes : List String) (isCustom : String → Bool)

mutual

theorem Node.ownTags_addClasses : (n : Node) →
    (n.addClasses classes isCustom).ownTags isCustom =
      (n.ownTags isCustom).map (·.withClasses classes)
  | .text _ => rfl
  | .style _ _ => rfl
  | .styleText _ => rfl
  | .element tag children => by
      unfold addClasses
      rcases hexpanded : tag.expanded with - | -
      · rcases hcustom : isCustom tag.name with - | -
        · simp [ownTags, hexpanded, hcustom, ownTagsForest_addClassesForest children]
        · simp [ownTags, hexpanded, hcustom]
      · simp [ownTags, hexpanded]

theorem Node.ownTagsForest_addClassesForest : (nodes : List Node) →
    ownTagsForest isCustom (addClassesForest classes isCustom nodes) =
      (ownTagsForest isCustom nodes).map (·.withClasses classes)
  | [] => rfl
  | n :: rest => by
      rw [addClassesForest, ownTagsForest, ownTagsForest, List.map_append, ownTags_addClasses n,
        ownTagsForest_addClassesForest rest]

end

/-- **The component's own elements receive the classes.** -/
theorem ownTags_scopeMarkup (nodes : List Node) :
    Node.ownTagsForest isCustom (scopeMarkup nodes classes isCustom) =
      (Node.ownTagsForest isCustom nodes).map (·.withClasses classes) := by
  unfold scopeMarkup
  split
  · rename_i hnone
    rw [List.isEmpty_iff.mp hnone]
    simp only [Tag.withClasses_nil, List.map_id']
  · exact Node.ownTagsForest_addClassesForest classes isCustom nodes

end CustomElements
