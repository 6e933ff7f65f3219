import CustomElements.Markup.Printer
import CustomElements.Proofs.Component.HostAttributes
import CustomElements.Proofs.Markup.Places
import CustomElements.Proofs.Markup.Scoping

/-!
# What scoping changes in markup

Scoping adds the classes of a component to its own elements, and it changes nothing else. Place by
place, the forest after scoping is the one before (`scopeMarkup_places`): an element that is not
expanded, and not inside an element that is expanded or custom, has the classes behind the words
that its `class` attribute had before; and every other node is the same node.
-/

namespace CustomElements

/-! ## One tag -/

/-- The text is the name of a class: it is not empty, and no white space divides it. -/
def IsClassName (k : String) : Prop := k ≠ "" ∧ ∀ c ∈ k.toList, Text.isBlank c = false

instance (k : String) : Decidable (IsClassName k) :=
  have : Decidable (∀ c ∈ k.toList, Text.isBlank c = false) := List.decidableBAll _ _
  instDecidableAnd

/-- The words of the `class` attribute. -/
def Tag.classWords (t : Tag) : List (List Char) :=
  Text.words ((t.attribute? "class").getD "").toList

/-- The second tag is the first one with classes behind those that it has. -/
structure Tag.Gains (classes : List String) (t t' : Tag) : Prop where
  name : t'.name = t.name
  selfClosing : t'.selfClosing = t.selfClosing
  expanded : t'.expanded = t.expanded
  /-- A `class` attribute stays where it is, and a new one comes last. -/
  names : t'.attributes.names =
    if classes = [] ∨ "class" ∈ t.attributes.names then t.attributes.names
    else t.attributes.names ++ ["class"]
  others : ∀ key, key ≠ "class" → t'.attribute? key = t.attribute? key
  classWords : t'.classWords = t.classWords ++ classes.map String.toList

/-- The words of a value with names of classes are those that it had and then the names. -/
theorem Tag.words_joinClasses_of_isClassName (existing : Option String) {classes : List String}
    (h : ∀ k ∈ classes, IsClassName k) :
    Text.words (joinClasses existing classes).toList =
      Text.words (existing.getD "").toList ++ classes.map String.toList := by
  rw [words_joinClasses_eq, ← List.flatMap_singleton' (classes.map String.toList),
    List.flatMap_map]
  refine congrArg (Text.words (existing.getD "").toList ++ ·) (List.flatMap_congr fun k hk => ?_)
  obtain ⟨hne, hblank⟩ := h k hk
  exact Text.words_eq_singleton (fun he => hne (String.toList_eq_nil_iff.mp he)) hblank

theorem Tag.gains_withClasses (t : Tag) {classes : List String}
    (h : ∀ k ∈ classes, IsClassName k) : t.Gains classes (t.withClasses classes) := by
  by_cases hnone : classes = []
  · subst hnone
    exact ⟨rfl, rfl, rfl, by simp [withClasses_nil], fun _ _ => rfl, by simp [withClasses_nil]⟩
  · have hset : t.withClasses classes =
        t.withAttribute "class" (joinClasses (t.attribute? "class") classes) := by
      rw [withClasses, if_neg (by simpa using hnone)]
    rw [hset]
    refine ⟨rfl, rfl, rfl, ?_, fun key hkey => ?_, ?_⟩
    · simp [withAttribute, hnone]
    · rw [attribute?, withAttribute, Fields.get?_insert, if_neg (Ne.symm hkey)]
      rfl
    · have hvalue : (t.withAttribute "class"
          (joinClasses (t.attribute? "class") classes)).attribute? "class" =
            some (joinClasses (t.attribute? "class") classes) := by
        rw [attribute?, withAttribute, Fields.get?_insert, if_pos rfl]
      rw [classWords, hvalue, Option.getD_some, words_joinClasses_of_isClassName _ h]
      rfl

/-! ## A forest -/

/-- No element that the place is inside is expanded or custom. -/
def Place.IsOpen (isCustom : String → Bool) (x : Place) : Prop :=
  ∀ t ∈ x.around, t.expanded = false ∧ isCustom t.name = false

/-- The place is that of one of the component's own elements. -/
def Place.IsOwn (isCustom : String → Bool) (x : Place) : Prop :=
  x.IsOpen isCustom ∧ ∃ tag children, x.node = .element tag children ∧ tag.expanded = false

/-- The second place is what scoping makes of the first one. -/
structure Place.Scoped (classes : List String) (isCustom : String → Bool) (x y : Place) :
    Prop where
  position : y.position = x.position
  /-- An own element keeps its children, up to what scoping makes of those. -/
  own : x.IsOwn isCustom → ∃ tag tag' children children',
    x.node = .element tag children ∧ y.node = .element tag' children' ∧
      tag.Gains classes tag' ∧ children'.length = children.length
  other : ¬x.IsOwn isCustom → y.node = x.node

section Forest

variable {classes : List String} {isCustom : String → Bool}

theorem Node.addClassesForest_eq_map (nodes : List Node) :
    addClassesForest classes isCustom nodes = nodes.map (addClasses classes isCustom) := by
  induction nodes with
  | nil => rfl
  | cons n rest ih => rw [addClassesForest, List.map_cons, ih]

/-- Inside an element that is expanded or custom nothing is changed. -/
theorem Place.scoped_of_closed {t : Tag} {around around' : List Tag} (ht : t ∈ around)
    (hclosed : ¬(t.expanded = false ∧ isCustom t.name = false)) (position : List Nat)
    (more : List Tag) (n : Node) :
    Place.Scoped classes isCustom ⟨position, around ++ more, n⟩ ⟨position, around' ++ more, n⟩ where
  position := rfl
  own := fun h => absurd (h.1 t (List.mem_append_left more ht)) hclosed
  other := fun _ => rfl

theorem Place.scoped_leaf {n : Node} (h : ∀ tag children, n ≠ .element tag children)
    (position : List Nat) (around around' : List Tag) :
    Place.Scoped classes isCustom ⟨position, around, n⟩ ⟨position, around', n⟩ where
  position := rfl
  own := fun ⟨_, tag, children, he, _⟩ => absurd he (h tag children)
  other := fun _ => rfl

theorem Node.scoped_placesFrom_closed {t : Tag} {around around' : List Tag} (ht : t ∈ around)
    (hclosed : ¬(t.expanded = false ∧ isCustom t.name = false)) (position : List Nat)
    (i : Nat) (nodes : List Node) :
    List.Forall₂ (Place.Scoped classes isCustom) (Node.placesFrom position around i nodes)
      (Node.placesFrom position around' i nodes) := by
  have h := Node.forall₂_placesFrom (R := Place.Scoped classes isCustom) (b := around')
    (Place.scoped_of_closed ht hclosed) position [] i nodes
  rwa [List.append_nil, List.append_nil] at h

mutual

theorem Node.scoped_placesIn (h : ∀ k ∈ classes, IsClassName k) (position : List Nat)
    {around around' : List Tag}
    (hopen : ∀ t ∈ around, t.expanded = false ∧ isCustom t.name = false) : (n : Node) →
      List.Forall₂ (Place.Scoped classes isCustom) (n.placesIn position around)
        ((n.addClasses classes isCustom).placesIn position around')
  | .text _ => .cons (Place.scoped_leaf (by simp) _ _ _) .nil
  | .style _ _ => .cons (Place.scoped_leaf (by simp) _ _ _) .nil
  | .styleText _ => .cons (Place.scoped_leaf (by simp) _ _ _) .nil
  | .element tag children => by
      unfold addClasses
      rcases hexpanded : tag.expanded with - | -
      · have hown : ∀ position children', children'.length = children.length →
            Place.Scoped classes isCustom ⟨position, around, .element tag children⟩
              ⟨position, around', .element (tag.withClasses classes) children'⟩ :=
          fun _ _ hlength => ⟨rfl, fun _ => ⟨_, _, _, _, rfl, rfl, tag.gains_withClasses h,
            hlength⟩, fun hnot => absurd ⟨hopen, _, _, rfl, hexpanded⟩ hnot⟩
        simp only [Bool.false_eq_true, if_false]
        rcases hcustom : isCustom tag.name with - | -
        · -- the walk goes on inside, where the element is one more that is open
          have hinside : ∀ t ∈ around ++ [tag], t.expanded = false ∧ isCustom t.name = false :=
            List.forall_mem_append.mpr ⟨hopen, by simp [hexpanded, hcustom]⟩
          refine .cons (hown _ _ ?_) (scoped_placesFrom h position hinside 0 children)
          rw [addClassesForest_eq_map, List.length_map]
        · refine .cons (hown _ _ rfl) (scoped_placesFrom_closed (t := tag) (by simp) ?_ _ _ _)
          simp [hcustom]
      · refine .cons ⟨rfl, fun hown => ?_, fun _ => rfl⟩
          (scoped_placesFrom_closed (t := tag) (by simp) (by simp [hexpanded]) _ _ _)
        obtain ⟨-, t, cs, he, ht⟩ := hown
        cases he
        rw [hexpanded] at ht
        cases ht

theorem Node.scoped_placesFrom (h : ∀ k ∈ classes, IsClassName k) (position : List Nat)
    {around around' : List Tag}
    (hopen : ∀ t ∈ around, t.expanded = false ∧ isCustom t.name = false) (i : Nat) :
      (nodes : List Node) → List.Forall₂ (Place.Scoped classes isCustom)
        (Node.placesFrom position around i nodes)
        (Node.placesFrom position around' i (addClassesForest classes isCustom nodes))
  | [] => .nil
  | n :: rest => List.rel_append (scoped_placesIn h (position ++ [i]) hopen n)
      (scoped_placesFrom h position hopen (i + 1) rest)

end

end Forest

mutual

theorem Node.addClasses_nil (isCustom : String → Bool) : (n : Node) → n.addClasses [] isCustom = n
  | .text _ => rfl
  | .style _ _ => rfl
  | .styleText _ => rfl
  | .element tag children => by
      unfold addClasses
      rw [Tag.withClasses_nil, addClassesForest_nil isCustom children, ite_self, ite_self]

theorem Node.addClassesForest_nil (isCustom : String → Bool) :
    (nodes : List Node) → addClassesForest [] isCustom nodes = nodes
  | [] => rfl
  | n :: rest => by
      rw [addClassesForest, addClasses_nil isCustom n, addClassesForest_nil isCustom rest]

end

/-- That no classes leave the forest as it is needs no rule of its own. -/
theorem scopeMarkup_eq (nodes : List Node) (classes : List String) (isCustom : String → Bool) :
    scopeMarkup nodes classes isCustom = Node.addClassesForest classes isCustom nodes := by
  unfold scopeMarkup
  split
  · rename_i hnone
    rw [List.isEmpty_iff.mp hnone, Node.addClassesForest_nil]
  · rfl

/--
**Scoping classes the component's own elements and changes nothing else.** Place by place, an
element that is neither expanded nor inside an expanded or custom element has the classes behind the
words of its `class` attribute, and its name, its other attributes and their order, its flags and
the number of its children are the same. Every other node is the same with all that it holds. If
there are no classes, nothing is changed.
-/
theorem scopeMarkup_places (nodes : List Node) {classes : List String} (isCustom : String → Bool)
    (h : ∀ k ∈ classes, IsClassName k) :
    List.Forall₂ (Place.Scoped classes isCustom) (Node.places nodes)
        (Node.places (scopeMarkup nodes classes isCustom)) ∧
      (classes = [] → scopeMarkup nodes classes isCustom = nodes) := by
  rw [scopeMarkup_eq]
  refine ⟨Node.scoped_placesFrom h [] (by simp) 0 nodes, ?_⟩
  rintro rfl
  exact Node.addClassesForest_nil isCustom nodes

namespace Sample

/-- A box with a padded class, another component in it, and one that is finished. -/
def boxed : List Node :=
  [.element ((Tag.ofName "div").withAttribute "class" " box\t")
    [.element (Tag.ofName "p") [.text "a"],
      .element (Tag.ofName "x-inner") [.element (Tag.ofName "span") []],
      .element (Tag.ofName "x-done").markExpanded [.element (Tag.ofName "i") []]]]

end Sample

open Sample in
/-- The box, its paragraph and the host of the other component have the classes. -/
theorem scopeMarkup_places_boxed :
    let classed := scopeMarkup boxed ["css-a-0", "css-a"] (· == "x-inner")
    (∀ k ∈ ["css-a-0", "css-a"], IsClassName k) ∧
      Node.forestToHtml classed =
        "<div class=\"box css-a-0 css-a\"><p class=\"css-a-0 css-a\">a</p>" ++
        "<x-inner class=\"css-a-0 css-a\"><span></span></x-inner><x-done><i></i></x-done></div>" ∧
      List.Forall₂ (Place.Scoped ["css-a-0", "css-a"] (· == "x-inner")) (Node.places boxed)
        (Node.places classed) := by
  have hclasses : ∀ k ∈ ["css-a-0", "css-a"], IsClassName k := by decide +kernel
  exact ⟨hclasses, by decide +kernel, (scopeMarkup_places boxed _ hclasses).1⟩

end CustomElements
