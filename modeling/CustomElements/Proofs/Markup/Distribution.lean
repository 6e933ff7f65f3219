import CustomElements.Markup.Scope
import CustomElements.Markup.Slot
import Mathlib.Data.List.Perm.Basic

/-!
# Where content goes

Every piece of a caller's content goes to exactly one place: to the placeholder of the name that it
asks for, to the unnamed placeholder, or to nowhere. The first part says so of the content that is
set aside for placeholders (`perm_content`). It is met by what placeholders take: the names that
content is set aside for are the names of placeholders, and each placeholder takes what waits for it
(`Waiting.afterAll_receiversForest`), so nothing is left waiting in the end.

So whatever is listed of the nodes of a tree, if the markup as it is written has none of it, the
distributed markup has that of the content, each as often, except for what was dropped
(`Distribution.perm_flatMap`). The stylesheets in a tree are such a list
(`Distribution.perm_styles`).
-/

namespace CustomElements

open List (Perm)

/-! ## The stylesheets in a tree -/

/-- A `<style>` element: its attributes and its stylesheet. -/
abbrev StyleElement := Attributes × ScopedSheet

mutual

/-- The `<style>` elements in a node, in document order. -/
def Node.styles : Node → List StyleElement
  | .element _ children => Node.stylesForest children
  | .style attributes sheet => [(attributes, sheet)]
  | .text _ | .styleText _ => []

/-- The `<style>` elements in a forest, in document order. -/
def Node.stylesForest : List Node → List StyleElement
  | [] => []
  | n :: rest => n.styles ++ Node.stylesForest rest

end

theorem Node.stylesForest_eq_flatMap (nodes : List Node) :
    stylesForest nodes = nodes.flatMap styles := by
  induction nodes with
  | nil => rfl
  | cons n rest ih => rw [stylesForest, List.flatMap_cons, ih]

@[simp] theorem Node.stylesForest_append (ns ms : List Node) :
    stylesForest (ns ++ ms) = stylesForest ns ++ stylesForest ms := by
  simp only [stylesForest_eq_flatMap, List.flatMap_append]

mutual

/-- Classes do not change which stylesheets there are. -/
theorem Node.styles_addClasses (classes : List String) (isCustom : String → Bool) :
    (n : Node) → (n.addClasses classes isCustom).styles = n.styles
  | .text _ => rfl
  | .style _ _ => rfl
  | .styleText _ => rfl
  | .element tag children => by
      unfold addClasses
      split
      · rfl
      · split
        · rfl
        · exact stylesForest_addClasses classes isCustom children

theorem Node.stylesForest_addClasses (classes : List String) (isCustom : String → Bool) :
    (nodes : List Node) → stylesForest (addClassesForest classes isCustom nodes) =
      stylesForest nodes
  | [] => rfl
  | n :: rest => by
      rw [addClassesForest, stylesForest, stylesForest, styles_addClasses classes isCustom n,
        stylesForest_addClasses classes isCustom rest]

end

theorem stylesForest_scopeMarkup (nodes : List Node) (classes : List String)
    (isCustom : String → Bool) :
    Node.stylesForest (scopeMarkup nodes classes isCustom) = Node.stylesForest nodes := by
  unfold scopeMarkup
  split
  · rfl
  · exact Node.stylesForest_addClasses _ _ _

/-! ## Setting content aside -/

/-- To split a list by two tests that exclude each other is to filter it by both. -/
theorem perm_filter_or {α : Type} {f g : α → Bool} (l : List α)
    (h : ∀ a ∈ l, f a = true → g a = false) :
    (l.filter f ++ l.filter g).Perm (l.filter fun a => f a || g a) := by
  have hp := List.filter_append_perm f (l.filter fun a => f a || g a)
  have hf : (l.filter fun a => f a || g a).filter f = l.filter f := by
    rw [List.filter_filter]
    refine List.filter_congr fun a _ => ?_
    cases f a <;> simp
  have hg : (l.filter fun a => f a || g a).filter (fun a => !f a) = l.filter g := by
    rw [List.filter_filter]
    refine List.filter_congr fun a ha => ?_
    rcases hfa : f a with - | -
    · simp
    · simp [h a ha hfa]
  rwa [hf, hg] at hp

/-- Content for different names is the content that asks for one of them. -/
theorem perm_contentFor {names : List String} (h : names.Nodup) (content : List Node) :
    (names.map (contentFor · content)).flatten.Perm
      (content.filter fun n => n.slotTarget?.any names.contains) := by
  induction names with
  | nil =>
      have hnone : (fun n : Node => n.slotTarget?.any ([] : List String).contains) =
          fun _ => false := by
        funext n
        cases n.slotTarget? <;> rfl
      simp [hnone]
  | cons name names ih =>
      rw [List.nodup_cons] at h
      rw [List.map_cons, List.flatten_cons]
      refine ((ih h.2).append_left _).trans ?_
      -- content asks for one name only
      refine (perm_filter_or content fun n _ hn => ?_).trans (.of_eq ?_)
      · rw [beq_iff_eq] at hn
        simp [hn, h.1]
      · refine List.filter_congr fun n _ => ?_
        rcases n.slotTarget? with - | target
        · rfl
        · by_cases ht : target = name <;> simp [ht]

theorem mem_names_namedContent {r : Receivers} {content : List Node} {name : String} :
    name ∈ (namedContent r content).names ↔
      r.hasNamed name = true ∧ ∃ n ∈ content, n.slotTarget? = some name := by
  rw [namedContent, Fields.mem_names_ofList]
  simp [and_comm]

theorem values_namedContent (r : Receivers) (content : List Node) :
    (namedContent r content).values =
      (namedContent r content).names.map (contentFor · content) :=
  Fields.values_ofList_map (contentFor · content) _

/-- **Every piece of content is set aside once.** -/
theorem perm_content (r : Receivers) (content : List Node) :
    ((namedContent r content).values.flatten ++ contentForUnnamed r content).Perm content := by
  have hnamed := perm_contentFor (namedContent r content).nodup content
  rw [values_namedContent]
  refine (hnamed.append_right _).trans ?_
  have hrest : (contentForUnnamed r content).Perm
      (content.filter fun n => !n.slotTarget?.any (namedContent r content).names.contains) := by
    unfold contentForUnnamed
    refine (perm_filter_or content fun n _ hn => ?_).trans (.of_eq ?_)
    · rw [beq_iff_eq] at hn
      rw [hn]
    · refine List.filter_congr fun n hn => ?_
      rcases ht : n.slotTarget? with - | target
      · rfl
      · have hmem : target ∈ (namedContent r content).names ↔ r.hasNamed target = true :=
          mem_names_namedContent.trans (and_iff_left ⟨n, hn, ht⟩)
        rw [Bool.eq_iff_iff]
        simp [hmem]
  exact (hrest.append_left _).trans (List.filter_append_perm _ content)

/-! ## The placeholders of markup -/

mutual

/-- The placeholders of a node by their names, in document order. -/
def Node.receivers : Node → List (Option String)
  | .element tag children =>
    if tag.isReceiver then [tag.receiverName?]
    else if tag.expanded then []
    else Node.receiversForest children
  | _ => []

/-- The placeholders of a forest by their names, in document order. -/
def Node.receiversForest : List Node → List (Option String)
  | [] => []
  | n :: rest => n.receivers ++ Node.receiversForest rest

end

namespace Receivers

mutual

theorem addNode_eq_foldl (r : Receivers) :
    (n : Node) → r.addNode n = n.receivers.foldl add r
  | .text _ => rfl
  | .style _ _ => rfl
  | .styleText _ => rfl
  | .element tag children => by
      unfold addNode Node.receivers
      split
      · rfl
      · split
        · rfl
        · exact addForest_eq_foldl r children

theorem addForest_eq_foldl (r : Receivers) :
    (nodes : List Node) → r.addForest nodes = (Node.receiversForest nodes).foldl add r
  | [] => rfl
  | n :: rest => by
      rw [addForest, Node.receiversForest, List.foldl_append, ← addNode_eq_foldl r n,
        addForest_eq_foldl _ rest]

end

theorem hasNamed_add (r : Receivers) (receiver : Option String) (name : String) :
    (r.add receiver).hasNamed name = true ↔ r.hasNamed name = true ∨ receiver = some name := by
  rcases receiver with - | known
  · simp [add, hasNamed]
  · dsimp only [add]
    split
    · rename_i h
      constructor
      · exact .inl
      · rintro (h' | h')
        · exact h'
        · rwa [← Option.some.inj h']
    · rw [Option.some.injEq, eq_comm (a := known)]
      simp [hasNamed]

theorem unnamed_add (r : Receivers) (receiver : Option String) :
    (r.add receiver).unnamed = true ↔ r.unnamed = true ∨ receiver = .none := by
  rcases receiver with - | known
  · simp [add]
  · dsimp only [add]
    split <;> simp

theorem hasNamed_find (nodes : List Node) (name : String) :
    (find nodes).hasNamed name = true ↔ some name ∈ Node.receiversForest nodes := by
  have h : ∀ (l : List (Option String)) (r : Receivers),
      (l.foldl add r).hasNamed name = true ↔ r.hasNamed name = true ∨ some name ∈ l := by
    intro l
    induction l with
    | nil => simp
    | cons receiver l ih =>
        intro r
        rw [List.foldl_cons, ih, hasNamed_add, List.mem_cons, or_assoc, eq_comm (a := some name)]
  rw [find, addForest_eq_foldl, h]
  simp [none, hasNamed]

theorem unnamed_find (nodes : List Node) :
    (find nodes).unnamed = true ↔ .none ∈ Node.receiversForest nodes := by
  have h : ∀ (l : List (Option String)) (r : Receivers),
      (l.foldl add r).unnamed = true ↔ r.unnamed = true ∨ .none ∈ l := by
    intro l
    induction l with
    | nil => simp
    | cons receiver l ih =>
        intro r
        rw [List.foldl_cons, ih, unnamed_add, List.mem_cons, or_assoc, eq_comm (a := Option.none)]
  rw [find, addForest_eq_foldl, h]
  simp [none]

end Receivers

/-! ## Filling the placeholders -/

namespace Waiting

/-- All content that is waiting. -/
def contents (w : Waiting) : List Node := w.named.values.flatten ++ w.unnamed.getD []

/-- The content that one placeholder takes. -/
def taken (w : Waiting) (receiver : Option String) : List Node := (w.take receiver).1.getD []

/-- What is waiting when the placeholders have taken theirs. -/
def afterAll (w : Waiting) (receivers : List (Option String)) : Waiting :=
  receivers.foldl (fun w receiver => (w.take receiver).2) w

theorem perm_contents_take (w : Waiting) (receiver : Option String) :
    (w.taken receiver ++ (w.take receiver).2.contents).Perm w.contents := by
  rcases receiver with - | name
  · simpa [taken, take, contents] using List.perm_append_comm
  · have h := (w.named.perm_values_erase name).flatten
    have ht : w.taken (some name) = (w.named.get? name).toList.flatten := by
      rw [taken, take]
      cases w.named.get? name <;> simp
    rw [List.flatten_append, ← ht] at h
    rw [contents, contents, ← List.append_assoc]
    exact h.append_right _

mutual

theorem afterAll_receivers (w : Waiting) :
    (n : Node) → (w.fillNode n).2 = w.afterAll n.receivers
  | .text _ => rfl
  | .style _ _ => rfl
  | .styleText _ => rfl
  | .element tag children => by
      unfold fillNode Node.receivers
      split
      · rw [afterAll, List.foldl_cons, List.foldl_nil]
        split <;> rename_i h <;> rw [h]
      · split
        · rfl
        · exact afterAll_receiversForest w children

theorem afterAll_receiversForest (w : Waiting) :
    (nodes : List Node) → (w.fillForest nodes).2 = w.afterAll (Node.receiversForest nodes)
  | [] => rfl
  | n :: rest => by
      rw [Node.receiversForest, afterAll, List.foldl_append, ← afterAll, ← afterAll,
        ← afterAll_receivers w n]
      exact afterAll_receiversForest _ rest

end

theorem mem_names_take (w : Waiting) (receiver : Option String) (name : String) :
    name ∈ (w.take receiver).2.named.names ↔ name ∈ w.named.names ∧ receiver ≠ some name := by
  rcases receiver with - | other
  · simp [take]
  · simp only [take, Fields.names, Fields.erase, List.mem_map, List.mem_filter, bne_iff_ne, ne_eq,
      Option.some.injEq]
    constructor
    · rintro ⟨e, ⟨he, hne⟩, rfl⟩
      exact ⟨⟨e, he, rfl⟩, fun h => hne h.symm⟩
    · rintro ⟨⟨e, he, rfl⟩, hne⟩
      exact ⟨e, ⟨he, fun h => hne h.symm⟩, rfl⟩

theorem mem_names_afterAll (w : Waiting) (receivers : List (Option String)) (name : String) :
    name ∈ (w.afterAll receivers).named.names ↔ name ∈ w.named.names ∧ some name ∉ receivers := by
  induction receivers generalizing w with
  | nil => simp [afterAll]
  | cons receiver receivers ih =>
      rw [afterAll, List.foldl_cons, ← afterAll, ih, mem_names_take, List.mem_cons, not_or,
        and_assoc, ne_eq, eq_comm (a := receiver)]

theorem unnamed_afterAll (w : Waiting) (receivers : List (Option String)) :
    (w.afterAll receivers).unnamed = if none ∈ receivers then none else w.unnamed := by
  induction receivers generalizing w with
  | nil => rfl
  | cons receiver receivers ih =>
      rw [afterAll, List.foldl_cons, ← afterAll, ih]
      rcases receiver with - | name <;> simp [take]

section Perm

variable {α : Type} {f : Node → List α}

/--
Where `f` lists nothing for an element, what it lists after other children have been put into it is
what it lists for those.
-/
def ListsInside (f : Node → List α) : Prop :=
  ∀ tag children, f (.element tag children) = [] →
    ∀ inside, f (.element tag inside) = inside.flatMap f

mutual

/-- What comes into a node is what is not waiting any more. -/
theorem perm_fillNode (hf : ListsInside f) (w : Waiting) :
    (n : Node) → f n = [] →
      (f (w.fillNode n).1 ++ (w.fillNode n).2.contents.flatMap f).Perm (w.contents.flatMap f)
  | .text _, h => by simp [fillNode, h]
  | .styleText _, h => by simp [fillNode, h]
  | .style _ _, h => by simp [fillNode, h]
  | .element tag children, h => by
      unfold fillNode
      split
      · have htake := (w.perm_contents_take tag.receiverName?).flatMap_right f
        rw [List.flatMap_append] at htake
        split
        · rename_i c cs w' ht
          have htaken : w.taken tag.receiverName? = c :: cs := by rw [taken, ht]; rfl
          rw [htaken, ht] at htake
          rw [hf tag children h]
          exact htake
        · -- what takes nothing keeps its own children, for which nothing is listed
          rename_i answer w' hnone ht
          have htaken : w.taken tag.receiverName? = [] := by
            rw [taken, ht]
            rcases answer with - | - | ⟨c, cs⟩
            · rfl
            · rfl
            · exact absurd rfl (hnone c cs)
          rw [htaken, ht] at htake
          simpa [h] using htake
      · split
        · simp [h]
        · have hchildren : children.flatMap f = [] := by rw [← hf tag children h, h]
          dsimp only
          rw [hf tag children h]
          exact perm_fillForest hf w children hchildren

theorem perm_fillForest (hf : ListsInside f) (w : Waiting) :
    (nodes : List Node) → nodes.flatMap f = [] →
      ((w.fillForest nodes).1.flatMap f ++ (w.fillForest nodes).2.contents.flatMap f).Perm
        (w.contents.flatMap f)
  | [], _ => .refl _
  | n :: rest, h => by
      rw [List.flatMap_cons, List.append_eq_nil_iff] at h
      have hn := perm_fillNode hf w n h.1
      have hrest := perm_fillForest hf (w.fillNode n).2 rest h.2
      unfold fillForest
      dsimp only
      rw [List.flatMap_cons, List.append_assoc]
      exact (hrest.append_left _).trans hn

end

end Perm

end Waiting

namespace Distribution

/-- All content is taken, if it waits for placeholders that there are. -/
theorem contents_afterAll (markup content : List Node) :
    let r := Receivers.find markup
    let w : Waiting := ⟨namedContent r content,
      some (if r.unnamed then contentForUnnamed r content else [])⟩
    (w.afterAll (Node.receiversForest markup)).contents = [] := by
  intro r w
  have hnames : (w.afterAll (Node.receiversForest markup)).named.names = [] := by
    refine List.eq_nil_iff_forall_not_mem.mpr fun name h => ?_
    rw [Waiting.mem_names_afterAll, mem_names_namedContent, Receivers.hasNamed_find] at h
    exact h.2 h.1.1
  have hnamed : (w.afterAll (Node.receiversForest markup)).named.values = [] := by
    rw [Fields.names, List.map_eq_nil_iff] at hnames
    rw [Fields.values, hnames, List.map_nil]
  rw [Waiting.contents, hnamed, Waiting.unnamed_afterAll]
  split
  · rfl
  · rename_i h
    rw [← Receivers.unnamed_find] at h
    simp [w, r, h]

/-- **Distribution loses nothing but what it drops, and copies nothing.** -/
theorem perm_flatMap {α : Type} {f : Node → List α} (hf : Waiting.ListsInside f)
    (markup content : List Node) (h : markup.flatMap f = []) :
    ((resolve markup content).nodes.flatMap f ++ (resolve markup content).dropped.flatMap f).Perm
      (content.flatMap f) := by
  have hcontent := (perm_content (Receivers.find markup) content).flatMap_right f
  have hleft := contents_afterAll markup content
  unfold resolve
  dsimp only at hleft ⊢
  have hfill := Waiting.perm_fillForest hf
    ⟨namedContent (Receivers.find markup) content, some (if (Receivers.find markup).unnamed then
      contentForUnnamed (Receivers.find markup) content else [])⟩ markup h
  rw [Waiting.afterAll_receiversForest, hleft, List.flatMap_nil, List.append_nil] at hfill
  refine (hfill.append_right _).trans (.trans (.of_eq ?_) hcontent)
  rw [Waiting.contents, ← List.flatMap_append]
  by_cases hu : (Receivers.find markup).unnamed = true <;> simp [hu]

/-- The stylesheets in distributed markup are those of the content, except for the dropped ones. -/
theorem perm_styles (markup content : List Node) (h : Node.stylesForest markup = []) :
    (Node.stylesForest (resolve markup content).nodes ++
      Node.stylesForest (resolve markup content).dropped).Perm (Node.stylesForest content) := by
  simp only [Node.stylesForest_eq_flatMap] at h ⊢
  refine perm_flatMap (fun tag children _ inside => ?_) markup content h
  rw [Node.styles, Node.stylesForest_eq_flatMap]

end Distribution

end CustomElements
