import CustomElements.Component.Definition
import CustomElements.Markup.Reader.Parser
import CustomElements.Proofs.Markup.Distribution
import CustomElements.Proofs.Markup.Scoping

/-!
# The elements of a tree

Expansion looks at an element only if neither it nor an element around it is marked as expanded. So
the elements of a tree are of two kinds: the *open* ones, which are still looked at, and the
*closed* ones, which are expanded or inside an expanded element.

A tree is *finished* with respect to the known tag names if no open element has one of them. Nothing
in a finished tree is left to expand. It is *settled* if moreover the mark is where it should be,
also in the closed part: an element is marked exactly if its name is known.
-/

namespace CustomElements

mutual

/-- The tags of the elements in a node, in document order. -/
def Node.tags : Node → List Tag
  | .element tag children => tag :: Node.tagsForest children
  | _ => []

def Node.tagsForest : List Node → List Tag
  | [] => []
  | n :: rest => n.tags ++ Node.tagsForest rest

end

mutual

/-- The tags of the elements that are neither expanded nor inside an expanded element. -/
def Node.openTags : Node → List Tag
  | .element tag children => if tag.expanded then [] else tag :: Node.openTagsForest children
  | _ => []

def Node.openTagsForest : List Node → List Tag
  | [] => []
  | n :: rest => n.openTags ++ Node.openTagsForest rest

end

mutual

/-- The tags of the elements that are expanded or inside an expanded element. -/
def Node.closedTags : Node → List Tag
  | .element tag children =>
    if tag.expanded then tag :: Node.tagsForest children else Node.closedTagsForest children
  | _ => []

def Node.closedTagsForest : List Node → List Tag
  | [] => []
  | n :: rest => n.closedTags ++ Node.closedTagsForest rest

end

namespace Node

theorem tagsForest_eq_flatMap (nodes : List Node) : tagsForest nodes = nodes.flatMap tags := by
  induction nodes with
  | nil => rfl
  | cons n rest ih => rw [tagsForest, List.flatMap_cons, ih]

theorem openTagsForest_eq_flatMap (nodes : List Node) :
    openTagsForest nodes = nodes.flatMap openTags := by
  induction nodes with
  | nil => rfl
  | cons n rest ih => rw [openTagsForest, List.flatMap_cons, ih]

theorem closedTagsForest_eq_flatMap (nodes : List Node) :
    closedTagsForest nodes = nodes.flatMap closedTags := by
  induction nodes with
  | nil => rfl
  | cons n rest ih => rw [closedTagsForest, List.flatMap_cons, ih]

@[simp] theorem tagsForest_append (ns ms : List Node) :
    tagsForest (ns ++ ms) = tagsForest ns ++ tagsForest ms := by
  simp only [tagsForest_eq_flatMap, List.flatMap_append]

mutual

theorem closedTags_subset : (n : Node) → n.closedTags ⊆ n.tags
  | .text _ => List.Subset.refl _
  | .style _ _ => List.Subset.refl _
  | .styleText _ => List.Subset.refl _
  | .element tag children => by
      unfold closedTags tags
      split
      · exact List.Subset.refl _
      · exact List.subset_cons_of_subset tag (closedTagsForest_subset children)

theorem closedTagsForest_subset : (nodes : List Node) → closedTagsForest nodes ⊆ tagsForest nodes
  | [] => List.Subset.refl _
  | n :: rest => by
      rw [closedTagsForest, tagsForest]
      exact List.append_subset.mpr
        ⟨List.subset_append_of_subset_left _ (closedTags_subset n),
          List.subset_append_of_subset_right _ (closedTagsForest_subset rest)⟩

end

mutual

/-- Where nothing is expanded, nothing is closed. -/
theorem closedTags_eq_nil : (n : Node) → (∀ t ∈ n.tags, t.expanded = false) → n.closedTags = []
  | .text _, _ => rfl
  | .style _ _, _ => rfl
  | .styleText _, _ => rfl
  | .element tag children, h => by
      rw [tags, List.forall_mem_cons] at h
      rw [closedTags, if_neg (by simp [h.1])]
      exact closedTagsForest_eq_nil children h.2

theorem closedTagsForest_eq_nil :
    (nodes : List Node) → (∀ t ∈ tagsForest nodes, t.expanded = false) →
      closedTagsForest nodes = []
  | [], _ => rfl
  | n :: rest, h => by
      rw [tagsForest, List.forall_mem_append] at h
      rw [closedTagsForest, closedTags_eq_nil n h.1, closedTagsForest_eq_nil rest h.2]
      rfl

end

mutual

theorem openTags_subset : (n : Node) → n.openTags ⊆ n.tags
  | .text _ => List.Subset.refl _
  | .style _ _ => List.Subset.refl _
  | .styleText _ => List.Subset.refl _
  | .element tag children => by
      unfold openTags tags
      split
      · exact List.nil_subset _
      · exact List.cons_subset_cons tag (openTagsForest_subset children)

theorem openTagsForest_subset : (nodes : List Node) → openTagsForest nodes ⊆ tagsForest nodes
  | [] => List.Subset.refl _
  | n :: rest => by
      rw [openTagsForest, tagsForest]
      exact List.append_subset.mpr
        ⟨List.subset_append_of_subset_left _ (openTags_subset n),
          List.subset_append_of_subset_right _ (openTagsForest_subset rest)⟩

end

/-! ## Finished and settled trees -/

/-- No element with a known name is left: each is expanded or inside an expanded element. -/
def Finished (known : TagMap) (n : Node) : Prop :=
  ∀ t ∈ n.openTags, known.contains t.name = false

theorem finished_of_expanded {known : TagMap} {tag : Tag} {children : List Node}
    (h : tag.expanded = true) : Finished known (.element tag children) := by
  rw [Finished, openTags, if_pos h]
  simp

theorem finished_element {known : TagMap} {tag : Tag} {children : List Node}
    (h : tag.expanded = false) :
    Finished known (.element tag children) ↔
      known.contains tag.name = false ∧ ∀ n ∈ children, n.Finished known := by
  rw [Finished, openTags, if_neg (by simp [h]), List.forall_mem_cons, openTagsForest_eq_flatMap,
    List.forall_mem_flatMap]
  exact Iff.rfl

/-- The elements that are marked as expanded are those with a known name. -/
def Settled (known : TagMap) (nodes : List Node) : Prop :=
  ∀ t ∈ tagsForest nodes, t.expanded = true ↔ known.contains t.name = true

/-- The closed part of a forest is settled. -/
def ClosedSettled (known : TagMap) (nodes : List Node) : Prop :=
  ∀ t ∈ closedTagsForest nodes, t.expanded = true ↔ known.contains t.name = true

section Settled

variable {known : TagMap} {nodes : List Node}

theorem Settled.closed (h : Settled known nodes) : ClosedSettled known nodes :=
  fun t ht => h t (closedTagsForest_subset nodes ht)

theorem settled_append {ns ms : List Node} :
    Settled known (ns ++ ms) ↔ Settled known ns ∧ Settled known ms := by
  rw [Settled, tagsForest_append]
  exact List.forall_mem_append

theorem settled_element {tag : Tag} {children : List Node} :
    Settled known [.element tag children] ↔
      (tag.expanded = true ↔ known.contains tag.name = true) ∧ Settled known children := by
  rw [Settled, tagsForest, tagsForest, List.append_nil, tags]
  exact List.forall_mem_cons

theorem closedSettled_cons {n : Node} {rest : List Node} :
    ClosedSettled known (n :: rest) ↔ ClosedSettled known [n] ∧ ClosedSettled known rest := by
  rw [ClosedSettled, ClosedSettled, closedTagsForest, closedTagsForest, closedTagsForest,
    List.append_nil]
  exact List.forall_mem_append

theorem closedSettled_element {tag : Tag} {children : List Node} (h : tag.expanded = false) :
    ClosedSettled known [.element tag children] ↔ ClosedSettled known children := by
  rw [ClosedSettled, closedTagsForest, closedTagsForest, List.append_nil, closedTags,
    if_neg (by simp [h])]
  exact Iff.rfl

/-- A node that is no open element is closed as a whole. -/
theorem ClosedSettled.settled {n : Node} (h : ClosedSettled known [n])
    (hn : ∀ tag children, n = .element tag children → tag.expanded = true) :
    Settled known [n] := by
  rw [ClosedSettled, closedTagsForest, closedTagsForest, List.append_nil] at h
  rw [Settled, tagsForest, tagsForest, List.append_nil]
  rcases n with ⟨tag, children⟩ | _ | _ | _
  · rw [closedTags, if_pos (hn tag children rfl)] at h
    exact h
  all_goals exact h

end Settled

/-! ## Classes -/

section Classes

variable {β : Type} {f : Tag → β} {classes : List String}

mutual

/-- Classes leave all of a tag as it is that does not depend on its attributes. -/
theorem map_tags_addClasses (hf : ∀ t : Tag, f (t.withClasses classes) = f t)
    (isCustom : String → Bool) :
    (n : Node) → (n.addClasses classes isCustom).tags.map f = n.tags.map f
  | .text _ => rfl
  | .style _ _ => rfl
  | .styleText _ => rfl
  | .element tag children => by
      unfold addClasses
      split
      · rfl
      · split
        · rw [tags, tags, List.map_cons, List.map_cons, hf]
        · rw [tags, tags, List.map_cons, List.map_cons, hf,
            map_tagsForest_addClasses hf isCustom children]

theorem map_tagsForest_addClasses (hf : ∀ t : Tag, f (t.withClasses classes) = f t)
    (isCustom : String → Bool) :
    (nodes : List Node) →
      (tagsForest (addClassesForest classes isCustom nodes)).map f = (tagsForest nodes).map f
  | [] => rfl
  | n :: rest => by
      rw [addClassesForest, tagsForest, tagsForest, List.map_append, List.map_append,
        map_tags_addClasses hf isCustom n, map_tagsForest_addClasses hf isCustom rest]

end

end Classes

end Node

theorem map_tags_scopeMarkup {β : Type} {f : Tag → β} {classes : List String}
    (hf : ∀ t : Tag, f (t.withClasses classes) = f t) (nodes : List Node)
    (isCustom : String → Bool) :
    (Node.tagsForest (scopeMarkup nodes classes isCustom)).map f =
      (Node.tagsForest nodes).map f := by
  unfold scopeMarkup
  split
  · rfl
  · exact Node.map_tagsForest_addClasses hf isCustom nodes

/-! ## Distribution -/

/-- What markup without expanded elements closes after distribution is closed in the content. -/
theorem Distribution.closedTags_subset (markup content : List Node)
    (h : ∀ t ∈ Node.tagsForest markup, t.expanded = false) :
    Node.closedTagsForest (resolve markup content).nodes ⊆ Node.closedTagsForest content := by
  have hmarkup := Node.closedTagsForest_eq_nil markup h
  simp only [Node.closedTagsForest_eq_flatMap] at hmarkup ⊢
  have hinside : Waiting.ListsInside Node.closedTags := by
    intro tag children hnone inside
    rw [Node.closedTags] at hnone ⊢
    split at hnone
    · cases hnone
    · rename_i hexpanded
      rw [if_neg hexpanded, Node.closedTagsForest_eq_flatMap]
  have hperm := perm_flatMap hinside markup content hmarkup
  exact fun t ht => hperm.subset (List.mem_append_left _ ht)

/-! ## Own elements -/

namespace Node

variable {isCustom : String → Bool} {t : Tag}

theorem ownTagsForest_eq_flatMap (nodes : List Node) :
    ownTagsForest isCustom nodes = nodes.flatMap (ownTags isCustom) := by
  induction nodes with
  | nil => rfl
  | cons n rest ih => rw [ownTagsForest, List.flatMap_cons, ih]

mutual

/-- An own element is an open one. -/
theorem tags_of_mem_ownTags :
    (n : Node) → t ∈ n.ownTags isCustom → t ∈ n.tags ∧ t.expanded = false
  | .text _, h => absurd h List.not_mem_nil
  | .style _ _, h => absurd h List.not_mem_nil
  | .styleText _, h => absurd h List.not_mem_nil
  | .element tag children, h => by
      unfold ownTags at h
      split at h
      · cases h
      · rename_i hopen
        rcases List.mem_cons.mp h with rfl | h
        · exact ⟨List.mem_cons_self, by simpa using hopen⟩
        · split at h
          · cases h
          · obtain ⟨ht, hexpanded⟩ := tags_of_mem_ownTagsForest children h
            exact ⟨List.mem_cons_of_mem tag ht, hexpanded⟩

theorem tags_of_mem_ownTagsForest : (nodes : List Node) → t ∈ ownTagsForest isCustom nodes →
    t ∈ tagsForest nodes ∧ t.expanded = false
  | [], h => absurd h List.not_mem_nil
  | n :: rest, h => by
      rcases List.mem_append.mp h with h | h
      · obtain ⟨ht, hexpanded⟩ := tags_of_mem_ownTags n h
        exact ⟨List.mem_append_left _ ht, hexpanded⟩
      · obtain ⟨ht, hexpanded⟩ := tags_of_mem_ownTagsForest rest h
        exact ⟨List.mem_append_right _ ht, hexpanded⟩

end

/-- Nothing is left to expand among the own elements of a settled forest. -/
theorem Settled.contains_eq_false {known : TagMap} {nodes : List Node} (h : Settled known nodes)
    (ht : t ∈ ownTagsForest isCustom nodes) : known.contains t.name = false := by
  obtain ⟨hmem, hexpanded⟩ := tags_of_mem_ownTagsForest nodes ht
  rw [← Bool.not_eq_true, ← h t hmem, hexpanded]
  exact Bool.false_ne_true

end Node

namespace Waiting

variable {isCustom : String → Bool} {P : Tag → Prop}

theorem contents_afterAll_subset (w : Waiting) (receivers : List (Option String)) :
    (w.afterAll receivers).contents ⊆ w.contents := by
  induction receivers generalizing w with
  | nil => exact List.Subset.refl _
  | cons receiver receivers ih =>
      have hrest := (List.append_subset.mp (w.perm_contents_take receiver).subset).2
      exact List.Subset.trans (ih (w.take receiver).2) hrest

mutual

/-- What holds of the own elements of a node and of what is waiting holds when it is filled. -/
theorem forall_ownTags_fillNode (w : Waiting)
    (hw : ∀ c ∈ w.contents, ∀ t ∈ c.ownTags isCustom, P t) :
    (n : Node) → (∀ t ∈ n.ownTags isCustom, P t) → ∀ t ∈ (w.fillNode n).1.ownTags isCustom, P t
  | .text _, h => h
  | .style _ _, h => h
  | .styleText _, h => h
  | .element tag children, h => by
      unfold fillNode
      split
      · have htaken := (List.append_subset.mp (w.perm_contents_take tag.receiverName?).subset).1
        split
        · rename_i c cs _ ht
          rw [taken, ht] at htaken
          unfold Node.ownTags at h ⊢
          split_ifs at h ⊢
          · exact h
          · exact h
          · rw [List.forall_mem_cons] at h ⊢
            refine ⟨h.1, ?_⟩
            rw [Node.ownTagsForest_eq_flatMap, List.forall_mem_flatMap]
            exact fun n hn => hw n (htaken hn)
        · exact h
      · split
        · exact h
        · rename_i hopen
          unfold Node.ownTags at h ⊢
          rw [if_neg hopen, List.forall_mem_cons] at h ⊢
          split_ifs at h ⊢
          · exact h
          · exact ⟨h.1, forall_ownTagsForest_fillForest w hw children h.2⟩

theorem forall_ownTagsForest_fillForest (w : Waiting)
    (hw : ∀ c ∈ w.contents, ∀ t ∈ c.ownTags isCustom, P t) :
    (nodes : List Node) → (∀ t ∈ Node.ownTagsForest isCustom nodes, P t) →
      ∀ t ∈ Node.ownTagsForest isCustom (w.fillForest nodes).1, P t
  | [], _ => fun _ ht => absurd ht List.not_mem_nil
  | n :: rest, h => by
      obtain ⟨hn, hrest⟩ := List.forall_mem_append.mp h
      have hleft : (w.fillNode n).2.contents ⊆ w.contents := by
        rw [afterAll_receivers]
        exact w.contents_afterAll_subset n.receivers
      exact List.forall_mem_append.mpr ⟨forall_ownTags_fillNode w hw n hn,
        forall_ownTagsForest_fillForest _ (fun c hc => hw c (hleft hc)) rest hrest⟩

end

end Waiting

/-- What holds of the own elements of markup and of content holds of those of both together. -/
theorem Distribution.forall_ownTags_resolve {isCustom : String → Bool} {P : Tag → Prop}
    {markup content : List Node} (hmarkup : ∀ t ∈ Node.ownTagsForest isCustom markup, P t)
    (hcontent : ∀ t ∈ Node.ownTagsForest isCustom content, P t) :
    ∀ t ∈ Node.ownTagsForest isCustom (resolve markup content).nodes, P t := by
  have hwaiting : ∀ unnamed, unnamed ⊆ contentForUnnamed (Receivers.find markup) content →
      Waiting.contents ⟨namedContent (Receivers.find markup) content, some unnamed⟩ ⊆ content := by
    intro unnamed hunnamed
    have hall := List.append_subset.mp (perm_content (Receivers.find markup) content).subset
    exact List.append_subset.mpr ⟨hall.1, List.Subset.trans hunnamed hall.2⟩
  rw [Node.ownTagsForest_eq_flatMap, List.forall_mem_flatMap] at hcontent
  refine Waiting.forall_ownTagsForest_fillForest _ (fun c hc => hcontent c ?_) markup hmarkup
  refine hwaiting _ ?_ hc
  split_ifs
  · exact List.Subset.refl _
  · exact List.nil_subset _

/-! ## Markup that is read from text -/

theorem Markup.Grove.expanded_nodes (g : Grove) (fuel : Nat) (ids : List Nat) :
    ∀ t ∈ Node.tagsForest (g.nodes fuel ids), t.expanded = false := by
  induction fuel generalizing ids with
  | zero => simp [nodes, Node.tagsForest]
  | succ fuel ih =>
      cases ids with
      | nil => simp [nodes, Node.tagsForest]
      | cons id rest =>
          unfold nodes
          split
          · rw [Node.tagsForest, Node.tags, List.cons_append, List.forall_mem_cons,
              List.forall_mem_append]
            refine ⟨rfl, ?_, ih rest⟩
            split
            · simp [Node.tagsForest]
            · exact ih _
          · exact ih rest
          · exact ih rest

/-- No element that is read from text is marked as expanded. -/
theorem Markup.expanded_parse (markup : String) :
    ∀ t ∈ Node.tagsForest (parse markup), t.expanded = false :=
  Markup.Grove.expanded_nodes _ _ _

end CustomElements
