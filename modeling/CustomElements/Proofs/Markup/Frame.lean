import CustomElements.Proofs.Markup.Distribution
import Mathlib.Data.List.FinRange
import Mathlib.Data.List.Flatten
import Mathlib.Data.List.Perm.Subperm

/-!
# Trees with holes

What a component makes of its caller's content does not depend on the content but for one thing:
which placeholder each piece asks for. To say so, a `Frame` is a tree with holes where pieces of
content go, and `Frame.fill` puts them there.

Distribution is the first case. From the placeholders that the pieces ask for it is known where each
of them goes, so the distributed markup is a frame, `Node.outlineForest`, filled with the content
(`Distribution.nodes_resolve`), and no piece goes to two places (`nodup_holesForest_outlineForest`).
-/

namespace CustomElements

/-- A tree with holes, which go by names in `ι`. -/
inductive Frame (ι : Type) where
  | hole (i : ι)
  /-- A subtree without holes. -/
  | given (n : Node)
  | element (tag : Tag) (children : List (Frame ι))

namespace Frame

variable {ι κ : Type}

mutual

/-- The tree with every hole filled. -/
def fill (content : ι → Node) : Frame ι → Node
  | .hole i => content i
  | .given n => n
  | .element tag children => .element tag (fillForest content children)

def fillForest (content : ι → Node) : List (Frame ι) → List Node
  | [] => []
  | f :: rest => f.fill content :: fillForest content rest

end

mutual

/-- The holes of a tree, in document order. -/
def holes : Frame ι → List ι
  | .hole i => [i]
  | .given _ => []
  | .element _ children => holesForest children

def holesForest : List (Frame ι) → List ι
  | [] => []
  | f :: rest => f.holes ++ holesForest rest

end

mutual

/-- The tree with other trees with holes put into its holes. -/
def subst (g : ι → Frame κ) : Frame ι → Frame κ
  | .hole i => g i
  | .given n => .given n
  | .element tag children => .element tag (substForest g children)

def substForest (g : ι → Frame κ) : List (Frame ι) → List (Frame κ)
  | [] => []
  | f :: rest => f.subst g :: substForest g rest

end

/-- The placeholder that the tree asks for, if those that the pieces ask for are known. -/
def slotTarget? (targets : ι → Option String) : Frame ι → Option String
  | .hole i => targets i
  | .given n => n.slotTarget?
  | .element tag _ => tag.filledAttribute? "slot"

theorem slotTarget?_fill {content : ι → Node} {targets : ι → Option String}
    (h : ∀ i, (content i).slotTarget? = targets i) (f : Frame ι) :
    (f.fill content).slotTarget? = f.slotTarget? targets := by
  cases f with
  | hole i => exact h i
  | given n => rfl
  | element tag children => rfl

theorem fillForest_eq_map (content : ι → Node) (fs : List (Frame ι)) :
    fillForest content fs = fs.map (fill content) := by
  induction fs with
  | nil => rfl
  | cons f rest ih => rw [fillForest, List.map_cons, ih]

theorem holesForest_eq_flatMap (fs : List (Frame ι)) : holesForest fs = fs.flatMap holes := by
  induction fs with
  | nil => rfl
  | cons f rest ih => rw [holesForest, List.flatMap_cons, ih]

mutual

theorem fill_subst (g : ι → Frame κ) (content : κ → Node) :
    (f : Frame ι) → (f.subst g).fill content = f.fill fun i => (g i).fill content
  | .hole _ => rfl
  | .given _ => rfl
  | .element tag children => by
      rw [subst, fill, fill, fillForest_substForest g content children]

theorem fillForest_substForest (g : ι → Frame κ) (content : κ → Node) :
    (fs : List (Frame ι)) →
      fillForest content (substForest g fs) = fillForest (fun i => (g i).fill content) fs
  | [] => rfl
  | f :: rest => by
      rw [substForest, fillForest, fillForest, fill_subst g content f,
        fillForest_substForest g content rest]

end

mutual

theorem holes_subst (g : ι → Frame κ) :
    (f : Frame ι) → (f.subst g).holes = f.holes.flatMap fun i => (g i).holes
  | .hole i => by rw [subst, holes, List.flatMap_singleton]
  | .given _ => rfl
  | .element tag children => holesForest_substForest g children

theorem holesForest_substForest (g : ι → Frame κ) :
    (fs : List (Frame ι)) →
      holesForest (substForest g fs) = (holesForest fs).flatMap fun i => (g i).holes
  | [] => rfl
  | f :: rest => by
      rw [substForest, holesForest, holesForest, List.flatMap_append, holes_subst g f,
        holesForest_substForest g rest]

end

/-- Trees of which each is put into one hole at most keep their holes apart. -/
theorem subperm_holes_subst (fs : List (Frame ι)) {f : Frame (Fin fs.length)}
    (h : f.holes.Nodup) : (f.subst fun j => fs[j]).holes.Subperm (holesForest fs) := by
  obtain ⟨l, hperm, hsub⟩ := List.Nodup.subperm h fun j _ => List.mem_finRange j
  have hall : (List.finRange fs.length).flatMap (fun j => (fs[j]).holes) = holesForest fs := by
    rw [holesForest_eq_flatMap, ← List.flatMap_map (fun j : Fin fs.length => fs[j]) holes]
    exact congrArg (List.flatMap holes) (List.map_getElem_finRange fs)
  rw [holes_subst, ← hall]
  exact ⟨l.flatMap _, hperm.flatMap_right _, hsub.flatMap _⟩

theorem holesForest_map_hole (l : List ι) : holesForest (l.map hole) = l := by
  induction l with
  | nil => rfl
  | cons i l ih => rw [List.map_cons, holesForest, ih, holes, List.singleton_append]

theorem fillForest_map_hole (content : ι → Node) (l : List ι) :
    fillForest content (l.map hole) = l.map content := by
  rw [fillForest_eq_map, List.map_map]
  rfl

end Frame

/-! ## Markup as a frame -/

section Outline

variable {ι : Type}

mutual

/--
The node as a frame. `assign` tells which pieces each placeholder takes; those in `seen` have come
before and have taken theirs.
-/
def Node.outline (assign : Option String → List ι) (seen : List (Option String)) : Node → Frame ι
  | .element tag children =>
    if tag.isReceiver then
      if tag.receiverName? ∈ seen ∨ (assign tag.receiverName?).isEmpty then
        .given (.element tag children)
      else .element tag ((assign tag.receiverName?).map .hole)
    else if tag.expanded then .given (.element tag children)
    else .element tag (Node.outlineForest assign seen children)
  | n => .given n

def Node.outlineForest (assign : Option String → List ι) (seen : List (Option String)) :
    List Node → List (Frame ι)
  | [] => []
  | n :: rest => n.outline assign seen :: Node.outlineForest assign (seen ++ n.receivers) rest

end

mutual

/-- A piece in the frame is one that a placeholder of the node takes, which had not taken it. -/
theorem Node.mem_holes_outline {assign : Option String → List ι} {seen : List (Option String)}
    {i : ι} : (n : Node) → i ∈ (n.outline assign seen).holes →
      ∃ name ∈ n.receivers, name ∉ seen ∧ i ∈ assign name
  | .text _, h => by simp [outline, Frame.holes] at h
  | .style _ _, h => by simp [outline, Frame.holes] at h
  | .styleText _, h => by simp [outline, Frame.holes] at h
  | .element tag children, h => by
      unfold outline at h
      unfold receivers
      split at h
      · rename_i hreceiver
        rw [if_pos hreceiver]
        split at h
        · simp [Frame.holes] at h
        · rename_i htakes
          rw [Frame.holes, Frame.holesForest_map_hole] at h
          exact ⟨_, List.mem_singleton_self _, fun hs => htakes (.inl hs), h⟩
      · rename_i hreceiver
        rw [if_neg hreceiver]
        split at h
        · simp [Frame.holes] at h
        · rename_i hexpanded
          rw [if_neg hexpanded]
          exact mem_holesForest_outlineForest children h

theorem Node.mem_holesForest_outlineForest {assign : Option String → List ι}
    {seen : List (Option String)} {i : ι} : (nodes : List Node) →
      i ∈ Frame.holesForest (outlineForest assign seen nodes) →
      ∃ name ∈ receiversForest nodes, name ∉ seen ∧ i ∈ assign name
  | [], h => by simp [outlineForest, Frame.holesForest] at h
  | n :: rest, h => by
      rw [outlineForest, Frame.holesForest, List.mem_append] at h
      rw [receiversForest]
      rcases h with h | h
      · obtain ⟨name, hname, hnew, hi⟩ := mem_holes_outline n h
        exact ⟨name, List.mem_append_left _ hname, hnew, hi⟩
      · obtain ⟨name, hname, hnew, hi⟩ := mem_holesForest_outlineForest rest h
        rw [List.mem_append, not_or] at hnew
        exact ⟨name, List.mem_append_right _ hname, hnew.1, hi⟩

end

mutual

/-- No piece is in two places, if no two placeholders take the same one. -/
theorem Node.nodup_holes_outline {assign : Option String → List ι}
    (hnodup : ∀ name, (assign name).Nodup)
    (hdisjoint : ∀ name name', name ≠ name' → (assign name).Disjoint (assign name'))
    (seen : List (Option String)) : (n : Node) → (n.outline assign seen).holes.Nodup
  | .text _ => List.nodup_nil
  | .style _ _ => List.nodup_nil
  | .styleText _ => List.nodup_nil
  | .element tag children => by
      unfold outline
      split
      · split
        · exact List.nodup_nil
        · rw [Frame.holes, Frame.holesForest_map_hole]
          exact hnodup _
      · split
        · exact List.nodup_nil
        · exact nodup_holesForest_outlineForest hnodup hdisjoint seen children

theorem Node.nodup_holesForest_outlineForest {assign : Option String → List ι}
    (hnodup : ∀ name, (assign name).Nodup)
    (hdisjoint : ∀ name name', name ≠ name' → (assign name).Disjoint (assign name'))
    (seen : List (Option String)) :
    (nodes : List Node) → (Frame.holesForest (outlineForest assign seen nodes)).Nodup
  | [] => List.nodup_nil
  | n :: rest => by
      rw [outlineForest, Frame.holesForest, List.nodup_append']
      refine ⟨nodup_holes_outline hnodup hdisjoint seen n,
        nodup_holesForest_outlineForest hnodup hdisjoint _ rest, fun i hi hi' => ?_⟩
      obtain ⟨name, hname, -, hassign⟩ := mem_holes_outline n hi
      obtain ⟨name', -, hnew, hassign'⟩ := mem_holesForest_outlineForest rest hi'
      -- the placeholders of the rest that still take something are others than those of the node
      refine hdisjoint name name' ?_ hassign hassign'
      rintro rfl
      exact hnew (List.mem_append_right _ hname)

end

end Outline

/-! ## What placeholders take -/

namespace Waiting

theorem taken_take (w : Waiting) (name name' : Option String) :
    (w.take name).2.taken name' = if name' = name then [] else w.taken name' := by
  rcases name with - | name <;> rcases name' with - | name'
  · rfl
  · rfl
  · rfl
  · simp only [taken, take, Fields.get?_erase, Option.some.injEq, eq_comm (a := name')]
    split <;> rfl

/-- A placeholder gets what it takes, and keeps its own children if that is nothing. -/
theorem fillNode_receiver (w : Waiting) {tag : Tag} (h : tag.isReceiver = true)
    (children : List Node) :
    (w.fillNode (.element tag children)).1 =
      .element tag (if (w.taken tag.receiverName?).isEmpty then children
        else w.taken tag.receiverName?) := by
  unfold fillNode
  rw [if_pos h]
  unfold taken
  rcases w.take tag.receiverName? with ⟨- | - | ⟨c, cs⟩, w'⟩ <;> rfl

section Filled

variable {ι : Type}

/-- What waits for each placeholder: what is assigned to it, if it has not come before. -/
def Holds (w : Waiting) (content : ι → Node) (assign : Option String → List ι)
    (seen : List (Option String)) : Prop :=
  ∀ name, w.taken name = if name ∈ seen then [] else (assign name).map content

/-- When placeholders have taken theirs, what waits is what is assigned to the others. -/
theorem Holds.afterAll {w : Waiting} {content : ι → Node} {assign : Option String → List ι}
    {seen : List (Option String)} (h : w.Holds content assign seen)
    (receivers : List (Option String)) :
    (w.afterAll receivers).Holds content assign (seen ++ receivers) := by
  induction receivers generalizing w seen with
  | nil => simpa [Waiting.afterAll] using h
  | cons name receivers ih =>
      have hnext : (w.take name).2.Holds content assign (seen ++ [name]) := by
        intro name'
        rw [taken_take, h name']
        by_cases hn : name' = name
        · simp [hn]
        · simp [hn]
      rw [Waiting.afterAll, List.foldl_cons, ← Waiting.afterAll]
      simpa using ih hnext

mutual

theorem fillNode_eq_fill {w : Waiting} {content : ι → Node} {assign : Option String → List ι}
    {seen : List (Option String)} (h : w.Holds content assign seen) :
    (n : Node) → (w.fillNode n).1 = (n.outline assign seen).fill content
  | .text _ => rfl
  | .style _ _ => rfl
  | .styleText _ => rfl
  | .element tag children => by
      unfold Node.outline
      split
      · rename_i hreceiver
        rw [fillNode_receiver w hreceiver, h]
        by_cases hseen : tag.receiverName? ∈ seen
        · simp [hseen, Frame.fill]
        · rcases hassign : assign tag.receiverName? with - | ⟨i, l⟩
          · simp [hseen, Frame.fill]
          · simp [hseen, Frame.fill, Frame.fillForest, Frame.fillForest_map_hole]
      · rename_i hreceiver
        rw [fillNode, if_neg hreceiver]
        split
        · rfl
        · dsimp only
          rw [Frame.fill, fillForest_eq_fill h children]

theorem fillForest_eq_fill {w : Waiting} {content : ι → Node} {assign : Option String → List ι}
    {seen : List (Option String)} (h : w.Holds content assign seen) :
    (nodes : List Node) →
      (w.fillForest nodes).1 = Frame.fillForest content (Node.outlineForest assign seen nodes)
  | [] => rfl
  | n :: rest => by
      have hnext : (w.fillNode n).2.Holds content assign (seen ++ n.receivers) := by
        rw [afterAll_receivers]
        exact h.afterAll n.receivers
      rw [Node.outlineForest, Frame.fillForest, ← fillNode_eq_fill h n,
        ← fillForest_eq_fill hnext rest]
      rfl

end

end Filled

end Waiting

/-! ## Distribution -/

section Distribution

variable {ι : Type}

/-- The pieces that each placeholder takes, if the pieces are `labels` and ask for `targets`. -/
def Receivers.assigned (r : Receivers) (targets : ι → Option String) (labels : List ι) :
    Option String → List ι
  | some name =>
    if r.hasNamed name then labels.filter fun i => targets i == some name else []
  | .none =>
    if r.unnamed then
      labels.filter (fun i => targets i == .none) ++ labels.filter fun i => match targets i with
        | some name => !r.hasNamed name
        | .none => false
    else []

namespace Receivers

variable {r : Receivers} {targets : ι → Option String} {labels : List ι}

/-- A piece goes to the placeholder that it asks for, or to the unnamed one if there is none. -/
theorem mem_assigned {i : ι} {name : Option String} (h : i ∈ r.assigned targets labels name) :
    name = (targets i).filter r.hasNamed := by
  rcases name with - | name
  · rw [assigned] at h
    split at h
    · rw [List.mem_append, List.mem_filter, List.mem_filter] at h
      rcases ht : targets i with - | target
      · rfl
      · rcases h with ⟨-, h⟩ | ⟨-, h⟩
        · simp [ht] at h
        · simpa [ht, Option.filter] using h
    · simp at h
  · rw [assigned] at h
    split at h
    · rename_i hnamed
      rw [List.mem_filter, beq_iff_eq] at h
      simp [h.2, Option.filter, hnamed]
    · simp at h

theorem mem_of_mem_assigned {i : ι} {name : Option String}
    (h : i ∈ r.assigned targets labels name) : i ∈ labels := by
  rcases name with - | name
  · rw [assigned] at h
    split at h
    · rw [List.mem_append] at h
      exact h.elim List.mem_of_mem_filter List.mem_of_mem_filter
    · simp at h
  · rw [assigned] at h
    split at h
    · exact List.mem_of_mem_filter h
    · simp at h

theorem disjoint_assigned {name name' : Option String} (h : name ≠ name') :
    (r.assigned targets labels name).Disjoint (r.assigned targets labels name') :=
  fun _ hi hi' => h ((mem_assigned hi).trans (mem_assigned hi').symm)

theorem nodup_assigned (hlabels : labels.Nodup) (name : Option String) :
    (r.assigned targets labels name).Nodup := by
  rcases name with - | name
  · rw [assigned]
    split
    · refine List.Nodup.append (hlabels.filter _) (hlabels.filter _) fun i hi hi' => ?_
      rw [List.mem_filter, beq_iff_eq] at hi
      rw [List.mem_filter, hi.2] at hi'
      simp at hi'
    · exact List.nodup_nil
  · rw [assigned]
    split
    · exact hlabels.filter _
    · exact List.nodup_nil

end Receivers

/-- **Distributed markup is a frame with the content in its holes.** -/
theorem Distribution.nodes_resolve (markup : List Node) {targets : ι → Option String}
    {content : ι → Node} (h : ∀ i, (content i).slotTarget? = targets i) (labels : List ι) :
    (resolve markup (labels.map content)).nodes = Frame.fillForest content
      (Node.outlineForest ((Receivers.find markup).assigned targets labels) [] markup) := by
  obtain rfl : targets = fun i => (content i).slotTarget? := funext fun i => (h i).symm
  refine Waiting.fillForest_eq_fill (fun name => ?_) markup
  rcases name with - | name
  · simp only [Waiting.taken, Waiting.take, Option.getD_some, List.not_mem_nil, if_false,
      Receivers.assigned, contentForUnnamed, List.filter_map]
    split
    · rw [List.map_append]
      rfl
    · rfl
  · simp only [Waiting.taken, Waiting.take, List.not_mem_nil, if_false, Receivers.assigned,
      namedContent]
    rw [Fields.get?_ofList_map (contentFor · (labels.map content))]
    simp only [contentFor, List.filter_map, Function.comp_def]
    by_cases hnamed : (Receivers.find markup).hasNamed name = true
    · rw [if_pos hnamed]
      split
      · rfl
      · rename_i hnone
        -- nobody asks for the name
        symm
        simp only [Option.getD_none, List.map_eq_nil_iff, List.filter_eq_nil_iff, beq_iff_eq]
        intro i hi ht
        refine hnone (List.mem_filter.mpr ⟨List.mem_filterMap.mpr ⟨content i, ?_, ht⟩, hnamed⟩)
        exact List.mem_map_of_mem hi
    · rw [if_neg hnamed, if_neg fun hm => hnamed (List.mem_filter.mp hm).2]
      rfl

end Distribution

end CustomElements
