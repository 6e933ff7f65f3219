import CustomElements.Proofs.Markup.Frame
import CustomElements.Proofs.Markup.Places
import Mathlib.Data.List.Dedup
import Mathlib.Data.List.ReduceOption

/-!
# What placeholders receive

A placeholder is an element named `slot` that is neither inside another one nor inside an expanded
element (`Place.isReceiver`). Distribution changes the children of placeholders and nothing else,
and what each of them has in the end is known from its name, from the names of those before it and
from the content (`Distribution.resolve_receivers`).

What content takes the place of is *displaced*. A list of what is in a forest, such as its texts,
grows by what is received and shrinks by what is displaced (`Distribution.perm_displaced`).
-/

namespace CustomElements

/-! ## The placeholders of a forest -/

/-- The children of an element. -/
def Node.children : Node → List Node
  | .element _ children => children
  | _ => []

/-- An element with other children. -/
def Node.withChildren (n : Node) (children : List Node) : Node :=
  match n with
  | .element tag _ => .element tag children
  | n => n

namespace Place

/-- The place is that of a placeholder. -/
def isReceiver (x : Place) : Bool :=
  x.node.tag?.any Tag.isReceiver && x.around.all fun t => !t.isReceiver && !t.expanded

/-- The name of the placeholder, if it has one. -/
def slotName? (x : Place) : Option String := x.node.tag?.bind Tag.receiverName?

/-- The place with other children in its element. -/
def withChildren (x : Place) (children : List Node) : Place :=
  { x with node := x.node.withChildren children }

end Place

/-- The placeholders of a forest in document order. -/
def Node.receiverPlaces (nodes : List Node) : List Place :=
  (Node.places nodes).filter Place.isReceiver

mutual

/-- The node with nothing in its placeholders. -/
def Node.emptied : Node → Node
  | .element tag children =>
    if tag.isReceiver then .element tag []
    else if tag.expanded then .element tag children
    else .element tag (Node.emptiedForest children)
  | n => n

/-- The forest with nothing in its placeholders. -/
def Node.emptiedForest : List Node → List Node
  | [] => []
  | n :: rest => n.emptied :: Node.emptiedForest rest

end

/-- The elements with these tags are no placeholders, and not expanded. -/
def OpenTags (around : List Tag) : Prop := ∀ t ∈ around, t.isReceiver = false ∧ t.expanded = false

namespace Node

variable {position : List Nat} {around : List Tag} {tag : Tag} {children : List Node}

/-- Inside a placeholder or an expanded element there is no placeholder. -/
theorem filter_placesFrom_hidden (h : tag.isReceiver = true ∨ tag.expanded = true)
    (ht : tag ∈ around) (i : Nat) (nodes : List Node) :
    (Node.placesFrom position around i nodes).filter Place.isReceiver = [] := by
  rw [List.filter_eq_nil_iff]
  intro x hx hreceiver
  have htag := subset_around_placesFrom position around i nodes x hx ht
  rw [Place.isReceiver, Bool.and_eq_true, List.all_eq_true] at hreceiver
  have hopen := hreceiver.2 tag htag
  rcases h with h | h <;> simp [h] at hopen

theorem filter_placesIn_receiver (hopen : OpenTags around) (h : tag.isReceiver = true) :
    ((Node.element tag children).placesIn position around).filter Place.isReceiver =
      [⟨position, around, .element tag children⟩] := by
  have hreceiver : Place.isReceiver ⟨position, around, .element tag children⟩ = true := by
    rw [Place.isReceiver, Bool.and_eq_true, List.all_eq_true]
    exact ⟨by simp [tag?, h], fun t ht => by simp [hopen t ht]⟩
  rw [placesIn, List.filter_cons_of_pos hreceiver,
    filter_placesFrom_hidden (.inl h) (by simp) 0 children]

theorem filter_placesIn_element (h : tag.isReceiver = false) :
    ((Node.element tag children).placesIn position around).filter Place.isReceiver =
      (Node.placesFrom position (around ++ [tag]) 0 children).filter Place.isReceiver := by
  rw [placesIn, List.filter_cons_of_neg]
  simp [Place.isReceiver, tag?, h]

theorem openTags_append (hopen : OpenTags around) (h : tag.isReceiver = false)
    (hexpanded : tag.expanded = false) : OpenTags (around ++ [tag]) :=
  List.forall_mem_append.mpr ⟨hopen, by simp [h, hexpanded]⟩

mutual

theorem slotNames_placesIn {around : List Tag} (hopen : OpenTags around)
    (position : List Nat) : (n : Node) →
    ((n.placesIn position around).filter Place.isReceiver).map Place.slotName? = n.receivers
  | .text _ => rfl
  | .style _ _ => rfl
  | .styleText _ => rfl
  | .element tag children => by
      unfold receivers
      rcases h : tag.isReceiver with - | -
      · rw [filter_placesIn_element h]
        rcases hexpanded : tag.expanded with - | -
        · exact slotNames_placesFrom (openTags_append hopen h hexpanded) position 0 children
        · rw [filter_placesFrom_hidden (.inr hexpanded) (by simp)]
          rfl
      · rw [filter_placesIn_receiver hopen h]
        rfl

/-- The places of placeholders and their names tell of the same elements. -/
theorem slotNames_placesFrom {around : List Tag} (hopen : OpenTags around)
    (position : List Nat) (i : Nat) : (nodes : List Node) →
    ((Node.placesFrom position around i nodes).filter Place.isReceiver).map Place.slotName? =
      receiversForest nodes
  | [] => rfl
  | n :: rest => by
      rw [placesFrom, List.filter_append, List.map_append, receiversForest,
        slotNames_placesIn hopen (position ++ [i]) n,
        slotNames_placesFrom hopen position (i + 1) rest]

end

end Node

/-! ## Filling them -/

/-- A placeholder of the name keeps what it has: one came before, or nothing is assigned to it. -/
def keepsOwn (assign : Option String → List Node) (seen : List (Option String))
    (name : Option String) : Bool := seen.contains name || (assign name).isEmpty

theorem keepsOwn_iff {assign : Option String → List Node} {seen : List (Option String)}
    {name : Option String} : keepsOwn assign seen name = true ↔ name ∈ seen ∨ assign name = [] := by
  rw [keepsOwn, Bool.or_eq_true, List.contains_iff_mem, List.isEmpty_iff]

/-- The placeholder with what is assigned to its name, if it is the first one of that name. -/
def Place.refilled (assign : Option String → List Node) (seen : List (Option String))
    (x : Place) : Place :=
  if keepsOwn assign seen x.slotName? then x else x.withChildren (assign x.slotName?)

/-- Placeholders with what is assigned to their names; those named in `seen` have come before. -/
def refillPlaces (assign : Option String → List Node) :
    (seen : List (Option String)) → List Place → List Place
  | _, [] => []
  | seen, x :: rest =>
    x.refilled assign seen :: refillPlaces assign (seen ++ [x.slotName?]) rest

theorem refillPlaces_append (assign : Option String → List Node) (seen : List (Option String))
    (xs ys : List Place) :
    refillPlaces assign seen (xs ++ ys) =
      refillPlaces assign seen xs ++ refillPlaces assign (seen ++ xs.map Place.slotName?) ys := by
  induction xs generalizing seen with
  | nil => simp [refillPlaces]
  | cons x xs ih =>
      rw [List.cons_append, refillPlaces, ih, refillPlaces, List.map_cons, List.append_assoc]
      rfl

theorem getElem?_refillPlaces (assign : Option String → List Node) (seen : List (Option String))
    (xs : List Place) (i : Nat) :
    (refillPlaces assign seen xs)[i]? =
      xs[i]?.map (Place.refilled assign (seen ++ (xs.take i).map Place.slotName?)) := by
  induction xs generalizing seen i with
  | nil => rfl
  | cons x xs ih =>
      cases i with
      | zero => simp [refillPlaces]
      | succ i =>
          rw [refillPlaces, List.getElem?_cons_succ, ih, List.getElem?_cons_succ,
            List.take_succ_cons, List.map_cons, List.append_assoc]
          rfl

section Outline

variable {assign : Option String → List Node}

/-- A placeholder as a frame, filled. -/
theorem Node.fill_outline_receiver {tag : Tag} (h : tag.isReceiver = true)
    (seen : List (Option String)) (children : List Node) :
    ((Node.element tag children).outline assign seen).fill id =
      if keepsOwn assign seen tag.receiverName? then .element tag children
      else .element tag (assign tag.receiverName?) := by
  rw [outline, if_pos h]
  simp only [keepsOwn_iff, List.isEmpty_iff]
  split
  · rfl
  · rw [Frame.fill, Frame.fillForest_map_hole, List.map_id]

mutual

theorem Node.emptied_fill_outline (seen : List (Option String)) : (n : Node) →
    ((n.outline assign seen).fill id).emptied = n.emptied
  | .text _ => rfl
  | .style _ _ => rfl
  | .styleText _ => rfl
  | .element tag children => by
      rcases h : tag.isReceiver with - | -
      · unfold outline
        rw [if_neg (by simp [h])]
        split
        · rfl
        · rename_i hexpanded
          rw [Frame.fill]
          simp only [emptied, h, hexpanded, emptiedForest_fill_outline seen children,
            Bool.false_eq_true, if_false]
      · rw [fill_outline_receiver h]
        split <;> simp only [emptied, h, if_true]

theorem Node.emptiedForest_fill_outline (seen : List (Option String)) : (nodes : List Node) →
    emptiedForest (Frame.fillForest id (outlineForest assign seen nodes)) = emptiedForest nodes
  | [] => rfl
  | n :: rest => by
      rw [outlineForest, Frame.fillForest, emptiedForest, emptiedForest,
        emptied_fill_outline seen n, emptiedForest_fill_outline _ rest]

end

mutual

theorem Node.receivers_fill_outline {around : List Tag} (hopen : OpenTags around)
    (position : List Nat) (seen : List (Option String)) : (n : Node) →
    (((n.outline assign seen).fill id).placesIn position around).filter Place.isReceiver =
      refillPlaces assign seen ((n.placesIn position around).filter Place.isReceiver)
  | .text _ => rfl
  | .style _ _ => rfl
  | .styleText _ => rfl
  | .element tag children => by
      rcases h : tag.isReceiver with - | -
      · unfold outline
        rw [if_neg (by simp [h]), filter_placesIn_element h]
        rcases hexpanded : tag.expanded with - | -
        · rw [if_neg (by simp), Frame.fill, filter_placesIn_element h]
          exact receiversForest_fill_outline (openTags_append hopen h hexpanded) position seen 0
            children
        · rw [if_pos rfl, Frame.fill, filter_placesIn_element h,
            filter_placesFrom_hidden (.inr hexpanded) (by simp)]
          rfl
      · rw [fill_outline_receiver h, filter_placesIn_receiver hopen h, refillPlaces, refillPlaces,
          Place.refilled]
        change _ = [if keepsOwn assign seen tag.receiverName? then _ else _]
        split
        · rw [filter_placesIn_receiver hopen h]
        · rw [filter_placesIn_receiver hopen h]
          rfl

theorem Node.receiversForest_fill_outline {around : List Tag} (hopen : OpenTags around)
    (position : List Nat) (seen : List (Option String)) (i : Nat) : (nodes : List Node) →
    (Node.placesFrom position around i
        (Frame.fillForest id (outlineForest assign seen nodes))).filter Place.isReceiver =
      refillPlaces assign seen ((Node.placesFrom position around i nodes).filter Place.isReceiver)
  | [] => rfl
  | n :: rest => by
      rw [outlineForest, Frame.fillForest, placesFrom, placesFrom, List.filter_append,
        List.filter_append, refillPlaces_append, slotNames_placesIn hopen,
        receivers_fill_outline hopen (position ++ [i]) seen n,
        receiversForest_fill_outline hopen position (seen ++ n.receivers) (i + 1) rest]

end

end Outline

/-! ## What is assigned to them -/

/--
The content for a placeholder of a name, if `names` are those of all placeholders: what asks for the
name. For one without a name it is what asks for none, and then what asks for a name that no
placeholder has.
-/
def contentAssigned (names : List (Option String)) (content : List Node) :
    Option String → List Node
  | some name => content.filter fun n => n.slotTarget? == some name
  | none =>
    content.filter (fun n => n.slotTarget? == none) ++
      content.filter fun n => n.slotTarget?.any fun name => !names.contains (some name)

/-- For the names that there are, this is what distribution assigns to them. -/
theorem assigned_eq_contentAssigned (markup content : List Node) {name : Option String}
    (hname : name ∈ Node.receiversForest markup) :
    (Receivers.find markup).assigned Node.slotTarget? content name =
      contentAssigned (Node.receiversForest markup) content name := by
  have hnamed : ∀ key, (Receivers.find markup).hasNamed key =
      (Node.receiversForest markup).contains (some key) := by
    intro key
    rw [Bool.eq_iff_iff, Receivers.hasNamed_find, List.contains_iff_mem]
  rcases name with - | key
  · rw [Receivers.assigned, if_pos ((Receivers.unnamed_find markup).mpr hname), contentAssigned]
    congr 1
    refine List.filter_congr fun n _ => ?_
    rcases n.slotTarget? with - | target
    · rfl
    · simp [hnamed]
  · rw [Receivers.assigned, if_pos ((Receivers.hasNamed_find markup key).mpr hname)]
    rfl

/-- **All content is assigned once:** to the names that there are, or to none of them. -/
theorem perm_contentAssigned (names : List (Option String)) (content : List Node) :
    (names.dedup.flatMap (contentAssigned names content) ++
      if none ∈ names then [] else contentAssigned names content none).Perm content := by
  have hsome : names.reduceOption.dedup.Nodup := List.nodup_dedup _
  have hmem : ∀ key, key ∈ names.reduceOption.dedup ↔ some key ∈ names := fun key => by
    rw [List.mem_dedup, List.reduceOption_mem_iff]
  have hnames : ∀ name, name ∈ names.reduceOption.dedup.map some ↔ name ∈ names ∧ name ≠ none := by
    intro name
    rw [List.mem_map]
    rcases name with - | key
    · simp
    · simp [hmem]
  -- what is not assigned to a name that there is, is assigned to none
  have hnone : (contentAssigned names content none).Perm
      (content.filter fun n => !n.slotTarget?.any names.reduceOption.dedup.contains) := by
    rw [contentAssigned]
    refine (perm_filter_or content fun n _ hn => ?_).trans (.of_eq ?_)
    · rw [beq_iff_eq] at hn
      rw [hn]
      rfl
    · refine List.filter_congr fun n _ => ?_
      rcases n.slotTarget? with - | target
      · rfl
      · rw [Bool.eq_iff_iff]
        simp [hmem]
  have hall : ((names.reduceOption.dedup.map some).flatMap (contentAssigned names content) ++
      contentAssigned names content none).Perm content := by
    rw [List.flatMap_map]
    exact ((perm_contentFor hsome content).append hnone).trans (List.filter_append_perm _ content)
  split
  · rename_i hunnamed
    have hperm : names.dedup.Perm (names.reduceOption.dedup.map some ++ [none]) := by
      refine (List.perm_ext_iff_of_nodup (List.nodup_dedup _) ?_).mpr fun name => ?_
      · refine List.nodup_append.mpr ⟨hsome.map (Option.some_injective _), by simp, ?_⟩
        intro a ha b hb
        rw [List.mem_singleton.mp hb]
        exact ((hnames a).mp ha).2
      · rw [List.mem_dedup, List.mem_append, hnames, List.mem_singleton]
        by_cases hn : name = none <;> simp [hn, hunnamed]
    rw [List.append_nil]
    refine (hperm.flatMap_right _).trans (.trans (.of_eq ?_) hall)
    rw [List.flatMap_append, List.flatMap_singleton]
  · rename_i hunnamed
    have hperm : names.dedup.Perm (names.reduceOption.dedup.map some) := by
      refine (List.perm_ext_iff_of_nodup (List.nodup_dedup _)
        (hsome.map (Option.some_injective _))).mpr fun name => ?_
      rw [List.mem_dedup, hnames]
      refine ⟨fun h => ⟨h, ?_⟩, And.left⟩
      rintro rfl
      exact hunnamed h
    exact ((hperm.flatMap_right _).append_right _).trans hall

namespace Distribution

/-- The distributed markup as a frame that is filled with the content itself. -/
theorem nodes_resolve_id (markup content : List Node) :
    (resolve markup content).nodes = Frame.fillForest id (Node.outlineForest
      ((Receivers.find markup).assigned Node.slotTarget? content) [] markup) := by
  have htarget : ∀ c, Node.slotTarget? (id c) = c.slotTarget? := fun _ => rfl
  have h := nodes_resolve markup htarget content
  rwa [List.map_id] at h

theorem slotNames_receiverPlaces (markup : List Node) :
    (Node.receiverPlaces markup).map Place.slotName? = Node.receiversForest markup :=
  Node.slotNames_placesFrom (by simp [OpenTags]) [] 0 markup

theorem receiverPlaces_resolve (markup content : List Node) :
    Node.receiverPlaces (resolve markup content).nodes =
      refillPlaces ((Receivers.find markup).assigned Node.slotTarget? content) []
        (Node.receiverPlaces markup) := by
  rw [nodes_resolve_id]
  exact Node.receiversForest_fill_outline (by simp [OpenTags]) [] [] 0 markup

theorem dropped_resolve (markup content : List Node) :
    (resolve markup content).dropped =
      if none ∈ Node.receiversForest markup then []
      else contentAssigned (Node.receiversForest markup) content none := by
  have hunnamed := Receivers.unnamed_find markup
  have hrest : contentForUnnamed (Receivers.find markup) content =
      contentAssigned (Node.receiversForest markup) content none := by
    rw [contentForUnnamed, contentAssigned]
    congr 1
    refine List.filter_congr fun n _ => ?_
    rcases n.slotTarget? with - | target
    · rfl
    · rw [Bool.eq_iff_iff]
      simp [← Receivers.hasNamed_find]
  simp only [resolve, hunnamed, hrest]

/--
**Distribution loses nothing, copies nothing and touches nothing else.** The distributed markup is
the markup but for what is in its placeholders. The first placeholder of each name has what is
assigned to the name, if that is not nothing; all others have what they had. What is assigned to no
name is dropped if every placeholder has one. So every piece of content goes to one name or is
dropped.
-/
theorem resolve_receivers (markup content : List Node) :
    let d := resolve markup content
    let receivers := Node.receiverPlaces markup
    let names := receivers.map Place.slotName?
    let assigned := contentAssigned names content
    Node.emptiedForest d.nodes = Node.emptiedForest markup ∧
      (∀ i, (Node.receiverPlaces d.nodes)[i]? = receivers[i]?.map fun x =>
        if x.slotName? ∈ names.take i ∨ assigned x.slotName? = [] then x
        else x.withChildren (assigned x.slotName?)) ∧
      d.dropped = (if none ∈ names then [] else assigned none) ∧
      (names.dedup.flatMap assigned ++ d.dropped).Perm content := by
  intro d receivers names assigned
  have hnames : names = Node.receiversForest markup := slotNames_receiverPlaces markup
  have hdropped : d.dropped = if none ∈ names then [] else assigned none := by
    rw [hnames]
    exact (dropped_resolve markup content).trans (by rw [← hnames])
  refine ⟨?_, fun i => ?_, hdropped, ?_⟩
  · rw [nodes_resolve_id]
    exact Node.emptiedForest_fill_outline [] markup
  · rw [receiverPlaces_resolve, getElem?_refillPlaces]
    refine Option.map_congr fun x hx => ?_
    have hx : x.slotName? ∈ names := List.mem_map_of_mem (List.mem_of_getElem? hx)
    have hassigned : (Receivers.find markup).assigned Node.slotTarget? content x.slotName? =
        assigned x.slotName? := by
      rw [assigned_eq_contentAssigned markup content (hnames ▸ hx), ← hnames]
    simp only [Place.refilled, keepsOwn_iff, hassigned, List.nil_append, List.map_take]
    rfl
  · rw [hdropped]
    exact perm_contentAssigned names content

end Distribution

/-! ## What content takes the place of -/

/-- What is in the elements at these places. -/
def insidePlaces (places : List Place) : List Node := places.flatMap fun x => x.node.children

/-- What the placeholders that are filled had; those named in `seen` have come before. -/
def displacedFrom (assign : Option String → List Node) :
    (seen : List (Option String)) → List Place → List Node
  | _, [] => []
  | seen, x :: rest =>
    (if keepsOwn assign seen x.slotName? then [] else x.node.children) ++
      displacedFrom assign (seen ++ [x.slotName?]) rest

/-- What is in placeholders of the markup that are filled with other content. -/
def Distribution.displaced (markup content : List Node) : List Node :=
  displacedFrom ((Receivers.find markup).assigned Node.slotTarget? content) []
    (Node.receiverPlaces markup)

theorem perm_append_exchange {α : Type} (as bs cs ds : List α) :
    ((as ++ bs) ++ (cs ++ ds)).Perm ((as ++ cs) ++ (bs ++ ds)) := by
  rw [List.append_assoc, List.append_assoc]
  exact (List.perm_append_comm_assoc bs cs ds).append_left as

/-- Of names of which some come before, the first one stands apart. -/
theorem perm_dedup_cons (seen : List (Option String)) (name : Option String)
    (rest : List (Option String)) :
    ((name :: rest).dedup.filter (· ∉ seen)).Perm
      ((if name ∈ seen then [] else [name]) ++ rest.dedup.filter (· ∉ seen ++ [name])) := by
  refine (List.perm_ext_iff_of_nodup ((List.nodup_dedup _).filter _) ?_).mpr fun a => ?_
  · refine List.nodup_append'.mpr ⟨?_, (List.nodup_dedup _).filter _, fun a ha ha' => ?_⟩
    · split <;> simp
    · split at ha <;> simp_all
  · simp only [List.mem_filter, List.mem_dedup, List.mem_cons, List.mem_append, decide_eq_true_eq]
    by_cases hname : a = name
    · subst hname
      split <;> simp_all
    · split <;> simp_all

/-- A placeholder gains what it receives and loses what that displaces. -/
theorem Place.perm_refilled (assign : Option String → List Node) (seen : List (Option String))
    {x : Place} (hx : x.isReceiver = true) :
    ((x.refilled assign seen).node.children ++
        if keepsOwn assign seen x.slotName? then [] else x.node.children).Perm
      (x.node.children ++ if x.slotName? ∈ seen then [] else assign x.slotName?) := by
  rw [refilled]
  split
  · rename_i h
    have hnothing : (if x.slotName? ∈ seen then [] else assign x.slotName?) = [] := by
      rcases keepsOwn_iff.mp h with hseen | hnone
      · rw [if_pos hseen]
      · rw [hnone, ite_self]
    rw [hnothing]
  · rename_i h
    have hnew : x.slotName? ∉ seen := fun hseen => h (keepsOwn_iff.mpr (.inl hseen))
    have hchildren : (x.withChildren (assign x.slotName?)).node.children =
        assign x.slotName? := by
      obtain ⟨position, around, tag | _⟩ := x
      · rfl
      all_goals simp [isReceiver, Node.tag?] at hx
    rw [if_neg hnew, hchildren]
    exact List.perm_append_comm

theorem perm_refillPlaces (assign : Option String → List Node) (seen : List (Option String))
    {xs : List Place} (hxs : ∀ x ∈ xs, x.isReceiver = true) :
    (insidePlaces (refillPlaces assign seen xs) ++ displacedFrom assign seen xs).Perm
      (insidePlaces xs ++
        ((xs.map Place.slotName?).dedup.filter (· ∉ seen)).flatMap assign) := by
  induction xs generalizing seen with
  | nil => exact .refl _
  | cons x rest ih =>
      rw [List.forall_mem_cons] at hxs
      have hfirst := Place.perm_refilled assign seen hxs.1
      have hrest := ih (seen ++ [x.slotName?]) hxs.2
      have hnames := (perm_dedup_cons seen x.slotName? (rest.map Place.slotName?)).flatMap_right
        assign
      -- the name of the first placeholder counts if it is new, and is not new for the others
      have hone : (if x.slotName? ∈ seen then [] else [x.slotName?]).flatMap assign =
          if x.slotName? ∈ seen then [] else assign x.slotName? := by
        split <;> simp
      rw [List.flatMap_append, hone] at hnames
      rw [refillPlaces, displacedFrom, List.map_cons, insidePlaces, insidePlaces,
        List.flatMap_cons, List.flatMap_cons, ← insidePlaces, ← insidePlaces]
      refine (perm_append_exchange _ _ _ _).trans ?_
      refine (hfirst.append hrest).trans ?_
      refine (perm_append_exchange _ _ _ _).trans ?_
      exact hnames.symm.append_left _

/-- In the placeholders there is what they had and the content, but for what is lost of both. -/
theorem Distribution.perm_inside_resolve (markup content : List Node) :
    (insidePlaces (refillPlaces ((Receivers.find markup).assigned Node.slotTarget? content) []
          (Node.receiverPlaces markup)) ++
        (displaced markup content ++ (resolve markup content).dropped)).Perm
      (insidePlaces (Node.receiverPlaces markup) ++ content) := by
  have hreceivers : ∀ x ∈ Node.receiverPlaces markup, x.isReceiver = true :=
    fun x hx => (List.mem_filter.mp hx).2
  have hrefill := perm_refillPlaces
    ((Receivers.find markup).assigned Node.slotTarget? content) [] hreceivers
  have hassigned : (((Node.receiverPlaces markup).map Place.slotName?).dedup.filter
      (· ∉ [])).flatMap ((Receivers.find markup).assigned Node.slotTarget? content) =
        (Node.receiversForest markup).dedup.flatMap
          (contentAssigned (Node.receiversForest markup) content) := by
    rw [slotNames_receiverPlaces]
    simp only [List.not_mem_nil, not_false_eq_true, decide_true, List.filter_true]
    exact List.flatMap_congr fun name hname =>
      assigned_eq_contentAssigned markup content (List.mem_dedup.mp hname)
  rw [hassigned] at hrefill
  have hcontent := perm_contentAssigned (Node.receiversForest markup) content
  rw [← dropped_resolve] at hcontent
  rw [← List.append_assoc]
  refine (hrefill.append_right _).trans ?_
  rw [List.append_assoc]
  exact hcontent.append_left _

section Additive

variable {α : Type} {f : Node → List α}

/-- What `f` lists for an element is what it lists for its tag and for its children. -/
def Additive (f : Node → List α) : Prop :=
  ∃ own : Tag → List α, ∀ tag children, f (.element tag children) = own tag ++ children.flatMap f

mutual

theorem Additive.perm_emptied (hf : Additive f) {around : List Tag} (hopen : OpenTags around)
    (position : List Nat) : (n : Node) → (f n).Perm (f n.emptied ++
      (insidePlaces ((n.placesIn position around).filter Place.isReceiver)).flatMap f)
  | .text _ => .of_eq (List.append_nil _).symm
  | .style _ _ => .of_eq (List.append_nil _).symm
  | .styleText _ => .of_eq (List.append_nil _).symm
  | .element tag children => by
      obtain ⟨own, hown⟩ := hf
      unfold Node.emptied
      rcases h : tag.isReceiver with - | -
      · rw [Node.filter_placesIn_element h, if_neg (by simp)]
        rcases hexpanded : tag.expanded with - | -
        · have hinside := perm_emptiedForest ⟨own, hown⟩ (Node.openTags_append hopen h hexpanded)
            position 0 children
          rw [if_neg (by simp), hown, hown, List.append_assoc]
          exact hinside.append_left _
        · rw [Node.filter_placesFrom_hidden (.inr hexpanded) (by simp)]
          exact .of_eq (List.append_nil _).symm
      · rw [Node.filter_placesIn_receiver hopen h, if_pos rfl, hown, hown, insidePlaces,
          List.flatMap_singleton, List.flatMap_nil, List.append_nil]
        exact .refl _

/-- What is listed for a forest is listed outside of its placeholders, or inside. -/
theorem Additive.perm_emptiedForest (hf : Additive f) {around : List Tag}
    (hopen : OpenTags around) (position : List Nat) (i : Nat) : (nodes : List Node) →
      (nodes.flatMap f).Perm ((Node.emptiedForest nodes).flatMap f ++ (insidePlaces
        ((Node.placesFrom position around i nodes).filter Place.isReceiver)).flatMap f)
  | [] => .refl _
  | n :: rest => by
      have hn := perm_emptied hf hopen (position ++ [i]) n
      have hrest := perm_emptiedForest hf hopen position (i + 1) rest
      rw [List.flatMap_cons, Node.emptiedForest, List.flatMap_cons, Node.placesFrom,
        List.filter_append, insidePlaces, List.flatMap_append, List.flatMap_append]
      exact (hn.append hrest).trans (perm_append_exchange _ _ _ _)

end

/-- **What distribution adds to what is listed, and what it takes away.** -/
theorem Distribution.perm_displaced (hf : Additive f) (markup content : List Node) :
    ((resolve markup content).nodes.flatMap f ++
        (displaced markup content ++ (resolve markup content).dropped).flatMap f).Perm
      (markup.flatMap f ++ content.flatMap f) := by
  have hopen : OpenTags [] := by simp [OpenTags]
  have hmarkup := hf.perm_emptiedForest hopen [] 0 markup
  have hnodes := hf.perm_emptiedForest hopen [] 0 (resolve markup content).nodes
  -- outside of the placeholders nothing changes
  have houtside : Node.emptiedForest (resolve markup content).nodes =
      Node.emptiedForest markup := by
    rw [nodes_resolve_id]
    exact Node.emptiedForest_fill_outline [] markup
  have hinside := receiverPlaces_resolve markup content
  rw [Node.receiverPlaces, Node.places] at hinside
  rw [houtside, hinside] at hnodes
  have hgain := perm_inside_resolve markup content
  calc List.Perm ((resolve markup content).nodes.flatMap f ++
          (displaced markup content ++ (resolve markup content).dropped).flatMap f)
        ((Node.emptiedForest markup).flatMap f ++ (insidePlaces (refillPlaces
            ((Receivers.find markup).assigned Node.slotTarget? content) []
              (Node.receiverPlaces markup))).flatMap f ++
          (displaced markup content ++ (resolve markup content).dropped).flatMap f) :=
        hnodes.append_right _
    _ = (Node.emptiedForest markup).flatMap f ++ (insidePlaces (refillPlaces
            ((Receivers.find markup).assigned Node.slotTarget? content) []
              (Node.receiverPlaces markup)) ++
          (displaced markup content ++ (resolve markup content).dropped)).flatMap f := by
        rw [List.append_assoc, ← List.flatMap_append]
    List.Perm _ ((Node.emptiedForest markup).flatMap f ++
        (insidePlaces (Node.receiverPlaces markup) ++ content).flatMap f) :=
        (hgain.flatMap_right f).append_left _
    _ = (Node.emptiedForest markup).flatMap f ++
        (insidePlaces (Node.receiverPlaces markup)).flatMap f ++ content.flatMap f := by
        rw [List.flatMap_append, List.append_assoc]
    List.Perm _ (markup.flatMap f ++ content.flatMap f) := hmarkup.symm.append_right _

end Additive

end CustomElements
