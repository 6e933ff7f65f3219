import CustomElements.Proofs.Expansion.Sheets
import CustomElements.Proofs.Markup.Elements
import CustomElements.Proofs.Session.Rollback

/-!
# Expansion is complete

In the tree that a call returns, the elements below the root that are marked as expanded are those
whose names are known, so no custom element is left over (`Renderer.elementToTag_settled`).

Elements come into the tree on several ways: as markup that an expansion reads, as content that it
was given, and as hosts that it makes. Markup is read without any marks, so every element of it is
looked at. Content is settled when it is handed on, whether it goes into a placeholder or past a
component without markup; if the walk meets it again, that stops at the expanded elements, and
there is nothing to do inside them. So what an expansion has to suppose of a forest is that its
closed part is settled, and what it makes of it is settled altogether (`Expands.settled`).
-/

namespace CustomElements

/-- The parser marks no element as expanded. -/
def Renderer.ParsesUnexpanded (r : Renderer) : Prop :=
  ∀ markup, ∀ t ∈ Node.tagsForest (r.parse markup), t.expanded = false

theorem Renderer.parsesUnexpanded_of_parse {r : Renderer} (h : r.parse = Markup.parse) :
    r.ParsesUnexpanded := by
  intro markup
  rw [h]
  exact Markup.expanded_parse markup

namespace Task

/-- What is closed before the expansion is settled. Content is settled altogether. -/
def Ready (known : TagMap) : Task → Prop
  | .node n => Node.ClosedSettled known [n]
  | .forest nodes => Node.ClosedSettled known nodes
  | .component _ _ _ content => Node.Settled known content

/-- What an expansion makes is settled; of a host, what is below it. -/
def Leaves (known : TagMap) (ns : List Node) : Task → Prop
  | .node _ | .forest _ => Node.Settled known ns
  | .component _ tagName _ _ => ∃ tag children, ns = [.element tag children] ∧
      tag.name = tagName ∧ tag.expanded = true ∧ Node.Settled known children

end Task

section Occurrence

variable {o : Occurrence} {own : Option (List Node)} {scoping : StyleScoping} {w : Work}

/-- Among the stylesheets that a host holds there is no element. -/
theorem Occurrence.tagsForest_written (h : o.parts = (.ok (own, scoping), w)) :
    Node.tagsForest (o.written scoping) = [] := by
  obtain ⟨-, hstyles, -, -⟩ := Occurrence.parts_ok h
  unfold Occurrence.written
  split
  · rw [hstyles, Node.tagsForest_eq_flatMap, List.flatMap_map]
    exact List.flatMap_eq_nil_iff.mpr fun _ _ => rfl
  · rfl

theorem Occurrence.settled_host {known : TagMap} (h : o.parts = (.ok (own, scoping), w))
    {body : List Node} (hbody : Node.Settled known body) :
    Node.Settled known (o.written scoping ++ body) := by
  refine Node.settled_append.mpr ⟨?_, hbody⟩
  rw [Node.Settled, Occurrence.tagsForest_written h]
  simp

theorem Occurrence.tagName_of_parts (h : o.parts = (.ok (own, scoping), w)) :
    w.inst.tagName = o.start.inst.tagName := by
  have hname := o.grows_parts.tagName_eq
  rwa [h] at hname

/-- Markup with content in its placeholders has no closed elements but those of the content. -/
theorem Occurrence.closedTags_distribute {own : List Node}
    (h : o.parts = (.ok (some own, scoping), w)) (hparse : o.renderer.ParsesUnexpanded)
    (tags : TagMap) : Node.closedTagsForest (o.distribute own scoping tags).nodes ⊆
      Node.closedTagsForest o.content := by
  obtain ⟨-, -, hown, -⟩ := Occurrence.parts_ok h
  obtain ⟨markup, rfl⟩ := hown own rfl
  -- the scoping classes leave the markup as it is read, without any mark
  have hmarkup : ∀ t ∈ Node.tagsForest
      (scopeMarkup (o.renderer.parse markup) scoping.classes tags.contains),
      t.expanded = false := by
    rw [← List.forall_mem_map (f := Tag.expanded) (P := (· = false)),
      map_tags_scopeMarkup fun t => t.expanded_withClasses _, List.forall_mem_map]
    exact hparse markup
  exact Distribution.closedTags_subset _ _ hmarkup

/-- Such markup is ready to be expanded, if the content is settled. -/
theorem Occurrence.closedSettled_distribute {known : TagMap} {own : List Node}
    (h : o.parts = (.ok (some own, scoping), w)) (hparse : o.renderer.ParsesUnexpanded)
    (hcontent : Node.Settled known o.content) (tags : TagMap) :
    Node.ClosedSettled known (o.distribute own scoping tags).nodes :=
  fun t ht => hcontent.closed t (Occurrence.closedTags_distribute h hparse tags ht)

end Occurrence

variable {r : Renderer} {d : Deliveries} {theme : Option Theme}

/-- **What an expansion leaves is settled.** -/
theorem Expands.settled {known : TagMap} {task : Task} {p p' : Progress}
    {ns : List Node} {os : List Occurrence} (h : Expands r d theme task p (.ok ns) p' os)
    (hparse : r.ParsesUnexpanded) (hknown : p.session.tagMap = known)
    (hready : task.Ready known) : task.Leaves known ns := by
  induction h using Expands.induction_ok with
  | kept settled => exact Node.ClosedSettled.settled hready settled
  | @plain tag children ms _ _ _ unexpanded unknown _ ih =>
      have hms : Node.Settled known ms :=
        ih hknown ((Node.closedSettled_element unexpanded).mp hready)
      rw [Session.lookup, hknown] at unknown
      refine Node.settled_element.mpr ⟨?_, hms⟩
      simp [unexpanded, Fields.contains, unknown]
  | @custom tag children content _ _ _ _ nested _ _ unexpanded isKnown inside _ ih ih' =>
      have hcontent : Node.Settled known content :=
        ih hknown ((Node.closedSettled_element unexpanded).mp hready)
      obtain ⟨host, below, rfl, hname, hexpanded, hbelow⟩ :=
        ih' (inside.grows.tagMap.trans hknown) hcontent
      rw [Session.lookup, hknown] at isKnown
      refine Node.settled_element.mpr ⟨?_, hbelow⟩
      simp [hexpanded, hname, Fields.contains, isKnown]
  | nil => simp [Task.Leaves, Node.Settled, Node.tagsForest]
  | cons first _ ih ih' =>
      obtain ⟨hfirst, honward⟩ := Node.closedSettled_cons.mp hready
      exact Node.settled_append.mpr
        ⟨ih hknown hfirst, ih' (first.grows.tagMap.trans hknown) honward⟩
  | passed begins parts =>
      refine ⟨_, _, rfl, ?_, rfl, Occurrence.settled_host parts hready⟩
      rw [Occurrence.tagName_of_parts parts, begins]
      rfl
  | @filled _ _ _ _ _ body _ _ o _ _ _ begins parts _ ih =>
      have hcontent : Node.Settled known o.content := by rw [begins]; exact hready
      have hsame := Occurrence.tagMap_parts begins
      rw [parts] at hsame
      have hbody : Node.Settled known body := ih (hsame.trans hknown)
        (Occurrence.closedSettled_distribute parts (by rw [begins]; exact hparse) hcontent _)
      refine ⟨_, _, rfl, ?_, rfl, Occurrence.settled_host parts hbody⟩
      rw [Occurrence.tagName_of_parts parts, begins]
      rfl

/--
**Expansion is complete.** In the tree that a call returns, the root is marked as expanded, and an
element below the root is marked exactly if its name is known to the session.
-/
theorem Renderer.elementToTag_settled {r : Renderer} (hparse : r.ParsesUnexpanded) (c : Catalog)
    (d : Deliveries) (depth : Nat) (definition : Definition) (attributes : Props)
    (theme : Option Theme) (p : Progress) {n : Node} {p' : Progress}
    (h : r.elementToTag c d depth definition attributes theme p = (.ok n, p')) :
    ∃ root below, n = .element root below ∧ root.expanded = true ∧
      ∀ t ∈ Node.tagsForest below,
        t.expanded = true ↔ p'.session.tagMap.contains t.name = true := by
  obtain ⟨q, os, ⟨n', heq, hx⟩ | ⟨stop, heq, -⟩⟩ :=
    r.elementToTag_cases c d depth definition attributes theme p
  · obtain ⟨hn, rfl⟩ := Prod.mk.inj (heq.symm.trans h)
    cases hn
    obtain ⟨root, below, hroot, -, hexpanded, hbelow⟩ :=
      hx.settled hparse hx.grows.tagMap.symm
        (by simp [rootTask, Task.Ready, Node.Settled, Node.tagsForest])
    exact ⟨root, below, List.singleton_inj.mp hroot, hexpanded, hbelow⟩
  · cases heq.symm.trans h

namespace Sample

def bag : Definition := { component 4 "x-bag" (.ofString "") [] with html := none }

/-- A component that hands its content on into a bag, and has an item if nobody supplies a foot. -/
def parcel : Definition :=
  component 5 "x-parcel"
    (.ofString "<x-bag><slot></slot></x-bag><slot name=foot><x-item></x-item></slot>") []

def letter : Definition :=
  component 6 "x-letter" (.ofString "<x-parcel><b><x-item></x-item></b></x-parcel>") []

def mail : Catalog :=
  ⟨catalog.entries ++ [⟨bag, none⟩, ⟨parcel, some [4, 0]⟩, ⟨letter, some [5]⟩]⟩

end Sample

open Sample in
/-- One item of the letter goes through the parcel into the bag, the other one is a fallback. -/
theorem elementToTag_settled_letter :
    ∃ n p', reader.ParsesUnexpanded ∧
      reader.elementToTag mail Deliveries.none 4 letter ∅ none ⟨.empty 0, .empty⟩ = (.ok n, p') ∧
      n.tags.map (fun t => (t.name, t.expanded)) =
        [("x-letter", true), ("x-parcel", true), ("x-bag", true), ("slot", false), ("b", false),
          ("x-item", true), ("slot", false), ("x-item", true)] ∧
      ∃ root below, n = .element root below ∧ root.expanded = true ∧
        ∀ t ∈ Node.tagsForest below,
          t.expanded = true ↔ p'.session.tagMap.contains t.name = true := by
  have hparse : reader.ParsesUnexpanded := Renderer.parsesUnexpanded_of_parse rfl
  have hok : (match (reader.elementToTag mail Deliveries.none 4 letter ∅ none
        ⟨.empty 0, .empty⟩).1 with
      | .ok n => n.tags.map fun t => (t.name, t.expanded)
      | .error _ => []) =
        [("x-letter", true), ("x-parcel", true), ("x-bag", true), ("slot", false), ("b", false),
          ("x-item", true), ("slot", false), ("x-item", true)] := by
    decide +kernel
  rcases hrun : reader.elementToTag mail Deliveries.none 4 letter ∅ none ⟨.empty 0, .empty⟩
    with ⟨stop | n, p'⟩ <;> rw [hrun] at hok
  · cases hok
  · exact ⟨n, p', hparse, rfl, hok, Renderer.elementToTag_settled hparse mail .none 4 letter ∅ none
      _ hrun⟩

end CustomElements
