import CustomElements.Proofs.Expansion.Completeness
import CustomElements.Proofs.Expansion.Lockstep
import CustomElements.Proofs.Markup.Frame
import CustomElements.Proofs.Session.SharedSheets

/-!
# Output without stylesheets

A renderer that is told not to write stylesheets still renders them and confines them, so that the
document gets the same classes and the session keeps the same records. Its output is that of a
renderer which writes them, with the `<style>` elements taken out.

The `<style>` elements of a host are in the lists of children through which later steps go: in
content, and in markup with content in it. They do no harm there. As long as an element is looked
at, none of its children is a `<style>` element (`Node.openStyles`), since markup brings none and a
host is looked at no more as soon as it has its own. So there are as many pieces of content either
way, they ask for the same placeholders, and the same elements are open.
-/

namespace CustomElements

namespace Node

/-! ## Taking stylesheets out -/

/-- The node is a `<style>` element. -/
def isStyle : Node → Bool
  | .style _ _ => true
  | _ => false

mutual

/-- The node without the `<style>` elements in it. -/
def withoutStyles : Node → Node
  | .element tag children => .element tag (Node.withoutStylesForest children)
  | n => n

/-- The forest without its `<style>` elements, at every depth. -/
def withoutStylesForest : List Node → List Node
  | [] => []
  | n :: rest =>
    if n.isStyle then Node.withoutStylesForest rest
    else n.withoutStyles :: Node.withoutStylesForest rest

end

theorem withoutStylesForest_append (ns ms : List Node) :
    withoutStylesForest (ns ++ ms) = withoutStylesForest ns ++ withoutStylesForest ms := by
  induction ns with
  | nil => rfl
  | cons n rest ih =>
      rw [List.cons_append, withoutStylesForest, withoutStylesForest, ih]
      split <;> rfl

theorem withoutStylesForest_map_style (attributes : Attributes) (sheets : List ScopedSheet) :
    withoutStylesForest (sheets.map (Node.style attributes)) = [] := by
  induction sheets with
  | nil => rfl
  | cons sheet rest ih =>
      rw [List.map_cons, withoutStylesForest, ih]
      rfl

@[simp] theorem slotTarget?_withoutStyles (n : Node) :
    n.withoutStyles.slotTarget? = n.slotTarget? := by
  cases n <;> rfl

mutual

/-- Where no `<style>` element is, there is nothing to take out. -/
theorem withoutStyles_of_styles : (n : Node) → n.styles = [] → n.withoutStyles = n
  | .text _, _ => rfl
  | .styleText _, _ => rfl
  | .style _ _, h => by simp [styles] at h
  | .element tag children, h => by rw [withoutStyles, withoutStylesForest_of_styles children h]

theorem withoutStylesForest_of_styles :
    (nodes : List Node) → stylesForest nodes = [] → withoutStylesForest nodes = nodes
  | [], _ => rfl
  | n :: rest, h => by
      rw [stylesForest, List.append_eq_nil_iff] at h
      have hn : n.isStyle = false := by
        rcases n with _ | _ | _ | _
        case style => simp [styles] at h
        all_goals rfl
      rw [withoutStylesForest, hn, withoutStyles_of_styles n h.1,
        withoutStylesForest_of_styles rest h.2]
      rfl

end

/-! ## Stylesheets that are looked at -/

mutual

/-- The `<style>` elements that are not inside an expanded element. -/
def openStyles : Node → List StyleElement
  | .element tag children => if tag.expanded then [] else Node.openStylesForest children
  | .style attributes sheet => [(attributes, sheet)]
  | .text _ | .styleText _ => []

def openStylesForest : List Node → List StyleElement
  | [] => []
  | n :: rest => n.openStyles ++ Node.openStylesForest rest

end

mutual

theorem openStyles_eq_nil : (n : Node) → n.styles = [] → n.openStyles = []
  | .text _, _ => rfl
  | .styleText _, _ => rfl
  | .style _ _, h => by simp [styles] at h
  | .element tag children, h => by
      unfold openStyles
      split
      · rfl
      · exact openStylesForest_eq_nil children h

theorem openStylesForest_eq_nil :
    (nodes : List Node) → stylesForest nodes = [] → openStylesForest nodes = []
  | [], _ => rfl
  | n :: rest, h => by
      rw [stylesForest, List.append_eq_nil_iff] at h
      rw [openStylesForest, openStyles_eq_nil n h.1, openStylesForest_eq_nil rest h.2,
        List.nil_append]

end

/-- The second node is the first one without `<style>` elements, and none of those was open. -/
def Stripped (n m : Node) : Prop := n.openStyles = [] ∧ m = n.withoutStyles

theorem Stripped.isStyle {n m : Node} (h : n.Stripped m) : n.isStyle = false := by
  rcases n with _ | _ | _ | _
  case style =>
    have hopen := h.1
    simp [openStyles] at hopen
  all_goals rfl

/-- Forests in which no `<style>` element is open are taken out of node by node. -/
theorem forall₂_stripped {ns ms : List Node} :
    List.Forall₂ Stripped ns ms ↔ openStylesForest ns = [] ∧ ms = withoutStylesForest ns := by
  induction ns generalizing ms with
  | nil => simp [openStylesForest, withoutStylesForest]
  | cons n rest ih =>
      rw [openStylesForest, List.append_eq_nil_iff, withoutStylesForest]
      constructor
      · rintro (_ | ⟨hn, hrest⟩)
        rw [ih] at hrest
        rw [hn.isStyle, hn.2, hrest.2]
        exact ⟨⟨hn.1, hrest.1⟩, rfl⟩
      · rintro ⟨⟨hn, hrest⟩, rfl⟩
        have hfirst : n.Stripped n.withoutStyles := ⟨hn, rfl⟩
        rw [hfirst.isStyle]
        exact .cons hfirst (ih.mpr ⟨hrest, rfl⟩)

theorem stripped_self {n : Node} (h : n.styles = []) : n.Stripped n :=
  ⟨openStyles_eq_nil n h, (withoutStyles_of_styles n h).symm⟩

theorem stripped_element {tag : Tag} {children children' : List Node}
    (h : List.Forall₂ Stripped children children') :
    (element tag children).Stripped (.element tag children') := by
  obtain ⟨hopen, rfl⟩ := forall₂_stripped.mp h
  refine ⟨?_, rfl⟩
  rw [openStyles, hopen, ite_self]

/-! ## Distribution -/

section Distribution

variable {ι : Type} {content content' : ι → Node}

mutual

/-- Markup without `<style>` elements is stripped by stripping what comes into it. -/
theorem stripped_fill_outline (h : ∀ i, (content i).Stripped (content' i))
    (assign : Option String → List ι) (seen : List (Option String)) : (n : Node) → n.styles = [] →
      ((n.outline assign seen).fill content).Stripped ((n.outline assign seen).fill content')
  | .text _, hn => stripped_self hn
  | .styleText _, hn => stripped_self hn
  | .style _ _, hn => stripped_self hn
  | .element tag children, hn => by
      unfold outline
      split
      · split
        · exact stripped_self hn
        · -- the placeholder's own children make way for pieces of content
          rw [Frame.fill, Frame.fill, Frame.fillForest_map_hole, Frame.fillForest_map_hole]
          refine stripped_element ?_
          rw [List.forall₂_map_left_iff, List.forall₂_map_right_iff]
          exact List.forall₂_same.mpr fun i _ => h i
      · split
        · exact stripped_self hn
        · exact stripped_element (forall₂_fill_outlineForest h assign seen children hn)

theorem forall₂_fill_outlineForest (h : ∀ i, (content i).Stripped (content' i))
    (assign : Option String → List ι) (seen : List (Option String)) :
    (nodes : List Node) → stylesForest nodes = [] →
      List.Forall₂ Stripped (Frame.fillForest content (outlineForest assign seen nodes))
        (Frame.fillForest content' (outlineForest assign seen nodes))
  | [], _ => .nil
  | n :: rest, hnodes => by
      rw [stylesForest, List.append_eq_nil_iff] at hnodes
      exact .cons (stripped_fill_outline h assign seen n hnodes.1)
        (forall₂_fill_outlineForest h assign _ rest hnodes.2)

end

end Distribution

end Node

/-- Related lists are the two sides of one list of related pairs. -/
theorem exists_pairs_of_forall₂ {α β : Type} {R : α → β → Prop} {l : List α} {m : List β}
    (h : List.Forall₂ R l m) :
    ∃ pairs : List { e : α × β // R e.1 e.2 },
      pairs.map (fun e => e.1.1) = l ∧ pairs.map (fun e => e.1.2) = m := by
  induction h with
  | nil => exact ⟨[], rfl, rfl⟩
  | @cons a b _ _ hab _ ih =>
      obtain ⟨pairs, hl, hm⟩ := ih
      exact ⟨⟨(a, b), hab⟩ :: pairs, by rw [List.map_cons, hl], by rw [List.map_cons, hm]⟩

theorem Distribution.forall₂_stripped {markup content content' : List Node}
    (hmarkup : Node.stylesForest markup = []) (h : List.Forall₂ Node.Stripped content content') :
    List.Forall₂ Node.Stripped (resolve markup content).nodes (resolve markup content').nodes := by
  obtain ⟨pairs, rfl, rfl⟩ := exists_pairs_of_forall₂ h
  -- both sides of a pair ask for the same placeholder, so they go into the same hole
  have htargets : ∀ e : { e : Node × Node // e.1.Stripped e.2 },
      e.1.2.slotTarget? = e.1.1.slotTarget? := by
    rintro ⟨⟨n, m⟩, hn⟩
    rw [hn.2, Node.slotTarget?_withoutStyles]
  rw [nodes_resolve markup (fun _ => rfl) pairs, nodes_resolve markup htargets pairs]
  exact Node.forall₂_fill_outlineForest (fun e => e.2) _ [] markup hmarkup

/-! ## Renderers -/

namespace Renderer

/-- The renderer with stylesheets written or not. -/
def withEmitStyles (r : Renderer) (emitStyles : Bool) : Renderer :=
  { r with options := { r.options with emitStyles } }

/-- The nodes of a renderer that writes stylesheets, and of one that does not. -/
theorem resemblance_stripped {r : Renderer} (hparse : r.ParsesNoStyles) :
    Resemblance Node.Stripped (r.withEmitStyles true) (r.withEmitStyles false) where
  kept := by
    rintro n _ ⟨-, rfl⟩ hn tag children hm
    rcases n with ⟨tag', children'⟩ | _ | _ | _ <;> cases hm
    exact hn tag children' rfl
  opened := by
    rintro tag children _ hexpanded ⟨hopen, rfl⟩
    rw [Node.openStyles, hexpanded, if_neg Bool.false_ne_true] at hopen
    exact ⟨_, rfl, Node.forall₂_stripped.mpr ⟨hopen, rfl⟩⟩
  element := Node.stripped_element
  host := by
    intro o o' own scoping w body body' ho ho' hparts hbody
    obtain ⟨-, hstyles, -, -⟩ := Occurrence.parts_ok hparts
    obtain ⟨-, rfl⟩ := Node.forall₂_stripped.mp hbody
    have hwritten : Node.withoutStylesForest (o.written scoping) = [] := by
      rw [Occurrence.written, ho, hstyles]
      exact Node.withoutStylesForest_map_style _ _
    have hwritten' : o'.written scoping = [] := by
      rw [Occurrence.written, ho']
      rfl
    refine ⟨rfl, ?_⟩
    rw [hwritten', host, host, Node.withoutStyles, Node.withoutStylesForest_append, hwritten]
  distribute := by
    intro o o' own scoping w tags ho hparts hcontent
    obtain ⟨-, -, hown, -⟩ := Occurrence.parts_ok hparts
    obtain ⟨markup, rfl⟩ := hown own rfl
    refine Distribution.forall₂_stripped ?_ hcontent
    rw [stylesForest_scopeMarkup, ho]
    exact hparse markup

/--
**Not to write stylesheets takes them out, and nothing else.** Whether it is told to write them or
not, a renderer whose parser makes no `<style>` elements succeeds or fails with the same error, and
leaves the same state. If it is not, what it returns is what it returns otherwise without the
`<style>` elements in it, at any depth.
-/
theorem elementToTag_withoutStyles {r : Renderer} (hparse : r.ParsesNoStyles) (c : Catalog)
    (d : Deliveries) (depth : Nat) (definition : Definition) (attributes : Props)
    (theme : Option Theme) (p : Progress) :
    let styled := (r.withEmitStyles true).elementToTag c d depth definition attributes theme p
    (r.withEmitStyles false).elementToTag c d depth definition attributes theme p =
      (styled.1.map Node.withoutStyles, styled.2) := by
  intro styled
  -- the parts of a component are rendered in the same way, whatever is written in the end
  have hparts : ∀ nested : Definition, True → ∀ tagName attributes content content' p,
      ((r.withEmitStyles false).begin d theme nested tagName attributes content' p).parts =
        ((r.withEmitStyles true).begin d theme nested tagName attributes content p).parts :=
    fun _ _ _ _ _ _ _ => rfl
  obtain ⟨hanswer, hprogress⟩ := elementToTag_same (resemblance_stripped hparse) rfl c depth
    attributes trivial (fun _ => trivial) hparts
  exact Prod.ext (hanswer.eq_map fun _ _ h => h.2) hprogress

end Renderer

open Sample in
/-- The letter comes with three stylesheets, deep inside of it, or without them. -/
theorem elementToTag_withoutStyles_letter :
    let styled := (reader.withEmitStyles true).elementToTag mail Deliveries.none 4 letter ∅ none
      fresh
    let plain := (reader.withEmitStyles false).elementToTag mail Deliveries.none 4 letter ∅ none
      fresh
    reader.ParsesNoStyles ∧ styled.1.toOption.map (·.styles.length) = some 3 ∧
      plain.1.toOption.map Node.toHtml = some ("<x-letter><x-parcel><x-bag><slot><b>" ++
        "<x-item>item</x-item></b></slot></x-bag><slot name=\"foot\"><x-item>item</x-item>" ++
        "</slot></x-parcel></x-letter>") ∧
      plain = (styled.1.map Node.withoutStyles, styled.2) := by
  intro styled plain
  refine ⟨parsesNoStyles, by decide +kernel, by decide +kernel, ?_⟩
  exact Renderer.elementToTag_withoutStyles parsesNoStyles mail .none 4 letter ∅ none fresh

end CustomElements
