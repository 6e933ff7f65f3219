import CustomElements.Proofs.Reader.FlowRules
import CustomElements.Proofs.Reader.Standing

/-!
# Where an element is opened

A new element is put at the end of the children of the innermost open one. `Builder.enter` is the
state inside it, with what elements of some names are noted in besides: the formatting elements, the
mode and the open form. For other names the state only has one more open element.
-/

namespace CustomElements.Markup

open Builder (TagAttributes)

namespace Builder

/-- The token is dealt with by one rule. -/
def Deals (b : Builder) (t : Token) (b' : Builder) : Prop :=
  (if b.isForeign t then b.inForeign t else b.inMode t) = done b'

/-- The reader with a node at the end of the innermost open element. -/
def attach (b : Builder) (content : Content) : Builder :=
  { b with grove := b.grove.attach b.current content }

/-- The entries that an open element adds to the formatting elements. -/
def entriesFor (n : ElementName) (attributes : TagAttributes) (id : Nat) : List Formatting :=
  if n.isHtmlOf markerNames then [.marker]
  else if n.isHtmlOf ("a" :: "nobr" :: formattingNames) then [.element id n.name attributes]
  else []

/-- The reader inside a new element. -/
def enter (b : Builder) (n : ElementName) (attributes : TagAttributes) : Builder :=
  { b.attach (.element n attributes) with
    stack := b.grove.cells.size :: b.stack
    formatting := entriesFor n attributes b.grove.cells.size ++ b.formatting
    mode := modeOf (n :: b.stack.map b.name)
    form := if n.isHtml "form" then some b.grove.cells.size else b.form }

namespace StandsIn

variable {s : Surroundings} {b : Builder}

theorem insertElement_eq (h : b.StandsIn s) (n : ElementName) (attributes : TagAttributes) :
    b.insertElement n attributes = (b.grove.cells.size, b.attach (.element n attributes)) := by
  rw [insertElement, placeFor, h.fostering]
  rfl

theorem addElement_eq (h : b.StandsIn s) (name : String) (attributes : TagAttributes) :
    b.addElement name attributes = b.attach (.element (.html name) attributes) := by
  rw [addElement, h.insertElement_eq]

theorem openElement_eq (h : b.StandsIn s) (name : String) (attributes : TagAttributes) :
    b.openElement name attributes = { b.attach (.element (.html name) attributes) with
      stack := b.grove.cells.size :: b.stack } := by
  rw [openElement, h.insertElement_eq]
  rfl

theorem openForeign_eq (h : b.StandsIn s) (language : Language) (name : String)
    (attributes : TagAttributes) :
    b.openForeign language name attributes false =
      { b.attach (.element ⟨language, name⟩ (adjustedAttributes language attributes)) with
        stack := b.grove.cells.size :: b.stack } := by
  rw [openForeign, h.insertElement_eq]
  rfl

theorem said_entriesFor (n : ElementName) (attributes : TagAttributes) (id : Nat) :
    (entriesFor n attributes id).map Formatting.said = notedAs n attributes := by
  unfold entriesFor notedAs
  split
  · rfl
  · split <;> rfl

theorem settled_entriesFor {n : ElementName} {attributes : TagAttributes} {e : Formatting}
    (he : e ∈ entriesFor n attributes b.grove.cells.size) :
    (b.enter n attributes).isSettled e = true := by
  unfold entriesFor at he
  split at he
  · rw [List.mem_singleton.mp he]
    rfl
  · split at he
    · rw [List.mem_singleton.mp he]
      simp [isSettled, Builder.enter]
    · cases he

/-- The surroundings inside a new element. -/
theorem enter (h : b.StandsIn s) {n : ElementName} (attributes : TagAttributes)
    (hn : n.isHtml "template" = false) :
    (b.enter n attributes).StandsIn (s.inside n attributes) := by
  have hcurrent := h.current_lt
  have hold : ∀ id ∈ b.stack, (b.enter n attributes).name id = b.name id := fun id hid => by
    have hcontent : (b.grove.attach b.current (.element n attributes)).content? id = _ :=
      Grove.content?_attach hcurrent (h.valid id hid)
    simp only [Builder.name, Grove.name, Builder.enter, Builder.attach, hcontent]
  have hnew : (b.enter n attributes).name b.grove.cells.size = n := by
    have hcontent : (b.grove.attach b.current (.element n attributes)).content? _ = _ :=
      Grove.content?_attach_new hcurrent
    simp only [Builder.name, Grove.name, Builder.enter, Builder.attach, hcontent]
  have hsize : (b.enter n attributes).grove.cells.size = b.grove.cells.size + 1 :=
    Grove.size_attach
  -- numbers of cells are given once, so the elements that are open keep their names
  refine ⟨?_, by simp [Builder.enter], ?_, ?_, ?_, ?_, ?_, ?_, h.fostering, h.reading,
    h.skipNewline, h.tableText⟩
  case refine_1 =>
    show (b.grove.cells.size :: b.stack).map (b.enter n attributes).name = n :: s.names
    rw [List.map_cons, hnew, List.map_congr_left hold, h.names]
  case refine_2 =>
    intro id hid
    rw [hsize]
    rcases List.mem_cons.mp hid with rfl | hid
    · exact Nat.lt_succ_self _
    · exact Nat.lt_succ_of_lt (h.valid id hid)
  case refine_3 =>
    show (entriesFor n attributes _ ++ b.formatting).map Formatting.said = _
    rw [List.map_append, said_entriesFor, h.formatting]
    rfl
  case refine_4 =>
    intro e he
    rcases List.mem_append.mp he with he | he
    · exact settled_entriesFor he
    · have hopen := h.settled e he
      cases e with
      | marker => rfl
      | element id name attributes =>
          simp only [isSettled, List.contains_iff_mem] at hopen ⊢
          exact List.mem_cons_of_mem _ hopen
  case refine_5 =>
    show (if n.isHtml "form" then some b.grove.cells.size else b.form).isSome = _
    rw [Surroundings.inside, ← h.form]
    cases n.isHtml "form" <;> simp
  case refine_6 =>
    show modeOf (n :: b.stack.map b.name) = modeOf (n :: s.names)
    rw [h.names]
  case refine_7 =>
    exact List.forall_mem_cons.mpr ⟨hn, h.noTemplate⟩

end StandsIn

/-- The reader behind a start tag that only opens its element. -/
def begun (b : Builder) (n : ElementName) (attributes : TagAttributes) : Builder :=
  { b.enter n (adjusted n.language attributes) with
    skipNewline := n.isHtmlOf ["pre", "listing"] }

/-- The names of elements that are noted in more places than the list of open elements. -/
def notedNames : List String :=
  modeNames ++ markerNames ++ "a" :: "nobr" :: formattingNames ++ ["form"]

/-- The names of elements whose start tags do more than to open them. -/
def specialNames : List String := "pre" :: "listing" :: notedNames

namespace StandsIn

variable {s : Surroundings} {b : Builder}

theorem begun_eq_enter (h : b.StandsIn s) {n : ElementName} (attributes : TagAttributes)
    (hn : n.isHtmlOf ["pre", "listing"] = false) :
    b.begun n attributes = b.enter n (adjusted n.language attributes) := by
  rw [begun, hn, ← h.skipNewline]
  rfl

theorem mode_cons (h : b.StandsIn s) {n : ElementName} (hn : n.isHtmlOf modeNames = false) :
    modeOf (n :: b.stack.map b.name) = b.mode := by
  rw [h.names, modeOf_cons hn h.names_ne_nil, h.mode]
  rfl

/-- An element with a mode of its own, which no other open element decides, calls for it. -/
theorem mode_own (h : b.StandsIn s) {n : ElementName} {mode : Mode}
    (hown : ∀ m rest, modeOf (n :: m :: rest) = mode) :
    modeOf (n :: b.stack.map b.name) = mode := by
  obtain ⟨rest, hnames⟩ := h.names_eq
  rw [h.names, hnames, hown]

/-- An element with nothing special about it is only opened. -/
theorem enter_eq (h : b.StandsIn s) {n : ElementName} (attributes : TagAttributes)
    (hn : n.isHtmlOf notedNames = false) :
    b.enter n attributes =
      { b.attach (.element n attributes) with stack := b.grove.cells.size :: b.stack } := by
  have hmode := h.mode_cons (isHtmlOf_eq_false hn (show ∀ name ∈ modeNames, _ by decide))
  have hentries : entriesFor n attributes b.grove.cells.size = [] := by
    rw [entriesFor, isHtmlOf_eq_false hn (by decide), isHtmlOf_eq_false hn (by decide)]
    rfl
  rw [Builder.enter, hmode, hentries, isHtml_eq_false hn (by decide)]
  rfl

theorem openElement_eq_begun (h : b.StandsIn s) {name : String} (attributes : TagAttributes)
    (hname : specialNames.contains name = false) :
    b.openElement name attributes = b.begun (.html name) attributes := by
  have hn : (ElementName.html name).isHtmlOf specialNames = false := by
    rw [ElementName.isHtmlOf, Bool.and_eq_false_iff]
    exact .inr hname
  rw [h.openElement_eq, h.begun_eq_enter _ (isHtmlOf_eq_false hn (by decide)),
    h.enter_eq _ (isHtmlOf_eq_false hn (by decide))]
  rfl

end StandsIn

end Builder

end CustomElements.Markup
