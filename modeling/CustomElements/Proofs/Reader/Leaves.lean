import CustomElements.Proofs.Reader.Leaving
import CustomElements.Proofs.Reader.Contents

/-!
# Elements without children

An element that has no content is added by its start tag. An element for text only is opened, and so
is a template; their end tags lead back to where they were opened, as those of other elements do.
-/

namespace CustomElements.Markup

open Builder (TagAttributes)

/-- Contents of templates and text apart, there are these modes. -/
theorem modeOf_ne {names : List ElementName} (h : ∀ n ∈ names, n.isHtml "template" = false) :
    modeOf names ≠ .text ∧ modeOf names ≠ .tableText ∧ modeOf names ≠ .template := by
  fun_induction modeOf names with
  | case1 => decide
  | case2 => decide
  | case3 n rest =>
      rw [selectModeOf_eq (List.forall_mem_cons.mp h).2]
      split_ifs <;> decide
  | case10 n rest _ _ _ _ _ _ _ _ htemplate =>
      rw [(List.forall_mem_cons.mp h).1] at htemplate
      cases htemplate
  | case12 n rest _ _ _ _ _ _ _ _ _ _ ih => exact ih (List.forall_mem_cons.mp h).2
  | _ => decide

namespace Builder

/-- The reader in a new element for text only, in which something may have grown. -/
def holding (b : Builder) (g : Grove) (reading : Reading) : Builder :=
  { b with
    grove := g
    stack := b.grove.cells.size :: b.stack
    mode := .text
    returnMode := b.mode
    reading := reading }

/-- The reader behind the start tag of an element for text only. -/
def begunText (b : Builder) (n : ElementName) (attributes : TagAttributes) (reading : Reading) :
    Builder :=
  { b.holding (b.grove.attach b.current (.element n attributes)) reading with
    skipNewline := n.isHtml "textarea" }

/-- The reader in a template. -/
def sheltering (b : Builder) (attributes : TagAttributes) : Builder :=
  { b.attach (.element (.html "template") attributes) with
    stack := b.grove.cells.size :: b.stack
    formatting := .marker :: b.formatting
    mode := .template
    templateModes := .template :: b.templateModes }

namespace StandsIn

variable {s : Surroundings} {b : Builder} {name : String} {attributes : TagAttributes}

/-- In markup proper, a tag is read by the rules of the mode. -/
theorem deals_of_inMode (h : b.StandsIn s) (hreads : s.readsForeign name = false) {b' : Builder}
    (hmode : b.inMode (.startTag name attributes false) = done b') :
    b.Deals (.startTag name attributes false) b' := by
  rw [Deals, h.isForeign_startTag, hreads, if_neg Bool.false_ne_true, hmode]

/-- Where rows of a table are read, other tags are read as in a table. -/
theorem inMode_table (h : b.StandsIn s)
    (hmode : s.mode = .table ∨ s.mode = .tableBody ∨ s.mode = .row)
    (hname : tablePartNames.contains name = false) :
    b.inMode (.startTag name attributes false) = b.inTable (.startTag name attributes false) := by
  have hne : ∀ n ∈ tablePartNames, name ≠ n := fun n => ne_of_contains_eq_false hname
  rw [inMode, h.mode]
  rcases hmode with hm | hm | hm
  · rw [hm]
  · rw [hm]
    simp only [inTableBody, hname, hne "tr" (by decide), hne "td" (by decide), hne "th" (by decide),
      decide_false, Bool.or_self, Bool.false_eq_true, if_false]
  · rw [hm]
    simp only [inRow, hname, hne "td" (by decide), hne "th" (by decide), decide_false,
      Bool.or_self, Bool.false_eq_true, if_false]

theorem inMode_select (h : b.StandsIn s) (hmode : s.mode = .select ∨ s.mode = .selectInTable)
    (hname : endsSelectNames.contains name = false) :
    b.inMode (.startTag name attributes false) = b.inSelect (.startTag name attributes false) := by
  rw [inMode, h.mode]
  rcases hmode with hm | hm
  · rw [hm]
  · rw [hm]
    simp only [inSelectInTable, hname, Bool.false_eq_true, if_false]

/-! ## Elements without content -/

theorem bodyStart_leaf (h : b.StandsIn s) (hname : name ∈ Surroundings.leafNames) :
    b.bodyStart name attributes false = b.attach (.element (.html name) attributes) := by
  have hrule : ∀ name ∈ Surroundings.leafNames,
      b.bodyStart name attributes false = b.addElement name attributes ∨
        b.bodyStart name attributes false = b.reopenFormatting.addElement name attributes := by
    simp only [Surroundings.leafNames, List.forall_mem_cons]
    exact ⟨.inr rfl, .inl rfl, .inl rfl, .inl rfl, .inr rfl, .inr rfl, .inr rfl, .inr rfl, .inr rfl,
      .inl rfl, .inl rfl, .inl rfl, .inl rfl, .inl rfl, .inr rfl, List.forall_mem_nil _⟩
  rcases hrule name hname with hrule | hrule
  · rw [hrule, h.addElement_eq]
  · rw [hrule, h.reopenFormatting_eq, h.addElement_eq]

theorem inMode_flow_leaf (h : b.StandsIn s) (hflow : s.flows = true)
    (hleaf : (Surroundings.leafNames.contains name || (name == "hr" && !s.inParagraph)) = true) :
    b.inMode (.startTag name attributes false) =
      done (b.attach (.element (.html name) attributes)) := by
  rw [Bool.or_eq_true, List.contains_iff_mem, Bool.and_eq_true, beq_iff_eq,
    Bool.not_eq_true'] at hleaf
  rcases hleaf with hleaf | ⟨rfl, hp⟩
  · have hall : ∀ n ∈ Surroundings.leafNames, tablePartNames.contains n = false := by decide
    rw [h.inMode_flow hflow (hall name hleaf), h.bodyStart_leaf hleaf]
  · have hrule : b.bodyStart "hr" attributes false = b.endParagraph.addElement "hr" attributes :=
      rfl
    rw [h.inMode_flow hflow (by decide), hrule, h.endParagraph_eq hp, h.addElement_eq]

theorem inMode_table_leaf (h : b.StandsIn s)
    (hmode : s.mode = .table ∨ s.mode = .tableBody ∨ s.mode = .row)
    (hinput : (name == "input" && isHiddenField attributes) = true) :
    b.inMode (.startTag name attributes false) =
      done (b.attach (.element (.html name) attributes)) := by
  rw [Bool.and_eq_true, beq_iff_eq] at hinput
  obtain ⟨rfl, hhidden⟩ := hinput
  have hrule : b.inTable (.startTag "input" attributes false) =
      if isHiddenField attributes then done (b.addElement "input" attributes)
      else done (b.fostered (.startTag "input" attributes false)) := rfl
  rw [h.inMode_table hmode (by decide), hrule, hhidden, if_pos rfl, h.addElement_eq]

theorem inMode_select_leaf (h : b.StandsIn s) (hmode : s.mode = .select ∨ s.mode = .selectInTable)
    (hhr : (name == "hr" && !s.current.isHtmlOf ["optgroup", "option"]) = true) :
    b.inMode (.startTag name attributes false) =
      done (b.attach (.element (.html name) attributes)) := by
  rw [Bool.and_eq_true, beq_iff_eq, Bool.not_eq_true'] at hhr
  obtain ⟨rfl, hcurrent⟩ := hhr
  have hrule : b.inSelect (.startTag "hr" attributes false) =
      done (((b.popIf "option").popIf "optgroup").addElement "hr" attributes) := rfl
  rw [h.inMode_select hmode (by decide), hrule, h.popIf_eq (isHtml_eq_false hcurrent (by decide)),
    h.popIf_eq (isHtml_eq_false hcurrent (by decide)), h.addElement_eq]

/-- **The start tag of an element without content adds the element.** -/
theorem deals_leaf (h : b.StandsIn s) (hreads : s.readsForeign name = false)
    (hadds : s.addsOnly (.html name) attributes = true) :
    b.Deals (.startTag name attributes false) (b.attach (.element (.html name) attributes)) := by
  have hname : (ElementName.html name).name = name := rfl
  have hlanguage : ¬((ElementName.html name).language != .html) = true := Bool.false_ne_true
  refine h.deals_of_inMode hreads ?_
  unfold Surroundings.addsOnly at hadds
  rw [if_neg hlanguage, hname] at hadds
  split at hadds
  case h_1 hm => exact h.inMode_flow_leaf (Surroundings.flows_iff.mpr (.inl hm)) hadds
  case h_2 hm => exact h.inMode_flow_leaf (Surroundings.flows_iff.mpr (.inr (.inl hm))) hadds
  case h_3 hm => exact h.inMode_flow_leaf (Surroundings.flows_iff.mpr (.inr (.inr hm))) hadds
  case h_4 hm => exact h.inMode_table_leaf (.inl hm) hadds
  case h_5 hm => exact h.inMode_table_leaf (.inr (.inl hm)) hadds
  case h_6 hm => exact h.inMode_table_leaf (.inr (.inr hm)) hadds
  case h_7 hm =>
    obtain rfl := beq_iff_eq.mp hadds
    have hrule : b.inColumnGroup (.startTag "col" attributes false) =
        done (b.addElement "col" attributes) := rfl
    rw [inMode, h.mode, hm]
    simp only [hrule]
    rw [h.addElement_eq]
  case h_8 hm => exact h.inMode_select_leaf (.inl hm) hadds
  case h_9 hm => exact h.inMode_select_leaf (.inr hm) hadds
  case h_10 => cases hadds

/-! ## Elements for text only -/

theorem openText_eq (h : b.StandsIn s) (reading : Reading)
    (hname : (ElementName.html name).isHtml "textarea" = false) :
    b.openText name attributes reading = b.begunText (.html name) attributes reading := by
  rw [openText, h.openElement_eq, begunText, hname, ← h.skipNewline]
  rfl

theorem bodyStart_text (h : b.StandsIn s) {reading : Reading}
    (hreading : s.flowReading? name = some reading) :
    b.bodyStart name attributes false = b.begunText (.html name) attributes reading := by
  unfold Surroundings.flowReading? at hreading
  split_ifs at hreading with hscript hescapable hraw hxmp
  · subst hscript
    obtain rfl := Option.some.inj hreading
    exact h.openText_eq .script rfl
  · obtain rfl := Option.some.inj hreading
    rcases hescapable with rfl | rfl
    · exact h.openText_eq (.escapable "title") rfl
    · have hrule : b.bodyStart "textarea" attributes false =
          { b.openText "textarea" attributes (.escapable "textarea") with skipNewline := true } :=
        rfl
      rw [hrule, openText, h.openElement_eq]
      rfl
  · obtain rfl := Option.some.inj hreading
    have hrule : ∀ name ∈ ["iframe", "noembed", "noframes", "noscript", "style"],
        b.bodyStart name attributes false = b.openText name attributes (.raw name) := by
      simp only [List.forall_mem_cons]
      exact ⟨rfl, rfl, rfl, rfl, rfl, List.forall_mem_nil _⟩
    have hplain : ∀ name ∈ ["iframe", "noembed", "noframes", "noscript", "style"],
        (ElementName.html name).isHtml "textarea" = false := by decide
    rw [List.contains_iff_mem] at hraw
    rw [hrule name hraw, h.openText_eq _ (hplain name hraw)]
  · obtain rfl := Option.some.inj hreading
    obtain ⟨rfl, hp⟩ := hxmp
    have hrule : b.bodyStart "xmp" attributes false =
        b.endParagraph.reopenFormatting.openText "xmp" attributes (.raw "xmp") := rfl
    rw [hrule, h.endParagraph_eq hp, h.reopenFormatting_eq, h.openText_eq _ rfl]

theorem flowReading?_mem {reading : Reading} (hreading : s.flowReading? name = some reading) :
    tablePartNames.contains name = false ∧ reading.IsOf name := by
  unfold Surroundings.flowReading? at hreading
  split_ifs at hreading with hscript hescapable hraw hxmp
  · obtain rfl := Option.some.inj hreading
    exact ⟨by rw [hscript]; decide, hscript⟩
  · obtain rfl := Option.some.inj hreading
    exact ⟨by rcases hescapable with rfl | rfl <;> decide, rfl⟩
  · obtain rfl := Option.some.inj hreading
    have hall : ∀ name ∈ ["iframe", "noembed", "noframes", "noscript", "style"],
        tablePartNames.contains name = false := by decide
    exact ⟨hall name (List.contains_iff_mem.mp hraw), rfl⟩
  · obtain rfl := Option.some.inj hreading
    exact ⟨by rw [hxmp.1]; decide, rfl⟩

section TextTags

variable {reading : Reading}

theorem inMode_flow_text (h : b.StandsIn s) (attributes : TagAttributes) (hflow : s.flows = true)
    (hreading : s.flowReading? name = some reading) :
    reading.IsOf name ∧ b.inMode (.startTag name attributes false) =
      done (b.begunText (.html name) attributes reading) := by
  obtain ⟨htable, hof⟩ := flowReading?_mem hreading
  rw [h.inMode_flow hflow htable, h.bodyStart_text hreading]
  exact ⟨hof, rfl⟩

theorem inMode_table_text (h : b.StandsIn s) (attributes : TagAttributes)
    (hmode : s.mode = .table ∨ s.mode = .tableBody ∨ s.mode = .row)
    (hreading : (if name = "script" then some Reading.script
      else if name = "style" then some (.raw name) else none) = some reading) :
    reading.IsOf name ∧ b.inMode (.startTag name attributes false) =
      done (b.begunText (.html name) attributes reading) := by
  split_ifs at hreading with hscript hstyle
  · subst hscript
    obtain rfl := Option.some.inj hreading
    rw [h.inMode_table hmode (by decide), ← h.openText_eq .script rfl]
    exact ⟨rfl, rfl⟩
  · subst hstyle
    obtain rfl := Option.some.inj hreading
    rw [h.inMode_table hmode (by decide), ← h.openText_eq (.raw "style") rfl]
    exact ⟨rfl, rfl⟩

theorem inMode_select_text (h : b.StandsIn s) (attributes : TagAttributes)
    (hmode : s.mode = .select ∨ s.mode = .selectInTable)
    (hreading : (if name = "script" then some Reading.script else none) = some reading) :
    reading.IsOf name ∧ b.inMode (.startTag name attributes false) =
      done (b.begunText (.html name) attributes reading) := by
  split_ifs at hreading with hscript
  subst hscript
  obtain rfl := Option.some.inj hreading
  rw [h.inMode_select hmode (by decide), ← h.openText_eq .script rfl]
  exact ⟨rfl, rfl⟩

/-- **The start tag of an element for text only opens the element for text.** -/
theorem deals_begunText (h : b.StandsIn s) (attributes : TagAttributes)
    (hreads : s.readsForeign name = false) (hreading : s.textReading? (.html name) = some reading) :
    reading.IsOf name ∧
      b.Deals (.startTag name attributes false) (b.begunText (.html name) attributes reading) := by
  have hname : (ElementName.html name).name = name := rfl
  have hlanguage : ¬((ElementName.html name).language != .html) = true := Bool.false_ne_true
  suffices hmode : reading.IsOf name ∧ b.inMode (.startTag name attributes false) =
      done (b.begunText (.html name) attributes reading) from
    ⟨hmode.1, h.deals_of_inMode hreads hmode.2⟩
  unfold Surroundings.textReading? at hreading
  rw [if_neg hlanguage, hname] at hreading
  split at hreading
  case h_1 hm => exact h.inMode_flow_text _ (Surroundings.flows_iff.mpr (.inl hm)) hreading
  case h_2 hm => exact h.inMode_flow_text _ (Surroundings.flows_iff.mpr (.inr (.inl hm))) hreading
  case h_3 hm => exact h.inMode_flow_text _ (Surroundings.flows_iff.mpr (.inr (.inr hm))) hreading
  case h_4 hm => exact h.inMode_table_text _ (.inl hm) hreading
  case h_5 hm => exact h.inMode_table_text _ (.inr (.inl hm)) hreading
  case h_6 hm => exact h.inMode_table_text _ (.inr (.inr hm)) hreading
  case h_7 hm => exact h.inMode_select_text _ (.inl hm) hreading
  case h_8 hm => exact h.inMode_select_text _ (.inr hm) hreading
  case h_9 => cases hreading

end TextTags

/-! ## Templates -/

/-- **The start tag of a template opens it**, wherever markup proper is read. -/
theorem deals_template (h : b.StandsIn s) (attributes : TagAttributes)
    (hreads : s.readsForeign "template" = false) :
    b.Deals (.startTag "template" attributes false) (b.sheltering attributes) := by
  have hopen : b.startTemplate attributes = b.sheltering attributes := by
    rw [startTemplate, h.openElement_eq]
    rfl
  have hmodes := modeOf_ne h.noTemplate
  refine h.deals_of_inMode hreads ?_
  rw [← hopen]
  have hflow : s.flows = true → b.inMode (.startTag "template" attributes false) =
      done (b.startTemplate attributes) := fun hflow => h.inMode_flow hflow (by decide)
  cases hm : s.mode with
  | body => exact hflow (Surroundings.flows_iff.mpr (.inl hm))
  | cell => exact hflow (Surroundings.flows_iff.mpr (.inr (.inl hm)))
  | caption => exact hflow (Surroundings.flows_iff.mpr (.inr (.inr hm)))
  | table => exact h.inMode_table (.inl hm) (by decide)
  | tableBody => exact h.inMode_table (.inr (.inl hm)) (by decide)
  | row => exact h.inMode_table (.inr (.inr hm)) (by decide)
  | columnGroup =>
      rw [inMode, h.mode, hm]
      rfl
  | select => exact h.inMode_select (.inl hm) (by decide)
  | selectInTable => exact h.inMode_select (.inr hm) (by decide)
  | text => exact absurd hm hmodes.1
  | tableText => exact absurd hm hmodes.2.1
  | template => exact absurd hm hmodes.2.2

end StandsIn

end Builder

end CustomElements.Markup
