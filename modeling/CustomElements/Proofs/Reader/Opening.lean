import CustomElements.Proofs.Reader.Entering

/-!
# Start tags that only open their element

Where `opens` says so, a start tag has one effect in each of the modes: its element is opened
(`Builder.begun`), and nothing else is opened or closed.
-/

namespace CustomElements.Markup

open Builder (TagAttributes)

namespace Builder

namespace StandsIn

variable {s : Surroundings} {b : Builder}

/-! ## Start tags in a body -/

theorem openFormatting_eq_begun (h : b.StandsIn s) {name : String} {attributes : TagAttributes}
    (hname : name ∈ "a" :: "nobr" :: formattingNames)
    (hcount : s.countLike name attributes < 3) :
    b.openFormatting name attributes = b.begun (.html name) attributes := by
  have hall : ∀ name ∈ "a" :: "nobr" :: formattingNames, (ElementName.html name).isHtmlOf
      (modeNames ++ markerNames ++ ["form", "pre", "listing"]) = false := by decide
  have hn := hall name hname
  have hformatting : (ElementName.html name).isHtmlOf ("a" :: "nobr" :: formattingNames) = true :=
    List.contains_iff_mem.mpr hname
  have hmode := h.mode_cons (isHtmlOf_eq_false hn (show ∀ name ∈ modeNames, _ by decide))
  have hentries : entriesFor (.html name) attributes b.grove.cells.size =
      [.element b.grove.cells.size name attributes] := by
    rw [entriesFor, isHtmlOf_eq_false hn (by decide), hformatting]
    rfl
  rw [openFormatting, h.limitLike_eq hcount, h.openElement_eq,
    h.begun_eq_enter _ (isHtmlOf_eq_false hn (by decide)), Builder.enter]
  simp only [show adjusted (ElementName.html name).language attributes = attributes from rfl]
  rw [hmode, hentries, isHtml_eq_false hn (by decide)]
  rfl

theorem countLike_eq_zero {name : String}
    (hnone : (s.recent.all fun e => e.all fun e => e.1 != name) = true)
    (attributes : TagAttributes) : s.countLike name attributes = 0 := by
  rw [Surroundings.countLike, List.countP_eq_zero]
  intro e he
  have hname := List.all_eq_true.mp hnone e he
  cases e with
  | none => simp
  | some e =>
      have hne : ¬e.1 = name := by simpa using hname
      simp [hne]

/-- A start tag without a rule of its own opens its element. -/
theorem bodyStart_other (b : Builder) {name : String} (attributes : TagAttributes)
    (h : ruledNames.contains name = false) :
    b.bodyStart name attributes false = b.startOther name attributes := by
  have hne : ∀ n ∈ ruledNames, name ≠ n := fun n => ne_of_contains_eq_false h
  have hnot : ∀ some : List String, (∀ n ∈ some, n ∈ ruledNames) → some.contains name = false :=
    fun some => contains_eq_false h
  have hleaf : b.startLeaf? name attributes = none := by
    rw [startLeaf?, hnot headNames (by decide), hnot _ (by decide), hnot _ (by decide),
      hnot _ (by decide)]
    simp only [if_neg (hne "hr" (by decide)), if_neg (hne "image" (by decide)),
      if_neg (hne "textarea" (by decide)), if_neg (hne "xmp" (by decide)), Bool.false_eq_true,
      if_false]
  have hformatting : b.startFormatting? name attributes = none := by
    rw [startFormatting?, hnot formattingNames (by decide)]
    simp only [if_neg (hne "a" (by decide)), if_neg (hne "nobr" (by decide)), Bool.false_eq_true,
      if_false]
  rw [bodyStart, hleaf, hformatting, hnot blockNames (by decide),
    hnot ElementName.headings (by decide), hnot objectNames (by decide),
    hnot strayNames (by decide)]
  simp only [Option.or_none, Bool.false_or, Bool.or_eq_true, decide_eq_true_eq, Bool.false_eq_true,
    if_false, hne "p" (by decide), hne "pre" (by decide), hne "listing" (by decide),
    hne "form" (by decide), hne "li" (by decide), hne "dd" (by decide), hne "dt" (by decide),
    hne "plaintext" (by decide), hne "button" (by decide), hne "table" (by decide),
    hne "select" (by decide), hne "optgroup" (by decide), hne "option" (by decide),
    hne "rb" (by decide), hne "rtc" (by decide), hne "rp" (by decide), hne "rt" (by decide),
    hne "math" (by decide), hne "svg" (by decide), or_self]

theorem bodyStart_formatting (h : b.StandsIn s) {name : String} {attributes : TagAttributes}
    (hname : name ∈ formattingNames) (hcount : s.countLike name attributes < 3) :
    b.bodyStart name attributes false = b.begun (.html name) attributes := by
  have hrule : ∀ name ∈ formattingNames, b.bodyStart name attributes false =
      b.reopenFormatting.openFormatting name attributes := by
    simp only [formattingNames, List.forall_mem_cons]
    exact ⟨rfl, rfl, rfl, rfl, rfl, rfl, rfl, rfl, rfl, rfl, rfl, rfl, List.forall_mem_nil _⟩
  rw [hrule name hname, h.reopenFormatting_eq,
    h.openFormatting_eq_begun (List.mem_cons_of_mem _ (List.mem_cons_of_mem _ hname)) hcount]

theorem bodyStart_a (h : b.StandsIn s) {attributes : TagAttributes}
    (hlink : (s.recent.all fun e => e.all fun e => e.1 != "a") = true) :
    b.bodyStart "a" attributes false = b.begun (.html "a") attributes := by
  have hrule : b.bodyStart "a" attributes false =
      b.endLink.reopenFormatting.openFormatting "a" attributes := rfl
  rw [hrule, h.endLink_eq hlink, h.reopenFormatting_eq,
    h.openFormatting_eq_begun List.mem_cons_self (by rw [countLike_eq_zero hlink]; decide)]

theorem bodyStart_nobr (h : b.StandsIn s) {attributes : TagAttributes}
    (hscope : s.inScope ElementName.boundsScope (·.isHtml "nobr") = false)
    (hcount : s.countLike "nobr" attributes < 3) :
    b.bodyStart "nobr" attributes false = b.begun (.html "nobr") attributes := by
  have hrule : b.bodyStart "nobr" attributes false =
      (if b.reopenFormatting.inScope ElementName.boundsScope "nobr" then
        (b.reopenFormatting.endFormatting "nobr").reopenFormatting
      else b.reopenFormatting).openFormatting "nobr" attributes := rfl
  rw [hrule, h.reopenFormatting_eq, h.inScope_eq, hscope, if_neg Bool.false_ne_true,
    h.openFormatting_eq_begun (by decide) hcount]

theorem bodyStart_block (h : b.StandsIn s) {name : String} (attributes : TagAttributes)
    (hname : name ∈ "p" :: blockNames) (hp : s.inParagraph = false) :
    b.bodyStart name attributes false = b.begun (.html name) attributes := by
  have hrule : ∀ name ∈ "p" :: blockNames, b.bodyStart name attributes false =
      b.endParagraph.openElement name attributes := by
    simp only [blockNames, List.forall_mem_cons]
    exact ⟨rfl, rfl, rfl, rfl, rfl, rfl, rfl, rfl, rfl, rfl, rfl, rfl, rfl, rfl, rfl, rfl, rfl, rfl,
      rfl, rfl, rfl, rfl, rfl, rfl, rfl, List.forall_mem_nil _⟩
  have hplain : ∀ name ∈ "p" :: blockNames, specialNames.contains name = false := by decide
  rw [hrule name hname, h.endParagraph_eq hp, h.openElement_eq_begun attributes (hplain name hname)]

theorem bodyStart_pre (h : b.StandsIn s) {name : String} (attributes : TagAttributes)
    (hname : name ∈ ["pre", "listing"]) (hp : s.inParagraph = false) :
    b.bodyStart name attributes false = b.begun (.html name) attributes := by
  have hrule : ∀ name ∈ ["pre", "listing"], b.bodyStart name attributes false =
      { b.endParagraph.openElement name attributes with skipNewline := true } := by
    simp only [List.forall_mem_cons]
    exact ⟨rfl, rfl, List.forall_mem_nil _⟩
  have hplain : ∀ name ∈ ["pre", "listing"],
      (ElementName.html name).isHtmlOf modeNames = false := by decide
  rw [hrule name hname, h.endParagraph_eq hp, h.openElement_eq, begun, Builder.enter,
    h.mode_cons (hplain name hname)]
  simp only [List.mem_cons, List.not_mem_nil, or_false] at hname
  rcases hname with rfl | rfl <;> rfl

theorem bodyStart_table (h : b.StandsIn s) (attributes : TagAttributes)
    (hp : s.inParagraph = false) :
    b.bodyStart "table" attributes false = b.begun (.html "table") attributes := by
  have hrule : b.bodyStart "table" attributes false =
      { b.endParagraph.openElement "table" attributes with mode := .table } := rfl
  have hmode : modeOf (.html "table" :: b.stack.map b.name) = .table :=
    h.mode_own fun _ _ => rfl
  rw [hrule, h.endParagraph_eq hp, h.openElement_eq, h.begun_eq_enter _ rfl, Builder.enter, hmode]
  rfl

theorem bodyStart_heading (h : b.StandsIn s) {name : String} (attributes : TagAttributes)
    (hname : name ∈ ElementName.headings) (hp : s.inParagraph = false)
    (hheading : s.current.isHtmlOf ElementName.headings = false) :
    b.bodyStart name attributes false = b.begun (.html name) attributes := by
  have hrule : ∀ name ∈ ElementName.headings, b.bodyStart name attributes false =
      (if b.endParagraph.currentName.isHtmlOf ElementName.headings then b.endParagraph.pop
        else b.endParagraph).openElement name attributes := by
    simp only [ElementName.headings, List.forall_mem_cons]
    exact ⟨rfl, rfl, rfl, rfl, rfl, rfl, List.forall_mem_nil _⟩
  have hplain : ∀ name ∈ ElementName.headings, specialNames.contains name = false := by decide
  rw [hrule name hname, h.endParagraph_eq hp, h.currentName_eq, hheading,
    if_neg Bool.false_ne_true, h.openElement_eq_begun attributes (hplain name hname)]

theorem bodyStart_form (h : b.StandsIn s) (attributes : TagAttributes)
    (hform : s.form = false) (hp : s.inParagraph = false) :
    b.bodyStart "form" attributes false = b.begun (.html "form") attributes := by
  have hrule : b.bodyStart "form" attributes false = b.startForm attributes := rfl
  have hnone : b.form.isSome = false := h.form.trans hform
  rw [hrule, startForm, h.isOpen_template, hnone, h.endParagraph_eq hp, h.openElement_eq,
    h.begun_eq_enter _ rfl, Builder.enter, h.mode_cons rfl]
  rfl

theorem bodyStart_item (h : b.StandsIn s) {name : String} (attributes : TagAttributes)
    {names : List String} (hname : name = "li" ∧ names = ["li"] ∨
      (name = "dd" ∨ name = "dt") ∧ names = ["dd", "dt"])
    (hitem : s.inItem names = false) (hp : s.inParagraph = false) :
    b.bodyStart name attributes false = b.begun (.html name) attributes := by
  have hrule : b.bodyStart name attributes false =
      (b.endItem names).endParagraph.openElement name attributes ∧
        specialNames.contains name = false := by
    rcases hname with ⟨rfl, rfl⟩ | ⟨rfl | rfl, rfl⟩
    · exact ⟨rfl, by decide⟩
    · exact ⟨rfl, by decide⟩
    · exact ⟨rfl, by decide⟩
  rw [hrule.1, h.endItem_eq hitem, h.endParagraph_eq hp, h.openElement_eq_begun _ hrule.2]

theorem bodyStart_button (h : b.StandsIn s) (attributes : TagAttributes)
    (hscope : s.inScope ElementName.boundsScope (·.isHtml "button") = false) :
    b.bodyStart "button" attributes false = b.begun (.html "button") attributes := by
  have hrule : b.bodyStart "button" attributes false =
      (if b.inScope ElementName.boundsScope "button" then b.closeAllImplied.popNamed "button"
        else b).startOther "button" attributes := rfl
  rw [hrule, h.inScope_eq, hscope, if_neg Bool.false_ne_true, startOther, h.reopenFormatting_eq,
    h.openElement_eq_begun _ (by decide)]

theorem bodyStart_select (h : b.StandsIn s) (attributes : TagAttributes)
    (hmode : s.mode = .body ∨ s.mode = .cell ∨ s.mode = .caption)
    (htable : ((s.mode != .body) == s.names.any (·.isHtml "table")) = true) :
    b.bodyStart "select" attributes false = b.begun (.html "select") attributes := by
  have hrule : b.bodyStart "select" attributes false = b.startSelect attributes := rfl
  obtain ⟨rest, hnames⟩ := h.names_eq
  -- the start tag asks for the mode, a later reset for the open elements
  have hselect : modeOf (.html "select" :: b.stack.map b.name) =
      if s.mode = .body then .select else .selectInTable := by
    have hmodeOf : modeOf (.html "select" :: s.names) = selectModeOf s.names := by
      rw [hnames]
      rfl
    rw [h.names, hmodeOf, selectModeOf_eq h.noTemplate, ← beq_iff_eq.mp htable]
    rcases hmode with hm | hm | hm <;> rw [hm] <;> rfl
  rw [hrule, startSelect, h.reopenFormatting_eq, h.openElement_eq, h.begun_eq_enter _ rfl,
    Builder.enter, hselect, h.mode]
  rcases hmode with hm | hm | hm <;> rw [hm] <;> rfl

theorem bodyStart_option (h : b.StandsIn s) {name : String} (attributes : TagAttributes)
    (hname : name = "optgroup" ∨ name = "option") (hoption : s.current.isHtml "option" = false) :
    b.bodyStart name attributes false = b.begun (.html name) attributes := by
  have hrule : b.bodyStart name attributes false =
      (b.popIf "option").startOther name attributes ∧ specialNames.contains name = false := by
    rcases hname with rfl | rfl
    · exact ⟨rfl, by decide⟩
    · exact ⟨rfl, by decide⟩
  rw [hrule.1, h.popIf_eq hoption, startOther, h.reopenFormatting_eq,
    h.openElement_eq_begun _ hrule.2]

theorem bodyStart_ruby (h : b.StandsIn s) {name : String} (attributes : TagAttributes)
    {except : String} (hname : (name = "rb" ∨ name = "rtc") ∧ except = "" ∨
      (name = "rp" ∨ name = "rt") ∧ except = "rtc")
    (hruby : s.inRuby = false ∨ s.current.endsByItself = false ∨ s.current.isHtml except = true) :
    b.bodyStart name attributes false = b.begun (.html name) attributes := by
  have hrule : b.bodyStart name attributes false =
      (if b.inScope ElementName.boundsScope "ruby" then b.closeImplied except
        else b).openElement name attributes ∧ specialNames.contains name = false := by
    rcases hname with ⟨rfl | rfl, rfl⟩ | ⟨rfl | rfl, rfl⟩
    · exact ⟨rfl, by decide⟩
    · exact ⟨rfl, by decide⟩
    · exact ⟨rfl, by decide⟩
    · exact ⟨rfl, by decide⟩
  have hsame : (if b.inScope ElementName.boundsScope "ruby" then b.closeImplied except else b) =
      b := by
    rw [h.inScope_eq]
    rcases hruby with hruby | hruby
    · exact if_neg (by rw [← Surroundings.inRuby, hruby]; exact Bool.false_ne_true)
    · rw [h.closeImplied_eq hruby, ite_self]
  rw [hrule.1, hsame, h.openElement_eq_begun _ hrule.2]

theorem bodyStart_object (h : b.StandsIn s) {name : String} (attributes : TagAttributes)
    (hname : name ∈ objectNames) :
    b.bodyStart name attributes false = b.begun (.html name) attributes := by
  have hrule : ∀ name ∈ objectNames, b.bodyStart name attributes false =
      (b.startOther name attributes).mark := by
    simp only [objectNames, List.forall_mem_cons]
    exact ⟨rfl, rfl, rfl, List.forall_mem_nil _⟩
  rw [hrule name hname, startOther, h.reopenFormatting_eq, h.openElement_eq]
  simp only [objectNames, List.mem_cons, List.not_mem_nil, or_false] at hname
  rcases hname with rfl | rfl | rfl
  all_goals
    rw [h.begun_eq_enter _ rfl, Builder.enter, h.mode_cons rfl]
    rfl

/-- The start of a drawing or of a formula. -/
theorem bodyStart_embedded (h : b.StandsIn s) (attributes : TagAttributes) {name : String}
    (hname : name = "svg" ∨ name = "math") :
    b.bodyStart name attributes false = b.begun (flowElement name) attributes := by
  rcases hname with rfl | rfl
  · have hrule : b.bodyStart "svg" attributes false =
        b.reopenFormatting.openForeign .svg "svg" attributes false := rfl
    rw [hrule, h.reopenFormatting_eq, h.openForeign_eq, h.begun_eq_enter _ rfl, h.enter_eq _ rfl]
    rfl
  · have hrule : b.bodyStart "math" attributes false =
        b.reopenFormatting.openForeign .mathml "math" attributes false := rfl
    rw [hrule, h.reopenFormatting_eq, h.openForeign_eq, h.begun_eq_enter _ rfl, h.enter_eq _ rfl]
    rfl

/-- **In a body, a start tag that may be read again only opens its element.** -/
theorem bodyStart_eq_begun (h : b.StandsIn s) {name : String} {attributes : TagAttributes}
    (hflow : s.flows = true) (hopens : s.OpensInFlow name attributes) :
    b.bodyStart name attributes false = b.begun (flowElement name) attributes := by
  rw [Surroundings.flows_iff] at hflow
  cases hopens with
  | link hlink => exact h.bodyStart_a hlink
  | nobr hscope hcount => exact h.bodyStart_nobr hscope hcount
  | formatting hname hcount =>
      have hhtml : ∀ name ∈ formattingNames, flowElement name = .html name := by decide
      rw [hhtml name hname, h.bodyStart_formatting hname hcount]
  | block hname hp =>
      have hhtml : ∀ name ∈ "p" :: blockNames, flowElement name = .html name := by decide
      rw [hhtml name hname, h.bodyStart_block _ hname hp]
  | pre hname hp =>
      have hhtml : ∀ name ∈ ["pre", "listing"], flowElement name = .html name := by decide
      rw [hhtml name hname, h.bodyStart_pre _ hname hp]
  | table hp => exact h.bodyStart_table _ hp
  | heading hname hp hheading =>
      have hhtml : ∀ name ∈ ElementName.headings, flowElement name = .html name := by decide
      rw [hhtml name hname, h.bodyStart_heading _ hname hp hheading]
  | form hform hp => exact h.bodyStart_form _ hform hp
  | item hname hitem hp =>
      have hhtml : flowElement name = .html name := by
        rcases hname with ⟨rfl, -⟩ | ⟨rfl | rfl, -⟩ <;> rfl
      rw [hhtml, h.bodyStart_item _ hname hitem hp]
  | button hscope => exact h.bodyStart_button _ hscope
  | select htable => exact h.bodyStart_select _ hflow htable
  | option hname hoption =>
      have hhtml : flowElement name = .html name := by rcases hname with rfl | rfl <;> rfl
      rw [hhtml, h.bodyStart_option _ hname hoption]
  | ruby hname hruby =>
      have hhtml : flowElement name = .html name := by
        rcases hname with ⟨rfl | rfl, -⟩ | ⟨rfl | rfl, -⟩ <;> rfl
      rw [hhtml, h.bodyStart_ruby _ hname hruby]
  | object hname =>
      have hhtml : ∀ name ∈ objectNames, flowElement name = .html name := by decide
      rw [hhtml name hname, h.bodyStart_object _ hname]
  | embedded hname => exact h.bodyStart_embedded _ hname
  | other hname =>
      have hhtml : flowElement name = .html name := by
        rw [flowElement, if_neg (ne_of_contains_eq_false hname (by decide)),
          if_neg (ne_of_contains_eq_false hname (by decide))]
      rw [hhtml, bodyStart_other b _ hname, startOther, h.reopenFormatting_eq,
        h.openElement_eq_begun _ (contains_eq_false hname (by decide))]

/-! ## Start tags in tables and selection lists -/

theorem openElement_mark (h : b.StandsIn s) (name : String) (attributes : TagAttributes) :
    b.mark.openElement name attributes =
      { b.attach (.element (.html name) attributes) with
        stack := b.grove.cells.size :: b.stack
        formatting := .marker :: b.formatting } := by
  have hfostering : b.mark.fostering = false := h.fostering
  rw [openElement, insertElement, placeFor, hfostering]
  rfl

theorem inTable_start (h : b.StandsIn s) {name : String} (attributes : TagAttributes)
    (hcurrent : s.current.isHtml "table" = true)
    (hname : name ∈ ["caption", "colgroup", "tbody", "tfoot", "thead"]) :
    b.inTable (.startTag name attributes false) = done (b.begun (.html name) attributes) := by
  have hpop : b.popWhileNot ElementName.boundsTableScope = b :=
    h.popWhileNot_eq (isHtmlOf_of_isHtml hcurrent (by decide))
  simp only [List.mem_cons, List.not_mem_nil, or_false] at hname
  rcases hname with rfl | rfl | hname
  case inl =>
    have hrule : b.inTable (.startTag "caption" attributes false) =
        done { (b.popWhileNot ElementName.boundsTableScope).mark.openElement "caption"
          attributes with mode := .caption } := rfl
    have hmode : modeOf (.html "caption" :: b.stack.map b.name) = .caption :=
      h.mode_own fun _ _ => rfl
    rw [hrule, hpop, h.openElement_mark, h.begun_eq_enter _ rfl, Builder.enter, hmode]
    rfl
  case inr.inl =>
    have hrule : b.inTable (.startTag "colgroup" attributes false) =
        done { (b.popWhileNot ElementName.boundsTableScope).openElement "colgroup" attributes with
          mode := .columnGroup } := rfl
    have hmode : modeOf (.html "colgroup" :: b.stack.map b.name) = .columnGroup :=
      h.mode_own fun _ _ => rfl
    rw [hrule, hpop, h.openElement_eq, h.begun_eq_enter _ rfl, Builder.enter, hmode]
    rfl
  case inr.inr =>
    have hrule : b.inTable (.startTag name attributes false) =
        done { (b.popWhileNot ElementName.boundsTableScope).openElement name attributes with
          mode := .tableBody } := by
      rcases hname with rfl | rfl | rfl <;> rfl
    rw [hrule, hpop, h.openElement_eq]
    rcases hname with rfl | rfl | rfl
    all_goals
      rw [h.begun_eq_enter _ rfl, Builder.enter, h.mode_own (fun _ _ => rfl)]
      rfl

theorem inTableBody_start (h : b.StandsIn s) (attributes : TagAttributes)
    (hcurrent : s.current.isHtmlOf ["tbody", "tfoot", "thead"] = true) :
    b.inTableBody (.startTag "tr" attributes false) = done (b.begun (.html "tr") attributes) := by
  have hpop : b.popWhileNot boundsRows = b :=
    h.popWhileNot_eq (isHtmlOf_mono hcurrent (by decide))
  have hrule : b.inTableBody (.startTag "tr" attributes false) =
      done { (b.popWhileNot boundsRows).openElement "tr" attributes with mode := .row } := rfl
  have hmode : modeOf (.html "tr" :: b.stack.map b.name) = .row := h.mode_own fun _ _ => rfl
  rw [hrule, hpop, h.openElement_eq, h.begun_eq_enter _ rfl, Builder.enter, hmode]
  rfl

theorem inRow_start (h : b.StandsIn s) {name : String} (attributes : TagAttributes)
    (hcurrent : s.current.isHtml "tr" = true) (hname : name ∈ ["td", "th"]) :
    b.inRow (.startTag name attributes false) = done (b.begun (.html name) attributes) := by
  have hpop : b.popWhileNot boundsCells = b :=
    h.popWhileNot_eq (isHtmlOf_of_isHtml hcurrent (by decide))
  simp only [List.mem_cons, List.not_mem_nil, or_false] at hname
  have hrule : b.inRow (.startTag name attributes false) =
      done { ((b.popWhileNot boundsCells).openElement name attributes).mark with
        mode := .cell } := by
    rcases hname with rfl | rfl <;> rfl
  rw [hrule, hpop, h.openElement_eq]
  rcases hname with rfl | rfl
  all_goals
    rw [h.begun_eq_enter _ rfl, Builder.enter, h.mode_own (fun _ _ => rfl)]
    rfl

theorem inSelect_start (h : b.StandsIn s) {name : String} (attributes : TagAttributes)
    (hname : name = "option" ∧ s.current.isHtml "option" = false ∨
      name = "optgroup" ∧ s.current.isHtmlOf ["optgroup", "option"] = false) :
    b.inSelect (.startTag name attributes false) = done (b.begun (.html name) attributes) := by
  rcases hname with ⟨rfl, hoption⟩ | ⟨rfl, hoption⟩
  · have hrule : b.inSelect (.startTag "option" attributes false) =
        done ((b.popIf "option").openElement "option" attributes) := rfl
    rw [hrule, h.popIf_eq hoption, h.openElement_eq_begun _ (by decide)]
  · have hrule : b.inSelect (.startTag "optgroup" attributes false) =
        done (((b.popIf "option").popIf "optgroup").openElement "optgroup" attributes) := rfl
    rw [hrule, h.popIf_eq (isHtml_eq_false hoption (by decide)),
      h.popIf_eq (isHtml_eq_false hoption (by decide)), h.openElement_eq_begun _ (by decide)]

/-! ## Start tags in all modes -/

theorem inForeign_start (h : b.StandsIn s) {name : String} {attributes : TagAttributes}
    (hforeign : s.readsForeign (readName name) = true)
    (hname : adjustedName s.current.language (readName name) = name)
    (hbreaks : breaksOut (readName name) attributes = false) :
    b.inForeign (.startTag (readName name) attributes false) =
      done (b.begun ⟨s.current.language, name⟩ attributes) := by
  have hlanguage : (s.current.language == .html) = false := by
    rw [Surroundings.readsForeign, Bool.and_eq_true, bne, Bool.not_eq_true'] at hforeign
    exact hforeign.1
  have hplain : ∀ names, (ElementName.mk s.current.language name).isHtmlOf names = false :=
    fun names => by rw [ElementName.isHtmlOf, hlanguage, Bool.false_and]
  have hadjusted : adjusted s.current.language attributes =
      adjustedAttributes s.current.language attributes :=
    if_neg (beq_eq_false_iff_ne.mp hlanguage)
  have hrule : b.inForeign (.startTag (readName name) attributes false) =
      if breaksOut (readName name) attributes then
        b.leaveForeign.inMode (.startTag (readName name) attributes false)
      else done (b.openForeign b.currentName.language
        (adjustedName b.currentName.language (readName name)) attributes false) := rfl
  rw [hrule, hbreaks, if_neg Bool.false_ne_true, h.currentName_eq, hname, h.openForeign_eq,
    h.begun_eq_enter _ (hplain _), h.enter_eq _ (hplain _), hadjusted]

theorem inMode_flow (h : b.StandsIn s) {name : String} {attributes : TagAttributes}
    (hflow : s.flows = true) (hname : tablePartNames.contains name = false) :
    b.inMode (.startTag name attributes false) = done (b.bodyStart name attributes false) := by
  rw [Surroundings.flows_iff] at hflow
  rw [inMode, h.mode]
  rcases hflow with hm | hm | hm
  · rw [hm]
    rfl
  · rw [hm]
    simp only [inCell, hname, Bool.false_eq_true, if_false]
    rfl
  · rw [hm]
    simp only [inCaption, hname, Bool.false_eq_true, if_false]
    rfl

theorem tablePartNames_contains {name : String} {attributes : TagAttributes}
    (hopens : s.OpensInFlow name attributes) : tablePartNames.contains name = false := by
  have hnone : ∀ {names : List String}, name ∈ names →
      (∀ n ∈ names, tablePartNames.contains n = false) → tablePartNames.contains name = false :=
    fun hname hall => hall name hname
  cases hopens with
  | link => decide
  | nobr => decide
  | formatting hname => exact hnone hname (by decide)
  | block hname => exact hnone hname (by decide)
  | pre hname => exact hnone hname (by decide)
  | table => decide
  | heading hname => exact hnone hname (by decide)
  | form => decide
  | item hname => rcases hname with ⟨rfl, -⟩ | ⟨rfl | rfl, -⟩ <;> decide
  | button => decide
  | select => decide
  | option hname => rcases hname with rfl | rfl <;> decide
  | ruby hname => rcases hname with ⟨rfl | rfl, -⟩ | ⟨rfl | rfl, -⟩ <;> decide
  | object hname => exact hnone hname (by decide)
  | embedded hname => rcases hname with rfl | rfl <;> decide
  | other hname => exact contains_eq_false hname (by decide)

theorem inMode_flow_start (h : b.StandsIn s) {name : String} {attributes : TagAttributes}
    (hflow : s.flows = true) (hopens : s.opensInFlow name attributes = true) :
    b.inMode (.startTag name attributes false) =
      done (b.begun (flowElement name) attributes) := by
  have hspec := Surroundings.opensInFlow_spec hopens
  rw [h.inMode_flow hflow (tablePartNames_contains hspec), h.bodyStart_eq_begun hflow hspec]

theorem inMode_select_start (h : b.StandsIn s) {name : String} {attributes : TagAttributes}
    (hmode : s.mode = .select ∨ s.mode = .selectInTable)
    (hname : name = "option" ∧ s.current.isHtml "option" = false ∨
      name = "optgroup" ∧ s.current.isHtmlOf ["optgroup", "option"] = false) :
    b.inMode (.startTag name attributes false) =
      done (b.begun (flowElement name) attributes) := by
  have hhtml : flowElement name = .html name ∧ endsSelectNames.contains name = false := by
    rcases hname with ⟨rfl, -⟩ | ⟨rfl, -⟩
    · exact ⟨rfl, by decide⟩
    · exact ⟨rfl, by decide⟩
  rw [hhtml.1, ← h.inSelect_start attributes hname, inMode, h.mode]
  rcases hmode with hm | hm
  · rw [hm]
  · rw [hm]
    simp only [inSelectInTable, hhtml.2, Bool.false_eq_true, if_false]

theorem element_name (s : Surroundings) (name : String) : (s.element name).name = name := by
  unfold Surroundings.element flowElement
  split_ifs <;> rfl

theorem readName_of_flowElement {name : String}
    (hname : adjustedName (flowElement name).language (readName name) = name) :
    readName name = name := by
  unfold flowElement at hname
  split_ifs at hname with hsvg hmath
  · rw [hsvg]
    decide
  · rw [hmath]
    decide
  · exact hname

/-- **A start tag that may be read again only opens its element.** -/
theorem deals_start (h : b.StandsIn s) {name : String} {attributes : TagAttributes}
    (hname : adjustedName (s.element name).language (readName name) = name)
    (hopens : s.opens (s.element name) attributes = true) :
    b.Deals (.startTag (readName name) attributes false)
      (b.begun (s.element name) attributes) := by
  unfold Surroundings.opens at hopens
  rw [element_name] at hopens
  rw [Deals, h.isForeign_startTag]
  cases hforeign : s.readsForeign (readName name) with
  | true =>
      simp only [hforeign, if_true, Bool.not_eq_true'] at hopens
      rw [Surroundings.element, hforeign, if_pos rfl] at hname ⊢
      rw [if_pos rfl]
      exact h.inForeign_start hforeign hname hopens
  | false =>
      simp only [hforeign, Bool.false_eq_true, if_false] at hopens
      rw [Surroundings.element, hforeign, if_neg Bool.false_ne_true] at hname ⊢
      rw [if_neg Bool.false_ne_true]
      rw [readName_of_flowElement hname] at hopens ⊢
      split at hopens
      case h_1 hm => exact h.inMode_flow_start (Surroundings.flows_iff.mpr (.inl hm)) hopens
      case h_2 hm =>
        exact h.inMode_flow_start (Surroundings.flows_iff.mpr (.inr (.inl hm))) hopens
      case h_3 hm =>
        exact h.inMode_flow_start (Surroundings.flows_iff.mpr (.inr (.inr hm))) hopens
      case h_4 hm =>
        rw [Bool.and_eq_true, List.contains_iff_mem] at hopens
        have hhtml : ∀ name ∈ ["caption", "colgroup", "tbody", "tfoot", "thead"],
            flowElement name = .html name := by decide
        rw [inMode, h.mode, hm, hhtml name hopens.2]
        exact h.inTable_start attributes hopens.1 hopens.2
      case h_5 hm =>
        rw [Bool.and_eq_true, beq_iff_eq] at hopens
        rw [inMode, h.mode, hm, hopens.2]
        exact h.inTableBody_start attributes hopens.1
      case h_6 hm =>
        rw [Bool.and_eq_true, List.contains_iff_mem] at hopens
        have hhtml : ∀ name ∈ ["td", "th"], flowElement name = .html name := by decide
        rw [inMode, h.mode, hm, hhtml name hopens.2]
        exact h.inRow_start attributes hopens.1 hopens.2
      case h_7 hm =>
        rw [Bool.or_eq_true, Bool.and_eq_true, Bool.and_eq_true, beq_iff_eq, beq_iff_eq,
          Bool.not_eq_true', Bool.not_eq_true'] at hopens
        exact h.inMode_select_start (.inl hm) hopens
      case h_8 hm =>
        rw [Bool.or_eq_true, Bool.and_eq_true, Bool.and_eq_true, beq_iff_eq, beq_iff_eq,
          Bool.not_eq_true', Bool.not_eq_true'] at hopens
        exact h.inMode_select_start (.inr hm) hopens
      case h_9 => cases hopens

end StandsIn

end Builder

end CustomElements.Markup
