import CustomElements.Proofs.Reader.Opening

/-!
# End tags in a body

The end tag of the innermost open element closes that element alone. Inside an element that was only
opened, whatever has grown there, this leads back to where it was opened: the formatting elements,
the mode and the open form are again what they were.
-/

namespace CustomElements.Markup

open Builder (TagAttributes)

namespace Builder

/-- The reader after something has grown, and after text has been read in some mode. -/
def regrown (b : Builder) (g : Grove) (mode : Mode) : Builder :=
  { b with grove := g, returnMode := mode }

namespace StandsIn

variable {s : Surroundings} {b : Builder} {p : ElementName → Bool}

/-! ## The innermost open element is the one that is looked for -/

theorem inScope_current (h : b.StandsIn s) (bounds : ElementName → Bool)
    (hp : p s.current = true) : s.inScope bounds p = true := by
  obtain ⟨rest, hnames⟩ := h.names_eq
  rw [Surroundings.inScope, hnames, List.find?_cons_of_pos (by simp [hp])]
  exact hp

theorem popThrough_eq (h : b.StandsIn s) (hp : p s.current = true) : b.popThrough p = b.pop := by
  rw [popThrough, h.dropWhile_stack (p := fun n => !p n) (by simp [hp]), pop]

theorem popNamed_eq (h : b.StandsIn s) {name : String} (hname : s.current.isHtml name = true) :
    b.popNamed name = b.pop :=
  h.popThrough_eq hname

theorem endBlock_eq (h : b.StandsIn s) {name : String} (hname : s.current.isHtml name = true)
    (himplied : s.current.endsByItself = false) : b.endBlock name = b.pop := by
  rw [endBlock, h.inScope_eq, h.inScope_current _ hname, if_pos rfl,
    h.closeAllImplied_eq himplied, h.popNamed_eq hname]

theorem endItemTag_eq (h : b.StandsIn s) (bounds : ElementName → Bool) {name : String}
    (hname : s.current.isHtml name = true) : b.endItemTag bounds name = b.pop := by
  rw [endItemTag, h.inScope_eq, h.inScope_current _ hname, if_pos rfl,
    h.closeImplied_eq (.inr hname), h.popNamed_eq hname]

theorem endParagraphTag_eq (h : b.StandsIn s) (hname : s.current.isHtml "p" = true) :
    b.endParagraphTag = b.pop := by
  rw [endParagraphTag, h.inScope_eq, h.inScope_current _ hname, if_pos rfl, closeParagraph,
    h.closeImplied_eq (.inr hname), h.popNamed_eq hname]

theorem endHeading_eq (h : b.StandsIn s)
    (hheading : s.current.isHtmlOf ElementName.headings = true)
    (himplied : s.current.endsByItself = false) : b.endHeading = b.pop := by
  rw [endHeading, h.inScopeWhere_eq _ (·.isHtmlOf ElementName.headings),
    h.inScope_current _ hheading, if_pos rfl, h.closeAllImplied_eq himplied,
    h.popThrough_eq hheading]

theorem endCell_eq (h : b.StandsIn s) {name : String} (hname : s.current.isHtml name = true)
    (himplied : s.current.endsByItself = false) :
    b.closeAllImplied.popNamed name = b.pop := by
  rw [h.closeAllImplied_eq himplied, h.popNamed_eq hname]

theorem dropWhile_current (h : b.StandsIn s) : b.stack.dropWhile (· != b.current) = b.stack := by
  obtain ⟨rest, hstack⟩ := h.exists_stack
  conv_lhs => rw [hstack]
  rw [List.dropWhile_cons_of_neg (by simp), ← hstack]

/-- No boundary hides the innermost open element. -/
theorem inScopeWhere_current (h : b.StandsIn s) (bounds : ElementName → Bool) :
    b.inScopeWhere bounds (· == b.current) = true := by
  obtain ⟨rest, hstack⟩ := h.exists_stack
  have hfind : b.stack.find? (fun id => id == b.current || bounds (b.name id)) =
      some b.current := by
    conv_lhs => rw [hstack]
    exact List.find?_cons_of_pos (by simp)
  simp only [inScopeWhere, hfind, beq_self_eq_true]

theorem endGeneric_eq (h : b.StandsIn s) {name : String} (hname : s.current.isHtml name = true) :
    b.endGeneric name = b.pop := by
  obtain ⟨rest, hstack⟩ := h.exists_stack
  have hid : (b.name b.current).isHtml name = true := by
    rw [← currentName, h.currentName_eq, hname]
  have hfind : b.stack.find? (fun id => (b.name id).isHtml name || (b.name id).endsSearch) =
      some b.current := by
    conv_lhs => rw [hstack]
    exact List.find?_cons_of_pos (by simp [hid])
  simp only [endGeneric, hfind, hid, if_true, h.closeImplied_eq (.inr hname), h.dropWhile_current]
  rfl

/-- The end of a formatting element that is open inside nothing else. -/
theorem endFormatting_eq (h : b.StandsIn s) {name : String} {attributes : TagAttributes}
    {rest : List Formatting} (hname : s.current.isHtml name = true)
    (hentry : b.formatting = .element b.current name attributes :: rest)
    (hrest : ∀ e ∈ rest, e.isOf b.current = false) :
    b.endFormatting name = { b.pop with formatting := rest } := by
  obtain ⟨outer, hstack⟩ := h.exists_stack
  have hcurrent : b.currentIs name = true := (h.currentIs_eq name).trans hname
  have hformatting : b.isFormatting b.current = true := by
    rw [isFormatting, hentry]
    simp [Formatting.isOf]
  have hlast : b.lastFormatting? name = some (b.current, attributes) := by
    rw [lastFormatting?, recentFormatting, hentry]
    simp [Formatting.isMarker]
  have hopen : b.stack.contains b.current = true := by
    rw [hstack]
    simp
  have hscope := h.inScopeWhere_current ElementName.boundsScope
  -- nothing is open inside the element, so no block has to be taken apart
  have hoverlap : b.overlap? b.current = none := by
    have hspan : ([] ++ b.stack).span (· != b.current) = ([], b.stack) :=
      span_append (by simp) (by rw [hstack]; simp)
    rw [List.nil_append] at hspan
    rw [overlap?, hspan]
    rfl
  have hfilter : b.formatting.filter (!·.isOf b.current) = rest := by
    rw [hentry, List.filter_cons_of_neg (by simp [Formatting.isOf])]
    exact List.filter_eq_self.mpr fun e he => by rw [hrest e he]; rfl
  rw [endFormatting, hcurrent, hformatting, endFormattingTimes, hlast]
  simp only [hopen, hscope, hoverlap, Bool.not_true, Bool.and_false, Bool.false_eq_true, if_false,
    h.dropWhile_current, dropFormatting, hfilter]
  rfl

theorem endForm_eq (h : b.StandsIn s) (hform : b.form = some b.current)
    (himplied : s.current.endsByItself = false) (houter : b.current ∉ b.stack.tail) :
    b.endForm = { b.pop with form := none } := by
  obtain ⟨rest, hstack⟩ := h.exists_stack
  have hscope : ({ b with form := none } : Builder).inScopeWhere ElementName.boundsScope
      (· == b.current) = true := h.inScopeWhere_current ElementName.boundsScope
  have hclosed : ({ b with form := none } : Builder).closeAllImplied = { b with form := none } :=
    congrArg (fun b : Builder => { b with form := none }) (h.closeAllImplied_eq himplied)
  -- the form is taken from among the open elements wherever it is, here from their front
  have hfilter : b.stack.filter (· != b.current) = b.stack.tail := by
    rw [hstack] at houter ⊢
    rw [List.filter_cons_of_neg (by simp)]
    exact List.filter_eq_self.mpr fun id hid => by
      rw [bne_iff_ne]
      rintro rfl
      exact houter hid
  rw [endForm, h.isOpen_template, if_neg Bool.false_ne_true, hform]
  simp only [hscope, if_true, hclosed, hfilter]
  rfl

/-! ## Back to where the element was opened -/

variable {n : ElementName} {attributes : TagAttributes} {g : Grove} {m : Mode}

/-- Closing an element with nothing special about it leads back. -/
theorem pop_enter (h : b.StandsIn s) (hn : n.isHtmlOf notedNames = false) :
    ((b.enter n attributes).regrown g m).pop = b.regrown g m := by
  rw [h.enter_eq attributes hn]
  rfl

/-- An element with a formatting entry or a marker leads back when that is taken away. -/
theorem pop_enter_formatting (h : b.StandsIn s) (hn : n.isHtmlOf ("form" :: modeNames) = false) :
    { ((b.enter n attributes).regrown g m).pop with formatting := b.formatting } =
      b.regrown g m := by
  rw [Builder.enter, h.mode_cons (isHtmlOf_eq_false hn (by decide)),
    isHtml_eq_false hn (by decide)]
  rfl

/-- No entry is for an element that is opened later. -/
theorem isOf_eq_false (h : b.StandsIn s) :
    ∀ e ∈ b.formatting, e.isOf b.grove.cells.size = false := by
  intro e he
  have hopen := h.settled e he
  cases e with
  | marker => rfl
  | element id name attributes =>
      rw [isSettled, List.contains_iff_mem] at hopen
      exact beq_eq_false_iff_ne.mpr (Nat.ne_of_lt (h.valid id hopen))

/-- An end tag without a rule of its own closes the innermost element of the name. -/
theorem bodyEnd_eq_endGeneric (b : Builder) {name : String}
    (h : ruledNames.contains name = false) : b.bodyEnd name = b.endGeneric name := by
  have hne : ∀ n ∈ ruledNames, name ≠ n := fun n => ne_of_contains_eq_false h
  have hnot : ∀ some : List String, (∀ n ∈ some, n ∈ ruledNames) → some.contains name = false :=
    fun some => contains_eq_false h
  rw [bodyEnd, hnot blockNames (by decide), hnot ["button", "listing", "pre"] (by decide),
    hnot ElementName.headings (by decide), hnot formattingNames (by decide),
    hnot objectNames (by decide)]
  simp only [Bool.false_or, Bool.or_false, Bool.or_eq_true, decide_eq_true_eq, Bool.false_eq_true,
    if_false, hne "template" (by decide), hne "body" (by decide), hne "html" (by decide),
    hne "form" (by decide), hne "p" (by decide), hne "li" (by decide), hne "dd" (by decide),
    hne "dt" (by decide), hne "a" (by decide), hne "nobr" (by decide), hne "br" (by decide),
    or_self]

section BodyEnd

variable {name : String} (h : b.StandsIn s)
  (hin : ((b.enter (.html name) attributes).regrown g m).StandsIn
    (s.inside (.html name) attributes))

include h hin

theorem bodyEnd_formatting (hname : name ∈ "a" :: "nobr" :: formattingNames) :
    ((b.enter (.html name) attributes).regrown g m).bodyEnd name = b.regrown g m := by
  have hrule : ∀ name ∈ "a" :: "nobr" :: formattingNames, ∀ b : Builder,
      b.bodyEnd name = b.endFormatting name := by
    simp only [formattingNames, List.forall_mem_cons]
    exact ⟨fun _ => rfl, fun _ => rfl, fun _ => rfl, fun _ => rfl, fun _ => rfl, fun _ => rfl,
      fun _ => rfl, fun _ => rfl, fun _ => rfl, fun _ => rfl, fun _ => rfl, fun _ => rfl,
      fun _ => rfl, fun _ => rfl, List.forall_mem_nil _⟩
  have hplain : ∀ name ∈ "a" :: "nobr" :: formattingNames,
      (ElementName.html name).isHtmlOf ("form" :: modeNames) = false ∧
        (ElementName.html name).isHtmlOf markerNames = false := by decide
  have hentry : ((b.enter (.html name) attributes).regrown g m).formatting =
      .element b.grove.cells.size name attributes :: b.formatting := by
    have hformatting : (ElementName.html name).isHtmlOf ("a" :: "nobr" :: formattingNames) = true :=
      List.contains_iff_mem.mpr hname
    show entriesFor (.html name) attributes b.grove.cells.size ++ b.formatting = _
    rw [entriesFor, (hplain name hname).2, hformatting]
    rfl
  have hhtml : (s.inside (.html name) attributes).current.isHtml name = true := by
    simp [Surroundings.inside, Surroundings.current, ElementName.isHtml, ElementName.html]
  rw [hrule name hname, hin.endFormatting_eq hhtml hentry h.isOf_eq_false,
    h.pop_enter_formatting (hplain name hname).1]

theorem bodyEnd_block (hname : name ∈ ["pre", "listing", "button"] ++ blockNames) :
    ((b.enter (.html name) attributes).regrown g m).bodyEnd name = b.regrown g m := by
  have hrule : ∀ name ∈ ["pre", "listing", "button"] ++ blockNames, ∀ b : Builder,
      b.bodyEnd name = b.endBlock name := by
    simp only [blockNames, List.cons_append, List.nil_append, List.forall_mem_cons]
    refine ⟨?_, ?_, ?_, ?_, ?_, ?_, ?_, ?_, ?_, ?_, ?_, ?_, ?_, ?_, ?_, ?_, ?_, ?_, ?_, ?_, ?_, ?_,
      ?_, ?_, ?_, ?_, ?_, List.forall_mem_nil _⟩
    all_goals exact fun _ => rfl
  have hplain : ∀ name ∈ ["pre", "listing", "button"] ++ blockNames,
      (ElementName.html name).isHtmlOf notedNames = false ∧
        (ElementName.html name).endsByItself = false := by decide
  have hhtml : (s.inside (.html name) attributes).current.isHtml name = true := by
    simp [Surroundings.inside, Surroundings.current, ElementName.isHtml, ElementName.html]
  rw [hrule name hname, hin.endBlock_eq hhtml (hplain name hname).2,
    h.pop_enter (hplain name hname).1]

theorem bodyEnd_p (hname : name = "p") :
    ((b.enter (.html name) attributes).regrown g m).bodyEnd name = b.regrown g m := by
  subst hname
  have hrule : ∀ b : Builder, b.bodyEnd "p" = b.endParagraphTag := fun _ => rfl
  rw [hrule, hin.endParagraphTag_eq rfl, h.pop_enter rfl]

theorem bodyEnd_heading (hname : name ∈ ElementName.headings) :
    ((b.enter (.html name) attributes).regrown g m).bodyEnd name = b.regrown g m := by
  have hrule : ∀ name ∈ ElementName.headings, ∀ b : Builder, b.bodyEnd name = b.endHeading := by
    simp only [ElementName.headings, List.forall_mem_cons]
    exact ⟨fun _ => rfl, fun _ => rfl, fun _ => rfl, fun _ => rfl, fun _ => rfl, fun _ => rfl,
      List.forall_mem_nil _⟩
  have hplain : ∀ name ∈ ElementName.headings,
      (ElementName.html name).isHtmlOf notedNames = false ∧
        (ElementName.html name).endsByItself = false := by decide
  rw [hrule name hname, hin.endHeading_eq (List.contains_iff_mem.mpr hname) (hplain name hname).2,
    h.pop_enter (hplain name hname).1]

theorem bodyEnd_form (hname : name = "form") (hform : s.form = false) :
    ((b.enter (.html name) attributes).regrown g m).bodyEnd name = b.regrown g m := by
  subst hname
  have hrule : ∀ b : Builder, b.bodyEnd "form" = b.endForm := fun _ => rfl
  have hnone : b.form = none := by
    rw [← Option.isNone_iff_eq_none, ← Option.not_isSome, h.form, hform]
    rfl
  have hformOpen : ((b.enter (.html "form") attributes).regrown g m).form =
      some ((b.enter (.html "form") attributes).regrown g m).current := rfl
  have houter : b.grove.cells.size ∉ b.stack := fun hmem => Nat.lt_irrefl _ (h.valid _ hmem)
  rw [hrule, hin.endForm_eq hformOpen rfl houter, Builder.enter, h.mode_cons rfl, ← hnone]
  rfl

theorem bodyEnd_item (hname : name = "li" ∨ name = "dd" ∨ name = "dt") :
    ((b.enter (.html name) attributes).regrown g m).bodyEnd name = b.regrown g m := by
  have hrule : ∃ bounds, ∀ b : Builder, b.bodyEnd name = b.endItemTag bounds name := by
    rcases hname with rfl | rfl | rfl
    · exact ⟨_, fun _ => rfl⟩
    · exact ⟨_, fun _ => rfl⟩
    · exact ⟨_, fun _ => rfl⟩
  obtain ⟨bounds, hrule⟩ := hrule
  rw [hrule]
  rcases hname with rfl | rfl | rfl
  all_goals rw [hin.endItemTag_eq bounds rfl, h.pop_enter rfl]

theorem bodyEnd_object (hname : name ∈ objectNames) :
    ((b.enter (.html name) attributes).regrown g m).bodyEnd name = b.regrown g m := by
  have hrule : ∀ name ∈ objectNames, ∀ b : Builder, b.bodyEnd name =
      if b.inScope ElementName.boundsScope name then (b.endBlock name).clearToMarker else b := by
    simp only [objectNames, List.forall_mem_cons]
    exact ⟨fun _ => rfl, fun _ => rfl, fun _ => rfl, List.forall_mem_nil _⟩
  rw [hrule name hname]
  simp only [objectNames, List.mem_cons, List.not_mem_nil, or_false] at hname
  rcases hname with rfl | rfl | rfl
  all_goals
    rw [hin.inScope_eq, hin.inScope_current _ rfl, if_pos rfl, hin.endBlock_eq rfl rfl]
    exact h.pop_enter_formatting rfl

theorem bodyEnd_other (hname : name ∈ ["optgroup", "option", "rb", "rtc", "rp", "rt"] ∨
      ruledNames.contains name = false) :
    ((b.enter (.html name) attributes).regrown g m).bodyEnd name = b.regrown g m := by
  have hrule : ∀ b : Builder, b.bodyEnd name = b.endGeneric name := by
    have hall : ∀ name ∈ ["optgroup", "option", "rb", "rtc", "rp", "rt"], ∀ b : Builder,
        b.bodyEnd name = b.endGeneric name := by
      simp only [List.forall_mem_cons]
      exact ⟨fun _ => rfl, fun _ => rfl, fun _ => rfl, fun _ => rfl, fun _ => rfl, fun _ => rfl,
        List.forall_mem_nil _⟩
    rcases hname with hname | hname
    · exact hall name hname
    · exact fun b => bodyEnd_eq_endGeneric b hname
  have hplain : (ElementName.html name).isHtmlOf notedNames = false := by
    rcases hname with hname | hname
    · have hall : ∀ name ∈ ["optgroup", "option", "rb", "rtc", "rp", "rt"],
          (ElementName.html name).isHtmlOf notedNames = false := by decide
      exact hall name hname
    · rw [ElementName.isHtmlOf, Bool.and_eq_false_iff]
      exact .inr (contains_eq_false hname (by decide))
  have hhtml : (s.inside (.html name) attributes).current.isHtml name = true := by
    simp [Surroundings.inside, Surroundings.current, ElementName.isHtml, ElementName.html]
  rw [hrule, hin.endGeneric_eq hhtml, h.pop_enter hplain]

end BodyEnd

end StandsIn

end Builder

end CustomElements.Markup
