import CustomElements.Proofs.Reader.Closing

/-!
# End tags that lead back

In each of the modes, and in embedded content, the end tag of an element that its start tag only
opened leads back to where it was opened, whatever has grown in it.
-/

namespace CustomElements.Markup

open Builder (TagAttributes)

namespace Builder

namespace StandsIn

variable {s : Surroundings} {b : Builder} {n : ElementName} {attributes : TagAttributes} {g : Grove}
  {m : Mode}

/-! ## End tags in all modes -/

/-- The end tags that are read otherwise in a cell or in a caption than in a body. -/
def tableEndNames : List String :=
  ["body", "caption", "col", "colgroup", "html", "table", "tbody", "td", "tfoot", "th", "thead",
    "tr"]

theorem inMode_flow_end (h : b.StandsIn s) {name : String} (hflow : s.flows = true)
    (hname : tableEndNames.contains name = false) :
    b.inMode (.endTag name) = done (b.bodyEnd name) := by
  have hne : ∀ n ∈ tableEndNames, name ≠ n := fun n => ne_of_contains_eq_false hname
  have hnot : ∀ some : List String, (∀ n ∈ some, n ∈ tableEndNames) → some.contains name = false :=
    fun some => contains_eq_false hname
  rw [Surroundings.flows_iff] at hflow
  rw [inMode, h.mode]
  rcases hflow with hm | hm | hm
  · rw [hm]
    rfl
  · rw [hm]
    simp only [inCell, hne "td" (by decide), hne "th" (by decide),
      hnot ["table", "tbody", "tfoot", "thead", "tr"] (by decide),
      hnot ["body", "caption", "col", "colgroup", "html"] (by decide), decide_false, Bool.or_false,
      Bool.false_eq_true, if_false]
    rfl
  · rw [hm]
    simp only [inCaption, hne "caption" (by decide), hne "table" (by decide),
      hnot ["body", "col", "colgroup", "html", "tbody", "td", "tfoot", "th", "thead", "tr"]
        (by decide), Bool.false_eq_true, if_false]
    rfl

section EndTags

variable {name : String} (h : b.StandsIn s)
  (hin : ((b.enter (.html name) attributes).regrown g m).StandsIn
    (s.inside (.html name) attributes))

/-- An element that is noted nowhere else leaves nothing but its mode. -/
theorem pop_enter_mode (hn : (ElementName.html name).isHtmlOf
      (markerNames ++ "a" :: "nobr" :: formattingNames ++ ["form"]) = false) (mode : Mode) :
    { ((b.enter (.html name) attributes).regrown g m).pop with mode := mode } =
      { b.regrown g m with mode := mode } := by
  have hentries : entriesFor (.html name) attributes b.grove.cells.size = [] := by
    rw [entriesFor, isHtmlOf_eq_false hn (by decide), isHtmlOf_eq_false hn (by decide)]
    rfl
  rw [Builder.enter, hentries, isHtml_eq_false hn (by decide)]
  rfl

include h in
/-- Where the mode is that of the surroundings, the element has left nothing. -/
theorem pop_enter_back (hn : (ElementName.html name).isHtmlOf
      (markerNames ++ "a" :: "nobr" :: formattingNames ++ ["form"]) = false) {mode : Mode}
    (hmode : s.mode = mode) :
    { ((b.enter (.html name) attributes).regrown g m).pop with mode := mode } = b.regrown g m := by
  rw [pop_enter_mode hn, ← hmode, ← h.mode]
  rfl

/-- The end of a table, or of a selection list, looks for the mode in what is around it. -/
theorem pop_resetMode (hout : (b.regrown g m).StandsIn s) (hn : (ElementName.html name).isHtmlOf
      (markerNames ++ "a" :: "nobr" :: formattingNames ++ ["form"]) = false) :
    ((b.enter (.html name) attributes).regrown g m).pop.resetMode = b.regrown g m := by
  rw [← hout.resetMode_of ((b.enter (.html name) attributes).regrown g m).mode,
    ← pop_enter_mode hn]
  rfl

include h hin

theorem inMode_table_end (hout : (b.regrown g m).StandsIn s) (hname : name = "table") :
    ((b.enter (.html name) attributes).regrown g m).inMode (.endTag name) =
      done (b.regrown g m) := by
  subst hname
  have hmode : ((b.enter (.html "table") attributes).regrown g m).mode = .table :=
    h.mode_own fun _ _ => rfl
  have hrule : ∀ c : Builder, c.inTable (.endTag "table") =
      done (if c.inScope ElementName.boundsTableScope "table" then (c.popNamed "table").resetMode
        else c) := fun _ => rfl
  rw [inMode, hmode]
  simp only [hrule]
  rw [hin.inScope_eq, hin.inScope_current _ rfl, if_pos rfl, hin.popNamed_eq rfl,
    pop_resetMode hout rfl]

theorem inMode_select_end (hout : (b.regrown g m).StandsIn s) (hname : name = "select") :
    ((b.enter (.html name) attributes).regrown g m).inMode (.endTag name) =
      done (b.regrown g m) := by
  subst hname
  obtain ⟨rest, hnames⟩ := h.names_eq
  have hmode : ((b.enter (.html "select") attributes).regrown g m).mode = selectModeOf s.names := by
    show modeOf (.html "select" :: b.stack.map b.name) = _
    rw [h.names, hnames]
    rfl
  have hrule : ∀ c : Builder, c.inSelect (.endTag "select") =
      done (if c.inScope ElementName.boundsSelectScope "select" then
        (c.popNamed "select").resetMode else c) := fun _ => rfl
  have hselect : ((b.enter (.html "select") attributes).regrown g m).inSelect (.endTag "select") =
      done (b.regrown g m) := by
    rw [hrule, hin.inScope_eq, hin.inScope_current _ rfl, if_pos rfl, hin.popNamed_eq rfl,
      pop_resetMode hout rfl]
  rw [← hselect, inMode, hmode, selectModeOf_eq h.noTemplate]
  split_ifs <;> rfl

theorem inMode_part_end {inner outer : Mode} (hmode : s.mode = outer)
    (hname : name = "colgroup" ∧ outer = .table ∧ inner = .columnGroup ∨
      (name = "tbody" ∨ name = "tfoot" ∨ name = "thead") ∧ outer = .table ∧ inner = .tableBody ∨
      name = "tr" ∧ outer = .tableBody ∧ inner = .row) :
    ((b.enter (.html name) attributes).regrown g m).inMode (.endTag name) =
      done (b.regrown g m) := by
  have hback (hn : (ElementName.html name).isHtmlOf
      (markerNames ++ "a" :: "nobr" :: formattingNames ++ ["form"]) = false) :
      { ((b.enter (.html name) attributes).regrown g m).pop with mode := outer } =
        b.regrown g m := pop_enter_back h hn hmode
  -- each part has a mode of its own, whose rule for the end tag names the mode around it
  rcases hname with ⟨rfl, rfl, rfl⟩ | ⟨hname, rfl, rfl⟩ | ⟨rfl, rfl, rfl⟩
  case inl =>
    have hown : ((b.enter (.html "colgroup") attributes).regrown g m).mode = .columnGroup :=
      h.mode_own fun _ _ => rfl
    have hrule : ∀ c : Builder, c.inColumnGroup (.endTag "colgroup") =
        done (if c.currentIs "colgroup" then { c.pop with mode := .table } else c) := fun _ => rfl
    rw [inMode, hown]
    simp only [hrule]
    rw [hin.currentIs_eq, hback rfl]
    rfl
  case inr.inl =>
    have hown : ((b.enter (.html name) attributes).regrown g m).mode = .tableBody ∧
        ∀ c : Builder, c.inTableBody (.endTag name) =
          done (if c.inScope ElementName.boundsTableScope name then
            { (c.popWhileNot boundsRows).pop with mode := .table } else c) := by
      rcases hname with rfl | rfl | rfl
      all_goals exact ⟨h.mode_own fun _ _ => rfl, fun _ => rfl⟩
    have hcurrent : boundsRows (.html name) = true ∧ (ElementName.html name).isHtml name = true ∧
        (ElementName.html name).isHtmlOf
          (markerNames ++ "a" :: "nobr" :: formattingNames ++ ["form"]) = false := by
      rcases hname with rfl | rfl | rfl
      all_goals exact ⟨rfl, rfl, rfl⟩
    rw [inMode, hown.1]
    simp only [hown.2]
    rw [hin.inScope_eq, hin.inScope_current _ hcurrent.2.1, if_pos rfl,
      hin.popWhileNot_eq hcurrent.1, hback hcurrent.2.2]
  case inr.inr =>
    have hown : ((b.enter (.html "tr") attributes).regrown g m).mode = .row :=
      h.mode_own fun _ _ => rfl
    have hrule : ∀ c : Builder, c.inRow (.endTag "tr") =
        done (if c.inScope ElementName.boundsTableScope "tr" then
          { (c.popWhileNot boundsCells).pop with mode := .tableBody } else c) := fun _ => rfl
    rw [inMode, hown]
    simp only [hrule]
    rw [hin.inScope_eq, hin.inScope_current _ rfl, if_pos rfl, hin.popWhileNot_eq rfl, hback rfl]

/-- The end of a cell or of a caption takes its marker away. -/
theorem inMode_marked_end {outer : Mode} (hmode : s.mode = outer)
    (hname : name = "caption" ∧ outer = .table ∨ (name = "td" ∨ name = "th") ∧ outer = .row) :
    ((b.enter (.html name) attributes).regrown g m).inMode (.endTag name) =
      done (b.regrown g m) := by
  have hback : name = "caption" ∨ name = "td" ∨ name = "th" →
      { ((b.enter (.html name) attributes).regrown g m).pop.clearToMarker with mode := outer } =
        b.regrown g m := by
    intro hname
    rw [← hmode, ← h.mode]
    rcases hname with rfl | rfl | rfl <;> rfl
  rcases hname with ⟨rfl, rfl⟩ | ⟨hname, rfl⟩
  case inl =>
    have hown : ((b.enter (.html "caption") attributes).regrown g m).mode = .caption :=
      h.mode_own fun _ _ => rfl
    have hrule : ∀ c : Builder, c.inCaption (.endTag "caption") =
        if c.inScope ElementName.boundsTableScope "caption" then
          done { (c.closeAllImplied.popNamed "caption").clearToMarker with mode := .table }
        else done c := fun _ => rfl
    rw [inMode, hown]
    simp only [hrule]
    rw [hin.inScope_eq, hin.inScope_current _ rfl, if_pos rfl, hin.endCell_eq rfl rfl,
      hback (.inl rfl)]
  case inr =>
    have hown : ((b.enter (.html name) attributes).regrown g m).mode = .cell ∧
        ∀ c : Builder, c.inCell (.endTag name) =
          if c.inScope ElementName.boundsTableScope name then
            done { (c.closeAllImplied.popNamed name).clearToMarker with mode := .row }
          else done c := by
      rcases hname with rfl | rfl
      all_goals exact ⟨h.mode_own fun _ _ => rfl, fun _ => rfl⟩
    have hcurrent : (ElementName.html name).isHtml name = true ∧
        (ElementName.html name).endsByItself = false := by
      rcases hname with rfl | rfl <;> exact ⟨rfl, rfl⟩
    rw [inMode, hown.1]
    simp only [hown.2]
    rw [hin.inScope_eq, hin.inScope_current _ hcurrent.1, if_pos rfl,
      hin.endCell_eq hcurrent.1 hcurrent.2, hback (.inr hname)]

theorem inMode_option_end (hmode : s.mode = .select ∨ s.mode = .selectInTable)
    (hname : name = "option" ∨ name = "optgroup") :
    ((b.enter (.html name) attributes).regrown g m).inMode (.endTag name) =
      done (b.regrown g m) := by
  have hselect : ((b.enter (.html name) attributes).regrown g m).inSelect (.endTag name) =
      done (b.regrown g m) := by
    rcases hname with rfl | rfl
    · have hrule : ∀ c : Builder, c.inSelect (.endTag "option") = done (c.popIf "option") :=
        fun _ => rfl
      rw [hrule, popIf, hin.currentIs_eq, h.pop_enter (n := .html "option") rfl]
      rfl
    · have hrule : ∀ c : Builder, c.currentIs "option" = false →
          c.inSelect (.endTag "optgroup") = done (c.popIf "optgroup") := by
        intro c hc
        show done (Builder.popIf (if c.currentIs "option" && _ then c.pop else c) "optgroup") = _
        rw [hc]
        rfl
      rw [hrule _ (hin.currentIs_eq "option"), popIf, hin.currentIs_eq,
        h.pop_enter (n := .html "optgroup") rfl]
      rfl
  have hends : endsSelectNames.contains name = false := by
    rcases hname with rfl | rfl <;> decide
  have hplain : (ElementName.html name).isHtmlOf modeNames = false := by
    rcases hname with rfl | rfl <;> rfl
  have hinner : ((b.enter (.html name) attributes).regrown g m).mode = s.mode :=
    (h.mode_cons hplain).trans h.mode
  rw [← hselect, inMode, hinner]
  rcases hmode with hm | hm
  · rw [hm]
  · rw [hm]
    simp only [inSelectInTable, hends, Bool.false_eq_true, if_false]

/-- In a body, the end tag of an element that only was opened leads back. -/
theorem inMode_flow_back (hout : (b.regrown g m).StandsIn s) (hflow : s.flows = true)
    (hopens : s.OpensInFlow name attributes) (hhtml : flowElement name = .html name) :
    ((b.enter (.html name) attributes).regrown g m).inMode (.endTag name) =
      done (b.regrown g m) := by
  -- but for tables and selection lists, the mode inside is the one outside
  have hbody : (ElementName.html name).isHtmlOf modeNames = false →
      tableEndNames.contains name = false →
      ((b.enter (.html name) attributes).regrown g m).bodyEnd name = b.regrown g m →
      ((b.enter (.html name) attributes).regrown g m).inMode (.endTag name) =
        done (b.regrown g m) := by
    intro hplain hend hback
    have hinner : (s.inside (.html name) attributes).flows = true := by
      have hmode : (s.inside (.html name) attributes).mode = s.mode :=
        modeOf_cons hplain h.names_ne_nil
      rwa [Surroundings.flows_iff, hmode, ← Surroundings.flows_iff]
    rw [hin.inMode_flow_end hinner hend, hback]
  have hall : ∀ {names : List String}, name ∈ names →
      (∀ n ∈ names, (ElementName.html n).isHtmlOf modeNames = false ∧
        tableEndNames.contains n = false) →
      (ElementName.html name).isHtmlOf modeNames = false ∧ tableEndNames.contains name = false :=
    fun hname hall => hall name hname
  cases hopens with
  | link => exact hbody rfl (by decide) (h.bodyEnd_formatting hin (by decide))
  | nobr => exact hbody rfl (by decide) (h.bodyEnd_formatting hin (by decide))
  | formatting hname =>
      have hplain := hall hname (by decide)
      exact hbody hplain.1 hplain.2 (h.bodyEnd_formatting hin
        (List.mem_cons_of_mem _ (List.mem_cons_of_mem _ hname)))
  | block hname =>
      have hplain := hall hname (by decide)
      refine hbody hplain.1 hplain.2 ?_
      rcases List.mem_cons.mp hname with rfl | hname
      · exact h.bodyEnd_p hin rfl
      · exact h.bodyEnd_block hin (List.mem_append_right _ hname)
  | pre hname =>
      have hplain := hall hname (by decide)
      refine hbody hplain.1 hplain.2 (h.bodyEnd_block hin (List.mem_append_left _ ?_))
      have hsub : ∀ n ∈ ["pre", "listing"], n ∈ ["pre", "listing", "button"] := by decide
      exact hsub name hname
  | table => exact h.inMode_table_end hin hout rfl
  | heading hname =>
      have hplain := hall hname (by decide)
      exact hbody hplain.1 hplain.2 (h.bodyEnd_heading hin hname)
  | form hform => exact hbody rfl (by decide) (h.bodyEnd_form hin rfl hform)
  | item hname =>
      have hitem : name ∈ ["li", "dd", "dt"] := by
        rcases hname with ⟨rfl, -⟩ | ⟨rfl | rfl, -⟩ <;> decide
      have hplain := hall hitem (by decide)
      exact hbody hplain.1 hplain.2 (h.bodyEnd_item hin (by simpa using hitem))
  | button => exact hbody rfl (by decide) (h.bodyEnd_block hin (by decide))
  | select => exact h.inMode_select_end hin hout rfl
  | option hname =>
      rcases hname with rfl | rfl
      all_goals exact hbody rfl (by decide) (h.bodyEnd_other hin (.inl (by decide)))
  | ruby hname =>
      have hruby : name ∈ ["optgroup", "option", "rb", "rtc", "rp", "rt"] := by
        rcases hname with ⟨rfl | rfl, -⟩ | ⟨rfl | rfl, -⟩ <;> decide
      have hplain := hall hruby (by decide)
      exact hbody hplain.1 hplain.2 (h.bodyEnd_other hin (.inl hruby))
  | object hname =>
      have hplain := hall hname (by decide)
      exact hbody hplain.1 hplain.2 (h.bodyEnd_object hin hname)
  | embedded hname => rcases hname with rfl | rfl <;> cases hhtml
  | other hname =>
      refine hbody ?_ (contains_eq_false hname (by decide)) (h.bodyEnd_other hin (.inr hname))
      rw [ElementName.isHtmlOf, Bool.and_eq_false_iff]
      exact .inr (contains_eq_false hname (by decide))

/-- In markup proper, whatever the mode is, the end tag of an element that only was opened leads
back. -/
theorem inMode_back (hout : (b.regrown g m).StandsIn s) (hreads : s.readsForeign name = false)
    (hread : readName name = name) (hhtml : flowElement name = .html name)
    (hopens : s.opens (.html name) attributes = true) :
    ((b.enter (.html name) attributes).regrown g m).inMode (.endTag name) =
      done (b.regrown g m) := by
  unfold Surroundings.opens at hopens
  simp only [show (ElementName.html name).name = name from rfl, hread, hreads, Bool.false_eq_true,
    if_false] at hopens
  have hflow : s.flows = true → s.opensInFlow name attributes = true →
      ((b.enter (.html name) attributes).regrown g m).inMode (.endTag name) =
        done (b.regrown g m) := fun hflow hopens =>
    h.inMode_flow_back hin hout hflow (Surroundings.opensInFlow_spec hopens) hhtml
  split at hopens
  case h_1 hm => exact hflow (Surroundings.flows_iff.mpr (.inl hm)) hopens
  case h_2 hm => exact hflow (Surroundings.flows_iff.mpr (.inr (.inl hm))) hopens
  case h_3 hm => exact hflow (Surroundings.flows_iff.mpr (.inr (.inr hm))) hopens
  case h_4 hm =>
    rw [Bool.and_eq_true, List.contains_iff_mem] at hopens
    have hparts := hopens.2
    simp only [List.mem_cons, List.not_mem_nil, or_false] at hparts
    rcases hparts with hcaption | hgroup | hbody
    · exact h.inMode_marked_end hin hm (.inl ⟨hcaption, rfl⟩)
    · exact h.inMode_part_end hin hm (.inl ⟨hgroup, rfl, rfl⟩)
    · exact h.inMode_part_end hin hm (.inr (.inl ⟨hbody, rfl, rfl⟩))
  case h_5 hm =>
    rw [Bool.and_eq_true, beq_iff_eq] at hopens
    exact h.inMode_part_end hin hm (.inr (.inr ⟨hopens.2, rfl, rfl⟩))
  case h_6 hm =>
    rw [Bool.and_eq_true, List.contains_iff_mem] at hopens
    exact h.inMode_marked_end hin hm (.inr ⟨by simpa using hopens.2, rfl⟩)
  case h_7 hm =>
    rw [Bool.or_eq_true, Bool.and_eq_true, Bool.and_eq_true, beq_iff_eq, beq_iff_eq] at hopens
    exact h.inMode_option_end hin (.inl hm) (hopens.imp And.left And.left)
  case h_8 hm =>
    rw [Bool.or_eq_true, Bool.and_eq_true, Bool.and_eq_true, beq_iff_eq, beq_iff_eq] at hopens
    exact h.inMode_option_end hin (.inr hm) (hopens.imp And.left And.left)
  case h_9 => cases hopens

end EndTags

/-! ## Embedded content -/

theorem toLower_toLower (c : Char) : c.toLower.toLower = c.toLower := by
  have hsame : ∀ d : Char, ¬('A'.val ≤ d.val ∧ d.val ≤ 'Z'.val) → d.toLower = d := fun d hd => by
    unfold Char.toLower
    exact dif_neg hd
  by_cases hupper : 'A'.val ≤ c.val ∧ c.val ≤ 'Z'.val
  · have hge : 65 ≤ c.val.toNat := hupper.1
    have hle : c.val.toNat ≤ 90 := hupper.2
    have hlower : c.toLower.val.toNat = (c.val.toNat + 32) % 4294967296 := by
      unfold Char.toLower
      rw [dif_pos hupper]
      rfl
    refine hsame c.toLower ?_
    rintro ⟨-, hz⟩
    have hz : c.toLower.val.toNat ≤ 90 := hz
    omega
  · rw [hsame c hupper, hsame c hupper]

theorem asciiLower_asciiLower (name : String) :
    Text.asciiLower (Text.asciiLower name) = Text.asciiLower name := by
  rw [Text.asciiLower, Text.asciiLower, String.map_map]
  congr 1
  funext c
  exact toLower_toLower c

theorem eqIgnoreAsciiCase_adjustedName (language : Language) (name : String) :
    Text.eqIgnoreAsciiCase (adjustedName language name) name = true := by
  have hsame : Text.eqIgnoreAsciiCase name name = true := beq_self_eq_true _
  cases language with
  | html => exact hsame
  | mathml => exact hsame
  | svg =>
      rw [adjustedName, withCapitals]
      cases hfind : drawingNames.find? fun n => n.map Char.toLower == name with
      | none => exact hsame
      | some n =>
          have hfound := List.find?_some hfind
          have hlower : Text.asciiLower n = name := beq_iff_eq.mp hfound
          rw [Option.getD_some, Text.eqIgnoreAsciiCase, ← hlower, beq_iff_eq]
          exact (asciiLower_asciiLower n).symm

theorem inForeign_end (h : b.StandsIn s) {given : TagAttributes}
    (hin : ((b.enter n attributes).regrown g m).StandsIn (s.inside n given))
    (hforeign : (n.language == .html) = false) {name : String}
    (hname : adjustedName n.language name = n.name) (hbr : name ≠ "br") (hp : name ≠ "p") :
    ((b.enter n attributes).regrown g m).inForeign (.endTag name) = done (b.regrown g m) := by
  obtain ⟨rest, hstack⟩ := h.exists_stack
  have hcurrent : ((b.enter n attributes).regrown g m).name b.grove.cells.size = n :=
    hin.currentName_eq
  have hsame : Text.eqIgnoreAsciiCase n.name name = true :=
    hname ▸ eqIgnoreAsciiCase_adjustedName n.language name
  have hplain : n.isHtmlOf notedNames = false := by
    rw [ElementName.isHtmlOf, hforeign, Bool.false_and]
  have hinner : ((b.enter n attributes).regrown g m).stack =
      b.grove.cells.size :: b.current :: rest := by
    rw [← hstack]
    rfl
  have hpop : ((b.enter n attributes).regrown g m).pop =
      { (b.enter n attributes).regrown g m with stack := b.current :: rest } := by
    rw [pop, hinner]
    rfl
  simp only [inForeign, hbr, hp, decide_false, Bool.or_self, Bool.false_eq_true, if_false]
  rw [hinner, foreignEnd]
  · simp only [hcurrent, hsame, Bool.not_true, Bool.false_and, Bool.false_eq_true, if_false,
      if_true]
    rw [← hpop, h.pop_enter hplain]
  · simp

/-- Markup proper begins where it is read. -/
theorem element_eq_html {name : String} (hlanguage : (s.element name).language = .html) :
    s.readsForeign (readName name) = false ∧ s.element name = .html name := by
  unfold Surroundings.element at hlanguage ⊢
  cases hforeign : s.readsForeign (readName name) with
  | true =>
      rw [hforeign, if_pos rfl] at hlanguage
      rw [Surroundings.readsForeign, hlanguage] at hforeign
      cases hforeign
  | false =>
      rw [hforeign, if_neg Bool.false_ne_true] at hlanguage
      rw [if_neg Bool.false_ne_true]
      refine ⟨rfl, ?_⟩
      unfold flowElement at hlanguage ⊢
      split_ifs at hlanguage ⊢
      rfl

/-- Embedded content begins with a tag of its own, or goes on. -/
theorem not_breaksOut {name : String} {attributes : TagAttributes}
    (hlanguage : (s.element name).language ≠ .html)
    (hopens : s.opens (s.element name) attributes = true) :
    breakoutNames.contains (readName name) = false := by
  rw [Surroundings.opens, element_name] at hopens
  cases hforeign : s.readsForeign (readName name) with
  | true =>
      simp only [hforeign, if_true, Bool.not_eq_true', breaksOut, Bool.or_eq_false_iff] at hopens
      exact hopens.1
  | false =>
      rw [Surroundings.element, hforeign, if_neg Bool.false_ne_true, flowElement] at hlanguage
      split_ifs at hlanguage with hsvg hmath
      · rw [hsvg]
        decide
      · rw [hmath]
        decide
      · exact absurd rfl hlanguage

/-- **The end tag of an element that only was opened leads back**, whatever has grown in it. -/
theorem deals_end (h : b.StandsIn s) {name : String} {attributes : TagAttributes}
    (hname : adjustedName (s.element name).language (readName name) = name)
    (hopens : s.opens (s.element name) attributes = true)
    (hout : (b.regrown g m).StandsIn s)
    (hin : ((b.enter (s.element name) (adjusted (s.element name).language attributes)).regrown
      g m).StandsIn (s.inside (s.element name) attributes)) :
    ((b.enter (s.element name) (adjusted (s.element name).language attributes)).regrown g m).Deals
      (.endTag (readName name)) (b.regrown g m) := by
  have hforeign : ∀ c : Builder, c.isForeign (.endTag (readName name)) =
      if c.currentName.language == .html then false else true := fun _ => rfl
  rw [Deals, hforeign, hin.currentName_eq]
  by_cases hlanguage : (s.element name).language = .html
  case neg =>
    -- in embedded content, `br` and `p` alone have end tags of their own
    have hnot := beq_eq_false_iff_ne.mpr hlanguage
    have hbreaks := not_breaksOut hlanguage hopens
    have hcurrent : ((s.inside (s.element name) attributes).current.language == .html) = false :=
      hnot
    rw [hcurrent, if_neg Bool.false_ne_true, if_pos rfl]
    exact h.inForeign_end hin hnot (hname.trans (element_name s name).symm)
      (ne_of_contains_eq_false hbreaks (by decide)) (ne_of_contains_eq_false hbreaks (by decide))
  case pos =>
    obtain ⟨hreads, hhtml⟩ := element_eq_html hlanguage
    rw [hhtml] at hname hin hopens ⊢
    have hread : readName name = name := hname
    have hcurrent : ((s.inside (.html name) attributes).current.language == .html) = true := rfl
    rw [hcurrent, if_pos rfl, if_neg Bool.false_ne_true, hread]
    refine h.inMode_back hin hout (hread ▸ hreads) hread ?_ hopens
    rwa [Surroundings.element, hreads, if_neg Bool.false_ne_true] at hhtml

end StandsIn

end Builder

end CustomElements.Markup
