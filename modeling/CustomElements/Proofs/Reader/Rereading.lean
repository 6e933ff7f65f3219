import CustomElements.Proofs.Reader.Elements

/-!
# Printed markup is read back

By induction on the forest: an element is opened by its start tag, its children are read inside it,
and its end tag leads back to where it was opened. So a reader that has come to the end of the
markup of a forest has grown the forest, and what is parsed, printed and parsed again is the same.
-/

namespace CustomElements.Markup

open Builder (TagAttributes)
open Grove (Grows)

namespace Builder

variable {s : Surroundings} {b b' : Builder}

theorem inside_adjusted (s : Surroundings) (n : ElementName) (attributes : TagAttributes) :
    s.inside n (adjusted n.language attributes) = s.inside n attributes := by
  unfold adjusted
  split_ifs with hlanguage
  · rfl
  · -- an element of an embedded language is not noted
    have hplain : ∀ names, n.isHtmlOf names = false := fun names => by
      rw [ElementName.isHtmlOf, beq_eq_false_iff_ne.mpr hlanguage, Bool.false_and]
    simp only [Surroundings.inside, notedAs, hplain, Bool.false_eq_true, if_false]

/-- What is read of the markup of a forest, wherever it may stand. -/
def ReadsForest (ns : List Node) : Prop :=
  ∀ {s : Surroundings} {b b' : Builder} (rest : List Char), b.StandsIn s → StandsFor ns b' b →
    rereadsForest s ns = true → (startsWithText ns = true → b.grove.endsInText b.current = false) →
    (∀ c ∈ rest.head?, c = '<') → ∃ g mode b₁,
      Reads b' ((Node.renderForest (rawTextNames.contains s.current.name) ns).toList ++ rest)
        b₁ rest ∧
      Grows b.grove b.current ns g ∧ StandsFor [] b₁ (b.regrown g mode)

variable {more : List Node} {tag : Tag} {children : List Node}

/-- The markup of an element with children is read as the element. -/
theorem reads_opened (h : b.StandsIn s) (hb' : StandsFor more b' b)
    (htag : TagReread (s.element tag.name).language tag) (hopening : tag.selfClosing = false)
    (htemplate : (s.element tag.name).isHtml "template" = false)
    (hopens : s.opens (s.element tag.name) (readAttributes tag.attributes) = true)
    (hchildren : rereadsForest
      (s.inside (s.element tag.name) (readAttributes tag.attributes)) children = true)
    (hline : ((s.element tag.name).isHtmlOf ["pre", "listing"] && startsWithNewline children) =
      false) (ih : ReadsForest children) : ReadsElement b' b tag children := by
  intro more rest
  generalize hn : s.element tag.name = n at *
  have hname : n.name = tag.name := by rw [← hn, StandsIn.element_name]
  have hinside : (b.enter n (adjusted n.language (readAttributes tag.attributes))).StandsIn
      (s.inside n (readAttributes tag.attributes)) := by
    rw [← inside_adjusted]
    exact h.enter _ htemplate
  have hstart : ∀ faulty, b'.apply faulty
      (.startTag (readName tag.name) (readAttributes tag.attributes) false) =
        b.begun n (readAttributes tag.attributes) := by
    refine fun faulty => hb'.tag faulty _ _ (fun _ => Token.noConfusion) ?_
    subst hn
    exact h.deals_start htag.name hopens
  have hfor : StandsFor children (b.begun n (readAttributes tag.attributes))
      (b.enter n (adjusted n.language (readAttributes tag.attributes))) :=
    standsFor_skipping hinside.skipNewline hinside.mode_ne_tableText hline
  have hraw : (s.inside n (readAttributes tag.attributes)).current.name = tag.name := hname
  obtain ⟨g, mode, b₁, hrun, hinner, hfor₁⟩ := ih ('<' :: '/' :: (tag.name.toList ++ '>' :: rest))
    hinside hfor hchildren (fun _ => Grove.endsInText_attach_new h.current_lt)
    (fun c hc => (Option.some.inj hc).symm)
  -- the element is the new cell, and what has grown below it are its children
  have hgrows : Grows b.grove b.current [.element tag children] g :=
    .element (htag.tag_eq hname) (fun htrue => by
      rw [htemplate] at htrue
      cases htrue) hinner .nil
  have hend : ∀ faulty, b₁.apply faulty (.endTag (readName tag.name)) = b.regrown g mode := by
    refine fun faulty => hfor₁.tag faulty _ _ (fun _ => Token.noConfusion) ?_
    subst hn
    exact h.deals_end htag.name hopens (h.grown hgrows mode) (hinside.grown hinner mode)
  rw [hraw] at hrun
  refine ⟨g, mode, b.regrown g mode, ?_, hgrows, (h.grown hgrows mode).standsFor more⟩
  rw [tagText_append, if_neg (by simp [hopening])]
  refine (reads_start htag (hb'.reading.trans h.reading) hstart).trans (hrun.trans ?_)
  exact reads_end htag.nameEnds (hfor₁.reading.trans h.reading) hend

/-- **The markup of an element that may be read again is read as the element.** -/
theorem reads_element (h : b.StandsIn s) (hb' : StandsFor more b' b)
    (hreread : rereadsNode s (.element tag children) = true) (ih : ReadsForest children) :
    ReadsElement b' b tag children := by
  rw [rereadsNode, Bool.and_eq_true] at hreread
  obtain ⟨htag, hrule⟩ := hreread
  have htag := tagReread_of_rereadsTag htag
  -- the four rules of rereading: for a leaf, a template, an element of raw text, and others
  cases hopening : tag.selfClosing with
  | true =>
      rw [hopening, if_pos rfl, Bool.and_eq_true, List.isEmpty_iff] at hrule
      obtain ⟨hadds, rfl⟩ := hrule
      have hlanguage : (s.element tag.name).language = .html := by
        by_contra hne
        rw [Surroundings.addsOnly, if_pos (by simpa using hne)] at hadds
        cases hadds
      obtain ⟨hreads, hhtml⟩ := StandsIn.element_eq_html hlanguage
      rw [hhtml] at htag hadds
      exact reads_leaf h hb' htag hreads hopening hadds
  | false =>
      rw [hopening, if_neg Bool.false_ne_true] at hrule
      cases htemplate : (s.element tag.name).isHtml "template" with
      | true =>
          rw [htemplate, if_pos rfl, List.isEmpty_iff] at hrule
          subst hrule
          rw [ElementName.isHtml, Bool.and_eq_true, beq_iff_eq, beq_iff_eq,
            StandsIn.element_name] at htemplate
          obtain ⟨hreads, hhtml⟩ := StandsIn.element_eq_html htemplate.1
          rw [hhtml] at htag
          exact reads_template h hb' htag hreads hopening htemplate.2
      | false =>
          rw [htemplate, if_neg Bool.false_ne_true] at hrule
          cases hreading : s.textReading? (s.element tag.name) with
          | some reading =>
              simp only [hreading, Bool.and_eq_true, Bool.not_eq_true'] at hrule
              have hlanguage : (s.element tag.name).language = .html := by
                by_contra hne
                rw [Surroundings.textReading?, if_pos (by simpa using hne)] at hreading
                cases hreading
              obtain ⟨hreads, hhtml⟩ := StandsIn.element_eq_html hlanguage
              rw [hhtml] at htag hreading htemplate
              exact reads_text_element h hb' htag hreads hopening hreading htemplate hrule.1 hrule.2
          | none =>
              simp only [hreading, Bool.and_eq_true, Bool.not_eq_true'] at hrule
              exact reads_opened h hb' htag hopening htemplate hrule.1.1 hrule.1.2 hrule.2 ih

/-- Nodes that do not begin with text begin with a tag. -/
theorem head?_renderForest {ns : List Node} (hreread : rereadsForest s ns = true)
    (hns : startsWithText ns = false) (raw : Bool) {rest : List Char}
    (hrest : ∀ c ∈ rest.head?, c = '<') :
    ∀ c ∈ ((Node.renderForest raw ns).toList ++ rest).head?, c = '<' := by
  intro c hc
  match ns with
  | [] => exact hrest c hc
  | .element tag children :: more =>
      rw [Node.renderForest, String.toList_append, toList_render_element] at hc
      exact (Option.some.inj hc).symm
  | .text _ :: _ => cases hns
  | .style .. :: _ => cases hreread
  | .styleText .. :: _ => cases hreread

theorem readsForest (ns : List Node) : ReadsForest ns := by
  match ns with
  | [] =>
      intro s b b' rest h hb' _ _ _
      exact ⟨b.grove, b.returnMode, b', .refl, .nil, hb'⟩
  | .text text :: more =>
      intro s b b' rest h hb' hreread hlast hrest
      rw [rereadsForest, Bool.and_eq_true, Bool.and_eq_true, Bool.not_eq_true'] at hreread
      obtain ⟨⟨htext, hapart⟩, hmore⟩ := hreread
      -- what follows is no text, so it begins with a tag, which lets go of what is held back
      have hapart : startsWithText more = false := hapart
      obtain ⟨mode, b₁, hrun, hfor⟩ := h.reads_text hb' htext (hlast rfl) hapart
        (head?_renderForest hmore hapart (rawTextNames.contains s.current.name) hrest)
      have hgrows : Grows b.grove b.current [.text text] _ := .text .nil
      obtain ⟨g, mode', b₂, hrun', hgrows', hfor'⟩ := readsForest more rest (h.grown hgrows mode)
        hfor hmore (fun htrue => by rw [hapart] at htrue; cases htrue) hrest
      refine ⟨g, mode', b₂, ?_, hgrows.append hgrows', hfor'⟩
      rw [Node.renderForest, String.toList_append, List.append_assoc]
      exact hrun.trans hrun'
  | .element tag children :: more =>
      intro s b b' rest h hb' hreread _ hrest
      rw [rereadsForest, Bool.and_eq_true, Bool.and_eq_true] at hreread
      obtain ⟨⟨helement, -⟩, hmore⟩ := hreread
      obtain ⟨g, mode, b₁, hrun, hgrows, hfor⟩ := reads_element h hb' helement
        (readsForest children) more
        ((Node.renderForest (rawTextNames.contains s.current.name) more).toList ++ rest)
      obtain ⟨g', mode', b₂, hrun', hgrows', hfor'⟩ := readsForest more rest (h.grown hgrows mode)
        hfor hmore (fun _ => hgrows.endsInText_eq_false h.current_lt) hrest
      refine ⟨g', mode', b₂, ?_, hgrows.append hgrows', hfor'⟩
      rw [Node.renderForest, String.toList_append, List.append_assoc, toList_render_element]
      exact hrun.trans hrun'
  | .style .. :: _ =>
      intro s b b' rest h hb' hreread
      cases hreread
  | .styleText .. :: _ =>
      intro s b b' rest h hb' hreread
      cases hreread

theorem standsIn_start : start.StandsIn .root := by
  refine ⟨rfl, by decide, by decide, rfl, by simp [start], rfl, rfl, ?_, rfl, rfl, rfl, rfl⟩
  simp [Surroundings.root]
  decide

end Builder

theorem unifyLineEnds_eq {cs : List Char} (h : '\r' ∉ cs) : unifyLineEnds cs = cs := by
  induction cs with
  | nil => rfl
  | cons c cs ih =>
      rw [List.mem_cons, not_or] at h
      rw [unifyLineEnds, ih h.2]
      · rintro _ rfl
        exact absurd rfl h.1
      · rintro rfl
        exact absurd rfl h.1

theorem withoutByteOrderMark_eq {cs : List Char} (h : cs.head? ≠ some '\ufeff') :
    withoutByteOrderMark cs = cs := by
  unfold withoutByteOrderMark
  split
  · exact absurd rfl h
  · rfl

/-- **The markup of a forest that may be read again is parsed as the forest.** -/
theorem parse_forestToHtml {ns : List Node} (h : Rereads ns) :
    parse (Node.forestToHtml ns) = ns := by
  obtain ⟨hforest, hline, hmark⟩ := h
  obtain ⟨g, mode, b, hrun, hgrows, hfor⟩ := Builder.readsForest ns [] Builder.standsIn_start
    (Builder.standsIn_start.standsFor ns) hforest (fun _ => rfl) (fun c hc => by cases hc)
  rw [List.append_nil] at hrun
  have hread : Builder.start.readAll ((Node.forestToHtml ns).toList.length + 1)
      (Node.forestToHtml ns).toList = b :=
    hrun.readAll_eq hfor.reading (Nat.lt_succ_self _)
  have hfinish : b.finish.grove = g := hfor.finish
  rw [parse, withoutByteOrderMark_eq hmark, unifyLineEnds_eq hline, hread, hfinish]
  exact hgrows.forest_eq

/--
**What is parsed, printed and parsed again is the same**, where the markup may be read again. So the
second print is the first.
-/
theorem parse_print_parse (markup : String) (h : Rereads (parse markup)) :
    parse (Node.forestToHtml (parse markup)) = parse markup ∧
      Node.forestToHtml (parse (Node.forestToHtml (parse markup))) =
        Node.forestToHtml (parse markup) := by
  have hsame := parse_forestToHtml h
  exact ⟨hsame, congrArg Node.forestToHtml hsame⟩

namespace Sample

/-- A page with elements of all kinds, some of whose tags are left out. -/
def page : String :=
  "<h1 title='A'>Fish &amp; chips</h1><ul><li>one<li>two<br></ul><table><td>1</table>" ++
  "<style>p > a</style><svg><g/></svg><x-a>"

/-- An element with the characters of a reference in a value. -/
def link : String := "<a title='&amp;lt;'></a>"

end Sample

theorem parse_print_parse_page :
    Rereads (parse Sample.page) ∧
      parse (Node.forestToHtml (parse Sample.page)) = parse Sample.page ∧
      Node.forestToHtml (parse (Node.forestToHtml (parse Sample.page))) =
        Node.forestToHtml (parse Sample.page) :=
  have hrereads : Rereads (parse Sample.page) := by decide +kernel
  ⟨hrereads, parse_print_parse Sample.page hrereads⟩

/--
In a printed value only the quotes are escaped. Where an ampersand and what follows it look like a
reference, they are read as one.
-/
theorem print_parse_print_ne :
    Node.forestToHtml (parse Sample.link) = "<a title=\"&lt;\"></a>" ∧
      Node.forestToHtml (parse "<a title=\"&lt;\"></a>") = "<a title=\"<\"></a>" ∧
      Node.forestToHtml (parse (Node.forestToHtml (parse Sample.link))) ≠
        Node.forestToHtml (parse Sample.link) := by
  have hfirst : Node.forestToHtml (parse Sample.link) = "<a title=\"&lt;\"></a>" := by
    decide +kernel
  have hsecond : Node.forestToHtml (parse "<a title=\"&lt;\"></a>") = "<a title=\"<\"></a>" := by
    decide +kernel
  refine ⟨hfirst, hsecond, ?_⟩
  rw [hfirst, hsecond]
  decide

end CustomElements.Markup
