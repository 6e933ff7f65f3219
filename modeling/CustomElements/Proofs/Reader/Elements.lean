import CustomElements.Proofs.Reader.Texts

/-!
# Printed elements without element children

The tags of an element and what is between them, as a run of the reader: the element has grown where
it was printed, and the reader stands where it stood.
-/

namespace CustomElements.Markup

open Builder (TagAttributes)

namespace Grove

variable {g h : Grove} {p : Nat} {tag : Tag} {children : List Node}

/-- Behind an element, text is a node of its own. -/
theorem Grows.endsInText_eq_false (hg : Grows g p [.element tag children] h)
    (hp : p < g.cells.size) : h.endsInText p = false := by
  cases hg with
  | @element _ inner _ _ name attributes _ _ _ _ _ hchildren hrest =>
      cases hrest
      have hsize : (g.attach p (.element name attributes)).cells.size = _ := size_attach
      have hlast : h.children p = g.cells.size :: g.children p := by
        rw [Grove.children, hchildren.cells_eq (by omega) (by omega) (by omega), ← Grove.children,
          children_attach hp]
      have hcontent : h.content? g.cells.size = some (.element name attributes) := by
        rw [hchildren.content?_eq (by omega) (by omega), content?_attach_new hp]
      simp only [endsInText, hlast, isText, hcontent]

theorem endsInText_attach_new {content : Content} (hp : p < g.cells.size) :
    (g.attach p content).endsInText g.cells.size = false := by
  rw [endsInText, children_attach_new hp]

theorem Grows.append {ns more : List Node} {k : Grove} (hg : Grows g p ns h)
    (hmore : Grows h p more k) : Grows g p (ns ++ more) k := by
  induction hg with
  | nil => exact hmore
  | text _ ih => exact .text (ih hmore)
  | element htag htemplate hchildren _ _ ih => exact .element htag htemplate hchildren (ih hmore)

end Grove

open Grove (Grows)

theorem TagReread.tag_eq {tag : Tag} {n : ElementName} (h : TagReread n.language tag)
    (hname : n.name = tag.name) : tag = { Tag.ofName n.name with
      attributes := .ofList (adjusted n.language (readAttributes tag.attributes)) } := by
  rw [hname, h.attributes]
  exact h.fresh

namespace Builder

variable {s : Surroundings} {b b' c : Builder} {tag : Tag} {language : Language}
  {attributes : TagAttributes} {rest : List Char}

/-! ## Tags -/

/-- The run over a printed start tag. -/
theorem reads_start (htag : TagReread language tag) (hreading : b'.reading = .markup)
    (happly : ∀ faulty,
      b'.apply faulty (.startTag (readName tag.name) (readAttributes tag.attributes) false) = c) :
    Reads b' ('<' :: (tag.name.toList ++ (attributesText tag.attributes.entries ++ '>' :: rest)))
      c rest := by
  rw [← happly]
  refine .single ?_ ?_
  · rw [hreading]
    exact nextToken?_openTag htag _ rest
  · simp only [List.length_cons, List.length_append]
    omega

/-- The run over a printed end tag. -/
theorem reads_end {name : String} (hends : rereadsName name = true)
    (hreading : b'.reading = .markup)
    (happly : ∀ faulty, b'.apply faulty (.endTag (readName name)) = c) :
    Reads b' ('<' :: '/' :: (name.toList ++ '>' :: rest)) c rest := by
  rw [← happly]
  refine .single ?_ ?_
  · rw [hreading]
    exact nextToken?_closeTag hends _ rest
  · simp only [List.length_cons, List.length_append]
    omega

/-! ## Elements without content -/

/-- What has grown has changed no open element. -/
theorem StandsIn.grown (h : b.StandsIn s) {ns : List Node} {g : Grove}
    (hg : Grows b.grove b.current ns g) (mode : Mode) : (b.regrown g mode).StandsIn s :=
  h.regrown mode (fun id hid => hg.name_eq h.current_lt (h.valid id hid)) hg.size_le

/-- What is read of the markup of an element. -/
def ReadsElement (b' b : Builder) (tag : Tag) (children : List Node) : Prop :=
  ∀ (more : List Node) (rest : List Char), ∃ g mode b₁,
    Reads b' ('<' :: tagText tag children ++ rest) b₁ rest ∧
      Grows b.grove b.current [.element tag children] g ∧ StandsFor more b₁ (b.regrown g mode)

theorem tagText_append (tag : Tag) (children : List Node) (rest : List Char) :
    '<' :: tagText tag children ++ rest =
      '<' :: (tag.name.toList ++ (attributesText tag.attributes.entries ++ '>' ::
        if tag.selfClosing then rest
        else (Node.renderForest (rawTextNames.contains tag.name) children).toList ++
          '<' :: '/' :: (tag.name.toList ++ '>' :: rest))) := by
  rw [tagText]
  split_ifs <;> simp

variable {more : List Node}

theorem reads_leaf (h : b.StandsIn s) (hb' : StandsFor more b' b)
    (htag : TagReread .html tag) (hreads : s.readsForeign (readName tag.name) = false)
    (hclosing : tag.selfClosing = true)
    (hadds : s.addsOnly (.html tag.name) (readAttributes tag.attributes) = true) :
    ReadsElement b' b tag [] := by
  intro more rest
  have hname : readName tag.name = tag.name := htag.name
  have hdeals := h.deals_leaf (hname ▸ hreads) hadds
  have hgrows : Grows b.grove b.current [.element tag []]
      (b.grove.attach b.current (.element (.html tag.name) (readAttributes tag.attributes))) :=
    .element (htag.tag_eq (n := .html tag.name) rfl) (fun _ => rfl) .nil .nil
  refine ⟨_, b.returnMode, b.attach (.element (.html tag.name) (readAttributes tag.attributes)), ?_,
    hgrows, (h.grown hgrows b.returnMode).standsFor more⟩
  rw [tagText_append, if_pos hclosing]
  exact reads_start htag (hb'.reading.trans h.reading)
    fun _ => hb'.tag _ _ _ (fun _ => Token.noConfusion) (hname.symm ▸ hdeals)

/-! ## Templates -/

/-- The end tag of a template leads back to where it was opened. -/
theorem StandsIn.deals_template_end (h : b.StandsIn s) (attributes : TagAttributes) :
    (b.sheltering attributes).Deals (.endTag "template")
      (b.attach (.element (.html "template") attributes)) := by
  have hcurrent : (b.sheltering attributes).name b.grove.cells.size = .html "template" := by
    have hcontent : (b.grove.attach b.current (.element (.html "template") attributes)).content?
      b.grove.cells.size = _ := Grove.content?_attach_new h.current_lt
    simp only [Builder.name, Grove.name, sheltering, attach, hcontent]
  have hname : (b.sheltering attributes).currentName = .html "template" := hcurrent
  have hforeign : (b.sheltering attributes).isForeign (.endTag "template") = false := by
    simp only [isForeign, hname]
    rfl
  have hgrows : Grows b.grove b.current _
      (b.attach (.element (.html "template") attributes)).grove :=
    .element rfl (fun _ => rfl) .nil .nil
  have hout := h.grown hgrows b.returnMode
  have hopen : (b.sheltering attributes).isOpen "template" = true := by
    show (b.grove.cells.size :: b.stack).any _ = true
    rw [List.any_cons, hcurrent]
    rfl
  -- the template itself is the innermost open element, and nothing is left open inside it
  have hkept : { b.sheltering attributes with
      stack := (b.sheltering attributes).stack.dropWhile fun id =>
        ((b.sheltering attributes).name id).endsInTemplate } = b.sheltering attributes := by
    have hstack : (b.grove.cells.size :: b.stack).dropWhile (fun id =>
        ((b.sheltering attributes).name id).endsInTemplate) = b.grove.cells.size :: b.stack :=
      List.dropWhile_cons_of_neg (by rw [hcurrent]; decide)
    exact congrArg (fun stack => { b.sheltering attributes with stack := stack }) hstack
  have hpop : (b.sheltering attributes).popNamed "template" =
      { b.sheltering attributes with stack := b.stack } := by
    have hstack : (b.grove.cells.size :: b.stack).dropWhile (fun id =>
        !((b.sheltering attributes).name id).isHtml "template") = b.grove.cells.size :: b.stack :=
      List.dropWhile_cons_of_neg (by rw [hcurrent]; decide)
    exact congrArg (fun stack => { b.sheltering attributes with stack := stack.tail }) hstack
  have hrule : ∀ c : Builder, c.inTemplate (.endTag "template") = done c.endTemplate := fun _ => rfl
  have hmode : (b.sheltering attributes).mode = .template := rfl
  rw [Deals, hforeign, if_neg Bool.false_ne_true, inMode, hmode]
  simp only [hrule]
  rw [endTemplate, hopen, if_pos rfl]
  simp only [hkept, hpop]
  exact congrArg done (hout.resetMode_of .template)

theorem reads_template (h : b.StandsIn s) (hb' : StandsFor more b' b) (htag : TagReread .html tag)
    (hreads : s.readsForeign (readName tag.name) = false) (hopening : tag.selfClosing = false)
    (hname : tag.name = "template") : ReadsElement b' b tag [] := by
  intro more rest
  have hread : readName tag.name = "template" := htag.name.trans hname
  have hstart := h.deals_template (readAttributes tag.attributes) (hread ▸ hreads)
  have hend := h.deals_template_end (readAttributes tag.attributes)
  have hgrows : Grows b.grove b.current [.element tag []]
      (b.grove.attach b.current
        (.element (.html "template") (readAttributes tag.attributes))) :=
    .element (htag.tag_eq (n := .html "template") hname.symm) (fun _ => rfl) .nil .nil
  refine ⟨_, b.returnMode, b.attach (.element (.html "template") (readAttributes tag.attributes)),
    ?_, hgrows, (h.grown hgrows b.returnMode).standsFor more⟩
  have hnone : (Node.renderForest (rawTextNames.contains tag.name) []).toList = [] := rfl
  rw [tagText_append, if_neg (by simp [hopening]), hnone, List.nil_append]
  refine (reads_start htag (hb'.reading.trans h.reading)
    fun _ => hb'.tag _ _ _ (fun _ => Token.noConfusion) (hread.symm ▸ hstart)).trans ?_
  exact reads_end htag.nameEnds h.reading fun _ =>
    apply_of_deals (fun _ => Token.noConfusion) h.skipNewline (hread.symm ▸ hend)

/-! ## Elements for text only -/

/-- The reader behind an element for text only. -/
def left (b : Builder) : Builder := { b.pop with mode := b.returnMode, reading := .markup }

/-- The reader is in an element for text only. -/
structure HoldsText (b : Builder) : Prop where
  mode : b.mode = .text
  fostering : b.fostering = false
  language : b.currentName.language = .html
  current : b.current < b.grove.cells.size

namespace HoldsText

variable {n : ElementName} {reading : Reading} {cs : List Char}

theorem isForeign_eq (h : b.HoldsText) (t : Token) : b.isForeign t = false := by
  simp only [isForeign, h.language, beq_self_eq_true, if_true]

theorem withText (h : b.HoldsText) (cs : List Char) : (b.withText cs).HoldsText :=
  ⟨h.mode, h.fostering, (congrArg ElementName.language
    (Grove.name_appendText h.current cs h.current)).trans h.language,
    Nat.lt_of_lt_of_le h.current (Grove.size_le_appendText cs)⟩

theorem takesPieces (cs : List Char) : TakesPieces HoldsText cs := by
  refine ⟨fun _ h => h.current, fun _ p h => h.withText p, fun b p h hne _ => ?_⟩
  rw [Deals, h.isForeign_eq, if_neg Bool.false_ne_true, inMode, h.mode,
    ← show b.putText p = b.withText p from putText_eq h.fostering hne]
  rfl

theorem deals_end (h : b.HoldsText) (name : String) : b.Deals (.endTag name) b.left := by
  rw [Deals, h.isForeign_eq, if_neg Bool.false_ne_true, inMode, h.mode]
  rfl

end HoldsText

variable {name : String} {reading : Reading}

theorem StandsIn.holdsText (h : b.StandsIn s) :
    (b.holding (b.grove.attach b.current (.element (.html name) attributes))
      reading).HoldsText := by
  have hcontent : (b.grove.attach b.current (.element (.html name) attributes)).content?
      b.grove.cells.size = _ := Grove.content?_attach_new h.current_lt
  have hsize : (b.grove.attach b.current (.element (.html name) attributes)).cells.size = _ :=
    Grove.size_attach
  refine ⟨rfl, h.fostering, ?_, ?_⟩
  · show ((b.grove.attach b.current (.element (.html name) attributes)).name
      b.grove.cells.size).language = .html
    rw [Grove.name, hcontent]
    rfl
  · show b.grove.cells.size <
      (b.grove.attach b.current (.element (.html name) attributes)).cells.size
    omega

/-- The end tag of an element for text only leads back to where it was opened. -/
theorem StandsIn.left_holding (h : b.StandsIn s) (g : Grove) :
    (b.holding g reading).left = b.regrown g b.mode := by
  rw [left, ← h.reading]
  rfl

theorem toList_renderForest_text (raw : Bool) (text : String) :
    (Node.renderForest raw [.text text]).toList = printedText raw text := by
  rw [Node.renderForest, Node.renderForest, String.toList_append, StandsIn.toList_render_text]
  simp [printedText]

/-- Where the text ends, the end tag leads back to where the element was opened. -/
theorem reads_contents_end (h : b.StandsIn s) (hreading : reading.IsOf name)
    (hname : readName name = name) (hends : rereadsName name = true) {g : Grove}
    (hholds : (b.holding g reading).HoldsText) (hb' : StandsFor more b' (b.holding g reading))
    (rest : List Char) :
    Reads b' ('<' :: '/' :: (name.toList ++ '>' :: rest)) (b.regrown g b.mode) rest := by
  have hend : ∀ faulty, b'.apply faulty (.endTag name) = b.regrown g b.mode := fun faulty =>
    (hb'.tag faulty _ _ (fun _ => Token.noConfusion) (hholds.deals_end name)).trans
      (h.left_holding g)
  have hreads : b'.reading = reading := hb'.reading
  rw [← hend]
  refine .single ?_ ?_
  · rw [hreads]
    exact nextToken?_contents_end hreading hname hends _ rest
  · simp only [List.length_cons, List.length_append]
    omega

/-- The text of an element grows in it, and its end tag leads back. -/
theorem reads_contents_text (h : b.StandsIn s) (hreading : reading.IsOf name)
    (hname : readName name = name) (hends : rereadsName name = true) {g : Grove}
    (hholds : (b.holding g reading).HoldsText) {text : String}
    (hb' : StandsFor [.text text] b' (b.holding g reading)) {printed : List Char}
    (htoken : nextToken? reading false (printed ++ '<' :: '/' :: (name.toList ++ ['>'])) =
      some (.text text.toList, '<' :: '/' :: (name.toList ++ ['>'])))
    (hprinted : printed ≠ []) (htext : text.toList ≠ []) (rest : List Char) :
    Reads b' (printed ++ '<' :: '/' :: (name.toList ++ '>' :: rest))
      (b.regrown (g.appendText b.grove.cells.size text.toList) b.mode) rest := by
  have hskip : ∀ g, (b.holding g reading).skipNewline = false := fun _ => h.skipNewline
  have happly : ∀ faulty, b'.apply faulty (.text text.toList) =
      b.holding (g.appendText b.grove.cells.size text.toList) reading := by
    intro faulty
    rw [hb'.text rfl _ _ (by rw [startsWithNewline, beq_iff_eq]; exact em _),
      apply_text (HoldsText.takesPieces _) htext hholds (hskip g)]
    rfl
  have hholds' : (b.holding (g.appendText b.grove.cells.size text.toList) reading).HoldsText :=
    hholds.withText text.toList
  have hnext : ∀ foreign, nextToken? b'.reading foreign
      (printed ++ '<' :: '/' :: (name.toList ++ '>' :: rest)) =
        some (.text text.toList, '<' :: '/' :: (name.toList ++ '>' :: rest)) := by
    rw [hb'.reading]
    exact fun foreign => nextToken?_contents hreading hname htoken foreign rest
  refine .step (hnext _) ?_ ?_
  · have hpos := List.length_pos_iff.mpr hprinted
    simp only [List.length_append]
    omega
  · rw [happly]
    exact reads_contents_end h hreading hname hends hholds'
      (standsFor_self (hskip _) (by rw [hholds'.mode]; decide) []) rest

/-- The contents and the end tag lead back to where the element was opened. -/
theorem reads_contents (h : b.StandsIn s) (attributes : TagAttributes)
    (hreading : reading.IsOf name) (hname : readName name = name) (hends : rereadsName name = true)
    {children : List Node} (hcontents : rereadsContents reading name children = true)
    (hline : (name == "textarea" && startsWithNewline children) = false) (rest : List Char) :
    ∃ g, Reads (b.begunText (.html name) attributes reading)
        ((Node.renderForest (rawTextNames.contains name) children).toList ++
          '<' :: '/' :: (name.toList ++ '>' :: rest)) (b.regrown g b.mode) rest ∧
      Grows (b.grove.attach b.current (.element (.html name) attributes)) b.grove.cells.size
        children g := by
  generalize hg : b.grove.attach b.current (.element (.html name) attributes) = g
  have hholds : (b.holding g reading).HoldsText := hg ▸ h.holdsText
  have hskip : ∀ g, (b.holding g reading).skipNewline = false := fun _ => h.skipNewline
  have hfor : StandsFor children (b.begunText (.html name) attributes reading)
      (b.holding g reading) := by
    rw [begunText, hg]
    exact standsFor_skipping (hskip g) (by rw [hholds.mode]; decide) hline
  unfold rereadsContents at hcontents
  split at hcontents
  case h_1 => exact ⟨g, reads_contents_end h hreading hname hends hholds hfor rest, .nil⟩
  case h_2 text =>
    rw [toList_renderCloseTag] at hcontents
    simp only [] at hcontents
    split at hcontents
    case h_1 cs after htoken =>
      rw [Bool.and_eq_true, Bool.and_eq_true, beq_iff_eq, beq_iff_eq, Bool.not_eq_true',
        List.isEmpty_eq_false_iff] at hcontents
      obtain ⟨⟨rfl, rfl⟩, hne⟩ := hcontents
      have hnonempty : text.toList ≠ [] := fun hnil => hne (by simp [printedText, hnil])
      have hgrows : Grows g b.grove.cells.size [.text text]
          (g.appendText b.grove.cells.size text.toList) := by
        have hends : g.endsInText b.grove.cells.size = false := by
          rw [← hg]
          exact Grove.endsInText_attach_new h.current_lt
        rw [Grove.appendText_eq_attach hends]
        exact .text .nil
      refine ⟨_, ?_, hgrows⟩
      rw [toList_renderForest_text]
      exact reads_contents_text h hreading hname hends hholds hfor htoken hne hnonempty rest
    case h_2 => cases hcontents
  case h_3 => cases hcontents

/-- The markup of an element for text only is read as the element. -/
theorem reads_text_element (h : b.StandsIn s) (hb' : StandsFor more b' b)
    (htag : TagReread .html tag) (hreads : s.readsForeign (readName tag.name) = false)
    (hopening : tag.selfClosing = false) (hreading : s.textReading? (.html tag.name) = some reading)
    (htemplate : (ElementName.html tag.name).isHtml "template" = false) {children : List Node}
    (hcontents : rereadsContents reading tag.name children = true)
    (hline : (tag.name == "textarea" && startsWithNewline children) = false) :
    ReadsElement b' b tag children := by
  intro more rest
  have hname : readName tag.name = tag.name := htag.name
  obtain ⟨hof, hstart⟩ :=
    h.deals_begunText (readAttributes tag.attributes) (hname ▸ hreads) hreading
  obtain ⟨g, hrun, hinner⟩ := reads_contents h (readAttributes tag.attributes) hof hname
    htag.nameEnds hcontents hline rest
  have hgrows : Grows b.grove b.current [.element tag children] g :=
    .element (htag.tag_eq (n := .html tag.name) rfl) (fun htrue => by
      rw [htemplate] at htrue
      cases htrue) hinner .nil
  refine ⟨g, b.mode, b.regrown g b.mode, ?_, hgrows, (h.grown hgrows b.mode).standsFor more⟩
  rw [tagText_append, if_neg (by simp [hopening])]
  exact (reads_start htag (hb'.reading.trans h.reading)
    fun _ => hb'.tag _ _ _ (fun _ => Token.noConfusion) (hname.symm ▸ hstart)).trans hrun

end Builder

end CustomElements.Markup
