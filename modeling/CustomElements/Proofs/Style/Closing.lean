import CustomElements.Proofs.Markup.Writing
import CustomElements.Proofs.Style.Printing
import CustomElements.Proofs.Style.Sources

/-!
# Where a style element ends

A reader of markup takes the contents of a style element as they are, up to the next end tag of that
name, so what is written between the tags must not hold one. The printer sets nothing between the
pieces of a sheet that could be part of an end tag. An end tag in the contents is thus an end tag in
one of the pieces (`holdsEndTag_render_scoped`). But pieces are source text, and a string in a
stylesheet may hold anything.
-/

namespace CustomElements.Style

/-- A word does not reach across a letter that it does not have. -/
theorem infix_append_cons_iff {α : Type} {w a b : List α} {s : α} (hs : s ∉ w) (hw : w ≠ []) :
    w <:+: a ++ s :: b ↔ w <:+: a ∨ w <:+: b := by
  constructor
  · rintro ⟨p, q, h⟩
    rcases List.append_eq_append_iff.mp h with ⟨c, rfl, -⟩ | ⟨c, hpw, hq⟩
    · exact .inl ⟨p, c, rfl⟩
    · rcases c with - | ⟨s', c⟩
      · exact .inl ⟨p, [], by simpa using hpw⟩
      · obtain ⟨rfl, rfl⟩ := List.cons.inj hq
        rcases List.append_eq_append_iff.mp hpw with ⟨d, -, rfl⟩ | ⟨d, rfl, hd⟩
        · exact absurd (List.mem_append_right d List.mem_cons_self) hs
        · rcases d with - | ⟨s', d⟩
          · rw [List.nil_append] at hd
            exact absurd (hd ▸ List.mem_cons_self) hs
          · obtain ⟨rfl, rfl⟩ := List.cons.inj hd
            exact .inr ⟨d, q, rfl⟩
  · rintro (h | h)
    · exact h.trans (List.prefix_append a _).isInfix
    · exact h.trans ((List.suffix_cons s b).trans (List.suffix_append a _)).isInfix

/-- What the end tag of a style element begins with. -/
def endTagWord : List Char := ['<', '/', 's', 't', 'y', 'l', 'e']

/-- The text holds the beginning of an end tag of a style element, in some letter case. -/
def HoldsEndTag (cs : List Char) : Prop := endTagWord <:+: cs.map Char.toLower

/-- The character does not occur in the end tag of a style element. -/
def Separates (s : Char) : Prop := s.toLower ∉ endTagWord

instance (cs : List Char) : Decidable (HoldsEndTag cs) := inferInstanceAs (Decidable (_ <:+: _))

instance (s : Char) : Decidable (Separates s) := inferInstanceAs (Decidable (_ ∉ _))

section HoldsEndTag

variable {s : Char} {a b : List Char}

theorem HoldsEndTag.mono (h : HoldsEndTag a) (hab : a <:+: b) : HoldsEndTag b :=
  h.trans (hab.map Char.toLower)

theorem not_holdsEndTag_nil : ¬HoldsEndTag [] := by decide

theorem eq_langle_of_toLower {c : Char} (h : c.toLower = '<') : c = '<' := by
  unfold Char.toLower at h
  split at h
  · rename_i hupper
    have hge : 65 ≤ c.val.toNat := hupper.1
    have hle : c.val.toNat ≤ 90 := hupper.2
    have hval : (c.val.toNat + 32) % 4294967296 = 60 := congrArg (fun d => d.val.toNat) h
    omega
  · exact h

theorem HoldsEndTag.langle_mem (h : HoldsEndTag a) : '<' ∈ a := by
  obtain ⟨c, hc, hlower⟩ :=
    List.mem_map.mp (List.IsInfix.subset h (show '<' ∈ endTagWord by decide))
  exact eq_langle_of_toLower hlower ▸ hc

theorem holdsEndTag_append_cons (hs : Separates s) :
    HoldsEndTag (a ++ s :: b) ↔ HoldsEndTag a ∨ HoldsEndTag b := by
  rw [HoldsEndTag, List.map_append, List.map_cons, infix_append_cons_iff hs (by decide)]
  rfl

theorem holdsEndTag_cons (hs : Separates s) : HoldsEndTag (s :: b) ↔ HoldsEndTag b := by
  simpa [not_holdsEndTag_nil] using holdsEndTag_append_cons (a := []) (b := b) hs

end HoldsEndTag

/-! ## End tags in printed rules -/

theorem holdsEndTag_trail {c : Char} {sep a : List Char} (hc : Separates c)
    (hsep : ∀ x ∈ sep, Separates x) (texts : List String) :
    HoldsEndTag (a ++ trail (c :: sep) texts) ↔
      HoldsEndTag a ∨ ∃ s ∈ texts, HoldsEndTag s.toList := by
  have hskip : ∀ b, HoldsEndTag (sep ++ b) ↔ HoldsEndTag b := by
    intro b
    induction sep with
    | nil => rfl
    | cons x sep ih =>
        rw [List.cons_append, holdsEndTag_cons (hsep x List.mem_cons_self),
          ih fun y hy => hsep y (List.mem_cons_of_mem x hy)]
  induction texts generalizing a with
  | nil => simp [trail]
  | cons s texts ih =>
      have htrail : trail (c :: sep) (s :: texts) =
          c :: (sep ++ (s.toList ++ trail (c :: sep) texts)) := by simp [trail]
      rw [htrail, holdsEndTag_append_cons hc, hskip, List.exists_mem_cons_iff]
      exact or_congr_right ih

theorem holdsEndTag_intercalate (sep : String) {c : Char} {cs : List Char}
    (hsep : sep.toList = c :: cs) (hc : Separates c) (hcs : ∀ x ∈ cs, Separates x)
    (texts : List String) :
    HoldsEndTag (sep.intercalate texts).toList ↔ ∃ s ∈ texts, HoldsEndTag s.toList := by
  cases texts with
  | nil => simp [not_holdsEndTag_nil]
  | cons s texts =>
      rw [toList_intercalate_cons, hsep, holdsEndTag_trail hc hcs, List.exists_mem_cons_iff]

/-- The name and the preamble of an at-rule, and what follows them. -/
theorem holdsEndTag_head {c : Char} (hc : Separates c) (name preamble : String) (rest : List Char) :
    HoldsEndTag ('@' :: (name.toList ++ (lead preamble ++ preamble.toList ++ c :: rest))) ↔
      HoldsEndTag name.toList ∨ HoldsEndTag preamble.toList ∨ HoldsEndTag rest := by
  rw [holdsEndTag_cons (by decide), lead]
  split_ifs with hpreamble
  · subst hpreamble
    simp [holdsEndTag_append_cons hc, not_holdsEndTag_nil]
  · have hspace : Separates ' ' := by decide
    rw [List.cons_append, List.nil_append, List.cons_append, holdsEndTag_append_cons hspace,
      holdsEndTag_append_cons hc]

theorem holdsEndTag_inBraces (block : String) :
    HoldsEndTag (inBraces block ++ ['\x7d']) ↔ HoldsEndTag block.toList := by
  have hspace : Separates ' ' := by decide
  have hbrace : ¬HoldsEndTag ['\x7d'] := by decide
  rw [inBraces]
  split_ifs with hblock
  · subst hblock
    simp [hbrace, not_holdsEndTag_nil]
  · rw [List.cons_append, List.append_assoc, List.singleton_append, holdsEndTag_cons hspace,
      holdsEndTag_append_cons hspace, or_iff_left hbrace]

theorem Declaration.holdsEndTag_render (d : Declaration) :
    HoldsEndTag d.render.toList ↔ ∃ p ∈ d.pieces, HoldsEndTag p.toList := by
  rw [toList_render, holdsEndTag_append_cons (by decide), holdsEndTag_cons (by decide),
    holdsEndTag_append_cons (by decide), or_iff_left not_holdsEndTag_nil]
  simp [Declaration.pieces]

theorem holdsEndTag_declarationsText (ds : List Declaration) :
    HoldsEndTag (declarationsText ds ++ ['\x7d']) ↔
      ∃ p ∈ ds.flatMap Declaration.pieces, HoldsEndTag p.toList := by
  have hbrace : ¬HoldsEndTag ['\x7d'] := by decide
  have hds : (∃ p ∈ ds.flatMap Declaration.pieces, HoldsEndTag p.toList) ↔
      ∃ s ∈ ds.map Declaration.render, HoldsEndTag s.toList := by
    simp only [List.mem_flatMap, List.mem_map, exists_exists_and_eq_and,
      Declaration.holdsEndTag_render]
    exact ⟨fun ⟨p, ⟨d, hd, hp⟩, h⟩ => ⟨d, hd, p, hp, h⟩,
      fun ⟨d, hd, p, hp, h⟩ => ⟨p, ⟨d, hd, hp⟩, h⟩⟩
  rw [hds]
  cases ds with
  | nil => simp [declarationsText, hbrace]
  | cons d ds =>
      have htrail := holdsEndTag_trail (a := []) (show Separates ' ' by decide)
        (List.forall_mem_nil _) ((d :: ds).map Declaration.render)
      rw [declarationsText, List.append_assoc, List.singleton_append,
        holdsEndTag_append_cons (by decide), or_iff_left hbrace, ← List.nil_append (trail _ _),
        htrail, or_iff_right not_holdsEndTag_nil]

mutual

/-- The text of a rule holds an end tag exactly if one of its pieces does. -/
theorem Rule.holdsEndTag_render : (r : Rule) →
    (HoldsEndTag r.render.toList ↔ ∃ p ∈ r.pieces, HoldsEndTag p.toList)
  | .style texts ds => by
      have hselectors := holdsEndTag_intercalate ", " rfl (by decide)
        (List.forall_mem_singleton.mpr (by decide)) texts
      rw [toList_style, holdsEndTag_append_cons (by decide), holdsEndTag_cons (by decide),
        holdsEndTag_declarationsText, hselectors]
      simp only [Rule.pieces, List.mem_append, or_and_right, exists_or]
  | .group name preamble rules => by
      have hrules := holdsEndTag_intercalate " " rfl (by decide) (List.forall_mem_nil _)
        (rules.map Rule.render)
      rw [toList_group, holdsEndTag_head (by decide), holdsEndTag_cons (by decide),
        holdsEndTag_cons (by decide), holdsEndTag_append_cons (by decide), hrules,
        or_iff_left (show ¬HoldsEndTag ['\x7d'] by decide)]
      simp only [Rule.pieces, List.exists_mem_cons_iff, List.mem_map, exists_exists_and_eq_and,
        Rule.holdsEndTag_renderList rules]
  | .verbatim name preamble none => by
      rw [toList_statement, holdsEndTag_head (by decide)]
      simp only [Rule.pieces, List.exists_mem_cons_iff, Option.toList, not_holdsEndTag_nil]
      simp
  | .verbatim name preamble (some block) => by
      rw [toList_verbatim, holdsEndTag_head (by decide), holdsEndTag_cons (by decide),
        holdsEndTag_inBraces]
      simp only [Rule.pieces, List.exists_mem_cons_iff, Option.toList]
      simp

theorem Rule.holdsEndTag_renderList : (rules : List Rule) →
    ((∃ r ∈ rules, HoldsEndTag r.render.toList) ↔
      ∃ p ∈ Rule.piecesList rules, HoldsEndTag p.toList)
  | [] => by simp [Rule.piecesList]
  | r :: rules => by
      rw [List.exists_mem_cons_iff, Rule.holdsEndTag_render r, Rule.holdsEndTag_renderList rules]
      simp only [Rule.piecesList, List.mem_append, or_and_right, exists_or]

end

/-! ## End tags in scoped sheets -/

/-- The character that begins a tag is not in the identifier. -/
theorem holdsEndTag_scopedSelector {id : String} (hid : '<' ∉ id.toList) (s : String) :
    HoldsEndTag (scopedSelector id s).toList ↔ HoldsEndTag s.toList := by
  have hno : ¬HoldsEndTag ('.' :: id.toList) := fun h =>
    hid ((List.mem_cons.mp h.langle_mem).resolve_left (by decide))
  have hchars : (scopedSelector id s).toList = '.' :: id.toList ++ '-' :: s.toList := by
    simp [scopedSelector]
  rw [hchars, holdsEndTag_append_cons (by decide), or_iff_right hno]

mutual

theorem Rule.holdsEndTag_scoped {id : String} (hid : '<' ∉ id.toList) : (r : Rule) →
    ((∃ p ∈ (r.scoped id).pieces, HoldsEndTag p.toList) ↔ ∃ p ∈ r.pieces, HoldsEndTag p.toList)
  | .style texts ds => by
      simp only [Rule.scoped, Rule.pieces, List.mem_append, or_and_right, exists_or,
        List.mem_map, exists_exists_and_eq_and, holdsEndTag_scopedSelector hid]
  | .group name preamble rules => by
      simp only [Rule.scoped, Rule.pieces, List.exists_mem_cons_iff,
        Rule.holdsEndTag_scopedList hid rules]
  | .verbatim .. => Iff.rfl

theorem Rule.holdsEndTag_scopedList {id : String} (hid : '<' ∉ id.toList) : (rules : List Rule) →
    ((∃ p ∈ piecesList (scopedList id rules), HoldsEndTag p.toList) ↔
      ∃ p ∈ piecesList rules, HoldsEndTag p.toList)
  | [] => Iff.rfl
  | r :: rules => by
      simp only [Rule.scopedList, Rule.piecesList, List.mem_append, or_and_right, exists_or,
        Rule.holdsEndTag_scoped hid r, Rule.holdsEndTag_scopedList hid rules]

end

theorem holdsEndTag_render_scoped {id : String} (hid : '<' ∉ id.toList) (sheet : Sheet) :
    HoldsEndTag (sheet.scoped id).render.toList ↔ ∃ p ∈ sheet.pieces, HoldsEndTag p.toList := by
  rw [Sheet.render, Rule.renderList_eq_map,
    holdsEndTag_intercalate "\n" rfl (by decide) (List.forall_mem_nil _),
    Sheet.pieces, ← Rule.holdsEndTag_scopedList hid]
  simp only [List.mem_map, exists_exists_and_eq_and, Rule.holdsEndTag_renderList, Sheet.scoped]

/-- An end tag in a piece is one in the stylesheet, but for what escapes spell out. -/
theorem holdsEndTag_of_parse {css : String} {sheet : Sheet} (h : Sheet.parse css = .ok sheet)
    {p : String} (hp : p ∈ sheet.pieces) (hend : HoldsEndTag p.toList) :
    HoldsEndTag css.toList ∨ '\\' ∈ css.toList := by
  rcases sourced_of_parse h p hp with hin | hlangle | hback
  · exact .inl (hend.mono hin)
  · exact absurd hend.langle_mem hlangle
  · exact .inr hback

/-! ## What a reader finds -/

theorem prefix_of_atEndTagOf {cs : List Char} (h : Markup.atEndTagOf "style" cs = true) :
    endTagWord <+: cs.map Char.toLower := by
  unfold Markup.atEndTagOf at h
  split at h
  · rename_i rest
    rw [Bool.and_eq_true, Markup.startsWithWord, List.isPrefixOf_iff_prefix] at h
    have hword : "style".toList <+: rest.map Char.toLower :=
      h.1.trans ((List.take_prefix _ rest).map Char.toLower)
    exact List.prefix_append_right_inj ['<', '/'] |>.mpr hword
  · cases h

/-- The end tag that the printer writes. -/
def closing : List Char := ['<', '/', 's', 't', 'y', 'l', 'e', '>']

/-- No end tag begins in the text and ends behind it. -/
theorem atEndTagOf_append_closing {c : Char} {cs : List Char} (h : ¬HoldsEndTag (c :: cs))
    (rest : List Char) : Markup.atEndTagOf "style" (c :: (cs ++ (closing ++ rest))) = false := by
  by_contra hend
  rw [Bool.not_eq_false] at hend
  have hword := prefix_of_atEndTagOf hend
  rw [List.map_cons, List.map_append] at hword
  obtain ⟨hc, htail⟩ := List.cons_prefix_cons.mp hword
  have hcs : ['/', 's', 't', 'y', 'l', 'e'] <+: cs.map Char.toLower :=
    (prefix_append_cons_iff (by decide)).mp htail
  refine h (List.IsPrefix.isInfix ?_)
  rw [List.map_cons, ← hc]
  exact List.cons_prefix_cons.mpr ⟨rfl, hcs⟩

theorem spanRaw_append_closing {cs : List Char} (h : ¬HoldsEndTag cs) (rest : List Char) :
    Markup.spanRaw "style" (cs ++ (closing ++ rest)) = (cs, closing ++ rest) := by
  induction cs with
  | nil => rfl
  | cons c cs ih =>
      have hcs : ¬HoldsEndTag cs := fun hcs => h (hcs.mono (List.suffix_cons c cs).isInfix)
      rw [List.cons_append, Markup.spanRaw, atEndTagOf_append_closing h, if_neg Bool.false_ne_true,
        ih hcs]

/--
A reader finds in the markup, whatever follows it, a style element around the text and nothing else:
the start tag, the text up to the end tag, and the end tag.
-/
structure ReadsAsStyle (markup text : List Char) : Prop where
  opens : ∀ rest, Markup.nextToken? .markup false (markup ++ rest) =
    some (.startTag "style" [] false, text ++ (closing ++ rest))
  contents : ∀ rest, Markup.spanRaw "style" (text ++ (closing ++ rest)) = (text, closing ++ rest)
  closes : ∀ rest, Markup.nextToken? (.raw "style") false (closing ++ rest) =
    some (.endTag "style", rest)

theorem readsAsStyle_of_not_holdsEndTag {text : List Char} (h : ¬HoldsEndTag text) :
    ReadsAsStyle ("<style>".toList ++ text ++ closing) text where
  opens rest := by
    rw [List.append_assoc, List.append_assoc]
    rfl
  contents := spanRaw_append_closing h
  closes rest := rfl

/--
**When a stylesheet ends its style element early.** What is written between the tags holds an end
tag exactly if one of the pieces of the sheet does, and then the stylesheet has one itself or spells
it out with escapes. Otherwise the element that is read ends where the written one does.
-/
theorem toHtml_ofSheet_scoped {css : String} {sheet : Sheet} {id : String}
    (h : Sheet.parse css = .ok sheet) (hid : ∀ c ∈ id.toList, c.isAlphanum = true ∨ c = '-')
    (scope : Scope) :
    (Node.ofSheet (sheet.scoped id) scope).toHtml =
      "<style>" ++ (sheet.scoped id).render ++ "</style>" ∧
    (HoldsEndTag (sheet.scoped id).render.toList ↔ ∃ p ∈ sheet.pieces, HoldsEndTag p.toList) ∧
    (HoldsEndTag (sheet.scoped id).render.toList →
      HoldsEndTag css.toList ∨ '\\' ∈ css.toList) ∧
    (¬HoldsEndTag (sheet.scoped id).render.toList →
      ReadsAsStyle (Node.ofSheet (sheet.scoped id) scope).toHtml.toList
        (sheet.scoped id).render.toList) := by
  have hlangle : '<' ∉ id.toList := fun hmem => by
    rcases hid _ hmem with hc | hc <;> exact absurd hc (by decide)
  have hhtml : (Node.ofSheet (sheet.scoped id) scope).toHtml =
      "<style>" ++ (sheet.scoped id).render ++ "</style>" := rfl
  have hpieces := holdsEndTag_render_scoped hlangle sheet
  refine ⟨hhtml, hpieces, fun hend => ?_, fun hend => ?_⟩
  · obtain ⟨p, hp, hpend⟩ := hpieces.mp hend
    exact holdsEndTag_of_parse h hp hpend
  · rw [hhtml, String.toList_append, String.toList_append]
    exact readsAsStyle_of_not_holdsEndTag hend

namespace Sample

/-- A sheet that writes tags of another element. -/
def boldSheet : Sheet := ⟨[.style ["p"] [⟨"content", "\"</b>\""⟩]]⟩

/-- A sheet that writes its own end tag. -/
def quoteSheet : Sheet := ⟨[.style ["p"] [⟨"content", "\"</STYLE>\""⟩]]⟩

end Sample

theorem toHtml_boldSheet :
    Sheet.parse "p \x7b content: \"</b>\" \x7d" = .ok Sample.boldSheet ∧
    ReadsAsStyle (Node.ofSheet (Sample.boldSheet.scoped "css-x-quote") .global).toHtml.toList
      (Sample.boldSheet.scoped "css-x-quote").render.toList := by
  have hparse : Sheet.parse "p \x7b content: \"</b>\" \x7d" = .ok Sample.boldSheet := by
    decide +kernel
  have hall : "css-x-quote".toList.all (fun c => c.isAlphanum || c == '-') = true := by decide
  have hid : ∀ c ∈ "css-x-quote".toList, c.isAlphanum = true ∨ c = '-' := fun c hc => by
    simpa using List.all_eq_true.mp hall c hc
  have hnone : ¬∃ p ∈ Sample.boldSheet.pieces, HoldsEndTag p.toList := by decide +kernel
  obtain ⟨-, hpieces, -, hreads⟩ := toHtml_ofSheet_scoped hparse hid .global
  exact ⟨hparse, hreads (hpieces.not.mpr hnone)⟩

/-- The string ends the element, and the rest of the sheet is read as markup. -/
theorem toHtml_quoteSheet :
    Sheet.parse "p \x7b content: \"</STYLE>\" \x7d" = .ok Sample.quoteSheet ∧
    (Node.ofSheet (Sample.quoteSheet.scoped "css-x-quote") .global).toHtml =
      "<style>.css-x-quote-p \x7b content: \"</STYLE>\"; \x7d</style>" ∧
    HoldsEndTag (Sample.quoteSheet.scoped "css-x-quote").render.toList ∧
    Markup.spanRaw "style" ((Sample.quoteSheet.scoped "css-x-quote").render.toList ++ closing) =
      (".css-x-quote-p \x7b content: \"".toList, "</STYLE>\"; \x7d</style>".toList) := by
  refine ⟨by decide +kernel, by decide +kernel, by decide +kernel, by decide +kernel⟩

end CustomElements.Style
