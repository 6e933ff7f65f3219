import CustomElements.Proofs.Markup.Writing

/-!
# Text and attribute values stay what they are

The simplest reader of markup knows three things: text runs up to the next `<`, the value of an
attribute up to the next `"`, and an element up to the end tag of its name. It is given a tree of
elements and text as it is written, with any texts and any values. If a text or a value could begin
or end an element, this reader would be the first to be misled. But it reads the same tree back
(`Plain.read_forestToHtml`): the escapes of text are replaced, and those of values are left, as this
reader knows nothing about them.
-/

namespace CustomElements

namespace Plain

open Markup (upTo?)

/-! ## The reader -/

/-- Text with the escapes for the three marks of markup replaced. -/
def unescape : List Char → List Char
  | '&' :: 'a' :: 'm' :: 'p' :: ';' :: rest => '&' :: unescape rest
  | '&' :: 'l' :: 't' :: ';' :: rest => '<' :: unescape rest
  | '&' :: 'g' :: 't' :: ';' :: rest => '>' :: unescape rest
  | c :: rest => c :: unescape rest
  | [] => []

/-- The attributes of a tag, each a space, a key, `=` and a quoted value, and what follows `>`. -/
def attributes? : (fuel : Nat) → List Char → Option (List (String × String) × List Char)
  | 0, _ => none
  | _, '>' :: rest => some ([], rest)
  | fuel + 1, ' ' :: rest =>
    match upTo? '=' rest with
    | some (key, '"' :: rest) =>
      match upTo? '"' rest with
      | some (value, rest) => do
        let (more, rest) ← attributes? fuel rest
        return ((String.ofList key, String.ofList value) :: more, rest)
      | none => none
    | _ => none
  | _, _ => none

/-- What follows the end tag of the name. -/
def endTag? (name cs : List Char) : Option (List Char) :=
  Text.dropPart? ('<' :: '/' :: (name ++ ['>'])) cs

/-- The tag of a name and attributes. -/
def tagOf (name : List Char) (attributes : List (String × String)) : Tag :=
  { Tag.ofName (String.ofList name) with attributes := .ofList attributes }

mutual

/-- The element whose tag begins before the text, and what follows it. -/
def element? : (fuel : Nat) → List Char → Option (Node × List Char)
  | 0, _ => none
  | fuel + 1, cs => do
    let (name, rest) := cs.span fun c => c != ' ' && c != '>'
    let (attributes, rest) ← attributes? fuel rest
    if (tagOf name attributes).selfClosing then return (.element (tagOf name attributes) [], rest)
    let (children, rest) ← forest? fuel rest
    let rest ← endTag? name rest
    return (.element (tagOf name attributes) children, rest)

/-- The nodes up to the next end tag or the end, and what follows them. -/
def forest? : (fuel : Nat) → List Char → Option (List Node × List Char)
  | 0, _ => none
  | _, [] => some ([], [])
  | _, '<' :: '/' :: rest => some ([], '<' :: '/' :: rest)
  | fuel + 1, '<' :: rest => do
    let (n, rest) ← element? fuel rest
    let (ns, rest) ← forest? fuel rest
    return (n :: ns, rest)
  | fuel + 1, cs => do
    let (text, rest) := cs.span (· != '<')
    let (ns, rest) ← forest? fuel rest
    return (.text (String.ofList (unescape text)) :: ns, rest)

end

/-- The forest that the whole text stands for. -/
def read? (markup : String) : Option (List Node) :=
  match forest? (markup.length + 1) markup.toList with
  | some (nodes, []) => some nodes
  | _ => none

end Plain

/-! ## The trees that are written -/

/-- A name that is not empty and made of ASCII letters, digits and dashes. -/
def Plain.isName (s : String) : Bool := s != "" && s.toList.all fun c => c.isAlphanum || c == '-'

/-- A tag as it is before expansion, whose element has escaped text in it, or none if it is void. -/
structure Tag.Plain (t : Tag) : Prop where
  name : Plain.isName t.name = true
  names : ∀ key ∈ t.attributes.names, Plain.isName key = true
  escaped : t.name ∉ rawTextNames
  selfClosing : t.selfClosing = isVoidName t.name
  unexpanded : t.expanded = false

/-- The node is text. -/
def Node.isText : Node → Bool
  | .text _ => true
  | _ => false

mutual

/-- Elements and text, with no empty text and no text next to another. -/
inductive Node.Plain : Node → Prop where
  | text {s : String} (filled : s ≠ "") : Node.Plain (.text s)
  | element {tag : Tag} {children : List Node} (plain : tag.Plain)
      (void : tag.selfClosing = true → children = []) (inside : Node.PlainForest children) :
      Node.Plain (.element tag children)

inductive Node.PlainForest : List Node → Prop where
  | nil : Node.PlainForest []
  | cons {n : Node} {rest : List Node} (first : n.Plain)
      (apart : n.isText = true → ∀ m ∈ rest.head?, m.isText = false)
      (onward : Node.PlainForest rest) : Node.PlainForest (n :: rest)

end

mutual

/-- The node with every attribute value escaped. -/
def Node.escapeValues : Node → Node
  | .element tag children =>
    .element { tag with attributes := tag.attributes.map escapeAttribute }
      (Node.escapeValuesForest children)
  | n => n

def Node.escapeValuesForest : List Node → List Node
  | [] => []
  | n :: rest => n.escapeValues :: Node.escapeValuesForest rest

end

/-! ## Reading back -/

namespace Plain

open Markup (upTo?)

theorem unescape_escape (cs : List Char) : unescape (cs.flatMap escapeTextChar) = cs := by
  induction cs with
  | nil => rfl
  | cons c cs ih =>
      rw [List.flatMap_cons, escapeTextChar]
      split_ifs with hamp hlt hgt
      · simp only [List.cons_append, List.nil_append, unescape, ih, hamp]
      · simp only [List.cons_append, List.nil_append, unescape, ih, hlt]
      · simp only [List.cons_append, List.nil_append, unescape, ih, hgt]
      · rw [List.singleton_append, unescape, ih]
        all_goals intro rest h; exact absurd h hamp

theorem isName_iff {s : String} :
    isName s = true ↔ s ≠ "" ∧ ∀ c ∈ s.toList, c.isAlphanum = true ∨ c = '-' := by
  simp [isName]

/-- None of the marks that a reader looks for behind a name stands in it. -/
theorem notMem_name {s : String} (h : isName s = true) {c : Char} (hc : c.isAlphanum = false)
    (hdash : c ≠ '-') : c ∉ s.toList := by
  intro hmem
  rcases (isName_iff.mp h).2 c hmem with hc' | hc'
  · rw [hc] at hc'
    cases hc'
  · exact hdash hc'

theorem attributes?_attributesText {entries : List (String × String)}
    (h : ∀ key ∈ entries.map Prod.fst, isName key = true) (rest : List Char) {fuel : Nat}
    (hfuel : entries.length < fuel) :
    attributes? fuel (attributesText entries ++ '>' :: rest) =
      some (entries.map fun a => (a.1, escapeAttribute a.2), rest) := by
  induction entries generalizing fuel with
  | nil =>
      cases fuel with
      | zero => omega
      | succ fuel => rfl
  | cons a entries ih =>
      cases fuel with
      | zero => omega
      | succ fuel =>
          rw [List.map_cons, List.forall_mem_cons] at h
          have hkey := notMem_name h.1 (c := '=') rfl (by decide)
          have hmore := ih h.2 (Nat.lt_of_succ_lt_succ hfuel)
          have htext : attributesText (a :: entries) ++ '>' :: rest =
              ' ' :: (a.1.toList ++ '=' :: '"' :: ((escapeAttribute a.2).toList ++
                '"' :: (attributesText entries ++ '>' :: rest))) := by
            simp [attributesText]
          rw [htext, attributes?, Markup.upTo?_append hkey]
          simp only
          rw [Markup.upTo?_append (quote_notMem_escapeAttribute a.2)]
          simp [hmore]

/-- Where text ends, a tag begins, or there is nothing. -/
def Ended (cs : List Char) : Prop := ∀ c ∈ cs.head?, c = '<'

theorem ended_renderForest {nodes : List Node} (h : Node.PlainForest nodes)
    (hfirst : ∀ m ∈ nodes.head?, m.isText = false) {rest : List Char} (hrest : Ended rest) :
    Ended ((Node.renderForest false nodes).toList ++ rest) := by
  cases h with
  | nil => simpa [Node.renderForest] using hrest
  | @cons n nodes first apart onward =>
      cases first with
      | text filled => cases hfirst _ rfl
      | @element tag children plain void inside =>
          rw [Node.renderForest, String.toList_append, toList_render_element]
          rintro _ ⟨⟩
          rfl

/-- The forest is read back wherever it stands, given fuel for each character from there on. -/
def Reads (nodes : List Node) : Prop :=
  ∀ (rest : List Char) (fuel : Nat), (rest = [] ∨ ∃ r, rest = '<' :: '/' :: r) →
    ((Node.renderForest false nodes).toList ++ rest).length < fuel →
    forest? fuel ((Node.renderForest false nodes).toList ++ rest) =
      some (Node.escapeValuesForest nodes, rest)

/-- A name is read up to the attributes, or to the end of the tag. -/
theorem span_name {s : String} (hs : isName s = true) (entries : List (String × String))
    (after : List Char) :
    (s.toList ++ (attributesText entries ++ '>' :: after)).span (fun c => c != ' ' && c != '>') =
      (s.toList, attributesText entries ++ '>' :: after) := by
  refine span_append (fun c hc => ?_) fun c hc => ?_
  · have hspace := notMem_name hs (c := ' ') rfl (by decide)
    have hmark := notMem_name hs (c := '>') rfl (by decide)
    rw [Bool.and_eq_true, bne_iff_ne, bne_iff_ne]
    exact ⟨fun e => hspace (e ▸ hc), fun e => hmark (e ▸ hc)⟩
  · cases entries with
    | nil =>
        cases hc
        rfl
    | cons a entries =>
        cases hc
        rfl

/-- What the reader makes of the tag of a plain element. -/
theorem tagOf_escaped {tag : Tag} (h : tag.Plain) :
    tagOf tag.name.toList (tag.attributes.entries.map fun a => (a.1, escapeAttribute a.2)) =
      { tag with attributes := tag.attributes.map escapeAttribute } := by
  have hattributes : Fields.ofList (tag.attributes.entries.map fun a =>
      (a.1, escapeAttribute a.2)) = tag.attributes.map escapeAttribute :=
    Fields.mk.injEq .. |>.mpr (Fields.entries_ofList (tag.attributes.map escapeAttribute).nodup)
  rw [tagOf, Tag.ofName, String.ofList_toList, hattributes, ← h.selfClosing, ← h.unexpanded]

theorem element?_tagText {tag : Tag} {children : List Node} (hplain : tag.Plain)
    (hvoid : tag.selfClosing = true → children = []) (hinside : Reads children) (rest : List Char)
    {fuel : Nat} (hfuel : (tagText tag children ++ rest).length < fuel) :
    element? fuel (tagText tag children ++ rest) =
      some ((Node.element tag children).escapeValues, rest) := by
  obtain ⟨after, htext, hafter⟩ : ∃ after, tagText tag children ++ rest =
      tag.name.toList ++ (attributesText tag.attributes.entries ++ '>' :: after) ∧
      after = (if tag.selfClosing then [] else (Node.renderForest false children).toList ++
        '<' :: '/' :: (tag.name.toList ++ ['>'])) ++ rest := by
    refine ⟨_, ?_, rfl⟩
    rw [tagText, List.contains_eq_mem, decide_eq_false hplain.escaped]
    simp
  rw [htext] at hfuel ⊢
  have hentries := length_le_attributesText tag.attributes.entries
  simp only [List.length_append, List.length_cons] at hfuel
  cases fuel with
  | zero => omega
  | succ fuel =>
      rw [element?, span_name hplain.name]
      dsimp only
      rw [attributes?_attributesText hplain.names after (by omega)]
      dsimp only [Option.bind_eq_bind, Option.bind_some]
      simp only [tagOf_escaped hplain, Node.escapeValues]
      cases hself : tag.selfClosing with
      | true =>
          rw [hvoid hself, hafter, hself]
          rfl
      | false =>
          rw [hself, if_neg Bool.false_ne_true, List.append_assoc] at hafter
          have hbelow := hinside ('<' :: '/' :: (tag.name.toList ++ ['>']) ++ rest) fuel
            (.inr ⟨_, rfl⟩) (by rw [← hafter]; omega)
          have hend : endTag? tag.name.toList ('<' :: '/' :: (tag.name.toList ++ ['>']) ++ rest) =
              some rest := Text.dropPart?_append _ rest
          rw [if_neg Bool.false_ne_true, hafter, hbelow]
          simp only [Option.bind_some, hend]
          rfl

theorem reads_nil : Reads [] := by
  intro rest fuel hrest hfuel
  cases fuel with
  | zero => omega
  | succ fuel =>
      rcases hrest with rfl | ⟨r, rfl⟩ <;> rfl

theorem reads_text {s : String} {rest : List Node} (hs : s ≠ "")
    (hrest : Node.PlainForest rest) (hfirst : ∀ m ∈ rest.head?, m.isText = false)
    (honward : Reads rest) : Reads (.text s :: rest) := by
  intro after fuel hafter hfuel
  have htext : (Node.renderForest false (.text s :: rest)).toList ++ after =
      s.toList.flatMap escapeTextChar ++ ((Node.renderForest false rest).toList ++ after) := by
    simp [Node.renderForest, Node.render, toList_escapeText]
  have hnone := langle_notMem_escapeText s
  rw [toList_escapeText] at hnone
  have hended : Ended ((Node.renderForest false rest).toList ++ after) :=
    ended_renderForest hrest hfirst (by rcases hafter with rfl | ⟨r, rfl⟩ <;> simp [Ended])
  have hspan : (s.toList.flatMap escapeTextChar ++
      ((Node.renderForest false rest).toList ++ after)).span (· != '<') =
      (s.toList.flatMap escapeTextChar, (Node.renderForest false rest).toList ++ after) :=
    span_append (fun c hc => bne_iff_ne.mpr fun e => hnone (e ▸ hc))
      fun c hc => by rw [hended c hc]; rfl
  have hread : String.ofList (unescape (s.toList.flatMap escapeTextChar)) = s := by
    rw [unescape_escape, String.ofList_toList]
  rw [htext] at hfuel ⊢
  -- the text begins with a character that is no mark
  rcases hcs : s.toList.flatMap escapeTextChar with - | ⟨c, cs⟩
  · rw [hcs] at hread
    exact absurd hread.symm hs
  · rw [hcs] at hnone hspan hread hfuel
    simp only [List.mem_cons, not_or] at hnone
    cases fuel with
    | zero => omega
    | succ fuel =>
        rw [List.cons_append, List.length_cons, List.length_append] at hfuel
        have hbehind := honward after fuel hafter (by omega)
        rw [List.cons_append] at hspan ⊢
        rw [forest?, hspan]
        · simp only [Option.bind_eq_bind, hbehind, Option.bind_some, hread]
          rfl
        · exact List.cons_ne_nil _ _
        · exact fun r h => hnone.1 (List.cons.inj h).1.symm
        · exact fun r h => hnone.1 (List.cons.inj h).1.symm

theorem reads_element {tag : Tag} {children rest : List Node} (hplain : tag.Plain)
    (hvoid : tag.selfClosing = true → children = []) (hinside : Reads children)
    (honward : Reads rest) : Reads (.element tag children :: rest) := by
  intro after fuel hafter hfuel
  have htext : (Node.renderForest false (.element tag children :: rest)).toList ++ after =
      '<' :: (tagText tag children ++ ((Node.renderForest false rest).toList ++ after)) := by
    rw [Node.renderForest, String.toList_append, toList_render_element]
    simp
  rw [htext] at hfuel ⊢
  cases fuel with
  | zero => omega
  | succ fuel =>
      rw [List.length_cons] at hfuel
      have hfirst := element?_tagText hplain hvoid hinside
        ((Node.renderForest false rest).toList ++ after) (Nat.lt_of_succ_lt_succ hfuel)
      have hbehind := honward after fuel hafter (by rw [List.length_append] at hfuel; omega)
      rw [forest?]
      · simp only [Option.bind_eq_bind, hfirst, Option.bind_some, hbehind]
        rfl
      · -- a name does not begin with the mark of an end tag
        intro r h
        rw [tagText] at h
        rcases hname : tag.name.toList with - | ⟨c, cs⟩
        · exact (isName_iff.mp hplain.name).1 (String.toList_eq_nil_iff.mp hname)
        · rw [hname] at h
          have hslash := notMem_name hplain.name (c := '/') rfl (by decide)
          rw [hname] at hslash
          exact hslash (by rw [(List.cons.inj h).1]; exact List.mem_cons_self)

theorem reads_of_plain : (nodes : List Node) → Node.PlainForest nodes → Reads nodes
  | [], _ => reads_nil
  | .text s :: rest, h => by
      cases h with
      | cons first apart onward =>
          cases first with
          | text filled => exact reads_text filled onward (apart rfl) (reads_of_plain rest onward)
  | .element tag children :: rest, h => by
      cases h with
      | cons first apart onward =>
          cases first with
          | element plain void inside =>
              exact reads_element plain void (reads_of_plain children inside)
                (reads_of_plain rest onward)

/--
**Text and attribute values never change the elements.** What is written for a tree of elements and
texts is read back as that tree by a reader that takes text up to the next `<`, values up to the
next quote and elements up to the end tag of their name, with the values as they were escaped.
-/
theorem read?_forestToHtml {nodes : List Node} (h : Node.PlainForest nodes) :
    read? (Node.forestToHtml nodes) = some (Node.escapeValuesForest nodes) := by
  have hread := reads_of_plain nodes h [] ((Node.renderForest false nodes).length + 1) (.inl rfl)
  rw [List.append_nil, String.length_toList] at hread
  rw [read?, Node.forestToHtml, hread (Nat.lt_succ_self _)]

end Plain

namespace Sample

def breakTag : Tag := ⟨"BR", ∅, true, false⟩

def innerTag : Tag := ⟨"p", .ofList [("id", "</p>")], false, false⟩

def outerTag : Tag :=
  ⟨"p", .ofList [("title", "\"><p class=\"&quot;\">"), ("data-1", "")], false, false⟩

/-- Texts and values full of marks, around a void element and in elements of one name. -/
def markedForest : List Node :=
  [.text "1 < 2 && \"</p>\" > &lt;",
    .element outerTag [.element breakTag [], .element innerTag [.text "</p>&amp;"]], .text "\""]

theorem plain_markedForest : Node.PlainForest markedForest := by
  have hbreak : breakTag.Plain := by constructor <;> decide +kernel
  have hinner : innerTag.Plain := by constructor <;> decide +kernel
  have houter : outerTag.Plain := by constructor <;> decide +kernel
  have htext : Node.PlainForest [.text "</p>&amp;"] :=
    .cons (.text (by decide)) (by simp) .nil
  have hbelow : Node.PlainForest [.element breakTag [], .element innerTag [.text "</p>&amp;"]] :=
    .cons (.element hbreak (fun _ => rfl) .nil) nofun
      (.cons (.element hinner nofun htext) nofun .nil)
  exact .cons (.text (by decide)) (by simp [Node.isText])
    (.cons (.element houter nofun hbelow) nofun (.cons (.text (by decide)) (by simp) .nil))

end Sample

open Sample in
theorem Plain.read?_markedForest : Node.PlainForest markedForest ∧
    Plain.read? (Node.forestToHtml markedForest) = some (Node.escapeValuesForest markedForest) :=
  ⟨plain_markedForest, Plain.read?_forestToHtml plain_markedForest⟩

end CustomElements
