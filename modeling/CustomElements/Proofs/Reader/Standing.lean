import CustomElements.Proofs.Markup.Writing
import CustomElements.Proofs.Reader.Growth
import CustomElements.Proofs.Reader.Surroundings

/-!
# What a reader finds where it stands

The state of a reader refers to cells by number. `StandsIn` says which surroundings they make: the
names of the open elements, and that every formatting element is open, so that none has to be opened
again. Each search of the rules is then a question about the surroundings. Where nothing is found,
the rule changes nothing.
-/

namespace CustomElements.Markup

open Builder (TagAttributes)

/-- What an entry says, whichever element it is for. -/
def Formatting.said : Formatting → Option (String × TagAttributes)
  | .marker => none
  | .element _ name attributes => some (name, attributes)

/-- The reader stands in the surroundings, and nothing is left over from tokens before. -/
structure Builder.StandsIn (s : Surroundings) (b : Builder) : Prop where
  names : b.stack.map b.name = s.names
  nonempty : b.stack ≠ []
  valid : ∀ id ∈ b.stack, id < b.grove.cells.size
  formatting : b.formatting.map Formatting.said = s.formatting
  /-- Every formatting element is open. -/
  settled : ∀ e ∈ b.formatting, b.isSettled e = true
  form : b.form.isSome = s.form
  mode : b.mode = s.mode
  /-- Contents of templates are not part of the tree. -/
  noTemplate : ∀ n ∈ s.names, n.isHtml "template" = false
  fostering : b.fostering = false
  reading : b.reading = .markup
  skipNewline : b.skipNewline = false
  tableText : b.tableText = []

namespace Builder.StandsIn

variable {s : Surroundings} {b : Builder}

/-! ## The innermost open element -/

theorem exists_stack (h : b.StandsIn s) : ∃ rest, b.stack = b.current :: rest := by
  obtain ⟨id, rest, hstack⟩ := List.exists_cons_of_ne_nil h.nonempty
  refine ⟨rest, ?_⟩
  rw [current, hstack]
  rfl

theorem names_eq (h : b.StandsIn s) : ∃ rest, s.names = s.current :: rest := by
  obtain ⟨rest, hstack⟩ := h.exists_stack
  refine ⟨rest.map b.name, ?_⟩
  rw [Surroundings.current, ← h.names, hstack]
  rfl

theorem names_ne_nil (h : b.StandsIn s) : s.names ≠ [] := by
  obtain ⟨rest, hnames⟩ := h.names_eq
  rw [hnames]
  exact List.cons_ne_nil _ _

theorem currentName_eq (h : b.StandsIn s) : b.currentName = s.current := by
  obtain ⟨rest, hstack⟩ := h.exists_stack
  rw [Surroundings.current, ← h.names, hstack]
  rfl

theorem current_lt (h : b.StandsIn s) : b.current < b.grove.cells.size := by
  obtain ⟨rest, hstack⟩ := h.exists_stack
  refine h.valid _ ?_
  rw [hstack]
  exact List.mem_cons_self

/-- A search outwards that stops at the innermost element leaves all elements open. -/
theorem dropWhile_stack (h : b.StandsIn s) {p : ElementName → Bool} (hp : p s.current = false) :
    b.stack.dropWhile (fun id => p (b.name id)) = b.stack := by
  obtain ⟨rest, hstack⟩ := h.exists_stack
  have hid : ¬p (b.name b.current) = true := by
    rw [← h.currentName_eq] at hp
    exact Bool.eq_false_iff.mp hp
  rw [hstack]
  exact List.dropWhile_cons_of_neg hid

theorem currentIs_eq (h : b.StandsIn s) (name : String) :
    b.currentIs name = s.current.isHtml name := by
  rw [currentIs, h.currentName_eq]

theorem popIf_eq (h : b.StandsIn s) {name : String} (hname : s.current.isHtml name = false) :
    b.popIf name = b := by
  rw [popIf, h.currentIs_eq, hname]
  rfl

theorem closeImplied_eq (h : b.StandsIn s) {except : String}
    (hcurrent : s.current.endsByItself = false ∨ s.current.isHtml except = true) :
    b.closeImplied except = b := by
  have hkept : (s.current.endsByItself && !s.current.isHtml except) = false := by
    rcases hcurrent with hc | hc <;> simp [hc]
  rw [closeImplied, h.dropWhile_stack (p := fun n => n.endsByItself && !n.isHtml except) hkept]

theorem closeAllImplied_eq (h : b.StandsIn s) (hcurrent : s.current.endsByItself = false) :
    b.closeAllImplied = b :=
  h.closeImplied_eq (.inl hcurrent)

theorem popWhileNot_eq (h : b.StandsIn s) {p : ElementName → Bool} (hp : p s.current = true) :
    b.popWhileNot p = b := by
  rw [popWhileNot, h.dropWhile_stack (p := fun n => !p n) (by simp [hp])]

/-! ## Searches -/

theorem map_find? (h : b.StandsIn s) (p : ElementName → Bool) :
    (b.stack.find? fun id => p (b.name id)).map b.name = s.names.find? p := by
  rw [← h.names, List.find?_map]
  rfl

theorem inScopeWhere_eq (h : b.StandsIn s) (bounds p : ElementName → Bool) :
    b.inScopeWhere bounds (fun id => p (b.name id)) = s.inScope bounds p := by
  rw [inScopeWhere, Surroundings.inScope, ← h.map_find? fun n => p n || bounds n]
  cases b.stack.find? fun id => p (b.name id) || bounds (b.name id) <;> rfl

theorem inScope_eq (h : b.StandsIn s) (bounds : ElementName → Bool) (name : String) :
    b.inScope bounds name = s.inScope bounds (·.isHtml name) :=
  h.inScopeWhere_eq bounds (·.isHtml name)

theorem endParagraph_eq (h : b.StandsIn s) (hp : s.inParagraph = false) : b.endParagraph = b := by
  have hscope : b.inScope ElementName.boundsButtonScope "p" = false :=
    (h.inScope_eq _ _).trans hp
  rw [endParagraph, hscope]
  rfl

theorem endItem_eq (h : b.StandsIn s) {names : List String} (hitem : s.inItem names = false) :
    b.endItem names = b := by
  unfold Surroundings.inItem at hitem
  rw [← h.map_find? fun n =>
    n.isHtmlOf names || (n.endsSearch && !n.isHtmlOf ["address", "div", "p"])] at hitem
  unfold endItem
  cases hfind : b.stack.find? fun id => (b.name id).isHtmlOf names ||
      ((b.name id).endsSearch && !(b.name id).isHtmlOf ["address", "div", "p"]) with
  | none => rfl
  | some id =>
      rw [hfind] at hitem
      simp only [Option.map_some] at hitem
      simp only [hitem, Bool.false_eq_true, if_false]

theorem isOpen_template (h : b.StandsIn s) : b.isOpen "template" = false := by
  rw [isOpen, List.any_eq_false]
  intro id hid
  have hname := h.noTemplate (b.name id) (h.names ▸ List.mem_map_of_mem hid)
  simp [hname]

theorem isForeign_startTag (h : b.StandsIn s) (name : String) (attributes : TagAttributes)
    (selfClosing : Bool) :
    b.isForeign (.startTag name attributes selfClosing) = s.readsForeign name := by
  rw [isForeign, h.currentName_eq, Surroundings.readsForeign]
  cases hlanguage : s.current.language == Language.html <;> simp [hlanguage, bne]

/-! ## Formatting elements -/

theorem reopenFormatting_eq (h : b.StandsIn s) : b.reopenFormatting = b := by
  have hspan : ([] ++ b.formatting).span (fun e => !b.isSettled e) = ([], b.formatting) :=
    span_append (by simp) fun e he => by
      rw [h.settled e (List.mem_of_mem_head? he)]
      rfl
  rw [List.nil_append] at hspan
  rw [reopenFormatting, hspan]
  rfl

theorem map_recentFormatting (h : b.StandsIn s) :
    b.recentFormatting.map Formatting.said = s.recent := by
  rw [recentFormatting, Surroundings.recent, ← h.formatting, List.takeWhile_map]
  congr 2
  funext e
  cases e <;> rfl

theorem limitLike_eq (h : b.StandsIn s) {name : String} {attributes : TagAttributes}
    (hcount : s.countLike name attributes < 3) : b.limitLike name attributes = b := by
  have hsame : b.recentFormatting.countP (·.isLike name attributes) =
      s.countLike name attributes := by
    rw [Surroundings.countLike, ← h.map_recentFormatting, List.countP_map]
    congr 1
    funext e
    cases e <;> rfl
  rw [limitLike, hsame, if_neg (by omega)]

theorem endLink_eq (h : b.StandsIn s)
    (hlink : (s.recent.all fun e => e.all fun e => e.1 != "a") = true) : b.endLink = b := by
  have hnone : b.lastFormatting? "a" = none := by
    rw [lastFormatting?, List.findSome?_eq_none_iff]
    intro e he
    rw [← h.map_recentFormatting, List.all_map, List.all_eq_true] at hlink
    have hname := hlink e he
    cases e with
    | marker => rfl
    | element id name attributes =>
        have hne : name ≠ "a" := by simpa [Formatting.said] using hname
        simp [hne]
  rw [endLink, hnone]

end Builder.StandsIn

/-! ## The mode of the surroundings -/

theorem selectMode_eq (b : Builder) (stack : List Nat) :
    b.selectMode stack = selectModeOf (stack.map b.name) := by
  induction stack with
  | nil => rfl
  | cons id rest ih => rw [Builder.selectMode, List.map_cons, selectModeOf, ih]

theorem selectModeOf_eq {names : List ElementName}
    (h : ∀ n ∈ names, n.isHtml "template" = false) : selectModeOf names =
      if names.any (·.isHtml "table") then .selectInTable else .select := by
  induction names with
  | nil => rfl
  | cons n rest ih =>
      rw [List.forall_mem_cons] at h
      rw [selectModeOf, h.1, if_neg Bool.false_ne_true, List.any_cons, ih h.2]
      cases n.isHtml "table" <;> rfl

theorem modeWithin_eq (b : Builder) {stack : List Nat}
    (h : ∀ id ∈ stack, (b.name id).isHtml "template" = false) :
    b.modeWithin stack = modeOf (stack.map b.name) := by
  induction stack with
  | nil => rfl
  | cons id rest ih =>
      rw [List.forall_mem_cons] at h
      cases rest with
      | nil => rfl
      | cons next rest =>
          rw [Builder.modeWithin, List.map_cons, List.map_cons, modeOf, ← List.map_cons,
            selectMode_eq, ih h.2]
          · simp only [h.1, Bool.false_eq_true, if_false]
          · simp
          · simp

/-- The names of elements that call for a mode of their own. -/
def modeNames : List String :=
  ["select", "td", "th", "tr", "tbody", "thead", "tfoot", "caption", "colgroup", "table",
    "template", "body"]

theorem isHtml_eq_false {n : ElementName} {names : List String} (hn : n.isHtmlOf names = false)
    {name : String} (hname : name ∈ names) : n.isHtml name = false := by
  rw [ElementName.isHtmlOf, Bool.and_eq_false_iff] at hn
  rw [ElementName.isHtml, Bool.and_eq_false_iff]
  refine hn.imp_right fun hnot => ?_
  rw [← Bool.not_eq_true, beq_iff_eq]
  rintro rfl
  rw [List.contains_iff_mem.mpr hname] at hnot
  cases hnot

theorem isHtmlOf_eq_false {n : ElementName} {names some : List String}
    (hn : n.isHtmlOf names = false) (hsome : ∀ name ∈ some, name ∈ names) :
    n.isHtmlOf some = false := by
  rw [ElementName.isHtmlOf, Bool.and_eq_false_iff] at hn ⊢
  refine hn.imp_right fun hnot => ?_
  rw [← Bool.not_eq_true, List.contains_iff_mem] at hnot ⊢
  exact fun hmem => hnot (hsome _ hmem)

theorem isHtmlOf_mono {n : ElementName} {names some : List String}
    (hn : n.isHtmlOf some = true) (hsome : ∀ name ∈ some, name ∈ names) :
    n.isHtmlOf names = true := by
  rw [ElementName.isHtmlOf, Bool.and_eq_true, List.contains_iff_mem] at hn ⊢
  exact ⟨hn.1, hsome _ hn.2⟩

theorem isHtmlOf_of_isHtml {n : ElementName} {names : List String} {name : String}
    (hn : n.isHtml name = true) (hname : name ∈ names) : n.isHtmlOf names = true := by
  rw [ElementName.isHtml, Bool.and_eq_true, beq_iff_eq (a := n.name)] at hn
  rw [ElementName.isHtmlOf, Bool.and_eq_true, List.contains_iff_mem, hn.2]
  exact ⟨hn.1, hname⟩

/-- An element with no mode of its own leaves the mode. -/
theorem modeOf_cons {n : ElementName} {names : List ElementName}
    (hn : n.isHtmlOf modeNames = false) (hne : names ≠ []) :
    modeOf (n :: names) = modeOf names := by
  obtain ⟨m, rest, rfl⟩ := List.exists_cons_of_ne_nil hne
  rw [modeOf, isHtml_eq_false hn (by decide), isHtmlOf_eq_false hn (by decide),
    isHtml_eq_false hn (by decide), isHtmlOf_eq_false hn (by decide),
    isHtml_eq_false hn (by decide), isHtml_eq_false hn (by decide),
    isHtml_eq_false hn (by decide), isHtml_eq_false hn (by decide),
    isHtml_eq_false hn (by decide)]
  · rfl
  · simp

/-- Whatever the mode was changed to, the surroundings call for theirs. -/
theorem Builder.StandsIn.resetMode_of {s : Surroundings} {b : Builder} (h : b.StandsIn s)
    (mode : Mode) : { b with mode := mode }.resetMode = b := by
  have hmode : { b with mode := mode }.modeWithin b.stack = b.mode := by
    rw [modeWithin_eq, h.mode, Surroundings.mode, ← h.names]
    · rfl
    · intro id hid
      exact h.noTemplate _ (h.names ▸ List.mem_map_of_mem hid)
  have hreset : { b with mode := mode }.resetMode =
      { b with mode := { b with mode := mode }.modeWithin b.stack } := rfl
  rw [hreset, hmode]

end CustomElements.Markup
