import CustomElements.Proofs.Markup.Slots
import CustomElements.Proofs.Markup.Writing

/-!
# The passages of a tree

A *passage* is text that stands in one piece in a tree: a text, the value of an attribute, or a
stylesheet as it is written. All else that is printed is tags, so a word that a template has written
is in the output if it is in a passage that is printed.

Not all of them are. An element that closes itself is printed without its children, so the passages
of a tree are printed or hidden (`Node.perm_printed`). Escaping changes a passage that is printed,
but no word of letters and digits in it (`Node.infix_toHtml`).
-/

namespace CustomElements

mutual

/-- The passages of a node, in document order. -/
def Node.passages : Node → List String
  | .element tag children => tag.attributes.values ++ Node.passagesForest children
  | .text s => [s]
  | .style attributes s => attributes.values ++ [s.sheet.render]
  | .styleText s => [s.sheet.render]

def Node.passagesForest : List Node → List String
  | [] => []
  | n :: rest => n.passages ++ Node.passagesForest rest

end

mutual

/-- The passages of a node that are printed. -/
def Node.printed : Node → List String
  | .element tag children =>
    tag.attributes.values ++ if tag.selfClosing then [] else Node.printedForest children
  | n => n.passages

def Node.printedForest : List Node → List String
  | [] => []
  | n :: rest => n.printed ++ Node.printedForest rest

end

mutual

/-- The passages inside elements that close themselves. -/
def Node.hidden : Node → List String
  | .element tag children =>
    if tag.selfClosing then Node.passagesForest children else Node.hiddenForest children
  | _ => []

def Node.hiddenForest : List Node → List String
  | [] => []
  | n :: rest => n.hidden ++ Node.hiddenForest rest

end

namespace Node

theorem passagesForest_eq_flatMap (nodes : List Node) :
    passagesForest nodes = nodes.flatMap passages := by
  induction nodes with
  | nil => rfl
  | cons n rest ih => rw [passagesForest, List.flatMap_cons, ih]

@[simp] theorem passagesForest_append (ns ms : List Node) :
    passagesForest (ns ++ ms) = passagesForest ns ++ passagesForest ms := by
  simp only [passagesForest_eq_flatMap, List.flatMap_append]

theorem additive_passages : Additive passages :=
  ⟨fun tag => tag.attributes.values, fun tag children => by
    rw [passages, passagesForest_eq_flatMap]⟩

mutual

theorem perm_printed : (n : Node) → (n.printed ++ n.hidden).Perm n.passages
  | .text _ => .refl _
  | .styleText _ => .refl _
  | .style _ _ => .of_eq (List.append_nil _)
  | .element tag children => by
      unfold printed hidden passages
      split
      · rw [List.append_nil]
      · rw [List.append_assoc]
        exact (perm_printedForest children).append_left _

/-- **A passage is printed or hidden.** -/
theorem perm_printedForest : (nodes : List Node) →
    (printedForest nodes ++ hiddenForest nodes).Perm (passagesForest nodes)
  | [] => .refl _
  | n :: rest => (perm_append_exchange _ _ _ _).trans
      ((perm_printed n).append (perm_printedForest rest))

end

end Node

/-! ## Words in what is printed -/

/-- Letters and digits. -/
def Alphanumeric (word : List Char) : Prop := ∀ c ∈ word, c.isAlphanum = true

section Word

variable {word : List Char}

/-- A word without characters that are escaped stands in the escaped text as it is. -/
theorem infix_flatMap {escape : Char → List Char} {text : List Char}
    (hword : ∀ c ∈ word, escape c = [c]) (h : word <:+: text) :
    word <:+: text.flatMap escape := by
  obtain ⟨before, after, rfl⟩ := h
  refine ⟨before.flatMap escape, after.flatMap escape, ?_⟩
  have hsame : word.flatMap escape = word := by
    rw [List.flatMap_congr hword, List.flatMap_singleton']
  rw [List.flatMap_append, List.flatMap_append, hsame]

theorem escapeTextChar_of_isAlphanum {c : Char} (h : c.isAlphanum = true) :
    escapeTextChar c = [c] := by
  unfold escapeTextChar
  split_ifs with hamp hlt hgt
  · exact absurd (hamp ▸ h) (by decide)
  · exact absurd (hlt ▸ h) (by decide)
  · exact absurd (hgt ▸ h) (by decide)
  · rfl

theorem escapeAttributeChar_of_isAlphanum {c : Char} (h : c.isAlphanum = true) :
    escapeAttributeChar c = [c] := by
  unfold escapeAttributeChar
  split_ifs with hquote
  · exact absurd (hquote ▸ h) (by decide)
  · rfl

theorem infix_attributesText (hword : Alphanumeric word) {attributes : Attributes} {v : String}
    (hv : v ∈ attributes.values) (h : word <:+: v.toList) :
    word <:+: attributesText attributes.entries := by
  obtain ⟨a, ha, rfl⟩ := List.mem_map.mp hv
  have hvalue : word <:+: (escapeAttribute a.2).toList := by
    rw [toList_escapeAttribute]
    exact infix_flatMap (fun c hc => escapeAttributeChar_of_isAlphanum (hword c hc)) h
  have hone : (escapeAttribute a.2).toList <:+:
      ' ' :: (a.1.toList ++ '=' :: '"' :: ((escapeAttribute a.2).toList ++ ['"'])) :=
    ⟨' ' :: (a.1.toList ++ ['=', '"']), ['"'], by simp⟩
  obtain ⟨before, after, hentries⟩ := List.append_of_mem ha
  rw [attributesText, hentries, List.flatMap_append, List.flatMap_cons]
  exact hvalue.trans (hone.trans (List.infix_append' _ _ _))

theorem infix_renderOpenTag (hword : Alphanumeric word) (name : String)
    {attributes : Attributes} {v : String} (hv : v ∈ attributes.values)
    (h : word <:+: v.toList) :
    word <:+: (renderOpenTag name attributes).toList := by
  rw [toList_renderOpenTag]
  exact (infix_attributesText hword hv h).trans ⟨'<' :: name.toList, ['>'], by simp⟩

mutual

theorem Node.infix_render (hword : Alphanumeric word) {v : String} (h : word <:+: v.toList) :
    (raw : Bool) → (n : Node) → v ∈ n.printed → word <:+: (n.render raw).toList
  | raw, .text s, hv => by
      rw [List.mem_singleton.mp hv] at h
      unfold render
      split
      · exact h
      · rw [toList_escapeText]
        exact infix_flatMap (fun c hc => escapeTextChar_of_isAlphanum (hword c hc)) h
  | _, .styleText s, hv => by
      rw [List.mem_singleton.mp hv] at h
      exact h
  | _, .style attributes s, hv => by
      rw [render, String.toList_append, String.toList_append]
      rcases List.mem_append.mp hv with hv | hv
      · rw [List.append_assoc]
        exact (infix_renderOpenTag hword "style" hv h).trans (List.prefix_append _ _).isInfix
      · rw [List.mem_singleton.mp hv] at h
        exact h.trans (List.infix_append _ _ _)
  | _, .element tag children, hv => by
      unfold render
      rcases List.mem_append.mp hv with hv | hv
      · have hopen := infix_renderOpenTag hword tag.name hv h
        dsimp only
        split
        · exact hopen
        · rw [String.toList_append, String.toList_append, List.append_assoc]
          exact hopen.trans (List.prefix_append _ _).isInfix
      · dsimp only
        split at hv
        · exact absurd hv List.not_mem_nil
        · rename_i hclosing
          rw [if_neg hclosing, String.toList_append, String.toList_append]
          exact (infix_renderForest hword h _ children hv).trans (List.infix_append _ _ _)

theorem Node.infix_renderForest (hword : Alphanumeric word) {v : String}
    (h : word <:+: v.toList) : (raw : Bool) → (nodes : List Node) → v ∈ printedForest nodes →
      word <:+: (renderForest raw nodes).toList
  | _, [], hv => absurd hv List.not_mem_nil
  | raw, n :: rest, hv => by
      rw [renderForest, String.toList_append]
      rcases List.mem_append.mp hv with hv | hv
      · exact (infix_render hword h raw n hv).trans (List.prefix_append _ _).isInfix
      · exact (infix_renderForest hword h raw rest hv).trans (List.suffix_append _ _).isInfix

end

/-- **What is in a passage that is printed is in the output.** -/
theorem Node.infix_toHtml (hword : Alphanumeric word) {n : Node} {v : String}
    (hv : v ∈ n.printed) (h : word <:+: v.toList) : word <:+: n.toHtml.toList :=
  n.infix_render hword h false hv

end Word

end CustomElements
