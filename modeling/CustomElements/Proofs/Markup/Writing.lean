import CustomElements.Markup.Printer
import CustomElements.Markup.Reader.Token
import CustomElements.Text.Search
import Mathlib.Data.List.TakeDrop

/-!
# What the printer of markup writes

The text of tags, character by character, and where a reader that looks for a mark comes to in it:
escaped text holds no `<` and no `>`, and an escaped value holds no quote.
-/

namespace CustomElements

/-- The characters before the first one that fails the test, and the others. -/
theorem span_append {α : Type} {p : α → Bool} {before after : List α}
    (hbefore : ∀ a ∈ before, p a = true) (hafter : ∀ a ∈ after.head?, p a = false) :
    (before ++ after).span p = (before, after) := by
  have hnone : after.takeWhile p = [] ∧ after.dropWhile p = after := by
    cases after with
    | nil => exact ⟨rfl, rfl⟩
    | cons a after =>
        have ha := hafter a rfl
        exact ⟨List.takeWhile_cons_of_neg (by simp [ha]), List.dropWhile_cons_of_neg (by simp [ha])⟩
  rw [List.span_eq_takeWhile_dropWhile, List.takeWhile_append_of_pos hbefore,
    List.dropWhile_append_of_pos hbefore, hnone.1, hnone.2, List.append_nil]

/-- A word stays on its side of a letter that it does not have. -/
theorem prefix_append_cons_iff {α : Type} {w a b : List α} {s : α} (hs : s ∉ w) :
    w <+: a ++ s :: b ↔ w <+: a := by
  refine ⟨fun h => ?_, fun h => h.trans (List.prefix_append a _)⟩
  rcases List.prefix_or_prefix_of_prefix h (List.prefix_append a (s :: b)) with hwa | ⟨d, rfl⟩
  · exact hwa
  · rcases d with - | ⟨s', d⟩
    · exact (List.append_nil a).symm ▸ List.prefix_rfl
    · obtain ⟨rfl, -⟩ := List.cons_prefix_cons.mp (List.prefix_append_right_inj a |>.mp h)
      exact absurd (List.mem_append_right a List.mem_cons_self) hs

theorem Text.dropPart?_append (part rest : List Char) :
    dropPart? part (part ++ rest) = some rest := by
  induction part with
  | nil => rfl
  | cons c part ih => rw [List.cons_append, dropPart?, if_pos rfl, ih]

theorem Markup.upTo?_append {quote : Char} {text : List Char} (h : quote ∉ text)
    (rest : List Char) : upTo? quote (text ++ quote :: rest) = some (text, rest) := by
  have hspan : (text ++ quote :: rest).span (· != quote) = (text, quote :: rest) :=
    span_append (fun c hc => bne_iff_ne.mpr fun e => h (e ▸ hc)) (by simp)
  rw [upTo?, hspan]

/-! ## Escapes -/

theorem toList_escapeText (s : String) :
    (escapeText s).toList = s.toList.flatMap escapeTextChar := by
  rw [escapeText, String.toList_ofList]

theorem toList_escapeAttribute (s : String) :
    (escapeAttribute s).toList = s.toList.flatMap escapeAttributeChar := by
  rw [escapeAttribute, String.toList_ofList]

/-- No character of escaped text begins or ends a tag. -/
theorem notMem_escapeTextChar {c : Char} : '<' ∉ escapeTextChar c ∧ '>' ∉ escapeTextChar c := by
  unfold escapeTextChar
  split_ifs with hamp hlt hgt
  · decide
  · decide
  · decide
  · simp [Ne.symm hlt, Ne.symm hgt]

theorem langle_notMem_escapeText (s : String) : '<' ∉ (escapeText s).toList := by
  rw [toList_escapeText, List.mem_flatMap]
  rintro ⟨c, -, hc⟩
  exact notMem_escapeTextChar.1 hc

theorem quote_notMem_escapeAttribute (s : String) : '"' ∉ (escapeAttribute s).toList := by
  rw [toList_escapeAttribute, List.mem_flatMap]
  rintro ⟨c, -, hc⟩
  unfold escapeAttributeChar at hc
  split_ifs at hc with hquote
  · exact absurd hc (by decide)
  · exact hquote (List.mem_singleton.mp hc).symm

/-! ## Tags -/

/-- The attributes of a tag, each with a space in front. -/
def attributesText (entries : List (String × String)) : List Char :=
  entries.flatMap fun a =>
    ' ' :: (a.1.toList ++ '=' :: '"' :: ((escapeAttribute a.2).toList ++ ['"']))

theorem length_le_attributesText (entries : List (String × String)) :
    2 * entries.length ≤ (attributesText entries).length := by
  induction entries with
  | nil => exact Nat.le_refl _
  | cons a entries ih =>
      rw [attributesText, List.flatMap_cons, ← attributesText]
      simp only [List.length_cons, List.length_append]
      omega

theorem toList_renderAttribute (a : String × String) : (renderAttribute a).toList =
    a.1.toList ++ '=' :: '"' :: ((escapeAttribute a.2).toList ++ ['"']) := by
  simp [renderAttribute]

theorem cons_toList_renderAttributes (a : String × String) (entries : List (String × String)) :
    ' ' :: (" ".intercalate ((a :: entries).map renderAttribute)).toList =
      attributesText (a :: entries) := by
  induction entries generalizing a with
  | nil => simp [attributesText, toList_renderAttribute]
  | cons b entries ih =>
      rw [List.map_cons, List.map_cons, String.intercalate_cons_cons, String.toList_append,
        String.toList_append, toList_renderAttribute, ← List.map_cons, attributesText,
        List.flatMap_cons, ← attributesText, ← ih b]
      simp

theorem toList_renderOpenTag (name : String) (attributes : Attributes) :
    (renderOpenTag name attributes).toList =
      '<' :: (name.toList ++ (attributesText attributes.entries ++ ['>'])) := by
  rw [renderOpenTag, Fields.isEmpty, Fields.renderAttributes]
  rcases attributes.entries with - | ⟨a, entries⟩
  · simp [attributesText]
  · rw [← cons_toList_renderAttributes]
    simp

theorem toList_renderCloseTag (name : String) :
    (renderCloseTag name).toList = '<' :: '/' :: (name.toList ++ ['>']) := by
  simp [renderCloseTag]

/-- The text of an element behind its first mark. -/
def tagText (tag : Tag) (children : List Node) : List Char :=
  tag.name.toList ++ (attributesText tag.attributes.entries ++ '>' ::
    if tag.selfClosing then []
    else (Node.renderForest (rawTextNames.contains tag.name) children).toList ++
      '<' :: '/' :: (tag.name.toList ++ ['>']))

theorem toList_render_element (raw : Bool) (tag : Tag) (children : List Node) :
    ((Node.element tag children).render raw).toList = '<' :: tagText tag children := by
  rw [Node.render, tagText]
  split_ifs
  · simp [toList_renderOpenTag]
  · simp [toList_renderOpenTag, toList_renderCloseTag]

end CustomElements
