import CustomElements.Proofs.Reader.Surroundings

/-!
# The rule that a start tag in a body falls under

`opensInFlow` goes through the names in the order in which a reader does. `OpensInFlow` has one case
for each rule instead, with what the rule looks for and does not find.
-/

namespace CustomElements.Markup

open Builder

/-- The names of start and end tags that have a rule of their own in a body. -/
def ruledNames : List String :=
  Surroundings.closedNames ++ "a" :: "nobr" :: formattingNames ++ blockNames ++
    ElementName.headings ++ objectNames ++
    ["p", "pre", "listing", "table", "form", "li", "dd", "dt", "button", "select", "optgroup",
      "option", "rb", "rtc", "rp", "rt", "svg", "math"]

theorem contains_eq_false {names some : List String} {name : String}
    (h : names.contains name = false) (hsub : ∀ n ∈ some, n ∈ names) :
    some.contains name = false := by
  rw [← Bool.not_eq_true, List.contains_iff_mem] at h ⊢
  exact fun hmem => h (hsub _ hmem)

theorem ne_of_contains_eq_false {names : List String} {name : String}
    (h : names.contains name = false) {n : String} (hn : n ∈ names) : name ≠ n := by
  rintro rfl
  rw [List.contains_iff_mem.mpr hn] at h
  cases h

namespace Surroundings

variable {s : Surroundings}

theorem flows_iff : s.flows = true ↔ s.mode = .body ∨ s.mode = .cell ∨ s.mode = .caption := by
  rw [flows, List.contains_iff_mem]
  simp

/-- The start tag opens its element, in a body, because its rule finds nothing to close. -/
inductive OpensInFlow (s : Surroundings) : (name : String) → TagAttributes → Prop where
  | link {attributes : TagAttributes} :
      (s.recent.all fun e => e.all fun e => e.1 != "a") = true → OpensInFlow s "a" attributes
  | nobr {attributes : TagAttributes} :
      s.inScope ElementName.boundsScope (·.isHtml "nobr") = false →
      s.countLike "nobr" attributes < 3 → OpensInFlow s "nobr" attributes
  | formatting {name : String} {attributes : TagAttributes} :
      name ∈ formattingNames → s.countLike name attributes < 3 → OpensInFlow s name attributes
  | block {name : String} {attributes : TagAttributes} :
      name ∈ "p" :: blockNames → s.inParagraph = false → OpensInFlow s name attributes
  | pre {name : String} {attributes : TagAttributes} :
      name ∈ ["pre", "listing"] → s.inParagraph = false → OpensInFlow s name attributes
  | table {attributes : TagAttributes} : s.inParagraph = false → OpensInFlow s "table" attributes
  | heading {name : String} {attributes : TagAttributes} :
      name ∈ ElementName.headings → s.inParagraph = false →
      s.current.isHtmlOf ElementName.headings = false → OpensInFlow s name attributes
  | form {attributes : TagAttributes} :
      s.form = false → s.inParagraph = false → OpensInFlow s "form" attributes
  | item {name : String} {names : List String} {attributes : TagAttributes} :
      name = "li" ∧ names = ["li"] ∨ (name = "dd" ∨ name = "dt") ∧ names = ["dd", "dt"] →
      s.inItem names = false → s.inParagraph = false → OpensInFlow s name attributes
  | button {attributes : TagAttributes} :
      s.inScope ElementName.boundsScope (·.isHtml "button") = false →
      OpensInFlow s "button" attributes
  | select {attributes : TagAttributes} :
      ((s.mode != .body) == s.names.any (·.isHtml "table")) = true →
      OpensInFlow s "select" attributes
  | option {name : String} {attributes : TagAttributes} :
      name = "optgroup" ∨ name = "option" → s.current.isHtml "option" = false →
      OpensInFlow s name attributes
  | ruby {name except : String} {attributes : TagAttributes} :
      (name = "rb" ∨ name = "rtc") ∧ except = "" ∨
        (name = "rp" ∨ name = "rt") ∧ except = "rtc" →
      s.inRuby = false ∨ s.current.endsByItself = false ∨ s.current.isHtml except = true →
      OpensInFlow s name attributes
  | object {name : String} {attributes : TagAttributes} :
      name ∈ objectNames → OpensInFlow s name attributes
  | embedded {name : String} {attributes : TagAttributes} :
      name = "svg" ∨ name = "math" → OpensInFlow s name attributes
  | other {name : String} {attributes : TagAttributes} :
      ruledNames.contains name = false → OpensInFlow s name attributes

theorem opensInFlow_spec {name : String} {attributes : TagAttributes}
    (h : s.opensInFlow name attributes = true) : s.OpensInFlow name attributes := by
  unfold opensInFlow at h
  by_cases ha : name = "a"
  · rw [if_pos ha] at h
    exact ha ▸ .link h
  rw [if_neg ha] at h
  by_cases hnobr : name = "nobr"
  · subst hnobr
    rw [if_pos rfl, Bool.and_eq_true, Bool.not_eq_true', decide_eq_true_eq] at h
    exact .nobr h.1 h.2
  rw [if_neg hnobr] at h
  by_cases hformatting : formattingNames.contains name = true
  · rw [if_pos hformatting, decide_eq_true_eq] at h
    exact .formatting (List.contains_iff_mem.mp hformatting) h
  rw [if_neg hformatting] at h
  by_cases hblock : (blockNames.contains name ||
      ["p", "pre", "listing", "table"].contains name) = true
  · rw [if_pos hblock, Bool.not_eq_true'] at h
    rw [Bool.or_eq_true, List.contains_iff_mem, List.contains_iff_mem] at hblock
    simp only [List.mem_cons, List.not_mem_nil, or_false] at hblock
    rcases hblock with hname | rfl | rfl | rfl | rfl
    · exact .block (List.mem_cons_of_mem _ hname) h
    · exact .block List.mem_cons_self h
    · exact .pre (by decide) h
    · exact .pre (by decide) h
    · exact .table h
  rw [if_neg hblock] at h
  by_cases hheading : ElementName.headings.contains name = true
  · rw [if_pos hheading, Bool.and_eq_true, Bool.not_eq_true', Bool.not_eq_true'] at h
    exact .heading (List.contains_iff_mem.mp hheading) h.1 h.2
  rw [if_neg hheading] at h
  by_cases hform : name = "form"
  · rw [if_pos hform, Bool.and_eq_true, Bool.not_eq_true', Bool.not_eq_true'] at h
    exact hform ▸ .form h.1 h.2
  rw [if_neg hform] at h
  simp only [Bool.or_eq_true, decide_eq_true_eq] at h
  by_cases hli : name = "li"
  · rw [if_pos hli, Bool.and_eq_true, Bool.not_eq_true', Bool.not_eq_true'] at h
    exact .item (.inl ⟨hli, rfl⟩) h.1 h.2
  rw [if_neg hli] at h
  by_cases hdd : name = "dd" ∨ name = "dt"
  · rw [if_pos hdd, Bool.and_eq_true, Bool.not_eq_true', Bool.not_eq_true'] at h
    exact .item (.inr ⟨hdd, rfl⟩) h.1 h.2
  rw [if_neg hdd] at h
  by_cases hbutton : name = "button"
  · rw [if_pos hbutton, Bool.not_eq_true'] at h
    exact hbutton ▸ .button h
  rw [if_neg hbutton] at h
  by_cases hselect : name = "select"
  · rw [if_pos hselect] at h
    exact hselect ▸ .select h
  rw [if_neg hselect] at h
  by_cases hoption : name = "optgroup" ∨ name = "option"
  · rw [if_pos hoption, Bool.not_eq_true'] at h
    exact .option hoption h
  rw [if_neg hoption] at h
  by_cases hrb : name = "rb" ∨ name = "rtc"
  · rw [if_pos hrb, Bool.or_eq_true, Bool.not_eq_true', Bool.not_eq_true'] at h
    exact .ruby (.inl ⟨hrb, rfl⟩) (h.imp_right .inl)
  rw [if_neg hrb] at h
  by_cases hrt : name = "rp" ∨ name = "rt"
  · rw [if_pos hrt, Bool.or_eq_true, Bool.or_eq_true, Bool.not_eq_true', Bool.not_eq_true',
      or_assoc] at h
    exact .ruby (.inr ⟨hrt, rfl⟩) h
  rw [if_neg hrt, Bool.not_eq_true'] at h
  by_cases hobject : name ∈ objectNames
  · exact .object hobject
  by_cases hembedded : name = "svg" ∨ name = "math"
  · exact .embedded hembedded
  -- none of the rules has the name
  refine .other ?_
  rw [Bool.or_eq_true, List.contains_iff_mem, List.contains_iff_mem] at hblock
  rw [List.contains_iff_mem] at hformatting hheading
  rw [← Bool.not_eq_true, List.contains_iff_mem] at h ⊢
  simp only [ruledNames, List.mem_append, List.mem_cons, List.not_mem_nil, or_false] at hblock ⊢
  grind

end Surroundings

end CustomElements.Markup
