import CustomElements.Proofs.Style.Identifier
import CustomElements.Style.Parser

/-!
# Sheets with different identifiers

Scoping writes the identifier, a dash and then the selector. Both sides of the dash may hold dashes
themselves, so where the identifier ends cannot be told from the result. Two sheets with different
identifiers share a selector exactly if one identifier goes on where the other one ends, and the
sheet with the shorter identifier has a selector that begins the same way and goes on like one of
the other sheet (`scoped_selectors_meet_iff`). So sheets are kept apart if no identifier is another
one with a dash and more behind it.
-/

namespace CustomElements.Style

mutual

/-- The selectors of the style rules in a rule, at any depth of grouping. -/
def Rule.selectors : Rule → List String
  | .style texts _ => texts
  | .group _ _ rules => Rule.selectorsList rules
  | .verbatim .. => []

def Rule.selectorsList : List Rule → List String
  | [] => []
  | r :: rest => r.selectors ++ Rule.selectorsList rest

end

/-- The selectors of the style rules of a sheet. -/
def Sheet.selectors (s : Sheet) : List String := Rule.selectorsList s.rules

mutual

theorem Rule.selectors_scoped (id : String) :
    (r : Rule) → (r.scoped id).selectors = r.selectors.map (scopedSelector id)
  | .style _ _ => rfl
  | .verbatim .. => rfl
  | .group _ _ rules => Rule.selectorsList_scopedList id rules

theorem Rule.selectorsList_scopedList (id : String) : (rules : List Rule) →
    selectorsList (scopedList id rules) = (selectorsList rules).map (scopedSelector id)
  | [] => rfl
  | r :: rest => by
      rw [scopedList, selectorsList, selectorsList, List.map_append, selectors_scoped id r,
        selectorsList_scopedList id rest]

end

/-- **Every selector is confined, and no other is there.** -/
theorem Sheet.selectors_scoped (s : Sheet) (id : String) :
    (s.scoped id).selectors = s.selectors.map (scopedSelector id) :=
  Rule.selectorsList_scopedList id s.rules

/--
The identifier `id'` is `id` with a dash and some text behind it, and `s` begins with the same text
and a dash and goes on as `s'`.
-/
def Continues (id s id' s' : String) : Prop :=
  ∃ t, id' = id ++ "-" ++ t ∧ s = t ++ "-" ++ s'

/-- Texts on both sides of a letter: the same, or one goes on where the other one ends. -/
theorem append_cons_eq_append_cons {α : Type} {a : α} {l l' m m' : List α} :
    l ++ a :: m = l' ++ a :: m' ↔ (l = l' ∧ m = m') ∨
      (∃ t, l' = l ++ a :: t ∧ m = t ++ a :: m') ∨ ∃ t, l = l' ++ a :: t ∧ m' = t ++ a :: m := by
  constructor
  · intro h
    rcases List.append_eq_append_iff.mp h with ⟨c, rfl, hc⟩ | ⟨c, rfl, hc⟩ <;>
      rcases c with - | ⟨b, c⟩
    · exact .inl ⟨(List.append_nil l).symm, (List.cons.inj hc).2⟩
    · obtain ⟨rfl, rfl⟩ := List.cons.inj hc
      exact .inr (.inl ⟨c, rfl, rfl⟩)
    · exact .inl ⟨List.append_nil l', (List.cons.inj hc).2.symm⟩
    · obtain ⟨rfl, rfl⟩ := List.cons.inj hc
      exact .inr (.inr ⟨c, rfl, rfl⟩)
  · rintro (⟨rfl, rfl⟩ | ⟨t, rfl, rfl⟩ | ⟨t, rfl, rfl⟩) <;> simp

theorem continues_iff_toList {id s id' s' : String} : Continues id s id' s' ↔
    ∃ t, id'.toList = id.toList ++ '-' :: t ∧ s.toList = t ++ '-' :: s'.toList := by
  constructor
  · rintro ⟨t, rfl, rfl⟩
    exact ⟨t.toList, by simp, by simp⟩
  · rintro ⟨t, hid, hs⟩
    refine ⟨String.ofList t, ?_, ?_⟩ <;> rw [← String.toList_inj] <;> simp [hid, hs]

theorem scopedSelector_eq_iff {id s id' s' : String} :
    scopedSelector id s = scopedSelector id' s' ↔
      (id = id' ∧ s = s') ∨ Continues id s id' s' ∨ Continues id' s' id s := by
  have hchars : scopedSelector id s = scopedSelector id' s' ↔
      id.toList ++ '-' :: s.toList = id'.toList ++ '-' :: s'.toList := by
    rw [← String.toList_inj]
    simp [scopedSelector]
  rw [hchars, append_cons_eq_append_cons, continues_iff_toList, continues_iff_toList,
    String.toList_inj, String.toList_inj]

/--
**When sheets with different identifiers share a selector.** One of the identifiers is the other one
with a dash and some text behind it, and the sheet with the shorter identifier has a selector made
of that text, a dash and a selector of the other sheet.
-/
theorem scoped_selectors_meet_iff {id id' : String} (hne : id ≠ id') (sheet sheet' : Sheet) :
    (∃ s ∈ (sheet.scoped id).selectors, s ∈ (sheet'.scoped id').selectors) ↔
      ∃ s ∈ sheet.selectors, ∃ s' ∈ sheet'.selectors,
        Continues id s id' s' ∨ Continues id' s' id s := by
  simp only [Sheet.selectors_scoped, List.mem_map]
  constructor
  · rintro ⟨_, ⟨s, hs, rfl⟩, s', hs', heq⟩
    refine ⟨s, hs, s', hs', ?_⟩
    rcases scopedSelector_eq_iff.mp heq.symm with ⟨hid, -⟩ | h
    · exact absurd hid hne
    · exact h
  · rintro ⟨s, hs, s', hs', h⟩
    exact ⟨_, ⟨s, hs, rfl⟩, s', hs', (scopedSelector_eq_iff.mpr (.inr h)).symm⟩

namespace Sample

/-- A sheet that styles a custom element by its name. -/
def byNameSheet : Sheet := ⟨[.style ["list-p"] [⟨"top", "0"⟩]]⟩

def paragraphSheet : Sheet := ⟨[.style ["p"] [⟨"top", "1px"⟩]]⟩

end Sample

theorem scoped_selectors_meet_cards :
    globalId "css" "x-card" ≠ globalId "css" "x-card-list" ∧
    ((∃ s ∈ (Sample.byNameSheet.scoped (globalId "css" "x-card")).selectors,
        s ∈ (Sample.paragraphSheet.scoped (globalId "css" "x-card-list")).selectors) ↔
      ∃ s ∈ Sample.byNameSheet.selectors, ∃ s' ∈ Sample.paragraphSheet.selectors,
        Continues (globalId "css" "x-card") s (globalId "css" "x-card-list") s' ∨
          Continues (globalId "css" "x-card-list") s' (globalId "css" "x-card") s) := by
  have hne : globalId "css" "x-card" ≠ globalId "css" "x-card-list" := by decide
  exact ⟨hne, scoped_selectors_meet_iff hne Sample.byNameSheet Sample.paragraphSheet⟩

/-- The sheets of two tags that both write rules for `.css-x-card-list-p`. -/
theorem selector_shared :
    Sheet.parse "list-p \x7b top: 0 \x7d" = .ok Sample.byNameSheet ∧
    Sheet.parse "p \x7b top: 1px \x7d" = .ok Sample.paragraphSheet ∧
    globalId "css" "x-card" ≠ globalId "css" "x-card-list" ∧
    ".css-x-card-list-p" ∈ (Sample.byNameSheet.scoped (globalId "css" "x-card")).selectors ∧
    ".css-x-card-list-p" ∈
      (Sample.paragraphSheet.scoped (globalId "css" "x-card-list")).selectors := by
  refine ⟨by decide +kernel, by decide +kernel, by decide, by decide, by decide⟩

end CustomElements.Style
