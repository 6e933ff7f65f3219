import CustomElements.Proofs.Session.Indices
import CustomElements.Proofs.Style.Identifier
import Mathlib.Data.List.Nodup

/-!
# Whose identifier it is

Identifiers are made of tag names and indices, but indices are counted for each definition, and so
is the record of shared sheets. Two definitions can have one tag name, and a tag name can end in a
dash and digits. So instances of one definition never share an identifier, but those of two
definitions do exactly if their names and indices say the same (`identifiers_separate_iff`).
-/

namespace CustomElements

/-- Scoping comes to a sheet of this scope, so that the occurrence has an identifier for it. -/
def Occurrence.hasId (o : Occurrence) (scope : Style.Scope) : Bool := hasScope scope o.reached

/-- No two of the components share an identifier, unless it is that of their definition. -/
structure SeparateIds (os : List Occurrence) : Prop where
  /-- Each has an identifier of its own. -/
  unique : ((os.filter (·.hasId .unique)).map (·.idOf .unique)).Nodup
  /-- Each definition has a shared identifier of its own. -/
  global : ∀ o ∈ os, ∀ o' ∈ os, o.hasId .global = true → o'.hasId .global = true →
    o.definition.id ≠ o'.definition.id → o.idOf .global ≠ o'.idOf .global
  /-- What is one component's own is not shared. -/
  apart : ∀ o ∈ os, ∀ o' ∈ os, o.hasId .unique = true → o'.hasId .global = true →
    o.idOf .unique ≠ o'.idOf .global

/-- Tag names and indices tell the definitions of the components apart. -/
structure SeparateNames (os : List Occurrence) : Prop where
  unique : ∀ o ∈ os, ∀ o' ∈ os, o.hasId .unique = true → o'.hasId .unique = true →
    o.definition.id ≠ o'.definition.id → o.start.inst.tagName = o'.start.inst.tagName →
    o.index ≠ o'.index
  global : ∀ o ∈ os, ∀ o' ∈ os, o.hasId .global = true → o'.hasId .global = true →
    o.definition.id ≠ o'.definition.id → o.start.inst.tagName ≠ o'.start.inst.tagName
  /-- No tag name is another one with an index added to it. -/
  apart : ∀ o ∈ os, ∀ o' ∈ os, o.hasId .unique = true → o'.hasId .global = true →
    o'.start.inst.tagName ≠ o.start.inst.tagName ++ "-" ++ toString o.index

theorem Linked.index_ne {os : List Occurrence} {before after : Nat → Nat}
    (h : Linked Session.counter before os after) {o o' : Occurrence} (hsub : [o, o'].Sublist os)
    (ho : o.hasId .unique = true) (ho' : o'.hasId .unique = true)
    (hsame : o.definition.id = o'.definition.id) : o.index ≠ o'.index := by
  obtain ⟨hmap, -⟩ := h.map_index o.definition.id
  -- of the two, in this order, the projection to the definition keeps both
  have hpair := (hsub.filter (·.draws o.definition.id)).map Occurrence.index
  rw [hmap] at hpair
  have hnodup := (List.nodup_range' ..).sublist hpair
  unfold Occurrence.hasId at ho ho'
  simpa [Occurrence.draws, ← hsame, ho, ho'] using hnodup

section Separate

variable {os : List Occurrence} {classPrefix : String}
  (hcommon : ∀ o ∈ os, o.renderer.options.classPrefix = classPrefix)

include hcommon

theorem idOf_unique_inj {o o' : Occurrence} (ho : o ∈ os) (ho' : o' ∈ os) :
    o.idOf .unique = o'.idOf .unique ↔
      o.start.inst.tagName = o'.start.inst.tagName ∧ o.index = o'.index := by
  simp only [Occurrence.idOf, hcommon o ho, hcommon o' ho', Style.uniqueId_inj]

theorem idOf_global_inj {o o' : Occurrence} (ho : o ∈ os) (ho' : o' ∈ os) :
    o.idOf .global = o'.idOf .global ↔ o.start.inst.tagName = o'.start.inst.tagName := by
  simp only [Occurrence.idOf, hcommon o ho, hcommon o' ho', Style.globalId_inj]

theorem idOf_unique_eq_global {o o' : Occurrence} (ho : o ∈ os) (ho' : o' ∈ os) :
    o.idOf .unique = o'.idOf .global ↔
      o'.start.inst.tagName = o.start.inst.tagName ++ "-" ++ toString o.index := by
  simp only [Occurrence.idOf, hcommon o ho, hcommon o' ho', Style.uniqueId_eq_globalId]

theorem SeparateIds.names (h : SeparateIds os) : SeparateNames os where
  unique o ho o' ho' hown hown' hdefinition htag hindex := by
    have heq : o.idOf .unique = o'.idOf .unique :=
      (idOf_unique_inj hcommon ho ho').mpr ⟨htag, hindex⟩
    have hsame : o = o' := List.inj_on_of_nodup_map h.unique
      (List.mem_filter.mpr ⟨ho, hown⟩) (List.mem_filter.mpr ⟨ho', hown'⟩) heq
    exact hdefinition (hsame ▸ rfl)
  global o ho o' ho' hshared hshared' hdefinition htag :=
    h.global o ho o' ho' hshared hshared' hdefinition ((idOf_global_inj hcommon ho ho').mpr htag)
  apart o ho o' ho' hown hshared htag :=
    h.apart o ho o' ho' hown hshared ((idOf_unique_eq_global hcommon ho ho').mpr htag)

theorem SeparateNames.ids (h : SeparateNames os) {before after : Nat → Nat}
    (hlinked : Linked Session.counter before os after) : SeparateIds os where
  unique := by
    rw [List.Nodup, List.pairwise_map, List.pairwise_iff_forall_sublist]
    intro o o' hsub heq
    obtain ⟨ho, hown⟩ := List.mem_filter.mp (hsub.subset (by simp : o ∈ [o, o']))
    obtain ⟨ho', hown'⟩ := List.mem_filter.mp (hsub.subset (by simp : o' ∈ [o, o']))
    obtain ⟨htag, hindex⟩ := (idOf_unique_inj hcommon ho ho').mp heq
    -- instances of one definition differ in the index anyway
    by_cases hsame : o.definition.id = o'.definition.id
    · exact hlinked.index_ne (hsub.trans List.filter_sublist) hown hown' hsame hindex
    · exact h.unique o ho o' ho' hown hown' hsame htag hindex
  global o ho o' ho' hshared hshared' hdefinition heq :=
    h.global o ho o' ho' hshared hshared' hdefinition ((idOf_global_inj hcommon ho ho').mp heq)
  apart o ho o' ho' hown hshared heq :=
    h.apart o ho o' ho' hown hshared ((idOf_unique_eq_global hcommon ho ho').mp heq)

end Separate

/--
**When identifiers are shared.** If all calls on a session are made with one class prefix, no two
components share an identifier, unless it is that of their definition, exactly if tag names and
indices tell their definitions apart. In particular those of one definition never do.
-/
theorem identifiers_separate_iff {classPrefix : String} (p : Progress) (calls : List TreeCall)
    (hcommon : ∀ k ∈ calls, k.renderer.options.classPrefix = classPrefix) :
    (∃ os, Begun p calls os) ∧ ∀ os, Begun p calls os → (SeparateIds os ↔ SeparateNames os) := by
  refine ⟨exists_begun calls p, fun os h => ?_⟩
  have hcommon' : ∀ o ∈ os, o.renderer.options.classPrefix = classPrefix := by
    intro o ho
    obtain ⟨k, hk, hr⟩ := h.renderer_eq ho
    rw [hr, hcommon k hk]
  exact ⟨fun hids => hids.names hcommon', fun hnames => hnames.ids hcommon' h.linked⟩

open Sample in
/-- All items have the class prefix of the standard options. -/
theorem identifiers_separate_items :
    (∀ k ∈ twoItems, k.renderer.options.classPrefix = "css") ∧
      (∃ os, Begun fresh twoItems os) ∧
      ∀ os, Begun fresh twoItems os → (SeparateIds os ↔ SeparateNames os) := by
  have hcommon : ∀ k ∈ twoItems, k.renderer.options.classPrefix = "css" := by
    simp [twoItems, ask, reader, Options.standard]
  exact ⟨hcommon, identifiers_separate_iff fresh twoItems hcommon⟩

/-! ## Two definitions with one name -/

def TreeCall.root (k : TreeCall) (p : Progress) : Occurrence :=
  k.renderer.begin k.deliveries k.theme k.definition
    (k.definition.resolvedTagName k.renderer.options.anonymousTagPrefix) k.attributes []
    (k.registered p)

theorem TreeCall.root_mem {k : TreeCall} {p q : Progress} {ns : List Node} {os : List Occurrence}
    (h : Expands k.renderer k.deliveries k.theme k.task (k.registered p) (.ok ns) q os) :
    k.root p ∈ os := by
  rw [task, Renderer.rootTask] at h
  generalize hresult : Except.ok ns = result at h
  cases h with
  | noRoom => cases hresult
  | partsStop _ _ => cases hresult
  | passed begins _ => exact begins ▸ List.mem_singleton_self _
  | filled begins _ _ => exact begins ▸ List.mem_cons_self

/-- What a call that returns a tree is about has begun, and then the next call is made. -/
theorem Begun.root_mem {k : TreeCall} {rest : List TreeCall} {p : Progress} {os : List Occurrence}
    (h : Begun p (k :: rest) os) (hok : (k.answer p).1.isOk = true) :
    k.root p ∈ os ∧ ∃ os', os' ⊆ os ∧ Begun (k.answer p).2 rest os' := by
  cases h with
  | @cons _ _ _ _ _ os' os'' expands answer _ onward =>
      rcases hanswer : (k.answer p).1 with stop | n <;> rw [hanswer] at answer hok
      · cases hok
      · subst answer
        exact ⟨List.mem_append_left _ (TreeCall.root_mem expands), os'',
          List.subset_append_right os' os'', onward⟩

namespace Sample

/-- A component with one sheet of its own. -/
def lamp : Definition :=
  component 0 "x-lamp" (.ofString "<p>lamp</p>") [.ofFunction 1 .always (.ofString "p { top: 0; }")]

/-- Another one that goes by the same name. -/
def torch : Definition :=
  component 1 "x-lamp" (.ofString "<p>torch</p>")
    [.ofFunction 11 .always (.ofString "p { top: 1; }")]

def lamps : Catalog := ⟨[⟨lamp, none⟩, ⟨torch, none⟩]⟩

def lampShown : Progress := ((ask lamps lamp).answer fresh).2

end Sample

open Sample in
/-- A lamp is shown and then a torch, which gets the identifier that the lamp has. -/
theorem identifier_shared :
    (serve [ask lamps lamp, ask lamps torch] fresh).1.map Node.toHtml =
        ["<x-lamp><style>.css-x-lamp-0-p { top: 0; }</style>" ++
          "<p class=\"css-x-lamp-0\">lamp</p></x-lamp>",
        "<x-lamp><style>.css-x-lamp-0-p { top: 1; }</style>" ++
          "<p class=\"css-x-lamp-0\">torch</p></x-lamp>"] ∧
      (∃ os, Begun fresh [ask lamps lamp, ask lamps torch] os) ∧
      ∀ os, Begun fresh [ask lamps lamp, ask lamps torch] os → ¬ SeparateIds os := by
  refine ⟨by decide +kernel, exists_begun _ _, fun os h hseparate => ?_⟩
  obtain ⟨hlamp, os', hsub, h'⟩ := h.root_mem (by decide +kernel)
  obtain ⟨htorch, -⟩ := h'.root_mem (by decide +kernel)
  -- identifiers that differ would make the lamp the torch
  have hsame : (ask lamps lamp).root fresh = (ask lamps torch).root lampShown :=
    List.inj_on_of_nodup_map hseparate.unique
      (List.mem_filter.mpr ⟨hlamp, by decide +kernel⟩)
      (List.mem_filter.mpr ⟨hsub htorch, by decide +kernel⟩) (by decide +kernel)
  have hid : lamp.id = torch.id := congrArg (fun o : Occurrence => o.definition.id) hsame
  exact absurd hid (by decide)

end CustomElements
