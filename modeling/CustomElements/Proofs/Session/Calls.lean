import CustomElements.Proofs.Expansion.Conservation

/-!
# Calls on one session

A session serves calls one after the other, some of which fail. What a document shows is what the
others returned, so of all components that began only those of the calls that returned are
*retained*. A failed call takes back what it put on record about shared sheets, and so the retained
occurrences are the whole history of that record (`Retained.linked`), as if no other had been.

They also account for every `<style>` element in the trees that were returned
(`Retained.perm_styles`).
-/

namespace CustomElements

/-- A call that asks for the tree of a definition. -/
structure TreeCall where
  /-- What was rendered outside of the session since its last call. -/
  meanwhile : Journal → Journal
  renderer : Renderer
  catalog : Catalog
  deliveries : Deliveries
  /-- The room for nested components. -/
  depth : Nat
  definition : Definition
  attributes : Props
  theme : Option Theme

namespace TreeCall

/-- The progress when the call is made. -/
def found (k : TreeCall) (p : Progress) : Progress := { p with journal := k.meanwhile p.journal }

/-- What the call answers, and the progress after it. -/
def answer (k : TreeCall) (p : Progress) : Except Stop Node × Progress :=
  k.renderer.elementToTag k.catalog k.deliveries k.depth k.definition k.attributes k.theme
    (k.found p)

/-- What the call expands. -/
def task (k : TreeCall) : Task := k.renderer.rootTask k.definition k.attributes

/-- The progress when the expansion begins. -/
def registered (k : TreeCall) (p : Progress) : Progress :=
  (k.found p).register k.catalog k.definition

/-- A call that asks for markup is one for a tree, which is written out. -/
theorem render_eq (k : TreeCall) (p : Progress) :
    k.renderer.render k.catalog k.deliveries k.depth k.definition k.attributes k.theme
        (k.found p) =
      ((k.answer p).1.map Node.toHtml, (k.answer p).2) := rfl

theorem exists_expands_of_ok {k : TreeCall} {p p' : Progress} {n : Node}
    (h : k.answer p = (.ok n, p')) :
    ∃ os, Expands k.renderer k.deliveries k.theme k.task (k.registered p) (.ok [n]) p' os := by
  obtain ⟨q, os, ⟨n', heq, hx⟩ | ⟨stop, heq, -⟩⟩ := k.renderer.elementToTag_cases k.catalog
    k.deliveries k.depth k.definition k.attributes k.theme (k.found p)
  · obtain ⟨hn, rfl⟩ := Prod.mk.inj (heq.symm.trans h)
    cases hn
    exact ⟨os, hx⟩
  · cases heq.symm.trans h

/-- A failed call leaves the record of shared sheets as it was. -/
theorem emitted_of_error {k : TreeCall} {p p' : Progress} {stop : Stop}
    (h : k.answer p = (.error stop, p')) : p'.session.emitted = p.session.emitted := by
  obtain ⟨q, os, ⟨n, heq, -⟩ | ⟨stop', heq, -⟩⟩ := k.renderer.elementToTag_cases k.catalog
    k.deliveries k.depth k.definition k.attributes k.theme (k.found p)
  · cases heq.symm.trans h
  · obtain ⟨-, rfl⟩ := Prod.mk.inj (heq.symm.trans h)
    rfl

end TreeCall

/-- The trees that calls return, one call after the other, and the progress in the end. -/
def serve : List TreeCall → Progress → List Node × Progress
  | [], p => ([], p)
  | k :: rest, p =>
    let (answer, p) := k.answer p
    let (trees, p) := serve rest p
    (answer.toOption.toList ++ trees, p)

/-- `os` are the components that began in those of the calls that returned a tree. -/
inductive Retained : Progress → List TreeCall → List Occurrence → Prop where
  | nil {p : Progress} : Retained p [] []
  | returned {k : TreeCall} {rest : List TreeCall} {p p' : Progress} {n : Node}
      {os os' : List Occurrence} (answer : k.answer p = (.ok n, p'))
      (expands : Expands k.renderer k.deliveries k.theme k.task (k.registered p) (.ok [n]) p' os)
      (onward : Retained p' rest os') : Retained p (k :: rest) (os ++ os')
  | failed {k : TreeCall} {rest : List TreeCall} {p p' : Progress} {stop : Stop}
      {os : List Occurrence} (answer : k.answer p = (.error stop, p'))
      (onward : Retained p' rest os) : Retained p (k :: rest) os

theorem exists_retained (calls : List TreeCall) (p : Progress) : ∃ os, Retained p calls os := by
  induction calls generalizing p with
  | nil => exact ⟨[], .nil⟩
  | cons k rest ih =>
      rcases h : k.answer p with ⟨stop | n, p'⟩
      · obtain ⟨os, honward⟩ := ih p'
        exact ⟨os, .failed h honward⟩
      · obtain ⟨os, hx⟩ := TreeCall.exists_expands_of_ok h
        obtain ⟨os', honward⟩ := ih p'
        exact ⟨os ++ os', .returned h hx honward⟩

namespace Retained

variable {p : Progress} {calls : List TreeCall} {os : List Occurrence}

/-- **The retained occurrences are the history of the record of shared sheets.** -/
theorem linked (h : Retained p calls os) :
    Linked Session.emitted p.session.emitted os (serve calls p).2.session.emitted := by
  induction h with
  | nil => exact rfl
  | returned answer expands _ ih =>
      have hcall := expands.linked.map Session.emitted
      rw [serve, answer]
      exact hcall.append ih
  | failed answer _ ih =>
      -- the next call finds the record as this one found it
      rw [TreeCall.emitted_of_error answer] at ih
      rw [serve, answer]
      exact ih

/-- Retained occurrences have rendered their parts. -/
theorem parts_ok (h : Retained p calls os) :
    ∀ o ∈ os, (∃ k ∈ calls, o.renderer = k.renderer) ∧ ∃ answer w, o.parts = (.ok answer, w) := by
  induction h with
  | nil => simp
  | @returned k _ _ _ _ _ _ _ expands _ ih =>
      refine List.forall_mem_append.mpr ⟨fun o ho => ?_, fun o ho => ?_⟩
      · obtain ⟨hr, hparts⟩ := expands.parts_ok o ho
        exact ⟨⟨k, List.mem_cons_self, hr⟩, hparts⟩
      · obtain ⟨⟨k', hk', hr⟩, hparts⟩ := ih o ho
        exact ⟨⟨k', List.mem_cons_of_mem k hk', hr⟩, hparts⟩
  | @failed k _ _ _ _ _ _ _ ih =>
      intro o ho
      obtain ⟨⟨k', hk', hr⟩, hparts⟩ := ih o ho
      exact ⟨⟨k', List.mem_cons_of_mem k hk', hr⟩, hparts⟩

/-- **Every written stylesheet is in a returned tree or was dropped.** -/
theorem perm_styles (h : Retained p calls os)
    (hparse : ∀ k ∈ calls, k.renderer.ParsesNoStyles) :
    (Node.stylesForest (serve calls p).1 ++ droppedStyles os).Perm
      ((writtenSheets os).map Prod.snd) := by
  rw [List.perm_iff_count]
  intro v
  induction h with
  | nil => rfl
  | @returned k _ _ _ _ _ _ answer expands _ ih =>
      have hcall := expands.count_styles (hparse k List.mem_cons_self) v
      have honward := ih fun k' hk' => hparse k' (List.mem_cons_of_mem k hk')
      rw [serve, answer]
      simp only [Except.toOption, Option.toList, TreeCall.task, Renderer.rootTask, Task.styles,
        Node.stylesForest, List.append_nil, List.singleton_append, List.map_append,
        writtenSheets_append, droppedStyles_append, List.count_append, List.count_nil]
        at hcall honward ⊢
      omega
  | @failed k _ _ _ _ _ answer _ ih =>
      have honward := ih fun k' hk' => hparse k' (List.mem_cons_of_mem k hk')
      rw [serve, answer]
      exact honward

end Retained

end CustomElements
