import CustomElements.Proofs.Expansion.Identifiers
import CustomElements.Proofs.Session.SharedSheets

/-!
# Indices

An instance with sheets of its own draws an index from the counter of its definition. A call that
fails does not give the indices back, so the components that have *begun*, in the calls that failed
too, are the history of the counters (`Begun.linked`).

So the indices that are drawn for a definition are consecutive, from where its counter was, whatever
else is expanded in between and whichever calls fail (`uniqueIndices_consecutive`).
-/

namespace CustomElements

/-! ## All components that begin -/

namespace TreeCall

/-- The progress after the call, when its expansion has ended. A failure takes back its records. -/
def ended (k : TreeCall) (p : Progress) : Except Stop (List Node) → Progress → Progress
  | .ok _, q => q
  | .error _, q => { q with session := q.session.rollback (k.registered p).session.checkpoint }

variable (k : TreeCall) (p : Progress)

theorem tagMap_ended (result : Except Stop (List Node)) (q : Progress) :
    (k.ended p result q).session.tagMap = q.session.tagMap := by
  cases result <;> rfl

/-- Indices are not taken back. -/
theorem counter_ended (result : Except Stop (List Node)) (q : Progress) :
    (k.ended p result q).session.counter = q.session.counter := by
  cases result <;> rfl

theorem exists_expands : ∃ result q os,
    Expands k.renderer k.deliveries k.theme k.task (k.registered p) result q os ∧
      (k.answer p).1.map ([·]) = result ∧ (k.answer p).2 = k.ended p result q := by
  obtain ⟨q, os, ⟨n, heq, hx⟩ | ⟨stop, heq, hx⟩⟩ := k.renderer.elementToTag_cases k.catalog
    k.deliveries k.depth k.definition k.attributes k.theme (k.found p) <;>
  · rw [answer, heq]
    exact ⟨_, q, os, hx, rfl, rfl⟩

end TreeCall

/-- `os` are the components that began in the calls, those that failed included. -/
inductive Begun : Progress → List TreeCall → List Occurrence → Prop where
  | nil {p : Progress} : Begun p [] []
  | cons {k : TreeCall} {rest : List TreeCall} {p q : Progress} {result : Except Stop (List Node)}
      {os os' : List Occurrence}
      (expands : Expands k.renderer k.deliveries k.theme k.task (k.registered p) result q os)
      (answer : (k.answer p).1.map ([·]) = result) (ended : (k.answer p).2 = k.ended p result q)
      (onward : Begun (k.answer p).2 rest os') : Begun p (k :: rest) (os ++ os')

theorem exists_begun (calls : List TreeCall) (p : Progress) : ∃ os, Begun p calls os := by
  induction calls generalizing p with
  | nil => exact ⟨[], .nil⟩
  | cons k rest ih =>
      obtain ⟨result, q, os, hx, hanswer, hended⟩ := k.exists_expands p
      obtain ⟨os', honward⟩ := ih (k.answer p).2
      exact ⟨os ++ os', .cons hx hanswer hended honward⟩

theorem serve_cons (k : TreeCall) (rest : List TreeCall) (p : Progress) :
    (serve (k :: rest) p).2 = (serve rest (k.answer p).2).2 := rfl

namespace Begun

variable {p : Progress} {calls : List TreeCall} {os : List Occurrence}

/-- **The components that have begun are the history of the counters.** -/
theorem linked (h : Begun p calls os) :
    Linked Session.counter p.session.counter os (serve calls p).2.session.counter := by
  induction h with
  | nil => exact rfl
  | @cons k _ p q result _ _ expands _ ended _ ih =>
      have hcall := expands.linked.map Session.counter
      rw [ended, k.counter_ended] at ih
      rw [serve_cons, ended]
      exact hcall.append ih

/-- Every component begins in one of the calls, on a session whose names are declared. -/
theorem exists_expands (h : Begun p calls os) {o : Occurrence} (ho : o ∈ os) :
    ∃ k ∈ calls, ∃ p' result q os',
      Expands k.renderer k.deliveries k.theme k.task (k.registered p') result q os' ∧ o ∈ os' ∧
        (p.session.tagMap.Declared → p'.session.tagMap.Declared) := by
  induction h with
  | nil => simp at ho
  | @cons k _ p q result os _ expands _ ended _ ih =>
      rcases List.mem_append.mp ho with ho | ho
      · exact ⟨k, List.mem_cons_self, p, result, q, os, expands, ho, id⟩
      · obtain ⟨k', hk', p', result', q', os', hx, ho', hnames⟩ := ih ho
        refine ⟨k', List.mem_cons_of_mem k hk', p', result', q', os', hx, ho', fun hp => hnames ?_⟩
        rw [ended, k.tagMap_ended, expands.grows.tagMap]
        exact k.catalog.declared_register k.definition hp

theorem renderer_eq (h : Begun p calls os) {o : Occurrence} (ho : o ∈ os) :
    ∃ k ∈ calls, o.renderer = k.renderer := by
  obtain ⟨k, hk, p', result, q, os', hx, ho', -⟩ := h.exists_expands ho
  have hfits : ∀ name definition, (k.registered p').session.tagMap.get? name = some definition →
      True := fun _ _ _ => trivial
  exact ⟨k, hk, (hx.named rfl hfits trivial o ho').1⟩

/-- Every component is expanded by the renderer of a call, and goes by the name it declares. -/
theorem named (h : Begun p calls os) (hp : p.session.tagMap.Declared) {o : Occurrence}
    (ho : o ∈ os) : ∃ k ∈ calls, o.renderer = k.renderer ∧
      o.start.inst.tagName =
        o.definition.resolvedTagName k.renderer.options.anonymousTagPrefix := by
  obtain ⟨k, hk, p', result, q, os', hx, ho', hnames⟩ := h.exists_expands ho
  have hknown : (k.registered p').session.tagMap.Declared :=
    k.catalog.declared_register k.definition (hnames hp)
  have hfits : ∀ name definition, (k.registered p').session.tagMap.get? name = some definition →
      name = definition.resolvedTagName k.renderer.options.anonymousTagPrefix := by
    intro name definition hget
    rw [Definition.resolvedTagName, hknown name definition hget]
    rfl
  exact ⟨k, hk, hx.named rfl hfits rfl o ho'⟩

end Begun

/-! ## Consecutive indices -/

/-- The indices that are drawn for a definition begin where its counter was. -/
theorem Linked.map_index {os : List Occurrence} {before after : Nat → Nat}
    (h : Linked Session.counter before os after) (definition : Nat) :
    let drawing := os.filter (·.draws definition)
    drawing.map Occurrence.index = List.range' (before definition) drawing.length ∧
      after definition = before definition + drawing.length := by
  induction os generalizing before with
  | nil =>
      cases h
      exact ⟨rfl, rfl⟩
  | cons o os ih =>
      obtain ⟨rfl, hos⟩ := h
      -- those after it begin with the counter that this one leaves
      obtain ⟨hindex, hafter⟩ := ih hos
      have hcounter := o.usesIds.counter definition
      rcases hdraws : o.draws definition with - | -
      · rw [hdraws] at hcounter
        rw [hcounter] at hindex hafter
        simpa [hdraws] using ⟨hindex, hafter⟩
      · have hid : o.definition.id = definition := by
          rw [Occurrence.draws, Bool.and_eq_true, beq_iff_eq] at hdraws
          exact hdraws.1
        rw [hdraws, if_pos rfl] at hcounter
        rw [hcounter] at hindex hafter
        simp only [List.filter_cons, hdraws, if_true, List.map_cons, List.length_cons,
          List.range'_succ, List.cons.injEq]
        refine ⟨⟨by rw [Occurrence.index, hid], hindex⟩, ?_⟩
        omega

/--
**Indices are consecutive.** Whatever calls are made on a session, and whichever of them fail: of
the components that begin, those of one definition that come to a sheet of their own draw the
indices that follow on its counter, one after the other, and the counter ends behind the last of
them. Every component uses the identifiers made of its index and its tag name, and no others, for
its stylesheets and its markup.
-/
theorem uniqueIndices_consecutive {p : Progress} (hp : p.Reachable) (calls : List TreeCall) :
    (∃ os, Begun p calls os) ∧ ∀ os, Begun p calls os →
      (∀ definition,
        let drawing := os.filter (·.draws definition)
        drawing.map Occurrence.index =
            List.range' (p.session.counter definition) drawing.length ∧
          (serve calls p).2.session.counter definition =
            p.session.counter definition + drawing.length) ∧
      ∀ o ∈ os, o.UsesIds ∧ ∃ k ∈ calls, o.renderer = k.renderer ∧
        o.start.inst.tagName =
          o.definition.resolvedTagName k.renderer.options.anonymousTagPrefix := by
  refine ⟨exists_begun calls p, fun os h => ⟨h.linked.map_index, fun o ho => ?_⟩⟩
  exact ⟨o.usesIds, h.named hp.declared ho⟩

open Sample in
/-- Two items are shown, and between them one in a page that fails. Its index is not used again. -/
theorem uniqueIndices_consecutive_items :
    fresh.Reachable ∧ (serve twoItems fresh).1.length = 2 ∧
      (∃ os, Begun fresh twoItems os) ∧ ∀ os, Begun fresh twoItems os →
        (os.filter (·.draws item.id)).map Occurrence.index = [0, 1, 2] ∧
        ∀ o ∈ os, o.UsesIds ∧ ∃ k ∈ twoItems, o.renderer = k.renderer ∧
          o.start.inst.tagName =
            o.definition.resolvedTagName k.renderer.options.anonymousTagPrefix := by
  have hfresh : fresh.Reachable := .fresh 0 .empty
  obtain ⟨hexists, hall⟩ := uniqueIndices_consecutive hfresh twoItems
  refine ⟨hfresh, by decide +kernel, hexists, fun os h => ?_⟩
  obtain ⟨hindices, huses⟩ := hall os h
  obtain ⟨hmap, hlast⟩ := hindices item.id
  have hcounter : (serve twoItems fresh).2.session.counter item.id = 3 := by decide +kernel
  have hstart : fresh.session.counter item.id = 0 := rfl
  rw [hcounter, hstart, Nat.zero_add] at hlast
  exact ⟨by rw [hmap, hstart, ← hlast]; rfl, huses⟩

end CustomElements
