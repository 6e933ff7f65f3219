import CustomElements.Proofs.Component.Dependencies
import CustomElements.Proofs.Session.Footprint
import Mathlib.Logic.Relation

/-!
# Calls that commute

Two calls on one session are *independent* if they expand no definition in common, what they depend
on declares no name in common, and the markup of neither has a name that only the other makes known.
Each of them then has the same answer before and after the other one, also if one of them or both
fail, and it does not matter for the session in which order they are made (`answers_commute`).

Each call makes names known, which stay known. But they are names that its definition depends on
(`Catalog.get?_register_of_not_declares`), and the markup of the other call has none of them.
-/

namespace CustomElements

open Relation (ReflTransGen)

/-! ## What registering makes known -/

namespace Catalog

/-- The name is declared by the definition or by one that it depends on. -/
def Declares (c : Catalog) (d : Definition) (name : String) : Prop :=
  ∃ x, ReflTransGen c.Requires d x ∧ x.tagName = some name

/-- The names are those of definitions in any list that holds all dependencies of its members. -/
theorem Declares.exists_mem {c : Catalog} {d : Definition} {name : String} (h : c.Declares d name)
    {l : List Definition} (hd : d ∈ l) (hl : ∀ x ∈ l, ∀ y ∈ c.dependencies x.id, y ∈ l) :
    ∃ x ∈ l, x.tagName = some name := by
  obtain ⟨x, hreaches, hname⟩ := h
  refine ⟨x, ?_, hname⟩
  clear hname
  induction hreaches with
  | refl => exact hd
  | tail _ hstep ih => exact hl _ ih _ hstep

/-- Names that are known stay. What others come to stand for does not depend on what is known. -/
theorem get?_register (c : Catalog) (d : Definition) (map : TagMap) (name : String) :
    (c.register d map).get? name = (map.get? name).or ((c.register d ∅).get? name) := by
  obtain ⟨order, -, hget⟩ := c.exists_get?_register d
  have hempty : (∅ : TagMap).get? name = none := rfl
  rw [hget, hget, hempty, Option.none_or]

/-- A name that is not declared stands for what it stood for. -/
theorem get?_register_of_not_declares {c : Catalog} {d : Definition} {name : String}
    (h : ¬c.Declares d name) (map : TagMap) : (c.register d map).get? name = map.get? name := by
  obtain ⟨order, hvisits, hget⟩ := c.exists_get?_register d
  have hnone : (order.find? fun e => e.tagName == some name) = none := by
    rw [List.find?_eq_none]
    intro x hx hname
    obtain ⟨y, hy, hreaches⟩ := hvisits.reachable x hx
    rw [List.mem_singleton.mp hy] at hreaches
    exact h ⟨x, hreaches, by simpa using hname⟩
  rw [hget, hnone, Option.or_none]

end Catalog

/-! ## Where names in markup come from -/

/-- The names in a component's markup are in some markup that its template has written. -/
theorem Expands.written {r : Renderer} {d : Deliveries} {theme : Option Theme} {task : Task}
    {p p' : Progress} {result : Except Stop (List Node)} {os : List Occurrence}
    (h : Expands r d theme task p result p' os) (hp : p.CacheCreated) :
    ∀ o ∈ os, ∀ name ∈ o.ownNames, ∃ markup, o.definition.Writes d markup ∧
      name ∈ (Node.tagsForest (r.parse markup)).map Tag.name := by
  intro o ho name hname
  obtain ⟨definition, _, _, _, q, hq, -, begins⟩ :=
    kept_cacheCreated.begins h (fun _ _ => trivial) hp task.named_true o ho
  unfold Occurrence.ownNames at hname
  split at hname
  · rename_i own scoping hparts
    have hwritten := Occurrence.writes_own (w := o.parts.2) begins hq (Prod.ext hparts rfl)
    obtain ⟨markup, hwrites, rfl⟩ := hwritten
    have hdefinition : o.definition = definition := by rw [begins]; rfl
    exact ⟨markup, hdefinition ▸ hwrites, hname⟩
  · cases hname

/-! ## Independent calls -/

namespace TreeCall

/-- The name is declared by what the call's definition depends on, or by the definition itself. -/
def Declares (k : TreeCall) (name : String) : Prop := k.catalog.Declares k.definition name

/-- The call, made on this session, expands the definition. -/
def Touches (k : TreeCall) (p : Progress) (id : Nat) : Prop :=
  ∃ o, k.Expanded p o ∧ o.definition.id = id

/-- The calls, each of them made on this session alone, have nothing to do with each other. -/
structure Independent (k k' : TreeCall) (p : Progress) : Prop where
  impersonal : ∀ o, k.Expanded p o ∨ k'.Expanded p o → o.definition.Impersonal
  definitions : ∀ o o', k.Expanded p o → k'.Expanded p o' → o.definition.id ≠ o'.definition.id
  declared : ∀ name, k.Declares name → ¬k'.Declares name
  /-- Of the names in its markup, the session knows those which the second call declares. -/
  names : ∀ o name, k.Expanded p o → name ∈ o.ownNames → k'.Declares name →
    p.session.tagMap.contains name = true
  names' : ∀ o name, k'.Expanded p o → name ∈ o.ownNames → k.Declares name →
    p.session.tagMap.contains name = true

theorem Independent.symm {k k' : TreeCall} {p : Progress} (h : k.Independent k' p) :
    k'.Independent k p where
  impersonal := fun o ho => h.impersonal o ho.symm
  definitions := fun o o' ho ho' heq => h.definitions o' o ho' ho heq.symm
  declared := fun name hk hk' => h.declared name hk' hk
  names := h.names'
  names' := h.names

theorem tagMap_answer (k : TreeCall) (p : Progress) :
    (k.answer p).2.session.tagMap = k.catalog.register k.definition p.session.tagMap :=
  k.renderer.tagMap_elementToTag ..

/-- **What a call does not expand, it leaves as it was.** -/
theorem unchanged {k : TreeCall} (id : Nat) (hk : k.Later) {p : Progress} (hp : p.CacheCreated)
    (himpersonal : ∀ o, k.Expanded p o → o.definition.Impersonal)
    (hid : ¬k.Touches p id) :
    (k.answer p).2.session.counter id = p.session.counter id ∧
      (k.answer p).2.session.isGlobalEmitted id = p.session.isGlobalEmitted id := by
  have hself : Session.AlikeOn (k.Touches p) p.session p.session p.session :=
    ⟨fun _ _ => rfl, fun _ _ => rfl, fun _ _ => rfl, fun _ _ => rfl⟩
  obtain ⟨-, hend⟩ := alikeOn hk hp hp hself fun o ho =>
    ⟨⟨o, ho, rfl⟩, himpersonal o ho, fun _ _ => rfl⟩
  exact ⟨hend.counter_other id hid, hend.emitted_other id hid⟩

/-- After an independent call, a call does what it would have done before. -/
theorem Independent.alikeOn_after {k k' : TreeCall} {p : Progress} (h : k.Independent k' p)
    (hk : k.Later) (hk' : k'.Later) (hp : p.CacheCreated) :
    (k'.answer (k.answer p).2).1 = (k'.answer p).1 ∧
      Session.AlikeOn (k'.Touches p) (k.answer p).2.session (k'.answer p).2.session
        (k'.answer (k.answer p).2).2.session := by
  have hunchanged : ∀ id, k'.Touches p id → ¬k.Touches p id := by
    rintro _ ⟨o', ho', rfl⟩ ⟨o, ho, heq⟩
    exact h.definitions o o' ho ho' heq
  have himpersonal : ∀ o, k.Expanded p o → o.definition.Impersonal :=
    fun o ho => h.impersonal o (.inl ho)
  have hstart : Session.AlikeOn (k'.Touches p) (k.answer p).2.session p.session
      (k.answer p).2.session :=
    ⟨fun id hid => (unchanged id hk hp himpersonal (hunchanged id hid)).1,
      fun id hid => (unchanged id hk hp himpersonal (hunchanged id hid)).2,
      fun _ _ => rfl, fun _ _ => rfl⟩
  refine TreeCall.alikeOn hk' hp (keepsCache_answer hk hp).2 hstart fun o ho => ?_
  refine ⟨⟨o, ho, rfl⟩, h.impersonal o (.inr ho), fun name hname => ?_⟩
  unfold TagMap.SameAt
  rw [tagMap_answer, Catalog.get?_register, k'.catalog.get?_register _ p.session.tagMap]
  by_cases hdeclares : k.Declares name
  · -- the session knew it before, so neither call changes what it stands for
    obtain ⟨x, hx⟩ := Option.isSome_iff_exists.mp (h.names' o name ho hname hdeclares)
    rw [k.catalog.get?_register _ p.session.tagMap, hx]
    rfl
  · rw [Catalog.get?_register_of_not_declares hdeclares]

/-! ### Told from the definitions -/

/-- The definition is one that the call, made on this session, may expand. -/
def MayExpand (k : TreeCall) (p : Progress) (x : Definition) : Prop :=
  (k.found p).MayExpand k.catalog k.definition x

theorem Expanded.exists_expands {k : TreeCall} {p : Progress} {o : Occurrence}
    (h : k.Expanded p o) : ∃ result q os,
      Expands k.renderer k.deliveries k.theme k.task (k.registered p) result q os ∧ o ∈ os := by
  obtain ⟨_, hbegun, ho⟩ := h
  cases hbegun with
  | cons expands _ _ onward =>
      cases onward
      rw [List.append_nil] at ho
      exact ⟨_, _, _, expands, ho⟩

theorem Expanded.mayExpand {k : TreeCall} {p : Progress} {o : Occurrence} (h : k.Expanded p o) :
    k.MayExpand p o.definition := by
  obtain ⟨result, q, os, hx, ho⟩ := h.exists_expands
  have hknown : ∀ name x, (k.registered p).session.tagMap.get? name = some x → k.MayExpand p x :=
    fun name x hx => .inr ⟨name, hx⟩
  exact (hx.named rfl hknown (.inl rfl) o ho).2

theorem Expanded.written {k : TreeCall} (hk : k.Later) {p : Progress} (hp : p.CacheCreated)
    {o : Occurrence} (h : k.Expanded p o) {name : String} (hname : name ∈ o.ownNames) :
    ∃ markup, o.definition.Writes k.deliveries markup ∧
      name ∈ (Node.tagsForest (k.renderer.parse markup)).map Tag.name := by
  obtain ⟨result, q, os, hx, ho⟩ := h.exists_expands
  exact hx.written (cacheCreated_found hk hp) o ho name hname

/--
**Independent calls commute.** Suppose that all that is cached belongs to instances that were
created. In whichever order two independent calls are made, each of them has the same answer, a tree
or a failure; and in the end the same names stand for the same definitions, the same indices have
been drawn, the same shared sheets have been written, and the cache holds what it held before.
-/
theorem answers_commute {k k' : TreeCall} {p : Progress} (hk : k.Later) (hk' : k'.Later)
    (hp : p.CacheCreated) (h : k.Independent k' p) :
    let q := (k.answer p).2
    let q' := (k'.answer p).2
    let s := (k'.answer q).2.session
    let s' := (k.answer q').2.session
    (k.answer q').1 = (k.answer p).1 ∧ (k'.answer q).1 = (k'.answer p).1 ∧
      (∀ name, s'.lookup name = s.lookup name) ∧ (∀ id, s'.counter id = s.counter id) ∧
      (∀ id, s'.isGlobalEmitted id = s.isGlobalEmitted id) ∧
      s.memo = p.session.memo ∧ s'.memo = p.session.memo := by
  intro q q' s s'
  obtain ⟨hanswer', hs⟩ := h.alikeOn_after hk hk' hp
  obtain ⟨hanswer, hs'⟩ := h.symm.alikeOn_after hk' hk hp
  obtain ⟨hmemo, hq⟩ := keepsCache_answer hk hp
  obtain ⟨hmemo', hq'⟩ := keepsCache_answer hk' hp
  have hunchanged := fun id => unchanged id hk hp fun o ho => h.impersonal o (.inl ho)
  have hunchanged' := fun id => unchanged id hk' hp fun o ho => h.impersonal o (.inr ho)
  have happart : ∀ id, k.Touches p id → ¬k'.Touches p id := by
    rintro _ ⟨o, ho, rfl⟩ ⟨o', ho', heq⟩
    exact h.definitions o o' ho ho' heq.symm
  refine ⟨hanswer, hanswer', fun name => ?_, fun id => ?_, fun id => ?_,
    (keepsCache_answer hk' hq).1.trans hmemo, (keepsCache_answer hk hq').1.trans hmemo'⟩
  · change (k.answer (k'.answer p).2).2.session.tagMap.get? name =
      (k'.answer (k.answer p).2).2.session.tagMap.get? name
    rw [tagMap_answer, tagMap_answer, tagMap_answer, tagMap_answer]
    by_cases hdeclares : k.Declares name
    · have hother : ¬k'.Declares name := h.declared name hdeclares
      rw [Catalog.get?_register_of_not_declares hother, Catalog.get?_register,
        Catalog.get?_register_of_not_declares hother, ← Catalog.get?_register]
    · rw [Catalog.get?_register_of_not_declares hdeclares, Catalog.get?_register,
        k'.catalog.get?_register _ (k.catalog.register k.definition p.session.tagMap),
        Catalog.get?_register_of_not_declares hdeclares]
  · by_cases hid : k.Touches p id
    · rw [hs'.counter id hid, hs.counter_other id (happart id hid)]
    · rw [hs'.counter_other id hid]
      by_cases hid' : k'.Touches p id
      · rw [hs.counter id hid']
      · rw [hs.counter_other id hid', (hunchanged id hid).1, (hunchanged' id hid').1]
  · by_cases hid : k.Touches p id
    · rw [hs'.emitted id hid, hs.emitted_other id (happart id hid)]
    · rw [hs'.emitted_other id hid]
      by_cases hid' : k'.Touches p id
      · rw [hs.emitted id hid']
      · rw [hs.emitted_other id hid', (hunchanged id hid).2, (hunchanged' id hid').2]

end TreeCall

/-! ## A call that fails, and one that does not -/

namespace Sample

/-- A component with sheets, which fails in what is nested in it. -/
def siren : Definition :=
  component 4 "x-siren" (.ofString "<x-bomb></x-bomb>")
    [.ofFunction 41 .onlyTheme (.ofString "i{top:0}"),
      .ofFunction 42 .always (.ofString "b{top:1}")]

def sirens : Catalog := ⟨catalog.entries ++ [⟨siren, some [2]⟩]⟩

theorem writes_ofString {definition : Definition} {id : Nat} {mask : Change} {markup : String}
    (hhtml : definition.html = some (.ofFunction id mask (.ofString markup))) {written : String}
    (h : definition.Writes .none written) : written = markup := by
  obtain ⟨t, ht, run, _, _, result, text, hrun, hresult, htext, rfl⟩ := h
  cases hhtml.symm.trans ht
  cases hrun
  cases hresult
  cases htext
  exact String.append_empty

theorem declares_siren {name : String} (h : (ask sirens siren).Declares name) :
    name = "x-siren" ∨ name = "x-bomb" := by
  have hsiren : sirens.dependencies siren.id = [bomb] := rfl
  have hbomb : sirens.dependencies bomb.id = [] := rfl
  obtain ⟨x, hx, hname⟩ := Catalog.Declares.exists_mem (l := [siren, bomb]) h List.mem_cons_self (by
    rw [List.forall_mem_cons, List.forall_mem_singleton]
    change (∀ y ∈ sirens.dependencies siren.id, _) ∧ ∀ y ∈ sirens.dependencies bomb.id, _
    rw [hsiren, hbomb]
    simp)
  rcases List.mem_pair.mp hx with rfl | rfl <;> cases hname
  · exact .inl rfl
  · exact .inr rfl

theorem declares_item {name : String} (h : (ask sirens item).Declares name) : name = "x-item" := by
  have hitem : sirens.dependencies item.id = [] := rfl
  obtain ⟨x, hx, hname⟩ := Catalog.Declares.exists_mem (l := [item]) h List.mem_cons_self (by
    rw [List.forall_mem_singleton]
    change ∀ y ∈ sirens.dependencies item.id, _
    rw [hitem]
    simp)
  rw [List.mem_singleton] at hx
  subst hx
  cases hname
  rfl

theorem mayExpand_siren {x : Definition} (h : (ask sirens siren).MayExpand fresh x) :
    x = siren ∨ x = bomb := by
  have hvalues : (sirens.register siren fresh.session.tagMap).values = [siren, bomb] := rfl
  refine Progress.forall_mayExpand (P := fun x => x = siren ∨ x = bomb) (.inl rfl) ?_ x h
  change ∀ x ∈ (sirens.register siren fresh.session.tagMap).values, _
  rw [hvalues]
  simp

theorem mayExpand_item {x : Definition} (h : (ask sirens item).MayExpand fresh x) : x = item := by
  have hvalues : (sirens.register item fresh.session.tagMap).values = [item] := rfl
  refine Progress.forall_mayExpand (P := fun x => x = item) rfl ?_ x h
  change ∀ x ∈ (sirens.register item fresh.session.tagMap).values, _
  rw [hvalues]
  simp

theorem impersonal_item : item.Impersonal := by
  refine impersonal_component (impersonal_ofString _) ?_
  simp [impersonal_ofFunction, impersonal_ofString]

theorem impersonal_siren : siren.Impersonal := by
  refine impersonal_component (impersonal_ofString _) ?_
  simp [impersonal_ofFunction, impersonal_ofString]

theorem impersonal_bomb : bomb.Impersonal := by
  refine impersonal_component (fun _ _ call call' _ _ _ hown _ => ?_) (by simp)
  rw [hown]

theorem cacheCreated_fresh : fresh.CacheCreated := (Progress.Reachable.fresh _ _).cacheCreated

theorem later_ask (c : Catalog) (definition : Definition) : (ask c definition).Later :=
  fun _ => Nat.le_refl _

theorem independent_siren : (ask sirens siren).Independent (ask sirens item) fresh where
  impersonal := by
    rintro o (ho | ho)
    · rcases mayExpand_siren ho.mayExpand with h | h <;> rw [h]
      · exact impersonal_siren
      · exact impersonal_bomb
    · rw [mayExpand_item ho.mayExpand]
      exact impersonal_item
  definitions := by
    intro o o' ho ho'
    rw [mayExpand_item ho'.mayExpand]
    rcases mayExpand_siren ho.mayExpand with h | h <;> rw [h] <;> decide
  declared := by
    intro name h h'
    have hitem := declares_item h'
    rcases declares_siren h with hname | hname <;> rw [hname] at hitem <;>
      exact absurd hitem (by decide)
  names := by
    intro o name ho hname hdeclares
    have hmarkup := ho.written (later_ask _ _) cacheCreated_fresh hname
    rw [declares_item hdeclares] at hmarkup
    obtain ⟨markup, hwrites, hmarkup⟩ := hmarkup
    rcases mayExpand_siren ho.mayExpand with h | h <;> rw [h] at hwrites
    · rw [writes_ofString rfl hwrites] at hmarkup
      exact absurd hmarkup (by decide +kernel)
    · obtain ⟨_, ⟨⟩, run, _, _, _, _, ⟨⟩, ⟨⟩, _⟩ := hwrites
  names' := by
    intro o name ho hname hdeclares
    obtain ⟨markup, hwrites, hmarkup⟩ := ho.written (later_ask _ _) cacheCreated_fresh hname
    rw [mayExpand_item ho.mayExpand] at hwrites
    rw [writes_ofString rfl hwrites] at hmarkup
    have hnone : (Node.tagsForest (reader.parse "item")).map Tag.name = [] := by decide +kernel
    change name ∈ (Node.tagsForest (reader.parse "item")).map Tag.name at hmarkup
    rw [hnone] at hmarkup
    cases hmarkup

end Sample

open Sample in
/-- The siren draws an index and fails, and the item is shown with both its sheets, in any order. -/
theorem TreeCall.answers_commute_siren :
    (ask sirens siren).Later ∧ (ask sirens item).Later ∧ fresh.CacheCreated ∧
      (ask sirens siren).Independent (ask sirens item) fresh ∧
      ∃ q q' s s', ((ask sirens siren).answer fresh).2 = q ∧
        ((ask sirens item).answer fresh).2 = q' ∧
        ((ask sirens item).answer q).2.session = s ∧
        ((ask sirens siren).answer q').2.session = s' ∧
        ((ask sirens siren).answer fresh).1.toOption.isNone = true ∧
        ((ask sirens item).answer fresh).1.toOption.map Node.toHtml =
          some ("<x-item><style>.css-x-item-i { top: 0; }</style>" ++
            "<style>.css-x-item-0-b { top: 1; }</style>item</x-item>") ∧
        s.counter siren.id = 1 ∧ s.counter item.id = 1 ∧ s.emitted = [item.id] ∧
        ((ask sirens siren).answer q').1 = ((ask sirens siren).answer fresh).1 ∧
        ((ask sirens item).answer q).1 = ((ask sirens item).answer fresh).1 ∧
        (∀ name, s'.lookup name = s.lookup name) ∧ (∀ id, s'.counter id = s.counter id) ∧
        (∀ id, s'.isGlobalEmitted id = s.isGlobalEmitted id) ∧
        s.memo = fresh.session.memo ∧ s'.memo = fresh.session.memo :=
  ⟨later_ask _ _, later_ask _ _, cacheCreated_fresh, independent_siren, _, _, _, _, rfl, rfl, rfl,
    rfl, by decide +kernel, by decide +kernel, by decide +kernel, by decide +kernel,
    by decide +kernel,
    answers_commute (later_ask _ _) (later_ask _ _) cacheCreated_fresh independent_siren⟩

end CustomElements
