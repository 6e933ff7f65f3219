import CustomElements.Proofs.Cache.Slots
import CustomElements.Proofs.Expansion.Content
import CustomElements.Proofs.Session.SharedSheets
import Mathlib.Order.WellFounded

/-!
# Room for nested components

An expansion is given room for a number of components inside of each other. How much it needs is
told by what components write: `Renderer.Nests` relates a component to those that its markup may
have elements for. Components may depend on each other in a circle. As long as there is no endless
way down in this relation, a call that is given enough room comes to an end by itself, and to have
more room than that does not change what it does.

The content of a component adds nothing to the depth, although it is gone through again inside of
the markup: it has been expanded before, so nothing is left in it to expand. Thus the elements that
are expanded inside of a component come from its own markup, which its template has written just
now, for nothing can be cached for an instance that is new.
-/

namespace CustomElements

open Relation (TransGen)

/-! ## Ways down -/

section Within

variable {α : Type} {rel rel' : α → α → Prop}

/-- Every way down from here has fewer than `n` steps. -/
def Within (rel : α → α → Prop) : Nat → α → Prop
  | 0, _ => False
  | n + 1, a => ∀ b, rel b a → Within rel n b

/-- Where there is no endless way down, a way meets nothing twice. -/
theorem within_of_wellFounded (hwf : WellFounded rel) {n : Nat} {l : List α} (hl : l.length ≤ n)
    {a : α} (hbelow : ∀ b, TransGen rel b a → b ∈ l) : Within rel (n + 1) a := by
  induction n generalizing l a with
  | zero =>
      intro b hb
      have hb' := hbelow b (.single hb)
      rw [List.length_eq_zero_iff.mp (Nat.le_zero.mp hl)] at hb'
      cases hb'
  | succ n ih =>
      classical
      intro b hb
      have hb' := hbelow b (.single hb)
      refine ih (l := l.erase b) ?_ fun c hc => ?_
      · rw [List.length_erase_of_mem hb']
        omega
      · have hne : c ≠ b := by
          rintro rfl
          exact hwf.transGen.irrefl.irrefl c hc
        exact (List.mem_erase_of_ne hne).mpr (hbelow c (hc.tail hb))

/-- A way down by one relation is one by the other, if it starts where that is so of every step. -/
theorem Within.of_rel {S : α → Prop} (hstep : ∀ a b, S a → rel' b a → S b ∧ rel b a) {n : Nat}
    {a : α} (ha : S a) (h : Within rel n a) : Within rel' n a := by
  induction n generalizing a with
  | zero => exact h
  | succ n ih =>
      intro b hb
      obtain ⟨hS, hrel⟩ := hstep a b ha hb
      exact ih hS (h b hrel)

end Within

/-! ## Open elements of distributed markup -/

section Distribution

variable {assign : Option String → List Node} {content : List Node}

mutual

theorem Node.openTags_fill_outline (h : ∀ name, ∀ n ∈ assign name, n ∈ content)
    (seen : List (Option String)) : (n : Node) → ∀ t ∈ ((n.outline assign seen).fill id).openTags,
      t ∈ n.openTags ∨ t ∈ openTagsForest content
  | .text _, t, ht => .inl ht
  | .style _ _, t, ht => .inl ht
  | .styleText _, t, ht => .inl ht
  | .element tag children, t, ht => by
      unfold outline at ht
      split at ht
      · split at ht
        · exact .inl ht
        · rw [Frame.fill, Frame.fillForest_map_hole, List.map_id, openTags] at ht
          rw [openTags]
          split at ht
          · cases ht
          · rename_i hexpanded
            rw [if_neg hexpanded]
            rcases List.mem_cons.mp ht with rfl | ht
            · exact .inl List.mem_cons_self
            · -- an open element of a piece that has come into the placeholder
              right
              rw [openTagsForest_eq_flatMap, List.mem_flatMap] at ht ⊢
              obtain ⟨n, hn, ht⟩ := ht
              exact ⟨n, h _ n hn, ht⟩
      · split at ht
        · exact .inl ht
        · rename_i hexpanded
          rw [Frame.fill, openTags, if_neg hexpanded] at ht
          rw [openTags, if_neg hexpanded]
          rcases List.mem_cons.mp ht with rfl | ht
          · exact .inl List.mem_cons_self
          · exact (openTagsForest_fill_outline h seen children t ht).imp_left
              (List.mem_cons_of_mem tag)

theorem Node.openTagsForest_fill_outline (h : ∀ name, ∀ n ∈ assign name, n ∈ content)
    (seen : List (Option String)) : (nodes : List Node) →
      ∀ t ∈ openTagsForest (Frame.fillForest id (outlineForest assign seen nodes)),
        t ∈ openTagsForest nodes ∨ t ∈ openTagsForest content
  | [], t, ht => .inl ht
  | n :: rest, t, ht => by
      rw [outlineForest, Frame.fillForest, openTagsForest] at ht
      rw [openTagsForest]
      rcases List.mem_append.mp ht with ht | ht
      · exact (openTags_fill_outline h seen n t ht).imp_left (List.mem_append_left _)
      · exact (openTagsForest_fill_outline h _ rest t ht).imp_left (List.mem_append_right _)

end

/-- What is open in distributed markup is open in the markup or in the content. -/
theorem Distribution.openTags_nodes (markup content : List Node) :
    ∀ t ∈ Node.openTagsForest (resolve markup content).nodes,
      t ∈ Node.openTagsForest markup ∨ t ∈ Node.openTagsForest content := by
  intro t ht
  have hnodes : (resolve markup (content.map id)).nodes = Frame.fillForest id _ :=
    nodes_resolve markup (fun _ => rfl) content
  rw [List.map_id] at hnodes
  rw [hnodes] at ht
  exact Node.openTagsForest_fill_outline (fun _ _ hn => Receivers.mem_of_mem_assigned hn) [] markup
    t ht

end Distribution

/-! ## What components write -/

/-- In some call the template's function returns a result with this text. -/
def Template.Writes (t : Template) (d : Deliveries) (markup : String) : Prop :=
  ∃ run earlier call result text, t.run? = some run ∧ (run earlier call).result = .ok result ∧
    result.coerce d = .ok text ∧ text.text = markup

/-- The markup is what the definition's template returns in some call. -/
def Definition.Writes (definition : Definition) (d : Deliveries) (markup : String) : Prop :=
  ∃ t, definition.html = some t ∧ t.Writes d markup

/--
The inner component may come to stand inside of the outer one: there is an element with a name that
stands for it in what is read from some markup of the outer one.
-/
def Renderer.Nests (r : Renderer) (d : Deliveries) (known : TagMap) (inner outer : Definition) :
    Prop :=
  ∃ markup, outer.Writes d markup ∧
    ∃ tag ∈ Node.tagsForest (r.parse markup), known.get? tag.name = some inner

/-- A result of a template that is not cached is returned by its function. -/
theorem Memo.result_of_new {m : Memo} {j : Journal} {t : Template} {reason : Change}
    {inst : Instance} {templater : Nat} {changed : Bool} {result : RenderResult}
    (hnew : m.get? ⟨templater, inst.id, t.id⟩ = none)
    (h : (m.render j t reason inst templater).answer = .ok ⟨changed, some result⟩) :
    ∃ run earlier call, t.run? = some run ∧ (run earlier call).result = .ok result := by
  unfold render at h
  split at h
  · cases h
  · rename_i run hrun
    dsimp only at h
    rw [hnew, Option.filter_none] at h
    dsimp only at h
    split at h
    · rename_i hresult
      cases h
      exact ⟨run, _, _, hrun, hresult⟩
    · cases h

theorem InstanceStep.writes_renderText {d : Deliveries} {t : Template} {w w' : Work}
    {text : String}
    (hnew : w.progress.session.memo.get? ⟨w.progress.session.templater, w.inst.id, t.id⟩ = none)
    (h : (renderText d t).run w = (.ok (some text), w')) : t.Writes d text := by
  simp only [renderText, run_bind, run_get, run_set] at h
  split at h
  · rename_i answer hanswer
    obtain ⟨hvalue, -⟩ := Prod.mk.inj h
    simp only [Session.renderText, Memo.renderText] at hanswer
    split at hanswer
    · rename_i before hrender
      obtain ⟨changed, value⟩ := before
      -- a kept result would be one of an earlier instance, so the text is that of a call made now
      rcases value with - | result
      · cases hanswer
        cases hvalue
      · obtain ⟨run, earlier, call, hrun, hresult⟩ := Memo.result_of_new hnew hrender
        refine ⟨run, earlier, call, result, ?_⟩
        rcases hcoerce : result.coerce d with kind | coerced <;>
          simp only [Memoized.mapM, hcoerce, Except.map] at hanswer <;> cases hanswer
        cases hvalue
        exact ⟨coerced, hrun, hresult, rfl, rfl⟩
    · cases hanswer
  · cases h

variable {r : Renderer} {d : Deliveries} {theme : Option Theme} {known : TagMap}

/-- The markup of a component that begins now is what its template has written. -/
theorem Occurrence.writes_own {definition : Definition} {tagName : String} {attributes : Props}
    {content : List Node} {p : Progress} {o : Occurrence} {own : List Node}
    {scoping : StyleScoping} {w : Work}
    (begins : o = r.begin d theme definition tagName attributes content p) (hp : p.CacheCreated)
    (h : o.parts = (.ok (some own, scoping), w)) :
    ∃ markup, definition.Writes d markup ∧ own = r.parse markup := by
  obtain ⟨w₁, hmarkup, -⟩ := parts_stages h
  subst begins
  obtain ⟨-, ⟨⟩, -⟩ | ⟨t, text, hhtml, htext, ⟨-, hown⟩ | ⟨-, ⟨⟩⟩⟩ :=
    Renderer.ownMarkup_cases hmarkup
  obtain ⟨markup, rfl, rfl⟩ := Option.map_eq_some_iff.mp hown.symm
  -- the identity of the new instance is larger than all that the cache has keys for
  have hnew : p.session.memo.get? ⟨p.session.templater, p.journal.instances, t.id⟩ = none :=
    Memo.get?_of_forall_lt hp
  exact ⟨markup, ⟨t, hhtml, InstanceStep.writes_renderText (by exact hnew) htext⟩, rfl⟩

/-- The open elements of what a component expands stand for components that it nests. -/
theorem Occurrence.nests_of_open {definition : Definition} {tagName : String} {attributes : Props}
    {content : List Node} {p : Progress} {o : Occurrence} {own : List Node}
    {scoping : StyleScoping} {w : Work}
    (begins : o = r.begin d theme definition tagName attributes content p) (hp : p.CacheCreated)
    (h : o.parts = (.ok (some own, scoping), w)) (hcontent : ∀ n ∈ content, n.Finished known)
    (tags : TagMap) {t : Tag} (ht : t ∈ Node.openTagsForest (o.distribute own scoping tags).nodes)
    {nested : Definition} (hnested : known.get? t.name = some nested) :
    r.Nests d known nested definition := by
  obtain ⟨markup, hwrites, rfl⟩ := writes_own begins hp h
  rcases Distribution.openTags_nodes _ _ t ht with ht | ht
  · -- the classes have not changed its name
    have hname := List.mem_map_of_mem (f := Tag.name) (Node.openTagsForest_subset _ ht)
    rw [map_tags_scopeMarkup fun t => t.name_withClasses _] at hname
    obtain ⟨tag, htag, hname⟩ := List.mem_map.mp hname
    exact ⟨markup, hwrites, tag, htag, by rw [hname]; exact hnested⟩
  · have hslotted : o.content = content := by rw [begins]; rfl
    rw [hslotted, Node.openTagsForest_eq_flatMap, List.mem_flatMap] at ht
    obtain ⟨n, hn, ht⟩ := ht
    have hfinished := hcontent n hn t ht
    rw [Fields.contains, hnested] at hfinished
    cases hfinished

/-! ## Enough room -/

/-- The steps do the same in this state, and there is room for it. -/
def SameRun {α : Type} (p : Progress) (x y : Expansion α) : Prop :=
  y.run p = x.run p ∧ (x.run p).1 ≠ .error .outOfRoom

/-- The expanders do the same with definitions that fit and content that is finished. -/
def Expander.SameFor (known : TagMap) (fits : Definition → Prop) (expand expand' : Expander) :
    Prop :=
  ∀ definition, fits definition → ∀ tagName attributes content p,
    (∀ n ∈ content, n.Finished known) → p.session.tagMap = known → p.CacheCreated →
      SameRun p (expand definition tagName attributes content)
        (expand' definition tagName attributes content)

theorem Faithful.cacheCreated_expandForest {expand : Expander} (h : Faithful r d theme expand)
    {nodes : List Node} {p p' : Progress} {result : Except Stop (List Node)}
    (hrun : (expandForest expand nodes).run p = (result, p')) (hp : p.CacheCreated) :
    p'.CacheCreated := by
  obtain ⟨os, hx⟩ := follows_expandForest h nodes p
  rw [hrun] at hx
  exact (hx.keepsCache hp).cacheCreated hp

theorem Faithful.cacheCreated_expandNode {expand : Expander} (h : Faithful r d theme expand)
    {n : Node} {p p' : Progress} {result : Except Stop Node}
    (hrun : (expandNode expand n).run p = (result, p')) (hp : p.CacheCreated) :
    p'.CacheCreated := by
  obtain ⟨os, hx⟩ := follows_expandNode h n p
  rw [run_map, hrun] at hx
  exact (hx.keepsCache hp).cacheCreated hp

section SameRun

variable {fits : Definition → Prop} {expand expand' : Expander}

theorem sameRun_of_finished {n : Node} {p : Progress} (h : n.Finished p.session.tagMap) :
    SameRun p (expandNode expand n) (expandNode expand' n) := by
  unfold SameRun
  rw [run_expandNode_finished expand n h, run_expandNode_finished expand' n h]
  exact ⟨rfl, by simp⟩

mutual

theorem sameRun_expandNode (hf : Faithful r d theme expand)
    (hs : expand.SameFor known fits expand') : (n : Node) → ∀ {p : Progress},
      p.session.tagMap = known → p.CacheCreated →
      (∀ t ∈ n.openTags, ∀ nested, known.get? t.name = some nested → fits nested) →
      SameRun p (expandNode expand n) (expandNode expand' n)
  | .text _, _, _, _, _ => sameRun_of_finished (by simp [Node.Finished, Node.openTags])
  | .style _ _, _, _, _, _ => sameRun_of_finished (by simp [Node.Finished, Node.openTags])
  | .styleText _, _, _, _, _ => sameRun_of_finished (by simp [Node.Finished, Node.openTags])
  | .element tag children, p, hknown, hp, hn => by
      rcases hexpanded : tag.expanded with - | -
      · rw [Node.openTags, hexpanded, if_neg Bool.false_ne_true, List.forall_mem_cons] at hn
        -- the children come out the same, and what they became is what the nested component gets
        obtain ⟨hsame, hroom⟩ := sameRun_expandForest hf hs children hknown hp hn.2
        unfold SameRun
        rw [run_expandNode_element expand hexpanded, run_expandNode_element expand' hexpanded,
          hsame, Session.lookup, hknown]
        rcases hrun : (expandForest expand children).run p with ⟨stop | content, p'⟩ <;>
          rw [hrun] at hroom
        · exact ⟨rfl, by simpa using hroom⟩
        · obtain ⟨hsame', hfinished⟩ := hf.run_expandForest hrun
          have hknown' : p'.session.tagMap = known := hsame'.trans hknown
          rw [hknown'] at hfinished
          rcases hlookup : known.get? tag.name with - | nested
          · exact ⟨rfl, by simp⟩
          · exact hs nested (hn.1 nested hlookup) tag.name _ content p' (hfinished content rfl)
              hknown' (hf.cacheCreated_expandForest hrun hp)
      · exact sameRun_of_finished (Node.finished_of_expanded hexpanded)

theorem sameRun_expandForest (hf : Faithful r d theme expand)
    (hs : expand.SameFor known fits expand') : (nodes : List Node) → ∀ {p : Progress},
      p.session.tagMap = known → p.CacheCreated →
      (∀ t ∈ Node.openTagsForest nodes, ∀ nested, known.get? t.name = some nested → fits nested) →
      SameRun p (expandForest expand nodes) (expandForest expand' nodes)
  | [], _, _, _, _ => ⟨rfl, by simp [expandForest, run_pure]⟩
  | n :: rest, p, hknown, hp, hnodes => by
      rw [Node.openTagsForest, List.forall_mem_append] at hnodes
      obtain ⟨hsame, hroom⟩ := sameRun_expandNode hf hs n hknown hp hnodes.1
      unfold SameRun
      rw [expandForest, expandForest, run_bind, run_bind, hsame]
      rcases hrun : (expandNode expand n).run p with ⟨stop | m, p₁⟩ <;> rw [hrun] at hroom
      · exact ⟨rfl, by simpa using hroom⟩
      · have hknown₁ := (hf.tagMap_expandNode hrun).trans hknown
        have hp₁ := hf.cacheCreated_expandNode hrun hp
        obtain ⟨hsame', hroom'⟩ := sameRun_expandForest hf hs rest hknown₁ hp₁ hnodes.2
        dsimp only
        rw [run_bind, run_bind, hsame']
        rcases hrun' : (expandForest expand rest).run p₁ with ⟨stop | ms, p₂⟩ <;>
          rw [hrun'] at hroom'
        · exact ⟨rfl, by simpa using hroom'⟩
        · exact ⟨rfl, by simp [run_pure]⟩

end

end SameRun

/-- The step does not run out of room. -/
def InstanceStep.HasRoom {α : Type} (step : InstanceStep α) : Prop :=
  ∀ w : Work, (step.run w).1 ≠ .error .outOfRoom

/-- Only nested components take room. -/
theorem closed_hasRoom (d : Deliveries) (definition : Definition) :
    InstanceStep.Closed d d definition fun step _ => step.HasRoom where
  pure := fun _ _ => by simp [run_pure]
  throw := fun _ _ h => by cases h
  bind := by
    intro _ _ x _ f _ hx hf w
    have hw := hx w
    rw [run_bind]
    rcases hrun : x.run w with ⟨stop | a, v⟩ <;> rw [hrun] at hw
    · simpa using hw
    · exact hf a v
  text := by
    intro t _ w
    simp only [TextSource.cached_text, InstanceStep.renderText, run_bind, run_get, run_set]
    split
    · simp [run_pure]
    · intro h
      cases h
  scopeId := by
    intro classPrefix scope done w
    simp only [scopeId, run_bind, run_get]
    split <;> intro h <;> cases h
  isGlobalEmitted := fun _ h => by cases h
  markGlobalEmitted := fun _ h => by cases h

/-- If all that a component nests is expanded in the same way, so is the component. -/
theorem sameFor_expand_succ {fits : Definition → Prop} {depth depth' : Nat}
    (h : (r.expand d theme depth).SameFor known fits (r.expand d theme depth')) :
    (r.expand d theme (depth + 1)).SameFor known
      (fun outer => ∀ inner, r.Nests d known inner outer → fits inner)
      (r.expand d theme (depth' + 1)) := by
  intro definition hnested tagName attributes content p hcontent hknown hp
  unfold SameRun
  rw [run_expand_succ, run_expand_succ]
  dsimp only
  generalize ho : r.begin d theme definition tagName attributes content p = o
  -- to render the parts takes no room; only the nested components in the markup do
  have hstops : o.parts.1 ≠ .error .outOfRoom :=
    (closed_hasRoom o.deliveries o.definition).ownParts o.renderer o.start
  rw [run_expandInstance, run_expandInstance]
  rcases hparts : o.parts with ⟨stop | ⟨own | own, scoping⟩, w⟩ <;> rw [hparts] at hstops
  · exact ⟨rfl, by simpa using hstops⟩
  · exact ⟨rfl, by simp⟩
  · have hknown' : w.progress.session.tagMap = known := by
      have hsame := Occurrence.tagMap_parts ho.symm
      rw [hparts] at hsame
      exact hsame.trans hknown
    have hp' : w.progress.CacheCreated := by
      have hcreated := cacheCreated_parts ho.symm hp
      rw [hparts] at hcreated
      exact hcreated
    -- what is still open in the filled markup is nested in this component
    obtain ⟨hsame, hroom⟩ := sameRun_expandForest (follows_expand depth) h
      (o.distribute own scoping w.progress.session.tagMap).nodes hknown' hp'
      fun t ht nested hlookup => hnested nested
        (Occurrence.nests_of_open ho.symm hp hparts hcontent _ ht hlookup)
    dsimp only
    rw [hsame]
    refine ⟨rfl, ?_⟩
    rcases hrun : (expandForest (r.expand d theme depth)
      (o.distribute own scoping w.progress.session.tagMap).nodes).run w.progress
      with ⟨stop | body, p'⟩ <;> rw [hrun] at hroom
    · simpa [Except.map] using hroom
    · simp [Except.map]

/-- With room for all ways down from a component, there is room for it, and more changes nothing. -/
theorem sameFor_expand (n : Nat) {depth depth' : Nat} (hdepth : n ≤ depth) (hdepth' : n ≤ depth') :
    (r.expand d theme depth).SameFor known (Within (r.Nests d known) n)
      (r.expand d theme depth') := by
  induction n generalizing depth depth' with
  | zero =>
      intro definition h
      cases h
  | succ n ih =>
      obtain ⟨depth, rfl⟩ := Nat.exists_eq_add_of_le' hdepth
      obtain ⟨depth', rfl⟩ := Nat.exists_eq_add_of_le' hdepth'
      exact sameFor_expand_succ (ih (Nat.le_add_left n depth) (Nat.le_add_left n depth'))

/-! ## Calls -/

/-- Nesting among the definitions that a call may expand. -/
def Progress.Nests (p : Progress) (r : Renderer) (c : Catalog) (d : Deliveries)
    (definition inner outer : Definition) : Prop :=
  p.MayExpand c definition inner ∧ p.MayExpand c definition outer ∧
    r.Nests d (c.register definition p.session.tagMap) inner outer

/-- No way down is longer than there are names, if none is endless. -/
theorem Progress.within_of_wellFounded {p : Progress} {c : Catalog} {definition : Definition}
    (hwf : WellFounded (p.Nests r c d definition)) :
    Within (r.Nests d (c.register definition p.session.tagMap))
      ((c.register definition p.session.tagMap).size + 1) definition := by
  have hknown : ∀ inner outer, p.Nests r c d definition inner outer →
      inner ∈ (c.register definition p.session.tagMap).values := by
    rintro inner outer ⟨-, -, markup, -, tag, -, hinner⟩
    exact Fields.mem_values_of_get? hinner
  have hbelow : ∀ inner, TransGen (p.Nests r c d definition) inner definition →
      inner ∈ (c.register definition p.session.tagMap).values := by
    intro inner h
    obtain ⟨outer, hstep, -⟩ := TransGen.head'_iff.mp h
    exact hknown inner outer hstep
  have hwithin := CustomElements.within_of_wellFounded hwf
    (l := (c.register definition p.session.tagMap).values) (Nat.le_of_eq (List.length_map _)) hbelow
  refine hwithin.of_rel (S := p.MayExpand c definition) ?_ (.inl rfl)
  -- what an element stands for is known, so it may be expanded
  intro outer inner houter hnests
  have hinner : p.MayExpand c definition inner := by
    obtain ⟨markup, -, tag, -, hget⟩ := hnests
    exact .inr ⟨tag.name, hget⟩
  exact ⟨hinner, hinner, houter, hnests⟩

namespace Renderer

/--
**Expansion comes to an end wherever nesting does.** If there is no endless way down among the
definitions that a call may expand, then one more level of room than there are known names is enough
for a tree or an error, whatever the attributes and the theme are, and with more room than that the
call does the same.
-/
theorem elementToTag_room (r : Renderer) (c : Catalog) (d : Deliveries) (definition : Definition)
    {p : Progress} (hp : p.Reachable) (hwf : WellFounded (p.Nests r c d definition))
    (attributes : Props) (theme : Option Theme) :
    let room := (c.register definition p.session.tagMap).size + 1
    let answer := r.elementToTag c d room definition attributes theme p
    ((∃ n, answer.1 = .ok n) ∨ ∃ e, answer.1 = .error (.error e)) ∧
      ∀ depth, room ≤ depth →
        r.elementToTag c d depth definition attributes theme p = answer := by
  intro room answer
  have hrun : ∀ depth, room ≤ depth → SameRun (p.register c definition)
      (r.expand d theme room definition
        (definition.resolvedTagName r.options.anonymousTagPrefix) attributes [])
      (r.expand d theme depth definition
        (definition.resolvedTagName r.options.anonymousTagPrefix) attributes []) := by
    intro depth hdepth
    exact sameFor_expand room (Nat.le_refl room) hdepth definition
      (Progress.within_of_wellFounded hwf) _ _ _ _ (by simp) rfl hp.cacheCreated
  constructor
  · obtain ⟨-, hroom⟩ := hrun room (Nat.le_refl room)
    have hanswer : answer = r.elementToTag c d room definition attributes theme p := rfl
    rw [elementToTag_eq] at hanswer
    rcases he : (r.expand d theme room definition
        (definition.resolvedTagName r.options.anonymousTagPrefix) attributes []).run
        (p.register c definition) with ⟨(e | -) | n, q⟩ <;> rw [he] at hroom hanswer
    · exact .inr ⟨e, by rw [hanswer]⟩
    · exact absurd rfl hroom
    · exact .inl ⟨n, by rw [hanswer]⟩
  · intro depth hdepth
    have hanswer : answer = r.elementToTag c d room definition attributes theme p := rfl
    rw [hanswer, elementToTag_eq, elementToTag_eq, (hrun depth hdepth).1]

end Renderer

/-! ## Folders and files -/

namespace Sample

def file : Definition := component 0 "x-file" (.ofString "<i>file</i>") []

def folder : Definition := component 1 "x-folder" (.ofString "<x-file></x-file>") []

/-- Folders and files depend on each other. -/
def archive : Catalog := ⟨[⟨file, some [1]⟩, ⟨folder, some [0]⟩]⟩

/-- What a component with fixed markup nests can be read off its markup. -/
theorem id_lt_of_nests {known : TagMap} {outer : Definition} {id : Nat} {mask : Change}
    {markup : String} (hhtml : outer.html = some (.ofFunction id mask (.ofString markup)))
    (hall : (Node.tagsForest (reader.parse markup)).all (fun tag =>
      (known.get? tag.name).all fun x => x.id < outer.id) = true) {inner : Definition}
    (h : reader.Nests .none known inner outer) : inner.id < outer.id := by
  obtain ⟨_, ⟨t, ht, run, _, _, result, text, hrun, hresult, htext, rfl⟩, tag, htag, hget⟩ := h
  cases hhtml.symm.trans ht
  cases hrun
  cases hresult
  cases htext
  have hmarkup : (CoercedText.ofString markup ++ CoercedText.empty).text = markup :=
    String.append_empty
  have htag' : tag ∈ Node.tagsForest (reader.parse markup) := by
    rw [← hmarkup]
    exact htag
  have hid := List.all_eq_true.mp hall tag htag'
  rw [hget] at hid
  simpa using hid

theorem wellFounded_archive : WellFounded (fresh.Nests reader archive .none folder) := by
  have hvalues : (archive.register folder fresh.session.tagMap).values = [folder, file] := rfl
  have hlt : ∀ outer, fresh.MayExpand archive folder outer → ∀ inner,
      reader.Nests .none (archive.register folder fresh.session.tagMap) inner outer →
        inner.id < outer.id := by
    refine Progress.forall_mayExpand (fun _ => id_lt_of_nests rfl (by decide +kernel)) ?_
    rw [hvalues, List.forall_mem_cons, List.forall_mem_singleton]
    exact ⟨fun _ => id_lt_of_nests rfl (by decide +kernel),
      fun _ => id_lt_of_nests rfl (by decide +kernel)⟩
  refine Subrelation.wf ?_ (InvImage.wf Definition.id Nat.lt_wfRel.wf)
  rintro inner outer ⟨-, houter, hnests⟩
  exact hlt outer houter inner hnests

end Sample

open Sample in
/-- In spite of the circle, room for two names and the folder is enough. -/
theorem elementToTag_room_folder :
    fresh.Reachable ∧ WellFounded (fresh.Nests reader archive .none folder) ∧
      (archive.register folder fresh.session.tagMap).size + 1 = 3 ∧
      ∃ answer, reader.elementToTag archive Deliveries.none 3 folder ∅ none fresh = answer ∧
        answer.1.toOption.map Node.toHtml =
          some "<x-folder><x-file><i>file</i></x-file></x-folder>" ∧
        ((∃ n, answer.1 = .ok n) ∨ ∃ e, answer.1 = .error (.error e)) ∧
        ∀ depth, 3 ≤ depth →
          reader.elementToTag archive Deliveries.none depth folder ∅ none fresh = answer := by
  have hreachable : fresh.Reachable := .fresh 0 .empty
  obtain ⟨hends, hmore⟩ :=
    reader.elementToTag_room archive .none folder hreachable wellFounded_archive ∅ none
  exact ⟨hreachable, wellFounded_archive, rfl, _, rfl, by decide +kernel, hends, hmore⟩

end CustomElements
