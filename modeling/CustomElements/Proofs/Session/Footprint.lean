import CustomElements.Proofs.Expansion.Room
import CustomElements.Proofs.Session.Independence
import CustomElements.Proofs.Session.Indices

/-!
# The footprint of a call

A call reads and writes the counters and the records of the definitions that it expands, and of no
others. It looks up the names in the markup that is rendered in it, and no others. So if two
sessions agree about those definitions and those names, the call does the same on both of them, and
everything else in each session stays as it was (`TreeCall.alikeOn`).

What a call expands is known only when it is made. So the hypotheses speak of the components that
begin in the call on the first session, and go from a step to the steps that it is made of
(`Confined`).
-/

namespace CustomElements

/-! ## Sessions -/

/--
About the definitions in `D` the sessions agree: which indices were drawn, and which shared sheets
were written. About all others the second session is as `t₀` was.
-/
structure Session.AlikeOn (D : Nat → Prop) (t₀ s t : Session) : Prop where
  counter : ∀ id, D id → t.counter id = s.counter id
  emitted : ∀ id, D id → t.isGlobalEmitted id = s.isGlobalEmitted id
  counter_other : ∀ id, ¬D id → t.counter id = t₀.counter id
  emitted_other : ∀ id, ¬D id → t.isGlobalEmitted id = t₀.isGlobalEmitted id

theorem Session.isGlobalEmitted_markGlobalEmitted (s : Session) (definition id : Nat) :
    (s.markGlobalEmitted definition).2.isGlobalEmitted id =
      (id == definition || s.isGlobalEmitted id) := by
  unfold markGlobalEmitted
  split
  · rename_i h
    by_cases hid : id = definition
    · rw [hid, h, Bool.or_true]
    · rw [beq_eq_false_iff_ne.mpr hid, Bool.false_or]
  · exact List.contains_cons

namespace Session.AlikeOn

variable {D : Nat → Prop} {t₀ s t s' t' : Session}

/-- It is a matter of the counters and the records. -/
theorem of_eq (h : AlikeOn D t₀ s t) (hs : s'.counters = s.counters)
    (hs' : s'.emitted = s.emitted) (ht : t'.counters = t.counters) (ht' : t'.emitted = t.emitted) :
    AlikeOn D t₀ s' t' := by
  have hcounter : s'.counter = s.counter ∧ t'.counter = t.counter := by
    unfold Session.counter
    rw [hs, ht]
    exact ⟨rfl, rfl⟩
  have hemitted : s'.isGlobalEmitted = s.isGlobalEmitted ∧
      t'.isGlobalEmitted = t.isGlobalEmitted := by
    unfold Session.isGlobalEmitted
    rw [hs', ht']
    exact ⟨rfl, rfl⟩
  refine ⟨?_, ?_, ?_, ?_⟩
  · rw [hcounter.1, hcounter.2]
    exact h.counter
  · rw [hemitted.1, hemitted.2]
    exact h.emitted
  · rw [hcounter.2]
    exact h.counter_other
  · rw [hemitted.2]
    exact h.emitted_other

theorem nextUniqueIndex (h : AlikeOn D t₀ s t) {definition : Nat} (hD : D definition) :
    AlikeOn D t₀ (s.nextUniqueIndex definition).2 (t.nextUniqueIndex definition).2 where
  counter := by
    intro id hid
    rw [counter_nextUniqueIndex, counter_nextUniqueIndex, h.counter _ hD, h.counter _ hid]
  emitted := h.emitted
  counter_other := by
    intro id hid
    have hne : id ≠ definition := by
      rintro rfl
      exact hid hD
    rw [counter_nextUniqueIndex, if_neg hne, h.counter_other id hid]
  emitted_other := h.emitted_other

theorem markGlobalEmitted (h : AlikeOn D t₀ s t) {definition : Nat} (hD : D definition) :
    AlikeOn D t₀ (s.markGlobalEmitted definition).2 (t.markGlobalEmitted definition).2 where
  counter := by
    intro id hid
    rw [counter_markGlobalEmitted, counter_markGlobalEmitted, h.counter id hid]
  emitted := by
    intro id hid
    rw [isGlobalEmitted_markGlobalEmitted, isGlobalEmitted_markGlobalEmitted, h.emitted id hid]
  counter_other := by
    intro id hid
    rw [counter_markGlobalEmitted, h.counter_other id hid]
  emitted_other := by
    intro id hid
    have hne : id ≠ definition := by
      rintro rfl
      exact hid hD
    rw [isGlobalEmitted_markGlobalEmitted, beq_eq_false_iff_ne.mpr hne, Bool.false_or,
      h.emitted_other id hid]

end Session.AlikeOn

/-! ## Work for corresponding instances -/

/-- The works are for corresponding instances, on sessions that agree about definitions in `D`. -/
structure Work.AlikeOn (D : Nat → Prop) (t₀ : Session) (v w : Work) : Prop where
  session : Session.AlikeOn D t₀ v.progress.session w.progress.session
  inst : w.inst = { v.inst with id := w.inst.id }
  cached : ∀ template, w.cached template = v.cached template

/-- The work with what another session has on record. -/
def Work.withRecord (w : Work) (s : Session) : Work :=
  ⟨{ w.progress with session := { w.progress.session with
      tagMap := s.tagMap, counters := s.counters, emitted := s.emitted } }, w.inst⟩

section Work

variable {D : Nat → Prop} {t₀ : Session}

/-- A request neither looks at the record nor changes it. -/
theorem InstanceStep.run_renderText_withRecord (d : Deliveries) (t : Template) (w : Work)
    (s : Session) :
    (renderText d t).run (w.withRecord s) =
      (((renderText d t).run w).1, ((renderText d t).run w).2.withRecord s) := by
  simp only [renderText, run_bind, run_get, run_set]
  have hanswer : (w.withRecord s).progress.session.renderText (w.withRecord s).progress.journal d t
      .force (w.withRecord s).inst =
      { w.progress.session.renderText w.progress.journal d t .force w.inst with
        session := {
          (w.progress.session.renderText w.progress.journal d t .force w.inst).session with
          tagMap := s.tagMap, counters := s.counters, emitted := s.emitted } } := rfl
  rw [hanswer]
  dsimp only
  split <;> rfl

theorem InstanceStep.record_renderText (d : Deliveries) (t : Template) (w : Work) :
    ((renderText d t).run w).2.progress.session.counters = w.progress.session.counters ∧
      ((renderText d t).run w).2.progress.session.emitted = w.progress.session.emitted := by
  simp only [renderText, run_bind, run_get, run_set]
  split <;> exact ⟨rfl, rfl⟩

theorem lockstepOn_renderText (d : Deliveries) {t : Template} (ht : t.Impersonal) :
    Lockstep (Work.AlikeOn D t₀) Eq (InstanceStep.renderText d t)
      (InstanceStep.renderText d t) := by
  intro v w h
  -- with the record of the first work, the second one corresponds to it
  have hmasked : Work.Alike v.progress.session (w.withRecord v.progress.session).progress.session v
      (w.withRecord v.progress.session) := by
    refine ⟨⟨⟨rfl, fun _ => rfl, fun _ => rfl⟩, [], ?_, ?_⟩, h.inst, h.cached⟩
    · rw [List.append_nil]
    · rw [List.append_nil]
  obtain ⟨hagree, hafter⟩ := staysAlike_renderText d ht v _ hmasked
  rw [InstanceStep.run_renderText_withRecord] at hagree hafter
  obtain ⟨hv, hv'⟩ := InstanceStep.record_renderText d t v
  obtain ⟨hw, hw'⟩ := InstanceStep.record_renderText d t w
  exact ⟨hagree, h.session.of_eq hv hv' hw hw', hafter.inst, hafter.cached⟩

theorem lockstepOn_scopeId (classPrefix : String) {definition : Nat} (hD : D definition)
    (scope : Style.Scope) (done : StyleScoping) :
    Lockstep (Work.AlikeOn D t₀) Eq (scopeId classPrefix definition scope done)
      (scopeId classPrefix definition scope done) := by
  intro v w h
  have htag : w.inst.tagName = v.inst.tagName := by rw [h.inst]
  have hindex := h.session.counter definition hD
  simp only [scopeId, run_bind, run_get, htag]
  split
  · exact ⟨rfl, h⟩
  · exact ⟨rfl, h⟩
  · refine ⟨?_, h.session.nextUniqueIndex hD, h.inst, h.cached⟩
    dsimp only [Session.nextUniqueIndex]
    rw [hindex]
    rfl

theorem lockstepOn_markGlobalEmitted {definition : Nat} (hD : D definition) :
    Lockstep (Work.AlikeOn D t₀) Eq
      (InstanceStep.modifySession fun s => (s.markGlobalEmitted definition).2)
      (InstanceStep.modifySession fun s => (s.markGlobalEmitted definition).2) := by
  intro v w h
  refine ⟨rfl, h.session.markGlobalEmitted hD, h.inst, fun template => ?_⟩
  rw [Work.cached_markGlobalEmitted, Work.cached_markGlobalEmitted, h.cached]

/-- **What an instance does depends on what is on record about its own definition.** -/
theorem closed_lockstepOn (d : Deliveries) {definition : Definition} (h : definition.Impersonal)
    (hD : D definition.id) :
    InstanceStep.Closed d d definition fun x y => Lockstep (Work.AlikeOn D t₀) Eq x y :=
  InstanceStep.closed_lockstep (fun t ht => lockstepOn_renderText d (h t ht))
    (fun _ _ _ => lockstepOn_scopeId _ hD _ _)
    (fun _ _ h => ⟨(h.session.emitted definition.id hD).symm, h⟩)
    (lockstepOn_markGlobalEmitted hD)

end Work

/-! ## Markup -/

section Markup

variable {classes : List String} {isCustom isCustom' : String → Bool}

mutual

/-- Which elements receive classes depends on the names of the open ones. -/
theorem Node.addClasses_congr : (n : Node) →
    (∀ t ∈ n.openTags, isCustom' t.name = isCustom t.name) →
      n.addClasses classes isCustom' = n.addClasses classes isCustom
  | .text _, _ => rfl
  | .style _ _, _ => rfl
  | .styleText _, _ => rfl
  | .element tag children, h => by
      unfold addClasses
      rcases hexpanded : tag.expanded with - | -
      · rw [openTags, hexpanded, if_neg Bool.false_ne_true, List.forall_mem_cons] at h
        rw [h.1, addClassesForest_congr children h.2]
      · rfl

theorem Node.addClassesForest_congr : (nodes : List Node) →
    (∀ t ∈ openTagsForest nodes, isCustom' t.name = isCustom t.name) →
      addClassesForest classes isCustom' nodes = addClassesForest classes isCustom nodes
  | [], _ => rfl
  | n :: rest, h => by
      rw [openTagsForest, List.forall_mem_append] at h
      rw [addClassesForest, addClassesForest, addClasses_congr n h.1,
        addClassesForest_congr rest h.2]

end

theorem scopeMarkup_congr (nodes : List Node)
    (h : ∀ t ∈ Node.openTagsForest nodes, isCustom' t.name = isCustom t.name) :
    scopeMarkup nodes classes isCustom' = scopeMarkup nodes classes isCustom := by
  unfold scopeMarkup
  split
  · rfl
  · exact Node.addClassesForest_congr nodes h

end Markup

/-- The name stands for the same in both. -/
def TagMap.SameAt (known known' : TagMap) (name : String) : Prop :=
  known'.get? name = known.get? name

/-- The open elements have names that stand for the same in both. -/
def OpenSame (known known' : TagMap) (nodes : List Node) : Prop :=
  ∀ t ∈ Node.openTagsForest nodes, known.SameAt known' t.name

/-- The names in the markup of the component. -/
def Occurrence.ownNames (o : Occurrence) : List String :=
  match o.parts.1 with
  | .ok (some own, _) => (Node.tagsForest own).map Tag.name
  | _ => []

/-! ## Calls in progress -/

/-- Corresponding states of calls on sessions that agree about the definitions in `D`. -/
structure Progress.AlikeOn (D : Nat → Prop) (known known' : TagMap) (t₀ : Session)
    (p q : Progress) : Prop where
  session : Session.AlikeOn D t₀ p.session q.session
  tagMap : p.session.tagMap = known
  tagMap' : q.session.tagMap = known'
  created : p.CacheCreated
  created' : q.CacheCreated

/-- The component's definition is in `D`, does not tell instances apart, and writes such names. -/
structure Occurrence.Within (D : Nat → Prop) (known known' : TagMap) (o : Occurrence) : Prop where
  definition : D o.definition.id
  impersonal : o.definition.Impersonal
  names : ∀ name ∈ o.ownNames, known.SameAt known' name

/-- Whatever begins when the step is taken is such a component. -/
def Confined (P : Occurrence → Prop) (r : Renderer) (d : Deliveries) (theme : Option Theme)
    (task : Task) (step : Expansion (List Node)) (p : Progress) : Prop :=
  ∀ os, Expands r d theme task p (step.run p).1 (step.run p).2 os → ∀ o ∈ os, P o

namespace Confined

variable {P : Occurrence → Prop} {r : Renderer} {d : Deliveries} {theme : Option Theme}
  {expand : Expander} {p p' : Progress}

theorem children (hf : Faithful r d theme expand) {tag : Tag} {children : List Node}
    (hexpanded : tag.expanded = false)
    (h : Confined P r d theme (.node (.element tag children))
      (([·]) <$> expandNode expand (.element tag children)) p) :
    Confined P r d theme (.forest children) (expandForest expand children) p := by
  intro os hx
  unfold Confined at h
  rw [run_map, run_expandNode_element expand hexpanded] at h
  rcases hrun : (expandForest expand children).run p with ⟨stop | content, p'⟩ <;>
    rw [hrun] at h hx <;> dsimp only at h hx <;>
    rcases hlookup : p.session.lookup tag.name with - | nested
  · exact h os (.plain hexpanded hlookup hx)
  · exact h os (.contentStops hexpanded hlookup hx)
  · rw [hlookup] at h
    exact h os (.plain hexpanded hlookup hx)
  · rw [hlookup] at h
    obtain ⟨os', hx'⟩ := hf nested tag.name (tag.attributes.map .string) content p'
    rw [run_map] at hx'
    intro o ho
    exact h (os ++ os') (.custom hexpanded hlookup hx hx') o (List.mem_append_left os' ho)

theorem host (hf : Faithful r d theme expand) {tag : Tag} {children content : List Node}
    {nested : Definition} (hexpanded : tag.expanded = false)
    (hlookup : p.session.lookup tag.name = some nested)
    (hrun : (expandForest expand children).run p = (.ok content, p'))
    (h : Confined P r d theme (.node (.element tag children))
      (([·]) <$> expandNode expand (.element tag children)) p) :
    Confined P r d theme (.component nested tag.name (tag.attributes.map .string) content)
      (([·]) <$> expand nested tag.name (tag.attributes.map .string) content) p' := by
  intro os' hx' o ho
  obtain ⟨os, hx⟩ := follows_expandForest hf children p
  rw [hrun] at hx
  unfold Confined at h
  rw [run_map, run_expandNode_element expand hexpanded, hrun, hlookup] at h
  rw [run_map] at hx'
  exact h (os ++ os') (.custom hexpanded hlookup hx hx') o (List.mem_append_right os ho)

theorem first (hf : Faithful r d theme expand) {n : Node} {rest : List Node}
    (h : Confined P r d theme (.forest (n :: rest)) (expandForest expand (n :: rest)) p) :
    Confined P r d theme (.node n) (([·]) <$> expandNode expand n) p := by
  intro os hx o ho
  unfold Confined at h
  rw [expandForest, run_bind] at h
  rw [run_map] at hx
  rcases hrun : (expandNode expand n).run p with ⟨stop | m, p₁⟩ <;> rw [hrun] at h hx
  · exact h os (.firstStops hx) o ho
  · obtain ⟨os', hx'⟩ := follows_expandForest hf rest p₁
    have hall := Expands.cons hx hx'
    dsimp only at h
    rw [run_bind] at h
    refine h (os ++ os') ?_ o (List.mem_append_left os' ho)
    rcases hrest : (expandForest expand rest).run p₁ with ⟨stop | ms, p₂⟩ <;>
      rw [hrest] at hall <;> exact hall

theorem rest (hf : Faithful r d theme expand) {n m : Node} {rest : List Node}
    (hrun : (expandNode expand n).run p = (.ok m, p'))
    (h : Confined P r d theme (.forest (n :: rest)) (expandForest expand (n :: rest)) p) :
    Confined P r d theme (.forest rest) (expandForest expand rest) p' := by
  intro os' hx' o ho
  obtain ⟨os, hx⟩ := follows_expandNode hf n p
  rw [run_map, hrun] at hx
  have hall := Expands.cons hx hx'
  unfold Confined at h
  rw [expandForest, run_bind, hrun] at h
  dsimp only at h
  rw [run_bind] at h
  refine h (os ++ os') ?_ o (List.mem_append_right os ho)
  rcases hrest : (expandForest expand rest).run p' with ⟨stop | ms, p₂⟩ <;>
    rw [hrest] at hall <;> exact hall

theorem component {depth : Nat} {definition : Definition} {tagName : String} {attributes : Props}
    {content : List Node} {o : Occurrence}
    (begins : o = r.begin d theme definition tagName attributes content p)
    (h : Confined P r d theme (.component definition tagName attributes content)
      (([·]) <$> r.expand d theme (depth + 1) definition tagName attributes content) p) :
    P o ∧ ∀ own scoping w, o.parts = (.ok (some own, scoping), w) →
      Confined P r d theme (.forest (o.distribute own scoping w.progress.session.tagMap).nodes)
        (expandForest (r.expand d theme depth)
          (o.distribute own scoping w.progress.session.tagMap).nodes) w.progress := by
  have hcontent : o.content = content := by rw [begins]; rfl
  unfold Confined at h
  rw [run_map, run_expand_succ, ← begins] at h
  dsimp only at h
  rw [run_expandInstance] at h
  rcases hparts : o.parts with ⟨stop | ⟨own | own, scoping⟩, w⟩ <;> rw [hparts] at h
  · refine ⟨?_, fun _ _ _ hok => by cases hok⟩
    exact h [o] (.partsStop begins hparts) o List.mem_cons_self
  · have hx := Expands.passed begins hparts
    refine ⟨?_, fun _ _ _ hok => by cases hok⟩
    exact h [o] (by rw [hcontent]; exact hx) o List.mem_cons_self
  · -- with whatever begins in its body, the component makes up all that begins
    have hall : ∀ os, Expands r d theme
        (.forest (o.distribute own scoping w.progress.session.tagMap).nodes) w.progress
        ((expandForest (r.expand d theme depth)
          (o.distribute own scoping w.progress.session.tagMap).nodes).run w.progress).1
        ((expandForest (r.expand d theme depth)
          (o.distribute own scoping w.progress.session.tagMap).nodes).run w.progress).2 os →
        ∀ o' ∈ o :: os, P o' := by
      intro os hx
      have hfilled := Expands.filled begins hparts hx
      refine h (o :: os) ?_
      dsimp only
      rcases hrun : (expandForest (r.expand d theme depth)
        (o.distribute own scoping w.progress.session.tagMap).nodes).run w.progress
        with ⟨stop | body, p'⟩ <;> rw [hrun] at hfilled <;> exact hfilled
    constructor
    · obtain ⟨os, hx⟩ := follows_expandForest (follows_expand depth)
        (o.distribute own scoping w.progress.session.tagMap).nodes w.progress
      exact hall os hx o List.mem_cons_self
    · rintro own' scoping' w' hok
      cases hok
      intro os hx o' ho'
      exact hall os hx o' (List.mem_cons_of_mem o ho')

end Confined

/-! ## The same on both sessions -/

namespace Progress.AlikeOn

variable {D : Nat → Prop} {known known' : TagMap} {t₀ : Session} {p q : Progress}

/-- The instances that are created next correspond. Nothing is cached for either of them. -/
theorem begin (h : AlikeOn D known known' t₀ p q) (r : Renderer) (d : Deliveries)
    (theme : Option Theme) (definition : Definition) (tagName : String) (attributes : Props)
    (content : List Node) :
    Work.AlikeOn D t₀ (r.begin d theme definition tagName attributes content p).start
      (r.begin d theme definition tagName attributes content q).start where
  session := h.session
  inst := rfl
  cached := by
    intro template
    have hp : p.session.memo.get? ⟨p.session.templater, p.journal.instances, template⟩ = none :=
      Memo.get?_of_forall_lt h.created
    have hq : q.session.memo.get? ⟨q.session.templater, q.journal.instances, template⟩ = none :=
      Memo.get?_of_forall_lt h.created'
    exact hq.trans hp.symm

theorem endInstance (h : AlikeOn D known known' t₀ p q) (id id' : Nat) :
    AlikeOn D known known' t₀ (p.endInstance id) (q.endInstance id') where
  session := h.session.of_eq rfl rfl rfl rfl
  tagMap := h.tagMap
  tagMap' := h.tagMap'
  created := fun e he => h.created e (Memo.mem_of_mem_releaseComponent he)
  created' := fun e he => h.created' e (Memo.mem_of_mem_releaseComponent he)

/-- The parts of corresponding components are the same. -/
theorem parts (h : AlikeOn D known known' t₀ p q) {r : Renderer} {d : Deliveries}
    {theme : Option Theme} {definition : Definition} {tagName : String} {attributes : Props}
    {content : List Node} {o o' : Occurrence}
    (begins : o = r.begin d theme definition tagName attributes content p)
    (begins' : o' = r.begin d theme definition tagName attributes content q)
    (hD : D definition.id) (himpersonal : definition.Impersonal) :
    o'.parts.1 = o.parts.1 ∧ AlikeOn D known known' t₀ o.parts.2.progress o'.parts.2.progress ∧
      Renderer.host o'.parts.2.inst = Renderer.host o.parts.2.inst := by
  have hstart := h.begin r d theme definition tagName attributes content
  obtain ⟨hparts, hafter⟩ := (closed_lockstepOn d himpersonal hD).ownParts r _ _ hstart
  have htagMap := (Occurrence.tagMap_parts begins).trans h.tagMap
  have htagMap' := (Occurrence.tagMap_parts begins').trans h.tagMap'
  have hcreated := cacheCreated_parts begins h.created
  have hcreated' := cacheCreated_parts begins' h.created'
  subst begins begins'
  refine ⟨(agree_eq_iff.mp hparts).symm, ⟨hafter.session, htagMap, htagMap', hcreated, hcreated'⟩,
    Renderer.host_of_id hafter.inst⟩

end Progress.AlikeOn

/-- From these states the steps agree, and end in related states. -/
def EndsAlike {σ τ α β : Type} (R : σ → τ → Prop) (Q : α → β → Prop)
    (x : ExceptT Stop (StateM σ) α) (y : ExceptT Stop (StateM τ) β) (s : σ) (t : τ) : Prop :=
  Agree Q (x.run s).1 (y.run t).1 ∧ R (x.run s).2 (y.run t).2

section Expansion

variable {D : Nat → Prop} {known known' : TagMap} {t₀ : Session} {r : Renderer} {d : Deliveries}
  {theme : Option Theme}

theorem openSame_element {tag : Tag} (h : tag.expanded = false) {children : List Node} :
    OpenSame known known' [.element tag children] ↔
      known.SameAt known' tag.name ∧ OpenSame known known' children := by
  rw [OpenSame, Node.openTagsForest, Node.openTagsForest, List.append_nil, Node.openTags, h,
    if_neg Bool.false_ne_true, List.forall_mem_cons]
  rfl

theorem openSame_cons {n : Node} {rest : List Node} :
    OpenSame known known' (n :: rest) ↔
      OpenSame known known' [n] ∧ OpenSame known known' rest := by
  simp only [OpenSame, Node.openTagsForest, List.append_nil, List.forall_mem_append]

/-- Components that are confined are expanded to the same node, and nothing in it is open. -/
def Expander.SameOn (D : Nat → Prop) (known known' : TagMap) (t₀ : Session) (r : Renderer)
    (d : Deliveries) (theme : Option Theme) (expand : Expander) : Prop :=
  ∀ definition tagName attributes content p q, OpenSame known known' content →
    Progress.AlikeOn D known known' t₀ p q →
    Confined (Occurrence.Within D known known') r d theme
      (.component definition tagName attributes content)
      (([·]) <$> expand definition tagName attributes content) p →
    EndsAlike (Progress.AlikeOn D known known' t₀) (fun n m => m = n ∧ n.openTags = [])
      (expand definition tagName attributes content)
      (expand definition tagName attributes content) p q

variable {expand : Expander}

mutual

theorem sameOn_expandNode (hf : Faithful r d theme expand)
    (hs : expand.SameOn D known known' t₀ r d theme) : (n : Node) → ∀ {p q : Progress},
      OpenSame known known' [n] → Progress.AlikeOn D known known' t₀ p q →
      Confined (Occurrence.Within D known known') r d theme (.node n)
        (([·]) <$> expandNode expand n) p →
      EndsAlike (Progress.AlikeOn D known known' t₀) (fun n m => m = n ∧ OpenSame known known' [n])
        (expandNode expand n) (expandNode expand n) p q
  | .text _, _, _, hn, h, _ => ⟨⟨rfl, hn⟩, h⟩
  | .style _ _, _, _, hn, h, _ => ⟨⟨rfl, hn⟩, h⟩
  | .styleText _, _, _, hn, h, _ => ⟨⟨rfl, hn⟩, h⟩
  | .element tag children, p, q, hn, h, hconfined => by
      unfold EndsAlike
      rcases hexpanded : tag.expanded with - | -
      · obtain ⟨hname, hchildren⟩ := (openSame_element hexpanded).mp hn
        obtain ⟨hagree, hend⟩ := sameOn_expandForest hf hs children hchildren h
          (hconfined.children hf hexpanded)
        rw [run_expandNode_element expand hexpanded, run_expandNode_element expand hexpanded,
          Session.lookup, Session.lookup, h.tagMap, h.tagMap', hname]
        -- of the four ways for the two runs to end, those where only one succeeds cannot be
        rcases hp : (expandForest expand children).run p with ⟨stop | content, p'⟩ <;>
          rcases hq : (expandForest expand children).run q with ⟨stop' | content', q'⟩ <;>
          rw [hp, hq] at hagree hend
        · exact ⟨hagree, hend⟩
        · exact hagree.elim
        · exact hagree.elim
        · obtain ⟨rfl, hopen⟩ := hagree
          rcases hlookup : known.get? tag.name with - | nested
          · exact ⟨⟨rfl, (openSame_element hexpanded).mpr ⟨hname, hopen⟩⟩, hend⟩
          · have hlookup' : p.session.lookup tag.name = some nested := by
              rw [Session.lookup, h.tagMap, hlookup]
            obtain ⟨hnested, hend'⟩ := hs nested tag.name (tag.attributes.map .string) content'
              p' q' hopen hend (hconfined.host hf hexpanded hlookup' hp)
            refine ⟨hnested.imp ?_, hend'⟩
            rintro n _ ⟨rfl, hclosed⟩
            exact ⟨rfl, by simp [OpenSame, Node.openTagsForest, hclosed]⟩
      · have hkept : (Node.element tag children).Kept := by
          rintro _ _ ⟨⟩
          exact hexpanded
        rw [run_expandNode_kept expand hkept, run_expandNode_kept expand hkept]
        exact ⟨⟨rfl, hn⟩, h⟩

theorem sameOn_expandForest (hf : Faithful r d theme expand)
    (hs : expand.SameOn D known known' t₀ r d theme) : (nodes : List Node) → ∀ {p q : Progress},
      OpenSame known known' nodes → Progress.AlikeOn D known known' t₀ p q →
      Confined (Occurrence.Within D known known') r d theme (.forest nodes)
        (expandForest expand nodes) p →
      EndsAlike (Progress.AlikeOn D known known' t₀)
        (fun ns ms => ms = ns ∧ OpenSame known known' ns)
        (expandForest expand nodes) (expandForest expand nodes) p q
  | [], _, _, hnodes, h, _ => ⟨⟨rfl, hnodes⟩, h⟩
  | n :: rest, p, q, hnodes, h, hconfined => by
      obtain ⟨hn, hrest⟩ := openSame_cons.mp hnodes
      obtain ⟨hagree, hend⟩ := sameOn_expandNode hf hs n hn h (hconfined.first hf)
      unfold EndsAlike
      rw [expandForest, run_bind, run_bind]
      rcases hp : (expandNode expand n).run p with ⟨stop | m, p₁⟩ <;>
        rcases hq : (expandNode expand n).run q with ⟨stop' | m', q₁⟩ <;>
        rw [hp, hq] at hagree hend
      · exact ⟨hagree, hend⟩
      · exact hagree.elim
      · exact hagree.elim
      · obtain ⟨rfl, hopen⟩ := hagree
        obtain ⟨hagree', hend'⟩ := sameOn_expandForest hf hs rest hrest hend
          (hconfined.rest hf hp)
        dsimp only
        rw [run_bind, run_bind]
        rcases hp' : (expandForest expand rest).run p₁ with ⟨stop | ms, p₂⟩ <;>
          rcases hq' : (expandForest expand rest).run q₁ with ⟨stop' | ms', q₂⟩ <;>
          rw [hp', hq'] at hagree' hend'
        · exact ⟨hagree', hend'⟩
        · exact hagree'.elim
        · exact hagree'.elim
        · obtain ⟨rfl, hopen'⟩ := hagree'
          exact ⟨⟨rfl, openSame_cons.mpr ⟨hopen, hopen'⟩⟩, hend'⟩

end

/-- The names of the component's markup stand for the same, so it is filled in the same way. -/
theorem Occurrence.Within.distribute {o o' : Occurrence} {own : List Node}
    {scoping : StyleScoping} {w : Work} (h : o.Within D known known')
    (hparts : o.parts = (.ok (some own, scoping), w)) (hcontent : o'.content = o.content)
    (hopen : OpenSame known known' o.content) :
    (o'.distribute own scoping known').nodes = (o.distribute own scoping known).nodes ∧
      OpenSame known known' (o.distribute own scoping known).nodes := by
  have hown : ∀ t ∈ Node.tagsForest own, known.SameAt known' t.name := by
    intro t ht
    refine h.names t.name ?_
    rw [ownNames, hparts]
    exact List.mem_map_of_mem ht
  have hmarkup : scopeMarkup own scoping.classes known'.contains =
      scopeMarkup own scoping.classes known.contains := by
    refine scopeMarkup_congr own fun t ht => ?_
    have hname : known'.get? t.name = known.get? t.name := hown t (Node.openTagsForest_subset _ ht)
    rw [Fields.contains, Fields.contains, hname]
  constructor
  · rw [Occurrence.distribute, Occurrence.distribute, hmarkup, hcontent]
  · intro t ht
    rcases Distribution.openTags_nodes _ _ t ht with ht | ht
    · -- the classes have not changed its name
      have hname := List.mem_map_of_mem (f := Tag.name) (Node.openTagsForest_subset _ ht)
      rw [map_tags_scopeMarkup fun t => t.name_withClasses _] at hname
      obtain ⟨tag, htag, hname⟩ := List.mem_map.mp hname
      rw [← hname]
      exact hown tag htag
    · exact hopen t ht

/-- **Confined components are expanded to the same**, with any room. -/
theorem sameOn_expand (depth : Nat) :
    (r.expand d theme depth).SameOn D known known' t₀ r d theme := by
  -- on the room: what is nested is expanded with one less, and the host is made around the outcome
  induction depth with
  | zero => exact fun _ _ _ _ _ _ _ h _ => ⟨rfl, h⟩
  | succ depth ih =>
      intro definition tagName attributes content p q hcontent h hconfined
      unfold EndsAlike
      rw [run_expand_succ, run_expand_succ]
      dsimp only
      generalize ho : r.begin d theme definition tagName attributes content p = o
      generalize ho' : r.begin d theme definition tagName attributes content q = o'
      obtain ⟨hwithin, hbody⟩ := hconfined.component ho.symm
      have hdefinition : o.definition = definition := by rw [← ho]; rfl
      have hslotted : o.content = content := by rw [← ho]; rfl
      have hslotted' : o'.content = o.content := by rw [← ho, ← ho']; rfl
      have hwritten : ∀ scoping, o'.written scoping = o.written scoping := by
        intro scoping
        rw [← ho, ← ho']
        rfl
      obtain ⟨hsame, hend, hhost⟩ := h.parts ho.symm ho'.symm (hdefinition ▸ hwithin.definition)
        (hdefinition ▸ hwithin.impersonal)
      rw [run_expandInstance, run_expandInstance]
      rcases hp : o.parts with ⟨result, w⟩
      rcases hq : o'.parts with ⟨result', w'⟩
      rw [hp, hq] at hsame hend hhost
      obtain rfl : result' = result := hsame
      rcases result' with stop | ⟨own | own, scoping⟩
      · exact ⟨rfl, hend.endInstance _ _⟩
      · refine ⟨⟨?_, rfl⟩, hend.endInstance _ _⟩
        rw [hhost, hwritten, hslotted']
      · obtain ⟨hnodes, hopen⟩ := hwithin.distribute hp hslotted' (hslotted ▸ hcontent)
        have hinside := hbody own scoping w hp
        have htagMap : w.progress.session.tagMap = known := hend.tagMap
        have htagMap' : w'.progress.session.tagMap = known' := hend.tagMap'
        dsimp only
        rw [htagMap] at hinside ⊢
        rw [htagMap', hnodes]
        obtain ⟨hagree, hend'⟩ := sameOn_expandForest (follows_expand depth) ih _ hopen hend hinside
        refine ⟨hagree.map ?_, hend'.endInstance _ _⟩
        rintro body _ ⟨rfl, -⟩
        dsimp only at hhost
        rw [hhost, hwritten]
        exact ⟨rfl, rfl⟩

end Expansion

/-! ## Calls -/

namespace TreeCall

/-- The component is one of those that begin in the call, made on this session. -/
def Expanded (k : TreeCall) (p : Progress) (o : Occurrence) : Prop :=
  ∃ os, Begun p [k] os ∧ o ∈ os

/-- Since its last call on the session, no instance has been uncreated. -/
def Later (k : TreeCall) : Prop := ∀ j : Journal, j.instances ≤ (k.meanwhile j).instances

theorem confined {k : TreeCall} {p : Progress} {P : Occurrence → Prop}
    (h : ∀ o, k.Expanded p o → P o) :
    Confined P k.renderer k.deliveries k.theme k.task
      (([·]) <$> k.renderer.expand k.deliveries k.theme k.depth k.definition
        (k.definition.resolvedTagName k.renderer.options.anonymousTagPrefix) k.attributes [])
      (k.registered p) := by
  intro os hx o ho
  refine h o ⟨os ++ [], .cons hx ?_ ?_ .nil, List.mem_append_left [] ho⟩
  all_goals
    rw [run_map, answer, Renderer.elementToTag_eq]
    rw [registered]
    rcases (k.renderer.expand k.deliveries k.theme k.depth k.definition
      (k.definition.resolvedTagName k.renderer.options.anonymousTagPrefix) k.attributes []).run
      ((k.found p).register k.catalog k.definition) with ⟨stop | n, q⟩ <;> rfl

theorem cacheCreated_found {k : TreeCall} (hk : k.Later) {p : Progress} (hp : p.CacheCreated) :
    (k.found p).CacheCreated :=
  fun e he => Nat.lt_of_lt_of_le (hp e he) (hk p.journal)

theorem keepsCache_answer {k : TreeCall} (hk : k.Later) {p : Progress} (hp : p.CacheCreated) :
    (k.answer p).2.session.memo = p.session.memo ∧ (k.answer p).2.CacheCreated := by
  have hkeeps := k.renderer.keepsCache_elementToTag k.catalog k.deliveries k.depth k.definition
    k.attributes k.theme (cacheCreated_found hk hp)
  exact ⟨hkeeps.memo, hkeeps.cacheCreated (cacheCreated_found hk hp)⟩

/--
**A call touches what it expands.** If a second session agrees with the first one about the
definitions that the call expands on the first, and about the names in the markup that is rendered,
then the call does the same on both. About other definitions the second session stays as it was.
-/
theorem alikeOn {k : TreeCall} (hk : k.Later) {D : Nat → Prop} {t₀ : Session} {p q : Progress}
    (hp : p.CacheCreated) (hq : q.CacheCreated) (h : Session.AlikeOn D t₀ p.session q.session)
    (hwithin : ∀ o, k.Expanded p o → o.Within D
      (k.catalog.register k.definition p.session.tagMap)
      (k.catalog.register k.definition q.session.tagMap)) :
    (k.answer q).1 = (k.answer p).1 ∧
      Session.AlikeOn D t₀ (k.answer p).2.session (k.answer q).2.session := by
  have hstart : Progress.AlikeOn D (k.catalog.register k.definition p.session.tagMap)
      (k.catalog.register k.definition q.session.tagMap) t₀ (k.registered p) (k.registered q) :=
    ⟨h.of_eq rfl rfl rfl rfl, rfl, rfl, cacheCreated_found hk hp, cacheCreated_found hk hq⟩
  obtain ⟨hagree, hend⟩ := sameOn_expand k.depth k.definition
    (k.definition.resolvedTagName k.renderer.options.anonymousTagPrefix) k.attributes []
    (k.registered p) (k.registered q) (by simp [OpenSame, Node.openTagsForest]) hstart
    (confined hwithin)
  rw [answer, answer, Renderer.elementToTag_eq, Renderer.elementToTag_eq]
  dsimp only [registered] at hagree hend
  rcases ha : (k.renderer.expand k.deliveries k.theme k.depth k.definition
    (k.definition.resolvedTagName k.renderer.options.anonymousTagPrefix) k.attributes []).run
    ((k.found p).register k.catalog k.definition) with ⟨stop | n, p'⟩ <;>
    rcases hb : (k.renderer.expand k.deliveries k.theme k.depth k.definition
      (k.definition.resolvedTagName k.renderer.options.anonymousTagPrefix) k.attributes []).run
      ((k.found q).register k.catalog k.definition) with ⟨stop' | m, q'⟩ <;>
    rw [ha, hb] at hagree hend
  · -- both go back to records that agreed, and keep the indices they have drawn
    refine ⟨congrArg Except.error (Eq.symm hagree), ?_⟩
    exact ⟨hend.session.counter, h.emitted, hend.session.counter_other, h.emitted_other⟩
  · exact hagree.elim
  · exact hagree.elim
  · exact ⟨congrArg Except.ok hagree.1, hend.session⟩

end TreeCall

end CustomElements
