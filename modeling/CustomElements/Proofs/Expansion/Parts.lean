import CustomElements.Proofs.Expansion.Relation

/-!
# What rendering for one instance may change

Rendering an instance's markup and stylesheets goes through the session: it fills the cache, reports
pending texts, draws an index and records shared sheets. `Work.Grows` bounds all of that from above.
The known tag names and the namespace stay; pending texts are added at the end; no counter falls; no
record of a shared sheet is lost; and in the cache only results of this very instance come and go.

The bound holds of a step whether or not it fails, so it also bounds what a failure leaves behind.

Rendering is put together from few single steps. More than one property of it is that of each of
them, and so is the relation to rendering with texts from another source. `InstanceStep.Closed` says
what has to be shown of the single steps.
-/

namespace CustomElements

/-! ## Sessions that have grown -/

/-- A later state of a session in the middle of a call, its cache apart. -/
structure Session.Grows (s t : Session) : Prop where
  tagMap : t.tagMap = s.tagMap
  templater : t.templater = s.templater
  /-- Pending texts are added at the end. -/
  pending : s.pending <+: t.pending
  counter : ∀ id, s.counter id ≤ t.counter id
  /-- Records of shared sheets are added at the front. -/
  emitted : s.emitted <:+ t.emitted

namespace Session.Grows

theorem refl (s : Session) : s.Grows s :=
  ⟨rfl, rfl, List.prefix_refl _, fun _ => Nat.le_refl _, List.suffix_refl _⟩

theorem trans {s t u : Session} (h : s.Grows t) (h' : t.Grows u) : s.Grows u where
  tagMap := h'.tagMap.trans h.tagMap
  templater := h'.templater.trans h.templater
  pending := h.pending.trans h'.pending
  counter := fun id => Nat.le_trans (h.counter id) (h'.counter id)
  emitted := h.emitted.trans h'.emitted

end Session.Grows

/-! ## The counters and the records -/

theorem Session.counter_nextUniqueIndex (s : Session) (definition id : Nat) :
    (s.nextUniqueIndex definition).2.counter id =
      if id = definition then s.counter definition + 1 else s.counter id := by
  by_cases h : id = definition
  · subst h
    simp [nextUniqueIndex, counter]
  · have hne : (definition == id) = false := beq_eq_false_iff_ne.mpr fun e => h e.symm
    simp only [nextUniqueIndex, counter, List.find?_cons, hne, if_neg h, List.find?_filter]
    congr 3
    funext e
    by_cases he : e.1 = id <;> simp [he, h]

theorem Session.grows_nextUniqueIndex (s : Session) (definition : Nat) :
    s.Grows (s.nextUniqueIndex definition).2 where
  tagMap := rfl
  templater := rfl
  pending := List.prefix_refl _
  counter := by
    intro id
    rw [counter_nextUniqueIndex]
    split
    · rename_i h
      subst h
      omega
    · exact Nat.le_refl _
  emitted := List.suffix_refl _

/-- To put shared sheets on record changes the record only. -/
theorem Session.markGlobalEmitted_frame (s : Session) (definition : Nat) :
    (s.markGlobalEmitted definition).2 =
      { s with emitted := (s.markGlobalEmitted definition).2.emitted } := by
  unfold markGlobalEmitted
  split <;> rfl

theorem Session.grows_markGlobalEmitted (s : Session) (definition : Nat) :
    s.Grows (s.markGlobalEmitted definition).2 := by
  unfold markGlobalEmitted
  split
  · exact .refl s
  · exact ⟨rfl, rfl, List.prefix_refl _, fun _ => Nat.le_refl _, List.suffix_cons _ _⟩

/-! ## Work for one instance -/

/-- A later state of the work for an instance. -/
structure Work.Grows (w v : Work) : Prop where
  session : w.progress.session.Grows v.progress.session
  /-- Apart from the results of the instance the cache is the same. -/
  cache : (v.progress.session.memo.releaseComponent w.inst.id).2 =
    (w.progress.session.memo.releaseComponent w.inst.id).2
  instances : v.progress.journal.instances = w.progress.journal.instances
  /-- Of the instance only its own attributes change. -/
  inst : v.inst = { w.inst with ownAttributes := v.inst.ownAttributes }

namespace Work.Grows

theorem refl (w : Work) : w.Grows w := ⟨.refl _, rfl, rfl, rfl⟩

theorem id_eq {w v : Work} (h : w.Grows v) : v.inst.id = w.inst.id := by rw [h.inst]

theorem tagName_eq {w v : Work} (h : w.Grows v) : v.inst.tagName = w.inst.tagName := by rw [h.inst]

theorem trans {w v u : Work} (h : w.Grows v) (h' : v.Grows u) : w.Grows u where
  session := h.session.trans h'.session
  cache := by
    have hc := h'.cache
    rw [h.id_eq] at hc
    exact hc.trans h.cache
  instances := h'.instances.trans h.instances
  inst := by rw [h'.inst, h.inst]

end Work.Grows

/-! ## The cache -/

theorem Memo.releaseComponent_insert (m : Memo) (key : CacheKey) (r : RenderResult) :
    ((m.insert key r).releaseComponent key.component).2 =
      (m.releaseComponent key.component).2 := by
  simp only [insert, releaseComponent, releaseWhere, List.filter_cons, beq_self_eq_true,
    Bool.not_true, Bool.false_eq_true, if_false, List.filter_filter, Memo.mk.injEq]
  refine List.filter_congr fun e _ => ?_
  by_cases he : e.1 = key <;> simp [he]

/-- A request changes no result but that of its own key, and of the instance only its attributes. -/
theorem Memo.render_frame (m : Memo) (j : Journal) (t : Template) (reason : Change)
    (inst : Instance) (templater : Nat) :
    let r := m.render j t reason inst templater
    (r.memo.releaseComponent inst.id).2 = (m.releaseComponent inst.id).2 ∧
      r.journal.instances = j.instances ∧
      r.inst = { inst with ownAttributes := r.inst.ownAttributes } := by
  unfold render
  split
  · exact ⟨rfl, rfl, rfl⟩
  · dsimp only
    split
    · exact ⟨rfl, rfl, rfl⟩
    · split
      -- the only entry that is written goes by a key of the instance
      · exact ⟨releaseComponent_insert m ⟨templater, inst.id, t.id⟩ _, rfl, rfl⟩
      · exact ⟨rfl, rfl, rfl⟩

/-! ## Rendering step by step -/

/-- Tells whether the shared sheets of a definition were written. -/
def InstanceStep.isGlobalEmitted (definition : Nat) : InstanceStep Bool := do
  return (← get).progress.session.isGlobalEmitted definition

theorem scopeStyles_eq (src : TextSource) (classPrefix : String) (definition : Definition) :
    scopeStyles src classPrefix definition = (do
      let emitted ← InstanceStep.isGlobalEmitted definition.id
      let done ← scopeSheets src classPrefix definition.id (!emitted) definition.css .none
      if !emitted ∧ done.globalId.isSome then
        InstanceStep.modifySession fun s => (s.markGlobalEmitted definition.id).2
      return done) := rfl

/-- The template is one of the definition's. -/
def Definition.HasTemplate (definition : Definition) (t : Template) : Prop :=
  definition.html = some t ∨ t ∈ definition.css

namespace InstanceStep

/--
A relation between steps that holds of the single steps of rendering an instance, with texts from
the one source and from the other, and that is kept when steps are put together. Then it holds of
rendering as a whole. A property of steps is a relation that looks at the first step only.
-/
structure Closed (src src' : TextSource) (definition : Definition)
    (P : {α : Type} → InstanceStep α → InstanceStep α → Prop) : Prop where
  pure : ∀ {α : Type} (a : α), P (Pure.pure a : InstanceStep α) (Pure.pure a)
  throw : ∀ {α : Type} (e : RenderError),
    P (MonadExcept.throw (.error e) : InstanceStep α) (MonadExcept.throw (.error e))
  bind : ∀ {α β : Type} {x y : InstanceStep α} {f g : α → InstanceStep β},
    P x y → (∀ a, P (f a) (g a)) → P (x >>= f) (y >>= g)
  text : ∀ t, definition.HasTemplate t → P (src.text t) (src'.text t)
  scopeId : ∀ classPrefix scope done, P (scopeId classPrefix definition.id scope done)
    (CustomElements.scopeId classPrefix definition.id scope done)
  isGlobalEmitted : P (InstanceStep.isGlobalEmitted definition.id)
    (InstanceStep.isGlobalEmitted definition.id)
  markGlobalEmitted : P (modifySession fun s => (s.markGlobalEmitted definition.id).2)
    (modifySession fun s => (s.markGlobalEmitted definition.id).2)

namespace Closed

variable {src src' : TextSource} {definition : Definition}
  {P : {α : Type} → InstanceStep α → InstanceStep α → Prop}

theorem scopeSheet (h : Closed src src' definition P) (classPrefix : String) (emitGlobal : Bool)
    {t : Template} (ht : t ∈ definition.css) (done : StyleScoping) :
    P (CustomElements.scopeSheet src classPrefix definition.id emitGlobal t done)
      (CustomElements.scopeSheet src' classPrefix definition.id emitGlobal t done) := by
  refine h.bind (h.scopeId _ _ _) fun ⟨id, done⟩ => ?_
  dsimp only
  split
  · exact h.pure _
  · refine h.bind (h.text t (.inr ht)) fun text => ?_
    rcases text with _ | css
    · exact h.pure _
    · dsimp only
      split
      · exact h.throw _
      · exact h.pure _

theorem scopeSheets (h : Closed src src' definition P) (classPrefix : String) (emitGlobal : Bool)
    {templates : List Template} (ht : ∀ t ∈ templates, t ∈ definition.css) (done : StyleScoping) :
    P (CustomElements.scopeSheets src classPrefix definition.id emitGlobal templates done)
      (CustomElements.scopeSheets src' classPrefix definition.id emitGlobal templates done) := by
  induction templates generalizing done with
  | nil => exact h.pure _
  | cons t rest ih =>
      rw [List.forall_mem_cons] at ht
      exact h.bind (h.scopeSheet classPrefix emitGlobal ht.1 done) fun done => ih ht.2 done

theorem scopeStyles (h : Closed src src' definition P) (classPrefix : String) :
    P (CustomElements.scopeStyles src classPrefix definition)
      (CustomElements.scopeStyles src' classPrefix definition) := by
  rw [scopeStyles_eq, scopeStyles_eq]
  refine h.bind h.isGlobalEmitted fun emitted => ?_
  refine h.bind (h.scopeSheets classPrefix (!emitted) (fun _ ht => ht) .none) fun done => ?_
  dsimp only
  split
  · exact h.bind h.markGlobalEmitted fun _ => h.pure _
  · exact h.pure _

theorem ownMarkup (h : Closed src src' definition P) (r : Renderer) :
    P (r.ownMarkup src definition) (r.ownMarkup src' definition) := by
  unfold Renderer.ownMarkup
  split
  · exact h.pure _
  · rename_i t hhtml
    refine h.bind (h.text t (.inl hhtml)) fun text => ?_
    split <;> exact h.pure _

/-- **What holds of all steps of rendering an instance holds of rendering it.** -/
theorem ownParts (h : Closed src src' definition P) (r : Renderer) :
    P (r.ownParts src definition) (r.ownParts src' definition) :=
  h.bind (h.ownMarkup r) fun _ => h.bind (h.scopeStyles _) fun _ => h.pure _

end Closed

end InstanceStep

/-! ## The steps -/

/-- Whatever a step answers, and also if it stops, the work has grown. -/
def OnlyGrows {α : Type} (step : InstanceStep α) : Prop :=
  ∀ w : Work, w.Grows (step.run w).2

variable {α β : Type}

theorem onlyGrows_bind {x : InstanceStep α} {f : α → InstanceStep β} (hx : OnlyGrows x)
    (hf : ∀ a, OnlyGrows (f a)) : OnlyGrows (x >>= f) := by
  intro w
  have h := hx w
  rw [run_bind]
  rcases hr : x.run w with ⟨stop | a, v⟩ <;> rw [hr] at h
  · exact h
  · exact h.trans (hf a v)

theorem onlyGrows_modifySession {f : Session → Session}
    (hf : ∀ s, s.Grows (f s) ∧ (f s).memo = s.memo) :
    OnlyGrows (InstanceStep.modifySession f) := by
  intro w
  refine ⟨(hf _).1, ?_, rfl, rfl⟩
  change ((f w.progress.session).memo.releaseComponent w.inst.id).2 = _
  rw [(hf _).2]

/-- A request through the session, for whatever reason. -/
theorem Work.grows_render (w : Work) (t : Template) (reason : Change) :
    let r := w.progress.session.render w.progress.journal t reason w.inst
    w.Grows ⟨⟨r.session, r.journal⟩, r.inst⟩ := by
  obtain ⟨hcache, hjournal, hinst⟩ := Memo.render_frame w.progress.session.memo
    w.progress.journal t reason w.inst w.progress.session.templater
  exact ⟨⟨rfl, rfl, List.prefix_refl _, fun _ => Nat.le_refl _, List.suffix_refl _⟩, hcache,
    hjournal, hinst⟩

/-- A request for text also adds its pending texts. -/
theorem Work.grows_renderText (w : Work) (d : Deliveries) (t : Template) (reason : Change) :
    let r := w.progress.session.renderText w.progress.journal d t reason w.inst
    w.Grows ⟨⟨r.session, r.journal⟩, r.inst⟩ := by
  have h := w.grows_render t reason
  exact ⟨⟨rfl, rfl, List.prefix_append _ _, h.session.counter, h.session.emitted⟩, h.cache,
    h.instances, h.inst⟩

theorem onlyGrows_renderText (d : Deliveries) (t : Template) :
    OnlyGrows (InstanceStep.renderText d t) := by
  intro w
  have h := w.grows_renderText d t .force
  simp only [InstanceStep.renderText, run_bind, run_get, run_set]
  split <;> exact h

theorem onlyGrows_scopeId (classPrefix : String) (definition : Nat) (scope : Style.Scope)
    (done : StyleScoping) : OnlyGrows (scopeId classPrefix definition scope done) := by
  intro w
  simp only [scopeId, run_bind, run_get]
  split
  · exact .refl w
  · exact .refl w
  · exact ⟨Session.grows_nextUniqueIndex _ _, rfl, rfl, rfl⟩

/-- Every single step of rendering only makes the work grow. -/
theorem closed_onlyGrows (d : Deliveries) (definition : Definition) :
    InstanceStep.Closed d d definition fun step _ => OnlyGrows step where
  pure := fun _ w => .refl w
  throw := fun _ w => .refl w
  bind := onlyGrows_bind
  text := fun t _ => onlyGrows_renderText d t
  scopeId := fun _ _ _ => onlyGrows_scopeId _ _ _ _
  isGlobalEmitted := fun w => .refl w
  markGlobalEmitted := onlyGrows_modifySession fun s =>
    ⟨s.grows_markGlobalEmitted _, by rw [Session.markGlobalEmitted_frame]⟩

theorem onlyGrows_scopeStyles (d : Deliveries) (classPrefix : String) (definition : Definition) :
    OnlyGrows (scopeStyles d classPrefix definition) :=
  (closed_onlyGrows d definition).scopeStyles classPrefix

/--
Where rendering the own markup does not stop, there is no template for it, or its text was asked for
and is parsed if the template is attached.
-/
theorem Renderer.ownMarkup_cases {r : Renderer} {d : Deliveries} {definition : Definition}
    {own : Option (List Node)} {w w' : Work}
    (h : (r.ownMarkup d definition).run w = (.ok own, w')) :
    (definition.html = none ∧ own = none ∧ w' = w) ∨
      ∃ t text, definition.html = some t ∧
        (InstanceStep.renderText d t).run w = (.ok text, w') ∧
        ((t.attach = .children ∧ own = text.map r.parse) ∨
          (t.attach = .detached ∧ own = none)) := by
  unfold ownMarkup at h
  split at h
  · rename_i hhtml
    cases h
    exact .inl ⟨hhtml, rfl, rfl⟩
  · rename_i t hhtml
    rw [TextSource.cached_text, run_bind] at h
    rcases htext : (InstanceStep.renderText d t).run w with ⟨stop | text, w₁⟩ <;> rw [htext] at h
    · cases h
    · dsimp only at h
      split at h <;> rename_i hattach <;> cases h
      · exact .inr ⟨t, text, hhtml, htext, .inl ⟨hattach, rfl⟩⟩
      · exact .inr ⟨t, text, hhtml, htext, .inr ⟨hattach, rfl⟩⟩

/-- If the own parts are rendered without a stop, so are the markup and then the stylesheets. -/
theorem Occurrence.parts_stages {o : Occurrence} {own : Option (List Node)}
    {scoping : StyleScoping} {w : Work} (h : o.parts = (.ok (own, scoping), w)) :
    ∃ w₁, (o.renderer.ownMarkup o.deliveries o.definition).run o.start = (.ok own, w₁) ∧
      (scopeStyles o.deliveries o.renderer.options.classPrefix o.definition).run w₁ =
        (.ok scoping, w) := by
  rw [parts, Renderer.ownParts, run_bind] at h
  rcases hm : (o.renderer.ownMarkup o.deliveries o.definition).run o.start
    with ⟨stop | own', w₁⟩ <;> rw [hm] at h
  · cases h
  · dsimp only at h
    rw [run_bind] at h
    rcases hs : (scopeStyles o.deliveries o.renderer.options.classPrefix o.definition).run w₁
      with ⟨stop | scoping', w₂⟩ <;> rw [hs] at h <;> cases h
    exact ⟨w₁, rfl, hs⟩

/-- **Rendering an instance's own parts only grows the work for it.** -/
theorem Occurrence.grows_parts (o : Occurrence) : o.start.Grows o.parts.2 :=
  (closed_onlyGrows o.deliveries o.definition).ownParts o.renderer o.start

/-- The parts of a component leave the known tag names as they were. -/
theorem Occurrence.tagMap_parts {r : Renderer} {d : Deliveries} {theme : Option Theme}
    {definition : Definition} {tagName : String} {attributes : Props} {content : List Node}
    {p : Progress} {o : Occurrence}
    (begins : o = r.begin d theme definition tagName attributes content p) :
    o.parts.2.progress.session.tagMap = p.session.tagMap := by
  have hgrows := o.grows_parts.session.tagMap
  rw [begins] at hgrows ⊢
  exact hgrows

theorem kept_tagMap {r : Renderer} {d : Deliveries} {theme : Option Theme} (known : TagMap) :
    Kept r d theme fun p => p.session.tagMap = known where
  parts begins hp := (Occurrence.tagMap_parts begins).trans hp
  ended _ hp := hp

end CustomElements
