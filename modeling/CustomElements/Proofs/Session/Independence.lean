import CustomElements.Proofs.Cache.Slots
import CustomElements.Proofs.Expansion.Lockstep
import CustomElements.Proofs.Session.SharedSheets

/-!
# Sessions that render alike

Which identity an instance gets depends on all that was rendered before it, in whatever session, and
what a session has in its cache depends on the requests that were made through it. Neither can be
told from a document, as long as render functions do not look at identities and do not remember
their calls (`RenderFunction.Impersonal`).

The proof runs one call on two sessions. They know the same names, and agree about the indices that
were drawn and the shared sheets that were written. An instance of the one and the corresponding
instance of the other differ in their identities only, and in their own cache they find the same:
nothing when they begin, since no result that is cached already belongs to an instance that is yet
to be created, and then what the same requests have left there (`Work.Alike`).
-/

namespace CustomElements

/-! ## Render functions -/

/--
The answer depends on what the instance shows of itself and on the reason, and neither on which
instance it is nor on earlier calls.
-/
def RenderFunction.Impersonal (run : RenderFunction) : Prop :=
  ∀ (earlier earlier' : List Call) (call call' : Call), call'.inst.tagName = call.inst.tagName →
    call'.inst.props = call.inst.props → call'.inst.theme = call.inst.theme →
      call'.inst.ownAttributes = call.inst.ownAttributes → call'.reason = call.reason →
        run earlier' call' = run earlier call

def Template.Impersonal (t : Template) : Prop := ∀ run, t.run? = some run → run.Impersonal

/-- The render functions of all its templates are impersonal. -/
def Definition.Impersonal (definition : Definition) : Prop :=
  ∀ t, definition.html = some t ∨ t ∈ definition.css → t.Impersonal

/-! ## Sessions -/

namespace Session

/-- The sessions know the same names, and agree about drawn indices and shared sheets. -/
structure Alike (s t : Session) : Prop where
  tagMap : t.tagMap = s.tagMap
  counter : ∀ id, t.counter id = s.counter id
  emitted : ∀ id, t.isGlobalEmitted id = s.isGlobalEmitted id

/-- The sessions are alike. Since they were `s₀` and `t₀`, the same texts have become pending. -/
structure InStep (s₀ t₀ s t : Session) : Prop extends Alike s t where
  pending : ∃ added, s.pending = s₀.pending ++ added ∧ t.pending = t₀.pending ++ added

namespace InStep

variable {s₀ t₀ s t : Session}

theorem withMemo (h : InStep s₀ t₀ s t) (m m' : Memo) :
    InStep s₀ t₀ { s with memo := m } { t with memo := m' } :=
  ⟨⟨h.tagMap, h.counter, h.emitted⟩, h.pending⟩

theorem nextUniqueIndex (h : InStep s₀ t₀ s t) (definition : Nat) :
    InStep s₀ t₀ (s.nextUniqueIndex definition).2 (t.nextUniqueIndex definition).2 where
  tagMap := h.tagMap
  counter := by
    intro id
    rw [counter_nextUniqueIndex, counter_nextUniqueIndex, h.counter, h.counter]
  emitted := h.emitted
  pending := h.pending

theorem markGlobalEmitted (h : InStep s₀ t₀ s t) (definition : Nat) :
    InStep s₀ t₀ (s.markGlobalEmitted definition).2 (t.markGlobalEmitted definition).2 := by
  have hsame := h.emitted definition
  unfold Session.markGlobalEmitted
  rw [hsame]
  split
  · exact h
  · refine ⟨⟨h.tagMap, h.counter, fun id => ?_⟩, h.pending⟩
    have hid := h.emitted id
    unfold isGlobalEmitted at hid ⊢
    rw [List.contains_cons, List.contains_cons, hid]

end InStep

end Session

/-! ## Work for corresponding instances -/

/-- What the session's cache holds for the instance. -/
def Work.cached (w : Work) (template : Nat) : Option RenderResult :=
  w.progress.session.memo.get? ⟨w.progress.session.templater, w.inst.id, template⟩

theorem Work.cached_markGlobalEmitted (w : Work) (definition template : Nat) :
    cached ((InstanceStep.modifySession fun s => (s.markGlobalEmitted definition).2).run w).2
      template = w.cached template := by
  change (w.progress.session.markGlobalEmitted definition).2.memo.get?
    ⟨(w.progress.session.markGlobalEmitted definition).2.templater, w.inst.id, template⟩ = _
  rw [Session.markGlobalEmitted_frame, cached]

/-- The works are for instances that differ in their identities only, with the same in the cache. -/
structure Work.Alike (s₀ t₀ : Session) (v w : Work) : Prop where
  session : Session.InStep s₀ t₀ v.progress.session w.progress.session
  inst : w.inst = { v.inst with id := w.inst.id }
  cached : ∀ template, w.cached template = v.cached template

section Work

variable {s₀ t₀ : Session}

theorem Work.Alike.tagName {v w : Work} (h : Work.Alike s₀ t₀ v w) :
    w.inst.tagName = v.inst.tagName := by rw [h.inst]

/-- A request has the same answer for corresponding instances, and leaves the same in the cache. -/
theorem Work.Alike.render {v w : Work} (h : Work.Alike s₀ t₀ v w) {t : Template}
    (ht : t.Impersonal) (reason : Change) :
    let a := v.progress.session.render v.progress.journal t reason v.inst
    let b := w.progress.session.render w.progress.journal t reason w.inst
    b.answer = a.answer ∧
      Work.Alike s₀ t₀ ⟨⟨a.session, a.journal⟩, a.inst⟩ ⟨⟨b.session, b.journal⟩, b.inst⟩ := by
  have hcached := h.cached t.id
  unfold Work.cached at hcached
  unfold Session.render Memo.render
  rcases hrun : t.run? with - | run <;> dsimp only
  · exact ⟨rfl, h⟩
  · rw [hcached]
    split
    · exact ⟨rfl, h⟩
    · -- the functions are called for instances that show the same
      have houtcome := ht run hrun (v.progress.journal.history t.id)
        (w.progress.journal.history t.id) ⟨v.inst, reason⟩ ⟨w.inst, reason⟩
        (by rw [h.inst]) (by rw [h.inst]) (by rw [h.inst]) (by rw [h.inst]) rfl
      have hinst : ∀ ownAttributes, ({ w.inst with ownAttributes } : Instance) =
          { ({ v.inst with ownAttributes } : Instance) with id := w.inst.id } := by
        intro ownAttributes
        rw [h.inst]
      rw [houtcome]
      split
      · refine ⟨rfl, h.session.withMemo _ _, hinst _, fun template => ?_⟩
        have hother := h.cached template
        unfold Work.cached at hother ⊢
        dsimp only
        rw [Memo.get?_insert, Memo.get?_insert, hother]
        simp only [CacheKey.mk.injEq, true_and]
      · exact ⟨rfl, h.session.withMemo _ _, hinst _, h.cached⟩

/-- A request for text also makes the same texts pending. -/
theorem Work.Alike.renderText {v w : Work} (h : Work.Alike s₀ t₀ v w) (d : Deliveries)
    {t : Template} (ht : t.Impersonal) (reason : Change) :
    let a := v.progress.session.renderText v.progress.journal d t reason v.inst
    let b := w.progress.session.renderText w.progress.journal d t reason w.inst
    b.answer = a.answer ∧
      Work.Alike s₀ t₀ ⟨⟨a.session, a.journal⟩, a.inst⟩ ⟨⟨b.session, b.journal⟩, b.inst⟩ := by
  intro a b
  obtain ⟨hanswer, hafter⟩ := h.render ht reason
  have htext : b.answer = a.answer := by
    dsimp only [Session.render] at hanswer
    simp only [a, b, Session.renderText, Memo.renderText, hanswer]
  obtain ⟨added, hv, hw⟩ := hafter.session.pending
  refine ⟨htext, ⟨⟨hafter.session.tagMap, hafter.session.counter, hafter.session.emitted⟩,
    added ++ Session.pendingOf a.answer, ?_, ?_⟩, hafter.inst, hafter.cached⟩
  · rw [← List.append_assoc, ← hv]
    rfl
  · rw [← List.append_assoc, ← hw, ← htext]
    rfl

/-! ## Steps -/

/-- In corresponding works the step has the same answer, and it leaves corresponding works. -/
def StaysAlike {α : Type} (s₀ t₀ : Session) (step : InstanceStep α) : Prop :=
  Lockstep (Work.Alike s₀ t₀) Eq step step

theorem staysAlike_renderText (d : Deliveries) {t : Template} (ht : t.Impersonal) :
    StaysAlike s₀ t₀ (InstanceStep.renderText d t) := by
  intro v w h
  obtain ⟨hanswer, hafter⟩ := h.renderText d ht .force
  simp only [InstanceStep.renderText, run_bind, run_get, run_set, hanswer]
  split <;> exact ⟨rfl, hafter⟩

/-- Corresponding instances draw the same index. -/
theorem staysAlike_scopeId (classPrefix : String) (definition : Nat) (scope : Style.Scope)
    (done : StyleScoping) : StaysAlike s₀ t₀ (scopeId classPrefix definition scope done) := by
  intro v w h
  have hindex := h.session.counter definition
  simp only [scopeId, run_bind, run_get, h.tagName]
  split
  · exact ⟨rfl, h⟩
  · exact ⟨rfl, h⟩
  · refine ⟨?_, h.session.nextUniqueIndex definition, h.inst, h.cached⟩
    dsimp only [Session.nextUniqueIndex]
    rw [hindex]
    rfl

theorem staysAlike_markGlobalEmitted (definition : Nat) :
    StaysAlike s₀ t₀ (InstanceStep.modifySession fun s => (s.markGlobalEmitted definition).2) := by
  intro v w h
  refine ⟨rfl, h.session.markGlobalEmitted definition, h.inst, fun template => ?_⟩
  rw [Work.cached_markGlobalEmitted, Work.cached_markGlobalEmitted, h.cached]

/-- **Corresponding instances go through rendering in the same way.** -/
theorem closed_staysAlike (d : Deliveries) {definition : Definition} (h : definition.Impersonal) :
    InstanceStep.Closed d d definition fun x y => Lockstep (Work.Alike s₀ t₀) Eq x y :=
  InstanceStep.closed_lockstep (fun t ht => staysAlike_renderText d (h t ht))
    (fun _ _ _ => staysAlike_scopeId _ _ _ _)
    (fun _ _ h => ⟨(h.session.emitted definition.id).symm, h⟩)
    (staysAlike_markGlobalEmitted _)

end Work

/-! ## Calls -/

/-- A host does not tell the identity of its instance. -/
theorem Renderer.host_of_id {i i' : Instance} (h : i' = { i with id := i'.id }) :
    host i' = host i := by
  rw [h]
  rfl

namespace Progress

/-- Corresponding states of two calls, which began with the sessions `s₀` and `t₀`. -/
structure InStep (known : TagMap) (s₀ t₀ : Session) (p q : Progress) : Prop where
  session : Session.InStep s₀ t₀ p.session q.session
  tagMap : p.session.tagMap = known
  created : p.CacheCreated
  created' : q.CacheCreated

namespace InStep

variable {known : TagMap} {s₀ t₀ : Session} {p q : Progress}

/-- The instances that are created next correspond. Nothing is cached for either of them. -/
theorem begin (h : InStep known s₀ t₀ p q) (r : Renderer) (d : Deliveries) (theme : Option Theme)
    (definition : Definition) (tagName : String) (attributes : Props)
    (content content' : List Node) :
    Work.Alike s₀ t₀ (r.begin d theme definition tagName attributes content p).start
      (r.begin d theme definition tagName attributes content' q).start where
  session := h.session
  inst := rfl
  cached := by
    intro template
    have hp : p.session.memo.get? ⟨p.session.templater, p.journal.instances, template⟩ = none :=
      Memo.get?_of_forall_lt h.created
    have hq : q.session.memo.get? ⟨q.session.templater, q.journal.instances, template⟩ = none :=
      Memo.get?_of_forall_lt h.created'
    exact hq.trans hp.symm

theorem endInstance (h : InStep known s₀ t₀ p q) (id id' : Nat) :
    InStep known s₀ t₀ (p.endInstance id) (q.endInstance id') where
  session := h.session.withMemo _ _
  tagMap := h.tagMap
  created := fun e he => h.created e (Memo.mem_of_mem_releaseComponent he)
  created' := fun e he => h.created' e (Memo.mem_of_mem_releaseComponent he)

/-- Both calls go back to sessions that were alike, so they are alike again. -/
theorem rollback (h : InStep known s₀ t₀ p q) (h₀ : s₀.Alike t₀) :
    InStep known s₀ t₀ { p with session := p.session.rollback s₀.checkpoint }
      { q with session := q.session.rollback t₀.checkpoint } where
  session := by
    obtain ⟨added, hp, hq⟩ := h.session.pending
    refine ⟨⟨h.session.tagMap, h.session.counter, h₀.emitted⟩, [], ?_, ?_⟩
    · simp [Session.rollback, Session.checkpoint, hp]
    · simp [Session.rollback, Session.checkpoint, hq]
  tagMap := h.tagMap
  created := h.created
  created' := h.created'

/-- On corresponding sessions a renderer does the same. -/
theorem twins (s₀ t₀ : Session) (r : Renderer) (d : Deliveries) (theme : Option Theme)
    (hknown : ∀ {name : String} {definition : Definition},
      known.get? name = some definition → definition.Impersonal) :
    Twins r r d theme theme known Definition.Impersonal (InStep known s₀ t₀) Eq where
  resemblance := resemblance_eq rfl
  tagMap := fun h => ⟨h.tagMap, h.session.tagMap.trans h.tagMap⟩
  fits_of_known := hknown
  parts := by
    intro p q h definition himpersonal tagName attributes content content'
    have hstart := h.begin r d theme definition tagName attributes content content'
    obtain ⟨hparts, hafter⟩ := (closed_staysAlike d himpersonal).ownParts r _ _ hstart
    have hsame : (r.begin d theme definition tagName attributes content
        p).parts.2.progress.session.tagMap = p.session.tagMap := Occurrence.tagMap_parts rfl
    refine ⟨agree_eq_iff.mp hparts, ⟨hafter.session, hsame.trans h.tagMap, ?_, ?_⟩, ?_⟩
    · exact cacheCreated_parts rfl h.created
    · exact cacheCreated_parts rfl h.created'
    · exact (Renderer.host_of_id hafter.inst).symm
  ended := fun _ h => h.endInstance _ _

end InStep

end Progress

namespace Renderer

/-- On sessions that are alike a call has the same answer, and it leaves them alike. -/
theorem elementToTag_alike (r : Renderer) (c : Catalog) (d : Deliveries) (depth : Nat)
    {definition : Definition} (attributes : Props) (theme : Option Theme) {p q : Progress}
    (halike : p.session.Alike q.session) (hp : p.CacheCreated) (hq : q.CacheCreated)
    (himpersonal : ∀ x, p.MayExpand c definition x → x.Impersonal) :
    let a := r.elementToTag c d depth definition attributes theme p
    let b := r.elementToTag c d depth definition attributes theme q
    b.1 = a.1 ∧ Session.InStep p.session q.session a.2.session b.2.session := by
  have hstart : Progress.InStep (c.register definition p.session.tagMap)
      (p.register c definition).session (q.register c definition).session
      (p.register c definition) (q.register c definition) := by
    refine ⟨⟨⟨?_, halike.counter, halike.emitted⟩, [], ?_, ?_⟩, rfl, hp, hq⟩
    · exact congrArg (c.register definition) halike.tagMap
    · rw [List.append_nil]
    · rw [List.append_nil]
  have t := Progress.InStep.twins (p.register c definition).session
    (q.register c definition).session r d theme fun hx => himpersonal _ (.inr ⟨_, hx⟩)
  obtain ⟨hanswer, hend⟩ := t.elementToTag rfl c depth (himpersonal definition (.inl rfl))
    attributes hstart fun h => h.rollback hstart.session.toAlike
  exact ⟨(agree_eq_iff.mp hanswer).symm, hend.session.toAlike, hend.session.pending⟩

/--
**Output depends neither on identities nor on what the cache holds.** Suppose two sessions know the
same names and agree about drawn indices and shared sheets, and all that their caches hold belongs
to instances that were created; their namespaces, caches, pending texts and the next identity may be
any. If the render functions of all definitions that may be expanded are impersonal, then a call has
the same answer on both sessions, leaves them in agreement, and makes the same texts pending. So two
fresh sessions write the same markup.
-/
theorem elementToTag_independent (r : Renderer) (c : Catalog) (d : Deliveries) (depth : Nat)
    (definition : Definition) (attributes : Props) (theme : Option Theme) :
    (∀ p q : Progress, p.session.Alike q.session → p.CacheCreated → q.CacheCreated →
        (∀ x, p.MayExpand c definition x → x.Impersonal) →
        let a := r.elementToTag c d depth definition attributes theme p
        let b := r.elementToTag c d depth definition attributes theme q
        b.1 = a.1 ∧ a.2.session.Alike b.2.session ∧
          ∃ added, a.2.session.pending = p.session.pending ++ added ∧
            b.2.session.pending = q.session.pending ++ added) ∧
      ∀ (n n' : Nat) (j j' : Journal),
        (∀ x, Progress.MayExpand ⟨.empty n, j⟩ c definition x → x.Impersonal) →
        (r.render c d depth definition attributes theme ⟨.empty n', j'⟩).1 =
          (r.render c d depth definition attributes theme ⟨.empty n, j⟩).1 := by
  constructor
  · intro p q halike hp hq himpersonal
    obtain ⟨hanswer, hend⟩ :=
      r.elementToTag_alike c d depth attributes theme halike hp hq himpersonal
    exact ⟨hanswer, hend.toAlike, hend.pending⟩
  · intro n n' j j' himpersonal
    have halike : (Session.empty n).Alike (.empty n') := ⟨rfl, fun _ => rfl, fun _ => rfl⟩
    have hempty : ∀ n j, Progress.CacheCreated ⟨.empty n, j⟩ :=
      fun n j => (Progress.Reachable.fresh n j).cacheCreated
    obtain ⟨hanswer, -⟩ := r.elementToTag_alike c d depth attributes theme halike (hempty n j)
      (hempty n' j') himpersonal
    exact congrArg (Except.map Node.toHtml) hanswer

end Renderer

/-! ## Two sessions with different pasts -/

namespace Sample

/-- An item and a notice. -/
def bulletin : Definition :=
  component 4 "x-bulletin" (.ofString "<x-item></x-item><x-notice></x-notice>") []

def bulletins : Catalog := ⟨catalog.entries ++ [⟨bulletin, some [0, 1]⟩]⟩

/-- An old session, with a cached result of the item's template and a pending text. -/
def old : Progress :=
  ⟨{ Session.empty 7 with memo := ⟨[(⟨7, 3, 0⟩, .display "stale")]⟩, pending := [⟨9, "old"⟩] },
    ⟨[], 5⟩⟩

theorem impersonal_ofString (markup : String) : (RenderFunction.ofString markup).Impersonal := by
  intro _ _ call call' _ _ _ hown _
  rw [RenderFunction.ofString, RenderFunction.ofString, hown]

theorem impersonal_ofFunction {id : Nat} {mask : Change} {run : RenderFunction}
    (h : run.Impersonal) : (Template.ofFunction id mask run).Impersonal := by
  rintro _ ⟨⟩
  exact h

theorem impersonal_component {id : Nat} {tagName : String} {html : RenderFunction}
    {css : List Template} (hhtml : html.Impersonal) (hcss : ∀ t ∈ css, t.Impersonal) :
    (component id tagName html css).Impersonal := by
  rintro t (⟨⟨⟩⟩ | ht)
  · exact impersonal_ofFunction hhtml
  · exact hcss t ht

theorem impersonal_bulletin : ∀ x, fresh.MayExpand bulletins bulletin x → x.Impersonal := by
  have hvalues : (bulletins.register bulletin fresh.session.tagMap).values =
      [bulletin, item, notice] := rfl
  have hbulletin : bulletin.Impersonal := impersonal_component (impersonal_ofString _) (by simp)
  have hitem : item.Impersonal := by
    refine impersonal_component (impersonal_ofString _) ?_
    simp [impersonal_ofFunction, impersonal_ofString]
  have hnotice : notice.Impersonal := by
    refine impersonal_component (fun _ _ call call' _ _ _ hown _ => ?_) (by simp)
    rw [hown]
  refine Progress.forall_mayExpand hbulletin ?_
  rw [hvalues]
  simp [hbulletin, hitem, hnotice]

end Sample

open Sample in
/-- An old session writes what a fresh one does, in spite of what it has in its cache. -/
theorem elementToTag_independent_bulletin :
    (fresh.session.Alike old.session ∧ fresh.CacheCreated ∧ old.CacheCreated ∧
      ∀ x, fresh.MayExpand bulletins bulletin x → x.Impersonal) ∧
      ∃ a b, reader.elementToTag bulletins Deliveries.none 2 bulletin ∅ none fresh = a ∧
        reader.elementToTag bulletins Deliveries.none 2 bulletin ∅ none old = b ∧
        a.1.toOption.isSome = true ∧ b.2.session.pending = [⟨9, "old"⟩, ⟨0, "soon"⟩] ∧
        (b.1 = a.1 ∧ a.2.session.Alike b.2.session ∧
          ∃ added, a.2.session.pending = fresh.session.pending ++ added ∧
            b.2.session.pending = old.session.pending ++ added) ∧
        ∀ n j, (reader.render bulletins Deliveries.none 2 bulletin ∅ none ⟨.empty n, j⟩).1 =
          (reader.render bulletins Deliveries.none 2 bulletin ∅ none fresh).1 := by
  have halike : fresh.session.Alike old.session := ⟨rfl, fun _ => rfl, fun _ => rfl⟩
  have hfresh : fresh.CacheCreated := (Progress.Reachable.fresh _ _).cacheCreated
  have hold : old.CacheCreated := by
    simp [Progress.CacheCreated, old]
  obtain ⟨hsame, hrender⟩ := reader.elementToTag_independent bulletins .none 2 bulletin ∅ none
  exact ⟨⟨halike, hfresh, hold, impersonal_bulletin⟩, _, _, rfl, rfl, by decide +kernel,
    by decide +kernel, hsame fresh old halike hfresh hold impersonal_bulletin,
    fun n j => hrender 0 n .empty j impersonal_bulletin⟩

end CustomElements
