import CustomElements.Proofs.Session.Independence

/-!
# Rendering without a cache

A cache is worth having if nothing but the number of calls tells that it is there. It is one source
of texts, and it is compared with another one, `TextSource.direct`, which calls the render function
for every request and has nothing to release.

Render functions have to be *pure* for that: the answer depends on what the instance shows and on
the reason, and the instance's attributes are left alone. Then a result that is cached for a live
instance is what its function would return now (`Memo.Current`), also where one template serves for
markup and for stylesheets. With the two sources a renderer runs in lock-step, and answers every
call alike (`elementToTag_uncached`).
-/

namespace CustomElements

/-! ## Calling the render function every time -/

/-- The text that the template's render function returns now. -/
def InstanceStep.callText (d : Deliveries) (t : Template) : InstanceStep (Option String) := do
  match t.run? with
  | none => return none
  | some run =>
    let w ← get
    let call : Call := ⟨w.inst, .force⟩
    let outcome := run (w.progress.journal.history t.id) call
    set (Work.mk { w.progress with journal := w.progress.journal.record t.id call }
      { w.inst with ownAttributes := outcome.ownAttributes })
    match outcome.result with
    | .error cause => throw (.error (.render t.id cause))
    | .ok result =>
      match result.coerce d with
      | .error kind => throw (.error (.missingText kind))
      | .ok text =>
        InstanceStep.modifySession fun s => { s with pending := s.pending ++ text.pending }
        return some text.text

/-- Every request calls the render function, and there is nothing to release. -/
def TextSource.direct (d : Deliveries) : TextSource := ⟨InstanceStep.callText d, fun _ p => p⟩

/-! ## Pure render functions -/

/-- The answer depends on what the instance is given, and the instance is left alone. -/
structure RenderFunction.Pure (run : RenderFunction) : Prop where
  result : ∀ (earlier earlier' : List Call) (call call' : Call),
    call'.inst.tagName = call.inst.tagName → call'.inst.props = call.inst.props →
      call'.inst.theme = call.inst.theme → call'.reason = call.reason →
        (run earlier' call').result = (run earlier call).result
  ownAttributes : ∀ earlier call, (run earlier call).ownAttributes = call.inst.ownAttributes

/--
All its render functions are pure, and its templates are told apart by their identities: one that
is used in several places has one identity and one function.
-/
structure Definition.Pure (definition : Definition) : Prop where
  run : ∀ {t run}, definition.HasTemplate t → t.run? = some run → run.Pure
  identified : ∀ {t t'}, definition.HasTemplate t → definition.HasTemplate t' → t'.id = t.id →
    t'.run? = t.run?

/-! ## Requests -/

/--
An answer through the cache is what the function returns now, if that is so for what is cached. The
cache is as it was, or has got that result.
-/
theorem Memo.render_of_pure {m : Memo} {j : Journal} {t : Template} {run : RenderFunction}
    {inst : Instance} {templater : Nat} (hrun : t.run? = some run) (hpure : run.Pure)
    (hcached : ∀ result, m.get? ⟨templater, inst.id, t.id⟩ = some result →
      ∀ earlier, (run earlier ⟨inst, .force⟩).result = .ok result) (earlier : List Call) :
    let a := m.render j t .force inst templater
    a.inst = inst ∧ a.journal.instances = j.instances ∧
      match (run earlier ⟨inst, .force⟩).result with
      | .ok result => (∃ changed, a.answer = .ok ⟨changed, some result⟩) ∧
          (a.memo = m ∨ a.memo = m.insert ⟨templater, inst.id, t.id⟩ result)
      | .error cause => a.answer = .error (.render t.id cause) ∧ a.memo = m := by
  unfold render
  rw [hrun]
  dsimp only
  split
  · rename_i result hit
    have hslot : m.get? ⟨templater, inst.id, t.id⟩ = some result :=
        (Option.filter_eq_some_iff.mp hit).1
    rw [hcached result hslot earlier]
    exact ⟨rfl, rfl, ⟨false, rfl⟩, .inl rfl⟩
  · -- the function is called, and does not remember its earlier calls
    have hsame := hpure.result earlier (j.history t.id) ⟨inst, .force⟩ ⟨inst, .force⟩
      rfl rfl rfl rfl
    have hinst : ({ inst with ownAttributes :=
        (run (j.history t.id) ⟨inst, .force⟩).ownAttributes } : Instance) = inst := by
      rw [hpure.ownAttributes]
    rw [hsame, hinst]
    rcases (run earlier ⟨inst, .force⟩).result with cause | result
    · exact ⟨rfl, rfl, rfl, rfl⟩
    · exact ⟨rfl, rfl, ⟨true, rfl⟩, .inr rfl⟩

/-- What is in the slots of an instance is what its functions return now. -/
def Memo.Current (memo : Memo) (templater : Nat) (definition : Definition) (inst : Instance) :
    Prop :=
  ∀ {t : Template} {run : RenderFunction} {result : RenderResult}, definition.HasTemplate t →
    t.run? = some run → memo.get? ⟨templater, inst.id, t.id⟩ = some result →
      ∀ earlier, (run earlier ⟨inst, .force⟩).result = .ok result

/-- What a function has returned may be put into the cache, for all templates that use it. -/
theorem Memo.Current.insert {memo : Memo} {templater : Nat} {definition : Definition}
    {inst : Instance} (h : memo.Current templater definition inst) (hpure : definition.Pure)
    {t : Template} (ht : definition.HasTemplate t) {run : RenderFunction}
    (hrun : t.run? = some run) {result : RenderResult} {earlier : List Call}
    (hresult : (run earlier ⟨inst, .force⟩).result = .ok result) :
    (memo.insert ⟨templater, inst.id, t.id⟩ result).Current templater definition inst := by
  intro t' run' result' ht' hrun' hslot
  rw [get?_insert] at hslot
  split at hslot
  · rename_i hkey
    obtain rfl : result = result' := Option.some.inj hslot
    have hid : t'.id = t.id := (CacheKey.mk.inj hkey).2.2
    have hfunction : some run' = some run := by
      rw [← hrun', ← hrun, hpure.identified ht ht' hid]
    obtain rfl : run' = run := Option.some.inj hfunction
    intro earlier'
    rw [← hresult]
    exact (hpure.run ht hrun).result earlier earlier' _ _ rfl rfl rfl rfl
  · exact h ht' hrun' hslot

/--
The work with a cache and the work without one: apart from the cache the sessions are the same, and
what is cached for the instance is what its functions return now.
-/
structure Work.Backed (definition : Definition) (m : Memo) (v w : Work) : Prop where
  session : w.progress.session = { v.progress.session with memo := m }
  instances : w.progress.journal.instances = v.progress.journal.instances
  inst : w.inst = v.inst
  current : v.progress.session.memo.Current v.progress.session.templater definition v.inst

/-- A call of a function that leaves the instance alone. -/
theorem InstanceStep.run_callText (d : Deliveries) {t : Template} {run : RenderFunction}
    (hrun : t.run? = some run) (hpure : run.Pure) (w : Work) :
    (callText d t).run w =
      let j := w.progress.journal.record t.id ⟨w.inst, .force⟩
      match (run (w.progress.journal.history t.id) ⟨w.inst, .force⟩).result with
      | .error cause =>
        (.error (.error (.render t.id cause)), ⟨{ w.progress with journal := j }, w.inst⟩)
      | .ok result =>
        match result.coerce d with
        | .error kind =>
          (.error (.error (.missingText kind)), ⟨{ w.progress with journal := j }, w.inst⟩)
        | .ok text => (.ok (some text.text), ⟨⟨{ w.progress.session with
            pending := w.progress.session.pending ++ text.pending }, j⟩, w.inst⟩) := by
  unfold callText
  rw [hrun]
  simp only [run_bind, run_get, run_set, hpure.ownAttributes]
  rcases (run (w.progress.journal.history t.id) ⟨w.inst, .force⟩).result with cause | result
  · rfl
  · dsimp only
    rcases result.coerce d with kind | text <;> rfl

/-- A request has the same answer with a cache and without one. -/
theorem lockstep_text (d : Deliveries) {definition : Definition} (hpure : definition.Pure)
    (m : Memo) {t : Template} (ht : definition.HasTemplate t) :
    Lockstep (Work.Backed definition m) Eq ((TextSource.cached d).text t)
      ((TextSource.direct d).text t) := by
  intro v w h
  change Agree Eq ((InstanceStep.renderText d t).run v).1 ((InstanceStep.callText d t).run w).1 ∧
    Work.Backed definition m ((InstanceStep.renderText d t).run v).2
      ((InstanceStep.callText d t).run w).2
  obtain ⟨hsession, hinstances, hinst, hcurrent⟩ := h
  rcases hrun : t.run? with - | run
  · unfold InstanceStep.renderText InstanceStep.callText
    simp only [run_bind, run_get, run_set, Session.renderText, Memo.renderText, Memo.render, hrun,
      Memoized.nothing, Memoized.mapM, Session.pendingOf, List.append_nil]
    exact ⟨rfl, hsession, hinstances, hinst, hcurrent⟩
  · have hpureRun : run.Pure := hpure.run ht hrun
    obtain ⟨hinst', hinstances', hanswer⟩ := Memo.render_of_pure (j := v.progress.journal) hrun
      hpureRun (fun result => hcurrent ht hrun) (w.progress.journal.history t.id)
    rw [InstanceStep.run_callText d hrun hpureRun, InstanceStep.renderText]
    simp only [run_bind, run_get, run_set, Session.renderText, Memo.renderText]
    generalize v.progress.session.memo.render v.progress.journal t .force v.inst
      v.progress.session.templater = a at hinst' hinstances' hanswer ⊢
    obtain ⟨memo, journal, inst, answer⟩ := a
    dsimp only at hinst' hinstances' hanswer ⊢
    subst hinst'
    have hinstances'' : w.progress.journal.instances = journal.instances :=
      hinstances.trans hinstances'.symm
    rw [hinst]
    rcases hresult : (run (w.progress.journal.history t.id) ⟨v.inst, .force⟩).result
      with cause | result <;> rw [hresult] at hanswer
    · obtain ⟨rfl, rfl⟩ := hanswer
      simp only [Session.pendingOf, List.append_nil]
      exact ⟨rfl, hsession, hinstances'', rfl, hcurrent⟩
    · obtain ⟨⟨changed, rfl⟩, hmemo⟩ := hanswer
      -- whether the result was kept or is new, it is current for the instance
      have hcurrent' : memo.Current v.progress.session.templater definition v.inst := by
        rcases hmemo with rfl | rfl
        · exact hcurrent
        · exact hcurrent.insert hpure ht hrun hresult
      dsimp only [Memoized.mapM]
      rcases result.coerce d with kind | text
      · simp only [Except.map, Session.pendingOf, List.append_nil]
        exact ⟨rfl, hsession, hinstances'', rfl, hcurrent'⟩
      · refine ⟨rfl, ?_, hinstances'', rfl, hcurrent'⟩
        rw [hsession]
        rfl

/-! ## Instances -/

section Instances

variable {definition : Definition} {m : Memo}

/-- The journals may differ, and the caches. -/
theorem Work.Backed.exists_journal {v w : Work} (h : Backed definition m v w) :
    ∃ j, j.instances = v.progress.journal.instances ∧
      w = ⟨⟨{ v.progress.session with memo := m }, j⟩, v.inst⟩ := by
  obtain ⟨⟨s, j⟩, inst⟩ := w
  obtain ⟨hsession, hinstances, hinst, -⟩ := h
  dsimp only at hsession hinstances hinst
  exact ⟨j, hinstances, by rw [hsession, hinst]⟩

theorem lockstep_scopeId (classPrefix : String) (scope : Style.Scope) (done : StyleScoping) :
    Lockstep (Work.Backed definition m) Eq (scopeId classPrefix definition.id scope done)
      (scopeId classPrefix definition.id scope done) := by
  intro v w h
  obtain ⟨j, hinstances, rfl⟩ := h.exists_journal
  simp only [scopeId, run_bind, run_get]
  split <;> exact ⟨rfl, rfl, hinstances, rfl, h.current⟩

theorem lockstep_isGlobalEmitted :
    Lockstep (Work.Backed definition m) Eq (InstanceStep.isGlobalEmitted definition.id)
      (InstanceStep.isGlobalEmitted definition.id) := by
  intro v w h
  obtain ⟨j, hinstances, rfl⟩ := h.exists_journal
  exact ⟨rfl, rfl, hinstances, rfl, h.current⟩

theorem lockstep_markGlobalEmitted :
    Lockstep (Work.Backed definition m) Eq
      (InstanceStep.modifySession fun s => (s.markGlobalEmitted definition.id).2)
      (InstanceStep.modifySession fun s => (s.markGlobalEmitted definition.id).2) := by
  intro v w h
  obtain ⟨j, hinstances, rfl⟩ := h.exists_journal
  have hmark : ({ v.progress.session with memo := m } : Session).markGlobalEmitted definition.id =
      ((v.progress.session.markGlobalEmitted definition.id).1,
        { (v.progress.session.markGlobalEmitted definition.id).2 with memo := m }) := by
    unfold Session.markGlobalEmitted
    change (if v.progress.session.isGlobalEmitted definition.id = true then _ else _) = _
    split <;> rfl
  refine ⟨rfl, ?_, hinstances, rfl, ?_⟩
  · exact congrArg Prod.snd hmark
  · change (v.progress.session.markGlobalEmitted definition.id).2.memo.Current
      (v.progress.session.markGlobalEmitted definition.id).2.templater definition v.inst
    rw [Session.markGlobalEmitted_frame]
    exact h.current

end Instances

/-! ## Expansions -/

/-- Corresponding states of a renderer with a cache and of one whose session holds `m` in it. -/
structure Progress.Backed (known : TagMap) (m : Memo) (p q : Progress) : Prop where
  session : q.session = { p.session with memo := m }
  instances : q.journal.instances = p.journal.instances
  tagMap : p.session.tagMap = known
  created : p.CacheCreated

namespace Progress.Backed

variable {known : TagMap} {m : Memo} {p q : Progress}

/-- The instances that are created next correspond. Nothing is cached yet. -/
theorem start (h : Backed known m p q) (r : Renderer) (theme : Option Theme)
    (definition : Definition) (tagName : String) (attributes : Props) :
    Work.Backed definition m (r.start theme definition tagName attributes p)
      (r.start theme definition tagName attributes q) where
  session := h.session
  instances := congrArg (· + 1) h.instances
  inst := by
    dsimp only [Renderer.start]
    rw [h.instances]
  current := by
    intro t run result _ _ hslot
    have hnone : p.session.memo.get? ⟨p.session.templater, p.journal.instances, t.id⟩ = none :=
      Memo.get?_of_forall_lt h.created
    cases hslot.symm.trans hnone

/-- The cache is emptied of an instance; without a cache there is nothing to do. -/
theorem endInstance (h : Backed known m p q) (id : Nat) :
    Backed known m (p.endInstance id) q where
  session := h.session
  instances := h.instances
  tagMap := h.tagMap
  created := fun e he => h.created e (Memo.mem_of_mem_releaseComponent he)

theorem lookups (hknown : ∀ {name : String} {definition : Definition},
      known.get? name = some definition → definition.Pure) :
    Lookups known Definition.Pure (Backed known m) where
  tagMap := by
    intro p q h
    refine ⟨h.tagMap, ?_⟩
    rw [h.session]
    exact h.tagMap
  fits_of_known := hknown

end Progress.Backed

/-- An instance is rendered in the same way with a cache and without one. -/
theorem closed_cached_direct (d : Deliveries) {definition : Definition} (hpure : definition.Pure)
    (m : Memo) :
    InstanceStep.Closed (.cached d) (.direct d) definition
      fun x y => Lockstep (Work.Backed definition m) Eq x y :=
  InstanceStep.closed_lockstep (fun _ => lockstep_text d hpure m) lockstep_scopeId
    lockstep_isGlobalEmitted lockstep_markGlobalEmitted

/-- **With a cache and without one, components are expanded in lock-step.** -/
theorem lockstep_expand (r : Renderer) (d : Deliveries) (theme : Option Theme) {known : TagMap}
    (hknown : ∀ {name : String} {definition : Definition},
      known.get? name = some definition → definition.Pure) (m : Memo) (depth : Nat) :
    Expander.Lockstep Definition.Pure (Progress.Backed known m) Eq
      (r.expand d theme depth) (r.expand (.direct d) theme depth) := by
  -- on the room; the two have the same parts, and the same bodies by the hypothesis on `depth`
  induction depth with
  | zero => exact fun _ _ _ _ _ _ _ => lockstep_throw Stop.outOfRoom
  | succ depth ih =>
      intro definition hpure tagName attributes content content' hcontent p q h
      rw [List.forall₂_eq_eq_eq] at hcontent
      subst hcontent
      have hstart := h.start r theme definition tagName attributes
      -- with the cache the component is an occurrence, and what holds of its parts is known
      have hcreated : (r.begin d theme definition tagName attributes content
          p).parts.2.progress.CacheCreated := cacheCreated_parts rfl h.created
      have htagMap : (r.begin d theme definition tagName attributes content
          p).parts.2.progress.session.tagMap = p.session.tagMap := Occurrence.tagMap_parts rfl
      have hparts₀ : (r.begin d theme definition tagName attributes content p).parts =
          (r.ownParts d definition).run (r.start theme definition tagName attributes p) := rfl
      rw [hparts₀] at hcreated htagMap
      rw [TextSource.run_expand_succ, TextSource.run_expand_succ]
      dsimp only
      generalize r.start theme definition tagName attributes p = v₀ at hstart hcreated htagMap
      generalize r.start theme definition tagName attributes q = w₀ at hstart
      obtain ⟨hparts, hbacked⟩ := (closed_cached_direct d hpure m).ownParts r _ _ hstart
      rw [TextSource.run_expandInstance, TextSource.run_expandInstance]
      rcases hv : (r.ownParts d definition).run v₀ with ⟨result, v⟩
      rcases hw : (r.ownParts (.direct d) definition).run w₀ with ⟨result', w⟩
      rw [hv, hw] at hparts hbacked
      rw [hv] at hcreated htagMap
      obtain rfl : result = result' := agree_eq_iff.mp hparts
      have hafter : Progress.Backed known m v.progress w.progress :=
        ⟨hbacked.session, hbacked.instances, htagMap.trans h.tagMap, hcreated⟩
      rcases result with stop | ⟨own | own, scoping⟩
      · exact ⟨rfl, hafter.endInstance _⟩
      · dsimp only
        rw [hbacked.inst]
        exact ⟨rfl, hafter.endInstance _⟩
      · have hknown' := (Progress.Backed.lookups hknown).tagMap hafter
        dsimp only
        rw [hbacked.inst, hknown'.1, hknown'.2]
        obtain ⟨hbody, hend⟩ := (Progress.Backed.lookups hknown).expandForest likeness_eq ih _
          (List.forall₂_eq_eq_eq ▸ rfl) v.progress w.progress hafter
        rw [List.forall₂_eq_eq_eq, agree_eq_iff] at hbody
        rw [hbody]
        exact ⟨agree_eq_iff.mpr rfl, hend.endInstance _⟩

namespace Renderer

/--
**Nothing but the number of calls tells that there is a cache.** Suppose that all that is cached
belongs to instances that were created. Then a call leaves in the cache what was in it, whether or
not it fails. And if the render functions of all definitions that may be expanded are pure, the
algorithm that calls the render function for every request has the same answer and leaves the same
session: the same drawn indices, shared sheets, names and pending texts.
-/
theorem elementToTag_uncached (r : Renderer) (c : Catalog) (d : Deliveries) (depth : Nat)
    (definition : Definition) (attributes : Props) (theme : Option Theme) {p : Progress}
    (hp : p.CacheCreated) :
    let a := r.elementToTag c d depth definition attributes theme p
    let b := r.elementToTag c (.direct d) depth definition attributes theme p
    a.2.session.memo = p.session.memo ∧
      ((∀ x, p.MayExpand c definition x → x.Pure) → b.1 = a.1 ∧ b.2.session = a.2.session) := by
  have hkeeps := r.keepsCache_elementToTag c d depth definition attributes theme hp
  refine ⟨hkeeps.memo, fun hpure => ?_⟩
  have hstart : Progress.Backed (c.register definition p.session.tagMap) p.session.memo
      (p.register c definition) (p.register c definition) := ⟨rfl, rfl, rfl, hp⟩
  obtain ⟨hanswer, hend⟩ := lockstep_expand r d theme (fun hx => hpure _ (.inr ⟨_, hx⟩))
    p.session.memo depth definition (hpure definition (.inl rfl))
    (definition.resolvedTagName r.options.anonymousTagPrefix) attributes [] [] .nil _ _ hstart
  rw [elementToTag_eq] at hkeeps
  rw [elementToTag_eq, elementToTag_eq]
  rcases ha : (r.expand d theme depth definition
    (definition.resolvedTagName r.options.anonymousTagPrefix) attributes []).run
    (p.register c definition) with ⟨result, p'⟩
  rcases hb : (r.expand (.direct d) theme depth definition
    (definition.resolvedTagName r.options.anonymousTagPrefix) attributes []).run
    (p.register c definition) with ⟨result', q'⟩
  rw [ha, hb] at hanswer hend
  rw [ha] at hkeeps
  obtain rfl : result = result' := agree_eq_iff.mp hanswer
  have hmemo : ∀ s : Session, s.memo = p.session.memo → { s with memo := p.session.memo } = s := by
    rintro s hs
    rw [← hs]
  have hsession : q'.session = { p'.session with memo := p.session.memo } := hend.session
  rcases result with stop | n
  · refine ⟨rfl, ?_⟩
    dsimp only
    rw [hsession]
    exact hmemo _ hkeeps.memo
  · refine ⟨rfl, hsession.trans ?_⟩
    exact hmemo _ hkeeps.memo

end Renderer

/-! ## A template with three uses -/

namespace Sample

/-- A text that is a component's markup, and twice a sheet for it. It is computed only once. -/
def engraving : Template := .ofFunction 40 .onlyNever (.ofString "b{top:1}")

def medal : Definition where
  id := 4
  tagName := some "x-medal"
  html := some engraving
  css := [engraving, engraving]
  interface := ⟨[], ⟨false, false, false⟩⟩

def medals : Catalog := ⟨catalog.entries ++ [⟨medal, none⟩]⟩

theorem pure_ofString (markup : String) : (RenderFunction.ofString markup).Pure where
  result := fun _ _ _ _ _ _ _ _ => rfl
  ownAttributes := fun _ _ => rfl

theorem pure_medal : medal.Pure := by
  have honly : ∀ {t}, medal.HasTemplate t → t = engraving := by
    rintro t (⟨⟨⟩⟩ | ht)
    · rfl
    · simpa [medal] using ht
  refine ⟨fun ht hrun => ?_, fun ht ht' _ => ?_⟩
  · rw [honly ht] at hrun
    cases hrun
    exact pure_ofString _
  · rw [honly ht, honly ht']

end Sample

open Sample in
/-- The cache answers two of three requests, and leaves no other trace. -/
theorem elementToTag_uncached_medal :
    ∃ a b, reader.elementToTag medals Deliveries.none 1 medal ∅ none old = a ∧
      reader.elementToTag medals (.direct .none) 1 medal ∅ none old = b ∧
      old.CacheCreated ∧ (∀ x, old.MayExpand medals medal x → x.Pure) ∧
      a.1.toOption.isSome = true ∧ a.2.journal.calls.length = 1 ∧
      b.2.journal.calls.length = 3 ∧ a.2.session.memo = old.session.memo ∧
      b.1 = a.1 ∧ b.2.session = a.2.session := by
  have hold : old.CacheCreated := by
    simp [Progress.CacheCreated, old]
  have hvalues : (medals.register medal old.session.tagMap).values = [medal] := rfl
  have hpure : ∀ x, old.MayExpand medals medal x → x.Pure := by
    refine Progress.forall_mayExpand pure_medal ?_
    rw [hvalues]
    simp [pure_medal]
  obtain ⟨hmemo, hsame⟩ := reader.elementToTag_uncached medals .none 1 medal ∅ none hold
  exact ⟨_, _, rfl, rfl, hold, hpure, by decide +kernel, by decide +kernel, by decide +kernel,
    hmemo, hsame hpure⟩

end CustomElements
