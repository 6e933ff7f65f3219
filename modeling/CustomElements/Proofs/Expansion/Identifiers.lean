import CustomElements.Proofs.Expansion.Sheets
import CustomElements.Proofs.Markup.Scoping

/-!
# The identifiers of an occurrence

For each stylesheet template that it comes to, scoping finds an identifier. Those of shared sheets
are made of the tag name alone. The first sheet of the instance's own draws an index from the
counter of the definition, and its identifier is that of all other such sheets too. So an occurrence
draws one index or none, whether or not it stops, and its identifiers are told by the counter when
it begins (`Occurrence.parts_drawn`). These are the ones on its stylesheets and its markup
(`Occurrence.usesIds`).
-/

namespace CustomElements

/-- Some template makes sheets of this scope. -/
def hasScope (scope : Style.Scope) (templates : List Template) : Bool :=
  templates.any fun t => Style.Scope.ofMask t.mask == scope

@[simp] theorem hasScope_nil (scope : Style.Scope) : hasScope scope [] = false := rfl

@[simp] theorem hasScope_append (scope : Style.Scope) (ts us : List Template) :
    hasScope scope (ts ++ us) = (hasScope scope ts || hasScope scope us) := List.any_append

@[simp] theorem hasScope_singleton (scope : Style.Scope) (t : Template) :
    hasScope scope [t] = (Style.Scope.ofMask t.mask == scope) := by
  simp [hasScope]

/-- The identifiers that scoping finds, up to the template that stops. -/
def foundIds (d : Deliveries) (classPrefix : String) (definition : Nat) (emitGlobal : Bool) :
    List Template → StyleScoping → Work → List String
  | [], _, _ => []
  | t :: rest, done, w =>
    match (scopeId classPrefix definition (.ofMask t.mask) done).run w with
    | (.error _, _) => []
    | (.ok (id, _), _) =>
      id :: match (scopeSheet d classPrefix definition emitGlobal t done).run w with
        | (.ok done', w') => foundIds d classPrefix definition emitGlobal rest done' w'
        | (.error _, _) => []

namespace Occurrence

/-- The identifiers that scoping finds for the definition's templates, one after the other. -/
def ids (o : Occurrence) : List String :=
  match (o.renderer.ownMarkup o.deliveries o.definition).run o.start with
  | (.ok _, w) =>
    foundIds o.deliveries o.renderer.options.classPrefix o.definition.id o.emitsGlobal
      o.definition.css .none w
  | (.error _, _) => []

/-- The templates that scoping comes to. -/
def reached (o : Occurrence) : List Template := o.definition.css.take o.ids.length

/-- The index that the occurrence draws, if it draws one. -/
def index (o : Occurrence) : Nat := o.before.counter o.definition.id

/-- The occurrence draws an index of the definition: scoping comes to a sheet of its own. -/
def draws (o : Occurrence) (definition : Nat) : Bool :=
  o.definition.id == definition && hasScope .unique o.reached

/-- The identifier for sheets of this scope. -/
def idOf (o : Occurrence) : Style.Scope → String
  | .global => Style.globalId o.renderer.options.classPrefix o.start.inst.tagName
  | .unique => Style.uniqueId o.renderer.options.classPrefix o.start.inst.tagName o.index

/-! ## What scoping keeps -/

/-- The work when scoping has come to the templates in `seen`. -/
structure Drawn (o : Occurrence) (seen : List Template) (w : Work) : Prop where
  tagName : w.inst.tagName = o.start.inst.tagName
  /-- The first template with a sheet of the instance's own has drawn an index. -/
  counter : ∀ id, w.progress.session.counter id =
    o.before.counter id + if o.definition.id == id && hasScope .unique seen then 1 else 0

/-- What is done when scoping has gone through the templates in `seen`. -/
structure Scoped (o : Occurrence) (seen : List Template) (done : StyleScoping) : Prop where
  uniqueId : done.uniqueId = if hasScope .unique seen then some (o.idOf .unique) else none
  globalId : done.globalId = if hasScope .global seen then some (o.idOf .global) else none

/-- The sheet is the text of the template, confined to the occurrence. -/
def Confines (o : Occurrence) (t : Template) (sheet : ScopedSheet) : Prop :=
  ∃ w w' text parsed, (InstanceStep.renderText o.deliveries t).run w = (.ok (some text), w') ∧
    Style.Sheet.parse text = .ok parsed ∧
    sheet = ⟨parsed.scoped (o.idOf (.ofMask t.mask)), .ofMask t.mask⟩

end Occurrence

theorem InstanceStep.counters_renderText (d : Deliveries) (t : Template) (w : Work) :
    ((renderText d t).run w).2.progress.session.counters = w.progress.session.counters := by
  simp only [renderText, run_bind, run_get, run_set]
  split <;> rfl

theorem Session.counter_markGlobalEmitted (s : Session) (definition id : Nat) :
    (s.markGlobalEmitted definition).2.counter id = s.counter id := by
  rw [markGlobalEmitted_frame, counter, counter]

namespace Occurrence

variable {o : Occurrence} {seen : List Template} {t : Template} {done : StyleScoping} {w : Work}

theorem Drawn.renderText (h : o.Drawn seen w) (t : Template) :
    o.Drawn seen ((InstanceStep.renderText o.deliveries t).run w).2 where
  tagName := ((onlyGrows_renderText o.deliveries t) w).tagName_eq.trans h.tagName
  counter := by
    intro id
    rw [← h.counter id, Session.counter, InstanceStep.counters_renderText]
    rfl

/-- **The identifier for a template is told by its scope.** -/
theorem run_scopeId (hw : o.Drawn seen w) (hdone : o.Scoped seen done) (t : Template) :
    ∃ done' w', (scopeId o.renderer.options.classPrefix o.definition.id (.ofMask t.mask) done).run
        w = (.ok (o.idOf (.ofMask t.mask), done'), w') ∧
      o.Drawn (seen ++ [t]) w' ∧ o.Scoped (seen ++ [t]) done' ∧ done'.styles = done.styles := by
  have hdrawn := hw.counter
  simp only [scopeId, run_bind, run_get]
  rcases hscope : Style.Scope.ofMask t.mask with - | -
  · -- the identifier of shared sheets is the same whether or not it has been found before
    have hid : done.globalId.getD (Style.globalId o.renderer.options.classPrefix w.inst.tagName) =
        o.idOf .global := by
      rw [hdone.globalId, hw.tagName]
      split <;> rfl
    refine ⟨{ done with globalId := some (o.idOf .global) }, w, by simp only [hid, run_pure],
      ⟨hw.tagName, by simpa [hscope] using hdrawn⟩, ⟨?_, by simp [hscope]⟩, rfl⟩
    simp [hscope, hdone.uniqueId]
  · rcases hseen : hasScope .unique seen with - | -
    · -- the first sheet of the instance's own draws the index
      have hnone : done.uniqueId = none := by
        rw [hdone.uniqueId, hseen]
        rfl
      have hindex : w.progress.session.counter o.definition.id = o.index := by
        simpa [hseen, index] using hdrawn o.definition.id
      have hid : Style.uniqueId o.renderer.options.classPrefix w.inst.tagName
          (w.progress.session.counter o.definition.id) = o.idOf .unique := by
        rw [hindex, hw.tagName]
        rfl
      rw [hnone]
      let session := (w.progress.session.nextUniqueIndex o.definition.id).2
      refine ⟨{ done with uniqueId := some (o.idOf .unique) },
        { w with progress := { w.progress with session } }, by rw [← hid]; rfl,
        ⟨hw.tagName, fun id => ?_⟩, ⟨by simp [hscope], ?_⟩, rfl⟩
      · rw [Session.counter_nextUniqueIndex, hindex, hdrawn id]
        by_cases hown : id = o.definition.id
        · simp [hown, hscope, index]
        · simp [hown, hseen, Ne.symm hown]
      · simp [hscope, hdone.globalId]
    · -- and any other one finds the identifier made of it
      have hsome : done.uniqueId = some (o.idOf .unique) := by
        rw [hdone.uniqueId, hseen]
        rfl
      rw [hsome]
      refine ⟨done, w, rfl, ⟨hw.tagName, by simpa [hseen] using hdrawn⟩, ⟨?_, ?_⟩, rfl⟩
      · simp [hseen, hsome]
      · simp [hscope, hdone.globalId]

/-- What a template does, whether or not it stops, and what sheet it makes if it does not. -/
theorem run_scopeSheet (hw : o.Drawn seen w) (hdone : o.Scoped seen done) (emitGlobal : Bool)
    (t : Template) :
    let step := (scopeSheet o.deliveries o.renderer.options.classPrefix o.definition.id emitGlobal t
      done).run w
    o.Drawn (seen ++ [t]) step.2 ∧ ∀ done', step.1 = .ok done' →
      o.Scoped (seen ++ [t]) done' ∧ ∀ sheet ∈ done.added done', o.Confines t sheet := by
  obtain ⟨done₁, w₁, hid, hw₁, hdone₁, hstyles⟩ := run_scopeId hw hdone t
  -- no sheet is made of a shared one that is on record, nor of a template without a result
  have hnothing : ∀ done', Except.ok (ε := Stop) done₁ = .ok done' →
      o.Scoped (seen ++ [t]) done' ∧ ∀ sheet ∈ done.added done', o.Confines t sheet := by
    rintro _ ⟨⟩
    have hadd : done₁.styles =
        done.styles ++ ((none : Option ScopedSheet).map (Node.style ∅)).toList := by
      simp [hstyles]
    refine ⟨hdone₁, fun sheet hs => ?_⟩
    rw [StyleScoping.added_of_styles hadd] at hs
    cases hs
  simp only [scopeSheet, TextSource.cached_text, run_bind, hid]
  split
  · exact ⟨hw₁, hnothing⟩
  · have hrendered := hw₁.renderText t
    rw [run_bind]
    rcases hr : (InstanceStep.renderText o.deliveries t).run w₁ with ⟨stop | text, w₂⟩ <;>
      rw [hr] at hrendered
    · exact ⟨hrendered, by simp⟩
    · rcases text with - | css
      · exact ⟨hrendered, hnothing⟩
      · dsimp only
        split
        · exact ⟨hrendered, fun _ h => by cases h⟩
        · rename_i parsed hparsed
          refine ⟨hrendered, ?_⟩
          rintro _ ⟨⟩
          let made : ScopedSheet := ⟨parsed.scoped (o.idOf (.ofMask t.mask)), .ofMask t.mask⟩
          have hadd : done₁.styles ++ [Node.style ∅ made] =
              done.styles ++ ((some made).map (Node.style ∅)).toList := by
            simp [hstyles]
          refine ⟨⟨hdone₁.uniqueId, hdone₁.globalId⟩, fun sheet hs => ?_⟩
          rw [StyleScoping.added_of_styles hadd] at hs
          cases hs
          exact ⟨w₁, w₂, css, parsed, hr, hparsed, rfl⟩

/-- The templates from `rest` that scoping comes to, and what it finds and makes for them. -/
theorem run_scopeSheets (hw : o.Drawn seen w) (hdone : o.Scoped seen done) (emitGlobal : Bool)
    (rest : List Template) :
    let classPrefix := o.renderer.options.classPrefix
    let ids := foundIds o.deliveries classPrefix o.definition.id emitGlobal rest done w
    let step := (scopeSheets o.deliveries classPrefix o.definition.id emitGlobal rest done).run w
    ids = (rest.take ids.length).map (fun t => o.idOf (.ofMask t.mask)) ∧
      o.Drawn (seen ++ rest.take ids.length) step.2 ∧ ∀ done', step.1 = .ok done' →
        ids.length = rest.length ∧ o.Scoped (seen ++ rest) done' ∧
        List.Forall₂ (fun t made => ∀ sheet ∈ made, o.Confines t sheet) rest
          (madeSheets o.deliveries classPrefix o.definition.id emitGlobal rest done w) := by
  -- the templates that scoping has come to are moved from `rest` to `seen` one by one
  induction rest generalizing seen done w with
  | nil =>
      simp only [scopeSheets, run_pure, List.take_nil, List.append_nil]
      refine ⟨rfl, hw, ?_⟩
      rintro _ ⟨⟩
      exact ⟨rfl, hdone, .nil⟩
  | cons t rest ih =>
      obtain ⟨_, _, hid, -⟩ := run_scopeId hw hdone t
      obtain ⟨hdrawn, hscoped⟩ := run_scopeSheet hw hdone emitGlobal t
      simp only [foundIds, scopeSheets, madeSheets, run_bind, hid]
      rcases hs : (scopeSheet o.deliveries o.renderer.options.classPrefix o.definition.id emitGlobal
        t done).run w with ⟨stop | done₁, w₁⟩ <;> rw [hs] at hdrawn hscoped
      · exact ⟨by simp, by simpa using hdrawn, fun _ h => by cases h⟩
      · obtain ⟨hdone₁, hconfines⟩ := hscoped done₁ rfl
        obtain ⟨hids, hlast, hall⟩ := ih hdrawn hdone₁
        dsimp only
        refine ⟨?_, by simpa using hlast, fun done' hok => ?_⟩
        · rw [List.length_cons, List.take_succ_cons, List.map_cons, ← hids]
        · obtain ⟨hlength, hdone', hmade⟩ := hall done' hok
          refine ⟨by simp [hlength], by simpa using hdone', .cons hconfines hmade⟩

/-- To render the own markup draws no index and puts no sheet on record. -/
theorem ownMarkup_frame (o : Occurrence) :
    o.Drawn [] ((o.renderer.ownMarkup o.deliveries o.definition).run o.start).2 ∧
      ((o.renderer.ownMarkup o.deliveries o.definition).run o.start).2.progress.session.emitted =
        o.before.emitted := by
  have hstart : o.Drawn [] o.start := ⟨rfl, by simp [before]⟩
  unfold Renderer.ownMarkup
  split
  · exact ⟨hstart, rfl⟩
  · rename_i t _
    have hdrawn := hstart.renderText t
    have hemitted := InstanceStep.emitted_renderText o.deliveries t o.start
    rw [TextSource.cached_text, run_bind]
    rcases hr : (InstanceStep.renderText o.deliveries t).run o.start with ⟨stop | text, w⟩ <;>
      rw [hr] at hdrawn hemitted
    · exact ⟨hdrawn, hemitted⟩
    · dsimp only
      split <;> exact ⟨hdrawn, hemitted⟩

/-- When scoping is done, a first expansion is put on record, which draws no index. -/
theorem run_scopeStyles (hemitted : w.progress.session.emitted = o.before.emitted) :
    let classPrefix := o.renderer.options.classPrefix
    let sheets := (scopeSheets o.deliveries classPrefix o.definition.id o.emitsGlobal
      o.definition.css .none).run w
    let step := (scopeStyles o.deliveries classPrefix o.definition).run w
    step.1 = sheets.1 ∧ ∀ seen, o.Drawn seen sheets.2 → o.Drawn seen step.2 := by
  have hfirst : (!w.progress.session.isGlobalEmitted o.definition.id) = o.emitsGlobal := by
    rw [emitsGlobal, Session.isGlobalEmitted, hemitted]
    rfl
  simp only [scopeStyles, run_bind, run_get, hfirst]
  rcases (scopeSheets o.deliveries o.renderer.options.classPrefix o.definition.id o.emitsGlobal
    o.definition.css .none).run w with ⟨stop | done, w₁⟩
  · exact ⟨rfl, fun _ h => h⟩
  · dsimp only
    split
    · refine ⟨rfl, fun seen h => ⟨h.tagName, fun id => ?_⟩⟩
      rw [← h.counter id]
      exact Session.counter_markGlobalEmitted w₁.progress.session o.definition.id id
    · exact ⟨rfl, fun _ h => h⟩

/-- What an occurrence finds and draws, and what comes of it if its parts are rendered. -/
theorem parts_drawn (o : Occurrence) :
    o.ids = o.reached.map (fun t => o.idOf (.ofMask t.mask)) ∧ o.Drawn o.reached o.parts.2 ∧
      ∀ own scoping w, o.parts = (.ok (own, scoping), w) →
        o.reached = o.definition.css ∧ o.Scoped o.definition.css scoping ∧
        List.Forall₂ (fun t made => ∀ sheet ∈ made, o.Confines t sheet)
          o.definition.css o.made := by
  obtain ⟨hmarkup, hemitted⟩ := o.ownMarkup_frame
  rw [reached, ids, parts, made, Renderer.ownParts, run_bind]
  rcases hm : (o.renderer.ownMarkup o.deliveries o.definition).run o.start with ⟨stop | own, w₁⟩ <;>
    rw [hm] at hmarkup hemitted <;> dsimp only
  · exact ⟨rfl, hmarkup, by simp⟩
  · obtain ⟨hids, hsheets, hall⟩ :=
      run_scopeSheets hmarkup (show o.Scoped [] .none from ⟨rfl, rfl⟩) o.emitsGlobal
        o.definition.css
    obtain ⟨hresult, hdrawn⟩ := run_scopeStyles hemitted
    -- putting shared sheets on record comes last and draws nothing
    have hlast := hdrawn _ hsheets
    rw [run_bind]
    rw [← hresult] at hall
    rcases hs : (scopeStyles o.deliveries o.renderer.options.classPrefix o.definition).run w₁
      with ⟨stop | scoping, w₂⟩ <;> rw [hs] at hlast hall
    · exact ⟨hids, hlast, fun _ _ _ h => by cases h⟩
    · refine ⟨hids, hlast, ?_⟩
      rintro _ _ _ ⟨⟩
      obtain ⟨hlength, hscoped, hmade⟩ := hall scoping rfl
      exact ⟨by rw [hlength, List.take_length], hscoped, hmade⟩

/-! ## What the identifiers are used for -/

/-- The own markup and the stylesheets of an occurrence carry its identifiers. -/
structure Carries (o : Occurrence) (own : Option (List Node)) (scoping : StyleScoping)
    (tags : TagMap) : Prop where
  /-- Scoping has come to all templates. -/
  reached : o.reached = o.definition.css
  /-- There is a class for each scope of which there is a template. -/
  classes : scoping.classes =
    (if hasScope .unique o.definition.css then [o.idOf .unique] else []) ++
      if hasScope .global o.definition.css then [o.idOf .global] else []
  /-- Every sheet is confined to the identifier for its scope. -/
  styles : ∃ made : List (Option ScopedSheet),
    scoping.styles = made.reduceOption.map (Node.style ∅) ∧
      List.Forall₂ (fun t made => ∀ sheet ∈ made, o.Confines t sheet) o.definition.css made
  /-- The content goes into markup in which the component's own elements have the classes. -/
  markup : ∀ nodes, own = some nodes → ∃ marked,
    o.distribute nodes scoping tags = .resolve marked o.content ∧
      Node.ownTagsForest tags.contains marked =
        (Node.ownTagsForest tags.contains nodes).map (·.withClasses scoping.classes)

/-- An occurrence uses its identifiers, and no others, wherever it uses one. -/
structure UsesIds (o : Occurrence) : Prop where
  /-- Scoping comes to the templates one after the other. -/
  reached : o.reached <+: o.definition.css
  ids : o.ids = o.reached.map fun t => o.idOf (.ofMask t.mask)
  /-- An index is drawn exactly if scoping comes to a sheet of the instance's own. -/
  counter : ∀ id, o.after.counter id = o.before.counter id + if o.draws id then 1 else 0
  keeps : hasScope .unique o.definition.css = false → o.after.counter = o.before.counter
  carries : ∀ own scoping w, o.parts = (.ok (own, scoping), w) →
    o.Carries own scoping w.progress.session.tagMap

theorem hasScope_of_prefix {scope : Style.Scope} {ts us : List Template} (h : ts <+: us)
    (hus : hasScope scope us = false) : hasScope scope ts = false := by
  obtain ⟨vs, rfl⟩ := h
  rw [hasScope_append, Bool.or_eq_false_iff] at hus
  exact hus.1

theorem Scoped.classes (h : o.Scoped seen done) : done.classes =
    (if hasScope .unique seen then [o.idOf .unique] else []) ++
      if hasScope .global seen then [o.idOf .global] else [] := by
  rw [StyleScoping.classes, h.uniqueId, h.globalId]
  congr 1 <;> split <;> rfl

/-- **Every occurrence uses its identifiers consistently.** -/
theorem usesIds (o : Occurrence) : o.UsesIds := by
  obtain ⟨hids, hdrawn, hparts⟩ := o.parts_drawn
  have hreaches : o.reached <+: o.definition.css := List.take_prefix _ _
  refine ⟨hreaches, hids, hdrawn.counter, fun hnone => ?_, fun own scoping w h => ?_⟩
  · funext id
    simpa [after, hasScope_of_prefix hreaches hnone] using hdrawn.counter id
  obtain ⟨hreached, hscoped, hmade⟩ := hparts own scoping w h
  obtain ⟨-, hstyles, -, -⟩ := parts_ok h
  exact ⟨hreached, hscoped.classes, ⟨o.made, hstyles, hmade⟩,
    fun nodes _ => ⟨_, rfl, ownTags_scopeMarkup _ _ nodes⟩⟩

end Occurrence

/-! ## Tag names -/

/-- If known names fit their definitions, every component goes by a name that fits it. -/
theorem Expands.named {r : Renderer} {d : Deliveries} {theme : Option Theme} {task : Task}
    {p p' : Progress} {result : Except Stop (List Node)} {os : List Occurrence}
    (h : Expands r d theme task p result p' os) {fits : String → Definition → Prop}
    {known : TagMap} (hknown : p.session.tagMap = known)
    (hfits : ∀ name definition, known.get? name = some definition → fits name definition)
    (htask : task.Named fits) :
    ∀ o ∈ os, o.renderer = r ∧ fits o.start.inst.tagName o.definition := by
  intro o ho
  obtain ⟨_, _, _, _, _, -, hname, rfl⟩ := (kept_tagMap known).begins h
    (fun hq hlookup => hfits _ _ (hq ▸ hlookup)) hknown htask o ho
  exact ⟨rfl, hname⟩

end CustomElements
