import CustomElements.Proofs.Expansion.Ledger
import CustomElements.Proofs.Markup.Distribution
import Mathlib.Data.List.Forall2
import Mathlib.Data.List.ReduceOption

/-!
# The stylesheets of an occurrence

Scoping goes through the stylesheet templates of a definition in order, and each of them makes one
`<style>` element or none. `Occurrence.made` tells, for each entry of the list, what it made. If the
occurrence's parts are rendered without a stop, an entry has made a sheet exactly if its template
renders and it is not a shared sheet that the session has written before (`Makes`), and the shared
sheets are on record from then on (`Occurrence.parts_ok`).
-/

namespace CustomElements

/-! ## One template -/

/-- A template has a text exactly if it has a render function. -/
theorem Memo.isSome_value_render {m : Memo} {j : Journal} {t : Template} {reason : Change}
    {inst : Instance} {templater : Nat} {answer : Memoized RenderResult}
    (h : (m.render j t reason inst templater).answer = .ok answer) :
    answer.value.isSome = t.run?.isSome := by
  unfold render at h
  split at h
  · rename_i hrun
    cases h
    rw [hrun]
    rfl
  · rename_i run hrun
    rw [hrun]
    dsimp only at h
    split at h
    · cases h
      rfl
    · split at h
      · cases h
        rfl
      · cases h

theorem Memoized.isSome_value_mapM {α β ε : Type} {f : α → Except ε β} {m : Memoized α}
    {m' : Memoized β} (h : m.mapM f = .ok m') : m'.value.isSome = m.value.isSome := by
  obtain ⟨changed, value⟩ := m
  rcases value with - | v
  · cases h
    rfl
  · rcases hf : f v with e | w <;> simp only [mapM, hf, Except.map] at h <;> cases h
    rfl

theorem InstanceStep.isSome_renderText {d : Deliveries} {t : Template} {w w' : Work}
    {text : Option String} (h : (renderText d t).run w = (.ok text, w')) :
    text.isSome = t.run?.isSome := by
  simp only [renderText, run_bind, run_get, run_set] at h
  split at h
  · rename_i answer ha
    cases h
    rw [Option.isSome_map]
    simp only [Session.renderText, Memo.renderText] at ha
    split at ha
    · rename_i result hr
      rw [Memoized.isSome_value_mapM ha, Memo.isSome_value_render hr]
    · cases ha
  · cases h

theorem InstanceStep.emitted_renderText (d : Deliveries) (t : Template) (w : Work) :
    ((renderText d t).run w).2.progress.session.emitted = w.progress.session.emitted := by
  simp only [renderText, run_bind, run_get, run_set]
  split <;> rfl

/-- To find an identifier never fails, makes no sheet and puts nothing on record. -/
theorem scopeId_ok (classPrefix : String) (definition : Nat) (scope : Style.Scope)
    (done : StyleScoping) (w : Work) :
    ∃ id done' w', (scopeId classPrefix definition scope done).run w = (.ok (id, done'), w') ∧
      done'.styles = done.styles ∧
      (done'.globalId.isSome = true ↔ done.globalId.isSome = true ∨ scope = .global) ∧
      w'.progress.session.emitted = w.progress.session.emitted := by
  simp only [scopeId, run_bind, run_get]
  rcases scope with - | -
  · exact ⟨_, _, w, rfl, rfl, by simp, rfl⟩
  · rcases done.uniqueId with - | id
    · exact ⟨_, _, _, rfl, rfl, by simp, rfl⟩
    · exact ⟨_, _, w, rfl, rfl, by simp, rfl⟩

/-- What a template makes of itself: shared sheets are made only if they are to be written. -/
structure Makes (emitGlobal : Bool) (t : Template) (made : Option ScopedSheet) : Prop where
  isSome : made.isSome = true ↔
    t.run?.isSome = true ∧ (Style.Scope.ofMask t.mask = .global → emitGlobal = true)
  scope : ∀ sheet ∈ made, sheet.scope = .ofMask t.mask

/-- The sheet that was added by one template. -/
def StyleScoping.added (done done' : StyleScoping) : Option ScopedSheet :=
  match done'.styles.drop done.styles.length with
  | .style _ sheet :: _ => some sheet
  | _ => .none

theorem StyleScoping.added_of_styles {done done' : StyleScoping} {made : Option ScopedSheet}
    (h : done'.styles = done.styles ++ (made.map (Node.style ∅)).toList) :
    done.added done' = made := by
  rw [added, h, List.drop_left]
  rcases made with - | sheet <;> rfl

theorem scopeSheet_ok {d : Deliveries} {classPrefix : String} {definition : Nat} {emitGlobal : Bool}
    {t : Template} {done done' : StyleScoping} {w w' : Work}
    (h : (scopeSheet d classPrefix definition emitGlobal t done).run w = (.ok done', w')) :
    Makes emitGlobal t (done.added done') ∧
      done'.styles = done.styles ++ ((done.added done').map (Node.style ∅)).toList ∧
      (done'.globalId.isSome = true ↔
        done.globalId.isSome = true ∨ Style.Scope.ofMask t.mask = .global) ∧
      w'.progress.session.emitted = w.progress.session.emitted := by
  obtain ⟨id, done₁, w₁, hid, hstyles, hglobal, hemitted⟩ :=
    scopeId_ok classPrefix definition (.ofMask t.mask) done w
  simp only [scopeSheet, TextSource.cached_text, run_bind, hid] at h
  -- it is enough to say which sheet comes behind those that are there
  suffices hmade : ∃ made, Makes emitGlobal t made ∧
      done'.styles = done.styles ++ (made.map (Node.style ∅)).toList ∧
      done'.globalId = done₁.globalId ∧
      w'.progress.session.emitted = w.progress.session.emitted by
    obtain ⟨made, hmakes, hadd, hid', he⟩ := hmade
    rw [StyleScoping.added_of_styles hadd, hid']
    exact ⟨hmakes, hadd, hglobal, he⟩
  split at h
  · rename_i hskip
    cases h
    refine ⟨none, ⟨?_, by simp⟩, by simp [hstyles], rfl, hemitted⟩
    simp only [Option.isSome_none, Bool.false_eq_true, false_iff, not_and]
    exact fun _ hall => hskip.2 (hall hskip.1)
  · rename_i hkeep
    have hall : Style.Scope.ofMask t.mask = .global → emitGlobal = true := by
      intro hs
      by_contra he
      exact hkeep ⟨hs, he⟩
    rw [run_bind] at h
    have hrendered := InstanceStep.emitted_renderText d t w₁
    rcases hr : (InstanceStep.renderText d t).run w₁ with ⟨stop | text, w₂⟩ <;>
      rw [hr] at h hrendered
    · cases h
    · have htext := InstanceStep.isSome_renderText hr
      rcases text with - | css
      · cases h
        refine ⟨none, ⟨?_, by simp⟩, by simp [hstyles], rfl, hrendered.trans hemitted⟩
        simp [← htext]
      · dsimp only at h
        split at h
        · cases h
        · rename_i sheet hsheet
          cases h
          refine ⟨some ⟨sheet.scoped id, .ofMask t.mask⟩, ⟨?_, by simp⟩, ?_, rfl,
            hrendered.trans hemitted⟩
          · simpa [← htext] using hall
          · simp [hstyles, Node.ofSheet]

/-! ## All templates of a definition -/

/-- What each of the templates makes, up to the first one that stops. -/
def madeSheets (d : Deliveries) (classPrefix : String) (definition : Nat) (emitGlobal : Bool) :
    List Template → StyleScoping → Work → List (Option ScopedSheet)
  | [], _, _ => []
  | t :: rest, done, w =>
    match (scopeSheet d classPrefix definition emitGlobal t done).run w with
    | (.ok done', w') =>
      done.added done' :: madeSheets d classPrefix definition emitGlobal rest done' w'
    | (.error _, _) => []

/-- Some template's sheets are shared. -/
def Definition.sharesSheets (definition : Definition) : Bool :=
  definition.css.any fun t => Style.Scope.ofMask t.mask == .global

theorem scopeSheets_ok {d : Deliveries} {classPrefix : String} {definition : Nat}
    {emitGlobal : Bool} {templates : List Template} {done done' : StyleScoping} {w w' : Work}
    (h : (scopeSheets d classPrefix definition emitGlobal templates done).run w =
      (.ok done', w')) :
    let made := madeSheets d classPrefix definition emitGlobal templates done w
    List.Forall₂ (Makes emitGlobal) templates made ∧
      done'.styles = done.styles ++ made.reduceOption.map (Node.style ∅) ∧
      (done'.globalId.isSome = true ↔ done.globalId.isSome = true ∨
        ∃ t ∈ templates, Style.Scope.ofMask t.mask = .global) ∧
      w'.progress.session.emitted = w.progress.session.emitted := by
  -- template by template; what was found so far is in `done`
  induction templates generalizing done w with
  | nil =>
      cases h
      exact ⟨.nil, by simp [madeSheets], by simp, rfl⟩
  | cons t rest ih =>
      rw [scopeSheets, run_bind] at h
      rcases hs : (scopeSheet d classPrefix definition emitGlobal t done).run w
        with ⟨stop | done₁, w₁⟩ <;> rw [hs] at h
      · cases h
      · obtain ⟨hmakes, hstyles, hglobal, hemitted⟩ := scopeSheet_ok hs
        obtain ⟨hrest, hstyles', hglobal', hemitted'⟩ := ih h
        intro made
        have hmade : made = done.added done₁ ::
            madeSheets d classPrefix definition emitGlobal rest done₁ w₁ := by
          simp only [made, madeSheets, hs]
        rw [hmade]
        refine ⟨.cons hmakes hrest, ?_, ?_, hemitted'.trans hemitted⟩
        · rw [hstyles', hstyles, List.append_assoc]
          rcases done.added done₁ with - | sheet <;> simp
        · rw [hglobal', hglobal, or_assoc]
          simp

/-- The stylesheets of an instance, and what is on record when they are made. -/
theorem scopeStyles_ok {d : Deliveries} {classPrefix : String} {definition : Definition}
    {scoping : StyleScoping} {w w' : Work}
    (h : (scopeStyles d classPrefix definition).run w = (.ok scoping, w')) :
    let emitGlobal := !w.progress.session.isGlobalEmitted definition.id
    let made := madeSheets d classPrefix definition.id emitGlobal definition.css .none w
    List.Forall₂ (Makes emitGlobal) definition.css made ∧
      scoping.styles = made.reduceOption.map (Node.style ∅) ∧
      w'.progress.session.emitted =
        if emitGlobal && definition.sharesSheets then definition.id :: w.progress.session.emitted
        else w.progress.session.emitted := by
  intro emitGlobal made
  simp only [scopeStyles, run_bind, run_get] at h
  rcases hs : (scopeSheets d classPrefix definition.id emitGlobal definition.css .none).run w
    with ⟨stop | done, w₁⟩ <;> simp only [emitGlobal] at hs <;> rw [hs] at h
  · cases h
  · obtain ⟨hmakes, hstyles, hglobal, hemitted⟩ := scopeSheets_ok hs
    -- that a shared identifier was found means that some template makes shared sheets
    have hshares : done.globalId.isSome = definition.sharesSheets := by
      rw [Bool.eq_iff_iff, hglobal]
      simp [StyleScoping.none, Definition.sharesSheets]
    refine ⟨hmakes, ?_⟩
    dsimp only at h
    rw [hshares] at h
    split at h
    · rename_i hrecord
      cases h
      -- making the sheets put nothing on record, so the definition is still new there
      have hnew : w₁.progress.session.isGlobalEmitted definition.id = false := by
        have hfirst : (!w.progress.session.isGlobalEmitted definition.id) = true := hrecord.1
        rw [Session.isGlobalEmitted, hemitted]
        simpa [Session.isGlobalEmitted] using hfirst
      refine ⟨hstyles, ?_⟩
      rw [if_pos (by simpa [emitGlobal] using hrecord), ← hemitted]
      change ((w₁.progress.session.markGlobalEmitted definition.id).2).emitted = _
      rw [Session.markGlobalEmitted, hnew]
      rfl
    · rename_i hkeep
      cases h
      refine ⟨hstyles, ?_⟩
      rw [if_neg (by simpa [emitGlobal] using hkeep)]
      exact hemitted

/-! ## Occurrences -/

/-- The own markup is read by the renderer's parser. To render it puts no sheet on record. -/
theorem Renderer.ownMarkup_ok {r : Renderer} {d : Deliveries} {definition : Definition}
    {own : Option (List Node)} {w w' : Work}
    (h : (r.ownMarkup d definition).run w = (.ok own, w')) :
    (∀ nodes ∈ own, ∃ markup, nodes = r.parse markup) ∧
      w'.progress.session.emitted = w.progress.session.emitted := by
  obtain ⟨-, rfl, rfl⟩ | ⟨t, text, -, htext, hown⟩ := ownMarkup_cases h
  · exact ⟨by simp, rfl⟩
  · have hemitted := InstanceStep.emitted_renderText d t w
    rw [htext] at hemitted
    obtain ⟨-, rfl⟩ | ⟨-, rfl⟩ := hown
    · refine ⟨fun nodes hn => ?_, hemitted⟩
      rw [Option.mem_def, Option.map_eq_some_iff] at hn
      obtain ⟨markup, -, rfl⟩ := hn
      exact ⟨markup, rfl⟩
    · exact ⟨by simp, hemitted⟩

namespace Occurrence

/-- The shared sheets of the definition are still to be written. -/
def emitsGlobal (o : Occurrence) : Bool := !o.before.isGlobalEmitted o.definition.id

/-- What each entry of the definition's stylesheets makes. -/
def made (o : Occurrence) : List (Option ScopedSheet) :=
  madeSheets o.deliveries o.renderer.options.classPrefix o.definition.id o.emitsGlobal
    o.definition.css .none ((o.renderer.ownMarkup o.deliveries o.definition).run o.start).2

/-- **What an occurrence makes, and what it puts on record.** -/
theorem parts_ok {o : Occurrence} {own : Option (List Node)} {scoping : StyleScoping} {w : Work}
    (h : o.parts = (.ok (own, scoping), w)) :
    List.Forall₂ (Makes o.emitsGlobal) o.definition.css o.made ∧
      scoping.styles = o.made.reduceOption.map (Node.style ∅) ∧
      (∀ nodes ∈ own, ∃ markup, nodes = o.renderer.parse markup) ∧
      o.after.emitted =
        if o.emitsGlobal && o.definition.sharesSheets then o.definition.id :: o.before.emitted
        else o.before.emitted := by
  obtain ⟨w₁, hmarkup, hs⟩ := parts_stages h
  obtain ⟨hparse, hemitted⟩ := Renderer.ownMarkup_ok hmarkup
  obtain ⟨hmakes, hstyles, hrecord⟩ := scopeStyles_ok hs
  have hfirst : (!w₁.progress.session.isGlobalEmitted o.definition.id) = o.emitsGlobal := by
    rw [emitsGlobal, Session.isGlobalEmitted, hemitted]
    rfl
  rw [hfirst] at hmakes hstyles hrecord
  rw [hemitted] at hrecord
  rw [after, made, h, hmarkup]
  exact ⟨hmakes, hstyles, hparse, hrecord⟩

end Occurrence

end CustomElements
