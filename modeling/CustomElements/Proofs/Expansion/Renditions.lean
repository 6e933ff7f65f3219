import CustomElements.Proofs.Expansion.Sheets
import CustomElements.Proofs.Markup.Passages

/-!
# What templates are rendered to

The templates of a component are rendered to texts, and these are read: one as the component's own
markup, the others as its stylesheets. A `Rendition` is such a text with the passages that come into
the tree because of it. There are none if the markup is detached or if no stylesheets are written.

The pending texts in a text go to the session when it is rendered, whatever it is read as. So the
renditions of an occurrence tell what it adds to the session's pending texts, and also what it
brings into the tree (`Occurrence.renditions_ok`).
-/

namespace CustomElements

/-- The text of a template, and what is made of it. -/
structure Rendition where
  text : CoercedText
  /-- The passages that come into the tree. -/
  passages : List String

/-! ## Pending texts in a text -/

/-- What is written for the pending texts of a text now stands in the text. -/
def CoercedText.Holds (d : Deliveries) (text : CoercedText) : Prop :=
  ∀ x ∈ text.pending, (d.current x).toList <:+: text.text.toList

namespace CoercedText

variable {d : Deliveries}

theorem holds_ofString (s : String) : (ofString s).Holds d := fun _ hx => absurd hx List.not_mem_nil

theorem Holds.append {a b : CoercedText} (ha : a.Holds d) (hb : b.Holds d) : (a ++ b).Holds d := by
  intro x hx
  change _ <:+: (a.text ++ b.text).toList
  rw [String.toList_append]
  rcases List.mem_append.mp hx with hx | hx
  · exact (ha x hx).trans (List.prefix_append _ _).isInfix
  · exact (hb x hx).trans (List.suffix_append _ _).isInfix

end CoercedText

mutual

theorem Interpolation.holds_coerce (d : Deliveries) : (v : Interpolation) → (v.coerce d).Holds d
  | .text _ | .value _ | .element _ => CoercedText.holds_ofString _
  | .fragment head rest => .append (CoercedText.holds_ofString head) (holds_coerceRest d rest)
  | .list items => holds_coerceList d items
  | .pending p => fun x hx => by
      rw [List.mem_singleton.mp hx]
      exact List.infix_refl _

theorem Interpolation.holds_coerceList (d : Deliveries) :
    (items : List Interpolation) → (coerceList d items).Holds d
  | [] => CoercedText.holds_ofString ""
  | v :: rest => .append (holds_coerce d v) (holds_coerceList d rest)

theorem Interpolation.holds_coerceRest (d : Deliveries) :
    (rest : List (Interpolation × String)) → (coerceRest d rest).Holds d
  | [] => CoercedText.holds_ofString ""
  | (v, s) :: rest => .append (.append (holds_coerce d v) (CoercedText.holds_ofString s))
      (holds_coerceRest d rest)

end

theorem RenderResult.holds_coerce {d : Deliveries} {result : RenderResult} {text : CoercedText}
    (h : result.coerce d = .ok text) : text.Holds d := by
  unfold coerce at h
  split at h
  · cases h
    exact Interpolation.holds_coerce d _
  · cases h
    exact CoercedText.holds_ofString _
  · cases h
    exact CoercedText.holds_ofString _
  · rename_i v
    rcases hv : dataText v with e | s <;> rw [hv] at h <;> cases h
    exact CoercedText.holds_ofString _

/-! ## Rendering a template -/

/-- The text in an answer. -/
def Session.textIn : Except RenderError (Memoized CoercedText) → Option CoercedText
  | .ok answer => answer.value
  | .error _ => none

theorem Session.pendingOf_eq (answer : Except RenderError (Memoized CoercedText)) :
    pendingOf answer = (textIn answer).toList.flatMap (·.pending) := by
  rcases answer with e | ⟨changed, _ | text⟩
  · rfl
  · rfl
  · exact (List.flatMap_singleton _ _).symm

namespace InstanceStep

/-- What a template is rendered to, if it is rendered now. -/
def textOf (d : Deliveries) (t : Template) (w : Work) : Option CoercedText :=
  Session.textIn (w.progress.session.renderText w.progress.journal d t .force w.inst).answer

theorem holds_textOf {d : Deliveries} {t : Template} {w : Work} {text : CoercedText}
    (h : textOf d t w = some text) : text.Holds d := by
  simp only [textOf, Session.renderText, Memo.renderText] at h
  split at h
  · rename_i result _
    rcases hvalue : result.value with - | v <;> simp only [Memoized.mapM, hvalue] at h
    · cases h
    · rcases hv : v.coerce d with kind | text' <;> rw [hv] at h <;> cases h
      exact RenderResult.holds_coerce hv
  · cases h

/-- The pending texts go to the session as soon as the text is rendered. -/
theorem renderText_ok {d : Deliveries} {t : Template} {w w' : Work} {text : Option String}
    (h : (renderText d t).run w = (.ok text, w')) :
    text = (textOf d t w).map (·.text) ∧ w'.progress.session.pending =
      w.progress.session.pending ++ (textOf d t w).toList.flatMap (·.pending) := by
  simp only [renderText, run_bind, run_get, run_set] at h
  rcases ha : (w.progress.session.renderText w.progress.journal d t .force w.inst).answer
    with e | answer <;> rw [ha] at h <;> cases h
  refine ⟨by rw [textOf, ha]; rfl, ?_⟩
  rw [textOf, ← Session.pendingOf_eq]
  rfl

end InstanceStep

/-! ## The renditions of an occurrence -/

/-- What a stylesheet of an instance is rendered to, unless it is shared and left out. -/
def sheetRendition (d : Deliveries) (classPrefix : String) (definition : Nat) (emitGlobal : Bool)
    (t : Template) (done : StyleScoping) (w : Work) : Option Rendition :=
  match (scopeId classPrefix definition (.ofMask t.mask) done).run w with
  | (.error _, _) => none
  | (.ok (id, _), w) =>
    if Style.Scope.ofMask t.mask = .global ∧ ¬ emitGlobal then none
    else (InstanceStep.textOf d t w).map fun text => ⟨text, match Style.Sheet.parse text.text with
      | .ok sheet => [(sheet.scoped id).render]
      | .error _ => []⟩

/-- What stylesheets are rendered to, one after the other. -/
def sheetRenditions (d : Deliveries) (classPrefix : String) (definition : Nat)
    (emitGlobal : Bool) : List Template → StyleScoping → Work → List Rendition
  | [], _, _ => []
  | t :: rest, done, w =>
    (sheetRendition d classPrefix definition emitGlobal t done w).toList ++
      match (scopeSheet d classPrefix definition emitGlobal t done).run w with
      | (.error _, _) => []
      | (.ok done, w) => sheetRenditions d classPrefix definition emitGlobal rest done w

theorem pending_scopeId (classPrefix : String) (definition : Nat) (scope : Style.Scope)
    (done : StyleScoping) (w : Work) :
    ((scopeId classPrefix definition scope done).run w).2.progress.session.pending =
      w.progress.session.pending := by
  simp only [scopeId, run_bind, run_get]
  split <;> rfl

theorem sheetRendition_ok {d : Deliveries} {classPrefix : String} {definition : Nat}
    {emitGlobal : Bool} {t : Template} {done done' : StyleScoping} {w w' : Work}
    (h : (scopeSheet d classPrefix definition emitGlobal t done).run w = (.ok done', w')) :
    let made := (sheetRendition d classPrefix definition emitGlobal t done w).toList
    w'.progress.session.pending = w.progress.session.pending ++
        made.flatMap (·.text.pending) ∧
      Node.passagesForest done'.styles = Node.passagesForest done.styles ++
        made.flatMap Rendition.passages := by
  obtain ⟨id, done₁, w₁, hid, hstyles, -, -⟩ :=
    scopeId_ok classPrefix definition (.ofMask t.mask) done w
  have hpending := pending_scopeId classPrefix definition (.ofMask t.mask) done w
  rw [hid] at hpending
  dsimp only at hpending
  simp only [scopeSheet, TextSource.cached_text, run_bind, hid] at h
  simp only [sheetRendition, hid]
  rw [← hpending, ← hstyles]
  -- a shared sheet that is left out is not rendered, so nothing of it is reported either
  split at h
  · rename_i hskip
    cases h
    simp [hskip]
  · rename_i hkeep
    rw [if_neg hkeep]
    rw [run_bind] at h
    rcases hr : (InstanceStep.renderText d t).run w₁ with ⟨stop | text, w₂⟩ <;> rw [hr] at h
    · cases h
    · obtain ⟨rfl, hrendered⟩ := InstanceStep.renderText_ok hr
      rcases htext : InstanceStep.textOf d t w₁ with - | text <;> rw [htext] at h hrendered
      · cases h
        simpa using hrendered
      · dsimp only [Option.map_some] at h
        split at h
        · cases h
        · rename_i sheet hsheet
          cases h
          refine ⟨by simpa using hrendered, ?_⟩
          have hadded : (Node.ofSheet (sheet.scoped id) (.ofMask t.mask)).passages =
              [(sheet.scoped id).render] := rfl
          simp [hsheet, Node.passagesForest, hadded]

theorem sheetRenditions_ok {d : Deliveries} {classPrefix : String} {definition : Nat}
    {emitGlobal : Bool} {templates : List Template} {done done' : StyleScoping} {w w' : Work}
    (h : (scopeSheets d classPrefix definition emitGlobal templates done).run w =
      (.ok done', w')) :
    let made := sheetRenditions d classPrefix definition emitGlobal templates done w
    w'.progress.session.pending = w.progress.session.pending ++
        made.flatMap (·.text.pending) ∧
      Node.passagesForest done'.styles = Node.passagesForest done.styles ++
        made.flatMap Rendition.passages := by
  induction templates generalizing done w with
  | nil =>
      cases h
      simp [sheetRenditions]
  | cons t rest ih =>
      rw [scopeSheets, run_bind] at h
      rcases hs : (scopeSheet d classPrefix definition emitGlobal t done).run w
        with ⟨stop | done₁, w₁⟩ <;> rw [hs] at h
      · cases h
      · obtain ⟨hpending, hpassages⟩ := sheetRendition_ok hs
        obtain ⟨hpending', hpassages'⟩ := ih h
        simp only [sheetRenditions, hs, List.flatMap_append]
        rw [hpending', hpassages', hpending, hpassages, List.append_assoc, List.append_assoc]
        exact ⟨rfl, rfl⟩

theorem scopeStyles_renditions {d : Deliveries} {classPrefix : String} {definition : Definition}
    {scoping : StyleScoping} {w w' : Work}
    (h : (scopeStyles d classPrefix definition).run w = (.ok scoping, w')) :
    let made := sheetRenditions d classPrefix definition.id
      (!w.progress.session.isGlobalEmitted definition.id) definition.css .none w
    w'.progress.session.pending = w.progress.session.pending ++
        made.flatMap (·.text.pending) ∧
      Node.passagesForest scoping.styles = made.flatMap Rendition.passages := by
  simp only [scopeStyles, run_bind, run_get] at h
  rcases hs : (scopeSheets d classPrefix definition.id
    (!w.progress.session.isGlobalEmitted definition.id) definition.css .none).run w
    with ⟨stop | done, w₁⟩ <;> rw [hs] at h
  · cases h
  · obtain ⟨hpending, hpassages⟩ := sheetRenditions_ok hs
    dsimp only at h
    -- to put the shared sheets on record reports nothing
    split at h
    · cases h
      refine ⟨?_, hpassages⟩
      rw [← hpending]
      change (w₁.progress.session.markGlobalEmitted definition.id).2.pending = _
      rw [Session.markGlobalEmitted_frame]
    · cases h
      exact ⟨hpending, hpassages⟩

theorem scopeMarkup_nil (classes : List String) (isCustom : String → Bool) :
    scopeMarkup [] classes isCustom = [] := by
  unfold scopeMarkup
  split <;> rfl

namespace Occurrence

/-- What the template of its own markup is rendered to. -/
def markupRendition (o : Occurrence) (scoping : StyleScoping) (known : TagMap) :
    Option Rendition :=
  match o.definition.html with
  | none => none
  | some t =>
    (InstanceStep.textOf o.deliveries t o.start).map fun text => ⟨text, match t.attach with
      | .children => Node.passagesForest
          (scopeMarkup (o.renderer.parse text.text) scoping.classes known.contains)
      | .detached => []⟩

/-- What its stylesheets are rendered to. -/
def sheetRenditions (o : Occurrence) : List Rendition :=
  (CustomElements.sheetRenditions o.deliveries o.renderer.options.classPrefix o.definition.id
      o.emitsGlobal o.definition.css .none
      ((o.renderer.ownMarkup o.deliveries o.definition).run o.start).2).map fun rendition =>
    if o.renderer.options.emitStyles then rendition else { rendition with passages := [] }

/-- What its templates are rendered to, in order. -/
def renditions (o : Occurrence) : List Rendition :=
  match o.parts with
  | (.ok (_, scoping), w) =>
    (o.markupRendition scoping w.progress.session.tagMap).toList ++ o.sheetRenditions
  | (.error _, _) => []

/-- The pending texts in what its templates are rendered to. -/
def pending (o : Occurrence) : List PendingText := o.renditions.flatMap (·.text.pending)

theorem markupRendition_ok {o : Occurrence} {own : Option (List Node)} {w : Work}
    (h : (o.renderer.ownMarkup o.deliveries o.definition).run o.start = (.ok own, w))
    (scoping : StyleScoping) (known : TagMap) :
    let made := (o.markupRendition scoping known).toList
    w.progress.session.pending = o.before.pending ++ made.flatMap (·.text.pending) ∧
      Node.passagesForest (scopeMarkup (own.getD []) scoping.classes known.contains) =
        made.flatMap Rendition.passages := by
  have hnone : Node.passagesForest (scopeMarkup [] scoping.classes known.contains) = [] := by
    rw [scopeMarkup_nil]
    rfl
  obtain ⟨hhtml, rfl, rfl⟩ | ⟨t, text, hhtml, hrun, hown⟩ := Renderer.ownMarkup_cases h <;>
    simp only [markupRendition, hhtml]
  · exact ⟨(List.append_nil _).symm, hnone⟩
  · obtain ⟨rfl, hpending⟩ := InstanceStep.renderText_ok hrun
    -- own markup there is only if there is a text and the template is attached
    rcases htext : InstanceStep.textOf o.deliveries t o.start with - | text <;>
      rw [htext] at hown hpending <;> obtain ⟨ht, rfl⟩ | ⟨ht, rfl⟩ := hown
    · exact ⟨hpending, hnone⟩
    · exact ⟨hpending, hnone⟩
    · refine ⟨hpending, ?_⟩
      simp [ht]
    · refine ⟨hpending, ?_⟩
      simp [ht, hnone]

section Parts

variable {o : Occurrence} {own : Option (List Node)} {scoping : StyleScoping} {w : Work}

/-- The stylesheets of an occurrence come after its own markup. -/
theorem sheetRenditions_ok {w₁ : Work}
    (hmarkup : (o.renderer.ownMarkup o.deliveries o.definition).run o.start = (.ok own, w₁))
    (hstyles : (scopeStyles o.deliveries o.renderer.options.classPrefix o.definition).run w₁ =
      (.ok scoping, w)) :
    w.progress.session.pending =
        w₁.progress.session.pending ++ o.sheetRenditions.flatMap (·.text.pending) ∧
      Node.passagesForest (o.written scoping) =
        o.sheetRenditions.flatMap Rendition.passages := by
  have hfirst : (!w₁.progress.session.isGlobalEmitted o.definition.id) = o.emitsGlobal := by
    rw [emitsGlobal, Session.isGlobalEmitted, (Renderer.ownMarkup_ok hmarkup).2]
    rfl
  obtain ⟨hpending, hpassages⟩ := scopeStyles_renditions hstyles
  rw [hfirst] at hpending hpassages
  unfold sheetRenditions written
  rw [hmarkup, List.flatMap_map, List.flatMap_map, hpending]
  split
  · exact ⟨rfl, hpassages⟩
  · exact ⟨rfl, by simp [Node.passagesForest]⟩

/-- **What an occurrence reports to the session, and what it brings into the tree.** -/
theorem renditions_ok (h : o.parts = (.ok (own, scoping), w)) :
    o.after.pending = o.before.pending ++ o.pending ∧
      o.renditions.flatMap Rendition.passages =
        Node.passagesForest (scopeMarkup (own.getD []) scoping.classes
          w.progress.session.tagMap.contains) ++ Node.passagesForest (o.written scoping) := by
  obtain ⟨w₁, hmarkup, hstyles⟩ := parts_stages h
  obtain ⟨hpending, hpassages⟩ := markupRendition_ok hmarkup scoping w.progress.session.tagMap
  obtain ⟨hpending', hpassages'⟩ := sheetRenditions_ok hmarkup hstyles
  have hrenditions : o.renditions =
      (o.markupRendition scoping w.progress.session.tagMap).toList ++ o.sheetRenditions := by
    rw [renditions, h]
  rw [pending, hrenditions, List.flatMap_append, List.flatMap_append, hpassages, hpassages']
  refine ⟨?_, rfl⟩
  rw [after, h]
  change w.progress.session.pending = _
  rw [hpending', hpending, List.append_assoc]

end Parts

theorem holds_markupRendition {o : Occurrence} {scoping : StyleScoping} {known : TagMap} :
    ∀ made ∈ o.markupRendition scoping known, made.text.Holds o.deliveries := by
  intro made hmade
  unfold markupRendition at hmade
  split at hmade
  · cases hmade
  · obtain ⟨text, htext, rfl⟩ := Option.map_eq_some_iff.mp hmade
    exact InstanceStep.holds_textOf htext

end Occurrence

theorem holds_sheetRenditions {d : Deliveries} {classPrefix : String} {definition : Nat}
    {emitGlobal : Bool} {templates : List Template} {done : StyleScoping} {w : Work} :
    ∀ made ∈ sheetRenditions d classPrefix definition emitGlobal templates done w,
      made.text.Holds d := by
  induction templates generalizing done w with
  | nil => simp [sheetRenditions]
  | cons t rest ih =>
      rw [sheetRenditions]
      refine List.forall_mem_append.mpr ⟨fun made hmade => ?_, ?_⟩
      · rw [Option.mem_toList, sheetRendition] at hmade
        split at hmade
        · cases hmade
        · split at hmade
          · cases hmade
          · obtain ⟨text, htext, rfl⟩ := Option.map_eq_some_iff.mp hmade
            exact InstanceStep.holds_textOf htext
      · split
        · simp
        · exact ih

/-- **Every pending text that an occurrence reports stands in the text that it is reported of.** -/
theorem Occurrence.holds_renditions (o : Occurrence) :
    ∀ made ∈ o.renditions, made.text.Holds o.deliveries := by
  unfold renditions
  split
  · refine List.forall_mem_append.mpr ⟨fun made hmade => ?_, fun made hmade => ?_⟩
    · exact holds_markupRendition made (Option.mem_toList.mp hmade)
    · obtain ⟨sheet, hsheet, rfl⟩ := List.mem_map.mp hmade
      split <;> exact holds_sheetRenditions sheet hsheet
  · simp

end CustomElements
