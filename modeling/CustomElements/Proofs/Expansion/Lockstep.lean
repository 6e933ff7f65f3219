import CustomElements.Proofs.Expansion.Parts
import Mathlib.Data.List.Forall2

/-!
# Two expansions in lock-step

Some properties compare two expansions: of the same component on two sessions, with two themes, or
by two renderers. Such a pair does the same things in the same order, in states that differ in a
known way. `Lockstep` says so of two steps: begun in related states, they end alike, and in related
states again.

The induction on expansions is made once (`Twins.expand`). What is left for a pair of renderers is
listed by `Twins`: how the two runs compare where they render the parts of one component, and where
they put nodes together. Nodes of the two runs are related too, since what one run makes may differ
from what the other one does; `Resemblance` says what such a relation has to respect.
-/

namespace CustomElements

/-! ## Steps -/

section Steps

variable {ε σ τ α β γ δ : Type}

/-- Both stop, and for the same reason, or both answer, and the answers are related. -/
def Agree (Q : α → β → Prop) : Except ε α → Except ε β → Prop
  | .ok a, .ok b => Q a b
  | .error e, .error e' => e = e'
  | _, _ => False

/-- Begun in related states, the steps agree, and end in related states. -/
def Lockstep (R : σ → τ → Prop) (Q : α → β → Prop) (x : ExceptT ε (StateM σ) α)
    (y : ExceptT ε (StateM τ) β) : Prop :=
  ∀ s t, R s t → Agree Q (x.run s).1 (y.run t).1 ∧ R (x.run s).2 (y.run t).2

variable {R : σ → τ → Prop} {Q : α → β → Prop} {Q' : γ → δ → Prop}

theorem agree_eq_iff {x y : Except ε α} : Agree Eq x y ↔ x = y := by
  rcases x with e | a <;> rcases y with e' | b <;> simp [Agree]

/-- Where an answer is related to its image only, the second answer is the image of the first. -/
theorem Agree.eq_map {x : Except ε α} {y : Except ε β} (h : Agree Q x y) {f : α → β}
    (hf : ∀ a b, Q a b → b = f a) : y = x.map f := by
  rcases x with e | a <;> rcases y with e' | b
  · exact congrArg Except.error (Eq.symm h)
  · exact h.elim
  · exact h.elim
  · exact congrArg Except.ok (hf a b h)

theorem Agree.map {x : Except ε α} {y : Except ε β} (h : Agree Q x y) {f : α → γ} {g : β → δ}
    (hfg : ∀ a b, Q a b → Q' (f a) (g b)) : Agree Q' (x.map f) (y.map g) := by
  rcases x with e | a <;> rcases y with e' | b
  · exact h
  · exact h.elim
  · exact h.elim
  · exact hfg a b h

theorem Agree.imp {Q' : α → β → Prop} {x : Except ε α} {y : Except ε β} (h : Agree Q x y)
    (hQ : ∀ a b, Q a b → Q' a b) : Agree Q' x y := by
  rcases x with e | a <;> rcases y with e' | b
  · exact h
  · exact h.elim
  · exact h.elim
  · exact hQ a b h

theorem lockstep_pure {a : α} {b : β} (h : Q a b) :
    Lockstep (ε := ε) R Q (pure a) (pure b) := fun _ _ hR => ⟨h, hR⟩

theorem lockstep_throw (e : ε) :
    Lockstep R Q (throw e : ExceptT ε (StateM σ) α) (throw e : ExceptT ε (StateM τ) β) :=
  fun _ _ hR => ⟨rfl, hR⟩

theorem lockstep_bind {x : ExceptT ε (StateM σ) α} {y : ExceptT ε (StateM τ) β}
    {f : α → ExceptT ε (StateM σ) γ} {g : β → ExceptT ε (StateM τ) δ} (hx : Lockstep R Q x y)
    (hf : ∀ a b, Q a b → Lockstep R Q' (f a) (g b)) : Lockstep R Q' (x >>= f) (y >>= g) := by
  intro s t hR
  obtain ⟨hagree, hR'⟩ := hx s t hR
  rw [run_bind, run_bind]
  rcases hs : x.run s with ⟨e | a, s'⟩ <;> rcases ht : y.run t with ⟨e' | b, t'⟩ <;>
    rw [hs, ht] at hagree hR'
  · exact ⟨hagree, hR'⟩
  · exact hagree.elim
  · exact hagree.elim
  · exact hf a b hagree s' t' hR'

/-- Instances are rendered in lock-step if the single steps are. -/
theorem InstanceStep.closed_lockstep {src src' : TextSource} {definition : Definition}
    {W : Work → Work → Prop}
    (text : ∀ t, definition.HasTemplate t → Lockstep W Eq (src.text t) (src'.text t))
    (scopeId : ∀ classPrefix scope done, Lockstep W Eq
      (CustomElements.scopeId classPrefix definition.id scope done)
      (CustomElements.scopeId classPrefix definition.id scope done))
    (isGlobalEmitted : Lockstep W Eq (InstanceStep.isGlobalEmitted definition.id)
      (InstanceStep.isGlobalEmitted definition.id))
    (markGlobalEmitted : Lockstep W Eq
      (modifySession fun s => (s.markGlobalEmitted definition.id).2)
      (modifySession fun s => (s.markGlobalEmitted definition.id).2)) :
    Closed src src' definition fun x y => Lockstep W Eq x y where
  pure := fun _ => lockstep_pure rfl
  throw := fun _ => lockstep_throw _
  bind := fun hx hf => lockstep_bind hx fun a _ hab => hab ▸ hf a
  text := text
  scopeId := scopeId
  isGlobalEmitted := isGlobalEmitted
  markGlobalEmitted := markGlobalEmitted

end Steps

/-! ## Nodes -/

/-- The node is not looked at: it is expanded, or no element. -/
def Node.Kept (n : Node) : Prop := ∀ tag children, n = .element tag children → tag.expanded = true

theorem run_expandNode_kept (expand : Expander) {n : Node} (h : n.Kept) (p : Progress) :
    (expandNode expand n).run p = (.ok n, p) := by
  rcases n with ⟨tag, children⟩ | s | ⟨attributes, sheet⟩ | sheet
  · rw [expandNode, if_pos (h tag children rfl), run_pure]
  all_goals rfl

/-- Whoever looks at a node sees the same in its likes. -/
structure Likeness (Q : Node → Node → Prop) : Prop where
  kept : ∀ {n m : Node}, Q n m → n.Kept → m.Kept
  /-- An element that is looked at is like elements with the same tag and like children. -/
  opened : ∀ {tag : Tag} {children : List Node} {m : Node}, tag.expanded = false →
    Q (.element tag children) m →
      ∃ children', m = .element tag children' ∧ List.Forall₂ Q children children'
  element : ∀ {tag : Tag} {children children' : List Node}, List.Forall₂ Q children children' →
    Q (.element tag children) (.element tag children')

/-- The nodes that one renderer makes are like those of the other. -/
structure Resemblance (Q : Node → Node → Prop) (r r' : Renderer) : Prop extends Likeness Q where
  /-- The stylesheets that hosts hold leave them alike. -/
  host : ∀ {o o' : Occurrence} {own : Option (List Node)} {scoping : StyleScoping} {w : Work}
    {body body' : List Node}, o.renderer = r → o'.renderer = r' →
      o.parts = (.ok (own, scoping), w) → List.Forall₂ Q body body' →
        Q (Renderer.host w.inst (o.written scoping ++ body))
          (Renderer.host w.inst (o'.written scoping ++ body'))
  /-- Like contents go to the same places. -/
  distribute : ∀ {o o' : Occurrence} {own : List Node} {scoping : StyleScoping} {w : Work}
    (tags : TagMap), o.renderer = r → o.parts = (.ok (some own, scoping), w) →
      List.Forall₂ Q o.content o'.content →
        List.Forall₂ Q (o.distribute own scoping tags).nodes (o'.distribute own scoping tags).nodes

theorem likeness_eq : Likeness Eq where
  kept := by
    rintro n _ rfl hn
    exact hn
  opened := by
    rintro tag children _ - rfl
    exact ⟨children, rfl, by rw [List.forall₂_eq_eq_eq]⟩
  element := by
    intro tag children children' hchildren
    rw [List.forall₂_eq_eq_eq] at hchildren
    rw [hchildren]

/-- Renderers that both write stylesheets, or both do not, may make the same nodes. -/
theorem resemblance_eq {r r' : Renderer} (h : r'.options.emitStyles = r.options.emitStyles) :
    Resemblance Eq r r' where
  toLikeness := likeness_eq
  host := by
    intro o o' own scoping w body body' ho ho' _ hbody
    rw [List.forall₂_eq_eq_eq] at hbody
    rw [hbody, Occurrence.written, Occurrence.written, ho, ho', h]
  distribute := by
    intro o o' own scoping w tags _ _ hcontent
    rw [List.forall₂_eq_eq_eq] at hcontent ⊢
    rw [Occurrence.distribute, Occurrence.distribute, hcontent]

/-! ## Expansions -/

/-- Components are expanded in lock-step, if their definitions fit and their contents are alike. -/
def Expander.Lockstep (fits : Definition → Prop) (R : Progress → Progress → Prop)
    (Q : Node → Node → Prop) (expand expand' : Expander) : Prop :=
  ∀ definition, fits definition → ∀ tagName attributes content content',
    List.Forall₂ Q content content' →
      CustomElements.Lockstep R Q (expand definition tagName attributes content)
        (expand' definition tagName attributes content')

/-- In related states the same names are known, and the definitions that they stand for fit. -/
structure Lookups (known : TagMap) (fits : Definition → Prop)
    (R : Progress → Progress → Prop) : Prop where
  tagMap : ∀ {p q : Progress}, R p q → p.session.tagMap = known ∧ q.session.tagMap = known
  fits_of_known : ∀ {name : String} {definition : Definition},
    known.get? name = some definition → fits definition

namespace Lookups

variable {known : TagMap} {fits : Definition → Prop} {R : Progress → Progress → Prop}
  {Q : Node → Node → Prop} {expand expand' : Expander}

theorem expandNode_kept (hQ : Likeness Q) (expand expand' : Expander) {n m : Node} (hn : n.Kept)
    (h : Q n m) : Lockstep R Q (expandNode expand n) (expandNode expand' m) := by
  intro p q hR
  have hm : m.Kept := hQ.kept h hn
  rw [run_expandNode_kept expand hn, run_expandNode_kept expand' hm]
  exact ⟨h, hR⟩

mutual

theorem expandNode (l : Lookups known fits R) (hQ : Likeness Q)
    (h : Expander.Lockstep fits R Q expand expand') : (n : Node) → ∀ {m : Node}, Q n m →
      Lockstep R Q (expandNode expand n) (expandNode expand' m)
  | .text s, m, hn => expandNode_kept hQ expand expand' (by simp [Node.Kept]) hn
  | .style attributes sheet, m, hn => expandNode_kept hQ expand expand' (by simp [Node.Kept]) hn
  | .styleText sheet, m, hn => expandNode_kept hQ expand expand' (by simp [Node.Kept]) hn
  | .element tag children, m, hn => by
      rcases hexpanded : tag.expanded with - | -
      · obtain ⟨children', rfl, hchildren⟩ := hQ.opened hexpanded hn
        intro p q hR
        obtain ⟨hagree, hR'⟩ := l.expandForest hQ h children hchildren p q hR
        obtain ⟨hp, hq⟩ := l.tagMap hR
        rw [run_expandNode_element expand hexpanded, run_expandNode_element expand' hexpanded]
        rw [Session.lookup, Session.lookup, hp, hq]
        rcases hs : (CustomElements.expandForest expand children).run p with ⟨stop | ns, p'⟩ <;>
          rcases ht : (CustomElements.expandForest expand' children').run q
            with ⟨stop' | ms, q'⟩ <;>
          rw [hs, ht] at hagree hR'
        · exact ⟨hagree, hR'⟩
        · exact hagree.elim
        · exact hagree.elim
        · -- the children have become like content, for whatever the name stands for
          rcases hlookup : known.get? tag.name with - | nested
          · exact ⟨hQ.element hagree, hR'⟩
          · exact h nested (l.fits_of_known hlookup) tag.name _ ns ms hagree p' q' hR'
      · refine expandNode_kept hQ expand expand' ?_ hn
        rintro _ _ ⟨⟩
        exact hexpanded

theorem expandForest (l : Lookups known fits R) (hQ : Likeness Q)
    (h : Expander.Lockstep fits R Q expand expand') : (ns : List Node) → ∀ {ms : List Node},
      List.Forall₂ Q ns ms → Lockstep R (List.Forall₂ Q) (expandForest expand ns)
        (expandForest expand' ms)
  | [], _, .nil => lockstep_pure .nil
  | n :: ns, _, .cons hn hns =>
      lockstep_bind (l.expandNode hQ h n hn) fun _ _ hfirst =>
        lockstep_bind (l.expandForest hQ h ns hns) fun _ _ hrest =>
          lockstep_pure (.cons hfirst hrest)

end

end Lookups

/-- Two renderers that do the same in states which are related. -/
structure Twins (r r' : Renderer) (d : Deliveries) (theme theme' : Option Theme) (known : TagMap)
    (fits : Definition → Prop) (R : Progress → Progress → Prop) (Q : Node → Node → Prop) :
    Prop extends Lookups known fits R where
  resemblance : Resemblance Q r r'
  /-- The parts of a component are the same, and so is its host as far as it can be seen. -/
  parts : ∀ {p q : Progress}, R p q → ∀ {definition : Definition}, fits definition →
    ∀ tagName attributes content content',
      let o := r.begin d theme definition tagName attributes content p
      let o' := r'.begin d theme' definition tagName attributes content' q
      o.parts.1 = o'.parts.1 ∧ R o.parts.2.progress o'.parts.2.progress ∧
        Renderer.host o.parts.2.inst = Renderer.host o'.parts.2.inst
  /-- An instance that began in related states is ended in related states. -/
  ended : ∀ {p q p' q' : Progress}, R p q → R p' q' →
    R (p'.endInstance p.journal.instances) (q'.endInstance q.journal.instances)

namespace Twins

variable {r r' : Renderer} {d : Deliveries} {theme theme' : Option Theme} {known : TagMap}
  {fits : Definition → Prop} {R : Progress → Progress → Prop} {Q : Node → Node → Prop}

/-- **With any room, twins expand components in lock-step.** -/
theorem expand (t : Twins r r' d theme theme' known fits R Q) (depth : Nat) :
    Expander.Lockstep fits R Q (r.expand d theme depth) (r'.expand d theme' depth) := by
  -- on the room; at each depth the parts agree first, and then the filled markup
  induction depth with
  | zero => exact fun _ _ _ _ _ _ _ => lockstep_throw Stop.outOfRoom
  | succ depth ih =>
      intro definition hfits tagName attributes content content' hcontent p q hR
      obtain ⟨hparts, hR', hhost⟩ := t.parts hR hfits tagName attributes content content'
      rw [run_expand_succ, run_expand_succ]
      dsimp only at hparts hR' hhost ⊢
      generalize ho : r.begin d theme definition tagName attributes content p = o
        at hparts hR' hhost
      generalize ho' : r'.begin d theme' definition tagName attributes content' q = o'
        at hparts hR' hhost
      have hrenderer : o.renderer = r := by rw [← ho]; rfl
      have hrenderer' : o'.renderer = r' := by rw [← ho']; rfl
      have hid : o.start.inst.id = p.journal.instances := by rw [← ho]; rfl
      have hid' : o'.start.inst.id = q.journal.instances := by rw [← ho']; rfl
      have hslotted : List.Forall₂ Q o.content o'.content := by
        rw [← ho, ← ho']
        exact hcontent
      rw [run_expandInstance, run_expandInstance, hid, hid']
      rcases hp : o.parts with ⟨result, w⟩
      rcases hq : o'.parts with ⟨result', w'⟩
      rw [hp, hq] at hparts hR' hhost
      obtain rfl : result = result' := hparts
      rcases result with stop | ⟨own | own, scoping⟩
      · exact ⟨rfl, t.ended hR hR'⟩
      · refine ⟨?_, t.ended hR hR'⟩
        have hlike := t.resemblance.host hrenderer hrenderer' hp hslotted
        dsimp only [Agree] at hhost ⊢
        rw [← hhost]
        exact hlike
      · have hnodes := t.resemblance.distribute w.progress.session.tagMap hrenderer hp hslotted
        obtain ⟨hknown, hknown'⟩ := t.tagMap hR'
        dsimp only at hknown hknown' hhost ⊢
        obtain ⟨hbody, hR''⟩ :=
          t.toLookups.expandForest t.resemblance.toLikeness ih _ hnodes w.progress w'.progress hR'
        rw [hknown', ← hknown, ← hhost]
        refine ⟨hbody.map fun body body' hlike => ?_, t.ended hR hR''⟩
        exact t.resemblance.host hrenderer hrenderer' hp hlike

/-- Twins answer a call alike, and leave related states, if going back keeps states related. -/
theorem elementToTag (t : Twins r r' d theme theme' known fits R Q)
    (hanonymous : r'.options.anonymousTagPrefix = r.options.anonymousTagPrefix) (c : Catalog)
    (depth : Nat) {definition : Definition} (hfits : fits definition) (attributes : Props)
    {p q : Progress} (hstart : R (p.register c definition) (q.register c definition))
    (hback : ∀ {p' q' : Progress}, R p' q' → R
      { p' with session := p'.session.rollback (p.register c definition).session.checkpoint }
      { q' with session := q'.session.rollback (q.register c definition).session.checkpoint }) :
    let a := r.elementToTag c d depth definition attributes theme p
    let b := r'.elementToTag c d depth definition attributes theme' q
    Agree Q a.1 b.1 ∧ R a.2 b.2 := by
  intro a b
  have ha : a = r.elementToTag c d depth definition attributes theme p := rfl
  have hb : b = r'.elementToTag c d depth definition attributes theme' q := rfl
  rw [Renderer.elementToTag_eq] at ha hb
  rw [hanonymous] at hb
  obtain ⟨hagree, hR⟩ := t.expand depth definition hfits
    (definition.resolvedTagName r.options.anonymousTagPrefix) attributes [] [] .nil _ _ hstart
  rcases hp : (r.expand d theme depth definition
      (definition.resolvedTagName r.options.anonymousTagPrefix) attributes []).run
      (p.register c definition) with ⟨stop | n, p'⟩ <;>
    rcases hq : (r'.expand d theme' depth definition
      (definition.resolvedTagName r.options.anonymousTagPrefix) attributes []).run
      (q.register c definition) with ⟨stop' | m, q'⟩ <;>
    rw [hp, hq] at hagree hR <;> rw [hp] at ha <;> rw [hq] at hb <;> rw [ha, hb]
  · exact ⟨hagree, hback hR⟩
  · exact hagree.elim
  · exact hagree.elim
  · exact ⟨hagree, hR⟩

end Twins

/-! ## Renderers that start from the same state -/

section Same

variable {r r' : Renderer} {d : Deliveries} {theme theme' : Option Theme} {known : TagMap}
  {fits : Definition → Prop} {Q : Node → Node → Prop}

/-- One state, in which these names are known. -/
def Same (known : TagMap) (p q : Progress) : Prop := p = q ∧ p.session.tagMap = known

theorem twins_same (hQ : Resemblance Q r r')
    (hknown : ∀ {name : String} {definition : Definition},
      known.get? name = some definition → fits definition)
    (hparts : ∀ definition, fits definition → ∀ tagName attributes content content' p,
      (r'.begin d theme' definition tagName attributes content' p).parts =
        (r.begin d theme definition tagName attributes content p).parts) :
    Twins r r' d theme theme' known fits (Same known) Q where
  resemblance := hQ
  tagMap := by
    rintro p _ ⟨rfl, hp⟩
    exact ⟨hp, hp⟩
  fits_of_known := hknown
  parts := by
    rintro p _ ⟨rfl, hp⟩ definition hfits tagName attributes content content'
    have hsame : (r.begin d theme definition tagName attributes content
        p).parts.2.progress.session.tagMap = p.session.tagMap := Occurrence.tagMap_parts rfl
    dsimp only
    rw [hparts definition hfits tagName attributes content content' p]
    exact ⟨rfl, ⟨rfl, hsame.trans hp⟩, rfl⟩
  ended := by
    rintro p _ p' _ ⟨rfl, -⟩ ⟨rfl, hp'⟩
    exact ⟨rfl, hp'⟩

/-- Renderers that render the parts of components in the same way make the same changes. -/
theorem elementToTag_same (hQ : Resemblance Q r r')
    (hanonymous : r'.options.anonymousTagPrefix = r.options.anonymousTagPrefix) (c : Catalog)
    (depth : Nat) {definition : Definition} (attributes : Props) {p : Progress}
    (hfits : fits definition)
    (hknown : ∀ {name : String} {nested : Definition},
      (c.register definition p.session.tagMap).get? name = some nested → fits nested)
    (hparts : ∀ nested, fits nested → ∀ tagName attributes content content' p,
      (r'.begin d theme' nested tagName attributes content' p).parts =
        (r.begin d theme nested tagName attributes content p).parts) :
    let a := r.elementToTag c d depth definition attributes theme p
    let b := r'.elementToTag c d depth definition attributes theme' p
    Agree Q a.1 b.1 ∧ b.2 = a.2 := by
  have t : Twins r r' d theme theme' (c.register definition p.session.tagMap) fits
      (Same (c.register definition p.session.tagMap)) Q := twins_same hQ hknown hparts
  have hstart : Same (c.register definition p.session.tagMap) (p.register c definition)
      (p.register c definition) := ⟨rfl, rfl⟩
  have hback : ∀ {p' q' : Progress}, Same (c.register definition p.session.tagMap) p' q' → Same
      (c.register definition p.session.tagMap)
      { p' with session := p'.session.rollback (p.register c definition).session.checkpoint }
      { q' with session := q'.session.rollback (p.register c definition).session.checkpoint } := by
    rintro p' _ ⟨rfl, hp'⟩
    exact ⟨rfl, hp'⟩
  obtain ⟨hagree, hsame, -⟩ := t.elementToTag hanonymous c depth hfits attributes hstart hback
  exact ⟨hagree, hsame.symm⟩

end Same

end CustomElements
