import CustomElements.Proofs.Steps

/-!
# Expansion as a relation

`Expands r d theme task p result p' os` says that the renderer `r`, working on `task` from the
progress `p`, ends with `result` and the progress `p'`, and that `os` are the components whose
expansion began on the way, in the order in which they began. It has one rule for each way in which
a node, a forest or a component can come out, and no limit on how deep components are nested; only
`noRoom` remembers that a limit may cut a component short.

Whatever `Renderer.expand` computes is related to its arguments (`follows_expand`), so a property of
every expansion is proved by an induction on the relation, without looking at the program again.
`Expands.induction_ok` is the induction for expansions that succeed, and `Kept.begins` tells what
each component found when its expansion began.
-/

namespace CustomElements

/-- What is to be expanded. -/
inductive Task where
  | node (n : Node)
  | forest (nodes : List Node)
  | component (definition : Definition) (tagName : String) (attributes : Props)
      (content : List Node)

/-! ## Occurrences -/

/-- A component whose expansion has begun. -/
structure Occurrence where
  renderer : Renderer
  deliveries : Deliveries
  definition : Definition
  /-- What the caller puts into its slots. -/
  content : List Node
  /-- The progress when its instance was new, and the instance. -/
  start : Work

namespace Occurrence

/-- What rendering its own markup and stylesheets leads to. -/
def parts (o : Occurrence) : Except Stop (Option (List Node) × StyleScoping) × Work :=
  (o.renderer.ownParts o.deliveries o.definition).run o.start

/-- Its own markup with the scoping classes on it and the content in its slots. -/
def distribute (o : Occurrence) (own : List Node) (scoping : StyleScoping) (tags : TagMap) :
    Distribution :=
  .resolve (scopeMarkup own scoping.classes tags.contains) o.content

/-- The stylesheets that its host holds. -/
def written (o : Occurrence) (scoping : StyleScoping) : List Node :=
  if o.renderer.options.emitStyles then scoping.styles else []

/-- The content that its markup has no place for. -/
def dropped (o : Occurrence) : List Node :=
  match o.parts with
  | (.ok (some own, scoping), w) => (o.distribute own scoping w.progress.session.tagMap).dropped
  | _ => []

end Occurrence

namespace Renderer

/-- The work for a component that is met. Its instance is new and takes the next identity. -/
def start (r : Renderer) (theme : Option Theme) (definition : Definition) (tagName : String)
    (attributes : Props) (p : Progress) : Work where
  progress := { p with journal := { p.journal with instances := p.journal.instances + 1 } }
  inst := .create p.journal.instances definition.id definition.interface tagName attributes theme
    r.options.lang

/-- The occurrence that begins when a component is met. -/
def begin (r : Renderer) (d : Deliveries) (theme : Option Theme) (definition : Definition)
    (tagName : String) (attributes : Props) (content : List Node) (p : Progress) : Occurrence where
  renderer := r
  deliveries := d
  definition := definition
  content := content
  start := r.start theme definition tagName attributes p

end Renderer

/-! ## The relation -/

/--
`Expands r d theme task p result p' os`: expanding `task` from the progress `p` ends with the nodes
that take its place, or with a stop, and with the progress `p'`. The components in `os` began.
-/
inductive Expands (r : Renderer) (d : Deliveries) (theme : Option Theme) :
    Task → Progress → Except Stop (List Node) → Progress → List Occurrence → Prop where
  /-- Text, stylesheets and finished elements stay as they are. -/
  | kept {n : Node} {p : Progress}
      (settled : ∀ tag children, n = .element tag children → tag.expanded = true) :
      Expands r d theme (.node n) p (.ok [n]) p []
  | plain {tag : Tag} {children : List Node} {p p' : Progress}
      {result : Except Stop (List Node)} {os : List Occurrence}
      (unexpanded : tag.expanded = false) (unknown : p.session.lookup tag.name = none)
      (inside : Expands r d theme (.forest children) p result p' os) :
      Expands r d theme (.node (.element tag children)) p
        (result.map fun ns => [.element tag ns]) p' os
  /-- A custom element: its children are expanded first, and become its content. -/
  | custom {tag : Tag} {children content : List Node} {p p₁ p₂ : Progress} {nested : Definition}
      {result : Except Stop (List Node)} {os os' : List Occurrence}
      (unexpanded : tag.expanded = false) (known : p.session.lookup tag.name = some nested)
      (inside : Expands r d theme (.forest children) p (.ok content) p₁ os)
      (host : Expands r d theme
        (.component nested tag.name (tag.attributes.map .string) content) p₁ result p₂ os') :
      Expands r d theme (.node (.element tag children)) p result p₂ (os ++ os')
  | contentStops {tag : Tag} {children : List Node} {p p' : Progress} {nested : Definition}
      {stop : Stop} {os : List Occurrence}
      (unexpanded : tag.expanded = false) (known : p.session.lookup tag.name = some nested)
      (inside : Expands r d theme (.forest children) p (.error stop) p' os) :
      Expands r d theme (.node (.element tag children)) p (.error stop) p' os
  | nil {p : Progress} : Expands r d theme (.forest []) p (.ok []) p []
  | cons {n : Node} {ns rest : List Node} {p p₁ p₂ : Progress}
      {result : Except Stop (List Node)} {os os' : List Occurrence}
      (first : Expands r d theme (.node n) p (.ok ns) p₁ os)
      (onward : Expands r d theme (.forest rest) p₁ result p₂ os') :
      Expands r d theme (.forest (n :: rest)) p (result.map (ns ++ ·)) p₂ (os ++ os')
  | firstStops {n : Node} {rest : List Node} {p p' : Progress} {stop : Stop}
      {os : List Occurrence}
      (first : Expands r d theme (.node n) p (.error stop) p' os) :
      Expands r d theme (.forest (n :: rest)) p (.error stop) p' os
  | noRoom {definition : Definition} {tagName : String} {attributes : Props}
      {content : List Node} {p : Progress} :
      Expands r d theme (.component definition tagName attributes content) p
        (.error .outOfRoom) p []
  | partsStop {definition : Definition} {tagName : String} {attributes : Props}
      {content : List Node} {p : Progress} {o : Occurrence} {stop : Stop} {w : Work}
      (begins : o = r.begin d theme definition tagName attributes content p)
      (parts : o.parts = (.error stop, w)) :
      Expands r d theme (.component definition tagName attributes content) p (.error stop)
        (w.progress.endInstance o.start.inst.id) [o]
  /-- A component without markup of its own hands its content on. -/
  | passed {definition : Definition} {tagName : String} {attributes : Props}
      {content : List Node} {p : Progress} {o : Occurrence} {scoping : StyleScoping} {w : Work}
      (begins : o = r.begin d theme definition tagName attributes content p)
      (parts : o.parts = (.ok (none, scoping), w)) :
      Expands r d theme (.component definition tagName attributes content) p
        (.ok [Renderer.host w.inst (o.written scoping ++ content)])
        (w.progress.endInstance o.start.inst.id) [o]
  | filled {definition : Definition} {tagName : String} {attributes : Props}
      {content own : List Node} {p p' : Progress} {o : Occurrence} {scoping : StyleScoping}
      {w : Work} {result : Except Stop (List Node)} {os : List Occurrence}
      (begins : o = r.begin d theme definition tagName attributes content p)
      (parts : o.parts = (.ok (some own, scoping), w))
      (body : Expands r d theme
        (.forest (o.distribute own scoping w.progress.session.tagMap).nodes) w.progress
        result p' os) :
      Expands r d theme (.component definition tagName attributes content) p
        (result.map fun body => [Renderer.host w.inst (o.written scoping ++ body)])
        (p'.endInstance o.start.inst.id) (o :: os)

variable {r : Renderer} {d : Deliveries} {theme : Option Theme}

/--
Induction on an expansion that succeeds. Nothing stops on the way, so there is no case for a stop,
and what comes out of a part is a list of nodes.
-/
@[elab_as_elim]
theorem Expands.induction_ok
    {motive : {task : Task} → {p : Progress} → {ns : List Node} → {p' : Progress} →
      {os : List Occurrence} → Expands r d theme task p (.ok ns) p' os → Prop}
    (kept : ∀ {n : Node} {p : Progress}
      (settled : ∀ tag children, n = .element tag children → tag.expanded = true),
      motive (.kept (p := p) settled))
    (plain : ∀ {tag : Tag} {children ns : List Node} {p p' : Progress} {os : List Occurrence}
      (unexpanded : tag.expanded = false) (unknown : p.session.lookup tag.name = none)
      (inside : Expands r d theme (.forest children) p (.ok ns) p' os),
      motive inside → motive (.plain unexpanded unknown inside :
        Expands r d theme (.node (.element tag children)) p (.ok [.element tag ns]) p' os))
    (custom : ∀ {tag : Tag} {children content ns : List Node} {p p₁ p₂ : Progress}
      {nested : Definition} {os os' : List Occurrence} (unexpanded : tag.expanded = false)
      (known : p.session.lookup tag.name = some nested)
      (inside : Expands r d theme (.forest children) p (.ok content) p₁ os)
      (host : Expands r d theme
        (.component nested tag.name (tag.attributes.map .string) content) p₁ (.ok ns) p₂ os'),
      motive inside → motive host → motive (.custom unexpanded known inside host))
    (nil : ∀ {p : Progress}, motive (.nil (p := p)))
    (cons : ∀ {n : Node} {rest ns ms : List Node} {p p₁ p₂ : Progress} {os os' : List Occurrence}
      (first : Expands r d theme (.node n) p (.ok ns) p₁ os)
      (onward : Expands r d theme (.forest rest) p₁ (.ok ms) p₂ os'),
      motive first → motive onward → motive (.cons first onward :
        Expands r d theme (.forest (n :: rest)) p (.ok (ns ++ ms)) p₂ (os ++ os')))
    (passed : ∀ {definition : Definition} {tagName : String} {attributes : Props}
      {content : List Node} {p : Progress} {o : Occurrence} {scoping : StyleScoping} {w : Work}
      (begins : o = r.begin d theme definition tagName attributes content p)
      (parts : o.parts = (.ok (none, scoping), w)),
      motive (.passed begins parts))
    (filled : ∀ {definition : Definition} {tagName : String} {attributes : Props}
      {content own body : List Node} {p p' : Progress} {o : Occurrence} {scoping : StyleScoping}
      {w : Work} {os : List Occurrence}
      (begins : o = r.begin d theme definition tagName attributes content p)
      (parts : o.parts = (.ok (some own, scoping), w))
      (inside : Expands r d theme
        (.forest (o.distribute own scoping w.progress.session.tagMap).nodes) w.progress
        (.ok body) p' os),
      motive inside → motive (.filled begins parts inside :
        Expands r d theme (.component definition tagName attributes content) p
          (.ok [Renderer.host w.inst (o.written scoping ++ body)])
          (p'.endInstance o.start.inst.id) (o :: os)))
    {task : Task} {p : Progress} {ns : List Node} {p' : Progress} {os : List Occurrence}
    (h : Expands r d theme task p (.ok ns) p' os) : motive h := by
  suffices hall : ∀ {result} (h : Expands r d theme task p result p' os) (hr : result = .ok ns),
      motive (hr ▸ h) from hall h rfl
  intro result h hr
  induction h generalizing ns with
  | kept settled =>
      cases hr
      exact kept settled
  | @plain _ _ _ _ result _ unexpanded unknown inside ih =>
      rcases result with stop | ms <;> cases hr
      exact plain unexpanded unknown inside (ih inside rfl)
  | custom unexpanded known inside host ih ih' =>
      cases hr
      exact custom unexpanded known inside host (ih inside rfl) (ih' host rfl)
  | contentStops _ _ _ _ | firstStops _ _ | noRoom | partsStop _ _ => cases hr
  | nil =>
      cases hr
      exact nil
  | @cons _ _ _ _ _ _ result _ _ first onward ih ih' =>
      rcases result with stop | ms <;> cases hr
      exact cons first onward (ih first rfl) (ih' onward rfl)
  | passed begins parts =>
      cases hr
      exact passed begins parts
  | @filled _ _ _ _ _ _ _ _ _ _ result _ begins parts inside ih =>
      rcases result with stop | body <;> cases hr
      exact filled begins parts inside (ih inside rfl)

/-! ## Where occurrences begin -/

/-- The component that the task is about, if it is about one, goes by a name that fits it. -/
def Task.Named (fits : String → Definition → Prop) : Task → Prop
  | .component definition tagName _ _ => fits tagName definition
  | _ => True

theorem Task.named_true (task : Task) : task.Named fun _ _ => True := by
  cases task <;> trivial

/-- What each component keeps of the progress, while its parts are rendered and when it ends. -/
structure Kept (r : Renderer) (d : Deliveries) (theme : Option Theme) (I : Progress → Prop) :
    Prop where
  parts {definition : Definition} {tagName : String} {attributes : Props} {content : List Node}
    {p : Progress} {o : Occurrence}
    (begins : o = r.begin d theme definition tagName attributes content p) (hp : I p) :
    I o.parts.2.progress
  ended {p : Progress} (id : Nat) (hp : I p) : I (p.endInstance id)

namespace Kept

variable {I : Progress → Prop} {task : Task} {p p' : Progress} {result : Except Stop (List Node)}
  {os : List Occurrence}

/-- What each component keeps is kept by an expansion, however it ends. -/
theorem expands (hI : Kept r d theme I) (h : Expands r d theme task p result p' os) (hp : I p) :
    I p' := by
  induction h with
  | kept _ | nil | noRoom => exact hp
  | plain _ _ _ ih | contentStops _ _ _ ih | firstStops _ ih => exact ih hp
  | custom _ _ _ _ ih ih' | cons _ _ ih ih' => exact ih' (ih hp)
  | partsStop begins parts | passed begins parts =>
      have hparts := hI.parts begins hp
      rw [parts] at hparts
      exact hI.ended _ hparts
  | filled begins parts _ ih =>
      have hparts := hI.parts begins hp
      rw [parts] at hparts
      exact hI.ended _ (ih hparts)

/--
**Every occurrence began when a component was met.** It goes by a name that fits it, if known names
fit what they stand for, and it found what each component keeps.
-/
theorem begins (hI : Kept r d theme I) (h : Expands r d theme task p result p' os)
    {fits : String → Definition → Prop}
    (hfits : ∀ {q : Progress} {name : String} {definition : Definition}, I q →
      q.session.lookup name = some definition → fits name definition)
    (hp : I p) (htask : task.Named fits) :
    ∀ o ∈ os, ∃ definition tagName attributes content q, I q ∧ fits tagName definition ∧
      o = r.begin d theme definition tagName attributes content q := by
  induction h with
  | kept _ | nil | noRoom => simp
  | plain _ _ _ ih | contentStops _ _ _ ih | firstStops _ ih => exact ih hp trivial
  | custom _ known inside _ ih ih' =>
      exact List.forall_mem_append.mpr
        ⟨ih hp trivial, ih' (hI.expands inside hp) (hfits hp known)⟩
  | cons first _ ih ih' =>
      exact List.forall_mem_append.mpr ⟨ih hp trivial, ih' (hI.expands first hp) trivial⟩
  | partsStop begins _ | passed begins _ =>
      exact List.forall_mem_singleton.mpr ⟨_, _, _, _, _, hp, htask, begins⟩
  | filled begins parts _ ih =>
      have hparts := hI.parts begins hp
      rw [parts] at hparts
      exact List.forall_mem_cons.mpr ⟨⟨_, _, _, _, _, hp, htask, begins⟩, ih hparts trivial⟩

end Kept

/-- Wherever the step begins, what it leads to is an expansion of the task. -/
def Follows (r : Renderer) (d : Deliveries) (theme : Option Theme) (task : Task)
    (step : Expansion (List Node)) : Prop :=
  ∀ p, ∃ os, Expands r d theme task p (step.run p).1 (step.run p).2 os

/-! ## The program follows the relation -/

/-- What is done with an element that is not expanded: its children are expanded in any case. -/
theorem run_expandNode_element (expand : Expander) {tag : Tag} (h : tag.expanded = false)
    (children : List Node) (p : Progress) :
    (expandNode expand (.element tag children)).run p =
      match (expandForest expand children).run p with
      | (.error stop, p') => (.error stop, p')
      | (.ok ns, p') =>
        match p.session.lookup tag.name with
        | none => (.ok (.element tag ns), p')
        | some nested => (expand nested tag.name (tag.attributes.map .string) ns).run p' := by
  rw [expandNode, if_neg (by simp [h]), run_bind, run_get]
  dsimp only
  rcases p.session.lookup tag.name with - | nested <;> dsimp only <;> rw [run_bind] <;>
    rcases (expandForest expand children).run p with ⟨stop | ns, p'⟩ <;> rfl

/-- The way of expanding nested components follows the relation. -/
def Faithful (r : Renderer) (d : Deliveries) (theme : Option Theme) (expand : Expander) : Prop :=
  ∀ definition tagName attributes content,
    Follows r d theme (.component definition tagName attributes content)
      (([·]) <$> expand definition tagName attributes content)

mutual

theorem follows_expandNode {expand : Expander} (h : Faithful r d theme expand) :
    (n : Node) → Follows r d theme (.node n) (([·]) <$> expandNode expand n)
  | .text _, _ => ⟨[], .kept (by simp)⟩
  | .style _ _, _ => ⟨[], .kept (by simp)⟩
  | .styleText _, _ => ⟨[], .kept (by simp)⟩
  | .element tag children, p => by
      rw [run_map, expandNode]
      by_cases he : tag.expanded = true
      · rw [if_pos he]
        exact ⟨[], .kept (by simpa using he)⟩
      · obtain ⟨os, hc⟩ := follows_expandForest h children p
        rw [if_neg he, run_bind, run_get]
        rw [Bool.not_eq_true] at he
        -- the children are expanded in any case; the name decides what becomes of them
        rcases hf : (expandForest expand children).run p with ⟨stop | content, p'⟩ <;>
          rw [hf] at hc <;> dsimp only <;>
          rcases hl : p.session.lookup tag.name with _ | nested <;>
          simp only [run_bind, hf, run_pure]
        · exact ⟨os, .plain he hl hc⟩
        · exact ⟨os, .contentStops he hl hc⟩
        · exact ⟨os, .plain he hl hc⟩
        · obtain ⟨os', hn⟩ := h nested tag.name (tag.attributes.map .string) content p'
          rw [run_map] at hn
          exact ⟨os ++ os', .custom he hl hc hn⟩

theorem follows_expandForest {expand : Expander} (h : Faithful r d theme expand) :
    (nodes : List Node) → Follows r d theme (.forest nodes) (expandForest expand nodes)
  | [], _ => ⟨[], .nil⟩
  | n :: rest, p => by
      obtain ⟨os, hn⟩ := follows_expandNode h n p
      rw [run_map] at hn
      rw [expandForest, run_bind]
      rcases he : (expandNode expand n).run p with ⟨stop | m, p₁⟩ <;> rw [he] at hn <;> dsimp only
      · exact ⟨os, .firstStops hn⟩
      · obtain ⟨os', hr⟩ := follows_expandForest h rest p₁
        have hc := Expands.cons hn hr
        rw [run_bind]
        rcases hf : (expandForest expand rest).run p₁ with ⟨stop | ms, p₂⟩ <;> rw [hf] at hc <;>
          exact ⟨os ++ os', hc⟩

end

namespace TextSource

/-- An instance is expanded in two stages: its own parts, and then what its markup holds. -/
theorem run_expandInstance (src : TextSource) (nested : Expander) (definition : Definition)
    (w : Work) (content : List Node) :
    (r.expandInstance src nested definition w.inst content).run w.progress =
      match (r.ownParts src definition).run w with
      | (.error stop, w) => (.error stop, w.progress)
      | (.ok (none, scoping), w) =>
        (.ok (Renderer.host w.inst
          ((if r.options.emitStyles then scoping.styles else []) ++ content)), w.progress)
      | (.ok (some own, scoping), w) =>
        let body := (expandForest nested (Distribution.resolve (scopeMarkup own scoping.classes
          w.progress.session.tagMap.contains) content).nodes).run w.progress
        (body.1.map fun body => Renderer.host w.inst
          ((if r.options.emitStyles then scoping.styles else []) ++ body), body.2) := by
  have hparts : ((r.ownParts src definition).runFor w.inst).run w.progress =
      (((r.ownParts src definition).run w).1.map (·, ((r.ownParts src definition).run w).2.inst),
        ((r.ownParts src definition).run w).2.progress) := rfl
  rw [Renderer.expandInstance, run_bind, hparts]
  rcases (r.ownParts src definition).run w with ⟨stop | ⟨own | own, scoping⟩, w'⟩
  · rfl
  · rfl
  · simp only [Except.map, run_bind, run_get]
    rcases (expandForest nested _).run w'.progress with ⟨stop | body, p'⟩ <;> rfl

/-- A new instance is expanded and then released, whether or not that succeeds. -/
theorem run_expand_succ (src : TextSource) (depth : Nat) (definition : Definition)
    (tagName : String) (attributes : Props) (content : List Node) (p : Progress) :
    (r.expand src theme (depth + 1) definition tagName attributes content).run p =
      let w := r.start theme definition tagName attributes p
      let ended := (r.expandInstance src (r.expand src theme depth) definition w.inst content).run
        w.progress
      (ended.1, src.release w.inst.id ended.2) := by
  rw [Renderer.expand, run_bind]
  simp only [Renderer.newInstance, run_bind, run_get, run_set, run_pure, run_tryCatch]
  dsimp only [Renderer.start]
  -- the handler of a stop releases the instance too, so there is no difference between the two ends
  rcases (r.expandInstance src (r.expand src theme depth) definition _ content).run _
    with ⟨stop | n, p'⟩ <;> rfl

end TextSource

/-- The two stages of an occurrence, which takes its texts from the cache. -/
theorem run_expandInstance (nested : Expander) (o : Occurrence) :
    (o.renderer.expandInstance o.deliveries nested o.definition o.start.inst o.content).run
        o.start.progress =
      match o.parts with
      | (.error stop, w) => (.error stop, w.progress)
      | (.ok (none, scoping), w) =>
        (.ok (Renderer.host w.inst (o.written scoping ++ o.content)), w.progress)
      | (.ok (some own, scoping), w) =>
        let body := (expandForest nested
          (o.distribute own scoping w.progress.session.tagMap).nodes).run w.progress
        (body.1.map fun body => Renderer.host w.inst (o.written scoping ++ body), body.2) :=
  TextSource.run_expandInstance ..

/-- An occurrence begins, is expanded, and leaves nothing in the cache. -/
theorem run_expand_succ (depth : Nat) (definition : Definition) (tagName : String)
    (attributes : Props) (content : List Node) (p : Progress) :
    (r.expand d theme (depth + 1) definition tagName attributes content).run p =
      let o := r.begin d theme definition tagName attributes content p
      let ended := (o.renderer.expandInstance o.deliveries (r.expand d theme depth) o.definition
        o.start.inst o.content).run o.start.progress
      (ended.1, ended.2.endInstance o.start.inst.id) :=
  TextSource.run_expand_succ ..

/-- **Whatever `Renderer.expand` computes is an expansion.** -/
theorem follows_expand (depth : Nat) : Faithful r d theme (r.expand d theme depth) := by
  induction depth with
  | zero => exact fun _ _ _ _ _ => ⟨[], .noRoom⟩
  | succ depth ih =>
      intro definition tagName attributes content p
      rw [run_map, run_expand_succ]
      dsimp only
      generalize ho : r.begin d theme definition tagName attributes content p = o
      have hcontent : o.content = content := by rw [← ho]; rfl
      rw [run_expandInstance]
      rcases hparts : o.parts with ⟨stop | ⟨own | own, scoping⟩, w⟩
      · exact ⟨[o], .partsStop ho.symm hparts⟩
      · have hp := Expands.passed ho.symm hparts
        exact ⟨[o], by rw [hcontent]; exact hp⟩
      · obtain ⟨os, hb⟩ := follows_expandForest ih
          (o.distribute own scoping w.progress.session.tagMap).nodes w.progress
        have hf := Expands.filled ho.symm hparts hb
        refine ⟨o :: os, ?_⟩
        dsimp only
        rcases he : (expandForest (r.expand d theme depth)
          (o.distribute own scoping w.progress.session.tagMap).nodes).run w.progress
          with ⟨stop | body, p'⟩ <;> rw [he] at hf <;> exact hf

/-! ## A whole call -/

/-- What a call for a definition's tree expands. -/
def Renderer.rootTask (r : Renderer) (definition : Definition) (attributes : Props) : Task :=
  .component definition (definition.resolvedTagName r.options.anonymousTagPrefix) attributes []

/-- The progress when the definition has been made known. -/
def Progress.register (p : Progress) (c : Catalog) (definition : Definition) : Progress :=
  { p with session := p.session.register c definition }

/-- What a call may expand: the definition that it is for, and those that names stand for. -/
def Progress.MayExpand (p : Progress) (c : Catalog) (definition x : Definition) : Prop :=
  x = definition ∨ ∃ name, (c.register definition p.session.tagMap).get? name = some x

/-- What holds of all definitions that a call may expand can be checked one by one. -/
theorem Progress.forall_mayExpand {p : Progress} {c : Catalog} {definition : Definition}
    {P : Definition → Prop} (hroot : P definition)
    (hknown : ∀ x ∈ (c.register definition p.session.tagMap).values, P x) :
    ∀ x, p.MayExpand c definition x → P x := by
  rintro x (rfl | ⟨name, hx⟩)
  · exact hroot
  · exact hknown x (Fields.mem_values_of_get? hx)

theorem Renderer.elementToTag_eq (r : Renderer) (c : Catalog) (src : TextSource) (depth : Nat)
    (definition : Definition) (attributes : Props) (theme : Option Theme) (p : Progress) :
    r.elementToTag c src depth definition attributes theme p =
      match (r.expand src theme depth definition
          (definition.resolvedTagName r.options.anonymousTagPrefix) attributes []).run
          (p.register c definition) with
      | (.ok n, q) => (.ok n, q)
      | (.error stop, q) => (.error stop, { q with
          session := q.session.rollback (p.register c definition).session.checkpoint }) := rfl

/-- **What a call can come to:** an expansion of its definition, which is taken back if it stops. -/
theorem Renderer.elementToTag_cases (r : Renderer) (c : Catalog) (d : Deliveries) (depth : Nat)
    (definition : Definition) (attributes : Props) (theme : Option Theme) (p : Progress) :
    ∃ q os,
      (∃ n, r.elementToTag c d depth definition attributes theme p = (.ok n, q) ∧
        Expands r d theme (r.rootTask definition attributes) (p.register c definition)
          (.ok [n]) q os) ∨
      ∃ stop, r.elementToTag c d depth definition attributes theme p = (.error stop, { q with
            session := q.session.rollback (p.register c definition).session.checkpoint }) ∧
        Expands r d theme (r.rootTask definition attributes) (p.register c definition)
          (.error stop) q os := by
  obtain ⟨os, hx⟩ := follows_expand (r := r) (d := d) depth definition
    (definition.resolvedTagName r.options.anonymousTagPrefix) attributes []
    (p.register c definition)
  rw [run_map] at hx
  rw [elementToTag_eq]
  rcases he : (r.expand d theme depth definition
      (definition.resolvedTagName r.options.anonymousTagPrefix) attributes []).run
      (p.register c definition) with ⟨stop | n, q⟩ <;> rw [he] at hx
  · exact ⟨q, os, .inr ⟨stop, rfl, hx⟩⟩
  · exact ⟨q, os, .inl ⟨n, rfl, hx⟩⟩

end CustomElements
