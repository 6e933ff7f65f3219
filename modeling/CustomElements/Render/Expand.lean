import CustomElements.Markup.Scope
import CustomElements.Markup.Slot
import CustomElements.Options
import CustomElements.Render.Session
import CustomElements.Style.Parser

/-!
# Expanding components

A component is expanded into its host element. Its markup is rendered and parsed, its stylesheets
are rendered and confined to it, the scoping classes are added to its own elements, the caller's
content is put into its slots, and the custom elements in the result are expanded in turn, the
content of each before the element itself. The host then carries the merged attributes, and holds
the stylesheets followed by the content.

A component may contain itself under a condition, so the depth of nesting is not known in advance.
An expansion is given room for a number of nested components; to run out of it is told apart from
every failure.

The texts of templates are asked for at a *source* (`TextSource`). For a renderer that is the cache
of its session.
-/

namespace CustomElements

/-- What a renderer is made of. -/
structure Renderer where
  options : Options
  /-- Turns markup into nodes. -/
  parse : String → List Node

/-- What expanding may change. -/
structure Progress where
  session : Session
  journal : Journal

/-- Why an expansion ends early. -/
inductive Stop where
  | error (e : RenderError)
  /-- Components are nested more deeply than there was room for. -/
  | outOfRoom
  deriving DecidableEq, Repr

/-- Drops what the cache holds for an instance. -/
def Progress.endInstance (p : Progress) (id : Nat) : Progress :=
  { p with session := (p.session.endInstance id).2 }

/-- A step of an expansion. Progress made before a failure is kept. -/
abbrev Expansion (α : Type) := ExceptT Stop (StateM Progress) α

/-- What rendering for one instance may change: also the instance's own attributes. -/
structure Work where
  progress : Progress
  inst : Instance

/-- A step of rendering for one instance. What it did before a failure is kept. -/
abbrev InstanceStep (α : Type) := ExceptT Stop (StateM Work) α

namespace InstanceStep

/-- Performs a step for an instance; also gives the instance as the step leaves it. -/
def runFor {α : Type} (step : InstanceStep α) (inst : Instance) : Expansion (α × Instance) :=
  fun p =>
    let (answer, work) := step.run ⟨p, inst⟩
    (answer.map (·, work.inst), work.progress)

/-- Changes the session. -/
def modifySession (f : Session → Session) : InstanceStep Unit :=
  modify fun w => { w with progress := { w.progress with session := f w.progress.session } }

/-- Renders a template of the instance to text. -/
def renderText (d : Deliveries) (t : Template) : InstanceStep (Option String) := do
  let w ← get
  let r := w.progress.session.renderText w.progress.journal d t .force w.inst
  set (Work.mk ⟨r.session, r.journal⟩ r.inst)
  match r.answer with
  | .ok answer => return answer.value.map (·.text)
  | .error e => throw (.error e)

end InstanceStep

/-! ## Where texts come from -/

/-- Where the texts of an instance's templates come from. -/
structure TextSource where
  /-- The text of a template of the instance. -/
  text : Template → InstanceStep (Option String)
  /-- What is done when the instance with this identity is done. -/
  release : Nat → Progress → Progress

/-- Texts are read through the session's cache, which is emptied of what an instance left in it. -/
def TextSource.cached (d : Deliveries) : TextSource :=
  ⟨InstanceStep.renderText d, fun id p => p.endInstance id⟩

@[simp] theorem TextSource.cached_text (d : Deliveries) (t : Template) :
    (cached d).text t = InstanceStep.renderText d t := rfl

/-- The session's cache is the source that a renderer has, unless another one is named. -/
instance : Coe Deliveries TextSource := ⟨TextSource.cached⟩

/-! ## Stylesheets -/

/-- The scoping identifiers of an instance, and the sheets to write for it. -/
structure StyleScoping where
  /-- The identifier of sheets of its own. -/
  uniqueId : Option String
  /-- The identifier of sheets shared with other instances. -/
  globalId : Option String
  /-- `<style>` elements in the order of the templates. -/
  styles : List Node

namespace StyleScoping

/-- No sheets. -/
def none : StyleScoping := ⟨.none, .none, []⟩

/-- The classes of the instance's own elements. -/
def classes (s : StyleScoping) : List String := s.uniqueId.toList ++ s.globalId.toList

end StyleScoping

/-- The identifier for a sheet, drawing the instance's index if it is the first of its own. -/
def scopeId (classPrefix : String) (definition : Nat) (scope : Style.Scope)
    (done : StyleScoping) : InstanceStep (String × StyleScoping) := do
  let w ← get
  let tag := w.inst.tagName
  match scope, done.uniqueId with
  | .global, _ =>
    let id := done.globalId.getD (Style.globalId classPrefix tag)
    return (id, { done with globalId := some id })
  | .unique, some id => return (id, done)
  | .unique, none =>
    let (index, session) := w.progress.session.nextUniqueIndex definition
    InstanceStep.modifySession fun _ => session
    let id := Style.uniqueId classPrefix tag index
    return (id, { done with uniqueId := some id })

/-- Renders one stylesheet of the instance and confines it. Shared sheets may be left out. -/
def scopeSheet (src : TextSource) (classPrefix : String) (definition : Nat) (emitGlobal : Bool)
    (t : Template) (done : StyleScoping) : InstanceStep StyleScoping := do
  let scope := Style.Scope.ofMask t.mask
  let (id, done) ← scopeId classPrefix definition scope done
  if scope = .global ∧ ¬ emitGlobal then return done
  match ← src.text t with
  | none => return done
  | some css =>
    match Style.Sheet.parse css with
    | .error fault => throw (.error (.cssParse css (fault.reason css)))
    | .ok sheet =>
      return { done with styles := done.styles ++ [Node.ofSheet (sheet.scoped id) scope] }

/-- Renders and confines stylesheets, one after the other. -/
def scopeSheets (src : TextSource) (classPrefix : String) (definition : Nat) (emitGlobal : Bool) :
    List Template → StyleScoping → InstanceStep StyleScoping
  | [], done => return done
  | t :: rest, done => do
    let done ← scopeSheet src classPrefix definition emitGlobal t done
    scopeSheets src classPrefix definition emitGlobal rest done

/--
Renders and confines the stylesheets of an instance. Shared sheets are rendered for the first
instance in the session only.
-/
def scopeStyles (src : TextSource) (classPrefix : String) (definition : Definition) :
    InstanceStep StyleScoping := do
  let emitGlobal := !(← get).progress.session.isGlobalEmitted definition.id
  let done ← scopeSheets src classPrefix definition.id emitGlobal definition.css .none
  if emitGlobal ∧ done.globalId.isSome then
    InstanceStep.modifySession fun s => (s.markGlobalEmitted definition.id).2
  return done

/-! ## Nested components -/

/-- How a nested component is expanded: its definition, tag name, attributes and content. -/
abbrev Expander := Definition → String → Props → List Node → Expansion Node

mutual

/-- Replaces the custom elements in a node by their expansions. -/
def expandNode (expand : Expander) : Node → Expansion Node
  | .element tag children => do
    if tag.expanded then return .element tag children
    match (← get).session.lookup tag.name with
    | none => return .element tag (← expandForest expand children)
    | some nested => do
      let content ← expandForest expand children
      expand nested tag.name (tag.attributes.map .string) content
  | n => return n

/-- Replaces the custom elements in a forest by their expansions. -/
def expandForest (expand : Expander) : List Node → Expansion (List Node)
  | [] => return []
  | n :: rest => do
    let n ← expandNode expand n
    let rest ← expandForest expand rest
    return n :: rest

end

namespace Renderer

/-- The nodes of an instance's own markup; none if its template writes nothing. -/
def ownMarkup (r : Renderer) (src : TextSource) (definition : Definition) :
    InstanceStep (Option (List Node)) := do
  match definition.html with
  | none => return none
  | some t =>
    let text ← src.text t
    match t.attach with
    | .children => return text.map r.parse
    | .detached => return none

/-- The own markup of an instance, and its scoped stylesheets. -/
def ownParts (r : Renderer) (src : TextSource) (definition : Definition) :
    InstanceStep (Option (List Node) × StyleScoping) := do
  let own ← r.ownMarkup src definition
  let scoping ← scopeStyles src r.options.classPrefix definition
  return (own, scoping)

/-- The host element of an instance with the given children. -/
def host (inst : Instance) (children : List Node) : Node :=
  .element ⟨inst.tagName, inst.hostAttributes, false, true⟩ children

/-- Expands an instance, given how to expand what is nested in it. -/
def expandInstance (r : Renderer) (src : TextSource) (nested : Expander) (definition : Definition)
    (inst : Instance) (content : List Node) : Expansion Node := do
  let ((own, scoping), inst) ← (r.ownParts src definition).runFor inst
  let body ← match own with
    | none => pure content
    | some own => do
      let tags := (← get).session.tagMap
      let classed := scopeMarkup own scoping.classes tags.contains
      expandForest nested (Distribution.resolve classed content).nodes
  let styles := if r.options.emitStyles then scoping.styles else []
  return host inst (styles ++ body)

/-- A new instance, which takes the next identity. -/
def newInstance (r : Renderer) (definition : Definition) (tagName : String) (attributes : Props)
    (theme : Option Theme) : Expansion Instance := do
  let p ← get
  let id := p.journal.instances
  set { p with journal := { p.journal with instances := id + 1 } }
  return .create id definition.id definition.interface tagName attributes theme r.options.lang

/-- Expands one occurrence of a definition, with room for `depth` components nested in it. -/
def expand (r : Renderer) (src : TextSource) (theme : Option Theme) : (depth : Nat) → Expander
  | 0 => fun _ _ _ _ => throw .outOfRoom
  | depth + 1 => fun definition tagName attributes content => do
    let inst ← r.newInstance definition tagName attributes theme
    let node ← tryCatch (r.expandInstance src (r.expand src theme depth) definition inst content)
      fun stop => do
        modify (src.release inst.id)
        throw stop
    modify (src.release inst.id)
    return node

/--
Expands a definition into its host element. What the definition depends on becomes known to the
session first. A failure takes the session back to where it was, as far as sheets and pending texts
go.
-/
def elementToTag (r : Renderer) (c : Catalog) (src : TextSource) (depth : Nat)
    (definition : Definition) (attributes : Props) (theme : Option Theme) (p : Progress) :
    Except Stop Node × Progress :=
  let p := { p with session := p.session.register c definition }
  let checkpoint := p.session.checkpoint
  let tagName := definition.resolvedTagName r.options.anonymousTagPrefix
  match (r.expand src theme depth definition tagName attributes []).run p with
  | (.ok node, p) => (.ok node, p)
  | (.error stop, p) => (.error stop, { p with session := p.session.rollback checkpoint })

/-- Expands a definition and writes the result as markup. -/
def render (r : Renderer) (c : Catalog) (src : TextSource) (depth : Nat) (definition : Definition)
    (attributes : Props) (theme : Option Theme) (p : Progress) : Except Stop String × Progress :=
  let (result, p) := r.elementToTag c src depth definition attributes theme p
  (result.map Node.toHtml, p)

end Renderer

end CustomElements
