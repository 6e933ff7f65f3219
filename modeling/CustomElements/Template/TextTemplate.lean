import CustomElements.Jinja.Environment
import CustomElements.Template.Definition

/-!
# Render functions from text templates

A text template sees the properties of the instance, its theme and the reason of the request. It
never changes the instance, and its calls do not depend on one another.
-/

namespace CustomElements

/-- What a text template is rendered with in a call. -/
def Call.context (c : Call) : Jinja.Context := ⟨c.inst.props, c.inst.theme, c.reason⟩

namespace RenderFunction

/-- The render function that leaves the instance alone and writes a text. -/
def ofRendering (render : Jinja.Context → Except Jinja.Error String) : RenderFunction :=
  fun _ call =>
    ⟨call.inst.ownAttributes,
      match render call.context with
      | .ok text => .ok (.fragment (.ofString text))
      | .error e => .error (.jinja e)⟩

/-- The render function of a source, with no other templates at hand. -/
def ofSource (source : String) : RenderFunction :=
  ofRendering (Jinja.Environment.empty.renderSource source)

/-- The render function of a named template. -/
def ofNamed (env : Jinja.Environment) (name : String) : RenderFunction :=
  ofRendering (env.renderNamed name)

end RenderFunction

end CustomElements
