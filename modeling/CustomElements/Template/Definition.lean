import CustomElements.Change
import CustomElements.Component.Instance
import CustomElements.Template.Error

/-!
# Templates

A template pairs a render function with the mask of changes that it reacts to. A render function
sees the instance that it renders, the reason of the request, and its own earlier calls; it may set
attributes on the instance, and returns a result or a failure. What it sets stays set also if it
fails.

A template without a render function renders to nothing.
-/

namespace CustomElements

/-- One call of a render function. -/
structure Call where
  /-- The instance as it was when the call began. -/
  inst : Instance
  reason : Change

/-- What a call leads to. -/
structure Outcome where
  /-- The instance's own attributes after the call. -/
  ownAttributes : Attributes
  result : Except Failure RenderResult

/-- A render function: given its earlier calls, latest first, it answers the next one. -/
abbrev RenderFunction := List Call → Call → Outcome

/-- Where a template's output goes. -/
inductive Attach where
  /-- The output becomes the host element's children. -/
  | children
  /-- The output is computed and kept, but not written. -/
  | detached
  deriving DecidableEq, Repr

/-- A template. Its identity is what caches know it by. -/
structure Template where
  id : Nat
  mask : Change
  attach : Attach
  run? : Option RenderFunction

namespace Template

/-- A template that renders to nothing. -/
def empty (id : Nat) (mask : Change) : Template := ⟨id, mask, .children, none⟩

/-- A template with a render function. -/
def ofFunction (id : Nat) (mask : Change) (run : RenderFunction) : Template :=
  ⟨id, mask, .children, some run⟩

/--
The template with another way to attach. A template that someone else holds stays as it is, and the
new one goes by the identity `fresh`; one that nobody else holds keeps its identity.
-/
def withAttach (t : Template) (shared : Bool) (fresh : Nat) (attach : Attach) : Template :=
  { t with id := if shared then fresh else t.id, attach := attach }

end Template

/-- The function that writes the same markup every time and leaves the instance alone. -/
def RenderFunction.ofString (markup : String) : RenderFunction := fun _ call =>
  ⟨call.inst.ownAttributes, .ok (.fragment (.ofString markup))⟩

end CustomElements
