/-!
# Rendering options

The names and the language that a rendering uses, and whether it writes stylesheets. Scoping happens
either way.
-/

namespace CustomElements

/-- How components are rendered. -/
structure Options where
  /-- What scoping identifiers begin with. -/
  classPrefix : String := "css"
  /-- What the tag name of a definition without one begins with. -/
  anonymousTagPrefix : String := "stencil-anonymous"
  /-- Stylesheets are written into the output. -/
  emitStyles : Bool := true
  /-- The language that components may see. -/
  lang : String := "en"
  deriving DecidableEq, Repr

/-- The options that are used unless others are given. -/
def Options.standard : Options := {}

end CustomElements
