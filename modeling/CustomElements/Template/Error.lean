import CustomElements.Jinja.Error
import CustomElements.Template.Result

/-!
# Why a render fails

A failure ends the call that met it: there is no partial output.
-/

namespace CustomElements

/-- What a render function reports when it fails. -/
inductive Failure where
  /-- A message of the function's own. -/
  | message (text : String)
  /-- A text template could not be rendered. -/
  | jinja (cause : Jinja.Error)
  deriving DecidableEq, Repr

/-- Why a render failed. -/
inductive RenderError where
  /-- A render function failed. -/
  | render (template : Nat) (cause : Failure)
  /-- A stylesheet cannot be read. -/
  | cssParse (css reason : String)
  /-- A result has no text. -/
  | missingText (kind : Formless)
  deriving DecidableEq, Repr

/-- The name of the kind of data that has no text. -/
def Formless.label : Formless → String
  | .object => "object"
  | .null => "null"

/-- The message of a failed render function. -/
def renderMessage (template source : String) : String :=
  "render function for template " ++ template ++ " failed: " ++ source

/-- The message of a stylesheet that cannot be read. -/
def cssMessage (reason : String) : String := "failed to parse stylesheet: " ++ reason

/-- The message of a result without a text. -/
def missingTextMessage (kind : Formless) : String :=
  "render result has no text form (" ++ kind.label ++ ")"

end CustomElements
