/-!
# What can go wrong in a text template

A template that cannot be read has a syntax error and renders nothing. The other causes arise while
a template renders.
-/

namespace CustomElements.Jinja

/-- The cause of a failure. -/
inductive Error where
  /-- The template's text cannot be read. -/
  | badSyntax
  /-- An operation does not apply to its operands. -/
  | invalidOperation
  /-- A part of an undefined value was asked for. -/
  | undefinedValue
  /-- No template has the name. -/
  | templateNotFound
  /-- A template that is included or extended could not be rendered. -/
  | badInclude
  /-- A block could not be rendered. -/
  | blockFailed
  | unknownFilter
  | unknownTest
  | unknownFunction
  | unknownMethod
  | unknownBlock
  /-- A call has more arguments than are expected. -/
  | tooManyArguments
  /-- A call lacks an argument. -/
  | missingArgument
  /-- A sequence does not have as many items as it is unpacked into. -/
  | cannotUnpack
  /-- A value that can be no key was used as one. -/
  | nonKey
  /-- A value other than text, number or the like was used as one. -/
  | nonPrimitive
  /-- A value has no form as data. -/
  | badSerialization
  /-- An escape in a text literal cannot be read. -/
  | badEscape
  /-- The evaluation went deeper than it was given room for. -/
  | outOfRoom
  deriving DecidableEq, Repr

end CustomElements.Jinja
