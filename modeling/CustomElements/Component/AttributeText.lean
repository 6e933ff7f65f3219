import CustomElements.Json.Printer

/-!
# The text of a value in an attribute

Strings stand as they are and `null` stands for nothing, so that data written into markup looks as
its author expects; items of arrays follow one another without a separator. Only objects, which have
no text of their own, are written as JSON.
-/

namespace CustomElements

mutual

/-- The text of a value in an attribute or in markup. -/
def attributeText : Json → String
  | .string s => s
  | .null => ""
  | .bool b => if b then "true" else "false"
  | .number n => n.text
  | .array items => attributeTexts items
  | .object members => (Json.object members).render

/-- The texts of values, one after the other. -/
def attributeTexts : List Json → String
  | [] => ""
  | v :: rest => attributeText v ++ attributeTexts rest

end

end CustomElements
