import CustomElements.Markup.Node

/-!
# Writing markup

Text is escaped except directly inside `script` and `style`, whose contents a reader takes as they
are. In an attribute only the double quote is escaped, since the value stands between two of them.
-/

namespace CustomElements

/-- One character of text content. -/
def escapeTextChar (c : Char) : List Char :=
  if c = '&' then ['&', 'a', 'm', 'p', ';']
  else if c = '<' then ['&', 'l', 't', ';']
  else if c = '>' then ['&', 'g', 't', ';']
  else [c]

/-- One character of an attribute value. -/
def escapeAttributeChar (c : Char) : List Char :=
  if c = '"' then ['&', 'q', 'u', 'o', 't', ';'] else [c]

/-- Text content in which no character opens a tag or an entity. -/
def escapeText (s : String) : String := String.ofList (s.toList.flatMap escapeTextChar)

/-- An attribute value that may stand between double quotes. -/
def escapeAttribute (s : String) : String := String.ofList (s.toList.flatMap escapeAttributeChar)

/-- The elements whose text is written as it is. -/
def rawTextNames : List String := ["script", "style"]

/-- A name and a quoted value. -/
def renderAttribute (a : String × String) : String :=
  a.1 ++ "=\"" ++ escapeAttribute a.2 ++ "\""

/-- The attributes with spaces between them. -/
def Fields.renderAttributes (f : Attributes) : String :=
  " ".intercalate (f.entries.map renderAttribute)

/-- An opening tag. -/
def renderOpenTag (name : String) (attributes : Attributes) : String :=
  if attributes.isEmpty then "<" ++ name ++ ">"
  else "<" ++ name ++ " " ++ attributes.renderAttributes ++ ">"

/-- A closing tag. -/
def renderCloseTag (name : String) : String := "</" ++ name ++ ">"

mutual

/-- The markup of a node; `raw` tells that its parent's text is not escaped. -/
def Node.render (raw : Bool) : Node → String
  | .element tag children =>
    let opening := renderOpenTag tag.name tag.attributes
    if tag.selfClosing then opening
    else opening ++ Node.renderForest (rawTextNames.contains tag.name) children ++
      renderCloseTag tag.name
  | .text s => if raw then s else escapeText s
  | .style attributes s =>
    renderOpenTag "style" attributes ++ s.sheet.render ++ renderCloseTag "style"
  | .styleText s => s.sheet.render

/-- The markup of nodes that follow one another. -/
def Node.renderForest (raw : Bool) : List Node → String
  | [] => ""
  | n :: rest => n.render raw ++ Node.renderForest raw rest

end

/-- The markup of a node. -/
def Node.toHtml (n : Node) : String := n.render false

/-- The markup of a forest. -/
def Node.forestToHtml (nodes : List Node) : String := Node.renderForest false nodes

end CustomElements
