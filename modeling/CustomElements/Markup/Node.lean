import CustomElements.Fields
import CustomElements.Style.Sheet
import CustomElements.Text.Blank

/-!
# The render tree

Markup is a forest of nodes: elements, text, and the stylesheets that scoping adds. A node is a
value; what changes a tree builds another one. An element is its *tag*, which is all that its
opening tag says, and its children. A tag also records whether the element is the finished expansion
of a component: nothing inside an expanded element is looked at again.
-/

namespace CustomElements

/-- The attributes of an element in the order in which they are written. -/
abbrev Attributes := Fields String

/-- An element without its children. -/
structure Tag where
  name : String
  attributes : Attributes
  /-- The element has an opening tag only. -/
  selfClosing : Bool
  /-- The element is the finished expansion of a component. -/
  expanded : Bool
  deriving DecidableEq

/-- A parsed stylesheet and the way it is shared. -/
structure ScopedSheet where
  sheet : Style.Sheet
  scope : Style.Scope
  deriving DecidableEq

/-- A node of the render tree. -/
inductive Node where
  | element (tag : Tag) (children : List Node)
  | text (s : String)
  /-- A `<style>` element around one stylesheet. -/
  | style (attributes : Attributes) (sheet : ScopedSheet)
  /-- The text of a stylesheet. -/
  | styleText (sheet : ScopedSheet)

instance : Inhabited Node := ⟨.text ""⟩

/-- The element names that never have children or a closing tag. -/
def voidNames : List String :=
  ["area", "base", "basefont", "bgsound", "br", "col", "command", "embed", "frame", "hr", "image",
    "img", "input", "isindex", "keygen", "link", "menuitem", "meta", "nextid", "param", "source",
    "track", "wbr"]

/-- The name is that of a void element, in any ASCII letter case. -/
def isVoidName (name : String) : Bool := voidNames.contains (Text.asciiLower name)

namespace Tag

/-- A tag without attributes. Void elements close themselves. -/
def ofName (name : String) : Tag := ⟨name, ∅, isVoidName name, false⟩

/-- The value of an attribute. -/
def attribute? (t : Tag) (name : String) : Option String := t.attributes.get? name

/-- Sets one attribute. -/
def withAttribute (t : Tag) (name value : String) : Tag :=
  { t with attributes := t.attributes.insert name value }

/-- The value of a `class` attribute with the classes added at its end. -/
def joinClasses (existing : Option String) (classes : List String) : String :=
  let added := " ".intercalate classes
  match existing with
  | none => added
  | some value =>
    let kept := Text.trimmed value
    if kept = "" then added else kept ++ " " ++ added

/-- Adds classes at the end of the `class` attribute. No classes change nothing. -/
def withClasses (t : Tag) (classes : List String) : Tag :=
  if classes.isEmpty then t
  else t.withAttribute "class" (joinClasses (t.attribute? "class") classes)

/-- Marks the element as a finished expansion. -/
def markExpanded (t : Tag) : Tag := { t with expanded := true }

/-- Tags that say the same; the order of their attributes does not matter. -/
def equiv (s t : Tag) : Bool :=
  s.name == t.name && s.attributes.equiv t.attributes && s.selfClosing == t.selfClosing &&
    s.expanded == t.expanded

end Tag

namespace Node

/-- The element's tag. -/
def tag? : Node → Option Tag
  | .element tag _ => some tag
  | _ => none

/-- A `<style>` element without attributes. -/
def ofSheet (sheet : Style.Sheet) (scope : Style.Scope) : Node := .style ∅ ⟨sheet, scope⟩

mutual

/-- Nodes that say the same; the order of attributes does not matter. -/
def equiv : Node → Node → Bool
  | .element s cs, .element t ds => s.equiv t && equivForest cs ds
  | .text s, .text t => s == t
  | .style a s, .style b t => a.equiv b && s == t
  | .styleText s, .styleText t => s == t
  | _, _ => false

/-- Forests that say the same, node by node. -/
def equivForest : List Node → List Node → Bool
  | [], [] => true
  | n :: ns, m :: ms => equiv n m && equivForest ns ms
  | _, _ => false

end

end Node

end CustomElements
