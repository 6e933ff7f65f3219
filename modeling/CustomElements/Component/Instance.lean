import CustomElements.Component.AttributeText
import CustomElements.Component.Property
import CustomElements.Markup.Node
import CustomElements.Theme

/-!
# Instances

An instance stands for one occurrence of a component in a document. From the attributes that the
caller gave, it works out the properties that templates see; and while it renders, it may set
attributes on itself. The host element of the instance carries the caller's attributes, the
reflected properties and the self-set attributes: where they name the same attribute the later
source wins, and the attribute stays where it was first named.
-/

namespace CustomElements

/-- Named values: the caller's attributes, or the properties that templates see. -/
abbrev Props := Fields Json

/-- One occurrence of a component. -/
structure Instance where
  id : Nat
  /-- The definition that it is an occurrence of. -/
  definition : Nat
  tagName : String
  interface : Interface
  /-- The attributes that the caller gave. -/
  attributes : Props
  props : Props
  /-- The theme, for components that may see it. -/
  theme : Option Theme
  /-- The attributes that the instance set on itself. -/
  ownAttributes : Attributes

namespace Instance

/-- The value of a declared property: from its attribute, else from its name, else its default. -/
def declaredValue? (attributes : Props) (p : Property) : Option Json :=
  ((attributes.get? p.attributeName).or (attributes.get? p.name)).or p.default

/-- The declared values written over the attributes, in the order of the declarations. -/
def declaredProps (properties : List Property) (attributes : Props) : Props :=
  properties.foldl (fun props p => match declaredValue? attributes p with
    | some value => props.insert p.name value
    | none => props) attributes

/-- What templates see: the declared values, and the language for components that may see it. -/
def visibleProps (interface : Interface) (attributes : Props) (lang : String) : Props :=
  let props := declaredProps interface.properties attributes
  if interface.capabilities.i18n then props.insertIfNew "lang" (.string lang) else props

/-- A new occurrence with the given identity. -/
def create (id definition : Nat) (interface : Interface) (tagName : String) (attributes : Props)
    (theme : Option Theme) (lang : String) : Instance where
  id := id
  definition := definition
  tagName := tagName
  interface := interface
  attributes := attributes
  props := visibleProps interface attributes lang
  theme := if interface.capabilities.theme then theme else none
  ownAttributes := ∅

/-- Sets an attribute on the host element. -/
def setAttribute (i : Instance) (name value : String) : Instance :=
  { i with ownAttributes := i.ownAttributes.insert name value }

/-- Takes back an attribute that the instance set. -/
def removeAttribute (i : Instance) (name : String) : Instance :=
  { i with ownAttributes := i.ownAttributes.erase name }

/-- The caller's attributes as text. -/
def explicitAttributes (i : Instance) : Attributes := i.attributes.map attributeText

/-- The reflected properties as text, for components that reflect. -/
def reflectedAttributes (i : Instance) : Attributes :=
  if i.interface.capabilities.reflect then
    Fields.ofList ((i.interface.properties.filter (·.reflect)).filterMap fun p =>
      (i.props.get? p.name).map fun value => (p.attributeName, attributeText value))
  else ∅

/-- The attributes of the host element. -/
def hostAttributes (i : Instance) : Attributes :=
  (i.explicitAttributes.union i.reflectedAttributes).union i.ownAttributes

end Instance

end CustomElements
