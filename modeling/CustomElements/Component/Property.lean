import CustomElements.Json.Value
import CustomElements.Fields

/-!
# What a component declares about its inputs

A component declares the properties it understands and the capabilities it has. A property is read
from an attribute, by default its own name with words joined by dashes, and may be written back to
that attribute.
-/

namespace CustomElements

/-- Optional features of a component. -/
structure Capabilities where
  /-- It sees the resolved theme. -/
  theme : Bool
  /-- It sees the active language as the property `lang`. -/
  i18n : Bool
  /-- It writes reflected properties back as attributes. -/
  reflect : Bool
  deriving DecidableEq, Repr

namespace Capabilities

/-- No optional feature. -/
def none : Capabilities := ⟨false, false, false⟩

/-- The set held by the low three bits of a number; higher bits mean nothing. -/
def ofBits (n : Nat) : Capabilities := ⟨n.testBit 0, n.testBit 1, n.testBit 2⟩

/-- The set as a number, one bit per feature. -/
def bits (c : Capabilities) : Nat := c.theme.toNat + 2 * c.i18n.toNat + 4 * c.reflect.toNat

/-- Features of either set. -/
def union (a b : Capabilities) : Capabilities :=
  ⟨a.theme || b.theme, a.i18n || b.i18n, a.reflect || b.reflect⟩

end Capabilities

/-- The rest of a name in lower case with words joined by dashes. -/
def kebabRest : List Char → List Char
  | [] => []
  | c :: rest =>
    if c = '_' then '-' :: kebabRest rest
    else if c.isUpper then '-' :: c.toLower :: kebabRest rest
    else c :: kebabRest rest

/-- A name in lower case with words joined by dashes; a capital at the start opens no word. -/
def kebabChars : List Char → List Char
  | [] => []
  | c :: rest => if c.isUpper then c.toLower :: kebabRest rest else kebabRest (c :: rest)

/-- The attribute name that belongs to a property name. -/
def kebabCase (name : String) : String := String.ofList (kebabChars name.toList)

/-- A declared property. -/
structure Property where
  /-- The name that templates see. -/
  name : String
  /-- The attribute that it is read from and written back to. -/
  attributeName : String
  /-- It is written back. -/
  reflect : Bool
  /-- The value if the attribute is absent. -/
  default : Option Json

/-- A property read from the attribute of its name, without a default. -/
def Property.ofName (name : String) : Property := ⟨name, kebabCase name, false, none⟩

/-- What a component declares about its inputs. -/
structure Interface where
  properties : List Property
  capabilities : Capabilities

end CustomElements
