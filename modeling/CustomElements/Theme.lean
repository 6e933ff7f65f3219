import CustomElements.Json.Value

/-!
# Themes

A theme is a collection of named values that is handed on to components and never looked into. It
may have a name, and it remembers the file it was read from.
-/

namespace CustomElements

/-- A collection of named values. -/
structure Theme where
  name : Option String
  /-- The file that the values were read from. -/
  source : Option String
  /-- The values in ascending order of their names. -/
  values : List (String × Json)

namespace Theme

/-- An empty theme without a name. -/
def empty : Theme := ⟨none, none, []⟩

/-- An empty theme with a name. -/
def named (name : String) : Theme := { empty with name := some name }

/-- A theme without a name that holds the given values. -/
def ofValues (values : List (String × Json)) : Theme := { empty with values := values }

/-- Gives the theme another name. -/
def withName (t : Theme) (name : String) : Theme := { t with name := some name }

/-- Sets a value. -/
def insert (t : Theme) (key : String) (value : Json) : Theme :=
  { t with values := Json.insertMember key value t.values }

/-- The value of a key. -/
def get? (t : Theme) (key : String) : Option Json := Json.findMember? key t.values

/-- The number of values. -/
def size (t : Theme) : Nat := t.values.length

/-- Sets every value of another theme. -/
def merge (t other : Theme) : Theme :=
  { t with values := other.values.foldl (fun l e => Json.insertMember e.1 e.2 l) t.values }

/-- The values as one object. -/
def toJson (t : Theme) : Json := .object t.values

end Theme

end CustomElements
