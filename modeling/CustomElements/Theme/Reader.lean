import CustomElements.Theme
import CustomElements.Config.Format
import CustomElements.Yaml.Value
import CustomElements.Json.Reader

/-!
# Reading themes

A theme is written as a mapping from names to values. A theme that comes from a file has the file's
stem as its name, and can be read again; if that fails, it stays as it was.
-/

namespace CustomElements.Theme

/-- The values that a YAML text gives. -/
def valuesOfYaml? (text : String) : Option (List (String × Json)) :=
  Yaml.Document.parse? text >>= Yaml.Document.members?

/-- The values that a JSON text gives. -/
def valuesOfJson? (text : String) : Option (List (String × Json)) :=
  match Json.parse? text with
  | some (.object members) => some members
  | _ => none

/-- How the values of a theme are read. -/
def valueReader : Config.Reader (List (String × Json)) := ⟨valuesOfYaml?, valuesOfJson?⟩

/-- A theme without a name from a text. -/
def ofText (f : Config.Format) (text : String) : Except Config.Error Theme :=
  (valueReader.ofText f text).map ofValues

/-- The theme of a file. -/
def ofFile (d : Config.Directory) (path : String) : Except Config.Error Theme :=
  (valueReader.ofFile d path).map fun values => ⟨Config.stem? path, some path, values⟩

/-- Reads the values again from the file that they came from. -/
def refresh (t : Theme) (d : Config.Directory) : Except Config.Error Theme :=
  match t.source with
  | some path => (valueReader.ofFile d path).map fun values => { t with values := values }
  | none => .error .noSource

end CustomElements.Theme
