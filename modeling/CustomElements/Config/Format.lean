import CustomElements.Config.Directory
import CustomElements.Text.Case

/-!
# Formats of settings

Settings are written in YAML or in JSON, and the extension of a file tells which. The extension is
looked at before the file is.
-/

namespace CustomElements.Config

/-- A format that settings are written in. -/
inductive Format where
  | yaml
  | json
  deriving DecidableEq, Repr

namespace Format

/-- The format that an extension stands for, in any case. -/
def ofExtension? (ext : String) : Option Format :=
  match ext.map Char.toLower with
  | "yaml" | "yml" => some .yaml
  | "json" => some .json
  | _ => none

/-- The format of the file that a path leads to. -/
def ofPath? (path : String) : Option Format := (extension? path).bind ofExtension?

end Format

/-- How a kind of settings is read from each format; nothing if the text is malformed. -/
structure Reader (α : Type) where
  yaml? : String → Option α
  json? : String → Option α

/-- Reads settings from a text. -/
def Reader.ofText {α : Type} (r : Reader α) (f : Format) (text : String) : Except Error α :=
  match f with
  | .yaml => (r.yaml? text).elim (.error .badYaml) .ok
  | .json => (r.json? text).elim (.error .badJson) .ok

/-- Reads settings from a file. -/
def Reader.ofFile {α : Type} (r : Reader α) (d : Directory) (path : String) : Except Error α :=
  match Format.ofPath? path with
  | none => .error (.unsupportedFormat path)
  | some f =>
    match d.readText path with
    | .ok text => r.ofText f text
    | .error e => .error (.unreadable path e)

end CustomElements.Config
