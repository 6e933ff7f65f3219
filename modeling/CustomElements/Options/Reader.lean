import CustomElements.Options
import CustomElements.Config.Format
import CustomElements.Json.Skip
import CustomElements.Yaml.Value

/-!
# Reading options

Options are written as named fields or as a list of fields in a fixed order; a field that is left
out keeps its standard value. A field may not be given twice. Names that are not known are ignored,
together with what they stand for.

YAML takes the text of any scalar for a text. JSON takes strings and truth values for what they are.
-/

namespace CustomElements.Options

/-- The fields of the options. -/
inductive Field where
  | classPrefix
  | anonymousTagPrefix
  | emitStyles
  | lang
  deriving DecidableEq, Repr

namespace Field

/-- The fields in the order in which a list gives them. -/
def all : List Field := [.classPrefix, .anonymousTagPrefix, .emitStyles, .lang]

/-- The name of a field. -/
def name : Field → String
  | .classPrefix => "class_prefix"
  | .anonymousTagPrefix => "anonymous_tag_prefix"
  | .emitStyles => "emit_styles"
  | .lang => "lang"

/-- The field of a name. -/
def ofName? (name : String) : Option Field := all.find? fun f => f.name == name

end Field

/-- How a format writes the values of fields. -/
structure FieldFormat (α : Type) where
  text? : α → Option String
  flag? : α → Option Bool

/-- Sets a field to what is written for it. -/
def setField? {α : Type} (w : FieldFormat α) (o : Options) : Field × α → Option Options
  | (.classPrefix, v) => (w.text? v).map fun s => { o with classPrefix := s }
  | (.anonymousTagPrefix, v) => (w.text? v).map fun s => { o with anonymousTagPrefix := s }
  | (.emitStyles, v) => (w.flag? v).map fun b => { o with emitStyles := b }
  | (.lang, v) => (w.text? v).map fun s => { o with lang := s }

/-- The options with the given fields, none of which may occur twice. -/
def ofFields? {α : Type} (w : FieldFormat α) (fields : List (Field × α)) : Option Options :=
  if (fields.map Prod.fst).Nodup then fields.foldlM (setField? w) standard else none

/-- The options whose first fields are given in order. -/
def ofItems? {α : Type} (w : FieldFormat α) (items : List α) : Option Options :=
  if items.length ≤ Field.all.length then ofFields? w (Field.all.zip items) else none

/-! ## YAML -/

/-- Any scalar is a text; only a plain one is a truth value, unless its tag says so. -/
def yamlFormat (d : Yaml.Document) : FieldFormat Yaml.Node where
  text? n := match d.target? n with
    | some (.scalar text _ _) => some text
    | _ => none
  flag? n := match d.target? n with
    | some (.scalar text .plain _)
    | some (.scalar text .literal (some "tag:yaml.org,2002:bool")) => Yaml.bool? text
    | _ => none

/-- The options that a YAML text gives. -/
def ofYaml? (text : String) : Option Options := do
  let d ← Yaml.Document.parse? text
  let w := yamlFormat d
  match d.root? with
  | none | some (.scalar "" .plain _) => some standard
  | some (.sequence items _) => ofItems? w items
  | some (.mapping entries _) =>
    let names ← entries.mapM fun (k, _) => w.text? k
    ofFields? w ((names.zip (entries.map Prod.snd)).filterMap fun (name, n) =>
      (Field.ofName? name).map (·, n))
  | _ => none

/-! ## JSON -/

/-- A string is a text, and a truth value is one. -/
def jsonFormat : FieldFormat Json where
  text?
    | .string s => some s
    | _ => none
  flag?
    | .bool b => some b
    | _ => none

/-- The known fields of an object up to its closing brace, and what follows. -/
def jsonFields? : (fuel : Nat) → List Char → Option (List (Field × Json) × List Char)
  | 0, _ => none
  | fuel + 1, cs =>
    match Json.skipSpace cs with
    | '"' :: rest => do
      let (name, rest) ← Json.stringBody? (rest.length + 1) rest
      let rest ← match Json.skipSpace rest with
        | ':' :: rest => some rest
        | _ => none
      let (known, rest) ← match Field.ofName? (String.ofList name) with
        | some f => (Json.value? (Json.readFuel rest) Json.nestingLimit rest).map fun (v, rest) =>
          ([(f, v)], rest)
        | none => (Json.skip? (Json.readFuel rest) rest).map fun rest => ([], rest)
      match Json.skipSpace rest with
      | ',' :: rest => do
        let (more, rest) ← jsonFields? fuel rest
        return (known ++ more, rest)
      | '}' :: rest => return (known, rest)
      | _ => none
    | _ => none

/-- The options that a JSON text gives. -/
def ofJson? (text : String) : Option Options :=
  match Json.skipSpace text.toList with
  | '{' :: rest => do
    let (fields, rest) ← match Json.skipSpace rest with
      | '}' :: rest => some ([], rest)
      | rest => jsonFields? (rest.length + 1) rest
    if (Json.skipSpace rest).isEmpty then ofFields? jsonFormat fields else none
  | _ =>
    match Json.parse? text with
    | some (.array items) => ofItems? jsonFormat items
    | _ => none

/-! ## Texts and files -/

/-- How options are read. -/
def reader : Config.Reader Options := ⟨ofYaml?, ofJson?⟩

/-- The options of a text. -/
def ofText (f : Config.Format) (text : String) : Except Config.Error Options := reader.ofText f text

/-- The options of a file. -/
def ofFile (d : Config.Directory) (path : String) : Except Config.Error Options :=
  reader.ofFile d path

end CustomElements.Options
