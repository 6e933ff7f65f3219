import CustomElements.Jinja.Order
import CustomElements.Json.Printer
import CustomElements.Text.Quoted

/-!
# The text of a value

What a template writes for a value. A string stands as it is and what is undefined stands for
nothing; inside a list or a map strings are quoted. A floating-point number is written out in full,
with a point; inside a list or a map very large and very small ones have a power of ten.

In markup, everything that is not safe is escaped.
-/

namespace CustomElements.Jinja

/-- Numbers are written out in full. -/
def fullLayout : Decimal.Layout := ⟨fun _ => true, false, .up⟩

/-- Numbers with a leading digit from `10^-4` to `10^15` are written out. -/
def nestedLayout : Decimal.Layout := ⟨fun e => -4 ≤ e && e ≤ 15, false, .up⟩

/-- The text of a floating-point number. -/
def floatText (layout : Decimal.Layout) (x : Float) : String :=
  if x.isNaN then "NaN"
  else if x.isInf then (if x < 0.0 then "-inf" else "inf")
  else layout.render x

/-- One character in markup. -/
def escapeChar (c : Char) : String :=
  if c == '&' then "&amp;"
  else if c == '<' then "&lt;"
  else if c == '>' then "&gt;"
  else if c == '"' then "&quot;"
  else if c == '\'' then "&#x27;"
  else if c == '/' then "&#x2f;"
  else String.singleton c

/-- The text in markup. -/
def escapeMarkup (s : String) : String := String.join (s.toList.map escapeChar)

namespace Value

mutual

/-- The text of a value inside a list or a map. -/
def nested : Value → String
  | .undefined => "undefined"
  | .none => "None"
  | .bool b => if b then "True" else "False"
  | .int n => toString n
  | .float x => floatText nestedLayout x
  | .string s _ => Text.quoted s
  | .sequence .stream _ => "Iterable \x7b .. \x7d"
  | .sequence _ items => "[" ++ nestedItems items ++ "]"
  | .map entries => "\x7b" ++ nestedEntries entries ++ "\x7d"
  | .builtin _ => "<function>"
  | .procedure _ name => "<macro " ++ name ++ ">"
  | .holder _ => "<namespace>"
  | .loop _ => "<loop>"

/-- The texts of items, with commas between them. -/
def nestedItems : List Value → String
  | [] => ""
  | [v] => nested v
  | v :: w :: rest => nested v ++ ", " ++ nestedItems (w :: rest)

/-- The texts of entries, with commas between them. -/
def nestedEntries : List (Value × Value) → String
  | [] => ""
  | [(k, v)] => nested k ++ ": " ++ nested v
  | (k, v) :: e :: rest => nested k ++ ": " ++ nested v ++ ", " ++ nestedEntries (e :: rest)

end

/-- The text of a value. -/
def display : Value → String
  | .undefined => ""
  | .float x => floatText fullLayout x
  | .string s _ => s
  | v => nested v

/-- What a template writes for a value, in markup if `markup` is set. -/
def write (markup : Bool) (v : Value) : String :=
  if !markup || v.isSafe then v.display
  else match v with
    | .undefined | .none | .bool _ | .int _ | .float _ => v.display
    | _ => escapeMarkup v.display

/-- The string that a part of a template has written: markup, if it was written as such. -/
def written (markup : Bool) (s : String) : Value := .string s markup

/-- The name that a key has in data. -/
def keyText? : Value → Option String
  | .string s _ => some s
  | .int n => some (toString n)
  | .bool b => some (if b then "true" else "false")
  | .float x => if x.isNaN || x.isInf then Option.none else some (Json.Number.text (.float x))
  | _ => Option.none

mutual

/-- The value as data, if it has a form as data. -/
def toJson? : Value → Option Json
  | .undefined | .none => some .null
  | .bool b => some (.bool b)
  | .int n => Json.ofInt? n
  | .float x => some (if x.isNaN || x.isInf then .null else .number (.float x))
  | .string s _ => some (.string s)
  | .sequence _ items => (toItems? items).map Json.array
  | .map entries => (toMembers? entries).map Json.ofMembers
  | v => some (.string (nested v))

/-- The items as data. -/
def toItems? : List Value → Option (List Json)
  | [] => some []
  | v :: rest =>
    match toJson? v, toItems? rest with
    | some j, some l => some (j :: l)
    | _, _ => Option.none

/-- The entries as data. -/
def toMembers? : List (Value × Value) → Option (List (String × Json))
  | [] => some []
  | (k, v) :: rest =>
    match keyText? k, toJson? v, toMembers? rest with
    | some name, some j, some l => some ((name, j) :: l)
    | _, _, _ => Option.none

end

end Value

end CustomElements.Jinja
