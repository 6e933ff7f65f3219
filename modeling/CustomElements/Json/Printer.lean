import CustomElements.Json.Value

/-!
# The compact text of JSON values

No white space, members in ascending order of names, and the short escapes where JSON has one.
Floating-point numbers have the fewest digits that read back and always a point or a power of ten,
so that a reader can tell them from whole numbers.
-/

namespace CustomElements.Json

/-- Numbers with a leading digit from `10^-5` to `10^15` are written out; an exponent has a sign. -/
def numberLayout : Decimal.Layout := ⟨fun e => -5 ≤ e && e ≤ 15, true, .toEven⟩

/-- The text of a number. -/
def Number.text : Number → String
  | .int n => toString n
  | .float x => numberLayout.render x

/-- A digit of a number below sixteen, in lower case. -/
def hexDigit (n : Nat) : Char := (Nat.digitChar n)

/-- One character inside a quoted string. -/
def escapeChar (c : Char) : List Char :=
  if c = '"' then ['\\', '"']
  else if c = '\\' then ['\\', '\\']
  else if c = '\n' then ['\\', 'n']
  else if c = '\r' then ['\\', 'r']
  else if c = '\t' then ['\\', 't']
  else if c = '\x08' then ['\\', 'b']
  else if c = '\x0c' then ['\\', 'f']
  else if c.toNat < 0x20 then
    ['\\', 'u', '0', '0', hexDigit (c.toNat / 16), hexDigit (c.toNat % 16)]
  else [c]

/-- The string in quotes. -/
def quote (s : String) : String :=
  String.ofList ('"' :: s.toList.flatMap escapeChar ++ ['"'])

mutual

/-- The compact text of a value. -/
def render : Json → String
  | .null => "null"
  | .bool b => if b then "true" else "false"
  | .number n => n.text
  | .string s => quote s
  | .array items => "[" ++ renderItems items ++ "]"
  | .object members => "\x7b" ++ renderMembers members ++ "\x7d"

/-- The values with commas between them. -/
def renderItems : List Json → String
  | [] => ""
  | [v] => render v
  | v :: w :: rest => render v ++ "," ++ renderItems (w :: rest)

/-- The named values with commas between them. -/
def renderMembers : List (String × Json) → String
  | [] => ""
  | [(n, v)] => quote n ++ ":" ++ render v
  | (n, v) :: e :: rest => quote n ++ ":" ++ render v ++ "," ++ renderMembers (e :: rest)

end

end CustomElements.Json
