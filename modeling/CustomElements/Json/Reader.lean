import CustomElements.Json.Value

/-!
# Reading JSON

A reader over a list of characters that returns the value and what follows it. It accepts JSON and
nothing more: no trailing commas, no comments, no raw control characters in strings, no unpaired
surrogate escapes. Nesting is limited, and so is the size of floating-point numbers: one that
overflows is refused, not read as infinity.

A number with a fraction or an exponent is read in two roundings: its digits, as far as they fit 64
bits, are rounded to a floating-point number, which is then multiplied or divided by a power of ten.
-/

namespace CustomElements.Json

/-- White space between tokens. -/
def isSpace (c : Char) : Bool := c == ' ' || c == '\n' || c == '\t' || c == '\r'

/-- What follows the white space. -/
def skipSpace (cs : List Char) : List Char := cs.dropWhile isSpace

/-- The text after `word`, if the input starts with it. -/
def expect? (word : String) (cs : List Char) : Option (List Char) :=
  if word.toList.isPrefixOf cs then some (cs.drop word.length) else none

/-- The value of a decimal digit. -/
def digitVal (c : Char) : Nat := c.toNat - '0'.toNat

/-- The value of a hexadecimal digit. -/
def hexVal? (c : Char) : Option Nat :=
  if c.isDigit then some (c.toNat - '0'.toNat)
  else if 'a' ≤ c ∧ c ≤ 'f' then some (c.toNat - 'a'.toNat + 10)
  else if 'A' ≤ c ∧ c ≤ 'F' then some (c.toNat - 'A'.toNat + 10)
  else none

/-- The number of four hexadecimal digits and what follows them. -/
def hex4? : List Char → Option (Nat × List Char)
  | a :: b :: c :: d :: rest => do
    let a ← hexVal? a
    let b ← hexVal? b
    let c ← hexVal? c
    let d ← hexVal? d
    return (a * 4096 + b * 256 + c * 16 + d, rest)
  | _ => none

/-- The character of a one-letter escape. -/
def shortEscape? (c : Char) : Option Char :=
  match c with
  | '"' => some '"'
  | '\\' => some '\\'
  | '/' => some '/'
  | 'b' => some '\x08'
  | 'f' => some '\x0c'
  | 'n' => some '\n'
  | 'r' => some '\r'
  | 't' => some '\t'
  | _ => none

/-- The character of an escape by number, after its `\u`; a high surrogate needs a low one. -/
def numericEscape? (cs : List Char) : Option (Char × List Char) := do
  let (n, rest) ← hex4? cs
  if 0xDC00 ≤ n ∧ n ≤ 0xDFFF then none
  else if 0xD800 ≤ n ∧ n ≤ 0xDBFF then
    let rest ← expect? "\\u" rest
    let (low, rest) ← hex4? rest
    if 0xDC00 ≤ low ∧ low ≤ 0xDFFF then
      some (Char.ofNat (0x10000 + (n - 0xD800) * 0x400 + (low - 0xDC00)), rest)
    else none
  else some (Char.ofNat n, rest)

/-- The contents of a string after its opening quote, and what follows the closing one. -/
def stringBody? : Nat → List Char → Option (List Char × List Char)
  | 0, _ => none
  | fuel + 1, cs =>
    match cs with
    | [] => none
    | '"' :: rest => some ([], rest)
    | '\\' :: 'u' :: rest => do
      let (c, rest) ← numericEscape? rest
      let (body, rest) ← stringBody? fuel rest
      return (c :: body, rest)
    | '\\' :: c :: rest => do
      let c ← shortEscape? c
      let (body, rest) ← stringBody? fuel rest
      return (c :: body, rest)
    | c :: rest =>
      if c.toNat < 0x20 || c == '\\' then none
      else do
        let (body, rest) ← stringBody? fuel rest
        return (c :: body, rest)

/-- The limit above which a digit is no longer taken into the digits of a number. -/
def digitLimit : Nat := 0x10000000000000000

/--
The digits of a number, as far as they fit 64 bits: their value, how many were taken, how many were
left out, and what follows.
-/
def takeDigits : List Char → (value taken : Nat) → Nat × Nat × Nat × List Char
  | [], value, taken => (value, taken, 0, [])
  | c :: rest, value, taken =>
    if c.isDigit then
      let next := value * 10 + digitVal c
      if next < digitLimit then takeDigits rest next (taken + 1)
      else
        let more := (c :: rest).takeWhile Char.isDigit
        (value, taken, more.length, (c :: rest).dropWhile Char.isDigit)
    else (value, taken, 0, c :: rest)

/-- `10^n` rounded to a floating-point number. -/
def powerOfTen (n : Nat) : Float := Float.ofScientific 1 false n

/--
`digits * 10^exp` in two roundings, or in one more for each 308 places below the least power of ten
that can be divided by. Overflow gives nothing.
-/
def scale? : Nat → Float → Int → Option Float
  | 0, x, _ => some x
  | fuel + 1, x, exp =>
    if exp.natAbs ≤ 308 then
      if exp ≥ 0 then
        let y := x * powerOfTen exp.natAbs
        if y.isInf then none else some y
      else some (x / powerOfTen exp.natAbs)
    else if x == 0.0 then some x
    else if exp ≥ 0 then none
    else scale? fuel (x / powerOfTen 308) (exp + 308)

/-- The floating-point number with the given sign, digits and exponent. -/
def float? (negative : Bool) (digits : Nat) (exp : Int) : Option Number := do
  let x ← scale? 8 (Float.ofNat digits) exp
  return .float (if negative then -x else x)

/-- The largest exponent that is read digit by digit. -/
def exponentLimit : Nat := 0x80000000

/-- The rest of a number after its `e`. -/
def exponent? (negative : Bool) (digits : Nat) (exp : Int) (cs : List Char) :
    Option (Number × List Char) :=
  let (down, cs) := match cs with
    | '+' :: rest => (false, rest)
    | '-' :: rest => (true, rest)
    | rest => (false, rest)
  let places := cs.takeWhile Char.isDigit
  let rest := cs.dropWhile Char.isDigit
  if places.isEmpty then none
  else
    let power := places.foldl (fun n c => n * 10 + digitVal c) 0
    if power ≥ exponentLimit then
      if digits ≠ 0 ∧ ¬ down then none
      else some (.float (if negative then -0.0 else 0.0), rest)
    else (float? negative digits (if down then exp - power else exp + power)).map (·, rest)

/-- The rest of a number after its point. -/
def fraction? (negative : Bool) (digits : Nat) (exp : Int) (cs : List Char) :
    Option (Number × List Char) :=
  let (digits, taken, left, rest) := takeDigits cs digits 0
  if taken = 0 ∧ left = 0 then none
  else match rest with
    | 'e' :: rest | 'E' :: rest => exponent? negative digits (exp - taken) rest
    | _ => (float? negative digits (exp - taken)).map (·, rest)

/-- A number after its sign. A leading zero stands alone. -/
def unsigned? (negative : Bool) (cs : List Char) : Option (Number × List Char) :=
  let (digits, taken, left, rest) := takeDigits cs 0 0
  if taken = 0 then none
  else if cs.head? = some '0' ∧ 1 < taken then none
  else match rest with
    | '.' :: rest => fraction? negative digits left rest
    | 'e' :: rest | 'E' :: rest => exponent? negative digits left rest
    | _ =>
      if left ≠ 0 then (float? negative digits left).map (·, rest)
      else if ¬ negative then some (.int digits, rest)
      else if digits = 0 ∨ 0x8000000000000000 < digits then
        some (.float (-(Float.ofNat digits)), rest)
      else some (.int (-(digits : Int)), rest)

/-- A number. -/
def number? : List Char → Option (Number × List Char)
  | '-' :: rest => unsigned? true rest
  | cs => unsigned? false cs

mutual

/--
A value and what follows it. `depth` is one more than the number of arrays and objects that may
still be opened.
-/
def value? : (fuel depth : Nat) → List Char → Option (Json × List Char)
  | 0, _, _ => none
  | fuel + 1, depth, cs =>
    match skipSpace cs with
    | [] => none
    | '"' :: rest => do
      let (body, rest) ← stringBody? (rest.length + 1) rest
      return (.string (String.ofList body), rest)
    | '[' :: rest =>
      if depth ≤ 1 then none
      else match skipSpace rest with
        | ']' :: rest => some (.array [], rest)
        | rest => do
          let (items, rest) ← items? fuel (depth - 1) rest
          return (.array items, rest)
    | '{' :: rest =>
      if depth ≤ 1 then none
      else match skipSpace rest with
        | '}' :: rest => some (.object [], rest)
        | rest => do
          let (members, rest) ← members? fuel (depth - 1) rest
          return (ofMembers members, rest)
    | 't' :: rest => (expect? "rue" rest).map (.bool true, ·)
    | 'f' :: rest => (expect? "alse" rest).map (.bool false, ·)
    | 'n' :: rest => (expect? "ull" rest).map (.null, ·)
    | rest => (number? rest).map fun (n, rest) => (.number n, rest)

/-- One or more values up to the closing bracket. -/
def items? : (fuel depth : Nat) → List Char → Option (List Json × List Char)
  | 0, _, _ => none
  | fuel + 1, depth, cs => do
    let (v, rest) ← value? fuel depth cs
    match skipSpace rest with
    | ',' :: rest => do
      let (vs, rest) ← items? fuel depth rest
      return (v :: vs, rest)
    | ']' :: rest => return ([v], rest)
    | _ => none

/-- One or more named values up to the closing brace. -/
def members? : (fuel depth : Nat) → List Char → Option (List (String × Json) × List Char)
  | 0, _, _ => none
  | fuel + 1, depth, cs =>
    match skipSpace cs with
    | '"' :: rest => do
      let (name, rest) ← stringBody? (rest.length + 1) rest
      match skipSpace rest with
      | ':' :: rest => do
        let (v, rest) ← value? fuel depth rest
        match skipSpace rest with
        | ',' :: rest => do
          let (vs, rest) ← members? fuel depth rest
          return ((String.ofList name, v) :: vs, rest)
        | '}' :: rest => return ([(String.ofList name, v)], rest)
        | _ => none
      | _ => none
    | _ => none

end

/-- Fuel that suffices for a text: every step of the reader uses a character. -/
def readFuel (cs : List Char) : Nat := 2 * cs.length + 2

/-- The number of nested arrays and objects beyond which a text is refused. -/
def nestingLimit : Nat := 128

/-- The value that a whole text stands for, with up to `depth - 1` nested arrays and objects. -/
def parseUpTo? (depth : Nat) (text : String) : Option Json :=
  let cs := text.toList
  match value? (readFuel cs) depth cs with
  | some (v, rest) => if (skipSpace rest).isEmpty then some v else none
  | none => none

/-- The value that a whole text stands for. -/
def parse? (text : String) : Option Json := parseUpTo? nestingLimit text

end CustomElements.Json
