import CustomElements.Json.Reader

/-!
# Passing over JSON

A value that nobody asks for is not built, only passed over. What is passed over has to be JSON as
far as its marks go; the pairing of surrogates, the size of numbers and the depth of nesting do not
matter.
-/

namespace CustomElements.Json

/-- What follows a string, after its opening quote. -/
def skipString? : (fuel : Nat) → List Char → Option (List Char)
  | 0, _ => none
  | fuel + 1, cs =>
    match cs with
    | [] => none
    | '"' :: rest => some rest
    | '\\' :: 'u' :: rest => do
      let (_, rest) ← hex4? rest
      skipString? fuel rest
    | '\\' :: c :: rest => do
      let _ ← shortEscape? c
      skipString? fuel rest
    | c :: rest => if c.toNat < 0x20 || c == '\\' then none else skipString? fuel rest

/-- What follows one or more digits. -/
def skipDigits? (cs : List Char) : Option (List Char) :=
  if cs.head?.any Char.isDigit then some (cs.dropWhile Char.isDigit) else none

/-- What follows a power of ten, if there is one. -/
def skipExponent? : List Char → Option (List Char)
  | 'e' :: rest | 'E' :: rest =>
    match rest with
    | '+' :: rest | '-' :: rest => skipDigits? rest
    | rest => skipDigits? rest
  | cs => some cs

/-- What follows a number after its sign. A leading zero stands alone. -/
def skipUnsigned? (cs : List Char) : Option (List Char) := do
  let rest ← match cs with
    | '0' :: rest => if rest.head?.any Char.isDigit then none else some rest
    | cs => skipDigits? cs
  match rest with
  | '.' :: rest => skipDigits? rest >>= skipExponent?
  | rest => skipExponent? rest

mutual

/-- What follows a value. -/
def skip? : (fuel : Nat) → List Char → Option (List Char)
  | 0, _ => none
  | fuel + 1, cs =>
    match skipSpace cs with
    | [] => none
    | '"' :: rest => skipString? (rest.length + 1) rest
    | '[' :: rest =>
      match skipSpace rest with
      | ']' :: rest => some rest
      | rest => skipItems? fuel rest
    | '{' :: rest =>
      match skipSpace rest with
      | '}' :: rest => some rest
      | rest => skipMembers? fuel rest
    | 't' :: rest => expect? "rue" rest
    | 'f' :: rest => expect? "alse" rest
    | 'n' :: rest => expect? "ull" rest
    | '-' :: rest => skipUnsigned? rest
    | rest => skipUnsigned? rest

/-- What follows the closing bracket after one or more values. -/
def skipItems? : (fuel : Nat) → List Char → Option (List Char)
  | 0, _ => none
  | fuel + 1, cs => do
    let rest ← skip? fuel cs
    match skipSpace rest with
    | ',' :: rest => skipItems? fuel rest
    | ']' :: rest => some rest
    | _ => none

/-- What follows the closing brace after one or more named values. -/
def skipMembers? : (fuel : Nat) → List Char → Option (List Char)
  | 0, _ => none
  | fuel + 1, cs =>
    match skipSpace cs with
    | '"' :: rest => do
      let rest ← skipString? (rest.length + 1) rest
      match skipSpace rest with
      | ':' :: rest => do
        let rest ← skip? fuel rest
        match skipSpace rest with
        | ',' :: rest => skipMembers? fuel rest
        | '}' :: rest => some rest
        | _ => none
      | _ => none
    | _ => none

end

end CustomElements.Json
