import CustomElements.Markup.Reader.NamedCharacters

/-!
# Character references

A reference stands for one or two characters: by number, as in `&#233;` and `&#xe9;`, or by name, as
in `&eacute;`. Some names may be written without their semicolon. An ampersand that begins no
reference stands for itself.

Of several names that the text continues with, the longest counts. In an attribute a name without a
semicolon is no reference if a letter, a digit or an equals sign follows, since it is then more
likely a part of an address.
-/

namespace CustomElements.Markup

/-- The value of a digit in either case, up to base sixteen. -/
def digitValue? (base : Nat) (c : Char) : Option Nat :=
  let value :=
    if c.isDigit then c.toNat - '0'.toNat
    else if 'a' ≤ c ∧ c ≤ 'f' then c.toNat - 'a'.toNat + 10
    else if 'A' ≤ c ∧ c ≤ 'F' then c.toNat - 'A'.toNat + 10
    else base
  if value < base then some value else none

/-- The number written by digits. -/
def numberOf (base : Nat) (digits : List Char) : Nat :=
  digits.foldl (fun n c => n * base + (digitValue? base c).getD 0) 0

/-- The characters given by numbers joined with plus signs. -/
def charactersOf (code : List Char) : List Char :=
  match code.span (· != '+') with
  | (first, []) => [Char.ofNat (numberOf 16 first)]
  | (first, _ :: second) => [Char.ofNat (numberOf 16 first), Char.ofNat (numberOf 16 second)]

/-- The words of a text that are separated by spaces. -/
def tableWords : List Char → (word : List Char) → List (List Char)
  | [], word => if word.isEmpty then [] else [word.reverse]
  | c :: rest, word =>
    if c == ' ' then
      if word.isEmpty then tableWords rest [] else word.reverse :: tableWords rest []
    else tableWords rest (c :: word)

/-- Names with the characters they stand for. -/
def pairUp : List (List Char) → List (List Char × List Char)
  | name :: code :: rest => (name, charactersOf code) :: pairUp rest
  | _ => []

/-- The names that begin with two characters, with what they stand for. No name is shorter. -/
def namesUnder (first second : Char) : List (List Char × List Char) :=
  (namedCharacterTable.filter (·.1 == String.ofList [first, second])).flatMap fun row =>
    pairUp (tableWords row.2.toList [])

/-- The longest name that the text begins with, and what it stands for. -/
def longestName? : List Char → Option (List Char × List Char)
  | first :: second :: rest =>
    (namesUnder first second).foldl (fun best e =>
      if e.1.isPrefixOf (first :: second :: rest) && (best.map (·.1.length)).getD 0 < e.1.length
      then some e else best) none
  | _ => none

/-- The characters that the numbers `0x80` to `0x9f` stand for, where they differ from them. -/
def windowsCharacters : List (Nat × Nat) :=
  [(0x80, 0x20ac), (0x82, 0x201a), (0x83, 0x0192), (0x84, 0x201e), (0x85, 0x2026), (0x86, 0x2020),
    (0x87, 0x2021), (0x88, 0x02c6), (0x89, 0x2030), (0x8a, 0x0160), (0x8b, 0x2039), (0x8c, 0x0152),
    (0x8e, 0x017d), (0x91, 0x2018), (0x92, 0x2019), (0x93, 0x201c), (0x94, 0x201d), (0x95, 0x2022),
    (0x96, 0x2013), (0x97, 0x2014), (0x98, 0x02dc), (0x99, 0x2122), (0x9a, 0x0161), (0x9b, 0x203a),
    (0x9c, 0x0153), (0x9e, 0x017e), (0x9f, 0x0178)]

/-- What stands for a character that cannot be there. -/
def replacement : Char := '\ufffd'

/-- The character of a number: zero, surrogates and numbers too large are replaced. -/
def numberedCharacter (n : Nat) : Char :=
  if n = 0 ∨ n > 0x10ffff ∨ (0xd800 ≤ n ∧ n ≤ 0xdfff) then replacement
  else Char.ofNat ((windowsCharacters.lookup n).getD n)

/-- The rest of a reference by number after its `#`. -/
def numericReference? (cs : List Char) : Option (List Char × List Char) :=
  let (base, cs) : Nat × List Char := match cs with
    | 'x' :: rest => (16, rest)
    | 'X' :: rest => (16, rest)
    | rest => (10, rest)
  let (digits, rest) := cs.span fun c => (digitValue? base c).isSome
  if digits.isEmpty then none
  else
    let rest := match rest with
      | ';' :: rest => rest
      | rest => rest
    some ([numberedCharacter (numberOf base digits)], rest)

/-- A name without a semicolon is no reference in an attribute before such a character. -/
def continuesWord : List Char → Bool
  | c :: _ => c == '=' || c.isAlphanum
  | [] => false

/-- The rest of a reference by name. -/
def namedReference? (inAttribute : Bool) (cs : List Char) : Option (List Char × List Char) := do
  let (name, characters) ← longestName? cs
  let rest := cs.drop name.length
  if inAttribute && name.getLast? != some ';' && continuesWord rest then none
  else some (characters, rest)

/-- What an ampersand and the text after it stand for, and what follows, if they are a reference. -/
def reference? (inAttribute : Bool) : List Char → Option (List Char × List Char)
  | '#' :: rest => numericReference? rest
  | cs => namedReference? inAttribute cs

/--
The text with its references replaced and without zero characters. Every step uses a character.
-/
def decodeReferences (inAttribute : Bool) : (fuel : Nat) → List Char → List Char
  | 0, cs => cs
  | _, [] => []
  | fuel + 1, c :: rest =>
    if c == '&' then
      match reference? inAttribute rest with
      | some (characters, rest) => characters ++ decodeReferences inAttribute fuel rest
      | none => '&' :: decodeReferences inAttribute fuel rest
    else (if c == '\x00' then replacement else c) :: decodeReferences inAttribute fuel rest

end CustomElements.Markup
