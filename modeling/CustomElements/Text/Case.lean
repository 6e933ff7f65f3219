import CustomElements.Text.CaseTable

/-!
# Upper and lower case

The case mappings of characters and of whole texts. A character may become several, and one letter
has a second small form: the Greek sigma at the end of a word.
-/

namespace CustomElements.Text

/-- A code point above 127 under a mapping. -/
def mapCodePoint (sequences : List (Nat × List Nat)) (runs : List CaseRun) (n : Nat) : List Nat :=
  match sequences.lookup n with
  | some l => l
  | none =>
    match runs.find? (·.holds n) with
    | some r => [((n : Int) + r.shift).toNat]
    | none => [n]

/-- The lower case of a character. -/
def lowerChar (c : Char) : List Char :=
  if c.toNat < 128 then [c.toLower]
  else (mapCodePoint lowerSequences lowerRuns c.toNat).map Char.ofNat

/-- The upper case of a character. -/
def upperChar (c : Char) : List Char :=
  if c.toNat < 128 then [c.toUpper]
  else (mapCodePoint upperSequences upperRuns c.toNat).map Char.ofNat

/-- The character has another case. -/
def isCased (c : Char) : Bool := lowerChar c != [c] || upperChar c != [c]

/-- The character is a small letter. -/
def isLowerCase (c : Char) : Bool := lowerChar c == [c] && upperChar c != [c]

/-- The character is a capital letter. -/
def isUpperCase (c : Char) : Bool := lowerChar c != [c] && upperChar c == [c]

/-- Marks that may stand inside a word, and combining accents. -/
def isCaseIgnorable (c : Char) : Bool :=
  "'.:^\x60¨\u00ad¯´·¸‘’․‧".toList.contains c || (0x300 ≤ c.toNat && c.toNat ≤ 0x36F)

/-- The next character that is not passed over is a letter with case. -/
def meetsCased (cs : List Char) : Bool :=
  match cs.dropWhile isCaseIgnorable with
  | c :: _ => isCased c
  | [] => false

/-- The lower case of a text, given the characters before it, last first. -/
def lowerFrom : (before : List Char) → List Char → List Char
  | _, [] => []
  | before, c :: rest =>
    let here := if c == 'Σ' then (if meetsCased before && !meetsCased rest then ['ς'] else ['σ'])
      else lowerChar c
    here ++ lowerFrom (c :: before) rest

/-- The text in lower case. -/
def lower (s : String) : String := String.ofList (lowerFrom [] s.toList)

/-- The text in upper case. -/
def upper (s : String) : String := String.ofList (s.toList.flatMap upperChar)

/-- The first character in upper case, the others in lower case. -/
def capitalized (s : String) : String :=
  match s.toList with
  | [] => ""
  | c :: rest => String.ofList (upperChar c ++ lowerFrom [] rest)

/-- The character is one of the 32 marks of ASCII. -/
def isAsciiMark (c : Char) : Bool :=
  let n := c.toNat
  (33 ≤ n && n ≤ 47) || (58 ≤ n && n ≤ 64) || (91 ≤ n && n ≤ 96) || (123 ≤ n && n ≤ 126)

end CustomElements.Text
