/-!
# A place in a YAML text

YAML tells things apart by lines and columns. A cursor holds what is left of a text together with
the line and the column that it begins at.
-/

namespace CustomElements.Yaml

/-- The character ends a line. -/
def isBreak (c : Char) : Bool :=
  c == '\n' || c == '\r' || c == '\u0085' || c == '\u2028' || c == '\u2029'

/-- A space or a tab. -/
def isBlank (c : Char) : Bool := c == ' ' || c == '\t'

/-- The character separates words; so does the end of the text. -/
def isGap (c? : Option Char) : Bool :=
  match c? with
  | some c => isBlank c || isBreak c || c == '\x00'
  | none => true

/-- The character may stand in a text at all. -/
def isAllowed (c : Char) : Bool :=
  let n := c.toNat
  n == 9 || n == 10 || n == 13 || (0x20 ≤ n && n ≤ 0x7E) || n == 0x85 || (0xA0 ≤ n && n ≤ 0xD7FF) ||
    (0xE000 ≤ n && n ≤ 0xFFFD) || 0x10000 ≤ n

/-- What is left of a text, and where it begins. -/
structure Cursor where
  rest : List Char
  index : Nat
  line : Nat
  column : Nat

namespace Cursor

/-- The start of a text. -/
def ofText (cs : List Char) : Cursor := ⟨cs, 0, 0, 0⟩

/-- The next character. -/
def peek? (c : Cursor) : Option Char := c.rest.head?

/-- The character after so many others. -/
def peekAt? (c : Cursor) (n : Nat) : Option Char := c.rest[n]?

/-- The next character is the given one. -/
def sees (c : Cursor) (d : Char) : Bool := c.peek? == some d

/-- There is a next character, and it satisfies `p`. -/
def seesAny (c : Cursor) (p : Char → Bool) : Bool := c.peek?.any p

/-- Passes over a character that does not end a line. -/
def skip (c : Cursor) : Cursor := ⟨c.rest.tail, c.index + 1, c.line, c.column + 1⟩

/-- Passes over so many characters. -/
def skipMany (c : Cursor) (n : Nat) : Cursor :=
  ⟨c.rest.drop n, c.index + n, c.line, c.column + n⟩

/-- Passes over the end of a line, and gives the break that it stands for. -/
def takeBreak (c : Cursor) : List Char × Cursor :=
  match c.rest with
  | '\r' :: '\n' :: rest => (['\n'], ⟨rest, c.index + 2, c.line + 1, 0⟩)
  | d :: rest =>
    if d == '\u2028' || d == '\u2029' then ([d], ⟨rest, c.index + 1, c.line + 1, 0⟩)
    else if isBreak d then (['\n'], ⟨rest, c.index + 1, c.line + 1, 0⟩)
    else ([], c)
  | [] => ([], c)

/-- The characters as long as they satisfy `p`, none of which may end a line. -/
def takeWhile (c : Cursor) (p : Char → Bool) : List Char × Cursor :=
  let taken := c.rest.takeWhile p
  (taken, c.skipMany taken.length)

/-- Passes over characters as long as they satisfy `p`. -/
def skipWhile (c : Cursor) (p : Char → Bool) : Cursor := (c.takeWhile p).2

/-- A line begins here that starts or ends a document. -/
def atDocumentMark (c : Cursor) : Bool :=
  c.column == 0 && isGap (c.peekAt? 3) &&
    (match c.rest with
    | '-' :: '-' :: '-' :: _ | '.' :: '.' :: '.' :: _ => true
    | _ => false)

end Cursor

end CustomElements.Yaml
