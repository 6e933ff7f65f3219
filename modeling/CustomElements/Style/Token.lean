/-!
# The tokens of a stylesheet

A stylesheet is cut into tokens, each with the text it was written with, so that the texts of all
tokens, one after the other, are the stylesheet again. Of a token only what the rule structure
depends on is kept: the brackets, the separators, white space, comments, and the names of
identifiers and at-keywords with their escapes resolved. Numbers, strings, addresses and the like
matter only for where they end.

Lengths are found by scanning functions that walk the characters once. Where a construct takes
several characters at a time, as an escape does, a scanner carries the number of characters that
are already spoken for.
-/

namespace CustomElements.Style

/-- What a token is, as far as rules depend on it. -/
inductive Token.Kind where
  | blank
  | comment
  /-- One of the two markers `<!--` and `-->`, which mean nothing between rules. -/
  | marker
  | ident (name : List Char)
  | atKeyword (name : List Char)
  /-- An opening round bracket, alone or at the end of a function's name. -/
  | openRound
  | openSquare
  | openCurly
  | closeRound
  | closeSquare
  | closeCurly
  | semicolon
  | colon
  | comma
  | other
  deriving DecidableEq, Repr

/-- A token and the source text it stands for. -/
structure Token where
  kind : Token.Kind
  text : List Char
  deriving DecidableEq, Repr

namespace Token

/-- The character ends a line. -/
def isNewline (c : Char) : Bool := c == '\n' || c == '\r' || c == '\x0c'

/-- The character is white space between tokens. -/
def isSpace (c : Char) : Bool := c == ' ' || c == '\t' || isNewline c

/-- The text begins with a line end. -/
def startsLine : List Char → Bool
  | c :: _ => isNewline c
  | [] => false

/-- The length of the line end that the text begins with. -/
def newlineLength : List Char → Nat
  | '\r' :: '\n' :: _ => 2
  | c :: _ => if isNewline c then 1 else 0
  | [] => 0

/-- The value of a hexadecimal digit. -/
def hexVal? (c : Char) : Option Nat :=
  if c.isDigit then some (c.toNat - '0'.toNat)
  else if 'a' ≤ c ∧ c ≤ 'f' then some (c.toNat - 'a'.toNat + 10)
  else if 'A' ≤ c ∧ c ≤ 'F' then some (c.toNat - 'A'.toNat + 10)
  else none

/-- The hexadecimal digits, at most `limit`, that the text begins with. -/
def hexDigits : (limit : Nat) → List Char → List Nat
  | 0, _ => []
  | _, [] => []
  | limit + 1, c :: rest => match hexVal? c with
    | some v => v :: hexDigits limit rest
    | none => []

/-- The number of characters that an escape takes after its backslash. -/
def escapeLength (cs : List Char) : Nat :=
  let digits := (hexDigits 6 cs).length
  if digits = 0 then min 1 cs.length
  else match cs.drop digits with
    | ' ' :: _ | '\t' :: _ => digits + 1
    | rest => digits + newlineLength rest

/-- The character that an escape stands for, given what follows its backslash. -/
def escapeChar (cs : List Char) : Char :=
  match hexDigits 6 cs with
  | [] => match cs with
    | [] => '\uFFFD'
    | c :: _ => if c = '\x00' then '\uFFFD' else c
  | digits =>
    let n := digits.foldl (fun n d => n * 16 + d) 0
    if n = 0 then '\uFFFD' else if n.isValidChar then Char.ofNat n else '\uFFFD'

/-- The character may stand in a name as it is. -/
def isNameChar (c : Char) : Bool :=
  c.isAlphanum || c == '_' || c == '-' || c == '\x00' || c.toNat ≥ 0x80

/-- The character may begin a name as it is. -/
def isNameStart (c : Char) : Bool := c.isAlpha || c == '_' || c == '\x00' || c.toNat ≥ 0x80

/-- The text begins with an identifier. -/
def startsIdent : List Char → Bool
  | '-' :: c :: _ => isNameStart c || c == '-' || c == '\\'
  | '\\' :: rest => !startsLine rest
  | c :: _ => isNameStart c
  | [] => false

/-- The length of the name that the text begins with. -/
def nameLength : (taken : Nat) → List Char → Nat
  | _, [] => 0
  | taken + 1, _ :: rest => 1 + nameLength taken rest
  | 0, c :: rest =>
    if isNameChar c then 1 + nameLength 0 rest
    else if c == '\\' && !startsLine rest then 1 + nameLength (escapeLength rest) rest
    else 0

/-- The name that a text stands for, its escapes resolved. -/
def unescape : (taken : Nat) → List Char → List Char
  | _, [] => []
  | taken + 1, _ :: rest => unescape taken rest
  | 0, c :: rest =>
    if c == '\\' then escapeChar rest :: unescape (escapeLength rest) rest
    else (if c == '\x00' then '\uFFFD' else c) :: unescape 0 rest

/--
The length of a string after its opening quote. It ends with the quote or before a line end that is
not escaped; the text's end closes it too.
-/
def stringLength (quote : Char) : (taken : Nat) → List Char → Nat
  | _, [] => 0
  | taken + 1, _ :: rest => 1 + stringLength quote taken rest
  | 0, c :: rest =>
    if c == quote then 1
    else if isNewline c then 0
    else if c == '\\' then
      let taken := if startsLine rest then newlineLength rest else escapeLength rest
      1 + stringLength quote taken rest
    else 1 + stringLength quote 0 rest

/-- The length of a comment after its opening mark. -/
def commentLength : List Char → Nat
  | [] => 0
  | '*' :: '/' :: _ => 2
  | _ :: rest => 1 + commentLength rest

/-- Where in an unquoted address a scanner is. -/
inductive UrlPart where
  /-- In the address. -/
  | body
  /-- In white space after the address, which only the closing bracket may follow. -/
  | trail
  /-- In what is left of a malformed address. -/
  | bad
  deriving DecidableEq

/-- The character makes an unquoted address malformed. -/
def spoilsUrl (c : Char) : Bool :=
  c == '"' || c == '\'' || c == '(' || c.toNat ≤ 8 && c.toNat ≥ 1 || c.toNat == 0xB ||
    c.toNat ≥ 0xE && c.toNat ≤ 0x1F || c.toNat == 0x7F

/-- The length of an unquoted address up to and including the closing bracket. -/
def urlLength : UrlPart → (taken : Nat) → List Char → Nat
  | _, _, [] => 0
  | part, taken + 1, _ :: rest => 1 + urlLength part taken rest
  | part, 0, c :: rest =>
    if c == ')' then 1
    else match part with
      | .body =>
        if isSpace c then 1 + urlLength .trail 0 rest
        else if c == '\\' then
          if startsLine rest then 1 + urlLength .bad 0 rest
          else 1 + urlLength .body (escapeLength rest) rest
        else if spoilsUrl c then 1 + urlLength .bad 0 rest
        else 1 + urlLength .body 0 rest
      | .trail => if isSpace c then 1 + urlLength .trail 0 rest else 1 + urlLength .bad 0 rest
      | .bad => match c, rest with
        | '\\', ')' :: _ | '\\', '\\' :: _ => 1 + urlLength .bad 1 rest
        | _, _ => 1 + urlLength .bad 0 rest

/-- The text begins, after white space, with a quoted string. -/
def startsQuoted (cs : List Char) : Bool :=
  match cs.dropWhile isSpace with
  | c :: _ => c == '"' || c == '\''
  | [] => false

/-- The length of the digits that the text begins with. -/
def digitsLength (cs : List Char) : Nat := (cs.takeWhile Char.isDigit).length

/-- The text begins with a digit. -/
def startsDigit : List Char → Bool
  | c :: _ => c.isDigit
  | [] => false

/-- The length of a fraction: a point and digits, or nothing. -/
def fractionLength : List Char → Nat
  | '.' :: rest => if startsDigit rest then 1 + digitsLength rest else 0
  | _ => 0

/-- The length of an exponent, or nothing. -/
def exponentLength : List Char → Nat
  | e :: sign :: rest =>
    if e == 'e' || e == 'E' then
      if sign.isDigit then 1 + digitsLength (sign :: rest)
      else if (sign == '+' || sign == '-') && startsDigit rest then 2 + digitsLength rest
      else 0
    else 0
  | _ => 0

/-- The length of a number after its sign, with its percent sign or its unit. -/
def numberLength (cs : List Char) : Nat :=
  let whole := digitsLength cs
  let fraction := whole + fractionLength (cs.drop whole)
  let number := fraction + exponentLength (cs.drop fraction)
  match cs.drop number with
  | '%' :: _ => number + 1
  | rest => if startsIdent rest then number + nameLength 0 rest else number

/-- The text begins with a number that has no sign. -/
def startsNumber : List Char → Bool
  | '.' :: rest => startsDigit rest
  | cs => startsDigit cs

/-- The identifier, function or unquoted address that the text begins with. -/
def identLike (cs : List Char) : Kind × Nat :=
  let n := nameLength 0 cs
  let name := unescape 0 (cs.take n)
  match cs.drop n with
  | '(' :: rest =>
    if name.map Char.toLower = ['u', 'r', 'l'] ∧ ¬ startsQuoted rest then
      let lead := (rest.takeWhile isSpace).length
      (.other, n + 1 + lead + urlLength .body 0 (rest.drop lead))
    else (.openRound, n + 1)
  | _ => (.ident name, n)

/-- The kind and the length of the token that a text begins with. -/
def scan : List Char → Kind × Nat
  | [] => (.other, 0)
  | c :: rest =>
    if isSpace c then (.blank, 1 + (rest.takeWhile isSpace).length)
    else match c, rest with
      | '"', _ => (.other, 1 + stringLength '"' 0 rest)
      | '\'', _ => (.other, 1 + stringLength '\'' 0 rest)
      | '#', d :: _ =>
        if startsIdent rest || isNameChar d then (.other, 1 + nameLength 0 rest) else (.other, 1)
      | '(', _ => (.openRound, 1)
      | ')', _ => (.closeRound, 1)
      | '[', _ => (.openSquare, 1)
      | ']', _ => (.closeSquare, 1)
      | '{', _ => (.openCurly, 1)
      | '}', _ => (.closeCurly, 1)
      | ',', _ => (.comma, 1)
      | ':', _ => (.colon, 1)
      | ';', _ => (.semicolon, 1)
      | '+', _ => if startsNumber rest then (.other, 1 + numberLength rest) else (.other, 1)
      | '-', '-' :: '>' :: _ => (.marker, 3)
      | '-', _ =>
        if startsNumber rest then (.other, 1 + numberLength rest)
        else if startsIdent (c :: rest) then identLike (c :: rest)
        else (.other, 1)
      | '/', '*' :: body => (.comment, 2 + commentLength body)
      | '<', '!' :: '-' :: '-' :: _ => (.marker, 4)
      | '@', _ =>
        if startsIdent rest then
          let n := nameLength 0 rest
          (.atKeyword (unescape 0 (rest.take n)), 1 + n)
        else (.other, 1)
      | _, _ =>
        if startsNumber (c :: rest) then (.other, numberLength (c :: rest))
        else if startsIdent (c :: rest) then identLike (c :: rest)
        else (.other, 1)

/-- The first token of a text that is not empty, and what follows it. -/
def next (c : Char) (rest : List Char) : Token × List Char :=
  let (kind, n) := scan (c :: rest)
  (⟨kind, c :: rest.take (n - 1)⟩, rest.drop (n - 1))

/-- The tokens of a text, given at least as much fuel as it has characters. -/
def tokensWith : (fuel : Nat) → List Char → List Token
  | 0, _ => []
  | _, [] => []
  | fuel + 1, c :: rest =>
    let (t, rest) := next c rest
    t :: tokensWith fuel rest

/-- The tokens of a text. -/
def tokens (cs : List Char) : List Token := tokensWith cs.length cs

/-- The source text of tokens that follow one another. -/
def textOf (ts : List Token) : List Char := ts.flatMap Token.text

theorem next_text (c : Char) (rest : List Char) :
    (next c rest).1.text ++ (next c rest).2 = c :: rest := by
  simp [next, List.take_append_drop]

theorem textOf_tokensWith (fuel : Nat) (cs : List Char) (h : cs.length ≤ fuel) :
    textOf (tokensWith fuel cs) = cs := by
  induction fuel generalizing cs with
  | zero => cases cs with
    | nil => rfl
    | cons c rest => simp at h
  | succ fuel ih => cases cs with
    | nil => rfl
    | cons c rest =>
      have hlen : (next c rest).2.length ≤ fuel := by
        simp only [next, List.length_drop, List.length_cons] at h ⊢
        omega
      have hrest := ih _ hlen
      simp only [tokensWith, textOf, List.flatMap_cons] at hrest ⊢
      rw [hrest, next_text]

/-- The texts of the tokens make up the text they were cut from. -/
theorem textOf_tokens (cs : List Char) : textOf (tokens cs) = cs :=
  textOf_tokensWith cs.length cs (Nat.le_refl _)

end Token

end CustomElements.Style
