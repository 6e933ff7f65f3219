import CustomElements.Decimal.Reader
import CustomElements.Jinja.Error
import CustomElements.Json.Reader
import CustomElements.Text.Blank

/-!
# The tokens of a text template

A template is text with three kinds of islands in it: outputs in double braces, blocks in brace and
percent sign, and comments. A minus sign next to the inner side of a mark takes away the white space
on its outer side. Inside an island a closing mark counts only while no bracket is open.

The text between `raw` and `endraw` is not looked at. One line end at the end of a template does not
belong to it.

A scan gives the tokens up to the first fault, and the fault.
-/

namespace CustomElements.Jinja

/-- A token. -/
inductive Token where
  /-- Text that stands for itself. -/
  | data (s : String)
  | openOutput
  | closeOutput
  | openBlock
  | closeBlock
  | name (s : String)
  | string (s : String)
  | int (n : Nat)
  | float (x : Float)
  /-- A mark of one or two characters. -/
  | symbol (s : String)
  deriving Repr

/-- The tokens of a text, and what stopped the scan before its end. -/
structure Scan where
  tokens : List Token
  fault : Option Error

/-- A scan that stops at once. -/
def Scan.stop (fault : Error) : Scan := ⟨[], some fault⟩

/-- The scan with a token in front. -/
def Scan.cons (t : Token) (s : Scan) : Scan := { s with tokens := t :: s.tokens }

/-- The scan with text in front; empty text is no token. -/
def Scan.consData (cs : List Char) (s : Scan) : Scan :=
  if cs.isEmpty then s else s.cons (.data (String.ofList cs))

/-! ## Marks -/

/-- What an opening mark opens. -/
inductive Opening where
  | output
  | block
  | comment
  deriving DecidableEq, Repr

/-- The text up to the first opening mark, and what follows the mark. -/
def findOpening : List Char → List Char × Option (Opening × List Char)
  | [] => ([], none)
  | '{' :: '{' :: rest => ([], some (.output, rest))
  | '{' :: '%' :: rest => ([], some (.block, rest))
  | '{' :: '#' :: rest => ([], some (.comment, rest))
  | c :: rest =>
    let (lead, found) := findOpening rest
    (c :: lead, found)

/-- The sign next to a mark, and what follows it. -/
def takeSign : List Char → Option Char × List Char
  | '-' :: rest => (some '-', rest)
  | '+' :: rest => (some '+', rest)
  | cs => (none, cs)

/-- The text in front of a mark with this sign. -/
def trimLead (sign : Option Char) (lead : List Char) : List Char :=
  if sign = some '-' then Text.trimEnd lead else lead

/-- The text behind a mark with this sign. -/
def trimTail (sign : Option Char) (tail : List Char) : List Char :=
  if sign = some '-' then Text.trimStart tail else tail

/-- The white space between tokens. -/
def isGap (c : Char) : Bool :=
  c == ' ' || c == '\t' || c == '\n' || c == '\r' || c == '\x0c'

/-- What follows a closing mark of an island: its sign and the text behind. -/
def closing? (mark : List Char) (cs : List Char) : Option (Option Char × List Char) :=
  let (sign, rest) := takeSign cs
  if mark.isPrefixOf rest then some (sign, rest.drop mark.length) else none

/-- The sign and the text behind a block that holds one word and nothing else. -/
def wordBlock? (word : String) (cs : List Char) : Option (Option Char × List Char) :=
  let cs := cs.dropWhile isGap
  if word.toList.isPrefixOf cs then
    closing? ['%', '}'] ((cs.drop word.length).dropWhile isGap)
  else none

/--
The text up to the end of a `raw` block, with the signs at the end block's two sides, and what
follows that block.
-/
def rawText? : List Char → Option (List Char × Option Char × Option Char × List Char)
  | [] => none
  | '{' :: rest =>
    let found := match rest with
      | '%' :: inner =>
        let (sign, inner) := takeSign inner
        (wordBlock? "endraw" inner).map fun (after, tail) => (([] : List Char), sign, after, tail)
      | _ => none
    match found with
    | some r => some r
    | none => (rawText? rest).map fun (body, r) => ('{' :: body, r)
  | c :: rest => (rawText? rest).map fun (body, r) => (c :: body, r)

/-- The comment's last character, and what follows the comment. -/
def commentEnd? : (last : Option Char) → List Char → Option (Option Char × List Char)
  | _, [] => none
  | last, '#' :: '}' :: rest => some (last, rest)
  | _, c :: rest => commentEnd? (some c) rest

/-! ## Literals -/

/-- A letter or an underscore. -/
def isNameStart (c : Char) : Bool := c.isAlpha || c == '_'

/-- A character of a name after the first. -/
def isNamePart (c : Char) : Bool := c.isAlphanum || c == '_'

/-- The characters up to the end of a string literal, escapes as written, and what follows. -/
def stringBody? (quote : Char) : List Char → Option (List Char × List Char)
  | [] => none
  | '\\' :: c :: rest => (stringBody? quote rest).map fun (body, r) => ('\\' :: c :: body, r)
  | c :: rest =>
    if c == quote then some ([], rest)
    else (stringBody? quote rest).map fun (body, r) => (c :: body, r)

/-- The characters that a string literal stands for. -/
def unescape : (fuel : Nat) → List Char → Except Error (List Char)
  | 0, _ => .ok []
  | _, [] => .ok []
  | fuel + 1, '\\' :: c :: rest =>
    if c == 'u' then
      match Json.numericEscape? rest with
      | some (d, rest) => (unescape fuel rest).map (d :: ·)
      | none => .error .badEscape
    else if c == '\'' then (unescape fuel rest).map ('\'' :: ·)
    else match Json.shortEscape? c with
      | some d => (unescape fuel rest).map (d :: ·)
      | none => .error .badEscape
  | fuel + 1, c :: rest => (unescape fuel rest).map (c :: ·)

/-- How far a number in decimal notation has been read. -/
inductive NumberPart where
  | whole
  | places
  /-- After the `e`, where a sign may stand. -/
  | power
  | powerDigits
  deriving DecidableEq

/-- The part of a number that a further character belongs to. -/
def NumberPart.next? (part : NumberPart) (c : Char) : Option NumberPart :=
  if c == '_' then some part
  else if c.isDigit then some (if part = .power then .powerDigits else part)
  else match part with
    | .whole =>
      if c == '.' then some .places else if c == 'e' || c == 'E' then some .power else none
    | .places => if c == 'e' || c == 'E' then some .power else none
    | .power => if c == '+' || c == '-' then some .powerDigits else none
    | .powerDigits => none

/-- The characters of a number, the part it ends in, and what follows. -/
def takeNumber : NumberPart → List Char → List Char × NumberPart × List Char
  | part, [] => ([], part, [])
  | part, c :: rest =>
    match part.next? c with
    | some next =>
      let (body, last, rest) := takeNumber next rest
      (c :: body, last, rest)
    | none => ([], part, c :: rest)

/-- The value of a digit below the base. -/
def digitBelow? (base : Nat) (c : Char) : Option Nat :=
  match Json.hexVal? c with
  | some d => if d < base then some d else none
  | none => none

/-- The greatest number that a literal may stand for. -/
def literalLimit : Nat := Nat.pow 2 128

/-- The whole number of a literal's digits. -/
def wholeNumber? (base : Nat) (digits : List Char) : Option Nat :=
  if digits.isEmpty then none
  else match digits.mapM (digitBelow? base) with
    | some ds =>
      let n := ds.foldl (fun n d => n * base + d) 0
      if n < literalLimit then some n else none
    | none => none

/-- The token of a number's characters; underscores may stand anywhere but at its end. -/
def numberToken? (base : Nat) (isWhole : Bool) (body : List Char) : Option Token :=
  if body.getLast? = some '_' then none
  else
    let digits := body.filter (· != '_')
    if isWhole then (wholeNumber? base digits).map .int
    else (Decimal.read? digits).map .float

/-- The base that a number's first two characters announce. -/
def base? : List Char → Option Nat
  | '0' :: 'x' :: _ | '0' :: 'X' :: _ => some 16
  | '0' :: 'o' :: _ | '0' :: 'O' :: _ => some 8
  | '0' :: 'b' :: _ | '0' :: 'B' :: _ => some 2
  | _ => none

/-- The number at the start of the text. -/
def number? (cs : List Char) : Option (Token × List Char) :=
  match base? cs with
  | some base =>
    let isPart (c : Char) := c.isDigit || c == '_' || (base == 16 && (Json.hexVal? c).isSome)
    let rest := cs.drop 2
    (numberToken? base true (rest.takeWhile isPart)).map (·, rest.dropWhile isPart)
  | none =>
    let (body, part, rest) := takeNumber .whole cs
    (numberToken? 10 (part = .whole) body).map (·, rest)

/-! ## Islands -/

/-- The marks of two characters. -/
def longSymbols : List String := ["//", "**", "==", "!=", ">=", "<="]

/-- The marks of one character. -/
def shortSymbols : List Char := "+-*/%.,:~=><|()[]\x7b\x7d".toList

/-- The mark at the start of the text, and what follows it. -/
def symbol? (cs : List Char) : Option (String × List Char) :=
  match longSymbols.find? fun s => s.toList.isPrefixOf cs with
  | some s => some (s, cs.drop 2)
  | none =>
    match cs with
    | c :: rest => if shortSymbols.contains c then some (String.singleton c, rest) else none
    | [] => none

/-- How a mark changes the number of open brackets. -/
def bracketChange (s : String) : Int :=
  if ["(", "[", "\x7b"].contains s then 1 else if [")", "]", "\x7d"].contains s then -1 else 0

/-- The token at the start of the text inside an island. -/
def insideToken (cs : List Char) : Except Error (Token × List Char) :=
  match cs with
  | [] => .error .badSyntax
  | c :: rest =>
    if isNameStart c then
      .ok (.name (String.ofList (cs.takeWhile isNamePart)), cs.dropWhile isNamePart)
    else if c.isDigit then
      match number? cs with
      | some r => .ok r
      | none => .error .badSyntax
    else if c == '"' || c == '\'' then
      match stringBody? c rest with
      | some (body, rest) =>
        (unescape body.length body).map fun s => (.string (String.ofList s), rest)
      | none => .error .badSyntax
    else match symbol? cs with
      | some (s, rest) => .ok (.symbol s, rest)
      | none => .error .badSyntax

/-- Where a scan is. -/
inductive Place where
  /-- Between islands. -/
  | text
  /-- In an output, with so many open brackets. -/
  | output (brackets : Int)
  /-- In a block, with so many open brackets. -/
  | block (brackets : Int)

/-- The place with another number of open brackets. -/
def Place.change (p : Place) (d : Int) : Place :=
  match p with
  | .text => .text
  | .output n => .output (n + d)
  | .block n => .block (n + d)

/-- What follows the mark that closes the island, if it stands here and may close it. -/
def Place.closed? (p : Place) (cs : List Char) : Option (Token × List Char) :=
  match p with
  | .output 0 => (closing? ['}', '}'] cs).map fun (sign, rest) => (.closeOutput, trimTail sign rest)
  | .block 0 => (closing? ['%', '}'] cs).map fun (sign, rest) => (.closeBlock, trimTail sign rest)
  | _ => none

/--
The tokens of a text from a place on. Every step uses a character, so the text's length is fuel
enough.
-/
def scanFrom : (fuel : Nat) → Place → List Char → Scan
  | 0, _, _ => ⟨[], none⟩
  | _, _, [] => ⟨[], none⟩
  | fuel + 1, .text, cs =>
    match findOpening cs with
    | (lead, none) => Scan.consData lead ⟨[], none⟩
    | (lead, some (opening, rest)) =>
      let (sign, inner) := takeSign rest
      Scan.consData (trimLead sign lead) <|
        match opening with
        | .output => (scanFrom fuel (.output 0) inner).cons .openOutput
        | .comment =>
          match commentEnd? none inner with
          | some (last, rest) => scanFrom fuel .text (trimTail last rest)
          | none => .stop .badSyntax
        | .block =>
          match wordBlock? "raw" inner with
          | some (first, rest) =>
            match rawText? rest with
            | some (body, before, after, rest) =>
              (scanFrom fuel .text (trimTail after rest)).consData
                (trimLead before (trimTail first body))
            | none => .stop .badSyntax
          | none => (scanFrom fuel (.block 0) inner).cons .openBlock
  | fuel + 1, p, cs =>
    let cs := cs.dropWhile isGap
    if cs.isEmpty then ⟨[], none⟩
    else match p.closed? cs with
      | some (t, rest) => (scanFrom fuel .text rest).cons t
      | none =>
        match insideToken cs with
        | .error e => .stop e
        | .ok (t, rest) =>
          let change := match t with
            | .symbol s => bracketChange s
            | _ => 0
          (scanFrom fuel (p.change change) rest).cons t

/-- The text without one line end at its end. -/
def dropLineEnd (cs : List Char) : List Char :=
  let cs := if cs.getLast? = some '\n' then cs.dropLast else cs
  if cs.getLast? = some '\r' then cs.dropLast else cs

/-- The tokens of a template. -/
def scan (source : String) : Scan :=
  let cs := dropLineEnd source.toList
  scanFrom cs.length .text cs

end CustomElements.Jinja
