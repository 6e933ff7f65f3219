import CustomElements.Json.Reader
import CustomElements.Yaml.Cursor

/-!
# The texts of scalars

A scalar is written plainly, in quotes, or as an indented block. Lines of a plain or quoted scalar
are folded: a single line break between two words is a space, and of several breaks the first is
lost. A block keeps its lines, or folds those that are not indented further.

Each function begins at the scalar's first character and gives its text and the place behind it;
nothing if the scalar is malformed.
-/

namespace CustomElements.Yaml

/-- The white space between two words of a scalar. -/
structure Gap where
  /-- The blanks, if the words stand in one line. -/
  blanks : List Char
  /-- The words stand in different lines. -/
  broken : Bool
  /-- The first line break. -/
  first : List Char
  /-- The further line breaks. -/
  more : List Char

/-- No white space. -/
def Gap.none : Gap := ⟨[], false, [], []⟩

/-- What the white space is folded to. -/
def Gap.folded (g : Gap) : List Char :=
  if !g.broken then g.blanks
  else if g.first == ['\n'] then (if g.more.isEmpty then [' '] else g.more)
  else g.first ++ g.more

/--
The white space up to the next word. A tab may not stand left of column `least` in a line that is
folded onto another.
-/
def takeGap (least : Nat) : (fuel : Nat) → Gap → Cursor → Option (Gap × Cursor)
  | 0, g, c => some (g, c)
  | fuel + 1, g, c =>
    match c.peek? with
    | Option.none => some (g, c)
    | some d =>
      if isBlank d then
        if g.broken then
          if c.column < least && d == '\t' then Option.none else takeGap least fuel g c.skip
        else takeGap least fuel { g with blanks := g.blanks ++ [d] } c.skip
      else if isBreak d then
        let (text, c) := c.takeBreak
        if g.broken then takeGap least fuel { g with more := g.more ++ text } c
        else takeGap least fuel ⟨[], true, text, []⟩ c
      else some (g, c)

/-! ## Plain scalars -/

/-- The characters with a meaning of their own between brackets. -/
def isFlowMark (c : Char) : Bool := c == ',' || c == '[' || c == ']' || c == '{' || c == '}'

/-- A word of a plain scalar; between brackets a colon may not touch another mark. -/
def plainWord (flow : Bool) : List Char → Option (List Char)
  | [] => some []
  | c :: rest =>
    if isGap (some c) then some []
    else if c == ':' && flow && rest.head?.any (fun d => d == '?' || isFlowMark d) then none
    else if c == ':' && isGap rest.head? then some []
    else if flow && isFlowMark c then some []
    else (plainWord flow rest).map (c :: ·)

/--
The text of a plain scalar in a block whose lines begin at column `least`, whether it is followed by
a line break, and the place behind it.
-/
def plainText (flow : Bool) (least : Nat) :
    (fuel : Nat) → (text : List Char) → Gap → Cursor → Option (List Char × Bool × Cursor)
  | 0, text, gap, c => some (text, gap.broken, c)
  | fuel + 1, text, gap, c =>
    if c.atDocumentMark || c.sees '#' then some (text, gap.broken, c)
    else match plainWord flow c.rest with
      | none => none
      | some [] => some (text, gap.broken, c)
      | some word =>
        let text := text ++ gap.folded ++ word
        let c := c.skipMany word.length
        if c.seesAny fun d => isBlank d || isBreak d then
          match takeGap least c.rest.length Gap.none c with
          | none => none
          | some (gap, c) =>
            if !flow && c.column < least then some (text, gap.broken, c)
            else plainText flow least fuel text gap c
        else some (text, false, c)

/-! ## Quoted scalars -/

/-- The character of a one-letter escape in double quotes. -/
def shortEscape? (c : Char) : Option Char :=
  match c with
  | '0' => some '\x00'
  | 'a' => some '\x07'
  | 'b' => some '\x08'
  | 't' | '\t' => some '\t'
  | 'n' => some '\n'
  | 'v' => some '\x0b'
  | 'f' => some '\x0c'
  | 'r' => some '\r'
  | 'e' => some '\x1b'
  | ' ' => some ' '
  | '"' => some '"'
  | '/' => some '/'
  | '\\' => some '\\'
  | 'N' => some '\u0085'
  | '_' => some '\u00a0'
  | 'L' => some '\u2028'
  | 'P' => some '\u2029'
  | _ => none

/-- How many hexadecimal digits an escape has. -/
def escapeDigits? (c : Char) : Option Nat :=
  match c with
  | 'x' => some 2
  | 'u' => some 4
  | 'U' => some 8
  | _ => none

/-- The character of an escape by number. -/
def numberedChar? (digits : List Char) (count : Nat) : Option Char := do
  let ds ← (digits.take count).mapM Json.hexVal?
  let n := ds.foldl (fun n d => n * 16 + d) 0
  if ds.length = count ∧ n.isValidChar then some (Char.ofNat n) else none

/-- The text of a scalar in quotes from a place inside them, and the place behind. -/
def quotedText (single : Bool) :
    (fuel : Nat) → (text : List Char) → Cursor → Option (List Char × Cursor)
  | 0, _, _ => none
  | fuel + 1, text, c =>
    if c.atDocumentMark then none
    else
      let spaced (gap : Gap) (c : Cursor) : Option (List Char × Cursor) :=
        match takeGap 0 c.rest.length gap c with
        | none => none
        | some (gap, c) => quotedText single fuel (text ++ gap.folded) c
      match single, c.rest with
      | _, [] => none
      | true, '\'' :: '\'' :: _ => quotedText single fuel (text ++ ['\'']) (c.skipMany 2)
      | true, '\'' :: _ => some (text, c.skip)
      | false, '"' :: _ => some (text, c.skip)
      | false, '\\' :: d :: digits =>
        if isBreak d then spaced ⟨[], true, [], []⟩ c.skip.takeBreak.2
        else match escapeDigits? d, shortEscape? d with
          | some count, _ =>
            match numberedChar? digits count with
            | some e => quotedText single fuel (text ++ [e]) (c.skipMany (count + 2))
            | none => none
          | none, some e => quotedText single fuel (text ++ [e]) (c.skipMany 2)
          | none, none => none
      | _, d :: _ =>
        if isBlank d || isBreak d then spaced Gap.none c
        else if d == '\x00' then none
        else quotedText single fuel (text ++ [d]) c.skip

/-! ## Blocks -/

/-- What happens to the line breaks at the end of a block. -/
inductive Chomping where
  | strip
  | clip
  | keep
  deriving DecidableEq

/-- A sign for what happens to the last line breaks. -/
def takeChomping (c : Cursor) : Option Chomping × Cursor :=
  if c.sees '+' then (some .keep, c.skip)
  else if c.sees '-' then (some .strip, c.skip)
  else (none, c)

/-- A digit for the indentation; zero is not allowed. -/
def takeIndentation (c : Cursor) : Option (Option Nat × Cursor) :=
  match c.peek? with
  | some d =>
    if d == '0' then none
    else if d.isDigit then some (some (Json.digitVal d), c.skip)
    else some (none, c)
  | none => some (none, c)

/-- The two signs of a block in either order. -/
def takeHeader (c : Cursor) : Option (Chomping × Option Nat × Cursor) :=
  match takeChomping c with
  | (some chomping, c) => (takeIndentation c).map fun (n, c) => (chomping, n, c)
  | (none, c) =>
    match takeIndentation c with
    | none => none
    | some (none, c) => some (.clip, none, c)
    | some (some n, c) =>
      let (chomping, c) := takeChomping c
      some (chomping.getD .clip, some n, c)

/--
The empty lines before the next line of a block: their breaks, the furthest column that blanks lead
to, and the place behind. A tab may not stand where the indentation is still open.
-/
def takeEmptyLines (indent? : Option Nat) :
    (fuel : Nat) → (breaks : List Char) → (furthest : Nat) → Cursor →
      Option (List Char × Nat × Cursor)
  | 0, breaks, furthest, c => some (breaks, furthest, c)
  | fuel + 1, breaks, furthest, c =>
    let room := match indent? with
      | some n => n - c.column
      | none => c.rest.length
    let c := c.skipMany ((c.rest.take room).takeWhile (· == ' ')).length
    let furthest := max furthest c.column
    let inMargin := match indent? with
      | some n => c.column < n
      | none => true
    if inMargin && c.sees '\t' then none
    else if c.seesAny isBreak then
      let (text, c) := c.takeBreak
      takeEmptyLines indent? fuel (breaks ++ text) furthest c
    else some (breaks, furthest, c)

/-- What has been read of a block, and what ends its lines so far. -/
structure BlockState where
  text : List Char
  /-- The break that ends the last line. -/
  lineEnd : List Char
  /-- The breaks of the empty lines after it. -/
  empties : List Char
  /-- The last line begins with a blank. -/
  indentedFurther : Bool

/-- The lines of a block whose text begins at column `indent`. -/
def blockLines (folding : Bool) (indent : Nat) :
    (fuel : Nat) → BlockState → Cursor → Option (BlockState × Cursor)
  | 0, s, c => some (s, c)
  | fuel + 1, s, c =>
    if c.column != indent || c.rest.isEmpty then some (s, c)
    else
      let further := c.seesAny isBlank
      let joint :=
        if folding && s.lineEnd == ['\n'] && !s.indentedFurther && !further then
          (if s.empties.isEmpty then [' '] else [])
        else s.lineEnd
      let (line, c) := c.takeWhile fun d => !isBreak d && d != '\x00'
      let (lineEnd, c) := c.takeBreak
      match takeEmptyLines (some indent) (c.rest.length + 1) [] 0 c with
      | none => none
      | some (empties, _, c) =>
        blockLines folding indent fuel
          ⟨s.text ++ joint ++ s.empties ++ line, lineEnd, empties, further⟩ c

/-- The text of a block inside a structure that is indented to column `outer`. -/
def blockText (folding : Bool) (outer : Int) (c : Cursor) : Option (List Char × Cursor) := do
  let (chomping, increment, c) ← takeHeader c.skip
  let c := c.skipWhile isBlank
  let c := if c.sees '#' then c.skipWhile fun d => !isBreak d else c
  if !(c.rest.isEmpty || c.seesAny isBreak) then none
  let (_, c) := c.takeBreak
  let indent? := increment.map fun n => if 0 ≤ outer then outer.toNat + n else n
  let (empties, furthest, c) ← takeEmptyLines indent? (c.rest.length + 1) [] 0 c
  let indent := indent?.getD (max (max furthest (outer + 1).toNat) 1)
  let (s, c) ← blockLines folding indent (c.rest.length + 1) ⟨[], [], empties, false⟩ c
  let text := match chomping with
    | .strip => s.text
    | .clip => s.text ++ s.lineEnd
    | .keep => s.text ++ s.lineEnd ++ s.empties
  return (text, c)

end CustomElements.Yaml
