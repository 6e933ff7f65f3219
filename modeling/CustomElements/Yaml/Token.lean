import CustomElements.Yaml.Scalar

/-!
# The tokens of a YAML text

Indentation and line structure are turned into tokens that open and close sequences and mappings, so
that what reads the tokens need not know about columns.

Whether a scalar is the key of a mapping only shows when a colon follows it. Every token that may
start such a key is therefore announced by a *place*, and when the colon comes, the place is marked
as the start of a key, and also as the start of a mapping if the key is indented further than what
is open. Nothing is ever inserted; places that stay unmarked mean nothing.
-/

namespace CustomElements.Yaml

/-- How a scalar is written. -/
inductive Style where
  | plain
  | quoted
  | literal
  | folded
  deriving DecidableEq, Repr

/-- A token. -/
inductive Token where
  | documentStart
  | documentEnd
  | versionDirective
  | tagDirective (handle expansion : String)
  | sequenceStart
  | mappingStart
  | blockEnd
  | flowSequenceStart
  | flowSequenceEnd
  | flowMappingStart
  | flowMappingEnd
  | entry
  | comma
  | key
  | value
  | reference (name : String)
  | anchor (name : String)
  | tag (handle name : String)
  | scalar (text : String) (style : Style)
  /-- Where a key may turn out to start. -/
  | place (id : Nat)
  deriving DecidableEq, Repr

/-- A key that a colon may still confirm. -/
structure Candidate where
  place : Nat
  /-- Nothing but a key can stand here. -/
  required : Bool
  index : Nat
  line : Nat
  column : Nat

/-- The state of a scan. -/
structure Scanner where
  cursor : Cursor
  /-- The tokens so far, the latest first. -/
  tokens : List Token
  /-- The column of the innermost open block; `-1` outside of all. -/
  indent : Int
  /-- The columns of the blocks around it. -/
  outer : List Int
  /-- A key without a mark may start here. -/
  keyAllowed : Bool
  /-- The candidate of each level of brackets, innermost first. -/
  candidates : List (Option Candidate)
  /-- The number of places. -/
  places : Nat
  /-- The places where keys start, and whether a mapping starts there too. -/
  keys : List (Nat × Bool)

namespace Scanner

/-- The scan of a text before its first token. -/
def start (cs : List Char) : Scanner := ⟨.ofText cs, [], -1, [], true, [none], 0, []⟩

/-- The place is between brackets. -/
def inFlow (s : Scanner) : Bool := s.candidates.length != 1

/-- Adds a token. -/
def emit (s : Scanner) (t : Token) : Scanner := { s with tokens := t :: s.tokens }

/-- Passes over so many characters. -/
def advance (s : Scanner) (n : Nat) : Scanner := { s with cursor := s.cursor.skipMany n }

/-- Drops the candidate of the innermost level; a required one may not be dropped. -/
def dropCandidate (s : Scanner) : Option Scanner :=
  match s.candidates with
  | some k :: rest => if k.required then none else some { s with candidates := none :: rest }
  | _ => some s

/-- Makes the place a candidate, if a key may start here. -/
def saveCandidate (s : Scanner) : Option Scanner :=
  if !s.keyAllowed then some s
  else do
    let s ← s.dropCandidate
    let required := !s.inFlow && s.indent == s.cursor.column
    let k : Candidate := ⟨s.places, required, s.cursor.index, s.cursor.line, s.cursor.column⟩
    return { s.emit (.place s.places) with
      candidates := some k :: s.candidates.tail
      places := s.places + 1 }

/-- A key stays within one line and 1024 characters. -/
def isStale (s : Scanner) (k : Candidate) : Bool :=
  k.line < s.cursor.line || k.index + 1024 < s.cursor.index

/-- Drops the candidates that a colon can no longer confirm; none of them may be required. -/
def dropStale (s : Scanner) : Option Scanner :=
  if s.candidates.any fun k? => k?.any fun k => s.isStale k && k.required then none
  else some { s with
    candidates := s.candidates.map fun k? => k?.filter fun k => !s.isStale k }

/-- Opens a block at a column that is further right than the innermost one. -/
def roll (s : Scanner) (column : Nat) (t : Token) : Scanner :=
  if !s.inFlow && s.indent < column then
    { s.emit t with indent := column, outer := s.indent :: s.outer }
  else s

/-- Closes the blocks that begin right of a column. -/
def unrollFrom (column : Int) : (outer : List Int) → Scanner → Scanner
  | [], s => s
  | n :: outer, s =>
    if column < s.indent then
      unrollFrom column outer { s.emit .blockEnd with indent := n, outer := outer }
    else s

/-- Closes the blocks that begin right of a column; brackets do not care about columns. -/
def unroll (s : Scanner) (column : Int) : Scanner :=
  if s.inFlow then s else unrollFrom column s.outer s

/-- Passes over white space, comments and line breaks. -/
def skipGaps : (fuel : Nat) → Scanner → Scanner
  | 0, s => s
  | fuel + 1, s =>
    let tabs := s.inFlow || !s.keyAllowed
    let c := s.cursor.skipWhile fun d => d == ' ' || (tabs && d == '\t')
    let c := if c.sees '#' then c.skipWhile fun d => !isBreak d && d != '\x00' else c
    if c.seesAny isBreak then
      skipGaps fuel { s with
        cursor := c.takeBreak.2
        keyAllowed := s.keyAllowed || !s.inFlow }
    else { s with cursor := c }

/-- A token after which no block is open. -/
def documentToken (s : Scanner) (length : Nat) (t : Token) : Option Scanner := do
  let s ← (s.unroll (-1)).dropCandidate
  return { (s.emit t).advance length with keyAllowed := false }

/-- An opening bracket. -/
def openFlow (s : Scanner) (t : Token) : Option Scanner := do
  let s ← s.saveCandidate
  return { (s.emit t).advance 1 with
    keyAllowed := true
    candidates := none :: s.candidates }

/-- A closing bracket. -/
def closeFlow (s : Scanner) (t : Token) : Option Scanner := do
  let s ← s.dropCandidate
  return { (s.emit t).advance 1 with
    keyAllowed := false
    candidates := if s.inFlow then s.candidates.tail else s.candidates }

/-- A comma. -/
def commaToken (s : Scanner) : Option Scanner := do
  let s ← s.dropCandidate
  return { (s.emit .comma).advance 1 with keyAllowed := true }

/-- The dash of an entry. -/
def entryToken (s : Scanner) : Option Scanner := do
  if !s.inFlow && !s.keyAllowed then none
  let s ← (s.roll s.cursor.column .sequenceStart).dropCandidate
  return { (s.emit .entry).advance 1 with keyAllowed := true }

/-- The question mark of a key. -/
def keyToken (s : Scanner) : Option Scanner := do
  if !s.inFlow && !s.keyAllowed then none
  let s ← (s.roll s.cursor.column .mappingStart).dropCandidate
  return { (s.emit .key).advance 1 with keyAllowed := !s.inFlow }

/-- A colon: it confirms the candidate, or stands for an empty key. -/
def valueToken (s : Scanner) : Option Scanner :=
  match s.candidates with
  | some k :: rest =>
    let opens := !s.inFlow && s.indent < k.column
    let s := if opens then { s with indent := k.column, outer := s.indent :: s.outer } else s
    some { (s.emit .value).advance 1 with
      keyAllowed := false
      candidates := none :: rest
      keys := (k.place, opens) :: s.keys }
  | _ =>
    if !s.inFlow && !s.keyAllowed then none
    else
      let s := s.roll s.cursor.column .mappingStart
      some { (s.emit .value).advance 1 with keyAllowed := !s.inFlow }

/-- A token that belongs to a node and comes from so many characters. -/
def nodeToken (s : Scanner) (t : Token) (c : Cursor) : Option Scanner := do
  let s ← s.saveCandidate
  return { s.emit t with keyAllowed := false, cursor := c }

/-- A character of the name of an anchor. -/
def isNameChar (c : Char) : Bool := c.isAlphanum || c == '_' || c == '-'

/-- An anchor or a reference to one. -/
def anchorToken (s : Scanner) (t : String → Token) : Option Scanner :=
  let (name, c) := s.cursor.skip.takeWhile isNameChar
  let ends := isGap c.peek? || c.seesAny fun d =>
    d == '?' || d == ':' || d == ',' || d == ']' || d == '}' || d == '%' || d == '@' || d == '\x60'
  if name.isEmpty || !ends then none else s.nodeToken (t (String.ofList name)) c

/-- A character of the name of a tag. -/
def isTagChar (c : Char) : Bool := isNameChar c || ";/?:@&=+$.~*'()%".toList.contains c

/-- A tag. -/
def tagToken (s : Scanner) : Option Scanner := do
  let (t, c) ← match s.cursor.rest with
    | '!' :: '<' :: _ =>
      let (name, c) := (s.cursor.skipMany 2).takeWhile fun d =>
        isTagChar d || "!,[]".toList.contains d
      if name.isEmpty || !c.sees '>' then none else some (Token.tag "" (String.ofList name), c.skip)
    | _ =>
      let (word, c) := s.cursor.skip.takeWhile isNameChar
      if c.sees '!' then
        let (name, c) := c.skip.takeWhile fun d => isTagChar d || d == '!'
        if name.isEmpty then none
        else some (Token.tag (String.ofList ('!' :: word ++ ['!'])) (String.ofList name), c)
      else
        let (more, c) := c.takeWhile fun d => isTagChar d || d == '!'
        let name := String.ofList (word ++ more)
        some (if name.isEmpty then Token.tag "" "!" else Token.tag "!" name, c)
  if isGap c.peek? || (s.inFlow && c.sees ',') then s.nodeToken t c else none

/-- A scalar in a block. -/
def blockToken (s : Scanner) (folding : Bool) : Option Scanner := do
  let s ← s.dropCandidate
  let (text, c) ← blockText folding s.indent s.cursor
  let style := if folding then Style.folded else .literal
  return { s.emit (.scalar (String.ofList text) style) with keyAllowed := true, cursor := c }

/-- A scalar in quotes. -/
def quotedToken (s : Scanner) (single : Bool) : Option Scanner := do
  let (text, c) ← quotedText single (s.cursor.rest.length + 1) [] s.cursor.skip
  s.nodeToken (.scalar (String.ofList text) .quoted) c

/-- A plain scalar; after a line break a key may start. -/
def plainToken (s : Scanner) : Option Scanner := do
  let (text, broken, c) ← plainText s.inFlow (s.indent + 1).toNat (s.cursor.rest.length + 1) []
    Gap.none s.cursor
  let s ← s.nodeToken (.scalar (String.ofList text) .plain) c
  return { s with keyAllowed := broken }

/-- The digits of a version. -/
def isVersion (cs : List Char) : Bool := cs == ['1', '.', '1'] || cs == ['1', '.', '2']

/-- A directive: the version, or an abbreviation for tags. -/
def directiveToken (s : Scanner) : Option Scanner := do
  let line := s.cursor.rest.takeWhile fun d => !isBreak d
  let text := line.takeWhile (· != '#')
  let isWord (d : Char) : Bool := !isBlank d
  let words := (text.splitBy fun a b => isWord a == isWord b).filter fun w => w.all isWord
  match words with
  | ['%', 'Y', 'A', 'M', 'L'] :: version :: [] =>
    if isVersion version then s.documentToken line.length .versionDirective else none
  | ['%', 'T', 'A', 'G'] :: handle :: expansion :: [] =>
    s.documentToken line.length (.tagDirective (String.ofList handle) (String.ofList expansion))
  | _ => none

/-- A plain scalar may begin with the first of these characters, if the second follows. -/
def startsPlain (flow : Bool) (c : Char) (next? : Option Char) : Bool :=
  if c == '-' then !next?.any isBlank
  else if c == '?' || c == ':' then !flow && !isGap next?
  else !"-?:,[]\x7b\x7d#&*!|>\x27\x22%@\x60".toList.contains c && !isGap (some c)

/-- The next token, given its first character. -/
def token (s : Scanner) (c : Char) : Option Scanner :=
  let next? := s.cursor.peekAt? 1
  if s.cursor.column == 0 && c == '%' then s.directiveToken
  else if s.cursor.atDocumentMark then
    s.documentToken 3 (if c == '-' then .documentStart else .documentEnd)
  else if c == '[' then s.openFlow .flowSequenceStart
  else if c == '{' then s.openFlow .flowMappingStart
  else if c == ']' then s.closeFlow .flowSequenceEnd
  else if c == '}' then s.closeFlow .flowMappingEnd
  else if c == ',' then s.commaToken
  else if c == '-' && isGap next? then s.entryToken
  else if c == '?' && (s.inFlow || isGap next?) then s.keyToken
  else if c == ':' && (s.inFlow || isGap next?) then s.valueToken
  else if c == '*' then s.anchorToken .reference
  else if c == '&' then s.anchorToken .anchor
  else if c == '!' then s.tagToken
  else if c == '|' && !s.inFlow then s.blockToken false
  else if c == '>' && !s.inFlow then s.blockToken true
  else if c == '\'' then s.quotedToken true
  else if c == '"' then s.quotedToken false
  else if startsPlain s.inFlow c next? then s.plainToken
  else none

/-- Scans to the end; every token uses a character. -/
def toEnd (s : Scanner) : (fuel : Nat) → Option Scanner
  | 0 => none
  | fuel + 1 => do
    let s ← (skipGaps (s.cursor.rest.length + 1) s).dropStale
    let s := s.unroll s.cursor.column
    match s.cursor.peek? with
    | none => (s.unroll (-1)).dropCandidate
    | some c =>
      let s ← s.token c
      s.toEnd fuel

/-- The tokens in order, with keys and mappings in the places where they start. -/
def result (s : Scanner) : List Token :=
  s.tokens.reverse.flatMap fun t =>
    match t with
    | .place id =>
      match s.keys.lookup id with
      | some true => [.mappingStart, .key]
      | some false => [.key]
      | none => []
    | t => [t]

end Scanner

/-- The tokens of a text; nothing if it is malformed. A byte order mark in front takes a column. -/
def tokens? (text : String) : Option (List Token) :=
  let cs := text.toList
  if cs.all isAllowed then
    let s := Scanner.start cs
    let s := if s.cursor.sees '\ufeff' then s.advance 1 else s
    (s.toEnd (cs.length + 2)).map Scanner.result
  else none

end CustomElements.Yaml
