import CustomElements.Markup.Reader.Reference
import CustomElements.Text.Blank

/-!
# The tokens of markup

Markup is cut into tags, comments and text. Nothing is refused: what begins like a tag but is none
is text, and a tag that the text ends in is dropped. How the next token is read depends on where it
stands, so a reader asks for one token at a time and says how to read it: inside some elements there
are no tags but the closing one.
-/

namespace CustomElements.Markup

/-- A piece of markup. -/
inductive Token where
  | startTag (name : String) (attributes : List (String × String)) (selfClosing : Bool)
  | endTag (name : String)
  /-- Text; a zero character in it has still to be dealt with. -/
  | text (cs : List Char)
  | comment
  /-- A document type, or an end tag without a name. -/
  | ignored
  deriving Repr

/-- How the text ahead is read. -/
inductive Reading where
  /-- Tags, references and text. -/
  | markup
  /-- Text with references, up to the end tag of the element. -/
  | escapable (name : String)
  /-- Text as it stands, up to the end tag of the element. -/
  | raw (name : String)
  /-- Text as it stands, up to the end tag of a script. -/
  | script
  /-- Text as it stands, up to the end. -/
  | plain
  deriving DecidableEq, Repr

/-- White space in tags. -/
def isTagSpace (c : Char) : Bool :=
  c == ' ' || c == '\t' || c == '\n' || c == '\x0c'

/-- The text begins with the word, whose letters are in lower case, in any letter case. -/
def startsWithWord (word : List Char) (cs : List Char) : Bool :=
  word.isPrefixOf ((cs.take word.length).map Char.toLower)

/-- The character in names: letters in lower case, and none is zero. -/
def nameChar (c : Char) : Char := if c == '\x00' then replacement else c.toLower

/-! ## Tags -/

/-- The name of an attribute that begins with `first`, and what follows. -/
def attributeName (first : Char) (cs : List Char) : String × List Char :=
  let (rest, after) := cs.span fun c => !(isTagSpace c || c == '/' || c == '>' || c == '=')
  (String.ofList ((first :: rest).map nameChar), after)

/-- The text up to a quote, and what follows the quote. -/
def upTo? (quote : Char) (cs : List Char) : Option (List Char × List Char) :=
  match cs.span (· != quote) with
  | (text, _ :: after) => some (text, after)
  | (_, []) => none

/-- The value of an attribute, and what follows it; nothing if the text ends inside. -/
def attributeValue? (cs : List Char) : Option (String × List Char) := do
  let (text, after) ← match cs with
    | '"' :: rest => upTo? '"' rest
    | '\'' :: rest => upTo? '\'' rest
    | cs => some (cs.span fun c => !(isTagSpace c || c == '>'))
  return (String.ofList (decodeReferences true (text.length + 1) text), after)

/-- Adds an attribute unless there is one of the name. -/
def addAttribute (done : List (String × String)) (name value : String) : List (String × String) :=
  if done.any (·.1 == name) then done else done ++ [(name, value)]

/-- What a tag says after its name. -/
structure TagRest where
  attributes : List (String × String)
  selfClosing : Bool
  /-- What follows the tag. -/
  after : List Char

/--
The rest of a tag after its name; nothing if the text ends inside. Every step uses a character.
-/
def tagRest? : (fuel : Nat) → (done : List (String × String)) → List Char → Option TagRest
  | 0, _, _ => none
  | fuel + 1, done, cs =>
    match cs with
    | [] => none
    | '>' :: rest => some ⟨done, false, rest⟩
    | '/' :: '>' :: rest => some ⟨done, true, rest⟩
    | c :: rest =>
      if isTagSpace c || c == '/' then tagRest? fuel done rest
      else
        let (name, rest) := attributeName c rest
        match rest.dropWhile isTagSpace with
        | '=' :: rest =>
          match attributeValue? (rest.dropWhile isTagSpace) with
          | some (value, rest) => tagRest? fuel (addAttribute done name value) rest
          | none => none
        | rest => tagRest? fuel (addAttribute done name "") rest

/-- A tag's name and the rest of the tag. -/
def tag? (cs : List Char) : Option (String × TagRest) :=
  let (name, rest) := cs.span fun c => !(isTagSpace c || c == '/' || c == '>')
  (tagRest? (rest.length + 1) [] rest).map (String.ofList (name.map nameChar), ·)

/-! ## Comments -/

/--
What follows a comment after its `<!--`. A comment may end at once, and else in `-->` or `--!>`.
-/
def afterCommentBody : List Char → List Char
  | [] => []
  | '-' :: '-' :: '>' :: rest => rest
  | '-' :: '-' :: '!' :: '>' :: rest => rest
  | _ :: rest => afterCommentBody rest

/-- What follows a comment after its `<!--`. -/
def afterComment : List Char → List Char
  | '>' :: rest => rest
  | '-' :: '>' :: rest => rest
  | cs => afterCommentBody cs

/-- What follows the next `>`. -/
def afterAngle (cs : List Char) : List Char := (cs.dropWhile (· != '>')).drop 1

/-- A section of text in foreign content, and what follows it. -/
def sectionText : List Char → List Char × List Char
  | [] => ([], [])
  | ']' :: ']' :: '>' :: rest => ([], rest)
  | c :: rest =>
    let (text, after) := sectionText rest
    (c :: text, after)

/-! ## Text up to an end tag -/

/-- The text begins with the end tag of the named element. -/
def atEndTagOf (name : String) : List Char → Bool
  | '<' :: '/' :: rest =>
    startsWithWord name.toList rest && match rest.drop name.length with
      | c :: _ => isTagSpace c || c == '/' || c == '>'
      | [] => false
  | _ => false

/-- The text up to the end tag of the named element, and what follows it. -/
def spanRaw (name : String) : List Char → List Char × List Char
  | [] => ([], [])
  | c :: rest =>
    if atEndTagOf name (c :: rest) then ([], c :: rest)
    else
      let (text, after) := spanRaw name rest
      (c :: text, after)

/-- Where in a script the reader is: `dashes` of the last characters are dashes, up to two. -/
inductive ScriptPlace where
  | code
  /-- Inside what looks like a comment. -/
  | comment (dashes : Nat)
  /-- Inside what looks like a script in a comment, where an end tag ends only that. -/
  | nested (dashes : Nat)

/-- The letters ahead are `script`, and a tag could end after them. -/
def atScriptWord (cs : List Char) : Bool :=
  let (word, after) := cs.span Char.isAlpha
  word.map Char.toLower == "script".toList && match after with
    | c :: _ => isTagSpace c || c == '/' || c == '>'
    | [] => false

/-- The place after a character and before `rest`. -/
def ScriptPlace.next (p : ScriptPlace) (c : Char) (rest : List Char) : ScriptPlace :=
  match p, c with
  | .code, '<' => if "!--".toList.isPrefixOf rest then .comment 0 else .code
  | .code, _ => .code
  | .comment d, '-' => .comment (min 2 (d + 1))
  | .comment 2, '>' => .code
  | .comment _, '<' => if atScriptWord rest then .nested 0 else .comment 0
  | .comment _, _ => .comment 0
  | .nested d, '-' => .nested (min 2 (d + 1))
  | .nested 2, '>' => .code
  | .nested _, '<' =>
    match rest with
    | '/' :: rest => if atScriptWord rest then .comment 0 else .nested 0
    | _ => .nested 0
  | .nested _, _ => .nested 0

/-- The script ends before an end tag, except inside a nested one. -/
def ScriptPlace.endsAt (p : ScriptPlace) (cs : List Char) : Bool :=
  match p with
  | .nested _ => false
  | _ => atEndTagOf "script" cs

/-- The text of a script up to its end tag, and what follows. -/
def spanScript : ScriptPlace → List Char → List Char × List Char
  | _, [] => ([], [])
  | p, c :: rest =>
    if p.endsAt (c :: rest) then ([], c :: rest)
    else
      let (text, after) := spanScript (p.next c rest) rest
      (c :: text, after)

/-- The text begins with a reference that goes without its semicolon, which is a fault. -/
def beginsFaulty : List Char → Bool
  | '&' :: rest =>
    match reference? false rest with
    | some (_, after) => (rest.take (rest.length - after.length)).getLast? != some ';'
    | none => false
  | _ => false

/-- Text in which zero characters are replaced. -/
def withoutZeros (cs : List Char) : List Char :=
  cs.map fun c => if c == '\x00' then replacement else c

/-! ## The next token -/

/-- A start tag at its name; nothing if the text ends inside. -/
def startTag? (cs : List Char) : Option (Token × List Char) :=
  (tag? cs).map fun (name, t) => (.startTag name t.attributes t.selfClosing, t.after)

/-- An end tag at its name; nothing if the text ends inside. -/
def endTag? (cs : List Char) : Option (Token × List Char) :=
  (tag? cs).map fun (name, t) => (.endTag name, t.after)

/-- The token that begins with `<!`, at what follows that. -/
def declaration (foreign : Bool) (cs : List Char) : Token × List Char :=
  match cs with
  | '-' :: '-' :: rest => (.comment, afterComment rest)
  | cs =>
    if startsWithWord "doctype".toList cs then (.ignored, afterAngle cs)
    else if foreign && "[CDATA[".toList.isPrefixOf cs then
      let (text, after) := sectionText (cs.drop 7)
      (.text text, after)
    else (.comment, afterAngle cs)

/-- The token that begins with `<`, at what follows that. -/
def angle? (foreign : Bool) (cs : List Char) : Option (Token × List Char) :=
  match cs with
  | '!' :: rest => some (declaration foreign rest)
  | '?' :: rest => some (.comment, afterAngle rest)
  | '/' :: '>' :: rest => some (.ignored, rest)
  | ['/'] => some (.text ['<', '/'], [])
  | '/' :: c :: rest =>
    if c.isAlpha then endTag? (c :: rest) else some (.comment, afterAngle (c :: rest))
  | c :: rest => if c.isAlpha then startTag? (c :: rest) else some (.text ['<'], c :: rest)
  | [] => some (.text ['<'], [])

/-- The next token where tags and references are read. -/
def markupToken? (foreign : Bool) : List Char → Option (Token × List Char)
  | [] => none
  | '<' :: rest => angle? foreign rest
  | '&' :: rest =>
    match reference? false rest with
    | some (characters, after) => some (.text characters, after)
    | none => some (.text ['&'], rest)
  | cs =>
    let (text, after) := cs.span fun c => c != '<' && c != '&'
    some (.text text, after)

/-- The text that was spanned, or the end tag if there is none. -/
def textOrEndTag? (decode : List Char → List Char) (spanned : List Char × List Char) :
    Option (Token × List Char) :=
  match spanned with
  | ([], after) => endTag? (after.drop 2)
  | (text, after) => some (.text (decode text), after)

/--
The next token and what follows it; nothing at the end, or if the text ends inside a tag. `foreign`
tells that the place is inside embedded content of another language.
-/
def nextToken? (reading : Reading) (foreign : Bool) (cs : List Char) :
    Option (Token × List Char) :=
  match reading with
  | .markup => markupToken? foreign cs
  | .plain => if cs.isEmpty then none else some (.text (withoutZeros cs), [])
  | .script => textOrEndTag? withoutZeros (spanScript .code cs)
  | .raw name => textOrEndTag? withoutZeros (spanRaw name cs)
  | .escapable name =>
    textOrEndTag? (fun text => decodeReferences false (text.length + 1) text) (spanRaw name cs)

/-- The characters of a text with every line end as one line feed. -/
def unifyLineEnds : List Char → List Char
  | [] => []
  | '\r' :: '\n' :: rest => '\n' :: unifyLineEnds rest
  | '\r' :: rest => '\n' :: unifyLineEnds rest
  | c :: rest => c :: unifyLineEnds rest

end CustomElements.Markup
