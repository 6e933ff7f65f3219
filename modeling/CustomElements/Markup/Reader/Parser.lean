import CustomElements.Markup.Reader.Rules

/-!
# Reading markup

Any text is markup: a fragment of a document as it could stand in its body. Nothing is refused and
there are no messages; end tags that are missing are supplied, and tags that cannot stand where they
are have an effect that the rules define. Comments, document types and the contents of templates do
not appear in the result, and no element in it is marked as expanded.
-/

namespace CustomElements.Markup

namespace Builder

/-- Looks at a token until a rule has dealt with it. Each time, an element or a mode is left. -/
def applyWith : (fuel : Nat) → Builder → Token → Builder
  | 0, b, _ => b
  | fuel + 1, b, t =>
    let applied := if b.isForeign t then b.inForeign t else b.inMode t
    if applied.again then applyWith fuel applied.builder t else applied.builder

/-- The number of rules that a token may need. -/
def applyFuel (b : Builder) : Nat := 4 * (b.stack.length + 4)

/-- The text without the line feed that is dropped at its beginning. -/
def dropNewline (skip : Bool) : Token → Token
  | .text ('\n' :: cs) => .text (if skip then cs else '\n' :: cs)
  | t => t

/-- The text in pieces that are all white space or hold none. -/
def pieces : List Char → List (List Char)
  | [] => []
  | c :: rest =>
    match pieces rest with
    | (d :: piece) :: more =>
      if isBetweenTags c == isBetweenTags d then (c :: d :: piece) :: more
      else [c] :: (d :: piece) :: more
    | more => [c] :: more

/-- The token, or several tokens if it is text of several pieces. -/
def splitText : Token → List Token
  | .text cs => (pieces cs).map .text
  | t => [t]

/-- Applies the rules to a token. A line feed that begins with a fault is not dropped. -/
def apply (b : Builder) (faulty : Bool) (t : Token) : Builder :=
  (splitText (dropNewline (b.skipNewline && !faulty) t)).foldl
    (fun b t => applyWith b.applyFuel b t) { b with skipNewline := false }

/-- Applies the rules to all tokens of the text. Every token uses a character. -/
def readAll : (fuel : Nat) → Builder → List Char → Builder
  | 0, b, _ => b
  | fuel + 1, b, cs =>
    match nextToken? b.reading (b.currentName.language != .html) cs with
    | some (t, rest) => readAll fuel (b.apply (beginsFaulty cs) t) rest
    | none => b

/-- What is left to do at the end of the text. -/
def finish (b : Builder) : Builder := if b.mode = .tableText then b.flushTableText else b

end Builder

/-- The text without a mark of its byte order. -/
def withoutByteOrderMark : List Char → List Char
  | '\ufeff' :: rest => rest
  | cs => cs

/-- The nodes that a text stands for as markup. -/
def parse (markup : String) : List Node :=
  let cs := unifyLineEnds (withoutByteOrderMark markup.toList)
  (Builder.start.readAll (cs.length + 1) cs).finish.grove.forest

end CustomElements.Markup
