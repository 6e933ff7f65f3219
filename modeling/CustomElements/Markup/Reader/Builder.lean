import CustomElements.Markup.Reader.Grove
import CustomElements.Markup.Reader.Token

/-!
# Open elements and formatting

The state of a reader of markup: the growing tree, the elements whose end has not been read, and the
*formatting* elements, such as `b`, that are opened again after an element has ended without their
own end tag. Where a node goes depends on the open elements: usually it becomes the last child of
the innermost one, but inside a table what is no part of a table goes in front of the table.
-/

namespace CustomElements.Markup

/-- Which rules apply to the next token. -/
inductive Mode where
  | body
  /-- In an element that holds text only. -/
  | text
  | table
  /-- In text directly in a table. -/
  | tableText
  | caption
  | columnGroup
  | tableBody
  | row
  | cell
  | select
  | selectInTable
  | template
  deriving DecidableEq, Repr

/-- An entry of the list of formatting elements. -/
inductive Formatting where
  /-- What is before is not looked at until the element that set the marker ends. -/
  | marker
  | element (id : Nat) (name : String) (attributes : List (String × String))

namespace Formatting

/-- The entry is a marker. -/
def isMarker : Formatting → Bool
  | .marker => true
  | .element .. => false

/-- The entry is that of the element. -/
def isOf (id : Nat) : Formatting → Bool
  | .marker => false
  | .element other _ _ => other == id

/-- Attributes that say the same in another order. -/
def sameAttributes (a b : List (String × String)) : Bool :=
  a.length == b.length && a.all b.contains

/-- The entry is for a tag that says the same. -/
def isLike (name : String) (attributes : List (String × String)) : Formatting → Bool
  | .marker => false
  | .element _ n a => n == name && sameAttributes a attributes

/-- Leaves out the last entry that satisfies the test. -/
def dropLast (p : Formatting → Bool) (l : List Formatting) : List Formatting :=
  let (after, before) := l.reverse.span fun e => !p e
  (after ++ before.tail).reverse

end Formatting

/-- The state of a reader. -/
structure Builder where
  grove : Grove
  /-- The open elements, innermost first. -/
  stack : List Nat
  /-- The formatting elements, latest first. -/
  formatting : List Formatting
  mode : Mode
  /-- The mode to return to after text. -/
  returnMode : Mode
  /-- The modes of open `template` elements, innermost first. -/
  templateModes : List Mode
  /-- The form that is open. -/
  form : Option Nat
  /-- What may not stand in a table goes in front of it. -/
  fostering : Bool
  /-- Text directly in a table, last character first. -/
  tableText : List Char
  /-- A line feed at the beginning of the next token is dropped. -/
  skipNewline : Bool
  /-- How the text ahead is read. -/
  reading : Reading

namespace Builder

/-- The state before anything has been read. -/
def start : Builder := ⟨.seed, [0], [], .body, .body, [], none, false, [], false, .markup⟩

/-! ## Open elements -/

/-- The name of an element. -/
def name (b : Builder) (id : Nat) : ElementName := b.grove.name id

/-- The innermost open element. -/
def current (b : Builder) : Nat := b.stack.headD 0

/-- The name of the innermost open element. -/
def currentName (b : Builder) : ElementName := b.name b.current

/-- The innermost open element has the name. -/
def currentIs (b : Builder) (name : String) : Bool := b.currentName.isHtml name

/-- Closes the innermost open element. -/
def pop (b : Builder) : Builder := { b with stack := b.stack.tail }

/-- Closes the innermost open element if it has the name. -/
def popIf (b : Builder) (name : String) : Builder := if b.currentIs name then b.pop else b

/-- Closes elements up to and including the first that satisfies the test. -/
def popThrough (b : Builder) (p : ElementName → Bool) : Builder :=
  { b with stack := (b.stack.dropWhile fun id => !p (b.name id)).tail }

/-- Closes elements up to and including one of the name. -/
def popNamed (b : Builder) (name : String) : Builder := b.popThrough (·.isHtml name)

/-- Closes elements until the innermost satisfies the test. -/
def popWhileNot (b : Builder) (p : ElementName → Bool) : Builder :=
  { b with stack := b.stack.dropWhile fun id => !p (b.name id) }

/-- Closes elements whose end tags may be left out, but none of the name. -/
def closeImplied (b : Builder) (except : String) : Builder :=
  { b with stack := b.stack.dropWhile fun id =>
      (b.name id).endsByItself && !(b.name id).isHtml except }

/-- Closes elements whose end tags may be left out. -/
def closeAllImplied (b : Builder) : Builder := b.closeImplied ""

/-- Looks for an open element outwards up to a boundary, which is itself looked at. -/
def inScopeWhere (b : Builder) (bounds : ElementName → Bool) (p : Nat → Bool) : Bool :=
  match b.stack.find? fun id => p id || bounds (b.name id) with
  | some id => p id
  | none => false

/-- An element of the name is open within the boundary. -/
def inScope (b : Builder) (bounds : ElementName → Bool) (name : String) : Bool :=
  b.inScopeWhere bounds fun id => (b.name id).isHtml name

/-- An element of the name is open. -/
def isOpen (b : Builder) (name : String) : Bool := b.stack.any fun id => (b.name id).isHtml name

/-- Closes a paragraph with what is open in it. -/
def closeParagraph (b : Builder) : Builder := (b.closeImplied "p").popNamed "p"

/-- Closes an open paragraph, if there is one. -/
def endParagraph (b : Builder) : Builder :=
  if b.inScope ElementName.boundsButtonScope "p" then b.closeParagraph else b

/-! ## Placing nodes -/

/-- Where a node goes. -/
inductive Place where
  | lastChild (parent : Nat)
  /-- In front of a table, or at the end of the element that is open outside it. -/
  | beforeTable (table outside : Nat)

/-- The place in front of the innermost table among open elements, unless a template comes first. -/
def fosterPlace (b : Builder) : List Nat → Place
  | [] => .lastChild 0
  | id :: rest =>
    if (b.name id).isHtml "template" then .lastChild id
    else if (b.name id).isHtml "table" then .beforeTable id (rest.headD 0)
    else b.fosterPlace rest

/-- The place for a node that would become the last child of `target`. -/
def placeFor (b : Builder) (target : Nat) : Place :=
  if b.fostering && (b.name target).isTablePart then b.fosterPlace b.stack else .lastChild target

/-- Puts a cell in its place. -/
def put (b : Builder) (place : Place) (id : Nat) : Builder :=
  { b with grove := match place with
      | .lastChild parent => b.grove.append parent id
      | .beforeTable table outside => match b.grove.parent? table with
        | some parent => b.grove.insertBefore parent table id
        | none => b.grove.append outside id }

/-- Puts text in the place for it. -/
def putText (b : Builder) (cs : List Char) : Builder :=
  if cs.isEmpty then b
  else { b with grove := match b.placeFor b.current with
      | .lastChild parent => b.grove.appendText parent cs
      | .beforeTable table outside => match b.grove.parent? table with
        | some parent => b.grove.insertTextBefore parent table cs
        | none => b.grove.appendText outside cs }

/-- Puts a comment in the place for it. -/
def putComment (b : Builder) : Builder :=
  let (id, grove) := b.grove.add .comment
  { b with grove := grove }.put (.lastChild b.current) id

/-- A new element without a parent. -/
def create (b : Builder) (name : ElementName) (attributes : List (String × String)) :
    Nat × Builder :=
  let (id, grove) := b.grove.add (.element name attributes)
  (id, { b with grove := grove })

/-- Puts a new element in the place for it. -/
def insertElement (b : Builder) (name : ElementName) (attributes : List (String × String)) :
    Nat × Builder :=
  let place := b.placeFor b.current
  let (id, b) := b.create name attributes
  (id, b.put place id)

/-- Puts a new element in the place for it and opens it. -/
def openElement (b : Builder) (name : String) (attributes : List (String × String)) : Builder :=
  let (id, b) := b.insertElement (.html name) attributes
  { b with stack := id :: b.stack }

/-- Puts a new element in the place for it; it has no content. -/
def addElement (b : Builder) (name : String) (attributes : List (String × String)) : Builder :=
  (b.insertElement (.html name) attributes).2

/-- Puts a new element in the place for it and opens it, for text only. -/
def openText (b : Builder) (name : String) (attributes : List (String × String))
    (reading : Reading) : Builder :=
  { b.openElement name attributes with mode := .text, returnMode := b.mode, reading := reading }

/-! ## Formatting elements -/

/-- The entries after the last marker. -/
def recentFormatting (b : Builder) : List Formatting :=
  b.formatting.takeWhile (!·.isMarker)

/-- The element is a formatting element. -/
def isFormatting (b : Builder) (id : Nat) : Bool := b.formatting.any (·.isOf id)

/-- Takes an element out of the formatting elements. -/
def dropFormatting (b : Builder) (id : Nat) : Builder :=
  { b with formatting := b.formatting.filter (!·.isOf id) }

/-- Sets a marker. -/
def mark (b : Builder) : Builder := { b with formatting := .marker :: b.formatting }

/-- Forgets the formatting elements after the last marker, and the marker. -/
def clearToMarker (b : Builder) : Builder :=
  { b with formatting := (b.formatting.dropWhile (!·.isMarker)).tail }

/-- The entry needs not be opened again. -/
def isSettled (b : Builder) : Formatting → Bool
  | .marker => true
  | .element id _ _ => b.stack.contains id

/-- Opens an element again for each entry, and puts it in the entry's place. -/
def reopen (b : Builder) : (oldestFirst : List Formatting) → Builder
  | [] => b
  | .marker :: rest => b.reopen rest
  | .element _ name attributes :: rest =>
    let b := b.openElement name attributes
    { b with formatting := .element b.current name attributes :: b.formatting }.reopen rest

/-- Opens again the formatting elements that have been closed by the end of another element. -/
def reopenFormatting (b : Builder) : Builder :=
  let (closed, settled) := b.formatting.span fun e => !b.isSettled e
  { b with formatting := settled }.reopen closed.reverse

/-- Keeps at most two entries for tags like the given one after the last marker. -/
def limitLike (b : Builder) (name : String) (attributes : List (String × String)) : Builder :=
  let recent := b.recentFormatting
  if 3 ≤ recent.countP (·.isLike name attributes) then
    { b with formatting := Formatting.dropLast (·.isLike name attributes) recent ++
        b.formatting.drop recent.length }
  else b

/-- Opens a formatting element. -/
def openFormatting (b : Builder) (name : String) (attributes : List (String × String)) : Builder :=
  let b := (b.limitLike name attributes).openElement name attributes
  { b with formatting := .element b.current name attributes :: b.formatting }

/-! ## Where the reader stands -/

/-- The mode for a selection list with the given elements around it. -/
def selectMode (b : Builder) : (outside : List Nat) → Mode
  | [] => .select
  | id :: rest =>
    if (b.name id).isHtml "template" then .select
    else if (b.name id).isHtml "table" then .selectInTable
    else b.selectMode rest

/-- The mode that the open elements call for. The outermost one is the root. -/
def modeWithin (b : Builder) : (stack : List Nat) → Mode
  | [] => .body
  | [_] => .body
  | id :: rest =>
    let name := b.name id
    if name.isHtml "select" then b.selectMode rest
    else if name.isHtmlOf ["td", "th"] then .cell
    else if name.isHtml "tr" then .row
    else if name.isHtmlOf ["tbody", "thead", "tfoot"] then .tableBody
    else if name.isHtml "caption" then .caption
    else if name.isHtml "colgroup" then .columnGroup
    else if name.isHtml "table" then .table
    else if name.isHtml "template" then b.templateModes.headD .template
    else if name.isHtml "body" then .body
    else b.modeWithin rest

/-- Takes the mode that the open elements call for. -/
def resetMode (b : Builder) : Builder := { b with mode := b.modeWithin b.stack }

end Builder

end CustomElements.Markup
