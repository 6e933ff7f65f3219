import CustomElements.Markup.Printer
import CustomElements.Markup.Reader.Parser

/-!
# Markup that is read back as it was written

A reader of markup does not take every tag as it stands. A start tag may close other elements first
or be read over, an end tag may close more than one element, text may be moved, and a reference in a
value may stand for another character than the one written. `Rereads` says of a forest that none of
this happens to its markup.

What a tag does depends on where it stands: on the names of the open elements, on the formatting
elements among them, and on whether a form is open. These are the `Surroundings`. For each node
there is one question:

- `takesText`: text becomes one node, with the characters that were printed;
- `addsOnly`: the start tag adds an element without content and changes nothing else;
- `textReading?`: the start tag opens an element that holds text only, and the text is found again;
- `opens`: the start tag opens the element and closes nothing, so that the children are read inside
  it and its end tag leads back to where it was opened.
-/

namespace CustomElements.Markup

open Builder (TagAttributes)

/-! ## What tags say when they are read again -/

/-- A name as it is read. -/
def readName (name : String) : String := String.ofList (name.toList.map nameChar)

/-- The attributes as they are read from a printed tag. -/
def readAttributes (attributes : Attributes) : TagAttributes :=
  attributes.entries.map fun a => (readName a.1, a.2)

/-- The name is read up to its end. -/
def rereadsName (name : String) : Bool :=
  match name.toList with
  | [] => false
  | c :: cs => c.isAlpha && cs.all fun c => !(isTagSpace c || c == '/' || c == '>')

/-- The name of an attribute is read up to its end. -/
def rereadsAttributeName (name : String) : Bool :=
  match name.toList with
  | [] => false
  | c :: cs => !(isTagSpace c || c == '/' || c == '>') &&
      cs.all fun c => !(isTagSpace c || c == '/' || c == '>' || c == '=')

/-- The printed value holds no reference but the ones that escape its quotes. -/
def rereadsValue (value : String) : Bool :=
  let printed := (escapeAttribute value).toList
  decodeReferences true (printed.length + 1) printed == value.toList

/-- The attributes as they stand in the tree. -/
def adjusted (language : Language) (attributes : TagAttributes) : TagAttributes :=
  if language = .html then attributes else Builder.adjustedAttributes language attributes

/-- The start tag of an element in the language is read as the tag. -/
def rereadsTag (language : Language) (tag : Tag) : Bool :=
  tag == { Tag.ofName tag.name with attributes := tag.attributes } &&
  adjustedName language (readName tag.name) == tag.name &&
  rereadsName tag.name &&
  (tag.attributes.entries.all fun a => rereadsAttributeName a.1 && rereadsValue a.2) &&
  decide ((readAttributes tag.attributes).map Prod.fst).Nodup &&
  Fields.ofList (adjusted language (readAttributes tag.attributes)) == tag.attributes

/-- The first of the nodes is text. -/
def startsWithText : List Node → Bool
  | .text _ :: _ => true
  | _ => false

/-- The nodes begin with a line feed. -/
def startsWithNewline : List Node → Bool
  | .text s :: _ => s.toList.head? == some '\n'
  | _ => false

/-- The characters that are printed for a text. -/
def printedText (raw : Bool) (s : String) : List Char :=
  if raw then s.toList else s.toList.flatMap escapeTextChar

/-- The contents of an element for text only are read, up to the end tag, as they are. -/
def rereadsContents (reading : Reading) (name : String) : List Node → Bool
  | [] => true
  | [.text s] =>
    let closing := (renderCloseTag name).toList
    let printed := printedText (rawTextNames.contains name) s
    match nextToken? reading false (printed ++ closing) with
    | some (.text cs, rest) => cs == s.toList && rest == closing && !printed.isEmpty
    | _ => false
  | _ => false

/-! ## Where a reader stands -/

/-- Where a reader stands, as far as its rules look at it. -/
structure Surroundings where
  /-- The names of the open elements, innermost first. The last one is that of the root. -/
  names : List ElementName
  /-- What is said of the formatting elements, latest first. `none` is a marker. -/
  formatting : List (Option (String × TagAttributes))
  /-- A form is open. -/
  form : Bool

/-- The mode for a selection list with elements of the names around it. -/
def selectModeOf : (outside : List ElementName) → Mode
  | [] => .select
  | n :: rest =>
    if n.isHtml "template" then .select
    else if n.isHtml "table" then .selectInTable
    else selectModeOf rest

/-- The mode that open elements of the names call for. -/
def modeOf : (names : List ElementName) → Mode
  | [] => .body
  | [_] => .body
  | n :: rest =>
    if n.isHtml "select" then selectModeOf rest
    else if n.isHtmlOf ["td", "th"] then .cell
    else if n.isHtml "tr" then .row
    else if n.isHtmlOf ["tbody", "thead", "tfoot"] then .tableBody
    else if n.isHtml "caption" then .caption
    else if n.isHtml "colgroup" then .columnGroup
    else if n.isHtml "table" then .table
    else if n.isHtml "template" then .template
    else if n.isHtml "body" then .body
    else modeOf rest

/-- The names of the elements that set a marker among the formatting elements. -/
def markerNames : List String := ["applet", "caption", "marquee", "object", "td", "th"]

/-- What an open element adds to the formatting elements. -/
def notedAs (n : ElementName) (attributes : TagAttributes) :
    List (Option (String × TagAttributes)) :=
  if n.isHtmlOf markerNames then [none]
  else if n.isHtmlOf ("a" :: "nobr" :: Builder.formattingNames) then [some (n.name, attributes)]
  else []

/-- The element that a start tag of the name begins where markup proper is read. -/
def flowElement (name : String) : ElementName :=
  if name = "svg" then ⟨.svg, name⟩
  else if name = "math" then ⟨.mathml, name⟩
  else .html name

namespace Surroundings

/-- Where reading begins. -/
def root : Surroundings := ⟨[.html "html"], [], false⟩

/-- The name of the innermost open element. -/
def current (s : Surroundings) : ElementName := s.names.headD (.html "")

/-- The mode that the open elements call for. -/
def mode (s : Surroundings) : Mode := modeOf s.names

/-- An element that satisfies the test is open within the boundary. -/
def inScope (s : Surroundings) (bounds p : ElementName → Bool) : Bool :=
  match s.names.find? fun n => p n || bounds n with
  | some n => p n
  | none => false

/-- A paragraph is open that a block would close. -/
def inParagraph (s : Surroundings) : Bool :=
  s.inScope ElementName.boundsButtonScope (·.isHtml "p")

/-- An item is open that the next item would close. -/
def inItem (s : Surroundings) (names : List String) : Bool :=
  match s.names.find? fun n =>
      n.isHtmlOf names || (n.endsSearch && !n.isHtmlOf ["address", "div", "p"]) with
  | some n => n.isHtmlOf names
  | none => false

/-- An annotation is open whose parts may be left without end tags. -/
def inRuby (s : Surroundings) : Bool := s.inScope ElementName.boundsScope (·.isHtml "ruby")

/-- The formatting elements after the last marker. -/
def recent (s : Surroundings) : List (Option (String × TagAttributes)) :=
  s.formatting.takeWhile Option.isSome

/-- The number of formatting elements after the last marker whose tags say the same. -/
def countLike (s : Surroundings) (name : String) (attributes : TagAttributes) : Nat :=
  s.recent.countP fun e => e.any fun e =>
    e.1 == name && Formatting.sameAttributes e.2 attributes

/-- The start tag is read by the rules for embedded content. -/
def readsForeign (s : Surroundings) (name : String) : Bool :=
  let n := s.current
  n.language != .html && !(n.isMarkupPoint ||
    (n.isTextPoint && !(["mglyph", "malignmark"].contains name)) ||
    (n == ⟨.mathml, "annotation-xml"⟩ && name == "svg"))

/-- Text is read by the rules for embedded content. -/
def readsTextForeign (s : Surroundings) : Bool :=
  s.current.language != .html && !(s.current.isTextPoint || s.current.isMarkupPoint)

/-- The element that a start tag of the name begins. -/
def element (s : Surroundings) (name : String) : ElementName :=
  if s.readsForeign (readName name) then ⟨s.current.language, name⟩ else flowElement name

/-- Where a reader stands inside an element. -/
def inside (s : Surroundings) (n : ElementName) (attributes : TagAttributes) : Surroundings :=
  ⟨n :: s.names, notedAs n attributes ++ s.formatting, s.form || n.isHtml "form"⟩

/-- Markup proper is read, with the rules of a body. -/
def flows (s : Surroundings) : Bool := [Mode.body, .cell, .caption].contains s.mode

/-! ## The four questions -/

/-- Text is read as one node. -/
def takesText (s : Surroundings) (text : String) : Bool :=
  let cs := text.toList
  !cs.isEmpty && !cs.contains '\x00' &&
  !(rawTextNames.contains s.current.name && (cs.contains '<' || cs.contains '&')) &&
  if s.readsTextForeign then true
  else match s.mode with
    | .body | .cell | .caption | .select | .selectInTable => true
    | .table | .tableBody | .row => s.current.isTablePart && cs.all Builder.isBetweenTags
    | .columnGroup => cs.all Builder.isBetweenTags
    | _ => false

/-- The names of elements without content. -/
def leafNames : List String :=
  ["area", "base", "basefont", "bgsound", "br", "embed", "img", "input", "keygen", "link", "meta",
    "param", "source", "track", "wbr"]

/-- The start tag adds the element, which has no content, and changes nothing else. -/
def addsOnly (s : Surroundings) (n : ElementName) (attributes : TagAttributes) : Bool :=
  if n.language != .html then false
  else match s.mode with
    | .body | .cell | .caption =>
      leafNames.contains n.name || (n.name == "hr" && !s.inParagraph)
    | .table | .tableBody | .row => n.name == "input" && Builder.isHiddenField attributes
    | .columnGroup => n.name == "col"
    | .select | .selectInTable => n.name == "hr" && !s.current.isHtmlOf ["optgroup", "option"]
    | _ => false

/-- How the contents of an element for text only are read, in a body. -/
def flowReading? (s : Surroundings) (name : String) : Option Reading :=
  if name = "script" then some .script
  else if name = "title" ∨ name = "textarea" then some (.escapable name)
  else if ["iframe", "noembed", "noframes", "noscript", "style"].contains name then
    some (.raw name)
  else if name = "xmp" ∧ s.inParagraph = false then some (.raw name)
  else none

/-- How the contents of an element for text only are read. -/
def textReading? (s : Surroundings) (n : ElementName) : Option Reading :=
  if n.language != .html then none
  else match s.mode with
    | .body | .cell | .caption => s.flowReading? n.name
    | .table | .tableBody | .row =>
      if n.name = "script" then some .script
      else if n.name = "style" then some (.raw n.name)
      else none
    | .select | .selectInTable => if n.name = "script" then some .script else none
    | _ => none

/-- The names of start tags that do not open an element with children in a body. -/
def closedNames : List String :=
  leafNames ++ Builder.strayNames ++ ["hr", "image", "plaintext", "iframe", "noembed", "noframes",
    "noscript", "script", "style", "template", "textarea", "title", "xmp"]

/-- The start tag opens the element and changes nothing else, in a body. -/
def opensInFlow (s : Surroundings) (name : String) (attributes : TagAttributes) : Bool :=
  if name = "a" then s.recent.all fun e => e.all fun e => e.1 != "a"
  else if name = "nobr" then
    !s.inScope ElementName.boundsScope (·.isHtml "nobr") && s.countLike name attributes < 3
  else if Builder.formattingNames.contains name then s.countLike name attributes < 3
  else if Builder.blockNames.contains name || ["p", "pre", "listing", "table"].contains name then
    !s.inParagraph
  else if ElementName.headings.contains name then
    !s.inParagraph && !s.current.isHtmlOf ElementName.headings
  else if name = "form" then !s.form && !s.inParagraph
  else if name = "li" then !s.inItem ["li"] && !s.inParagraph
  else if name = "dd" || name = "dt" then !s.inItem ["dd", "dt"] && !s.inParagraph
  else if name = "button" then !s.inScope ElementName.boundsScope (·.isHtml "button")
  else if name = "select" then (s.mode != .body) == s.names.any (·.isHtml "table")
  else if name = "optgroup" || name = "option" then !s.current.isHtml "option"
  else if name = "rb" || name = "rtc" then !s.inRuby || !s.current.endsByItself
  else if name = "rp" || name = "rt" then
    !s.inRuby || !s.current.endsByItself || s.current.isHtml "rtc"
  else !closedNames.contains name

/-- The start tag opens the element and changes nothing else. -/
def opens (s : Surroundings) (n : ElementName) (attributes : TagAttributes) : Bool :=
  let name := readName n.name
  if s.readsForeign name then !Builder.breaksOut name attributes
  else match s.mode with
    | .body | .cell | .caption => s.opensInFlow name attributes
    | .table => s.current.isHtml "table" &&
        ["caption", "colgroup", "tbody", "tfoot", "thead"].contains name
    | .tableBody => s.current.isHtmlOf ["tbody", "tfoot", "thead"] && name == "tr"
    | .row => s.current.isHtml "tr" && ["td", "th"].contains name
    | .select | .selectInTable =>
      (name == "option" && !s.current.isHtml "option") ||
        (name == "optgroup" && !s.current.isHtmlOf ["optgroup", "option"])
    | _ => false

end Surroundings

/-! ## Forests that are read back -/

mutual

/-- The markup of the node is read as the node. -/
def rereadsNode (s : Surroundings) : Node → Bool
  | .text text => s.takesText text
  | .element tag children =>
    let n := s.element tag.name
    let attributes := readAttributes tag.attributes
    rereadsTag n.language tag &&
      if tag.selfClosing then s.addsOnly n attributes && children.isEmpty
      else if n.isHtml "template" then children.isEmpty
      else match s.textReading? n with
        | some reading => rereadsContents reading tag.name children &&
            !(tag.name == "textarea" && startsWithNewline children)
        | none => s.opens n attributes && rereadsForest (s.inside n attributes) children &&
            !(n.isHtmlOf ["pre", "listing"] && startsWithNewline children)
  | _ => false

/-- The markup of the nodes is read as the nodes. -/
def rereadsForest (s : Surroundings) : List Node → Bool
  | [] => true
  | n :: rest => rereadsNode s n && !(startsWithText [n] && startsWithText rest) &&
      rereadsForest s rest

end

/--
The markup of the forest is read as the forest. Line ends and a mark of the byte order are not
looked at by the rules but replaced before, in the markup as a whole.
-/
def Rereads (ns : List Node) : Prop :=
  rereadsForest .root ns = true ∧ '\r' ∉ (Node.forestToHtml ns).toList ∧
    (Node.forestToHtml ns).toList.head? ≠ some '\ufeff'

instance (ns : List Node) : Decidable (Rereads ns) := inferInstanceAs (Decidable (_ ∧ _))

end CustomElements.Markup
