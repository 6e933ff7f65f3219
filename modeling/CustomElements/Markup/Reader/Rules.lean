import CustomElements.Markup.Reader.Adoption

/-!
# The rules of the modes

Each mode says what a token does: which elements it closes, whether it opens one, and what becomes
of a tag that has no business where it stands. A rule may leave the token to the rules of another
mode, which is then the mode to go on with.

The standard describes more modes than there are here: those for the head and the frame of a
document, which a fragment has none of. Their tags are read over.
-/

namespace CustomElements.Markup.Builder

/-- The attributes of a tag. -/
abbrev TagAttributes := List (String × String)

/-- What a rule leaves: the state, and whether the token is to be looked at again in its mode. -/
structure Applied where
  builder : Builder
  again : Bool

/-- The token has been dealt with. -/
def done (b : Builder) : Applied := ⟨b, false⟩

/-- The token is for another mode to deal with. -/
def retryIn (b : Builder) (mode : Mode) : Applied := ⟨{ b with mode := mode }, true⟩

/-- The token is for the mode that the open elements call for. -/
def retryReset (b : Builder) : Applied := ⟨b.resetMode, true⟩

/-! ## Embedded languages -/

/-- The attributes with their names in the tree. -/
def adjustedAttributes (language : Language) (attributes : TagAttributes) : TagAttributes :=
  attributes.map fun a => (adjustedAttribute language a.1, a.2)

/-- Puts a new element of an embedded language in its place and opens it if it has content. -/
def openForeign (b : Builder) (language : Language) (name : String) (attributes : TagAttributes)
    (selfClosing : Bool) : Builder :=
  let (id, b) := b.insertElement ⟨language, name⟩ (adjustedAttributes language attributes)
  if selfClosing then b else { b with stack := id :: b.stack }

/-! ## Templates -/

/-- The start of a template, whose contents have formatting and a mode of their own. -/
def startTemplate (b : Builder) (attributes : TagAttributes) : Builder :=
  { (b.openElement "template" attributes).mark with
    mode := .template, templateModes := .template :: b.templateModes }

/-- The end of a template. -/
def endTemplate (b : Builder) : Builder :=
  if b.isOpen "template" then
    let b := { b with stack := b.stack.dropWhile fun id => (b.name id).endsInTemplate }
    let b := (b.popNamed "template").clearToMarker
    { b with templateModes := b.templateModes.tail }.resetMode
  else b

/-- Tags that are read the same way everywhere: for documents about themselves, and for scripts. -/
def headNames : List String :=
  ["base", "basefont", "bgsound", "link", "meta", "noframes", "script", "style", "template",
    "title"]

/-- The start of an element of the kind that may stand in a head. -/
def startHead (b : Builder) (name : String) (attributes : TagAttributes) : Builder :=
  if name = "template" then b.startTemplate attributes
  else if name = "title" then b.openText name attributes (.escapable name)
  else if name = "script" then b.openText name attributes .script
  else if name = "style" ∨ name = "noframes" then b.openText name attributes (.raw name)
  else b.addElement name attributes

/-! ## The body -/

/-- A character of text. Zero characters are left out. -/
def bodyChar (b : Builder) (c : Char) : Builder :=
  if c == '\x00' then b else b.reopenFormatting.putText [c]

/-- The names of blocks of text. -/
def blockNames : List String :=
  ["address", "article", "aside", "blockquote", "center", "details", "dialog", "dir", "div", "dl",
    "fieldset", "figcaption", "figure", "footer", "header", "hgroup", "main", "menu", "nav", "ol",
    "search", "section", "summary", "ul"]

/-- The names of formatting elements other than `a` and `nobr`. -/
def formattingNames : List String :=
  ["b", "big", "code", "em", "font", "i", "s", "small", "strike", "strong", "tt", "u"]

/-- The names of elements with formatting of their own inside. -/
def objectNames : List String := ["applet", "marquee", "object"]

/-- The names of tags that mean nothing in a body. -/
def strayNames : List String :=
  ["body", "caption", "col", "colgroup", "frame", "frameset", "head", "html", "tbody", "td",
    "tfoot", "th", "thead", "tr"]

/-- An item of a list closes the one before it, unless a block is open in between. -/
def endItem (b : Builder) (names : List String) : Builder :=
  match b.stack.find? fun id => (b.name id).isHtmlOf names ||
      ((b.name id).endsSearch && !(b.name id).isHtmlOf ["address", "div", "p"]) with
  | some id =>
    if (b.name id).isHtmlOf names then
      let name := (b.name id).name
      (b.closeImplied name).popNamed name
    else b
  | none => b

/-- The start of a form. There is no form in a form. -/
def startForm (b : Builder) (attributes : TagAttributes) : Builder :=
  let inTemplate := b.isOpen "template"
  if b.form.isSome && !inTemplate then b
  else
    let b := b.endParagraph.openElement "form" attributes
    if inTemplate then b else { b with form := some b.current }

/-- The end of a form. What is open inside it stays open. -/
def endForm (b : Builder) : Builder :=
  if b.isOpen "template" then
    if b.inScope ElementName.boundsScope "form" then b.closeAllImplied.popNamed "form" else b
  else match b.form with
    | none => b
    | some id =>
      let b := { b with form := none }
      if b.inScopeWhere ElementName.boundsScope (· == id) then
        let b := b.closeAllImplied
        { b with stack := b.stack.filter (· != id) }
      else b

/-- The start of a selection list. -/
def startSelect (b : Builder) (attributes : TagAttributes) : Builder :=
  let inTable := [Mode.table, .caption, .tableBody, .row, .cell].contains b.mode
  { b.reopenFormatting.openElement "select" attributes with
    mode := if inTable then .selectInTable else .select }

/-- The start of an element whose name has no rule of its own. -/
def startOther (b : Builder) (name : String) (attributes : TagAttributes) : Builder :=
  b.reopenFormatting.openElement name attributes

/-- The start of an element that is text or ends at once. -/
def startLeaf? (b : Builder) (name : String) (attributes : TagAttributes) : Option Builder :=
  if headNames.contains name then some (b.startHead name attributes)
  else if ["area", "br", "embed", "img", "input", "keygen", "wbr"].contains name then
    some (b.reopenFormatting.addElement name attributes)
  else if ["param", "source", "track"].contains name then some (b.addElement name attributes)
  else if name = "hr" then some (b.endParagraph.addElement name attributes)
  else if name = "image" then some (b.reopenFormatting.addElement "img" attributes)
  else if name = "textarea" then
    some { b.openText name attributes (.escapable name) with skipNewline := true }
  else if name = "xmp" then
    some (b.endParagraph.reopenFormatting.openText name attributes (.raw name))
  else if ["iframe", "noembed", "noscript"].contains name then
    some (b.openText name attributes (.raw name))
  else none

/-- The start of a formatting element. -/
def startFormatting? (b : Builder) (name : String) (attributes : TagAttributes) :
    Option Builder :=
  if name = "a" then some (b.endLink.reopenFormatting.openFormatting name attributes)
  else if name = "nobr" then
    let b := b.reopenFormatting
    let b := if b.inScope ElementName.boundsScope "nobr" then
      (b.endFormatting "nobr").reopenFormatting else b
    some (b.openFormatting name attributes)
  else if formattingNames.contains name then
    some (b.reopenFormatting.openFormatting name attributes)
  else none

/-- A start tag in a body. -/
def bodyStart (b : Builder) (name : String) (attributes : TagAttributes) (selfClosing : Bool) :
    Builder :=
  match (b.startLeaf? name attributes).or (b.startFormatting? name attributes) with
  | some b => b
  | none =>
    if blockNames.contains name || name = "p" then b.endParagraph.openElement name attributes
    else if ElementName.headings.contains name then
      let b := b.endParagraph
      (if b.currentName.isHtmlOf ElementName.headings then b.pop else b).openElement name attributes
    else if name = "pre" || name = "listing" then
      { b.endParagraph.openElement name attributes with skipNewline := true }
    else if name = "form" then b.startForm attributes
    else if name = "li" then (b.endItem ["li"]).endParagraph.openElement name attributes
    else if name = "dd" || name = "dt" then
      (b.endItem ["dd", "dt"]).endParagraph.openElement name attributes
    else if name = "plaintext" then
      { b.endParagraph.openElement name attributes with reading := .plain }
    else if name = "button" then
      (if b.inScope ElementName.boundsScope name then b.closeAllImplied.popNamed name
        else b).startOther name attributes
    else if objectNames.contains name then (b.startOther name attributes).mark
    else if name = "table" then { b.endParagraph.openElement name attributes with mode := .table }
    else if name = "select" then b.startSelect attributes
    else if name = "optgroup" || name = "option" then
      (b.popIf "option").startOther name attributes
    else if name = "rb" || name = "rtc" then
      (if b.inScope ElementName.boundsScope "ruby" then b.closeAllImplied
        else b).openElement name attributes
    else if name = "rp" || name = "rt" then
      (if b.inScope ElementName.boundsScope "ruby" then b.closeImplied "rtc"
        else b).openElement name attributes
    else if name = "math" then b.reopenFormatting.openForeign .mathml name attributes selfClosing
    else if name = "svg" then b.reopenFormatting.openForeign .svg name attributes selfClosing
    else if strayNames.contains name then b
    else b.startOther name attributes

/-- The end of an element that holds blocks, with what is left open in it. -/
def endBlock (b : Builder) (name : String) : Builder :=
  if b.inScope ElementName.boundsScope name then b.closeAllImplied.popNamed name else b

/-- The end of an item. -/
def endItemTag (b : Builder) (bounds : ElementName → Bool) (name : String) : Builder :=
  if b.inScope bounds name then (b.closeImplied name).popNamed name else b

/-- The end of a paragraph. If none is open, an empty one is added. -/
def endParagraphTag (b : Builder) : Builder :=
  if b.inScope ElementName.boundsButtonScope "p" then b.closeParagraph
  else (b.openElement "p" []).closeParagraph

/-- The end of a heading, of whichever level is open. -/
def endHeading (b : Builder) : Builder :=
  if b.inScopeWhere ElementName.boundsScope fun id =>
      (b.name id).isHtmlOf ElementName.headings then
    b.closeAllImplied.popThrough (·.isHtmlOf ElementName.headings)
  else b

/-- An end tag in a body. -/
def bodyEnd (b : Builder) (name : String) : Builder :=
  if name = "template" then b.endTemplate
  else if name = "body" || name = "html" then b
  else if blockNames.contains name || ["button", "listing", "pre"].contains name then
    b.endBlock name
  else if name = "form" then b.endForm
  else if name = "p" then b.endParagraphTag
  else if name = "li" then b.endItemTag ElementName.boundsListScope name
  else if name = "dd" || name = "dt" then b.endItemTag ElementName.boundsScope name
  else if ElementName.headings.contains name then b.endHeading
  else if formattingNames.contains name || name = "a" || name = "nobr" then b.endFormatting name
  else if objectNames.contains name then
    if b.inScope ElementName.boundsScope name then (b.endBlock name).clearToMarker else b
  else if name = "br" then b.reopenFormatting.addElement name []
  else b.endGeneric name

/-- A token in a body. -/
def inBody (b : Builder) : Token → Builder
  | .startTag name attributes selfClosing => b.bodyStart name attributes selfClosing
  | .endTag name => b.bodyEnd name
  | .text cs => cs.foldl bodyChar b
  | .comment => b.putComment
  | .ignored => b

/-- A token in a body, when what may not stand in a table goes in front of it. -/
def fostered (b : Builder) (t : Token) : Builder :=
  { ({ b with fostering := true }.inBody t) with fostering := false }

/-! ## Text -/

/-- A token in an element that holds text only. -/
def inText (b : Builder) : Token → Builder
  | .text cs => b.putText cs
  | .endTag _ => { b.pop with mode := b.returnMode, reading := .markup }
  | _ => b

/-- White space between tags. -/
def isBetweenTags (c : Char) : Bool := isTagSpace c || c == '\r'

/-! ## Tables -/

/-- The end of a cell, whichever kind is open. -/
def endCell (b : Builder) : Builder :=
  (b.closeAllImplied.popThrough (·.isHtmlOf ["td", "th"])).clearToMarker

/-- The field says that it is not shown. -/
def isHiddenField (attributes : TagAttributes) : Bool :=
  match attributes.lookup "type" with
  | some type => Text.eqIgnoreAsciiCase type "hidden"
  | none => false

/-- A start tag in a table. -/
def tableStart (b : Builder) (name : String) (attributes : TagAttributes) (t : Token) : Applied :=
  let b' := b.popWhileNot ElementName.boundsTableScope
  if name = "caption" then done { b'.mark.openElement name attributes with mode := .caption }
  else if name = "colgroup" then done { b'.openElement name attributes with mode := .columnGroup }
  else if name = "col" then retryIn (b'.openElement "colgroup" []) .columnGroup
  else if ["tbody", "tfoot", "thead"].contains name then
    done { b'.openElement name attributes with mode := .tableBody }
  else if ["td", "th", "tr"].contains name then retryIn (b'.openElement "tbody" []) .tableBody
  else if name = "table" then
    if b.inScope ElementName.boundsTableScope name then retryReset (b.popNamed name) else done b
  else if ["style", "script", "template"].contains name then done (b.startHead name attributes)
  else if name = "input" && isHiddenField attributes then done (b.addElement name attributes)
  else if name = "form" then
    if b.form.isSome || b.isOpen "template" then done b
    else
      let (id, b) := b.insertElement (.html name) attributes
      done { b with form := some id }
  else done (b.fostered t)

/-- An end tag in a table. -/
def tableEnd (b : Builder) (name : String) (t : Token) : Applied :=
  if name = "table" then
    done (if b.inScope ElementName.boundsTableScope name then (b.popNamed name).resetMode else b)
  else if ["body", "caption", "col", "colgroup", "html", "tbody", "td", "tfoot", "th", "thead",
    "tr"].contains name then done b
  else if name = "template" then done b.endTemplate
  else done (b.fostered t)

/-- A token in a table. -/
def inTable (b : Builder) (t : Token) : Applied :=
  match t with
  | .text _ =>
    if b.currentName.isTablePart then retryIn { b with returnMode := b.mode } .tableText
    else done (b.fostered t)
  | .startTag name attributes _ => b.tableStart name attributes t
  | .endTag name => b.tableEnd name t
  | .comment => done b.putComment
  | .ignored => done b

/-- Puts the text that was found directly in a table: in front of it, unless it is white space. -/
def flushTableText (b : Builder) : Builder :=
  let cs := b.tableText.reverse
  let b := { b with tableText := [], mode := b.returnMode }
  if cs.all isBetweenTags then b.putText cs else b.fostered (.text cs)

/-- A token in text directly in a table. -/
def inTableText (b : Builder) : Token → Applied
  | .text cs => done { b with tableText := (cs.filter (· != '\x00')).reverse ++ b.tableText }
  | _ => ⟨b.flushTableText, true⟩

/-- The names of tags that begin a part of a table. -/
def tablePartNames : List String :=
  ["caption", "col", "colgroup", "tbody", "td", "tfoot", "th", "thead", "tr"]

/-- A token in a caption. -/
def inCaption (b : Builder) (t : Token) : Applied :=
  let close (retry : Bool) : Applied :=
    if b.inScope ElementName.boundsTableScope "caption" then
      ⟨{ (b.closeAllImplied.popNamed "caption").clearToMarker with mode := .table }, retry⟩
    else done b
  match t with
  | .startTag name .. => if tablePartNames.contains name then close true else done (b.inBody t)
  | .endTag name =>
    if name = "caption" then close false
    else if name = "table" then close true
    else if ["body", "col", "colgroup", "html", "tbody", "td", "tfoot", "th", "thead",
      "tr"].contains name then done b
    else done (b.inBody t)
  | t => done (b.inBody t)

/-- A token in a group of columns. -/
def inColumnGroup (b : Builder) (t : Token) : Applied :=
  let leave : Applied := if b.currentIs "colgroup" then retryIn b.pop .table else done b
  match t with
  | .text cs => if cs.all isBetweenTags then done (b.putText cs) else leave
  | .comment => done b.putComment
  | .startTag name attributes _ =>
    if name = "col" then done (b.addElement name attributes)
    else if name = "template" then done (b.startTemplate attributes)
    else if name = "html" then done b
    else leave
  | .endTag name =>
    if name = "colgroup" then
      done (if b.currentIs name then { b.pop with mode := .table } else b)
    else if name = "col" then done b
    else if name = "template" then done b.endTemplate
    else leave
  | .ignored => done b

/-- The rows of a table stand directly in these. -/
def boundsRows (n : ElementName) : Bool :=
  n.isHtmlOf ["tbody", "tfoot", "thead", "template", "html"]

/-- The cells of a table stand directly in these. -/
def boundsCells (n : ElementName) : Bool := n.isHtmlOf ["tr", "template", "html"]

/-- A token in a body of a table. -/
def inTableBody (b : Builder) (t : Token) : Applied :=
  let b' := b.popWhileNot boundsRows
  let leave : Applied :=
    if b.inScopeWhere ElementName.boundsTableScope fun id =>
        (b.name id).isHtmlOf ["table", "tbody", "tfoot"] then retryIn b'.pop .table
    else done b
  match t with
  | .startTag name attributes _ =>
    if name = "tr" then done { b'.openElement name attributes with mode := .row }
    else if name = "td" || name = "th" then retryIn (b'.openElement "tr" []) .row
    else if tablePartNames.contains name then leave
    else b.inTable t
  | .endTag name =>
    if ["tbody", "tfoot", "thead"].contains name then
      done (if b.inScope ElementName.boundsTableScope name then { b'.pop with mode := .table }
        else b)
    else if name = "table" then leave
    else if ["body", "caption", "col", "colgroup", "html", "td", "th", "tr"].contains name then
      done b
    else b.inTable t
  | t => b.inTable t

/-- A token in a row. -/
def inRow (b : Builder) (t : Token) : Applied :=
  let b' := b.popWhileNot boundsCells
  let inRowScope := b.inScope ElementName.boundsTableScope "tr"
  let leave : Applied := if inRowScope then retryIn b'.pop .tableBody else done b
  match t with
  | .startTag name attributes _ =>
    if name = "td" || name = "th" then
      done { (b'.openElement name attributes).mark with mode := .cell }
    else if tablePartNames.contains name then leave
    else b.inTable t
  | .endTag name =>
    if name = "tr" then done (if inRowScope then { b'.pop with mode := .tableBody } else b)
    else if name = "table" then leave
    else if ["tbody", "tfoot", "thead"].contains name then
      if b.inScope ElementName.boundsTableScope name then leave else done b
    else if ["body", "caption", "col", "colgroup", "html", "td", "th"].contains name then done b
    else b.inTable t
  | t => b.inTable t

/-- A token in a cell. -/
def inCell (b : Builder) (t : Token) : Applied :=
  match t with
  | .startTag name .. =>
    if tablePartNames.contains name then
      if b.inScopeWhere ElementName.boundsTableScope fun id =>
          (b.name id).isHtmlOf ["td", "th"] then retryIn b.endCell .row
      else done b
    else done (b.inBody t)
  | .endTag name =>
    if name = "td" || name = "th" then
      if b.inScope ElementName.boundsTableScope name then
        done { (b.closeAllImplied.popNamed name).clearToMarker with mode := .row }
      else done b
    else if ["table", "tbody", "tfoot", "thead", "tr"].contains name then
      if b.inScope ElementName.boundsTableScope name then retryIn b.endCell .row else done b
    else if ["body", "caption", "col", "colgroup", "html"].contains name then done b
    else done (b.inBody t)
  | t => done (b.inBody t)

/-! ## Selection lists -/

/-- A token in a selection list. -/
def inSelect (b : Builder) (t : Token) : Applied :=
  let inScope := b.inScope ElementName.boundsSelectScope "select"
  let leave : Builder := if inScope then (b.popNamed "select").resetMode else b
  match t with
  | .text cs => done (b.putText (cs.filter (· != '\x00')))
  | .comment => done b.putComment
  | .startTag name attributes _ =>
    if name = "option" then done ((b.popIf "option").openElement name attributes)
    else if name = "optgroup" then
      done (((b.popIf "option").popIf "optgroup").openElement name attributes)
    else if name = "hr" then
      done (((b.popIf "option").popIf "optgroup").addElement name attributes)
    else if name = "select" then done leave
    else if ["input", "keygen", "textarea"].contains name then ⟨leave, inScope⟩
    else if ["script", "template"].contains name then done (b.startHead name attributes)
    else done b
  | .endTag name =>
    if name = "optgroup" then
      let outer := (b.stack[1]?).map b.name
      let b := if b.currentIs "option" && outer == some (.html name) then b.pop else b
      done (b.popIf name)
    else if name = "option" then done (b.popIf name)
    else if name = "select" then done leave
    else if name = "template" then done b.endTemplate
    else done b
  | .ignored => done b

/-- The names of tags that end a selection list in a table. -/
def endsSelectNames : List String :=
  ["caption", "table", "tbody", "td", "tfoot", "th", "thead", "tr"]

/-- A token in a selection list in a table. -/
def inSelectInTable (b : Builder) (t : Token) : Applied :=
  match t with
  | .startTag name .. =>
    if endsSelectNames.contains name then retryReset (b.popNamed "select") else b.inSelect t
  | .endTag name =>
    if endsSelectNames.contains name then
      if b.inScope ElementName.boundsTableScope name then retryReset (b.popNamed "select")
      else done b
    else b.inSelect t
  | t => b.inSelect t

/-! ## In a template -/

/-- The mode that the first start tag in a template calls for. -/
def templateModeFor (name : String) : Mode :=
  if ["caption", "colgroup", "tbody", "tfoot", "thead"].contains name then .table
  else if name = "col" then .columnGroup
  else if name = "tr" then .tableBody
  else if name = "td" || name = "th" then .row
  else .body

/-- A token in a template. -/
def inTemplate (b : Builder) (t : Token) : Applied :=
  match t with
  | .startTag name attributes _ =>
    if headNames.contains name then done (b.startHead name attributes)
    else
      let mode := templateModeFor name
      retryIn { b with templateModes := mode :: b.templateModes.tail } mode
  | .endTag name => if name = "template" then done b.endTemplate else done b
  | t => done (b.inBody t)

/-! ## Embedded content -/

/-- The token is read by the rules for embedded content. -/
def isForeign (b : Builder) (t : Token) : Bool :=
  let n := b.currentName
  if n.language == .html then false
  else match t with
    | .text _ => !(n.isTextPoint || n.isMarkupPoint)
    | .startTag name .. =>
      !(n.isMarkupPoint || (n.isTextPoint && !(["mglyph", "malignmark"].contains name)) ||
        (n == ⟨.mathml, "annotation-xml"⟩ && name == "svg"))
    | _ => true

/-- The start tag cannot be part of embedded content. -/
def breaksOut (name : String) (attributes : TagAttributes) : Bool :=
  breakoutNames.contains name ||
    (name == "font" && attributes.any fun a => ["color", "face", "size"].contains a.1)

/-- The rules of the mode. -/
def inMode (b : Builder) (t : Token) : Applied :=
  match b.mode with
  | .body => done (b.inBody t)
  | .text => done (b.inText t)
  | .table => b.inTable t
  | .tableText => b.inTableText t
  | .caption => b.inCaption t
  | .columnGroup => b.inColumnGroup t
  | .tableBody => b.inTableBody t
  | .row => b.inRow t
  | .cell => b.inCell t
  | .select => b.inSelect t
  | .selectInTable => b.inSelectInTable t
  | .template => b.inTemplate t

/-- An end tag in embedded content, given the open elements that have not been looked at. -/
def foreignEnd (b : Builder) (name : String) (first : Bool) : List Nat → Applied
  | [] => done b
  | [_] => done b
  | id :: rest =>
    let n := b.name id
    if !first && n.language == .html then b.inMode (.endTag name)
    else if Text.eqIgnoreAsciiCase n.name name then done { b with stack := rest }
    else foreignEnd b name false rest

/-- Closes embedded content until markup proper can go on. -/
def leaveForeign (b : Builder) : Builder :=
  b.popWhileNot fun n => n.language == .html || n.isTextPoint || n.isMarkupPoint

/-- A token in embedded content. -/
def inForeign (b : Builder) (t : Token) : Applied :=
  match t with
  | .text cs => done (b.putText (withoutZeros cs))
  | .comment => done b.putComment
  | .startTag name attributes selfClosing =>
    if breaksOut name attributes then b.leaveForeign.inMode t
    else
      let language := b.currentName.language
      done (b.openForeign language (adjustedName language name) attributes selfClosing)
  | .endTag name =>
    if name = "br" || name = "p" then b.leaveForeign.inMode t
    else b.foreignEnd name true b.stack
  | .ignored => done b

end CustomElements.Markup.Builder
