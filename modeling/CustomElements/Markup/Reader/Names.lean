/-!
# Classes of element names

What an element does to the tree around it depends on its name and on the language that it belongs
to. The classes here are those of the HTML standard: elements that end a search of the open
elements, elements whose end tag may be left out, and so on.
-/

namespace CustomElements.Markup

/-- The language of an element. -/
inductive Language where
  | html
  | svg
  | mathml
  deriving DecidableEq, Repr

/-- An element's name in its language. -/
structure ElementName where
  language : Language
  name : String
  deriving DecidableEq, Repr

namespace ElementName

/-- An element of markup proper with the name. -/
def html (name : String) : ElementName := ⟨.html, name⟩

/-- The element is one of markup proper with one of the names. -/
def isHtmlOf (names : List String) (n : ElementName) : Bool :=
  n.language == .html && names.contains n.name

/-- The element is the one of markup proper with the name. -/
def isHtml (name : String) (n : ElementName) : Bool := n.language == .html && n.name == name

/-- Text inside is read as markup, in a formula. -/
def isTextPoint (n : ElementName) : Bool :=
  n.language == .mathml && ["mi", "mo", "mn", "ms", "mtext"].contains n.name

/-- Everything inside is read as markup, in a drawing. -/
def isMarkupPoint (n : ElementName) : Bool :=
  n.language == .svg && ["foreignObject", "desc", "title"].contains n.name

/-- Headings. -/
def headings : List String := ["h1", "h2", "h3", "h4", "h5", "h6"]

/-- Elements that a search for an element to close does not go past. -/
def endsSearch (n : ElementName) : Bool :=
  n.isHtmlOf ["address", "applet", "area", "article", "aside", "base", "basefont", "bgsound",
    "blockquote", "body", "br", "button", "caption", "center", "col", "colgroup", "dd", "details",
    "dir", "div", "dl", "dt", "embed", "fieldset", "figcaption", "figure", "footer", "form",
    "frame", "frameset", "h1", "h2", "h3", "h4", "h5", "h6", "head", "header", "hgroup", "hr",
    "html", "iframe", "img", "input", "isindex", "li", "link", "listing", "main", "marquee", "menu",
    "meta", "nav", "noembed", "noframes", "noscript", "object", "ol", "p", "param", "plaintext",
    "pre", "script", "section", "select", "source", "style", "summary", "table", "tbody", "td",
    "template", "textarea", "tfoot", "th", "thead", "title", "tr", "track", "ul", "wbr", "xmp"]

/-- Elements that most searches for an open element do not go past. -/
def boundsScope (n : ElementName) : Bool :=
  n.isHtmlOf ["applet", "caption", "html", "table", "td", "th", "marquee", "object", "template"] ||
    n.isTextPoint || n.isMarkupPoint

/-- Elements that a search for a list item does not go past. -/
def boundsListScope (n : ElementName) : Bool := n.boundsScope || n.isHtmlOf ["ol", "ul"]

/-- Elements that a search for a paragraph does not go past. -/
def boundsButtonScope (n : ElementName) : Bool := n.boundsScope || n.isHtml "button"

/-- Elements that a search for a part of a table does not go past. -/
def boundsTableScope (n : ElementName) : Bool := n.isHtmlOf ["html", "table", "template"]

/-- Elements that a search for a selection list does not go past. -/
def boundsSelectScope (n : ElementName) : Bool := !n.isHtmlOf ["optgroup", "option"]

/-- Elements whose end tags may be left out. -/
def endsByItself (n : ElementName) : Bool :=
  n.isHtmlOf ["dd", "dt", "li", "option", "optgroup", "p", "rb", "rp", "rt", "rtc"]

/-- Elements whose end tags may be left out, and parts of tables. -/
def endsInTemplate (n : ElementName) : Bool :=
  n.endsByItself ||
    n.isHtmlOf ["caption", "colgroup", "tbody", "td", "tfoot", "th", "thead", "tr"]

/-- Elements directly inside which only parts of a table may stand. -/
def isTablePart (n : ElementName) : Bool :=
  n.isHtmlOf ["table", "tbody", "tfoot", "thead", "tr"]

end ElementName

/-! ## Names in embedded languages -/

/-- Element names of drawings that have capitals. -/
def drawingNames : List String :=
  ["altGlyph", "altGlyphDef", "altGlyphItem", "animateColor", "animateMotion", "animateTransform",
    "clipPath", "feBlend", "feColorMatrix", "feComponentTransfer", "feComposite",
    "feConvolveMatrix", "feDiffuseLighting", "feDisplacementMap", "feDistantLight", "feDropShadow",
    "feFlood", "feFuncA", "feFuncB", "feFuncG", "feFuncR", "feGaussianBlur", "feImage", "feMerge",
    "feMergeNode", "feMorphology", "feOffset", "fePointLight", "feSpecularLighting", "feSpotLight",
    "feTile", "feTurbulence", "foreignObject", "glyphRef", "linearGradient", "radialGradient",
    "textPath"]

/-- Attribute names of drawings that have capitals. -/
def drawingAttributes : List String :=
  ["attributeName", "attributeType", "baseFrequency", "baseProfile", "calcMode", "clipPathUnits",
    "diffuseConstant", "edgeMode", "filterUnits", "glyphRef", "gradientTransform", "gradientUnits",
    "kernelMatrix", "kernelUnitLength", "keyPoints", "keySplines", "keyTimes", "lengthAdjust",
    "limitingConeAngle", "markerHeight", "markerUnits", "markerWidth", "maskContentUnits",
    "maskUnits", "numOctaves", "pathLength", "patternContentUnits", "patternTransform",
    "patternUnits", "pointsAtX", "pointsAtY", "pointsAtZ", "preserveAlpha", "preserveAspectRatio",
    "primitiveUnits", "refX", "refY", "repeatCount", "repeatDur", "requiredExtensions",
    "requiredFeatures", "specularConstant", "specularExponent", "spreadMethod", "startOffset",
    "stdDeviation", "stitchTiles", "surfaceScale", "systemLanguage", "tableValues", "targetX",
    "targetY", "textLength", "viewBox", "viewTarget", "xChannelSelector", "yChannelSelector",
    "zoomAndPan"]

/-- Attribute names of other vocabularies, with their names in the tree. -/
def foreignAttributes : List (String × String) :=
  [("xlink:actuate", "actuate"), ("xlink:arcrole", "arcrole"), ("xlink:href", "href"),
    ("xlink:role", "role"), ("xlink:show", "show"), ("xlink:title", "title"),
    ("xlink:type", "type"), ("xml:lang", "lang"), ("xml:space", "space"), ("xmlns", "xmlns"),
    ("xmlns:xlink", "xlink")]

/-- The name of a list that differs only in capitals, or else the name itself. -/
def withCapitals (names : List String) (name : String) : String :=
  (names.find? fun n => n.map Char.toLower == name).getD name

/-- An element's name in the tree. -/
def adjustedName (language : Language) (name : String) : String :=
  match language with
  | .svg => withCapitals drawingNames name
  | _ => name

/-- An attribute's name in the tree. -/
def adjustedAttribute (language : Language) (name : String) : String :=
  let name := match language with
    | .svg => withCapitals drawingAttributes name
    | .mathml => if name == "definitionurl" then "definitionURL" else name
    | .html => name
  (foreignAttributes.lookup name).getD name

/-- The tags that end embedded content, since they can only be markup proper. -/
def breakoutNames : List String :=
  ["b", "big", "blockquote", "body", "br", "center", "code", "dd", "div", "dl", "dt", "em", "embed",
    "h1", "h2", "h3", "h4", "h5", "h6", "head", "hr", "i", "img", "li", "listing", "menu", "meta",
    "nobr", "ol", "p", "pre", "ruby", "s", "small", "span", "strong", "strike", "sub", "sup",
    "table", "tt", "u", "ul", "var"]

end CustomElements.Markup
