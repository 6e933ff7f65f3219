import CustomElements.Markup.Node
import CustomElements.Markup.Reader.Names

/-!
# A tree while it grows

While markup is read, nodes are moved: content that may not stand in a table goes in front of it,
and elements that overlap are taken apart. So the growing tree is a collection of cells that refer
to one another by number, and becomes a forest of nodes at the end.

Cell 0 is the root. A cell is at most once among the children of another, which is then its parent.
-/

namespace CustomElements.Markup

/-- What a cell holds. -/
inductive Content where
  | element (name : ElementName) (attributes : List (String × String))
  /-- Text, last character first. -/
  | text (reversed : List Char)
  | comment

/-- A node of the growing tree. -/
structure Cell where
  content : Content
  parent : Option Nat
  /-- The children, last one first. -/
  children : List Nat

/-- A growing tree. -/
structure Grove where
  cells : Array Cell

namespace Grove

/-- The root alone. -/
def seed : Grove := ⟨#[⟨.element (.html "html") [], none, []⟩]⟩

/-- A new cell without a parent, and its number. -/
def add (g : Grove) (content : Content) : Nat × Grove :=
  (g.cells.size, ⟨g.cells.push ⟨content, none, []⟩⟩)

/-- Changes one cell. -/
def modify (g : Grove) (id : Nat) (f : Cell → Cell) : Grove := ⟨g.cells.modify id f⟩

/-- What a cell holds. -/
def content? (g : Grove) (id : Nat) : Option Content := (g.cells[id]?).map fun c => c.content

/-- The parent of a cell. -/
def parent? (g : Grove) (id : Nat) : Option Nat := (g.cells[id]?).bind (·.parent)

/-- The children of a cell, last one first. -/
def children (g : Grove) (id : Nat) : List Nat := ((g.cells[id]?).map (·.children)).getD []

/-- The name of an element; other cells go by a name that no element has. -/
def name (g : Grove) (id : Nat) : ElementName :=
  match g.content? id with
  | some (.element name _) => name
  | _ => .html ""

/-- The cell is text. -/
def isText (g : Grove) (id : Nat) : Bool :=
  match g.content? id with
  | some (.text _) => true
  | _ => false

/-- Takes a cell away from its parent. -/
def detach (g : Grove) (id : Nat) : Grove :=
  match g.parent? id with
  | none => g
  | some parent =>
    (g.modify parent fun c => { c with children := c.children.filter (· != id) }).modify id
      fun c => { c with parent := none }

/-- Moves a cell to the end of another one's children. -/
def append (g : Grove) (parent id : Nat) : Grove :=
  ((g.detach id).modify parent fun c => { c with children := id :: c.children }).modify id
    fun c => { c with parent := some parent }

/-- The children with a new one in front of `sibling`; they stand in reverse. -/
def insertAfterReversed (sibling id : Nat) : List Nat → List Nat
  | [] => []
  | c :: rest => if c = sibling then c :: id :: rest else c :: insertAfterReversed sibling id rest

/-- Moves a cell in front of another one, which has the given parent. -/
def insertBefore (g : Grove) (parent sibling id : Nat) : Grove :=
  ((g.detach id).modify parent fun c =>
    { c with children := insertAfterReversed sibling id c.children }).modify id
      fun c => { c with parent := some parent }

/-- Adds characters at the end of a text cell. -/
def extendText (g : Grove) (id : Nat) (cs : List Char) : Grove :=
  g.modify id fun c => match c.content with
    | .text reversed => { c with content := .text (cs.reverse ++ reversed) }
    | _ => c

/-- Adds text at the end of a cell's children, to the text that is there or as new text. -/
def appendText (g : Grove) (parent : Nat) (cs : List Char) : Grove :=
  match g.children parent with
  | last :: _ => if g.isText last then g.extendText last cs else addNew
  | [] => addNew
where
  addNew : Grove :=
    let (id, g) := g.add (.text cs.reverse)
    g.append parent id

/-- The child in front of another one; they stand in reverse. -/
def previousOf (id : Nat) : List Nat → Option Nat
  | c :: d :: rest => if c = id then some d else previousOf id (d :: rest)
  | _ => none

/-- Adds text in front of a cell, which has the given parent, to the text there or as new text. -/
def insertTextBefore (g : Grove) (parent sibling : Nat) (cs : List Char) : Grove :=
  match previousOf sibling (g.children parent) with
  | some previous => if g.isText previous then g.extendText previous cs else addNew
  | none => addNew
where
  addNew : Grove :=
    let (id, g) := g.add (.text cs.reverse)
    g.insertBefore parent sibling id

/-- Moves all children of one cell to the end of another one's. -/
def moveChildren (g : Grove) (source target : Nat) : Grove :=
  (g.children source).reverse.foldl (fun g id => g.append target id) g

/-! ## The forest that has grown -/

/--
The nodes that cells stand for. Comments are left out. What is inside a `template` element is not
part of the tree. No path is longer than there are cells.
-/
def nodes (g : Grove) : (fuel : Nat) → List Nat → List Node
  | 0, _ => []
  | _, [] => []
  | fuel + 1, id :: rest =>
    match g.content? id with
    | some (.element name attributes) =>
      let inside := if name.isHtml "template" then [] else g.nodes fuel (g.children id).reverse
      .element { Tag.ofName name.name with attributes := .ofList attributes } inside ::
        g.nodes fuel rest
    | some (.text reversed) => .text (String.ofList reversed.reverse) :: g.nodes fuel rest
    | _ => g.nodes fuel rest

/-- The forest below the root. Each cell is met once, going down or along. -/
def forest (g : Grove) : List Node := g.nodes (g.cells.size + 1) (g.children 0).reverse

end Grove

end CustomElements.Markup
