import CustomElements.Markup.Reader.Builder

/-!
# Formatting elements that overlap others

When a formatting element ends although a block inside it is still open, as in `<b><p></b></p>`, the
block is moved out of it, and a copy of the formatting element is put inside the block around what
the block held. Formatting elements that are open between the two are copied as well; if there are
more than three of them, the ones further out are closed.
-/

namespace CustomElements.Markup.Builder

/-- The entry for an element. -/
def formatting? (b : Builder) (id : Nat) : Option (String × List (String × String)) :=
  b.formatting.findSome? fun
    | .element other name attributes => if other = id then some (name, attributes) else none
    | .marker => none

/-- The last entry of the name after the last marker. -/
def lastFormatting? (b : Builder) (name : String) : Option (Nat × List (String × String)) :=
  b.recentFormatting.findSome? fun
    | .element id other attributes => if other = name then some (id, attributes) else none
    | .marker => none

/-- Puts another element into the entry of an element. -/
def replaceEntry (b : Builder) (id fresh : Nat) : Builder :=
  { b with formatting := b.formatting.map fun
      | .element other name attributes =>
        .element (if other = id then fresh else other) name attributes
      | .marker => .marker }

/-- The entries with a new one just after that of `earlier`; the latest stands first. -/
def insertEntry (earlier : Nat) (e : Formatting) : List Formatting → List Formatting
  | [] => []
  | f :: rest => if f.isOf earlier then e :: f :: rest else f :: insertEntry earlier e rest

/-- What has been done with the elements between a formatting element and a block. -/
structure Between where
  builder : Builder
  /-- The elements that stay open, innermost first. -/
  kept : List Nat
  /-- The outermost element that moves along with the block. -/
  last : Nat
  /-- The copy just around the block. -/
  innermost : Option Nat

/-- Copies or closes the elements between, innermost first. -/
def copyBetween (s : Between) : (count : Nat) → List Nat → Between
  | _, [] => s
  | count, id :: rest =>
    match s.builder.formatting? id with
    | none => copyBetween s (count + 1) rest
    | some (name, attributes) =>
      if 3 ≤ count then
        copyBetween { s with builder := s.builder.dropFormatting id } (count + 1) rest
      else
        let (fresh, b) := s.builder.create (.html name) attributes
        let b := b.replaceEntry id fresh
        copyBetween ⟨{ b with grove := b.grove.append fresh s.last }, s.kept ++ [fresh], fresh,
          some (s.innermost.getD fresh)⟩ (count + 1) rest

/-- The open elements around a formatting element that overlaps a block. -/
structure Overlap where
  /-- The open elements inside the block. -/
  inside : List Nat
  block : Nat
  /-- The open elements between the block and the formatting element. -/
  between : List Nat
  /-- The open elements outside the formatting element. -/
  outside : List Nat

/-- Finds the outermost block inside an open formatting element. -/
def overlap? (b : Builder) (formatting : Nat) : Option Overlap :=
  let (within, around) := b.stack.span (· != formatting)
  let (between, fromBlock) := within.reverse.span fun id => !(b.name id).endsSearch
  match fromBlock with
  | [] => none
  | block :: inside => some ⟨inside.reverse, block, between.reverse, around.tail⟩

/-- Takes a formatting element and a block inside it apart. -/
def separate (b : Builder) (formatting : Nat) (name : String) (attributes : List (String × String))
    (o : Overlap) : Builder :=
  let s := copyBetween ⟨b, [], o.block, none⟩ 0 o.between
  let b := { s.builder with grove := s.builder.grove.detach s.last }
  let b := b.put (b.placeFor (o.outside.headD 0)) s.last
  let (fresh, b) := b.create (.html name) attributes
  let grove := (b.grove.moveChildren o.block fresh).append o.block fresh
  let b := match s.innermost with
    | none => b.replaceEntry formatting fresh
    | some earlier =>
      { b with formatting := insertEntry earlier (.element fresh name attributes) b.formatting
        }.dropFormatting formatting
  { b with grove := grove, stack := o.inside ++ fresh :: o.block :: s.kept ++ o.outside }

/-- Closes the innermost open element of the name, unless a block is open in between. -/
def endGeneric (b : Builder) (name : String) : Builder :=
  match b.stack.find? fun id => (b.name id).isHtml name || (b.name id).endsSearch with
  | some id =>
    if (b.name id).isHtml name then
      { b with stack := ((b.closeImplied name).stack.dropWhile (· != id)).tail }
    else b
  | none => b

/-- Ends formatting elements of the name that are open, up to the given number. -/
def endFormattingTimes (b : Builder) (name : String) : Nat → Builder
  | 0 => b
  | times + 1 =>
    match b.lastFormatting? name with
    | none => b.endGeneric name
    | some (id, attributes) =>
      if !b.stack.contains id then b.dropFormatting id
      else if !b.inScopeWhere ElementName.boundsScope (· == id) then b
      else match b.overlap? id with
        | none => { b with stack := (b.stack.dropWhile (· != id)).tail }.dropFormatting id
        | some o => (b.separate id name attributes o).endFormattingTimes name times

/-- Ends a formatting element. -/
def endFormatting (b : Builder) (name : String) : Builder :=
  if b.currentIs name && !b.isFormatting b.current then b.pop else b.endFormattingTimes name 8

/-- Ends a link that is still open; links do not contain links. -/
def endLink (b : Builder) : Builder :=
  match b.lastFormatting? "a" with
  | none => b
  | some (id, _) =>
    let b := (b.endFormatting "a").dropFormatting id
    { b with stack := b.stack.filter (· != id) }

end CustomElements.Markup.Builder
