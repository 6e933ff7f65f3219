import CustomElements.Markup.Node

/-!
# Slots

A component's markup has placeholders, `<slot>` elements, for the content that its caller supplies.
Content with a `slot` attribute goes to the placeholder of that name; all other content goes to the
unnamed placeholder, followed by content that asked for a name no placeholder has. Only the first
placeholder of each kind receives anything, and one that receives nothing keeps its own children as
a fallback. Without an unnamed placeholder the content meant for it is dropped.

Placeholders inside a placeholder, or inside an expanded element, are not looked at.
-/

namespace CustomElements

/-- The placeholders of a component's markup. -/
structure Receivers where
  /-- The names of named placeholders, in document order, each once. -/
  named : List String
  /-- There is an unnamed placeholder. -/
  unnamed : Bool
  deriving DecidableEq, Repr

/-- Content distributed to placeholders. -/
structure Distribution where
  /-- The markup with placeholders filled. -/
  nodes : List Node
  /-- Content that had nowhere to go. -/
  dropped : List Node

/-- The element is a placeholder, in any ASCII letter case. -/
def Tag.isReceiver (t : Tag) : Bool := Text.eqIgnoreAsciiCase t.name "slot"

/-- An attribute's value, if it is not empty. -/
def Tag.filledAttribute? (t : Tag) (name : String) : Option String :=
  (t.attribute? name).filter (· != "")

/-- The name of a placeholder, if it has one. -/
def Tag.receiverName? (t : Tag) : Option String := t.filledAttribute? "name"

/-- The placeholder that a piece of content asks for. -/
def Node.slotTarget? : Node → Option String
  | .element tag _ => tag.filledAttribute? "slot"
  | _ => none

namespace Receivers

/-- No placeholders. -/
def none : Receivers := ⟨[], false⟩

/-- A placeholder of this name exists. -/
def hasNamed (r : Receivers) (name : String) : Bool := r.named.contains name

/-- Takes note of one placeholder. -/
def add (r : Receivers) : Option String → Receivers
  | some name => if r.hasNamed name then r else { r with named := r.named ++ [name] }
  | .none => { r with unnamed := true }

mutual

/-- Adds the placeholders of a node. -/
def addNode (r : Receivers) : Node → Receivers
  | .element tag children =>
    if tag.isReceiver then r.add tag.receiverName?
    else if tag.expanded then r
    else addForest r children
  | _ => r

/-- Adds the placeholders of a forest. -/
def addForest (r : Receivers) : List Node → Receivers
  | [] => r
  | n :: rest => addForest (addNode r n) rest

end

/-- The placeholders of a forest. -/
def find (nodes : List Node) : Receivers := none.addForest nodes

end Receivers

/-- Content that waits to be put into placeholders. -/
structure Waiting where
  /-- Content for named placeholders. -/
  named : Fields (List Node)
  /-- Content for the first unnamed placeholder, until it has been met. -/
  unnamed : Option (List Node)

namespace Waiting

/-- The content for one placeholder, which is then no longer waiting. -/
def take (w : Waiting) : Option String → Option (List Node) × Waiting
  | some name => (w.named.get? name, { w with named := w.named.erase name })
  | none => (w.unnamed, { w with unnamed := none })

mutual

/-- Fills the placeholders of a node. -/
def fillNode (w : Waiting) : Node → Node × Waiting
  | .element tag children =>
    if tag.isReceiver then
      match w.take tag.receiverName? with
      | (some (c :: cs), w) => (.element tag (c :: cs), w)
      | (_, w) => (.element tag children, w)
    else if tag.expanded then (.element tag children, w)
    else
      let (children, w) := fillForest w children
      (.element tag children, w)
  | n => (n, w)

/-- Fills the placeholders of a forest in document order. -/
def fillForest (w : Waiting) : List Node → List Node × Waiting
  | [] => ([], w)
  | n :: rest =>
    let (n, w) := fillNode w n
    let (rest, w) := fillForest w rest
    (n :: rest, w)

end

end Waiting

/-- The content that asks for the name. -/
def contentFor (name : String) (content : List Node) : List Node :=
  content.filter fun n => n.slotTarget? == some name

/-- Content for the unnamed placeholder: what asks for none, then what asks for an unknown one. -/
def contentForUnnamed (r : Receivers) (content : List Node) : List Node :=
  content.filter (fun n => n.slotTarget? == none) ++
    content.filter fun n => match n.slotTarget? with
      | some name => !r.hasNamed name
      | none => false

/-- The content for each named placeholder that is asked for. -/
def namedContent (r : Receivers) (content : List Node) : Fields (List Node) :=
  Fields.ofList ((content.filterMap Node.slotTarget?).filter r.hasNamed |>.map
    fun name => (name, contentFor name content))

/-- Distributes content to the placeholders of a component's markup. -/
def Distribution.resolve (markup content : List Node) : Distribution :=
  let receivers := Receivers.find markup
  let unnamed := contentForUnnamed receivers content
  let waiting : Waiting :=
    ⟨namedContent receivers content, some (if receivers.unnamed then unnamed else [])⟩
  ⟨(waiting.fillForest markup).1, if receivers.unnamed then [] else unnamed⟩

end CustomElements
