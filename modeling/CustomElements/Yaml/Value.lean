import CustomElements.Yaml.Node
import CustomElements.Decimal.Reader

/-!
# The values of YAML documents

What a plain scalar means shows in its text: nothing, a truth value, a number, or else the text
itself. A tag may say it instead. Names and quoted scalars are texts whatever they look like.

A document as a value has limited nesting, and since a node may be referred to again and again, the
number of references that are followed is limited too.
-/

namespace CustomElements.Yaml

/-! ## Scalars -/

/-- The texts for nothing. -/
def isNull (text : String) : Bool := ["null", "Null", "NULL", "~"].contains text

/-- The truth value that a text stands for. -/
def bool? (text : String) : Option Bool :=
  if ["true", "True", "TRUE"].contains text then some true
  else if ["false", "False", "FALSE"].contains text then some false
  else none

/-- The number of digits to a base; every character has to be one. -/
def digits? (base : Nat) (cs : List Char) : Option Nat :=
  if cs.isEmpty then none
  else cs.foldlM (fun n c => do
    let d ← Json.hexVal? c
    if d < base then some (n * base + d) else none) 0

/-- The number of digits with an optional sign for the base in front. -/
def magnitude? : List Char → Option Nat
  | '0' :: 'x' :: rest => digits? 16 rest
  | '0' :: 'o' :: rest => digits? 8 rest
  | '0' :: 'b' :: rest => digits? 2 rest
  | cs => digits? 10 cs

/-- Digits after a zero are no number. -/
def isPadded (cs : List Char) : Bool :=
  match (Decimal.splitSign cs).2 with
  | '0' :: rest => !rest.isEmpty && rest.all Char.isDigit
  | _ => false

/-- The whole number that a text stands for, if it fits 128 bits. -/
def integer? (cs : List Char) : Option Int :=
  if isPadded cs then none
  else
    let (negative, rest) := Decimal.splitSign cs
    match magnitude? rest with
    | some n =>
      if negative then (if n ≤ Nat.pow 2 127 then some (-(n : Int)) else none)
      else if n < Nat.pow 2 128 then some n else none
    | none => none

/-- A plus or minus sign. -/
def isSign (c : Char) : Bool := c == '+' || c == '-'

/-- The floating-point number that a text stands for. -/
def float? (cs : List Char) : Option Float :=
  let word := String.ofList
  let unsigned := if cs.head? == some '+' then cs.tail else cs
  if cs.head? == some '+' && unsigned.head?.any isSign then none
  else if [".inf", ".Inf", ".INF"].contains (word unsigned) then some (1.0 / 0.0)
  else if ["-.inf", "-.Inf", "-.INF"].contains (word cs) then some (-1.0 / 0.0)
  else if [".nan", ".NaN", ".NAN"].contains (word cs) then some (0.0 / 0.0)
  else (Decimal.read? unsigned).filter Float.isFinite

/-- A floating-point number as a value; there is none for infinity. -/
def ofFloat (x : Float) : Json := if x.isFinite then .number (.float x) else .null

/-- What a plain scalar means. -/
def plainValue? (text : String) : Option Json :=
  let cs := text.toList
  if text.isEmpty || isNull text then some .null
  else match bool? text with
    | some b => some (.bool b)
    | none =>
      match integer? cs with
      | some n => Json.ofInt? n
      | none =>
        match if isPadded cs then none else float? cs with
        | some x => some (ofFloat x)
        | none => some (.string text)

/-- A tag that the standard does not know begins with this. -/
def isCustom (tag : Option String) : Bool :=
  match tag with
  | some t => t.startsWith "!"
  | none => false

/-- What a scalar means. -/
def scalarValue? (text : String) (style : Style) (tag : Option String) : Option Json :=
  match tag with
  | none => if style = .plain then plainValue? text else some (.string text)
  | some t =>
    if t = "tag:yaml.org,2002:bool" then (bool? text).map .bool
    else if t = "tag:yaml.org,2002:int" then integer? text.toList >>= Json.ofInt?
    else if t = "tag:yaml.org,2002:float" then (float? text.toList).map ofFloat
    else if t = "tag:yaml.org,2002:null" then (if isNull text then some .null else none)
    else if isCustom tag then none
    else some (.string text)

/-! ## Documents -/

mutual

/-- The number of marks that it takes to write a node down. -/
def Node.marks : Node → Nat
  | .scalar .. | .reference _ => 1
  | .sequence items _ => 2 + itemMarks items
  | .mapping entries _ => 2 + entryMarks entries

/-- The number of marks for items. -/
def itemMarks : List Node → Nat
  | [] => 0
  | n :: rest => n.marks + itemMarks rest

/-- The number of marks for entries. -/
def entryMarks : List (Node × Node) → Nat
  | [] => 0
  | (k, n) :: rest => k.marks + n.marks + entryMarks rest

end

/-- How deep sequences and mappings may be nested. -/
def nestingLimit : Nat := 128

/--
A step that may follow references, of which so many are left; nothing if there are too many, or if
what they lead to does not fit.
-/
abbrev Follow := StateT Nat Option

namespace Document

/-- What a node stands for. -/
def target? (d : Document) : Node → Option Node
  | .reference slot => d.shared.lookup slot
  | n => some n

/-- What a node stands for; a reference is counted. -/
def follow (d : Document) : Node → Follow Node
  | .reference slot => do
    let left ← get
    if left = 0 then StateT.lift none
    else
      set (left - 1)
      StateT.lift (d.shared.lookup slot)
  | n => return n

/-- The text of a name. -/
def followName (d : Document) (n : Node) : Follow String := do
  match ← d.follow n with
  | .scalar text _ _ => return text
  | _ => StateT.lift none

/-- The value of a node, with so many levels of nesting. -/
def followValue (d : Document) : (depth : Nat) → Node → Follow Json
  | depth, n => do
    match ← d.follow n, depth with
    | .scalar text style tag, _ => StateT.lift (scalarValue? text style tag)
    | .sequence items tag, depth + 1 =>
      if isCustom tag then StateT.lift none
      else return .array (← items.mapM (d.followValue depth))
    | .mapping entries tag, depth + 1 =>
      if isCustom tag then StateT.lift none
      else return Json.ofMembers (← entries.mapM fun (k, n) => do
        let name ← d.followName k
        return (name, ← d.followValue depth n))
    | _, _ => StateT.lift none

/-- The members of the mapping that the document is; a document without contents has none. -/
def members? (d : Document) : Option (List (String × Json)) :=
  match d.root? with
  | none | some (.scalar "" .plain _) => some []
  | some (.mapping entries tag) =>
    let read := entries.mapM fun (k, n) => do
      let name ← d.followName k
      return (name, ← d.followValue (nestingLimit - 1) n)
    (read.run' (100 * (Node.mapping entries tag).marks)).map Json.sortMembers
  | _ => none

end Document

end CustomElements.Yaml
