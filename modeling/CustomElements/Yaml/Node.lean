import CustomElements.Yaml.Token

/-!
# YAML documents as trees

The tokens of a text are grouped into documents, each of which holds one node. A node may be given a
name, to which references may follow; since the node may still be open then, a reference stays a
node of its own, and the document tells what it stands for.

A name stands in a numbered slot. A new slot has as its number the count of the names, so when a
name is given twice, the next new name shares its slot, and the node that began last is what both
mean.

Fuel bounds the number of nested calls; a few units for each token suffice.
-/

namespace CustomElements.Yaml

/-- A node. -/
inductive Node where
  | scalar (text : String) (style : Style) (tag : Option String)
  | sequence (items : List Node) (tag : Option String)
  | mapping (entries : List (Node × Node)) (tag : Option String)
  | reference (slot : Nat)
  deriving Repr

instance : Inhabited Node := ⟨.scalar "" .plain none⟩

/-- The node that stands where nothing is written. -/
def Node.empty : Node := .scalar "" .plain none

/-- What is left to read, and what has been given a name. -/
structure Reading where
  tokens : List Token
  /-- The slot of each name. -/
  names : List (String × Nat)
  /-- The slots in the order in which their nodes began, the latest first. -/
  slots : List Nat
  /-- The nodes with a name, by the position of their slots in that order. -/
  nodes : List (Nat × Node)
  /-- The abbreviations for tags that the document declares. -/
  handles : List (String × String)

/-- A step of reading; nothing if the tokens do not fit. -/
abbrev Read := StateT Reading Option

namespace Read

/-- The tokens do not fit. -/
def fail {α : Type} : Read α := StateT.lift none

/-- The next token, left where it is. -/
def peek? : Read (Option Token) := do return (← get).tokens.head?

/-- Passes over the next token. -/
def skip : Read Unit := modify fun r => { r with tokens := r.tokens.tail }

/-- The next token is one of the given ones. -/
def sees (l : List Token) : Read Bool := do
  match ← peek? with
  | some t => return l.contains t
  | none => return false

/-- Passes over the given token, if it comes next. -/
def accept (t : Token) : Read Bool := do
  if ← sees [t] then
    skip
    return true
  else return false

/-- Passes over the given token, which has to come next. -/
def expect (t : Token) : Read Unit := do
  if ← accept t then return () else fail

/-- Takes a slot for the name of a node that begins, and gives its position. -/
def announce : Option String → Read (Option Nat)
  | none => return none
  | some name => modifyGet fun r =>
    (some r.slots.length,
      { r with
        names := (name, r.names.length) :: r.names.filter (·.1 != name)
        slots := r.names.length :: r.slots })

/-- Remembers a node that has a name. -/
def finish (position : Option Nat) (n : Node) : Read Node := do
  match position with
  | some p => modify fun r => { r with nodes := (p, n) :: r.nodes }
  | none => pure ()
  return n

end Read

open Read

/-- What the two handles that are always there stand for. -/
def standardHandles : List (String × String) := [("!", "!"), ("!!", "tag:yaml.org,2002:")]

/-- The name and the tag in front of a node, in either order. -/
def readProperties : (fuel : Nat) → (name tag : Option String) →
    Read (Option String × Option String)
  | 0, name, tag => return (name, tag)
  | fuel + 1, name, tag => do
    match ← peek?, name, tag with
    | some (.anchor n), none, _ =>
      skip
      readProperties fuel (some n) tag
    | some (.tag handle n), _, none =>
      skip
      if handle.isEmpty then readProperties fuel name (some n)
      else match ((← get).handles ++ standardHandles).lookup handle with
        | some expansion => readProperties fuel name (some (expansion ++ n))
        | none => fail
    | _, _, _ => return (name, tag)

/-- A name or a tag may stand alone; without either there has to be a node. -/
def readMissing (name tag : Option String) : Read Node := do
  if name.isSome || tag.isSome then finish (← announce name) (.scalar "" .plain tag) else fail

mutual

/-- A node. Entries without indentation of their own may stand where `flat` allows them. -/
def readNode : (fuel : Nat) → (block flat : Bool) → Read Node
  | 0, _, _ => fail
  | fuel + 1, block, flat => do
    match ← peek? with
    | some (.reference name) =>
      skip
      match (← get).names.lookup name with
      | some slot => return .reference slot
      | none => fail
    | _ =>
      let (name, tag) ← readProperties 3 none none
      match ← peek?, block, flat with
      | some (.scalar text style), _, _ =>
        skip
        finish (← announce name) (.scalar text style tag)
      | some .flowSequenceStart, _, _ =>
        skip
        let position ← announce name
        finish position (.sequence (← readFlowItems fuel true) tag)
      | some .flowMappingStart, _, _ =>
        skip
        let position ← announce name
        finish position (.mapping (← readFlowEntries fuel true) tag)
      | some .entry, _, true =>
        let position ← announce name
        finish position (.sequence (← readFlatEntries fuel) tag)
      | some .sequenceStart, true, _ =>
        skip
        let position ← announce name
        finish position (.sequence (← readBlockItems fuel) tag)
      | some .mappingStart, true, _ =>
        skip
        let position ← announce name
        finish position (.mapping (← readBlockEntries fuel) tag)
      | _, _, _ => readMissing name tag

/-- A node, or the empty one if one of `ends` comes next. -/
def readUnless : (fuel : Nat) → (ends : List Token) → (block flat : Bool) → Read Node
  | 0, _, _, _ => fail
  | fuel + 1, ends, block, flat => do
    if ← sees ends then return .empty else readNode fuel block flat

/-- The items of a block sequence. -/
def readBlockItems : (fuel : Nat) → Read (List Node)
  | 0 => fail
  | fuel + 1 => do
    if ← accept .entry then
      let n ← readUnless fuel [.entry, .blockEnd] true false
      return n :: (← readBlockItems fuel)
    else
      expect .blockEnd
      return []

/-- The items of a sequence that has no indentation of its own. -/
def readFlatEntries : (fuel : Nat) → Read (List Node)
  | 0 => fail
  | fuel + 1 => do
    if ← accept .entry then
      let n ← readUnless fuel [.entry, .key, .value, .blockEnd] true false
      return n :: (← readFlatEntries fuel)
    else return []

/-- The entries of a block mapping. -/
def readBlockEntries : (fuel : Nat) → Read (List (Node × Node))
  | 0 => fail
  | fuel + 1 => do
    if ← accept .blockEnd then return []
    else
      let ends := [Token.key, .value, .blockEnd]
      expect .key
      let key ← readUnless fuel ends true true
      let n ← if ← accept .value then readUnless fuel ends true true else pure Node.empty
      return (key, n) :: (← readBlockEntries fuel)

/--
The items between brackets; a key makes an item a mapping of one entry. An empty key uses up the
mark in front of which it stands.
-/
def readFlowItems : (fuel : Nat) → (first : Bool) → Read (List Node)
  | 0, _ => fail
  | fuel + 1, first => do
    if ← accept .flowSequenceEnd then return []
    else
      if !first then expect .comma
      if ← accept .flowSequenceEnd then return []
      else if ← accept .key then
        let ends := [Token.value, .comma, .flowSequenceEnd]
        let bare ← sees ends
        let key ← readUnless fuel ends false false
        if bare then skip
        let n ← if ← accept .value then readUnless fuel [.comma, .flowSequenceEnd] false false
          else pure Node.empty
        return .mapping [(key, n)] none :: (← readFlowItems fuel false)
      else
        let n ← readNode fuel false false
        return n :: (← readFlowItems fuel false)

/-- The entries between braces. -/
def readFlowEntries : (fuel : Nat) → (first : Bool) → Read (List (Node × Node))
  | 0, _ => fail
  | fuel + 1, first => do
    if ← accept .flowMappingEnd then return []
    else
      if !first then expect .comma
      if ← accept .flowMappingEnd then return []
      else if ← accept .key then
        let key ← readUnless fuel [.value, .comma, .flowMappingEnd] false false
        let n ← if ← accept .value then readUnless fuel [.comma, .flowMappingEnd] false false
          else pure Node.empty
        return (key, n) :: (← readFlowEntries fuel false)
      else
        let key ← readNode fuel false false
        return (key, .empty) :: (← readFlowEntries fuel false)

end

/-- The directives in front of a document, and whether there are any. -/
def readDirectives : (fuel : Nat) → (versioned : Bool) → Read Bool
  | 0, _ => fail
  | fuel + 1, versioned => do
    match ← peek? with
    | some .versionDirective =>
      skip
      if versioned then fail
      else
        let _ ← readDirectives fuel true
        return true
    | some (.tagDirective handle expansion) =>
      skip
      let declared := (← get).handles
      if (declared.lookup handle).isSome then fail
      else
        modify fun r => { r with handles := (handle, expansion) :: declared }
        let _ ← readDirectives fuel versioned
        return true
    | _ => return false

/-- Passes over the marks behind a document. -/
def readDocumentEnds : (fuel : Nat) → Read Unit
  | 0 => return ()
  | fuel + 1 => do if ← accept .documentEnd then readDocumentEnds fuel else return ()

/-- The node of the one document of a text, if it has a document; several are refused. -/
def readRoot? (fuel : Nat) : Read (Option Node) := do
  if (← peek?).isNone then return none
  else
    let directed ← readDirectives fuel false
    let marked ← accept .documentStart
    if directed && !marked then fail
    let bare := (← peek?).isNone || (← sees [.documentEnd])
    let n ← if marked && bare then pure Node.empty else readNode fuel true false
    readDocumentEnds fuel
    if (← peek?).isSome then fail else return some n

/-- What a text holds. -/
structure Document where
  /-- The node of the document; nothing if the text has no document at all. -/
  root? : Option Node
  /-- What the slots of references stand for. -/
  shared : List (Nat × Node)

/-- The document of a text; nothing if the text is malformed or holds several. -/
def Document.parse? (text : String) : Option Document := do
  let tokens ← tokens? text
  let (root?, r) ← (readRoot? (4 * tokens.length + 4)).run ⟨tokens, [], [], [], []⟩
  let positions := r.slots.reverse.zipIdx.reverse
  let shared := positions.filterMap fun (slot, position) =>
    (r.nodes.lookup position).map fun n => (slot, n)
  return ⟨root?, shared⟩

end CustomElements.Yaml
