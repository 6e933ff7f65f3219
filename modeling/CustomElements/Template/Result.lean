import CustomElements.Component.AttributeText
import CustomElements.Markup.Printer

/-!
# Render results and their text

A render function returns a fragment of markup with values filled in, an element, a value that has a
text, or plain data. Before markup is parsed, the result is flattened to text: the pieces of a
fragment, depth first and in order, each written as it is.

A value may be *pending*: text that is delivered later, such as a message that is still loading.
Until then its placeholder is written, and every pending text that was written is reported along
with the text, so that whoever has the document can fill it in.
-/

namespace CustomElements

/-- Text that may be delivered later. -/
structure PendingText where
  id : Nat
  /-- What is written until the text is delivered. -/
  placeholder : String
  deriving DecidableEq, Repr

/-- The texts delivered so far, by the identity of the pending text. -/
structure Deliveries where
  texts : List (Nat × String)

namespace Deliveries

/-- Nothing has been delivered. -/
def none : Deliveries := ⟨[]⟩

/-- The text delivered for a pending text. -/
def get? (d : Deliveries) (p : PendingText) : Option String :=
  (d.texts.find? fun e => e.1 == p.id).map Prod.snd

/-- The pending text has been delivered. -/
def isReady (d : Deliveries) (p : PendingText) : Bool := (d.get? p).isSome

/-- What is written for a pending text now. -/
def current (d : Deliveries) (p : PendingText) : String := (d.get? p).getD p.placeholder

/-- Delivers a text, unless one was delivered before; says whether it did. -/
def deliver (d : Deliveries) (p : PendingText) (text : String) : Bool × Deliveries :=
  if d.isReady p then (false, d) else (true, ⟨d.texts ++ [(p.id, text)]⟩)

end Deliveries

/-- A value filled into a fragment. -/
inductive Interpolation where
  /-- Text that is written as it is. -/
  | text (s : String)
  /-- Data, written as in an attribute. -/
  | value (v : Json)
  /-- A fragment: text, then values each with the text that follows it. -/
  | fragment (head : String) (rest : List (Interpolation × String))
  /-- A node, written as markup. -/
  | element (n : Node)
  /-- Values one after the other. -/
  | list (items : List Interpolation)
  | pending (p : PendingText)

/-- Static markup with values in between: text, then values each with the text that follows it. -/
structure Fragment where
  head : String
  rest : List (Interpolation × String)

namespace Fragment

/-- No text and no values. -/
def empty : Fragment := ⟨"", []⟩

/-- Static markup alone. -/
def ofString (s : String) : Fragment := ⟨s, []⟩

/-- Adds text at the end of the last piece of a list, if there is one. -/
def extendLast (s : String) : List (Interpolation × String) → List (Interpolation × String)
  | [] => []
  | [(v, t)] => [(v, t ++ s)]
  | e :: f :: rest => e :: extendLast s (f :: rest)

/-- Adds static markup at the end. -/
def pushStatic (f : Fragment) (s : String) : Fragment :=
  match f.rest with
  | [] => { f with head := f.head ++ s }
  | rest => { f with rest := extendLast s rest }

/-- Adds a value at the end. -/
def push (f : Fragment) (v : Interpolation) : Fragment := { f with rest := f.rest ++ [(v, "")] }

/-- The pieces of static markup: one more than there are values. -/
def statics (f : Fragment) : List String := f.head :: f.rest.map Prod.snd

/-- The values. -/
def values (f : Fragment) : List Interpolation := f.rest.map Prod.fst

/-- The fragment as a value of another one. -/
def toInterpolation (f : Fragment) : Interpolation := .fragment f.head f.rest

theorem length_statics (f : Fragment) : f.statics.length = f.values.length + 1 := by
  simp [statics, values]

end Fragment

/-- What a render function returns. -/
inductive RenderResult where
  | fragment (f : Fragment)
  | element (n : Node)
  /-- Any value that has a text. -/
  | display (text : String)
  /-- Plain data. Objects and `null` have no text. -/
  | data (v : Json)

/-- The text of a result, and the pending texts written into it, in order. -/
structure CoercedText where
  text : String
  pending : List PendingText
  deriving DecidableEq, Repr

namespace CoercedText

/-- No text. -/
def empty : CoercedText := ⟨"", []⟩

/-- Text without anything pending. -/
def ofString (s : String) : CoercedText := ⟨s, []⟩

/-- One text after the other. -/
def append (a b : CoercedText) : CoercedText := ⟨a.text ++ b.text, a.pending ++ b.pending⟩

instance : Append CoercedText := ⟨append⟩

end CoercedText

mutual

/-- The text of a value. -/
def Interpolation.coerce (d : Deliveries) : Interpolation → CoercedText
  | .text s => .ofString s
  | .value v => .ofString (attributeText v)
  | .fragment head rest => .ofString head ++ Interpolation.coerceRest d rest
  | .element n => .ofString n.toHtml
  | .list items => Interpolation.coerceList d items
  | .pending p => ⟨d.current p, [p]⟩

/-- The text of values that follow one another. -/
def Interpolation.coerceList (d : Deliveries) : List Interpolation → CoercedText
  | [] => .empty
  | v :: rest => v.coerce d ++ Interpolation.coerceList d rest

/-- The text of values, each with the static markup after it. -/
def Interpolation.coerceRest (d : Deliveries) : List (Interpolation × String) → CoercedText
  | [] => .empty
  | (v, s) :: rest => v.coerce d ++ .ofString s ++ Interpolation.coerceRest d rest

end

/-- The text of a fragment. -/
def Fragment.coerce (d : Deliveries) (f : Fragment) : CoercedText := f.toInterpolation.coerce d

/-- Data that has no text. -/
inductive Formless where
  | object
  | null
  deriving DecidableEq, Repr

mutual

/-- The text of plain data, or the first part of it, from left to right, that has none. -/
def dataText : Json → Except Formless String
  | .string s => .ok s
  | .number n => .ok n.text
  | .bool b => .ok (if b then "true" else "false")
  | .array items => dataTexts items
  | .object _ => .error .object
  | .null => .error .null

/-- The texts of data, one after the other. -/
def dataTexts : List Json → Except Formless String
  | [] => .ok ""
  | v :: rest => do
    let s ← dataText v
    let t ← dataTexts rest
    return s ++ t

end

/-- The text of a result. Only plain data can be without one. -/
def RenderResult.coerce (d : Deliveries) : RenderResult → Except Formless CoercedText
  | .fragment f => .ok (f.coerce d)
  | .element n => .ok (.ofString n.toHtml)
  | .display text => .ok (.ofString text)
  | .data v => (dataText v).map .ofString

end CustomElements
