import CustomElements.Json.Value

/-!
# The values of text templates

Beside the data that a template is given there are values that only arise while it renders: the
undefined value that stands for whatever is missing, whole numbers beyond 64 bits, sequences that
are made on demand, and things with an identity (functions, macros, loops and namespaces), which
the value only names.

A string is *safe* if it is markup already, so that it is not escaped when it is written into
markup. Maps list their entries in ascending order of keys.
-/

namespace CustomElements.Jinja

/-- How a sequence came about. -/
inductive Origin where
  /-- It was given as a list. -/
  | list
  /-- Its items are made on demand, and their number is known. -/
  | lazy
  /-- Its items are made on demand, and their number is not known beforehand. -/
  | stream
  /-- It pairs a key, named `grouper`, with the list of the items that have it, named `list`. -/
  | group
  deriving DecidableEq, Repr

/-- The functions that every template can call. -/
inductive Builtin where
  /-- The numbers up to, or between, two bounds. -/
  | range
  /-- A map of named arguments. -/
  | dict
  /-- A namespace: a map whose entries can be assigned to. -/
  | newNamespace
  deriving DecidableEq, Repr

/-- A value. -/
inductive Value where
  | undefined
  | none
  | bool (b : Bool)
  | int (n : Int)
  | float (x : Float)
  | string (s : String) (safe : Bool)
  | sequence (origin : Origin) (items : List Value)
  | map (entries : List (Value × Value))
  | builtin (f : Builtin)
  /-- A macro, by its place among those declared. -/
  | procedure (id : Nat) (name : String)
  /-- A namespace, by its place among those made. -/
  | holder (id : Nat)
  /-- What is known of a running loop, by the frame that the loop keeps. -/
  | loop (frame : Nat)
  deriving Repr

instance : Inhabited Value := ⟨.undefined⟩

/-- The kinds of values, in ascending order: a value of an earlier kind is below one of a later. -/
inductive Kind where
  | undefined
  | none
  | bool
  | number
  | string
  | sequence
  | map
  | iterable
  | plain
  deriving DecidableEq, Repr

namespace Value

/-- A string that is not known to be markup. -/
def text (s : String) : Value := .string s false

/-- A list. -/
def list (items : List Value) : Value := .sequence .list items

/-- The kind of a value. -/
def kind : Value → Kind
  | .undefined => .undefined
  | .none => .none
  | .bool _ => .bool
  | .int _ | .float _ => .number
  | .string _ _ => .string
  | .sequence .list _ | .sequence .group _ => .sequence
  | .sequence _ _ => .iterable
  | .map _ | .procedure _ _ | .holder _ | .loop _ => .map
  | .builtin _ => .plain

mutual

/-- The value of given data. -/
def ofJson : Json → Value
  | .null => .none
  | .bool b => .bool b
  | .number (.int n) => .int n
  | .number (.float x) => .float x
  | .string s => .text s
  | .array items => .sequence .list (ofItems items)
  | .object members => .map (ofMembers members)

/-- The values of given items. -/
def ofItems : List Json → List Value
  | [] => []
  | v :: rest => ofJson v :: ofItems rest

/-- The entries of given members. -/
def ofMembers : List (String × Json) → List (Value × Value)
  | [] => []
  | (name, v) :: rest => (.text name, ofJson v) :: ofMembers rest

end

/-- The value counts as true: it is neither missing, nor zero, nor empty. -/
def isTrue : Value → Bool
  | .undefined | .none => false
  | .bool b => b
  | .int n => n != 0
  | .float x => x != 0.0
  | .string s _ => !s.isEmpty
  | .sequence .stream _ => true
  | .sequence _ items => !items.isEmpty
  | .map entries => !entries.isEmpty
  | _ => true

/-- The number of characters, items or entries, where it is known. -/
def length? : Value → Option Nat
  | .string s _ => some s.length
  | .sequence .stream _ => Option.none
  | .sequence _ items => some items.length
  | .map entries => some entries.length
  | _ => Option.none

/-- What a loop over the value runs through. Nothing is found in what is missing. -/
def items? : Value → Option (List Value)
  | .undefined | .none => some []
  | .string s _ => some (s.toList.map fun c => .text (String.singleton c))
  | .sequence _ items => some items
  | .map entries => some (entries.map Prod.fst)
  | _ => Option.none

/-- The items of something that holds values; a string is no such thing. -/
def members? : Value → Option (List Value)
  | .sequence _ items => some items
  | .map entries => some (entries.map Prod.fst)
  | _ => Option.none

/-- The characters of a string value. -/
def string? : Value → Option String
  | .string s _ => some s
  | _ => Option.none

/-- The value is a string that is known to be markup. -/
def isSafe : Value → Bool
  | .string _ safe => safe
  | _ => false

/-- The value stands for something missing. -/
def isUndefined : Value → Bool
  | .undefined => true
  | _ => false

/-- The value is undefined or none. -/
def isMissing : Value → Bool
  | .undefined | .none => true
  | _ => false

end Value

end CustomElements.Jinja
