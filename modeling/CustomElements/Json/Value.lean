import CustomElements.Decimal.Layout

/-!
# JSON values

The data that properties, themes and render functions carry. A number is a whole number if it is
written as one and fits 64 bits, signed or unsigned; every other number is a floating-point number.
The members of an object are kept in ascending order of their names, and no name occurs twice.
-/

namespace CustomElements

/-- A JSON number. -/
inductive Json.Number where
  /-- A whole number from `-2^63` to `2^64 - 1`. -/
  | int (n : Int)
  /-- Any other number. -/
  | float (x : Float)
  deriving Repr

/-- A JSON value. Objects list their members in ascending order of names. -/
inductive Json where
  | null
  | bool (b : Bool)
  | number (n : Json.Number)
  | string (s : String)
  | array (items : List Json)
  | object (members : List (String × Json))
  deriving Repr

instance : Inhabited Json := ⟨.null⟩

namespace Json

/-- The whole number as a value. -/
def int (n : Int) : Json := .number (.int n)

/-- The whole number as a value, if 64 bits hold it with or without a sign. -/
def ofInt? (n : Int) : Option Json :=
  if -0x8000000000000000 ≤ n ∧ n < 0x10000000000000000 then some (int n) else none

/-- A natural number as a value. -/
def nat (n : Nat) : Json := .int n

/-- Sets a member at its place in the ascending order, over one of the same name. -/
def insertMember (name : String) (value : Json) : List (String × Json) → List (String × Json)
  | [] => [(name, value)]
  | (n, v) :: rest =>
    if n = name then (name, value) :: rest
    else if name < n then (name, value) :: (n, v) :: rest
    else (n, v) :: insertMember name value rest

/-- The members given by a list of pairs, in order of names; a later pair wins. -/
def sortMembers (l : List (String × Json)) : List (String × Json) :=
  l.foldl (fun members e => insertMember e.1 e.2 members) []

/-- The object with the given members; a later pair of the same name wins. -/
def ofMembers (l : List (String × Json)) : Json := .object (sortMembers l)

/-- The member of a name in a list of members. -/
def findMember? (name : String) (members : List (String × Json)) : Option Json :=
  (members.find? fun e => e.1 == name).map Prod.snd

/-- The member of an object; other values have none. -/
def get? (name : String) : Json → Option Json
  | .object members => findMember? name members
  | _ => none

mutual

/-- Every object in the value lists distinct names in ascending order. -/
def Ordered : Json → Prop
  | .array items => OrderedItems items
  | .object members => (members.map Prod.fst).Pairwise (· < ·) ∧ OrderedMembers members
  | _ => True

/-- Every value of the list is ordered. -/
def OrderedItems : List Json → Prop
  | [] => True
  | v :: rest => Ordered v ∧ OrderedItems rest

/-- Every member's value is ordered. -/
def OrderedMembers : List (String × Json) → Prop
  | [] => True
  | (_, v) :: rest => Ordered v ∧ OrderedMembers rest

end

end Json

end CustomElements
