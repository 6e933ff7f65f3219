import CustomElements.Decimal.Shortest
import CustomElements.Jinja.Value

/-!
# Comparing values

Two values that operate on one another are first brought to one form: two whole numbers, two
floating-point numbers or two strings. A truth value counts as the number zero or one, and a
floating-point number without a fraction as a whole number. Values that no form fits are equal only
if they are equal item by item.

The order is total: values of different kinds stand in the order of the kinds.
-/

namespace CustomElements.Jinja

/-- The whole part of a floating-point number; zero for one that is not finite. -/
def truncate (x : Float) : Int :=
  if x.isNaN || x.isInf then 0
  else
    let bits := x.toBits
    let b := Decimal.Binary.ofBits bits
    let n : Int := b.m * Nat.pow 2 b.q.toNat / Nat.pow 2 (-b.q).toNat
    if bits ≥ 0x8000000000000000 then -n else n

/-- The least number that 128 bits hold. -/
def leastInt : Int := -(Int.pow 2 127)

/-- The greatest number that 128 bits hold. -/
def greatestInt : Int := Int.pow 2 127 - 1

/-- The number, if 128 bits hold it. -/
def inRange? (n : Int) : Option Int := if leastInt ≤ n ∧ n ≤ greatestInt then some n else none

/-- Two values in one form. -/
inductive Alike where
  | ints (a b : Int)
  | floats (a b : Float)
  | strings (a b : String)

namespace Value

/-- The value as a whole number. -/
def int? : Value → Option Int
  | .bool b => some (if b then 1 else 0)
  | .int n => some n
  | .float x =>
    let n := truncate x
    if Float.ofInt n == x && -0x8000000000000000 ≤ n && n ≤ 0x8000000000000000 then some n
    else Option.none
  | _ => Option.none

/-- The value as a floating-point number; unless `lossy`, a whole number must keep its value. -/
def float? (lossy : Bool) : Value → Option Float
  | .bool b => some (if b then 1.0 else 0.0)
  | .int n =>
    let x := Float.ofInt n
    if lossy || truncate x == n then some x else Option.none
  | .float x => some x
  | _ => Option.none

/-- The value as a natural number. -/
def nat? (v : Value) : Option Nat :=
  match v.int? with
  | some n => if n < 0 then Option.none else some n.toNat
  | Option.none => Option.none

/-- Two values in one form, if there is one. -/
def alike? (lossy : Bool) (a b : Value) : Option Alike :=
  match a, b with
  | .string s _, .string t _ => some (.strings s t)
  | .float x, _ => (b.float? lossy).map (.floats x ·)
  | _, .float y => (a.float? lossy).map (.floats · y)
  | _, _ =>
    match a.int?, b.int? with
    | some m, some n => some (.ints m n)
    | _, _ => Option.none

mutual

/-- Equality of values. -/
def equals : Value → Value → Bool
  | .undefined, .undefined => true
  | .none, .none => true
  | .sequence _ l, .sequence _ m => equalItems l m
  | .map l, .map m => equalEntries l m
  | .builtin f, .builtin g => f == g
  | .procedure i _, .procedure j _ => i == j
  | .holder i, .holder j => i == j
  | .loop i, .loop j => i == j
  | a, b =>
    match alike? false a b with
    | some (.ints m n) => m == n
    | some (.floats x y) => x == y
    | some (.strings s t) => s == t
    | Option.none => false

/-- Equality item by item. -/
def equalItems : List Value → List Value → Bool
  | [], [] => true
  | a :: l, b :: m => equals a b && equalItems l m
  | _, _ => false

/-- Equality entry by entry. -/
def equalEntries : List (Value × Value) → List (Value × Value) → Bool
  | [], [] => true
  | (k, a) :: l, (j, b) :: m => equals k j && equals a b && equalEntries l m
  | _, _ => false

end

/-- The place of a floating-point number in the order of all of them. -/
def floatRank (x : Float) : Int :=
  let bits := x.toBits.toNat
  if bits < 0x8000000000000000 then bits else 0x7FFFFFFFFFFFFFFF - (bits : Int)

/-- The place of a kind among the kinds. -/
def kindRank (v : Value) : Nat :=
  match v.kind with
  | .undefined => 0
  | .none => 1
  | .bool => 2
  | .number => 3
  | .string => 4
  | .sequence => 5
  | .map => 6
  | .iterable => 7
  | .plain => 8

/-- The order of two values of one kind that hold no others. -/
def orderOfLeaves (a b : Value) : Ordering :=
  match alike? false a b with
  | some (.ints m n) => Ord.compare m n
  | some (.floats x y) => Ord.compare (floatRank x) (floatRank y)
  | some (.strings s t) => Ord.compare s t
  | Option.none => .eq

mutual

/-- The order of values: by kind first, then by size, character by character or item by item. -/
def order : Value → Value → Ordering
  | .sequence o l, .sequence p m =>
    (Ord.compare (kindRank (.sequence o [])) (kindRank (.sequence p []))).then (orderOfItems l m)
  | .map l, .map m => orderOfEntries l m
  | a, b => (Ord.compare (kindRank a) (kindRank b)).then (orderOfLeaves a b)

/-- The order of lists, item by item. -/
def orderOfItems : List Value → List Value → Ordering
  | [], [] => .eq
  | [], _ :: _ => .lt
  | _ :: _, [] => .gt
  | a :: l, b :: m => (order a b).then (orderOfItems l m)

/-- The order of maps, entry by entry. -/
def orderOfEntries : List (Value × Value) → List (Value × Value) → Ordering
  | [], [] => .eq
  | [], _ :: _ => .lt
  | _ :: _, [] => .gt
  | (k, a) :: l, (j, b) :: m => ((order k j).then (order a b)).then (orderOfEntries l m)

end

/-- The value of a key among the entries of a map. -/
def find? (key : Value) (entries : List (Value × Value)) : Option Value :=
  (entries.find? fun e => order e.1 key == .eq).map Prod.snd

/-- Sets an entry at its place, over one of an equal key. -/
def insertEntry (key value : Value) : List (Value × Value) → List (Value × Value)
  | [] => [(key, value)]
  | (k, v) :: rest =>
    match order key k with
    | .lt => (key, value) :: (k, v) :: rest
    | .eq => (k, value) :: rest
    | .gt => (k, v) :: insertEntry key value rest

/-- The map of given entries; of two entries with equal keys the later wins. -/
def ofEntries (l : List (Value × Value)) : Value :=
  .map (l.foldl (fun entries e => insertEntry e.1 e.2 entries) [])

/-- The map of named values. -/
def ofNamed (l : List (String × Value)) : Value := ofEntries (l.map fun e => (.text e.1, e.2))

/-- The list in ascending order; equal values keep their order. -/
def sortBy (before : Value → Value → Ordering) (l : List Value) : List Value :=
  l.mergeSort fun a b => before a b != .gt

end Value

end CustomElements.Jinja
