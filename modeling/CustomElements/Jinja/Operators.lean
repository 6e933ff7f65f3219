import CustomElements.Jinja.Error
import CustomElements.Jinja.Printer
import CustomElements.Decimal.Reader
import CustomElements.Text.Search

/-!
# Operators

Arithmetic is exact on whole numbers of up to 128 bits and fails beyond them; as soon as one operand
is a floating-point number it is floating-point arithmetic. Division always gives a floating-point
number. Floor division and remainder are Euclidean: the remainder is never negative. An operation
that does not fit its operands fails.
-/

namespace CustomElements.Jinja

/-- The infix operators that work on the values of both sides. -/
inductive BinaryOp where
  | add
  | subtract
  | multiply
  | divide
  | floorDivide
  | remainder
  | power
  | concat
  | equal
  | unequal
  | less
  | lessOrEqual
  | greater
  | greaterOrEqual
  /-- The left side is found in the right side. -/
  | within
  deriving DecidableEq, Repr

/-- A whole number that has to fit 128 bits. -/
def intResult (n : Int) : Except Error Value :=
  match inRange? n with
  | some n => .ok (.int n)
  | none => .error .invalidOperation

/-- The number of whole units `2^-1074` in a finite floating-point number, with its sign. -/
def floatUnits (x : Float) : Int :=
  let bits := x.toBits
  let b := Decimal.Binary.ofBits bits
  let n : Int := b.m * Nat.pow 2 (b.q + 1074).toNat
  if bits ≥ 0x8000000000000000 then -n else n

/-- The floating-point number of so many units `2^-1074`, if it is one. -/
def floatOfUnits (n : Int) : Float :=
  let size := n.natAbs.log2 - 52
  let x := Float.scaleB (Float.ofNat (n.natAbs / Nat.pow 2 size)) ((size : Int) - 1074)
  if n < 0 then -x else x

/-- What is left of `x` after taking away `y` as often as fits; it has the sign of `x`. -/
def floatRemainder (x y : Float) : Float :=
  if x.isNaN || y.isNaN || x.isInf || y == 0.0 then 0.0 / 0.0
  else if y.isInf then x
  else
    let r := (floatUnits x).tmod (floatUnits y)
    if r = 0 then (if x.toBits ≥ 0x8000000000000000 then -0.0 else 0.0) else floatOfUnits r

/-- The Euclidean remainder: between zero and the size of `y`. -/
def euclideanRemainder (x y : Float) : Float :=
  let r := floatRemainder x y
  if r < 0.0 then r + y.abs else r

/-- The quotient that goes with the Euclidean remainder. -/
def euclideanQuotient (x y : Float) : Float :=
  let quotient := x / y
  let q := if quotient < 0.0 then quotient.ceil else quotient.floor
  if floatRemainder x y < 0.0 then (if y > 0.0 then q - 1.0 else q + 1.0) else q

/-- Arithmetic on two numbers in one form. -/
def arithmetic (ints : Int → Int → Except Error Value) (floats : Float → Float → Float)
    (a b : Value) : Except Error Value :=
  match a.alike? true b with
  | some (.ints m n) => ints m n
  | some (.floats x y) => .ok (.float (floats x y))
  | _ => .error .invalidOperation

/-- The list repeated. -/
def repeatItems (n : Nat) (items : List Value) : List Value := (List.replicate n items).flatten

/-- The sum of two numbers; strings and lists are joined. -/
def add (a b : Value) : Except Error Value :=
  match a, b with
  | .sequence _ l, .sequence _ m => .ok (.sequence .lazy (l ++ m))
  | .string s _, .string t _ => .ok (.text (s ++ t))
  | _, _ => arithmetic (fun m n => intResult (m + n)) (· + ·) a b

/-- The product of two numbers; a string or list is repeated. -/
def multiply (a b : Value) : Except Error Value :=
  let repeated (v count : Value) : Except Error Value :=
    match v, count.nat? with
    | .string s _, some n => .ok (.text (String.join (List.replicate n s)))
    | .sequence _ items, some n => .ok (.sequence .lazy (repeatItems n items))
    | _, _ => .error .invalidOperation
  match a, b with
  | .string _ _, _ => repeated a b
  | _, .string _ _ => repeated b a
  | .sequence _ _, _ => repeated a b
  | _, .sequence _ _ => repeated b a
  | _, _ => arithmetic (fun m n => intResult (m * n)) (· * ·) a b

/-- The quotient of two numbers as a floating-point number. -/
def divide (a b : Value) : Except Error Value :=
  match a.float? true, b.float? true with
  | some x, some y => .ok (.float (x / y))
  | _, _ => .error .invalidOperation

/-- A power of whole numbers. Of an exponent above 128 only the parity can matter. -/
def power (m n : Int) : Except Error Value :=
  if n < 0 then .error .invalidOperation
  else if n ≤ 128 then intResult (Int.pow m n.toNat)
  else if m.natAbs ≤ 1 then intResult (Int.pow m (n.toNat % 2 + 2))
  else .error .invalidOperation

/-- The number with the other sign. -/
def negate : Value → Except Error Value
  | .int n => intResult (-n)
  | .float x => .ok (.float (-x))
  | _ => .error .invalidOperation

/-- The container holds the value: as a part of its text, as a key, or as an item. -/
def holds (container v : Value) : Except Error Bool :=
  match container with
  | .undefined => .ok false
  | .string s _ => .ok (Text.occurs v.display.toList s.toList)
  | .sequence _ items => .ok (items.any fun item => item.equals v)
  | .map entries => .ok (Value.find? v entries).isSome
  | .builtin _ | .procedure _ _ | .holder _ | .loop _ => .ok false
  | _ => .error .invalidOperation

/-- Applies an operator to the values of its two sides. -/
def BinaryOp.apply (op : BinaryOp) (a b : Value) : Except Error Value :=
  match op with
  | .add => Jinja.add a b
  | .subtract => arithmetic (fun m n => intResult (m - n)) (· - ·) a b
  | .multiply => Jinja.multiply a b
  | .divide => Jinja.divide a b
  | .floorDivide =>
    arithmetic (fun m n => if n = 0 then .error .invalidOperation else intResult (m / n))
      euclideanQuotient a b
  | .remainder =>
    arithmetic (fun m n => if n = 0 then .error .invalidOperation else intResult (m % n))
      euclideanRemainder a b
  | .power => arithmetic Jinja.power Float.pow a b
  | .concat => .ok (.text (a.display ++ b.display))
  | .equal => .ok (.bool (a.equals b))
  | .unequal => .ok (.bool !(a.equals b))
  | .less => .ok (.bool (a.order b == .lt))
  | .lessOrEqual => .ok (.bool (a.order b != .gt))
  | .greater => .ok (.bool (a.order b == .gt))
  | .greaterOrEqual => .ok (.bool (a.order b != .lt))
  | .within => (holds b a).map .bool

/-- The place that a slice's bound names in a sequence of so many items. -/
def fromEnd (size : Nat) (bound : Int) : Int := if bound < 0 then size + bound else bound

/-- The items of every `step`-th place of a list, from its first one on. -/
def everyNth {α : Type} (step : Nat) : (wait : Nat) → List α → List α
  | _, [] => []
  | 0, a :: rest => a :: everyNth step (step - 1) rest
  | wait + 1, _ :: rest => everyNth step wait rest

/-- A slice that goes forward. A start before the first item gives nothing. -/
def sliceForward {α : Type} (start stop? : Option Int) (step : Nat) (items : List α) : List α :=
  let start := fromEnd items.length (start.getD 0)
  let stop := match stop? with
    | some n => fromEnd items.length n
    | none => items.length
  if start < 0 then []
  else if stop < 0 then everyNth step 0 (items.drop start.toNat)
  else everyNth step 0 ((items.drop start.toNat).take (stop.toNat - start.toNat))

/-- A slice that goes backward. -/
def sliceBackward {α : Type} (start stop? : Option Int) (step : Nat) (items : List α) : List α :=
  let size := items.length
  let first : Nat := match start with
    | none => size - 1
    | some n => if n ≥ size then size - 1 else (fromEnd size n).toNat
  let last : Nat := match stop? with
    | none => 0
    | some n => (fromEnd size n).toNat
  let count := if last = 0 then (first + step) / step else (first - last + step - 1) / step
  (List.range count).filterMap fun i => items[first - i * step]?

/-- A slice in either direction. -/
def sliceItems {α : Type} (start stop? : Option Int) (step : Int) (items : List α) : List α :=
  if 0 < step then sliceForward start stop? step.toNat items
  else sliceBackward start stop? step.natAbs items

/-- The part of a string or sequence that a slice names. -/
def slice (v : Value) (start stop step : Option Value) : Except Error Value :=
  let bound (b : Option Value) : Except Error (Option Int) :=
    match b with
    | none | some .none => .ok none
    | some b => match b.int? with
      | some n => .ok (some n)
      | none => .error .invalidOperation
  match bound start, bound stop, bound step with
  | .ok start, .ok stop, .ok step =>
    let step := step.getD 1
    if step = 0 then .error .invalidOperation
    else match v with
      | .string s _ => .ok (.text (String.ofList (sliceItems start stop step s.toList)))
      | .undefined | .none => .ok (.list [])
      | .sequence _ items => .ok (.sequence .lazy (sliceItems start stop step items))
      | _ => .error .invalidOperation
  | _, _, _ => .error .invalidOperation

/-- The item at a key: an entry of a map, or a place in a string or sequence, also from its end. -/
def itemOf? (v key : Value) : Option Value :=
  let place (size : Nat) : Option Nat := match key.int? with
    | some n =>
      let p := fromEnd size n
      if p < 0 then none else some p.toNat
    | none => none
  match v with
  | .map entries => Value.find? key entries
  | .string s _ =>
    ((place s.length).bind (s.toList[·]?)).map fun c => .text (String.singleton c)
  | .sequence .group [grouper, items] =>
    match key.string? with
    | some "grouper" => some grouper
    | some "list" => some items
    | _ => (place 2).bind ([grouper, items][·]?)
  | .sequence _ items => (place items.length).bind (items[·]?)
  | _ => none

/-- The item at a key, where something missing is undefined and has no items itself. -/
def itemOf (v key : Value) : Except Error Value :=
  match itemOf? v key with
  | some item => .ok item
  | none => if v.isUndefined then .error .undefinedValue else .ok .undefined

/-- The named part of a value; only maps and groups have named parts. -/
def memberOf (v : Value) (name : String) : Except Error Value :=
  match v with
  | .map _ | .sequence .group _ | .undefined => itemOf v (.text name)
  | _ => .ok .undefined

/-- Follows a path of names and places with dots between them. -/
def itemAt (v : Value) (path : String) : Except Error Value :=
  (path.splitOn ".").foldlM (fun v part =>
    if !part.isEmpty && part.all Char.isDigit then itemOf v (.int (Decimal.ofDigits part.toList))
    else memberOf v part) v

end CustomElements.Jinja
