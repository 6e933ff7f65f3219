import CustomElements.Jinja.Arguments
import CustomElements.Text.Case

/-!
# Tests

The questions that a template can ask about a value with `is`.
-/

namespace CustomElements.Jinja.Test

/-- The comparisons by name and by mark. -/
def comparison? (name : String) : Option BinaryOp :=
  match name with
  | "eq" | "equalto" | "==" => some .equal
  | "ne" | "!=" => some .unequal
  | "lt" | "lessthan" | "<" => some .less
  | "le" | "<=" => some .lessOrEqual
  | "gt" | "greaterthan" | ">" => some .greater
  | "ge" | ">=" => some .greaterOrEqual
  | "in" => some .within
  | _ => none

/-- The questions that only look at the value. -/
def ofValue? (name : String) : Option (Value → Bool) :=
  match name with
  | "undefined" => some Value.isUndefined
  | "defined" => some fun v => !v.isUndefined
  | "none" => some fun v => v.kind == .none
  | "safe" | "escaped" => some Value.isSafe
  | "boolean" => some fun v => v.kind == .bool
  | "odd" => some fun v => v.int?.any (· % 2 != 0)
  | "even" => some fun v => v.int?.any (· % 2 == 0)
  | "number" => some fun v => v.kind == .number
  | "integer" | "int" => some fun v => match v with
    | .int _ => true
    | _ => false
  | "float" => some fun v => match v with
    | .float _ => true
    | _ => false
  | "string" => some fun v => v.kind == .string
  | "sequence" => some fun v => v.kind == .sequence
  | "iterable" => some fun v => v.items?.isSome
  | "mapping" => some fun v => v.kind == .map
  | "true" => some fun v => match v with
    | .bool b => b
    | _ => false
  | "false" => some fun v => match v with
    | .bool b => !b
    | _ => false
  | _ => none

/-- The number is a multiple of another one. -/
def divides (v divisor : Value) : Bool :=
  match v.alike? false divisor with
  | some (.ints m n) => n != 0 && m % n == 0
  | some (.floats x y) => floatRemainder x y == 0.0
  | _ => false

/-- Nothing tells the two values apart. -/
def sameAs (a b : Value) : Bool :=
  match a, b with
  | .int _, .float _ | .float _, .int _ => false
  | .sequence _ _, _ | .map _, _ => false
  | _, _ => a.kind == b.kind && a.equals b

/-- The names of the questions that take arguments or look at texts, beside the comparisons. -/
def otherNames : List String :=
  ["divisibleby", "startingwith", "endingwith", "lower", "upper", "sameas", "filter", "test"]

/-- There is a test of the name. -/
def isKnown (name : String) : Bool :=
  (comparison? name).isSome || (ofValue? name).isSome || otherNames.contains name

/-- Asks a question; `isFilter` knows the names of the filters. -/
def apply (isFilter : String → Bool) (name : String) (v : Value) (args : Arguments) :
    Except Error Bool :=
  match comparison? name, ofValue? name with
  | some op, _ => do
    let other ← args.take Take.value
    return (← op.apply v other).isTrue
  | none, some p => args.take (pure (p v))
  | none, none =>
    let all := args.cons v
    match name with
    | "divisibleby" => args.take do return divides v (← Take.value)
    | "startingwith" => all.take do return (← Take.text).startsWith (← Take.text)
    | "endingwith" => all.take do return (← Take.text).endsWith (← Take.text)
    | "lower" => all.take do return (← Take.string).all Text.isLowerCase
    | "upper" => all.take do return (← Take.string).all Text.isUpperCase
    | "sameas" => args.take do return sameAs v (← Take.value)
    | "filter" => all.take do return isFilter (← Take.string)
    | "test" => all.take do return isKnown (← Take.string)
    | _ => .error .unknownTest

end CustomElements.Jinja.Test
