import CustomElements.Component.AttributeText
import CustomElements.Jinja.Test

/-!
# Filters

The functions that a template applies to a value with a bar. One of them, `attr`, is this library's
own: it gives the text that the value has in an attribute.

Sorting and grouping do not tell `A` to `Z` from `a` to `z` unless they are asked to.
-/

namespace CustomElements.Jinja.Filter

/-! ## Texts -/

/-- Every word with a capital letter. -/
def titled : (atStart : Bool) → List Char → List Char
  | _, [] => []
  | atStart, c :: rest =>
    if Text.isAsciiMark c || Text.isBlank c then c :: titled true rest
    else (if atStart then Text.upperChar c else Text.lowerChar c) ++ titled false rest

/-- The text without the given characters at its ends. -/
def trimmedOf (chars : List Char) (cs : List Char) : List Char :=
  ((cs.dropWhile chars.contains).reverse.dropWhile chars.contains).reverse

/-- The words or pieces of a text; a negative number of cuts is no bound. -/
def splitText (s : String) (separator : Option String) (most : Option Int) : List String :=
  let cs := s.toList
  let most? : Option Nat := match most with
    | some n => if n < 0 then none else some n.toNat
    | none => none
  let parts := match separator, most? with
    | none, none => Text.words cs
    | none, some n => Text.splitBlanks n cs
    | some t, none => Text.split t.toList (cs.length + 2) cs
    | some t, some n => Text.split t.toList n cs
  parts.map String.ofList

/-- The text with spaces in front of its lines. -/
def indented (s : String) (width : Nat) (first blank : Bool) : String :=
  let margin := List.replicate width ' '
  let shift (line : List Char) : List Char :=
    if line.isEmpty then (if blank then margin else []) else margin ++ line
  let dropEnd (cs : List Char) : List Char :=
    let cs := if cs.getLast? = some '\n' then cs.dropLast else cs
    if cs.getLast? = some '\r' then cs.dropLast else cs
  let cs := dropEnd s.toList
  match Text.pieces ['\n'] cs.length 0 cs with
  | [] => ""
  | line :: rest =>
    let lines := (if first then shift line else line) :: rest.map shift
    String.ofList (dropEnd (lines.flatMap (· ++ ['\n'])))

/-- The items' texts with a joiner wherever something stands before. -/
def joined (joiner : String) (texts : List String) : String :=
  texts.foldl (fun s t => if s.isEmpty then t else s ++ joiner ++ t) ""

/-- The value with a line of its own for each item. -/
def pretty : (fuel margin : Nat) → Value → String
  | 0, _, v => v.nested
  | fuel + 1, margin, v =>
    let inner := String.ofList (List.replicate (margin + 4) ' ')
    let close := String.ofList (List.replicate margin ' ')
    match v with
    | .sequence .stream _ => v.nested
    | .sequence _ items =>
      if items.isEmpty then "[]"
      else "[\n" ++ String.join (items.map fun i => inner ++ pretty fuel (margin + 4) i ++ ",\n")
        ++ close ++ "]"
    | .map entries =>
      if entries.isEmpty then v.nested
      else "\x7b\n" ++ String.join (entries.map fun e =>
          inner ++ pretty fuel (margin + 4) e.1 ++ ": " ++ pretty fuel (margin + 4) e.2 ++ ",\n")
        ++ close ++ "\x7d"
    | v => v.nested

/-- Deeper than any value is nested. -/
def prettyDepth : Nat := 1000

/-! ## Numbers -/

/-- The number of least distance that 128 bits hold. -/
def saturate (x : Float) : Int :=
  if x.isInf then (if x < 0.0 then leastInt else greatestInt)
  else max leastInt (min greatestInt (truncate x))

/-- The value as a whole number, without its fraction. -/
def toInt : Value → Except Error Value
  | .undefined | .none => .ok (.int 0)
  | .bool b => .ok (.int (if b then 1 else 0))
  | .int n => .ok (.int n)
  | .float x => .ok (.int (saturate x))
  | .string s _ =>
    match (Decimal.readInt? s.toList).bind inRange? with
    | some n => .ok (.int n)
    | none =>
      match Decimal.read? s.toList with
      | some x => .ok (.int (saturate x))
      | none => .error .invalidOperation
  | _ => .error .invalidOperation

/-- The value as a floating-point number. -/
def toFloat : Value → Except Error Value
  | .undefined | .none => .ok (.float 0.0)
  | .string s _ =>
    match Decimal.read? s.toList with
    | some x => .ok (.float x)
    | none => .error .invalidOperation
  | v =>
    match v.float? true with
    | some x => .ok (.float x)
    | none => .error .invalidOperation

/-- The number without its sign. -/
def absolute : Value → Except Error Value
  | .int n => intResult n.natAbs
  | .float x => .ok (.float x.abs)
  | _ => .error .invalidOperation

/-- The number rounded to so many places; halves go away from zero. -/
def rounded (v : Value) (places : Int) : Except Error Value :=
  match v with
  | .int n => .ok (.int n)
  | .float x =>
    let scale := Float.pow 10.0 (Float.ofInt places)
    .ok (.float ((x * scale).round / scale))
  | _ => .error .invalidOperation

/-! ## Sequences -/

/-- The order of values in which the case of strings may not count. -/
def orderOf (caseSensitive : Bool) (a b : Value) : Ordering :=
  match caseSensitive, a, b with
  | false, .string s _, .string t _ => Ord.compare (Text.asciiLower s) (Text.asciiLower t)
  | _, _, _ => a.order b

/-- The values in reverse order. -/
def reversed : Value → Except Error Value
  | .undefined => .ok .undefined
  | .none => .ok .none
  | .string s _ => .ok (.text (String.ofList s.toList.reverse))
  | .sequence _ items => .ok (.sequence .lazy items.reverse)
  | .map entries => .ok (.sequence .lazy (entries.map Prod.fst).reverse)
  | _ => .error .invalidOperation

/-- The first character, item or key. -/
def first (v : Value) : Except Error Value :=
  match v with
  | .string _ _ | .sequence _ _ | .map _ => (itemsOf v).map (·.head?.getD .undefined)
  | _ => .error .invalidOperation

/-- The last character or item. -/
def last (v : Value) : Except Error Value :=
  match v with
  | .string _ _ | .sequence _ _ => (itemsOf v).map (·.getLast?.getD .undefined)
  | _ => .error .invalidOperation

/-- The least item; of several the first. -/
def least (items : List Value) : Value :=
  match items with
  | [] => .undefined
  | v :: rest => rest.foldl (fun m x => if x.order m == .lt then x else m) v

/-- The greatest item; of several the last. -/
def greatest (items : List Value) : Value :=
  match items with
  | [] => .undefined
  | v :: rest => rest.foldl (fun m x => if x.order m == .lt then m else x) v

/-- The sum of the items; undefined ones do not count. -/
def total (items : List Value) : Except Error Value :=
  items.foldlM (fun sum v => if v.isUndefined then .ok sum else Jinja.add sum v) (.int 0)

/-- The items that have not been seen before. -/
def distinct (key : Value → Value) : (seen : List Value) → List Value → List Value
  | _, [] => []
  | seen, v :: rest =>
    if seen.any fun s => s.order (key v) == .eq then distinct key seen rest
    else v :: distinct key (key v :: seen) rest

/-- Rows of `count` items; the last one is filled up if there is something to fill it with. -/
def rows (count : Nat) (filler : Option Value) : (room : Nat) → List Value → List (List Value)
  | _, [] => []
  | room, v :: rest =>
    match rest with
    | [] => [v :: (match filler with
      | some f => List.replicate (room - 1) f
      | none => [])]
    | w :: more =>
      if room ≤ 1 then [v] :: rows count filler count (w :: more)
      else match rows count filler (room - 1) (w :: more) with
        | row :: others => (v :: row) :: others
        | [] => [[v]]

/-- `count` columns, the first of which may be longer by one; the others can be filled up. -/
def columns (count : Nat) (filler : Option Value) (items : List Value) : List (List Value) :=
  let size := items.length / count
  let longer := items.length % count
  (List.range count).map fun i =>
    let start := i * size + min i longer
    let part := (items.drop start).take (if i < longer then size + 1 else size)
    match filler with
    | some f => if longer ≤ i then part ++ [f] else part
    | none => part

/-- Neighbours with equal keys together. -/
def groups (caseSensitive : Bool) : List (Value × Value) → List (Value × List Value)
  | [] => []
  | (k, v) :: rest =>
    match groups caseSensitive rest with
    | (j, l) :: others =>
      if orderOf caseSensitive k j == .eq then (k, v :: l) :: others
      else (k, [v]) :: (j, l) :: others
    | [] => [(k, [v])]

/-- The lists of the first items, the second items and so on, as long as every list has one. -/
def zipped : (length : Nat) → List (List Value) → List Value
  | 0, _ => []
  | n + 1, lists =>
    match lists.mapM List.head? with
    | some heads => .list heads :: zipped n (lists.map List.tail)
    | none => []

/-- The value at a path, or something else where there is none. -/
def partOr (path : String) (otherwise v : Value) : Value :=
  match itemAt v path with
  | .ok .undefined | .error _ => otherwise
  | .ok part => part

/-- The value at a path, by which it is sorted; a missing one is undefined. -/
def sortedBy (path? : Option String) (caseSensitive : Bool) (items : List Value) : List Value :=
  match path? with
  | none => Value.sortBy (orderOf caseSensitive) items
  | some path => Value.sortBy (fun a b =>
      match itemAt a path, itemAt b path with
      | .ok x, .ok y => orderOf caseSensitive x y
      | _, _ => .eq) items

/-- The entries of a map as lists of two. -/
def pairs (entries : List (Value × Value)) : List Value := entries.map fun e => .list [e.1, e.2]

/-! ## The filters -/

/-- What a filter on texts gives; nothing if the name is not one of them. -/
def onText? (name : String) (v : Value) (args : Arguments) : Option (Except Error Value) :=
  let take (t : Take Value) : Option (Except Error Value) := some ((args.cons v).take t)
  let mapped (f : String → String) := take do return .text (f (← Take.text))
  match name with
  | "safe" => take do return .string (← Take.text) true
  | "escape" | "e" => take do
    let v ← Take.value
    return .string (v.write true) true
  | "lower" => mapped Text.lower
  | "upper" => mapped Text.upper
  | "title" => mapped fun s => String.ofList (titled true s.toList)
  | "capitalize" => mapped Text.capitalized
  | "replace" => take do return .text (Text.replace (← Take.text) (← Take.text) (← Take.text))
  | "trim" => take do
    let s ← Take.text
    match ← Take.text? with
    | some chars => return .text (String.ofList (trimmedOf chars.toList s.toList))
    | none => return .text (Text.trimmed s)
  | "split" => take do
    let s ← Take.string
    let separator ← Take.string?
    return .sequence .stream ((splitText s separator (← Take.int?)).map .text)
  | "lines" => take do
    return .list ((Text.lines (← Take.string).toList).map fun l => .text (String.ofList l))
  | "indent" => take do
    let s ← Take.text
    let width ← Take.nat
    let first ← Take.bool?
    return .text (indented s width (first.getD false) ((← Take.bool?).getD false))
  | "string" => take do
    match ← Take.value with
    | .string s safe => return .string s safe
    | v => return .text v.display
  | "pprint" => take do return .text (pretty prettyDepth 0 (← Take.value))
  | "attr" => take do
    match (← Take.only).toJson? with
    | some j => return .text (attributeText j)
    | none => throw .invalidOperation
  | _ => none

/-- What a filter on numbers or single values gives; nothing if the name is not one of them. -/
def onScalar? (name : String) (v : Value) (args : Arguments) : Option (Except Error Value) :=
  let take (t : Take Value) : Option (Except Error Value) := some ((args.cons v).take t)
  match name with
  | "int" => take do toInt (← Take.only)
  | "float" => take do toFloat (← Take.only)
  | "abs" => take do absolute (← Take.only)
  | "round" => take do
    let v ← Take.value
    let places ← Take.int?
    Take.done
    rounded v (places.getD 0)
  | "bool" => take do return .bool (← Take.value).isTrue
  | "default" | "d" => take do
    let v ← Take.value
    let other := (← Take.value?).getD (.text "")
    let lax := (← Take.bool?).getD false
    return if v.isUndefined || (lax && !v.isTrue) then other else v
  | _ => none

/-- What a filter on sequences gives; nothing if the name is not one of them. -/
def onSequence? (name : String) (v : Value) (args : Arguments) : Option (Except Error Value) :=
  let take (t : Take Value) : Option (Except Error Value) := some ((args.cons v).take t)
  match name with
  | "length" | "count" => take do
    match (← Take.only).length? with
    | some n => return .int n
    | none => throw .invalidOperation
  | "reverse" => take do reversed (← Take.only)
  | "first" => take do first (← Take.only)
  | "last" => take do last (← Take.only)
  | "list" => take do return .list (← itemsOf (← Take.only))
  | "min" => take do return least (← itemsOf (← Take.only))
  | "max" => take do return greatest (← itemsOf (← Take.only))
  | "sum" => take do total (← itemsOf (← Take.only))
  | "items" => take do
    match ← Take.only with
    | .map entries => return .sequence .lazy (pairs entries)
    | _ => throw .invalidOperation
  | "join" => take do
    let v ← Take.value
    let joiner := (← Take.text?).getD ""
    Take.done
    return .text (joined joiner ((← itemsOf v).map Value.display))
  | "batch" => take do
    let v ← Take.value
    let count ← Take.nat
    let filler ← Take.value?
    Take.done
    if count = 0 then throw .invalidOperation
    else return .list ((rows count filler count (← itemsOf v)).map .list)
  | "slice" => take do
    let v ← Take.value
    let count ← Take.nat
    let filler ← Take.value?
    Take.done
    if count = 0 then throw .invalidOperation
    else return .list ((columns count filler (← itemsOf v)).map .list)
  | "zip" => take do
    let lists ← (← Take.rest).mapM fun v => liftM (itemsOf v)
    return .sequence .lazy (zipped (lists.head?.getD []).length lists)
  | "chain" => take do
    let l ← Take.rest
    let maps := l.filterMap fun v => match v with
      | .map entries => some entries
      | _ => none
    if maps.length = l.length then return .ofEntries maps.flatten
    else
      let lists ← l.mapM fun v => liftM (itemsOf v)
      return .sequence .lazy lists.flatten
  | _ => none

/-- What a filter with named options gives; nothing if the name is not one of them. -/
def withOptions? (name : String) (v : Value) (args : Arguments) : Option (Except Error Value) :=
  match name with
  | "sort" => some do
    args.takePlaced (pure ())
    let items ← itemsOf v
    let caseSensitive ← args.flag "case_sensitive"
    let sorted := sortedBy (← args.namedAs? "attribute" Value.string?) caseSensitive items
    let backwards ← args.flag "reverse"
    args.allKnown ["attribute", "case_sensitive", "reverse"]
    return .list (if backwards then sorted.reverse else sorted)
  | "dictsort" => some do
    args.takePlaced (pure ())
    match v with
    | .map entries =>
      let side ← match (← args.namedAs? "by" Value.string?).getD "key" with
        | "key" => pure 0
        | "value" => pure 1
        | _ => throw .invalidOperation
      let caseSensitive ← args.flag "case_sensitive"
      let part (v : Value) : Value := ((v.items?.getD [])[side]?).getD .undefined
      let sorted := Value.sortBy (fun a b => orderOf caseSensitive (part a) (part b))
        (pairs entries)
      let backwards ← args.flag "reverse"
      args.allKnown ["by", "case_sensitive", "reverse"]
      return .list (if backwards then sorted.reverse else sorted)
    | _ => throw .invalidOperation
  | "unique" => some do
    args.takePlaced (pure ())
    let path? ← args.namedAs? "attribute" Value.string?
    let caseSensitive ← args.flag "case_sensitive"
    args.allKnown ["attribute", "case_sensitive"]
    let key (v : Value) : Value :=
      let v := match path? with
        | some path => partOr path .undefined v
        | none => v
      match caseSensitive, v with
      | false, .string s safe => .string (Text.lower s) safe
      | _, v => v
    return .list (distinct key [] (← itemsOf v))
  | "groupby" => some do
    let placed? ← args.takePlaced Take.string?
    let caseSensitive ← args.flag "case_sensitive"
    let otherwise := (args.named? "default").getD .undefined
    let known := if placed?.isSome then [] else ["attribute"]
    let named? ← if placed?.isSome then pure none else args.namedAs? "attribute" Value.string?
    match placed?.orElse fun _ => named? with
    | some path =>
      let keyed := (← itemsOf v).map fun v => (partOr path otherwise v, v)
      let sorted := keyed.mergeSort fun a b => orderOf caseSensitive a.1 b.1 != .gt
      args.allKnown (known ++ ["default", "case_sensitive"])
      return .list ((groups caseSensitive sorted).map fun g => .sequence .group [g.1, .list g.2])
    | none => throw .missingArgument
  | _ => none

/-- The names of the filters that apply tests or other filters to items. -/
def higherNames : List String := ["select", "reject", "selectattr", "rejectattr", "map"]

/-- What a filter that is no other one's business gives; nothing if the name is not known. -/
def basic? (name : String) (v : Value) (args : Arguments) : Option (Except Error Value) :=
  (onText? name v args).orElse fun _ => (onScalar? name v args).orElse fun _ =>
    (onSequence? name v args).orElse fun _ => withOptions? name v args

/-- There is a filter of the name. -/
def isKnown (name : String) : Bool :=
  higherNames.contains name || (basic? name .undefined .none).isSome

/-- The items that pass a test, or those that do not. -/
def selected (keep : Bool) (path? : Option String) (args : List Value) (items : List Value) :
    Except Error Value := do
  let test : Value → Except Error Bool ← match args with
    | [] => pure fun v => .ok v.isTrue
    | name :: rest =>
      if Test.isKnown name.display then
        pure fun v => Test.apply isKnown name.display v ⟨rest, []⟩
      else throw .unknownTest
  let passed ← items.filterMapM fun v => do
    let part ← match path? with
      | some path => itemAt v path
      | none => pure v
    return if (← test part) == keep then some v else none
  return .list passed

/-- The parts of the items that a name or a path leads to. -/
def mapped (path : Value) (otherwise : Option Value) (items : List Value) : Except Error Value := do
  let parts ← items.mapM fun v =>
    let part := match path.string? with
      | some s => itemAt v s
      | none => itemOf v path
    match part, otherwise with
    | .ok .undefined, some d => .ok d
    | .error _, some d => .ok d
    | part, _ => part
  return .list parts

/-- Applies a filter to a value. -/
def applyTo : (positional : List Value) → (named : List (String × Value)) → (name : String) →
    (v : Value) → Except Error Value
  | positional, named, name, v =>
    let args : Arguments := ⟨positional, named⟩
    match basic? name v args with
    | some r => r
    | none =>
      match name with
      | "select" => do selected true none args.values (← itemsOf v)
      | "reject" => do selected false none args.values (← itemsOf v)
      | "selectattr" | "rejectattr" =>
        match args.values with
        | [] => .error .missingArgument
        | path :: rest => do
          selected (name == "selectattr") (some path.display) rest (← itemsOf v)
      | "map" =>
        match args.named? "attribute" with
        | some path => do
          if !positional.isEmpty then throw .tooManyArguments
          let r ← mapped path (args.named? "default") (← itemsOf v)
          args.allKnown ["attribute", "default"]
          return r
        | none =>
          match positional with
          | [] => .error .invalidOperation
          | inner :: rest =>
            match inner.string? with
            | none => .error .invalidOperation
            | some inner =>
              if isKnown inner then do
                return .list (← (← itemsOf v).mapM (applyTo rest [] inner))
              else .error .unknownFilter
      | _ => .error .unknownFilter

end CustomElements.Jinja.Filter
