import CustomElements.Jinja.Operators

/-!
# Arguments

A call has arguments by place and arguments by name. What is called takes those it knows, in order;
one that is left over is one too many. A function that knows no names sees all named arguments
together as one more argument, a map.
-/

namespace CustomElements.Jinja

/-- The arguments of a call. -/
structure Arguments where
  positional : List Value
  named : List (String × Value)

namespace Arguments

/-- A call without arguments. -/
def none : Arguments := ⟨[], []⟩

/-- Sets a named argument, over one of the same name. -/
def setNamed (a : Arguments) (name : String) (v : Value) : Arguments :=
  { a with named := a.named.filter (·.1 != name) ++ [(name, v)] }

/-- The arguments for a function that knows no names. -/
def values (a : Arguments) : List Value :=
  if a.named.isEmpty then a.positional else a.positional ++ [.ofNamed a.named]

end Arguments

/-- Takes arguments one by one. -/
abbrev Take := StateT Arguments (Except Error)

namespace Take

/-- The next argument by place, if there is one. -/
def placed? : Take (Option Value) := do
  let a ← get
  match a.positional with
  | v :: rest =>
    set { a with positional := rest }
    return some v
  | [] => return none

/-- All named arguments together, if there are any. -/
def named? : Take (Option Value) := do
  let a ← get
  if a.named.isEmpty then return none
  else
    set { a with named := [] }
    return some (.ofNamed a.named)

/-- The next argument of either kind, if there is one. -/
def next? : Take (Option Value) := do
  match ← placed? with
  | some v => return some v
  | none => named?

/-- The next argument. -/
def value : Take Value := do
  match ← next? with
  | some v => return v
  | none => throw .missingArgument

/-- No argument is left over. -/
def done : Take Unit := do
  match ← next? with
  | some _ => throw .tooManyArguments
  | none => return ()

/-- The one argument that is left. -/
def only : Take Value := do
  let v ← value
  done
  return v

/-- The next argument, unless it is left out, undefined or none. -/
def value? : Take (Option Value) := do return (← next?).filter fun v => !v.isMissing

/-- The text of the next argument, if there is one; named arguments together have none. -/
def text? : Take (Option String) := do
  match ← placed? with
  | some v => return if v.isMissing then none else some v.display
  | none =>
    match ← named? with
    | some _ => throw .invalidOperation
    | none => return none

/-- The text of the next argument. -/
def text : Take String := do
  match ← placed? with
  | some v => return v.display
  | none =>
    match ← named? with
    | some _ => throw .invalidOperation
    | none => throw .missingArgument

/-- The argument in another form, which it has to have. -/
def as {α : Type} (form : Value → Option α) (v? : Option Value) : Take (Option α) :=
  match v? with
  | none => return none
  | some v =>
    match form v with
    | some a => return some a
    | none => throw .invalidOperation

/-- The characters of the next argument, which has to be a string. -/
def string : Take String := do
  match (← value).string? with
  | some s => return s
  | none => throw .invalidOperation

/-- The characters of the next argument, unless it is left out. -/
def string? : Take (Option String) := do as Value.string? (← value?)

/-- A truth value. -/
def truth? : Value → Option Bool
  | .bool b => some b
  | _ => none

/-- The next argument as a natural number. -/
def nat : Take Nat := do
  let v ← value
  match v.nat? with
  | some n => return n
  | none => throw .invalidOperation

/-- The next argument as a natural number, unless it is left out. -/
def nat? : Take (Option Nat) := do as Value.nat? (← value?)

/-- The next argument as a whole number, unless it is left out. -/
def int? : Take (Option Int) := do as Value.int? (← value?)

/-- The next argument as a truth value, unless it is left out. -/
def bool? : Take (Option Bool) := do as truth? (← value?)

/-- All arguments that are left. -/
def rest : Take (List Value) := do
  let a ← get
  set Arguments.none
  return a.values

end Take

namespace Arguments

/-- The arguments with another one in front. -/
def cons (v : Value) (a : Arguments) : Arguments := { a with positional := v :: a.positional }

/-- Takes all arguments as a function does that knows no names. -/
def take {α : Type} (a : Arguments) (take : Take α) : Except Error α :=
  (do
    let r ← take
    Take.done
    return r : Take α).run' a

/-- Takes the arguments by place, whatever the named ones are. -/
def takePlaced {α : Type} (a : Arguments) (t : Take α) : Except Error α :=
  Arguments.take { a with named := [] } t

/-- Only the given names occur. -/
def allKnown (a : Arguments) (names : List String) : Except Error Unit :=
  if a.named.all (names.contains ·.1) then .ok () else .error .tooManyArguments

/-- The argument of a name, unless it is left out, undefined or none. -/
def named? (a : Arguments) (name : String) : Option Value :=
  (a.named.lookup name).filter fun v => !v.isMissing

/-- The argument of a name in another form, which it has to have. -/
def namedAs? {α : Type} (a : Arguments) (name : String) (form : Value → Option α) :
    Except Error (Option α) :=
  match a.named? name with
  | Option.none => .ok Option.none
  | some v =>
    match form v with
    | some r => .ok (some r)
    | Option.none => .error .invalidOperation

/-- The truth value of a name; false if it is left out. -/
def flag (a : Arguments) (name : String) : Except Error Bool :=
  (a.namedAs? name Take.truth?).map (·.getD false)

end Arguments

/-- What a loop over the value runs through, if it can be looped over. -/
def itemsOf (v : Value) : Except Error (List Value) :=
  match v.items? with
  | some l => .ok l
  | none => .error .invalidOperation

end CustomElements.Jinja
