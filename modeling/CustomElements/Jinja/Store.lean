import CustomElements.Jinja.Filter
import CustomElements.Jinja.Program

/-!
# What a running program knows

Variables live in frames. A frame is made for the template itself, for every loop, block, `with` and
call of a macro, and it stays, because a macro that was declared in a part of the template keeps
seeing that part's variables. A scope lists the frames that an expression sees, innermost first;
below them all lie the values that the template was given, and below those the functions that every
template can call.

Namespaces, macros and frames are known by their places in the store.
-/

namespace CustomElements.Jinja

/-- What a running loop knows about itself. -/
structure LoopState where
  index : Nat
  /-- The number of rounds, where it is known beforehand. -/
  size? : Option Nat
  previous : Value
  next? : Option Value
  /-- How many loops of the same recursion lie around this one. -/
  depth : Nat
  /-- What was last asked to have changed. -/
  watched? : Option (List Value)
  /-- The loop itself, if it may be run again from inside. -/
  recursion? : Option ForLoop
  /-- Templates can ask about the loop. -/
  visible : Bool

/-- A frame of variables. -/
structure Frame where
  locals : List (String × Value)
  loop? : Option LoopState

/-- A frame without variables. -/
def Frame.empty : Frame := ⟨[], none⟩

/-- A macro, with the frames that it sees. -/
structure Procedure where
  name : String
  parameters : List Parameter
  usesCaller : Bool
  body : List Statement
  frames : List Nat

/-- Everything that a running program changes. -/
structure Store where
  frames : Array Frame
  holders : Array (List (String × Value))
  procedures : Array Procedure
  /-- For each block its definitions, the one that replaces the others first. -/
  blocks : List (String × List (List Statement))
  /-- The names of the template and of those that it extends. -/
  loaded : List String
  /-- The template that the running one extends. -/
  parent? : Option Program

/-- Adds the blocks of a template that is extended behind those of the templates that extend it. -/
def appendBlocks (own : List (String × List Statement))
    (blocks : List (String × List (List Statement))) : List (String × List (List Statement)) :=
  own.foldl (fun blocks (name, body) =>
    if (blocks.lookup name).isSome then
      blocks.map fun b => if b.1 == name then (name, b.2 ++ [body]) else b
    else blocks ++ [(name, [body])]) blocks

/-- A store with one empty frame, for a program of the given name. -/
def Store.start (name : String) (p : Program) : Store :=
  ⟨#[.empty], #[], #[], appendBlocks p.blocks [], [name], none⟩

/-- What an expression or statement sees. -/
structure Scope where
  /-- The frames in sight, innermost first. -/
  frames : List Nat
  /-- The values that the template was given. -/
  given : List (String × Value)
  /-- What is written is markup. -/
  markup : Bool
  depth : Nat
  /-- What is written is not yet output. -/
  capturing : Bool
  /-- The block that is running, and which of its definitions. -/
  block? : Option (String × Nat)
  /-- The templates that can be included and extended. -/
  templates : List (String × Program)

/-- A running program. -/
abbrev Run := StateT Store (Except Error)

/-- How deep frames, calls and inclusions may go. -/
def depthLimit : Nat := 500

/-- The scope further down. -/
def Scope.deeper (s : Scope) (cost : Nat) : Run Scope :=
  if depthLimit < s.depth + cost then throw .invalidOperation
  else return { s with depth := s.depth + cost }

/-- Makes a frame. -/
def newFrame (f : Frame) : Run Nat := do
  let s ← get
  set { s with frames := s.frames.push f }
  return s.frames.size

/-- The scope with a new frame inside. -/
def Scope.push (s : Scope) (f : Frame) : Run Scope := do
  let s ← s.deeper 1
  let id ← newFrame f
  return { s with frames := id :: s.frames }

/-- Changes a frame. -/
def modifyFrame (id : Nat) (f : Frame → Frame) : Run Unit :=
  modify fun s => { s with frames := s.frames.modify id f }

/-- Sets a name among named values. -/
def setName (name : String) (v : Value) (l : List (String × Value)) : List (String × Value) :=
  (name, v) :: l.filter (·.1 != name)

/-- Sets a variable of the innermost frame. -/
def Scope.assign (s : Scope) (name : String) (v : Value) : Run Unit :=
  match s.frames with
  | id :: _ => modifyFrame id fun f => { f with locals := setName name v f.locals }
  | [] => return ()

/-- The value of a name in a frame; `loop` is the frame's loop. -/
def Frame.find? (f : Frame) (id : Nat) (name : String) : Option Value :=
  match f.locals.lookup name, f.loop? with
  | some v, _ => some v
  | none, some l => if l.visible && name == "loop" then some (.loop id) else none
  | none, none => none

/-- The functions that every template can call. -/
def builtins : List (String × Value) :=
  [("range", .builtin .range), ("dict", .builtin .dict), ("namespace", .builtin .newNamespace)]

/-- The value of a name, if it has one. -/
def Store.find? (store : Store) (s : Scope) (name : String) : Option Value :=
  let inFrames := s.frames.findSome? fun id => (store.frames[id]?).bind (·.find? id name)
  (inFrames.orElse fun _ => s.given.lookup name).orElse fun _ => builtins.lookup name

/-- The innermost loop in sight. -/
def Store.currentLoop? (store : Store) (s : Scope) : Option LoopState :=
  s.frames.findSome? fun id => (store.frames[id]?).bind (·.loop?)

/-- The state of the loop of a frame. -/
def Store.loop? (store : Store) (id : Nat) : Option LoopState := (store.frames[id]?).bind (·.loop?)

/-- The value with the present entries of a namespace in place of the namespace. -/
def Store.settle (store : Store) : Value → Value
  | .holder id => .ofNamed (store.holders[id]?.getD [])
  | .loop id =>
    match store.loop? id with
    | some l => .text ("<loop " ++ toString l.index ++
        (match l.size? with
        | some n => "/" ++ toString n
        | none => "") ++ ">")
    | none => .loop id
  | v => v

/-- What a template can ask about a loop. -/
def LoopState.member (l : LoopState) (name : String) : Value :=
  let ofSize (f : Nat → Nat) : Value := match l.size? with
    | some n => .int (f n)
    | none => .undefined
  match name with
  | "index0" => .int l.index
  | "index" => .int (l.index + 1)
  | "length" => ofSize id
  | "revindex" => ofSize (· - l.index)
  | "revindex0" => ofSize (· - l.index - 1)
  | "first" => .bool (l.index == 0)
  | "last" => .bool l.next?.isNone
  | "depth" => .int (l.depth + 1)
  | "depth0" => .int l.depth
  | "previtem" => l.previous
  | "nextitem" => l.next?.getD .undefined
  | _ => .undefined

/-- The named part of a value, also of a value that the store holds. -/
def Store.member (store : Store) (v : Value) (name : String) : Except Error Value :=
  match v with
  | .loop id => .ok (((store.loop? id).map (·.member name)).getD .undefined)
  | .holder id => .ok (((store.holders[id]?.getD []).lookup name).getD .undefined)
  | .procedure id own =>
    match name with
    | "name" => .ok (.text own)
    | "arguments" =>
      let parameters := ((store.procedures[id]?).map (·.parameters)).getD []
      .ok (.list (parameters.map fun p => .text p.name))
    | "caller" => .ok (.bool (((store.procedures[id]?).map (·.usesCaller)).getD false))
    | _ => .ok .undefined
  | v => memberOf v name

/-- Makes a namespace. -/
def newHolder (entries : List (String × Value)) : Run Value := do
  let s ← get
  set { s with holders := s.holders.push entries }
  return .holder s.holders.size

/-- Declares a macro. -/
def declare (p : Procedure) : Run Value := do
  let s ← get
  set { s with procedures := s.procedures.push p }
  return .procedure s.procedures.size p.name

/-- The most numbers that a range may have. -/
def rangeLimit : Nat := 100000

/-- The numbers below `last`, from `first` on, in steps. -/
def rangeItems (first last step : Nat) : Except Error Value :=
  let count := (last - first + step - 1) / step
  if step = 0 ∨ rangeLimit < count then .error .invalidOperation
  else .ok (.sequence .lazy ((List.range count).map fun i => .int (first + i * step : Nat)))

/-- A natural number that 32 bits hold. -/
def takeBound (v? : Option Value) : Take (Option Nat) := do
  match ← Take.as Value.nat? v? with
  | some n => if n < 0x100000000 then return some n else throw .invalidOperation
  | none => return none

/-- The entries of a map whose keys are strings. -/
def namedEntries (entries : List (Value × Value)) : List (String × Value) :=
  entries.filterMap fun (k, v) => k.string?.map (·, v)

/-- Calls a function that every template can call. -/
def callBuiltin (f : Builtin) (args : Arguments) : Run Value := do
  let entries (v? : Option Value) : Except Error (List (Value × Value)) := match v? with
    | none => .ok []
    | some (.map entries) => .ok entries
    | some _ => .error .invalidOperation
  match f with
  | .range => args.take do
    let first ← takeBound (some (← Take.value))
    let last ← takeBound (← Take.value?)
    let step ← takeBound (← Take.value?)
    Take.done
    match last with
    | some last => rangeItems (first.getD 0) last (step.getD 1)
    | none => rangeItems 0 (first.getD 0) (step.getD 1)
  | .dict =>
    let given ← entries (← args.takePlaced Take.value?)
    return .ofEntries (given ++ args.named.map fun e => (.text e.1, e.2))
  | .newNamespace =>
    let given ← entries (← args.take Take.value?)
    newHolder (namedEntries given)

end CustomElements.Jinja
