import CustomElements.Jinja.Store

/-!
# Running programs

Expressions give values and statements give text. What a statement writes counts as output unless it
is captured, or the template extends another one: from then on only its blocks matter, and what it
writes elsewhere is lost.

Fuel bounds how deep calls nest; loops do not use it up.
-/

namespace CustomElements.Jinja

/-- The result of a part that may only fail. -/
def Run.of {α : Type} : Except Error α → Run α
  | .ok a => return a
  | .error e => throw e

/-- Collects the arguments of a call. -/
def gather (ev : Expr → Run Value) (args : List Arg) : Run Arguments :=
  args.foldlM (fun a arg => do
    match arg with
    | .positional e => return { a with positional := a.positional ++ [← ev e] }
    | .named name e => return a.setNamed name (← ev e)
    | .spread e =>
      let items ← Run.of (itemsOf (← ev e))
      return { a with positional := a.positional ++ items }
    | .spreadNamed e =>
      match ← ev e with
      | .map entries => return (namedEntries entries).foldl (fun a p => a.setNamed p.1 p.2) a
      | _ => throw .invalidOperation) .none

/-- The values given to the parameters of a macro; missing ones are undefined. -/
def bindParameters (names : List String) (usesCaller : Bool) (args : Arguments) :
    Except Error (List (String × Value)) :=
  let known (name : String) := names.contains name || (usesCaller && name == "caller")
  let clash := (names.take args.positional.length).any fun n => (args.named.lookup n).isSome
  if names.length < args.positional.length || clash || !args.named.all (known ·.1) then
    .error .tooManyArguments
  else
    let placed := names.zipIdx.map fun (n, i) =>
      (n, (args.positional[i]?).getD ((args.named.lookup n).getD .undefined))
    .ok (if usesCaller then ("caller", (args.named.lookup "caller").getD .undefined) :: placed
      else placed)

/-- The names that an included template may have, in order of preference. -/
def templateNames (v : Value) : Except Error (List String) :=
  let one (v : Value) : Except Error String := match v.string? with
    | some s => .ok s
    | none => .error .invalidOperation
  match v.members? with
  | some l => l.mapM one
  | none => (one v).map ([·])

/-- What a template writes is markup, by the last part of its name before a `.j2`. -/
def isMarkupName (name : String) : Bool :=
  let parts := name.splitOn "."
  let parts := if 1 < parts.length && parts.getLast? == some "j2" then parts.dropLast else parts
  ["html", "htm", "xml"].contains (parts.getLast?.getD "")

/-- The state of a loop in the given round. -/
def LoopState.at (l : LoopState) (items : Array Value) (i : Nat) : LoopState :=
  { l with
    index := i
    previous := if i = 0 then .undefined else items[i - 1]?.getD .undefined
    next? := items[i + 1]? }

mutual

/-- The value of an expression. -/
def eval : (fuel : Nat) → Scope → Expr → Run Value
  | 0, _, _ => throw .outOfRoom
  | fuel + 1, s, e => do
    match e with
    | .literal v => return v
    | .name n => return ((← get).find? s n).getD .undefined
    | .list items => return .list (← items.mapM (eval fuel s))
    | .map entries =>
      let l ← entries.mapM fun (k, v) => do
        let k ← eval fuel s k
        return (k, ← eval fuel s v)
      return .ofEntries l
    | .negate e => Run.of (negate (← operand fuel s e))
    | .not e => return .bool !(← operand fuel s e).isTrue
    | .and left right =>
      let v ← eval fuel s left
      if ((← get).settle v).isTrue then eval fuel s right else return v
    | .or left right =>
      let v ← eval fuel s left
      if ((← get).settle v).isTrue then return v else eval fuel s right
    | .binary op left right =>
      let a ← operand fuel s left
      Run.of (op.apply a (← operand fuel s right))
    | .choice condition yes no =>
      if (← operand fuel s condition).isTrue then eval fuel s yes
      else match no with
        | some e => eval fuel s e
        | none => return .undefined
    | .filter name subject args =>
      let v ← operand fuel s subject
      let args ← gather (operand fuel s) args
      Run.of (Filter.applyTo args.positional args.named name v)
    | .test name subject args =>
      let v ← operand fuel s subject
      let args ← gather (operand fuel s) args
      return .bool (← Run.of (Test.apply Filter.isKnown name v args))
    | .member e name =>
      let v ← eval fuel s e
      Run.of ((← get).member v name)
    | .item e key =>
      let v ← eval fuel s e
      let key ← operand fuel s key
      let store ← get
      match v, key.string? with
      | .loop _, some name | .holder _, some name | .procedure _ _, some name =>
        Run.of (store.member v name)
      | _, _ => Run.of (itemOf (store.settle v) key)
    | .slice e start stop step =>
      let bound (b : Option Expr) : Run (Option Value) := match b with
        | some b => some <$> operand fuel s b
        | none => pure none
      let v ← operand fuel s e
      let start ← bound start
      let stop ← bound stop
      Run.of (slice v start stop (← bound step))
    | .call callee args => call fuel s callee args []

/-- The value of an operand: of a namespace, its present entries. -/
def operand : (fuel : Nat) → Scope → Expr → Run Value
  | 0, _, _ => throw .outOfRoom
  | fuel + 1, s, e => do
    let v ← eval fuel s e
    return (← get).settle v

/-- A call of what an expression names, with further named arguments. -/
def call : (fuel : Nat) → Scope → (callee : Expr) → (args : List Arg) →
    (further : List (String × Value)) → Run Value
  | 0, _, _, _, _ => throw .outOfRoom
  | fuel + 1, s, callee, args, further => do
    let gathered : Run Arguments := do
      let a ← gather (eval fuel s) args
      return further.foldl (fun a p => a.setNamed p.1 p.2) a
    match callee with
    | .name "super" =>
      let args ← gathered
      if !args.values.isEmpty then throw .invalidOperation
      match s.block? with
      | none => throw .invalidOperation
      | some (name, level) =>
        match (((← get).blocks.lookup name).getD [])[level + 1]? with
        | none => throw .invalidOperation
        | some _ =>
          let inner := { s with capturing := true }
          tryCatch (.written s.markup <$> runBlock fuel inner name (level + 1)) fun _ =>
            throw .blockFailed
    | .name "loop" =>
      match (← gathered).values with
      | [v] =>
        match ((← get).currentLoop? s).bind (·.recursion?) with
        | some l => .written s.markup <$> runLoop fuel { s with capturing := true } l v
        | none => throw .invalidOperation
      | _ => throw .invalidOperation
    | .name n =>
      let args ← gathered
      match (← get).find? s n with
      | none | some .undefined => throw .unknownFunction
      | some f => callValue fuel s f args
    | .member (.name "self") name =>
      .written s.markup <$> runBlock fuel { s with capturing := true } name 0
    | .member e name =>
      let v ← eval fuel s e
      callMethod fuel s v name (← gathered)
    | e =>
      let f ← eval fuel s e
      callValue fuel s f (← gathered)

/-- A call of a function or macro. -/
def callValue : (fuel : Nat) → Scope → (f : Value) → Arguments → Run Value
  | 0, _, _, _ => throw .outOfRoom
  | fuel + 1, s, f, args => do
    match f with
    | .builtin f => callBuiltin f args
    | .procedure id _ =>
      match (← get).procedures[id]? with
      | none => throw .invalidOperation
      | some p =>
        let given ← Run.of (bindParameters (p.parameters.map (·.name)) p.usesCaller args)
        let s ← s.deeper 4
        let s ← { s with frames := p.frames, capturing := true, block? := none }.push .empty
        given.forM fun (n, v) => s.assign n v
        p.parameters.forM fun parameter => do
          match given.lookup parameter.name, parameter.default? with
          | some .undefined, some e => s.assign parameter.name (← eval fuel s e)
          | _, _ => pure ()
        .written s.markup <$> runBody fuel s p.body
    | _ => throw .invalidOperation

/-- A call of a named part of a value. -/
def callMethod : (fuel : Nat) → Scope → (v : Value) → (name : String) → Arguments → Run Value
  | 0, _, _, _, _ => throw .outOfRoom
  | fuel + 1, s, v, name, args => do
    match v, name with
    | .loop id, "cycle" =>
      let l := args.values
      let index := (((← get).loop? id).map (·.index)).getD 0
      return (l[index % l.length]?).getD .undefined
    | .loop id, "changed" =>
      let watched := ((← get).loop? id).bind (·.watched?)
      let l := args.values
      let same := match watched with
        | some w => Value.equalItems w l
        | none => false
      modifyFrame id fun f => { f with loop? := f.loop?.map fun r => { r with watched? := some l } }
      return .bool !same
    | .holder id, name =>
      match (((← get).holders[id]?).getD []).lookup name with
      | some f => callValue fuel s f args
      | none => throw .unknownMethod
    | .map entries, name =>
      match Value.find? (.text name) entries with
      | some f => callValue fuel s f args
      | none => throw .unknownMethod
    | _, _ => throw .unknownMethod

/-- Assigns a value to a target. -/
def assign : (fuel : Nat) → Scope → Target → Value → Run Unit
  | 0, _, _, _ => throw .outOfRoom
  | fuel + 1, s, target, v => do
    match target with
    | .name n => s.assign n v
    | .list targets =>
      match ((← get).settle v).members? with
      | none => throw .cannotUnpack
      | some l =>
        if l.length != targets.length then throw .cannotUnpack
        else (targets.zip l).forM fun (t, v) => assign fuel s t v
    | .member e name =>
      match ← eval fuel s e with
      | .holder id =>
        modify fun store => { store with holders := store.holders.modify id (setName name v) }
      | _ => throw .invalidOperation

/-- Runs a loop over what a value holds. -/
def runLoop : (fuel : Nat) → Scope → ForLoop → Value → Run String
  | 0, _, _, _ => throw .outOfRoom
  | fuel + 1, s, ⟨target, source, condition, recursive, body, otherwise⟩, v => do
    let v := (← get).settle v
    let items ← Run.of (itemsOf v)
    let depth := match (← get).currentLoop? s with
      | some l => if l.recursion?.isSome then l.depth + 1 else 0
      | none => 0
    let start : LoopState := ⟨0, none, .undefined, none, depth, none, none, false⟩
    let items ← match condition with
      | none => pure items
      | some c => do
        let inner ← s.push ⟨[], some start⟩
        items.filterM fun v => do
          assign fuel inner target v
          return (← operand fuel inner c).isTrue
    let size? := match v, condition with
      | .sequence .stream _, none => none
      | _, _ => some items.length
    if items.isEmpty then runBody fuel s otherwise
    else
      let again := if recursive then
        some (ForLoop.mk target source condition recursive body otherwise) else none
      let state := { start with size? := size?, recursion? := again, visible := true }
      let inner ← s.push ⟨[], some state⟩
      let all := items.toArray
      items.zipIdx.foldlM (fun out (v, i) => do
        match inner.frames with
        | id :: _ => modifyFrame id fun f => { f with loop? := f.loop?.map (·.at all i) }
        | [] => pure ()
        assign fuel inner target v
        return out ++ (← runBody fuel inner body)) ""

/-- Runs one of a block's definitions. -/
def runBlock : (fuel : Nat) → Scope → (name : String) → (level : Nat) → Run String
  | 0, _, _, _ => throw .outOfRoom
  | fuel + 1, s, name, level => do
    match ((← get).blocks.lookup name).bind (·[level]?) with
    | none => throw .unknownBlock
    | some body =>
      let s ← s.push .empty
      runBody fuel { s with block? := some (name, level) } body

/-- Runs statements one after the other; once a template is extended, what they write is lost. -/
def runBody : (fuel : Nat) → Scope → List Statement → Run String
  | 0, _, _ => throw .outOfRoom
  | fuel + 1, s, body =>
    body.foldlM (fun out statement => do
      let lost := (← get).parent?.isSome && !s.capturing
      let text ← run fuel s statement
      return if lost then out else out ++ text) ""

/-- Runs statements and gives what they write as a value, with filters applied to it. -/
def captured : (fuel : Nat) → Scope → List FilterCall → List Statement → Run Value
  | 0, _, _, _ => throw .outOfRoom
  | fuel + 1, s, filters, body => do
    let text ← runBody fuel { s with capturing := true } body
    filters.foldlM (fun v f => do
      let args ← gather (operand fuel s) f.args
      Run.of (Filter.applyTo args.positional args.named f.name v)) (.written s.markup text)

/-- Runs a template and those that it extends. -/
def runProgram : (fuel : Nat) → Scope → Program → Run String
  | 0, _, _ => throw .outOfRoom
  | fuel + 1, s, p => do
    let text ← runBody fuel s p.body
    match (← get).parent? with
    | none => return text
    | some parent =>
      modify fun store => { store with parent? := none }
      return text ++ (← runProgram fuel s parent)

/-- Runs the first template of the given names that there is. -/
def runInclusion : (fuel : Nat) → Scope → (name : Expr) → (ignoreMissing : Bool) → Run String
  | 0, _, _, _ => throw .outOfRoom
  | fuel + 1, s, name, ignoreMissing => do
    let names ← Run.of (templateNames (← operand fuel s name))
    match names.findSome? fun n => (s.templates.lookup n).map (n, ·) with
    | some (n, p) =>
      let inner ← s.deeper 10
      let before ← get
      set { before with
        blocks := appendBlocks p.blocks []
        loaded := [n]
        parent? := none }
      let text ← tryCatch
        (runProgram fuel { inner with markup := isMarkupName n, capturing := false } p)
        fun _ => throw .badInclude
      modify fun after => { after with
        blocks := before.blocks, loaded := before.loaded, parent? := before.parent? }
      return text
    | none => if ignoreMissing || names.isEmpty then return "" else throw .templateNotFound

/-- Runs a template for the variables that it sets. -/
def runImport : (fuel : Nat) → Scope → (name : Expr) → Run Value
  | 0, _, _ => throw .outOfRoom
  | fuel + 1, s, name => do
    let inner ← s.push .empty
    let _ ← runInclusion fuel inner name false
    let frame := inner.frames.head?.bind ((← get).frames[·]?)
    return .ofNamed ((frame.map (·.locals)).getD [])

/-- Runs a statement. -/
def run : (fuel : Nat) → Scope → Statement → Run String
  | 0, _, _ => throw .outOfRoom
  | fuel + 1, s, statement => do
    match statement with
    | .data text => return text
    | .output e => return (← operand fuel s e).write s.markup
    | .forLoop ⟨target, source, condition, recursive, body, otherwise⟩ =>
      let v ← eval fuel s source
      runLoop fuel s ⟨target, source, condition, recursive, body, otherwise⟩ v
    | .conditional condition yes no =>
      if (← operand fuel s condition).isTrue then runBody fuel s yes else runBody fuel s no
    | .within bindings body =>
      let inner ← s.push .empty
      bindings.forM fun (target, e) => do assign fuel inner target (← eval fuel inner e)
      runBody fuel inner body
    | .assign target e =>
      assign fuel s target (← eval fuel s e)
      return ""
    | .capture target filters body =>
      assign fuel s target (← captured fuel s filters body)
      return ""
    | .autoescape e body =>
      match ← operand fuel s e with
      | .string "html" _ => runBody fuel { s with markup := true } body
      | .string "none" _ => runBody fuel { s with markup := false } body
      | .string _ _ => throw .invalidOperation
      | v => runBody fuel { s with markup := v.equals (.bool true) } body
    | .filtered filters body => return (← captured fuel s filters body).write s.markup
    | .block name =>
      if (← get).parent?.isSome then return "" else runBlock fuel s name 0
    | .inherits e =>
      let store ← get
      if store.parent?.isSome then throw .invalidOperation
      match (← operand fuel s e).string? with
      | none => throw .invalidOperation
      | some name =>
        if store.loaded.contains name then throw .invalidOperation
        match s.templates.lookup name with
        | none => throw .templateNotFound
        | some p =>
          modify fun store => { store with
            blocks := appendBlocks p.blocks store.blocks
            loaded := name :: store.loaded
            parent? := some p }
          return ""
    | .includes name ignoreMissing => runInclusion fuel s name ignoreMissing
    | .importsAll name target =>
      assign fuel s target (← runImport fuel s name)
      return ""
    | .importsNames name names =>
      let v ← runImport fuel s name
      names.forM fun (n, newName) => do s.assign newName (← Run.of (memberOf v n))
      return ""
    | .declare name parameters usesCaller body =>
      s.assign name (← declare ⟨name, parameters, usesCaller, body, s.frames⟩)
      return ""
    | .callWith callee args parameters body =>
      let caller ← declare ⟨"caller", parameters, false, body, s.frames⟩
      return ((← get).settle (← call fuel s callee args [("caller", caller)])).write s.markup
    | .evaluate e =>
      let _ ← operand fuel s e
      return ""

end

end CustomElements.Jinja
