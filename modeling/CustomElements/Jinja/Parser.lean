import CustomElements.Jinja.Program
import CustomElements.Jinja.Token

/-!
# Reading programs

A recursive descent over the tokens of a template. Binary operators bind in eight levels, and every
level groups to the left; a sign binds tighter than what follows its operand, so that `-a.b` is the
part `b` of `-a`.

A fault of the scan counts only when the descent comes to it: of two faults the first one in the
text is reported. Every function takes fuel, which bounds how deep calls nest; thirty-two units for
each token are never used up.
-/

namespace CustomElements.Jinja

/-- What is left to read, and what the whole template has said so far. -/
structure Reading where
  tokens : List Token
  fault : Option Error
  /-- The blocks read so far. -/
  blocks : List (String × List Statement)
  /-- The names of the blocks that have begun. -/
  blockNames : List String
  insideMacro : Bool
  /-- The macro that is being read has spoken of its caller. -/
  spokeOfCaller : Bool

/-- A step of the descent. -/
abbrev Read := StateT Reading (Except Error)

namespace Read

/-- The template cannot be read. -/
def fail {α : Type} : Read α := throw .badSyntax

/-- The next token, left where it is; nothing at the end. -/
def peek? : Read (Option Token) := do
  let r ← get
  match r.tokens, r.fault with
  | t :: _, _ => return some t
  | [], some e => throw e
  | [], none => return none

/-- Passes over the next token, if there is one. -/
def skip : Read Unit := do
  let _ ← peek?
  modify fun r => { r with tokens := r.tokens.tail }

/-- The next token. -/
def next : Read Token := do
  match ← peek? with
  | some t =>
    skip
    return t
  | none => fail

/-- The next token satisfies `p`. -/
def sees (p : Token → Bool) : Read Bool := do
  match ← peek? with
  | some t => return p t
  | none => return false

/-- Passes over the next token if it satisfies `p`. -/
def accept (p : Token → Bool) : Read Bool := do
  if ← sees p then
    skip
    return true
  else return false

/-- Passes over the next token, which has to satisfy `p`. -/
def expect (p : Token → Bool) : Read Unit := do
  if ← accept p then return () else fail

end Read

open Read

/-- The token is a given mark. -/
def Token.isSymbol (s : String) : Token → Bool
  | .symbol t => s == t
  | _ => false

/-- The token is a given word. -/
def Token.isWord (s : String) : Token → Bool
  | .name t => s == t
  | _ => false

/-- The token closes a block. -/
def Token.closesBlock : Token → Bool
  | .closeBlock => true
  | _ => false

/-- The token closes an output. -/
def Token.closesOutput : Token → Bool
  | .closeOutput => true
  | _ => false

/-- The token can stand after the targets of an assignment. -/
def Token.endsTargets (t : Token) : Bool :=
  t.isSymbol ")" || t.closesOutput || t.closesBlock || t.isWord "in"

/-- The token can start the argument of a test that has no parentheses. -/
def Token.startsArgument : Token → Bool
  | .name s => !(["and", "or", "else", "is"].contains s)
  | .string _ | .int _ | .float _ => true
  | .symbol s => ["+", "-", "[", "\x7b"].contains s
  | _ => false

/-- A name. -/
def readName : Read String := do
  match ← next with
  | .name s => return s
  | _ => fail

/-- The words that cannot be assigned to. -/
def reservedNames : List String :=
  ["true", "True", "false", "False", "none", "None", "loop", "self"]

/-- A name that may be assigned to. -/
def readNewName : Read String := do
  let name ← readName
  if reservedNames.contains name then fail else return name

/-! ## Expressions -/

/-- The levels of operators, from the loosest to the tightest. -/
inductive Level where
  | or
  | and
  | not
  | compare
  | sum
  | concat
  | product
  | power
  | unary
  deriving DecidableEq

/-- The level that the operands of a level have. -/
def Level.inner : Level → Level
  | .or => .and
  | .and => .not
  | .not => .compare
  | .compare => .sum
  | .sum => .concat
  | .concat => .product
  | .product => .power
  | .power => .unary
  | .unary => .unary

/-- The operator of a level that a token stands for. -/
def Level.operator? : Level → Token → Option (Expr → Expr → Expr)
  | .or, .name "or" => some .or
  | .and, .name "and" => some .and
  | .compare, .symbol "==" => some (.binary .equal)
  | .compare, .symbol "!=" => some (.binary .unequal)
  | .compare, .symbol "<" => some (.binary .less)
  | .compare, .symbol "<=" => some (.binary .lessOrEqual)
  | .compare, .symbol ">" => some (.binary .greater)
  | .compare, .symbol ">=" => some (.binary .greaterOrEqual)
  | .compare, .name "in" => some (.binary .within)
  | .sum, .symbol "+" => some (.binary .add)
  | .sum, .symbol "-" => some (.binary .subtract)
  | .concat, .symbol "~" => some (.binary .concat)
  | .product, .symbol "*" => some (.binary .multiply)
  | .product, .symbol "/" => some (.binary .divide)
  | .product, .symbol "//" => some (.binary .floorDivide)
  | .product, .symbol "%" => some (.binary .remainder)
  | .power, .symbol "**" => some (.binary .power)
  | _, _ => none

/-- The expression of a word. -/
def Expr.ofWord (s : String) : Expr :=
  if s == "true" || s == "True" then .literal (.bool true)
  else if s == "false" || s == "False" then .literal (.bool false)
  else if s == "none" || s == "None" then .literal .none
  else .name s

/-- The string literals that follow one another. -/
def readStrings : (fuel : Nat) → Read String
  | 0 => return ""
  | fuel + 1 => do
    match ← peek? with
    | some (.string s) =>
      skip
      return s ++ (← readStrings fuel)
    | _ => return ""

mutual

/-- An expression. -/
def readExpr : (fuel : Nat) → Read Expr
  | 0 => throw .outOfRoom
  | fuel + 1 => do
    let e ← readLevel fuel .or
    readChoice fuel e

/-- The conditions after an expression. -/
def readChoice : (fuel : Nat) → Expr → Read Expr
  | 0, _ => throw .outOfRoom
  | fuel + 1, yes => do
    if ← accept (·.isWord "if") then
      let condition ← readLevel fuel .or
      let no ← if ← accept (·.isWord "else") then some <$> readExpr fuel else pure none
      readChoice fuel (.choice condition yes no)
    else return yes

/-- The operators of a level and their operands. -/
def readLevel : (fuel : Nat) → Level → Read Expr
  | 0, _ => throw .outOfRoom
  | fuel + 1, .unary => do
    let e ← readSigned fuel
    let e ← readParts fuel e
    readFilters fuel e
  | fuel + 1, .not => do
    if ← accept (·.isWord "not") then .not <$> readLevel fuel .not
    else readLevel fuel .compare
  | fuel + 1, level => do
    let left ← readLevel fuel level.inner
    readOperators fuel level left

/-- What follows the first operand of a level. -/
def readOperators : (fuel : Nat) → Level → Expr → Read Expr
  | 0, _, _ => throw .outOfRoom
  | fuel + 1, level, left => do
    match ← peek? with
    | none => return left
    | some t =>
      match level.operator? t with
      | some op =>
        skip
        let right ← readLevel fuel level.inner
        readOperators fuel level (op left right)
      | none =>
        if level = .compare ∧ t.isWord "not" then
          skip
          expect (·.isWord "in")
          let right ← readLevel fuel level.inner
          readOperators fuel level (.not (.binary .within left right))
        else return left

/-- An operand with its signs. -/
def readSigned : (fuel : Nat) → Read Expr
  | 0 => throw .outOfRoom
  | fuel + 1 => do
    if ← accept (·.isSymbol "-") then .negate <$> readSigned fuel else readPrimary fuel

/-- A literal, a name, or something in brackets. -/
def readPrimary : (fuel : Nat) → Read Expr
  | 0 => throw .outOfRoom
  | fuel + 1 => do
    match ← next with
    | .name s =>
      if s == "caller" then modify fun r => { r with spokeOfCaller := true }
      return .ofWord s
    | .string s => return .literal (.text (s ++ (← readStrings fuel)))
    | .int n => return .literal (.int n)
    | .float x => return .literal (.float x)
    | .symbol "(" =>
      if ← accept (·.isSymbol ")") then return .list []
      else
        let e ← readExpr fuel
        if ← accept (·.isSymbol ",") then
          return .list (e :: (← readItems fuel ")"))
        else
          expect (·.isSymbol ")")
          return e
    | .symbol "[" => .list <$> readItems fuel "]"
    | .symbol "\x7b" => .map <$> readEntries fuel
    | _ => fail

/-- Items with commas between them up to a closing bracket; a last comma may stand before it. -/
def readItems : (fuel : Nat) → (close : String) → Read (List Expr)
  | 0, _ => throw .outOfRoom
  | fuel + 1, close => do
    if ← accept (·.isSymbol close) then return []
    else
      let e ← readExpr fuel
      if ← accept (·.isSymbol close) then return [e]
      else
        expect (·.isSymbol ",")
        return e :: (← readItems fuel close)

/-- The entries of a map up to its closing brace. -/
def readEntries : (fuel : Nat) → Read (List (Expr × Expr))
  | 0 => throw .outOfRoom
  | fuel + 1 => do
    if ← accept (·.isSymbol "\x7d") then return []
    else
      let key ← readExpr fuel
      expect (·.isSymbol ":")
      let e ← readExpr fuel
      if ← accept (·.isSymbol "\x7d") then return [(key, e)]
      else
        expect (·.isSymbol ",")
        return (key, e) :: (← readEntries fuel)

/-- The parts, items, slices and calls after an operand. -/
def readParts : (fuel : Nat) → Expr → Read Expr
  | 0, _ => throw .outOfRoom
  | fuel + 1, e => do
    if ← accept (·.isSymbol ".") then
      let name ← readName
      readParts fuel (.member e name)
    else if ← accept (·.isSymbol "[") then
      let part ← readSubscript fuel e
      readParts fuel part
    else if ← accept (·.isSymbol "(") then
      let args ← readArgs fuel true false
      readParts fuel (.call e args)
    else return e

/-- An item or a slice, after the opening bracket. -/
def readSubscript : (fuel : Nat) → Expr → Read Expr
  | 0, _ => throw .outOfRoom
  | fuel + 1, e => do
    let start ← if ← sees (·.isSymbol ":") then pure none else some <$> readExpr fuel
    if ← accept (·.isSymbol ":") then
      let stop ← if ← sees fun t => t.isSymbol "]" || t.isSymbol ":" then pure none
        else some <$> readExpr fuel
      let step ← if ← accept (·.isSymbol ":") then
          if ← sees (·.isSymbol "]") then pure none else some <$> readExpr fuel
        else pure none
      expect (·.isSymbol "]")
      return .slice e start stop step
    else
      expect (·.isSymbol "]")
      match start with
      | some key => return .item e key
      | none => fail

/--
Arguments up to the closing parenthesis. After a named one only named ones may follow.
-/
def readArgs : (fuel : Nat) → (first named : Bool) → Read (List Arg)
  | 0, _, _ => throw .outOfRoom
  | fuel + 1, first, named => do
    if ← accept (·.isSymbol ")") then return []
    else
      if !first then expect (·.isSymbol ",")
      if ← (if first then pure false else accept (·.isSymbol ")")) then return []
      else if ← accept (·.isSymbol "**") then
        let e ← readExpr fuel
        return .spreadNamed e :: (← readArgs fuel false true)
      else if ← accept (·.isSymbol "*") then
        let e ← readExpr fuel
        return .spread e :: (← readArgs fuel false named)
      else
        match ← readExpr fuel with
        | .name n =>
          if ← accept (·.isSymbol "=") then
            let e ← readLevel fuel .or
            return .named n e :: (← readArgs fuel false true)
          else if named then fail
          else return .positional (.name n) :: (← readArgs fuel false false)
        | e =>
          if named then fail else return .positional e :: (← readArgs fuel false false)

/-- The filters and tests after an operand. -/
def readFilters : (fuel : Nat) → Expr → Read Expr
  | 0, _ => throw .outOfRoom
  | fuel + 1, e => do
    if ← accept (·.isSymbol "|") then
      let name ← readName
      let args ← readOptionalArgs fuel
      readFilters fuel (.filter name e args)
    else if ← accept (·.isWord "is") then
      let negated ← accept (·.isWord "not")
      let name ← readName
      let args ← if ← sees (·.isSymbol "(") then readOptionalArgs fuel
        else if ← sees (·.startsArgument) then
          let e ← readSigned fuel
          let e ← readParts fuel e
          pure [.positional e]
        else pure []
      let test := Expr.test name e args
      readFilters fuel (if negated then .not test else test)
    else return e

/-- The arguments in parentheses, if there are any. -/
def readOptionalArgs : (fuel : Nat) → Read (List Arg)
  | 0 => throw .outOfRoom
  | fuel + 1 => do
    if ← accept (·.isSymbol "(") then readArgs fuel true false else return []

end

/-! ## Statements -/

mutual

/-- What is assigned to: one target, or none or several with commas between them. -/
def readTarget : (fuel : Nat) → Read Target
  | 0 => throw .outOfRoom
  | fuel + 1 => do
    if ← sees (·.endsTargets) then return .list []
    else
      let first ← readOneTarget fuel
      if ← accept (·.isSymbol ",") then
        return .list (first :: (← readTargets fuel))
      else return first

/-- The targets after a comma. -/
def readTargets : (fuel : Nat) → Read (List Target)
  | 0 => throw .outOfRoom
  | fuel + 1 => do
    if ← sees (·.endsTargets) then return []
    else
      let first ← readOneTarget fuel
      if ← accept (·.isSymbol ",") then return first :: (← readTargets fuel) else return [first]

/-- A name, or targets in parentheses. -/
def readOneTarget : (fuel : Nat) → Read Target
  | 0 => throw .outOfRoom
  | fuel + 1 => do
    if ← accept (·.isSymbol "(") then
      let t ← readTarget fuel
      expect (·.isSymbol ")")
      return t
    else return .name (← readNewName)

end

/-- The names after a name, with dots between them. -/
def readDots : (fuel : Nat) → (e : Expr) → (name : String) → Read Target
  | 0, _, _ => throw .outOfRoom
  | fuel + 1, e, name => do
    if ← accept (·.isSymbol ".") then
      let inner ← readName
      readDots fuel (.member e name) inner
    else return .member e name

/-- The target of a `set` without parentheses: a name, or an entry of a namespace. -/
def readSetTarget (fuel : Nat) : Read Target := do
  let name ← readNewName
  if ← accept (·.isSymbol ".") then
    let inner ← readName
    readDots fuel (.name name) inner
  else return .name name

/-- Filters with bars between them, up to the end of the block; at least one. -/
def readFilterCalls : (fuel : Nat) → Read (List FilterCall)
  | 0 => throw .outOfRoom
  | fuel + 1 => do
    let name ← readName
    let args ← readOptionalArgs fuel
    if ← sees (·.closesBlock) then return [⟨name, args⟩]
    else
      expect (·.isSymbol "|")
      return ⟨name, args⟩ :: (← readFilterCalls fuel)

/-- The assignments of a `with`, up to the end of the block. -/
def readBindings : (fuel : Nat) → (first : Bool) → Read (List (Target × Expr))
  | 0, _ => throw .outOfRoom
  | fuel + 1, first => do
    if ← sees (·.closesBlock) then return []
    else
      if !first then expect (·.isSymbol ",")
      let target ← if ← accept (·.isSymbol "(") then do
          let t ← readTarget fuel
          expect (·.isSymbol ")")
          pure t
        else .name <$> readNewName
      expect (·.isSymbol "=")
      let e ← readExpr fuel
      return (target, e) :: (← readBindings fuel false)

/-- The parameters of a macro up to the closing parenthesis; after a default all have one. -/
def readParameters : (fuel : Nat) → (first hasDefault : Bool) → Read (List Parameter)
  | 0, _, _ => throw .outOfRoom
  | fuel + 1, first, hasDefault => do
    if ← accept (·.isSymbol ")") then return []
    else
      if !first then expect (·.isSymbol ",")
      if ← (if first then pure false else accept (·.isSymbol ")")) then return []
      else
        let name ← readNewName
        if ← accept (·.isSymbol "=") then
          let e ← readExpr fuel
          return ⟨name, some e⟩ :: (← readParameters fuel false true)
        else if hasDefault then fail
        else return ⟨name, none⟩ :: (← readParameters fuel false false)

/-- The imported names and the names that they go by, up to the end of the block. -/
def readImports : (fuel : Nat) → (first : Bool) → Read (List (String × String))
  | 0, _ => throw .outOfRoom
  | fuel + 1, first => do
    if ← sees (·.closesBlock) then return []
    else
      if !first then expect (·.isSymbol ",")
      if ← sees (·.closesBlock) then return []
      else
        let name ← readNewName
        let newName ← if ← accept (·.isWord "as") then readNewName else pure name
        return (name, newName) :: (← readImports fuel false)

/-- The words that say whether an included template sees the variables; they change nothing. -/
def readContextWords : Read Unit := do
  if ← accept fun t => t.isWord "with" || t.isWord "without" then expect (·.isWord "context")

mutual

/-- Text, outputs and blocks up to a block that starts with one of `ends`, or to the end. -/
def readBody : (fuel : Nat) → (ends : List String) → Read (List Statement)
  | 0, _ => throw .outOfRoom
  | fuel + 1, ends => do
    match ← peek? with
    | none => return []
    | some (.data s) =>
      skip
      return .data s :: (← readBody fuel ends)
    | some .openOutput =>
      skip
      let e ← readExpr fuel
      expect (·.closesOutput)
      return .output e :: (← readBody fuel ends)
    | some .openBlock =>
      skip
      match ← peek? with
      | none => fail
      | some t =>
        if ends.any t.isWord then return []
        else
          let s ← readStatement fuel
          expect (·.closesBlock)
          return s :: (← readBody fuel ends)
    | some _ => fail

/-- The body of a statement: what follows its block, up to the block with the given word. -/
def readUntil : (fuel : Nat) → (word : String) → Read (List Statement)
  | 0, _ => throw .outOfRoom
  | fuel + 1, word => do
    expect (·.closesBlock)
    let body ← readBody fuel [word]
    skip
    return body

/-- A statement, from the word that it starts with to just before the end of its last block. -/
def readStatement : (fuel : Nat) → Read Statement
  | 0 => throw .outOfRoom
  | fuel + 1 => do
    match ← readName with
    | "for" =>
      let target ← readTarget fuel
      expect (·.isWord "in")
      let source ← readLevel fuel .or
      let condition ← if ← accept (·.isWord "if") then some <$> readExpr fuel else pure none
      let recursive ← accept (·.isWord "recursive")
      expect (·.closesBlock)
      let body ← readBody fuel ["endfor", "else"]
      let otherwise ← if ← accept (·.isWord "else") then do
          expect (·.closesBlock)
          readBody fuel ["endfor"]
        else pure []
      skip
      return .forLoop ⟨target, source, condition, recursive, body, otherwise⟩
    | "if" => readConditional fuel
    | "with" =>
      let bindings ← readBindings fuel true
      .within bindings <$> readUntil fuel "endwith"
    | "set" =>
      let grouped ← accept (·.isSymbol "(")
      let target ← if grouped then do
          let t ← readTarget fuel
          expect (·.isSymbol ")")
          pure t
        else readSetTarget fuel
      if !grouped && (← sees fun t => t.closesBlock || t.isSymbol "|") then
        let filters ← if ← accept (·.isSymbol "|") then readFilterCalls fuel else pure []
        .capture target filters <$> readUntil fuel "endset"
      else
        expect (·.isSymbol "=")
        .assign target <$> readExpr fuel
    | "autoescape" =>
      let e ← readExpr fuel
      .autoescape e <$> readUntil fuel "endautoescape"
    | "filter" =>
      let filters ← readFilterCalls fuel
      .filtered filters <$> readUntil fuel "endfilter"
    | "block" =>
      let r ← get
      let name ← readName
      if r.insideMacro || r.blockNames.contains name then fail
      else
        modify fun r => { r with blockNames := name :: r.blockNames }
        let body ← readUntil fuel "endblock"
        match ← peek? with
        | some (.name trailing) => if trailing == name then skip else fail
        | _ => pure ()
        modify fun r => { r with blocks := (name, body) :: r.blocks }
        return .block name
    | "extends" => .inherits <$> readExpr fuel
    | "include" =>
      let name ← readExpr fuel
      let ignoreMissing ← accept (·.isWord "ignore")
      if ignoreMissing then expect (·.isWord "missing")
      readContextWords
      return .includes name ignoreMissing
    | "import" =>
      let name ← readExpr fuel
      expect (·.isWord "as")
      let target ← readTarget fuel
      readContextWords
      return .importsAll name target
    | "from" =>
      let name ← readExpr fuel
      expect (·.isWord "import")
      .importsNames name <$> readImports fuel true
    | "macro" =>
      let name ← readName
      expect (·.isSymbol "(")
      let parameters ← readParameters fuel true false
      let (body, usesCaller) ← readMacroBody fuel "endmacro"
      return .declare name parameters usesCaller body
    | "call" =>
      let parameters ← if ← accept (·.isSymbol "(") then readParameters fuel true false
        else pure []
      match ← readExpr fuel with
      | .call callee args =>
        let (body, _) ← readMacroBody fuel "endcall"
        return .callWith callee args parameters body
      | _ => fail
    | "do" =>
      match ← readExpr fuel with
      | .call callee args => return .evaluate (.call callee args)
      | _ => fail
    | _ => fail

/-- The body of a macro, in which no block may be defined, and whether it speaks of its caller. -/
def readMacroBody : (fuel : Nat) → (word : String) → Read (List Statement × Bool)
  | 0, _ => throw .outOfRoom
  | fuel + 1, word => do
    let outside ← get
    modify fun r => { r with insideMacro := true, spokeOfCaller := false }
    let body ← readUntil fuel word
    let usesCaller := (← get).spokeOfCaller
    modify fun r => { r with
      insideMacro := outside.insideMacro
      spokeOfCaller := outside.spokeOfCaller || usesCaller }
    return (body, usesCaller)

/-- A conditional after its first word. -/
def readConditional : (fuel : Nat) → Read Statement
  | 0 => throw .outOfRoom
  | fuel + 1 => do
    let condition ← readExpr fuel
    expect (·.closesBlock)
    let yes ← readBody fuel ["endif", "else", "elif"]
    match ← peek? with
    | some (.name "else") =>
      skip
      .conditional condition yes <$> readUntil fuel "endif"
    | some (.name "elif") =>
      skip
      let no ← readConditional fuel
      return .conditional condition yes [no]
    | _ =>
      skip
      return .conditional condition yes []

end

/-- Fuel that suffices for so many tokens. -/
def readingFuel (tokens : Nat) : Nat := 32 * (tokens + 1)

/-- The program of a template. -/
def Program.parse (source : String) : Except Error Program := do
  let s := scan source
  let start := ⟨s.tokens, s.fault, [], [], false, false⟩
  let (body, r) ← (readBody (readingFuel s.tokens.length) []).run start
  return ⟨body, r.blocks.reverse, s.tokens.length⟩

end CustomElements.Jinja
