import CustomElements.Jinja.Operators

/-!
# Programs

What a text template says: expressions, statements, and the blocks that a template which extends
it may replace.
-/

namespace CustomElements.Jinja

mutual

/-- An expression. -/
inductive Expr where
  | literal (v : Value)
  | name (n : String)
  | list (items : List Expr)
  | map (entries : List (Expr × Expr))
  | negate (e : Expr)
  | not (e : Expr)
  | and (left right : Expr)
  | or (left right : Expr)
  | binary (op : BinaryOp) (left right : Expr)
  /-- The first expression if the condition holds; without another choice, else nothing. -/
  | choice (condition yes : Expr) (no : Option Expr)
  | filter (name : String) (subject : Expr) (args : List Arg)
  | test (name : String) (subject : Expr) (args : List Arg)
  | member (e : Expr) (name : String)
  | item (e key : Expr)
  | slice (e : Expr) (start stop step : Option Expr)
  | call (callee : Expr) (args : List Arg)
  deriving Inhabited

/-- An argument of a call. -/
inductive Arg where
  | positional (e : Expr)
  | named (name : String) (e : Expr)
  /-- The items of a sequence, one argument each. -/
  | spread (e : Expr)
  /-- The entries of a map, one named argument each. -/
  | spreadNamed (e : Expr)

end

/-- What a value is assigned to. -/
inductive Target where
  | name (n : String)
  /-- A value with as many items is taken apart. -/
  | list (items : List Target)
  /-- An entry of a namespace. -/
  | member (e : Expr) (name : String)

/-- A filter that is applied to what a part of a template writes. -/
structure FilterCall where
  name : String
  args : List Arg

/-- A parameter of a macro, and what it is if no argument is given for it. -/
structure Parameter where
  name : String
  default? : Option Expr

mutual

/-- A statement. -/
inductive Statement where
  | data (s : String)
  | output (e : Expr)
  | forLoop (loop : ForLoop)
  | conditional (condition : Expr) (yes no : List Statement)
  /-- Assignments that hold in a part of the template. -/
  | within (bindings : List (Target × Expr)) (body : List Statement)
  | assign (target : Target) (e : Expr)
  /-- Assigns what a part of the template writes. -/
  | capture (target : Target) (filters : List FilterCall) (body : List Statement)
  | autoescape (e : Expr) (body : List Statement)
  | filtered (filters : List FilterCall) (body : List Statement)
  | block (name : String)
  | inherits (name : Expr)
  | includes (name : Expr) (ignoreMissing : Bool)
  | importsAll (name : Expr) (target : Target)
  | importsNames (name : Expr) (names : List (String × String))
  /-- A macro; `usesCaller` if it may be called with a body. -/
  | declare (name : String) (parameters : List Parameter) (usesCaller : Bool)
      (body : List Statement)
  /-- Calls a macro that may call back the body. -/
  | callWith (callee : Expr) (args : List Arg) (parameters : List Parameter) (body : List Statement)
  | evaluate (e : Expr)

/-- A loop. -/
inductive ForLoop where
  | mk (target : Target) (source : Expr) (condition : Option Expr) (recursive : Bool)
    (body otherwise : List Statement)

end

instance : Inhabited Statement := ⟨.data ""⟩

/-- A template that has been read. -/
structure Program where
  body : List Statement
  /-- The blocks by name, wherever they stand in the template. -/
  blocks : List (String × List Statement)
  /-- The number of tokens, which bounds how deep anything is nested. -/
  size : Nat

instance : Inhabited Program := ⟨[], [], 0⟩

end CustomElements.Jinja
