import CustomElements.Change
import CustomElements.Component.Instance
import CustomElements.Jinja.Eval
import CustomElements.Jinja.Parser

/-!
# Environments

An environment is a collection of named templates, which can include, import and extend one another.
It renders one of them, or a source that it does not keep, for given properties. What a source
writes is not escaped; what a named template writes is, if the name says that it is markup.
-/

namespace CustomElements.Jinja

/-- What a template is rendered with. -/
structure Context where
  props : Props
  theme : Option Theme
  change : Change

/-- The values that a template is given. Properties hide the theme and the change. -/
def Context.values (c : Context) : List (String × Value) :=
  c.props.entries.map (fun e => (e.1, Value.ofJson e.2)) ++
    [("theme", match c.theme with
      | some t => .ofJson t.toJson
      | none => .none),
     ("change", .int c.change.bits)]

/-- Named templates. -/
structure Environment where
  templates : List (String × Program)

namespace Environment

/-- The environment without templates. -/
def empty : Environment := ⟨[]⟩

/-- The program of a name. -/
def get? (env : Environment) (name : String) : Option Program := env.templates.lookup name

/-- A template of the name is there. -/
def contains (env : Environment) (name : String) : Bool := (env.get? name).isSome

/-- Takes a template away. -/
def remove (env : Environment) (name : String) : Environment :=
  ⟨env.templates.filter (·.1 != name)⟩

/-- Sets a template, over one of the same name. -/
def add (env : Environment) (name source : String) : Except Error Environment := do
  let p ← Program.parse source
  return ⟨(name, p) :: (env.remove name).templates⟩

/-- The names of the templates, in ascending order. -/
def names (env : Environment) : List String := (env.templates.map Prod.fst).mergeSort

/-- Fuel that suffices to run a program of the given size: calls nest at most `depthLimit` deep. -/
def fuel (env : Environment) (p : Program) : Nat :=
  4 * (depthLimit + 1) * (env.templates.foldl (fun n t => n + t.2.size) p.size + 4)

/-- What a program writes, under the given name. -/
def runAs (env : Environment) (name : String) (markup : Bool) (p : Program) (c : Context) :
    Except Error String :=
  let scope : Scope := ⟨[0], c.values, markup, 1, false, none, env.templates⟩
  (runProgram (env.fuel p) scope p).run' (Store.start name p)

/-- The name of a source that is not kept. -/
def sourceName : String := "<string>"

/-- What a source writes. -/
def renderSource (env : Environment) (source : String) (c : Context) : Except Error String := do
  env.runAs sourceName false (← Program.parse source) c

/-- What a named template writes. -/
def renderNamed (env : Environment) (name : String) (c : Context) : Except Error String :=
  match env.get? name with
  | some p => env.runAs name (isMarkupName name) p c
  | none => .error .templateNotFound

end Environment

end CustomElements.Jinja
