import CustomElements.Identity
import CustomElements.Template.Definition

/-!
# Definitions and what they depend on

A definition describes a custom element: its tag name, its templates, and what it declares about its
inputs. Definitions that it depends on are bound to it once, either when it is made or later, which
allows cycles; so the dependencies stand in the catalog and not in the definition.

Registering a definition makes the tag names of everything it depends on known, in the depth-first
order of the dependencies. A tag name that is known stays with the definition that had it first.
-/

namespace CustomElements

/-- A reusable custom element. -/
structure Definition where
  id : Nat
  tagName : Option String
  html : Option Template
  css : List Template
  interface : Interface

/-- The declared tag name, or one made from the identity. -/
def Definition.resolvedTagName (d : Definition) (anonymousPrefix : String) : String :=
  d.tagName.getD (anonymousPrefix ++ "-" ++ toString d.id)

/-- Why a definition cannot be changed. -/
inductive DefinitionError where
  /-- Dependencies can be bound only once. -/
  | dependenciesAlreadySet (definition : Nat)
  deriving DecidableEq, Repr

/-- The message of an error. -/
def DefinitionError.message : DefinitionError → String
  | .dependenciesAlreadySet d =>
    "dependencies of " ++ Identity.Kind.definition.label (toString d) ++ " are already set"

/-- A definition in the catalog, with its dependencies if they are bound. -/
structure CatalogEntry where
  definition : Definition
  dependencies : Option (List Nat)

/-- All definitions. The identity of a definition is its position. -/
structure Catalog where
  entries : List CatalogEntry

/-- Known tag names. The first registration of a name stays. -/
abbrev TagMap := Fields Definition

namespace Catalog

/-- No definitions. -/
def empty : Catalog := ⟨[]⟩

/-- The identity of the next definition. -/
def nextId (c : Catalog) : Nat := c.entries.length

/-- Adds a definition, which takes the next identity, and perhaps binds its dependencies. -/
def add (c : Catalog) (d : Definition) (dependencies : Option (List Nat)) : Catalog :=
  ⟨c.entries ++ [⟨{ d with id := c.nextId }, dependencies⟩]⟩

/-- The definition of an identity. -/
def get? (c : Catalog) (id : Nat) : Option Definition := (c.entries[id]?).map (·.definition)

/-- The identities that a definition depends on; none before they are bound. -/
def dependencyIds (c : Catalog) (id : Nat) : List Nat :=
  ((c.entries[id]?).bind (·.dependencies)).getD []

/-- The definitions that a definition depends on. -/
def dependencies (c : Catalog) (id : Nat) : List Definition :=
  (c.dependencyIds id).filterMap c.get?

/-- Binds the dependencies of a definition, unless they are bound. -/
def setDependencies (c : Catalog) (id : Nat) (dependencies : List Nat) :
    Except DefinitionError Catalog :=
  match (c.entries[id]?).bind (·.dependencies) with
  | some _ => .error (.dependenciesAlreadySet id)
  | none => .ok ⟨c.entries.modify id fun e => { e with dependencies := some dependencies }⟩

/-- Makes the tag name of one definition known, if it has one that is new. -/
def registerOne (map : TagMap) (d : Definition) : TagMap :=
  match d.tagName with
  | some tag => map.insertIfNew tag d
  | none => map

/--
Makes known what the waiting definitions depend on, the first one first. A definition that was
visited is not visited again. Every step takes one definition off the list.
-/
def registerWaiting (c : Catalog) :
    (fuel : Nat) → (visited : List Nat) → (waiting : List Definition) → TagMap → TagMap
  | 0, _, _, map => map
  | _, _, [], map => map
  | fuel + 1, visited, d :: rest, map =>
    if visited.contains d.id then registerWaiting c fuel visited rest map
    else
      registerWaiting c fuel (d.id :: visited) (c.dependencies d.id ++ rest) (registerOne map d)

/-- The number of steps that suffices: each definition's dependencies are listed at most once. -/
def registerFuel (c : Catalog) : Nat :=
  c.entries.foldl (fun n e => n + (e.dependencies.getD []).length) 2

/-- Makes known the tag names of a definition and of all that it depends on. -/
def register (c : Catalog) (d : Definition) (map : TagMap) : TagMap :=
  c.registerWaiting c.registerFuel [] [d] map

/-- Makes the names known; also gives the number of those that are new. -/
def registerCounted (c : Catalog) (d : Definition) (map : TagMap) : Nat × TagMap :=
  let registered := c.register d map
  (registered.size - map.size, registered)

theorem prefix_registerOne (map : TagMap) (d : Definition) :
    map.entries <+: (registerOne map d).entries := by
  unfold registerOne
  split
  · exact map.prefix_insertIfNew _ _
  · exact List.prefix_refl _

theorem prefix_registerWaiting (c : Catalog) (fuel : Nat) (visited : List Nat)
    (waiting : List Definition) (map : TagMap) :
    map.entries <+: (c.registerWaiting fuel visited waiting map).entries := by
  induction fuel generalizing visited waiting map with
  | zero => exact List.prefix_refl _
  | succ fuel ih =>
    cases waiting with
    | nil => exact List.prefix_refl _
    | cons d rest =>
      unfold registerWaiting
      split
      · exact ih _ _ _
      · exact (prefix_registerOne map d).trans (ih _ _ _)

/-- Names that are known keep their definitions and their places. -/
theorem prefix_register (c : Catalog) (d : Definition) (map : TagMap) :
    map.entries <+: (c.register d map).entries := c.prefix_registerWaiting _ _ _ _

end Catalog

end CustomElements
