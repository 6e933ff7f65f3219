/-!
# Identities

Templates, definitions, instances and owners of caches are told apart by numbers that are drawn one
after the other, for each kind from its own sequence, so that no number is drawn twice.
-/

namespace CustomElements.Identity

/-- What is told apart by numbers of its own. -/
inductive Kind where
  | template
  | definition
  | component
  /-- An owner of a namespace in a cache. -/
  | templater
  deriving DecidableEq, Repr

/-- The word for a kind in messages. -/
def Kind.word : Kind → String
  | .template => "template"
  | .definition => "definition"
  | .component => "component"
  | .templater => "templater"

/-- The name that one of a kind goes by in messages. -/
def Kind.label (k : Kind) (id : String) : String := k.word ++ "#" ++ id

/-- The numbers that the first `count` draws give. -/
def draws (count : Nat) : List Nat := List.range count

end CustomElements.Identity
