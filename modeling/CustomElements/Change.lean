/-!
# Change: why a render happens, and what a template reacts to

Four categories of input can change between two renders: the properties, the theme, the language,
and nothing at all (`never`, which marks work that is done once). A set of categories is read in
two ways. As a *reason* it says what changed since the last render. As a *mask* it says which
changes a template has to be recomputed for. A cached result is reused when the two are disjoint.
-/

namespace CustomElements

/-- A set of input categories. -/
structure Change where
  /-- Properties or attributes of the component. -/
  prop : Bool
  /-- The resolved theme. -/
  theme : Bool
  /-- The active language. -/
  lang : Bool
  /-- Compute once, never recompute. -/
  never : Bool
  deriving DecidableEq, Repr

namespace Change

/-- No category at all. -/
def empty : Change := ⟨false, false, false, false⟩

instance : EmptyCollection Change := ⟨empty⟩

/-- Every regular category: properties, theme and language. -/
def always : Change := ⟨true, true, true, false⟩

/-- All four categories: the reason that renders everything. -/
def force : Change := ⟨true, true, true, true⟩

/-- Only `theme`. -/
def onlyTheme : Change := ⟨false, true, false, false⟩

/-- Only `never`. -/
def onlyNever : Change := ⟨false, false, false, true⟩

/-- The set as a number, one bit per category. -/
def bits (c : Change) : Nat :=
  c.prop.toNat + 2 * c.theme.toNat + 4 * c.lang.toNat + 8 * c.never.toNat

/-- The set held by the low four bits of a number; higher bits mean nothing. -/
def ofBits (n : Nat) : Change :=
  ⟨n.testBit 0, n.testBit 1, n.testBit 2, n.testBit 3⟩

/-- Categories of either set. -/
def union (a b : Change) : Change :=
  ⟨a.prop || b.prop, a.theme || b.theme, a.lang || b.lang, a.never || b.never⟩

/-- Categories of both sets. -/
def inter (a b : Change) : Change :=
  ⟨a.prop && b.prop, a.theme && b.theme, a.lang && b.lang, a.never && b.never⟩

/-- Categories of `a` that are not in `b`. -/
def diff (a b : Change) : Change :=
  ⟨a.prop && !b.prop, a.theme && !b.theme, a.lang && !b.lang, a.never && !b.never⟩

/-- Categories that are not in the set. -/
def compl (a : Change) : Change := force.diff a

/-- Some category is in both sets. -/
def intersects (a b : Change) : Bool := a.inter b != empty

/-- Every category of `b` is in `a`. -/
def contains (a b : Change) : Bool := a.inter b == b

/-- The names of the categories in the set, in the order of their bits. -/
def names (c : Change) : List String :=
  [(c.prop, "PROP"), (c.theme, "THEME"), (c.lang, "LANG"), (c.never, "NEVER")].filterMap
    fun (present, name) => if present then some name else none

/--
A mask that computes once and is then reused for ever. Only `never` alone qualifies, and the empty
mask, which reacts to nothing; `never` beside other categories still recomputes for those.
-/
def isNever (c : Change) : Bool := c == empty || c == onlyNever

/-- A stylesheet with this mask looks the same for every instance of a definition. -/
def isGlobalStyle (c : Change) : Bool := c == onlyTheme || c.isNever

theorem ofBits_bits (c : Change) : ofBits c.bits = c := by
  obtain ⟨p, t, l, n⟩ := c
  cases p <;> cases t <;> cases l <;> cases n <;> rfl

theorem intersects_comm (a b : Change) : a.intersects b = b.intersects a := by
  simp only [intersects, inter, Bool.and_comm]

end Change

end CustomElements
