import CustomElements.Change

/-!
# Stylesheets

A stylesheet is read only as far as scoping needs it: style rules with their selectors and
declarations, the at-rules that group further rules, and every other at-rule, which is kept as it
was written. Selectors, values, preambles and blocks are source text without white space at the
ends.

Scoping turns each selector `s` into `.<id>-s`, in style rules at any depth of grouping. Other
at-rules, such as key frames and font faces, hold nothing that selects elements and stay as they
are.
-/

namespace CustomElements.Style

/-- How a stylesheet is shared between the instances of a definition. -/
inductive Scope where
  /-- One sheet for all instances, written once in a session. -/
  | global
  /-- One sheet for each instance. -/
  | unique
  deriving DecidableEq, Repr

/-- The scope of sheets made by a template with the given mask. -/
def Scope.ofMask (mask : Change) : Scope := if mask.isGlobalStyle then .global else .unique

/-- A property and its value. -/
structure Declaration where
  name : String
  /-- The text of the value, with any `!important`. -/
  value : String
  deriving DecidableEq, Repr

/-- A rule of a stylesheet. -/
inductive Rule where
  /-- Declarations for the elements that one of the selectors matches. -/
  | style (selectors : List String) (declarations : List Declaration)
  /-- An at-rule whose block holds rules, such as `@media`. -/
  | group (name preamble : String) (rules : List Rule)
  /-- Any other at-rule. Without a block it ends in a semicolon. -/
  | verbatim (name preamble : String) (block : Option String)
  deriving Repr

/-- A stylesheet. -/
structure Sheet where
  rules : List Rule
  deriving Repr

/-- The names of the at-rules whose blocks hold rules. -/
def groupingNames : List String := ["media", "supports", "container", "layer", "document"]

mutual

/-- Decides whether two rules are the same. -/
def Rule.decEq : (a b : Rule) → Decidable (a = b)
  | .style s d, .style s' d' =>
    if h : s = s' ∧ d = d' then .isTrue (by rw [h.1, h.2]) else .isFalse (by simpa using h)
  | .group n p r, .group n' p' r' =>
    match Rule.decEqList r r' with
    | .isTrue h =>
      if h' : n = n' ∧ p = p' then .isTrue (by rw [h, h'.1, h'.2])
      else .isFalse (fun e => h' (by cases e; exact ⟨rfl, rfl⟩))
    | .isFalse h => .isFalse (fun e => h (by cases e; rfl))
  | .verbatim n p b, .verbatim n' p' b' =>
    if h : n = n' ∧ p = p' ∧ b = b' then .isTrue (by rw [h.1, h.2.1, h.2.2])
    else .isFalse (by simpa using h)
  | .style .., .group .. => .isFalse (by simp)
  | .style .., .verbatim .. => .isFalse (by simp)
  | .group .., .style .. => .isFalse (by simp)
  | .group .., .verbatim .. => .isFalse (by simp)
  | .verbatim .., .style .. => .isFalse (by simp)
  | .verbatim .., .group .. => .isFalse (by simp)

/-- Decides whether two lists of rules are the same. -/
def Rule.decEqList : (a b : List Rule) → Decidable (a = b)
  | [], [] => .isTrue rfl
  | [], _ :: _ => .isFalse (by simp)
  | _ :: _, [] => .isFalse (by simp)
  | a :: as, b :: bs =>
    match Rule.decEq a b, Rule.decEqList as bs with
    | .isTrue h, .isTrue h' => .isTrue (by rw [h, h'])
    | .isFalse h, _ => .isFalse (fun e => h (by cases e; rfl))
    | _, .isFalse h => .isFalse (fun e => h (by cases e; rfl))

end

instance : DecidableEq Rule := Rule.decEq

instance : DecidableEq Sheet := fun a b =>
  if h : a.rules = b.rules then .isTrue (by cases a; cases b; simp at h; rw [h])
  else .isFalse (fun e => h (by rw [e]))

/-- The sheet has no rules. -/
def Sheet.isEmpty (s : Sheet) : Bool := s.rules.isEmpty

/-! ## Scoping -/

/-- The selector of one component only. -/
def scopedSelector (id selector : String) : String := "." ++ id ++ "-" ++ selector

mutual

/-- The rule with every selector confined to `id`. -/
def Rule.scoped (id : String) : Rule → Rule
  | .style selectors declarations => .style (selectors.map (scopedSelector id)) declarations
  | .group name preamble rules => .group name preamble (Rule.scopedList id rules)
  | .verbatim name preamble block => .verbatim name preamble block

/-- The rules with every selector confined to `id`. -/
def Rule.scopedList (id : String) : List Rule → List Rule
  | [] => []
  | r :: rest => r.scoped id :: Rule.scopedList id rest

end

/-- The sheet with every selector confined to `id`. -/
def Sheet.scoped (s : Sheet) (id : String) : Sheet := ⟨Rule.scopedList id s.rules⟩

/-! ## Text -/

/-- The declaration as written in a rule. -/
def Declaration.render (d : Declaration) : String := d.name ++ ": " ++ d.value ++ ";"

/-- The name and preamble of an at-rule. -/
def atRuleHead (name preamble : String) : String :=
  if preamble = "" then "@" ++ name else "@" ++ name ++ " " ++ preamble

/-- A head with a block around the text. -/
def braced (head body : String) : String := head ++ " \x7b " ++ body ++ " \x7d"

/-- A head with an empty block. -/
def bracedEmpty (head : String) : String := head ++ " \x7b\x7d"

mutual

/-- The text of a rule, on one line. -/
def Rule.render : Rule → String
  | .style selectors declarations =>
    let head := ", ".intercalate selectors
    if declarations.isEmpty then bracedEmpty head
    else braced head (" ".intercalate (declarations.map Declaration.render))
  | .group name preamble rules =>
    braced (atRuleHead name preamble) (" ".intercalate (Rule.renderList rules))
  | .verbatim name preamble block =>
    let head := atRuleHead name preamble
    match block with
    | none => head ++ ";"
    | some text => if text = "" then bracedEmpty head else braced head text

/-- The texts of the rules. -/
def Rule.renderList : List Rule → List String
  | [] => []
  | r :: rest => r.render :: Rule.renderList rest

end

/-- The text of a sheet, one top-level rule a line. -/
def Sheet.render (s : Sheet) : String := "\n".intercalate (Rule.renderList s.rules)

/-! ## Scoping identifiers -/

/-- The identifier shared by all instances of a tag. -/
def globalId (classPrefix tag : String) : String := classPrefix ++ "-" ++ tag

/-- The identifier of one instance of a tag. -/
def uniqueId (classPrefix tag : String) (index : Nat) : String :=
  classPrefix ++ "-" ++ tag ++ "-" ++ toString index

end CustomElements.Style
