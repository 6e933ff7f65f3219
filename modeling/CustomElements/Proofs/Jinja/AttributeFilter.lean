import CustomElements.Jinja.Environment
import CustomElements.Proofs.Jinja.Data
import CustomElements.Proofs.Jinja.Piped

/-!
# The filter for attributes

A text template writes data into markup with the filter `attr`, a render function fills it into a
fragment. Both have the same text for the same data (`Environment.renderSource_attr`). In the
template the data becomes a value, is found under its name among all that the template is given, and
is taken back as data when the filter is applied; what the filter gives is written as it is, since a
source is not taken for markup.
-/

namespace CustomElements

namespace Jinja

/-! ## What a template is given -/

theorem lookup_map_ofJson (name : String) (l : List (String × Json)) :
    (l.map fun e => (e.1, Value.ofJson e.2)).lookup name =
      (Fields.lookup name l).map Value.ofJson := by
  induction l with
  | nil => rfl
  | cons e l ih =>
      rw [List.map_cons, List.lookup_cons, Fields.lookup, ih]
      by_cases h : e.1 = name
      · simp [h]
      · simp [h, beq_false_of_ne (Ne.symm h)]

/-- A property hides the theme and the change. -/
theorem Context.lookup_values (c : Context) {name : String} {v : Json}
    (h : c.props.get? name = some v) : c.values.lookup name = some (.ofJson v) := by
  have hprops : (c.props.entries.map fun e => (e.1, Value.ofJson e.2)).lookup name =
      some (.ofJson v) := by
    rw [lookup_map_ofJson, ← Fields.get?, h]
    rfl
  rw [values, List.lookup_append, hprops]
  rfl

/-- Data holds nothing that changes while a program runs. -/
theorem Store.settle_ofJson (store : Store) (v : Json) : store.settle (.ofJson v) = .ofJson v := by
  cases v with
  | number n => cases n <;> rfl
  | null | bool _ | string _ | array _ | object _ => rfl

/-! ## The filter -/

theorem Take.run_only (v : Value) : Take.only.run (Arguments.none.cons v) = .ok (v, .none) := rfl

/-- A filter that is called without arguments takes the value that it is applied to. -/
theorem Arguments.take_only {v w : Value} {f : Value → Take Value}
    (h : (f v).run .none = .ok (w, .none)) :
    (Arguments.none.cons v).take (do f (← Take.only)) = .ok w := by
  have hall : (do let r ← (do f (← Take.only)); Take.done; return r : Take Value).run
      (Arguments.none.cons v) = .ok (w, .none) := by
    rw [bind_assoc, run_bind_ok (Take.run_only v), run_bind_ok h]
    rfl
  rw [take, StateT.run'_eq, hall]
  rfl

namespace Filter

variable {v : Value}

theorem applyTo_of_basic? {positional : List Value} {named : List (String × Value)} {name : String}
    {r : Except Error Value} (h : basic? name v ⟨positional, named⟩ = some r) :
    applyTo positional named name v = r := by
  unfold applyTo
  simp only [h]

theorem applyTo_attr {j : Json} (h : v.toJson? = some j) :
    applyTo [] [] "attr" v = .ok (.text (attributeText j)) := by
  have htext : onText? "attr" v .none = some (.ok (.text (attributeText j))) := by
    simp only [onText?]
    refine congrArg some (Arguments.take_only ?_)
    rw [h]
    rfl
  refine applyTo_of_basic? ?_
  rw [basic?, ← Arguments.none, htext]
  rfl

end Filter

/-! ## Running -/

section Run

variable {fuel : Nat} {s : Scope} {store : Store} {v w : Value} {e : Expr}

theorem operand_name {name : String} (h : store.find? s name = some v) :
    (operand (fuel + 2) s (.name name)).run store = .ok (store.settle v, store) := by
  have heval : (eval (fuel + 1) s (.name name)).run store = .ok (v, store) := by
    rw [eval]
    change Except.ok ((store.find? s name).getD .undefined, store) = _
    rw [h]
    rfl
  rw [operand, run_bind_ok heval]
  rfl

theorem operand_filter {name : String} (he : (operand fuel s e).run store = .ok (v, store))
    (h : Filter.applyTo [] [] name v = .ok w) :
    (operand (fuel + 2) s (.filter name e [])).run store = .ok (store.settle w, store) := by
  have heval : (eval (fuel + 1) s (.filter name e [])).run store = .ok (w, store) := by
    rw [eval, run_bind_ok he]
    change (Run.of (Filter.applyTo [] [] name v)).run store = _
    rw [h]
    rfl
  rw [operand, run_bind_ok heval]
  rfl

/-- A template that extends no other one and consists of an output writes its value. -/
theorem runProgram_output (blocks : List (String × List Statement)) (size : Nat)
    (hparent : store.parent? = none) (he : (operand fuel s e).run store = .ok (v, store)) :
    (runProgram (fuel + 3) s ⟨[.output e], blocks, size⟩).run store =
      .ok (v.write s.markup, store) := by
  have hrun : (run (fuel + 1) s (.output e)).run store = .ok (v.write s.markup, store) := by
    rw [run, run_bind_ok he]
    rfl
  have hbody : (runBody (fuel + 2) s [.output e]).run store = .ok (v.write s.markup, store) := by
    rw [runBody, List.foldlM_cons]
    simp [StateT.run_bind, hparent, hrun]
  have hget : (get : Run Store).run store = .ok (store, store) := rfl
  rw [runProgram, run_bind_ok hbody, run_bind_ok hget, hparent]
  rfl

end Run

namespace Environment

theorem le_fuel (env : Environment) (p : Program) : 7 ≤ env.fuel p := by
  simp only [fuel, depthLimit]
  omega

/-- The text of an output of a name with the filter for attributes. -/
theorem runAs_attr (env : Environment) (c : Context) {name : String} {v : Json}
    (hv : c.props.get? name = some v) (hordered : v.Ordered) (hfits : v.Fits) (source : String)
    (blocks : List (String × List Statement)) (size : Nat) :
    env.runAs source false ⟨[.output (.filter "attr" (.name name) [])], blocks, size⟩ c =
      .ok (attributeText v) := by
  let p : Program := ⟨[.output (.filter "attr" (.name name) [])], blocks, size⟩
  let scope : Scope := ⟨[0], c.values, false, 1, false, none, env.templates⟩
  let store : Store := .start source p
  obtain ⟨fuel, hfuel⟩ := Nat.exists_eq_add_of_le' (env.le_fuel p)
  have hfind : store.find? scope name = some (.ofJson v) := by
    -- the only frame has no variables, so the name is looked up among what the template is given
    change ((c.values.lookup name).orElse _) = _
    rw [c.lookup_values hv]
    rfl
  have hname : (operand (fuel + 2) scope (.name name)).run store = .ok (.ofJson v, store) := by
    rw [operand_name hfind, store.settle_ofJson]
  have hfilter : (operand (fuel + 4) scope (.filter "attr" (.name name) [])).run store =
      .ok (.text (attributeText v), store) :=
    operand_filter hname (Filter.applyTo_attr (Value.toJson?_ofJson v hordered hfits))
  -- a source is no markup, so the text is written without escapes
  have hprogram := runProgram_output blocks size rfl hfilter
  rw [runAs, hfuel, StateT.run'_eq, hprogram]
  rfl

/--
**The filter for attributes writes a property as the text that it has in an attribute.** The
template is read and rendered without a failure, whatever the theme and the change are, for every
value that data can have and every name that an expression can begin with, also one that the theme
or the change goes by.
-/
theorem renderSource_attr (env : Environment) (c : Context) {name : String} {v : Json}
    (hname : isIdentifier name.toList = true) (hword : name ∉ expressionWords)
    (hv : c.props.get? name = some v) (hordered : v.Ordered) (hfits : v.Fits) :
    env.renderSource ("\x7b\x7b " ++ name ++ " | attr \x7d\x7d") c = .ok (attributeText v) := by
  have hsource : "\x7b\x7b " ++ name ++ " | attr \x7d\x7d" = pipedSource name "attr" := by
    simp only [pipedSource, String.append_assoc]
    rfl
  rw [hsource, renderSource, parse_piped hname hword rfl]
  exact env.runAs_attr c hv hordered hfits sourceName [] 5

end Environment

end Jinja

namespace Sample

/-- Whole numbers at both ends of their range, and an object, which is written as JSON. -/
def basket : Json := .array [.string "<", .null, .array [.bool true, .int (-0x8000000000000000)],
  .int 0xffffffffffffffff, .number (.float 2.5),
  .object [("a", .array [.null, .string "\""]), ("b", .int 0)]]

def basketText : String :=
  "<true-9223372036854775808184467440737095516152.5" ++ "\x7b\"a\":[null,\"\\\"\"],\"b\":0\x7d"

/-- There is a theme, and a property that goes by its name. -/
def basketContext : Jinja.Context :=
  ⟨.ofList [("size", .int 1), ("theme", basket)], some .empty, .force⟩

end Sample

open Jinja Sample in
theorem renderSource_attr_basket :
    isIdentifier "theme".toList = true ∧ "theme" ∉ expressionWords ∧
      basketContext.props.get? "theme" = some basket ∧ basket.Ordered ∧ basket.Fits ∧
      Environment.empty.renderSource "\x7b\x7b theme | attr \x7d\x7d" basketContext =
        .ok basketText := by
  have hname : isIdentifier "theme".toList = true := by decide
  have hword : "theme" ∉ expressionWords := by decide
  have hprops : basketContext.props.get? "theme" = some basket := rfl
  have hordered : basket.Ordered := by
    simp only [basket, Json.Ordered, Json.OrderedItems, Json.OrderedMembers, Json.int]
    decide
  have hfits : basket.Fits := by
    simp only [basket, Json.Fits, Json.FitsItems, Json.FitsMembers, Json.Number.Fits, Json.int]
    decide
  have htext : attributeText basket = basketText := by decide +kernel
  have h := Environment.empty.renderSource_attr basketContext hname hword hprops hordered hfits
  rw [htext] at h
  exact ⟨hname, hword, hprops, hordered, hfits, h⟩

end CustomElements
