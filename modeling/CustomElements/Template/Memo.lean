import CustomElements.Template.Definition

/-!
# The render cache

The cache keeps the last result of each template for each instance and each owner of a namespace. A
request is answered from the cache if there is a result and the reason does not meet the template's
mask, or the template computes only once. A render function that fails leaves the cache as it was.

Which calls were made, and which identities were given out, is kept in a journal beside the cache,
since it outlives any one cache.
-/

namespace CustomElements

/-- What has happened so far: the calls of render functions, and the identities given out. -/
structure Journal where
  /-- The calls made, latest first, with the identity of the template. -/
  calls : List (Nat × Call)
  /-- The number of instances created; the next one takes it as its identity. -/
  instances : Nat

namespace Journal

/-- Nothing has happened. -/
def empty : Journal := ⟨[], 0⟩

/-- The earlier calls of a template's render function, latest first. -/
def history (j : Journal) (template : Nat) : List Call :=
  (j.calls.filter fun e => e.1 == template).map Prod.snd

/-- Takes note of a call. -/
def record (j : Journal) (template : Nat) (call : Call) : Journal :=
  { j with calls := (template, call) :: j.calls }

end Journal

/-- What a cached result belongs to. -/
structure CacheKey where
  /-- The owner of the namespace. -/
  templater : Nat
  component : Nat
  template : Nat
  deriving DecidableEq, Repr

/-- The last results. -/
structure Memo where
  entries : List (CacheKey × RenderResult)

/-- The answer to a request. -/
structure Memoized (α : Type) where
  /-- The value was computed for this request. -/
  changed : Bool
  /-- The value; templates without a render function have none. -/
  value : Option α

namespace Memoized

/-- The answer for a template without a render function. -/
def nothing {α : Type} : Memoized α := ⟨false, none⟩

/-- Changes the value, which may fail. -/
def mapM {α β ε : Type} (f : α → Except ε β) (m : Memoized α) : Except ε (Memoized β) :=
  match m.value with
  | none => .ok ⟨m.changed, none⟩
  | some v => (f v).map fun w => ⟨m.changed, some w⟩

end Memoized

/-- Everything that a request may change, and its answer. -/
structure Rendering (α : Type) where
  memo : Memo
  journal : Journal
  inst : Instance
  answer : Except RenderError (Memoized α)

namespace Memo

/-- An empty cache. -/
def empty : Memo := ⟨[]⟩

/-- The cached result of a key. -/
def get? (m : Memo) (key : CacheKey) : Option RenderResult :=
  (m.entries.find? fun e => e.1 == key).map Prod.snd

/-- A result is cached for the key. -/
def contains (m : Memo) (key : CacheKey) : Bool := (m.get? key).isSome

/-- Replaces the cached result of a key. -/
def insert (m : Memo) (key : CacheKey) (r : RenderResult) : Memo :=
  ⟨(key, r) :: m.entries.filter fun e => e.1 != key⟩

/-- The number of cached results. -/
def size (m : Memo) : Nat := m.entries.length

/-- Nothing is cached. -/
def isEmpty (m : Memo) : Bool := m.entries.isEmpty

/-- Drops the results whose keys satisfy a test; also gives their number. -/
def releaseWhere (m : Memo) (p : CacheKey → Bool) : Nat × Memo :=
  ((m.entries.filter fun e => p e.1).length, ⟨m.entries.filter fun e => !p e.1⟩)

/-- Drops the results of an instance. -/
def releaseComponent (m : Memo) (component : Nat) : Nat × Memo :=
  m.releaseWhere (·.component == component)

/-- Drops the results of a namespace. -/
def releaseTemplater (m : Memo) (templater : Nat) : Nat × Memo :=
  m.releaseWhere (·.templater == templater)

/-- A cached result may be used again. -/
def isFresh (mask reason : Change) : Bool := mask.isNever || !reason.intersects mask

/-- Answers a request for a template's result. -/
def render (m : Memo) (j : Journal) (t : Template) (reason : Change) (inst : Instance)
    (templater : Nat) : Rendering RenderResult :=
  match t.run? with
  | none => ⟨m, j, inst, .ok .nothing⟩
  | some run =>
    let key : CacheKey := ⟨templater, inst.id, t.id⟩
    match (m.get? key).filter fun _ => isFresh t.mask reason with
    | some r => ⟨m, j, inst, .ok ⟨false, some r⟩⟩
    | none =>
      let call : Call := ⟨inst, reason⟩
      let outcome := run (j.history t.id) call
      let j := j.record t.id call
      let inst := { inst with ownAttributes := outcome.ownAttributes }
      match outcome.result with
      | .ok r => ⟨m.insert key r, j, inst, .ok ⟨true, some r⟩⟩
      | .error cause => ⟨m, j, inst, .error (.render t.id cause)⟩

/-- Answers a request for a template's text. -/
def renderText (m : Memo) (j : Journal) (d : Deliveries) (t : Template) (reason : Change)
    (inst : Instance) (templater : Nat) : Rendering CoercedText :=
  let r := m.render j t reason inst templater
  { r with answer := match r.answer with
    | .ok answer => answer.mapM fun result => match result.coerce d with
      | .ok text => .ok text
      | .error kind => .error (.missingText kind)
    | .error e => .error e }

end Memo

end CustomElements
