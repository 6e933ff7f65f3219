import CustomElements.Component.Definition
import CustomElements.Template.Memo

/-!
# Sessions

A session holds what has to agree across one document: the next index for instances with sheets of
their own, the definitions whose shared sheets have been written, the known tag names, the cache,
and the pending texts written so far.

A call that fails takes back the sheets and pending texts that it recorded, since none of them
reached any output. Indices that it drew are not given out again.
-/

namespace CustomElements

/-- What has to agree across one document. -/
structure Session where
  /-- For each definition that has drawn one, the next index. -/
  counters : List (Nat × Nat)
  /-- The definitions whose shared sheets have been written. -/
  emitted : List Nat
  tagMap : TagMap
  memo : Memo
  /-- The session's namespace in its cache. -/
  templater : Nat
  pending : List PendingText

/-- What a failed call is taken back to. -/
structure Checkpoint where
  emitted : List Nat
  /-- The number of pending texts. -/
  pending : Nat

namespace Session

/-- A session in which nothing has happened. -/
def empty (templater : Nat) : Session := ⟨[], [], ∅, .empty, templater, []⟩

/-- The index that a definition's next instance draws. -/
def counter (s : Session) (definition : Nat) : Nat :=
  ((s.counters.find? fun e => e.1 == definition).map Prod.snd).getD 0

/-- Draws an index. -/
def nextUniqueIndex (s : Session) (definition : Nat) : Nat × Session :=
  let index := s.counter definition
  (index, { s with
    counters := (definition, index + 1) :: s.counters.filter fun e => e.1 != definition })

/-- The definition's shared sheets have been written. -/
def isGlobalEmitted (s : Session) (definition : Nat) : Bool := s.emitted.contains definition

/-- Records that the definition's shared sheets were written; tells whether that is new. -/
def markGlobalEmitted (s : Session) (definition : Nat) : Bool × Session :=
  if s.isGlobalEmitted definition then (false, s)
  else (true, { s with emitted := definition :: s.emitted })

/-- Makes a definition and all it depends on known. -/
def register (s : Session) (c : Catalog) (d : Definition) : Session :=
  { s with tagMap := c.register d s.tagMap }

/-- Makes them known; also gives the number of names that are new. -/
def registerCounted (s : Session) (c : Catalog) (d : Definition) : Nat × Session :=
  ((c.registerCounted d s.tagMap).1, s.register c d)

/-- The definition known by a tag name. -/
def lookup (s : Session) (tag : String) : Option Definition := s.tagMap.get? tag

/-- Hands over the pending texts. -/
def takePending (s : Session) : List PendingText × Session := (s.pending, { s with pending := [] })

/-- What to take a failing call back to. -/
def checkpoint (s : Session) : Checkpoint := ⟨s.emitted, s.pending.length⟩

/-- Forgets the sheets and the pending texts recorded since the checkpoint. -/
def rollback (s : Session) (c : Checkpoint) : Session :=
  { s with emitted := c.emitted, pending := s.pending.take c.pending }

/-- Drops the cached results of an instance; also gives their number. -/
def endInstance (s : Session) (component : Nat) : Nat × Session :=
  let (n, memo) := s.memo.releaseComponent component
  (n, { s with memo := memo })

end Session

/-- Everything that an answer through a session may change, and the answer. -/
structure SessionRendering (α : Type) where
  session : Session
  journal : Journal
  inst : Instance
  answer : Except RenderError (Memoized α)

namespace Session

/-- Answers a request for a template's result through the session's cache. -/
def render (s : Session) (j : Journal) (t : Template) (reason : Change) (inst : Instance) :
    SessionRendering RenderResult :=
  let r := s.memo.render j t reason inst s.templater
  ⟨{ s with memo := r.memo }, r.journal, r.inst, r.answer⟩

/-- The pending texts in an answer. -/
def pendingOf : Except RenderError (Memoized CoercedText) → List PendingText
  | .ok ⟨_, some text⟩ => text.pending
  | _ => []

/-- Answers a request for a template's text and records the pending texts in it. -/
def renderText (s : Session) (j : Journal) (d : Deliveries) (t : Template) (reason : Change)
    (inst : Instance) : SessionRendering CoercedText :=
  let r := s.memo.renderText j d t reason inst s.templater
  ⟨{ s with memo := r.memo, pending := s.pending ++ pendingOf r.answer },
    r.journal, r.inst, r.answer⟩

end Session

end CustomElements
