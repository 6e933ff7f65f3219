import CustomElements.Markup.Reader.Parser
import CustomElements.Proofs.Session.Reachable

/-!
# A call that fails

A call takes a checkpoint when the definition has been made known, and goes back to it if it fails.
The checkpoint holds little: the records of shared sheets, and how many texts were pending. It is
enough, because the call only adds to the ledger (`Expands.grows`) and leaves nothing in the cache
(`Expands.keepsCache`), in whatever step it stops and however deep. What is kept of a failed call is
the tag names that became known and the indices that were drawn.
-/

namespace CustomElements

/-- Going back to a checkpoint undoes what the session has grown by, except for the counters. -/
theorem Session.rollback_checkpoint {s t : Session} (h : s.Grows t) (hm : t.memo = s.memo) :
    t.rollback s.checkpoint = { s with counters := t.counters } := by
  obtain ⟨counters, emitted, tagMap, memo, templater, pending⟩ := t
  have htag : tagMap = s.tagMap := h.tagMap
  have htemplater : templater = s.templater := h.templater
  have hmemo : memo = s.memo := hm
  have hpending : pending.take s.pending.length = s.pending :=
    (List.prefix_iff_eq_take.mp h.pending).symm
  simp only [rollback, checkpoint, htag, htemplater, hmemo, hpending]

/--
**A failed call leaves the session as it was.** Of everything that a session holds only the tag
names that the definition brings along and the counters can differ: names that were known keep their
definitions and their places, and no counter falls.
-/
theorem Renderer.session_elementToTag_of_error (r : Renderer) (c : Catalog) (d : Deliveries)
    (depth : Nat) (definition : Definition) (attributes : Props) (theme : Option Theme)
    {p p' : Progress} {stop : Stop} (hp : p.Reachable)
    (h : r.elementToTag c d depth definition attributes theme p = (.error stop, p')) :
    p'.session = { p.session with
        tagMap := c.register definition p.session.tagMap
        counters := p'.session.counters } ∧
      p.session.tagMap.entries <+: p'.session.tagMap.entries ∧
      ∀ id, p.session.counter id ≤ p'.session.counter id := by
  obtain ⟨q, os, ⟨n, heq, -⟩ | ⟨stop', heq, hx⟩⟩ :=
    r.elementToTag_cases c d depth definition attributes theme p
  · rw [h] at heq
    cases heq
  · rw [h] at heq
    obtain ⟨-, rfl⟩ := Prod.mk.inj heq
    -- the checkpoint is of the session with the new names, so those are not taken back
    have hgrows := hx.grows
    have hmemo := (hx.keepsCache hp.cacheCreated).memo
    have hback := Session.rollback_checkpoint hgrows hmemo
    dsimp only
    rw [hback]
    exact ⟨rfl, c.prefix_register definition _, hgrows.counter⟩

/-! ## A page that fails late -/

namespace Sample

/-- A component that declares nothing. -/
def component (id : Nat) (tagName : String) (html : RenderFunction) (css : List Template) :
    Definition where
  id := id
  tagName := some tagName
  html := some (.ofFunction (10 * id) .always html)
  css := css
  interface := ⟨[], ⟨false, false, false⟩⟩

/-- A component with a shared sheet and one of its own. -/
def item : Definition :=
  component 0 "x-item" (.ofString "item")
    [.ofFunction 1 .onlyTheme (.ofString "i{top:0}"), .ofFunction 2 .always (.ofString "b{top:1}")]

/-- A component that shows a text which is delivered later. -/
def notice : Definition :=
  component 1 "x-notice"
    (fun _ call => ⟨call.inst.ownAttributes, .ok (.fragment ⟨"", [(.pending ⟨0, "soon"⟩, "")]⟩)⟩) []

/-- A component that cannot be rendered. -/
def bomb : Definition :=
  component 2 "x-bomb" (fun _ call => ⟨call.inst.ownAttributes, .error (.message "late")⟩) []

def page : Definition :=
  component 3 "x-page" (.ofString "<x-item></x-item><x-notice></x-notice><x-bomb></x-bomb>") []

def catalog : Catalog := ⟨[⟨item, none⟩, ⟨notice, none⟩, ⟨bomb, none⟩, ⟨page, some [0, 1, 2]⟩]⟩

def reader : Renderer := ⟨.standard, Markup.parse⟩

/-- A session that has shown a notice. -/
def shown : Progress :=
  (reader.elementToTag catalog Deliveries.none 1 notice ∅ none ⟨.empty 0, .empty⟩).2

end Sample

open Sample in
/-- The page stops in its third part; that a sheet was shared and a text is pending is undone. -/
theorem session_elementToTag_page :
    ∃ p', reader.elementToTag catalog Deliveries.none 2 page ∅ none shown =
        (.error (.error (.render 20 (.message "late"))), p') ∧
      p'.session = { shown.session with
          tagMap := catalog.register page shown.session.tagMap
          counters := p'.session.counters } ∧
      shown.session.tagMap.entries <+: p'.session.tagMap.entries ∧
      ∀ id, shown.session.counter id ≤ p'.session.counter id := by
  have hreachable : shown.Reachable := .tail (.fresh 0 .empty) (.elementToTag ..)
  have hstops : (match (reader.elementToTag catalog Deliveries.none 2 page ∅ none shown).1 with
      | .error stop => some stop
      | .ok _ => none) = some (.error (.render 20 (.message "late"))) := by
    decide +kernel
  rcases hrun : reader.elementToTag catalog Deliveries.none 2 page ∅ none shown with ⟨stop | n, p'⟩
  · rw [hrun] at hstops
    cases hstops
    exact ⟨p', rfl, reader.session_elementToTag_of_error catalog .none 2 page ∅ none hreachable
      hrun⟩
  · rw [hrun] at hstops
    cases hstops

end CustomElements
