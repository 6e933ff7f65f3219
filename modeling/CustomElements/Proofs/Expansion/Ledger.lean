import CustomElements.Proofs.Expansion.Parts

/-!
# The ledger of an expansion

The *ledger* of a session is everything in it but its cache. Only the parts of an occurrence write
to it: neither creating an instance nor ending one does, nor does anything that is done with the
nodes. So the occurrences of an expansion, in the order in which they began, tell the whole history
of the ledger: each finds it as the one before left it (`Expands.linked`).

From that alone it follows that a call only adds to the ledger (`Expands.grows`), at whatever depth
and in whatever step it ends.
-/

namespace CustomElements

/-- The session without its cache. -/
def Session.ledger (s : Session) : Session := { s with memo := .empty }

/-- Whether a session has grown is a matter of its ledger. -/
theorem Session.Grows.of_ledger {s s' t t' : Session} (h : s'.Grows t') (hs : s'.ledger = s.ledger)
    (ht : t'.ledger = t.ledger) : s.Grows t := by
  obtain ⟨counters, emitted, tagMap, memo, templater, pending⟩ := s
  obtain ⟨counters', emitted', tagMap', memo', templater', pending'⟩ := t
  obtain ⟨_, _, _, _, _, _⟩ := s'
  obtain ⟨_, _, _, _, _, _⟩ := t'
  cases hs
  cases ht
  exact ⟨h.tagMap, h.templater, h.pending, h.counter, h.emitted⟩

/-- The session when the parts of the occurrence begin. -/
def Occurrence.before (o : Occurrence) : Session := o.start.progress.session

/-- The session when they have ended. -/
def Occurrence.after (o : Occurrence) : Session := o.parts.2.progress.session

/-! ## Histories -/

section Linked

variable {α β : Type} {view : Session → α} {a b c : α} {os os' : List Occurrence}

/--
The history of what `view` shows of a session: `a` is found by the first occurrence, each one finds
what the one before left, and the last one leaves `b`.
-/
def Linked (view : Session → α) (a : α) : List Occurrence → α → Prop
  | [], b => b = a
  | o :: os, b => view o.before = a ∧ Linked view (view o.after) os b

theorem Linked.append (h : Linked view a os b) (h' : Linked view b os' c) :
    Linked view a (os ++ os') c := by
  induction os generalizing a with
  | nil =>
      cases h
      exact h'
  | cons o os ih => exact ⟨h.1, ih h.2⟩

/-- A history is also one of everything that can be told from what it shows. -/
theorem Linked.map (h : Linked view a os b) (f : α → β) : Linked (f ∘ view) (f a) os (f b) := by
  induction os generalizing a with
  | nil => exact congrArg f h
  | cons o os ih => exact ⟨congrArg f h.1, ih h.2⟩

/-- What no occurrence takes back is still there in the end. -/
theorem Linked.rel {r : α → α → Prop} (h : Linked view a os b) (refl : ∀ x, r x x)
    (trans : ∀ x y z, r x y → r y z → r x z) (step : ∀ o ∈ os, r (view o.before) (view o.after)) :
    r a b := by
  induction os generalizing a with
  | nil =>
      cases h
      exact refl _
  | cons o os ih =>
      obtain ⟨rfl, hos⟩ := h
      exact trans _ _ _ (step o List.mem_cons_self)
        (ih hos fun o' ho' => step o' (List.mem_cons_of_mem o ho'))

end Linked

variable {r : Renderer} {d : Deliveries} {theme : Option Theme}

/-- **The occurrences of an expansion account for everything it does to the ledger.** -/
theorem Expands.linked {task : Task} {p p' : Progress} {result : Except Stop (List Node)}
    {os : List Occurrence} (h : Expands r d theme task p result p' os) :
    Linked Session.ledger p.session.ledger os p'.session.ledger := by
  induction h with
  | kept _ => exact rfl
  | plain _ _ _ ih => exact ih
  | custom _ _ _ _ ih ih' => exact ih.append ih'
  | contentStops _ _ _ ih => exact ih
  | nil => exact rfl
  | cons _ _ ih ih' => exact ih.append ih'
  | firstStops _ ih => exact ih
  | noRoom => exact rfl
  | partsStop begins parts =>
      subst begins
      exact ⟨rfl, by rw [Occurrence.after, parts]; rfl⟩
  | passed begins parts =>
      subst begins
      exact ⟨rfl, by rw [Occurrence.after, parts]; rfl⟩
  | filled begins parts _ ih =>
      subst begins
      refine ⟨rfl, ?_⟩
      rw [Occurrence.after, parts]
      -- to end the instance changes the cache only, which the ledger leaves out
      exact ih

/-- **However an expansion ends, it has only added to the ledger.** -/
theorem Expands.grows {task : Task} {p p' : Progress} {result : Except Stop (List Node)}
    {os : List Occurrence} (h : Expands r d theme task p result p' os) :
    p.session.Grows p'.session := by
  have hl : p.session.ledger.Grows p'.session.ledger :=
    h.linked.rel Session.Grows.refl (fun _ _ _ => .trans) fun o _ =>
      o.grows_parts.session.of_ledger rfl rfl
  exact hl.of_ledger rfl rfl

end CustomElements
