import CustomElements.Render.Expand

/-!
# Steps that change a state and may fail

Every step of an expansion changes a state and then either answers or stops; what it did before it
stopped is kept. The laws here run a step that is put together from smaller ones on a given state,
so that nothing after them has to look inside the monads.
-/

namespace CustomElements

variable {σ ε α β : Type}

theorem run_pure (a : α) (s : σ) : (pure a : ExceptT ε (StateM σ) α).run s = (.ok a, s) := rfl

theorem run_get (s : σ) : (get : ExceptT ε (StateM σ) σ).run s = (.ok s, s) := rfl

theorem run_set (s t : σ) : (set t : ExceptT ε (StateM σ) PUnit).run s = (.ok ⟨⟩, t) := rfl

theorem run_modifyGet (f : σ → α × σ) (s : σ) :
    (modifyGet f : ExceptT ε (StateM σ) α).run s = (.ok (f s).1, (f s).2) := rfl

/-- The second step begins where the first one answered; a stop is final. -/
theorem run_bind (x : ExceptT ε (StateM σ) α) (f : α → ExceptT ε (StateM σ) β) (s : σ) :
    (x >>= f).run s = match x.run s with
      | (.ok a, t) => (f a).run t
      | (.error e, t) => (.error e, t) := by
  simp only [bind, ExceptT.bind, ExceptT.mk, ExceptT.run, StateT.bind]
  rcases x s with ⟨a | e, t⟩ <;> rfl

theorem run_map (f : α → β) (x : ExceptT ε (StateM σ) α) (s : σ) :
    (f <$> x).run s = ((x.run s).1.map f, (x.run s).2) := by
  simp only [Functor.map, ExceptT.map, ExceptT.mk, ExceptT.run, bind, StateT.bind]
  rcases x s with ⟨a | e, t⟩ <;> rfl

/-- What the step did before it stopped is still there for its handler. -/
theorem run_tryCatch (x : ExceptT ε (StateM σ) α) (h : ε → ExceptT ε (StateM σ) α) (s : σ) :
    (tryCatch x h).run s = match x.run s with
      | (.ok a, t) => (.ok a, t)
      | (.error e, t) => (h e).run t := by
  simp only [tryCatch, tryCatchThe, MonadExceptOf.tryCatch, ExceptT.tryCatch, ExceptT.mk,
    ExceptT.run, bind, StateT.bind]
  rcases x s with ⟨a | e, t⟩ <;> rfl

end CustomElements
